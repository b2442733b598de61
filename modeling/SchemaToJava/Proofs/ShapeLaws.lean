import SchemaToJava.Package.ResolvedType

/-!
The laws of input shapes and plain shapes. An input shape may come later as a whole, and making it
an input again changes nothing; a plain shape is known as a whole, and taking its inputs away again
changes nothing. Taking the inputs away from an input shape leaves the plain shape of the type.
-/
namespace SchemaToJava.Package.ResolvedType

/-- Whether the value of a type, if there is one, may come later. -/
def isLater : ResolvedType → Bool
  | optional t => t.isLater
  | input _ => true
  | _ => false

mutual

/-- Whether there is no input in a type and no object whose properties are inputs. What an alias
stands for is not looked at. -/
def isKnown : ResolvedType → Bool
  | input _ => false
  | optional t => t.isKnown
  | array t => t.isKnown
  | map t => t.isKnown
  | object key => !key.inputShape
  | union ts => areKnown ts
  | primitive _ => true
  | enum _ _ => true
  | resource _ => true
  | named _ _ => true

def areKnown : List ResolvedType → Bool
  | [] => true
  | t :: ts => t.isKnown && areKnown ts

end

theorem isLater_inputShape : (t : ResolvedType) → t.inputShape.isLater = true
  | .optional t => by rw [inputShape, isLater, isLater_inputShape t]
  | .input _ | .array _ | .map _ | .object _ | .union _ | .primitive _ | .enum _ _ | .resource _
  | .named _ _ => by rw [inputShape, isLater]

/-- What may come later as a whole is not wrapped again, whatever stands below. -/
theorem inputShape_eq_self : {t : ResolvedType} → t.isLater = true → t.inputShape = t
  | .optional t, h => by
    rw [isLater] at h
    rw [inputShape, inputShape_eq_self h]
  | .input _, _ => by rw [inputShape]

theorem inputShape_inputShape (t : ResolvedType) : t.inputShape.inputShape = t.inputShape :=
  inputShape_eq_self (isLater_inputShape t)

mutual

theorem isKnown_plainShape : (t : ResolvedType) → t.plainShape.isKnown = true
  | .input t => by rw [plainShape, isKnown_plainShape t]
  | .optional t | .array t | .map t => by rw [plainShape, isKnown, isKnown_plainShape t]
  | .object _ => by rw [plainShape, isKnown, Bool.not_false]
  | .union ts => by rw [plainShape, isKnown, areKnown_plainShapes ts]
  | .primitive _ | .enum _ _ | .resource _ | .named _ _ => by rw [plainShape, isKnown]

theorem areKnown_plainShapes : (ts : List ResolvedType) → areKnown (plainShapes ts) = true
  | [] => by rw [plainShapes, areKnown]
  | t :: ts => by
    rw [plainShapes, areKnown, isKnown_plainShape t, areKnown_plainShapes ts, Bool.and_self]

end

mutual

/-- Where there are no inputs, none are taken away. -/
theorem plainShape_eq_self : {t : ResolvedType} → t.isKnown = true → t.plainShape = t
  | .optional t, h | .array t, h | .map t, h => by
    rw [isKnown] at h
    rw [plainShape, plainShape_eq_self h]
  | .object ⟨token, inputShape⟩, h => by
    rw [isKnown, Bool.not_eq_true'] at h
    rw [plainShape, ← h]
  | .union ts, h => by
    rw [isKnown] at h
    rw [plainShape, plainShapes_eq_self h]
  | .primitive _, _ | .enum _ _, _ | .resource _, _ | .named _ _, _ => by rw [plainShape]

theorem plainShapes_eq_self : {ts : List ResolvedType} → areKnown ts = true → plainShapes ts = ts
  | [], _ => by rw [plainShapes]
  | t :: ts, h => by
    rw [areKnown, Bool.and_eq_true] at h
    rw [plainShapes, plainShape_eq_self h.1, plainShapes_eq_self h.2]

end

theorem plainShape_plainShape (t : ResolvedType) : t.plainShape.plainShape = t.plainShape :=
  plainShape_eq_self (isKnown_plainShape t)

mutual

/-- The inputs that an input shape has more than its type are taken away with the others. -/
theorem plainShape_inputShape : (t : ResolvedType) → t.inputShape.plainShape = t.plainShape
  | .optional t => by rw [inputShape, plainShape, plainShape_inputShape t, plainShape]
  | .input t => by rw [inputShape]
  | .array t => by rw [inputShape, plainShape, plainShape, plainShape_inputShape t, plainShape]
  | .map t => by rw [inputShape, plainShape, plainShape, plainShape_inputShape t, plainShape]
  | .object key => by rw [inputShape, plainShape, plainShape, plainShape]
  | .union ts => by
    rw [inputShape, plainShape, plainShape, plainShapes_inputElements ts, plainShape]
  | .primitive _ | .enum _ _ | .resource _ | .named _ _ => by
    rw [inputShape, plainShape]

theorem plainShape_inputElement : (t : ResolvedType) → t.inputElement.plainShape = t.plainShape
  | .array t | .map t => by
    rw [inputElement, plainShape, plainShape_inputShape t, plainShape]
  | .object key => by rw [inputElement, plainShape, plainShape]
  | .union ts => by rw [inputElement, plainShape, plainShapes_inputElements ts, plainShape]
  | .primitive _ | .enum _ _ | .resource _ | .named _ _ | .optional _ | .input _ => by
    rw [inputElement]

theorem plainShapes_inputElements :
    (ts : List ResolvedType) → plainShapes (inputElements ts) = plainShapes ts
  | [] => by rw [inputElements]
  | t :: ts => by
    rw [inputElements, plainShapes, plainShape_inputElement t, plainShapes_inputElements ts,
      plainShapes]

end

end SchemaToJava.Package.ResolvedType
