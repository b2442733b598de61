import SchemaToJava.Proofs.Discovery

/-!
Why a type cannot be mapped. The mapping fails at a named type inside the type: the token cannot be
read, or it is one of the package's own and there is no such type. A property fails for no other
reason as an input than it does otherwise.
-/
namespace SchemaToJava.Java

open Package Outcome

namespace TypeMapper

/-- Why a named type cannot be mapped. -/
inductive FailsAt (m : TypeMapper) : ResolvedType → GenerationError → Prop
  | object {key : ObjectKey} {e : GenerationError} :
      parseToken key.token = .error e → FailsAt m (.object key) e
  | missingObject {key : ObjectKey} : m.package.owns key.token = true →
      m.package.object? key.token = none →
      FailsAt m (.object key) (.unknownType key.token "object reference")
  | enum {token : String} {p : Primitive} {e : GenerationError} :
      parseToken token = .error e → FailsAt m (.enum token p) e
  | missingEnum {token : String} {p : Primitive} : m.package.owns token = true →
      m.package.enum? token = none →
      FailsAt m (.enum token p) (.unknownType token "enum reference")
  | resource {token : String} {e : GenerationError} :
      parseToken token = .error e → FailsAt m (.resource token) e

variable {m : TypeMapper} {e : GenerationError}

/-- An object type is not mapped if its token is malformed or if it is missing from its own package.
-/
theorem failsAt_of_objectShape {o : ShapeOptions} {key : ObjectKey}
    (h : m.objectShape o key = .error e) : m.FailsAt (.object key) e := by
  rw [objectShape_eq] at h
  rcases bind_eq_error.1 h with h | ⟨r, -, h⟩
  · rcases bind_eq_error.1 h with h | ⟨t, -, h⟩
    · rw [o.sourceOf_token] at h
      exact .object h
    · cases hdirection : o.direction with
      | input =>
        rw [hdirection] at h
        cases h
      | output =>
        rw [hdirection] at h
        cases h
  · split at h
    · cases h
    · next howns =>
      split at h
      · cases h
      · next hmissing =>
        cases h
        exact .missingObject (by simpa using howns) (by simpa using hmissing)

theorem failsAt_of_enumShape {token : String} {p : Primitive} (h : m.enumShape token = .error e) :
    m.FailsAt (.enum token p) e := by
  unfold enumShape at h
  dsimp only at h
  split at h
  · next hmissing =>
    cases h
    obtain ⟨howns, hnone⟩ := Bool.and_eq_true_iff.1 hmissing
    exact .missingEnum howns (by simpa using hnone)
  · exact .enum (bind_pure_eq_error.1 (bind_pure_eq_error.1 h))

theorem failsAt_of_resourceClass {token : String} (h : m.resourceClass token = .error e) :
    m.FailsAt (.resource token) e := by
  rcases bind_eq_error.1 h with h | ⟨t, -, h⟩
  · exact .resource h
  · split at h <;> cases h

mutual

/-- The mapping of a type fails at some type in it. -/
theorem exists_failsAt_of_shape {o : ShapeOptions} {wrapped : Bool} : {t : ResolvedType} →
    m.shape o wrapped t = .error e → ∃ n : ResolvedType, n.IsNode t ∧ m.FailsAt n e
  | .input t, h => by
    unfold shape at h
    split at h
    · obtain ⟨n, hn, hfails⟩ := exists_failsAt_of_shape h
      exact ⟨n, .input hn, hfails⟩
    · obtain ⟨n, hn, hfails⟩ := exists_failsAt_of_shape (bind_pure_eq_error.1 h)
      exact ⟨n, .input hn, hfails⟩
  | .optional t, h => by
    unfold shape at h
    obtain ⟨n, hn, hfails⟩ := exists_failsAt_of_shape (bind_pure_eq_error.1 h)
    exact ⟨n, .optional hn, hfails⟩
  | .array t, h => by
    unfold shape at h
    obtain ⟨n, hn, hfails⟩ := exists_failsAt_of_shape (bind_pure_eq_error.1 h)
    exact ⟨n, .array hn, hfails⟩
  | .map t, h => by
    unfold shape at h
    obtain ⟨n, hn, hfails⟩ := exists_failsAt_of_shape (bind_pure_eq_error.1 h)
    exact ⟨n, .map hn, hfails⟩
  | .object key, h => by
    unfold shape at h
    exact ⟨_, .root, failsAt_of_objectShape h⟩
  | .enum token p, h => by
    unfold shape at h
    exact ⟨_, .root, failsAt_of_enumShape h⟩
  | .resource token, h => by
    unfold shape at h
    exact ⟨_, .root, failsAt_of_resourceClass (bind_pure_eq_error.1 h)⟩
  | .named token t, h => by
    unfold shape at h
    obtain ⟨n, hn, hfails⟩ := exists_failsAt_of_shape h
    exact ⟨n, .named hn, hfails⟩
  | .union ts, h => by
    unfold shape at h
    split at h
    · cases h
    · obtain ⟨t, ht, n, hn, hfails⟩ := exists_failsAt_of_shapes (bind_pure_eq_error.1 h)
      exact ⟨n, .union ht hn, hfails⟩
  | .primitive p, h => by
    unfold shape at h
    cases h

theorem exists_failsAt_of_shapes {o : ShapeOptions} {wrapped : Bool} : {ts : List ResolvedType} →
    m.shapes o wrapped ts = .error e →
      ∃ t ∈ ts, ∃ n : ResolvedType, n.IsNode t ∧ m.FailsAt n e
  | [], h => by
    unfold shapes at h
    cases h
  | t :: ts, h => by
    unfold shapes at h
    rcases bind_eq_error.1 h with h | ⟨first, -, h⟩
    · exact ⟨t, List.mem_cons_self, exists_failsAt_of_shape h⟩
    · obtain ⟨u, hu, hn⟩ := exists_failsAt_of_shapes (bind_pure_eq_error.1 h)
      exact ⟨u, List.mem_cons_of_mem t hu, hn⟩

end

theorem exists_failsAt_of_typeShape {t : ResolvedType} {o : ShapeOptions}
    (h : m.typeShape t o = .error e) :
    ∃ n : ResolvedType, n.IsNode (o.typeOf t) ∧ m.FailsAt n e := by
  exact exists_failsAt_of_shape (bind_pure_eq_error.1 h)

/-- Only the token of a named type counts, not whether its properties are inputs. -/
theorem FailsAt.of_inputElement {t : ResolvedType} (h : m.FailsAt t.inputElement e) :
    m.FailsAt t e := by
  cases t with
  | object key =>
    rw [ResolvedType.inputElement] at h
    cases h with
    | object hparse => exact .object hparse
    | missingObject howns hmissing => exact .missingObject howns hmissing
  | enum token p =>
    rwa [ResolvedType.inputElement] at h
  | resource token =>
    rwa [ResolvedType.inputElement] at h
  | _ =>
    rw [ResolvedType.inputElement] at h
    cases h

section HasType

variable {p : Property} {t n : ResolvedType}

theorem FailsAt.isNode_of_optional {required : Bool} (h : m.FailsAt n e)
    (hn : n.IsNode (if required then t else .optional t)) : n.IsNode t := by
  split at hn
  · exact hn
  · cases hn with
    | root => cases h
    | optional hn => exact hn

/-- The type of a property fails at what it is without its option. -/
theorem exists_failsAt_type (ht : HasType m.package p t) {o : ShapeOptions}
    (h : m.typeShape p.type o = .error e) : ∃ n : ResolvedType, n.IsNode t ∧ m.FailsAt n e := by
  obtain ⟨n, hn, hfails⟩ := exists_failsAt_of_typeShape h
  have htype : o.typeOf p.type = p.type := by
    unfold ShapeOptions.typeOf
    rw [ht.plainShape_eq.1, ite_self]
  rw [htype, ht.type_eq] at hn
  exact ⟨n, hfails.isNode_of_optional hn, hfails⟩

/-- Where the type of an input cannot be mapped, one of its nodes cannot. -/
theorem exists_failsAt_inputType (ht : HasType m.package p t) {o : ShapeOptions}
    (h : m.typeShape p.inputType o = .error e) :
    ∃ n : ResolvedType, n.IsNode t ∧ m.FailsAt n e := by
  obtain ⟨n, hn, hfails⟩ := exists_failsAt_of_typeShape h
  unfold ShapeOptions.typeOf at hn
  split at hn
  · rw [ht.plainShape_eq.2, ht.type_eq] at hn
    exact ⟨n, hfails.isNode_of_optional hn, hfails⟩
  rw [ht.inputType_eq] at hn
  have hn := hfails.isNode_of_optional hn
  split at hn
  · exact ⟨n, hn, hfails⟩
  · rcases isInputPart_of_isNode_inputShape ht.isNormal hn with ⟨u, rfl⟩ | ⟨s, hs, rfl⟩
    · cases hfails
    · exact ⟨s, hs, hfails.of_inputElement⟩

end HasType

end TypeMapper

end SchemaToJava.Java
