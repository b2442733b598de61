import SchemaToJava.Package.ResolvedType

/-!
The types inside a type. A type in its plain shape refers to no resource that it does not refer to
anyway.
-/
namespace SchemaToJava.Package.ResolvedType

/-- A type is a node of another when it stands anywhere inside it, or is the whole of it. -/
inductive IsNode (n : ResolvedType) : ResolvedType → Prop
  | root : IsNode n n
  | array {t} : IsNode n t → IsNode n (.array t)
  | map {t} : IsNode n t → IsNode n (.map t)
  | named {token t} : IsNode n t → IsNode n (.named token t)
  | union {t ts} : t ∈ ts → IsNode n t → IsNode n (.union ts)
  | optional {t} : IsNode n t → IsNode n (.optional t)
  | input {t} : IsNode n t → IsNode n (.input t)

mutual

/-- The plain shape of a type refers to no resource that the type does not. -/
theorem isNode_of_plainShape {token : String} : {t : ResolvedType} →
    IsNode (.resource token) t.plainShape → IsNode (.resource token) t
  | .primitive p, h => by simpa [plainShape] using h
  | .array t, h => by
    cases h with
    | array h => exact .array (isNode_of_plainShape h)
  | .map t, h => by
    cases h with
    | map h => exact .map (isNode_of_plainShape h)
  | .object key, h => by cases h
  | .enum _ _, h => by cases h
  | .resource _, h => h
  | .named _ t, h => h
  | .union ts, h => by
    cases h with
    | union ht h =>
      obtain ⟨t, ht, h⟩ := isNode_of_plainShapes ht h
      exact .union ht h
  | .optional t, h => by
    cases h with
    | optional h => exact .optional (isNode_of_plainShape h)
  | .input t, h => .input (isNode_of_plainShape h)

theorem isNode_of_plainShapes {token : String} : {ts : List ResolvedType} → {s : ResolvedType} →
    s ∈ plainShapes ts → IsNode (.resource token) s → ∃ t ∈ ts, IsNode (.resource token) t
  | [], s, hs, h => by cases hs
  | t :: ts, s, hs, h => by
    rcases List.mem_cons.1 hs with rfl | hs
    · exact ⟨t, List.mem_cons_self, isNode_of_plainShape h⟩
    · obtain ⟨u, hu, h⟩ := isNode_of_plainShapes hs h
      exact ⟨u, List.mem_cons_of_mem t hu, h⟩

end

end SchemaToJava.Package.ResolvedType
