import Mathlib.Data.List.Forall2
import SchemaToJava.Java.TypeMapper
import SchemaToJava.Proofs.Outcomes

/-!
The rules by which types are mapped: one for each kind of type, and two for inputs and for unions.
What holds of the Java type of every type is shown rule by rule.
-/
namespace SchemaToJava.Java.TypeMapper

open Package Outcome

/-- A type is mapped to a Java type. The flag says that an output stands above, where inputs are
known already; where values are read, an enum among alternatives stands for all of them. -/
inductive Maps (m : TypeMapper) : ShapeOptions → Bool → ResolvedType → Mapped → Prop
  | known {o wrapped t mapped} : o.inputless = true ∨ wrapped = true → Maps m o wrapped t mapped →
      Maps m o wrapped (.input t) mapped
  | later {o t inner} : o.inputless = false → Maps m { o with input := true } true t inner →
      Maps m o false (.input t) { inner with shape := inner.shape.output }
  | optional {o wrapped t inner} : Maps m o wrapped t inner →
      Maps m o wrapped (.optional t) { inner with shape := optionalShape o inner.shape }
  | array {o wrapped t inner} : Maps m { o with requireInitializers := false } wrapped t inner →
      Maps m o wrapped (.array t) { inner with shape := .list inner.shape }
  | map {o wrapped t inner} : Maps m { o with requireInitializers := false } wrapped t inner →
      Maps m o wrapped (.map t) { inner with shape := .map inner.shape }
  | object {o wrapped key mapped} : m.objectShape o key = .ok mapped →
      Maps m o wrapped (.object key) mapped
  | enum {o wrapped token p mapped} : m.enumShape token = .ok mapped →
      Maps m o wrapped (.enum token p) mapped
  | resource {o wrapped token name} : m.resourceClass token = .ok name →
      Maps m o wrapped (.resource token) ⟨.ofClass name, []⟩
  | named {o wrapped token t mapped} : Maps m o wrapped t mapped →
      Maps m o wrapped (.named token t) mapped
  | widened {o wrapped ts p} : o.input = false → widened? ts = some p →
      Maps m o wrapped (.union ts) ⟨primitiveShape p, []⟩
  | union {o wrapped ts alternatives} : o.input = true ∨ widened? ts = none →
      ts.length = alternatives.length →
      (∀ {t mapped}, (t, mapped) ∈ ts.zip alternatives →
        Maps m { o with requireInitializers := false } wrapped t mapped) →
      Maps m o wrapped (.union ts)
        ⟨unionShape (alternatives.map Mapped.shape), alternatives.flatMap Mapped.needed⟩
  | primitive {o wrapped p} : Maps m o wrapped (.primitive p) ⟨primitiveShape p, []⟩

theorem shapes_eq_mapM (m : TypeMapper) (o : ShapeOptions) (wrapped : Bool)
    (ts : List ResolvedType) : m.shapes o wrapped ts = ts.mapM (m.shape o wrapped) := by
  induction ts with
  | nil => rw [shapes, List.mapM_nil]
  | cons t ts ih => rw [shapes, List.mapM_cons, ih]

variable {m : TypeMapper}

mutual

/-- A type that is mapped is mapped by the rules. -/
theorem maps_of_shape {o : ShapeOptions} {wrapped : Bool} : {t : ResolvedType} →
    {mapped : Mapped} → m.shape o wrapped t = .ok mapped → m.Maps o wrapped t mapped
  | .input t, mapped, h => by
    unfold shape at h
    split at h
    · next hknown => exact .known (Bool.or_eq_true_iff.1 hknown) (maps_of_shape h)
    · next hopen =>
      obtain ⟨inner, hinner, h⟩ := bind_eq_ok.1 h
      obtain rfl := pure_eq_ok.1 h
      obtain ⟨hinputs, rfl⟩ : o.inputless = false ∧ wrapped = false := by simpa using hopen
      exact .later hinputs (maps_of_shape hinner)
  | .optional t, mapped, h => by
    obtain ⟨inner, hinner, h⟩ := bind_eq_ok.1 h
    obtain rfl := pure_eq_ok.1 h
    exact .optional (maps_of_shape hinner)
  | .array t, mapped, h => by
    obtain ⟨inner, hinner, h⟩ := bind_eq_ok.1 h
    obtain rfl := pure_eq_ok.1 h
    exact .array (maps_of_shape hinner)
  | .map t, mapped, h => by
    obtain ⟨inner, hinner, h⟩ := bind_eq_ok.1 h
    obtain rfl := pure_eq_ok.1 h
    exact .map (maps_of_shape hinner)
  | .object key, mapped, h => .object h
  | .enum token p, mapped, h => .enum h
  | .resource token, mapped, h => by
    obtain ⟨name, hname, h⟩ := bind_eq_ok.1 h
    obtain rfl := pure_eq_ok.1 h
    exact .resource hname
  | .named token t, mapped, h => .named (maps_of_shape h)
  | .union ts, mapped, h => by
    unfold shape at h
    split at h
    · next p hwidened =>
      obtain rfl := pure_eq_ok.1 h
      obtain ⟨hread, hp⟩ : o.input = false ∧ widened? ts = some p := by simpa using hwidened
      exact .widened hread hp
    · next hwidened =>
      obtain ⟨alternatives, halternatives, h⟩ := bind_eq_ok.1 h
      obtain rfl := pure_eq_ok.1 h
      have hkept : o.input = true ∨ widened? ts = none := by
        rw [ite_eq_left_iff] at hwidened
        exact (Bool.eq_false_or_eq_true o.input).imp_right fun hread => hwidened (by simp [hread])
      obtain ⟨hlength, hmaps⟩ := List.forall₂_iff_zip.1 (maps_of_shapes halternatives)
      exact .union hkept hlength hmaps
  | .primitive p, mapped, h => by
    obtain rfl := pure_eq_ok.1 h
    exact .primitive

theorem maps_of_shapes {o : ShapeOptions} {wrapped : Bool} : {ts : List ResolvedType} →
    {alternatives : List Mapped} → m.shapes o wrapped ts = .ok alternatives →
      List.Forall₂ (m.Maps o wrapped) ts alternatives
  | [], alternatives, h => by
    obtain rfl := pure_eq_ok.1 h
    exact .nil
  | t :: ts, alternatives, h => by
    obtain ⟨first, hfirst, h⟩ := bind_eq_ok.1 h
    obtain ⟨others, hothers, h⟩ := bind_eq_ok.1 h
    obtain rfl := pure_eq_ok.1 h
    exact .cons (maps_of_shape hfirst) (maps_of_shapes hothers)

end

/-- What is found for the alternatives of a union is found for one of them. -/
theorem exists_mem_zip {ts : List ResolvedType} {alternatives : List Mapped}
    (hlength : ts.length = alternatives.length) {mapped : Mapped} (h : mapped ∈ alternatives) :
    ∃ t ∈ ts, (t, mapped) ∈ ts.zip alternatives :=
  exists_left_of_mem (List.forall₂_iff_zip.2 ⟨hlength, fun hpair => hpair⟩) h

end SchemaToJava.Java.TypeMapper
