import SchemaToJava.Proofs.MappedTypes

/-!
What holds of all Java types that types are mapped to. The mapping starts from classes and puts
shapes together in a few ways; a property that all of these keep holds of whatever comes out. Where
a property speaks of the class and the parameters of each node, changes of annotations keep it.
-/
namespace SchemaToJava.Java

open Package Outcome

namespace TypeMapper

/-- The classes from which the mapping starts: those of primitive types, and those it assigns. -/
inductive Assigns (m : TypeMapper) : QualifiedName → Prop
  | primitive (p : Primitive) : Assigns m (primitiveShape p).base
  | object {key : ObjectKey} {direction : Direction} {r : ClassRequest} :
      m.objectClass key direction = .ok r → Assigns m r.name
  | enum {token : String} {name : QualifiedName} : m.enumClass token = .ok name → Assigns m name
  | resource {token : String} {name : QualifiedName} :
      m.resourceClass token = .ok name → Assigns m name

/-- The type that only names the alternatives, in a comment. -/
def commented (shapes : List TypeShape) : TypeShape where
  base := Library.object
  annotations := ["/* " ++ " | ".intercalate (shapes.map TypeShape.simpleText) ++ " */"]

/-- The property holds of the classes that the mapping starts from, and every way in which it puts
shapes together keeps it. -/
structure ShapeClosed (m : TypeMapper) (Q : TypeShape → Prop) : Prop where
  ofClass : ∀ {base}, m.Assigns base → Q (.ofClass base)
  commented : ∀ {shapes}, (∀ s ∈ shapes, Q s) → Q (commented shapes)
  nullable : ∀ {s}, Q s → Q s.nullable
  optional : ∀ {s}, Q s → Q s.optional
  output : ∀ {s}, Q s → Q s.output
  list : ∀ {s}, Q s → Q (.list s)
  map : ∀ {s}, Q s → Q (.map s)
  either : ∀ {s t}, Q s → Q t → Q (.either s t)
  /-- The annotations of an optional type are put in front of what it holds. -/
  unwrapped : ∀ {s inner}, Q s → s.optional? = some inner →
    Q (s.annotations.foldl TypeShape.annotated inner)

namespace ShapeClosed

variable {m : TypeMapper} {Q : TypeShape → Prop}

section Parts

variable (hQ : m.ShapeClosed Q)
include hQ

theorem primitiveShape (p : Primitive) : Q (primitiveShape p) := hQ.ofClass (.primitive p)

theorem optionalShape {s : TypeShape} (hs : Q s) (o : ShapeOptions) : Q (optionalShape o s) := by
  unfold TypeMapper.optionalShape
  dsimp only
  split
  · exact hQ.nullable hs
  · exact hQ.optional hs

theorem unionShape {shapes : List TypeShape} (h : ∀ s ∈ shapes, Q s) : Q (unionShape shapes) := by
  have hmem := (distinctShapes_spec shapes).1
  unfold TypeMapper.unionShape
  split
  · exact hQ.primitiveShape .any
  · next s hs => exact h s (hmem s (by simp [hs]))
  · next left right hs =>
    exact hQ.either (h left (hmem left (by simp [hs]))) (h right (hmem right (by simp [hs])))
  · exact hQ.commented fun s hs => h s (hmem s hs)

theorem nullableRoot {s : TypeShape} (hs : Q s) : Q (nullableRoot s) := by
  unfold TypeMapper.nullableRoot
  split
  · next inner hinner => exact hQ.nullable (hQ.unwrapped hs hinner)
  · exact hs

theorem objectShape {o : ShapeOptions} {key : ObjectKey} {mapped : Mapped}
    (h : m.objectShape o key = .ok mapped) : Q mapped.shape := by
  obtain ⟨r, hr, rfl, -⟩ := objectShape_eq_ok h
  exact hQ.ofClass (.object hr)

theorem enumShape {token : String} {mapped : Mapped} (h : m.enumShape token = .ok mapped) :
    Q mapped.shape := by
  unfold TypeMapper.enumShape at h
  dsimp only at h
  split at h
  · cases h
  obtain ⟨name, hname, h⟩ := bind_eq_ok.1 h
  obtain rfl := pure_eq_ok.1 h
  exact hQ.ofClass (.enum hname)

end Parts

/-- A property that is closed under the mapping holds at every level. -/
theorem shape (hQ : m.ShapeClosed Q) {o : ShapeOptions} {wrapped : Bool} {t : ResolvedType}
    {mapped : Mapped} (h : m.shape o wrapped t = .ok mapped) : Q mapped.shape := by
  replace h := maps_of_shape h
  induction h with
  | known _ _ ih | named _ ih => exact ih
  | later _ _ ih => exact hQ.output ih
  | optional _ ih => exact hQ.optionalShape ih _
  | array _ ih => exact hQ.list ih
  | map _ ih => exact hQ.map ih
  | object h => exact hQ.objectShape h
  | enum h => exact hQ.enumShape h
  | resource h => exact hQ.ofClass (.resource h)
  | widened | primitive => exact hQ.primitiveShape _
  | union _ hlength _ ih =>
    refine hQ.unionShape (List.forall_mem_map.2 fun alternative hmem => ?_)
    obtain ⟨t, -, hpair⟩ := exists_mem_zip hlength hmem
    exact ih hpair

/-- A property that is closed under the mapping holds of the Java type of every type. -/
theorem of_typeShape (hQ : m.ShapeClosed Q) {t : ResolvedType} {o : ShapeOptions} {mapped : Mapped}
    (h : m.typeShape t o = .ok mapped) : Q mapped.shape := by
  unfold typeShape at h
  obtain ⟨whole, hwhole, h⟩ := bind_eq_ok.1 h
  obtain rfl := pure_eq_ok.1 h
  split
  · exact hQ.shape hwhole
  · exact hQ.nullableRoot (hQ.shape hwhole)

end ShapeClosed

end TypeMapper

end SchemaToJava.Java
