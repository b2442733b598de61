import SchemaToJava.Proofs.Emitters
import SchemaToJava.Proofs.MappedTypes

/-!
The classes that files need. Whatever an emitter notes as needed is a class of one of the package's
own object types, and the very one that the mapper assigns to that type in that direction; so a
request is determined by what it is made for.
-/
namespace SchemaToJava.Java

open Package Outcome

/-- The request is the mapper's for its own object type and direction. -/
structure TypeMapper.Serves (m : TypeMapper) (r : ClassRequest) : Prop where
  class_eq : m.objectClass r.source r.direction = .ok r
  isObject : (m.package.object? r.source.token).isSome

namespace TypeMapper

variable {m : TypeMapper}

/-- Requests for one object type in one direction are equal. -/
theorem Serves.eq_of_key {r s : ClassRequest} (hr : m.Serves r) (hs : m.Serves s)
    (hkey : r.key = s.key) : r = s := by
  obtain ⟨hsource, hdirection⟩ := Prod.mk.inj hkey
  have h := hr.class_eq
  rw [hsource, hdirection, hs.class_eq] at h
  exact (Except.ok.inj h).symm

/-- There are no classes to read of the shape with inputs. -/
theorem Serves.isPlain {r : ClassRequest} (hr : m.Serves r) (hdirection : r.direction = .output) :
    r.source.inputShape = false :=
  (objectClass_eq_ok hr.class_eq).2.2.1 hdirection

/-- A class is assigned to what it is made for. -/
theorem objectClass_source {key : ObjectKey} {direction : Direction} {r : ClassRequest}
    (h : m.objectClass key direction = .ok r) : m.objectClass r.source r.direction = .ok r := by
  obtain ⟨hdirection, htoken, -, hsource, -⟩ := objectClass_eq_ok h
  rw [hdirection]
  cases direction with
  | output =>
    unfold objectClass at h ⊢
    rw [htoken]
    exact h
  | input => rwa [hsource rfl]

theorem needed_objectShape {o : ShapeOptions} {key : ObjectKey} {mapped : Mapped}
    (h : m.objectShape o key = .ok mapped) : ∀ r ∈ mapped.needed, m.Serves r := by
  obtain ⟨r, hr, rfl, hobject⟩ := objectShape_eq_ok h
  intro needed hmem
  obtain ⟨howns, hmem⟩ := List.mem_ite_nil_right.1 hmem
  obtain rfl := List.mem_singleton.1 hmem
  refine ⟨objectClass_source hr, ?_⟩
  rw [(objectClass_eq_ok hr).2.1, ShapeOptions.sourceOf_token]
  exact hobject howns

theorem needed_enumShape {token : String} {mapped : Mapped} (h : m.enumShape token = .ok mapped) :
    mapped.needed = [] := by
  unfold enumShape at h
  dsimp only at h
  split at h
  · cases h
  obtain ⟨name, -, h⟩ := bind_eq_ok.1 h
  obtain rfl := pure_eq_ok.1 h
  rfl

theorem needed_shape {o : ShapeOptions} {wrapped : Bool} {t : ResolvedType} {mapped : Mapped}
    (h : m.shape o wrapped t = .ok mapped) : ∀ r ∈ mapped.needed, m.Serves r := by
  replace h := maps_of_shape h
  induction h with
  | known _ _ ih | later _ _ ih | optional _ ih | array _ ih | map _ ih | named _ ih => exact ih
  | object h => exact needed_objectShape h
  | enum h => simp [needed_enumShape h]
  | resource | widened | primitive => simp
  | union _ hlength _ ih =>
    intro r hr
    obtain ⟨alternative, hmem, hr⟩ := List.mem_flatMap.1 hr
    obtain ⟨t, -, hpair⟩ := exists_mem_zip hlength hmem
    exact ih hpair r hr

/-- What a type needs are classes of the package's object types. -/
theorem needed_typeShape {t : ResolvedType} {o : ShapeOptions} {mapped : Mapped}
    (h : m.typeShape t o = .ok mapped) : ∀ r ∈ mapped.needed, m.Serves r := by
  unfold typeShape at h
  obtain ⟨whole, hwhole, h⟩ := bind_eq_ok.1 h
  obtain rfl := pure_eq_ok.1 h
  split
  · exact needed_shape hwhole
  · exact fun r hr => needed_shape hwhole r hr

end TypeMapper

/-- A file stays that of the class it was begun for, and needs nothing but classes of the package's
object types. -/
def requestFrame (m : TypeMapper) : DraftFrame m where
  rel d e := e.imports.owner = d.imports.owner ∧
    ((∀ r ∈ d.needed, m.Serves r) → ∀ r ∈ e.needed, m.Serves r)
  refl _ := ⟨rfl, id⟩
  trans hst htu := ⟨htu.1.trans hst.1, htu.2 ∘ hst.2⟩
  refer d name _ := ⟨(d.imports.claim_extends name).owner, id⟩
  need d t o mapped h := by
    refine ⟨rfl, fun hd r hr => ?_⟩
    rcases List.mem_append.1 hr with hr | hr
    · exact hd r hr
    · exact m.needed_typeShape h r hr

def classPath (owner : QualifiedName) : String := sourceRoot ++ "/" ++ owner.filePath

theorem DraftFrame.Finishes.path_eq {m : TypeMapper} {owner : QualifiedName} {e : Emitted}
    (h : (requestFrame m).Finishes owner e) : e.file.path = classPath owner := by
  obtain ⟨d, text, hd, rfl⟩ := h
  obtain ⟨howner, -⟩ := hd
  change sourceRoot ++ "/" ++ d.imports.owner.filePath = _
  rw [howner]
  rfl

theorem DraftFrame.Finishes.serves {m : TypeMapper} {owner : QualifiedName} {e : Emitted}
    (h : (requestFrame m).Finishes owner e) : ∀ r ∈ e.needed, m.Serves r := by
  obtain ⟨d, text, hd, rfl⟩ := h
  exact hd.2 fun r hr => absurd hr List.not_mem_nil

end SchemaToJava.Java
