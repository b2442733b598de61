import SchemaToJava.Proofs.MappingRules
import SchemaToJava.Proofs.ShapeForm

/-!
The Java types of a package's types are well formed. The mapping goes down a type with four options
and a note of whether an output stands above; wherever that note is set or nothing is an input, the
result has no later value in it, so that an output never ends up below another one.
-/
namespace SchemaToJava.Java

open Package Outcome

namespace ShapeOptions

def direction (o : ShapeOptions) : Direction := if o.input then .input else .output

def sourceOf (o : ShapeOptions) (key : ObjectKey) : ObjectKey :=
  if o.input && !o.inputless then key else { key with inputShape := false }

theorem sourceOf_token (o : ShapeOptions) (key : ObjectKey) :
    (o.sourceOf key).token = key.token := by
  unfold sourceOf
  split <;> rfl

end ShapeOptions

namespace TypeMapper

variable {m : TypeMapper}

/-- A class of the package's object types lives in its inputs or its outputs. -/
theorem objectClass_eq_ok {key : ObjectKey} {direction : Direction} {r : ClassRequest}
    (h : m.objectClass key direction = .ok r) :
    r.direction = direction ∧ r.source.token = key.token ∧
      (direction = .output → r.source.inputShape = false) ∧
      (direction = .input → r.source = key) ∧
      ∃ module : QualifiedName, ∃ part ∈ [inputsSegment, outputsSegment],
        r.package = module.append part := by
  unfold objectClass at h
  obtain ⟨t, -, h⟩ := bind_eq_ok.1 h
  cases direction with
  | output =>
    obtain rfl := pure_eq_ok.1 h
    refine ⟨rfl, rfl, fun _ => rfl, fun hdirection => ?_, _, _, by simp, rfl⟩
    cases hdirection
  | input =>
    obtain rfl := pure_eq_ok.1 h
    refine ⟨rfl, rfl, fun hdirection => ?_, fun _ => rfl, _, _, by simp, rfl⟩
    cases hdirection

def requestFor (m : TypeMapper) (o : ShapeOptions) (key : ObjectKey) :
    Except GenerationError ClassRequest :=
  m.objectClass (o.sourceOf key) o.direction

theorem objectShape_eq (o : ShapeOptions) (key : ObjectKey) :
    m.objectShape o key = (m.requestFor o key >>= fun r =>
      if !m.package.owns key.token then .ok ⟨.ofClass r.name, []⟩
      else if (m.package.object? key.token).isSome then .ok ⟨.ofClass r.name, [r]⟩
      else .error (.unknownType key.token "object reference")) := by
  unfold objectShape requestFor ShapeOptions.sourceOf ShapeOptions.direction
  cases o.input <;> cases o.inputless <;> rfl

/-- An object type is mapped to one of its classes, which is needed exactly if the type is the
package's own. -/
theorem objectShape_eq_ok {o : ShapeOptions} {key : ObjectKey} {mapped : Mapped}
    (h : m.objectShape o key = .ok mapped) :
    ∃ r, m.requestFor o key = .ok r ∧
      mapped = ⟨.ofClass r.name, if m.package.owns key.token then [r] else []⟩ ∧
      (m.package.owns key.token = true → (m.package.object? key.token).isSome) := by
  rw [objectShape_eq] at h
  obtain ⟨r, hr, h⟩ := bind_eq_ok.1 h
  refine ⟨r, hr, ?_⟩
  cases howns : m.package.owns key.token with
  | false =>
    simp only [howns, Bool.not_false, if_true] at h
    cases h
    exact ⟨rfl, fun h => by cases h⟩
  | true =>
    simp only [howns, Bool.not_true, Bool.false_eq_true, if_false] at h
    split at h
    · next hobject =>
      cases h
      exact ⟨rfl, fun _ => hobject⟩
    · cases h

/-- The classes of object types and enums live in packages whose last segment is fixed. -/
theorem append_append_notMem_generics (name : QualifiedName) {part : String} (base : String)
    (hpart : part ∈ [inputsSegment, outputsSegment, enumsSegment]) :
    (name.append part).append base ∉ Library.generics := by
  intro h
  have hlast : ∀ g ∈ Library.generics, g.segments.getLast? ≠ some part := by
    simp only [List.mem_cons, List.not_mem_nil, or_false] at hpart
    rcases hpart with rfl | rfl | rfl <;> decide
  refine hlast _ h ?_
  have hne : part.isEmpty = false := by
    simp only [List.mem_cons, List.not_mem_nil, or_false] at hpart
    rcases hpart with rfl | rfl | rfl <;> decide
  simp [QualifiedName.append, hne]

theorem base_objectShape {o : ShapeOptions} {key : ObjectKey} {mapped : Mapped}
    (h : m.objectShape o key = .ok mapped) :
    ∃ base, base ∉ Library.generics ∧ mapped.shape = .ofClass base := by
  obtain ⟨r, hr, rfl, -⟩ := objectShape_eq_ok h
  obtain ⟨-, -, -, -, module, part, hpart, hpackage⟩ := objectClass_eq_ok hr
  refine ⟨r.name, ?_, rfl⟩
  rw [ClassRequest.name, hpackage]
  exact append_append_notMem_generics module r.className (List.mem_append_left [enumsSegment] hpart)

theorem base_enumShape {token : String} {mapped : Mapped} (h : m.enumShape token = .ok mapped) :
    ∃ base, base ∉ Library.generics ∧ mapped.shape = .ofClass base := by
  unfold enumShape at h
  dsimp only at h
  split at h
  · cases h
  obtain ⟨name, hname, h⟩ := bind_eq_ok.1 h
  obtain rfl := pure_eq_ok.1 h
  unfold enumClass at hname
  obtain ⟨t, -, hname⟩ := bind_eq_ok.1 hname
  obtain rfl := pure_eq_ok.1 hname
  exact ⟨_, append_append_notMem_generics _ _ (by simp), rfl⟩

/-- The classes that the mapper assigns to resources are not taken for generic ones. -/
def KeepsApart (m : TypeMapper) (t : ResolvedType) : Prop :=
  ∀ token : String, ResolvedType.IsNode (.resource token) t →
    ∀ name : QualifiedName, m.resourceClass token = .ok name → name ∉ Library.generics

section ForallBases

variable {P : QualifiedName → Prop} {s : TypeShape}

theorem forallBases_optionalShape (hoptional : P Library.optional) (h : s.ForallBases P)
    (o : ShapeOptions) : (optionalShape o s).ForallBases P := by
  unfold optionalShape
  dsimp only
  split
  · exact TypeShape.forallBases_annotated h _
  · exact TypeShape.forallBases_optional hoptional h

/-- What is left of the alternatives was among them, and no two are written alike. -/
theorem distinctShapes_spec (shapes : List TypeShape) :
    (∀ s ∈ distinctShapes shapes, s ∈ shapes) ∧
      (distinctShapes shapes).Pairwise fun s t => s.qualifiedText ≠ t.qualifiedText := by
  induction shapes with
  | nil => exact ⟨fun s hs => hs, .nil⟩
  | cons s rest ih =>
    obtain ⟨hmem, hpairwise⟩ := ih
    constructor
    · intro t ht
      rcases List.mem_cons.1 ht with rfl | ht
      · exact List.mem_cons_self
      · exact List.mem_cons_of_mem s (hmem t (List.mem_of_mem_filter ht))
    · refine List.Pairwise.cons ?_ (hpairwise.filter _)
      intro t ht
      have hne := (List.mem_filter.1 ht).2
      exact fun heq => (bne_iff_ne.1 hne) heq.symm

theorem forallBases_unionShape {shapes : List TypeShape} (hobject : P Library.object)
    (heither : P Library.either) (h : ∀ s ∈ shapes, s.ForallBases P) :
    (unionShape shapes).ForallBases P := by
  have hmem := (distinctShapes_spec shapes).1
  unfold unionShape
  split
  · exact TypeShape.forallBases_ofClass hobject
  · next s hs => exact h s (hmem s (by simp [hs]))
  · next left right hs =>
    exact TypeShape.forallBases_either heither (h left (hmem left (by simp [hs])))
      (h right (hmem right (by simp [hs])))
  · exact TypeShape.forallBases_annotated (TypeShape.forallBases_ofClass hobject) _

theorem optional?_eq_some {inner : TypeShape} :
    s.optional? = some inner ↔ s.base = Library.optional ∧ s.parameters = [inner] :=
  TypeShape.unwrap?_eq_some

theorem forallBases_nullableRoot (h : s.ForallBases P) : (nullableRoot s).ForallBases P := by
  unfold nullableRoot
  split
  · next inner hinner =>
    obtain ⟨-, hparameters⟩ := optional?_eq_some.1 hinner
    have hinner := (TypeShape.forallBases_iff.1 h).2 inner (by simp [hparameters])
    exact TypeShape.forallBases_annotated (TypeShape.forallBases_annotatedAll hinner _) _
  · exact h

end ForallBases

/-- A well-formed type, in which nothing comes later if that is asked for. -/
structure Formed (known : Prop) (s : TypeShape) : Prop where
  wellFormed : s.WellFormed
  isKnown : known → s.ForallBases (· ≠ Library.output)

section Formed

variable {known : Prop} {s : TypeShape}

private theorem formed_ofClass {base : QualifiedName} (h : base ∉ Library.generics) :
    Formed known (.ofClass base) :=
  ⟨TypeShape.wellFormed_ofClass h, fun _ =>
    TypeShape.forallBases_ofClass (TypeShape.ne_of_notMem_generics h).2.1⟩

private theorem Formed.annotated (h : Formed known s) (mark : String) :
    Formed known (s.annotated mark) :=
  ⟨TypeShape.wellFormed_annotated h.wellFormed mark,
    fun hk => TypeShape.forallBases_annotated (h.isKnown hk) mark⟩

private theorem wellFormed_annotatedAll (h : s.WellFormed) (marks : List String) :
    (marks.foldl TypeShape.annotated s).WellFormed ∧
      (marks.foldl TypeShape.annotated s).base = s.base := by
  induction marks generalizing s with
  | nil => exact ⟨h, rfl⟩
  | cons mark marks ih =>
    obtain ⟨hmarked, hbase⟩ := ih (TypeShape.wellFormed_annotated h mark)
    exact ⟨hmarked, hbase.trans (TypeShape.base_annotated s mark)⟩

private theorem Formed.list (h : Formed known s) : Formed known (.list s) :=
  ⟨TypeShape.wellFormed_list h.wellFormed,
    fun hk => TypeShape.forallBases_list (by decide) (h.isKnown hk)⟩

private theorem Formed.map (h : Formed known s) : Formed known (.map s) :=
  ⟨TypeShape.wellFormed_map h.wellFormed,
    fun hk => TypeShape.forallBases_map (by decide) (by decide) (h.isKnown hk)⟩

private theorem Formed.optional (h : Formed known s) : Formed known s.optional :=
  ⟨TypeShape.wellFormed_optional h.wellFormed,
    fun hk => TypeShape.forallBases_optional (by decide) (h.isKnown hk)⟩

private theorem formed_optionalShape (h : Formed known s) (o : ShapeOptions) :
    Formed known (optionalShape o s) := by
  unfold optionalShape
  dsimp only
  split
  · exact h.annotated _
  · exact h.optional

private theorem formed_primitiveShape (p : Primitive) : Formed known (primitiveShape p) := by
  cases p <;> exact formed_ofClass (by decide)

private theorem formed_unionShape {shapes : List TypeShape}
    (h : ∀ s ∈ shapes, Formed known s) : Formed known (unionShape shapes) := by
  have hknown (hk : known) : (unionShape shapes).ForallBases (· ≠ Library.output) :=
    forallBases_unionShape (by decide) (by decide) fun s hs => (h s hs).isKnown hk
  refine ⟨?_, hknown⟩
  obtain ⟨hmem, hpairwise⟩ := distinctShapes_spec shapes
  unfold unionShape
  split
  · exact TypeShape.wellFormed_ofClass (by decide)
  · next s hs => exact (h s (hmem s (by simp [hs]))).wellFormed
  · next left right hs =>
    rw [hs] at hmem hpairwise
    have hne : left.qualifiedText ≠ right.qualifiedText := by simpa using hpairwise
    exact TypeShape.wellFormed_either (h left (hmem left (by simp))).wellFormed
      (h right (hmem right (by simp))).wellFormed hne
  · exact TypeShape.wellFormed_annotated (TypeShape.wellFormed_ofClass (by decide)) _

end Formed

/-- By the rules, one for each kind of type: an output is only put around what is known. -/
theorem formed_shape {o : ShapeOptions} {wrapped : Bool} {t : ResolvedType} {mapped : Mapped}
    (h : m.shape o wrapped t = .ok mapped) (hk : m.KeepsApart t) :
    Formed (o.inputless ∨ wrapped) mapped.shape := by
  replace h := maps_of_shape h
  induction h with
  | known _ _ ih => exact ih fun token ht => hk token (.input ht)
  | later hopen _ ih =>
    have hinner := ih fun token ht => hk token (.input ht)
    refine ⟨TypeShape.wellFormed_output hinner.wellFormed (hinner.isKnown (.inr rfl)), ?_⟩
    intro hknown
    simp [hopen] at hknown
  | optional _ ih => exact formed_optionalShape (ih fun token ht => hk token (.optional ht)) _
  | array _ ih => exact (ih fun token ht => hk token (.array ht)).list
  | map _ ih => exact (ih fun token ht => hk token (.map ht)).map
  | object h =>
    obtain ⟨base, hbase, hshape⟩ := base_objectShape h
    exact hshape ▸ formed_ofClass hbase
  | enum h =>
    obtain ⟨base, hbase, hshape⟩ := base_enumShape h
    exact hshape ▸ formed_ofClass hbase
  | resource h => exact formed_ofClass (hk _ .root _ h)
  | named _ ih => exact ih fun token ht => hk token (.named ht)
  | widened | primitive => exact formed_primitiveShape _
  | union _ hlength _ ih =>
    refine formed_unionShape (List.forall_mem_map.2 fun alternative hmem => ?_)
    obtain ⟨t, ht, hpair⟩ := exists_mem_zip hlength hmem
    exact ih hpair fun token hn => hk token (.union ht hn)

/-- Taking the optional type from the root leaves the form as it is, and no optional type behind. -/
private theorem formed_nullableRoot {known : Prop} {s : TypeShape} (h : Formed known s) :
    Formed known (nullableRoot s) ∧ (nullableRoot s).base ≠ Library.optional := by
  obtain ⟨hfits, hps⟩ := TypeShape.wellFormed_iff.1 h.wellFormed
  suffices hroot : (nullableRoot s).WellFormed ∧ (nullableRoot s).base ≠ Library.optional from
    ⟨⟨hroot.1, fun hk => forallBases_nullableRoot (h.isKnown hk)⟩, hroot.2⟩
  unfold nullableRoot
  split
  · next inner hinner =>
    obtain ⟨hbase, hparameters⟩ := optional?_eq_some.1 hinner
    obtain ⟨p, hp, hne⟩ := hfits.optional hbase
    obtain rfl : inner = p := by simpa using hparameters.symm.trans hp
    obtain ⟨hmarked, hmarkedBase⟩ :=
      wellFormed_annotatedAll (hps inner (by simp [hparameters])) s.annotations
    refine ⟨TypeShape.wellFormed_annotated hmarked _, ?_⟩
    rw [TypeShape.nullable, TypeShape.base_annotated, hmarkedBase]
    exact hne
  · next hnone =>
    refine ⟨h.wellFormed, fun hbase => ?_⟩
    obtain ⟨p, hp, -⟩ := hfits.optional hbase
    rw [optional?_eq_some.2 ⟨hbase, hp⟩] at hnone
    cases hnone

/-- The Java type of a type is well formed. Nothing in it comes later if nothing is an input, and
its root is not optional unless that is asked for. -/
theorem typeShape_wellFormed {t : ResolvedType} {o : ShapeOptions} {mapped : Mapped}
    (h : m.typeShape t o = .ok mapped) (hk : m.KeepsApart t) :
    mapped.shape.WellFormed ∧ (o.inputless = true → mapped.shape.IsKnown) ∧
      (o.outerOptional = false → mapped.shape.base ≠ Library.optional) := by
  unfold typeShape at h
  obtain ⟨whole, hwhole, h⟩ := bind_eq_ok.1 h
  have hformed : Formed (o.inputless ∨ false) whole.shape := by
    refine formed_shape hwhole ?_
    split
    · exact fun token ht => hk token (ResolvedType.isNode_of_plainShape ht)
    · exact hk
  have hroot := formed_nullableRoot hformed
  obtain rfl := pure_eq_ok.1 h
  split
  · next houter =>
    exact ⟨hformed.wellFormed, fun hin => hformed.isKnown (.inl hin),
      fun hout => absurd houter (by simp [hout])⟩
  · exact ⟨hroot.1.wellFormed, fun hin => hroot.1.isKnown (.inl hin), fun _ => hroot.2⟩

/-- Inputs of a map whose values are inputs again, each either a resource or a text. -/
theorem typeShape_wellFormed_of_nested :
    let m : TypeMapper := ⟨{ name := "p" }, {}, {}⟩
    let t : ResolvedType :=
      .input (.optional (.map (.input (.union [.resource "p:m:R", .primitive .string]))))
    let o : ShapeOptions := { requireInitializers := true }
    m.KeepsApart t ∧ ∃ mapped : Mapped, m.typeShape t o = .ok mapped ∧
      mapped.shape.qualifiedText = "com.pulumi.core.Output<java.util.Optional<java.util.Map<" ++
        "java.lang.String,com.pulumi.core.Either<com.pulumi.p.m.R,java.lang.String>>>>" ∧
      mapped.shape.WellFormed ∧ mapped.shape.base ≠ Library.optional := by
  intro m t o
  have hk : m.KeepsApart t := by
    intro token ht name hname
    have htoken : token = "p:m:R" := by
      unfold t at ht
      cases ht with
      | input ht => cases ht with
        | optional ht => cases ht with
          | map ht => cases ht with
            | input ht => cases ht with
              | union hmem ht =>
                rcases List.mem_cons.1 hmem with rfl | hmem
                · cases ht
                  rfl
                · obtain rfl := List.mem_singleton.1 hmem
                  cases ht
    have hclass : (m.resourceClass "p:m:R").toOption = some ⟨["com", "pulumi", "p", "m"], "R"⟩ := by
      decide +kernel
    rw [← htoken, hname] at hclass
    obtain rfl := Option.some.inj hclass
    decide
  have htext : (m.typeShape t o).toOption.map (·.shape.qualifiedText) =
      some ("com.pulumi.core.Output<java.util.Optional<java.util.Map<" ++
        "java.lang.String,com.pulumi.core.Either<com.pulumi.p.m.R,java.lang.String>>>>") := by
    decide +kernel
  obtain ⟨mapped, hmapped, htext⟩ := Option.map_eq_some_iff.1 htext
  have h : m.typeShape t o = .ok mapped := toOption_eq_some.1 hmapped
  obtain ⟨hformed, -, hroot⟩ := typeShape_wellFormed h hk
  exact ⟨hk, mapped, h, htext, hformed, hroot rfl⟩

end TypeMapper

end SchemaToJava.Java
