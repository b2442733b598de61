import SchemaToJava.Proofs.InputClasses
import SchemaToJava.Proofs.SetterParameters

/-!
Which setters can be told apart. Of a value, a later value and the items of a list, no two have the
same erased parameter. One of two alternatives may have that of the others, where it has two
alternatives again; this comes from a union inside of a union.
-/
namespace SchemaToJava.Java

open Package Outcome TypeMapper

def NestsUnions (t : ResolvedType) : Prop :=
  ∃ alternatives others, t = .union alternatives ∧ .union others ∈ alternatives

section Unions

variable {m : TypeMapper} {o : ShapeOptions} {wrapped : Bool} {s t : ResolvedType} {mapped : Mapped}

theorem exists_of_mem_inputElements {ts : List ResolvedType}
    (h : s ∈ ResolvedType.inputElements ts) : ∃ t ∈ ts, s = t.inputElement := by
  induction ts with
  | nil =>
    rw [ResolvedType.inputElements] at h
    cases h
  | cons t ts ih =>
    rw [ResolvedType.inputElements] at h
    rcases List.mem_cons.1 h with rfl | h
    · exact ⟨t, List.mem_cons_self, rfl⟩
    · obtain ⟨u, hu, hs⟩ := ih h
      exact ⟨u, List.mem_cons_of_mem t hu, hs⟩

theorem base_primitiveShape (p : Primitive) : (primitiveShape p).base ≠ Library.either := by
  cases p <;> decide

/-- Only a union is mapped to a type with two alternatives. -/
theorem exists_union_of_base {package : Package} (ht : IsNormal package t)
    (hs : s = t ∨ s = t.inputElement) (h : m.Maps o wrapped s mapped)
    (hk : m.KeepsApart s) (hbase : mapped.shape.base = Library.either) : ∃ ts, t = .union ts := by
  have hclass {base : QualifiedName} (hne : base ∉ Library.generics)
      (hshape : mapped.shape = .ofClass base) : False := by
    rw [hshape] at hbase
    exact (TypeShape.ne_of_notMem_generics hne).2.2.2.2 hbase
  -- on the type itself: its elements may be inputs once it is an input, but its root is not
  cases t with
  | union ts => exact ⟨ts, rfl⟩
  | optional u => exact absurd .root (ht.optional u)
  | input u => exact absurd .root (ht.input u)
  | primitive p =>
    obtain rfl : s = .primitive p := by simpa [ResolvedType.inputElement] using hs
    cases h
    exact absurd hbase (base_primitiveShape p)
  | named token u =>
    obtain ⟨-, p, rfl⟩ := ht.named token u .root
    obtain rfl : s = .named token (.primitive p) := by simpa [ResolvedType.inputElement] using hs
    cases h with
    | named h =>
      cases h
      exact absurd hbase (base_primitiveShape p)
  | array u =>
    obtain ⟨element, rfl⟩ : ∃ element, s = .array element := by
      rcases hs with rfl | rfl <;> simp [ResolvedType.inputElement]
    cases h
    exact absurd hbase (by decide : Library.list ≠ Library.either)
  | map u =>
    obtain ⟨element, rfl⟩ : ∃ element, s = .map element := by
      rcases hs with rfl | rfl <;> simp [ResolvedType.inputElement]
    cases h
    exact absurd hbase (by decide : Library.map ≠ Library.either)
  | object key =>
    obtain ⟨other, rfl⟩ : ∃ other, s = .object other := by
      rcases hs with rfl | rfl <;> simp [ResolvedType.inputElement]
    cases h with
    | object h =>
      obtain ⟨base, hne, hshape⟩ := base_objectShape h
      exact (hclass hne hshape).elim
  | enum token p =>
    obtain rfl : s = .enum token p := by simpa [ResolvedType.inputElement] using hs
    cases h with
    | enum h =>
      obtain ⟨base, hne, hshape⟩ := base_enumShape h
      exact (hclass hne hshape).elim
  | resource token =>
    obtain rfl : s = .resource token := by simpa [ResolvedType.inputElement] using hs
    cases h with
    | resource h => exact (hclass (hk token .root _ h) rfl).elim

/-- A side of a collapsed union that is a choice itself was one of the alternatives. -/
theorem exists_of_either_unionShape {shapes : List TypeShape} {left right side : TypeShape}
    (halternatives : (unionShape shapes).either? = some (left, right))
    (hside : side = left ∨ side = right) (hbase : side.base = Library.either) :
    ∃ found ∈ shapes, found.base = Library.either := by
  obtain ⟨hroot, hparameters⟩ := TypeShape.either?_eq_some.1 halternatives
  have hmem := (distinctShapes_spec shapes).1
  unfold unionShape at hroot hparameters
  split at hroot
  · exact absurd hroot (by decide : Library.object ≠ Library.either)
  · next found hfound => exact ⟨found, hmem found (by simp [hfound]), hroot⟩
  · next first second hpair =>
    rw [hpair] at hparameters hmem
    obtain ⟨rfl, rfl⟩ : first = left ∧ second = right := by
      simpa [TypeShape.either] using hparameters
    refine ⟨side, hmem side ?_, hbase⟩
    rcases hside with rfl | rfl <;> simp
  · rw [TypeShape.base_annotated] at hroot
    exact absurd hroot (by decide : Library.object ≠ Library.either)

/-- A type with two alternatives, one of which has two alternatives again, comes from a union inside
of a union. -/
theorem nestsUnions_of_either {package : Package} (ht : IsNormal package t)
    (hs : s = t ∨ s = t.inputElement) (h : m.shape o wrapped s = .ok mapped)
    (hk : m.KeepsApart s) {left right side : TypeShape}
    (halternatives : mapped.shape.either? = some (left, right))
    (hside : side = left ∨ side = right) (hbase : side.base = Library.either) :
    NestsUnions t := by
  obtain ⟨hroot, -⟩ := TypeShape.either?_eq_some.1 halternatives
  obtain ⟨ts, rfl⟩ := exists_union_of_base ht hs (maps_of_shape h) hk hroot
  obtain ⟨alternatives, rfl, hmem⟩ : ∃ alternatives, s = .union alternatives ∧
      ∀ u ∈ alternatives, ∃ v ∈ ts, u = v ∨ u = v.inputElement := by
    rcases hs with rfl | rfl
    · exact ⟨ts, rfl, fun u hu => ⟨u, hu, .inl rfl⟩⟩
    · refine ⟨_, by rw [ResolvedType.inputElement], fun u hu => ?_⟩
      obtain ⟨v, hv, hu⟩ := exists_of_mem_inputElements hu
      exact ⟨v, hv, .inr hu⟩
  cases maps_of_shape h with
  | widened => exact absurd hroot (base_primitiveShape _)
  | union _ hlength hmaps =>
    obtain ⟨found, hfound, heither⟩ := exists_of_either_unionShape halternatives hside hbase
    obtain ⟨inner, hinner, rfl⟩ := List.mem_map.1 hfound
    obtain ⟨u, hu, hpair⟩ := exists_mem_zip hlength hinner
    obtain ⟨v, hv, hvu⟩ := hmem u hu
    obtain ⟨us, rfl⟩ := exists_union_of_base (ht.union v hv) hvu (hmaps hpair)
      (fun token hn => hk token (.union hu hn)) heither
    exact ⟨ts, us, rfl, hv⟩

end Unions

/-- The setters of a field are overloads of one method, declared with these parameters. Their erased
parameters differ exactly if no alternative has a class that another setter takes. Where one has,
the property has a union inside of a union, or it refers to a resource whose class is taken for a
generic one. -/
structure TellsSettersApart (m : TypeMapper) (f : Field) : Prop where
  declares : ∀ text, CanGive (InputClass.setters f) text →
    InputClass.DeclareAll f (InputClass.setterParameters f) text
  nodup_iff : ((InputClass.setterParameters f).map SetterParameter.erased).Nodup ↔
    ¬ f.HasTakenAlternative
  cause : f.HasTakenAlternative →
    ∃ p ∈ m.package.allProperties, (f.property = p.asInput ∨ f.property = p) ∧
      ∃ t, HasType m.package p t ∧ (NestsUnions t ∨ ¬ m.KeepsApart p.type)

variable {m : TypeMapper}

/-- Two setters of a field meet only where a union stands inside another. -/
theorem HasCore.nestsUnions {c : InputClass} {f : Field} {p : Property} {t : ResolvedType}
    {core : Mapped} (h : HasCore m c f t core) (ht : HasType m.package p t)
    (hk : m.KeepsApart p.type) (htaken : f.HasTakenAlternative) : NestsUnions t := by
  have hk := keepsApart_of_hasType ht hk
  obtain ⟨left, right, halternatives, -, side, hside, hbase⟩ := htaken
  cases h with
  | read hcore hknown hroot =>
    rw [hknown] at halternatives
    rw [hroot, (TypeShape.either?_eq_some.1 halternatives).1, or_self] at hbase
    exact nestsUnions_of_either ht.isNormal (.inl rfl) hcore hk halternatives hside hbase
  | input _ hcore hknown hroot =>
    have hkcore : m.KeepsApart t.inputElement := fun token hn =>
      hk token (ht.isNormal.resource_inputShape (ht.isNormal.inputShape_eq ▸ .input hn))
    rw [hknown] at halternatives
    have hparameter : side ∈ core.shape.parameters := by
      rw [(TypeShape.either?_eq_some.1 halternatives).2]
      rcases hside with rfl | rfl <;> simp
    -- the field is a later value, which no alternative of what is known can be
    have hread : side.base ≠ Library.output :=
      (formed_shape hcore hkcore).isKnown (.inr rfl) side (.parameter hparameter .root)
    rw [hroot] at hbase
    exact nestsUnions_of_either ht.isNormal (.inr rfl) hcore hkcore halternatives hside
      (hbase.resolve_right hread)

/-- In every class to write, the setters of each field are overloads with distinct erased parameters
unless one of two alternatives has two alternatives again. -/
theorem tellsSettersApart_of_bind {d : Schema.PackageDocument} (hbind : d.bind = .ok m.package)
    {requested : ClassRequest → Prop} {c : InputClass} (hc : IsInputClass m requested c)
    {fields : List Field} (hfields : CanGive (c.fields m) fields) {f : Field} (hf : f ∈ fields) :
    TellsSettersApart m f := by
  obtain ⟨mapped, hmapped, hshape⟩ := canGive_fields hfields hf
  have hwaits : WaitsOnce f.shape := hshape ▸ (shapeClosed_waitsOnce m).of_typeShape hmapped
  refine ⟨fun text htext => InputClass.declareAll_of_setters htext,
    InputClass.nodup_erased_iff hwaits, fun htaken => ?_⟩
  obtain ⟨p, hp, hproperty, t, ht, hcore⟩ := hc.exists_core hbind hfields hf
  refine ⟨p, hp, hproperty.imp_right And.right, t, ht, ?_⟩
  by_cases hk : m.KeepsApart p.type
  · obtain ⟨core, hcore⟩ := hcore hk
    exact .inl (hcore.nestsUnions ht hk htaken)
  · exact .inr hk

/-- The first argument of the first resource of a package, whose classes are named by default. -/
def firstArgument (package : Package) : Option Field :=
  let m : TypeMapper := ⟨package, {}, {}⟩
  match Generation.resources package with
  | [] => none
  | r :: _ =>
    match ResourceClass.ofResource m r with
    | .error _ => none
    | .ok c =>
      let draft := Draft.start {} c.arguments
      match (((ResourceClass.argumentsClass c.arguments r.inputs).fields m).run.run draft).1 with
      | .ok (f :: _) => some f
      | _ => none

/-- The first argument is a field of a class to write. -/
theorem exists_of_firstArgument {package : Package} {f : Field}
    (h : firstArgument package = some f) (requested : ClassRequest → Prop) :
    ∃ c fields, IsInputClass ⟨package, {}, {}⟩ requested c ∧
      CanGive (c.fields ⟨package, {}, {}⟩) fields ∧ f ∈ fields := by
  unfold firstArgument at h
  dsimp only at h
  split at h
  · cases h
  · next r _ hresources =>
    split at h
    · cases h
    · next c hc =>
      split at h
      · next rest hrun =>
        cases h
        refine ⟨_, f :: rest, .arguments ?_ hc, ⟨_, hrun⟩, List.mem_cons_self⟩
        exact hresources ▸ List.mem_cons_self
      · cases h

/-- A setter for the type of the field, one for its value, and one for each alternative. -/
theorem tellsSettersApart_of_bind_of_alternatives :
    let d : Schema.PackageDocument := {
      name := "p"
      resources := .ofList [("p:m:R", { inputs := .ofList [("x", {
        type := { oneOf := some [{ typeName := "string" },
          { typeName := "array", items := some { typeName := "integer" } }] } })] })] }
    ∃ package f c fields, d.bind = .ok package ∧
      IsInputClass ⟨package, {}, {}⟩ (TypeMapper.Serves ⟨package, {}, {}⟩) c ∧
      CanGive (c.fields ⟨package, {}, {}⟩) fields ∧ f ∈ fields ∧
      (InputClass.setterParameters f).map (·.erased.1.base) =
        ["Output", "Either", "String", "List"] ∧
      TellsSettersApart ⟨package, {}, {}⟩ f := by
  intro d
  have hbound : d.bind.toOption.map (fun package => (firstArgument package).map fun f =>
      (InputClass.setterParameters f).map (·.erased.1.base)) =
        some (some ["Output", "Either", "String", "List"]) := by
    decide +kernel
  obtain ⟨package, hpackage, hfirst⟩ := Option.map_eq_some_iff.1 hbound
  obtain ⟨f, hf, hbases⟩ := Option.map_eq_some_iff.1 hfirst
  have hbind : d.bind = .ok package := toOption_eq_some.1 hpackage
  obtain ⟨c, fields, hc, hfields, hmem⟩ :=
    exists_of_firstArgument hf (TypeMapper.Serves ⟨package, {}, {}⟩)
  exact ⟨package, f, c, fields, hbind, hc, hfields, hmem, hbases,
    tellsSettersApart_of_bind (m := ⟨package, {}, {}⟩) hbind hc hfields hmem⟩

/-- A text, or again one of two alternatives: the value of the field and its second alternative have
setters with the same erased parameter. -/
theorem setters_alike_of_nested_union :
    let d : Schema.PackageDocument := {
      name := "p"
      resources := .ofList [("p:m:R", { inputs := .ofList [("x", {
        type := { oneOf := some [{ typeName := "string" },
          { oneOf := some [{ typeName := "integer" }, { typeName := "boolean" }] }] } })] })] }
    ∃ package f c fields, d.validate = .ok () ∧ d.bind = .ok package ∧
      IsInputClass ⟨package, {}, {}⟩ (TypeMapper.Serves ⟨package, {}, {}⟩) c ∧
      CanGive (c.fields ⟨package, {}, {}⟩) fields ∧ f ∈ fields ∧
      (∃ text, CanGive (InputClass.setters f) text) ∧
      ¬ ((InputClass.setterParameters f).map SetterParameter.erased).Nodup := by
  intro d
  have hvalid : d.validate.toOption = some () := by decide +kernel
  have hbound : d.bind.toOption.map (fun package => (firstArgument package).map fun f =>
      (decide ((InputClass.setterParameters f).map SetterParameter.erased).Nodup,
        (((InputClass.setters f).run.run (.start {} default)).1.toOption.isSome))) =
        some (some (false, true)) := by
    decide +kernel
  obtain ⟨package, hpackage, hfirst⟩ := Option.map_eq_some_iff.1 hbound
  obtain ⟨f, hf, hparts⟩ := Option.map_eq_some_iff.1 hfirst
  obtain ⟨hrepeats, hwritten⟩ := Prod.mk.inj hparts
  obtain ⟨text, htext⟩ := Option.isSome_iff_exists.1 hwritten
  obtain ⟨c, fields, hc, hfields, hmem⟩ :=
    exists_of_firstArgument hf (TypeMapper.Serves ⟨package, {}, {}⟩)
  exact ⟨package, f, c, fields, toOption_eq_some.1 hvalid, toOption_eq_some.1 hpackage, hc, hfields,
    hmem, ⟨text, _, toOption_eq_some.1 htext⟩, of_decide_eq_false hrepeats⟩

end SchemaToJava.Java
