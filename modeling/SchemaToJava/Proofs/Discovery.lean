import SchemaToJava.Proofs.InputTypes
import SchemaToJava.Proofs.Requests

/-!
The object classes that the mapping of a type discovers. The mapping meets the named types inside a
type; every class of a mapped type is that of one of them or belongs to the runtime, and the
discovered classes are those of the package's own object types among them. For a property this
keeps the directions apart: what is read, what is written and what is written without inputs.
-/
namespace SchemaToJava.Java

open Package Outcome

/-- The classes of built-in types, and those that other types are put together with. -/
def Library.builtin : List QualifiedName :=
  [Library.object, Library.string, Library.boolean, Library.integer, Library.double,
    Library.jsonElement, Library.assetOrArchive, Library.archive] ++ Library.generics

namespace TypeMapper

mutual

/-- The named types that the mapping of a type meets. Where values are read, an enum among
alternatives stands for all of them by the type of its elements. -/
def met (input : Bool) : ResolvedType → List ResolvedType
  | .primitive _ => []
  | .array t => met input t
  | .map t => met input t
  | .object key => [.object key]
  | .enum token p => [.enum token p]
  | .resource token => [.resource token]
  | .named _ t => met input t
  | .union ts => if input || (widened? ts).isNone then metAmong input ts else []
  | .optional t => met input t
  | .input t => met input t

def metAmong (input : Bool) : List ResolvedType → List ResolvedType
  | [] => []
  | t :: ts => met input t ++ metAmong input ts

end

mutual

/-- What the mapping meets stands in the type. -/
theorem isNode_of_mem_met {input : Bool} {n : ResolvedType} : {t : ResolvedType} →
    n ∈ met input t → n.IsNode t
  | .primitive p, h => by
    rw [met] at h
    cases h
  | .array t, h => by
    rw [met] at h
    exact .array (isNode_of_mem_met h)
  | .map t, h => by
    rw [met] at h
    exact .map (isNode_of_mem_met h)
  | .object key, h => by
    rw [met] at h
    obtain rfl := List.mem_singleton.1 h
    exact .root
  | .enum token p, h => by
    rw [met] at h
    obtain rfl := List.mem_singleton.1 h
    exact .root
  | .resource token, h => by
    rw [met] at h
    obtain rfl := List.mem_singleton.1 h
    exact .root
  | .named token t, h => by
    rw [met] at h
    exact .named (isNode_of_mem_met h)
  | .union ts, h => by
    rw [met] at h
    split at h
    · obtain ⟨t, ht, hn⟩ := isNode_of_mem_metAmong h
      exact .union ht hn
    · cases h
  | .optional t, h => by
    rw [met] at h
    exact .optional (isNode_of_mem_met h)
  | .input t, h => by
    rw [met] at h
    exact .input (isNode_of_mem_met h)

theorem isNode_of_mem_metAmong {input : Bool} {n : ResolvedType} : {ts : List ResolvedType} →
    n ∈ metAmong input ts → ∃ t ∈ ts, n.IsNode t
  | [], h => by
    rw [metAmong] at h
    cases h
  | t :: ts, h => by
    rw [metAmong] at h
    rcases List.mem_append.1 h with h | h
    · exact ⟨t, List.mem_cons_self, isNode_of_mem_met h⟩
    · obtain ⟨u, hu, hn⟩ := isNode_of_mem_metAmong h
      exact ⟨u, List.mem_cons_of_mem t hu, hn⟩

end

section Request

variable (m : TypeMapper) (request : ObjectKey → Except GenerationError ClassRequest)

inductive IsClassOf : ResolvedType → QualifiedName → Prop
  | object {key : ObjectKey} {r : ClassRequest} :
      request key = .ok r → IsClassOf (.object key) r.name
  | enum {token : String} {p : Primitive} {name : QualifiedName} :
      m.enumClass token = .ok name → IsClassOf (.enum token p) name
  | resource {token : String} {name : QualifiedName} :
      m.resourceClass token = .ok name → IsClassOf (.resource token) name

/-- The class belongs to the runtime, or is that of one of the named types. -/
def IsAccounted (parts : List ResolvedType) (base : QualifiedName) : Prop :=
  base ∈ Library.builtin ∨ ∃ part ∈ parts, m.IsClassOf request part base

/-- Shapes are made of the named types that were met. All objects among these have classes, and the
discovered classes are those of the package's own objects. -/
structure AreMadeOf (parts : List ResolvedType) (shapes : List TypeShape)
    (needed : List ClassRequest) : Prop where
  bases : ∀ s ∈ shapes, s.ForallBases (m.IsAccounted request parts)
  objects : ∀ key, .object key ∈ parts → ∃ r, request key = .ok r
  mem_needed : ∀ r, r ∈ needed ↔
    ∃ key, .object key ∈ parts ∧ m.package.owns key.token = true ∧ request key = .ok r

abbrev IsMadeOf (parts : List ResolvedType) (mapped : Mapped) : Prop :=
  m.AreMadeOf request parts [mapped.shape] mapped.needed

end Request

section Request

variable {m : TypeMapper} {request : ObjectKey → Except GenerationError ClassRequest}
  {parts : List ResolvedType}

theorem isAccounted_of_builtin {base : QualifiedName} (h : base ∈ Library.builtin) :
    m.IsAccounted request parts base := .inl h

theorem IsAccounted.mono {others : List ResolvedType} {base : QualifiedName}
    (h : m.IsAccounted request parts base) (hsub : parts ⊆ others) :
    m.IsAccounted request others base := by
  rcases h with h | ⟨part, hpart, hclass⟩
  · exact .inl h
  · exact .inr ⟨part, hsub hpart, hclass⟩

theorem areMadeOf_nil : m.AreMadeOf request [] [] [] := ⟨by simp, by simp, by simp⟩

/-- Changes of a shape that bring in none but built-in classes. -/
theorem AreMadeOf.withShape {shapes : List TypeShape} {needed : List ClassRequest} {s : TypeShape}
    (h : m.AreMadeOf request parts shapes needed)
    (hs : s.ForallBases (m.IsAccounted request parts)) :
    m.AreMadeOf request parts [s] needed :=
  ⟨by simpa using hs, h.objects, h.mem_needed⟩

/-- Parts put together are what the shapes put together are made of. -/
theorem AreMadeOf.append {others : List ResolvedType} {shapes shapes' : List TypeShape}
    {needed needed' : List ClassRequest} (h : m.AreMadeOf request parts shapes needed)
    (h' : m.AreMadeOf request others shapes' needed') :
    m.AreMadeOf request (parts ++ others) (shapes ++ shapes') (needed ++ needed') := by
  refine ⟨fun s hs n hn => ?_, fun key hkey => ?_, fun r => ?_⟩
  · rcases List.mem_append.1 hs with hs | hs
    · exact (h.bases s hs n hn).mono (List.subset_append_left _ _)
    · exact (h'.bases s hs n hn).mono (List.subset_append_right _ _)
  · rcases List.mem_append.1 hkey with hkey | hkey
    · exact h.objects key hkey
    · exact h'.objects key hkey
  · rw [List.mem_append, h.mem_needed r, h'.mem_needed r]
    simp only [List.mem_append, or_and_right, exists_or]

theorem IsMadeOf.base {mapped : Mapped} (h : m.IsMadeOf request parts mapped) :
    mapped.shape.ForallBases (m.IsAccounted request parts) :=
  h.bases mapped.shape (List.mem_singleton_self _)

theorem isMadeOf_primitiveShape (p : Primitive) : m.IsMadeOf request [] ⟨primitiveShape p, []⟩ := by
  refine areMadeOf_nil.withShape (TypeShape.forallBases_ofClass (isAccounted_of_builtin ?_))
  cases p <;> decide

theorem isMadeOf_enumShape {token : String} {p : Primitive} {mapped : Mapped}
    (h : m.enumShape token = .ok mapped) : m.IsMadeOf request [.enum token p] mapped := by
  unfold enumShape at h
  dsimp only at h
  split at h
  · cases h
  obtain ⟨name, hname, h⟩ := bind_eq_ok.1 h
  obtain rfl := pure_eq_ok.1 h
  refine ⟨?_, by simp, by simp⟩
  simpa using TypeShape.forallBases_ofClass (.inr ⟨_, List.mem_singleton_self _, .enum hname⟩)

theorem isMadeOf_resource {token : String} {name : QualifiedName}
    (h : m.resourceClass token = .ok name) :
    m.IsMadeOf request [.resource token] ⟨.ofClass name, []⟩ := by
  refine ⟨?_, by simp, by simp⟩
  simpa using TypeShape.forallBases_ofClass (.inr ⟨_, List.mem_singleton_self _, .resource h⟩)

end Request

/-- An object is made of its own class, which is requested in the direction of the mapping. -/
theorem isMadeOf_objectShape {m : TypeMapper} {o : ShapeOptions} {key : ObjectKey} {mapped : Mapped}
    (h : m.objectShape o key = .ok mapped) : m.IsMadeOf (m.requestFor o) [.object key] mapped := by
  obtain ⟨r, hr, rfl, -⟩ := objectShape_eq_ok h
  refine ⟨fun s hs => ?_, fun k hk => ?_, fun s => ?_⟩
  · obtain rfl := List.mem_singleton.1 hs
    exact TypeShape.forallBases_ofClass (.inr ⟨_, List.mem_singleton_self _, .object hr⟩)
  · cases List.mem_singleton.1 hk
    exact ⟨r, hr⟩
  · rw [List.mem_ite_nil_right, List.mem_singleton]
    constructor
    · rintro ⟨howns, rfl⟩
      exact ⟨key, List.mem_singleton_self _, howns, hr⟩
    · rintro ⟨k, hk, howns, hs⟩
      cases List.mem_singleton.1 hk
      exact ⟨howns, Except.ok.inj (hs.symm.trans hr)⟩

/-- A union of enums that widens to a primitive asks for no file. -/
theorem met_union_of_widened {input : Bool} {ts : List ResolvedType} {p : Primitive}
    (hread : input = false) (h : widened? ts = some p) : met input (.union ts) = [] := by
  simp [met, hread, h]

theorem met_union_of_kept {input : Bool} {ts : List ResolvedType}
    (h : input = true ∨ widened? ts = none) : met input (.union ts) = metAmong input ts := by
  rw [met, if_pos]
  simpa using h

theorem areMadeOf_among {m : TypeMapper} {request : ObjectKey → Except GenerationError ClassRequest}
    {input : Bool} {ts : List ResolvedType} {alternatives : List Mapped}
    (h : List.Forall₂ (fun t mapped => m.IsMadeOf request (met input t) mapped) ts alternatives) :
    m.AreMadeOf request (metAmong input ts) (alternatives.map Mapped.shape)
      (alternatives.flatMap Mapped.needed) := by
  induction h with
  | nil => exact areMadeOf_nil
  | cons hfirst _ ih =>
    rw [metAmong]
    exact hfirst.append ih

/-- The Java type of a type is made of what the mapping meets. Only what is written may have inputs
in it. -/
theorem isMadeOf_shape {m : TypeMapper} {wrapped : Bool} {o : ShapeOptions} {t : ResolvedType}
    {mapped : Mapped} (h : m.shape o wrapped t = .ok mapped)
    (hin : o.input = false → ∀ u, ¬ (ResolvedType.input u).IsNode t) :
    m.IsMadeOf (m.requestFor o) (met o.input t) mapped := by
  replace h := maps_of_shape h
  induction h with
  | known _ _ ih =>
    rw [met]
    exact ih fun hread u hu => hin hread u (.input hu)
  | @later o t inner _ _ ih =>
    have hinput : o.input = true := by
      by_contra hnot
      exact hin (Bool.eq_false_iff.2 hnot) t .root
    have hkept : { o with input := true } = o := by rw [← hinput]
    rw [hkept] at ih
    have hmade := ih fun hread u hu => hin hread u (.input hu)
    rw [met]
    exact hmade.withShape (TypeShape.forallBases_output
      (isAccounted_of_builtin (by decide)) hmade.base)
  | optional _ ih =>
    have hmade := ih fun hread u hu => hin hread u (.optional hu)
    rw [met]
    exact hmade.withShape (forallBases_optionalShape
      (isAccounted_of_builtin (by decide)) hmade.base _)
  | array _ ih =>
    have hmade := ih fun hread u hu => hin hread u (.array hu)
    rw [met]
    exact hmade.withShape (TypeShape.forallBases_list
      (isAccounted_of_builtin (by decide)) hmade.base)
  | map _ ih =>
    have hmade := ih fun hread u hu => hin hread u (.map hu)
    rw [met]
    exact hmade.withShape (TypeShape.forallBases_map
      (isAccounted_of_builtin (by decide)) (isAccounted_of_builtin (by decide)) hmade.base)
  | object h => exact isMadeOf_objectShape h
  | enum h => exact isMadeOf_enumShape h
  | resource h => exact isMadeOf_resource h
  | named _ ih =>
    rw [met]
    exact ih fun hread u hu => hin hread u (.named hu)
  | widened hread hp =>
    rw [met_union_of_widened hread hp]
    exact isMadeOf_primitiveShape _
  | union hkept hlength _ ih =>
    rw [met_union_of_kept hkept]
    have hmade := areMadeOf_among (List.forall₂_iff_zip.2 ⟨hlength, fun hpair =>
      ih hpair fun hread u hu => hin hread u (.union (List.of_mem_zip hpair).1 hu)⟩)
    exact hmade.withShape (forallBases_unionShape (isAccounted_of_builtin (by decide))
      (isAccounted_of_builtin (by decide)) hmade.bases)
  | primitive => exact isMadeOf_primitiveShape _

end TypeMapper

def ShapeOptions.typeOf (o : ShapeOptions) (t : ResolvedType) : ResolvedType :=
  if o.inputless then t.plainShape else t

theorem TypeMapper.isMadeOf_typeShape {m : TypeMapper} {o : ShapeOptions} {t : ResolvedType}
    {mapped : Mapped} (h : m.typeShape t o = .ok mapped)
    (hin : o.input = false → ∀ u, ¬ (ResolvedType.input u).IsNode (o.typeOf t)) :
    m.IsMadeOf (m.requestFor o) (met o.input (o.typeOf t)) mapped := by
  unfold typeShape at h
  obtain ⟨whole, hwhole, h⟩ := bind_eq_ok.1 h
  obtain rfl := pure_eq_ok.1 h
  have hmade := isMadeOf_shape hwhole hin
  split
  · exact hmade
  · exact hmade.withShape (forallBases_nullableRoot hmade.base)

inductive Context where
  | read
  | write
  /-- Written with every value known. -/
  | plain

namespace Context

def options : Context → ShapeOptions
  | read => {}
  | write => { input := true }
  | plain => { input := true, inputless := true }

def typeFor : Context → Property → ResolvedType
  | read, p => p.type
  | write, p => p.inputType
  | plain, p => p.inputType

def direction : Context → Direction
  | read => .output
  | write => .input
  | plain => .input

def inputShape : Context → Property → Bool
  | read, _ => false
  | write, p => !p.plain
  | plain, _ => false

/-- The named types that the mapping of a property meets. -/
def met (c : Context) (p : Property) : List ResolvedType :=
  TypeMapper.met c.options.input (c.options.typeOf (c.typeFor p))

end Context

/-- The discovered classes are those of the package's own objects that the mapping of a property
meets, all in one direction and one shape. -/
structure Discovers (m : TypeMapper) (c : Context) (p : Property) (mapped : Mapped) : Prop where
  /-- A class of the shape belongs to the runtime or is that of a named type that is met. -/
  nodes : ∀ n : TypeShape, n.IsNode mapped.shape →
    m.IsAccounted (m.requestFor c.options) (c.met p) n.base
  /-- An object type that is met has a class, which is discovered if the type is owned. -/
  complete : ∀ key, .object key ∈ c.met p → ∃ r, m.requestFor c.options key = .ok r ∧
    (m.package.owns key.token = true → r ∈ mapped.needed)
  serves : ∀ r ∈ mapped.needed, (m.package.object? r.source.token).isSome ∧
    m.objectClass r.source r.direction = .ok r
  direction : ∀ r ∈ mapped.needed,
    r.direction = c.direction ∧ r.source.inputShape = c.inputShape p

/-- The flags of a discovered class follow from the context and the property. -/
theorem flags_of_requestFor {m : TypeMapper} {p : Property} {t : ResolvedType}
    (ht : HasType m.package p t) (c : Context) {key : ObjectKey} (hkey : .object key ∈ c.met p)
    {r : ClassRequest} (h : m.requestFor c.options key = .ok r) :
    r.direction = c.direction ∧ r.source.inputShape = c.inputShape p := by
  obtain ⟨hdirection, -, houtput, hinput, -⟩ := TypeMapper.objectClass_eq_ok h
  cases c with
  | read => exact ⟨hdirection, houtput rfl⟩
  | write =>
    refine ⟨hdirection, ?_⟩
    rw [hinput rfl]
    exact ht.object_inputType (TypeMapper.isNode_of_mem_met hkey)
  | plain =>
    refine ⟨hdirection, ?_⟩
    rw [hinput rfl]
    rfl

/-- In each context, mapping a property of a bound package discovers the classes that its shape
needs, in the direction and the shape of the context. -/
theorem discovers_of_typeShape {d : Schema.PackageDocument} {m : TypeMapper}
    (hbind : d.bind = .ok m.package) {p : Property} (hp : p ∈ m.package.allProperties)
    (c : Context) {mapped : Mapped} (h : m.typeShape (c.typeFor p) c.options = .ok mapped) :
    Discovers m c p mapped := by
  obtain ⟨t, ht⟩ := exists_hasType (isBound_of_bind hbind) hp
  have hread : c.options.input = false →
      ∀ u, ¬ (ResolvedType.input u).IsNode (c.options.typeOf (c.typeFor p)) := by
    cases c with
    | read => exact fun _ => ht.input
    | write | plain =>
      intro hin
      cases hin
  have hmade := TypeMapper.isMadeOf_typeShape h hread
  refine ⟨hmade.base, fun key hkey => ?_, fun r hr => ?_, fun r hr => ?_⟩
  · obtain ⟨r, hr⟩ := hmade.objects key hkey
    exact ⟨r, hr, fun howns => (hmade.mem_needed r).2 ⟨key, hkey, howns, hr⟩⟩
  · have hserves := m.needed_typeShape h r hr
    exact ⟨hserves.isObject, hserves.class_eq⟩
  · obtain ⟨key, hkey, -, hrequest⟩ := (hmade.mem_needed r).1 hr
    exact flags_of_requestFor ht c hkey hrequest

/-- A property with an own and a foreign object, each inside another type, beside a resource. -/
theorem discovers_of_typeShape_of_nested :
    let referring (reference : String) : Schema.TypeExpr := { reference }
    let d : Schema.PackageDocument := {
      name := "p"
      types := .ofList [("p:m:O", { object := {} })]
      resources := .ofList [("p:m:R", { inputs := .ofList [("x", { type := { oneOf := some [
        { typeName := "array", items := referring "#/types/p:m:O" },
        { typeName := "object", additional := referring "q.json#/types/q:m:O" },
        referring "#/resources/p:m:R"] } })] })] }
    let discovered : Context → List String
      | .read => ["com.pulumi.p.m.outputs.O"]
      | .write => ["com.pulumi.p.m.inputs.OArgs"]
      | .plain => ["com.pulumi.p.m.inputs.OPlainArgs"]
    ∃ m : TypeMapper, d.bind = .ok m.package ∧ ∃ p ∈ m.package.allProperties, ∀ c : Context,
      ∃ mapped, m.typeShape (c.typeFor p) c.options = .ok mapped ∧
        mapped.needed.map (fun r => r.name.dotted) = discovered c ∧ Discovers m c p mapped := by
  intro referring d discovered
  have hbound : d.bind.toOption.map (fun package => package.allProperties.length) = some 1 := by
    decide +kernel
  obtain ⟨package, hpackage, hlength⟩ := Option.map_eq_some_iff.1 hbound
  obtain ⟨p, hp⟩ := List.length_eq_one_iff.1 hlength
  have hbind : d.bind = .ok package := toOption_eq_some.1 hpackage
  have hmapped (c : Context) : d.bind.toOption.map (fun package =>
      package.allProperties.map fun p =>
        ((⟨package, {}, {}⟩ : TypeMapper).typeShape (c.typeFor p) c.options).toOption.map
          fun mapped => mapped.needed.map fun r => r.name.dotted) =
        some [some (discovered c)] := by
    cases c <;> decide +kernel
  refine ⟨⟨package, {}, {}⟩, hbind, p, by simp [hp], fun c => ?_⟩
  have hneeded := hmapped c
  rw [hpackage, Option.map_some, hp, Option.some_inj, List.map_singleton, List.singleton_inj]
    at hneeded
  obtain ⟨mapped, hshape, hneeded⟩ := Option.map_eq_some_iff.1 hneeded
  have h := toOption_eq_some.1 hshape
  exact ⟨mapped, h, hneeded, discovers_of_typeShape hbind (by simp [hp]) c h⟩

end SchemaToJava.Java
