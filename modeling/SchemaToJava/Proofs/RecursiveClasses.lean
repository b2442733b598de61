import SchemaToJava.Proofs.Constructors
import SchemaToJava.Proofs.InputFiles

/-!
Classes to write with a field of their own class. Only what is known already is held as it is, so
this happens in the class without inputs of an object type that refers to itself. If the field is
the only one, the constructor that takes it is one that copies. Otherwise the class would have to be
one that is not generated with the package but has the same name.
-/
namespace SchemaToJava.Java

open Package Outcome TypeMapper

/-- The name ends like those of classes to write. -/
def IsWrittenName (name : QualifiedName) : Prop :=
  "Args".toList <:+ name.base.toList ∨ "State".toList <:+ name.base.toList

instance (name : QualifiedName) : Decidable (IsWrittenName name) :=
  inferInstanceAs (Decidable (_ ∨ _))

section Names

variable {m : TypeMapper} {requested : ClassRequest → Prop} {c : InputClass}

theorem isWrittenName_of_base {name : QualifiedName} {front ending : String}
    (hbase : name.base = front ++ ending)
    (h : "Args".toList <:+ ending.toList ∨ "State".toList <:+ ending.toList) :
    IsWrittenName name := by
  unfold IsWrittenName
  rw [hbase, String.toList_append]
  exact h.imp (fun h => h.trans (List.suffix_append ..)) fun h => h.trans (List.suffix_append ..)

theorem isWrittenName_of_objectClass {key : ObjectKey} {r : ClassRequest}
    (h : m.objectClass key .input = .ok r) : IsWrittenName r.name := by
  obtain ⟨t, -, h⟩ := bind_eq_ok.1 h
  obtain rfl := pure_eq_ok.1 h
  refine isWrittenName_of_base rfl ?_
  split <;> decide

/-- The classes to write have names that nothing in the runtime has. -/
theorem IsInputClass.isWrittenName (h : IsInputClass m requested c)
    (hserves : ∀ r, requested r → m.Serves r) : IsWrittenName c.name := by
  cases h with
  | @arguments r c hr hc =>
    obtain ⟨-, harguments, -⟩ := ResourceClass.names_of_ofResource hc
    exact isWrittenName_of_base (congrArg QualifiedName.base harguments) (by decide)
  | @state r c name properties hr hc hname hproperties =>
    obtain ⟨-, -, hstate⟩ := ResourceClass.names_of_ofResource hc
    obtain ⟨module, -, rfl⟩ := hstate name hname
    exact isWrittenName_of_base rfl (by decide)
  | @functionArguments f s inputs hf hs hinputs =>
    obtain ⟨t, -, hs⟩ := bind_eq_ok.1 hs
    obtain rfl := pure_eq_ok.1 hs
    dsimp only
    rw [if_pos (by simp [hinputs])]
    exact isWrittenName_of_base rfl (by decide)
  | @plainArguments f s inputs hf hs hinputs =>
    obtain ⟨t, -, hs⟩ := bind_eq_ok.1 hs
    obtain rfl := pure_eq_ok.1 hs
    dsimp only
    rw [if_pos (by simp [hinputs])]
    exact isWrittenName_of_base rfl (by decide)
  | @object r o hrequested hdirection ho =>
    have hclass := (hserves r hrequested).class_eq
    rw [hdirection] at hclass
    exact isWrittenName_of_objectClass hclass

theorem not_isWrittenName_builtin : ∀ base ∈ Library.builtin, ¬ IsWrittenName base := by
  decide

end Names

section Parts

variable {m : TypeMapper} {requested : ClassRequest → Prop} {c : InputClass} {fields : List Field}
  {f : Field} {d : Schema.PackageDocument}

theorem base_output (s : TypeShape) : s.output.base = Library.output := by
  unfold TypeShape.output
  split
  · next h => exact TypeShape.is_eq_true_iff.1 h
  · rfl

/-- What may come later is held as an output. -/
theorem base_of_input {o : ShapeOptions} {t u : ResolvedType} {required : Bool} {mapped : Mapped}
    (h : m.typeShape u o = .ok mapped) (houter : o.outerOptional = false)
    (hinputless : o.inputless = false)
    (htype : o.typeOf u = if required then .input t else .optional (.input t)) :
    mapped.shape.base = Library.output := by
  unfold typeShape at h
  obtain ⟨whole, hwhole, h⟩ := bind_eq_ok.1 h
  obtain rfl := pure_eq_ok.1 h
  change m.shape o false (o.typeOf u) = _ at hwhole
  rw [htype] at hwhole
  obtain ⟨inner, hinner, hshape⟩ := shape_eq_ok hwhole
  rw [TypeMapper.shape, if_neg (by simp [hinputless])] at hinner
  obtain ⟨core, -, hinner⟩ := bind_eq_ok.1 hinner
  obtain rfl := pure_eq_ok.1 hinner
  have houtput : whole.shape.base = Library.output := by
    rw [hshape]
    split
    · exact base_output _
    · simp [optionalShape, TypeShape.is, base_output, TypeShape.nullable, TypeShape.base_annotated]
  have hroot : nullableRoot whole.shape = whole.shape :=
    nullableRoot_eq_self (houtput ▸ by decide)
  simp [houter, hroot, houtput]

theorem requestFor_shapeOptions (c : InputClass) (token : String) :
    m.requestFor c.shapeOptions ⟨token, false⟩ = m.objectClass ⟨token, false⟩ .input := by
  unfold requestFor ShapeOptions.sourceOf
  split <;> rfl

/-- A field of the class itself has a type, read as it is, in which something is mapped to the
class. -/
theorem IsInputClass.exists_part (hbind : d.bind = .ok m.package)
    (hc : IsInputClass m requested c) (hname : IsWrittenName c.name)
    (hfields : CanGive (c.fields m) fields) (hf : f ∈ fields) (hbase : f.shape.base = c.name) :
    ∃ p ∈ m.package.allProperties, (f.property = p.asInput ∨ c.inputless = true ∧ f.property = p) ∧
      f.property ∈ c.properties ∧ ∃ t, HasType m.package p t ∧
      ∃ mapped, m.typeShape f.property.type c.shapeOptions = .ok mapped ∧
        m.IsMadeOf (m.requestFor c.shapeOptions)
          (met true (c.shapeOptions.typeOf f.property.type)) mapped ∧
        ∃ part ∈ met true (c.shapeOptions.typeOf f.property.type), part.IsNode t ∧
          m.IsClassOf (m.requestFor c.shapeOptions) part c.name := by
  obtain ⟨q, hq, hfield⟩ := canGive_mapM hfields f hf
  obtain ⟨rfl, mapped, hmapped, hshape⟩ := canGive_ofProperty hfield
  obtain ⟨p, hp, hproperty, t, body, ht, htype, hbody⟩ := hc.exists_typeOf hbind hq
  have hmade := isMadeOf_typeShape hmapped (fun hread => nomatch hread)
  refine ⟨p, hp, hproperty, hq, t, ht, mapped, hmapped, hmade, ?_⟩
  -- an input would be held as an output, which is no class to write
  have hread : body = t := by
    rcases hbody with hbody | ⟨rfl, hinputless⟩
    · exact hbody
    · rw [ht.isNormal.inputShape_eq] at htype
      have houtput := base_of_input hmapped rfl hinputless htype
      rw [hshape, hbase] at houtput
      rw [houtput] at hname
      exact absurd hname (by decide)
  subst hread
  rcases hmade.base mapped.shape .root with hbuiltin | ⟨part, hpart, hclass⟩
  · rw [hshape, hbase] at hbuiltin
    exact absurd hname (not_isWrittenName_builtin _ hbuiltin)
  · rw [hshape, hbase] at hclass
    refine ⟨part, hpart, ?_, hclass⟩
    have hn : part.IsNode (c.shapeOptions.typeOf f.property.type) := isNode_of_mem_met hpart
    rw [htype] at hn
    split at hn
    · exact hn
    · cases hn with
      | root => cases hclass
      | optional hn => exact hn

end Parts

/-- Something that the type names has the class: the class is that of an object type, which is
named, when nothing is an input; or it is one with the same name, which is not generated with the
package. -/
inductive NamesClass (m : TypeMapper) (c : InputClass) (t : ResolvedType) : Prop
  | recursive {token : String} {o : ObjectType} {r : ClassRequest} :
      (ResolvedType.object ⟨token, false⟩).IsNode t → m.package.object? token = some o →
      m.objectClass ⟨token, false⟩ .input = .ok r → c = r.inputClass o → NamesClass m c t
  | foreignObject {token : String} {r : ClassRequest} :
      (ResolvedType.object ⟨token, false⟩).IsNode t → m.package.owns token = false →
      m.objectClass ⟨token, false⟩ .input = .ok r → r.name = c.name → NamesClass m c t
  | undeclaredResource {token : String} : (ResolvedType.resource token).IsNode t →
      token ∉ (Generation.resources m.package).map Resource.token →
      m.resourceClass token = .ok c.name → NamesClass m c t

namespace Generation

variable {m : TypeMapper} {members : List Emitted} {resources functions : List (List Emitted)}
  {enumFiles others : List Emitted} {classes : List Rendered} {c : InputClass} {e : Emitted}

/-- What the file of a class to write needs is reached. -/
theorem IsPlaced.reached (hdivides : Divides m members resources functions enumFiles others)
    (hclasses : Closure m members classes) (h : IsPlaced m resources functions classes c e)
    {r : ClassRequest} (hr : r ∈ e.needed) : Reached m members r.key := by
  have hmember (he : e ∈ members) : Reached m members r.key := .ofMember he hr
  cases h with
  | resource hes he =>
    refine hmember (hdivides.members_eq ▸ ?_)
    simp [List.mem_flatten_of_mem hes (List.mem_cons_of_mem _ he)]
  | function hes he =>
    refine hmember (hdivides.members_eq ▸ ?_)
    simp [List.mem_flatten_of_mem hes he]
  | @object s o hs hdirection ho hc =>
    have hreached : Reached m members s.key :=
      (hclasses.reached_iff s.key).2 (List.mem_map.2 ⟨_, hs, rfl⟩)
    have hserves : m.Serves s := hclasses.serves (s, e) hs
    have hrendered : objectClass m s = .ok e := hclasses.rendered (s, e) hs
    exact .ofClass hreached hserves.class_eq hrendered hr

/-- What a class to write names and has the class itself. -/
theorem namesClass_of_base {d : Schema.PackageDocument} (hbind : d.bind = .ok m.package)
    (hmembers : memberClasses m = .ok members) (hclasses : Closure m members classes)
    (hnodup : ((allFiles m members classes).map SourceFile.path).Nodup)
    (hc : IsInputClass m (fun r => ∃ e, (r, e) ∈ classes) c) {fields : List Field}
    (hfields : CanGive (c.fields m) fields) {f : Field} (hf : f ∈ fields)
    (hbase : f.shape.base = c.name) :
    ∃ p ∈ m.package.allProperties, (f.property = p.asInput ∨ f.property = p) ∧
      ∃ t, HasType m.package p t ∧ NamesClass m c t := by
  have hname := hc.isWrittenName fun r ⟨_, hr⟩ => hclasses.serves _ hr
  obtain ⟨p, hp, hproperty, hq, t, ht, mapped, hmapped, hmade, part, hpart, hn, hclass⟩ :=
    hc.exists_part hbind hname hfields hf hbase
  refine ⟨p, hp, hproperty.imp_right And.right, t, ht, ?_⟩
  obtain ⟨resources, functions, enumFiles, others, hdivides⟩ := exists_divides hmembers
  obtain ⟨e, hemit, hplaced⟩ := exists_isPlaced hdivides hclasses hc
  have hdistinct := hdivides.distinct hnodup
  have hpath : e.file.path = classPath c.name :=
    ((requestFrame m).finishes_input hc.isQualified_base hemit).path_eq
  -- each class that the type may name has a file with the path of `c`, unless it is foreign
  generalize hbaseName : c.name = name at hclass
  cases hclass with
  | @enum token kind _ henum =>
    obtain ⟨enumType, hget, rfl, -⟩ := ht.isNormal.enum token kind hn
    obtain ⟨emitted, hmem, hemitted⟩ := hdivides.enums enumType (mem_enums_of_get? hget)
    obtain ⟨owner, howner, hfinishes⟩ := (requestFrame m).finishes_enum hemitted
    obtain rfl := Except.ok.inj (henum.symm.trans howner)
    refine absurd ?_ (hplaced.ne_enum hdistinct hmem)
    rw [hpath, hbaseName, hfinishes.path_eq]
  | @resource token _ hresource =>
    refine .undeclaredResource hn (fun hdeclared => ?_) (hbaseName ▸ hresource)
    obtain ⟨r, hr, rfl⟩ := List.mem_map.1 hdeclared
    obtain ⟨es, hes, hemitted⟩ := hdivides.resources r hr
    obtain ⟨found, main, rest, hfound, rfl, hmain, -⟩ := exists_of_emit_resource hemitted
    have hsame := (ResourceClass.names_of_ofResource hfound).1
    obtain rfl := Except.ok.inj (hresource.symm.trans hsame)
    refine hplaced.ne_resource hdistinct hes ?_
    rw [hpath, hbaseName, hmain]
  | @object key r hrequest =>
    obtain ⟨token, inputShape⟩ := key
    obtain rfl : inputShape = false := ht.isNormal.object _ hn
    have hobject : m.objectClass ⟨token, false⟩ .input = .ok r := by
      rw [← requestFor_shapeOptions c]
      exact hrequest
    cases howns : m.package.owns token with
    | false => exact .foreignObject hn howns hobject hbaseName.symm
    | true =>
      have hneeded : r ∈ mapped.needed := (hmade.mem_needed r).2 ⟨_, hpart, howns, hrequest⟩
      have hreached := hplaced.reached hdivides hclasses
        (InputClass.needed_of_emit hc.isQualified_base hemit hq hmapped hneeded)
      obtain ⟨other, hother⟩ := hclasses.exists_mem (needed_typeShape hmapped r hneeded) hreached
      have hotherPath := ((requestFrame m).finishes_object (hclasses.rendered _ hother)).path_eq
      obtain ⟨o, ho, hsame⟩ := hplaced.eq_class hdistinct hother
        (by rw [hpath, hbaseName, hotherPath])
      have hsource : r.source = ⟨token, false⟩ := (objectClass_eq_ok hobject).2.2.2.1 rfl
      rw [hsource] at ho
      exact .recursive hn ho hobject hsame

end Generation

/-- In the class without inputs of an object type whose only property is of this type, the only
field is of the class itself. -/
theorem exists_field_of_recursive {m : TypeMapper} {token : String} {o : ObjectType}
    {r : ClassRequest} {p : Property} (hr : m.objectClass ⟨token, false⟩ .input = .ok r)
    (hproperties : o.properties = [p]) (ht : HasType m.package p (.object ⟨token, false⟩))
    {fields : List Field} (hfields : CanGive ((r.inputClass o).fields m) fields) :
    ∃ f, fields = [f] ∧ f.shape.base = r.name := by
  have hsource : r.source = ⟨token, false⟩ := (objectClass_eq_ok hr).2.2.2.1 rfl
  have hlisted : (r.inputClass o).properties = [p] := by
    rw [ClassRequest.inputClass, hsource]
    exact hproperties
  have hinputless : (r.inputClass o).inputless = true := by
    rw [ClassRequest.inputClass, hsource]
    rfl
  unfold InputClass.fields at hfields
  rw [hlisted] at hfields
  cases forall₂_of_canGive_mapM hfields with
  | cons hfield hrest =>
    cases hrest
    obtain ⟨-, mapped, hmapped, hshape⟩ := canGive_ofProperty hfield
    refine ⟨_, rfl, ?_⟩
    have htype : (r.inputClass o).shapeOptions.typeOf p.type =
        if p.required then .object ⟨token, false⟩ else .optional (.object ⟨token, false⟩) := by
      unfold ShapeOptions.typeOf InputClass.shapeOptions
      rw [hinputless, if_pos rfl, ht.plainShape_eq.1]
      exact ht.type_eq
    have hk : m.KeepsApart (.object ⟨token, false⟩) := fun other hn => by cases hn
    obtain ⟨inner, hinner, -, hinnerShape⟩ :=
      exists_inner_of_typeShape hmapped rfl htype hk fun v hn => by cases hn
    unfold TypeMapper.shape at hinner
    obtain ⟨r', hr', rfl, -⟩ := objectShape_eq_ok hinner
    have hrequest := (requestFor_shapeOptions (m := m) (r.inputClass o) token).symm.trans hr'
    obtain rfl := Except.ok.inj (hr.symm.trans hrequest)
    rw [← hshape, hinnerShape]
    split
    · rfl
    · exact TypeShape.base_annotated _ _

/-- The class declares its constructors, whose erased parameters differ unless its only field is of
the class itself. That happens where the only property of an object type is of this type again; and
otherwise only where it names something that has the same class. -/
structure TellsConstructorsApart (m : TypeMapper) (c : InputClass) (fields : List Field)
    (text : String) : Prop where
  declares : c.DeclaresConstructors fields text
  nodup_iff : (c.erasedConstructors fields).Nodup ↔ ¬ ∃ f, fields = [f] ∧ f.shape.base = c.name
  cause : ∀ f, fields = [f] → f.shape.base = c.name →
    ∃ p ∈ m.package.allProperties, (f.property = p.asInput ∨ f.property = p) ∧
      ∃ t, HasType m.package p t ∧ NamesClass m c t
  recursive : ∀ token o r p, m.objectClass ⟨token, false⟩ .input = .ok r → c = r.inputClass o →
    o.properties = [p] → HasType m.package p (.object ⟨token, false⟩) →
      ¬ (c.erasedConstructors fields).Nodup

open Generation in
/-- Each class to write that is generated for a package has constructors with distinct erased
parameters, unless it stands for an object type whose only property is of this type, or shares its
name with a class that is not generated. -/
theorem tellsConstructorsApart_of_generate {d : Schema.PackageDocument} {package : Package}
    {settings : Settings} {files : FileSet} (hbind : d.bind = .ok package)
    (h : generate package settings = .ok files) :
    ∃ m members classes, TypeMapper.make package settings = .ok m ∧
      memberClasses m = .ok members ∧ Closure m members classes ∧
      files.Holds (allFiles m members classes) ∧
      ∀ c, IsInputClass m (fun r => ∃ e, (r, e) ∈ classes) c → ∃ e fields,
        c.emit m = .ok e ∧ e.file ∈ allFiles m members classes ∧ CanGive (c.fields m) fields ∧
        TellsConstructorsApart m c fields e.file.text := by
  obtain ⟨m, members, classes, hm, hmembers, hclasses, hfiles⟩ := generate_eq_ok.1 h
  obtain rfl := package_of_make hm
  refine ⟨m, members, classes, hm, hmembers, hclasses, hfiles, fun c hc => ?_⟩
  obtain ⟨bodies, hbodies, -⟩ := exists_memberBodies hmembers
  obtain ⟨e, hemit, hmem⟩ := (hc.isClassBody hbodies).exists_file hmembers hclasses
  obtain ⟨text, htext, front, hfront⟩ := canGive_of_draftClass hemit
  obtain ⟨fields, hfields, hdeclares⟩ := InputClass.declaresConstructors_of_text htext
  refine ⟨e, fields, hemit, hmem, hfields, ?_,
    InputClass.nodup_erasedConstructors_iff, ?_, ?_⟩
  · exact hfront ▸ hdeclares.behind front
  · rintro f rfl hbase
    exact namesClass_of_base hbind hmembers hclasses hfiles.nodup hc hfields
      (List.mem_singleton_self f) hbase
  · rintro token o r p hr rfl hproperties ht hnodup
    exact InputClass.nodup_erasedConstructors_iff.1 hnodup
      (exists_field_of_recursive hr hproperties ht hfields)

/-- The class without inputs that a member of the package requests for an object type, and its
fields, in a run with the default settings. -/
def requestedFields (package : Package) (r : ClassRequest) : Option (InputClass × List Field) :=
  match TypeMapper.make package {} with
  | .error _ => none
  | .ok m =>
    match Generation.memberClasses m, m.package.object? r.source.token with
    | .ok members, some o =>
      let c := r.inputClass o
      if r.direction = .input ∧ ∃ e ∈ members, r ∈ e.needed then
        match ((c.fields m).run.run (.start {} c.name)).1 with
        | .ok fields => some (c, fields)
        | .error _ => none
      else none
    | _, _ => none

open Generation in
/-- The class is among those that are generated, for a member requests it. -/
theorem isInputClass_of_requestedFields {m : TypeMapper} {r : ClassRequest} {c : InputClass}
    {fields : List Field} (h : requestedFields m.package r = some (c, fields))
    (hm : TypeMapper.make m.package {} = .ok m) {members : List Emitted} {classes : List Rendered}
    (hmembers : memberClasses m = .ok members) (hclasses : Closure m members classes) :
    IsInputClass m (fun r => ∃ e, (r, e) ∈ classes) c ∧ CanGive (c.fields m) fields := by
  unfold requestedFields at h
  rw [hm] at h
  dsimp only at h
  rw [hmembers] at h
  split at h
  · next es o hes ho =>
    cases hes
    split at h
    · next hrequested =>
      obtain ⟨hdirection, e, he, hr⟩ := hrequested
      split at h
      · next found hrun =>
        cases h
        have hserves := memberClasses_serve hmembers e he r hr
        exact ⟨.object (hclasses.exists_mem hserves (.ofMember he hr)) hdirection ho, ⟨_, hrun⟩⟩
      · cases h
    · cases h
  · cases h

/-- A function that takes an object whose type refers to itself, beside a text. -/
theorem tellsConstructorsApart_of_generate_of_list :
    let d : Schema.PackageDocument := {
      name := "p"
      types := .ofList [("p:m:Node", { object := { properties := .ofList [
        ("next", { type := { reference := "#/types/p:m:Node" } }),
        ("text", { type := { typeName := "string" } })] } })]
      functions := .ofList [("p:m:f", { inputs := some { properties := .ofList [
        ("n", { type := { reference := "#/types/p:m:Node" } })] } })] }
    ∃ package files, d.bind = .ok package ∧ generate package {} = .ok files ∧
      files.contains "src/main/java/com/pulumi/p/m/inputs/NodePlainArgs.java" = true ∧
      ∃ m members classes, TypeMapper.make package {} = .ok m ∧
        Generation.memberClasses m = .ok members ∧ Generation.Closure m members classes ∧
        files.Holds (Generation.allFiles m members classes) ∧
        ∀ c, IsInputClass m (fun r => ∃ e, (r, e) ∈ classes) c → ∃ e fields,
          c.emit m = .ok e ∧ e.file ∈ Generation.allFiles m members classes ∧
          CanGive (c.fields m) fields ∧ TellsConstructorsApart m c fields e.file.text := by
  intro d
  have hbound : d.bind.toOption.map (fun package => (generate package {}).toOption.map fun files =>
      files.contains "src/main/java/com/pulumi/p/m/inputs/NodePlainArgs.java") =
        some (some true) := by
    decide +kernel
  obtain ⟨package, hpackage, hgenerated⟩ := Option.map_eq_some_iff.1 hbound
  obtain ⟨files, hfiles, hcontains⟩ := Option.map_eq_some_iff.1 hgenerated
  have hbind : d.bind = .ok package := toOption_eq_some.1 hpackage
  have h : generate package {} = .ok files := toOption_eq_some.1 hfiles
  exact ⟨package, files, hbind, h, hcontains, tellsConstructorsApart_of_generate hbind h⟩

/-- An object type whose only property refers to itself: the class of it that takes known values has
two constructors whose only parameter is of the class. -/
theorem constructors_alike_of_recursive :
    let d : Schema.PackageDocument := {
      name := "p"
      types := .ofList [("p:m:Node", { object := { properties := .ofList [
        ("next", { type := { reference := "#/types/p:m:Node" } })] } })]
      functions := .ofList [("p:m:f", { inputs := some { properties := .ofList [
        ("n", { type := { reference := "#/types/p:m:Node" } })] } })] }
    ∃ package files, d.validate = .ok () ∧ d.bind = .ok package ∧
      generate package {} = .ok files ∧
      ∃ m members classes, TypeMapper.make package {} = .ok m ∧
        Generation.memberClasses m = .ok members ∧ Generation.Closure m members classes ∧
        ∃ c fields, IsInputClass m (fun r => ∃ e, (r, e) ∈ classes) c ∧
          CanGive (c.fields m) fields ∧ ¬ (c.erasedConstructors fields).Nodup := by
  intro d
  let request : ClassRequest :=
    ⟨⟨["com", "pulumi", "p", "m"], "inputs"⟩, "NodePlainArgs", ⟨"p:m:Node", false⟩, .input⟩
  have hvalid : d.validate.toOption = some () := by decide +kernel
  have hbound : d.bind.toOption.map (fun package => ((generate package {}).toOption.isSome,
      (requestedFields package request).map fun found =>
        decide (found.1.erasedConstructors found.2).Nodup)) = some (true, some false) := by
    decide +kernel
  obtain ⟨package, hpackage, hparts⟩ := Option.map_eq_some_iff.1 hbound
  obtain ⟨hgenerated, hfound⟩ := Prod.mk.inj hparts
  obtain ⟨files, hfiles⟩ := Option.isSome_iff_exists.1 hgenerated
  obtain ⟨⟨c, fields⟩, hrequested, hrepeats⟩ := Option.map_eq_some_iff.1 hfound
  have h : generate package {} = .ok files := toOption_eq_some.1 hfiles
  obtain ⟨m, members, classes, hm, hmembers, hclasses, -⟩ := Generation.generate_eq_ok.1 h
  obtain rfl := Generation.package_of_make hm
  obtain ⟨hc, hfields⟩ := isInputClass_of_requestedFields hrequested hm hmembers hclasses
  exact ⟨m.package, files, toOption_eq_some.1 hvalid, toOption_eq_some.1 hpackage, h, m, members,
    classes, hm, hmembers, hclasses, c, fields, hc, hfields, of_decide_eq_false hrepeats⟩

end SchemaToJava.Java
