import SchemaToJava.Proofs.FunctionMethods
import SchemaToJava.Proofs.LoadingStages
import SchemaToJava.Proofs.PropertyNames
import SchemaToJava.Proofs.RecursiveClasses

/-!
Which members of a schema stay apart in the generated classes. Properties of a class do unless their
names become one identifier, a getter is apart from the method that makes a builder unless its name
is spelled like that, and functions of a class share a method only if both can be called without
arguments and their names are alike or differ by `Plain`. Nothing else is shared, whatever the names
in the schema are.
-/
namespace SchemaToJava.Java

open Package Outcome Schema Identifier

section Fields

variable {m : TypeMapper} {o : ShapeOptions} {properties : List Property} {fields : List Field}

/-- The name that the identifier of a property is made from. -/
def Field.nameOf (p : Property) : String := p.languageName.getD p.name

theorem identOf_eq_iff {p q : Property} :
    Field.identOf p = Field.identOf q ↔ Meet (Field.nameOf p) (Field.nameOf q) := ofProperty_eq_iff

theorem idents_of_fields (h : CanGive (properties.mapM (Field.ofProperty m o)) fields) :
    fields.map Field.ident = properties.map Field.identOf := by
  refine (map_eq_map_of_forall₂ ((forall₂_of_canGive_mapM h).imp fun p f hf => ?_)).symm
  unfold Field.ofProperty at hf
  obtain ⟨shape, -, hf⟩ := canGive_bind hf
  obtain rfl := canGive_pure hf
  rfl

/-- The properties have distinct names, and the fields have distinct identifiers exactly if no two
of these meet. -/
structure TellsFieldsApart (properties : List Property) (fields : List Field) : Prop where
  names : HaveDistinctNames properties
  idents : fields.map Field.ident = properties.map Field.identOf
  nodup_iff : (fields.map Field.ident).Nodup ↔ ∀ p ∈ properties, ∀ q ∈ properties,
    p.name ≠ q.name → ¬ Meet (Field.nameOf p) (Field.nameOf q)
  ordinary : (∀ p ∈ properties, p.languageName = none ∧ IsOrdinary p.name) →
    (fields.map Field.ident).Nodup

/-- Identifiers of fields are distinct unless the names of two properties meet. -/
theorem tellsFieldsApart (hnames : HaveDistinctNames properties)
    (h : CanGive (properties.mapM (Field.ofProperty m o)) fields) :
    TellsFieldsApart properties fields := by
  have hidents := idents_of_fields h
  have hnodup : (fields.map Field.ident).Nodup ↔ ∀ p ∈ properties, ∀ q ∈ properties,
      p.name ≠ q.name → ¬ Meet (Field.nameOf p) (Field.nameOf q) := by
    rw [hidents, List.nodup_map_iff_inj_on (List.Nodup.of_map _ hnames)]
    constructor
    · intro hinj p hp q hq hne hmeet
      exact hne (congrArg Property.name (hinj p hp q hq (identOf_eq_iff.2 hmeet)))
    · intro hapart p hp q hq hident
      by_contra hne
      have hname : p.name ≠ q.name := fun hname =>
        hne (List.inj_on_of_nodup_map hnames hp hq hname)
      exact hapart p hp q hq hname (identOf_eq_iff.1 hident)
  refine ⟨hnames, hidents, hnodup, fun hall => hnodup.2 fun p hp q hq hne => ?_⟩
  obtain ⟨hp, hpordinary⟩ := hall p hp
  obtain ⟨hq, hqordinary⟩ := hall q hq
  rw [Field.nameOf, Field.nameOf, hp, hq]
  exact not_meet_of_isOrdinary hpordinary hqordinary hne

theorem builder_mem_iff (h : CanGive (properties.mapM (Field.ofProperty m o)) fields) :
    "builder" ∈ fields.map Field.ident ↔
      ∃ p ∈ properties, spelling (Field.nameOf p) = "builder" := by
  rw [idents_of_fields h, List.mem_map]
  exact exists_congr fun p => and_congr_right fun _ => ofProperty_eq_builder_iff

end Fields

section Functions

variable {m : TypeMapper} {group : List Package.Function} {name : QualifiedName}
  {es : List Emitted}

/-- The classes of the functions of a group are distinct if their files are. -/
theorem nodup_classNames (h : FunctionsClass.emit m name group = .ok es)
    (hdistinct : Generation.Distinct es) {signatures : List FunctionSignature}
    (hsignatures : group.mapM (FunctionsClass.signature m) = .ok signatures) :
    (signatures.flatMap FunctionSignature.classNames).Nodup := by
  obtain ⟨listed, hlisted, hfinishes⟩ := (requestFrame m).finishes_functions h
  obtain rfl := Except.ok.inj (hsignatures.symm.trans hlisted)
  have hpaths : es.map (fun e => e.file.path) =
      (name :: signatures.flatMap FunctionSignature.classNames).map classPath :=
    (map_eq_map_of_forall₂ (hfinishes.imp fun _ _ hfile => hfile.path_eq.symm)).symm
  unfold Generation.Distinct at hdistinct
  rw [hpaths] at hdistinct
  exact (List.nodup_cons.1 (List.Nodup.of_map _ hdistinct)).2

/-- Different functions of a group have different classes for their arguments. -/
theorem disjoint_argumentNames (h : FunctionsClass.emit m name group = .ok es)
    (hdistinct : Generation.Distinct es) {f g : Package.Function} (hf : f ∈ group) (hg : g ∈ group)
    (hne : f ≠ g) {s t : FunctionSignature} (hs : FunctionsClass.signature m f = .ok s)
    (ht : FunctionsClass.signature m g = .ok t) :
    List.Disjoint s.argumentNames t.argumentNames := by
  obtain ⟨signatures, hsignatures, -⟩ := FunctionsClass.exists_main_of_emit h
  have hmem {f : Package.Function} {s : FunctionSignature} (hf : f ∈ group)
      (hs : FunctionsClass.signature m f = .ok s) : s ∈ signatures := by
    obtain ⟨found, hfound, hsame⟩ := exists_of_mem_of_mapM hsignatures hf
    obtain rfl := Except.ok.inj (hs.symm.trans hsame)
    exact hfound
  have hst : s ≠ t := by
    rintro rfl
    exact hne ((FunctionsClass.function_of_signature hs).symm.trans
      (FunctionsClass.function_of_signature ht))
  have hpairs := (List.nodup_flatMap.1 (nodup_classNames h hdistinct hsignatures)).2
  have hsymm : Std.Symm (Function.onFun List.Disjoint FunctionSignature.classNames) :=
    ⟨fun _ _ => List.Disjoint.symm⟩
  have hclasses := hpairs.forall (hmem hf hs) (hmem hg ht) hst
  exact fun c hc hc' => hclasses (List.mem_append_left _ hc) (List.mem_append_left _ hc')

/-- The text of a class declares the methods of its functions, two of which share a method exactly
if both can be called without arguments and have families of the same name. -/
structure TellsMethodsApart (m : TypeMapper) (group : List Package.Function) (text : String) :
    Prop where
  declares : ∃ signatures, group.mapM (FunctionsClass.signature m) = .ok signatures ∧
    HasPieces FunctionsClass.Declares (signatures.flatMap FunctionSignature.methods) text
  shares_iff : ∀ f ∈ group, ∀ g ∈ group, f.token ≠ g.token → ∀ s t,
    FunctionsClass.signature m f = .ok s → FunctionsClass.signature m g = .ok t →
    ((∃ method ∈ s.methods, method ∈ t.methods) ↔
      s.isCallable = true ∧ t.isCallable = true ∧ s.NamesMeet t)

theorem exists_tellsMethodsApart (h : FunctionsClass.emit m name group = .ok es)
    (hdistinct : Generation.Distinct es) : ∃ e ∈ es, e.file.path = classPath name ∧
      TellsMethodsApart m group e.file.text := by
  obtain ⟨signatures, hsignatures, main, hmain, hpath, hpieces⟩ :=
    FunctionsClass.exists_main_of_emit h
  refine ⟨main, hmain, hpath, ⟨signatures, hsignatures, hpieces⟩, ?_⟩
  intro f hf g hg hne s t hs ht
  have hfg : f ≠ g := fun heq => hne (congrArg _ heq)
  exact FunctionSignature.shares_iff hs ht (disjoint_argumentNames h hdistinct hf hg hfg hs ht)

end Functions

namespace Generation

variable {m : TypeMapper} {members : List Emitted} {classes : List Rendered}

/-- The files of the functions of each class are among those of the members. -/
theorem exists_groups (h : memberClasses m = .ok members) : ∃ groups,
    FunctionsClass.group m m.package.functions = .ok groups ∧
      ∀ entry ∈ groups, ∃ es, FunctionsClass.emit m entry.1 entry.2 = .ok es ∧
        es.Sublist members := by
  unfold memberClasses at h
  obtain ⟨resources, -, h⟩ := bind_eq_ok.1 h
  obtain ⟨groups, hgroups, h⟩ := bind_eq_ok.1 h
  obtain ⟨functions, hfunctions, h⟩ := bind_eq_ok.1 h
  obtain ⟨enumFiles, -, h⟩ := bind_eq_ok.1 h
  obtain ⟨config, -, h⟩ := bind_eq_ok.1 h
  obtain ⟨utilities, -, h⟩ := bind_eq_ok.1 h
  obtain rfl := pure_eq_ok.1 h
  refine ⟨groups, hgroups, fun entry hentry => ?_⟩
  obtain ⟨es, hes, hemit⟩ := exists_of_mem_of_mapM hfunctions hentry
  refine ⟨es, hemit, ?_⟩
  have hsub : es.Sublist functions.flatten := List.sublist_flatten_of_mem hes
  simp only [List.append_assoc]
  exact (hsub.trans (List.sublist_append_left _ _)).trans (List.sublist_append_right _ _)

/-- The members of the package that stay apart in the classes that are generated for it, given the
files of its members and the object classes that they need. -/
structure TellsMembersApart (m : TypeMapper) (members : List Emitted) (classes : List Rendered) :
    Prop where
  /-- A class to write has a getter without parameters for each field, and a method that makes a
  builder. -/
  inputs : ∀ c, IsInputClass m (fun r => ∃ e, (r, e) ∈ classes) c → ∃ e fields,
    c.emit m = .ok e ∧ e.file ∈ allFiles m members classes ∧ CanGive (c.fields m) fields ∧
      DeclaresFields "    private " fields e.file.text ∧
      HasLine "    public static Builder builder() \x7b" e.file.text ∧
      TellsFieldsApart c.properties fields ∧
      ("builder" ∈ fields.map Field.ident ↔
        ∃ p ∈ c.properties, spelling (Field.nameOf p) = "builder")
  /-- A class to read has a getter without parameters for each field. -/
  outputs : ∀ c, IsOutputClass m (fun r => ∃ e, (r, e) ∈ classes) c → ∃ e fields,
    c.emit m = .ok e ∧ e.file ∈ allFiles m members classes ∧ CanGive (c.fields m) fields ∧
      DeclaresFields "    private final " fields e.file.text ∧
      TellsFieldsApart c.properties fields
  /-- Each function is in one of the classes of functions. -/
  functions : ∃ groups, FunctionsClass.group m m.package.functions = .ok groups ∧
    (∀ f ∈ m.package.functions, ∃ entry ∈ groups, f ∈ entry.2) ∧
    ∀ entry ∈ groups, ∃ e : Emitted, e.file ∈ allFiles m members classes ∧
      e.file.path = classPath entry.1 ∧ TellsMethodsApart m entry.2 e.file.text

/-- The members of a bound package stay apart in its files, class by class. -/
theorem tellsMembersApart {d : PackageDocument} (hbind : d.bind = .ok m.package)
    (hmembers : memberClasses m = .ok members) (hclasses : Closure m members classes)
    (hnodup : ((allFiles m members classes).map SourceFile.path).Nodup) :
    TellsMembersApart m members classes := by
  have hbound := isBound_of_bind hbind
  obtain ⟨bodies, hbodies, -⟩ := exists_memberBodies hmembers
  constructor
  · intro c hc
    obtain ⟨e, hemit, hmem⟩ := (hc.isClassBody hbodies).exists_file hmembers hclasses
    obtain ⟨text, htext, front, hfront⟩ := canGive_of_draftClass hemit
    obtain ⟨fields, hfields, hdeclares, hbuilder⟩ := InputClass.declaresFields_of_text htext
    have hdeclares := hdeclares.within front ""
    rw [String.append_empty, ← hfront] at hdeclares
    exact ⟨e, fields, hemit, hmem, hfields, hdeclares,
      hfront ▸ hbuilder.behind front, tellsFieldsApart (hc.haveDistinctNames hbound) hfields,
      builder_mem_iff hfields⟩
  · intro c hc
    obtain ⟨e, hemit, hmem⟩ := (hc.isClassBody hbodies).exists_file hmembers hclasses
    obtain ⟨text, htext, front, hfront⟩ := canGive_of_draftClass hemit
    obtain ⟨fields, hfields, hdeclares⟩ := OutputClass.declaresFields_of_text htext
    have hdeclares := hdeclares.within front ""
    rw [String.append_empty, ← hfront] at hdeclares
    exact ⟨e, fields, hemit, hmem, hfields, hdeclares,
      tellsFieldsApart (hc.haveDistinctNames hbound) hfields⟩
  · obtain ⟨groups, hgroups, hemitted⟩ := exists_groups hmembers
    obtain ⟨-, hplaced, hgroup⟩ := mem_group hgroups
    refine ⟨groups, hgroups, fun f hf => ?_, fun entry hentry => ?_⟩
    · obtain ⟨name, hname⟩ := hplaced f hf
      obtain ⟨group, hentry, hmem⟩ := (hgroup name f).1 ⟨hf, hname⟩
      exact ⟨_, hentry, hmem⟩
    · obtain ⟨es, hemit, hsub⟩ := hemitted entry hentry
      have hpaths := hnodup.sublist ((List.sublist_append_left _ _).map SourceFile.path)
      have hpaths := hpaths.sublist ((List.sublist_append_left _ _).map SourceFile.path)
      rw [List.map_map] at hpaths
      have hdistinct : Distinct es := Distinct.sublist hpaths hsub
      obtain ⟨e, he, hpath, hapart⟩ := exists_tellsMethodsApart hemit hdistinct
      refine ⟨e, ?_, hpath, hapart⟩
      simp [allFiles, List.mem_map_of_mem (hsub.subset he)]

end Generation

/-- Whatever text and settings files are generated from, the members of the package stay apart in
them but for names that meet. -/
theorem tellsMembersApart_of_generateFromText {text : String} {settings : Settings}
    {files : FileSet} {diagnostics : List Diagnostic}
    (h : generateFromText text settings = .ok (files, diagnostics)) :
    ∃ package m members classes, loadPackage text = .ok (package, diagnostics) ∧
      TypeMapper.make package settings = .ok m ∧ Generation.memberClasses m = .ok members ∧
      Generation.Closure m members classes ∧
      files.Holds (Generation.allFiles m members classes) ∧
      Generation.TellsMembersApart m members classes := by
  obtain ⟨package, hload, hgenerate⟩ := generateFromText_eq_ok.1 h
  obtain ⟨d, -, -, -, hbind⟩ := loadPackage_iff.1 hload
  obtain ⟨m, members, classes, hm, hmembers, hclasses, hfiles⟩ :=
    Generation.generate_eq_ok.1 hgenerate
  obtain rfl := Generation.package_of_make hm
  exact ⟨m.package, m, members, classes, hload, hm, hmembers, hclasses, hfiles,
    Generation.tellsMembersApart hbind hmembers hclasses hfiles.nodup⟩

/-- A function that has to be given an argument and one that is called like its plain methods. -/
theorem tellsMembersApart_of_generateFromText_of_required :
    let text := "\x7b\"name\": \"p\", \"functions\": \x7b\"p:m:ping\": \x7b\"inputs\": " ++
      "\x7b\"properties\": \x7b\"class\": \x7b\"type\": \"string\"\x7d\x7d, " ++
      "\"required\": [\"class\"]\x7d\x7d, \"p:m:pingPlain\": \x7b\x7d\x7d\x7d"
    ∃ files diagnostics, generateFromText text {} = .ok (files, diagnostics) ∧
      ∃ package m members classes, loadPackage text = .ok (package, diagnostics) ∧
        TypeMapper.make package {} = .ok m ∧ Generation.memberClasses m = .ok members ∧
        Generation.Closure m members classes ∧
        files.Holds (Generation.allFiles m members classes) ∧
        Generation.TellsMembersApart m members classes := by
  intro text
  have hgenerates : (generateFromText text {}).toOption.isSome = true := by decide +kernel
  obtain ⟨⟨files, diagnostics⟩, hsome⟩ := Option.isSome_iff_exists.1 hgenerates
  have h : generateFromText text {} = .ok (files, diagnostics) := toOption_eq_some.1 hsome
  exact ⟨files, diagnostics, h, tellsMembersApart_of_generateFromText h⟩

section Meeting

open Generation

/-- A class to write for the text declares fields with these identifiers and a method that makes a
builder, though the names of its properties are distinct. -/
def CallsInputs (text : String) (idents : List String) : Prop :=
  ∃ files diagnostics m members classes, generateFromText text {} = .ok (files, diagnostics) ∧
    files.Holds (allFiles m members classes) ∧
    ∃ c, IsInputClass m (fun r => ∃ e, (r, e) ∈ classes) c ∧ HaveDistinctNames c.properties ∧
    ∃ e fields, c.emit m = .ok e ∧ e.file ∈ allFiles m members classes ∧
      DeclaresFields "    private " fields e.file.text ∧
      HasLine "    public static Builder builder() \x7b" e.file.text ∧
      fields.map Field.ident = idents

/-- Two functions of a class for the text share these methods. -/
def SharesMethods (text : String) (methods : List FunctionMethod) : Prop :=
  ∃ files diagnostics package m, generateFromText text {} = .ok (files, diagnostics) ∧
    loadPackage text = .ok (package, diagnostics) ∧ TypeMapper.make package {} = .ok m ∧
    ∃ groups, FunctionsClass.group m package.functions = .ok groups ∧
    ∃ entry ∈ groups, ∃ f ∈ entry.2, ∃ g ∈ entry.2, f.token ≠ g.token ∧
    ∃ s t, FunctionsClass.signature m f = .ok s ∧ FunctionsClass.signature m g = .ok t ∧
      ∀ method ∈ methods, method ∈ s.methods ∧ method ∈ t.methods

def generatedPackage (text : String) : Option (Package × TypeMapper) :=
  match generateFromText text {}, loadPackage text with
  | .ok _, .ok (package, _) => (TypeMapper.make package {}).toOption.map fun m => (package, m)
  | _, _ => none

def inputIdents (text : String) : Option (List String) :=
  (generatedPackage text).bind fun (package, _) =>
    package.resources.head?.map fun r => r.inputs.map Field.identOf

def sharedMethods (text : String) : Option (List FunctionMethod) :=
  (generatedPackage text).bind fun (package, m) =>
    match FunctionsClass.group m package.functions with
    | .ok ((_, f :: g :: _) :: _) =>
      match FunctionsClass.signature m f, FunctionsClass.signature m g with
      | .ok s, .ok t =>
        if f.token ≠ g.token then some (s.methods.filter (· ∈ t.methods)) else none
      | _, _ => none
    | _ => none

variable {text : String}

theorem exists_of_generatedPackage {package : Package} {m : TypeMapper}
    (h : generatedPackage text = some (package, m)) : ∃ files diagnostics,
      generateFromText text {} = .ok (files, diagnostics) ∧
      loadPackage text = .ok (package, diagnostics) ∧ TypeMapper.make package {} = .ok m := by
  unfold generatedPackage at h
  split at h
  · next generated loaded diagnostics hgenerated hloaded =>
    obtain ⟨found, hfound, hpair⟩ := Option.map_eq_some_iff.1 h
    obtain ⟨rfl, rfl⟩ := Prod.mk.inj hpair
    obtain ⟨files, noticed⟩ := generated
    obtain ⟨other, hother, -⟩ := generateFromText_eq_ok.1 hgenerated
    obtain ⟨-, rfl⟩ := Prod.mk.inj (Except.ok.inj (hother.symm.trans hloaded))
    exact ⟨files, noticed, hgenerated, hloaded, toOption_eq_some.1 hfound⟩
  · cases h

theorem callsInputs_of_inputIdents {idents : List String} (h : inputIdents text = some idents) :
    CallsInputs text idents := by
  obtain ⟨⟨package, m⟩, hpackage, h⟩ := Option.bind_eq_some_iff.1 h
  obtain ⟨r, hr, rfl⟩ := Option.map_eq_some_iff.1 h
  obtain ⟨files, diagnostics, hgenerated, hload, hm⟩ := exists_of_generatedPackage hpackage
  obtain ⟨other, hother, hgenerate⟩ := generateFromText_eq_ok.1 hgenerated
  obtain ⟨rfl, -⟩ := Prod.mk.inj (Except.ok.inj (hother.symm.trans hload))
  obtain ⟨m', members, classes, hm', hmembers, hclasses, hfiles⟩ := generate_eq_ok.1 hgenerate
  obtain rfl := Except.ok.inj (hm.symm.trans hm')
  obtain rfl := package_of_make hm
  obtain ⟨d, -, -, -, hbind⟩ := loadPackage_iff.1 hload
  have hmem : r ∈ Generation.resources m.package :=
    List.mem_append_right _ (List.mem_of_mem_head? hr)
  obtain ⟨c, hc⟩ := exists_ofResource hmembers hmem
  have hinput : IsInputClass m (fun r => ∃ e, (r, e) ∈ classes)
      (ResourceClass.argumentsClass c.arguments r.inputs) := .arguments hmem hc
  obtain ⟨e, fields, hemit, hmem, hfields, hdeclares, hbuilder, hapart, -⟩ :=
    (tellsMembersApart hbind hmembers hclasses hfiles.nodup).inputs _ hinput
  refine ⟨files, diagnostics, m, members, classes, hgenerated, hfiles, _, hinput, hapart.names,
    e, fields, hemit, hmem, hdeclares, hbuilder, ?_⟩
  rw [hapart.idents]
  exact List.map_map.trans rfl

theorem sharesMethods_of_sharedMethods {methods : List FunctionMethod}
    (h : sharedMethods text = some methods) : SharesMethods text methods := by
  obtain ⟨⟨package, m⟩, hpackage, h⟩ := Option.bind_eq_some_iff.1 h
  obtain ⟨files, diagnostics, hgenerated, hload, hm⟩ := exists_of_generatedPackage hpackage
  dsimp only at h
  split at h
  · next name f g functions groups hgroups =>
    split at h
    · next s t hs ht =>
      split at h
      · next hne =>
        obtain rfl := Option.some.inj h
        refine ⟨files, diagnostics, package, m, hgenerated, hload, hm, _, hgroups, _,
          List.mem_cons_self, f, List.mem_cons_self, g,
          List.mem_cons_of_mem _ List.mem_cons_self, hne, s, t, hs, ht, fun method hmethod => ?_⟩
        obtain ⟨hs, ht⟩ := List.mem_filter.1 hmethod
        exact ⟨hs, of_decide_eq_true ht⟩
      · cases h
    · cases h
  · cases h

/-- Two names of inputs that become one, an input that is called like the method that makes a
builder, and a function that is called like the plain methods of another. -/
theorem members_meet_of_names :
    CallsInputs ("\x7b\"name\": \"p\", \"resources\": \x7b\"p:m:R\": \x7b\"inputProperties\": " ++
        "\x7b\"a-b\": \x7b\"type\": \"string\"\x7d, \"aB\": \x7b\"type\": \"integer\"\x7d" ++
        "\x7d\x7d\x7d\x7d") ["aB", "aB"] ∧
      CallsInputs ("\x7b\"name\": \"p\", \"resources\": \x7b\"p:m:R\": \x7b\"inputProperties\": " ++
        "\x7b\"builder\": \x7b\"type\": \"string\"\x7d\x7d\x7d\x7d\x7d") ["builder"] ∧
      SharesMethods ("\x7b\"name\": \"p\", \"functions\": \x7b\"p:m:ping\": \x7b\x7d, " ++
          "\"p:m:pingPlain\": \x7b\x7d\x7d\x7d")
        [⟨"pingPlain", []⟩, ⟨"pingPlain", [Library.invokeArgs]⟩,
          ⟨"pingPlain", [Library.invokeArgs, Library.invokeOptions]⟩] := by
  refine ⟨callsInputs_of_inputIdents ?_, callsInputs_of_inputIdents ?_,
    sharesMethods_of_sharedMethods ?_⟩
  · decide +kernel
  · decide +kernel
  · decide +kernel

end Meeting

end SchemaToJava.Java
