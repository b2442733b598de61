import SchemaToJava.Proofs.TypeScopes
import SchemaToJava.Proofs.WholePackages

/-!
What the references of generated files mean. Every file but the bundled ones is that of a class of
the package, and the only classes that are declared inside others are the builders of the classes to
write. While the text of a class is made, the table of its file notes each reference, and the texts
that it gave stay right. So a reference means the class it was asked for exactly when the table that
is left in the end tells that class. An enum that is called like a builder is not told.
-/
namespace SchemaToJava.Java

open Package Outcome

variable {m : TypeMapper}

namespace Imports

/-- The text is the one that the table still has for the class, which lives in a package. -/
structure IsSettled (i : Imports) (name : QualifiedName) (text : String) : Prop where
  qualified : name.isQualified = true
  bound : ∃ bound, i.names.get? name.base = some bound
  textOf_eq : i.textOf name = text

theorem IsSettled.of_extends {i j : Imports} {name : QualifiedName} {text : String}
    (h : i.IsSettled name text) (hij : i.ExtendsTo j) : j.IsSettled name text := by
  obtain ⟨bound, hbound⟩ := h.bound
  exact ⟨h.qualified, ⟨bound, hij.bound hbound⟩, (textOf_eq_of_extends hij hbound).trans h.textOf_eq⟩

/-- The history of the table tells what it binds: every text that was given stands, and whatever is
bound, but for the class of the file, was referred to. -/
structure IsFaithful (i : Imports) : Prop extends IsKeyed i where
  settled : ∀ name text, (name, text) ∈ i.given → i.IsSettled name text
  recorded : ∀ {short name}, i.names.get? short = some name →
    name = i.owner ∨ ∃ text, (name, text) ∈ i.given

theorem forOwner_faithful (owner : QualifiedName) (implicit : List String) :
    (forOwner owner implicit).IsFaithful := by
  refine ⟨forOwner_keyed owner implicit, fun name text hgiven => absurd hgiven List.not_mem_nil, ?_⟩
  exact fun h => .inl (get?_forOwner h).2

theorem given_claim (i : Imports) (name : QualifiedName) : (i.claim name).given = i.given := by
  unfold claim
  split <;> rfl

/-- A reference is added to the history with the text that is given for it. -/
theorem IsFaithful.refer {i : Imports} (h : i.IsFaithful) {name : QualifiedName}
    (hqualified : name.isQualified = true) : ((i.claim name).note name).IsFaithful := by
  have hextends : i.ExtendsTo ((i.claim name).note name) :=
    (i.claim_extends name).trans ((i.claim name).note_extends name)
  refine ⟨(h.toIsKeyed.claim name).note name, fun other text hgiven => ?_, ?_⟩
  · rcases List.mem_cons.1 hgiven with hnew | hgiven
    · obtain ⟨rfl, rfl⟩ := Prod.mk.inj hnew
      exact ⟨hqualified, i.claim_binds other, rfl⟩
    · rw [given_claim] at hgiven
      exact (h.settled other text hgiven).of_extends hextends
  · intro short other hbound
    change (i.claim name).names.get? short = some other at hbound
    rw [get?_claim] at hbound
    split at hbound
    · cases hbound
      exact .inr ⟨_, List.mem_cons_self⟩
    · rcases h.recorded hbound with rfl | ⟨text, hgiven⟩
      · exact .inl hextends.owner.symm
      · refine .inr ⟨text, List.mem_cons_of_mem _ ?_⟩
        rwa [given_claim]

/-- The imported classes were all referred to. -/
theorem IsFaithful.mem_imported_iff {i : Imports} (h : i.IsFaithful) {dotted : String} :
    dotted ∈ i.imported ↔ ∃ name text, (name, text) ∈ i.given ∧ name ∈ i.importedNames ∧
      name.dotted = dotted := by
  rw [mem_imported_iff_importedNames]
  constructor
  · rintro ⟨name, hname, hdotted⟩
    obtain ⟨hvalue, hkeep⟩ := List.mem_filter.1 hname
    obtain ⟨short, hbound⟩ := Dictionary.mem_values_iff.1 hvalue
    rcases h.recorded hbound with rfl | ⟨text, hgiven⟩
    · simp at hkeep
    · exact ⟨name, text, hgiven, hname, hdotted⟩
  · rintro ⟨name, text, -, hname, hdotted⟩
    exact ⟨name, hname, hdotted⟩

end Imports

/-- The imports of a file are only ever added to, and their history stays faithful. -/
def scopeFrame (m : TypeMapper) : DraftFrame m where
  rel d e := d.imports.ExtendsTo e.imports ∧ (d.imports.IsFaithful → e.imports.IsFaithful)
  refl d := ⟨.refl d.imports, id⟩
  trans h h' := ⟨h.1.trans h'.1, h'.2 ∘ h.2⟩
  refer d name hqualified :=
    ⟨(d.imports.claim_extends name).trans ((d.imports.claim name).note_extends name),
      fun h => h.refer hqualified⟩
  need d _ _ _ _ := ⟨.refl d.imports, id⟩

/-- How the references of a class are understood. Making its text leaves the draft, and with the
text it is the file of the class. Its imports are classes that it refers to, and each text that was
given for a class while the text was made means that class exactly when the table tells it. -/
structure Refers (settings : Settings) (files : FileSet) (b : ClassBody) (text : String)
    (d : Draft) : Prop where
  run : b.text.run.run (.start settings b.name) = (.ok text, d)
  file : files.get? (classPath b.name) =
    some (Draft.finish { d with body := d.body ++ text } settings).file.text
  imported_iff : ∀ dotted, dotted ∈ d.imports.imported ↔ ∃ name given,
    (name, given) ∈ d.imports.given ∧ name ∈ d.imports.importedNames ∧ name.dotted = dotted
  denotes_iff : ∀ (isLanguageClass : String → Bool) (name : QualifiedName) (given : String),
    (name, given) ∈ d.imports.given →
      ((d.imports.scope b.members files isLanguageClass).Denotes given name ↔
        d.imports.Tells (d.imports.scope b.members files isLanguageClass) name)

open Generation in
/-- Every class of a run refers as its file tells, with the draft that its text leaves. -/
theorem Generation.IsClassBody.exists_refers {requested : ClassRequest → Prop} {b : ClassBody}
    (hb : IsClassBody m requested b) {e : Emitted} (he : b.draft m.settings = .ok e)
    {files : FileSet} (hfile : files.get? e.file.path = some e.file.text) :
    ∃ text d, Refers m.settings files b text d := by
  obtain ⟨text, d, hrun, rfl⟩ := run_of_draftClass he
  obtain ⟨hextends, hfaithful⟩ := (hb.keeps (scopeFrame m) (.start m.settings b.name)).1
  rw [hrun] at hextends hfaithful
  have howner : d.imports.owner = b.name := hextends.owner
  have hfaithful : d.imports.IsFaithful := hfaithful (Imports.forOwner_faithful b.name _)
  refine ⟨text, d, hrun, ?_, fun dotted => hfaithful.mem_imported_iff, ?_⟩
  · rw [← hfile, classPath, ← howner]
    rfl
  · intro isLanguageClass name given hgiven
    have hsettled := hfaithful.settled name given hgiven
    rw [← hsettled.textOf_eq]
    exact Imports.denotes_textOf_iff hfaithful.toIsKeyed hsettled.qualified

open Generation in
/-- What the files of a package refer to. Each class of the package has a file, whose references
mean what they were asked for exactly as far as its imports tell; all other files are bundled. -/
theorem refers_of_generate {package : Package} {settings : Settings} {files : FileSet}
    (h : generate package settings = .ok files) :
    ∃ m members classes, TypeMapper.make package settings = .ok m ∧
      memberClasses m = .ok members ∧ Closure m members classes ∧
      files.Holds (allFiles m members classes) ∧
      (∀ b, IsClassBody m (fun r => ∃ e, (r, e) ∈ classes) b →
        ∃ text d, Refers settings files b text d) ∧
      ∀ path text, files.get? path = some text → ⟨path, text⟩ ∈ Utilities.bundled m ∨
        ∃ b, IsClassBody m (fun r => ∃ e, (r, e) ∈ classes) b ∧ classPath b.name = path := by
  obtain ⟨m, members, classes, hm, hmembers, hclasses, hfiles⟩ := generate_eq_ok.1 h
  obtain rfl := settings_of_make hm
  refine ⟨m, members, classes, hm, hmembers, hclasses, hfiles, fun b hb => ?_,
    fun path text hget => ?_⟩
  · obtain ⟨e, he, hfile⟩ := hb.exists_file hmembers hclasses
    exact hb.exists_refers he (hfiles.get?_iff.2 hfile)
  · refine (exists_classBody hmembers hclasses (hfiles.get?_iff.1 hget)).imp_right ?_
    rintro ⟨b, e, hb, he, hfile⟩
    have hfinishes := (requestFrame m).finishes_draft (hb.keeps _) he
    exact ⟨b, hb, by rw [← hfinishes.path_eq, hfile]⟩

/-- A resource with an input of an enum that is called like a builder. -/
def builderResource : Resource where
  token := "p:m:R"
  description := none
  properties := []
  inputs := [.make "x" (.enum "p:m:Builder" .string) false]
  state := none
  aliases := []
  deprecation := none
  isComponent := false
  isProvider := false

def builderPackage : Package where
  name := "p"
  types := .ofList [("p:m:Builder", .enum {
    token := "p:m:Builder", elementType := .string, description := none
    elements := [⟨some "A", .string "a", none, none⟩] })]
  resources := [builderResource]

open Generation in
/-- A package that has a class with a builder, and an enum that is called so. -/
theorem refers_of_generate_of_builder :
    ∃ files m members classes, generate builderPackage {} = .ok files ∧
      TypeMapper.make builderPackage {} = .ok m ∧
      memberClasses m = .ok members ∧ Closure m members classes ∧
      files.Holds (allFiles m members classes) ∧
      (∀ b, IsClassBody m (fun r => ∃ e, (r, e) ∈ classes) b →
        ∃ text d, Refers {} files b text d) ∧
      ∀ path text, files.get? path = some text → ⟨path, text⟩ ∈ Utilities.bundled m ∨
        ∃ b, IsClassBody m (fun r => ∃ e, (r, e) ∈ classes) b ∧ classPath b.name = path := by
  have hsome : (generate builderPackage {}).toOption.isSome = true := by decide +kernel
  obtain ⟨files, hfiles⟩ := Option.isSome_iff_exists.1 hsome
  have h : generate builderPackage {} = .ok files := toOption_eq_some.1 hfiles
  obtain ⟨m, members, classes, hrefers⟩ := refers_of_generate h
  exact ⟨files, m, members, classes, h, hrefers⟩

def builderEnum : QualifiedName := ⟨["com", "pulumi", "p", "m", "enums"], "Builder"⟩

def builderMapper : TypeMapper := ⟨builderPackage, {}, {}⟩

def builderBody : ClassBody :=
  (ResourceClass.argumentsClass ⟨["com", "pulumi", "p", "m"], "RArgs"⟩ builderResource.inputs).body
    builderMapper

/-- What making the text of that class gives, and the draft that it leaves. -/
def builderRun : Except GenerationError String × Draft :=
  builderBody.text.run.run (.start {} builderBody.name)

theorem isMemberBody_builderBody : Generation.IsMemberBody builderMapper builderBody := by
  have hclass : (ResourceClass.ofResource builderMapper builderResource).toOption.map
      ResourceClass.arguments = some ⟨["com", "pulumi", "p", "m"], "RArgs"⟩ := by decide +kernel
  obtain ⟨c, hc, harguments⟩ := Option.map_eq_some_iff.1 hclass
  have hc := toOption_eq_some.1 hc
  obtain ⟨hresource, -, -⟩ := ResourceClass.ofResource_eq_ok hc
  refine .resource (List.mem_singleton_self _) hc ?_
  unfold ResourceClass.bodies
  rw [harguments, hresource]
  exact List.mem_cons_of_mem _ List.mem_cons_self

/-- In the generated file of the arguments the enum is given the text of its short name, which means
the builder of these arguments instead. -/
theorem not_denotes_builder :
    TypeMapper.make builderPackage {} = .ok builderMapper ∧
      Generation.IsMemberBody builderMapper builderBody ∧
      ∃ files text, generate builderPackage {} = .ok files ∧ builderRun.1 = .ok text ∧
        files.get? (classPath builderBody.name) =
          some (Draft.finish { builderRun.2 with body := builderRun.2.body ++ text } {}).file.text ∧
        (builderEnum, "Builder") ∈ builderRun.2.imports.given ∧
        ∀ isLanguageClass,
          ¬ (builderRun.2.imports.scope builderBody.members files isLanguageClass).Denotes
            "Builder" builderEnum := by
  have hmake : TypeMapper.make builderPackage {} = .ok builderMapper := rfl
  have htext : builderRun.1.toOption.isSome = true := by decide +kernel
  have hfile : (generate builderPackage {}).toOption.bind
      (fun files => files.get? (classPath builderBody.name)) =
        builderRun.1.toOption.map fun text =>
          (Draft.finish { builderRun.2 with body := builderRun.2.body ++ text } {}).file.text := by
    decide +kernel
  have hgiven : (builderEnum, "Builder") ∈ builderRun.2.imports.given := by decide +kernel
  have hsimple : '.' ∉ "Builder".toList := by decide
  obtain ⟨text, htext⟩ := Option.isSome_iff_exists.1 htext
  rw [htext, Option.map_some, Option.bind_eq_some_iff] at hfile
  obtain ⟨files, hfiles, hfile⟩ := hfile
  refine ⟨hmake, isMemberBody_builderBody, files, text, toOption_eq_some.1 hfiles,
    toOption_eq_some.1 htext, hfile, hgiven, fun isLanguageClass hdenotes => ?_⟩
  unfold TypeScope.Denotes at hdenotes
  rw [TypeScope.meaning_of_notMem hsimple] at hdenotes
  simp [TypeScope.meaningOfSimple, Imports.scope, builderBody, InputClass.body] at hdenotes

end SchemaToJava.Java
