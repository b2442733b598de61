import SchemaToJava.Proofs.EmittedDescriptions
import SchemaToJava.Proofs.FileSets

/-!
Documents that are equal once their descriptions are left out. The same types are found to differ by
case alone, the same rule is broken first, and the packages bound from them are equal but for
descriptions. From such packages the same paths are generated, and each file starts with the same
package and the same imports.
-/
namespace SchemaToJava.Java

open Package Outcome

namespace DefaultExpression

theorem enumLiteral_mapDescriptions (f : Option String → Option String) (e : EnumType) :
    enumLiteral (e.mapDescriptions f) = enumLiteral e := by
  funext property type value
  unfold enumLiteral
  simp only [EnumClass.declared_mapDescriptions, List.find?_map]
  generalize e.elements.zip (EnumClass.identifiers e) = declared
  have hagrees : (fun element : EnumElement × String => element.1.value.agrees value) ∘
      (fun element : EnumElement × String => (element.1.mapDescription f, element.2)) =
        fun element => element.1.value.agrees value := rfl
  rw [hagrees]
  cases declared.find? fun element : EnumElement × String => element.1.value.agrees value with
  | none => rfl
  | some element => rfl

end DefaultExpression

section Packages

variable (r : Schema.Rewording)

def TypeMapper.reworded (m : TypeMapper) : TypeMapper :=
  { m with package := m.package.reworded r }

theorem TypeMapper.object?_reworded (m : TypeMapper) (token : String) :
    (m.reworded r).package.object? token =
      (m.package.object? token).map (ObjectType.mapDescriptions r.description) := by
  have hfound : (m.reworded r).package.types.get? token = _ :=
    Dictionary.get?_mapValues m.package.types _ token
  unfold object?
  rw [hfound]
  cases m.package.types.get? token with
  | none => rfl
  | some t => cases t <;> rfl

theorem TypeMapper.enum?_reworded (m : TypeMapper) (token : String) :
    (m.reworded r).package.enum? token =
      (m.package.enum? token).map (EnumType.mapDescriptions r.description) := by
  have hfound : (m.reworded r).package.types.get? token = _ :=
    Dictionary.get?_mapValues m.package.types _ token
  unfold enum?
  rw [hfound]
  cases m.package.types.get? token with
  | none => rfl
  | some t => cases t <;> rfl

/-- The enum with a given class is the same one, described anew. -/
theorem TypeMapper.enumByClass?_reworded (m : TypeMapper) (name : QualifiedName) :
    (m.reworded r).enumByClass? name =
      (m.enumByClass? name).map (EnumType.mapDescriptions r.description) := by
  have hvalues : (m.reworded r).package.types.values = _ :=
    Dictionary.values_mapValues m.package.types _
  unfold enumByClass?
  rw [hvalues, List.findSome?_map, List.map_findSome?]
  congr 1
  funext t
  cases t with
  | enum e =>
    have hclass : (m.reworded r).isClassOfEnum name (e.mapDescriptions r.description) =
        m.isClassOfEnum name e := rfl
    simp only [Function.comp_apply, TypeDefinition.mapDescriptions, hclass]
    split <;> rfl
  | object o => rfl
  | primitiveAlias token t => rfl

theorem TypeMapper.agrees_reworded (m : TypeMapper) : m.Agrees (m.reworded r) := by
  refine ⟨rfl, rfl, rfl, rfl, rfl, fun token => ?_, fun token => ?_, fun name => ?_⟩
  · rw [object?_reworded, Option.isSome_map]
  · rw [enum?_reworded, Option.isNone_map]
  · rw [enumByClass?_reworded, Option.map_map]
    congr 1
    funext e
    exact DefaultExpression.enumLiteral_mapDescriptions r.description e

end Packages

def FileSet.fronts (settings : Settings) (files : FileSet) : Dictionary String FileFront :=
  files.mapValues (frontOf settings)

def FileSet.Alike (settings : Settings) (files files' : FileSet) : Prop :=
  files.fronts settings = files'.fronts settings

/-- Like files are added to like sets with the same outcome. -/
theorem FileSet.Alike.add {settings : Settings} {files files' : FileSet} {file file' : SourceFile}
    (hfiles : FileSet.Alike settings files files') (hpath : file.path = file'.path)
    (hfront : frontOf settings file.text = frontOf settings file'.text) :
    Related (FileSet.Alike settings) (files.add file) (files'.add file') := by
  have hcontains : files.contains file.path = files'.contains file.path := by
    rw [← Dictionary.contains_mapValues files (frontOf settings),
      ← Dictionary.contains_mapValues files' (frontOf settings)]
    exact congrArg (·.contains file.path) hfiles
  unfold FileSet.add
  rw [← hpath, hcontains]
  split
  · exact .error _
  · refine .ok ?_
    unfold FileSet.Alike fronts at *
    rw [Dictionary.mapValues_insert, Dictionary.mapValues_insert, hfiles, hfront]

theorem FileSet.Alike.addAll {settings : Settings} {files files' : FileSet}
    (hfiles : FileSet.Alike settings files files') (added : List SourceFile) :
    Related (FileSet.Alike settings) (files.addAll added) (files'.addAll added) := by
  have hadded : List.Forall₂ Eq added added := List.forall₂_same.2 fun _ _ => rfl
  refine related_foldlM (fun files files' file file' hfiles hfile => ?_) hadded hfiles
  subst hfile
  exact hfiles.add rfl rfl

namespace Generation

/-- The files so far have the same paths and fronts, and the same classes are still needed. -/
structure Progress.Alike (settings : Settings) (p p' : Progress) : Prop where
  files : FileSet.Alike settings p.files p'.files
  queue : p.queue = p'.queue

variable {settings : Settings} {p p' : Progress}

/-- Like files are accepted alike. -/
theorem Progress.Alike.accept (h : p.Alike settings p') {e e' : Emitted}
    (he : Emitted.Alike settings e e') :
    Related (Progress.Alike settings) (p.accept e) (p'.accept e') := by
  obtain ⟨hpath, hrest⟩ := Prod.mk.inj he
  obtain ⟨hfront, hneeded⟩ := Prod.mk.inj hrest
  unfold Progress.accept
  refine (h.files.add hpath hfront).bind fun files files' hfiles => .ok ?_
  refine ⟨hfiles, ?_⟩
  dsimp only
  rw [h.queue, hneeded]

theorem Progress.Alike.acceptAll (h : p.Alike settings p') {es es' : List Emitted}
    (hes : List.Forall₂ (Emitted.Alike settings) es es') :
    Related (Progress.Alike settings) (p.acceptAll es) (p'.acceptAll es') :=
  related_foldlM (fun _ _ _ _ hp he => hp.accept he) hes h

/-- Taking in alike files of items one after another, from alike states, ends alike. -/
theorem Progress.Alike.foldlM (h : p.Alike settings p') {α β : Type} {S : β → β → Prop}
    {take : Progress → β → Except GenerationError Progress}
    (htake : ∀ {p p' : Progress}, p.Alike settings p' → ∀ {b b'}, S b b' →
      Related (Progress.Alike settings) (take p b) (take p' b'))
    {emit emit' : α → Except GenerationError β} {c : α → α}
    (hemit : ∀ x, Related S (emit x) (emit' (c x))) (xs : List α) :
    Related (Progress.Alike settings) (xs.foldlM (fun p x => do take p (← emit x)) p)
      ((xs.map c).foldlM (fun p x => do take p (← emit' x)) p') := by
  have hitems : List.Forall₂ (fun x x' => x' = c x) xs (xs.map c) :=
    List.forall₂_map_right_iff.2 (List.forall₂_same.2 fun _ _ => rfl)
  refine related_foldlM (fun s s' x x' hs hx => ?_) hitems h
  subst hx
  exact (hemit x).bind fun b b' hb => htake hs hb

variable (r : Schema.Rewording) (m : TypeMapper)

/-- The class of an object type in other words. -/
theorem related_objectClass (request : ClassRequest) :
    Related (Emitted.Alike m.settings) (objectClass m request)
      (objectClass (m.reworded r) request) := by
  have hagrees := m.agrees_reworded r
  unfold objectClass
  simp only [InputClass.emit_congr hagrees, OutputClass.emit_congr hagrees,
    TypeMapper.object?_reworded]
  cases m.package.object? request.source.token with
  | none => exact .error _
  | some o =>
    dsimp only [Option.map_some]
    cases request.direction with
    | output => exact OutputClass.related_emit r.description _ _
    | input =>
      have hproperties : (o.mapDescriptions r.description).propertiesFor request.source.inputShape =
          (o.propertiesFor request.source.inputShape).map
            (Property.mapDescription r.description) := by
        unfold ObjectType.propertiesFor
        split
        · exact map_asInput_mapDescription r.description o.properties
        · rfl
      dsimp only
      rw [hproperties]
      refine InputClass.related_emit r.description (r.description o.description) ?_
      split <;> rfl

/-- The queue is drained alike, however the types are described. -/
theorem related_drain (limit : Nat) {p p' : Progress} (h : p.Alike m.settings p') :
    Related (Progress.Alike m.settings) (drain m limit p) (drain (m.reworded r) limit p') := by
  induction limit generalizing p p' with
  | zero =>
    unfold drain
    rw [h.queue]
    split
    · exact .ok h
    · exact .error _
  | succ limit ih =>
    unfold drain
    rw [h.queue]
    split
    · exact .ok h
    · refine related_bind_same fun popped _ => ?_
      refine (related_objectClass r m popped.1).bind fun e e' he => ?_
      have hpopped : Progress.Alike m.settings { p with queue := popped.2 }
          { p' with queue := popped.2 } := ⟨h.files, rfl⟩
      exact (hpopped.accept he).bind fun q q' hq => ih hq

/-- The members in other words, taken in one after another. -/
theorem related_members {p p' : Progress} (h : p.Alike m.settings p') :
    Related (Progress.Alike m.settings) (members m p) (members (m.reworded r) p') := by
  have hagrees := m.agrees_reworded r
  have hresources : resources (m.reworded r).package =
      (resources m.package).map (Resource.mapDescriptions r.description) := by
    unfold resources
    rw [List.map_append, ← Option.toList_map]
    rfl
  have henums : enums (m.reworded r).package =
      (enums m.package).map (EnumType.mapDescriptions r.description) := by
    have hvalues : (m.reworded r).package.types.values = _ :=
      Dictionary.values_mapValues m.package.types _
    unfold enums
    rw [hvalues, List.filterMap_map, List.map_filterMap]
    congr 1
    funext t
    cases t <;> rfl
  have hgroups : FunctionsClass.group m (m.reworded r).package.functions = _ :=
    FunctionsClass.group_mapDescriptions r.description m.package.functions
  have hconfig : (m.reworded r).package.config =
      m.package.config.map (Property.mapDescription r.description) := rfl
  unfold members
  rw [ResourceClass.emit_congr hagrees, FunctionsClass.group_congr hagrees,
    FunctionsClass.emit_congr hagrees, EnumClass.emit_congr hagrees, Utilities.emit_congr hagrees,
    Utilities.bundled_congr hagrees, hresources, henums]
  refine (h.foldlM Progress.Alike.acceptAll (ResourceClass.related_emit r.description) _).bind
    fun p p' h => ?_
  rw [hgroups, bind_map_left]
  refine related_bind_same fun groups _ => ?_
  refine (h.foldlM Progress.Alike.acceptAll
    (fun entry => FunctionsClass.related_emit r.description entry.1 entry.2) groups).bind
      fun p p' h => ?_
  refine (h.foldlM Progress.Alike.accept (EnumClass.related_emit r.description) _).bind
    fun p p' h => ?_
  have hrest {p p' : Progress} (h : p.Alike m.settings p') :
      Related (Progress.Alike m.settings)
        (do
          let p ← p.accept (← Utilities.emit m)
          return { p with files := ← p.files.addAll (Utilities.bundled m) })
        (do
          let p ← p'.accept (← Utilities.emit m)
          return { p with files := ← p.files.addAll (Utilities.bundled m) }) := by
    refine related_bind_same fun e _ => ?_
    refine (h.accept rfl).bind fun p p' h => ?_
    exact (h.files.addAll _).bind fun files files' hfiles => .ok ⟨hfiles, h.queue⟩
  rw [hconfig, List.isEmpty_map]
  split
  · exact hrest h
  · refine (ConfigClass.related_emit r.description hagrees hconfig).bind fun e e' he => ?_
    exact (h.accept he).bind fun p p' h => hrest h

/-- Descriptions make no difference to the paths and fronts of generated files. -/
theorem fronts_generate {r : Schema.Rewording} {package : Package}
    (hoptions : PackageOptions.ofPackage (package.reworded r) = PackageOptions.ofPackage package)
    (settings : Settings) : FileSet.fronts settings <$> generate (package.reworded r) settings =
      FileSet.fronts settings <$> generate package settings := by
  have hmake : TypeMapper.make (package.reworded r) settings =
      TypeMapper.reworded r <$> TypeMapper.make package settings := by
    unfold TypeMapper.make PackageOptions.effective
    rw [hoptions, map_bind]
    rfl
  have hbound : classBound (package.reworded r) = classBound package := by
    unfold classBound
    exact congrArg (3 * ·) (List.length_map _)
  refine (related_iff_map_eq.1 ?_).symm
  unfold generate
  rw [hmake, hbound, bind_map_left]
  refine related_bind_same fun m hm => ?_
  have hsettings : m.settings = settings := by
    obtain ⟨options, -, hm⟩ := bind_eq_ok.1 hm
    obtain rfl := pure_eq_ok.1 hm
    rfl
  subst hsettings
  refine (related_members r m ⟨rfl, rfl⟩).bind fun p p' h => ?_
  exact (related_drain r m (classBound package) h).bind fun p p' h => .ok h.files

end Generation

end SchemaToJava.Java

namespace SchemaToJava

open Java

def Schema.Rewording.withoutDescriptions : Schema.Rewording where
  description _ := none
  language := id
  same_language _ _ := rfl
  javaName_language _ := rfl

def Schema.PackageDocument.withoutDescriptions (d : Schema.PackageDocument) :
    Schema.PackageDocument :=
  d.reworded .withoutDescriptions

def Package.withoutDescriptions (p : Package) : Package := p.reworded .withoutDescriptions

/-- All that is made of two documents agrees, but for descriptions and comments. -/
structure Schema.PackageDocument.WorksLike (d d' : Schema.PackageDocument) : Prop where
  diagnostics : d.mergeCaseVariants.2 = d'.mergeCaseVariants.2
  validate : d.mergeCaseVariants.1.validate = d'.mergeCaseVariants.1.validate
  bind : Package.withoutDescriptions <$> d.mergeCaseVariants.1.bind =
    Package.withoutDescriptions <$> d'.mergeCaseVariants.1.bind
  /-- Generation fails with the same error, or gives files of the same paths and fronts. -/
  generate : ∀ package package' settings, d.mergeCaseVariants.1.bind = .ok package →
    d'.mergeCaseVariants.1.bind = .ok package' →
      FileSet.fronts settings <$> generate package settings =
        FileSet.fronts settings <$> generate package' settings

/-- Documents that are equal without their descriptions work alike. -/
theorem Schema.worksLike_of_withoutDescriptions {d d' : PackageDocument}
    (h : d.withoutDescriptions = d'.withoutDescriptions) : d.WorksLike d' := by
  have hmerge : d.withoutDescriptions.mergeCaseVariants =
      d'.withoutDescriptions.mergeCaseVariants := congrArg _ h
  unfold PackageDocument.withoutDescriptions at hmerge
  rw [PackageDocument.mergeCaseVariants_reworded, PackageDocument.mergeCaseVariants_reworded]
    at hmerge
  obtain ⟨hmerged, hdiagnostics⟩ := Prod.mk.inj hmerge
  have hvalidate := congrArg PackageDocument.validate hmerged
  have hbind := congrArg PackageDocument.bind hmerged
  rw [PackageDocument.validate_reworded, PackageDocument.validate_reworded] at hvalidate
  rw [PackageDocument.bind_reworded, PackageDocument.bind_reworded] at hbind
  refine ⟨hdiagnostics, hvalidate, hbind, fun package package' settings hpackage hpackage' => ?_⟩
  rw [hpackage, hpackage'] at hbind
  have hpackages : package.reworded .withoutDescriptions =
      package'.reworded .withoutDescriptions := Except.ok.inj hbind
  let fronts (package : Package) := FileSet.fronts settings <$> Java.generate package settings
  calc FileSet.fronts settings <$> generate package settings
    _ = FileSet.fronts settings <$> generate package.withoutDescriptions settings :=
        (Generation.fronts_generate rfl settings).symm
    _ = FileSet.fronts settings <$> generate package'.withoutDescriptions settings :=
        congrArg fronts hpackages
    _ = FileSet.fronts settings <$> generate package' settings :=
        Generation.fronts_generate rfl settings

/-- A package with a type and a resource, all of which are described alike. -/
def Schema.describedDocument (description : Option String) : PackageDocument where
  name := "p"
  description
  types := Dictionary.empty.insert "p:m:T"
    { object := {
        description
        properties := Dictionary.empty.insert "x" { type.typeName := some "string", description } } }
  resources := Dictionary.empty.insert "p:m:R"
    { object.description := description
      inputs := Dictionary.empty.insert "t"
        { type.reference := some "#/types/p:m:T", description } }

theorem Schema.worksLike_of_withoutDescriptions_of_import :
    (describedDocument (some "import java.util.List;")).withoutDescriptions =
        (describedDocument none).withoutDescriptions ∧
      (describedDocument (some "import java.util.List;")).WorksLike (describedDocument none) := by
  have h : (describedDocument (some "import java.util.List;")).withoutDescriptions =
      (describedDocument none).withoutDescriptions := rfl
  exact ⟨h, worksLike_of_withoutDescriptions h⟩

end SchemaToJava
