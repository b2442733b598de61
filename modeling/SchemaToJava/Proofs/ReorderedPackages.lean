import SchemaToJava.Proofs.LanguageSettings
import SchemaToJava.Proofs.LoadingStages

/-!
Package documents whose members stand in another order. JSON texts that differ in nothing but the
order of members in their objects are read as documents that differ in nothing but the order inside
the settings for the target languages. These are merged, validated and bound alike, and the files
and diagnostics of the one text are those of the other.
-/
namespace SchemaToJava.Package

open Schema Json Outcome

section Rewording

theorem map_mapDescription_id (ps : List Property) : ps.map (Property.mapDescription id) = ps :=
  List.map_id ps

theorem mapDescriptions_id_object (o : ObjectType) : o.mapDescriptions id = o := by
  unfold ObjectType.mapDescriptions
  rw [map_mapDescription_id]
  rfl

theorem mapDescriptions_id_type (t : TypeDefinition) : t.mapDescriptions id = t := by
  cases t with
  | object o => exact congrArg TypeDefinition.object (mapDescriptions_id_object o)
  | enum e =>
    have helements : e.elements.map (EnumElement.mapDescription id) = e.elements :=
      List.map_id e.elements
    have henum : e.mapDescriptions id = e := by
      unfold EnumType.mapDescriptions
      rw [helements]
      rfl
    exact congrArg TypeDefinition.enum henum
  | primitiveAlias => rfl

theorem map_id_properties (ps : Option (List Property)) :
    ps.map (List.map (Property.mapDescription id)) = ps := by
  cases ps with
  | none => rfl
  | some ps => exact congrArg some (map_mapDescription_id ps)

theorem mapDescriptions_id_resource (r : Resource) : r.mapDescriptions id = r := by
  unfold Resource.mapDescriptions
  rw [map_mapDescription_id, map_mapDescription_id, map_id_properties]
  rfl

theorem mapDescriptions_id_function (f : Function) : f.mapDescriptions id = f := by
  unfold Function.mapDescriptions
  rw [map_id_properties, map_id_properties]
  rfl

/-- In a package nothing but the settings for the target languages has an order that is lost. -/
theorem reworded_ordered (p : Package) :
    p.reworded .ordered = { p with language := p.language.mapValues Value.sorted } := by
  have hwords : Rewording.ordered.description = id := rfl
  have hresource : Resource.mapDescriptions id = id := funext mapDescriptions_id_resource
  have hfunction : Function.mapDescriptions id = id := funext mapDescriptions_id_function
  unfold reworded
  rw [hwords, Dictionary.mapValues_eq_self mapDescriptions_id_type, hresource, hfunction,
    map_mapDescription_id, List.map_id, List.map_id, Option.map_id]
  rfl

end Rewording

end SchemaToJava.Package

namespace SchemaToJava.Schema

open Reading Json Java Outcome

section Loading

/-- Both texts are JSON, for they start with a brace. No object of the first one has a name twice,
and the second one has the members of its objects in some order, but in the same order where they
stand in a default, in a constant or in the value of an enum element. -/
structure ReorderedText (text text' : String) : Prop where
  json : isJson text = true
  json' : isJson text' = true
  trailing : (documentOf text).trailing = (documentOf text').trailing
  root : Reordered .package (documentOf text).root (documentOf text').root

theorem ReorderedText.symm {text text' : String} (h : ReorderedText text text') :
    ReorderedText text' text :=
  ⟨h.json', h.json, h.trailing.symm, h.root.symm⟩

/-- The documents differ only by the order of members inside the settings for languages. -/
structure PackageDocument.SameButOrder (d d' : PackageDocument) : Prop where
  reworded : d'.reworded .ordered = d.reworded .ordered
  tidy : IsTidyLanguage d.language
  tidy' : IsTidyLanguage d'.language

theorem exists_parseDocument {text text' : String} (h : ReorderedText text text')
    {d : PackageDocument} (hd : parseDocument text = .ok d) :
    ∃ d', parseDocument text' = .ok d' ∧ d.SameButOrder d' := by
  obtain ⟨hread, htrailing⟩ := readJson_eq_ok.1 ((parseDocument_eq_ok h.json).1 hd)
  have hgives := gives_of_result hread
  obtain ⟨d', hread', hreworded⟩ := respects_readPackage jsonDepth h.root hgives
  have hgives' : Gives (readPackage jsonDepth (documentOf text').root) d' := by
    rw [hread', gives_pure]
  have hresult : readJson readPackage text' = .ok d' :=
    readJson_eq_ok.2 ⟨congrArg Read.result hread', h.trailing ▸ htrailing⟩
  refine ⟨d', (parseDocument_eq_ok h.json').2 hresult, hreworded, ?_, ?_⟩
  · exact isTidyLanguage_of_gives (isPlain_documentOf text) hgives
  · exact isTidyLanguage_of_gives (isPlain_documentOf text') hgives'

theorem language_mergeCaseVariants (d : PackageDocument) :
    d.mergeCaseVariants.1.language = d.language := by
  unfold PackageDocument.mergeCaseVariants
  dsimp only
  split <;> rfl

theorem language_of_bind {d : PackageDocument} {package : Package} (h : d.bind = .ok package) :
    package.language = d.language := by
  unfold PackageDocument.bind at h
  obtain ⟨types, -, h⟩ := bind_eq_ok.1 h
  obtain ⟨resources, -, h⟩ := bind_eq_ok.1 h
  obtain ⟨provider, -, h⟩ := bind_eq_ok.1 h
  obtain ⟨functions, -, h⟩ := bind_eq_ok.1 h
  obtain ⟨config, -, h⟩ := bind_eq_ok.1 h
  obtain rfl := pure_eq_ok.1 h
  rfl

/-- A package that is loaded from a text is loaded from the other one too, but for its settings. -/
theorem exists_loadPackage {text text' : String} (h : ReorderedText text text')
    {package : Package} {diagnostics : List Diagnostic}
    (hload : loadPackage text = .ok (package, diagnostics)) :
    ∃ language, loadPackage text' = .ok ({ package with language }, diagnostics) ∧
      language.mapValues Value.sorted = package.language.mapValues Value.sorted ∧
      IsTidyLanguage package.language ∧ IsTidyLanguage language := by
  obtain ⟨d, hd, hdiagnostics, hvalid, hbind⟩ := loadPackage_iff.1 hload
  obtain ⟨d', hd', hsame⟩ := exists_parseDocument h hd
  have hmerge : (d'.reworded .ordered).mergeCaseVariants =
      (d.reworded .ordered).mergeCaseVariants := congrArg _ hsame.reworded
  rw [PackageDocument.mergeCaseVariants_reworded, PackageDocument.mergeCaseVariants_reworded]
    at hmerge
  obtain ⟨hmerged, hnoticed⟩ := Prod.mk.inj hmerge
  have hvalid' := congrArg PackageDocument.validate hmerged
  rw [PackageDocument.validate_reworded, PackageDocument.validate_reworded, hvalid] at hvalid'
  have hbind' := congrArg PackageDocument.bind hmerged
  rw [PackageDocument.bind_reworded, PackageDocument.bind_reworded, hbind] at hbind'
  obtain ⟨package', hpackage', hwords⟩ := map_eq_ok.1 hbind'
  rw [Package.reworded_ordered, Package.reworded_ordered] at hwords
  have hlanguage : package.language = d.language :=
    (language_of_bind hbind).trans (language_mergeCaseVariants d)
  have hlanguage' : package'.language = d'.language :=
    (language_of_bind hpackage').trans (language_mergeCaseVariants d')
  have hsettings := congrArg Package.language hwords
  have hrest : package' = { package with language := package'.language } := by
    have hback := congrArg (fun p : Package => { p with language := package'.language }) hwords
    exact hback
  refine ⟨package'.language, loadPackage_iff.2 ⟨d', hd', ?_, hvalid', ?_⟩, hsettings, ?_, ?_⟩
  · rw [hnoticed, hdiagnostics]
  · rw [hpackage', ← hrest]
  · rw [hlanguage]
    exact hsame.tidy
  · rw [hlanguage']
    exact hsame.tidy'

end Loading

end SchemaToJava.Schema

namespace SchemaToJava.Java

open Schema Package Reading Json Outcome

theorem generateFromText_of_reordered {text text' : String} (h : ReorderedText text text')
    {settings : Settings} {generated : FileSet × List Diagnostic}
    (hgenerated : generateFromText text settings = .ok generated) :
    generateFromText text' settings = .ok generated := by
  obtain ⟨files, diagnostics⟩ := generated
  obtain ⟨package, hload, hfiles⟩ := generateFromText_eq_ok.1 hgenerated
  obtain ⟨language, hload', hsorted, htidy, htidy'⟩ := exists_loadPackage h hload
  have hfiles' : generate { package with language } settings = .ok files := by
    refine generate_withLanguage (fun options hread => ?_) hfiles
    exact ofPackage_of_sorted htidy htidy' hsorted hread
  exact generateFromText_eq_ok.2 ⟨_, hload', hfiles'⟩

/-- The order of members makes no difference to what is generated from a JSON text. -/
theorem generateFromText_iff_of_reordered {text text' : String} (h : ReorderedText text text')
    (settings : Settings) (generated : FileSet × List Diagnostic) :
    generateFromText text settings = .ok generated ↔
      generateFromText text' settings = .ok generated :=
  ⟨generateFromText_of_reordered h, generateFromText_of_reordered h.symm⟩

def unsortedSettings : Value :=
  .object [("java", .object [("buildFiles", .string "none"), ("basePackage", .string "org.a")])]

theorem isTidy_unsortedSettings : unsortedSettings.IsTidy := by
  refine .object (by decide) fun m hm => ?_
  obtain rfl := List.mem_singleton.1 hm
  refine .object (by decide) fun m hm => ?_
  rcases List.mem_cons.1 hm with rfl | hm
  · exact .string
  · obtain rfl := List.mem_singleton.1 hm
    exact .string

/-- The members of the package and those of its settings for Java change places. -/
theorem generateFromText_iff_of_reordered_of_settings :
    let text := "\x7b\"name\":\"p\",\"language\":\x7b\"java\":" ++
      "\x7b\"buildFiles\":\"none\",\"basePackage\":\"org.a\"\x7d\x7d\x7d"
    let text' := "\x7b\"language\":\x7b\"java\":" ++
      "\x7b\"basePackage\":\"org.a\",\"buildFiles\":\"none\"\x7d\x7d,\"name\":\"p\"\x7d"
    ReorderedText text text' ∧ ∃ generated, generateFromText text {} = .ok generated ∧
      generateFromText text' {} = .ok generated := by
  intro text text'
  let v : Value := .object [("name", .string "p"), ("language", unsortedSettings)]
  let w : Value := .object [("language", unsortedSettings.sorted), ("name", .string "p")]
  have hv : documentOf text = ⟨Node.ofValue v, false⟩ := by
    have htext : v.text = text := by decide +kernel
    have hnumbers : v.numbers = [] := rfl
    rw [← htext]
    exact documentOf_text (hnumbers ▸ fun _ hn => nomatch hn)
  have hw : documentOf text' = ⟨Node.ofValue w, false⟩ := by
    have htext : w.text = text' := by decide +kernel
    have hnumbers : w.numbers = [] := rfl
    rw [← htext]
    exact documentOf_text (hnumbers ▸ fun _ hn => nomatch hn)
  have hname : Reordered .other (Node.ofValue (.string "p")) (Node.ofValue (.string "p")) := by
    rw [Node.ofValue]
    exact .scalar (.ofAtom trivial)
  have hroot : Reordered .package (Node.ofValue v) (Node.ofValue w) := by
    refine reordered_object (by decide) ?_ (.swap _ _ []) (by simp)
    exact .cons ⟨rfl, hname⟩ (.cons ⟨rfl, (reordered_sorted isTidy_unsortedSettings).1⟩ .nil)
  have h : ReorderedText text text' := by
    refine ⟨by decide +kernel, by decide +kernel, ?_, ?_⟩
    · rw [hv, hw]
    · rw [hv, hw]
      exact hroot
  have hsome : (generateFromText text {}).toOption.isSome = true := by decide +kernel
  obtain ⟨generated, hgenerated⟩ := Option.isSome_iff_exists.1 hsome
  have hfirst := toOption_eq_some.1 hgenerated
  exact ⟨h, generated, hfirst, (generateFromText_iff_of_reordered h {} generated).1 hfirst⟩

end SchemaToJava.Java
