import SchemaToJava.Proofs.BoundPackages
import SchemaToJava.Proofs.LoadingStages
import SchemaToJava.Proofs.WholePackages

/-!
References of a package to its own resources and enums, whose classes are generated with the members
and not on demand. Enums and declared resources have their files. A resource that is not declared
can still be referred to, as the provider of a document without one or by an address; such a
reference has a file only if some other class happens to have its path.
-/
namespace SchemaToJava.Java

open Package Outcome Schema

def writtenReferences (d : PackageDocument) : List String := referencesIn d.typeExprs

/-- The type stands somewhere in the type of a property of the package. -/
def Mentions (p : Package) (n : ResolvedType) : Prop :=
  ∃ property ∈ p.allProperties, n.IsNode property.type

/-- The token is that of a member of the package or of its provider. -/
def IsOwn (p : Package) (token : String) : Prop :=
  p.owns token = true ∨ token = Token.ofProvider p.name

/-- The token is that of a resource of the package or of the provider that it has. -/
def Declares (p : Package) (token : String) : Prop :=
  token ∈ (Generation.resources p).map Resource.token

/-- There is a class, and its file is in the set. -/
def HasFile (files : FileSet) (assigned : Except GenerationError QualifiedName) : Prop :=
  ∃ name, assigned = .ok name ∧ classPath name ∈ files.keys

/-- The files of all own resources and enums that the package refers to are in the set. -/
structure Complete (m : TypeMapper) (files : FileSet) : Prop where
  resources : ∀ token, Mentions m.package (.resource token) → IsOwn m.package token →
    HasFile files (m.resourceClass token)
  enums : ∀ token p, Mentions m.package (.enum token p) → IsOwn m.package token →
    HasFile files (m.enumClass token)

namespace Generation

variable {m : TypeMapper} {members : List Emitted}

/-- The names of the classes that are generated: those of members and the object classes that are
needed. -/
inductive IsGenerated (m : TypeMapper) (members : List Emitted) : QualifiedName → Prop
  | member {name : QualifiedName} : IsMemberClass m name → IsGenerated m members name
  | object {r : ClassRequest} : Reached m members r.key → m.Serves r → IsGenerated m members r.name

/-- The file of a class is none of the bundled ones. -/
theorem classPath_ne_bundled (name : QualifiedName) (rest : String) :
    classPath name ≠ resourceRoot ++ rest := by
  intro h
  have hchar := congrArg (fun path : String => path.toList[9]?) h
  have hsource : (classPath name).toList[9]? = some 'j' := by
    rw [classPath, String.append_assoc, String.toList_append,
      List.getElem?_append_left (by decide)]
    decide
  have hresource : (resourceRoot ++ rest).toList[9]? = some 'r' := by
    rw [String.toList_append, List.getElem?_append_left (by decide)]
    decide
  rw [hsource, hresource] at hchar
  exact absurd hchar (by decide)

/-- The paths of classes in the set are those of the classes that are generated. -/
theorem classPath_mem_iff {classes : List Rendered} {files : FileSet}
    (hmembers : memberClasses m = .ok members) (hclasses : Closure m members classes)
    (hfiles : files.Holds (allFiles m members classes)) {name : QualifiedName} :
    classPath name ∈ files.keys ↔
      ∃ other, IsGenerated m members other ∧ classPath other = classPath name := by
  obtain ⟨hfinish, hfinished⟩ := delivers_memberClasses (requestFrame m) hmembers
  rw [hfiles.keys_perm.mem_iff, allFiles]
  simp only [List.map_append, List.map_map, List.mem_append, List.mem_map, Function.comp_apply]
  constructor
  · rintro ((⟨e, he, hpath⟩ | ⟨f, hf, hpath⟩) | ⟨c, hc, hpath⟩)
    · obtain ⟨owner, howner, hfinishes⟩ := hfinish e he
      exact ⟨owner, .member howner, hfinishes.path_eq.symm.trans hpath⟩
    · simp only [Utilities.bundled, List.mem_cons, List.not_mem_nil, or_false] at hf
      rcases hf with rfl | rfl
      · simp only [String.append_assoc] at hpath
        exact absurd hpath.symm (classPath_ne_bundled name _)
      · simp only [String.append_assoc] at hpath
        exact absurd hpath.symm (classPath_ne_bundled name _)
    · have hfinishes := (requestFrame m).finishes_object (hclasses.rendered c hc)
      have hreached := (hclasses.reached_iff c.key).2 (List.mem_map_of_mem hc)
      exact ⟨_, .object hreached (hclasses.serves c hc), hfinishes.path_eq.symm.trans hpath⟩
  · rintro ⟨other, hother, hpath⟩
    cases hother with
    | member hmember =>
      obtain ⟨e, he, hfinishes⟩ := hfinished other hmember
      exact .inl (.inl ⟨e, he, hfinishes.path_eq.trans hpath⟩)
    | object hreached hserves =>
      obtain ⟨e, he⟩ := hclasses.exists_mem hserves hreached
      have hfinishes := (requestFrame m).finishes_object (hclasses.rendered _ he)
      exact .inr ⟨_, he, hfinishes.path_eq.trans hpath⟩

/-- Which references to the package's own members have their files. -/
structure Accounts (d : PackageDocument) (m : TypeMapper) (members : List Emitted)
    (files : FileSet) : Prop where
  /-- All have, exactly if every own resource that is referred to is declared, or else has a class
  with the path of one that is generated anyway. -/
  complete_iff : Complete m files ↔
    ∀ token, Mentions m.package (.resource token) → IsOwn m.package token →
      Declares m.package token ∨ ∃ name other, m.resourceClass token = .ok name ∧
        IsGenerated m members other ∧ classPath other = classPath name
  enums : ∀ token p, Mentions m.package (.enum token p) → HasFile files (m.enumClass token)
  declared : ∀ token, Declares m.package token → HasFile files (m.resourceClass token)
  /-- A resource that is not declared is referred to as the missing provider or by an address. -/
  undeclared : ∀ token, Mentions m.package (.resource token) → ¬ Declares m.package token →
    (token = Token.ofProvider d.name ∧ d.provider = none ∧ "#/provider" ∈ writtenReferences d) ∨
      ∃ reference ∈ writtenReferences d, IsAddress reference token

/-- Which files are there for the own members that the types of a bound package mention. -/
theorem accounts {d : PackageDocument} {classes : List Rendered} {files : FileSet}
    (hbound : IsBound d m.package) (hmembers : memberClasses m = .ok members)
    (hclasses : Closure m members classes) (hfiles : files.Holds (allFiles m members classes)) :
    Accounts d m members files := by
  have hpath {name : QualifiedName} (h : IsGenerated m members name) :
      classPath name ∈ files.keys :=
    (classPath_mem_iff hmembers hclasses hfiles).2 ⟨name, h, rfl⟩
  have hreferred {n : ResolvedType} (hmember : n.IsMember) (h : Mentions m.package n) :
      ∃ reference ∈ writtenReferences d, Target d reference n := by
    obtain ⟨property, hproperty, hnode⟩ := h
    obtain ⟨reference, hwritten, context, hbind⟩ :=
      hbound.refersWithin property hproperty n hmember hnode
    exact ⟨reference, hwritten, target_of_bindReference hbind⟩
  have henums : ∀ token p, Mentions m.package (.enum token p) →
      HasFile files (m.enumClass token) := by
    intro token p h
    obtain ⟨reference, -, htarget⟩ := hreferred .enum h
    cases htarget with
    | enum hentry helements =>
      obtain ⟨e, rfl, he⟩ := hbound.exists_enum hentry helements
      have hmem : e ∈ enums m.package := mem_enums.2 he
      obtain ⟨name, hname⟩ := exists_enumClass hmembers hmem
      exact ⟨name, hname, hpath (.member (.enum hmem hname))⟩
  have hdeclared : ∀ token, Declares m.package token → HasFile files (m.resourceClass token) := by
    intro token h
    obtain ⟨r, hr, rfl⟩ := List.mem_map.1 h
    obtain ⟨c, hc⟩ := exists_ofResource hmembers hr
    obtain ⟨-, hname, -⟩ := ResourceClass.ofResource_eq_ok hc
    exact ⟨c.name, hname, hpath (.member (.resource hr hc List.mem_cons_self))⟩
  refine ⟨⟨fun h token hmentions hown => ?_, fun h => ⟨fun token hmentions hown => ?_, ?_⟩⟩,
    henums, hdeclared, fun token hmentions hnot => ?_⟩
  · obtain ⟨name, hname, hmem⟩ := h.resources token hmentions hown
    obtain ⟨other, hother, heq⟩ := (classPath_mem_iff hmembers hclasses hfiles).1 hmem
    exact .inr ⟨name, other, hname, hother, heq⟩
  · rcases h token hmentions hown with hdeclares | ⟨name, other, hname, hother, heq⟩
    · exact hdeclared token hdeclares
    · exact ⟨name, hname, heq ▸ hpath hother⟩
  · exact fun token p hmentions _ => henums token p hmentions
  · obtain ⟨reference, hwritten, htarget⟩ := hreferred .resource hmentions
    cases htarget with
    | provider hprovider =>
      refine .inl ⟨rfl, ?_, hprovider ▸ hwritten⟩
      rcases hbound.provider_cases with ⟨hnone, -⟩ | ⟨r, hr, htoken⟩
      · exact hnone
      · refine absurd (List.mem_map.2 ⟨r, ?_, htoken⟩) hnot
        simp [resources, hr]
    | resource hcontains =>
      refine absurd ?_ hnot
      rw [Declares, resources, List.map_append]
      exact List.mem_append_right _ (hbound.mem_resources hcontains)
    | address haddress => exact .inr ⟨reference, hwritten, haddress⟩

end Generation

/-- Loading a text validates and binds its document after types that differ only by case are
merged. -/
theorem stages_of_loadPackage {text : String} {package : Package} {diagnostics : List Diagnostic}
    (h : loadPackage text = .ok (package, diagnostics)) :
    ∃ d, parseDocument text = .ok d ∧ d.mergeCaseVariants.1.validate = .ok () ∧
      d.mergeCaseVariants.1.bind = .ok package := by
  obtain ⟨d, hd, -, hvalid, hbind⟩ := loadPackage_iff.1 h
  exact ⟨d, hd, hvalid, hbind⟩

theorem loadPackage_eq_ok {text : String} {package : Package} {diagnostics : List Diagnostic}
    (h : loadPackage text = .ok (package, diagnostics)) :
    ∃ d, parseDocument text = .ok d ∧ d.mergeCaseVariants.1.bind = .ok package := by
  obtain ⟨d, hd, -, hbind⟩ := stages_of_loadPackage h
  exact ⟨d, hd, hbind⟩

/-- Of the references of a package to itself, those to enums and to declared resources always have
their files, and all have them unless an undeclared resource is referred to. -/
theorem accounts_of_generateFromText {text : String} {settings : Settings} {files : FileSet}
    {diagnostics : List Diagnostic}
    (h : generateFromText text settings = .ok (files, diagnostics)) :
    ∃ d m members, parseDocument text = .ok d ∧
      d.mergeCaseVariants.1.bind = .ok m.package ∧
      TypeMapper.make m.package settings = .ok m ∧
      Generation.memberClasses m = .ok members ∧
      Generation.Accounts d.mergeCaseVariants.1 m members files := by
  unfold generateFromText at h
  obtain ⟨⟨package, noticed⟩, hload, h⟩ := bind_eq_ok.1 h
  obtain ⟨generated, hgenerated, h⟩ := bind_eq_ok.1 h
  obtain ⟨rfl, -⟩ := Prod.mk.inj (pure_eq_ok.1 h)
  obtain ⟨d, hd, hbind⟩ := loadPackage_eq_ok (mapError_eq_ok.1 hload)
  obtain ⟨m, members, classes, hm, hmembers, hclasses, hfiles⟩ :=
    Generation.generate_eq_ok.1 hgenerated
  obtain rfl := Generation.package_of_make hm
  exact ⟨d, m, members, hd, hbind, hm, hmembers,
    Generation.accounts (isBound_of_bind hbind) hmembers hclasses hfiles⟩

/-- A resource that refers to the provider of its package, which is declared, and to an enum. -/
theorem accounts_of_generateFromText_of_provider :
    let text := "\x7b\"name\": \"p\", \"provider\": \x7b\x7d, \"types\": \x7b\"p:m:E\": " ++
      "\x7b\"type\": \"string\", \"enum\": [\x7b\"value\": \"a\"\x7d]\x7d\x7d, " ++
      "\"resources\": \x7b\"p:m:R\": \x7b\"inputProperties\": \x7b" ++
      "\"x\": \x7b\"$ref\": \"#/provider\"\x7d, " ++
      "\"y\": \x7b\"$ref\": \"#/types/p:m:E\"\x7d\x7d\x7d\x7d\x7d"
    ∃ files diagnostics, generateFromText text {} = .ok (files, diagnostics) ∧
      files.contains "src/main/java/com/pulumi/p/Provider.java" = true ∧
      files.contains "src/main/java/com/pulumi/p/m/enums/E.java" = true ∧
      ∃ d m members, parseDocument text = .ok d ∧
        d.mergeCaseVariants.1.bind = .ok m.package ∧ TypeMapper.make m.package {} = .ok m ∧
        Generation.memberClasses m = .ok members ∧
        Generation.Accounts d.mergeCaseVariants.1 m members files := by
  intro text
  have hfiles : (generateFromText text {}).toOption.map (fun generated =>
      (generated.1.contains "src/main/java/com/pulumi/p/Provider.java",
        generated.1.contains "src/main/java/com/pulumi/p/m/enums/E.java")) = some (true, true) := by
    decide +kernel
  obtain ⟨⟨files, diagnostics⟩, hgenerated, hcontains⟩ := Option.map_eq_some_iff.1 hfiles
  obtain ⟨hprovider, henum⟩ := Prod.mk.inj hcontains
  have h : generateFromText text {} = .ok (files, diagnostics) := toOption_eq_some.1 hgenerated
  exact ⟨files, diagnostics, h, hprovider, henum, accounts_of_generateFromText h⟩

/-- Whether the type is that of an optional property which refers to the resource. -/
def refersOptionally (token : String) : ResolvedType → Bool
  | .optional (.resource other) => other == token
  | _ => false

/-- Whether the package of a text refers to a resource of its own without having its file. -/
def dangles (text token : String) : Bool :=
  match generateFromText text {}, loadPackage text with
  | .ok (files, _), .ok (package, _) =>
    match TypeMapper.make package {} with
    | .ok m =>
      (m.resourceClass token).toOption.all (fun name => !files.contains (classPath name)) &&
        package.allProperties.any (fun p => refersOptionally token p.type) &&
        (package.owns token || token == Token.ofProvider package.name)
    | .error _ => false
  | _, _ => false

/-- A resource that is referred to and not declared has no file. -/
theorem not_complete_of_dangles {text token : String} (h : dangles text token = true) :
    ∃ files diagnostics m, generateFromText text {} = .ok (files, diagnostics) ∧
      (∃ noticed, loadPackage text = .ok (m.package, noticed)) ∧
      TypeMapper.make m.package {} = .ok m ∧ ¬ Complete m files := by
  unfold dangles at h
  split at h
  · next files diagnostics package noticed hgenerated hloaded =>
    split at h
    · next m hm =>
      obtain rfl := Generation.package_of_make hm
      simp only [Bool.and_eq_true, List.any_eq_true, Bool.or_eq_true, beq_iff_eq] at h
      obtain ⟨⟨hmissing, property, hproperty, hrefers⟩, hown⟩ := h
      refine ⟨files, diagnostics, m, hgenerated, ⟨noticed, hloaded⟩, hm, fun hcomplete => ?_⟩
      have hnode : ResolvedType.IsNode (.resource token) property.type := by
        unfold refersOptionally at hrefers
        split at hrefers
        · next other htype =>
          obtain rfl := beq_iff_eq.1 hrefers
          rw [htype]
          exact .optional .root
        · cases hrefers
      obtain ⟨name, hname, hmem⟩ := hcomplete.resources token ⟨property, hproperty, hnode⟩ hown
      rw [hname] at hmissing
      have hcontains := Dictionary.contains_iff.2 hmem
      simp [Except.toOption, hcontains] at hmissing
    · cases h
  · cases h

/-- Without its provider, a package can still refer to it; and it can refer to a resource that it
does not declare by an address. Both are generated without the file of the class. -/
theorem not_complete_of_undeclared :
    let referring (reference : String) : String :=
      "\x7b\"name\": \"p\", \"resources\": \x7b\"p:m:R\": \x7b\"inputProperties\": " ++
        "\x7b\"x\": \x7b\"$ref\": \"" ++ reference ++ "\"\x7d\x7d\x7d\x7d\x7d"
    ∀ text ∈ [referring "#/provider", referring "p.json#/resources/p:m:X"],
      ∃ files diagnostics m, generateFromText text {} = .ok (files, diagnostics) ∧
        (∃ noticed, loadPackage text = .ok (m.package, noticed)) ∧
        TypeMapper.make m.package {} = .ok m ∧ ¬ Complete m files := by
  intro referring text htext
  simp only [List.mem_cons, List.not_mem_nil, or_false] at htext
  rcases htext with rfl | rfl
  · have hdangles : dangles (referring "#/provider") "pulumi:providers:p" = true := by
      decide +kernel
    exact not_complete_of_dangles hdangles
  · have hdangles : dangles (referring "p.json#/resources/p:m:X") "p:m:X" = true := by
      decide +kernel
    exact not_complete_of_dangles hdangles

end SchemaToJava.Java
