import SchemaToJava.Proofs.Emissions
import SchemaToJava.Proofs.EnumDefaults

/-!
The lookup of enums by their classes. It takes the first enum that has the class, so it finds the
right one only if no other enum shares the class with it. That no two enums do is not checked by
itself; but the enums are emitted one after another, so that generation fails where two of them have
the same file, if it has not failed earlier.
-/
namespace SchemaToJava

open Package Outcome Schema

/-- The enums of a bound package have the tokens under which it has them. -/
theorem IsBound.mem_enums {d : PackageDocument} {p : Package} (h : IsBound d p) {token : String}
    {e : EnumType} (he : p.enum? token = some e) :
    e ∈ Java.Generation.enums p ∧ e.token = token := by
  unfold Package.enum? at he
  split at he
  · next found hfound =>
    cases he
    obtain ⟨⟨name, entry⟩, -, rfl, hbind⟩ :=
      exists_left_of_mem h.types (Dictionary.get?_eq_some_iff.1 hfound)
    exact ⟨Java.Generation.mem_enums_of_get? hfound, token_of_bindTypeEntry hbind⟩
  · cases he

namespace Java.Generation

variable {m : TypeMapper}

/-- No class of the one emission has the path of a class of the other. -/
def Apart (x y : Except GenerationError (List Emission)) : Prop :=
  ∀ cs ds, x = .ok cs → y = .ok ds → ∀ c ∈ cs, ∀ d ∈ ds, c.path ≠ d.path

theorem apart_symm {x y : Except GenerationError (List Emission)} (h : Apart x y) : Apart y x :=
  fun cs ds hcs hds c hc d hd => (h ds cs hds hcs d hd c hc).symm

theorem pairwise_apart {ess : List (List Emission)} (h : (ess.flatten.map Emission.path).Nodup) :
    (ess.map Except.ok).Pairwise Apart := by
  rw [List.map_flatten, List.nodup_flatten, List.pairwise_map] at h
  refine List.pairwise_map.2 (h.2.imp fun hdisjoint => ?_)
  rintro _ _ ⟨⟩ ⟨⟩ c hc d hd hpath
  exact hdisjoint (List.mem_map_of_mem hc) (hpath ▸ List.mem_map_of_mem hd)

/-- All resources, classes of functions and enums are emitted, with different paths. -/
structure EmitsApart (m : TypeMapper) : Prop where
  emitted : ∀ x ∈ declaredEmissions m, ∃ es, x = .ok es
  apart : (declaredEmissions m).Pairwise Apart

/-- If a resource, a class of functions or an enum is not taken in, generation fails for that. -/
theorem generate_of_declared {package : Package} {settings : Settings} {e : GenerationError}
    (hm : TypeMapper.make package settings = .ok m)
    (h : (declaredEmissions m).foldlM Progress.take {} = .error e) :
    generate package settings = .error e := by
  have hmembers : members m {} = .error e := by
    rw [members_eq, memberEmissions, List.foldlM_append, h]
    rfl
  rw [generate_of_make hm, hmembers]
  rfl

/-- Generation fails, for a path that is taken or since a resource, a class of functions or an enum
cannot be emitted, unless all these are emitted with different paths. -/
theorem declared_cases {package : Package} {settings : Settings}
    (hm : TypeMapper.make package settings = .ok m) :
    (∃ e, generate package settings = .error e ∧
      ((∃ path, e = .duplicateFile path) ∨ .error e ∈ declaredEmissions m)) ∨ EmitsApart m := by
  have hstart : Emits m [] (declaredEmissions m ++ supportEmissions m) ({} : Progress).queue :=
    .start
  cases hdeclared : (declaredEmissions m).foldlM Progress.take {} with
  | error e =>
    refine .inl ⟨e, generate_of_declared hm hdeclared, ?_⟩
    rcases hstart.error_of_foldlM FileSet.holds_empty hdeclared with h | ⟨path, _, _, h, -⟩
    · exact .inr h
    · exact .inl ⟨path, h⟩
  | ok p =>
    obtain ⟨ess, hess, hemits, hfiles⟩ := hstart.exists_of_foldlM FileSet.holds_empty hdeclared
    have hpaths := hfiles.nodup
    rw [hemits.proceeds.paths_eq] at hpaths
    refine .inr ⟨fun x hx => ?_, hess ▸ pairwise_apart hpaths⟩
    rw [hess] at hx
    obtain ⟨es, -, rfl⟩ := List.mem_map.1 hx
    exact ⟨es, rfl⟩

theorem mem_of_enumEmissions {e : EnumType} {es : List Emission} {name : QualifiedName}
    (h : enumEmissions m e = .ok es) (hname : m.enumClass e.token = .ok name) :
    ∃ emitted, (name, emitted) ∈ es := by
  obtain ⟨other, hother, hnames⟩ := bind_eq_ok.1 ((named_eq_ok (areNamed_enum e)).1 h).2
  obtain rfl := Except.ok.inj (hother.symm.trans hname)
  have hmem : other ∈ es.map Prod.fst := by
    rw [← pure_eq_ok.1 hnames]
    exact List.mem_singleton_self other
  obtain ⟨⟨_, emitted⟩, hemitted, rfl⟩ := List.mem_map.1 hmem
  exact ⟨emitted, hemitted⟩

/-- Enums that are emitted with different paths are told apart by their classes. -/
theorem EmitsApart.enumClass_inj (h : EmitsApart m) {e other : EnumType} (he : e ∈ enums m.package)
    (hother : other ∈ enums m.package) {name : QualifiedName}
    (hname : m.enumClass e.token = .ok name) (hsame : m.enumClass other.token = .ok name) :
    e = other := by
  by_contra hne
  have hmem {e : EnumType} (he : e ∈ enums m.package) : enumEmissions m e ∈ declaredEmissions m :=
    List.mem_append_right _ (List.mem_map_of_mem he)
  have henums := List.pairwise_map.1 (h.apart.sublist (List.sublist_append_right _ _))
  have : Std.Symm fun e other => Apart (enumEmissions m e) (enumEmissions m other) :=
    ⟨fun _ _ => apart_symm⟩
  have hdiffer := henums.forall he hother hne
  obtain ⟨cs, hcs⟩ := h.emitted _ (hmem he)
  obtain ⟨ds, hds⟩ := h.emitted _ (hmem hother)
  obtain ⟨c, hc⟩ := mem_of_enumEmissions hcs hname
  obtain ⟨d, hd⟩ := mem_of_enumEmissions hds hsame
  exact hdiffer cs ds hcs hds _ hc _ hd rfl

/-- Looking an enum up by its class finds it again where generation succeeds, since generation fails
where two enums share a class. -/
structure InvertsNaming (package : Package) (settings : Settings) : Prop where
  finds : ∀ files, generate package settings = .ok files →
    ∃ m, TypeMapper.make package settings = .ok m ∧ ∀ token e, package.enum? token = some e →
      ∃ name, m.enumClass token = .ok name ∧ m.enumByClass? name = some e
  /-- Generation fails for a path that is taken, or since a resource, a class of functions or an
  enum cannot be emitted. -/
  refuses : ∀ m token other e e' name, TypeMapper.make package settings = .ok m → token ≠ other →
    package.enum? token = some e → package.enum? other = some e' →
    m.enumClass token = .ok name → m.enumClass other = .ok name →
    ∃ failed, generate package settings = .error failed ∧
      ((∃ path, failed = .duplicateFile path) ∨ .error failed ∈ declaredEmissions m)

theorem exists_enumByClass? {e : EnumType} {name : QualifiedName} (he : e ∈ enums m.package)
    (hname : m.enumClass e.token = .ok name) : ∃ found, m.enumByClass? name = some found := by
  have hclass : m.isClassOfEnum name e = true := by
    unfold TypeMapper.isClassOfEnum
    rw [hname]
    exact beq_self_eq_true name
  refine Option.isSome_iff_exists.1 (List.findSome?_isSome_iff.2 ⟨_, mem_enums.1 he, ?_⟩)
  dsimp only
  rw [if_pos hclass]
  rfl

/-- In every bound package, an enum is found again by its class or generation fails. -/
theorem invertsNaming_of_bind {d : PackageDocument} {package : Package}
    (hbind : d.bind = .ok package) (settings : Settings) : InvertsNaming package settings := by
  have hbound := isBound_of_bind hbind
  constructor
  · intro files hfiles
    obtain ⟨m, -, -, hm, -, -, -⟩ := generate_eq_ok.1 hfiles
    refine ⟨m, hm, fun token e he => ?_⟩
    obtain rfl := package_of_make hm
    rcases declared_cases hm with ⟨failed, hfailed, -⟩ | hapart
    · rw [hfiles] at hfailed
      cases hfailed
    obtain ⟨hmem, rfl⟩ := hbound.mem_enums he
    obtain ⟨name, hname⟩ := enumClass_of_mem_enums hbound hmem
    obtain ⟨found, hfound⟩ := exists_enumByClass? hmem hname
    obtain ⟨hfoundMem, hsame⟩ := enumByClass?_eq_some hfound
    obtain rfl := hapart.enumClass_inj hmem hfoundMem hname hsame
    exact ⟨name, hname, hfound⟩
  · intro m token other e e' name hm hne he he' hname hsame
    obtain rfl := package_of_make hm
    refine (declared_cases hm).resolve_right fun hapart => hne ?_
    obtain ⟨hmem, rfl⟩ := hbound.mem_enums he
    obtain ⟨hmem', rfl⟩ := hbound.mem_enums he'
    rw [hapart.enumClass_inj hmem hmem' hname hsame]

/-- Two enums with the same name in different modules. -/
theorem invertsNaming_of_bind_of_modules :
    let elements : List EnumEntry := [{ value := .string "a" }]
    let d : PackageDocument :=
      { name := "p"
        types := .ofList
          [("p:m:E", { elements := some elements }), ("p:n:E", { elements := some elements })] }
    ∃ package files, d.bind = .ok package ∧ generate package {} = .ok files ∧
      files.contains "src/main/java/com/pulumi/p/m/enums/E.java" = true ∧
      files.contains "src/main/java/com/pulumi/p/n/enums/E.java" = true ∧
      InvertsNaming package {} := by
  intro elements d
  have hfiles : (d.bind.toOption.bind fun package =>
      (generate package {}).toOption.map fun files =>
        (files.contains "src/main/java/com/pulumi/p/m/enums/E.java",
          files.contains "src/main/java/com/pulumi/p/n/enums/E.java")) = some (true, true) := by
    decide +kernel
  obtain ⟨package, hpackage, hgenerated⟩ := Option.bind_eq_some_iff.1 hfiles
  obtain ⟨files, hfiles, hcontains⟩ := Option.map_eq_some_iff.1 hgenerated
  obtain ⟨hfirst, hsecond⟩ := Prod.mk.inj hcontains
  have hbind : d.bind = .ok package := toOption_eq_some.1 hpackage
  exact ⟨package, files, hbind, toOption_eq_some.1 hfiles, hfirst, hsecond,
    invertsNaming_of_bind hbind {}⟩

/-- Whether two enums of a package have the same class, and generation fails for a default that is
no element of its enum. -/
def failsForDefault (package : Package) (token other : String) : Bool :=
  match TypeMapper.make package {}, generate package {} with
  | .ok m, .error (.unknownEnumDefault _ _ _) =>
    (package.enum? token).isSome && (package.enum? other).isSome &&
      (m.enumClass token).toOption.isSome &&
      (m.enumClass token).toOption == (m.enumClass other).toOption
  | _, _ => false

/-- Two enums with the same class, where a default of the second one is looked up in the first one
before the enums are emitted. -/
theorem not_duplicateFile_of_default :
    let d : PackageDocument :=
      { name := "p"
        types := .ofList
          [("p:m:E", { elements := some [{ value := .string "a" }] }),
            ("p:m:e", { elements := some [{ value := .string "b" }] })]
        resources := .ofList [("p:m:R", {
          inputs := .ofList [("x", {
            type := { reference := some "#/types/p:m:e" }, default := some (.string "b") })] })] }
    d.validate = .ok () ∧ ∃ package m name failed, d.bind = .ok package ∧
      TypeMapper.make package {} = .ok m ∧
      (package.enum? "p:m:E").isSome ∧ (package.enum? "p:m:e").isSome ∧
      m.enumClass "p:m:E" = .ok name ∧ m.enumClass "p:m:e" = .ok name ∧
      generate package {} = .error failed ∧ ∀ path, failed ≠ .duplicateFile path := by
  intro d
  have hvalid : d.validate.toOption = some () := by decide +kernel
  have hfails : d.bind.toOption.map (failsForDefault · "p:m:E" "p:m:e") = some true := by
    decide +kernel
  obtain ⟨package, hpackage, hfails⟩ := Option.map_eq_some_iff.1 hfails
  unfold failsForDefault at hfails
  split at hfails
  · next m property token value hm hfailed =>
    simp only [Bool.and_eq_true, beq_iff_eq] at hfails
    obtain ⟨⟨⟨hfirst, hsecond⟩, hclass⟩, hsame⟩ := hfails
    obtain ⟨name, hname⟩ := Option.isSome_iff_exists.1 hclass
    refine ⟨toOption_eq_some.1 hvalid, package, m, name, _, toOption_eq_some.1 hpackage, hm, hfirst,
      hsecond, toOption_eq_some.1 hname, toOption_eq_some.1 (hsame.symm.trans hname), hfailed, ?_⟩
    intro path h
    cases h
  · cases hfails

end Java.Generation

end SchemaToJava
