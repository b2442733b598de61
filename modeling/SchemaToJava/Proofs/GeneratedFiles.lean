import SchemaToJava.Proofs.ResourceOrder

/-!
What the generated files of a package are: one for each class of its members, the bundled ones, and
one for each object type and direction that is needed. Neither the order of the resources nor the
order in which pending classes are taken matters.
-/
namespace SchemaToJava.Java.Generation

open Package

/-- The files are those of the members of the package and of the object classes that are needed. -/
structure Produces (package : Package) (settings : Settings) (files : FileSet) (m : TypeMapper)
    (members : List Emitted) (classes : List Rendered) : Prop where
  mapper : TypeMapper.make package settings = .ok m
  emitted : memberClasses m = .ok members
  /-- The classes are those of the least set of pairs that are needed. -/
  closure : Closure m members classes
  /-- Each is the class that the mapper assigns to its pair, at the path of that class. -/
  assigned : ∀ c ∈ classes, m.objectClass c.1.source c.1.direction = .ok c.1 ∧
    c.2.file.path = classPath c.1.name
  distinct : ((allFiles m members classes).map SourceFile.path).Nodup
  holds : files.Holds (allFiles m members classes)
  /-- The resources may stand in any order. -/
  anyResources : ∀ resources : List Resource, resources.Perm package.resources →
    generate { package with resources } settings = .ok files
  /-- Pending classes may be taken in any order: no run is stuck or goes on for ever, and one that
  has no class left to take has the same files. -/
  anyOrder : ∃ start : Progress, Generation.members m {} = .ok start ∧
    ∀ (taken : List Rendered) (p : Progress), Run m start taken p →
      taken.Subperm classes ∧ (p.queue.isEmpty = true → p.files = files) ∧
      ∀ (r : ClassRequest) (queue : ClassQueue), p.queue.Takes r queue →
        ∃ e, objectClass m r = .ok e ∧ ∃ p', ({ p with queue } : Progress).accept e = .ok p'

/-- The generated files of a package are exactly those of its members and of the object classes that
are needed, whatever the order of its resources and of the pending classes. -/
theorem produces_of_generate {package : Package} {settings : Settings} {files : FileSet}
    (h : generate package settings = .ok files) :
    ∃ m members classes, Produces package settings files m members classes := by
  obtain ⟨m, members, classes, hm, hmembers, hclasses, hfiles⟩ := generate_eq_ok.1 h
  refine ⟨m, members, classes, hm, hmembers, hclasses, fun c hc => ?_, hfiles.nodup, hfiles,
    fun resources hperm => generate_of_perm h hperm, ?_⟩
  · have hfinishes := (requestFrame m).finishes_object (hclasses.rendered c hc)
    exact ⟨(hclasses.serves c hc).class_eq, hfinishes.path_eq⟩
  obtain ⟨start, hstart⟩ := exists_members hmembers hfiles
  refine ⟨start, hstart, fun taken p hrun => ?_⟩
  have htracks := (tracks_members hmembers hstart).run hrun
  refine ⟨htracks.subperm hclasses, fun hempty => ?_, fun r queue htakes => ?_⟩
  · have hperm := (htracks.closure hempty).perm hclasses
    have hheld : p.files.Holds (allFiles m members classes) :=
      htracks.files.perm ((hperm.map _).append_left _)
    exact hheld.eq hfiles
  · exact htracks.exists_accept hclasses hfiles.nodup htakes

/-- Two object types that refer to each other, reached from a resource, once to write with inputs
and once to read. -/
theorem produces_of_generate_of_cycle :
    let types : Dictionary String TypeDefinition := .ofList
      [("p:m:A", .object ⟨"p:m:A", none, [.make "b" (.object ⟨"p:m:B", false⟩) true]⟩),
        ("p:m:B", .object ⟨"p:m:B", none, [.make "a" (.object ⟨"p:m:A", false⟩) false]⟩)]
    let properties : List Property := [.make "a" (.object ⟨"p:m:A", false⟩) true]
    let package : Package :=
      { name := "p", types, resources := [{
          token := "p:m:R", description := none, properties, inputs := properties, state := none
          aliases := [], deprecation := none, isComponent := false, isProvider := false }] }
    ∃ files, generate package {} = .ok files ∧
      files.keys = ["src/main/java/com/pulumi/p/Utilities.java",
        "src/main/java/com/pulumi/p/m/R.java", "src/main/java/com/pulumi/p/m/RArgs.java",
        "src/main/java/com/pulumi/p/m/inputs/AArgs.java",
        "src/main/java/com/pulumi/p/m/inputs/BArgs.java",
        "src/main/java/com/pulumi/p/m/outputs/A.java",
        "src/main/java/com/pulumi/p/m/outputs/B.java",
        "src/main/resources/com/pulumi/p/plugin.json",
        "src/main/resources/com/pulumi/p/version.txt"] ∧
      ∃ m members classes, Produces package {} files m members classes := by
  intro types properties package
  have hkeys : (generate package {}).toOption.map Dictionary.keys = some
      ["src/main/java/com/pulumi/p/Utilities.java", "src/main/java/com/pulumi/p/m/R.java",
        "src/main/java/com/pulumi/p/m/RArgs.java", "src/main/java/com/pulumi/p/m/inputs/AArgs.java",
        "src/main/java/com/pulumi/p/m/inputs/BArgs.java",
        "src/main/java/com/pulumi/p/m/outputs/A.java",
        "src/main/java/com/pulumi/p/m/outputs/B.java",
        "src/main/resources/com/pulumi/p/plugin.json",
        "src/main/resources/com/pulumi/p/version.txt"] := by
    decide +kernel
  obtain ⟨files, hfiles, hkeys⟩ := Option.map_eq_some_iff.1 hkeys
  have h : generate package {} = .ok files := Outcome.toOption_eq_some.1 hfiles
  exact ⟨files, h, hkeys, produces_of_generate h⟩

end SchemaToJava.Java.Generation
