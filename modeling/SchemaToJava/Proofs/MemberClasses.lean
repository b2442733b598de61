import SchemaToJava.Proofs.Dictionaries
import SchemaToJava.Proofs.Emitters

/-!
The classes of the members of a package. Resources, functions, enums, the configuration and the
helpers have classes whose names follow from the package; each has a file and each file is that of
one of them.
-/
namespace SchemaToJava.Java.Generation

open Package Outcome

variable {m : TypeMapper}

def configClass (m : TypeMapper) : Except GenerationError (List Emitted) :=
  if m.package.config.isEmpty then .ok [] else do return [← ConfigClass.emit m]

/-- The classes of the members of the package in the order in which they are generated. -/
def memberClasses (m : TypeMapper) : Except GenerationError (List Emitted) := do
  let resources ← (resources m.package).mapM (ResourceClass.emit m)
  let groups ← FunctionsClass.group m m.package.functions
  let functions ← groups.mapM fun entry => FunctionsClass.emit m entry.1 entry.2
  let enums ← (enums m.package).mapM (EnumClass.emit m)
  let config ← configClass m
  let utilities ← Utilities.emit m
  return resources.flatten ++ functions.flatten ++ enums ++ config ++ [utilities]

inductive IsMemberClass (m : TypeMapper) : QualifiedName → Prop
  | resource {r : Resource} {c : ResourceClass} {name : QualifiedName} :
      r ∈ resources m.package → ResourceClass.ofResource m r = .ok c → name ∈ c.classNames →
      IsMemberClass m name
  | functions {f : Package.Function} {name : QualifiedName} :
      f ∈ m.package.functions → FunctionsClass.className m f.token = .ok name →
      IsMemberClass m name
  | function {f : Package.Function} {s : FunctionSignature} {name : QualifiedName} :
      f ∈ m.package.functions → FunctionsClass.signature m f = .ok s → name ∈ s.classNames →
      IsMemberClass m name
  | enum {e : EnumType} {name : QualifiedName} :
      e ∈ enums m.package → m.enumClass e.token = .ok name → IsMemberClass m name
  | config : m.package.config.isEmpty = false → IsMemberClass m (m.root.append "Config")
  | utilities : IsMemberClass m (m.root.append utilitiesClass)

/-- A group holds the functions that are placed in its class, of which there are some, and every
function is placed in one. -/
theorem mem_group {functions : List Package.Function}
    {groups : List (QualifiedName × List Package.Function)}
    (h : FunctionsClass.group m functions = .ok groups) :
    (∀ name members, (name, members) ∈ groups → members ≠ []) ∧
      (∀ f ∈ functions, ∃ name, FunctionsClass.className m f.token = .ok name) ∧
      ∀ name f, (f ∈ functions ∧ FunctionsClass.className m f.token = .ok name) ↔
        ∃ members, (name, members) ∈ groups ∧ f ∈ members := by
  unfold FunctionsClass.group at h
  obtain ⟨placed, hplaced, h⟩ := bind_eq_ok.1 h
  obtain rfl := pure_eq_ok.1 h
  obtain ⟨hne, hmem⟩ := Dictionary.gathered_spec placed
  refine ⟨hne, fun f hf => ?_, fun name f => ?_⟩
  · obtain ⟨entry, -, hplace⟩ := exists_of_mem_of_mapM hplaced hf
    obtain ⟨name, hname, -⟩ := bind_eq_ok.1 hplace
    exact ⟨name, hname⟩
  rw [← hmem]
  constructor
  · rintro ⟨hf, hname⟩
    obtain ⟨entry, hentry, hplace⟩ := exists_of_mem_of_mapM hplaced hf
    obtain ⟨name', hname', hplace⟩ := bind_eq_ok.1 hplace
    obtain rfl := pure_eq_ok.1 hplace
    obtain rfl := Except.ok.inj (hname.symm.trans hname')
    exact hentry
  · intro hentry
    obtain ⟨f', hf', hplace⟩ := exists_of_mem_mapM hplaced hentry
    obtain ⟨name', hname', hplace⟩ := bind_eq_ok.1 hplace
    obtain ⟨rfl, rfl⟩ := Prod.mk.inj (pure_eq_ok.1 hplace)
    exact ⟨hf', hname'⟩

def configBodies (m : TypeMapper) : List ClassBody :=
  if m.package.config.isEmpty then [] else [ConfigClass.body m]

theorem configClass_eq (m : TypeMapper) :
    configClass m = (configBodies m).mapM (ClassBody.draft m.settings) := by
  unfold configClass configBodies
  cases m.package.config.isEmpty with
  | true => rfl
  | false =>
    simp only [Bool.false_eq_true, if_false, List.mapM_cons, List.mapM_nil, pure_bind]
    rfl

def memberBodies (m : TypeMapper) : Except GenerationError (List ClassBody) := do
  let resources ← (resources m.package).mapM fun r => do
    return (← ResourceClass.ofResource m r).bodies m
  let groups ← FunctionsClass.group m m.package.functions
  let functions ← groups.mapM fun entry => do
    return FunctionsClass.bodies m entry.1 (← entry.2.mapM (FunctionsClass.signature m))
  let enums ← (enums m.package).mapM fun e => do
    return EnumClass.body (← m.enumClass e.token) e
  return resources.flatten ++ functions.flatten ++ enums ++ configBodies m ++ [Utilities.body m]

/-- The classes of the members are drafted one by one. -/
theorem exists_memberBodies {es : List Emitted} (h : memberClasses m = .ok es) :
    ∃ bodies, memberBodies m = .ok bodies ∧
      bodies.mapM (ClassBody.draft m.settings) = .ok es := by
  unfold memberClasses at h
  obtain ⟨resources, hresources, h⟩ := bind_eq_ok.1 h
  obtain ⟨groups, hgroups, h⟩ := bind_eq_ok.1 h
  obtain ⟨functions, hfunctions, h⟩ := bind_eq_ok.1 h
  obtain ⟨enums, henums, h⟩ := bind_eq_ok.1 h
  obtain ⟨config, hconfig, h⟩ := bind_eq_ok.1 h
  obtain ⟨utilities, hutilities, h⟩ := bind_eq_ok.1 h
  obtain rfl := pure_eq_ok.1 h
  obtain ⟨ofResources, hofResources, hresources⟩ := exists_flatten_of_mapM
    (fun r es hes => by
      obtain ⟨c, hc, hdrafts⟩ := ResourceClass.emit_eq_ok.1 hes
      exact ⟨_, bind_eq_ok.2 ⟨c, hc, rfl⟩, hdrafts⟩) hresources
  obtain ⟨ofFunctions, hofFunctions, hfunctions⟩ := exists_flatten_of_mapM
    (fun entry es hes => by
      obtain ⟨signatures, hsignatures, hdrafts⟩ := FunctionsClass.exists_bodies_of_emit hes
      exact ⟨_, bind_eq_ok.2 ⟨signatures, hsignatures, rfl⟩, hdrafts⟩) hfunctions
  obtain ⟨ofEnums, hofEnums, henums⟩ : ∃ bodies,
      ((Generation.enums m.package).mapM fun e => do
        return EnumClass.body (← m.enumClass e.token) e) = .ok bodies ∧
        bodies.mapM (ClassBody.draft m.settings) = .ok enums := by
    refine mapM_bind_eq_ok.1 (mapM_eq_ok.2 ((mapM_eq_ok.1 henums).imp fun e file hfile => ?_))
    rw [bind_assoc]
    exact hfile
  rw [configClass_eq] at hconfig
  have hutilities : [Utilities.body m].mapM (ClassBody.draft m.settings) = .ok [utilities] :=
    mapM_eq_ok.2 (.cons hutilities .nil)
  refine ⟨_, bind_eq_ok.2 ⟨_, hofResources, bind_eq_ok.2 ⟨_, hgroups, bind_eq_ok.2
    ⟨_, hofFunctions, bind_eq_ok.2 ⟨_, hofEnums, rfl⟩⟩⟩⟩, ?_⟩
  exact mapM_append_eq_ok (mapM_append_eq_ok (mapM_append_eq_ok (mapM_append_eq_ok hresources
    hfunctions) henums) hconfig) hutilities

/-- What makes the text of a class of some member. -/
inductive IsMemberBody (m : TypeMapper) : ClassBody → Prop
  | resource {r : Resource} {c : ResourceClass} {b : ClassBody} :
      r ∈ resources m.package → ResourceClass.ofResource m r = .ok c → b ∈ c.bodies m →
      IsMemberBody m b
  | functions {groups : List (QualifiedName × List Package.Function)} {name : QualifiedName}
      {group : List Package.Function} {signatures : List FunctionSignature} {b : ClassBody} :
      FunctionsClass.group m m.package.functions = .ok groups → (name, group) ∈ groups →
      group.mapM (FunctionsClass.signature m) = .ok signatures →
      b ∈ FunctionsClass.bodies m name signatures → IsMemberBody m b
  | enum {e : EnumType} {name : QualifiedName} :
      e ∈ enums m.package → m.enumClass e.token = .ok name → IsMemberBody m (EnumClass.body name e)
  | config : m.package.config.isEmpty = false → IsMemberBody m (ConfigClass.body m)
  | utilities : IsMemberBody m (Utilities.body m)

theorem mem_configBodies {b : ClassBody} :
    b ∈ configBodies m ↔ m.package.config.isEmpty = false ∧ b = ConfigClass.body m := by
  unfold configBodies
  split
  · next hempty => simp [hempty]
  · next hempty => simp [Bool.eq_false_iff.2 hempty]

/-- A class stands among the bodies exactly if some member of the package has it. -/
theorem mem_memberBodies {bodies : List ClassBody} (h : memberBodies m = .ok bodies)
    {b : ClassBody} : b ∈ bodies ↔ IsMemberBody m b := by
  unfold memberBodies at h
  obtain ⟨resources, hresources, h⟩ := bind_eq_ok.1 h
  obtain ⟨groups, hgroups, h⟩ := bind_eq_ok.1 h
  obtain ⟨functions, hfunctions, h⟩ := bind_eq_ok.1 h
  obtain ⟨enums, henums, h⟩ := bind_eq_ok.1 h
  obtain rfl := pure_eq_ok.1 h
  simp only [List.mem_append, List.mem_flatten, mem_configBodies, List.mem_singleton]
  constructor
  · rintro ((((⟨bodies, hbodies, hb⟩ | ⟨bodies, hbodies, hb⟩) | hb) | ⟨hempty, rfl⟩) | rfl)
    · obtain ⟨r, hr, hbodies⟩ := exists_of_mem_mapM hresources hbodies
      obtain ⟨c, hc, hbodies⟩ := bind_eq_ok.1 hbodies
      exact .resource hr hc (pure_eq_ok.1 hbodies ▸ hb)
    · obtain ⟨⟨name, group⟩, hgroup, hbodies⟩ := exists_of_mem_mapM hfunctions hbodies
      obtain ⟨signatures, hsignatures, hbodies⟩ := bind_eq_ok.1 hbodies
      exact .functions hgroups hgroup hsignatures (pure_eq_ok.1 hbodies ▸ hb)
    · obtain ⟨e, he, hb⟩ := exists_of_mem_mapM henums hb
      obtain ⟨name, hname, hb⟩ := bind_eq_ok.1 hb
      obtain rfl := pure_eq_ok.1 hb
      exact .enum he hname
    · exact .config hempty
    · exact .utilities
  · intro hb
    cases hb with
    | @resource r c _ hr hc hb =>
      obtain ⟨bodies, hbodies, hemit⟩ := exists_of_mem_of_mapM hresources hr
      obtain ⟨c', hc', hemit⟩ := bind_eq_ok.1 hemit
      obtain rfl := Except.ok.inj (hc.symm.trans hc')
      exact .inl (.inl (.inl (.inl ⟨bodies, hbodies, pure_eq_ok.1 hemit ▸ hb⟩)))
    | @functions groups' name group signatures _ hgroups' hgroup hsignatures hb =>
      obtain rfl := Except.ok.inj (hgroups.symm.trans hgroups')
      obtain ⟨bodies, hbodies, hemit⟩ := exists_of_mem_of_mapM hfunctions hgroup
      obtain ⟨signatures', hsignatures', hemit⟩ := bind_eq_ok.1 hemit
      obtain rfl := Except.ok.inj (hsignatures.symm.trans hsignatures')
      exact .inl (.inl (.inl (.inr ⟨bodies, hbodies, pure_eq_ok.1 hemit ▸ hb⟩)))
    | @enum e name he hname =>
      obtain ⟨b, hb, hemit⟩ := exists_of_mem_of_mapM henums he
      obtain ⟨name', hname', hemit⟩ := bind_eq_ok.1 hemit
      obtain rfl := Except.ok.inj (hname.symm.trans hname')
      exact .inl (.inl (.inr (pure_eq_ok.1 hemit ▸ hb)))
    | config hempty => exact .inl (.inr ⟨hempty, rfl⟩)
    | utilities => exact .inr rfl

/-- The files are those of the classes with the given names: each file is finished for one of them,
and each of them has a file. -/
def Delivers (F : DraftFrame m) (names : QualifiedName → Prop) (es : List Emitted) : Prop :=
  (∀ e ∈ es, ∃ owner, names owner ∧ F.Finishes owner e) ∧
    ∀ owner, names owner → ∃ e ∈ es, F.Finishes owner e

theorem keeps_memberBody (F : DraftFrame m) {b : ClassBody} (h : IsMemberBody m b) :
    F.lenient.Keeps b.text := by
  cases h with
  | resource hr hc hb =>
    exact F.keeps_resourceBodies (ResourceClass.isQualified_ofResource hc) b hb
  | functions hgroups hgroup hsignatures hb => exact F.keeps_functionsBodies hsignatures b hb
  | enum he hname => exact F.keeps_enumBody _ _
  | config hempty => exact F.keeps_configBody
  | utilities => exact F.keeps_utilitiesBody

theorem exists_signatures {bodies : List ClassBody} (h : memberBodies m = .ok bodies) :
    ∃ groups, FunctionsClass.group m m.package.functions = .ok groups ∧
      ∀ entry ∈ groups,
        ∃ signatures, entry.2.mapM (FunctionsClass.signature m) = .ok signatures := by
  unfold memberBodies at h
  obtain ⟨resources, -, h⟩ := bind_eq_ok.1 h
  obtain ⟨groups, hgroups, h⟩ := bind_eq_ok.1 h
  obtain ⟨functions, hfunctions, -⟩ := bind_eq_ok.1 h
  refine ⟨groups, hgroups, fun entry hentry => ?_⟩
  obtain ⟨bodies, -, hbodies⟩ := exists_of_mem_of_mapM hfunctions hentry
  obtain ⟨signatures, hsignatures, -⟩ := bind_eq_ok.1 hbodies
  exact ⟨signatures, hsignatures⟩

/-- Every function is in one of the classes of functions. -/
theorem isMemberBody_of_signature {bodies : List ClassBody} (h : memberBodies m = .ok bodies)
    {f : Package.Function} {s : FunctionSignature} (hf : f ∈ m.package.functions)
    (hs : FunctionsClass.signature m f = .ok s) {b : ClassBody} (hb : b ∈ s.bodies m) :
    IsMemberBody m b := by
  obtain ⟨groups, hgroups, hsignatures⟩ := exists_signatures h
  obtain ⟨-, hplaced, hgroup⟩ := mem_group hgroups
  obtain ⟨shared, hclass⟩ := hplaced f hf
  obtain ⟨group, hentry, hmem⟩ := (hgroup shared f).1 ⟨hf, hclass⟩
  obtain ⟨signatures, hsignatures⟩ := hsignatures _ hentry
  obtain ⟨s', hmem, hs'⟩ := exists_of_mem_of_mapM hsignatures hmem
  obtain rfl := Except.ok.inj (hs.symm.trans hs')
  exact .functions hgroups hentry hsignatures
    (List.mem_cons_of_mem _ (List.mem_flatMap.2 ⟨s, hmem, hb⟩))

/-- The classes of the members have the names that follow from the package. -/
theorem isMemberClass_iff {bodies : List ClassBody} (h : memberBodies m = .ok bodies)
    {name : QualifiedName} : IsMemberClass m name ↔ name ∈ bodies.map ClassBody.name := by
  obtain ⟨groups, hgroups, hsignatures⟩ := exists_signatures h
  obtain ⟨hne, -, hgroup⟩ := mem_group hgroups
  simp only [List.mem_map, mem_memberBodies h]
  constructor
  · intro h
    cases h with
    | @resource r c _ hr hc hname =>
      rw [← ResourceClass.map_name_bodies hc] at hname
      obtain ⟨b, hb, rfl⟩ := List.mem_map.1 hname
      exact ⟨b, .resource hr hc hb, rfl⟩
    | @functions f _ hf hclass =>
      obtain ⟨group, hentry, -⟩ := (hgroup name f).1 ⟨hf, hclass⟩
      obtain ⟨signatures, hsignatures⟩ := hsignatures _ hentry
      exact ⟨_, .functions hgroups hentry hsignatures List.mem_cons_self, rfl⟩
    | @function f s _ hf hs hname =>
      rw [← s.map_name_bodies m] at hname
      obtain ⟨b, hb, rfl⟩ := List.mem_map.1 hname
      exact ⟨b, isMemberBody_of_signature h hf hs hb, rfl⟩
    | enum he hname => exact ⟨_, .enum he hname, rfl⟩
    | config hempty => exact ⟨_, .config hempty, rfl⟩
    | utilities => exact ⟨_, .utilities, rfl⟩
  · rintro ⟨b, hb, rfl⟩
    cases hb with
    | resource hr hc hb =>
      refine .resource hr hc ?_
      rw [← ResourceClass.map_name_bodies hc]
      exact List.mem_map_of_mem hb
    | functions hgroups' hentry hsignatures hb =>
      obtain rfl := Except.ok.inj (hgroups.symm.trans hgroups')
      rcases List.mem_cons.1 hb with rfl | hb
      · obtain ⟨f, hf⟩ := List.exists_mem_of_ne_nil _ (hne _ _ hentry)
        obtain ⟨hmem, hclass⟩ := (hgroup _ f).2 ⟨_, hentry, hf⟩
        exact .functions hmem hclass
      · obtain ⟨s, hs, hb⟩ := List.mem_flatMap.1 hb
        obtain ⟨f, hf, hsignature⟩ := exists_of_mem_mapM hsignatures hs
        refine .function ((hgroup _ f).2 ⟨_, hentry, hf⟩).1 hsignature ?_
        rw [← s.map_name_bodies m]
        exact List.mem_map_of_mem hb
    | enum he hname => exact .enum he hname
    | config hempty => exact .config hempty
    | utilities => exact .utilities

/-- Each file of the members is finished for one of their classes, and each class has a file. -/
theorem delivers_memberClasses (F : DraftFrame m) {es : List Emitted}
    (h : memberClasses m = .ok es) : Delivers F (IsMemberClass m) es := by
  obtain ⟨bodies, hbodies, hdrafts⟩ := exists_memberBodies h
  have hfinishes := F.finishes_drafts
    (fun b hb => keeps_memberBody F ((mem_memberBodies hbodies).1 hb)) hdrafts
  constructor
  · intro e he
    obtain ⟨name, hname, hfile⟩ := exists_left_of_mem hfinishes he
    exact ⟨name, (isMemberClass_iff hbodies).2 hname, hfile⟩
  · exact fun name hname => exists_right_of_mem hfinishes ((isMemberClass_iff hbodies).1 hname)

/-- The enums of the package have classes. -/
theorem mem_enums {p : Package} {e : EnumType} : e ∈ enums p ↔ .enum e ∈ p.types.values := by
  unfold enums
  rw [List.mem_filterMap]
  constructor
  · rintro ⟨definition, hmem, hdefinition⟩
    split at hdefinition
    · cases hdefinition
      exact hmem
    · cases hdefinition
  · intro hmem
    exact ⟨_, hmem, rfl⟩

theorem mem_enums_of_get? {p : Package} {token : String} {e : EnumType}
    (h : p.types.get? token = some (.enum e)) : e ∈ enums p :=
  mem_enums.2 (List.mem_map_of_mem (Dictionary.get?_eq_some_iff.1 h))

theorem exists_enumClass {es : List Emitted} (h : memberClasses m = .ok es) {e : EnumType}
    (he : e ∈ enums m.package) : ∃ name, m.enumClass e.token = .ok name := by
  unfold memberClasses at h
  obtain ⟨_, -, h⟩ := bind_eq_ok.1 h
  obtain ⟨_, -, h⟩ := bind_eq_ok.1 h
  obtain ⟨_, -, h⟩ := bind_eq_ok.1 h
  obtain ⟨enums, henums, -⟩ := bind_eq_ok.1 h
  obtain ⟨emitted, -, hemit⟩ := exists_of_mem_of_mapM henums he
  obtain ⟨name, hname, -⟩ := bind_eq_ok.1 hemit
  exact ⟨name, hname⟩

/-- The resources of the package have classes. -/
theorem exists_ofResource {es : List Emitted} (h : memberClasses m = .ok es) {r : Resource}
    (hr : r ∈ resources m.package) : ∃ c, ResourceClass.ofResource m r = .ok c := by
  unfold memberClasses at h
  obtain ⟨resources, hresources, -⟩ := bind_eq_ok.1 h
  obtain ⟨emitted, -, hemit⟩ := exists_of_mem_of_mapM hresources hr
  obtain ⟨c, hc, -⟩ := bind_eq_ok.1 hemit
  exact ⟨c, hc⟩

end SchemaToJava.Java.Generation
