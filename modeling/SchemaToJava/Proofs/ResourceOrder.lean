import SchemaToJava.Proofs.AgreeingMappers
import SchemaToJava.Proofs.WholePackages

/-!
The list of resources in a package. No class but that of a resource itself depends on which
resources a package has, so an order of the resources is an order of their files and nothing more.
-/
namespace SchemaToJava.Java

open Package Outcome

def TypeMapper.withResources (m : TypeMapper) (resources : List Resource) : TypeMapper :=
  { m with package := { m.package with resources } }

variable (m : TypeMapper) (resources : List Resource)

theorem TypeMapper.agrees_withResources : m.Agrees (m.withResources resources) :=
  ⟨rfl, rfl, rfl, rfl, rfl, fun _ => rfl, fun _ => rfl, fun _ => rfl⟩

theorem TypeMapper.serves_withResources {r : ClassRequest} :
    (m.withResources resources).Serves r ↔ m.Serves r :=
  ⟨fun h => ⟨h.class_eq, h.isObject⟩, fun h => ⟨h.class_eq, h.isObject⟩⟩

namespace Generation

theorem objectClass_withResources :
    objectClass (m.withResources resources) = objectClass m := by
  have hagrees := m.agrees_withResources resources
  funext r
  unfold objectClass
  simp only [InputClass.emit_congr hagrees, OutputClass.emit_congr hagrees]
  rfl

variable {m resources}

/-- The classes of the members in another order of the resources are the same classes. -/
theorem memberClasses_withResources {es : List Emitted} (h : memberClasses m = .ok es)
    (hperm : resources.Perm m.package.resources) :
    ∃ es', memberClasses (m.withResources resources) = .ok es' ∧ es'.Perm es := by
  have hagrees := m.agrees_withResources resources
  unfold memberClasses at h
  obtain ⟨own, hown, h⟩ := bind_eq_ok.1 h
  obtain ⟨groups, hgroups, h⟩ := bind_eq_ok.1 h
  obtain ⟨functions, hfunctions, h⟩ := bind_eq_ok.1 h
  obtain ⟨enums, henums, h⟩ := bind_eq_ok.1 h
  obtain ⟨config, hconfig, h⟩ := bind_eq_ok.1 h
  obtain ⟨utilities, hutilities, h⟩ := bind_eq_ok.1 h
  obtain rfl := pure_eq_ok.1 h
  have hall : (Generation.resources (m.withResources resources).package).Perm
      (Generation.resources m.package) := hperm.append_left _
  obtain ⟨own', hown', hflat⟩ := mapM_perm hall hown
  have hconfig' : configClass (m.withResources resources) = configClass m := by
    unfold configClass
    rw [ConfigClass.emit_congr hagrees rfl]
    rfl
  refine ⟨own'.flatten ++ functions.flatten ++ enums ++ config ++ [utilities], ?_, ?_⟩
  · unfold memberClasses
    rw [ResourceClass.emit_congr hagrees, FunctionsClass.group_congr hagrees,
      FunctionsClass.emit_congr hagrees, EnumClass.emit_congr hagrees, hconfig',
      Utilities.emit_congr hagrees]
    exact bind_eq_ok.2 ⟨own', hown', bind_eq_ok.2 ⟨groups, hgroups, bind_eq_ok.2 ⟨functions,
      hfunctions, bind_eq_ok.2 ⟨enums, henums, bind_eq_ok.2 ⟨config, hconfig, bind_eq_ok.2
        ⟨utilities, hutilities, rfl⟩⟩⟩⟩⟩⟩
  · have hfiles : own'.flatten.Perm own.flatten := hflat.flatten
    exact (((hfiles.append_right _).append_right _).append_right _).append_right _

/-- What is needed depends neither on the list of resources nor on the order of the members. -/
theorem Reached.withResources {es es' : List Emitted} {key : ObjectKey × Direction}
    (h : Reached m es key) (hsub : es ⊆ es') : Reached (m.withResources resources) es' key := by
  induction h with
  | ofMember he hr => exact .ofMember (hsub he) hr
  | ofClass _ hclass hrendered hs ih =>
    refine .ofClass ih hclass ?_ hs
    rwa [objectClass_withResources]

/-- The order of the resources does not matter to the classes that are needed. -/
theorem Closure.withResources {es es' : List Emitted} {classes : List Rendered}
    (h : Closure m es classes) (hperm : es'.Perm es) :
    Closure (m.withResources resources) es' classes := by
  refine ⟨fun key => ?_, h.nodup, fun c hc => ?_, fun c hc => ?_⟩
  · rw [← h.reached_iff key]
    constructor
    · intro hreached
      have hback : Reached ((m.withResources resources).withResources m.package.resources) es key :=
        hreached.withResources hperm.subset
      exact hback
    · exact fun hreached => hreached.withResources hperm.symm.subset
  · exact (m.serves_withResources resources).2 (h.serves c hc)
  · rw [objectClass_withResources]
    exact h.rendered c hc

end Generation

/-- The order of the resources in a package makes no difference to its files. -/
theorem generate_of_perm {package : Package} {settings : Settings} {files : FileSet}
    {resources : List Resource} (h : generate package settings = .ok files)
    (hperm : resources.Perm package.resources) :
    generate { package with resources } settings = .ok files := by
  obtain ⟨m, members, classes, hm, hmembers, hclasses, hfiles⟩ := Generation.generate_eq_ok.1 h
  obtain ⟨options, hoptions, hmake⟩ := bind_eq_ok.1 hm
  obtain rfl := pure_eq_ok.1 hmake
  obtain ⟨members', hmembers', hmembersPerm⟩ :=
    Generation.memberClasses_withResources hmembers hperm
  refine Generation.generate_eq_ok.2 ⟨_, members', classes, ?_, hmembers',
    hclasses.withResources hmembersPerm, hfiles.perm ?_⟩
  · exact bind_eq_ok.2 ⟨options, hoptions, rfl⟩
  · unfold Generation.allFiles
    rw [Utilities.bundled_congr (m := TypeMapper.mk package options settings)
      (TypeMapper.agrees_withResources _ resources)]
    exact ((hmembersPerm.symm.map _).append_right _).append_right _

end SchemaToJava.Java
