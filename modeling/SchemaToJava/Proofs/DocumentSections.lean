import SchemaToJava.Proofs.FaithfulMerging
import SchemaToJava.Proofs.Rewordings

/-!
Sections of documents: properties together with the names of those that are required. Validation
goes through the sections of the named types, the resources, the functions and the configuration;
binding also goes through those of the provider. The types of the properties have no part in
validation, and neither has the provider.
-/
namespace SchemaToJava.Schema

open Outcome Package

/-- Properties as they stand in a document, and the names of those that are required. -/
structure Section where
  owner : String
  properties : Properties
  required : List String

def Section.IsComplete (s : Section) : Prop := ∀ name ∈ s.required, name ∈ s.properties.keys

def ObjectEntry.toSection (owner : String) (o : ObjectEntry) : Section :=
  ⟨owner, o.properties, o.required⟩

def ResourceEntry.inputSection (owner : String) (r : ResourceEntry) : Section :=
  ⟨owner, r.inputs, r.requiredInputs⟩

def ConfigSection.toSection (c : ConfigSection) : Section := ⟨"config", c.properties, c.required⟩

def ResourceEntry.sections (owner : String) (r : ResourceEntry) : List Section :=
  [r.object.toSection owner, r.inputSection owner]

def FunctionEntry.sections (owner : String) (f : FunctionEntry) : List Section :=
  (f.inputs.toList ++ f.outputs.toList).map (ObjectEntry.toSection owner)

def TypeEntry.isObject (t : TypeEntry) : Bool :=
  t.elements.isNone && t.object.typeName.all (· == "object")

namespace PackageDocument

def typeSections (d : PackageDocument) (keep : TypeEntry → Bool) : List Section :=
  (d.types.entries.filter fun entry => keep entry.2).map fun (token, t) => t.object.toSection token

def memberSections (d : PackageDocument) : List Section :=
  d.resources.entries.flatMap (fun (token, r) =>
      r.sections token ++ r.state.toList.map (ObjectEntry.toSection token)) ++
    d.functions.entries.flatMap (fun (token, f) => f.sections token) ++
    [d.config.toSection]

/-- The sections of the provider, whose state is not looked at. -/
def providerSections (d : PackageDocument) : List Section :=
  d.provider.toList.flatMap (ResourceEntry.sections (Token.ofProvider d.name))

/-- The sections whose required names validation goes through. -/
def checkedSections (d : PackageDocument) : List Section :=
  d.typeSections (fun t => t.elements.isNone) ++ d.memberSections

def boundSections (d : PackageDocument) : List Section :=
  d.typeSections TypeEntry.isObject ++ d.memberSections ++ d.providerSections

/-- Only the provider is bound and not checked. -/
theorem mem_boundSections {d : PackageDocument} {s : Section} (h : s ∈ d.boundSections) :
    s ∈ d.checkedSections ∨ s ∈ d.providerSections := by
  simp only [boundSections, checkedSections, List.mem_append] at h ⊢
  rcases h with (htype | hmember) | hprovider
  · obtain ⟨entry, hentry, rfl⟩ := List.mem_map.1 htype
    obtain ⟨hmem, hobject⟩ := List.mem_filter.1 hentry
    have hchecked : entry.2.elements.isNone = true := (Bool.and_eq_true _ _ ▸ hobject).1
    exact .inl (.inl (List.mem_map.2 ⟨entry, List.mem_filter.2 ⟨hmem, hchecked⟩, rfl⟩))
  · exact .inl (.inr hmember)
  · exact .inr hprovider

end PackageDocument

section Checked

theorem isComplete_of_checkRequired {s : Section}
    (h : checkRequired s.owner s.properties s.required = .ok ()) : s.IsComplete :=
  checkRequired_eq_ok.1 h

/-- A resource that passes validation declares what it requires, in each of its sections. -/
theorem isComplete_of_checkResource {token : String} {r : ResourceEntry}
    (h : checkResource token r = .ok ()) :
    ∀ s ∈ r.sections token ++ r.state.toList.map (ObjectEntry.toSection token), s.IsComplete := by
  unfold checkResource at h
  obtain ⟨_, -, h⟩ := bind_eq_ok.1 h
  obtain ⟨_, hobject, h⟩ := bind_eq_ok.1 h
  obtain ⟨_, hinputs, hstate⟩ := bind_eq_ok.1 h
  intro s hs
  rcases List.mem_append.1 hs with hs | hs
  · simp only [ResourceEntry.sections, List.mem_cons, List.not_mem_nil, or_false] at hs
    rcases hs with rfl | rfl
    · exact isComplete_of_checkRequired hobject
    · exact isComplete_of_checkRequired hinputs
  · obtain ⟨state, hmem, rfl⟩ := List.mem_map.1 hs
    rw [Option.mem_toList.1 hmem] at hstate
    exact isComplete_of_checkRequired hstate

theorem isComplete_of_checkFunction {token : String} {f : FunctionEntry}
    (h : checkFunction token f = .ok ()) : ∀ s ∈ f.sections token, s.IsComplete := by
  unfold checkFunction at h
  obtain ⟨_, -, h⟩ := bind_eq_ok.1 h
  intro s hs
  obtain ⟨o, ho, rfl⟩ := List.mem_map.1 hs
  exact isComplete_of_checkRequired (forM_eq_ok.1 h o ho)

/-- In a valid document the sections that validation goes through are complete. -/
theorem isComplete_of_validate {d : PackageDocument} (h : d.validate = .ok ()) :
    ∀ s ∈ d.checkedSections, s.IsComplete := by
  unfold PackageDocument.validate at h
  split at h
  · cases h
  obtain ⟨_, htypes, h⟩ := bind_eq_ok.1 h
  obtain ⟨_, hresources, h⟩ := bind_eq_ok.1 h
  obtain ⟨_, hfunctions, hconfig⟩ := bind_eq_ok.1 h
  intro s hs
  simp only [PackageDocument.checkedSections, PackageDocument.memberSections, List.mem_append,
    List.mem_flatMap, List.mem_singleton] at hs
  rcases hs with htype | (⟨entry, hentry, hs⟩ | ⟨entry, hentry, hs⟩) | rfl
  · obtain ⟨⟨token, t⟩, hentry, rfl⟩ := List.mem_map.1 htype
    obtain ⟨hmem, hnone⟩ := List.mem_filter.1 hentry
    obtain ⟨_, -, hcheck⟩ := bind_eq_ok.1 (forM_eq_ok.1 htypes (token, t) hmem)
    rw [Option.isNone_iff_eq_none.1 hnone] at hcheck
    exact isComplete_of_checkRequired hcheck
  · exact isComplete_of_checkResource (forM_eq_ok.1 hresources entry hentry) s
      (List.mem_append.2 hs)
  · exact isComplete_of_checkFunction (forM_eq_ok.1 hfunctions entry hentry) s hs
  · exact isComplete_of_checkRequired hconfig

end Checked

section Unread

variable (f : String → String)

theorem checkObject_mapReferences (owner : String) (o : ObjectEntry) :
    checkObject owner (o.mapReferences f) = checkObject owner o :=
  checkRequired_mapValues owner o.properties _ o.required

theorem checkTypeEntry_mapReferences (token : String) (t : TypeEntry) :
    checkTypeEntry token (t.mapReferences f) = checkTypeEntry token t := by
  unfold checkTypeEntry TypeEntry.mapReferences
  cases t.elements with
  | none => exact congrArg _ (funext fun _ => checkObject_mapReferences f token t.object)
  | some elements => rfl

theorem checkResource_mapReferences (token : String) (r : ResourceEntry) :
    checkResource token (r.mapReferences f) = checkResource token r := by
  have hinputs : checkRequired token (Properties.mapReferences f r.inputs) r.requiredInputs =
      checkRequired token r.inputs r.requiredInputs := checkRequired_mapValues token r.inputs _ _
  unfold checkResource ResourceEntry.mapReferences
  simp only [checkObject_mapReferences, hinputs]
  cases r.state with
  | none => rfl
  | some state => simp only [Option.map_some, checkObject_mapReferences]

theorem checkFunction_mapReferences (token : String) (fn : FunctionEntry) :
    checkFunction token (fn.mapReferences f) = checkFunction token fn := by
  have hlist : (fn.mapReferences f).inputs.toList ++ (fn.mapReferences f).outputs.toList =
      (fn.inputs.toList ++ fn.outputs.toList).map (ObjectEntry.mapReferences f) := by
    unfold FunctionEntry.mapReferences
    rw [List.map_append, Option.toList_map, Option.toList_map]
  unfold checkFunction
  rw [hlist, forM_map]
  simp only [checkObject_mapReferences]

/-- Where the references lead has no part in validation. -/
theorem PackageDocument.validate_mapReferences (d : PackageDocument) :
    (d.mapReferences f).validate = d.validate := by
  have hconfig : checkRequired "config" (Properties.mapReferences f d.config.properties)
      d.config.required = checkRequired "config" d.config.properties d.config.required :=
    checkRequired_mapValues "config" d.config.properties _ _
  unfold validate mapReferences Dictionary.mapValues
  simp only [forM_map, checkTypeEntry_mapReferences, checkResource_mapReferences,
    checkFunction_mapReferences, hconfig]

/-- The provider has no part in validation. -/
theorem PackageDocument.validate_of_provider (d : PackageDocument)
    (provider : Option ResourceEntry) :
    ({ d with provider } : PackageDocument).validate = d.validate := rfl

end Unread

end SchemaToJava.Schema
