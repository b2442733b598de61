import SchemaToJava.Proofs.OutputClasses

/-!
The properties of a generated class have distinct names. They are keys where the properties are
written, and stay the names of these when the document is bound and when they become inputs.
-/
namespace SchemaToJava.Package

open Schema Outcome

def HaveDistinctNames (ps : List Property) : Prop := (ps.map Property.name).Nodup

theorem HaveDistinctNames.asInput {ps : List Property} (h : HaveDistinctNames ps) :
    HaveDistinctNames (ps.map Property.asInput) := by
  have hnames : (ps.map Property.asInput).map Property.name = ps.map Property.name := by
    rw [List.map_map]
    rfl
  rwa [HaveDistinctNames, hnames]

variable {d : PackageDocument}

/-- Bound properties have distinct names, for the names are keys of one dictionary. -/
theorem haveDistinctNames_of_bindProperties {owner : String} {properties : Properties}
    {required : List String} {ps : List Property}
    (h : bindProperties d owner properties required = .ok ps) : HaveDistinctNames ps := by
  obtain ⟨_, -, h⟩ := bind_eq_ok.1 h
  have hnames : properties.keys = ps.map Property.name := by
    refine map_eq_map_of_forall₂ ((mapM_eq_ok.1 h).imp ?_)
    rintro ⟨name, entry⟩ p hp
    obtain ⟨t, -, hp⟩ := bind_eq_ok.1 hp
    obtain rfl := pure_eq_ok.1 hp
    rfl
  unfold HaveDistinctNames
  rw [← hnames]
  exact properties.nodup_keys

theorem haveDistinctNames_of_bindOptional {owner : String} {object : Option ObjectEntry}
    {bound : Option (List Property)} (h : bindOptional (bindObject d owner) object = .ok bound)
    {ps : List Property} (hps : bound = some ps) : HaveDistinctNames ps := by
  rcases bindOptional_eq_ok h with ⟨-, rfl⟩ | ⟨o, found, -, rfl, hbind⟩
  · cases hps
  · obtain rfl := Option.some.inj hps
    exact haveDistinctNames_of_bindProperties hbind

end SchemaToJava.Package

namespace SchemaToJava

open Package Schema Outcome

namespace IsBound

variable {d : PackageDocument} {package : Package} (h : IsBound d package)
include h

/-- The inputs of a resource have distinct names, and so has its state. -/
theorem haveDistinctNames_resource {r : Resource} (hr : r ∈ Java.Generation.resources package) :
    HaveDistinctNames r.inputs ∧ ∀ ps, r.state = some ps → HaveDistinctNames ps := by
  rcases List.mem_append.1 hr with hr | hr
  · rcases bindOptional_eq_ok h.provider with ⟨-, hnone⟩ | ⟨entry, bound, -, hbound, hbind⟩
    · rw [hnone] at hr
      cases hr
    · rw [hbound] at hr
      obtain rfl := List.mem_singleton.1 hr
      obtain ⟨properties, -, hbind⟩ := bind_eq_ok.1 hbind
      obtain ⟨inputs, hinputs, hbind⟩ := bind_eq_ok.1 hbind
      obtain rfl := pure_eq_ok.1 hbind
      exact ⟨haveDistinctNames_of_bindProperties hinputs, fun ps hps => by cases hps⟩
  · obtain ⟨entry, -, hbind⟩ := exists_left_of_mem h.resources hr
    obtain ⟨_, -, hbind⟩ := bind_eq_ok.1 hbind
    obtain ⟨properties, -, hbind⟩ := bind_eq_ok.1 hbind
    obtain ⟨inputs, hinputs, hbind⟩ := bind_eq_ok.1 hbind
    obtain ⟨state, hstate, hbind⟩ := bind_eq_ok.1 hbind
    obtain rfl := pure_eq_ok.1 hbind
    exact ⟨haveDistinctNames_of_bindProperties hinputs, fun ps hps =>
      haveDistinctNames_of_bindOptional hstate hps⟩

theorem haveDistinctNames_function {f : Package.Function} (hf : f ∈ package.functions) :
    (∀ ps, f.inputs = some ps → HaveDistinctNames ps) ∧
      ∀ ps, f.outputs = some ps → HaveDistinctNames ps := by
  obtain ⟨entry, -, hbind⟩ := exists_left_of_mem h.functions hf
  obtain ⟨_, -, hbind⟩ := bind_eq_ok.1 hbind
  obtain ⟨inputs, hinputs, hbind⟩ := bind_eq_ok.1 hbind
  obtain ⟨outputs, houtputs, hbind⟩ := bind_eq_ok.1 hbind
  obtain rfl := pure_eq_ok.1 hbind
  exact ⟨fun ps hps => haveDistinctNames_of_bindOptional hinputs hps,
    fun ps hps => haveDistinctNames_of_bindOptional houtputs hps⟩

theorem haveDistinctNames_object {token : String} {o : ObjectType}
    (ho : package.object? token = some o) : HaveDistinctNames o.properties := by
  have hmem : (token, .object o) ∈ package.types.entries := by
    unfold object? at ho
    split at ho
    · next found hfound =>
      cases ho
      exact Dictionary.get?_eq_some_iff.1 hfound
    · cases ho
  obtain ⟨entry, -, -, hbind⟩ := exists_left_of_mem h.types hmem
  cases boundEntry_of_bindTypeEntry hbind with
  | object _ _ hproperties => exact haveDistinctNames_of_bindProperties hproperties

end IsBound

namespace Java

variable {d : PackageDocument} {m : TypeMapper} {requested : ClassRequest → Prop}

theorem IsInputClass.haveDistinctNames (h : IsBound d m.package) {c : InputClass}
    (hc : IsInputClass m requested c) : HaveDistinctNames c.properties := by
  cases hc with
  | arguments hr _ => exact (h.haveDistinctNames_resource hr).1.asInput
  | state hr _ _ hstate => exact ((h.haveDistinctNames_resource hr).2 _ hstate).asInput
  | functionArguments hf _ hinputs => exact ((h.haveDistinctNames_function hf).1 _ hinputs).asInput
  | plainArguments hf _ hinputs => exact ((h.haveDistinctNames_function hf).1 _ hinputs).asInput
  | @object r o _ _ ho =>
    have hnames := h.haveDistinctNames_object ho
    unfold ClassRequest.inputClass ObjectType.propertiesFor
    dsimp only
    split
    · exact hnames.asInput
    · exact hnames

theorem IsOutputClass.haveDistinctNames (h : IsBound d m.package) {c : OutputClass}
    (hc : IsOutputClass m requested c) : HaveDistinctNames c.properties := by
  cases hc with
  | result hf _ houtputs => exact (h.haveDistinctNames_function hf).2 _ houtputs
  | object _ _ ho => exact h.haveDistinctNames_object ho

end Java

end SchemaToJava
