import SchemaToJava.Proofs.BindingSteps
import SchemaToJava.Schema.Load

/-!
Names that validation does not check. It neither goes through the required names of the provider nor
follows any reference, so that a valid document can fail to be bound over a required property that
the provider does not declare, and over a reference to a member that the document does not declare.
No other name is ever missing from a valid document.
-/
namespace SchemaToJava.Package

open Schema Outcome

variable {d : PackageDocument}

def resourcesReference : String := "#/resources/"

/-- Following a reference to a resource of the document. -/
theorem bindReference_resources (d : PackageDocument) (escaped context : String) :
    bindReference d (resourcesReference ++ escaped) context =
      (requireToken (unescapeToken escaped) >>= fun _ =>
        if d.resources.contains (unescapeToken escaped) then
          .ok (.resource (unescapeToken escaped))
        else .error (.typeNotFound (unescapeToken escaped) context)) := by
  have hbuiltin : Text.afterLead "pulumi.json#/" (resourcesReference ++ escaped) = none := by
    simp [Text.afterLead, Text.dropLead, resourcesReference]
  have hprovider : resourcesReference ++ escaped ≠ "#/provider" := by
    intro h
    simpa [resourcesReference] using congrArg String.toList h
  have hsplit : splitFragment (resourcesReference ++ escaped) =
      some ("", "/resources/" ++ escaped) := by
    simp [splitFragment, resourcesReference, ← String.toList_inj]
  have htypes : Text.afterLead "/types/" ("/resources/" ++ escaped) = none := by
    simp [Text.afterLead, Text.dropLead]
  have hresources : Text.afterLead "/resources/" ("/resources/" ++ escaped) = some escaped :=
    Text.afterLead_eq_some.2 rfl
  unfold bindReference
  rw [hbuiltin]
  dsimp only
  rw [if_neg hprovider, hsplit]
  dsimp only
  rw [htypes, hresources]
  dsimp only
  refine congrArg _ (funext fun _ => ?_)
  cases d.resources.contains (unescapeToken escaped) <;> rfl

/-- The reference names a member of the document that is not there, by its token. -/
inductive Dangles (d : PackageDocument) : String → String → Prop
  | type {escaped : String} : unescapeToken escaped ∉ d.types.keys →
      Dangles d (typesReference ++ escaped) (unescapeToken escaped)
  | resource {escaped : String} : unescapeToken escaped ∉ d.resources.keys →
      Dangles d (resourcesReference ++ escaped) (unescapeToken escaped)

theorem not_bindLocalType {token context : String} (h : token ∉ d.types.keys) :
    bindLocalType d token context = .error (.typeNotFound token context) := by
  have hnone : d.types.get? token = none := by
    rw [← Option.not_isSome_iff_eq_none]
    exact fun hsome => h (Dictionary.contains_iff.1 hsome)
  unfold bindLocalType
  rw [hnone]

theorem Dangles.not_bindReference {reference token : String} (h : Dangles d reference token)
    (context : String) (t : ResolvedType) : bindReference d reference context ≠ .ok t := by
  intro hbind
  cases h with
  | type htoken =>
    rw [bindReference_types, not_bindLocalType htoken] at hbind
    obtain ⟨_, -, hbind⟩ := bind_eq_ok.1 hbind
    cases hbind
  | resource htoken =>
    rw [bindReference_resources, if_neg (mt Dictionary.contains_iff.1 htoken)] at hbind
    obtain ⟨_, -, hbind⟩ := bind_eq_ok.1 hbind
    cases hbind

/-- A local reference fails only for a token that is malformed or names no type. -/
theorem error_of_bindLocalType {token context : String} {e : SchemaError}
    (h : bindLocalType d token context = .error e) :
    (∃ p, e = .parse p) ∨ token ∉ d.types.keys ∧ e = .typeNotFound token context := by
  unfold bindLocalType at h
  split at h
  · next hnone =>
    cases h
    refine .inr ⟨fun hkey => ?_, rfl⟩
    obtain ⟨t, ht⟩ := Option.isSome_iff_exists.1 (Dictionary.contains_iff.2 hkey)
    rw [hnone] at ht
    cases ht
  · split at h
    · cases h
    · split at h
      · cases h
      · cases h
      · next name _ _ =>
        have htakes : Takes (bindSection d) [] (primitiveNamed name context) :=
          takes_primitiveNamed _ context
        exact (htakes.error e (bind_pure_eq_error.1 h)).imp_right
          fun ⟨_, hmem, _⟩ => absurd hmem List.not_mem_nil

/-- A reference that is not followed cannot be read, or names a member that is not there. -/
theorem error_of_bindReference {reference context : String} {e : SchemaError}
    (h : bindReference d reference context = .error e) : (∃ p, e = .parse p) ∨
      ∃ token, Dangles d reference token ∧ e = .typeNotFound token context := by
  have hsplits {fragment : String} (hsplit : splitFragment reference = some ("", fragment)) :
      reference = "#" ++ fragment := by
    simpa using eq_of_splitFragment hsplit
  have hrequire {token : String} (h : requireToken token = .error e) : ∃ p, e = .parse p := by
    have htakes : Takes (bindSection d) [] (requireToken token) := takes_requireToken token
    exact (htakes.error e h).resolve_right fun ⟨_, hmem, _⟩ => absurd hmem List.not_mem_nil
  unfold bindReference at h
  dsimp only at h
  split at h
  · split at h
    · cases h
    · exact .inl ⟨_, (Except.error.inj h).symm⟩
  · split at h
    · cases h
    · split at h
      · exact .inl ⟨_, (Except.error.inj h).symm⟩
      · next origin fragment hsplit =>
        split at h
        · next escaped hescaped =>
          rcases bind_eq_error.1 h with h | ⟨_, -, hlocal⟩
          · exact .inl (hrequire h)
          · split at hlocal
            · next horigin =>
              obtain rfl := String.isEmpty_iff.1 horigin
              rcases error_of_bindLocalType hlocal with hparse | ⟨htoken, rfl⟩
              · exact .inl hparse
              · obtain rfl := Text.afterLead_eq_some.1 hescaped
                obtain rfl := hsplits hsplit
                exact .inr ⟨_, .type htoken, rfl⟩
            · cases hlocal
        · next escaped _ hescaped =>
          rcases bind_eq_error.1 h with h | ⟨_, -, hresource⟩
          · exact .inl (hrequire h)
          · split at hresource
            · next hmissing =>
              rw [Bool.and_eq_true, Bool.not_eq_true', Dictionary.contains_eq_false_iff] at hmissing
              obtain rfl := String.isEmpty_iff.1 hmissing.1
              cases hresource
              obtain rfl := Text.afterLead_eq_some.1 hescaped
              obtain rfl := hsplits hsplit
              exact .inr ⟨_, .resource hmissing.2, rfl⟩
            · cases hresource
        · exact .inl ⟨_, (Except.error.inj h).symm⟩

end SchemaToJava.Package

namespace SchemaToJava.Schema

open Outcome Package

/-- The reference is followed when the document is bound, in a place of the given name. -/
inductive IsFollowed (d : PackageDocument) : String → String → Prop
  | intro {s : Section} {name reference : String} {p : PropertyEntry} : s ∈ d.boundSections →
      (name, p) ∈ s.properties.entries → reference ∈ followed p.type →
      IsFollowed d reference (s.owner ++ "." ++ name)

/-- A name that validation does not check and that is missing, with the error that tells of it. -/
inductive IsMissing (d : PackageDocument) : SchemaError → Prop
  | required {s : Section} {name : String} : s ∈ d.providerSections → name ∈ s.required →
      name ∉ s.properties.keys → IsMissing d (.undeclaredRequired s.owner name)
  | member {reference token context : String} : IsFollowed d reference context →
      Dangles d reference token → IsMissing d (.typeNotFound token context)

/-- What is left to binding once a document is valid. -/
structure LeavesNames (d : PackageDocument) : Prop where
  /-- Every required property of the sections that are checked is declared. -/
  complete : ∀ s ∈ d.checkedSections, s.IsComplete
  /-- Binding fails over a text that cannot be read or over a name that is not checked. -/
  error : ∀ e, d.bind = .error e → (∃ p, e = .parse p) ∨ IsMissing d e
  /-- Where all texts can be read, the document is bound exactly if no such name is missing. -/
  bound_iff : (∀ p, d.bind ≠ .error (.parse p)) →
    ((∃ package, d.bind = .ok package) ↔ ∀ e, ¬ IsMissing d e)
  /-- Any provider would do for validation. -/
  provider : ∀ provider, ({ d with provider } : PackageDocument).validate = .ok ()
  /-- So would any references. -/
  references : ∀ f, (d.mapReferences f).validate = .ok ()

variable {d : PackageDocument}

/-- A section fails for a required name that is not declared, or for a name in its types. -/
theorem error_of_bindSection {s : Section} (hs : s ∈ d.boundSections) {e : SchemaError}
    (h : bindSection d s = .error e) : (∃ p, e = .parse p) ∨
      (∃ name ∈ s.required, name ∉ s.properties.keys ∧ e = .undeclaredRequired s.owner name) ∨
      IsMissing d e := by
  unfold bindSection bindProperties at h
  rcases bind_eq_error.1 h with h | ⟨_, -, h⟩
  · unfold checkRequired at h
    split at h
    · next name hfind =>
      cases h
      have hnot := List.find?_some hfind
      rw [Bool.not_eq_true', Dictionary.contains_eq_false_iff] at hnot
      exact .inr (.inl ⟨name, List.mem_of_find?_eq_some hfind, hnot, rfl⟩)
    · cases h
  · let run (entry : String × PropertyEntry) :=
      bindProperty d s.owner s.required entry.1 entry.2
    have htakes : Package.Takes run (s.properties.entries.flatMap fun entry => [entry])
        (s.properties.entries.mapM run) := takes_mapM _ fun entry _ => takes_singleton entry
    rcases htakes.error e h with hparse | ⟨⟨name, p⟩, hmem, h⟩
    · exact .inl hparse
    · have hmem : (name, p) ∈ s.properties.entries := by simpa using hmem
      have htype : bindType d (s.owner ++ "." ++ name) p.type = .error e := bind_pure_eq_error.1 h
      rcases (takes_bindType p.type).error e htype with hparse | ⟨reference, hreference, h⟩
      · exact .inl hparse
      · rcases error_of_bindReference h with hparse | ⟨token, hdangles, rfl⟩
        · exact .inl hparse
        · exact .inr (.inr (.member (.intro hs hmem hreference) hdangles))

/-- Nothing that is bound is missing. -/
theorem not_isMissing_of_bind {package : Package} (h : d.bind = .ok package) (e : SchemaError) :
    ¬ IsMissing d e := by
  have hsections := (takes_bind d).ok package h
  intro hmissing
  cases hmissing with
  | required hs hname hnot =>
    obtain ⟨ps, hps⟩ := hsections _ (List.mem_append_right _ hs)
    exact hnot ((exists_bindProperties_iff.1 ⟨ps, hps⟩).1 _ hname)
  | member hfollowed hdangles =>
    cases hfollowed with
    | intro hs hmem hreference =>
      obtain ⟨ps, hps⟩ := hsections _ hs
      obtain ⟨t, ht⟩ := (exists_bindProperties_iff.1 ⟨ps, hps⟩).2 _ hmem
      obtain ⟨u, hu⟩ := (takes_bindType _).ok t ht _ hreference
      exact hdangles.not_bindReference _ u hu

/-- In a valid document nothing is missing but what the provider requires and what references
name; both are left to binding. -/
theorem leavesNames_of_validate (h : d.validate = .ok ()) : LeavesNames d := by
  have hcomplete := isComplete_of_validate h
  have herror : ∀ e, d.bind = .error e → (∃ p, e = .parse p) ∨ IsMissing d e := by
    intro e hbind
    rcases (takes_bind d).error e hbind with hparse | ⟨s, hs, hsection⟩
    · exact .inl hparse
    · rcases error_of_bindSection hs hsection with hparse | ⟨name, hname, hnot, rfl⟩ | hmissing
      · exact .inl hparse
      · rcases PackageDocument.mem_boundSections hs with hchecked | hprovider
        · exact absurd (hcomplete s hchecked name hname) hnot
        · exact .inr (.required hprovider hname hnot)
      · exact .inr hmissing
  constructor
  · exact hcomplete
  · exact herror
  · intro hreadable
    constructor
    · rintro ⟨package, hbind⟩
      exact not_isMissing_of_bind hbind
    · intro hnone
      cases hbind : d.bind with
      | ok package => exact ⟨package, rfl⟩
      | error e =>
        rcases herror e hbind with ⟨p, rfl⟩ | hmissing
        · exact absurd hbind (hreadable p)
        · exact absurd hmissing (hnone e)
  · exact fun provider => (d.validate_of_provider provider).trans h
  · exact fun f => (d.validate_mapReferences f).trans h

/-- The error with which binding the document of a text fails although it is valid. -/
def bindingErrorOf (text : String) : Option SchemaError :=
  match parseDocument text with
  | .error _ => none
  | .ok d =>
    match d.validate, d.bind with
    | .ok (), .error e => some e
    | _, _ => none

theorem exists_of_bindingErrorOf {text : String} {e : SchemaError}
    (h : bindingErrorOf text = some e) :
    ∃ d, parseDocument text = .ok d ∧ d.validate = .ok () ∧ d.bind = .error e := by
  unfold bindingErrorOf at h
  split at h
  · cases h
  · next d hd =>
    split at h
    · next hvalid hbind =>
      cases h
      exact ⟨d, hd, hvalid, hbind⟩
    · cases h

/-- A provider that requires a property without declaring it. -/
theorem leavesNames_of_validate_of_provider :
    let text := "\x7b\"name\": \"p\", \"provider\": \x7b\"required\": [\"x\"]\x7d\x7d"
    ∃ d, parseDocument text = .ok d ∧ d.validate = .ok () ∧ LeavesNames d ∧
      d.bind = .error (.undeclaredRequired "pulumi:providers:p" "x") ∧
      IsMissing d (.undeclaredRequired "pulumi:providers:p" "x") := by
  intro text
  have herror : bindingErrorOf text = some (.undeclaredRequired "pulumi:providers:p" "x") := by
    decide +kernel
  obtain ⟨d, hd, hvalid, hbind⟩ := exists_of_bindingErrorOf herror
  have hleaves := leavesNames_of_validate hvalid
  refine ⟨d, hd, hvalid, hleaves, hbind, (hleaves.error _ hbind).resolve_left ?_⟩
  rintro ⟨p, hp⟩
  cases hp

/-- Valid documents of which one requires a property that is not declared and the other refers to a
type that is not there. -/
theorem not_checked_of_provider_or_reference :
    let reported : List (String × SchemaError) :=
      [("\x7b\"name\": \"p\", \"provider\": \x7b\"required\": [\"x\"]\x7d\x7d",
          .undeclaredRequired "pulumi:providers:p" "x"),
        ("\x7b\"name\": \"p\", \"config\": \x7b\"variables\": \x7b\"x\": " ++
            "\x7b\"$ref\": \"#/types/p:m:X\"\x7d\x7d\x7d\x7d",
          .typeNotFound "p:m:X" "config.x")]
    ∀ entry ∈ reported, ∃ d, parseDocument entry.1 = .ok d ∧ d.validate = .ok () ∧
      d.bind = .error entry.2 := by
  intro reported entry hentry
  have herrors : ∀ entry ∈ reported, bindingErrorOf entry.1 = some entry.2 := by decide +kernel
  exact exists_of_bindingErrorOf (herrors entry hentry)

end SchemaToJava.Schema
