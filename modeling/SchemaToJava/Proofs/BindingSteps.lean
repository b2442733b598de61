import SchemaToJava.Proofs.DocumentSections

/-!
The steps of binding. Binding a document goes through its sections, and binding a type goes through
the references that are followed for it; it fails only as one of its steps does, or over a text that
cannot be read, and when it succeeds then so has each step.
-/
namespace SchemaToJava.Package

open Schema Outcome

variable {α β γ σ : Type}

/-- The computation takes the steps, in some order and up to the first one that fails. -/
structure Takes (run : σ → Bound γ) (steps : List σ) (x : Bound α) : Prop where
  error : ∀ e, x = .error e → (∃ p, e = .parse p) ∨ ∃ s ∈ steps, run s = .error e
  ok : ∀ a, x = .ok a → ∀ s ∈ steps, ∃ b, run s = .ok b

section Rules

variable {run : σ → Bound γ} {steps others : List σ} {x : Bound α}

theorem takes_ok (a : α) : Takes run [] (.ok a : Bound α) where
  error _ h := by cases h
  ok _ _ s hs := by cases hs

theorem takes_unreadable (steps : List σ) (e : ParseError) :
    Takes run steps (unreadable e : Bound α) where
  error _ h := .inl ⟨e, (Except.error.inj h).symm⟩
  ok _ h := by cases h

theorem takes_singleton (s : σ) : Takes run [s] (run s) where
  error e h := .inr ⟨s, List.mem_singleton_self s, h⟩
  ok a h t ht := by
    obtain rfl := List.mem_singleton.1 ht
    exact ⟨a, h⟩

/-- A computation takes its own steps and then those of what it goes on with. -/
theorem Takes.bind {f : α → Bound β} (hx : Takes run steps x) (hf : ∀ a, Takes run others (f a)) :
    Takes run (steps ++ others) (x >>= f) where
  error e h := by
    rcases bind_eq_error.1 h with h | ⟨a, -, h⟩
    · exact (hx.error e h).imp_right fun ⟨s, hs, hrun⟩ => ⟨s, List.mem_append_left _ hs, hrun⟩
    · exact ((hf a).error e h).imp_right fun ⟨s, hs, hrun⟩ =>
        ⟨s, List.mem_append_right _ hs, hrun⟩
  ok b h s hs := by
    obtain ⟨a, ha, hb⟩ := bind_eq_ok.1 h
    rcases List.mem_append.1 hs with hs | hs
    · exact hx.ok a ha s hs
    · exact (hf a).ok b hb s hs

/-- Changing the result takes no step. -/
theorem Takes.bind_pure {f : α → β} (hx : Takes run steps x) :
    Takes run steps (x >>= fun a => pure (f a)) := by
  have h := hx.bind (f := fun a => (pure (f a) : Bound β)) fun a => takes_ok (f a)
  rwa [List.append_nil] at h

/-- What comes first may take no step. -/
theorem takes_bind_of_nil {f : α → Bound β} (hx : Takes run [] x)
    (hf : ∀ a, Takes run steps (f a)) : Takes run steps (x >>= f) := hx.bind hf

/-- The order of the steps has no part in what is said of them. -/
theorem Takes.congr (h : Takes run steps x) (hmem : ∀ s, s ∈ steps ↔ s ∈ others) :
    Takes run others x where
  error e he := (h.error e he).imp_right fun ⟨s, hs, hrun⟩ => ⟨s, (hmem s).1 hs, hrun⟩
  ok a ha s hs := h.ok a ha s ((hmem s).2 hs)

/-- A traversal takes the steps of its items. -/
theorem takes_mapM {steps : α → List σ} {f : α → Bound β} (xs : List α)
    (h : ∀ a ∈ xs, Takes run (steps a) (f a)) : Takes run (xs.flatMap steps) (xs.mapM f) := by
  induction xs with
  | nil => exact takes_ok []
  | cons a xs ih =>
    rw [List.mapM_cons, List.flatMap_cons]
    refine (h a List.mem_cons_self).bind fun b => ?_
    exact (ih fun c hc => h c (List.mem_cons_of_mem a hc)).bind_pure

theorem takes_bindOptional {steps : α → List σ} {f : α → Bound β}
    (h : ∀ a, Takes run (steps a) (f a)) (o : Option α) :
    Takes run (o.toList.flatMap steps) (bindOptional f o) := by
  cases o with
  | none => exact takes_ok none
  | some a =>
    rw [Option.toList_some, List.flatMap_singleton]
    exact (h a).bind_pure

theorem takes_requireToken (token : String) : Takes run [] (requireToken token) := by
  unfold requireToken
  split
  · exact takes_ok _
  · exact takes_unreadable [] _

theorem takes_primitiveNamed (name context : String) :
    Takes run [] (primitiveNamed name context) := by
  unfold primitiveNamed
  split
  · exact takes_ok _
  · exact takes_unreadable [] _

end Rules

section References

mutual

/-- The references that are followed to bind a type. Alternatives hide a reference beside them, and
a reference hides what the type is made of. -/
def followed : TypeExpr → List String
  | ⟨typeName, reference, items, additional, oneOf, _⟩ =>
    match oneOf with
    | some alternatives => listFollowed alternatives
    | none =>
      match reference with
      | some reference => [reference]
      | none =>
        match typeName with
        | none => []
        | some "array" =>
          match items with
          | none => []
          | some t => followed t
        | some "object" =>
          match additional with
          | none => []
          | some t => followed t
        | some _ => []

def listFollowed : List TypeExpr → List String
  | [] => []
  | t :: ts => followed t ++ listFollowed ts

end

variable {d : PackageDocument} {context : String}

mutual

/-- Binding a type follows its references one after another, and fails with the first that fails. -/
theorem takes_bindType : (e : TypeExpr) →
    Takes (fun reference => bindReference d reference context) (followed e) (bindType d context e)
  | ⟨typeName, reference, items, additional, oneOf, plain⟩ => by
    unfold bindType followed
    cases oneOf with
    | some alternatives => exact (takes_bindTypes alternatives).bind_pure
    | none =>
      cases reference with
      | some reference => exact takes_singleton reference
      | none =>
        dsimp only
        split
        · exact takes_unreadable [] _
        · cases items with
          | none => exact takes_unreadable [] _
          | some t => exact (takes_bindType t).bind_pure
        · cases additional with
          | none => exact takes_ok _
          | some t => exact (takes_bindType t).bind_pure
        · next name _ _ =>
          have hnamed : Takes (fun reference => bindReference d reference context) []
              (do return ResolvedType.primitive (← primitiveNamed name context)) :=
            (takes_primitiveNamed name context).bind_pure
          simpa only using hnamed

theorem takes_bindTypes : (es : List TypeExpr) →
    Takes (fun reference => bindReference d reference context) (listFollowed es)
      (bindTypes d context es)
  | [] => takes_ok []
  | e :: es => by
    unfold bindTypes listFollowed
    exact (takes_bindType e).bind fun t => (takes_bindTypes es).bind_pure

end

end References

section Sections

variable {d : PackageDocument}

def bindSection (d : PackageDocument) (s : Section) : Bound (List Property) :=
  bindProperties d s.owner s.properties s.required

theorem takes_bindResource (token : String) (r : ResourceEntry) :
    Takes (bindSection d) (r.sections token ++ r.state.toList.map (ObjectEntry.toSection token))
      (bindResource d token r) := by
  have hstate : Takes (bindSection d) (r.state.toList.map (ObjectEntry.toSection token))
      (bindOptional (bindObject d token) r.state) := by
    rw [List.map_eq_flatMap]
    exact takes_bindOptional (fun o => takes_singleton (o.toSection token)) r.state
  refine takes_bind_of_nil (takes_requireToken token) fun _ => ?_
  refine (takes_singleton (r.object.toSection token)).bind fun _ => ?_
  refine (takes_singleton (r.inputSection token)).bind fun _ => ?_
  exact hstate.bind_pure

theorem takes_bindProvider (r : ResourceEntry) :
    Takes (bindSection d) (r.sections (Token.ofProvider d.name)) (bindProvider d r) := by
  refine (takes_singleton (r.object.toSection (Token.ofProvider d.name))).bind fun _ => ?_
  exact (takes_singleton (r.inputSection (Token.ofProvider d.name))).bind_pure

theorem takes_bindFunction (token : String) (f : FunctionEntry) :
    Takes (bindSection d) (f.sections token) (bindFunction d token f) := by
  have hobject (o : Option ObjectEntry) : Takes (bindSection d)
      (o.toList.map (ObjectEntry.toSection token)) (bindOptional (bindObject d token) o) := by
    rw [List.map_eq_flatMap]
    exact takes_bindOptional (fun o => takes_singleton (o.toSection token)) o
  unfold FunctionEntry.sections
  rw [List.map_append]
  refine takes_bind_of_nil (takes_requireToken token) fun _ => ?_
  exact (hobject f.inputs).bind fun _ => (hobject f.outputs).bind_pure

/-- Binding a named type takes the steps of its sections. -/
theorem takes_bindTypeEntry (token : String) (t : TypeEntry) :
    Takes (bindSection d) (if t.isObject then [t.object.toSection token] else [])
      (bindTypeEntry d token t) := by
  have hobject : Takes (bindSection d) [t.object.toSection token] (bindObject d token t.object) :=
    takes_singleton (t.object.toSection token)
  refine takes_bind_of_nil (takes_requireToken token) fun _ => ?_
  unfold TypeEntry.isObject
  cases t.elements with
  | some elements => exact takes_ok _
  | none =>
    cases t.object.typeName with
    | none => exact hobject.bind_pure
    | some name =>
      by_cases hname : name = "object"
      · simp only [hname, Option.isNone_none, Option.all_some, beq_self_eq_true, Bool.and_self,
          if_true]
        exact hobject.bind_pure
      · have hbeq : (name == "object") = false := beq_eq_false_iff_ne.2 hname
        simp only [hname, hbeq, Option.isNone_none, Option.all_some, Bool.and_false,
          Bool.false_eq_true, if_false]
        exact (takes_primitiveNamed name token).bind_pure

theorem takes_bindTypeEntries (d : PackageDocument) : Takes (bindSection d)
    (d.typeSections TypeEntry.isObject) (bindTypeEntries d d.types.entries) := by
  have hsections : d.typeSections TypeEntry.isObject =
      d.types.entries.flatMap fun entry =>
        if entry.2.isObject then [entry.2.object.toSection entry.1] else [] := by
    unfold PackageDocument.typeSections
    induction d.types.entries with
    | nil => rfl
    | cons entry entries ih =>
      rw [List.flatMap_cons, ← ih, List.filter_cons]
      split <;> rfl
  rw [hsections]
  exact takes_mapM _ fun entry _ => (takes_bindTypeEntry entry.1 entry.2).bind_pure

/-- Binding a document goes through the sections that are bound. -/
theorem takes_bind (d : PackageDocument) : Takes (bindSection d) d.boundSections d.bind := by
  have hbind : Takes (bindSection d)
      (d.typeSections TypeEntry.isObject ++
        (d.resources.entries.flatMap (fun entry => entry.2.sections entry.1 ++
            entry.2.state.toList.map (ObjectEntry.toSection entry.1)) ++
          (d.providerSections ++
            (d.functions.entries.flatMap (fun entry => entry.2.sections entry.1) ++
              [d.config.toSection])))) d.bind := by
    refine (takes_bindTypeEntries d).bind fun _ => ?_
    refine (takes_mapM _ fun entry _ => takes_bindResource entry.1 entry.2).bind fun _ => ?_
    refine (takes_bindOptional takes_bindProvider d.provider).bind fun _ => ?_
    refine (takes_mapM _ fun entry _ => takes_bindFunction entry.1 entry.2).bind fun _ => ?_
    exact (takes_singleton d.config.toSection).bind_pure
  refine hbind.congr fun s => ?_
  simp only [PackageDocument.boundSections, PackageDocument.memberSections, List.mem_append,
    List.mem_flatMap, Prod.exists, or_assoc, or_comm, or_left_comm]

end Sections

end SchemaToJava.Package
