import SchemaToJava.Proofs.KeptRecords

/-!
Two records that share an object, written and read again. The fields of the shared record stand in
front; while the other record is read they are kept as they are, for no field of it has the name of
one of theirs.
-/
namespace SchemaToJava.Reading

open Json Outcome Schema

variable {α β : Type} {n : Node} {depth : Nat}

/-- How two records that share an object are read and how they are written fit together. The fields
of the shared record are written first, and none of them is a field of the other record. -/
structure MirrorsBoth (m : Merged α β) (IsOwn : α → Prop) (IsShared : β → Prop)
    (own : α → List Field) (shared : β → List Field) : Prop where
  own : Mirrors m.own IsOwn own m.depth
  shared : Mirrors m.shared IsShared shared m.depth
  apart : ∀ name ∈ m.shared.names, name ∉ m.own.names

variable {m : Merged α β} {IsOwn : α → Prop} {IsShared : β → Prop} {own : α → List Field}
  {shared : β → List Field}

/-- Reading two records from one object keeps what is kept of either. -/
theorem gives_readBoth (h : MirrorsBoth m IsOwn IsShared own shared)
    {members : List (Node × Node)} {brokenOff : Option Fault}
    (hplain : ∀ m ∈ members, m.2.IsPlain) {x : α × β}
    (hgives : Gives (m.readObject members brokenOff) x) : IsOwn x.1 ∧ IsShared x.2 := by
  unfold Merged.readObject at hgives
  obtain ⟨⟨seen, acc, kept⟩, hread, hgives⟩ := hgives.bind
  obtain ⟨_, -, hgives⟩ := Gives.bind hgives
  have hkeep (rest : List (Node × Node)) (name : Option String) (n : Node)
      (rest' : List (Node × Node)) (hn : n.IsPlain) (hrest : ∀ m ∈ rest, m.2.IsPlain)
      (hgives : Gives (m.keepMember rest name n) rest') : ∀ m ∈ rest', m.2.IsPlain := by
    unfold Merged.keepMember at hgives
    obtain ⟨n', hn', hgives⟩ := hgives.bind
    cases name with
    | none =>
      obtain rfl := gives_pure.1 hgives
      exact hrest
    | some name =>
      obtain rfl := gives_pure.1 hgives
      exact List.forall_mem_cons.2 ⟨isPlain_settle hn hn', hrest⟩
  have hnil : ∀ m ∈ ([] : List (Node × Node)), m.2.IsPlain := fun _ hm => by cases hm
  obtain ⟨hown, hkept⟩ := gives_readMembers h.own hkeep hplain h.own.blank hnil hread
  cases hresult : (m.shared.readObject kept.reverse none).result with
  | error f =>
    rw [hresult] at hgives
    exact absurd hgives not_gives_throw
  | ok y =>
    rw [hresult] at hgives
    obtain rfl := gives_pure.1 hgives
    have hreverse : ∀ m ∈ kept.reverse, m.2.IsPlain := fun m hm =>
      hkept m (List.mem_reverse.1 hm)
    exact ⟨hown, gives_readObject h.shared hreverse (gives_of_result hresult)⟩

/-- Two records that are read from one object each keep what is asked of their fields. -/
theorem gives_mergedIn {merged : Option (Merged α β)}
    (h : ∀ m ∈ merged, MirrorsBoth m IsOwn IsShared own shared) (hn : n.IsPlain) {x : α × β}
    (hgives : Gives (mergedIn merged n) x) :
    (∃ m, merged = some m) ∧ IsOwn x.1 ∧ IsShared x.2 := by
  unfold mergedIn at hgives
  rw [follow_of_isPlain hn, pure_bind] at hgives
  cases hn with
  | scalar hs =>
    cases merged with
    | none => exact absurd hgives not_gives_throw
    | some m =>
      dsimp only at hgives
      rw [not_vacant hs] at hgives
      exact absurd hgives not_gives_throw
  | list => cases merged <;> exact absurd hgives not_gives_throw
  | @table members brokenOff typed hkeys hvalues =>
    cases merged with
    | none => exact absurd hgives not_gives_throw
    | some m => exact ⟨⟨m, rfl⟩, gives_readBoth (h m rfl) hvalues hgives⟩
  | broken => cases merged <;> exact absurd hgives not_gives_throw

/-- Members are read one after another, so a list of them is read in two parts. -/
theorem readMembers_append {σ : Type} (fields : Fields α) (places : List String)
    (other : σ → Option String → Node → Read σ) (seen : List String) (acc : α) (rest : σ)
    (first more : List (Node × Node)) :
    fields.readMembers places other seen acc rest (first ++ more) = (do
      let (seen, acc, rest) ← fields.readMembers places other seen acc rest first
      fields.readMembers places other seen acc rest more) := by
  induction first generalizing seen acc rest with
  | nil => rw [List.nil_append, Fields.readMembers, pure_bind]
  | cons m first ih =>
    rw [List.cons_append, Fields.readMembers, Fields.readMembers, bind_assoc]
    congr 1
    funext name
    cases name.bind fields.reader? with
    | none =>
      dsimp only
      rw [bind_assoc]
      congr 1
      funext rest'
      exact ih seen acc rest'
    | some f =>
      dsimp only
      split
      · rfl
      · rw [bind_assoc]
        congr 1
        funext x
        exact ih _ _ rest

theorem Builds.mem_names {fields : Fields α} {used : List String} {acc x : α}
    {written : List Field} (h : Builds fields depth used acc written x) {member : String × Value}
    (hmember : some member ∈ written) : member.1 ∈ fields.names := by
  induction h with
  | done => cases hmember
  | field hkept hreader hrest hblank hnew ih =>
    rcases List.mem_cons.1 hmember with hfirst | hmember
    · obtain ⟨rfl, -⟩ := hkept.present member hfirst.symm
      exact List.mem_map_of_mem (mem_of_reader? hreader).1
    · exact ih hmember

/-- Members of the shared record are kept while the other record is read. -/
theorem readMembers_kept {written : List Field}
    (hother : ∀ member, some member ∈ written →
      m.own.reader? member.1 = none ∧ member.2.FitsIn m.depth)
    (seen : List String) (acc : α) (kept : List (Node × Node)) :
    m.own.readMembers [] m.keepMember seen acc kept (memberNodes written) =
      pure (seen, acc, (memberNodes written).reverse ++ kept) := by
  induction written generalizing kept with
  | nil => rfl
  | cons field rest ih =>
    have hrest := ih fun member hmember => hother member (.tail _ hmember)
    cases field with
    | none => exact hrest kept
    | some member =>
      obtain ⟨hreader, hfits⟩ := hother member List.mem_cons_self
      have hkeep : m.keepMember kept (some member.1) (Node.ofValue member.2) =
          pure ((nameNode member.1, Node.ofValue member.2) :: kept) := by
        unfold Merged.keepMember
        rw [settle_ofValue hfits, pure_bind]
        rfl
      rw [memberNodes_some, Fields.readMembers, fieldName_nameNode, pure_bind, Option.bind_some,
        hreader]
      dsimp only
      rw [hkeep, pure_bind, hrest, List.reverse_cons, List.append_assoc, List.singleton_append]

theorem memberNodes_append (first more : List Field) :
    memberNodes (first ++ more) = memberNodes first ++ memberNodes more := by
  rw [memberNodes, membersOf, List.filterMap_append, List.map_append]
  rfl

/-- Two records are read back from the members that they are written as. -/
theorem readBoth_memberNodes (h : MirrorsBoth m IsOwn IsShared own shared) {x : α} {y : β}
    (hx : IsOwn x) (hy : IsShared y) :
    m.readObject (memberNodes (shared y ++ own x)) none = pure (x, y) := by
  have hshared := h.shared.builds y hy
  have hother : ∀ member, some member ∈ shared y →
      m.own.reader? member.1 = none ∧ member.2.FitsIn m.depth := by
    intro member hmember
    exact ⟨reader?_eq_none_iff.2 (h.apart _ (hshared.mem_names hmember)),
      hshared.fits member (List.mem_filterMap.2 ⟨_, hmember, rfl⟩)⟩
  have hown := h.own.builds x hx
  obtain ⟨seen, -, hread⟩ := hown.reads [] m.keepMember (memberNodes (shared y)).reverse
  unfold Merged.readObject
  rw [memberNodes_append, readMembers_append, readMembers_kept hother, pure_bind]
  dsimp only
  rw [List.append_nil, hread, pure_bind]
  dsimp only
  rw [List.reverse_reverse, readObject_memberNodes h.shared hy]
  rfl

/-- Two records that have been read from one object are read again from the object of the fields of
both. -/
theorem recovers_mergedOf {merged : Nat → Merged α β} {IsOwn : Nat → α → Prop}
    {IsShared : Nat → β → Prop} (hdepth : ∀ d, (merged d).depth = d)
    (h : ∀ d < depth, MirrorsBoth (merged d) (IsOwn d) (IsShared d) own shared) :
    Recovers (mergedOf merged depth)
      (fun x => .object (membersOf (shared x.2 ++ own x.1))) depth := by
  intro n x hn hx
  cases depth with
  | zero =>
    have hnone : ∀ m ∈ belowDepth merged 0, MirrorsBoth m (IsOwn 0) (IsShared 0) own shared := by
      rintro _ ⟨⟩
    obtain ⟨m, hm⟩ := (gives_mergedIn hnone hn hx).1
    cases hm
  | succ depth =>
    have hmirrors := h depth (Nat.lt_succ_self depth)
    have hsome : ∀ m ∈ belowDepth merged (depth + 1),
        MirrorsBoth m (IsOwn depth) (IsShared depth) own shared := by
      rintro _ ⟨⟩
      exact hmirrors
    obtain ⟨hown, hshared⟩ := (gives_mergedIn hsome hn hx).2
    have hownFits := (hmirrors.own.builds x.1 hown).fits
    have hsharedFits := (hmirrors.shared.builds x.2 hshared).fits
    rw [hdepth] at hownFits hsharedFits
    constructor
    · refine .object fun m hm => ?_
      rw [membersOf, List.filterMap_append] at hm
      rcases List.mem_append.1 hm with hm | hm
      · exact hsharedFits m hm
      · exact hownFits m hm
    · rw [ofValue_object]
      exact (pure_bind ..).trans (readBoth_memberNodes hmirrors hown hshared)

end SchemaToJava.Reading
