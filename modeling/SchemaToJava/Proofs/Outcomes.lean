import Mathlib.Data.List.Forall2
import Mathlib.Data.List.Perm.Basic

/-!
Computations that may fail. Such a computation succeeds exactly when each of its steps does, and a
list is gone through with success exactly when each of its items is.
-/
namespace SchemaToJava.Outcome

variable {ε α β : Type}

/-- A computation succeeds exactly if both of its parts do. -/
theorem bind_eq_ok {x : Except ε α} {f : α → Except ε β} {b : β} :
    x >>= f = .ok b ↔ ∃ a, x = .ok a ∧ f a = .ok b := by
  cases x with
  | error e =>
    constructor
    · intro h
      cases h
    · rintro ⟨a, h, -⟩
      cases h
  | ok a =>
    constructor
    · intro h
      exact ⟨a, rfl, h⟩
    · rintro ⟨_, ⟨⟩, h⟩
      exact h

/-- A computation fails in its first part, or in the second one after it. -/
theorem bind_eq_error {x : Except ε α} {f : α → Except ε β} {e : ε} :
    x >>= f = .error e ↔ x = .error e ∨ ∃ a, x = .ok a ∧ f a = .error e := by
  cases x with
  | error e' =>
    constructor
    · intro h
      exact .inl (congrArg Except.error (Except.error.inj h))
    · rintro (h | ⟨_, ⟨⟩, _⟩)
      exact congrArg Except.error (Except.error.inj h)
  | ok a =>
    constructor
    · intro h
      exact .inr ⟨a, rfl, h⟩
    · rintro (⟨⟨⟩⟩ | ⟨_, ⟨⟩, h⟩)
      exact h

/-- Changing a result does not fail. -/
theorem bind_pure_eq_error {x : Except ε α} {f : α → β} {e : ε} :
    (x >>= fun a => pure (f a)) = .error e ↔ x = .error e := by
  rw [bind_eq_error]
  constructor
  · rintro (h | ⟨a, -, ⟨⟩⟩)
    exact h
  · exact .inl

theorem pure_eq_ok {a b : α} : (pure a : Except ε α) = .ok b ↔ a = b := by
  constructor
  · rintro ⟨⟩
    rfl
  · rintro rfl
    rfl

theorem toOption_eq_some {x : Except ε α} {a : α} : x.toOption = some a ↔ x = .ok a := by
  cases x with
  | error e => simp [Except.toOption]
  | ok b => simp [Except.toOption]

theorem map_eq_ok {f : α → β} {x : Except ε α} {b : β} :
    f <$> x = .ok b ↔ ∃ a, x = .ok a ∧ f a = b := by
  cases x with
  | error e => exact ⟨nofun, fun ⟨_, h, _⟩ => nomatch h⟩
  | ok a =>
    constructor
    · intro h
      exact ⟨a, rfl, Except.ok.inj h⟩
    · rintro ⟨a', ha, rfl⟩
      obtain rfl := Except.ok.inj ha
      rfl

theorem mapError_eq_ok {ε' : Type} {f : ε → ε'} {x : Except ε α} {a : α} :
    x.mapError f = .ok a ↔ x = .ok a := by
  cases x with
  | error e => simp [Except.mapError]
  | ok b => exact ⟨fun h => congrArg _ (Except.ok.inj h), fun h => congrArg _ (Except.ok.inj h)⟩

/-- A traversal succeeds exactly if it does for each item. -/
theorem mapM_eq_ok {f : α → Except ε β} {xs : List α} {ys : List β} :
    xs.mapM f = .ok ys ↔ List.Forall₂ (fun x y => f x = .ok y) xs ys := by
  induction xs generalizing ys with
  | nil => rw [List.mapM_nil, pure_eq_ok, List.forall₂_nil_left_iff, eq_comm]
  | cons x xs ih =>
    simp only [List.mapM_cons, bind_eq_ok, pure_eq_ok, List.forall₂_cons_left_iff, ih]
    constructor
    · rintro ⟨y, hy, zs, hzs, rfl⟩
      exact ⟨y, zs, hy, hzs, rfl⟩
    · rintro ⟨y, zs, hy, hzs, rfl⟩
      exact ⟨y, hy, zs, hzs, rfl⟩

/-- A traversal in two steps can be made in two traversals. -/
theorem mapM_bind_eq_ok {γ : Type} {f : α → Except ε β} {g : β → Except ε γ} {xs : List α}
    {zs : List γ} : xs.mapM (fun x => f x >>= g) = .ok zs ↔
      ∃ ys, xs.mapM f = .ok ys ∧ ys.mapM g = .ok zs := by
  induction xs generalizing zs with
  | nil => simp [pure_eq_ok]
  | cons x xs ih =>
    simp only [List.mapM_cons, bind_eq_ok, pure_eq_ok, ih]
    constructor
    · rintro ⟨z, ⟨y, hy, hz⟩, _, ⟨ys, hys, hzs⟩, rfl⟩
      exact ⟨y :: ys, ⟨y, hy, ys, hys, rfl⟩, mapM_eq_ok.2 (.cons hz (mapM_eq_ok.1 hzs))⟩
    · rintro ⟨_, ⟨y, hy, ys, hys, rfl⟩, hzs⟩
      simp only [List.mapM_cons, bind_eq_ok, pure_eq_ok] at hzs
      obtain ⟨z, hz, rest, hrest, rfl⟩ := hzs
      exact ⟨z, ⟨y, hy, hz⟩, rest, ⟨ys, hys, hrest⟩, rfl⟩

/-- Lists that are gone through one by one are gone through as one. -/
theorem mapM_flatten_eq_ok {f : α → Except ε β} {xss : List (List α)} {yss : List (List β)}
    (h : xss.mapM (List.mapM f) = .ok yss) : xss.flatten.mapM f = .ok yss.flatten :=
  mapM_eq_ok.2 (List.rel_flatten ((mapM_eq_ok.1 h).imp fun _ _ => mapM_eq_ok.1))

theorem mapM_append_eq_ok {f : α → Except ε β} {xs xs' : List α} {ys ys' : List β}
    (h : xs.mapM f = .ok ys) (h' : xs'.mapM f = .ok ys') : (xs ++ xs').mapM f = .ok (ys ++ ys') :=
  mapM_eq_ok.2 (List.rel_append (mapM_eq_ok.1 h) (mapM_eq_ok.1 h'))

/-- If each item has a list of things of which it gives the results, the results of all items are
those of all these things. -/
theorem exists_flatten_of_mapM {γ : Type} {f : α → Except ε (List β)} {g : β → Except ε γ}
    {k : α → Except ε (List γ)} {xs : List α} {zss : List (List γ)}
    (hk : ∀ x zs, k x = .ok zs → ∃ ys, f x = .ok ys ∧ ys.mapM g = .ok zs)
    (h : xs.mapM k = .ok zss) :
    ∃ yss, xs.mapM f = .ok yss ∧ yss.flatten.mapM g = .ok zss.flatten := by
  have hall : xs.mapM (fun x => f x >>= List.mapM g) = .ok zss :=
    mapM_eq_ok.2 ((mapM_eq_ok.1 h).imp fun x zs hzs => bind_eq_ok.2 (hk x zs hzs))
  obtain ⟨yss, hyss, hzss⟩ := mapM_bind_eq_ok.1 hall
  exact ⟨yss, hyss, mapM_flatten_eq_ok hzss⟩

/-- A fold whose steps first compute something from their items can compute it beforehand. -/
theorem foldlM_bind_eq_ok {σ : Type} {f : α → Except ε β} {g : σ → β → Except ε σ} {xs : List α}
    {s t : σ} : xs.foldlM (fun s x => f x >>= g s) s = .ok t ↔
      ∃ ys, xs.mapM f = .ok ys ∧ ys.foldlM g s = .ok t := by
  induction xs generalizing s with
  | nil => simp [pure_eq_ok]
  | cons x xs ih =>
    simp only [List.foldlM_cons, List.mapM_cons, bind_eq_ok, pure_eq_ok, ih]
    constructor
    · rintro ⟨u, ⟨y, hy, hu⟩, ys, hys, ht⟩
      refine ⟨y :: ys, ⟨y, hy, ys, hys, rfl⟩, ?_⟩
      rw [List.foldlM_cons, bind_eq_ok]
      exact ⟨u, hu, ht⟩
    · rintro ⟨_, ⟨y, hy, ys, hys, rfl⟩, ht⟩
      rw [List.foldlM_cons, bind_eq_ok] at ht
      obtain ⟨u, hu, ht⟩ := ht
      exact ⟨u, ⟨y, hy, hu⟩, ys, hys, ht⟩

theorem exists_left_of_mem {R : α → β → Prop} {xs : List α} {ys : List β}
    (h : List.Forall₂ R xs ys) {y : β} (hy : y ∈ ys) : ∃ x ∈ xs, R x y := by
  induction h with
  | nil => cases hy
  | @cons x z xs zs hxz _ ih =>
    rcases List.mem_cons.1 hy with rfl | hy
    · exact ⟨x, List.mem_cons_self, hxz⟩
    · obtain ⟨w, hw, hwy⟩ := ih hy
      exact ⟨w, List.mem_cons_of_mem x hw, hwy⟩

theorem exists_right_of_mem {R : α → β → Prop} {xs : List α} {ys : List β}
    (h : List.Forall₂ R xs ys) {x : α} (hx : x ∈ xs) : ∃ y ∈ ys, R x y :=
  exists_left_of_mem h.flip hx

/-- Two maps that agree on each pair of items give the same list. -/
theorem map_eq_map_of_forall₂ {γ : Type} {f : α → γ} {g : β → γ} {xs : List α} {ys : List β}
    (h : List.Forall₂ (fun x y => f x = g y) xs ys) : xs.map f = ys.map g := by
  induction h with
  | nil => rfl
  | cons heq _ ih => rw [List.map_cons, List.map_cons, heq, ih]

/-- Every result of a traversal is the result for some item. -/
theorem exists_of_mem_mapM {f : α → Except ε β} {xs : List α} {ys : List β}
    (h : xs.mapM f = .ok ys) {y : β} (hy : y ∈ ys) : ∃ x ∈ xs, f x = .ok y :=
  exists_left_of_mem (mapM_eq_ok.1 h) hy

/-- Every item of a traversal has a result. -/
theorem exists_of_mem_of_mapM {f : α → Except ε β} {xs : List α} {ys : List β}
    (h : xs.mapM f = .ok ys) {x : α} (hx : x ∈ xs) : ∃ y ∈ ys, f x = .ok y :=
  exists_right_of_mem (mapM_eq_ok.1 h) hx

theorem exists_mapM {f : α → Except ε β} {xs : List α} :
    (∃ ys, xs.mapM f = .ok ys) ↔ ∀ x ∈ xs, ∃ y, f x = .ok y := by
  constructor
  · rintro ⟨ys, h⟩ x hx
    obtain ⟨y, -, hy⟩ := exists_of_mem_of_mapM h hx
    exact ⟨y, hy⟩
  · intro h
    induction xs with
    | nil => exact ⟨[], rfl⟩
    | cons x xs ih =>
      obtain ⟨y, hy⟩ := h x List.mem_cons_self
      obtain ⟨ys, hys⟩ := ih fun z hz => h z (List.mem_cons_of_mem x hz)
      exact ⟨y :: ys, mapM_eq_ok.2 (.cons hy (mapM_eq_ok.1 hys))⟩

theorem forM_eq_ok {f : α → Except ε Unit} {xs : List α} :
    xs.forM f = .ok () ↔ ∀ x ∈ xs, f x = .ok () := by
  induction xs with
  | nil => simp [pure_eq_ok]
  | cons x xs ih =>
    change (f x >>= fun _ => xs.forM f) = .ok () ↔ _
    rw [List.forall_mem_cons, ← ih, bind_eq_ok]
    constructor
    · rintro ⟨_, hx, hxs⟩
      exact ⟨hx, hxs⟩
    · rintro ⟨hx, hxs⟩
      exact ⟨(), hx, hxs⟩

theorem forM_map {α' : Type} {f : α → Except ε Unit} {g : α' → α} {xs : List α'} :
    (xs.map g).forM f = xs.forM fun x => f (g x) := by
  induction xs with
  | nil => rfl
  | cons x xs ih => exact congrArg (f (g x) >>= ·) (funext fun _ => ih)

/-- Items changed before a traversal change the results, if they do so one by one. -/
theorem mapM_map_eq {m : Type → Type} [Monad m] [LawfulMonad m] {α' β' : Type} {f : α → m β}
    {f' : α' → m β'} {c : α → α'} {g : β → β'} (h : ∀ x, f' (c x) = g <$> f x) (xs : List α) :
    (xs.map c).mapM f' = List.map g <$> xs.mapM f := by
  induction xs with
  | nil => rw [List.map_nil, List.mapM_nil, List.mapM_nil, map_pure, List.map_nil]
  | cons x xs ih =>
    simp only [List.map_cons, List.mapM_cons, ih, h, map_bind, bind_map_left, map_pure]

/-- A traversal in another order gives the results in another order. -/
theorem mapM_perm {f : α → Except ε β} {xs xs' : List α} {ys : List β} (hperm : xs'.Perm xs)
    (h : xs.mapM f = .ok ys) : ∃ ys', xs'.mapM f = .ok ys' ∧ ys'.Perm ys := by
  obtain ⟨ys', hys', hperm⟩ := List.perm_comp_forall₂ hperm (mapM_eq_ok.1 h)
  exact ⟨ys', mapM_eq_ok.2 hys', hperm⟩

section Follows

variable {ε' α' β' : Type} {f : α → α'} {g : β → β'}

/-- One computation succeeds exactly if another does, with `f` of what that one gives. The errors
need not agree. -/
def Follows (f : α → α') (x : Except ε α) (y : Except ε' α') : Prop :=
  ∀ b, y = .ok b ↔ ∃ a, x = .ok a ∧ f a = b

theorem follows_ok {a : α} {b : α'} (h : f a = b) :
    Follows f (.ok a : Except ε α) (.ok b : Except ε' α') := by
  intro c
  simp [← h]

theorem follows_error {e : ε} {e' : ε'} :
    Follows f (.error e : Except ε α) (.error e' : Except ε' α') := by
  intro b
  simp

/-- Following is kept step by step. -/
theorem Follows.bind {x : Except ε α} {y : Except ε' α'} {k : α → Except ε β}
    {k' : α' → Except ε' β'} (h : Follows f x y)
    (hk : ∀ a, x = .ok a → Follows g (k a) (k' (f a))) : Follows g (x >>= k) (y >>= k') := by
  intro b
  simp only [bind_eq_ok, h _]
  constructor
  · rintro ⟨_, ⟨a, ha, rfl⟩, hb⟩
    obtain ⟨c, hc, rfl⟩ := (hk a ha b).1 hb
    exact ⟨c, ⟨a, ha, hc⟩, rfl⟩
  · rintro ⟨c, ⟨a, ha, hc⟩, rfl⟩
    exact ⟨f a, ⟨a, ha, rfl⟩, (hk a ha _).2 ⟨c, hc, rfl⟩⟩

theorem Follows.trans {α'' ε'' : Type} {f' : α' → α''} {x : Except ε α} {y : Except ε' α'}
    {z : Except ε'' α''} (h : Follows f x y) (h' : Follows f' y z) : Follows (f' ∘ f) x z := by
  intro c
  rw [h' c]
  constructor
  · rintro ⟨b, hb, rfl⟩
    obtain ⟨a, ha, rfl⟩ := (h b).1 hb
    exact ⟨a, ha, rfl⟩
  · rintro ⟨a, ha, rfl⟩
    exact ⟨f a, (h _).2 ⟨a, ha, rfl⟩, rfl⟩

theorem Follows.exists_iff {x : Except ε α} {y : Except ε' α'} (h : Follows f x y) :
    (∃ b, y = .ok b) ↔ ∃ a, x = .ok a := by
  constructor
  · rintro ⟨b, hb⟩
    obtain ⟨a, ha, -⟩ := (h b).1 hb
    exact ⟨a, ha⟩
  · rintro ⟨a, ha⟩
    exact ⟨f a, (h _).2 ⟨a, ha, rfl⟩⟩

/-- A traversal of changed items follows the traversal of the items. -/
theorem follows_mapM {α'' : Type} {c : α → α''} {k : α → Except ε β} {k' : α'' → Except ε' β'}
    {xs : List α} (h : ∀ x ∈ xs, Follows g (k x) (k' (c x))) :
    Follows (List.map g) (xs.mapM k) ((xs.map c).mapM k') := by
  induction xs with
  | nil => exact follows_ok rfl
  | cons x xs ih =>
    rw [List.map_cons, List.mapM_cons, List.mapM_cons]
    refine (h x List.mem_cons_self).bind fun y _ => ?_
    refine (ih fun z hz => h z (List.mem_cons_of_mem x hz)).bind fun ys _ => ?_
    exact follows_ok rfl

/-- A traversal that leaves out items follows the whole one if none of these can fail alone. -/
theorem follows_mapM_filter {k : α → Except ε β} {keep : α → Bool} {keep' : β → Bool}
    {xs : List α} (hkeep : ∀ x y, k x = .ok y → keep' y = keep x)
    (hrest : ∀ x ∈ xs, keep x = false →
      ∃ z ∈ xs, keep z = true ∧ ((∃ y, k z = .ok y) → ∃ y, k x = .ok y)) :
    Follows (List.filter keep') (xs.mapM k) ((xs.filter keep).mapM k) := by
  have hfilter {ys : List β} (h : xs.mapM k = .ok ys) :
      (xs.filter keep).mapM k = .ok (ys.filter keep') :=
    mapM_eq_ok.2 (List.rel_filter (fun x y hxy => by simp [hkeep x y hxy]) (mapM_eq_ok.1 h))
  intro zs
  constructor
  · intro h
    have hkept : ∀ x ∈ xs, keep x = true → ∃ y, k x = .ok y := by
      intro x hx hkeeps
      obtain ⟨y, -, hy⟩ := exists_of_mem_of_mapM h (List.mem_filter.2 ⟨hx, hkeeps⟩)
      exact ⟨y, hy⟩
    obtain ⟨ys, hys⟩ : ∃ ys, xs.mapM k = .ok ys := by
      refine exists_mapM.2 fun x hx => ?_
      cases hkeeps : keep x with
      | true => exact hkept x hx hkeeps
      | false =>
        obtain ⟨z, hz, hkeepz, himplies⟩ := hrest x hx hkeeps
        exact himplies (hkept z hz hkeepz)
    rw [hfilter hys] at h
    exact ⟨ys, hys, Except.ok.inj h⟩
  · rintro ⟨ys, hys, rfl⟩
    exact hfilter hys

end Follows

end SchemaToJava.Outcome
