import SchemaToJava.Proofs.Outcomes

/-!
What computations with a state can give, from whichever state they start. A sequence of two gives
what the second can give after the first, and one that only fails gives nothing.
-/
namespace SchemaToJava.Outcome

variable {σ ε α β : Type}

/-- The computation can give the value, from some state. -/
def CanGive (x : ExceptT ε (StateM σ) α) (a : α) : Prop := ∃ s, (x.run.run s).1 = .ok a

theorem canGive_pure {a b : α} (h : CanGive (pure a : ExceptT ε (StateM σ) α) b) : a = b := by
  obtain ⟨s, h⟩ := h
  exact Except.ok.inj h

theorem not_canGive_throw {e : ε} {a : α} : ¬ CanGive (throw e : ExceptT ε (StateM σ) α) a := by
  rintro ⟨s, h⟩
  cases h

theorem run_bind_eq_ok {x : ExceptT ε (StateM σ) α} {f : α → ExceptT ε (StateM σ) β} {s u : σ}
    {b : β} (h : (x >>= f).run.run s = (.ok b, u)) :
    ∃ a t, x.run.run s = (.ok a, t) ∧ (f a).run.run t = (.ok b, u) := by
  rw [ExceptT.run_bind, StateT.run_bind] at h
  generalize hr : x.run.run s = r at h
  obtain ⟨outcome, t⟩ := r
  cases outcome with
  | error e => cases h
  | ok a => exact ⟨a, t, rfl, h⟩

theorem run_bind_of_eq_ok {x : ExceptT ε (StateM σ) α}
    {f : α → ExceptT ε (StateM σ) β} {s t : σ} {a : α} (h : x.run.run s = (.ok a, t)) :
    (x >>= f).run.run s = (f a).run.run t := by
  rw [ExceptT.run_bind, StateT.run_bind, h]
  rfl

theorem run_tryCatch_bind {x : ExceptT ε (StateM σ) α} {g : α → β}
    {f : ε → ExceptT ε (StateM σ) β} {s : σ} :
    (tryCatch (x >>= fun a => pure (g a)) f).run.run s =
      match x.run.run s with
      | (.ok a, t) => (.ok (g a), t)
      | (.error e, t) => (f e).run.run t := by
  rw [ExceptT.run_tryCatch, StateT.run_bind, ExceptT.run_bind, StateT.run_bind]
  generalize x.run.run s = r
  obtain ⟨outcome, t⟩ := r
  cases outcome with
  | ok a => rfl
  | error e => rfl

theorem canGive_bind {x : ExceptT ε (StateM σ) α} {f : α → ExceptT ε (StateM σ) β} {b : β}
    (h : CanGive (x >>= f) b) : ∃ a, CanGive x a ∧ CanGive (f a) b := by
  obtain ⟨s, h⟩ := h
  obtain ⟨a, t, ha, hb⟩ := run_bind_eq_ok (Prod.ext h rfl)
  exact ⟨a, ⟨s, congrArg Prod.fst ha⟩, ⟨t, congrArg Prod.fst hb⟩⟩

theorem canGive_lift {x : Except ε α} {a : α}
    (h : CanGive (liftM x : ExceptT ε (StateM σ) α) a) : x = .ok a := by
  cases x with
  | ok b => exact congrArg Except.ok (canGive_pure h)
  | error e => exact absurd h not_canGive_throw

theorem canGive_map {x : ExceptT ε (StateM σ) α} {f : α → β} {b : β} (h : CanGive (f <$> x) b) :
    ∃ a, CanGive x a ∧ f a = b := by
  rw [← bind_pure_comp] at h
  obtain ⟨a, ha, h⟩ := canGive_bind h
  exact ⟨a, ha, canGive_pure h⟩

theorem canGive_tryCatch {x : ExceptT ε (StateM σ) α} {f : ε → ExceptT ε (StateM σ) α} {a : α}
    (h : CanGive (tryCatch x f) a) : CanGive x a ∨ ∃ e, CanGive (f e) a := by
  obtain ⟨s, h⟩ := h
  rw [ExceptT.run_tryCatch, StateT.run_bind] at h
  generalize hr : x.run.run s = r at h
  obtain ⟨outcome, t⟩ := r
  cases outcome with
  | error e => exact .inr ⟨e, t, h⟩
  | ok b => exact .inl ⟨s, by rw [hr]; exact h⟩

theorem canGive_optionMapM {f : α → ExceptT ε (StateM σ) β} {x : Option α} {y : Option β}
    (h : CanGive (x.mapM f) y) : ∀ b ∈ y, ∃ a ∈ x, CanGive (f a) b := by
  cases x with
  | none =>
    obtain rfl := canGive_pure h
    exact fun b hb => by cases hb
  | some a =>
    obtain ⟨b, hb, rfl⟩ := canGive_map h
    intro c hc
    obtain rfl := Option.some.inj hc
    exact ⟨a, rfl, hb⟩

/-- The results of a traversal are given for the items one by one. -/
theorem forall₂_of_canGive_mapM {f : α → ExceptT ε (StateM σ) β} {xs : List α} {ys : List β}
    (h : CanGive (xs.mapM f) ys) : List.Forall₂ (fun x y => CanGive (f x) y) xs ys := by
  induction xs generalizing ys with
  | nil =>
    obtain rfl := canGive_pure h
    exact .nil
  | cons x xs ih =>
    rw [List.mapM_cons] at h
    obtain ⟨y, hy, h⟩ := canGive_bind h
    obtain ⟨zs, hzs, h⟩ := canGive_bind h
    obtain rfl := canGive_pure h
    exact .cons hy (ih hzs)

theorem canGive_mapM {f : α → ExceptT ε (StateM σ) β} {xs : List α} {ys : List β}
    (h : CanGive (xs.mapM f) ys) : ∀ y ∈ ys, ∃ x ∈ xs, CanGive (f x) y :=
  fun _ hy => exists_left_of_mem (forall₂_of_canGive_mapM h) hy

end SchemaToJava.Outcome
