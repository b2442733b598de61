import SchemaToJava.Java.SourceFile
import SchemaToJava.Proofs.Outcomes

/-!
Two computations side by side. They are related if they fail alike, or else both succeed with
related results; computations that write a source file also have to leave the same draft. Related
steps make related sequences and related traversals.
-/
namespace SchemaToJava.Outcome

variable {ε α α' β β' : Type} {R : α → α' → Prop} {S : β → β' → Prop}

/-- Both computations fail with the same error, or both succeed with related results. -/
inductive Related (R : α → α' → Prop) : Except ε α → Except ε α' → Prop
  | ok {a a'} (h : R a a') : Related R (.ok a) (.ok a')
  | error (e : ε) : Related R (.error e) (.error e)

theorem related_refl {R : α → α → Prop} (h : ∀ a, R a a) (x : Except ε α) : Related R x x := by
  cases x with
  | error e => exact .error e
  | ok a => exact .ok (h a)

/-- Computations are related by what `f` makes of their results if `f` makes the same of them. -/
theorem related_iff_map_eq {f : α → β} {f' : α' → β} {x : Except ε α} {x' : Except ε α'} :
    Related (fun a a' => f a = f' a') x x' ↔ f <$> x = f' <$> x' := by
  constructor
  · rintro (h | e)
    · exact congrArg Except.ok h
    · rfl
  · intro h
    cases x with
    | error e =>
      cases x' with
      | error e' =>
        obtain rfl : e = e' := Except.error.inj h
        exact .error e
      | ok a' => cases h
    | ok a =>
      cases x' with
      | error e' => cases h
      | ok a' => exact .ok (Except.ok.inj h)

theorem Related.bind {x : Except ε α} {x' : Except ε α'} {f : α → Except ε β}
    {f' : α' → Except ε β'} (hx : Related R x x') (hf : ∀ a a', R a a' → Related S (f a) (f' a')) :
    Related S (x >>= f) (x' >>= f') := by
  cases hx with
  | error e => exact .error e
  | ok h => exact hf _ _ h

/-- Computations with the same first step are related if what follows it is. -/
theorem related_bind_same {x : Except ε α} {f : α → Except ε β} {f' : α → Except ε β'}
    (hf : ∀ a, x = .ok a → Related S (f a) (f' a)) : Related S (x >>= f) (x >>= f') := by
  cases x with
  | error e => exact .error e
  | ok a => exact hf a rfl

theorem related_mapM {f : α → Except ε β} {f' : α' → Except ε β'} {c : α → α'}
    (h : ∀ a, Related S (f a) (f' (c a))) (xs : List α) :
    Related (List.Forall₂ S) (xs.mapM f) ((xs.map c).mapM f') := by
  induction xs with
  | nil => exact .ok .nil
  | cons x xs ih =>
    rw [List.map_cons, List.mapM_cons, List.mapM_cons]
    refine (h x).bind fun y y' hy => ih.bind fun ys ys' hys => ?_
    exact .ok (.cons hy hys)

/-- Folds of related steps from related states are related. -/
theorem related_foldlM {σ σ' : Type} {T : σ → σ' → Prop} {f : σ → α → Except ε σ}
    {f' : σ' → α' → Except ε σ'} (h : ∀ s s' a a', T s s' → R a a' → Related T (f s a) (f' s' a'))
    {xs : List α} {xs' : List α'} (hxs : List.Forall₂ R xs xs') {s : σ} {s' : σ'} (hs : T s s') :
    Related T (xs.foldlM f s) (xs'.foldlM f' s') := by
  induction hxs generalizing s s' with
  | nil => exact .ok hs
  | cons hx hxs ih =>
    rw [List.foldlM_cons, List.foldlM_cons]
    exact (h _ _ _ _ hs hx).bind fun t t' ht => ih ht

end SchemaToJava.Outcome

namespace SchemaToJava.Java.Drafting

open Outcome

variable {α α' β β' : Type} {R : α → α' → Prop} {S : β → β' → Prop}

/-- Both computations write the same to a file, and fail alike or succeed with related results. -/
def Related (R : α → α' → Prop) (x : Drafting α) (x' : Drafting α') : Prop :=
  ∀ d, Outcome.Related R (x.run.run d).1 (x'.run.run d).1 ∧ (x.run.run d).2 = (x'.run.run d).2

theorem related_pure {a : α} {a' : α'} (h : R a a') :
    Related R (pure a : Drafting α) (pure a' : Drafting α') :=
  fun _ => ⟨.ok h, rfl⟩

theorem related_refl {R : α → α → Prop} (h : ∀ a, R a a) (x : Drafting α) : Related R x x :=
  fun _ => ⟨Outcome.related_refl h _, rfl⟩

theorem Related.bind {x : Drafting α} {x' : Drafting α'} {f : α → Drafting β}
    {f' : α' → Drafting β'} (hx : Related R x x') (hf : ∀ a a', R a a' → Related S (f a) (f' a')) :
    Related S (x >>= f) (x' >>= f') := by
  intro d
  obtain ⟨hresult, hdraft⟩ := hx d
  rw [ExceptT.run_bind, ExceptT.run_bind, StateT.run_bind, StateT.run_bind]
  generalize x.run.run d = r at hresult hdraft ⊢
  generalize x'.run.run d = r' at hresult hdraft ⊢
  obtain ⟨result, after⟩ := r
  obtain ⟨result', after'⟩ := r'
  obtain rfl : after = after' := hdraft
  cases hresult with
  | error e => exact ⟨.error e, rfl⟩
  | ok h => exact hf _ _ h after

/-- Computations with the same first step are related if what follows it is. -/
theorem related_bind_same (x : Drafting α) {f : α → Drafting β} {f' : α → Drafting β'}
    (hf : ∀ a, Related S (f a) (f' a)) : Related S (x >>= f) (x >>= f') := by
  have hx : Related Eq x x := related_refl (fun _ => rfl) x
  refine hx.bind fun a a' h => ?_
  subst h
  exact hf a

theorem related_ite {c : Prop} [Decidable c] {x y : Drafting α} {x' y' : Drafting α'}
    (hx : Related R x x') (hy : Related R y y') :
    Related R (if c then x else y) (if c then x' else y') := by
  split
  · exact hx
  · exact hy

theorem related_mapM {f : α → Drafting β} {f' : α' → Drafting β'} {c : α → α'}
    (h : ∀ a, Related S (f a) (f' (c a))) (xs : List α) :
    Related (List.Forall₂ S) (xs.mapM f) ((xs.map c).mapM f') := by
  induction xs with
  | nil => exact related_pure .nil
  | cons x xs ih =>
    rw [List.map_cons, List.mapM_cons, List.mapM_cons]
    refine (h x).bind fun y y' hy => ih.bind fun ys ys' hys => ?_
    exact related_pure (.cons hy hys)

/-- Computations that need no file are related in a file as they are without one. -/
theorem related_lift {x : Except GenerationError α} {x' : Except GenerationError α'}
    (h : Outcome.Related R x x') : Related R (liftM x : Drafting α) (liftM x' : Drafting α') := by
  intro d
  cases h with
  | error e => exact ⟨.error e, rfl⟩
  | ok h => exact ⟨.ok h, rfl⟩

end SchemaToJava.Java.Drafting
