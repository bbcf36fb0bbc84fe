/-!
# Computations that may fail and keep their state

A computation of `Fallible σ α` runs on a state and may fail; a failure still leaves a state behind,
which later computations see.  `Ensures I m Q` says that `m` keeps the invariant `I`, whether it
succeeds or not, and that the result of a success satisfies `Q`.  The rules below take a computation
apart along its binds.
-/

namespace Instar

/-- A computation on a state of type `σ` that may fail. -/
def Fallible (σ α : Type) : Type := σ → Option α × σ

namespace Fallible

variable {σ α β : Type}

instance : Monad (Fallible σ) where
  pure a := fun s => (some a, s)
  bind m f := fun s =>
    match m s with
    | (none, s') => (none, s')
    | (some a, s') => f a s'

/-- Fail and change nothing. -/
def fail : Fallible σ α := fun s => (none, s)

/-- A result that does not depend on the state. -/
def ofOption : Option α → Fallible σ α
  | none => fail
  | some a => pure a

/-- Go on only if `c` holds, and with the proof that it does. -/
def require (c : Prop) [Decidable c] : Fallible σ (PLift c) :=
  if h : c then pure ⟨h⟩ else fail

/-- From a state with `I`, the computation ends in one with `I`, and a result it gives has `Q`. -/
def Ensures (I : σ → Prop) (m : Fallible σ α) (Q : α → Prop) : Prop :=
  ∀ s, I s → I (m s).2 ∧ ∀ a, (m s).1 = some a → Q a

variable {I : σ → Prop} {m m' : Fallible σ α} {f : α → Fallible σ β} {P Q : α → Prop} {R : β → Prop}
  {c : Prop} {o : Option α} {a : α}

theorem Ensures.pure (h : Q a) : Ensures I (pure a) Q := by
  intro s hI
  refine ⟨hI, fun a' ha' => ?_⟩
  cases ha'
  exact h

theorem Ensures.fail : Ensures I (fail : Fallible σ α) Q := fun _ hI => ⟨hI, fun _ h => nomatch h⟩

theorem bind_of_none {s s' : σ} (h : m s = (none, s')) : (m >>= f) s = (none, s') := by
  show (match m s with
    | (none, s') => (none, s')
    | (some a, s') => f a s') = _
  rw [h]

theorem bind_of_some {s s' : σ} (h : m s = (some a, s')) : (m >>= f) s = f a s' := by
  show (match m s with
    | (none, s') => (none, s')
    | (some a, s') => f a s') = _
  rw [h]

/-- The two halves of a run that succeeds. -/
theorem eq_some_of_bind {s s' : σ} {b : β} (h : (m >>= f) s = (some b, s')) :
    ∃ a s1, m s = (some a, s1) ∧ f a s1 = (some b, s') := by
  cases hrun : m s with
  | mk result s1 =>
    cases result with
    | none =>
      rw [bind_of_none hrun] at h
      cases h
    | some a =>
      rw [bind_of_some hrun] at h
      exact ⟨a, s1, rfl, h⟩

/-- Sequencing, when the first step also says something of the state it ends in. -/
theorem Ensures.bind_state {J : α → σ → Prop}
    (hm : ∀ s, I s → I (m s).2 ∧ ∀ a, (m s).1 = some a → J a (m s).2)
    (hf : ∀ a s, I s → J a s → I (f a s).2 ∧ ∀ b, (f a s).1 = some b → R b) :
    Ensures I (m >>= f) R := by
  intro s hI
  obtain ⟨hI1, hJ⟩ := hm s hI
  cases hrun : m s with
  | mk result s1 =>
    rw [hrun] at hI1 hJ
    cases result with
    | none =>
      rw [bind_of_none hrun]
      exact ⟨hI1, fun _ h => nomatch h⟩
    | some a =>
      rw [bind_of_some hrun]
      exact hf a s1 hI1 (hJ a rfl)

theorem Ensures.bind (hm : Ensures I m P) (hf : ∀ a, P a → Ensures I (f a) R) :
    Ensures I (m >>= f) R :=
  .bind_state (J := fun a _ => P a) hm fun a s hI hP => hf a hP s hI

theorem Ensures.of_run (h : Ensures I m Q) {s s' : σ} (hs : I s) (hrun : m s = (some a, s')) :
    I s' ∧ Q a := by
  have hm := h s hs
  rw [hrun] at hm
  exact ⟨hm.1, hm.2 a rfl⟩

theorem Ensures.mono (h : Ensures I m P) (hPQ : ∀ a, P a → Q a) : Ensures I m Q :=
  fun s hI => ⟨(h s hI).1, fun a ha => hPQ a ((h s hI).2 a ha)⟩

/-- A second fact about every result. -/
theorem Ensures.and (h : Ensures I m P) (hQ : ∀ s a, (m s).1 = some a → Q a) :
    Ensures I m (fun a => P a ∧ Q a) :=
  fun s hI => ⟨(h s hI).1, fun a ha => ⟨(h s hI).2 a ha, hQ s a ha⟩⟩

theorem Ensures.require [Decidable c] :
    Ensures I (require c : Fallible σ (PLift c)) (fun _ => True) := by
  unfold Fallible.require
  by_cases h : c
  · rw [dif_pos h]
    exact .pure trivial
  · rw [dif_neg h]
    exact .fail

theorem Ensures.ofOption (h : ∀ a, o = some a → Q a) : Ensures I (ofOption o) Q := by
  cases o with
  | none => exact .fail
  | some a => exact .pure (h a rfl)

theorem Ensures.ite [Decidable c] (h : c → Ensures I m Q)
    (h' : ¬ c → Ensures I m' Q) : Ensures I (if c then m else m') Q := by
  split
  · exact h ‹_›
  · exact h' ‹_›

/-! ## Computations that keep an invariant -/

/-- From a state with `I` the computation ends in one with `I`, whether it succeeds or not. -/
def Keeps (I : σ → Prop) (m : Fallible σ α) : Prop := ∀ s, I s → I (m s).2

theorem Ensures.keeps (h : Ensures I m Q) : Keeps I m := fun s hs => (h s hs).1

theorem Keeps.ensures (h : Keeps I m) : Ensures I m fun _ => True :=
  fun s hs => ⟨h s hs, fun _ _ => trivial⟩

theorem Keeps.pure : Keeps I (pure a : Fallible σ α) := fun _ hs => hs

theorem Keeps.fail : Keeps I (fail : Fallible σ α) := fun _ hs => hs

theorem Keeps.ofOption : Keeps I (ofOption o) := by
  cases o <;> exact fun _ hs => hs

theorem Keeps.require [Decidable c] : Keeps I (require c) := Ensures.require.keeps

theorem Keeps.bind (hm : Keeps I m) (hf : ∀ a, Keeps I (f a)) : Keeps I (m >>= f) :=
  (hm.ensures.bind fun a _ => (hf a).ensures).keeps

theorem Keeps.ite [Decidable c] (h : Keeps I m) (h' : Keeps I m') :
    Keeps I (if c then m else m') := by
  split
  · exact h
  · exact h'

end Fallible

end Instar
