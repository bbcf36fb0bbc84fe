import Mathlib.Data.List.Basic

/-!
# Computations that may stop with an error and keep their state

A computation of `Attempt ε σ α` runs on a state and ends in a result or an error, in either case
with a state.  `Keeps P m` says that every run of `m` that starts with `P` ends with it, `Ensures P
m Q` also that a result has `Q`; their rules take a computation apart along its binds.
-/

namespace Instar

/-- A computation on a state of type `σ` that may stop with an error. -/
def Attempt (ε σ α : Type) : Type := σ → Except ε α × σ

namespace Attempt

variable {ε σ α β : Type}

instance : Monad (Attempt ε σ) where
  pure a := fun s => (.ok a, s)
  bind m f := fun s =>
    match m s with
    | (.error e, s') => (.error e, s')
    | (.ok a, s') => f a s'

/-- Stop and change nothing. -/
def stop (e : ε) : Attempt ε σ α := fun s => (.error e, s)

/-- A result or an error that does not depend on the state. -/
def ofExcept : Except ε α → Attempt ε σ α
  | .error e => stop e
  | .ok a => pure a

/-- Stop unless `c`. -/
def require (c : Prop) [Decidable c] (e : ε) : Attempt ε σ Unit := if c then pure () else stop e

/-- The state. -/
def get : Attempt ε σ σ := fun s => (.ok s, s)

/-- Change the state. -/
def modify (f : σ → σ) : Attempt ε σ Unit := fun s => (.ok (), f s)

/-- Run a computation on a part of the state. -/
def onPart {τ : Type} (part : σ → τ) (put : τ → σ → σ) (m : Attempt ε τ α) : Attempt ε σ α :=
  fun s =>
  ((m (part s)).1, put (m (part s)).2 s)

/-- `for x in xs`. -/
def forEach (body : α → Attempt ε σ Unit) : List α → Attempt ε σ Unit
  | [] => pure ()
  | x :: xs => do
      body x
      forEach body xs

variable {m : Attempt ε σ α} {f : α → Attempt ε σ β} {s s' : σ} {x : Except ε α} {c : Prop}
  {e : ε} {a : α}

theorem bind_of_error (h : m s = (.error e, s')) : (m >>= f) s = (.error e, s') := by
  show (match m s with
    | (.error e, s') => (Except.error e, s')
    | (.ok a, s') => f a s') = _
  rw [h]

theorem bind_of_ok (h : m s = (.ok a, s')) : (m >>= f) s = f a s' := by
  show (match m s with
    | (.error e, s') => (Except.error e, s')
    | (.ok a, s') => f a s') = _
  rw [h]

theorem require_ok [Decidable c] (h : c) : require c e s = (.ok (), s) := by
  unfold require
  rw [if_pos h]
  rfl

/-- The two halves of a run that succeeds. -/
theorem ok_of_bind {b : β} (h : (m >>= f) s = (.ok b, s')) :
    ∃ a s1, m s = (.ok a, s1) ∧ f a s1 = (.ok b, s') := by
  cases hrun : m s with
  | mk result s1 =>
    cases result with
    | error e =>
      rw [bind_of_error hrun] at h
      cases h
    | ok a =>
      rw [bind_of_ok hrun] at h
      exact ⟨a, s1, rfl, h⟩

theorem ok_of_ofExcept (h : (ofExcept x : Attempt ε σ α) s = (.ok a, s')) : x = .ok a ∧ s' = s := by
  cases x with
  | error e => cases h
  | ok b =>
    cases h
    exact ⟨rfl, rfl⟩

variable {P : σ → Prop} {Q : α → Prop} {R : β → Prop}

/-- From a state with `P` every run, stopped or not, ends in one, and a result it gives has `Q`. -/
def Ensures (P : σ → Prop) (m : Attempt ε σ α) (Q : α → Prop) : Prop :=
  ∀ s, P s → P (m s).2 ∧ ∀ a, (m s).1 = .ok a → Q a

/-- From a state with `P` every run, stopped or not, ends in one. -/
def Keeps (P : σ → Prop) (m : Attempt ε σ α) : Prop := ∀ s, P s → P (m s).2

theorem Ensures.keeps (h : Ensures P m Q) : Keeps P m := fun s hs => (h s hs).1

theorem Keeps.ensures (h : Keeps P m) : Ensures P m fun _ => True :=
  fun s hs => ⟨h s hs, fun _ _ => trivial⟩

theorem Keeps.pure : Keeps P (pure a : Attempt ε σ α) := fun _ hs => hs

theorem Ensures.pure (h : Q a) : Ensures P (pure a : Attempt ε σ α) Q := by
  intro s hs
  refine ⟨hs, fun a' ha' => ?_⟩
  cases ha'
  exact h

/-- What a run of two halves ends with, whether or not it gets past the first. -/
theorem after_bind {S : σ → Prop} (hm : P (m s).2) (hstop : ∀ s, P s → S s)
    (hf : ∀ a s, P s → S (f a s).2) : S ((m >>= f) s).2 := by
  cases hrun : m s with
  | mk result s' =>
    rw [hrun] at hm
    cases result with
    | error e =>
      rw [bind_of_error hrun]
      exact hstop s' hm
    | ok a =>
      rw [bind_of_ok hrun]
      exact hf a s' hm

theorem Keeps.bind (hm : Keeps P m) (hf : ∀ a, Keeps P (f a)) : Keeps P (m >>= f) :=
  fun s hs => after_bind (hm s hs) (fun _ h => h) hf

theorem Ensures.bind (hm : Ensures P m Q) (hf : ∀ a, Q a → Ensures P (f a) R) :
    Ensures P (m >>= f) R := by
  intro s hs
  obtain ⟨hend, hresult⟩ := hm s hs
  cases hrun : m s with
  | mk result s' =>
    rw [hrun] at hend hresult
    cases result with
    | error e =>
      rw [bind_of_error hrun]
      exact ⟨hend, nofun⟩
    | ok a =>
      rw [bind_of_ok hrun]
      exact hf a (hresult a rfl) s' hend

theorem Ensures.get_bind {f : σ → Attempt ε σ β} (hf : ∀ s, P s → Ensures P (f s) R) :
    Ensures P (get >>= f) R := fun s hs => hf s hs s hs

theorem Keeps.require [Decidable c] : Keeps P (require c e) := by
  intro s hs
  unfold Attempt.require
  split <;> exact hs

/-- What comes after a test that stops the run may use it. -/
theorem Ensures.require [Decidable c] : Ensures P (require c e) fun _ => c := by
  intro s hs
  unfold Attempt.require
  split
  next h => exact ⟨hs, fun _ _ => h⟩
  · exact ⟨hs, nofun⟩

theorem Keeps.ofExcept : Keeps P (ofExcept x) := by
  intro s hs
  cases x <;> exact hs

end Attempt

end Instar
