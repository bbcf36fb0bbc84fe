import Instar.Lib.Fallible

/-!
# Pre- and postconditions

`Triple P m Q` speaks of the runs of `m` that succeed: from a state with `P` they end in a state
with `Q`.  `Total P m Q` says also that they succeed.  Beside the rules for binds there is one for
`forRange`, a loop that counts.
-/

namespace Instar

namespace Fallible

variable {σ α β : Type}

/-- From a state with `P`, a run that succeeds ends with a result and a state that have `Q`. -/
def Triple (P : σ → Prop) (m : Fallible σ α) (Q : α → σ → Prop) : Prop :=
  ∀ s a s', P s → m s = (some a, s') → Q a s'

variable {P P' : σ → Prop} {m m' : Fallible σ α} {f : α → Fallible σ β} {Q Q' : α → σ → Prop}
  {R : β → σ → Prop} {c : Prop} {a : α}

theorem Triple.pure (h : ∀ s, P s → Q a s) : Triple P (pure a) Q := by
  intro s a' s' hs hrun
  cases hrun
  exact h s hs

theorem Triple.fail : Triple P (fail : Fallible σ α) Q := fun _ _ _ _ hrun => nomatch hrun

theorem Triple.bind (hm : Triple P m Q) (hf : ∀ a, Triple (Q a) (f a) R) :
    Triple P (m >>= f) R := by
  intro s b s' hs hrun
  obtain ⟨a, s1, hfirst, hrest⟩ := eq_some_of_bind hrun
  exact hf a s1 b s' (hm s a s1 hs hfirst) hrest

theorem Triple.mono (h : Triple P m Q) (hP : ∀ s, P' s → P s) (hQ : ∀ a s, Q a s → Q' a s) :
    Triple P' m Q' :=
  fun s a s' hs hrun => hQ a s' (h s a s' (hP s hs) hrun)

theorem Triple.ite [Decidable c] (h : c → Triple P m Q) (h' : ¬ c → Triple P m' Q) :
    Triple P (if c then m else m') Q := by
  split
  · exact h ‹_›
  · exact h' ‹_›

/-- A precondition that does not speak of the state. -/
theorem Triple.assume (h : c → Triple P m Q) : Triple (fun s => c ∧ P s) m Q :=
  fun s a s' hs hrun => h hs.1 s a s' hs.2 hrun

theorem Triple.require [Decidable c] : Triple P (require c) fun _ s => c ∧ P s := by
  unfold Fallible.require
  by_cases h : c
  · rw [dif_pos h]
    exact .pure fun s hs => ⟨h, hs⟩
  · rw [dif_neg h]
    exact .fail

/-- From a state with `P` a run succeeds, and ends with a result and a state that have `Q`. -/
def Total (P : σ → Prop) (m : Fallible σ α) (Q : α → σ → Prop) : Prop :=
  ∀ s, P s → ∃ a s', m s = (some a, s') ∧ Q a s'

theorem Total.pure (h : ∀ s, P s → Q a s) : Total P (pure a) Q := fun s hs => ⟨a, s, rfl, h s hs⟩

theorem Total.bind (hm : Total P m Q) (hf : ∀ a, Total (Q a) (f a) R) : Total P (m >>= f) R := by
  intro s hs
  obtain ⟨a, s1, hfirst, ha⟩ := hm s hs
  obtain ⟨b, s', hrest, hb⟩ := hf a s1 ha
  exact ⟨b, s', (bind_of_some hfirst).trans hrest, hb⟩

theorem Total.assume (h : c → Total P m Q) : Total (fun s => c ∧ P s) m Q :=
  fun s hs => h hs.1 s hs.2

theorem Total.require [Decidable c] (h : c) : Total P (require c) fun _ => P := by
  unfold Fallible.require
  rw [dif_pos h]
  exact .pure fun _ hs => hs

theorem Total.ofOption {o : Option α} (h : o = some a) :
    Total P (ofOption o) fun b s => b = a ∧ P s := by
  subst h
  exact .pure fun _ hs => ⟨rfl, hs⟩

/-! ## Loops -/

/-- `for i in lo..hi`, with the loop variables in `x`; there are `n` rounds left. -/
def forRange (body : Nat → β → Fallible σ β) : (n lo : Nat) → β → Fallible σ β
  | 0, _, x => pure x
  | n + 1, lo, x => do
      let y ← body lo x
      forRange body n (lo + 1) y

theorem Triple.forRange {body : Nat → β → Fallible σ β} (Inv : Nat → β → σ → Prop) {lo hi : Nat}
    (hbody : ∀ i x, lo ≤ i → i < hi → Triple (Inv i x) (body i x) (Inv (i + 1))) (hle : lo ≤ hi)
    (x : β) : Triple (Inv lo x) (forRange body (hi - lo) lo x) (Inv hi) := by
  generalize hn : hi - lo = n
  induction n generalizing lo x with
  | zero =>
    have heq : lo = hi := by omega
    subst heq
    exact .pure fun _ hs => hs
  | succ n ih =>
    refine (hbody lo x (Nat.le_refl _) (by omega)).bind fun y => ?_
    exact ih (fun i x hlo hhi => hbody i x (by omega) hhi) (by omega) y (by omega)

end Fallible

end Instar
