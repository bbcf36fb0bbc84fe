/-!
# Computations that end in a result or an error

Taking a successful computation in `Except` apart: a sequence succeeds exactly if its parts do, a
check that did not fail held, and a loop that succeeds keeps what each of its rounds keeps.
-/

namespace Instar

variable {ε α β σ : Type} {f : α → Except ε β} {x : Except ε α} {c : Prop} {e : ε} {b : β}

/-- Fail with `e` if `c` holds. -/
def failIf (c : Prop) [Decidable c] (e : ε) : Except ε Unit := if c then .error e else .ok ()

/-- A check succeeds exactly if the condition does not hold. -/
theorem failIf_eq_ok [Decidable c] {u : Unit} : failIf c e = .ok u ↔ ¬ c := by
  unfold failIf
  split <;> simp [*]

theorem failIf_of_not [Decidable c] (h : ¬ c) : failIf c e = .ok () := if_neg h

/-- Success of a sequence is success of its parts. -/
theorem bind_eq_ok : (x >>= f) = .ok b ↔ ∃ a, x = .ok a ∧ f a = .ok b := by
  cases x with
  | error e => exact ⟨nofun, fun ⟨_, h, _⟩ => nomatch h⟩
  | ok a => exact ⟨fun h => ⟨a, rfl, h⟩, fun ⟨_, ha, h⟩ => Except.ok.inj ha ▸ h⟩

theorem ok_of_bind (h : (x >>= f) = .ok b) : ∃ a, x = .ok a ∧ f a = .ok b := bind_eq_ok.mp h

/-- A check that did not stop a sequence. -/
theorem ok_of_check [Decidable c] {f : Unit → Except ε β}
    (h : (failIf c e >>= f) = .ok b) : ¬ c ∧ f () = .ok b := by
  obtain ⟨u, hu, hf⟩ := ok_of_bind h
  exact ⟨failIf_eq_ok.mp hu, hf⟩

/-- The rule of a loop over a list: an invariant of the part done so far and the state. -/
theorem foldlM_invariant {f : σ → α → Except ε σ} (inv : List α → σ → Prop) {xs : List α} {s s' : σ}
    (hstep : ∀ done x s s', x ∈ xs → inv done s → f s x = .ok s' → inv (done ++ [x]) s')
    (hinit : inv [] s) (h : xs.foldlM f s = .ok s') : inv xs s' := by
  have hrun : ∀ rest done s, (∀ x ∈ rest, x ∈ xs) → inv done s → rest.foldlM f s = .ok s' →
      inv (done ++ rest) s' := by
    intro rest
    induction rest with
    | nil =>
      intro done s _ hinv hrun
      cases hrun
      rwa [List.append_nil]
    | cons x rest ih =>
      intro done s hmem hinv hrun
      obtain ⟨s1, hs1, hrest⟩ := ok_of_bind hrun
      have hinv1 := hstep done x s s1 (hmem x (by simp)) hinv hs1
      have := ih (done ++ [x]) s1 (fun y hy => hmem y (by simp [hy])) hinv1 hrest
      rwa [List.append_assoc, List.singleton_append] at this
  exact hrun xs [] s (fun x hx => hx) hinit h

end Instar
