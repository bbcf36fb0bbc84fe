import Instar.Lib.ByteMap

/-!
# Ordered range writes

A list of patches, each a buffer and the offset it goes to, applied one after the other.  What a
byte holds afterwards is decided by the last patch over it: `applyAll_outside` when there is none,
`applyAll_last` when there is one.
-/

namespace Instar

open ByteMap

/-- Apply the patches in order. -/
def applyAll : List (Nat × Buffer) → ByteMap → ByteMap
  | [], m => m
  | w :: ws, m => applyAll ws (m.splice w.1 w.2.len w.2.bytes)

variable {ws vs : List (Nat × Buffer)} {w : Nat × Buffer} {m : ByteMap} {b : Nat}

@[simp] theorem applyAll_nil (m : ByteMap) : applyAll [] m = m := rfl

theorem applyAll_cons (w : Nat × Buffer) (ws : List (Nat × Buffer)) (m : ByteMap) :
    applyAll (w :: ws) m = applyAll ws (m.splice w.1 w.2.len w.2.bytes) := rfl

theorem applyAll_append (ws vs : List (Nat × Buffer)) (m : ByteMap) :
    applyAll (ws ++ vs) m = applyAll vs (applyAll ws m) := by
  induction ws generalizing m with
  | nil => rfl
  | cons w ws ih => exact ih _

/-- The patch covers the byte `b`. -/
def Covers (w : Nat × Buffer) (b : Nat) : Prop := w.1 ≤ b ∧ b < w.1 + w.2.len

instance (w : Nat × Buffer) (b : Nat) : Decidable (Covers w b) :=
  inferInstanceAs (Decidable (_ ∧ _))

/-- A byte that no patch covers keeps its value. -/
theorem applyAll_outside (h : ∀ w ∈ ws, ¬ Covers w b) : applyAll ws m b = m b := by
  induction ws generalizing m with
  | nil => rfl
  | cons w ws ih =>
    have hw : ¬ Covers w b := h w (by simp)
    unfold Covers at hw
    rw [applyAll_cons, ih fun v hv => h v (by simp [hv])]
    exact splice_outside (by omega)

/-- What holds of a byte and of everything that is put there. -/
theorem applyAll_prop {Q : UInt8 → Prop} (h : ∀ w ∈ ws, Covers w b → Q (w.2.bytes (b - w.1)))
    (hm : Q (m b)) : Q (applyAll ws m b) := by
  induction ws generalizing m with
  | nil => exact hm
  | cons w ws ih =>
    refine ih (fun v hv => h v (by simp [hv])) ?_
    by_cases hw : Covers w b
    · rw [splice_mem hw.1 hw.2]
      exact h w (by simp) hw
    · unfold Covers at hw
      rw [splice_outside (by omega)]
      exact hm

/-- A byte that only the first patch covers. -/
theorem applyAll_first (hw : Covers w b) (hvs : ∀ v ∈ vs, ¬ Covers v b) :
    applyAll (w :: vs) m b = w.2.bytes (b - w.1) := by
  rw [applyAll_cons, applyAll_outside hvs]
  exact splice_mem hw.1 hw.2

/-- A byte holds what the last patch over it put there. -/
theorem applyAll_last (hw : Covers w b) (hvs : ∀ v ∈ vs, ¬ Covers v b) :
    applyAll (ws ++ w :: vs) m b = w.2.bytes (b - w.1) := by
  rw [applyAll_append]
  exact applyAll_first hw hvs

/-- Patches at pairwise different places: each is the last over its own bytes. -/
theorem applyAll_mem (hw : w ∈ ws) (hcov : Covers w b)
    (hdisj : ws.Pairwise fun v v' => ∀ b, Covers v b → ¬ Covers v' b) :
    applyAll ws m b = w.2.bytes (b - w.1) := by
  obtain ⟨us, vs, rfl⟩ := List.append_of_mem hw
  refine applyAll_last hcov fun v hv => ?_
  rw [List.pairwise_append] at hdisj
  exact List.rel_of_pairwise_cons hdisj.2.1 hv b hcov

/-- A patch of whole clusters covers the bytes of those clusters. -/
theorem covers_iff {cs q n : Nat} (hcs : 0 < cs) (hoff : w.1 = q * cs) (hlen : w.2.len = n * cs) :
    Covers w b ↔ q ≤ b / cs ∧ b / cs < q + n := by
  unfold Covers
  rw [hoff, hlen, ← add_mul, Nat.le_div_iff_mul_le hcs, Nat.div_lt_iff_lt_mul hcs]

/-- A prefix of two lists in a row ends in the first or in the second. -/
theorem prefix_append_cases {α : Type} {us xs ys : List α} (h : us <+: xs ++ ys) :
    us <+: xs ∨ ∃ t, t <+: ys ∧ us = xs ++ t := by
  rcases List.prefix_or_prefix_of_prefix h (List.prefix_append xs ys) with hle | ⟨t, rfl⟩
  · exact .inl hle
  · exact .inr ⟨t, (List.prefix_append_right_inj xs).mp h, rfl⟩

end Instar
