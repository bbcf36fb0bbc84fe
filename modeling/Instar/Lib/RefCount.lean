import Mathlib.Algebra.BigOperators.Group.Finset.Basic
import Mathlib.Algebra.Order.BigOperators.Group.Finset

/-!
# Reference counts

A finite family of pointers `p ∈ S`, each of which holds some number of references to every object.
`total` is the number of references to an object.  The rules are the ones a reference-counted store
needs: what replacing one pointer does to the totals, and that an object with a single reference is
named by no other pointer.
-/

namespace Instar.RefCount

open Finset

variable {ι κ : Type} {S : Finset ι} {names names' : ι → κ → Nat} {p q : ι} {c : κ}

/-- The number of references the pointers of `S` hold to `c`. -/
def total (S : Finset ι) (names : ι → κ → Nat) (c : κ) : Nat := ∑ p ∈ S, names p c

theorem le_total (hp : p ∈ S) : names p c ≤ total S names c :=
  single_le_sum (f := fun q => names q c) (fun _ _ => Nat.zero_le _) hp

theorem total_congr (h : ∀ q ∈ S, names' q c = names q c) : total S names' c = total S names c :=
  sum_congr rfl h

/-- Replacing one pointer. -/
theorem total_update [DecidableEq ι] (hp : p ∈ S) (hne : ∀ q ∈ S, q ≠ p → names' q c = names q c) :
    total S names' c + names p c = total S names c + names' p c := by
  unfold total
  rw [← add_sum_erase S (fun q => names' q c) hp, ← add_sum_erase S (fun q => names q c) hp]
  have hrest : ∑ q ∈ S.erase p, names' q c = ∑ q ∈ S.erase p, names q c := by
    refine sum_congr rfl fun q hq => ?_
    exact hne q (mem_of_mem_erase hq) (ne_of_mem_erase hq)
  omega

/-- Two pointers together hold at most all references. -/
theorem add_le_total [DecidableEq ι] (hp : p ∈ S) (hq : q ∈ S) (hpq : p ≠ q) :
    names p c + names q c ≤ total S names c := by
  unfold total
  rw [← add_sum_erase S (fun q => names q c) hp]
  have hle : names q c ≤ ∑ r ∈ S.erase p, names r c :=
    single_le_sum (f := fun r => names r c) (fun _ _ =>
      Nat.zero_le _) (mem_erase.mpr ⟨hpq.symm, hq⟩)
  omega

/-- An object that nothing refers to. -/
theorem names_eq_zero (hp : p ∈ S) (h : total S names c = 0) : names p c = 0 :=
  Nat.le_zero.mp (h ▸ le_total hp)

end Instar.RefCount
