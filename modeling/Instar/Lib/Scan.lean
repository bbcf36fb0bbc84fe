import Instar.Lib.Fallible
import Mathlib.Data.List.Basic

/-!
# Looking for a place in a range, chunk by chunk

A loop that reads a range in chunks and stops at the first place of a certain kind, or at the first
chunk that cannot be read.  `scan_sound` says what a scan has found out about the whole range, from
an invariant that may depend on the place the loop has come to.
-/

namespace Instar

open Fallible

/-- What a scan of a range comes to. -/
inductive Scan where
  | clean
  | found (place : Nat)
  | unreadable (place : Nat)
deriving DecidableEq, Repr

/-- Scan `[off, off + len)` in chunks; `look cur n` says which of the `n` places from `cur` on are
of the kind looked for.  The fuel bounds the number of chunks. -/
def scan {σ : Type} (chunk : Nat) (look : Nat → Nat → Fallible σ (Nat → Bool)) :
    Nat → Nat → Nat → σ → Scan × σ
  | 0, _, _, s => (.clean, s)
  | fuel + 1, off, len, s =>
    if len = 0 then (.clean, s)
    else
      let n := min len chunk
      match look off n s with
      | (none, s') => (.unreadable off, s')
      | (some kind, s') =>
        match (List.range n).find? kind with
        | some i => (.found (off + i), s')
        | none => scan chunk look fuel (off + n) (len - n) s'

/-- What the outcome of a scan says of the places of the range and of the state it ends in. -/
def Scan.Sound {σ : Type} (kind : Nat → Prop) (I : Nat → σ → Prop) (lo hi : Nat) : Scan × σ → Prop
  | (.clean, s) => I hi s ∧ ∀ x, lo ≤ x → x < hi → ¬ kind x
  | (.found a, _) => lo ≤ a ∧ a < hi ∧ kind a ∧ ∀ x, lo ≤ x → x < a → ¬ kind x
  | (.unreadable _, _) => True

variable {σ : Type} {kind : Nat → Prop} {I : Nat → σ → Prop} {lo hi mid : Nat} {chunk : Nat}
  {look : Nat → Nat → Fallible σ (Nat → Bool)} {result : Scan × σ}

/-- A range that starts with places of another kind. -/
theorem Scan.Sound.extend (h : Sound kind I mid hi result) (hle : lo ≤ mid)
    (hclean : ∀ x, lo ≤ x → x < mid → ¬ kind x) : Sound kind I lo hi result := by
  obtain ⟨outcome, s⟩ := result
  have hjoin : ∀ bound, (∀ x, mid ≤ x → x < bound → ¬ kind x) → ∀ x, lo ≤ x → x < bound →
      ¬ kind x := by
    intro bound hrest x hx hx'
    by_cases hmid : x < mid
    · exact hclean x hx hmid
    · exact hrest x (by omega) hx'
  cases outcome with
  | clean => exact ⟨h.1, hjoin hi h.2⟩
  | found a => exact ⟨Nat.le_trans hle h.1, h.2.1, h.2.2.1, hjoin a h.2.2.2⟩
  | unreadable a => trivial

theorem Scan.Sound.mono {kind' : Nat → Prop} {J : Nat → σ → Prop}
    (h : Sound kind I lo hi result) (hkind : ∀ x, lo ≤ x → x < hi → (kind x ↔ kind' x))
    (hI : ∀ s, I hi s → J hi s) : Sound kind' J lo hi result := by
  obtain ⟨outcome, s⟩ := result
  cases outcome with
  | clean => exact ⟨hI s h.1, fun x hx hx' hk => h.2 x hx hx' ((hkind x hx hx').mpr hk)⟩
  | found a =>
    obtain ⟨hlo, hhi, ha, hbefore⟩ := h
    exact ⟨hlo, hhi, (hkind a hlo hhi).mp ha, fun x hx hx' hk =>
      hbefore x hx hx' ((hkind x hx (by omega)).mpr hk)⟩
  | unreadable a => trivial

/-- A scan whose chunks tell the kind of their places, and carry the invariant from each place the
loop comes to to the next, is right about the range.  The loop comes to a chunk only if no place
before it is of the kind. -/
theorem scan_sound (hchunk : 0 < chunk)
    (hlook : ∀ k n s, lo + k * chunk + n ≤ hi → 0 < n →
      (∀ x, lo ≤ x → x < lo + k * chunk → ¬ kind x) → I (lo + k * chunk) s →
      ∀ marks s', look (lo + k * chunk) n s = (some marks, s') →
        I (lo + k * chunk + n) s' ∧ ∀ i < n, marks i = true ↔ kind (lo + k * chunk + i))
    {s : σ} (hs : I lo s) (hle : lo ≤ hi) :
    Scan.Sound kind I lo hi (scan chunk look (hi - lo) lo (hi - lo) s) := by
  -- the loop stands at a whole number of chunks from the start until it comes to the end
  suffices ∀ fuel off len s, len ≤ fuel → off + len = hi → (∀ x, lo ≤ x → x < off → ¬ kind x) →
      I off s → (len = 0 ∨ ∃ k, off = lo + k * chunk) →
      Scan.Sound kind I lo hi (scan chunk look fuel off len s) from
    this _ lo _ s (Nat.le_refl _) (by omega) (fun _ _ _ => by omega) hs (.inr ⟨0, by omega⟩)
  intro fuel
  induction fuel with
  | zero =>
    intro off len s hfuel hend hclean hI _
    have hoff : off = hi := by omega
    exact ⟨hoff ▸ hI, hoff ▸ hclean⟩
  | succ fuel ih =>
    intro off len s hfuel hend hclean hI hplace
    unfold scan
    split
    · have hoff : off = hi := by omega
      exact ⟨hoff ▸ hI, hoff ▸ hclean⟩
    next hlen =>
      obtain ⟨k, rfl⟩ := hplace.resolve_left hlen
      have hpos : 0 < min len chunk := Nat.lt_min.mpr ⟨by omega, hchunk⟩
      dsimp only
      split
      · trivial
      next marks s' hrun =>
        obtain ⟨hI', hmarks⟩ := hlook k (min len chunk) s (by omega) hpos hclean hI marks s' hrun
        -- a place of the chunk that is not marked is not of the kind
        have hunmarked : ∀ x, lo + k * chunk ≤ x → x < lo + k * chunk + min len chunk →
            ¬ marks (x - (lo + k * chunk)) = true → ¬ kind x := by
          intro x hx hx' hno hkind
          exact hno ((hmarks _ (by omega)).mpr (by rwa [Nat.add_sub_cancel' hx]))
        split
        next i hfind =>
          obtain ⟨hi', hmem, hbefore⟩ := List.find?_range_eq_some.mp hfind
          have hlt : i < min len chunk := List.mem_range.mp hmem
          refine ⟨by omega, by omega, (hmarks i hlt).mp hi', fun x hx hx' => ?_⟩
          by_cases hold : x < lo + k * chunk
          · exact hclean x hx hold
          · have hno := hbefore (x - (lo + k * chunk)) (by omega)
            exact hunmarked x (by omega) (by omega) (by simpa using hno)
        next hfind =>
          have hnone := List.find?_range_eq_none.mp hfind
          have hplace' : len - min len chunk = 0 ∨
              ∃ k', lo + k * chunk + min len chunk = lo + k' * chunk := by
            by_cases hlast : len ≤ chunk
            · exact .inl (by rw [Nat.min_eq_left hlast]; omega)
            · refine .inr ⟨k + 1, ?_⟩
              rw [Nat.min_eq_right (by omega), Nat.succ_mul]
              omega
          refine ih _ _ s' (by omega) (by omega) (fun x hx hx' => ?_) hI' hplace'
          by_cases hold : x < lo + k * chunk
          · exact hclean x hx hold
          · have hno := hnone (x - (lo + k * chunk)) (by omega)
            exact hunmarked x (by omega) hx' (by simpa using hno)

end Instar
