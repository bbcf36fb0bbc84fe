import Instar.Lib.ByteMap
import Instar.Lib.Fallible

/-!
# Reading a range piece by piece

A reader that can only serve part of a range at a time is called in a loop.  `pieces next read`
reads `[off, off + len)` by asking `next` for the length of each piece.  When every piece holds the
bytes of `content`, so does the whole; the rule `pieces_ensures` says so for readers that share a
state.
-/

namespace Instar

open Fallible

/-- The first `len` bytes of `out` are those of `content` from `off` on. -/
def Gives (content : Nat → Option UInt8) (off len : Nat) (out : ByteMap) : Prop :=
  ∀ i < len, content (off + i) = some (out i)

variable {content : Nat → Option UInt8} {off len n : Nat} {out rest : ByteMap}

theorem Gives.empty (content : Nat → Option UInt8) (off : Nat) (out : ByteMap) :
    Gives content off 0 out :=
  fun _ hi => absurd hi (Nat.not_lt_zero _)

/-- A piece and what follows it. -/
theorem Gives.append (hout : Gives content off n out) (hrest : Gives content (off + n) len rest) :
    Gives content off (n + len) (out.append n rest) := by
  intro i hi
  unfold ByteMap.append
  split
  · exact hout i ‹_›
  · have h := hrest (i - n) (by omega)
    rwa [show off + n + (i - n) = off + i by omega] at h

theorem Gives.take (h : Gives content off len out) (hn : n ≤ len) : Gives content off n out :=
  fun i hi => h i (by omega)

theorem Gives.congr {content' : Nat → Option UInt8} (h : Gives content off len out)
    (heq : ∀ x, off ≤ x → x < off + len → content' x = content x) : Gives content' off len out :=
  fun i hi => by rw [heq (off + i) (by omega) (by omega), h i hi]

/-- Places of one unit share its index. -/
theorem same_unit {unit off k : Nat} (h : off % unit + k < unit) :
    (off + k) / unit = off / unit ∧ (off + k) % unit = off % unit + k := by
  have hoff := Nat.div_add_mod off unit
  have heq : off + k = unit * (off / unit) + (off % unit + k) := by omega
  constructor
  · rw [heq, Nat.mul_add_div (by omega), Nat.div_eq_of_lt h, add_zero]
  · rw [heq, Nat.mul_add_mod, Nat.mod_eq_of_lt h]

/-- Read `[off, off + len)` in pieces of `next cur rest` bytes, with `rest` bytes left at `cur`.
The fuel bounds the number of pieces. -/
def pieces {σ : Type} (next : Nat → Nat → Nat) (read : Nat → Nat → Fallible σ ByteMap) :
    Nat → Nat → Nat → Fallible σ ByteMap
  | 0, _, len => if len = 0 then pure fun _ => 0 else fail
  | fuel + 1, off, len =>
    if len = 0 then pure fun _ => 0
    else do
      let head ← read off (next off len)
      let rest ← pieces next read fuel (off + next off len) (len - next off len)
      pure (head.append (next off len) rest)

/-- A loop over pieces that hold the content holds the content.  Each piece may use that it lies in
the range asked for. -/
theorem pieces_ensures {σ : Type} {I : σ → Prop} {next : Nat → Nat → Nat}
    {read : Nat → Nat → Fallible σ ByteMap} {lo hi : Nat}
    (hnext : ∀ cur rest, 0 < rest → next cur rest ≤ rest)
    (hread : ∀ cur rest, lo ≤ cur → cur + rest ≤ hi → 0 < rest →
      Ensures I (read cur (next cur rest)) (Gives content cur (next cur rest))) (fuel : Nat)
      (hlo : lo ≤ off)
    (hhi : off + len ≤ hi) : Ensures I (pieces next read fuel off len) (Gives content off len) := by
  -- the loop only ever asks for what is left of the range
  induction fuel generalizing off len with
  | zero =>
    refine .ite (fun h => .pure ?_) (fun _ => .fail)
    exact h ▸ Gives.empty content off _
  | succ fuel ih =>
    refine .ite (fun h => .pure (h ▸ Gives.empty content off _)) (fun h => ?_)
    have hle := hnext off len (by omega)
    refine (hread off len hlo hhi (by omega)).bind fun head hhead => ?_
    refine (ih (by omega) (by omega)).bind fun rest hrest => .pure ?_
    have hwhole := hhead.append hrest
    rwa [show next off len + (len - next off len) = len by omega] at hwhole

end Instar
