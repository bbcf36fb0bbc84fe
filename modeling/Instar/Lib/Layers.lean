import Instar.Lib.Pieces

/-!
# Layered content

A stack of layers, each of which may leave a place to the layers below it.  `layered` is the content
of the whole stack: the first layer that does not leave the place decides, and zero is at the
bottom.
-/

namespace Instar

open Fallible

/-- What one layer has at one place: nothing of its own, a byte, or something it cannot give. -/
inductive Contribution where
  | absent
  | gives (b : UInt8)
  | refused
deriving DecidableEq, Repr

/-- The content of a stack of layers, the top one first. -/
def layered : List (Nat → Contribution) → Nat → Option UInt8
  | [], _ => some 0
  | layer :: rest, x =>
    match layer x with
    | .absent => layered rest x
    | .gives b => some b
    | .refused => none

variable {layer : Nat → Contribution} {rest : List (Nat → Contribution)} {x off len : Nat}
  {b : UInt8} {out : ByteMap} {σ : Type}

theorem layered_absent (h : layer x = .absent) : layered (layer :: rest) x = layered rest x := by
  simp only [layered, h]

theorem layered_gives (h : layer x = .gives b) : layered (layer :: rest) x = some b := by
  simp only [layered, h]

/-- Layers that leave a place do not count there. -/
theorem layered_append {above : List (Nat → Contribution)} (h : ∀ l ∈ above, l x = .absent) :
    layered (above ++ rest) x = layered rest x := by
  induction above with
  | nil => rfl
  | cons l above ih =>
    rw [List.cons_append, layered_absent (h l (by simp))]
    exact ih fun l hl => h l (by simp [hl])

/-- The layers of `above` leave the whole range `[off, off + len)`, and its first place in any
case. -/
def Absent (layer : Nat → Contribution) (off len : Nat) : Prop :=
  ∀ x, off ≤ x → x < off + max len 1 → layer x = .absent

/-- What a reader of the layers below does for the ranges in `[lo, hi)` that this layer leaves. The
first place of an empty range counts too. -/
def Descends {σ : Type} (I : σ → Prop) (layer : Nat → Contribution) (content : Nat → Option UInt8)
    (below : Nat → Nat → Fallible σ ByteMap) (lo hi : Nat) : Prop :=
  ∀ off len, lo ≤ off → off + len ≤ hi → off + max len 1 ≤ max hi (lo + 1) → Absent layer off len →
    Ensures I (below off len) (Gives content off len)

theorem Descends.mono {I : σ → Prop} {content : Nat → Option UInt8}
    {below : Nat → Nat → Fallible σ ByteMap} {lo hi lo' hi' : Nat}
    (h : Descends I layer content below lo hi)
    (hlo : lo ≤ lo') (hhi : hi' ≤ hi) (hin : lo' < hi) : Descends I layer content below lo' hi' :=
  fun off len h1 h2 h3 => h off len (by omega) (by omega) (by omega)

/-- The whole range, when the layer leaves all of it. -/
theorem Descends.whole {I : σ → Prop} {below : Nat → Nat → Fallible σ ByteMap}
    (h : Descends I layer (layered rest) below off (off + len)) (habsent : Absent layer off len) :
    Ensures I (below off len) (Gives (layered (layer :: rest)) off len) :=
  (h off len le_rfl le_rfl (by omega) habsent).mono fun _ hout => hout.congr
    fun x hlo hhi => layered_absent (habsent x hlo (by omega))

/-- Bytes read from below are the content where this layer leaves them. -/
theorem Gives.of_absent (habsent : Absent layer off len)
    (h : Gives (layered rest) off len out) : Gives (layered (layer :: rest)) off len out :=
  h.congr fun x hlo hhi => layered_absent (habsent x hlo (by omega))

/-- A layer's own bytes are the content. -/
theorem Gives.of_gives (h : ∀ i < len, layer (off + i) = .gives (out i)) :
    Gives (layered (layer :: rest)) off len out :=
  fun i hi => layered_gives (h i hi)

end Instar
