import Mathlib.Tactic.Ring
import Mathlib.Data.Nat.Bitwise

/-!
# Byte maps and big-endian fields

A byte map is a total map from offsets to bytes: a disk, or a buffer whose length is kept
elsewhere.  `splice` is the range copy every buffer and device operation of the model comes down
to; `be` reads a big-endian field and `ofBe` lays one out.  The lemmas say what a splice changes,
what it leaves alone, and that a field written with `ofBe` reads back.
-/

namespace Instar

/-- A byte at every offset. -/
abbrev ByteMap := Nat → UInt8

namespace ByteMap

/-- Copy the first `len` bytes of `src` over the range `[off, off + len)`. -/
def splice (m : ByteMap) (off len : Nat) (src : ByteMap) : ByteMap :=
  fun i => if off ≤ i ∧ i < off + len then src (i - off) else m i

/-- The bytes from `off` on, as a map of their own. -/
def drop (m : ByteMap) (off : Nat) : ByteMap := fun i => m (off + i)

/-- The big-endian number held by the `n` bytes at `off`. -/
def be (m : ByteMap) (off : Nat) : Nat → Nat
  | 0 => 0
  | n + 1 => be m off n * 256 + (m (off + n)).toNat

/-- The `n` big-endian bytes of `v`. -/
def ofBe (v n : Nat) : ByteMap := fun i => UInt8.ofNat (v / 256 ^ (n - 1 - i))

/-- The little-endian number held by the `n` bytes at `off`. -/
def le (m : ByteMap) (off : Nat) : Nat → Nat
  | 0 => 0
  | n + 1 => (m off).toNat + 256 * le m (off + 1) n

/-- The little-endian bytes of `v`. -/
def ofLe (v : Nat) : ByteMap := fun i => UInt8.ofNat (v / 256 ^ i)

/-- The first `n` bytes of `m` and then those of `rest`. -/
def append (m : ByteMap) (n : Nat) (rest : ByteMap) : ByteMap :=
  fun i => if i < n then m i else rest (i - n)

/-- The `n` bytes at `off`. -/
def window (m : ByteMap) (off n : Nat) : List UInt8 := (List.range n).map fun i => m (off + i)

variable {m m' src src' : ByteMap} {off off' len i n v : Nat}

variable (h : ∀ i < n, m (off + i) = m' (off' + i)) {j : Nat}

include h in
theorem window_congr : m.window off n = m'.window off' n :=
  List.map_congr_left fun i hi => h i (List.mem_range.mp hi)

/-! ## Splices -/

@[simp] theorem drop_apply (m : ByteMap) (off i : Nat) : m.drop off i = m (off + i) := rfl

@[simp] theorem drop_zero (m : ByteMap) : m.drop 0 = m := by
  funext i
  simp

theorem drop_drop (m : ByteMap) (a b : Nat) : (m.drop a).drop b = m.drop (a + b) := by
  funext i
  simp [add_assoc]

theorem splice_inside (h : i < len) : m.splice off len src (off + i) = src i := by
  simp [splice, h]

theorem splice_mem (h : off ≤ i) (h' : i < off + len) : m.splice off len src i = src (i - off) := by
  simp [splice, h, h']

theorem splice_outside (h : i < off ∨ off + len ≤ i) : m.splice off len src i = m i := by
  have : ¬ (off ≤ i ∧ i < off + len) := by omega
  simp [splice, this]

@[simp] theorem splice_zero (m : ByteMap) (off : Nat) (src : ByteMap) : m.splice off 0 src = m := by
  funext i
  exact splice_outside (by omega)

/-- Only the copied part of the source matters. -/
theorem splice_congr (h : ∀ i < len, src i = src' i) :
    m.splice off len src = m.splice off len src' := by
  funext i
  unfold splice
  split
  · exact h _ (by omega)
  · rfl

/-- Two adjacent splices are one. -/
theorem splice_splice (m : ByteMap) (off a b : Nat) (src : ByteMap) :
    (m.splice off a src).splice (off + a) b (src.drop a) = m.splice off (a + b) src := by
  funext i
  by_cases hlo : off + a ≤ i
  · by_cases hhi : i < off + a + b
    · rw [splice_mem hlo hhi, splice_mem (by omega) (by omega), drop_apply]
      congr 1
      omega
    · rw [splice_outside (by omega), splice_outside (by omega), splice_outside (by omega)]
  · rw [splice_outside (by omega)]
    by_cases hoff : off ≤ i
    · rw [splice_mem hoff (by omega), splice_mem hoff (by omega)]
    · rw [splice_outside (by omega), splice_outside (by omega)]

/-- A splice inside a longer piece, seen from the store the piece is copied into. -/
theorem splice_of_piece (m : ByteMap) (base size a len : Nat) (src : ByteMap) (h : a + len ≤ size) :
    m.splice base size ((m.drop base).splice a len src) = m.splice (base + a) len src := by
  funext i
  by_cases hin : base ≤ i ∧ i < base + size
  · rw [splice_mem hin.1 hin.2]
    by_cases hsub : base + a ≤ i ∧ i < base + a + len
    · rw [splice_mem (by omega) (by omega), splice_mem hsub.1 hsub.2]
      congr 1
      omega
    · rw [splice_outside (by omega), splice_outside (by omega), drop_apply]
      congr 1
      omega
  · rw [splice_outside (by omega), splice_outside (by omega)]

/-! ## Big-endian fields -/

theorem be_lt (m : ByteMap) (off n : Nat) : m.be off n < 256 ^ n := by
  induction n with
  | zero => simp [be]
  | succ n ih =>
    have hb : (m (off + n)).toNat < 256 := (m (off + n)).toNat_lt
    rw [be, pow_succ]
    omega

include h in
/-- A field depends on its own bytes only. -/
theorem be_congr : m.be off n = m'.be off' n := by
  induction n with
  | zero => rfl
  | succ n ih =>
    rw [be, be, ih fun i hi => h i (by omega), h n (by omega)]

theorem be_drop (m : ByteMap) (off a n : Nat) : (m.drop off).be a n = m.be (off + a) n :=
  be_congr fun i _ => by simp [add_assoc]

theorem le_lt (m : ByteMap) (off n : Nat) : m.le off n < 256 ^ n := by
  induction n generalizing off with
  | zero => simp [le]
  | succ n ih =>
    have hb : (m off).toNat < 256 := (m off).toNat_lt
    have htail := ih (off + 1)
    rw [le, pow_succ]
    omega

include h in
/-- A little-endian field depends on its own bytes only. -/
theorem le_congr : m.le off n = m'.le off' n := by
  induction n generalizing off off' with
  | zero => rfl
  | succ n ih =>
    have hhead := h 0 (by omega)
    have htail : m.le (off + 1) n = m'.le (off' + 1) n := ih fun i hi => by
      have := h (i + 1) (by omega)
      rwa [show off + 1 + i = off + (i + 1) by omega, show off' + 1 + i = off' + (i + 1) by omega]
    rw [le, le, htail]
    simp only [add_zero] at hhead
    rw [hhead]

theorem le_drop (m : ByteMap) (off a n : Nat) : (m.drop off).le a n = m.le (off + a) n :=
  le_congr fun i _ => by simp [add_assoc]

/-- A splice leaves a field outside its range alone. -/
theorem be_splice_outside (h : off' + n ≤ off ∨ off + len ≤ off') :
    (m.splice off len src).be off' n = m.be off' n :=
  be_congr fun i hi => splice_outside (by omega)

@[simp] theorem be_zeros (off n : Nat) : be (fun _ => 0) off n = 0 := by
  induction n with
  | zero => rfl
  | succ n ih => simp [be, ih]

/-- A field inside a spliced range is the source's. -/
theorem be_splice_inside (h : i + n ≤ len) : (m.splice off len src).be (off + i) n = src.be i n :=
  be_congr fun k hk => by rw [add_assoc, splice_inside (by omega)]

/-- The leading `k` bytes of an `n`-byte layout hold the leading digits. -/
theorem be_ofBe_take {k : Nat} (hk : k ≤ n) (hv : v < 256 ^ n) :
    (ofBe v n).be 0 k = v / 256 ^ (n - k) := by
  induction k with
  | zero => simp [be, Nat.div_eq_of_lt hv]
  | succ k ih =>
    have hstep : n - k = (n - 1 - k) + 1 := by omega
    have hend : n - (k + 1) = n - 1 - k := by omega
    have hbyte : (ofBe v n (0 + k)).toNat = v / 256 ^ (n - 1 - k) % 256 := by
      simp [ofBe]
    rw [be, ih (by omega), hbyte, hstep, hend, pow_succ, ← Nat.div_div_eq_div_mul]
    omega

/-- A number laid out in `n` bytes reads back. -/
theorem be_ofBe (hv : v < 256 ^ n) : (ofBe v n).be 0 n = v := by
  rw [be_ofBe_take le_rfl hv]
  simp

/-- A field that has just been written reads back. -/
theorem be_splice_ofBe (hv : v < 256 ^ n) : (m.splice off n (ofBe v n)).be off n = v := by
  have h : (m.splice off n (ofBe v n)).be (off + 0) n = (ofBe v n).be 0 n :=
    be_splice_inside (by omega)
  rw [be_ofBe hv] at h
  exact h

/-! ## The bits of a field -/

/-- The bits of a field are those of its bytes. -/
theorem testBit_be (hi : i < n) (hj : j < 8) :
    (m.be off n).testBit (8 * (n - 1 - i) + j) = (m (off + i)).toNat.testBit j := by
  induction n with
  | zero => omega
  | succ n ih =>
    have hlast : (m (off + n)).toNat < 2 ^ 8 := (m (off + n)).toNat_lt
    rw [be, mul_comm, show (256 : Nat) = 2 ^ 8 by rfl, Nat.testBit_two_pow_mul_add _ hlast]
    rcases Nat.lt_succ_iff_lt_or_eq.mp hi with hlt | rfl
    · rw [if_neg (by omega), ← ih hlt]
      congr 1
      omega
    · rw [if_pos (by omega)]
      congr 1
      omega

/-- The bits of a byte of a number laid out in `n` bytes. -/
theorem testBit_ofBe (hj : j < 8) :
    (ofBe v n i).toNat.testBit j = v.testBit (8 * (n - 1 - i) + j) := by
  have hbyte : (ofBe v n i).toNat = v / 2 ^ (8 * (n - 1 - i)) % 2 ^ 8 := by
    unfold ofBe
    rw [show (256 : Nat) = 2 ^ 8 by rfl, ← Nat.pow_mul]
    simp
  rw [hbyte, Nat.testBit_mod_two_pow, Nat.testBit_div_two_pow]
  simp [hj, add_comm]

/-- Bytes with the same bits are equal. -/
theorem byte_ext {x y : UInt8} (h : ∀ j < 8, x.toNat.testBit j = y.toNat.testBit j) : x = y := by
  apply UInt8.toNat_inj.mp
  apply Nat.eq_of_testBit_eq
  intro j
  by_cases hj : j < 8
  · exact h j hj
  · have hx : x.toNat < 2 ^ j :=
      lt_of_lt_of_le x.toNat_lt (Nat.pow_le_pow_right (by decide) (not_lt.mp hj))
    have hy : y.toNat < 2 ^ j :=
      lt_of_lt_of_le y.toNat_lt (Nat.pow_le_pow_right (by decide) (not_lt.mp hj))
    rw [Nat.testBit_lt_two_pow hx, Nat.testBit_lt_two_pow hy]

/-! ## Little-endian fields -/

theorem le_splice_outside (h : off' + n ≤ off ∨ off + len ≤ off') :
    (m.splice off len src).le off' n = m.le off' n :=
  le_congr fun i hi => splice_outside (by omega)

theorem le_splice_inside (h : i + n ≤ len) : (m.splice off len src).le (off + i) n = src.le i n :=
  le_congr fun k hk => by rw [add_assoc, splice_inside (by omega)]

theorem le_zeros (h : ∀ i < n, m (off + i) = 0) : m.le off n = 0 := by
  induction n generalizing off with
  | zero => rfl
  | succ n ih =>
    have hhead := h 0 (by omega)
    have htail : m.le (off + 1) n = 0 := ih fun i hi => by
      have := h (i + 1) (by omega)
      rwa [show off + 1 + i = off + (i + 1) by omega]
    rw [le, htail]
    simp only [add_zero] at hhead
    rw [hhead]
    rfl

/-- The digits from the `off`-th on. -/
theorem le_ofLe_drop (v off n : Nat) : (ofLe v).le off n = v / 256 ^ off % 256 ^ n := by
  induction n generalizing off with
  | zero => simp [le, Nat.mod_one]
  | succ n ih =>
    have hbyte : (ofLe v off).toNat = v / 256 ^ off % 256 := by simp [ofLe]
    rw [le, ih, hbyte, pow_succ 256 off, ← Nat.div_div_eq_div_mul, pow_succ 256 n,
      mul_comm (256 ^ n), Nat.mod_mul]

theorem le_splice_ofLe_mod : (m.splice off n (ofLe v)).le off n = v % 256 ^ n := by
  have h : (m.splice off n (ofLe v)).le (off + 0) n = (ofLe v).le 0 n := le_splice_inside (by omega)
  rw [le_ofLe_drop, pow_zero, Nat.div_one] at h
  exact h

/-- A little-endian field that has just been written reads back. -/
theorem le_splice_ofLe (hv : v < 256 ^ n) : (m.splice off n (ofLe v)).le off n = v := by
  rw [le_splice_ofLe_mod, Nat.mod_eq_of_lt hv]

end ByteMap

/-! ## Buffers -/

/-- A byte slice: its length and its bytes (those past `len` are not part of it). -/
structure Buffer where
  len : Nat
  bytes : ByteMap

namespace Buffer

/-- The sub-slice `[off, off + n)`. -/
def slice (b : Buffer) (off n : Nat) : Buffer := ⟨n, b.bytes.drop off⟩

/-- Copy a slice over `[off, off + s.len)`. -/
def patch (b : Buffer) (off : Nat) (s : Buffer) : Buffer :=
  { b with bytes := b.bytes.splice off s.len s.bytes }

/-- The big-endian field of `n` bytes at `off`. -/
def be (b : Buffer) (off n : Nat) : Nat := b.bytes.be off n

@[simp] theorem patch_bytes (b : Buffer) (off : Nat) (s : Buffer) :
    (b.patch off s).bytes = b.bytes.splice off s.len s.bytes := rfl

end Buffer

/-! ## Masks -/

/-- Masking with a run of ones is a quotient and a remainder. -/
theorem and_run_eq (e a b : Nat) : e &&& ((2 ^ b - 1) * 2 ^ a) = e / 2 ^ a % 2 ^ b * 2 ^ a := by
  apply Nat.eq_of_testBit_eq
  intro i
  rw [Nat.testBit_and, Nat.testBit_mul_two_pow, Nat.testBit_mul_two_pow,
    Nat.testBit_two_pow_sub_one, Nat.testBit_mod_two_pow, Nat.testBit_div_two_pow]
  by_cases ha : a ≤ i
  · have hia : i - a + a = i := by omega
    by_cases hb : i - a < b <;> simp [ha, hb, hia]
  · simp [ha]

end Instar
