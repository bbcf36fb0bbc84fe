import Instar.Qcow2.Refcount

/-!
# Refcount entries of every width

`refcountIn` reads an entry of a refcount block through the accessor of `crates/snapshot`.  Setting
an entry changes that entry and no other, whatever the width: the wide entries are
fields of their own, the packed ones are bits of one byte.
-/

namespace Instar.Qcow2

open ByteMap

/-- The refcount widths a header can declare. -/
def LegalWidth (bits : Nat) : Prop := bits ∈ [1, 2, 4, 8, 16, 32, 64]

instance (bits : Nat) : Decidable (LegalWidth bits) := inferInstanceAs (Decidable (_ ∈ _))

/-- The entry `j` of a refcount block; zero where there is none. -/
def refcountIn (bits : Nat) (block : Buffer) (j : Nat) : Nat :=
  match readRefcountInBlock block j bits with
  | .ok v => v
  | .error _ => 0

variable {j bits per v n : Nat} {block' block : Buffer}

theorem readPacked_eq (block : Buffer) (h : j / per < block.len) : readPacked block j bits per =
      .ok ((block.bytes (j / per)).toNat >>> (bits * (j % per)) % 2 ^ bits) :=
  if_neg (not_le.mpr h)

theorem readWide_eq (block : Buffer) (h : j * n + n ≤ block.len) :
    readWide block j n = .ok (block.be (j * n) n) :=
  if_neg (not_lt.mpr h)

/-! ## Packed entries -/

/-- Setting the `bits` bits at `pos` of a number: its bits there are those of the value, the others
stay. -/
theorem testBit_setBits {old pos : Nat} (hv : v < 2 ^ bits) (i : Nat) :
    (old - (old >>> pos % 2 ^ bits) <<< pos ||| v <<< pos).testBit i =
      if pos ≤ i ∧ i < pos + bits then v.testBit (i - pos) else old.testBit i := by
  have hcleared : old - (old >>> pos % 2 ^ bits) <<< pos =
      2 ^ (pos + bits) * (old / 2 ^ (pos + bits)) + old % 2 ^ pos := by
    have hlow : 2 ^ pos * (old / 2 ^ pos) + old % 2 ^ pos = old := Nat.div_add_mod _ _
    have hmid : 2 ^ bits * (old / 2 ^ pos / 2 ^ bits) + old / 2 ^ pos % 2 ^ bits = old / 2 ^ pos :=
      Nat.div_add_mod _ _
    rw [Nat.shiftRight_eq_div_pow, Nat.shiftLeft_eq, Nat.pow_add, ← Nat.div_div_eq_div_mul]
    rw [← hmid, mul_add] at hlow
    rw [mul_comm (old / 2 ^ pos % 2 ^ bits), mul_assoc]
    omega
  have hlo : old % 2 ^ pos < 2 ^ (pos + bits) := lt_of_lt_of_le (Nat.mod_lt _ (Nat.two_pow_pos _))
      (Nat.pow_le_pow_right (by decide) (Nat.le_add_right _ _))
  rw [Nat.testBit_or, hcleared, Nat.testBit_two_pow_mul_add _ hlo, Nat.testBit_mod_two_pow,
    Nat.testBit_div_two_pow, Nat.testBit_shiftLeft]
  by_cases hin : pos ≤ i ∧ i < pos + bits
  · simp [hin, show ¬ i < pos by omega]
  · rw [if_neg hin]
    by_cases hlt : i < pos
    · simp [hlt, show ¬ pos ≤ i by omega, show i < pos + bits by omega]
    · have hbit : v.testBit (i - pos) = false :=
        Nat.testBit_lt_two_pow (lt_of_lt_of_le hv (Nat.pow_le_pow_right (by decide) (by omega)))
      simp [hbit, show ¬ i < pos + bits by omega, show i - (pos + bits) + (pos + bits) = i by omega]

/-- Setting one of the packed entries of a byte leaves the others. -/
theorem packed_setBits {old k k' : Nat} (hv : v < 2 ^ bits) (hper : bits * per = 8)
    (hk' : k' < per) :
    (UInt8.ofNat (old - (old >>> (bits * k) % 2 ^ bits) <<< (bits * k) ||| v <<< (bits * k))).toNat
      >>> (bits * k') % 2 ^ bits = if k' = k then v else old >>> (bits * k') % 2 ^ bits := by
  have hlast : bits * k' + bits ≤ 8 := by
    rw [← hper, ← Nat.mul_succ]
    exact Nat.mul_le_mul_left _ hk'
  have hsplit : k' ≠ k → bits * k' + bits ≤ bits * k ∨ bits * k + bits ≤ bits * k' := by
    intro hne
    rcases Nat.lt_or_gt_of_ne hne with h | h
    · exact .inl (Nat.mul_le_mul_left _ h)
    · exact .inr (Nat.mul_le_mul_left _ h)
  refine Nat.eq_of_testBit_eq fun i => ?_
  rw [UInt8.toNat_ofNat', Nat.testBit_mod_two_pow, Nat.testBit_shiftRight, Nat.testBit_mod_two_pow,
    testBit_setBits hv]
  by_cases hi : i < bits
  · have hbyte : bits * k' + i < 8 := by omega
    by_cases hkk : k' = k
    · subst hkk
      simp [hi, hbyte]
    · have hout : ¬ (bits * k ≤ bits * k' + i ∧ bits * k' + i < bits * k + bits) := by
        rcases hsplit hkk with h | h <;> omega
      simp [hi, hbyte, hkk, hout, Nat.testBit_mod_two_pow, Nat.testBit_shiftRight]
  · by_cases hkk : k' = k
    · have hzero : v.testBit i = false :=
        Nat.testBit_lt_two_pow (lt_of_lt_of_le hv (Nat.pow_le_pow_right (by decide) (by omega)))
      simp [hi, hkk, hzero]
    · simp [hi, hkk, Nat.testBit_mod_two_pow]

/-! ## Reading after setting -/

/-- What an accessor pair of one width must do: setting `v` at `j` changes entry `j` and no
other. -/
def SetsEntry (entries : Nat) (read : Buffer → Nat → Except SnapshotError Nat)
    (block block' : Buffer) (j v : Nat) : Prop :=
  block'.len = block.len ∧ ∀ k < entries, ∃ u, read block k = .ok u ∧
    read block' k = .ok (if k = j then v else u)

theorem setPacked_sets (hv : v < 2 ^ bits) (hper : bits * per = 8)
    (h : setPacked block j bits per v = .ok block') :
    SetsEntry (block.len * per) (fun b k => readPacked b k bits per) block block' j v := by
  have hpos : 0 < per := pos_of_ne_zero fun h => by simp [h] at hper
  unfold setPacked at h
  dsimp only at h
  split at h
  case isTrue => cases h
  case isFalse hlen =>
    cases h
    refine ⟨rfl, fun k hk => ?_⟩
    have hin : k / per < block.len := Nat.div_lt_of_lt_mul (Nat.mul_comm _ _ ▸ hk)
    refine ⟨_, readPacked_eq _ hin, ?_⟩
    refine (readPacked_eq _ ?_).trans (congrArg _ ?_)
    · exact hin
    dsimp only
    by_cases hbyte : k / per = j / per
    · -- the same byte: its other entries stay
      have hkj : k % per = j % per ↔ k = j := by
        constructor
        · intro h
          rw [← Nat.div_add_mod k per, ← Nat.div_add_mod j per, hbyte, h]
        · rintro rfl
          rfl
      have hat : block.bytes.splice (j / per) 1 (fun _ => UInt8.ofNat
          ((block.bytes (j / per)).toNat - ((block.bytes (j / per)).toNat >>> (bits * (j % per)) %
            2 ^ bits) <<< (bits * (j % per)) ||| v <<< (bits * (j % per)))) (k / per) = UInt8.ofNat
          ((block.bytes (j / per)).toNat - ((block.bytes (j / per)).toNat >>> (bits * (j % per)) %
            2 ^ bits) <<< (bits * (j % per)) ||| v <<< (bits * (j % per))) :=
        splice_mem (by omega) (by omega)
      rw [hat, packed_setBits hv hper (Nat.mod_lt _ hpos), hbyte]
      simp only [hkj]
    · have hne : k ≠ j := fun h => hbyte (h ▸ rfl)
      rw [splice_outside (by omega), if_neg hne]

theorem setWide_sets {entries : Nat} (hv : v < 256 ^ n) (hlen : entries * n ≤ block.len)
    (h : setWide block j n v = .ok block') :
    SetsEntry entries (fun b k => readWide b k n) block block' j v := by
  unfold setWide at h
  split at h
  case isTrue => cases h
  case isFalse =>
    cases h
    have hend : ∀ k < entries, k * n + n ≤ block.len := fun k hk => by
      rw [← Nat.succ_mul]
      exact (Nat.mul_le_mul_right _ hk).trans hlen
    refine ⟨rfl, fun k hk => ⟨_, readWide_eq _ (hend k hk), ?_⟩⟩
    refine (readWide_eq _ ?_).trans (congrArg _ ?_)
    · exact hend k hk
    by_cases hkj : k = j
    · subst hkj
      rw [if_pos rfl]
      exact be_splice_ofBe hv
    · have hout : k * n + n ≤ j * n ∨ j * n + n ≤ k * n := by
        rw [← Nat.succ_mul, ← Nat.succ_mul]
        rcases Nat.lt_or_gt_of_ne hkj with h | h
        · exact .inl (Nat.mul_le_mul_right _ h)
        · exact .inr (Nat.mul_le_mul_right _ h)
      rw [if_neg hkj]
      exact be_splice_outside hout

/-- The entries of a refcount block of `size` bytes. -/
def entriesPerBlock (size bits : Nat) : Nat := size * 8 / bits

theorem setRefcountInBlock_sets (hv : v < 2 ^ bits)
    (h : setRefcountInBlock block j bits v = .ok block') :
    SetsEntry (entriesPerBlock block.len bits) (readRefcountInBlock · · bits) block block' j v := by
  have hpacked : ∀ {bits per}, bits * per = 8 →
      entriesPerBlock block.len bits = block.len * per := by
    intro bits per hper
    have hpos : 0 < bits := pos_of_ne_zero fun h => by simp [h] at hper
    rw [entriesPerBlock, ← hper, mul_left_comm, Nat.mul_div_cancel_left _ hpos]
  unfold setRefcountInBlock at h
  split at h
  · have hone : (if v = 0 then 0 else 1) = v := by split <;> omega
    rw [hone] at h
    rw [hpacked (by decide : 1 * 8 = 8)]
    exact setPacked_sets hv (by decide) h
  · rw [show v % 4 = v from Nat.mod_eq_of_lt hv] at h
    rw [hpacked (by decide : 2 * 4 = 8)]
    exact setPacked_sets hv (by decide) h
  · rw [show v % 16 = v from Nat.mod_eq_of_lt hv] at h
    rw [hpacked (by decide : 4 * 2 = 8)]
    exact setPacked_sets hv (by decide) h
  · exact setWide_sets hv (by unfold entriesPerBlock; omega) h
  · exact setWide_sets hv (by unfold entriesPerBlock; omega) h
  · exact setWide_sets hv (by unfold entriesPerBlock; omega) h
  · exact setWide_sets hv (by unfold entriesPerBlock; omega) h
  · cases h

theorem setRefcountInBlock_ok (hv : v < 2) (h : setRefcountInBlock block j bits v = .ok block') :
    block'.len = block.len ∧ ∀ k < entriesPerBlock block.len bits,
      refcountIn bits block' k = if k = j then v else refcountIn bits block k := by
  have hbits : v < 2 ^ bits := by
    cases bits with
    | zero => cases h
    | succ bits => exact lt_of_lt_of_le hv (Nat.le_self_pow (Nat.succ_ne_zero _) 2)
  obtain ⟨hlen, hsets⟩ := setRefcountInBlock_sets hbits h
  refine ⟨hlen, fun k hk => ?_⟩
  obtain ⟨u, hu, hu'⟩ := hsets k hk
  simp only [refcountIn, hu, hu']

/-- An entry depends on the bytes of its block only. -/
theorem refcountIn_congr (hlen : block.len = block'.len)
    (hbytes : ∀ i < block.len, block.bytes i = block'.bytes i) :
    refcountIn bits block j = refcountIn bits block' j := by
  have hpacked : ∀ bits per, readPacked block j bits per = readPacked block' j bits per := by
    intro bits per
    unfold readPacked
    dsimp only
    split
    · rw [if_pos (by omega)]
    · rw [if_neg (by omega), hbytes _ (by omega)]
  have hwide : ∀ n, readWide block j n = readWide block' j n := by
    intro n
    unfold readWide
    split
    · rw [if_pos (by omega)]
    · rw [if_neg (by omega)]
      exact congrArg _ (be_congr fun i hi => hbytes _ (by omega))
  have hread : readRefcountInBlock block j bits = readRefcountInBlock block' j bits := by
    unfold readRefcountInBlock
    split <;> first | exact hpacked _ _ | exact hwide _ | rfl
  rw [refcountIn, hread, refcountIn]

theorem refcountIn_zeros (bits size j : Nat) : refcountIn bits ⟨size, fun _ => 0⟩ j = 0 := by
  have hpacked : ∀ bits per, readPacked ⟨size, fun _ => 0⟩ j bits per = .error .misalignedAccess ∨
      readPacked ⟨size, fun _ => 0⟩ j bits per = .ok 0 := by
    intro bits per
    unfold readPacked
    dsimp only
    split <;> simp
  have hwide : ∀ n, readWide ⟨size, fun _ => 0⟩ j n = .error .misalignedAccess ∨
      readWide ⟨size, fun _ => 0⟩ j n = .ok 0 := by
    intro n
    unfold readWide
    split <;> simp [Buffer.be]
  unfold refcountIn readRefcountInBlock
  split
  case h_1 v h => split at h <;> grind
  case h_2 => rfl

end Instar.Qcow2
