import Instar.Qcow2.Format

/-!
# Subclusters of an L2 entry

The classification of `crates/qcow2`: an L2 entry, with the subcluster bitmap of an extended L2
table, gives each of its subclusters a type, and `subclusterRange` counts how many subclusters in a
row share it.  The main fact is `subclusterRange_same`: the run it counts is a run of one type.
-/

namespace Instar.Qcow2

/-- `QCOW_EXTL2_SUBCLUSTERS_PER_CLUSTER`. -/
def extl2SubclustersPerCluster : Nat := 32

/-- The type of an L2 entry as a whole. -/
inductive ClusterType where
  | compressed
  | zeroPlain
  | zeroAlloc
  | normal
  | unallocated
deriving DecidableEq, Repr

/-- The type of one subcluster. -/
inductive SubclusterType where
  | unallocatedPlain
  | unallocatedAlloc
  | zeroPlain
  | zeroAlloc
  | normal
  | compressed
  | invalid
deriving DecidableEq, Repr

section

variable (l2Entry : Nat) (extendedL2 hasDataFile : Bool)

/-- `cluster_type`: the zero flag counts only without extended L2, and with an external data file
the copied flag makes host offset 0 a real one. -/
def clusterType : ClusterType :=
  if l2Entry &&& oflagCompressed ≠ 0 then .compressed
  else if l2Entry &&& qcowOflagZero ≠ 0 ∧ extendedL2 = false then
    if hostOf l2Entry ≠ 0 then .zeroAlloc else .zeroPlain
  else if hostOf l2Entry = 0 then
    if hasDataFile = true ∧ l2Entry &&& oflagCopied ≠ 0 then .normal else .unallocated
  else .normal

def l2EntryNamesHostCluster : Bool :=
  match clusterType l2Entry extendedL2 hasDataFile with
  | .normal | .zeroAlloc => true
  | _ => false

end

def subclustersPerCluster (extendedL2 : Bool) : Nat :=
  if extendedL2 then extl2SubclustersPerCluster else 1

/-- The allocated bits of a subcluster bitmap. -/
def allocBits (bitmap : Nat) : Nat := bitmap % 2 ^ 32

/-- The reads-as-zero bits of a subcluster bitmap. -/
def zeroBits (bitmap : Nat) : Nat := bitmap / 2 ^ 32 % 2 ^ 32

/-- `subcluster_type`. -/
def subclusterType (l2Entry bitmap scIndex : Nat) (extendedL2 hasDataFile : Bool) :
    SubclusterType :=
  if subclustersPerCluster extendedL2 ≤ scIndex then .invalid
  else if extendedL2 = false then
    match clusterType l2Entry extendedL2 hasDataFile with
    | .compressed => .compressed
    | .zeroPlain => .zeroPlain
    | .zeroAlloc => .zeroAlloc
    | .normal => .normal
    | .unallocated => .unallocatedPlain
  else
    match clusterType l2Entry extendedL2 hasDataFile with
    | .compressed => .compressed
    | .normal =>
      if zeroBits bitmap &&& allocBits bitmap ≠ 0 then .invalid
      else if zeroBits bitmap &&& 2 ^ scIndex ≠ 0 then .zeroAlloc
      else if allocBits bitmap &&& 2 ^ scIndex ≠ 0 then .normal
      else .unallocatedAlloc
    | .unallocated =>
      if allocBits bitmap ≠ 0 then .invalid
      else if zeroBits bitmap &&& 2 ^ scIndex ≠ 0 then .zeroPlain
      else .unallocatedPlain
    | .zeroPlain | .zeroAlloc => .invalid

/-- How many of the first `n` places hold, counted up to the first that does not. -/
def trailingRun (p : Nat → Bool) : Nat → Nat
  | 0 => 0
  | n + 1 => if trailingRun p n = n ∧ p n = true then n + 1 else trailingRun p n

def trailingOnes (x : Nat) : Nat := trailingRun x.testBit 32

def trailingZeros (x : Nat) : Nat := trailingRun (fun i => !x.testBit i) 32

/-- `sub_alloc_range`: the bits `[lo, hi)`. -/
def subAllocRange (lo hi : Nat) : Nat := 2 ^ hi - 2 ^ lo

/-- `subcluster_range`: the type of a subcluster and how many from it on share it. -/
def subclusterRange (l2Entry bitmap scFrom : Nat) (extendedL2 hasDataFile : Bool) :
    SubclusterType × Nat :=
  let ty := subclusterType l2Entry bitmap scFrom extendedL2 hasDataFile
  if ty = .invalid then (ty, 0)
  else if extendedL2 = false ∨ ty = .compressed then (ty, subclustersPerCluster extendedL2 - scFrom)
  else
    let below := subAllocRange 0 scFrom
    match ty with
    | .normal => (ty, trailingOnes (allocBits bitmap ||| below) - scFrom)
    | .zeroPlain | .zeroAlloc => (ty, trailingOnes (zeroBits bitmap ||| below) - scFrom)
    | .unallocatedPlain | .unallocatedAlloc =>
      (ty, trailingZeros ((zeroBits bitmap ||| allocBits bitmap)
        &&& (2 ^ 32 - (below + 1))) - scFrom)
    | .compressed | .invalid => (ty, 0)

/-- A data-file rule an L2 entry breaks. -/
inductive DataFileEntryViolation where
  | compressed
  | hostOffsetMismatch
deriving DecidableEq, Repr

/-- `data_file_entry_violation`. -/
def dataFileEntryViolation (l2Entry bitmap : Nat) (extendedL2 hasDataFile : Bool)
    (guestClusterOffset : Nat) : Option DataFileEntryViolation :=
  if hasDataFile = false then none
  else
    match subclusterType l2Entry bitmap 0 extendedL2 true with
    | .invalid => none
    | .compressed => some .compressed
    | _ =>
      if l2EntryNamesHostCluster l2Entry extendedL2 true ∧ hostOf l2Entry ≠ guestClusterOffset then
        some .hostOffsetMismatch
      else none

/-! ## Runs -/

variable {p : Nat → Bool} {j x sc l2Entry bitmap n : Nat} {extendedL2 hasDataFile : Bool}

theorem trailingRun_le (p : Nat → Bool) (n : Nat) : trailingRun p n ≤ n := by
  induction n with
  | zero => exact Nat.le_refl 0
  | succ n ih =>
    unfold trailingRun
    split <;> omega

theorem trailingRun_bit (h : j < trailingRun p n) : p j = true := by
  induction n with
  | zero => exact absurd h (Nat.not_lt_zero _)
  | succ n ih =>
    unfold trailingRun at h
    split at h
    next hrun =>
      by_cases hj : j = n
      · exact hj ▸ hrun.2
      · exact ih (by omega)
    · exact ih h

/-- A run goes past every place up to which all hold. -/
theorem lt_trailingRun {k : Nat} (hk : k < n) (h : ∀ j ≤ k, p j = true) : k < trailingRun p n := by
  -- with all places below `m` holding, the run over `m` places is all of them
  have hfull : ∀ m, m ≤ k + 1 → trailingRun p m = m := by
    intro m
    induction m with
    | zero => intro _; rfl
    | succ m ih =>
      intro hm
      rw [trailingRun, if_pos ⟨ih (by omega), h m (by omega)⟩]
  have hmono : ∀ m, k + 1 ≤ m → k < trailingRun p m := by
    intro m hm
    induction m, hm using Nat.le_induction with
    | base =>
      rw [hfull (k + 1) le_rfl]
      omega
    | succ m hm ih =>
      unfold trailingRun
      split <;> omega
  exact hmono n hk

/-- A run of ones that starts at `sc` in `x`, the ones below `sc` having been filled in. -/
theorem ones_bit (h : j < trailingOnes (x ||| subAllocRange 0 sc) - sc) :
    x.testBit (sc + j) = true ∧ sc + j < 32 := by
  have hlt : sc + j < trailingOnes (x ||| subAllocRange 0 sc) := by omega
  have hle : trailingOnes (x ||| subAllocRange 0 sc) ≤ 32 := trailingRun_le _ 32
  have hbit := trailingRun_bit hlt
  have hbelow : (subAllocRange 0 sc).testBit (sc + j) = false := by
    rw [subAllocRange, pow_zero, Nat.testBit_two_pow_sub_one]
    simp
  rw [Nat.testBit_or, hbelow, Bool.or_false] at hbit
  exact ⟨hbit, by omega⟩

/-- A run of zeros that starts at `sc` in `x`, the bits below `sc` having been cleared. -/
theorem zeros_bit (hsc : sc < 32)
    (h : j < trailingZeros (x &&& (2 ^ 32 - (subAllocRange 0 sc + 1))) - sc) :
    x.testBit (sc + j) = false ∧ sc + j < 32 := by
  have hlt : sc + j < trailingZeros (x &&& (2 ^ 32 - (subAllocRange 0 sc + 1))) := by omega
  have hle : trailingZeros (x &&& (2 ^ 32 - (subAllocRange 0 sc + 1))) ≤ 32 := trailingRun_le _ 32
  have hbit := trailingRun_bit hlt
  have hmask : subAllocRange 0 sc < 2 ^ 32 := by
    have := Nat.pow_lt_pow_right (show 1 < 2 by omega) hsc
    unfold subAllocRange
    omega
  have hbelow : (2 ^ 32 - (subAllocRange 0 sc + 1)).testBit (sc + j) = true := by
    rw [Nat.testBit_two_pow_sub_succ hmask, subAllocRange, pow_zero, Nat.testBit_two_pow_sub_one]
    simp
    omega
  simp only [Nat.testBit_and, hbelow, Bool.and_true, Bool.not_eq_true'] at hbit
  exact ⟨hbit, by omega⟩

theorem ones_pos (hsc : sc < 32) (hbit : x.testBit sc = true) :
    0 < trailingOnes (x ||| subAllocRange 0 sc) - sc := by
  have hlt : sc < trailingOnes (x ||| subAllocRange 0 sc) := by
    refine lt_trailingRun hsc fun j hj => ?_
    rw [Nat.testBit_or, subAllocRange, pow_zero, Nat.testBit_two_pow_sub_one]
    by_cases hjs : j = sc
    · rw [hjs, hbit, Bool.true_or]
    · simp only [show j < sc by omega, decide_true, Bool.or_true]
  omega

theorem zeros_pos (hsc : sc < 32) (hbit : x.testBit sc = false) :
    0 < trailingZeros (x &&& (2 ^ 32 - (subAllocRange 0 sc + 1))) - sc := by
  have hmask : subAllocRange 0 sc < 2 ^ 32 := by
    have := Nat.pow_lt_pow_right (show 1 < 2 by omega) hsc
    unfold subAllocRange
    omega
  have hlt : sc < trailingZeros (x &&& (2 ^ 32 - (subAllocRange 0 sc + 1))) := by
    refine lt_trailingRun hsc fun j hj => ?_
    rw [Nat.testBit_and, Nat.testBit_two_pow_sub_succ hmask, subAllocRange, pow_zero,
      Nat.testBit_two_pow_sub_one]
    by_cases hjs : j = sc
    · rw [hjs, hbit, Bool.false_and, Bool.not_false]
    · simp only [show j < sc by omega, decide_true, Bool.not_true, Bool.and_false, Bool.not_false]
  omega

/-- With extended L2, the type of a subcluster is decided by the two bits of the bitmap for it. -/
theorem subclusterType_congr {sc' : Nat} (hsc : sc < 32) (hsc' : sc' < 32)
    (hzero : (zeroBits bitmap).testBit sc' = (zeroBits bitmap).testBit sc)
    (halloc : (allocBits bitmap).testBit sc' = (allocBits bitmap).testBit sc) :
    subclusterType l2Entry bitmap sc' true hasDataFile =
      subclusterType l2Entry bitmap sc true hasDataFile := by
  have hin : ¬ subclustersPerCluster true ≤ sc := by
    simpa [subclustersPerCluster, extl2SubclustersPerCluster] using hsc
  have hin' : ¬ subclustersPerCluster true ≤ sc' := by
    simpa [subclustersPerCluster, extl2SubclustersPerCluster] using hsc'
  simp only [subclusterType, if_neg hin, if_neg hin', and_two_pow_ne_zero, hzero, halloc]

variable {ty : SubclusterType} {run : Nat}

theorem subclusterType_bits (h : subclusterType l2Entry bitmap sc true hasDataFile = ty)
    (hvalid : ty ≠ .invalid) (hplain : ty ≠ .compressed) : sc < 32 ∧
    ((ty = .normal ∧ (zeroBits bitmap).testBit sc = false ∧ (allocBits bitmap).testBit sc = true ∧
        zeroBits bitmap &&& allocBits bitmap = 0) ∨
     ((ty = .zeroPlain ∨ ty = .zeroAlloc) ∧ (zeroBits bitmap).testBit sc = true ∧
        (allocBits bitmap).testBit sc = false ∧ zeroBits bitmap &&& allocBits bitmap = 0) ∨
     ((ty = .unallocatedPlain ∨ ty = .unallocatedAlloc) ∧ (zeroBits bitmap).testBit sc = false ∧
        (allocBits bitmap).testBit sc = false)) := by
  have hdisjoint : zeroBits bitmap &&& allocBits bitmap = 0 → (zeroBits bitmap).testBit sc = true →
      (allocBits bitmap).testBit sc = false := by
    intro hand hbit
    have hsc := congrArg (fun n => n.testBit sc) hand
    simpa [Nat.testBit_and, hbit] using hsc
  unfold subclusterType at h
  split at h
  · exact absurd h.symm hvalid
  next hin =>
    have hsc : sc < 32 := by simpa [subclustersPerCluster, extl2SubclustersPerCluster] using hin
    refine ⟨hsc, ?_⟩
    simp only [Bool.true_eq_false, if_false, and_two_pow_ne_zero] at h
    split at h
    · exact absurd h.symm hplain
    · split at h
      · exact absurd h.symm hvalid
      next hand =>
        have hand : zeroBits bitmap &&& allocBits bitmap = 0 := by simpa using hand
        split at h
        next hzero =>
          exact .inr (.inl ⟨.inr h.symm, hzero, hdisjoint hand hzero, hand⟩)
        next hzero =>
          have hzero : (zeroBits bitmap).testBit sc = false := by simpa using hzero
          split at h
          · exact .inl ⟨h.symm, hzero, ‹_›, hand⟩
          next halloc =>
            exact .inr (.inr ⟨.inr h.symm, hzero, by simpa using halloc⟩)
    · split at h
      · exact absurd h.symm hvalid
      next hnone =>
        have hnone : allocBits bitmap = 0 := by simpa using hnone
        have halloc : (allocBits bitmap).testBit sc = false := by rw [hnone, Nat.zero_testBit]
        split at h
        · exact .inr (.inl ⟨.inl h.symm, ‹_›, halloc, by rw [hnone, Nat.and_zero]⟩)
        next hzero =>
          exact .inr (.inr ⟨.inl h.symm, by simpa using hzero, halloc⟩)
    · exact absurd h.symm hvalid
    · exact absurd h.symm hvalid

/-- Only a compressed entry has compressed subclusters, and then all of them are. -/
theorem clusterType_of_compressed
    (h : subclusterType l2Entry bitmap sc true hasDataFile = .compressed) :
    clusterType l2Entry true hasDataFile = .compressed := by
  unfold subclusterType at h
  split at h
  · cases h
  · simp only [Bool.true_eq_false, if_false] at h
    split at h
    · assumption
    · split_ifs at h
    · split_ifs at h
    · cases h
    · cases h

theorem subclusterRange_fst (l2Entry bitmap sc : Nat) (extendedL2 hasDataFile : Bool) :
    (subclusterRange l2Entry bitmap sc extendedL2 hasDataFile).1 =
      subclusterType l2Entry bitmap sc extendedL2 hasDataFile := by
  unfold subclusterRange
  dsimp only
  split_ifs
  · rfl
  · rfl
  · split <;> rfl

section

variable (h : subclusterRange l2Entry bitmap sc extendedL2 hasDataFile = (ty, run))

include h

/-- Without extended L2, and for a compressed entry, a run goes on to the end of the cluster. -/
theorem subclusterRange_whole (hvalid : ty ≠ .invalid)
    (hwhole : extendedL2 = false ∨ ty = .compressed) :
    run = subclustersPerCluster extendedL2 - sc := by
  have hty : subclusterType l2Entry bitmap sc extendedL2 hasDataFile = ty := by
    rw [← subclusterRange_fst, h]
  unfold subclusterRange at h
  simp only [hty, if_neg hvalid, if_pos hwhole, Prod.mk.injEq] at h
  exact h.2.symm

theorem subclusterRange_same (hj : j < run) :
    subclusterType l2Entry bitmap (sc + j) extendedL2 hasDataFile = ty := by
  unfold subclusterRange at h
  dsimp only at h
  split at h
  · cases h
    exact absurd hj (Nat.not_lt_zero _)
  rename_i hvalid
  split at h
  · -- one run to the end of the cluster
    rename_i hwhole
    cases h
    cases extendedL2 with
    | false =>
      have hstart : sc = 0 ∧ j = 0 := by
        simp only [subclustersPerCluster, Bool.false_eq_true, if_false] at hj
        omega
      rw [hstart.1, hstart.2]
    | true =>
      have hcompressed : subclusterType l2Entry bitmap sc true hasDataFile = .compressed := by
        simpa using hwhole
      have hin : ¬ subclustersPerCluster true ≤ sc + j := by omega
      rw [hcompressed]
      simp [subclusterType, if_neg hin, clusterType_of_compressed hcompressed]
  next hwhole =>
    simp only [not_or, Bool.not_eq_false] at hwhole
    obtain ⟨rfl, hplain⟩ := hwhole
    obtain ⟨hsc, hcases⟩ := subclusterType_bits rfl hvalid hplain
    obtain ⟨hty, hz, ha, hand⟩ | ⟨hty, hz, ha, hand⟩ | ⟨hty, hz, ha⟩ := hcases
    · rw [hty] at h
      cases h
      obtain ⟨hbit, hlt⟩ := ones_bit hj
      have hzero : (zeroBits bitmap).testBit (sc + j) = false := by
        have := congrArg (fun n => n.testBit (sc + j)) hand
        simpa [Nat.testBit_and, hbit] using this
      rw [subclusterType_congr hsc hlt (by rw [hzero, hz]) (by rw [hbit, ha]), hty]
    · have hrun : run = trailingOnes (zeroBits bitmap ||| subAllocRange 0 sc) - sc ∧
          subclusterType l2Entry bitmap sc true hasDataFile = ty := by
        obtain hty | hty := hty <;> rw [hty] at h ⊢ <;> cases h <;> exact ⟨rfl, rfl⟩
      rw [hrun.1] at hj
      obtain ⟨hbit, hlt⟩ := ones_bit hj
      have halloc : (allocBits bitmap).testBit (sc + j) = false := by
        have := congrArg (fun n => n.testBit (sc + j)) hand
        simpa [Nat.testBit_and, hbit] using this
      rw [subclusterType_congr hsc hlt (by rw [hbit, hz]) (by rw [halloc, ha]), hrun.2]
    · have hrun : run = trailingZeros ((zeroBits bitmap ||| allocBits bitmap) &&&
          (2 ^ 32 - (subAllocRange 0 sc + 1))) - sc ∧
          subclusterType l2Entry bitmap sc true hasDataFile = ty := by
        obtain hty | hty := hty <;> rw [hty] at h ⊢ <;> cases h <;> exact ⟨rfl, rfl⟩
      rw [hrun.1] at hj
      obtain ⟨hbit, hlt⟩ := zeros_bit hsc hj
      rw [Nat.testBit_or, Bool.or_eq_false_iff] at hbit
      rw [subclusterType_congr hsc hlt (by rw [hbit.1, hz]) (by rw [hbit.2, ha]), hrun.2]

end

theorem subclusterRange_pos
    (h : subclusterRange l2Entry bitmap sc true hasDataFile = (ty, run)) (hvalid : ty ≠ .invalid) :
    0 < run := by
  have hty : subclusterType l2Entry bitmap sc true hasDataFile = ty := by
    rw [← subclusterRange_fst, h]
  by_cases hplain : ty = .compressed
  · have hrun := subclusterRange_whole h hvalid (.inr hplain)
    have hin : ¬ subclustersPerCluster true ≤ sc := by
      intro hout
      rw [subclusterType, if_pos hout] at hty
      exact hvalid hty.symm
    omega
  · obtain ⟨hsc, hcases⟩ := subclusterType_bits hty hvalid hplain
    unfold subclusterRange at h
    simp only [hty, if_neg hvalid, Bool.true_eq_false, false_or, if_neg hplain] at h
    obtain ⟨rfl, -, ha, -⟩ | ⟨rfl | rfl, hz, -, -⟩ | ⟨rfl | rfl, hz, ha⟩ := hcases
    · cases h
      exact ones_pos hsc ha
    · cases h
      exact ones_pos hsc hz
    · cases h
      exact ones_pos hsc hz
    · cases h
      exact zeros_pos hsc (by rw [Nat.testBit_or, hz, ha, Bool.or_false])
    · cases h
      exact zeros_pos hsc (by rw [Nat.testBit_or, hz, ha, Bool.or_false])

theorem subclusterType_invalid
    (h : subclusterType l2Entry bitmap sc true hasDataFile = .invalid)
    (hsc : sc < extl2SubclustersPerCluster)
    (j : Nat) : subclusterType l2Entry bitmap j true hasDataFile = .invalid := by
  have hin : ¬ subclustersPerCluster true ≤ sc := not_le.mpr hsc
  unfold subclusterType at h ⊢
  rw [if_neg hin] at h
  split
  · rfl
  · simp only [Bool.true_eq_false, if_false] at h ⊢
    split at h
    · cases h
    · split_ifs at h with hand
      rw [if_pos hand]
    · split_ifs at h with hand
      rw [if_pos hand]
    · rfl
    · rfl

end Instar.Qcow2
