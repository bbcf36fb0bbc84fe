import Instar.Operations.ConvertVmdk
import Mathlib.Data.Nat.Count

/-!
# The layout of a VMDK that is written

Where `convert_to_vmdk` puts things follows from which grains it writes: so many grains and so many
grain tables lie before a given one.  An entry of a grain table is the place of its grain, or, for a
grain that is not written, what the buffer had there: `stale` is the grain whose place that is.
-/

namespace Instar.Convert

open Read

theorem alignUp_of_dvd {val align : Nat} (hpos : 0 < align) (h : align ∣ val) :
    alignUp val align = val := by
  obtain ⟨k, rfl⟩ := h
  unfold alignUp
  rw [show align * k + align - 1 = align - 1 + align * k by omega, Nat.add_mul_div_left _ _ hpos,
    Nat.div_eq_of_lt (by omega), zero_add, mul_comm]

theorem dvd_alignUp (val align : Nat) : align ∣ alignUp val align := dvd_mul_left _ _

theorem le_alignUp {val align : Nat} (hpos : 0 < align) : val ≤ alignUp val align := by
  have hdiv := Nat.div_add_mod' (val + align - 1) align
  have hmod := Nat.mod_lt (val + align - 1) hpos
  unfold alignUp
  omega

namespace VmdkJob

variable (job : VmdkJob) (content : Nat → Option UInt8)

/-- The bytes of a grain: those of the window, and zeros behind it. -/
def grainByte (grain y : Nat) : UInt8 :=
  if grain * job.grainSize + y < job.outVsize then
    (content (job.readStart + (grain * job.grainSize + y))).getD 0
  else 0

/-- A grain is written unless it is skipped as zero. -/
def isWritten (grain : Nat) : Bool :=
  !(job.skipZeros && isAllZeros (job.grainByte content grain) (job.thisChunk grain))

/-- The grain at place `j` of table `g` is written. -/
def isEntered (g j : Nat) : Bool :=
  decide (g * gtesPerGt + j < job.totalGrains) && job.isWritten content (g * gtesPerGt + j)

/-- A grain table has a place if one of its grains is written. -/
def isUsed (g : Nat) : Bool := (List.range gtesPerGt).any (job.isEntered content g)

/-- The grains written before grain `n`. -/
def grainsBefore (n : Nat) : Nat := Nat.count (fun grain => job.isWritten content grain = true) n

/-- The tables written before table `g`. -/
def tablesBefore (g : Nat) : Nat := Nat.count (fun g => job.isUsed content g = true) g

def gtAlloc : Nat := alignUp gtBytes job.dev.sectorSize

def grainAlloc : Nat := alignUp job.grainSize job.dev.sectorSize

/-- Where table `g` goes. -/
def tablePos (g : Nat) : Nat :=
  job.grainDataStart + job.tablesBefore content g * job.gtAlloc +
    job.grainsBefore content (g * gtesPerGt) * job.grainAlloc

/-- Where a grain goes. -/
def grainPos (grain : Nat) : Nat :=
  job.grainDataStart + (job.tablesBefore content (grain / gtesPerGt) + 1) * job.gtAlloc +
    job.grainsBefore content grain * job.grainAlloc

/-- The grain whose place is in the buffer when table `g` comes to its entry `j`: nothing, if the
entry was cleared, or else the last grain entered there. -/
def stale : Nat → Nat → Option Nat
  | 0, _ => none
  | g + 1, j =>
    if j * 4 < job.dev.sectorSize then none
    else if job.isEntered content g j then some (g * gtesPerGt + j) else stale g j

/-- The grain whose place is in entry `j` of table `g`. -/
def entered (g j : Nat) : Option Nat :=
  if job.isEntered content g j then some (g * gtesPerGt + j) else job.stale content g j

/-- An entry of a grain table. -/
def entryOf (grain : Option Nat) : Nat :=
  match grain with
  | none => 0
  | some grain => job.grainPos content grain / 512 % 2 ^ 32

/-- Where the grain directory goes. -/
def gdPos : Nat :=
  job.grainDataStart + job.tablesBefore content job.numGdEntries * job.gtAlloc +
    job.grainsBefore content (min (job.numGdEntries * gtesPerGt) job.totalGrains) * job.grainAlloc

variable {job content}

/-! ## Sizes -/

theorem sectorSize_dvd_grainDataStart : job.dev.sectorSize ∣ job.grainDataStart := dvd_mul_left _ _

theorem sectorSize_dvd_pos (a b : Nat) :
    job.dev.sectorSize ∣ job.grainDataStart + a * job.gtAlloc + b * job.grainAlloc :=
  Nat.dvd_add (Nat.dvd_add sectorSize_dvd_grainDataStart
    (Nat.dvd_mul_left_of_dvd (dvd_alignUp _ _) _)) (Nat.dvd_mul_left_of_dvd (dvd_alignUp _ _) _)

theorem sectorSize_ge : 512 ≤ job.dev.sectorSize := by
  obtain ⟨k, hlo, -, hk⟩ := job.sector_pow
  rw [hk]
  show 2 ^ 9 ≤ 2 ^ k
  exact Nat.pow_le_pow_right (by decide) hlo

theorem dvd_sectorSize : 512 ∣ job.dev.sectorSize := by
  obtain ⟨k, hlo, -, hk⟩ := job.sector_pow
  rw [hk]
  exact pow_dvd_pow 2 hlo

theorem dvd_grainSize : 4096 ∣ job.grainSize := by
  obtain ⟨k, hlo, hk⟩ := job.grain_pow
  rw [hk]
  exact pow_dvd_pow 2 hlo

theorem grainSize_ge : 4096 ≤ job.grainSize := by
  obtain ⟨k, hlo, hk⟩ := job.grain_pow
  rw [hk]
  show 2 ^ 12 ≤ 2 ^ k
  exact Nat.pow_le_pow_right (by decide) hlo

theorem grainSize_eq : job.grainSize = job.grainSizeSectors * 512 := by
  have hdvd : 512 ∣ job.grainSize := dvd_trans (by decide) dvd_grainSize
  exact (Nat.div_mul_cancel hdvd).symm

theorem grainSizeSectors_pos : 0 < job.grainSizeSectors := by
  have hge : 4096 ≤ job.grainSize := grainSize_ge
  rw [grainSize_eq] at hge
  omega

theorem gtBytes_le_gtAlloc : gtBytes ≤ job.gtAlloc := le_alignUp job.dev.sectorSize_pos

theorem grainSize_le_grainAlloc : job.grainSize ≤ job.grainAlloc :=
  le_alignUp job.dev.sectorSize_pos

theorem grainByte_past {grain y : Nat} (h : job.thisChunk grain ≤ y) (hy : y < job.grainSize) :
    job.grainByte content grain y = 0 := by
  unfold grainByte
  rw [if_neg]
  unfold thisChunk at h
  split at h <;> omega

theorem header_le_grainDataStart : 512 + descSectors * 512 ≤ job.grainDataStart :=
  le_alignUp job.dev.sectorSize_pos

theorem sectorSize_le_grainDataStart : job.dev.sectorSize ≤ job.grainDataStart := by
  refine Nat.le_of_dvd ?_ sectorSize_dvd_grainDataStart
  exact lt_of_lt_of_le (by decide) header_le_grainDataStart

/-! ## Places -/

variable {g g' m n : Nat}

theorem isUsed_of_isWritten (h : job.isWritten content m = true) (hm : m < job.totalGrains) :
    job.isUsed content (m / gtesPerGt) = true := by
  have hm' := Nat.div_add_mod' m gtesPerGt
  have hentered : job.isEntered content (m / gtesPerGt) (m % gtesPerGt) = true := by
    unfold isEntered
    rw [hm']
    simp [hm, h]
  exact List.any_eq_true.mpr ⟨m % gtesPerGt, List.mem_range.mpr (Nat.mod_lt _ (by decide)),
    hentered⟩

/-- One more of the first kind, and no fewer of the second, take that much more room. -/
theorem room_le {a a' b b' : Nat} (size size' : Nat) (ha : a + 1 ≤ a') (hb : b ≤ b') :
    a * size + size + b * size' ≤ a' * size + b' * size' := by
  have := Nat.mul_le_mul_right size ha
  rw [Nat.succ_mul] at this
  exact Nat.add_le_add this (Nat.mul_le_mul_right size' hb)

variable (hm : job.isWritten content m = true)

include hm in
/-- A written grain ends before a later one starts. -/
theorem grainPos_lt (h : m < n) :
    job.grainPos content m + job.grainAlloc ≤ job.grainPos content n := by
  have hgrains : job.grainsBefore content m + 1 ≤ job.grainsBefore content n :=
    Nat.count_strict_mono hm h
  have htables : job.tablesBefore content (m / gtesPerGt) + 1 ≤
      job.tablesBefore content (n / gtesPerGt) + 1 :=
    Nat.succ_le_succ (Nat.count_monotone _ (Nat.div_le_div_right (le_of_lt h)))
  have := room_le job.grainAlloc job.gtAlloc hgrains htables
  unfold grainPos
  omega

theorem tablePos_add_le_grainPos (h : g * gtesPerGt ≤ n) :
    job.tablePos content g + job.gtAlloc ≤ job.grainPos content n := by
  have hgrains : job.grainsBefore content (g * gtesPerGt) ≤ job.grainsBefore content n :=
    Nat.count_monotone _ h
  have htables : job.tablesBefore content g + 1 ≤ job.tablesBefore content (n / gtesPerGt) + 1 :=
    Nat.succ_le_succ (Nat.count_monotone _ ((Nat.le_div_iff_mul_le (by decide)).mpr h))
  have := room_le job.gtAlloc job.grainAlloc htables hgrains
  unfold tablePos grainPos
  omega

include hm in
theorem grainPos_add_le_tablePos (hlt : m < job.totalGrains) (h : m < g * gtesPerGt) :
    job.grainPos content m + job.grainAlloc ≤ job.tablePos content g := by
  have hgrains : job.grainsBefore content m + 1 ≤ job.grainsBefore content (g * gtesPerGt) :=
    Nat.count_strict_mono hm h
  have htables : job.tablesBefore content (m / gtesPerGt) + 1 ≤ job.tablesBefore content g :=
    Nat.count_strict_mono (isUsed_of_isWritten hm hlt) ((Nat.div_lt_iff_lt_mul (by decide)).mpr h)
  have := room_le job.grainAlloc job.gtAlloc hgrains htables
  unfold tablePos grainPos
  omega

/-- A grain table ends before a later one starts. -/
theorem tablePos_lt (hg : job.isUsed content g' = true) (h : g' < g) :
    job.tablePos content g' + job.gtAlloc ≤ job.tablePos content g := by
  have hgrains : job.grainsBefore content (g' * gtesPerGt) ≤
      job.grainsBefore content (g * gtesPerGt) :=
    Nat.count_monotone _ (Nat.mul_le_mul_right _ (le_of_lt h))
  have htables : job.tablesBefore content g' + 1 ≤ job.tablesBefore content g :=
    Nat.count_strict_mono hg h
  have := room_le job.gtAlloc job.grainAlloc htables hgrains
  unfold tablePos
  omega

/-! ## Entries -/

theorem isWritten_of_stale {j src : Nat} (h : job.stale content g j = some src) :
    src < job.totalGrains ∧ job.isWritten content src = true := by
  induction g with
  | zero => cases h
  | succ g ih =>
    unfold stale at h
    split at h
    · cases h
    · split at h
      next hentered =>
        unfold isEntered at hentered
        simp only [Bool.and_eq_true, decide_eq_true_eq] at hentered
        cases h
        exact hentered
      · exact ih h

theorem isWritten_of_entered {j src : Nat} (h : job.entered content g j = some src) :
    src < job.totalGrains ∧ job.isWritten content src = true := by
  unfold entered at h
  split at h
  next hentered =>
    unfold isEntered at hentered
    simp only [Bool.and_eq_true, decide_eq_true_eq] at hentered
    cases h
    exact hentered
  · exact isWritten_of_stale h

theorem grainByte_of_not_written (h : ¬ job.isWritten content m = true) {y : Nat}
    (hy : y < job.grainSize) : job.grainByte content m y = 0 := by
  unfold isWritten at h
  simp only [Bool.not_eq_true', Bool.not_eq_false, Bool.and_eq_true, isAllZeros_iff] at h
  by_cases hin : y < job.thisChunk m
  · exact h.2 y hin
  · exact grainByte_past (by omega) hy

/-- The grain whose place the buffer still has is the last one that was entered at the same index,
which the clearing does not reach. -/
theorem stale_eq_some_iff {j src : Nat} : job.stale content g j = some src ↔
    ∃ g', src = g' * gtesPerGt + j ∧ job.dev.sectorSize ≤ j * 4 ∧ g' < g ∧
    job.isEntered content g' j = true ∧
      ∀ k, g' < k → k < g → job.isEntered content k j = false := by
  induction g with
  | zero => exact ⟨(nomatch ·), fun ⟨_, _, _, hlt, _⟩ => absurd hlt (Nat.not_lt_zero _)⟩
  | succ g ih =>
    unfold stale
    split
    next hclear =>
      exact ⟨(nomatch ·), fun ⟨_, _, hkept, _⟩ => absurd hclear (not_lt.mpr hkept)⟩
    next hkept =>
      split
      next hentered =>
        constructor
        · intro h
          cases h
          exact ⟨g, rfl, not_lt.mp hkept, Nat.lt_succ_self g, hentered,
            fun k hlo hhi => by omega⟩
        · rintro ⟨g', rfl, -, hlt, -, hsince⟩
          by_cases heq : g' = g
          · rw [heq]
          · rw [hsince g (by omega) (Nat.lt_succ_self g)] at hentered
            cases hentered
      next hentered =>
        rw [ih]
        constructor
        · rintro ⟨g', rfl, hle, hlt, hw, hsince⟩
          refine ⟨g', rfl, hle, by omega, hw, fun k hlo hhi => ?_⟩
          by_cases heq : k = g
          · rw [heq]
            exact Bool.eq_false_iff.mpr hentered
          · exact hsince k hlo (by omega)
        · rintro ⟨g', rfl, hle, hlt, hw, hsince⟩
          have hne : g' ≠ g := by
            rintro rfl
            exact hentered hw
          exact ⟨g', rfl, hle, by omega, hw, fun k hlo hhi => hsince k hlo (by omega)⟩

include hm in
theorem grainPos_add_le_gdPos (hlt : m < min (job.numGdEntries * gtesPerGt) job.totalGrains) :
    job.grainPos content m + job.grainAlloc ≤ job.gdPos content := by
  have hgrains : job.grainsBefore content m + 1 ≤
      job.grainsBefore content (min (job.numGdEntries * gtesPerGt) job.totalGrains) :=
    Nat.count_strict_mono hm hlt
  have htables : job.tablesBefore content (m / gtesPerGt) + 1 ≤
      job.tablesBefore content job.numGdEntries :=
    Nat.count_strict_mono (isUsed_of_isWritten hm (by omega))
      ((Nat.div_lt_iff_lt_mul (by decide)).mpr (by omega))
  have := room_le job.grainAlloc job.gtAlloc hgrains htables
  unfold gdPos grainPos
  omega

theorem tablePos_add_le_gdPos (hg : job.isUsed content g = true) (hlt : g < job.numGdEntries)
    (hfirst : g * gtesPerGt ≤ job.totalGrains) :
    job.tablePos content g + job.gtAlloc ≤ job.gdPos content := by
  have hgrains : job.grainsBefore content (g * gtesPerGt) ≤
      job.grainsBefore content (min (job.numGdEntries * gtesPerGt) job.totalGrains) :=
    Nat.count_monotone _ (Nat.le_min.mpr ⟨Nat.mul_le_mul_right _ (le_of_lt hlt), hfirst⟩)
  have htables : job.tablesBefore content g + 1 ≤ job.tablesBefore content job.numGdEntries :=
    Nat.count_strict_mono hg hlt
  have := room_le job.gtAlloc job.grainAlloc htables hgrains
  unfold gdPos tablePos
  omega

end VmdkJob

end Instar.Convert
