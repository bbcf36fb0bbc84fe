import Instar.Operations.VmdkLayout

/-!
# Writing the grains and tables of a VMDK

The invariants of the two loops of `convert_to_vmdk`: what is on the output, in the table buffer and
in the directory when the loops have come to a grain and to a table.
-/

namespace Instar.Convert

open Fallible Read ByteMap

/-- The count does not change over places without the property. -/
theorem count_eq_of_none {p : Nat → Prop} [DecidablePred p] {a b : Nat} (hle : a ≤ b)
    (h : ∀ m, a ≤ m → m < b → ¬ p m) : Nat.count p b = Nat.count p a := by
  induction b with
  | zero => rw [show a = 0 by omega]
  | succ b ih =>
    by_cases heq : a = b + 1
    · rw [heq]
    · rw [Nat.count_succ, if_neg (h b (by omega) (by omega)), add_zero]
      exact ih (by omega) fun m hlo hhi => h m hlo (by omega)

namespace VmdkJob

variable (job : VmdkJob) (content : Nat → Option UInt8)

/-- The grains below `n` and the tables below `g` are on the output; the grains have been read. -/
structure Image (g n : Nat) (o : Output) : Prop where
  known : ∀ m < n, ∀ y < job.thisChunk m,
    (content (job.readStart + (m * job.grainSize + y))).isSome = true
  grains : ∀ m < n, job.isWritten content m = true → ∀ y < job.grainSize,
    o.bytes (job.grainPos content m + y) = job.grainByte content m y
  tables : ∀ g' < g, job.isUsed content g' = true → ∀ j < gtesPerGt,
    o.bytes.le (job.tablePos content g' + j * 4) 4 = job.entryOf content (job.entered content g' j)

/-- The tables below `g` are in the directory. -/
def Directory (g : Nat) (gd : ByteMap) : Prop :=
  ∀ g', gd.le (g' * 4) 4 =
    if g' < g ∧ job.isUsed content g' = true then job.tablePos content g' / 512 % 2 ^ 32 else 0

/-- The place of table `g` is not taken before one of its grains is written. -/
def TablePlace (g n : Nat) (st : VmdkLoop) : Prop :=
  (st.gtByteOffset = none ∧ (∀ m, g * gtesPerGt ≤ m → m < n → ¬ job.isWritten content m = true) ∧
    st.nextFreeByte = job.grainDataStart + job.tablesBefore content g * job.gtAlloc +
      job.grainsBefore content n * job.grainAlloc) ∨
  (st.gtByteOffset = some (job.tablePos content g) ∧
    (∃ m, g * gtesPerGt ≤ m ∧ m < n ∧ job.isWritten content m = true) ∧
    st.nextFreeByte = job.grainDataStart + (job.tablesBefore content g + 1) * job.gtAlloc +
      job.grainsBefore content n * job.grainAlloc)

/-- Inside table `g`, before grain `n`. -/
structure InTable (g n : Nat) (st : VmdkLoop) (o : Output) : Prop where
  image : job.Image content g n o
  directory : job.Directory content g st.gd
  place : job.TablePlace content g n st
  buf : ∀ j < gtesPerGt, st.bufGt.le (j * 4) 4 = job.entryOf content
    (if g * gtesPerGt + j < n ∧ job.isWritten content (g * gtesPerGt + j) = true
      then some (g * gtesPerGt + j) else job.stale content g j)

variable {job content} {g n p : Nat} {st : VmdkLoop} {o o' : Output}
  {buf : ByteMap} {grain y : Nat} {read : Nat → Nat → Fallible ReaderState ByteMap}
  {I : ReaderState → Prop}

/-- A write that keeps away from the grains and tables on the output. -/
theorem Image.write (h : job.Image content g n o) {len : Nat}
    (hbytes : o'.bytes = o.bytes.splice p len buf)
    (hgrains : ∀ m < n, job.isWritten content m = true →
      job.grainPos content m + job.grainSize ≤ p ∨ p + len ≤ job.grainPos content m)
    (htables : ∀ g' < g, job.isUsed content g' = true →
      job.tablePos content g' + gtBytes ≤ p ∨ p + len ≤ job.tablePos content g') :
    job.Image content g n o' where
  known := h.known
  grains m hm hw y hy := by
    have hfar := hgrains m hm hw
    rw [hbytes, splice_outside (by omega)]
    exact h.grains m hm hw y hy
  tables g' hg' hused j hj := by
    have hfar := htables g' hg' hused
    have hin : j * 4 + 4 ≤ gtBytes := by
      unfold gtBytes
      omega
    rw [hbytes, le_splice_outside (by omega)]
    exact h.tables g' hg' hused j hj

/-! ## One grain -/

/-- What a read leaves in the data buffer. -/
def Loaded (job : VmdkJob) (content : Nat → Option UInt8) (grain : Nat) (bufData : ByteMap) :
    Prop :=
  ∀ y < job.thisChunk grain, content (job.readStart + (grain * job.grainSize + y)) =
    some (bufData y)

theorem thisChunk_inside (hy : y < job.thisChunk grain) :
    grain * job.grainSize + y < job.outVsize := by
  unfold thisChunk at hy
  split at hy <;> omega

theorem readGrain_triple
    (hread : ∀ off len, Ensures I (read off len) (Gives content off len)) (grain : Nat)
    (bufData : ByteMap)
    (o : Output) : Triple (fun s => I s.reader ∧ s.out = o) (job.readGrain read grain bufData)
      fun buf s => job.Loaded content grain buf ∧ I s.reader ∧ s.out = o := by
  refine .ite (fun _ => ?_) fun hnone => .pure fun s hs => ⟨fun y hy => ?_, hs⟩
  · refine (onReader_triple (hread _ _) fun o' => o' = o).bind fun data => .assume fun hdata => ?_
    refine .pure fun s hs => ⟨fun y hy => ?_, hs⟩
    have hbyte := hdata y hy
    rw [splice_mem (Nat.zero_le _) (by omega), Nat.sub_zero, ← Nat.add_assoc]
    exact hbyte
  · omega

variable (h : job.Loaded content grain buf)

include h

theorem Loaded.byte (hy : y < job.thisChunk grain) : buf y = job.grainByte content grain y := by
  unfold grainByte
  rw [if_pos (thisChunk_inside hy), h y hy]
  rfl

theorem Loaded.isAllZeros : isAllZeros buf (job.thisChunk grain) =
      isAllZeros (job.grainByte content grain) (job.thisChunk grain) := by
  rw [Bool.eq_iff_iff, isAllZeros_iff, isAllZeros_iff]
  constructor
  · intro hz y hy
    rw [← h.byte hy, hz y hy]
  · intro hz y hy
    rw [h.byte hy, hz y hy]

/-- The buffer as it is written: the part of the grain in the window, and zeros. -/
theorem Loaded.padded (hy : y < job.grainSize) :
    buf.splice (job.thisChunk grain) (job.grainSize - job.thisChunk grain) (fun _ => 0) y =
      job.grainByte content grain y := by
  by_cases hin : y < job.thisChunk grain
  · rw [splice_outside (.inl hin), h.byte hin]
  · rw [splice_mem (by omega) (by omega), grainByte_past (by omega) hy]

omit h

theorem Image.known_succ (h : job.Image content g n o) (hbuf : job.Loaded content n buf) (m : Nat)
    (hm : m < n + 1) (y : Nat) (hy : y < job.thisChunk m) :
    (content (job.readStart + (m * job.grainSize + y))).isSome = true := by
  by_cases hmn : m = n
  · subst hmn
    rw [hbuf y hy]
    rfl
  · exact h.known m (by omega) y hy

/-- Before a grain is written its table has a place, and the grain's own place comes next. -/
theorem TablePlace.allocated (h : job.TablePlace content g n st) (hlo : g * gtesPerGt ≤ n)
    (hg : n / gtesPerGt = g) : (job.allocateGt st).gtByteOffset = some (job.tablePos content g) ∧
      (job.allocateGt st).nextFreeByte = job.grainPos content n ∧
      (job.allocateGt st).bufGt = st.bufGt ∧ (job.allocateGt st).gd = st.gd ∧
      (job.allocateGt st).bufData = st.bufData := by
  unfold allocateGt grainPos
  rw [hg]
  rcases h with ⟨hoff, hnone, hfree⟩ | ⟨hoff, -, hfree⟩
  · have hcount : job.grainsBefore content n = job.grainsBefore content (g * gtesPerGt) :=
      count_eq_of_none hlo hnone
    have halign : alignUp st.nextFreeByte job.dev.sectorSize = job.tablePos content g := by
      rw [alignUp_of_dvd job.dev.sectorSize_pos (by rw [hfree]; exact sectorSize_dvd_pos _ _),
        hfree, hcount]
      rfl
    rw [hoff]
    dsimp only
    refine ⟨by rw [halign], ?_, rfl, rfl, rfl⟩
    rw [halign, Nat.succ_mul, hcount]
    unfold tablePos gtAlloc
    omega
  · rw [hoff]
    exact ⟨hoff, hfree, rfl, rfl, rfl⟩

/-- A field that has just been written, cut to its width. -/
theorem le_putLe (buf : ByteMap) (off n v : Nat) : (putLe buf off n v).le off n = v % 256 ^ n := by
  have hfield : (putLe buf off n v).le (off + 0) n = (ofLe v).le 0 n := le_splice_inside (by omega)
  rwa [le_ofLe_drop, pow_zero, Nat.div_one] at hfield

theorem writeAligned_triple (hp : job.dev.sectorSize ∣ p) (buf : ByteMap) (len : Nat)
    (I : ReaderState → Prop) (o : Output) :
    Triple (fun s => I s.reader ∧ s.out = o) (job.dev.writeBytesToOutput buf p len) fun _ s =>
      I s.reader ∧ s.out.bytes = o.bytes.splice p (alignUp len job.dev.sectorSize) buf ∧
        ∀ sector, sector ∈ s.out.written ↔ sector ∈ o.written ∨ (p ≤ sector * job.dev.sectorSize ∧
            sector * job.dev.sectorSize < p + alignUp len job.dev.sectorSize) := by
  have hpos := job.dev.sectorSize_pos
  refine (OutputDevice.writeBytesToOutput_triple buf p len I o).mono (fun _ hs => hs) fun _ s hs =>
    ?_
  obtain ⟨hI, hwrote⟩ := hs
  refine ⟨hI, ?_, fun sector => ?_⟩
  · rw [hwrote.bytes, Nat.div_mul_cancel hp]
    rfl
  · obtain ⟨q, rfl⟩ := hp
    rw [hwrote.written, Nat.mul_div_cancel_left _ hpos]
    refine or_congr_right (and_congr ?_ ?_)
    · rw [mul_comm, Nat.mul_le_mul_right_iff hpos]
    · unfold alignUp
      rw [mul_comm job.dev.sectorSize, ← add_mul, Nat.mul_lt_mul_right hpos]

/-- Writing a grain. -/
theorem writeGrain_triple (h : job.InTable content g n st o) (hlo : g * gtesPerGt ≤ n)
    (hg : n / gtesPerGt = g) (hn : n < job.totalGrains) (hw : job.isWritten content n = true)
    (hdata : job.Loaded content n st.bufData) (I : ReaderState → Prop) :
    Triple (fun s => I s.reader ∧ s.out = o) (job.writeGrain (g * gtesPerGt) n st) fun st' s =>
      I s.reader ∧ job.InTable content g (n + 1) st' s.out := by
  obtain ⟨hoff, hfree, hbuf, hgd, hbufData⟩ := h.place.allocated hlo hg
  have hdvd : job.dev.sectorSize ∣ job.grainPos content n := sectorSize_dvd_pos _ _
  have hgt : gtBytes ≤ job.gtAlloc := gtBytes_le_gtAlloc
  have hgs : job.grainSize ≤ job.grainAlloc := grainSize_le_grainAlloc
  unfold writeGrain
  dsimp only
  rw [hfree, alignUp_of_dvd job.dev.sectorSize_pos hdvd]
  refine (writeAligned_triple hdvd _ _ I o).bind fun _ => .pure fun s hs => ⟨hs.1, ?_⟩
  have hbytes : s.out.bytes = o.bytes.splice (job.grainPos content n) job.grainAlloc _ := hs.2.1
  rw [hbufData] at hbytes
  have himage : job.Image content g n s.out := by
    refine h.image.write hbytes (fun m hm hwm => .inl ?_) fun g' hg' hused => .inl ?_
    · have := grainPos_lt hwm hm
      omega
    · have : job.tablePos content g' + job.gtAlloc ≤ job.grainPos content n :=
        tablePos_add_le_grainPos (le_trans (Nat.mul_le_mul_right _ (le_of_lt hg')) hlo)
      omega
  exact {
    image := {
      known := himage.known_succ hdata
      grains := by
        intro m hm hwm y hy
        by_cases hmn : m = n
        · subst hmn
          rw [hbytes, splice_inside (lt_of_lt_of_le hy hgs)]
          exact hdata.padded hy
        · exact himage.grains m (by omega) hwm y hy
      tables := himage.tables }
    directory := by
      show job.Directory content g (job.allocateGt st).gd
      rw [hgd]
      exact h.directory
    place := by
      refine .inr ⟨hoff, ⟨n, hlo, Nat.lt_succ_self n, hw⟩, ?_⟩
      show job.grainPos content n + job.grainAlloc = _
      have hcount : job.grainsBefore content (n + 1) = job.grainsBefore content n + 1 := by
        unfold grainsBefore
        rw [Nat.count_succ, if_pos hw]
      rw [hcount, Nat.succ_mul (job.grainsBefore content n)]
      unfold grainPos
      rw [hg]
      omega
    buf := by
      intro j hj
      show (putLe (job.allocateGt st).bufGt ((n - g * gtesPerGt) * 4) 4 _).le (j * 4) 4 = _
      rw [hbuf]
      by_cases hjn : g * gtesPerGt + j = n
      · rw [show n - g * gtesPerGt = j by omega, if_pos ⟨by omega, by rw [hjn]; exact hw⟩, hjn]
        exact le_putLe _ _ _ _
      · rw [putLe, le_splice_outside (by omega), h.buf j hj]
        congr 1
        simp only [show g * gtesPerGt + j < n + 1 ↔ g * gtesPerGt + j < n by omega] }

/-- A grain that is skipped. -/
theorem InTable.skip (h : job.InTable content g n st o) (hw : job.isWritten content n = false)
    {bufData : ByteMap} (hdata : job.Loaded content n bufData) :
    job.InTable content g (n + 1) { st with bufData } o := by
  have hcount : job.grainsBefore content (n + 1) = job.grainsBefore content n := by
    unfold grainsBefore
    rw [Nat.count_succ, if_neg (by simp [hw]), add_zero]
  have hlast : ∀ m, m < n + 1 → job.isWritten content m = true → m < n := by
    intro m hm hwm
    by_contra hge
    rw [show m = n by omega, hw] at hwm
    cases hwm
  exact {
    image := ⟨h.image.known_succ hdata, fun m hm hwm => h.image.grains m (hlast m hm hwm) hwm,
      h.image.tables⟩
    directory := h.directory
    place := by
      rcases h.place with ⟨hoff, hnone, hfree⟩ | ⟨hoff, ⟨m, hlo, hm, hwm⟩, hfree⟩
      · refine .inl ⟨hoff, fun m hlo hm hwm => hnone m hlo (hlast m hm hwm) hwm, ?_⟩
        rw [hcount]
        exact hfree
      · refine .inr ⟨hoff, ⟨m, hlo, by omega, hwm⟩, ?_⟩
        rw [hcount]
        exact hfree
    buf := by
      intro j hj
      show st.bufGt.le (j * 4) 4 = _
      rw [h.buf j hj]
      congr 1
      refine if_congr ⟨fun hc => ⟨by omega, hc.2⟩, fun hc => ⟨hlast _ hc.1 hc.2, hc.2⟩⟩ rfl rfl }

theorem grainRound_triple
    (hread : ∀ off len, Ensures I (read off len) (Gives content off len)) (hlo : g * gtesPerGt ≤ n)
    (hhi : n < g * gtesPerGt + gtesPerGt) (hn : n < job.totalGrains) (st : VmdkLoop) :
    Triple (fun s => I s.reader ∧ job.InTable content g n st s.out)
      (job.grainRound read (g * gtesPerGt) n st) fun st' s =>
      I s.reader ∧ job.InTable content g (n + 1) st' s.out := by
  have hg : n / gtesPerGt = g := by
    rw [Nat.div_eq_iff (by decide)]
    omega
  intro s st' s' hs hrun
  obtain ⟨hI, hin⟩ := hs
  obtain ⟨bufData, s1, hgrain, hrest⟩ := eq_some_of_bind hrun
  obtain ⟨hdata, hI1, hout⟩ :=
    readGrain_triple hread n st.bufData s.out s bufData s1 ⟨hI, rfl⟩ hgrain
  rw [← hout] at hin
  split at hrest
  next hskip =>
    cases hrest
    refine ⟨hI1, hin.skip ?_ hdata⟩
    unfold isWritten
    rw [← hdata.isAllZeros, hskip.1, hskip.2]
    rfl
  next hskip =>
    have hw : job.isWritten content n = true := by
      unfold isWritten
      rw [← hdata.isAllZeros]
      cases hz : job.skipZeros with
      | false => rfl
      | true =>
        cases hzero : Convert.isAllZeros bufData (job.thisChunk n) with
        | false => rfl
        | true => exact absurd ⟨hz, hzero⟩ hskip
    have hin' : job.InTable content g n { st with bufData } s1.out :=
      ⟨hin.image, hin.directory, hin.place, hin.buf⟩
    exact writeGrain_triple hin' hlo hg hn hw hdata I s1 st' s' ⟨hI1, rfl⟩ hrest

/-! ## One table -/

/-- The number of grains in front of table `g`. -/
def firstGrain (job : VmdkJob) (g : Nat) : Nat := min (g * gtesPerGt) job.totalGrains

/-- The grain whose place the table before table `g` has in entry `j`. -/
def previous (job : VmdkJob) (content : Nat → Option UInt8) : Nat → Nat → Option Nat
  | 0, _ => none
  | g + 1, j => job.entered content g j

theorem stale_eq (g j : Nat) : job.stale content g j =
    if j * 4 < job.dev.sectorSize then none else job.previous content g j := by
  cases g with
  | zero => exact (ite_self none).symm
  | succ g => rfl

/-- Between two tables: `g` tables are done.  The buffer has the entries of the last of them. -/
structure Between (job : VmdkJob) (content : Nat → Option UInt8) (g : Nat) (st : VmdkLoop)
    (o : Output) : Prop where
  image : job.Image content g (job.firstGrain g) o
  directory : job.Directory content g st.gd
  free : st.nextFreeByte = job.grainDataStart + job.tablesBefore content g * job.gtAlloc +
    job.grainsBefore content (job.firstGrain g) * job.grainAlloc
  buf : ∀ j < gtesPerGt, st.bufGt.le (j * 4) 4 = job.entryOf content (job.previous content g j)

/-- Every table that is written has grains. -/
theorem firstGrain_eq (hg : g < job.numGdEntries) : g * gtesPerGt < job.totalGrains := by
  have hgss : 0 < job.grainSizeSectors := grainSizeSectors_pos
  have hper : 0 < job.sectorsPerGt := mul_pos (by decide) hgss
  unfold numGdEntries at hg
  have hle := Nat.mod_le ((job.capacitySectors + job.sectorsPerGt - 1) / job.sectorsPerGt) (2 ^ 32)
  have hcap : (g + 1) * job.sectorsPerGt ≤ job.capacitySectors + job.sectorsPerGt - 1 :=
    (Nat.le_div_iff_mul_le hper).mp (by omega)
  refine (Nat.lt_div_iff_mul_lt hgss).mpr ?_
  have heq : g * gtesPerGt * job.grainSizeSectors = g * job.sectorsPerGt := by
    rw [mul_assoc]
    rfl
  rw [Nat.succ_mul] at hcap
  omega

/-- The start of a table: part of the buffer is cleared. -/
theorem Between.inTable (h : job.Between content g st o) (hg : g * gtesPerGt < job.totalGrains) :
    job.InTable content g (g * gtesPerGt)
      { st with bufGt := st.bufGt.splice 0 job.dev.sectorSize fun _ => 0, gtByteOffset :=
        none } o := by
  have hfirst : job.firstGrain g = g * gtesPerGt := min_eq_left (le_of_lt hg)
  have himage := h.image
  have hfree := h.free
  rw [hfirst] at himage hfree
  refine ⟨himage, h.directory, .inl ⟨rfl, fun m hlo hm => by omega, hfree⟩, fun j hj => ?_⟩
  rw [if_neg (by omega)]
  -- a sector holds whole entries
  have hdvd : 512 ∣ job.dev.sectorSize := dvd_sectorSize
  rw [stale_eq]
  show (st.bufGt.splice 0 job.dev.sectorSize fun _ => 0).le (j * 4) 4 = _
  by_cases hclear : j * 4 < job.dev.sectorSize
  · rw [if_pos hclear]
    refine le_zeros fun i hi => ?_
    rw [splice_mem (Nat.zero_le _) (by omega)]
  · rw [if_neg hclear, le_splice_outside (.inr (by omega))]
    exact h.buf j hj

/-- A table is used exactly if one of its grains was written. -/
theorem isUsed_iff : job.isUsed content g = true ↔
    ∃ m, g * gtesPerGt ≤ m ∧ m < min (g * gtesPerGt + gtesPerGt) job.totalGrains ∧
      job.isWritten content m = true := by
  unfold isUsed
  rw [List.any_eq_true]
  constructor
  · rintro ⟨j, hj, hentered⟩
    unfold isEntered at hentered
    simp only [Bool.and_eq_true, decide_eq_true_eq] at hentered
    have hj' := List.mem_range.mp hj
    exact ⟨g * gtesPerGt + j, by omega, by omega, hentered.2⟩
  · rintro ⟨m, hlo, hhi, hw⟩
    refine ⟨m - g * gtesPerGt, List.mem_range.mpr (by omega), ?_⟩
    unfold isEntered
    rw [Nat.add_sub_cancel' hlo]
    simp only [Bool.and_eq_true, decide_eq_true_eq]
    exact ⟨by omega, hw⟩

/-- Writing a table. -/
theorem flushGt_triple (hg : g * gtesPerGt < job.totalGrains)
    (h : job.InTable content g (min (g * gtesPerGt + gtesPerGt) job.totalGrains) st o)
    (I : ReaderState → Prop) :
    Triple (fun s => I s.reader ∧ s.out = o) (job.flushGt g st) fun st' s =>
      I s.reader ∧ job.Between content (g + 1) st' s.out := by
  have hfirst : job.firstGrain (g + 1) = min (g * gtesPerGt + gtesPerGt) job.totalGrains := by
    unfold firstGrain
    rw [Nat.succ_mul]
  have hbuf : ∀ j < gtesPerGt, st.bufGt.le (j * 4) 4 =
      job.entryOf content (job.entered content g j) := by
    intro j hj
    rw [h.buf j hj]
    congr 1
    unfold entered isEntered
    refine if_congr ?_ rfl rfl
    simp only [Bool.and_eq_true, decide_eq_true_eq]
    exact and_congr_left fun _ => by omega
  have hgt : gtBytes ≤ job.gtAlloc := gtBytes_le_gtAlloc
  have hgs : job.grainSize ≤ job.grainAlloc := grainSize_le_grainAlloc
  unfold flushGt
  rcases h.place with ⟨hoff, hnone, hfree⟩ | ⟨hoff, hsome, hfree⟩
  · -- no grain of the table was written
    have hunused : ¬ job.isUsed content g = true := fun hused => by
      obtain ⟨m, hlo, hhi, hw⟩ := isUsed_iff.mp hused
      exact hnone m hlo hhi hw
    have hcount : job.tablesBefore content (g + 1) = job.tablesBefore content g := by
      unfold tablesBefore
      rw [Nat.count_succ, if_neg hunused, add_zero]
    rw [hoff]
    refine .pure fun s hs => ⟨hs.1, ?_⟩
    rw [hs.2]
    have himage := h.image
    rw [← hfirst] at himage
    refine ⟨⟨himage.known, himage.grains, fun g' hg' hused => ?_⟩, fun g' => ?_, ?_, hbuf⟩
    · refine h.image.tables g' ?_ hused
      by_contra hge
      rw [show g' = g by omega] at hused
      exact hunused hused
    · rw [h.directory g']
      refine if_congr ⟨fun hc => ⟨by omega, hc.2⟩, fun hc => ⟨?_, hc.2⟩⟩ rfl rfl
      by_contra hge
      rw [show g' = g by omega] at hc
      exact hunused hc.2
    · rw [hcount, hfirst]
      exact hfree
  · have hused : job.isUsed content g = true := isUsed_iff.mpr hsome
    have hcount : job.tablesBefore content (g + 1) = job.tablesBefore content g + 1 := by
      unfold tablesBefore
      rw [Nat.count_succ, if_pos hused]
    have hdvd : job.dev.sectorSize ∣ job.tablePos content g := sectorSize_dvd_pos _ _
    rw [hoff]
    refine (writeAligned_triple hdvd _ _ I o).bind fun _ => .pure fun s hs => ⟨hs.1, ?_⟩
    have hbytes : s.out.bytes = o.bytes.splice (job.tablePos content g) job.gtAlloc st.bufGt := by
      rw [hs.2.1, alignUp_of_dvd job.dev.sectorSize_pos (dvd_alignUp _ _)]
      rfl
    have himage : job.Image content g (min (g * gtesPerGt + gtesPerGt) job.totalGrains) s.out := by
      refine h.image.write hbytes (fun m hm hw => ?_) fun g' hg' hused' => .inl ?_
      · by_cases hlo : g * gtesPerGt ≤ m
        · exact .inr (tablePos_add_le_grainPos hlo)
        · have := grainPos_add_le_tablePos (g := g) hw (by omega) (by omega)
          exact .inl (by omega)
      · have := tablePos_lt hused' hg'
        omega
    rw [← hfirst] at himage
    refine ⟨⟨himage.known, himage.grains, fun g' hg' hused' j hj => ?_⟩, fun g' => ?_, ?_, hbuf⟩
    · by_cases hlast : g' = g
      · subst hlast
        have hin : j * 4 + 4 ≤ job.gtAlloc := by
          unfold gtBytes at hgt
          omega
        rw [hbytes, le_splice_inside hin]
        exact hbuf j hj
      · exact himage.tables g' (by omega) hused' j hj
    · show (putLe st.gd (g * 4) 4 _).le (g' * 4) 4 = _
      by_cases hlast : g' = g
      · subst hlast
        rw [if_pos ⟨Nat.lt_succ_self _, hused⟩]
        exact le_putLe _ _ _ _
      · rw [putLe, le_splice_outside (by omega), h.directory g']
        exact if_congr ⟨fun hc => ⟨by omega, hc.2⟩, fun hc => ⟨by omega, hc.2⟩⟩ rfl rfl
    · rw [hcount, hfirst]
      exact hfree

section

variable (hread : ∀ off len, Ensures I (read off len) (Gives content off len))

include hread

theorem tableRound_triple (hg : g < job.numGdEntries)
    (st : VmdkLoop) : Triple (fun s => I s.reader ∧
      job.Between content g st s.out) (job.tableRound read g st)
      fun st' s => I s.reader ∧ job.Between content (g + 1) st' s.out := by
  have hfirst := firstGrain_eq hg
  intro s st' s' hs hrun
  obtain ⟨st1, s1, hgrains, hflush⟩ := eq_some_of_bind hrun
  have hloop := Triple.forRange (fun n st (s : ConvertState) => I s.reader ∧
    job.InTable content g n st s.out)
    (fun n st hlo hhi => grainRound_triple hread hlo (by omega) (by omega) st) (by omega)
    _ s st1 s1 ⟨hs.1, hs.2.inTable hfirst⟩ hgrains
  exact flushGt_triple hfirst hloop.2 I s1 st' s' ⟨hloop.1, rfl⟩ hflush

theorem tables_triple (bufData : ByteMap) :
    Triple (fun s => I s.reader) (forRange (job.tableRound read) job.numGdEntries 0
      (job.start bufData))
      fun st s => I s.reader ∧ job.Between content job.numGdEntries st s.out := by
  have hloop := Triple.forRange (fun g st (s : ConvertState) => I s.reader ∧
    job.Between content g st s.out)
    (fun g st (_ : 0 ≤ g) hhi => tableRound_triple hread hhi st) (Nat.zero_le job.numGdEntries)
    (job.start bufData)
  refine hloop.mono (fun s hs => ⟨hs, ?_⟩) fun _ _ h => h
  have hfirst : job.firstGrain 0 = 0 := by
    unfold firstGrain
    omega
  have hnone : ∀ m, ¬ m < job.firstGrain 0 := fun m hm => by omega
  refine ⟨⟨fun m hm => absurd hm (hnone m), fun m hm => absurd hm (hnone m),
    fun g' hg' => by omega⟩, fun g' => ?_, ?_, fun j _ => ?_⟩
  · rw [if_neg (by omega)]
    exact le_zeros fun _ _ => rfl
  · rw [hfirst]
    simp [start, tablesBefore, grainsBefore]
  · exact le_zeros fun _ _ => rfl

end

end VmdkJob

end Instar.Convert
