import Instar.Write.Progress

/-!
# Refcounts in the staged blocks

What the allocator, the decrement and the classifiers do, in terms of the flat view `rcAt` of the
staged refblocks.
-/

namespace Instar.Write

open Instar.Qcow2

/-! ## Lengths of refblocks -/

variable {st : WriteState} {rb rb' : Buffer} {update : WriteState → WriteState} {step : Option Step}
  {close : Bool}

theorem setEntry_len {blocks blocks' : Buffer} {cs bits epr c v : Nat}
    (h : setEntry blocks cs bits epr c v = .ok blocks') : blocks'.len = blocks.len := by
  unfold setEntry at h
  dsimp only at h
  split at h
  · cases h
  · cases h
    rfl

theorem claimRun_len (cs bits epr count start : Nat) (blocks : Buffer) :
    (claimRun cs bits epr count start blocks).2.len = blocks.len := by
  induction count generalizing start blocks with
  | zero => rfl
  | succ count ih =>
    unfold claimRun
    cases hset : setEntry blocks cs bits epr start 1 with
    | error e => rfl
    | ok blocks' =>
      rw [ih, setEntry_len hset]

theorem alloc_len (blocks : Buffer) (cs bits rbCount hostStart count : Nat) (cursor : AllocCursor) :
    (allocContiguousClustersInRefblocks blocks cs bits rbCount hostStart count cursor).2.1.len
      = blocks.len := by
  unfold allocContiguousClustersInRefblocks
  dsimp only
  split
  · rfl
  split
  · rfl
  split
  · rfl
  split
  · rfl
  split
  · rfl
  split
  · rfl
  split
  · rfl
  case h_2 start hscan =>
    have hlen := claimRun_len cs bits (cs * 8 / bits) count start blocks
    rcases hclaim : claimRun cs bits (cs * 8 / bits) count start blocks with ⟨res, blocks'⟩
    rw [hclaim] at hlen
    cases res with
    | error e => exact hlen
    | ok u =>
      dsimp only
      split <;> exact hlen

theorem allocCall_len {res : Except SnapshotError Nat} {cursor : AllocCursor}
    (h : allocCall st rb = (res, rb', cursor)) : rb'.len = rb.len := by
  have hlen := alloc_len rb st.geometry.clusterSize st.geometry.refcountBits
    (rb.len / st.geometry.clusterSize) 0 1 st.allocCursor
  unfold allocCall allocClusterInRefblocks at h
  rw [h] at hlen
  exact hlen

theorem decRefblocks_len {geo : Geometry} {host rbIdx : Nat}
    (h : decRefblocks geo rb host = .ok (rbIdx, rb')) : rb'.len = rb.len := by
  unfold decRefblocks at h
  dsimp only at h
  split at h
  · cases h
  split at h
  · cases h
  split at h
  · cases h
  split at h
  · cases h
  cases h
  rfl

theorem WriteMove.blocks_len {l1Raw l2Raw : Nat} {prog held next : WriteProgress}

    (h : WriteMove st rb l1Raw l2Raw prog step held update rb' next close) : rb'.len = rb.len := by
  cases h with
  | freshTable _ _ halloc => exact allocCall_len halloc
  | copyTable _ _ _ halloc => exact allocCall_len halloc
  | copyData _ _ halloc => exact allocCall_len halloc
  | freshData _ _ _ halloc => exact allocCall_len halloc
  | dropTable _ hdec => exact decRefblocks_len hdec
  | dropData _ hdec => exact decRefblocks_len hdec
  | _ => rfl

/-! ## The staged blocks -/

/-- The staged refblocks are whole blocks, within the limits of the configuration, and the cursor
stays in range. -/
structure BlocksFit (st : WriteState) (rb : Buffer) : Prop where
  geo : st.geometry.Wf
  limit : st.config.maxRefblocks ≤ maxRefblocks
  count : rb.len / st.geometry.clusterSize ≤ st.config.maxRefblocks
  whole : rb.len % st.geometry.clusterSize = 0
  cursor : st.allocCursor.nextRefblock * st.geometry.entriesPerRefblock
    + st.allocCursor.nextEntryInRefblock < 2 ^ 64

/-- The number of clusters the staged refblocks count. -/
def counted (geo : Geometry) (rb : Buffer) : Nat :=
  rb.len / geo.clusterSize * geo.entriesPerRefblock

section

variable {st : WriteState} {rb rb' : Buffer} {host c : Nat} {cursor : AllocCursor}
  {geo : Geometry} {sg : StagedRegions} {capacity : Nat}

theorem Geometry.Wf.perBlock_pos (h : geo.Wf) : 0 < geo.entriesPerRefblock := by
  have := h.size_pos
  have := h.perBlock
  omega

variable (h : BlocksFit st rb)

include h

theorem BlocksFit.counted_le : counted st.geometry rb ≤ 2 ^ 31 := by
  have hblocks : rb.len / st.geometry.clusterSize ≤ 2 ^ 11 :=
    h.count.trans (h.limit.trans (by decide))
  have hper : st.geometry.entriesPerRefblock ≤ 2 ^ 20 := by
    have := h.geo.size_le
    have := h.geo.perBlock
    omega
  calc counted st.geometry rb ≤ 2 ^ 11 * 2 ^ 20 := Nat.mul_le_mul hblocks hper
    _ = 2 ^ 31 := by decide

/-- A counted cluster starts at an aligned offset that an entry can hold. -/
theorem BlocksFit.host_ok (hc : c < counted st.geometry rb) :
    c * st.geometry.clusterSize < 2 ^ 56 ∧ 512 ∣ c * st.geometry.clusterSize := by
  refine ⟨?_, h.geo.size_dvd.mul_left c⟩
  calc c * st.geometry.clusterSize ≤ 2 ^ 31 * 2 ^ 21 :=
        Nat.mul_le_mul (hc.le.trans h.counted_le) h.geo.size_le
    _ < 2 ^ 56 := by decide

theorem allocCall_cases : (∃ c bs cursor, allocCall st rb
        = (.ok (c * st.geometry.clusterSize), { rb with bytes := bs }, cursor) ∧
      c < counted st.geometry rb ∧ rcAt rb.bytes c = 0 ∧
      (∀ c', rcAt bs c' = if c' = c then 1 else rcAt rb.bytes c') ∧
      (∀ i, (i < 2 * c ∨ 2 * (c + 1) ≤ i) → bs i = rb.bytes i) ∧
      cursor.nextRefblock * st.geometry.entriesPerRefblock + cursor.nextEntryInRefblock < 2 ^ 64) ∨
    allocCall st rb = (.error .refcountExhausted, rb, st.allocCursor) := by
  have hcounted := h.counted_le
  have hper := h.geo.perBlock
  have hsize : counted st.geometry rb * st.geometry.clusterSize < 2 ^ 64 := by
    calc _ ≤ 2 ^ 31 * 2 ^ 21 := Nat.mul_le_mul hcounted h.geo.size_le
      _ < 2 ^ 64 := by decide
  have hlen : rb.len / st.geometry.clusterSize * st.geometry.clusterSize ≤ rb.len :=
    Nat.div_mul_le_self _ _
  unfold allocCall allocClusterInRefblocks
  rw [h.geo.bits]
  rcases alloc_cases st.allocCursor h.geo.perBlock_pos (by omega) one_pos hlen hsize h.cursor with
    ⟨s, bs, heq, hs, hfree, hrc, hbytes⟩ | heq
  · refine .inl ⟨s, bs, _, heq, hs, by simpa using hfree 0 one_pos, fun c' => ?_, hbytes, ?_⟩
    · rw [hrc]
      congr 1
      exact propext ⟨fun hc => by omega, fun hc => by omega⟩
    · show (s + 1) / _ * _ + (s + 1) % _ < _
      rw [Nat.div_add_mod']
      unfold counted at hcounted
      omega
  · exact .inr heq

/-- An allocation claims a free counted cluster. -/
theorem allocCall_ok (halloc : allocCall st rb = (.ok host, rb', cursor)) :
    ∃ c, host = c * st.geometry.clusterSize ∧ c < counted st.geometry rb ∧ rcAt rb.bytes c = 0 ∧
      rb'.len = rb.len ∧ (∀ c', rcAt rb'.bytes c' = if c' = c then 1 else rcAt rb.bytes c') ∧
      (∀ i, (i < 2 * c ∨ 2 * (c + 1) ≤ i) → rb'.bytes i = rb.bytes i) ∧
      cursor.nextRefblock * st.geometry.entriesPerRefblock + cursor.nextEntryInRefblock <
      2 ^ 64 := by
  rcases allocCall_cases h with ⟨c, bs, cursor', heq, hc, hfree, hrc, hbytes, hcursor⟩ | heq
  · rw [heq] at halloc
    cases halloc
    exact ⟨c, rfl, hc, hfree, rfl, hrc, hbytes, hcursor⟩
  · rw [heq] at halloc
    cases halloc

/-- A failed allocation changes nothing. -/
theorem allocCall_error {err : SnapshotError}
    (halloc : allocCall st rb = (.error err, rb', cursor)) :
    rb' = rb ∧ cursor = st.allocCursor := by
  rcases allocCall_cases h with ⟨c, bs, cursor', heq, -⟩ | heq
  · rw [heq] at halloc
    cases halloc
  · rw [heq] at halloc
    cases halloc
    exact ⟨rfl, rfl⟩

omit h

/-! ## Reading and dropping -/

variable (hgeo : geo.Wf) {entry : Nat}

include hgeo

/-- Which block counts a cluster. -/
theorem counted_iff : ¬ rb.len / geo.clusterSize ≤ c / geo.entriesPerRefblock ↔
    c < counted geo rb := by
  rw [not_le, counted, Nat.div_lt_iff_lt_mul hgeo.perBlock_pos]

theorem counted_slice (hc : c < counted geo rb) :
    c / geo.entriesPerRefblock * geo.clusterSize + geo.clusterSize ≤ rb.len := by
  have hblock : c / geo.entriesPerRefblock + 1 ≤ rb.len / geo.clusterSize :=
    (Nat.div_lt_iff_lt_mul hgeo.perBlock_pos).mpr hc
  calc c / geo.entriesPerRefblock * geo.clusterSize + geo.clusterSize
      = (c / geo.entriesPerRefblock + 1) * geo.clusterSize := by ring
    _ ≤ rb.len / geo.clusterSize * geo.clusterSize := Nat.mul_le_mul_right _ hblock
    _ ≤ rb.len := Nat.div_mul_le_self _ _

theorem readBlock_eq (hc : c < counted geo rb) :
    readRefcountInBlock (rb.slice (c / geo.entriesPerRefblock * geo.clusterSize) geo.clusterSize)
      (c % geo.entriesPerRefblock) geo.refcountBits = .ok (rcAt rb.bytes c) := by
  have hper := hgeo.perBlock
  have hslice := counted_slice hgeo hc
  have h := readEntry_eq (by omega) hgeo.perBlock_pos hslice
  unfold readEntry at h
  rw [hgeo.bits]
  simpa [not_lt.mpr hslice] using h

theorem readStagedRefcount_eq : readStagedRefcount geo rb host
      = if host / geo.clusterSize < counted geo rb then .ok (rcAt rb.bytes (host / geo.clusterSize))
        else .error .refcountCoverage := by
  unfold readStagedRefcount
  by_cases hc : host / geo.clusterSize < counted geo rb
  · rw [if_neg ((counted_iff hgeo).mpr hc), if_pos hc, readBlock_eq hgeo hc]
  · rw [if_pos (by_contra fun h => hc ((counted_iff hgeo).mp h)), if_neg hc]

theorem setBlock_eq (rb : Buffer) (c v : Nat) : ∃ block, setRefcountInBlock
        (rb.slice (c / geo.entriesPerRefblock * geo.clusterSize) geo.clusterSize)
        (c % geo.entriesPerRefblock) geo.refcountBits v = .ok block ∧
      rb.patch (c / geo.entriesPerRefblock * geo.clusterSize) block
        = { rb with bytes := rb.bytes.splice (2 * c) 2 (ByteMap.ofBe v 2) } := by
  have hper := hgeo.perBlock
  have hcs : geo.clusterSize = 2 * geo.entriesPerRefblock := by omega
  have h : setEntry rb geo.clusterSize 16 geo.entriesPerRefblock c v = _ :=
    setEntry_eq hcs hgeo.perBlock_pos
  rw [hgeo.bits]
  unfold setEntry at h
  dsimp only at h
  split at h
  · cases h
  case h_2 block hset =>
    injection h with hpatch
    exact ⟨block, hset, hpatch⟩

/-- Dropping a reference lowers one count by one. -/
theorem decRefblocks_ok {rbIdx : Nat} (h : decRefblocks geo rb host = .ok (rbIdx, rb')) :
    host / geo.clusterSize < counted geo rb ∧
    rbIdx = host / geo.clusterSize / geo.entriesPerRefblock ∧
      0 < rcAt rb.bytes (host / geo.clusterSize) ∧ rb'.len = rb.len ∧
      (∀ c, rcAt rb'.bytes c = if c = host / geo.clusterSize then rcAt rb.bytes c - 1
        else rcAt rb.bytes c) ∧
      ∀ i, (i < 2 * (host / geo.clusterSize) ∨ 2 * (host / geo.clusterSize + 1) ≤ i) →
        rb'.bytes i = rb.bytes i := by
  unfold decRefblocks at h
  dsimp only at h
  split at h
  · cases h
  case isFalse hcovered =>
    have hc := (counted_iff hgeo).mp hcovered
    have hlt : rcAt rb.bytes (host / geo.clusterSize) < 2 ^ 16 := rcAt_lt _ _
    rw [readBlock_eq hgeo hc] at h
    dsimp only at h
    have hcheck : checkRefcountAfterAddend (rcAt rb.bytes (host / geo.clusterSize)) (-1)
        geo.refcountBits = if rcAt rb.bytes (host / geo.clusterSize) < 1 then .error .parseFailed
          else .ok (rcAt rb.bytes (host / geo.clusterSize) - 1) := by
      rw [hgeo.bits]
      rfl
    rw [hcheck] at h
    split at h
    · cases h
    case h_2 new hnew =>
      split at hnew
      · cases hnew
      case isFalse hpos =>
        cases hnew
        obtain ⟨block, hset, hpatch⟩ := setBlock_eq hgeo rb (host / geo.clusterSize)
          (rcAt rb.bytes (host / geo.clusterSize) - 1)
        rw [hset] at h
        cases h
        rw [hpatch]
        refine ⟨hc, rfl, by omega, rfl, fun c => ?_, fun i hi => ?_⟩
        · show rcAt (ByteMap.splice _ _ _ _) c = _
          rw [rcAt_splice _ _ _ (by omega)]
          split
          case isTrue heq => rw [heq]
          case isFalse => rfl
        · exact ByteMap.splice_outside (by omega)

omit hgeo

/-! ## Classification -/

/-- An offset that names a cluster. -/
structure HostOk (geo : Geometry) (host : Nat) : Prop where
  aligned : host % geo.clusterSize = 0
  small : host < 2 ^ 56

include hgeo

theorem HostOk.dvd (h : HostOk geo host) : 512 ∣ host :=
  hgeo.size_dvd.trans (Nat.dvd_of_mod_eq_zero h.aligned)

/-- The entry that installs a cluster names it. -/
theorem HostOk.patched (h : HostOk geo host) : hostOf (host ||| oflagCopied) = host :=
  hostOf_patched h.small (h.dvd hgeo)

omit hgeo

theorem hostOk_hostOf (h : hostOf entry % geo.clusterSize = 0) : HostOk geo (hostOf entry) :=
  ⟨h, hostOf_lt entry⟩

include h in
theorem allocCall_hostOk (halloc : allocCall st rb = (.ok host, rb', cursor)) :
    HostOk st.geometry host := by
  obtain ⟨c, rfl, hc, -⟩ := allocCall_ok h halloc
  exact ⟨Nat.mul_mod_left _ _, (h.host_ok hc).1⟩

/-- The staged count of a cluster, where the staged blocks reach it. -/
structure CountIs (geo : Geometry) (rb : Buffer) (host n : Nat) : Prop where
  covered : host / geo.clusterSize < counted geo rb
  count : rcAt rb.bytes (host / geo.clusterSize) = n

include hgeo in
theorem countIs_of_read {n : Nat} (h : readStagedRefcount geo rb host = .ok n) :
    CountIs geo rb host n := by
  rw [readStagedRefcount_eq hgeo] at h
  split at h
  · cases h
    exact ⟨‹_›, rfl⟩
  · cases h

section

variable (st : WriteState) (rb : Buffer) (entry : Nat)

/-- What a classification says about the L2 entry. -/
inductive EntryVerdict : Classified → Prop where
  | empty (hentry : entry = 0) : EntryVerdict .unallocated
  | zeroed (hplain : entry &&& oflagCompressed = 0) (hzero : entry &&& qcowOflagZero ≠ 0)
      (hhost : hostOf entry = 0) : EntryVerdict .unallocated
  | owned (hplain : entry &&& oflagCompressed = 0) (hzero : entry &&& qcowOflagZero = 0)
      (hne : hostOf entry ≠ 0) (hok : HostOk st.geometry (hostOf entry))
      (hcount : CountIs st.geometry rb (hostOf entry) 1) :
      EntryVerdict (.owned (hostOf entry))
  | ownedZero (hplain : entry &&& oflagCompressed = 0) (hzero : entry &&& qcowOflagZero ≠ 0)
      (hne : hostOf entry ≠ 0) (hok : HostOk st.geometry (hostOf entry))
      (hcount : CountIs st.geometry rb (hostOf entry) 1) :
      EntryVerdict (.ownedZero (hostOf entry))
  | shared (hplain : entry &&& oflagCompressed = 0) (hne : hostOf entry ≠ 0)
      (hok : HostOk st.geometry (hostOf entry)) (hcow : st.cowEnabled = true) :
      EntryVerdict (.cowData (hostOf entry) (decide (entry &&& qcowOflagZero ≠ 0)))

end

theorem EntryVerdict.unmapped (h : EntryVerdict st rb entry .unallocated) :
    entry &&& oflagCompressed = 0 ∧ hostOf entry = 0 := by
  cases h with
  | empty hentry =>
    rw [hentry]
    exact ⟨rfl, rfl⟩
  | zeroed hplain _ hhost => exact ⟨hplain, hhost⟩

/-- What each verdict on an L2 entry means. -/
theorem classify_ok (hgeo : st.geometry.Wf) {v : Classified}
    (h : classifyL2Entry st rb entry = .ok v) : EntryVerdict st rb entry v := by
  unfold classifyL2Entry at h
  by_cases hentry : entry = 0
  · rw [if_pos hentry] at h
    cases h
    exact .empty hentry
  rw [if_neg hentry] at h
  by_cases hplain : entry &&& oflagCompressed = 0
  case neg =>
    rw [if_pos hplain] at h
    cases h
  rw [if_neg (not_not.mpr hplain), ite_error_eq_ok] at h
  obtain ⟨-, h⟩ := h
  by_cases hzero : entry &&& qcowOflagZero = 0
  · rw [if_neg (not_not.mpr hzero), ite_error_eq_ok] at h
    obtain ⟨hhost, h⟩ := h
    push Not at hhost
    have hok : HostOk st.geometry (hostOf entry) := hostOk_hostOf hhost.2
    have hshared : st.cowEnabled = true →
        EntryVerdict st rb entry (.cowData (hostOf entry) false) := by
      intro hcow
      have hv : EntryVerdict st rb entry _ := .shared hplain hhost.1 hok hcow
      rwa [decide_eq_false (not_not.mpr hzero)] at hv
    split at h
    · split at h <;> cases h
      exact hshared ‹_›
    · cases hread : readStagedRefcount st.geometry rb (entry &&& l2OffsetMask) with
      | error e =>
        rw [hread] at h
        cases h
      | ok rc =>
        simp only [hread, ite_error_eq_ok] at h
        obtain ⟨hrc, h⟩ := h
        split at h
        · split at h <;> cases h
          exact hshared ‹_›
        · cases h
          have hcount := countIs_of_read hgeo hread
          obtain rfl : rc = 1 := by omega
          exact .owned hplain hzero hhost.1 hok hcount
  · rw [if_pos hzero] at h
    by_cases hhost : entry &&& l2OffsetMask = 0
    · rw [if_pos hhost] at h
      cases h
      exact .zeroed hplain hzero hhost
    rw [if_neg hhost, ite_error_eq_ok] at h
    obtain ⟨hal, h⟩ := h
    have hok : HostOk st.geometry (hostOf entry) := hostOk_hostOf (not_not.mp hal)
    cases hread : readStagedRefcount st.geometry rb (entry &&& l2OffsetMask) with
    | error e =>
      rw [hread] at h
      cases h
    | ok rc =>
      simp only [hread, ite_error_eq_ok] at h
      obtain ⟨hrc, h⟩ := h
      split at h
      · split at h <;> cases h
        have hv : EntryVerdict st rb entry _ := .shared hplain hhost hok ‹_›
        rwa [decide_eq_true hzero] at hv
      · cases h
        have hcount := countIs_of_read hgeo hread
        obtain rfl : rc = 1 := by omega
        exact .ownedZero hplain hzero hhost hok hcount

/-- What a verdict says about the L1 entry. -/
inductive TableVerdict (st : WriteState) (rb : Buffer) (raw : Nat) : L1Verdict → Prop where
  | owned (hne : hostOf raw ≠ 0) (hok : HostOk st.geometry (hostOf raw))
      (hcount : CountIs st.geometry rb (hostOf raw) 1) :
      TableVerdict st rb raw (.owned (hostOf raw))
  | shared (hne : hostOf raw ≠ 0) (hok : HostOk st.geometry (hostOf raw))
      (hcow : st.cowEnabled = true) : TableVerdict st rb raw (.cowL2 (hostOf raw))

theorem validateL1_ok (hgeo : st.geometry.Wf) {raw : Nat} {v : L1Verdict}
    (h : validateL1Entry st rb raw = .ok v) : TableVerdict st rb raw v := by
  unfold validateL1Entry at h
  simp only [ite_error_eq_ok] at h
  obtain ⟨-, hhost, h⟩ := h
  push Not at hhost
  have hok : HostOk st.geometry (hostOf raw) := hostOk_hostOf hhost.2
  split at h
  · split at h <;> cases h
    exact .shared hhost.1 hok ‹_›
  · cases hread : readStagedRefcount st.geometry rb (raw &&& l1OffsetMask) with
    | error e =>
      rw [hread] at h
      cases h
    | ok rc =>
      simp only [hread, ite_error_eq_ok] at h
      obtain ⟨hrc, h⟩ := h
      split at h
      · split at h <;> cases h
        exact .shared hhost.1 hok ‹_›
      · cases h
        have hcount := countIs_of_read hgeo hread
        obtain rfl : rc = 1 := by omega
        exact .owned hhost.1 hok hcount

/-! ## Through a write -/

theorem validateStaged_ok (h : validateStaged st sg capacity = .ok ()) :
      st.geometry.l1Size * 8 ≤ sg.l1.len ∧
      st.config.l2Slots * st.geometry.clusterSize ≤ sg.l2Window.len ∧
      sg.refblocks.len % st.geometry.clusterSize = 0 ∧
      sg.refblocks.len / st.geometry.clusterSize ≤ st.config.maxRefblocks ∧
      sg.refblocks.len / st.geometry.clusterSize * 8 ≤ sg.refcountTable.len := by
  simp only [validateStaged, ite_error_eq_ok] at h
  exact ⟨by omega, by omega, by omega, by omega, by omega⟩

/-- The allocation cursor and the configured number of blocks are in range. -/
structure CursorFit (st : WriteState) : Prop where
  limit : st.config.maxRefblocks ≤ maxRefblocks
  cursor : st.allocCursor.nextRefblock * st.geometry.entriesPerRefblock
    + st.allocCursor.nextEntryInRefblock < 2 ^ 64

theorem CursorFit.blocks (h : CursorFit st) (hgeo : st.geometry.Wf)
    (hvalid : validateStaged st sg capacity = .ok ()) : BlocksFit st sg.refblocks := by
  obtain ⟨-, -, hwhole, hcount, -⟩ := validateStaged_ok hvalid
  exact ⟨hgeo, h.limit, hcount, hwhole, h.cursor⟩

theorem WriteMove.blocksFit {l1Raw l2Raw : Nat} {prog held next : WriteProgress}
    (hfit : BlocksFit st rb)
    (h : WriteMove st rb l1Raw l2Raw prog step held update rb' next close) :
    BlocksFit (update (st.countStep step)) rb' := by
  have hframe := h.frame (st.countStep step)
  have hgeo : (update (st.countStep step)).geometry = st.geometry := by
    rw [hframe.geometry, countStep_geometry]
  have hconfig : (update (st.countStep step)).config = st.config := by
    rw [hframe.config, countStep_config]
  have hcursor :
      (update (st.countStep step)).allocCursor.nextRefblock * st.geometry.entriesPerRefblock
      + (update (st.countStep step)).allocCursor.nextEntryInRefblock < 2 ^ 64 := by
    have halloc : ∀ {host cursor}, allocCall st rb = (.ok host, rb', cursor) →
        cursor.nextRefblock * st.geometry.entriesPerRefblock + cursor.nextEntryInRefblock <
        2 ^ 64 := by
      intro host cursor halloc
      obtain ⟨c, -, -, -, -, -, -, hcursor⟩ := allocCall_ok hfit halloc
      exact hcursor
    cases h with
    | freshTable _ _ hcall => exact halloc hcall
    | copyTable _ _ _ hcall => exact halloc hcall
    | copyData _ _ hcall => exact halloc hcall
    | freshData _ _ _ hcall => exact halloc hcall
    | head => simpa using hfit.cursor
    | tail => simpa using hfit.cursor
    | _ => exact hfit.cursor
  refine ⟨hgeo ▸ hfit.geo, hconfig ▸ hfit.limit, ?_, ?_, ?_⟩
  · rw [hgeo, hconfig, h.blocks_len]
    exact hfit.count
  · rw [hgeo, h.blocks_len]
    exact hfit.whole
  · rw [hgeo]
    exact hcursor

end

end Instar.Write
