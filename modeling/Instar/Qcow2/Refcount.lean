import Instar.Qcow2.Format

/-!
# Refcount blocks and the cluster allocator

The scalar refcount accessors of `crates/snapshot` for every width the format allows, the addend
check, and the first-fit allocator over a run of concatenated refcount blocks.  The allocator and
everything above it work with 16-bit entries, whose flat layout is one big-endian field per
cluster: `rcAt blocks c` is the two bytes at `2 * c`, and the lemmas restate the accessors and the
allocator in those terms.
-/

namespace Instar.Qcow2

open ByteMap

/-- The errors the refcount primitives return. -/
inductive SnapshotError where
  | unsupportedFormat
  | unsupportedFeature
  | notFound
  | duplicateName
  | refcountOverflow (atHostOffset : Nat)
  | allocationFailed
  | refcountExhausted
  | snapshotTableFull
  | io
  | l1SizeMismatch
  | invalidUtf8
  | invalidConfig
  | parseFailed
  | misalignedAccess
  | unsupported
  deriving DecidableEq, Repr

/-! ## Scalar accessors -/

section

variable (block : Buffer)

/-- Read an entry of a sub-byte width: `per` entries to a byte, the first in the lowest bits. -/
def readPacked (localIdx bits per : Nat) : Except SnapshotError Nat :=
  let byte := localIdx / per
  if block.len ≤ byte then .error .misalignedAccess
  else .ok ((block.bytes byte).toNat >>> (bits * (localIdx % per)) % 2 ^ bits)

/-- Read a big-endian entry of `n` bytes. -/
def readWide (localIdx n : Nat) : Except SnapshotError Nat :=
  if block.len < localIdx * n + n then .error .misalignedAccess
  else .ok (block.be (localIdx * n) n)

/-- Read the refcount entry `localIdx` of a refcount block. -/
def readRefcountInBlock (localIdx refcountBits : Nat) :
    Except SnapshotError Nat :=
  match refcountBits with
  | 1 => readPacked block localIdx 1 8
  | 2 => readPacked block localIdx 2 4
  | 4 => readPacked block localIdx 4 2
  | 8 => readWide block localIdx 1
  | 16 => readWide block localIdx 2
  | 32 => readWide block localIdx 4
  | 64 => readWide block localIdx 8
  | _ => .error .unsupported

/-- Set an entry of a sub-byte width to `value`, leaving its neighbours in the byte alone. -/
def setPacked (localIdx bits per value : Nat) : Except SnapshotError Buffer :=
  let byte := localIdx / per
  if block.len ≤ byte then .error .misalignedAccess
  else
    let shift := bits * (localIdx % per)
    let old := (block.bytes byte).toNat
    let cleared := old - (old >>> shift % 2 ^ bits) <<< shift
    let new := UInt8.ofNat (cleared ||| value <<< shift)
    .ok { block with bytes := block.bytes.splice byte 1 fun _ => new }

/-- Set a big-endian entry of `n` bytes to `value`, truncated to its width. -/
def setWide (localIdx n value : Nat) : Except SnapshotError Buffer :=
  if block.len < localIdx * n + n then .error .misalignedAccess
  else .ok { block with bytes := block.bytes.splice (localIdx * n) n (ofBe value n) }

/-- Set the refcount entry `localIdx` of a refcount block. The one-bit width stores whether
`value` is nonzero; the two- and four-bit widths keep its low bits. -/
def setRefcountInBlock (localIdx refcountBits value : Nat) :
    Except SnapshotError Buffer :=
  match refcountBits with
  | 1 => setPacked block localIdx 1 8 (if value = 0 then 0 else 1)
  | 2 => setPacked block localIdx 2 4 (value % 4)
  | 4 => setPacked block localIdx 4 2 (value % 16)
  | 8 => setWide block localIdx 1 value
  | 16 => setWide block localIdx 2 value
  | 32 => setWide block localIdx 4 value
  | 64 => setWide block localIdx 8 value
  | _ => .error .unsupported

end

/-- `current + addend`, refused when it leaves the range of the refcount width. -/
def checkRefcountAfterAddend (current : Nat) (addend : Int) (refcountBits : Nat) :
    Except SnapshotError Nat :=
  if refcountBits = 0 then .error .unsupported else
  let max := if 64 ≤ refcountBits then 2 ^ 64 - 1 else 2 ^ refcountBits - 1
  if 0 ≤ addend then
    if max < current + addend.toNat then .error (.refcountOverflow 0)
    else .ok (current + addend.toNat)
  else if current < (-addend).toNat then .error .parseFailed
  else .ok (current - (-addend).toNat)

/-! ## The allocator -/

/-- Where the next allocation scan resumes. -/
structure AllocCursor where
  nextRefblock : Nat
  nextEntryInRefblock : Nat
  allocated : Nat
  deriving DecidableEq, Repr

/-- The refcount of a flat cluster index within concatenated blocks. -/
def readEntry (blocks : Buffer) (clusterSize refcountBits entriesPerRefblock clusterIndex : Nat) :
    Except SnapshotError Nat :=
  let off := clusterIndex / entriesPerRefblock * clusterSize
  if blocks.len < off + clusterSize then .error .misalignedAccess
  else readRefcountInBlock (blocks.slice off clusterSize) (clusterIndex % entriesPerRefblock)
    refcountBits

/-- Set the refcount of a flat cluster index within concatenated blocks. -/
def setEntry (blocks : Buffer)
    (clusterSize refcountBits entriesPerRefblock clusterIndex value : Nat) :
    Except SnapshotError Buffer :=
  let off := clusterIndex / entriesPerRefblock * clusterSize
  match setRefcountInBlock (blocks.slice off clusterSize) (clusterIndex % entriesPerRefblock)
    refcountBits value with
  | .error e => .error e
  | .ok block => .ok (blocks.patch off block)

/-- The first occupied entry of `[probe, probe + count)`, if any. -/
def scanRun (blocks : Buffer) (clusterSize refcountBits entriesPerRefblock : Nat) :
    Nat → Nat → Except SnapshotError (Option Nat)
  | 0, _ => .ok none
  | count + 1, probe =>
    match readEntry blocks clusterSize refcountBits entriesPerRefblock probe with
    | .error e => .error e
    | .ok rc =>
      if rc ≠ 0 then .ok (some probe)
      else scanRun blocks clusterSize refcountBits entriesPerRefblock count (probe + 1)

/-- Set the entries `[start, start + count)` to one. -/
def claimRun (clusterSize refcountBits entriesPerRefblock : Nat) :
    Nat → Nat → Buffer → Except SnapshotError Unit × Buffer
  | 0, _, blocks => (.ok (), blocks)
  | count + 1, start, blocks =>
    match setEntry blocks clusterSize refcountBits entriesPerRefblock start 1 with
    | .error e => (.error e, blocks)
    | .ok blocks => claimRun clusterSize refcountBits entriesPerRefblock count (start + 1) blocks

/-- The outer scan: try a run at `start`, and on an occupied entry resume just past it. -/
def allocScan (blocks : Buffer)
    (clusterSize refcountBits entriesPerRefblock totalEntries count : Nat) :
    Nat → Nat → Except SnapshotError Nat
  | 0, _ => .error .refcountExhausted
  | fuel + 1, start =>
    if start + count ≤ totalEntries then
      match scanRun blocks clusterSize refcountBits entriesPerRefblock count start with
      | .error e => .error e
      | .ok none => .ok start
      | .ok (some probe) =>
        allocScan blocks clusterSize refcountBits entriesPerRefblock totalEntries count
          fuel (probe + 1)
    else .error .refcountExhausted

/-- Allocate `count` consecutive clusters, first fit from the cursor, and return the host offset
of the first. -/
def allocContiguousClustersInRefblocks (blocks : Buffer)
    (clusterSize refcountBits refblockCount hostRefblocksStart count : Nat) (cursor : AllocCursor) :
    Except SnapshotError Nat × Buffer × AllocCursor :=
  if refcountBits ≠ 16 then (.error .unsupported, blocks, cursor) else
  if clusterSize = 0 then (.error .invalidConfig, blocks, cursor) else
  if count = 0 then (.error .invalidConfig, blocks, cursor) else
  let entriesPerRefblock := clusterSize * 8 / refcountBits
  if entriesPerRefblock = 0 then (.error .invalidConfig, blocks, cursor) else
  let totalEntries := refblockCount * entriesPerRefblock
  if ¬ totalEntries < 2 ^ 64 then (.error .parseFailed, blocks, cursor) else
  let start := cursor.nextRefblock * entriesPerRefblock + cursor.nextEntryInRefblock
  if ¬ start < 2 ^ 64 then (.error .parseFailed, blocks, cursor) else
  match allocScan blocks clusterSize refcountBits entriesPerRefblock totalEntries count
    (totalEntries + 1) start with
  | .error e => (.error e, blocks, cursor)
  | .ok start =>
    match claimRun clusterSize refcountBits entriesPerRefblock count start blocks with
    | (.error e, blocks) => (.error e, blocks, cursor)
    | (.ok (), blocks) =>
      let next := start + count
      let cursor := { nextRefblock := next / entriesPerRefblock
                      nextEntryInRefblock := next % entriesPerRefblock
                      allocated := cursor.allocated + count }
      let hostOffset := start * clusterSize + hostRefblocksStart
      if hostOffset < 2 ^ 64 then (.ok hostOffset, blocks, cursor)
      else (.error .parseFailed, blocks, cursor)

/-- Allocate a single cluster. -/
def allocClusterInRefblocks (blocks : Buffer)
    (clusterSize refcountBits refblockCount hostRefblocksStart : Nat) (cursor : AllocCursor) :
    Except SnapshotError Nat × Buffer × AllocCursor :=
  allocContiguousClustersInRefblocks blocks clusterSize refcountBits refblockCount
    hostRefblocksStart 1 cursor

/-! ## The flat 16-bit view -/

/-- The 16-bit refcount of cluster `c` in concatenated refcount blocks. -/
def rcAt (blocks : ByteMap) (c : Nat) : Nat := blocks.be (2 * c) 2

variable {blocks blocks' : Buffer} {cs epr c v count start total fuel : Nat}

theorem rcAt_lt (blocks : ByteMap) (c : Nat) : rcAt blocks c < 2 ^ 16 := be_lt blocks _ 2

variable (hcs : cs = 2 * epr)

include hcs

/-- The byte offset of a flat index, reached through its block. -/
theorem entry_offset (c : Nat) : c / epr * cs + c % epr * 2 = 2 * c := by
  have h := Nat.div_add_mod c epr
  rw [hcs]
  calc c / epr * (2 * epr) + c % epr * 2 = 2 * (epr * (c / epr) + c % epr) := by ring
    _ = 2 * c := by rw [h]

/-- A 16-bit read through the blocks is the flat field. -/
theorem readEntry_eq (hepr : 0 < epr) (hlen : c / epr * cs + cs ≤ blocks.len) :
    readEntry blocks cs 16 epr c = .ok (rcAt blocks.bytes c) := by
  have hmod : c % epr < epr := Nat.mod_lt _ hepr
  have hfit : ¬ cs < c % epr * 2 + 2 := by omega
  simp only [readEntry, readRefcountInBlock, readWide, not_lt.mpr hlen, if_false,
    hfit, Buffer.be, Buffer.slice, be_drop, entry_offset hcs, rcAt]

/-- A 16-bit store through the blocks is a splice of the flat field. -/
theorem setEntry_eq (hepr : 0 < epr) : setEntry blocks cs 16 epr c v
      = .ok { blocks with bytes := blocks.bytes.splice (2 * c) 2 (ofBe v 2) } := by
  have hmod : c % epr < epr := Nat.mod_lt _ hepr
  have hfit : ¬ cs < c % epr * 2 + 2 := by omega
  have hpiece := splice_of_piece blocks.bytes (c / epr * cs) cs (c % epr * 2) 2
    (ofBe v 2) (by omega)
  rw [entry_offset hcs] at hpiece
  simp only [setEntry, setRefcountInBlock, setWide, hfit, if_false, Buffer.slice,
    Buffer.patch, hpiece]

omit hcs

/-- A store changes one flat entry. -/
theorem rcAt_splice (blocks : ByteMap) (c c' : Nat) (hv : v < 2 ^ 16) :
    rcAt (blocks.splice (2 * c) 2 (ofBe v 2)) c' = if c' = c then v else rcAt blocks c' := by
  by_cases h : c' = c
  · simp only [h, if_true, rcAt]
    exact be_splice_ofBe (by simpa using hv)
  · simp only [h, if_false, rcAt]
    exact be_splice_outside (by omega)

/-! ## What an allocation does -/

include hcs

/-- A scan either finds the whole run free or stops at an occupied entry of it. -/
theorem scanRun_cases (hepr : 0 < epr)
    (hcov : ∀ c < start + count, c / epr * cs + cs ≤ blocks.len) :
    (scanRun blocks cs 16 epr count start = .ok none ∧
      ∀ k < count, rcAt blocks.bytes (start + k) = 0) ∨
    ∃ probe, scanRun blocks cs 16 epr count start = .ok (some probe) ∧
      start ≤ probe ∧ rcAt blocks.bytes probe ≠ 0 := by
  induction count generalizing start with
  | zero => exact .inl ⟨rfl, by simp⟩
  | succ count ih =>
    have hread : readEntry blocks cs 16 epr start = .ok (rcAt blocks.bytes start) :=
      readEntry_eq hcs hepr (hcov start (by omega))
    by_cases hfree : rcAt blocks.bytes start = 0
    · have hstep : scanRun blocks cs 16 epr (count + 1) start
          = scanRun blocks cs 16 epr count (start + 1) := by
        simp [scanRun, hread, hfree]
      rw [hstep]
      rcases @ih (start + 1) (fun c hc => hcov c (by omega)) with ⟨hnone, hall⟩ |
        ⟨probe, hsome, hle, hne⟩
      · refine .inl ⟨hnone, fun k hk => ?_⟩
        cases k with
        | zero => exact hfree
        | succ k =>
          rw [show start + (k + 1) = start + 1 + k by omega]
          exact hall k (by omega)
      · exact .inr ⟨probe, hsome, by omega, hne⟩
    · exact .inr ⟨start, by simp [scanRun, hread, hfree], le_rfl, hfree⟩

/-- The allocator's scan returns a free run or reports exhaustion. -/
theorem allocScan_cases (hepr : 0 < epr) (hcov : ∀ c < total, c / epr * cs + cs ≤ blocks.len) :
    (∃ s, allocScan blocks cs 16 epr total count fuel start = .ok s ∧ s + count ≤ total ∧
      ∀ k < count, rcAt blocks.bytes (s + k) = 0) ∨
    allocScan blocks cs 16 epr total count fuel start = .error .refcountExhausted := by
  induction fuel generalizing start with
  | zero => exact .inr rfl
  | succ fuel ih =>
    by_cases hfit : start + count ≤ total
    · have hcov' : ∀ c < start + count, c / epr * cs + cs ≤ blocks.len :=
        fun c hc => hcov c (by omega)
      rcases scanRun_cases hcs hepr hcov' with ⟨hnone, hall⟩ | ⟨probe, hsome, -, -⟩
      · exact .inl ⟨start, by simp [allocScan, hfit, hnone], hfit, hall⟩
      · simp only [allocScan, hfit, if_true, hsome]
        exact ih
    · exact .inr (by simp [allocScan, hfit])

/-- Claiming a run sets its entries to one and leaves every byte outside the run alone. -/
theorem claimRun_spec (hepr : 0 < epr) :
    ∃ bs, claimRun cs 16 epr count start blocks = (.ok (), { blocks with bytes := bs }) ∧
      (∀ c, rcAt bs c = if start ≤ c ∧ c < start + count then 1 else rcAt blocks.bytes c) ∧
      ∀ i, (i < 2 * start ∨ 2 * (start + count) ≤ i) → bs i = blocks.bytes i := by
  induction count generalizing start blocks with
  | zero =>
    refine ⟨blocks.bytes, rfl, fun c => ?_, fun i _ => rfl⟩
    rw [if_neg (by omega)]
  | succ count ih =>
    obtain ⟨bs, hrun, hrc, hout⟩ := @ih
      { blocks with bytes := blocks.bytes.splice (2 * start) 2 (ofBe 1 2) } (start + 1)
    refine ⟨bs, ?_, fun c => ?_, fun i hi => ?_⟩
    · rw [claimRun, setEntry_eq hcs hepr]
      exact hrun
    · rw [hrc, rcAt_splice _ _ _ (by decide)]
      grind
    · rw [hout i (by omega)]
      exact splice_outside (by omega)

omit hcs

/-- What the allocator does to 16-bit blocks it covers: claim a free run and move the cursor past
it, or report exhaustion and change nothing. -/
theorem alloc_cases {rbCount : Nat} (cursor : AllocCursor) (hepr : 0 < epr) (hcs : cs = 2 * epr)
    (hcount : 0 < count) (hlen : rbCount * cs ≤ blocks.len) (hsize : rbCount * epr * cs < 2 ^ 64)
    (hcursor : cursor.nextRefblock * epr + cursor.nextEntryInRefblock < 2 ^ 64) :
    (∃ s bs, allocContiguousClustersInRefblocks blocks cs 16 rbCount 0 count cursor
        = (.ok (s * cs), { blocks with bytes := bs },
            ⟨(s + count) / epr, (s + count) % epr, cursor.allocated + count⟩) ∧
      s + count ≤ rbCount * epr ∧ (∀ k < count, rcAt blocks.bytes (s + k) = 0) ∧
      (∀ c, rcAt bs c = if s ≤ c ∧ c < s + count then 1 else rcAt blocks.bytes c) ∧
      ∀ i, (i < 2 * s ∨ 2 * (s + count) ≤ i) → bs i = blocks.bytes i) ∨
    allocContiguousClustersInRefblocks blocks cs 16 rbCount 0 count cursor
      = (.error .refcountExhausted, blocks, cursor) := by
  have hcs0 : cs ≠ 0 := by omega
  have heprEq : cs * 8 / 16 = epr := by omega
  have htotal : rbCount * epr < 2 ^ 64 :=
    lt_of_le_of_lt (Nat.le_mul_of_pos_right _ (by omega)) hsize
  have hcov : ∀ c < rbCount * epr, c / epr * cs + cs ≤ blocks.len := by
    intro c hc
    have hblock : c / epr + 1 ≤ rbCount := Nat.div_lt_of_lt_mul (by rwa [mul_comm])
    calc c / epr * cs + cs = (c / epr + 1) * cs := by ring
      _ ≤ rbCount * cs := Nat.mul_le_mul_right _ hblock
      _ ≤ blocks.len := hlen
  unfold allocContiguousClustersInRefblocks
  simp only [ne_eq, not_true_eq_false, if_false, hcs0, hcount.ne', heprEq, hepr.ne',
    htotal, hcursor]
  rcases allocScan_cases hcs hepr hcov with ⟨s, hscan, hfit, hfree⟩ | hscan
  · obtain ⟨bs, hclaim, hrc, hout⟩ := claimRun_spec hcs hepr
    refine .inl ⟨s, bs, ?_, hfit, hfree, hrc, hout⟩
    have hhost : s * cs < 2 ^ 64 := by
      have : s * cs ≤ rbCount * epr * cs := Nat.mul_le_mul_right _ (by omega)
      omega
    rw [hscan]
    simp only [hclaim, hhost, if_true, add_zero]
  · exact .inr (by rw [hscan])

end Instar.Qcow2
