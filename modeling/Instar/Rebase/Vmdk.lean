import Mathlib.Algebra.Group.Nat.Defs
import Instar.Lib.Checked
import Instar.Lib.Lines

/-!
# Rebasing a monolithicSparse image

`plan_rebase_vmdk` rewrites the descriptor of the overlay: it goes through the lines, replaces those
that name a parent and copies the others.  A parent CID line is put in after the first `CID=` line
that comes before any parent CID line, and what has not been seen at the end is appended.  Safe mode
stages the grain directory and the grain tables beside the same rewrite.

A buffer that is written from its front is the list of the bytes in it so far.
-/

namespace Instar.Rebase

open Text

/-! ## Plans -/

/-- `RebaseError`, as far as this planner goes. -/
inductive RebaseError where
  | newBackingIncompatible
  | headerMismatch
  | backingPathTooLong
  | scratchTooSmall
  | overlayCorrupt
  | descriptorTooLarge
  | overflow
deriving DecidableEq, Repr

/-- With or without a look at the data. -/
inductive RebaseMode where
  | unsafeMode
  | safeMode
deriving DecidableEq, Repr

/-- `RebasePatch::Write`; this planner appends nothing. -/
structure RebasePatch where
  byteOffset : Nat
  bytes : List UInt8
deriving DecidableEq, Repr

/-- The patches of a rebase. -/
structure RebasePlan where
  totalFileSize : Nat
  patches : List RebasePatch
deriving DecidableEq, Repr

def maxRebasePatches : Nat := 16

/-- Add a patch, if there is room. -/
def RebasePlan.push (plan : RebasePlan) (patch : RebasePatch) : Except RebaseError RebasePlan := do
  failIf (maxRebasePatches ≤ plan.patches.length) .scratchTooSmall
  failIf (2 ^ 64 ≤ patch.byteOffset + patch.bytes.length) .overflow
  failIf (plan.totalFileSize < patch.byteOffset + patch.bytes.length) .overflow
  pure { plan with patches := plan.patches ++ [patch] }

/-! ## The descriptor -/

/-- The bytes of an ASCII text. -/
def ascii (s : String) : List UInt8 := s.toList.map fun c => UInt8.ofNat c.toNat

/-- The end of a line. -/
def newline : UInt8 := 10

/-- `b"parentCID="`. -/
def parentCidKey : List UInt8 := ascii "parentCID="

/-- `b"parentFileNameHint="`. -/
def parentHintKey : List UInt8 := ascii "parentFileNameHint="

/-- `b"CID="`. -/
def cidKey : List UInt8 := ascii "CID="

/-- The double quote around the path. -/
def quote : UInt8 := 34

/-- `put_byte` and `copy_line`: write into a buffer of `cap` bytes. -/
def copyLine (cap : Nat) (dest line : List UInt8) : Except RebaseError (List UInt8) :=
  if cap < dest.length + line.length then .error .descriptorTooLarge else .ok (dest ++ line)

/-- Eight hexadecimal digits. -/
def formatU32Hex8 (val : Nat) : List UInt8 :=
  (List.range 8).map fun i =>
    let nibble := val >>> ((7 - i) * 4) &&& 0xf
    UInt8.ofNat (if nibble < 10 then 48 + nibble else 87 + nibble)

/-- The `parentCID=` line. -/
def writeParentCidLine (cap : Nat) (dest : List UInt8) (parentCid : Nat) :
    Except RebaseError (List UInt8) := do
  let dest ← copyLine cap dest parentCidKey
  copyLine cap dest (formatU32Hex8 parentCid)

/-- The hint line. -/
def writeParentHintLine (cap : Nat) (dest path : List UInt8) (detach : Bool) :
    Except RebaseError (List UInt8) := do
  let dest ← copyLine cap dest (parentHintKey ++ [quote])
  let dest ← if detach then pure dest else copyLine cap dest path
  copyLine cap dest [quote]

/-- What the rewrite has come to. -/
structure Rewrite where
  dest : List UInt8
  sawParentCid : Bool
  sawParentHint : Bool
deriving DecidableEq, Repr

/-- A line of the source: a parent line is replaced, another one copied. -/
def replaceLine (cap : Nat) (path : List UInt8) (cid : Nat) (detach : Bool) (st : Rewrite)
    (line : List UInt8) : Except RebaseError Rewrite :=
  if parentCidKey.isPrefixOf line then do
    let dest ← writeParentCidLine cap st.dest cid
    pure { st with dest := dest, sawParentCid := true }
  else if parentHintKey.isPrefixOf line then do
    let dest ← writeParentHintLine cap st.dest path detach
    pure { st with dest := dest, sawParentHint := true }
  else do
    let dest ← copyLine cap st.dest line
    pure { st with dest := dest }

/-- Preserve the newline. -/
def closeLine (cap : Nat) (dest : List UInt8) (closed : Bool) : Except RebaseError (List UInt8) :=
  if closed then copyLine cap dest [newline] else pure dest

/-- Put a missing parent CID line in after a `CID=` line. -/
def insertParentCid (cap cid : Nat) (line : List UInt8) (st : Rewrite) :
    Except RebaseError Rewrite :=
  if cidKey.isPrefixOf line && !st.sawParentCid then do
    let dest ← writeParentCidLine cap st.dest cid
    let dest ← copyLine cap dest [newline]
    pure { st with dest := dest, sawParentCid := true }
  else pure st

section

variable (cap : Nat) (path : List UInt8) (cid : Nat) (detach : Bool) (st : Rewrite)

/-- One round of the loop of `rewrite_descriptor`. -/
def rewriteLine (line : Line UInt8) : Except RebaseError Rewrite := do
  let st ← replaceLine cap path cid detach st line.1
  let dest ← closeLine cap st.dest line.2
  insertParentCid cap cid line.1 { st with dest := dest }

/-- Append the parent lines that are missing. -/
def appendMissing :
    Except RebaseError (List UInt8) := do
  let dest ←
    if st.sawParentCid then pure st.dest
    else do
      let dest ← writeParentCidLine cap st.dest cid
      copyLine cap dest [newline]
  if st.sawParentHint then pure dest
  else do
    let dest ← writeParentHintLine cap dest path detach
    copyLine cap dest [newline]

end

/-- The text of a descriptor: what comes before the first NUL. -/
def trimNul (source : List UInt8) : List UInt8 := source.takeWhile (· ≠ 0)

/-- `rewrite_descriptor`. -/
def rewriteDescriptor (source path : List UInt8) (parentCid : Nat) (detach : Bool) (cap : Nat) :
    Except RebaseError (List UInt8) := do
  let cid := if detach then 0xffffffff else parentCid
  let st ← (linesOf newline (trimNul source)).foldlM (rewriteLine cap path cid detach) ⟨[],
    false, false⟩
  appendMissing cap path cid detach st

/-! ## The planner -/

/-- What the planner is given. -/
structure VmdkRebaseOpts where
  mode : RebaseMode
  overlayVirtualSize : Nat
  overlayDescriptor : List UInt8
  overlayDescriptorSize : Nat
  overlayDescriptorOffset : Nat
  newBackingVirtualSize : Nat
  newBackingPath : List UInt8
  newParentCid : Nat
  detach : Bool
  overlayGrainSizeSectors : Nat
  numGtesPerGt : Nat
  numGdEntries : Nat
  gdOffsetSectors : Nat
  overlayFileSize : Nat
  overlayGrainDirectory : List UInt8
  overlayGrainTables : List UInt8
  allocatedGtHostSectors : List Nat
  allocatedGtCount : Nat

/-- What a safe rebase copies by. -/
structure RebaseVmdkSafeContext where
  overlayGrainSizeSectors : Nat
  overlayGrainCount : Nat
  numGtesPerGt : Nat
  numGdEntries : Nat
  gdOffsetSectors : Nat
  allocatedGtCount : Nat
  grainDirectory : List UInt8
  grainTables : List UInt8
  gtHostSectors : List Nat
  gtDirty : List UInt8
  gdDirty : List UInt8

/-- What the planner returns. -/
inductive VmdkRebaseOutput where
  | unsafeMode (plan : RebasePlan)
  | safeMode (context : RebaseVmdkSafeContext) (deferredMetadata : RebasePlan)

/-- The plan that rewrites the descriptor: at once or deferred. -/
def VmdkRebaseOutput.plan : VmdkRebaseOutput → RebasePlan
  | unsafeMode plan => plan
  | safeMode _ plan => plan

def maxDescriptorRewriteLen : Nat := 64 * 1024

section

variable (opts : VmdkRebaseOpts)

/-- The rewritten descriptor, padded with zeroes to its slot, as the one patch of a plan. -/
def descriptorPlan : Except RebaseError RebasePlan := do
  let slot := opts.overlayDescriptorSize
  let dest ← rewriteDescriptor opts.overlayDescriptor opts.newBackingPath opts.newParentCid
    opts.detach slot
  RebasePlan.push ⟨opts.overlayFileSize, []⟩
    ⟨opts.overlayDescriptorOffset, dest ++ List.replicate (slot - dest.length) 0⟩

/-- `plan_vmdk_unsafe`, with `scratch` bytes of scratch memory. -/
def planVmdkUnsafe (scratch : Nat) : Except RebaseError VmdkRebaseOutput := do
  failIf (scratch < opts.overlayDescriptorSize) .scratchTooSmall
  let plan ← descriptorPlan opts
  pure (.unsafeMode plan)

/-- The plan of a safe rebase. -/
def planVmdkSafe (scratch : Nat) : Except RebaseError VmdkRebaseOutput := do
  failIf (opts.overlayGrainSizeSectors = 0 ∨ opts.numGtesPerGt = 0) .overlayCorrupt
  failIf (opts.numGdEntries = 0) .overlayCorrupt
  failIf (opts.allocatedGtHostSectors.length ≠ opts.allocatedGtCount) .headerMismatch
  let gtsTotalBytes := opts.allocatedGtCount * (opts.numGtesPerGt * 4)
  failIf (2 ^ 64 ≤ gtsTotalBytes) .overflow
  failIf (opts.overlayGrainTables.length < gtsTotalBytes) .headerMismatch
  let gdBytes := opts.numGdEntries * 4
  failIf (opts.overlayGrainDirectory.length < gdBytes) .headerMismatch
  let gtDirtyBytes := (opts.allocatedGtCount + 7) / 8
  failIf (scratch < opts.overlayDescriptorSize + gdBytes + gtsTotalBytes + gtDirtyBytes + 1)
    .scratchTooSmall
  let plan ← descriptorPlan opts
  let grainSizeBytes := opts.overlayGrainSizeSectors * 512
  pure (.safeMode
    { overlayGrainSizeSectors := opts.overlayGrainSizeSectors
      overlayGrainCount := (opts.overlayVirtualSize + grainSizeBytes - 1) / grainSizeBytes
      numGtesPerGt := opts.numGtesPerGt
      numGdEntries := opts.numGdEntries
      gdOffsetSectors := opts.gdOffsetSectors
      allocatedGtCount := opts.allocatedGtCount
      grainDirectory := opts.overlayGrainDirectory.take gdBytes
      grainTables := opts.overlayGrainTables.take gtsTotalBytes
      gtHostSectors := opts.allocatedGtHostSectors
      gtDirty := List.replicate gtDirtyBytes 0
      gdDirty := [0] } plan)

/-- `plan_rebase_vmdk`. -/
def planRebaseVmdk (scratch : Nat) : Except RebaseError VmdkRebaseOutput := do
  failIf (opts.detach = true ∧ opts.newBackingPath ≠ []) .headerMismatch
  failIf (maxDescriptorRewriteLen < opts.newBackingPath.length) .backingPathTooLong
  failIf (opts.detach = false ∧ opts.newBackingVirtualSize < opts.overlayVirtualSize)
    .newBackingIncompatible
  failIf (2 ^ 64 ≤ opts.overlayDescriptorOffset + opts.overlayDescriptorSize) .headerMismatch
  failIf (opts.overlayFileSize < opts.overlayDescriptorOffset + opts.overlayDescriptorSize)
    .headerMismatch
  match opts.mode with
  | .unsafeMode => planVmdkUnsafe opts scratch
  | .safeMode => planVmdkSafe opts scratch

end

end Instar.Rebase
