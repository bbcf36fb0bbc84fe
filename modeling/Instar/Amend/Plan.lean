import Instar.Qcow2.Extensions
import Instar.Resize.Plan

/-!
# The amend planner

`plan_amend_qcow2` changes the version and the lazy refcounts flag of an image.  A change of the
flag alone is one write over the compatible features.  A change of the version rebuilds the header
cluster: the first 72 bytes are copied, the words of the new version written, and what follows the
old header (the extensions and the backing file name) is moved to the end of the new one, with the
pointer to the name.
-/

namespace Instar.Amend

open Qcow2
open Resize (writeBe)

/-- Why the planner refuses. -/
inductive AmendError where
  | unsupportedFormat
  | invalidOption
  | downgradeBlockedFeature
  | downgradeRefcountWidth
  | lazyRequiresV3
  | parseFailed
  | dirty
  | extensionRelocationUnsupported
  | scratchTooSmall
  | overflow
deriving DecidableEq, Repr

/-- What a plan comes to. -/
inductive AmendAction where
  | noOp
  | amended
deriving DecidableEq, Repr

/-- `AmendPlan`; a patch is an offset and the bytes that go there. -/
structure AmendPlan where
  action : AmendAction
  resultingVersion : Nat
  resultingLazyRefcounts : Bool
  patches : List (Nat × Buffer)

def maxAmendPatches : Nat := 2

/-- Add a patch, if there is room. -/
def AmendPlan.push (plan : AmendPlan) (patch : Nat × Buffer) : Except AmendError AmendPlan := do
  failIf (maxAmendPatches ≤ plan.patches.length) .scratchTooSmall
  pure { plan with patches := plan.patches ++ [patch] }

/-- What the planner is given. -/
structure Qcow2AmendOpts where
  headerCluster : Buffer
  clusterSize : Nat
  setCompat : Bool
  targetV3 : Bool
  setLazy : Bool
  lazyOn : Bool

/-- `DST_FIXED_LEN_V3` and `DST_FIXED_LEN_V2`: where the header of a version ends. -/
def dstFixedLen (version : Nat) : Nat := if version = 3 then 104 else v2HeaderExtensionOffset

section

variable (opts : Qcow2AmendOpts) (header : QcowHeader)

/-- The version asked for. -/
def targetVersion : Nat :=
  if opts.setCompat then (if opts.targetV3 then 3 else 2) else header.version

/-- A version 3 image is to become a version 2 one. -/
def downgrades : Prop := header.version = 3 ∧ targetVersion opts header = 2

instance (opts : Qcow2AmendOpts) (header : QcowHeader) : Decidable (downgrades opts header) :=
  inferInstanceAs (Decidable (_ ∧ _))

/-- The flag after the amend.  Version 2 does not have it, so a downgrade clears it. -/
def targetLazy : Bool :=
  if downgrades opts header then false
  else if opts.setLazy then opts.lazyOn else header.lazyRefcounts

/-- Where the moved part ends: behind the extensions and the backing file name. Extensions without
an end allow no name, and nothing is moved. -/
def meaningfulEnd (srcExtStart : Nat) :
    Except AmendError Nat :=
  match headerExtensionAreaEnd opts.headerCluster srcExtStart with
  | some extEnd => do
    let m := max extEnd (header.backingFileOffset + header.backingFileSize)
    failIf (opts.clusterSize < m) .extensionRelocationUnsupported
    pure m
  | none =>
    if header.backingFileSize = 0 then .ok srcExtStart else .error .extensionRelocationUnsupported

end

/-- The feature words, the refcount order and the header length of version 3. -/
def writeV3Words (header : QcowHeader) (lazyRefcounts : Bool) (m : ByteMap) : ByteMap :=
  m |> writeBe 8 72 0
    |> writeBe 8 80 (if lazyRefcounts then compatLazyRefcounts else 0)
    |> writeBe 8 88 0
    |> writeBe 4 96 (trailingZeros header.refcountBits)
    |> writeBe 4 100 104

/-- The backing file offset moved along, as a 64-bit number. -/
def movedBacking (header : QcowHeader) (delta : Int) : Nat :=
  ((header.backingFileOffset + delta) % 2 ^ 64).toNat

/-- The header cluster of the other version, with `tailLen` bytes moved from `srcExtStart`. -/
def rebuilt (src : ByteMap) (header : QcowHeader) (version : Nat) (lazyRefcounts : Bool)
    (srcExtStart tailLen : Nat) : ByteMap :=
  let fixed := writeBe 4 4 version (ByteMap.splice (fun _ => 0) 0 72 src)
  let words := if version = 3 then writeV3Words header lazyRefcounts fixed else fixed
  let moved := words.splice (dstFixedLen version) tailLen (src.drop srcExtStart)
  if 0 < header.backingFileSize then
    writeBe 8 8 (movedBacking header (dstFixedLen version - srcExtStart)) moved
  else moved

/-- `rebuild_cross_version`, with `scratch` bytes of scratch memory. -/
def rebuildCrossVersion (opts : Qcow2AmendOpts) (header : QcowHeader) (version : Nat)
    (lazyRefcounts : Bool) (scratch : Nat) : Except AmendError AmendPlan := do
  let srcExtStart :=
    if header.version = 2 then v2HeaderExtensionOffset else opts.headerCluster.be 100 4
  failIf (opts.clusterSize < srcExtStart ∨ srcExtStart < 72) .parseFailed
  failIf (2 ^ 64 ≤ header.backingFileOffset + header.backingFileSize) .overflow
  let tailEnd ← meaningfulEnd opts header srcExtStart
  failIf (tailEnd < srcExtStart) .extensionRelocationUnsupported
  let shiftedEnd : Int := tailEnd + (dstFixedLen version - srcExtStart)
  failIf (shiftedEnd < 0 ∨ (opts.clusterSize : Int) < shiftedEnd) .extensionRelocationUnsupported
  failIf (scratch < opts.clusterSize) .scratchTooSmall
  AmendPlan.push ⟨.amended, version, lazyRefcounts, []⟩
    (0, ⟨opts.clusterSize, rebuilt opts.headerCluster.bytes header version lazyRefcounts srcExtStart
      (tailEnd - srcExtStart)⟩)

/-- The compatible features with the flag as asked for. -/
def newCompat (header : QcowHeader) (lazyRefcounts : Bool) : Nat :=
  if lazyRefcounts then header.compatibleFeatures ||| compatLazyRefcounts
  else header.compatibleFeatures &&& complU64 compatLazyRefcounts

/-- A change of the flag alone. -/
def toggleLazy (header : QcowHeader) (version : Nat) (lazyRefcounts : Bool) (scratch : Nat) :
    Except AmendError AmendPlan := do
  failIf (scratch < 8) .scratchTooSmall
  AmendPlan.push ⟨.amended, version, lazyRefcounts, []⟩
    (80, ⟨8, ByteMap.ofBe (newCompat header lazyRefcounts) 8⟩)

/-- What is left to do once the options have been accepted. -/
def planAccepted (opts : Qcow2AmendOpts) (header : QcowHeader) (scratch : Nat) :
    Except AmendError AmendPlan :=
  let version := targetVersion opts header
  let lazyRefcounts := targetLazy opts header
  if version = header.version ∧ lazyRefcounts = header.lazyRefcounts then
    .ok ⟨.noOp, version, lazyRefcounts, []⟩
  else if version = header.version then toggleLazy header version lazyRefcounts scratch
  else rebuildCrossVersion opts header version lazyRefcounts scratch

/-- `plan_amend_qcow2`. -/
def planAmendQcow2 (opts : Qcow2AmendOpts) (scratch : Nat) : Except AmendError AmendPlan := do
  failIf (opts.clusterSize = 0 ∨ opts.headerCluster.len < opts.clusterSize) .unsupportedFormat
  match QcowHeader.parse opts.headerCluster with
  | none => .error .parseFailed
  | some header => do
    failIf (header.dirty = true ∨ header.corrupt = true) .dirty
    failIf (opts.setLazy = true ∧ opts.lazyOn = true ∧
      targetVersion opts header = 2) .lazyRequiresV3
    failIf (downgrades opts header ∧ header.incompatibleFeatures ≠ 0) .downgradeBlockedFeature
    failIf (downgrades opts header ∧ header.refcountBits ≠ 16) .downgradeRefcountWidth
    planAccepted opts header scratch

/-- The image after the patches of a plan. -/
def AmendPlan.apply (plan : AmendPlan) (disk : ByteMap) : ByteMap := applyAll plan.patches disk

end Instar.Amend
