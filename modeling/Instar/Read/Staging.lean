import Instar.Read.Device

/-!
# Compressed units and the staging buffer

A compressed cluster or grain is inflated as a whole.  When the chunk asked for is at least as long
as the unit the bytes go straight to the caller; otherwise the unit is inflated into a staging
buffer that later calls share, tagged with the virtual offset the unit starts at, and the chunk is
copied out of it.
-/

namespace Instar.Read

open Fallible

/-- `MAX_SECTOR_SIZE`: the largest sector of a device. -/
def maxSectorSize : Nat := 65536

/-- `MAX_CLUSTER_SIZE`: the size of the staging buffer. -/
def maxClusterSize : Nat := 2 * 1024 * 1024

/-- `COMPRESSED_BUF_SIZE`: the size of the buffer compressed bytes are read into. -/
def compressedBufSize : Nat := maxClusterSize + maxSectorSize

/-- The decoders the readers call: zlib with its header, bare deflate, and zstd. -/
inductive Decoder where
  | zlib
  | deflate
  | zstd
deriving DecidableEq, Repr

/-- The decompressors, as partial functions of the compressed bytes and the length to produce;
`residue` is what a run that fails leaves in its output buffer. -/
structure Codec where
  inflate : Decoder → List UInt8 → Nat → Option ByteMap
  residue : Decoder → List UInt8 → Nat → ByteMap → ByteMap

/-- How a unit is decoded: `zlib` tries a zlib stream and then a bare deflate stream. -/
inductive Method where
  | zlib
  | deflate
  | zstd
deriving DecidableEq, Repr

/-- The compressed bytes of a unit; a VMDK grain may be marked empty instead. -/
inductive Stream where
  | empty
  | data (bytes : List UInt8)
deriving DecidableEq, Repr

namespace Codec

variable (codec : Codec)

/-- The `n` bytes a unit inflates to. -/
def expand (n : Nat) : Method × Stream → Option ByteMap
  | (_, .empty) => some fun _ => 0
  | (.zlib, .data bytes) =>
    match codec.inflate .zlib bytes n with
    | some out => some out
    | none => codec.inflate .deflate bytes n
  | (.deflate, .data bytes) => codec.inflate .deflate bytes n
  | (.zstd, .data bytes) => codec.inflate .zstd bytes n

/-- What a unit that does not inflate leaves in the buffer. -/
def leavings (n : Nat) : Method × Stream → ByteMap → ByteMap
  | (_, .empty), buf => buf
  | (.zlib, .data bytes), buf => codec.residue .deflate bytes n (codec.residue .zlib bytes n buf)
  | (.deflate, .data bytes), buf => codec.residue .deflate bytes n buf
  | (.zstd, .data bytes), buf => codec.residue .zstd bytes n buf

/-- Inflate a unit of `n` bytes into the staging buffer. -/
def inflateStaging (n : Nat) (unit : Method × Stream) : Fallible ReaderState Unit :=
  fun s =>
    match codec.expand n unit with
    | some out => (some (), { s with staging := s.staging.splice 0 n out })
    | none => (none, { s with staging := codec.leavings n unit s.staging })

end Codec

/-- Set the tag of the staging buffer. -/
def tagStaging (tag : Option Nat) : Fallible ReaderState Unit :=
  fun s => (some (), { s with stagingClusterOffset := tag })

/-- Make the staging buffer hold the unit at `base`: its tag decides whether the unit is there. -/
def stageUnit (codec : Codec) (unit base : Nat) (load : Fallible ReaderState (Method × Stream)) :
    Fallible ReaderState Unit :=
  fun s =>
    if s.stagingClusterOffset = some base then (some (), s)
    else
      (do
        let stream ← load
        codec.inflateStaging unit stream
        tagStaging (some base)) s

/-- The bytes of the staging buffer from `off` on. -/
def fromStaging (off : Nat) : Fallible ReaderState ByteMap :=
  fun s => (some (s.staging.drop off), s)

/-- The compressed arms of the qcow2 and VMDK readers: `len` bytes at `off` of a unit of `unit`
bytes, read by `load`. The source's `off & !(unit - 1)` is `off - off % unit`, `unit` being a power
of two. -/
def readCompressedUnit (codec : Codec) (unit : Nat) (load : Fallible ReaderState (Method × Stream))
    (off len : Nat) : Fallible ReaderState ByteMap :=
  if unit ≤ len then do
    let stream ← load
    ofOption (codec.expand unit stream)
  else if maxClusterSize < unit then fail
  else do
    let base := off - off % unit
    stageUnit codec unit base load
    fromStaging (off - base)

/-- The bytes of a unit that starts at `base`. -/
def unitByte (base : Nat) (content : Option ByteMap) (x : Nat) : Option UInt8 :=
  content.map fun out => out (x - base)

/-- The staging buffer holds the unit of `unit` bytes with this content. -/
def Holds (s : ReaderState) (unit : Nat) (content : Option ByteMap) : Prop :=
  ∀ i < unit, content.map (fun out => out i) = some (s.staging i)

variable {codec : Codec} {unit off len : Nat} {load : Fallible ReaderState (Method × Stream)}
  {I : ReaderState → Prop} {content : Option ByteMap}

/-- What the arm for one compressed unit asks of the state it shares: a tag that names the unit
tells the truth, and the unit may be staged. -/
structure StagedUnit (I : ReaderState → Prop) (unit base : Nat)
    (content : Option ByteMap) : Prop where
  hit : ∀ s, I s → s.stagingClusterOffset = some base → Holds s unit content
  fill : ∀ s out, I s → content = some out →
    I { s with staging := s.staging.splice 0 unit out, stagingClusterOffset := some base }

theorem stageUnit_holds {base : Nat} (h : StagedUnit I unit base content)
    (hload : Ensures I load (fun stream => codec.expand unit stream = content ∧ content.isSome))
    (s : ReaderState) (hs : I s) :
    I (stageUnit codec unit base load s).2 ∧ ∀ a, (stageUnit codec unit base load s).1 = some a →
      Holds (stageUnit codec unit base load s).2 unit content := by
  unfold stageUnit
  split
  · exact ⟨hs, fun _ _ => h.hit s hs ‹_›⟩
  · obtain ⟨hs1, hstream⟩ := hload s hs
    cases hrun : load s with
    | mk result s1 =>
      rw [hrun] at hs1 hstream
      cases result with
      | none =>
        rw [bind_of_none hrun]
        exact ⟨hs1, fun _ h => nomatch h⟩
      | some stream =>
        obtain ⟨hexpand, hsome⟩ := hstream stream rfl
        obtain ⟨out, hout⟩ := Option.isSome_iff_exists.mp hsome
        have hinflate : codec.inflateStaging unit stream s1 =
            (some (), { s1 with staging := s1.staging.splice 0 unit out }) := by
          rw [Codec.inflateStaging, hexpand, hout]
        rw [bind_of_some hrun, bind_of_some hinflate]
        refine ⟨h.fill s1 out hs1 hout, fun _ _ i hi => ?_⟩
        rw [hout]
        show some (out i) = some (s1.staging.splice 0 unit out i)
        rw [ByteMap.splice_mem (Nat.zero_le i) (by omega), Nat.sub_zero]

theorem readCompressedUnit_ensures (h : StagedUnit I unit (off - off % unit) content)
    (hload : Ensures I load (fun stream => codec.expand unit stream = content ∧ content.isSome))
    (hin : off % unit + len ≤ unit) : Ensures I (readCompressedUnit codec unit load off len)
      (Gives (unitByte (off - off % unit) content) off len) := by
  have hmod : off % unit ≤ off := Nat.mod_le _ _
  refine .ite (fun hle => ?_) (fun hlt => .ite (fun _ => .fail) (fun _ => ?_))
  · -- the chunk is the whole unit
    refine hload.bind fun stream hstream => .ofOption fun out hout i _ => ?_
    have hstart : off % unit = 0 := by omega
    rw [hstream.1] at hout
    rw [unitByte, hout, hstart]
    simp
  · refine .bind_state (J := fun _ s => Holds s unit content) (stageUnit_holds h hload)
      fun _ s hs hholds => ⟨hs, fun out hout i hi => ?_⟩
    cases hout
    have hbyte := hholds (off % unit + i) (by omega)
    rw [unitByte, show off + i - (off - off % unit) = off % unit + i by omega, hbyte]
    show _ = some (s.staging (off - (off - off % unit) + i))
    rw [show off - (off - off % unit) + i = off % unit + i by omega]

end Instar.Read
