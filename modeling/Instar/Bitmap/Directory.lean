import Instar.Lib.Checked
import Instar.Qcow2.Extensions

/-!
# The bitmap directory

The bitmaps extension in the header of an image points to a directory: entries of a fixed head and a
name, each padded to eight bytes, one right behind the other.  This is the codec of
`crates/qcow2/src/bitmap.rs` and the directory functions of `crates/bitmap`.

`EntryAt m off e` says that the bytes at `off` are those of `e`, and `Packed m off es` that the
entries `es` lie one behind the other from `off` on.  Each directory function is described by what
it does to the list of entries.
-/

namespace Instar.Bitmap

open Qcow2 ByteMap List

/-- Why an operation is refused or fails. -/
inductive BitmapError where
  | unsupportedFormat
  | unsupportedVersion
  | parseFailed
  | headerMismatch
  | bitmapNotFound
  | bitmapExists
  | bitmapInUse
  | nameTooLong
  | granularityRange
  | tooManyBitmaps
  | noSpace
  | writeFailed
  | readFailed
  | scratchTooSmall
  | internalOverflow
  | mergeSourceNotFound
  | unsupportedAction
  | unsupportedRefcountWidth
  | incompatibleMerge
  deriving DecidableEq, Repr

/-! ## The bitmaps extension -/

def qcow2MaxBitmaps : Nat := 65535

def qcow2MaxBitmapDirectorySize : Nat := 1024 * 65535

/-- The body of the bitmaps extension. -/
structure BitmapsExtension where
  nbBitmaps : Nat
  bitmapDirectorySize : Nat
  bitmapDirectoryOffset : Nat
  deriving DecidableEq, Repr

/-- `parse_bitmaps_extension`. -/
def parseBitmapsExtension (data : Buffer) : Option BitmapsExtension :=
  if data.len < 24 then none
  else
    let nbBitmaps := data.be 0 4
    let bitmapDirectorySize := data.be 8 8
    let bitmapDirectoryOffset := data.be 16 8
    if nbBitmaps = 0 ∨ qcow2MaxBitmaps < nbBitmaps then none
    else if qcow2MaxBitmapDirectorySize < bitmapDirectorySize then none
    else if bitmapDirectoryOffset = 0 ∨ bitmapDirectoryOffset % 8 ≠ 0 then none
    else some ⟨nbBitmaps, bitmapDirectorySize, bitmapDirectoryOffset⟩

/-- A buffer of zeros. -/
def zeros : ByteMap := fun _ => 0

def serializeBitmapsExtension (nbBitmaps bitmapDirectorySize bitmapDirectoryOffset : Nat) :
    Buffer :=
  ⟨24, zeros
    |>.splice 0 4 (.ofBe nbBitmaps 4)
    |>.splice 4 4 (.ofBe 0 4)
    |>.splice 8 8 (.ofBe bitmapDirectorySize 8)
    |>.splice 16 8 (.ofBe bitmapDirectoryOffset 8)⟩

/-! ## Directory entries -/

def bmeFlagInUse : Nat := 1

def bmeFlagAuto : Nat := 2

def bmeReservedFlags : Nat := 0xFFFFFFFC

def btDirtyTrackingBitmap : Nat := 1

def bmeMaxNameSize : Nat := 1023

/-- `BitmapDirEntry`, without the type and the size of the extra data: an entry is only ever made
for a dirty-tracking bitmap without extra data. -/
structure BitmapDirEntry where
  bitmapTableOffset : Nat
  bitmapTableSize : Nat
  flags : Nat
  granularityBits : Nat
  name : List UInt8
  deriving DecidableEq, Repr

namespace BitmapDirEntry

section

variable (entry : BitmapDirEntry)

def isInUse : Bool := decide (entry.flags &&& bmeFlagInUse ≠ 0)

/-- The bytes an entry takes in the directory. -/
def size : Nat := (24 + entry.name.length + 7) / 8 * 8

/-- The fields fit into the bytes they have. -/
structure Encodable : Prop where
  offset : entry.bitmapTableOffset < 2 ^ 64
  tableSize : entry.bitmapTableSize < 2 ^ 32
  flags : entry.flags < 4
  granularity : entry.granularityBits < 256
  named : 0 < entry.name.length
  name : entry.name.length ≤ bmeMaxNameSize

/-- The bytes of an entry, padding included. -/
def bytes : ByteMap :=
  zeros
    |>.splice 0 8 (.ofBe entry.bitmapTableOffset 8)
    |>.splice 8 4 (.ofBe entry.bitmapTableSize 4)
    |>.splice 12 4 (.ofBe entry.flags 4)
    |>.splice 16 1 (.ofBe btDirtyTrackingBitmap 1)
    |>.splice 17 1 (.ofBe entry.granularityBits 1)
    |>.splice 18 2 (.ofBe entry.name.length 2)
    |>.splice 20 4 (.ofBe 0 4)
    |>.splice 24 entry.name.length fun i => entry.name.getD i 0

end

end BitmapDirEntry

/-- `parse_bitmap_dir_entry`: the entry and the bytes it takes. -/
def parseBitmapDirEntry (buf : Buffer) : Option (BitmapDirEntry × Nat) :=
  if buf.len < 24 then none
  else
    let flags := buf.be 12 4
    let nameSize := buf.be 18 2
    if flags &&& bmeReservedFlags ≠ 0 then none
    else if buf.be 16 1 ≠ btDirtyTrackingBitmap then none
    else if buf.be 20 4 ≠ 0 then none
    else if nameSize = 0 ∨ bmeMaxNameSize < nameSize then none
    else
      let entrySize := (24 + nameSize + 7) / 8 * 8
      if buf.len < entrySize then none
      else some (⟨buf.be 0 8, buf.be 8 4, flags, buf.be 17 1, buf.bytes.window 24 nameSize⟩,
        entrySize)

/-- `serialize_bitmap_dir_entry` into a buffer of `room` bytes: the bytes and how many there are. -/
def serializeBitmapDirEntry (entry : BitmapDirEntry) (room : Nat) : Option (ByteMap × Nat) :=
  if bmeMaxNameSize < entry.name.length then none
  else if room < entry.size then none
  else some (entry.bytes, entry.size)

/-! ## Directory functions -/

/-- The entry at `off` of a directory, as every walk over one reads it. -/
def entryAt (dir : Buffer) (off : Nat) : Except BitmapError (BitmapDirEntry × Nat) :=
  if dir.len < off then .error .parseFailed
  else
    match parseBitmapDirEntry ⟨dir.len - off, dir.bytes.drop off⟩ with
    | none => .error .parseFailed
    | some r => .ok r

/-- `FoundBitmap`, without the place of the entry, which no caller looks at. -/
structure FoundBitmap where
  index : Nat
  entry : BitmapDirEntry

/-- The loop of `directory_byte_len`; there are as many entries left as the first argument says. -/
def byteLenFrom (dir : Buffer) : Nat → Nat → Except BitmapError Nat
  | 0, off => .ok off
  | n + 1, off => do
      let e ← entryAt dir off
      byteLenFrom dir n (off + e.2)

def directoryByteLen (dir : Buffer) (nbBitmaps : Nat) : Except BitmapError Nat :=
  byteLenFrom dir nbBitmaps 0

/-- The loop of `find_bitmap`. -/
def findFrom (dir : Buffer) (name : List UInt8) :
    Nat → Nat → Nat → Except BitmapError (Option FoundBitmap)
  | 0, _, _ => .ok none
  | n + 1, i, off => do
      let e ← entryAt dir off
      if e.1.name = name then .ok (some ⟨i, e.1⟩) else findFrom dir name n (i + 1) (off + e.2)

/-- The entry with the name, if any. -/
def findBitmap (dir : Buffer) (nbBitmaps : Nat) (name : List UInt8) :
    Except BitmapError (Option FoundBitmap) :=
  findFrom dir name nbBitmaps 0 0

/-- `find_bitmap` where the bitmap has to be there. -/
def foundBitmap (dir : Buffer) (nbBitmaps : Nat) (name : List UInt8) (missing : BitmapError) :
    Except BitmapError FoundBitmap := do
  match ← findBitmap dir nbBitmaps name with
  | none => .error missing
  | some found => .ok found

/-- `build_directory_with_added`: the new length and the contents of `out`. -/
def buildDirectoryWithAdded (oldDir : Buffer) (oldLen : Nat) (newEntry : BitmapDirEntry)
    (out : Buffer) : Except BitmapError (Nat × ByteMap) := do
  failIf (oldDir.len < oldLen) .internalOverflow
  failIf (out.len < oldLen) .scratchTooSmall
  match serializeBitmapDirEntry newEntry (out.len - oldLen) with
  | none => .error .parseFailed
  | some (bytes, appended) =>
    .ok (oldLen + appended, (out.bytes.splice 0 oldLen oldDir.bytes).splice oldLen appended bytes)

/-- The loop of `build_directory_without`. -/
def withoutFrom (dir : Buffer) (removeIndex room : Nat) :
    Nat → Nat → Nat → Nat → ByteMap → Except BitmapError (Nat × ByteMap)
  | 0, _, _, outOffset, out => .ok (outOffset, out)
  | n + 1, i, inOffset, outOffset, out => do
      let e ← entryAt dir inOffset
      if i = removeIndex then
        withoutFrom dir removeIndex room n (i + 1) (inOffset + e.2) outOffset out
      else if room < outOffset + e.2 then .error .scratchTooSmall
      else
        withoutFrom dir removeIndex room n (i + 1) (inOffset + e.2) (outOffset + e.2)
          (out.splice outOffset e.2 (dir.bytes.drop inOffset))

/-- The directory without one entry. -/
def buildDirectoryWithout (oldDir : Buffer) (oldLen nbBitmaps removeIndex : Nat) (out : Buffer) :
    Except BitmapError (Nat × ByteMap) := do
  failIf (nbBitmaps ≤ removeIndex) .bitmapNotFound
  failIf (oldDir.len < oldLen) .internalOverflow
  withoutFrom ⟨oldLen, oldDir.bytes⟩ removeIndex out.len nbBitmaps 0 0 0 out.bytes

/-- The bytes that go to the place of entry `i`: those of the replacement, which has to have the
same size, or the old ones. -/
def replacedEntry (dir : Buffer) (index : Nat) (replacement : BitmapDirEntry)
    (i inOffset entrySize : Nat) : Except BitmapError ByteMap :=
  if i = index then
    match serializeBitmapDirEntry replacement 1048 with
    | none => .error .parseFailed
    | some (bytes, written) => if written ≠ entrySize then .error .internalOverflow else .ok bytes
  else .ok (dir.bytes.drop inOffset)

/-- The loop of `build_directory_replacing`. -/
def replacingFrom (dir : Buffer) (index : Nat) (replacement : BitmapDirEntry) (room : Nat) :
    Nat → Nat → Nat → ByteMap → Except BitmapError (Nat × ByteMap)
  | 0, _, offset, out => .ok (offset, out)
  | n + 1, i, offset, out => do
      let e ← entryAt dir offset
      failIf (room < offset + e.2) .scratchTooSmall
      let bytes ← replacedEntry dir index replacement i offset e.2
      replacingFrom dir index replacement room n (i + 1) (offset + e.2)
        (out.splice offset e.2 bytes)

/-- The directory with one entry replaced. -/
def buildDirectoryReplacing (oldDir : Buffer) (oldLen nbBitmaps index : Nat)
    (replacement : BitmapDirEntry) (out : Buffer) : Except BitmapError (Nat × ByteMap) := do
  failIf (nbBitmaps ≤ index) .bitmapNotFound
  failIf (oldDir.len < oldLen) .internalOverflow
  replacingFrom ⟨oldLen, oldDir.bytes⟩ index replacement out.len nbBitmaps 0 0 out.bytes

/-- The entries `for_each_bitmap_entry` comes to in `remaining` bytes at `off`. -/
def bitmapEntriesFrom (disk : ByteMap) : Nat → Nat → Nat → List BitmapDirEntry
  | 0, _, _ => []
  | n + 1, off, remaining =>
    match entryAt ⟨off + remaining, disk⟩ off with
    | .error _ => []
    | .ok e => e.1 :: bitmapEntriesFrom disk n (off + e.2) (remaining - e.2)

/-! ## Entries in place -/

/-- The bytes at `off` are those of the entry. -/
structure EntryAt (m : ByteMap) (off : Nat) (e : BitmapDirEntry) : Prop where
  offset : m.be off 8 = e.bitmapTableOffset
  tableSize : m.be (off + 8) 4 = e.bitmapTableSize
  flags : m.be (off + 12) 4 = e.flags
  type : m.be (off + 16) 1 = btDirtyTrackingBitmap
  granularity : m.be (off + 17) 1 = e.granularityBits
  nameSize : m.be (off + 18) 2 = e.name.length
  extra : m.be (off + 20) 4 = 0
  name : m.window (off + 24) e.name.length = e.name
  encodable : e.Encodable

variable {m m' : ByteMap} {off n i off' : Nat} {e e' : BitmapDirEntry} {es : List BitmapDirEntry}
  {k oldLen r : Nat} {oldDir out : Buffer} {out' : ByteMap}

theorem reserved_iff {flags : Nat} (h : flags < 2 ^ 32) : flags &&& bmeReservedFlags = 0 ↔
    flags < 4 := by
  have hmask : flags &&& bmeReservedFlags = flags / 2 ^ 2 % 2 ^ 30 * 2 ^ 2 := and_run_eq flags 2 30
  omega

theorem window_length (m : ByteMap) (off n : Nat) : (m.window off n).length = n := by
  unfold window
  rw [length_map, length_range]

theorem window_getD (l : List UInt8) : window (fun i => l.getD i 0) 0 l.length = l := by
  refine ext_getElem (window_length ..) fun i hi hi' => ?_
  simp [window, getElem?_eq_getElem hi']

theorem BitmapDirEntry.size_ge (e : BitmapDirEntry) : 24 + e.name.length ≤ e.size := by
  unfold BitmapDirEntry.size
  omega

theorem entryAt_eq_ok {dir : Buffer} {r : BitmapDirEntry × Nat} : entryAt dir off = .ok r ↔
      off ≤ dir.len ∧ parseBitmapDirEntry ⟨dir.len - off, dir.bytes.drop off⟩ = some r := by
  unfold entryAt
  split
  next hoff =>
    exact ⟨nofun, fun h => absurd hoff (Nat.not_lt_of_le h.1)⟩
  next hoff =>
    rw [and_iff_right (not_lt.mp hoff)]
    cases parseBitmapDirEntry ⟨dir.len - off, dir.bytes.drop off⟩ <;> simp

/-- Reading the entry at an offset. -/
theorem entryAt_ok {s : Nat} : entryAt ⟨n, m⟩ off = .ok (e, s) ↔ s = e.size ∧ off + s ≤ n ∧
    EntryAt m off e := by
  have hbe : ∀ a w, Buffer.be ⟨n - off, m.drop off⟩ a w = m.be (off + a) w :=
    fun a w => m.be_drop off a w
  have hwindow : ∀ a w, (m.drop off).window a w = m.window (off + a) w := fun a w =>
    window_congr fun i _ => by rw [drop_apply, add_assoc]
  rw [entryAt_eq_ok]
  unfold parseBitmapDirEntry
  simp only [Option.ite_none_left_eq_some, hbe, hwindow, ne_eq, not_not, Option.some.injEq,
    Prod.mk.injEq]
  constructor
  · rintro ⟨hoff, hhead, hflags, htype, hextra, hname, hsize, rfl, rfl⟩
    have hlen := window_length m (off + 24) (m.be (off + 18) 2)
    have hflags' := (reserved_iff (m.be_lt (off + 12) 4)).mp hflags
    refine ⟨?_, by omega, ⟨rfl, rfl, rfl, htype, rfl, hlen.symm, hextra, ?_, ?_⟩⟩
    · unfold BitmapDirEntry.size
      rw [hlen]
    · rw [hlen]
    · refine ⟨m.be_lt _ 8, m.be_lt _ 4, hflags', m.be_lt _ 1, ?_, ?_⟩
      · rw [hlen]
        omega
      · rw [hlen]
        omega
  · rintro ⟨rfl, hroom, hat⟩
    have hge := e.size_ge
    have henc := hat.encodable
    have hflags := henc.flags
    have hnamed := henc.named
    have hname := henc.name
    rw [hat.flags, hat.nameSize]
    refine ⟨by omega, by omega, (reserved_iff (by omega)).mpr hflags, hat.type, hat.extra,
      by omega, by unfold BitmapDirEntry.size at hroom; omega, ?_, rfl⟩
    rw [add_zero, hat.offset, hat.tableSize, hat.granularity, hat.name]

theorem EntryAt.moved (h : EntryAt m off e) (hcopy : ∀ i < e.size, m' (off' + i) = m (off + i)) :
    EntryAt m' off' e := by
  have hge := e.size_ge
  have hbe : ∀ a w, a + w ≤ e.size → m'.be (off' + a) w = m.be (off + a) w := fun a w ha =>
    be_congr fun i hi => by
      rw [add_assoc, add_assoc]
      exact hcopy _ (by omega)
  refine ⟨?_, ?_, ?_, ?_, ?_, ?_, ?_, ?_, h.encodable⟩
  · exact (hbe 0 8 (by omega)).trans h.offset
  · exact (hbe 8 4 (by omega)).trans h.tableSize
  · exact (hbe 12 4 (by omega)).trans h.flags
  · exact (hbe 16 1 (by omega)).trans h.type
  · exact (hbe 17 1 (by omega)).trans h.granularity
  · exact (hbe 18 2 (by omega)).trans h.nameSize
  · exact (hbe 20 4 (by omega)).trans h.extra
  · refine (window_congr fun i hi => ?_).trans h.name
    rw [add_assoc, add_assoc]
    exact hcopy _ (by omega)

theorem EntryAt.unique (h : EntryAt m off e) (h' : EntryAt m off e') : e = e' := by
  have hlen : e.name.length = e'.name.length := h.nameSize.symm.trans h'.nameSize
  have hname : e.name = e'.name := by
    rw [← h.name, ← h'.name, hlen]
  cases e
  cases e'
  simp only [BitmapDirEntry.mk.injEq]
  exact ⟨h.offset.symm.trans h'.offset, h.tableSize.symm.trans h'.tableSize,
    h.flags.symm.trans h'.flags, h.granularity.symm.trans h'.granularity, hname⟩

theorem EntryAt.of_bytes (he : e.Encodable) (h : ∀ i < e.size, m (off + i) = e.bytes i) :
    EntryAt m off e := by
  have hbytes : EntryAt e.bytes 0 e := by
    have hname : e.name.length < 256 ^ 2 := by
      have := he.name
      unfold bmeMaxNameSize at this
      omega
    have hoffset : e.bitmapTableOffset < 256 ^ 8 := he.offset
    have hsize : e.bitmapTableSize < 256 ^ 4 := he.tableSize
    have hgranularity : e.granularityBits < 256 ^ 1 := he.granularity
    have hflags : e.flags < 256 ^ 4 := by
      have := he.flags
      omega
    unfold BitmapDirEntry.bytes
    refine ⟨?_, ?_, ?_, ?_, ?_, ?_, ?_, ?_, he⟩
    · simp (disch := omega) only [be_splice_outside, be_splice_ofBe hoffset]
    · simp (disch := omega) only [be_splice_outside, zero_add, be_splice_ofBe hsize]
    · simp (disch := omega) only [be_splice_outside, zero_add, be_splice_ofBe hflags]
    · have htype : btDirtyTrackingBitmap < 256 ^ 1 := by decide
      simp (disch := omega) only [be_splice_outside, zero_add, be_splice_ofBe htype]
    · simp (disch := omega) only [be_splice_outside, zero_add, be_splice_ofBe hgranularity]
    · simp (disch := omega) only [be_splice_outside, zero_add, be_splice_ofBe hname]
    · have hzero : (0 : Nat) < 256 ^ 4 := by decide
      simp (disch := omega) only [be_splice_outside, zero_add, be_splice_ofBe hzero]
    · refine Eq.trans (window_congr fun i hi => ?_) (window_getD e.name)
      rw [zero_add, zero_add, splice_inside hi]
  exact hbytes.moved fun i hi => by rw [h i hi, zero_add]

/-! ## Packed entries -/

/-- The bytes a list of entries takes. -/
def span (es : List BitmapDirEntry) : Nat := (es.map BitmapDirEntry.size).sum

@[simp] theorem span_nil : span [] = 0 := rfl

@[simp] theorem span_cons (e : BitmapDirEntry) (es : List BitmapDirEntry) :
    span (e :: es) = e.size + span es :=
  rfl

theorem span_append (es es' : List BitmapDirEntry) : span (es ++ es') = span es + span es' := by
  unfold span
  rw [map_append, sum_append]

/-- The entries lie one behind the other from `off` on. -/
def Packed (m : ByteMap) : Nat → List BitmapDirEntry → Prop
  | _, [] => True
  | off, e :: es => EntryAt m off e ∧ Packed m (off + e.size) es

variable {es' : List BitmapDirEntry}

theorem packed_append : Packed m off (es ++ es') ↔ Packed m off es ∧
    Packed m (off + span es) es' := by
  induction es generalizing off with
  | nil => simp [Packed]
  | cons e es ih =>
    show EntryAt m off e ∧ Packed m (off + e.size) (es ++ es') ↔
      (EntryAt m off e ∧ Packed m (off + e.size) es) ∧ Packed m (off + span (e :: es)) es'
    rw [ih, span_cons, add_assoc, and_assoc]

variable (h : Packed m off es) {len room : Nat}

include h

/-- A packed list can be copied. -/
theorem Packed.moved (hcopy : ∀ i < span es, m' (off' + i) = m (off + i)) : Packed m' off' es := by
  induction es generalizing off off' with
  | nil => trivial
  | cons e es ih =>
    rw [span_cons] at hcopy
    refine ⟨h.1.moved fun i hi => hcopy i (by omega), ih h.2 fun i hi => ?_⟩
    rw [Nat.add_assoc, Nat.add_assoc]
    exact hcopy _ (by omega)

theorem Packed.unique (h' : Packed m off es') (hlen : es.length = es'.length) : es = es' := by
  induction es generalizing off es' with
  | nil => exact (length_eq_zero_iff.mp hlen.symm).symm
  | cons e es ih =>
    cases es' with
    | nil => cases hlen
    | cons e' es' =>
      obtain rfl := h.1.unique h'.1
      rw [ih h.2 h'.2 (Nat.succ.inj hlen)]

/-- A packed list that stops earlier is the front of the other. -/
theorem Packed.split {before : List BitmapDirEntry} (h' : Packed m off (before ++ [e]))
    (hlt : before.length < es.length) : ∃ after, es = before ++ e :: after := by
  refine ⟨es.drop (before.length + 1), ?_⟩
  have hfront : Packed m off (es.take (before.length + 1)) := by
    rw [← take_append_drop (before.length + 1) es] at h
    exact (packed_append.mp h).1
  have heq : es.take (before.length + 1) = before ++ [e] :=
    hfront.unique h' (by rw [length_take, length_append, length_singleton]; omega)
  calc es = es.take (before.length + 1) ++ es.drop (before.length + 1) :=
    (take_append_drop _ _).symm
    _ = before ++ e :: es.drop (before.length + 1) := by rw [heq, append_assoc, singleton_append]

theorem Packed.encodable (he : e ∈ es) : e.Encodable := by
  induction es generalizing off with
  | nil => cases he
  | cons e' es ih =>
    rcases mem_cons.mp he with rfl | he
    · exact h.1.encodable
    · exact ih h.2 he

/-! ## What the directory functions do -/

theorem bitmapEntriesFrom_packed {remaining : Nat} (hfit : span es ≤ remaining) :
    bitmapEntriesFrom m es.length off remaining = es := by
  induction es generalizing off remaining with
  | nil => rfl
  | cons e es ih =>
    rw [span_cons] at hfit
    have hread : entryAt ⟨off + remaining, m⟩ off = .ok (e, e.size) :=
      entryAt_ok.mpr ⟨rfl, by omega, h.1⟩
    rw [length_cons, bitmapEntriesFrom, hread]
    dsimp only
    rw [ih h.2 (by omega)]

omit h

/-- A search that finds the name stops at the first entry with it. -/
theorem findFrom_some {name : List UInt8} {found : FoundBitmap}
    (h : findFrom ⟨n, m⟩ name k i off = .ok (some found)) :
    ∃ before, before.length < k ∧ found.index = i + before.length ∧
      Packed m off (before ++ [found.entry]) ∧ found.entry.name = name ∧
      ∀ e ∈ before, e.name ≠ name := by
  induction k generalizing i off with
  | zero => cases h
  | succ k ih =>
    obtain ⟨⟨e, size⟩, he, hrest⟩ := ok_of_bind h
    obtain ⟨rfl, -, hat⟩ := entryAt_ok.mp he
    by_cases hname : e.name = name
    · simp only [hname, if_true] at hrest
      cases hrest
      exact ⟨[], Nat.succ_pos k, rfl, ⟨hat, trivial⟩, hname, fun e he => nomatch he⟩
    · simp only [hname, if_false] at hrest
      obtain ⟨before, hlt, hindex, hpacked, hfound, hne⟩ := ih hrest
      refine ⟨e :: before, Nat.succ_lt_succ hlt, ?_, ⟨hat, hpacked⟩, hfound, ?_⟩
      · rw [hindex, length_cons]
        omega
      · intro e' he'
        rcases mem_cons.mp he' with rfl | he'
        · exact hname
        · exact hne e' he'

theorem buildDirectoryWithAdded_ok
    (h : buildDirectoryWithAdded oldDir oldLen e out = .ok (len, out')) (he : e.Encodable) :
    oldLen ≤ oldDir.len ∧ len = oldLen + e.size ∧ len ≤ out.len ∧
    (∀ i < oldLen, out' i = oldDir.bytes i) ∧
      EntryAt out' oldLen e := by
  obtain ⟨hold, h⟩ := ok_of_check h
  obtain ⟨hroom, h⟩ := ok_of_check h
  unfold serializeBitmapDirEntry at h
  rw [if_neg (Nat.not_lt_of_le he.name)] at h
  by_cases hsize : out.len - oldLen < e.size
  · rw [if_pos hsize] at h
    cases h
  rw [if_neg hsize] at h
  cases h
  refine ⟨by omega, rfl, by omega, fun i hi => ?_, .of_bytes he fun i hi => splice_inside hi⟩
  rw [splice_outside (by omega), splice_mem (by omega) (by omega), Nat.sub_zero]

/-- What the loop of `build_directory_without` leaves: the entries without the one at `r`. -/
theorem withoutFrom_ok {outOff : Nat} {out : ByteMap}
    (h : withoutFrom ⟨n, m⟩ r room k i off outOff out = .ok (len, out')) :
    ∃ es, es.length = k ∧ Packed m off es ∧ (off ≤ n → off + span es ≤ n) ∧
      Packed out' outOff (if i ≤ r then es.eraseIdx (r - i) else es) ∧
      len = outOff + span (if i ≤ r then es.eraseIdx (r - i) else es) ∧
      (outOff ≤ room → len ≤ room) ∧ ∀ b < outOff, out' b = out b := by
  induction k generalizing i off outOff out with
  | zero =>
    cases h
    refine ⟨[], rfl, trivial, fun h => h, ?_, ?_, fun h => h, fun b _ => rfl⟩
    · split
      · exact trivial
      · exact trivial
    · simp
  | succ k ih =>
    obtain ⟨⟨e, size⟩, he, hrest⟩ := ok_of_bind h
    obtain ⟨rfl, hin, hat⟩ := entryAt_ok.mp he
    by_cases hir : i = r
    · -- the entry that goes
      rw [if_pos hir] at hrest
      obtain ⟨es, hlen, hpacked, hend, hout, hspan, hfits, hkept⟩ := ih hrest
      have hpast : ¬ i + 1 ≤ r := by omega
      simp only [if_neg hpast] at hout hspan
      refine ⟨e :: es, by rw [length_cons, hlen], ⟨hat, hpacked⟩,
        fun _ => by have := hend hin; rw [span_cons]; omega, ?_⟩
      rw [if_pos (by omega), hir, Nat.sub_self, eraseIdx_zero, tail_cons]
      exact ⟨hout, hspan, hfits, hkept⟩
    · rw [if_neg hir] at hrest
      by_cases hroom : room < outOff + e.size
      · rw [if_pos hroom] at hrest
        cases hrest
      rw [if_neg hroom] at hrest
      obtain ⟨es, hlen, hpacked, hend, hout, hspan, hfits, hkept⟩ := ih hrest
      refine ⟨e :: es, by rw [length_cons, hlen], ⟨hat, hpacked⟩,
        fun _ => by have := hend hin; rw [span_cons]; omega, ?_⟩
      have hcons : (if i ≤ r then (e :: es).eraseIdx (r - i) else e :: es) =
          e :: (if i + 1 ≤ r then es.eraseIdx (r - (i + 1)) else es) := by
        by_cases hle : i ≤ r
        · rw [if_pos hle, if_pos (by omega),
            show r - i = r - (i + 1) + 1 by omega, eraseIdx_cons_succ]
        · rw [if_neg hle, if_neg (by omega)]
      have hcopied : EntryAt out' outOff e := hat.moved fun j hj => by
        rw [hkept _ (by omega), splice_inside hj, drop_apply]
      rw [hcons, span_cons]
      refine ⟨⟨hcopied, hout⟩, by omega, fun _ => hfits (by omega), fun b hb => ?_⟩
      rw [hkept b (by omega), splice_outside (by omega)]

theorem buildDirectoryWithout_ok
    (h : buildDirectoryWithout oldDir oldLen k r out = .ok (len, out')) :
    r < k ∧ len ≤ out.len ∧ ∃ es, es.length = k ∧ Packed oldDir.bytes 0 es ∧ span es ≤ oldLen ∧
      Packed out' 0 (es.eraseIdx r) ∧ len = span (es.eraseIdx r) := by
  obtain ⟨hindex, h⟩ := ok_of_check h
  obtain ⟨-, h⟩ := ok_of_check h
  obtain ⟨es, hlen, hpacked, hend, hout, hspan, hfits, -⟩ := withoutFrom_ok h
  rw [if_pos (Nat.zero_le r), Nat.sub_zero] at hout hspan
  exact ⟨by omega, hfits (Nat.zero_le _), es, hlen, hpacked, by omega, hout, by omega⟩

/-- What the loop of `build_directory_replacing` leaves: the entries with the one at `r`
replaced. -/
theorem replacingFrom_ok {out : ByteMap} (he : e.Encodable)
    (h : replacingFrom ⟨n, m⟩ r e room k i off out = .ok (len, out')) :
    ∃ es, es.length = k ∧ Packed m off es ∧
    Packed out' off (if i ≤ r then es.set (r - i) e else es) ∧
      len = off + span es ∧ span (if i ≤ r then es.set (r - i) e else es) = span es ∧
      (off ≤ room → len ≤ room) ∧ ∀ b < off, out' b = out b := by
  induction k generalizing i off out with
  | zero =>
    cases h
    refine ⟨[], rfl, trivial, ?_, rfl, ?_, fun h => h, fun b _ => rfl⟩
    · split
      · exact trivial
      · exact trivial
    · simp
  | succ k ih =>
    rw [replacingFrom] at h
    obtain ⟨⟨e1, size⟩, he1, h⟩ := ok_of_bind h
    obtain ⟨rfl, -, hat⟩ := entryAt_ok.mp he1
    obtain ⟨hroom, h⟩ := ok_of_check h
    obtain ⟨bytes, hbytes, hrest⟩ := ok_of_bind h
    obtain ⟨es, hlen, hpacked, hout, hspan, hsame, hfits, hkept⟩ := ih hrest
    refine ⟨e1 :: es, by rw [length_cons, hlen], ⟨hat, hpacked⟩, ?_⟩
    have hbelow : ∀ b < off, out' b = out b := fun b hb => by
      rw [hkept b (by omega), splice_outside (by omega)]
    have hhere : ∀ j < e1.size, out' (off + j) = bytes j := fun j hj => by
      rw [hkept _ (by omega), splice_inside hj]
    unfold replacedEntry at hbytes
    by_cases hir : i = r
    · -- the entry that is replaced
      rw [if_pos hir] at hbytes
      unfold serializeBitmapDirEntry at hbytes
      have hfit : ¬ 1048 < e.size := by
        have := he.name
        unfold BitmapDirEntry.size bmeMaxNameSize at *
        omega
      rw [if_neg (Nat.not_lt_of_le he.name), if_neg hfit] at hbytes
      by_cases hsize : e.size = e1.size
      swap
      · simp only [ne_eq, hsize, not_false_eq_true, if_true] at hbytes
        cases hbytes
      simp only [ne_eq, hsize, not_true_eq_false, if_false] at hbytes
      cases hbytes
      have hpast : ¬ i + 1 ≤ r := by omega
      simp only [if_neg hpast] at hout
      rw [if_pos (by omega), hir, Nat.sub_self, set_cons_zero, span_cons, span_cons, hsize]
      refine ⟨⟨.of_bytes he fun j hj => hhere j (by omega),
        ?_⟩, by omega, rfl, fun _ => hfits (by omega), hbelow⟩
      rw [hsize]
      exact hout
    · rw [if_neg hir] at hbytes
      cases hbytes
      have hcons : (if i ≤ r then (e1 :: es).set (r - i) e else e1 :: es) =
          e1 :: (if i + 1 ≤ r then es.set (r - (i + 1)) e else es) := by
        by_cases hle : i ≤ r
        · rw [if_pos hle, if_pos (by omega), show r - i = r - (i + 1) + 1 by omega, set_cons_succ]
        · rw [if_neg hle, if_neg (by omega)]
      have hcopied : EntryAt out' off e1 := hat.moved fun j hj => by
        rw [hhere j hj, drop_apply]
      rw [hcons, span_cons, span_cons, hsame]
      exact ⟨⟨hcopied, hout⟩, by omega, rfl, fun _ => hfits (by omega), hbelow⟩

theorem buildDirectoryReplacing_ok (he : e.Encodable)
    (h : buildDirectoryReplacing oldDir oldLen k r e out = .ok (len, out')) :
    r < k ∧ len ≤ out.len ∧ ∃ es, es.length = k ∧ Packed oldDir.bytes 0 es ∧
    Packed out' 0 (es.set r e) ∧
      len = span (es.set r e) := by
  obtain ⟨hindex, h⟩ := ok_of_check h
  obtain ⟨-, h⟩ := ok_of_check h
  obtain ⟨es, hlen, hpacked, hout, hspan, hsame, hfits, -⟩ := replacingFrom_ok he h
  rw [if_pos (Nat.zero_le r), Nat.sub_zero] at hout hsame
  exact ⟨by omega, hfits (Nat.zero_le _), es, hlen, hpacked, hout, by omega⟩

end Instar.Bitmap
