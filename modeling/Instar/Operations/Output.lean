import Instar.Lib.Triple
import Instar.Read.Device

/-!
# The output device of a conversion

A conversion reads a chain and writes whole sectors to an output device.  Its state is the state of
the chain's readers and the output written so far.
-/

namespace Instar.Convert

open Fallible Read

/-- What an operation knows of its output device. -/
structure OutputDevice where
  sectorSize : Nat
  sectorSize_pos : 0 < sectorSize
  capacity : Nat

/-- What is on the output device, the sectors that were written, and which sector writes succeed. -/
structure Output where
  bytes : ByteMap
  written : List Nat
  writeOk : Nat → Bool

/-- An output device that holds zeros. -/
def Output.blank (writeOk : Nat → Bool) : Output := ⟨fun _ => 0, [], writeOk⟩

/-- The state of a conversion. -/
structure ConvertState where
  reader : ReaderState
  out : Output

/-- A read of the input. -/
def onReader {α : Type} (m : Fallible ReaderState α) : Fallible ConvertState α :=
  fun s => ((m s.reader).1, { s with reader := (m s.reader).2 })

/-- `is_all_zeros_ptr`. -/
def isAllZeros (buf : ByteMap) (len : Nat) : Bool := (List.range len).all fun i => buf i = 0

theorem isAllZeros_iff {buf : ByteMap} {len : Nat} : isAllZeros buf len = true ↔
    ∀ i < len, buf i = 0 := by
  simp [isAllZeros]

variable {I : ReaderState → Prop}

theorem onReader_triple {α : Type} {m : Fallible ReaderState α}
    {Q : α → Prop} (h : Ensures I m Q) (R : Output → Prop) :
    Triple (fun s => I s.reader ∧ R s.out) (onReader m) fun a s => Q a ∧ I s.reader ∧ R s.out := by
  intro s a s' hs hrun
  cases hm : m s.reader with
  | mk result r =>
    unfold onReader at hrun
    rw [hm] at hrun
    obtain ⟨rfl, rfl⟩ := Prod.mk.injEq .. ▸ hrun
    have hread := h.of_run hs.1 hm
    exact ⟨hread.2, hread.1, hs.2⟩

namespace OutputDevice

variable (dev : OutputDevice)

/-- Write one sector of the output. -/
def writeOutputSector (sector : Nat) (data : ByteMap) : Fallible ConvertState Unit := fun s =>
  if s.out.writeOk sector then
    (some (), { s with out := { s.out with
      bytes := s.out.bytes.splice (sector * dev.sectorSize) dev.sectorSize data
      written := sector :: s.out.written } })
  else (none, s)

/-- The loop that writes `count` sectors of `data` from the sector `first + i` on; `whenFull` is
what happens at the end of the device. -/
def writeSectors (whenFull : Fallible ConvertState Unit) (first : Nat) (data : ByteMap) :
    (count i : Nat) → Fallible ConvertState Unit
  | 0, _ => pure ()
  | count + 1, i =>
    if dev.capacity ≤ first + i then whenFull
    else do
      dev.writeOutputSector (first + i) (data.drop (i * dev.sectorSize))
      writeSectors whenFull first data count (i + 1)

/-- `write_bytes_to_output`: the sectors from the one that `byteOffset` lies in. -/
def writeBytesToOutput (buf : ByteMap) (byteOffset byteCount : Nat) : Fallible ConvertState Unit :=
  dev.writeSectors fail (byteOffset / dev.sectorSize) buf
    ((byteCount + dev.sectorSize - 1) / dev.sectorSize) 0

/-- `o'` is `o` after the start of `data` went to the `count` sectors from `first` on. -/
structure Wrote (first count : Nat) (data : ByteMap) (o o' : Output) : Prop where
  bytes : o'.bytes = o.bytes.splice (first * dev.sectorSize) (count * dev.sectorSize) data
  written : ∀ sector, sector ∈ o'.written ↔ sector ∈ o.written ∨
    (first ≤ sector ∧ sector < first + count)
  writeOk : o'.writeOk = o.writeOk

variable {dev} {first count : Nat} {data : ByteMap} {o o' o'' : Output}
  {whenFull : Fallible ConvertState Unit}

theorem Wrote.nothing : dev.Wrote first 0 data o o :=
  ⟨by rw [zero_mul, ByteMap.splice_zero], fun _ => ⟨.inl, fun h => h.resolve_right (by omega)⟩, rfl⟩

/-- Some sectors and then the next one. -/
theorem Wrote.next (h : dev.Wrote first count data o o')
    (h' : dev.Wrote (first + count) 1 (data.drop (count * dev.sectorSize)) o' o'') :
    dev.Wrote first (count + 1) data o o'' where
  bytes := by
    rw [h'.bytes, h.bytes, one_mul, add_mul, add_mul, one_mul, ByteMap.splice_splice]
  written sector := by
    rw [h'.written sector, h.written sector, or_assoc]
    exact or_congr_right (by omega)
  writeOk := h'.writeOk.trans h.writeOk

theorem writeOutputSector_triple (sector : Nat) (data : ByteMap) (I : ReaderState → Prop)
    (o : Output) : Triple (fun s => I s.reader ∧ s.out = o) (dev.writeOutputSector sector data)
      fun _ s => I s.reader ∧ dev.Wrote sector 1 data o s.out := by
  intro s a s' hs hrun
  unfold writeOutputSector at hrun
  split at hrun
  · cases hrun
    refine ⟨hs.1, ?_, fun x => ?_, ?_⟩
    · rw [one_mul, hs.2]
    · rw [List.mem_cons, hs.2, or_comm]
      exact or_congr_right (by omega)
    · rw [hs.2]
  · cases hrun

theorem writeSectors_triple
    {Q : ConvertState → Prop} (hdone : ∀ s, I s.reader → dev.Wrote first count data o s.out → Q s)
    (hfull : ∀ k ≤ count, dev.capacity ≤ first + k →
      Triple (fun s => I s.reader ∧ dev.Wrote first k data o s.out) whenFull fun _ => Q) :
    Triple (fun s => I s.reader ∧ s.out = o) (dev.writeSectors whenFull first data count 0)
      fun _ => Q := by
  -- with `i` sectors written
  suffices ∀ left i, i + left = count →
        Triple (fun s => I s.reader ∧ dev.Wrote first i data o s.out)
        (dev.writeSectors whenFull first data left i) fun _ => Q by
    refine (this count 0 (zero_add _)).mono (fun s hs => ⟨hs.1, ?_⟩) fun _ _ h => h
    rw [hs.2]
    exact .nothing
  intro left
  induction left with
  | zero =>
    intro i hi
    have heq : i = count := by omega
    subst heq
    exact .pure fun s hs => hdone s hs.1 hs.2
  | succ left ih =>
    intro i hi
    refine .ite (fun hcap => hfull i (by omega) hcap) fun _ => ?_
    intro s a s' hs hrun
    obtain ⟨_, s1, hwrite, hrest⟩ := eq_some_of_bind hrun
    have hsector := writeOutputSector_triple _ _ I s.out s _ s1 ⟨hs.1, rfl⟩ hwrite
    exact ih (i + 1) (by omega) s1 a s' ⟨hsector.1, hs.2.next hsector.2⟩ hrest

theorem writeBytesToOutput_triple (buf : ByteMap) (byteOffset byteCount : Nat)
    (I : ReaderState → Prop)
    (o : Output) : Triple (fun s => I s.reader ∧
      s.out = o) (dev.writeBytesToOutput buf byteOffset byteCount)
      fun _ s => I s.reader ∧ dev.Wrote (byteOffset / dev.sectorSize)
        ((byteCount + dev.sectorSize - 1) / dev.sectorSize) buf o s.out :=
  writeSectors_triple (fun _ hI hwrote => ⟨hI, hwrote⟩) fun _ _ _ => .fail

end OutputDevice

end Instar.Convert
