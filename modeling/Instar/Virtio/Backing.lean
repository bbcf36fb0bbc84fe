import Instar.Lib.Attempt
import Instar.Lib.ByteMap

/-!
# The file behind a virtio block device

`BackingStore` of `vmm/src/backing.rs`: a host file with the byte capacity writes are held to and
the length the store believes the file has.  It differs from the file's own while a sparse file
grows, and a write of no bytes moves it without growing the file.  Operations of the host's file
system succeed, except that nothing is written to a file opened for reading and that `read_exact`
fails at the end of the file.
-/

namespace Instar.Virtio

/-- A host file: `bytes` below `len`. -/
structure File where
  bytes : ByteMap
  len : Nat

/-- The byte at offset `i`, zero past the end. -/
def File.at (f : File) (i : Nat) : UInt8 := if i < f.len then f.bytes i else 0

/-- `File::set_len`: what is added is zero. -/
def File.setLen (f : File) (len : Nat) : File := ⟨f.at, len⟩

/-- `seek` and `write_all`: a gap before `offset` becomes a hole of zeros. -/
def File.writeAll (f : File) (offset len : Nat) (buf : ByteMap) : File :=
  if len = 0 then f else ⟨ByteMap.splice f.at offset len buf, max f.len (offset + len)⟩

/-- What can stop the host in the middle of a request. -/
inductive Fault where
  | lengthOverflow
  | exceedsCapacity (offset len capacity : Nat)
  | file
  | memory
  | descriptorIndex (index queueSize : Nat)
  | missingDataDescriptor
  | missingStatusDescriptor

/-- `seek` and `read_exact`. -/
def File.readExact (f : File) (offset len : Nat) : Except Fault ByteMap :=
  if len = 0 ∨ offset + len ≤ f.len then .ok (f.bytes.drop offset) else .error .file

/-- The file behind a device. -/
structure BackingStore where
  file : File
  /-- The file is open for writing. -/
  writable : Bool
  capacity : Nat
  currentSize : Nat
  sparse : Bool

namespace BackingStore

/-- `BackingStore::open`; a file that is not opened read-only is created or truncated. -/
def «open» (found : File) (readOnly : Bool) (capacity : Option Nat) (sparse : Bool) :
    BackingStore :=
  let file := if readOnly then found else found.setLen 0
  match capacity with
  | some cap =>
    if !readOnly && !sparse then
      ⟨file.setLen cap, true, cap, cap, sparse⟩
    else
      ⟨file, !readOnly, cap, file.len, sparse⟩
  | none => ⟨file, !readOnly, file.len, file.len, sparse⟩

/-- `open_rw_existing`. -/
def openRwExisting (found : File) (capacity : Option Nat) : BackingStore :=
  ⟨found, true, max (capacity.getD found.len) found.len, found.len, true⟩

/-- `BackingStore::read_at`. -/
def readAt (b : BackingStore) (offset len : Nat) : Except Fault ByteMap :=
  if 2 ^ 64 ≤ offset + len then
    .error .lengthOverflow
  else if b.currentSize < offset + len then
    if b.currentSize ≤ offset then
      .ok fun _ => 0
    else do
      let existing := b.currentSize - offset
      let buf ← b.file.readExact offset existing
      pure (buf.append existing fun _ => 0)
  else
    b.file.readExact offset len

/-- The unchecked arithmetic of `read_at`: where the file ends inside the buffer, the subtraction
does not wrap and `buf[..existing_bytes]` is inside the buffer. -/
def ReadInBounds (b : BackingStore) (offset len : Nat) : Prop :=
  b.currentSize < offset + len → ¬ b.currentSize ≤ offset →
    offset ≤ b.currentSize ∧ b.currentSize - offset ≤ len

instance (b : BackingStore) (offset len : Nat) : Decidable (b.ReadInBounds offset len) := by
  unfold ReadInBounds
  infer_instance

/-- The tracked length after a write up to `stop`: only a sparse file's length is tracked. -/
def grown (b : BackingStore) (stop : Nat) : BackingStore :=
  { b with currentSize := if b.sparse && decide (b.currentSize < stop) then stop
    else b.currentSize }

/-- `BackingStore::write_at`. -/
def writeAt (offset len : Nat) (buf : ByteMap) : Attempt Fault BackingStore Unit := fun b =>
  if 2 ^ 64 ≤ offset + len then
    (.error .lengthOverflow, b)
  else if b.capacity < offset + len then
    (.error (.exceedsCapacity offset len b.capacity), b)
  else if b.writable || len == 0 then
    (.ok (), { b.grown (offset + len) with file := b.file.writeAll offset len buf })
  else
    -- the tracked length has moved although the file has not
    (.error .file, b.grown (offset + len))

end BackingStore

/-- The ways a backing store is opened, with the arguments of the call. -/
inductive Opening where
  | plain (readOnly : Bool) (capacity : Option Nat) (sparse : Bool)
  | rwExisting (capacity : Option Nat)

/-- The store an opening gives. -/
def Opening.store (found : File) : Opening → BackingStore
  | .plain readOnly capacity sparse => .open found readOnly capacity sparse
  | .rwExisting capacity => .openRwExisting found capacity

/-! ## What an operation leaves of the file -/

/-- A write puts its bytes at its place and keeps every other byte. -/
theorem File.at_writeAll (f : File) (offset len : Nat) (buf : ByteMap) (i : Nat) :
    (f.writeAll offset len buf).at i = ByteMap.splice f.at offset len buf i := by
  unfold writeAll
  split
  next h =>
    rw [h, ByteMap.splice_zero]
  · show (if i < max f.len (offset + len) then _ else _) = _
    split
    · rfl
    · rw [ByteMap.splice_outside (by omega)]
      exact (if_neg (by omega)).symm

theorem File.len_writeAll (f : File) (offset len : Nat) (buf : ByteMap) :
    (f.writeAll offset len buf).len = if len = 0 then f.len else max f.len (offset + len) := by
  unfold writeAll
  split <;> rfl

/-- `read_exact` answers with the file's bytes. -/
theorem File.readExact_ok {f : File} {offset len i : Nat} {buf : ByteMap}
    (h : f.readExact offset len = .ok buf) (hi : i < len) : buf i = f.at (offset + i) := by
  unfold readExact at h
  split at h
  · cases h
    exact (if_pos (by omega)).symm
  · cases h

namespace BackingStore

variable {b b0 : BackingStore} {offset len : Nat} {buf : ByteMap}

/-- A store `b` that began as `b0`, whatever was asked of it: the file changed below the capacity
only and is no longer than the store believes. -/
structure Confined (b0 b : BackingStore) : Prop where
  capacity : b.capacity = b0.capacity
  above : ∀ i, b0.capacity ≤ i → b.file.at i = b0.file.at i
  kept : b0.file.len ≤ b.file.len
  length : b.file.len ≤ max b0.capacity b0.file.len
  tracked : b.file.len ≤ b.currentSize
  /-- A file whose length is not tracked has no room to grow. -/
  full : b.sparse = true ∨ b.writable = false ∨ b.capacity ≤ b.currentSize

theorem confined_opened (found : File) (o : Opening) :
    Confined (o.store found) (o.store found) := by
  refine ⟨rfl, fun _ _ => rfl, le_rfl, le_max_right _ _, ?_, ?_⟩
  · cases o with
    | rwExisting capacity => exact le_rfl
    | plain readOnly capacity sparse =>
      cases capacity <;> cases readOnly <;> cases sparse <;> exact le_rfl
  · cases o with
    | rwExisting capacity => exact .inl rfl
    | plain readOnly capacity sparse =>
      cases capacity <;> cases readOnly <;> cases sparse <;>
        simp [Opening.store, BackingStore.open, File.setLen]

/-- Whatever `read_at` answers is the file, zero past its end. -/
theorem readAt_bytes (htracked : b.file.len ≤ b.currentSize)
    (hrun : b.readAt offset len = .ok buf) : ∀ i < len, buf i = b.file.at (offset + i) := by
  intro i hi
  unfold BackingStore.readAt at hrun
  split at hrun
  · cases hrun
  · split at hrun
    · split at hrun
      · cases hrun
        exact (if_neg (by omega)).symm
      · cases hread : b.file.readExact offset (b.currentSize - offset) with
        | error e => simp only [hread] at hrun; cases hrun
        | ok out =>
          simp only [hread] at hrun
          cases hrun
          show (if i < b.currentSize - offset then out i else 0) = _
          split
          · exact File.readExact_ok hread ‹_›
          · exact (if_neg (by omega)).symm
    · exact File.readExact_ok hrun hi

theorem le_grown (b : BackingStore) (stop : Nat) : b.currentSize ≤ (b.grown stop).currentSize := by
  show _ ≤ if _ then _ else _
  split
  next h =>
    exact (of_decide_eq_true (Bool.and_eq_true_iff.mp h).2).le
  · exact le_rfl

theorem grown_sparse {stop : Nat} (hs : b.sparse = true) :
    (b.grown stop).currentSize = max b.currentSize stop := by
  simp only [grown, hs, Bool.true_and, decide_eq_true_eq]
  split <;> omega

theorem Confined.writeAt (h : Confined b0 b) : Confined b0 (writeAt offset len buf b).2 := by
  obtain ⟨hcap, habove, hkept, hlength, htracked, hfull⟩ := h
  have hgrown := b.le_grown (offset + len)
  have hfull' : b.sparse = true ∨ b.writable = false ∨
      b.capacity ≤ (b.grown (offset + len)).currentSize :=
    hfull.imp_right fun h => h.imp_right fun h => h.trans hgrown
  unfold BackingStore.writeAt
  split
  · exact ⟨hcap, habove, hkept, hlength, htracked, hfull⟩
  · split
    · exact ⟨hcap, habove, hkept, hlength, htracked, hfull⟩
    · split
      next hwrite =>
        have hlen : (b.file.writeAll offset len buf).len = b.file.len ∨
            b.writable = true ∧ (b.file.writeAll offset len buf).len =
            max b.file.len (offset + len) := by
          rw [File.len_writeAll]
          split
          · exact .inl rfl
          next hsome =>
            exact .inr ⟨by simpa [hsome] using hwrite, rfl⟩
        refine ⟨hcap, fun i hi => ?_, show _ ≤ (b.file.writeAll offset len buf).len by omega,
          show (b.file.writeAll offset len buf).len ≤ _ by omega, ?_, hfull'⟩
        · rw [← habove i hi, File.at_writeAll, ByteMap.splice_outside (by omega)]
        · show (b.file.writeAll offset len buf).len ≤ (b.grown (offset + len)).currentSize
          rcases hlen with hsame | ⟨hw, hmax⟩
          · omega
          · rcases hfull with hs | hro | hroom
            · rw [grown_sparse hs]
              omega
            · rw [hw] at hro
              cases hro
            · omega
      · exact ⟨hcap, habove, hkept, hlength, htracked.trans hgrown, hfull'⟩

end BackingStore

end Instar.Virtio
