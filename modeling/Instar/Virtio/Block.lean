import Instar.Virtio.Backing

/-!
# The virtio block device of the VMM

`vmm/src/virtio/block.rs` and `mmio.rs`: the registers, the queue loop and one request of it.  Guest
memory is a parameter: its accesses are bounds-checked and may fail, and the guest may run between
two of them, so that a read may answer anything.  Addresses are 64-bit and wrap, as in a build
without overflow checks; a build with them panics at the first sum, product or index that `check`
notes.  What is noted is kept in `Trace`, which no computation reads.
-/

namespace Instar.Virtio

/-- The registers of one queue. -/
structure VirtqueueState where
  num : Nat := 0
  ready : Bool := false
  descAddr : Nat := 0
  driverAddr : Nat := 0
  deviceAddr : Nat := 0
  lastAvailIdx : UInt16 := 0

/-- The registers.  The device has one queue, which is the current one whatever `queueSel` holds:
`queues[queue_sel % 1]`. -/
structure MmioState where
  deviceFeaturesSel : Nat := 0
  driverFeaturesSel : Nat := 0
  driverFeatures : Nat := 0
  queueSel : Nat := 0
  status : Nat := 0
  interruptStatus : Nat := 0
  queue : VirtqueueState := {}
  queueNotifyPending : Bool := false

/-- The low half of a 64-bit register replaced. -/
def setLow (reg value : Nat) : Nat := reg / 2 ^ 32 * 2 ^ 32 + value

/-- The high half of a 64-bit register replaced. -/
def setHigh (reg value : Nat) : Nat := reg % 2 ^ 32 + value * 2 ^ 32

/-- The part of `mmio_write` that is about the current queue. -/
def VirtqueueState.mmioWrite (q : VirtqueueState) (offset value : Nat) : VirtqueueState :=
  match offset with
  | 0x038 =>
    -- QUEUE_NUM: a size the device does not support leaves the queue as it is
    if value = 0 ∨ 256 < value ∨ value &&& (value - 1) ≠ 0 then q else { q with num := value }
  | 0x044 => { q with ready := decide (value ≠ 0) }
  | 0x080 => { q with descAddr := setLow q.descAddr value }
  | 0x084 => { q with descAddr := setHigh q.descAddr value }
  | 0x090 => { q with driverAddr := setLow q.driverAddr value }
  | 0x094 => { q with driverAddr := setHigh q.driverAddr value }
  | 0x0A0 => { q with deviceAddr := setLow q.deviceAddr value }
  | 0x0A4 => { q with deviceAddr := setHigh q.deviceAddr value }
  | _ => q

/-- `mmio_write` of a 32-bit value; status 0 resets the device. -/
def MmioState.mmioWrite (s : MmioState) (offset value : Nat) : MmioState :=
  match offset with
  | 0x014 => { s with deviceFeaturesSel := value }
  | 0x020 =>
    { s with driverFeatures :=
        if s.driverFeaturesSel = 0 then setLow s.driverFeatures value
        else setHigh s.driverFeatures value }
  | 0x024 => { s with driverFeaturesSel := value }
  | 0x030 => { s with queueSel := value }
  | 0x050 => { s with queueNotifyPending := true }
  | 0x064 => { s with interruptStatus := s.interruptStatus &&& (2 ^ 32 - 1 - value) }
  | 0x070 => if value % 256 = 0 then {} else { s with status := value % 256 }
  | _ => { s with queue := s.queue.mmioWrite offset value }

/-- The registers hold values of their width, and the index of the current queue is in bounds. -/
def MmioState.Fits (s : MmioState) : Prop :=
  s.driverFeatures < 2 ^ 64 ∧ s.status < 2 ^ 8 ∧ s.interruptStatus < 2 ^ 32 ∧ s.queueSel % 1 < 1 ∧
    s.queue.num < 2 ^ 16 ∧ s.queue.descAddr < 2 ^ 64 ∧ s.queue.driverAddr < 2 ^ 64 ∧
    s.queue.deviceAddr < 2 ^ 64

instance (s : MmioState) : Decidable s.Fits := by
  unfold MmioState.Fits
  infer_instance

/-- `VirtioBlockDevice`, without its address and the reserved queue base. -/
structure VirtioBlockDevice where
  backing : BackingStore
  /-- In sectors. -/
  capacity : Nat
  sectorSize : Nat
  readOnly : Bool
  state : MmioState := {}

/-- `VirtioBlockDevice::new`: the capacity is rounded up to whole sectors. -/
def VirtioBlockDevice.new (backing : BackingStore) (sizeBytes sectorSize : Nat)
    (readOnly : Bool) : VirtioBlockDevice :=
  ⟨backing, (sizeBytes + sectorSize - 1) / sectorSize, sectorSize, readOnly, {}⟩

/-- `div_ceil` by a sector size. -/
theorem divCeil_le (n : Nat) {sectorSize : Nat} (hpos : 0 < sectorSize) :
    (n + sectorSize - 1) / sectorSize ≤ n := by
  refine Nat.lt_succ_iff.mp ((Nat.div_lt_iff_lt_mul hpos).mpr ?_)
  have hmul : n ≤ n * sectorSize := Nat.le_mul_of_pos_right n hpos
  rw [Nat.succ_mul]
  omega

/-- `mmio_write` changes only the registers. -/
def VirtioBlockDevice.mmioWrite (d : VirtioBlockDevice) (offset value : Nat) :
    VirtioBlockDevice :=
  { d with state := d.state.mmioWrite offset value }

/-- Bounds-checked access to guest memory: `read` and `write` of a number of bytes at an address. -/
structure GuestMemory (M : Type) where
  read : Nat → Nat → Attempt Fault M ByteMap
  write : Nat → Nat → ByteMap → Attempt Fault M Unit

/-- What an IN request did to guest memory: the sector asked for, the file as it then was, the
guest's buffer, and the memory before and after. -/
structure Delivery (M : Type) where
  file : File
  sector : Nat
  addr : Nat
  len : Nat
  before : M
  after : M

/-- What is noted of a run, for statements about it. -/
structure Trace (M : Type) where
  /-- The bytes allocated by each request begun, the latest first. -/
  allocated : List Nat := []
  delivered : List (Delivery M) := []
  /-- The address of each descriptor asked for, before it wraps. -/
  fetched : List Nat := []
  /-- The length of the data descriptor of each request whose status was written. -/
  answered : List Nat := []
  /-- A sum or product left its type, or an index its array. -/
  overflowed : Bool := false

/-- The io thread of a device: the device, guest memory, and the trace of the run. -/
structure Host (M : Type) where
  device : VirtioBlockDevice
  memory : M
  trace : Trace M := {}

/-- `request_status`. -/
inductive RequestStatus where
  | ok
  | ioerr
  | unsupp
  deriving DecidableEq

/-- The status byte. -/
def RequestStatus.code : RequestStatus → Nat
  | ok => 0
  | ioerr => 1
  | unsupp => 2

/-- Statistics of a request, or of all requests of a notification. -/
structure IoStats where
  bytesRead : Nat := 0
  bytesWritten : Nat := 0
  sectorsRead : Nat := 0
  sectorsWritten : Nat := 0

/-- The statistics of a request are accumulated. -/
def IoStats.add (a b : IoStats) : IoStats :=
  ⟨a.bytesRead + b.bytesRead, a.bytesWritten + b.bytesWritten, a.sectorsRead + b.sectorsRead,
    a.sectorsWritten + b.sectorsWritten⟩

/-- Every counter is at most `n`. -/
def IoStats.AtMost (n : Nat) (s : IoStats) : Prop :=
  s.bytesRead ≤ n ∧ s.bytesWritten ≤ n ∧ s.sectorsRead ≤ n ∧ s.sectorsWritten ≤ n

theorem IoStats.AtMost.mono {s : IoStats} {n m : Nat} (h : s.AtMost n) (hle : n ≤ m) : s.AtMost m :=
  ⟨h.1.trans hle, h.2.1.trans hle, h.2.2.1.trans hle, h.2.2.2.trans hle⟩

instance (n : Nat) (s : IoStats) : Decidable (s.AtMost n) := by
  unfold IoStats.AtMost
  infer_instance

/-- A virtqueue descriptor. -/
structure VirtqDesc where
  addr : Nat
  len : Nat
  flags : Nat
  next : Nat

/-- The descriptor laid out in the first 16 bytes. -/
def VirtqDesc.ofBytes (obj : ByteMap) : VirtqDesc :=
  ⟨obj.le 0 8, obj.le 8 4, obj.le 12 2, obj.le 14 2⟩

/-- `F_NEXT`. -/
def VirtqDesc.hasNext (d : VirtqDesc) : Bool := d.flags % 2 == 1

/-- `F_WRITE`: the buffer is for the device to write. -/
def VirtqDesc.deviceWrites (d : VirtqDesc) : Bool := d.flags / 2 % 2 == 1

/-- `validate_io_request`: the byte offset of a request that may go on. -/
def VirtioBlockDevice.validateIoRequest (d : VirtioBlockDevice) (sector len : Nat) : Option Nat :=
  if 1024 * 1024 < len ∨ d.capacity ≤ sector ∨ 2 ^ 64 ≤ sector * d.sectorSize
      ∨ 2 ^ 64 ≤ sector * d.sectorSize + len then none
  else some (sector * d.sectorSize)

section

variable {M : Type} (g : GuestMemory M)

namespace Host

/-- Something is noted in the trace. -/
def note (f : Trace M → Trace M) : Attempt Fault (Host M) Unit :=
  .modify fun h => { h with trace := f h.trace }

/-- Arithmetic of the source that is in range if `c` holds, and overflows or panics otherwise. -/
def check (c : Prop) [Decidable c] : Attempt Fault (Host M) Unit :=
  note fun t => { t with overflowed := t.overflowed || !decide c }

/-- `read_obj` and `read_slice` of guest memory. -/
def load (addr len : Nat) : Attempt Fault (Host M) ByteMap :=
  .onPart memory (fun m h => { h with memory := m }) (g.read (addr % 2 ^ 64) len)

/-- `write_obj` and `write_slice` of guest memory. -/
def store (addr len : Nat) (buf : ByteMap) : Attempt Fault (Host M) Unit :=
  .onPart memory (fun m h => { h with memory := m }) (g.write (addr % 2 ^ 64) len buf)

/-- `vec![0u8; len]`, by the latest request. -/
def allocate (len : Nat) : Attempt Fault (Host M) Unit :=
  note fun t => { t with allocated := t.allocated.modifyHead (· + len) }

/-- `read_descriptor`. -/
def readDescriptor (table index queueSize : Nat) : Attempt Fault (Host M) VirtqDesc := do
  Attempt.require (index < queueSize) (.descriptorIndex index queueSize)
  note fun t => { t with fetched := (table + index * 16) :: t.fetched }
  check (table + index * 16 < 2 ^ 64)
  let obj ← load g (table + index * 16) 16
  pure (.ofBytes obj)

/-- `do_read`. -/
def doRead (sector addr len : Nat) : Attempt Fault (Host M) RequestStatus := do
  let h ← Attempt.get
  match h.device.validateIoRequest sector len with
  | none => pure .ioerr
  | some offset => do
      allocate len
      check (h.device.backing.ReadInBounds offset len)
      let buf ← Attempt.ofExcept (h.device.backing.readAt offset len)
      store g addr len buf
      pure .ok

/-- An IN request is watched from outside: the trace gets what it did to guest memory. -/
def watched (sector addr len : Nat) (m : Attempt Fault (Host M) RequestStatus) :
    Attempt Fault (Host M) RequestStatus := fun h =>
  let (status, h') := m h
  let seen : Delivery M := ⟨h.device.backing.file, sector, addr, len, h.memory, h'.memory⟩
  (status, { h' with trace := { h'.trace with delivered := seen :: h'.trace.delivered } })

/-- `write_at` of the backing store, whose only sum is checked by the source. -/
def writeAt (offset len : Nat) (buf : ByteMap) : Attempt Fault (Host M) Unit :=
  .onPart (·.device.backing) (fun b h => { h with device := { h.device with backing := b } })
    (BackingStore.writeAt offset len buf)

/-- `do_write`. -/
def doWrite (sector addr len : Nat) : Attempt Fault (Host M) RequestStatus := do
  let h ← Attempt.get
  match h.device.validateIoRequest sector len with
  | none => pure .ioerr
  | some offset => do
      allocate len
      let buf ← load g addr len
      writeAt offset len buf
      pure .ok

/-- The statistics of a request, given its bytes and sectors (`div_ceil`) if it succeeded. -/
def tally (len : Nat) (stats : Nat → Nat → IoStats) (status : RequestStatus) :
    Attempt Fault (Host M) (RequestStatus × IoStats) := do
  let h ← Attempt.get
  if status = .ok then do
    check (h.device.sectorSize ≠ 0)
    pure (status, stats len ((len + h.device.sectorSize - 1) / h.device.sectorSize))
  else pure (status, {})

/-- The part of a request that depends on its type: IN, OUT, FLUSH or another.  A flush changes no
byte. -/
def dispatch (type sector : Nat) (data : VirtqDesc) :
    Attempt Fault (Host M) (RequestStatus × IoStats) := do
  let h ← Attempt.get
  match type with
  | 0 =>
    if data.deviceWrites then do
      let status ← watched sector data.addr data.len (doRead g sector data.addr data.len)
      tally data.len (fun bytes sectors => { bytesRead := bytes, sectorsRead := sectors }) status
    else pure (.ioerr, {})
  | 1 =>
    if h.device.readOnly || data.deviceWrites then pure (.ioerr, {})
    else do
      let status ← doWrite g sector data.addr data.len
      tally data.len (fun bytes sectors => { bytesWritten := bytes, sectorsWritten := sectors })
        status
  | 4 => pure (.ok, {})
  | _ => pure (.unsupp, {})

/-- The end of a request: its status byte, and the length for the used ring, `total_written`. -/
def putStatus (table queueSize : Nat) (dataDesc : VirtqDesc) (status : RequestStatus) :
    Attempt Fault (Host M) Nat := do
  check (0 + dataDesc.len < 2 ^ 32)
  Attempt.require (dataDesc.hasNext = true) .missingStatusDescriptor
  let statusDesc ← readDescriptor g table dataDesc.next queueSize
  store g statusDesc.addr 1 (ByteMap.ofLe status.code)
  note fun t => { t with answered := dataDesc.len :: t.answered }
  check (dataDesc.len + 1 < 2 ^ 32)
  pure ((dataDesc.len + 1) % 2 ^ 32)

/-- `process_request`. -/
def processRequest (table index queueSize : Nat) : Attempt Fault (Host M) (Nat × IoStats) := do
  let headerDesc ← readDescriptor g table index queueSize
  let header ← load g headerDesc.addr 16
  Attempt.require (headerDesc.hasNext = true) .missingDataDescriptor
  let dataDesc ← readDescriptor g table headerDesc.next queueSize
  let done ← dispatch g (header.le 0 4) (header.le 8 8) dataDesc
  let written ← putStatus g table queueSize dataDesc done.1
  pure (written, done.2)

/-- The place of a request in the used ring. -/
def putUsed (q : VirtqueueState) (index written : Nat) : Attempt Fault (Host M) Unit := do
  let used ← load g q.deviceAddr 4
  let usedIdx := used.le 2 2
  check (q.num ≠ 0 ∧ q.deviceAddr + 4 + usedIdx % q.num * 8 < 2 ^ 64)
  store g (q.deviceAddr + 4 + usedIdx % q.num * 8) 8
    ((ByteMap.ofLe index).append 4 (ByteMap.ofLe written))
  check (q.deviceAddr + 2 < 2 ^ 64)
  store g (q.deviceAddr + 2) 2 (ByteMap.ofLe (usedIdx + 1))

/-- One round of the queue loop: the request of the next ring entry. -/
def round (q : VirtqueueState) (last : UInt16) (stats : IoStats) :
    Attempt Fault (Host M) IoStats := do
  note fun t => { t with allocated := 0 :: t.allocated }
  check (q.num ≠ 0 ∧ q.driverAddr + 4 + last.toNat % q.num * 2 < 2 ^ 64)
  let entry ← load g (q.driverAddr + 4 + last.toNat % q.num * 2) 2
  let done ← processRequest g q.descAddr (entry.le 0 2) q.num
  check ((stats.add done.2).AtMost (2 ^ 64 - 1))
  putUsed g q (entry.le 0 2) done.1
  pure (stats.add done.2)

/-- One round brings the 16-bit index one step closer. -/
theorem distance_succ {idx last : UInt16} (h : ¬ last = idx) :
    (idx - last).toNat = (idx - (last + 1)).toNat + 1 := by
  have hne : last.toNat ≠ idx.toNat := fun heq => h (UInt16.toNat_inj.mp heq)
  have hlast : last.toNat < 2 ^ 16 := last.toNat_lt
  have hidx : idx.toNat < 2 ^ 16 := idx.toNat_lt
  simp only [UInt16.toNat_sub, UInt16.toNat_add, UInt16.toNat_one]
  omega

/-- `while last_avail_idx != avail.idx`; the index is 16 bits wide and wraps. -/
def serve (q : VirtqueueState) (idx last : UInt16) (stats : IoStats) :
    Attempt Fault (Host M) (UInt16 × IoStats) :=
  if last = idx then pure (last, stats)
  else do
    let stats ← round g q last stats
    serve q idx (last + 1) stats
termination_by (idx - last).toNat
decreasing_by
  rename_i h
  rw [distance_succ h]
  exact Nat.lt_succ_self _

/-- The notification is taken. -/
def taken (h : Host M) : Host M :=
  { h with device := { h.device with state :=
    { h.device.state with queueNotifyPending := false } } }

/-- The index the queue loop has come to is kept, and an interrupt raised. -/
def finished (last : UInt16) (h : Host M) : Host M :=
  let s := h.device.state
  { h with device := { h.device with state :=
    { s with
      queue := { s.queue with lastAvailIdx := last }
      interruptStatus := s.interruptStatus ||| 1 } } }

/-- `process_queue`; a fault leaves `last_avail_idx` where it was. -/
def processQueue : Attempt Fault (Host M) IoStats := do
  Attempt.modify taken
  let h ← Attempt.get
  let q := h.device.state.queue
  if q.ready = false ∨ q.num = 0 then pure {}
  else do
    let avail ← load g q.driverAddr 4
    let done ← serve g q (UInt16.ofNat (avail.le 2 2)) q.lastAvailIdx {}
    Attempt.modify (finished done.1)
    pure done.2

/-- `mmio_write` of the device. -/
def mmioWrite (offset value : Nat) : Attempt Fault (Host M) Unit := do
  Attempt.modify fun h => { h with device := h.device.mmioWrite offset value }
  let h ← Attempt.get
  check h.device.state.Fits

end Host

/-- What a guest can do to the host. -/
inductive GuestEvent (M : Type) where
  | registerWrite (offset value : UInt32)
  | memory (content : M)
  | notify

/-- The io thread goes on after a fault. -/
def Host.step (h : Host M) : GuestEvent M → Host M
  | .registerWrite offset value => (mmioWrite offset.toNat value.toNat h).2
  | .memory content => { h with memory := content }
  | .notify => (processQueue g h).2

end

end Instar.Virtio
