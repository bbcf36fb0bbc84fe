import Instar.Lib.SectorDevice
import Instar.Write.Plan

/-!
# The step executor

`crates/qcow2-write-exec`: the mapping from region names to buffers, the byte-range layer over the
sector devices, and `execute`, which runs a window of steps and stops at the first failure.  The
lemmas at the end say what each device operation has done when it reports success; the bounce and
fill sectors are dead between calls, so only their lengths are kept.
-/

namespace Instar.Write

open Instar.Qcow2 ByteMap

/-- Why a step fails. -/
inductive ExecCause where
  | readFailed
  | writeFailed
  | fsyncFailed
  | regionBounds
  | unknownSlot
  | geometry
  | overflow
  | stepContract
  deriving DecidableEq, Repr

/-- Which step of a window failed, and why. -/
structure ExecError where
  stepIndex : Nat
  cause : ExecCause
  deriving DecidableEq, Repr

/-! ## Devices -/

/-- The devices of a program. -/
structure Devices where
  input0 : Device
  output : Device

def Devices.get (devs : Devices) : TargetDevice → Device
  | .input0 => devs.input0
  | .output => devs.output

def Devices.set (devs : Devices) (dev : TargetDevice) (d : Device) : Devices :=
  match dev with
  | .input0 => { devs with input0 := d }
  | .output => { devs with output := d }

@[simp] theorem Devices.get_set (devs : Devices) (dev : TargetDevice) (d : Device) :
    (devs.set dev d).get dev = d := by
  cases dev <;> rfl

/-- The executor's reading of a fault of the sector walk. -/
def causeOf : RangeFault → ExecCause
  | .readFailed => .readFailed
  | .writeFailed => .writeFailed
  | .overflow => .overflow

/-- Read `len` bytes at `diskOffset` over the front of `dst`. -/
def readBytes (d : Device) (diskOffset len rmwLen : Nat) (dst : ByteMap) :
    Except ExecCause ByteMap :=
  if len = 0 then .ok dst
  else if d.sectorSize = 0 ∨ rmwLen < d.sectorSize then .error .geometry
  else
    match d.readRange diskOffset len dst with
    | .error fault => .error (causeOf fault)
    | .ok bytes => .ok bytes

/-- Write the first `len` bytes of `src` at `diskOffset`. -/
def writeBytes (d : Device) (diskOffset len rmwLen : Nat) (src : ByteMap) :
    Except ExecCause Unit × Device :=
  if len = 0 then (.ok (), d)
  else if d.sectorSize = 0 ∨ rmwLen < d.sectorSize then (.error .geometry, d)
  else
    match d.writeRange diskOffset len src with
    | (.error fault, d) => (.error (causeOf fault), d)
    | (.ok (), d) => (.ok (), d)

/-- The chunk loop of `fillBytes`: `done` bytes are written. -/
def fillGo (diskOffset len rmwLen : Nat) (byte : UInt8) :
    Nat → Nat → Device → Except ExecCause Unit × Device
  | 0, _, d => (.ok (), d)
  | fuel + 1, done, d =>
    if done < len then
      let chunk := min (len - done) d.sectorSize
      if ¬ diskOffset + done < 2 ^ 64 then (.error .overflow, d)
      else
        match writeBytes d (diskOffset + done) chunk rmwLen fun _ => byte with
        | (.error e, d) => (.error e, d)
        | (.ok (), d) => fillGo diskOffset len rmwLen byte fuel (done + chunk) d
    else (.ok (), d)

/-- Write `len` copies of `byte` at `diskOffset`, a sector's worth at a time. -/
def fillBytes (d : Device) (diskOffset len : Nat) (byte : UInt8) (fillLen rmwLen : Nat) :
    Except ExecCause Unit × Device :=
  if len = 0 then (.ok (), d)
  else if d.sectorSize = 0 ∨ fillLen < d.sectorSize ∨ rmwLen < d.sectorSize then
    (.error .geometry, d)
  else fillGo diskOffset len rmwLen byte len 0 d

/-! ## Regions -/

/-- The buffers behind the region names, the lengths of the two service sectors, and the cluster
size of the slot geometry. -/
structure Regions where
  staged : StagedRegions
  bounce : Buffer
  callerData : Buffer
  rmwLen : Nat
  fillLen : Nat
  clusterSize : Nat

namespace Regions

/-- The buffer a region name lives in. -/
def buffer (r : Regions) : RegionId → Buffer
  | .l1 => r.staged.l1
  | .l2Slot _ => r.staged.l2Window
  | .refcountTable => r.staged.refcountTable
  | .refblocks => r.staged.refblocks
  | .bounce => r.bounce
  | .callerData => r.callerData

/-- Replace the bytes of the buffer a region name lives in. -/
def setBytes (r : Regions) (region : RegionId) (bytes : ByteMap) : Regions :=
  match region with
  | .l1 => { r with staged := { r.staged with l1 := { r.staged.l1 with bytes } } }
  | .l2Slot _ => { r with staged := { r.staged with l2Window := { r.staged.l2Window with bytes } } }
  | .refcountTable =>
    { r with staged := { r.staged with refcountTable := { r.staged.refcountTable with bytes } } }
  | .refblocks => { r with staged :=
    { r.staged with refblocks := { r.staged.refblocks with bytes } } }
  | .bounce => { r with bounce := { r.bounce with bytes } }
  | .callerData => { r with callerData := { r.callerData with bytes } }

/-- Where in its buffer the window `[regionOffset, regionOffset + len)` of a region starts; a slot
is resolved against its own cluster. -/
def resolve (r : Regions) (region : RegionId) (regionOffset len : Nat) : Except ExecCause Nat :=
  let place : Except ExecCause (Nat × Nat) := match region with
    | .l2Slot slot =>
      if r.clusterSize = 0 ∨ r.staged.l2Window.len % r.clusterSize ≠ 0 then .error .geometry
      else if r.staged.l2Window.len / r.clusterSize ≤ slot then .error .unknownSlot
      else .ok (slot * r.clusterSize, r.clusterSize)
    | region => .ok (0, (r.buffer region).len)
  match place with
  | .error e => .error e
  | .ok (base, window) =>
    if ¬ regionOffset + len < 2 ^ 64 then .error .overflow
    else if window < regionOffset + len then .error .regionBounds
    else .ok (base + regionOffset)

end Regions

/-! ## Execution -/

section

variable (r : Regions) (devs : Devices) (step : Step)

/-- Move a device range into a region. -/
def execRead :
    Except ExecCause Unit × Regions × Devices :=
  match r.resolve step.region step.regionOffset step.len with
  | .error e => (.error e, r, devs)
  | .ok base =>
    let buf := (r.buffer step.region).bytes
    match readBytes (devs.get step.device) step.diskOffset step.len r.rmwLen (buf.drop base) with
    | .error e => (.error e, r, devs)
    | .ok bytes => (.ok (), r.setBytes step.region (buf.splice base step.len bytes), devs)

/-- Move a region range onto a device. -/
def execWrite :
    Except ExecCause Unit × Regions × Devices :=
  match r.resolve step.region step.regionOffset step.len with
  | .error e => (.error e, r, devs)
  | .ok base =>
    match writeBytes (devs.get step.device) step.diskOffset step.len r.rmwLen
      ((r.buffer step.region).bytes.drop base) with
    | (res, d) => (res, r, devs.set step.device d)

/-- Fill a device range with one byte. -/
def execFill (byte : UInt8) :
    Except ExecCause Unit × Regions × Devices :=
  match fillBytes (devs.get step.device) step.diskOffset step.len byte r.fillLen r.rmwLen with
  | (res, d) => (res, r, devs.set step.device d)

/-- Run a step that must cover one whole cluster. -/
def wholeCluster (k : Except ExecCause Unit × Regions × Devices) :
    Except ExecCause Unit × Regions × Devices :=
  if r.clusterSize = 0 then (.error .geometry, r, devs)
  else if step.len ≠ r.clusterSize then (.error .stepContract, r, devs)
  else k

/-- Overwrite `len` bytes of a region. -/
def execStore (len : Nat) (bytes : ByteMap) :
    Except ExecCause Unit × Regions × Devices :=
  match r.resolve step.region step.regionOffset len with
  | .error e => (.error e, r, devs)
  | .ok base =>
    (.ok (), r.setBytes step.region ((r.buffer step.region).bytes.splice base len bytes), devs)

/-- A durability barrier is an fsync where the device has one; an ordering barrier is a no-op,
since all device access is synchronous. -/
def execBarrier (cls : BarrierClass) :
    Except ExecCause Unit × Regions × Devices :=
  match cls with
  | .ordering => (.ok (), r, devs)
  | .durability =>
    match (devs.get step.device).fsync with
    | (none, d) => (.ok (), r, devs.set step.device d)
    | (some true, d) => (.ok (), r, devs.set step.device d)
    | (some false, d) => (.error .fsyncFailed, r, devs.set step.device d)

/-- Execute one step. -/
def execStep :
    Except ExecCause Unit × Regions × Devices :=
  match step.kind with
  | .readCluster => execRead r devs step
  | .writeRange => execWrite r devs step
  | .zeroRange => execFill r devs step 0
  | .fillRange => execFill r devs step (UInt8.ofNat step.value)
  | .patchEntryU64 => execStore r devs step 8 (ofBe step.value 8)
  | .loadCluster => wholeCluster r devs step (execRead r devs step)
  | .writebackCluster => wholeCluster r devs step (execWrite r devs step)
  | .zeroRegion => execStore r devs step step.len fun _ => 0
  | .barrier cls => execBarrier r devs step cls

end

/-- The loop of `execute`, with the index of the next step. -/
def executeFrom (index : Nat) :
    List Step → Regions → Devices → Except ExecError Unit × Regions × Devices
  | [], r, devs => (.ok (), r, devs)
  | step :: steps, r, devs =>
    match execStep r devs step with
    | (.error cause, r, devs) => (.error ⟨index, cause⟩, r, devs)
    | (.ok (), r, devs) => executeFrom (index + 1) steps r devs

/-- Execute a window, stopping at the first step that fails. -/
def execute (steps : List Step) (r : Regions) (devs : Devices) :
    Except ExecError Unit × Regions × Devices :=
  executeFrom 0 steps r devs

/-! ## What a successful operation has done -/

variable {d d' : Device} {off len rmwLen fillLen : Nat} {src dst bytes : ByteMap} {byte : UInt8}

theorem readBytes_ok (h : readBytes d off len rmwLen dst = .ok bytes) :
    bytes = dst.splice 0 len (d.bytes.drop off) := by
  unfold readBytes at h
  split at h
  case isTrue hlen =>
    cases h
    rw [hlen, splice_zero]
  case isFalse =>
    split at h
    · cases h
    case isFalse hgeo =>
      cases hread : d.readRange off len dst with
      | error fault => simp [hread] at h
      | ok r =>
        simp only [hread, Except.ok.injEq] at h
        rw [← h]
        exact Device.readRange_ok (by omega) hread

/-- What a byte-range write did, however it ended. -/
theorem writeBytes_spec {r : Except ExecCause Unit}
    (h : writeBytes d off len rmwLen src = (r, d')) : ∃ es, d' = d.after es ∧
      (∀ k, CutOf d.sectorSize off len src d.bytes (replay d.sectorSize (es.take k) d.bytes)) ∧
      (r = .ok () → d'.bytes = d.bytes.splice off len src) := by
  have hnone : ∀ k, CutOf d.sectorSize off len src d.bytes
      (replay d.sectorSize (([] : List DeviceEvent).take k) d.bytes) := by
    intro k
    rw [List.take_nil]
    exact CutOf.nothing ..
  unfold writeBytes at h
  split at h
  case isTrue hlen =>
    cases h
    refine ⟨[], by simp, hnone, fun _ => ?_⟩
    rw [hlen, splice_zero]
  case isFalse =>
    split at h
    · cases h
      exact ⟨[], by simp, hnone, fun hr => by cases hr⟩
    case isFalse hgeo =>
      rcases hwrite : d.writeRange off len src with ⟨res, d1⟩
      obtain ⟨es, hd, hcut, hok⟩ := Device.writeRange_spec (by omega) hwrite
      cases res with
      | error fault =>
        simp only [hwrite, Prod.mk.injEq] at h
        refine ⟨es, h.2 ▸ hd, hcut, fun hr => ?_⟩
        rw [← h.1] at hr
        cases hr
      | ok u =>
        simp only [hwrite, Prod.mk.injEq] at h
        exact ⟨es, h.2 ▸ hd, hcut, fun _ => h.2 ▸ hok rfl⟩

/-- A write that succeeds has copied the range. -/
theorem writeBytes_ok (h : writeBytes d off len rmwLen src = (.ok (), d')) :
    d'.bytes = d.bytes.splice off len src := by
  obtain ⟨es, -, -, hok⟩ := writeBytes_spec h
  exact hok rfl

theorem fillGo_ok {fuel done : Nat} (hs : 0 < d.sectorSize) (hdone : done ≤ len)
    (hfuel : len - done ≤ fuel) (h : fillGo off len rmwLen byte fuel done d = (.ok (), d')) :
    d'.bytes = d.bytes.splice (off + done) (len - done) fun _ => byte := by
  induction fuel generalizing done d with
  | zero =>
    have hlen : len - done = 0 := by omega
    simp only [fillGo, Prod.mk.injEq] at h
    rw [hlen, splice_zero, h.2]
  | succ fuel ih =>
    by_cases hlt : done < len
    · simp only [fillGo, hlt, if_true] at h
      generalize hchunk : min (len - done) d.sectorSize = chunk at h
      split at h
      · cases h
      rcases hwrite : writeBytes d (off + done) chunk rmwLen (fun _ => byte) with ⟨res, d1⟩
      cases res with
      | error e =>
        simp only [hwrite] at h
        cases h
      | ok u =>
        simp only [hwrite] at h
        have hs1 : 0 < d1.sectorSize := by
          obtain ⟨es, rfl, -, -⟩ := writeBytes_spec hwrite
          exact hs
        have hsplit : len - done = chunk + (len - (done + chunk)) := by omega
        rw [ih hs1 (by omega) (by omega) h, writeBytes_ok hwrite, hsplit, ← add_assoc]
        exact splice_splice d.bytes (off + done) chunk _ fun _ => byte
    · have hlen : len - done = 0 := by omega
      simp only [fillGo, hlt, if_false, Prod.mk.injEq] at h
      rw [hlen, splice_zero, h.2]

/-- A fill that succeeds has filled the range. -/
theorem fillBytes_ok (h : fillBytes d off len byte fillLen rmwLen = (.ok (), d')) :
    d'.bytes = d.bytes.splice off len fun _ => byte := by
  unfold fillBytes at h
  split at h
  case isTrue hlen =>
    cases h
    rw [hlen, splice_zero]
  case isFalse =>
    split at h
    · cases h
    · simpa using fillGo_ok (by omega) (by omega) (by omega) h

end Instar.Write
