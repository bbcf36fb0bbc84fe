import Instar.Virtio.Driver

/-!
# The device is an array of sectors, where the backing store covers what it advertises

The capacity advertised to the guest is `size_bytes` rounded up to whole sectors; writes are held to
the byte capacity of the backing store, which the call sites set apart from it.
-/

namespace Instar.Virtio

open ByteMap Attempt Host

/-- Where the VMM builds a device, with the arguments passed there. -/
inductive Site where
  /-- An image opened for reading, or the stub of a missing input. -/
  | input
  /-- An image changed in place (amend, bitmap, check, commit, rebase, resize, snapshot). -/
  | existing (hint : Option Nat)
  /-- The output of copy, create and a structured convert. -/
  | output (capacity : Nat) (sparse : Bool)
  /-- The output of a raw convert. -/
  | rawOutput (size : Nat) (sparse : Bool)
  /-- The output of `convert -n`. -/
  | noCreate (size : Nat)

namespace Site

/-- How the file of a site is opened. -/
def opening (sectorSize : Nat) : Site → Opening
  | input => .plain true none false
  | existing hint => .rwExisting hint
  | output capacity sparse => .plain false (some capacity) sparse
  | rawOutput size sparse =>
    .plain false (some ((size + sectorSize - 1) / sectorSize * sectorSize)) sparse
  | noCreate _ => .plain false none false

def sizeBytes (found : File) : Site → Nat
  | input => found.len
  | existing hint => max (hint.getD found.len) found.len
  | output capacity _ => capacity
  | rawOutput size _ => size
  | noCreate size => size

def readOnly : Site → Bool
  | input => true
  | _ => false

/-- The device of a site. -/
def device (site : Site) (found : File) (sectorSize : Nat) : VirtioBlockDevice :=
  .new ((site.opening sectorSize).store found) (site.sizeBytes found) sectorSize site.readOnly

end Site

/-! ## The array of sectors -/

namespace Call

/-- The call is on a sector the device has. -/
def Below (capacity : Nat) : Call → Prop
  | read sector => sector < capacity
  | write sector _ => sector < capacity
  | flush => True

def isWrite : Call → Bool
  | write _ _ => true
  | _ => false

/-- What the sectors hold after the call. -/
def effect (d : VirtioBlockDevice) (content : ByteMap) : Call → ByteMap
  | write sector data =>
    if d.readOnly then content else content.splice (sector * d.sectorSize) d.sectorSize data
  | _ => content

end Call

/-- After any calls on its sectors the device answers the next one, a write only where it is
writable, and what a read gives is the array of sectors: the last write of the sector, or the file
as it was opened. -/
def SectorArray (extra : Nat) (d : VirtioBlockDevice) (v : VirtioBlock) : Prop :=
  ∀ (calls : List Call) (c : Call), (∀ x ∈ c :: calls, x.Below d.capacity) →
    let s := calls.foldl (fun s c => (s.call extra c).2) (System.start d v)
    ((c.isWrite = true → d.readOnly = false) → (s.call extra c).1.1 = true) ∧
    ∀ sector, c = .read sector → ∀ j < d.sectorSize,
      (s.call extra c).1.2 j = calls.foldl (Call.effect d) d.backing.file.at
      (sector * d.sectorSize + j)

/-- The sectors advertised end below 2^64 and, on a writable device, inside the backing store. -/
def Covered (d : VirtioBlockDevice) : Prop :=
  d.capacity * d.sectorSize < 2 ^ 64 ∧
    (d.readOnly = true ∨ d.capacity * d.sectorSize ≤ d.backing.capacity)

/-! ## The backing store under a request -/

variable {b : BackingStore} {offset len extra sector : Nat} {buf : ByteMap} {v : VirtioBlock}
  {h : Host ByteMap} {d : VirtioBlockDevice} {s : System} {content : ByteMap}

/-- A store whose file is as long as it believes, and has no room to grow untracked. -/
structure BackingStore.Whole (b : BackingStore) : Prop where
  length : b.file.len = b.currentSize
  full : b.sparse = true ∨ b.writable = false ∨ b.capacity ≤ b.currentSize

theorem readAt_whole (hb : b.Whole) (h64 : offset + len < 2 ^ 64) :
    ∃ buf, b.readAt offset len = .ok buf ∧ ∀ i < len, buf i = b.file.at (offset + i) := by
  have hlength := hb.length
  have hok : ∃ buf, b.readAt offset len = .ok buf := by
    unfold BackingStore.readAt File.readExact
    rw [if_neg (by omega)]
    split
    · split
      · exact ⟨_, rfl⟩
      · simp only
        rw [if_pos (.inr (by omega))]
        exact ⟨_, rfl⟩
    · rw [if_pos (.inr (by omega))]
      exact ⟨_, rfl⟩
  obtain ⟨buf, hrun⟩ := hok
  exact ⟨buf, hrun, BackingStore.readAt_bytes hlength.le hrun⟩

theorem writeAt_whole (hb : b.Whole) (hw : b.writable = true) (h64 : offset + len < 2 ^ 64)
    (hfit : offset + len ≤ b.capacity) (hlen : len ≠ 0) :
    ∃ b', BackingStore.writeAt offset len buf b = (.ok (), b') ∧ b'.Whole ∧
    b'.capacity = b.capacity ∧
      b'.writable = true ∧ ∀ i, b'.file.at i = splice b.file.at offset len buf i := by
  refine ⟨{ b.grown (offset + len) with file := b.file.writeAll offset len buf }, ?_,
    ⟨?_, ?_⟩, rfl, hw, b.file.at_writeAll offset len buf⟩
  · unfold BackingStore.writeAt
    rw [if_neg (by omega), if_neg (by omega), if_pos (by simp [hw])]
  · obtain ⟨hlength, hfull⟩ := hb
    show (b.file.writeAll offset len buf).len = (b.grown (offset + len)).currentSize
    rw [File.len_writeAll, if_neg hlen]
    have hroom : b.sparse = true ∨ b.capacity ≤ b.currentSize := by simpa [hw] using hfull
    rcases hroom with hs | hroom
    · rw [BackingStore.grown_sparse hs, hlength]
    · show max _ _ = if b.sparse && decide (b.currentSize < offset + len) then _ else _
      rw [if_neg (by simp; omega)]
      omega
  · exact hb.full.imp_right fun h => h.imp_right fun h => h.trans (b.le_grown _)

/-! ## What a request comes to -/

theorem Quiet.refl (v : VirtioBlock) (h : Host ByteMap) : Quiet v h h := ⟨rfl, fun _ _ => rfl⟩

/-- The statistics leave the status and the host alone. -/
theorem tally_gives (st : RequestStatus) (len : Nat) (stats : Nat → Nat → IoStats) :
    ∃ counted, Gives (tally len stats st) h (.ok (st, counted)) h := by
  by_cases hst : st = .ok
  · refine ⟨stats len ((len + h.device.sectorSize - 1) / h.device.sectorSize),
      .get_bind fun _ => ?_⟩
    rw [if_pos hst]
    exact .bind .check .pure
  · refine ⟨{}, .get_bind fun _ => ?_⟩
    rw [if_neg hst]
    exact .pure

/-- An IN request comes down to `do_read`. -/
theorem dispatch_in {st : RequestStatus} {h1 : Host ByteMap}
    (hread : Gives (doRead (ram extra) sector 0x200010 v.sectorSize) h (.ok st) h1) :
    ∃ stats, Gives (dispatch (ram extra) 0 sector (v.dataDesc 0)) h (.ok (st, stats)) h1 := by
  obtain ⟨stats, htally⟩ := tally_gives (h := h1) st v.sectorSize fun bytes sectors =>
    { bytesRead := bytes, sectorsRead := sectors }
  refine ⟨stats, .get_bind fun _ => ?_⟩
  show Gives (if (v.dataDesc 0).deviceWrites = true then _ else _) _ _ _
  rw [if_pos (by simp [VirtioBlock.dataDesc, VirtqDesc.deviceWrites])]
  refine .bind (fun t => ?_) htally
  obtain ⟨t', hrun⟩ := hread t
  show ∃ t', watched _ _ _ (doRead (ram extra) sector 0x200010 v.sectorSize) _ = _
  unfold watched
  rw [hrun]
  exact ⟨_, rfl⟩

theorem dispatch_read (extra : Nat)
    (hvalid : h.device.validateIoRequest sector v.sectorSize = some offset)
    (hread : h.device.backing.readAt offset v.sectorSize = .ok buf) :
    ∃ h1 stats, Gives (dispatch (ram extra) 0 sector (v.dataDesc 0)) h (.ok (.ok, stats)) h1 ∧
      Quiet v h h1 ∧ h1.device = h.device ∧
      ∀ j < v.sectorSize, h1.memory (0x200010 + j) = buf j := by
  have hss := v.fits
  have hgives : Gives (doRead (ram extra) sector 0x200010 v.sectorSize) h (.ok .ok)
      { h with memory := h.memory.splice 0x200010 v.sectorSize buf } := by
    refine .get_bind fun _ => ?_
    simp only [hvalid, hread]
    exact .bind .note (.bind .check (.bind .pure (.bind (store_ram (by omega)) .pure)))
  obtain ⟨stats, hd⟩ := dispatch_in hgives
  exact ⟨_, stats, hd, ⟨rfl, fun a ha => splice_outside ha⟩, rfl, fun j hj => splice_inside hj⟩

/-- An OUT request on a writable device comes down to `write_at`, a fault of which ends it. -/
theorem dispatch_write (extra : Nat) (hro : h.device.readOnly = false)
    (hvalid : h.device.validateIoRequest sector v.sectorSize = some offset) {r : Except Fault Unit}
    (hwrite : BackingStore.writeAt offset v.sectorSize (h.memory.drop 0x200010) h.device.backing
      = (r, b)) :
    ∃ h1 stats, Gives (dispatch (ram extra) 1 sector (v.dataDesc 1)) h
      (r.map fun _ => (.ok, stats)) h1 ∧ Quiet v h h1 ∧ h1.device.backing = b := by
  have hss := v.fits
  let h1 : Host ByteMap := { h with device := { h.device with backing := b } }
  obtain ⟨stats, htally⟩ := tally_gives (h := h1) .ok v.sectorSize fun bytes sectors =>
    { bytesWritten := bytes, sectorsWritten := sectors }
  have hstore : Gives (writeAt offset v.sectorSize (h.memory.drop 0x200010)) h r h1 :=
    fun t => ⟨t, by simp only [writeAt, Attempt.onPart, hwrite]; rfl⟩
  refine ⟨h1, stats, .get_bind fun t => ?_, ⟨rfl, fun a _ => rfl⟩, rfl⟩
  show Gives (if (h.device.readOnly || (v.dataDesc 1).deviceWrites) = true then _ else _) h _ h1
  rw [if_neg (by simp [hro, VirtioBlock.dataDesc, VirtqDesc.deviceWrites])]
  -- the request as far as the store, whatever it answers
  have hbegin : ∀ {r' : Except Fault RequestStatus}, Gives (do
      writeAt offset v.sectorSize (h.memory.drop 0x200010)
      pure .ok) h r' h1 → Gives (doWrite (ram extra) sector 0x200010 v.sectorSize) h r' h1 := by
    intro r' hrest
    refine .get_bind fun _ => ?_
    simp only [hvalid]
    exact .bind .note (.bind (load_ram (by omega)) hrest)
  cases r with
  | error e => exact .bind_error (hbegin (.bind_error hstore))
  | ok _ => exact .bind (hbegin (.bind hstore .pure)) htally

/-! ## Calls -/

/-- A system between two calls whose sectors hold `content`. -/
structure Holds (d : VirtioBlockDevice) (content : ByteMap) (s : System) :
    Prop extends Ready d s where
  whole : s.host.device.backing.Whole
  room : d.readOnly = false → s.host.device.backing.writable = true ∧
    d.capacity * d.sectorSize ≤ s.host.device.backing.capacity
  bytes : ∀ i, s.host.device.backing.file.at i = content i

theorem Holds.of_backing {s' : System} (hh : Holds d content s) (hr : Ready d s')
    (hback : s'.host.device.backing = s.host.device.backing) : Holds d content s' :=
  ⟨hr, hback ▸ hh.whole, hback ▸ hh.room, hback ▸ hh.bytes⟩

theorem queue_mmioWrite (s : MmioState) (offset value : Nat) : (s.mmioWrite offset value).queue =
      if offset = 0x070 ∧ value % 256 = 0 then {} else s.queue.mmioWrite offset value := by
  unfold MmioState.mmioWrite
  split
  case h_7 => by_cases h : value % 256 = 0 <;> simp [h, VirtqueueState.mmioWrite]
  case h_8 h => rw [if_neg fun hs => h hs.1]
  all_goals rfl

theorem init_queue (vq : Nat) (s : MmioState) :
    ((initWrites vq).foldl (fun s w => s.mmioWrite w.1 w.2) s).queue =
      ⟨256, true, vq, vq + 4096, vq + 4614, 0⟩ := by
  have hreg : ∀ a, setHigh (setLow 0 (a % 4294967296)) (a / 4294967296) = a := by
    intro a
    unfold setHigh setLow
    omega
  simp [initWrites, queue_mmioWrite, VirtqueueState.mmioWrite, hreg]

theorem start_ready (hsize : v.sectorSize = d.sectorSize) : Ready d (System.start d v) :=
  ⟨hsize, ⟨rfl, rfl, rfl⟩, init_queue _ _, le_zeros fun _ _ => rfl⟩

section

variable (hr : Ready d s) (hlow : sector < 2 ^ 64)

include hr

/-- A sector below the capacity lies inside it, and its requests go on. -/
theorem validate_some (h64 : d.capacity * d.sectorSize < 2 ^ 64) (hlt : sector < d.capacity) :
    sector * s.driver.sectorSize + s.driver.sectorSize ≤ d.capacity * d.sectorSize ∧
    sector < 2 ^ 64 ∧
      s.host.device.validateIoRequest sector s.driver.sectorSize =
      some (sector * s.driver.sectorSize) := by
  obtain ⟨hcap, hsize, -⟩ := hr.fixed
  have hpos := s.driver.pos
  have hss := s.driver.fits
  rw [← hr.sectorSize] at h64 hsize ⊢
  have hend : (sector + 1) * s.driver.sectorSize ≤ d.capacity * s.driver.sectorSize :=
    Nat.mul_le_mul_right _ hlt
  have hle : sector ≤ sector * s.driver.sectorSize := Nat.le_mul_of_pos_right _ hpos
  rw [Nat.succ_mul] at hend
  refine ⟨hend, by omega, ?_⟩
  unfold VirtioBlockDevice.validateIoRequest
  rw [hcap, hsize, if_neg (by omega)]

include hlow

/-- A sector that ends past 2^64 cannot be read. -/
theorem read_refused (hend : 2 ^ 64 ≤ sector * d.sectorSize + d.sectorSize) :
    (s.call extra (.read sector)).1.1 = false := by
  have hvalid : (s.reached 0 sector fun _ =>
      0).device.validateIoRequest sector s.driver.sectorSize = none := by
    show s.host.device.validateIoRequest _ _ = _
    unfold VirtioBlockDevice.validateIoRequest
    rw [hr.sectorSize, hr.fixed.2.1, if_pos (by omega)]
  have hread : Gives (doRead (ram extra) sector 0x200010 s.driver.sectorSize)
      (s.reached 0 sector fun _ => 0) (.ok .ioerr) (s.reached 0 sector fun _ => 0) := by
    refine .get_bind fun _ => ?_
    simp only [hvalid]
    exact .pure
  obtain ⟨stats, hd⟩ := dispatch_in hread
  exact (doRequest_done hr (by decide) hlow (Quiet.refl _ _) hd).1

/-- A sector that ends past the capacity of the backing store cannot be written. -/
theorem write_refused {data : ByteMap} (hro : d.readOnly = false) (hlt : sector < d.capacity)
    (h64 : d.capacity * d.sectorSize < 2 ^ 64)
    (hend : s.host.device.backing.capacity < sector * d.sectorSize + d.sectorSize) :
    (s.call extra (.write sector data)).1.1 = false := by
  obtain ⟨hin, -, hvalid⟩ := validate_some hr h64 hlt
  rw [← hr.sectorSize] at hend
  have hwrite : BackingStore.writeAt (sector * s.driver.sectorSize) s.driver.sectorSize
      ((s.reached 1 sector data).memory.drop 0x200010) s.host.device.backing =
      (.error (.exceedsCapacity (sector * s.driver.sectorSize) s.driver.sectorSize
        s.host.device.backing.capacity), s.host.device.backing) := by
    unfold BackingStore.writeAt
    rw [if_neg (by omega), if_pos hend]
  obtain ⟨h1, stats, hd, hq, -⟩ := dispatch_write extra (h := s.reached 1 sector data)
    (hr.fixed.2.2.trans hro) hvalid hwrite
  exact doRequest_fault hr (by decide) hlow hq hd

end

/-- One call of the driver acts on the array. -/
theorem call_holds (extra : Nat) (hh : Holds d content s) (h64 : d.capacity * d.sectorSize < 2 ^ 64)
    (c : Call) (hc : c.Below d.capacity) :
    ((c.isWrite = true → d.readOnly = false) → (s.call extra c).1.1 = true) ∧
    (∀ sector, c = .read sector → ∀ j < d.sectorSize,
      (s.call extra c).1.2 j = content (sector * d.sectorSize + j)) ∧
    Holds d (c.effect d content) (s.call extra c).2 := by
  have hr := hh.toReady
  cases c with
  | read k =>
    obtain ⟨hend, hlow, hvalid⟩ := validate_some hr h64 hc
    obtain ⟨buf, hread, hbytes⟩ := readAt_whole hh.whole (hend.trans_lt h64)
    obtain ⟨h1, stats, hd, hq, hdev, hdata⟩ := dispatch_read extra (h := s.reached 0 k fun _ => 0)
      hvalid hread
    obtain ⟨hok, hbuf, hback, hready⟩ := doRequest_done hr (by decide) hlow hq hd
    rw [hdev] at hback
    refine ⟨fun _ => hok, ?_, hh.of_backing hready hback⟩
    intro k' hk' j hj
    cases hk'
    rw [show (s.call extra (.read k)).1.2 j = _ from hbuf rfl rfl j hj, ← hr.sectorSize, ← hh.bytes]
    rw [← hr.sectorSize] at hj
    rw [hdata j hj, hbytes j hj]
  | write k data =>
    obtain ⟨hend, hlow, hvalid⟩ := validate_some hr h64 hc
    by_cases hro : d.readOnly = true
    · have hd : Gives (dispatch (ram extra) 1 k (s.driver.dataDesc 1)) (s.reached 1 k data)
          (.ok (.ioerr, {})) (s.reached 1 k data) := by
        refine .get_bind fun _ => ?_
        show Gives (if (s.reached 1 k data).device.readOnly || _ then _ else _) _ _ _
        rw [show (s.reached 1 k data).device.readOnly = true from hr.fixed.2.2.trans hro]
        exact .pure
      obtain ⟨-, -, hback, hready⟩ := doRequest_done hr (by decide) hlow (Quiet.refl _ _) hd
      refine ⟨by simp [Call.isWrite, hro], by simp, ?_⟩
      rw [Call.effect, if_pos hro]
      exact hh.of_backing hready hback
    · have hw : d.readOnly = false := by simpa using hro
      obtain ⟨hwritable, hroom⟩ := hh.room hw
      have hposted : Posted s.driver 1 k data s.host.memory (s.reached 1 k data).memory :=
        posted (by decide) hlow
      obtain ⟨b', hwrite, hwhole, hcap, hwritable', hbytes⟩ := writeAt_whole hh.whole hwritable
        (hend.trans_lt h64) (hend.trans hroom) s.driver.pos.ne'
      obtain ⟨h1, stats, hd, hq, hb⟩ := dispatch_write extra (h := s.reached 1 k data)
        (hr.fixed.2.2.trans hw) hvalid hwrite
      obtain ⟨hok, -, hback, hready⟩ := doRequest_done hr (by decide) hlow hq hd
      have hback' : (s.call extra (.write k data)).2.host.device.backing = b' := hback.trans hb
      refine ⟨fun _ => hok, by simp, hready, ?_, fun _ => ?_, fun i => ?_⟩
      · rw [hback']
        exact hwhole
      · rw [hback', hcap]
        exact ⟨hwritable', hroom⟩
      · rw [hback', Call.effect, if_neg hro, ← hr.sectorSize, ← funext hh.bytes, hbytes]
        exact congrFun (splice_congr fun j hj => hposted.bytes rfl j hj) i
  | flush =>
    have hd : Gives (dispatch (ram extra) 4 0 (s.driver.dataDesc 4)) (s.reached 4 0 fun _ => 0)
        (.ok (.ok, {})) (s.reached 4 0 fun _ => 0) := .get_bind fun _ => .pure
    obtain ⟨hok, -, hback, hready⟩ :=
      doRequest_done hr (by decide) (Nat.two_pow_pos 64) (Quiet.refl _ _) hd
    exact ⟨fun _ => hok, by simp, hh.of_backing hready hback⟩

theorem calls_hold (extra : Nat) (h64 : d.capacity * d.sectorSize < 2 ^ 64) (calls : List Call)
    (hbelow : ∀ c ∈ calls, c.Below d.capacity) (hh : Holds d content s) :
    Holds d (calls.foldl (Call.effect d) content) (calls.foldl (fun s c =>
      (s.call extra c).2) s) := by
  induction calls generalizing content s with
  | nil => exact hh
  | cons c calls ih =>
    exact ih (fun x hx => hbelow x (List.mem_cons_of_mem _ hx))
      (call_holds extra hh h64 c (hbelow c List.mem_cons_self)).2.2

theorem sectorArray_iff_covered (hv : v.sectorSize = d.sectorSize) (hwhole : d.backing.Whole)
    (hw : d.readOnly = false → d.backing.writable = true) (hlow : d.capacity < 2 ^ 64) :
    SectorArray extra d v ↔ Covered d := by
  have hready := start_ready hv
  constructor
  · intro harray
    -- the last sector decides
    have hlast : ∀ c : Call, c.Below d.capacity → (c.isWrite = true → d.readOnly = false) →
        ((System.start d v).call extra c).1.1 = true :=
        fun c hc => (harray [] c (by simpa using hc)).1
    have hmul : 0 < d.capacity →
        (d.capacity - 1) * d.sectorSize + d.sectorSize = d.capacity * d.sectorSize := by
      intro h
      rw [← Nat.succ_mul, Nat.succ_eq_add_one, Nat.sub_add_cancel h]
    have h64 : d.capacity * d.sectorSize < 2 ^ 64 := by
      by_contra hge
      have hcap : 0 < d.capacity := pos_of_ne_zero fun h => hge (by rw [h]; omega)
      have hok := hlast (.read (d.capacity - 1)) (Nat.sub_one_lt_of_lt hcap)
        (by simp [Call.isWrite])
      rw [read_refused hready (by omega) (by rw [hmul hcap]; omega)] at hok
      cases hok
    refine ⟨h64, ?_⟩
    by_contra hout
    obtain ⟨hro, hout⟩ := not_or.mp hout
    have hcap : 0 < d.capacity := pos_of_ne_zero fun h => hout (by rw [h]; omega)
    have hok := hlast (.write (d.capacity - 1) fun _ => 0) (Nat.sub_one_lt_of_lt hcap) fun _ => by
      simpa using hro
    rw [write_refused hready (by omega) (by simpa using hro) (Nat.sub_one_lt_of_lt hcap) h64
      (by rw [hmul hcap]; exact not_le.mp hout)] at hok
    cases hok
  · rintro ⟨h64, hroom⟩ calls c hbelow s
    have hstart : Holds d d.backing.file.at (System.start d v) :=
      ⟨hready, hwhole, fun hro => ⟨hw hro, hroom.resolve_left (by simp [hro])⟩, fun _ => rfl⟩
    have hh := calls_hold extra h64 calls (fun x hx => hbelow x (List.mem_cons_of_mem _ hx)) hstart
    have hcall := call_holds extra hh h64 c (hbelow c List.mem_cons_self)
    exact ⟨hcall.1, hcall.2.1⟩

/-- Every device starts whole, and a writable one on a file open for writing. -/
theorem device_whole (site : Site) (found : File) (sectorSize : Nat) :
    (site.device found sectorSize).backing.Whole ∧
      (site.readOnly = false → (site.device found sectorSize).backing.writable = true) := by
  cases site with
  | input => exact ⟨⟨rfl, .inr (.inl rfl)⟩, by simp [Site.readOnly]⟩
  | existing hint => exact ⟨⟨rfl, .inl rfl⟩, fun _ => rfl⟩
  | output capacity sparse | rawOutput capacity sparse =>
    cases sparse with
    | true => exact ⟨⟨rfl, .inl rfl⟩, fun _ => rfl⟩
    | false => exact ⟨⟨rfl, .inr (.inr le_rfl)⟩, fun _ => rfl⟩
  | noCreate size => exact ⟨⟨rfl, .inr (.inr le_rfl)⟩, fun _ => rfl⟩

/-- At every place the VMM builds a device, the device is an array of sectors exactly if what it
advertises is covered: a read-only one whose last sector ends below 2^64, or a writable one whose
last sector ends inside the backing store. -/
theorem sectorArray_iff (site : Site) (found : File) (extra : Nat) (v : VirtioBlock)
    (hsize : site.sizeBytes found < 2 ^ 64) :
    SectorArray extra (site.device found v.sectorSize) v ↔
    Covered (site.device found v.sectorSize) := by
  obtain ⟨hwhole, hw⟩ := device_whole site found v.sectorSize
  exact sectorArray_iff_covered rfl hwhole hw ((divCeil_le _ v.pos).trans_lt hsize)

/-- `check --repair` on a file of 1000 bytes with sectors of 512: the second sector is advertised,
and cannot be written. -/
theorem repair_write_refused :
    let d := Site.device (.existing (some 1000)) ⟨fun _ => 1, 1000⟩ 512
    1 < d.capacity ∧ d.readOnly = false ∧
      ((System.start d ⟨0, 512, 0, by decide, by decide⟩).call 0 (.write 1 fun _ => 0)).1.1 =
      false :=
  ⟨by decide, rfl, write_refused (start_ready rfl) (by decide) rfl (by decide)
    (by decide) (by decide)⟩

/-- An image of whole sectors is an array of sectors. -/
theorem sectorArray_iff_whole_sectors :
    SectorArray 0 (Site.device (.existing none) ⟨fun _ => 1, 1024⟩ 512) ⟨0, 512,
      0, by decide, by decide⟩ :=
  (sectorArray_iff (.existing none) ⟨fun _ => 1, 1024⟩ 0 ⟨0, 512,
    0, by decide, by decide⟩ (by decide)).mpr ⟨by decide, .inr (by decide)⟩

end Instar.Virtio
