import Instar.Virtio.Block

/-!
# The guest's driver, and the device as an array of sectors

`core/src/virtio.rs` on one of the 16 devices: `init`, and `do_request` behind `read_sector`,
`write_sector` and `flush`, with buffers of at least a sector.  The guest posts a request, notifies
the queue and waits; the io thread answers a notification with one `process_queue`, and after a
fault of that the guest's wait runs out.
-/

namespace Instar.Virtio

open ByteMap Attempt Host VirtqDesc

/-- Guest memory: 32 MiB or more. -/
def ram (extra : Nat) : GuestMemory ByteMap where
  read addr len := fun m =>
    if addr + len ≤ 0x2000000 + extra then (.ok (m.drop addr), m) else (.error .memory, m)
  write addr len buf := fun m =>
    if addr + len ≤ 0x2000000 + extra then (.ok (), m.splice addr len buf)
    else (.error .memory, m)

/-- A `VirtqDesc` in memory. -/
def VirtqDesc.bytes (d : VirtqDesc) : ByteMap :=
  (((splice (fun _ => 0) 0 8 (ofLe d.addr)).splice 8 4 (ofLe d.len)).splice 12 2
    (ofLe d.flags)).splice 14 2 (ofLe d.next)

/-- A `VirtioBlkReqHeader` in memory. -/
def headerBytes (type sector : Nat) : ByteMap :=
  (splice (fun _ => 0) 0 4 (ofLe type)).splice 8 8 (ofLe sector)

/-- The driver of the device at one of the 16 places. -/
structure VirtioBlock where
  slot : Fin 16
  sectorSize : Nat
  availIdx : UInt16 := 0
  pos : 0 < sectorSize
  fits : sectorSize ≤ 65536

/-- `device_vq_base`. -/
def VirtioBlock.vqBase (v : VirtioBlock) : Nat := 0x100000 + v.slot.val * 0x10000

/-- The register writes of `init`: status, features, the queue and its three addresses. -/
def initWrites (vq : Nat) : List (Nat × Nat) :=
  [(0x070, 0), (0x070, 1), (0x070, 3), (0x014, 0), (0x014, 1), (0x024, 0), (0x020, 0), (0x024, 1),
    (0x020, 1), (0x070, 11), (0x030, 0), (0x038, 256), (0x080, vq % 2 ^ 32), (0x084, vq / 2 ^ 32),
    (0x090, (vq + 4096) % 2 ^ 32), (0x094, (vq + 4096) / 2 ^ 32), (0x0A0, (vq + 4614) % 2 ^ 32),
    (0x0A4, (vq + 4614) / 2 ^ 32), (0x044, 1), (0x070, 15)]

/-- A driver and the host that answers it. -/
structure System where
  driver : VirtioBlock
  host : Host ByteMap

/-- A device initialised by its driver; guest memory starts as zeros. -/
def System.start (d : VirtioBlockDevice) (v : VirtioBlock) : System :=
  ⟨{ v with availIdx := 0 },
    { device :=
        { d with state := (initWrites v.vqBase).foldl (fun s w => s.mmioWrite w.1 w.2) d.state }
      memory := fun _ => 0 }⟩

/-- `do_request` up to the notification: header, data of an OUT, status, three descriptors, the
ring. -/
def VirtioBlock.post (v : VirtioBlock) (type sector : Nat) (buffer m : ByteMap) : ByteMap :=
  let i := v.availIdx.toNat % 85 * 3
  ((((((((m.splice 0x200000 16 (headerBytes type sector)).splice
    0x200010 (if type = 1 then v.sectorSize else 0) buffer).splice
    (0x200010 + v.sectorSize) 1 fun _ => 0xFF).splice
    (v.vqBase + i * 16) 16 (bytes ⟨0x200000, 16, 1, i + 1⟩)).splice
    (v.vqBase + (i + 1) * 16) 16
      (bytes ⟨0x200010, v.sectorSize, if type = 0 then 3 else 1, i + 2⟩)).splice
    (v.vqBase + (i + 2) * 16) 16 (bytes ⟨0x200010 + v.sectorSize, 1, 2, 0⟩)).splice
    (v.vqBase + 4096 + 4 + v.availIdx.toNat % 256 * 2) 2 (ofLe i)).splice
    (v.vqBase + 4096 + 2) 2 (ofLe (v.availIdx + 1).toNat))

/-- The host with a request posted and the queue notified. -/
def System.posted (s : System) (type sector : Nat) (buffer : ByteMap) : Host ByteMap :=
  { s.host with
    memory := s.driver.post type sector buffer s.host.memory
    device := s.host.device.mmioWrite 0x050 0 }

/-- A raised interrupt is acknowledged. -/
def Host.acked (h : Host ByteMap) : Host ByteMap :=
  { h with device := h.device.mmioWrite 0x064 h.device.state.interruptStatus }

/-- `do_request`: whether it succeeded, and the buffer after it. -/
def System.doRequest (extra type sector : Nat) (buffer : ByteMap) (s : System) :
    (Bool × ByteMap) × System :=
  let v := s.driver
  let next := { v with availIdx := v.availIdx + 1 }
  let host := (processQueue (ram extra) (s.posted type sector buffer)).2
  if host.memory.le (v.vqBase + 4614 + 2) 2 ≠ next.availIdx.toNat then
    ((false, buffer), ⟨next, host⟩)
  else
    let status := (host.memory (0x200010 + v.sectorSize)).toNat
    ((status == 0, if type = 0 ∧ status = 0 then host.memory.drop 0x200010 else buffer),
      ⟨next, host.acked⟩)

/-- The calls of the guest. -/
inductive Call where
  | read (sector : Nat)
  | write (sector : Nat) (data : ByteMap)
  | flush

/-- `read_sector`, `write_sector` and `flush`. -/
def System.call (extra : Nat) (s : System) : Call → (Bool × ByteMap) × System
  | .read sector => s.doRequest extra 0 sector fun _ => 0
  | .write sector data => s.doRequest extra 1 sector data
  | .flush => s.doRequest extra 4 0 fun _ => 0

/-! ## What the host finds -/

section

variable {α β : Type} {m : Attempt Fault (Host ByteMap) α} {f : α → Attempt Fault (Host ByteMap) β}
  {h h1 h2 : Host ByteMap} {a : α} {r : Except Fault β} {e : Fault}

/-- Whatever has been noted before, `m` takes `h` to `h'` with the result `r`. -/
def Gives (m : Attempt Fault (Host ByteMap) α) (h : Host ByteMap) (r : Except Fault α)
    (h' : Host ByteMap) : Prop :=
  ∀ t, ∃ t', m { h with trace := t } = (r, { h' with trace := t' })

theorem Gives.pure : Gives (pure a) h (.ok a) h := fun t => ⟨t, rfl⟩

theorem Gives.bind (hm : Gives m h (.ok a) h1) (hf : Gives (f a) h1 r h2) :
    Gives (m >>= f) h r h2 := by
  intro t
  obtain ⟨t1, hrun⟩ := hm t
  obtain ⟨t2, hrest⟩ := hf t1
  exact ⟨t2, (bind_of_ok hrun).trans hrest⟩

theorem Gives.bind_error (hm : Gives m h (.error e) h1) : Gives (m >>= f) h (.error e) h1 := by
  intro t
  obtain ⟨t1, hrun⟩ := hm t
  exact ⟨t1, bind_of_error hrun⟩

/-- What comes after `get` may read the state, but not the trace. -/
theorem Gives.get_bind {f : Host ByteMap → Attempt Fault (Host ByteMap) β}
    (hf : ∀ t, Gives (f { h with trace := t }) h r h2) : Gives (Attempt.get >>= f) h r h2 :=
  fun t => hf t t

theorem Gives.modify {F : Host ByteMap → Host ByteMap}
    (hF : ∀ t, F { h with trace := t } = { F h with trace := t }) :
    Gives (Attempt.modify F) h (.ok ()) (F h) :=
  fun t => ⟨t, congrArg (Prod.mk _) (hF t)⟩

theorem Gives.note {F : Trace ByteMap → Trace ByteMap} : Gives (Host.note F) h (.ok ()) h :=
  fun t => ⟨F t, rfl⟩

theorem Gives.check {c : Prop} [Decidable c] : Gives (Host.check c) h (.ok ()) h := .note

theorem Gives.require {c : Prop} [Decidable c] (hc : c) :
    Gives (Attempt.require c e) h (.ok ()) h := fun t => ⟨t, require_ok hc⟩

end

section

variable {m : ByteMap} {extra addr len : Nat} {buf : ByteMap} {h h1 : Host ByteMap}

theorem ofBytes_splice {off a : Nat} {src : ByteMap} (h : a + 16 ≤ off ∨ off + len ≤ a) :
    ofBytes ((m.splice off len src).drop a) = ofBytes (m.drop a) := by
  unfold ofBytes
  simp only [le_drop]
  simp (disch := omega) only [le_splice_outside]

theorem ofBytes_bytes {flags next : Nat} (ha : addr < 2 ^ 64) (hl : len < 2 ^ 32)
    (hf : flags < 2 ^ 16) (hn : next < 2 ^ 16) (a : Nat) :
    ofBytes ((m.splice a 16 (bytes ⟨addr, len, flags, next⟩)).drop a) =
      ⟨addr, len, flags, next⟩ := by
  unfold ofBytes
  simp (disch := decide) only [le_drop, le_splice_inside, bytes]
  simp (disch := omega) only [le_splice_outside, le_splice_ofLe]

theorem load_ram (hin : addr + len ≤ 0x2000000) :
    Gives (load (ram extra) addr len) h (.ok (h.memory.drop addr)) h := by
  intro t
  have hwrap : addr % 2 ^ 64 = addr := Nat.mod_eq_of_lt (by omega)
  have hread : (ram extra).read (addr % 2 ^ 64) len h.memory =
      (.ok (h.memory.drop addr), h.memory) := by
    rw [hwrap]
    exact if_pos (by omega)
  exact ⟨t, by simp only [load, Attempt.onPart, hread]⟩

theorem store_ram (hin : addr + len ≤ 0x2000000) :
    Gives (store (ram extra) addr len buf) h (.ok ())
      { h with memory := h.memory.splice addr len buf } := by
  intro t
  have hwrap : addr % 2 ^ 64 = addr := Nat.mod_eq_of_lt (by omega)
  have hwrite : (ram extra).write (addr % 2 ^ 64) len buf h.memory =
      (.ok (), h.memory.splice addr len buf) := by
    rw [hwrap]
    exact if_pos (by omega)
  exact ⟨t, by simp only [store, Attempt.onPart, hwrite]⟩

theorem readDescriptor_ram {table index : Nat} (hi : index < 256)
    (hin : table + index * 16 + 16 ≤ 0x2000000) :
    Gives (readDescriptor (ram extra) table index 256) h
      (.ok (.ofBytes (h.memory.drop (table + index * 16)))) h :=
  .bind (.require hi) (.bind .note (.bind .check (.bind (load_ram hin) .pure)))

end

/-- The first of the three descriptors of the driver's next request. -/
def VirtioBlock.first (v : VirtioBlock) : Nat := v.availIdx.toNat % 85 * 3

/-- The descriptor of the data. -/
def VirtioBlock.dataDesc (v : VirtioBlock) (type : Nat) : VirtqDesc :=
  ⟨0x200010, v.sectorSize, if type = 0 then 3 else 1, v.first + 2⟩

/-- A request posted by `v` over the memory `old`, as the host reads it. -/
structure Posted (v : VirtioBlock) (type sector : Nat) (buffer old m : ByteMap) : Prop where
  idx : m.le (v.vqBase + 4096 + 2) 2 = (v.availIdx + 1).toNat
  entry : m.le (v.vqBase + 4096 + 4 + v.availIdx.toNat % 256 * 2) 2 = v.first
  used : m.le (v.vqBase + 4614 + 2) 2 = old.le (v.vqBase + 4614 + 2) 2
  header : ofBytes (m.drop (v.vqBase + v.first * 16)) = ⟨0x200000, 16, 1, v.first + 1⟩
  data : ofBytes (m.drop (v.vqBase + (v.first + 1) * 16)) = v.dataDesc type
  status : ofBytes (m.drop (v.vqBase + (v.first + 2) * 16)) = ⟨0x200010 + v.sectorSize, 1, 2, 0⟩
  kind : (m.drop 0x200000).le 0 4 = type
  place : (m.drop 0x200000).le 8 8 = sector
  bytes : type = 1 → ∀ j < v.sectorSize, m (0x200010 + j) = buffer j

variable {v : VirtioBlock} {type sector extra : Nat} {buffer old m : ByteMap}
  {h h1 h2 : Host ByteMap} {st : RequestStatus} {stats : IoStats} {e : Fault}

/-- The queue of a driver lies below the DMA pool, and the descriptors of a request inside its
table. -/
theorem placed (v : VirtioBlock) : v.vqBase + 6666 ≤ 0x200000 ∧ v.first ≤ 252 := by
  unfold VirtioBlock.vqBase VirtioBlock.first
  omega

theorem posted (ht : type < 5) (hs : sector < 2 ^ 64) :
    Posted v type sector buffer old (v.post type sector buffer old) := by
  obtain ⟨hvq, hfirst⟩ := placed v
  have hss := v.fits
  have hnext : (v.availIdx + 1).toNat < 2 ^ 16 := UInt16.toNat_lt _
  unfold VirtioBlock.post
  rw [show v.availIdx.toNat % 85 * 3 = v.first from rfl]
  constructor
  · exact le_splice_ofLe hnext
  · rw [le_splice_outside (by omega), le_splice_ofLe (by omega)]
  · simp (disch := omega) only [le_splice_outside]
  · simp (disch := omega) only [ofBytes_splice]
    exact ofBytes_bytes (by omega) (by omega) (by omega) (by omega) _
  · simp (disch := omega) only [ofBytes_splice]
    exact ofBytes_bytes (by omega) (by omega) (by split <;> omega) (by omega) _
  · simp (disch := omega) only [ofBytes_splice]
    exact ofBytes_bytes (by omega) (by omega) (by omega) (by omega) _
  · rw [le_drop]
    simp (disch := omega) only [le_splice_outside, le_splice_inside, headerBytes, le_splice_ofLe]
  · rw [le_drop]
    simp (disch := omega) only [le_splice_outside, le_splice_inside, headerBytes, le_splice_ofLe]
  · rintro rfl j hj
    simp (disch := omega) only [splice_outside, if_true]
    exact splice_inside hj

/-! ## One request through the queue -/

/-- What a request may do before its status is written: move the backing store and fill the data
buffer. -/
structure Quiet (v : VirtioBlock) (h h1 : Host ByteMap) : Prop where
  device : h1.device = { h.device with backing := h1.device.backing }
  memory : ∀ a, a < 0x200010 ∨ 0x200010 + v.sectorSize ≤ a → h1.memory a = h.memory a

theorem Quiet.le (hq : Quiet v h h1) {a n : Nat} (ha : a + n ≤ 0x200010) :
    h1.memory.le a n = h.memory.le a n :=
  le_congr fun i hi => hq.memory _ (.inl (by omega))

theorem putStatus_ram (hp : Posted v type sector buffer old h.memory) (hq : Quiet v h h1) :
    Gives (putStatus (ram extra) v.vqBase 256 (v.dataDesc type) st) h1
      (.ok ((v.sectorSize + 1) % 2 ^ 32))
      { h1 with memory := h1.memory.splice (0x200010 + v.sectorSize) 1 (ofLe st.code) } := by
  obtain ⟨hvq, hfirst⟩ := placed v
  have hss := v.fits
  have hnext : (v.dataDesc type).hasNext = true := by
    unfold VirtioBlock.dataDesc
    split <;> simp [hasNext]
  have hstatus : ofBytes (h1.memory.drop (v.vqBase + (v.first + 2) * 16)) =
      ⟨0x200010 + v.sectorSize, 1, 2, 0⟩ := by
    rw [← hp.status]
    unfold ofBytes
    simp only [le_drop]
    simp (disch := omega) only [hq.le]
  have hdesc : Gives (readDescriptor (ram extra) v.vqBase (v.dataDesc type).next 256) h1
      (.ok ⟨0x200010 + v.sectorSize, 1, 2, 0⟩) h1 :=
    hstatus ▸ readDescriptor_ram (show v.first + 2 < 256 by omega)
      (show v.vqBase + (v.first + 2) * 16 + 16 ≤ _ by omega)
  exact .bind .check (.bind (.require hnext) (.bind hdesc
    (.bind (store_ram (show 0x200010 + v.sectorSize + 1 ≤ _ by omega))
      (.bind .note (.bind .check .pure)))))

/-- A posted request comes down to its dispatch. -/
theorem processRequest_ram {r : Except Fault (Nat × IoStats)}
    (hp : Posted v type sector buffer old h.memory)
    (hrest : Gives (do
      let done ← dispatch (ram extra) type sector (v.dataDesc type)
      let written ← putStatus (ram extra) v.vqBase 256 (v.dataDesc type) done.1
      pure (written, done.2)) h r h2) :
    Gives (processRequest (ram extra) v.vqBase v.first 256) h r h2 := by
  obtain ⟨hvq, hfirst⟩ := placed v
  have hheader : Gives (readDescriptor (ram extra) v.vqBase v.first 256) h
      (.ok ⟨0x200000, 16, 1, v.first + 1⟩) h :=
    hp.header ▸ readDescriptor_ram (by omega) (by omega)
  have hdata : Gives (readDescriptor (ram extra) v.vqBase (v.first + 1) 256) h
      (.ok (v.dataDesc type)) h :=
    hp.data ▸ readDescriptor_ram (by omega) (by omega)
  refine .bind hheader (.bind (load_ram (show 0x200000 + 16 ≤ 0x2000000 by decide))
    (.bind (.require rfl) (.bind hdata ?_)))
  rw [hp.kind, hp.place]
  exact hrest

/-- The queue as `init` leaves it, with the host as far as the driver. -/
def VirtioBlock.queue (v : VirtioBlock) : VirtqueueState :=
  ⟨256, true, v.vqBase, v.vqBase + 4096, v.vqBase + 4614, v.availIdx⟩

/-- Memory with the status of `v`'s request and its place in the used ring. -/
def VirtioBlock.answered (v : VirtioBlock) (st : RequestStatus) (m : ByteMap) : ByteMap :=
  ((m.splice (0x200010 + v.sectorSize) 1 (ofLe st.code)).splice
    (v.vqBase + 4614 + 4 + v.availIdx.toNat % 256 * 8) 8
      ((ofLe v.first).append 4 (ofLe ((v.sectorSize + 1) % 2 ^ 32)))).splice
    (v.vqBase + 4614 + 2) 2 (ofLe (v.availIdx.toNat + 1))

theorem le_answered :
    (v.answered st m).le (v.vqBase + 4614 + 2) 2 = (v.availIdx + 1).toNat := by
  unfold VirtioBlock.answered
  rw [le_splice_ofLe_mod, UInt16.toNat_add]
  rfl

theorem answered_status : (v.answered st m (0x200010 + v.sectorSize)).toNat = st.code := by
  have hvq := (placed v).1
  unfold VirtioBlock.answered
  rw [splice_outside (by omega), splice_outside (by omega), splice_mem (by omega) (by omega),
    Nat.sub_self]
  cases st <;> rfl

theorem answered_data {j : Nat} (hj : j < v.sectorSize) :
    v.answered st m (0x200010 + j) = m (0x200010 + j) := by
  have hvq := (placed v).1
  unfold VirtioBlock.answered
  rw [splice_outside (by omega), splice_outside (by omega), splice_outside (by omega)]

/-- The next entry of the available ring. -/
theorem entry_ram : Gives (load (ram extra)
      (v.queue.driverAddr + 4 + v.availIdx.toNat % v.queue.num * 2) 2) h.taken
    (.ok (h.memory.drop (v.vqBase + 4096 + 4 + v.availIdx.toNat % 256 * 2))) h.taken := by
  have hvq := (placed v).1
  exact load_ram (by simp only [VirtioBlock.queue]; omega)

theorem finished_memory {last : UInt16} : (h.finished last).memory = h.memory := rfl

section

variable (hp : Posted v type sector buffer old h.memory)

include hp

/-- A notification with one request posted comes down to one round of the queue loop. -/
theorem processQueue_ram {r : Except Fault IoStats} (hqueue : h.device.state.queue = v.queue)
    (hrest : Gives (do
      let stats ← round (ram extra) v.queue v.availIdx {}
      Attempt.modify (finished (v.availIdx + 1))
      pure stats) h.taken r h2) : Gives (processQueue (ram extra)) h r h2 := by
  have hvq := (placed v).1
  have havail : Gives (load (ram extra) v.queue.driverAddr 4) h.taken
      (.ok (h.taken.memory.drop (v.vqBase + 4096))) h.taken :=
    load_ram (by simp only [VirtioBlock.queue]; omega)
  refine .bind (.modify fun _ => rfl) (.get_bind fun t => ?_)
  rw [show ({ h.taken with trace := t } : Host ByteMap).device.state.queue = v.queue from hqueue,
    if_neg (by simp [VirtioBlock.queue])]
  refine .bind havail ?_
  rw [le_drop, show h.taken.memory = h.memory from rfl, hp.idx, UInt16.ofNat_toNat,
    show v.queue.lastAvailIdx = v.availIdx from rfl, serve, if_neg (by simp)]
  -- the loop stops after the round
  intro t
  obtain ⟨t', hrun⟩ := hrest t
  refine ⟨t', hrun ▸ ?_⟩
  cases hround : round (ram extra) v.queue v.availIdx {} { h.taken with trace := t } with
  | mk result h3 =>
    cases result with
    | error e => rw [bind_of_error (bind_of_error hround), bind_of_error hround]
    | ok stats =>
      have hserved : (round (ram extra) v.queue v.availIdx {} >>= fun stats =>
          serve (ram extra) v.queue (v.availIdx + 1) (v.availIdx + 1) stats)
          { h.taken with trace := t } = (.ok (v.availIdx + 1, stats), h3) := by
        rw [bind_of_ok hround, serve, if_pos rfl]
        rfl
      rw [bind_of_ok hserved, bind_of_ok hround]

theorem processQueue_fault (hqueue : h.device.state.queue = v.queue)
    (hd : Gives (dispatch (ram extra) type sector (v.dataDesc type)) h.taken (.error e) h1) :
    Gives (processQueue (ram extra)) h (.error e) h1 := by
  refine processQueue_ram hp hqueue (.bind_error ?_)
  refine .bind .note (.bind .check (.bind entry_ram (.bind_error ?_)))
  rw [le_drop, add_zero, hp.entry]
  exact processRequest_ram (h := h.taken) hp (.bind_error hd)

/-- The device answers the posted request. -/
theorem processQueue_done (hqueue : h.device.state.queue = v.queue)
    (hused : old.le (v.vqBase + 4614 + 2) 2 = v.availIdx.toNat)
    (hd : Gives (dispatch (ram extra) type sector (v.dataDesc type)) h.taken (.ok (st, stats)) h1)
    (hq : Quiet v h.taken h1) : Gives (processQueue (ram extra)) h (.ok (.add {} stats))
      (finished (v.availIdx + 1) { h1 with memory := v.answered st h1.memory }) := by
  have hvq := (placed v).1
  have hidx : (h1.memory.splice (0x200010 + v.sectorSize) 1 (ofLe st.code)).le
      (v.vqBase + 4614 + 2) 2 = v.availIdx.toNat := by
    rw [le_splice_outside (by omega), hq.le (by omega), ← hused]
    exact hp.used
  have hrequest : Gives (processRequest (ram extra) v.vqBase v.first 256) h.taken
      (.ok ((v.sectorSize + 1) % 2 ^ 32, stats))
      { h1 with memory := h1.memory.splice (0x200010 + v.sectorSize) 1 (ofLe st.code) } :=
    processRequest_ram (h :=
      h.taken) hp (.bind hd (.bind (putStatus_ram (h := h.taken) hp hq) .pure))
  have hput : Gives (putUsed (ram extra) v.queue v.first ((v.sectorSize + 1) % 2 ^ 32))
      { h1 with memory := h1.memory.splice (0x200010 + v.sectorSize) 1 (ofLe st.code) } (.ok ())
      { h1 with memory := v.answered st h1.memory } := by
    refine .bind (load_ram (show v.vqBase + 4614 + 4 ≤ _ by omega)) ?_
    rw [le_drop, show v.queue.deviceAddr = v.vqBase + 4614 from rfl, hidx]
    exact .bind .check (.bind (store_ram (by simp only [VirtioBlock.queue]; omega))
      (.bind .check (store_ram (by omega))))
  refine processQueue_ram hp hqueue (.bind ?_ (.bind (.modify fun _ => rfl) .pure))
  refine .bind .note (.bind .check (.bind entry_ram ?_))
  rw [le_drop, add_zero, hp.entry]
  exact .bind hrequest (.bind .check (.bind hput .pure))

end

/-- A system between two calls, for a device built as `d`. -/
structure Ready (d : VirtioBlockDevice) (s : System) : Prop where
  sectorSize : s.driver.sectorSize = d.sectorSize
  fixed : s.host.device.capacity = d.capacity ∧ s.host.device.sectorSize = d.sectorSize ∧
    s.host.device.readOnly = d.readOnly
  queue : s.host.device.state.queue = s.driver.queue
  used : s.host.memory.le (s.driver.vqBase + 4614 + 2) 2 = s.driver.availIdx.toNat

variable {d : VirtioBlockDevice} {s : System}

/-- The host as it comes to a request. -/
def System.reached (s : System) (type sector : Nat) (buffer : ByteMap) : Host ByteMap :=
  (s.posted type sector buffer).taken

section

variable (hr : Ready d s) (ht : type < 5) (hs : sector < 2 ^ 64)
  (hq : Quiet s.driver (s.reached type sector buffer) h1)

include hr ht hs hq

/-- A request the host faults on is one the guest gives up. -/
theorem doRequest_fault (hd : Gives (dispatch (ram extra) type sector (s.driver.dataDesc type))
      (s.reached type sector buffer) (.error e) h1) :
    (s.doRequest extra type sector buffer).1.1 = false := by
  have hvq := (placed s.driver).1
  have hp : Posted s.driver type sector buffer s.host.memory
      (s.posted type sector buffer).memory := posted ht hs
  obtain ⟨t, hrun⟩ := processQueue_fault hp hr.queue hd (s.posted type sector buffer).trace
  have hidx : h1.memory.le (s.driver.vqBase + 4614 + 2) 2 ≠ (s.driver.availIdx + 1).toNat := by
    rw [hq.le (by omega), show (s.reached type sector buffer).memory.le _ _ = _ from hp.used,
      hr.used]
    exact fun heq => by simpa using UInt16.toNat_inj.mp heq
  unfold System.doRequest
  simp only [show processQueue (ram extra) (s.posted type sector buffer) = _ from hrun]
  rw [if_pos hidx]

/-- A request that is answered: its result, the data of an IN, and the system after it. -/
theorem doRequest_done (hd : Gives (dispatch (ram extra) type sector (s.driver.dataDesc type))
      (s.reached type sector buffer) (.ok (st, stats)) h1) :
    let r := s.doRequest extra type sector buffer
    r.1.1 = (st == .ok) ∧
      (type = 0 → st = .ok → ∀ j < d.sectorSize, r.1.2 j = h1.memory (0x200010 + j)) ∧
      r.2.host.device.backing = h1.device.backing ∧ Ready d r.2 := by
  have hp : Posted s.driver type sector buffer s.host.memory
      (s.posted type sector buffer).memory := posted ht hs
  obtain ⟨t, hqueue⟩ := processQueue_done hp hr.queue hr.used hd hq
    (s.posted type sector buffer).trace
  let h3 : Host ByteMap := { h1 with memory := s.driver.answered st h1.memory, trace := t }
  have hrun : s.doRequest extra type sector buffer =
      ((st.code == 0, if type = 0 ∧ st.code = 0
        then (s.driver.answered st h1.memory).drop 0x200010 else buffer),
        ⟨{ s.driver with availIdx := s.driver.availIdx + 1 },
          (finished (s.driver.availIdx + 1) h3).acked⟩) := by
    have hend : (processQueue (ram extra) (s.posted type sector buffer)).2 =
        finished (s.driver.availIdx + 1) h3 := congrArg Prod.snd hqueue
    unfold System.doRequest
    simp only [hend, finished_memory, h3]
    rw [if_neg (not_not.mpr le_answered), answered_status]
  rw [hrun]
  refine ⟨by cases st <;> rfl, ?_, rfl, hr.sectorSize, ?_, ?_, le_answered⟩
  · rintro rfl rfl j hj
    exact answered_data (hr.sectorSize ▸ hj)
  · have hdev := hq.device
    exact ⟨(congrArg (·.capacity) hdev).trans hr.fixed.1,
      (congrArg (·.sectorSize) hdev).trans hr.fixed.2.1,
      (congrArg (·.readOnly) hdev).trans hr.fixed.2.2⟩
  · have hsame : h1.device.state.queue = s.driver.queue :=
      (congrArg (·.state.queue) hq.device).trans hr.queue
    show { h1.device.state.queue with lastAvailIdx := s.driver.availIdx + 1 } = _
    rw [hsame]
    rfl

end

end Instar.Virtio
