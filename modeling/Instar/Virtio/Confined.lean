import Instar.Virtio.Block

/-!
# A hostile guest is confined to its device's file

The guest writes any register, fills its memory as it likes and notifies the queue as often as it
likes.  `Host.Safe` is what every such run keeps, with a bound on the requests begun; the queue loop
raises the bound by the distance between the two 16-bit indices.
-/

namespace Instar.Virtio

open Attempt

/-- The IN request put the bytes of its sectors, zero past the end of the file, into the guest's
buffer, or nothing into guest memory. -/
def Delivery.Faithful {M : Type} (g : GuestMemory M) (sectorSize : Nat) (x : Delivery M) : Prop :=
  x.after = x.before ∨ ∃ buf : ByteMap,
    (∀ i < x.len, buf i = x.file.at (x.sector * sectorSize + i)) ∧
    x.after = (g.write (x.addr % 2 ^ 64) x.len buf x.before).2

namespace Host

variable {M : Type} (g : GuestMemory M) {d : VirtioBlockDevice} {c : Nat} {h : Host M}

/-- What holds of a host whose device began as `d`, with at most `c` requests begun. -/
structure Safe (d : VirtioBlockDevice) (c : Nat) (h : Host M) : Prop where
  sectorSize : h.device.sectorSize = d.sectorSize
  readOnly : h.device.readOnly = d.readOnly
  store : d.backing.Confined h.device.backing
  untouched : d.readOnly = true → h.device.backing.file = d.backing.file
  delivered : ∀ x ∈ h.trace.delivered, x.Faithful g d.sectorSize
  allocated : ∀ n ∈ h.trace.allocated, n ≤ 1024 * 1024
  begun : h.trace.allocated.length ≤ c

/-- The latest request has allocated nothing yet. -/
structure Fresh (d : VirtioBlockDevice) (c : Nat) (h : Host M) : Prop extends Safe g d c h where
  none : ∃ past, h.trace.allocated = 0 :: past

variable {g}

theorem Safe.mono {c' : Nat} (hs : h.Safe g d c) (hc : c ≤ c') : h.Safe g d c' :=
  { hs with begun := hs.begun.trans hc }

/-- Guest memory and the other notes of the trace do not enter. -/
def Steady (P : Host M → Prop) : Prop :=
  ∀ h m (t : Trace M), P h → t.allocated = h.trace.allocated →
    t.delivered = h.trace.delivered → P { h with memory := m, trace := t }

theorem steady_safe : Steady (Safe g d c) := fun _ _ _ hs hallocated hdelivered =>
  { hs with
    delivered := hdelivered ▸ hs.delivered
    allocated := hallocated ▸ hs.allocated
    begun := hallocated ▸ hs.begun }

theorem steady_fresh : Steady (Fresh g d c) := fun h m t hs hallocated hdelivered =>
  ⟨steady_safe h m t hs.toSafe hallocated hdelivered, hallocated ▸ hs.none⟩

section

variable {P : Host M → Prop} (hP : Steady P)

include hP

theorem load_keeps (addr len : Nat) : Attempt.Keeps P (load g addr len) :=
  fun h hs => hP h _ _ hs rfl rfl

theorem store_keeps (addr len : Nat) (buf : ByteMap) : Attempt.Keeps P (store g addr len buf) :=
  fun h hs => hP h _ _ hs rfl rfl

theorem check_keeps {b : Prop} [Decidable b] : Attempt.Keeps P (check b) :=
  fun h hs => hP h _ _ hs rfl rfl

theorem readDescriptor_keeps (table index queueSize : Nat) :
    Attempt.Keeps P (readDescriptor g table index queueSize) :=
  .bind .require fun _ => .bind (fun h hs => hP h _ _ hs rfl rfl) fun _ =>
    .bind (check_keeps hP) fun _ => .bind (load_keeps hP _ _) fun _ => .pure

theorem putStatus_keeps (table queueSize : Nat) (data : VirtqDesc) (status : RequestStatus) :
    Attempt.Keeps P (putStatus g table queueSize data status) :=
  .bind (check_keeps hP) fun _ => .bind .require fun _ =>
    .bind (readDescriptor_keeps hP _ _ _) fun _ => .bind (store_keeps hP _ _ _) fun _ =>
    .bind (fun h hs => hP h _ _ hs rfl rfl) fun _ => .bind (check_keeps hP) fun _ => .pure

theorem putUsed_keeps (q : VirtqueueState) (index written : Nat) :
    Attempt.Keeps P (putUsed g q index written) :=
  .bind (load_keeps hP _ _) fun _ => .bind (check_keeps hP) fun _ =>
    .bind (store_keeps hP _ _ _) fun _ => .bind (check_keeps hP) fun _ => store_keeps hP _ _ _

theorem tally_keeps (len : Nat) (stats : Nat → Nat → IoStats) (status : RequestStatus) :
    Attempt.Keeps P (tally len stats status) := by
  refine .bind (fun _ hs => hs) fun h => ?_
  split
  · exact .bind (check_keeps hP) fun _ => .pure
  · exact .pure

end

/-- A request that may go on is one of at most a mebibyte, and its offset is that of its sector. -/
theorem validateIoRequest_some {sector len offset : Nat}
    (h : d.validateIoRequest sector len = some offset) :
    len ≤ 1024 * 1024 ∧ offset = sector * d.sectorSize := by
  unfold VirtioBlockDevice.validateIoRequest at h
  split at h
  · cases h
  · cases h
    exact ⟨by omega, rfl⟩

theorem allocate_safe {len : Nat} (hlen : len ≤ 1024 * 1024) (hs : h.Fresh g d c) :
    Safe g d c (allocate len h).2 := by
  obtain ⟨past, hpast⟩ := hs.none
  have hallocated := hs.allocated
  have hbegun := hs.begun
  have hnow : (allocate len h).2.trace.allocated = len :: past := by
    show h.trace.allocated.modifyHead _ = _
    rw [hpast, List.modifyHead_cons, Nat.zero_add]
  rw [hpast] at hallocated hbegun
  refine { hs.toSafe with allocated := ?_, begun := ?_ }
  · rw [hnow]
    exact List.forall_mem_cons.mpr ⟨hlen, (List.forall_mem_cons.mp hallocated).2⟩
  · rw [hnow]
    exact hbegun

theorem doRead_safe (sector addr len : Nat) (hs : h.Fresh g d c) :
    Safe g d c (doRead g sector addr len h).2 := by
  unfold doRead
  rw [bind_of_ok (m := Attempt.get) (s := h) rfl]
  cases hvalid : h.device.validateIoRequest sector len with
  | none => exact hs.toSafe
  | some offset =>
    refine after_bind (allocate_safe (validateIoRequest_some hvalid).1 hs) (fun _ h => h) fun _ =>
      ?_
    exact Keeps.bind (check_keeps steady_safe) fun _ => .bind .ofExcept fun _ =>
      .bind (store_keeps steady_safe _ _ _) fun _ => .pure

/-- What an IN request puts into guest memory. -/
theorem doRead_memory (sector addr len : Nat)
    (htracked : h.device.backing.file.len ≤ h.device.backing.currentSize) :
    Delivery.Faithful g h.device.sectorSize ⟨h.device.backing.file, sector, addr, len, h.memory,
      (doRead g sector addr len h).2.memory⟩ := by
  unfold doRead
  rw [bind_of_ok (m := Attempt.get) (s := h) rfl]
  cases hvalid : h.device.validateIoRequest sector len with
  | none => exact .inl rfl
  | some offset =>
    obtain ⟨-, rfl⟩ := validateIoRequest_some hvalid
    simp only
    rw [bind_of_ok (m := allocate len) rfl, bind_of_ok (m := check _) rfl]
    cases hread : h.device.backing.readAt (sector * h.device.sectorSize) len with
    | error e => exact .inl rfl
    | ok buf =>
      refine .inr ⟨buf, BackingStore.readAt_bytes htracked hread, ?_⟩
      -- the store is the last access to guest memory, whether or not it succeeds
      have hlast : ∀ (m : Attempt Fault (Host M) Unit) (s : Host M),
          ((m >>= fun _ => pure RequestStatus.ok) s).2 = (m s).2 := by
        intro m s
        exact after_bind (P := (· = (m s).2)) rfl (fun _ h => h) fun _ _ h => h
      exact congrArg memory (hlast (store g addr len buf) _)

theorem watched_safe (sector addr len : Nat) (hs : h.Fresh g d c) :
    Safe g d c (watched sector addr len (doRead g sector addr len) h).2 := by
  have hread := doRead_safe sector addr len hs
  have hseen := doRead_memory (g := g) sector addr len hs.store.tracked
  rw [hs.sectorSize] at hseen
  exact { hread with delivered := List.forall_mem_cons.mpr ⟨hseen, hread.delivered⟩ }

theorem writeAt_safe (offset len : Nat) (buf : ByteMap) (hw : d.readOnly = false) :
    Attempt.Keeps (Safe g d c) (writeAt offset len buf) :=
  fun _ hs => { hs with store := hs.store.writeAt, untouched := fun hro => by simp [hw] at hro }

theorem doWrite_safe (sector addr len : Nat) (hw : d.readOnly = false) (hs : h.Fresh g d c) :
    Safe g d c (doWrite g sector addr len h).2 := by
  unfold doWrite
  rw [bind_of_ok (m := Attempt.get) (s := h) rfl]
  cases hvalid : h.device.validateIoRequest sector len with
  | none => exact hs.toSafe
  | some offset =>
    refine after_bind (allocate_safe (validateIoRequest_some hvalid).1 hs) (fun _ h => h) fun _ =>
      ?_
    exact Keeps.bind (load_keeps steady_safe _ _) fun _ => .bind (writeAt_safe _ _ _ hw) fun _ =>
      .pure

theorem dispatch_safe (type sector : Nat) (data : VirtqDesc) (hs : h.Fresh g d c) :
    Safe g d c (dispatch g type sector data h).2 := by
  unfold dispatch
  rw [bind_of_ok (m := Attempt.get) (s := h) rfl]
  split
  · split
    · exact after_bind (watched_safe _ _ _ hs) (fun _ h => h) (fun _ =>
        tally_keeps steady_safe _ _ _)
    · exact hs.toSafe
  · split
    · exact hs.toSafe
    next hw =>
      have hro : d.readOnly = false := by
        rw [← hs.readOnly]
        simp_all
      exact after_bind (doWrite_safe _ _ _ hro hs) (fun _ h => h)
        (fun _ => tally_keeps steady_safe _ _ _)
  · exact hs.toSafe
  · exact hs.toSafe

theorem processRequest_safe (table index queueSize : Nat) (hs : h.Fresh g d c) :
    Safe g d c (processRequest g table index queueSize h).2 := by
  have hsafe : ∀ s : Host M, Fresh g d c s → Safe g d c s := fun _ hs => hs.toSafe
  refine after_bind (readDescriptor_keeps steady_fresh _ _ _ h hs) hsafe fun _ h1 hs1 => ?_
  refine after_bind (load_keeps steady_fresh _ _ h1 hs1) hsafe fun _ h2 hs2 => ?_
  refine after_bind (Keeps.require h2 hs2) hsafe fun _ h3 hs3 => ?_
  refine after_bind (readDescriptor_keeps steady_fresh _ _ _ h3 hs3) hsafe fun _ h4 hs4 => ?_
  refine after_bind (dispatch_safe _ _ _ hs4) (fun _ h => h) fun _ => ?_
  exact Keeps.bind (putStatus_keeps steady_safe _ _ _ _) fun _ => .pure

theorem round_safe (q : VirtqueueState) (last : UInt16) (stats : IoStats) (hs : h.Safe g d c) :
    Safe g d (c + 1) (round g q last stats h).2 := by
  have hfresh : Fresh g d (c + 1)
      { h with trace := { h.trace with allocated := 0 :: h.trace.allocated } } :=
    ⟨{ hs with
      allocated := List.forall_mem_cons.mpr ⟨Nat.zero_le _, hs.allocated⟩
      begun := Nat.succ_le_succ hs.begun }, _, rfl⟩
  have hsafe : ∀ s : Host M, Fresh g d (c + 1) s → Safe g d (c + 1) s := fun _ hs => hs.toSafe
  refine after_bind (P := Fresh g d (c + 1)) (s := h) hfresh hsafe fun _ h1 hs1 => ?_
  refine after_bind (check_keeps steady_fresh h1 hs1) hsafe fun _ h2 hs2 => ?_
  refine after_bind (load_keeps steady_fresh _ _ h2 hs2) hsafe fun _ h3 hs3 => ?_
  refine after_bind (processRequest_safe _ _ _ hs3) (fun _ h => h) fun _ => ?_
  exact Keeps.bind (check_keeps steady_safe) fun _ =>
    .bind (putUsed_keeps steady_safe _ _ _) fun _ => .pure

/-- The queue loop begins as many requests as the two indices are apart. -/
theorem serve_safe (q : VirtqueueState) (idx last : UInt16) (stats : IoStats)
    (hs : h.Safe g d c) : Safe g d (c + (idx - last).toNat) (serve g q idx last stats h).2 := by
  induction hn : (idx - last).toNat generalizing last stats h c with
  | zero =>
    rw [serve, if_pos (by_contra fun hne => by have := distance_succ hne; omega)]
    exact hs
  | succ n ih =>
    have hne : ¬ last = idx := by
      rintro rfl
      simp at hn
    have hnext : (idx - (last + 1)).toNat = n := by
      have := distance_succ hne
      omega
    rw [serve, if_neg hne]
    exact after_bind (round_safe q last stats hs) (fun _ h => h.mono (by omega))
      fun stats _ h => (ih (last + 1) stats h hnext).mono (by omega)

theorem processQueue_safe (hs : h.Safe g d c) : Safe g d (c + 65535) (processQueue g h).2 := by
  unfold processQueue
  rw [bind_of_ok (m := Attempt.modify _) (s := h) rfl, bind_of_ok (m := Attempt.get) rfl]
  split
  · exact { hs.mono (Nat.le_add_right _ _) with }
  · refine after_bind (load_keeps steady_safe _ _ h.taken { hs with })
      (fun _ h => h.mono (Nat.le_add_right _ _)) fun avail h1 hs1 => ?_
    have hserve := serve_safe h.device.state.queue (UInt16.ofNat (avail.le 2 2))
      h.device.state.queue.lastAvailIdx {} hs1
    have hlast : (UInt16.ofNat (avail.le 2 2) - h.device.state.queue.lastAvailIdx).toNat < 2 ^ 16 :=
      UInt16.toNat_lt _
    exact after_bind (hserve.mono (by omega)) (fun _ h => h) (fun _ _ h => { h with })

theorem step_safe (e : GuestEvent M) (hs : h.Safe g d c) : ∃ c', Safe g d c' (h.step g e) := by
  cases e with
  | registerWrite offset value => exact ⟨c, { hs with }⟩
  | memory content => exact ⟨c, { hs with }⟩
  | notify => exact ⟨_, processQueue_safe hs⟩

theorem run_safe (events : List (GuestEvent M)) (hs : h.Safe g d c) :
    ∃ c', Safe g d c' (events.foldl (step g) h) := by
  induction events generalizing h c with
  | nil => exact ⟨c, hs⟩
  | cons e events ih =>
    obtain ⟨c', hstep⟩ := step_safe e hs
    exact ih hstep

end Host

end Instar.Virtio
