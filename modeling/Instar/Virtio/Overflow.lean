import Instar.Virtio.Driver

/-!
# The arithmetic of the device

In a build with overflow checks a sum, product or index that leaves its type panics, and the io
thread with it.  `Host.check` notes every unchecked one of `mmio_write`, `process_queue`,
`process_request`, `read_descriptor`, `do_read` and `read_at`; `do_write` and `write_at` have none.
A successful access to guest memory bounds the two rings, and the registers keep their widths.
Nothing bounds the descriptor table, nor the length of a data descriptor that is only passed on to
the used ring.
-/

namespace Instar.Virtio

open Attempt

variable {M : Type} {g : GuestMemory M}

/-- Guest memory ends in the lower half of the address space. -/
def Small (g : GuestMemory M) : Prop :=
  ∀ addr len m b, (g.read addr len m).1 = .ok b → addr + len ≤ 2 ^ 63

/-- The two overflows a guest can reach: the address of a descriptor it has the device fetch, and
the length of a request that is answered. -/
def Trace.Overflows (t : Trace M) : Prop :=
  (∃ a ∈ t.fetched, 2 ^ 64 ≤ a) ∨ 2 ^ 32 - 1 ∈ t.answered

/-- The registers fit their widths, and the overflows noted are the two. -/
structure Host.Sound (h : Host M) : Prop where
  num : h.device.state.queue.num ≤ 256
  fits : h.device.state.Fits
  sectorSize : h.device.sectorSize ≠ 0
  exact : h.trace.overflowed = true ↔ h.trace.Overflows

namespace Host

variable {α : Type} {Q : α → Prop} {h : Host M} {table index queueSize : Nat}

/-! ## Requests -/

/-- Arithmetic that is in range is not noted. -/
theorem check_sound {c : Prop} [Decidable c] (hc : c) :
    Attempt.Keeps (Sound (M := M)) (check c) := by
  intro h hs
  have hsame : (check c h).2.trace = h.trace := by
    show { h.trace with overflowed := h.trace.overflowed || !decide c } = _
    rw [decide_eq_true hc]
    simp
  exact { hs with exact := hsame ▸ hs.exact }

theorem checked {c : Prop} [Decidable c] {m : Attempt Fault (Host M) α} (hc : c)
    (hm : Ensures Sound m Q) : Ensures Sound (check c >>= fun _ => m) Q :=
  (check_sound hc).ensures.bind fun _ _ => hm

/-- Something is noted together with the arithmetic on it. -/
theorem noted {F : Trace M → Trace M} {c : Prop} [Decidable c] {m : Attempt Fault (Host M) α}
    (hF : ∀ t : Trace M, (t.overflowed = true ↔ t.Overflows) →
      (((F t).overflowed || !decide c) = true ↔ (F t).Overflows))
    (hm : Ensures Sound m Q) : Ensures Sound (note F >>= fun _ => check c >>= fun _ => m) Q :=
  fun h hs => hm _ { hs with exact := hF h.trace hs.exact }

theorem store_sound (addr len : Nat) (buf : ByteMap) :
    Ensures Sound (store g addr len buf) fun _ => True :=
  Keeps.ensures fun _ hs => { hs with }

section

variable (hsmall : Small g)

include hsmall

/-- An access that succeeds lies inside guest memory. -/
theorem load_sound (addr len : Nat) :
    Ensures Sound (load g addr len) fun _ => addr % 2 ^ 64 + len ≤ 2 ^ 63 :=
  fun _ hs => ⟨{ hs with }, fun b hb => hsmall _ _ _ b hb⟩

theorem readDescriptor_sound :
    Ensures Sound (readDescriptor g table index queueSize) fun desc => desc.len < 2 ^ 32 := by
  refine Ensures.require.bind fun _ _ => noted (fun t ht => ?_) ?_
  · simp only [Trace.Overflows, List.mem_cons, Bool.or_eq_true, ht, Bool.not_eq_true',
      decide_eq_false_iff_not, Nat.not_lt, exists_eq_or_imp]
    exact or_comm.trans or_assoc.symm
  · exact (load_sound hsmall _ _).bind fun obj _ => .pure (obj.le_lt 8 4)

omit hsmall in
theorem doRead_sound (sector addr len : Nat) :
    Ensures Sound (doRead g sector addr len) fun _ => True := by
  refine .get_bind fun h _ => ?_
  cases h.device.validateIoRequest sector len with
  | none => exact .pure trivial
  | some offset =>
    refine (Keeps.ensures fun _ hs => { hs with }).bind fun _ _ => checked ?_ ?_
    · intro hin hout
      omega
    · exact Keeps.ofExcept.ensures.bind fun _ _ => (store_sound _ _ _).bind fun _ _ => .pure trivial

theorem doWrite_sound (sector addr len : Nat) :
    Ensures Sound (doWrite g sector addr len) fun _ => True := by
  refine .get_bind fun h _ => ?_
  cases h.device.validateIoRequest sector len with
  | none => exact .pure trivial
  | some offset =>
    refine (Keeps.ensures fun _ hs => { hs with }).bind fun _ _ => (load_sound hsmall _ _).bind
      fun _ _ => (Keeps.ensures fun _ hs => { hs with }).bind fun _ _ => .pure trivial

omit hsmall in
theorem tally_sound {len : Nat} {stats : Nat → Nat → IoStats} (status : RequestStatus)
    (hstats : ∀ sectors ≤ len, (stats len sectors).AtMost len) :
    Ensures (Sound (M := M)) (tally len stats status) fun done => done.2.AtMost len := by
  refine .get_bind fun h hs => ?_
  split
  · exact checked hs.sectorSize
      (.pure (hstats _ (divCeil_le len (Nat.pos_of_ne_zero hs.sectorSize))))
  · exact .pure ⟨Nat.zero_le _, Nat.zero_le _, Nat.zero_le _, Nat.zero_le _⟩

theorem dispatch_sound (type sector : Nat) (data : VirtqDesc) :
    Ensures Sound (dispatch g type sector data) fun done => done.2.AtMost data.len := by
  have hnone : IoStats.AtMost data.len {} :=
    ⟨Nat.zero_le _, Nat.zero_le _, Nat.zero_le _, Nat.zero_le _⟩
  have hread : Ensures Sound (watched sector data.addr data.len
      (doRead g sector data.addr data.len)) fun _ => True :=
    Keeps.ensures fun h hs =>
      { (doRead_sound sector data.addr data.len h hs).1 with }
  refine .get_bind fun h _ => ?_
  split
  · split
    · exact hread.bind fun status _ => tally_sound status fun sectors hle =>
        ⟨le_rfl, Nat.zero_le _, hle, Nat.zero_le _⟩
    · exact .pure hnone
  · split
    · exact .pure hnone
    · exact (doWrite_sound hsmall _ _ _).bind fun status _ => tally_sound status fun sectors hle =>
        ⟨Nat.zero_le _, le_rfl, Nat.zero_le _, hle⟩
  · exact .pure hnone
  · exact .pure hnone

theorem putStatus_sound {data : VirtqDesc} (hdata : data.len < 2 ^ 32) (status : RequestStatus) :
    Ensures Sound (putStatus g table queueSize data status) fun _ => True := by
  refine checked (by omega) (Ensures.require.bind fun _ _ =>
    (readDescriptor_sound hsmall).bind fun _ _ => (store_sound _ _ _).bind fun _ _ =>
    noted (fun t ht => ?_) (.pure trivial))
  have hlen : 2 ^ 32 ≤ data.len + 1 ↔ 2 ^ 32 - 1 = data.len := by omega
  simp only [Trace.Overflows, List.mem_cons, Bool.or_eq_true, ht, Bool.not_eq_true',
    decide_eq_false_iff_not, Nat.not_lt, hlen]
  exact or_assoc.trans (or_congr_right or_comm)

theorem processRequest_sound :
    Ensures Sound (processRequest g table index queueSize) fun done => done.2.AtMost (2 ^ 32) :=
  (readDescriptor_sound hsmall).bind fun _ _ => (load_sound hsmall _ _).bind fun _ _ =>
    Ensures.require.bind fun _ _ => (readDescriptor_sound hsmall).bind fun _ hdata =>
    (dispatch_sound hsmall _ _ _).bind fun _ hdone =>
    (putStatus_sound hsmall hdata _).bind fun _ _ => .pure (hdone.mono hdata.le)

/-! ## The queue loop -/

section

variable {q : VirtqueueState} (hnum : q.num ≤ 256) (hpos : q.num ≠ 0)
  (hdevice : q.deviceAddr < 2 ^ 64) (hring : q.driverAddr + 4 ≤ 2 ^ 63)

include hnum hpos hdevice

theorem putUsed_sound (index written : Nat) :
    Ensures Sound (putUsed g q index written) fun _ => True := by
  refine (load_sound hsmall _ _).bind fun used hin => ?_
  rw [Nat.mod_eq_of_lt hdevice] at hin
  have hslot : used.le 2 2 % q.num < q.num := Nat.mod_lt _ (Nat.pos_of_ne_zero hpos)
  exact checked ⟨hpos, by omega⟩ ((store_sound _ _ _).bind fun _ _ =>
    checked (by omega) (store_sound _ _ _))

include hring

/-- A round adds at most 2^32 to each counter. -/
theorem round_sound (last : UInt16) {stats : IoStats} {n : Nat} (hstats : stats.AtMost n)
    (hn : n + 2 ^ 32 < 2 ^ 64) :
    Ensures Sound (round g q last stats) fun total => total.AtMost (n + 2 ^ 32) := by
  have hslot : last.toNat % q.num < q.num := Nat.mod_lt _ (Nat.pos_of_ne_zero hpos)
  refine (Keeps.ensures fun _ hs => { hs with }).bind fun _ _ => checked ⟨hpos, by omega⟩ ?_
  refine (load_sound hsmall _ _).bind fun _ _ =>
    (processRequest_sound hsmall).bind fun done hdone => ?_
  have htotal : (stats.add done.2).AtMost (n + 2 ^ 32) := by
    obtain ⟨h1, h2, h3, h4⟩ := hstats
    obtain ⟨k1, k2, k3, k4⟩ := hdone
    exact ⟨Nat.add_le_add h1 k1, Nat.add_le_add h2 k2, Nat.add_le_add h3 k3, Nat.add_le_add h4 k4⟩
  exact checked (htotal.mono (by omega)) ((putUsed_sound hsmall hnum hpos hdevice _ _).bind
    fun _ _ => .pure htotal)

/-- The loop makes as many rounds as the two indices are apart, which is too few for a counter to
overflow. -/
theorem serve_sound (idx last : UInt16) {stats : IoStats} {n : Nat} (hstats : stats.AtMost n)
    (hn : n + (idx - last).toNat * 2 ^ 32 < 2 ^ 64) :
    Ensures Sound (serve g q idx last stats) fun _ => True := by
  induction hd : (idx - last).toNat generalizing last stats n with
  | zero =>
    rw [serve, if_pos (by_contra fun hne => by have := distance_succ hne; omega)]
    exact .pure trivial
  | succ k ih =>
    have hne : ¬ last = idx := by
      rintro rfl
      simp at hd
    have hstep := distance_succ hne
    rw [serve, if_neg hne]
    exact (round_sound hsmall hnum hpos hdevice hring last hstats (by omega)).bind
      fun total htotal => ih (last + 1) htotal (by omega) (by omega)

end

/-! ## Notifications and registers -/

theorem processQueue_sound : Attempt.Keeps Sound (processQueue g) := by
  refine Ensures.keeps (Q := fun _ => True) ?_
  refine (Keeps.ensures fun _ hs => { hs with }).bind fun _ _ => .get_bind fun h hs => ?_
  dsimp only
  split
  · exact .pure trivial
  next hready =>
    obtain ⟨-, -, -, -, -, -, hdriver, hdevice⟩ := hs.fits
    refine (load_sound hsmall _ _).bind fun avail hring => ?_
    rw [Nat.mod_eq_of_lt hdriver] at hring
    have hfew := (UInt16.ofNat (avail.le 2 2) - h.device.state.queue.lastAvailIdx).toNat_lt
    refine (serve_sound hsmall hs.num (fun hzero => hready (.inr hzero)) hdevice hring _ _
      (n := 0) ⟨le_rfl, le_rfl, le_rfl, le_rfl⟩ (by omega)).bind fun done _ => ?_
    refine (Keeps.ensures fun h hs => ?_).bind fun _ _ => .pure trivial
    obtain ⟨hfeatures, hstatus, hinterrupt, hrest⟩ := hs.fits
    exact { hs with fits := ⟨hfeatures, hstatus, Nat.or_lt_two_pow hinterrupt (by decide), hrest⟩ }

omit hsmall in
theorem setLow_lt {reg value : Nat} (hreg : reg < 2 ^ 64) (hvalue : value < 2 ^ 32) :
    setLow reg value < 2 ^ 64 := by
  unfold setLow
  omega

omit hsmall in
theorem setHigh_lt {reg value : Nat} (hvalue : value < 2 ^ 32) : setHigh reg value < 2 ^ 64 := by
  unfold setHigh
  omega

omit hsmall in
/-- A write leaves values of their width in the registers, and a queue size the device takes. -/
theorem fits_mmioWrite {s : MmioState} {value : Nat} (offset : Nat) (hvalue : value < 2 ^ 32)
    (hs : s.Fits) (hnum : s.queue.num ≤ 256) :
    (s.mmioWrite offset value).Fits ∧ (s.mmioWrite offset value).queue.num ≤ 256 := by
  obtain ⟨hfeatures, hstatus, hinterrupt, hsel, hn, hdesc, hdriver, hdevice⟩ := hs
  unfold MmioState.mmioWrite
  split
  · exact ⟨⟨hfeatures, hstatus, hinterrupt, hsel, hn, hdesc, hdriver, hdevice⟩, hnum⟩
  · refine ⟨⟨?_, hstatus, hinterrupt, hsel, hn, hdesc, hdriver, hdevice⟩, hnum⟩
    show (if _ then _ else _) < _
    split
    · exact setLow_lt hfeatures hvalue
    · exact setHigh_lt hvalue
  · exact ⟨⟨hfeatures, hstatus, hinterrupt, hsel, hn, hdesc, hdriver, hdevice⟩, hnum⟩
  · exact ⟨⟨hfeatures, hstatus, hinterrupt, Nat.mod_lt _ Nat.one_pos, hn, hdesc, hdriver, hdevice⟩,
      hnum⟩
  · exact ⟨⟨hfeatures, hstatus, hinterrupt, hsel, hn, hdesc, hdriver, hdevice⟩, hnum⟩
  · exact ⟨⟨hfeatures, hstatus, Nat.and_le_left.trans_lt hinterrupt, hsel, hn, hdesc, hdriver,
      hdevice⟩, hnum⟩
  · split
    · exact ⟨by decide, by decide⟩
    · exact ⟨⟨hfeatures, Nat.mod_lt _ (by decide), hinterrupt, hsel, hn, hdesc, hdriver, hdevice⟩,
        hnum⟩
  · have hqueue : (s.queue.mmioWrite offset value).num ≤ 256 ∧
        (s.queue.mmioWrite offset value).descAddr < 2 ^ 64 ∧
        (s.queue.mmioWrite offset value).driverAddr < 2 ^ 64 ∧
        (s.queue.mmioWrite offset value).deviceAddr < 2 ^ 64 := by
      unfold VirtqueueState.mmioWrite
      split
      · split
        · exact ⟨hnum, hdesc, hdriver, hdevice⟩
        · exact ⟨by show value ≤ 256; omega, hdesc, hdriver, hdevice⟩
      · exact ⟨hnum, hdesc, hdriver, hdevice⟩
      · exact ⟨hnum, setLow_lt hdesc hvalue, hdriver, hdevice⟩
      · exact ⟨hnum, setHigh_lt hvalue, hdriver, hdevice⟩
      · exact ⟨hnum, hdesc, setLow_lt hdriver hvalue, hdevice⟩
      · exact ⟨hnum, hdesc, setHigh_lt hvalue, hdevice⟩
      · exact ⟨hnum, hdesc, hdriver, setLow_lt hdevice hvalue⟩
      · exact ⟨hnum, hdesc, hdriver, setHigh_lt hvalue⟩
      · exact ⟨hnum, hdesc, hdriver, hdevice⟩
    exact ⟨⟨hfeatures, hstatus, hinterrupt, hsel, hqueue.1.trans_lt (by decide), hqueue.2⟩,
      hqueue.1⟩

theorem step_sound (e : GuestEvent M) (hs : h.Sound) : (h.step g e).Sound := by
  cases e with
  | registerWrite offset value =>
    obtain ⟨hfits, hnum⟩ := fits_mmioWrite offset.toNat value.toNat_lt hs.fits hs.num
    have hwritten : Sound { h with device := h.device.mmioWrite offset.toNat value.toNat } :=
      { hs with num := hnum, fits := hfits }
    exact check_sound hfits _ hwritten
  | memory content => exact { hs with }
  | notify => exact processQueue_sound hsmall h hs

theorem run_sound (events : List (GuestEvent M)) (hs : h.Sound) :
    (events.foldl (step g) h).Sound := by
  induction events generalizing h with
  | nil => exact hs
  | cons e events ih => exact ih (step_sound hsmall e hs)

end

end Host

/-- The events of a guest that puts the descriptor table of a queue at `table` and its rings at
0x1000 and 0x2000, fills memory with `content` and notifies the queue. -/
def queueAt (table : Nat) (content : ByteMap) : List (GuestEvent ByteMap) :=
  [.registerWrite 0x038 256, .registerWrite 0x080 (.ofNat table),
    .registerWrite 0x084 (.ofNat (table / 2 ^ 32)), .registerWrite 0x090 0x1000,
    .registerWrite 0x0A0 0x2000, .registerWrite 0x044 1, .memory content, .notify]

/-- A device of one sector after these events. -/
def afterQueueAt (table : Nat) (content : ByteMap) : Host ByteMap :=
  (queueAt table content).foldl (Host.step (ram 0))
    { device := .new (Opening.store ⟨fun _ => 0, 512⟩ (.plain true none false)) 512 512 true
      memory := fun _ => 0 }

/-- One request with the descriptors 1, 2 and 3 of the table, and a data descriptor of length
`len`. -/
def oneRequest (table len : Nat) : ByteMap :=
  ((((ByteMap.splice (fun _ => 0) 0x1002 3 fun i => if i = 1 then 0 else 1).splice
    (table + 16) 16 (VirtqDesc.bytes ⟨0x3000, 16, 1, 2⟩)).splice
    (table + 32) 16 (VirtqDesc.bytes ⟨0x4000, len, 3, 3⟩)).splice
    (table + 48) 16 (VirtqDesc.bytes ⟨0x3800, 1, 2, 0⟩))

theorem small_ram (extra : Nat) (hextra : extra ≤ 2 ^ 62) : Small (ram extra) := by
  intro addr len m b hok
  dsimp only [ram] at hok
  split at hok
  · omega
  · cases hok

end Instar.Virtio
