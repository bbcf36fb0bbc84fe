import Instar.Lib.ByteMap

/-!
# Sector devices

A device is read and written one whole sector at a time, and each access may fail.  A byte-range
transfer walks the sectors of the range: a whole sector moves directly, a partial one is read,
patched and written back.  Every write and fsync is kept in the device's journal, so that a crash is
a prefix of the journal: `writeRange_spec` says that each prefix of a range write leaves the range
cut at a sector boundary, and that a write which reports success has copied the whole range.
-/

namespace Instar

open ByteMap

/-- What a device was asked to make persistent, in order. -/
inductive DeviceEvent where
  | write (sector : Nat) (data : ByteMap)
  | fsync

/-- A sector-addressed device: its contents, which sector accesses succeed, what its fsync primitive
answers (`none` without one), and the journal. -/
structure Device where
  sectorSize : Nat
  bytes : ByteMap
  readOk : Nat → Bool
  writeOk : Nat → Bool
  fsyncOk : Option Bool
  journal : List DeviceEvent

/-- A device of 512-byte sectors with the given bytes that never fails. -/
def deviceOf (bytes : ByteMap) : Device :=
  { sectorSize := 512, bytes, readOk := fun _ => true, writeOk := fun _ => true, fsyncOk := none
    journal := [] }

/-- Why a byte-range transfer stopped. -/
inductive RangeFault where
  | readFailed
  | writeFailed
  | overflow
  deriving DecidableEq, Repr

/-- Apply a list of events to the contents of a device with sectors of `ssz` bytes. -/
def replay (ssz : Nat) : List DeviceEvent → ByteMap → ByteMap
  | [], m => m
  | .write sector data :: es, m => replay ssz es (m.splice (sector * ssz) ssz data)
  | .fsync :: es, m => replay ssz es m

theorem replay_append (ssz : Nat) (es es' : List DeviceEvent) (m : ByteMap) :
    replay ssz (es ++ es') m = replay ssz es' (replay ssz es m) := by
  induction es generalizing m with
  | nil => rfl
  | cons e es ih =>
    cases e with
    | write sector data => exact ih _
    | fsync => exact ih _

/-- `m'` is `m` with a leading part of the range write of `src` at `off`: nothing, all of it, or a
part that stops at a sector boundary. -/
def CutOf (ssz off len : Nat) (src m m' : ByteMap) : Prop :=
  ∃ c ≤ len, (c = 0 ∨ c = len ∨ ssz ∣ off + c) ∧ m' = m.splice off c src

theorem CutOf.nothing (ssz off len : Nat) (src m : ByteMap) : CutOf ssz off len src m m :=
  ⟨0, by omega, .inl rfl, by simp⟩

/-- Prepend a piece that ends at a sector boundary to a cut of the rest of the range. -/
theorem CutOf.prepend {ssz off len take : Nat} {src m m' : ByteMap} (htake : take ≤ len)
    (hbound : take = len ∨ ssz ∣ off + take)
    (h : CutOf ssz (off + take) (len - take) (src.drop take) (m.splice off take src) m') :
    CutOf ssz off len src m m' := by
  obtain ⟨c, hc, hend, rfl⟩ := h
  refine ⟨take + c, by omega, ?_, splice_splice m off take c src⟩
  rcases hend with rfl | rfl | hdvd
  · rcases hbound with rfl | hdvd
    · exact .inr (.inl (by omega))
    · exact .inr (.inr (by simpa using hdvd))
  · exact .inr (.inl (by omega))
  · exact .inr (.inr (by rwa [← add_assoc]))

namespace Device

variable {d d' : Device} {src dst : ByteMap} {off len fuel done cur : Nat}
  {r : Except RangeFault Unit} {keep : Nat → Prop}

/-- The device once `es` has reached it. -/
def after (d : Device) (es : List DeviceEvent) : Device :=
  { d with bytes := replay d.sectorSize es d.bytes, journal := d.journal ++ es }

@[simp] theorem after_nil (d : Device) : d.after [] = d := by
  simp [after, replay]

theorem after_after (d : Device) (es es' : List DeviceEvent) :
    (d.after es).after es' = d.after (es ++ es') := by
  simp [after, replay_append]

@[simp] theorem after_sectorSize (d : Device) (es : List DeviceEvent) :
    (d.after es).sectorSize = d.sectorSize := rfl

@[simp] theorem after_bytes (d : Device) (es : List DeviceEvent) :
    (d.after es).bytes = replay d.sectorSize es d.bytes := rfl

/-- Read one whole sector. -/
def readSector (d : Device) (sector : Nat) : Option ByteMap :=
  if d.readOk sector then some (d.bytes.drop (sector * d.sectorSize)) else none

/-- Write one whole sector. -/
def writeSector (d : Device) (sector : Nat) (data : ByteMap) : Option Device :=
  if d.writeOk sector then some (d.after [.write sector data]) else none

/-- Make the device durable, if it can. -/
def fsync (d : Device) : Option Bool × Device :=
  match d.fsyncOk with
  | none => (none, d)
  | some ok => (some ok, d.after [.fsync])

/-- The sector walk of a range read: `done` bytes of `dst` are filled, `cur` is the next device
offset. -/
def readGo (d : Device) (len : Nat) :
    Nat → Nat → Nat → ByteMap → Except RangeFault ByteMap
  | 0, _, _, dst => .ok dst
  | fuel + 1, done, cur, dst =>
    if done < len then
      let sector := cur / d.sectorSize
      let inOff := cur % d.sectorSize
      let take := min (d.sectorSize - inOff) (len - done)
      match d.readSector sector with
      | none => .error .readFailed
      | some bounce =>
        if cur + take < 2 ^ 64 then
          readGo d len fuel (done + take) (cur + take) (dst.splice done take (bounce.drop inOff))
        else .error .overflow
    else .ok dst

/-- Read `len` bytes at `off` into the front of `dst`. -/
def readRange (d : Device) (off len : Nat) (dst : ByteMap) : Except RangeFault ByteMap :=
  d.readGo len len 0 off dst

/-- One sector of a range write: direct when whole and aligned, read-modify-write otherwise. -/
def writePiece (d : Device) (cur take : Nat) (src : ByteMap) : Except RangeFault Device :=
  let sector := cur / d.sectorSize
  let inOff := cur % d.sectorSize
  if inOff = 0 ∧ take = d.sectorSize then
    match d.writeSector sector src with
    | none => .error .writeFailed
    | some d => .ok d
  else
    match d.readSector sector with
    | none => .error .readFailed
    | some bounce =>
      match d.writeSector sector (bounce.splice inOff take src) with
      | none => .error .writeFailed
      | some d => .ok d

/-- The sector walk of a range write. -/
def writeGo (src : ByteMap) (len : Nat) :
    Nat → Nat → Nat → Device → Except RangeFault Unit × Device
  | 0, _, _, d => (.ok (), d)
  | fuel + 1, done, cur, d =>
    if done < len then
      let take := min (d.sectorSize - cur % d.sectorSize) (len - done)
      match d.writePiece cur take (src.drop done) with
      | .error e => (.error e, d)
      | .ok d =>
        if cur + take < 2 ^ 64 then writeGo src len fuel (done + take) (cur + take) d
        else (.error .overflow, d)
    else (.ok (), d)

/-- Write the first `len` bytes of `src` at `off`. -/
def writeRange (d : Device) (off len : Nat) (src : ByteMap) : Except RangeFault Unit × Device :=
  writeGo src len len 0 off d

/-! ## Reads -/

/-- A read walk that succeeds has copied the rest of the range. -/
theorem readGo_ok {r : ByteMap} (hs : 0 < d.sectorSize) (hdone : done ≤ len)
    (hfuel : len - done ≤ fuel)
    (h : d.readGo len fuel done cur dst = .ok r) :
    r = dst.splice done (len - done) (d.bytes.drop cur) := by
  induction fuel generalizing done cur dst with
  | zero =>
    have hlen : len - done = 0 := by omega
    simp only [readGo, Except.ok.injEq] at h
    rw [hlen, splice_zero, h]
  | succ fuel ih =>
    by_cases hlt : done < len
    · have hin : cur % d.sectorSize < d.sectorSize := Nat.mod_lt _ hs
      simp only [readGo, hlt, if_true, readSector] at h
      by_cases hr : d.readOk (cur / d.sectorSize)
      · simp only [hr, if_true] at h
        split at h
        · rw [ih (by omega) (by omega) h, drop_drop, Nat.div_add_mod']
          generalize htake : min (d.sectorSize - cur % d.sectorSize) (len - done) = take
          have hsplit : len - done = take + (len - (done + take)) := by omega
          rw [hsplit, ← splice_splice, drop_drop]
        · cases h
      · simp [hr] at h
    · have hlen : len - done = 0 := by omega
      simp only [readGo, hlt, if_false, Except.ok.injEq] at h
      rw [hlen, splice_zero, h]

/-- A range read that succeeds returns the device's bytes. -/
theorem readRange_ok {r : ByteMap} (hs : 0 < d.sectorSize) (h : d.readRange off len dst = .ok r) :
    r = dst.splice 0 len (d.bytes.drop off) := by
  simpa using readGo_ok hs (by omega) (by omega) h

/-! ## Writes -/

/-- One piece that is written is one sector write with the effect of a splice. -/
theorem writePiece_ok {take : Nat} (htake : cur % d.sectorSize + take ≤ d.sectorSize)
    (h : d.writePiece cur take src = .ok d') :
    ∃ data, d' = d.after [.write (cur / d.sectorSize) data] ∧
    d'.bytes = d.bytes.splice cur take src := by
  have hcur : cur / d.sectorSize * d.sectorSize + cur % d.sectorSize = cur :=
    Nat.div_add_mod' cur d.sectorSize
  unfold writePiece writeSector readSector at h
  dsimp only at h
  split at h
  case isTrue hwhole =>
    by_cases hw : d.writeOk (cur / d.sectorSize)
    · simp only [hw, if_true, Except.ok.injEq] at h
      refine ⟨src, h.symm, ?_⟩
      rw [hwhole.1, add_zero] at hcur
      rw [← h, after_bytes, replay, replay, hcur, hwhole.2]
    · simp [hw] at h
  case isFalse =>
    by_cases hr : d.readOk (cur / d.sectorSize)
    · by_cases hw : d.writeOk (cur / d.sectorSize)
      · simp only [hr, hw, if_true, Except.ok.injEq] at h
        refine ⟨_, h.symm, ?_⟩
        rw [← h, after_bytes, replay, replay, splice_of_piece _ _ _ _ _ _ htake, hcur]
      · simp [hr, hw] at h
    · simp [hr] at h

/-- What a write walk does, however it ends: each prefix of the sector writes it appends to the
journal leaves the range cut at a sector boundary, and success means the whole range. -/
theorem writeGo_spec (hs : 0 < d.sectorSize) (hdone : done ≤ len)
    (hfuel : len - done ≤ fuel) (h : writeGo src len fuel done cur d = (r, d')) :
    ∃ es, d' = d.after es ∧ (∀ k, CutOf d.sectorSize cur (len - done) (src.drop done) d.bytes
        (replay d.sectorSize (es.take k) d.bytes)) ∧
      (r = .ok () → d'.bytes = d.bytes.splice cur (len - done) (src.drop done)) := by
  induction fuel generalizing done cur d with
  | zero =>
    have hlen : len - done = 0 := by omega
    simp only [writeGo, Prod.mk.injEq] at h
    refine ⟨[], by simp [h.2], fun k => by simpa [replay] using CutOf.nothing .., fun _ => ?_⟩
    rw [hlen, splice_zero, h.2]
  | succ fuel ih =>
    by_cases hlt : done < len
    · have hin : cur % d.sectorSize < d.sectorSize := Nat.mod_lt _ hs
      simp only [writeGo, hlt, if_true] at h
      generalize htake : min (d.sectorSize - cur % d.sectorSize) (len - done) = take at h
      cases hp : d.writePiece cur take (src.drop done) with
      | error e =>
        simp only [hp, Prod.mk.injEq] at h
        refine ⟨[], by simp [h.2], fun k => by simpa [replay] using CutOf.nothing .., ?_⟩
        intro hr
        rw [← h.1] at hr
        cases hr
      | ok d1 =>
        obtain ⟨data, hd1, hbytes⟩ := writePiece_ok (by omega) hp
        have hbound : take = len - done ∨ d.sectorSize ∣ cur + take := by
          by_cases hle : len - done ≤ d.sectorSize - cur % d.sectorSize
          · exact .inl (by omega)
          · refine .inr ⟨cur / d.sectorSize + 1, ?_⟩
            have := Nat.div_add_mod cur d.sectorSize
            rw [mul_add]
            omega
        have hpiece : replay d.sectorSize [.write (cur / d.sectorSize) data] d.bytes
            = d.bytes.splice cur take (src.drop done) := by
          rw [← hbytes, hd1, after_bytes]
        have hfirst : CutOf d.sectorSize cur (len - done) (src.drop done) d.bytes
            (d.bytes.splice cur take (src.drop done)) :=
          ⟨take, by omega, by omega, rfl⟩
        simp only [hp] at h
        split at h
        · obtain ⟨es, hd', hcut, hok⟩ := ih (by rw [hd1]; exact hs) (by omega) (by omega) h
          rw [hd1, after_sectorSize] at hcut
          rw [← hd1, hbytes, ← Nat.sub_sub, ← drop_drop] at hcut
          refine ⟨.write (cur / d.sectorSize) data :: es, ?_, ?_, ?_⟩
          · rw [hd', hd1, after_after]
            rfl
          · intro k
            cases k with
            | zero => exact CutOf.nothing ..
            | succ k =>
              have hreplay : replay d.sectorSize
                  ((DeviceEvent.write (cur / d.sectorSize) data :: es).take (k + 1)) d.bytes
                  = replay d.sectorSize (es.take k) (d.bytes.splice cur take (src.drop done)) := by
                rw [← hpiece]
                rfl
              rw [hreplay]
              exact CutOf.prepend (by omega) hbound (hcut k)
          · intro hr
            have hsplit : len - done = take + (len - (done + take)) := by omega
            rw [hok hr, hbytes, hsplit, ← splice_splice, drop_drop]
        · simp only [Prod.mk.injEq] at h
          refine ⟨[.write (cur / d.sectorSize) data], by rw [← h.2, hd1], ?_, ?_⟩
          · intro k
            cases k with
            | zero => exact CutOf.nothing ..
            | succ k =>
              rw [List.take_succ_cons, List.take_nil, hpiece]
              exact hfirst
          · intro hr
            rw [← h.1] at hr
            cases hr
    · have hlen : len - done = 0 := by omega
      simp only [writeGo, hlt, if_false, Prod.mk.injEq] at h
      refine ⟨[], by simp [h.2], fun k => by simpa [replay] using CutOf.nothing .., fun _ => ?_⟩
      rw [hlen, splice_zero, h.2]

/-- What a range write does, however it ends. -/
theorem writeRange_spec (hs : 0 < d.sectorSize)
    (h : d.writeRange off len src = (r, d')) : ∃ es, d' = d.after es ∧
      (∀ k, CutOf d.sectorSize off len src d.bytes (replay d.sectorSize (es.take k) d.bytes)) ∧
      (r = .ok () → d'.bytes = d.bytes.splice off len src) := by
  simpa using writeGo_spec hs (by omega) (by omega) h

/-! ## What a run of events leaves alone -/

/-- The device got from one state to the other by events no prefix of which changes a byte in
`keep`. -/
def Spares (keep : Nat → Prop) (d d' : Device) : Prop :=
  ∃ es, d' = d.after es ∧ ∀ k b, keep b → replay d.sectorSize (es.take k) d.bytes b = d.bytes b

theorem Spares.refl (keep : Nat → Prop) (d : Device) : Spares keep d d :=
  ⟨[], by simp, fun k b _ => by rw [List.take_nil]; rfl⟩

theorem Spares.bytes (h : Spares keep d d') {b : Nat} (hb : keep b) : d'.bytes b = d.bytes b := by
  obtain ⟨es, rfl, hspare⟩ := h
  have := hspare es.length b hb
  rwa [List.take_length] at this

theorem Spares.trans {d'' : Device} (h : Spares keep d d') (h' : Spares keep d' d'') :
    Spares keep d d'' := by
  have hbytes : ∀ b, keep b → d'.bytes b = d.bytes b := fun b hb => h.bytes hb
  obtain ⟨es, rfl, hspare⟩ := h
  obtain ⟨es', rfl, hspare'⟩ := h'
  refine ⟨es ++ es', after_after d es es', fun k b hb => ?_⟩
  by_cases hk : k ≤ es.length
  · rw [List.take_append_of_le_length hk]
    exact hspare k b hb
  · rw [List.take_append, List.take_of_length_le (by omega), replay_append]
    exact (hspare' _ b hb).trans (hbytes b hb)

theorem Spares.mono {keep' : Nat → Prop} (h : Spares keep d d')
    (hkeep : ∀ b, keep' b → keep b) : Spares keep' d d' := by
  obtain ⟨es, hd, hspare⟩ := h
  exact ⟨es, hd, fun k b hb => hspare k b (hkeep b hb)⟩

/-- A range write, cut anywhere, leaves the bytes outside its range alone. -/
theorem spares_of_cut {es : List DeviceEvent} (hd : d' = d.after es)
    (hcut : ∀ k, CutOf d.sectorSize off len src d.bytes (replay d.sectorSize (es.take k) d.bytes))
    (hkeep : ∀ b, keep b → ¬ (off ≤ b ∧ b < off + len)) : Spares keep d d' := by
  refine ⟨es, hd, fun k b hb => ?_⟩
  obtain ⟨c, hc, -, heq⟩ := hcut k
  have := hkeep b hb
  rw [heq, splice_outside (by omega)]

theorem fsync_spares (keep : Nat → Prop) (d : Device) : Spares keep d d.fsync.2 := by
  unfold fsync
  cases d.fsyncOk with
  | none => exact Spares.refl keep d
  | some ok =>
    refine ⟨[.fsync], rfl, fun k b _ => ?_⟩
    cases k with
    | zero => rfl
    | succ k =>
      rw [List.take_succ_cons, List.take_nil]
      rfl

end Device

end Instar
