import Instar.Write.Effect

/-!
# The byte-range layer is a byte array

`read_bytes`, `write_bytes` and `fill_bytes` of the executor, called one after the other on ranges
of 64-bit offsets: a sequence of calls does to the device, and returns, what it does on a flat
array, unless a sector of one of the ranges cannot be read or written.
-/

namespace Instar.Write

open ByteMap

variable {d d' : Device} {off len rmwLen fillLen : Nat} {src dst : ByteMap} {byte : UInt8}

/-! ## Failures -/

/-- The cause is a sector of the range that could not be read or written. -/
def Blames (d : Device) (off len : Nat) (e : ExecCause) : Prop :=
  ∃ s, off / d.sectorSize ≤ s ∧ s * d.sectorSize < off + len ∧
    (e = .readFailed ∧ d.readOk s = false ∨ e = .writeFailed ∧ d.writeOk s = false)

section

variable {off' len' fuel done : Nat} {e : ExecCause} {fault : RangeFault}

theorem Blames.sub (h : Blames d off' len' e) (hlo : off ≤ off') (hhi : off' + len' ≤ off + len) :
    Blames d off len e := by
  obtain ⟨s, hs, hlt, hcause⟩ := h
  exact ⟨s, (Nat.div_le_div_right hlo).trans hs, by omega, hcause⟩

theorem Blames.first (hlen : 0 < len) (h : e = .readFailed ∧ d.readOk (off / d.sectorSize) = false ∨
    e = .writeFailed ∧ d.writeOk (off / d.sectorSize) = false) : Blames d off len e := by
  have := Nat.div_mul_le_self off d.sectorSize
  exact ⟨_, le_rfl, by omega, h⟩

variable (hfits : off + (len - done) < 2 ^ 64)

include hfits

/-- A walk over 64-bit offsets fails only where a sector does. -/
theorem readGo_fault (h : d.readGo len fuel done off dst = .error fault) :
    Blames d off (len - done) (causeOf fault) := by
  induction fuel generalizing done off dst with
  | zero => cases h
  | succ fuel ih =>
    unfold Device.readGo Device.readSector at h
    split at h
    case isFalse => cases h
    case isTrue hlt =>
      cases hr : d.readOk (off / d.sectorSize) with
      | false =>
        simp only [hr, Bool.false_eq_true, if_false, Except.error.injEq] at h
        exact .first (by omega) (.inl ⟨by rw [← h]; rfl, hr⟩)
      | true =>
        simp only [hr, if_true] at h
        rw [if_pos (by omega)] at h
        exact (ih (by omega) h).sub (by omega) (by omega)

theorem writeGo_fault (hs : 0 < d.sectorSize)
    (h : Device.writeGo src len fuel done off d = (.error fault, d')) :
    Blames d off (len - done) (causeOf fault) := by
  induction fuel generalizing done off d with
  | zero => cases h
  | succ fuel ih =>
    have hin := Nat.mod_lt off hs
    unfold Device.writeGo at h
    split at h
    case isFalse => cases h
    case isTrue hlt =>
      dsimp only at h
      generalize htake : min (d.sectorSize - off % d.sectorSize) (len - done) = take at h
      cases hp : d.writePiece off take (src.drop done) with
      | error fault' =>
        rw [hp] at h
        cases h
        refine .first (by omega) ?_
        grind [Device.writePiece, Device.readSector, Device.writeSector, causeOf]
      | ok d1 =>
        obtain ⟨data, rfl, -⟩ := Device.writePiece_ok (by omega) hp
        rw [hp] at h
        dsimp only at h
        rw [if_pos (by omega)] at h
        have hrest := ih (by omega) (by exact hs) h
        exact Blames.sub (d := d) hrest (by omega) (by omega)

omit hfits

theorem readBytes_fault (hfits : off + len < 2 ^ 64) (hs : 0 < d.sectorSize)
    (hrmw : d.sectorSize ≤ rmwLen)
    (h : readBytes d off len rmwLen dst = .error e) : Blames d off len e := by
  unfold readBytes at h
  split at h
  · cases h
  · rw [if_neg (by omega)] at h
    split at h
    · next fault hread =>
      cases h
      exact readGo_fault hfits hread
    · cases h

theorem writeBytes_fault (hfits : off + len < 2 ^ 64) (hs : 0 < d.sectorSize)
    (hrmw : d.sectorSize ≤ rmwLen)
    (h : writeBytes d off len rmwLen src = (.error e, d')) : Blames d off len e := by
  unfold writeBytes at h
  split at h
  · cases h
  · rw [if_neg (by omega)] at h
    split at h
    · next fault d1 hwrite =>
      cases h
      exact writeGo_fault hfits hs hwrite
    · cases h

theorem fillGo_fault (hfits : off + len < 2 ^ 64) (hs : 0 < d.sectorSize)
    (hrmw : d.sectorSize ≤ rmwLen)
    (h : fillGo off len rmwLen byte fuel done d = (.error e, d')) : Blames d off len e := by
  induction fuel generalizing done d with
  | zero => cases h
  | succ fuel ih =>
    unfold fillGo at h
    split at h
    case isFalse => cases h
    case isTrue hlt =>
      dsimp only at h
      rw [if_neg (by omega)] at h
      split at h
      · next e' d1 hwrite =>
        cases h
        exact (writeBytes_fault (by omega) hs hrmw hwrite).sub (by omega) (by omega)
      · next d1 hwrite =>
        obtain ⟨es, rfl, -⟩ := writeBytes_spec hwrite
        exact ih (d := d.after es) hs hrmw h

end

theorem fillBytes_after {res : Except ExecCause Unit}
    (h : fillBytes d off len byte fillLen rmwLen = (res, d')) : ∃ es, d' = d.after es := by
  have hspares : d.Spares (fun _ => False) d' := fillBytes_spares h fun _ hb => hb.elim
  grind [Device.Spares]

/-! ## Sequences of calls -/

/-- A call of the byte-range layer. -/
inductive ByteOp where
  | read (off len : Nat) (dst : ByteMap)
  | write (off len : Nat) (src : ByteMap)
  | fill (off len : Nat) (byte : UInt8)

namespace ByteOp

/-- The range of a call. -/
def range : ByteOp → Nat × Nat
  | .read off len _ | .write off len _ | .fill off len _ => (off, len)

/-- The call on a flat array; `s.2` is what was read before. -/
def onArray (s : ByteMap × List ByteMap) : ByteOp → ByteMap × List ByteMap
  | .read off len dst => (s.1, s.2 ++ [dst.splice 0 len (s.1.drop off)])
  | .write off len src => (s.1.splice off len src, s.2)
  | .fill off len byte => (s.1.splice off len fun _ => byte, s.2)

/-- The call on a device, with service sectors of these lengths. -/
def run (rmwLen fillLen : Nat) (d : Device) (out : List ByteMap) :
    ByteOp → Except ExecCause (List ByteMap) × Device
  | .read off len dst =>
    match readBytes d off len rmwLen dst with
    | .ok bytes => (.ok (out ++ [bytes]), d)
    | .error e => (.error e, d)
  | .write off len src =>
    match writeBytes d off len rmwLen src with
    | (.ok (), d) => (.ok out, d)
    | (.error e, d) => (.error e, d)
  | .fill off len byte =>
    match fillBytes d off len byte fillLen rmwLen with
    | (.ok (), d) => (.ok out, d)
    | (.error e, d) => (.error e, d)

variable {op : ByteOp} {out out' : List ByteMap} {e : ExecCause}

/-- A call that succeeds does to the device what it does to the array. -/
theorem run_ok (h : op.run rmwLen fillLen d out = (.ok out', d')) :
    (∃ es, d' = d.after es) ∧ (d'.bytes, out') = op.onArray (d.bytes, out) := by
  cases op with
  | read off len dst =>
    have hsame : d = d.after [] := d.after_nil.symm
    grind [run, onArray, readBytes_ok]
  | write off len src => grind [run, onArray, writeBytes_ok, writeBytes_spec]
  | fill off len byte =>
    grind [run, onArray, fillBytes_ok, fillBytes_after]

/-- A call on 64-bit offsets fails only where a sector does. -/
theorem run_fault (hs : 0 < d.sectorSize) (hrmw : d.sectorSize ≤ rmwLen)
    (hfill : d.sectorSize ≤ fillLen)
    (hfits : op.range.1 + op.range.2 < 2 ^ 64) (h : op.run rmwLen fillLen d out = (.error e, d')) :
    Blames d op.range.1 op.range.2 e := by
  cases op with
  | read off len dst => grind [run, range, readBytes_fault]
  | write off len src => grind [run, range, writeBytes_fault]
  | fill off len byte => grind [run, range, fillBytes, fillGo_fault]

end ByteOp

/-- Calls one after the other, up to the first that fails. -/
def runOps (rmwLen fillLen : Nat) (d : Device) (out : List ByteMap) :
    List ByteOp → Except ExecCause (List ByteMap) × Device
  | [] => (.ok out, d)
  | op :: ops =>
    match op.run rmwLen fillLen d out with
    | (.ok out, d) => runOps rmwLen fillLen d out ops
    | (.error e, d) => (.error e, d)

variable {out : List ByteMap} {ops : List ByteOp}

/-- Any sequence of calls on 64-bit offsets does to the device and returns what it does on a flat
array, or fails because a sector of one of its ranges cannot be read or written. -/
theorem runOps_eq_onArray (hs : 0 < d.sectorSize) (hrmw : d.sectorSize ≤ rmwLen)
    (hfill : d.sectorSize ≤ fillLen) (hfits : ∀ op ∈ ops, op.range.1 + op.range.2 < 2 ^ 64) :
    match runOps rmwLen fillLen d out ops with
    | (.ok out', d') => (d'.bytes, out') = ops.foldl ByteOp.onArray (d.bytes, out)
    | (.error e, _) => ∃ op ∈ ops, Blames d op.range.1 op.range.2 e := by
  -- a call leaves the sectors as they are, so a later fault is one of the device at the start
  induction ops generalizing d out with
  | nil => rfl
  | cons op ops ih =>
    obtain ⟨hop, hops⟩ := List.forall_mem_cons.mp hfits
    rw [runOps]
    match hrun : op.run rmwLen fillLen d out with
    | (.error e, d') => exact ⟨op, List.mem_cons_self, ByteOp.run_fault hs hrmw hfill hop hrun⟩
    | (.ok out', d') =>
      obtain ⟨⟨es, rfl⟩, harray⟩ := ByteOp.run_ok hrun
      have hrest := @ih (d.after es) out' hs hrmw hfill hops
      rw [harray] at hrest
      dsimp only
      split at hrest
      · exact hrest
      · obtain ⟨op', hop', hblames⟩ := hrest
        exact ⟨op', List.mem_cons_of_mem _ hop', hblames⟩

/-- A write over a sector boundary, read back. -/
theorem runOps_eq_onArray_straddle :
    let d : Device := ⟨4, fun _ => 1, fun _ => true, fun _ => true, none, []⟩
    let ops : List ByteOp := [.write 3 2 fun _ => 7, .read 2 4 fun _ => 0]
    match runOps 4 4 d [] ops with
    | (.ok out, _) => out.map (·.window 0 4) = [[1, 7, 7, 1]]
    | _ => False := by
  intro d ops
  have h := @runOps_eq_onArray d 4 4 [] ops (by decide) le_rfl le_rfl (by decide)
  generalize runOps 4 4 d [] ops = result at h ⊢
  match result with
  | (.ok out, _) =>
    have hout : out = _ := congrArg Prod.snd h
    rw [hout]
    rfl
  | (.error _, _) => simp [Blames, d] at h

end Instar.Write
