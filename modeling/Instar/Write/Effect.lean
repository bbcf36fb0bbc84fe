import Instar.Write.Run

/-!
# The effect of each step

One lemma per step the planners emit, saying what the buffers and the disk are once the step has
been executed.  `disk` is the contents of the device the image lives on.
-/

namespace Instar.Write

open Instar.Qcow2 ByteMap Devices

/-- The contents of a device. -/
def Devices.disk (devs : Devices) (dev : TargetDevice) : ByteMap := (devs.get dev).bytes

@[simp] theorem Devices.disk_set (devs : Devices) (dev : TargetDevice) (d : Device) :
    (devs.set dev d).disk dev = d.bytes := by
  rw [disk, get_set]

section

variable (r : Regions) (bytes : ByteMap)

/-- Replace the bytes of the staged L1. -/
def Regions.setL1 : Regions := r.setBytes .l1 bytes

/-- Replace the bytes of the staged L2 window. -/
def Regions.setWindow : Regions := r.setBytes (.l2Slot 0) bytes

/-- Replace the bytes of the bounce cluster. -/
def Regions.setBounce : Regions := r.setBytes .bounce bytes

end

variable {r r' : Regions} {devs devs' : Devices} {dev : TargetDevice} {step : Step}
  {slot host cs off len v base : Nat}
  {st : WriteState} {d d' : Device} {rmwLen : Nat} {res : Except ExecCause Unit} {keep : Nat → Prop}
  {byte : UInt8}

theorem execOne_eq_some : execOne r devs step = some (r', devs') ↔
    execStep r devs step = (.ok (), r', devs') := by
  unfold execOne
  rcases execStep r devs step with ⟨res, r1, devs1⟩
  cases res with
  | error e => simp
  | ok u => simp

/-- A slot window resolves inside its own cluster. -/
theorem resolve_l2Slot (h : r.resolve (.l2Slot slot) off len = .ok base) :
    base = slot * r.clusterSize + off ∧ off + len ≤ r.clusterSize ∧
      slot < r.staged.l2Window.len / r.clusterSize := by
  unfold Regions.resolve at h
  dsimp only at h
  split at h
  · cases h
  case h_2 base' window hplace =>
    split at hplace
    · cases hplace
    split at hplace
    · cases hplace
    cases hplace
    split at h
    · cases h
    split at h
    · cases h
    cases h
    exact ⟨rfl, by omega, by omega⟩

/-- Any other region resolves from the start of its buffer. -/
theorem resolve_plain {region : RegionId} (hplain : ∀ slot, region ≠ .l2Slot slot)
    (h : r.resolve region off len = .ok base) : base = off ∧ off + len ≤ (r.buffer region).len := by
  have hplace : r.resolve region off len = if ¬ off + len < 2 ^ 64 then .error .overflow
        else if (r.buffer region).len < off + len then .error .regionBounds
        else .ok (0 + off) := by
    cases region with
    | l2Slot slot => exact absurd rfl (hplain slot)
    | _ => rfl
  rw [hplace] at h
  split at h
  · cases h
  split at h
  · cases h
  cases h
  exact ⟨by omega, by omega⟩

theorem execRead_ok (h : execRead r devs step = (.ok (), r', devs')) :
    ∃ base, r.resolve step.region step.regionOffset step.len = .ok base ∧ devs' = devs ∧
      r' = r.setBytes step.region ((r.buffer step.region).bytes.splice base step.len
        ((devs.disk step.device).drop step.diskOffset)) := by
  unfold execRead at h
  cases hres : r.resolve step.region step.regionOffset step.len with
  | error e => simp [hres] at h
  | ok base =>
    simp only [hres] at h
    cases hread : readBytes (devs.get step.device) step.diskOffset step.len r.rmwLen
      ((r.buffer step.region).bytes.drop base) with
    | error e => simp [hread] at h
    | ok bytes =>
      simp only [hread, Prod.mk.injEq, true_and] at h
      obtain ⟨rfl, rfl⟩ := h
      refine ⟨base, rfl, rfl, ?_⟩
      rw [readBytes_ok hread]
      congr 1
      exact splice_congr fun i hi => by
        rw [splice_mem (by omega) (by omega)]
        rfl

theorem execWrite_ok (h : execWrite r devs step = (.ok (), r', devs')) :
    ∃ base, r.resolve step.region step.regionOffset step.len = .ok base ∧ r' = r ∧
      (∃ d, devs' = devs.set step.device d) ∧
      devs'.disk step.device = (devs.disk step.device).splice step.diskOffset step.len
        ((r.buffer step.region).bytes.drop base) := by
  unfold execWrite at h
  cases hres : r.resolve step.region step.regionOffset step.len with
  | error e => simp [hres] at h
  | ok base =>
    simp only [hres] at h
    rcases hwrite : writeBytes (devs.get step.device) step.diskOffset step.len r.rmwLen
      ((r.buffer step.region).bytes.drop base) with ⟨res, d⟩
    simp only [hwrite, Prod.mk.injEq] at h
    obtain ⟨rfl, rfl, rfl⟩ := h
    exact ⟨base, rfl, rfl, ⟨d, rfl⟩, by rw [disk_set, writeBytes_ok hwrite]; rfl⟩

theorem execFill_ok (h : execFill r devs step byte = (.ok (), r', devs')) :
    r' = r ∧ (∃ d, devs' = devs.set step.device d) ∧ devs'.disk step.device
        = (devs.disk step.device).splice step.diskOffset step.len fun _ => byte := by
  unfold execFill at h
  rcases hfill : fillBytes (devs.get step.device) step.diskOffset step.len byte r.fillLen r.rmwLen
    with ⟨res, d⟩
  simp only [hfill, Prod.mk.injEq] at h
  obtain ⟨rfl, rfl, rfl⟩ := h
  exact ⟨rfl, ⟨d, rfl⟩, by rw [disk_set, fillBytes_ok hfill]; rfl⟩

theorem execStore_ok {n : Nat} {bytes : ByteMap}
    (h : execStore r devs step n bytes = (.ok (), r', devs')) :
    ∃ base, r.resolve step.region step.regionOffset n = .ok base ∧ devs' = devs ∧
      r' = r.setBytes step.region ((r.buffer step.region).bytes.splice base n bytes) := by
  unfold execStore at h
  cases hres : r.resolve step.region step.regionOffset n with
  | error e => simp [hres] at h
  | ok base =>
    simp only [hres, Prod.mk.injEq, true_and] at h
    exact ⟨base, rfl, h.2.symm, h.1.symm⟩

theorem wholeCluster_ok {k : Except ExecCause Unit × Regions × Devices}
    (h : wholeCluster r devs step k = (.ok (), r', devs')) :
    step.len = r.clusterSize ∧ k = (.ok (), r', devs') := by
  unfold wholeCluster at h
  split at h
  · cases h
  split at h
  · cases h
  case isFalse hlen => exact ⟨by omega, h⟩

/-! ## The steps of a write -/

/-- A load puts the cluster at `host` into the slot. -/
theorem execOne_load (h : execOne r devs (loadStep slot host cs dev) = some (r', devs')) :
    cs = r.clusterSize ∧ slot < r.staged.l2Window.len / r.clusterSize ∧ devs' = devs ∧
      r' = r.setWindow (r.staged.l2Window.bytes.splice (slot * cs) cs
        ((devs.disk dev).drop host)) := by
  rw [execOne_eq_some] at h
  obtain ⟨hcs, hread⟩ := wholeCluster_ok h
  obtain ⟨base, hres, hdevs, hr⟩ := execRead_ok hread
  obtain ⟨hbase, -, hslot⟩ := resolve_l2Slot hres
  have hcs' : cs = r.clusterSize := hcs
  refine ⟨hcs', hslot, hdevs, ?_⟩
  rw [hr, hbase, ← hcs']
  rfl

/-- A writeback puts the slot's table at `host`. -/
theorem execOne_writeback (h : execOne r devs (writebackStep slot host cs dev) = some (r', devs')) :
    cs = r.clusterSize ∧ r' = r ∧ (∃ d, devs' = devs.set dev d) ∧
      devs'.disk dev = (devs.disk dev).splice host cs
      (r.staged.l2Window.bytes.drop (slot * cs)) := by
  rw [execOne_eq_some] at h
  obtain ⟨hcs, hwrite⟩ := wholeCluster_ok h
  obtain ⟨base, hres, hr, hd, hdisk⟩ := execWrite_ok hwrite
  obtain ⟨hbase, -, -⟩ := resolve_l2Slot hres
  have hcs' : cs = r.clusterSize := hcs
  refine ⟨hcs', hr, hd, ?_⟩
  rw [hbase, ← hcs'] at hdisk
  exact hdisk

theorem execOne_zeroRegion (hcs : cs = r.clusterSize)
    (h : execOne r devs (zeroRegionStep slot cs dev) = some (r', devs')) :
    devs' = devs ∧ r' = r.setWindow (r.staged.l2Window.bytes.splice (slot * cs) cs fun _ => 0) := by
  rw [execOne_eq_some] at h
  obtain ⟨base, hres, hdevs, hr⟩ := execStore_ok h
  obtain ⟨hbase, -, -⟩ := resolve_l2Slot hres
  refine ⟨hdevs, ?_⟩
  rw [hr, hbase, hcs]
  rfl

/-- A patch of the L1 stores one entry. -/
theorem execOne_patchL1 (h : execOne r devs (patchStep .l1 off v dev) = some (r', devs')) :
    devs' = devs ∧ off + 8 ≤ r.staged.l1.len ∧
    r' = r.setL1 (r.staged.l1.bytes.splice off 8 (ofBe v 8)) := by
  rw [execOne_eq_some] at h
  obtain ⟨base, hres, hdevs, hr⟩ := execStore_ok h
  obtain ⟨hbase, hlen⟩ := resolve_plain (by simp [patchStep]) hres
  refine ⟨hdevs, hlen, ?_⟩
  rw [hr, hbase]
  rfl

/-- A patch of a slot stores one entry of its table. -/
theorem execOne_patchL2 (h : execOne r devs (patchStep (.l2Slot slot) off v dev) =
    some (r', devs')) : devs' = devs ∧ off + 8 ≤ r.clusterSize ∧
      r' = r.setWindow (r.staged.l2Window.bytes.splice (slot * r.clusterSize + off)
        8 (ofBe v 8)) := by
  rw [execOne_eq_some] at h
  obtain ⟨base, hres, hdevs, hr⟩ := execStore_ok h
  obtain ⟨hbase, hlen, -⟩ := resolve_l2Slot hres
  refine ⟨hdevs, hlen, ?_⟩
  rw [hr, hbase]
  rfl

theorem execOne_zeroRange (h : execOne r devs (zeroRangeStep off len dev) = some (r', devs')) :
    r' = r ∧ (∃ d, devs' = devs.set dev d) ∧
    devs'.disk dev = (devs.disk dev).splice off len fun _ => 0 := by
  rw [execOne_eq_some] at h
  exact execFill_ok h

theorem execOne_readBounce (h : execOne r devs (readClusterToBounceStep host cs dev) =
    some (r', devs')) :
    devs' = devs ∧ r' = r.setBounce (r.bounce.bytes.splice 0 cs ((devs.disk dev).drop host)) := by
  rw [execOne_eq_some] at h
  obtain ⟨base, hres, hdevs, hr⟩ := execRead_ok h
  obtain ⟨hbase, -⟩ := resolve_plain (by simp [readClusterToBounceStep]) hres
  refine ⟨hdevs, ?_⟩
  rw [hr, hbase]
  rfl

theorem execOne_writeBounce (h : execOne r devs (writeBounceClusterStep host cs dev) =
    some (r', devs')) : r' = r ∧ (∃ d, devs' = devs.set dev d) ∧
      devs'.disk dev = (devs.disk dev).splice host cs r.bounce.bytes := by
  rw [execOne_eq_some] at h
  obtain ⟨base, hres, hr, hd, hdisk⟩ := execWrite_ok h
  obtain ⟨hbase, -⟩ := resolve_plain (by simp [writeBounceClusterStep]) hres
  refine ⟨hr, hd, ?_⟩
  rw [hbase] at hdisk
  exact hdisk.trans (congrArg (splice _ _ _) (drop_zero _))

/-- The byte a data source supplies at an offset of the request. -/
def DataSource.byteAt (data : DataSource) (callerData : Buffer) (i : Nat) : UInt8 :=
  match data with
  | .callerData offset => callerData.bytes (offset + i)
  | .fill byte => byte

/-- The body of a write puts the request's bytes on the disk. -/
theorem execOne_body {data : DataSource} {consumed : Nat}
    (h : execOne r devs (bodyStep data consumed off len dev) = some (r', devs')) :
    r' = r ∧ (∃ d, devs' = devs.set dev d) ∧ devs'.disk dev = (devs.disk dev).splice off len
        fun i => data.byteAt r.callerData (consumed + i) := by
  rw [execOne_eq_some] at h
  cases data with
  | callerData offset =>
    obtain ⟨base, hres, hr, hd, hdisk⟩ := execWrite_ok h
    obtain ⟨hbase, -⟩ := resolve_plain (by simp [bodyStep]) hres
    refine ⟨hr, hd, ?_⟩
    rw [hbase] at hdisk
    refine Eq.trans hdisk ?_
    congr 1
    funext i
    exact congrArg r.callerData.bytes (add_assoc _ _ _)
  | fill byte =>
    obtain ⟨hr, hd, hdisk⟩ := execFill_ok h
    refine ⟨hr, hd, Eq.trans hdisk ?_⟩
    have hbyte : UInt8.ofNat byte.toNat = byte := by simp
    congr 1
    funext i
    exact hbyte

/-! ## The steps of a flush -/

theorem execOne_barrier (h : execOne r devs (barrierStep dev) = some (r', devs')) :
    r' = r ∧ (∃ d, devs' = devs.set dev d) ∧ devs'.disk dev = devs.disk dev := by
  rw [execOne_eq_some] at h
  have h' : execBarrier r devs (barrierStep dev) .durability = (.ok (), r', devs') := h
  unfold execBarrier at h'
  dsimp only [Device.fsync] at h'
  cases hok : (devs.get (barrierStep dev).device).fsyncOk with
  | none =>
    simp only [hok, Prod.mk.injEq, true_and] at h'
    obtain ⟨rfl, rfl⟩ := h'
    exact ⟨rfl, ⟨_, rfl⟩, disk_set devs dev _⟩
  | some ok =>
    cases ok with
    | true =>
      simp only [hok, Prod.mk.injEq, true_and] at h'
      obtain ⟨rfl, rfl⟩ := h'
      exact ⟨rfl, ⟨_, rfl⟩, disk_set devs dev _⟩
    | false => simp [hok] at h'

theorem execOne_l1Write (h : execOne r devs (l1WriteStep st) = some (r', devs')) :
    r' = r ∧ (∃ d, devs' = devs.set st.config.device d) ∧
      devs'.disk st.config.device = (devs.disk st.config.device).splice st.geometry.l1TableOffset
        (st.geometry.l1Size * 8) r.staged.l1.bytes := by
  rw [execOne_eq_some] at h
  obtain ⟨base, hres, hr, hd, hdisk⟩ := execWrite_ok h
  obtain ⟨hbase, -⟩ := resolve_plain (by simp [l1WriteStep]) hres
  refine ⟨hr, hd, ?_⟩
  rw [hbase] at hdisk
  exact hdisk.trans (congrArg (splice _ _ _) (drop_zero _))

theorem execOne_refblockWrite {idx : Nat}
    (h : execOne r devs (refblockWriteStep st idx host) = some (r', devs')) :
    r' = r ∧ (∃ d, devs' = devs.set st.config.device d) ∧
      devs'.disk st.config.device = (devs.disk st.config.device).splice host
        st.geometry.clusterSize (r.staged.refblocks.bytes.drop
          (idx * st.geometry.clusterSize)) := by
  rw [execOne_eq_some] at h
  obtain ⟨base, hres, hr, hd, hdisk⟩ := execWrite_ok h
  obtain ⟨hbase, -⟩ := resolve_plain (by simp [refblockWriteStep]) hres
  refine ⟨hr, hd, ?_⟩
  rw [hbase] at hdisk
  exact hdisk

/-! ## What a step leaves alone -/

/-- Whether a step stores into its region. -/
def Step.stores (step : Step) : Bool :=
  match step.kind with
  | .readCluster | .loadCluster | .patchEntryU64 | .zeroRegion => true
  | _ => false

/-- A step changes at most the bytes of its region. -/
theorem execOne_regions (h : execOne r devs step = some (r', devs')) :
    r' = r ∨ step.stores = true ∧ ∃ bytes, r' = r.setBytes step.region bytes := by
  rw [execOne_eq_some] at h
  unfold execStep at h
  unfold Step.stores
  cases hkind : step.kind with
  | readCluster =>
    rw [hkind] at h
    obtain ⟨_, _, _, hr⟩ := execRead_ok h
    exact .inr ⟨rfl, _, hr⟩
  | writeRange =>
    rw [hkind] at h
    exact .inl (execWrite_ok h).choose_spec.2.1
  | zeroRange | fillRange =>
    rw [hkind] at h
    exact .inl (execFill_ok h).1
  | patchEntryU64 | zeroRegion =>
    rw [hkind] at h
    obtain ⟨_, _, _, hr⟩ := execStore_ok h
    exact .inr ⟨rfl, _, hr⟩
  | loadCluster =>
    rw [hkind] at h
    obtain ⟨_, _, _, hr⟩ := execRead_ok (wholeCluster_ok h).2
    exact .inr ⟨rfl, _, hr⟩
  | writebackCluster =>
    rw [hkind] at h
    exact .inl (execWrite_ok (wholeCluster_ok h).2).choose_spec.2.1
  | barrier cls =>
    rw [hkind] at h
    cases cls with
    | ordering =>
      cases h
      exact .inl rfl
    | durability =>
      dsimp only [execBarrier] at h
      split at h <;> cases h <;> exact .inl rfl

/-- The device range a step writes. -/
def Step.target (step : Step) : Option (Nat × Nat) :=
  match step.kind with
  | .writeRange | .zeroRange | .fillRange | .writebackCluster => some (step.diskOffset, step.len)
  | _ => none

theorem writeBytes_spares {src : ByteMap} (h : writeBytes d off len rmwLen src = (res, d'))
    (hkeep : ∀ b, keep b → ¬ (off ≤ b ∧ b < off + len)) : d.Spares keep d' := by
  obtain ⟨es, hd, hcut, -⟩ := writeBytes_spec h
  exact Device.spares_of_cut hd hcut hkeep

theorem fillGo_spares {fuel done : Nat} (h : fillGo off len rmwLen byte fuel done d = (res, d'))
    (hkeep : ∀ b, keep b → ¬ (off ≤ b ∧ b < off + len)) : d.Spares keep d' := by
  induction fuel generalizing done d with
  | zero =>
    cases h
    exact .refl keep _
  | succ fuel ih =>
    unfold fillGo at h
    dsimp only at h
    split at h
    case isFalse =>
      cases h
      exact .refl keep _
    case isTrue hlt =>
      split at h
      · cases h
        exact .refl keep _
      rcases hwrite : writeBytes d (off + done) (min (len - done) d.sectorSize) rmwLen
        (fun _ => byte) with ⟨res1, d1⟩
      have hstep : d.Spares keep d1 := writeBytes_spares hwrite fun b hb hin =>
        hkeep b hb (by omega)
      rw [hwrite] at h
      cases res1 with
      | error e =>
        cases h
        exact hstep
      | ok u => exact hstep.trans (ih h)

theorem fillBytes_spares {fillLen : Nat} (h : fillBytes d off len byte fillLen rmwLen = (res, d'))
    (hkeep : ∀ b, keep b → ¬ (off ≤ b ∧ b < off + len)) : d.Spares keep d' := by
  unfold fillBytes at h
  split at h
  · cases h
    exact .refl keep _
  split at h
  · cases h
    exact .refl keep _
  · exact fillGo_spares h hkeep

/-- A step changes its own device only, and there only the range it writes, however far the device
gets with it. -/
theorem execOne_spares (h : execOne r devs step = some (r', devs'))
    (hkeep : ∀ off len, step.target = some (off, len) → ∀ b, keep b → ¬ (off ≤ b ∧ b < off + len)) :
    ∃ d, devs' = devs.set step.device d ∧ (devs.get step.device).Spares keep d := by
  have hself : devs = devs.set step.device (devs.get step.device) := by
    cases step.device <;> rfl
  rw [execOne_eq_some] at h
  unfold execStep at h
  have hwriteOk : execWrite r devs step = (.ok (), r', devs') →
      step.target = some (step.diskOffset, step.len) →
      ∃ d, devs' = devs.set step.device d ∧ (devs.get step.device).Spares keep d := by
    intro h htarget
    unfold execWrite at h
    cases hres : r.resolve step.region step.regionOffset step.len with
    | error e => simp [hres] at h
    | ok base =>
      simp only [hres] at h
      rcases hwrite : writeBytes (devs.get step.device) step.diskOffset step.len r.rmwLen
        ((r.buffer step.region).bytes.drop base) with ⟨res, d⟩
      simp only [hwrite, Prod.mk.injEq] at h
      exact ⟨d, h.2.2.symm, writeBytes_spares hwrite (hkeep _ _ htarget)⟩
  have hfillOk : ∀ byte, execFill r devs step byte = (.ok (), r', devs') →
      step.target = some (step.diskOffset, step.len) →
      ∃ d, devs' = devs.set step.device d ∧ (devs.get step.device).Spares keep d := by
    intro byte h htarget
    unfold execFill at h
    rcases hfill : fillBytes (devs.get step.device) step.diskOffset step.len byte r.fillLen r.rmwLen
      with ⟨res, d⟩
    simp only [hfill, Prod.mk.injEq] at h
    exact ⟨d, h.2.2.symm, fillBytes_spares hfill (hkeep _ _ htarget)⟩
  cases hkind : step.kind with
  | readCluster =>
    rw [hkind] at h
    obtain ⟨_, _, rfl, _⟩ := execRead_ok h
    exact ⟨_, hself, .refl _ _⟩
  | loadCluster =>
    rw [hkind] at h
    obtain ⟨-, h⟩ := wholeCluster_ok h
    obtain ⟨_, _, rfl, _⟩ := execRead_ok h
    exact ⟨_, hself, .refl _ _⟩
  | patchEntryU64 | zeroRegion =>
    rw [hkind] at h
    obtain ⟨_, _, rfl, _⟩ := execStore_ok h
    exact ⟨_, hself, .refl _ _⟩
  | writeRange =>
    rw [hkind] at h
    exact hwriteOk h (by simp only [Step.target, hkind])
  | writebackCluster =>
    rw [hkind] at h
    obtain ⟨-, h⟩ := wholeCluster_ok h
    exact hwriteOk h (by simp only [Step.target, hkind])
  | zeroRange | fillRange =>
    rw [hkind] at h
    exact hfillOk _ h (by simp only [Step.target, hkind])
  | barrier cls =>
    rw [hkind] at h
    cases cls with
    | ordering =>
      cases h
      exact ⟨_, hself, .refl _ _⟩
    | durability =>
      have hspare := Device.fsync_spares keep (devs.get step.device)
      have h' : execBarrier r devs step .durability = (.ok (), r', devs') := h
      unfold execBarrier at h'
      rcases hsync : (devs.get step.device).fsync with ⟨ok, d⟩
      rw [hsync] at h' hspare
      cases ok with
      | none => cases h'; exact ⟨d, rfl, hspare⟩
      | some ok =>
        cases ok with
        | true => cases h'; exact ⟨d, rfl, hspare⟩
        | false => cases h'

end Instar.Write
