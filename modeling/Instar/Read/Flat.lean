import Instar.Read.Chain

/-!
# Flat VMDKs

A flat VMDK is a descriptor and the files of its extents, in order.  Its content is the
concatenation of the extents.  The descriptor arm of the chain reader looks for the extent of the
first byte and makes one raw read of that file, whatever the length.  `readChain_flat_iff` says
exactly for which chunks this gives the concatenation: those that stay in the extent they start in,
but for places where neither file has a byte.
-/

namespace Instar.Read

open Fallible ChainReader

variable {exts : Extents} {off len : Nat}

/-- The device has a byte of its own at offset `p`; a raw read gives zero elsewhere. -/
def Stored (sectorSize : Nat) (capacity : Nat → Nat) (d p : Nat) : Prop :=
  p / sectorSize < capacity d

/-- Every place of the chunk is in the extent of the first one, or has no byte both in its own
extent and in the file of the first. -/
def FlatFits (sectorSize : Nat) (capacity : Nat → Nat) (exts : Extents) (off len : Nat) : Prop :=
  ∀ d r, extentAt exts off = some (d, r) → ∀ i < len, extentAt exts (off + i) = some (d, r + i) ∨
      (¬ Stored sectorSize capacity d (r + i) ∧
        ∀ d' p, extentAt exts (off + i) = some (d', p) → ¬ Stored sectorSize capacity d' p)

variable {inp : Inputs} {d sectorSize first p : Nat} {sizes : List Nat} {cx : ChainReader}
  {capacity : Nat → Nat} {σ : Type}

/-- The walk reads the file of the extent of the first byte. -/
theorem readExtents_eq (inp : Inputs) (exts : Extents) (off len : Nat) :
    (readExtents inp exts off len : Fallible σ ByteMap) =
      match extentAt exts off with
      | none => pure fun _ => 0
      | some (d, r) => inp.readRawSectors d r len := by
  induction exts generalizing off with
  | nil => rfl
  | cons ext rest ih =>
    obtain ⟨d, size⟩ := ext
    rw [readExtents, extentAt]
    split
    · rfl
    · exact ih (off - size)

/-- Past the last extent there is nothing further on. -/
theorem extentAt_none_add (h : extentAt exts off = none) (i : Nat) :
    extentAt exts (off + i) = none := by
  induction exts generalizing off with
  | nil => rfl
  | cons ext rest ih =>
    obtain ⟨d, size⟩ := ext
    rw [extentAt] at h ⊢
    split at h
    · cases h
    · rw [if_neg (by omega), show off + i - size = off - size + i by omega]
      exact ih h

theorem rawHeld_of_not_stored (h : ¬ Stored inp.sectorSize (fun d => (inp.device d).capacity) d p) :
    inp.rawHeld d p = .gives 0 :=
  congrArg Contribution.gives (if_neg h)

theorem readExtents_ensures {I : σ → Prop}
    (hfits : FlatFits inp.sectorSize (fun d => (inp.device d).capacity) exts off len) :
    Ensures I (readExtents inp exts off len)
      (fun out => ∀ i < len, extentsHeld inp exts (off + i) = .gives (out i)) := by
  rw [readExtents_eq]
  cases hfirst : extentAt exts off with
  | none =>
    refine .pure fun i _ => ?_
    rw [extentsHeld, extentAt_none_add hfirst]
  | some place =>
    obtain ⟨d, r⟩ := place
    refine (readRawSectors_gives d r len).mono fun out hout i hi => ?_
    rcases hfits d r hfirst i hi with hsame | ⟨hfile, hown⟩
    · rw [extentsHeld, hsame]
      exact hout i hi
    · -- neither file has a byte here, so both sides are zero
      rw [← hout i hi, rawHeld_of_not_stored hfile, extentsHeld]
      cases hplace : extentAt exts (off + i) with
      | none => rfl
      | some place => exact rawHeld_of_not_stored (hown place.1 place.2 hplace)

/-! ## Descriptors -/

/-- Device `d` is a flat descriptor whose extents are the devices from `first` on, of the given
sizes. -/
structure FlatDescriptor (config : ChainConfig) (d first : Nat) (sizes : List Nat) : Prop where
  format : (config.devices d).format = .vmdkDescriptor
  layer : (config.devices d).isDataDevice = false
  names : (config.devices d).dataDeviceIdx = first
  first_pos : 0 < first
  within : first + sizes.length ≤ config.deviceCount
  marked : ∀ j < sizes.length, (config.devices (first + j)).isDataDevice = true
  size : ∀ j (h : j < sizes.length), (config.devices (first + j)).virtualSize = sizes[j]
  size_pos : ∀ n ∈ sizes, 0 < n
  last : first + sizes.length < config.deviceCount →
    (config.devices (first + sizes.length)).isDataDevice = false

/-- Consecutive devices from `first` on with the given sizes. -/
def extentsOf : Nat → List Nat → Extents
  | _, [] => []
  | first, size :: rest => (first, size) :: extentsOf (first + 1) rest

/-- The walk finds the extents of the descriptor and no others. -/
theorem extentsFrom_eq {config : ChainConfig} (fuel : Nat)
    (hfuel : sizes.length < fuel ∨ first + sizes.length = config.deviceCount ∧ sizes.length ≤ fuel)
    (hwithin : first + sizes.length ≤ config.deviceCount)
    (hmarked : ∀ j < sizes.length, (config.devices (first + j)).isDataDevice = true)
    (hsize : ∀ j (h : j < sizes.length), (config.devices (first + j)).virtualSize = sizes[j])
    (hpos : ∀ n ∈ sizes, 0 < n) (hlast : first + sizes.length < config.deviceCount →
      (config.devices (first + sizes.length)).isDataDevice = false) :
    config.extentsFrom fuel first = extentsOf first sizes := by
  induction fuel generalizing first sizes with
  | zero =>
    have hnil : sizes = [] := List.length_eq_zero_iff.mp (by omega)
    rw [hnil]
    rfl
  | succ fuel ih =>
    cases sizes with
    | nil =>
      rw [ChainConfig.extentsFrom, if_neg, extentsOf]
      rintro ⟨hlt, hmark⟩
      have := hlast (by simpa using hlt)
      simp only [List.length_nil, add_zero] at this
      rw [this] at hmark
      cases hmark
    | cons size rest =>
      simp only [List.length_cons] at hfuel hwithin hlast hmarked
      have hfirst := hmarked 0 (by omega)
      have hsize0 := hsize 0 (by simp)
      simp only [add_zero, List.getElem_cons_zero] at hfirst hsize0
      have hne := hpos size (by simp)
      rw [ChainConfig.extentsFrom, if_pos ⟨by omega, hfirst⟩, if_neg (by omega), hsize0, extentsOf]
      refine congrArg _ (ih (by omega) (by omega) (fun j hj => ?_) (fun j hj => ?_)
        (fun n hn => hpos n (by simp [hn])) fun h => ?_)
      · rw [show first + 1 + j = first + (j + 1) by omega]
        exact hmarked (j + 1) (by omega)
      · rw [show first + 1 + j = first + (j + 1) by omega, hsize (j + 1) (by simpa using hj)]
        rfl
      · rw [show first + 1 + rest.length = first + (rest.length + 1) by omega]
        exact hlast (by omega)

theorem FlatDescriptor.extents_eq (h : FlatDescriptor cx.config d first sizes) :
    cx.extents d = extentsOf first sizes := by
  have hfirst := h.first_pos
  have hwithin := h.within
  rw [extents, h.names]
  exact extentsFrom_eq _ (.inl (by omega)) h.within h.marked h.size h.size_pos h.last

theorem FlatDescriptor.readChain_eq {n : Nat} (h : FlatDescriptor cx.config d first sizes)
    (off len : Nat) : cx.readChain (n + 1) d off len =
    readExtents cx.inp (extentsOf first sizes) off len := by
  have hne : (cx.config.devices d).dataDeviceIdx ≠ 0 := by
    rw [h.names]
    exact ne_of_gt h.first_pos
  rw [readChain, if_neg (by simp [h.layer]), readDevice, h.format, h.extents_eq]
  simp only [hne, if_false]

/-! ## The chunks that read right -/

/-- Inputs of the given shape with one byte set, at offset `p` of device `d`. -/
def markedInputs (sectorSize : Nat) (hpos : 0 < sectorSize) (capacity : Nat → Nat) (d p : Nat) :
    Inputs where
  sectorSize
  sectorSize_pos := hpos
  device d' := ⟨capacity d', fun x => if d' = d ∧ x = p then 1 else 0, fun _ => true⟩

/-- A raw read of a device all of whose sectors can be read succeeds. -/
theorem rawSteps_succeeds (hread : ∀ n, (inp.device d).readable n = true) (s : σ)
    (fuel off len : Nat) (hfuel : len ≤ fuel) :
    ∃ out, pieces (inp.rawNext d) (fun cur _ => inp.rawPiece d cur) fuel off len s =
    (some out, s) := by
  have hpiece : ∀ cur, ∃ out, (inp.rawPiece d cur : Fallible σ ByteMap) s = (some out, s) := by
    intro cur
    unfold Inputs.rawPiece
    split
    · exact ⟨_, rfl⟩
    · refine ⟨_, bind_of_some (a :=
        (inp.device d).bytes.drop (cur / inp.sectorSize * inp.sectorSize)) ?_⟩
      rw [Inputs.readInputSector, if_pos (hread _)]
      rfl
  induction fuel generalizing off len with
  | zero =>
    refine ⟨fun _ => 0, ?_⟩
    rw [pieces, if_pos (by omega)]
    rfl
  | succ fuel ih =>
    rw [pieces]
    split
    · exact ⟨_, rfl⟩
    · have hpos := inp.sectorSize_pos
      have hmod := Nat.mod_lt off hpos
      have hnext : 0 < inp.rawNext d off len := by
        unfold Inputs.rawNext Inputs.toSectorEnd
        split <;> omega
      obtain ⟨head, hhead⟩ := hpiece off
      obtain ⟨rest, hrest⟩ := ih (off + inp.rawNext d off len) (len - inp.rawNext d off len)
        (by omega)
      exact ⟨_, (bind_of_some hhead).trans (bind_of_some hrest)⟩

theorem readRawSectors_succeeds (hread : ∀ n, (inp.device d).readable n = true) (s : σ)
    (off len : Nat) : ∃ out, inp.readRawSectors d off len s = (some out, s) := by
  unfold Inputs.readRawSectors
  split
  · exact rawSteps_succeeds hread s _ off _ le_rfl
  · exact rawSteps_succeeds hread s _ off _ le_rfl

/-- Only the place that is set has a byte other than zero. -/
theorem markedInputs_held {hpos : 0 < sectorSize} {d' p' : Nat} :
    (markedInputs sectorSize hpos capacity d p).rawHeld d' p' =
      .gives (if p' / sectorSize < capacity d' ∧ d' = d ∧ p' = p then 1 else 0) := by
  simp only [Inputs.rawHeld, markedInputs]
  by_cases h : p' / sectorSize < capacity d' <;> simp [h]

/-- Contents that a chunk which does not fit gets wrong. -/
theorem exists_wrong_of_not_fits (hpos : 0 < sectorSize)
    (h : ¬ FlatFits sectorSize capacity exts off len) :
    ∃ inp : Inputs, inp.sectorSize = sectorSize ∧ (∀ d, (inp.device d).capacity = capacity d) ∧
      ∃ i < len, ∀ (s : ReaderState), ∃ out, readExtents inp exts off len s = (some out, s) ∧
        extentsHeld inp exts (off + i) ≠ .gives (out i) := by
  unfold FlatFits at h
  push Not at h
  obtain ⟨d, r, hfirst, i, hi, hother, hstored⟩ := h
  -- the byte that is set is the file's own, or else the one of the place's extent
  have hwrong : ∀ inp : Inputs, (∀ d n, (inp.device d).readable n = true) →
      extentsHeld inp exts (off + i) ≠ inp.rawHeld d (r + i) →
      ∀ s : ReaderState, ∃ out, readExtents inp exts off len s = (some out, s) ∧
        extentsHeld inp exts (off + i) ≠ .gives (out i) := by
    intro inp hread hne s
    obtain ⟨out, hout⟩ := readRawSectors_succeeds (hread d) s r len
    refine ⟨out, by rw [readExtents_eq, hfirst]; exact hout, ?_⟩
    have hbytes := (readRawSectors_gives (I := fun _ => True) d r len s trivial).2
      out (by rw [hout])
    rwa [← hbytes i hi]
  by_cases hfile : Stored sectorSize capacity d (r + i)
  · refine ⟨markedInputs sectorSize hpos capacity d (r + i), rfl, fun _ => rfl, i, hi,
      hwrong _ (fun _ _ => rfl) ?_⟩
    rw [markedInputs_held, if_pos ⟨hfile, rfl, rfl⟩, extentsHeld]
    cases hplace : extentAt exts (off + i) with
    | none => exact fun h => absurd (Contribution.gives.inj h) (by decide)
    | some place =>
      obtain ⟨d', p⟩ := place
      have hne : ¬ (p / sectorSize < capacity d' ∧ d' = d ∧ p = r + i) := by
        rintro ⟨-, rfl, rfl⟩
        exact hother hplace
      simp only [markedInputs_held, if_neg hne]
      decide
  · obtain ⟨d', p, hplace, hp⟩ := hstored hfile
    refine ⟨markedInputs sectorSize hpos capacity d' p, rfl, fun _ => rfl, i, hi,
      hwrong _ (fun _ _ => rfl) ?_⟩
    have hne : ¬ ((r + i) / sectorSize < capacity d ∧ d = d' ∧ r + i = p) := fun hc => hfile hc.1
    rw [markedInputs_held, if_neg hne, extentsHeld, hplace]
    dsimp only
    rw [markedInputs_held, if_pos ⟨hp, rfl, rfl⟩]
    decide

/-- A flat VMDK reads as the concatenation of its extents, whatever the files hold, exactly for the
chunks that fit. -/
theorem readChain_flat_iff {config : ChainConfig} {d first : Nat} {sizes : List Nat}
    (hflat : FlatDescriptor config d first sizes) (codec : Codec) (states : Nat → DeviceState)
    {sectorSize : Nat} (hpos : 0 < sectorSize) (capacity : Nat → Nat) (n off len : Nat) :
    (∀ inp : Inputs, inp.sectorSize = sectorSize → (∀ d, (inp.device d).capacity = capacity d) →
      ∀ s out s', (mk codec inp config states).readChain (n + 1) d off len s = (some out, s') →
        ∀ i < len, extentsHeld inp (extentsOf first sizes) (off + i) = .gives (out i)) ↔
      FlatFits sectorSize capacity (extentsOf first sizes) off len := by
  constructor
  · intro hall
    by_contra hnot
    obtain ⟨inp, hsize, hcap, i, hi, hwrong⟩ := exists_wrong_of_not_fits hpos hnot
    obtain ⟨out, hout, hne⟩ := hwrong (ReaderState.fresh fun _ => 0)
    refine hne (hall inp hsize hcap (.fresh fun _ => 0) out (.fresh fun _ => 0) ?_ i hi)
    rw [FlatDescriptor.readChain_eq hflat]
    exact hout
  · rintro hfits inp rfl hcap s out s' hrun
    have hcapacity : (fun d => (inp.device d).capacity) = capacity := funext hcap
    rw [FlatDescriptor.readChain_eq hflat] at hrun
    rw [← hcapacity] at hfits
    exact (readExtents_ensures (I := fun _ => True) hfits s trivial).2 out (by rw [hrun])

/-- A descriptor with two extents of one sector each, on the two devices after it. -/
def halvesConfig : ChainConfig where
  deviceCount := 3
  devices d := if d = 0 then ⟨.vmdkDescriptor, false, 1024, 0, 0, 1⟩
    else ⟨.raw, true, 512, 512, 0, 0⟩
  segments := [⟨0, 3⟩]

theorem halvesConfig_flat : FlatDescriptor halvesConfig 0 1 [512, 512] where
  format := rfl
  layer := rfl
  names := rfl
  first_pos := by decide
  within := by decide
  marked := by decide
  size := by decide
  size_pos := by decide
  last := by decide

/-- The decompressors of the examples: a stream inflates to copies of its first byte. -/
def copyCodec : Codec where
  inflate _ bytes _ := some fun _ => bytes.headD 0
  residue _ _ _ buf := buf

/-- Each extent read on its own. -/
theorem readChain_flat_halves : FlatDescriptor halvesConfig 0 1 [512, 512] ∧
    ((∀ inp : Inputs, inp.sectorSize = 512 → (∀ d, (inp.device d).capacity = 1) →
      ∀ s out s', (mk copyCodec inp halvesConfig fun _ => .none).readChain 3 0 0 1024 s =
      (some out, s') →
        ∀ i < 1024, extentsHeld inp (extentsOf 1 [512, 512]) (0 + i) = .gives (out i)) ↔
      FlatFits 512 (fun _ => 1) (extentsOf 1 [512, 512]) 0 1024) :=
  ⟨halvesConfig_flat, readChain_flat_iff halvesConfig_flat copyCodec (fun _ => .none) (by decide)
    (fun _ => 1) 2 0 1024⟩

/-- The two extents of `halvesConfig`: the first all zeros, the second all ones. -/
def halvesInputs : Inputs where
  sectorSize := 512
  sectorSize_pos := sector_pos
  device d := ⟨1, fun _ => if d = 2 then 1 else 0, fun _ => true⟩

/-- A chunk over both extents has zeros where the second extent has ones. -/
theorem readChain_flat_crosses :
    (initChainStates halvesConfig halvesInputs (fun _ => none) (.fresh fun _ => 0)).1.isSome ∧
    ((mk copyCodec halvesInputs halvesConfig fun _ => .none).readChain 3 0 0 1024
      (.fresh fun _ => 0)).1.map (fun out => out 512) = some 0 ∧
    extentsHeld halvesInputs (extentsOf 1 [512, 512]) 512 = .gives 1 := by
  refine ⟨?_, ?_, ?_⟩ <;> decide +kernel

end Instar.Read
