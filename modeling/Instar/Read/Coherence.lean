import Instar.Read.Flat

/-!
# The shared staging buffer

All calls of an operation share one staging buffer, and its tag names a virtual offset only: not the
device whose unit is in it, nor the size of the unit.  `Coherent` is what keeps a tag from being
mistaken: every compressed unit that is loaded inflates, and where two layers have a compressed unit
that starts at the same offset, the lower one's is not the larger.  `readChain_ensures` says that a
read of a coherent chain gives the content of the chain; the invariant it keeps, `Sound`, is that a
tag has an owner in the chain, or was left by the reads of another chain.
-/

namespace Instar.Read

open Fallible Qcow2State List

/-- Two ways to point into a list: the same place, or one before the other. -/
theorem append_cons_cases {α : Type} {above above' rest rest' : List α} {d d' : α}
    (h : above ++ d :: rest = above' ++ d' :: rest') : (above = above' ∧ d = d') ∨ d ∈ above' ∨
    d' ∈ above := by
  induction above generalizing above' with
  | nil =>
    cases above' with
    | nil =>
      simp only [nil_append, cons.injEq] at h
      exact .inl ⟨rfl, h.1⟩
    | cons a' tail' =>
      simp only [nil_append, cons_append, cons.injEq] at h
      exact .inr (.inl (by simp [h.1]))
  | cons a tail ih =>
    cases above' with
    | nil =>
      simp only [nil_append, cons_append, cons.injEq] at h
      exact .inr (.inr (by simp [h.1]))
    | cons a' tail' =>
      simp only [cons_append, cons.injEq] at h
      rcases ih h.2 with ⟨htail, hd⟩ | hmem | hmem
      · exact .inl ⟨by rw [h.1, htail], hd⟩
      · exact .inr (.inl (mem_cons_of_mem _ hmem))
      · exact .inr (.inr (mem_cons_of_mem _ hmem))

namespace ChainReader

variable (cx : ChainReader)

/-! ## Compressed units -/

/-- The size of the units a device stages when they are compressed. -/
def unitOf (d : Nat) : Option Nat :=
  match (cx.config.devices d).format, cx.states d with
  | .qcow2, .qcow2 st => some st.clusterSize
  | .vmdk4, .vmdk st => some st.grainSizeBytes
  | _, _ => none

/-- What the compressed unit of a virtual offset inflates to, if the device has one there. -/
def compressedAt (d x : Nat) : Option (Option ByteMap) :=
  match (cx.config.devices d).format, cx.states d with
  | .qcow2, .qcow2 st =>
    match st.verdict (cx.inp.device d).bytes x with
    | .compressed l2Entry => some (st.inflated cx.codec (cx.inp.device d).bytes l2Entry)
    | _ => none
  | .vmdk4, .vmdk st =>
    match st.verdict (cx.inp.device d).bytes x with
    | .compressed marker => some (st.inflated cx.codec (cx.inp.device d).bytes marker)
    | _ => none
  | _, _ => none

/-- Every compressed unit of the device whose bytes can be read inflates. -/
def Inflates (d : Nat) : Prop :=
  match (cx.config.devices d).format, cx.states d with
  | .qcow2, .qcow2 st =>
    ∀ x l2Entry, st.verdict (cx.inp.device d).bytes x = .compressed l2Entry →
      ∀ s stream, (st.loadCompressed cx.inp d l2Entry s).1 = some stream →
        (cx.codec.expand st.clusterSize stream).isSome
  | .vmdk4, .vmdk st =>
    ∀ x marker, st.verdict (cx.inp.device d).bytes x = .compressed marker →
      ∀ s stream, (VmdkState.loadGrain cx.inp d marker s).1 = some stream →
        (cx.codec.expand st.grainSizeBytes stream).isSome
  | _, _ => True

/-- A compressed unit of `u` bytes of the device starts at the virtual offset `b`. -/
def StartsCompressed (d b u : Nat) : Prop :=
  cx.unitOf d = some u ∧ b % u = 0 ∧ (cx.compressedAt d b).isSome

/-- A chain whose layers can share a staging buffer. -/
structure Coherent (ds : List Nat) : Prop where
  inflates : ∀ d ∈ ds, cx.Inflates d
  /-- Where units of two layers start together, the lower one is not the larger. -/
  shrinks : ds.Pairwise fun a d => ∀ b u v, cx.StartsCompressed a b u →
    cx.StartsCompressed d b v → v ≤ u
  /-- A Parallels image has nothing below it. -/
  bottom : ds.Pairwise fun a _ => (cx.config.devices a).format ≠ .parallels

/-- The tags the reads of a chain may find: those its own units are staged under, and stray ones,
which the reads of another chain left. -/
structure Tags where
  own : Nat → Prop
  stray : Nat → Prop

/-- The staged unit, tagged `b`, is one of the chain `ds` that a read gets to: the layers above that
stage units leave some place of it. -/
def Owned (ds : List Nat) (s : ReaderState) (b : Nat) : Prop :=
  ∃ above d rest u content, ds = above ++ d :: rest ∧ cx.unitOf d = some u ∧ b % u = 0 ∧
    cx.compressedAt d b = some content ∧ Holds s u content ∧
    ∃ y, b ≤ y ∧ y < b + u ∧ ∀ a ∈ above, (cx.unitOf a).isSome → cx.held a y = .absent

/-- The invariant of the reads of a chain: the caches are right, and a tag has an owner in the chain
or is a stray one. -/
def Sound (ds : List Nat) (tags : Tags) (s : ReaderState) : Prop :=
  CachesValid cx.inp s ∧ ∀ b, s.stagingClusterOffset = some b → (cx.Owned ds s b ∧ tags.own b) ∨
    tags.stray b

/-- What a read of a range has to know when it comes to the layers below `above`. -/
structure Clear (ds : List Nat) (tags : Tags) (above : List Nat) (off len : Nat) : Prop where
  /-- The layers above that stage units leave the range. -/
  left : ∀ a ∈ above, (cx.unitOf a).isSome → Absent (cx.held a) off len
  own : ∀ b, b < off + max len 1 → tags.own b
  /-- No unit of the chain that the range reaches into starts at a stray tag. -/
  stray : ∀ b, tags.stray b → ∀ d ∈ ds, ∀ u, cx.StartsCompressed d b u → b + u ≤ off

/-- What a layer asks of the chunks it is given: a flat VMDK serves a chunk from one extent.  A VHD
or VHDX, which serves it from one block, is left out. -/
structure Fits (d off len : Nat) : Prop where
  sparse : (cx.config.devices d).format ≠ .vhd ∧ (cx.config.devices d).format ≠ .vhdx
  flat : (cx.config.devices d).format = .vmdkDescriptor → ∀ off' len', off ≤ off' →
      off' + len' ≤ off + len →
      FlatFits cx.inp.sectorSize (fun d => (cx.inp.device d).capacity) (cx.extents d) off' len'

variable {cx} {ds : List Nat} {tags : Tags} {d off len : Nat}

/-! ## Units -/

variable {u x off' len' n : Nat} {above rest : List Nat} {s : ReaderState}
  (h : cx.unitOf d = some u) {content : Option ByteMap} {I : ReaderState → Prop}

include h

/-- The states a device with staged units can have. -/
theorem unitOf_cases :
    (∃ st, (cx.config.devices d).format = .qcow2 ∧ cx.states d = .qcow2 st ∧ u = st.clusterSize) ∨
    (∃ st, (cx.config.devices d).format = .vmdk4 ∧ cx.states d = .vmdk st ∧
      u = st.grainSizeBytes) := by
  unfold unitOf at h
  split at h
  next st hformat hstate =>
    exact .inl ⟨st, hformat, hstate, (Option.some.inj h).symm⟩
  next st hformat hstate =>
    exact .inr ⟨st, hformat, hstate, (Option.some.inj h).symm⟩
  · cases h

theorem unitOf_pos : 0 < u := by
  rcases unitOf_cases h with ⟨st, _, _, rfl⟩ | ⟨st, _, _, rfl⟩
  · exact st.clusterSize_pos
  · exact st.grainSizeBytes_pos

theorem compressedAt_congr {y : Nat} (hxy : x / u = y / u) :
    cx.compressedAt d x = cx.compressedAt d y := by
  rcases unitOf_cases h with ⟨st, hformat, hstate, rfl⟩ | ⟨st, hformat, hstate, rfl⟩
  · simp only [compressedAt, hformat, hstate]
    rw [verdict, verdict, entryAt_congr hxy]
    have hbase : x - x % st.clusterSize = y - y % st.clusterSize := by
      have hx := Nat.div_add_mod x st.clusterSize
      have hy := Nat.div_add_mod y st.clusterSize
      rw [hxy] at hx
      omega
    rw [hbase]
  · simp only [compressedAt, hformat, hstate]
    rw [VmdkState.verdict_congr hxy]

omit h

theorem qcow2_held_of_compressed {st : Qcow2State} {codec : Codec} {inp : Inputs}
    {dataDevice l2Entry : Nat}
    (h : st.verdict (inp.device d).bytes x = .compressed l2Entry) :
    st.held codec inp d dataDevice x ≠ .absent := by
  cases hentry : st.entryAt (inp.device d).bytes x with
  | none =>
    rw [verdict, hentry] at h
    cases h
  | some entry =>
    obtain ⟨e, bitmap⟩ := entry
    have hclass : Qcow2State.Classified st e bitmap (x - x % st.clusterSize)
        (.compressed l2Entry) := by
      rw [verdict, hentry] at h
      rw [← h]
      exact classified e bitmap _
    have hmod := Nat.mod_lt x st.clusterSize_pos
    generalize hv : ClusterLookup.compressed l2Entry = v at hclass
    cases hclass with
    | refused violation => cases hv
    | invalid => cases hv
    | mixed hviolation hext => cases hv
    | uniform ty hviolation hall =>
      have hheld : st.held codec inp d dataDevice (x + 0) = _ :=
        held_of_entry hentry hviolation (by omega)
      rw [add_zero, add_zero, hall _ (st.subcluster_lt hmod)] at hheld
      rw [hheld]
      cases ty with
      | compressed =>
        simp only [heldAs]
        split <;> simp
      | invalid => cases hv
      | normal => cases hv
      | zeroPlain => cases hv
      | zeroAlloc => cases hv
      | unallocatedPlain => cases hv
      | unallocatedAlloc => cases hv

theorem held_of_compressed (h : (cx.compressedAt d x).isSome) : cx.held d x ≠ .absent := by
  unfold compressedAt at h
  split at h
  next st hformat hstate =>
    simp only [held, hformat, hstate]
    split at h
    · exact qcow2_held_of_compressed ‹_›
    · cases h
  next st hformat hstate =>
    simp only [held, hformat, hstate]
    split at h
    next marker hverdict =>
      rw [VmdkState.held, hverdict]
      dsimp only
      split <;> simp
    · cases h
  · cases h

/-! ## The owner of a tag -/

/-- The base of a unit is in the unit. -/
theorem base_div (hu : 0 < u) : (x - x % u) / u = x / u ∧ (x - x % u) % u = 0 := by
  have hx := Nat.div_add_mod x u
  have hbase : x - x % u = u * (x / u) := by omega
  rw [hbase]
  exact ⟨Nat.mul_div_cancel_left _ hu, Nat.mul_mod_right _ _⟩

/-- Places from an aligned base on are in its unit. -/
theorem div_of_aligned {b : Nat} (hb : b % u = 0) (hlo : b ≤ x) (hhi : x < b + u) :
    x / u = b / u := by
  have h : (b + (x - b)) / u = b / u := (same_unit (by omega)).1
  rwa [Nat.add_sub_cancel' hlo] at h

/-- A tag that names a unit of a coherent chain is that unit's, if a read gets there. -/
theorem Sound.hit (hco : cx.Coherent ds) (hsplit : ds = above ++ d :: rest)
    (hu : cx.unitOf d = some u) (hcomp : cx.compressedAt d off = some content)
    (hclear : cx.Clear ds tags above off len) (hs : cx.Sound ds tags s)
    (htag : s.stagingClusterOffset = some (off - off % u)) : Holds s u content := by
  have hpos := unitOf_pos hu
  have hmod := Nat.mod_lt off hpos
  obtain ⟨hdiv, halign⟩ := base_div (x := off) hpos
  have hbase : cx.compressedAt d (off - off % u) = some content := by
    rw [compressedAt_congr hu hdiv, hcomp]
  have hstart : cx.StartsCompressed d (off - off % u) u := ⟨hu, halign, by rw [hbase]; rfl⟩
  rcases hs.2 _ htag with ⟨⟨above', d', rest', u', content', hsplit', hu', halign', hcomp', hholds,
    y, hy, hy', hleft⟩, -⟩ | hstray
  · have hstart' : cx.StartsCompressed d' (off - off % u) u' := ⟨hu', halign', by rw [hcomp']; rfl⟩
    rcases append_cons_cases (hsplit.symm.trans hsplit') with ⟨-, rfl⟩ | hmem | hmem
    · -- the same layer
      rw [hu] at hu'
      rw [hbase] at hcomp'
      cases hu'
      cases hcomp'
      exact hholds
    · -- this layer is above the owner, and does not leave the place the owner was read at
      have hsize : u' ≤ u := by
        have hpair := hco.shrinks
        rw [hsplit', pairwise_append] at hpair
        exact hpair.2.2 d hmem d' (by simp) _ u u' hstart hstart'
      have hunit : y / u = (off - off % u) / u := div_of_aligned halign hy (by omega)
      refine absurd (hleft d hmem (by rw [hu]; rfl)) (held_of_compressed ?_)
      rw [compressedAt_congr hu hunit, hbase]
      rfl
    · -- the owner is above this layer, and does not leave `off`
      have hsize : u ≤ u' := by
        have hpair := hco.shrinks
        rw [hsplit, pairwise_append] at hpair
        exact hpair.2.2 d' hmem d (by simp) _ u' u hstart' hstart
      have hunit : off / u' = (off - off % u) / u' := div_of_aligned halign' (by omega) (by omega)
      refine absurd (hclear.left d' hmem (by rw [hu']; rfl) off le_rfl (by omega))
        (held_of_compressed ?_)
      rw [compressedAt_congr hu' hunit, hcomp']
      rfl
  · -- the range reaches into the unit, so a stray tag does not name it
    have hend := hclear.stray _ hstray d (by simp [hsplit]) u hstart
    omega

/-- A unit that is staged is the owner of its tag. -/
theorem Sound.fill (hsplit : ds = above ++ d :: rest) (hu : cx.unitOf d = some u)
    (hcomp : cx.compressedAt d off = some content) (hclear : cx.Clear ds tags above off len)
    (hs : cx.Sound ds tags s) {out : ByteMap} (hout : content = some out) :
    cx.Sound ds tags { s with
      staging := s.staging.splice 0 u out, stagingClusterOffset := some (off - off % u) } := by
  have hpos := unitOf_pos hu
  have hmod := Nat.mod_lt off hpos
  obtain ⟨hdiv, halign⟩ := base_div (x := off) hpos
  refine ⟨hs.1, fun b hb => .inl ⟨⟨above, d, rest, u, content, hsplit, hu, ?_⟩, ?_⟩⟩
  · cases hb
    refine ⟨halign, by rw [compressedAt_congr hu hdiv, hcomp], fun i hi => ?_, off, by omega,
      by omega, fun a ha hstaged => hclear.left a ha hstaged off le_rfl (by omega)⟩
    rw [hout]
    show some (out i) = some (s.staging.splice 0 u out i)
    rw [ByteMap.splice_mem (Nat.zero_le i) (by omega), Nat.sub_zero]
  · cases hb
    exact hclear.own _ (by omega)

theorem Sound.stagedUnit (hco : cx.Coherent ds) (hsplit : ds = above ++ d :: rest)
    (hu : cx.unitOf d = some u) (hcomp : cx.compressedAt d off = some content)
    (hclear : cx.Clear ds tags above off len) :
    StagedUnit (cx.Sound ds tags) u (off - off % u) content where
  hit _ hs htag := Sound.hit hco hsplit hu hcomp hclear hs htag
  fill _ _ hs hout := Sound.fill hsplit hu hcomp hclear hs hout

theorem Sound.stable : Stable cx.inp (cx.Sound ds tags) where
  valid _ hs := hs.1
  setCache _ _ _ _ _ hs hread := ⟨hs.1.setCache hread, hs.2⟩

theorem Sound.untags : Qcow1State.Untags (cx.Sound ds tags) :=
  fun _ _ hs => ⟨hs.1, fun _ h => nomatch h⟩

/-! ## Ranges -/

theorem Clear.mono (h : cx.Clear ds tags above off len) (hlo : off ≤ off')
    (hhi : off' + max len' 1 ≤ off + max len 1) : cx.Clear ds tags above off' len' where
  left a ha hstaged x hx hx' := h.left a ha hstaged x (by omega) (by omega)
  own b hb := h.own b (by omega)
  stray b hb e he u hstart := le_trans (h.stray b hb e he u hstart) hlo

theorem Clear.snoc (h : cx.Clear ds tags above off len)
    (hd : (cx.unitOf d).isSome → Absent (cx.held d) off len) :
    cx.Clear ds tags (above ++ [d]) off len where
  left a ha hstaged := by
    rcases mem_append.mp ha with ha | ha
    · exact h.left a ha hstaged
    · rw [mem_singleton] at ha
      subst ha
      exact hd hstaged
  own := h.own
  stray := h.stray

theorem Fits.mono (h : cx.Fits d off len) (hlo : off ≤ off') (hhi : off' + len' ≤ off + len) :
    cx.Fits d off' len' where
  sparse := h.sparse
  flat hformat off'' len'' hlo' hhi' := h.flat hformat off'' len'' (by omega) (by omega)

/-! ## Reads -/

theorem splitAtGranule_ensures {granule : Nat}
    {arm : Nat → Nat → Fallible ReaderState ByteMap} {content : Nat → Option UInt8}
    (hpos : 0 < granule)
    (harm : ∀ cur n, off ≤ cur → cur + n ≤ off + len → (0 < n ∨ cur = off ∧ n = len) →
      cur % granule + n ≤ granule → Ensures I (arm cur n) (Gives content cur n)) :
    Ensures I (splitAtGranule granule arm off len) (Gives content off len) := by
  refine .ite (fun _ => ?_) (fun h => harm off len le_rfl le_rfl (.inr ⟨rfl, rfl⟩) (by omega))
  refine pieces_ensures (fun cur rest _ => min_le_left _ _) (fun cur rest hlo hhi hrest => ?_) len
    le_rfl le_rfl
  have hmod := Nat.mod_lt cur hpos
  have hn : 0 < toClusterEnd granule cur rest := Nat.lt_min.mpr ⟨hrest, by omega⟩
  exact harm cur _ hlo (by omega) (.inl hn) (by omega)

/-- One layer gives the content from it on down. -/
theorem readDevice_ensures (hco : cx.Coherent ds) (hsplit : ds = above ++ d :: rest) {behind : Nat}
    {below : Nat → Nat → Fallible ReaderState ByteMap}
    (hbelow : ∀ off' len', off ≤ off' → off' + len' ≤ off + len →
      cx.Clear ds tags (above ++ [d]) off' len' →
      Ensures (cx.Sound ds tags) (below off' len') (Gives (cx.contentOf rest) off' len'))
    (hclear : cx.Clear ds tags above off len) (hfits : cx.Fits d off len) :
    Ensures (cx.Sound ds tags) (cx.readDevice d behind below off len)
      (Gives (cx.contentOf (d :: rest)) off len) := by
  have hI : Stable cx.inp (cx.Sound ds tags) := Sound.stable
  have hpart : ∀ cur n, off ≤ cur → cur + n ≤ off + len → (0 < n ∨ cur = off ∧ n = len) →
      cx.Clear ds tags above cur n := fun cur n hlo hhi hn => hclear.mono hlo (by omega)
  -- what a layer that stages units or leaves ranges may ask of the layers below it
  have hdescend : ∀ cur n, off ≤ cur → cur + n ≤ off + len → (0 < n ∨ cur = off ∧ n = len) →
      Descends (cx.Sound ds tags) (cx.held d) (cx.contentOf rest) below cur (cur + n) := by
    intro cur n hlo hhi hn off' len' h1 h2 h3 habsent
    exact hbelow off' len' (by omega) (by omega)
      (Clear.snoc ((hpart cur n hlo hhi hn).mono h1 (by omega)) fun _ => habsent)
  have hinflates := hco.inflates d (by simp [hsplit])
  unfold readDevice
  split
  · -- qcow2
    rename_i st hformat hstate
    have hheld : cx.held d = st.held cx.codec cx.inp d (cx.config.devices d).dataDeviceIdx := by
      funext x
      simp only [held, hformat, hstate]
    have hu : cx.unitOf d = some st.clusterSize := by simp only [unitOf, hformat, hstate]
    rw [contentOf, map_cons, hheld]
    rw [hheld] at hdescend
    simp only [Inflates, hformat, hstate] at hinflates
    refine splitAtGranule_ensures st.clusterSize_pos fun cur n hlo hhi hn hin => ?_
    refine arm_ensures hI hin (hdescend cur n hlo hhi hn)
      ⟨fun l2Entry => hinflates cur l2Entry, fun l2Entry hverdict => ?_⟩
    refine Sound.stagedUnit hco hsplit hu ?_ (hpart cur n hlo hhi hn)
    simp only [compressedAt, hformat, hstate, hverdict]
  · -- VMDK
    rename_i st hformat hstate
    have hheld : cx.held d = st.held cx.codec cx.inp d := by
      funext x
      simp only [held, hformat, hstate]
    have hu : cx.unitOf d = some st.grainSizeBytes := by simp only [unitOf, hformat, hstate]
    rw [contentOf, map_cons, hheld]
    rw [hheld] at hdescend
    simp only [Inflates, hformat, hstate] at hinflates
    refine splitAtGranule_ensures st.grainSizeBytes_pos fun cur n hlo hhi hn hin => ?_
    refine VmdkState.arm_ensures hI hin (hdescend cur n hlo hhi hn)
      ⟨fun marker => hinflates cur marker, fun marker hverdict => ?_⟩
    refine Sound.stagedUnit hco hsplit hu ?_ (hpart cur n hlo hhi hn)
    simp only [compressedAt, hformat, hstate, hverdict]
  · exact absurd ‹_› hfits.sparse.1
  · exact absurd ‹_› hfits.sparse.2
  · -- Parallels, which is the last layer
    rename_i st hformat hstate
    have hheld : cx.held d = st.held cx.inp d := by
      funext x
      simp only [held, hformat, hstate]
    have hlast : rest = [] := by
      have hpair := hco.bottom
      rw [hsplit, pairwise_append, pairwise_cons] at hpair
      cases rest with
      | nil => rfl
      | cons d' rest' => exact absurd hformat (hpair.2.1.1 d' (by simp))
    rw [contentOf, map_cons, hheld, hlast]
    exact ParallelsState.arm_ensures hI
  · -- qcow1
    rename_i st hformat hstate
    have hheld : cx.held d = st.held cx.codec cx.inp d := by
      funext x
      simp only [held, hformat, hstate]
    rw [contentOf, map_cons, hheld]
    rw [hheld] at hdescend
    exact Qcow1State.arm_ensures hI Sound.untags (hdescend off len le_rfl le_rfl (.inr ⟨rfl, rfl⟩))
  · -- a flat VMDK
    rename_i hformat
    have hheld : cx.held d = extentsHeld cx.inp (cx.extents d) := by
      funext x
      simp only [held, hformat]
    rw [contentOf, map_cons, hheld]
    refine .ite (fun _ => .fail) (fun _ => ?_)
    exact (readExtents_ensures (hfits.flat hformat off len le_rfl le_rfl)).mono
      fun _ => .of_gives
  · -- raw
    rename_i hformat
    have hheld : cx.held d = cx.inp.rawHeld d := by
      funext x
      simp only [held, hformat]
    rw [contentOf, map_cons, hheld]
    exact readRawSectors_held d off len _
  · exact .fail

/-- A read of a coherent chain gives the content of the chain. -/
theorem readChain_ensures (hco : cx.Coherent ds) (hsplit : ds = above ++ cx.layers n d)
    (hclear : cx.Clear ds tags above off len) (hfits : ∀ e ∈ cx.layers n d, cx.Fits e off len) :
    Ensures (cx.Sound ds tags) (cx.readChain n d off len) (Gives (cx.content n d) off len) := by
  -- the layers above are those the walk has passed
  induction n generalizing d above off len with
  | zero => exact .pure fun _ _ => rfl
  | succ n ih =>
    rw [layers] at hsplit hfits
    rw [readChain, content, layers]
    split
    next hdata =>
      rw [if_pos hdata] at hsplit hfits
      exact ih hsplit hclear hfits
    next hlayer =>
      rw [if_neg hlayer] at hsplit hfits
      refine readDevice_ensures hco hsplit (fun off' len' hlo hhi hclear' =>
        ?_) hclear (hfits d (by simp))
      have hsplit' : ds = (above ++ [d]) ++ cx.layers n (d + 1) := by simp [hsplit]
      refine ih hsplit' hclear' fun e he => ?_
      exact (hfits e (by simp [he])).mono hlo hhi

theorem readChain_top (hco : cx.Coherent (cx.layers n d))
    (hclear : cx.Clear (cx.layers n d) tags [] off len)
    (hfits : ∀ e ∈ cx.layers n d, cx.Fits e off len) :
    Ensures (cx.Sound (cx.layers n d) tags) (cx.readChain n d off len)
    (Gives (cx.content n d) off len) :=
  readChain_ensures hco (nil_append _).symm hclear hfits

/-- A range is as good as the pieces it is read in, each inside a cluster of the top device. -/
theorem readRange_of_pieces {content : Nat → Option UInt8}
    (hread : ∀ cur m, off ≤ cur → cur + m ≤ off + len → (0 < (cx.config.devices d).clusterSize →
        cur % (cx.config.devices d).clusterSize + m ≤ (cx.config.devices d).clusterSize) →
      Ensures I (cx.readChain n d cur m) (Gives content cur m)) :
    Ensures I (cx.readRange n d off len) (Gives content off len) := by
  have hle : ∀ size cur rest, rangeStep size len cur rest ≤ rest := fun size cur rest =>
    le_trans (min_le_left _ _) (min_le_right _ _)
  refine pieces_ensures (fun cur rest _ => hle _ cur rest)
    (fun cur rest (hlo : off ≤ cur) (hhi : cur + rest ≤ off + len) _ => ?_) len le_rfl
    le_rfl
  refine hread cur _ hlo (le_trans (Nat.add_le_add_left (hle _ cur rest) cur) hhi) fun hpos => ?_
  have hmod := Nat.mod_lt cur hpos
  have hstep : ∀ size rest, rangeStep size len cur rest ≤ size - cur % size := fun size rest =>
    min_le_right _ _
  have hin := hstep (cx.config.devices d).clusterSize rest
  rw [if_pos hpos]
  omega

variable (cx) in
/-- From the state `s` on, the range reads of the chain that succeed give `content`. -/
def ReadsGive (n d : Nat) (content : Nat → Option UInt8) (s : ReaderState) : Prop :=
  ∃ I : ReaderState → Prop, I s ∧
    ∀ off len, Ensures I (cx.readRange n d off len) (Gives content off len)

end ChainReader

end Instar.Read
