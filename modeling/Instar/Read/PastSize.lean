import Instar.Read.Calls

/-!
# Past the size of a layer

The walk over the layers of a chain never asks for a layer's size, so what a layer maps past its own
size is read through the layers above it.  `past_size_zero_iff` says when no read of a chain of
qcow2 layers shows anything there but zeros, whatever the clusters of the images hold: if no layer
that is the first to map a place past its size stores data there.  The images it compares have the
same headers and tables (`SameTables`).
-/

namespace Instar.Read

open Fallible Qcow2 Option

/-! ## Where a qcow2 image keeps its tables -/

/-- The types of places that an image leaves to the layers below it. -/
def leaves : SubclusterType → Bool
  | .unallocatedPlain | .unallocatedAlloc => true
  | _ => false

/-- The types of places for which an image stores data. -/
def stores : SubclusterType → Bool
  | .normal | .compressed => true
  | _ => false

namespace Qcow2State

variable (st : Qcow2State)

/-- The type of the virtual offset `x`. -/
def typeAt (bytes : ByteMap) (x : Nat) : SubclusterType :=
  match st.entryAt bytes x with
  | none => .unallocatedPlain
  | some entry =>
    match dataFileEntryViolation entry.1 entry.2 st.extendedL2 st.hasDataFile
        (x - x % st.clusterSize) with
    | some _ => .invalid
    | none => subclusterType entry.1 entry.2 (x % st.clusterSize / st.subclusterSize) st.extendedL2
        st.hasDataFile

/-- The L2 table that entry `k` of the L1 table names. -/
def tableOf (bytes : ByteMap) (k : Nat) : Nat := hostOf (bytes.be (st.l1TableOffset + k * 8) 8)

/-- The byte at `p` belongs to the L1 table or to an L2 table. -/
def InTables (bytes : ByteMap) (p : Nat) : Prop :=
  (st.l1TableOffset ≤ p ∧ p < st.l1TableOffset + st.l1Size * 8) ∨
    ∃ k < st.l1Size, st.tableOf bytes k ≠ 0 ∧ st.tableOf bytes k ≤ p ∧
      p < st.tableOf bytes k + st.clusterSize

/-- Two images with the same tables. -/
def SameTables (bytes bytes' : ByteMap) : Prop :=
  ∀ p, st.InTables bytes p → bytes' p = bytes p

variable {st} {bytes bytes' : ByteMap} {codec : Codec} {inp : Inputs} {d dataDevice x k : Nat}

/-- What an image holds at a place, by the type of the place. -/
theorem held_eq_typeAt : st.held codec inp d dataDevice x =
    st.heldAs codec inp d dataDevice (((st.entryAt (inp.device d).bytes x).map Prod.fst).getD 0) x
      (st.typeAt (inp.device d).bytes x) := by
  unfold held heldBy typeAt
  cases st.entryAt (inp.device d).bytes x with
  | none => rfl
  | some entry =>
    dsimp only
    cases dataFileEntryViolation entry.1 entry.2 st.extendedL2 st.hasDataFile
        (x - x % st.clusterSize) with
    | none => rfl
    | some _ => rfl

/-- An image has nothing of its own exactly at the places it leaves. -/
theorem held_absent_iff : st.held codec inp d dataDevice x = .absent ↔
    leaves (st.typeAt (inp.device d).bytes x) = true := by
  rw [held_eq_typeAt]
  cases st.typeAt (inp.device d).bytes x with
  | normal | compressed =>
    simp only [leaves, heldAs]
    split <;> simp
  | zeroPlain | zeroAlloc | unallocatedPlain | unallocatedAlloc | invalid => simp [leaves, heldAs]

/-- What an image gives at a place it maps without data is a zero. -/
theorem zero_of_held {b : UInt8} (hheld : st.held codec inp d dataDevice x = .gives b)
    (hmaps : leaves (st.typeAt (inp.device d).bytes x) = false)
    (hdata : stores (st.typeAt (inp.device d).bytes x) = false) : b = 0 := by
  rw [held_eq_typeAt] at hheld
  revert hmaps hdata hheld
  cases st.typeAt (inp.device d).bytes x <;> simp +contextual [leaves, stores, heldAs, eq_comm]

/-- An L2 entry lies in its table. -/
theorem entry_in_table : x / st.clusterSize % st.entriesPerL2 * st.entrySize + st.entrySize ≤
    st.clusterSize := by
  have hdvd : st.entrySize ∣ st.clusterSize := by
    unfold entrySize
    split
    · exact pow_dvd_pow 2 (show 4 ≤ st.clusterBits from le_trans (by decide) st.bits_ge)
    · exact pow_dvd_pow 2 (show 3 ≤ st.clusterBits from le_trans (by decide) st.bits_ge)
  have hmul : st.entriesPerL2 * st.entrySize = st.clusterSize := Nat.div_mul_cancel hdvd
  have hpos : 0 < st.entriesPerL2 := by
    apply pos_of_ne_zero
    intro h
    rw [h, zero_mul] at hmul
    exact st.clusterSize_pos.ne hmul
  calc x / st.clusterSize % st.entriesPerL2 * st.entrySize + st.entrySize
      = (x / st.clusterSize % st.entriesPerL2 + 1) * st.entrySize := (Nat.succ_mul _ _).symm
    _ ≤ st.entriesPerL2 * st.entrySize := Nat.mul_le_mul_right _ (Nat.mod_lt _ hpos)
    _ = st.clusterSize := hmul

section

variable (h : st.SameTables bytes bytes')

include h

theorem be_l1_same (hk : k < st.l1Size) :
    bytes'.be (st.l1TableOffset + k * 8) 8 = bytes.be (st.l1TableOffset + k * 8) 8 :=
  ByteMap.be_congr fun i hi => h _ (.inl (by omega))

theorem be_l2_same (hk : k < st.l1Size) (htable : st.tableOf bytes k ≠ 0) {off width : Nat}
    (hin : off + width ≤ st.clusterSize) :
    bytes'.be (st.tableOf bytes k + off) width = bytes.be (st.tableOf bytes k + off) width :=
  ByteMap.be_congr fun i hi => h _ (.inr ⟨k, hk, htable, by omega, by omega⟩)

/-- The same tables have the same entries. -/
theorem entryAt_same : st.entryAt bytes' x = st.entryAt bytes x := by
  unfold entryAt
  dsimp only
  split
  · rfl
  next hin =>
    rw [be_l1_same h (by omega)]
    split
    · rfl
    next htable =>
      have hentry := st.entry_in_table (x := x)
      have hword : ∀ off, off + 8 ≤ st.entrySize → bytes'.be (st.tableOf bytes
          (x / (st.clusterSize * st.entriesPerL2)) + (x / st.clusterSize % st.entriesPerL2 *
          st.entrySize + off)) 8 = bytes.be (st.tableOf bytes (x / (st.clusterSize *
          st.entriesPerL2)) + (x / st.clusterSize % st.entriesPerL2 * st.entrySize + off)) 8 :=
        fun off hoff => be_l2_same h (by omega) htable (by omega)
      have hfirst := hword 0 (by unfold entrySize; split <;> omega)
      simp only [tableOf, add_zero] at hfirst
      rw [hfirst]
      split
      next hext =>
        have hsecond := hword 8 (by rw [entrySize, if_pos hext])
        simp only [tableOf, ← add_assoc] at hsecond
        rw [hsecond]
      · rfl

theorem typeAt_same : st.typeAt bytes' x = st.typeAt bytes x := by
  rw [typeAt, typeAt, entryAt_same h]

theorem verdict_same : st.verdict bytes' x = st.verdict bytes x := by
  rw [verdict, verdict, entryAt_same h]

end

end Qcow2State

/-! ## The same devices with other bytes -/

/-- The devices with the given bytes. -/
def Inputs.withBytes (inp : Inputs) (bytes : Nat → ByteMap) : Inputs :=
  { inp with device := fun d => { inp.device d with bytes := bytes d } }

namespace ChainReader

variable (cx : ChainReader)

/-- The reader of the same chain over devices with other bytes, and with another decoder. -/
def refilled (codec : Codec) (bytes : Nat → ByteMap) : ChainReader :=
  { cx with codec, inp := cx.inp.withBytes bytes }

/-- The byte at `p` of the image on device `d` belongs to the header or a table. -/
def InTables (d p : Nat) : Prop :=
  p < 112 ∨ ∃ st, cx.states d = .qcow2 st ∧ st.InTables (cx.inp.device d).bytes p

/-- The devices `ds` with these bytes have the same headers and tables. -/
def SameTables (ds : List Nat) (bytes : Nat → ByteMap) : Prop :=
  ∀ d ∈ ds, ∀ p, cx.InTables d p → bytes d p = (cx.inp.device d).bytes p

variable {cx} {codec : Codec} {bytes : Nat → ByteMap} {ds : List Nat} {n d e x : Nat}

theorem layers_refilled (codec : Codec) (bytes : Nat → ByteMap) :
    (cx.refilled codec bytes).layers n d = cx.layers n d := by
  induction n generalizing d with
  | zero => rfl
  | succ n ih =>
    simp only [layers, ih]
    rfl

theorem SameTables.tables {st : Qcow2State} (h : cx.SameTables ds bytes) (hd : d ∈ ds)
    (hstate : cx.states d = .qcow2 st) : st.SameTables (cx.inp.device d).bytes (bytes d) :=
  fun p hp => h d hd p (.inr ⟨st, hstate, hp⟩)

/-! ## Places past the size -/

variable (cx) in
/-- The type of the virtual offset `x` in a qcow2 layer. -/
def typeAt (d x : Nat) : SubclusterType :=
  match cx.states d with
  | .qcow2 st => st.typeAt (cx.inp.device d).bytes x
  | _ => .invalid

variable (cx) in
/-- The virtual size in the header of a qcow2 image. -/
def headerSize (d : Nat) : Nat := (cx.inp.device d).bytes.be 24 8

variable (cx) in
/-- The first of the layers `ds` that maps `x` is `e`, and `x` is past the size of `e`. -/
def PastSize (ds : List Nat) (e x : Nat) : Prop :=
  (∃ above rest, ds = above ++ e :: rest ∧ (∀ a ∈ above, leaves (cx.typeAt a x) = true) ∧
    leaves (cx.typeAt e x) = false) ∧ cx.headerSize e ≤ x

variable (cx) in
/-- The data of the layers lies apart from their headers and tables. -/
def DataApart (ds : List Nat) : Prop :=
  ∀ e ∈ ds, ∀ st, cx.states e = .qcow2 st → ∀ x l2Entry bitmap,
    st.entryAt (cx.inp.device e).bytes x = some (l2Entry, bitmap) → cx.typeAt e x = .normal →
      ∀ a ∈ ds, st.dataReadDevice e (cx.config.devices e).dataDeviceIdx = some a →
        ¬ cx.InTables a (hostOf l2Entry + x % st.clusterSize)

section

variable (hsame : cx.SameTables ds bytes)

include hsame

theorem typeAt_refilled (hd : d ∈ ds) :
    (cx.refilled codec bytes).typeAt d x = cx.typeAt d x := by
  unfold typeAt
  show (match cx.states d with | .qcow2 st => st.typeAt (bytes d) x | _ => _) = _
  split
  next st hstate => exact Qcow2State.typeAt_same (hsame.tables hd hstate)
  · rfl

theorem pastSize_refilled :
    (cx.refilled codec bytes).PastSize ds e x ↔ cx.PastSize ds e x := by
  have hsize : e ∈ ds → (cx.refilled codec bytes).headerSize e = cx.headerSize e := fun he =>
    ByteMap.be_congr fun i hi => hsame e he _ (.inl (by omega))
  constructor
  · rintro ⟨⟨above, rest, hsplit, habove, hmaps⟩, hpast⟩
    have he : e ∈ ds := by simp [hsplit]
    rw [typeAt_refilled hsame he] at hmaps
    refine ⟨⟨above, rest, hsplit, fun a ha => ?_, hmaps⟩, (hsize he).symm.le.trans hpast⟩
    rw [← habove a ha, typeAt_refilled hsame (by simp [hsplit, ha])]
  · rintro ⟨⟨above, rest, hsplit, habove, hmaps⟩, hpast⟩
    have he : e ∈ ds := by simp [hsplit]
    refine ⟨⟨above, rest, hsplit, fun a ha => ?_, ?_⟩, (hsize he).le.trans hpast⟩
    · rw [← habove a ha, typeAt_refilled hsame (by simp [hsplit, ha])]
    · rw [typeAt_refilled hsame he, hmaps]

/-- A chain stays coherent if its tables stay the same and every stream inflates. -/
theorem Coherent.refilled (h : cx.Coherent ds)
    (hcodec : ∀ n stream, (codec.expand n stream).isSome)
    (hformats : ∀ e ∈ ds, (cx.config.devices e).format = .qcow2) :
    (cx.refilled codec bytes).Coherent ds where
  inflates d _ := by
    unfold Inflates
    split
    · exact fun _ _ _ _ stream _ => hcodec _ stream
    · exact fun _ _ _ _ stream _ => hcodec _ stream
    · trivial
  shrinks := by
    have hstarts : ∀ d ∈ ds, ∀ b u, (cx.refilled codec bytes).StartsCompressed d b u →
        cx.StartsCompressed d b u := by
      rintro d hd b u ⟨hu, hb, hcomp⟩
      refine ⟨hu, hb, ?_⟩
      have hformat : ((cx.refilled codec bytes).config.devices d).format = .qcow2 := hformats d hd
      unfold compressedAt at hcomp ⊢
      rw [hformats d hd]
      rw [hformat] at hcomp
      cases hstate : cx.states d with
      | qcow2 st =>
        have hstate' : (cx.refilled codec bytes).states d = .qcow2 st := hstate
        have hverdict : st.verdict ((cx.refilled codec bytes).inp.device d).bytes b = _ :=
          Qcow2State.verdict_same (hsame.tables hd hstate)
        simp only [hstate', hverdict] at hcomp
        dsimp only
        split at hcomp
        · rfl
        · cases hcomp
      | none | vmdk _ | vhd _ | vhdx _ | parallels _ | qcow1 _ =>
        have hstate' : (cx.refilled codec bytes).states d = _ := hstate
        simp only [hstate'] at hcomp
        cases hcomp
    exact h.shrinks.imp_of_mem fun ha hd hle b u v hu hv =>
      hle b u v (hstarts _ ha b u hu) (hstarts _ hd b v hv)
  bottom := h.bottom

end

section

variable (hformat : (cx.config.devices d).format = .qcow2)

include hformat

theorem held_absent_iff : cx.held d x = .absent ↔ leaves (cx.typeAt d x) = true := by
  unfold held typeAt
  rw [hformat]
  cases cx.states d with
  | qcow2 st => exact Qcow2State.held_absent_iff
  | none | vmdk _ | vhd _ | vhdx _ | parallels _ | qcow1 _ => simp [leaves]

theorem zero_of_held {b : UInt8} (hheld : cx.held d x = .gives b)
    (hmaps : leaves (cx.typeAt d x) = false) (hdata : stores (cx.typeAt d x) = false) : b = 0 := by
  unfold held at hheld
  unfold typeAt at hmaps hdata
  rw [hformat] at hheld
  cases hstate : cx.states d with
  | qcow2 st =>
    rw [hstate] at hheld hmaps hdata
    exact Qcow2State.zero_of_held hheld hmaps hdata
  | none | vmdk _ | vhd _ | vhdx _ | parallels _ | qcow1 _ =>
    rw [hstate] at hheld
    cases hheld

end

variable (hformats : ∀ e ∈ ds, (cx.config.devices e).format = .qcow2)

include hformats

/-- The content past a layer's size is what that layer holds there. -/
theorem PastSize.held_of_content (h : cx.PastSize ds e x) {b : UInt8}
    (hcontent : cx.contentOf ds x = some b) : cx.held e x = .gives b := by
  obtain ⟨⟨above, rest, hsplit, habove, hmaps⟩, -⟩ := h
  have he : (cx.config.devices e).format = .qcow2 := hformats e (by simp [hsplit])
  rw [contentOf, hsplit, List.map_append, List.map_cons, layered_append] at hcontent
  · cases hheld : cx.held e x with
    | absent =>
      rw [(held_absent_iff he).mp hheld] at hmaps
      cases hmaps
    | refused =>
      rw [layered, hheld] at hcontent
      cases hcontent
    | gives b' =>
      rw [layered_gives hheld] at hcontent
      rw [some.inj hcontent]
  · intro l hl
    obtain ⟨a, ha, rfl⟩ := List.mem_map.mp hl
    exact (held_absent_iff (hformats a (by simp [hsplit, ha]))).mpr (habove a ha)

/-- A decoder that makes ones of every stream. -/
def onesCodec : Codec where
  inflate _ _ _ := some fun _ => 1
  residue _ _ _ buf := buf

/-- Where a layer stores data, the data can be a one while all tables stay the same. -/
theorem exists_ones (hapart : cx.DataApart ds) (he : e ∈ ds)
    (hdata : stores (cx.typeAt e x) = true) :
    ∃ bytes, cx.SameTables ds bytes ∧
      ∀ b, (cx.refilled onesCodec bytes).held e x = .gives b → b = 1 := by
  have hformat : ∀ bytes, ((cx.refilled onesCodec bytes).config.devices e).format = .qcow2 :=
    fun _ => hformats e he
  cases hstate : cx.states e with
  | none | vmdk _ | vhd _ | vhdx _ | parallels _ | qcow1 _ =>
    unfold typeAt at hdata
    rw [hstate] at hdata
    cases hdata
  | qcow2 st =>
    have hstate' : ∀ bytes, (cx.refilled onesCodec bytes).states e = .qcow2 st := fun _ => hstate
    have htype : cx.typeAt e x = st.typeAt (cx.inp.device e).bytes x := by
      rw [typeAt, hstate]
    cases hentry : st.entryAt (cx.inp.device e).bytes x with
    | none =>
      rw [htype, Qcow2State.typeAt, hentry] at hdata
      cases hdata
    | some entry =>
      obtain ⟨l2Entry, bitmap⟩ := entry
      have hheld : ∀ bytes, cx.SameTables ds bytes → (cx.refilled onesCodec bytes).held e x =
          st.heldAs onesCodec (cx.inp.withBytes bytes) e (cx.config.devices e).dataDeviceIdx
          l2Entry x
            (cx.typeAt e x) := by
        intro bytes hsame
        have htables := hsame.tables he hstate
        simp only [held, hformat, hstate']
        rw [Qcow2State.held_eq_typeAt, htype]
        show st.heldAs _ _ _ _ (((st.entryAt (bytes e) x).map Prod.fst).getD 0) x
          (st.typeAt (bytes e) x) = _
        rw [Qcow2State.entryAt_same htables, Qcow2State.typeAt_same htables, hentry]
        rfl
      cases hty : cx.typeAt e x with
      | normal =>
        let data := st.dataReadDevice e (cx.config.devices e).dataDeviceIdx
        let place := hostOf l2Entry + x % st.clusterSize
        have hsame : cx.SameTables ds fun a p =>
            if data = some a ∧ p = place then 1 else (cx.inp.device a).bytes p := by
          intro a ha p hp
          refine if_neg ?_
          rintro ⟨hdev, rfl⟩
          exact hapart e he st hstate x l2Entry bitmap hentry hty a ha hdev hp
        refine ⟨_, hsame, fun b hb => ?_⟩
        rw [hheld _ hsame, hty] at hb
        simp only [Qcow2State.heldAs] at hb
        split at hb
        next readDev hdev =>
          rw [← Contribution.gives.inj hb]
          exact if_pos ⟨hdev, rfl⟩
        · cases hb
      | compressed =>
        refine ⟨fun a => (cx.inp.device a).bytes, fun _ _ _ _ => rfl, fun b hb => ?_⟩
        rw [hheld _ fun _ _ _ _ => rfl, hty] at hb
        simp only [Qcow2State.heldAs] at hb
        split at hb
        next out hout =>
          rw [← Contribution.gives.inj hb]
          unfold Qcow2State.inflated at hout
          split at hout
          next method extent _ _ =>
            cases method <;> cases hout <;> rfl
          · cases hout
        · cases hb
      | zeroPlain | zeroAlloc | unallocatedPlain | unallocatedAlloc | invalid =>
        rw [hty] at hdata
        cases hdata

omit hformats

/-- A chain of qcow2 layers whose data lies apart from the tables and can be read.  Past the size of
the first layer that maps a place every read gives zero, whatever the clusters and the compressed
streams hold, exactly if no such layer stores data there. -/
theorem past_size_zero_iff
    (hformats : ∀ e ∈ cx.layers n d, (cx.config.devices e).format = .qcow2)
    (hco : cx.Coherent (cx.layers n d)) (hapart : cx.DataApart (cx.layers n d))
    (hreads : ∀ e x, cx.PastSize (cx.layers n d) e x → stores (cx.typeAt e x) = true →
      ∀ bytes, cx.SameTables (cx.layers n d) bytes →
        ((cx.refilled onesCodec bytes).readChain n d x 1 (.fresh fun _ => 0)).1.isSome) :
    (∀ codec bytes, cx.SameTables (cx.layers n d) bytes →
      (cx.refilled codec bytes).Coherent (cx.layers n d) →
      ∀ s, Blank (cx.inp.withBytes bytes) s → ∀ calls call out,
        (call, some out) ∈ (cx.refilled codec bytes).runCalls n d calls s →
        ∀ e, ∀ i < call.len,
          (cx.refilled codec bytes).PastSize (cx.layers n d) e (call.off + i) → out i = 0) ↔
      ∀ e x, cx.PastSize (cx.layers n d) e x → stores (cx.typeAt e x) = false := by
  -- a read of any of the images gives what the layer that maps the place holds
  have hgives : ∀ {codec bytes s calls call out e i},
      (cx.refilled codec bytes).Coherent (cx.layers n d) → Blank (cx.inp.withBytes bytes) s →
      (call, some out) ∈ (cx.refilled codec bytes).runCalls n d calls s → i < call.len →
      (cx.refilled codec bytes).PastSize (cx.layers n d) e (call.off + i) →
      (cx.refilled codec bytes).held e (call.off + i) = .gives (out i) := by
    intro codec bytes s calls call out e i hco' hs hmem hi hpast
    have hformats' : ∀ e ∈ cx.layers n d,
      ((cx.refilled codec bytes).config.devices e).format = .qcow2 := hformats
    refine hpast.held_of_content hformats' ?_
    rw [← layers_refilled codec bytes] at hco' hformats' ⊢
    refine runCalls_gives hco' calls (fun call _ e he =>
      fits_of_format ?_ _ _) (.blank hs) hmem i hi
    rw [hformats' e he]
    decide
  constructor
  · intro hzero e x hpast
    by_contra hdata
    rw [Bool.not_eq_false] at hdata
    have he : e ∈ cx.layers n d := by
      obtain ⟨⟨above, rest, hsplit, -⟩, -⟩ := hpast
      simp [hsplit]
    obtain ⟨bytes, hsame, hone⟩ := exists_ones hformats hapart he hdata
    have hcodec : ∀ n stream, (onesCodec.expand n stream).isSome := expand_isSome fun _ _ _ => rfl
    have hco' : (cx.refilled onesCodec bytes).Coherent (cx.layers n d) :=
      Coherent.refilled hsame hco hcodec hformats
    obtain ⟨out, hout⟩ := isSome_iff_exists.mp (hreads e x hpast hdata bytes hsame)
    have hmem : (Call.cluster x 1, some out) ∈ (cx.refilled onesCodec bytes).runCalls n d
        [.cluster x 1] (.fresh fun _ => 0) := mem_runCalls_single hout
    have hpast' : (cx.refilled onesCodec bytes).PastSize (cx.layers n d) e (x + 0) :=
      (pastSize_refilled hsame).mpr hpast
    have hbyte := hone _ (hgives hco' (.fresh _) hmem Nat.one_pos hpast')
    rw [hzero onesCodec bytes hsame hco' _ (.fresh _) _ _ _ hmem e 0 Nat.one_pos hpast'] at hbyte
    cases hbyte
  · intro hdata codec bytes hsame hco' s hs calls call out hmem e i hi hpast
    obtain ⟨⟨above, rest, hsplit, -, hmaps⟩, -⟩ := id hpast
    have he : e ∈ cx.layers n d := by simp [hsplit]
    have hformat : ((cx.refilled codec bytes).config.devices e).format = .qcow2 := hformats e he
    refine zero_of_held hformat (hgives hco' hs hmem hi hpast) hmaps ?_
    rw [typeAt_refilled hsame he]
    exact hdata e _ ((pastSize_refilled hsame).mp hpast)

end ChainReader

/-- A qcow2 image of the given size with clusters of 512 bytes: the first is at 1536 and filled with
`byte`, and the L2 entry of the second is `entry`. -/
def plainImage (size : Nat) (byte : UInt8) (entry : Nat) : ByteMap := fun i =>
  if 1536 ≤ i ∧ i < 2048 then byte
  else imageOf [(4, 4, 3), (20, 4, 9), (24, 8, size), (36, 4, 1), (40, 8, 512), (100, 4, 104),
    (512, 8, 1024), (1024, 8, 1536), (1032, 8, entry)] i

/-- A qcow2 image with an empty L2 table. -/
def emptyImage : ByteMap :=
  imageOf [(4, 4, 2), (20, 4, 9), (24, 8, 1024), (36, 4, 1), (40, 8, 512), (512, 8, 1024)]

/-- A layer of 100 bytes under an empty one of 1024: byte 100 of the lower layer's cluster is
read. -/
theorem empty_over_short_disclosed :
    let inp := twoDevices 4 emptyImage (plainImage 100 0xCC 0)
    let cx := twoLayerReader inp .qcow2 .qcow2
    (initChainStates cx.config inp (fun _ => none) (.fresh fun _ => 0)).1.isSome ∧
    cx.PastSize (cx.layers 2 0) 1 100 ∧
    (cx.runCalls 2 0 [.cluster 0 512] (twoLayerStart inp .qcow2 .qcow2)).map (outByte · 100)
      = [some 0xCC] := by
  refine ⟨by decide +kernel, ⟨⟨[0], [], ?_⟩, ?_⟩, ?_⟩ <;> decide +kernel

/-- The state of both images. -/
def smallState : Qcow2State := ⟨9, by decide, by decide, 1, 512, 0, 0, 0, false⟩

/-- Where an image of that state has its table at 1024, the entry of `x` is there. -/
theorem smallState_entryAt {bytes : ByteMap} (htable : bytes.be 512 8 = 1024) (x : Nat) :
    smallState.entryAt bytes x =
      if x < 32768 then some (bytes.be (1024 + x / 512 * 8) 8, 0) else none := by
  show (if 1 ≤ x / 32768 then none
    else if hostOf (bytes.be (512 + x / 32768 * 8) 8) = 0 then none
    else some (bytes.be (hostOf (bytes.be (512 + x / 32768 * 8) 8) + x / 512 % 64 * 8) 8, 0)) = _
  by_cases hx : x < 32768
  · have hl1 : x / 32768 = 0 := Nat.div_eq_of_lt hx
    have hl2 : x / 512 % 64 = x / 512 := Nat.mod_eq_of_lt (by omega)
    rw [hl1, if_neg (by decide), Nat.zero_mul, Nat.add_zero, htable, hl2, if_pos hx]
    rfl
  · rw [if_pos (by omega), if_neg hx]

/-- The type of a place is that of its entry. -/
theorem smallState_typeAt {bytes : ByteMap} (htable : bytes.be 512 8 = 1024) (x : Nat) :
    smallState.typeAt bytes x =
      if x < 32768 then subclusterType (bytes.be (1024 + x / 512 * 8) 8) 0 0 false false
      else .unallocatedPlain := by
  have hplace : x % smallState.clusterSize / smallState.subclusterSize = 0 :=
    Nat.div_eq_of_lt (Nat.mod_lt x (by decide))
  rw [Qcow2State.typeAt, smallState_entryAt htable, hplace]
  by_cases hx : x < 32768
  · rw [if_pos hx, if_pos hx]
    rfl
  · rw [if_neg hx, if_neg hx]

/-- Past the first cluster nothing but zeros is mapped. -/
theorem plainImage_typeAt {x : Nat} (hx : 512 ≤ x) :
    stores (smallState.typeAt (plainImage 512 0xCC 1) x) = false := by
  have hall : ∀ k < 64, 0 < k → stores (subclusterType ((plainImage 512 0xCC 1).be (1024 + k * 8) 8)
      0 0 false false) = false := by decide +kernel
  rw [smallState_typeAt (by decide +kernel)]
  split
  · exact hall _ (by omega) (by omega)
  · rfl

theorem emptyImage_typeAt (x : Nat) : smallState.typeAt emptyImage x = .unallocatedPlain := by
  have hall : ∀ k < 64, subclusterType (emptyImage.be (1024 + k * 8) 8) 0 0 false false =
      .unallocatedPlain := by decide +kernel
  rw [smallState_typeAt (by decide +kernel)]
  split
  · exact hall _ (by omega)
  · rfl

/-- The data of the lower image is in its fourth cluster, behind the tables. -/
theorem plainImage_apart {x l2Entry bitmap : Nat} (hx : x < 512)
    (hentry : smallState.entryAt (plainImage 512 0xCC 1) x = some (l2Entry, bitmap)) :
    112 ≤ hostOf l2Entry + x % smallState.clusterSize ∧
      ¬ smallState.InTables (plainImage 512 0xCC 1) (hostOf l2Entry +
        x % smallState.clusterSize) := by
  have hplace : 1536 ≤ hostOf l2Entry + x % smallState.clusterSize := by
    rw [smallState_entryAt (by decide +kernel), if_pos (by omega), Nat.div_eq_of_lt hx] at hentry
    cases hentry
    exact le_trans (by decide +kernel) (Nat.le_add_right _ _)
  refine ⟨by omega, ?_⟩
  rintro (⟨-, hhi⟩ | ⟨k, hk, -, -, hhi⟩)
  · exact absurd (lt_of_le_of_lt hplace hhi) (by decide)
  · obtain rfl : k = 0 := Nat.lt_one_iff.mp hk
    exact absurd (lt_of_le_of_lt hplace hhi) (by decide +kernel)

/-- A layer of 512 bytes whose second cluster is mapped as zeros. -/
theorem empty_over_short_zero :
    let inp := twoDevices 4 emptyImage (plainImage 512 0xCC 1)
    let cx := twoLayerReader inp .qcow2 .qcow2
    ∃ out, (cx.readChain 2 0 512 512 (twoLayerStart inp .qcow2 .qcow2)).1 = some out ∧
      cx.PastSize (cx.layers 2 0) 1 512 ∧ out 0 = 0 := by
  intro inp cx
  have hstates : ∀ d < 2, cx.states d = .qcow2 smallState := by
    have hcheck : ∀ d < 2, (match cx.states d with
        | .qcow2 st => decide (st = smallState)
        | _ => false) = true := by decide +kernel
    intro d hd
    have hd := hcheck d hd
    split at hd
    next st hstate => rw [hstate, of_decide_eq_true hd]
    · cases hd
  have hlayers : cx.layers 2 0 = [0, 1] := by decide +kernel
  have htop : ∀ x, cx.typeAt 0 x = .unallocatedPlain := by
    intro x
    rw [ChainReader.typeAt, hstates 0 (by decide)]
    exact emptyImage_typeAt x
  have hbase : ∀ x, cx.typeAt 1 x = smallState.typeAt (plainImage 512 0xCC 1) x := by
    intro x
    rw [ChainReader.typeAt, hstates 1 (by decide)]
    rfl
  have hpast : cx.PastSize (cx.layers 2 0) 1 512 := by
    refine ⟨⟨[0], [], ?_⟩, ?_⟩ <;> decide +kernel
  have hdata : ∀ e x, cx.PastSize (cx.layers 2 0) e x → stores (cx.typeAt e x) = false := by
    rintro e x ⟨⟨above, rest, hsplit, -⟩, hsize⟩
    have he : e = 0 ∨ e = 1 := by
      have hmem : e ∈ cx.layers 2 0 := by simp [hsplit]
      simpa [hlayers] using hmem
    rcases he with rfl | rfl
    · rw [htop]
      rfl
    · rw [hbase]
      exact plainImage_typeAt (le_trans (by decide +kernel) hsize)
  have hapart : cx.DataApart (cx.layers 2 0) := by
    rw [hlayers]
    intro e he st hstate x l2Entry bitmap hentry hnormal a ha hdev hin
    rcases (by simpa using he : e = 0 ∨ e = 1) with rfl | rfl
    · rw [htop] at hnormal
      cases hnormal
    · obtain rfl : smallState = st := by
        rw [hstates 1 (by decide)] at hstate
        exact DeviceState.qcow2.inj hstate
      obtain rfl : 1 = a := some.inj hdev
      have hx : x < 512 := by
        by_contra hx
        have hzero := plainImage_typeAt (x := x) (by omega)
        rw [← hbase, hnormal] at hzero
        cases hzero
      obtain ⟨hheader, htables⟩ := plainImage_apart hx hentry
      rcases hin with hlt | ⟨st, hst, htab⟩
      · omega
      · rw [hstates 1 (by decide)] at hst
        cases hst
        exact htables htab
  have hunits : ∀ d ∈ cx.layers 2 0, (cx.unitOf d).all (· == 512) = true := by decide +kernel
  have hco : cx.Coherent (cx.layers 2 0) :=
    coherent_of_unit (expand_isSome fun _ _ _ => rfl) (unit_of_check hunits) (by decide +kernel)
  have hrun : (cx.readChain 2 0 512 512 (twoLayerStart inp .qcow2 .qcow2)).1.isSome := by
    decide +kernel
  obtain ⟨out, hout⟩ := isSome_iff_exists.mp hrun
  have hmem : (Call.cluster 512 512, some out) ∈
      cx.runCalls 2 0 [.cluster 512 512] (twoLayerStart inp .qcow2 .qcow2) :=
    ChainReader.mem_runCalls_single hout
  have hinit : cx.Initialised _ _ (twoLayerStart inp .qcow2 .qcow2) :=
    opened_init (by decide +kernel)
  have hblank : Blank inp (twoLayerStart inp .qcow2 .qcow2) :=
    Blank.initChainStates (.fresh _) hinit
  have hzero := (ChainReader.past_size_zero_iff (by decide +kernel) hco hapart
    fun e x hpast hstores => by rw [hdata e x hpast] at hstores; cases hstores).mpr hdata
  exact ⟨out, hout, hpast, hzero cx.codec (fun d => (inp.device d).bytes) (fun _ _ _ _ => rfl) hco _
    hblank _ _ _ hmem 1 0 (by decide) hpast⟩

end Instar.Read
