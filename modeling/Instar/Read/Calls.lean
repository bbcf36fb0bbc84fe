import Instar.Read.Coherence

/-!
# Sequences of calls

The callers of the chain reader make many calls that share the sector caches and the staging buffer.
`runCalls` runs a sequence of calls, failed ones included, and `runCalls_gives` says that on a
coherent chain every call that succeeds gives the content of the chain, whatever was called before.
-/

namespace Instar.Read

open Fallible Keeps ChainReader Option

/-! ## After `init_chain_states` -/

/-- The caches are right and nothing is staged. -/
def Blank (inp : Inputs) (s : ReaderState) : Prop :=
  CachesValid inp s ∧ s.stagingClusterOffset = none

variable {inp : Inputs} {codec : Codec} {cx : ChainReader} {ds : List Nat}

theorem Blank.fresh (staging : ByteMap) : Blank inp (.fresh staging) := ⟨.fresh staging, rfl⟩

theorem Blank.stable : Stable inp (Blank inp) where
  valid _ hs := hs.1
  setCache _ _ _ _ _ hs hread := ⟨hs.1.setCache hread, hs.2⟩

theorem Blank.dropCaches (d : Nat) : Keeps (Blank inp) (dropCaches d) := by
  intro s hs
  refine ⟨fun d' slot n hn => ?_, hs.2⟩
  simp only [Read.dropCaches] at hn ⊢
  split at hn
  · cases hn
  next hd =>
    rw [if_neg hd]
    exact hs.1 d' slot n hn

theorem Blank.readBe (d : Nat) (slot : CacheSlot) (off width : Nat) :
    Keeps (Blank inp) (readBeCached inp d slot off width) :=
  (readBeCached_ensures Blank.stable d slot off width).keeps

theorem Blank.readBeWhen (c : Prop) [Decidable c] (d : Nat) (slot : CacheSlot) (off width : Nat) :
    Keeps (Blank inp) (readBeWhen inp c d slot off width) :=
  (readBeWhen_ensures Blank.stable c d slot off width).keeps

/-- The header of a qcow2 image is read through the caches, which are then dropped. -/
theorem Blank.qcow2Init (d : Nat) : Keeps (Blank inp) (Qcow2State.init inp d) := by
  refine (readBe d .first 4 4).bind fun version => require.bind fun _ => ?_
  refine (readBe d .first 20 4).bind fun clusterBits => require.bind fun _ =>
    require.bind fun _ => ?_
  refine (readBe d .first 24 8).bind fun virtualSize => ?_
  refine (readBe d .first 32 4).bind fun cryptMethod => ?_
  refine (readBeWhen _ d .first 72 8).bind fun features => ?_
  refine (readBeWhen _ d .first 104 4).bind fun compression => ?_
  refine (readBeWhen _ d .first 100 4).bind fun headerLength => ?_
  refine (readBe d .first 36 4).bind fun l1Size => ?_
  refine (readBe d .first 40 8).bind fun l1TableOffset => require.bind fun _ => ?_
  refine ofOption.bind fun l1TableEnd => require.bind fun _ => ?_
  exact (dropCaches d).bind fun _ => .pure

theorem Blank.gdOffset (d size offset : Nat) :
    Keeps (Blank inp) (VmdkState.gdOffset inp d size offset) := by
  refine .ite ?_ .pure
  refine require.bind fun _ => require.bind fun _ => ?_
  refine ofOption.bind fun sector => require.bind fun _ => ?_
  exact require.bind fun _ => require.bind fun _ => .pure

/-- The other headers are parsed from sectors read past the caches. -/
theorem Blank.vmdkInit (d size : Nat) : Keeps (Blank inp) (VmdkState.init inp d size) := by
  refine ofOption.bind fun sector => ofOption.bind fun _ => ofOption.bind fun _ => ?_
  refine require.bind fun _ => require.bind fun _ => require.bind fun _ =>
    require.bind fun _ => ?_
  refine ofOption.bind fun sectorsPerGt => ofOption.bind fun rounded => ?_
  refine require.bind fun _ => (gdOffset d size _).bind fun gdOffsetSectors => ?_
  refine ofOption.bind fun actualSize => ofOption.bind fun gdByteOffset => ?_
  exact require.bind fun _ => ofOption.bind fun _ => require.bind fun _ => .pure

theorem Blank.dynamicHeader (d off : Nat) :
    Keeps (Blank inp) (VhdState.readDynamicHeader inp d off) := by
  refine ofOption.bind fun sector => .ite .pure ?_
  exact require.bind fun _ => ofOption.bind fun next => .pure

theorem Blank.initSparse (d dataOffset : Nat) (ty : VhdDiskType) :
    Keeps (Blank inp) (VhdState.initSparse inp d dataOffset ty) := by
  refine ofOption.bind fun actualSize => require.bind fun _ => ?_
  refine (dynamicHeader d dataOffset).bind fun header => require.bind fun _ => ?_
  refine require.bind fun _ => require.bind fun _ => require.bind fun _ => ?_
  exact ofOption.bind fun batEnd => require.bind fun _ => .pure

theorem Blank.vhdInit (d : Nat) : Keeps (Blank inp) (VhdState.init inp d) := by
  refine ofOption.bind fun first => .ite ?_ ?_
  · exact .ite .pure (.ite (initSparse d _ _) (.ite (initSparse d _ _) .fail))
  · exact require.bind fun _ => ofOption.bind fun last => require.bind fun _ => .pure

theorem Blank.parallelsInit (d : Nat) : Keeps (Blank inp) (ParallelsState.init inp d) := by
  refine ofOption.bind fun sector => require.bind fun _ => require.bind fun _ => ?_
  refine require.bind fun _ => require.bind fun _ => require.bind fun _ => ?_
  exact require.bind fun _ => ofOption.bind fun _ => ofOption.bind fun _ => .pure

theorem Blank.qcow1Init (d : Nat) : Keeps (Blank inp) (Qcow1State.init inp d) := by
  refine ofOption.bind fun sector => require.bind fun _ => require.bind fun _ => ?_
  refine require.bind fun _ => require.bind fun _ => require.bind fun _ => ?_
  refine require.bind fun _ => require.bind fun _ => require.bind fun _ => ?_
  exact require.bind fun _ => require.bind fun _ => ofOption.bind fun _ => .pure

variable {config : ChainConfig} {openVhdx : Nat → Option VhdxState} {size : Nat}

theorem Blank.initDevice (d : Nat) : Keeps (Blank inp) (initDevice config inp openVhdx d) := by
  unfold Read.initDevice
  split
  · exact (qcow2Init d).bind fun _ => .pure
  · exact (vmdkInit d _).bind fun _ => .pure
  · exact (vhdInit d).bind fun _ => require.bind fun _ => .pure
  · exact ofOption.bind fun _ => require.bind fun _ => .pure
  · exact (parallelsInit d).bind fun _ => .pure
  · exact (qcow1Init d).bind fun _ => .pure
  · exact .pure
  · exact .pure

theorem Blank.initDevices (n d : Nat) (states : Nat → DeviceState) :
    Keeps (Blank inp) (initDevices config inp openVhdx n d states) := by
  induction n generalizing d states with
  | zero => exact .pure
  | succ n ih => exact (initDevice d).bind fun _ => ih _ _

theorem Blank.initChainStates {s s' : ReaderState} {states : Nat → DeviceState} (hs : Blank inp s)
    (h : initChainStates config inp openVhdx s = (some states, s')) : Blank inp s' := by
  have hkeeps : Keeps (Blank inp) (Read.initChainStates config inp openVhdx) :=
    require.bind fun _ => require.bind fun _ => initDevices _ _ _
  have := hkeeps s hs
  rwa [h] at this

/-! ## Calls -/

/-- A call of one of the two readers. -/
inductive Call where
  | cluster (off len : Nat)
  | range (off len : Nat)
deriving DecidableEq, Repr

namespace Call

def off : Call → Nat
  | cluster off _ => off
  | range off _ => off

def len : Call → Nat
  | cluster _ len => len
  | range _ len => len

/-- Make the call for the chain of `n` devices from `d` on. -/
def run (cx : ChainReader) (n d : Nat) : Call → Fallible ReaderState ByteMap
  | cluster off len => cx.readChain n d off len
  | range off len => cx.readRange n d off len

end Call

namespace ChainReader

variable (cx : ChainReader)

/-- The calls one after the other, each with its result; the state a call leaves is the next
one's. -/
def runCalls (n d : Nat) : List Call → ReaderState → List (Call × Option ByteMap)
  | [], _ => []
  | call :: calls, s => (call, (call.run cx n d s).1) :: runCalls n d calls (call.run cx n d s).2

variable {cx} {ds : List Nat} {tags : Tags} {n d : Nat} {s : ReaderState} {out staging : ByteMap}

theorem Sound.blank (hs : Blank cx.inp s) : cx.Sound ds tags s :=
  ⟨hs.1, fun b hb => by rw [hs.2] at hb; cases hb⟩

variable {call : Call} {I : ReaderState → Prop} {content : Nat → Option UInt8}

/-- If every call keeps an invariant and gives a content, so does every call of a sequence. -/
theorem runCalls_of_calls (calls : List Call)
    (hcalls : ∀ call ∈ calls, Ensures I (call.run cx n d) (Gives content call.off call.len))
    (hs : I s)
    (hmem : (call, some out) ∈ cx.runCalls n d calls s) : Gives content call.off call.len out := by
  induction calls generalizing s with
  | nil => cases hmem
  | cons first rest ih =>
    obtain ⟨hs', hgives⟩ := hcalls first (by simp) s hs
    rcases List.mem_cons.mp hmem with heq | hmem
    · obtain ⟨rfl, hout⟩ := Prod.mk.injEq .. ▸ heq
      exact hgives out hout.symm
    · exact ih (fun call hcall => hcalls call (by simp [hcall])) hs' hmem

theorem mem_runCalls_single (h : (call.run cx n d s).1 = some out) :
    (call, some out) ∈ cx.runCalls n d [call] s := by
  rw [runCalls, h]
  exact List.mem_cons_self ..

/-- A call whose single reads give a content gives it. -/
theorem call_of_reads (call : Call) (hread : ∀ cur m, call.off ≤ cur →
      cur + m ≤ call.off + call.len → Ensures I (cx.readChain n d cur m) (Gives content cur m)) :
    Ensures I (call.run cx n d) (Gives content call.off call.len) := by
  cases call with
  | cluster off len => exact hread off len le_rfl le_rfl
  | range off len => exact readRange_of_pieces fun cur m hlo hhi _ => hread cur m hlo hhi

/-- The tags of an operation that reads one chain only. -/
def Tags.lone : Tags := ⟨fun _ => True, fun _ => False⟩

theorem Clear.lone (off len : Nat) : cx.Clear ds .lone [] off len where
  left _ h := nomatch h
  own _ _ := trivial
  stray _ h := h.elim

/-- Whatever was called before, a call of a coherent chain that succeeds gives its content. -/
theorem runCalls_gives (hco : cx.Coherent (cx.layers n d)) (calls : List Call)
    (hfits : ∀ call ∈ calls, ∀ e ∈ cx.layers n d, cx.Fits e call.off call.len)
    (hs : cx.Sound (cx.layers n d) .lone s) (hmem : (call, some out) ∈ cx.runCalls n d calls s) :
    Gives (cx.content n d) call.off call.len out := by
  refine runCalls_of_calls calls (fun call hcall => ?_) hs hmem
  exact call_of_reads call fun cur m hlo hhi => readChain_top hco (.lone cur m) fun e he =>
    (hfits call hcall e he).mono hlo hhi

/-- The formats whose readers take a chunk of any shape. -/
def anyChunkFormats : List ImageFormat := [.qcow2, .qcow1, .vmdk4, .parallels, .raw]

theorem fits_of_format (h : (cx.config.devices d).format ∈ anyChunkFormats) (off len : Nat) :
    cx.Fits d off len where
  sparse := by
    refine ⟨?_, ?_⟩ <;>
    · intro hformat
      rw [hformat] at h
      exact absurd h (by decide)
  flat hformat := by
    rw [hformat] at h
    exact absurd h (by decide)

variable (cx) in
/-- `init_chain_states` accepts the devices with the states of the reader, and leaves `s`. -/
def Initialised (openVhdx : Nat → Option VhdxState) (staging : ByteMap) (s : ReaderState) : Prop :=
  initChainStates cx.config cx.inp openVhdx (.fresh staging) = (some cx.states, s)

theorem Initialised.sound (h : cx.Initialised openVhdx staging s) : cx.Sound ds tags s :=
  .blank (Blank.initChainStates (.fresh staging) h)

/-- The range reads of a coherent chain, whose layers serve every piece inside a cluster of the top
device. -/
theorem Initialised.readsGive (h : cx.Initialised openVhdx staging s)
    (hco : cx.Coherent (cx.layers n d))
    (hfits : ∀ e ∈ cx.layers n d, ∀ off len, (0 < (cx.config.devices d).clusterSize →
      off % (cx.config.devices d).clusterSize + len ≤ (cx.config.devices d).clusterSize) →
      cx.Fits e off len) : cx.ReadsGive n d (cx.content n d) s :=
  ⟨cx.Sound (cx.layers n d) .lone, h.sound, fun _ _ => readRange_of_pieces fun cur m _ _ hin =>
    readChain_top hco (.lone cur m) fun e he => hfits e he cur m hin⟩

/-- Reads of a chain that `init_chain_states` accepts, if the chain is coherent: whatever the
sequence of calls, a call that succeeds gives at every offset what the first layer that does not
leave it has there. -/
theorem initialised_calls_pointwise {openVhdx : Nat → Option VhdxState} {staging : ByteMap}
    {s : ReaderState} (hinit : cx.Initialised openVhdx staging s)
    (hformats : ∀ e ∈ cx.layers n d, (cx.config.devices e).format ∈ anyChunkFormats)
    (hco : cx.Coherent (cx.layers n d)) (calls : List Call) {call : Call} {out : ByteMap}
    (hmem : (call, some out) ∈ cx.runCalls n d calls s) :
    Gives (cx.content n d) call.off call.len out :=
  runCalls_gives hco calls (fun _ _ e he => fits_of_format (hformats e he) _ _) hinit.sound hmem

end ChainReader

/-! ## Images for the cases below -/

/-- A zeroed image with big-endian fields, given by offset, width and value. -/
def imageOf (fields : List (Nat × Nat × Nat)) : ByteMap :=
  fields.foldl (fun m field => m.splice field.1 field.2.1 (.ofBe field.2.2 field.2.1)) fun _ => 0

/-- A qcow2 image whose first cluster, of 512 bytes, is compressed; the stream is at 1536.  The
other clusters are unallocated. -/
def packedImage (stream : Nat) : ByteMap :=
  imageOf [(4, 4, 2), (20, 4, 9), (24, 8, 1024), (36, 4, 1), (40, 8, 512), (512, 8, 1024),
    (1024, 8, 2 ^ 62 + 1536), (1536, 1, stream)]

/-- The same with clusters of 1024 bytes; the stream is at 3072. -/
def widePackedImage (stream : Nat) : ByteMap :=
  imageOf [(4, 4, 2), (20, 4, 10), (24, 8, 1024), (36, 4, 1), (40, 8, 1024), (1024, 8, 2048),
    (2048, 8, 2 ^ 62 + 3072), (3072, 1, stream)]

/-- Two devices of `capacity` sectors each, all of them readable. -/
def twoDevices (capacity : Nat) (top base : ByteMap) : Inputs where
  sectorSize := 512
  sectorSize_pos := sector_pos
  device d := ⟨capacity, if d = 0 then top else base, fun _ => true⟩

/-- A chain of two layers of the given formats. -/
def twoLayers (top base : ImageFormat) : ChainConfig where
  deviceCount := 2
  devices d := ⟨if d = 0 then top else base, false, 1024, 0, 0, 0⟩
  segments := [⟨0, 2⟩]

/-- The reader of the chains of a configuration, with the states `init_chain_states` gives it. -/
def opened (codec : Codec) (inp : Inputs) (config : ChainConfig) : ChainReader where
  codec
  inp
  config
  states := (initChainStates config inp (fun _ => none) (.fresh fun _ => 0)).1.getD fun _ => .none

/-- The state in which its reads start. -/
def openedStart (inp : Inputs) (config : ChainConfig) : ReaderState :=
  (initChainStates config inp (fun _ => none) (.fresh fun _ => 0)).2

theorem opened_init (h : (initChainStates config inp (fun _ => none) (.fresh fun _ =>
    0)).1.isSome) :
    (opened codec inp config).Initialised (fun _ => none) (fun _ =>
        0) (openedStart inp config) := by
  obtain ⟨states, hstates⟩ := isSome_iff_exists.mp h
  refine Prod.ext ?_ rfl
  show (initChainStates config inp (fun _ => none) (.fresh fun _ => 0)).1 =
    some ((initChainStates config inp (fun _ => none) (.fresh fun _ => 0)).1.getD _)
  rw [hstates]
  rfl

/-- The reader of a chain of two layers. -/
def twoLayerReader (inp : Inputs) (top base : ImageFormat) : ChainReader :=
  opened copyCodec inp (twoLayers top base)

/-- The state in which the reads of a two-layer chain start. -/
def twoLayerStart (inp : Inputs) (top base : ImageFormat) : ReaderState :=
  openedStart inp (twoLayers top base)

/-- The byte at place `i` of the result of a call. -/
def outByte (result : Call × Option ByteMap) (i : Nat) : Option UInt8 :=
  result.2.map fun out => out i

/-- Every unit inflates, if every stream does. -/
theorem expand_isSome (h : ∀ dec bytes n, (codec.inflate dec bytes n).isSome) (n : Nat)
    (unit : Method × Stream) : (codec.expand n unit).isSome := by
  obtain ⟨method, stream⟩ := unit
  cases stream with
  | empty => rfl
  | data bytes =>
    cases method with
    | zlib =>
      obtain ⟨out, hout⟩ := isSome_iff_exists.mp (h .zlib bytes n)
      simp only [Codec.expand, hout]
      rfl
    | deflate => exact h _ _ _
    | zstd => exact h _ _ _

/-- Layers with units of one size are coherent, if everything inflates. -/
theorem coherent_of_unit (hcodec : ∀ n unit, (cx.codec.expand n unit).isSome)
    (hunits : ∀ d ∈ ds, ∀ u, cx.unitOf d = some u → u = size)
    (hformat : ∀ d ∈ ds, (cx.config.devices d).format ≠ .parallels) : cx.Coherent ds where
  inflates d _ := by
    unfold ChainReader.Inflates
    split
    · exact fun _ _ _ _ stream _ => hcodec _ stream
    · exact fun _ _ _ _ stream _ => hcodec _ stream
    · trivial
  shrinks := by
    refine List.Pairwise.imp_of_mem (R := fun _ _ => True) (fun ha hd _ b u v hu hv => ?_)
      (List.pairwise_of_forall fun _ _ => trivial)
    rw [hunits _ ha u hu.1, hunits _ hd v hv.1]
  bottom := List.Pairwise.imp_of_mem (R := fun _ _ => True) (fun ha _ _ => hformat _ ha)
    (List.pairwise_of_forall fun _ _ => trivial)

theorem unit_of_check (h : ∀ d ∈ ds, (cx.unitOf d).all (· == size) = true) :
    ∀ d ∈ ds, ∀ u, cx.unitOf d = some u → u = size := by
  intro d hd u hu
  have hd := h d hd
  rw [hu] at hd
  simpa using hd

/-- A small cluster over a large one, both compressed and at offset 0: after a read of the small
one, the large one is taken to be staged. -/
theorem packed_over_wide_stale :
    let inp := twoDevices 7 (packedImage 0xAA) (widePackedImage 0xBB)
    let cx := twoLayerReader inp .qcow2 .qcow2
    (initChainStates cx.config inp (fun _ => none) (.fresh fun _ => 0)).1.isSome ∧
    (cx.runCalls 2 0 [.cluster 0 256, .cluster 512 256] (twoLayerStart inp .qcow2 .qcow2)).map
      (outByte · 0) = [some 0xAA, some 0] ∧
    cx.content 2 0 512 = some 0xBB := by
  decide +kernel

/-- A compressed cluster over a raw device. -/
theorem packed_over_raw_pointwise :
    let inp := twoDevices 4 (packedImage 0xAA) fun _ => 0xBB
    let cx := twoLayerReader inp .qcow2 .raw
    ∃ out, (cx.readChain 2 0 256 512 (twoLayerStart inp .qcow2 .raw)).1 = some out ∧
      Gives (cx.content 2 0) 256 512 out := by
  intro inp cx
  have hrun : (cx.readChain 2 0 256 512 (twoLayerStart inp .qcow2 .raw)).1.isSome := by
    decide +kernel
  obtain ⟨out, hout⟩ := isSome_iff_exists.mp hrun
  have hmem : (Call.cluster 256 512, some out) ∈
      cx.runCalls 2 0 [.cluster 256 512] (twoLayerStart inp .qcow2 .raw) :=
    mem_runCalls_single hout
  have hunits : ∀ d ∈ cx.layers 2 0, (cx.unitOf d).all (· == 512) = true := by decide +kernel
  exact ⟨out, hout, initialised_calls_pointwise (opened_init (by decide +kernel))
    (by decide +kernel) (coherent_of_unit (expand_isSome fun _ _ _ =>
      rfl) (unit_of_check hunits) (by decide +kernel)) _ hmem⟩

end Instar.Read
