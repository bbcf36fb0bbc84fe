import Instar.Lib.Scan
import Instar.Read.Calls

/-!
# The compare operation

`compare` reads two chains chunk by chunk up to the smaller of the two sizes, and the rest of the
larger image after that.  All reads share one staging buffer; its tag is dropped between the read of
the first image and that of the second, but not between the second image and the next chunk of the
first.  `compare_decides` says when the verdict is right nevertheless: if, up to the first
difference of the two images, no compressed unit of the first image that reaches over the start of a
read of it starts together with one of the second image.
-/

namespace Instar.Compare

open Fallible Read

/-! ## The operation -/

/-- `CompareConfig`: how the devices are shared out between the two images. -/
structure CompareConfig where
  valid : Bool
  image1DeviceCount : Nat
  image2DeviceCount : Nat

namespace CompareConfig

variable (config : CompareConfig)

/-- `image1_device_count()`: a count of zero, or a config without the magic, stands for one
device. -/
def image1Devices : Nat :=
  if config.valid then if config.image1DeviceCount = 0 then 1 else config.image1DeviceCount else 1

def image2Devices : Nat :=
  if config.valid then if config.image2DeviceCount = 0 then 1 else config.image2DeviceCount else 1

end CompareConfig

/-- The report of the operation. -/
structure CompareResult where
  identical : Nat := 0
  firstMismatchOffset : Nat := 0
  totalBytesCompared : Nat := 0
  flags : Nat := 0
deriving DecidableEq, Repr

def flagSizeMismatch : Nat := 1

/-- The result that is sent, and whether one of the reads failed. -/
structure Report where
  result : CompareResult
  readFailed : Bool
deriving DecidableEq, Repr

/-- `SUPPORTED_INCOMPAT_FEATURES`: dirty, corrupt, external data, compression type, extended L2. -/
def supportedIncompatFeatures : Nat := 0x1F

/-- An image with an incompatible feature outside the supported ones. -/
def unsupported : DeviceState → Bool
  | .qcow2 st => st.incompatibleFeatures &&& (0xFFFFFFFFFFFFFFFF ^^^ supportedIncompatFeatures) ≠ 0
  | _ => false

/-- A LUKS-encrypted image, which is refused without a passphrase. -/
def luksEncrypted : DeviceState → Bool
  | .qcow2 st => st.cryptMethod = 2
  | _ => false

/-- Forget what is in the staging buffer. -/
def invalidate : Fallible ReaderState Unit :=
  fun s => (some (), { s with stagingClusterOffset := none })

section Images

variable (cx : ChainReader) (n1 n2 : Nat)

def vsize1 : Nat := (cx.config.devices 0).virtualSize

/-- The second image starts behind the devices of the first. -/
def vsize2 : Nat := (cx.config.devices n1).virtualSize

def minVsize : Nat := if vsize1 cx < vsize2 cx n1 then vsize1 cx else vsize2 cx n1

/-- The cluster size of an image, which is a sector where the config has none. -/
def clusterSizeOf (d : Nat) : Nat :=
  if 0 < (cx.config.devices d).clusterSize then (cx.config.devices d).clusterSize
  else cx.inp.sectorSize

/-- The bytes compared at a time. -/
def chunkSize : Nat :=
  let chunk := if clusterSizeOf cx n1 < clusterSizeOf cx 0 then clusterSizeOf cx 0
    else clusterSizeOf cx n1
  if maxSectorSize < chunk then maxSectorSize else chunk

/-- One chunk of both images: the places at which they differ. -/
def readBoth (off n : Nat) : Fallible ReaderState (Nat → Bool) := do
  let buf1 ← cx.readChain n1 0 off n
  invalidate
  let buf2 ← cx.readChain n2 n1 off n
  pure fun i => buf1 i != buf2 i

/-- One chunk of the `n` devices from `d` on: the places that are not zero. -/
def readExtra (n d off len : Nat) : Fallible ReaderState (Nat → Bool) := do
  let buf1 ← cx.readChain n d off len
  pure fun i => buf1 i != 0

/-- The scan of the larger image past the size of the smaller one. -/
def scanExtra (s : ReaderState) : Scan × ReaderState :=
  if vsize2 cx n1 < vsize1 cx then
    scan (chunkSize cx n1) (readExtra cx n1 0) (vsize1 cx - minVsize cx n1) (minVsize cx n1)
      (vsize1 cx - minVsize cx n1) s
  else
    scan (chunkSize cx n1) (readExtra cx n2 n1) (vsize2 cx n1 - minVsize cx n1) (minVsize cx n1)
      (vsize2 cx n1 - minVsize cx n1) s

/-- The part of the operation that reads the images. -/
def compareImages (s : ReaderState) : Report :=
  let flags := if vsize1 cx ≠ vsize2 cx n1 then flagSizeMismatch else 0
  let min := minVsize cx n1
  match scan (chunkSize cx n1) (readBoth cx n1 n2) min 0 min s with
  | (.unreadable off, _) => ⟨{ totalBytesCompared := off, flags }, true⟩
  | (.found off, _) => ⟨{ firstMismatchOffset := off, totalBytesCompared := min, flags }, false⟩
  | (.clean, s') =>
    if vsize1 cx ≠ vsize2 cx n1 then
      match scanExtra cx n1 n2 s' with
      -- a read that fails here is taken for a mismatch
      | (.unreadable off, _) => ⟨{ firstMismatchOffset := off, totalBytesCompared := min, flags },
        true⟩
      | (.found off, _) => ⟨{ firstMismatchOffset := off, totalBytesCompared := min, flags }, false⟩
      | (.clean, _) => ⟨{ identical := 1, totalBytesCompared := min, flags }, false⟩
    else ⟨{ identical := 1, totalBytesCompared := min, flags }, false⟩

end Images

/-- The operation, for images without a passphrase; `none` if it is refused before the first read of
an image's content. -/
def compare (codec : Codec) (inp : Inputs) (chain : ChainConfig) (config : CompareConfig)
    (openVhdx : Nat → Option VhdxState) (staging : ByteMap) : Option Report :=
  let n1 := config.image1Devices
  let n2 := config.image2Devices
  if n1 < 1 ∨ n2 < 1 then none
  else if maxChainDevices < n1 + n2 then none
  else if chain.deviceCount = 0 then none
  else if chain.deviceCount ≠ n1 + n2 then none
  else
    match initChainStates chain inp openVhdx (.fresh staging) with
    | (none, _) => none
    | (some states, s) =>
      if (List.range maxChainDevices).any fun d => unsupported (states d) then none
      else if luksEncrypted (states 0) || luksEncrypted (states n1) then none
      else some (compareImages ⟨codec, inp, chain, states⟩ n1 n2 s)

theorem chunkSize_pos {cx : ChainReader} {n1 : Nat} : 0 < chunkSize cx n1 := by
  have hpos : ∀ d, 0 < clusterSizeOf cx d := by
    intro d
    unfold clusterSizeOf
    split
    · assumption
    · exact cx.inp.sectorSize_pos
  have h0 := hpos 0
  unfold chunkSize maxSectorSize
  dsimp only
  split <;> split <;> omega

/-! ## What it decides -/

section Decides

variable (cx : ChainReader) (n1 n2 : Nat)

/-- The two images differ at `x`: within both of them, or past the smaller one, where the larger one
is compared with zeros. -/
def Differs (x : Nat) : Prop :=
  (x < minVsize cx n1 ∧ cx.content n1 0 x ≠ cx.content n2 n1 x) ∨
  (minVsize cx n1 ≤ x ∧ x < vsize1 cx ∧ cx.content n1 0 x ≠ some 0) ∨
  (minVsize cx n1 ≤ x ∧ x < vsize2 cx n1 ∧ cx.content n2 n1 x ≠ some 0)

/-- The result says whether there is a difference, and where the first one is. -/
def Decides (differs : Nat → Prop) (result : CompareResult) : Prop :=
  (result.identical = 1 ∧ ∀ x, ¬ differs x) ∨
  (result.identical = 0 ∧ differs result.firstMismatchOffset ∧
    ∀ x < result.firstMismatchOffset, ¬ differs x)

/-- A read of the first image starts at `p` with a unit of the second one staged. -/
def Resumes (p : Nat) : Prop :=
  (p < minVsize cx n1 ∧ p % chunkSize cx n1 = 0) ∨ (p = minVsize cx n1 ∧ vsize2 cx n1 < vsize1 cx)

/-- No compressed unit of the first image that reaches over the start of a read starts together with
a compressed unit of the second image.  Only the reads before the first difference count: the scan
does not come to the others. -/
def Apart : Prop :=
  ∀ d ∈ cx.layers n1 0, ∀ d' ∈ cx.layers n2 n1, ∀ b u v,
    cx.StartsCompressed d b u → cx.StartsCompressed d' b v →
      ∀ p, Resumes cx n1 p → (∀ x < p, ¬ Differs cx n1 n2 x) → p ≤ b ∨ b + u ≤ p

/-! ## Reads of the two images -/

variable {cx n1 n2} {s s' : ReaderState}

/-- Before the first image is read at `off`: what is staged is a unit of the second image that
starts below. -/
def Before (cx : ChainReader) (n1 n2 off : Nat) : ReaderState → Prop :=
  cx.Sound (cx.layers n2 n1) ⟨fun b => b < off, fun _ => False⟩

/-- To the reads of the first image from `off` on, the tags of the second image's units below are
stray. -/
def firstTags (cx : ChainReader) (n1 n2 off : Nat) : ChainReader.Tags where
  own _ := True
  stray b := b < off ∧ ∃ d' ∈ cx.layers n2 n1, ∃ v, cx.StartsCompressed d' b v

theorem Before.first {off : Nat} (hs : Before cx n1 n2 off s) :
    cx.Sound (cx.layers n1 0) (firstTags cx n1 n2 off) s := by
  refine ⟨hs.1, fun b hb => .inr ?_⟩
  rcases hs.2 b hb with ⟨⟨above, d, rest, u, content, hsplit, hu, halign, hcomp, -⟩, hlt⟩ | hstray
  · refine ⟨hlt, d, by simp [hsplit], u, hu, halign, ?_⟩
    rw [hcomp]
    rfl
  · exact hstray.elim

/-- Up to the first difference, no read of the first image from `p` on meets a stray tag. -/
theorem first_clear (hapart : Apart cx n1 n2) {p off : Nat} (hp : Resumes cx n1 p)
    (hclean : ∀ x < p, ¬ Differs cx n1 n2 x) (hle : p ≤ off) (len : Nat) :
    cx.Clear (cx.layers n1 0) (firstTags cx n1 n2 p) [] off len where
  left _ h := nomatch h
  own _ _ := trivial
  stray b hb d hd u hstart := by
    obtain ⟨hlt, d', hd', v, hstart'⟩ := hb
    have hspan := hapart d hd d' hd' b u v hstart hstart' p hp hclean
    omega

/-- The formats of the images that are compared. -/
def comparedFormats : List ImageFormat := [.qcow2, .raw]

theorem fits_of_compared {d : Nat} (h : (cx.config.devices d).format ∈ comparedFormats)
    (off len : Nat) : cx.Fits d off len := by
  refine ChainReader.fits_of_format ?_ off len
  simp only [comparedFormats, List.mem_cons, List.not_mem_nil, or_false] at h
  rcases h with h | h <;> rw [h] <;> decide

variable (hformats : ∀ d ∈ cx.layers n1 0 ++ cx.layers n2 n1, (cx.config.devices d).format ∈
  comparedFormats) (hco1 : cx.Coherent (cx.layers n1 0)) (hco2 : cx.Coherent (cx.layers n2 n1))
  (hapart : Apart cx n1 n2)

include hformats hco1 hco2 hapart

/-- A chunk of both images marks the places at which they differ, and leaves a unit of the
second. -/
theorem readBoth_marks {off n : Nat} (hp : Resumes cx n1 off)
    (hclean : ∀ x < off, ¬ Differs cx n1 n2 x) (hn : 0 < n) (hs : Before cx n1 n2 off s)
    {marks : Nat → Bool} (hrun : readBoth cx n1 n2 off n s = (some marks, s')) :
    Before cx n1 n2 (off + n) s' ∧
      ∀ i < n, marks i = true ↔ cx.content n1 0 (off + i) ≠ cx.content n2 n1 (off + i) := by
  obtain ⟨buf1, s1, hrun1, hrest⟩ := eq_some_of_bind hrun
  have hread1 := (ChainReader.readChain_top hco1 (first_clear hapart hp hclean (Nat.le_refl off) n)
    fun e he => fits_of_compared (hformats e (by simp [he])) off n).of_run hs.first hrun1
  obtain ⟨_, s2, hinval, hrest⟩ := eq_some_of_bind hrest
  cases hinval
  obtain ⟨buf2, s3, hrun2, hrest⟩ := eq_some_of_bind hrest
  cases hrest
  have hclear : cx.Clear (cx.layers n2 n1) ⟨fun b => b < off + n, fun _ => False⟩ [] off n :=
    ⟨fun _ h => (nomatch h), fun b hb => by rwa [Nat.max_eq_left hn] at hb, fun _ h => h.elim⟩
  have hblank : Before cx n1 n2 (off + n) { s1 with stagingClusterOffset := none } :=
    ⟨hread1.1.1, fun _ h => nomatch h⟩
  have hread2 := (ChainReader.readChain_top hco2 hclear
    fun e he => fits_of_compared (hformats e (by simp [he])) off n).of_run hblank hrun2
  refine ⟨hread2.1, fun i hi => ?_⟩
  rw [hread1.2 i hi, hread2.2 i hi]
  simp

omit hformats hco1 hco2 hapart in
/-- Below the smaller size the images differ where their contents do. -/
theorem differs_iff_content {x : Nat} (hx : x < minVsize cx n1) :
    Differs cx n1 n2 x ↔ cx.content n1 0 x ≠ cx.content n2 n1 x := by
  constructor
  · rintro (⟨-, h⟩ | ⟨h, -⟩ | ⟨h, -⟩)
    · exact h
    · omega
    · omega
  · exact fun h => .inl ⟨hx, h⟩

/-- The scan up to the smaller size finds the first place at which the images differ. -/
theorem scanBoth_sound (hs : Before cx n1 n2 0 s) :
    Scan.Sound (Differs cx n1 n2) (Before cx n1 n2) 0 (minVsize cx n1)
      (scan (chunkSize cx n1) (readBoth cx n1 n2) (minVsize cx n1) 0 (minVsize cx n1) s) := by
  refine scan_sound chunkSize_pos (fun k n s hhi hn hclean hs marks s' hrun =>
    ?_) hs (Nat.zero_le _)
  have hplace : Resumes cx n1 (0 + k * chunkSize cx n1) := by
    refine .inl ⟨by omega, ?_⟩
    rw [zero_add]
    exact Nat.mul_mod_left _ _
  obtain ⟨hs', hmarks⟩ := readBoth_marks hformats hco1 hco2 hapart hplace
    (fun x hx => hclean x (Nat.zero_le x) hx) hn hs hrun
  exact ⟨hs', fun i hi => (hmarks i hi).trans (differs_iff_content (by omega)).symm⟩

omit hformats hco1 hco2 hapart

/-- A scan for bytes other than zero, of a chain whose reads are not misled by the tag they start
with. -/
theorem readExtra_sound {n d lo hi : Nat} {tags : ChainReader.Tags}
    (hco : cx.Coherent (cx.layers n d))
    (hformats : ∀ e ∈ cx.layers n d, (cx.config.devices e).format ∈ comparedFormats)
    (hclear : ∀ off len, lo ≤ off → cx.Clear (cx.layers n d) tags [] off len)
    (hs : cx.Sound (cx.layers n d) tags s) (hle : lo ≤ hi) :
    Scan.Sound (fun x => cx.content n d x ≠ some 0) (fun _ => cx.Sound (cx.layers n d) tags) lo hi
      (scan (chunkSize cx n1) (readExtra cx n d) (hi - lo) lo (hi - lo) s) := by
  refine scan_sound chunkSize_pos (fun k m s hhi _ _ hs marks s' hrun => ?_) hs hle
  obtain ⟨buf1, s1, hread, hrest⟩ := eq_some_of_bind hrun
  cases hrest
  have hgives := (ChainReader.readChain_top hco (hclear _ m (by omega))
    fun e he => fits_of_compared (hformats e he) _ m).of_run hs hread
  refine ⟨hgives.1, fun i hi => ?_⟩
  rw [hgives.2 i hi]
  simp

include hformats hco1 hco2 hapart

/-- The scan past the smaller size: of the first image, to which what the second has staged is
stray, or of the second image itself. -/
theorem scanExtra_sound (hclean : ∀ x < minVsize cx n1, ¬ Differs cx n1 n2 x)
    (hs : Before cx n1 n2 (minVsize cx n1) s) :
    Scan.Sound (Differs cx n1 n2) (fun _ _ => True) (minVsize cx n1)
      (max (vsize1 cx) (vsize2 cx n1)) (scanExtra cx n1 n2 s) := by
  unfold scanExtra
  split
  next hlarger =>
    have hmin : minVsize cx n1 = vsize2 cx n1 := if_neg (by omega)
    rw [Nat.max_eq_left (by omega)]
    refine (readExtra_sound hco1 (fun e he => hformats e (by simp [he]))
      (fun off len hle => first_clear hapart (.inr ⟨rfl, hlarger⟩) hclean hle len) hs.first
      (by omega)).mono (fun x hx hx' => ?_) fun _ _ => trivial
    constructor
    · exact fun h => .inr (.inl ⟨hx, hx', h⟩)
    · rintro (⟨h, -⟩ | ⟨-, -, h⟩ | ⟨-, h, -⟩)
      · omega
      · exact h
      · omega
  next hsmaller =>
    have hmin : minVsize cx n1 = vsize1 cx := by
      unfold minVsize
      split <;> omega
    have hsound : cx.Sound (cx.layers n2 n1) .lone s :=
      ⟨hs.1, fun b hb => (hs.2 b hb).imp (fun h => ⟨h.1, trivial⟩) id⟩
    rw [Nat.max_eq_right (by omega)]
    refine (readExtra_sound hco2 (fun e he => hformats e (by simp [he]))
      (fun off len _ => .lone off len) hsound (by omega)).mono (fun x hx hx' => ?_) fun _ _ =>
      trivial
    constructor
    · exact fun h => .inr (.inr ⟨hx, hx', h⟩)
    · rintro (⟨h, -⟩ | ⟨-, h, -⟩ | ⟨-, -, h⟩)
      · omega
      · omega
      · exact h

omit hformats hco1 hco2 hapart in
theorem Differs.lt {x : Nat} (h : Differs cx n1 n2 x) : x < max (vsize1 cx) (vsize2 cx n1) := by
  unfold Differs minVsize at h
  rcases h with ⟨h, -⟩ | ⟨-, h, -⟩ | ⟨-, h, -⟩
  · split at h <;> omega
  · omega
  · omega

/-- The verdict, past the refusals. -/
theorem compareImages_decides (hs : Before cx n1 n2 0 s)
    (hreads : (compareImages cx n1 n2 s).readFailed = false) :
    Decides (Differs cx n1 n2) (compareImages cx n1 n2 s).result := by
  have hboth := scanBoth_sound hformats hco1 hco2 hapart hs
  rcases hscan : scan (chunkSize cx n1) (readBoth cx n1 n2) (minVsize cx n1) 0
    (minVsize cx n1) s with
    ⟨_ | off | off, s'⟩
  · -- no difference up to the smaller size
    rw [hscan] at hboth
    obtain ⟨hs', hclean⟩ := hboth
    by_cases hsizes : vsize1 cx = vsize2 cx n1
    · simp only [compareImages, hscan, hsizes, ne_eq, not_true, if_false]
      refine .inl ⟨rfl, fun x hx => hclean x (Nat.zero_le x) ?_ hx⟩
      have hlt := hx.lt
      unfold minVsize
      split <;> omega
    · have hextra := (scanExtra_sound hformats hco1 hco2 hapart
        (fun x hx => hclean x (Nat.zero_le x) hx) hs').extend (Nat.zero_le _) hclean
      rcases hscan' : scanExtra cx n1 n2 s' with ⟨_ | off | off, s''⟩
      · rw [hscan'] at hextra
        simp only [compareImages, hscan, hscan', hsizes, ne_eq, not_false_iff, if_true]
        exact .inl ⟨rfl, fun x hx => hextra.2 x (Nat.zero_le x) hx.lt hx⟩
      · rw [hscan'] at hextra
        simp only [compareImages, hscan, hscan', hsizes, ne_eq, not_false_iff, if_true]
        exact .inr ⟨rfl, hextra.2.2.1, fun x hx => hextra.2.2.2 x (Nat.zero_le x) hx⟩
      · simp only [compareImages, hscan, hscan', hsizes, ne_eq, not_false_iff, if_true] at hreads
        cases hreads
  · rw [hscan] at hboth
    simp only [compareImages, hscan]
    exact .inr ⟨rfl, hboth.2.2.1, fun x hx => hboth.2.2.2 x (Nat.zero_le x) hx⟩
  · simp only [compareImages, hscan] at hreads
    cases hreads

end Decides

/-- A codec whose streams have two bytes: the first hundred places of a unit are the first byte, the
others are the second. -/
def twoByteCodec : Codec where
  inflate _ bytes _ := some fun i => if i < 100 then bytes.headD 0 else (bytes.drop 1).headD 0
  residue _ _ _ buf := buf

/-- Two qcow2 images of the given sizes, each of one device with clusters of 512 bytes. -/
def twoImages (size1 size2 : Nat) : ChainConfig where
  deviceCount := 2
  devices d := ⟨.qcow2, false, if d = 0 then size1 else size2, 0, 512, 0⟩
  segments := [⟨0, 1⟩, ⟨1, 1⟩]

/-- The first image has `0xAA` and then `byte`, and the second `0xAA` and then zeros. -/
def twoPacked (byte : UInt8) : Inputs :=
  twoDevices 4 (fun i => if i = 1537 then byte else packedImage 0xAA i) (packedImage 0xAA)

end Instar.Compare
