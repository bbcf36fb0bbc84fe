import Instar.Read.Vmdk
import Instar.Read.Clusters
import Instar.Read.Differencing

/-!
# Reading a backing chain

The devices of an operation as the host describes them, `init_chain_states` and the two readers of a
chain.  A chain is a run of devices, the top image first; the devices that hold another image's data
are not layers.  `ChainReader.held` says what each layer has of its own, and `ChainReader.content`
what the chain holds: at every offset, what the first layer that does not leave it has there.
-/

namespace Instar.Read

open Fallible

/-! ## The configuration -/

/-- The formats whose readers are modelled, and `raw` for devices read as they are; VDI and DMG,
which keep a state as well, are left out. -/
inductive ImageFormat where
  | raw
  | qcow2
  | vmdk4
  | vmdkDescriptor
  | vhd
  | vhdx
  | parallels
  | qcow1
deriving DecidableEq, Repr

/-- One device of a chain. -/
structure ChainDeviceInfo where
  format : ImageFormat
  isDataDevice : Bool
  virtualSize : Nat
  actualSize : Nat
  clusterSize : Nat
  dataDeviceIdx : Nat

/-- `ChainSegment`: one chain of the devices. -/
structure ChainSegment where
  first : Nat
  count : Nat
deriving DecidableEq, Repr

/-- `ChainConfig`: the devices of an operation and the chains they form. -/
structure ChainConfig where
  deviceCount : Nat
  devices : Nat → ChainDeviceInfo
  segments : List ChainSegment

/-- `MAX_CHAIN_DEVICES`, which is also `MAX_CHAIN_SEGMENTS`. -/
def maxChainDevices : Nat := 16

/-- `ChainSegment::covers`: the segments tile `[next, deviceCount)`. -/
def ChainSegment.covers (deviceCount : Nat) : List ChainSegment → Nat → Bool
  | [], next => next = deviceCount
  | seg :: rest, next =>
    if seg.count = 0 ∨ seg.first ≠ next then false
    else ChainSegment.covers deviceCount rest (next + seg.count)

namespace ChainConfig

variable (config : ChainConfig)

/-- The segments tile the devices. -/
def segmentationCovers : Bool :=
  if config.segments = [] ∨ maxChainDevices < config.segments.length then false
  else ChainSegment.covers config.deviceCount config.segments 0

/-- The segment of a device. -/
def segmentOf (d : Nat) : Option ChainSegment :=
  config.segments.find? fun seg => 0 < seg.count && seg.first ≤ d && d - seg.first < seg.count

/-- `parent_in_chain`: a device of the same chain is behind this one. -/
def parentInChain (d : Nat) : Bool :=
  match config.segmentOf d with
  | some seg => 0 < seg.count - (d - seg.first) - 1
  | none => false

/-- The run of marked devices that starts at `d`, as far as it goes. -/
def markedRun : Nat → Nat → List Nat
  | 0, _ => []
  | fuel + 1, d =>
    if d < config.deviceCount ∧
      (config.devices d).isDataDevice = true then d :: markedRun fuel (d + 1)
    else []

/-- The devices that `owner` claims as its data devices; `none` if it may not claim what it
names. -/
def claims (owner : Nat) : Option (List Nat) :=
  let info := config.devices owner
  let first := info.dataDeviceIdx
  if first = 0 then some []
  else if info.isDataDevice = true then none
  else if first ≠ owner + 1 ∨ config.deviceCount ≤ first ∨
    (config.devices first).isDataDevice = false then none
  else
    match info.format with
    | .qcow2 => some [first]
    | .vmdkDescriptor => some (config.markedRun config.deviceCount first)
    | _ => none

/-- `data_devices_are_owned`. -/
def dataDevicesAreOwned : Bool :=
  let devices := List.range config.deviceCount
  if maxChainDevices < config.deviceCount then false
  else if config.segments.any fun seg =>
      seg.first < config.deviceCount && (config.devices seg.first).isDataDevice then false
  else if devices.any fun owner => (config.claims owner).isNone then false
  else
    devices.all fun d =>
      (config.devices d).isDataDevice = false ∨ devices.any fun owner =>
        d ∈ (config.claims owner).getD []

end ChainConfig

/-! ## The states of the devices -/

/-- The state of a device; a device uses the slot of one format at most. -/
inductive DeviceState where
  | none
  | qcow2 (st : Qcow2State)
  | vmdk (st : VmdkState)
  | vhd (st : VhdState)
  | vhdx (st : VhdxState)
  | parallels (st : ParallelsState)
  | qcow1 (st : Qcow1State)

/-- One device of `init_chain_states`. `openVhdx` stands for `VhdxState::init`, which reads past the
caches. -/
def initDevice (config : ChainConfig) (inp : Inputs) (openVhdx : Nat → Option VhdxState) (d : Nat) :
    Fallible ReaderState DeviceState :=
  match (config.devices d).format with
  | .qcow2 => do
      let st ← Qcow2State.init inp d
      pure (.qcow2 st)
  | .vmdk4 => do
      let st ← VmdkState.init inp d (config.devices d).actualSize
      pure (.vmdk st)
  | .vhd => do
      let st ← VhdState.init inp d
      let _ ← require (st.diskType = .differencing → config.parentInChain d = true)
      pure (.vhd st)
  | .vhdx => do
      let st ← ofOption (openVhdx d)
      let _ ← require (st.hasParent = true → config.parentInChain d = true)
      pure (.vhdx st)
  | .parallels => do
      let st ← ParallelsState.init inp d
      pure (.parallels st)
  | .qcow1 => do
      let st ← Qcow1State.init inp d
      pure (.qcow1 st)
  | .raw | .vmdkDescriptor => pure .none

/-- The loop of `init_chain_states` over `n` devices from `d` on. -/
def initDevices (config : ChainConfig) (inp : Inputs) (openVhdx : Nat → Option VhdxState) :
    Nat → Nat → (Nat → DeviceState) → Fallible ReaderState (Nat → DeviceState)
  | 0, _, states => pure states
  | n + 1, d, states => do
      let st ← initDevice config inp openVhdx d
      initDevices config inp openVhdx n (d + 1) (Function.update states d st)

/-- `init_chain_states`. -/
def initChainStates (config : ChainConfig) (inp : Inputs) (openVhdx : Nat → Option VhdxState) :
    Fallible ReaderState (Nat → DeviceState) := do
  let _ ← require (config.segmentationCovers = true)
  let _ ← require (config.dataDevicesAreOwned = true)
  initDevices config inp openVhdx config.deviceCount 0 fun _ => .none

/-! ## Flat extents -/

/-- The extents of a flat VMDK: a device and how many bytes of it, one after the other. -/
abbrev Extents := List (Nat × Nat)

/-- Where the concatenation of the extents has the virtual offset `x`: the device and the offset
there. -/
def extentAt : Extents → Nat → Option (Nat × Nat)
  | [], _ => none
  | (d, size) :: rest, x => if x < size then some (d, x) else extentAt rest (x - size)

/-- The extent walk of the VMDK descriptor arm: one raw read from the extent of the first byte. -/
def readExtents {σ : Type} (inp : Inputs) : Extents → Nat → Nat → Fallible σ ByteMap
  | [], _, _ => pure fun _ => 0
  | (d, size) :: rest, remaining, len =>
    if remaining < size then inp.readRawSectors d remaining len
    else readExtents inp rest (remaining - size) len

/-- The extents the walk finds from device `d` on: marked devices, up to an empty one. -/
def ChainConfig.extentsFrom (config : ChainConfig) : Nat → Nat → Extents
  | 0, _ => []
  | fuel + 1, d =>
    if d < config.deviceCount ∧ (config.devices d).isDataDevice = true then
      if (config.devices d).virtualSize = 0 then []
      else (d, (config.devices d).virtualSize) :: config.extentsFrom fuel (d + 1)
    else []

/-- What a flat VMDK holds at the virtual offset `x`. -/
def extentsHeld (inp : Inputs) (exts : Extents) (x : Nat) : Contribution :=
  match extentAt exts x with
  | some (d, p) => inp.rawHeld d p
  | none => .gives 0

/-! ## The reader -/

/-- What a read of a chain is given. -/
structure ChainReader where
  codec : Codec
  inp : Inputs
  config : ChainConfig
  states : Nat → DeviceState

namespace ChainReader

variable (cx : ChainReader)

/-- The extents of the VMDK descriptor at device `d`. -/
def extents (d : Nat) : Extents :=
  cx.config.extentsFrom cx.config.deviceCount (cx.config.devices d).dataDeviceIdx

/-- A chunk of a device whose arm serves units of `granule` bytes: it is split at the boundaries it
crosses (`read_chain_split_at_granule`). -/
def splitAtGranule (granule : Nat) (arm : Nat → Nat → Fallible ReaderState ByteMap)
    (off len : Nat) : Fallible ReaderState ByteMap :=
  if granule ≠ 0 ∧ granule < off % granule + len then pieces (toClusterEnd granule) arm len off len
  else arm off len

/-- One layer of `read_chain_virtual_cluster`: device `d`, with `behind` devices behind it that
`below` reads. -/
def readDevice (d behind : Nat) (below : Nat → Nat → Fallible ReaderState ByteMap) (off len : Nat) :
    Fallible ReaderState ByteMap :=
  match (cx.config.devices d).format, cx.states d with
  | .qcow2, .qcow2 st =>
    splitAtGranule st.clusterSize (st.arm cx.codec cx.inp d (cx.config.devices d).dataDeviceIdx
      below) off len
  | .vmdk4, .vmdk st => splitAtGranule st.grainSizeBytes (st.arm cx.codec cx.inp d below) off len
  | .vhd, .vhd st => st.arm cx.inp d behind below off len
  | .vhdx, .vhdx st => st.arm cx.inp d behind below off len
  | .parallels, .parallels st => st.arm cx.inp d off len
  | .qcow1, .qcow1 st => st.arm cx.codec cx.inp d below off len
  | .vmdkDescriptor, _ =>
    if (cx.config.devices d).dataDeviceIdx = 0 then fail
    else readExtents cx.inp (cx.extents d) off len
  | .raw, _ => cx.inp.readRawSectors d off len
  | _, _ => fail

/-- `read_chain_virtual_cluster` for the chain of `n` devices from `d` on. -/
def readChain : Nat → Nat → Nat → Nat → Fallible ReaderState ByteMap
  | 0, _, _, _ => pure fun _ => 0
  | n + 1, d, off, len =>
    if (cx.config.devices d).isDataDevice = true then readChain n (d + 1) off len
    else cx.readDevice d n (readChain n (d + 1)) off len

/-- The length of the next piece of `read_chain_virtual_range`. -/
def rangeStep (inputClusterSize len cur rest : Nat) : Nat :=
  min (min (max (min inputClusterSize len) 1) rest) (inputClusterSize - cur % inputClusterSize)

/-- `read_chain_virtual_range`: one call for each cluster of the top device. -/
def readRange (n d off len : Nat) : Fallible ReaderState ByteMap :=
  let top := (cx.config.devices d).clusterSize
  pieces (rangeStep (if 0 < top then top else len) len) (cx.readChain n d) len off len

/-! ## What a chain holds -/

/-- What device `d` has of its own at the virtual offset `x`. -/
def held (d x : Nat) : Contribution :=
  match (cx.config.devices d).format, cx.states d with
  | .qcow2, .qcow2 st => st.held cx.codec cx.inp d (cx.config.devices d).dataDeviceIdx x
  | .vmdk4, .vmdk st => st.held cx.codec cx.inp d x
  | .vhd, .vhd st => st.held cx.inp d x
  | .vhdx, .vhdx st => st.held cx.inp d x
  | .parallels, .parallels st => st.held cx.inp d x
  | .qcow1, .qcow1 st => st.held cx.codec cx.inp d x
  | .vmdkDescriptor, _ => extentsHeld cx.inp (cx.extents d) x
  | .raw, _ => cx.inp.rawHeld d x
  | _, _ => .refused

/-- The layers among the `n` devices from `d` on. -/
def layers : Nat → Nat → List Nat
  | 0, _ => []
  | n + 1, d =>
    if (cx.config.devices d).isDataDevice = true then layers n (d + 1) else d :: layers n (d + 1)

/-- The content of a stack of layers. -/
def contentOf (ds : List Nat) : Nat → Option UInt8 := layered (ds.map cx.held)

/-- The virtual content of a chain: at every offset what the first layer that does not leave it has
there, and zero where all leave it. -/
def content (n d : Nat) : Nat → Option UInt8 := cx.contentOf (cx.layers n d)

end ChainReader

end Instar.Read
