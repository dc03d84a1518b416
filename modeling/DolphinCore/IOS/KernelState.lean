import DolphinCore.Common.ChunkRoundTrip
import DolphinCore.IOS.IOSC

/-!
# DolphinCore.IOS.KernelState

Savestates of the kernel of IOS: its queues, its key objects, and its table of descriptors.

The static devices, those of the device map, are parameters: the names of the map, and what
each device serializes of itself.  Files are not kept open while a state is made, so what is
behind a descriptor of a file is its name, mode and position.
-/

namespace DolphinCore

namespace ChunkFile

/-! ## trivially copyable types -/

/-- An unsigned type of some bytes. -/
def unsigned (bytes : Nat) : TriviallyCopyable (BitVec (8 * bytes)) where
  size := bytes
  toBytes x := Endian.toLE bytes x.toNat
  ofBytes data := BitVec.ofNat (8 * bytes) (Endian.fromLE data)
  length_toBytes x := Endian.length_toLE bytes x.toNat
  ofBytes_toBytes x := by
    have hlt : x.toNat < 256 ^ bytes := by
      rw [show (256 : Nat) = 2 ^ 8 from rfl, ← Nat.pow_mul]
      exact x.isLt
    rw [Endian.fromLE_toLE_of_lt hlt, BitVec.ofNat_toNat, BitVec.setWidth_eq]

def u16 : TriviallyCopyable (BitVec 16) := unsigned 2

def u64 : TriviallyCopyable (BitVec 64) := unsigned 8

/-- An enumeration over an unsigned type of some bytes. -/
def enumeration {α : Type} (bytes : Nat) (values : List (α × Byte)) (value : α)
    (number : α → Byte) (hpos : 0 < bytes)
    (hvalues : ∀ x, ((values.find? fun v => v.2 = number x).map Prod.fst).getD value = x) :
    TriviallyCopyable α where
  size := bytes
  toBytes x := number x :: List.replicate (bytes - 1) 0
  ofBytes data := ((values.find? fun v => v.2 = data.headD 0).map Prod.fst).getD value
  length_toBytes x := by
    rw [List.length_cons, List.length_replicate]
    omega
  ofBytes_toBytes x := hvalues x

end ChunkFile

open ChunkFile

def objectType : TriviallyCopyable ObjectType :=
  enumeration 1 [(.secretKey, 0), (.publicKey, 1), (.data, 3)] .data
    (fun | .secretKey => 0 | .publicKey => 1 | .data => 3) (by decide) (by intro x; cases x <;> rfl)

def objectSubType : TriviallyCopyable ObjectSubType :=
  enumeration 1 [(.aes128, 0), (.mac, 1), (.rsa2048, 2), (.rsa4096, 3), (.ecc233, 4), (.data, 5),
      (.version, 6)] .data
    (fun
      | .aes128 => 0
      | .mac => 1
      | .rsa2048 => 2
      | .rsa4096 => 3
      | .ecc233 => 4
      | .data => 5
      | .version => 6)
    (by decide) (by intro x; cases x <;> rfl)

inductive DeviceType
  | static
  | fileIo
  | oh0
deriving DecidableEq

def deviceType : TriviallyCopyable DeviceType :=
  enumeration 4 [(.static, 0), (.fileIo, 1), (.oh0, 2)] .static
    (fun | .static => 0 | .fileIo => 1 | .oh0 => 2) (Nat.le_add_left 1 3)
    (by intro x; cases x <;> rfl)

/-! ## key objects -/

def KeyEntry.doState : Do KeyEntry :=
  doThen (doPart (·.in_use) (fun v e => { e with in_use := v }) doBool)
  (doThen (doPart (·.type) (fun v e => { e with type := v }) (doTrivial objectType))
  (doThen (doPart (·.subtype) (fun v e => { e with subtype := v }) (doTrivial objectSubType))
  (doThen (doPart (·.data) (fun v e => { e with data := v }) (doContainer (doTrivial u8) 0))
  (doPart (·.owner_mask) (fun v e => { e with owner_mask := v }) (doTrivial u32)))))

def IOSC.doState : Do IOSC :=
  doPart (·.m_key_entries) (fun v s => { s with m_key_entries := v })
    (doIndices (fun _ => KeyEntry.doState) (List.finRange 32))

/-! ## devices -/

/-- A `std::string` -/
abbrev DeviceName := List Byte

def doString : Do (List Byte) := doContainer (doTrivial u8) 0

/-- What `Device` itself holds. -/
structure DeviceBase where
  m_name : DeviceName
  m_device_type : DeviceType
  m_is_active : Bool
deriving DecidableEq

def DeviceBase.doStateShared : Do DeviceBase :=
  doThen (doPart (·.m_name) (fun v d => { d with m_name := v }) doString)
  (doThen (doPart (·.m_device_type) (fun v d => { d with m_device_type := v })
    (doTrivial deviceType))
  (doPart (·.m_is_active) (fun v d => { d with m_is_active := v }) doBool))

def DeviceBase.doState : Do DeviceBase :=
  doThen doStateShared (doPart (·.m_is_active) (fun v d => { d with m_is_active := v }) doBool)

structure FileIo where
  device : DeviceBase
  m_Mode : BitVec 32
  m_SeekPos : BitVec 32
deriving DecidableEq

def FileIo.doState : Do FileIo :=
  doThen (doPart (·.device) (fun v f => { f with device := v }) DeviceBase.doStateShared)
  (doThen (doPart (·.m_Mode) (fun v f => { f with m_Mode := v }) (doTrivial u32))
  (doPart (·.m_SeekPos) (fun v f => { f with m_SeekPos := v }) (doTrivial u32)))

/-- The file that is made for a name. -/
def FileIo.make (name : DeviceName) : FileIo := ⟨⟨name, .fileIo, false⟩, 0, 0⟩

structure OH0Device where
  m_name : DeviceName
  m_vid : BitVec 16
  m_pid : BitVec 16
  m_device_id : BitVec 64
deriving DecidableEq

def OH0Device.doState : Do OH0Device :=
  doThen (doPart (·.m_name) (fun v d => { d with m_name := v }) doString)
  (doThen (doPart (·.m_vid) (fun v d => { d with m_vid := v }) (doTrivial u16))
  (doThen (doPart (·.m_pid) (fun v d => { d with m_pid := v }) (doTrivial u16))
  (doPart (·.m_device_id) (fun v d => { d with m_device_id := v }) (doTrivial u64))))

/-- What a descriptor is open on: a device of the map, or one of its own. -/
inductive Descriptor
  | static (name : DeviceName)
  | fileIo (file : FileIo)
  | oh0 (device : OH0Device)
deriving DecidableEq

def Descriptor.getDeviceType : Descriptor → DeviceType
  | .static _ => .static
  | .fileIo _ => .fileIo
  | .oh0 _ => .oh0

/-! ## the kernel -/

abbrev ipcMaxFds : Nat := 0x18

structure Kernel (δ : Type) where
  m_title_id : BitVec 64
  m_device_map : DeviceName → δ
  m_fdmap : Fin ipcMaxFds → Option Descriptor
  m_ppc_uid : BitVec 32
  m_ppc_gid : BitVec 16
  m_request_queue : List (BitVec 32)
  m_reply_queue : List (BitVec 32)
  m_ack_queue : List (BitVec 32)
  m_last_reply_time : BitVec 64
  m_iosc : IOSC

namespace Kernel

variable {δ : Type}

def mios : BitVec 64 := 0x0000000100000101

def getDeviceByName (names : List DeviceName) (name : DeviceName) : Option Descriptor :=
  if name ∈ names then some (.static name) else none

def getFreeDeviceID (k : Kernel δ) : Option (Fin ipcMaxFds) :=
  (List.finRange ipcMaxFds).find? fun fd => (k.m_fdmap fd).isNone

/-- `OpenDevice` of a device of the map, which agrees to be opened. -/
def openDevice (names : List DeviceName) (k : Kernel δ) (path : DeviceName) : Kernel δ :=
  match k.getFreeDeviceID, getDeviceByName names path with
  | some fd, some device => { k with m_fdmap := Function.update k.m_fdmap fd (some device) }
  | _, _ => k

/-- A descriptor of the table in `DoState`: one that does not exist is passed over. -/
def doDescriptor (names : List DeviceName) : Do (Option Descriptor) := fun p descriptor =>
  if p.mode = .MODE_READ then
    let present := doTrivial u32 p 0
    if present.2 ≠ 0 then
      let type := doTrivial deviceType present.1 .static
      match type.2 with
      | .static =>
        let name := doString type.1 []
        (name.1, getDeviceByName names name.2)
      | .fileIo =>
        let file := FileIo.doState type.1 (FileIo.make [])
        (file.1, some (.fileIo file.2))
      | .oh0 =>
        let device := OH0Device.doState type.1 ⟨[], 0, 0, 0⟩
        (device.1, some (.oh0 device.2))
    else (present.1, descriptor)
  else
    let present := doTrivial u32 p (if descriptor.isSome then 1 else 0)
    match descriptor with
    | none => (present.1, none)
    | some device =>
      let type := doTrivial deviceType present.1 device.getDeviceType
      match device with
      | .static name => ((doString type.1 name).1, descriptor)
      | .fileIo file =>
        let done := FileIo.doState type.1 file
        (done.1, some (.fileIo done.2))
      | .oh0 device =>
        let done := OH0Device.doState type.1 device
        (done.1, some (.oh0 done.2))

/-- `DoState` up to the key objects -/
def doStateShared : Do (Kernel δ) :=
  doThen (doPart (·.m_request_queue) (fun v k => { k with m_request_queue := v })
    (doContainer (doTrivial u32) 0))
  (doThen (doPart (·.m_reply_queue) (fun v k => { k with m_reply_queue := v })
    (doContainer (doTrivial u32) 0))
  (doThen (doPart (·.m_last_reply_time) (fun v k => { k with m_last_reply_time := v })
    (doTrivial u64))
  (doThen (doPart (·.m_title_id) (fun v k => { k with m_title_id := v }) (doTrivial u64))
  (doThen (doPart (·.m_ppc_uid) (fun v k => { k with m_ppc_uid := v }) (doTrivial u32))
  (doThen (doPart (·.m_ppc_gid) (fun v k => { k with m_ppc_gid := v }) (doTrivial u16))
  (doPart (·.m_iosc) (fun v k => { k with m_iosc := v }) IOSC.doState))))))

/-- `DoState` of the devices and descriptors -/
def doStateDevices (names : List DeviceName) (doDevice : DeviceName → Do δ) : Do (Kernel δ) :=
  doThen (doPart (·.m_device_map) (fun v k => { k with m_device_map := v })
    (doIndices doDevice names))
  (doPart (·.m_fdmap) (fun v k => { k with m_fdmap := v })
    (doIndices (fun _ => doDescriptor names) (List.finRange ipcMaxFds)))

def doState (names : List DeviceName) (doDevice : DeviceName → Do δ) : Do (Kernel δ) :=
  doThen doStateShared (doUnless (fun k => k.m_title_id = mios) (doStateDevices names doDevice))

end Kernel

end DolphinCore
