import Mathlib.Tactic.Tauto
import DolphinCore.IOS.IOSCKeys
import DolphinCore.IOS.KernelState

/-!
# DolphinCore.IOS.KernelRestore

What a state that was saved in one kernel makes of another one.  Everything that is
serialized is as it was; the acknowledgements, the exponents of the keys, and the
descriptors that were closed are those of the other kernel.
-/

namespace DolphinCore

open ChunkFile

namespace ChunkFile

theorem Restores.imp {α : Type} {doObj : Do α} {fits fits' : α → Prop} {encode : α → List Byte}
    {restore restore' : α → α → α} (h : Restores doObj fits encode restore)
    (hfits : ∀ x, fits' x → fits x) (hrestore : ∀ x x₀, restore x x₀ = restore' x x₀) :
    Restores doObj fits' encode restore' where
  mode := h.mode
  write p x hx hmode := h.write p x (hfits x hx) hmode
  read p x x₀ hx hmode hholds := by
    rw [h.read p x x₀ (hfits x hx) hmode hholds, hrestore]

end ChunkFile

/-! ## key objects -/

theorem restores_string :
    ∃ encode, Restores doString (fun s => s.length < 2 ^ 32) encode fun s _ => s :=
  ⟨_, (encodes_container (encodes_trivial u8) 0).restores.imp (fun _ h => ⟨h, fun _ _ => trivial⟩)
    fun _ _ => rfl⟩

theorem KeyEntry.restores : ∃ encode, Restores KeyEntry.doState (fun e => e.data.length < 2 ^ 32)
    encode fun e e₀ => { e with misc_data := e₀.misc_data } := by
  obtain ⟨encode, hdata⟩ := restores_string
  have h := (encodes_bool.restores.part KeyEntry.in_use
      (fun v e => { e with in_use := v }) fun _ => rfl).andThen
    (((encodes_trivial objectType).restores.part KeyEntry.type
      (fun v e => { e with type := v }) fun _ => rfl).andThen
    (((encodes_trivial objectSubType).restores.part KeyEntry.subtype
      (fun v e => { e with subtype := v }) fun _ => rfl).andThen
    ((hdata.part KeyEntry.data (fun v e => { e with data := v })
      fun _ => rfl).andThen
    ((encodes_trivial u32).restores.part KeyEntry.owner_mask
      (fun v e => { e with owner_mask := v }) fun _ => rfl))))
  exact ⟨_, h.imp (fun e he => ⟨trivial, trivial, trivial, he, trivial⟩) fun _ _ => rfl⟩

/-- The objects that are read over others, which keep their exponents. -/
def IOSC.restored (s s₀ : IOSC) : IOSC :=
  { s₀ with m_key_entries := fun i =>
      { s.m_key_entries i with misc_data := (s₀.m_key_entries i).misc_data } }

theorem IOSC.restores : ∃ encode, Restores IOSC.doState
    (fun s => ∀ i, (s.m_key_entries i).data.length < 2 ^ 32) encode IOSC.restored := by
  obtain ⟨encode, hentry⟩ := KeyEntry.restores
  have h := (Restores.indices (fun _ : Fin 32 => hentry) (List.finRange 32)
    (List.nodup_finRange 32)).part IOSC.m_key_entries
    (fun v s => { s with m_key_entries := v }) fun _ => rfl
  refine ⟨_, h.imp (fun s hs i _ => hs i) fun s s₀ => ?_⟩
  simp only [IOSC.restored, List.mem_finRange, if_true]

/-! ## devices -/

theorem DeviceBase.restores_shared : ∃ encode, Restores DeviceBase.doStateShared
    (fun d => d.m_name.length < 2 ^ 32) encode fun d _ => d := by
  obtain ⟨encode, hname⟩ := restores_string
  have h := (hname.part DeviceBase.m_name (fun v d => { d with m_name := v })
      fun _ => rfl).andThen
    (((encodes_trivial deviceType).restores.part DeviceBase.m_device_type
      (fun v d => { d with m_device_type := v }) fun _ => rfl).andThen
    (encodes_bool.restores.part DeviceBase.m_is_active
      (fun v d => { d with m_is_active := v }) fun _ => rfl))
  exact ⟨_, h.imp (fun d hd => ⟨hd, trivial, trivial⟩) fun _ _ => rfl⟩

theorem DeviceBase.restores : ∃ encode, Restores DeviceBase.doState
    (fun d => d.m_name.length < 2 ^ 32) encode fun d _ => d := by
  obtain ⟨encode, hshared⟩ := DeviceBase.restores_shared
  have h := hshared.andThen (encodes_bool.restores.part DeviceBase.m_is_active
    (fun v d => { d with m_is_active := v }) fun _ => rfl)
  exact ⟨_, h.imp (fun d hd => ⟨hd, trivial⟩) fun _ _ => rfl⟩

theorem FileIo.restores : ∃ encode, Restores FileIo.doState
    (fun f => f.device.m_name.length < 2 ^ 32) encode fun f _ => f := by
  obtain ⟨encode, hdevice⟩ := DeviceBase.restores_shared
  have h := (hdevice.part FileIo.device (fun v f => { f with device := v })
      fun _ => rfl).andThen
    (((encodes_trivial u32).restores.part FileIo.m_Mode
      (fun v f => { f with m_Mode := v }) fun _ => rfl).andThen
    ((encodes_trivial u32).restores.part FileIo.m_SeekPos
      (fun v f => { f with m_SeekPos := v }) fun _ => rfl))
  exact ⟨_, h.imp (fun f hf => ⟨hf, trivial, trivial⟩) fun _ _ => rfl⟩

theorem OH0Device.restores : ∃ encode, Restores OH0Device.doState
    (fun d => d.m_name.length < 2 ^ 32) encode fun d _ => d := by
  obtain ⟨encode, hname⟩ := restores_string
  have h := (hname.part OH0Device.m_name (fun v d => { d with m_name := v })
      fun _ => rfl).andThen
    (((encodes_trivial u16).restores.part OH0Device.m_vid
      (fun v d => { d with m_vid := v }) fun _ => rfl).andThen
    (((encodes_trivial u16).restores.part OH0Device.m_pid
      (fun v d => { d with m_pid := v }) fun _ => rfl).andThen
    ((encodes_trivial u64).restores.part OH0Device.m_device_id
      (fun v d => { d with m_device_id := v }) fun _ => rfl)))
  exact ⟨_, h.imp (fun d hd => ⟨hd, trivial, trivial, trivial⟩) fun _ _ => rfl⟩

/-! ## descriptors -/

/-- The device is one of the map, and its name is counted in 32 bits. -/
def Descriptor.Fits (names : List DeviceName) : Descriptor → Prop
  | .static name => name ∈ names ∧ name.length < 2 ^ 32
  | .fileIo file => file.device.m_name.length < 2 ^ 32
  | .oh0 device => device.m_name.length < 2 ^ 32

/-- The bytes of a descriptor. -/
def encodeDescriptor (encodeName : DeviceName → List Byte) (encodeFile : FileIo → List Byte)
    (encodeOH0 : OH0Device → List Byte) : Option Descriptor → List Byte
  | none => u32.toBytes 0
  | some device => u32.toBytes 1 ++ (deviceType.toBytes device.getDeviceType ++
      match device with
      | .static name => encodeName name
      | .fileIo file => encodeFile file
      | .oh0 device => encodeOH0 device)

theorem Kernel.restores_descriptor (names : List DeviceName) : ∃ encode,
    Restores (doDescriptor names) (fun d => ∀ device ∈ d, device.Fits names) encode
      fun d d₀ => d.or d₀ := by
  obtain ⟨encodeName, hname⟩ := restores_string
  obtain ⟨encodeFile, hfile⟩ := FileIo.restores
  obtain ⟨encodeOH0, hoh0⟩ := OH0Device.restores
  have hflag := encodes_trivial u32
  have htype := encodes_trivial deviceType
  refine ⟨encodeDescriptor encodeName encodeFile encodeOH0, fun p d => ?_, fun p d hd hmode => ?_,
    fun p d d₀ hd hmode hholds => ?_⟩
  · unfold doDescriptor
    split
    · simp only
      split
      · split
        · exact (hname.mode _ _).trans ((htype.mode _ _).trans (hflag.mode _ _))
        · exact (hfile.mode _ _).trans ((htype.mode _ _).trans (hflag.mode _ _))
        · exact (hoh0.mode _ _).trans ((htype.mode _ _).trans (hflag.mode _ _))
      · exact hflag.mode _ _
    · cases d with
      | none => exact hflag.mode _ _
      | some device =>
        cases device with
        | static name => exact (hname.mode _ _).trans ((htype.mode _ _).trans (hflag.mode _ _))
        | fileIo file => exact (hfile.mode _ _).trans ((htype.mode _ _).trans (hflag.mode _ _))
        | oh0 device => exact (hoh0.mode _ _).trans ((htype.mode _ _).trans (hflag.mode _ _))
  · have hread : p.mode ≠ .MODE_READ := by
      rw [hmode]
      decide
    rw [doDescriptor, if_neg hread, hflag.write p _ trivial hmode]
    cases d with
    | none => rfl
    | some device =>
      have hfits := hd device rfl
      simp only [Option.isSome_some, if_true]
      rw [htype.write (p.put (u32.toBytes 1)) _ trivial hmode]
      have hwrite : ∀ kind, ((p.put (u32.toBytes 1)).put (deviceType.toBytes kind)).mode =
          .MODE_WRITE := fun _ => hmode
      cases device with
      | static name =>
        simp only [Descriptor.getDeviceType]
        rw [hname.write _ name hfits.2 (hwrite .static)]
        simp only [PointerWrap.put_put, encodeDescriptor, Descriptor.getDeviceType,
          List.append_assoc]
      | fileIo file =>
        simp only [Descriptor.getDeviceType]
        rw [hfile.write _ file hfits (hwrite .fileIo)]
        simp only [PointerWrap.put_put, encodeDescriptor, Descriptor.getDeviceType,
          List.append_assoc]
      | oh0 device =>
        simp only [Descriptor.getDeviceType]
        rw [hoh0.write _ device hfits (hwrite .oh0)]
        simp only [PointerWrap.put_put, encodeDescriptor, Descriptor.getDeviceType,
          List.append_assoc]
  · rw [doDescriptor, if_pos hmode]
    cases d with
    | none =>
      rw [hflag.read p 0 trivial hmode hholds]
      rfl
    | some device =>
      have hfits := hd device rfl
      obtain ⟨hone, hrest⟩ := holds_append.mp hholds
      obtain ⟨hkind, hpayload⟩ := holds_append.mp hrest
      have hone' : (1 : BitVec 32) ≠ 0 := by decide
      rw [hflag.read p 1 trivial hmode hone]
      simp only [if_pos hone']
      rw [htype.read (p.skip (u32.toBytes 1).length) device.getDeviceType trivial hmode hkind]
      cases device with
      | static name =>
        have hread := hname.read
          ((p.skip (u32.toBytes 1).length).skip (deviceType.toBytes .static).length) name [] hfits.2
          hmode hpayload
        simp only [Descriptor.getDeviceType]
        rw [hread, getDeviceByName, if_pos hfits.1]
        simp only [PointerWrap.skip_skip, encodeDescriptor, Descriptor.getDeviceType,
          List.length_append, Nat.add_assoc, Option.some_or]
      | fileIo file =>
        have hread := hfile.read
          ((p.skip (u32.toBytes 1).length).skip (deviceType.toBytes .fileIo).length) file
          (FileIo.make []) hfits hmode hpayload
        simp only [Descriptor.getDeviceType]
        rw [hread]
        simp only [PointerWrap.skip_skip, encodeDescriptor, Descriptor.getDeviceType,
          List.length_append, Nat.add_assoc, Option.some_or]
      | oh0 device =>
        have hread := hoh0.read
          ((p.skip (u32.toBytes 1).length).skip (deviceType.toBytes .oh0).length) device
          ⟨[], 0, 0, 0⟩ hfits hmode hpayload
        simp only [Descriptor.getDeviceType]
        rw [hread]
        simp only [PointerWrap.skip_skip, encodeDescriptor, Descriptor.getDeviceType,
          List.length_append, Nat.add_assoc, Option.some_or]

namespace Kernel

/-! ## the kernel -/

/-- The queues, the descriptors and the key objects. -/
structure IPCState where
  request_queue : List (BitVec 32)
  reply_queue : List (BitVec 32)
  ack_queue : List (BitVec 32)
  fdmap : Fin ipcMaxFds → Option Descriptor
  key_entries : Fin 32 → KeyEntry

def ipcState {δ : Type} (k : Kernel δ) : IPCState where
  request_queue := k.m_request_queue
  reply_queue := k.m_reply_queue
  ack_queue := k.m_ack_queue
  fdmap := k.m_fdmap
  key_entries := k.m_iosc.m_key_entries

section

variable {δ : Type} {names : List DeviceName} {doDevice : DeviceName → Do δ}
  {fitsDevice : DeviceName → δ → Prop} {encodeDevice : DeviceName → δ → List Byte}
  {restoreDevice : DeviceName → δ → δ → δ}

/-- All containers are counted in 32 bits, and descriptors are open on devices that exist. -/
structure Fits (names : List DeviceName) (fitsDevice : DeviceName → δ → Prop) (k : Kernel δ) :
    Prop where
  request : k.m_request_queue.length < 2 ^ 32
  reply : k.m_reply_queue.length < 2 ^ 32
  keys : ∀ i, (k.m_iosc.m_key_entries i).data.length < 2 ^ 32
  devices : ∀ name ∈ names, fitsDevice name (k.m_device_map name)
  descriptors : ∀ fd, ∀ device ∈ k.m_fdmap fd, device.Fits names

/-- The kernel that reads the state, up to the key objects. -/
def restoredShared (k k₀ : Kernel δ) : Kernel δ :=
  { k₀ with
    m_request_queue := k.m_request_queue
    m_reply_queue := k.m_reply_queue
    m_last_reply_time := k.m_last_reply_time
    m_title_id := k.m_title_id
    m_ppc_uid := k.m_ppc_uid
    m_ppc_gid := k.m_ppc_gid
    m_iosc := k.m_iosc.restored k₀.m_iosc }

/-- The devices and the descriptors. -/
def restoredDevices (names : List DeviceName) (restoreDevice : DeviceName → δ → δ → δ)
    (k k₀ : Kernel δ) : Kernel δ :=
  { k₀ with
    m_device_map := fun name =>
      if name ∈ names then restoreDevice name (k.m_device_map name) (k₀.m_device_map name)
      else k₀.m_device_map name
    m_fdmap := fun fd => (k.m_fdmap fd).or (k₀.m_fdmap fd) }

theorem restores_shared : ∃ encode, Restores (doStateShared (δ := δ))
    (fun k => k.m_request_queue.length < 2 ^ 32 ∧ k.m_reply_queue.length < 2 ^ 32 ∧
      ∀ i, (k.m_iosc.m_key_entries i).data.length < 2 ^ 32) encode restoredShared := by
  obtain ⟨encode, hiosc⟩ := IOSC.restores
  have hqueue := (encodes_container (encodes_trivial u32) 0).restores
  have h := (hqueue.part (Kernel.m_request_queue (δ := δ))
      (fun v k => { k with m_request_queue := v }) fun _ => rfl).andThen
    ((hqueue.part Kernel.m_reply_queue
      (fun v k => { k with m_reply_queue := v }) fun _ => rfl).andThen
    (((encodes_trivial u64).restores.part Kernel.m_last_reply_time
      (fun v k => { k with m_last_reply_time := v }) fun _ => rfl).andThen
    (((encodes_trivial u64).restores.part Kernel.m_title_id
      (fun v k => { k with m_title_id := v }) fun _ => rfl).andThen
    (((encodes_trivial u32).restores.part Kernel.m_ppc_uid
      (fun v k => { k with m_ppc_uid := v }) fun _ => rfl).andThen
    (((encodes_trivial u16).restores.part Kernel.m_ppc_gid
      (fun v k => { k with m_ppc_gid := v }) fun _ => rfl).andThen
    (hiosc.part Kernel.m_iosc (fun v k => { k with m_iosc := v })
      fun _ => rfl))))))
  refine ⟨_, h.imp (fun k hk => ?_) fun _ _ => rfl⟩
  exact ⟨⟨hk.1, fun _ _ => trivial⟩, ⟨hk.2.1, fun _ _ => trivial⟩, trivial, trivial, trivial,
    trivial, hk.2.2⟩

theorem restores_devices (hnames : names.Nodup)
    (hdevice : ∀ name, Restores (doDevice name) (fitsDevice name) (encodeDevice name)
      (restoreDevice name)) :
    ∃ encode, Restores (doStateDevices names doDevice)
      (fun k => (∀ name ∈ names, fitsDevice name (k.m_device_map name)) ∧
        ∀ fd, ∀ device ∈ k.m_fdmap fd, device.Fits names)
      encode (restoredDevices names restoreDevice) := by
  obtain ⟨encode, hdescriptor⟩ := restores_descriptor names
  have h := ((Restores.indices hdevice names hnames).part Kernel.m_device_map
      (fun v k => { k with m_device_map := v }) fun _ => rfl).andThen
    ((Restores.indices (fun _ : Fin ipcMaxFds => hdescriptor) (List.finRange ipcMaxFds)
      (List.nodup_finRange ipcMaxFds)).part Kernel.m_fdmap
      (fun v k => { k with m_fdmap := v }) fun _ => rfl)
  refine ⟨_, h.imp (fun k hk => ⟨hk.1, fun fd _ => hk.2 fd⟩) fun k k₀ => ?_⟩
  simp only [restoredDevices, List.mem_finRange, if_true]
  congr
  funext name
  by_cases hname : name ∈ names
  · rw [if_pos hname, if_pos hname]
  · rw [if_neg hname, if_neg hname]

/-- What is read over a kernel. -/
def restored (names : List DeviceName) (restoreDevice : DeviceName → δ → δ → δ)
    (k k₀ : Kernel δ) : Kernel δ :=
  if k.m_title_id = mios then k.restoredShared k₀
  else k.restoredDevices names restoreDevice (k.restoredShared k₀)

theorem restores (hnames : names.Nodup)
    (hdevice : ∀ name, Restores (doDevice name) (fitsDevice name) (encodeDevice name)
      (restoreDevice name)) :
    ∃ encode, Restores (doState names doDevice) (Fits names fitsDevice) encode
      (restored names restoreDevice) := by
  obtain ⟨encode, hshared⟩ := restores_shared (δ := δ)
  obtain ⟨encode', hdevices⟩ := restores_devices hnames hdevice
  have h := hshared.andUnless hdevices (fun k => k.m_title_id = mios) fun _ _ => rfl
  refine ⟨_, h.imp (fun k hk => ?_) fun k k₀ => ?_⟩
  · exact ⟨⟨hk.request, hk.reply, hk.keys⟩, fun _ => ⟨hk.devices, hk.descriptors⟩⟩
  · simp only [restored, decide_eq_true_eq]

theorem load_saved (hnames : names.Nodup)
    (hdevice : ∀ name, Restores (doDevice name) (fitsDevice name) (encodeDevice name)
      (restoreDevice name))
    {A B : Kernel δ} (hA : A.Fits names fitsDevice) {p q : PointerWrap}
    (hp : p.mode = .MODE_WRITE) (hq : q.mode = .MODE_READ) (hptr : q.ptr = p.ptr)
    (hmem : q.mem = (doState names doDevice p A).1.mem) :
    (doState names doDevice p A).2 = A ∧
      (doState names doDevice q B).2 = A.restored names restoreDevice B := by
  obtain ⟨encode, h⟩ := restores hnames hdevice
  have hwrite := h.write p A hA hp
  have hholds : Holds q.mem q.ptr (encode A) := by
    rw [hmem, hwrite, hptr]
    exact holds_writeBytes p.mem p.ptr (encode A)
  rw [hwrite, h.read q A B hA hq hholds]
  exact ⟨rfl, rfl⟩

theorem or_eq_left_iff {α : Type} {x y : Option α} : x.or y = x ↔ (x = none → y = none) := by
  cases x <;> simp

end

/-! ## a descriptor that was opened after the state was saved -/

/-- `"/dev/usb/oh1"`, a stub, which serializes what every device does. -/
def oh1 : DeviceName := "/dev/usb/oh1".toList.map fun c => BitVec.ofNat 8 c.toNat

/-- A kernel that no process has used. -/
def unused : Kernel DeviceBase where
  m_title_id := 0x0000000100000024
  m_device_map name := ⟨name, .static, false⟩
  m_fdmap _ := none
  m_ppc_uid := 0
  m_ppc_gid := 0
  m_request_queue := []
  m_reply_queue := []
  m_ack_queue := []
  m_last_reply_time := 0
  m_iosc := IOSC.blankKeys

theorem unused_fits : unused.Fits [oh1] (fun _ d => d.m_name.length < 2 ^ 32) where
  request := by decide
  reply := by decide
  keys := by decide
  devices name hname := by
    rw [List.mem_singleton.mp hname]
    decide
  descriptors _ device hdevice := by cases hdevice

/-- The buffer that is written. -/
def saving : PointerWrap := ⟨0, .MODE_WRITE, fun _ => 0⟩

/-- The buffer that is read. -/
def loading : PointerWrap :=
  ⟨0, .MODE_READ, (doState [oh1] (fun _ => DeviceBase.doState) saving unused).1.mem⟩

theorem loading_mem :
    loading.mem = (doState [oh1] (fun _ => DeviceBase.doState) saving unused).1.mem := by
  rw [loading]

end Kernel

end DolphinCore
