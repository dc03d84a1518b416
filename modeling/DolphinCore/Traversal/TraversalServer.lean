import DolphinCore.Lib.UnorderedMap
import DolphinCore.Traversal.TraversalProto

/-!
# DolphinCore.Traversal.TraversalServer

The traversal server: it knows the address of every host under an id, and tells
two clients of each other. Packets of its own are sent again until they are
acknowledged.

Time is an input. A loop that may not end has fuel, and no value when it runs out.
-/

namespace DolphinCore.Traversal

abbrev NUMBER_OF_TRIES : Nat := 5

structure OutgoingPacketInfo where
  packet : TraversalPacket
  misc : TraversalRequestId
  dest : SockAddrIn6
  tries : Nat
  sendTime : BitVec 64
deriving DecidableEq

/-! ## entries that expire -/

structure EvictEntry (ν : Type) where
  updateTime : BitVec 64
  value : ν

/-- 30 seconds -/
abbrev expiryTime : BitVec 64 := 30 * 1000000

variable {κ ν : Type} [DecidableEq κ]

def EvictEntry.Expired (e : EvictEntry ν) (currentTime : BitVec 64) : Prop :=
  currentTime - e.updateTime > expiryTime

instance (e : EvictEntry ν) (currentTime : BitVec 64) : Decidable (e.Expired currentTime) :=
  inferInstanceAs (Decidable (_ > _))

/-- What a walk through a bucket comes to first. -/
inductive Scan (κ ν : Type) where
  | expired (key : κ)
  | found (value : ν)
  | missing

def scanBucket (currentTime : BitVec 64) (key : κ) : List (κ × EvictEntry ν) → Scan κ ν
  | [] => .missing
  | (first, entry) :: nodes =>
    if entry.Expired currentTime then .expired first
    else if first = key then .found entry.value
    else scanBucket currentTime key nodes

theorem mem_of_scan_expired {currentTime : BitVec 64} {key first : κ}
    {nodes : List (κ × EvictEntry ν)} (h : scanBucket currentTime key nodes = .expired first) :
    ∃ entry, (first, entry) ∈ nodes ∧ entry.Expired currentTime := by
  induction nodes with
  | nil => cases h
  | cons node nodes ih =>
    obtain ⟨k, entry⟩ := node
    rw [scanBucket] at h
    split at h
    · next hexp =>
      cases h
      exact ⟨entry, List.mem_cons_self .., hexp⟩
    · split at h
      · cases h
      · obtain ⟨e, he, hexp⟩ := ih h
        exact ⟨e, List.mem_cons_of_mem _ he, hexp⟩

/-- `EvictFind`: an entry that has expired is erased, and the walk starts again. -/
def EvictFind (currentTime : BitVec 64) (map : UnorderedMap κ (EvictEntry ν)) (key : κ)
    (refresh : Bool) : UnorderedMap κ (EvictEntry ν) × Option ν :=
  match _h : scanBucket currentTime key (map.bucketNodes key) with
  | .expired first => EvictFind currentTime (map.erase first) key refresh
  | .found value =>
    (if refresh then map.modify key ({ · with updateTime := currentTime }) else map, some value)
  | .missing => (map, none)
termination_by map.nodes.length
decreasing_by
  obtain ⟨entry, hentry, -⟩ := mem_of_scan_expired _h
  refine List.length_filter_lt_length_iff_exists.mpr ⟨_, (List.mem_filter.mp hentry).1, ?_⟩
  simp

/-- `EvictSet`, and what the caller puts there. -/
def EvictSet (std : UnorderedMap.Insertion κ (EvictEntry ν)) (currentTime : BitVec 64)
    (map : UnorderedMap κ (EvictEntry ν)) (key : κ) (value : ν) :
    UnorderedMap κ (EvictEntry ν) :=
  std.insert map key ⟨currentTime, value⟩

/-! ## random bytes -/

/-- The bytes of each read of `/dev/urandom`, and what is left of the last one. -/
structure RandomPool where
  urandom : Nat → Nat → BitVec 8
  reads : Nat
  bytes : Nat → BitVec 8
  bytesLeft : Nat

/-- `GetRandomBytes`, from the end of the pool. -/
def GetRandomBytes (pool : RandomPool) (size : Nat) : List (BitVec 8) × RandomPool :=
  let pool := if pool.bytesLeft < size then
      { pool with reads := pool.reads + 1, bytes := pool.urandom pool.reads, bytesLeft := 8192 }
    else pool
  let first := pool.bytesLeft - size
  ((List.range size).map fun i => pool.bytes (first + i), { pool with bytesLeft := first })

/-- A digit of `%08x`. -/
def hexDigit (n : Nat) : BitVec 8 := BitVec.ofNat 8 (if n < 10 then 48 + n else 87 + n)

/-- The host id with this number. -/
def hostIdOf (num : Nat) : TraversalHostId :=
  Vector.ofFn fun i => hexDigit (num / 16 ^ (7 - i.val) % 16)

def GetRandomHostId (pool : RandomPool) : TraversalHostId × RandomPool :=
  let (bytes, pool) := GetRandomBytes pool 4
  (hostIdOf (Endian.fromLE bytes), pool)

/-! ## the server -/

abbrev Clients := UnorderedMap TraversalHostId (EvictEntry TraversalInetAddress)

structure Server where
  outgoingPackets : List (TraversalRequestId × OutgoingPacketInfo)
  connectedClients : Clients
  random : RandomPool

/-- A packet on its way from the server. -/
structure Datagram where
  packet : TraversalPacket
  dest : SockAddrIn6
deriving DecidableEq

namespace Server

def info (s : Server) (id : TraversalRequestId) : Option OutgoingPacketInfo :=
  (s.outgoingPackets.find? fun entry => entry.1 = id).map Prod.snd

/-- `outgoingPackets.erase` -/
def erase (s : Server) (id : TraversalRequestId) : Server :=
  { s with outgoingPackets := s.outgoingPackets.filter fun entry => entry.1 ≠ id }

/-- `AllocPacket`, and the packet that the caller makes of what the server then has. -/
def AllocPacket (s : Server) (currentTime : BitVec 64) (dest : SockAddrIn6)
    (misc : TraversalRequestId) : TraversalRequestId × Server :=
  let (bytes, random) := GetRandomBytes s.random 8
  let requestId := BitVec.ofNat 64 (Endian.fromLE bytes)
  let info : OutgoingPacketInfo := ⟨⟨requestId, .Ack 0⟩, misc, dest, 0, currentTime⟩
  let s := { s with random := random }.erase requestId
  (requestId, { s with outgoingPackets := (requestId, info) :: s.outgoingPackets })

/-- The data of a packet that was allocated. -/
def setData (s : Server) (id : TraversalRequestId) (data : TraversalPacketData) : Server :=
  { s with outgoingPackets := s.outgoingPackets.map fun entry =>
      if entry.1 = id then (entry.1, { entry.2 with packet := { entry.2.packet with data } })
      else entry }

/-- An acknowledged `PleaseSendPacket` tells the client that asked for it. -/
def tellRequester (s : Server) (currentTime : BitVec 64) (ok : BitVec 8) (id : TraversalRequestId)
    (address : TraversalInetAddress) : Server :=
  let (readyId, s) := s.AllocPacket currentTime (MakeSinAddr address) 0
  match s.info id with
  | none => s
  | some info =>
    s.setData readyId (if ok ≠ 0 then .ConnectReady info.misc (MakeInetAddress info.dest)
      else .ConnectFailed info.misc .ClientFailure)

def handleAck (s : Server) (currentTime : BitVec 64) (ok : BitVec 8) (id : TraversalRequestId) :
    Server :=
  match s.info id with
  | none => s
  | some info =>
    let s := match info.packet.data with
      | .PleaseSendPacket address => s.tellRequester currentTime ok id address
      | _ => s
    s.erase id

/-- The loop of a hello: it looks for the host id until that is not found. -/
def registerHost (std : UnorderedMap.Insertion TraversalHostId (EvictEntry TraversalInetAddress))
    (currentTime : BitVec 64) (hostId : TraversalHostId) (address : TraversalInetAddress) :
    Nat → Clients → Option Clients
  | 0, _ => none
  | fuel + 1, clients =>
    match EvictFind currentTime clients hostId false with
    | (clients, none) => some (EvictSet std currentTime clients hostId address)
    | (clients, some _) => registerHost std currentTime hostId address fuel clients

def handleHello (std : UnorderedMap.Insertion TraversalHostId (EvictEntry TraversalInetAddress))
    (fuel : Nat) (s : Server) (currentTime : BitVec 64) (protoVersion : BitVec 8)
    (addr : SockAddrIn6) : Option Server :=
  let (id, s) := s.AllocPacket currentTime addr 0
  if protoVersion ≤ TraversalProtoVersion then
    let (hostId, random) := GetRandomHostId s.random
    (registerHost std currentTime hostId (MakeInetAddress addr) fuel s.connectedClients).map
      fun clients =>
        { s with random := random, connectedClients := clients }.setData id
          (.HelloFromServer 1 hostId (MakeInetAddress addr))
  else some (s.setData id
    (.HelloFromServer 0 (Vector.replicate _ 0) ⟨false, Vector.replicate _ 0, 0⟩))

def handleConnectPlease (s : Server) (currentTime : BitVec 64) (id : TraversalRequestId)
    (hostId : TraversalHostId) (addr : SockAddrIn6) : Server :=
  match EvictFind currentTime s.connectedClients hostId false with
  | (clients, none) =>
    let (reply, s) := { s with connectedClients := clients }.AllocPacket currentTime addr 0
    s.setData reply (.ConnectFailed id .NoSuchClient)
  | (clients, some address) =>
    let (please, s) := { s with connectedClients := clients }.AllocPacket currentTime
      (MakeSinAddr address) id
    s.setData please (.PleaseSendPacket (MakeInetAddress addr))

/-- `HandlePacket`: all packets but acknowledgements are acknowledged. -/
def HandlePacket (std : UnorderedMap.Insertion TraversalHostId (EvictEntry TraversalInetAddress))
    (fuel : Nat) (s : Server) (currentTime : BitVec 64) (packet : TraversalPacket)
    (addr : SockAddrIn6) : Option (Server × List Datagram) :=
  let ack (ok : BitVec 8) : List Datagram := [⟨⟨packet.requestId, .Ack ok⟩, addr⟩]
  match packet.data with
  | .Ack ok => some (s.handleAck currentTime ok packet.requestId, [])
  | .Ping hostId =>
    let (clients, found) := EvictFind currentTime s.connectedClients hostId true
    some ({ s with connectedClients := clients }, ack (if found.isSome then 1 else 0))
  | .HelloFromClient protoVersion =>
    (s.handleHello std fuel currentTime protoVersion addr).map (·, ack 1)
  | .ConnectPlease hostId =>
    some (s.handleConnectPlease currentTime packet.requestId hostId addr, ack 1)
  | _ => some (s, ack 1)

/-- One packet in `ResendPackets`: what is kept of it, what is sent, and the failure of a
request. -/
def resend (currentTime : BitVec 64) (entry : TraversalRequestId × OutgoingPacketInfo) :
    Option (TraversalRequestId × OutgoingPacketInfo) × List Datagram ×
      List (TraversalInetAddress × TraversalRequestId) :=
  let (id, info) := entry
  if currentTime - info.sendTime ≥ BitVec.ofNat 64 (300000 * info.tries) then
    if info.tries ≥ NUMBER_OF_TRIES then
      (none, [], match info.packet.data with
        | .PleaseSendPacket address => [(address, info.misc)]
        | _ => [])
    else
      (some (id, { info with tries := info.tries + 1, sendTime := currentTime }),
        [⟨info.packet, info.dest⟩], [])
  else (some entry, [], [])

/-- A request that the host did not respond to. -/
def failRequest (s : Server) (currentTime : BitVec 64)
    (failure : TraversalInetAddress × TraversalRequestId) : Server :=
  let (fail, s) := s.AllocPacket currentTime (MakeSinAddr failure.1) 0
  s.setData fail (.ConnectFailed failure.2 .ClientDidntRespond)

def ResendPackets (s : Server) (currentTime : BitVec 64) : Server × List Datagram :=
  let results := s.outgoingPackets.map (resend currentTime)
  let s := { s with outgoingPackets := results.filterMap Prod.fst }
  ((results.flatMap fun r => r.2.2).foldl (failRequest · currentTime) s,
    results.flatMap fun r => r.2.1)

/-- What the main loop waits for: a packet, or the end of a wait. -/
structure Event where
  currentTime : BitVec 64
  received : Option (TraversalPacket × SockAddrIn6)

/-- One turn of the main loop. -/
def turn (std : UnorderedMap.Insertion TraversalHostId (EvictEntry TraversalInetAddress))
    (fuel : Nat) (s : Server) (event : Event) : Option (Server × List Datagram) :=
  match event.received with
  | none => some (s.ResendPackets event.currentTime)
  | some (packet, addr) =>
    (HandlePacket std fuel s event.currentTime packet addr).map fun (s, sent) =>
      let (s, more) := s.ResendPackets event.currentTime
      (s, sent ++ more)

end Server

end DolphinCore.Traversal
