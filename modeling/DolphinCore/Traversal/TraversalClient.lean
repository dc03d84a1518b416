import DolphinCore.Traversal.TraversalProto

/-!
# DolphinCore.Traversal.TraversalClient

A client of the traversal server. It sends its requests again until they are
acknowledged, answers the server, and tells its own client what became of a call
of `ConnectToClient`.

Time and the ids of requests are inputs, as is which packets the socket takes.
-/

namespace DolphinCore.Traversal

/-- An address of the network library, which knows IPv4 only; the words of the address are as they
lie in memory, the port is a number. -/
structure ENetAddress where
  host : BitVec 32
  port : BitVec 16
deriving DecidableEq

def ntohs (port : BitVec 16) : BitVec 16 :=
  BitVec.ofNat 16 (port.toNat % 2 ^ 8 * 2 ^ 8 + port.toNat / 2 ^ 8)

/-- `MakeENetAddress`; without support for the address the host stays as it was. -/
def MakeENetAddress (uninitialized : BitVec 32) (address : TraversalInetAddress) : ENetAddress :=
  if address.isIPV6 then ⟨uninitialized, 0⟩
  else ⟨getElem address.address 0 (Nat.succ_pos 3), ntohs address.port⟩

/-- Where the server, whose socket is of the other family, sees packets of a client. -/
def ENetAddress.sockAddr (addr : ENetAddress) : SockAddrIn6 :=
  ⟨ntohs addr.port, #v[0, 0, 0xffff0000, addr.host]⟩

@[simp] theorem ntohs_ntohs (port : BitVec 16) : ntohs (ntohs port) = port := by
  have htoNat (p : BitVec 16) : (ntohs p).toNat = p.toNat % 256 * 256 + p.toNat / 256 := by
    unfold ntohs
    rw [BitVec.toNat_ofNat, Nat.mod_eq_of_lt (by omega)]
    rfl
  refine BitVec.eq_of_toNat_eq ?_
  rw [htoNat, htoNat]
  omega

@[simp] theorem MakeENetAddress_sockAddr (uninitialized : BitVec 32) (addr : ENetAddress) :
    MakeENetAddress uninitialized (MakeInetAddress addr.sockAddr) = addr := by
  obtain ⟨host, port⟩ := addr
  simp [ENetAddress.sockAddr, MakeInetAddress, MakeENetAddress]

/-! ## the client -/

/-- `TraversalClient::State` -/
inductive ClientState where
  | Connecting
  | Connected
  | Failure
deriving DecidableEq

inductive FailureReason where
  | BadHost
  | VersionTooOld
  | ServerForgotAboutUs
  | SocketSendError
  | ResendTimeout
deriving DecidableEq

structure OutgoingTraversalPacketInfo where
  packet : TraversalPacket
  tries : Nat
  sendTime : BitVec 32
deriving DecidableEq

structure TraversalClient where
  /-- Whether there is an `m_Client`. -/
  m_Client : Bool
  m_HostId : TraversalHostId
  m_State : ClientState
  m_FailureReason : Option FailureReason
  m_ConnectRequestId : TraversalRequestId
  m_PendingConnect : Bool
  m_OutgoingTraversalPackets : List OutgoingTraversalPacketInfo
  m_PingTime : BitVec 32
deriving DecidableEq

/-- `TraversalClientClient` -/
inductive Callback where
  | OnTraversalStateChanged
  | OnConnectReady (addr : ENetAddress)
  | OnConnectFailed (reason : TraversalConnectFailedReason)
deriving DecidableEq

/-- What a call of the client does on its way. -/
structure ClientRun where
  client : TraversalClient
  /-- Packets to the server. -/
  sent : List TraversalPacket
  /-- Where a message was sent that opens the way for another client. -/
  opened : List ENetAddress
  callbacks : List Callback

namespace ClientRun

def OnFailure (reason : FailureReason) (r : ClientRun) : ClientRun :=
  { r with
    client := { r.client with m_State := .Failure, m_FailureReason := some reason }
    callbacks := r.callbacks ++ if r.client.m_Client then [.OnTraversalStateChanged] else [] }

variable (socket : TraversalPacket → Bool)

/-- `enet_socket_send` to the server, which the socket may refuse. -/
def send (packet : TraversalPacket) (r : ClientRun) : ClientRun :=
  if socket packet then { r with sent := r.sent ++ [packet] } else r.OnFailure .SocketSendError

/-- `SendTraversalPacket`, with the id that is drawn. -/
def SendTraversalPacket (now : BitVec 32) (requestId : TraversalRequestId)
    (data : TraversalPacketData) (r : ClientRun) : ClientRun :=
  let packet : TraversalPacket := ⟨requestId, data⟩
  let client := { r.client with
    m_OutgoingTraversalPackets := r.client.m_OutgoingTraversalPackets ++ [⟨packet, 1, now⟩] }
  { r with client := client }.send socket packet

/-- `ReconnectToServer`; the name of the server may not resolve. -/
def ReconnectToServer (resolved : Bool) (now : BitVec 32) (requestId : TraversalRequestId)
    (r : ClientRun) : ClientRun :=
  if resolved then
    let r := { r with client := { r.client with m_State := .Connecting } }
    let r := r.SendTraversalPacket socket now requestId (.HelloFromClient TraversalProtoVersion)
    { r with callbacks := r.callbacks ++
        if r.client.m_Client then [.OnTraversalStateChanged] else [] }
  else r.OnFailure .BadHost

def Reset (r : ClientRun) : ClientRun :=
  { r with client := { r.client with m_PendingConnect := false, m_Client := false } }

/-- `ConnectToClient`; a name that is too long is refused. -/
def ConnectToClient (host : List (BitVec 8)) (now : BitVec 32) (requestId : TraversalRequestId)
    (r : ClientRun) : ClientRun :=
  if host.length > NETPLAY_CODE_SIZE then r
  else
    let hostId : TraversalHostId := Vector.ofFn fun i => host.getD i 0
    let r := r.SendTraversalPacket socket now requestId (.ConnectPlease hostId)
    { r with client := { r.client with
        m_ConnectRequestId := requestId, m_PendingConnect := true } }

/-- The answer to a request to connect; any but the one that is waited for is dropped. -/
def connectAnswered (requestId : TraversalRequestId) (callback : Callback) (r : ClientRun) :
    ClientRun :=
  if ¬ r.client.m_PendingConnect ∨ requestId ≠ r.client.m_ConnectRequestId then r
  else
    { r with
      client := { r.client with m_PendingConnect := false }
      callbacks := r.callbacks ++ if r.client.m_Client then [callback] else [] }

/-- `HandleServerPacket` up to the acknowledgement, and whether that is a good one. -/
def handle (uninitialized : BitVec 32) (packet : TraversalPacket) (r : ClientRun) :
    ClientRun × BitVec 8 :=
  match packet.data with
  | .Ack ok =>
    if ok = 0 then (r.OnFailure .ServerForgotAboutUs, 1)
    else
      ({ r with client := { r.client with
          m_OutgoingTraversalPackets := r.client.m_OutgoingTraversalPackets.eraseP
            fun info => info.packet.requestId = packet.requestId } }, 1)
  | .HelloFromServer ok yourHostId _ =>
    if r.client.m_State ≠ .Connecting then (r, 1)
    else if ok = 0 then (r.OnFailure .VersionTooOld, 1)
    else
      ({ r with
        client := { r.client with m_HostId := yourHostId, m_State := .Connected }
        callbacks := r.callbacks ++
          if r.client.m_Client then [.OnTraversalStateChanged] else [] }, 1)
  | .PleaseSendPacket address =>
    let addr := MakeENetAddress uninitialized address
    if addr.port ≠ 0 then ({ r with opened := r.opened ++ [addr] }, 1)
    -- invalid IPV6
    else (r, 0)
  | .ConnectReady requestId address =>
    (r.connectAnswered requestId (.OnConnectReady (MakeENetAddress uninitialized address)), 1)
  | .ConnectFailed requestId reason =>
    (r.connectAnswered requestId (.OnConnectFailed reason), 1)
  | _ => (r, 1)

def HandleServerPacket (uninitialized : BitVec 32) (packet : TraversalPacket) (r : ClientRun) :
    ClientRun :=
  let (r, ok) := r.handle uninitialized packet
  match packet.data with
  | .Ack _ => r
  | _ => r.send socket ⟨packet.requestId, .Ack ok⟩

/-- The loop of `HandleResends`, over the packets that it has not come to; those before are as they
are to be. -/
def resends (now : BitVec 32) (before : List OutgoingTraversalPacketInfo) :
    List OutgoingTraversalPacketInfo → ClientRun → ClientRun
  | [], r => { r with client := { r.client with m_OutgoingTraversalPackets := before } }
  | tpi :: rest, r =>
    if now - tpi.sendTime ≥ BitVec.ofNat 32 (300 * tpi.tries) then
      if tpi.tries ≥ 5 then
        let r := r.OnFailure .ResendTimeout
        { r with client := { r.client with m_OutgoingTraversalPackets := [] } }
      else
        resends now (before ++ [{ tpi with sendTime := now, tries := tpi.tries + 1 }]) rest
          (r.send socket tpi.packet)
    else resends now (before ++ [tpi]) rest r

def HandlePing (now : BitVec 32) (requestId : TraversalRequestId) (r : ClientRun) : ClientRun :=
  if r.client.m_State = .Connected ∧ now - r.client.m_PingTime ≥ 500 then
    let r := r.SendTraversalPacket socket now requestId (.Ping r.client.m_HostId)
    { r with client := { r.client with m_PingTime := now } }
  else r

def HandleResends (now : BitVec 32) (requestId : TraversalRequestId) (r : ClientRun) : ClientRun :=
  (r.resends socket now [] r.client.m_OutgoingTraversalPackets).HandlePing socket now requestId

end ClientRun

end DolphinCore.Traversal
