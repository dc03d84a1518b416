import DolphinCore.Lib.Run
import DolphinCore.Traversal.Requests
import DolphinCore.Traversal.TraversalClient

/-!
# DolphinCore.Traversal.TraversalNetwork

Any number of clients and the server, between which datagrams are lost, duplicated,
delayed and reordered: every datagram that was ever sent can be received at any
time, any number of times or never, at the address that it was sent to.

Beside the states of the parties the network keeps a record of what was called,
registered, accepted and answered, and of the ids that were drawn.
-/

namespace DolphinCore.Traversal

/-! ## clients -/

inductive ClientAction where
  /-- The constructor, unless the name of the server does not resolve. -/
  | create (resolved : Bool)
  | release
  /-- `m_Client` is set. -/
  | setClient
  | Reset
  | ReconnectToServer (resolved : Bool)
  | ConnectToClient (host : List (BitVec 8))
  /-- A datagram of the server arrives. -/
  | receive (datagram : Datagram)
  | HandleResends

/-- What a client does not choose: the time, the id that is drawn, the packets that the socket takes
and what is in memory that was not written. -/
structure Inputs where
  now : BitVec 32
  requestId : TraversalRequestId
  socket : TraversalPacket → Bool
  uninitialized : BitVec 32

/-- A client before its constructor. -/
def TraversalClient.new : TraversalClient where
  m_Client := false
  m_HostId := Vector.replicate _ 0
  m_State := .Connecting
  m_FailureReason := none
  m_ConnectRequestId := 0
  m_PendingConnect := false
  m_OutgoingTraversalPackets := []
  m_PingTime := 0

def ClientRun.start (client : TraversalClient) : ClientRun := ⟨client, [], [], []⟩

/-- What a client does. -/
def ClientAction.perform (inputs : Inputs) : ClientAction → ClientRun → ClientRun
  | .create resolved, r =>
    r.Reset.ReconnectToServer inputs.socket resolved inputs.now inputs.requestId
  | .release, r => r
  | .setClient, r => { r with client := { r.client with m_Client := true } }
  | .Reset, r => r.Reset
  | .ReconnectToServer resolved, r =>
    r.ReconnectToServer inputs.socket resolved inputs.now inputs.requestId
  | .ConnectToClient host, r =>
    r.ConnectToClient inputs.socket host inputs.now inputs.requestId
  | .receive datagram, r =>
    r.HandleServerPacket inputs.socket inputs.uninitialized datagram.packet
  | .HandleResends, r => r.HandleResends inputs.socket inputs.now inputs.requestId

/-- The id that an action draws, if it does. -/
def ClientAction.drawnIds (inputs : Inputs) (client : TraversalClient) :
    ClientAction → List TraversalRequestId
  | .create resolved | .ReconnectToServer resolved =>
    if resolved then [inputs.requestId] else []
  | .ConnectToClient host =>
    if host.length > NETPLAY_CODE_SIZE then [] else [inputs.requestId]
  | .HandleResends =>
    let r := ClientRun.start client
    let r := r.resends inputs.socket inputs.now [] r.client.m_OutgoingTraversalPackets
    if r.client.m_State = .Connected ∧ inputs.now - r.client.m_PingTime ≥ 500 then
      [inputs.requestId]
    else []
  | _ => []

/-! ## the network -/

/-- A call of `ConnectToClient`. -/
structure ConnectCall (ι : Type) where
  caller : ι
  host : TraversalHostId
  requestId : TraversalRequestId
deriving DecidableEq

/-- A callback that answers a call. -/
structure Answer (ι : Type) where
  caller : ι
  requestId : TraversalRequestId
  callback : Callback
deriving DecidableEq

structure World (ι : Type) where
  server : Server
  clients : ι → Option TraversalClient
  /-- Everything that was ever sent to the server, with the address it came from. -/
  toServer : List (TraversalPacket × SockAddrIn6)
  /-- Everything that the server ever sent. -/
  toClients : List Datagram
  clientIds : List TraversalRequestId
  serverIds : List TraversalRequestId
  connects : List (ConnectCall ι)
  /-- The hosts that were registered, with the addresses that they announced. -/
  registrations : List (TraversalHostId × SockAddrIn6)
  /-- The packets that clients acknowledged with ok. -/
  accepted : List (ι × TraversalPacket)
  answers : List (Answer ι)
  /-- The ids that were acknowledged to the server. -/
  acked : List TraversalRequestId

inductive Action (ι : Type) where
  | client (c : ι) (action : ClientAction) (inputs : Inputs)
  | server (fuel : Nat) (event : Server.Event)

/-- `OnConnectReady` or `OnConnectFailed`. -/
def Callback.answers : Callback → Bool
  | .OnTraversalStateChanged => false
  | .OnConnectReady _ => true
  | .OnConnectFailed _ => true

namespace World

variable {ι : Type} [DecidableEq ι]

section

variable (address : ι → ENetAddress)

/-- The client that an action is for. -/
def actor (w : World ι) (c : ι) : ClientAction → Option TraversalClient
  | .create _ => some .new
  | .receive datagram =>
    if datagram ∈ w.toClients ∧ datagram.dest = (address c).sockAddr then w.clients c else none
  | _ => w.clients c

/-- The calls of `ConnectToClient` that an action makes. -/
def connectsOf (c : ι) (inputs : Inputs) : ClientAction → List (ConnectCall ι)
  | .ConnectToClient host =>
    if host.length > NETPLAY_CODE_SIZE then []
    else [⟨c, Vector.ofFn fun i => host.getD i 0, inputs.requestId⟩]
  | _ => []

/-- The packets that an action acknowledges with ok. -/
def acceptedOf (c : ι) (r : ClientRun) : ClientAction → List (ι × TraversalPacket)
  | .receive datagram =>
    if ⟨datagram.packet.requestId, .Ack 1⟩ ∈ r.sent then [(c, datagram.packet)] else []
  | _ => []

/-- The answers that an action gives, to the call that the client waits for. -/
def answersOf (c : ι) (client : TraversalClient) (r : ClientRun) : List (Answer ι) :=
  (r.callbacks.filter Callback.answers).map (⟨c, client.m_ConnectRequestId, ·⟩)

def clientStep (w : World ι) (c : ι) (action : ClientAction) (inputs : Inputs) : Option (World ι) :=
  (w.actor address c action).map fun client =>
    let r := action.perform inputs (.start client)
    { w with
      clients := Function.update w.clients c
        (match action with
          | .release => none
          | _ => some r.client)
      toServer := w.toServer ++ r.sent.map (·, (address c).sockAddr)
      clientIds := action.drawnIds inputs client ++ w.clientIds
      connects := connectsOf c inputs action ++ w.connects
      accepted := acceptedOf c r action ++ w.accepted
      answers := answersOf c client r ++ w.answers }

/-- The registration that an event makes. -/
def registrationsOf (s : Server) (event : Server.Event) : List (TraversalHostId × SockAddrIn6) :=
  match event.received with
  | some (⟨_, .HelloFromClient protoVersion⟩, addr) =>
    if protoVersion ≤ TraversalProtoVersion then [(s.drawnId, addr)] else []
  | _ => []

/-- The id that an event acknowledges. -/
def ackedOf (event : Server.Event) : List TraversalRequestId :=
  match event.received with
  | some (⟨id, .Ack _⟩, _) => [id]
  | _ => []

variable (std : UnorderedMap.Insertion TraversalHostId (EvictEntry TraversalInetAddress))

def serverStep (w : World ι) (fuel : Nat) (event : Server.Event) : Option (World ι) :=
  if ∀ received ∈ event.received, received ∈ w.toServer then
    (w.server.turn std fuel event).map fun (server, sent) =>
      { w with
        server := server
        toClients := w.toClients ++ sent
        serverIds := w.server.drawnIds std fuel event ++ w.serverIds
        registrations := registrationsOf w.server event ++ w.registrations
        acked := ackedOf event ++ w.acked }
  else none

def step (w : World ι) : Action ι → Option (World ι)
  | .client c action inputs => w.clientStep address c action inputs
  | .server fuel event => w.serverStep std fuel event

/-- The ids that are drawn in a step were not drawn before. -/
def DistinctIds (w : World ι) : Action ι → Prop
  | .client c action inputs => ∀ client ∈ w.actor address c action,
      ∀ id ∈ action.drawnIds inputs client, id ∉ w.clientIds ∧ id ∉ w.serverIds
  | .server fuel event => (w.server.drawnIds std fuel event).Nodup ∧
      ∀ id ∈ w.server.drawnIds std fuel event, id ∉ w.clientIds ∧ id ∉ w.serverIds

end

/-- The server is started, and there are no clients yet. -/
def init (random : RandomPool) (bucket : TraversalHostId → Nat) : World ι where
  server := ⟨[], ⟨[], bucket, .nil⟩, random⟩
  clients _ := none
  toServer := []
  toClients := []
  clientIds := []
  serverIds := []
  connects := []
  registrations := []
  accepted := []
  answers := []
  acked := []

end World

end DolphinCore.Traversal
