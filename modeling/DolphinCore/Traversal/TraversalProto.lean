import DolphinCore.Lib.Endian

/-!
# DolphinCore.Traversal.TraversalProto

The packets between the traversal server and its clients, and the addresses in
them.
-/

namespace DolphinCore.Traversal

abbrev NETPLAY_CODE_SIZE : Nat := 8

abbrev TraversalHostId := Vector (BitVec 8) NETPLAY_CODE_SIZE

abbrev TraversalRequestId := BitVec 64

abbrev TraversalProtoVersion : BitVec 8 := 0

inductive TraversalConnectFailedReason where
  | ClientDidntRespond
  | ClientFailure
  | NoSuchClient
deriving DecidableEq

structure TraversalInetAddress where
  isIPV6 : Bool
  address : Vector (BitVec 32) 4
  port : BitVec 16
deriving DecidableEq

/-- A packet by its type; other types than these have no meaning. -/
inductive TraversalPacketData where
  | Ack (ok : BitVec 8)
  | Ping (hostId : TraversalHostId)
  | HelloFromClient (protoVersion : BitVec 8)
  | HelloFromServer (ok : BitVec 8) (yourHostId : TraversalHostId)
      (yourAddress : TraversalInetAddress)
  | ConnectPlease (hostId : TraversalHostId)
  | PleaseSendPacket (address : TraversalInetAddress)
  | ConnectReady (requestId : TraversalRequestId) (address : TraversalInetAddress)
  | ConnectFailed (requestId : TraversalRequestId) (reason : TraversalConnectFailedReason)
  | unknown (type : BitVec 8)
deriving DecidableEq

structure TraversalPacket where
  requestId : TraversalRequestId
  data : TraversalPacketData
deriving DecidableEq

/-! ## addresses -/

/-- `sockaddr_in6`, of the one family that the socket has; the port and the words of the address
are as they lie in memory. -/
structure SockAddrIn6 where
  sin6_port : BitVec 16
  sin6_addr : Vector (BitVec 32) 4
deriving DecidableEq

def MakeInetAddress (addr : SockAddrIn6) : TraversalInetAddress :=
  let words := addr.sin6_addr
  if words[0] = 0 ∧ words[1] = 0 ∧ words[2] = 0xffff0000 then
    ⟨false, #v[words[3], 0, 0, 0], addr.sin6_port⟩
  else ⟨true, words, addr.sin6_port⟩

def MakeSinAddr (addr : TraversalInetAddress) : SockAddrIn6 :=
  if addr.isIPV6 then ⟨addr.port, addr.address⟩
  else ⟨addr.port, #v[0, 0, 0xffff0000, addr.address[0]]⟩

@[simp] theorem MakeSinAddr_MakeInetAddress (addr : SockAddrIn6) :
    MakeSinAddr (MakeInetAddress addr) = addr := by
  obtain ⟨port, words⟩ := addr
  unfold MakeInetAddress MakeSinAddr
  dsimp only
  split
  · next h =>
    obtain ⟨h0, h1, h2⟩ := h
    have hwords : words = (#v[0, 0, 0xffff0000, words[3]] : Vector (BitVec 32) 4) := by
      refine Vector.ext fun i hi => ?_
      match i, hi with
      | 0, _ => exact h0
      | 1, _ => exact h1
      | 2, _ => exact h2
      | 3, _ => rfl
    exact congrArg (SockAddrIn6.mk port) hwords.symm
  · rfl

end DolphinCore.Traversal
