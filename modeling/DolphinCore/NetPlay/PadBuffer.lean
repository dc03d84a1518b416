import DolphinCore.Lib.FinLiteral
import Mathlib.Data.BitVec
import Mathlib.Data.Fintype.Pi
import DolphinCore.Lib.Run

/-!
# DolphinCore.NetPlay.PadBuffer

Players and pad mappings of `NetPlayProto.h`, and the functions of `NetPlayClient.cpp` that read a
mapping: which slots of the game belong to the pads of a player.

Pad states between the clients of a game: `GetNetPads` of the owner of a pad buffers and sends them,
the server relays them to the other clients, and each client pops them from its own buffer.  The
channels are reliable and keep the order; everything else may happen in any order.
-/

namespace DolphinCore.NetPlay

/-- `u8` -/
abbrev PlayerId := BitVec 8

/-- `s8` -/
abbrev PadMapping := BitVec 8

/-- `u32` -/
abbrev FrameNum := BitVec 32

/-- `std::array<PadMapping, 4>` -/
abbrev PadMappingArray := Fin 4 → PadMapping

/-- The slot of nobody. -/
def nobody : PadMapping := -1

/-- `mapping == pid`, where both are promoted to `int`. -/
def isMappedTo (mapping : PadMapping) (pid : PlayerId) : Bool :=
  mapping.toInt == (pid.toNat : Int)

theorem isMappedTo_iff {mapping : PadMapping} {pid : PlayerId} :
    isMappedTo mapping pid = true ↔ mapping = pid ∧ pid.toNat < 128 := by
  rw [isMappedTo, beq_iff_eq, BitVec.toInt_eq_toNat_cond, BitVec.toNat_eq]
  split <;> omega

theorem isMappedTo_unique {mapping : PadMapping} {p q : PlayerId} (hp : isMappedTo mapping p = true)
    (hq : isMappedTo mapping q = true) : p = q :=
  (isMappedTo_iff.mp hp).1.symm.trans (isMappedTo_iff.mp hq).1

/-! ## the slots of a player

The functions read from a mapping only which slots are the player's own. -/

/-- The slots that are the player's. -/
def ownSlots (m_pad_map : PadMappingArray) (pid : PlayerId) : Fin 4 → Bool :=
  fun slot => isMappedTo (m_pad_map slot) pid

def isFirstInGamePad (m_pad_map : PadMappingArray) (ingame_pad : Fin 4) : Bool :=
  ((List.finRange 4).take ingame_pad).all fun slot => ¬ (m_pad_map slot).toInt > 0

def numLocalPads (own : Fin 4 → Bool) : Nat := (List.finRange 4).countP own

def inGamePadToLocalPad (own : Fin 4 → Bool) (ingame_pad : Fin 4) : Nat :=
  if own ingame_pad then ((List.finRange 4).take ingame_pad).countP own else 4

/-- The loop of `LocalPadToInGamePad` over the slots that are left. -/
def localPadLoop (own : Fin 4 → Bool) (local_pad : Int) : List (Fin 4) → Int → Nat
  | [], _ => 4
  | slot :: slots, local_pad_count =>
    let local_pad_count := if own slot then local_pad_count + 1 else local_pad_count
    if local_pad_count = local_pad then slot else localPadLoop own local_pad slots local_pad_count

def localPadToInGamePad (own : Fin 4 → Bool) (local_pad : Nat) : Nat :=
  localPadLoop own local_pad (List.finRange 4) (-1)

theorem localPadToInGamePad_spec (own : Fin 4 → Bool) {local_pad : Nat}
    (h : local_pad < numLocalPads own) :
    ∃ slot : Fin 4, localPadToInGamePad own local_pad = slot ∧ own slot = true ∧
      inGamePadToLocalPad own slot = local_pad := by
  have hall : ∀ own : Fin 4 → Bool, ∀ l : Fin 4, l < numLocalPads own →
      ∃ slot : Fin 4, localPadToInGamePad own l = slot ∧ own slot = true ∧
        inGamePadToLocalPad own slot = l := by
    decide
  have hle : numLocalPads own ≤ 4 := List.countP_le_length
  exact hall own ⟨local_pad, Nat.lt_of_lt_of_le h hle⟩ h

theorem inGamePadToLocalPad_spec : (own : Fin 4 → Bool) → (slot : Fin 4) → own slot = true →
    inGamePadToLocalPad own slot < numLocalPads own ∧
      localPadToInGamePad own (inGamePadToLocalPad own slot) = slot := by
  decide

end DolphinCore.NetPlay

namespace DolphinCore.NetPlay

structure GCPadStatus where
  button : BitVec 16
  stickX : BitVec 8
  stickY : BitVec 8
  substickX : BitVec 8
  substickY : BitVec 8
  triggerLeft : BitVec 8
  triggerRight : BitVec 8
  analogA : BitVec 8
  analogB : BitVec 8
  isConnected : Bool
  deriving DecidableEq, Repr

/-- What a client sends to the server. -/
inductive ClientMsg
  | startGame (current_game : BitVec 32)
  | padData (map : Fin 4) (pad : GCPadStatus)
  | stopGame

/-- What the server sends to a client. -/
inductive ServerMsg
  | startGame (current_game : BitVec 32)
  | padBuffer (size : BitVec 32)
  | padData (map : Fin 4) (pad : GCPadStatus)
  | stopGame

/-- A client.  `startEvents` counts the calls of `StartGame` that `OnMsgStartGame` has queued for
the GUI, `enabled` tells whether `netplay_client` is set, and `waiting` is the pad of a call of
`GetNetPads` that has not returned.  The last two fields are its history: the game it has last
started and what it has popped since. -/
structure ClientState where
  m_current_game : BitVec 32
  m_is_running : Bool
  m_target_buffer_size : BitVec 32
  m_pad_buffer : Fin 4 → List GCPadStatus
  startEvents : Nat
  enabled : Bool
  waiting : Option (Fin 4)
  game : Option (BitVec 32)
  popped : Fin 4 → List GCPadStatus

/-- The server, the clients and the messages on their way.  The last two fields are history: the
numbers of the games so far and what was relayed in the running one. -/
structure NetState where
  m_current_game : BitVec 32
  m_target_buffer_size : BitVec 32
  m_async_queue : List ServerMsg
  current_game : PlayerId → BitVec 32
  clients : PlayerId → ClientState
  up : PlayerId → List ClientMsg
  down : PlayerId → List ServerMsg
  games : List (BitVec 32)
  relayed : Fin 4 → List GCPadStatus

def ClientState.init : ClientState where
  m_current_game := 0
  m_is_running := false
  m_target_buffer_size := 20
  m_pad_buffer _ := []
  startEvents := 0
  enabled := false
  waiting := none
  game := none
  popped _ := []

/-- All players are connected, and no game has been started. -/
def NetState.init : NetState where
  m_current_game := 0
  m_target_buffer_size := 5
  m_async_queue := []
  current_game _ := 0
  clients _ := .init
  up _ := []
  down _ := []
  games := [0]
  relayed _ := []

inductive NetEvent
  /-- `StartGame` of the server at a time. -/
  | serverStartGame (time : BitVec 32)
  | adjustPadBufferSize (size : BitVec 32)
  /-- The NETPLAY thread sends the front of its queue. -/
  | flushQueue
  /-- The server handles the next message of a client. -/
  | serverReceive (pid : PlayerId)
  /-- A client handles the next message of the server. -/
  | deliver (pid : PlayerId)
  /-- The GUI of a client handles a queued `StartGame`. -/
  | startGame (pid : PlayerId)
  /-- `GetNetPads` is called; `status` is what the local pads show. -/
  | getNetPads (pid : PlayerId) (pad_nb : Fin 4) (status : Nat → GCPadStatus)
  /-- The call of `GetNetPads` that waits goes on. -/
  | popPad (pid : PlayerId)
  /-- `Stop` of a client. -/
  | stop (pid : PlayerId)

/-! ## the steps -/

section

variable (m_players : List PlayerId) (m_pad_map m_wiimote_map : PadMappingArray)

/-- A player that `SendToClients` sends to. -/
def isConnected (pid : PlayerId) : Bool := pid ∈ m_players ∧ pid ≠ 0

def sendToClients (down : PlayerId → List ServerMsg) (msg : ServerMsg) (skip_pid : PlayerId) :
    PlayerId → List ServerMsg :=
  fun pid => if isConnected m_players pid ∧ pid ≠ skip_pid then down pid ++ [msg] else down pid

def NetState.setClient (s : NetState) (pid : PlayerId) (c : ClientState) : NetState :=
  { s with clients := Function.update s.clients pid c }

/-- `SendAsync` of a client. -/
def NetState.sendUp (s : NetState) (pid : PlayerId) (msg : ClientMsg) : NetState :=
  { s with up := Function.update s.up pid (s.up pid ++ [msg]) }

/-- The push of a pad state into the own buffer, and `SendPadState`. -/
def NetState.push (s : NetState) (pid : PlayerId) (slot : Fin 4) (pad : GCPadStatus) : NetState :=
  let c := s.clients pid
  (s.setClient pid
    { c with m_pad_buffer := Function.update c.m_pad_buffer slot (c.m_pad_buffer slot ++ [pad]) })
    |>.sendUp pid (.padData slot pad)

/-- The pushes while the buffer is not larger than its target. -/
def NetState.pushWhile (s : NetState) (pid : PlayerId) (slot : Fin 4) (pad : GCPadStatus) : NetState :=
  let c := s.clients pid
  (fun s => s.push pid slot pad)^[c.m_target_buffer_size.toNat + 1 - (c.m_pad_buffer slot).length] s

/-- The part of `GetNetPads` for one local pad. -/
def NetState.pollLocalPad (s : NetState) (pid : PlayerId) (status : Nat → GCPadStatus)
    (local_pad : Nat) : NetState :=
  let ingame_pad := localPadToInGamePad (ownSlots m_pad_map pid) local_pad
  if h : ingame_pad < 4 then s.pushWhile pid ⟨ingame_pad, h⟩ (status local_pad) else s

/-- `GetNetPads` up to its wait. -/
def NetState.getNetPads (s : NetState) (pid : PlayerId) (pad_nb : Fin 4)
    (status : Nat → GCPadStatus) : NetState :=
  let polled :=
    if isFirstInGamePad m_pad_map pad_nb then
      (List.range (numLocalPads (ownSlots m_pad_map pid))).foldl
        (fun s local_pad => s.pollLocalPad m_pad_map pid status local_pad) s
    else s
  polled.setClient pid { polled.clients pid with waiting := some pad_nb }

/-- `GetNetPads` after its wait: it pops a state, or returns when the game is not running. -/
def NetState.popPad (s : NetState) (pid : PlayerId) : Option NetState :=
  let c := s.clients pid
  c.waiting.bind fun pad_nb =>
    match c.m_pad_buffer pad_nb with
    | [] => if c.m_is_running then none else some (s.setClient pid { c with waiting := none })
    | pad :: rest =>
      some (s.setClient pid
        { c with
          m_pad_buffer := Function.update c.m_pad_buffer pad_nb rest
          waiting := none
          popped := Function.update c.popped pad_nb (c.popped pad_nb ++ [pad]) })

/-- `StartGame` of a client: the packet is sent in any case, and a game that is running goes on. -/
def NetState.startGame (s : NetState) (pid : PlayerId) : NetState :=
  let c := s.clients pid
  let sent := s.sendUp pid (.startGame c.m_current_game)
  if c.m_is_running then sent.setClient pid { c with startEvents := c.startEvents - 1 }
  else
    sent.setClient pid
      { c with
        startEvents := c.startEvents - 1
        m_is_running := true
        enabled := true
        m_pad_buffer := fun _ => []
        game := some c.m_current_game
        popped := fun _ => [] }

/-- `LocalPlayerHasControllerMapped` -/
def hasControllerMapped (pid : PlayerId) : Bool :=
  (List.finRange 4).any fun slot =>
    isMappedTo (m_pad_map slot) pid || isMappedTo (m_wiimote_map slot) pid

/-- `OnData` of a client. -/
def ClientState.onData (c : ClientState) : ServerMsg → ClientState
  | .startGame current_game =>
    { c with m_current_game := current_game, startEvents := c.startEvents + 1 }
  | .padBuffer size => { c with m_target_buffer_size := size }
  | .padData map pad =>
    { c with m_pad_buffer := Function.update c.m_pad_buffer map (c.m_pad_buffer map ++ [pad]) }
  | .stopGame => { c with m_is_running := false, enabled := false }

/-- `OnData` of the server for a message of a player, which disconnects the player that sends
another's pad. -/
def NetState.onData (s : NetState) (pid : PlayerId) : ClientMsg → Option NetState
  | .startGame current_game =>
    some { s with current_game := Function.update s.current_game pid current_game }
  | .padData map pad =>
    if s.current_game pid ≠ s.m_current_game then some s
    else if ¬ isMappedTo (m_pad_map map) pid then none
    else
      some { s with
        down := sendToClients m_players s.down (.padData map pad) pid
        relayed := Function.update s.relayed map (s.relayed map ++ [pad]) }
  | .stopGame => some { s with down := sendToClients m_players s.down .stopGame 0 }

def netStep (s : NetState) : NetEvent → Option NetState
  | .serverStartGame time =>
    some { s with
      m_current_game := time
      m_async_queue := s.m_async_queue ++ [.padBuffer s.m_target_buffer_size, .startGame time]
      games := time :: s.games
      relayed := fun _ => [] }
  | .adjustPadBufferSize size =>
    some { s with
      m_target_buffer_size := size
      m_async_queue := s.m_async_queue ++ [.padBuffer size] }
  | .flushQueue =>
    s.m_async_queue.head?.map fun msg =>
      { s with
        m_async_queue := s.m_async_queue.tail
        down := sendToClients m_players s.down msg 0 }
  | .serverReceive pid =>
    if isConnected m_players pid then
      (s.up pid).head?.bind fun msg =>
        NetState.onData m_players m_pad_map
          { s with up := Function.update s.up pid (s.up pid).tail } pid msg
    else none
  | .deliver pid =>
    if isConnected m_players pid then
      (s.down pid).head?.map fun msg =>
        { s with
          down := Function.update s.down pid (s.down pid).tail
          clients := Function.update s.clients pid ((s.clients pid).onData msg) }
    else none
  | .startGame pid =>
    if isConnected m_players pid ∧ 0 < (s.clients pid).startEvents then some (s.startGame pid)
    else none
  | .getNetPads pid pad_nb status =>
    if isConnected m_players pid ∧ (s.clients pid).enabled ∧ (s.clients pid).waiting = none then
      some (s.getNetPads m_pad_map pid pad_nb status)
    else none
  | .popPad pid => if isConnected m_players pid then s.popPad pid else none
  | .stop pid =>
    if isConnected m_players pid ∧ (s.clients pid).m_is_running then
      let stopped := s.setClient pid { s.clients pid with m_is_running := false }
      some (if hasControllerMapped m_pad_map m_wiimote_map pid then stopped.sendUp pid .stopGame
        else stopped)
    else none

end

/-! ## agreement -/

/-- In the running game, what two clients have popped for a pad are the beginnings of one
sequence. -/
def Agree (m_players : List PlayerId) (s : NetState) : Prop :=
  ∀ p q, isConnected m_players p = true → isConnected m_players q = true →
    (s.clients p).game = some s.m_current_game → (s.clients q).game = some s.m_current_game →
    ∀ slot, (s.clients p).popped slot <+: (s.clients q).popped slot ∨
      (s.clients q).popped slot <+: (s.clients p).popped slot

/-- A message that a client may handle while a `StartGame` is queued. -/
def ServerMsg.Idle : ServerMsg → Prop
  | .startGame _ => False
  | .padData _ _ => False
  | _ => True

/-- The clock never shows a time again at which a game was started, and no pad state of a game
reaches a client before its `StartGame`. -/
def StartsInTime (s : NetState) : NetEvent → Prop
  | .serverStartGame time => time ∉ s.games
  | .deliver pid => (s.clients pid).startEvents = 0 ∨ ∀ msg ∈ (s.down pid).head?, msg.Idle
  | _ => True

instance : DecidablePred ServerMsg.Idle
  | .startGame _ => inferInstanceAs (Decidable False)
  | .padBuffer _ => inferInstanceAs (Decidable True)
  | .padData _ _ => inferInstanceAs (Decidable False)
  | .stopGame => inferInstanceAs (Decidable True)

instance (s : NetState) : (e : NetEvent) → Decidable (StartsInTime s e)
  | .serverStartGame time => inferInstanceAs (Decidable (time ∉ s.games))
  | .deliver pid => inferInstanceAs
      (Decidable ((s.clients pid).startEvents = 0 ∨ ∀ msg ∈ (s.down pid).head?, msg.Idle))
  | .adjustPadBufferSize _ => inferInstanceAs (Decidable True)
  | .flushQueue => inferInstanceAs (Decidable True)
  | .serverReceive _ => inferInstanceAs (Decidable True)
  | .startGame _ => inferInstanceAs (Decidable True)
  | .getNetPads _ _ _ => inferInstanceAs (Decidable True)
  | .popPad _ => inferInstanceAs (Decidable True)
  | .stop _ => inferInstanceAs (Decidable True)

end DolphinCore.NetPlay
