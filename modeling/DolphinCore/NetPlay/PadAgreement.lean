import DolphinCore.NetPlay.PadBuffer

/-!
# DolphinCore.NetPlay.PadAgreement

What two clients pop for a pad agrees: each client is told where it stands to the running game by
the messages that are on their way to it and from it, and one step keeps what these tell.
-/

namespace DolphinCore.NetPlay

/-! ## messages to a client -/

/-- The games of the starts in a stream. -/
def starts : List ServerMsg → List (BitVec 32)
  | [] => []
  | .startGame h :: ms => h :: starts ms
  | _ :: ms => starts ms

/-- The states of a pad that a client has after a stream, if it drops what it has at each start. -/
def gather (slot : Fin 4) : List GCPadStatus → List ServerMsg → List GCPadStatus
  | acc, [] => acc
  | _, .startGame _ :: ms => gather slot [] ms
  | acc, .padData map pad :: ms => gather slot (if map = slot then acc ++ [pad] else acc) ms
  | acc, _ :: ms => gather slot acc ms

theorem starts_append : (a b : List ServerMsg) → starts (a ++ b) = starts a ++ starts b
  | [], _ => rfl
  | .startGame h :: a, b => congrArg (h :: ·) (starts_append a b)
  | .padBuffer _ :: a, b => starts_append a b
  | .padData _ _ :: a, b => starts_append a b
  | .stopGame :: a, b => starts_append a b

theorem gather_append (slot : Fin 4) : (acc : List GCPadStatus) → (a b : List ServerMsg) →
    gather slot acc (a ++ b) = gather slot (gather slot acc a) b
  | _, [], _ => rfl
  | _, .startGame _ :: a, b => gather_append slot [] a b
  | acc, .padBuffer _ :: a, b => gather_append slot acc a b
  | _, .padData _ _ :: a, b => gather_append slot _ a b
  | acc, .stopGame :: a, b => gather_append slot acc a b

theorem gather_of_starts (slot : Fin 4) : (acc acc' : List GCPadStatus) → (ms : List ServerMsg) →
    starts ms ≠ [] → gather slot acc ms = gather slot acc' ms
  | _, _, [], h => absurd rfl h
  | _, _, .startGame _ :: _, _ => rfl
  | acc, acc', .padBuffer _ :: ms, h => gather_of_starts slot acc acc' ms h
  | _, _, .padData _ _ :: ms, h => gather_of_starts slot _ _ ms h
  | acc, acc', .stopGame :: ms, h => gather_of_starts slot acc acc' ms h

theorem gather_of_no_starts (slot : Fin 4) : (acc : List GCPadStatus) → (ms : List ServerMsg) →
    starts ms = [] → gather slot acc ms = acc ++ gather slot [] ms
  | acc, [], _ => (List.append_nil acc).symm
  | _, .startGame _ :: _, h => by cases h
  | acc, .padBuffer _ :: ms, h => gather_of_no_starts slot acc ms h
  | acc, .padData map pad :: ms, h => by
    rw [gather, gather, gather_of_no_starts slot _ ms h]
    rw [gather_of_no_starts slot (if map = slot then [] ++ [pad] else []) ms h]
    split <;> simp
  | acc, .stopGame :: ms, h => gather_of_no_starts slot acc ms h

theorem gather_eq_nil (slot : Fin 4) : (ms : List ServerMsg) →
    (∀ pad, .padData slot pad ∉ ms) → gather slot [] ms = []
  | [], _ => rfl
  | .startGame _ :: ms, h => gather_eq_nil slot ms fun pad hm => h pad (List.mem_cons_of_mem _ hm)
  | .padBuffer _ :: ms, h => gather_eq_nil slot ms fun pad hm => h pad (List.mem_cons_of_mem _ hm)
  | .padData map pad :: ms, h => by
    have hne : map ≠ slot := fun heq => h pad (heq ▸ List.mem_cons_self ..)
    rw [gather, if_neg hne]
    exact gather_eq_nil slot ms fun pad hm => h pad (List.mem_cons_of_mem _ hm)
  | .stopGame :: ms, h => gather_eq_nil slot ms fun pad hm => h pad (List.mem_cons_of_mem _ hm)

/-- A message that is nothing to a client's game. -/
def ServerMsg.Neutral : ServerMsg → Prop
  | .padBuffer _ => True
  | .stopGame => True
  | _ => False

variable {msg : ServerMsg} {slot : Fin 4}

theorem ServerMsg.Neutral.insert (h : msg.Neutral) (a b : List ServerMsg) :
    starts (a ++ [msg] ++ b) = starts (a ++ b) ∧
      ∀ slot acc, gather slot acc (a ++ [msg] ++ b) = gather slot acc (a ++ b) := by
  cases msg with
  | startGame _ => exact h.elim
  | padData _ _ => exact h.elim
  | padBuffer size =>
    refine ⟨by simp [starts_append, starts], fun slot acc => ?_⟩
    rw [List.append_assoc, gather_append, gather_append slot acc a b]
    rfl
  | stopGame =>
    refine ⟨by simp [starts_append, starts], fun slot acc => ?_⟩
    rw [List.append_assoc, gather_append, gather_append slot acc a b]
    rfl

theorem gather_insert_padData {b : List ServerMsg} (hstarts : starts b = [])
    (hpads : ∀ slot pad, .padData slot pad ∉ b) (a : List ServerMsg) (map slot : Fin 4)
    (pad : GCPadStatus) (acc : List GCPadStatus) :
    gather slot acc (a ++ [.padData map pad] ++ b) =
      if map = slot then gather slot acc (a ++ b) ++ [pad] else gather slot acc (a ++ b) := by
  have hb (acc' : List GCPadStatus) : gather slot acc' b = acc' := by
    rw [gather_of_no_starts slot acc' b hstarts, gather_eq_nil slot b (hpads slot), List.append_nil]
  rw [gather_append, gather_append, gather_append slot acc a b, hb, hb]
  rfl

/-! ## messages from a client -/

/-- The games that a client tells the server. -/
def upStarts : List ClientMsg → List (BitVec 32)
  | [] => []
  | .startGame h :: ms => h :: upStarts ms
  | _ :: ms => upStarts ms

/-- The game that the server has from a client after its messages. -/
def lastGame : BitVec 32 → List ClientMsg → BitVec 32
  | cur, [] => cur
  | _, .startGame h :: ms => lastGame h ms
  | cur, _ :: ms => lastGame cur ms

/-- The states of a pad that the server will take for those of a game. -/
def accepted (g : BitVec 32) (slot : Fin 4) : BitVec 32 → List ClientMsg → List GCPadStatus
  | _, [] => []
  | _, .startGame h :: ms => accepted g slot h ms
  | cur, .padData map pad :: ms =>
    (if cur = g ∧ map = slot then [pad] else []) ++ accepted g slot cur ms
  | cur, .stopGame :: ms => accepted g slot cur ms

theorem upStarts_append : (a b : List ClientMsg) → upStarts (a ++ b) = upStarts a ++ upStarts b
  | [], _ => rfl
  | .startGame h :: a, b => congrArg (h :: ·) (upStarts_append a b)
  | .padData _ _ :: a, b => upStarts_append a b
  | .stopGame :: a, b => upStarts_append a b

theorem lastGame_append : (cur : BitVec 32) → (a b : List ClientMsg) →
    lastGame cur (a ++ b) = lastGame (lastGame cur a) b
  | _, [], _ => rfl
  | _, .startGame h :: a, b => lastGame_append h a b
  | cur, .padData _ _ :: a, b => lastGame_append cur a b
  | cur, .stopGame :: a, b => lastGame_append cur a b

theorem accepted_append (g : BitVec 32) (slot : Fin 4) : (cur : BitVec 32) →
    (a b : List ClientMsg) →
    accepted g slot cur (a ++ b) = accepted g slot cur a ++ accepted g slot (lastGame cur a) b
  | _, [], _ => rfl
  | _, .startGame h :: a, b => accepted_append g slot h a b
  | cur, .padData map pad :: a, b => by
    rw [List.cons_append, accepted, accepted_append g slot cur a b, ← List.append_assoc]
    rfl
  | cur, .stopGame :: a, b => accepted_append g slot cur a b

theorem accepted_eq_nil {g : BitVec 32} (slot : Fin 4) : (cur : BitVec 32) →
    (ms : List ClientMsg) → cur ≠ g → g ∉ upStarts ms → accepted g slot cur ms = []
  | _, [], _, _ => rfl
  | _, .startGame h :: ms, _, hms => by
    rw [upStarts, List.mem_cons, not_or] at hms
    exact accepted_eq_nil slot h ms (Ne.symm hms.1) hms.2
  | cur, .padData map pad :: ms, hcur, hms => by
    rw [accepted, if_neg fun h => hcur h.1, List.nil_append]
    exact accepted_eq_nil slot cur ms hcur hms
  | cur, .stopGame :: ms, hcur, hms => accepted_eq_nil slot cur ms hcur hms

/-! ## where a client stands -/

section

variable (own : Fin 4 → Bool) (g : BitVec 32) (relayed : Fin 4 → List GCPadStatus)

/-- The games that a client has told of or plays. -/
def toldGames (c : ClientState) (cur : BitVec 32) (up : List ClientMsg) : List (BitVec 32) :=
  cur :: (c.game.toList ++ upStarts up)

/-- Where a client stands to the running game: its start is still on its way, or queued for the GUI;
the client plays it; or it has gone on with an older one. -/
inductive Phase (c : ClientState) (cur : BitVec 32) (up : List ClientMsg)
    (stream : List ServerMsg) : Prop
  | called (old : List (BitVec 32)) (hstarts : starts stream = old ++ [g]) (hold : g ∉ old)
      (hgame : c.m_current_game ≠ g) (htold : g ∉ toldGames c cur up)
      (hpads : ∀ slot, gather slot [] stream = relayed slot)
  | pending (hstarts : starts stream = []) (hgame : c.m_current_game = g)
      (hevents : c.startEvents = 1) (htold : g ∉ toldGames c cur up)
      (hpads : ∀ slot, gather slot [] stream = relayed slot)
  | playing (hstarts : starts stream = []) (hgame : c.game = some g)
      (hevents : c.startEvents = 0) (hlast : lastGame cur up = g)
      (hown : ∀ slot, own slot = true → c.popped slot ++ c.m_pad_buffer slot =
        relayed slot ++ accepted g slot cur up)
      (hother : ∀ slot, own slot = false →
        c.popped slot ++ gather slot (c.m_pad_buffer slot) stream = relayed slot)
  | declined (hstarts : starts stream = []) (hgame : c.game ≠ some g)
      (hevents : c.startEvents = 0)

/-- What is known of a client and its channels. -/
structure ClientInv (games : List (BitVec 32)) (c : ClientState) (cur : BitVec 32)
    (up : List ClientMsg) (stream : List ServerMsg) : Prop where
  sends : ∀ slot pad, .padData slot pad ∈ up → own slot = true
  gets : ∀ slot pad, .padData slot pad ∈ stream → own slot = false
  events : c.startEvents ≤ 1
  known : ∀ h ∈ c.m_current_game :: (toldGames c cur up ++ starts stream), h ∈ games
  phase : Phase own g relayed c cur up stream

end

/-! ## what keeps it -/

section

variable {own : Fin 4 → Bool} {g : BitVec 32} {relayed : Fin 4 → List GCPadStatus}
  {games : List (BitVec 32)} {c c' : ClientState} {cur : BitVec 32} {up : List ClientMsg}
  {stream stream' : List ServerMsg}

theorem ClientInv.congr (h : ClientInv own g relayed games c cur up stream)
    (hcurrent : c'.m_current_game = c.m_current_game) (hevents : c'.startEvents = c.startEvents)
    (hgame : c'.game = c.game) (hpopped : c'.popped = c.popped)
    (hbuffer : c'.m_pad_buffer = c.m_pad_buffer) :
    ClientInv own g relayed games c' cur up stream where
  sends := h.sends
  gets := h.gets
  events := hevents ▸ h.events
  known := by
    rw [toldGames, hcurrent, hgame]
    exact h.known
  phase := by
    cases h.phase with
    | called old hstarts hold hcur htold hpads =>
      exact .called old hstarts hold (hcurrent ▸ hcur) (by rwa [toldGames, hgame]) hpads
    | pending hstarts hcur hev htold hpads =>
      exact .pending hstarts (hcurrent ▸ hcur) (hevents ▸ hev) (by rwa [toldGames, hgame]) hpads
    | playing hstarts hg hev hlast hown hother =>
      exact .playing hstarts (hgame ▸ hg) (hevents ▸ hev) hlast (by rwa [hpopped, hbuffer])
        (by rwa [hpopped, hbuffer])
    | declined hstarts hg hev => exact .declined hstarts (hgame ▸ hg) (hevents ▸ hev)

theorem ClientInv.congr_stream (h : ClientInv own g relayed games c cur up stream)
    (hstarts : starts stream' = starts stream)
    (hgather : ∀ slot acc, gather slot acc stream' = gather slot acc stream)
    (hmem : ∀ slot pad, .padData slot pad ∈ stream' → .padData slot pad ∈ stream) :
    ClientInv own g relayed games c cur up stream' where
  sends := h.sends
  gets slot pad hm := h.gets slot pad (hmem slot pad hm)
  events := h.events
  known := hstarts ▸ h.known
  phase := by
    cases h.phase with
    | called old hs hold hcur htold hpads =>
      exact .called old (hstarts ▸ hs) hold hcur htold fun slot => (hgather slot []).trans (hpads slot)
    | pending hs hcur hev htold hpads =>
      exact .pending (hstarts ▸ hs) hcur hev htold fun slot => (hgather slot []).trans (hpads slot)
    | playing hs hg hev hlast hown hother =>
      refine .playing (hstarts ▸ hs) hg hev hlast hown fun slot hslot => ?_
      rw [hgather]
      exact hother slot hslot
    | declined hs hg hev => exact .declined (hstarts ▸ hs) hg hev

theorem ClientInv.insert_neutral {a b : List ServerMsg}
    (h : ClientInv own g relayed games c cur up (a ++ b)) (hmsg : msg.Neutral) :
    ClientInv own g relayed games c cur up (a ++ [msg] ++ b) := by
  refine h.congr_stream (hmsg.insert a b).1 (hmsg.insert a b).2 fun slot pad hm => ?_
  simp only [List.mem_append, List.mem_singleton] at hm ⊢
  rcases hm with (hm | rfl) | hm
  · exact .inl hm
  · exact hmsg.elim
  · exact .inr hm

theorem ClientInv.newGame {time : BitVec 32} (h : ClientInv own g relayed games c cur up stream)
    (htime : time ∉ games) (size : BitVec 32) :
    ClientInv own time (fun _ => []) (time :: games) c cur up
      (stream ++ [.padBuffer size, .startGame time]) where
  sends := h.sends
  gets slot pad hm := by
    refine h.gets slot pad ?_
    simpa using hm
  events := h.events
  known k hk := by
    have hstarts : starts (stream ++ [.padBuffer size, .startGame time]) = starts stream ++ [time] :=
      starts_append _ _
    rw [hstarts, ← List.append_assoc, ← List.cons_append, List.mem_append, List.mem_singleton] at hk
    rcases hk with hk | rfl
    · exact List.mem_cons_of_mem _ (h.known k hk)
    · exact List.mem_cons_self ..
  phase := by
    have hunknown (k : BitVec 32) (hk : k ∈ c.m_current_game :: (toldGames c cur up ++ starts stream)) :
        k ≠ time := fun heq => htime (heq ▸ h.known k hk)
    refine .called (starts stream) (starts_append _ _) (fun hm => ?_) ?_ (fun hm => ?_) fun slot => ?_
    · exact hunknown time (List.mem_cons_of_mem _ (List.mem_append_right _ hm)) rfl
    · exact hunknown _ (List.mem_cons_self ..)
    · exact hunknown time (List.mem_cons_of_mem _ (List.mem_append_left _ hm)) rfl
    · rw [gather_append]
      rfl

/-- A client handles a message. -/
theorem ClientInv.deliver (h : ClientInv own g relayed games c cur up (msg :: stream))
    (hintime : c.startEvents = 0 ∨ msg.Idle) :
    ClientInv own g relayed games (c.onData msg) cur up stream := by
  have hgets (slot : Fin 4) (pad : GCPadStatus) (hm : .padData slot pad ∈ stream) :
      own slot = false := h.gets slot pad (List.mem_cons_of_mem _ hm)
  cases msg with
  | startGame current_game =>
    have hevents := hintime.resolve_right id
    refine ⟨h.sends, hgets, by simp [ClientState.onData, hevents], fun k hk => ?_, ?_⟩
    · refine h.known k ?_
      simp only [ClientState.onData, starts, toldGames, List.mem_cons, List.mem_append] at hk ⊢
      tauto
    · cases h.phase with
      | called old hstarts hold hgame htold hpads =>
        cases old with
        | nil =>
          obtain ⟨rfl, htail⟩ := List.cons.inj hstarts
          refine .pending htail rfl ?_ htold fun slot => hpads slot
          rw [ClientState.onData, hevents]
        | cons k old =>
          obtain ⟨rfl, htail⟩ := List.cons.inj hstarts
          rw [List.mem_cons, not_or] at hold
          refine .called old htail hold.2 (Ne.symm hold.1) htold fun slot => hpads slot
      | pending hstarts => cases hstarts
      | playing hstarts => cases hstarts
      | declined hstarts => cases hstarts
  | padBuffer size =>
    have hsame : ClientInv own g relayed games c cur up stream :=
      h.congr_stream rfl (fun _ _ => rfl) fun slot pad hm => List.mem_cons_of_mem _ hm
    exact hsame.congr rfl rfl rfl rfl rfl
  | stopGame =>
    have hsame : ClientInv own g relayed games c cur up stream :=
      h.congr_stream rfl (fun _ _ => rfl) fun slot pad hm => List.mem_cons_of_mem _ hm
    exact hsame.congr rfl rfl rfl rfl rfl
  | padData map pad =>
    have hevents := hintime.resolve_right id
    refine ⟨h.sends, hgets, h.events, h.known, ?_⟩
    cases h.phase with
    | called old hstarts hold hgame htold hpads =>
      have hne : starts stream ≠ [] := by
        change starts stream = _ at hstarts
        simp [hstarts]
      refine .called old hstarts hold hgame htold fun slot => ?_
      rw [← hpads slot, gather]
      exact gather_of_starts slot _ _ stream hne
    | pending hstarts hgame hev => exact absurd (hevents.symm.trans hev) (Nat.zero_ne_one)
    | playing hstarts hgame hev hlast hown hother =>
      have hmap : own map = false := h.gets map pad (List.mem_cons_self ..)
      refine .playing hstarts hgame hev hlast (fun slot hslot => ?_) fun slot hslot => ?_
      · have hne : slot ≠ map := fun heq => by simp [heq, hmap] at hslot
        rw [← hown slot hslot]
        simp only [ClientState.onData, Function.update_of_ne hne]
      · rw [← hother slot hslot, gather]
        by_cases heq : map = slot
        · subst heq
          simp only [ClientState.onData, Function.update_self, if_true]
        · simp only [ClientState.onData, Function.update_of_ne (Ne.symm heq), if_neg heq]
    | declined hstarts hgame hev => exact .declined hstarts hgame hev

theorem ClientInv.startGame_running (h : ClientInv own g relayed games c cur up stream)
    (hevents : 0 < c.startEvents) :
    ClientInv own g relayed games { c with startEvents := c.startEvents - 1 } cur
      (up ++ [.startGame c.m_current_game]) stream := by
  have hone : c.startEvents - 1 = 0 := by
    have hle := h.events
    omega
  refine ⟨fun slot pad hm => h.sends slot pad (by simpa using hm), h.gets, ?_, fun k hk => ?_, ?_⟩
  · simp [hone]
  · refine h.known k ?_
    simp only [toldGames, upStarts_append, upStarts, List.mem_cons, List.mem_append,
      List.not_mem_nil, or_false] at hk ⊢
    tauto
  · cases h.phase with
    | called old hstarts hold hgame htold hpads =>
      refine .called old hstarts hold hgame ?_ hpads
      simp only [toldGames, upStarts_append, upStarts, List.mem_cons, List.mem_append,
        List.not_mem_nil, or_false] at htold ⊢
      tauto
    | pending hstarts hgame hev htold hpads =>
      refine .declined hstarts (fun hg => htold ?_) hone
      simp only [toldGames, List.mem_cons, List.mem_append, Option.mem_toList]
      exact .inr (.inl hg)
    | playing hstarts hgame hev => omega
    | declined hstarts hgame hev => omega

/-- `StartGame` of a client that is not running: it plays the game if it was queued for it. -/
theorem ClientInv.startGame (h : ClientInv own g relayed games c cur up stream)
    (hevents : 0 < c.startEvents) :
    ClientInv own g relayed games
      { c with
        startEvents := c.startEvents - 1
        m_is_running := true
        enabled := true
        m_pad_buffer := fun _ => []
        game := some c.m_current_game
        popped := fun _ => [] } cur
      (up ++ [.startGame c.m_current_game]) stream := by
  have hone : c.startEvents - 1 = 0 := by
    have hle := h.events
    omega
  refine ⟨fun slot pad hm => h.sends slot pad (by simpa using hm), h.gets, ?_, fun k hk => ?_, ?_⟩
  · simp [hone]
  · refine h.known k ?_
    simp only [toldGames, upStarts_append, upStarts, List.mem_cons, List.mem_append,
      Option.toList_some, List.not_mem_nil, or_false] at hk ⊢
    tauto
  · cases h.phase with
    | called old hstarts hold hgame htold hpads =>
      refine .called old hstarts hold hgame ?_ hpads
      simp only [toldGames, upStarts_append, upStarts, List.mem_cons, List.mem_append,
        Option.toList_some, List.not_mem_nil, or_false] at htold ⊢
      tauto
    | pending hstarts hgame hev htold hpads =>
      simp only [toldGames, List.mem_cons, List.mem_append, not_or] at htold
      have hnone (slot : Fin 4) : accepted g slot cur up = [] :=
        accepted_eq_nil slot cur up (Ne.symm htold.1) htold.2.2
      refine .playing hstarts (congrArg some hgame) hone ?_ (fun slot hslot => ?_) fun slot _ =>
        hpads slot
      · rw [lastGame_append]
        exact hgame
      · rw [accepted_append, hnone, ← hpads slot, gather_eq_nil slot stream fun pad hm => ?_]
        · rfl
        · exact absurd (h.gets slot pad hm) (by simp [hslot])
    | playing hstarts hgame hev => omega
    | declined hstarts hgame hev => omega

variable {pad : GCPadStatus}

theorem ClientInv.push (h : ClientInv own g relayed games c cur up stream)
    (hslot : own slot = true) :
    ClientInv own g relayed games
      { c with m_pad_buffer := Function.update c.m_pad_buffer slot (c.m_pad_buffer slot ++ [pad]) }
      cur (up ++ [.padData slot pad]) stream := by
  have hup : upStarts (up ++ [.padData slot pad]) = upStarts up := by
    simp [upStarts_append, upStarts]
  refine ⟨fun slot' pad' hm => ?_, h.gets, h.events, ?_, ?_⟩
  · rw [List.mem_append, List.mem_singleton] at hm
    rcases hm with hm | heq
    · exact h.sends slot' pad' hm
    · cases heq
      exact hslot
  · rw [toldGames, hup]
    exact h.known
  · cases h.phase with
    | called old hstarts hold hgame htold hpads =>
      exact .called old hstarts hold hgame (by rwa [toldGames, hup]) hpads
    | pending hstarts hgame hev htold hpads =>
      exact .pending hstarts hgame hev (by rwa [toldGames, hup]) hpads
    | playing hstarts hgame hev hlast hown hother =>
      refine .playing hstarts hgame hev ?_ (fun slot' hslot' => ?_) fun slot' hslot' => ?_
      · rw [lastGame_append]
        exact hlast
      · rw [accepted_append, hlast, ← List.append_assoc, ← hown slot' hslot', accepted, accepted]
        by_cases heq : slot = slot'
        · subst heq
          simp
        · simp [heq, Function.update_of_ne (Ne.symm heq)]
      · have hne : slot' ≠ slot := fun heq => by simp [heq, hslot] at hslot'
        simp only [Function.update_of_ne hne]
        exact hother slot' hslot'
    | declined hstarts hgame hev => exact .declined hstarts hgame hev

theorem ClientInv.pop {rest : List GCPadStatus} {waiting : Option (Fin 4)}
    (h : ClientInv own g relayed games c cur up stream)
    (hbuffer : c.m_pad_buffer slot = pad :: rest) :
    ClientInv own g relayed games
      { c with
        m_pad_buffer := Function.update c.m_pad_buffer slot rest
        waiting := waiting
        popped := Function.update c.popped slot (c.popped slot ++ [pad]) } cur up stream := by
  refine ⟨h.sends, h.gets, h.events, h.known, ?_⟩
  cases h.phase with
  | called old hstarts hold hgame htold hpads => exact .called old hstarts hold hgame htold hpads
  | pending hstarts hgame hev htold hpads => exact .pending hstarts hgame hev htold hpads
  | playing hstarts hgame hev hlast hown hother =>
    refine .playing hstarts hgame hev hlast (fun slot' hslot' => ?_) fun slot' hslot' => ?_
    · rw [← hown slot' hslot']
      by_cases heq : slot' = slot
      · subst heq
        simp [hbuffer]
      · simp [Function.update_of_ne heq]
    · rw [← hother slot' hslot']
      by_cases heq : slot' = slot
      · subst heq
        rw [gather_of_no_starts _ _ _ hstarts, gather_of_no_starts _ (c.m_pad_buffer slot') _ hstarts,
          hbuffer]
        simp
      · simp [Function.update_of_ne heq]
  | declined hstarts hgame hev => exact .declined hstarts hgame hev

theorem ClientInv.sendStop (h : ClientInv own g relayed games c cur up stream) :
    ClientInv own g relayed games c cur (up ++ [.stopGame]) stream := by
  have hup : upStarts (up ++ [.stopGame]) = upStarts up := by
    simp [upStarts_append, upStarts]
  refine ⟨fun slot pad hm => h.sends slot pad (by simpa using hm), h.gets, h.events, ?_, ?_⟩
  · rw [toldGames, hup]
    exact h.known
  · cases h.phase with
    | called old hstarts hold hgame htold hpads =>
      exact .called old hstarts hold hgame (by rwa [toldGames, hup]) hpads
    | pending hstarts hgame hev htold hpads =>
      exact .pending hstarts hgame hev (by rwa [toldGames, hup]) hpads
    | playing hstarts hgame hev hlast hown hother =>
      refine .playing hstarts hgame hev ?_ (fun slot hslot => ?_) hother
      · rw [lastGame_append]
        exact hlast
      · rw [accepted_append, hown slot hslot, accepted, accepted, List.append_nil]
    | declined hstarts hgame hev => exact .declined hstarts hgame hev

theorem ClientInv.receiveStart {h₀ : BitVec 32}
    (h : ClientInv own g relayed games c cur (.startGame h₀ :: up) stream) :
    ClientInv own g relayed games c h₀ up stream := by
  refine ⟨fun slot pad hm => h.sends slot pad (List.mem_cons_of_mem _ hm), h.gets, h.events,
    fun k hk => ?_, ?_⟩
  · refine h.known k ?_
    simp only [toldGames, upStarts, List.mem_cons, List.mem_append] at hk ⊢
    tauto
  · have htold' (htold : g ∉ toldGames c cur (.startGame h₀ :: up)) : g ∉ toldGames c h₀ up := by
      simp only [toldGames, upStarts, List.mem_cons, List.mem_append] at htold ⊢
      tauto
    cases h.phase with
    | called old hstarts hold hgame htold hpads =>
      exact .called old hstarts hold hgame (htold' htold) hpads
    | pending hstarts hgame hev htold hpads =>
      exact .pending hstarts hgame hev (htold' htold) hpads
    | playing hstarts hgame hev hlast hown hother =>
      exact .playing hstarts hgame hev hlast hown hother
    | declined hstarts hgame hev => exact .declined hstarts hgame hev

theorem ClientInv.receiveOther {msg : ClientMsg}
    (h : ClientInv own g relayed games c cur (msg :: up) stream)
    (hstart : upStarts (msg :: up) = upStarts up) (hlast : lastGame cur (msg :: up) = lastGame cur up)
    (haccepted : ∀ slot, accepted g slot cur (msg :: up) = accepted g slot cur up) :
    ClientInv own g relayed games c cur up stream := by
  refine ⟨fun slot pad hm => h.sends slot pad (List.mem_cons_of_mem _ hm), h.gets, h.events, ?_, ?_⟩
  · have hknown := h.known
    rwa [toldGames, hstart] at hknown
  · cases h.phase with
    | called old hstarts hold hgame htold hpads =>
      exact .called old hstarts hold hgame (by rwa [toldGames, hstart] at htold) hpads
    | pending hstarts hgame hev htold hpads =>
      exact .pending hstarts hgame hev (by rwa [toldGames, hstart] at htold) hpads
    | playing hstarts hgame hev hlast' hown hother =>
      exact .playing hstarts hgame hev (hlast ▸ hlast')
        (fun slot hslot => haccepted slot ▸ hown slot hslot) hother
    | declined hstarts hgame hev => exact .declined hstarts hgame hev

theorem ClientInv.starts_eq_nil (h : ClientInv own g relayed games c cur up stream)
    (hcur : cur = g) : starts stream = [] := by
  cases h.phase with
  | called old hstarts hold hgame htold => exact absurd (hcur ▸ List.mem_cons_self ..) htold
  | pending hstarts => exact hstarts
  | playing hstarts => exact hstarts
  | declined hstarts => exact hstarts

theorem ClientInv.relayOwn {map : Fin 4}
    (h : ClientInv own g relayed games c cur (.padData map pad :: up) stream) (hcur : cur = g) :
    ClientInv own g (Function.update relayed map (relayed map ++ [pad])) games c cur up stream := by
  have hmap : own map = true := h.sends map pad (List.mem_cons_self ..)
  refine ⟨fun slot pad hm => h.sends slot pad (List.mem_cons_of_mem _ hm), h.gets, h.events,
    h.known, ?_⟩
  cases h.phase with
  | called old hstarts hold hgame htold => exact absurd (hcur ▸ List.mem_cons_self ..) htold
  | pending hstarts hgame hev htold => exact absurd (hcur ▸ List.mem_cons_self ..) htold
  | playing hstarts hgame hev hlast hown hother =>
    refine .playing hstarts hgame hev hlast (fun slot hslot => ?_) fun slot hslot => ?_
    · rw [hown slot hslot, accepted]
      by_cases heq : map = slot
      · subst heq
        simp [hcur]
      · simp [heq, Function.update_of_ne (Ne.symm heq)]
    · have hne : slot ≠ map := fun heq => by simp [heq, hmap] at hslot
      rw [Function.update_of_ne hne]
      exact hother slot hslot
  | declined hstarts hgame hev => exact .declined hstarts hgame hev

theorem ClientInv.relayOther {down queue : List ServerMsg} {map : Fin 4}
    (h : ClientInv own g relayed games c cur up (down ++ queue)) (hmap : own map = false)
    (hstarts : starts queue = []) (hqueue : ∀ slot pad, .padData slot pad ∉ queue) :
    ClientInv own g (Function.update relayed map (relayed map ++ [pad])) games c cur up
      (down ++ [.padData map pad] ++ queue) := by
  have hsame : starts (down ++ [.padData map pad] ++ queue) = starts (down ++ queue) := by
    simp [starts_append, starts]
  have hgather (slot : Fin 4) (acc : List GCPadStatus)
      (heq : gather slot acc (down ++ queue) = relayed slot) :
      gather slot acc (down ++ [.padData map pad] ++ queue) =
        Function.update relayed map (relayed map ++ [pad]) slot := by
    rw [gather_insert_padData hstarts hqueue, heq]
    by_cases hslot : map = slot
    · subst hslot
      rw [if_pos rfl, Function.update_self]
    · rw [if_neg hslot, Function.update_of_ne (Ne.symm hslot)]
  refine ⟨h.sends, fun slot pad' hm => ?_, h.events, hsame ▸ h.known, ?_⟩
  · simp only [List.mem_append, List.mem_singleton] at hm
    rcases hm with (hm | heq) | hm
    · exact h.gets slot pad' (List.mem_append_left _ hm)
    · cases heq
      exact hmap
    · exact absurd hm (hqueue slot pad')
  · cases h.phase with
    | called old hs hold hgame htold hpads =>
      exact .called old (hsame.trans hs) hold hgame htold fun slot => hgather slot [] (hpads slot)
    | pending hs hgame hev htold hpads =>
      exact .pending (hsame.trans hs) hgame hev htold fun slot => hgather slot [] (hpads slot)
    | playing hs hgame hev hlast hown hother =>
      refine .playing (hsame.trans hs) hgame hev hlast (fun slot hslot => ?_) fun slot hslot => ?_
      · have hne : slot ≠ map := fun heq => by simp [heq, hmap] at hslot
        rw [Function.update_of_ne hne]
        exact hown slot hslot
      · have hnew := hother slot hslot
        rw [gather_insert_padData hstarts hqueue]
        by_cases heq : map = slot
        · subst heq
          rw [if_pos rfl, Function.update_self, ← List.append_assoc, hnew]
        · rw [if_neg heq, Function.update_of_ne (Ne.symm heq), hnew]
    | declined hs hgame hev => exact .declined (hsame.trans hs) hgame hev

end

/-! ## the whole net -/

section

variable (m_players : List PlayerId) (m_pad_map m_wiimote_map : PadMappingArray)

/-- What holds between the steps. -/
structure NetInv (s : NetState) : Prop where
  queue : ∀ slot pad, .padData slot pad ∉ s.m_async_queue
  clients : ∀ pid, isConnected m_players pid = true →
    ClientInv (ownSlots m_pad_map pid) s.m_current_game s.relayed s.games (s.clients pid)
      (s.current_game pid) (s.up pid) (s.down pid ++ s.m_async_queue)

variable {m_players m_pad_map m_wiimote_map} {s t : NetState} {pid : PlayerId}

theorem NetInv.init : NetInv m_players m_pad_map .init where
  queue _ _ := List.not_mem_nil
  clients pid _ := by
    refine ⟨fun _ _ hm => absurd hm List.not_mem_nil, fun _ _ hm => absurd hm List.not_mem_nil,
      Nat.zero_le 1, ?_, .declined rfl nofun rfl⟩
    simp [NetState.init, ClientState.init, toldGames, upStarts, starts]

theorem NetInv.setClient (h : NetInv m_players m_pad_map s) {c : ClientState} {up : List ClientMsg}
    (hnew : isConnected m_players pid = true → ClientInv (ownSlots m_pad_map pid) s.m_current_game
      s.relayed s.games c (s.current_game pid) up (s.down pid ++ s.m_async_queue)) :
    NetInv m_players m_pad_map { s with
      clients := Function.update s.clients pid c
      up := Function.update s.up pid up } where
  queue := h.queue
  clients q hq := by
    by_cases heq : q = pid
    · subst heq
      simp only [Function.update_self]
      exact hnew hq
    · simp only [Function.update_of_ne heq]
      exact h.clients q hq

theorem NetInv.setClient_only (h : NetInv m_players m_pad_map s) {c : ClientState}
    (hnew : isConnected m_players pid = true → ClientInv (ownSlots m_pad_map pid) s.m_current_game
      s.relayed s.games c (s.current_game pid) (s.up pid) (s.down pid ++ s.m_async_queue)) :
    NetInv m_players m_pad_map (s.setClient pid c) := by
  have hset := h.setClient hnew
  rwa [Function.update_eq_self] at hset

theorem NetInv.sendNeutral (h : NetInv m_players m_pad_map s) (hmsg : msg.Neutral) :
    NetInv m_players m_pad_map { s with down := sendToClients m_players s.down msg 0 } where
  queue := h.queue
  clients q hq := by
    simp only [sendToClients]
    split
    · exact (h.clients q hq).insert_neutral hmsg
    · exact h.clients q hq

theorem NetInv.push (h : NetInv m_players m_pad_map s) (hslot : ownSlots m_pad_map pid slot = true)
    (pad : GCPadStatus) :
    NetInv m_players m_pad_map (s.push pid slot pad) :=
  h.setClient fun hpid => (h.clients pid hpid).push hslot

theorem NetInv.iterate_push (hslot : ownSlots m_pad_map pid slot = true) (pad : GCPadStatus) :
    (n : Nat) → {s : NetState} → NetInv m_players m_pad_map s →
    NetInv m_players m_pad_map ((fun s => s.push pid slot pad)^[n] s)
  | 0, _, h => h
  | n + 1, _, h => iterate_push hslot pad n (h.push hslot pad)

theorem NetInv.pollLocalPad (h : NetInv m_players m_pad_map s) (status : Nat → GCPadStatus)
    {local_pad : Nat} (hlt : local_pad < numLocalPads (ownSlots m_pad_map pid)) :
    NetInv m_players m_pad_map (s.pollLocalPad m_pad_map pid status local_pad) := by
  obtain ⟨slot, hto, hown, _⟩ := localPadToInGamePad_spec _ hlt
  rw [NetState.pollLocalPad]
  simp only [hto, slot.isLt, dite_true]
  exact iterate_push hown _ _ h

theorem NetInv.poll (status : Nat → GCPadStatus) : (pads : List Nat) → {s : NetState} →
    (∀ local_pad ∈ pads, local_pad < numLocalPads (ownSlots m_pad_map pid)) →
    NetInv m_players m_pad_map s → NetInv m_players m_pad_map
      (pads.foldl (fun s local_pad => s.pollLocalPad m_pad_map pid status local_pad) s)
  | [], _, _, h => h
  | local_pad :: pads, _, hpads, h =>
    poll status pads (fun l hl => hpads l (List.mem_cons_of_mem _ hl))
      (h.pollLocalPad status (hpads local_pad (List.mem_cons_self ..)))

theorem NetInv.getNetPads (h : NetInv m_players m_pad_map s) (pad_nb : Fin 4)
    (status : Nat → GCPadStatus) :
    NetInv m_players m_pad_map (s.getNetPads m_pad_map pid pad_nb status) := by
  have hpolled : NetInv m_players m_pad_map
      (if isFirstInGamePad m_pad_map pad_nb then
        (List.range (numLocalPads (ownSlots m_pad_map pid))).foldl
          (fun s local_pad => s.pollLocalPad m_pad_map pid status local_pad) s
      else s) := by
    split
    · exact poll status _ (fun l hl => List.mem_range.mp hl) h
    · exact h
  exact hpolled.setClient_only fun hpid => (hpolled.clients pid hpid).congr rfl rfl rfl rfl rfl

theorem NetInv.popPad (h : NetInv m_players m_pad_map s) (hstep : s.popPad pid = some t) :
    NetInv m_players m_pad_map t := by
  rw [NetState.popPad, Option.bind_eq_some_iff] at hstep
  obtain ⟨pad_nb, _, hstep⟩ := hstep
  split at hstep
  · split at hstep
    · cases hstep
    · cases hstep
      exact h.setClient_only fun hpid => (h.clients pid hpid).congr rfl rfl rfl rfl rfl
  · next pad rest hbuffer =>
    cases hstep
    exact h.setClient_only fun hpid => (h.clients pid hpid).pop hbuffer

theorem NetInv.startGame (h : NetInv m_players m_pad_map s)
    (hevents : 0 < (s.clients pid).startEvents) :
    NetInv m_players m_pad_map (s.startGame pid) := by
  rw [NetState.startGame]
  split
  · exact h.setClient fun hpid => (h.clients pid hpid).startGame_running hevents
  · exact h.setClient fun hpid => (h.clients pid hpid).startGame hevents

theorem NetInv.stop (h : NetInv m_players m_pad_map s) : NetInv m_players m_pad_map
      (if hasControllerMapped m_pad_map m_wiimote_map pid then
        (s.setClient pid { s.clients pid with m_is_running := false }).sendUp pid .stopGame
      else s.setClient pid { s.clients pid with m_is_running := false }) := by
  split
  · exact h.setClient fun hpid => ((h.clients pid hpid).sendStop).congr rfl rfl rfl rfl rfl
  · exact h.setClient_only fun hpid => (h.clients pid hpid).congr rfl rfl rfl rfl rfl

theorem NetInv.deliver {rest : List ServerMsg} (h : NetInv m_players m_pad_map s)
    (hdown : s.down pid = msg :: rest) (hintime : (s.clients pid).startEvents = 0 ∨ msg.Idle) :
    NetInv m_players m_pad_map { s with
      down := Function.update s.down pid rest
      clients := Function.update s.clients pid ((s.clients pid).onData msg) } where
  queue := h.queue
  clients q hq := by
    by_cases heq : q = pid
    · subst heq
      have hclient := h.clients q hq
      rw [hdown, List.cons_append] at hclient
      simp only [Function.update_self]
      exact hclient.deliver hintime
    · simp only [Function.update_of_ne heq]
      exact h.clients q hq

/-- The server handles the next message of a client. -/
theorem NetInv.receive {msg : ClientMsg} {rest : List ClientMsg} (h : NetInv m_players m_pad_map s)
    (hpid : isConnected m_players pid = true) (hup : s.up pid = msg :: rest)
    (hstep : NetState.onData m_players m_pad_map { s with up := Function.update s.up pid rest } pid msg =
      some t) : NetInv m_players m_pad_map t := by
  have hclient := h.clients pid hpid
  rw [hup] at hclient
  have hset {cur : BitVec 32}
      (hnew : ClientInv (ownSlots m_pad_map pid) s.m_current_game s.relayed s.games (s.clients pid)
        cur rest (s.down pid ++ s.m_async_queue)) :
      NetInv m_players m_pad_map { s with
        up := Function.update s.up pid rest
        current_game := Function.update s.current_game pid cur } := by
    refine ⟨h.queue, fun q hq => ?_⟩
    by_cases heq : q = pid
    · subst heq
      simp only [Function.update_self]
      exact hnew
    · simp only [Function.update_of_ne heq]
      exact h.clients q hq
  have hkeep (hnew : ClientInv (ownSlots m_pad_map pid) s.m_current_game s.relayed s.games
      (s.clients pid) (s.current_game pid) rest (s.down pid ++ s.m_async_queue)) :
      NetInv m_players m_pad_map { s with up := Function.update s.up pid rest } := by
    have hset := hset hnew
    rwa [Function.update_eq_self] at hset
  cases msg with
  | startGame current_game =>
    cases hstep
    exact hset hclient.receiveStart
  | stopGame =>
    cases hstep
    exact (hkeep (hclient.receiveOther rfl rfl fun _ => rfl)).sendNeutral trivial
  | padData map pad =>
    rw [NetState.onData] at hstep
    by_cases hgame : s.current_game pid = s.m_current_game
    · have hmapped : isMappedTo (m_pad_map map) pid = true :=
        hclient.sends map pad (List.mem_cons_self ..)
      simp only [hgame, ne_eq, not_true_eq_false, if_false, hmapped] at hstep
      cases hstep
      have hstarts := hclient.starts_eq_nil hgame
      rw [starts_append, List.append_eq_nil_iff] at hstarts
      refine ⟨h.queue, fun q hq => ?_⟩
      by_cases heq : q = pid
      · subst heq
        simp only [Function.update_self, sendToClients, ne_eq, not_true_eq_false, and_false, if_false]
        exact hclient.relayOwn hgame
      · have hother : ownSlots m_pad_map q map = false := by
          rw [Bool.eq_false_iff]
          exact fun hq' => heq (isMappedTo_unique hq' hmapped)
        simp only [Function.update_of_ne heq, sendToClients, hq, ne_eq, heq, not_false_eq_true,
          and_self, if_true]
        exact (h.clients q hq).relayOther hother hstarts.2 h.queue
    · simp only [ne_eq, hgame, not_false_eq_true, if_true] at hstep
      cases hstep
      refine hkeep (hclient.receiveOther rfl rfl fun slot => ?_)
      rw [accepted, if_neg fun hand => hgame hand.1, List.nil_append]

theorem NetInv.flushQueue {rest : List ServerMsg} (h : NetInv m_players m_pad_map s)
    (hqueue : s.m_async_queue = msg :: rest) :
    NetInv m_players m_pad_map { s with
      m_async_queue := rest
      down := sendToClients m_players s.down msg 0 } where
  queue slot pad hm := h.queue slot pad (hqueue ▸ List.mem_cons_of_mem _ hm)
  clients q hq := by
    have hclient := h.clients q hq
    have hne : q ≠ 0 := (of_decide_eq_true hq).2
    rw [hqueue, ← List.singleton_append, ← List.append_assoc] at hclient
    simp only [sendToClients, hq, ne_eq, hne, not_false_eq_true, and_self, if_true]
    exact hclient

/-- **One step.** -/
theorem NetInv.step {e : NetEvent} (h : NetInv m_players m_pad_map s) (hintime : StartsInTime s e)
    (hstep : netStep m_players m_pad_map m_wiimote_map s e = some t) :
    NetInv m_players m_pad_map t := by
  cases e with
  | serverStartGame time =>
    cases hstep
    refine ⟨fun slot pad hm => h.queue slot pad (by simpa using hm), fun q hq => ?_⟩
    have hclient := (h.clients q hq).newGame hintime s.m_target_buffer_size
    rwa [List.append_assoc] at hclient
  | adjustPadBufferSize size =>
    cases hstep
    refine ⟨fun slot pad hm => h.queue slot pad (by simpa using hm), fun q hq => ?_⟩
    have hclient := h.clients q hq
    rw [← List.append_nil (s.down q ++ _)] at hclient
    have hnew := hclient.insert_neutral (show ServerMsg.Neutral (.padBuffer size) from trivial)
    rwa [List.append_nil, List.append_assoc] at hnew
  | flushQueue =>
    simp only [netStep, Option.map_eq_some_iff] at hstep
    obtain ⟨msg, hhead, rfl⟩ := hstep
    exact h.flushQueue (List.eq_cons_of_mem_head? hhead)
  | serverReceive q =>
    simp only [netStep, Option.ite_none_right_eq_some, Option.bind_eq_some_iff] at hstep
    obtain ⟨hq, msg, hhead, hstep⟩ := hstep
    exact h.receive hq (List.eq_cons_of_mem_head? hhead) hstep
  | deliver q =>
    simp only [netStep, Option.ite_none_right_eq_some, Option.map_eq_some_iff] at hstep
    obtain ⟨hq, msg, hhead, rfl⟩ := hstep
    exact h.deliver (List.eq_cons_of_mem_head? hhead)
      (hintime.imp_right fun hidle => hidle msg hhead)
  | startGame q =>
    simp only [netStep, Option.ite_none_right_eq_some, Option.some.injEq] at hstep
    obtain ⟨⟨_, hevents⟩, rfl⟩ := hstep
    exact h.startGame hevents
  | getNetPads q pad_nb status =>
    simp only [netStep, Option.ite_none_right_eq_some, Option.some.injEq] at hstep
    obtain ⟨_, rfl⟩ := hstep
    exact h.getNetPads pad_nb status
  | popPad q =>
    simp only [netStep, Option.ite_none_right_eq_some] at hstep
    exact h.popPad hstep.2
  | stop q =>
    simp only [netStep, Option.ite_none_right_eq_some, Option.some.injEq] at hstep
    obtain ⟨_, rfl⟩ := hstep
    exact h.stop

theorem NetInv.popped_isPrefix (h : NetInv m_players m_pad_map s)
    (hpid : isConnected m_players pid = true)
    (hgame : (s.clients pid).game = some s.m_current_game) (slot : Fin 4) :
    if ownSlots m_pad_map pid slot = true then
      (s.clients pid).popped slot <+:
        s.relayed slot ++ accepted s.m_current_game slot (s.current_game pid) (s.up pid)
    else (s.clients pid).popped slot <+: s.relayed slot := by
  have hnot (htold : s.m_current_game ∉
      toldGames (s.clients pid) (s.current_game pid) (s.up pid)) : False := by
    refine htold ?_
    simp [toldGames, hgame]
  cases (h.clients pid hpid).phase with
  | called old hstarts hold hcur htold => exact (hnot htold).elim
  | pending hstarts hcur hev htold => exact (hnot htold).elim
  | declined hstarts hne => exact absurd hgame hne
  | playing hstarts hg hev hlast hown hother =>
    split
    · next hslot =>
      rw [← hown slot hslot]
      exact List.prefix_append ..
    · next hslot =>
      rw [← hother slot (Bool.eq_false_iff.mpr hslot), gather_of_no_starts _ _ _ hstarts]
      exact List.prefix_append ..

theorem NetInv.agree (h : NetInv m_players m_pad_map s) : Agree m_players s := by
  intro p q hp hq hgp hgq slot
  have hpp := h.popped_isPrefix hp hgp slot
  have hqq := h.popped_isPrefix hq hgq slot
  by_cases hownp : ownSlots m_pad_map p slot = true
  · by_cases hownq : ownSlots m_pad_map q slot = true
    · obtain rfl := isMappedTo_unique hownp hownq
      exact .inl List.prefix_rfl
    · rw [if_pos hownp] at hpp
      rw [if_neg hownq] at hqq
      exact List.prefix_or_prefix_of_prefix hpp (hqq.trans (List.prefix_append ..))
  · rw [if_neg hownp] at hpp
    split at hqq
    · exact List.prefix_or_prefix_of_prefix (hpp.trans (List.prefix_append ..)) hqq
    · exact List.prefix_or_prefix_of_prefix hpp hqq

end

/-- The first pad is the first player's. -/
def onePad : PadMappingArray := Function.update (fun _ => nobody) 0 1

/-- A pad with its stick somewhere. -/
def padAt (x : BitVec 8) : GCPadStatus := ⟨0, x, 0, 0, 0, 0, 0, 0, 0, true⟩

/-- The first player starts a game and polls its pad. -/
def firstPoll : List NetEvent :=
  [.adjustPadBufferSize 0, .serverStartGame 5, .flushQueue, .flushQueue, .flushQueue,
    .deliver 1, .deliver 1, .deliver 1, .startGame 1, .getNetPads 1 0 fun _ => padAt 1, .popPad 1,
    .serverReceive 1, .serverReceive 1, .deliver 2, .deliver 2, .deliver 2]

/-- The second player starts the game before the state is delivered, and pops it. -/
def startsInTime : List NetEvent :=
  firstPoll ++ [.startGame 2, .deliver 2, .getNetPads 2 0 fun _ => padAt 0, .popPad 2]

/-- The second player starts the game after the state is delivered, and pops only the next one. -/
def startsLate : List NetEvent :=
  firstPoll ++ [.deliver 2, .startGame 2, .getNetPads 1 0 fun _ => padAt 2, .popPad 1,
    .serverReceive 1, .deliver 2, .getNetPads 2 0 fun _ => padAt 0, .popPad 2]

end DolphinCore.NetPlay
