import DolphinCore.GX.CommandEffect
import DolphinCore.GX.DisplayList
import DolphinCore.GX.StreamChunks
import DolphinCore.Lib.Computation

/-!
# DolphinCore.GX.ListBounds

When a display list is decoded within its bounds: where it is made of whole
commands, apart from a last draw whose vertices are cut off, as is every list that
it calls. Any other list has its decoder pass the end.
-/

namespace DolphinCore.GX

/-! ## whole commands -/

section

variable (host : Host) (is_preprocess : Bool) (env : ListEnv) (cmd_byte : Byte) (p : BitVec 64)

/-- The number of vertices of a draw whose operands start at `p`. -/
def drawCount : BitVec 16 := read16 (host.bytes p 2)

namespace ListEnv

/-- The bytes that the vertices of a draw take. -/
def drawSize : Nat :=
  if drawCount host p = 0 then 0
  else ((env.drawn is_preprocess cmd_byte (drawCount host p)).loader is_preprocess
    (drawGroup cmd_byte)).elim 0 fun loader => readsize loader (drawCount host p)

/-- The state after a draw; its loader must be there. -/
def afterDraw : Except ListFault ListEnv :=
  if drawCount host p = 0 then .ok env
  else
    match (env.drawn is_preprocess cmd_byte (drawCount host p)).loader is_preprocess
      (drawGroup cmd_byte) with
    | none => .error .nullPointer
    | some _ => .ok (env.drawn is_preprocess cmd_byte (drawCount host p))

/-- The bytes that a command takes after its first one, from `p` on, and the state after it. -/
def item : Nat × Except ListFault ListEnv :=
  match cmd_byte.toNat with
  | 0x00 | 0x01 | 0x44 | 0x48 => (0, .ok env)
  | 0x08 =>
    (5, .ok (env.loadCPReg host is_preprocess ((host.bytes p 1).headD 0)
      (read32 (host.bytes (p + 1) 4))))
  | 0x10 =>
    let Cmd2 := read32 (host.bytes p 4)
    (4 + 4 * (if is_preprocess then xfTransferSize Cmd2
      else xfWords (xfTransferSize Cmd2) (xfAddress Cmd2)), .ok env)
  | 0x20 | 0x28 | 0x30 | 0x38 =>
    (4, env.indexed host is_preprocess (read32 (host.bytes p 4)) (refArray cmd_byte))
  | 0x61 => (4, .ok env)
  | _ =>
    if cmd_byte &&& 0xc0 = 0x80 then
      (2 + env.drawSize host is_preprocess cmd_byte p, env.afterDraw host is_preprocess cmd_byte p)
    else (0, .ok env)

/-- A draw whose vertices do not end within the `left` bytes from `p` on. -/
def CutDraw (left : Nat) : Prop :=
  IsDraw cmd_byte ∧ 2 ≤ left ∧ left < 2 + env.drawSize host is_preprocess cmd_byte p

instance (left : Nat) : Decidable (env.CutDraw host is_preprocess cmd_byte p left) :=
  inferInstanceAs (Decidable (_ ∧ _))

end ListEnv

end

/-- The `left` bytes from `p` on are whole commands, as are the lists that they call, apart from
a last draw that is cut off in its vertices. -/
inductive WholeList (host : Host) (is_preprocess : Bool) :
    BitVec 64 → Nat → ListEnv → ListEnv → Prop
  | done (p : BitVec 64) (env : ListEnv) : WholeList host is_preprocess p 0 env env
  | command {p : BitVec 64} {left : Nat} {env env' env'' : ListEnv}
      (hcall : host.memory p ≠ 0x40)
      (hsize : (env.item host is_preprocess (host.memory p) (p + 1)).1 ≤ left)
      (hafter : (env.item host is_preprocess (host.memory p) (p + 1)).2 = .ok env')
      (hrest : WholeList host is_preprocess
        (p + BitVec.ofNat 64 (1 + (env.item host is_preprocess (host.memory p) (p + 1)).1))
        (left - (env.item host is_preprocess (host.memory p) (p + 1)).1) env' env'') :
      WholeList host is_preprocess p (left + 1) env env''
  | cutDraw {p : BitVec 64} {left : Nat} {env env' : ListEnv}
      (hcut : env.CutDraw host is_preprocess (host.memory p) (p + 1) left)
      (hafter : env.afterDraw host is_preprocess (host.memory p) (p + 1) = .ok env') :
      WholeList host is_preprocess p (left + 1) env env'
  | callNone {p : BitVec 64} {left : Nat} {env env' env'' : ListEnv}
      (hcall : host.memory p = 0x40) (hsize : 8 ≤ left)
      (hstart : env.startAddress host is_preprocess (read32 (host.bytes (p + 1) 4))
        (read32 (host.bytes (p + 5) 4)) = .ok (none, env'))
      (hrest : WholeList host is_preprocess (p + 9) (left - 8) env' env'') :
      WholeList host is_preprocess p (left + 1) env env''
  | call {p start : BitVec 64} {left : Nat} {env env' env'' env''' : ListEnv}
      (hcall : host.memory p = 0x40) (hsize : 8 ≤ left)
      (hstart : env.startAddress host is_preprocess (read32 (host.bytes (p + 1) 4))
        (read32 (host.bytes (p + 5) 4)) = .ok (some start, env'))
      (hlist : WholeList host is_preprocess start (read32 (host.bytes (p + 5) 4)).toNat env' env'')
      (hrest : WholeList host is_preprocess (p + 9) (left - 8) env'' env''') :
      WholeList host is_preprocess p (left + 1) env env'''

/-! ## positions in a list -/

variable {host : Host} {is_preprocess : Bool} {list : DataReader} {p : BitVec 64} {left : Nat}

/-- `left` bytes of the list are behind `p`. -/
structure At (list : DataReader) (p : BitVec 64) (left : Nat) : Prop where
  position : (p - list.Rbuffer).toNat + left = list.size.toNat
  small : list.size.toNat < 2 ^ 32

theorem At.start (p : BitVec 64) (size : BitVec 32) :
    At ⟨p, p + size.setWidth 64⟩ p size.toNat := by
  have hsize : (DataReader.size ⟨p, p + size.setWidth 64⟩).toNat = size.toNat := by
    unfold DataReader.size
    bv_omega
  exact ⟨by rw [hsize]; bv_omega, by rw [hsize]; exact size.isLt⟩

theorem At.size_eq (h : At list p left) : (DataReader.size ⟨p, list.end_⟩).toNat = left := by
  obtain ⟨h, hsmall⟩ := h
  unfold DataReader.size at h hsmall ⊢
  bv_omega

theorem At.advance (h : At list p left) {n : Nat} (hn : n ≤ left) :
    At list (p + BitVec.ofNat 64 n) (left - n) := by
  obtain ⟨h, hsmall⟩ := h
  refine ⟨?_, hsmall⟩
  bv_omega

theorem At.read_within (h : At list p left) {k n : Nat} (hk : k + n ≤ left) :
    (Access.read list (p + BitVec.ofNat 64 k) n).Within := by
  obtain ⟨h, hsmall⟩ := h
  unfold Access.Within
  bv_omega

theorem At.read_within_iff (h : At list p left) {k count : Nat} (hk : k < 2 ^ 32) :
    (Access.read list (p + BitVec.ofNat 64 k) count).Within ↔ k + count ≤ left := by
  obtain ⟨h, hsmall⟩ := h
  unfold Access.Within
  constructor
  · intro hw
    bv_omega
  · intro hw
    bv_omega

theorem At.command_within_iff (h : At list p left) {n : Nat} (hn : n < 2 ^ 33) :
    (Access.command list p (p + BitVec.ofNat 64 n)).Within ↔ n ≤ left := by
  obtain ⟨h, hsmall⟩ := h
  unfold Access.Within
  constructor
  · intro hw
    bv_omega
  · intro hw
    bv_omega

/-! ## what a turn does -/

namespace ListState

variable {m : ListState}

/-- The reader that the decoder does not use. -/
def other (is_preprocess : Bool) (m : ListState) : DataReader := m.reader (!is_preprocess)

/-- The decoder went on by `n` bytes. -/
def moved (is_preprocess : Bool) (m : ListState) (n : Nat) (env : ListEnv)
    (accesses : List Access) : ListState :=
  { m.readSkip is_preprocess n with env := env, trace := m.trace ++ accesses }

@[simp]
theorem moved_env (n : Nat) (env : ListEnv) (accesses : List Access) :
    (m.moved is_preprocess n env accesses).env = env := rfl

@[simp]
theorem moved_trace (n : Nat) (env : ListEnv) (accesses : List Access) :
    (m.moved is_preprocess n env accesses).trace = m.trace ++ accesses := rfl

@[simp]
theorem moved_reader (n : Nat) (env : ListEnv) (accesses : List Access) :
    (m.moved is_preprocess n env accesses).reader is_preprocess =
      (m.reader is_preprocess).readSkip n := by
  cases is_preprocess <;> rfl

@[simp]
theorem moved_other (n : Nat) (env : ListEnv) (accesses : List Access) :
    (m.moved is_preprocess n env accesses).other is_preprocess = m.other is_preprocess := by
  cases is_preprocess <;> rfl

theorem moved_moved (n n' : Nat) (env env' : ListEnv) (accesses accesses' : List Access) :
    (m.moved is_preprocess n env accesses).moved is_preprocess n' env' accesses' =
      m.moved is_preprocess (n + n') env' (accesses ++ accesses') := by
  have hskip (r : DataReader) : (r.readSkip n).readSkip n' = r.readSkip (n + n') := by
    unfold DataReader.readSkip
    rw [BitVec.add_assoc, ← BitVec.ofNat_add]
  cases is_preprocess <;>
    simp [moved, ListState.readSkip, setReader, reader, hskip, List.append_assoc]

theorem moved_set_env (n : Nat) (env env' : ListEnv) (accesses : List Access) :
    ({ m.moved is_preprocess n env accesses with env := env' } : ListState) =
      m.moved is_preprocess n env' accesses := rfl

theorem moved_log (n : Nat) (env : ListEnv) (accesses accesses' : List Access) :
    ({ m.moved is_preprocess n env accesses with
        trace := (m.moved is_preprocess n env accesses).trace ++ accesses' } : ListState) =
      m.moved is_preprocess n env (accesses ++ accesses') := by
  unfold moved
  rw [List.append_assoc]

theorem set_env_eq (env : ListEnv) :
    ({ m with env := env } : ListState) = m.moved is_preprocess 0 env [] := by
  cases is_preprocess <;> simp [moved, ListState.readSkip, setReader, reader, DataReader.readSkip]

theorem readSkip_eq (n : Nat) : m.readSkip is_preprocess n = m.moved is_preprocess n m.env [] := by
  cases is_preprocess <;> simp [moved, ListState.readSkip, setReader]

theorem read_eq (n : Nat) : m.read host is_preprocess list n =
    (host.bytes (m.reader is_preprocess).Rbuffer n,
      m.moved is_preprocess n m.env [.read list (m.reader is_preprocess).Rbuffer n]) := by
  cases is_preprocess <;> rfl

/-- Where the reads of a command are: from `k` bytes after `p` on. -/
def readAt (list : DataReader) (p : BitVec 64) (k count : Nat) : Access :=
  .read list (p + BitVec.ofNat 64 k) count

/-- Reads of a command that takes `n` bytes after its first one. -/
def ReadsOf (list : DataReader) (p : BitVec 64) (n : Nat) (accesses : List Access) : Prop :=
  ∀ a ∈ accesses, ∃ k count, a = readAt list p k count ∧ k + count ≤ 1 + n

theorem loadCP_eq (h : (m.reader is_preprocess).Rbuffer = p + 1) :
    m.loadCP host is_preprocess list = m.moved is_preprocess 5
      (m.env.loadCPReg host is_preprocess ((host.bytes (p + 1) 1).headD 0)
        (read32 (host.bytes (p + 1 + 1) 4)))
      [readAt list p 1 1, readAt list p 2 4] := by
  unfold loadCP
  rw [read_eq]
  dsimp only
  rw [read_eq]
  have htwo : p + 1 + BitVec.ofNat 64 1 = p + BitVec.ofNat 64 2 := by
    rw [BitVec.add_assoc]
    rfl
  rw [moved_moved, moved_set_env, moved_reader, moved_env, show p + 1 + 1 = _ from htwo]
  unfold DataReader.readSkip readAt
  rw [h, htwo]
  rfl

variable (host list) in
theorem loadXF_eq (h : (m.reader is_preprocess).Rbuffer = p + 1) :
    ∃ accesses, m.loadXF host is_preprocess list = m.moved is_preprocess
      (m.env.item host is_preprocess 0x10 (p + 1)).1 m.env accesses ∧
        ReadsOf list p (m.env.item host is_preprocess 0x10 (p + 1)).1 accesses := by
  unfold loadXF
  rw [read_eq]
  dsimp only
  rw [h]
  cases is_preprocess with
  | true =>
    rw [if_pos rfl, readSkip_eq, moved_moved]
    refine ⟨_, rfl, fun a ha => ?_⟩
    simp only [List.append_nil, List.mem_singleton] at ha
    exact ⟨1, 4, ha, Nat.add_le_add_left (Nat.le_add_right 4 _) 1⟩
  | false =>
    rw [if_neg Bool.false_ne_true, read_eq, moved_moved]
    refine ⟨_, rfl, fun a ha => ?_⟩
    simp only [List.mem_append, List.mem_singleton] at ha
    rcases ha with rfl | rfl
    · exact ⟨1, 4, rfl, Nat.add_le_add_left (Nat.le_add_right 4 _) 1⟩
    · have hfive : ((m.moved false 4 m.env [.read list (p + 1) 4]).reader false).Rbuffer =
          p + BitVec.ofNat 64 5 := by
        rw [moved_reader]
        unfold DataReader.readSkip
        rw [h, BitVec.add_assoc]
        rfl
      rw [hfive]
      exact ⟨5, _, rfl, Nat.le_of_eq (Nat.add_assoc 1 4 _)⟩

theorem loadIndexed_eq (h : (m.reader is_preprocess).Rbuffer = p + 1) (cmd_byte : Byte) :
    m.loadIndexed host is_preprocess list cmd_byte =
      (m.env.indexed host is_preprocess (read32 (host.bytes (p + 1) 4)) (refArray cmd_byte)).map
        fun env => m.moved is_preprocess 4 env [readAt list p 1 4] := by
  unfold loadIndexed
  rw [read_eq, h]
  rfl

theorem callDisplayList_eq (h : (m.reader is_preprocess).Rbuffer = p + 1)
    (callDL : BitVec 32 → BitVec 32 → ListState → Except ListFault ListState) :
    m.callDisplayList host is_preprocess list callDL =
      callDL (read32 (host.bytes (p + 1) 4)) (read32 (host.bytes (p + 5) 4))
        (m.moved is_preprocess 8 m.env [readAt list p 1 4, readAt list p 5 4]) := by
  have hfive : p + 1 + BitVec.ofNat 64 4 = p + 5 := by
    rw [BitVec.add_assoc]
    rfl
  unfold callDisplayList
  rw [read_eq]
  dsimp only
  rw [read_eq]
  rw [moved_moved, moved_reader, moved_env]
  unfold DataReader.readSkip readAt
  rw [h, hfive]
  rfl

theorem draw_eq (h : (m.reader is_preprocess).Rbuffer = p + 1) (cmd_byte : Byte)
    (distance : BitVec 64) :
    ∃ accesses, ReadsOf list p (2 + m.env.drawSize host is_preprocess cmd_byte (p + 1)) accesses ∧
      m.draw host is_preprocess list cmd_byte distance =
        (m.env.afterDraw host is_preprocess cmd_byte (p + 1)).map fun env =>
          if (distance - 2).toNat < m.env.drawSize host is_preprocess cmd_byte (p + 1) then
            .stop (m.moved is_preprocess 2 env [readAt list p 1 2])
          else
            .next (m.moved is_preprocess
              (2 + m.env.drawSize host is_preprocess cmd_byte (p + 1)) env
              (readAt list p 1 2 :: accesses)) := by
  have hthree : p + 1 + BitVec.ofNat 64 2 = p + BitVec.ofNat 64 3 := by
    rw [BitVec.add_assoc]
    rfl
  unfold draw drawVertices ListEnv.afterDraw ListEnv.drawSize drawCount
  rw [read_eq, h]
  dsimp only
  split
  · exact ⟨[], nofun, rfl⟩
  · rw [moved_env, moved_set_env]
    cases hloader : (m.env.drawn is_preprocess cmd_byte
      (read16 (host.bytes (p + 1) 2))).loader is_preprocess (drawGroup cmd_byte) with
    | none => exact ⟨[], nofun, rfl⟩
    | some loader =>
      dsimp only [Option.elim_some]
      cases is_preprocess with
      | true =>
        refine ⟨[], nofun, ?_⟩
        rw [readSkip_eq, moved_moved, if_pos rfl]
        exact (apply_ite Except.ok ..).symm
      | false =>
        refine ⟨[readAt list p 3 (ListEnv.readsize loader (read16 (host.bytes (p + 1) 2)))],
          fun a ha => ⟨3, _, List.mem_singleton.mp ha, Nat.le_of_eq (Nat.add_assoc 1 2 _)⟩, ?_⟩
        rw [read_eq, moved_moved, moved_reader]
        unfold DataReader.readSkip
        rw [h, hthree, if_neg Bool.false_ne_true]
        exact (apply_ite Except.ok ..).symm

variable {callDL : BitVec 32 → BitVec 32 → ListState → Except ListFault ListState}

theorem item_draw {cmd_byte : Byte} (hdraw : IsDraw cmd_byte) (env : ListEnv) :
    env.item host is_preprocess cmd_byte p = (2 + env.drawSize host is_preprocess cmd_byte p,
        env.afterDraw host is_preprocess cmd_byte p) := by
  have hge := hdraw.ge
  unfold ListEnv.item
  split <;> first | omega | exact if_pos hdraw

variable (host list) in
theorem command_eq (h : (m.reader is_preprocess).Rbuffer = p + 1) {cmd_byte : Byte}
    (hcall : cmd_byte ≠ 0x40) (distance : BitVec 64) :
    ∃ accesses, ReadsOf list p (m.env.item host is_preprocess cmd_byte (p + 1)).1 accesses ∧
      ∀ callDL, command host is_preprocess list callDL cmd_byte distance m =
        (m.env.item host is_preprocess cmd_byte (p + 1)).2.map fun env =>
          if IsDraw cmd_byte ∧
              (distance - 2).toNat < m.env.drawSize host is_preprocess cmd_byte (p + 1) then
            .stop (m.moved is_preprocess 2 env [readAt list p 1 2])
          else
            .next (m.moved is_preprocess (m.env.item host is_preprocess cmd_byte (p + 1)).1 env
              accesses) := by
  by_cases hdraw : IsDraw cmd_byte
  · have hge := hdraw.ge
    have hcommand : ∀ callDL, command host is_preprocess list callDL cmd_byte distance m =
        m.draw host is_preprocess list cmd_byte distance := by
      intro callDL
      unfold command
      split <;> first | omega | exact if_pos hdraw
    obtain ⟨accesses, hreads, heq⟩ := m.draw_eq h cmd_byte distance
    rw [item_draw hdraw]
    refine ⟨readAt list p 1 2 :: accesses, fun a ha => ?_, fun callDL => by
      rw [hcommand, heq]
      simp only [hdraw, true_and]⟩
    rcases List.mem_cons.mp ha with rfl | ha
    · exact ⟨1, 2, rfl, Nat.add_le_add_left (Nat.le_add_right 2 _) 1⟩
    · exact hreads a ha
  · simp only [hdraw, false_and, if_false]
    have hnop : ∃ accesses, ReadsOf list p 0 accesses ∧
        ∀ _ : BitVec 32 → BitVec 32 → ListState → Except ListFault ListState,
          (.ok (.next m) : Except ListFault Turn) =
            .ok (.next (m.moved is_preprocess 0 m.env accesses)) :=
      ⟨[], nofun, fun _ => congrArg (fun m => Except.ok (Turn.next m)) (set_env_eq m.env)⟩
    have hread : ∀ n, ReadsOf list p n [readAt list p 1 n] := fun n a ha =>
      ⟨1, n, List.mem_singleton.mp ha, Nat.le_refl _⟩
    have hindexed (c : Byte) : ∃ accesses, ReadsOf list p 4 accesses ∧
        ∀ _ : BitVec 32 → BitVec 32 → ListState → Except ListFault ListState,
          (m.loadIndexed host is_preprocess list c).map Turn.next =
            (m.env.indexed host is_preprocess (read32 (host.bytes (p + 1) 4)) (refArray c)).map
              fun env => Turn.next (m.moved is_preprocess 4 env accesses) := by
      refine ⟨_, hread 4, fun _ => ?_⟩
      rw [loadIndexed_eq h]
      cases m.env.indexed host is_preprocess (read32 (host.bytes (p + 1) 4)) (refArray c) <;> rfl
    unfold ListEnv.item
    split
    · next heq =>
      obtain rfl : cmd_byte = 0x00 := BitVec.eq_of_toNat_eq heq
      exact hnop
    · next heq =>
      obtain rfl : cmd_byte = 0x01 := BitVec.eq_of_toNat_eq heq
      exact hnop
    · next heq =>
      obtain rfl : cmd_byte = 0x44 := BitVec.eq_of_toNat_eq heq
      exact hnop
    · next heq =>
      obtain rfl : cmd_byte = 0x48 := BitVec.eq_of_toNat_eq heq
      exact hnop
    · next heq =>
      obtain rfl : cmd_byte = 0x08 := BitVec.eq_of_toNat_eq heq
      refine ⟨[readAt list p 1 1, readAt list p 2 4], fun a ha => ?_,
        fun _ => congrArg (fun m => Except.ok (Turn.next m)) (loadCP_eq h)⟩
      rcases List.mem_pair.mp ha with rfl | rfl
      · exact ⟨1, 1, rfl, Nat.le_add_right 2 4⟩
      · exact ⟨2, 4, rfl, Nat.le_refl 6⟩
    · next heq =>
      obtain rfl : cmd_byte = 0x10 := BitVec.eq_of_toNat_eq heq
      obtain ⟨accesses, heq, hreads⟩ := loadXF_eq host list h
      exact ⟨accesses, hreads, fun _ => congrArg (fun m => Except.ok (Turn.next m)) heq⟩
    · next heq =>
      obtain rfl : cmd_byte = 0x20 := BitVec.eq_of_toNat_eq heq
      exact hindexed 0x20
    · next heq =>
      obtain rfl : cmd_byte = 0x28 := BitVec.eq_of_toNat_eq heq
      exact hindexed 0x28
    · next heq =>
      obtain rfl : cmd_byte = 0x30 := BitVec.eq_of_toNat_eq heq
      exact hindexed 0x30
    · next heq =>
      obtain rfl : cmd_byte = 0x38 := BitVec.eq_of_toNat_eq heq
      exact hindexed 0x38
    · next heq =>
      obtain rfl : cmd_byte = 0x61 := BitVec.eq_of_toNat_eq heq
      refine ⟨_, hread 4, fun _ => congrArg (fun m => Except.ok (Turn.next m)) ?_⟩
      rw [read_eq, h]
      rfl
    · have hnone : ¬ cmd_byte &&& 0xc0 = 0x80 := hdraw
      have hcommand : ∀ callDL, command host is_preprocess list callDL cmd_byte distance m =
          .ok (.next m) := by
        intro callDL
        unfold command
        split
        all_goals first
          | contradiction
          | exact if_neg hdraw
          | next heq => exact absurd (BitVec.eq_of_toNat_eq heq) hcall
      simp only [hcommand, if_neg hnone]
      exact hnop

variable (host is_preprocess p) in
theorem drawSize_lt (env : ListEnv) (cmd_byte : Byte) :
    env.drawSize host is_preprocess cmd_byte p < 2 ^ 32 := by
  unfold ListEnv.drawSize
  split
  · decide
  · cases (env.drawn is_preprocess cmd_byte (drawCount host p)).loader is_preprocess
      (drawGroup cmd_byte) with
    | none => exact Nat.two_pow_pos 32
    | some loader => exact Nat.mod_lt _ (Nat.two_pow_pos 32)

theorem item_lt (env : ListEnv) (cmd_byte : Byte) :
    1 + (env.item host is_preprocess cmd_byte p).1 < 2 ^ 33 := by
  unfold ListEnv.item
  split
  all_goals try (dsimp only; omega)
  · have htransfer : xfTransferSize (read32 (host.bytes p 4)) ≤ 16 := by
      unfold xfTransferSize
      omega
    have hwords := xfWords_le (xfTransferSize (read32 (host.bytes p 4)))
      (xfAddress (read32 (host.bytes p 4)))
    dsimp only
    split <;> omega
  · have := drawSize_lt host is_preprocess p env cmd_byte
    split
    · omega
    · omega

/-- A turn that meets no call takes the command, or stops at a draw that is cut off. -/
theorem turn_eq (hat : At list p (left + 1)) (h : m.reader is_preprocess = ⟨p, list.end_⟩)
    (hcall : host.memory p ≠ 0x40) :
    ∃ accesses stopped, ((∀ a ∈ accesses, a.Within) ↔
        (m.env.item host is_preprocess (host.memory p) (p + 1)).1 ≤ left) ∧
      (2 ≤ left → ∀ a ∈ stopped, a.Within) ∧
      ∀ callDL, turn host is_preprocess list callDL m =
        (m.env.item host is_preprocess (host.memory p) (p + 1)).2.map fun env =>
          if m.env.CutDraw host is_preprocess (host.memory p) (p + 1) left then
            .stop (m.moved is_preprocess 3 env stopped)
          else
            .next (m.moved is_preprocess
              (1 + (m.env.item host is_preprocess (host.memory p) (p + 1)).1) env accesses) := by
  have hopcode : (host.bytes p 1).headD 0 = host.memory p := by
    show host.memory (p + 0#64) = _
    rw [BitVec.add_zero]
  have hdistance := (hat.advance (Nat.le_add_left 1 left)).size_eq
  obtain ⟨reads, hreads, hcommand⟩ := command_eq host list
    (m := m.moved is_preprocess 1 m.env [.read list p 1]) (p := p)
    (by rw [moved_reader, h]; rfl) hcall (DataReader.size ⟨p + BitVec.ofNat 64 1, list.end_⟩)
  have hcut (env : ListEnv) (cmd_byte : Byte) : (IsDraw cmd_byte ∧
        (DataReader.size ⟨p + BitVec.ofNat 64 1, list.end_⟩ - 2).toNat <
          env.drawSize host is_preprocess cmd_byte (p + 1)) ↔
        env.CutDraw host is_preprocess cmd_byte (p + 1) left := by
    have hsmall := drawSize_lt host is_preprocess (p + 1) env
      cmd_byte
    have hleft : left < 2 ^ 32 := by
      have := hat.position
      have := hat.small
      omega
    unfold ListEnv.CutDraw
    generalize env.drawSize host is_preprocess cmd_byte (p + 1) = size at hsmall ⊢
    generalize DataReader.size ⟨p + BitVec.ofNat 64 1, list.end_⟩ = distance at hdistance ⊢
    refine and_congr_right fun _ => ?_
    bv_omega
  refine ⟨.read list p 1 :: reads ++ [.command list p (p + BitVec.ofNat 64
      (1 + (m.env.item host is_preprocess (host.memory p) (p + 1)).1))],
    [.read list p 1, readAt list p 1 2], ⟨fun hw => ?_, fun hsize a ha => ?_⟩,
    fun htwo a ha => ?_, fun callDL => ?_⟩
  · have := (hat.command_within_iff (item_lt m.env (host.memory p))).mp
      (hw _ (List.mem_append_right _ (List.mem_singleton_self _)))
    omega
  · rcases List.mem_append.mp ha with ha | ha
    · rcases List.mem_cons.mp ha with rfl | ha
      · have := hat.read_within (k := 0) (n := 1) (by omega)
        rwa [BitVec.add_zero] at this
      · obtain ⟨k, count, rfl, hk⟩ := hreads a ha
        exact hat.read_within (Nat.le_trans hk (by
          rw [moved_env]
          omega))
    · obtain rfl := List.mem_singleton.mp ha
      exact (hat.command_within_iff (item_lt m.env (host.memory p))).mpr (by omega)
  · rcases List.mem_pair.mp ha with rfl | rfl
    · have := hat.read_within (k := 0) (n := 1) (by omega)
      rwa [BitVec.add_zero] at this
    · exact hat.read_within (by omega)
  · unfold turn
    rw [read_eq, h]
    dsimp only
    rw [hopcode, moved_reader, h]
    simp only [moved_env, moved_moved, hcut] at hcommand
    unfold DataReader.readSkip
    rw [hcommand]
    cases (m.env.item host is_preprocess (host.memory p) (p + 1)).2 with
    | error e => rfl
    | ok env =>
      by_cases hc : m.env.CutDraw host is_preprocess (host.memory p) (p + 1) left
      · simp only [Except.map, if_pos hc]
        rfl
      · simp only [Except.map, if_neg hc]
        rw [moved_log, moved_reader, h]
        rfl

theorem turn_call (h : (m.reader is_preprocess).Rbuffer = p) (hcall : host.memory p = 0x40) :
    turn host is_preprocess list callDL m =
      (callDL (read32 (host.bytes (p + 1) 4)) (read32 (host.bytes (p + 5) 4))
        (m.moved is_preprocess 9 m.env [.read list p 1, readAt list p 1 4, readAt list p 5 4])).map
          fun m => .next { m with trace := m.trace ++
            [.command list p (m.reader is_preprocess).Rbuffer] } := by
  have hopcode : (host.bytes p 1).headD 0 = 0x40 := by
    show host.memory (p + 0#64) = _
    rw [BitVec.add_zero, hcall]
  unfold turn
  rw [read_eq, h]
  dsimp only
  rw [hopcode]
  show ((callDisplayList host is_preprocess list callDL _).map _).map _ = _
  rw [callDisplayList_eq (p := p) (by rw [moved_reader]; unfold DataReader.readSkip; rw [h]; rfl),
    moved_moved]
  simp only [moved_env, Nat.reduceAdd, List.cons_append, List.nil_append]
  cases callDL (read32 (host.bytes (p + 1) 4)) (read32 (host.bytes (p + 5) 4))
    (m.moved is_preprocess 9 m.env [.read list p 1, readAt list p 1 4, readAt list p 5 4]) with
  | error e => rfl
  | ok m' => rfl

def Turn.state : Turn → ListState
  | .stop m => m
  | .next m => m

theorem turn_grows {t : Turn}
    (hcallDL : ∀ address count m m', callDL address count m = .ok m' → m.trace <+: m'.trace)
    (h : turn host is_preprocess list callDL m = .ok t) : m.trace <+: t.state.trace := by
  by_cases hcall : host.memory (m.reader is_preprocess).Rbuffer = 0x40
  · rw [turn_call rfl hcall] at h
    obtain ⟨m', hm', rfl⟩ := map_eq_ok.mp h
    exact (List.prefix_append _ _).trans
      ((hcallDL _ _ _ _ hm').trans (List.prefix_append _ _))
  · have hopcode : (host.bytes (m.reader is_preprocess).Rbuffer 1).headD 0 =
        host.memory (m.reader is_preprocess).Rbuffer := by
      show host.memory ((m.reader is_preprocess).Rbuffer + 0#64) = _
      rw [BitVec.add_zero]
    unfold turn at h
    rw [read_eq] at h
    dsimp only at h
    rw [hopcode] at h
    obtain ⟨t', ht', rfl⟩ := map_eq_ok.mp h
    obtain ⟨reads, -, hcommand⟩ := command_eq host list
      (m := m.moved is_preprocess 1 m.env [.read list (m.reader is_preprocess).Rbuffer 1])
      (p := (m.reader is_preprocess).Rbuffer) (by rw [moved_reader]; rfl) hcall
      (DataReader.size ((m.moved is_preprocess 1 m.env
        [.read list (m.reader is_preprocess).Rbuffer 1]).reader is_preprocess))
    rw [hcommand] at ht'
    obtain ⟨env, -, rfl⟩ := map_eq_ok.mp ht'
    split
    · next hstop =>
      split at hstop
      · cases hstop
        exact (List.prefix_append _ _).trans (List.prefix_append _ _)
      · cases hstop
    · next hnext =>
      split at hnext
      · cases hnext
      · cases hnext
        exact ((List.prefix_append _ _).trans (List.prefix_append _ _)).trans
          (List.prefix_append _ _)

theorem turn_mono {callDL' : BitVec 32 → BitVec 32 → ListState → Except ListFault ListState}
    (hcallDL : ∀ address count m m', callDL address count m = .ok m' →
      callDL' address count m = .ok m') {t : Turn}
    (h : turn host is_preprocess list callDL m = .ok t) :
    turn host is_preprocess list callDL' m = .ok t := by
  have hcommand : ∀ cmd_byte distance m t,
      command host is_preprocess list callDL cmd_byte distance m = .ok t →
        command host is_preprocess list callDL' cmd_byte distance m = .ok t := by
    intro cmd_byte distance m t h
    unfold command at h ⊢
    split at h
    all_goals try exact h
    obtain ⟨m', hm', rfl⟩ := map_eq_ok.mp h
    exact map_eq_ok.mpr ⟨m', hcallDL _ _ _ _ hm', rfl⟩
  unfold turn at h ⊢
  dsimp only at h ⊢
  obtain ⟨t', ht', rfl⟩ := map_eq_ok.mp h
  rw [hcommand _ _ _ _ ht']
  rfl

/-! ## lists -/

variable {run run' : DataReader → ListState → Except ListFault ListState} {address size : BitVec 32}

variable {m' : ListState} {fuel : Nat}

theorem displayList_eq_ok : displayList host run address size m is_preprocess = .ok m' ↔
      ∃ start env, m.env.startAddress host is_preprocess address size = .ok (start, env) ∧
        match start with
        | none => { m with env := env } = m'
        | some start => ∃ m'', run ⟨start, start + size.setWidth 64⟩
            (({ m with env := env } : ListState).setReader is_preprocess
              ⟨start, start + size.setWidth 64⟩) = .ok m'' ∧
            m''.setReader is_preprocess (m.reader is_preprocess) = m' := by
  have heq : displayList host run address size m is_preprocess =
      (m.env.startAddress host is_preprocess address size).bind fun p =>
        p.1.elim (.ok { m with env := p.2 }) fun start => (run ⟨start, start + size.setWidth 64⟩
          (({ m with env := p.2 } : ListState).setReader is_preprocess
            ⟨start, start + size.setWidth 64⟩)).map fun m' =>
              m'.setReader is_preprocess (m.reader is_preprocess) := by
    cases is_preprocess <;>
      refine congrArg (m.env.startAddress host _ address size).bind (funext fun p => ?_) <;>
      obtain ⟨_ | _, _⟩ := p <;> rfl
  rw [heq]
  refine bind_eq_ok.trans ⟨?_, ?_⟩
  · rintro ⟨⟨start, env⟩, hstart, h⟩
    refine ⟨start, env, hstart, ?_⟩
    cases start with
    | none => exact Except.ok.inj h
    | some start => exact map_eq_ok.mp h
  · rintro ⟨start, env, hstart, h⟩
    refine ⟨⟨start, env⟩, hstart, ?_⟩
    cases start with
    | none => exact congrArg Except.ok h
    | some start => exact map_eq_ok.mpr h

@[simp]
theorem setReader_trace (r : DataReader) : (m.setReader is_preprocess r).trace = m.trace := by
  cases is_preprocess <;> rfl

@[simp]
theorem setReader_env (r : DataReader) : (m.setReader is_preprocess r).env = m.env := by
  cases is_preprocess <;> rfl

@[simp]
theorem setReader_reader (r : DataReader) :
    (m.setReader is_preprocess r).reader is_preprocess = r := by
  cases is_preprocess <;> rfl

@[simp]
theorem setReader_other (r : DataReader) :
    (m.setReader is_preprocess r).other is_preprocess = m.other is_preprocess := by
  cases is_preprocess <;> rfl

theorem displayList_grows (hrun : ∀ list m m', run list m = .ok m' → m.trace <+: m'.trace)
    (h : displayList host run address size m is_preprocess = .ok m') :
    m.trace <+: m'.trace := by
  obtain ⟨start, env, -, h⟩ := displayList_eq_ok.mp h
  cases start with
  | none =>
    cases h
    exact List.prefix_refl _
  | some start =>
    obtain ⟨m'', hm, rfl⟩ := h
    have := hrun _ _ _ hm
    simpa using this

theorem displayList_mono (hrun : ∀ list m m', run list m = .ok m' → run' list m = .ok m')
    (h : displayList host run address size m is_preprocess = .ok m') :
    displayList host run' address size m is_preprocess = .ok m' := by
  obtain ⟨start, env, hstart, h⟩ := displayList_eq_ok.mp h
  refine displayList_eq_ok.mpr ⟨start, env, hstart, ?_⟩
  cases start with
  | none => exact h
  | some start =>
    obtain ⟨m'', hm, rfl⟩ := h
    exact ⟨m'', hrun _ _ _ hm, rfl⟩

theorem run_succ : Run host is_preprocess (fuel + 1) list m = .ok m' ↔
      ((m.reader is_preprocess).size = 0 ∧ m = m') ∨
      ((m.reader is_preprocess).size ≠ 0 ∧ ∃ t, turn host is_preprocess list
        (fun address size m =>
          displayList host (Run host is_preprocess fuel) address size m is_preprocess) m = .ok t ∧
        (t = .stop m' ∨ ∃ m'', t = .next m'' ∧ Run host is_preprocess fuel list m'' = .ok m')) := by
  rw [Run]
  split
  · next hsize => simp [hsize]
  · next hsize =>
    simp only [hsize, false_and, ne_eq, not_false_eq_true, true_and, false_or]
    refine bind_eq_ok.trans (exists_congr fun t => and_congr_right fun _ => ?_)
    cases t with
    | stop m'' => simp
    | next m'' => simp

theorem run_grows (h : Run host is_preprocess fuel list m = .ok m') : m.trace <+: m'.trace := by
  induction fuel generalizing list m m' with
  | zero => cases h
  | succ fuel ih =>
    rcases run_succ.mp h with ⟨-, rfl⟩ | ⟨-, t, ht, hnext⟩
    · exact List.prefix_refl _
    · have hgrows := turn_grows
        (fun _ _ _ _ hcall => displayList_grows (fun _ _ _ hrun => ih hrun) hcall) ht
      rcases hnext with rfl | ⟨m'', rfl, hrun⟩
      · exact hgrows
      · exact hgrows.trans (ih hrun)

theorem run_mono {fuel fuel' : Nat} (hle : fuel ≤ fuel')
    (h : Run host is_preprocess fuel list m = .ok m') :
    Run host is_preprocess fuel' list m = .ok m' := by
  induction fuel generalizing fuel' list m m' with
  | zero => cases h
  | succ fuel ih =>
    obtain ⟨fuel', rfl⟩ : ∃ k, fuel' = k + 1 := ⟨fuel' - 1, by omega⟩
    have hle : fuel ≤ fuel' := by omega
    rw [run_succ] at h ⊢
    refine h.imp_right fun ⟨hsize, t, ht, hnext⟩ => ⟨hsize, t, ?_, ?_⟩
    · exact turn_mono
        (fun _ _ _ _ hcall => displayList_mono (fun _ _ _ hrun => ih hle hrun) hcall) ht
    · exact hnext.imp_right fun ⟨m'', hm, hrun⟩ => ⟨m'', hm, ih hle hrun⟩

/-! ## within the bounds -/

/-- Nothing was done outside of a list. -/
def Good (m : ListState) : Prop := ∀ a ∈ m.trace, a.Within

theorem Good.of_prefix (h : m'.Good) (hgrows : m.trace <+: m'.trace) : m.Good :=
  fun a ha => h a (hgrows.subset ha)

theorem Good.append (h : m.Good) {accesses : List Access} (hw : ∀ a ∈ accesses, a.Within)
    (htrace : m'.trace = m.trace ++ accesses) : m'.Good := by
  intro a ha
  rw [htrace] at ha
  exact (List.mem_append.mp ha).elim (h a) (hw a)

theorem call_within (hat : At list p (left + 1)) (hsize : 8 ≤ left) :
    ∀ a ∈ [.read list p 1, readAt list p 1 4, readAt list p 5 4], a.Within := by
  have hfirst := hat.read_within (k := 0) (n := 1) (by omega)
  rw [BitVec.add_zero] at hfirst
  intro a ha
  simp only [List.mem_cons, List.not_mem_nil, or_false] at ha
  rcases ha with rfl | rfl | rfl
  · exact hfirst
  · exact hat.read_within (by omega)
  · exact hat.read_within (by omega)

/-- The state in which a list is called. -/
def calling (is_preprocess : Bool) (list : DataReader) (p : BitVec 64) (m : ListState) :
    ListState :=
  m.moved is_preprocess 9 m.env [.read list p 1, readAt list p 1 4, readAt list p 5 4]

/-- The state after a list that was called. -/
def called (is_preprocess : Bool) (list : DataReader) (p : BitVec 64) (m : ListState) : ListState :=
  { m with trace := m.trace ++ [.command list p (m.reader is_preprocess).Rbuffer] }

theorem calling_reader (h : m.reader is_preprocess = ⟨p, list.end_⟩) :
    (m.calling is_preprocess list p).reader is_preprocess = ⟨p + 9, list.end_⟩ := by
  unfold calling
  rw [moved_reader, h]
  rfl

theorem calling_other (list : DataReader) (p : BitVec 64) :
    (m.calling is_preprocess list p).other is_preprocess = m.other is_preprocess :=
  moved_other ..

theorem called_good (hat : At list p (left + 1)) (hsize : 8 ≤ left)
    (h : m.reader is_preprocess = ⟨p + 9, list.end_⟩) (hgood : m.Good) :
    (m.called is_preprocess list p).Good := by
  refine hgood.append (fun a ha => ?_) rfl
  obtain rfl := List.mem_singleton.mp ha
  rw [h]
  exact (hat.command_within_iff (n := 9) (by decide)).mpr (by omega)

theorem call_at (hat : At list p (left + 1)) (hsize : 8 ≤ left) : At list (p + 9) (left - 8) := by
  have hat' := hat.advance (n := 9) (by omega)
  rwa [show left + 1 - 9 = left - 8 by omega] at hat'

theorem turn_called (h : m.reader is_preprocess = ⟨p, list.end_⟩) (hcall : host.memory p = 0x40)
    (hcalled : callDL (read32 (host.bytes (p + 1) 4)) (read32 (host.bytes (p + 5) 4))
      (m.calling is_preprocess list p) = .ok m') :
    turn host is_preprocess list callDL m = .ok (.next (m'.called is_preprocess list p)) := by
  rw [turn_call (p := p) (by rw [h]) hcall]
  exact map_eq_ok.mpr ⟨m', hcalled, rfl⟩

theorem size_ne_zero (hat : At list p (left + 1)) (h : m.reader is_preprocess = ⟨p, list.end_⟩) :
    (m.reader is_preprocess).size ≠ 0 := by
  intro hzero
  have := hat.size_eq
  rw [← h, hzero] at this
  cases this

theorem run_turn {fuel fuel' : Nat} {m m' m'' : ListState} (hat : At list p (left + 1))
    (h : m.reader is_preprocess = ⟨p, list.end_⟩) (hle : fuel' ≤ fuel)
    (hturn : turn host is_preprocess list (fun address size m =>
      displayList host (Run host is_preprocess fuel) address size m is_preprocess) m =
        .ok (.next m''))
    (hrun : Run host is_preprocess fuel' list m'' = .ok m') :
    Run host is_preprocess (fuel + 1) list m = .ok m' :=
  run_succ.mpr (.inr ⟨size_ne_zero hat h, _, hturn, .inr ⟨m'', rfl, run_mono hle hrun⟩⟩)

theorem run_of_whole {env env' : ListEnv} (h : WholeList host is_preprocess p left env env') :
    ∀ {list : DataReader} {m : ListState}, At list p left →
      m.reader is_preprocess = ⟨p, list.end_⟩ → m.env = env → m.Good →
        ∃ fuel m', Run host is_preprocess fuel list m = .ok m' ∧ m'.env = env' ∧ m'.Good ∧
          m'.other is_preprocess = m.other is_preprocess := by
  induction h with
  | done p env =>
    intro list m hat hreader henv hgood
    have hsize : (m.reader is_preprocess).size = 0 := by
      rw [hreader]
      exact BitVec.eq_of_toNat_eq hat.size_eq
    exact ⟨1, m, run_succ.mpr (.inl ⟨hsize, rfl⟩), henv, hgood, rfl⟩
  | @command p left env env' _ hcall hsize hafter _ ih =>
    rintro list m hat hreader rfl hgood
    have hcut : ¬ m.env.CutDraw host is_preprocess (host.memory p) (p + 1) left := by
      rintro ⟨hdraw, -, hlt⟩
      rw [item_draw hdraw] at hsize
      omega
    have hat' := hat.advance (n := 1 + (m.env.item host is_preprocess (host.memory p) (p + 1)).1)
      (by omega)
    rw [Nat.add_comm left 1, Nat.add_sub_add_left] at hat'
    obtain ⟨accesses, _, hw, -, hturn⟩ := turn_eq (m := m) hat hreader hcall
    simp only [hafter, Except.map, if_neg hcut] at hturn
    obtain ⟨fuel, m', hrun, henv', hgood', hother⟩ := ih hat'
      (m := m.moved is_preprocess (1 + (m.env.item host is_preprocess (host.memory p) (p + 1)).1)
        env' accesses) (by rw [moved_reader, hreader]; rfl) rfl (hgood.append (hw.mpr hsize) rfl)
    exact ⟨fuel + 1, m', run_turn hat hreader (Nat.le_refl fuel) (hturn _) hrun, henv', hgood',
      hother.trans (moved_other ..)⟩
  | @cutDraw p left env env' hcut hafter =>
    rintro list m hat hreader rfl hgood
    have ⟨hdraw, htwo, _⟩ := hcut
    have hcall : host.memory p ≠ 0x40 := by
      intro h
      rw [h] at hdraw
      exact absurd hdraw (by decide)
    obtain ⟨_, stopped, -, hw, hturn⟩ := turn_eq (m := m) hat hreader hcall
    simp only [item_draw hdraw, hafter, Except.map, if_pos hcut] at hturn
    exact ⟨1, m.moved is_preprocess 3 env' stopped,
      run_succ.mpr (.inr ⟨size_ne_zero hat hreader, _, hturn _, .inl rfl⟩), rfl,
      hgood.append (hw htwo) rfl, moved_other ..⟩
  | @callNone p left env env' _ hcall hsize hstart _ ih =>
    rintro list m hat hreader rfl hgood
    let m₂ : ListState := { m.calling is_preprocess list p with env := env' }
    have hreader₂ : m₂.reader is_preprocess = ⟨p + 9, list.end_⟩ := calling_reader hreader
    have hgood₂ : m₂.Good := hgood.append (call_within hat hsize) rfl
    obtain ⟨fuel, m', hrun, henv', hgood', hother⟩ := ih (call_at hat hsize)
      (m := m₂.called is_preprocess list p) hreader₂ rfl (called_good hat hsize hreader₂ hgood₂)
    have hcalled : displayList host (Run host is_preprocess fuel) _ _
        (m.calling is_preprocess list p) is_preprocess = .ok m₂ :=
      displayList_eq_ok.mpr ⟨none, env', hstart, rfl⟩
    exact ⟨fuel + 1, m', run_turn hat hreader (Nat.le_refl fuel)
      (turn_called hreader hcall hcalled) hrun, henv', hgood', hother.trans (calling_other list p)⟩
  | @call p start left env env' env'' _ hcall hsize hstart _ _ ihlist ih =>
    rintro list m hat hreader rfl hgood
    generalize hcount : read32 (host.bytes (p + 5) 4) = count at hstart ihlist
    let list' : DataReader := ⟨start, start + count.setWidth 64⟩
    let m₁ : ListState :=
      ({ m.calling is_preprocess list p with env := env' } : ListState).setReader is_preprocess
        list'
    have hgood₁ : m₁.Good := hgood.append (call_within hat hsize) (setReader_trace _)
    obtain ⟨fuel₁, m₂, hrun₂, henv₂, hgood₂, hother₂⟩ := ihlist (.start start count) (m := m₁)
      (setReader_reader _) (setReader_env _) hgood₁
    let m₃ := m₂.setReader is_preprocess ((m.calling is_preprocess list p).reader is_preprocess)
    have hreader₃ : m₃.reader is_preprocess = ⟨p + 9, list.end_⟩ :=
      (setReader_reader _).trans (calling_reader hreader)
    have hgood₃ : m₃.Good := by
      intro a ha
      rw [setReader_trace] at ha
      exact hgood₂ a ha
    obtain ⟨fuel₂, m', hrun, henv', hgood', hother⟩ := ih (call_at hat hsize)
      (m := m₃.called is_preprocess list p) hreader₃ ((setReader_env _).trans henv₂)
      (called_good hat hsize hreader₃ hgood₃)
    have hcalled : displayList host (Run host is_preprocess (max fuel₁ fuel₂))
        (read32 (host.bytes (p + 1) 4)) count (m.calling is_preprocess list p) is_preprocess =
          .ok m₃ :=
      displayList_eq_ok.mpr ⟨some start, env', hstart, m₂, run_mono (Nat.le_max_left ..) hrun₂, rfl⟩
    refine ⟨max fuel₁ fuel₂ + 1, m', run_turn hat hreader (Nat.le_max_right ..)
      (turn_called hreader hcall (hcount.symm ▸ hcalled)) hrun, henv', hgood', hother.trans ?_⟩
    have hother₁ : m₁.other is_preprocess = m.other is_preprocess :=
      (setReader_other _).trans (calling_other list p)
    exact (setReader_other _).trans (hother₂.trans hother₁)

/-- A list that is decoded within its bounds is made of whole commands. -/
theorem whole_of_run (hrun : Run host is_preprocess fuel list m = .ok m') (hat : At list p left)
    (hreader : m.reader is_preprocess = ⟨p, list.end_⟩) (hgood : m'.Good) :
    WholeList host is_preprocess p left m.env m'.env := by
  induction fuel generalizing list p left m m' with
  | zero => cases hrun
  | succ fuel ih =>
    rcases run_succ.mp hrun with ⟨hsize, rfl⟩ | ⟨hsize, t, hturn, hnext⟩
    · obtain rfl : left = 0 := by
        rw [hreader] at hsize
        rw [← hat.size_eq, hsize]
        rfl
      exact .done p m.env
    obtain ⟨left, rfl⟩ : ∃ k, left = k + 1 := by
      refine ⟨left - 1, ?_⟩
      have hne : left ≠ 0 := by
        rintro rfl
        rw [hreader] at hsize
        exact hsize (BitVec.eq_of_toNat_eq hat.size_eq)
      omega
    by_cases hcall : host.memory p = 0x40
    · -- the command that calls was read, and the list it calls was decoded
      rw [turn_call (p := p) (by rw [hreader]) hcall] at hturn
      obtain ⟨m₂, hcalled, rfl⟩ := map_eq_ok.mp hturn
      obtain ⟨m₃, hm₃, hrest⟩ := hnext.resolve_left nofun
      cases hm₃
      have hgood₂ : m₂.Good :=
        hgood.of_prefix ((List.prefix_append _ _).trans (run_grows hrest))
      have hgrows := displayList_grows (fun _ _ _ h => run_grows h) hcalled
      have hsize : 8 ≤ left := by
        have hlast := hgood₂ (readAt list p 5 4) (hgrows.subset (by simp))
        have := (hat.read_within_iff (by decide)).mp hlast
        omega
      obtain ⟨start, env, hstart, h⟩ := displayList_eq_ok.mp hcalled
      cases start with
      | none =>
        subst h
        exact .callNone hcall hsize hstart
          (ih hrest (call_at hat hsize) (calling_reader hreader) hgood)
      | some start =>
        obtain ⟨m₁, hlist, rfl⟩ := h
        have hgood₁ : m₁.Good := by
          intro a ha
          exact hgood₂ a (by rwa [setReader_trace])
        have hwhole := ih hlist (.start start _) (setReader_reader _) hgood₁
        rw [setReader_env] at hwhole
        have hwhole' := ih hrest (call_at hat hsize)
          ((setReader_reader _).trans (calling_reader hreader)) hgood
        exact .call hcall hsize hstart hwhole (by rwa [← setReader_env] )
    · obtain ⟨accesses, stopped, hw, -, heq⟩ := turn_eq (m := m) hat hreader hcall
      rw [heq] at hturn
      obtain ⟨env, hafter, rfl⟩ := map_eq_ok.mp hturn
      by_cases hcut : m.env.CutDraw host is_preprocess (host.memory p) (p + 1) left
      · rw [if_pos hcut] at hnext
        have hm' := hnext.resolve_right (by rintro ⟨_, h, -⟩; cases h)
        cases hm'
        rw [item_draw hcut.1] at hafter
        exact .cutDraw hcut hafter
      · rw [if_neg hcut] at hnext
        obtain ⟨m₁, hm₁, hrest⟩ := hnext.resolve_left nofun
        cases hm₁
        have hgood₁ := hgood.of_prefix (run_grows hrest)
        have hsize := hw.mp fun a ha => hgood₁ a (List.mem_append_right _ ha)
        have hat' := hat.advance
          (n := 1 + (m.env.item host is_preprocess (host.memory p) (p + 1)).1) (by omega)
        rw [Nat.add_comm left 1, Nat.add_sub_add_left] at hat'
        exact .command hcall hsize hafter
          (ih hrest hat' (by rw [moved_reader, hreader]; rfl) hgood)

/-! ## calls of lists -/

theorem g_VideoData_eq (hreader : m'.reader is_preprocess = m.reader is_preprocess)
    (hother : m'.other is_preprocess = m.other is_preprocess) : m'.g_VideoData = m.g_VideoData := by
  cases is_preprocess with
  | true => exact hother
  | false => exact hreader

/-- The call of a list returns, having neither read nor executed anything beyond the end of a
list, and `g_VideoData` is as before. -/
def StaysWithin (host : Host) (is_preprocess : Bool) (address size : BitVec 32) (m : ListState) :
    Prop :=
  ∃ fuel m', displayList host (Run host is_preprocess fuel) address size { m with trace := [] }
    is_preprocess = .ok m' ∧ m'.Good ∧ m'.g_VideoData = m.g_VideoData

/-- The list that is called is made of whole commands, as are those that it calls; without a
pointer there is none. -/
def WholeCall (host : Host) (is_preprocess : Bool) (address size : BitVec 32) (env : ListEnv) :
    Prop :=
  ∃ start env', env.startAddress host is_preprocess address size = .ok (start, env') ∧
    ∀ p ∈ start, ∃ env'', WholeList host is_preprocess p size.toNat env' env''

/-- A list of one byte that loads a register, in memory that is empty behind it. -/
def cutHost : Host where
  bWii := false
  deterministic := false
  getPointer _ := some 0
  memory p := if p = 0 then 0x61 else 0
  auxEnd := 0
  syncGPU := some

def cutState : ListState := ⟨⟨LoaderState.init, 0, 0⟩, ⟨0, 0⟩, ⟨0, 0⟩, []⟩

end ListState

end DolphinCore.GX
