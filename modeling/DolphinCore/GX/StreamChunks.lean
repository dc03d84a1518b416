import DolphinCore.GX.OpcodeDecoding

/-!
# DolphinCore.GX.StreamChunks

The video buffer gets a stream 32 bytes at a time. A command that is not complete
is left unread; the one thing a draw has done by then is to look up its loader,
and it finds the same one again. So decoding after each chunk executes what
decoding the whole stream executes.
-/

namespace DolphinCore.GX

/-! ## commands do not look past their end -/

variable {data : List Byte}

theorem read32_append (h : 4 ≤ data.length) (more : List Byte) :
    read32 (data ++ more) = read32 data := by
  unfold read32
  rw [List.take_append_of_le_length h]

theorem read32_drop_append {k : Nat} (h : k + 4 ≤ data.length) (more : List Byte) :
    read32 ((data ++ more).drop k) = read32 (data.drop k) := by
  rw [List.drop_append_of_le_length (by omega)]
  exact read32_append (by rw [List.length_drop]; omega) more

theorem read16_append (h : 2 ≤ data.length) (more : List Byte) :
    read16 (data ++ more) = read16 data := by
  unfold read16
  rw [List.take_append_of_le_length h]

theorem readWords_append {n k : Nat} (h : k + 4 * n ≤ data.length) (more : List Byte) :
    readWords n ((data ++ more).drop k) = readWords n (data.drop k) := by
  refine List.map_congr_left fun i hi => ?_
  have hi := List.mem_range.mp hi
  rw [List.drop_drop, List.drop_drop]
  exact read32_drop_append (by omega) more

variable {s : Decoders} {cmd_byte : Byte} {n : Nat}

theorem finish_append (h : n ≤ data.length) (block : Option (List Byte)) (nested : List Command)
    (more : List Byte) :
    finish s cmd_byte (data ++ more) n block nested = finish s cmd_byte data n block nested := by
  unfold finish
  rw [List.take_append_of_le_length h]

/-- A command that is complete within `data` is the same with more data. -/
structure Whole (f : List Byte → Step) (data : List Byte) : Prop where
  next : ∀ {s n outs}, f data = .ok (.next s n outs) → n ≤ data.length
  same : ∀ more, f (data ++ more) = f data
  moves : ∀ s, f data ≠ .ok (.stop s)

variable {f : List Byte → Step}

theorem Whole.finish {block : Option (List Byte)} {nested : List Command} (h : n ≤ data.length)
    (hf : f data = GX.finish s cmd_byte data n block nested)
    (happ : ∀ more, f (data ++ more) = GX.finish s cmd_byte (data ++ more) n block nested) :
    Whole f data where
  next hn := by
    rw [hf] at hn
    cases hn
    exact h
  same more := by rw [happ, hf, finish_append h]
  moves s hs := by
    rw [hf] at hs
    cases hs

theorem Whole.error {e : Fault} (h : ∀ more, f (data ++ more) = .error e) : Whole f data := by
  have hf : f data = .error e := by
    have := h []
    rwa [List.append_nil] at this
  refine ⟨?_, fun more => (h more).trans hf.symm, ?_⟩
  · intro s n outs hn
    rw [hf] at hn
    cases hn
  · intro s hs
    rw [hf] at hs
    cases hs

theorem Whole.fetch {fetch : List Byte → Except Fault Fetched} (h : n ≤ data.length)
    (hf : ∀ data, f data = (fetch data).bind fun r =>
      GX.finish r.state cmd_byte data n (some r.block) r.nested)
    (happ : ∀ more, fetch (data ++ more) = fetch data) : Whole f data := by
  cases hr : fetch data with
  | error e =>
    refine .error (e := e) fun more => ?_
    rw [hf, happ, hr]
    rfl
  | ok r =>
    have hfin : ∀ data', fetch data' = .ok r →
        f data' = GX.finish r.state cmd_byte data' n (some r.block) r.nested := by
      intro data' h'
      rw [hf, h']
      rfl
    exact .finish h (hfin data hr) fun more => hfin _ ((happ more).trans hr)

/-- A checked command that stops leaves the state alone, and is whole when its bytes are
there. -/
structure StableAt (f : Decoders → List Byte → Step) : Prop where
  whole : ∀ {s data}, (∀ s', f s data ≠ .ok (.stop s')) → Whole (f s) data
  stop : ∀ {s data s'}, f s data = .ok (.stop s') → ∀ more, f s' (data ++ more) = f s (data ++ more)

theorem StableAt.checked {f : Decoders → List Byte → Step} {k : Nat}
    {body : Decoders → List Byte → Step} (hf : ∀ s data, f s data = GX.checked true s data k (body s data))
    (hbody : ∀ s data, k ≤ data.length → Whole (body s) data) : StableAt f := by
  have hshort : ∀ s (data : List Byte), data.length < k → f s data = .ok (.stop s) := by
    intro s data h
    rw [hf]
    unfold GX.checked
    rw [if_pos h]
    rfl
  have hlong : ∀ s (data : List Byte), ¬ data.length < k → f s data = body s data := by
    intro s data h
    rw [hf]
    unfold GX.checked
    rw [if_neg h]
  constructor
  · intro s data hmoves
    by_cases h : data.length < k
    · exact absurd (hshort s data h) (hmoves s)
    · have hb := hbody s data (by omega)
      have hmore : ∀ more : List Byte, ¬ (data ++ more).length < k := by
        intro more
        rw [List.length_append]
        omega
      exact ⟨fun hn => hb.next ((hlong s data h).symm.trans hn),
        fun more => by rw [hlong s _ (hmore more), hlong s _ h, hb.same], hmoves⟩
  · intro s data s' hs more
    by_cases h : data.length < k
    · rw [hshort s data h] at hs
      cases hs
      rfl
    · rw [hlong s data h] at hs
      exact absurd hs ((hbody s data (by omega)).moves s')

/-! ## each command -/

section

variable (gpu : GPU) (is_preprocess : Bool) (cmd_byte : Byte)

theorem headD_append {data : List Byte} (h : 1 ≤ data.length) (more : List Byte) :
    (data ++ more).headD 0 = data.headD 0 := by
  cases data with
  | nil => cases h
  | cons b data => rfl

theorem loadCPCommand_stable :
    StableAt fun s data => loadCPCommand gpu is_preprocess true s cmd_byte data := by
  refine .checked (fun _ _ => rfl) fun s data h => ?_
  refine .finish h rfl fun more => ?_
  simp only [headD_append (show 1 ≤ data.length by omega) more,
    read32_drop_append (show 1 + 4 ≤ data.length by omega) more]

theorem loadBPCommand_stable :
    StableAt fun s data => loadBPCommand is_preprocess true s cmd_byte data := by
  refine .checked (fun _ _ => rfl) fun s data h => ?_
  refine .finish h rfl fun more => ?_
  simp only [read32_append h more]

theorem loadIndexedCommand_stable :
    StableAt fun s data => loadIndexedCommand gpu is_preprocess true s cmd_byte data := by
  refine .checked (fun _ _ => rfl) fun s data h => ?_
  refine .fetch h (fun _ => rfl) fun more => ?_
  rw [read32_append h more]

theorem callDLCommand_stable
    (callDL : Decoders → List Byte → Except Fault (Decoders × List Command)) :
    StableAt fun s data => callDLCommand gpu is_preprocess true s cmd_byte data callDL := by
  refine .checked (fun _ _ => rfl) fun s data h => ?_
  refine .fetch h (fun _ => rfl) fun more => ?_
  rw [read32_append (by omega) more, read32_drop_append (by omega) more]

end

theorem xfWords_le (transferSize baseAddress : Nat) :
    xfWords transferSize baseAddress ≤ transferSize := by
  unfold xfWords
  split
  · split <;> omega
  · exact Nat.le_refl _

section

variable (gpu : GPU) (is_preprocess : Bool) (cmd_byte : Byte)

theorem loadXFCommand_stop {s s' : Decoders} {data : List Byte}
    (h : loadXFCommand is_preprocess true s cmd_byte data = .ok (.stop s')) : s' = s := by
  unfold loadXFCommand checked at h
  split at h
  · cases h
    rfl
  · simp only at h
    split at h
    · cases h
      rfl
    · split at h <;> split at h <;> cases h

theorem loadXFCommand_stable :
    StableAt fun s data => loadXFCommand is_preprocess true s cmd_byte data := by
  constructor
  · intro s data hmoves
    have hlen : 4 + 4 * xfTransferSize (read32 data) ≤ data.length := by
      by_contra hlt
      refine hmoves s ?_
      unfold loadXFCommand checked
      split
      · rfl
      · exact if_pos (by simpa using hlt)
    have hwords : (if is_preprocess then xfTransferSize (read32 data)
        else xfWords (xfTransferSize (read32 data)) (xfAddress (read32 data))) ≤
        xfTransferSize (read32 data) := by
      split
      · exact Nat.le_refl _
      · exact xfWords_le _ _
    generalize hn : (if is_preprocess then xfTransferSize (read32 data)
      else xfWords (xfTransferSize (read32 data)) (xfAddress (read32 data))) = n at hwords
    have heq : ∀ data' : List Byte, read32 data' = read32 data → data.length ≤ data'.length →
        loadXFCommand is_preprocess true s cmd_byte data' = finish (s.execute is_preprocess
          (.xf (xfAddress (read32 data)) (readWords n (data'.drop 4)))) cmd_byte data'
          (4 + 4 * n) none [] := by
      intro data' hread hle
      unfold loadXFCommand checked
      rw [if_neg (by omega)]
      simp only [hread, hn]
      rw [if_neg (by simp; omega), if_neg (by omega)]
    refine .finish (by omega) (heq data rfl (Nat.le_refl _)) fun more => ?_
    rw [heq (data ++ more) (read32_append (by omega) more) (by rw [List.length_append]; omega),
      readWords_append (by omega) more]
  · intro s data s' hs more
    rw [loadXFCommand_stop is_preprocess cmd_byte hs]

end

/-! ## draws -/

theorem Decoder.refreshLoader_again (s : Decoder) (map : VertexLoaderMap) (group : Fin 8) :
    (s.refreshLoader map group).1.refreshLoader (s.refreshLoader map group).2 group =
      s.refreshLoader map group := by
  have hclear : ∀ v : BitVec 32, v &&& ~~~CPState.groupBit group &&& ~~~CPState.groupBit group =
        v &&& ~~~CPState.groupBit group := fun v => by rw [BitVec.and_assoc, BitVec.and_self]
  have hbit := s.refreshLoader_clears map group
  generalize hr : s.refreshLoader map group = r at hbit
  have hcp : ({ r.1.cp with attr_dirty := r.1.cp.attr_dirty &&& ~~~CPState.groupBit group } :
      CPState) = r.1.cp := by
    have hdirty : r.1.cp.attr_dirty = s.cp.attr_dirty &&& ~~~CPState.groupBit group := by
      rw [← hr]
      unfold refreshLoader
      split <;> rfl
    rw [hdirty, hclear, ← hdirty]
  unfold refreshLoader
  simp only [hbit, hcp]
  rfl

theorem LoaderState.draw_again (s : LoaderState) (is_preprocess : Bool) (group : Fin 8)
    (count : BitVec 16) : (s.draw is_preprocess group count).draw is_preprocess group count =
      s.draw is_preprocess group count := by
  unfold LoaderState.draw
  split
  · rfl
  · cases is_preprocess with
    | true =>
      have h := s.pre.refreshLoader_again s.map group
      simp only [if_true, h]
    | false =>
      have h := s.main.refreshLoader_again s.map group
      simp only [Bool.false_eq_true, if_false, h]

section

variable (is_preprocess : Bool) (cmd_byte : Byte) (count : BitVec 16)

theorem drawVertices_stop {s s' : Decoders} {data : List Byte}
    (h : drawVertices is_preprocess s cmd_byte data count = .ok (.stop s')) : s' = s := by
  unfold drawVertices at h
  split at h
  · cases h
  · simp only at h
    split at h
    · cases h
      rfl
    · cases h

theorem drawVertices_whole {s : Decoders} {data : List Byte}
    (hmoves : ∀ s', drawVertices is_preprocess s cmd_byte data count ≠ .ok (.stop s')) :
    Whole (fun data => drawVertices is_preprocess s cmd_byte data count) data := by
  unfold drawVertices at hmoves ⊢
  cases hl : (s.decoder is_preprocess).loaders (drawGroup cmd_byte) with
  | none =>
    exact .error fun _ => rfl
  | some loader =>
    simp only [hl] at hmoves ⊢
    have hlen : 2 + count.toNat * loader.m_VertexSize ≤ data.length := by
      by_contra hlt
      exact hmoves s (if_pos (by omega))
    have hmore : ∀ more : List Byte,
        ¬ (data ++ more).length < 2 + count.toNat * loader.m_VertexSize := by
      intro more
      rw [List.length_append]
      omega
    refine .finish hlen (if_neg (by omega)) fun more => ?_
    rw [if_neg (hmore more), List.drop_append_of_le_length (by omega),
      List.take_append_of_le_length (by rw [List.length_drop]; omega)]

theorem drawCommand_stable :
    StableAt fun s data => drawCommand is_preprocess true s cmd_byte data := by
  have hshort : ∀ s (data : List Byte), data.length < 2 →
      drawCommand is_preprocess true s cmd_byte data = .ok (.stop s) := by
    intro s data h
    unfold drawCommand checked
    rw [if_pos h]
    rfl
  have hlong : ∀ s (data : List Byte), ¬ data.length < 2 →
      drawCommand is_preprocess true s cmd_byte data =
        if read16 data = 0 then finish s cmd_byte data 2 none []
        else drawVertices is_preprocess (s.drawn is_preprocess cmd_byte (read16 data)) cmd_byte data
          (read16 data) := by
    intro s data h
    unfold drawCommand checked
    rw [if_neg h]
  have hread : ∀ (data more : List Byte), ¬ data.length < 2 →
      ¬ (data ++ more).length < 2 ∧ read16 (data ++ more) = read16 data := by
    intro data more h
    exact ⟨by rw [List.length_append]; omega, read16_append (by omega) more⟩
  constructor
  · intro s data hmoves
    by_cases h : data.length < 2
    · exact absurd (hshort s data h) (hmoves s)
    · rw [hlong s data h] at hmoves
      by_cases hc : read16 data = 0
      · refine .finish (s := s) (by omega) ((hlong s data h).trans (if_pos hc)) fun more => ?_
        obtain ⟨hlen, hsame⟩ := hread data more h
        exact (hlong s _ hlen).trans (if_pos (hsame.trans hc))
      · rw [if_neg hc] at hmoves
        have hw := drawVertices_whole is_preprocess cmd_byte _ hmoves
        have heq := (hlong s data h).trans (if_neg hc)
        refine ⟨fun hn => hw.next (heq.symm.trans hn), fun more => ?_, fun s' hs' => hmoves s' ?_⟩
        · obtain ⟨hlen, hsame⟩ := hread data more h
          rw [hlong s _ hlen, hsame, if_neg hc, hw.same more, heq]
        · exact heq.symm.trans hs'
  · intro s data s' hs more
    by_cases h : data.length < 2
    · rw [hshort s data h] at hs
      cases hs
      rfl
    · rw [hlong s data h] at hs
      by_cases hc : read16 data = 0
      · rw [if_pos hc] at hs
        cases hs
      · rw [if_neg hc] at hs
        have hdrawn := drawVertices_stop is_preprocess cmd_byte _ hs
        obtain ⟨hlen, hsame⟩ := hread data more h
        have hagain : s'.drawn is_preprocess cmd_byte (read16 data) =
            s.drawn is_preprocess cmd_byte (read16 data) := by
          rw [hdrawn]
          unfold Decoders.drawn
          simp only [LoaderState.draw_again]
        rw [hlong s' _ hlen, hlong s _ hlen, hsame, if_neg hc, if_neg hc, hagain]

end

/-! ## the decoder -/

theorem nop_stable (cmd_byte : Byte) : StableAt fun s data => finish s cmd_byte data 0 none [] where
  whole := fun {_ data} _ => .finish (Nat.zero_le data.length) rfl fun _ => rfl
  stop h := by cases h

theorem command_stableAt (gpu : GPU) (is_preprocess : Bool)
    (callDL : Decoders → List Byte → Except Fault (Decoders × List Command)) (cmd_byte : Byte) :
    StableAt fun s data => command gpu is_preprocess true s cmd_byte data callDL := by
  unfold command
  split
  · exact nop_stable cmd_byte
  · exact nop_stable cmd_byte
  · exact nop_stable cmd_byte
  · exact nop_stable cmd_byte
  · exact loadCPCommand_stable gpu is_preprocess cmd_byte
  · exact loadXFCommand_stable is_preprocess cmd_byte
  · exact loadIndexedCommand_stable gpu is_preprocess cmd_byte
  · exact loadIndexedCommand_stable gpu is_preprocess cmd_byte
  · exact loadIndexedCommand_stable gpu is_preprocess cmd_byte
  · exact loadIndexedCommand_stable gpu is_preprocess cmd_byte
  · exact callDLCommand_stable gpu is_preprocess cmd_byte callDL
  · exact loadBPCommand_stable is_preprocess cmd_byte
  · split
    · exact drawCommand_stable is_preprocess cmd_byte
    · exact nop_stable cmd_byte

theorem command_whole {gpu : GPU} {is_preprocess : Bool}
    {callDL : Decoders → List Byte → Except Fault (Decoders × List Command)}
    (h : ∀ s', command gpu is_preprocess true s cmd_byte data callDL ≠ .ok (.stop s')) :
    Whole (fun data => command gpu is_preprocess true s cmd_byte data callDL) data :=
  (command_stableAt gpu is_preprocess callDL cmd_byte).whole h

/-- **Commands can wait**: an incomplete command is executed later as if it were seen for the
first time. -/
theorem command_stable (gpu : GPU) (is_preprocess : Bool)
    (callDL : Decoders → List Byte → Except Fault (Decoders × List Command)) :
    DecodeStable fun s cmd_byte data => command gpu is_preprocess true s cmd_byte data callDL where
  next {s cmd_byte data s' n outs} h := by
    have hw := command_whole fun s'' hs => by
      rw [h] at hs
      cases hs
    exact ⟨hw.next h, fun more => (hw.same more).trans h⟩
  error {s cmd_byte data e} h more := by
    have hw := command_whole fun s'' hs => by
      rw [h] at hs
      cases hs
    exact (hw.same more).trans h
  stop {s cmd_byte data s'} h more :=
    (command_stableAt gpu is_preprocess callDL cmd_byte).stop h more

/-! ## the video buffer -/

section

variable (gpu : GPU) (depth : Nat)

/-- `ReadDataFromFifo`: a block is dropped where the buffer has no room for it. -/
def readDataFromFifo (unread block : List Byte) : List Byte :=
  if FIFO_SIZE < unread.length + block.length then unread else unread ++ block

/-- Each block is read, and then the decoder runs on what is unread. -/
def runBlocks (r : Decoded Decoders Byte Command) :
    List (List Byte) → Except Fault (Decoded Decoders Byte Command)
  | [] => .ok r
  | block :: blocks =>
    match run gpu depth false r.state (readDataFromFifo r.unread block) with
    | .error e => .error e
    | .ok r' => runBlocks (r'.prepend r.outs) blocks

/-- There is room for every block. -/
def NoneDropped (r : Decoded Decoders Byte Command) : List (List Byte) → Prop
  | [] => True
  | block :: blocks =>
    r.unread.length + block.length ≤ FIFO_SIZE ∧
      ∀ r', run gpu depth false r.state (r.unread ++ block) = .ok r' →
        NoneDropped (r'.prepend r.outs) blocks

variable {gpu depth}

theorem runBlocks_eq_decodePieces (blocks : List (List Byte)) :
    ∀ r, NoneDropped gpu depth r blocks → runBlocks gpu depth r blocks =
      decodePieces (fun s cmd_byte data =>
        command gpu false true s cmd_byte data (runDL gpu false depth)) r blocks := by
  induction blocks with
  | nil => exact fun _ _ => rfl
  | cons block blocks ih =>
    intro r ⟨hroom, hrest⟩
    unfold runBlocks decodePieces readDataFromFifo
    rw [if_neg (Nat.not_lt.mpr hroom)]
    cases hr : run gpu depth false r.state (r.unread ++ block) with
    | error e =>
      have hd : decode _ r.state (r.unread ++ block) = .error e := hr
      simp only [hd]
    | ok r' =>
      have hd : decode _ r.state (r.unread ++ block) = .ok r' := hr
      simp only [hd]
      exact ih _ (hrest r' hr)

/-- **A stream in blocks**: as long as the buffer has room for every block, decoding after each
block does what decoding the whole stream at once does: the same registers, the same log of
loads and draws, the same bytes left unread. -/
theorem runBlocks_eq_run {s : Decoders} {blocks : List (List Byte)}
    (h : NoneDropped gpu depth ⟨s, [], []⟩ blocks) :
    runBlocks gpu depth ⟨s, [], []⟩ blocks = run gpu depth false s blocks.flatten := by
  rw [runBlocks_eq_decodePieces blocks _ h,
    decodePieces_eq (command_stable gpu false (runDL gpu false depth)) blocks ⟨s, [], []⟩ decode_nil]
  show (run gpu depth false s ([] ++ blocks.flatten)).map (Decoded.prepend []) = _
  rw [List.nil_append]
  cases run gpu depth false s blocks.flatten <;> rfl

theorem noneDropped_of_length (blocks : List (List Byte)) :
    ∀ r, r.unread.length + blocks.flatten.length ≤ FIFO_SIZE → NoneDropped gpu depth r blocks := by
  induction blocks with
  | nil => exact fun _ _ => trivial
  | cons block blocks ih =>
    intro r h
    rw [List.flatten_cons, List.length_append] at h
    refine ⟨by omega, fun r' hr => ih _ ?_⟩
    have hle := decode_unread_length_le hr
    rw [List.length_append] at hle
    show r'.unread.length + _ ≤ _
    omega

end

/-- A GPU without memory. -/
def noMemory : GPU := ⟨false, false, fun _ => none⟩

/-- A BP register whose load begins in one block and ends in the next. -/
theorem runBlocks_eq_run_split : runBlocks noMemory 0 ⟨⟨.init, [], []⟩, [], []⟩
        [List.replicate 30 0 ++ [0x61, 0x49], [0x00, 0x40, 0x00] ++ List.replicate 29 0] =
      run noMemory 0 false ⟨.init, [], []⟩
        [List.replicate 30 0 ++ [0x61, 0x49], [0x00, 0x40, 0x00] ++ List.replicate 29 0].flatten :=
  runBlocks_eq_run (noneDropped_of_length _ _ (by decide))

/-! ## a draw that does not fit -/

/-- Vertices with three direct normals, of 36 bytes. -/
def threeNormals : Decoders :=
  ⟨{ LoaderState.init with
      main := ⟨{ CPState.zero with
        vtx_desc := ⟨0x800⟩, vtx_attr := fun _ => ⟨0x1200, 0, 0⟩, attr_dirty := 0xff },
        fun _ => none⟩ }, [], []⟩

/-- A draw of 65535 vertices and the first bytes of them. -/
def longDraw (n : Nat) : List Byte := 0x80 :: 0xff :: 0xff :: List.replicate n 0

/-- The state once the draw was looked at. -/
def threeNormalsDrawn : Decoders := threeNormals.drawn false 0x80 0xffff

theorem threeNormals_size : (VertexLoader.create ⟨0x800⟩ ⟨0x1200, 0, 0⟩).m_VertexSize = 36 := by
  decide

theorem command_draw (gpu : GPU) (s : Decoders) (data : List Byte)
    (callDL : Decoders → List Byte → Except Fault (Decoders × List Command)) :
    command gpu false true s 0x80 data callDL = drawCommand false true s 0x80 data := rfl

theorem longDraw_command (hs : s.drawn false 0x80 0xffff = threeNormalsDrawn) (n : Nat) :
    command noMemory false true s 0x80 (0xff :: 0xff :: List.replicate n 0) (runDL noMemory false 0) =
      drawVertices false threeNormalsDrawn 0x80 (0xff :: 0xff :: List.replicate n 0) 0xffff := by
  have hread : read16 (0xff :: 0xff :: List.replicate n 0) = 0xffff := by
    have htake : (0xff :: 0xff :: List.replicate n 0 : List Byte).take 2 = [0xff, 0xff] := rfl
    unfold read16
    rw [htake]
    decide
  rw [command_draw]
  unfold drawCommand checked
  simp only [hread, hs]
  rfl

theorem longDraw_loader : (threeNormalsDrawn.decoder false).loaders (drawGroup 0x80) =
      some (VertexLoader.create ⟨0x800⟩ ⟨0x1200, 0, 0⟩) := rfl

theorem longDraw_stop (hs : s.drawn false 0x80 0xffff = threeNormalsDrawn) (h : n < 65535 * 36) :
    run noMemory 0 false s (longDraw n) = .ok ⟨threeNormalsDrawn, longDraw n, []⟩ := by
  refine decode_of_stop ?_
  rw [longDraw_command hs]
  refine if_pos ?_
  rw [List.length_cons, List.length_cons, List.length_replicate]
  show n + 2 < 2 + 65535 * 36
  omega

theorem longDraw_run (h : 65535 * 36 ≤ n) {r : Decoded Decoders Byte Command}
    (hr : run noMemory 0 false threeNormals (longDraw n) = .ok r) : r.outs ≠ [] := by
  have hnext : ∃ s outs, command noMemory false true threeNormals 0x80
      (0xff :: 0xff :: List.replicate n 0) (runDL noMemory false 0) =
        .ok (.next s (2 + 65535 * 36) outs) ∧ outs ≠ [] := by
    rw [longDraw_command rfl]
    unfold drawVertices
    simp only [longDraw_loader, threeNormals_size]
    rw [if_neg ?_]
    · exact ⟨_, _, rfl, List.cons_ne_nil _ _⟩
    · rw [List.length_cons, List.length_cons, List.length_replicate]
      omega
  obtain ⟨s, outs, hc, hne⟩ := hnext
  have hrun : run noMemory 0 false threeNormals (longDraw n) = _ := decode_of_next hc
  rw [hrun] at hr
  generalize decode _ s _ = rest at hr
  cases rest with
  | error e => cases hr
  | ok r' =>
    cases hr
    exact List.append_ne_nil_of_left_ne_nil hne _

theorem longDraw_append (n k : Nat) : longDraw n ++ List.replicate k 0 = longDraw (n + k) := by
  unfold longDraw
  rw [List.cons_append, List.cons_append, List.cons_append, List.replicate_append_replicate]

theorem length_longDraw (n : Nat) : (longDraw n).length = n + 3 := by
  unfold longDraw
  simp only [List.length_cons, List.length_replicate]

theorem runBlocks_longDraw (k : Nat) : ∀ {s : Decoders} {n : Nat},
    s.drawn false 0x80 0xffff = threeNormalsDrawn → (longDraw n).length ≤ FIFO_SIZE →
    ∃ r, runBlocks noMemory 0 ⟨s, longDraw n, []⟩ (List.replicate k (List.replicate 32 0)) =
      .ok r ∧ r.outs = [] := by
  induction k with
  | zero => exact fun _ _ => ⟨_, rfl, rfl⟩
  | succ k ih =>
    intro s n hs hn
    have hagain : threeNormalsDrawn.drawn false 0x80 0xffff = threeNormalsDrawn := rfl
    have hread : ∃ m, readDataFromFifo (longDraw n) (List.replicate 32 0) = longDraw m ∧
        (longDraw m).length ≤ FIFO_SIZE := by
      unfold readDataFromFifo
      split
      · exact ⟨n, rfl, hn⟩
      · next hroom =>
        refine ⟨n + 32, longDraw_append n 32, ?_⟩
        rw [length_longDraw, List.length_replicate] at hroom
        rw [length_longDraw]
        omega
    obtain ⟨m, hm, hlen⟩ := hread
    have hsmall : m < 65535 * 36 := by
      rw [length_longDraw] at hlen
      unfold FIFO_SIZE at hlen
      omega
    rw [List.replicate_succ, runBlocks, hm, longDraw_stop hs hsmall]
    exact ih hagain hlen

/-- A draw of more bytes than the buffer holds is executed when the stream is decoded as a
whole; with blocks of 32 bytes its last blocks are dropped and it never is. -/
theorem runBlocks_drops : runBlocks noMemory 0 ⟨threeNormals, [], []⟩
        (longDraw 29 :: List.replicate 73727 (List.replicate 32 0)) ≠
      run noMemory 0 false threeNormals
        (longDraw 29 :: List.replicate 73727 (List.replicate 32 0)).flatten := by
  intro heq
  have hflat : (longDraw 29 :: List.replicate 73727 (List.replicate 32 0)).flatten =
      longDraw (29 + 73727 * 32) := by
    rw [List.flatten_cons, List.flatten_replicate_replicate]
    exact longDraw_append 29 (73727 * 32)
  have hfirst : run noMemory 0 false threeNormals (readDataFromFifo [] (longDraw 29)) =
      .ok ⟨threeNormalsDrawn, longDraw 29, []⟩ := by
    have hread : readDataFromFifo [] (longDraw 29) = longDraw 29 := if_neg (by decide)
    rw [hread]
    exact longDraw_stop rfl (by decide)
  obtain ⟨r, hr, houts⟩ := runBlocks_longDraw 73727 (s := threeNormalsDrawn) (n := 29) rfl
    (by decide)
  rw [hflat, runBlocks, hfirst] at heq
  exact longDraw_run (by decide) (heq.symm.trans hr) houts

end DolphinCore.GX
