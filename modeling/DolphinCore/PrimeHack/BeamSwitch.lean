import DolphinCore.Lib.FinLiteral
import Mathlib.Data.Fintype.Pi
import Mathlib.Data.Fin.VecNotation

/-!
# DolphinCore.PrimeHack.BeamSwitch

The switch of beams: which of them are owned is kept by their places in the menu, and the current
beam is a place for the buttons that go through the menu, but a beam's number for those of single
beams.  The two are the same in one game and not in the other.
-/

namespace DolphinCore.PrimeHack

namespace BeamSwitch

/-! ## the code -/

/-- The games that have beams. -/
inductive Menu
  | prime_one_beams
  | prime_two_beams
  deriving DecidableEq, Repr

/-- The numbers of the beams in the order of the menu. -/
def Menu.beams : Menu → Fin 4 → Fin 4
  | .prime_one_beams => ![0, 2, 1, 3]
  | .prime_two_beams => ![0, 1, 2, 3]

/-- The variables of `PrimeUtils.cpp`, and the one of `get_beam_switch`. -/
structure Statics where
  beam_owned : Fin 4 → Bool
  current_beam : Fin 4
  pressing_button : Bool

def Statics.init : Statics := ⟨fun _ => false, 0, false⟩

/-- The controls of a frame: `CheckBeamCtl`, and `CheckBeamScrollCtl` of both directions. -/
structure Controls where
  beam : Fin 4 → Bool
  next : Bool
  previous : Bool

/-- A control for one beam, or for the next or the previous one. -/
inductive Control
  | beam (n : Fin 4)
  | scroll (forward : Bool)
  deriving DecidableEq, Repr

/-- The first control that is held. -/
def Controls.held (c : Controls) : Option Control :=
  if c.beam 0 then some (.beam 0)
  else if c.beam 1 then some (.beam 1)
  else if c.beam 2 then some (.beam 2)
  else if c.beam 3 then some (.beam 3)
  else if c.next then some (.scroll true)
  else if c.previous then some (.scroll false)
  else none

/-- The loop that looks for a beam that is owned. -/
def scrollLoop (owned : Fin 4 → Bool) (d : Fin 4) : Nat → Fin 4 → Fin 4
  | 0, current => current
  | i + 1, current =>
    if owned (current + d) then current + d else scrollLoop owned d i (current + d)

def scroll (owned : Fin 4 → Bool) (forward : Bool) (current : Fin 4) : Fin 4 :=
  scrollLoop owned (if forward then 1 else 3) 4 current

/-- What a control does when it is pressed. -/
def press (beams : Fin 4 → Fin 4) (s : Statics) : Control → Option (Fin 4) × Statics
  | .beam n =>
    if s.beam_owned (beams n) then (some (beams n), { s with current_beam := beams n }) else (none, s)
  | .scroll forward =>
    let current_beam := scroll s.beam_owned forward s.current_beam
    (some (beams current_beam), { s with current_beam := current_beam })

/-- `get_beam_switch`; -1 is `none`. -/
def getBeamSwitch (beams : Fin 4 → Fin 4) (c : Controls) (s : Statics) : Option (Fin 4) × Statics :=
  match c.held with
  | none => (none, { s with pressing_button := false })
  | some control =>
    if s.pressing_button then (none, s)
    else press beams { s with pressing_button := true } control

/-- What a frame reads: the controls, and how much there is of each beam. -/
structure BeamFrame where
  controls : Controls
  powerups : Fin 4 → BitVec 32

/-- The loop of `handle_beam_visor_switch` over the places of the menu. -/
def setBeamOwned (beams : Fin 4 → Fin 4) (powerups : Fin 4 → BitVec 32) (s : Statics) : Statics :=
  { s with beam_owned := fun i => powerups (beams i) ≠ 0 }

/-- `handle_beam_visor_switch`, and the beam that it gets. -/
def frame (menu : Menu) (f : BeamFrame) (s : Statics) : Option (Fin 4) × Statics :=
  getBeamSwitch menu.beams f.controls (setBeamOwned menu.beams f.powerups s)

/-! ## what is claimed -/

/-- The beams that are switched to in some frames. -/
def switches (menu : Menu) : Statics → List BeamFrame → List (Fin 4)
  | _, [] => []
  | s, f :: frames => (frame menu f s).1.toList ++ switches menu (frame menu f s).2 frames

/-- Frames in which the control for the next beam is pressed some times. -/
def nextPresses (powerups : Fin 4 → BitVec 32) : Nat → List BeamFrame
  | 0 => []
  | n + 1 => ⟨⟨fun _ => false, false, false⟩, powerups⟩ ::
      ⟨⟨fun _ => false, true, false⟩, powerups⟩ :: nextPresses powerups n

/-- The beams that are owned, in the order of the menu behind a place. -/
def ownedBehind (menu : Menu) (powerups : Fin 4 → BitVec 32) (place : Fin 4) : List (Fin 4) :=
  ([place + 1, place + 2, place + 3, place].map menu.beams).filter fun b => powerups b ≠ 0

/-- From the selected beam on, the control for the next one goes through all that are owned before
it comes to one again. -/
def InOrder (menu : Menu) (s : Statics) (selected : Option (Fin 4)) : Prop :=
  ∀ place, selected = some (menu.beams place) → ∀ powerups,
    switches menu s (nextPresses powerups (ownedBehind menu powerups place).length) =
      ownedBehind menu powerups place

/-- What is remembered of a run: the last beam that was switched to, and whether there was a switch
since no control was held. -/
structure History where
  selected : Option (Fin 4)
  switched : Bool

def History.none : History := ⟨.none, false⟩

def History.frame (g : History) (f : BeamFrame) (result : Option (Fin 4)) : History where
  selected := result.or g.selected
  switched := f.controls.held.isSome && (g.switched || result.isSome)

/-- A beam that is switched to is owned, and it is the only one while controls are held. -/
structure FrameOk (g : History) (f : BeamFrame) (result : Option (Fin 4)) : Prop where
  owned : ∀ b, result = some b → f.powerups b ≠ 0
  once : result ≠ .none → g.switched = false

/-- All frames of a run do what is claimed. -/
def Behaves (menu : Menu) : Statics → History → List BeamFrame → Prop
  | s, g, [] => InOrder menu s g.selected
  | s, g, f :: frames => InOrder menu s g.selected ∧ FrameOk g f (frame menu f s).1 ∧
    Behaves menu (frame menu f s).2 (g.frame f (frame menu f s).1) frames

/-- A control that is pressed is for a beam whose number is its place in the menu, if it switches at
all; or it goes through the menu and a beam is owned. -/
def Plain (menu : Menu) (s : Statics) (f : BeamFrame) : Prop :=
  s.pressing_button = false → match f.controls.held with
    | none => True
    | some (.beam n) => f.powerups (menu.beams (menu.beams n)) ≠ 0 → menu.beams n = n
    | some (.scroll _) => ∃ i, f.powerups i ≠ 0

def AllPlain (menu : Menu) : Statics → List BeamFrame → Prop
  | _, [] => True
  | s, f :: frames => Plain menu s f ∧ AllPlain menu (frame menu f s).2 frames

/-! ## going through the menu -/

/-- The places that the control for the next beam comes to. -/
def goThrough (owned : Fin 4 → Bool) : Nat → Fin 4 → List (Fin 4)
  | 0, _ => []
  | n + 1, current => scroll owned true current :: goThrough owned n (scroll owned true current)

theorem goThrough_eq : ∀ (owned : Fin 4 → Bool) (place : Fin 4),
    goThrough owned ([place + 1, place + 2, place + 3, place].filter owned).length place =
      [place + 1, place + 2, place + 3, place].filter owned := by
  decide

theorem owned_scroll_iff : ∀ (owned : Fin 4 → Bool) (forward : Bool) (current : Fin 4),
    owned (scroll owned forward current) = true ↔ ∃ i, owned i = true := by
  decide

variable {menu : Menu} {s : Statics} {g : History} {f : BeamFrame}

/-- Which places have a beam that is owned. -/
def ownedPlaces (menu : Menu) (powerups : Fin 4 → BitVec 32) (i : Fin 4) : Bool :=
  powerups (menu.beams i) ≠ 0

theorem switches_nextPresses (powerups : Fin 4 → BitVec 32) (n : Nat) (s : Statics) :
    switches menu s (nextPresses powerups n) =
      (goThrough (ownedPlaces menu powerups) n s.current_beam).map menu.beams := by
  induction n generalizing s with
  | zero => rfl
  | succ n ih =>
    rw [nextPresses, switches, switches, ih]
    rfl

theorem ownedBehind_eq (powerups : Fin 4 → BitVec 32) (place : Fin 4) :
    ownedBehind menu powerups place =
      ([place + 1, place + 2, place + 3, place].filter (ownedPlaces menu powerups)).map
        menu.beams := by
  unfold ownedBehind
  rw [List.filter_map]
  rfl

theorem beams_injective (menu : Menu) : Function.Injective menu.beams := by
  cases menu <;> decide

theorem beams_beams (menu : Menu) (i : Fin 4) : menu.beams (menu.beams i) = i := by
  cases menu <;> revert i <;> decide

theorem inOrder_iff {place : Fin 4} :
    InOrder menu s (some (menu.beams place)) ↔ s.current_beam = place := by
  constructor
  · intro h
    have hall := h place rfl fun _ => 1
    rw [switches_nextPresses, ownedBehind_eq] at hall
    have hfirst := congrArg List.head? (List.map_injective_iff.mpr (beams_injective menu) hall)
    have hplace : ∀ place current : Fin 4,
        some (current + 1) = some (place + 1) → current = place := by decide
    exact hplace _ _ hfirst
  · intro hcurrent place' hplace powerups
    obtain rfl := beams_injective menu (Option.some.inj hplace)
    rw [switches_nextPresses, ownedBehind_eq, List.length_map, hcurrent, goThrough_eq]

theorem inOrder_none : InOrder menu s none := fun _ h => by cases h

theorem inOrder_congr {s' : Statics} {selected : Option (Fin 4)}
    (h : s'.current_beam = s.current_beam) :
    InOrder menu s' selected ↔ InOrder menu s selected := by
  cases selected with
  | none => exact iff_of_true inOrder_none inOrder_none
  | some b => rw [← beams_beams menu b, inOrder_iff, inOrder_iff, h]

/-! ## a frame -/

/-- A switch is remembered while a control is held, and so is that one was pressed. -/
def Remembers (s : Statics) (g : History) : Prop :=
  g.switched = true → s.pressing_button = true

variable (menu) in
theorem frame_of_not_pressed (h : f.controls.held = none ∨ s.pressing_button = true) :
    (frame menu f s).1 = none ∧ (frame menu f s).2.current_beam = s.current_beam := by
  unfold frame getBeamSwitch
  cases hheld : f.controls.held with
  | none => exact ⟨rfl, rfl⟩
  | some control =>
    have hpressing := h.resolve_left (by rw [hheld]; exact nofun)
    dsimp only
    rw [if_pos (show (setBeamOwned menu.beams f.powerups s).pressing_button = true from hpressing)]
    exact ⟨rfl, rfl⟩

theorem remembers_frame : Remembers (frame menu f s).2 (g.frame f (frame menu f s).1) := by
  intro hswitched
  unfold History.frame at hswitched
  unfold frame getBeamSwitch
  cases hheld : f.controls.held with
  | none =>
    rw [hheld] at hswitched
    cases hswitched
  | some control =>
    dsimp only
    split
    · assumption
    · cases control with
      | beam n =>
        unfold press
        dsimp only
        split <;> rfl
      | scroll forward => rfl

theorem frame_of_pressed {control : Control} (hheld : f.controls.held = some control)
    (h : s.pressing_button = false) : frame menu f s =
      press menu.beams { setBeamOwned menu.beams f.powerups s with pressing_button := true }
        control := by
  unfold frame getBeamSwitch
  rw [hheld]
  dsimp only
  rw [if_neg]
  exact fun hpressing => Bool.false_ne_true (h.symm.trans hpressing)

theorem press_beam_iff (n : Fin 4) (honce : g.switched = false)
    (horder : InOrder menu s g.selected) :
    let r := press menu.beams { setBeamOwned menu.beams f.powerups s with pressing_button := true }
      (.beam n)
    FrameOk g f r.1 ∧ InOrder menu r.2 (g.frame f r.1).selected ↔
      (f.powerups (menu.beams (menu.beams n)) ≠ 0 → menu.beams n = n) := by
  dsimp only [press, setBeamOwned]
  by_cases howned : f.powerups (menu.beams (menu.beams n)) = 0
  · rw [if_neg (by simpa using howned)]
    refine iff_of_true ⟨⟨nofun, fun h => absurd rfl h⟩, ?_⟩ fun h => absurd howned h
    refine (inOrder_congr (s := s) ?_).mpr ?_
    · rfl
    · exact horder
  · rw [if_pos (by simpa using howned), forall_prop_of_true howned]
    constructor
    · exact fun h => inOrder_iff.mp h.2
    · intro hplace
      refine ⟨⟨fun b hb => ?_, fun _ => honce⟩, inOrder_iff.mpr hplace⟩
      obtain rfl := Option.some.inj hb
      rwa [hplace] at howned

theorem press_scroll_iff (forward : Bool) (honce : g.switched = false) :
    let r := press menu.beams { setBeamOwned menu.beams f.powerups s with pressing_button := true }
      (.scroll forward)
    FrameOk g f r.1 ∧ InOrder menu r.2 (g.frame f r.1).selected ↔ ∃ i, f.powerups i ≠ 0 := by
  have hplaces : (∃ i, f.powerups i ≠ 0) ↔ ∃ i, ownedPlaces menu f.powerups i = true := by
    refine ⟨fun ⟨i, hi⟩ => ⟨menu.beams i, ?_⟩, fun ⟨i, hi⟩ => ⟨menu.beams i, of_decide_eq_true hi⟩⟩
    exact decide_eq_true (by rwa [beams_beams])
  rw [hplaces, ← owned_scroll_iff _ forward s.current_beam]
  constructor
  · exact fun h => decide_eq_true (h.1.owned _ rfl)
  · intro howned
    refine ⟨⟨fun b hb => ?_, fun _ => honce⟩, inOrder_iff.mpr rfl⟩
    obtain rfl := Option.some.inj hb
    exact of_decide_eq_true howned

/-- **A frame does what is claimed**, and leaves the menu in order, exactly if it is plain. -/
theorem frame_iff (horder : InOrder menu s g.selected) (hremembers : Remembers s g) :
    FrameOk g f (frame menu f s).1 ∧
        InOrder menu (frame menu f s).2 (g.frame f (frame menu f s).1).selected ↔
      Plain menu s f := by
  by_cases hidle : f.controls.held = none ∨ s.pressing_button = true
  · obtain ⟨hresult, hcurrent⟩ := frame_of_not_pressed menu hidle
    refine iff_of_true ⟨⟨?_, ?_⟩, ?_⟩ fun hpressing => ?_
    · rw [hresult]; exact nofun
    · rw [hresult]; exact fun h => absurd rfl h
    · rw [hresult]
      exact (inOrder_congr hcurrent).mpr horder
    · obtain hheld | hpressed := hidle
      · rw [hheld]
        trivial
      · rw [hpressed] at hpressing
        cases hpressing
  · obtain ⟨hheld, hpressing⟩ := not_or.mp hidle
    have hpressing := Bool.eq_false_of_not_eq_true hpressing
    have honce : g.switched = false := by
      cases hswitched : g.switched with
      | false => rfl
      | true => rw [hremembers hswitched] at hpressing; cases hpressing
    obtain ⟨control, hcontrol⟩ := Option.ne_none_iff_exists'.mp hheld
    rw [frame_of_pressed hcontrol hpressing]
    unfold Plain
    rw [hcontrol, forall_prop_of_true hpressing]
    cases control with
    | beam n => exact press_beam_iff n honce horder
    | scroll forward => exact press_scroll_iff forward honce

/-! ## runs -/

theorem Behaves.inOrder {frames : List BeamFrame} (h : Behaves menu s g frames) :
    InOrder menu s g.selected := by
  cases frames with
  | nil => exact h
  | cons => exact h.1

theorem behaves_iff_of_remembers (frames : List BeamFrame) (horder : InOrder menu s g.selected)
    (hremembers : Remembers s g) : Behaves menu s g frames ↔ AllPlain menu s frames := by
  induction frames generalizing s g with
  | nil => exact iff_of_true horder trivial
  | cons f frames ih =>
    have hframe := frame_iff (f := f) horder hremembers
    constructor
    · intro ⟨_, hok, hrest⟩
      exact ⟨hframe.mp ⟨hok, hrest.inOrder⟩, (ih hrest.inOrder remembers_frame).mp hrest⟩
    · intro ⟨hplain, hrest⟩
      obtain ⟨hok, horder'⟩ := hframe.mpr hplain
      exact ⟨horder, hok, (ih horder' remembers_frame).mpr hrest⟩

/-- **A run does what is claimed** exactly if every control that is pressed in it is plain. -/
theorem beams_behave_iff (menu : Menu) (s : Statics) (frames : List BeamFrame) :
    Behaves menu s .none frames ↔ AllPlain menu s frames :=
  behaves_iff_of_remembers frames inOrder_none nofun

/-- The second control, while only the ice beam is owned. -/
def secondControl : BeamFrame := ⟨⟨fun n => n == 1, false, false⟩, ![0, 1, 0, 0]⟩

/-- It switches to the wave beam, which is not. -/
theorem not_behaves_secondControl : ¬ Behaves .prime_one_beams .init .none [secondControl] :=
  fun h => absurd (h.2.1.owned 2 rfl) (by decide)

end BeamSwitch

end DolphinCore.PrimeHack
