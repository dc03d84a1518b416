import DolphinCore.PrimeHack.HackManager
import Mathlib.Logic.Function.Basic

/-!
# DolphinCore.PrimeHack.AddressDB

`AddressDB.cpp`: the addresses of a game's variables in its regions, and the dynamic ones, which are
found by following pointers from another variable.  How the source of a dynamic variable is found is
remembered for the variable, not for the region.
-/

namespace DolphinCore.PrimeHack

/-! ## the code -/

structure RegionTriple where
  ntsc_u : BitVec 32
  pal : BitVec 32
  ntsc_j : BitVec 32
  deriving DecidableEq, Repr

/-- The `std::get` of a region. -/
def RegionTriple.get (t : RegionTriple) : Region → Option (BitVec 32)
  | .NTSC_U => some t.ntsc_u
  | .PAL => some t.pal
  | .NTSC_J => some t.ntsc_j
  | .INVALID_REGION => none

structure DynamicVariable where
  source_var : String
  source_var_dynamic : Bool
  offset_list : List RegionTriple
  deriving DecidableEq, Repr

structure AddressDB where
  addr_mapping : Game → String → Option RegionTriple
  dyn_addr_mapping : Game → String → Option DynamicVariable

/-- The games that the constructor makes maps for. -/
def mappedGames : List Game :=
  [.PRIME_1, .PRIME_2, .PRIME_3, .PRIME_1_GCN, .PRIME_2_GCN, .PRIME_3_STANDALONE]

def memCheck (address : BitVec 32) : Bool := 0x80000000 ≤ address && address < 0x81800000

namespace AddressDB

def new : AddressDB := ⟨fun _ _ => none, fun _ _ => none⟩

def registerAddress (db : AddressDB) (game : Game) (name : String) (addresses : RegionTriple) :
    AddressDB :=
  if game ∈ mappedGames then
    let vars := Function.update (db.addr_mapping game) name (some addresses)
    { db with addr_mapping := Function.update db.addr_mapping game vars }
  else db

/-- A dynamic variable is entered, or changed. -/
def setVariable (db : AddressDB) (game : Game) (name : String) (v : DynamicVariable) : AddressDB :=
  let vars := Function.update (db.dyn_addr_mapping game) name (some v)
  { db with dyn_addr_mapping := Function.update db.dyn_addr_mapping game vars }

/-- `register_dynamic_address`, which leaves a variable that is there as it is. -/
def registerDynamicAddress (db : AddressDB) (game : Game) (name source_var : String)
    (offsets : List RegionTriple) : AddressDB :=
  if game ∈ mappedGames ∧ db.dyn_addr_mapping game name = none then
    db.setVariable game name ⟨source_var, false, offsets⟩
  else db

def lookupAddress (db : AddressDB) (game : Game) (region : Region) (name : String) : BitVec 32 :=
  match db.addr_mapping game name with
  | none => 0
  | some addresses => (addresses.get region).getD 0

/-- The loop over the offsets and the addition of the last one.  The bound of the loop is one less
than the number of offsets, so where there are none it reads the first one all the same, unless the
region stops it; such a read has no value. -/
def followOffsets (memory : Memory) (region : Region) : BitVec 32 → List RegionTriple →
    Option (BitVec 32)
  | _, [] => if region = .INVALID_REGION then some 0 else none
  | result_addr, [offset] => some (((offset.get region).map (result_addr + ·)).getD 0)
  | result_addr, offset :: offsets =>
    match offset.get region with
    | none => some 0
    | some offset =>
      let result_addr := memory (result_addr + offset)
      if memCheck result_addr then followOffsets memory region result_addr offsets else some 0

/-- A dynamic variable whose source has been found: 0 is none. -/
def finish (memory : Memory) (region : Region) (result_addr : BitVec 32)
    (offsets : List RegionTriple) : Option (BitVec 32) :=
  if result_addr = 0 then some 0 else followOffsets memory region result_addr offsets

/-- `lookup_dynamic_address`, with a bound for the depth of the recursion. -/
def lookupDynamicAddress (game : Game) (region : Region) (memory : Memory) :
    Nat → AddressDB → String → Option (BitVec 32 × AddressDB)
  | 0, _, _ => none
  | fuel + 1, db, name =>
    match db.dyn_addr_mapping game name with
    | none => some (0, db)
    | some v =>
      let addr := db.lookupAddress game region v.source_var
      if v.source_var_dynamic = false ∧ addr ≠ 0 then
        (finish memory region addr v.offset_list).map fun result => (result, db)
      else
        (lookupDynamicAddress game region memory fuel db v.source_var).bind
          fun (result_addr, db) =>
            (finish memory region result_addr v.offset_list).map fun result =>
              (result, if result_addr = 0 then db
                else db.setVariable game name { v with source_var_dynamic := true })

end AddressDB

/-- A call that registers an address. -/
inductive Registration
  | address (game : Game) (name : String) (addresses : RegionTriple)
  | dynamicAddress (game : Game) (name source_var : String) (offsets : List RegionTriple)

def AddressDB.register (db : AddressDB) : Registration → AddressDB
  | .address game name addresses => db.registerAddress game name addresses
  | .dynamicAddress game name source_var offsets =>
    db.registerDynamicAddress game name source_var offsets

/-- The database that is built by some calls. -/
def AddressDB.build (calls : List Registration) : AddressDB := calls.foldl .register .new

/-- A call of `lookup_dynamic_address`, and the memory at that time. -/
structure Query where
  game : Game
  region : Region
  name : String
  memory : Memory

/-- What a call returns, and what it leaves. -/
def AddressDB.Returns (db : AddressDB) (q : Query) (result : BitVec 32) (db' : AddressDB) : Prop :=
  ∃ fuel, lookupDynamicAddress q.game q.region q.memory fuel db q.name = some (result, db')

/-! ## addresses -/

/-- The variable that a dynamic one starts from. -/
def AddressDB.Source (db : AddressDB) (game : Game) (source name : String) : Prop :=
  ∃ v, db.dyn_addr_mapping game name = some v ∧ v.source_var = source

/-- No chain of sources comes back to where it was. -/
def AddressDB.Acyclic (db : AddressDB) : Prop := ∀ game, WellFounded (db.Source game)

/-- `[...[[source + o0] + o1]...] + oN-1` -/
def chain (memory : Memory) (region : Region) : BitVec 32 → List RegionTriple → BitVec 32
  | _, [] => 0
  | a, [offset] => ((offset.get region).map (a + ·)).getD 0
  | a, offset :: offsets =>
    match offset.get region with
    | none => 0
    | some o =>
      if memCheck (memory (a + o)) then chain memory region (memory (a + o)) offsets else 0

/-- The address of a dynamic variable: its source is the static address if the region has one, and
otherwise the dynamic variable of that name. -/
inductive AddressDB.Denotes (db : AddressDB) (game : Game) (region : Region) (memory : Memory) :
    String → BitVec 32 → Prop
  | missing {name} : db.dyn_addr_mapping game name = none → Denotes db game region memory name 0
  | static {name v a} : db.dyn_addr_mapping game name = some v →
    db.lookupAddress game region v.source_var = a → a ≠ 0 →
    Denotes db game region memory name (chain memory region a v.offset_list)
  | dynamic {name v a} : db.dyn_addr_mapping game name = some v →
    db.lookupAddress game region v.source_var = 0 →
    Denotes db game region memory v.source_var a →
    Denotes db game region memory name
      (if a = 0 then 0 else chain memory region a v.offset_list)

/-- The variables that a lookup comes through. -/
inductive AddressDB.Through (db : AddressDB) (game : Game) (region : Region) :
    String → String → Prop
  | refl {name} : Through db game region name name
  | head {name v name'} : db.dyn_addr_mapping game name = some v →
    db.lookupAddress game region v.source_var = 0 →
    Through db game region v.source_var name' → Through db game region name name'

/-- None of them is marked where the region has a static address for its source, and none has an
empty list of offsets, unless its source is 0. -/
structure AddressDB.PlainFrom (db : AddressDB) (game : Game) (region : Region) (memory : Memory)
    (name : String) : Prop where
  unmarked : ∀ name' v, db.Through game region name name' →
    db.dyn_addr_mapping game name' = some v → db.lookupAddress game region v.source_var ≠ 0 →
    v.source_var_dynamic = false
  offsets : ∀ name' v, db.Through game region name name' →
    db.dyn_addr_mapping game name' = some v → v.offset_list ≠ [] ∨
      db.lookupAddress game region v.source_var = 0 ∧ db.Denotes game region memory v.source_var 0

def AddressDB.Plain (db : AddressDB) (q : Query) : Prop :=
  db.PlainFrom q.game q.region q.memory q.name

/-- What a call is to return. -/
def AddressDB.Meets (db₀ db : AddressDB) (q : Query) : Prop :=
  ∃ result, db₀.Denotes q.game q.region q.memory q.name result ∧
    (∃ db', db.Returns q result db') ∧ ∀ result' db', db.Returns q result' db' → result' = result

/-- The databases after calls that meet a condition. -/
inductive AddressDB.Reaches (ok : AddressDB → Query → Prop) (db₀ : AddressDB) : AddressDB → Prop
  | refl : Reaches ok db₀ db₀
  | tail {db db' : AddressDB} (q : Query) {result : BitVec 32} : Reaches ok db₀ db → ok db q →
    db.Returns q result db' → Reaches ok db₀ db'

/-! ## a chain of pointers -/

theorem followOffsets_eq (memory : Memory) (region : Region) {offsets : List RegionTriple}
    (h : offsets ≠ []) (a : BitVec 32) :
    AddressDB.followOffsets memory region a offsets = some (chain memory region a offsets) := by
  induction offsets generalizing a with
  | nil => exact absurd rfl h
  | cons offset offsets ih =>
    cases offsets with
    | nil => rfl
    | cons offset' offsets =>
      unfold AddressDB.followOffsets chain
      cases offset.get region with
      | none => rfl
      | some o =>
        dsimp only
        split
        · exact ih (List.cons_ne_nil _ _) _
        · rfl

namespace AddressDB

variable {db db' : AddressDB} {game : Game} {region : Region} {memory : Memory} {name : String}

theorem Denotes.unique {a b : BitVec 32} (h : db.Denotes game region memory name a)
    (h' : db.Denotes game region memory name b) : a = b := by
  induction h generalizing b with
  | missing hnone =>
    cases h' with
    | missing => rfl
    | static hsome | dynamic hsome => rw [hnone] at hsome; cases hsome
  | static hsome ha hne =>
    cases h' with
    | missing hnone => rw [hnone] at hsome; cases hsome
    | static hsome' ha' =>
      obtain rfl := Option.some.inj (hsome.symm.trans hsome')
      rw [← ha, ← ha']
    | dynamic hsome' hzero =>
      obtain rfl := Option.some.inj (hsome.symm.trans hsome')
      exact absurd (ha.symm.trans hzero) hne
  | dynamic hsome hzero _ ih =>
    cases h' with
    | missing hnone => rw [hnone] at hsome; cases hsome
    | static hsome' ha' hne =>
      obtain rfl := Option.some.inj (hsome.symm.trans hsome')
      exact absurd (ha'.symm.trans hzero) hne
    | dynamic hsome' _ hsource =>
      obtain rfl := Option.some.inj (hsome.symm.trans hsome')
      rw [ih hsource]

/-! ## one lookup -/

theorem lookup_mono {fuel fuel' : Nat} {x : BitVec 32 × AddressDB} (hle : fuel ≤ fuel')
    (h : lookupDynamicAddress game region memory fuel db name = some x) :
    lookupDynamicAddress game region memory fuel' db name = some x := by
  induction fuel generalizing fuel' name x with
  | zero => cases h
  | succ fuel ih =>
    obtain ⟨fuel', rfl⟩ := Nat.exists_eq_succ_of_ne_zero (Nat.ne_zero_of_lt hle)
    unfold lookupDynamicAddress at h ⊢
    split at h
    · exact h
    · dsimp only at h ⊢
      split at h
      · next hstatic =>
        rw [if_pos hstatic]
        exact h
      · next hdynamic =>
        obtain ⟨y, hlookup, h⟩ := Option.bind_eq_some_iff.mp h
        rw [if_neg hdynamic, ih (Nat.le_of_succ_le_succ hle) hlookup]
        exact h

theorem Returns.unique {q : Query} {result result' : BitVec 32} {db'' : AddressDB}
    (h : db.Returns q result db') (h' : db.Returns q result' db'') : result' = result := by
  obtain ⟨fuel, h⟩ := h
  obtain ⟨fuel', h'⟩ := h'
  have heq := (lookup_mono (Nat.le_max_right fuel fuel') h').symm.trans
    (lookup_mono (Nat.le_max_left fuel fuel') h)
  exact congrArg Prod.fst (Option.some.inj heq)

theorem lookup_denotes (hacyclic : db.Acyclic) (hplain : db.PlainFrom game region memory name) :
    ∃ fuel result db', lookupDynamicAddress game region memory fuel db name = some (result, db') ∧
      db.Denotes game region memory name result := by
  induction name using (hacyclic game).induction with
  | _ name ih =>
    cases hsome : db.dyn_addr_mapping game name with
    | none => exact ⟨1, 0, db, by rw [lookupDynamicAddress, hsome], .missing hsome⟩
    | some v =>
      have hoffsets := hplain.offsets name v .refl hsome
      by_cases hstatic : db.lookupAddress game region v.source_var = 0
      · have hinner : db.PlainFrom game region memory v.source_var :=
          ⟨fun name' w h => hplain.unmarked name' w (.head hsome hstatic h),
            fun name' w h => hplain.offsets name' w (.head hsome hstatic h)⟩
        obtain ⟨fuel, a, db', hlookup, ha⟩ := ih v.source_var ⟨v, hsome, rfl⟩ hinner
        have hfinish : finish memory region a v.offset_list =
            some (if a = 0 then 0 else chain memory region a v.offset_list) := by
          unfold finish
          split
          · rfl
          · next hne =>
            refine followOffsets_eq memory region (hoffsets.resolve_right fun h => ?_) a
            exact hne (ha.unique h.2)
        have hstep : lookupDynamicAddress game region memory (fuel + 1) db name =
            (finish memory region a v.offset_list).map fun result =>
              (result, if a = 0 then db'
                else db'.setVariable game name { v with source_var_dynamic := true }) := by
          rw [lookupDynamicAddress, hsome]
          dsimp only
          rw [if_neg fun h => h.2 hstatic, hlookup, Option.bind_some]
        rw [hfinish, Option.map_some] at hstep
        exact ⟨fuel + 1, _, _, hstep, .dynamic hsome hstatic ha⟩
      · have hfollow := followOffsets_eq memory region
          (hoffsets.resolve_right fun h => hstatic h.1) (db.lookupAddress game region v.source_var)
        refine ⟨1, _, db, ?_, .static hsome rfl hstatic⟩
        rw [lookupDynamicAddress, hsome]
        dsimp only
        rw [if_pos ⟨hplain.unmarked name v .refl hsome hstatic, hstatic⟩, finish, if_neg hstatic,
          hfollow, Option.map_some]

/-! ## what lookups leave -/

/-- A variable as it was registered. -/
def unmarked (v : DynamicVariable) : DynamicVariable := { v with source_var_dynamic := false }

/-- Two databases that differ in the marks only. -/
structure SameAddresses (db db' : AddressDB) : Prop where
  addresses : db'.addr_mapping = db.addr_mapping
  entries : ∀ game name, (db'.dyn_addr_mapping game name).map unmarked =
    (db.dyn_addr_mapping game name).map unmarked

theorem SameAddresses.refl : SameAddresses db db := ⟨rfl, fun _ _ => rfl⟩

theorem SameAddresses.trans {db'' : AddressDB} (h : SameAddresses db db')
    (h' : SameAddresses db' db'') : SameAddresses db db'' :=
  ⟨h'.addresses.trans h.addresses, fun g n => (h'.entries g n).trans (h.entries g n)⟩

theorem SameAddresses.mark {v : DynamicVariable} (h : SameAddresses db db')
    (hsome : db.dyn_addr_mapping game name = some v) :
    SameAddresses db (db'.setVariable game name { v with source_var_dynamic := true }) := by
  refine ⟨h.addresses, fun g n => ?_⟩
  unfold setVariable
  dsimp only
  by_cases hg : g = game
  · subst hg
    rw [Function.update_self]
    by_cases hn : n = name
    · subst hn
      rw [Function.update_self, hsome]
      rfl
    · rw [Function.update_of_ne hn]
      exact h.entries g n
  · rw [Function.update_of_ne hg]
    exact h.entries g n

theorem sameAddresses_lookup {fuel : Nat} {result : BitVec 32}
    (h : lookupDynamicAddress game region memory fuel db name = some (result, db')) :
    SameAddresses db db' := by
  induction fuel generalizing name result db' with
  | zero => cases h
  | succ fuel ih =>
    unfold lookupDynamicAddress at h
    split at h
    · obtain ⟨-, rfl⟩ := Prod.mk.inj (Option.some.inj h)
      exact .refl
    · next v hsome =>
      dsimp only at h
      split at h
      · obtain ⟨_, -, h⟩ := Option.map_eq_some_iff.mp h
        obtain ⟨-, rfl⟩ := Prod.mk.inj h
        exact .refl
      · obtain ⟨⟨a, db₁⟩, hlookup, h⟩ := Option.bind_eq_some_iff.mp h
        obtain ⟨_, -, h⟩ := Option.map_eq_some_iff.mp h
        obtain ⟨-, rfl⟩ := Prod.mk.inj h
        split
        · exact ih hlookup
        · exact (ih hlookup).mark hsome

theorem SameAddresses.variable {v' : DynamicVariable} (h : SameAddresses db db')
    (hsome : db'.dyn_addr_mapping game name = some v') : ∃ v,
    db.dyn_addr_mapping game name = some v ∧ v.source_var = v'.source_var ∧
      v.offset_list = v'.offset_list := by
  have := h.entries game name
  rw [hsome, Option.map_some] at this
  obtain ⟨v, hv, heq⟩ := Option.map_eq_some_iff.mp this.symm
  have hsource : (unmarked v).source_var = (unmarked v').source_var := by rw [heq]
  have hoffsets : (unmarked v).offset_list = (unmarked v').offset_list := by rw [heq]
  exact ⟨v, hv, hsource, hoffsets⟩

theorem SameAddresses.lookupAddress (h : SameAddresses db db') (game : Game) (region : Region)
    (name : String) : db'.lookupAddress game region name = db.lookupAddress game region name := by
  unfold AddressDB.lookupAddress
  rw [h.addresses]

theorem Denotes.of_sameAddresses (h : SameAddresses db db') {a : BitVec 32}
    (hden : db'.Denotes game region memory name a) : db.Denotes game region memory name a := by
  induction hden with
  | @missing name hnone =>
    have := h.entries game name
    rw [hnone, Option.map_none] at this
    exact .missing (Option.map_eq_none_iff.mp this.symm)
  | static hsome ha hne =>
    obtain ⟨v, hv, hsource, hoffsets⟩ := h.variable hsome
    rw [← hoffsets]
    exact .static hv (by rw [hsource, ← h.lookupAddress, ha]) hne
  | dynamic hsome hzero _ ih =>
    obtain ⟨v, hv, hsource, hoffsets⟩ := h.variable hsome
    rw [← hoffsets]
    exact .dynamic hv (by rw [hsource, ← h.lookupAddress, hzero]) (hsource ▸ ih)

theorem SameAddresses.acyclic (h : SameAddresses db db') (hacyclic : db.Acyclic) : db'.Acyclic := by
  refine fun game => Subrelation.wf (fun {source name} hsource => ?_) (hacyclic game)
  obtain ⟨v', hv', rfl⟩ := hsource
  obtain ⟨v, hv, hsource, -⟩ := h.variable hv'
  exact ⟨v, hv, hsource⟩

/-! ## runs -/

theorem Reaches.sameAddresses {ok : AddressDB → Query → Prop} {db₀ : AddressDB}
    (h : Reaches ok db₀ db) : SameAddresses db₀ db := by
  induction h with
  | refl => exact .refl
  | tail q _ _ hreturns ih =>
    obtain ⟨fuel, hlookup⟩ := hreturns
    exact ih.trans (sameAddresses_lookup hlookup)

/-- **A lookup returns the address of its variable** after any lookups that, as itself, come through
no variable that was marked for another region and has a static source in theirs. -/
theorem meets_of_reaches (calls : List Registration) (hacyclic : (build calls).Acyclic)
    (hreaches : Reaches Plain (build calls) db) (q : Query) (hplain : db.Plain q) :
    (build calls).Meets db q := by
  have hsame := hreaches.sameAddresses
  obtain ⟨fuel, result, db', hlookup, hden⟩ := lookup_denotes (hsame.acyclic hacyclic) hplain
  have hreturns : db.Returns q result db' := ⟨fuel, hlookup⟩
  exact ⟨result, hden.of_sameAddresses hsame, ⟨db', hreturns⟩, fun _ _ h => hreturns.unique h⟩

/-! ## a lookup for another region -/

/-- `a` starts from `s`, which is a static variable in one region and a dynamic one in another. -/
def mixedCalls : List Registration :=
  [.dynamicAddress .PRIME_1 "a" "s" [⟨0x10, 0x10, 0x10⟩], .address .PRIME_1 "s" ⟨0, 0x80000000, 0⟩,
   .dynamicAddress .PRIME_1 "s" "t" [⟨0x20, 0x20, 0x20⟩],
   .address .PRIME_1 "t" ⟨0x80001000, 0x80002000, 0⟩]

/-- The variable `a` in a region. -/
def queryA (region : Region) : Query := ⟨.PRIME_1, region, "a", fun _ => 0⟩

/-- The variable `a`, which has a marked version. -/
def variableA (dynamic : Bool) : DynamicVariable := ⟨"s", dynamic, [⟨0x10, 0x10, 0x10⟩]⟩

def variableS : DynamicVariable := ⟨"t", false, [⟨0x20, 0x20, 0x20⟩]⟩

theorem variable_mixedCalls {v : DynamicVariable}
    (h : (build mixedCalls).dyn_addr_mapping game name = some v) :
    name = "a" ∧ v = variableA false ∨ name = "s" ∧ v = variableS := by
  have hmap : (build mixedCalls).dyn_addr_mapping = Function.update (fun _ _ => none) .PRIME_1
      (Function.update (Function.update (fun _ => none) "a" (some (variableA false))) "s"
        (some variableS)) := by
    simp [build, mixedCalls, register, registerDynamicAddress, registerAddress, setVariable, new,
      mappedGames, variableA, variableS]
  rw [hmap] at h
  by_cases hgame : game = .PRIME_1
  · subst hgame
    rw [Function.update_self] at h
    by_cases hs : name = "s"
    · subst hs
      exact .inr ⟨rfl, (Option.some.inj h).symm⟩
    · rw [Function.update_of_ne hs] at h
      by_cases ha : name = "a"
      · subst ha
        exact .inl ⟨rfl, (Option.some.inj h).symm⟩
      · rw [Function.update_of_ne ha] at h
        cases h
  · rw [Function.update_of_ne hgame] at h
    cases h

theorem acyclic_mixedCalls : (build mixedCalls).Acyclic := by
  intro game
  let rank (name : String) : Nat := if name = "a" then 2 else if name = "s" then 1 else 0
  refine Subrelation.wf (fun {source name} h => ?_) (measure rank).wf
  change rank source < rank name
  obtain ⟨v, hv, rfl⟩ := h
  obtain ⟨rfl, rfl⟩ | ⟨rfl, rfl⟩ := variable_mixedCalls hv
  · decide
  · decide

/-- The first lookup finds its address. -/
theorem meets_of_reaches_mixedCalls :
    (build mixedCalls).Meets (build mixedCalls) (queryA .NTSC_U) := by
  refine meets_of_reaches mixedCalls acyclic_mixedCalls .refl _ ⟨?_, ?_⟩
  · rintro name v - hv -
    obtain ⟨-, rfl⟩ | ⟨-, rfl⟩ := variable_mixedCalls hv <;> rfl
  · rintro name v - hv
    obtain ⟨-, rfl⟩ | ⟨-, rfl⟩ := variable_mixedCalls hv <;> exact .inl (List.cons_ne_nil _ _)

/-- After a lookup in the one region, that in the other one starts from the dynamic variable; and a
lookup without offsets has no value. -/
theorem not_meets_mixedCalls : (build mixedCalls).Acyclic ∧
      (¬ ∀ db, Reaches (fun _ _ => True) (build mixedCalls) db →
        (build mixedCalls).Meets db (queryA .PAL)) ∧
      ¬ ∃ result db', (build [.dynamicAddress .PRIME_1 "a" "s" [],
        .address .PRIME_1 "s" ⟨0x80000000, 0, 0⟩]).Returns (queryA .NTSC_U) result db' := by
  refine ⟨acyclic_mixedCalls, fun hall => ?_, fun ⟨result, db', fuel, hlookup⟩ => ?_⟩
  · have hmarked : Reaches (fun _ _ => True) (build mixedCalls)
        ((build mixedCalls).setVariable .PRIME_1 "a" (variableA true)) :=
      .tail (queryA .NTSC_U) .refl trivial ⟨3, rfl⟩
    obtain ⟨result, hden, ⟨db', fuel, hlookup⟩, -⟩ := hall _ hmarked
    have hstatic : (build mixedCalls).Denotes .PRIME_1 .PAL (fun _ => 0) "a" 0x80000010 :=
      .static (v := variableA false) (a := 0x80000000) rfl rfl (by decide)
    obtain rfl := hden.unique hstatic
    match fuel with
    | 0 | 1 | 2 => cases hlookup
    | fuel + 3 =>
      have hresult : (0x80002030 : BitVec 32) = 0x80000010 :=
        congrArg Prod.fst (Option.some.inj hlookup)
      exact absurd hresult (by decide)
  · match fuel with
    | 0 => cases hlookup
    | fuel + 1 => cases hlookup

end AddressDB

end DolphinCore.PrimeHack
