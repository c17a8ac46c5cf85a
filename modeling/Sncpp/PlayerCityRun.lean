import Mathlib.Data.List.Perm.Basic
import Sncpp.PlayerCity
import Sncpp.Steps
/-!
# PlayerCityRun — one city for each player

Moves of any players and runs of the daily removal in any order, one move of a player at a time and to places that are
free.  A move within the kingdom reads the old city also where there is none, and the daily removal takes out the city
that it looked up before its calls.
-/
namespace Sncpp
namespace PlayerCity

def Obj.label (o : Obj) : Option Nat := if o.type = playercity then some o.playerid else none

/-- What the daily removal has looked up, and what it still is to remove. -/
def Stage.city : Stage → Option Obj
  | .leave cityobj => some cityobj
  | .remove cityobj => some cityobj
  | _ => none

def Stage.leaving : Stage → Option Obj
  | .leave cityobj => some cityobj
  | _ => none

namespace Move

variable (m : Move)

def target : Nat := get_coord_id m.x m.y

def Pending : Prop := m.kind ≠ .away ∧ m.wait ≠ .create

def Built : Prop := m.kind = .within ∧ m.wait = .create

instance : Decidable m.Pending := inferInstanceAs (Decidable (_ ∧ _))

instance : Decidable m.Built := inferInstanceAs (Decidable (_ ∧ _))

end Move

structure Obj.Keeps (old c : Obj) : Prop where
  hp : ∀ v ∈ old.hp, c.hp = some v
  recoverTime : ∀ v ∈ old.recoverTime, c.recoverTime = some v
  landshieldover : ∀ v ∈ old.landshieldover, c.landshieldover = some v
  burntime : ∀ v ∈ old.burntime, c.burntime = some v

namespace Maps

variable (a : Maps)

def Stands (playerid id : Nat) (c : Obj) : Prop := a.objs id = some c ∧ c.type = playercity ∧ c.playerid = playerid

/-- **The city that is registered for the player is the only one on the map**, and none is registered iff none is there. -/
structure OneCity (playerid : Nat) : Prop where
  registered : ∀ c, a.playerCitys playerid = some c → ∃ id, a.Stands playerid id c
  unique : ∀ id c id' c', a.Stands playerid id c → a.Stands playerid id' c' → id' = id ∧ c' = c
  none : a.playerCitys playerid = none ↔ ∀ id c, ¬ a.Stands playerid id c

/-- The player has one city, at the place that was asked for, with what the old one had. -/
def Settled (m : Move) : Prop :=
  ∃ c, a.Stands m.playerid m.target c ∧ (∀ id' c', a.Stands m.playerid id' c' → id' = m.target ∧ c' = c) ∧
    c.x = m.x ∧ c.y = m.y ∧ ∀ old ∈ m.cityobj, old.Keeps c

def Cached (playerid : Nat) : Prop := a.cache playerid ≠ Option.none

instance (playerid : Nat) : Decidable (a.Cached playerid) := inferInstanceAs (Decidable (_ ≠ _))

end Maps

namespace World

variable (d : Int → Int) (kid : Nat) (w : World)

def Free (id : Nat) : Prop := w.maps.objs id = none ∧ ∀ m ∈ w.moves, m.Pending → m.target ≠ id

instance (id : Nat) : Decidable (w.Free id) := inferInstanceAs (Decidable (_ ∧ _))

def Admitted : Event → Prop
  | .onMoveCityOut toServerid playerid x y _ _ =>
    (∀ m ∈ w.moves, playerid ≠ m.playerid) ∧ (kid = toServerid → w.Free (get_coord_id x y))
  | .onMoveCityIn fromServerid playerid x y =>
    (∀ m ∈ w.moves, playerid ≠ m.playerid) ∧ (kid ≠ fromServerid → w.Free (get_coord_id x y))
  | _ => True

instance : ∀ e : Event, Decidable (w.Admitted kid e)
  | .onMoveCityOut toServerid playerid x y _ _ =>
    inferInstanceAs (Decidable ((∀ m ∈ w.moves, playerid ≠ m.playerid) ∧ (kid = toServerid → w.Free (get_coord_id x y))))
  | .onMoveCityIn fromServerid playerid x y =>
    inferInstanceAs (Decidable ((∀ m ∈ w.moves, playerid ≠ m.playerid) ∧ (kid ≠ fromServerid → w.Free (get_coord_id x y))))
  | .reply _ => isTrue trivial
  | .onSupplyTimerCallback _ => isTrue trivial
  | .refresh _ _ => isTrue trivial

/-- Where the city that was looked up stood there is nothing of another player, nothing of its player stands elsewhere,
and no move of the player is about to return. -/
structure Harmless (c : Obj) : Prop where
  objs : ∀ o ∈ w.maps.objs c.objectid, o.type = playercity → o.playerid = c.playerid
  city : ∀ o ∈ w.maps.playerCitys c.playerid, o.objectid = c.objectid
  moves : ∀ m ∈ w.moves, m.Built → m.playerid ≠ c.playerid

instance (c : Obj) : Decidable (w.Harmless c) :=
  decidable_of_iff ((∀ o ∈ w.maps.objs c.objectid, o.type = playercity → o.playerid = c.playerid) ∧
    (∀ o ∈ w.maps.playerCitys c.playerid, o.objectid = c.objectid) ∧ ∀ m ∈ w.moves, m.Built → m.playerid ≠ c.playerid)
    ⟨fun h => ⟨h.1, h.2.1, h.2.2⟩, fun h => ⟨h.objs, h.city, h.moves⟩⟩

/-- A move within the kingdom finds a city and a cache, and the daily removal takes out what it may. -/
def Kept : Event → Prop
  | .onMoveCityOut toServerid playerid _ _ plycache _ =>
    kid = toServerid → w.maps.playerCitys playerid ≠ none ∧ (plycache ≠ none ∨ w.maps.Cached playerid)
  | .refresh n _ => ∀ t ∈ w.refreshes[n]?, ∀ c ∈ t.stage.leaving, w.Harmless c
  | _ => True

instance : ∀ e : Event, Decidable (w.Kept kid e)
  | .onMoveCityOut toServerid playerid _ _ plycache _ =>
    inferInstanceAs (Decidable (kid = toServerid → w.maps.playerCitys playerid ≠ none ∧
      (plycache ≠ none ∨ w.maps.Cached playerid)))
  | .refresh n _ => inferInstanceAs (Decidable (∀ t ∈ w.refreshes[n]?, ∀ c ∈ t.stage.leaving, w.Harmless c))
  | .onMoveCityIn _ _ _ _ => isTrue trivial
  | .reply _ => isTrue trivial
  | .onSupplyTimerCallback _ => isTrue trivial

def Removes (playerid : Nat) : Prop := ∃ t ∈ w.refreshes, ∃ c ∈ t.stage.city, c.playerid = playerid

/-- **Each player has one city at most**, and a move within the kingdom does not fail: when it returns and no removal of
the player is in progress, the player has settled. -/
structure Right (e : Event) : Prop where
  cities : ∀ playerid, (w.step d kid e).maps.OneCity playerid
  returns : ∀ m ok, w.answer d kid e = some (m, ok) → m.kind = .within →
    ok = true ∧ (¬ (w.step d kid e).Removes m.playerid → (w.step d kid e).maps.Settled m)

/-- No operation is in progress, the objects stand under their ids, and each player has one city at most. -/
structure Ready : Prop where
  moves : w.moves = []
  refreshes : w.refreshes = []
  keyed : ∀ id o, w.maps.objs id = some o → o.objectid = id
  cities : ∀ playerid, w.maps.OneCity playerid

end World

namespace Maps

variable {a : Maps}

def Agree (a : Maps) : Prop := Index.Agree (fun o : Obj => o.objectid) Obj.label a.objs a.playerCitys

theorem label_iff {o : Obj} {playerid : Nat} : o.label = some playerid ↔ o.type = playercity ∧ o.playerid = playerid := by
  unfold Obj.label
  split
  · next h => simp [h]
  · next h => simp [h]

theorem stands_iff {playerid id : Nat} {c : Obj} : a.Stands playerid id c ↔ a.objs id = some c ∧
    c.label = some playerid := by
  rw [label_iff]
  rfl

theorem add_object_citys (obj : Obj) :
    (a.add_object obj).playerCitys = Index.write Obj.label a.playerCitys obj (some obj) := by
  unfold add_object Index.write Obj.label
  split
  · rfl
  · rfl

theorem remove_object_citys (obj : Obj) :
    (a.remove_object obj).playerCitys = Index.write Obj.label a.playerCitys obj none := by
  unfold remove_object Index.write Obj.label
  split
  · rfl
  · rfl

theorem Agree.oneCity (h : a.Agree) (playerid : Nat) : a.OneCity playerid where
  registered c hc :=
    have hobj := (h.index playerid c).1 hc
    ⟨c.objectid, stands_iff.2 hobj⟩
  unique id c id' c' hc hc' :=
    have hcity := stands_iff.1 hc
    have hcity' := stands_iff.1 hc'
    Index.Agree.unique h hcity.1 hcity.2 hcity'.1 hcity'.2
  none := by
    rw [Index.Agree.eq_none_iff h]
    constructor
    · intro hno id c hc
      exact hno id c hc.1 (stands_iff.1 hc).2
    · intro hno id c hc hl
      exact hno id c (stands_iff.2 ⟨hc, hl⟩)

theorem agree_of_oneCity (hkeyed : ∀ id o, a.objs id = some o → o.objectid = id) (h : ∀ playerid, a.OneCity playerid) :
    a.Agree where
  keyed := hkeyed
  index playerid c := by
    constructor
    · intro hc
      obtain ⟨id, hid⟩ := (h playerid).registered c hc
      obtain ⟨hobj, hl⟩ := stands_iff.1 hid
      rw [hkeyed id c hobj]
      exact ⟨hobj, hl⟩
    · rintro ⟨hobj, hl⟩
      have hstands := stands_iff.2 ⟨hobj, hl⟩
      cases hc : a.playerCitys playerid with
      | none => exact absurd hstands ((h playerid).none.1 hc _ c)
      | some c' =>
        obtain ⟨id, hid⟩ := (h playerid).registered c' hc
        rw [((h playerid).unique _ c id c' hstands hid).2]

theorem Agree.city (h : a.Agree) {playerid : Nat} {c : Obj} (hc : a.playerCitys playerid = some c) :
    a.objs c.objectid = some c ∧ c.type = playercity ∧ c.playerid = playerid :=
  ⟨((h.index playerid c).1 hc).1, label_iff.1 ((h.index playerid c).1 hc).2⟩

theorem Agree.create (h : a.Agree) (params : Params) (hfree : a.objs (get_coord_id params.x params.y) = none)
    (hcity : a.playerCitys params.playerid = none) : (a.create_object params).Agree := by
  have hinsert := Index.Agree.insert (v := a.newObj params) h hfree (fun playerid hl => by
    have hplayer : params.playerid = playerid := (label_iff.1 hl).2
    rw [← hplayer]
    exact hcity)
  unfold Agree create_object
  rw [show (a.add_object (a.newObj params)).playerCitys = _ from add_object_citys _]
  exact hinsert

theorem Agree.remove (h : a.Agree) {obj : Obj} (htype : obj.type = playercity)
    (hobjs : ∀ o ∈ a.objs obj.objectid, o.type = playercity → o.playerid = obj.playerid)
    (hcity : ∀ o ∈ a.playerCitys obj.playerid, o.objectid = obj.objectid) : (a.remove_object obj).Agree := by
  have herase := Index.Agree.erase (v := obj) h (fun o playerid ho hl => by
    obtain ⟨htype', hplayer⟩ := label_iff.1 hl
    exact label_iff.2 ⟨htype, (hobjs o ho htype').symm.trans hplayer⟩) (fun playerid o hl ho => by
    obtain ⟨-, hplayer⟩ := label_iff.1 hl
    rw [← hplayer] at ho
    exact hcity o ho)
  unfold Agree
  rw [remove_object_citys]
  exact herase

theorem Agree.remove_city (h : a.Agree) {playerid : Nat} {c : Obj} (hc : a.playerCitys playerid = some c) :
    (a.remove_object c).Agree := by
  obtain ⟨hobj, htype, hplayer⟩ := h.city hc
  refine h.remove htype (fun o ho _ => ?_) (fun o ho => ?_)
  · rw [Option.some.inj (hobj.symm.trans ho)]
  · rw [hplayer, hc] at ho
    rw [Option.some.inj ho]

theorem remove_objs_none {id : Nat} (h : a.objs id = none) (obj : Obj) : (a.remove_object obj).objs id = none := by
  unfold remove_object
  by_cases hid : id = obj.objectid
  · rw [hid]
    exact Function.update_self _ _ _
  · exact (Function.update_of_ne hid _ _).trans h

theorem remove_city_of_ne {obj : Obj} {playerid : Nat} (h : playerid ≠ obj.playerid) :
    (a.remove_object obj).playerCitys playerid = a.playerCitys playerid := by
  rw [remove_object_citys]
  exact Index.write_of_ne (fun hl => h (label_iff.1 hl).2.symm) _ _

theorem remove_city_none {playerid : Nat} (h : a.playerCitys playerid = none) (obj : Obj) :
    (a.remove_object obj).playerCitys playerid = none := by
  rw [remove_object_citys]
  by_cases hl : obj.label = some playerid
  · rw [Index.write_of_label hl, Function.update_self]
  · rw [Index.write_of_ne hl]
    exact h

theorem remove_city_self {obj : Obj} (h : obj.type = playercity) :
    (a.remove_object obj).playerCitys obj.playerid = none := by
  rw [remove_object_citys, Index.write_of_label (label_iff.2 ⟨h, rfl⟩), Function.update_self]

theorem create_objs_of_ne {params : Params} {id : Nat} (h : id ≠ get_coord_id params.x params.y) :
    (a.create_object params).objs id = a.objs id := Function.update_of_ne h _ _

theorem create_city_of_ne {params : Params} {playerid : Nat} (h : playerid ≠ params.playerid) :
    (a.create_object params).playerCitys playerid = a.playerCitys playerid := by
  have hcitys := add_object_citys (a := a) (a.newObj params)
  calc (a.create_object params).playerCitys playerid = (a.add_object (a.newObj params)).playerCitys playerid := rfl
    _ = a.playerCitys playerid := by
      rw [hcitys]
      exact Index.write_of_ne (fun hl => h (label_iff.1 hl).2.symm) _ _

theorem create_city {params : Params} (h : params.type = playercity) :
    (a.create_object params).playerCitys params.playerid = some (a.newObj params) := by
  have hcitys := add_object_citys (a := a) (a.newObj params)
  have hl : (a.newObj params).label = some params.playerid := label_iff.2 ⟨h, rfl⟩
  calc (a.create_object params).playerCitys params.playerid = (a.add_object (a.newObj params)).playerCitys params.playerid := rfl
    _ = some (a.newObj params) := by rw [hcitys, Index.write_of_label hl, Function.update_self]

theorem cache_update (playerid p : Nat) (o : Option (Option Cache)) :
    cache { a with playerlist := Function.update a.playerlist playerid o } p = if p = playerid then o.join else
      a.cache p := by
  unfold cache
  by_cases hp : p = playerid
  · rw [if_pos hp, hp]
    exact congrArg Option.join (Function.update_self playerid o a.playerlist)
  · rw [if_neg hp]
    exact congrArg Option.join (Function.update_of_ne hp o a.playerlist)

theorem Cached.create_player {p : Nat} (h : a.Cached p) (playerid : Nat) : (a.create_player playerid).Cached p := by
  unfold Maps.create_player
  split
  · next hnone =>
    have hne : p ≠ playerid := by
      intro heq
      apply h
      unfold cache
      rw [heq, hnone]
      rfl
    unfold Cached
    rw [cache_update, if_neg hne]
    exact h
  · exact h

theorem Cached.remove_player {p playerid : Nat} (h : a.Cached p) (hne : p ≠ playerid) :
    (a.remove_player playerid).Cached p := by
  unfold Cached Maps.remove_player
  rw [cache_update, if_neg hne]
  exact h

theorem Cached.set_player_cache {p : Nat} (h : a.Cached p) (playerid : Nat) (plycache : Option Cache) :
    (a.set_player_cache playerid plycache).Cached p := by
  cases plycache with
  | none => exact h
  | some c =>
    unfold Cached Maps.set_player_cache
    rw [cache_update]
    split
    · exact Option.some_ne_none c
    · exact h

theorem cached_set_player_cache {playerid : Nat} {plycache : Option Cache} (h : plycache ≠ none ∨ a.Cached playerid) :
    (a.set_player_cache playerid plycache).Cached playerid := by
  cases plycache with
  | none => exact h.resolve_left (fun hne => hne rfl)
  | some c =>
    unfold Cached Maps.set_player_cache
    rw [cache_update, if_pos rfl]
    exact Option.some_ne_none c

end Maps

namespace Move

variable {a a' : Maps} {m m' : Move}

def Put (m : Move) (a : Maps) : Prop :=
  ∃ c, a.playerCitys m.playerid = some c ∧ c.objectid = m.target ∧ c.x = m.x ∧ c.y = m.y ∧ ∀ old ∈ m.cityobj, old.Keeps c

/-- A move that has not created its city finds its place free and no city of the player, one within the kingdom can read
what it needs, and the city that it has created is there. -/
structure Fits (m : Move) (a : Maps) : Prop where
  pending : m.Pending → a.objs m.target = none ∧ a.playerCitys m.playerid = none
  reads : m.kind = .within → m.wait ≠ .create → m.cityobj ≠ none ∧ (m.plycache ≠ none ∨ a.Cached m.playerid)
  built : m.Built → m.Put a

def Apart (m m' : Move) : Prop := m.playerid ≠ m'.playerid ∧ (m.Pending → m'.Pending → m.target ≠ m'.target)

theorem Apart.symm (h : m.Apart m') : m'.Apart m := ⟨h.1.symm, fun hm' hm => (h.2 hm hm').symm⟩

theorem Fits.players (h : m.Fits a) (hobjs : a'.objs = a.objs) (hcitys : a'.playerCitys = a.playerCitys)
    (hcached : a.Cached m.playerid → a'.Cached m.playerid) : m.Fits a' where
  pending hm := by
    rw [hobjs, hcitys]
    exact h.pending hm
  reads hkind hwait := ⟨(h.reads hkind hwait).1, (h.reads hkind hwait).2.imp_right hcached⟩
  built hm := by
    unfold Put
    rw [hcitys]
    exact h.built hm

theorem Fits.remove (h : m.Fits a) {obj : Obj} (hne : m.Built → m.playerid ≠ obj.playerid) :
    m.Fits (a.remove_object obj) where
  pending hm := ⟨Maps.remove_objs_none (h.pending hm).1 obj, Maps.remove_city_none (h.pending hm).2 obj⟩
  reads := h.reads
  built hm := by
    unfold Put
    rw [Maps.remove_city_of_ne (hne hm)]
    exact h.built hm

theorem Fits.create (h : m.Fits a) {params : Params} (hplayer : m.playerid ≠ params.playerid)
    (htarget : m.Pending → m.target ≠ get_coord_id params.x params.y) : m.Fits (a.create_object params) where
  pending hm := by
    rw [Maps.create_objs_of_ne (htarget hm), Maps.create_city_of_ne hplayer]
    exact h.pending hm
  reads := h.reads
  built hm := by
    unfold Put
    rw [Maps.create_city_of_ne hplayer]
    exact h.built hm

end Move

theorem Maps.Agree.settled {a : Maps} {m : Move} (h : a.Agree) (hm : m.Put a) : a.Settled m := by
  obtain ⟨c, hc, htarget, hx, hy, hkeeps⟩ := hm
  have hstands : a.Stands m.playerid m.target c := by
    rw [← htarget]
    exact h.city hc
  exact ⟨c, hstands, fun id' c' hc' => (h.oneCity m.playerid).unique _ c id' c' hstands hc', hx, hy, hkeeps⟩

theorem moveParams_some (d : Int → Int) (x y playerid : Nat) (walllv : Int) (wallinfo : Option WallInfo) (old : Obj) :
    ∃ params, moveParams d x y playerid walllv wallinfo (some old) = some params ∧ params.type = playercity ∧
      params.x = x ∧ params.y = y ∧
      params.playerid = playerid ∧ params.inherited = old.inherited ∧ ∀ objectid no,
        old.Keeps { params with objectid := objectid, no := no } := by
  refine ⟨_, rfl, rfl, rfl, rfl, rfl, rfl, fun objectid no =>
    ⟨fun v hv => ?_, fun v hv => ?_, fun v hv => ?_, fun v hv => ?_⟩⟩
  · simp [Option.mem_def.1 hv]
  · simp [Option.mem_def.1 hv]
  · simp [Option.mem_def.1 hv]
  · simp [Option.mem_def.1 hv]

namespace World

variable {d : Int → Int} {kid : Nat} {w : World}

structure Good (w : World) : Prop where
  agree : w.maps.Agree
  fits : ∀ m ∈ w.moves, m.Fits w.maps
  apart : w.moves.Pairwise Move.Apart
  leaving : ∀ t ∈ w.refreshes, ∀ c ∈ t.stage.leaving, c.type = playercity

structure Fine (r : World × Option (Move × Bool)) : Prop where
  good : Good r.1
  returns : ∀ m ok, r.2 = some (m, ok) → m.kind = .within → ok = true ∧ r.1.maps.Settled m

theorem Ready.good (h : w.Ready) : w.Good where
  agree := Maps.agree_of_oneCity h.keyed h.cities
  fits m hm := by
    rw [h.moves] at hm
    cases hm
  apart := by
    rw [h.moves]
    exact List.Pairwise.nil
  leaving t ht := by
    rw [h.refreshes] at ht
    cases ht

theorem Good.change (h : w.Good) {a : Maps} (hagree : a.Agree) (hfits : ∀ m ∈ w.moves, m.Fits w.maps → m.Fits a) :
    Good { w with maps := a } where
  agree := hagree
  fits m hm := hfits m hm (h.fits m hm)
  apart := h.apart
  leaving := h.leaving

theorem Good.goOn (h : w.Good) {m : Move} (hfits : m.Fits w.maps) (hapart : ∀ m' ∈ w.moves, m.Apart m') :
    Good (w.goOn m) where
  agree := h.agree
  fits m' hm' := by
    rcases List.mem_cons.1 hm' with rfl | hm'
    · exact hfits
    · exact h.fits m' hm'
  apart := List.pairwise_cons.2 ⟨hapart, h.apart⟩
  leaving := h.leaving

theorem Fine.goOn (h : w.Good) {m : Move} (hfits : m.Fits w.maps) (hapart : ∀ m' ∈ w.moves, m.Apart m') :
    Fine (w.goOn m, none) where
  good := h.goOn hfits hapart
  returns m' ok heq := by cases heq

theorem Fine.done (h : w.Good) {m : Move} {ok : Bool} (hm : m.kind = .within → ok = true ∧ m.Put w.maps) :
    Fine (w, some (m, ok)) where
  good := h
  returns m' ok' heq hkind := by
    cases heq
    exact ⟨(hm hkind).1, h.agree.settled (hm hkind).2⟩

theorem Good.create (h : w.Good) {m : Move} (hm : m.Fits w.maps) (hpending : m.Pending)
    (hapart : ∀ m' ∈ w.moves, m.Apart m')
    (params : Params) (htarget : get_coord_id params.x params.y = m.target) (hplayer : params.playerid = m.playerid) :
    Good { w with maps := w.maps.create_object params } := by
  refine h.change (h.agree.create params ?_ ?_) (fun m' hm' hfits => hfits.create ?_ ?_)
  · rw [htarget]
    exact (hm.pending hpending).1
  · rw [hplayer]
    exact (hm.pending hpending).2
  · rw [hplayer]
    exact (hapart m' hm').1.symm
  · intro hpending'
    rw [htarget]
    exact ((hapart m' hm').2 hpending hpending').symm

theorem Good.created (h : w.Good) {m : Move} (hapart : ∀ m' ∈ w.moves, m.Apart m')
    (hput : m.kind = .within → m.Put w.maps) :
    Good (w.goOn { m with wait := .create }) :=
  h.goOn ⟨fun hp => absurd rfl hp.2, fun _ hw => absurd rfl hw, fun hb => hput hb.1⟩
    (fun m' hm' => ⟨(hapart m' hm').1, fun hp => absurd rfl hp.2⟩)

theorem Fine.build (h : w.Good) {m : Move} (hkind : m.kind = .within) (hwait : m.wait ≠ .create) (hm : m.Fits w.maps)
    (hapart : ∀ m' ∈ w.moves, m.Apart m') : Fine (w.build d m) := by
  obtain ⟨hcityobj, hcache⟩ := hm.reads hkind hwait
  obtain ⟨old, hold⟩ := Option.ne_none_iff_exists'.1 hcityobj
  obtain ⟨c, hc⟩ := Option.ne_none_iff_exists'.1 (Maps.cached_set_player_cache hcache)
  obtain ⟨params, hparams, htype, hx, hy, hplayer, -, hkeeps⟩ :=
    moveParams_some d m.x m.y m.playerid c.get_walllv m.wallinfo old
  have hpending : m.Pending := ⟨by rw [hkind]; decide, hwait⟩
  have hset : ∀ m' : Move, m'.Fits w.maps → m'.Fits (w.maps.set_player_cache m.playerid m.plycache) := by
    intro m' hm'
    refine hm'.players ?_ ?_ (fun hcached => hcached.set_player_cache m.playerid m.plycache)
    · unfold Maps.set_player_cache
      split <;> rfl
    · unfold Maps.set_player_cache
      split <;> rfl
  have hchange : Good { w with maps := w.maps.set_player_cache m.playerid m.plycache } := by
    refine h.change ?_ (fun m' _ => hset m')
    unfold Maps.set_player_cache
    split
    · exact h.agree
    · exact h.agree
  have htarget : get_coord_id params.x params.y = m.target := by
    rw [hx, hy]
    rfl
  have hbuild : w.build d m = (World.goOn
    { w with maps := (w.maps.set_player_cache m.playerid m.plycache).create_object params }
      { m with wait := .create }, none) := by
    unfold World.build
    simp only [hc, hold, hparams]
  rw [hbuild]
  refine ⟨(hchange.create (hset m hm) hpending hapart params htarget hplayer).created hapart (fun _ => ?_),
    fun m' ok heq => by cases heq⟩
  refine ⟨Maps.newObj (w.maps.set_player_cache m.playerid m.plycache) params, ?_, htarget, hx, hy, fun old' hold' => ?_⟩
  · rw [← hplayer]
    exact Maps.create_city htype
  · rw [hold] at hold'
    cases hold'
    exact hkeeps _ _

theorem Fine.removed (h : w.Good) {m : Move} (hkind : m.kind = .within) (hwait : m.wait ≠ .create) (hm : m.Fits w.maps)
    (hapart : ∀ m' ∈ w.moves, m.Apart m') : Fine (w.removed d m) := by
  unfold World.removed
  split
  · next hnone =>
    have hcreate : ∀ m' : Move, m'.Fits w.maps → m'.Fits (w.maps.create_player m.playerid) := by
      intro m' hm'
      refine hm'.players ?_ ?_ (fun hcached => hcached.create_player m.playerid)
      · unfold Maps.create_player
        split <;> rfl
      · unfold Maps.create_player
        split <;> rfl
    have hchange : Good { w with maps := w.maps.create_player m.playerid } := by
      refine h.change ?_ (fun m' _ => hcreate m')
      unfold Maps.create_player
      split
      · exact h.agree
      · exact h.agree
    have hfits := hcreate m hm
    have hpending : m.Pending := ⟨by rw [hkind]; decide, hwait⟩
    exact Fine.goOn hchange ⟨fun _ => hfits.pending hpending, fun _ _ => hfits.reads hkind hwait, fun hb => by cases hb.2⟩
      (fun m' hm' => ⟨(hapart m' hm').1, fun _ hp => (hapart m' hm').2 hpending hp⟩)
  · exact Fine.build h hkind hwait hm hapart

theorem Fine.buildIn (h : w.Good) {m : Move} (hkind : m.kind = .into) (hwait : m.wait ≠ .create) (hm : m.Fits w.maps)
    (hapart : ∀ m' ∈ w.moves, m.Apart m') : Fine (w.buildIn m) := by
  have hpending : m.Pending := ⟨by rw [hkind]; decide, hwait⟩
  have hother : m.kind ≠ .within := by
    rw [hkind]
    decide
  have hgood := h.create hm hpending hapart (moveInParams m.x m.y m.playerid) rfl rfl
  unfold World.buildIn
  simp only
  split
  · exact Fine.done hgood (fun hwithin => absurd hwithin hother)
  · exact ⟨hgood.created hapart (fun hwithin => absurd hwithin hother), fun m' ok heq => by cases heq⟩

theorem Fine.proceed (h : w.Good) {m : Move} (hm : m.Fits w.maps) (hapart : ∀ m' ∈ w.moves, m.Apart m') :
    Fine (w.proceed d m) := by
  unfold World.proceed
  split
  · next hkind hwait => exact Fine.removed h hkind (by rw [hwait]; decide) hm hapart
  · next hkind hwait => exact Fine.done h (fun _ => ⟨rfl, hm.built ⟨hkind, hwait⟩⟩)
  · next hkind _ hwait => exact Fine.build h hkind hwait hm hapart
  · next hkind hwait =>
    refine Fine.goOn h ⟨fun hp => absurd hkind hp.1, fun hw => ?_, fun hb => by cases hb.2⟩
      (fun m' hm' => ⟨(hapart m' hm').1, fun hp => absurd hkind hp.1⟩)
    exact absurd (hkind.symm.trans hw) (by decide)
  · next hkind _ =>
    have hchange : Good { w with maps := w.maps.remove_player m.playerid } :=
      h.change h.agree (fun m' hm' hfits =>
        hfits.players rfl rfl (fun hcached => hcached.remove_player (hapart m' hm').1.symm))
    exact Fine.done hchange (fun hw => absurd (hkind.symm.trans hw) (by decide))
  · next hkind _ => exact Fine.done h (fun hw => absurd (hkind.symm.trans hw) (by decide))
  · next hkind hwait => exact Fine.buildIn h hkind hwait hm hapart

theorem Fine.start (h : w.Good) {m : Move} (hcityobj : m.cityobj = w.maps.playerCitys m.playerid) (hwait : m.wait = .remove)
    (hplayers : ∀ m' ∈ w.moves, m.playerid ≠ m'.playerid) (hfree : m.kind ≠ .away → w.Free m.target)
    (hreads : m.kind = .within → m.cityobj ≠ none ∧
      (m.plycache ≠ none ∨ w.maps.Cached m.playerid)) : Fine (w.start d m) := by
  have hapart : ∀ m' ∈ w.moves, m.Apart m' := fun m' hm' =>
    ⟨hplayers m' hm', fun hp hp' => ((hfree hp.1).2 m' hm' hp').symm⟩
  have hbuilt : ¬ m.Built := by
    rintro ⟨-, hcreate⟩
    rw [hwait] at hcreate
    cases hcreate
  unfold World.start
  cases hc : m.cityobj with
  | none =>
    refine Fine.proceed h ⟨fun hp => ⟨(hfree hp.1).1, hcityobj.symm.trans hc⟩, fun hkind _ => ?_, fun hb =>
      absurd hb hbuilt⟩ hapart
    exact absurd hc (hreads hkind).1
  | some c =>
    have hcity := hcityobj.symm.trans hc
    obtain ⟨-, htype, hplayer⟩ := h.agree.city hcity
    have hchange : Good { w with maps := w.maps.remove_object c } := by
      refine h.change (h.agree.remove_city hcity) (fun m' hm' hfits => hfits.remove (fun _ => ?_))
      rw [hplayer]
      exact (hplayers m' hm').symm
    refine Fine.goOn hchange ⟨fun hp => ⟨Maps.remove_objs_none (hfree hp.1).1 c, ?_⟩, fun hkind _ => hreads hkind,
      fun hb => absurd hb hbuilt⟩ hapart
    rw [← hplayer]
    exact Maps.remove_city_self htype

theorem Good.drop (h : w.Good) {n : Nat} {m : Move} (hn : w.moves[n]? = some m) :
    Good (w.drop n) ∧ m.Fits w.maps ∧ ∀ m' ∈ (w.drop n).moves, m.Apart m' := by
  obtain ⟨hlt, rfl⟩ := List.getElem?_eq_some_iff.1 hn
  have hperm : w.moves.Perm (w.moves[n] :: w.moves.eraseIdx n) := (List.getElem_cons_eraseIdx_perm hlt).symm
  obtain ⟨hhead, htail⟩ := List.pairwise_cons.1 ((hperm.pairwise_iff (fun hp => hp.symm)).1 h.apart)
  exact ⟨⟨h.agree, fun m' hm' => h.fits m' (List.mem_of_mem_eraseIdx hm'), htail, h.leaving⟩,
    h.fits _ (List.getElem_mem hlt), hhead⟩

theorem Good.put (h : w.Good) (n : Nat) {t : Refresh} (ht : ∀ c ∈ t.stage.leaving, c.type = playercity) :
    Good (w.put n t) where
  agree := h.agree
  fits := h.fits
  apart := h.apart
  leaving t' ht' := by
    rcases List.mem_or_eq_of_mem_set ht' with ht' | rfl
    · exact h.leaving t' ht'
    · exact ht

theorem leaving_row (t : Refresh) : t.row.stage.leaving = none := by
  unfold Refresh.row
  split
  · rfl
  · dsimp only
    split <;> rfl
  · rfl

theorem Good.refreshed (h : w.Good) {n : Nat} {t : Refresh} (r : Answer) (hn : w.refreshes[n]? = some t)
    (hharmless : ∀ c ∈ t.stage.leaving, w.Harmless c) : Good (w.refreshed n t r) := by
  have hrow : ∀ t : Refresh, Good (w.put n t.row) := by
    intro t
    refine h.put n (fun c hc => ?_)
    rw [leaving_row] at hc
    cases hc
  have hnone : ∀ {t : Refresh}, t.stage.leaving = none → Good (w.put n t) := by
    intro t ht
    refine h.put n (fun c hc => ?_)
    rw [ht] at hc
    cases hc
  unfold World.refreshed
  split
  · exact hrow _
  · exact hrow t
  · split
    · exact ⟨h.agree, h.fits, h.apart, fun t' ht' => h.leaving t' (List.mem_of_mem_eraseIdx ht')⟩
    · exact hnone rfl
  · exact hnone rfl
  · split
    · next c hc =>
      refine h.put n (fun c' hc' => ?_)
      cases hc'
      exact (h.agree.city hc).2.1
    · exact hnone rfl
  · exact hnone rfl
  · next _ c hstage =>
    have hleaving : c ∈ t.stage.leaving := by
      rw [hstage]
      rfl
    have hc := hharmless c hleaving
    have htype := h.leaving t (List.mem_of_getElem? hn) c hleaving
    have hchange : Good { w with maps := w.maps.remove_object c } :=
      h.change (h.agree.remove htype hc.objs hc.city) (fun m hm hfits => hfits.remove (hc.moves m hm))
    exact hchange.put n (fun c' hc' => by cases hc')
  · exact hnone rfl
  · exact h

theorem Good.turn (h : w.Good) {e : Event} (hadmitted : w.Admitted kid e) (hkept : w.Kept kid e) :
    Fine (w.turn d kid e) := by
  cases e with
  | onMoveCityOut toServerid playerid x y plycache wallinfo =>
    refine Fine.start h rfl rfl hadmitted.1 (fun hkind => ?_) (fun hkind => ?_)
    · refine hadmitted.2 ?_
      by_contra hne
      exact hkind (if_neg hne)
    · refine hkept ?_
      by_contra hne
      rw [show (if kid = toServerid then Kind.within else Kind.away) = Kind.away from if_neg hne] at hkind
      cases hkind
  | onMoveCityIn fromServerid playerid x y =>
    unfold World.turn World.onMoveCityIn
    simp only
    split
    · exact ⟨h, fun m ok heq => by cases heq⟩
    · next hne => exact Fine.start h rfl rfl hadmitted.1 (fun _ => hadmitted.2 hne) (fun hkind => by cases hkind)
  | reply n =>
    unfold World.turn
    simp only
    split
    · next m hn =>
      obtain ⟨hdrop, hfits, hapart⟩ := h.drop hn
      exact Fine.proceed hdrop hfits hapart
    · exact ⟨h, fun m ok heq => by cases heq⟩
  | onSupplyTimerCallback entries =>
    refine ⟨⟨h.agree, h.fits, h.apart, fun t ht => ?_⟩, fun m ok heq => by cases heq⟩
    rcases List.mem_append.1 ht with ht | ht
    · exact h.leaving t ht
    · rw [List.mem_singleton.1 ht]
      intro c hc
      cases hc
  | refresh n r =>
    unfold World.turn
    simp only
    split
    · next t hn => exact ⟨h.refreshed r hn (hkept t hn), fun m ok heq => by cases heq⟩
    · exact ⟨h, fun m ok heq => by cases heq⟩

def towns : World :=
  { maps := ((((⟨fun _ => none, fun _ => none, fun _ => none, 0⟩ : Maps).create_object
    { moveInParams 1 1 1 with hp := some 40 }).create_object
      (moveInParams 5 5 2)).set_player_cache 1 (some ⟨some 3⟩)).set_player_cache 2 (some ⟨none⟩)
    moves := []
    refreshes := [] }

theorem ready_towns : towns.Ready := by
  have hempty : (⟨fun _ => none, fun _ => none, fun _ => none, 0⟩ : Maps).Agree :=
    ⟨(fun id o ho => by cases ho), (fun l o => ⟨(fun ho => by cases ho), (fun ho => by cases ho.1)⟩)⟩
  have hfirst := hempty.create { moveInParams 1 1 1 with hp := some 40 } rfl rfl
  have hsecond := hfirst.create (moveInParams 5 5 2) (by decide) (by decide)
  have hagree : towns.maps.Agree := hsecond
  exact ⟨rfl, rfl, hagree.keyed, hagree.oneCity⟩

end World
end PlayerCity
end Sncpp
