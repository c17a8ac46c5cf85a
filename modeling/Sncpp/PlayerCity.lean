import Sncpp.Index
/-!
# PlayerCity — the cities of the players on the map

`mapCenter:onMoveCityOut`, `onMoveCityIn` and `mapObjPlayerCityMgr:doSupplyRefresh` over the objects of `mapObjectMgr` and
the city of each player in `mapObjPlayerCityMgr`.  What lies between two changes of these is one wait, however many calls
it makes of the guild, gate, queue and database services; their answers come.  A field that was never set is `none`.
-/
namespace Sncpp
namespace PlayerCity

structure Inherited where
  skin : Option Int
  skintime : Option Int
  ownUid : Option Int
  ownTime : Option Int
  beSlaveCastleLv : Option Int
  beSlaveCageLv : Option Int
  slaveNum : Option Int
deriving DecidableEq

structure Params where
  type : Nat
  x : Nat
  y : Nat
  playerid : Nat
  hp : Option Int
  recoverTime : Option Int
  landshieldover : Option Int
  burntime : Option Int
  inherited : Inherited
deriving DecidableEq

structure Obj extends Params where
  objectid : Nat
  no : Nat
deriving DecidableEq

structure Cache where
  walllv : Option Int
deriving DecidableEq

structure WallInfo where
  dud : Option Int
  st : Option Int
deriving DecidableEq

/-- The objects by their id, the city of each player, and the players with their cache. -/
structure Maps where
  objs : Nat → Option Obj
  playerCitys : Nat → Option Obj
  playerlist : Nat → Option (Option Cache)
  next : Nat

def playercity : Nat := 1

def get_coord_id (x y : Nat) : Nat := y * 10000 + x

def Cache.get_walllv (c : Cache) : Int :=
  match c.walllv with
  | some walllv => if 0 < walllv then walllv else 1
  | none => 1

namespace Maps

variable (a : Maps)

def get_player_city (playerid : Nat) : Option Obj := a.playerCitys playerid

def add_object (obj : Obj) : Maps :=
  { a with
    objs := Function.update a.objs obj.objectid (some obj)
    playerCitys := if obj.type = playercity then Function.update a.playerCitys obj.playerid (some obj) else a.playerCitys }

def remove_object (obj : Obj) : Maps :=
  { a with
    objs := Function.update a.objs obj.objectid none
    playerCitys := if obj.type = playercity then Function.update a.playerCitys obj.playerid none else a.playerCitys }

def newObj (params : Params) : Obj := { params with objectid := get_coord_id params.x params.y, no := a.next }

def create_object (params : Params) : Maps := { a.add_object (a.newObj params) with next := a.next + 1 }

def create_player (playerid : Nat) : Maps :=
  if a.playerlist playerid = none then { a with playerlist := Function.update a.playerlist playerid (some none) } else a

def remove_player (playerid : Nat) : Maps := { a with playerlist := Function.update a.playerlist playerid none }

def set_player_cache (playerid : Nat) (plycache : Option Cache) : Maps :=
  match plycache with
  | some c => { a with playerlist := Function.update a.playerlist playerid (some (some c)) }
  | none => a

/-- The cache of the player that is read; without one the code fails. -/
def cache (playerid : Nat) : Option Cache := (a.playerlist playerid).join

end Maps

/-- The parameters of the new city.  Those of the old one are read in any case, which fails if there was none. -/
def moveParams (getPlayerCitydurability : Int → Int) (x y playerid : Nat) (walllv : Int) (wallinfo : Option WallInfo)
    (cityobj : Option Obj) : Option Params :=
  cityobj.map (fun old =>
    { type := playercity
      x := x
      y := y
      playerid := playerid
      hp := some (((cityobj.bind (fun o => o.hp)).or (wallinfo.bind WallInfo.dud)).getD (getPlayerCitydurability walllv))
      recoverTime := some (((cityobj.bind (fun o => o.recoverTime)).or (wallinfo.bind WallInfo.st)).getD 0)
      landshieldover := some ((cityobj.bind (fun o => o.landshieldover)).getD 0)
      burntime := some ((cityobj.bind (fun o => o.burntime)).getD 0)
      inherited := old.inherited })

def moveInParams (x y playerid : Nat) : Params :=
  { type := playercity
    x := x
    y := y
    playerid := playerid
    hp := none
    recoverTime := none
    landshieldover := none
    burntime := none
    inherited := ⟨none, none, none, none, none, none, none⟩ }

inductive Kind where
  | within
  | away
  | into
deriving DecidableEq

/-- In `remove_object`, in `create_player`, in the call of the other kingdom, in `create_object` and after it. -/
inductive Wait where
  | remove
  | player
  | call
  | create
deriving DecidableEq

structure Move where
  kind : Kind
  playerid : Nat
  x : Nat
  y : Nat
  plycache : Option Cache
  wallinfo : Option WallInfo
  cityobj : Option Obj
  wait : Wait
deriving DecidableEq

structure Row where
  playerid : Option Nat
  offlinetime : Option Int
deriving DecidableEq

/-- The daily removal waits for the rows of an entry, between the rows, after them, for whether the player is online or a
chairman, for that to be saved, for what the player leaves before the city that was looked up goes, and for what
`remove_object` does after that. -/
inductive Stage where
  | rows
  | sleep
  | entry
  | online (playerid : Nat)
  | update
  | leave (cityobj : Obj)
  | remove (cityobj : Obj)
deriving DecidableEq

/-- A run of `doSupplyRefresh`, with the entries of its configuration and the rows that are left. -/
structure Refresh where
  entries : Nat
  rows : List Row
  stage : Stage
deriving DecidableEq

inductive Answer where
  | done
  | rows (rows : List Row)
  | online (b : Bool)

structure World where
  maps : Maps
  moves : List Move
  refreshes : List Refresh

inductive Event where
  | onMoveCityOut (toServerid playerid x y : Nat) (plycache : Option Cache) (wallinfo : Option WallInfo)
  | onMoveCityIn (fromServerid playerid x y : Nat)
  | reply (n : Nat)
  | onSupplyTimerCallback (entries : Nat)
  | refresh (n : Nat) (r : Answer)

/-- The next row: one without an offline time is put right, else the player may be online. -/
def Refresh.row (t : Refresh) : Refresh :=
  match t.rows with
  | [] => { t with stage := .entry }
  | ⟨some playerid, some offlinetime⟩ :: rows =>
    { t with rows := rows, stage := if offlinetime ≤ 0 then .sleep else .online playerid }
  | _ :: rows => { t with rows := rows, stage := .sleep }

namespace World

variable (getPlayerCitydurability : Int → Int) (kid : Nat) (w : World)

def goOn (m : Move) : World := { w with moves := m :: w.moves }

/-- The new city of a move within the kingdom, where the move may fail. -/
def build (m : Move) : World × Option (Move × Bool) :=
  let maps := w.maps.set_player_cache m.playerid m.plycache
  match maps.cache m.playerid with
  | none => ({ w with maps := maps }, some (m, false))
  | some c =>
    match moveParams getPlayerCitydurability m.x m.y m.playerid c.get_walllv m.wallinfo m.cityobj with
    | none => ({ w with maps := maps }, some (m, false))
    | some params => ({ w with maps := maps.create_object params }.goOn { m with wait := .create }, none)

def removed (m : Move) : World × Option (Move × Bool) :=
  if w.maps.playerlist m.playerid = none then
    ({ w with maps := w.maps.create_player m.playerid }.goOn { m with wait := .player }, none)
  else w.build getPlayerCitydurability m

/-- The new city of a player from another kingdom; a player that is known without a cache fails in `add_object`. -/
def buildIn (m : Move) : World × Option (Move × Bool) :=
  let maps := w.maps.create_object (moveInParams m.x m.y m.playerid)
  if maps.playerlist m.playerid = some none then ({ w with maps := maps }, some (m, false))
  else ({ w with maps := maps }.goOn { m with wait := .create }, none)

def proceed (m : Move) : World × Option (Move × Bool) :=
  match m.kind, m.wait with
  | .within, .remove => w.removed getPlayerCitydurability m
  | .within, .create => (w, some (m, true))
  | .within, _ => w.build getPlayerCitydurability m
  | .away, .remove => (w.goOn { m with wait := .call }, none)
  | .away, _ => ({ w with maps := w.maps.remove_player m.playerid }, some (m, true))
  | .into, .create => (w, some (m, true))
  | .into, _ => w.buildIn m

def start (m : Move) : World × Option (Move × Bool) :=
  match m.cityobj with
  | some cityobj => ({ w with maps := w.maps.remove_object cityobj }.goOn m, none)
  | none => w.proceed getPlayerCitydurability m

def onMoveCityOut (toServerid playerid x y : Nat) (plycache : Option Cache) (wallinfo : Option WallInfo) :
    World × Option (Move × Bool) :=
  w.start getPlayerCitydurability
    { kind := if kid = toServerid then .within else .away
      playerid := playerid
      x := x
      y := y
      plycache := plycache
      wallinfo := wallinfo
      cityobj := w.maps.get_player_city playerid
      wait := .remove }

def onMoveCityIn (fromServerid playerid x y : Nat) : World × Option (Move × Bool) :=
  if kid = fromServerid then (w, none)
  else
    w.start getPlayerCitydurability
      { kind := .into
        playerid := playerid
        x := x
        y := y
        plycache := none
        wallinfo := none
        cityobj := w.maps.get_player_city playerid
        wait := .remove }

def drop (n : Nat) : World := { w with moves := w.moves.eraseIdx n }

def put (n : Nat) (t : Refresh) : World := { w with refreshes := w.refreshes.set n t }

def refreshed (n : Nat) (t : Refresh) (r : Answer) : World :=
  match t.stage, r with
  | .rows, .rows rows => w.put n { t with rows := rows }.row
  | .sleep, _ => w.put n t.row
  | .entry, _ =>
    match t.entries with
    | 0 => { w with refreshes := w.refreshes.eraseIdx n }
    | entries + 1 => w.put n { t with entries := entries, stage := .rows }
  | .online _, .online true => w.put n { t with stage := .update }
  | .online playerid, .online false =>
    match w.maps.get_player_city playerid with
    | some cityobj => w.put n { t with stage := .leave cityobj }
    | none => w.put n { t with stage := .sleep }
  | .update, _ => w.put n { t with stage := .sleep }
  | .leave cityobj, _ => { w with maps := w.maps.remove_object cityobj }.put n { t with stage := .remove cityobj }
  | .remove _, _ => w.put n { t with stage := .sleep }
  | _, _ => w

def turn : Event → World × Option (Move × Bool)
  | .onMoveCityOut toServerid playerid x y plycache wallinfo =>
    w.onMoveCityOut getPlayerCitydurability kid toServerid playerid x y plycache wallinfo
  | .onMoveCityIn fromServerid playerid x y => w.onMoveCityIn getPlayerCitydurability kid fromServerid playerid x y
  | .reply n =>
    match w.moves[n]? with
    | some m => (w.drop n).proceed getPlayerCitydurability m
    | none => (w, none)
  | .onSupplyTimerCallback entries => ({ w with refreshes := w.refreshes ++ [⟨entries, [], .entry⟩] }, none)
  | .refresh n r =>
    match w.refreshes[n]? with
    | some t => (w.refreshed n t r, none)
    | none => (w, none)

def step (e : Event) : World := (w.turn getPlayerCitydurability kid e).1

def answer (e : Event) : Option (Move × Bool) := (w.turn getPlayerCitydurability kid e).2

end World
end PlayerCity
end Sncpp
