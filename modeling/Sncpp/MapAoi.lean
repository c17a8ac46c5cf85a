import Mathlib.Data.List.FinRange
import Sncpp.Aoi
/-!
# MapAoi — who sees which part of the map

`mapslg/aoi/*.lua`: `mapAoiMgr` keeps one `mapAoi` per zoom level, each with its own grids (`mapGridCell`) of watchers
and map objects, and one `mapWatcher` per player.  `reqmapinfo` moves a watcher and answers with the grids that are
new in its view and those that left it; the objects' changes are pushed to the watchers around.
-/
namespace Sncpp
namespace MapAoi

open Aoi (Board)

def mapSize : Nat := 1197

def commandpost : Nat := 10

/-- An entry of `mapConf.world_aoi_confs`. -/
structure Conf where
  slv : Nat
  offset : Nat
  offsetMax : Nat
  mapTypes : List Nat

structure Site where
  type : Nat
  x : Nat
  y : Nat

/-- What `mapAoiMgr:init` is given, the map objects there may be, and the kingdom in which each player's client is.
`mapGridCell.lua` reads `mapConf` without requiring it: `hasMapConf` says whether there is a global of that name. -/
structure Setup where
  width : Nat
  height : Nat
  confs : List Conf
  hasMapConf : Bool
  site : Nat → Site
  home : Nat → Nat
  confs_ne : confs ≠ []
  offset_pos : ∀ c ∈ confs, 0 < c.offset
  narrow : width < 10000
  covers : mapSize ≤ width ∧ mapSize ≤ height
  inMap : ∀ o, 0 < (site o).x ∧ (site o).x ≤ width ∧ 0 < (site o).y ∧ (site o).y ≤ height

namespace Setup

variable (M : Setup)

/-- An index of `confs` and of `aoiList`; the source counts from 1. -/
abbrev Level : Type := Fin M.confs.length

def conf (lv : M.Level) : Conf := M.confs.get lv

def board (lv : M.Level) : Board where
  width := M.width
  height := M.height
  offset := (M.conf lv).offset
  offset_pos := M.offset_pos _ (List.get_mem M.confs lv)
  narrow := M.narrow

def level (radius : Nat) : M.Level :=
  if h : M.confs.findIdx (fun c => decide (radius ≤ c.offsetMax)) < M.confs.length then ⟨_, h⟩
  else ⟨M.confs.length - 1, Nat.sub_lt (List.length_pos_iff.2 M.confs_ne) Nat.one_pos⟩

def gridOf (lv : M.Level) (o : Nat) : Int := (M.board lv).getGridKey (M.site o).x (M.site o).y

def shows (lv : M.Level) (o : Nat) : Bool := (M.conf lv).mapTypes.contains (M.site o).type

end Setup

/-- The map types the first two levels show, and those the others do. -/
def nearTypes : List Nat := [1, 2, 4, 5, 6, 7, 8, 9, 10, 11, 12, 13, 14]
def farTypes : List Nat := [7, 8, 9, 11, 14, 10]

def worldAoiConfs : List Conf :=
  [⟨1, 18, 36, nearTypes⟩, ⟨2, 27, 54, nearTypes⟩, ⟨3, 45, 90, farTypes⟩, ⟨3, 63, 126, farTypes⟩, ⟨3, 81, 162, farTypes⟩,
    ⟨4, 99, 198, farTypes⟩, ⟨4, 135, 270, farTypes⟩, ⟨4, 171, 342, farTypes⟩, ⟨4, 207, 414, farTypes⟩,
    ⟨4, 243, 486, farTypes⟩]

/-- The source's levels on a map of its own size, where no file sets a global `mapConf`. -/
def worldSetup (site : Nat → Site) (home : Nat → Nat) (h : ∀ o, 0 < (site o).x ∧ (site o).x ≤ mapSize ∧
    0 < (site o).y ∧ (site o).y ≤ mapSize) : Setup where
  width := mapSize
  height := mapSize
  confs := worldAoiConfs
  hasMapConf := false
  site := site
  home := home
  confs_ne := by decide
  offset_pos := by decide
  narrow := by decide
  covers := by decide
  inMap := h

/-- The arguments of `reqmapinfo` after the player. -/
structure Req where
  kid : Nat
  x : Nat
  y : Nat
  radius : Nat
  ispost : Option Bool
  x_pos : 0 < x
  y_pos : 0 < y

structure Data (β : Type) where
  isAct : Bool
  body : β

structure Cell where
  watchers : List Nat := []
  objects : List Nat := []

def Cell.addWatcher (c : Cell) (p : Nat) : Cell := { c with watchers := c.watchers.insert p }

def Cell.removeWatcher (c : Cell) (p : Nat) : Cell := { c with watchers := c.watchers.filter (fun q => q != p) }

def Cell.addObject (c : Cell) (o : Nat) : Cell := { c with objects := c.objects.insert o }

def Cell.removeObject (c : Cell) (o : Nat) : Cell := { c with objects := c.objects.filter (fun q => q != o) }

def truthy (v : Option Bool) : Bool := v == some true

variable {β : Type}

/-- Whether `pack_message_data` lists an object; it raises where it reads the global `mapConf` and there is none. -/
def Setup.packs (M : Setup) (slv : Nat) (ispost : Option Bool) (o : Nat) (d : Data β) : Option Bool :=
  if !truthy ispost && decide (3 ≤ slv) then
    if M.hasMapConf then some (!((M.site o).type == commandpost && !d.isAct)) else none
  else some true

def Setup.packMessageData (M : Setup) (slv : Nat) (ispost : Option Bool) (data : Nat → Data β) :
    List Nat → Option (List (Nat × Data β))
  | [] => some []
  | o :: os => do
    let keep ← M.packs slv ispost o (data o)
    let ret ← M.packMessageData slv ispost data os
    pure (if keep then (o, data o) :: ret else ret)

/-- `mapWatcher`; `x`, `y` and `lv` are set together. -/
structure Watcher (M : Setup) where
  pos : Option (Nat × Nat × M.Level) := none
  kid : Option Nat := none
  ispost : Option Bool := none
  viewgrid : List Int := []

section Watcher

variable {M : Setup}

def Watcher.setPosition (v : Watcher M) (x y : Nat) (lv : M.Level) (kid : Nat) (ispost : Option Bool) : Watcher M where
  pos := some (x, y, lv)
  kid := some kid
  ispost := ispost
  viewgrid :=
    if v.pos.map (fun q => q.2.2) != some lv || v.kid != some kid || v.ispost != ispost then [] else v.viewgrid

/-- `judge_viewgrid`: the grids that are new in the view and those that left it. -/
def Watcher.judgeViewgrid (v : Watcher M) (grids : List Int) : Watcher M × List Int × List Int :=
  let delgrids := v.viewgrid.filter (fun k => !grids.contains k)
  let stay := v.viewgrid.filter (fun k => grids.contains k)
  let addgrids := grids.filter (fun k => !stay.contains k)
  ({ v with viewgrid := stay ++ addgrids }, addgrids, delgrids)

end Watcher

structure Mgr (M : Setup) (β : Type) where
  aoiList : M.Level → Int → Cell
  watcherList : Nat → Option (Watcher M)
  data : Nat → Data β

/-- What is sent to a client; `reqmapinfo`'s answer leaves the level out when the watcher has not moved. -/
structure Reply (M : Setup) (β : Type) where
  lv : Option M.Level := none
  newgrids : List (Int × List (Nat × Data β)) := []
  delgrids : List Int := []

inductive Msg (β : Type)
  | updatemapobject (gridid : Int) (o : Nat) (d : Data β)
  | removemapobject (gridid : Int) (o : Nat)

/-- A message to one player of one kingdom; `gateLib:sendMsgToPlayers` takes a kingdom's players at once. -/
structure Send (β : Type) where
  kid : Option Nat
  uid : Nat
  msg : Msg β

namespace Mgr

variable {M : Setup} (s : Mgr M β)

def start (data : Nat → Data β) : Mgr M β := ⟨fun _ _ => {}, fun _ => none, data⟩

def upd (lv : M.Level) (k : Int) (f : Cell → Cell) : Mgr M β :=
  { s with aoiList := Function.update s.aoiList lv (Function.update (s.aoiList lv) k (f (s.aoiList lv k))) }

def aoiAddWatcher (lv : M.Level) (p x y : Nat) : Mgr M β :=
  if (M.board lv).isGrid ((M.board lv).getGridKey x y) then s.upd lv ((M.board lv).getGridKey x y) (Cell.addWatcher · p)
  else s

/-- The second part of `mapAoi:remove_watcher`, over all grids. -/
def sweep (lv : M.Level) (p : Nat) : Mgr M β :=
  { s with aoiList := Function.update s.aoiList lv (fun k =>
      if (M.board lv).isGrid k && (s.aoiList lv k).watchers.contains p then (s.aoiList lv k).removeWatcher p
      else s.aoiList lv k) }

def aoiRemoveWatcher (lv : M.Level) (p x y : Nat) : Mgr M β :=
  if (M.board lv).isGrid ((M.board lv).getGridKey x y) then
    (s.upd lv ((M.board lv).getGridKey x y) (Cell.removeWatcher · p)).sweep lv p
  else s

def setWatcher (p : Nat) (v : Option (Watcher M)) : Mgr M β := { s with watcherList := Function.update s.watcherList p v }

def getWatcher (p : Nat) : Watcher M := (s.watcherList p).getD {}

def removeWatcher (p : Nat) : Mgr M β :=
  match s.watcherList p with
  | none => s.setWatcher p none
  | some v =>
    match v.pos with
    | none => s -- `get_grid(nil, nil)` raises
    | some (x, y, _) =>
      ((List.finRange M.confs.length).foldl (fun s lv => s.aoiRemoveWatcher lv p x y) s).setWatcher p none

def getPosWatcherUids (lv : M.Level) (x y : Nat) : List (Option Nat × Nat) :=
  ((M.board lv).walkGrids x y).flatMap (fun k =>
    (s.aoiList lv k).watchers.map (fun p => ((s.getWatcher p).kid, p)))

end Mgr

namespace Req

variable (M : Setup) (r : Req)

def cx : Nat := min r.x mapSize
def cy : Nat := min r.y mapSize

def lv : M.Level := M.level r.radius

def post : Option Bool := if (M.conf (r.lv M)).slv != 3 then none else r.ispost

def grid : Nat × Nat := (M.board (r.lv M)).toGridXy r.cx r.cy

def view : List Int := (M.board (r.lv M)).walkGrids r.cx r.cy

/-- Whether the watcher is at the level and in the grid asked for already (`get_position` returns no `ispost`, so that the
old one counts as unset). -/
def stays (v : Watcher M) : Bool :=
  match v.pos with
  | none => false
  | some (ox, oy, olv) => r.lv M == olv && !truthy (r.post M) && (M.board (r.lv M)).toGridXy ox oy == r.grid M

/-- The watcher after `set_position`. -/
def place (v : Watcher M) : Watcher M := v.setPosition r.cx r.cy (r.lv M) r.kid (r.post M)

end Req

namespace Mgr

variable {M : Setup} (s : Mgr M β)

def leave (p : Nat) (v : Watcher M) : Mgr M β :=
  match v.pos with
  | none => s
  | some (x, y, lv) => s.aoiRemoveWatcher lv p x y

def packGrids (lv : M.Level) (ispost : Option Bool) : List Int → Option (List (Int × List (Nat × Data β)))
  | [] => some []
  | k :: ks => do
    let objs ← M.packMessageData (M.conf lv).slv ispost s.data (s.aoiList lv k).objects
    let ret ← packGrids lv ispost ks
    pure ((k, objs) :: ret)

/-- `reqmapinfo`; without a reply where it raises. -/
def reqmapinfo (p : Nat) (r : Req) : Mgr M β × Option (Reply M β) :=
  let v := s.getWatcher p
  if r.stays M v then (s.setWatcher p (some v), some {})
  else
    let placed := ((s.leave p v).setWatcher p (some (r.place M v))).aoiAddWatcher (r.lv M) p r.cx r.cy
    let judged := (r.place M v).judgeViewgrid (r.view M)
    let seen := placed.setWatcher p (some judged.1)
    (seen, (seen.packGrids (r.lv M) (r.post M) judged.2.1).map
      (fun newgrids => { lv := some (r.lv M), newgrids := newgrids, delgrids := judged.2.2 }))

def push (lv : M.Level) (o : Nat) (msg : Msg β) : List (Send β) :=
  (s.getPosWatcherUids lv (M.site o).x (M.site o).y).map (fun w => ⟨w.1, w.2, msg⟩)

def reaches (M : Setup) (lv : M.Level) (o : Nat) : Bool := M.shows lv o && (M.board lv).isGrid (M.gridOf lv o)

def onGrids (o : Nat) (f : Cell → Cell) : Mgr M β :=
  { s with aoiList := fun lv =>
      if reaches M lv o then Function.update (s.aoiList lv) (M.gridOf lv o) (f (s.aoiList lv (M.gridOf lv o)))
      else s.aoiList lv }

def pushAll (o : Nat) (msg : M.Level → Msg β) : List (Send β) :=
  (List.finRange M.confs.length).flatMap (fun lv => if reaches M lv o then s.push lv o (msg lv) else [])

def setData (o : Nat) (d : Data β) : Mgr M β := { s with data := Function.update s.data o d }

def addObject (o : Nat) (d : Data β) : Mgr M β × List (Send β) :=
  let s := (s.setData o d).onGrids o (Cell.addObject · o)
  (s, s.pushAll o (fun lv => .updatemapobject (M.gridOf lv o) o d))

def removeObject (o : Nat) : Mgr M β × List (Send β) :=
  let s := s.onGrids o (Cell.removeObject · o)
  (s, s.pushAll o (fun lv => .removemapobject (M.gridOf lv o) o))

/-- What `update_object` sends: a command post without an owner is hidden from afar. -/
def updateMsg (M : Setup) (o : Nat) (d : Data β) (lv : M.Level) : Msg β :=
  if (M.site o).type == commandpost && decide (3 ≤ (M.conf lv).slv) && !d.isAct then .removemapobject (M.gridOf lv o) o
  else .updatemapobject (M.gridOf lv o) o d

def updateObject (o : Nat) (d : Data β) : Mgr M β × List (Send β) :=
  let s := s.setData o d
  (s, s.pushAll o (updateMsg M o d))

end Mgr

/-- What a client keeps: the level of the last answer and the objects of each grid it was given. -/
structure Client (M : Setup) (β : Type) where
  lv : Option M.Level := none
  grids : Int → Option (Nat → Option (Data β)) := fun _ => none

namespace Client

variable {M : Setup} (c : Client M β)

def keep (lv : M.Level) : Int → Option (Nat → Option (Data β)) := if c.lv == some lv then c.grids else fun _ => none

def onReply (a : Reply M β) : Client M β :=
  match a.lv with
  | none => c
  | some lv =>
    { lv := some lv
      grids := fun k =>
        match a.newgrids.lookup k with
        | some objs => some (fun o => objs.lookup o)
        | none => if a.delgrids.contains k then none else c.keep lv k }

def put (k : Int) (o : Nat) (d : Option (Data β)) : Client M β :=
  { c with grids := Function.update c.grids k ((c.grids k).map (fun objs => Function.update objs o d)) }

def onMsg : Msg β → Client M β
  | .updatemapobject k o d => c.put k o (some d)
  | .removemapobject k o => c.put k o none

end Client

inductive Op (β : Type)
  | addObject (o : Nat) (d : Data β)
  | updateObject (o : Nat) (d : Data β)
  | removeObject (o : Nat)
  | reqmapinfo (p : Nat) (r : Req)
  | removeWatcher (p : Nat)

/-- The manager, the players' clients, each player's last request, and which objects are on the map. -/
structure World (M : Setup) (β : Type) where
  mgr : Mgr M β
  client : Nat → Client M β := fun _ => {}
  last : Nat → Option Req := fun _ => none
  live : Nat → Bool := fun _ => false

namespace World

variable {M : Setup} (w : World M β)

def start (data : Nat → Data β) : World M β := { mgr := .start data }

def deliver (sends : List (Send β)) (p : Nat) : Client M β :=
  (sends.filter (fun m => m.uid == p && m.kid == some (M.home p))).foldl (fun c m => c.onMsg m.msg) (w.client p)

def step (w : World M β) : Op β → World M β
  | .addObject o d =>
    { w with
      mgr := (w.mgr.addObject o d).1
      client := w.deliver (w.mgr.addObject o d).2
      live := Function.update w.live o true }
  | .updateObject o d =>
    { w with
      mgr := (w.mgr.updateObject o d).1
      client := w.deliver (w.mgr.updateObject o d).2 }
  | .removeObject o =>
    { w with
      mgr := (w.mgr.removeObject o).1
      client := w.deliver (w.mgr.removeObject o).2
      live := Function.update w.live o false }
  | .reqmapinfo p r =>
    { w with
      mgr := (w.mgr.reqmapinfo p r).1
      client := Function.update w.client p (((w.mgr.reqmapinfo p r).2.map (w.client p).onReply).getD (w.client p))
      last := Function.update w.last p (some r) }
  | .removeWatcher p => { w with mgr := w.mgr.removeWatcher p }

/-- The world after the operations, from no watchers and no objects. -/
def run (data : Nat → Data β) (es : List (Op β)) : World M β := es.foldl step (start data)

end World
end MapAoi
end Sncpp
