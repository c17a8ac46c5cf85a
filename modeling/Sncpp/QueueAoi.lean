import Mathlib.Data.List.Dedup
import Mathlib.Data.List.FinRange
import Sncpp.Aoi
import Sncpp.Line
/-!
# QueueAoi — marches on the map

`queue/aoi/*.lua`: a `queueAoi` binds each march (`queue`) to the grids its path runs through, or to the grid it stays
in, and tells the watchers around when that changes; `queueAoiMgr` keeps one for each level that has `queueTypes`, and
a `queueWatcher` per player.  The grids hold references to watchers and marches; here they hold their ids.  A march's
attributes come with the call that follows their change.
-/
namespace Sncpp
namespace QueueAoi

open Aoi (Board getCoordId)

/-- A point of a march's path; `railway` marks a leg by train. -/
structure Point where
  x : Nat
  y : Nat
  railway : Bool

/-- The attributes of a march that are read here; `path` is `moveTimeSpan.path or {}`. -/
structure Queue where
  queueType : Option Nat
  status : Option Nat
  path : List Point
  fromX : Nat
  fromY : Nat
  toX : Nat
  toY : Nat

/-- `queueConf.queueStatus`, but for `occupying`, which the table lacks. -/
def massing : Nat := 1
def moving : Nat := 2
def staying : Nat := 3
def following : Nat := 4

/-- What else is read from the configuration: `queueConf.queueStatus.occupying`, and the static table
`railway_queue_aoi`, by the two coordinate ids of a leg, the smaller first. -/
structure Static where
  occupying : Option Nat
  railwayQueueAoi : Int × Int → Option (List Int)

section Bound

variable (S : Static) (b : Board)

/-- `lineThroughGrids`: grids are added up to the first that the map does not have. -/
def lineThroughGrids (ret : List Int) (g₀ g₁ : Nat × Nat) : List Int :=
  let l : Line := ⟨g₀.1, g₀.2, g₁.1, g₁.2⟩
  let seen := l.walk (fun c => b.isGrid (getCoordId c.1 c.2)) (l.steps + 1) l.start
  (seen.getD ([], false)).1.foldl (fun ret c => ret.insert (getCoordId c.1 c.2)) ret

/-- The grids of a leg by train, up to the first that the map does not have. -/
def railwayGrids (ret : List Int) (keys : List Int) : List Int :=
  (keys.takeWhile b.isGrid).foldl (fun ret k => ret.insert k) ret

def legGrids (ret : List Int) (p q : Point) : List Int :=
  if p.railway then
    let id₁ := getCoordId p.x p.y
    let id₂ := getCoordId q.x q.y
    match S.railwayQueueAoi (if id₁ > id₂ then (id₂, id₁) else (id₁, id₂)) with
    | some keys => railwayGrids b ret keys
    | none => ret
  else lineThroughGrids b ret (b.toGridXy p.x p.y) (b.toGridXy q.x q.y)

def pathGrids : List Int → List Point → List Int
  | ret, [] => ret
  | ret, [_] => ret
  | ret, p :: q :: path => pathGrids (legGrids S b ret p q) (q :: path)

def pointGrid (x y : Nat) : List Int := if b.isGrid (b.getGridKey x y) then [b.getGridKey x y] else []

/-- **The grids a march is to be bound to**; `addQueue` and `updateQueue` compute them by the same text. -/
def boundGrids (q : Queue) : List Int :=
  if q.status = some moving then pathGrids S b [] q.path
  else if q.status = some staying ∨ q.status = S.occupying then pointGrid b q.toX q.toY
  else if q.status = some massing then pointGrid b q.fromX q.fromY
  else []

end Bound

/-- `queueAoi`: the players and marches of each grid, and the grids of each march. -/
structure Level where
  watchers : Int → List Nat := fun _ => []
  queues : Int → List Nat := fun _ => []
  queueGridRef : Nat → Option (List Int) := fun _ => none

inductive Msg
  | updateViewQueue (q : Nat)
  | updateViewQueueLittle (q : Nat)
  | removeViewQueue (q : Nat)

/-- Which of the two keys that matter `changeKeys` names. -/
structure Keys where
  moveTimeSpan : Bool
  status : Bool

namespace Level

variable (S : Static) (b : Board) (a : Level)

def getQueueWatchers (grids : List Int) : List Nat := ((grids.flatMap b.around).flatMap a.watchers).dedup

def put (q : Nat) (grids : List Int) : Level :=
  { a with queues := fun k => if grids.contains k then (a.queues k).insert q else a.queues k }

def drop (q : Nat) (grids : List Int) : Level :=
  { a with queues := fun k => if grids.contains k then (a.queues k).filter (fun p => p != q) else a.queues k }

def setRef (q : Nat) (ref : Option (List Int)) : Level :=
  { a with queueGridRef := Function.update a.queueGridRef q ref }

def tell (owner : Nat) (uids : List Nat) (msg : Msg) : List (Nat × Msg) :=
  (uids.filter (fun p => p != owner)).map (fun p => (p, msg))

def removeQueue (q owner : Nat) : Level × List (Nat × Msg) :=
  let grids := (a.queueGridRef q).getD []
  (((a.drop q grids).setRef q none), tell owner (a.getQueueWatchers b grids) (.removeViewQueue q))

def addQueue (q owner : Nat) (att : Queue) (isInit : Bool) : Level × List (Nat × Msg) :=
  let gone := if (a.queueGridRef q).isSome then a.removeQueue b q owner else (a, [])
  let ret := boundGrids S b att
  if ret.isEmpty then gone
  else
    let a := (gone.1.setRef q (some ret)).put q ret
    (a, gone.2 ++ if isInit then [] else tell owner (a.getQueueWatchers b ret) (.updateViewQueue q))

def renews (changeKeys : Option Keys) : Bool :=
  match changeKeys with
  | none => true
  | some ck => ck.moveTimeSpan || ck.status

/-- The grids that are left, entered and kept; without a new look all are kept. -/
def change (q : Nat) (att : Queue) (changeKeys : Option Keys) : Level × List Int × List Int × List Int :=
  match a.queueGridRef q with
  | none => (a, [], [], [])
  | some old =>
    if renews changeKeys then
      let ret := boundGrids S b att
      let rmgrids := old.filter (fun k => !ret.contains k)
      let newgrids := ret.filter (fun k => !old.contains k)
      let keepgrids := ret.filter (fun k => old.contains k)
      (((a.drop q rmgrids).setRef q (some ret)).put q ret, rmgrids, newgrids, keepgrids)
    else (a, [], [], old)

def updateQueue (q owner : Nat) (att : Queue) (changeKeys : Option Keys) : Level × List (Nat × Msg) :=
  let (a, rmgrids, newgrids, keepgrids) := a.change S b q att changeKeys
  let full := (a.getQueueWatchers b newgrids).filter (fun p => p != owner)
  let little := (a.getQueueWatchers b keepgrids).filter (fun p => p != owner && !full.contains p)
  let gone := (a.getQueueWatchers b rmgrids).filter (fun p => p != owner && !full.contains p && !little.contains p)
  (a, full.map (fun p => (p, .updateViewQueue q)) ++
    little.map (fun p => (p, if changeKeys.isSome then .updateViewQueueLittle q else .updateViewQueue q)) ++
    gone.map (fun p => (p, .removeViewQueue q)))

end Level

/-- An entry of the levels' configuration: whether the level has `queueTypes`, and up to which radius. -/
structure Conf where
  offset : Nat
  queueTypes : Bool
  queueOffsetMax : Nat

/-- What `queueAoiMgr:init` is given, and what is read from `queueConf`: its table has neither `map_size` nor a queue type
`brigade`.  A march's owner and the kingdom of a player's client do not change. -/
structure Setup where
  width : Nat
  height : Nat
  confs : List Conf
  mapSize : Option Nat
  brigade : Option Nat
  static : Static
  owner : Nat → Nat
  home : Nat → Nat
  confs_ne : confs ≠ []
  offset_pos : ∀ c ∈ confs, 0 < c.offset
  narrow : width < 10000
  covers : ∀ m, mapSize = some m → 0 < m ∧ m ≤ width ∧ m ≤ height

namespace Setup

variable (M : Setup)

abbrev Lv : Type := Fin M.confs.length

def conf (lv : M.Lv) : Conf := M.confs.get lv

def board (lv : M.Lv) : Board where
  width := M.width
  height := M.height
  offset := (M.conf lv).offset
  offset_pos := M.offset_pos _ (List.get_mem M.confs lv)
  narrow := M.narrow

def hasAoi (lv : M.Lv) : Bool := (M.conf lv).queueTypes

/-- The first level without `queueTypes` or that takes the radius, or the last. -/
def level (radius : Nat) : M.Lv :=
  if h : M.confs.findIdx (fun c => !c.queueTypes || decide (radius ≤ c.queueOffsetMax)) < M.confs.length then ⟨_, h⟩
  else ⟨M.confs.length - 1, Nat.sub_lt (List.length_pos_iff.2 M.confs_ne) Nat.one_pos⟩

end Setup

/-- The arguments of `reqViewMarch` after the player. -/
structure Req where
  serverid : Nat
  x : Nat
  y : Nat
  radius : Nat
  x_pos : 0 < x
  y_pos : 0 < y

/-- `queueWatcher`; `x`, `y`, `lv` and `serverid` are set together. -/
structure Watcher (M : Setup) where
  pos : Option (Nat × Nat × M.Lv × Nat) := none
  viewQueues : List Nat := []

structure Mgr (M : Setup) where
  aoiList : M.Lv → Level
  watcherList : Nat → Option (Watcher M)

structure Reply (M : Setup) where
  lv : M.Lv
  addQueues : List Nat := []
  delQueues : List Nat := []

structure Send where
  serverid : Option Nat
  uid : Nat
  msg : Msg

namespace Watcher

variable {M : Setup}

def setPosition (v : Watcher M) (x y : Nat) (lv : M.Lv) (serverid : Nat) : Watcher M where
  pos := some (x, y, lv, serverid)
  viewQueues :=
    if v.pos.map (fun q => q.2.2.1) != some lv || v.pos.map (fun q => q.2.2.2) != some serverid then [] else v.viewQueues

/-- `judge_viewqueue`: the marches in view now, against those of the last time. -/
def judgeViewqueue (v : Watcher M) (ret : List Nat) : Watcher M × List Nat × List Nat :=
  ({ v with viewQueues := ret }, ret.filter (fun q => !v.viewQueues.contains q),
    v.viewQueues.filter (fun q => !ret.contains q))

end Watcher

namespace Req

variable (M : Setup) (r : Req)

def lv : M.Lv := M.level r.radius

def cx (m : Nat) : Nat := min r.x m
def cy (m : Nat) : Nat := min r.y m

def stays (m : Nat) (v : Watcher M) : Bool :=
  match v.pos with
  | none => false
  | some (ox, oy, olv, _) => r.lv M == olv && M.hasAoi (r.lv M) &&
      (M.board (r.lv M)).toGridXy ox oy == (M.board (r.lv M)).toGridXy (r.cx m) (r.cy m)

end Req

namespace Mgr

variable {M : Setup} (s : Mgr M)

def start : Mgr M := ⟨fun _ => {}, fun _ => none⟩

def getWatcher (p : Nat) : Watcher M := (s.watcherList p).getD {}

def setWatcher (p : Nat) (v : Watcher M) : Mgr M := { s with watcherList := Function.update s.watcherList p (some v) }

def upd (lv : M.Lv) (k : Int) (f : List Nat → List Nat) : Mgr M :=
  let a := s.aoiList lv
  let a' := { a with watchers := Function.update a.watchers k (f (a.watchers k)) }
  { s with aoiList := Function.update s.aoiList lv a' }

def aoiAddWatcher (lv : M.Lv) (p x y : Nat) : Mgr M :=
  if (M.board lv).isGrid ((M.board lv).getGridKey x y) then s.upd lv ((M.board lv).getGridKey x y) (·.insert p) else s

def aoiRemoveWatcher (lv : M.Lv) (p x y : Nat) : Mgr M :=
  if (M.board lv).isGrid ((M.board lv).getGridKey x y) then
    s.upd lv ((M.board lv).getGridKey x y) (·.filter (fun q => q != p))
  else s

def leave (p : Nat) (v : Watcher M) : Mgr M :=
  match v.pos with
  | none => s
  | some (x, y, lv, _) => if M.hasAoi lv then s.aoiRemoveWatcher lv p x y else s

def queuesAround (lv : M.Lv) (p x y : Nat) : List Nat :=
  ((((M.board lv).walkGrids x y).flatMap (s.aoiList lv).queues).filter (fun q => M.owner q != p)).dedup

/-- `reqViewMarch`; it raises where it compares with `queueConf.map_size` and there is none. -/
def reqViewMarch (p : Nat) (r : Req) : Option (Mgr M × Reply M) :=
  M.mapSize.map (fun m =>
    let v := s.getWatcher p
    if r.stays M m v then (s.setWatcher p v, ⟨r.lv M, [], []⟩)
    else
      let placed := v.setPosition (r.cx m) (r.cy m) (r.lv M) r.serverid
      let moved := (s.leave p v).setWatcher p placed
      if M.hasAoi (r.lv M) then
        let here := moved.aoiAddWatcher (r.lv M) p (r.cx m) (r.cy m)
        let judged := placed.judgeViewqueue (here.queuesAround (r.lv M) p (r.cx m) (r.cy m))
        (here.setWatcher p judged.1, ⟨r.lv M, judged.2.1, judged.2.2⟩)
      else (moved, ⟨r.lv M, [], []⟩))

/-- A call to every level there is, but for a march of type `brigade`. -/
def onLevels (att : Queue) (f : (lv : M.Lv) → Level → Level × List (Nat × Msg)) : Mgr M × List Send :=
  if att.queueType = M.brigade then (s, [])
  else
    ({ s with aoiList := fun lv => if M.hasAoi lv then (f lv (s.aoiList lv)).1 else s.aoiList lv },
      (List.finRange M.confs.length).flatMap (fun lv =>
        if M.hasAoi lv then (f lv (s.aoiList lv)).2.map (fun m => ⟨(s.getWatcher m.1).pos.map (fun q => q.2.2.2), m.1, m.2⟩)
        else []))

def addQueue (q : Nat) (att : Queue) (isInit : Bool) : Mgr M × List Send :=
  s.onLevels att (fun lv a => a.addQueue M.static (M.board lv) q (M.owner q) att isInit)

def updateQueue (q : Nat) (att : Queue) (changeKeys : Option Keys) : Mgr M × List Send :=
  s.onLevels att (fun lv a => a.updateQueue M.static (M.board lv) q (M.owner q) att changeKeys)

def removeQueue (q : Nat) (att : Queue) : Mgr M × List Send :=
  s.onLevels att (fun lv a => a.removeQueue (M.board lv) q (M.owner q))

end Mgr

structure Client (M : Setup) where
  lv : Option M.Lv := none
  queues : Nat → Bool := fun _ => false

namespace Client

variable {M : Setup} (c : Client M)

def onReply (a : Reply M) : Client M where
  lv := some a.lv
  queues := fun q =>
    if a.addQueues.contains q then true
    else if a.delQueues.contains q then false
    else if c.lv == some a.lv then c.queues q else false

def onMsg : Msg → Client M
  | .updateViewQueue q => { c with queues := Function.update c.queues q true }
  | .updateViewQueueLittle _ => c
  | .removeViewQueue q => { c with queues := Function.update c.queues q false }

end Client

inductive Call
  | reqViewMarch (p : Nat) (r : Req)
  | addQueue (q : Nat) (att : Queue) (isInit : Bool)
  | updateQueue (q : Nat) (att : Queue) (changeKeys : Option Keys)
  | removeQueue (q : Nat) (att : Queue)

structure World (M : Setup) where
  mgr : Mgr M := .start
  client : Nat → Client M := fun _ => {}
  last : Nat → Option Req := fun _ => none

namespace World

variable {M : Setup} (w : World M)

def deliver (sends : List Send) (p : Nat) : Client M :=
  sends.foldl (fun c m => if m.uid == p && m.serverid == some (M.home p) then c.onMsg m.msg else c) (w.client p)

def step (w : World M) : Call → World M
  | .reqViewMarch p r =>
    match w.mgr.reqViewMarch p r with
    | none => { w with last := Function.update w.last p (some r) }
    | some (mgr, a) =>
      { mgr := mgr
        client := Function.update w.client p ((w.client p).onReply a)
        last := Function.update w.last p (some r) }
  | .addQueue q att isInit =>
    { w with mgr := (w.mgr.addQueue q att isInit).1, client := w.deliver (w.mgr.addQueue q att isInit).2 }
  | .updateQueue q att ck =>
    { w with mgr := (w.mgr.updateQueue q att ck).1, client := w.deliver (w.mgr.updateQueue q att ck).2 }
  | .removeQueue q att =>
    { w with mgr := (w.mgr.removeQueue q att).1, client := w.deliver (w.mgr.removeQueue q att).2 }

def run (es : List Call) : World M := es.foldl step {}

end World
end QueueAoi
end Sncpp
