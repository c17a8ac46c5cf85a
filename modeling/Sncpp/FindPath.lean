import Mathlib.Data.List.Sort
import Sncpp.AStar
import Sncpp.Steps
/-!
# FindPath — ways over the chunks (`MapSearch::FindPath`)

A way is looked for over the chunks first, each of nine by nine cells.  Where the chunk of an end is a wall, rings around it
are searched for one of the zone of the goal (`scout`).  Then the chunks of the way are gone through, and each turn says how
the list of points goes on (`Plan`): along a search of the cells, by rail, or through a connection of two zones.
-/
namespace Sncpp
namespace MapSearch

open AStar

structure Connect (n : Nat) where
  zone1 : Int
  p1 : Pos n
  zone2 : Int
  p2 : Pos n

/-- A call, with what it reads: `beyond` lies in memory around the grid of the chunks, `chunckTime` is `railwayTime/9.0`. -/
structure Call (n k : Nat) (C : Type) where
  map : Chart n
  chunck : Chart k
  zoneconnect : List (Connect n)
  beyond : Int → Int
  aid : Nat
  walk : Int → Int → Int → Int → C
  railwayTime : C
  chunckTime : C
  x₁ : Nat
  y₁ : Nat
  x₂ : Nat
  y₂ : Nat

variable {n k : Nat} {C : Type}

structure Scout where
  cx : Int
  cy : Int
  isfind : Bool
  reads : List (Int × Int)

inductive Side
  | left
  | right
  | top
  | bottom

def span (c : Int) (r : Nat) : List Int := (List.range (2 * r + 1)).map fun j : Nat => c - r + j

def Side.points (s : Scout) (r : Nat) : Side → List (Int × Int)
  | left => (span s.cy (r + 1)).map fun ny => (s.cx - (r + 1), ny)
  | right => (span s.cy (r + 1)).map fun ny => (s.cx + (r + 1), ny)
  | top => (span s.cx r).map fun nx => (nx, s.cy - (r + 1))
  | bottom => (span s.cx r).map fun nx => (nx, s.cy + (r + 1))

def sides : List Side := [.left, .right, .top, .bottom]

def xToChunckX (x : Nat) : Int := x / 9

namespace Call

variable (c : Call n k C)

def zoneAt (z : Int × Int) : Int :=
  let i := z.2 * k + z.1
  match spot k (i % k) (i / k) with
  | some p => c.chunck.subzone p
  | none => c.beyond i

/-- A side is gone through up to the first chunk of the zone.  The row is checked, the column is not. -/
def look (zone : Int) (s : Scout) : List (Int × Int) → Scout
  | [] => s
  | z :: zs =>
    if 0 ≤ z.2 ∧ z.2 < k ∧ z.1 ≠ s.cx ∧ z.2 ≠ s.cy then
      let s := { s with reads := s.reads ++ [z] }
      if c.zoneAt z = zone then { s with cx := z.1, cy := z.2, isfind := true } else look zone s zs
    else look zone s zs

/-- The sides of a ring are all gone through, each around the chunk that was found last. -/
def walkSide (zone : Int) (r : Nat) (s : Scout) (side : Side) : Scout := c.look zone s (side.points s r)

def ring (zone : Int) (s : Scout) (r : Nat) : Scout := if s.isfind then s else sides.foldl (c.walkSide zone r) s

def scoutAt (p : Pos n) : Scout :=
  ⟨xToChunckX p.1, xToChunckX p.2, false, [(xToChunckX p.1, xToChunckX p.2)]⟩

def scout (zone : Int) (p : Pos n) : Scout :=
  if c.zoneAt (xToChunckX p.1, xToChunckX p.2) = WALL then (List.range 10).foldl (c.ring zone) (scoutAt p)
  else { scoutAt p with isfind := true }

def fine : Query n C := ⟨c.map, c.aid, 1, c.walk, c.railwayTime⟩

def coarse : Query k C := ⟨c.chunck, c.aid, 8, c.walk, c.chunckTime⟩

/-- The points of the entry of `zoneconnect` under two zones. -/
def connects (zone1 zone2 : Int) : List (Pos n) :=
  c.zoneconnect.flatMap fun r =>
    (if r.zone1 = zone1 ∧ r.zone2 = zone2 then [r.p1] else []) ++ (if r.zone2 = zone1 ∧ r.zone1 = zone2 then [r.p2] else [])

def zones : List Int := (c.zoneconnect.flatMap fun r => [r.zone1, r.zone2]).dedup.insertionSort (· ≤ ·)

def findConnect (subzone₁ subzone₂ : Int) (gph : Option (Pos k)) : Option (Pos n) :=
  match gph with
  | none => none
  | some g =>
    let ps := if subzone₁ = CHECK then c.zones.flatMap (c.connects subzone₂) else c.connects subzone₁ subzone₂
    ps.find? fun p => (xToChunckX p.1 - g.1).natAbs ≤ 2 && (xToChunckX p.2 - g.2).natAbs ≤ 2

/-- `isRailwayConnect`, and `isChunckRailwayConnect` over the chunks. -/
def isRailwayConnect {m : Nat} (chart : Chart m) (id1 id2 : Int) : Bool :=
  match chart.railway.lookup id1 with
  | some vec => vec.any fun r => r.id == id2
  | none => false

/-- A railway leads from one cell to the other, and the alliance may use the stations of both. -/
def rides (a b : Pos n) : Bool :=
  c.fine.usable a.id && c.fine.usable b.id && isRailwayConnect c.map a.id b.id

end Call

def mid (n : Nat) (g : Pos k) : Option (Pos n) := spot n (g.1 * 9 + 4) (g.2 * 9 + 4)

/-- How the list of points goes on: not at all, or with a comparison that is made anew, or with an error; by rail to the end,
or from station to station; along a search; through a connection of zones, or to the end. -/
inductive Plan (n : Nat)
  | pass
  | skip (subzone₁ : Int)
  | fail
  | arrive (t₁ t₂ : Pos n)
  | ride (t₁ t₃ t₂ : Pos n)
  | walk (t₁ t₂ : Pos n) (rail : Bool)
  | cross (t₁ g₃ g₄ : Pos n)
  | finish (t₁ : Pos n) (conn : Option (Pos n × Pos n))

/-- The cells with `m_clear1`, `m_ptr1`, and the other variables of the loop; `isfirst` is `ps1 == ptr1->begin()`, and
without `ok` the call returns no path. -/
structure Tour (n k : Nat) (C : Type) where
  field : Field n C
  ptr : List (Pos n)
  gph₁ : Pos k
  subzone₁ : Int
  lastcheck : Option (Pos k)
  isfirst : Bool
  going : Bool
  ok : Bool

structure Trail (n k : Nat) where
  start : Pos n
  goal : Pos n
  first : Pos k
  rest : List (Pos k)
  israilway : Pos k → Bool

def Trail.back (tr : Trail n k) : Pos k := tr.rest.getLastD tr.first

namespace Tour

variable (t : Tour n k C)

def mark (p : Pos n) : Tour n k C :=
  { t with field := t.field.setNode p { t.field.node p with israilway := true } }

def addToPtr (p : Pos n) : Tour n k C :=
  if t.ptr.contains p then t
  else { t with field := { t.field with clear := t.field.clear ++ [p] }, ptr := t.ptr ++ [p] }

def board (p : Pos n) : Tour n k C := (t.mark p).addToPtr p

def fail : Tour n k C := { t with going := false, ok := false }

def here (start : Pos n) : Pos n := if t.isfirst then start else t.ptr.getLastD start

def andThen (f : Tour n k C → Tour n k C) : Tour n k C := if t.ok then f t else t

end Tour

namespace Call

variable (c : Call n k C) (tr : Trail n k)

/-- A chunk whose middle lies beyond the map counts as an error, as the next search makes it one. -/
def plan (t : Tour n k C) (gph₂ : Pos k) : Plan n :=
  let subzone₂ := c.chunck.subzone gph₂
  let t₁ := t.here tr.start
  if ¬((subzone₂ ≠ t.subzone₁ ∨ tr.israilway t.gph₁ ∨ tr.israilway gph₂) ∧ subzone₂ ≠ CHECK ∨ gph₂ = tr.back) then .pass
  else if tr.israilway t.gph₁ ∧ tr.israilway gph₂ then
    match mid n t.gph₁, mid n gph₂ with
    | t₃, some t₂ =>
      if gph₂ = tr.back then .arrive t₁ t₂
      else if isRailwayConnect c.chunck t.gph₁.id gph₂.id then
        match t₃ with
        | some t₃ => .ride t₁ t₃ t₂
        | none => .fail
      else .walk t₁ t₂ false
    | _, none => .fail
  else if tr.israilway gph₂ then
    match mid n gph₂ with
    | some t₂ => .walk t₁ t₂ true
    | none => .fail
  else
    let subzone₁ := c.map.subzone t₁
    if subzone₁ = subzone₂ ∧ gph₂ ≠ tr.back then .skip subzone₁
    else
      match c.findConnect subzone₁ subzone₂ t.lastcheck, c.findConnect subzone₂ subzone₁ t.lastcheck with
      | some g₃, some g₄ =>
        if gph₂ = tr.back then .finish t₁ (some (g₃, g₄))
        else if subzone₁ = CHECK ∧ ¬tr.israilway t.gph₁ then .walk t₁ g₃ false
        else .cross t₁ g₃ g₄
      | g₃, _ =>
        if gph₂ = tr.back then .finish t₁ none
        else
          match g₃ with
          | some g₃ => if subzone₁ = CHECK ∧ ¬tr.israilway t.gph₁ then .walk t₁ g₃ false else .fail
          | none => .fail

section

variable [Zero C] [Add C] [LT C] [DecidableLT C]

/-- `p_astar->GetPath`; there are no more turns than cells. -/
def go (a b : Pos n) (t : Tour n k C) : Tour n k C :=
  match c.fine.getPath (n * n + 1) a.1 a.2 b.1 b.2 t.ptr t.field with
  | some (field, some ptr) => { t with field, ptr }
  | some (field, none) => { t.fail with field }
  | none => t.fail

def next (gph₂ : Pos k) (t : Tour n k C) : Tour n k C :=
  if gph₂ = tr.back then { t with going := false }
  else { t with gph₁ := gph₂, subzone₁ := c.chunck.subzone gph₂, isfirst := false }

def exec (gph₂ : Pos k) (t : Tour n k C) : Plan n → Tour n k C
  | .pass => t
  | .skip subzone₁ => { t with subzone₁ }
  | .fail => t.fail
  | .arrive t₁ t₂ =>
    let t := (t.board t₁).board t₂
    (if t₂ = tr.goal then t else c.go t₂ tr.goal t).andThen (c.next tr gph₂)
  | .ride t₁ t₃ t₂ =>
    ((if t₃ = t₁ then t else c.go t₁ t₃ t).andThen fun t => (t.board t₃).board t₂).andThen (c.next tr gph₂)
  | .walk t₁ t₂ rail =>
    ((c.go t₁ t₂ t).andThen fun t => if rail then t.mark t₂ else t).andThen (c.next tr gph₂)
  | .cross t₁ g₃ g₄ => ((c.go t₁ g₃ t).andThen fun t => t.addToPtr g₄).andThen (c.next tr gph₂)
  | .finish t₁ none => (c.go t₁ tr.goal t).andThen (c.next tr gph₂)
  | .finish t₁ (some (g₃, g₄)) =>
    ((c.go t₁ g₃ t).andThen (c.go g₄ tr.goal)).andThen (c.next tr gph₂)

def see (t : Tour n k C) (gph₂ : Pos k) : Tour n k C :=
  if c.chunck.subzone gph₂ = CHECK then { t with lastcheck := some gph₂ } else t

def turn (t : Tour n k C) (gph₂ : Pos k) : Tour n k C :=
  if t.going then c.exec tr gph₂ (c.see t gph₂) (c.plan tr (c.see t gph₂) gph₂) else t

end

def setOut (field : Field n C) : Tour n k C :=
  ⟨field, [], tr.first, c.chunck.subzone tr.first,
    if c.chunck.subzone tr.first = CHECK then some tr.first else none, true, true, true⟩

def markRail (field : Field n C) (ab : Pos n × Pos n) : Field n C :=
  if c.rides ab.1 ab.2 ∧ (field.node ab.1).israilway = false then
    { field.setNode ab.1 { field.node ab.1 with israilway := true } with clear := field.clear ++ [ab.1] }
  else field

def marks (ptr : List (Pos n)) (field : Field n C) : Field n C :=
  if 0 < c.aid then
    (ptr.zip ptr.tail).foldl c.markRail
      (ptr.foldl (fun field p => field.setNode p { field.node p with israilway := false }) field)
  else field

end Call

structure World (n k : Nat) (C : Type) where
  fine : Field n C
  coarse : Field k C

def uint (x : Int) : Nat := (x % 2 ^ 32).toNat

variable [Zero C] [Add C] [LT C] [DecidableLT C]

def World.fresh : World n k C := ⟨Field.fresh, Field.fresh⟩

namespace Call

variable (c : Call n k C)

def ends : Option (Pos n × Pos n) :=
  match spot n c.x₁ c.y₁, spot n c.x₂ c.y₂ with
  | some start, some goal =>
    if c.map.subzone start = WALL ∨ c.map.subzone goal = WALL then none else some (start, goal)
  | _, _ => none

def scouts (start goal : Pos n) : List Scout :=
  let s := c.scout (c.map.subzone goal) start
  if s.isfind then [s, c.scout (c.map.subzone goal) goal] else [s]

def lead (w : World n k C) : Field k C × Option (Trail n k) :=
  match c.ends with
  | none => (w.coarse, none)
  | some (start, goal) =>
    match c.scouts start goal with
    | [s₁, s₂] =>
      if s₂.isfind then
        match c.coarse.getPath (k * k + 1) (uint s₁.cx) (uint s₁.cy) (uint s₂.cx) (uint s₂.cy) [] w.coarse with
        | some (field, some (first :: rest)) =>
          (field, some ⟨start, goal, first, rest, fun g => (field.node g).israilway⟩)
        | some (field, _) => (field, none)
        | none => (w.coarse, none)
      else (w.coarse, none)
    | _ => (w.coarse, none)

def tour (w : World n k C) (tr : Trail n k) : Tour n k C := tr.rest.foldl (c.turn tr) (c.setOut tr w.fine)

def findPath (w : World n k C) : World n k C × Option (List (Pos n × Bool)) :=
  match (c.lead w).2 with
  | none => ({ w with coarse := (c.lead w).1 }, none)
  | some tr =>
    let t := c.tour w tr
    if t.ok ∧ t.ptr ≠ [] then
      let field := c.marks t.ptr t.field
      (⟨field, (c.lead w).1⟩, some (t.ptr.map fun p => (p, (field.node p).israilway)))
    else (⟨t.field, (c.lead w).1⟩, none)

end Call
end MapSearch
end Sncpp
