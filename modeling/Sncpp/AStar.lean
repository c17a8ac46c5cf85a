import Mathlib.Data.Finset.Card
import Sncpp.Heap
import Sncpp.Line
/-!
# AStar — the path search of the map

`astar.h` of `lua-mapsearch`, over a square grid.  A cell that is reached for the first time, or on a cheaper way, is given
the parent of the cell it is reached from; whether the straight line to that parent is free is only looked at when the cell
is taken from the heap, and then `setVertex` gives it a parent among its neighbours.  Costs are of any type with a zero, an
addition and a comparison.
-/
namespace Sncpp
namespace AStar

/-- A cell of the grid, its `x` before its `y`. -/
abbrev Pos (n : Nat) := Fin n × Fin n

structure Railway where
  id : Int
  x : Int
  y : Int

def WALL : Int := 500
def CHECK : Int := 0
def MOD : Int := 10000

structure Chart (n : Nat) where
  subzone : Pos n → Int
  railway : List (Int × List Railway)
  railwayaid : List (Int × Nat)
  friendaid : Nat → List Nat

/-- The other arguments of a search: `walk` is the distance of two points by the speed. -/
structure Query (n : Nat) (C : Type) extends Chart n where
  aid : Nat
  nb : Nat
  walk : Int → Int → Int → Int → C
  railwayTime : C

variable {n : Nat} {C : Type}

def Pos.id (p : Pos n) : Int := p.2 * MOD + p.1

def spot (n : Nat) (x y : Int) : Option (Pos n) :=
  if h : 0 ≤ x ∧ 0 ≤ y ∧ x.toNat < n ∧ y.toNat < n then some (⟨x.toNat, h.2.2.1⟩, ⟨y.toNat, h.2.2.2⟩) else none

/-- The offsets within `nb` of a cell, in the order of the two loops. -/
def window (nb : Nat) : List (Int × Int) :=
  let span := (List.range (2 * nb + 1)).map (fun k : Nat => (k : Int) - nb)
  span.flatMap (fun i => span.map (fun j => (i, j)))

def near (d : Int × Int) : Bool := -1 ≤ d.1 && d.1 ≤ 1 && -1 ≤ d.2 && d.2 ≤ 1

namespace Chart

variable (c : Chart n)

def isUsableRailway (key : Int) (aid : Nat) : Bool :=
  if aid > 0 then
    match c.railwayaid.lookup key with
    | some owner => owner == aid || (c.friendaid aid).contains owner
    | none => false
  else false

def subzoneAt (z : Int × Int) : Option Int := (spot n z.1 z.2).map c.subzone

def line (p m : Pos n) : Line := ⟨p.1, p.2, m.1, m.2⟩

def lineOfSight2 (subzone₀ : Int) (p m : Pos n) : Bool :=
  let l := line p m
  let ok := fun z => match c.subzoneAt z with
    | some zone => !(zone == WALL || zone != subzone₀)
    | none => false
  match l.walk ok (l.steps + 1) l.start with
  | some (_, sees) => sees
  | none => false

def targets : Finset Int := (c.railway.flatMap (fun e => e.2.map Railway.id)).toFinset

end Chart

/-- What `estimate2` has found so far: the least cost, the stations it has seen and those it has still to look at. -/
structure Extent (C : Type) where
  f : C
  checkg : List Int
  extend : List Int

def Extent.room (c : Chart n) (a : Extent C) : Nat := (c.targets \ a.checkg.toFinset).card + a.extend.length

section Estimate

variable [Add C] [LT C] [DecidableLT C]

namespace Query

variable (q : Query n C)

def usable (key : Int) : Bool := q.isUsableRailway key q.aid

def visit (goal : Pos n) (a : Extent C) (tmp : Railway) : Extent C :=
  if q.usable tmp.id && !a.checkg.contains tmp.id then
    let newf := q.railwayTime + q.walk tmp.x tmp.y goal.1 goal.2
    { f := if newf < a.f then newf else a.f, checkg := tmp.id :: a.checkg, extend := a.extend ++ [tmp.id] }
  else a

/-- One turn of the loop of `estimate2`, at the station it has taken from the front. -/
def extendAt (goal : Pos n) (a : Extent C) (id : Int) : Extent C :=
  match q.railway.lookup id with
  | some vec => vec.foldl (q.visit goal) a
  | none => a

theorem mem_targets {c : Chart n} {id : Int} {vec : List Railway} (hv : c.railway.lookup id = some vec) {r : Railway}
    (hr : r ∈ vec) : r.id ∈ c.targets := by
  obtain ⟨l₁, l₂, hsplit, -⟩ := List.lookup_eq_some_iff.1 hv
  unfold Chart.targets
  rw [List.mem_toFinset, List.mem_flatMap]
  refine ⟨(id, vec), ?_, List.mem_map_of_mem hr⟩
  rw [hsplit]
  exact List.mem_append_right l₁ List.mem_cons_self

theorem visit_room (goal : Pos n) (a : Extent C) {r : Railway} (hr : r.id ∈ q.targets) :
    (q.visit goal a r).room q.toChart ≤ a.room q.toChart := by
  unfold visit
  split
  · next h =>
    rw [Bool.and_eq_true, Bool.not_eq_true', List.contains_eq_mem, decide_eq_false_iff_not] at h
    have hlt : (q.targets \ (r.id :: a.checkg).toFinset).card < (q.targets \ a.checkg.toFinset).card := by
      apply Finset.card_lt_card
      rw [Finset.ssubset_iff_of_subset]
      · refine ⟨r.id, ?_, ?_⟩
        · rw [Finset.mem_sdiff, List.mem_toFinset]
          exact ⟨hr, h.2⟩
        · rw [Finset.mem_sdiff, List.mem_toFinset]
          exact fun hm => hm.2 List.mem_cons_self
      · apply Finset.sdiff_subset_sdiff (Finset.Subset.refl _)
        intro x hx
        rw [List.mem_toFinset] at hx ⊢
        exact List.mem_cons_of_mem _ hx
    show (q.targets \ (r.id :: a.checkg).toFinset).card + (a.extend ++ [r.id]).length ≤ a.room q.toChart
    unfold Extent.room
    rw [List.length_append, List.length_singleton]
    omega
  · exact Nat.le_refl _

theorem visits_room (goal : Pos n) : ∀ (vec : List Railway) (a : Extent C), (∀ r ∈ vec, r.id ∈ q.targets) →
    (vec.foldl (q.visit goal) a).room q.toChart ≤ a.room q.toChart
  | [], _, _ => Nat.le_refl _
  | r :: vec, a, h => by
    rw [List.foldl_cons]
    have hrest := visits_room goal vec (q.visit goal a r) (fun r' hr' => h r' (List.mem_cons_of_mem r hr'))
    exact hrest.trans (q.visit_room goal a (h r List.mem_cons_self))

/-- **Every turn of `estimate2` leaves less to look at.** -/
theorem extendAt_room (goal : Pos n) (a : Extent C) {id : Int} {rest : List Int} (h : a.extend = id :: rest) :
    (q.extendAt goal { a with extend := rest } id).room q.toChart < a.room q.toChart := by
  have hless : Extent.room q.toChart { a with extend := rest } < a.room q.toChart := by
    unfold Extent.room
    rw [h, List.length_cons]
    exact Nat.lt_succ_self _
  unfold extendAt
  split
  · next vec hv => exact (q.visits_room goal vec _ (fun r hr => mem_targets hv hr)).trans_lt hless
  · exact hless

def spread (goal : Pos n) (a : Extent C) : C :=
  match _h : a.extend with
  | [] => a.f
  | id :: rest => spread goal (q.extendAt goal { a with extend := rest } id)
termination_by a.room q.toChart
decreasing_by exact q.extendAt_room goal a _h

/-- The cost that is left at least: straight on, or from any of the stations that can be reached by rail. -/
def estimate2 (p goal : Pos n) : C :=
  let f := q.walk p.1 p.2 goal.1 goal.2
  match q.railway.lookup p.id with
  | some vec => if q.usable p.id then q.spread goal (vec.foldl (q.visit goal) ⟨f, [p.id], []⟩) else f
  | none => f

end Query
end Estimate

variable [Zero C] [Add C] [LT C] [DecidableLT C]

structure Node (n : Nat) (C : Type) where
  g : C
  f : C
  isopen : Bool
  isclose : Bool
  israilway : Bool
  parent : Option (Pos n)

/-- The state of a search: the cells, the heap, the cells to clear before the next search; `taken` is the cells it has taken
from the heap, the last one first (no code reads it). -/
structure Field (n : Nat) (C : Type) where
  node : Pos n → Node n C
  openset : Heap (Pos n)
  clear : List (Pos n)
  taken : List (Pos n)

def Node.blank : Node n C := ⟨0, 0, false, false, false, none⟩

def Field.fresh : Field n C := ⟨fun _ => Node.blank, ⟨[], fun _ => 0⟩, [], []⟩

namespace Field

variable (s : Field n C)

def setNode (p : Pos n) (v : Node n C) : Field n C := { s with node := Function.update s.node p v }

def fgreater (a b : Pos n) : Bool := (s.node b).f < (s.node a).f
def fless (a b : Pos n) : Bool := (s.node a).f < (s.node b).f

def add (p : Pos n) : Field n C := { s with openset := s.openset.add s.fgreater p }
def decreaseKey (p : Pos n) : Field n C := { s with openset := s.openset.decreaseKey s.fgreater p }

/-- The cell from which a neighbour of `p` counts as reached. -/
def node2 (p : Pos n) : Pos n :=
  match (s.node p).israilway, (s.node p).parent with
  | false, some parent => parent
  | _, _ => p

end Field

namespace Query

variable (q : Query n C) (goal : Pos n)

def reach (s : Field n C) (m src : Pos n) (tentative : C) (rail : Bool) : Field n C :=
  let v := s.node m
  let v' := { v with
    parent := some src, g := tentative, f := tentative + q.estimate2 m goal, isopen := true,
    israilway := v.israilway || rail }
  let s := { s with clear := s.clear ++ [m] }
  if v.isopen then
    if tentative < v.g then (s.setNode m v').decreaseKey m else s
  else (s.setNode m v').add m

def sameZone (p m : Pos n) : Bool :=
  q.subzone m == CHECK || q.subzone p == CHECK || q.subzone m == q.subzone p

/-- A cell farther away counts as a neighbour if it is a station in sight. -/
def inReach (p m : Pos n) (d : Int × Int) : Bool :=
  near d || (q.usable m.id && q.lineOfSight2 (q.subzone p) p m)

def walkTo (p : Pos n) (s : Field n C) (d : Int × Int) : Field n C :=
  match spot n (p.1 + d.1) (p.2 + d.2) with
  | none => s
  | some m =>
    if m = p then s
    else if q.subzone m = WALL || !q.sameZone p m then s
    else if (s.node m).isclose then s
    else if !q.inReach p m d then s
    else q.reach goal s m (s.node2 p) ((s.node (s.node2 p)).g + q.walk m.1 m.2 (s.node2 p).1 (s.node2 p).2) false

def railTo (p : Pos n) (s : Field n C) (pr : Railway) : Field n C :=
  match spot n (pr.id.tmod MOD) (pr.id.tdiv MOD) with
  | none => s
  | some m =>
    if m = p then s
    else if q.subzone m = WALL then s
    else if (s.node m).isclose then s
    else if !q.usable pr.id then s
    else
      let s := q.reach goal s m p ((s.node p).g + q.railwayTime) true
      s.setNode p { s.node p with israilway := true }

def expand (s : Field n C) (p : Pos n) : Field n C :=
  let s := (window q.nb).foldl (q.walkTo goal p) s
  match q.railway.lookup p.id with
  | some vec => if q.usable p.id then vec.foldl (q.railTo goal p) s else s
  | none => s

def lineOfSight (s : Field n C) (p parent : Pos n) : Bool :=
  if (s.node p).israilway then true
  else if q.subzone p = q.subzone parent then q.lineOfSight2 (q.subzone p) p parent
  else false

/-- A closed neighbour of a cell.  The zone rule is not asked for here. -/
def candidate (s : Field n C) (p : Pos n) (d : Int × Int) : Option (Pos n) :=
  match spot n (p.1 + d.1) (p.2 + d.2) with
  | none => none
  | some m =>
    if m = p then none
    else if q.subzone m = WALL then none
    else if !q.inReach p m d then none
    else if (s.node m).isclose then some m
    else none

def cheaper (s : Field n C) (p : Pos n) (best : Option (Pos n × C)) (m : Pos n) : Option (Pos n × C) :=
  let g := (s.node m).g + q.estimate2 m p
  match best with
  | none => some (m, g)
  | some (m', minG) => if g < minG then some (m, g) else some (m', minG)

def minParent (s : Field n C) (p : Pos n) : Option (Pos n × C) :=
  ((window q.nb).filterMap (q.candidate s p)).foldl (q.cheaper s p) none

def setVertex (s : Field n C) (p : Pos n) : Field n C :=
  match (s.node p).parent with
  | none => s
  | some parent =>
    if (s.node p).israilway || q.lineOfSight s p parent then s
    else
      match q.minParent s p with
      | none => s
      | some (m, g) =>
        (s.setNode p { s.node p with parent := some m, g := g, f := g + q.estimate2 p goal }).decreaseKey p

def pop (s : Field n C) : Option (Pos n × Field n C) :=
  match s.openset.remove s.fless with
  | none => none
  | some (p, h) =>
    let s := { s with openset := h, taken := p :: s.taken }
    some (p, s.setNode p { s.node p with isclose := true, isopen := false })

def search : Nat → Field n C → Option (Field n C × Bool)
  | 0, _ => none
  | k + 1, s =>
    match pop s with
    | none => some (s, false)
    | some (p, s) =>
      let s := q.setVertex goal s p
      if p = goal then some (s, true) else search k (q.expand goal s p)

def openStart (start : Pos n) (s : Field n C) : Field n C :=
  let s : Field n C :=
    ⟨fun p => if p ∈ s.clear then Node.blank else s.node p, { s.openset with elts := [] }, [start], []⟩
  (s.setNode start ⟨0, 0 + q.estimate2 start goal, true, false, q.usable start.id, none⟩).add start

def chain (s : Field n C) (start : Pos n) : Nat → Option (Pos n) → Option (List (Pos n))
  | 0, _ => none
  | _ + 1, none => some []
  | k + 1, some p => if p = start then some [] else (chain s start k (s.node p).parent).map (· ++ [p])

/-- `GetPath`: the points of the path are put behind those of `ptr`, and the start is left out if it is the last of them. -/
def getPath (fuel : Nat) (x₁ y₁ x₂ y₂ : Nat) (ptr : List (Pos n)) (s : Field n C) :
    Option (Field n C × Option (List (Pos n))) :=
  match spot n x₁ y₁, spot n x₂ y₂ with
  | some start, some goal =>
    if q.subzone start = WALL || q.subzone goal = WALL then some (s, none)
    else
      match q.search goal fuel (q.openStart goal start s) with
      | none => none
      | some (s, false) => some (s, none)
      | some (s, true) =>
        match chain s start fuel (s.node goal).parent with
        | none => none
        | some cells =>
          let first := if ptr.getLast? = some start then [] else [start]
          some (s, some (ptr ++ first ++ cells ++ [goal]))
  | _, _ => some (s, none)

end Query
end AStar
end Sncpp
