import Sncpp.Flood
import Sncpp.MapAttr
import Sncpp.TerrBuild
/-!
# TerrAct — which territory buildings are active (`mapObjectMgr:updateTerrAct`)

The territory buildings of an alliance are kept under their ids, which are the coordinates of their places in one
number; those that share a side differ by a constant.  Where one is added, is lost or gets another type, a search from
the centres of the alliance says anew which of its buildings are active (`add_object`, `remove_object`,
`doMoreLogicAttrs`).
-/
namespace Sncpp
namespace TerrAct

open MapAttr (Pairs)

variable {o : Nat × Nat} {α : Type} [DecidableEq α]

/-- A chunk of 9×9 by its column and row, where the first has its centre at `o`. -/
structure Chunk (o : Nat × Nat) where
  x : Nat
  y : Nat
  onMap : 9 * x + o.1 < 10000
deriving DecidableEq

def Chunk.id (c : Chunk o) : Int := (9 * c.y + o.2) * 10000 + (9 * c.x + o.1)

/-- A territory building.  A field that is missing counts as 0. -/
structure Terr (o : Nat × Nat) (α : Type) where
  place : Chunk o
  ownAid : Option α
  buildType : Int
  buildFlag : Int
  isAct : Bool

def Terr.centre (t : Terr o α) : Bool := decide (t.buildType = TerrBuild.center ∧ t.buildFlag ≠ 1)

structure World (o : Nat × Nat) (α : Type) where
  objs : Int → Option (Terr o α)
  ownAidTerrRef : α → List Int

def World.ctor : World o α := ⟨fun _ => none, fun _ => []⟩

def terrConnectDiff : List Int := [90000, -90000, 9, -9]

/-- The buildings of `terrs` that a building's differences lead to. -/
def connects (terrs : List Int) (objid : Int) : List Int := (terrConnectDiff.map (objid + ·)).filter (· ∈ terrs)

/-- `actTerrs` and `checkInfo` get the same marks. -/
def updateTerrActLoop (terrs : List Int) : Nat → Int → List Int → Option (List Int) := Flood.flood (connects terrs)

/-- The attributes whose change makes `doMoreLogicAttrs` do more. -/
inductive Attr where
  | ownAid
  | isAct
  | buildType
deriving DecidableEq

/-- What `updateMapObjPro` is to write: the attributes that matter here. -/
structure Update (α : Type) where
  ownAid : Option (Option α)
  buildType : Option Int
  buildFlag : Option Int
  isAct : Option Bool

def Update.set (u : Update α) (t : Terr o α) : Terr o α :=
  { t with
    ownAid := u.ownAid.getD t.ownAid
    buildType := u.buildType.getD t.buildType
    buildFlag := u.buildFlag.getD t.buildFlag
    isAct := u.isAct.getD t.isAct }

def Update.logicAttrs (u : Update α) (t : Terr o α) : List Attr :=
  (if (u.set t).ownAid ≠ t.ownAid then [.ownAid] else []) ++ (if (u.set t).isAct ≠ t.isAct then [.isAct] else []) ++
    if (u.set t).buildType ≠ t.buildType then [.buildType] else []

namespace World

variable (w : World o α)

def setObj (objid : Int) (t : Terr o α) : World o α := { w with objs := Function.update w.objs objid (some t) }

/-- `updateMapObjPro` of `isAct` alone: the handler of its change only tells other services. -/
def updateAct (objid : Int) (isAct : Bool) : World o α :=
  match w.objs objid with
  | none => w
  | some t => if t.isAct ≠ isAct then w.setObj objid { t with isAct := isAct } else w

/-- The search goes no deeper than there are buildings.  No caller names a building to leave out. -/
def updateTerrAct (p : Pairs Int) (aid : α) : Option (World o α) :=
  let terrs := w.ownAidTerrRef aid
  if terrs = [] then some w
  else
    let centres := (p.order terrs).filter (fun objid => (w.objs objid).any Terr.centre)
    (Flood.loop (updateTerrActLoop terrs terrs.length) centres []).map (fun actTerrs =>
      (p.order terrs).foldl (fun w objid => w.updateAct objid (decide (objid ∈ actTerrs))) w)

def setRef (aid : α) (terrs : List Int) : World o α :=
  { w with ownAidTerrRef := Function.update w.ownAidTerrRef aid terrs }

def loseAid (p : Pairs Int) (objid : Int) (oldAid : α) : Option (World o α) :=
  let terrs := w.ownAidTerrRef oldAid
  if objid ∈ terrs then (w.setRef oldAid (terrs.filter (· ≠ objid))).updateTerrAct p oldAid else some w

def gainAid (p : Pairs Int) (objid : Int) (newAid : α) : Option (World o α) :=
  let terrs := w.ownAidTerrRef newAid
  if objid ∉ terrs then (w.setRef newAid (objid :: terrs)).updateTerrAct p newAid else some w

def doMoreLogicAttr (p : Pairs Int) (objid : Int) (oldAid newAid : Option α) (k : Attr) : Option (World o α) :=
  match k with
  | .ownAid => do
    let w ← match oldAid with
      | some oldAid => w.loseAid p objid oldAid
      | none => some w
    match newAid with
      | some newAid => w.gainAid p objid newAid
      | none => some w
  | .isAct => some w
  | .buildType =>
    match (w.objs objid).bind Terr.ownAid with
    | some ownAid => w.updateTerrAct p ownAid
    | none => some w

def updateMapObjPro (p : Pairs Int) (q : Pairs Attr) (objid : Int) (condition : Terr o α → Bool) (u : Update α) :
    Option (World o α) :=
  match w.objs objid with
  | none => some w
  | some t =>
    if condition t then
      (q.order (u.logicAttrs t)).foldlM (fun w k => w.doMoreLogicAttr p objid t.ownAid (u.set t).ownAid k)
        (w.setObj objid (u.set t))
    else some w

def add_object (p : Pairs Int) (t : Terr o α) : Option (World o α) :=
  let w := w.setObj t.place.id t
  match t.ownAid with
  | some ownAid =>
    (w.setRef ownAid (t.place.id :: (w.ownAidTerrRef ownAid).filter (· ≠ t.place.id))).updateTerrAct p ownAid
  | none => some w

def remove_object (p : Pairs Int) (objid : Int) : Option (World o α) :=
  match w.objs objid with
  | none => some w
  | some t =>
    let w : World o α := { w with objs := Function.update w.objs objid none }
    match t.ownAid with
    | some ownAid =>
      let terrs := w.ownAidTerrRef ownAid
      if terrs ≠ [] then (w.setRef ownAid (terrs.filter (· ≠ objid))).updateTerrAct p ownAid else some w
    | none => some w

/-- Where a building is created, what stands at its place is removed first. -/
def create (p : Pairs Int) (t : Terr o α) : Option (World o α) := do
  let w ← w.remove_object p t.place.id
  w.add_object p t

end World

end TerrAct
end Sncpp
