import Mathlib.Algebra.GroupWithZero.Nat
import Sncpp.OwnRef
/-!
# MapAttr — the bonus of what is owned on the map (`mapObjectMgr:calPlayerAttr`, `calGuildAttr`)

What a player or an alliance owns gives a bonus, which a coroutine computes anew after each gain and each loss, keeps,
and tells the player or the guild service if it is another.  Where an alliance owns nothing any more its bonus is
cleared; `calPlayerAttr` does nothing then, so that the bonus of the last object stays.
-/
namespace Sncpp
namespace MapAttr

open OwnRef (MapType)

variable {υ α ι κ β : Type} [DecidableEq υ] [DecidableEq α] [DecidableEq ι]

abbrev Attr (κ β : Type) := κ → Option β

/-- `resource_buildings`, `city_attr` and `area_battle` of the configuration, `g_cal_attr` and `common.is_diff_table`. -/
structure Conf (κ β : Type) where
  resource_buildings : MapType → Nat → Nat → Attr κ β
  city_attr : Nat → Attr κ β
  area_battle : MapType → Nat → Nat → Nat
  g_cal_attr : κ → Option β → β → β
  is_diff_table : Attr κ β → Attr κ β → Bool

/-- The order in which values are accumulated does not matter, and tables differ if they are not the same. -/
structure Conf.Lawful (conf : Conf κ β) : Prop where
  comm : ∀ k c v v', conf.g_cal_attr k (some (conf.g_cal_attr k c v)) v' =
    conf.g_cal_attr k (some (conf.g_cal_attr k c v')) v
  diff : ∀ a b, conf.is_diff_table a b = true ↔ a ≠ b

def Conf.add (conf : Conf κ β) (newattr effect : Attr κ β) : Attr κ β := fun k =>
  match effect k with
  | none => newattr k
  | some v => some (conf.g_cal_attr k (newattr k) v)

def Conf.accumulate (conf : Conf κ β) (effects : List (Attr κ β)) : Attr κ β := effects.foldl conf.add (fun _ => none)

structure Obj (υ α ι : Type) extends OwnRef.Obj υ α ι where
  subMapType : Nat
  level : Nat
  x : Nat
  y : Nat

def Obj.xyid (o : Obj υ α ι) : Nat := (o.y + 8) / 9 * 10000 + (o.x + 8) / 9

/-- The order in which `pairs` comes to the entries of a table. -/
structure Pairs (γ : Type) where
  order : List γ → List γ
  perm : ∀ l, (order l).Perm l

inductive Op (υ α ι : Type) where
  | add (ownUid : υ) (objid : ι)
  | remove (ownUid : υ) (objid : ι)
  | newUid (newUid : υ) (objid : ι)
  | newAid (newAid : α) (obj : Obj υ α ι)

/-- The state of the map service, the coroutines that have not run yet, each with its `nosync`, and what the players and
the guild service were told last. -/
structure World (υ α ι κ β : Type) where
  objs : ι → Option (Obj υ α ι)
  ownUidObjRef : υ → List ι
  ownAidTerrRef : α → List (Obj υ α ι)
  ownUidAttr : υ → Attr κ β
  ownAidAttr : α → Attr κ β
  ops : List (Op υ α ι)
  playerForks : List (υ × Bool)
  guildForks : List (α × Bool)
  sentPlayer : υ → Attr κ β
  sentGuild : α → Attr κ β × Nat

namespace World

def start : World υ α ι κ β :=
  ⟨fun _ => none, fun _ => [], fun _ => [], fun _ _ => none, fun _ _ => none, [], [], [], fun _ _ => none, fun _ =>
    (fun _ => none, 0)⟩

variable (w : World υ α ι κ β)

def gain (uid : υ) (objid : ι) : World υ α ι κ β :=
  { w with
    ownUidObjRef := Function.update w.ownUidObjRef uid
      (if objid ∈ w.ownUidObjRef uid then w.ownUidObjRef uid else w.ownUidObjRef uid ++ [objid])
    playerForks := w.playerForks ++ [(uid, false)] }

def lose (uid : υ) (objid : ι) : World υ α ι κ β :=
  { w with
    ownUidObjRef := Function.update w.ownUidObjRef uid ((w.ownUidObjRef uid).erase objid)
    playerForks := w.playerForks ++ [(uid, false)] }

def gainTerr (aid : α) (obj : Obj υ α ι) : World υ α ι κ β :=
  { w with
    ownAidTerrRef := Function.update w.ownAidTerrRef aid
      ((w.ownAidTerrRef aid).filter (fun o => o.objectid ≠ obj.objectid) ++ [obj])
    guildForks := w.guildForks ++ [(aid, false)] }

def loseTerr (aid : α) (objid : ι) : World υ α ι κ β :=
  { w with
    ownAidTerrRef := Function.update w.ownAidTerrRef aid ((w.ownAidTerrRef aid).filter (fun o => o.objectid ≠ objid))
    guildForks := w.guildForks ++ [(aid, false)] }

def hasTerr (aid : α) (objid : ι) : Bool := (w.ownAidTerrRef aid).any (fun o => o.objectid = objid)

/-- `add_object`; `known` if `mapPlayerMgr` knows the owner, so that it does not wait for the guild service. -/
def add_object (obj : Obj υ α ι) (known : Bool) : World υ α ι κ β :=
  let w := { w with objs := Function.update w.objs obj.objectid (some obj) }
  match obj.owner with
  | some ownUid =>
    if known then w.gain ownUid obj.objectid else { w with ops := w.ops ++ [.add ownUid obj.objectid] }
  | none =>
    match obj.ownAid with
    | some ownAid => if obj.mapType.terr then w.gainTerr ownAid obj else w
    | none => w

def remove_object (objid : ι) : World υ α ι κ β :=
  match w.objs objid with
  | none => w
  | some obj =>
    let w := { w with objs := Function.update w.objs objid none }
    match obj.owner with
    | some ownUid => { w with ops := w.ops ++ [.remove ownUid objid] }
    | none =>
      match obj.ownAid with
      | some ownAid => if obj.mapType.terr = true ∧ w.ownAidTerrRef ownAid ≠ [] then w.loseTerr ownAid objid else w
      | none => w

/-- `doMoreLogicAttrs` gives an object to a player who does not have it. -/
def newUid (uid : υ) (objid : ι) : World υ α ι κ β := if objid ∈ w.ownUidObjRef uid then w else w.gain uid objid

def newAid (aid : α) (obj : Obj υ α ι) : World υ α ι κ β := if w.hasTerr aid obj.objectid then w else w.gainTerr aid obj

/-- `updateMapObjPro` of an `ownUid`, and what `doMoreLogicAttrs` makes of it. -/
def updateOwnUid (objid : ι) (v : Option υ) : World υ α ι κ β :=
  match w.objs objid with
  | none => w
  | some obj =>
    if v = obj.ownUid then w
    else
      let w := { w with objs := Function.update w.objs objid (some { obj with toObj := obj.setOwnUid v }) }
      if obj.mapType = .buildmine ∨ obj.mapType = .fortress then
        match obj.ownUid, v with
        | some oldUid, some newUid =>
          let w := if w.ownUidObjRef oldUid = [] then w else w.lose oldUid objid
          { w with ops := w.ops ++ [.newUid newUid objid] }
        | some oldUid, none => if w.ownUidObjRef oldUid = [] then w else w.lose oldUid objid
        | none, some newUid => w.newUid newUid objid
        | none, none => w
      else w

/-- `updateMapObjPro` of an `ownAid`; between the old alliance and the new one others are told of the loss. -/
def updateOwnAid (objid : ι) (v : Option α) : World υ α ι κ β :=
  match w.objs objid with
  | none => w
  | some obj =>
    if v = obj.ownAid then w
    else
      let obj' := { obj with toObj := obj.setOwnAid v }
      let w := { w with objs := Function.update w.objs objid (some obj') }
      if obj.mapType.terr then
        match obj.ownAid, v with
        | some oldAid, some newAid =>
          let w := if w.hasTerr oldAid objid then w.loseTerr oldAid objid else w
          { w with ops := w.ops ++ [.newAid newAid obj'] }
        | some oldAid, none => if w.hasTerr oldAid objid then w.loseTerr oldAid objid else w
        | none, some newAid => w.newAid newAid obj'
        | none, none => w
      else w

def resume (n : Nat) : World υ α ι κ β :=
  match w.ops[n]? with
  | none => w
  | some op =>
    let w := { w with ops := w.ops.eraseIdx n }
    match op with
    | .add ownUid objid => w.gain ownUid objid
    | .remove ownUid objid => w.lose ownUid objid
    | .newUid uid objid => w.newUid uid objid
    | .newAid aid obj => w.newAid aid obj

/-- The `status` of a building of a player becomes `settled`. -/
def settled (objid : ι) : World υ α ι κ β :=
  match w.objs objid with
  | none => w
  | some obj =>
    match obj.ownUid with
    | some ownUid => if obj.mapType = .buildmine then { w with playerForks := w.playerForks ++ [(ownUid, false)] } else w
    | none => w

def init_over (uid : υ) : World υ α ι κ β :=
  if w.ownUidObjRef uid = [] then w else { w with playerForks := w.playerForks ++ [(uid, true)] }

def init (aid : α) : World υ α ι κ β :=
  if w.ownAidTerrRef aid = [] then w else { w with guildForks := w.guildForks ++ [(aid, true)] }

def effect (conf : Conf κ β) (objid : ι) : Attr κ β :=
  match w.objs objid with
  | none => fun _ => none
  | some obj => conf.resource_buildings obj.mapType obj.subMapType obj.level

/-- The coroutine of `calPlayerAttr` that is the next to run. -/
def calPlayerAttr (conf : Conf κ β) (p : Pairs ι) : World υ α ι κ β :=
  match w.playerForks with
  | [] => w
  | (uid, nosync) :: rest =>
    let w := { w with playerForks := rest }
    if w.ownUidObjRef uid = [] then w
    else
      let newattr := conf.accumulate ((p.order (w.ownUidObjRef uid)).map (w.effect conf))
      if conf.is_diff_table (w.ownUidAttr uid) newattr then
        let w := { w with ownUidAttr := Function.update w.ownUidAttr uid newattr }
        if nosync then w else { w with sentPlayer := Function.update w.sentPlayer uid newattr }
      else w

def calGuildAttr (conf : Conf κ β) (p : Pairs (Obj υ α ι)) : World υ α ι κ β :=
  match w.guildForks with
  | [] => w
  | (aid, _) :: rest =>
    let w := { w with guildForks := rest }
    if w.ownAidTerrRef aid = [] then
      let differs := conf.is_diff_table (w.ownAidAttr aid) (fun _ => none)
      let w := { w with ownAidAttr := Function.update w.ownAidAttr aid (fun _ => none) }
      if differs then { w with sentGuild := Function.update w.sentGuild aid (fun _ => none, 0) } else w
    else
      let terrs := p.order (w.ownAidTerrRef aid)
      let newattr := conf.accumulate (terrs.map (fun obj => conf.city_attr obj.xyid))
      let boomnum := (terrs.map (fun obj => conf.area_battle obj.mapType obj.subMapType obj.level)).sum
      if conf.is_diff_table (w.ownAidAttr aid) newattr = true ∨ 0 < boomnum then
        { w with
          ownAidAttr := Function.update w.ownAidAttr aid newattr
          sentGuild := Function.update w.sentGuild aid (newattr, boomnum) }
      else w

end World

inductive Event (υ α ι : Type) where
  | add (obj : Obj υ α ι) (known : Bool)
  | remove (objid : ι)
  | ownUid (objid : ι) (v : Option υ)
  | ownAid (objid : ι) (v : Option α)
  | resume (n : Nat)
  | settled (objid : ι)
  | init_over (uid : υ)
  | init (aid : α)
  | calPlayerAttr (p : Pairs ι)
  | calGuildAttr (p : Pairs (Obj υ α ι))

def World.step (conf : Conf κ β) (w : World υ α ι κ β) : Event υ α ι → World υ α ι κ β
  | .add obj known => w.add_object obj known
  | .remove objid => w.remove_object objid
  | .ownUid objid v => w.updateOwnUid objid v
  | .ownAid objid v => w.updateOwnAid objid v
  | .resume n => w.resume n
  | .settled objid => w.settled objid
  | .init_over uid => w.init_over uid
  | .init aid => w.init aid
  | .calPlayerAttr p => w.calPlayerAttr conf p
  | .calGuildAttr p => w.calGuildAttr conf p

/-! ## What is right, and when it is -/

def World.Owns (w : World υ α ι κ β) (uid : υ) (objid : ι) : Prop :=
  objid ∈ w.ownUidObjRef uid ∧ (w.objs objid).isSome = true

def World.Removing (w : World υ α ι κ β) (uid : υ) : Prop := ∃ objid, Op.remove uid objid ∈ w.ops

/-- **After the event the bonus of a player is that of what he has, and so is what he was told last, if no coroutine of his
has still to run and no removal is under way; and the same of an alliance.** -/
structure World.Right (conf : Conf κ β) (w : World υ α ι κ β) (e : Event υ α ι) : Prop where
  player : ∀ uid, (∀ nosync, (uid, nosync) ∉ (w.step conf e).playerForks) → ¬(w.step conf e).Removing uid →
    (∀ objids : List ι, objids.Nodup → (∀ objid, objid ∈ objids ↔ (w.step conf e).Owns uid objid) →
      (w.step conf e).ownUidAttr uid = conf.accumulate (objids.map ((w.step conf e).effect conf))) ∧
        (w.step conf e).sentPlayer uid = (w.step conf e).ownUidAttr uid
  guild : ∀ aid, (∀ nosync, (aid, nosync) ∉ (w.step conf e).guildForks) →
    (∀ terrs : List (Obj υ α ι), terrs.Nodup → (∀ obj, obj ∈ terrs ↔ obj ∈ (w.step conf e).ownAidTerrRef aid) →
      (w.step conf e).ownAidAttr aid = conf.accumulate (terrs.map (fun obj => conf.city_attr obj.xyid))) ∧
        ((w.step conf e).sentGuild aid).1 = (w.step conf e).ownAidAttr aid

def World.Inited (w : World υ α ι κ β) : Prop := ∀ f ∈ w.playerForks, f.2 = false

instance (w : World υ α ι κ β) : Decidable w.Inited := inferInstanceAs (Decidable (∀ f ∈ w.playerForks, f.2 = false))

/-- An object is added where nobody has one, a removal of it apart, and removed from its owner, who alone has it; the
coroutines of `init_over` begin when nothing is being removed, and run before anything else is gained or lost; and where
one is to run for a player, he has an object, or no bonus. -/
def World.Kept (w : World υ α ι κ β) : Event υ α ι → Prop
  | .add obj _ => w.Inited ∧ ∀ uid, obj.objectid ∈ w.ownUidObjRef uid → Op.remove uid obj.objectid ∈ w.ops
  | .remove objid => w.Inited ∧ ∀ obj ∈ w.objs objid, ∀ uid, objid ∈ w.ownUidObjRef uid → obj.owner = some uid
  | .ownUid _ _ | .resume _ => w.Inited
  | .init_over uid => ¬w.Removing uid
  | .calPlayerAttr _ => ∀ f ∈ w.playerForks.head?, w.ownUidObjRef f.1 ≠ [] ∨ w.ownUidAttr f.1 = fun _ => none
  | _ => True

end MapAttr
end Sncpp
