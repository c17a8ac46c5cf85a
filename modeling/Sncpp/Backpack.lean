import Sncpp.Tally
/-!
# Backpack — the player's backpacks (`backpack`, `backpackCtrl`, `backpackConf`, `backpackLogic`)

A backpack is a list of slots with a counter of them.  An item's stack limit `maxCount` says how many one slot may hold:
one, any number (`0`), or up to `maxCount`.  `addItems` checks that everything fits and then stacks it; `deductItems` and
`useItems` check that everything is there and then take it, from the last slot backwards.  Every change is saved, and the
backpacks start again from what was saved.

Counts are Lua integers, taken here without wrap-around.
-/
namespace Sncpp
namespace Pack

open Tally

inductive BagType where
  | props
  | material
  | jewel
deriving DecidableEq

def BagType.toNat : BagType → Nat
  | .props => 1
  | .material => 2
  | .jewel => 3

def BagType.maxSize : BagType → Int
  | .props => 100
  | .material => 100
  | .jewel => 100

inductive Err where
  | illegalParams
  | backpackFull
  | itemNotEnough
  | serviceException
deriving DecidableEq

structure ItemInfo where
  type : Nat
  backpackType : BagType
  maxCount : Nat
deriving DecidableEq

structure Conf where
  getItem : Nat → Option ItemInfo
  zero : getItem 0 = none

def Conf.game : Conf where
  getItem := fun id =>
    if id ∈ [1, 2] then some ⟨1, .props, 0⟩
    else if id ∈ [1001, 1002] then some ⟨2, .material, 999⟩
    else if id ∈ [2001, 2002] then some ⟨3, .material, 999⟩
    else none
  zero := rfl

def Conf.getBackpackType (conf : Conf) (id : Nat) : Option BagType := (conf.getItem id).map ItemInfo.backpackType

def Conf.getType (conf : Conf) (id : Nat) : Option Nat := (conf.getItem id).map ItemInfo.type

/-- Asked of known ids only. -/
def Conf.getMaxCount (conf : Conf) (id : Nat) : Nat := ((conf.getItem id).map ItemInfo.maxCount).getD 0

abbrev Extra : Type := Option (List (Item Nat))

/-- `backpackLogic`, with the caller's further arguments given: the check and the effect of a type, each with its error
when it fails. -/
structure Logic where
  useCheckFunc : Nat → Option (Nat → Int → Except (Option Err) Unit)
  useEffectFunc : Nat → Option (Nat → Int → Except (Option Err) Extra)

def Logic.game : Logic where
  useCheckFunc := fun type => if type ∈ [1, 2, 3, 4] then some (fun _ _ => .ok ()) else none
  useEffectFunc := fun type =>
    if type = 1 ∨ type = 3 then some (fun _ _ => .ok none)
    else if type = 2 ∨ type = 4 then some (fun _ _ => .ok (some [⟨1, 1⟩]))
    else none

structure Backpack where
  curSize : Int
  maxSize : Int
  items : List (Item Nat)
deriving DecidableEq

def Backpack.push (b : Backpack) (v : Item Nat) : Backpack :=
  { b with curSize := b.curSize + 1, items := b.items ++ [v] }

section Conf

variable (conf : Conf)

/-! ## Adding (`canAddItems`, `_addItem`) -/

def ceilDiv (a m : Int) : Int := (a + m - 1) / m

/-- What the stacks that are not full leave of `count`. -/
def stackRest (id : Nat) (maxCount : Int) : List (Item Nat) → Int → Int
  | [], count => count
  | v :: vs, count =>
    if v.id = id ∧ v.count < maxCount then
      if v.count + count ≤ maxCount then 0 else stackRest id maxCount vs (count - (maxCount - v.count))
    else stackRest id maxCount vs count

/-- The loop of `canAddItems`, over what is asked and the size so far. -/
def Backpack.canAddLoop (b : Backpack) : List (Item Nat) → Int → Except Err Unit
  | [], _ => .ok ()
  | v :: vs, tmpSize =>
    if 0 < v.count then
      let maxCount := conf.getMaxCount v.id
      if maxCount = 1 then
        if b.maxSize < tmpSize + v.count then .error .backpackFull else b.canAddLoop vs (tmpSize + v.count)
      else if maxCount = 0 then
        if b.items.any (fun x => x.id = v.id) then b.canAddLoop vs tmpSize
        else if b.maxSize < tmpSize + 1 then .error .backpackFull
        else b.canAddLoop vs (tmpSize + 1)
      else
        let count := stackRest v.id maxCount b.items v.count
        if 0 < count then
          if b.maxSize < tmpSize + ceilDiv count maxCount then .error .backpackFull
          else b.canAddLoop vs (tmpSize + ceilDiv count maxCount)
        else b.canAddLoop vs tmpSize
    else .error .illegalParams

def Backpack.canAddItems (b : Backpack) (items : List (Item Nat)) : Except Err Unit :=
  if items = [] then .error .illegalParams else b.canAddLoop conf items b.curSize

def Backpack.addUnits (id : Nat) : Nat → Backpack → Backpack
  | 0, b => b
  | n + 1, b => if b.curSize < b.maxSize then addUnits id n (b.push ⟨id, 1⟩) else b

def addFirst (id : Nat) (count : Int) : List (Item Nat) → Option (List (Item Nat))
  | [] => none
  | v :: vs => if v.id = id then some (⟨v.id, v.count + count⟩ :: vs) else (addFirst id count vs).map (v :: ·)

/-- The stacks that are not full take what they can, in order: the slots, and what is left of `count`. -/
def fillStacks (id : Nat) (maxCount : Int) : List (Item Nat) → Int → List (Item Nat) × Int
  | [], count => ([], count)
  | v :: vs, count =>
    if v.id = id ∧ v.count < maxCount then
      if v.count + count ≤ maxCount then (⟨v.id, v.count + count⟩ :: vs, 0)
      else
        let r := fillStacks id maxCount vs (count - (maxCount - v.count))
        (⟨v.id, maxCount⟩ :: r.1, r.2)
    else
      let r := fillStacks id maxCount vs count
      (v :: r.1, r.2)

/-- New stacks while something is left and there is room.  Each takes a free slot, so as many turns as there are free
slots are enough. -/
def Backpack.newStacks (id : Nat) (maxCount : Int) : Nat → Int → Backpack → Backpack
  | 0, _, b => b
  | n + 1, count, b =>
    if 0 < count ∧ b.curSize < b.maxSize then
      if count ≤ maxCount then b.push ⟨id, count⟩ else newStacks id maxCount n (count - maxCount) (b.push ⟨id, maxCount⟩)
    else b

def Backpack.addItemInner (b : Backpack) (id : Nat) (count : Int) : Backpack × Bool :=
  let maxCount := conf.getMaxCount id
  if maxCount = 1 then
    (b.addUnits id count.toNat, 0 < count && b.curSize < b.maxSize)
  else if maxCount = 0 then
    match addFirst id count b.items with
    | some items => ({ b with items := items }, true)
    | none => if b.curSize < b.maxSize then (b.push ⟨id, count⟩, true) else (b, false)
  else
    let r := fillStacks id maxCount b.items count
    let free := b.maxSize - b.curSize
    (Backpack.newStacks id maxCount free.toNat r.2 { b with items := r.1 },
      b.items.any (fun v => v.id = id ∧ v.count < maxCount) || (0 < r.2 && b.curSize < b.maxSize))

def addTurn (r : Backpack × Bool) (v : Item Nat) : Backpack × Bool :=
  if 0 < v.count then
    let r' := r.1.addItemInner conf v.id v.count
    (r'.1, r.2 || r'.2)
  else r

/-- `backpack:addItems`: the backpack, and whether it is to be saved. -/
def Backpack.addItems (b : Backpack) (items : List (Item Nat)) : Backpack × Bool := items.foldl (addTurn conf) (b, false)

/-! ## Using and deducting (`canUseItem`, `_useItem`) -/

/-- What the slots leave of `count`; the slots are given from the last one backwards. -/
def useRest (id : Nat) : List (Item Nat) → Int → Int
  | [], count => count
  | v :: vs, count =>
    if v.id = id then
      if count < v.count then 0
      else if count - v.count ≤ 0 then count - v.count
      else useRest id vs (count - v.count)
    else useRest id vs count

def Backpack.canUseItem (b : Backpack) (id : Nat) (count : Int) : Except Err Unit :=
  if id = 0 ∨ count ≤ 0 then .error .illegalParams
  else if 0 < useRest id b.items.reverse count then .error .itemNotEnough
  else .ok ()

/-- The slots, from the last one backwards, after `count` is taken, and how many were emptied. -/
def takeBack (id : Nat) : List (Item Nat) → Int → List (Item Nat) × Nat
  | [], _ => ([], 0)
  | v :: vs, count =>
    if v.id = id then
      if count < v.count then (⟨v.id, v.count - count⟩ :: vs, 0)
      else if count - v.count ≤ 0 then (vs, 1)
      else
        let r := takeBack id vs (count - v.count)
        (r.1, r.2 + 1)
    else
      let r := takeBack id vs count
      (v :: r.1, r.2)

/-- `_useItem`: the backpack, and whether there was a slot of the id. -/
def Backpack.useItemInner (b : Backpack) (id : Nat) (count : Int) : Backpack × Bool :=
  let r := takeBack id b.items.reverse count
  ({ b with curSize := b.curSize - r.2, items := r.1.reverse }, b.items.any (fun v => v.id = id))

/-- The test of `useItem` and `useItems` by the check function of `key`. -/
def useCheck (logic : Logic) (key : Nat) (id : Nat) (count : Int) : Except Err Unit :=
  match logic.useCheckFunc key with
  | none => .ok ()
  | some f =>
    match f id count with
    | .ok () => .ok ()
    | .error e => .error (e.getD .serviceException)

def useEffect (logic : Logic) (tp : Nat) (id : Nat) (count : Int) : Except Err Extra :=
  match logic.useEffectFunc tp with
  | none => .ok none
  | some f =>
    match f id count with
    | .ok extra => .ok extra
    | .error e => .error (e.getD .serviceException)

/-- `backpack:useItem`; the items are deducted before the effect runs, and stay so when it fails. -/
def Backpack.useItem (logic : Logic) (b : Backpack) (id : Nat) (count : Int) (check : Bool) :
    Except Err Extra × Backpack × Bool :=
  match conf.getType id with
  | none => (.error .serviceException, b, false)
  | some tp =>
    let checked : Except Err Unit := if check then (do b.canUseItem id count; useCheck logic tp id count) else .ok ()
    match checked with
    | .error e => (.error e, b, false)
    | .ok () =>
      let r := b.useItemInner id count
      (useEffect logic tp id count, r)

def Backpack.deductItem (b : Backpack) (id : Nat) (count : Int) : Except Err Unit × Backpack × Bool :=
  match b.canUseItem id count with
  | .error e => (.error e, b, false)
  | .ok () => (.ok (), b.useItemInner id count)

def Backpack.getItemCount (b : Backpack) (id : Nat) : Int := total id b.items

/-! ## All the backpacks (`backpackCtrl`) -/

/-- The backpacks, and what `updateDB` saved of them last. -/
structure BackpackCtrl where
  backpacks : BagType → Backpack
  saved : BagType → List (Item Nat)

/-- The order in which `pairs` visits the backpacks. -/
structure Visit where
  order : List BagType
  perm : order.Perm [.props, .material, .jewel]

def Visit.inOrder : Visit := ⟨[.props, .material, .jewel], .refl _⟩

/-- `backpackCtrl:ctor` and `init` on what the database holds: a new counter starts at 0. -/
def BackpackCtrl.init (data : Option (BagType → Option (List (Item Nat)))) : BackpackCtrl where
  backpacks := fun b => ⟨0, b.maxSize, (data.bind (· b)).getD []⟩
  saved := fun b => (data.bind (· b)).getD []

def BackpackCtrl.reload (c : BackpackCtrl) : BackpackCtrl := .init (some (fun b => some (c.saved b)))

/-- A backpack changed, and everything saved if the change asks for it. -/
def BackpackCtrl.put (c : BackpackCtrl) (b : BagType) (r : Backpack × Bool) : BackpackCtrl :=
  let backpacks := Function.update c.backpacks b r.1
  ⟨backpacks, if r.2 then fun x => (backpacks x).items else c.saved⟩

def BackpackCtrl.visit (ord : Visit) (f : BagType → Backpack → Backpack × Bool) (c : BackpackCtrl) : BackpackCtrl :=
  ord.order.foldl (fun c b => c.put b (f b (c.backpacks b))) c

def absorb (x : Item Nat) : List (Item Nat) → Option (List (Item Nat))
  | [] => none
  | y :: ys => if y.id = x.id then some (⟨y.id, y.count + x.count⟩ :: ys) else (absorb x ys).map (y :: ·)

/-- The merging loop of `classifyBackpack`, from item `i` down. -/
def mergeLoop : Nat → List (Item Nat) → List (Item Nat)
  | 0, items => items
  | i + 1, items =>
    match items[i]? with
    | none => mergeLoop i items
    | some x =>
      match absorb x (items.take i) with
      | some front => mergeLoop i (front ++ items.drop (i + 1))
      | none => mergeLoop i items

def merge (items : List (Item Nat)) : List (Item Nat) := if 1 < items.length then mergeLoop items.length items else items

/-- `classifyBackpack`, after the merge: a type with items of it has a list, of those that are not empty. -/
def classify (merged : List (Item Nat)) (b : BagType) : Option (List (Item Nat)) :=
  let mine := merged.filter (fun v => conf.getBackpackType v.id = some b)
  if mine = [] then none else some (mine.filter (fun v => v.count ≠ 0))

def firstErr (ord : Visit) (ret : BagType → Option (List (Item Nat)))
    (test : BagType → List (Item Nat) → Except Err Unit) : Except Err Unit :=
  ord.order.forM (fun b =>
    match ret b with
    | none => .ok ()
    | some l => test b l)

def BackpackCtrl.canAddItems (ord : Visit) (c : BackpackCtrl) (items : List (Item Nat)) : Except Err Unit :=
  firstErr ord (classify conf (merge items)) (fun b l => (c.backpacks b).canAddItems conf l)

def BackpackCtrl.addItems (ord : Visit) (c : BackpackCtrl) (items : List (Item Nat)) : Except Err Unit × BackpackCtrl :=
  let ret := classify conf (merge items)
  if ord.order.all (fun b => (ret b).isNone) then (.error .illegalParams, c)
  else
    match c.canAddItems conf ord items with
    | .error e => (.error e, c)
    | .ok () => (.ok (), c.visit ord (fun b p => p.addItems conf ((ret b).getD [])))

def BackpackCtrl.useItem (logic : Logic) (c : BackpackCtrl) (id : Nat) (count : Int) : Except Err Extra × BackpackCtrl :=
  if id = 0 ∨ count ≤ 0 ∨ conf.getItem id = none then (.error .illegalParams, c)
  else
    match conf.getBackpackType id with
    | none => (.error .serviceException, c)
    | some b =>
      let r := (c.backpacks b).useItem conf logic id count true
      (r.1, c.put b r.2)

def useTurn (r : Backpack × Bool) (v : Item Nat) : Backpack × Bool :=
  let r' := r.1.useItemInner v.id v.count
  (r'.1, r.2 || r'.2)

/-- The loop of `deductItems` over the items of one backpack. -/
def Backpack.useEach (b : Backpack) (items : List (Item Nat)) : Backpack × Bool := items.foldl useTurn (b, false)

/-- One turn of `useItems`, checked before; a failed effect gives nothing and is passed over. -/
def useItemsTurn (logic : Logic) (r : List (Item Nat) × Backpack × Bool) (v : Item Nat) :
    List (Item Nat) × Backpack × Bool :=
  let u := r.2.1.useItem conf logic v.id v.count false
  let extra := match u.1 with
    | .ok (some extra) => extra
    | _ => []
  (r.1 ++ extra, u.2.1, r.2.2 || u.2.2)

/-- The loop of `useItems` over the items of one backpack: what the effects gave, and the backpack. -/
def Backpack.useLoop (logic : Logic) (b : Backpack) (items : List (Item Nat)) : List (Item Nat) × Backpack × Bool :=
  items.foldl (useItemsTurn conf logic) ([], b, false)

/-- `backpackCtrl:useItems`; the checks are looked up under the type of the backpack. -/
def BackpackCtrl.useItems (ord : Visit) (logic : Logic) (c : BackpackCtrl) (items : List (Item Nat)) :
    Except Err (List (Item Nat)) × BackpackCtrl :=
  if items = [] then (.error .illegalParams, c)
  else
    let ret := classify conf (merge items)
    let checked := firstErr ord ret (fun b l => l.forM (fun v => do
      (c.backpacks b).canUseItem v.id v.count
      useCheck logic b.toNat v.id v.count))
    match checked with
    | .error e => (.error e, c)
    | .ok () =>
      (.ok (ord.order.flatMap (fun b => ((c.backpacks b).useLoop conf logic ((ret b).getD [])).1)),
        c.visit ord (fun b p => (p.useLoop conf logic ((ret b).getD [])).2))

def BackpackCtrl.deductItem (c : BackpackCtrl) (id : Nat) (count : Int) : Except Err Unit × BackpackCtrl :=
  if id = 0 ∨ count ≤ 0 ∨ conf.getItem id = none then (.error .illegalParams, c)
  else
    match conf.getBackpackType id with
    | none => (.error .serviceException, c)
    | some b =>
      let r := (c.backpacks b).deductItem id count
      (r.1, c.put b r.2)

def BackpackCtrl.deductMerged (ord : Visit) (c : BackpackCtrl) (merged : List (Item Nat)) :
    Except Err Unit × BackpackCtrl :=
  let ret := classify conf merged
  match firstErr ord ret (fun b l => l.forM (fun v => (c.backpacks b).canUseItem v.id v.count)) with
  | .error e => (.error e, c)
  | .ok () => (.ok (), c.visit ord (fun b p => p.useEach ((ret b).getD [])))

def BackpackCtrl.deductItems (ord : Visit) (c : BackpackCtrl) (items : List (Item Nat)) :
    Except Err Unit × BackpackCtrl :=
  if items = [] then (.error .illegalParams, c) else c.deductMerged conf ord (merge items)

/-- One turn of `clearBackpack`: `deductItems` is given the backpack's own slots, so its merge is made on them, and the
counter does not see it. -/
def BackpackCtrl.clearOne (ord : Visit) (c : BackpackCtrl) (b : BagType) : BackpackCtrl :=
  let p := c.backpacks b
  if p.items = [] then c
  else
    let merged := merge p.items
    (BackpackCtrl.deductMerged conf ord
      { c with backpacks := Function.update c.backpacks b { p with items := merged } } merged).2

def BackpackCtrl.clearBackpack (ord : Visit) (c : BackpackCtrl) : BackpackCtrl :=
  ord.order.foldl (fun c b => c.clearOne conf ord b) c

end Conf

end Pack
end Sncpp
