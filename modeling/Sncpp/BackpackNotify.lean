import Sncpp.BackpackRep
import Sncpp.Replay
import Sncpp.Steps
/-!
# BackpackNotify — the client's copy of a backpack (`notifyUpdateItemInfo`)

Adding and using collect the slots they touch and push them to the client.  An entry of `addItems` refers to the slot
itself and is sent when all is added, so it carries what the slot holds in the end; `_useItem` sends what it leaves of
a slot, or its position alone when it removes it, from the last slot backwards.  Either way a copy that takes the
entries in order follows the slots.
-/
namespace Sncpp
namespace Pack

open Tally Replay

section Notify

variable (conf : Conf)

def Backpack.addUnitsAt (id : Nat) : Nat → Backpack → List Nat
  | 0, _ => []
  | n + 1, b => if b.curSize < b.maxSize then (b.items.length + 1) :: addUnitsAt id n (b.push ⟨id, 1⟩) else []

def addFirstAt (id : Nat) : Nat → List (Item Nat) → List Nat
  | _, [] => []
  | k, v :: vs => if v.id = id then [k] else addFirstAt id (k + 1) vs

def fillStacksAt (id : Nat) (maxCount : Int) : Nat → List (Item Nat) → Int → List Nat
  | _, [], _ => []
  | k, v :: vs, count =>
    if v.id = id ∧ v.count < maxCount then
      if v.count + count ≤ maxCount then [k] else k :: fillStacksAt id maxCount (k + 1) vs (count - (maxCount - v.count))
    else fillStacksAt id maxCount (k + 1) vs count

def Backpack.newStacksAt (id : Nat) (maxCount : Int) : Nat → Int → Backpack → List Nat
  | 0, _, _ => []
  | n + 1, count, b =>
    if 0 < count ∧ b.curSize < b.maxSize then
      if count ≤ maxCount then [b.items.length + 1]
      else (b.items.length + 1) :: newStacksAt id maxCount n (count - maxCount) (b.push ⟨id, maxCount⟩)
    else []

def Backpack.addItemAt (b : Backpack) (id : Nat) (count : Int) : List Nat :=
  let maxCount := conf.getMaxCount id
  if maxCount = 1 then b.addUnitsAt id count.toNat
  else if maxCount = 0 then
    match addFirst id count b.items with
    | some _ => addFirstAt id 1 b.items
    | none => if b.curSize < b.maxSize then [b.items.length + 1] else []
  else
    let r := fillStacks id maxCount b.items count
    let free := b.maxSize - b.curSize
    fillStacksAt id maxCount 1 b.items count ++ Backpack.newStacksAt id maxCount free.toNat r.2 { b with items := r.1 }

def Backpack.addItemsAt : List (Item Nat) → Backpack → List Nat
  | [], _ => []
  | v :: vs, b =>
    if 0 < v.count then b.addItemAt conf v.id v.count ++ addItemsAt vs (b.addItemInner conf v.id v.count).1
    else addItemsAt vs b

/-- The entries `addItems` sends: each with what its slot holds in the end. -/
def Backpack.addNotify (b : Backpack) (items : List (Item Nat)) : List (Change (Item Nat)) :=
  sent (b.addItems conf items).1.items (b.addItemsAt conf items)

/-- The entries of `_useItem`; the slots are given from the last one backwards. -/
def takeNotify (id : Nat) : List (Item Nat) → Int → List (Change (Item Nat))
  | [], _ => []
  | v :: vs, count =>
    if v.id = id then
      if count < v.count then [⟨vs.length + 1, some ⟨v.id, v.count - count⟩⟩]
      else if count - v.count ≤ 0 then [⟨vs.length + 1, none⟩]
      else ⟨vs.length + 1, none⟩ :: takeNotify id vs (count - v.count)
    else takeNotify id vs count

def Backpack.useNotify (b : Backpack) (id : Nat) (count : Int) : List (Change (Item Nat)) :=
  takeNotify id b.items.reverse count

theorem addUnits_covers (id : Nat) : ∀ (n : Nat) (b : Backpack),
    Covers b.items (b.addUnitsAt id n) (Backpack.addUnits id n b).items
  | 0, b => Covers.refl b.items
  | n + 1, b => by
    rw [Backpack.addUnitsAt, Backpack.addUnits]
    split
    · exact (Covers.push b.items ⟨id, 1⟩).trans (addUnits_covers id n (b.push ⟨id, 1⟩))
    · exact Covers.refl b.items

theorem addFirst_covers (id : Nat) (count : Int) : ∀ {l l' : List (Item Nat)} (pre : List (Item Nat)),
    addFirst id count l = some l' → Covers (pre ++ l) (addFirstAt id (pre.length + 1) l) (pre ++ l')
  | [], _, _, h => by cases h
  | v :: l, l', pre, h => by
    rw [addFirst] at h
    rw [addFirstAt]
    split at h
    · rename_i hv
      obtain rfl := Option.some.inj h
      rw [if_pos hv]
      exact Covers.at pre v _ l
    · rename_i hv
      obtain ⟨l'', hl, rfl⟩ := Option.map_eq_some_iff.1 h
      have ih := addFirst_covers id count (pre ++ [v]) hl
      rw [if_neg hv]
      rwa [List.append_assoc, List.append_assoc, List.length_append] at ih

theorem fillStacks_covers (id : Nat) (m : Int) : ∀ (l : List (Item Nat)) (count : Int) (pre : List (Item Nat)),
    Covers (pre ++ l) (fillStacksAt id m (pre.length + 1) l count) (pre ++ (fillStacks id m l count).1)
  | [], _, pre => Covers.refl _
  | v :: l, count, pre => by
    have hstep : ∀ (v' : Item Nat) (count' : Int),
        Covers (pre ++ v' :: l) (fillStacksAt id m (pre.length + 1 + 1) l count') (pre ++
          v' :: (fillStacks id m l count').1) := by
      intro v' count'
      have ih := fillStacks_covers id m l count' (pre ++ [v'])
      rwa [List.append_assoc, List.append_assoc, List.length_append] at ih
    rw [fillStacksAt, fillStacks]
    split
    · split
      · exact Covers.at pre v _ l
      · exact (Covers.at pre v ⟨v.id, m⟩ l).trans (hstep ⟨v.id, m⟩ _)
    · exact hstep v count

theorem newStacks_covers (id : Nat) (m : Int) : ∀ (n : Nat) (count : Int) (b : Backpack),
    Covers b.items (b.newStacksAt id m n count) (Backpack.newStacks id m n count b).items
  | 0, _, b => Covers.refl b.items
  | n + 1, count, b => by
    rw [Backpack.newStacksAt, Backpack.newStacks]
    split
    · split
      · exact Covers.push b.items ⟨id, count⟩
      · exact (Covers.push b.items ⟨id, m⟩).trans (newStacks_covers id m n _ (b.push ⟨id, m⟩))
    · exact Covers.refl b.items

theorem addItemInner_covers (b : Backpack) (id : Nat) (count : Int) :
    Covers b.items (b.addItemAt conf id count) (b.addItemInner conf id count).1.items := by
  unfold Backpack.addItemAt Backpack.addItemInner
  simp only
  by_cases h1 : conf.getMaxCount id = 1
  · rw [if_pos h1, if_pos h1]
    exact addUnits_covers id _ b
  · rw [if_neg h1, if_neg h1]
    by_cases h0 : conf.getMaxCount id = 0
    · rw [if_pos h0, if_pos h0]
      cases hfirst : addFirst id count b.items with
      | some items => exact addFirst_covers id count [] hfirst
      | none =>
        simp only
        split
        · exact Covers.push b.items ⟨id, count⟩
        · exact Covers.refl b.items
    · rw [if_neg h0, if_neg h0]
      have hfill := fillStacks_covers id (conf.getMaxCount id) b.items count []
      exact hfill.trans (newStacks_covers id _ _ _
        { b with items := (fillStacks id (conf.getMaxCount id) b.items count).1 })

theorem addItems_covers : ∀ (items : List (Item Nat)) (b : Backpack) (flag : Bool),
    Covers b.items (b.addItemsAt conf items) (items.foldl (addTurn conf) (b, flag)).1.items
  | [], b, _ => Covers.refl b.items
  | v :: vs, b, flag => by
    rw [Backpack.addItemsAt, List.foldl_cons, addTurn]
    split
    · exact (addItemInner_covers conf b v.id v.count).trans (addItems_covers vs _ _)
    · exact addItems_covers vs b flag

/-- **A copy follows `addItems`.** -/
theorem addNotify_replay (b : Backpack) (items : List (Item Nat)) :
    replay b.items (b.addNotify conf items) = (b.addItems conf items).1.items :=
  (addItems_covers conf items b false).replay

theorem takeNotify_replay (id : Nat) : ∀ (l : List (Item Nat)) (count : Int) (tail : List (Item Nat)),
    replay (l.reverse ++ tail) (takeNotify id l count) = (takeBack id l count).1.reverse ++ tail
  | [], _, _ => rfl
  | v :: l, count, tail => by
    have hcons : (v :: l).reverse ++ tail = l.reverse ++ v :: tail := by simp
    rw [takeNotify, takeBack, hcons, ← List.length_reverse]
    by_cases hv : v.id = id
    · rw [if_pos hv, if_pos hv]
      split
      · rw [replay_set]
        simp [replay]
      · split
        · rw [replay_remove]
          rfl
        · rw [replay_remove]
          exact takeNotify_replay id l _ tail
    · rw [if_neg hv, if_neg hv, takeNotify_replay id l count (v :: tail)]
      simp

/-- **A copy follows `_useItem`.** -/
theorem useNotify_replay (b : Backpack) (id : Nat) (count : Int) :
    replay b.items (b.useNotify id count) = (b.useItemInner id count).1.items := by
  have h := takeNotify_replay id b.items.reverse count []
  rwa [List.append_nil, List.append_nil, List.reverse_reverse] at h

/-! ## What an operation does to one backpack -/

/-- A change of a backpack's slots.  The merge of `classifyBackpack` is one when it is made on the slots themselves. -/
inductive Call where
  | add (items : List (Item Nat))
  | use (id : Nat) (count : Int)
  | merge
deriving DecidableEq

def Call.run (b : Backpack) : Call → Backpack
  | .add items => (b.addItems conf items).1
  | .use id count => (b.useItemInner id count).1
  | .merge => { b with items := Pack.merge b.items }

def Call.notify (b : Backpack) : Call → List (Change (Item Nat))
  | .add items => b.addNotify conf items
  | .use id count => b.useNotify id count
  | .merge => []

/-- The call `backpack:useItem` makes, if it passes its checks. -/
def Backpack.useItemCalls (logic : Logic) (b : Backpack) (id : Nat) (count : Int) : List Call :=
  match conf.getType id with
  | none => []
  | some tp =>
    match (do b.canUseItem id count; useCheck logic tp id count : Except Err Unit) with
    | .error _ => []
    | .ok () => [.use id count]

/-- The call `backpack:deductItem` makes, if there is enough. -/
def Backpack.deductItemCalls (b : Backpack) (id : Nat) (count : Int) : List Call :=
  match b.canUseItem id count with
  | .error _ => []
  | .ok () => [.use id count]

/-- The calls on backpack `b` of `useItem` and `deductItem`, which hand a known id to the backpack of its type. -/
def BackpackCtrl.oneCalls (c : BackpackCtrl) (b : BagType) (id : Nat) (count : Int) (l : Backpack → List Call) :
    List Call :=
  if id = 0 ∨ count ≤ 0 ∨ conf.getItem id = none ∨ conf.getBackpackType id ≠ some b then [] else l (c.backpacks b)

def BackpackCtrl.deductCalls (ord : Visit) (c : BackpackCtrl) (merged : List (Item Nat)) (b : BagType) : List Call :=
  match (c.deductMerged conf ord merged).1 with
  | .error _ => []
  | .ok () => ((classify conf merged b).getD []).map (fun v => .use v.id v.count)

/-- The calls of one turn of `clearBackpack`, at backpack `x`. -/
def BackpackCtrl.clearOneCalls (ord : Visit) (c : BackpackCtrl) (x b : BagType) : List Call :=
  let p := c.backpacks x
  if p.items = [] then []
  else
    let merged := merge p.items
    (if b = x then [.merge] else []) ++ BackpackCtrl.deductCalls conf ord
      { c with backpacks := Function.update c.backpacks x { p with items := merged } } merged b

def BackpackCtrl.clearCalls (ord : Visit) : List BagType → BackpackCtrl → BagType → List Call
  | [], _, _ => []
  | x :: l, c, b => c.clearOneCalls conf ord x b ++ clearCalls ord l (c.clearOne conf ord x) b

def calls (c : BackpackCtrl) (b : BagType) : Op → List Call
  | .addItems ord items =>
    match (c.addItems conf ord items).1, classify conf (merge items) b with
    | .ok (), some l => [.add l]
    | _, _ => []
  | .deductItem id count => c.oneCalls conf b id count (fun p => p.deductItemCalls id count)
  | .deductItems ord items => if items = [] then [] else c.deductCalls conf ord (merge items) b
  | .useItem logic id count => c.oneCalls conf b id count (fun p => p.useItemCalls conf logic id count)
  | .useItems ord logic items =>
    match (c.useItems conf ord logic items).1 with
    | .error _ => []
    | .ok _ => (share conf items b).map (fun v => .use v.id v.count)
  | .clearBackpack ord => c.clearCalls conf ord ord.order b
  | .reload => []

theorem foldl_use (l : List (Item Nat)) (p : Backpack) :
    (l.map (fun v => Call.use v.id v.count)).foldl (Call.run conf) p = (p.useEach l).1 := by
  have h : ∀ (l : List (Item Nat)) (p : Backpack) (flag : Bool),
      (l.map (fun v => Call.use v.id v.count)).foldl (Call.run conf) p = (l.foldl useTurn (p, flag)).1 := by
    intro l
    induction l with
    | nil => exact fun _ _ => rfl
    | cons v l ih => exact fun p flag => ih _ _
  exact h l p false

theorem put_backpacks (c : BackpackCtrl) (x b : BagType) (r : Backpack × Bool) :
    (c.put x r).backpacks b = if b = x then r.1 else c.backpacks b := by
  unfold BackpackCtrl.put
  simp only [Function.update_apply]

theorem deductMerged_run (ord : Visit) (c : BackpackCtrl) (merged : List (Item Nat)) (b : BagType) :
    (c.deductMerged conf ord merged).2.backpacks b =
      (c.deductCalls conf ord merged b).foldl (Call.run conf) (c.backpacks b) := by
  unfold BackpackCtrl.deductCalls BackpackCtrl.deductMerged
  simp only
  cases firstErr ord (classify conf merged) (fun b l => l.forM (fun v => (c.backpacks b).canUseItem v.id v.count)) with
  | error e => rfl
  | ok u =>
    simp only
    rw [visit_backpacks, foldl_use]

theorem clearOne_run (ord : Visit) (c : BackpackCtrl) (x b : BagType) :
    (c.clearOne conf ord x).backpacks b = (c.clearOneCalls conf ord x b).foldl (Call.run conf) (c.backpacks b) := by
  unfold BackpackCtrl.clearOneCalls BackpackCtrl.clearOne
  simp only
  split
  · rfl
  · rw [deductMerged_run, List.foldl_append]
    congr 1
    by_cases hb : b = x
    · subst hb
      rw [if_pos rfl]
      exact Function.update_self ..
    · rw [if_neg hb]
      exact Function.update_of_ne hb ..

theorem clearCalls_run (ord : Visit) (b : BagType) : ∀ (l : List BagType) (c : BackpackCtrl),
    (l.foldl (fun c x => c.clearOne conf ord x) c).backpacks b =
      (c.clearCalls conf ord l b).foldl (Call.run conf) (c.backpacks b)
  | [], _ => rfl
  | x :: l, c => by
    rw [List.foldl_cons, clearCalls_run ord b l, BackpackCtrl.clearCalls, List.foldl_append, clearOne_run]

theorem one_run {c c' : BackpackCtrl} (b : BagType) {id : Nat} {count : Int} {l : Backpack → List Call}
    (hbad : id = 0 ∨ count ≤ 0 ∨ conf.getItem id = none ∨ conf.getBackpackType id = none → c' = c)
    (hown : ∀ x, ¬(id = 0 ∨ count ≤ 0 ∨ conf.getItem id = none) → conf.getBackpackType id = some x →
      ∃ r : Backpack × Bool, c' = c.put x r ∧ r.1 = (l (c.backpacks x)).foldl (Call.run conf) (c.backpacks x)) :
    c'.backpacks b = (c.oneCalls conf b id count l).foldl (Call.run conf) (c.backpacks b) := by
  unfold BackpackCtrl.oneCalls
  by_cases hcalls : id = 0 ∨ count ≤ 0 ∨ conf.getItem id = none
  · rw [hbad (by tauto), if_pos (by tauto)]
    rfl
  · cases htype : conf.getBackpackType id with
    | none =>
      rw [hbad (.inr (.inr (.inr htype))), if_pos (by simp)]
      rfl
    | some x =>
      obtain ⟨r, rfl, hr⟩ := hown x hcalls htype
      rw [put_backpacks]
      by_cases hb : b = x
      · subst hb
        rw [if_pos rfl, if_neg (by tauto), hr]
      · rw [if_neg hb, if_pos (.inr (.inr (.inr (fun h => hb (Option.some.inj h).symm))))]
        rfl

theorem deductItem_run (c : BackpackCtrl) (b : BagType) (id : Nat) (count : Int) :
    (c.deductItem conf id count).2.backpacks b =
      (c.oneCalls conf b id count (fun p => p.deductItemCalls id count)).foldl (Call.run conf) (c.backpacks b) := by
  refine one_run conf b (fun hbad => ?_) (fun x hgood htype => ?_)
  · unfold BackpackCtrl.deductItem
    split
    · rfl
    · rename_i hgood
      rw [show conf.getBackpackType id = none by tauto]
  · refine ⟨((c.backpacks x).deductItem id count).2, ?_, ?_⟩
    · unfold BackpackCtrl.deductItem
      rw [if_neg hgood, htype]
    · unfold Backpack.deductItem Backpack.deductItemCalls
      cases (c.backpacks x).canUseItem id count <;> rfl

theorem useItem_run (logic : Logic) (c : BackpackCtrl) (b : BagType) (id : Nat) (count : Int) :
    (c.useItem conf logic id count).2.backpacks b =
      (c.oneCalls conf b id count (fun p => p.useItemCalls conf logic id count)).foldl (Call.run conf) (c.backpacks b) := by
  refine one_run conf b (fun hbad => ?_) (fun x hgood htype => ?_)
  · unfold BackpackCtrl.useItem
    split
    · rfl
    · rename_i hgood
      rw [show conf.getBackpackType id = none by tauto]
  · refine ⟨((c.backpacks x).useItem conf logic id count true).2, ?_, ?_⟩
    · unfold BackpackCtrl.useItem
      rw [if_neg hgood, htype]
    · unfold Backpack.useItem Backpack.useItemCalls
      cases conf.getType id with
      | none => rfl
      | some tp =>
        simp only [if_true]
        cases (do (c.backpacks x).canUseItem id count; useCheck logic tp id count : Except Err Unit) <;> rfl

theorem calls_run (c : BackpackCtrl) (b : BagType) {op : Op} (hop : op ≠ .reload) :
    (step conf c op).backpacks b = (calls conf c b op).foldl (Call.run conf) (c.backpacks b) := by
  cases op with
  | addItems ord items =>
    unfold step calls BackpackCtrl.addItems
    simp only
    split
    · rfl
    · cases c.canAddItems conf ord items with
      | error e => rfl
      | ok u =>
        simp only
        rw [visit_backpacks]
        cases classify conf (merge items) b with
        | none => rfl
        | some l => rfl
  | deductItem id count => exact deductItem_run conf c b id count
  | deductItems ord items =>
    unfold step calls BackpackCtrl.deductItems
    simp only
    split
    · rfl
    · exact deductMerged_run conf ord c _ b
  | useItem logic id count => exact useItem_run conf logic c b id count
  | useItems ord logic items =>
    unfold step calls BackpackCtrl.useItems
    simp only
    split
    · rfl
    · cases firstErr ord (classify conf (merge items)) (fun b l => l.forM (fun v => do
        (c.backpacks b).canUseItem v.id v.count
        useCheck logic b.toNat v.id v.count)) with
      | error e => rfl
      | ok u =>
        simp only
        rw [visit_backpacks, useLoop_share, foldl_use]
  | clearBackpack ord => exact clearCalls_run conf ord b ord.order c
  | reload => exact absurd rfl hop

structure Watched where
  ctrl : BackpackCtrl
  copy : BagType → List (Item Nat)

def tell (r : List (Item Nat) × Backpack) (call : Call) : List (Item Nat) × Backpack :=
  (replay r.1 (call.notify conf r.2), call.run conf r.2)

/-- An operation, and what the copies make of its notices; when the player starts again, the client asks for the backpacks
anew. -/
def Watched.step (w : Watched) (op : Op) : Watched where
  ctrl := Pack.step conf w.ctrl op
  copy := fun b =>
    match op with
    | .reload => ((Pack.step conf w.ctrl op).backpacks b).items
    | _ => ((calls conf w.ctrl b op).foldl (tell conf) (w.copy b, w.ctrl.backpacks b)).1

def Watched.Synced (w : Watched) : Prop := ∀ b, w.copy b = (w.ctrl.backpacks b).items

def Watched.Untwinned (w : Watched) : Op → Prop
  | .clearBackpack _ => ∀ b, (ids (w.ctrl.backpacks b).items).Nodup
  | _ => True

theorem foldl_tell_snd (l : List Call) : ∀ r : List (Item Nat) × Backpack, (l.foldl (tell conf) r).2 =
    l.foldl (Call.run conf) r.2 := by
  induction l with
  | nil => exact fun _ => rfl
  | cons call l ih => exact fun r => ih _

theorem tell_synced {r : List (Item Nat) × Backpack} (call : Call) (hmerge : call = .merge → (ids r.2.items).Nodup)
    (h : r.1 = r.2.items) : (tell conf r call).1 = (tell conf r call).2.items := by
  unfold tell
  rw [h]
  cases call with
  | add items => exact addNotify_replay conf r.2 items
  | use id count => exact useNotify_replay r.2 id count
  | merge => exact (merge_of_nodup (hmerge rfl)).symm

theorem foldl_tell_synced : ∀ (l : List Call) (r : List (Item Nat) × Backpack), (∀ call ∈ l, call ≠ .merge) →
    r.1 = r.2.items →
    (l.foldl (tell conf) r).1 = (l.foldl (tell conf) r).2.items
  | [], _, _, h => h
  | call :: l, _, hl, h =>
    foldl_tell_synced l _ (fun x hx => hl x (List.mem_cons_of_mem _ hx))
      (tell_synced conf call (fun he => absurd he (hl call List.mem_cons_self)) h)

theorem takeBack_ids (id : Nat) : ∀ (l : List (Item Nat)) (count : Int), (ids (takeBack id l count).1).Sublist (ids l)
  | [], _ => List.Sublist.refl _
  | v :: l, count => by
    rw [takeBack]
    split
    · split
      · exact List.Sublist.refl _
      · split
        · exact List.sublist_cons_self _ _
        · exact (takeBack_ids id l _).cons _
    · exact (takeBack_ids id l count).cons_cons _

theorem useItemInner_ids (b : Backpack) (id : Nat) (count : Int) :
    (ids (b.useItemInner id count).1.items).Sublist (ids b.items) := by
  have h := (takeBack_ids id b.items.reverse count).reverse
  unfold ids at h ⊢
  rwa [← List.map_reverse, ← List.map_reverse, List.reverse_reverse] at h

theorem foldl_tell_untwinned : ∀ (l : List Call) (r : List (Item Nat) × Backpack), (∀ items, Call.add items ∉ l) →
    (ids r.2.items).Nodup → r.1 = r.2.items → (l.foldl (tell conf) r).1 = (l.foldl (tell conf) r).2.items
  | [], _, _, _, h => h
  | call :: l, r, hl, hn, h => by
    refine foldl_tell_untwinned l _ (fun items hm => hl items (List.mem_cons_of_mem _ hm)) ?_
      (tell_synced conf call (fun _ => hn) h)
    cases call with
    | add items => exact absurd List.mem_cons_self (hl items)
    | use id count => exact hn.sublist (useItemInner_ids r.2 id count)
    | merge =>
      show (ids (merge r.2.items)).Nodup
      rw [merge_of_nodup hn]
      exact hn

theorem add_not_mem_clearCalls (ord : Visit) (b : BagType) (items : List (Item Nat)) :
    ∀ (l : List BagType) (c : BackpackCtrl),
    Call.add items ∉ c.clearCalls conf ord l b
  | [], _ => List.not_mem_nil
  | x :: l, c => by
    rw [BackpackCtrl.clearCalls, List.mem_append, not_or]
    refine ⟨?_, add_not_mem_clearCalls ord b items l _⟩
    unfold BackpackCtrl.clearOneCalls BackpackCtrl.deductCalls
    simp only
    split
    · exact List.not_mem_nil
    · rw [List.mem_append, not_or]
      constructor
      · split <;> simp
      · split <;> simp

theorem merge_not_mem_calls (c : BackpackCtrl) (b : BagType) {op : Op} (hop : ∀ ord, op ≠ .clearBackpack ord) :
    ∀ call ∈ calls conf c b op, call ≠ .merge := by
  have huse : ∀ l : List (Item Nat), ∀ call ∈ l.map (fun v => Call.use v.id v.count), call ≠ .merge := by
    intro l call hcall
    obtain ⟨v, -, rfl⟩ := List.mem_map.1 hcall
    exact Call.noConfusion
  have hone : ∀ id count, ∀ l : Backpack → List Call, (∀ p, ∀ call ∈ l p, call ≠ .merge) →
      ∀ call ∈ c.oneCalls conf b id count l, call ≠ .merge := by
    intro id count l hl call hcall
    unfold BackpackCtrl.oneCalls at hcall
    split at hcall
    · cases hcall
    · exact hl _ call hcall
  cases op with
  | addItems ord items =>
    unfold calls
    simp only
    split <;> simp
  | deductItem id count =>
    refine hone id count (fun p => p.deductItemCalls id count) (fun p => ?_)
    unfold Backpack.deductItemCalls
    split <;> simp
  | deductItems ord items =>
    unfold calls BackpackCtrl.deductCalls
    simp only
    split
    · simp
    · split
      · simp
      · exact huse _
  | useItem logic id count =>
    refine hone id count (fun p => p.useItemCalls conf logic id count) (fun p => ?_)
    unfold Backpack.useItemCalls
    split
    · simp
    · split <;> simp
  | useItems ord logic items =>
    unfold calls
    simp only
    split
    · simp
    · exact huse _
  | clearBackpack ord => exact absurd rfl (hop ord)
  | reload => simp [calls]

theorem Watched.Synced.step {w : Watched} (h : w.Synced) {op : Op} (hop : w.Untwinned op) : (w.step conf op).Synced := by
  intro b
  by_cases hreload : op = .reload
  · subst hreload
    rfl
  · have hcopy : (w.step conf op).copy b =
      ((calls conf w.ctrl b op).foldl (tell conf) (w.copy b, w.ctrl.backpacks b)).1 := by
      unfold Watched.step
      cases op <;> first | rfl | exact absurd rfl hreload
    have hctrl : (w.step conf op).ctrl.backpacks b =
      ((calls conf w.ctrl b op).foldl (tell conf) (w.copy b, w.ctrl.backpacks b)).2 := by
      rw [foldl_tell_snd]
      exact calls_run conf w.ctrl b hreload
    rw [hcopy, hctrl]
    by_cases hclear : ∃ ord, op = .clearBackpack ord
    · obtain ⟨ord, rfl⟩ := hclear
      exact foldl_tell_untwinned conf _ _ (fun items => add_not_mem_clearCalls conf ord b items _ _) (hop b) (h b)
    · exact foldl_tell_synced conf _ _ (merge_not_mem_calls conf w.ctrl b (fun ord he => hclear ⟨ord, he⟩)) (h b)

/-- **The client's copies follow**: every addition and every use, in any state; and every run of the operations in which
clearing finds no id in two slots. -/
theorem copies_follow : (∀ (b : Backpack) (items : List (Item Nat)), replay b.items (b.addNotify conf items) =
    (b.addItems conf items).1.items) ∧
    (∀ (b : Backpack) (id : Nat) (count : Int), replay b.items (b.useNotify id count) = (b.useItemInner id count).1.items) ∧
    ∀ (w : Watched) (ops : List Op), w.Synced → Steps.Along (Watched.step conf) Watched.Untwinned w ops →
      (ops.foldl (Watched.step conf) w).Synced :=
  ⟨addNotify_replay conf, useNotify_replay, fun w ops h hops =>
    Steps.Along.inv (I := Watched.Synced) (fun _ _ hop hw => hw.step conf hop) ops w hops h⟩

end Notify

def Watched.fresh : Watched := ⟨.init none, fun _ => []⟩

theorem copies_follow_game : ([Op.addItems .inOrder [⟨1001, 3⟩, ⟨1, 5⟩], .useItem Logic.game 1001 2,
    .useItems .inOrder Logic.game [⟨1, 1⟩, ⟨1001, 1⟩],
      .clearBackpack .inOrder].foldl (Watched.step Conf.game) .fresh).Synced :=
  (copies_follow Conf.game).2.2 .fresh _ (fun _ => rfl)
    ⟨trivial, trivial, trivial, (fun b => by cases b <;> decide +kernel), trivial⟩

/-- **Cleared with an id in two slots**: they are merged and taken, and the client, told of one slot, keeps the other. -/
theorem slot_left_in_copy :
    let w := [Op.addItems .inOrder [⟨1001, 1001⟩], .clearBackpack .inOrder].foldl (Watched.step Conf.game) .fresh
    (w.ctrl.backpacks .material).items = [] ∧ w.copy .material = [⟨1001, 2⟩] ∧ ¬w.Synced := by
  refine ⟨by decide +kernel, by decide +kernel, fun h => ?_⟩
  have hcopy := h .material
  revert hcopy
  decide +kernel

end Pack
end Sncpp
