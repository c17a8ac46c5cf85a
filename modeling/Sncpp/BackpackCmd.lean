import Sncpp.BackpackRep
/-!
# BackpackCmd — the client's request to use several items (`backpackCmd.reqUseItems`)

The handler looks the list over and then hands it to `useItems`.  A bad entry sets the code of the reply, and breaks
only out of the loop over the entries: the list is used all the same.
-/
namespace Sncpp
namespace Pack

open Tally

/-- `sItemInfoBrief`, of which the client may leave out either field. -/
structure ReqItem where
  id : Option Int
  count : Option Int
deriving DecidableEq

/-- The reply: no code is `gErrDef.Err_OK`, and `extra` is set by a use that went through. -/
structure UseReply where
  code : Option Err
  extra : Option (List (Item Nat))
deriving DecidableEq

def ReqItem.bad (x : ReqItem) : Bool :=
  match x.id, x.count with
  | some id, some count => id ≤ 0 || count ≤ 0
  | _, _ => true

/-- The entry as `classifyBackpack` counts it: an id that is missing or not positive is one that no item has, and a count
that is missing adds nothing where others of its id are counted in. -/
def ReqItem.toItem (x : ReqItem) : Item Nat := ⟨(x.id.getD 0).toNat, x.count.getD 0⟩

/-- `x` counted into the first entry of its id; a missing count cannot be added. -/
def reqAbsorb (x : ReqItem) : List ReqItem → Option (Option (List ReqItem))
  | [] => some none
  | y :: ys =>
    if y.id = x.id then x.count.map (fun n => some (⟨y.id, some (y.count.getD 0 + n)⟩ :: ys))
    else (reqAbsorb x ys).map (Option.map (y :: ·))

/-- The merging loop of `classifyBackpack` over the entries, from entry `i` down; `none` when an addition raises. -/
def reqMergeLoop : Nat → List ReqItem → Option (List ReqItem)
  | 0, items => some items
  | i + 1, items =>
    match items[i]? with
    | none => reqMergeLoop i items
    | some x =>
      match reqAbsorb x (items.take i) with
      | none => none
      | some (some front) => reqMergeLoop i (front ++ items.drop (i + 1))
      | some none => reqMergeLoop i items

section Conf

variable (conf : Conf)

/-- `classifyBackpack` raises: adding up a missing count, or rounding down that of a known item. -/
def raises (items : List ReqItem) : Bool :=
  match if 1 < items.length then reqMergeLoop items.length items else some items with
  | none => true
  | some merged => merged.any (fun x => (conf.getBackpackType x.toItem.id).isSome && x.count.isNone)

/-- `clientCmd.reqUseItems`: the reply, if the handler does not raise, and the backpacks. -/
def reqUseItems (ord : Visit) (logic : Logic) (c : BackpackCtrl) (items : Option (List ReqItem)) :
    Option UseReply × BackpackCtrl :=
  match items with
  | none => (some ⟨some .illegalParams, none⟩, c)
  | some items =>
    if items = [] then (some ⟨some .illegalParams, none⟩, c)
    else
      -- the inner loop: its break leaves the loop over the entries only
      let code := if items.any ReqItem.bad then some Err.illegalParams else none
      if raises conf items then (none, c)
      else
        match c.useItems conf ord logic (items.map ReqItem.toItem) with
        | (.error e, c') => (some ⟨some e, none⟩, c')
        | (.ok extra, c') => (some ⟨code, some extra⟩, c')

/-- **A rejected request changes nothing**: with an error code in the reply the backpacks are as before, and no effect
gave anything. -/
def Rejected (ord : Visit) (logic : Logic) (c : BackpackCtrl) (items : Option (List ReqItem)) : Prop :=
  ∀ reply, (reqUseItems conf ord logic c items).1 = some reply → reply.code ≠ none →
    (reqUseItems conf ord logic c items).2 = c ∧ reply.extra.getD [] = []

/-- What `classifyBackpack` makes of the request passes the checks of `useItems`, and is something. -/
def UsesGranted (logic : Logic) (c : BackpackCtrl) (items : List (Item Nat)) : Prop :=
  (∀ b, ∀ v ∈ share conf items b, (c.backpacks b).canUseItem v.id v.count = .ok () ∧
    useCheck logic b.toNat v.id v.count = .ok ()) ∧ ∃ b, share conf items b ≠ []

/-! ## A use changes the slots of its own id, and those only -/

theorem takeBack_own {id k : Nat} (hk : k ≠ id) : ∀ (l : List (Item Nat)) (count : Int), own k (takeBack id l count).1 =
    own k l
  | [], _ => rfl
  | v :: l, count => by
    unfold takeBack
    by_cases hv : v.id = id
    · have hne : v.id ≠ k := fun h => hk (h.symm.trans hv)
      rw [if_pos hv]
      split
      · rw [own_cons, own_cons, if_neg hne, if_neg hne]
      · split
        · rw [own_cons, if_neg hne]
        · rw [own_cons, if_neg hne]
          exact takeBack_own hk l _
    · rw [if_neg hv, own_cons, own_cons, takeBack_own hk l count]

theorem takeBack_own_length (id : Nat) : ∀ (l : List (Item Nat)) (count : Int),
    (own id (takeBack id l count).1).length ≤ (own id l).length
  | [], _ => le_refl _
  | v :: l, count => by
    unfold takeBack
    by_cases hv : v.id = id
    · rw [if_pos hv, own_cons id v l, if_pos hv, List.length_cons]
      split
      · rw [own_cons, if_pos hv, List.length_cons]
      · split
        · exact Nat.le_succ _
        · exact (takeBack_own_length id l _).trans (Nat.le_succ _)
    · rw [if_neg hv, own_cons id v l, if_neg hv, own_cons, if_neg hv]
      exact takeBack_own_length id l count

theorem takeBack_own_ne (id : Nat) : ∀ (l : List (Item Nat)) (count : Int), 0 < count → useRest id l count ≤ 0 →
    own id (takeBack id l count).1 ≠ own id l
  | [], count, hc, h => by
    have hrest : useRest id [] count = count := rfl
    omega
  | v :: l, count, hc, h => by
    unfold useRest at h
    unfold takeBack
    by_cases hv : v.id = id
    · rw [if_pos hv] at h ⊢
      rw [own_cons id v l, if_pos hv]
      by_cases hlt : count < v.count
      · rw [if_pos hlt, own_cons, if_pos hv]
        intro heq
        have hcount := congrArg Item.count (List.cons.inj heq).1
        simp only at hcount
        omega
      · rw [if_neg hlt]
        intro heq
        have hlen := congrArg List.length heq
        rw [List.length_cons] at hlen
        split at hlen
        · simp only at hlen
          omega
        · have hle := takeBack_own_length id l (count - v.count)
          simp only at hlen
          omega
    · rw [if_neg hv] at h ⊢
      rw [own_cons id v l, if_neg hv, own_cons, if_neg hv]
      exact takeBack_own_ne id l count hc h

theorem useItemInner_own (b : Backpack) {id k : Nat} (hk : k ≠ id) (count : Int) :
    own k (b.useItemInner id count).1.items = own k b.items := by
  show own k (takeBack id b.items.reverse count).1.reverse = own k b.items
  rw [own_reverse, takeBack_own hk, own_reverse, List.reverse_reverse]

theorem foldl_useTurn_own {k : Nat} : ∀ (l : List (Item Nat)) (r : Backpack × Bool), k ∉ ids l →
    own k (l.foldl useTurn r).1.items = own k r.1.items
  | [], _, _ => rfl
  | v :: l, r, h => by
    obtain ⟨hv, hl⟩ := not_or.1 (fun hm => h ((mem_ids_cons k v l).2 hm))
    rw [List.foldl_cons, foldl_useTurn_own l _ hl]
    exact useItemInner_own r.1 hv v.count

theorem canUseItem_rest {b : Backpack} {id : Nat} {count : Int} (h : b.canUseItem id count = .ok ()) :
    0 < count ∧ useRest id b.items.reverse count ≤ 0 := by
  unfold Backpack.canUseItem at h
  split at h
  · cases h
  · rename_i hn
    split at h
    · cases h
    · exact ⟨by omega, by omega⟩

theorem useEach_ne {b : Backpack} {l : List (Item Nat)} (hn : (ids l).Nodup) (hne : l ≠ [])
    (hok : ∀ v ∈ l, b.canUseItem v.id v.count = .ok ()) : (b.useEach l).1.items ≠ b.items := by
  obtain ⟨v, l, rfl⟩ := List.exists_cons_of_ne_nil hne
  obtain ⟨hv, -⟩ := List.nodup_cons.1 hn
  obtain ⟨hc, hrest⟩ := canUseItem_rest (hok v List.mem_cons_self)
  intro heq
  refine takeBack_own_ne v.id b.items.reverse v.count hc hrest ?_
  have hrestOwn := foldl_useTurn_own l (useTurn (b, false) v) hv
  have hback : own v.id (takeBack v.id b.items.reverse v.count).1.reverse = own v.id b.items :=
    hrestOwn.symm.trans (congrArg (own v.id) heq)
  rw [own_reverse] at hback
  rw [own_reverse, ← hback, List.reverse_reverse]

theorem visit_same (ord : Visit) (f : BagType → Backpack → Backpack × Bool) {c : BackpackCtrl}
    (hf : ∀ b, f b (c.backpacks b) = (c.backpacks b, false)) : c.visit ord f = c := by
  unfold BackpackCtrl.visit
  induction ord.order with
  | nil => rfl
  | cons b l ih => rw [List.foldl_cons, hf b, put_unchanged, ih]

/-- **`useItems`**: refused, with nothing to take, or granted; and then the backpacks change. -/
theorem useItems_usesGranted (ord : Visit) (logic : Logic) (c : BackpackCtrl) {items : List (Item Nat)} (hne : items ≠ []) :
    (¬ UsesGranted conf logic c items ∧ ∃ e, c.useItems conf ord logic items = (.error e, c)) ∨
      (¬ UsesGranted conf logic c items ∧ c.useItems conf ord logic items = (.ok [], c)) ∨
      (UsesGranted conf logic c items ∧ ∃ extra c', c.useItems conf ord logic items = (.ok extra, c') ∧ c' ≠ c) := by
  have hok : firstErr ord (classify conf (merge items)) (fun b l => l.forM (fun v => do
      (c.backpacks b).canUseItem v.id v.count
      useCheck logic b.toNat v.id v.count)) = .ok () ↔
      ∀ b, ∀ v ∈ share conf items b, (c.backpacks b).canUseItem v.id v.count = .ok () ∧
        useCheck logic b.toNat v.id v.count = .ok () := firstErr_each ord _ _ _
  unfold BackpackCtrl.useItems
  rw [if_neg hne]
  simp only
  cases hf : firstErr ord (classify conf (merge items)) (fun b l => l.forM (fun v => do
      (c.backpacks b).canUseItem v.id v.count
      useCheck logic b.toNat v.id v.count)) with
  | error e =>
    refine .inl ⟨fun h => ?_, e, rfl⟩
    rw [hok.2 h.1] at hf
    cases hf
  | ok u =>
    have hchecks := hok.1 hf
    refine .inr ?_
    by_cases hall : ∀ b, share conf items b = []
    · have hshare : ∀ b, (classify conf (merge items) b).getD [] = [] := hall
      refine .inl ⟨?_, ?_⟩
      · rintro ⟨-, b, hb⟩
        exact hb (hall b)
      · have hextra : ord.order.flatMap (fun b =>
          ((c.backpacks b).useLoop conf logic ((classify conf (merge items) b).getD [])).1) = [] :=
          List.flatMap_eq_nil_iff.2 (fun b _ => by rw [hshare b]; rfl)
        rw [hextra, visit_same ord _ (fun b => by rw [hshare b]; rfl)]
    · obtain ⟨b, hb⟩ := not_forall.1 hall
      refine .inr ⟨⟨hchecks, b, hb⟩, _, _, rfl, fun heq => ?_⟩
      have hitems := congrArg (fun c' : BackpackCtrl => (c'.backpacks b).items) heq
      rw [visit_backpacks, useLoop_share] at hitems
      exact useEach_ne (share_nodup conf items b) hb (fun v hv => (hchecks b v hv).1) hitems

end Conf

end Pack
end Sncpp
