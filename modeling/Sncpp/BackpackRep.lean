import Sncpp.BackpackAdd
import Sncpp.BackpackUse
/-!
# BackpackRep — the counter and the slots over whole runs

`Rep` is what a backpack's fields should say of each other.  Adding and deducting keep it; starting again and clearing
do not: a reloaded backpack has its slots and a counter of 0, and clearing merges the slots of an id without the
counter.
-/
namespace Sncpp
namespace Pack

open Tally

/-- **The counter counts the slots, which are within the size, and each is within its limit.** -/
structure Rep (conf : Conf) (p : Backpack) : Prop where
  size : p.curSize = p.items.length
  cap : p.curSize ≤ p.maxSize
  slot : ∀ v ∈ p.items, 0 < v.count ∧ (conf.getMaxCount v.id ≠ 0 → v.count ≤ conf.getMaxCount v.id)

inductive Op where
  | addItems (ord : Visit) (items : List (Item Nat))
  | deductItem (id : Nat) (count : Int)
  | deductItems (ord : Visit) (items : List (Item Nat))
  | useItem (logic : Logic) (id : Nat) (count : Int)
  | useItems (ord : Visit) (logic : Logic) (items : List (Item Nat))
  | clearBackpack (ord : Visit)
  | reload

def step (conf : Conf) (c : BackpackCtrl) : Op → BackpackCtrl
  | .addItems ord items => (c.addItems conf ord items).2
  | .deductItem id count => (c.deductItem conf id count).2
  | .deductItems ord items => (c.deductItems conf ord items).2
  | .useItem logic id count => (c.useItem conf logic id count).2
  | .useItems ord logic items => (c.useItems conf ord logic items).2
  | .clearBackpack ord => c.clearBackpack conf ord
  | .reload => c.reload

def Tame (c : BackpackCtrl) : Op → Prop
  | .clearBackpack _ => ∀ b, (ids (c.backpacks b).items).Nodup
  | .reload => ∀ b, c.saved b = []
  | _ => True

def RepAlong (conf : Conf) : BackpackCtrl → List Op → Prop
  | c, [] => ∀ b, Rep conf (c.backpacks b)
  | c, op :: ops => (∀ b, Rep conf (c.backpacks b)) ∧ RepAlong conf (step conf c op) ops

def TameAlong (conf : Conf) : BackpackCtrl → List Op → Prop
  | _, [] => True
  | c, op :: ops => Tame c op ∧ TameAlong conf (step conf c op) ops

/-- The invariant of a run: the representation, slots only in the backpack of their type, and everything saved. -/
structure Inv (conf : Conf) (c : BackpackCtrl) : Prop where
  rep : ∀ b, Rep conf (c.backpacks b)
  typed : ∀ b, ∀ v ∈ (c.backpacks b).items, conf.getBackpackType v.id = some b
  saved : Saved c

theorem Rep.positive {conf : Conf} {p : Backpack} (h : Rep conf p) : Positive p.items := fun v hv => (h.slot v hv).1

theorem Rep.added {conf : Conf} {p p' : Backpack} {l : List (Item Nat)} (h : Rep conf p) (ha : Added conf p l p')
    (hcap : p'.curSize ≤ p.maxSize) : Rep conf p' := by
  refine ⟨?_, ha.maxSize.symm ▸ hcap, fun v hv => ⟨ha.positive h.positive v hv, ?_⟩⟩
  · have h1 := h.size
    have h2 := ha.pace
    omega
  · rcases ha.slot v hv with hold | ⟨-, hnew⟩
    · exact (h.slot v hold).2
    · exact hnew

theorem Rep.used {conf : Conf} {p p' : Backpack} {l : List (Item Nat)} (h : Rep conf p) (hu : Used p l p') :
    Rep conf p' := by
  have h1 := h.size
  have h2 := hu.pace
  have h3 := hu.length
  have h4 := hu.maxSize
  have h5 := h.cap
  refine ⟨by omega, by omega, fun v hv => ⟨hu.positive v hv, fun hm => ?_⟩⟩
  obtain ⟨u, hmem, hid, hle⟩ := hu.slot v hv
  rw [← hid] at hm ⊢
  exact le_trans hle ((h.slot u hmem).2 hm)

theorem fillStacks_of_none {id : Nat} {m : Int} (count : Int) : ∀ {l : List (Item Nat)},
    l.any (fun v => v.id = id ∧ v.count < m) = false → fillStacks id m l count = (l, count)
  | [], _ => rfl
  | v :: l, h => by
    rw [List.any_cons, Bool.or_eq_false_iff] at h
    have hv : ¬(v.id = id ∧ v.count < m) := by simpa using h.1
    unfold fillStacks
    rw [if_neg hv, fillStacks_of_none count h.2]

theorem addItemInner_unchanged (conf : Conf) (b : Backpack) (id : Nat) (count : Int)
    (h : (b.addItemInner conf id count).2 = false) : (b.addItemInner conf id count).1.items = b.items := by
  unfold Backpack.addItemInner at h ⊢
  simp only at h ⊢
  by_cases h1 : conf.getMaxCount id = 1
  · rw [if_pos h1] at h ⊢
    simp only [Bool.and_eq_false_iff, decide_eq_false_iff_not] at h
    cases hn : count.toNat with
    | zero => rfl
    | succ n =>
      unfold Backpack.addUnits
      rw [if_neg (by omega)]
  · rw [if_neg h1] at h ⊢
    by_cases h0 : conf.getMaxCount id = 0
    · rw [if_pos h0] at h ⊢
      cases hf : addFirst id count b.items with
      | some items =>
        rw [hf] at h
        cases h
      | none =>
        rw [hf] at h
        simp only at h ⊢
        split
        · rename_i hlt
          rw [if_pos hlt] at h
          cases h
        · rfl
    · rw [if_neg h0] at h ⊢
      simp only [Bool.or_eq_false_iff] at h
      have hfill := fillStacks_of_none count h.1
      rw [hfill] at h ⊢
      have hrest := h.2
      simp only [Bool.and_eq_false_iff, decide_eq_false_iff_not] at hrest
      simp only
      cases hn : (b.maxSize - b.curSize).toNat with
      | zero => rfl
      | succ n =>
        unfold Backpack.newStacks
        rw [if_neg (by simp only; omega)]

theorem foldl_addTurn_unchanged (conf : Conf) : ∀ (l : List (Item Nat)) (r : Backpack × Bool),
    (l.foldl (addTurn conf) r).2 = false → r.2 = false ∧ (l.foldl (addTurn conf) r).1.items = r.1.items
  | [], _, h => ⟨h, rfl⟩
  | v :: l, r, h => by
    rw [List.foldl_cons] at h ⊢
    obtain ⟨h1, h2⟩ := foldl_addTurn_unchanged conf l _ h
    rw [h2]
    unfold addTurn at h1 ⊢
    split at h1
    · rename_i hc
      rw [if_pos hc]
      simp only [Bool.or_eq_false_iff] at h1
      exact ⟨h1.1, addItemInner_unchanged conf r.1 v.id v.count h1.2⟩
    · rename_i hc
      rw [if_neg hc]
      exact ⟨h1, rfl⟩

theorem takeBack_of_not_mem {id : Nat} : ∀ {l : List (Item Nat)} {count : Int}, id ∉ ids l → takeBack id l count = (l, 0)
  | [], _, _ => rfl
  | v :: l, count, h => by
    have hv : v.id ≠ id := fun e => h (List.mem_cons.2 (.inl e.symm))
    unfold takeBack
    rw [if_neg hv, takeBack_of_not_mem (fun hl => h (List.mem_cons_of_mem _ hl))]

theorem useItemInner_unchanged (b : Backpack) (id : Nat) (count : Int) (h : (b.useItemInner id count).2 = false) :
    (b.useItemInner id count).1.items = b.items := by
  have hid : id ∉ ids b.items.reverse := by
    intro hm
    have hm' : id ∈ ids b.items := by simpa [ids] using hm
    have := (any_id_iff id b.items).2 hm'
    unfold Backpack.useItemInner at h
    rw [this] at h
    cases h
  unfold Backpack.useItemInner
  simp only
  rw [takeBack_of_not_mem hid, List.reverse_reverse]

theorem foldl_useTurn_unchanged : ∀ (l : List (Item Nat)) (r : Backpack × Bool),
    (l.foldl useTurn r).2 = false → r.2 = false ∧ (l.foldl useTurn r).1.items = r.1.items
  | [], _, h => ⟨h, rfl⟩
  | v :: l, r, h => by
    rw [List.foldl_cons] at h ⊢
    obtain ⟨h1, h2⟩ := foldl_useTurn_unchanged l _ h
    rw [h2]
    unfold useTurn at h1 ⊢
    simp only [Bool.or_eq_false_iff] at h1
    exact ⟨h1.1, useItemInner_unchanged r.1 v.id v.count h1.2⟩

/-! ## The steps that keep the invariant -/

section Steps

variable {conf : Conf} {c : BackpackCtrl}

theorem addItems_saved (conf : Conf) (hc : Saved c) (ord : Visit) (items : List (Item Nat)) :
    Saved (c.addItems conf ord items).2 := by
  unfold BackpackCtrl.addItems
  simp only
  split
  · exact hc
  · cases c.canAddItems conf ord items with
    | error e => exact hc
    | ok u => exact visit_saved _ (fun b p h => (foldl_addTurn_unchanged conf _ _ h).2) ord hc

theorem deductMerged_saved (conf : Conf) (hc : Saved c) (ord : Visit) (m : List (Item Nat)) :
    Saved (c.deductMerged conf ord m).2 := by
  unfold BackpackCtrl.deductMerged
  simp only
  cases firstErr ord (classify conf m) (fun b l => l.forM (fun v => (c.backpacks b).canUseItem v.id v.count)) with
  | error e => exact hc
  | ok u => exact visit_saved _ (fun b p h => (foldl_useTurn_unchanged _ _ h).2) ord hc

theorem useItems_saved (conf : Conf) (hc : Saved c) (ord : Visit) (logic : Logic) (items : List (Item Nat)) :
    Saved (c.useItems conf ord logic items).2 := by
  unfold BackpackCtrl.useItems
  split
  · exact hc
  · simp only
    cases firstErr ord (classify conf (merge items)) (fun b l => l.forM (fun v => do
      (c.backpacks b).canUseItem v.id v.count
      useCheck logic b.toNat v.id v.count)) with
    | error e => exact hc
    | ok u =>
      refine visit_saved _ (fun b p h => ?_) ord hc
      rw [useLoop_share] at h ⊢
      exact (foldl_useTurn_unchanged _ _ h).2

theorem Inv.used {c' : BackpackCtrl} (h : Inv conf c) {l : BagType → List (Item Nat)}
    (hu : ∀ b, Used (c.backpacks b) (l b) (c'.backpacks b)) (hs : Saved c') : Inv conf c' := by
  refine ⟨fun b => (h.rep b).used (hu b), fun b v hv => ?_, hs⟩
  obtain ⟨u, hmem, hid, -⟩ := (hu b).slot v hv
  rw [← hid]
  exact h.typed b u hmem

theorem Inv.put_used (h : Inv conf c) {b : BagType} {id : Nat} {count : Int} {l : List (Item Nat)}
    (hu : Used (c.backpacks b) l ((c.backpacks b).useItemInner id count).1) :
    Inv conf (c.put b ((c.backpacks b).useItemInner id count)) := by
  have hall : ∀ x, Used (c.backpacks x) (if x = b then l else [])
      ((c.put b ((c.backpacks b).useItemInner id count)).backpacks x) := by
    intro x
    unfold BackpackCtrl.put
    by_cases hx : x = b
    · subst hx
      simpa using hu
    · simpa [hx] using Used.refl (h.rep x).positive
  exact h.used hall (put_saved h.saved b _ (useItemInner_unchanged _ id count))

theorem addItems_inv (h : Inv conf c) (ord : Visit) (items : List (Item Nat)) : Inv conf (c.addItems conf ord items).2 := by
  have hs := addItems_saved conf h.saved ord items
  rcases addItems_cases conf ord (fun b => (h.rep b).cap) items with ⟨e, he⟩ | ⟨-, -, hall⟩
  · rw [he]
    exact h
  · refine ⟨fun b => (h.rep b).added (hall b).1 (hall b).2, fun b v hv => ?_, hs⟩
    rcases (hall b).1.slot v hv with hold | ⟨hnew, -⟩
    · exact h.typed b v hold
    · obtain ⟨u, hu, he⟩ := List.mem_map.1 hnew
      rw [← he]
      exact ((mem_share conf).1 hu).2.1

theorem deductItems_inv (h : Inv conf c) (ord : Visit) (items : List (Item Nat)) :
    Inv conf (c.deductItems conf ord items).2 := by
  unfold BackpackCtrl.deductItems
  split
  · exact h
  · have hs := deductMerged_saved conf h.saved ord (merge items)
    rcases deductMerged_cases conf ord (fun b => (h.rep b).positive) (merge_merged items).nodup with ⟨e, he⟩ | ⟨-, hall⟩
    · rw [he]
      exact h
    · exact h.used hall hs

theorem useItems_inv (h : Inv conf c) (ord : Visit) (logic : Logic) (items : List (Item Nat)) :
    Inv conf (c.useItems conf ord logic items).2 := by
  have hs := useItems_saved conf h.saved ord logic items
  rcases useItems_cases conf ord (fun b => (h.rep b).positive) logic items with ⟨e, he⟩ | ⟨-, hall⟩
  · rw [he]
    exact h
  · exact h.used hall hs

theorem useItem_inv (h : Inv conf c) (logic : Logic) (id : Nat) (count : Int) :
    Inv conf (c.useItem conf logic id count).2 := by
  rcases useItem_cases conf (fun b => (h.rep b).positive) logic id count with ⟨-, e, he⟩ | ⟨-, -, b, -, hst, hused⟩
  · rw [he]
    exact h
  · rw [hst]
    exact h.put_used hused

theorem deductItem_inv (h : Inv conf c) (id : Nat) (count : Int) : Inv conf (c.deductItem conf id count).2 := by
  unfold BackpackCtrl.deductItem
  split
  · exact h
  · split
    · exact h
    · rename_i b hb
      simp only
      unfold Backpack.deductItem
      cases hcan : (c.backpacks b).canUseItem id count with
      | error e =>
        simp only
        rw [put_unchanged]
        exact h
      | ok u =>
        obtain ⟨-, hpos, hle⟩ := (canUseItem_ok (h.rep b).positive id count).1 hcan
        exact h.put_used (useItemInner_used (h.rep b).positive hpos hle)

end Steps

section Clear

variable {conf : Conf} {c : BackpackCtrl}

structure Clearable (conf : Conf) (c : BackpackCtrl) : Prop where
  positive : ∀ b, Positive (c.backpacks b).items
  typed : ∀ b, ∀ v ∈ (c.backpacks b).items, conf.getBackpackType v.id = some b
  saved : Saved c

theorem foldl_put_saved {f : BagType → Backpack → Backpack × Bool}
    (hf : ∀ b p, (f b p).2 = false → (f b p).1.items = p.items) {b : BagType} : ∀ (l : List BagType) {c : BackpackCtrl},
    b ∈ l → (∀ x, x ≠ b → c.saved x = (c.backpacks x).items) → (f b (c.backpacks b)).2 = true →
    Saved (l.foldl (fun c b => c.put b (f b (c.backpacks b))) c)
  | x :: l, c, hb, hc, hflag => by
    rw [List.foldl_cons]
    have hrest : ∀ {c' : BackpackCtrl}, Saved c' → Saved (l.foldl (fun c b => c.put b (f b (c.backpacks b))) c') := by
      intro c' hc'
      clear hb
      induction l generalizing c' with
      | nil => exact hc'
      | cons y l ih => exact ih (put_saved hc' y _ (hf y _))
    cases hx : (f x (c.backpacks x)).2 with
    | true =>
      refine hrest (fun y => ?_)
      unfold BackpackCtrl.put
      rw [hx]
      rfl
    | false =>
      have hne : x ≠ b := by
        rintro rfl
        rw [hflag] at hx
        cases hx
      have hput : ∀ y, (c.put x (f x (c.backpacks x))).saved y = c.saved y := by
        intro y
        unfold BackpackCtrl.put
        rw [hx]
        rfl
      have hsame : (c.put x (f x (c.backpacks x))).backpacks b = c.backpacks b := by
        simp [BackpackCtrl.put, hne.symm]
      refine foldl_put_saved hf l ((List.mem_cons.1 hb).resolve_left hne.symm) (fun y hy => ?_) (by rw [hsame]; exact hflag)
      rw [hput, hc y hy]
      by_cases hyx : y = x
      · subst hyx
        simpa [BackpackCtrl.put] using (hf y _ hx).symm
      · simp [BackpackCtrl.put, hyx]

theorem classify_own {m : List (Item Nat)} {b : BagType} (ht : ∀ v ∈ m, conf.getBackpackType v.id = some b)
    (hp : Positive m) (x : BagType) : (classify conf m x).getD [] = if x = b then m else [] := by
  by_cases hx : x = b
  · subst hx
    have h1 : m.filter (fun v => conf.getBackpackType v.id = some x) = m :=
      List.filter_eq_self.2 (fun v hv => by simpa using ht v hv)
    have h2 : m.filter (fun v => v.count ≠ 0) = m := List.filter_eq_self.2 (fun v hv => by simpa using (hp v hv).ne')
    rw [if_pos rfl]
    unfold classify
    simp only
    rw [h1, h2]
    split
    · rename_i h
      rw [h]
      rfl
    · rfl
  · have h1 : m.filter (fun v => conf.getBackpackType v.id = some x) = [] := by
      refine List.filter_eq_nil_iff.2 (fun v hv h => hx ?_)
      have := ht v hv
      rw [of_decide_eq_true h] at this
      exact Option.some.inj this
    unfold classify
    simp only
    rw [h1, if_pos rfl, if_neg hx]
    rfl

/-- **A backpack that is asked for its own slots gives up all of them**, and the other backpacks none. -/
theorem deductMerged_own {m : List (Item Nat)} {b : BagType} (hp : ∀ x, Positive (c.backpacks x).items)
    (hm : (c.backpacks b).items = m) (hn : (ids m).Nodup) (ht : ∀ v ∈ m, conf.getBackpackType v.id = some b)
    (hne : m ≠ []) (hs : ∀ x, x ≠ b → c.saved x = (c.backpacks x).items) (ord : Visit) :
    Used (c.backpacks b) m ((c.deductMerged conf ord m).2.backpacks b) ∧
      ((c.deductMerged conf ord m).2.backpacks b).items = [] ∧
      (∀ x, x ≠ b → (c.deductMerged conf ord m).2.backpacks x = c.backpacks x) ∧
      Saved (c.deductMerged conf ord m).2 := by
  have hpm : Positive m := hm ▸ hp b
  have hok : (c.deductMerged conf ord m).1 = .ok () := by
    rw [deductMerged_ok conf ord hp]
    intro x v hv
    rw [classify_own ht hpm] at hv
    split at hv
    · rename_i hx
      unfold Backpack.getItemCount
      rw [hx, hm]
      exact ⟨hpm v hv, le_of_eq (total_eq_of_mem hn hv).symm⟩
    · cases hv
  have hafter : ∀ x, (c.deductMerged conf ord m).2.backpacks x =
      ((c.backpacks x).useEach (if x = b then m else [])).1 := by
    intro x
    rw [deductMerged_eq conf ord hok, visit_backpacks, classify_own ht hpm]
  have hused : Used (c.backpacks b) m ((c.deductMerged conf ord m).2.backpacks b) := by
    rcases deductMerged_cases conf ord hp hn with ⟨e, he⟩ | ⟨-, hall⟩
    · rw [he] at hok
      cases hok
    · have := hall b
      rwa [classify_own ht hpm, if_pos rfl] at this
  have hempty : ((c.deductMerged conf ord m).2.backpacks b).items = [] := by
    refine eq_nil_of_total_eq_zero hused.positive (fun k => ?_)
    rw [hused.total k, hm]
    exact sub_self _
  -- the slots are gone, so something was saved
  have hflag : ((c.backpacks b).useEach m).2 = true := by
    cases hf : ((c.backpacks b).useEach m).2 with
    | true => rfl
    | false =>
      have hsame := (foldl_useTurn_unchanged m (c.backpacks b, false) hf).2
      have hb := hafter b
      rw [if_pos rfl] at hb
      rw [hb] at hempty
      exact absurd (hm.symm.trans (hsame.symm.trans hempty)) hne
  refine ⟨hused, hempty, fun x hx => ?_, ?_⟩
  · rw [hafter x, if_neg hx]
    rfl
  · rw [deductMerged_eq conf ord hok]
    have hkept : ∀ x (p : Backpack), (p.useEach ((classify conf m x).getD [])).2 = false →
        (p.useEach ((classify conf m x).getD [])).1.items = p.items :=
      fun x p h => (foldl_useTurn_unchanged _ (p, false) h).2
    refine foldl_put_saved hkept ord.order (ord.mem b) hs ?_
    rw [classify_own ht hpm, if_pos rfl]
    exact hflag

/-- **Clearing one backpack empties it, and its counter goes down by one for each id.** -/
theorem clearOne_spec (h : Clearable conf c) (ord : Visit) (b : BagType) :
    Clearable conf (c.clearOne conf ord b) ∧
      ((c.clearOne conf ord b).backpacks b).items = [] ∧
      ((c.clearOne conf ord b).backpacks b).maxSize = (c.backpacks b).maxSize ∧
      ((c.clearOne conf ord b).backpacks b).curSize = (c.backpacks b).curSize - (merge (c.backpacks b).items).length ∧
      ∀ x, x ≠ b → (c.clearOne conf ord b).backpacks x = c.backpacks x := by
  unfold BackpackCtrl.clearOne
  simp only
  split
  · rename_i he
    refine ⟨h, he, rfl, ?_, fun _ _ => rfl⟩
    rw [he]
    simp [merge]
  · rename_i hne
    have hmerged := merge_merged (c.backpacks b).items
    have hpos := merge_positive (h.positive b)
    have htyped : ∀ v ∈ merge (c.backpacks b).items, conf.getBackpackType v.id = some b := by
      intro v hv
      obtain ⟨u, hu, he⟩ := List.mem_map.1 ((hmerged.mem v.id).1 (List.mem_map_of_mem hv))
      rw [← he]
      exact h.typed b u hu
    have hm : merge (c.backpacks b).items ≠ [] := by
      intro he
      obtain ⟨u, us, hu⟩ := List.exists_cons_of_ne_nil hne
      have := (hmerged.mem u.id).2 (by rw [hu]; exact List.mem_cons_self)
      rw [he] at this
      cases this
    -- the state once the merge was made on the slots
    generalize hc₁ : (BackpackCtrl.mk (Function.update c.backpacks b
        { c.backpacks b with items := merge (c.backpacks b).items }) c.saved) = c₁
    have hb₁ : c₁.backpacks b = { c.backpacks b with items := merge (c.backpacks b).items } := by rw [← hc₁]; simp
    have hx₁ : ∀ x, x ≠ b → c₁.backpacks x = c.backpacks x := fun x hx => by rw [← hc₁]; simp [hx]
    have hpos₁ : ∀ x, Positive (c₁.backpacks x).items := by
      intro x
      by_cases hx : x = b
      · rw [hx, hb₁]
        exact hpos
      · rw [hx₁ x hx]
        exact h.positive x
    have hsaved₁ : ∀ x, x ≠ b → c₁.saved x = (c₁.backpacks x).items := by
      intro x hx
      rw [hx₁ x hx, ← hc₁]
      exact h.saved x
    obtain ⟨hused, hempty, hother, hsaved⟩ :=
      deductMerged_own hpos₁ (congrArg Backpack.items hb₁) hmerged.nodup htyped hm hsaved₁ ord
    refine ⟨⟨fun x => ?_, fun x v hv => ?_, hsaved⟩, hempty, ?_, ?_, fun x hx => (hother x hx).trans (hx₁ x hx)⟩
    · by_cases hx : x = b
      · rw [hx, hempty]
        exact fun v hv => by cases hv
      · rw [hother x hx]
        exact hpos₁ x
    · by_cases hx : x = b
      · rw [hx, hempty] at hv
        cases hv
      · rw [hother x hx, hx₁ x hx] at hv
        exact h.typed x v hv
    · rw [hused.maxSize, hb₁]
    · have hpace := hused.pace
      rw [hempty, hb₁] at hpace
      simp only [List.length_nil] at hpace
      omega

theorem foldl_clearOne_spec (ord : Visit) : ∀ (l : List BagType) {c : BackpackCtrl}, l.Nodup → Clearable conf c →
    Clearable conf (l.foldl (fun c b => c.clearOne conf ord b) c) ∧
      ∀ b, (b ∉ l → (l.foldl (fun c b => c.clearOne conf ord b) c).backpacks b = c.backpacks b) ∧
        (b ∈ l → ((l.foldl (fun c b => c.clearOne conf ord b) c).backpacks b).items = [] ∧
          ((l.foldl (fun c b => c.clearOne conf ord b) c).backpacks b).maxSize = (c.backpacks b).maxSize ∧
          ((l.foldl (fun c b => c.clearOne conf ord b) c).backpacks b).curSize =
            (c.backpacks b).curSize - (merge (c.backpacks b).items).length)
  | [], c, _, h => ⟨h, fun b => ⟨fun _ => rfl, fun hb => by cases hb⟩⟩
  | x :: l, c, hn, h => by
    obtain ⟨hx, hn⟩ := List.nodup_cons.1 hn
    obtain ⟨h1, hitems, hmax, hsize, hother⟩ := clearOne_spec h ord x
    obtain ⟨h2, hall⟩ := foldl_clearOne_spec ord l hn h1
    rw [List.foldl_cons]
    refine ⟨h2, fun b => ⟨fun hb => ?_, fun hb => ?_⟩⟩
    · rw [(hall b).1 (fun hl => hb (List.mem_cons_of_mem _ hl)), hother b (fun e => hb (e ▸ List.mem_cons_self))]
    · by_cases hbx : b = x
      · subst hbx
        rw [(hall b).1 hx]
        exact ⟨hitems, hmax, hsize⟩
      · have := (hall b).2 ((List.mem_cons.1 hb).resolve_left hbx)
        rwa [hother b hbx] at this

theorem clearBackpack_inv_iff (h : Inv conf c) (ord : Visit) :
    ((∀ b, (ids (c.backpacks b).items).Nodup) → Inv conf (c.clearBackpack conf ord)) ∧
      ((∀ b, Rep conf ((c.clearBackpack conf ord).backpacks b)) → ∀ b, (ids (c.backpacks b).items).Nodup) := by
  obtain ⟨hcl, hall⟩ := foldl_clearOne_spec ord ord.order ord.nodup
    (⟨fun b => (h.rep b).positive, h.typed, h.saved⟩ : Clearable conf c)
  have hcleared := fun b => (hall b).2 (ord.mem b)
  constructor
  · intro hnd
    refine ⟨fun b => ?_, hcl.typed, hcl.saved⟩
    obtain ⟨hitems, hmax, hsize⟩ := hcleared b
    have hlen := (merge_length_eq (c.backpacks b).items).2 (hnd b)
    have h0 := (h.rep b).size
    have hcap := (h.rep b).cap
    have hzero : ((c.clearBackpack conf ord).backpacks b).curSize = 0 := by
      rw [BackpackCtrl.clearBackpack, hsize, hlen]
      omega
    have hempty : ((c.clearBackpack conf ord).backpacks b).items = [] := hitems
    refine ⟨?_, ?_, ?_⟩
    · rw [hzero, hempty]
      rfl
    · rw [hzero, BackpackCtrl.clearBackpack, hmax]
      omega
    · rw [hempty]
      exact fun v hv => by cases hv
  · intro hrep b
    obtain ⟨hitems, -, hsize⟩ := hcleared b
    have h0 := (h.rep b).size
    have h1 := (hrep b).size
    rw [BackpackCtrl.clearBackpack, hsize, hitems] at h1
    rw [← merge_length_eq]
    simp only [List.length_nil] at h1
    omega

end Clear

theorem maxSize_nonneg (b : BagType) : 0 ≤ b.maxSize := by cases b <;> decide

theorem reload_inv {conf : Conf} {c : BackpackCtrl} (h : ∀ b, c.saved b = []) : Inv conf c.reload := by
  have hitems : ∀ b, (c.reload.backpacks b).items = [] := h
  refine ⟨fun b => ⟨?_, ?_, ?_⟩, fun b v hv => ?_, fun _ => rfl⟩
  · rw [hitems b]
    rfl
  · exact maxSize_nonneg b
  · rw [hitems b]
    exact fun v hv => by cases hv
  · rw [hitems b] at hv
    cases hv

theorem init_inv (conf : Conf) : Inv conf (.init none) := by
  refine ⟨fun b => ⟨rfl, maxSize_nonneg b, fun v hv => ?_⟩, fun b v hv => ?_, fun _ => rfl⟩
  · cases hv
  · cases hv

/-- **One step**: it keeps the invariant if it finds what it needs, and breaks the representation if it does not. -/
theorem step_inv_iff {conf : Conf} {c : BackpackCtrl} (h : Inv conf c) (op : Op) :
    (Tame c op → Inv conf (step conf c op)) ∧ ((∀ b, Rep conf ((step conf c op).backpacks b)) → Tame c op) := by
  cases op with
  | addItems ord items => exact ⟨fun _ => addItems_inv h ord items, fun _ => trivial⟩
  | deductItem id count => exact ⟨fun _ => deductItem_inv h id count, fun _ => trivial⟩
  | deductItems ord items => exact ⟨fun _ => deductItems_inv h ord items, fun _ => trivial⟩
  | useItem logic id count => exact ⟨fun _ => useItem_inv h logic id count, fun _ => trivial⟩
  | useItems ord logic items => exact ⟨fun _ => useItems_inv h ord logic items, fun _ => trivial⟩
  | clearBackpack ord => exact clearBackpack_inv_iff h ord
  | reload =>
    refine ⟨reload_inv, fun hrep b => ?_⟩
    have hsize : (0 : Int) = (c.saved b).length := (hrep b).size
    exact List.length_eq_zero_iff.1 (by omega)

theorem along_iff (conf : Conf) : ∀ (ops : List Op) {c : BackpackCtrl}, Inv conf c →
    (RepAlong conf c ops ↔ TameAlong conf c ops)
  | [], c, h => ⟨fun _ => trivial, fun _ => h.rep⟩
  | op :: ops, c, h => by
    obtain ⟨hkeep, hbreak⟩ := step_inv_iff h op
    constructor
    · rintro ⟨-, hrest⟩
      have hhead : ∀ b, Rep conf ((step conf c op).backpacks b) := by
        cases ops with
        | nil => exact hrest
        | cons op' ops => exact hrest.1
      have htame := hbreak hhead
      exact ⟨htame, (along_iff conf ops (hkeep htame)).1 hrest⟩
    · rintro ⟨htame, hrest⟩
      exact ⟨h.rep, (along_iff conf ops (hkeep htame)).2 hrest⟩

end Pack
end Sncpp
