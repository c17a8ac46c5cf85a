import Mathlib.Data.Finset.Card
import Mathlib.Data.List.AList
import Sncpp.Steps
/-!
# RelevanceTable — a relation that is kept in two directions (`relevanceTable`)

Each value has an inner table of the values that it is related to, with weights; a second table does so in the other
direction, unless there is none, and the values are counted if this is asked for.  Both directions are one relation after
every `set` and `remove` (`transposed_of_run`), if a table without the second direction is asked to remove pairs only.
-/
namespace Sncpp
namespace RelevanceTable

variable {α β κ μ ω : Type} [DecidableEq α] [DecidableEq β] [DecidableEq κ] [DecidableEq μ]

/-- The order in which `pairs` goes through a table. -/
structure Pairs where
  order : ∀ {γ : Type}, List γ → List γ
  perm : ∀ {γ : Type} (l : List γ), (order l).Perm l

/-- A direction: the inner tables, and how many values each of them has.  A weight of `none` is true. -/
structure Table (κ μ ω : Type) where
  inner : κ → Option (AList (fun _ : μ => Option ω))
  count : κ → Option Int

namespace Table

def new : Table κ μ ω := ⟨fun _ => none, fun _ => none⟩

variable (needCount : Bool) (t : Table κ μ ω)

def weight (value1 : κ) (value2 : μ) : Option (Option ω) := (t.inner value1).bind (fun l => l.lookup value2)

def setInner (value1 : κ) (l : Option (AList (fun _ : μ => Option ω))) : Table κ μ ω :=
  { t with inner := Function.update t.inner value1 l }

def updateCount (value1 : κ) (plus : Int) : Table κ μ ω :=
  if !needCount then t
  else if plus = 0 then { t with count := Function.update t.count value1 none }
  else { t with count := Function.update t.count value1 (some ((t.count value1).getD 0 + plus)) }

def doSet (value1 : κ) (value2 : μ) (weight : Option ω) : Table κ μ ω :=
  let l := (t.inner value1).getD ∅
  if (l.lookup value2).isSome then t.setInner value1 (some l)
  else (t.setInner value1 (some (l.insert value2 weight))).updateCount needCount value1 1

def doRemove (value1 : κ) (value2 : μ) : Table κ μ ω × Option (Option ω) :=
  match t.inner value1 with
  | none => (t, none)
  | some l =>
    match l.lookup value2 with
    | none => (t, none)
    | some ret =>
      let l := l.erase value2
      if l.keys = [] then ((t.setInner value1 none).updateCount needCount value1 0, some ret)
      else ((t.setInner value1 (some l)).updateCount needCount value1 (-1), some ret)

def doRemoveAll (value1 : κ) : Table κ μ ω × Option (AList (fun _ : μ => Option ω)) :=
  match t.inner value1 with
  | none => (t, none)
  | some l => ((t.setInner value1 none).updateCount needCount value1 0, some l)

end Table

/-- Pairs with their weights. -/
abbrev Removed (α β ω : Type) := List ((α × β) × Option ω)

/-- The two directions; there may be no second one. -/
structure Relevance (α β ω : Type) where
  needCount : Bool
  relevance : Table α β ω
  reverse : Option (Table β α ω)

namespace Relevance

def new (needCount noNeedReverse : Bool) : Relevance α β ω :=
  ⟨needCount, Table.new, if noNeedReverse then none else some Table.new⟩

variable (r : Relevance α β ω) (p : Pairs)

def set (value1 : Option α) (value2 : Option β) (weight : Option ω) : Relevance α β ω :=
  match value1, value2 with
  | some a, some b => { r with
      reverse := r.reverse.map (fun t => t.doSet r.needCount b a weight)
      relevance := r.relevance.doSet r.needCount a b weight }
  | _, _ => r

/-- The loop of `remove` of a first value, over the values that are related to it. -/
def removeReverse (t : Table β α ω) (a : α) (bs : List β) : Table β α ω :=
  bs.foldl (fun t b => (t.doRemove r.needCount b a).1) t

/-- A turn of the loop of `remove` of a second value: `rmMap` gets what has been removed. -/
def removeWeight (b : β) (acc : Table α β ω × Removed α β ω) (a : α) : Table α β ω × Removed α β ω :=
  let d := acc.1.doRemove r.needCount a b
  (d.1, acc.2 ++ (d.2.map (fun weight => ((a, b), weight))).toList)

/-- The loop of `remove` of a second value, over the values that are related to it. -/
def removeRelevance (b : β) (as : List α) : Table α β ω × Removed α β ω :=
  as.foldl (r.removeWeight b) (r.relevance, [])

/-- The table and what has been removed, or `none` where it raises, which it does before anything is removed. -/
def remove (value1 : Option α) (value2 : Option β) : Option (Relevance α β ω × Option (Removed α β ω)) :=
  match value1, value2 with
  | none, none => some (r, none)
  | some a, some b =>
    let d := r.relevance.doRemove r.needCount a b
    some ({ r with
      reverse := r.reverse.map (fun t => (t.doRemove r.needCount b a).1)
      relevance := d.1 }, d.2.map (fun weight => [((a, b), weight)]))
  | some a, none =>
    match r.relevance.inner a with
    | none => some (r, none)
    | some value2Map =>
      let bs := (p.order value2Map.entries).map (·.1)
      if r.reverse.isNone ∧ bs ≠ [] then none
      else
        let d := r.relevance.doRemoveAll r.needCount a
        some ({ r with
          reverse := r.reverse.map (fun t => r.removeReverse t a bs)
          relevance := d.1 }, d.2.map (fun rmMap => rmMap.entries.map (fun e => ((a, e.1), e.2))))
  | none, some b =>
    match r.reverse with
    | none => none
    | some t =>
      match t.inner b with
      | none => some (r, none)
      | some value1Map =>
        let d := r.removeRelevance b ((p.order value1Map.entries).map (·.1))
        some ({ r with reverse := some (t.doRemoveAll r.needCount b).1, relevance := d.1 }, some d.2)

def getCount (value1 : Option α) (value2 : Option β) : Int :=
  if !r.needCount then 0
  else
    match value1, value2 with
    | some a, _ => (r.relevance.count a).getD 0
    | none, some b => (r.reverse.bind (·.count b)).getD 0
    | none, none => 0

end Relevance

inductive Event (α β ω : Type) where
  | set (value1 : Option α) (value2 : Option β) (weight : Option ω)
  | remove (value1 : Option α) (value2 : Option β)

variable (p : Pairs)

def step (r : Relevance α β ω) : Event α β ω → Relevance α β ω
  | .set value1 value2 weight => r.set value1 value2 weight
  | .remove value1 value2 => ((r.remove p value1 value2).map Prod.fst).getD r

/-- Which pairs a `remove` is of. -/
def Gone (value1 : Option α) (value2 : Option β) (a : α) (b : β) : Prop :=
  (value1 ≠ none ∨ value2 ≠ none) ∧ (∀ a' ∈ value1, a = a') ∧ ∀ b' ∈ value2, b = b'

instance (value1 : Option α) (value2 : Option β) (a : α) (b : β) : Decidable (Gone value1 value2 a b) :=
  inferInstanceAs (Decidable (_ ∧ _ ∧ _))

/-- What the weight of a pair is after an event. -/
def weighs (r : Relevance α β ω) (e : Event α β ω) (a : α) (b : β) : Option (Option ω) :=
  match e with
  | .set value1 value2 weight =>
    if value1 = some a ∧ value2 = some b then some ((r.relevance.weight a b).getD weight) else r.relevance.weight a b
  | .remove value1 value2 => if Gone value1 value2 a b then none else r.relevance.weight a b

/-- **Both directions are the relation**, and no inner table is empty. -/
structure Relates (r : Relevance α β ω) (rel : α → β → Option (Option ω)) : Prop where
  relevance : ∀ a b, r.relevance.weight a b = rel a b
  reverse : ∀ t ∈ r.reverse, ∀ a b, t.weight b a = rel a b
  inner : ∀ a, ∀ l ∈ r.relevance.inner a, l.keys ≠ []
  innerReverse : ∀ t ∈ r.reverse, ∀ b, ∀ l ∈ t.inner b, l.keys ≠ []

/-- What is removed: the pairs that the event is of and that are related, with their weights. -/
def Removes (r : Relevance α β ω) (value1 : Option α) (value2 : Option β) (removed : Removed α β ω) : Prop :=
  ∀ a b weight, ((a, b), weight) ∈ removed ↔ Gone value1 value2 a b ∧ r.relevance.weight a b = some weight

structure Counts (r : Relevance α β ω) : Prop where
  first : ∀ a, ∃ s : Finset β, (∀ b, b ∈ s ↔ r.relevance.weight a b ≠ none) ∧ r.getCount (some a) none = s.card
  second : ∀ b, ∃ s : Finset α, (∀ a, a ∈ s ↔ r.relevance.weight a b ≠ none) ∧ r.getCount none (some b) = s.card

/-- Without counts `getCount` is 0, and so is that of a second value without the second direction. -/
structure CountsIf (r : Relevance α β ω) : Prop where
  first : ∀ a, if r.needCount then
      ∃ s : Finset β, (∀ b, b ∈ s ↔ r.relevance.weight a b ≠ none) ∧ r.getCount (some a) none = s.card
    else r.getCount (some a) none = 0
  second : ∀ b, if r.needCount ∧ r.reverse.isSome then
      ∃ s : Finset α, (∀ a, a ∈ s ↔ r.relevance.weight a b ≠ none) ∧ r.getCount none (some b) = s.card
    else r.getCount none (some b) = 0

/-- **What an event does**: it does not raise, and leaves the relation without the pairs that it returns. -/
def Right (counts : Relevance α β ω → Prop) (r : Relevance α β ω) (e : Event α β ω) : Prop :=
  Relates (step p r e) (weighs r e) ∧ counts (step p r e) ∧
    ∀ value1 value2, e = .remove value1 value2 →
      ∃ r' removed, r.remove p value1 value2 = some (r', removed) ∧ Removes r value1 value2 (removed.getD [])

/-- Without the second direction only pairs are removed, and values that are not there. -/
def Fits (r : Relevance α β ω) : Event α β ω → Prop
  | .remove (some a) none => r.reverse = none → r.relevance.inner a = none
  | .remove none (some _) => r.reverse ≠ none
  | _ => True

namespace Table

omit [DecidableEq α] [DecidableEq β] in
theorem weight_setInner (t : Table κ μ ω) (k : κ) (o : Option (AList (fun _ : μ => Option ω))) (k' : κ) (m : μ) :
    (t.setInner k o).weight k' m = if k' = k then o.bind (fun l => l.lookup m) else t.weight k' m := by
  simp only [weight, setInner, Function.update_apply]
  split <;> rfl

omit [DecidableEq μ] in
theorem updateCount_inner (needCount : Bool) (t : Table κ μ ω) (k : κ) (plus : Int) :
    (t.updateCount needCount k plus).inner = t.inner := by
  unfold updateCount
  split_ifs <;> rfl

theorem weight_updateCount (needCount : Bool) (t : Table κ μ ω) (k : κ) (plus : Int) :
    (t.updateCount needCount k plus).weight = t.weight := by
  funext k' m
  rw [weight, updateCount_inner]
  rfl

/-- **No inner table is empty, and each is counted.** -/
structure Good (needCount : Bool) (t : Table κ μ ω) : Prop where
  inner : ∀ k, ∀ l ∈ t.inner k, l.keys ≠ []
  count : needCount = true → ∀ k, (t.count k).getD 0 = (((t.inner k).getD ∅).keys.length : Int)

namespace Good

variable {needCount : Bool} {t : Table κ μ ω}

omit [DecidableEq κ] [DecidableEq μ] in
theorem new : Good needCount (Table.new : Table κ μ ω) := ⟨fun _ _ hl => (nomatch hl), fun _ _ => rfl⟩

omit [DecidableEq μ] in
theorem put (h : Good needCount t) (k : κ) {o : Option (AList (fun _ : μ => Option ω))} (ho : ∀ l ∈ o, l.keys ≠ [])
    {plus : Int} (hplus : (if plus = 0 then 0 else (((t.inner k).getD ∅).keys.length : Int) + plus) =
      ((o.getD ∅).keys.length : Int)) : Good needCount ((t.setInner k o).updateCount needCount k plus) := by
  refine ⟨fun k' l hl => ?_, fun hneed k' => ?_⟩
  · rw [updateCount_inner, setInner] at hl
    simp only [Function.update_apply] at hl
    split at hl
    · exact ho l hl
    · exact h.inner k' l hl
  · have hold := h.count hneed
    rw [updateCount_inner]
    simp only [updateCount, setInner, hneed, Function.update_apply]
    by_cases hk : k' = k
    · subst hk
      rw [if_pos rfl, ← hplus]
      by_cases hp : plus = 0
      · simp [hp]
      · simp [hp, hold]
    · rw [if_neg hk, ← hold k']
      by_cases hp : plus = 0
      · simp [hp, hk]
      · simp [hp, hk]

omit [DecidableEq κ] in
theorem weight_eq (t : Table κ μ ω) (k : κ) (m : μ) : t.weight k m = ((t.inner k).getD ∅).lookup m := by
  rw [Table.weight]
  cases t.inner k <;> rfl

theorem lookup_insert (l : AList (fun _ : μ => Option ω)) (value2 : μ) (w : Option ω) (m : μ) :
    (l.insert value2 w).lookup m = if m = value2 then some w else l.lookup m := by
  split
  · next hm => rw [hm, AList.lookup_insert]
  · next hm => rw [AList.lookup_insert_ne hm]

theorem lookup_erase (l : AList (fun _ : μ => Option ω)) (value2 m : μ) :
    (l.erase value2).lookup m = if m = value2 then none else l.lookup m := by
  split
  · next hm => rw [hm, AList.lookup_erase]
  · next hm => rw [AList.lookup_erase_ne hm]

theorem doSet (h : Good needCount t) (value1 : κ) (value2 : μ) (weight : Option ω) :
    Good needCount (t.doSet needCount value1 value2 weight) ∧ ∀ k m, (t.doSet needCount value1 value2 weight).weight k m =
      if k = value1 ∧ m = value2 then some ((t.weight value1 value2).getD weight) else t.weight k m := by
  have hold := weight_eq t value1
  simp only [Table.doSet]
  cases hlook : ((t.inner value1).getD ∅).lookup value2 with
  | some w =>
    have hsame : t.setInner value1 (some ((t.inner value1).getD ∅)) = t := by
      cases hin : t.inner value1 with
      | none =>
        rw [hin] at hlook
        cases hlook
      | some l => rw [setInner, Option.getD_some, ← hin, Function.update_eq_self]
    rw [Option.isSome_some, if_pos rfl, hsame]
    refine ⟨h, fun k m => ?_⟩
    split
    · next hkm => rw [hkm.1, hkm.2, hold, hlook]; rfl
    · rfl
  | none =>
    have hnot : value2 ∉ ((t.inner value1).getD ∅).keys := AList.lookup_eq_none.1 hlook
    rw [Option.isSome_none, if_neg (by decide)]
    refine ⟨h.put value1 (fun l hl => ?_) ?_, fun k m => ?_⟩
    · obtain rfl := Option.some.inj hl
      simp [AList.keys_insert]
    · simp [AList.keys_insert, List.erase_of_not_mem hnot]
    · rw [weight_updateCount, weight_setInner, hold value2, hlook]
      by_cases hk : k = value1
      · rw [if_pos hk, Option.bind_some, lookup_insert, hk, hold m]
        simp
      · simp [hk]

theorem doRemove (h : Good needCount t) (value1 : κ) (value2 : μ) :
    Good needCount (t.doRemove needCount value1 value2).1 ∧
      (∀ k m, (t.doRemove needCount value1 value2).1.weight k m = if k = value1 ∧ m = value2 then none else t.weight k m) ∧
      (t.doRemove needCount value1 value2).2 = t.weight value1 value2 := by
  have hold := weight_eq t value1
  have hstay : t.weight value1 value2 = none →
      ∀ k m, t.weight k m = if k = value1 ∧ m = value2 then none else t.weight k m := by
    intro hnone k m
    split
    · next hkm => rw [hkm.1, hkm.2, hnone]
    · rfl
  cases hin : t.inner value1 with
  | none =>
    have hnone : t.weight value1 value2 = none := by
      rw [hold, hin]
      rfl
    have heq : t.doRemove needCount value1 value2 = (t, none) := by rw [Table.doRemove, hin]
    rw [heq]
    exact ⟨h, hstay hnone, hnone.symm⟩
  | some l =>
    simp only [hin, Option.getD_some] at hold
    cases hlook : l.lookup value2 with
    | none =>
      have hnone : t.weight value1 value2 = none := (hold value2).trans hlook
      have heq : t.doRemove needCount value1 value2 = (t, none) := by
        rw [Table.doRemove, hin]
        simp only [hlook]
      rw [heq]
      exact ⟨h, hstay hnone, hnone.symm⟩
    | some ret =>
      have hmem : value2 ∈ l.keys := AList.lookup_isSome.1 (by rw [hlook]; rfl)
      have hret : some ret = t.weight value1 value2 := ((hold value2).trans hlook).symm
      have heq : t.doRemove needCount value1 value2 = if (l.erase value2).keys = []
          then ((t.setInner value1 none).updateCount needCount value1 0, some ret)
          else ((t.setInner value1 (some (l.erase value2))).updateCount needCount value1 (-1), some ret) := by
        rw [Table.doRemove, hin]
        simp only [hlook]
      rw [heq]
      split
      · next hnil =>
        refine ⟨h.put value1 (fun l' hl' => by cases hl') (by simp), fun k m => ?_, hret⟩
        have hnone : (l.erase value2).lookup m = none := by
          refine AList.lookup_eq_none.2 fun hmem' => ?_
          have hkey := AList.mem_keys.1 hmem'
          rw [hnil] at hkey
          cases hkey
        rw [lookup_erase] at hnone
        rw [weight_updateCount, weight_setInner]
        by_cases hk : k = value1
        · simp only [hk, if_true, true_and, hold, Option.bind_none, hnone]
        · simp [hk]
      · next hne =>
        refine ⟨h.put value1 (fun l' hl' => ?_) ?_, fun k m => ?_, hret⟩
        · obtain rfl := Option.some.inj hl'
          exact hne
        · have hpos := List.length_pos_of_mem hmem
          simp only [hin, Option.getD_some, AList.keys_erase, List.length_erase_of_mem hmem]
          rw [if_neg (by decide)]
          omega
        · rw [weight_updateCount, weight_setInner]
          by_cases hk : k = value1
          · simp only [hk, if_true, true_and, hold, Option.bind_some, lookup_erase]
          · simp [hk]

theorem doRemoveAll (h : Good needCount t) (value1 : κ) : Good needCount (t.doRemoveAll needCount value1).1 ∧
    (∀ k m, (t.doRemoveAll needCount value1).1.weight k m = if k = value1 then none else t.weight k m) ∧
    (t.doRemoveAll needCount value1).2 = t.inner value1 := by
  cases hin : t.inner value1 with
  | none =>
    have heq : t.doRemoveAll needCount value1 = (t, none) := by rw [Table.doRemoveAll, hin]
    rw [heq]
    refine ⟨h, fun k m => ?_, rfl⟩
    split
    · next hk =>
      rw [hk, weight_eq, hin]
      rfl
    · rfl
  | some l =>
    have heq : t.doRemoveAll needCount value1 = ((t.setInner value1 none).updateCount needCount value1 0, some l) := by
      rw [Table.doRemoveAll, hin]
    rw [heq]
    refine ⟨h.put value1 (fun l' hl' => by cases hl') (by simp), fun k m => ?_, rfl⟩
    rw [weight_updateCount, weight_setInner]
    split <;> rfl

omit [DecidableEq κ] in
theorem mem_keys {l : AList (fun _ : μ => Option ω)} {k : κ} (hin : t.inner k = some l) (m : μ) :
    m ∈ l.keys ↔ t.weight k m ≠ none := by
  rw [Table.weight, hin, ← AList.mem_keys, ← AList.lookup_isSome, Option.isSome_iff_ne_none]
  rfl

omit [DecidableEq κ] in
theorem card (h : Good needCount t) (hneed : needCount = true) (k : κ) :
    ∃ s : Finset μ, (∀ m, m ∈ s ↔ t.weight k m ≠ none) ∧ (t.count k).getD 0 = (s.card : Int) := by
  refine ⟨((t.inner k).getD ∅).keys.toFinset, fun m => ?_, ?_⟩
  · rw [List.mem_toFinset]
    cases hin : t.inner k with
    | none => simp [Table.weight, hin]
    | some l => exact mem_keys hin m
  · rw [h.count hneed, List.toFinset_card_of_nodup (AList.keys_nodup _)]

end Good
end Table

namespace Relevance

variable {p : Pairs}

/-- **Both directions are good, and are the relation `rel`.** -/
structure Keeps (r : Relevance α β ω) (rel : α → β → Option (Option ω)) : Prop where
  relevance : r.relevance.Good r.needCount
  reverse : ∀ t ∈ r.reverse, t.Good r.needCount
  weight : r.relevance.weight = rel
  weightReverse : ∀ t ∈ r.reverse, ∀ b a, t.weight b a = rel a b

theorem keeps_removeReverse (r : Relevance α β ω) (a : α) (bs : List β) {t : Table β α ω} (h : t.Good r.needCount) :
    (r.removeReverse t a bs).Good r.needCount ∧
      ∀ b a', (r.removeReverse t a bs).weight b a' = if a' = a ∧ b ∈ bs then none else t.weight b a' := by
  induction bs generalizing t with
  | nil => exact ⟨h, fun b a' => by simp [removeReverse]⟩
  | cons b bs ih =>
    obtain ⟨hgood, hweight, -⟩ := h.doRemove b a
    obtain ⟨hgood', hweight'⟩ := ih hgood
    refine ⟨hgood', fun b' a' => (hweight' b' a').trans ?_⟩
    simp only [hweight, List.mem_cons]
    by_cases ha : a' = a
    · by_cases hb : b' = b
      · simp [ha, hb]
      · simp [ha, hb]
    · simp [ha]

theorem keeps_removeRelevance (r : Relevance α β ω) (b : β) (as : List α) (acc : Table α β ω × Removed α β ω)
    (h : acc.1.Good r.needCount) : (as.foldl (r.removeWeight b) acc).1.Good r.needCount ∧
      (∀ a b', (as.foldl (r.removeWeight b) acc).1.weight a b' = if b' = b ∧ a ∈ as then none else acc.1.weight a b') ∧
      ∀ a b' weight, ((a, b'), weight) ∈ (as.foldl (r.removeWeight b) acc).2 ↔
        ((a, b'), weight) ∈ acc.2 ∨ b' = b ∧ a ∈ as ∧ acc.1.weight a b' = some weight := by
  induction as generalizing acc with
  | nil => exact ⟨h, fun a b' => by simp, fun a b' weight => by simp⟩
  | cons a as ih =>
    obtain ⟨hgood, hweight, hret⟩ := h.doRemove a b
    obtain ⟨hgood', hweight', hlist⟩ := ih (r.removeWeight b acc a) hgood
    refine ⟨hgood', fun a' b' => (hweight' a' b').trans ?_, fun a' b' weight => (hlist a' b' weight).trans ?_⟩
    · simp only [removeWeight, hweight, List.mem_cons]
      by_cases hb : b' = b
      · by_cases ha : a' = a
        · simp [ha, hb]
        · simp [ha, hb]
      · simp [hb]
    · simp only [removeWeight, hweight, hret, List.mem_append, or_assoc, List.mem_cons]
      refine or_congr_right ?_
      simp only [Option.mem_toList, Option.map_eq_some_iff, Prod.mk.injEq]
      by_cases hb : b' = b
      · by_cases ha : a' = a
        · subst ha hb
          simp
        · simp [hb, ha, Ne.symm ha]
      · simp [hb, Ne.symm hb]

end Relevance

namespace Relevance
namespace Keeps

variable {p : Pairs} {r : Relevance α β ω} {rel : α → β → Option (Option ω)}

theorem new (needCount noNeedReverse : Bool) :
    Keeps (Relevance.new needCount noNeedReverse : Relevance α β ω) fun _ _ => none := by
  refine ⟨Table.Good.new, fun t ht => ?_, rfl, fun t ht b a => ?_⟩
  · cases noNeedReverse with
    | true => cases ht
    | false =>
      obtain rfl := Option.some.inj ht
      exact Table.Good.new
  · cases noNeedReverse with
    | true => cases ht
    | false =>
      obtain rfl := Option.some.inj ht
      rfl

theorem both (r : Relevance α β ω) {rel' : α → β → Option (Option ω)} {relevance : Table α β ω}
    (f : Table β α ω → Table β α ω)
    (hrel : relevance.Good r.needCount ∧ ∀ a b, relevance.weight a b = rel' a b)
    (hrev : ∀ t ∈ r.reverse, (f t).Good r.needCount ∧ ∀ b a, (f t).weight b a = rel' a b) :
    Keeps { r with reverse := r.reverse.map f, relevance := relevance } rel' := by
  refine ⟨hrel.1, fun t ht => ?_, funext fun a => funext (hrel.2 a), fun t ht => ?_⟩
  · obtain ⟨t', ht', rfl⟩ := Option.map_eq_some_iff.1 ht
    exact (hrev t' ht').1
  · obtain ⟨t', ht', rfl⟩ := Option.map_eq_some_iff.1 ht
    exact (hrev t' ht').2

theorem same (h : Keeps r rel) {rel' : α → β → Option (Option ω)} (heq : ∀ a b, rel a b = rel' a b) : Keeps r rel' := by
  have hrel : rel = rel' := funext fun a => funext (heq a)
  rwa [← hrel]

theorem set (h : Keeps r r.relevance.weight) (value1 : Option α) (value2 : Option β) (weight : Option ω) :
    Keeps (r.set value1 value2 weight) (weighs r (.set value1 value2 weight)) := by
  cases value1 with
  | none => exact h.same fun a b => by simp [weighs]
  | some a =>
    cases value2 with
    | none => exact h.same fun a' b => by simp [weighs]
    | some b =>
      obtain ⟨hgood, hweight⟩ := h.relevance.doSet a b weight
      have hrel : ∀ a' b', (r.relevance.doSet r.needCount a b weight).weight a' b' =
          weighs r (.set (some a) (some b) weight) a' b' := by
        intro a' b'
        simp only [hweight, weighs, Option.some.injEq]
        by_cases hab : a' = a ∧ b' = b
        · rw [if_pos hab, if_pos ⟨hab.1.symm, hab.2.symm⟩, hab.1, hab.2]
        · rw [if_neg hab, if_neg fun hba => hab ⟨hba.1.symm, hba.2.symm⟩]
      refine both r (fun t => t.doSet r.needCount b a weight) ⟨hgood, hrel⟩ fun t ht => ?_
      obtain ⟨hgood', hweight'⟩ := (h.reverse t ht).doSet b a weight
      refine ⟨hgood', fun b' a' => ?_⟩
      rw [← hrel, hweight, hweight', h.weightReverse t ht, h.weightReverse t ht]
      simp only [and_comm]

omit [DecidableEq κ] in
theorem mem_order {t : Table κ μ ω} {k : κ} {l : AList (fun _ : μ => Option ω)} (hin : t.inner k = some l) (m : μ) :
    m ∈ (p.order l.entries).map (·.1) ↔ t.weight k m ≠ none := by
  rw [← Table.Good.mem_keys hin, ((p.perm l.entries).map _).mem_iff]
  rfl

theorem remove_none (h : Keeps r r.relevance.weight) {value1 : Option α} {value2 : Option β}
    (hnone : ∀ a b, Gone value1 value2 a b → r.relevance.weight a b = none) :
    Keeps r (weighs r (.remove value1 value2)) ∧ Removes r value1 value2 [] := by
  have heq : ∀ a b, r.relevance.weight a b = weighs r (.remove value1 value2) a b := by
    intro a b
    rw [weighs]
    split
    · next hgone => exact hnone a b hgone
    · rfl
  refine ⟨h.same heq, fun a b weight => ⟨fun hmem => (nomatch hmem), ?_⟩⟩
  rintro ⟨hgone, hsome⟩
  rw [hnone a b hgone] at hsome
  cases hsome

theorem remove_pair (h : Keeps r r.relevance.weight) (a : α) (b : β) :
    ∃ r' removed, r.remove p (some a) (some b) = some (r', removed) ∧
      Keeps r' (weighs r (.remove (some a) (some b))) ∧ Removes r (some a) (some b) (removed.getD []) := by
  obtain ⟨hgood, hweight, hret⟩ := h.relevance.doRemove a b
  have hgone : ∀ a' b', Gone (some a) (some b) a' b' ↔ a' = a ∧ b' = b := fun a' b' => by simp [Gone]
  refine ⟨_, _, rfl, both r (fun t => (t.doRemove r.needCount b a).1) ⟨hgood, fun a' b' => ?_⟩ fun t ht => ?_,
    fun a' b' weight => ?_⟩
  · simp only [hweight, weighs, hgone]
  · obtain ⟨hgood', hweight', -⟩ := (h.reverse t ht).doRemove b a
    refine ⟨hgood', fun b' a' => ?_⟩
    simp only [hweight', weighs, hgone, h.weightReverse t ht, and_comm]
  · rw [hgone, hret]
    cases hw : r.relevance.weight a b with
    | none =>
      refine ⟨fun hmem => (nomatch hmem), fun ⟨⟨ha, hb⟩, hsome⟩ => ?_⟩
      rw [ha, hb, hw] at hsome
      cases hsome
    | some w =>
      simp only [Option.map_some, Option.getD_some, List.mem_singleton, Prod.mk.injEq]
      refine and_congr_right fun hab => ?_
      rw [hab.1, hab.2, hw, Option.some.injEq]
      exact eq_comm

theorem remove_first (h : Keeps r r.relevance.weight) (a : α) (hfits : r.reverse = none → r.relevance.inner a = none) :
    ∃ r' removed, r.remove p (some a) none = some (r', removed) ∧
      Keeps r' (weighs r (.remove (some a) none)) ∧ Removes r (some a) none (removed.getD []) := by
  have hgone : ∀ a' b, Gone (some a) (none : Option β) a' b ↔ a' = a := fun a' b => by simp [Gone]
  cases hin : r.relevance.inner a with
  | none =>
    have hnone : ∀ a' b, Gone (some a) (none : Option β) a' b → r.relevance.weight a' b = none := by
      intro a' b hg
      rw [(hgone a' b).1 hg, Table.weight, hin]
      rfl
    obtain ⟨hkeeps, hremoves⟩ := h.remove_none hnone
    exact ⟨r, none, by rw [Relevance.remove, hin], hkeeps, hremoves⟩
  | some value2Map =>
    have hrev : ¬(r.reverse.isNone = true ∧ (p.order value2Map.entries).map (·.1) ≠ []) := by
      rintro ⟨hnone, -⟩
      rw [hfits (Option.isNone_iff_eq_none.1 hnone)] at hin
      cases hin
    obtain ⟨hgood, hweight, hret⟩ := h.relevance.doRemoveAll a
    refine ⟨_, _, by rw [Relevance.remove, hin]; exact if_neg hrev, both r _ ⟨hgood, fun a' b => ?_⟩ fun t ht => ?_,
      fun a' b weight => ?_⟩
    · simp only [hweight, weighs, hgone]
    · obtain ⟨hgood', hweight'⟩ := keeps_removeReverse r a ((p.order value2Map.entries).map (·.1)) (h.reverse t ht)
      refine ⟨hgood', fun b a' => ?_⟩
      simp only [hweight', weighs, hgone, mem_order hin, h.weightReverse t ht]
      by_cases ha : a' = a
      · by_cases hb : r.relevance.weight a b = none
        · simp [ha, hb]
        · simp [ha, hb]
      · simp [ha]
    · rw [hgone, hret, hin]
      simp only [Option.map_some, Option.getD_some, List.mem_map, Prod.mk.injEq]
      constructor
      · rintro ⟨e, he, ⟨rfl, rfl⟩, rfl⟩
        rw [Table.weight, hin]
        exact ⟨rfl, AList.mem_lookup_iff.2 he⟩
      · rintro ⟨rfl, hw⟩
        rw [Table.weight, hin] at hw
        exact ⟨⟨b, weight⟩, AList.mem_lookup_iff.1 hw, ⟨rfl, rfl⟩, rfl⟩

theorem remove_second (h : Keeps r r.relevance.weight) (b : β) (hfits : r.reverse ≠ none) :
    ∃ r' removed, r.remove p none (some b) = some (r', removed) ∧
      Keeps r' (weighs r (.remove none (some b))) ∧ Removes r none (some b) (removed.getD []) := by
  have hgone : ∀ a b', Gone (none : Option α) (some b) a b' ↔ b' = b := fun a b' => by simp [Gone]
  obtain ⟨t, ht⟩ := Option.ne_none_iff_exists'.1 hfits
  cases hin : t.inner b with
  | none =>
    have hnone : ∀ a b', Gone (none : Option α) (some b) a b' → r.relevance.weight a b' = none := by
      intro a b' hg
      rw [(hgone a b').1 hg, ← h.weightReverse t ht, Table.weight, hin]
      rfl
    obtain ⟨hkeeps, hremoves⟩ := h.remove_none hnone
    exact ⟨r, none, by rw [Relevance.remove, ht]; simp only [hin], hkeeps, hremoves⟩
  | some value1Map =>
    obtain ⟨hgood, hweight, hlist⟩ :=
      keeps_removeRelevance r b ((p.order value1Map.entries).map (·.1)) (r.relevance, []) h.relevance
    have hmem := mem_order (p := p) hin
    have heq : r.remove p none (some b) = some ({ r with
        reverse := r.reverse.map fun t => (t.doRemoveAll r.needCount b).1
        relevance := (r.removeRelevance b ((p.order value1Map.entries).map (·.1))).1 },
        some (r.removeRelevance b ((p.order value1Map.entries).map (·.1))).2) := by
      rw [Relevance.remove, ht]
      simp only [hin, Option.map_some]
    refine ⟨_, _, heq, both r _ ⟨hgood, fun a b' => ?_⟩ fun t' ht' => ?_, fun a b' weight => ?_⟩
    · simp only [removeRelevance, hweight, weighs, hgone, hmem, h.weightReverse t ht]
      by_cases hb : b' = b
      · by_cases ha : r.relevance.weight a b = none
        · simp [hb, ha]
        · simp [hb, ha]
      · simp [hb]
    · obtain ⟨hgood', hweight', -⟩ := (h.reverse t' ht').doRemoveAll b
      refine ⟨hgood', fun b' a => ?_⟩
      simp only [hweight', weighs, hgone, h.weightReverse t' ht']
    · rw [hgone, Option.getD_some, removeRelevance, hlist, hmem, h.weightReverse t ht]
      simp only [List.not_mem_nil, false_or]
      refine and_congr_right fun hb => ⟨And.right, fun hw => ⟨?_, hw⟩⟩
      rw [← hb, hw]
      exact Option.some_ne_none weight

/-- **What `remove` does**, unless it goes through a direction that there is not. -/
theorem remove (h : Keeps r r.relevance.weight) {value1 : Option α} {value2 : Option β}
    (hfits : Fits r (.remove value1 value2)) : ∃ r' removed, r.remove p value1 value2 = some (r', removed) ∧
      Keeps r' (weighs r (.remove value1 value2)) ∧ Removes r value1 value2 (removed.getD []) := by
  cases value1 with
  | none =>
    cases value2 with
    | none =>
      obtain ⟨hkeeps, hremoves⟩ := h.remove_none fun a b hg => (hg.1.elim (absurd rfl) (absurd rfl) :
        r.relevance.weight a b = none)
      exact ⟨r, none, rfl, hkeeps, hremoves⟩
    | some b => exact h.remove_second b hfits
  | some a =>
    cases value2 with
    | none => exact h.remove_first a hfits
    | some b => exact h.remove_pair a b

/-- **What `getCount` is.** -/
theorem getCount (h : Keeps r rel) : CountsIf r where
  first := fun a => by
    split
    · next hneed =>
      obtain ⟨s, hs, hcard⟩ := h.relevance.card hneed a
      refine ⟨s, hs, ?_⟩
      rw [Relevance.getCount, hneed]
      exact hcard
    · next hneed => simp [Relevance.getCount, hneed]
  second := fun b => by
    split
    · next hneed =>
      obtain ⟨t, ht⟩ := Option.isSome_iff_exists.1 hneed.2
      obtain ⟨s, hs, hcard⟩ := (h.reverse t ht).card hneed.1 b
      refine ⟨s, fun a => (hs a).trans ?_, ?_⟩
      · rw [h.weightReverse t ht, h.weight]
      · simp only [Relevance.getCount, hneed.1, ht, Option.bind_some]
        exact hcard
    · next hneed =>
      cases hrev : r.reverse with
      | none => simp [Relevance.getCount, hrev]
      | some t =>
        have hno : r.needCount = false := by
          by_contra hneed'
          exact hneed ⟨by simpa using hneed', by rw [hrev]; rfl⟩
        simp [Relevance.getCount, hno]

theorem relates (h : Keeps r rel) : Relates r rel := by
  refine ⟨fun a b => ?_, fun t ht a b => h.weightReverse t ht b a, h.relevance.inner, fun t ht => (h.reverse t ht).inner⟩
  rw [h.weight]

end Keeps
end Relevance

theorem keeps_step {r : Relevance α β ω} (h : r.Keeps r.relevance.weight) {e : Event α β ω} (hfits : Fits r e) :
    (step p r e).Keeps (weighs r e) ∧ ∀ value1 value2, e = .remove value1 value2 →
      ∃ r' removed, r.remove p value1 value2 = some (r', removed) ∧ Removes r value1 value2 (removed.getD []) := by
  cases e with
  | set value1 value2 weight => exact ⟨h.set value1 value2 weight, fun _ _ he => by cases he⟩
  | remove value1 value2 =>
    obtain ⟨r', removed, heq, hkeeps, hremoves⟩ := h.remove (p := p) hfits
    refine ⟨by rw [step, heq]; exact hkeeps, fun v1 v2 he => ?_⟩
    obtain ⟨rfl, rfl⟩ := Event.remove.inj he
    exact ⟨r', removed, heq, hremoves⟩

theorem transposed_of_run (needCount noNeedReverse : Bool) (es : List (Event α β ω))
    (hfits : Steps.Along (step p) Fits (Relevance.new needCount noNeedReverse) es) :
    Steps.Along (step p) (Right p CountsIf) (Relevance.new needCount noNeedReverse : Relevance α β ω) es := by
  have hnew : (Relevance.new needCount noNeedReverse : Relevance α β ω).Keeps fun _ _ => none :=
    Relevance.Keeps.new needCount noNeedReverse
  have hstart : (Relevance.new needCount noNeedReverse : Relevance α β ω).Keeps
      (Relevance.new needCount noNeedReverse : Relevance α β ω).relevance.weight := by
    rw [hnew.weight]
    exact hnew
  refine Steps.Along.keep (I := fun r => r.Keeps r.relevance.weight) ?_ es _ hstart hfits
  intro r e he h
  obtain ⟨hkeeps, hremoves⟩ := keeps_step p h he
  exact ⟨by rw [hkeeps.weight]; exact hkeeps, hkeeps.relates, hkeeps.getCount, hremoves⟩

theorem transposed_of_run_second : Steps.Along (step ⟨id, List.Perm.refl⟩) (Right ⟨id, List.Perm.refl⟩ CountsIf)
    (Relevance.new true false : Relevance Nat Nat Nat)
    [.set (some 1) (some 2) (some 7), .set (some 1) (some 3) none, .remove none (some 2)] := by
  refine transposed_of_run ⟨id, List.Perm.refl⟩ true false _ ⟨trivial, trivial, ?_, trivial⟩
  exact Option.some_ne_none _

/-- Values that are not counted: one is related, and `getCount` is 0. -/
theorem uncounted : ¬Steps.Along (step ⟨id, List.Perm.refl⟩) (Right ⟨id, List.Perm.refl⟩ Counts)
    (Relevance.new false false : Relevance Nat Nat Nat) [.set (some 1) (some 2) none] := by
  intro h
  obtain ⟨s, hs, hcard⟩ := h.1.2.1.first 1
  have hempty : s = ∅ := Finset.card_eq_zero.1 (Int.ofNat.inj hcard.symm)
  have hmem : 2 ∈ s := (hs 2).2 (by decide)
  rw [hempty] at hmem
  exact Finset.notMem_empty 2 hmem

end RelevanceTable
end Sncpp
