import Mathlib.Algebra.BigOperators.Group.Finset.Basic
import Sncpp.BackpackMerge
/-!
# BackpackAdd — adding items conserves them (`canAddItems`, `addItems`)

`need` is what an id asks of a backpack in free slots, by its stack limit.  The check adds the needs up as it goes
(`canAddLoop_ok`); the adding fills the stacks by another loop and uses up exactly the need (`addItemInner_added`).
-/
namespace Sncpp
namespace Pack

open Tally

def room (id : Nat) (maxCount : Int) (items : List (Item Nat)) : Int :=
  (((own id items).filter (fun v => v.count < maxCount)).map (fun v => maxCount - v.count)).sum

/-- **The free slots that `count` of an id asks for**: one each, one unless there is a slot of it, or the stacks for what
the others do not take. -/
def need (conf : Conf) (items : List (Item Nat)) (id : Nat) (count : Int) : Int :=
  let maxCount := conf.getMaxCount id
  if maxCount = 1 then count
  else if maxCount = 0 then (if id ∈ ids items then 0 else 1)
  else ceilDiv (max 0 (count - room id maxCount items)) maxCount

/-- The request fits: in every backpack the needs of its ids find free slots. -/
def Fits (conf : Conf) (c : BackpackCtrl) (items : List (Item Nat)) : Prop :=
  ∀ b, (c.backpacks b).curSize + ∑ id ∈ (ids items).toFinset with conf.getBackpackType id = some b,
    need conf (c.backpacks b).items id (total id items) ≤ (c.backpacks b).maxSize

theorem ceilDiv_nonneg {a m : Int} (ha : 0 ≤ a) (hm : 0 < m) : 0 ≤ ceilDiv a m := by
  unfold ceilDiv
  exact Int.ediv_nonneg (by omega) (by omega)

theorem ceilDiv_zero {m : Int} (hm : 0 < m) : ceilDiv 0 m = 0 := by
  unfold ceilDiv
  exact Int.ediv_eq_zero_of_lt (by omega) (by omega)

theorem ceilDiv_of_le {a m : Int} (ha : 0 < a) (hm : a ≤ m) : ceilDiv a m = 1 := by
  have h : a + m - 1 = a - 1 + 1 * m := by omega
  unfold ceilDiv
  rw [h, Int.add_mul_ediv_right _ _ (by omega), Int.ediv_eq_zero_of_lt (by omega) (by omega)]
  rfl

theorem ceilDiv_sub {a m : Int} (hm : 0 < m) : ceilDiv a m = ceilDiv (a - m) m + 1 := by
  have h : a + m - 1 = a - m + m - 1 + 1 * m := by omega
  unfold ceilDiv
  rw [h, Int.add_mul_ediv_right _ _ (by omega)]

theorem ceilDiv_pos {a m : Int} (ha : 0 < a) (hm : 0 < m) : 0 < ceilDiv a m := by
  unfold ceilDiv
  have h := Int.le_ediv_of_mul_le hm (by omega : 1 * m ≤ a + m - 1)
  omega

theorem room_cons (id : Nat) (m : Int) (v : Item Nat) (l : List (Item Nat)) :
    room id m (v :: l) = (if v.id = id ∧ v.count < m then m - v.count else 0) + room id m l := by
  unfold room
  rw [own_cons]
  by_cases hv : v.id = id
  · rw [if_pos hv, List.filter_cons]
    by_cases hm : v.count < m
    · simp [hv, hm]
    · simp [hm]
  · simp [hv]

theorem room_nonneg (id : Nat) (m : Int) : ∀ l : List (Item Nat), 0 ≤ room id m l
  | [] => le_refl _
  | v :: l => by
    have h := room_nonneg id m l
    rw [room_cons]
    split <;> omega

theorem room_congr {id : Nat} {m : Int} {l l' : List (Item Nat)} (h : own id l = own id l') :
    room id m l = room id m l' := by
  unfold room
  rw [h]

theorem stackRest_eq (id : Nat) (m : Int) : ∀ (l : List (Item Nat)) (count : Int), 0 < count →
    stackRest id m l count = max 0 (count - room id m l)
  | [], count, hc => by
    show count = max 0 (count - 0)
    omega
  | v :: l, count, hc => by
    have hr := room_nonneg id m l
    unfold stackRest
    rw [room_cons]
    split
    · split
      · omega
      · rw [stackRest_eq id m l _ (by omega)]
        congr 1
        omega
    · rw [stackRest_eq id m l count hc]
      congr 1
      omega

theorem mem_ids_iff_own (k : Nat) (l : List (Item Nat)) : k ∈ ids l ↔ own k l ≠ [] := by
  constructor
  · intro h e
    obtain ⟨v, hv, hk⟩ := List.mem_map.1 h
    exact List.filter_eq_nil_iff.1 e v hv (by simpa using hk)
  · intro h
    by_contra hk
    exact h (own_eq_nil_of_not_mem hk)

theorem need_congr (conf : Conf) {id : Nat} {l l' : List (Item Nat)} (h : own id l = own id l') (count : Int) :
    need conf l id count = need conf l' id count := by
  unfold need
  simp only [mem_ids_iff_own, h, room_congr h]

theorem need_nonneg (conf : Conf) (l : List (Item Nat)) (id : Nat) {count : Int} (hc : 0 < count) :
    0 ≤ need conf l id count := by
  unfold need
  simp only
  split
  · omega
  · split
    · split <;> omega
    · exact ceilDiv_nonneg (le_max_left _ _) (by omega)

theorem any_id_iff (id : Nat) (l : List (Item Nat)) : l.any (fun x => x.id = id) = true ↔ id ∈ ids l := by
  simp [ids]

theorem canAddLoop_cons (conf : Conf) (b : Backpack) {v : Item Nat} (hv : 0 < v.count) (vs : List (Item Nat)) {t : Int}
    (ht : t ≤ b.maxSize) : b.canAddLoop conf (v :: vs) t =
      if b.maxSize < t + need conf b.items v.id v.count then .error .backpackFull
      else b.canAddLoop conf vs (t + need conf b.items v.id v.count) := by
  have hlt : ¬b.maxSize < t + 0 := by omega
  rw [Backpack.canAddLoop, if_pos hv]
  unfold need
  simp only
  by_cases h1 : conf.getMaxCount v.id = 1
  · rw [if_pos h1, if_pos h1]
  · rw [if_neg h1, if_neg h1]
    by_cases h0 : conf.getMaxCount v.id = 0
    · rw [if_pos h0, if_pos h0]
      by_cases hm : v.id ∈ ids b.items
      · rw [if_pos ((any_id_iff _ _).2 hm), if_pos hm, if_neg hlt, add_zero]
      · rw [if_neg (fun h => hm ((any_id_iff _ _).1 h)), if_neg hm]
    · rw [if_neg h0, if_neg h0, stackRest_eq _ _ _ _ hv]
      have hge := le_max_left 0 (v.count - room v.id (conf.getMaxCount v.id) b.items)
      generalize max 0 (v.count - room v.id (conf.getMaxCount v.id) b.items) = rest at hge ⊢
      by_cases hr : 0 < rest
      · rw [if_pos hr]
      · have h0' : rest = 0 := by omega
        rw [if_neg hr, h0', ceilDiv_zero (by omega), if_neg hlt, add_zero]

theorem canAddLoop_ok (conf : Conf) (b : Backpack) : ∀ (l : List (Item Nat)) (t : Int), Positive l → t ≤ b.maxSize →
    (b.canAddLoop conf l t = .ok () ↔ t + (l.map (fun v => need conf b.items v.id v.count)).sum ≤ b.maxSize)
  | [], t, _, ht => by simpa [Backpack.canAddLoop] using ht
  | v :: l, t, hp, ht => by
    have hv := hp v List.mem_cons_self
    have hl : Positive l := fun u hu => hp u (List.mem_cons_of_mem _ hu)
    have hsum : 0 ≤ (l.map (fun v => need conf b.items v.id v.count)).sum := by
      refine List.sum_nonneg (fun x hx => ?_)
      obtain ⟨u, hu, rfl⟩ := List.mem_map.1 hx
      exact need_nonneg conf b.items u.id (hl u hu)
    rw [canAddLoop_cons conf b hv l ht, List.map_cons, List.sum_cons]
    split
    · constructor
      · intro h
        cases h
      · intro h
        omega
    · rw [canAddLoop_ok conf b l _ hl (by omega)]
      omega

theorem canAddLoop_positive (conf : Conf) (b : Backpack) : ∀ (l : List (Item Nat)) (t : Int),
    b.canAddLoop conf l t = .ok () → Positive l
  | [], _, _ => fun v hv => by cases hv
  | v :: l, t, h => by
    have hv : 0 < v.count := by
      by_contra hn
      rw [Backpack.canAddLoop, if_neg hn] at h
      cases h
    have hl : ∃ t', b.canAddLoop conf l t' = .ok () := by
      rw [Backpack.canAddLoop, if_pos hv] at h
      simp only at h
      split at h
      · split at h
        · cases h
        · exact ⟨_, h⟩
      · split at h
        · split at h
          · exact ⟨_, h⟩
          · split at h
            · cases h
            · exact ⟨_, h⟩
        · split at h
          · split at h
            · cases h
            · exact ⟨_, h⟩
          · exact ⟨_, h⟩
    obtain ⟨t', ht'⟩ := hl
    have ih := canAddLoop_positive conf b l t' ht'
    intro u hu
    rcases List.mem_cons.1 hu with rfl | hu
    · exact hv
    · exact ih u hu

/-- **What adding `l` makes of a backpack.**  The counter keeps pace with the slots; every id has what was added to it;
the slots of other ids stay; a slot is an old one or within its limit. -/
structure Added (conf : Conf) (b : Backpack) (l : List (Item Nat)) (b' : Backpack) : Prop where
  maxSize : b'.maxSize = b.maxSize
  pace : b'.curSize - b'.items.length = b.curSize - b.items.length
  total : ∀ k, total k b'.items = total k b.items + total k l
  other : ∀ k, k ∉ ids l → own k b'.items = own k b.items
  slot : ∀ v ∈ b'.items, v ∈ b.items ∨
    v.id ∈ ids l ∧ (conf.getMaxCount v.id ≠ 0 → v.count ≤ conf.getMaxCount v.id)
  positive : Positive b.items → Positive b'.items

theorem Added.refl (conf : Conf) (b : Backpack) : Added conf b [] b :=
  ⟨rfl, rfl, fun k => by simp, fun _ _ => rfl, fun _ hv => .inl hv, id⟩

theorem Added.trans {conf : Conf} {b b₁ b₂ : Backpack} {v : Item Nat} {l : List (Item Nat)} (h : Added conf b [v] b₁)
    (h' : Added conf b₁ l b₂) : Added conf b (v :: l) b₂ := by
  refine ⟨h'.maxSize.trans h.maxSize, h'.pace.trans h.pace, fun k => ?_, fun k hk => ?_, fun u hu => ?_,
    fun hp => h'.positive (h.positive hp)⟩
  · rw [h'.total k, h.total k, total_cons, total_cons, total_nil]
    omega
  · have hkv : k ∉ ids [v] := fun hv => hk (List.mem_cons.2 (.inl (List.mem_singleton.1 hv)))
    rw [h'.other k (fun hl => hk (List.mem_cons_of_mem _ hl)), h.other k hkv]
  · rcases h'.slot u hu with hu | ⟨hu, hm⟩
    · rcases h.slot u hu with hu | ⟨hu, hm⟩
      · exact .inl hu
      · exact .inr ⟨List.mem_cons.2 (.inl (List.mem_singleton.1 hu)), hm⟩
    · exact .inr ⟨List.mem_cons_of_mem _ hu, hm⟩

structure Refilled (id : Nat) (count : Int) (limit : Item Nat → Prop) (l l' : List (Item Nat)) : Prop where
  total : total id l' = total id l + count
  other : ∀ k, k ≠ id → own k l' = own k l
  slot : ∀ v ∈ l', v ∈ l ∨ v.id = id ∧ limit v
  positive : Positive l → Positive l'

theorem Refilled.cons {id : Nat} {count : Int} {limit : Item Nat → Prop} {l l' : List (Item Nat)}
    (h : Refilled id count limit l l') (v : Item Nat) : Refilled id count limit (v :: l) (v :: l') := by
  refine ⟨?_, fun k hk => ?_, fun u hu => ?_, fun hp u hu => ?_⟩
  · rw [total_cons, total_cons, h.total]
    omega
  · rw [own_cons, own_cons, h.other k hk]
  · rcases List.mem_cons.1 hu with rfl | hu
    · exact .inl List.mem_cons_self
    · exact (h.slot u hu).imp (List.mem_cons_of_mem _) (fun h => h)
  · rcases List.mem_cons.1 hu with rfl | hu
    · exact hp u List.mem_cons_self
    · exact h.positive (fun w hw => hp w (List.mem_cons_of_mem _ hw)) u hu

theorem Refilled.head {id : Nat} {count : Int} {limit : Item Nat → Prop} {v : Item Nat} (hv : v.id = id) (hc : 0 < count)
    (hl : limit ⟨v.id, v.count + count⟩) (l : List (Item Nat)) :
    Refilled id count limit (v :: l) (⟨v.id, v.count + count⟩ :: l) := by
  refine ⟨?_, fun k hk => ?_, fun u hu => ?_, fun hp u hu => ?_⟩
  · simp only [total_cons, if_pos hv]
    omega
  · rw [own_cons, own_cons, if_neg (fun e => hk (e.symm.trans hv)), if_neg (fun e => hk (e.symm.trans hv))]
  · rcases List.mem_cons.1 hu with rfl | hu
    · exact .inr ⟨hv, hl⟩
    · exact .inl (List.mem_cons_of_mem _ hu)
  · rcases List.mem_cons.1 hu with rfl | hu
    · have := hp v List.mem_cons_self
      show 0 < v.count + count
      omega
    · exact hp u (List.mem_cons_of_mem _ hu)

theorem Refilled.append {id : Nat} {c₁ c₂ : Int} {limit : Item Nat → Prop} {l l' new : List (Item Nat)}
    (h : Refilled id c₁ limit l l') (hnew : ∀ v ∈ new, v.id = id ∧ limit v ∧ 0 < v.count)
    (htot : Tally.total id new = c₂) : Refilled id (c₁ + c₂) limit l (l' ++ new) := by
  refine ⟨?_, fun k hk => ?_, fun u hu => ?_, fun hp u hu => ?_⟩
  · rw [total_append, h.total, htot]
    omega
  · have hk' : k ∉ ids new := by
      intro hm
      obtain ⟨v, hv, rfl⟩ := List.mem_map.1 hm
      exact hk (hnew v hv).1
    rw [own_append, own_eq_nil_of_not_mem hk', List.append_nil, h.other k hk]
  · rcases List.mem_append.1 hu with hu | hu
    · exact h.slot u hu
    · exact .inr ⟨(hnew u hu).1, (hnew u hu).2.1⟩
  · rcases List.mem_append.1 hu with hu | hu
    · exact h.positive hp u hu
    · exact (hnew u hu).2.2

theorem Refilled.trans {id : Nat} {c₁ c₂ : Int} {limit : Item Nat → Prop} {l l₁ l₂ : List (Item Nat)}
    (h : Refilled id c₁ limit l l₁) (h' : Refilled id c₂ limit l₁ l₂) : Refilled id (c₁ + c₂) limit l l₂ := by
  refine ⟨?_, fun k hk => (h'.other k hk).trans (h.other k hk), fun u hu => ?_, fun hp => h'.positive (h.positive hp)⟩
  · rw [h'.total, h.total, add_assoc]
  · rcases h'.slot u hu with hu | hu
    · exact h.slot u hu
    · exact .inr hu

theorem Refilled.refl (id : Nat) (limit : Item Nat → Prop) (l : List (Item Nat)) : Refilled id 0 limit l l :=
  ⟨(add_zero _).symm, fun _ _ => rfl, fun _ hv => .inl hv, fun h => h⟩

theorem addFirst_refilled {id : Nat} {count : Int} (hc : 0 < count) : ∀ {l l' : List (Item Nat)},
    addFirst id count l = some l' → l'.length = l.length ∧ Refilled id count (fun _ => True) l l'
  | v :: l, l', h => by
    unfold addFirst at h
    split at h
    · rename_i hv
      cases h
      exact ⟨rfl, .head hv hc trivial l⟩
    · obtain ⟨vs, hvs, rfl⟩ := Option.map_eq_some_iff.1 h
      obtain ⟨hlen, hr⟩ := addFirst_refilled hc hvs
      exact ⟨congrArg (· + 1) hlen, hr.cons v⟩

theorem addFirst_eq_none {id : Nat} {count : Int} : ∀ {l : List (Item Nat)}, addFirst id count l = none ↔ id ∉ ids l
  | [] => by simp [addFirst, ids]
  | v :: l => by
    unfold addFirst
    rw [mem_ids_cons]
    split
    · rename_i hv
      simp [hv]
    · rename_i hv
      rw [Option.map_eq_none_iff, addFirst_eq_none]
      constructor
      · rintro h (e | h')
        · exact hv e.symm
        · exact h h'
      · intro h h'
        exact h (.inr h')

theorem fillStacks_refilled (id : Nat) {m : Int} : ∀ (l : List (Item Nat)) {count : Int}, 0 < count →
    (fillStacks id m l count).1.length = l.length ∧
      (fillStacks id m l count).2 = max 0 (count - room id m l) ∧
      Refilled id (count - (fillStacks id m l count).2) (fun v => v.count ≤ m) l (fillStacks id m l count).1
  | [], count, hc => by
    have hrest : (fillStacks id m [] count).2 = count := rfl
    have hroom : room id m [] = 0 := rfl
    refine ⟨rfl, by rw [hrest, hroom]; omega, ?_⟩
    rw [hrest, sub_self]
    exact .refl id _ []
  | v :: l, count, hc => by
    have hr := room_nonneg id m l
    rw [room_cons]
    unfold fillStacks
    split
    · rename_i hv
      split
      · rename_i hle
        refine ⟨rfl, by simp only; omega, ?_⟩
        simp only [sub_zero]
        exact .head hv.1 hc hle l
      · rename_i hgt
        have hleft : 0 < count - (m - v.count) := by omega
        obtain ⟨h1, h2, h3⟩ := fillStacks_refilled id (m := m) l hleft
        refine ⟨congrArg (· + 1) h1, by simp only [h2]; congr 1; omega, ?_⟩
        generalize fillStacks id m l (count - (m - v.count)) = r at h2 h3 ⊢
        have htop : v.count + (m - v.count) = m := by omega
        have hhead : Refilled id (m - v.count) (fun v => v.count ≤ m) (v :: l) (⟨v.id, v.count + (m - v.count)⟩ :: l) :=
          .head hv.1 (by omega) (by show v.count + (m - v.count) ≤ m; omega) l
        have hall := hhead.trans (h3.cons _)
        rw [htop] at hall
        have hsum : m - v.count + (count - (m - v.count) - r.2) = count - r.2 := by omega
        rw [hsum] at hall
        exact hall
    · obtain ⟨h1, h2, h3⟩ := fillStacks_refilled id (m := m) l hc
      refine ⟨congrArg (· + 1) h1, by simp only [h2]; congr 1; omega, ?_⟩
      exact h3.cons v

theorem addUnits_eq (id : Nat) : ∀ (n : Nat) (b : Backpack), b.curSize + n ≤ b.maxSize →
    Backpack.addUnits id n b = { b with curSize := b.curSize + n, items := b.items ++ List.replicate n ⟨id, 1⟩ }
  | 0, b, _ => by simp [Backpack.addUnits]
  | n + 1, b, h => by
    unfold Backpack.addUnits
    rw [if_pos (by omega), addUnits_eq id n (b.push ⟨id, 1⟩) (by simp only [Backpack.push]; omega)]
    simp only [Backpack.push, List.append_assoc, List.singleton_append, ← List.replicate_succ]
    congr 1
    omega

theorem newStacks_eq (id : Nat) {m : Int} (hm : 0 < m) : ∀ (n : Nat) (count : Int) (b : Backpack), 0 ≤ count →
    ceilDiv count m ≤ n → b.curSize + ceilDiv count m ≤ b.maxSize →
    ∃ new, Backpack.newStacks id m n count b =
        { b with curSize := b.curSize + ceilDiv count m, items := b.items ++ new } ∧
      (∀ v ∈ new, v.id = id ∧ v.count ≤ m ∧ 0 < v.count) ∧ total id new = count ∧ (new.length : Int) = ceilDiv count m
  | 0, count, b, hc, hn, _ => by
    have h0 : count = 0 := by
      by_contra hne
      have := ceilDiv_pos (by omega : 0 < count) hm
      omega
    subst h0
    refine ⟨[], ?_, by simp, rfl, (ceilDiv_zero hm).symm⟩
    rw [ceilDiv_zero hm, add_zero, List.append_nil]
    rfl
  | n + 1, count, b, hc, hn, hb => by
    unfold Backpack.newStacks
    by_cases h0 : count = 0
    · subst h0
      rw [if_neg (by omega), ceilDiv_zero hm, add_zero]
      exact ⟨[], by rw [List.append_nil], by simp, rfl, rfl⟩
    · have hpos : 0 < count := by omega
      have hone := ceilDiv_pos hpos hm
      rw [if_pos ⟨hpos, by omega⟩]
      by_cases hle : count ≤ m
      · rw [if_pos hle, ceilDiv_of_le hpos hle]
        refine ⟨[⟨id, count⟩], rfl, fun v hv => ?_, by simp, rfl⟩
        rw [List.mem_singleton.1 hv]
        exact ⟨rfl, hle, hpos⟩
      · have hsub := ceilDiv_sub (a := count) hm
        rw [if_neg hle]
        obtain ⟨new, heq, hnew, htot, hlen⟩ := newStacks_eq id hm n (count - m) (b.push ⟨id, m⟩) (by omega) (by omega)
          (by simp only [Backpack.push]; omega)
        refine ⟨⟨id, m⟩ :: new, ?_, fun v hv => ?_, ?_, ?_⟩
        · rw [heq]
          simp only [Backpack.push, List.append_assoc, List.singleton_append]
          congr 1
          omega
        · rcases List.mem_cons.1 hv with rfl | hv
          · exact ⟨rfl, le_refl _, hm⟩
          · exact hnew v hv
        · rw [total_cons, if_pos rfl, htot]
          exact add_sub_cancel m count
        · rw [List.length_cons, hsub, ← hlen]
          push_cast
          rfl

theorem Refilled.added {conf : Conf} {b : Backpack} {id : Nat} {count size : Int} {limit : Item Nat → Prop}
    {items : List (Item Nat)} (h : Refilled id count limit b.items items)
    (hlimit : ∀ v, limit v → conf.getMaxCount id ≠ 0 → v.count ≤ conf.getMaxCount id)
    (hpace : size - items.length = b.curSize - b.items.length) :
    Added conf b [⟨id, count⟩] ⟨size, b.maxSize, items⟩ := by
  refine ⟨rfl, hpace, fun k => ?_, fun k hk => ?_, fun v hv => ?_, h.positive⟩
  · rw [total_cons, total_nil, add_zero]
    by_cases hk : id = k
    · subst hk
      rw [if_pos rfl]
      exact h.total
    · rw [if_neg hk, add_zero]
      exact total_congr (h.other k (Ne.symm hk))
  · exact h.other k (fun e => hk (List.mem_singleton.2 e))
  · rcases h.slot v hv with hv | ⟨hid, hl⟩
    · exact .inl hv
    · refine .inr ⟨List.mem_singleton.2 hid, ?_⟩
      rw [hid]
      exact hlimit v hl

theorem total_replicate (id : Nat) : ∀ n : Nat, total id (List.replicate n (⟨id, 1⟩ : Item Nat)) = n
  | 0 => rfl
  | n + 1 => by
    rw [List.replicate_succ, total_cons, if_pos rfl, total_replicate id n]
    push_cast
    exact add_comm _ _

/-- **`_addItem` adds everything when the need fits, and uses up the need.** -/
theorem addItemInner_added (conf : Conf) (b : Backpack) (id : Nat) {count : Int} (hc : 0 < count)
    (hfit : b.curSize + need conf b.items id count ≤ b.maxSize) :
    Added conf b [⟨id, count⟩] (b.addItemInner conf id count).1 ∧
      (b.addItemInner conf id count).1.curSize = b.curSize + need conf b.items id count := by
  unfold need at hfit ⊢
  unfold Backpack.addItemInner
  simp only at hfit ⊢
  by_cases h1 : conf.getMaxCount id = 1
  · rw [if_pos h1] at hfit ⊢
    rw [if_pos h1]
    have hn : ((count.toNat : Nat) : Int) = count := Int.toNat_of_nonneg (by omega)
    rw [addUnits_eq id count.toNat b (by omega)]
    have hnew : ∀ v ∈ List.replicate count.toNat (⟨id, 1⟩ : Item Nat), v.id = id ∧ v.count ≤ 1 ∧ 0 < v.count := by
      intro v hv
      rw [(List.mem_replicate.1 hv).2]
      exact ⟨rfl, le_refl _, Int.one_pos⟩
    have hr := (Refilled.refl id (fun v => v.count ≤ 1) b.items).append hnew (total_replicate id count.toNat)
    rw [hn, zero_add] at hr
    refine ⟨hr.added (fun v hv _ => ?_) ?_, by simp only; omega⟩
    · rw [h1]
      exact hv
    · rw [List.length_append, List.length_replicate]
      push_cast
      omega
  · rw [if_neg h1] at hfit ⊢
    rw [if_neg h1]
    by_cases h0 : conf.getMaxCount id = 0
    · rw [if_pos h0] at hfit ⊢
      rw [if_pos h0]
      cases hf : addFirst id count b.items with
      | some items =>
        obtain ⟨hlen, hr⟩ := addFirst_refilled hc hf
        have hmem : id ∈ ids b.items := by
          by_contra hm
          rw [addFirst_eq_none.2 hm] at hf
          cases hf
        rw [if_pos hmem, add_zero]
        exact ⟨hr.added (fun v _ h => absurd h0 h) (by rw [hlen]), rfl⟩
      | none =>
        have hmem := addFirst_eq_none.1 hf
        rw [if_neg hmem] at hfit ⊢
        simp only
        rw [if_pos (by omega)]
        have hnew : ∀ v ∈ [(⟨id, count⟩ : Item Nat)], v.id = id ∧ True ∧ 0 < v.count := by
          intro v hv
          rw [List.mem_singleton.1 hv]
          exact ⟨rfl, trivial, hc⟩
        have htot : total id [(⟨id, count⟩ : Item Nat)] = count := by
          rw [total_cons, if_pos rfl, total_nil, add_zero]
        have hr := (Refilled.refl id (fun _ => True) b.items).append hnew htot
        rw [zero_add] at hr
        refine ⟨hr.added (fun v _ h => absurd h0 h) ?_, rfl⟩
        rw [List.length_append, List.length_singleton]
        push_cast
        omega
    · rw [if_neg h0] at hfit ⊢
      rw [if_neg h0]
      obtain ⟨hlen, hrest, hr⟩ := fillStacks_refilled id (m := conf.getMaxCount id) b.items hc
      rw [← hrest] at hfit ⊢
      generalize fillStacks id (conf.getMaxCount id) b.items count = r at hlen hrest hr hfit ⊢
      have hm : (0 : Int) < conf.getMaxCount id := by omega
      have hge : 0 ≤ r.2 := by rw [hrest]; exact le_max_left _ _
      obtain ⟨new, heq, hnew, htot, hnlen⟩ := newStacks_eq id hm (b.maxSize - b.curSize).toNat r.2
        { b with items := r.1 } hge (by omega) hfit
      rw [heq]
      have hall := hr.append hnew htot
      rw [sub_add_cancel] at hall
      refine ⟨hall.added (fun v hv _ => hv) ?_, rfl⟩
      rw [List.length_append, hlen]
      push_cast
      rw [hnlen]
      omega

theorem addItems_foldl_added (conf : Conf) : ∀ (l : List (Item Nat)) (b : Backpack) (flag : Bool), (ids l).Nodup →
    Positive l → b.curSize + (l.map (fun v => need conf b.items v.id v.count)).sum ≤ b.maxSize →
    Added conf b l (l.foldl (addTurn conf) (b, flag)).1 ∧ (l.foldl (addTurn conf) (b, flag)).1.curSize =
      b.curSize + (l.map (fun v => need conf b.items v.id v.count)).sum
  | [], b, _, _, _, _ => ⟨.refl conf b, by simp⟩
  | v :: l, b, flag, hn, hp, hfit => by
    obtain ⟨hv, hn⟩ := List.nodup_cons.1 hn
    have hc := hp v List.mem_cons_self
    have hl : Positive l := fun u hu => hp u (List.mem_cons_of_mem _ hu)
    have hsum : 0 ≤ (l.map (fun v => need conf b.items v.id v.count)).sum := by
      refine List.sum_nonneg (fun x hx => ?_)
      obtain ⟨u, hu, rfl⟩ := List.mem_map.1 hx
      exact need_nonneg conf b.items u.id (hl u hu)
    rw [List.map_cons, List.sum_cons] at hfit ⊢
    obtain ⟨ha, hsize⟩ := addItemInner_added conf b v.id hc (by omega)
    -- the needs of the other ids are what they were
    have hneed : l.map (fun u => need conf (b.addItemInner conf v.id v.count).1.items u.id u.count) =
        l.map (fun u => need conf b.items u.id u.count) := by
      refine List.map_congr_left (fun u hu => ?_)
      have hne : u.id ∉ ids [(⟨v.id, v.count⟩ : Item Nat)] := by
        intro h
        exact hv (List.mem_singleton.1 h ▸ List.mem_map_of_mem hu)
      exact need_congr conf (ha.other u.id hne) u.count
    have hturn : addTurn conf (b, flag) v =
        ((b.addItemInner conf v.id v.count).1, flag || (b.addItemInner conf v.id v.count).2) := if_pos hc
    rw [List.foldl_cons, hturn]
    obtain ⟨h1, h2⟩ := addItems_foldl_added conf l (b.addItemInner conf v.id v.count).1
      (flag || (b.addItemInner conf v.id v.count).2) hn hl (by rw [hneed, hsize, ha.maxSize]; omega)
    refine ⟨ha.trans h1, ?_⟩
    rw [h2, hneed, hsize]
    omega

theorem addItems_added (conf : Conf) (b : Backpack) {l : List (Item Nat)} (hn : (ids l).Nodup) (hp : Positive l)
    (hfit : b.curSize + (l.map (fun v => need conf b.items v.id v.count)).sum ≤ b.maxSize) :
    Added conf b l (b.addItems conf l).1 ∧
      (b.addItems conf l).1.curSize = b.curSize + (l.map (fun v => need conf b.items v.id v.count)).sum :=
  addItems_foldl_added conf l b false hn hp hfit

section Request

variable (conf : Conf) {items : List (Item Nat)} (hp : Positive items)

include hp

theorem sum_need_eq (l : List (Item Nat)) (b : BagType) :
    ∑ id ∈ (ids items).toFinset with conf.getBackpackType id = some b, need conf l id (total id items) =
      ((share conf items b).map (fun v => need conf l v.id v.count)).sum := by
  have hset : ((ids items).toFinset.filter (fun id => conf.getBackpackType id = some b)) =
      (ids (share conf items b)).toFinset := by
    ext k
    rw [Finset.mem_filter, List.mem_toFinset, List.mem_toFinset, mem_ids_share conf hp]
  rw [hset, List.sum_toFinset _ (share_nodup conf items b)]
  unfold ids
  rw [List.map_map]
  congr 1
  refine List.map_congr_left (fun v hv => ?_)
  rw [merge_mem ((mem_share conf).1 hv).1]
  rfl

theorem classify_eq (b : BagType) : classify conf (merge items) b =
    if share conf items b = [] then none else some (share conf items b) := by
  have hall : ((merge items).filter (fun v => conf.getBackpackType v.id = some b)).filter (fun v => v.count ≠ 0) =
      (merge items).filter (fun v => conf.getBackpackType v.id = some b) := by
    refine List.filter_eq_self.2 (fun v hv => ?_)
    have := merge_positive hp v (List.mem_filter.1 hv).1
    simp only [ne_eq, decide_eq_true_eq]
    omega
  rw [share_eq, hall]
  unfold classify
  simp only
  rw [hall]

end Request

section Ctrl

variable (conf : Conf) (ord : Visit) {c : BackpackCtrl}

theorem classify_some {l m : List (Item Nat)} {b : BagType} (h : classify conf (merge l) b = some m) :
    m = share conf l b := by
  unfold share
  rw [h]
  rfl

theorem share_of_none {l : List (Item Nat)} {b : BagType} (h : classify conf (merge l) b = none) : share conf l b = [] := by
  unfold share
  rw [h]
  rfl

theorem canAddItems_ok (hcap : ∀ b, (c.backpacks b).curSize ≤ (c.backpacks b).maxSize) (items : List (Item Nat)) :
    c.canAddItems conf ord items = .ok () ↔ ∀ b, classify conf (merge items) b = none ∨
      share conf items b ≠ [] ∧ Positive (share conf items b) ∧ (c.backpacks b).curSize +
        ((share conf items b).map (fun v => need conf (c.backpacks b).items v.id v.count)).sum ≤
          (c.backpacks b).maxSize := by
  unfold BackpackCtrl.canAddItems
  rw [firstErr_ok]
  constructor
  · intro h b
    cases hb : classify conf (merge items) b with
    | none => exact .inl rfl
    | some l =>
      have hl := h b l hb
      have he := classify_some conf hb
      subst he
      unfold Backpack.canAddItems at hl
      split at hl
      · cases hl
      · rename_i hne
        have hp := canAddLoop_positive conf _ _ _ hl
        exact .inr ⟨hne, hp, (canAddLoop_ok conf _ _ _ hp (hcap b)).1 hl⟩
  · intro h b l hb
    rcases h b with hn | ⟨hne, hp, hfit⟩
    · rw [hn] at hb
      cases hb
    · have he := classify_some conf hb
      subst he
      unfold Backpack.canAddItems
      rw [if_neg hne]
      exact (canAddLoop_ok conf _ _ _ hp (hcap b)).2 hfit

theorem addItems_cases (hcap : ∀ b, (c.backpacks b).curSize ≤ (c.backpacks b).maxSize) (items : List (Item Nat)) :
    (∃ e, c.addItems conf ord items = (.error e, c)) ∨
      (c.addItems conf ord items).1 = .ok () ∧ c.canAddItems conf ord items = .ok () ∧ ∀ b,
        Added conf (c.backpacks b) (share conf items b) ((c.addItems conf ord items).2.backpacks b) ∧
        ((c.addItems conf ord items).2.backpacks b).curSize ≤ (c.backpacks b).maxSize := by
  unfold BackpackCtrl.addItems
  simp only
  split
  · exact .inl ⟨_, rfl⟩
  · cases hcan : c.canAddItems conf ord items with
    | error e => exact .inl ⟨e, rfl⟩
    | ok u =>
      refine .inr ⟨rfl, rfl, fun b => ?_⟩
      simp only
      rw [visit_backpacks]
      show Added conf _ _ ((c.backpacks b).addItems conf (share conf items b)).1 ∧
        ((c.backpacks b).addItems conf (share conf items b)).1.curSize ≤ _
      rcases (canAddItems_ok conf ord hcap items).1 hcan b with hn | ⟨-, hp, hfit⟩
      · rw [share_of_none conf hn]
        exact ⟨.refl conf _, hcap b⟩
      · obtain ⟨ha, hsize⟩ := addItems_added conf (c.backpacks b) (share_nodup conf items b) hp hfit
        exact ⟨ha, hsize.symm ▸ hfit⟩

end Ctrl

/-- **What a granted request does**: every id of a backpack has what was asked for it, its counter is right, nothing else
changed, and no slot is above its limit that was not so before. -/
structure Granted (conf : Conf) (c : BackpackCtrl) (items : List (Item Nat)) (c' : BackpackCtrl) : Prop where
  total : ∀ b k, total k (c'.backpacks b).items =
    total k (c.backpacks b).items + if conf.getBackpackType k = some b then total k items else 0
  other : ∀ b k, k ∉ ids items ∨ conf.getBackpackType k ≠ some b →
    own k (c'.backpacks b).items = own k (c.backpacks b).items
  size : ∀ b, (c'.backpacks b).curSize = (c'.backpacks b).items.length ∧
    (c'.backpacks b).curSize ≤ (c'.backpacks b).maxSize ∧ (c'.backpacks b).maxSize = (c.backpacks b).maxSize
  slot : ∀ b, ∀ v ∈ (c'.backpacks b).items, v ∈ (c.backpacks b).items ∨
    (conf.getMaxCount v.id ≠ 0 → v.count ≤ conf.getMaxCount v.id)

end Pack
end Sncpp
