import Mathlib.Data.List.Dedup
import Sncpp.Backpack
/-!
# BackpackMerge — what a request comes to before it reaches a backpack (`classifyBackpack`)

The merge leaves every id once, with what the list asked of it in all (`merge_nodup`, `total_merge`), and each backpack
is handed the items of its own ids.  A visit changes each backpack once (`visit_backpacks`), so what a request does is a
matter of one backpack and its list.
-/
namespace Sncpp
namespace Pack

open Tally

theorem absorb_spec (x : Item Nat) : ∀ {l l' : List (Item Nat)}, absorb x l = some l' →
    x.id ∈ ids l ∧ ids l' = ids l ∧ ∀ k, total k l' = total k l + if x.id = k then x.count else 0
  | y :: ys, l', h => by
    unfold absorb at h
    split at h
    · rename_i hy
      cases h
      refine ⟨by rw [← hy]; exact List.mem_cons_self, rfl, fun k => ?_⟩
      simp only [total_cons, hy]
      split <;> omega
    · obtain ⟨ys', hys, rfl⟩ := Option.map_eq_some_iff.1 h
      obtain ⟨hmem, hids, htot⟩ := absorb_spec x hys
      refine ⟨List.mem_cons_of_mem _ hmem, congrArg (y.id :: ·) hids, fun k => ?_⟩
      rw [total_cons, total_cons, htot k]
      omega

theorem absorb_eq_none (x : Item Nat) : ∀ {l : List (Item Nat)}, absorb x l = none → x.id ∉ ids l
  | [], _ => by simp [ids]
  | y :: ys, h => by
    unfold absorb at h
    split at h
    · cases h
    · rename_i hy
      have hys := absorb_eq_none x (Option.map_eq_none_iff.1 h)
      intro hx
      rcases List.mem_cons.1 hx with e | hx
      · exact hy e.symm
      · exact hys hx

theorem mem_ids_append (k : Nat) (l l' : List (Item Nat)) : k ∈ ids (l ++ l') ↔ k ∈ ids l ∨ k ∈ ids l' := by
  unfold ids
  rw [List.map_append, List.mem_append]

theorem mem_ids_cons (k : Nat) (v : Item Nat) (l : List (Item Nat)) : k ∈ ids (v :: l) ↔ k = v.id ∨ k ∈ ids l :=
  List.mem_cons

/-- What the loop makes of `pre ++ done`, once the ids of `done` stand nowhere else. -/
structure Merged (l l' : List (Item Nat)) : Prop where
  nodup : (ids l').Nodup
  total : ∀ k, total k l' = total k l
  mem : ∀ k, k ∈ ids l' ↔ k ∈ ids l
  length : l'.length ≤ l.length

/-- **The merging loop**, by induction on how far it still has to go down: what it is done with has ids that stand
nowhere else. -/
theorem mergeLoop_merged : ∀ (i : Nat) (pre done : List (Item Nat)), pre.length = i → (ids done).Nodup →
    (∀ k ∈ ids done, k ∉ ids pre) → Merged (pre ++ done) (mergeLoop i (pre ++ done))
  | 0, pre, done, hlen, hn, _ => by
    rw [List.length_eq_zero_iff.1 hlen]
    exact ⟨hn, fun _ => rfl, fun _ => Iff.rfl, le_refl _⟩
  | i + 1, pre, done, hlen, hn, hd => by
    obtain ⟨front, x, rfl⟩ : ∃ front x, pre = front ++ [x] := by
      rcases List.eq_nil_or_concat pre with h | ⟨front, x, h⟩
      · rw [h] at hlen
        cases hlen
      · exact ⟨front, x, by rw [h, List.concat_eq_append]⟩
    have hfront : front.length = i := by simpa using hlen
    have hget : (front ++ [x] ++ done)[i]? = some x := by simp [← hfront]
    have htake : (front ++ [x] ++ done).take i = front := by simp [← hfront]
    have hdrop : (front ++ [x] ++ done).drop (i + 1) = done := by simp [← hfront]
    have hdf : ∀ k ∈ ids done, k ∉ ids front := fun k hk hf => hd k hk ((mem_ids_append k _ _).2 (.inl hf))
    unfold mergeLoop
    rw [hget]
    simp only
    rw [htake, hdrop]
    cases ha : absorb x front with
    | some front' =>
      obtain ⟨hmem, hids, htot⟩ := absorb_spec x ha
      have hlen' : front'.length = front.length := by simpa [ids] using congrArg List.length hids
      have h := mergeLoop_merged i front' done (hlen'.trans hfront) hn (by rw [hids]; exact hdf)
      refine ⟨h.nodup, fun k => ?_, fun k => ?_, ?_⟩
      · rw [h.total k]
        simp only [total_append, total_cons, total_nil, htot k]
        omega
      · rw [h.mem k, mem_ids_append, mem_ids_append, mem_ids_append, hids]
        constructor
        · rintro (h1 | h1)
          · exact .inl (.inl h1)
          · exact .inr h1
        · rintro ((h1 | h1) | h1)
          · exact .inl h1
          · have hk : k = x.id := by simpa [ids] using h1
            exact .inl (hk ▸ hmem)
          · exact .inr h1
      · have := h.length
        simp only [List.length_append, List.length_singleton] at this ⊢
        omega
    | none =>
      have hx := absorb_eq_none x ha
      have hxd : x.id ∉ ids done := fun hk => hd x.id hk ((mem_ids_append _ _ _).2 (.inr (List.mem_singleton.2 rfl)))
      rw [List.append_assoc]
      refine mergeLoop_merged i front ([x] ++ done) hfront (List.nodup_cons.2 ⟨hxd, hn⟩) ?_
      intro k hk
      rcases List.mem_cons.1 hk with e | hk
      · rw [e]
        exact hx
      · exact hdf k hk

theorem merge_merged (l : List (Item Nat)) : Merged l (merge l) := by
  unfold merge
  split
  · have h := mergeLoop_merged l.length l [] rfl List.nodup_nil (by simp [ids])
    rwa [List.append_nil] at h
  · rename_i h
    refine ⟨?_, fun _ => rfl, fun _ => Iff.rfl, le_refl _⟩
    cases l with
    | nil => exact List.nodup_nil
    | cons v l =>
      have hl : l = [] := List.length_eq_zero_iff.1 (by simp at h; exact h ▸ rfl)
      subst hl
      exact List.nodup_singleton _

theorem merge_length_eq (l : List (Item Nat)) : (merge l).length = l.length ↔ (ids l).Nodup := by
  have h := merge_merged l
  have hperm : (ids l).dedup.Perm (ids (merge l)) :=
    (List.perm_ext_iff_of_nodup (List.nodup_dedup _) h.nodup).2 (fun k => by rw [List.mem_dedup, h.mem k])
  have hlen : (ids (merge l)).length = (ids l).dedup.length := hperm.length_eq.symm
  have h1 : (ids (merge l)).length = (merge l).length := List.length_map _
  have h2 : (ids l).length = l.length := List.length_map _
  rw [← h1, hlen, ← h2]
  constructor
  · intro he
    exact List.dedup_eq_self.1 ((List.dedup_sublist _).eq_of_length he)
  · intro hn
    rw [List.dedup_eq_self.2 hn]

theorem absorb_of_not_mem {x : Item Nat} : ∀ {l : List (Item Nat)}, x.id ∉ ids l → absorb x l = none
  | [], _ => rfl
  | y :: l, h => by
    obtain ⟨hy, hl⟩ := not_or.1 (fun hm => h ((mem_ids_cons x.id y l).2 hm))
    rw [absorb, if_neg (Ne.symm hy), absorb_of_not_mem hl]
    rfl

theorem mergeLoop_of_nodup {l : List (Item Nat)} (h : (ids l).Nodup) : ∀ i, mergeLoop i l = l
  | 0 => rfl
  | i + 1 => by
    rw [mergeLoop]
    cases hx : l[i]? with
    | none => exact mergeLoop_of_nodup h i
    | some x =>
      have hfresh : x.id ∉ ids (l.take i) := by
        obtain ⟨hi, rfl⟩ := List.getElem?_eq_some_iff.1 hx
        rw [← List.take_append_drop i l, List.drop_eq_getElem_cons hi] at h
        unfold ids at h ⊢
        rw [List.map_append, List.nodup_append] at h
        exact fun hm => h.2.2 _ hm _ List.mem_cons_self rfl
      simp only
      rw [absorb_of_not_mem hfresh]
      exact mergeLoop_of_nodup h i

theorem merge_of_nodup {l : List (Item Nat)} (h : (ids l).Nodup) : merge l = l := by
  unfold merge
  split
  · exact mergeLoop_of_nodup h _
  · rfl

theorem merge_mem {l : List (Item Nat)} {v : Item Nat} (hv : v ∈ merge l) : v.count = total v.id l := by
  have h := merge_merged l
  rw [← h.total, total_eq_of_mem h.nodup hv]

section Classify

variable (conf : Conf)

def share (l : List (Item Nat)) (b : BagType) : List (Item Nat) := (classify conf (merge l) b).getD []

theorem share_eq (l : List (Item Nat)) (b : BagType) : share conf l b =
    ((merge l).filter (fun v => conf.getBackpackType v.id = some b)).filter (fun v => v.count ≠ 0) := by
  unfold share classify
  simp only
  split
  · rename_i h
    rw [h]
    rfl
  · rfl

theorem mem_share {l : List (Item Nat)} {b : BagType} {v : Item Nat} :
    v ∈ share conf l b ↔ v ∈ merge l ∧ conf.getBackpackType v.id = some b ∧ v.count ≠ 0 := by
  rw [share_eq, List.mem_filter, List.mem_filter, decide_eq_true_eq, decide_eq_true_eq, and_assoc]

theorem share_nodup (l : List (Item Nat)) (b : BagType) : (ids (share conf l b)).Nodup := by
  rw [share_eq]
  exact (merge_merged l).nodup.sublist ((List.filter_sublist.trans List.filter_sublist).map Item.id)

theorem total_share (l : List (Item Nat)) (b : BagType) (k : Nat) :
    total k (share conf l b) = if conf.getBackpackType k = some b then total k l else 0 := by
  rw [share_eq, total_filter_ne_zero, total_filter k (fun i => decide (conf.getBackpackType i = some b)),
    (merge_merged l).total]
  simp

end Classify

section Request

variable (conf : Conf) {items : List (Item Nat)} (hp : Positive items)

include hp

theorem merge_positive : Positive (merge items) := by
  intro v hv
  rw [merge_mem hv]
  exact total_pos hp (((merge_merged items).mem v.id).1 (List.mem_map_of_mem hv))

theorem share_positive (b : BagType) : Positive (share conf items b) :=
  fun v hv => merge_positive hp v ((mem_share conf).1 hv).1

theorem mem_ids_share {b : BagType} {k : Nat} :
    k ∈ ids (share conf items b) ↔ k ∈ ids items ∧ conf.getBackpackType k = some b := by
  constructor
  · intro h
    obtain ⟨v, hv, rfl⟩ := List.mem_map.1 h
    obtain ⟨hm, ht, -⟩ := (mem_share conf).1 hv
    exact ⟨((merge_merged items).mem v.id).1 (List.mem_map_of_mem hm), ht⟩
  · rintro ⟨hk, ht⟩
    obtain ⟨v, hv, rfl⟩ := List.mem_map.1 (((merge_merged items).mem k).2 hk)
    exact List.mem_map_of_mem ((mem_share conf).2 ⟨hv, ht, (merge_positive hp v hv).ne'⟩)

end Request

theorem Visit.nodup (ord : Visit) : ord.order.Nodup := ord.perm.nodup_iff.2 (by decide)

theorem Visit.mem (ord : Visit) (b : BagType) : b ∈ ord.order := by
  rw [ord.perm.mem_iff]
  cases b <;> decide

theorem forM_ok {α : Type} (f : α → Except Err Unit) : ∀ l : List α, l.forM f = .ok () ↔ ∀ x ∈ l, f x = .ok ()
  | [] => by
    constructor
    · intro _ x hx
      cases hx
    · intro _
      rfl
  | x :: l => by
    have hcons : (x :: l).forM f = (f x >>= fun _ => l.forM f) := rfl
    rw [hcons, List.forall_mem_cons, ← forM_ok f l]
    cases hx : f x with
    | ok u => exact ⟨fun h => ⟨rfl, h⟩, fun h => h.2⟩
    | error e =>
      constructor
      · intro h
        cases h
      · rintro ⟨h, -⟩
        cases h

theorem firstErr_ok (ord : Visit) (ret : BagType → Option (List (Item Nat)))
    (test : BagType → List (Item Nat) → Except Err Unit) :
    firstErr ord ret test = .ok () ↔ ∀ b l, ret b = some l → test b l = .ok () := by
  unfold firstErr
  rw [forM_ok]
  constructor
  · intro h b l hb
    have := h b (ord.mem b)
    rwa [hb] at this
  · intro h b _
    cases hb : ret b with
    | none => rfl
    | some l => exact h b l hb

theorem seq_ok (x y : Except Err Unit) : (do x; y) = .ok () ↔ x = .ok () ∧ y = .ok () := by
  cases x with
  | ok u => exact ⟨fun h => ⟨rfl, h⟩, fun h => h.2⟩
  | error e =>
    constructor
    · intro h
      cases h
    · rintro ⟨h, -⟩
      cases h

theorem firstErr_each (ord : Visit) (ret : BagType → Option (List (Item Nat)))
    (test test' : BagType → Item Nat → Except Err Unit) :
    firstErr ord ret (fun b l => l.forM (fun v => do
      test b v
      test' b v)) = .ok () ↔ ∀ b, ∀ v ∈ (ret b).getD [], test b v = .ok () ∧ test' b v = .ok () := by
  rw [firstErr_ok]
  constructor
  · intro h b v hv
    cases hb : ret b with
    | none =>
      rw [hb] at hv
      cases hv
    | some l =>
      rw [hb] at hv
      exact (seq_ok _ _).1 ((forM_ok _ l).1 (h b l hb) v hv)
  · intro h b l hb
    rw [forM_ok]
    intro v hv
    exact (seq_ok _ _).2 (h b v (by rw [hb]; exact hv))

section Fold

variable (f : BagType → Backpack → Backpack × Bool)

theorem foldl_put_backpacks : ∀ (l : List BagType) (c : BackpackCtrl) (b : BagType), l.Nodup →
    (l.foldl (fun c b => c.put b (f b (c.backpacks b))) c).backpacks b =
      if b ∈ l then (f b (c.backpacks b)).1 else c.backpacks b
  | [], _, _, _ => rfl
  | x :: l, c, b, hn => by
    obtain ⟨hx, hn⟩ := List.nodup_cons.1 hn
    rw [List.foldl_cons, foldl_put_backpacks l _ b hn]
    by_cases hb : b = x
    · subst hb
      simp [hx, BackpackCtrl.put]
    · simp [hb, BackpackCtrl.put]

theorem visit_backpacks (ord : Visit) (c : BackpackCtrl) (b : BagType) :
    (c.visit ord f).backpacks b = (f b (c.backpacks b)).1 := by
  unfold BackpackCtrl.visit
  rw [foldl_put_backpacks f _ c b ord.nodup, if_pos (ord.mem b)]

def Saved (c : BackpackCtrl) : Prop := ∀ b, c.saved b = (c.backpacks b).items

theorem put_saved {c : BackpackCtrl} (hc : Saved c) (b : BagType) (r : Backpack × Bool)
    (hr : r.2 = false → r.1.items = (c.backpacks b).items) : Saved (c.put b r) := by
  intro x
  unfold BackpackCtrl.put
  cases h : r.2 with
  | true => rfl
  | false =>
    by_cases hx : x = b
    · subst hx
      simpa using (hc x).trans (hr h).symm
    · simpa [hx] using hc x

theorem visit_saved (hf : ∀ b p, (f b p).2 = false → (f b p).1.items = p.items) (ord : Visit) {c : BackpackCtrl}
    (hc : Saved c) : Saved (c.visit ord f) := by
  unfold BackpackCtrl.visit
  generalize ord.order = l
  induction l generalizing c with
  | nil => exact hc
  | cons b l ih => exact ih (put_saved hc b _ (hf b _))

end Fold

end Pack
end Sncpp
