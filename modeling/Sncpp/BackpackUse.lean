import Sncpp.BackpackMerge
/-!
# BackpackUse — deducting items is exact (`deductItems`, `useItem`, `useItems`)

The check scans an id's slots from the last one backwards and passes when they hold enough (`canUseItem_ok`); the
deduction scans them the same way and takes exactly what was asked (`useItemInner_used`).  A list with every id once
is checked before anything is taken, so `deductItems` is all or nothing.
-/
namespace Sncpp
namespace Pack

open Tally

theorem Positive.tail {v : Item Nat} {l : List (Item Nat)} (h : Positive (v :: l)) : Positive l :=
  fun u hu => h u (List.mem_cons_of_mem _ hu)

theorem useRest_pos (id : Nat) : ∀ {l : List (Item Nat)} {count : Int}, Positive l → 0 < count →
    (0 < useRest id l count ↔ total id l < count)
  | [], count, _, hc => by
    show 0 < count ↔ 0 < count
    exact Iff.rfl
  | v :: l, count, hp, hc => by
    have hv := hp v List.mem_cons_self
    have h0 := total_nonneg id (Positive.tail hp)
    unfold useRest
    rw [total_cons]
    split
    · split
      · omega
      · split
        · omega
        · rw [useRest_pos id (Positive.tail hp) (by omega)]
          omega
    · rw [useRest_pos id (Positive.tail hp) hc]
      omega

/-- What taking `count` of an id makes of the slots, `n` of them emptied. -/
structure Taken (id : Nat) (count : Int) (l l' : List (Item Nat)) (n : Nat) : Prop where
  total : total id l' = total id l - count
  other : ∀ k, k ≠ id → own k l' = own k l
  slot : ∀ v ∈ l', ∃ u ∈ l, u.id = v.id ∧ v.count ≤ u.count
  positive : Positive l'
  length : l'.length + n = l.length

theorem Taken.cons {id : Nat} {count : Int} {l l' : List (Item Nat)} {n : Nat} (h : Taken id count l l' n) {v : Item Nat}
    (hv : 0 < v.count) : Taken id count (v :: l) (v :: l') n := by
  refine ⟨?_, fun k hk => ?_, fun u hu => ?_, fun u hu => ?_, ?_⟩
  · rw [total_cons, total_cons, h.total]
    omega
  · rw [own_cons, own_cons, h.other k hk]
  · rcases List.mem_cons.1 hu with rfl | hu
    · exact ⟨u, List.mem_cons_self, rfl, le_refl _⟩
    · obtain ⟨w, hw, he⟩ := h.slot u hu
      exact ⟨w, List.mem_cons_of_mem _ hw, he⟩
  · rcases List.mem_cons.1 hu with rfl | hu
    · exact hv
    · exact h.positive u hu
  · rw [List.length_cons, List.length_cons, ← h.length]
    omega

theorem Taken.drop {id : Nat} {count : Int} {l l' : List (Item Nat)} {n : Nat} {v : Item Nat} (hv : v.id = id)
    (h : Taken id (count - v.count) l l' n) : Taken id count (v :: l) l' (n + 1) := by
  refine ⟨?_, fun k hk => ?_, fun u hu => ?_, h.positive, ?_⟩
  · rw [total_cons, if_pos hv, h.total]
    omega
  · rw [own_cons, if_neg (fun e => hk (e.symm.trans hv)), h.other k hk]
  · obtain ⟨w, hw, he⟩ := h.slot u hu
    exact ⟨w, List.mem_cons_of_mem _ hw, he⟩
  · rw [List.length_cons, ← h.length]
    omega

theorem Taken.nothing (id : Nat) {l : List (Item Nat)} (hp : Positive l) : Taken id 0 l l 0 :=
  ⟨(sub_zero _).symm, fun _ _ => rfl, fun v hv => ⟨v, hv, rfl, le_refl _⟩, hp, rfl⟩

/-- **The scan of the deduction takes exactly what was asked**, by induction on the slots. -/
theorem takeBack_taken (id : Nat) : ∀ {l : List (Item Nat)} {count : Int}, Positive l → 0 < count → count ≤ total id l →
    Taken id count l (takeBack id l count).1 (takeBack id l count).2
  | [], count, _, hc, hle => by
    rw [total_nil] at hle
    omega
  | v :: l, count, hp, hc, hle => by
    have hv := hp v List.mem_cons_self
    have hl := Positive.tail hp
    rw [total_cons] at hle
    unfold takeBack
    split
    · rename_i hid
      rw [if_pos hid] at hle
      split
      · rename_i hlt
        refine ⟨?_, fun k hk => ?_, fun u hu => ?_, fun u hu => ?_, rfl⟩
        · simp only [total_cons, if_pos hid]
          omega
        · have hne : v.id ≠ k := fun e => hk (e.symm.trans hid)
          simp only [own_cons, if_neg hne]
        · rcases List.mem_cons.1 hu with rfl | hu
          · refine ⟨v, List.mem_cons_self, rfl, ?_⟩
            show v.count - count ≤ v.count
            omega
          · exact ⟨u, List.mem_cons_of_mem _ hu, rfl, le_refl _⟩
        · rcases List.mem_cons.1 hu with rfl | hu
          · show 0 < v.count - count
            omega
          · exact hl u hu
      · split
        · have he : count = v.count := by omega
          have h0 := Taken.nothing id hl
          rw [← sub_self v.count, ← he] at h0
          exact Taken.drop hid (he ▸ h0)
        · exact (takeBack_taken id hl (by omega) (by omega)).drop hid
    · rename_i hid
      rw [if_neg hid, zero_add] at hle
      exact (takeBack_taken id hl hc hle).cons hv

theorem positive_reverse {l : List (Item Nat)} (hp : Positive l) : Positive l.reverse :=
  fun v hv => hp v (List.mem_reverse.1 hv)

theorem canUseItem_ok {b : Backpack} (hp : Positive b.items) (id : Nat) (count : Int) :
    b.canUseItem id count = .ok () ↔ id ≠ 0 ∧ 0 < count ∧ count ≤ b.getItemCount id := by
  unfold Backpack.canUseItem Backpack.getItemCount
  by_cases h : id = 0 ∨ count ≤ 0
  · rw [if_pos h]
    constructor
    · intro he
      cases he
    · rintro ⟨h1, h2, -⟩
      omega
  · have hc : 0 < count := by omega
    have hshort : 0 < useRest id b.items.reverse count ↔ total id b.items < count := by
      rw [useRest_pos id (positive_reverse hp) hc, total_reverse]
    rw [if_neg h]
    by_cases hlt : total id b.items < count
    · rw [if_pos (hshort.2 hlt)]
      constructor
      · intro he
        cases he
      · rintro ⟨-, -, h3⟩
        omega
    · rw [if_neg (fun hs => hlt (hshort.1 hs))]
      exact ⟨fun _ => ⟨fun e => h (.inl e), hc, by omega⟩, fun _ => rfl⟩

/-- **What deducting `l` makes of a backpack.**  The counter keeps pace with the slots; every id has lost what was asked
of it; the slots of other ids stay; a slot has at most what one had before. -/
structure Used (b : Backpack) (l : List (Item Nat)) (b' : Backpack) : Prop where
  maxSize : b'.maxSize = b.maxSize
  pace : b'.curSize - b'.items.length = b.curSize - b.items.length
  total : ∀ k, total k b'.items = total k b.items - total k l
  other : ∀ k, k ∉ ids l → own k b'.items = own k b.items
  slot : ∀ v ∈ b'.items, ∃ u ∈ b.items, u.id = v.id ∧ v.count ≤ u.count
  positive : Positive b'.items
  length : b'.items.length ≤ b.items.length

theorem Used.refl {b : Backpack} (hp : Positive b.items) : Used b [] b :=
  ⟨rfl, rfl, fun k => by simp, fun _ _ => rfl, fun v hv => ⟨v, hv, rfl, le_refl _⟩, hp, le_refl _⟩

theorem Used.trans {b b₁ b₂ : Backpack} {v : Item Nat} {l : List (Item Nat)} (h : Used b [v] b₁) (h' : Used b₁ l b₂) :
    Used b (v :: l) b₂ := by
  refine ⟨h'.maxSize.trans h.maxSize, h'.pace.trans h.pace, fun k => ?_, fun k hk => ?_, fun u hu => ?_, h'.positive,
    le_trans h'.length h.length⟩
  · rw [h'.total k, h.total k, total_cons, total_cons, total_nil]
    omega
  · have hkv : k ∉ ids [v] := fun hv => hk (List.mem_cons.2 (.inl (List.mem_singleton.1 hv)))
    rw [h'.other k (fun hl => hk (List.mem_cons_of_mem _ hl)), h.other k hkv]
  · obtain ⟨u₁, hu₁, he₁, hle₁⟩ := h'.slot u hu
    obtain ⟨u₀, hu₀, he₀, hle₀⟩ := h.slot u₁ hu₁
    exact ⟨u₀, hu₀, he₀.trans he₁, le_trans hle₁ hle₀⟩

theorem useItemInner_used {b : Backpack} (hp : Positive b.items) {id : Nat} {count : Int} (hc : 0 < count)
    (hle : count ≤ b.getItemCount id) : Used b [⟨id, count⟩] (b.useItemInner id count).1 := by
  unfold Backpack.getItemCount at hle
  rw [← total_reverse] at hle
  have h := takeBack_taken id (positive_reverse hp) hc hle
  unfold Backpack.useItemInner
  generalize takeBack id b.items.reverse count = r at h ⊢
  have hlen := h.length
  rw [List.length_reverse] at hlen
  refine ⟨rfl, ?_, fun k => ?_, fun k hk => ?_, fun v hv => ?_, positive_reverse h.positive, ?_⟩
  · simp only [List.length_reverse]
    omega
  · simp only [total_reverse, total_cons, total_nil, add_zero]
    by_cases hk : id = k
    · subst hk
      rw [h.total, total_reverse, if_pos rfl]
    · have ho := total_congr (h.other k (Ne.symm hk))
      rw [total_reverse] at ho
      rw [ho, if_neg hk, sub_zero]
  · have ho := h.other k (fun e => hk (List.mem_singleton.2 e))
    rw [own_reverse] at ho
    simp only [own_reverse, ho, List.reverse_reverse]
  · obtain ⟨u, hu, he⟩ := h.slot v (List.mem_reverse.1 hv)
    exact ⟨u, List.mem_reverse.1 hu, he⟩
  · simp only [List.length_reverse]
    omega

theorem foldl_useTurn_used : ∀ (l : List (Item Nat)) (b : Backpack) (flag : Bool), Positive b.items → (ids l).Nodup →
    (∀ v ∈ l, 0 < v.count ∧ v.count ≤ b.getItemCount v.id) → Used b l (l.foldl useTurn (b, flag)).1
  | [], b, _, hp, _, _ => .refl hp
  | v :: l, b, flag, hp, hn, h => by
    obtain ⟨hv, hn⟩ := List.nodup_cons.1 hn
    obtain ⟨hc, hle⟩ := h v List.mem_cons_self
    have hu := useItemInner_used hp hc hle
    rw [List.foldl_cons]
    refine hu.trans (foldl_useTurn_used l _ _ hu.positive hn (fun u hul => ?_))
    obtain ⟨hcu, hleu⟩ := h u (List.mem_cons_of_mem _ hul)
    refine ⟨hcu, le_of_le_of_eq hleu ?_⟩
    -- what is held of the other ids is what it was
    have hne : u.id ∉ ids [(⟨v.id, v.count⟩ : Item Nat)] := by
      intro hm
      exact hv (List.mem_singleton.1 hm ▸ List.mem_map_of_mem hul)
    exact (total_congr (hu.other u.id hne)).symm

theorem useEach_used {b : Backpack} (hp : Positive b.items) {l : List (Item Nat)} (hn : (ids l).Nodup)
    (h : ∀ v ∈ l, 0 < v.count ∧ v.count ≤ b.getItemCount v.id) : Used b l (b.useEach l).1 :=
  foldl_useTurn_used l b false hp hn h

section Requests

variable (conf : Conf) (ord : Visit) {c : BackpackCtrl}

def held (c : BackpackCtrl) (id : Nat) : Int :=
  match conf.getBackpackType id with
  | some b => (c.backpacks b).getItemCount id
  | none => 0

theorem known_ne_zero {id : Nat} {b : BagType} (h : conf.getBackpackType id = some b) : id ≠ 0 := by
  rintro rfl
  unfold Conf.getBackpackType at h
  rw [conf.zero] at h
  cases h

theorem firstErr_canUse (hp : ∀ b, Positive (c.backpacks b).items) (m : List (Item Nat))
    (extra : BagType → Item Nat → Except Err Unit) :
    firstErr ord (classify conf m) (fun b l => l.forM (fun v => do
      (c.backpacks b).canUseItem v.id v.count
      extra b v)) = .ok () ↔
    ∀ b, ∀ v ∈ (classify conf m b).getD [], (0 < v.count ∧ v.count ≤ (c.backpacks b).getItemCount v.id) ∧
      extra b v = .ok () := by
  have hid : ∀ b, ∀ v ∈ (classify conf m b).getD [], v.id ≠ 0 := by
    intro b v hv
    unfold classify at hv
    simp only at hv
    split at hv
    · cases hv
    · have := (List.mem_filter.1 (List.mem_filter.1 hv).1).2
      exact known_ne_zero conf (by simpa using this)
  rw [firstErr_each]
  constructor
  · intro h b v hv
    obtain ⟨h1, h2⟩ := h b v hv
    exact ⟨((canUseItem_ok (hp b) _ _).1 h1).2, h2⟩
  · intro h b v hv
    obtain ⟨h1, h2⟩ := h b v hv
    exact ⟨(canUseItem_ok (hp b) _ _).2 ⟨hid b v hv, h1⟩, h2⟩

theorem classify_sublist (m : List (Item Nat)) (b : BagType) : ((classify conf m b).getD []).Sublist m := by
  unfold classify
  simp only
  split
  · exact List.nil_sublist m
  · exact List.filter_sublist.trans List.filter_sublist

theorem deductMerged_ok (hp : ∀ b, Positive (c.backpacks b).items) (m : List (Item Nat)) :
    (c.deductMerged conf ord m).1 = .ok () ↔
      ∀ b, ∀ v ∈ (classify conf m b).getD [], 0 < v.count ∧ v.count ≤ (c.backpacks b).getItemCount v.id := by
  have hseq : ∀ x : Except Err Unit, (do x; .ok ()) = x := by
    intro x
    cases x <;> rfl
  have h := firstErr_canUse conf ord hp m (fun _ _ => .ok ())
  simp only [hseq, and_true] at h
  rw [← h]
  unfold BackpackCtrl.deductMerged
  simp only
  cases hf : firstErr ord (classify conf m) (fun b l => l.forM (fun v => (c.backpacks b).canUseItem v.id v.count)) with
  | ok u => exact Iff.rfl
  | error e => exact Iff.rfl

/-- **A deduction is refused and changes nothing, or every backpack gives up its share.** -/
theorem deductMerged_cases (hp : ∀ b, Positive (c.backpacks b).items) {m : List (Item Nat)} (hn : (ids m).Nodup) :
    (∃ e, c.deductMerged conf ord m = (.error e, c)) ∨ (c.deductMerged conf ord m).1 = .ok () ∧
      ∀ b, Used (c.backpacks b) ((classify conf m b).getD []) ((c.deductMerged conf ord m).2.backpacks b) := by
  have hok := deductMerged_ok conf ord hp m
  unfold BackpackCtrl.deductMerged at hok ⊢
  simp only at hok ⊢
  cases hf : firstErr ord (classify conf m) (fun b l => l.forM (fun v => (c.backpacks b).canUseItem v.id v.count)) with
  | error e => exact .inl ⟨e, rfl⟩
  | ok u =>
    rw [hf] at hok
    refine .inr ⟨rfl, fun b => ?_⟩
    simp only
    rw [visit_backpacks]
    exact useEach_used (hp b) (hn.sublist ((classify_sublist conf m b).map Item.id)) (hok.1 rfl b)

theorem deductMerged_eq {m : List (Item Nat)} (h : (c.deductMerged conf ord m).1 = .ok ()) :
    (c.deductMerged conf ord m).2 = c.visit ord (fun b p => p.useEach ((classify conf m b).getD [])) := by
  unfold BackpackCtrl.deductMerged at h ⊢
  simp only at h ⊢
  cases hf : firstErr ord (classify conf m) (fun b l => l.forM (fun v => (c.backpacks b).canUseItem v.id v.count)) with
  | error e =>
    rw [hf] at h
    cases h
  | ok u => rfl

theorem useItem_unchecked (logic : Logic) (b : Backpack) {id : Nat} (h : conf.getType id ≠ none) (count : Int) :
    (b.useItem conf logic id count false).2 = b.useItemInner id count := by
  obtain ⟨tp, ht⟩ := Option.ne_none_iff_exists'.1 h
  unfold Backpack.useItem
  rw [ht]
  rfl

theorem foldl_useItemsTurn (logic : Logic) : ∀ (l : List (Item Nat)) (extra : List (Item Nat)) (r : Backpack × Bool),
    (∀ v ∈ l, conf.getType v.id ≠ none) → (l.foldl (useItemsTurn conf logic) (extra, r)).2 = l.foldl useTurn r
  | [], _, _, _ => rfl
  | v :: l, extra, r, h => by
    have hv := useItem_unchecked conf logic r.1 (h v List.mem_cons_self) v.count
    have hturn : (useItemsTurn conf logic (extra, r) v).2 = useTurn r v := by
      unfold useItemsTurn useTurn
      simp only
      rw [hv]
    rw [List.foldl_cons, List.foldl_cons, ← hturn]
    exact foldl_useItemsTurn logic l _ _ (fun u hu => h u (List.mem_cons_of_mem _ hu))

theorem getType_ne_none {id : Nat} {b : BagType} (h : conf.getBackpackType id = some b) : conf.getType id ≠ none := by
  unfold Conf.getBackpackType at h
  unfold Conf.getType
  cases hg : conf.getItem id with
  | none =>
    rw [hg] at h
    cases h
  | some info => simp

theorem useLoop_share (logic : Logic) (p : Backpack) (items : List (Item Nat)) (b : BagType) :
    (p.useLoop conf logic ((classify conf (merge items) b).getD [])).2 = p.useEach (share conf items b) :=
  foldl_useItemsTurn conf logic _ _ _ (fun _ hv => getType_ne_none conf ((mem_share conf).1 hv).2.1)

/-- **A use of several items is refused and changes nothing, or every backpack gives up its share.** -/
theorem useItems_cases (hp : ∀ b, Positive (c.backpacks b).items) (logic : Logic) (items : List (Item Nat)) :
    (∃ e, c.useItems conf ord logic items = (.error e, c)) ∨ (∃ extra, (c.useItems conf ord logic items).1 = .ok extra) ∧
      ∀ b, Used (c.backpacks b) (share conf items b) ((c.useItems conf ord logic items).2.backpacks b) := by
  have hok := firstErr_canUse conf ord hp (merge items) (fun b v => useCheck logic b.toNat v.id v.count)
  unfold BackpackCtrl.useItems
  split
  · exact .inl ⟨_, rfl⟩
  · simp only
    cases hf : firstErr ord (classify conf (merge items)) (fun b l => l.forM (fun v => do
      (c.backpacks b).canUseItem v.id v.count
      useCheck logic b.toNat v.id v.count)) with
    | error e => exact .inl ⟨e, rfl⟩
    | ok u =>
      refine .inr ⟨⟨_, rfl⟩, fun b => ?_⟩
      simp only
      rw [visit_backpacks, useLoop_share]
      exact useEach_used (hp b) (share_nodup conf items b) (fun v hv => (hok.1 hf b v hv).1)

theorem put_unchanged (c : BackpackCtrl) (b : BagType) : c.put b (c.backpacks b, false) = c := by
  unfold BackpackCtrl.put
  simp

def Usable (logic : Logic) (c : BackpackCtrl) (id : Nat) (count : Int) : Prop :=
  0 < count ∧ count ≤ held conf c id ∧ ∃ tp, conf.getType id = some tp ∧ useCheck logic tp id count = .ok ()

/-- The effect of the item fails. -/
def EffectFails (logic : Logic) (id : Nat) (count : Int) : Prop :=
  ∃ tp e, conf.getType id = some tp ∧ useEffect logic tp id count = .error e

theorem useItem_checked (logic : Logic) {b : Backpack} (hp : Positive b.items) {id tp : Nat} (hid : id ≠ 0)
    (ht : conf.getType id = some tp) (count : Int) :
    (¬(0 < count ∧ count ≤ b.getItemCount id ∧ useCheck logic tp id count = .ok ()) ∧
        ∃ e, b.useItem conf logic id count true = (.error e, b, false)) ∨
      (0 < count ∧ count ≤ b.getItemCount id ∧ useCheck logic tp id count = .ok ()) ∧
        b.useItem conf logic id count true = (useEffect logic tp id count, b.useItemInner id count) := by
  have hcan := canUseItem_ok hp id count
  unfold Backpack.useItem
  rw [ht]
  simp only [if_true]
  cases hch : b.canUseItem id count with
  | error e =>
    refine .inl ⟨fun h => ?_, e, rfl⟩
    have := hcan.2 ⟨hid, h.1, h.2.1⟩
    rw [hch] at this
    cases this
  | ok u =>
    obtain ⟨-, hpos, hle⟩ := hcan.1 hch
    cases hchk : useCheck logic tp id count with
    | error e =>
      refine .inl ⟨?_, e, rfl⟩
      rintro ⟨-, -, hk⟩
      cases hk
    | ok u' => exact .inr ⟨⟨hpos, hle, rfl⟩, rfl⟩

/-- **A use is refused and changes nothing, or the items are deducted**, whether the effect fails or not. -/
theorem useItem_cases (hp : ∀ b, Positive (c.backpacks b).items) (logic : Logic) (id : Nat) (count : Int) :
    (¬Usable conf logic c id count ∧ ∃ e, c.useItem conf logic id count = (.error e, c)) ∨
      Usable conf logic c id count ∧
      (EffectFails conf logic id count ↔ ∃ e, (c.useItem conf logic id count).1 = .error e) ∧
      ∃ b, conf.getBackpackType id = some b ∧
        (c.useItem conf logic id count).2 = c.put b ((c.backpacks b).useItemInner id count) ∧
        Used (c.backpacks b) [⟨id, count⟩] ((c.backpacks b).useItemInner id count).1 := by
  unfold BackpackCtrl.useItem
  cases hg : conf.getItem id with
  | none =>
    refine .inl ⟨?_, _, if_pos (.inr (.inr rfl))⟩
    rintro ⟨-, -, tp, ht, -⟩
    unfold Conf.getType at ht
    rw [hg] at ht
    cases ht
  | some info =>
    have hb : conf.getBackpackType id = some info.backpackType := congrArg (Option.map ItemInfo.backpackType) hg
    have ht : conf.getType id = some info.type := congrArg (Option.map ItemInfo.type) hg
    have hid := known_ne_zero conf hb
    have hheld : held conf c id = (c.backpacks info.backpackType).getItemCount id := by
      unfold held
      rw [hb]
    have husable : Usable conf logic c id count ↔ 0 < count ∧ count ≤ (c.backpacks info.backpackType).getItemCount id ∧
        useCheck logic info.type id count = .ok () := by
      unfold Usable
      rw [hheld, ht]
      simp
    by_cases hc : count ≤ 0
    · refine .inl ⟨fun h => ?_, _, if_pos (.inr (.inl hc))⟩
      have := h.1
      omega
    · have hgo : ¬(id = 0 ∨ count ≤ 0 ∨ some info = none) := by
        rintro (h | h | h)
        · exact hid h
        · exact hc h
        · cases h
      rw [if_neg hgo, hb, husable]
      simp only
      rcases useItem_checked conf logic (hp info.backpackType) hid ht count with ⟨hn, e, he⟩ | ⟨hu, he⟩
      · refine .inl ⟨hn, e, ?_⟩
        rw [he]
        exact Prod.ext rfl (put_unchanged c _)
      · refine .inr ⟨hu, ?_, info.backpackType, rfl, by rw [he], useItemInner_used (hp _) hu.1 hu.2.1⟩
        rw [he]
        unfold EffectFails
        rw [ht]
        simp

end Requests

/-- **What a granted deduction does**: every id of a backpack has lost what was asked for it, nothing else changed, and
the counter went down by the slots removed. -/
structure Deducted (conf : Conf) (c : BackpackCtrl) (items : List (Item Nat)) (c' : BackpackCtrl) : Prop where
  total : ∀ b k, total k (c'.backpacks b).items =
    total k (c.backpacks b).items - if conf.getBackpackType k = some b then total k items else 0
  other : ∀ b k, k ∉ ids items ∨ conf.getBackpackType k ≠ some b →
    own k (c'.backpacks b).items = own k (c.backpacks b).items
  size : ∀ b, (c'.backpacks b).curSize =
    (c.backpacks b).curSize - ((c.backpacks b).items.length - (c'.backpacks b).items.length)
  maxSize : ∀ b, (c'.backpacks b).maxSize = (c.backpacks b).maxSize

def DeductsExactly (conf : Conf) (ord : Visit) (c : BackpackCtrl) (items : List (Item Nat)) : Prop :=
  ((c.deductItems conf ord items).1 = .ok () ↔ ∀ id, total id items ≤ held conf c id) ∧
    ((c.deductItems conf ord items).1 = .ok () → Deducted conf c items (c.deductItems conf ord items).2) ∧
    ((c.deductItems conf ord items).1 ≠ .ok () → (c.deductItems conf ord items).2 = c)

def SameSlots (c c' : BackpackCtrl) : Prop := ∀ b, (c'.backpacks b).items = (c.backpacks b).items

theorem deductsExactly (conf : Conf) (ord : Visit) {c : BackpackCtrl} (hp : ∀ b, Positive (c.backpacks b).items)
    {items : List (Item Nat)} (hne : items ≠ []) (hpos : Positive items)
    (hknown : ∀ v ∈ items, conf.getItem v.id ≠ none) : DeductsExactly conf ord c items := by
  have heq : c.deductItems conf ord items = c.deductMerged conf ord (merge items) := if_neg hne
  have hmem : ∀ b k, k ∈ ids (share conf items b) ↔ k ∈ ids items ∧ conf.getBackpackType k = some b :=
    fun b k => mem_ids_share conf hpos
  have hok : (c.deductItems conf ord items).1 = .ok () ↔ ∀ id, total id items ≤ held conf c id := by
    rw [heq, deductMerged_ok conf ord hp]
    constructor
    · intro h id
      by_cases hid : id ∈ ids items
      · obtain ⟨v, hv, rfl⟩ := List.mem_map.1 hid
        obtain ⟨info, hinfo⟩ := Option.ne_none_iff_exists'.1 (hknown v hv)
        have ht : conf.getBackpackType v.id = some info.backpackType := congrArg (Option.map ItemInfo.backpackType) hinfo
        obtain ⟨u, hu, he⟩ := List.mem_map.1 ((hmem info.backpackType v.id).2 ⟨hid, ht⟩)
        have hle := (h info.backpackType u hu).2
        rw [merge_mem ((mem_share conf).1 hu).1, he] at hle
        unfold held
        rw [ht]
        exact hle
      · rw [total_eq_zero_of_not_mem hid]
        unfold held
        split
        · exact total_nonneg id (hp _)
        · exact le_refl _
    · intro h b v hv
      obtain ⟨hm, ht, -⟩ := (mem_share conf).1 hv
      have hle := h v.id
      unfold held at hle
      rw [ht] at hle
      rw [merge_mem hm]
      exact ⟨merge_mem hm ▸ merge_positive hpos v hm, hle⟩
  have hcases := deductMerged_cases conf ord hp (merge_merged items).nodup
  rw [← heq] at hcases
  refine ⟨hok, fun hgranted => ?_, fun hnot => ?_⟩
  · rcases hcases with ⟨e, he⟩ | ⟨-, hall⟩
    · rw [he] at hgranted
      cases hgranted
    · refine ⟨fun b k => ?_, fun b k hk => ?_, fun b => ?_, fun b => (hall b).maxSize⟩
      · rw [(hall b).total k]
        exact congrArg _ (total_share conf items b k)
      · refine (hall b).other k (fun hm => ?_)
        obtain ⟨h1, h2⟩ := (hmem b k).1 hm
        rcases hk with hk | hk
        · exact hk h1
        · exact hk h2
      · have := (hall b).pace
        omega
  · rcases hcases with ⟨e, he⟩ | ⟨hgranted, -⟩
    · rw [he]
    · exact absurd hgranted hnot

theorem useItems_sameSlots (conf : Conf) (ord : Visit) {c : BackpackCtrl} (hp : ∀ b, Positive (c.backpacks b).items)
    (logic : Logic) (items : List (Item Nat)) {e : Err} (h : (c.useItems conf ord logic items).1 = .error e) :
    SameSlots c (c.useItems conf ord logic items).2 := by
  rcases useItems_cases conf ord hp logic items with ⟨e', he⟩ | ⟨⟨extra, hx⟩, -⟩
  · rw [he]
    exact fun _ => rfl
  · rw [h] at hx
    cases hx

/-- **A failed use leaves the slots alone exactly when it did not fail in the effect.** -/
theorem useItem_sameSlots_iff (conf : Conf) {c : BackpackCtrl} (hp : ∀ b, Positive (c.backpacks b).items) (logic : Logic)
    (id : Nat) (count : Int) :
    (∀ e, (c.useItem conf logic id count).1 = .error e → SameSlots c (c.useItem conf logic id count).2) ↔
      ¬(Usable conf logic c id count ∧ EffectFails conf logic id count) := by
  rcases useItem_cases conf hp logic id count with ⟨hn, e, he⟩ | ⟨hu, hfail, b, hb, hst, hused⟩
  · rw [he]
    exact ⟨fun _ h => hn h.1, fun _ _ _ _ => rfl⟩
  · constructor
    · rintro h ⟨-, hf⟩
      obtain ⟨e, he⟩ := hfail.1 hf
      -- the items are gone
      have hsame := h e he b
      rw [hst] at hsame
      have htot := hused.total id
      have hitems : ((c.backpacks b).useItemInner id count).1.items = (c.backpacks b).items := by
        simpa [BackpackCtrl.put] using hsame
      rw [hitems, total_cons, if_pos rfl, total_nil, add_zero] at htot
      have hc : 0 < count := hu.1
      have : ({ id := id, count := count } : Item Nat).count = count := rfl
      omega
    · intro h e he
      exact absurd ⟨hu, hfail.2 ⟨e, he⟩⟩ h

def threeOf1001 : BackpackCtrl := ((BackpackCtrl.init none).addItems Conf.game .inOrder [⟨1001, 3⟩]).2

theorem threeOf1001_positive (b : BagType) : Positive (threeOf1001.backpacks b).items := by
  unfold Positive
  cases b <;> decide +kernel

end Pack
end Sncpp
