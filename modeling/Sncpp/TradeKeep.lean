import Mathlib.Algebra.BigOperators.Ring.Finset
import Sncpp.Trade
/-!
# TradeKeep — goods are conserved while calls get through

A good that a request has taken out of a backpack or of the market is in its hand until it is listed or handed on.
-/
namespace Sncpp
namespace Trade

open Pack Tally
open Co (Hands Deal)
open Co.Prog (get modify note ask)

section Packs

variable {c : BackpackCtrl}

theorem addItems_one (conf : Conf) (ord : Visit) (h : Sane c) (id : Nat) (count : Int) :
    Sane (c.addItems conf ord [⟨id, count⟩]).2 ∧
    ((c.addItems conf ord [⟨id, count⟩]).1 = .ok () → ∀ k, held conf (c.addItems conf ord [⟨id, count⟩]).2 k =
      held conf c k + if id = k then count else 0) ∧
    ((c.addItems conf ord [⟨id, count⟩]).1 ≠ .ok () → (c.addItems conf ord [⟨id, count⟩]).2 = c) := by
  rcases addItems_cases conf ord h.size [⟨id, count⟩] with ⟨e, he⟩ | ⟨hok, -, hall⟩
  · rw [he]
    exact ⟨h, nofun, fun _ => rfl⟩
  · refine ⟨⟨fun b => ?_, fun b => (hall b).1.positive (h.positive b)⟩, fun _ k => ?_, fun hno => absurd hok hno⟩
    · rw [(hall b).1.maxSize]
      exact (hall b).2
    · unfold held
      cases ht : conf.getBackpackType k with
      | some b =>
        simp only [Backpack.getItemCount]
        rw [(hall b).1.total k, total_share, if_pos ht, total_cons, total_nil, add_zero]
      | none =>
        -- an item without a type is refused
        have hne : id ≠ k := by
          rintro rfl
          have hnone : ∀ b, classify conf (merge [⟨id, count⟩]) b = none := by
            intro b
            simp [classify, merge, ht]
          unfold BackpackCtrl.addItems at hok
          simp [hnone] at hok
        simp [hne]

theorem deductItem_one (conf : Conf) (h : Sane c) (id : Nat) (count : Int) : Sane (c.deductItem conf id count).2 ∧
    ((c.deductItem conf id count).1 = .ok () → 0 < count ∧ ∀ k, held conf (c.deductItem conf id count).2 k =
      held conf c k - if id = k then count else 0) ∧
    ((c.deductItem conf id count).1 ≠ .ok () → (c.deductItem conf id count).2 = c) := by
  unfold BackpackCtrl.deductItem
  split
  · exact ⟨h, nofun, fun _ => rfl⟩
  · split
    · exact ⟨h, nofun, fun _ => rfl⟩
    · rename_i b hb
      simp only
      unfold Backpack.deductItem
      cases hcan : (c.backpacks b).canUseItem id count with
      | error e =>
        simp only
        rw [put_unchanged]
        exact ⟨h, nofun, fun _ => rfl⟩
      | ok u =>
        obtain ⟨-, hpos, hle⟩ := (canUseItem_ok (h.positive b) id count).1 hcan
        have hused := useItemInner_used (h.positive b) hpos hle
        have hpack : ∀ b', (c.put b ((c.backpacks b).useItemInner id count)).backpacks b' =
            if b' = b then ((c.backpacks b).useItemInner id count).1 else c.backpacks b' := by
          intro b'
          by_cases hbb : b' = b
          · subst hbb
            simp [BackpackCtrl.put]
          · simp [BackpackCtrl.put, hbb]
        refine ⟨⟨fun b' => ?_, fun b' => ?_⟩, fun _ => ⟨hpos, fun k => ?_⟩, fun hno => absurd rfl hno⟩
        · simp only [hpack]
          split
          · have h1 := hused.pace
            have h2 := hused.length
            have h3 := hused.maxSize
            have h4 := h.size b
            omega
          · exact h.size b'
        · simp only [hpack]
          split
          · exact hused.positive
          · exact h.positive b'
        · unfold held
          cases ht : conf.getBackpackType k with
          | some b' =>
            simp only [hpack, Backpack.getItemCount]
            split
            · rename_i hbb
              subst hbb
              rw [hused.total k, total_cons, total_nil, add_zero]
            · rename_i hbb
              have hne : id ≠ k := by
                rintro rfl
                rw [hb] at ht
                cases ht
                exact hbb rfl
              simp [hne]
          | none =>
            have hne : id ≠ k := by
              rintro rfl
              rw [hb] at ht
              cases ht
            simp [hne]

end Packs

abbrev Hand : Type := Good → Nat

def one (g : Good) : Hand := fun x => if x = g then 1 else 0

/-- **Every good is in one place**, and the backpacks changed by what was moved. -/
structure Even (conf : Conf) (s₀ : Svc) (h : Hand) (s : Svc) : Prop where
  sane : ∀ uid, Sane (s.packs uid)
  ledger : ∀ uid k, held conf (s.packs uid) k - owed s.notes uid k = held conf (s₀.packs uid) k - owed s₀.notes uid k
  spread : ∀ g, h g + (inMarket s g).toNat + (s.notes.given.map Prod.fst).count g = s.notes.listed.count g
  placed : ∀ {t i g}, s.goods t i = some g → g.type = t ∧ g.idx = i
  drawn : ∀ g ∈ s.notes.listed, g.idx < s.nextIdx
  idx : (s.notes.listed.map Good.idx).Nodup
  recorded : ∀ {uid i g}, s.records uid i = some g → Recorded s.notes.listed s.nextIdx uid i g

structure Since (s s' : Svc) : Prop where
  next : s.nextIdx ≤ s'.nextIdx
  listed : ∀ g ∈ s'.notes.listed, g ∈ s.notes.listed ∨ s.nextIdx ≤ g.idx

def deals (conf : Conf) (s₀ : Svc) : Hands Svc Hand where
  inv := Even conf s₀
  rely := Since
  refl _ := ⟨Nat.le_refl _, fun _ hg => .inl hg⟩
  trans h h' := by
    refine ⟨Nat.le_trans h.next h'.next, fun g hg => ?_⟩
    rcases h'.listed g hg with hg | hg
    · exact h.listed g hg
    · exact .inr (Nat.le_trans h.next hg)

variable {conf : Conf} {ord : Visit} {s₀ s : Svc} {h : Hand}

theorem Since.same {s' : Svc} (hnext : s'.nextIdx = s.nextIdx) (hl : s'.notes.listed = s.notes.listed) : Since s s' :=
  ⟨Nat.le_of_eq hnext.symm, fun _ hg => .inl (hl ▸ hg)⟩

theorem Recorded.since {s' : Svc} {uid i : Nat} {g : Good} (hr : Recorded s.notes.listed s.nextIdx uid i g)
    (hv : Since s s') :
    Recorded s'.notes.listed s'.nextIdx uid i g := by
  refine ⟨hr.idx, hr.uid, Nat.lt_of_lt_of_le hr.drawn hv.next, fun x hx he => ?_⟩
  rcases hv.listed x hx with hold | hnew
  · exact hr.same x hold he
  · have := hr.drawn
    omega

namespace Even

theorem same_idx (he : Even conf s₀ h s) {g g' : Good} (hg : g ∈ s.notes.listed) (hg' : g' ∈ s.notes.listed)
    (hi : g.idx = g'.idx) : g = g' :=
  List.inj_on_of_nodup_map he.idx hg hg' hi

theorem listed_of_market (he : Even conf s₀ h s) {t i : Nat} {g : Good} (hg : s.goods t i = some g) :
    g ∈ s.notes.listed := by
  obtain ⟨rfl, rfl⟩ := he.placed hg
  have := he.spread g
  have hin : inMarket s g = true := decide_eq_true hg
  rw [hin] at this
  refine List.count_pos_iff.1 ?_
  simp only [Bool.toNat_true] at this
  omega

theorem setPack (he : Even conf s₀ h s) {uid : Nat} {c : BackpackCtrl} {l : Log} (hc : Sane c)
    (hledger : ∀ k, held conf c k - owed l uid k = held conf (s.packs uid) k - owed s.notes uid k)
    (hother : ∀ u k, u ≠ uid → owed l u k = owed s.notes u k) {h' : Hand}
    (hspread : ∀ g, h' g + (l.given.map Prod.fst).count g = h g + (s.notes.given.map Prod.fst).count g)
    (hl : l.listed = s.notes.listed) : Even conf s₀ h' { s.setPack uid c with notes := l } := by
  refine ⟨fun u => ?_, fun u k => ?_, fun g => ?_, he.placed, ?_, ?_, ?_⟩
  · by_cases hu : u = uid
    · subst hu
      simpa [Svc.setPack] using hc
    · simpa [Svc.setPack, hu] using he.sane u
  · by_cases hu : u = uid
    · subst hu
      simp only [Svc.setPack, Function.update_self]
      rw [hledger k]
      exact he.ledger u k
    · simp only [Svc.setPack, Function.update_of_ne hu]
      rw [hother u k hu]
      exact he.ledger u k
  · have h1 := he.spread g
    have h2 := hspread g
    have h3 : inMarket { s.setPack uid c with notes := l } g = inMarket s g := rfl
    rw [h3]
    show _ = List.count g l.listed
    rw [hl]
    show h' g + _ + List.count g (l.given.map Prod.fst) = _
    omega
  · show ∀ g ∈ l.listed, _
    rw [hl]
    exact he.drawn
  · show (l.listed.map Good.idx).Nodup
    rw [hl]
    exact he.idx
  · intro u i g hr
    show Recorded l.listed _ _ _ _
    rw [hl]
    exact he.recorded hr

theorem setGood (he : Even conf s₀ h s) {t i : Nat} {o : Option Good} {h' : Hand}
    (ho : ∀ g, o = some g → g.type = t ∧ g.idx = i)
    (hspread : ∀ g, g.type = t → g.idx = i → h' g + (decide (o = some g)).toNat = h g + (inMarket s g).toNat)
    (hother : ∀ g, ¬(g.type = t ∧ g.idx = i) → h' g = h g) : Even conf s₀ h' (s.setGood t i o) := by
  have hgoods : ∀ t' i', (s.setGood t i o).goods t' i' = if t' = t ∧ i' = i then o else s.goods t' i' := by
    intro t' i'
    by_cases ht : t' = t
    · subst ht
      by_cases hi : i' = i
      · subst hi
        simp [Svc.setGood]
      · simp [Svc.setGood, hi]
    · simp [Svc.setGood, ht]
  refine ⟨he.sane, he.ledger, fun g => ?_, fun {t' i' g} hg => ?_, he.drawn, he.idx, he.recorded⟩
  · have h1 := he.spread g
    unfold inMarket
    rw [hgoods]
    by_cases hg : g.type = t ∧ g.idx = i
    · rw [if_pos hg]
      have h2 := hspread g hg.1 hg.2
      show h' g + _ + List.count g (s.notes.given.map Prod.fst) = List.count g s.notes.listed
      omega
    · rw [if_neg hg, hother g hg]
      exact h1
  · rw [hgoods] at hg
    split at hg
    · rename_i hti
      rw [hti.1, hti.2]
      exact ho g hg
    · exact he.placed hg

theorem setRecord (he : Even conf s₀ h s) {uid i : Nat} {o : Option Good}
    (ho : ∀ g, o = some g → Recorded s.notes.listed s.nextIdx uid i g) : Even conf s₀ h (s.setRecord uid i o) := by
  refine ⟨he.sane, he.ledger, he.spread, he.placed, he.drawn, he.idx, fun {u j g} hr => ?_⟩
  by_cases hu : u = uid
  · subst hu
    by_cases hj : j = i
    · subst hj
      exact ho g (by simpa [Svc.setRecord] using hr)
    · exact he.recorded (by simpa [Svc.setRecord, hj] using hr)
  · exact he.recorded (by simpa [Svc.setRecord, hu] using hr)

end Even

theorem one_self (g : Good) : one g g = 1 := if_pos rfl

theorem one_of_ne {g x : Good} (hx : x ≠ g) : one g x = 0 := if_neg hx

theorem Even.in_hand {g : Good} (he : Even conf s₀ (one g + h) s) : g ∈ s.notes.listed ∧ h g = 0 ∧
    s.goods g.type g.idx = none ∧ g ∉ s.notes.given.map Prod.fst := by
  have hspread := he.spread g
  rw [Pi.add_apply, one_self] at hspread
  have hle : s.notes.listed.count g ≤ 1 := List.nodup_iff_count_le_one.1 (he.idx.of_map _) g
  have hg : g ∈ s.notes.listed := List.count_pos_iff.1 (by omega)
  refine ⟨hg, by omega, ?_, List.count_eq_zero.1 (by omega)⟩
  cases hm : s.goods g.type g.idx with
  | none => rfl
  | some g' =>
    have hsame : g' = g := he.same_idx (he.listed_of_market hm) hg (he.placed hm).2
    subst hsame
    have hin : inMarket s g' = true := decide_eq_true hm
    rw [hin] at hspread
    simp only [Bool.toNat_true] at hspread
    omega

theorem owed_give (l : Log) (g : Good) (uid u k : Nat) :
    owed (l.give g uid) u k = owed l u k + if uid = u ∧ g.id = k then g.count else 0 := by
  simp only [owed, Log.give, List.map_cons, List.sum_cons]
  omega

theorem owed_pay (l : Log) (uid : Nat) (amount : Int) (u k : Nat) :
    owed (l.pay uid amount) u k = owed l u k - if uid = u ∧ gold = k then amount else 0 := by
  simp only [owed, Log.pay]
  by_cases hu : u = uid
  · subst hu
    by_cases hk : k = gold
    · subst hk
      simp
      omega
    · simp [hk, Ne.symm hk]
  · simp [hu, Ne.symm hu]

theorem owed_list (l : Log) (g : Good) (u k : Nat) :
    owed { l with listed := g :: l.listed } u k = owed l u k - if g.uid = u ∧ g.id = k then g.count else 0 := by
  simp only [owed, List.map_cons, List.sum_cons]
  omega

theorem setPack_self (s : Svc) (uid : Nat) : s.setPack uid (s.packs uid) = s := by
  unfold Svc.setPack
  rw [Function.update_eq_self]

theorem addItem_since {uid id : Nat} {count : Int} {log : Log → Log} (hl : ∀ l, (log l).listed = l.listed) :
    Since s (addItem conf ord uid id count log s).2 := by
  unfold addItem
  by_cases hr : ((s.packs uid).addItems conf ord [⟨id, count⟩]).1 = .ok ()
  · simp only [if_pos hr]
    exact .same rfl (hl _)
  · simp only [if_neg hr]
    exact .same rfl rfl

theorem addItem_none {uid id : Nat} {count : Int} {log : Log → Log} (hs : Sane (s.packs uid))
    (hno : (addItem conf ord uid id count log s).1 = none) : (addItem conf ord uid id count log s).2 = s := by
  obtain ⟨-, -, hsame⟩ := addItems_one conf ord hs id count
  unfold addItem at hno ⊢
  by_cases hr : ((s.packs uid).addItems conf ord [⟨id, count⟩]).1 = .ok ()
  · simp [hr] at hno
  · simp only [if_neg hr, hsame hr, setPack_self]

theorem addItem_give {g : Good} {uid : Nat} (he : Even conf s₀ (one g + h) s)
    (hok : (addItem conf ord uid g.id g.count (fun l => l.give g uid) s).1.isSome = true) :
    Even conf s₀ h (addItem conf ord uid g.id g.count (fun l => l.give g uid) s).2 := by
  obtain ⟨hsane, hadd, -⟩ := addItems_one conf ord (he.sane uid) g.id g.count
  unfold addItem at hok ⊢
  by_cases hr : ((s.packs uid).addItems conf ord [⟨g.id, g.count⟩]).1 = .ok ()
  · simp only [if_pos hr]
    refine he.setPack hsane (fun k => ?_) (fun u k hu => ?_) (fun x => ?_) rfl
    · rw [hadd hr k, owed_give]
      simp
    · rw [owed_give]
      simp [Ne.symm hu]
    · rw [Pi.add_apply, Log.give, List.map_cons, List.count_cons]
      by_cases hx : x = g
      · subst hx
        simp [one_self]
        omega
      · rw [one_of_ne hx, if_neg (by simpa using Ne.symm hx)]
        omega
  · simp [hr] at hok

theorem addItem_pay {uid : Nat} {amount : Int} (he : Even conf s₀ h s) :
    Even conf s₀ h (addItem conf ord uid gold amount (fun l => l.pay uid (-amount)) s).2 := by
  obtain ⟨hsane, hadd, hsame⟩ := addItems_one conf ord (he.sane uid) gold amount
  unfold addItem
  by_cases hr : ((s.packs uid).addItems conf ord [⟨gold, amount⟩]).1 = .ok ()
  · simp only [if_pos hr]
    refine he.setPack hsane (fun k => ?_) (fun u k hu => ?_) (fun x => rfl) rfl
    · rw [hadd hr k, owed_pay]
      by_cases hk : gold = k <;> simp [hk]
    · rw [owed_pay]
      simp [Ne.symm hu]
  · simp only [if_neg hr, hsame hr, setPack_self]
    exact he

theorem deductGold_since {uid : Nat} {amount : Int} : Since s (deductGold conf uid amount s).2 := by
  unfold deductGold
  by_cases hr : ((s.packs uid).deductItem conf gold amount).1 = .ok ()
  · simp only [if_pos hr]
    exact .same rfl rfl
  · simp only [if_neg hr]
    exact .same rfl rfl

theorem deductGold_even {uid : Nat} {amount : Int} (he : Even conf s₀ h s) :
    Even conf s₀ h (deductGold conf uid amount s).2 := by
  obtain ⟨hsane, hded, hsame⟩ := deductItem_one conf (he.sane uid) gold amount
  unfold deductGold
  by_cases hr : ((s.packs uid).deductItem conf gold amount).1 = .ok ()
  · simp only [if_pos hr]
    refine he.setPack hsane (fun k => ?_) (fun u k hu => ?_) (fun x => rfl) rfl
    · rw [(hded hr).2 k, owed_pay]
      by_cases hk : gold = k <;> simp [hk]
    · rw [owed_pay]
      simp [Ne.symm hu]
  · simp only [if_neg hr, hsame hr, setPack_self]
    exact he

theorem deductGoods_even (he : Even conf s₀ h s) (uid id : Nat) (count price : Int) :
    Since s (deductGoods conf uid id count price s).2 ∧
      Even conf s₀ ((deductGoods conf uid id count price s).1.elim h (fun g => one g +
        h)) (deductGoods conf uid id count price s).2 ∧
      ∀ g, (deductGoods conf uid id count price s).1 = some g →
        Recorded (deductGoods conf uid id count price s).2.notes.listed (deductGoods conf uid id count price s).2.nextIdx
          uid g.idx g := by
  obtain ⟨hsane, hded, hsame⟩ := deductItem_one conf (he.sane uid) id count
  unfold deductGoods
  by_cases hr : ((s.packs uid).deductItem conf id count).1 = .ok ()
  · simp only [if_pos hr, Option.elim_some]
    have hnew : ∀ x ∈ s.notes.listed, x.idx ≠ s.nextIdx := fun x hx => Nat.ne_of_lt (he.drawn x hx)
    have hno : (⟨s.nextIdx, uid, 0, id, count, price⟩ : Good) ∉ s.notes.listed := fun hin => hnew _ hin rfl
    have hrec : Recorded ((⟨s.nextIdx, uid, 0, id, count, price⟩ : Good) :: s.notes.listed) (s.nextIdx + 1) uid s.nextIdx
        ⟨s.nextIdx, uid, 0, id, count, price⟩ := by
      refine ⟨rfl, rfl, Nat.lt_succ_self _, fun x hx hi => ?_⟩
      rcases List.mem_cons.1 hx with hx | hx
      · exact hx
      · exact absurd hi (hnew x hx)
    refine ⟨⟨Nat.le_succ _, fun x hx => ?_⟩,
      ⟨fun u => ?_, fun u k => ?_, fun x => ?_, he.placed, fun x hx => ?_, ?_, fun {u i g} hg => ?_⟩, ?_⟩
    · rcases List.mem_cons.1 hx with rfl | hx
      · exact .inr (Nat.le_refl _)
      · exact .inl hx
    · by_cases hu : u = uid
      · subst hu
        simpa [Svc.setPack] using hsane
      · simpa [Svc.setPack, hu] using he.sane u
    · rw [owed_list, ← he.ledger u k]
      by_cases hu : u = uid
      · subst hu
        simp only [Svc.setPack, Function.update_self]
        rw [(hded hr).2 k]
        simp
      · simp only [Svc.setPack, Function.update_of_ne hu]
        simp [Ne.symm hu]
    · have hx := he.spread x
      show (one _ + h) x + (inMarket s x).toNat + List.count x (s.notes.given.map Prod.fst) =
        List.count x (_ :: s.notes.listed)
      rw [Pi.add_apply, List.count_cons]
      by_cases hxg : x = ⟨s.nextIdx, uid, 0, id, count, price⟩
      · subst hxg
        simp only [one_self, beq_self_eq_true, if_true]
        omega
      · rw [one_of_ne hxg, if_neg (by simpa using Ne.symm hxg)]
        omega
    · rcases List.mem_cons.1 hx with rfl | hx
      · exact Nat.lt_succ_self _
      · exact Nat.lt_succ_of_lt (he.drawn x hx)
    · refine List.nodup_cons.2 ⟨fun hin => ?_, he.idx⟩
      obtain ⟨x, hx, hi⟩ := List.mem_map.1 hin
      exact hnew x hx hi
    · have hold := he.recorded hg
      refine ⟨hold.idx, hold.uid, Nat.lt_succ_of_lt hold.drawn, fun x hx hi => ?_⟩
      rcases List.mem_cons.1 hx with rfl | hx
      · have := hold.drawn
        exact absurd hi (Nat.ne_of_gt this)
      · exact hold.same x hx hi
    · intro g hg
      cases hg
      exact hrec
  · simp only [if_neg hr, hsame hr, Option.elim_none]
    rw [setPack_self]
    exact ⟨.same rfl rfl, he, nofun⟩

theorem mgrAddGoods_even {g : Good} (he : Even conf s₀ (one g + h) s) : Even conf s₀ h (mgrAddGoods g s).2 := by
  obtain ⟨-, -, hno, -⟩ := he.in_hand
  refine he.setGood (fun x hx => by cases hx; exact ⟨rfl, rfl⟩) (fun x ht hi => ?_) (fun x hx => ?_)
  · rw [Pi.add_apply]
    by_cases hxg : x = g
    · subst hxg
      have hin : inMarket s x = false := decide_eq_false (by rw [hno]; simp)
      rw [one_self, hin]
      simp
      omega
    · have hin : inMarket s x = false := decide_eq_false (by rw [ht, hi, hno]; simp)
      rw [one_of_ne hxg, hin, decide_eq_false (by simpa using Ne.symm hxg)]
      omega
  · have hxg : x ≠ g := by
      rintro rfl
      exact hx ⟨rfl, rfl⟩
    rw [Pi.add_apply, one_of_ne hxg, Nat.zero_add]

theorem take_even {t i : Nat} {g : Good} (he : Even conf s₀ h s) (hg : s.goods t i = some g) :
    Even conf s₀ (one g + h) (s.setGood t i none) := by
  obtain ⟨rfl, rfl⟩ := he.placed hg
  refine he.setGood nofun (fun x ht hi => ?_) (fun x hx => ?_)
  · rw [Pi.add_apply]
    by_cases hxg : x = g
    · subst hxg
      have hin : inMarket s x = true := decide_eq_true hg
      rw [one_self, hin]
      simp
      omega
    · have hin : inMarket s x = false := decide_eq_false (by rw [ht, hi, hg]; simpa using Ne.symm hxg)
      rw [one_of_ne hxg, hin]
      simp
  · have hxg : x ≠ g := by
      rintro rfl
      exact hx ⟨rfl, rfl⟩
    rw [Pi.add_apply, one_of_ne hxg, Nat.zero_add]

theorem mgrRemGoods_even (he : Even conf s₀ h s) {uid : Nat} (type : Nat) {g : Good}
    (hr : Recorded s.notes.listed s.nextIdx uid g.idx g) : Since s (mgrRemGoods uid type g.idx s).2 ∧
      Even conf s₀ ((mgrRemGoods uid type g.idx s).1.elim h (fun _ => one g + h)) (mgrRemGoods uid type g.idx s).2 := by
  unfold mgrRemGoods
  cases hm : s.goods type g.idx with
  | none => exact ⟨.same rfl rfl, he⟩
  | some g' =>
    simp only
    split
    · have hsame : g' = g := hr.same g' (he.listed_of_market hm) (he.placed hm).2
      subst hsame
      exact ⟨.same rfl rfl, take_even he hm⟩
    · exact ⟨.same rfl rfl, he⟩

theorem buyGood_even (he : Even conf s₀ h s) (uid type idx id : Nat) (price : Int) :
    Since s (buyGood uid type idx id price s).2 ∧
      Even conf s₀ ((buyGood uid type idx id price s).1.elim h (fun g => one g +
        h)) (buyGood uid type idx id price s).2 := by
  unfold buyGood
  cases hm : s.goods type idx with
  | none => exact ⟨.same rfl rfl, he⟩
  | some g =>
    simp only
    split
    · exact ⟨.same rfl rfl, he⟩
    · exact ⟨.same rfl rfl, take_even he hm⟩

section Programs

variable {may : Req → Reply → Bool}

def With (conf : Conf) (s₀ : Svc) (h : Hand) : Hand → Svc → Prop := fun e s => Even conf s₀ (h + e) s

def Lasting (K : Svc → Prop) : Prop := ∀ s s', K s → Since s s' → K s'

theorem lasting_true : Lasting (fun _ => True) := fun _ _ _ _ => trivial

theorem lasting_recorded (uid i : Nat) (g : Good) : Lasting (fun s => Recorded s.notes.listed s.nextIdx uid i g) :=
  fun _ _ hr hv => hr.since hv

theorem ask_deal (q : Req) {K : Svc → Prop} (hK : Lasting K) {bad : Hand → Svc → Prop} :
    Deal (deals conf s₀) may (fun e s => With conf s₀ h e s ∧ K s) (ask q : Co Reply) (fun _ e s => With conf s₀ h e s ∧
      K s) bad :=
  Deal.ask h (fun _ _ hs => hs.1) (fun _ s _ s' _ hs _ hi hv => ⟨hi, hK s s' hs.2 hv⟩)

theorem getKidOfUid_deal (w : Watch) (st : Stage) (uid : Nat) {K : Svc → Prop} (hK : Lasting K) {bad : Hand → Svc → Prop}
    (hbad : w ≠ .must → ∀ e s, With conf s₀ h e s → bad e s) :
    Deal (deals conf s₀) may (fun e s => With conf s₀ h e s ∧ K s) (getKidOfUid w st uid)
      (fun _ e s => With conf s₀ h e s ∧ K s) bad := by
  refine Deal.bind (ask_deal _ hK) (fun r =>
    Deal.bind (R := fun _ e s => (With conf s₀ h e s ∧ K s) ∧ (w = .must → r = .yes))
    (Deal.note (fun e s hs hn => ⟨hs, fun hw => ?_⟩)) (fun _ => Deal.ite (fun _ => Deal.pure (fun _ _ hs => hs.1))
      (fun hr => Deal.err (fun e s hs => hbad (fun hw => hr (hs.2 hw)) e s hs.1.1))))
  exact of_decide_eq_true (hn (decide_eq_true hw))

/-- **A call**: what it does is done at once or not at all, and the answer tells unless it is lost. -/
theorem call_deal {β : Type} {w : Watch} {st : Stage} {f : Svc → Option β × Svc} {t : β → Hand} {K : Svc → Prop}
    {R : β → Svc → Prop} {ok : Option β → Hand → Svc → Prop} {bad : Hand → Svc → Prop} (hK : Lasting K) (hR : ∀ b,
      Lasting (R b))
    (hf : ∀ e s, With conf s₀ h e s → K s → Since s (f s).2 ∧ With conf s₀ ((f s).1.elim h t) e (f s).2 ∧
      ∀ b, (f s).1 = some b → R b (f s).2)
    (hunsent : w ≠ .must → ∀ e s, With conf s₀ h e s → K s → bad e s ∧ ok none e s)
    (hdone : ∀ r e s, (w = .must → r.isSome = true) → With conf s₀ (r.elim h t) e s → K s →
      (∀ b, r = some b → R b s) → ok r e s)
    (hlost : ∀ r e s, (w = .must → r.isSome = true) → (w = .back → r = none) → With conf s₀ (r.elim h t) e s → K s →
      bad e s ∧ ok none e s) :
    Deal (deals conf s₀) may (fun e s => With conf s₀ h e s ∧ K s) (call w st f) ok bad := by
  refine Deal.bind (ask_deal _ hK) (fun r => Deal.bind
    (R := fun _ e s => (With conf s₀ h e s ∧ K s) ∧ (w = .must → r = .yes ∧ (f s).1.isSome = true))
    (Deal.note (fun e s hs hn => ⟨hs, fun hw => ?_⟩)) (fun _ => Deal.ite (fun hr => Deal.err (fun e s hs => ?_)) (fun _ =>
      Deal.ite (fun hr => Deal.pure (fun e s hs => ?_)) (fun _ => Deal.get (fun e₀ s hs => ?_)))))
  · have hn' := hn (decide_eq_true hw)
    simp only [Bool.and_eq_true, decide_eq_true_eq] at hn'
    exact hn'
  · have hw : w ≠ .must := by
      intro hw
      rw [(hs.2 hw).1] at hr
      cases hr
    exact (hunsent hw e s hs.1.1 hs.1.2).1
  · have hw : w ≠ .must := by
      intro hw
      rw [(hs.2 hw).1] at hr
      cases hr
    exact (hunsent hw e s hs.1.1 hs.1.2).2
  · obtain ⟨hsince, hwith, hres⟩ := hf e₀ s hs.1.1 hs.1.2
    have hmust : w = .must → (f s).1.isSome = true := fun hw => (hs.2 hw).2
    have hlasting : Lasting (fun s' => K s' ∧ ∀ b, (f s).1 = some b → R b s') :=
      fun a b hab hv => ⟨hK a b hab.1 hv, fun x hx => hR x a b (hab.2 x hx) hv⟩
    refine Deal.bind (R := fun _ e s' => With conf s₀ ((f s).1.elim h t) e s' ∧ K s' ∧ ∀ b, (f s).1 = some b → R b s')
      (Deal.modify (fun e s' hs' => ?_)) (fun _ => Deal.bind (ask_deal _ hlasting) (fun r' => Deal.bind
        (R := fun _ e s' => (With conf s₀ ((f s).1.elim h t) e s' ∧ K s' ∧ ∀ b, (f s).1 = some b → R b s') ∧
          (w = .back → (f s).1.isSome = true → r' = .yes)) (Deal.note (fun e s' hs' hn =>
            ⟨hs', fun hw hsome => ?_⟩)) (fun _ =>
        Deal.ite (fun hr => Deal.err (fun e s' hs' => ?_)) (fun _ => Deal.ite (fun hr => Deal.pure (fun e s' hs' => ?_))
          (fun _ => Deal.pure (fun e s' hs' => hdone _ e s' hmust hs'.1.1 hs'.1.2.1 hs'.1.2.2))))))
    · obtain ⟨rfl, rfl⟩ := hs'
      exact ⟨hsince, hwith, hK _ _ hs.1.2 hsince, hres⟩
    · exact of_decide_eq_true (hn (by rw [hsome, decide_eq_true hw]; rfl))
    · refine (hlost _ e s' hmust (fun hw => ?_) hs'.1.1 hs'.1.2.1).1
      by_contra hne
      rw [hs'.2 hw (Option.ne_none_iff_isSome.1 hne)] at hr
      cases hr
    · refine (hlost _ e s' hmust (fun hw => ?_) hs'.1.1 hs'.1.2.1).2
      by_contra hne
      rw [hs'.2 hw (Option.ne_none_iff_isSome.1 hne)] at hr
      cases hr

theorem call_free {β : Type} {st : Stage} {f : Svc → Option β × Svc}
    (hf : ∀ e s, With conf s₀ h e s → Since s (f s).2 ∧ With conf s₀ h e (f s).2) :
    Deal (deals conf s₀) may (With conf s₀ h) (call .free st f) (fun _ => With conf s₀ h) (With conf s₀ h) := by
  have helim : ∀ r : Option β, r.elim h (fun _ => h) = h := fun r => by cases r <;> rfl
  refine (call_deal (t := fun _ => h) (R := fun _ _ => True) lasting_true (fun _ => lasting_true) (fun e s hs _ => ?_)
    (fun _ e s hs _ => ⟨hs, hs⟩) (fun r e s _ hs _ _ => ?_) (fun r e s _ _ hs _ => ?_)).conseq (fun _ _ hs => ⟨hs, trivial⟩)
    (fun _ _ _ hs => hs) (fun _ _ hs => hs)
  · rw [helim]
    exact ⟨(hf e s hs).1, (hf e s hs).2, fun _ _ => trivial⟩
  · rw [helim] at hs
    exact hs
  · rw [helim] at hs
    exact ⟨hs, hs⟩

theorem call_back {β : Type} {st : Stage} {f : Svc → Option β × Svc} {t : β → Hand} {K : Svc → Prop} {R : β → Svc → Prop}
    (hK : Lasting K) (hR : ∀ b, Lasting (R b)) (hf : ∀ e s, With conf s₀ h e s → K s → Since s (f s).2 ∧
      With conf s₀ ((f s).1.elim h t) e (f s).2 ∧ ∀ b, (f s).1 = some b → R b (f s).2) :
    Deal (deals conf s₀) may (fun e s => With conf s₀ h e s ∧ K s) (call .back st f)
      (fun r e s => With conf s₀ (r.elim h t) e s ∧ K s ∧ ∀ b, r = some b → R b s) (With conf s₀ h) := by
  refine call_deal hK hR hf (fun _ e s hs hk => ⟨hs, hs, hk, nofun⟩) (fun r e s _ hs hk hres => ⟨hs, hk, hres⟩)
    (fun r e s _ hb hs hk => ?_)
  rw [hb rfl] at hs
  exact ⟨hs, hs, hk, nofun⟩

theorem hand_deal (st : Stage) (uid : Nat) (g : Good) :
    Deal (deals conf s₀) may (With conf s₀ (one g)) (hand conf ord st uid g)
    (fun _ => With conf s₀ 0) (With conf s₀ 0) := by
  have hcall : Deal (deals conf s₀) may (fun e s => With conf s₀ (one g) e s ∧ True)
      (call .must st (addItem conf ord uid g.id g.count (fun l => l.give g uid))) (fun _ =>
        With conf s₀ 0) (With conf s₀ 0) := by
    refine call_deal (t := fun _ => 0) (R := fun _ _ => True) lasting_true (fun _ => lasting_true) (fun e s hs _ => ?_)
      (fun hne => absurd rfl hne) (fun r e s hr hs _ _ => ?_) (fun r e s hr _ hs _ => ?_)
    · cases hres : (addItem conf ord uid g.id g.count (fun l => l.give g uid) s).1 with
      | none =>
        rw [addItem_none (hs.sane uid) hres]
        exact ⟨(deals conf s₀).refl s, hs, nofun⟩
      | some u =>
        refine ⟨addItem_since (fun _ => rfl), ?_, fun _ _ => trivial⟩
        show Even conf s₀ (0 + e) _
        rw [zero_add]
        exact addItem_give hs (by rw [hres]; rfl)
    · obtain ⟨b, rfl⟩ := Option.isSome_iff_exists.1 (hr rfl)
      exact hs
    · obtain ⟨b, rfl⟩ := Option.isSome_iff_exists.1 (hr rfl)
      exact ⟨hs, hs⟩
  have hkid : Deal (deals conf s₀) may (With conf s₀ (one g)) (getKidOfUid .must st uid)
      (fun _ e s => With conf s₀ (one g) e s ∧ True) (With conf s₀ 0) :=
    (getKidOfUid_deal .must st uid lasting_true (fun hne => absurd rfl hne)).conseq (fun _ _ hs => ⟨hs, trivial⟩)
      (fun _ _ _ hs => hs) (fun _ _ hs => hs)
  exact Deal.bind hkid (fun _ => Deal.bind hcall (fun _ => Deal.pure (fun _ _ hs => hs)))

theorem giveGold_deal (st : Stage) (uid : Nat) (amount : Int) : Deal (deals conf s₀) may (With conf s₀ h)
    (giveGold conf ord st uid amount) (fun _ => With conf s₀ h) (With conf s₀ h) := by
  have hkid : Deal (deals conf s₀) may (With conf s₀ h) (getKidOfUid .free st uid) (fun _ =>
    With conf s₀ h) (With conf s₀ h) :=
    (getKidOfUid_deal .free st uid lasting_true (fun _ _ _ hs => hs)).conseq (fun _ _ hs => ⟨hs, trivial⟩)
      (fun _ _ _ hs => hs.1) (fun _ _ hs => hs)
  exact Deal.bind hkid (fun _ => Deal.bind (call_free (fun _ _ hs => ⟨addItem_since (fun _ => rfl), addItem_pay hs⟩))
    (fun _ => Deal.pure (fun _ _ hs => hs)))

theorem xpcall_deal {p : Co Unit} {h' : Hand} (hp : Deal (deals conf s₀) may (With conf s₀ h) p (fun _ => With conf s₀ h')
    (With conf s₀ h')) {bad : Hand → Svc → Prop} : Deal (deals conf s₀) may (With conf s₀ h) (p.xpcall >>= fun _ => pure ())
      (fun _ => With conf s₀ h') bad :=
  Deal.bind (Deal.xpcall (Q := fun _ => With conf s₀ h') hp (fun _ _ _ hs => hs) (fun _ _ _ hs => hs))
    (fun _ => Deal.pure (fun _ _ hs => hs))

theorem addGoods_deal (uid id : Nat) (count price : Int) : Deal (deals conf s₀) may (With conf s₀ 0)
    (addGoods conf ord uid id count price) (fun _ => With conf s₀ 0) (With conf s₀ 0) := by
  have hkid : Deal (deals conf s₀) may (With conf s₀ 0) (getKidOfUid .free .deduct uid)
      (fun _ e s => With conf s₀ 0 e s ∧ True) (With conf s₀ 0) :=
    (getKidOfUid_deal .free .deduct uid lasting_true (fun _ _ _ hs => hs)).conseq (fun _ _ hs => ⟨hs, trivial⟩)
      (fun _ _ _ hs => hs) (fun _ _ hs => hs)
  have hdeduct : Deal (deals conf s₀) may (fun e s => With conf s₀ 0 e s ∧ True)
      (call .back .deduct (deductGoods conf uid id count price))
      (fun r e s => With conf s₀ (r.elim 0 one) e s ∧ True ∧ ∀ g, r = some g →
        Recorded s.notes.listed s.nextIdx uid g.idx g)
      (With conf s₀ 0) := by
    refine call_back lasting_true (fun g => lasting_recorded uid g.idx g) (fun e s hs _ => ?_)
    obtain ⟨hsince, heven, hrec⟩ := deductGoods_even hs uid id count price
    refine ⟨hsince, ?_, hrec⟩
    cases hres : (deductGoods conf uid id count price s).1 with
    | none =>
      rw [hres] at heven
      exact heven
    | some g =>
      rw [hres, Option.elim_some, zero_add] at heven
      exact heven
  refine Deal.ite (fun _ => Deal.pure (fun _ _ hs => hs)) (fun _ =>
    Deal.bind hkid (fun _ => Deal.bind hdeduct (fun r => ?_)))
  cases r with
  | none => exact Deal.pure (fun _ _ hs => hs.1)
  | some g =>
    have hlist : Deal (deals conf s₀) may (fun e s => With conf s₀ (one g) e s ∧
      Recorded s.notes.listed s.nextIdx uid g.idx g)
        (call .back .list (mgrAddGoods g)) (fun r e s => With conf s₀ (r.elim (one g) (fun _ => 0)) e s ∧
          Recorded s.notes.listed s.nextIdx uid g.idx g ∧ ∀ b, r = some b → True) (With conf s₀ (one g)) := by
      refine call_back (lasting_recorded uid g.idx g) (fun _ => lasting_true) (fun e s hs _ =>
        ⟨.same rfl rfl, ?_, fun _ _ => trivial⟩)
      show Even conf s₀ (0 + e) _
      rw [zero_add]
      exact mgrAddGoods_even hs
    refine Deal.bind (R := fun r e s => With conf s₀ (if r = .ok (some ()) then 0 else one g) e s ∧
      (r = .ok (some ()) → Recorded s.notes.listed s.nextIdx uid g.idx g)) ((Deal.xpcall hlist (fun r e s hs => ?_)
        (fun m e s hs => ?_)).conseq (fun _ _ hs => ⟨hs.1, hs.2.2 g rfl⟩) (fun _ _ _ hs => hs) (fun _ _ hs =>
          hs)) (fun r => ?_)
    · cases r with
      | none => exact ⟨hs.1, nofun⟩
      | some u => exact ⟨hs.1, fun _ => hs.2.1⟩
    · exact ⟨hs, nofun⟩
    · rcases r with m | _ | u
      · exact (xpcall_deal (hand_deal .giveBack uid g)).conseq (fun _ _ hs => hs.1) (fun _ _ _ hs => hs) (fun _ _ hs => hs)
      · exact (xpcall_deal (hand_deal .giveBack uid g)).conseq (fun _ _ hs => hs.1) (fun _ _ _ hs => hs) (fun _ _ hs => hs)
      · refine Deal.modify (fun e s hs => ⟨.same rfl rfl, Even.setRecord hs.1 (fun x hx => ?_)⟩)
        cases hx
        exact hs.2 rfl

theorem remGoods_deal (uid idx : Nat) : Deal (deals conf s₀) may (With conf s₀ 0) (remGoods conf ord uid idx)
    (fun _ => With conf s₀ 0) (With conf s₀ 0) := by
  refine Deal.get (fun e₀ s hs => ?_)
  cases hr : s.records uid idx with
  | none =>
    refine Deal.err (fun e s' hs' => ?_)
    rw [hs'.1, hs'.2]
    exact hs
  | some g =>
    have hrec := hs.recorded hr
    obtain rfl : g.idx = idx := hrec.idx
    have hrem : Deal (deals conf s₀) may (fun e s => With conf s₀ 0 e s ∧ Recorded s.notes.listed s.nextIdx uid g.idx g)
        (call .back .withdraw (mgrRemGoods uid g.type g.idx)) (fun r e s => With conf s₀ (r.elim 0 (fun _ => one g)) e s ∧
          Recorded s.notes.listed s.nextIdx uid g.idx g ∧ ∀ b, r = some b → True) (With conf s₀ 0) := by
      refine call_back (lasting_recorded uid g.idx g) (fun _ => lasting_true) (fun e s hs hk => ?_)
      obtain ⟨hsince, heven⟩ := mgrRemGoods_even hs g.type hk
      refine ⟨hsince, ?_, fun _ _ => trivial⟩
      cases hres : (mgrRemGoods uid g.type g.idx s).1 with
      | none =>
        rw [hres] at heven
        exact heven
      | some u =>
        rw [hres, Option.elim_some, zero_add] at heven
        exact heven
    refine Deal.bind (R := fun _ e s => With conf s₀ 0 e s ∧ Recorded s.notes.listed s.nextIdx uid g.idx g)
      (Deal.modify (fun e s' hs' => ?_)) (fun _ => Deal.bind (R := fun r e s =>
        With conf s₀ (if r = .ok (some ()) then one g else 0) e s) (Deal.xpcall hrem (fun r e s hs => ?_) (fun m e s hs =>
          hs))
        (fun r => ?_))
    · rw [hs'.1, hs'.2]
      exact ⟨.same rfl rfl, Even.setRecord hs nofun, hrec⟩
    · cases r with
      | none => exact hs.1
      | some u => exact hs.1
    · rcases r with m | _ | u
      · exact Deal.pure (fun _ _ hs => hs)
      · exact Deal.pure (fun _ _ hs => hs)
      · exact hand_deal .hand uid g

theorem sellGoods_deal (uid idx : Nat) : Deal (deals conf s₀) may (With conf s₀ 0) (sellGoods conf ord uid idx)
    (fun _ => With conf s₀ 0) (With conf s₀ 0) := by
  refine Deal.get (fun e₀ s hs => ?_)
  cases hr : s.records uid idx with
  | none =>
    refine Deal.pure (fun e s' hs' => ?_)
    rw [hs'.1, hs'.2]
    exact hs
  | some g =>
    refine Deal.bind (R := fun _ => With conf s₀ 0) (Deal.modify (fun e s' hs' => ?_))
      (fun _ => xpcall_deal (giveGold_deal .credit uid g.gold))
    rw [hs'.1, hs'.2]
    exact ⟨.same rfl rfl, Even.setRecord hs nofun⟩

theorem reqBuyGoods_deal (uid sellUid type idx id : Nat) (price : Int) : Deal (deals conf s₀) may (With conf s₀ 0)
    (reqBuyGoods conf ord uid sellUid type idx id price) (fun _ => With conf s₀ 0) (With conf s₀ 0) := by
  have hkid : Deal (deals conf s₀) may (With conf s₀ 0) (getKidOfUid .free .pay uid) (fun _ =>
    With conf s₀ 0) (With conf s₀ 0) :=
    (getKidOfUid_deal .free .pay uid lasting_true (fun _ _ _ hs => hs)).conseq (fun _ _ hs => ⟨hs, trivial⟩)
      (fun _ _ _ hs => hs.1) (fun _ _ hs => hs)
  have hbuy : Deal (deals conf s₀) may (With conf s₀ 0) (call .back .buy (buyGood sellUid type idx id price))
      (fun r => With conf s₀ (r.elim 0 one)) (With conf s₀ 0) := by
    refine (call_back (R := fun _ _ => True) lasting_true (fun _ => lasting_true) (fun e s hs _ => ?_)).conseq
      (fun _ _ hs => ⟨hs, trivial⟩) (fun _ _ _ hs => hs.1) (fun _ _ hs => hs)
    obtain ⟨hsince, heven⟩ := buyGood_even hs sellUid type idx id price
    refine ⟨hsince, ?_, fun _ _ => trivial⟩
    cases hres : (buyGood sellUid type idx id price s).1 with
    | none =>
      rw [hres] at heven
      exact heven
    | some g =>
      rw [hres, Option.elim_some, zero_add] at heven
      exact heven
  have hnotify : ∀ g, Deal (deals conf s₀) may (With conf s₀ (one g)) notifySeller (fun _ => With conf s₀ (one g))
      (With conf s₀ (one g)) := fun g =>
    Deal.bind ((ask_deal _ lasting_true).conseq (fun _ _ hs => ⟨hs, trivial⟩) (fun _ _ _ hs => hs) (fun _ _ hs => hs))
      (fun _ => Deal.err (fun _ _ hs => hs.1))
  refine Deal.ite (fun _ => Deal.pure (fun _ _ hs => hs)) (fun _ => Deal.bind hkid (fun _ => Deal.bind
    (call_free (fun _ _ hs => ⟨deductGold_since, deductGold_even hs⟩)) (fun ok =>
      Deal.ite (fun _ => Deal.pure (fun _ _ hs => hs))
      (fun _ => Deal.bind (Deal.xpcall (Q := fun r e s => With conf s₀ (r.toOption.join.elim 0 one) e s) hbuy
        (fun _ _ _ hs => hs) (fun _ _ _ hs => hs)) (fun r => ?_)))))
  rcases r with m | _ | g
  · exact xpcall_deal (giveGold_deal .refund uid price)
  · exact xpcall_deal (giveGold_deal .refund uid price)
  · exact Deal.bind (Deal.xpcall (Q := fun _ => With conf s₀ (one g)) (hnotify g) (fun _ _ _ hs => hs) (fun _ _ _ hs => hs))
      (fun _ => hand_deal .hand uid g)

theorem op_deal (op : Op) : Deal (deals conf s₀) may (With conf s₀ 0) (op.prog conf ord) (fun _ => With conf s₀ 0)
    (With conf s₀ 0) := by
  cases op with
  | addGoods uid id count price => exact addGoods_deal uid id count price
  | remGoods uid idx => exact remGoods_deal uid idx
  | sellGoods uid idx => exact sellGoods_deal uid idx
  | reqBuyGoods uid sellUid type idx id price => exact reqBuyGoods_deal uid sellUid type idx id price

end Programs

theorem dealing : Co.Dealing (deals conf s₀) (tradeSys conf ord) := by
  have hzero : ∀ e s, With conf s₀ 0 e s ↔ Even conf s₀ e s := by
    intro e s
    unfold With
    rw [zero_add]
  refine ⟨fun op e s hs => ?_, fun x => x.elim⟩
  refine Deal.final ((op_deal op).conseq (fun e s hs => (hzero e s).2 hs) (fun _ e s hs => (hzero e s).1 hs)
    (fun e s hs => (hzero e s).1 hs)) hs

theorem sum_owners {α : Type} (f : α → Nat) (q : α → Prop) [DecidablePred q] (v : α → Int) (us : Finset Nat) :
    ∀ l : List α, (∀ x ∈ l, f x ∈ us) → ∑ u ∈ us, (l.map (fun x => if f x = u ∧ q x then v x else 0)).sum =
      (l.map (fun x => if q x then v x else 0)).sum
  | [], _ => by simp
  | x :: l, h => by
    simp only [List.map_cons, List.sum_cons]
    rw [Finset.sum_add_distrib, sum_owners f q v us l (fun y hy => h y (List.mem_cons_of_mem _ hy))]
    congr 1
    by_cases hq : q x
    · simp [hq, h x List.mem_cons_self]
    · simp [hq]

theorem sum_owed (l : Log) {us : Finset Nat} (hus : Traders l us) (k : Nat) : ∑ u ∈ us, owed l u k =
    (l.given.map (fun x => if x.1.id = k then x.1.count else 0)).sum -
      (l.listed.map (fun g => if g.id = k then g.count else 0)).sum - if k = gold then ∑ u ∈ us, l.paid u else 0 := by
  unfold owed
  rw [Finset.sum_sub_distrib, Finset.sum_sub_distrib,
    sum_owners (fun x : Good × Nat => x.2) (fun x => x.1.id = k) _ us _ hus.2,
    sum_owners (fun g : Good => g.uid) (fun g => g.id = k) _ us _ hus.1]
  by_cases hk : k = gold
  · simp [hk]
  · simp [hk]

theorem Even.perm (he : Even conf s₀ 0 s) :
    (s.notes.listed.filter (inMarket s) ++ s.notes.given.map Prod.fst).Perm s.notes.listed := by
  refine List.perm_iff_count.2 (fun g => ?_)
  have hg := he.spread g
  have hle : s.notes.listed.count g ≤ 1 := List.nodup_iff_count_le_one.1 (he.idx.of_map _) g
  rw [List.count_append]
  simp only [Pi.zero_apply, Nat.zero_add] at hg
  by_cases hm : inMarket s g = true
  · rw [List.count_filter hm]
    rw [hm, Bool.toNat_true] at hg
    omega
  · have hno : List.count g (s.notes.listed.filter (inMarket s)) = 0 :=
      List.count_eq_zero.2 (fun hin => hm (List.mem_filter.1 hin).2)
    rw [hno]
    rw [Bool.not_eq_true] at hm
    rw [hm, Bool.toNat_false] at hg
    omega

theorem Even.sum_owed_eq (he : Even conf s₀ 0 s) {us : Finset Nat} (hus : Traders s.notes us) (k : Nat) :
    ∑ u ∈ us, owed s.notes u k + stock s k + (if k = gold then ∑ u ∈ us, s.notes.paid u else 0) = 0 := by
  have hperm := (he.perm.map (fun g : Good => if g.id = k then g.count else 0)).sum_eq
  rw [List.map_append, List.sum_append, List.map_map] at hperm
  have hgiven : (s.notes.given.map ((fun g : Good => if g.id = k then g.count else 0) ∘ Prod.fst)).sum =
      (s.notes.given.map (fun x => if x.1.id = k then x.1.count else 0)).sum := rfl
  rw [sum_owed s.notes hus k]
  unfold stock
  omega

theorem Even.conserved (he₀ : Even conf s₀ 0 s₀) (he : Even conf s₀ 0 s) : Conserved conf s₀ s where
  whole g hg := by
    have hspread := he.spread g
    have hone : s.notes.listed.count g = 1 := List.count_eq_one_of_mem (he.idx.of_map _) hg
    rw [hone] at hspread
    simp only [Pi.zero_apply, Nat.zero_add] at hspread
    cases hm : inMarket s g with
    | true =>
      rw [hm, Bool.toNat_true] at hspread
      refine .inl ⟨rfl, fun u hu => ?_⟩
      have hno : g ∉ s.notes.given.map Prod.fst := List.count_eq_zero.1 (by omega)
      exact hno (List.mem_map.2 ⟨(g, u), hu, rfl⟩)
    | false =>
      rw [hm, Bool.toNat_false, Nat.zero_add] at hspread
      have hlen : (s.notes.given.filter (fun x => decide (x.1 = g))).length = 1 := by
        rw [← List.countP_eq_length_filter]
        rw [List.count, List.countP_map] at hspread
        rw [← hspread]
        refine List.countP_congr (fun x _ => ?_)
        simp
      obtain ⟨x, hx⟩ := List.length_eq_one_iff.1 hlen
      have hmem : x ∈ s.notes.given.filter (fun x => decide (x.1 = g)) := by
        rw [hx]
        exact List.mem_singleton_self x
      have hxg : x.1 = g := of_decide_eq_true (List.mem_filter.1 hmem).2
      refine .inr ⟨rfl, x.2, ?_⟩
      rw [hx, ← hxg]
  known t i g hg := ⟨he.listed_of_market hg, he.placed hg⟩
  ledger := he.ledger
  total k us hus₀ hus := by
    have h1 := he.sum_owed_eq hus k
    have h2 := he₀.sum_owed_eq hus₀ k
    have h3 : ∑ u ∈ us, (held conf (s.packs u) k - owed s.notes u k) = ∑ u ∈ us,
      (held conf (s₀.packs u) k - owed s₀.notes u k) :=
      Finset.sum_congr rfl (fun u _ => he.ledger u k)
    rw [Finset.sum_sub_distrib, Finset.sum_sub_distrib] at h3
    omega

theorem opening_even {packs : Nat → BackpackCtrl} {market : List Good} {records : Nat → Nat → Option Good} {nextIdx : Nat}
    (hs : Sensible packs market records nextIdx) :
    Even conf (opening packs market records nextIdx) 0 (opening packs market records nextIdx) := by
  have hfind : ∀ {t i g}, (opening packs market records nextIdx).goods t i = some g → g ∈ market ∧ g.type = t ∧
    g.idx = i := by
    intro t i g hg
    have hp := List.find?_some hg
    simp only [Bool.and_eq_true, decide_eq_true_eq] at hp
    exact ⟨List.mem_of_find?_eq_some hg, hp⟩
  refine ⟨hs.packs, fun _ _ => rfl, fun g => ?_, fun hg => (hfind hg).2, hs.drawn, hs.idx, hs.records⟩
  show 0 + (inMarket (opening packs market records nextIdx) g).toNat + 0 = market.count g
  by_cases hg : g ∈ market
  · rw [List.count_eq_one_of_mem (hs.idx.of_map _) hg]
    have hin : inMarket (opening packs market records nextIdx) g = true := by
      refine decide_eq_true ?_
      show market.find? (fun x => decide (x.type = g.type) && decide (x.idx = g.idx)) = some g
      cases hf : market.find? (fun x => decide (x.type = g.type) && decide (x.idx = g.idx)) with
      | none =>
        have := List.find?_eq_none.1 hf g hg
        simp at this
      | some x =>
        obtain ⟨hx, -, hi⟩ := hfind hf
        rw [List.inj_on_of_nodup_map hs.idx hx hg hi]
    rw [hin]
    rfl
  · rw [List.count_eq_zero.2 hg]
    have hin : inMarket (opening packs market records nextIdx) g = false :=
      decide_eq_false (fun hgoods => hg (hfind hgoods).1)
    rw [hin]
    rfl

/-- **Trade conserves goods** once no request is in flight, in every run in which a good that goes to a backpack finds room
there, the calls for it get through, and calls that moved a good are answered. -/
theorem conserved_of_run (conf : Conf) (ord : Visit) (packs : Nat → BackpackCtrl) (market : List Good)
    (records : Nat → Nat → Option Good) (nextIdx : Nat) (hs : Sensible packs market records nextIdx)
    (es : List (Co.Event Op Reply Empty)) {w : Co.World Svc Empty Req Reply}
    (hrun : (tradeSys conf ord).run (.init (opening packs market records nextIdx)) es = some w) (hclean : w.clean = true)
    (hquiet : w.quiet = true) : Conserved conf (opening packs market records nextIdx) w.st :=
  (opening_even hs).conserved (Co.inv_of_quiet_run dealing (opening_even hs) hrun hclean hquiet)

/-! A sale: player 7 has three of item 1001, player 8 has ten gold. -/

theorem init_sane : Sane (BackpackCtrl.init none) := by
  refine ⟨fun b => maxSize_nonneg b, fun b v hv => ?_⟩
  cases hv

def packs (buyer : BackpackCtrl) (uid : Nat) : BackpackCtrl :=
  if uid = 7 then ((BackpackCtrl.init none).addItems Conf.game .inOrder [⟨1001, 3⟩]).2
  else if uid = 8 then (buyer.addItems Conf.game .inOrder [⟨gold, 10⟩]).2
  else .init none

theorem packs_sane {buyer : BackpackCtrl} (hb : Sane buyer) (uid : Nat) : Sane (packs buyer uid) := by
  unfold packs
  split
  · exact (addItems_one _ _ init_sane _ _).1
  · split
    · exact (addItems_one _ _ hb _ _).1
    · exact init_sane

def sale : List (Co.Event Op Reply Empty) :=
  [.start (.addGoods 7 1001 2 5), .reply 0 .yes, .reply 0 .yes, .reply 0 .yes, .reply 0 .yes, .reply 0 .yes,
    .start (.reqBuyGoods 8 7 0 0 1001 5), .reply 1 .yes, .reply 1 .yes, .reply 1 .yes, .reply 1 .yes, .reply 1 .yes,
    .reply 1 .yes, .reply 1 .yes, .reply 1 .yes, .reply 1 .yes]

def sold : Good := ⟨0, 7, 0, 1001, 2, 5⟩

theorem conserved_of_run_sale : ∃ w, (tradeSys Conf.game .inOrder).run
    (.init (opening (packs (.init none)) [] (fun _ _ => none) 0)) sale = some w ∧ w.clean = true ∧ w.quiet = true ∧
    (w.st.notes.given = [(sold, 8)] ∧ held Conf.game (w.st.packs 8) 1001 = 2) ∧
    Conserved Conf.game (opening (packs (.init none)) [] (fun _ _ => none) 0) w.st := by
  obtain ⟨w, hrun, hclean, hquiet, hgiven⟩ : ∃ w ∈ (tradeSys Conf.game .inOrder).run (.init (opening (packs (.init none)) [] (fun _ _ => none) 0)) sale,
      w.clean = true ∧ w.quiet = true ∧ w.st.notes.given = [(sold, 8)] ∧ held Conf.game (w.st.packs 8) 1001 = 2 := by
    decide +kernel
  have hs : Sensible (packs (.init none)) [] (fun _ _ => none) 0 := ⟨packs_sane init_sane, .nil, nofun, nofun⟩
  exact ⟨w, hrun, hclean, hquiet, hgiven, conserved_of_run _ _ _ _ _ _ hs _ hrun hclean hquiet⟩

def full : BackpackCtrl where
  backpacks := fun b => if b = .material then ⟨100, 100, List.replicate 100 ⟨2001, 999⟩⟩ else ⟨0, b.maxSize, []⟩
  saved := fun b => if b = .material then List.replicate 100 ⟨2001, 999⟩ else []

theorem full_sane : Sane full := by
  refine ⟨fun b => ?_, fun b v hv => ?_⟩
  · cases b <;> decide
  · cases b with
    | material =>
      rw [(List.mem_replicate.1 hv).2]
      decide
    | props => cases hv
    | jewel => cases hv

/-- **A good that finds no room is lost**: player 8 pays for it, and it is neither in the market nor in his backpack. -/
theorem full_backpack_loses_good : Sensible (packs full) [] (fun _ _ => none) 0 ∧ ∃ w, (tradeSys Conf.game .inOrder).run
    (.init (opening (packs full) [] (fun _ _ => none) 0)) sale = some w ∧ w.quiet = true ∧
    ¬Conserved Conf.game (opening (packs full) [] (fun _ _ => none) 0) w.st := by
  refine ⟨⟨packs_sane full_sane, .nil, nofun, nofun⟩, ?_⟩
  obtain ⟨w, hrun, hquiet, hlisted, hout, hgiven⟩ : ∃ w ∈ (tradeSys Conf.game .inOrder).run (.init (opening (packs full) [] (fun _ _ => none) 0)) sale,
      w.quiet = true ∧ w.st.notes.listed = [sold] ∧ inMarket w.st sold = false ∧ w.st.notes.given = [] := by
    decide +kernel
  refine ⟨w, hrun, hquiet, fun hc => ?_⟩
  rcases hc.whole sold (by rw [hlisted]; exact List.mem_singleton_self _) with ⟨hin, -⟩ | ⟨-, u, hu⟩
  · rw [hout] at hin
    cases hin
  · rw [hgiven] at hu
    cases hu

end Trade
end Sncpp
