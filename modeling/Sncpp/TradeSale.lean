import Sncpp.CoSolo
import Sncpp.TradeKeep
/-!
# TradeSale — one purchase, from the buyer's gold to the seller's (`clientCmd.reqBuyGoods`)

The buyer is charged, the market gives the good away, the seller is told, and the buyer gets the good.
-/
namespace Sncpp
namespace Trade

open Pack
open Co.Prog (solo)

section Sale

variable (conf : Conf) (ord : Visit)

/-- What a sale should do: the good leaves the market, the buyer pays for it and gets it, the seller gets the price, and his
record is gone. -/
def Paid (uid type idx : Nat) (price : Int) (s s' : Svc) : Prop :=
  ∃ g, s.goods type idx = some g ∧ s'.goods = (s.setGood type idx none).goods ∧
    (∀ k, held conf (s'.packs uid) k = held conf (s.packs uid) k - (if gold = k then price else 0) + if g.id = k then
      g.count else 0) ∧
    (∀ k, held conf (s'.packs g.uid) k = held conf (s.packs g.uid) k + if gold = k then price else 0) ∧
    s'.records g.uid idx = none

/-- What a failed purchase should do: the market is as it was, and the buyer has what he had. -/
def Untouched (uid : Nat) (s s' : Svc) : Prop := s'.goods = s.goods ∧ ∀ k, held conf (s'.packs uid) k =
    held conf (s.packs uid) k

/-- **A purchase pays the seller once, or does nothing**, when its calls are answered as `ans` says. -/
def PaysOnce (ans : Req → Reply) (s : Svc) (uid sellUid type idx id : Nat) (price : Int) : Prop :=
  Paid conf uid type idx price s ((reqBuyGoods conf ord uid sellUid type idx id price).solo ans s).2 ∨
    Untouched conf uid s ((reqBuyGoods conf ord uid sellUid type idx id price).solo ans s).2

def Charged (ans : Req → Reply) (s : Svc) (uid : Nat) (price : Int) : Prop :=
  ans (.getKidOfUid .pay uid) = .yes ∧ ans (.send .pay) = .yes ∧ ((s.packs uid).deductItem conf gold price).1 = .ok ()

def Sold (ans : Req → Reply) (s : Svc) (sellUid type idx id : Nat) (price : Int) : Prop :=
  ans (.send .buy) = .yes ∧ (buyGood sellUid type idx id price s).1.isSome = true

def Refunded (ans : Req → Reply) (s : Svc) (uid : Nat) (price : Int) : Prop :=
  ans (.getKidOfUid .refund uid) = .yes ∧ ans (.send .refund) = .yes ∧
    (((s.packs uid).deductItem conf gold price).2.addItems conf ord [⟨gold, price⟩]).1 = .ok ()

/-- Nothing is taken, or the market keeps the good and the gold is given back. -/
def Spared (ans : Req → Reply) (s : Svc) (uid sellUid type idx id : Nat) (price : Int) : Prop :=
  sellUid = uid ∨ ¬Charged conf ans s uid price ∨
    (ans (.answer .pay) = .yes ∧ ¬Sold ans s sellUid type idx id price ∧ Refunded conf ord ans s uid price)

end Sale

variable {conf : Conf} {ord : Visit} {ans : Req → Reply} {s : Svc}

theorem getKidOfUid_solo (w : Watch) (st : Stage) (uid : Nat) : (getKidOfUid w st uid).solo ans s =
    if ans (.getKidOfUid st uid) = .yes then (.ok (), s) else (.error "attempt to call a nil address", s) := by
  show (if ans (.getKidOfUid st uid) = .yes then pure () else .err _ : Co Unit).solo ans s = _
  split <;> rfl

theorem call_solo {β : Type} (w : Watch) (st : Stage) (f : Svc → Option β × Svc) : (call w st f).solo ans s =
    if ans (.send st) = .raised then (.error "call failed", s)
    else if ans (.send st) = .no then (.ok none, s)
    else if ans (.answer st) = .raised then (.error "call failed", (f s).2)
    else if ans (.answer st) = .no then (.ok none, (f s).2)
    else (.ok (f s).1, (f s).2) := by
  have hback : (if ans (.answer st) = .raised then .err "call failed" else if ans (.answer st) = .no then pure none
      else pure (f s).1 : Co (Option β)).solo ans (f s).2 =
      if ans (.answer st) = .raised then (.error "call failed", (f s).2)
      else if ans (.answer st) = .no then (.ok none, (f s).2) else (.ok (f s).1, (f s).2) := by
    split
    · rfl
    · split <;> rfl
  show (if ans (.send st) = .raised then .err "call failed" else if ans (.send st) = .no then
    pure none else _ : Co _).solo ans s = _
  split
  · rfl
  · split
    · rfl
    · exact hback

theorem addItem_frame (uid id : Nat) (count : Int) (log : Log → Log) (s : Svc) :
    (addItem conf ord uid id count log s).2.goods = s.goods ∧
      ∀ u, u ≠ uid → (addItem conf ord uid id count log s).2.packs u = s.packs u := by
  have hpack : ∀ c u, u ≠ uid → (s.setPack uid c).packs u = s.packs u := fun c u hu => by simp [Svc.setPack, hu]
  unfold addItem
  dsimp only
  split
  · exact ⟨rfl, fun u hu => hpack _ u hu⟩
  · exact ⟨rfl, fun u hu => hpack _ u hu⟩

theorem call_frame {β : Type} {R : Svc → Prop} (w : Watch) (st : Stage) {f : Svc → Option β × Svc} (hs : R s)
    (hf : R (f s).2) :
    R ((call w st f).solo ans s).2 := by
  rw [call_solo]
  split
  · exact hs
  · split
    · exact hs
    · split
      · exact hf
      · split <;> exact hf

theorem deliver_solo (w : Watch) (st : Stage) (uid : Nat) (f : Svc → Option Unit × Svc) (s : Svc) :
    ((getKidOfUid w st uid >>= fun _ => call w st f >>= fun _ => pure ()).solo ans s).2 =
      if ans (.getKidOfUid st uid) = .yes then ((call w st f).solo ans s).2 else s := by
  rw [Co.solo_bind, getKidOfUid_solo]
  split
  · simp only [Co.next]
    rw [Co.solo_bind]
    rcases (call w st f).solo ans s with ⟨m | r, s'⟩ <;> rfl
  · rfl

theorem deliver_frame (w : Watch) (st : Stage) (uid id : Nat) (count : Int) (log : Log → Log) (s : Svc) :
    ((getKidOfUid w st uid >>= fun _ => call w st (addItem conf ord uid id count log) >>= fun _ => pure ()).solo ans
        s).2.goods = s.goods ∧
      ∀ u, u ≠ uid → ((getKidOfUid w st uid >>= fun _ => call w st (addItem conf ord uid id count log) >>= fun _ =>
        pure ()).solo ans s).2.packs u = s.packs u := by
  rw [deliver_solo]
  split
  · exact call_frame (R := fun s' => s'.goods = s.goods ∧ ∀ u, u ≠ uid → s'.packs u = s.packs u) w st
      ⟨rfl, fun _ _ => rfl⟩ (addItem_frame _ _ _ _ s)
  · exact ⟨rfl, fun _ _ => rfl⟩

theorem hand_frame (st : Stage) (uid : Nat) (g : Good) (s : Svc) : ((hand conf ord st uid g).solo ans s).2.goods = s.goods ∧
    ∀ u, u ≠ uid → ((hand conf ord st uid g).solo ans s).2.packs u = s.packs u :=
  deliver_frame .must st uid _ _ _ s

theorem giveGold_frame (st : Stage) (uid : Nat) (amount : Int) (s : Svc) :
    ((giveGold conf ord st uid amount).solo ans s).2.goods = s.goods ∧
      ∀ u, u ≠ uid → ((giveGold conf ord st uid amount).solo ans s).2.packs u = s.packs u :=
  deliver_frame .free st uid _ _ _ s

theorem xpcall_state (p : Co Unit) (s : Svc) : ((p.xpcall >>= fun _ => pure ()).solo ans s).2 = (p.solo ans s).2 := by
  rw [Co.solo_bind, Co.solo_xpcall]
  rfl

section Steps

variable {uid sellUid type idx id : Nat} {price : Int}

theorem deductGold_some (h : ((s.packs uid).deductItem conf gold price).1 = .ok ()) : deductGold conf uid price s =
    (some (), { s.setPack uid ((s.packs uid).deductItem conf gold price).2 with notes := s.notes.pay uid price }) := by
  unfold deductGold
  simp only [if_pos h]

theorem deductGold_none (hs : Sane (s.packs uid)) (h : ((s.packs uid).deductItem conf gold price).1 ≠ .ok ()) :
    deductGold conf uid price s = (none, s) := by
  unfold deductGold
  simp only [if_neg h, (deductItem_one conf hs gold price).2.2 h, setPack_self]

theorem buyGood_none (h : (buyGood sellUid type idx id price s).1 = none) :
    (buyGood sellUid type idx id price s).2 = s := by
  unfold buyGood at h ⊢
  split at h
  · split at h
    · rename_i hne
      simp only [if_pos hne]
    · cases h
  · rfl

theorem buyGood_some {g : Good} (h : (buyGood sellUid type idx id price s).1 = some g) :
    (buyGood sellUid type idx id price s).2 = s.setGood type idx none := by
  unfold buyGood at h ⊢
  split at h
  · split at h
    · cases h
    · rename_i hne
      simp only [if_neg hne]
  · cases h

theorem sold_good (h : Sold ans s sellUid type idx id price) : ∃ g, s.goods type idx = some g ∧ g.uid = sellUid := by
  obtain ⟨-, hsome⟩ := h
  unfold buyGood at hsome
  split at hsome
  · rename_i g hg
    split at hsome
    · cases hsome
    · rename_i hne
      simp only [not_or, not_not] at hne
      exact ⟨g, hg, hne.1⟩
  · cases hsome

def purchase (conf : Conf) (ord : Visit) (uid sellUid type idx id : Nat) (price : Int) : Co Unit := do
  let r ← (call .back .buy (buyGood sellUid type idx id price)).xpcall
  match r with
  | .ok (some g) =>
    let _ ← notifySeller.xpcall
    hand conf ord .hand uid g
  | _ =>
    let _ ← (giveGold conf ord .refund uid price).xpcall

theorem reqBuyGoods_uncharged (hs : Sane (s.packs uid)) (h : ¬Charged conf ans s uid price) :
    ((reqBuyGoods conf ord uid sellUid type idx id price).solo ans s).2 = s := by
  unfold reqBuyGoods
  split
  · rfl
  · rw [Co.solo_bind, getKidOfUid_solo]
    split
    · rename_i hkid
      simp only [Co.next]
      rw [Co.solo_bind, call_solo]
      by_cases hsend : ans (.send .pay) = .yes
      · have hno : ((s.packs uid).deductItem conf gold price).1 ≠ .ok () := fun hok => h ⟨hkid, hsend, hok⟩
        rw [deductGold_none hs hno, hsend, if_neg (by simp), if_neg (by simp)]
        split
        · rfl
        · split <;> rfl
      · split
        · rfl
        · rw [if_pos (by rcases hr : ans (.send .pay) <;> simp_all)]
          rfl
    · rfl

theorem reqBuyGoods_charged (hne : sellUid ≠ uid) (h : Charged conf ans s uid price) :
    ((reqBuyGoods conf ord uid sellUid type idx id price).solo ans s).2 = if ans (.answer .pay) = .yes then
      ((purchase conf ord uid sellUid type idx id price).solo ans (deductGold conf uid price s).2).2
    else (deductGold conf uid price s).2 := by
  obtain ⟨hkid, hsend, hok⟩ := h
  unfold reqBuyGoods
  rw [if_neg hne, Co.solo_bind, getKidOfUid_solo, if_pos hkid]
  simp only [Co.next]
  rw [Co.solo_bind, call_solo, hsend, if_neg (by simp), if_neg (by simp), deductGold_some hok]
  cases hr : ans (.answer .pay) with
  | raised => rfl
  | no => rfl
  | yes => rfl

theorem purchase_unsold (h : ¬Sold ans s sellUid type idx id price) :
    ((purchase conf ord uid sellUid type idx id price).solo ans s).2 =
    ((giveGold conf ord .refund uid price).solo ans s).2 := by
  unfold purchase
  rw [Co.solo_bind, Co.solo_xpcall, call_solo]
  cases hr : ans (.send .buy) with
  | raised => exact xpcall_state _ s
  | no => exact xpcall_state _ s
  | yes =>
    have hno : (buyGood sellUid type idx id price s).1 = none := by
      rw [← Option.not_isSome_iff_eq_none]
      exact fun hsome => h ⟨hr, hsome⟩
    have hsame := buyGood_none hno
    cases ha : ans (.answer .buy) with
    | raised =>
      simp only [if_true, reduceCtorEq, if_false, hsame]
      exact xpcall_state _ s
    | no =>
      simp only [if_true, reduceCtorEq, if_false, hsame]
      exact xpcall_state _ s
    | yes =>
      simp only [reduceCtorEq, if_false, hsame, hno]
      exact xpcall_state _ s

theorem purchase_sold (h : Sold ans s sellUid type idx id price) :
    ((purchase conf ord uid sellUid type idx id price).solo ans s).2.goods = (s.setGood type idx none).goods ∧
      ∀ u, u ≠ uid → ((purchase conf ord uid sellUid type idx id price).solo ans s).2.packs u = s.packs u := by
  obtain ⟨hsend, hsome⟩ := h
  obtain ⟨g, hg⟩ := Option.isSome_iff_exists.1 hsome
  have hsame := buyGood_some hg
  unfold purchase
  rw [Co.solo_bind, Co.solo_xpcall, call_solo, hsend]
  cases ha : ans (.answer .buy) with
  | raised =>
    simp only [if_true, reduceCtorEq, if_false, hsame, Co.next]
    rw [xpcall_state]
    exact giveGold_frame .refund uid price _
  | no =>
    simp only [if_true, reduceCtorEq, if_false, hsame, Co.next]
    rw [xpcall_state]
    exact giveGold_frame .refund uid price _
  | yes =>
    simp only [reduceCtorEq, if_false, hsame, hg, Co.next]
    rw [Co.solo_bind, Co.solo_xpcall]
    exact hand_frame .hand uid g _

theorem refunded_held (hs : Sane (s.packs uid)) (h : Charged conf ans s uid price)
    (hr : Refunded conf ord ans s uid price) (k : Nat) :
    held conf (((giveGold conf ord .refund uid price).solo ans (deductGold conf uid price s).2).2.packs uid) k =
      held conf (s.packs uid) k := by
  obtain ⟨hsane, hded, -⟩ := deductItem_one conf hs gold price
  obtain ⟨-, hadd, -⟩ := addItems_one conf ord hsane gold price
  have hpack : (deductGold conf uid price s).2.packs uid = ((s.packs uid).deductItem conf gold price).2 := by
    rw [deductGold_some h.2.2]
    simp [Svc.setPack]
  have hgive : ((addItem conf ord uid gold price (fun l => l.pay uid (-price)) (deductGold conf uid price s).2).2.packs
    uid) =
      (((s.packs uid).deductItem conf gold price).2.addItems conf ord [⟨gold, price⟩]).2 := by
    unfold addItem
    rw [hpack]
    simp only [if_pos hr.2.2]
    simp [Svc.setPack]
  have hcall : ((call .free .refund (addItem conf ord uid gold price (fun l => l.pay uid (-price)))).solo ans
      (deductGold conf uid price s).2).2 =
      (addItem conf ord uid gold price (fun l => l.pay uid (-price)) (deductGold conf uid price s).2).2 := by
    rw [call_solo, hr.2.1, if_neg (by simp), if_neg (by simp)]
    split
    · rfl
    · split <;> rfl
  unfold giveGold
  rw [deliver_solo, if_pos hr.1, hcall, hgive, hadd hr.2.2 k, (hded h.2.2).2 k]
  omega

theorem unrefunded_state (hs : Sane (s.packs uid)) (h : Charged conf ans s uid price)
    (hr : ¬Refunded conf ord ans s uid price) :
    ((giveGold conf ord .refund uid price).solo ans (deductGold conf uid price s).2).2 =
      (deductGold conf uid price s).2 := by
  have hpack : (deductGold conf uid price s).2.packs uid = ((s.packs uid).deductItem conf gold price).2 := by
    rw [deductGold_some h.2.2]
    simp [Svc.setPack]
  unfold giveGold
  rw [deliver_solo]
  split
  · rename_i hkid
    rw [call_solo]
    by_cases hsend : ans (.send .refund) = .yes
    · have hsane : Sane ((deductGold conf uid price s).2.packs uid) := by
        rw [hpack]
        exact (deductItem_one conf hs gold price).1
      have hno : (addItem conf ord uid gold price (fun l => l.pay uid (-price)) (deductGold conf uid price s).2).1 =
        none := by
        unfold addItem
        rw [hpack]
        simp only [if_neg (fun hok => hr ⟨hkid, hsend, hok⟩)]
      rw [addItem_none hsane hno, hsend, if_neg (by simp), if_neg (by simp)]
      split
      · rfl
      · split <;> rfl
    · split
      · rfl
      · rw [if_pos (by rcases hx : ans (.send .refund) <;> simp_all)]
  · rfl

end Steps

/-- **A purchase pays the seller once or does nothing exactly when nothing is taken from the buyer, or the market keeps the
good and the gold is given back**: a good that is sold is never paid for. -/
theorem paysOnce_iff (conf : Conf) (ord : Visit) (ans : Req → Reply) (s : Svc) (hs : ∀ uid, Sane (s.packs uid))
    (uid sellUid type idx id : Nat) (price : Int) : PaysOnce conf ord ans s uid sellUid type idx id price ↔
      Spared conf ord ans s uid sellUid type idx id price := by
  unfold PaysOnce
  by_cases hself : sellUid = uid
  · have hstate : ((reqBuyGoods conf ord uid sellUid type idx id price).solo ans s).2 = s := by
      unfold reqBuyGoods
      rw [if_pos hself]
      rfl
    rw [hstate]
    exact ⟨fun _ => .inl hself, fun _ => .inr ⟨rfl, fun _ => rfl⟩⟩
  by_cases hcharged : Charged conf ans s uid price
  · obtain ⟨-, hded, -⟩ := deductItem_one conf (hs uid) gold price
    obtain ⟨hpos, hheld⟩ := hded hcharged.2.2
    have hpack : (deductGold conf uid price s).2.packs uid = ((s.packs uid).deductItem conf gold price).2 := by
      rw [deductGold_some hcharged.2.2]
      simp [Svc.setPack]
    have hgoods : (deductGold conf uid price s).2.goods = s.goods := by
      rw [deductGold_some hcharged.2.2]
      rfl
    -- a state in which the gold is gone and the market as it was is neither
    have hgone : ∀ s', s'.packs uid = (deductGold conf uid price s).2.packs uid → s'.goods = s.goods →
        ¬(Paid conf uid type idx price s s' ∨ Untouched conf uid s s') := by
      rintro s' hp hg (⟨g, hin, hout, -⟩ | ⟨-, hsame⟩)
      · have := congrFun (congrFun (hg.symm.trans hout) type) idx
        rw [hin] at this
        simp [Svc.setGood] at this
      · have := hsame gold
        rw [hp, hpack, hheld gold, if_pos rfl] at this
        omega
    have hsold : Sold ans (deductGold conf uid price s).2 sellUid type idx id price ↔
      Sold ans s sellUid type idx id price := by
      unfold Sold buyGood
      rw [hgoods]
      cases s.goods type idx with
      | none => rfl
      | some g => by_cases hg : g.uid ≠ sellUid ∨ g.id ≠ id ∨ g.gold ≠ price <;> simp [hg]
    rw [reqBuyGoods_charged hself hcharged]
    by_cases hans : ans (.answer .pay) = .yes
    · rw [if_pos hans]
      by_cases hmarket : Sold ans s sellUid type idx id price
      · -- the market gave the good away, and the seller's backpack is as it was
        have hpurchase : ((purchase conf ord uid sellUid type idx id price).solo ans
          (deductGold conf uid price s).2).2.goods = _ ∧
            ∀ u, u ≠ uid → _ := purchase_sold (hsold.2 hmarket)
        obtain ⟨hout, hother⟩ := hpurchase
        obtain ⟨g, hin, hseller⟩ := sold_good hmarket
        have hne : g.uid ≠ uid := by
          rw [hseller]
          exact hself
        refine ⟨?_, ?_⟩
        · rintro (⟨g', hin', -, -, hpaid, -⟩ | ⟨hkept, -⟩)
          · rw [hin] at hin'
            cases hin'
            have hsame : (deductGold conf uid price s).2.packs g.uid = s.packs g.uid := by
              rw [deductGold_some hcharged.2.2]
              simp [Svc.setPack, hne]
            have := hpaid gold
            rw [hother g.uid hne, hsame, if_pos rfl] at this
            omega
          · have := congrFun (congrFun (hkept.symm.trans hout) type) idx
            rw [hin] at this
            simp [Svc.setGood] at this
        · rintro (h | h | ⟨-, h, -⟩)
          · exact absurd h hself
          · exact absurd hcharged h
          · exact absurd hmarket h
      · rw [purchase_unsold (fun h => hmarket (hsold.1 h))]
        by_cases hrefund : Refunded conf ord ans s uid price
        · refine ⟨fun _ => .inr (.inr ⟨hans, hmarket, hrefund⟩), fun _ =>
            .inr ⟨?_, refunded_held (hs uid) hcharged hrefund⟩⟩
          rw [(giveGold_frame .refund uid price _).1, hgoods]
        · rw [unrefunded_state (hs uid) hcharged hrefund]
          refine ⟨fun h => absurd h (hgone _ rfl hgoods), ?_⟩
          rintro (h | h | ⟨-, -, h⟩)
          · exact absurd h hself
          · exact absurd hcharged h
          · exact absurd h hrefund
    · rw [if_neg hans]
      refine ⟨fun h => absurd h (hgone _ rfl hgoods), ?_⟩
      rintro (h | h | ⟨h, -⟩)
      · exact absurd h hself
      · exact absurd hcharged h
      · exact absurd h hans
  · rw [reqBuyGoods_uncharged (hs uid) hcharged]
    exact ⟨fun _ => .inr (.inl hcharged), fun _ => .inr ⟨rfl, fun _ => rfl⟩⟩

def listing : Svc :=
  opening (packs (.init none)) [sold] (fun uid i => if uid = 7 ∧ i = 0 then some sold else none) 1

theorem listing_sane (uid : Nat) : Sane (listing.packs uid) := packs_sane init_sane uid

theorem paysOnce_refused : Spared Conf.game .inOrder (fun _ => .yes) listing 8 7 0 0 1001 4 ∧
    PaysOnce Conf.game .inOrder (fun _ => .yes) listing 8 7 0 0 1001 4 := by
  have hspared : Spared Conf.game .inOrder (fun _ => .yes) listing 8 7 0 0 1001 4 := by
    refine .inr (.inr ⟨rfl, ?_, rfl, rfl, by decide +kernel⟩)
    rintro ⟨-, h⟩
    revert h
    decide +kernel
  exact ⟨hspared, (paysOnce_iff Conf.game .inOrder (fun _ => .yes) listing listing_sane 8 7 0 0 1001 4).2 hspared⟩

theorem seller_unpaid : (∀ uid, Sane (listing.packs uid)) ∧
    ¬PaysOnce Conf.game .inOrder (fun _ => .yes) listing 8 7 0 0 1001 5 := by
  have h : decide (((reqBuyGoods Conf.game .inOrder 8 7 0 0 1001 5).solo (fun _ => .yes) listing).2.goods 0 0 = none ∧
      listing.goods 0 0 = some sold ∧
      held Conf.game (((reqBuyGoods Conf.game .inOrder 8 7 0 0 1001 5).solo (fun _ => .yes) listing).2.packs 7) gold = 0 ∧
      held Conf.game (listing.packs 7) gold = 0) = true := by
    decide +kernel
  obtain ⟨hout, hin, hafter, hbefore⟩ := of_decide_eq_true h
  refine ⟨listing_sane, ?_⟩
  rintro (⟨g, hg, -, -, hpaid, -⟩ | ⟨hsame, -⟩)
  · rw [hin] at hg
    cases hg
    have := hpaid gold
    rw [show sold.uid = 7 from rfl, hafter, hbefore] at this
    revert this
    decide
  · rw [hsame, hin] at hout
    cases hout

end Trade
end Sncpp
