import Mathlib.Data.Finset.Card
import Sncpp.TimerList
/-!
# TimerListRun — the timers over every run

What an operation leaves (`Good.call_went`), and why `update` ends: while the clock stands, the timers of the list that were
not started just now are the only ones that can be due, and `update` takes one of them out with each listener that it calls
(`turns_le`).
-/
namespace Sncpp
namespace TimerList

structure Went (s t : State) (g g' : Watch) (ends : Prop) : Prop where
  good : Good t (g'.told t.called)
  live : ∀ node byUpdate, t.called = some (node, byUpdate) → g.cancelled node = false
  none_due : ends → t.called = none → ∀ m, t.list.linked m → 0 < (t.timer m).getRemainTime t.now

namespace Good

variable {s : State} {g g' : Watch} {node : ℕ}

theorem went {t : State} (h : Good t g') (hc : t.called = none) : Went s t g g' False := by
  refine ⟨?_, fun node byUpdate heq => ?_, fun hends => hends.elim⟩
  · rw [hc]
    exact h
  · rw [hc] at heq
    cases heq

theorem update_went (h : Good s g) (hc : s.called = none) : Went s s.update g g True := by
  obtain ⟨nodes, hnodes⟩ := h.ok
  have hturns : nodes.length < s.list.size.toNat + 1 := by
    rw [hnodes.1.size]
    omega
  obtain ⟨t, hgood, -, -, -, -, hcalled, -, hend⟩ := Good.loop (s.list.size.toNat + 1) h hnodes hturns
  rcases hend with ⟨heq, hdue⟩ | ⟨cur, hl, hdone, -, heq⟩
  · rw [State.update, heq]
    refine ⟨?_, fun node byUpdate hn => ?_, fun _ _ => hdue⟩
    · rw [hcalled, hc]
      exact hgood
    · rw [hcalled, hc] at hn
      cases hn
  · rw [State.update, heq]
    refine ⟨hgood.dispatch hl hdone true, fun node byUpdate hn => ?_, fun _ hn => by cases hn⟩
    obtain ⟨rfl, -⟩ := Prod.mk.inj (Option.some.inj hn)
    exact hgood.not_cancelled (Or.inl hl) hdone

theorem dispatchRightNow_went (h : Good s g) (hc : s.called = none) (node : ℕ) :
    Went s (s.dispatchRightNow node) g g False := by
  unfold State.dispatchRightNow
  split
  · next hcan =>
    refine ⟨h.dispatch hcan.1 hcan.2 false, fun m byUpdate hm => ?_, fun hends => hends.elim⟩
    obtain ⟨rfl, -⟩ := Prod.mk.inj (Option.some.inj hm)
    exact h.not_cancelled (Or.inl hcan.1) hcan.2
  · exact h.went hc

theorem back (h : Good s g) {byUpdate : Bool} {stack : List (ℕ × Bool)} (hs : s.stack = (node, byUpdate) :: stack)
    (hfits : s.list.linked node → (s.timer node).hasDone ∨ (s.timer node).startTime = s.now) :
    ∃ t, Good t g ∧ t.called = s.called ∧ s.ret = (if byUpdate then t.update else t) ∧
      (t = { s with stack := stack } ∨
        t = { ((s.remove node).setTimer node ((s.timer node).resetStartTime s.now)).insert node with stack := stack }) := by
  have hnode : node < s.fresh := by
    refine h.known node (Or.inr ?_)
    rw [State.waiting, hs]
    exact List.mem_cons_self
  have hret : s.ret = (if byUpdate then
      State.update (if (s.timer node).hasDone then { s with stack := stack }
        else { (s.setTimer node ((s.timer node).resetStartTime s.now)).insert node with stack := stack })
      else if (s.timer node).hasDone then { s with stack := stack }
        else { (s.setTimer node ((s.timer node).resetStartTime s.now)).insert node with stack := stack }) := by
    rw [State.ret]
    split
    · next hnil => cases hs.symm.trans hnil
    · next node' byUpdate' stack' hcons =>
      obtain ⟨hhead, rfl⟩ := List.cons.inj (hs.symm.trans hcons)
      obtain ⟨rfl, rfl⟩ := Prod.mk.inj hhead
      rfl
  by_cases hdone : (s.timer node).hasDone
  · rw [if_pos hdone] at hret
    exact ⟨_, h.pop hs (Or.inr hdone), rfl, hret, Or.inl rfl⟩
  · rw [if_neg hdone] at hret
    by_cases hl : s.list.linked node
    · have hstart := (hfits hl).resolve_left hdone
      have htimer : (s.timer node).resetStartTime s.now = s.timer node := by
        rw [Timer.resetStartTime, ← hstart]
      have hset : s.setTimer node ((s.timer node).resetStartTime s.now) = s := by
        rw [htimer, State.setTimer, Function.update_eq_self]
      rw [hset, State.Ok.insert_of_linked hl] at hret
      exact ⟨_, h.pop hs (Or.inl hl), rfl, hret, Or.inl rfl⟩
    · have hgood := h.relist hnode (t := (s.timer node).resetStartTime s.now) (h.counts node hnode).1
        (h.counts node hnode).2 (fun hc => ?_) fun m _ => ⟨rfl, rfl, rfl⟩
      · have hlist := ((h.ok.put node ((s.timer node).resetStartTime s.now)).2 node).2 (Or.inl rfl)
        refine ⟨_, hgood.pop hs (Or.inl hlist), rfl, ?_, Or.inr rfl⟩
        rw [h.ok.remove_of_not hl]
        exact hret
      · exact h.quiet node hc (Or.inr (by rw [State.waiting, hs]; exact List.mem_cons_self))

theorem ret_went (h : Good s g) (hc : s.called = none)
    (hfits : ∀ f ∈ s.stack.head?, s.list.linked f.1 → (s.timer f.1).hasDone ∨ (s.timer f.1).startTime = s.now) :
    Went s s.ret g g (s.updates .ret) := by
  cases hs : s.stack with
  | nil =>
    have hret : s.ret = s := by
      rw [State.ret]
      split
      · rfl
      · next hcons => cases hs.symm.trans hcons
    rw [hret]
    refine ⟨(h.went (s := s) (g := g) hc).good, (h.went (s := s) hc).live, fun hends => ?_⟩
    obtain ⟨node, hnode⟩ := hends
    rw [hs] at hnode
    cases hnode
  | cons f stack =>
    obtain ⟨node, byUpdate⟩ := f
    rw [hs] at hfits
    obtain ⟨t, hgood, hcalled, hret, -⟩ := h.back hs (hfits (node, byUpdate) rfl)
    rw [hret]
    cases byUpdate with
    | false =>
      have hwent := hgood.went (s := s) (g := g) (hcalled.trans hc)
      refine ⟨hwent.good, hwent.live, fun hends => ?_⟩
      obtain ⟨node', hnode⟩ := hends
      rw [hs] at hnode
      cases hnode
    | true =>
      have hwent := hgood.update_went (hcalled.trans hc)
      exact ⟨hwent.good, hwent.live, fun _ => hwent.none_due trivial⟩

theorem change_went (h : Good s g) (hc : s.called = none) (hnode : node < s.fresh) {f : Timer → Timer}
    (hf : ∀ t, (f t).count = t.count) (hfits : s.list.linked node ∨ (s.timer node).hasDone ∨ s.waiting node) :
    Went s (s.change node f) g g False := by
  refine (h.change hnode hf hfits).went ?_
  unfold State.change
  split <;> exact hc

theorem call_went (h : Good s g) (hc : s.called = none) (op : Op) (hfits : s.fits op) :
    Went s (s.call op) g (g.call s op) (s.updates op) := by
  cases op with
  | createTimer time count =>
    refine (h.createTimer time count).went ?_
    simp only [State.createTimer]
    split <;> exact hc
  | restartTimer node time count =>
    simp only [State.call, Watch.call]
    split
    · next hnode =>
      refine (h.restartTimer hnode time count).went ?_
      simp only [State.restartTimer]
      split <;> exact hc
    · exact h.went hc
  | cancelTimer node =>
    simp only [State.call, Watch.call]
    split
    · refine (h.cancelTimer hfits).went ?_
      unfold State.cancelTimer
      split <;> exact hc
    · exact h.went hc
  | dispatchRightNow node =>
    simp only [State.call]
    split
    · exact h.dispatchRightNow_went hc node
    · exact h.went hc
  | modifyTime node time =>
    simp only [State.call]
    split
    · next hnode => exact h.change_went hc hnode (fun _ => rfl) hfits
    · exact h.went hc
  | increaseTime node time =>
    simp only [State.call]
    split
    · next hnode => exact h.change_went hc hnode (fun _ => rfl) (hfits.imp_right Or.inl)
    · exact h.went hc
  | decreaseTime node time =>
    simp only [State.call]
    split
    · next hnode => exact h.change_went hc hnode (fun _ => rfl) (hfits.imp_right Or.inl)
    · exact h.went hc
  | update => exact h.update_went hc
  | ret => exact h.ret_went hc hfits

end Good
theorem step_good (w : World) (e : Event) (hfits : Fits w e) (h : Good w.state w.watch) :
    Right w e ∧ Good (step w e).state (step w e).watch := by
  have hwent := (h.wait e.pass).call_went rfl e.op hfits
  have hgood : Good (step w e).state (step w e).watch := hwent.good
  refine ⟨⟨hgood.ok, hwent.live, fun node hnode => ?_, hwent.none_due⟩, hgood⟩
  obtain ⟨hpos, hcount⟩ := hgood.counts node hnode
  exact ⟨hpos, hcount, hgood.spent node hnode⟩

def State.stale (s : State) (node : ℕ) : Prop := s.list.linked node ∧ (s.timer node).startTime < s.now

instance (s : State) (node : ℕ) : Decidable (s.stale node) := inferInstanceAs (Decidable (_ ∧ _))

def State.stales (s : State) : Finset ℕ := (Finset.range s.fresh).filter s.stale

namespace Good

variable {s t : State} {g : Watch} {node : ℕ}

theorem mem_stales (h : Good s g) (node : ℕ) : node ∈ s.stales ↔ s.stale node := by
  rw [State.stales, Finset.mem_filter, Finset.mem_range]
  exact and_iff_right_of_imp fun hs => h.known node (Or.inl hs.1)

theorem stales_subset (h : Good s g) (hsub : ∀ m, t.stale m → s.stale m) : t.stales ⊆ s.stales := fun m hm =>
  (h.mem_stales m).2 (hsub m (Finset.mem_filter.1 hm).2)

theorem stales_card_le (h : Good s g) : (s.stales.card : Int) ≤ s.list.size := by
  obtain ⟨nodes, hnodes⟩ := h.ok
  have hsub : s.stales ⊆ nodes.toFinset := fun m hm =>
    List.mem_toFinset.2 ((hnodes.linked_iff m).1 ((h.mem_stales m).1 hm).1)
  rw [hnodes.1.size]
  exact_mod_cast (Finset.card_le_card hsub).trans (List.toFinset_card_le nodes)

theorem start_lt {t : Timer} {now : Int} (htotal : 0 < t.totalTime) (hdue : t.getRemainTime now ≤ 0) :
    t.startTime < now := by
  simp only [Timer.getRemainTime] at hdue
  split_ifs at hdue <;> omega

theorem stale_put (h : Good s g) {t : Timer}
    (ht : t.startTime = s.now ∨ s.list.linked node ∧ t.startTime = (s.timer node).startTime)
    {m : ℕ} (hm : (((s.remove node).setTimer node t).insert node).stale m) : s.stale m := by
  obtain ⟨hl, hstart⟩ := hm
  rw [(h.ok.put node t).2] at hl
  by_cases hmn : m = node
  · subst hmn
    have hself : (((s.remove m).setTimer m t).insert m).timer m = t := Function.update_self _ _ _
    rw [hself] at hstart
    have hlt : t.startTime < s.now := hstart
    rcases ht with ht | ⟨hl, ht⟩
    · omega
    · exact ⟨hl, ht ▸ hlt⟩
  · have hsame : (((s.remove node).setTimer node t).insert node).timer m = s.timer m := Function.update_of_ne hmn _ _
    rw [hsame] at hstart
    exact ⟨hl.resolve_left hmn, hstart⟩

theorem stale_update (h : Good s g) (hc : s.called = none) (htotal : ∀ node < s.fresh, 0 < (s.timer node).totalTime) :
    (∀ m, s.update.stale m → s.stale m) ∧
      ∀ node byUpdate, s.update.called = some (node, byUpdate) → s.stale node ∧ ¬s.update.stale node := by
  obtain ⟨nodes, hnodes⟩ := h.ok
  have hturns : nodes.length < s.list.size.toNat + 1 := by
    rw [hnodes.1.size]
    omega
  obtain ⟨t, hgood, htimer, hnow, hfresh, -, hcalled, hlinked, hend⟩ :=
    Good.loop (s.list.size.toNat + 1) h hnodes hturns
  have hstale : ∀ m, t.stale m → s.stale m := by
    intro m hm
    rw [State.stale, htimer, hnow] at hm
    exact ⟨hlinked m hm.1, hm.2⟩
  rcases hend with ⟨heq, -⟩ | ⟨cur, hl, -, hdue, heq⟩
  · rw [State.update, heq]
    refine ⟨hstale, fun node byUpdate hn => ?_⟩
    rw [hcalled, hc] at hn
    cases hn
  · have hcur : s.stale cur := by
      rw [htimer, hnow] at hdue
      exact ⟨hlinked cur hl, start_lt (htotal cur (h.known cur (Or.inl (hlinked cur hl)))) hdue⟩
    have hgone : ∀ m, (t.dispatch cur true).stale m → m ≠ cur ∧ t.stale m := by
      intro m hm
      obtain ⟨hmn, hlm⟩ := ((hgood.ok.remove cur).2 m).1 hm.1
      have hsame : (t.dispatch cur true).timer m = t.timer m := Function.update_of_ne hmn _ _
      have hstart := hm.2
      rw [hsame] at hstart
      exact ⟨hmn, hlm, hstart⟩
    rw [State.update, heq]
    refine ⟨fun m hm => hstale m (hgone m hm).2, fun node byUpdate hn => ?_⟩
    obtain ⟨rfl, -⟩ := Prod.mk.inj (Option.some.inj hn)
    exact ⟨hcur, fun hm => (hgone _ hm).1 rfl⟩

/-- What an operation does to the stale timers: none comes, and one that `update` fires goes. -/
def Ages (s t : State) : Prop :=
  (∀ m, t.stale m → s.stale m) ∧ ∀ node, t.called = some (node, true) → s.stale node ∧ ¬t.stale node

theorem ages_of_none (hstale : ∀ m, t.stale m → s.stale m) (hc : t.called = none) : Ages s t :=
  ⟨hstale, fun node hn => by rw [hc] at hn; cases hn⟩

theorem dispatchRightNow_ages (h : Good s g) (hc : s.called = none) (node : ℕ) : Ages s (s.dispatchRightNow node) := by
  unfold State.dispatchRightNow
  split
  · refine ⟨fun m hm => ?_, fun m hm => ?_⟩
    · obtain ⟨hmn, hl⟩ := ((h.ok.remove node).2 m).1 hm.1
      have hsame : (s.dispatch node false).timer m = s.timer m := Function.update_of_ne hmn _ _
      have hstart := hm.2
      rw [hsame] at hstart
      exact ⟨hl, hstart⟩
    · cases hm
  · exact ages_of_none (fun _ hm => hm) hc

theorem change_ages (h : Good s g) (hc : s.called = none) {f : Timer → Timer}
    (hf : (f (s.timer node)).startTime = s.now ∨
      (s.list.linked node ∨ (s.timer node).hasDone) ∧ (f (s.timer node)).startTime = (s.timer node).startTime) :
    Ages s (s.change node f) := by
  unfold State.change
  split
  · exact ages_of_none (fun _ hm => hm) hc
  · next hdone =>
    exact ages_of_none (fun m hm => h.stale_put (hf.imp_right fun hn => ⟨hn.1.resolve_right hdone, hn.2⟩) hm) hc

theorem ret_ages (h : Good s g) (hc : s.called = none) (htotal : ∀ node < s.fresh, 0 < (s.timer node).totalTime)
    (hfits : s.fits .ret) : Ages s s.ret := by
  cases hs : s.stack with
  | nil =>
    have hret : s.ret = s := by
      rw [State.ret]
      split
      · rfl
      · next hcons => cases hs.symm.trans hcons
    rw [hret]
    exact ages_of_none (fun _ hm => hm) hc
  | cons f stack =>
    obtain ⟨node, byUpdate⟩ := f
    have hfits' : ∀ f ∈ s.stack.head?, s.list.linked f.1 → (s.timer f.1).hasDone ∨ (s.timer f.1).startTime = s.now := hfits
    rw [hs] at hfits'
    obtain ⟨t, hgood, hcalled, hret, hback⟩ := h.back hs (hfits' (node, byUpdate) rfl)
    have hstale : ∀ m, t.stale m → s.stale m := by
      rcases hback with rfl | rfl
      · exact fun m hm => hm
      · exact fun m hm => h.stale_put (Or.inl rfl) hm
    have htotal' : ∀ m < t.fresh, 0 < (t.timer m).totalTime := by
      rcases hback with rfl | rfl
      · exact htotal
      · intro m hm
        by_cases hmn : m = node
        · subst hmn
          have hself : Function.update s.timer m ((s.timer m).resetStartTime s.now) m = _ := Function.update_self _ _ _
          exact (congrArg Timer.totalTime hself).symm ▸ htotal m hm
        · have hsame : Function.update s.timer node ((s.timer node).resetStartTime s.now) m = _ :=
            Function.update_of_ne hmn _ _
          exact (congrArg Timer.totalTime hsame).symm ▸ htotal m hm
    rw [hret]
    cases byUpdate with
    | false => exact ages_of_none hstale (hcalled.trans hc)
    | true =>
      obtain ⟨hsub, hcur⟩ := hgood.stale_update (hcalled.trans hc) htotal'
      exact ⟨fun m hm => hstale m (hsub m hm), fun m hm => ⟨hstale m (hcur m true hm).1, (hcur m true hm).2⟩⟩

/-- **While the clock stands no timer becomes stale, and one that `update` fires is stale no more.** -/
theorem call_ages (h : Good s g) (hc : s.called = none) (htotal : ∀ node < s.fresh, 0 < (s.timer node).totalTime)
    (op : Op) (hfits : s.fits op) : Ages s (s.call op) := by
  have hstay : Ages s s := ages_of_none (fun _ hm => hm) hc
  cases op with
  | createTimer time count =>
    simp only [State.call, State.createTimer]
    split
    · exact hstay
    · have hnew : ¬s.list.linked s.fresh := fun hl => (h.known s.fresh (Or.inl hl)).ne rfl
      refine ages_of_none (fun m hm => ?_) hc
      rw [← h.ok.remove_of_not hnew] at hm
      exact h.stale_put (t := ⟨time, s.now, count.getD 1⟩) (Or.inl rfl) hm
  | restartTimer node time count =>
    simp only [State.call]
    split
    · have hremove : (if s.list.linked node then s.remove node else s) = s.remove node := by
        split
        · rfl
        · next hl => exact (h.ok.remove_of_not hl).symm
      simp only [State.restartTimer]
      rw [hremove]
      refine ages_of_none (fun m hm => h.stale_put (Or.inl ?_) hm) hc
      unfold Timer.setCount
      split <;> rfl
    · exact hstay
  | cancelTimer node =>
    simp only [State.call, State.cancelTimer]
    split
    · split
      · exact ages_of_none (fun m hm => ⟨(((h.ok.remove node).2 m).1 hm.1).2, hm.2⟩) hc
      · exact hstay
    · exact hstay
  | dispatchRightNow node =>
    simp only [State.call]
    split
    · exact h.dispatchRightNow_ages hc node
    · exact hstay
  | modifyTime node time =>
    simp only [State.call]
    split
    · exact h.change_ages hc (Or.inl rfl)
    · exact hstay
  | increaseTime node time =>
    simp only [State.call]
    split
    · exact h.change_ages hc (Or.inr ⟨hfits, rfl⟩)
    · exact hstay
  | decreaseTime node time =>
    simp only [State.call]
    split
    · exact h.change_ages hc (Or.inr ⟨hfits, rfl⟩)
    · exact hstay
  | update =>
    obtain ⟨hsub, hcur⟩ := h.stale_update hc htotal
    exact ⟨hsub, fun m hm => hcur m true hm⟩
  | ret => exact h.ret_ages hc htotal hfits

theorem ages_card (h : Good s g) (ht : Ages s t) :
    t.stales.card + (if t.called.any (·.2) then 1 else 0) ≤ s.stales.card := by
  have hsub := h.stales_subset ht.1
  split
  · next hany =>
    obtain ⟨⟨node, byUpdate⟩, hcalled, hby⟩ := (Option.any_eq_true _ _).1 hany
    obtain rfl : byUpdate = true := hby
    obtain ⟨hold, hnew⟩ := ht.2 node hcalled
    refine Finset.card_lt_card (Finset.ssubset_iff_subset_ne.2 ⟨hsub, fun heq => hnew ?_⟩)
    have hmem := (h.mem_stales node).2 hold
    rw [← heq] at hmem
    exact (Finset.mem_filter.1 hmem).2
  · exact Finset.card_le_card hsub

end Good

/-- **While the clock stands `update` fires no timer twice.** -/
theorem turns_le : ∀ (es : List Event) (w : World), Good w.state w.watch →
    Steps.Along step (fun w e => Fits w e ∧ Still w e) w es → turns w es ≤ w.state.stales.card
  | [], _, _, _ => Nat.zero_le _
  | e :: es, w, h, ⟨⟨hfits, hpass, htotal⟩, hrest⟩ => by
    have hwait : (w.state.wait e.pass).stales = w.state.stales := by
      ext m
      simp [State.stales, State.stale, State.wait, hpass]
    have hages := (h.wait e.pass).call_ages rfl htotal e.op hfits
    have hcard := (h.wait e.pass).ages_card hages
    rw [hwait] at hcard
    have hturns := turns_le es (step w e) (step_good w e hfits h).2 hrest
    rw [turns]
    refine le_trans ?_ hcard
    rw [Nat.add_comm]
    exact Nat.add_le_add_right hturns _

/-- **Timers are fired when they are due, as often as they have been told and not after they are cancelled, as long as those
that are changed are in the list**; and as long as the clock stands and their times are positive, `update` does not call
more listeners than there are timers in the list. -/
theorem timerList_of_run (now : Int) (es : List Event) (h : Steps.Along step Fits (start now) es) :
    Steps.Along step Right (start now) es ∧
      ∀ fs, Steps.Along step (fun w e => Fits w e ∧ Still w e) (es.foldl step (start now)) fs →
        (turns (es.foldl step (start now)) fs : Int) ≤ (es.foldl step (start now)).state.list.size := by
  have hgood : Good (es.foldl step (start now)).state (es.foldl step (start now)).watch :=
    Steps.Along.inv (I := fun w : World => Good w.state w.watch) (fun w e hfits hw => (step_good w e hfits hw).2) es
      (start now) h (start_good now)
  refine ⟨Steps.Along.keep (I := fun w : World => Good w.state w.watch) (fun w e hfits hw => (step_good w e hfits hw).symm)
    es (start now) (start_good now) h, fun fs hfs => ?_⟩
  exact (Int.ofNat_le.2 (turns_le fs _ hgood hfs)).trans hgood.stales_card_le

theorem timerList_of_run_two : Steps.Along step Right (start 0) [⟨0, .createTimer 10 (some 2)⟩, ⟨0, .createTimer 12 none⟩,
      ⟨10, .update⟩, ⟨0, .decreaseTime 1 1⟩, ⟨1, .ret⟩] ∧
    ∀ fs, Steps.Along step (fun w e => Fits w e ∧ Still w e) ([⟨0, .createTimer 10 (some 2)⟩, ⟨0, .createTimer 12 none⟩,
        ⟨10, .update⟩, ⟨0, .decreaseTime 1 1⟩, ⟨1, .ret⟩].foldl step (start 0)) fs →
      (turns ([⟨0, .createTimer 10 (some 2)⟩, ⟨0, .createTimer 12 none⟩, ⟨10, .update⟩, ⟨0, .decreaseTime 1 1⟩,
          ⟨1, .ret⟩].foldl step (start 0)) fs : Int) ≤
        ([⟨0, .createTimer 10 (some 2)⟩, ⟨0, .createTimer 12 none⟩, ⟨10, .update⟩, ⟨0, .decreaseTime 1 1⟩,
          ⟨1, .ret⟩].foldl step (start 0)).state.list.size :=
  timerList_of_run 0 _ (by decide)

theorem cancelled_fires : ¬Steps.Along step Right (start 0)
    [⟨0, .createTimer 10 none⟩, ⟨0, .cancelTimer 0⟩, ⟨0, .modifyTime 0 5⟩, ⟨5, .update⟩] := by
  intro h
  have hlive := h.2.2.2.1.2.1 0 true (by decide)
  revert hlive
  decide

end TimerList
end Sncpp
