import Sncpp.MailEvict
import Sncpp.Sweep
import Sncpp.TimerMgr
/-!
# MailExpire — the expiry timer of a player's mail (`updateExpireTimer`)

Every list is gone through from its end, the expired mails are removed by their ids, and the timer of the player is
set to what the loop has as the earliest time to come.
-/
namespace Sncpp
namespace Mail

open Sweep

inductive TimerType where
  | shareExpire
  | playerExpire
  | playerRelease
  | mailRelease
  | mailExpire
deriving DecidableEq

/-- The order in which `pairs` visits the lists. -/
structure SetOrder where
  order : List SetType
  perm : order.Perm SetType.all

/-- One turn of the inner loop at position `k`: the mail, and the earliest time so far. -/
def expireTurn (time : Nat) (st : SetType) (p : PlayerMail × Nat) (k : Nat) : PlayerMail × Nat :=
  match (p.1.listOf st)[k]? with
  | none => p
  | some r =>
    let c := p.1.cells r
    if 0 < c.expiretime then
      if c.expiretime ≤ time then ((p.1.removeMail c.mid true (some r)).2, p.2)
      else (p.1, if c.expiretime < p.2 then c.expiretime else p.2)
    else p

def expireList (time : Nat) (st : SetType) : Nat → PlayerMail × Nat → PlayerMail × Nat
  | 0, p => p
  | k + 1, p => expireList time st k (expireTurn time st p k)

def PlayerMail.expire (m : PlayerMail) (ord : SetOrder) (time : Nat) : PlayerMail × Nat :=
  ord.order.foldl (fun p st => expireList time st (p.1.listOf st).length p) (m, 0)

def updateExpireTimer (ord : SetOrder) (uid : Nat) (time : Nat) (m : PlayerMail) (timerMgr : TimerMgr Nat TimerType) :
    PlayerMail × TimerMgr Nat TimerType :=
  let p := m.expire ord time
  (p.1, timerMgr.updateTimer time uid .playerExpire p.2)

def armed (timerMgr : TimerMgr Nat TimerType) (uid : Nat) : Option Int :=
  (timerMgr.timerId (uid, .playerExpire)).bind timerMgr.timer.zset.score

def PlayerMail.overdue (m : PlayerMail) (time : Nat) (r : Nat) : Bool :=
  decide (0 < (m.cells r).expiretime) && decide ((m.cells r).expiretime ≤ time)

def PlayerMail.earliest (m : PlayerMail) : Option Nat :=
  ((SetType.all.flatMap m.listOf).filterMap (fun r => if 0 < (m.cells r).expiretime then some (m.cells r).expiretime else
    none)).min?

/-- **The expired mails go, the others stay, and the timer is set for the next of them.** -/
structure Expires (ord : SetOrder) (uid time : Nat) (m : PlayerMail) (timerMgr : TimerMgr Nat TimerType) : Prop where
  list : ∀ st, (updateExpireTimer ord uid time m timerMgr).1.listOf st = (m.listOf st).filter (fun r => !m.overdue time r)
  cells : (updateExpireTimer ord uid time m timerMgr).1.cells = m.cells
  timer : armed (updateExpireTimer ord uid time m timerMgr).2 uid =
    (updateExpireTimer ord uid time m timerMgr).1.earliest.map Int.ofNat

def OwnLists (m : PlayerMail) : Prop := ∀ st, ∀ r ∈ m.listOf st, (m.cells r).settype = st

theorem OwnLists.shortened {m m' : PlayerMail} (h : OwnLists m) (hs : Shortened m m') : OwnLists m' := by
  intro st r hr
  rw [(hs.cell r).2]
  exact h st r ((hs.sub st).subset hr)

section Loop

variable {time : Nat} {st : SetType} {m : PlayerMail}

theorem removeMail_own (h : OwnLists m) {r : Nat} (hr : r ∈ m.listOf st) (st' : SetType) :
    (m.removeMail (m.cells r).mid true (some r)).2.cells = m.cells ∧
      (m.removeMail (m.cells r).mid true (some r)).2.listOf st' =
        if st' = st then (m.listOf st).eraseP (fun x => decide ((m.cells x).mid = (m.cells r).mid)) else m.listOf st' := by
  obtain ⟨l, hl⟩ : ∃ l, m.list st = some l := by
    cases hl : m.list st with
    | none => simp [Data.listOf, hl] at hr
    | some l => exact ⟨l, rfl⟩
  have hlist : m.listOf st = l := by simp [Data.listOf, hl]
  have hdata := removeMail_list (h st r hr) hl
  refine ⟨by rw [hdata]; rfl, ?_⟩
  rw [hdata, listOf_setList, hlist]

theorem expireList_spec (time : Nat) (st : SetType) : ∀ (k : Nat) (m : PlayerMail), OwnLists m →
    (expireList time st k (m, 0)).1.cells = m.cells ∧ OwnLists (expireList time st k (m, 0)).1 ∧
      (expireList time st k (m, 0)).2 = 0 ∧
      ∀ st', (expireList time st k (m, 0)).1.listOf st' =
        if st' = st then sweep (fun r => (m.cells r).mid) (m.overdue time) k (m.listOf st) else m.listOf st'
  | 0, m, h => ⟨rfl, h, rfl, fun st' => by
      show m.listOf st' = if st' = st then m.listOf st else m.listOf st'
      split
      · rename_i he
        rw [he]
      · rfl⟩
  | k + 1, m, h => by
    rw [expireList, expireTurn, sweep]
    cases hr : (m.listOf st)[k]? with
    | none => exact expireList_spec time st k m h
    | some r =>
      simp only
      unfold PlayerMail.overdue
      by_cases hpos : 0 < (m.cells r).expiretime
      · rw [if_pos hpos]
        by_cases hle : (m.cells r).expiretime ≤ time
        · rw [if_pos hle, if_pos (by simp [hpos, hle])]
          have hown : OwnLists (m.removeMail (m.cells r).mid true (some r)).2 :=
            h.shortened (removeMail_shortened m _ true _)
          have hremove := removeMail_own h (List.mem_of_getElem? hr)
          obtain ⟨hcells, hown', hzero, hlist⟩ := expireList_spec time st k _ hown
          refine ⟨hcells.trans (hremove st).1, hown', hzero, fun st' => ?_⟩
          rw [hlist st', (hremove st).1, (hremove st).2, if_pos rfl]
          split
          · unfold PlayerMail.overdue
            rw [(hremove st).1]
          · rename_i hne
            rw [(hremove st').2, if_neg hne]
        · rw [if_neg hle, if_neg (Nat.not_lt_zero _), if_neg (by simp [hle])]
          exact expireList_spec time st k m h
      · rw [if_neg hpos, if_neg (by simp [hpos])]
        exact expireList_spec time st k m h

theorem foldl_expireList (time : Nat) : ∀ (l : List SetType) (m : PlayerMail), l.Nodup → OwnLists m →
    (l.foldl (fun p st => expireList time st (p.1.listOf st).length p) (m, 0)).1.cells = m.cells ∧
      (l.foldl (fun p st => expireList time st (p.1.listOf st).length p) (m, 0)).2 = 0 ∧
      ∀ st, (l.foldl (fun p st => expireList time st (p.1.listOf st).length p) (m, 0)).1.listOf st =
        if st ∈ l then sweep (fun r => (m.cells r).mid) (m.overdue time) (m.listOf st).length (m.listOf st) else m.listOf st
  | [], _, _, _ => ⟨rfl, rfl, fun _ => rfl⟩
  | x :: l, m, hn, h => by
    obtain ⟨hx, hn⟩ := List.nodup_cons.1 hn
    obtain ⟨hcells, hown, hzero, hlist⟩ := expireList_spec time x (m.listOf x).length m h
    have hp : expireList time x (m.listOf x).length (m, 0) = ((expireList time x (m.listOf x).length (m, 0)).1, 0) :=
      Prod.ext rfl hzero
    rw [List.foldl_cons]
    simp only
    rw [hp]
    generalize (expireList time x (m.listOf x).length (m, 0)).1 = m₁ at hcells hown hlist
    obtain ⟨hcells', hzero', hlist'⟩ := foldl_expireList time l m₁ hn hown
    refine ⟨hcells'.trans hcells, hzero', fun st => ?_⟩
    rw [hlist' st]
    unfold PlayerMail.overdue
    rw [hcells]
    by_cases hst : st = x
    · subst hst
      rw [if_neg hx, if_pos List.mem_cons_self, hlist st, if_pos rfl]
      rfl
    · rw [hlist st, if_neg hst]
      exact if_congr (by simp [hst]) rfl rfl

theorem expire_spec (ord : SetOrder) (time : Nat) (h : OwnLists m) : (m.expire ord time).1.cells = m.cells ∧
    (m.expire ord time).2 = 0 ∧ ∀ st, (m.expire ord time).1.listOf st =
      sweep (fun r => (m.cells r).mid) (m.overdue time) (m.listOf st).length (m.listOf st) := by
  have hnodup : ord.order.Nodup := ord.perm.nodup_iff.2 (by decide)
  obtain ⟨hcells, hzero, hlist⟩ := foldl_expireList time ord.order m hnodup h
  refine ⟨hcells, hzero, fun st => (hlist st).trans (if_pos ?_)⟩
  rw [ord.perm.mem_iff]
  cases st <;> decide

end Loop

theorem armed_updateTimer (timerMgr : TimerMgr Nat TimerType) (now : Int) (uid : Nat) :
    armed (timerMgr.updateTimer now uid .playerExpire 0) uid = none := by
  have hgone : (timerMgr.removeTimer uid (some .playerExpire)).timerId (uid, .playerExpire) = none :=
    TimerMgr.removeTimer_of_covers timerMgr ⟨rfl, .inr rfl⟩
  unfold armed
  rw [TimerMgr.updateTimer_of_le timerMgr (le_refl 0), hgone]
  rfl

theorem earliest_eq_none (m : PlayerMail) : m.earliest = none ↔ ∀ st, ∀ r ∈ m.listOf st, (m.cells r).expiretime = 0 := by
  unfold PlayerMail.earliest
  rw [List.min?_eq_none_iff, List.filterMap_eq_nil_iff]
  constructor
  · intro h st r hr
    have hmem : r ∈ SetType.all.flatMap m.listOf := List.mem_flatMap.2 ⟨st, by cases st <;> decide, hr⟩
    have hnone := h r hmem
    by_contra hne
    rw [if_pos (Nat.pos_of_ne_zero hne)] at hnone
    cases hnone
  · intro h r hr
    obtain ⟨st, -, hst⟩ := List.mem_flatMap.1 hr
    rw [if_neg (by rw [h st r hst]; exact Nat.lt_irrefl 0)]

/-- **The expiry works exactly when no mail is to expire later** - then there is no timer to set - **and no mail that does
not expire stands before an expired one of its id.** -/
theorem updateExpireTimer_iff (ord : SetOrder) (uid time : Nat) {m : PlayerMail} (h : OwnLists m)
    (timerMgr : TimerMgr Nat TimerType) :
    Expires ord uid time m timerMgr ↔ (∀ st, ∀ r ∈ m.listOf st, (m.cells r).expiretime ≤ time) ∧
      ∀ st, Apart (fun r => (m.cells r).mid) (m.overdue time) (m.listOf st) := by
  obtain ⟨hcells, hzero, hlist⟩ := expire_spec ord time h
  have hlists : (∀ st, (updateExpireTimer ord uid time m timerMgr).1.listOf st =
    (m.listOf st).filter (fun r => !m.overdue time r)) ↔
      ∀ st, Apart (fun r => (m.cells r).mid) (m.overdue time) (m.listOf st) := by
    refine forall_congr' (fun st => ?_)
    show (m.expire ord time).1.listOf st = _ ↔ _
    rw [hlist st]
    exact sweep_eq_filter_iff _ _ _
  have htimer : armed (updateExpireTimer ord uid time m timerMgr).2 uid = none := by
    show armed (timerMgr.updateTimer time uid .playerExpire (m.expire ord time).2) uid = none
    rw [hzero]
    exact armed_updateTimer timerMgr time uid
  constructor
  · intro hright
    refine ⟨fun st r hr => ?_, hlists.1 hright.list⟩
    by_contra hlater
    have hnone : (updateExpireTimer ord uid time m timerMgr).1.earliest = none :=
      Option.map_eq_none_iff.1 (hright.timer.symm.trans htimer)
    have hstays : r ∈ (updateExpireTimer ord uid time m timerMgr).1.listOf st := by
      rw [hright.list st]
      exact List.mem_filter.2 ⟨hr, by simp [PlayerMail.overdue, hlater]⟩
    have hzero' := (earliest_eq_none _).1 hnone st r hstays
    rw [hright.cells] at hzero'
    omega
  · rintro ⟨hpast, hapart⟩
    have hright := hlists.2 hapart
    refine ⟨hright, hcells, htimer.trans (Eq.symm ?_)⟩
    rw [Option.map_eq_none_iff, earliest_eq_none]
    intro st r hr
    rw [hright st] at hr
    obtain ⟨hmem, hlive⟩ := List.mem_filter.1 hr
    have hcell : (updateExpireTimer ord uid time m timerMgr).1.cells = m.cells := hcells
    rw [hcell]
    have hle := hpast st r hmem
    simp only [PlayerMail.overdue, Bool.not_eq_true', Bool.and_eq_false_iff, decide_eq_false_iff_not] at hlive
    omega

theorem expires_oneMail : Expires ⟨SetType.all, .refl _⟩ 7 100 (PlayerMail.init oneMail) .ctor := by
  refine (updateExpireTimer_iff ⟨SetType.all, .refl _⟩ 7 100 (fun st => ?_) .ctor).2 ⟨fun st => ?_, fun st => ?_⟩
  · cases st <;> decide
  · cases st <;> decide
  · unfold Apart
    cases st <;> decide

def laterMail : PlayerMail := ((PlayerMail.init oneMail).addNewMail ⟨32, .system, 5, false, 200⟩ none true).2

theorem no_timer_for_later_mail :
    (updateExpireTimer ⟨SetType.all, .refl _⟩ 7 100 laterMail .ctor).1.earliest = some 200 ∧
      armed (updateExpireTimer ⟨SetType.all, .refl _⟩ 7 100 laterMail .ctor).2 7 = none ∧
      ¬Expires ⟨SetType.all, .refl _⟩ 7 100 laterMail .ctor := by
  have hearliest : (updateExpireTimer ⟨SetType.all, .refl _⟩ 7 100 laterMail .ctor).1.earliest = some 200 := by decide
  have hnone : armed (updateExpireTimer ⟨SetType.all, .refl _⟩ 7 100 laterMail .ctor).2 7 = none := by decide
  refine ⟨hearliest, hnone, fun h => ?_⟩
  have htimer := h.timer
  rw [hearliest, hnone] at htimer
  cases htimer

end Mail
end Sncpp
