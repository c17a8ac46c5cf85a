import Sncpp.Steps
import Sncpp.Tally
import Sncpp.TerrBuild
/-!
# TerrBuildRun — a centre is paid for and refunded once

Requests to `setTerrBuildType`, the executions of their calls in the guild service and the ends of the bars in any
order.  What a request has checked is not checked again when its calls have been answered, and a refund that fails is
taken for one that has not.
-/
namespace Sncpp
namespace TerrBuild

structure Setting (ι α : Type) where
  no : Nat
  objid : ι
  aid : α
  cost : Nat
deriving DecidableEq

/-- What a request waits for: `get_capital_limit`, or `update_wheat` to pay or to refund, under way or executed with this
answer. -/
inductive Stage (ι α : Type) where
  | limit
  | pay (cost : Nat)
  | paid (s : Option (Setting ι α))
  | refund (s : Setting ι α)
  | refunded (s : Setting ι α) (ok : Bool)
deriving DecidableEq

structure Req (ι α : Type) where
  objid : ι
  aid : α
  uid : Nat
  curTime : Int
  stage : Stage ι α
deriving DecidableEq

/-- `given` are the messages to the queue service that a building is given up; of the settings, those that have succeeded,
those of them that were cancelled and those whose bar has ended; and what was paid and what was refunded. -/
structure Land (ι α : Type) where
  objs : ι → TerrBuild α
  timer : ι → Bool
  wheat : α → Int
  reqs : List (Req ι α)
  given : List ι
  next : Nat
  settings : List (Setting ι α)
  cancelled : List (Setting ι α)
  completed : List Nat
  charges : List (Setting ι α)
  refunds : List (Setting ι α)

inductive Event (ι α : Type) where
  | setTerrBuildType (objid : ι) (aid : α) (buildType buildFlag : Int) (uid : Nat) (curTime : Int)
  | execute (n : Nat) (ok : Bool)
  | reply (n : Nat)
  | fail (n : Nat)
  | buildTime (objid : ι)
  | giveUpOwnedObj (n : Nat) (b : TerrBuild α)

variable {ι α : Type} [DecidableEq ι] [DecidableEq α]

def Setting.item (s : Setting ι α) : Item α := ⟨s.aid, s.cost⟩

def cost (aid : α) (l : List (Setting ι α)) : Int := Tally.total aid (l.map Setting.item)

def dear (l : List (Setting ι α)) : List (Setting ι α) := l.filter (fun s => 0 < s.cost)

def Req.payment (r : Req ι α) : Option (Setting ι α) :=
  match r.stage with
  | .paid s => s
  | _ => none

def Req.refunded (r : Req ι α) : Option (Setting ι α) :=
  match r.stage with
  | .refunded s true => some s
  | _ => none

def Req.found (r : Req ι α) : Option (Setting ι α) :=
  match r.stage with
  | .refund s => some s
  | .refunded s _ => some s
  | _ => none

namespace Land

variable (g : Config ι α) (w : Land ι α)

/-- `updateMapObjPro` winds the timer of `buildTime` when that changes. -/
def write (objid : ι) (b : TerrBuild α) : Land ι α :=
  { w with
    objs := Function.update w.objs objid b
    timer := if b.buildTime = (w.objs objid).buildTime then w.timer else Function.update w.timer objid (0 < b.buildTime) }

def drop (n : Nat) : Land ι α := { w with reqs := w.reqs.eraseIdx n }

def goOn (n : Nat) (r : Req ι α) : Land ι α := { w with reqs := r :: w.reqs.eraseIdx n }

def doSet (r : Req ι α) (s : Setting ι α) : Land ι α :=
  { w.write r.objid ((w.objs r.objid).set g r.uid r.curTime s.cost s.no) with settings := s :: w.settings }

def doCancel (objid : ι) (curTime : Int) (s : Setting ι α) : Land ι α :=
  { w.write objid ((w.objs objid).unset curTime) with cancelled := s :: w.cancelled }

def shown (objid : ι) (aid : α) : Setting ι α := ⟨(w.objs objid).no, objid, aid, (w.objs objid).costwheat⟩

def start (objid : ι) (aid : α) (buildType buildFlag : Int) (uid : Nat) (curTime : Int) : Land ι α × Option Bool :=
  if objid ∉ g.terr then (w, some false)
  else match (w.objs objid).setTerrBuildType g aid buildType buildFlag uid curTime with
    | .refuse _ => (w, some false)
    | .update b => (w.write objid b, some true)
    | .limit => ({ w with reqs := ⟨objid, aid, uid, curTime, .limit⟩ :: w.reqs }, none)
    | .refund =>
      if 0 < (w.objs objid).costwheat then
        ({ w with reqs := ⟨objid, aid, uid, curTime, .refund (w.shown objid aid)⟩ :: w.reqs }, none)
      else (w.doCancel objid curTime (w.shown objid aid), some true)

/-- The answer of `get_capital_limit` is there; a free centre is set at once. -/
def afterLimit (n : Nat) (r : Req ι α) : Land ι α × Option Bool :=
  let num := getTerrBuildNumType g.terr w.objs r.aid
  if g.get_capital_limit r.aid ≤ num then (w.drop n, some false)
  else match g.cost num with
    | none => (w.drop n, some false)
    | some costNum =>
      if 0 < costNum then (w.goOn n { r with stage := .pay costNum }, none)
      else ({ (w.drop n).doSet g r ⟨w.next, r.objid, r.aid, costNum⟩ with next := w.next + 1 }, some true)

def answered (n : Nat) (r : Req ι α) : Land ι α × Option Bool :=
  match r.stage with
  | .limit => w.afterLimit g n r
  | .paid (some s) => ((w.drop n).doSet g r s, some true)
  | .paid none => (w.drop n, some false)
  | .refunded s _ => ((w.drop n).doCancel r.objid r.curTime s, some true)
  | _ => (w, none)

def executed (n : Nat) (r : Req ι α) (ok : Bool) : Land ι α :=
  match r.stage, ok with
  | .pay costNum, true =>
    { w.goOn n { r with stage := .paid (some ⟨w.next, r.objid, r.aid, costNum⟩) } with
      wheat := Function.update w.wheat r.aid (w.wheat r.aid - costNum)
      next := w.next + 1
      charges := ⟨w.next, r.objid, r.aid, costNum⟩ :: w.charges }
  | .pay _, false => w.goOn n { r with stage := .paid none }
  | .refund s, true =>
    { w.goOn n { r with stage := .refunded s true } with
      wheat := Function.update w.wheat r.aid (w.wheat r.aid + s.cost)
      refunds := s :: w.refunds }
  | .refund s, false => w.goOn n { r with stage := .refunded s false }
  | _, _ => w

/-- A call that fails raises an error before it has been executed, which ends the request. -/
def failed (n : Nat) (r : Req ι α) : Land ι α × Option Bool :=
  match r.stage with
  | .limit => (w.drop n, some false)
  | .pay _ => (w.drop n, some false)
  | .refund _ => (w.drop n, some false)
  | _ => (w, none)

def timeout (objid : ι) : Land ι α :=
  let b := w.objs objid
  let w := { w with timer := Function.update w.timer objid false }
  if b.ownAid = none then w
  else
    { w.write objid b.buildTimeCallback with
      completed := if b.buildFlag = 1 then b.no :: w.completed else w.completed
      given := if b.buildFlag = 3 then objid :: w.given else w.given }

/-- The queue service takes the building from its alliance, whatever else it does to it. -/
def takenAway (objid : ι) (b : TerrBuild α) : Land ι α := w.write objid { b with ownAid := none }

def turn : Event ι α → Land ι α × Option Bool
  | .setTerrBuildType objid aid buildType buildFlag uid curTime => w.start g objid aid buildType buildFlag uid curTime
  | .execute n ok =>
    match w.reqs[n]? with
    | some r => (w.executed n r ok, none)
    | none => (w, none)
  | .reply n =>
    match w.reqs[n]? with
    | some r => w.answered g n r
    | none => (w, none)
  | .fail n =>
    match w.reqs[n]? with
    | some r => w.failed n r
    | none => (w, none)
  | .buildTime objid => (if w.timer objid = true then w.timeout objid else w, none)
  | .giveUpOwnedObj n b =>
    match w.given[n]? with
    | some objid => ({ w.takenAway objid b with given := w.given.eraseIdx n }, none)
    | none => (w, none)

def step (e : Event ι α) : Land ι α := (w.turn g e).1

def answer (e : Event ι α) : Option Bool := (w.turn g e).2

/-- The building is not a centre yet, and its alliance may have one more; a building that has been taken away counts for
nobody. -/
def Vacant (objid : ι) : Prop :=
  ∀ aid ∈ (w.objs objid).ownAid, (w.objs objid).buildType ≤ 0 ∧ getTerrBuildNumType g.terr w.objs aid <
    g.get_capital_limit aid

instance (objid : ι) : Decidable (w.Vacant g objid) :=
  inferInstanceAs (Decidable (∀ aid ∈ (w.objs objid).ownAid,
    (w.objs objid).buildType ≤ 0 ∧ getTerrBuildNumType g.terr w.objs aid < g.get_capital_limit aid))

def Cancels (s : Setting ι α) (ok : Bool) : Prop := ok = true ∧ s.no ∉ w.cancelled.map Setting.no ∧ s.no ∉ w.completed

instance (s : Setting ι α) (ok : Bool) : Decidable (w.Cancels s ok) := inferInstanceAs (Decidable (_ ∧ _ ∧ _))

/-- What a request has checked still holds when the answer of its call is there; without a cost there is no other call. -/
def StillHolds (objid : ι) (aid : α) : Stage ι α → Prop
  | .limit => g.cost (getTerrBuildNumType g.terr w.objs aid) = some 0 → w.Vacant g objid
  | .paid (some _) => w.Vacant g objid
  | .refunded s ok => w.Cancels s ok
  | _ => True

instance (objid : ι) (aid : α) : ∀ stage : Stage ι α, Decidable (w.StillHolds g objid aid stage)
  | .limit => inferInstanceAs (Decidable (g.cost (getTerrBuildNumType g.terr w.objs aid) = some 0 → w.Vacant g objid))
  | .paid (some _) => inferInstanceAs (Decidable (w.Vacant g objid))
  | .refunded s ok => inferInstanceAs (Decidable (w.Cancels s ok))
  | .pay _ => isTrue trivial
  | .paid none => isTrue trivial
  | .refund _ => isTrue trivial

def Holds (r : Req ι α) : Prop := w.StillHolds g r.objid r.aid r.stage

instance (r : Req ι α) : Decidable (w.Holds g r) := inferInstanceAs (Decidable (w.StillHolds g r.objid r.aid r.stage))

def Kept : Event ι α → Prop
  | .reply n => ∀ r ∈ w.reqs[n]?, w.Holds g r
  | _ => True

instance : ∀ e : Event ι α, Decidable (w.Kept g e)
  | .reply n => inferInstanceAs (Decidable (∀ r ∈ w.reqs[n]?, w.Holds g r))
  | .setTerrBuildType _ _ _ _ _ _ => isTrue trivial
  | .execute _ _ => isTrue trivial
  | .fail _ => isTrue trivial
  | .buildTime _ => isTrue trivial
  | .giveUpOwnedObj _ _ => isTrue trivial

/-- **A request that is answered with false has changed nothing**, with this step or before it. -/
def Harmless (e : Event ι α) : Prop :=
  w.answer g e = some false → (w.step g e).objs = w.objs ∧ (w.step g e).wheat = w.wheat ∧
    ∀ n, e = .reply n ∨ e = .fail n → ∀ r ∈ w.reqs[n]?, r.payment = none ∧ r.refunded = none

/-- **The centres of an alliance are within its limit**, and when no request is in flight each setting has been paid for
once, and refunded once if it was cancelled; none was both cancelled and completed. -/
structure Law (stock : α → Int) : Prop where
  limit : ∀ aid, getTerrBuildNumType g.terr w.objs aid ≤ g.get_capital_limit aid
  wheat : w.reqs = [] → ∀ aid, stock aid - w.wheat aid = cost aid w.settings - cost aid w.cancelled
  charges : w.reqs = [] → w.charges.Perm (dear w.settings)
  refunds : w.reqs = [] → w.refunds.Perm (dear w.cancelled)
  settings : (w.settings.map Setting.no).Nodup
  cancelled : (w.cancelled.map Setting.no).Nodup ∧ ∀ s ∈ w.cancelled, s ∈ w.settings ∧ s.no ∉ w.completed

/-- The state before the requests: no setting is under way, and the limits hold. -/
structure Ready : Prop where
  limit : ∀ aid, getTerrBuildNumType g.terr w.objs aid ≤ g.get_capital_limit aid
  flag : ∀ id, (w.objs id).ownAid ≠ none → (w.objs id).buildFlag ≠ 1
  reqs : w.reqs = []
  settings : w.settings = []
  cancelled : w.cancelled = []
  completed : w.completed = []
  charges : w.charges = []
  refunds : w.refunds = []

def Live (s : Setting ι α) : Prop := s ∈ w.settings ∧ s.no ∉ w.cancelled.map Setting.no ∧ s.no ∉ w.completed

structure Fits (r : Req ι α) : Prop where
  owner : ∀ aid ∈ (w.objs r.objid).ownAid, aid = r.aid
  pay : ∀ c, r.stage = .pay c → 0 < c
  payment : ∀ s ∈ r.payment, s.objid = r.objid ∧ s.aid = r.aid ∧ 0 < s.cost
  found : ∀ s ∈ r.found, s ∈ w.settings ∧ s.objid = r.objid ∧ s.aid = r.aid ∧ 0 < s.cost

def payments : List (Setting ι α) := w.reqs.filterMap Req.payment

structure Good (stock : α → Int) : Prop where
  limit : ∀ aid, getTerrBuildNumType g.terr w.objs aid ≤ g.get_capital_limit aid
  live : ∀ id, ∀ aid ∈ (w.objs id).ownAid, (w.objs id).buildFlag = 1 → w.Live (w.shown id aid)
  fits : ∀ r ∈ w.reqs, w.Fits r
  nos : ((w.payments ++ w.settings).map Setting.no).Nodup
  fresh : ∀ s ∈ w.payments ++ w.settings, s.no < w.next
  completed : ∀ no ∈ w.completed, no ∈ w.settings.map Setting.no
  cancelled : (w.cancelled.map Setting.no).Nodup ∧ ∀ s ∈ w.cancelled, s ∈ w.settings ∧ s.no ∉ w.completed
  charges : w.charges.Perm (w.payments ++ dear w.settings)
  refunds : w.refunds.Perm (w.reqs.filterMap Req.refunded ++ dear w.cancelled)
  wheat : ∀ aid, w.wheat aid = stock aid - cost aid w.charges + cost aid w.refunds

variable {g w} {stock : α → Int}

omit [DecidableEq ι] in
theorem cost_perm {aid : α} {l l' : List (Setting ι α)} (h : l.Perm l') : cost aid l = cost aid l' := by
  unfold cost Tally.total Tally.own
  exact (((h.map Setting.item).filter _).map Item.count).sum_eq

omit [DecidableEq ι] in
theorem cost_cons (aid : α) (s : Setting ι α) (l : List (Setting ι α)) :
    cost aid (s :: l) = (if s.aid = aid then (s.cost : Int) else 0) + cost aid l :=
      Tally.total_cons aid s.item (l.map Setting.item)

omit [DecidableEq ι] in
theorem cost_dear (aid : α) : ∀ l : List (Setting ι α), cost aid (dear l) = cost aid l
  | [] => rfl
  | s :: l => by
    unfold dear
    rw [List.filter_cons]
    by_cases hs : 0 < s.cost
    · rw [if_pos (decide_eq_true hs), cost_cons, cost_cons]
      congr 1
      exact cost_dear aid l
    · rw [if_neg (by simpa using hs), cost_cons]
      have hzero : s.cost = 0 := by omega
      have hrest : cost aid (l.filter (fun s => decide (0 < s.cost))) = cost aid l := cost_dear aid l
      simp [hzero, hrest]

omit [DecidableEq ι] [DecidableEq α] in
theorem dear_cons {s : Setting ι α} (h : 0 < s.cost) (l : List (Setting ι α)) : dear (s :: l) = s :: dear l :=
  List.filter_cons_of_pos (decide_eq_true h)

omit [DecidableEq ι] [DecidableEq α] in
theorem dear_cons_free {s : Setting ι α} (h : ¬ 0 < s.cost) (l : List (Setting ι α)) : dear (s :: l) = dear l :=
  List.filter_cons_of_neg (by simpa using h)

omit [DecidableEq ι] in
theorem Ready.good (h : w.Ready g) : w.Good g w.wheat where
  limit := h.limit
  live id aid hown hflag := absurd hflag (h.flag id (fun hno => by rw [hno] at hown; cases hown))
  fits r hr := by
    rw [h.reqs] at hr
    cases hr
  nos := by
    unfold payments
    rw [h.reqs, h.settings]
    exact List.nodup_nil
  fresh s hs := by
    unfold payments at hs
    rw [h.reqs, h.settings] at hs
    cases hs
  completed no hno := by
    rw [h.completed] at hno
    cases hno
  cancelled := by
    rw [h.cancelled]
    exact ⟨List.nodup_nil, fun s hs => by cases hs⟩
  charges := by
    unfold payments
    rw [h.charges, h.reqs, h.settings]
    exact List.Perm.refl _
  refunds := by
    rw [h.refunds, h.reqs, h.cancelled]
    exact List.Perm.refl _
  wheat aid := by
    rw [h.charges, h.refunds]
    simp [cost]

omit [DecidableEq ι] in
theorem Good.law (h : w.Good g stock) : w.Law g stock where
  limit := h.limit
  charges hquiet := by
    have hc := h.charges
    unfold payments at hc
    rw [hquiet] at hc
    exact hc
  refunds hquiet := by
    have hr := h.refunds
    rw [hquiet] at hr
    exact hr
  wheat hquiet aid := by
    have hc := h.charges
    have hr := h.refunds
    unfold payments at hc
    rw [hquiet] at hc hr
    rw [h.wheat aid, cost_perm hc, cost_perm hr, List.filterMap_nil, List.filterMap_nil, List.nil_append,
      List.nil_append, cost_dear,
      cost_dear]
    omega
  settings := by
    have hnos := h.nos
    rw [List.map_append] at hnos
    exact (List.nodup_append.1 hnos).2.1
  cancelled := h.cancelled

omit [DecidableEq ι] [DecidableEq α] in
theorem perm_reqs {n : Nat} {r : Req ι α} (hn : w.reqs[n]? = some r) : w.reqs.Perm (r :: w.reqs.eraseIdx n) := by
  obtain ⟨hlt, rfl⟩ := List.getElem?_eq_some_iff.1 hn
  exact (List.getElem_cons_eraseIdx_perm hlt).symm

omit [DecidableEq ι] [DecidableEq α] in
theorem filterMap_cons_toList {β : Type} (f : Req ι α → Option β) (r : Req ι α) (l : List (Req ι α)) :
    (r :: l).filterMap f = (f r).toList ++ l.filterMap f := by
  cases hr : f r with
  | none => simp [hr]
  | some x => simp [hr]

omit [DecidableEq ι] in
theorem Good.setReqs (h : w.Good g stock) {reqs : List (Req ι α)} (hfits : ∀ r ∈ reqs, w.Fits r)
    (hpayments : (reqs.filterMap Req.payment).Perm w.payments)
    (hrefunded : (reqs.filterMap Req.refunded).Perm (w.reqs.filterMap Req.refunded)) : Good g
      { w with reqs := reqs } stock where
  limit := h.limit
  live := h.live
  fits r hr := ⟨(hfits r hr).owner, (hfits r hr).pay, (hfits r hr).payment, (hfits r hr).found⟩
  nos := ((hpayments.append_right w.settings).map Setting.no).nodup_iff.2 h.nos
  fresh s hs := h.fresh s ((hpayments.append_right w.settings).mem_iff.1 hs)
  completed := h.completed
  cancelled := h.cancelled
  charges := h.charges.trans (hpayments.symm.append_right _)
  refunds := h.refunds.trans (hrefunded.symm.append_right _)
  wheat := h.wheat

omit [DecidableEq ι] in
theorem Good.addReq (h : w.Good g stock) {r : Req ι α} (hfits : w.Fits r) (hpayment : r.payment = none)
    (hrefunded : r.refunded = none) : Good g { w with reqs := r :: w.reqs } stock := by
  refine h.setReqs (fun r' hr' => ?_) ?_ ?_
  · rcases List.mem_cons.1 hr' with rfl | hr'
    · exact hfits
    · exact h.fits r' hr'
  · rw [filterMap_cons_toList, hpayment]
    exact List.Perm.refl _
  · rw [filterMap_cons_toList, hrefunded]
    exact List.Perm.refl _

omit [DecidableEq ι] in
theorem Good.drop (h : w.Good g stock) {n : Nat} {r : Req ι α} (hn : w.reqs[n]? = some r) (hpayment : r.payment = none)
    (hrefunded : r.refunded = none) : Good g (w.drop n) stock := by
  refine h.setReqs (fun r' hr' => h.fits r' (List.mem_of_mem_eraseIdx hr')) ?_ ?_
  · have hperm := (perm_reqs hn).filterMap Req.payment
    rw [filterMap_cons_toList, hpayment] at hperm
    exact hperm.symm
  · have hperm := (perm_reqs hn).filterMap Req.refunded
    rw [filterMap_cons_toList, hrefunded] at hperm
    exact hperm.symm

omit [DecidableEq ι] in
theorem Good.goOn (h : w.Good g stock) {n : Nat} {r r' : Req ι α} (hn : w.reqs[n]? = some r) (hfits : w.Fits r')
    (hpayment : r'.payment = none ∧ r.payment = none) (hrefunded : r'.refunded = none ∧ r.refunded = none) :
    Good g (w.goOn n r') stock := by
  have hdrop := h.drop hn hpayment.2 hrefunded.2
  exact hdrop.addReq ⟨hfits.owner, hfits.pay, hfits.payment, hfits.found⟩ hpayment.1 hrefunded.1

theorem Good.write (h : w.Good g stock) {id : ι} {b : TerrBuild α} (hown : ∀ aid ∈ b.ownAid, aid ∈ (w.objs id).ownAid)
    (hcenter : ∀ aid, b.CentreOf aid → (w.objs id).CentreOf aid) (hflag : b.ownAid ≠ none → b.buildFlag ≠ 1) :
    Good g (w.write id b) stock where
  limit aid := (num_update_le (hcenter aid)).trans (h.limit aid)
  live id' aid hown' hflag' := by
    by_cases hid : id' = id
    · subst hid
      simp only [Land.write, Function.update_self] at hown' hflag'
      exact absurd hflag' (hflag (fun hno => by rw [hno] at hown'; cases hown'))
    · simp only [Land.write, Function.update_of_ne hid] at hown' hflag'
      have hlive := h.live id' aid hown' hflag'
      simpa only [Live, shown, Land.write, Function.update_of_ne hid] using hlive
  fits r hr := by
    have hfits := h.fits r hr
    refine ⟨fun aid haid => hfits.owner aid ?_, hfits.pay, hfits.payment, hfits.found⟩
    by_cases hid : r.objid = id
    · rw [hid] at haid ⊢
      simp only [Land.write, Function.update_self] at haid
      exact hown aid haid
    · simpa only [Land.write, Function.update_of_ne hid] using haid
  nos := h.nos
  fresh := h.fresh
  completed := h.completed
  cancelled := h.cancelled
  charges := h.charges
  refunds := h.refunds
  wheat := h.wheat

theorem Good.doSet (h : w.Good g stock) {n next : Nat} {r : Req ι α} {s : Setting ι α} (hr : w.Fits r)
    (hvacant : w.Vacant g r.objid) (hobjid : s.objid = r.objid) (haid : s.aid = r.aid)
    (hcharges : w.charges.Perm ((w.drop n).payments ++ dear (s :: w.settings)))
    (hrefunds : w.refunds.Perm ((w.drop n).reqs.filterMap Req.refunded ++ dear w.cancelled))
    (hnos : (((w.drop n).payments ++ s :: w.settings).map Setting.no).Nodup)
    (hfresh : ∀ x ∈ (w.drop n).payments ++ s :: w.settings, x.no < next) :
    Good g { (w.drop n).doSet g r s with next := next } stock := by
  have hsettings : ((s :: w.settings).map Setting.no).Nodup := by
    rw [List.map_append] at hnos
    exact (List.nodup_append.1 hnos).2.1
  have hnew : s.no ∉ w.settings.map Setting.no := (List.nodup_cons.1 hsettings).1
  have hother : ∀ x, w.Live x → x ∈ s :: w.settings ∧ x.no ∉ w.cancelled.map Setting.no ∧ x.no ∉ w.completed := fun x hx =>
    ⟨List.mem_cons_of_mem s hx.1, hx.2⟩
  exact {
    limit := fun aid => by
      by_cases hown : aid ∈ (w.objs r.objid).ownAid
      · have hone : getTerrBuildNumType g.terr (Function.update w.objs r.objid
            ((w.objs r.objid).set g r.uid r.curTime s.cost s.no)) aid ≤ getTerrBuildNumType g.terr w.objs aid + 1 :=
          num_update_succ _ g.nodup
        exact hone.trans (hvacant aid hown).2
      · have hsame : getTerrBuildNumType g.terr (Function.update w.objs r.objid
            ((w.objs r.objid).set g r.uid r.curTime s.cost s.no)) aid ≤ getTerrBuildNumType g.terr w.objs aid :=
          num_update_le (fun hc => absurd hc.1 hown)
        exact hsame.trans (h.limit aid)
    live := fun id aid hown hflag => by
      by_cases hid : id = r.objid
      · subst hid
        have howner : aid = r.aid := by
          simp only [Land.doSet, Land.write, Land.drop, Function.update_self] at hown
          exact hr.owner aid hown
        have hshown : ({ (w.drop n).doSet g r s with next := next } : Land ι α).shown r.objid aid = s := by
          simp only [Land.doSet, Land.write, Land.drop, shown, Function.update_self, TerrBuild.set]
          rw [howner, ← haid, ← hobjid]
        rw [hshown]
        refine ⟨List.mem_cons_self, fun hmem => ?_, fun hmem => hnew (h.completed _ hmem)⟩
        obtain ⟨x, hx, hno⟩ := List.mem_map.1 hmem
        exact hnew (List.mem_map.2 ⟨x, (h.cancelled.2 x hx).1, hno⟩)
      · simp only [Land.doSet, Land.write, Land.drop, Function.update_of_ne hid] at hown hflag
        have hlive := hother _ (h.live id aid hown hflag)
        simpa only [Live, shown, Land.doSet, Land.write, Land.drop, Function.update_of_ne hid] using hlive
    fits := fun r' hr' => by
      have hfits := h.fits r' (List.mem_of_mem_eraseIdx hr')
      refine ⟨fun aid howner => hfits.owner aid ?_, hfits.pay, hfits.payment, fun x hx => ?_⟩
      · by_cases hid : r'.objid = r.objid
        · rw [hid] at howner ⊢
          simp only [Land.doSet, Land.write, Land.drop, Function.update_self] at howner
          exact howner
        · simpa only [Land.doSet, Land.write, Land.drop, Function.update_of_ne hid] using howner
      · exact ⟨List.mem_cons_of_mem s (hfits.found x hx).1, (hfits.found x hx).2⟩
    nos := hnos
    fresh := hfresh
    completed := fun no hno => List.mem_cons_of_mem _ (h.completed no hno)
    cancelled := ⟨h.cancelled.1, fun x hx => ⟨List.mem_cons_of_mem s (h.cancelled.2 x hx).1, (h.cancelled.2 x hx).2⟩⟩
    charges := hcharges
    refunds := hrefunds
    wheat := h.wheat }

theorem Good.doCancel (h : w.Good g stock) {objid : ι} {s : Setting ι α} (hlive : w.Live s) (hobjid : s.objid = objid)
    (curTime : Int)
    {reqs : List (Req ι α)} (hreqs : ∀ r ∈ reqs, r ∈ w.reqs) (hpayments : (reqs.filterMap Req.payment).Perm w.payments)
    (hrefunds : w.refunds.Perm (reqs.filterMap Req.refunded ++ dear (s :: w.cancelled))) :
    Good g (({ w with reqs := reqs } : Land ι α).doCancel objid curTime s) stock := by
  have hsettings := h.law.settings
  have hwrite : Good g (w.write objid ((w.objs objid).unset curTime)) stock :=
    h.write (fun _ haid => haid) (fun _ hc => absurd hc.2 (by decide : init ≠ center)) (fun _ =>
      (by decide : (0 : Int) ≠ 1))
  exact {
    limit := hwrite.limit
    live := fun id aid hown hflag => by
      have hold := hwrite.live id aid hown hflag
      refine ⟨hold.1, fun hmem => ?_, hold.2.2⟩
      rcases List.mem_cons.1 hmem with heq | hmem
      · have hsame := List.inj_on_of_nodup_map hsettings hold.1 hlive.1 heq
        have hid : id = objid := (congrArg Setting.objid hsame).trans hobjid
        subst hid
        simp only [Land.doCancel, Land.write, Function.update_self] at hflag
        cases hflag
      · exact hold.2.1 hmem
    fits := fun r hr => by
      have hfits := hwrite.fits r (hreqs r hr)
      exact ⟨hfits.owner, hfits.pay, hfits.payment, hfits.found⟩
    nos := ((hpayments.append_right w.settings).map Setting.no).nodup_iff.2 h.nos
    fresh := fun x hx => h.fresh x ((hpayments.append_right w.settings).mem_iff.1 hx)
    completed := h.completed
    cancelled := by
      refine ⟨List.nodup_cons.2 ⟨hlive.2.1, h.cancelled.1⟩, fun x hx => ?_⟩
      rcases List.mem_cons.1 hx with rfl | hx
      · exact ⟨hlive.1, hlive.2.2⟩
      · exact h.cancelled.2 x hx
    charges := h.charges.trans (hpayments.symm.append_right _)
    refunds := hrefunds
    wheat := h.wheat }

theorem Good.timeout (h : w.Good g stock) (objid : ι) : (w.timeout objid).Good g stock := by
  unfold Land.timeout
  dsimp only
  split
  · exact ⟨h.limit, h.live, fun r hr =>
      ⟨(h.fits r hr).owner, (h.fits r hr).pay, (h.fits r hr).payment, (h.fits r hr).found⟩, h.nos,
      h.fresh, h.completed, h.cancelled, h.charges, h.refunds, h.wheat⟩
  next hown =>
    have hcall : ((w.objs objid).buildTimeCallback).ownAid = (w.objs objid).ownAid ∧
        (∀ aid, ((w.objs objid).buildTimeCallback).CentreOf aid → (w.objs objid).CentreOf aid) ∧
        ((w.objs objid).buildTimeCallback).buildFlag ≠ 1 := by
      unfold buildTimeCallback
      split
      · exact ⟨rfl, fun _ hc => hc, (by decide : (0 : Int) ≠ 1)⟩
      split
      · exact ⟨rfl, fun _ hc => absurd hc.2 (by decide : init ≠ center), (by decide : (0 : Int) ≠ 1)⟩
      next hone _ => exact ⟨rfl, fun _ hc => hc, hone⟩
    have hwrite : Good g (w.write objid (w.objs objid).buildTimeCallback) stock :=
      h.write (fun _ haid => hcall.1 ▸ haid) hcall.2.1 (fun _ => hcall.2.2)
    obtain ⟨aid, howner⟩ := Option.ne_none_iff_exists'.1 hown
    by_cases hflag : (w.objs objid).buildFlag = 1
    · have hlive := h.live objid aid howner hflag
      exact {
        limit := hwrite.limit
        live := fun id aid' hown' hflag' => by
          have hold := hwrite.live id aid' hown' hflag'
          refine ⟨hold.1, hold.2.1, fun hmem => ?_⟩
          rw [if_pos hflag] at hmem
          rcases List.mem_cons.1 hmem with heq | hmem
          · have hsame := List.inj_on_of_nodup_map h.law.settings hold.1 hlive.1 heq
            have hid : id = objid := congrArg Setting.objid hsame
            subst hid
            simp only [Land.write, Function.update_self] at hflag'
            exact hcall.2.2 hflag'
          · exact hold.2.2 hmem
        fits := fun r hr => by
          have hfits := hwrite.fits r hr
          exact ⟨hfits.owner, hfits.pay, hfits.payment, hfits.found⟩
        nos := h.nos
        fresh := h.fresh
        completed := fun no hno => by
          rw [if_pos hflag] at hno
          rcases List.mem_cons.1 hno with rfl | hno
          · exact List.mem_map.2 ⟨_, hlive.1, rfl⟩
          · exact h.completed no hno
        cancelled := by
          refine ⟨h.cancelled.1, fun x hx => ⟨(h.cancelled.2 x hx).1, fun hmem => ?_⟩⟩
          rw [if_pos hflag] at hmem
          rcases List.mem_cons.1 hmem with heq | hmem
          · exact hlive.2.1 (List.mem_map.2 ⟨x, hx, heq⟩)
          · exact (h.cancelled.2 x hx).2 hmem
        charges := h.charges
        refunds := h.refunds
        wheat := h.wheat }
    · rw [if_neg hflag]
      exact ⟨hwrite.limit, hwrite.live,
        fun r hr => ⟨(hwrite.fits r hr).owner, (hwrite.fits r hr).pay, (hwrite.fits r hr).payment,
          (hwrite.fits r hr).found⟩, h.nos,
        h.fresh, h.completed, h.cancelled, h.charges, h.refunds, h.wheat⟩

omit [DecidableEq ι] [DecidableEq α] in
theorem payments_perm {n : Nat} {r : Req ι α} (hn : w.reqs[n]? = some r) :
    w.payments.Perm (r.payment.toList ++ (w.drop n).payments) := by
  have hperm := (perm_reqs hn).filterMap Req.payment
  rwa [filterMap_cons_toList] at hperm

omit [DecidableEq ι] [DecidableEq α] in
theorem refunded_perm {n : Nat} {r : Req ι α} (hn : w.reqs[n]? = some r) :
    (w.reqs.filterMap Req.refunded).Perm (r.refunded.toList ++ (w.drop n).reqs.filterMap Req.refunded) := by
  have hperm := (perm_reqs hn).filterMap Req.refunded
  rwa [filterMap_cons_toList] at hperm

omit [DecidableEq ι] in
theorem Good.pay (h : w.Good g stock) {n c : Nat} {r : Req ι α} (hn : w.reqs[n]? = some r) (hstage : r.stage = .pay c) :
    Good g { w.goOn n { r with stage := .paid (some ⟨w.next, r.objid, r.aid, c⟩) } with
      wheat := Function.update w.wheat r.aid (w.wheat r.aid - c)
      next := w.next + 1
      charges := ⟨w.next, r.objid, r.aid, c⟩ :: w.charges } stock := by
  have hfits := h.fits r (List.mem_of_getElem? hn)
  have hpayments := payments_perm hn
  have hrefunded := refunded_perm hn
  simp only [Req.payment, hstage, Option.toList_none, List.nil_append] at hpayments
  simp only [Req.refunded, hstage, Option.toList_none, List.nil_append] at hrefunded
  have hnos := ((hpayments.append_right w.settings).map Setting.no).nodup_iff.1 h.nos
  have hfresh : ∀ s ∈ (w.drop n).payments ++ w.settings, s.no < w.next := fun s hs =>
    h.fresh s ((hpayments.append_right w.settings).mem_iff.2 hs)
  exact {
    limit := h.limit
    live := h.live
    fits := fun r' hr' => by
      rcases List.mem_cons.1 hr' with rfl | hr'
      · refine ⟨hfits.owner, (fun c' hc' => by cases hc'), fun s hs => ?_, (fun s hs => by cases hs)⟩
        obtain rfl := Option.some.inj hs
        exact ⟨rfl, rfl, hfits.pay c hstage⟩
      · have hfits' := h.fits r' (List.mem_of_mem_eraseIdx hr')
        exact ⟨hfits'.owner, hfits'.pay, hfits'.payment, hfits'.found⟩
    nos := by
      refine List.nodup_cons.2 ⟨fun hmem => ?_, hnos⟩
      obtain ⟨s, hs, hno⟩ := List.mem_map.1 hmem
      exact absurd (hfresh s hs) (by rw [hno]; exact Nat.lt_irrefl _)
    fresh := fun s hs => by
      rcases List.mem_cons.1 hs with rfl | hs
      · exact Nat.lt_succ_self _
      · exact Nat.lt_succ_of_lt (hfresh s hs)
    completed := h.completed
    cancelled := h.cancelled
    charges := (h.charges.trans (hpayments.append_right _)).cons _
    refunds := h.refunds.trans (hrefunded.append_right _)
    wheat := fun aid => by
      have hwheat := h.wheat aid
      by_cases ha : r.aid = aid
      · subst ha
        simp only [Function.update_self, cost_cons, if_true, Land.goOn]
        omega
      · simp only [Function.update_of_ne (Ne.symm ha), cost_cons, if_neg ha, Land.goOn]
        omega }

omit [DecidableEq ι] in
theorem Good.refund (h : w.Good g stock) {n : Nat} {r : Req ι α} {s : Setting ι α} (hn : w.reqs[n]? = some r)
    (hstage : r.stage = .refund s) :
    Good g { w.goOn n { r with stage := .refunded s true } with
      wheat := Function.update w.wheat r.aid (w.wheat r.aid + s.cost)
      refunds := s :: w.refunds } stock := by
  have hfits := h.fits r (List.mem_of_getElem? hn)
  obtain ⟨hset, hobjid, haid, hpos⟩ := hfits.found s (by simp [Req.found, hstage])
  have hpayments := payments_perm hn
  have hrefunded := refunded_perm hn
  simp only [Req.payment, hstage, Option.toList_none, List.nil_append] at hpayments
  simp only [Req.refunded, hstage, Option.toList_none, List.nil_append] at hrefunded
  exact {
    limit := h.limit
    live := h.live
    fits := fun r' hr' => by
      rcases List.mem_cons.1 hr' with rfl | hr'
      · refine ⟨hfits.owner, (fun c' hc' => by cases hc'), (fun x hx => by cases hx), fun x hx => ?_⟩
        obtain rfl := Option.some.inj hx
        exact ⟨hset, hobjid, haid, hpos⟩
      · have hfits' := h.fits r' (List.mem_of_mem_eraseIdx hr')
        exact ⟨hfits'.owner, hfits'.pay, hfits'.payment, hfits'.found⟩
    nos := ((hpayments.append_right w.settings).map Setting.no).nodup_iff.1 h.nos
    fresh := fun x hx => h.fresh x ((hpayments.append_right w.settings).mem_iff.2 hx)
    completed := h.completed
    cancelled := h.cancelled
    charges := h.charges.trans (hpayments.append_right _)
    refunds := (h.refunds.trans (hrefunded.append_right _)).cons _
    wheat := fun aid => by
      have hwheat := h.wheat aid
      by_cases ha : r.aid = aid
      · subst ha
        simp only [Function.update_self, cost_cons, if_pos haid, Land.goOn]
        omega
      · simp only [Function.update_of_ne (Ne.symm ha), cost_cons, haid, if_neg ha, Land.goOn]
        omega }

omit [DecidableEq ι] in
theorem Good.executed (h : w.Good g stock) {n : Nat} {r : Req ι α} (hn : w.reqs[n]? = some r) (ok : Bool) :
    (w.executed n r ok).Good g stock := by
  have hfits := h.fits r (List.mem_of_getElem? hn)
  unfold Land.executed
  cases hstage : r.stage with
  | limit => exact h
  | paid s => exact h
  | refunded s ok' => exact h
  | pay c =>
    cases ok with
    | true => exact h.pay hn hstage
    | false =>
      refine h.goOn hn ⟨hfits.owner, (fun c' hc' => by cases hc'), (fun s hs => by cases hs),
        (fun s hs => by cases hs)⟩ ⟨rfl, ?_⟩ ⟨rfl, ?_⟩
      · simp [Req.payment, hstage]
      · simp [Req.refunded, hstage]
  | refund s =>
    cases ok with
    | true => exact h.refund hn hstage
    | false =>
      refine h.goOn hn ⟨hfits.owner, (fun c' hc' => by cases hc'), (fun x hx => by cases hx),
        fun x hx => ?_⟩ ⟨rfl, ?_⟩ ⟨rfl, ?_⟩
      · exact hfits.found x (by simpa [Req.found, hstage] using hx)
      · simp [Req.payment, hstage]
      · simp [Req.refunded, hstage]

theorem Good.start (h : w.Good g stock) (objid : ι) (aid : α) (buildType buildFlag : Int) (uid : Nat) (curTime : Int) :
    (w.start g objid aid buildType buildFlag uid curTime).1.Good g stock := by
  unfold Land.start
  split
  · exact h
  have hfits : ((w.objs objid).setTerrBuildType g aid buildType buildFlag uid curTime).Fits (w.objs objid) aid :=
    setTerrBuildType_fits aid buildType buildFlag uid curTime
  split
  · exact h
  next b hturn =>
    rw [hturn] at hfits
    exact h.write (fun _ ha => hfits.1 ▸ ha) (fun _ hc => ⟨hfits.1 ▸ hc.1, hfits.2.1 ▸ hc.2⟩) (fun _ => hfits.2.2)
  next hturn =>
    rw [hturn] at hfits
    refine h.addReq ⟨fun a ha => ?_, (fun c hc => by cases hc), (fun s hs => by cases hs),
      (fun s hs => by cases hs)⟩ rfl rfl
    exact Option.some.inj (ha.symm.trans hfits)
  next hturn =>
    rw [hturn] at hfits
    obtain ⟨hown, hflag⟩ := hfits
    have hlive := h.live objid aid hown hflag
    split
    next hcost =>
      refine h.addReq ⟨fun a ha => ?_, (fun c hc => by cases hc), (fun s hs => by cases hs), fun s hs => ?_⟩ rfl rfl
      · exact Option.some.inj (ha.symm.trans hown)
      · obtain rfl := Option.some.inj hs
        exact ⟨hlive.1, rfl, rfl, hcost⟩
    next hcost =>
      refine h.doCancel hlive rfl curTime (fun _ hr => hr) (List.Perm.refl _) ?_
      rw [dear_cons_free hcost]
      exact h.refunds

theorem Good.afterLimit (h : w.Good g stock) {n : Nat} {r : Req ι α} (hn : w.reqs[n]? = some r) (hstage : r.stage = .limit)
    (hholds : w.Holds g r) : (w.afterLimit g n r).1.Good g stock := by
  have hfits := h.fits r (List.mem_of_getElem? hn)
  have hpayment : r.payment = none := by simp [Req.payment, hstage]
  have hrefunded : r.refunded = none := by simp [Req.refunded, hstage]
  have hdrop := h.drop hn hpayment hrefunded
  unfold Land.afterLimit
  dsimp only
  split
  · exact hdrop
  split
  · exact hdrop
  next c hc =>
    split
    next hpos =>
      refine h.goOn hn ⟨hfits.owner, fun c' hc' => ?_, (fun s hs => by cases hs), (fun s hs => by cases hs)⟩ ⟨rfl,
        hpayment⟩ ⟨rfl, hrefunded⟩
      cases hc'
      exact hpos
    next hzero =>
      obtain rfl : c = 0 := Nat.eq_zero_of_not_pos hzero
      have hvacant : w.Vacant g r.objid := by
        unfold Holds at hholds
        rw [hstage] at hholds
        exact hholds hc
      refine h.doSet hfits hvacant rfl rfl ?_ hdrop.refunds ?_ ?_
      · rw [dear_cons_free (Nat.lt_irrefl 0)]
        exact hdrop.charges
      · have hperm : ((w.drop n).payments ++ ⟨w.next, r.objid, r.aid, 0⟩ :: w.settings).Perm
            (⟨w.next, r.objid, r.aid, 0⟩ :: ((w.drop n).payments ++ w.settings)) := List.perm_middle
        refine (hperm.map Setting.no).nodup_iff.2 (List.nodup_cons.2 ⟨fun hmem => ?_, hdrop.nos⟩)
        obtain ⟨s, hs, hno⟩ := List.mem_map.1 hmem
        exact absurd (hdrop.fresh s hs) (by rw [hno]; exact Nat.lt_irrefl _)
      · intro x hx
        rcases List.mem_append.1 hx with hx | hx
        · exact Nat.lt_succ_of_lt (hdrop.fresh x (List.mem_append_left _ hx))
        · rcases List.mem_cons.1 hx with rfl | hx
          · exact Nat.lt_succ_self _
          · exact Nat.lt_succ_of_lt (hdrop.fresh x (List.mem_append_right _ hx))

theorem Good.answered (h : w.Good g stock) {n : Nat} {r : Req ι α} (hn : w.reqs[n]? = some r) (hholds : w.Holds g r) :
    (w.answered g n r).1.Good g stock := by
  have hfits := h.fits r (List.mem_of_getElem? hn)
  have hpayments := payments_perm hn
  have hrefunded := refunded_perm hn
  unfold Land.answered
  cases hstage : r.stage with
  | limit => exact h.afterLimit hn hstage hholds
  | pay c => exact h
  | refund s => exact h
  | paid s =>
    simp only [Req.refunded, hstage, Option.toList_none, List.nil_append] at hrefunded
    cases s with
    | none =>
      exact h.drop hn (by simp [Req.payment, hstage]) (by simp [Req.refunded, hstage])
    | some s =>
      have hs : s ∈ r.payment := by simp [Req.payment, hstage]
      obtain ⟨hobjid, haid, hpos⟩ := hfits.payment s hs
      rw [show r.payment = some s from hs] at hpayments
      have hvacant : w.Vacant g r.objid := by
        unfold Holds at hholds
        rw [hstage] at hholds
        exact hholds
      have hmove : (w.payments ++ w.settings).Perm ((w.drop n).payments ++ s :: w.settings) :=
        (hpayments.append_right _).trans List.perm_middle.symm
      refine h.doSet hfits hvacant hobjid haid ?_ (h.refunds.trans (hrefunded.append_right _))
        ((hmove.map Setting.no).nodup_iff.1 h.nos)
        (fun x hx => h.fresh x (hmove.mem_iff.2 hx))
      rw [dear_cons hpos]
      exact h.charges.trans ((hpayments.append_right _).trans List.perm_middle.symm)
  | refunded s ok =>
    have hs : s ∈ r.found := by simp [Req.found, hstage]
    obtain ⟨hset, hobjid, haid, hpos⟩ := hfits.found s hs
    unfold Holds at hholds
    rw [hstage] at hholds
    obtain ⟨rfl, hcancelled, hcompleted⟩ := hholds
    simp only [Req.payment, hstage, Option.toList_none, List.nil_append] at hpayments
    simp only [Req.refunded, hstage, Option.toList_some] at hrefunded
    refine h.doCancel ⟨hset, hcancelled, hcompleted⟩ hobjid r.curTime (fun _ hr =>
      List.mem_of_mem_eraseIdx hr) hpayments.symm ?_
    rw [dear_cons hpos]
    exact h.refunds.trans ((hrefunded.append_right _).trans List.perm_middle.symm)

omit [DecidableEq ι] in
theorem Good.failed (h : w.Good g stock) {n : Nat} {r : Req ι α} (hn : w.reqs[n]? = some r) :
    (w.failed n r).1.Good g stock := by
  unfold Land.failed
  cases hstage : r.stage with
  | limit => exact h.drop hn (by simp [Req.payment, hstage]) (by simp [Req.refunded, hstage])
  | pay c => exact h.drop hn (by simp [Req.payment, hstage]) (by simp [Req.refunded, hstage])
  | refund s => exact h.drop hn (by simp [Req.payment, hstage]) (by simp [Req.refunded, hstage])
  | paid s => exact h
  | refunded s ok => exact h

theorem Good.takenAway (h : w.Good g stock) (objid : ι) (b : TerrBuild α) (given : List ι) :
    Good g { w.takenAway objid b with given := given } stock := by
  have hwrite : (w.takenAway objid b).Good g stock :=
    h.write (fun _ ha => by cases ha) (fun _ hc => by cases hc.1) (fun hno => absurd rfl hno)
  exact ⟨hwrite.limit, hwrite.live,
    fun r hr => ⟨(hwrite.fits r hr).owner, (hwrite.fits r hr).pay, (hwrite.fits r hr).payment, (hwrite.fits r hr).found⟩,
      h.nos,
    h.fresh, h.completed, h.cancelled, h.charges, h.refunds, h.wheat⟩

theorem Good.step (h : w.Good g stock) : ∀ e : Event ι α, w.Kept g e → (w.step g e).Good g stock
  | .setTerrBuildType objid aid buildType buildFlag uid curTime, _ => h.start objid aid buildType buildFlag uid curTime
  | .execute n ok, _ => by
    simp only [Land.step, turn]
    split
    next r hn => exact h.executed hn ok
    next => exact h
  | .reply n, hkept => by
    simp only [Land.step, turn]
    split
    next r hn => exact h.answered hn (hkept r hn)
    next => exact h
  | .fail n, _ => by
    simp only [Land.step, turn]
    split
    next r hn => exact h.failed hn
    next => exact h
  | .buildTime objid, _ => by
    simp only [Land.step, turn]
    split
    · exact h.timeout objid
    · exact h
  | .giveUpOwnedObj n b, _ => by
    simp only [Land.step, turn]
    split
    next objid hn => exact h.takenAway objid b _
    next => exact h

theorem start_harmless (objid : ι) (aid : α) (buildType buildFlag : Int) (uid : Nat) (curTime : Int)
    (hfalse : (w.start g objid aid buildType buildFlag uid curTime).2 = some false) :
    (w.start g objid aid buildType buildFlag uid curTime).1 = w := by
  unfold Land.start at hfalse ⊢
  split at hfalse
  next hno => rw [if_pos hno]
  next hno =>
    rw [if_neg hno]
    cases hturn : (w.objs objid).setTerrBuildType g aid buildType buildFlag uid curTime with
    | refuse code => rfl
    | update b =>
      rw [hturn] at hfalse
      cases hfalse
    | limit =>
      rw [hturn] at hfalse
      cases hfalse
    | refund =>
      rw [hturn] at hfalse
      dsimp only at hfalse
      split at hfalse <;> cases hfalse

theorem answered_harmless {n : Nat} {r : Req ι α} (hfalse : (w.answered g n r).2 = some false) :
    (w.answered g n r).1 = w.drop n ∧ r.payment = none ∧ r.refunded = none := by
  unfold Land.answered at hfalse ⊢
  cases hstage : r.stage with
  | limit =>
    refine ⟨?_, by simp [Req.payment, hstage], by simp [Req.refunded, hstage]⟩
    rw [hstage] at hfalse
    simp only [Land.afterLimit] at hfalse ⊢
    split at hfalse
    next hlim => rw [if_pos hlim]
    next hlim =>
      rw [if_neg hlim]
      split at hfalse
      next => rfl
      next c hc =>
        split at hfalse <;> cases hfalse
  | paid s =>
    rw [hstage] at hfalse
    cases s with
    | none => exact ⟨rfl, by simp [Req.payment, hstage], by simp [Req.refunded, hstage]⟩
    | some s => cases hfalse
  | refunded s ok =>
    rw [hstage] at hfalse
    cases hfalse
  | pay c =>
    rw [hstage] at hfalse
    cases hfalse
  | refund s =>
    rw [hstage] at hfalse
    cases hfalse

omit [DecidableEq ι] [DecidableEq α] in
theorem failed_harmless {n : Nat} {r : Req ι α} (hfalse : (w.failed n r).2 = some false) :
    (w.failed n r).1 = w.drop n ∧ r.payment = none ∧ r.refunded = none := by
  unfold Land.failed at hfalse ⊢
  cases hstage : r.stage with
  | limit => exact ⟨rfl, by simp [Req.payment, hstage], by simp [Req.refunded, hstage]⟩
  | pay c => exact ⟨rfl, by simp [Req.payment, hstage], by simp [Req.refunded, hstage]⟩
  | refund s => exact ⟨rfl, by simp [Req.payment, hstage], by simp [Req.refunded, hstage]⟩
  | paid s =>
    rw [hstage] at hfalse
    cases hfalse
  | refunded s ok =>
    rw [hstage] at hfalse
    cases hfalse

theorem harmless (e : Event ι α) : w.Harmless g e := by
  intro hfalse
  cases e with
  | setTerrBuildType objid aid buildType buildFlag uid curTime =>
    simp only [Land.answer, Land.step, turn] at hfalse ⊢
    rw [start_harmless objid aid buildType buildFlag uid curTime hfalse]
    refine ⟨rfl, rfl, fun n he => ?_⟩
    rcases he with he | he <;> cases he
  | execute n ok =>
    simp only [Land.answer, turn] at hfalse
    split at hfalse <;> cases hfalse
  | reply n =>
    simp only [Land.answer, Land.step, turn] at hfalse ⊢
    split at hfalse
    next r hn =>
      obtain ⟨hstep, hnone⟩ := answered_harmless hfalse
      simp only [hstep]
      refine ⟨rfl, rfl, fun n' he r' hr' => ?_⟩
      rcases he with he | he
      · cases he
        obtain rfl := Option.some.inj (hn.symm.trans hr')
        exact hnone
      · cases he
    next => cases hfalse
  | fail n =>
    simp only [Land.answer, Land.step, turn] at hfalse ⊢
    split at hfalse
    next r hn =>
      obtain ⟨hstep, hnone⟩ := failed_harmless hfalse
      simp only [hstep]
      refine ⟨rfl, rfl, fun n' he r' hr' => ?_⟩
      rcases he with he | he
      · cases he
      · cases he
        obtain rfl := Option.some.inj (hn.symm.trans hr')
        exact hnone
    next => cases hfalse
  | buildTime objid => cases hfalse
  | giveUpOwnedObj n b =>
    simp only [Land.answer, turn] at hfalse
    split at hfalse <;> cases hfalse

end Land

open Land

/-- **A centre is paid for and refunded once**, and an alliance has no more than it may have. -/
theorem charged_of_run (g : Config ι α) (w : Land ι α) (hw : w.Ready g) (events : List (Event ι α))
    (h : Steps.Along (Land.step g) (Land.Kept g) w events) :
    Steps.Along (Land.step g) (fun w' e => w'.Harmless g e ∧ (w'.step g e).Law g w.wheat) w events :=
  Steps.Along.keep (I := fun w' => w'.Good g w.wheat) (fun _ e hkept hgood =>
    have hnext := hgood.step e hkept
    ⟨hnext, harmless e, hnext.law⟩) events w hw.good h

/-! ## An alliance that may have one centre -/

def config : Config Nat Nat := ⟨[1, 2, 3], by decide, [10], 60, 60, fun _ => 1⟩

def land : Land Nat Nat where
  objs := fun _ => ⟨some 7, 0, none, 0, 0, 0, 0, 0, 0, 0⟩
  timer := fun _ => false
  wheat := fun _ => 100
  reqs := []
  given := []
  next := 0
  settings := []
  cancelled := []
  completed := []
  charges := []
  refunds := []

theorem ready_land : land.Ready config where
  limit aid := by
    have hnone : getTerrBuildNumType config.terr land.objs aid = 0 := List.countP_eq_zero.2 (fun id _ hc => by
      exact absurd (of_decide_eq_true hc).2 (by decide : init ≠ center))
    rw [hnone]
    exact Nat.zero_le _
  flag id _ := (by decide : (0 : Int) ≠ 1)
  reqs := rfl
  settings := rfl
  cancelled := rfl
  completed := rfl
  charges := rfl
  refunds := rfl

def decision : List (Event Nat Nat) :=
  [.setTerrBuildType 1 7 1 1 9 0, .reply 0, .execute 0 true, .reply 0, .setTerrBuildType 1 7 0 1 9 5,
    .execute 0 true, .reply 0,
    .setTerrBuildType 2 7 1 1 9 6, .reply 0, .execute 0 true, .reply 0, .buildTime 2]

theorem charged_of_decision :
    Steps.Along (Land.step config) (fun w e => w.Harmless config e ∧
      (w.step config e).Law config land.wheat) land decision ∧
      (decision.foldl (Land.step config) land).wheat 7 = 90 ∧ (decision.foldl (Land.step config) land).completed = [1] :=
  ⟨charged_of_run config land ready_land decision (by decide), by decide, by decide⟩

def rush : List (Event Nat Nat) :=
  [.setTerrBuildType 1 7 1 1 9 0, .setTerrBuildType 2 7 1 1 9 0, .reply 0, .reply 1, .execute 0 true,
    .execute 1 true, .reply 0,
    .reply 0]

def regret : List (Event Nat Nat) :=
  [.setTerrBuildType 1 7 1 1 9 0, .reply 0, .execute 0 true, .reply 0, .setTerrBuildType 1 7 0 1 9 5,
    .setTerrBuildType 1 7 0 1 9 5,
    .execute 0 true, .execute 1 true, .reply 0, .reply 0]

theorem two_at_a_time :
    ¬ (rush.foldl (Land.step config) land).Law config land.wheat ∧
      ¬ (regret.foldl (Land.step config) land).Law config land.wheat := by
  refine ⟨fun h => ?_, fun h => ?_⟩
  · have hlimit := h.limit 7
    revert hlimit
    decide
  · have hnodup := h.cancelled.1
    revert hnodup
    decide

end TerrBuild
end Sncpp
