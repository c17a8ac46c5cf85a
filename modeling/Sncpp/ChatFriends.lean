import Sncpp.ChatCtrl
import Sncpp.Steps
/-!
# ChatFriends — friendship is mutual

The players' services under `reqApply`, `reqRspApply` and `reqSetBlacks`.  A request does the other's half first and
its own when the answer is there, whatever has become of the other's meanwhile; and an acceptance is answered with
success even if its own half finds 500 friends.
-/
namespace Sncpp
namespace ChatCtrl

inductive Req (υ : Type) where
  | reqApply (uid : υ)
  | reqRspApply (uid : υ) (flag : Bool)
  | reqSetBlacks (uid : υ) (flag : Bool)
deriving DecidableEq

/-- A request that has called the other player; `ret` is what the call has answered. -/
structure Call (υ : Type) where
  self : υ
  req : Req υ
  ret : Option (Except ChatErr Unit)

structure Agents (υ ρ : Type) [DecidableEq υ] where
  ctrl : υ → ChatCtrl υ ρ
  calls : Nat → Option (Call υ)

inductive Event (υ : Type) where
  | request (c : Nat) (self : υ) (req : Req υ) (now : Int)
  | execute (c : Nat) (now : Int)
  | fail (c : Nat)
  | reply (c : Nat) (now : Int)

variable {υ ρ : Type} [DecidableEq υ]

def Req.uid : Req υ → υ
  | .reqApply uid => uid
  | .reqRspApply uid _ => uid
  | .reqSetBlacks uid _ => uid

/-- What a request does before its call, -/
def Req.first (self : υ) (now : Int) (d : ChatCtrl υ ρ) : Req υ → ChatCtrl υ ρ × Answer
  | .reqApply uid => (d, d.addApply self uid)
  | .reqRspApply uid flag => d.rspApply self uid now flag
  | .reqSetBlacks uid flag => d.setBlacks self uid flag

/-- what the call does for the player `uid`, -/
def Req.serve (self : υ) (now : Int) (d : ChatCtrl υ ρ) : Req υ → ChatCtrl υ ρ × Except ChatErr Unit
  | .reqApply uid => d.dealApply uid self now
  | .reqRspApply _ _ => d.addFriends self now
  | .reqSetBlacks _ _ => (d.delFriends self, .ok ())

/-- and what the request does with the answer. -/
def Req.last (now : Int) (ret : Except ChatErr Unit) (d : ChatCtrl υ ρ) : Req υ → ChatCtrl υ ρ × Except ChatErr Unit
  | .reqApply _ => (d, ret)
  | .reqRspApply uid _ => d.rspApplied uid now ret
  | .reqSetBlacks uid _ => d.setBlacked uid now ret

structure Call.Mutual (call : Call υ) : Prop where
  other : call.req.uid ≠ call.self
  refusal : ∀ uid, call.req ≠ .reqRspApply uid false
  unblack : ∀ uid, call.req ≠ .reqSetBlacks uid false

def Between (a b u v : υ) : Prop := a = u ∧ b = v ∨ a = v ∧ b = u

namespace Agents

def new : Agents υ ρ := ⟨fun _ => defaultData, fun _ => none⟩

variable (w : Agents υ ρ)

def setCtrl (u : υ) (d : ChatCtrl υ ρ) : Agents υ ρ := { w with ctrl := Function.update w.ctrl u d }

def setCall (c : Nat) (call : Option (Call υ)) : Agents υ ρ := { w with calls := Function.update w.calls c call }

/-- A call that fails has not been executed. -/
def step : Event υ → Agents υ ρ
  | .request c self req now =>
    match w.calls c with
    | some _ => w
    | none =>
      let r := req.first self now (w.ctrl self)
      (w.setCtrl self r.1).setCall c (if r.2 = none then some ⟨self, req, none⟩ else none)
  | .execute c now =>
    match w.calls c with
    | some ⟨self, req, none⟩ =>
      let r := req.serve self now (w.ctrl req.uid)
      (w.setCtrl req.uid r.1).setCall c (some ⟨self, req, some r.2⟩)
    | _ => w
  | .fail c =>
    match w.calls c with
    | some ⟨_, _, none⟩ => w.setCall c none
    | _ => w
  | .reply c now =>
    match w.calls c with
    | some ⟨self, req, some ret⟩ => (w.setCtrl self (req.last now ret (w.ctrl self)).1).setCall c none
    | _ => w

def answer : Event υ → Option (υ × Req υ × Except ChatErr Unit)
  | .request c self req now =>
    if w.calls c = none then (req.first self now (w.ctrl self)).2.map (fun r => (self, req, r)) else none
  | .execute _ _ => none
  | .fail c =>
    match w.calls c with
    | some ⟨self, req, none⟩ => some (self, req, .error .SERVICE_EXCEPTION)
    | _ => none
  | .reply c now =>
    match w.calls c with
    | some ⟨self, req, some ret⟩ => some (self, req, (req.last now ret (w.ctrl self)).2)
    | _ => none

/-- The other's half still stands, and there is room for a friend. -/
def Stands (self : υ) : Req υ → Prop
  | .reqApply _ => True
  | .reqRspApply uid _ =>
    self ∈ (w.ctrl uid).friends ∧ (uid ∈ (w.ctrl self).friends ∨ (w.ctrl self).friends.keys.length < 500)
  | .reqSetBlacks uid _ => self ∉ (w.ctrl uid).friends

def Whole : Event υ → Prop
  | .reply c _ => ∀ call ∈ w.calls c, call.ret = some (.ok ()) → w.Stands call.self call.req
  | _ => True

instance (self : υ) : ∀ req : Req υ, Decidable (w.Stands self req)
  | .reqApply _ => isTrue trivial
  | .reqRspApply uid _ => inferInstanceAs (Decidable (self ∈ (w.ctrl uid).friends ∧
      (uid ∈ (w.ctrl self).friends ∨ (w.ctrl self).friends.keys.length < 500)))
  | .reqSetBlacks uid _ => inferInstanceAs (Decidable (self ∉ (w.ctrl uid).friends))

instance : ∀ e : Event υ, Decidable (w.Whole e)
  | .reply c _ => inferInstanceAs (Decidable (∀ call ∈ w.calls c, call.ret = some (.ok ()) → w.Stands call.self call.req))
  | .request _ _ _ _ => isTrue trivial
  | .execute _ _ => isTrue trivial
  | .fail _ => isTrue trivial

def Half (self : υ) : Req υ → Prop
  | .reqApply uid => self ∈ (w.ctrl uid).apply
  | .reqRspApply uid _ => self ∈ (w.ctrl uid).friends
  | .reqSetBlacks uid _ => self ∉ (w.ctrl uid).friends

def Full (self : υ) : Req υ → Prop
  | .reqApply _ => True
  | .reqRspApply uid true => uid ∈ (w.ctrl self).friends ∧ self ∈ (w.ctrl uid).friends
  | .reqRspApply uid false => uid ∉ (w.ctrl self).apply
  | .reqSetBlacks uid true => uid ∈ (w.ctrl self).blacks ∧ uid ∉ (w.ctrl self).apply ∧
      uid ∉ (w.ctrl self).friends ∧ self ∉ (w.ctrl uid).friends
  | .reqSetBlacks uid false => uid ∉ (w.ctrl self).blacks

structure Done (e : Event υ) : Prop where
  half : ∀ c now, e = .execute c now → ∀ call ∈ w.calls c, call.ret = none →
    (call.req.serve call.self now (w.ctrl call.req.uid)).2 = .ok () → (w.step e).Half call.self call.req
  full : ∀ self req, w.answer e = some (self, req, .ok ()) → (w.step e).Full self req

/-- **Friendship is mutual** when no request is in flight; the data of each player are fit at any time. -/
structure Sound : Prop where
  friends : (∀ c, w.calls c = none) → ∀ u v, u ∈ (w.ctrl v).friends ↔ v ∈ (w.ctrl u).friends
  fit : ∀ u, (w.ctrl u).Fit u

def Open (u v : υ) : Prop :=
  ∃ c call, w.calls c = some call ∧ call.ret = some (.ok ()) ∧ call.req ≠ .reqApply call.req.uid ∧
    Between call.self call.req.uid u v

def Agree (u v : υ) : Prop := u ∈ (w.ctrl v).friends ↔ v ∈ (w.ctrl u).friends

structure Good : Prop where
  fit : ∀ u, (w.ctrl u).Fit u
  calls : ∀ c, ∀ call ∈ w.calls c, call.Mutual
  agree : ∀ u v, w.Agree u v ∨ w.Open u v

theorem good_new : (new : Agents υ ρ).Good where
  fit _ := fit_defaultData
  calls c call h := by cases h
  agree u v := Or.inl (iff_of_false (fun h => by cases h) (fun h => by cases h))

variable {w}

theorem Good.sound (h : w.Good) : w.Sound where
  friends hquiet u v := by
    refine (h.agree u v).resolve_right ?_
    rintro ⟨c, call, hcall, -⟩
    rw [hquiet c] at hcall
    cases hcall
  fit := h.fit

end Agents

/-- Nothing but the friend `uid` may have changed. -/
def Touches (uid : υ) (d d' : ChatCtrl υ ρ) : Prop := ∀ x, x ≠ uid → (x ∈ d'.friends ↔ x ∈ d.friends)

variable {d : ChatCtrl υ ρ} {self u : υ} {now : Int}

theorem Req.first_friends (req : Req υ) : (req.first self now d).1.friends = d.friends := by
  cases req with
  | reqApply uid => rfl
  | reqRspApply uid flag =>
    simp only [Req.first, rspApply]
    split
    · rfl
    split
    · rfl
    split
    · split
      · rfl
      · split <;> rfl
    · rfl
  | reqSetBlacks uid flag =>
    simp only [Req.first, setBlacks]
    split
    · rfl
    split
    · split <;> rfl
    · split <;> rfl

theorem Req.first_fit (h : d.Fit self) (req : Req υ) : (req.first self now d).1.Fit self := by
  cases req with
  | reqApply uid => exact h
  | reqRspApply uid flag => exact h.rspApply uid now flag
  | reqSetBlacks uid flag => exact h.setBlacks uid flag

theorem Req.first_mutual (req : Req υ) (h : (req.first self now d).2 = none) : Call.Mutual ⟨self, req, none⟩ where
  other := by
    intro heq
    cases req with
    | reqApply uid => simp [Req.first, addApply, show uid = self from heq] at h
    | reqRspApply uid flag => simp [Req.first, rspApply, show uid = self from heq] at h
    | reqSetBlacks uid flag => simp [Req.first, setBlacks, show uid = self from heq] at h
  refusal := by
    rintro uid rfl
    simp only [Req.first, rspApply, Bool.false_eq_true, if_false] at h
    split at h
    · cases h
    split at h <;> cases h
  unblack := by
    rintro uid rfl
    simp only [Req.first, setBlacks, Bool.false_eq_true, if_false] at h
    split at h
    · cases h
    split at h <;> cases h

theorem Req.first_full (req : Req υ) (h : (req.first self now d).2 = some (.ok ())) :
    (∃ uid, req = .reqRspApply uid false ∧ uid ∉ (req.first self now d).1.apply) ∨
      ∃ uid, req = .reqSetBlacks uid false ∧ uid ∉ (req.first self now d).1.blacks := by
  cases req with
  | reqApply uid =>
    simp only [Req.first, addApply] at h
    split at h
    · cases h
    split at h <;> cases h
  | reqRspApply uid flag =>
    left
    simp only [Req.first, rspApply] at h ⊢
    split at h
    · cases h
    split at h
    · cases h
    next hself hfriend =>
      cases flag with
      | true =>
        simp only [if_true] at h
        split at h
        · cases h
        · split at h <;> cases h
      | false => exact ⟨uid, rfl, by simp [hself, hfriend, AList.mem_erase]⟩
  | reqSetBlacks uid flag =>
    right
    simp only [Req.first, setBlacks] at h ⊢
    split at h
    · cases h
    next hself =>
      cases flag with
      | true =>
        simp only [if_true] at h
        split at h <;> cases h
      | false =>
        simp only [Bool.false_eq_true, if_false] at h
        split at h
        next hblack => exact ⟨uid, rfl, by simp [hself, hblack, AList.mem_erase]⟩
        · cases h

theorem Req.serve_fit (req : Req υ) (now : Int) (h : d.Fit req.uid) (hne : self ≠ req.uid) :
    (req.serve self now d).1.Fit req.uid := by
  cases req with
  | reqApply uid => exact h.dealApply self now
  | reqRspApply uid flag => exact h.addFriends hne now
  | reqSetBlacks uid flag => exact h.delFriends self

theorem addFriends_touches (uid : υ) : Touches uid d (d.addFriends uid now).1 := by
  intro x hx
  unfold addFriends
  split
  · rfl
  · simp only [AList.mem_insert, or_iff_right hx]

theorem dealApply_friends (uid : υ) : (d.dealApply self uid now).1.friends = d.friends := by
  unfold dealApply
  split
  · rfl
  split
  · rfl
  dsimp only
  split
  · rfl
  split <;> rfl

theorem Req.serve_touches (req : Req υ) : Touches self d (req.serve self now d).1 := by
  cases req with
  | reqApply uid =>
    intro x _
    rw [Req.serve, dealApply_friends]
  | reqRspApply uid flag => exact addFriends_touches self
  | reqSetBlacks uid flag =>
    intro x hx
    simp only [Req.serve, delFriends, AList.mem_erase, ne_eq, hx, not_false_eq_true, true_and]

theorem Req.serve_friends (req : Req υ) (h : (req.serve self now d).2 ≠ .ok () ∨ req = .reqApply req.uid) :
    (req.serve self now d).1.friends = d.friends := by
  cases req with
  | reqApply uid => exact dealApply_friends self
  | reqRspApply uid flag =>
    have hfail := h.resolve_right (fun heq => by cases heq)
    simp only [Req.serve, addFriends] at hfail ⊢
    split
    · rfl
    · next hroom =>
      rw [if_neg hroom] at hfail
      exact absurd rfl hfail
  | reqSetBlacks uid flag => exact absurd rfl (h.resolve_right (fun heq => by cases heq))

theorem dealApply_mem (uid : υ) (h : (d.dealApply self uid now).2 = .ok ()) : uid ∈ (d.dealApply self uid now).1.apply := by
  unfold dealApply at h ⊢
  split at h
  · cases h
  next hself =>
    split at h
    · cases h
    next hblack =>
      dsimp only at h ⊢
      rw [if_neg hself, if_neg hblack]
      split at h
      · cases h
      next hno =>
        split at h
        · cases h
        next hlim =>
          rw [if_neg hno, if_neg hlim]
          exact (AList.mem_insert _).2 (Or.inl rfl)

theorem addFriends_mem (uid : υ) (h : uid ∈ d.friends ∨ d.friends.keys.length < 500) :
    uid ∈ (d.addFriends uid now).1.friends := by
  unfold addFriends
  rw [if_neg (fun hno => h.elim hno.1 (Nat.not_lt_of_le hno.2))]
  exact (AList.mem_insert _).2 (Or.inl rfl)

theorem addFriends_of_ok (uid : υ) (h : (d.addFriends uid now).2 = .ok ()) : uid ∈ (d.addFriends uid now).1.friends := by
  refine addFriends_mem uid ?_
  by_contra hno
  rw [not_or, Nat.not_lt] at hno
  simp only [addFriends, if_pos hno] at h
  cases h

theorem Req.last_fit (req : Req υ) (now : Int) (h : d.Fit self) (hne : req.uid ≠ self) (ret : Except ChatErr Unit) :
    (req.last now ret d).1.Fit self := by
  cases req with
  | reqApply uid => exact h
  | reqRspApply uid flag => exact h.rspApplied hne now ret
  | reqSetBlacks uid flag => exact h.setBlacked uid now ret

theorem Req.last_touches (req : Req υ) (ret : Except ChatErr Unit) : Touches req.uid d (req.last now ret d).1 := by
  intro x hx
  cases req with
  | reqApply uid => exact Iff.rfl
  | reqRspApply uid flag =>
    cases ret with
    | error code => exact Iff.rfl
    | ok _ => exact addFriends_touches uid x hx
  | reqSetBlacks uid flag =>
    cases ret with
    | error code => exact Iff.rfl
    | ok _ =>
      simp only [Req.uid] at hx
      simp only [Req.last, setBlacked, AList.mem_erase, ne_eq, hx, not_false_eq_true, true_and]

theorem Req.last_friends (req : Req υ) {ret : Except ChatErr Unit} (h : ret ≠ .ok () ∨ req = .reqApply req.uid) :
    (req.last now ret d).1.friends = d.friends := by
  cases req with
  | reqApply uid => rfl
  | reqRspApply uid flag =>
    have hfail := h.resolve_right (fun heq => by cases heq)
    cases ret with
    | error code => rfl
    | ok _ => exact absurd rfl hfail
  | reqSetBlacks uid flag =>
    have hfail := h.resolve_right (fun heq => by cases heq)
    cases ret with
    | error code => rfl
    | ok _ => exact absurd rfl hfail

namespace Agents

variable {w w' : Agents υ ρ} {c : Nat} {uid : υ}

theorem Good.move (h : w.Good) (self uid : υ) (hfit : ∀ u, (w'.ctrl u).Fit u)
    (hcalls : ∀ c', c' ≠ c → w'.calls c' = w.calls c')
    (hold : ∀ call ∈ w.calls c, call.self = self ∧ call.req.uid = uid) (hnew : ∀ call ∈ w'.calls c, call.Mutual)
    (hframe : ∀ u v, ¬ Between self uid u v → (u ∈ (w'.ctrl v).friends ↔ u ∈ (w.ctrl v).friends))
    (hpair : ∀ u v, Between self uid u v → w'.Agree u v ∨ w'.Open u v) : w'.Good where
  fit := hfit
  calls c' call hcall := by
    by_cases hc : c' = c
    · subst hc
      exact hnew call hcall
    · rw [hcalls c' hc] at hcall
      exact h.calls c' call hcall
  agree u v := by
    by_cases hb : Between self uid u v
    · exact hpair u v hb
    · refine (h.agree u v).imp (fun hagree => ?_) ?_
      · exact (hframe u v hb).trans (hagree.trans (hframe v u (fun hb' => hb hb'.symm)).symm)
      · rintro ⟨c', call, hcall, hret⟩
        refine ⟨c', call, ?_, hret⟩
        rwa [hcalls c']
        rintro rfl
        obtain ⟨rfl, rfl⟩ := hold call hcall
        exact hb hret.2.2

theorem Good.stay (h : w.Good) (hfit : ∀ u, (w'.ctrl u).Fit u) (hcalls : ∀ c', c' ≠ c → w'.calls c' = w.calls c')
    (hold : ∀ call ∈ w.calls c, ¬ (call.ret = some (.ok ()) ∧ call.req ≠ .reqApply call.req.uid))
    (hnew : ∀ call ∈ w'.calls c, call.Mutual) (hframe : ∀ u, (w'.ctrl u).friends = (w.ctrl u).friends) : w'.Good where
  fit := hfit
  calls c' call hcall := by
    by_cases hc : c' = c
    · subst hc
      exact hnew call hcall
    · rw [hcalls c' hc] at hcall
      exact h.calls c' call hcall
  agree u v := by
    refine (h.agree u v).imp (fun hagree => ?_) ?_
    · unfold Agree
      rw [hframe, hframe]
      exact hagree
    · rintro ⟨c', call, hcall, hret⟩
      refine ⟨c', call, ?_, hret⟩
      rwa [hcalls c']
      rintro rfl
      exact hold call hcall ⟨hret.1, hret.2.1⟩

theorem fit_setCtrl (h : ∀ u, (w.ctrl u).Fit u) {d : ChatCtrl υ ρ} (hd : d.Fit uid) (u : υ) :
    ((w.setCtrl uid d).ctrl u).Fit u := by
  by_cases hu : u = uid
  · subst hu
    simpa only [setCtrl, Function.update_self] using hd
  · simpa only [setCtrl, Function.update_of_ne hu] using h u

theorem friends_setCtrl {d : ChatCtrl υ ρ} (hd : d.friends = (w.ctrl uid).friends) (u : υ) :
    ((w.setCtrl uid d).ctrl u).friends = (w.ctrl u).friends := by
  by_cases hu : u = uid
  · subst hu
    simpa only [setCtrl, Function.update_self] using hd
  · simp only [setCtrl, Function.update_of_ne hu]

theorem mem_setCtrl {a b : υ} {d : ChatCtrl υ ρ} (hd : Touches b (w.ctrl a) d) (u v : υ) (h : ¬ (v = a ∧ u = b)) :
    u ∈ ((w.setCtrl a d).ctrl v).friends ↔ u ∈ (w.ctrl v).friends := by
  by_cases hv : v = a
  · subst hv
    simpa only [setCtrl, Function.update_self] using hd u (fun hu => h ⟨rfl, hu⟩)
  · simp only [setCtrl, Function.update_of_ne hv]

theorem calls_setCall (call : Option (Call υ)) (c' : Nat) (h : c' ≠ c) : (w.setCall c call).calls c' = w.calls c' :=
  Function.update_of_ne h _ _

theorem Good.request (h : w.Good) (hc : w.calls c = none) (self : υ) (req : Req υ) (now : Int) :
    ((w.setCtrl self (req.first self now (w.ctrl self)).1).setCall c
      (if (req.first self now (w.ctrl self)).2 = none then some ⟨self, req, none⟩ else none)).Good := by
  refine h.stay (fit_setCtrl h.fit (req.first_fit (h.fit self))) (fun c' hc' => calls_setCall _ c' hc') ?_ ?_
    (friends_setCtrl req.first_friends)
  · intro call hcall
    rw [hc] at hcall
    cases hcall
  · intro call hcall
    simp only [setCall, Function.update_self] at hcall
    split at hcall
    next hnone =>
      obtain rfl := Option.some.inj hcall
      exact req.first_mutual hnone
    next => cases hcall

theorem Good.execute (h : w.Good) {req : Req υ} (hc : w.calls c = some ⟨self, req, none⟩) (now : Int) :
    ((w.setCtrl req.uid (req.serve self now (w.ctrl req.uid)).1).setCall c
      (some ⟨self, req, some (req.serve self now (w.ctrl req.uid)).2⟩)).Good := by
  have hne : req.uid ≠ self := (h.calls c _ hc).other
  have hfit := fit_setCtrl h.fit (req.serve_fit now (h.fit req.uid) hne.symm)
  have hnew : ∀ call ∈ ((w.setCtrl req.uid (req.serve self now (w.ctrl req.uid)).1).setCall c
      (some ⟨self, req, some (req.serve self now (w.ctrl req.uid)).2⟩)).calls c, call.Mutual := by
    intro call hcall
    simp only [setCall, Function.update_self] at hcall
    obtain rfl := Option.some.inj hcall
    obtain ⟨hother, hrefusal, hunblack⟩ := h.calls c _ hc
    exact ⟨hother, hrefusal, hunblack⟩
  by_cases hok : (req.serve self now (w.ctrl req.uid)).2 = .ok () ∧ req ≠ .reqApply req.uid
  · refine h.move self req.uid hfit (fun c' hc' => calls_setCall _ c' hc') ?_ hnew ?_ ?_
    · intro call hcall
      obtain rfl := Option.some.inj (hc.symm.trans hcall)
      exact ⟨rfl, rfl⟩
    · exact fun u v hb => mem_setCtrl req.serve_touches u v (fun heq => hb (Or.inl ⟨heq.2.symm, heq.1.symm⟩))
    · refine fun u v hb => Or.inr ⟨c, _, Function.update_self _ _ _, ?_, hok.2, hb⟩
      rw [hok.1]
  · refine h.stay hfit (fun c' hc' => calls_setCall _ c' hc') ?_ hnew (friends_setCtrl (req.serve_friends ?_))
    · intro call hcall
      obtain rfl := Option.some.inj (hc.symm.trans hcall)
      exact fun hret => by cases hret.1
    · by_cases happly : req = .reqApply req.uid
      · exact Or.inr happly
      · exact Or.inl (fun hret => hok ⟨hret, happly⟩)

theorem Good.fail (h : w.Good) {req : Req υ} (hc : w.calls c = some ⟨self, req, none⟩) : (w.setCall c none).Good := by
  refine h.stay h.fit (fun c' hc' => calls_setCall _ c' hc') ?_ ?_ (fun _ => rfl)
  · intro call hcall
    obtain rfl := Option.some.inj (hc.symm.trans hcall)
    exact fun hret => by cases hret.1
  · intro call hcall
    simp only [setCall, Function.update_self] at hcall
    cases hcall

theorem agree_last {req : Req υ} (hwhole : w.Whole (.reply c now)) (hc : w.calls c = some ⟨self, req, some (.ok ())⟩)
    (hne : req.uid ≠ self) (hreq : req ≠ .reqApply req.uid) :
    (w.setCtrl self (req.last now (.ok ()) (w.ctrl self)).1).Agree self req.uid := by
  have hown := hwhole _ hc rfl
  simp only [Agree, setCtrl, Function.update_self, Function.update_of_ne hne]
  cases req with
  | reqApply uid => exact absurd rfl hreq
  | reqRspApply uid flag => exact iff_of_true hown.1 (addFriends_mem uid hown.2)
  | reqSetBlacks uid flag => exact iff_of_false hown (fun hmem => (AList.mem_erase.1 hmem).1 rfl)

theorem Good.reply (h : w.Good) {req : Req υ} {ret : Except ChatErr Unit} (hwhole : w.Whole (.reply c now))
    (hc : w.calls c = some ⟨self, req, some ret⟩) :
    ((w.setCtrl self (req.last now ret (w.ctrl self)).1).setCall c none).Good := by
  have hne : req.uid ≠ self := (h.calls c _ hc).other
  have hfit := fit_setCtrl h.fit (req.last_fit now (h.fit self) hne ret)
  have hnew : ∀ call ∈ ((w.setCtrl self (req.last now ret (w.ctrl self)).1).setCall c none).calls c,
      call.Mutual := by
    intro call hcall
    simp only [setCall, Function.update_self] at hcall
    cases hcall
  by_cases hok : ret = .ok () ∧ req ≠ .reqApply req.uid
  · obtain ⟨rfl, hreq⟩ := hok
    have hagree := agree_last hwhole hc hne hreq
    refine h.move self req.uid hfit (fun c' hc' => calls_setCall _ c' hc') ?_ hnew ?_ ?_
    · intro call hcall
      obtain rfl := Option.some.inj (hc.symm.trans hcall)
      exact ⟨rfl, rfl⟩
    · exact fun u v hb => mem_setCtrl (req.last_touches _) u v (fun heq => hb (Or.inr ⟨heq.1.symm, heq.2.symm⟩))
    · rintro u v (⟨rfl, rfl⟩ | ⟨rfl, rfl⟩)
      · exact Or.inl hagree
      · exact Or.inl hagree.symm
  · refine h.stay hfit (fun c' hc' => calls_setCall _ c' hc') ?_ hnew (friends_setCtrl (req.last_friends ?_))
    · intro call hcall
      obtain rfl := Option.some.inj (hc.symm.trans hcall)
      exact fun hret => hok ⟨Option.some.inj hret.1, hret.2⟩
    · by_cases happly : req = .reqApply req.uid
      · exact Or.inr happly
      · exact Or.inl (fun hret => hok ⟨hret, happly⟩)

theorem Good.step (h : w.Good) : ∀ e : Event υ, w.Whole e → (w.step e).Good
  | .request c self req now, _ => by
    simp only [Agents.step]
    cases hc : w.calls c with
    | none => exact h.request hc self req now
    | some call => exact h
  | .execute c now, _ => by
    simp only [Agents.step]
    split
    next hc => exact h.execute hc now
    next => exact h
  | .fail c, _ => by
    simp only [Agents.step]
    split
    next hc => exact h.fail hc
    next => exact h
  | .reply c now, hwhole => by
    simp only [Agents.step]
    split
    next hc => exact h.reply hwhole hc
    next => exact h

theorem Good.full_of_reply (h : w.Good) {req : Req υ} {ret : Except ChatErr Unit} (hwhole : w.Whole (.reply c now))
    (hc : w.calls c = some ⟨self, req, some ret⟩) (hok : (req.last now ret (w.ctrl self)).2 = .ok ()) :
    ((w.setCtrl self (req.last now ret (w.ctrl self)).1).setCall c none).Full self req := by
  obtain ⟨hne, hrefusal, hunblack⟩ := h.calls c _ hc
  cases req with
  | reqApply uid => trivial
  | reqRspApply uid flag =>
    cases flag with
    | false => exact absurd rfl (hrefusal uid)
    | true =>
      cases ret with
      | error code => cases hok
      | ok _ =>
        obtain ⟨hhalf, hroom⟩ := hwhole _ hc rfl
        refine ⟨?_, ?_⟩
        · simp only [setCall, setCtrl, Function.update_self]
          exact addFriends_mem uid hroom
        · simpa only [setCall, setCtrl, Function.update_of_ne (show uid ≠ self from hne)] using hhalf
  | reqSetBlacks uid flag =>
    cases flag with
    | false => exact absurd rfl (hunblack uid)
    | true =>
      cases ret with
      | error code => cases hok
      | ok _ =>
        have hhalf : self ∉ (w.ctrl uid).friends := hwhole _ hc rfl
        refine ⟨?_, ?_, ?_, ?_⟩
        · simp only [setCall, setCtrl, Function.update_self]
          exact (AList.mem_insert _).2 (Or.inl rfl)
        · simp only [setCall, setCtrl, Function.update_self]
          exact fun hmem => (AList.mem_erase.1 hmem).1 rfl
        · simp only [setCall, setCtrl, Function.update_self]
          exact fun hmem => (AList.mem_erase.1 hmem).1 rfl
        · simpa only [setCall, setCtrl, Function.update_of_ne (show uid ≠ self from hne)] using hhalf

theorem Good.full (h : w.Good) (e : Event υ) (hwhole : w.Whole e) (self : υ) (req : Req υ)
    (hans : w.answer e = some (self, req, .ok ())) : (w.step e).Full self req := by
  cases e with
  | request c self' req' now =>
    simp only [answer] at hans
    split at hans
    next hc =>
      obtain ⟨r, hr, heq⟩ := Option.map_eq_some_iff.1 hans
      cases heq
      simp only [Agents.step, hc]
      rcases req.first_full hr with ⟨uid, rfl, hno⟩ | ⟨uid, rfl, hno⟩
      · simpa only [Full, setCall, setCtrl, Function.update_self] using hno
      · simpa only [Full, setCall, setCtrl, Function.update_self] using hno
    next => cases hans
  | execute c now => cases hans
  | fail c =>
    simp only [answer] at hans
    split at hans <;> cases hans
  | reply c now =>
    simp only [answer] at hans
    split at hans
    next hc =>
      simp only [Option.some.injEq, Prod.mk.injEq] at hans
      obtain ⟨rfl, rfl, hok⟩ := hans
      simp only [Agents.step, hc]
      exact h.full_of_reply hwhole hc hok
    next => cases hans

theorem half_of_execute {req : Req υ} (hc : w.calls c = some ⟨self, req, none⟩)
    (hok : (req.serve self now (w.ctrl req.uid)).2 = .ok ()) : (w.step (.execute c now)).Half self req := by
  simp only [Agents.step, hc]
  cases req with
  | reqApply uid =>
    simp only [Half, setCall, setCtrl, Req.uid, Function.update_self]
    exact dealApply_mem self hok
  | reqRspApply uid flag =>
    simp only [Half, setCall, setCtrl, Req.uid, Function.update_self]
    exact addFriends_of_ok self hok
  | reqSetBlacks uid flag =>
    simp only [Half, setCall, setCtrl, Req.uid, Function.update_self]
    exact fun hmem => (AList.mem_erase.1 hmem).1 rfl

theorem Good.done (h : w.Good) (e : Event υ) (hwhole : w.Whole e) : w.Done e where
  half c now he call hc hret hok := by
    subst he
    obtain ⟨self, req, ret⟩ := call
    obtain rfl : ret = none := hret
    exact half_of_execute hc hok
  full := h.full e hwhole

end Agents

open Agents

/-- **Friendship is mutual**: whenever no request is in flight, and what is answered with success is done for both. -/
theorem mutual_of_run (events : List (Event υ)) (h : Steps.Along step Whole (new : Agents υ ρ) events) :
    Steps.Along step (fun w e => w.Done e ∧ (w.step e).Sound) (new : Agents υ ρ) events :=
  Steps.Along.keep (I := Good) (fun _ e hwhole hgood =>
    have hnext := hgood.step e hwhole
    ⟨hnext, hgood.done e hwhole, hnext.sound⟩) events new good_new h

def acquaintance : List (Event Nat) :=
  [.request 0 1 (.reqApply 2) 10, .execute 0 10, .reply 0 10, .request 1 2 (.reqRspApply 1 true) 11,
    .execute 1 11, .reply 1 11,
    .request 2 2 (.reqSetBlacks 1 true) 12, .execute 2 12]

theorem mutual_of_acquaintance :
    Steps.Along step (fun w e => w.Done e ∧ (w.step e).Sound) (new : Agents Nat Nat) acquaintance ∧
      2 ∈ (((acquaintance.take 6).foldl step (new : Agents Nat Nat)).ctrl 1).friends :=
  ⟨mutual_of_run acquaintance (by decide), by decide⟩

def quarrel : List (Event Nat) :=
  [.request 0 1 (.reqApply 2) 10, .execute 0 10, .reply 0 10, .request 1 2 (.reqRspApply 1 true) 11, .execute 1 11,
    .request 2 1 (.reqSetBlacks 2 true) 12, .execute 2 12, .reply 2 12, .reply 1 13]

theorem friend_of_one : ¬ (quarrel.foldl step (new : Agents Nat Nat)).Sound := by
  intro h
  have hquiet : ∀ c, (quarrel.foldl step (new : Agents Nat Nat)).calls c = none := by
    intro c
    rcases c with _ | _ | _ | c
    · decide
    · decide
    · decide
    · rfl
  have hmem := (h.friends hquiet 1 2).1 (by decide)
  revert hmem
  decide

end ChatCtrl
end Sncpp
