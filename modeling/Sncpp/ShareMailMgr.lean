import Mathlib.Data.List.Induction
import Sncpp.MailExpire
/-!
# ShareMailMgr — the list of the shared mails (`shareMailMgr.lua`)

The shared mails are the cells of one list whose ids go up, and `midRef` finds a cell by its mail.  A new mail drives
the first cell out when there are too many, and deletion and expiry take cells from anywhere.  `loadMail` returns
nothing if no newer id was given yet.
-/
namespace Sncpp
namespace ShareMailMgr

open Mail (TimerType)

variable {μ : Type}

structure Cell (μ : Type) where
  id : Nat
  mid : μ
  castleLv : Int
  logoutTime : Int
  isNewUsr : Option Bool
  expiretime : Int
deriving DecidableEq

structure Data (μ : Type) where
  maxId : Nat
  list : List (Cell μ)

def defaultData : Data μ := ⟨0, []⟩

/-- `looked` is recorded: the largest id when the list was last gone through for the timer. -/
structure World (μ : Type) where
  data : Data μ
  db : Option (Data μ)
  midRef : μ → Option (Cell μ)
  timerMgr : TimerMgr Int TimerType
  looked : Nat

def shareMailLimit : Nat := 50

def shareExpire : Int × TimerType := (-1, .shareExpire)

def defaultListCell (expire now : Int) (id : Nat) (mid : μ) (castleLv logoutTime : Option Int) (isNewUsr : Option Bool)
    (expiretime : Option Int) : Cell μ :=
  ⟨id, mid, castleLv.getD 0, logoutTime.getD 0, isNewUsr, if expiretime.getD 0 ≤ 0 then 0 else now + expire⟩

namespace World

variable (w : World μ)

def updateDB : World μ := { w with db := some w.data }

def getMaxID : Nat := w.data.maxId

def loadTurn (lastId castleLv : Int) (r : List μ × Int) (v : Cell μ) : List μ × Int :=
  (if lastId < v.id ∧ v.castleLv ≤ castleLv then r.1 ++ [v.mid] else r.1, if r.2 < v.id then v.id else r.2)

def loadMail (lastId castleLv : Int) (isNewUsr : Bool) : Option (List μ × Int) :=
  if w.getMaxID ≤ lastId then none
  else
    let isNewUsr := if lastId ≤ 0 then true else isNewUsr
    if isNewUsr then some (w.data.list.foldl (loadTurn lastId castleLv) ([], lastId))
    else some (w.data.list.foldl (loadTurn lastId castleLv) ([], lastId))

section Change

variable [DecidableEq μ]

def getSharedMail (mid : μ) : Option (Cell μ) := w.midRef mid

def delSharedMail (mid : μ) : World μ :=
  match w.midRef mid with
  | none => w
  | some _ =>
    let w : World μ := { w with midRef := Function.update w.midRef mid none }
    if w.data.list.any (fun v => decide (v.mid = mid)) then
      ({ w with data := { w.data with list := w.data.list.eraseP (fun v => decide (v.mid = mid)) } } : World μ).updateDB
    else w

def evict : World μ :=
  match w.data.list with
  | [] => w
  | v :: list =>
    if shareMailLimit < w.data.list.length then
      { w with data := { w.data with list := list }, midRef := Function.update w.midRef v.mid none }
    else w

/-- It answers true. -/
def createMail (expire now : Int) (mid : μ) (castleLv logoutTime : Option Int) (isNewUsr : Option Bool)
    (expiretime : Option Int) : World μ :=
  let maxId := w.data.maxId + 1
  let cell := defaultListCell expire now maxId mid castleLv logoutTime isNewUsr expiretime
  let w := ({ w with data := ⟨maxId, w.data.list ++ [cell]⟩ } : World μ).evict
  ({ w with midRef := Function.update w.midRef mid (some cell) } : World μ).updateDB

/-- What the loop of `updateExpireTimer` has so far. -/
structure Expiry (μ : Type) where
  w : World μ
  bSave : Bool
  lasttime : Option Int

def earlier (lasttime : Option Int) (expiretime : Int) : Option Int :=
  match lasttime with
  | none => some expiretime
  | some t => if expiretime < t then some expiretime else some t

def expireTurn (time : Int) (e : Expiry μ) (k : Nat) : Expiry μ :=
  match e.w.data.list[k]? with
  | none => e
  | some cell =>
    if 0 < cell.expiretime then
      if cell.expiretime ≤ time then
        { e with
          w := { e.w with
            data := { e.w.data with list := e.w.data.list.eraseIdx k }
            midRef := Function.update e.w.midRef cell.mid none }
          bSave := true }
      else { e with lasttime := earlier e.lasttime cell.expiretime }
    else e

def expireLoop (time : Int) : Nat → Expiry μ → Expiry μ
  | 0, e => e
  | k + 1, e => expireLoop time k (expireTurn time e k)

/-- Without a time to come the timer is cleared. -/
def updateExpireTimer (now : Int) : World μ :=
  let e := expireLoop now w.data.list.length ⟨w, false, none⟩
  let w := if e.bSave then e.w.updateDB else e.w
  { w with
    timerMgr := w.timerMgr.updateTimer now shareExpire.1 shareExpire.2 (e.lasttime.getD 0)
    looked := w.data.maxId }

def refs (list : List (Cell μ)) : μ → Option (Cell μ) :=
  list.foldl (fun midRef v => Function.update midRef v.mid (some v)) (fun _ => none)

def init (now : Int) : World μ :=
  let w : World μ := match w.db with
    | some data => { w with data := data }
    | none => ({ w with data := defaultData } : World μ).updateDB
  ({ w with midRef := refs w.data.list, timerMgr := .ctor } : World μ).updateExpireTimer now

def timerCallback (now : Int) : World μ :=
  match w.timerMgr.hasTimer shareExpire.1 shareExpire.2 with
  | (timerMgr, true) => ({ w with timerMgr := timerMgr } : World μ).updateExpireTimer now
  | (timerMgr, false) => { w with timerMgr := timerMgr }

def tick (now : Int) : World μ :=
  let r := w.timerMgr.timer.update now
  (r.2.filter (fun f => decide (f.2 = shareExpire))).foldl (fun w _ => w.timerCallback now)
    { w with timerMgr := { w.timerMgr with timer := r.1 } }

/-- The ids go up, and `midRef` has the cells of the list. -/
structure Listed (data : Data μ) (midRef : μ → Option (Cell μ)) : Prop where
  ids : data.list.Pairwise (fun v v' => v.id < v'.id)
  le : ∀ v ∈ data.list, v.id ≤ data.maxId
  midRef : ∀ mid v, midRef mid = some v ↔ v ∈ data.list ∧ v.mid = mid
  length : data.list.length ≤ shareMailLimit

variable {data : Data μ} {midRef : μ → Option (Cell μ)}

omit [DecidableEq μ] in
theorem Listed.unique (h : Listed data midRef) {v v' : Cell μ} (hv : v ∈ data.list) (hv' : v' ∈ data.list)
    (heq : v.mid = v'.mid) : v = v' :=
  Option.some.inj (((h.midRef v'.mid v).2 ⟨hv, heq⟩).symm.trans ((h.midRef v'.mid v').2 ⟨hv', rfl⟩))

omit [DecidableEq μ] in
theorem Listed.no_mail (h : Listed data midRef) {mid : μ} (hno : ∀ v ∈ data.list, v.mid ≠ mid) : midRef mid = none := by
  cases hmid : midRef mid with
  | none => rfl
  | some v => exact absurd ((h.midRef mid v).1 hmid).2 (hno v ((h.midRef mid v).1 hmid).1)

theorem Listed.sub (h : Listed data midRef) {list : List (Cell μ)} {midRef' : μ → Option (Cell μ)}
    (hsub : list.Sublist data.list) (hgone : ∀ v ∈ data.list, midRef' v.mid = if v ∈ list then some v else none)
    (hother : ∀ mid, (∀ v ∈ data.list, v.mid ≠ mid) → midRef' mid = none) : Listed { data with list := list } midRef' where
  ids := h.ids.sublist hsub
  le v hv := h.le v (hsub.subset hv)
  length := hsub.length_le.trans h.length
  midRef mid v := by
    constructor
    · intro hv
      by_cases hex : ∃ v' ∈ data.list, v'.mid = mid
      · obtain ⟨v', hv', rfl⟩ := hex
        rw [hgone v' hv'] at hv
        split at hv
        · next hmem =>
          obtain rfl := Option.some.inj hv
          exact ⟨hmem, rfl⟩
        · cases hv
      · rw [hother mid (fun v' hv' heq => hex ⟨v', hv', heq⟩)] at hv
        cases hv
    · rintro ⟨hv, rfl⟩
      rw [hgone v (hsub.subset hv), if_pos hv]

theorem Listed.push (h : Listed data midRef) {cell : Cell μ} (hid : cell.id = data.maxId + 1) (hnew : midRef cell.mid = none)
    (hlt : data.list.length < shareMailLimit) :
    Listed ⟨data.maxId + 1, data.list ++ [cell]⟩ (Function.update midRef cell.mid (some cell)) where
  ids := by
    rw [List.pairwise_append]
    refine ⟨h.ids, List.pairwise_singleton _ _, fun v hv v' hv' => ?_⟩
    obtain rfl := List.mem_singleton.1 hv'
    have := h.le v hv
    omega
  le v hv := by
    rcases List.mem_append.1 hv with hv | hv
    · exact (h.le v hv).trans (Nat.le_succ _)
    · obtain rfl := List.mem_singleton.1 hv
      exact hid.le
  length := by
    rw [List.length_append]
    exact hlt
  midRef mid v := by
    rw [Function.update_apply, List.mem_append, List.mem_singleton]
    split
    · next heq =>
      subst heq
      constructor
      · intro hv
        obtain rfl := Option.some.inj hv
        exact ⟨.inr rfl, rfl⟩
      · rintro ⟨hv | rfl, hmid⟩
        · rw [(h.midRef cell.mid v).2 ⟨hv, hmid⟩] at hnew
          cases hnew
        · rfl
    · next hne =>
      rw [h.midRef mid v]
      constructor
      · exact fun hv => ⟨.inl hv.1, hv.2⟩
      · rintro ⟨hv | rfl, hmid⟩
        · exact ⟨hv, hmid⟩
        · exact absurd hmid.symm hne

structure Kept (w : World μ) : Prop where
  listed : Listed w.data w.midRef
  db : w.db = some w.data

variable {w}

theorem Kept.delSharedMail (h : w.Kept) (mid : μ) : (w.delSharedMail mid).Kept ∧
    (w.delSharedMail mid).data.list.Sublist w.data.list ∧ (w.delSharedMail mid).timerMgr = w.timerMgr ∧
    (w.delSharedMail mid).looked = w.looked ∧ (w.delSharedMail mid).data.maxId = w.data.maxId := by
  unfold World.delSharedMail
  cases hmid : w.midRef mid with
  | none => exact ⟨h, List.Sublist.refl _, rfl, rfl, rfl⟩
  | some c =>
    obtain ⟨hc, rfl⟩ := (h.listed.midRef mid c).1 hmid
    have hany : w.data.list.any (fun v => decide (v.mid = c.mid)) = true :=
      List.any_eq_true.2 ⟨c, hc, decide_eq_true rfl⟩
    simp only [hany, if_true]
    refine ⟨⟨?_, rfl⟩, List.eraseP_sublist, rfl, rfl, rfl⟩
    refine h.listed.sub List.eraseP_sublist (fun v hv => ?_) (fun mid' hno => ?_)
    · refine (Function.update_apply ..).trans ?_
      by_cases heq : v.mid = c.mid
      · obtain rfl := h.listed.unique hv hc heq
        obtain ⟨a, l₁, l₂, hl₁, ha, hl, herase⟩ :=
          List.exists_of_eraseP (p := fun x => decide (x.mid = v.mid)) hv (decide_eq_true rfl)
        have hav : a = v := h.listed.unique (hl ▸ by simp) hv (of_decide_eq_true ha)
        have hids := h.listed.ids
        rw [hl, List.pairwise_append, List.pairwise_cons] at hids
        rw [if_pos rfl, if_neg]
        rw [herase, List.mem_append]
        rintro (hv₁ | hv₂)
        · exact hl₁ v hv₁ (decide_eq_true rfl)
        · exact absurd (hids.2.1.1 v hv₂) (by rw [hav]; exact Nat.lt_irrefl _)
      · rw [if_neg heq, if_pos ((List.mem_eraseP_of_neg (by simpa using heq)).2 hv)]
        exact (h.listed.midRef v.mid v).2 ⟨hv, rfl⟩
    · exact (Function.update_of_ne (hno c hc).symm _ _).trans (h.listed.no_mail hno)

theorem createMail_cases (w : World μ) (expire now : Int) (mid : μ) (castleLv logoutTime : Option Int)
    (isNewUsr : Option Bool) (expiretime : Option Int) :
    ∃ cell list midRef, cell = defaultListCell expire now (w.data.maxId + 1) mid castleLv logoutTime isNewUsr expiretime ∧
      ((w.data.list.length < shareMailLimit ∧ list = w.data.list ∧ midRef = w.midRef) ∨
        ∃ v, w.data.list = v :: list ∧ midRef = Function.update w.midRef v.mid none) ∧
      w.createMail expire now mid castleLv logoutTime isNewUsr expiretime =
        { w with
          data := ⟨w.data.maxId + 1, list ++ [cell]⟩
          db := some ⟨w.data.maxId + 1, list ++ [cell]⟩
          midRef := Function.update midRef mid (some cell) } := by
  generalize hcell : defaultListCell expire now (w.data.maxId + 1) mid castleLv logoutTime isNewUsr expiretime = cell
  unfold World.createMail World.evict
  cases hlist : w.data.list with
  | nil => exact ⟨cell, [], w.midRef, rfl, .inl ⟨(by decide : 0 < shareMailLimit), rfl, rfl⟩, by simp only [List.nil_append, hcell]; rfl⟩
  | cons v rest =>
    simp only [List.cons_append, hcell]
    split
    · exact ⟨cell, rest, Function.update w.midRef v.mid none, rfl, .inr ⟨v, rfl, rfl⟩, rfl⟩
    · next hshort =>
      refine ⟨cell, v :: rest, w.midRef, rfl, .inl ⟨?_, rfl, rfl⟩, rfl⟩
      rw [List.length_cons, List.length_append, List.length_singleton, Nat.not_lt] at hshort
      exact hshort

theorem Kept.createMail (h : w.Kept) {mid : μ} (hnew : w.midRef mid = none) (expire now : Int)
    (castleLv logoutTime : Option Int) (isNewUsr : Option Bool) (expiretime : Option Int) :
    (w.createMail expire now mid castleLv logoutTime isNewUsr expiretime).Kept := by
  obtain ⟨cell, list, midRef, hcell, hcase, heq⟩ :=
    createMail_cases w expire now mid castleLv logoutTime isNewUsr expiretime
  obtain rfl : cell.mid = mid := hcell ▸ rfl
  have hid : cell.id = w.data.maxId + 1 := hcell ▸ rfl
  rw [heq]
  refine ⟨?_, rfl⟩
  rcases hcase with ⟨hlt, rfl, rfl⟩ | ⟨v, hlist, rfl⟩
  · exact h.listed.push hid hnew hlt
  · have hids := h.listed.ids
    rw [hlist, List.pairwise_cons] at hids
    have hv : v ∈ w.data.list := hlist ▸ List.mem_cons_self
    have hrest : Listed { w.data with list := list } (Function.update w.midRef v.mid none) := by
      refine h.listed.sub (hlist ▸ List.sublist_cons_self v list) (fun v' hv' => ?_) (fun mid' hno => ?_)
      · rw [Function.update_apply]
        rcases List.mem_cons.1 (hlist ▸ hv') with rfl | hmem
        · rw [if_pos rfl, if_neg (fun hmem => Nat.lt_irrefl _ (hids.1 v' hmem))]
        · rw [if_pos hmem, if_neg]
          · exact (h.listed.midRef v'.mid v').2 ⟨hv', rfl⟩
          · intro hmid
            obtain rfl := h.listed.unique hv' hv hmid
            exact Nat.lt_irrefl _ (hids.1 v' hmem)
      · rw [Function.update_of_ne (hno v hv).symm]
        exact h.listed.no_mail hno
    have hlen := h.listed.length
    rw [hlist, List.length_cons] at hlen
    refine hrest.push hid ?_ hlen
    rw [Function.update_apply, hnew, ite_self]

def overdue (time : Int) (v : Cell μ) : Bool := decide (0 < v.expiretime) && decide (v.expiretime ≤ time)

/-- What the loop has done when it has gone through `l`: the overdue cells have left, and the time so far is the earliest
at which one of the others runs out, or what it was. -/
structure Swept (time : Int) (l : List (Cell μ)) (e e' : Expiry μ) : Prop where
  maxId : e'.w.data.maxId = e.w.data.maxId
  db : e'.w.db = e.w.db
  timerMgr : e'.w.timerMgr = e.w.timerMgr
  midRef : ∀ mid, e'.w.midRef mid = if ∃ v ∈ l, overdue time v = true ∧ v.mid = mid then none else e.w.midRef mid
  bSave : e'.bSave = (e.bSave || l.any (overdue time))
  earliest : ∀ v ∈ l, overdue time v = false → 0 < v.expiretime → ∃ t ≤ v.expiretime, e'.lasttime = some t
  least : ∀ t, e.lasttime = some t → ∃ t' ≤ t, e'.lasttime = some t'
  pos : (∀ t, e.lasttime = some t → 0 < t) → ∀ t, e'.lasttime = some t → 0 < t

theorem Swept.trans {time : Int} {l l' : List (Cell μ)} {e e₁ e₂ : Expiry μ} (h : Swept time l' e e₁)
    (h' : Swept time l e₁ e₂) : Swept time (l ++ l') e e₂ where
  maxId := h'.maxId.trans h.maxId
  db := h'.db.trans h.db
  timerMgr := h'.timerMgr.trans h.timerMgr
  midRef mid := by
    rw [h'.midRef mid, h.midRef mid]
    by_cases hex : ∃ v ∈ l, overdue time v = true ∧ v.mid = mid
    · obtain ⟨v, hv, hover⟩ := hex
      rw [if_pos ⟨v, hv, hover⟩, if_pos ⟨v, List.mem_append_left _ hv, hover⟩]
    · rw [if_neg hex]
      refine if_congr ?_ rfl rfl
      simp only [List.mem_append]
      constructor
      · rintro ⟨v, hv, hover⟩
        exact ⟨v, .inr hv, hover⟩
      · rintro ⟨v, hv | hv, hover⟩
        · exact absurd ⟨v, hv, hover⟩ hex
        · exact ⟨v, hv, hover⟩
  bSave := by rw [h'.bSave, h.bSave, List.any_append, Bool.or_assoc, Bool.or_comm (l'.any _)]
  earliest v hv hover hpos := by
    rcases List.mem_append.1 hv with hv | hv
    · exact h'.earliest v hv hover hpos
    · obtain ⟨t, hle, ht⟩ := h.earliest v hv hover hpos
      obtain ⟨t', hle', ht'⟩ := h'.least t ht
      exact ⟨t', hle'.trans hle, ht'⟩
  least t ht := by
    obtain ⟨t₁, hle₁, ht₁⟩ := h.least t ht
    obtain ⟨t₂, hle₂, ht₂⟩ := h'.least t₁ ht₁
    exact ⟨t₂, hle₂.trans hle₁, ht₂⟩
  pos he := h'.pos (h.pos he)

theorem earlier_le (lasttime : Option Int) (expiretime : Int) : ∃ t ≤ expiretime, earlier lasttime expiretime = some t := by
  cases lasttime with
  | none => exact ⟨expiretime, le_rfl, rfl⟩
  | some t =>
    unfold earlier
    by_cases hlt : expiretime < t
    · exact ⟨expiretime, le_rfl, if_pos hlt⟩
    · exact ⟨t, Int.not_lt.1 hlt, if_neg hlt⟩

theorem earlier_cases (t expiretime : Int) :
    ∃ t' ≤ t, earlier (some t) expiretime = some t' ∧ (t' = t ∨ t' = expiretime) := by
  unfold earlier
  by_cases hlt : expiretime < t
  · exact ⟨expiretime, hlt.le, if_pos hlt, .inr rfl⟩
  · exact ⟨t, le_rfl, if_neg hlt, .inl rfl⟩

theorem expireTurn_spec (time : Int) {pre post : List (Cell μ)} {v : Cell μ} {e : Expiry μ}
    (hlist : e.w.data.list = pre ++ v :: post) :
    (expireTurn time e pre.length).w.data.list = pre ++ [v].filter (fun v => !overdue time v) ++ post ∧
      Swept time [v] e (expireTurn time e pre.length) := by
  have hget : e.w.data.list[pre.length]? = some v := by
    rw [hlist, List.getElem?_append_right le_rfl, Nat.sub_self]
    rfl
  have hone : ∀ mid, (∃ v' ∈ [v], overdue time v' = true ∧ v'.mid = mid) ↔ overdue time v = true ∧ v.mid = mid := by
    simp
  have hany : [v].any (overdue time) = overdue time v := by simp
  unfold expireTurn
  rw [hget]
  by_cases hpos : 0 < v.expiretime
  · by_cases hle : v.expiretime ≤ time
    · have hover : overdue time v = true := by simp [overdue, hpos, hle]
      simp only [if_pos hpos, if_pos hle, List.filter_cons, hover, List.filter_nil]
      refine ⟨?_, ⟨rfl, rfl, rfl, fun mid => ?_, ?_, fun v' hv' hno => ?_, fun t ht => ⟨t, le_rfl, ht⟩, fun h => h⟩⟩
      · rw [hlist, List.eraseIdx_append_of_length_le le_rfl, Nat.sub_self]
        simp
      · simp only [hone, hover, true_and, Function.update_apply]
        exact if_congr eq_comm rfl rfl
      · rw [hany, hover, Bool.or_true]
      · obtain rfl := List.mem_singleton.1 hv'
        rw [hover] at hno
        cases hno
    · have hover : overdue time v = false := by simp [overdue, hle]
      simp only [if_pos hpos, if_neg hle, List.filter_cons, hover, List.filter_nil]
      refine ⟨by simpa using hlist, ⟨rfl, rfl, rfl, fun mid => ?_, ?_, fun v' hv' _ _ => ?_, fun t ht => ?_, fun h t ht => ?_⟩⟩
      · simp only [hone, hover, Bool.false_eq_true, false_and, if_false]
      · rw [hany, hover, Bool.or_false]
      · obtain rfl := List.mem_singleton.1 hv'
        exact earlier_le _ _
      · obtain ⟨t', hle', ht', -⟩ := earlier_cases t v.expiretime
        exact ⟨t', hle', by rw [ht]; exact ht'⟩
      · cases hlast : e.lasttime with
        | none =>
          rw [hlast] at ht
          obtain rfl := Option.some.inj ht
          exact hpos
        | some s =>
          obtain ⟨t', -, ht', hcase⟩ := earlier_cases s v.expiretime
          rw [hlast, ht'] at ht
          obtain rfl := Option.some.inj ht
          rcases hcase with rfl | rfl
          · exact h _ hlast
          · exact hpos
  · have hover : overdue time v = false := by simp [overdue, hpos]
    simp only [if_neg hpos, List.filter_cons, hover, List.filter_nil]
    refine ⟨by simpa using hlist, ⟨rfl, rfl, rfl, fun mid => ?_, ?_, fun v' hv' _ hpos' => ?_, fun t ht => ⟨t, le_rfl, ht⟩,
      fun h => h⟩⟩
    · simp only [hone, hover, Bool.false_eq_true, false_and, if_false]
    · rw [hany, hover, Bool.or_false]
    · obtain rfl := List.mem_singleton.1 hv'
      exact absurd hpos' hpos

theorem expireLoop_spec (time : Int) (pre : List (Cell μ)) : ∀ (post : List (Cell μ)) (e : Expiry μ),
    e.w.data.list = pre ++ post → (expireLoop time pre.length e).w.data.list = pre.filter (fun v => !overdue time v) ++ post ∧
      Swept time pre e (expireLoop time pre.length e) := by
  induction pre using List.reverseRecOn with
  | nil =>
    intro post e hlist
    refine ⟨hlist, ⟨rfl, rfl, rfl, fun mid => ?_, (Bool.or_false _).symm, fun v hv => absurd hv List.not_mem_nil,
      fun t ht => ⟨t, le_rfl, ht⟩, fun h => h⟩⟩
    rw [if_neg]
    · rfl
    · rintro ⟨v, hv, -⟩
      exact List.not_mem_nil hv
  | append_singleton pre v ih =>
    intro post e hlist
    obtain ⟨hturn, hswept⟩ := expireTurn_spec time (hlist.trans (List.append_assoc pre [v] post))
    rw [List.append_assoc] at hturn
    obtain ⟨hloop, hswept'⟩ := ih _ _ hturn
    rw [List.length_append, List.length_singleton, expireLoop, List.filter_append, List.append_assoc]
    exact ⟨hloop, hswept.trans hswept'⟩

/-- The timer is armed no later than any of the cells that were there when the list was last gone through runs out. -/
structure Armed (w : World μ) : Prop where
  live : w.timerMgr.Live shareExpire
  looked : w.looked ≤ w.data.maxId
  armed : ∀ v ∈ w.data.list, v.id ≤ w.looked → 0 < v.expiretime →
    ∃ t ≤ v.expiretime, w.timerMgr.ArmedAt shareExpire (some t)

omit [DecidableEq μ] in
theorem Armed.sub (h : w.Armed) {w' : World μ} (hsub : ∀ v ∈ w'.data.list, v.id ≤ w.looked → v ∈ w.data.list)
    (htimer : w'.timerMgr = w.timerMgr) (hlooked : w'.looked = w.looked) (hmax : w.data.maxId ≤ w'.data.maxId) :
    w'.Armed := by
  refine ⟨htimer ▸ h.live, hlooked ▸ h.looked.trans hmax, fun v hv hid hpos => ?_⟩
  rw [hlooked] at hid
  rw [htimer]
  exact h.armed v (hsub v hv hid) hid hpos

theorem Swept.data_eq {time : Int} {e : Expiry μ} (h : Swept time w.data.list ⟨w, false, none⟩ e)
    (hlist : e.w.data.list = w.data.list.filter (fun v => !overdue time v)) :
    e.w.data = ⟨w.data.maxId, w.data.list.filter (fun v => !overdue time v)⟩ := by
  rw [← hlist]
  exact congrArg (fun n => Data.mk n e.w.data.list) h.maxId

theorem Swept.listed {time : Int} {e : Expiry μ} (h : Swept time w.data.list ⟨w, false, none⟩ e)
    (hlist : e.w.data.list = w.data.list.filter (fun v => !overdue time v)) (hlisted : Listed w.data w.midRef) :
    Listed e.w.data e.w.midRef := by
  rw [h.data_eq hlist]
  refine hlisted.sub List.filter_sublist (fun v hv => ?_) (fun mid hno => ?_)
  · rw [h.midRef]
    by_cases hover : overdue time v = true
    · rw [if_pos ⟨v, hv, hover, rfl⟩, if_neg]
      intro hmem
      rw [List.mem_filter, hover] at hmem
      cases hmem.2
    · rw [if_neg, if_pos (List.mem_filter.2 ⟨hv, by simpa using hover⟩)]
      · exact (hlisted.midRef v.mid v).2 ⟨hv, rfl⟩
      · rintro ⟨v', hv', hover', heq⟩
        exact hover (hlisted.unique hv' hv heq ▸ hover')
  · rw [h.midRef, if_neg (fun ⟨v, hv, _, heq⟩ => hno v hv heq)]
    exact hlisted.no_mail hno

theorem Swept.saved {time : Int} {e : Expiry μ} (h : Swept time w.data.list ⟨w, false, none⟩ e)
    (hlist : e.w.data.list = w.data.list.filter (fun v => !overdue time v)) (hdb : w.db = some w.data) :
    (if e.bSave = true then e.w.updateDB else e.w) = { e.w with db := some e.w.data } := by
  cases hb : e.bSave with
  | true => rfl
  | false =>
    -- nothing has left the list, so the database has it as it is
    have hnone : ∀ v ∈ w.data.list, overdue time v = false := by
      have hany := h.bSave
      rw [hb, Bool.false_or] at hany
      simpa using hany.symm
    have hsame : e.w.data = w.data := by
      rw [h.data_eq hlist, List.filter_eq_self.2 (fun v hv => by rw [hnone v hv]; rfl)]
    have hdb' : e.w.db = some e.w.data := (h.db.trans hdb).trans (congrArg some hsame.symm)
    rw [if_neg Bool.false_ne_true, ← hdb']

/-- **Going through the list takes the overdue cells away and arms the timer for the others.** -/
theorem updateExpireTimer_spec (hlisted : Listed w.data w.midRef) (hdb : w.db = some w.data)
    (hlive : w.timerMgr.Live shareExpire) (now : Int) :
    (w.updateExpireTimer now).Kept ∧ (w.updateExpireTimer now).Armed ∧
      (w.updateExpireTimer now).data.list = w.data.list.filter (fun v => !overdue now v) := by
  obtain ⟨hlist, hswept⟩ := expireLoop_spec now w.data.list [] ⟨w, false, none⟩ (List.append_nil _).symm
  rw [List.append_nil] at hlist
  unfold World.updateExpireTimer
  generalize expireLoop now w.data.list.length ⟨w, false, none⟩ = e at hlist hswept
  have hpos := hswept.pos (fun t ht => by cases ht)
  simp only [hswept.saved hlist hdb]
  refine ⟨⟨hswept.listed hlist hlisted, rfl⟩, ⟨?_, le_rfl, fun v hv _ hexp => ?_⟩, hlist⟩
  · rw [hswept.timerMgr]
    exact (hlive.armedAt now _).live
  · rw [hlist] at hv
    obtain ⟨hv, hover⟩ := List.mem_filter.1 hv
    obtain ⟨t, hle, ht⟩ := hswept.earliest v hv (by simpa using hover) hexp
    refine ⟨t, hle, ?_⟩
    have harmed := hlive.armedAt (m := w.timerMgr) now (e.lasttime.getD 0)
    rw [ht, Option.getD_some, if_pos (hpos t ht)] at harmed
    rw [hswept.timerMgr, ht]
    exact harmed

theorem foldl_refs (l : List (Cell μ)) : ∀ midRef : μ → Option (Cell μ), l.Pairwise (fun v v' => v.mid ≠ v'.mid) →
    ∀ (m : μ) (v : Cell μ), (l.foldl (fun (midRef : μ → Option (Cell μ)) v' => Function.update midRef v'.mid (some v')) midRef) m = some v ↔
      (v ∈ l ∧ v.mid = m) ∨ ((∀ v' ∈ l, v'.mid ≠ m) ∧ midRef m = some v) := by
  induction l with
  | nil => simp
  | cons c l ih =>
    intro midRef h m v
    obtain ⟨hc, hl⟩ := List.pairwise_cons.1 h
    rw [List.foldl_cons, ih _ hl m v, Function.update_apply, List.forall_mem_cons, List.mem_cons]
    by_cases heq : m = c.mid
    · subst heq
      rw [if_pos rfl]
      constructor
      · rintro (⟨hv, hmid⟩ | ⟨-, hv⟩)
        · exact absurd hmid.symm (hc v hv)
        · exact .inl ⟨.inl (Option.some.inj hv).symm, (Option.some.inj hv) ▸ rfl⟩
      · rintro (⟨rfl | hv, hmid⟩ | ⟨⟨hne, -⟩, -⟩)
        · exact .inr ⟨fun v' hv' => (hc v' hv').symm, rfl⟩
        · exact absurd hmid.symm (hc v hv)
        · exact absurd rfl hne
    · rw [if_neg heq]
      constructor
      · rintro (⟨hv, hmid⟩ | ⟨hno, hv⟩)
        · exact .inl ⟨.inr hv, hmid⟩
        · exact .inr ⟨⟨fun h => heq h.symm, hno⟩, hv⟩
      · rintro (⟨rfl | hv, hmid⟩ | ⟨⟨-, hno⟩, hv⟩)
        · exact absurd hmid.symm heq
        · exact .inl ⟨hv, hmid⟩
        · exact .inr ⟨hno, hv⟩

theorem refs_spec {l : List (Cell μ)} (h : l.Pairwise (fun v v' => v.mid ≠ v'.mid)) (mid : μ) (v : Cell μ) :
    refs l mid = some v ↔ v ∈ l ∧ v.mid = mid := by
  rw [refs, foldl_refs l _ h]
  constructor
  · rintro (hv | ⟨-, hv⟩)
    · exact hv
    · cases hv
  · exact .inl

theorem Listed.refs (h : Listed data midRef) : Listed data (refs data.list) := by
  have hmids : data.list.Pairwise (fun v v' => v.mid ≠ v'.mid) := by
    refine h.ids.imp_of_mem (fun hv hv' hlt heq => ?_)
    exact Nat.ne_of_lt hlt (congrArg Cell.id (h.unique hv hv' heq))
  exact ⟨h.ids, h.le, refs_spec hmids, h.length⟩

structure Good (w : World μ) : Prop where
  kept : w.Kept
  armed : w.Armed

theorem live_ctor : (TimerMgr.ctor : TimerMgr Int TimerType).Live shareExpire := fun id hid => by cases hid

theorem Kept.init (h : w.Kept) (now : Int) :
    (w.init now).Good ∧ (w.init now).data.list = w.data.list.filter (fun v => !overdue now v) := by
  unfold World.init
  rw [h.db]
  obtain ⟨hkept, harmed, hlist⟩ := updateExpireTimer_spec (w := { w with
    db := some w.data, midRef := World.refs w.data.list, timerMgr := .ctor }) h.listed.refs rfl live_ctor now
  exact ⟨⟨hkept, harmed⟩, hlist⟩

def start (now : Int) : World μ := World.init ⟨defaultData, none, fun _ => none, .ctor, 0⟩ now

theorem good_start (now : Int) : (start now : World μ).Good := by
  have hlisted : Listed (defaultData : Data μ) (World.refs []) :=
    ⟨List.Pairwise.nil, fun v hv => absurd hv List.not_mem_nil, fun mid v => by simp [World.refs, defaultData], Nat.zero_le _⟩
  obtain ⟨hkept, harmed, -⟩ := updateExpireTimer_spec (w := ⟨defaultData, some defaultData, World.refs [], .ctor, 0⟩)
    hlisted rfl live_ctor now
  exact ⟨hkept, harmed⟩

theorem Kept.timerCallback (h : w.Kept) (now : Int) (hone : w.Armed ∨ w.timerMgr.timerId shareExpire ≠ none) :
    (w.timerCallback now).Good ∧ ∀ v ∈ (w.timerCallback now).data.list, v ∈ w.data.list := by
  have hmap := TimerMgr.hasTimer_timerId w.timerMgr shareExpire shareExpire
  have htimer := TimerMgr.hasTimer_timer w.timerMgr shareExpire.1 shareExpire.2
  have heq := TimerMgr.hasTimer_eq w.timerMgr shareExpire
  have hlive := TimerMgr.live_hasTimer w.timerMgr shareExpire.1 shareExpire.2
  unfold World.timerCallback
  generalize w.timerMgr.hasTimer shareExpire.1 shareExpire.2 = r at hmap htimer heq hlive
  obtain ⟨timerMgr, has⟩ := r
  cases has with
  | true =>
    obtain ⟨hkept, harmed, hlist⟩ := updateExpireTimer_spec (w := { w with timerMgr := timerMgr }) h.listed h.db hlive now
    refine ⟨⟨hkept, harmed⟩, fun v hv => ?_⟩
    rw [hlist] at hv
    exact (List.mem_filter.1 hv).1
  | false =>
    have hnone : w.timerMgr.timerId shareExpire = none := Option.isNone_iff_eq_none.1 (by simpa using heq.symm)
    have harmed := hone.resolve_right (fun hne => hne hnone)
    rw [if_pos rfl, ← hnone] at hmap
    refine ⟨⟨⟨h.listed, h.db⟩, ⟨harmed.live.congr hmap (fun id _ => ?_), harmed.looked, fun v hv hid hpos => ?_⟩⟩, fun v hv => hv⟩
    · rw [htimer]
    · obtain ⟨t, hle, ht⟩ := harmed.armed v hv hid hpos
      exact ⟨t, hle, ht.congr hmap (fun id _ => by rw [htimer])⟩

theorem Kept.callbacks {α : Type} (now : Int) : ∀ (l : List α) (w : World μ), w.Kept →
    (w.Armed ∨ (l ≠ [] ∧ w.timerMgr.timerId shareExpire ≠ none)) →
    (l.foldl (fun w _ => w.timerCallback now) w).Good ∧
      ∀ v ∈ (l.foldl (fun w _ => w.timerCallback now) w).data.list, v ∈ w.data.list
  | [], w, h, hone => ⟨⟨h, hone.resolve_right (fun hne => hne.1 rfl)⟩, fun v hv => hv⟩
  | _ :: l, w, h, hone => by
    obtain ⟨hgood, hsub⟩ := h.timerCallback now (hone.imp id And.right)
    obtain ⟨hgood', hsub'⟩ := Kept.callbacks now l _ hgood.kept (.inl hgood.armed)
    exact ⟨hgood', fun v hv => hsub v (hsub' v hv)⟩

theorem Good.tick (h : w.Good) (now : Int) : (w.tick now).Good ∧ ∀ v ∈ (w.tick now).data.list, v ∈ w.data.list := by
  unfold World.tick
  refine Kept.callbacks now _ _ ⟨h.kept.listed, h.kept.db⟩ ?_
  by_cases hdue : ∃ id, w.timerMgr.timerId shareExpire = some id ∧ (w.timerMgr.timer.entry id).Due now
  · obtain ⟨id, hid, hdue⟩ := hdue
    obtain ⟨item, hitem, hfunc, -⟩ := h.armed.live id hid
    have hfork := Scheduler.mem_forks.2 ⟨hdue, item, hitem, hfunc⟩
    refine .inr ⟨List.ne_nil_of_mem (List.mem_filter.2 ⟨hfork, decide_eq_true rfl⟩), ?_⟩
    show w.timerMgr.timerId shareExpire ≠ none
    rw [hid]
    exact Option.some_ne_none id
  · have hentry : ∀ id, w.timerMgr.timerId shareExpire = some id →
        (w.timerMgr.timer.update now).1.entry id = w.timerMgr.timer.entry id :=
      fun id hid => Scheduler.update_of_not_due (fun hd => hdue ⟨id, hid, hd⟩)
    refine .inl ⟨h.armed.live.congr rfl hentry, h.armed.looked, fun v hv hid hpos => ?_⟩
    obtain ⟨t, hle, ht⟩ := h.armed.armed v hv hid hpos
    exact ⟨t, hle, ht.congr rfl hentry⟩

end Change

end World

inductive Event (μ : Type) where
  | createMail (now : Int) (mid : μ) (castleLv logoutTime : Option Int) (isNewUsr : Option Bool) (expiretime : Option Int)
  | delSharedMail (mid : μ)
  | loadMail (lastId castleLv : Int) (isNewUsr : Bool)
  | updateExpireTimer (now : Int)
  -- the service is stopped, and a new one reads what was saved
  | reload (now : Int)
  | tick (now : Int)

def Event.created : Event μ → Option μ
  | .createMail _ mid .. => some mid
  | _ => none

variable [DecidableEq μ]

def World.step (expire : Int) (w : World μ) : Event μ → World μ
  | .createMail now mid castleLv logoutTime isNewUsr expiretime =>
    w.createMail expire now mid castleLv logoutTime isNewUsr expiretime
  | .delSharedMail mid => w.delSharedMail mid
  | .loadMail .. => w
  | .updateExpireTimer now => w.updateExpireTimer now
  | .reload now => w.init now
  | .tick now => w.tick now

namespace World

variable {w : World μ}

/-- **The list, `midRef`, what `loadMail` returns and the timer.** -/
structure Shared (w : World μ) : Prop where
  ids : w.data.list.Pairwise (fun v v' => v.id < v'.id)
  maxId : ∀ v ∈ w.data.list, v.id ≤ w.data.maxId
  midRef : ∀ mid v, w.midRef mid = some v ↔ v ∈ w.data.list ∧ v.mid = mid
  length : w.data.list.length ≤ shareMailLimit
  /-- the last id is the largest in the list, or that of before -/
  load : ∀ (lastId castleLv : Int) (isNewUsr : Bool), lastId < w.data.maxId → ∃ last,
    w.loadMail lastId castleLv isNewUsr = some ((w.data.list.filter
      (fun v => decide (lastId < v.id ∧ v.castleLv ≤ castleLv))).map Cell.mid, last) ∧
    lastId ≤ last ∧ (∀ v ∈ w.data.list, v.id ≤ last) ∧ (last = lastId ∨ ∃ v ∈ w.data.list, (v.id : Int) = last)
  no_load : ∀ (lastId castleLv : Int) (isNewUsr : Bool), w.data.maxId ≤ lastId → w.loadMail lastId castleLv isNewUsr = none
  armed : ∀ v ∈ w.data.list, v.id ≤ w.looked → 0 < v.expiretime →
    ∃ t ≤ v.expiretime, w.timerMgr.ArmedAt shareExpire (some t)

omit [DecidableEq μ] in
theorem foldl_loadTurn (lastId castleLv : Int) (l : List (Cell μ)) : ∀ r : List μ × Int,
    ∃ last, l.foldl (loadTurn lastId castleLv) r = (r.1 ++ (l.filter
      (fun v => decide (lastId < v.id ∧ v.castleLv ≤ castleLv))).map Cell.mid, last) ∧
      r.2 ≤ last ∧ (∀ v ∈ l, v.id ≤ last) ∧ (last = r.2 ∨ ∃ v ∈ l, (v.id : Int) = last) := by
  induction l with
  | nil => exact fun r => ⟨r.2, by simp, le_rfl, fun v hv => absurd hv List.not_mem_nil, .inl rfl⟩
  | cons v l ih =>
    intro r
    obtain ⟨last, heq, hle, hall, hlast⟩ := ih (loadTurn lastId castleLv r v)
    have hmax : r.2 ≤ (loadTurn lastId castleLv r v).2 ∧ v.id ≤ (loadTurn lastId castleLv r v).2 ∧
        ((loadTurn lastId castleLv r v).2 = r.2 ∨ (v.id : Int) = (loadTurn lastId castleLv r v).2) := by
      unfold loadTurn
      by_cases hlt : r.2 < v.id
      · simp only [if_pos hlt]
        exact ⟨hlt.le, le_rfl, .inr trivial⟩
      · simp only [if_neg hlt]
        exact ⟨le_rfl, Int.not_lt.1 hlt, .inl trivial⟩
    refine ⟨last, ?_, hmax.1.trans hle, fun v' hv' => ?_, ?_⟩
    · rw [List.foldl_cons, heq, List.filter_cons]
      unfold loadTurn
      by_cases hnew : lastId < v.id ∧ v.castleLv ≤ castleLv
      · simp [hnew]
      · simp [hnew]
    · rcases List.mem_cons.1 hv' with rfl | hv'
      · exact hmax.2.1.trans hle
      · exact hall v' hv'
    · rcases hlast with hlast | ⟨v', hv', hlast⟩
      · rcases hmax.2.2 with h | h
        · exact .inl (hlast.trans h)
        · exact .inr ⟨v, List.mem_cons_self, h.trans hlast.symm⟩
      · exact .inr ⟨v', List.mem_cons_of_mem v hv', hlast⟩

omit [DecidableEq μ] in
theorem Good.shared (h : w.Good) : w.Shared where
  ids := h.kept.listed.ids
  maxId := h.kept.listed.le
  midRef := h.kept.listed.midRef
  length := h.kept.listed.length
  load lastId castleLv isNewUsr hlt := by
    obtain ⟨last, heq, hlast⟩ := foldl_loadTurn lastId castleLv w.data.list ([], lastId)
    refine ⟨last, ?_, hlast⟩
    unfold loadMail getMaxID
    simp only [if_neg (Int.not_le.2 hlt), heq, List.nil_append, ite_self]
  no_load lastId castleLv isNewUsr hle := by
    unfold loadMail getMaxID
    exact if_pos hle
  armed := h.armed.armed

theorem Good.step (h : w.Good) (expire : Int) (e : Event μ) (hnew : ∀ mid, e.created = some mid → w.midRef mid = none) :
    (w.step expire e).Good ∧ ∀ v ∈ (w.step expire e).data.list, v ∈ w.data.list ∨ e.created = some v.mid := by
  cases e with
  | createMail now mid castleLv logoutTime isNewUsr expiretime =>
    obtain ⟨cell, list, midRef, hcell, hcase, heq⟩ :=
      createMail_cases w expire now mid castleLv logoutTime isNewUsr expiretime
    have hmem : ∀ v ∈ list ++ [cell], v ∈ w.data.list ∨ v = cell := by
      intro v hv
      refine (List.mem_append.1 hv).imp (fun hv => ?_) List.mem_singleton.1
      rcases hcase with ⟨-, rfl, -⟩ | ⟨c, hlist, -⟩
      · exact hv
      · exact hlist ▸ List.mem_cons_of_mem c hv
    have hmid : cell.mid = mid := hcell ▸ rfl
    refine ⟨⟨h.kept.createMail (hnew mid rfl) .., ?_⟩, fun v hv => ?_⟩
    · show (w.createMail expire now mid castleLv logoutTime isNewUsr expiretime).Armed
      rw [heq]
      refine h.armed.sub (fun v hv hid => ?_) rfl rfl (Nat.le_succ _)
      -- the list was last gone through before this cell
      refine (hmem v hv).resolve_right ?_
      rintro rfl
      have hcellid : v.id = w.data.maxId + 1 := hcell ▸ rfl
      have hlooked := h.armed.looked
      omega
    · have hv : v ∈ (w.createMail expire now mid castleLv logoutTime isNewUsr expiretime).data.list := hv
      rw [heq] at hv
      exact (hmem v hv).imp id (fun hv => congrArg some (hmid.symm.trans (congrArg Cell.mid hv.symm)))
  | delSharedMail mid =>
    obtain ⟨hkept, hsub, htimer, hlooked, hmax⟩ := h.kept.delSharedMail mid
    exact ⟨⟨hkept, h.armed.sub (fun v hv _ => hsub.subset hv) htimer hlooked hmax.ge⟩, fun v hv => .inl (hsub.subset hv)⟩
  | loadMail lastId castleLv isNewUsr => exact ⟨h, fun v hv => .inl hv⟩
  | updateExpireTimer now =>
    obtain ⟨hkept, harmed, hlist⟩ := updateExpireTimer_spec h.kept.listed h.kept.db h.armed.live now
    refine ⟨⟨hkept, harmed⟩, fun v hv => .inl ?_⟩
    have hv : v ∈ (w.updateExpireTimer now).data.list := hv
    rw [hlist] at hv
    exact (List.mem_filter.1 hv).1
  | reload now =>
    obtain ⟨hgood, hlist⟩ := h.kept.init now
    refine ⟨hgood, fun v hv => .inl ?_⟩
    have hv : v ∈ (w.init now).data.list := hv
    rw [hlist] at hv
    exact (List.mem_filter.1 hv).1
  | tick now =>
    obtain ⟨hgood, hsub⟩ := h.tick now
    exact ⟨hgood, fun v hv => .inl (hsub v hv)⟩

theorem good_of_run (expire : Int) : ∀ (es : List (Event μ)) (w : World μ), w.Good → (es.filterMap Event.created).Nodup →
    (∀ v ∈ w.data.list, v.mid ∉ es.filterMap Event.created) → (es.foldl (World.step expire) w).Good
  | [], _, h, _, _ => h
  | e :: es, w, h, hnodup, hnew => by
    have hcons : (e :: es).filterMap Event.created = e.created.toList ++ es.filterMap Event.created := by
      rw [List.filterMap_cons]
      cases e.created <;> rfl
    rw [hcons, List.nodup_append] at hnodup
    rw [hcons] at hnew
    obtain ⟨hgood, hsub⟩ := h.step expire e (fun mid hmid => h.kept.listed.no_mail (fun v hv heq => by
      refine hnew v hv (List.mem_append_left _ ?_)
      rw [hmid, heq]
      exact List.mem_singleton_self mid))
    refine good_of_run expire es _ hgood hnodup.2.1 (fun v hv hmem => ?_)
    rcases hsub v hv with hv | hv
    · exact hnew v hv (List.mem_append_right _ hmem)
    · exact hnodup.2.2 v.mid (by rw [hv]; exact List.mem_singleton_self _) v.mid hmem rfl

/-- **In every run in which each mail is created once**, ticks of the timer and reloads among the calls. -/
theorem cells_of_run (expire now : Int) {es : List (Event μ)} (h : (es.filterMap Event.created).Nodup) :
    (es.foldl (World.step expire) (start now)).Shared := by
  have hempty : (start now : World μ).data.list = [] := rfl
  refine (good_of_run expire es _ (good_start now) h (fun v hv => ?_)).shared
  rw [hempty] at hv
  exact absurd hv List.not_mem_nil

def twoMails : List (Event Nat) :=
  [.createMail 100 7 (some 3) none none (some 1), .reload 110, .createMail 120 8 none none none (some 1)]

theorem shared_of_twoMails : (twoMails.foldl (World.step 5) (start 0)).Shared := cells_of_run 5 0 (by decide)

/-- The mail that was created last has an expiry time and the timer is not armed for it, and a player who has passed over
all mails is told nothing at all. -/
theorem created_unarmed : (∃ v ∈ ((start 0 : World Nat).step 5 (.createMail 100 7 none none none (some 1))).data.list,
      v.expiretime = 105) ∧
    ((start 0 : World Nat).step 5 (.createMail 100 7 none none none (some 1))).timerMgr.timerId shareExpire = none ∧
    ((start 0 : World Nat).step 5 (.createMail 100 7 none none none (some 1))).loadMail 1 10 false = none := by
  refine ⟨⟨_, List.mem_singleton_self _, rfl⟩, rfl, rfl⟩

end World
end ShareMailMgr
end Sncpp
