import Sncpp.TimerMgr
/-!
# TimerMgrRun — no timer is lost and none is taken twice

Any order of `updateTimer`, `removeTimer`, ticks and the callbacks that the ticks have forked, each of which asks
`hasTimer` once.  The end time that a call gives is waited for until it is taken by a callback that was forked at it or
later.
-/
namespace Sncpp
namespace TimerMgr

/-- A callback that a tick has forked and that has not asked `hasTimer` yet. -/
structure Callback (κ : Type) where
  key : κ
  time : Int
deriving DecidableEq

structure Arm where
  no : Nat
  endTime : Int
deriving DecidableEq

/-- An end time that was taken by a callback of the tick at `time`. -/
structure Taken (κ : Type) where
  key : κ
  arm : Arm
  time : Int
deriving DecidableEq

structure Ward (ι τ : Type) [DecidableEq τ] where
  mgr : TimerMgr ι τ
  pending : List (Callback (ι × τ))
  armed : ι × τ → Option Arm
  next : Nat
  taken : List (Taken (ι × τ))

inductive Event (ι τ : Type) where
  | updateTimer (now : Int) (id : ι) (timerType : τ) (endTime : Int)
  | removeTimer (id : ι) (timerType : Option τ)
  | update (now : Int)
  | callback (n : Nat)

variable {ι τ : Type} [DecidableEq ι] [DecidableEq τ]

namespace Ward

def new : Ward ι τ := ⟨ctor, [], fun _ => none, 0, []⟩

def step (w : Ward ι τ) : Event ι τ → Ward ι τ
  | .updateTimer now id timerType endTime =>
    { w with
      mgr := w.mgr.updateTimer now id timerType endTime
      armed := Function.update w.armed (id, timerType) (if endTime ≤ 0 then none else some ⟨w.next, endTime⟩)
      next := w.next + 1 }
  | .removeTimer id timerType =>
    { w with
      mgr := w.mgr.removeTimer id timerType
      armed := fun key => if key.1 = id ∧ (timerType = none ∨ timerType = some key.2) then none else w.armed key }
  | .update now =>
    let r := w.mgr.timer.update now
    { w with mgr := { w.mgr with timer := r.1 }, pending := w.pending ++ r.2.map (fun fork => ⟨fork.2, now⟩) }
  | .callback n =>
    match w.pending[n]? with
    | none => w
    | some cb =>
      let r := w.mgr.hasTimer cb.key.1 cb.key.2
      let arm := (w.armed cb.key).filter (fun _ => r.2)
      { w with
        mgr := r.1
        pending := w.pending.eraseIdx n
        armed := Function.update w.armed cb.key ((w.armed cb.key).filter (fun a => !(r.2 && a.endTime ≤ cb.time)))
        taken := w.taken ++ (arm.map (fun a => ⟨cb.key, a, cb.time⟩)).toList }

/-- An end time is given while no callback of the timer is to ask yet. -/
def Meant (w : Ward ι τ) : Event ι τ → Prop
  | .updateTimer _ id timerType endTime => 0 < endTime → ∀ cb ∈ w.pending, cb.key ≠ (id, timerType)
  | _ => True

/-- **No timer is lost**: the scheduler has it with its end time, or a callback that was forked at that time or later is
to ask for it.  **None is taken twice**, and none before its end time. -/
structure Kept (w : Ward ι τ) : Prop where
  waits : ∀ key arm, w.armed key = some arm →
    (∃ id item, w.mgr.timerId key = some id ∧ w.mgr.timer.list id = some item ∧ item.func = key ∧
      w.mgr.timer.zset.score id = some arm.endTime) ∨
    ∃ cb ∈ w.pending, cb.key = key ∧ arm.endTime ≤ cb.time
  once : w.taken.Pairwise (fun u v => u.key = v.key → u.arm.no ≠ v.arm.no)
  due : ∀ u ∈ w.taken, u.arm.endTime ≤ u.time

/-- The timer is in the scheduler and no callback of it is to ask, or it has left the scheduler and one is. -/
def Waits (w : Ward ι τ) (key : ι × τ) (arm : Arm) (id : Nat) : Prop :=
  (w.mgr.timer.zset.score id = some arm.endTime ∧ ∀ cb ∈ w.pending, cb.key ≠ key) ∨
  (w.mgr.timer.zset.score id = none ∧ ∃ cb ∈ w.pending, cb.key = key ∧ arm.endTime ≤ cb.time)

structure Tables (m : TimerMgr ι τ) : Prop where
  zset : ∀ id, m.timer.zset.score id = none ↔ m.timer.list id = none
  fresh : ∀ id, m.timer.ID ≤ id → m.timer.list id = none
  item : ∀ id item, m.timer.list id = some item → item.repeats = false ∧ m.timerId item.func = some id
  key : ∀ key id, m.timerId key = some id → id < m.timer.ID ∧ ∀ item, m.timer.list id = some item → item.func = key

structure Good (w : Ward ι τ) : Prop where
  tables : Tables w.mgr
  off : ∀ key, w.mgr.timerId key = none → w.armed key = none
  armed : ∀ key id, w.mgr.timerId key = some id → ∃ arm, w.armed key = some arm ∧ w.Waits key arm id
  one : (w.pending.map Callback.key).Nodup
  nos : ∀ key arm, w.armed key = some arm → arm.no < w.next ∧ ∀ u ∈ w.taken, u.key = key → u.arm.no ≠ arm.no
  old : ∀ u ∈ w.taken, u.arm.no < w.next
  once : w.taken.Pairwise (fun u v => u.key = v.key → u.arm.no ≠ v.arm.no)
  due : ∀ u ∈ w.taken, u.arm.endTime ≤ u.time

omit [DecidableEq ι] in
theorem good_new : (new : Ward ι τ).Good where
  tables := {
    zset := fun _ => ⟨fun _ => rfl, fun _ => rfl⟩
    fresh := fun _ _ => rfl
    item := fun id item h => by cases h
    key := fun key id h => by cases h }
  off _ _ := rfl
  armed key id h := by cases h
  one := List.nodup_nil
  nos key arm h := by cases h
  old u h := by cases h
  once := List.Pairwise.nil
  due u h := by cases h

variable {w : Ward ι τ}

omit [DecidableEq ι] in
theorem Tables.list_of_score {m : TimerMgr ι τ} (h : Tables m) {id : Nat} {d : Int} (hs : m.timer.zset.score id = some d) :
    ∃ item, m.timer.list id = some item := by
  refine Option.ne_none_iff_exists'.1 (fun hno => ?_)
  rw [(h.zset id).2 hno] at hs
  cases hs

omit [DecidableEq ι] in
theorem Tables.key_unique {m : TimerMgr ι τ} (h : Tables m) {key key' : ι × τ} {id : Nat} {d : Int}
    (hs : m.timer.zset.score id = some d) (hk : m.timerId key = some id) (hk' : m.timerId key' = some id) : key = key' := by
  obtain ⟨item, hitem⟩ := h.list_of_score hs
  exact ((h.key key id hk).2 item hitem).symm.trans ((h.key key' id hk').2 item hitem)

omit [DecidableEq ι] in
theorem Good.kept (h : w.Good) : w.Kept where
  waits key arm harm := by
    cases hid : w.mgr.timerId key with
    | none =>
      rw [h.off key hid] at harm
      cases harm
    | some id =>
      obtain ⟨arm', harm', hwaits⟩ := h.armed key id hid
      obtain rfl : arm' = arm := Option.some.inj (harm'.symm.trans harm)
      rcases hwaits with ⟨hscore, -⟩ | ⟨-, hcb⟩
      · obtain ⟨item, hitem⟩ := h.tables.list_of_score hscore
        exact Or.inl ⟨id, item, rfl, hitem, (h.tables.key key id hid).2 item hitem, hscore⟩
      · exact Or.inr hcb
  once := h.once
  due := h.due

/-- What a call leaves when it gives the timer of `key` an end time, under the id `id`. -/
structure Arms (w w' : Ward ι τ) (key : ι × τ) (id : Nat) (endTime : Int) : Prop where
  timerId : ∀ k, w'.mgr.timerId k = if k = key then some id else w.mgr.timerId k
  list : ∃ item, item.repeats = false ∧ item.func = key ∧
    ∀ a, w'.mgr.timer.list a = if a = id then some item else w.mgr.timer.list a
  score : ∀ a, w'.mgr.timer.zset.score a = if a = id then some endTime else w.mgr.timer.zset.score a
  ID : id < w'.mgr.timer.ID ∧ w.mgr.timer.ID ≤ w'.mgr.timer.ID
  armed : ∀ k, w'.armed k = if k = key then some ⟨w.next, endTime⟩ else w.armed k
  next : w'.next = w.next + 1
  pending : w'.pending = w.pending
  taken : w'.taken = w.taken

theorem Tables.arm (h : Tables w.mgr) (id : Nat) {w' : Ward ι τ} {key : ι × τ} {endTime : Int} (hw : Arms w w' key id endTime)
    (hown : ∀ a, w.mgr.timerId key = some a → a = id) (hnew : ∀ k a, k ≠ key → w.mgr.timerId k = some a → a ≠ id) :
    Tables w'.mgr := by
  obtain ⟨hmap, ⟨item, hrep, hfunc, hlist⟩, hscore, hID, -, -, -, -⟩ := hw
  exact {
    zset := fun a => by
      rw [hlist, hscore]
      split
      · exact iff_of_false (Option.some_ne_none _) (Option.some_ne_none _)
      · exact h.zset a
    fresh := fun a ha => by
      rw [hlist, if_neg (fun heq => absurd hID.1 (by omega))]
      exact h.fresh a (hID.2.trans ha)
    item := fun a item' hitem => by
      rw [hlist] at hitem
      rw [hmap]
      split at hitem
      · next heq =>
        obtain rfl := Option.some.inj hitem
        rw [heq, hfunc, if_pos rfl]
        exact ⟨hrep, rfl⟩
      · next hne =>
        obtain ⟨hrep', hid'⟩ := h.item a item' hitem
        have hfk : item'.func ≠ key := fun heq => by
          rw [heq] at hid'
          exact hne (hown a hid')
        rw [if_neg hfk]
        exact ⟨hrep', hid'⟩
    key := fun k a hk => by
      rw [hmap] at hk
      split at hk
      · next heq =>
        obtain rfl := Option.some.inj hk
        refine ⟨hID.1, fun item' hitem => ?_⟩
        rw [hlist, if_pos rfl] at hitem
        rw [← Option.some.inj hitem, hfunc, heq]
      · next hne =>
        obtain ⟨hlt, hkey⟩ := h.key k a hk
        refine ⟨hlt.trans_le hID.2, fun item' hitem => ?_⟩
        rw [hlist, if_neg (hnew k a hne hk)] at hitem
        exact hkey item' hitem }

theorem Good.arm (h : w.Good) (id : Nat) {w' : Ward ι τ} {key : ι × τ} {endTime : Int} (hw : Arms w w' key id endTime)
    (hown : ∀ a, w.mgr.timerId key = some a → a = id) (hnew : ∀ k a, k ≠ key → w.mgr.timerId k = some a → a ≠ id)
    (hno : ∀ cb ∈ w.pending, cb.key ≠ key) : w'.Good := by
  have htables := h.tables.arm id hw hown hnew
  obtain ⟨hmap, -, hscore, -, harmed, hnext, hpending, htaken⟩ := hw
  exact {
    tables := htables
    off := fun k hk => by
      rw [hmap] at hk
      rw [harmed]
      split at hk
      · cases hk
      · next hne =>
        rw [if_neg hne]
        exact h.off k hk
    armed := fun k a hk => by
      rw [hmap] at hk
      rw [harmed]
      unfold Waits
      rw [hscore, hpending]
      split at hk
      · next heq =>
        obtain rfl := Option.some.inj hk
        rw [if_pos heq, if_pos rfl, heq]
        exact ⟨_, rfl, Or.inl ⟨rfl, hno⟩⟩
      · next hne =>
        rw [if_neg hne, if_neg (hnew k a hne hk)]
        exact h.armed k a hk
    one := by
      rw [hpending]
      exact h.one
    nos := fun k arm harm => by
      rw [harmed] at harm
      rw [hnext, htaken]
      split at harm
      · obtain rfl := Option.some.inj harm
        exact ⟨Nat.lt_succ_self _, fun u hu _ => Nat.ne_of_lt (h.old u hu)⟩
      · exact ⟨Nat.lt_succ_of_lt (h.nos k arm harm).1, (h.nos k arm harm).2⟩
    old := fun u hu => by
      rw [htaken] at hu
      rw [hnext]
      exact Nat.lt_succ_of_lt (h.old u hu)
    once := by
      rw [htaken]
      exact h.once
    due := by
      rw [htaken]
      exact h.due }

structure Disarms (w w' : Ward ι τ) (K : ι × τ → Prop) : Prop where
  timerId : ∀ k, (K k → w'.mgr.timerId k = none) ∧ (¬ K k → w'.mgr.timerId k = w.mgr.timerId k)
  entry : ∀ a, ((∃ k, K k ∧ w.mgr.timerId k = some a) → w'.mgr.timer.list a = none ∧ w'.mgr.timer.zset.score a = none) ∧
    ((∀ k, K k → w.mgr.timerId k ≠ some a) → w'.mgr.timer.list a = w.mgr.timer.list a ∧
      w'.mgr.timer.zset.score a = w.mgr.timer.zset.score a)
  ID : w'.mgr.timer.ID = w.mgr.timer.ID
  armed : ∀ k, (K k → w'.armed k = none) ∧ (¬ K k → w'.armed k = w.armed k)
  next : w.next ≤ w'.next
  pending : w'.pending = w.pending
  taken : w'.taken = w.taken

omit [DecidableEq ι] in
theorem Disarms.cases {w' : Ward ι τ} {K : ι × τ → Prop} (hw : Disarms w w' K) (a : Nat) :
    (w'.mgr.timer.list a = none ∧ w'.mgr.timer.zset.score a = none) ∨
      ((∀ k, K k → w.mgr.timerId k ≠ some a) ∧ w'.mgr.timer.list a = w.mgr.timer.list a ∧
        w'.mgr.timer.zset.score a = w.mgr.timer.zset.score a) := by
  by_cases ha : ∃ k, K k ∧ w.mgr.timerId k = some a
  · exact Or.inl ((hw.entry a).1 ha)
  · rw [not_exists] at ha
    have hall : ∀ k, K k → w.mgr.timerId k ≠ some a := fun k hk heq => ha k ⟨hk, heq⟩
    exact Or.inr ⟨hall, (hw.entry a).2 hall⟩

omit [DecidableEq ι] in
theorem Disarms.keep {w' : Ward ι τ} {K : ι × τ → Prop} (hw : Disarms w w' K) {k : ι × τ} {a : Nat}
    (hk : w'.mgr.timerId k = some a) : ¬ K k ∧ w.mgr.timerId k = some a := by
  by_cases hK : K k
  · rw [(hw.timerId k).1 hK] at hk
    cases hk
  · exact ⟨hK, ((hw.timerId k).2 hK).symm.trans hk⟩

omit [DecidableEq ι] in
theorem Tables.disarm (h : Tables w.mgr) {w' : Ward ι τ} {K : ι × τ → Prop} (hw : Disarms w w' K) : Tables w'.mgr := by
  have hID := hw.ID
  exact {
    zset := fun a => by
      rcases hw.cases a with ⟨hlist, hscore⟩ | ⟨-, hlist, hscore⟩
      · exact iff_of_true hscore hlist
      · rw [hlist, hscore]
        exact h.zset a
    fresh := fun a ha => by
      rw [hID] at ha
      rcases hw.cases a with ⟨hlist, -⟩ | ⟨-, hlist, -⟩
      · exact hlist
      · exact hlist.trans (h.fresh a ha)
    item := fun a item hitem => by
      rcases hw.cases a with ⟨hlist, -⟩ | ⟨hall, hlist, -⟩
      · rw [hlist] at hitem
        cases hitem
      · rw [hlist] at hitem
        obtain ⟨hrep, hid⟩ := h.item a item hitem
        exact ⟨hrep, ((hw.timerId _).2 (fun hK => hall _ hK hid)).trans hid⟩
    key := fun k a hk => by
      obtain ⟨-, hid⟩ := hw.keep hk
      obtain ⟨hlt, hkey⟩ := h.key k a hid
      refine ⟨hID ▸ hlt, fun item hitem => ?_⟩
      rcases hw.cases a with ⟨hlist, -⟩ | ⟨-, hlist, -⟩
      · rw [hlist] at hitem
        cases hitem
      · exact hkey item (hlist ▸ hitem) }

omit [DecidableEq ι] in
theorem Good.disarm (h : w.Good) {w' : Ward ι τ} {K : ι × τ → Prop} (hw : Disarms w w' K) : w'.Good := by
  have htables := h.tables.disarm hw
  obtain ⟨hmap, hentry, -, harmed, hnext, hpending, htaken⟩ := id hw
  -- a timer of a key that stays does
  have hstay : ∀ k a, ¬ K k → w.mgr.timerId k = some a → ∀ d, w.mgr.timer.zset.score a = some d →
      w'.mgr.timer.zset.score a = some d := by
    intro k a hk hid d hd
    refine ((hentry a).2 (fun k' hk' hid' => ?_)).2.trans hd
    exact hk (h.tables.key_unique hd hid hid' ▸ hk')
  exact {
    tables := htables
    off := fun k hk => by
      by_cases hK : K k
      · exact (harmed k).1 hK
      · rw [(harmed k).2 hK]
        exact h.off k (((hmap k).2 hK).symm.trans hk)
    armed := fun k a hk => by
      obtain ⟨hK, hid⟩ := hw.keep hk
      obtain ⟨arm, harm, hwaits⟩ := h.armed k a hid
      refine ⟨arm, ((harmed k).2 hK).trans harm, ?_⟩
      unfold Waits
      rw [hpending]
      refine hwaits.imp (fun hlive => ⟨hstay k a hK hid _ hlive.1, hlive.2⟩) (fun hgone => ⟨?_, hgone.2⟩)
      rcases hw.cases a with ⟨-, hscore⟩ | ⟨-, -, hscore⟩
      · exact hscore
      · exact hscore.trans hgone.1
    one := by
      rw [hpending]
      exact h.one
    nos := fun k arm harm => by
      by_cases hK : K k
      · rw [(harmed k).1 hK] at harm
        cases harm
      · rw [(harmed k).2 hK] at harm
        rw [htaken]
        exact ⟨(h.nos k arm harm).1.trans_le hnext, (h.nos k arm harm).2⟩
    old := fun u hu => (h.old u (htaken ▸ hu)).trans_le hnext
    once := by
      rw [htaken]
      exact h.once
    due := by
      rw [htaken]
      exact h.due }

theorem Good.removed (h : w.Good) {w' : Ward ι τ} {id : ι} {timerType : Option τ}
    (hmgr : w'.mgr = w.mgr.removeTimer id timerType)
    (harmed : ∀ k, (Covers id timerType k → w'.armed k = none) ∧ (¬ Covers id timerType k → w'.armed k = w.armed k))
    (hnext : w.next ≤ w'.next) (hpending : w'.pending = w.pending) (htaken : w'.taken = w.taken) : w'.Good := by
  have htimer := w.mgr.removeTimer_timer id timerType
  have hentry : ∀ a, w'.mgr.timer.entry a = if a ∈ w.mgr.ids id timerType ∧ w.mgr.timer.list a ≠ none then ⟨none, none⟩
      else w.mgr.timer.entry a := by
    intro a
    rw [hmgr, htimer]
    exact Scheduler.stops_entry a _ _
  refine h.disarm (K := Covers id timerType) ⟨fun k => ⟨fun hk => ?_, fun hk => ?_⟩, fun a =>
    ⟨fun hk => ?_, fun hk => ?_⟩, ?_,
    harmed, hnext, hpending, htaken⟩
  · rw [hmgr]
    exact w.mgr.removeTimer_of_covers hk
  · rw [hmgr]
    exact w.mgr.removeTimer_of_not_covers hk
  · have ha := hentry a
    by_cases hlist : w.mgr.timer.list a = none
    · rw [if_neg (fun hand => hand.2 hlist)] at ha
      exact ⟨(congrArg Scheduler.Entry.item ha).trans hlist,
        (congrArg Scheduler.Entry.score ha).trans ((h.tables.zset a).2 hlist)⟩
    · rw [if_pos ⟨(w.mgr.mem_ids id timerType a).2 hk, hlist⟩] at ha
      exact ⟨congrArg Scheduler.Entry.item ha, congrArg Scheduler.Entry.score ha⟩
  · have ha := hentry a
    have hno : a ∉ w.mgr.ids id timerType := by
      rw [w.mgr.mem_ids]
      rintro ⟨k, hcov, hid⟩
      exact hk k hcov hid
    rw [if_neg (fun hand => hno hand.1)] at ha
    exact ⟨congrArg Scheduler.Entry.item ha, congrArg Scheduler.Entry.score ha⟩
  · rw [hmgr, htimer]
    exact Scheduler.stops_ID _ _

theorem Good.removeTimer (h : w.Good) (id : ι) (timerType : Option τ) : (w.step (.removeTimer id timerType)).Good :=
  h.removed rfl (fun _ => ⟨fun hk => if_pos hk, fun hk => if_neg hk⟩) (Nat.le_refl _) rfl rfl

theorem Good.updateTimer (h : w.Good) (now : Int) (id : ι) (timerType : τ) (endTime : Int)
    (hno : 0 < endTime → ∀ cb ∈ w.pending,
      cb.key ≠ (id, timerType)) : (w.step (.updateTimer now id timerType endTime)).Good := by
  have harmed : ∀ k, (w.step (.updateTimer now id timerType endTime)).armed k =
      if k = (id, timerType) then (if endTime ≤ 0 then none else some ⟨w.next, endTime⟩) else w.armed k := by
    intro k
    simp only [step]
    by_cases hk : k = (id, timerType)
    · rw [if_pos hk, hk, Function.update_self]
    · rw [if_neg hk, Function.update_of_ne hk]
  by_cases hpos : endTime ≤ 0
  · have hcov : ∀ k : ι × τ, Covers id (some timerType) k ↔ k = (id, timerType) := by
      rintro ⟨id', timerType'⟩
      simp [Covers, eq_comm]
    refine h.removed (w.mgr.updateTimer_of_le hpos) (fun k => ⟨fun hk => ?_, fun hk => ?_⟩) (Nat.le_succ _) rfl rfl
    · rw [harmed, if_pos ((hcov k).1 hk), if_pos hpos]
    · rw [harmed, if_neg (fun heq => hk ((hcov k).2 heq))]
  · have hno := hno (Int.not_le.1 hpos)
    simp only [if_neg hpos] at harmed
    cases hid : w.mgr.timerId (id, timerType) with
    | some n =>
      -- the timer is in the scheduler: no callback of it is to ask
      obtain ⟨arm, -, hwaits⟩ := h.armed _ n hid
      obtain ⟨hscore, -⟩ := hwaits.resolve_right (fun ⟨_, cb, hcb, heq, _⟩ => hno cb hcb heq)
      obtain ⟨item, hitem⟩ := h.tables.list_of_score hscore
      have hmgr : w.mgr.updateTimer now id timerType endTime = { w.mgr with timer := (w.mgr.timer.reset n endTime).1 } := by
        simp [TimerMgr.updateTimer, hid, hpos]
      have hentry := fun a => w.mgr.timer.reset_entry n a endTime
      have hID : (w.mgr.timer.reset n endTime).1.ID = w.mgr.timer.ID := by
        unfold Scheduler.reset
        split <;> rfl
      refine h.arm n ⟨fun k => ?_, ⟨item, (h.tables.item n item hitem).1, (h.tables.key _ n hid).2 item hitem, fun a => ?_⟩,
        fun a => ?_, ?_, harmed, rfl, rfl, rfl⟩ (fun a ha =>
          Option.some.inj (ha.symm.trans hid)) (fun k a hne ha heq => ?_) hno
      · simp only [step, hmgr]
        split
        · next heq => rw [heq]; exact hid
        · rfl
      · simp only [step, hmgr]
        rw [show (w.mgr.timer.reset n endTime).1.list a = w.mgr.timer.list a from congrArg Scheduler.Entry.item (hentry a)]
        split
        · next heq => rw [heq, hitem]
        · rfl
      · simp only [step, hmgr]
        exact congrArg Scheduler.Entry.score (hentry a)
      · simp only [step, hmgr, hID]
        exact ⟨(h.tables.key _ n hid).1, Nat.le_refl _⟩
      · subst heq
        exact hne (h.tables.key_unique hscore ha hid)
    | none =>
      have hmgr : w.mgr.updateTimer now id timerType endTime = ({ w.mgr with timer :=
          ⟨Function.update w.mgr.timer.list w.mgr.timer.ID (some ⟨(id, timerType), false, endTime - now⟩),
            w.mgr.timer.zset.add endTime w.mgr.timer.ID, w.mgr.timer.ID + 1⟩ } : TimerMgr ι τ).setMap id
          (AList.insert timerType w.mgr.timer.ID) := by
        simp [TimerMgr.updateTimer, hid, hpos, Scheduler.schedule]
      refine h.arm w.mgr.timer.ID ⟨fun k => ?_, ⟨⟨(id, timerType), false, endTime - now⟩, rfl, rfl, fun a => ?_⟩,
        fun a => ?_, ?_, harmed, rfl, rfl, rfl⟩ (fun a ha => ?_) (fun k a _ ha heq => ?_) hno
      · simp only [step, hmgr]
        exact timerId_insert _ (id, timerType) k _
      · simp only [step, hmgr]
        exact Function.update_apply _ _ _ _
      · simp only [step, hmgr]
        exact Zset.score_add _ _ _ _
      · simp only [step, hmgr]
        exact ⟨Nat.lt_succ_self _, Nat.le_succ _⟩
      · rw [hid] at ha
        cases ha
      · exact absurd (h.tables.key k a ha).1 (by omega)

omit [DecidableEq ι] in
theorem Tables.fired {m : TimerMgr ι τ} (h : Tables m) {now : Int} {a : Nat} (hdue : (m.timer.entry a).Due now) :
    (m.timer.update now).1.entry a = ⟨none, none⟩ := by
  obtain ⟨d, hscore, -⟩ := id hdue
  obtain ⟨item, hitem⟩ := h.list_of_score hscore
  rw [Scheduler.update_of_due hdue]
  simp [Scheduler.Entry.fire, Scheduler.entry, hitem, (h.item a item hitem).1]

omit [DecidableEq ι] in
theorem Tables.fork {m : TimerMgr ι τ} (h : Tables m) {now : Int} {a : Nat} {k : ι × τ}
    (hfork : (a, k) ∈ (m.timer.update now).2) :
    (m.timer.entry a).Due now ∧ m.timerId k = some a := by
  obtain ⟨hdue, item, hitem, rfl⟩ := Scheduler.mem_forks.1 hfork
  exact ⟨hdue, (h.item a item hitem).2⟩

omit [DecidableEq ι] in
theorem Tables.update {m : TimerMgr ι τ} (h : Tables m) (now : Int) :
    Tables { m with timer := (m.timer.update now).1 } := by
  have hcases : ∀ a, (m.timer.update now).1.entry a = ⟨none, none⟩ ∨ (m.timer.update now).1.entry a = m.timer.entry a := by
    intro a
    by_cases hdue : (m.timer.entry a).Due now
    · exact Or.inl (h.fired hdue)
    · exact Or.inr (Scheduler.update_of_not_due hdue)
  have hlist : ∀ a item, (m.timer.update now).1.list a = some item → m.timer.list a = some item := by
    intro a item hitem
    rcases hcases a with ha | ha
    · rw [show (m.timer.update now).1.list a = none from congrArg Scheduler.Entry.item ha] at hitem
      cases hitem
    · exact (congrArg Scheduler.Entry.item ha).symm.trans hitem
  exact {
    zset := fun a => by
      show ((m.timer.update now).1.entry a).score = none ↔ ((m.timer.update now).1.entry a).item = none
      rcases hcases a with ha | ha
      · rw [ha]
        exact iff_of_true rfl rfl
      · rw [ha]
        exact h.zset a
    fresh := fun a ha => by
      rw [show (m.timer.update now).1.ID = m.timer.ID from Scheduler.update_ID _] at ha
      show ((m.timer.update now).1.entry a).item = none
      rcases hcases a with hent | hent
      · rw [hent]
      · rw [hent]
        exact h.fresh a ha
    item := fun a item hitem => h.item a item (hlist a item hitem)
    key := fun k a hk => by
      rw [show (m.timer.update now).1.ID = m.timer.ID from Scheduler.update_ID _]
      exact ⟨(h.key k a hk).1, fun item hitem => (h.key k a hk).2 item (hlist a item hitem)⟩ }

theorem Good.update (h : w.Good) (now : Int) : (w.step (.update now)).Good := by
  have hpending : (w.step (.update now)).pending = w.pending ++
    (w.mgr.timer.update now).2.map (fun fork => ⟨fork.2, now⟩) := rfl
  -- nobody waits for a callback of a timer that is forked now
  have hlive : ∀ a k, (a, k) ∈ (w.mgr.timer.update now).2 → ∀ cb ∈ w.pending, cb.key ≠ k := by
    intro a k hfork
    obtain ⟨⟨d, hscore, -⟩, hid⟩ := h.tables.fork hfork
    obtain ⟨arm, -, hwaits⟩ := h.armed k a hid
    refine (hwaits.resolve_right (fun hgone => ?_)).2
    rw [show w.mgr.timer.zset.score a = some d from hscore] at hgone
    cases hgone.1
  exact {
    tables := h.tables.update now
    off := h.off
    armed := fun k a hk => by
      obtain ⟨arm, harm, hwaits⟩ := h.armed k a hk
      refine ⟨arm, harm, ?_⟩
      unfold Waits
      rw [hpending, show (w.step (.update now)).mgr.timer.zset.score a =
        ((w.mgr.timer.update now).1.entry a).score from rfl]
      rcases hwaits with ⟨hscore, hnone⟩ | ⟨hscore, cb, hcb, heq, hle⟩
      · by_cases hdue : (w.mgr.timer.entry a).Due now
        · refine Or.inr ⟨by rw [h.tables.fired hdue], ⟨k, now⟩, List.mem_append_right _ ?_, rfl, ?_⟩
          · obtain ⟨item, hitem⟩ := h.tables.list_of_score hscore
            exact List.mem_map.2 ⟨(a, k), Scheduler.mem_forks.2 ⟨hdue, item, hitem, (h.tables.key k a hk).2 item hitem⟩,
              rfl⟩
          · obtain ⟨d, hd, -, hle⟩ := hdue
            obtain rfl : d = arm.endTime := Option.some.inj (hd.symm.trans hscore)
            exact hle
        · refine Or.inl ⟨by rw [Scheduler.update_of_not_due hdue]; exact hscore, fun cb hcb heq => ?_⟩
          rcases List.mem_append.1 hcb with hcb | hcb
          · exact hnone cb hcb heq
          · obtain ⟨⟨a', k'⟩, hfork, rfl⟩ := List.mem_map.1 hcb
            obtain ⟨hdue', hid'⟩ := h.tables.fork hfork
            obtain rfl : k' = k := heq
            obtain rfl : a' = a := Option.some.inj (hid'.symm.trans hk)
            exact hdue hdue'
      · have hdue : ¬ (w.mgr.timer.entry a).Due now := by
          rintro ⟨d, hd, -⟩
          rw [show (w.mgr.timer.entry a).score = none from hscore] at hd
          cases hd
        exact Or.inr ⟨by rw [Scheduler.update_of_not_due hdue]; exact hscore, cb, List.mem_append_left _ hcb, heq, hle⟩
    one := by
      rw [hpending, List.map_append, List.nodup_append]
      refine ⟨h.one, ?_, fun k hk k' hk' heq => ?_⟩
      · rw [List.map_map]
        refine List.Nodup.map_on ?_ ((Scheduler.nodup_forks w.mgr.timer).of_map)
        rintro ⟨a, k⟩ hfork ⟨a', k'⟩ hfork' heq
        obtain rfl : k = k' := heq
        exact Prod.ext (Option.some.inj ((h.tables.fork hfork).2.symm.trans (h.tables.fork hfork').2)) rfl
      · obtain ⟨cb, hcb, rfl⟩ := List.mem_map.1 hk
        obtain ⟨_, hfork, rfl⟩ := List.mem_map.1 hk'
        obtain ⟨⟨a, k⟩, hmem, rfl⟩ := List.mem_map.1 hfork
        exact hlive a k hmem cb hcb heq
    nos := h.nos
    old := h.old
    once := h.once
    due := h.due }

omit [DecidableEq ι] in
/-- **The callback that asks for a timer is the one that was forked at its end time or later.** -/
theorem Good.taken_of (h : w.Good) {cb : Callback (ι × τ)} (hcb : cb ∈ w.pending) {a : Nat}
    (hid : w.mgr.timerId cb.key = some a) :
    w.mgr.timer.list a = none ∧ ∃ arm, w.armed cb.key = some arm ∧ arm.endTime ≤ cb.time := by
  obtain ⟨arm, harm, hwaits⟩ := h.armed _ a hid
  obtain ⟨hscore, cb', hcb', heq, hle⟩ := hwaits.resolve_left (fun hlive => hlive.2 cb hcb rfl)
  obtain rfl : cb' = cb := List.inj_on_of_nodup_map h.one hcb' hcb heq
  exact ⟨(h.tables.zset a).1 hscore, arm, harm, hle⟩

theorem Good.asked (h : w.Good) {n : Nat} {cb : Callback (ι × τ)} (hn : w.pending[n]? = some cb) :
    (w.step (.callback n)).armed = Function.update w.armed cb.key none ∧
      (w.step (.callback n)).taken = w.taken ++ ((w.armed cb.key).map (fun a => ⟨cb.key, a, cb.time⟩)).toList := by
  have hcb := List.mem_of_getElem? hn
  simp only [step, hn, hasTimer_eq]
  cases hid : w.mgr.timerId cb.key with
  | none =>
    have harm := h.off cb.key hid
    rw [harm]
    exact ⟨rfl, rfl⟩
  | some a =>
    obtain ⟨-, arm, harm, hle⟩ := h.taken_of hcb hid
    rw [harm]
    exact ⟨congrArg _ (by simp [hle]), rfl⟩

omit [DecidableEq ι] in
theorem Good.newly_taken (h : w.Good) {cb : Callback (ι × τ)} (hcb : cb ∈ w.pending) {u : Taken (ι × τ)}
    (hu : u ∈ ((w.armed cb.key).map (fun a => (⟨cb.key, a, cb.time⟩ : Taken (ι × τ)))).toList) :
    u.key = cb.key ∧ w.armed cb.key = some u.arm ∧ u.arm.endTime ≤ u.time := by
  obtain ⟨arm, harm, rfl⟩ := Option.map_eq_some_iff.1 (Option.mem_toList.1 hu)
  refine ⟨rfl, harm, ?_⟩
  cases hid : w.mgr.timerId cb.key with
  | none =>
    rw [h.off _ hid] at harm
    cases harm
  | some a =>
    obtain ⟨-, arm', harm', hle⟩ := h.taken_of hcb hid
    obtain rfl : arm' = arm := Option.some.inj (harm'.symm.trans harm)
    exact hle

theorem Good.asked_tables (h : w.Good) {cb : Callback (ι × τ)} (hcb : cb ∈ w.pending) {m : TimerMgr ι τ}
    (hmap : ∀ k, m.timerId k = if k = cb.key then none else w.mgr.timerId k) (htimer : m.timer = w.mgr.timer) :
    Tables m where
  zset := by
    rw [htimer]
    exact h.tables.zset
  fresh := by
    rw [htimer]
    exact h.tables.fresh
  item := fun a item hitem => by
    rw [htimer] at hitem
    obtain ⟨hrep, hid⟩ := h.tables.item a item hitem
    refine ⟨hrep, ?_⟩
    rw [hmap, if_neg (fun heq => ?_)]
    · exact hid
    · rw [heq] at hid
      rw [(h.taken_of hcb hid).1] at hitem
      cases hitem
  key := fun k a hk => by
    rw [hmap] at hk
    split at hk
    · cases hk
    · rw [htimer]
      exact h.tables.key k a hk

theorem Good.callback (h : w.Good) (n : Nat) : (w.step (.callback n)).Good := by
  cases hn : w.pending[n]? with
  | none =>
    have hstep : w.step (.callback n) = w := by simp only [step, hn]
    rw [hstep]
    exact h
  | some cb =>
    have hcb := List.mem_of_getElem? hn
    obtain ⟨harmed, htaken⟩ := h.asked hn
    have hmgr : (w.step (.callback n)).mgr = (w.mgr.hasTimer cb.key.1 cb.key.2).1 := by simp only [step, hn]
    have hpending : (w.step (.callback n)).pending = w.pending.eraseIdx n := by simp only [step, hn]
    have hnext : (w.step (.callback n)).next = w.next := by simp only [step, hn]
    have hmap : ∀ k, (w.step (.callback n)).mgr.timerId k = if k = cb.key then none else w.mgr.timerId k :=
      fun k => by rw [hmgr, hasTimer_timerId]
    have htimer : (w.step (.callback n)).mgr.timer = w.mgr.timer := by rw [hmgr, hasTimer_timer]
    -- the other callbacks are still there
    have hstay : ∀ cb' ∈ w.pending, cb'.key ≠ cb.key → cb' ∈ w.pending.eraseIdx n := by
      intro cb' hcb' hne
      obtain ⟨i, hi⟩ := List.getElem?_of_mem hcb'
      refine List.mem_eraseIdx_iff_getElem?.2 ⟨i, fun heq => hne ?_, hi⟩
      rw [heq, hn] at hi
      rw [Option.some.inj hi]
    have hold : ∀ k arm, (w.step (.callback n)).armed k = some arm → k ≠ cb.key ∧ w.armed k = some arm := by
      intro k arm harm
      rw [harmed] at harm
      by_cases hk : k = cb.key
      · rw [hk, Function.update_self] at harm
        cases harm
      · rw [Function.update_of_ne hk] at harm
        exact ⟨hk, harm⟩
    have hnew : ∀ u ∈ ((w.armed cb.key).map (fun a => (⟨cb.key, a, cb.time⟩ : Taken (ι × τ)))).toList, u.key = cb.key ∧
        w.armed cb.key = some u.arm ∧ u.arm.endTime ≤ u.time := fun u hu => h.newly_taken hcb hu
    exact {
      tables := h.asked_tables hcb hmap htimer
      off := fun k hk => by
        rw [harmed]
        by_cases heq : k = cb.key
        · rw [heq, Function.update_self]
        · rw [hmap, if_neg heq] at hk
          rw [Function.update_of_ne heq]
          exact h.off k hk
      armed := fun k a hk => by
        rw [hmap] at hk
        split at hk
        · cases hk
        · next hne =>
          obtain ⟨arm, harm, hwaits⟩ := h.armed k a hk
          refine ⟨arm, by rw [harmed, Function.update_of_ne hne]; exact harm, ?_⟩
          unfold Waits
          rw [htimer, hpending]
          refine hwaits.imp (fun hlive => ⟨hlive.1, fun cb' hcb' => hlive.2 cb' (List.mem_of_mem_eraseIdx hcb')⟩) ?_
          rintro ⟨hscore, cb', hcb', heq, hle⟩
          exact ⟨hscore, cb', hstay cb' hcb' (fun heq' => hne (heq.symm.trans heq')), heq, hle⟩
      one := by
        rw [hpending]
        exact ((List.eraseIdx_sublist _ _).map _).nodup h.one
      nos := fun k arm harm => by
        obtain ⟨hne, harm⟩ := hold k arm harm
        rw [hnext, htaken]
        refine ⟨(h.nos k arm harm).1, fun u hu hkey => ?_⟩
        rcases List.mem_append.1 hu with hu | hu
        · exact (h.nos k arm harm).2 u hu hkey
        · exact absurd (hkey.symm.trans (hnew u hu).1) hne
      old := fun u hu => by
        rw [htaken] at hu
        rw [hnext]
        rcases List.mem_append.1 hu with hu | hu
        · exact h.old u hu
        · exact (h.nos _ _ (hnew u hu).2.1).1
      once := by
        rw [htaken]
        refine List.pairwise_append.2 ⟨h.once, ?_, fun u hu v hv heq => ?_⟩
        · cases w.armed cb.key with
          | none => exact List.Pairwise.nil
          | some arm => exact List.pairwise_singleton _ _
        · obtain ⟨hkey, harm, -⟩ := hnew v hv
          exact (h.nos _ _ harm).2 u hu (heq.trans hkey)
      due := fun u hu => by
        rw [htaken] at hu
        rcases List.mem_append.1 hu with hu | hu
        · exact h.due u hu
        · exact (hnew u hu).2.2 }

theorem Good.step (h : w.Good) : ∀ e : Event ι τ, w.Meant e → (w.step e).Good
  | .updateTimer now id timerType endTime, hno => h.updateTimer now id timerType endTime hno
  | .removeTimer id timerType, _ => h.removeTimer id timerType
  | .update now, _ => h.update now
  | .callback n, _ => h.callback n

/-- **No timer is lost, and none is taken twice or too early, as long as no end time is given between a tick that forks a
timer's callback and the callback's `hasTimer`.** -/
theorem arms_of_run {es : List (Event ι τ)} (h : Steps.Along step Meant (new : Ward ι τ) es) :
    Steps.Along step (fun w e => (w.step e).Kept) new es := by
  refine Steps.Along.keep (I := Good) (fun w e hmeant hgood => ?_) es new good_new h
  have hstep := hgood.step e hmeant
  exact ⟨hstep, hstep.kept⟩

def rounds : List (Event Nat Nat) :=
  [.updateTimer 5 7 0 10, .updateTimer 6 7 0 12, .updateTimer 6 7 1 30, .update 12, .callback 0, .updateTimer 12 7 0 20,
    .removeTimer 7 none,
    .update 30]

theorem arms_of_rounds : Steps.Along step (fun w e => (w.step e).Kept) (new : Ward Nat Nat) rounds ∧
    (rounds.foldl step (new : Ward Nat Nat)).taken = [⟨(7, 0), ⟨1, 12⟩, 12⟩] := by
  refine ⟨arms_of_run ⟨fun _ => ?_, fun _ => ?_, fun _ => ?_, trivial, trivial, fun _ => ?_, trivial, trivial,
    trivial⟩, by decide +kernel⟩
  all_goals
    intro cb hcb
    cases hcb

def overtake : List (Event Nat Nat) := [.updateTimer 5 7 0 10, .update 10, .updateTimer 10 7 0 20, .callback 0]

theorem taken_early : ¬ Steps.Along step (fun w e => (w.step e).Kept) (new : Ward Nat Nat) overtake := by
  rintro ⟨-, -, -, h, -⟩
  have hdue := h.due ⟨(7, 0), ⟨1, 20⟩, 10⟩ (by decide +kernel)
  exact absurd hdue (by decide)

end Ward
end TimerMgr
end Sncpp
