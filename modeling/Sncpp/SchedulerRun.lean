import Sncpp.Scheduler
/-!
# SchedulerRun — what becomes of every timer

The calls give each timer a deadline while it is to be started.
-/
namespace Sncpp
namespace Scheduler

variable {α : Type}

/-- A start by a tick, with the deadline then, and the last start if the timer was not moved to an earlier moment since. -/
structure Start where
  time : Int
  due : Option Int
  since : Option Int
deriving DecidableEq

/-- A timer of one start, or of one `every` so many seconds; `due` is its deadline while it waits. -/
structure Life where
  every : Option Int
  due : Option Int
  since : Option Int
  starts : List Start
deriving DecidableEq

namespace Life

def unmade : Life := ⟨none, none, none, []⟩

def made (every : Option Int) (due : Int) : Life := ⟨every, some due, none, []⟩

def reset (newEndtime : Int) (l : Life) : Life :=
  match l.due with
  | none => l
  | some _ => { l with due := some newEndtime, since := none }

def speedup (second : Int) (l : Life) : Life :=
  match l.due with
  | none => l
  | some d => { l with due := some (d - second), since := none }

def delay (second : Int) (l : Life) : Life :=
  match l.due with
  | none => l
  | some d => { l with due := some (d + second) }

def ended (l : Life) : Life := { l with due := none }

def start (now : Int) (l : Life) : Life :=
  { l with
    due := match l.every with
      | none => none
      | some n => if n = 1 then l.due else some (now + n)
    since := some now
    starts := l.starts ++ [⟨now, l.due, l.since⟩] }

end Life

/-- The scheduler, the lives of its timers, those whose callbacks `dispatchRightNow` is running, and the last tick. -/
structure Watch (α : Type) where
  sch : Scheduler α
  life : Nat → Life
  calling : List Nat
  last : Option Int

inductive Call (α : Type) where
  | schedule (now : Int) (func : α) (endtime : Int) (repeats : Bool)
  | repeatSchedule (now : Int) (func : α) (interval : Int)
  | reset (ID : Nat) (newEndtime : Int)
  | speedup (ID : Nat) (second : Int)
  | delay (ID : Nat) (second : Int)
  | stop (ID : Nat)
  | dispatchRightNow (ID : Nat)
  | dispatched (ID : Nat)
  | clear
  | update (now : Int)

namespace Watch

def new : Watch α := ⟨ctor, fun _ => .unmade, [], none⟩

def setLife (id : Nat) (f : Life → Life) (w : Watch α) :
    Watch α := { w with life := Function.update w.life id (f (w.life id)) }

def step (w : Watch α) : Call α → Watch α
  | .schedule now func endtime repeats =>
    match w.sch.schedule now func endtime repeats with
    | none => w
    | some (sch, id) =>
      ({ w with sch := sch }).setLife id (fun _ => .made (if repeats then some (endtime - now) else none) endtime)
  | .repeatSchedule now func interval =>
    match w.sch.repeatSchedule now func interval with
    | none => w
    | some (sch, id) => ({ w with sch := sch }).setLife id (fun _ => .made (some interval) (now + interval))
  | .reset id newEndtime => ({ w with sch := (w.sch.reset id newEndtime).1 }).setLife id (Life.reset newEndtime)
  | .speedup id second =>
    if (w.sch.speedup id second).2 then
      ({ w with sch := (w.sch.speedup id second).1 }).setLife id (Life.speedup second) else w
  | .delay id second =>
    if (w.sch.delay id second).2 then ({ w with sch := (w.sch.delay id second).1 }).setLife id (Life.delay second) else w
  | .stop id => if (w.sch.stop id).2 then ({ w with sch := (w.sch.stop id).1 }).setLife id Life.ended else w
  | .dispatchRightNow id =>
    match w.sch.dispatchRightNow id with
    | none => w
    | some (sch, _) => ({ w with sch := sch, calling := id :: w.calling }).setLife id Life.ended
  | .dispatched id => if id ∈ w.calling then { w with sch := w.sch.dispatched id, calling := w.calling.erase id } else w
  | .clear => { w with sch := w.sch.clear, life := fun id => (w.life id).ended }
  | .update now =>
    let r := w.sch.update now
    { w with
      sch := r.1
      life := (r.2.map Prod.fst).foldl (fun life id => Function.update life id ((life id).start now)) w.life
      last := some now }

/-- The deadline of a timer is set only while it waits, and the ticks come at later and later seconds. -/
def Meant (w : Watch α) : Call α → Prop
  | .reset id _ => (w.life id).due ≠ none
  | .update now => ∀ t, w.last = some t → t < now
  | _ => True

end Watch

/-- The start comes after the deadline, and at an interval from the last start. -/
def Start.Timely (st : Start) (every : Option Int) : Prop :=
  ∃ d, st.due = some d ∧ d ≤ st.time ∧ ∀ n t, every = some n → st.since = some t → t + n ≤ st.time

structure Sight (α : Type) where
  item : Option (Item α)
  score : Option Int
  life : Life
  calling : Prop

def Watch.sight (w : Watch α) (id : Nat) : Sight α := ⟨w.sch.list id, w.sch.zset.score id, w.life id, id ∈ w.calling⟩

/-- What holds of a timer after the tick `last`. -/
structure Sight.Good (v : Sight α) (last : Option Int) : Prop where
  score : v.score = v.life.due
  item : ∀ d, v.life.due = some d → ∃ item, v.item = some item ∧ v.life.every = if item.repeats then
    some item.interval else none
  held : v.item ≠ none → v.life.due = none → v.calling
  calling : v.calling → v.life.due = none
  pos : ∀ n, v.life.every = some n → 0 < n
  apart : ∀ t n d, v.life.since = some t → v.life.every = some n → v.life.due = some d → n ≠ 1 → t + n ≤ d
  since : ∀ t, v.life.since = some t → ∃ t', last = some t' ∧ t ≤ t'
  timely : ∀ st ∈ v.life.starts, st.Timely v.life.every
  once : v.life.every = none → v.life.starts = [] ∨ v.life.starts.length = 1 ∧ v.life.due = none

namespace Sight.Good

variable {v : Sight α} {last : Option Int}

theorem unmade : (⟨none, none, .unmade, False⟩ : Sight α).Good last where
  score := rfl
  item d h := by cases h
  held h := absurd rfl h
  calling _ := rfl
  pos n h := by cases h
  apart t n d h := by cases h
  since t h := by cases h
  timely st h := by cases h
  once _ := Or.inl rfl

theorem made {item : Item α} {d : Int} (hpos : item.repeats = true → 0 < item.interval) :
    (⟨some item, some d, .made (if item.repeats then some item.interval else none) d, False⟩ : Sight α).Good last where
  score := rfl
  item d h := ⟨item, rfl, rfl⟩
  held _ h := by cases h
  calling h := h.elim
  pos n h := by
    simp only [Life.made] at h
    split at h
    · next hrep =>
      cases h
      exact hpos hrep
    · cases h
  apart t n d h := by cases h
  since t h := by cases h
  timely st h := by cases h
  once _ := Or.inl rfl

theorem reset (h : v.Good last) (hdue : v.life.due ≠ none) (t : Int) :
    Good { v with score := some t, life := v.life.reset t } last := by
  obtain ⟨d, hd⟩ := Option.ne_none_iff_exists'.1 hdue
  have hlife : v.life.reset t = { v.life with due := some t, since := none } := by
    unfold Life.reset
    rw [hd]
  rw [hlife]
  exact {
    score := rfl
    item := fun _ _ => h.item d hd
    held := fun _ hno => by cases hno
    calling := fun hc => by
      rw [h.calling hc] at hd
      cases hd
    pos := h.pos
    apart := fun _ _ _ hs => by cases hs
    since := fun _ hs => by cases hs
    timely := h.timely
    once := fun he => (h.once he).imp_right (fun hone => by
      rw [hone.2] at hd
      cases hd) }

theorem delay (h : v.Good last) {d : Int} (hd : v.life.due = some d) {second : Int} (hpos : 0 < second) :
    Good { v with score := some (d + second), life := v.life.delay second } last := by
  have hlife : v.life.delay second = { v.life with due := some (d + second) } := by
    unfold Life.delay
    rw [hd]
  rw [hlife]
  exact {
    score := rfl
    item := fun _ _ => h.item d hd
    held := fun _ hno => by cases hno
    calling := fun hc => by
      rw [h.calling hc] at hd
      cases hd
    pos := h.pos
    apart := fun t n d' hs he hd' hne => by
      have hle := h.apart t n d hs he hd hne
      obtain rfl := Option.some.inj hd'
      omega
    since := h.since
    timely := h.timely
    once := fun he => (h.once he).imp_right (fun hone => by
      rw [hone.2] at hd
      cases hd) }

theorem ended (h : v.Good last) (item : Option (Item α)) (calling : Prop) (hheld : item ≠ none → calling) :
    Good ⟨item, none, v.life.ended, calling⟩ last where
  score := rfl
  item d hd := by cases hd
  held hitem _ := hheld hitem
  calling _ := rfl
  pos := h.pos
  apart t n d _ _ hd := by cases hd
  since := h.since
  timely := h.timely
  once he := (h.once he).imp_right (fun hone => ⟨hone.1, rfl⟩)

theorem later (h : v.Good last) {now : Int} (hnext : ∀ t, last = some t → t < now) : v.Good (some now) :=
  { h with
    since := fun t hs => by
      obtain ⟨t', hlast, hle⟩ := h.since t hs
      have hlt := hnext t' hlast
      exact ⟨now, rfl, by omega⟩ }

theorem timely_start (h : v.Good last) {now d : Int} (hnext : ∀ t, last = some t → t < now) (hd : v.life.due = some d)
    (hle : d ≤ now) : Start.Timely ⟨now, v.life.due, v.life.since⟩ v.life.every := by
  refine ⟨d, hd, hle, fun n t he hs => ?_⟩
  by_cases hone : n = 1
  · obtain ⟨t', hlast, hlt⟩ := h.since t hs
    have hnow := hnext t' hlast
    show t + n ≤ now
    omega
  · exact (h.apart t n d hs he hd hone).trans hle

theorem start (h : v.Good last) {now : Int} (hnext : ∀ t, last = some t → t < now)
    (hdue : (⟨v.item, v.score⟩ : Entry α).Due now) :
    Good ⟨((⟨v.item, v.score⟩ : Entry α).fire now).item, ((⟨v.item, v.score⟩ : Entry α).fire now).score,
      v.life.start now, v.calling⟩
      (some now) := by
  obtain ⟨d, hscore, -, hle⟩ := hdue
  simp only at hscore
  have hd : v.life.due = some d := h.score.symm.trans hscore
  obtain ⟨item, hitem, hevery⟩ := h.item d hd
  have hcalling : ¬ v.calling := fun hc => by
    rw [h.calling hc] at hd
    cases hd
  have htimely : ∀ st ∈ (v.life.start now).starts, st.Timely v.life.every := by
    intro st hst
    rcases List.mem_append.1 hst with hst | hst
    · exact h.timely st hst
    · rw [List.mem_singleton.1 hst]
      exact h.timely_start hnext hd hle
  have hsince : ∀ t, some now = some t → ∃ t', some now = some t' ∧ t ≤ t' := fun t ht => ⟨t, ht, Int.le_refl t⟩
  cases hrep : item.repeats with
  | false =>
    have he : v.life.every = none := by rw [hevery, hrep]; rfl
    have hfire : (⟨v.item, v.score⟩ : Entry α).fire now = ⟨none, none⟩ := by simp [Entry.fire, hitem, hrep]
    have hnone : (v.life.start now).due = none := by simp [Life.start, he]
    have hstarts : v.life.starts = [] := (h.once he).resolve_right (fun hone => by
      rw [hone.2] at hd
      cases hd)
    rw [hfire]
    exact {
      score := hnone.symm
      item := fun _ hno => by rw [hnone] at hno; cases hno
      held := fun hno => absurd rfl hno
      calling := fun hc => absurd hc hcalling
      pos := h.pos
      apart := fun _ _ _ _ _ hno => by rw [hnone] at hno; cases hno
      since := hsince
      timely := htimely
      once := fun _ => Or.inr ⟨by simp [Life.start, hstarts], hnone⟩ }
  | true =>
    have he : v.life.every = some item.interval := by rw [hevery, hrep]; rfl
    -- what is in the tables is the next deadline
    have hfire : (⟨v.item, v.score⟩ : Entry α).fire now = ⟨some item, (v.life.start now).due⟩ := by
      by_cases hone : item.interval = 1 <;> simp [Entry.fire, Life.start, hitem, hrep, he, hone, hscore, hd]
    have hsome : (v.life.start now).due ≠ none := by
      by_cases hone : item.interval = 1 <;> simp [Life.start, he, hone, hd]
    rw [hfire]
    exact {
      score := rfl
      item := fun _ _ => ⟨item, rfl, by rw [hrep]; exact he⟩
      held := fun _ hno => absurd hno hsome
      calling := fun hc => absurd hc hcalling
      pos := h.pos
      apart := fun t n d' hs hn hd' hone => by
        obtain rfl : item.interval = n := Option.some.inj (he.symm.trans hn)
        obtain rfl := Option.some.inj hs
        simp only [Life.start, he, if_neg hone, Option.some.injEq] at hd'
        exact Int.le_of_eq hd'
      since := hsince
      timely := htimely
      once := fun hno => by rw [show (v.life.start now).every = some item.interval from he] at hno; cases hno }

end Sight.Good
namespace Watch

/-- What holds of the scheduler: every timer is good, and there is nothing of those that are not made. -/
structure Good (w : Watch α) : Prop where
  sight : ∀ id, (w.sight id).Good w.last
  fresh : ∀ id, w.sch.ID ≤ id → w.sight id = ⟨none, none, .unmade, False⟩

variable {w w' : Watch α}

theorem good_new : (new : Watch α).Good := by
  have hsight : ∀ id, (new : Watch α).sight id = ⟨none, none, .unmade, False⟩ := by
    intro id
    simp [Watch.sight, new, ctor]
  refine ⟨fun id => ?_, fun id _ => hsight id⟩
  rw [hsight]
  exact Sight.Good.unmade

theorem Good.change (h : w.Good) (id : Nat) (hid : id < w.sch.ID) (hself : (w'.sight id).Good w.last)
    (hother : ∀ id', id' ≠ id → w'.sight id' = w.sight id') (hID : w'.sch.ID = w.sch.ID) (hlast : w'.last =
      w.last) : w'.Good := by
  refine ⟨fun id' => ?_, fun id' hle => ?_⟩
  · rw [hlast]
    by_cases heq : id' = id
    · subst heq
      exact hself
    · rw [hother id' heq]
      exact h.sight id'
  · rw [hID] at hle
    rw [hother id' (Nat.ne_of_gt (Nat.lt_of_lt_of_le hid hle))]
    exact h.fresh id' hle

theorem Good.made (h : w.Good) {id : Nat} (hne : w.sight id ≠ ⟨none, none, .unmade, False⟩) : id < w.sch.ID :=
  Nat.lt_of_not_le (fun hle => hne (h.fresh id hle))

theorem Good.lt_of_list (h : w.Good) {id : Nat} {item : Item α} (hitem : w.sch.list id = some item) : id < w.sch.ID :=
  h.made (fun heq => by
    have hnone : w.sch.list id = none := congrArg Sight.item heq
    rw [hnone] at hitem
    cases hitem)

theorem Good.lt_of_due (h : w.Good) {id : Nat} (hdue : (w.life id).due ≠ none) : id < w.sch.ID :=
  h.made (fun heq => by
    have hlife : w.life id = .unmade := congrArg Sight.life heq
    rw [hlife] at hdue
    exact hdue rfl)

theorem Good.due (h : w.Good) {id : Nat} {d : Int} (hscore : w.sch.zset.score id = some d) : (w.life id).due = some d :=
  (h.sight id).score.symm.trans hscore

def add (w : Watch α) (item : Item α) (d : Int) : Watch α :=
  ({ w with sch := ⟨Function.update w.sch.list w.sch.ID (some item), w.sch.zset.add d w.sch.ID, w.sch.ID + 1⟩ } : Watch
    α).setLife
    w.sch.ID (fun _ => .made (if item.repeats then some item.interval else none) d)

theorem step_schedule (w : Watch α) (now : Int) (func : α) (endtime : Int) (repeats : Bool) :
    w.step (.schedule now func endtime repeats) =
      if repeats = true ∧ ¬ 0 < endtime - now then w else w.add ⟨func, repeats, endtime - now⟩ endtime := by
  by_cases hpos : repeats = true ∧ ¬ 0 < endtime - now
  · simp only [step, Scheduler.schedule, if_pos hpos]
  · simp only [step, Scheduler.schedule, if_neg hpos]
    rfl

theorem step_repeatSchedule (w : Watch α) (now : Int) (func : α) (interval : Int) :
    w.step (.repeatSchedule now func interval) = if 0 < interval then w.add ⟨func, true, interval⟩ (now + interval) else
      w := by
  by_cases hpos : 0 < interval
  · simp only [step, Scheduler.repeatSchedule, if_pos hpos]
    rfl
  · simp only [step, Scheduler.repeatSchedule, if_neg hpos]

theorem Good.add (h : w.Good) (item : Item α) (d : Int) (hpos : item.repeats = true → 0 < item.interval) :
    (w.add item d).Good := by
  unfold Watch.add
  have hfresh := h.fresh w.sch.ID (Nat.le_refl _)
  have hcalling : (w.sch.ID ∈ w.calling) = False := congrArg Sight.calling hfresh
  refine ⟨fun id => ?_, fun id hle => ?_⟩
  · by_cases hid : id = w.sch.ID
    · subst hid
      simp only [Watch.sight, setLife, Function.update_self, Zset.score_add, if_true, hcalling]
      exact Sight.Good.made hpos
    · simp only [Watch.sight, setLife, Function.update_of_ne hid, Zset.score_add, if_neg hid]
      exact h.sight id
  · have hle' : w.sch.ID + 1 ≤ id := hle
    have hne : id ≠ w.sch.ID := by omega
    simp only [Watch.sight, setLife, Function.update_of_ne hne, Zset.score_add, if_neg hne]
    exact h.fresh id (by omega)

theorem Good.reset (h : w.Good) {id : Nat} (hdue : (w.life id).due ≠ none) (t : Int) : (w.step (.reset id t)).Good := by
  have hsch : ∀ id', (w.sch.reset id t).1.zset.score id' = if id' = id then some t else w.sch.zset.score id' := by
    intro id'
    unfold Scheduler.reset
    split
    · exact Zset.score_add _ _ _ _
    · next heq =>
      rw [not_not] at heq
      split
      · next hid => rw [hid, heq]
      · rfl
  have hlist : (w.sch.reset id t).1.list = w.sch.list ∧ (w.sch.reset id t).1.ID = w.sch.ID := by
    unfold Scheduler.reset
    split <;> exact ⟨rfl, rfl⟩
  refine h.change id (h.lt_of_due hdue) ?_ (fun id' hne => ?_) hlist.2 rfl
  · simp only [step, Watch.sight, setLife, hsch, hlist.1, if_true, Function.update_self]
    exact (h.sight id).reset hdue t
  · simp only [step, Watch.sight, setLife, hsch, hlist.1, if_neg hne, Function.update_of_ne hne]

theorem Good.move (h : w.Good) {id : Nat} {d d' : Int} (hd : (w.life id).due = some d) {f : Life → Life}
    (hself : Sight.Good { w.sight id with score := some d', life := f (w.life id) } w.last) :
    (({ w with sch := { w.sch with zset := w.sch.zset.add d' id } } : Watch α).setLife id f).Good := by
  refine h.change id (h.lt_of_due (fun hno => by rw [hno] at hd; cases hd)) ?_ (fun id' hne => ?_) rfl rfl
  · simp only [Watch.sight, setLife, Zset.score_add, if_true, Function.update_self]
    exact hself
  · simp only [Watch.sight, setLife, Zset.score_add, if_neg hne, Function.update_of_ne hne]

theorem Good.speedup (h : w.Good) (id : Nat) (second : Int) : (w.step (.speedup id second)).Good := by
  simp only [step, Scheduler.speedup]
  split
  · cases hscore : w.sch.zset.score id with
    | none => exact h
    | some d =>
      have hd := h.due hscore
      have hlife : (w.life id).speedup second = (w.life id).reset (d - second) := by
        unfold Life.speedup Life.reset
        rw [hd]
      refine h.move hd ?_
      rw [hlife]
      exact (h.sight id).reset (fun hno => by rw [show (w.sight id).life.due = some d from hd] at hno; cases hno) _
  · exact h

theorem Good.delay (h : w.Good) (id : Nat) (second : Int) : (w.step (.delay id second)).Good := by
  simp only [step, Scheduler.delay]
  split
  · next hpos =>
    cases hscore : w.sch.zset.score id with
    | none => exact h
    | some d => exact h.move (h.due hscore) ((h.sight id).delay (h.due hscore) hpos)
  · exact h

theorem Good.stop (h : w.Good) (id : Nat) : (w.step (.stop id)).Good := by
  cases hitem : w.sch.list id with
  | none =>
    have hstep : w.step (.stop id) = w := by simp [step, Scheduler.stop, hitem]
    rw [hstep]
    exact h
  | some item =>
    have hstep : w.step (.stop id) = ({ w with sch := { w.sch with
        list := Function.update w.sch.list id none, zset := w.sch.zset.rem id } } : Watch α).setLife id Life.ended := by
      simp [step, Scheduler.stop, hitem]
    rw [hstep]
    refine h.change id (h.lt_of_list hitem) ?_ (fun id' hne => ?_) rfl rfl
    · simp only [Watch.sight, setLife, if_true, Function.update_self, Zset.score_rem]
      exact (h.sight id).ended none _ (fun hno => absurd rfl hno)
    · simp only [Watch.sight, setLife, Function.update_of_ne hne, Zset.score_rem, if_neg hne]

theorem Good.dispatchRightNow (h : w.Good) (id : Nat) : (w.step (.dispatchRightNow id)).Good := by
  simp only [step, Scheduler.dispatchRightNow]
  cases hitem : w.sch.list id with
  | none => exact h
  | some item =>
    refine h.change id (h.lt_of_list hitem) ?_ (fun id' hne => ?_) rfl rfl
    · simp only [Watch.sight, setLife, Function.update_self, Zset.score_rem, if_true]
      exact (h.sight id).ended _ _ (fun _ => List.mem_cons_self)
    · simp only [Watch.sight, setLife, Function.update_of_ne hne, Zset.score_rem, List.mem_cons, hne, if_false, false_or]

theorem Good.dispatched (h : w.Good) (id : Nat) : (w.step (.dispatched id)).Good := by
  simp only [step, Scheduler.dispatched]
  split
  · next hcalling =>
    have hgood := h.sight id
    have hdue : (w.life id).due = none := hgood.calling hcalling
    have hlife : w.life id = (w.life id).ended := by
      unfold Life.ended
      rw [← hdue]
    refine h.change id (h.made (fun heq => ?_)) ?_ (fun id' hne => ?_) rfl rfl
    · have hno : (id ∈ w.calling) = False := congrArg Sight.calling heq
      exact hno.mp hcalling
    · have hscore : w.sch.zset.score id = none := hgood.score.trans hdue
      have hended := hgood.ended none (id ∈ w.calling.erase id) (fun hno => absurd rfl hno)
      simp only [Watch.sight, Function.update_self, hscore]
      rwa [hlife]
    · simp only [Watch.sight, Function.update_of_ne hne, List.mem_erase_of_ne hne]
  · exact h

theorem Good.clear (h : w.Good) : (w.step .clear).Good := by
  refine ⟨fun id => (h.sight id).ended none _ (fun hno => absurd rfl hno), fun id hle => ?_⟩
  have hfresh := h.fresh id hle
  have hlife : w.life id = .unmade := congrArg Sight.life hfresh
  have hcalling : (id ∈ w.calling) = False := congrArg Sight.calling hfresh
  simp only [step, Scheduler.clear, Watch.sight, hlife, hcalling]
  rfl

theorem update_life (h : w.Good) (now : Int) (id : Nat) : (w.step (.update now)).life id =
    if ∃ d, (w.life id).due = some d ∧ 0 ≤ d ∧ d ≤ now then (w.life id).start now else w.life id := by
  show ((w.sch.update now).2.map Prod.fst).foldl (fun life id =>
    Function.update life id ((life id).start now)) w.life id = _
  rw [Steps.foldl_update _ _ _ _ (nodup_forks w.sch)]
  refine if_congr ?_ rfl rfl
  rw [List.mem_map]
  have hgood := h.sight id
  constructor
  · rintro ⟨⟨a, f⟩, hmem, rfl⟩
    obtain ⟨d, hscore, hle⟩ := (mem_forks.1 hmem).1
    exact ⟨d, h.due hscore, hle⟩
  · rintro ⟨d, hd, hle⟩
    obtain ⟨item, hitem, -⟩ := hgood.item d hd
    exact ⟨(id, item.func), mem_forks.2 ⟨⟨d, hgood.score.trans hd, hle⟩, item, hitem, rfl⟩, rfl⟩

theorem Good.update (h : w.Good) {now : Int} (hnext : ∀ t, w.last = some t → t < now) : (w.step (.update now)).Good := by
  have hlife := update_life h now
  have hentry : ∀ id, w.sch.entry id = ⟨(w.sight id).item, (w.sight id).score⟩ := fun _ => rfl
  have hdue : ∀ id, (w.sch.entry id).Due now ↔ ∃ d, (w.life id).due = some d ∧ 0 ≤ d ∧ d ≤ now := by
    intro id
    unfold Entry.Due entry
    rw [show w.sch.zset.score id = (w.life id).due from (h.sight id).score]
  refine ⟨fun id => ?_, fun id hle => ?_⟩
  · by_cases hd : (w.sch.entry id).Due now
    · have hself := (h.sight id).start hnext hd
      rw [← hentry, ← update_of_due hd] at hself
      have hl := hlife id
      rw [if_pos ((hdue id).1 hd)] at hl
      show Sight.Good ⟨_, _, (w.step (.update now)).life id, _⟩ (some now)
      rw [hl]
      exact hself
    · have hself := (h.sight id).later hnext
      have he := update_of_not_due hd
      have hl := hlife id
      rw [if_neg (fun hno => hd ((hdue id).2 hno))] at hl
      show Sight.Good ⟨((w.sch.update now).1.entry id).item, ((w.sch.update now).1.entry id).score,
        (w.step (.update now)).life id, _⟩ (some now)
      rw [hl, he]
      exact hself
  · rw [show (w.step (.update now)).sch.ID = w.sch.ID from update_ID w.sch] at hle
    have hfresh := h.fresh id hle
    have hunmade : w.life id = .unmade := congrArg Sight.life hfresh
    have hno : ¬ ∃ d, (w.life id).due = some d ∧ 0 ≤ d ∧ d ≤ now := by
      rintro ⟨d, hd, -⟩
      rw [hunmade] at hd
      cases hd
    have he := update_of_not_due (fun hd => hno ((hdue id).1 hd))
    have hl := hlife id
    rw [if_neg hno] at hl
    show (⟨((w.sch.update now).1.entry id).item, ((w.sch.update now).1.entry id).score,
      (w.step (.update now)).life id, _⟩ : Sight α) = _
    rw [hl, he]
    exact hfresh

theorem Good.step (h : w.Good) : ∀ c : Call α, w.Meant c → (w.step c).Good
  | .schedule now func endtime repeats, _ => by
    rw [step_schedule]
    split
    · exact h
    · next hpos => exact h.add ⟨func, repeats, endtime - now⟩ endtime (fun hrep => not_not.1 (fun hno => hpos ⟨hrep, hno⟩))
  | .repeatSchedule now func interval, _ => by
    rw [step_repeatSchedule]
    split
    · next hpos => exact h.add ⟨func, true, interval⟩ (now + interval) (fun _ => hpos)
    · exact h
  | .reset _ t, hdue => h.reset hdue t
  | .speedup id second, _ => h.speedup id second
  | .delay id second, _ => h.delay id second
  | .stop id, _ => h.stop id
  | .dispatchRightNow id, _ => h.dispatchRightNow id
  | .dispatched id, _ => h.dispatched id
  | .clear, _ => h.clear
  | .update _, hnext => h.update hnext

/-- **The tables have the timers that wait**, with their deadlines, apart from those that are being dispatched; a timer is
started after its deadline, at an interval from the last start if it repeats, and once if it does not. -/
structure Kept (w : Watch α) : Prop where
  tables : ∀ id, w.sch.zset.score id ≠ none ↔ w.sch.list id ≠ none ∧ id ∉ w.calling
  deadline : ∀ id, w.sch.zset.score id = (w.life id).due
  timely : ∀ id, ∀ st ∈ (w.life id).starts, st.Timely (w.life id).every
  once : ∀ id, (w.life id).every = none → (w.life id).starts = [] ∨ (w.life id).starts.length = 1 ∧ (w.life id).due = none

theorem Good.kept (h : w.Good) : w.Kept where
  tables id := by
    have hgood := h.sight id
    rw [show w.sch.zset.score id = (w.life id).due from hgood.score]
    constructor
    · intro hdue
      obtain ⟨d, hd⟩ := Option.ne_none_iff_exists'.1 hdue
      obtain ⟨item, hitem, -⟩ := hgood.item d hd
      have hlist : w.sch.list id = some item := hitem
      exact ⟨by rw [hlist]; exact Option.some_ne_none item, fun hc => hdue (hgood.calling hc)⟩
    · exact fun hlist hdue => hlist.2 (hgood.held hlist.1 hdue)
  deadline id := (h.sight id).score
  timely id := (h.sight id).timely
  once id := (h.sight id).once

/-- **A tick starts each timer whose deadline has come**, once; nothing else starts one. -/
def Ticks (w : Watch α) : Call α → Prop
  | .update now => ∀ id,
    ((∃ d, (w.life id).due = some d ∧ 0 ≤ d ∧ d ≤ now) →
      ((w.step (.update now)).life id).starts = (w.life id).starts ++ [⟨now, (w.life id).due, (w.life id).since⟩]) ∧
    (¬ (∃ d, (w.life id).due = some d ∧ 0 ≤ d ∧ d ≤ now) → ((w.step (.update now)).life id).starts = (w.life id).starts)
  | c => ∀ id, ((w.step c).life id).starts = (w.life id).starts

theorem setLife_starts (w : Watch α) (id : Nat) {f : Life → Life} (hf : (f (w.life id)).starts = (w.life id).starts)
    (id' : Nat) :
    ((w.setLife id f).life id').starts = (w.life id').starts := by
  unfold setLife
  by_cases hid : id' = id
  · subst hid
    simp only [Function.update_self]
    exact hf
  · simp only [Function.update_of_ne hid]

theorem Good.starts_ID (h : w.Good) : (w.life w.sch.ID).starts = [] := by
  have hlife : w.life w.sch.ID = .unmade := congrArg Sight.life (h.fresh w.sch.ID (Nat.le_refl _))
  rw [hlife]
  rfl

theorem Good.ticks (h : w.Good) : ∀ c : Call α, w.Ticks c
  | .update now => fun id => by
    rw [update_life h]
    exact ⟨fun hdue => by rw [if_pos hdue]; rfl, fun hdue => by rw [if_neg hdue]⟩
  | .schedule now func endtime repeats => fun id => by
    rw [step_schedule]
    split
    · rfl
    · exact setLife_starts _ _ h.starts_ID.symm id
  | .repeatSchedule now func interval => fun id => by
    rw [step_repeatSchedule]
    split
    · exact setLife_starts _ _ h.starts_ID.symm id
    · rfl
  | .reset id' t => setLife_starts _ _ (by unfold Life.reset; split <;> rfl)
  | .speedup id' second => fun id => by
    simp only [Watch.step]
    split
    · exact setLife_starts _ _ (by unfold Life.speedup; split <;> rfl) id
    · rfl
  | .delay id' second => fun id => by
    simp only [Watch.step]
    split
    · exact setLife_starts _ _ (by unfold Life.delay; split <;> rfl) id
    · rfl
  | .stop id' => fun id => by
    simp only [Watch.step]
    split
    · exact setLife_starts _ _ rfl id
    · rfl
  | .dispatchRightNow id' => fun id => by
    simp only [Watch.step]
    split
    · rfl
    · exact setLife_starts _ _ rfl id
  | .dispatched id' => fun id => by
    simp only [Watch.step]
    split <;> rfl
  | .clear => fun _ => rfl

/-- **The scheduler keeps its timers in every state of a run.** -/
theorem timers_of_run {cs : List (Call α)} (h : Steps.Along step Meant (new : Watch α) cs) :
    Steps.Along step (fun w c => (w.step c).Kept ∧ w.Ticks c) new cs := by
  refine Steps.Along.keep (I := Good) (fun w c hmeant hgood => ?_) cs new good_new h
  have hstep := hgood.step c hmeant
  exact ⟨hstep, hstep.kept, hgood.ticks c⟩

def shift : List (Call Unit) :=
  [.schedule 10 () 15 false, .repeatSchedule 10 () 3, .update 13, .reset 1 16, .delay 1 1, .update 16, .update 17,
    .stop 2, .update 20]

theorem timers_of_shift : Steps.Along step (fun w c => (w.step c).Kept ∧ w.Ticks c) new shift ∧
    ((shift.foldl step new).life 1).starts = [⟨17, some 17, none⟩] ∧
    ((shift.foldl step new).life 2).starts = [⟨13, some 13, none⟩, ⟨16, some 16, some 13⟩] := by
  refine ⟨timers_of_run ?_, by decide +kernel, by decide +kernel⟩
  refine ⟨trivial, trivial, (fun t ht => by cases ht), ?_, trivial, (fun t ht => ?_), (fun t ht => ?_), trivial,
    (fun t ht => ?_), trivial⟩
  · show ((((new.step (Call.schedule 10 () 15 false)).step (.repeatSchedule 10 () 3)).step (.update 13)).life 1).due ≠ none
    decide +kernel
  all_goals
    obtain rfl := Option.some.inj ht
    decide

theorem starts_near : ¬ ∀ (cs : List (Call Unit)) (n : Int), ((cs.foldl step new).life 1).every = some n →
    (((cs.foldl step new).life 1).starts.map Start.time).Pairwise (fun t t' => t + n ≤ t') := by
  intro h
  have hpair := h [.repeatSchedule 10 () 3, .update 13, .reset 1 14, .update 14] 3 (by decide +kernel)
  exact absurd hpair (by decide +kernel)

end Watch
end Scheduler
end Sncpp
