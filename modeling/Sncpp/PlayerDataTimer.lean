import Mathlib.Data.List.Perm.Basic
import Sncpp.Scheduler
/-!
# PlayerDataTimer — the periodic tasks of the data centre (`playerDataTimer:init`, `stop`, `addQueue`, `onDeal*`)

A periodic task has a timer; its callback takes the timer out of `queue`, goes through the task and sets the next
timer.  The scheduler forgets a timer at a tick, before its callback begins, and `queue` does when it begins; an early
dispatch takes it out of the scheduler's deadlines, runs the callback and only then forgets it.
-/
namespace Sncpp
namespace PlayerDataTimer

/-- The timers that `init` sets; the two of the reconnects are never set. -/
inductive Qtype where
  | tDealRedisTask
  | tDealDbTask
  | tClearCache
  | tClearRedis
deriving DecidableEq

namespace Qtype

def all : List Qtype := [tDealRedisTask, tDealDbTask, tClearCache, tClearRedis]

def tasks : Qtype → Nat
  | tClearCache => 2
  | tDealRedisTask | tDealDbTask | tClearRedis => 1

end Qtype

/-- A callback that is running: the tasks that come after the one it is in, and the timer if it was dispatched early. -/
structure Run where
  qtype : Qtype
  left : Nat
  early : Option Nat
deriving DecidableEq

structure World where
  sch : Scheduler Qtype
  /-- The ids of the timers. -/
  queue : Qtype → Option Nat
  dealTaskInv : Nat
  clearCacheInv : Nat
  clearRedisInv : Nat
  /-- The callbacks that ticks have forked. -/
  forked : List Qtype
  runs : List Run
  /-- The calls of `stop` that are at their reconnects, and the dispatches that they forked. -/
  stops : Nat
  dispatches : List Qtype
  /-- Whether `addQueue` came to its removal branch. -/
  removed : Bool
  /-- The runs that have begun. -/
  begun : List Qtype

/-- `n` is the place of a forked callback, a run or a dispatch; a task may raise when it ends, and so may the reconnects. -/
inductive Event where
  | update (now : Nat)
  | callback (n : Nat)
  | task (n : Nat) (raised : Bool) (now : Nat)
  | stop
  | reconnected (raised : Bool)
  | dispatch (n : Nat)

namespace World

variable (w : World)

def ctor (debug : Bool) : World where
  sch := .ctor
  queue _ := none
  dealTaskInv := if debug then 20 else 60
  clearCacheInv := if debug then 13 * 60 else 33 * 60
  clearRedisInv := if debug then 3600 else 86400
  forked := []
  runs := []
  stops := 0
  dispatches := []
  removed := false
  begun := []

def inv : Qtype → Nat
  | .tDealRedisTask | .tDealDbTask => w.dealTaskInv
  | .tClearCache => w.clearCacheInv
  | .tClearRedis => w.clearRedisInv

/-- The removal branch raises, as there is no `cancelTimer`. -/
def addQueue (q : Qtype) (now endTime : Nat) : World :=
  match w.queue q with
  | some _ => { w with removed := true }
  | none =>
    match w.sch.schedule now q endTime false with
    | some (sch, timerId) => { w with sch := sch, queue := Function.update w.queue q (some timerId) }
    | none => w

def init (debug : Bool) (now : Nat) : World := Qtype.all.foldl (fun w q => w.addQueue q now (now + w.inv q)) (ctor debug)

def dispatchQueueEvent (q : Qtype) (early : Option Nat) : World :=
  { w with
    queue := Function.update w.queue q none
    runs := w.runs ++ [⟨q, q.tasks - 1, early⟩]
    begun := q :: w.begun }

def finish (r : Run) (now : Nat) : World :=
  let w' := w.addQueue r.qtype now (now + w.inv r.qtype)
  match r.early with
  | some timerId => { w' with sch := w'.sch.dispatched timerId }
  | none => w'

def step : Event → World
  | .update now => { w with sch := (w.sch.update now).1, forked := w.forked ++ (w.sch.update now).2.map Prod.snd }
  | .callback n =>
    match w.forked[n]? with
    | some q => { w with forked := w.forked.eraseIdx n }.dispatchQueueEvent q none
    | none => w
  | .task n _ now =>
    -- a callback goes on whether its task raises or not
    match w.runs[n]? with
    | some r =>
      if 0 < r.left then { w with runs := w.runs.set n { r with left := r.left - 1 } }
      else { w with runs := w.runs.eraseIdx n }.finish r now
    | none => w
  | .stop => { w with dealTaskInv := 1, stops := w.stops + 1 }
  | .reconnected raised =>
    if w.stops = 0 then w
    else { w with
      stops := w.stops - 1
      dispatches := if raised then w.dispatches else w.dispatches ++ [.tDealRedisTask, .tDealDbTask] }
  | .dispatch n =>
    match w.dispatches[n]? with
    | some q =>
      let w' := { w with dispatches := w.dispatches.eraseIdx n }
      match w.queue q with
      | some timerId =>
        match w.sch.dispatchRightNow timerId with
        | some (sch, func) => { w' with sch := sch }.dispatchQueueEvent func (some timerId)
        | none => w'
      | none => w'
    | none => w

def Timer (q : Qtype) (id : Nat) : Prop := w.sch.zset.score id ≠ none ∧ ∃ item, w.sch.list id = some item ∧ item.func = q

def running (q : Qtype) : Nat := (w.runs.map Run.qtype).count q

/-- **One of these is there**: one timer, a callback that has not begun, or one that is running. -/
def One (q : Qtype) : Prop :=
  ((∃! id, w.Timer q id) ∧ w.forked.count q = 0 ∧ w.running q = 0) ∨
    ((∀ id, ¬w.Timer q id) ∧ w.forked.count q = 1 ∧ w.running q = 0) ∨
      ((∀ id, ¬w.Timer q id) ∧ w.forked.count q = 0 ∧ w.running q = 1)

inductive Phase (q : Qtype) : Prop where
  | timer (id : Nat) (queue : w.queue q = some id) (func : ∃ item, w.sch.list id = some item ∧ item.func = q)
      (score : w.sch.zset.score id ≠ none) (forked : w.forked.count q = 0) (running : w.running q = 0)
  | forked (id : Nat) (queue : w.queue q = some id) (list : w.sch.list id = none)
      (forked : w.forked.count q = 1) (running : w.running q = 0)
  | running (queue : w.queue q = none) (forked : w.forked.count q = 0) (running : w.running q = 1)

/-- A timer that has a deadline is the one that `queue` has of its task, and one that was dispatched early has none. -/
structure Sound : Prop where
  fresh : ∀ id, w.sch.ID ≤ id → w.sch.list id = none ∧ w.sch.zset.score id = none
  made : ∀ q id, w.queue q = some id → id < w.sch.ID
  timer : ∀ id d, w.sch.zset.score id = some d → 0 ≤ d ∧
    ∃ item, w.sch.list id = some item ∧ item.repeats = false ∧ w.queue item.func = some id
  early : ∀ r ∈ w.runs, ∀ id ∈ r.early, id < w.sch.ID ∧ w.sch.zset.score id = none
  removed : w.removed = false

structure Good : Prop where
  sound : w.Sound
  phase : ∀ q, w.Phase q

variable {w}

theorem Sound.unique (h : w.Sound) {q : Qtype} {id : Nat} (ht : w.Timer q id) : w.queue q = some id := by
  obtain ⟨hscore, item, hitem, rfl⟩ := ht
  obtain ⟨d, hd⟩ := Option.ne_none_iff_exists'.1 hscore
  obtain ⟨-, item', hitem', -, hqueue⟩ := h.timer id d hd
  obtain rfl := Option.some.inj (hitem'.symm.trans hitem)
  exact hqueue

theorem Sound.no_timer (h : w.Sound) {q : Qtype} (hq : ∀ id, w.queue q = some id → w.sch.list id = none) (id : Nat) :
    ¬w.Timer q id := by
  intro ht
  have hlist := hq id (h.unique ht)
  obtain ⟨-, item, hitem, -⟩ := ht
  rw [hlist] at hitem
  cases hitem

theorem Good.one (h : w.Good) (q : Qtype) : w.One q := by
  cases h.phase q with
  | timer id hqueue hfunc hscore hforked hrunning =>
    refine .inl ⟨⟨id, ⟨hscore, hfunc⟩, fun id' ht => ?_⟩, hforked, hrunning⟩
    exact Option.some.inj ((h.sound.unique ht).symm.trans hqueue)
  | forked id hqueue hlist hforked hrunning =>
    refine .inr (.inl ⟨h.sound.no_timer (fun id' hid' => ?_), hforked, hrunning⟩)
    obtain rfl := Option.some.inj (hqueue.symm.trans hid')
    exact hlist
  | running hqueue hforked hrunning =>
    refine .inr (.inr ⟨h.sound.no_timer (fun id' hid' => ?_), hforked, hrunning⟩)
    rw [hqueue] at hid'
    cases hid'

theorem Phase.of_eq {w' : World} {q : Qtype} (h : w.Phase q) (hqueue : w'.queue q = w.queue q)
    (hlist : ∀ id, w.queue q = some id → w'.sch.list id = w.sch.list id)
    (hscore : ∀ id, w.queue q = some id → w.sch.list id ≠ none → w'.sch.zset.score id = w.sch.zset.score id)
    (hforked : w'.forked.count q = w.forked.count q) (hrunning : w'.running q = w.running q) : w'.Phase q := by
  cases h with
  | timer id hq hfunc hs hf hr =>
    have hne : w.sch.list id ≠ none := by
      obtain ⟨item, hitem, -⟩ := hfunc
      rw [hitem]
      exact nofun
    exact .timer id (hqueue.trans hq) (by rw [hlist id hq]; exact hfunc) (by rw [hscore id hq hne]; exact hs)
      (hforked.trans hf)
      (hrunning.trans hr)
  | forked id hq hl hf hr =>
    exact .forked id (hqueue.trans hq) ((hlist id hq).trans hl) (hforked.trans hf) (hrunning.trans hr)
  | running hq hf hr => exact .running (hqueue.trans hq) (hforked.trans hf) (hrunning.trans hr)

theorem addQueue_eq {q : Qtype} (hq : w.queue q = none) (now endTime : Nat) :
    ∃ item : Scheduler.Item Qtype, item.func = q ∧ item.repeats = false ∧ w.addQueue q now endTime = { w with
      sch := ⟨Function.update w.sch.list w.sch.ID (some item), w.sch.zset.add endTime w.sch.ID, w.sch.ID + 1⟩
      queue := Function.update w.queue q (some w.sch.ID) } := by
  refine ⟨⟨q, false, endTime - now⟩, rfl, rfl, ?_⟩
  unfold addQueue
  rw [hq]
  rfl

theorem Sound.addQueue (h : w.Sound) {q : Qtype} (hq : w.queue q = none) (now endTime : Nat) :
    (w.addQueue q now endTime).Sound := by
  obtain ⟨item, hfunc, hrep, heq⟩ := addQueue_eq hq now endTime
  rw [heq]
  refine ⟨fun id hid => ?_, fun q' id hid => ?_, fun id d hd => ?_, fun r hr id hid => ?_, h.removed⟩
  · have hne : id ≠ w.sch.ID := Nat.ne_of_gt hid
    obtain ⟨hlist, hscore⟩ := h.fresh id (Nat.le_of_succ_le hid)
    simp only
    rw [Function.update_of_ne hne, Zset.score_add, if_neg hne]
    exact ⟨hlist, hscore⟩
  · show id < w.sch.ID + 1
    simp only at hid
    by_cases hqq : q' = q
    · rw [hqq, Function.update_self] at hid
      rw [← Option.some.inj hid]
      exact Nat.lt_succ_self _
    · rw [Function.update_of_ne hqq] at hid
      exact Nat.lt_succ_of_lt (h.made q' id hid)
  · simp only at hd ⊢
    rw [Zset.score_add] at hd
    split at hd
    · rename_i hid
      rw [hid]
      refine ⟨by rw [← Option.some.inj hd]; exact Int.natCast_nonneg _, item, Function.update_self .., hrep, ?_⟩
      rw [hfunc]
      exact Function.update_self ..
    · rename_i hid
      obtain ⟨hpos, item', hlist, hrep', hqueue⟩ := h.timer id d hd
      have hne : item'.func ≠ q := fun heq => by
        rw [heq, hq] at hqueue
        cases hqueue
      exact ⟨hpos, item', (Function.update_of_ne hid ..).trans hlist, hrep', (Function.update_of_ne hne ..).trans hqueue⟩
  · obtain ⟨hlt, hscore⟩ := h.early r hr id hid
    refine ⟨Nat.lt_succ_of_lt hlt, ?_⟩
    simp only
    rw [Zset.score_add, if_neg (Nat.ne_of_lt hlt)]
    exact hscore

theorem Sound.phase_addQueue (h : w.Sound) {q : Qtype} (hq : w.queue q = none) (hforked : w.forked.count q = 0)
    (hrunning : w.running q = 0) (now endTime : Nat) {q' : Qtype} (hphase : q' ≠ q → w.Phase q') :
    (w.addQueue q now endTime).Phase q' := by
  obtain ⟨item, hfunc, hrep, heq⟩ := addQueue_eq hq now endTime
  rw [heq]
  by_cases hqq : q' = q
  · subst hqq
    refine .timer w.sch.ID (Function.update_self ..) ⟨item, Function.update_self .., hfunc⟩ ?_ hforked hrunning
    show (w.sch.zset.add (endTime : Int) w.sch.ID).score w.sch.ID ≠ none
    rw [Zset.score_add, if_pos rfl]
    exact nofun
  · have hne : ∀ id, w.queue q' = some id → id ≠ w.sch.ID := fun id hid => Nat.ne_of_lt (h.made q' id hid)
    refine (hphase hqq).of_eq (Function.update_of_ne hqq ..) (fun id hid => Function.update_of_ne (hne id hid) ..)
      (fun id hid _ => ?_) rfl rfl
    exact (Zset.score_add ..).trans (if_neg (hne id hid))

/-! ## A timer that was dispatched early is forgotten -/

theorem Sound.dispatched (h : w.Sound) {timerId : Nat} (hscore : w.sch.zset.score timerId = none) :
    ({ w with sch := w.sch.dispatched timerId } : World).Sound := by
  refine ⟨fun id hid => ⟨?_, (h.fresh id hid).2⟩, h.made, fun id d hd => ?_, h.early, h.removed⟩
  · show Function.update w.sch.list timerId none id = none
    by_cases heq : id = timerId
    · rw [heq, Function.update_self]
    · rw [Function.update_of_ne heq]
      exact (h.fresh id hid).1
  · obtain ⟨hpos, item, hitem, hrep, hqueue⟩ := h.timer id d hd
    have hne : id ≠ timerId := fun heq => by
      rw [heq] at hd
      exact absurd (hscore.symm.trans hd) nofun
    exact ⟨hpos, item, (Function.update_of_ne hne ..).trans hitem, hrep, hqueue⟩

theorem Phase.dispatched {q : Qtype} (h : w.Phase q) {timerId : Nat} (hscore : w.sch.zset.score timerId = none) :
    ({ w with sch := w.sch.dispatched timerId } : World).Phase q := by
  cases h with
  | timer id hqueue hfunc hs hforked hrunning =>
    have hne : id ≠ timerId := fun heq => hs (heq ▸ hscore)
    obtain ⟨item, hitem, hq⟩ := hfunc
    exact .timer id hqueue ⟨item, (Function.update_of_ne hne ..).trans hitem, hq⟩ hs hforked hrunning
  | forked id hqueue hlist hforked hrunning =>
    refine .forked id hqueue ?_ hforked hrunning
    show Function.update w.sch.list timerId none id = none
    by_cases heq : id = timerId
    · rw [heq, Function.update_self]
    · rw [Function.update_of_ne heq]
      exact hlist
  | running hqueue hforked hrunning => exact .running hqueue hforked hrunning

theorem Sound.dispatchQueueEvent (h : w.Sound) {q : Qtype} (hq : ∀ id, ¬w.Timer q id) {early : Option Nat}
    (hearly : ∀ id ∈ early, id < w.sch.ID ∧ w.sch.zset.score id = none) : (w.dispatchQueueEvent q early).Sound := by
  refine ⟨h.fresh, fun q' id hid => ?_, fun id d hd => ?_, fun r hr => ?_, h.removed⟩
  · have hid' : Function.update w.queue q none q' = some id := hid
    by_cases hqq : q' = q
    · rw [hqq, Function.update_self] at hid'
      cases hid'
    · rw [Function.update_of_ne hqq] at hid'
      exact h.made q' id hid'
  · obtain ⟨hpos, item, hitem, hrep, hqueue⟩ := h.timer id d hd
    have hne : item.func ≠ q := fun heq => by
      have hd' : w.sch.zset.score id = some d := hd
      have ht : w.Timer q id := ⟨by rw [hd']; exact nofun, item, hitem, heq⟩
      exact hq id ht
    exact ⟨hpos, item, hitem, hrep, (Function.update_of_ne hne ..).trans hqueue⟩
  · rcases List.mem_append.1 hr with hr | hr
    · exact h.early r hr
    · rw [List.mem_singleton.1 hr]
      exact hearly

theorem running_dispatchQueueEvent (q : Qtype) (early : Option Nat) (q' : Qtype) :
    (w.dispatchQueueEvent q early).running q' = w.running q' + if q' = q then 1 else 0 := by
  show ((w.runs ++ [(⟨q, q.tasks - 1, early⟩ : Run)]).map Run.qtype).count q' = _
  rw [List.map_append, List.count_append]
  congr 1
  show [q].count q' = _
  by_cases hqq : q' = q
  · rw [hqq, if_pos rfl, List.count_singleton_self]
  · rw [if_neg hqq]
    exact List.count_eq_zero.2 (fun hm => hqq (List.mem_singleton.1 hm))

theorem phase_dispatchQueueEvent {q : Qtype} (hforked : w.forked.count q = 0) (hrunning : w.running q = 0)
    (hphase : ∀ q' ≠ q, w.Phase q') (early : Option Nat) (q' : Qtype) : (w.dispatchQueueEvent q early).Phase q' := by
  have hrun := running_dispatchQueueEvent (w := w) q early q'
  by_cases hqq : q' = q
  · subst hqq
    rw [hrunning, if_pos rfl] at hrun
    exact .running (Function.update_self ..) hforked hrun
  · rw [if_neg hqq] at hrun
    exact (hphase q' hqq).of_eq (Function.update_of_ne hqq ..) (fun _ _ => rfl) (fun _ _ _ => rfl) rfl hrun

theorem timer_of_fork {now : Int} {e : Nat × Qtype} (he : e ∈ (w.sch.update now).2) :
    w.Timer e.2 e.1 ∧ (w.sch.entry e.1).Due now := by
  obtain ⟨hdue, item, hitem, hfunc⟩ := Scheduler.mem_forks.1 he
  obtain ⟨d, hd, hle⟩ := hdue
  have hscore : w.sch.zset.score e.1 = some d := hd
  have ht : w.Timer e.2 e.1 := And.intro (by rw [hscore]; exact nofun) ⟨item, hitem, hfunc⟩
  exact ⟨ht, d, hd, hle⟩

theorem count_forks_zero {now : Int} {q : Qtype} (hno : ∀ id, w.Timer q id → ¬(w.sch.entry id).Due now) :
    ((w.sch.update now).2.map Prod.snd).count q = 0 := by
  refine List.count_eq_zero.2 (fun hm => ?_)
  obtain ⟨e, he, rfl⟩ := List.mem_map.1 hm
  exact hno e.1 (timer_of_fork he).1 (timer_of_fork he).2

theorem Sound.count_forks_one (h : w.Sound) {now : Int} {q : Qtype} {id : Nat} (ht : w.Timer q id)
    (hdue : (w.sch.entry id).Due now) :
    ((w.sch.update now).2.map Prod.snd).count q = 1 := by
  have hid := h.unique ht
  obtain ⟨-, item, hitem, hfunc⟩ := ht
  have hm : (id, q) ∈ (w.sch.update now).2 := Scheduler.mem_forks.2 ⟨hdue, item, hitem, hfunc⟩
  have hone : ((w.sch.update now).2).count (id, q) = 1 :=
    List.count_eq_one_of_mem (List.Nodup.of_map _ (Scheduler.nodup_forks w.sch)) hm
  rw [← hone, List.count_eq_countP, List.count_eq_countP, List.countP_map]
  refine List.countP_congr (fun e he => ?_)
  show (e.2 == q) = true ↔ (e == (id, q)) = true
  rw [beq_iff_eq, beq_iff_eq]
  refine ⟨fun heq => ?_, fun heq => by rw [heq]⟩
  have hqueue := h.unique (timer_of_fork he).1
  rw [heq, hid] at hqueue
  exact Prod.ext (Option.some.inj hqueue).symm heq

theorem entry_update {now : Int} {id : Nat} (hdue : ¬(w.sch.entry id).Due now) :
    (w.sch.update now).1.list id = w.sch.list id ∧
    (w.sch.update now).1.zset.score id = w.sch.zset.score id := by
  have hsame := Scheduler.update_of_not_due hdue
  exact ⟨congrArg Scheduler.Entry.item hsame, congrArg Scheduler.Entry.score hsame⟩

theorem Sound.fired (h : w.Sound) {now : Int} {id : Nat} (hdue : (w.sch.entry id).Due now) :
    (w.sch.update now).1.list id = none ∧
    (w.sch.update now).1.zset.score id = none := by
  have hfire := Scheduler.update_of_due hdue
  have hentry : (w.sch.entry id).fire now = ⟨none, none⟩ := by
    obtain ⟨d, hd, -⟩ := hdue
    obtain ⟨-, item, hitem, hrep, -⟩ := h.timer id d hd
    unfold Scheduler.entry Scheduler.Entry.fire
    rw [hitem]
    simp only
    rw [hrep]
    rfl
  rw [hentry] at hfire
  exact ⟨congrArg Scheduler.Entry.item hfire, congrArg Scheduler.Entry.score hfire⟩

theorem not_due_of_score {now : Int} {id : Nat} (hscore : w.sch.zset.score id = none) : ¬(w.sch.entry id).Due now := by
  rintro ⟨d, hd, -⟩
  exact absurd (hscore.symm.trans hd) nofun

theorem Good.update (h : w.Good) (now : Nat) : (w.step (.update now)).Good := by
  have hID : (w.sch.update (now : Int)).1.ID = w.sch.ID := Scheduler.update_ID w.sch
  have hno : ∀ id, w.sch.zset.score id = none → (w.sch.update now).1.list id = w.sch.list id ∧
      (w.sch.update now).1.zset.score id = none := fun id hscore =>
    ⟨(entry_update (not_due_of_score hscore)).1, (entry_update (not_due_of_score hscore)).2.trans hscore⟩
  have hcount : ∀ q, (w.step (.update now)).forked.count q = w.forked.count q +
    ((w.sch.update now).2.map Prod.snd).count q :=
    fun q => List.count_append ..
  refine ⟨⟨fun id hid => ?_, fun q id hid => ?_, fun id d hd => ?_, fun r hr id hid => ?_, h.sound.removed⟩, fun q => ?_⟩
  · have hid' : w.sch.ID ≤ id := by rw [← hID]; exact hid
    obtain ⟨hlist, hscore⟩ := h.sound.fresh id hid'
    exact ⟨(hno id hscore).1.trans hlist, (hno id hscore).2⟩
  · have hlt := h.sound.made q id hid
    rw [← hID] at hlt
    exact hlt
  · by_cases hdue : (w.sch.entry id).Due now
    · exact absurd ((h.sound.fired hdue).2.symm.trans hd) nofun
    · obtain ⟨hlist, hscore⟩ := entry_update hdue
      obtain ⟨hpos, item, hitem, hrep, hqueue⟩ := h.sound.timer id d (hscore.symm.trans hd)
      exact ⟨hpos, item, hlist.trans hitem, hrep, hqueue⟩
  · obtain ⟨hlt, hscore⟩ := h.sound.early r hr id hid
    rw [← hID] at hlt
    exact ⟨hlt, (hno id hscore).2⟩
  · have hq := hcount q
    cases h.phase q with
    | timer id hqueue hfunc hscore hforked hrunning =>
      by_cases hdue : (w.sch.entry id).Due now
      · rw [h.sound.count_forks_one ⟨hscore, hfunc⟩ hdue, hforked] at hq
        exact .forked id hqueue (h.sound.fired hdue).1 hq hrunning
      · rw [count_forks_zero (fun id' ht => ?_), hforked] at hq
        · obtain ⟨hlist, hsame⟩ := entry_update hdue
          refine .timer id hqueue ?_ ?_ hq hrunning
          · show ∃ item, (w.sch.update now).1.list id = some item ∧ item.func = q
            rw [hlist]
            exact hfunc
          · show (w.sch.update now).1.zset.score id ≠ none
            rw [hsame]
            exact hscore
        · obtain rfl := Option.some.inj ((h.sound.unique ht).symm.trans hqueue)
          exact hdue
    | forked id hqueue hlist hforked hrunning =>
      have hno' := h.sound.no_timer (q :=
        q) (fun id' hid' => by rw [← Option.some.inj (hqueue.symm.trans hid')]; exact hlist)
      have hnone : w.sch.zset.score id = none := by
        by_contra hscore
        obtain ⟨d, hd⟩ := Option.ne_none_iff_exists'.1 hscore
        obtain ⟨-, item, hitem, -⟩ := h.sound.timer id d hd
        exact absurd (hlist.symm.trans hitem) nofun
      rw [count_forks_zero (fun id' ht => absurd ht (hno' id')), hforked] at hq
      exact .forked id hqueue ((hno id hnone).1.trans hlist) hq hrunning
    | running hqueue hforked hrunning =>
      have hno' := h.sound.no_timer (q := q) (fun id' hid' => absurd (hqueue.symm.trans hid') nofun)
      rw [count_forks_zero (fun id' ht => absurd ht (hno' id')), hforked] at hq
      exact .running hqueue hq hrunning

theorem count_map_eraseIdx {β : Type} (f : β → Qtype) {l : List β} {n : Nat} {a : β} (hn : l[n]? = some a) (q : Qtype) :
    (l.map f).count q = ((l.eraseIdx n).map f).count q + if f a = q then 1 else 0 := by
  obtain ⟨hlt, rfl⟩ := List.getElem?_eq_some_iff.1 hn
  have hperm : (l.map f).Perm ((l[n] :: l.eraseIdx n).map f) := (List.getElem_cons_eraseIdx_perm hlt).symm.map f
  rw [hperm.count_eq, List.map_cons, List.count_cons]
  simp only [beq_iff_eq]

theorem Good.callback (h : w.Good) (n : Nat) : (w.step (.callback n)).Good := by
  unfold World.step
  simp only
  cases hn : w.forked[n]? with
  | none => exact h
  | some q =>
    have hcount : ∀ q', w.forked.count q' = (w.forked.eraseIdx n).count q' + if q = q' then 1 else 0 := by
      intro q'
      have hmap := count_map_eraseIdx id hn q'
      rw [List.map_id, List.map_id] at hmap
      exact hmap
    have hq := hcount q
    rw [if_pos rfl] at hq
    -- the callback is of a timer that the scheduler has forgotten
    cases h.phase q with
    | timer id hqueue hfunc hscore hforked hrunning => omega
    | running hqueue hforked hrunning => omega
    | forked id hqueue hlist hforked hrunning =>
      have hsound : ({ w with forked := w.forked.eraseIdx n } : World).Sound :=
        ⟨h.sound.fresh, h.sound.made, h.sound.timer, h.sound.early, h.sound.removed⟩
      have hno := h.sound.no_timer (q :=
        q) (fun id' hid' => by rw [← Option.some.inj (hqueue.symm.trans hid')]; exact hlist)
      have hzero : (w.forked.eraseIdx n).count q = 0 := by omega
      refine ⟨hsound.dispatchQueueEvent hno (by rintro _ ⟨⟩),
        phase_dispatchQueueEvent (w := { w with forked := w.forked.eraseIdx n }) hzero hrunning (fun q' hne => ?_) none⟩
      refine (h.phase q').of_eq rfl (fun _ _ => rfl) (fun _ _ _ => rfl) ?_ rfl
      have hq' := hcount q'
      rw [if_neg hne.symm, Nat.add_zero] at hq'
      exact hq'.symm

theorem running_set {n : Nat} {r : Run} (hn : w.runs[n]? = some r) (left : Nat) (q : Qtype) :
    ({ w with runs := w.runs.set n { r with left := left } } : World).running q = w.running q := by
  obtain ⟨hlt, -⟩ := List.getElem?_eq_some_iff.1 hn
  have hperm := (List.set_perm_cons_eraseIdx hlt { r with left := left }).map Run.qtype
  show ((w.runs.set n { r with left := left }).map Run.qtype).count q = (w.runs.map Run.qtype).count q
  rw [hperm.count_eq, List.map_cons, List.count_cons, count_map_eraseIdx Run.qtype hn]
  simp only [beq_iff_eq]

theorem Good.finish (h : w.Good) {n : Nat} {r : Run} (hn : w.runs[n]? = some r) (now : Nat) :
    ({ w with runs := w.runs.eraseIdx n }.finish r now).Good := by
  have hmem : r ∈ w.runs := List.mem_of_getElem? hn
  have hcount := count_map_eraseIdx Run.qtype hn
  have hq := hcount r.qtype
  rw [if_pos rfl] at hq
  obtain ⟨hqueue, hforked, hrunning⟩ : w.queue r.qtype = none ∧ w.forked.count r.qtype = 0 ∧ w.running r.qtype = 1 := by
    have hpos : w.running r.qtype ≠ 0 := fun hzero => Nat.succ_ne_zero _ (hq.symm.trans hzero)
    cases h.phase r.qtype with
    | timer id hqueue hfunc hscore hforked hrunning => exact absurd hrunning hpos
    | forked id hqueue hlist hforked hrunning => exact absurd hrunning hpos
    | running hqueue hforked hrunning => exact ⟨hqueue, hforked, hrunning⟩
  have hsound : ({ w with runs := w.runs.eraseIdx n } : World).Sound :=
    ⟨h.sound.fresh, h.sound.made, h.sound.timer, fun r' hr' => h.sound.early r' (List.mem_of_mem_eraseIdx hr'),
      h.sound.removed⟩
  have hnext := hsound.addQueue hqueue now (now + w.inv r.qtype)
  have hphase : ∀ q', (World.addQueue { w with runs := w.runs.eraseIdx n } r.qtype now (now + w.inv r.qtype)).Phase q' := by
    refine fun q' => hsound.phase_addQueue hqueue hforked (Nat.succ.inj (hq.symm.trans hrunning)) _ _ (fun hne => ?_)
    refine (h.phase q').of_eq rfl (fun _ _ => rfl) (fun _ _ _ => rfl) rfl ?_
    have hq' := hcount q'
    rw [if_neg hne.symm, Nat.add_zero] at hq'
    exact hq'.symm
  unfold World.finish
  simp only
  cases hearly : r.early with
  | none => exact ⟨hnext, hphase⟩
  | some timerId =>
    obtain ⟨hlt, hscore⟩ := h.sound.early r hmem timerId hearly
    obtain ⟨item, -, -, heq⟩ := addQueue_eq (w := { w with runs := w.runs.eraseIdx n }) hqueue now (now + w.inv r.qtype)
    have hgone : (World.addQueue { w with runs := w.runs.eraseIdx n } r.qtype now (now +
      w.inv r.qtype)).sch.zset.score timerId =
        none := by
      rw [heq]
      exact (Zset.score_add ..).trans ((if_neg (Nat.ne_of_lt hlt)).trans hscore)
    exact ⟨hnext.dispatched hgone, fun q => (hphase q).dispatched hgone⟩

theorem Good.task (h : w.Good) (n : Nat) (raised : Bool) (now : Nat) : (w.step (.task n raised now)).Good := by
  unfold World.step
  simp only
  cases hn : w.runs[n]? with
  | none => exact h
  | some r =>
    simp only
    split
    · refine ⟨⟨h.sound.fresh, h.sound.made, h.sound.timer, fun r' hr' => ?_, h.sound.removed⟩, fun q => ?_⟩
      · rcases List.mem_or_eq_of_mem_set hr' with hr' | rfl
        · exact h.sound.early r' hr'
        · exact h.sound.early r (List.mem_of_getElem? hn)
      · exact (h.phase q).of_eq rfl (fun _ _ => rfl) (fun _ _ _ => rfl) rfl (running_set hn _ q)
    · exact h.finish hn now

theorem Good.idle (h : w.Good) (stops dealTaskInv : Nat) (dispatches : List Qtype) :
    ({ w with stops := stops, dealTaskInv := dealTaskInv, dispatches := dispatches } : World).Good :=
  ⟨⟨h.sound.fresh, h.sound.made, h.sound.timer, h.sound.early, h.sound.removed⟩,
    fun q => (h.phase q).of_eq rfl (fun _ _ => rfl) (fun _ _ _ => rfl) rfl rfl⟩

theorem Good.dispatch (h : w.Good) (n : Nat) : (w.step (.dispatch n)).Good := by
  unfold World.step
  simp only
  cases hn : w.dispatches[n]? with
  | none => exact h
  | some q =>
    have hidle := h.idle w.stops w.dealTaskInv (w.dispatches.eraseIdx n)
    simp only
    cases h.phase q with
    | running hqueue hforked hrunning =>
      rw [hqueue]
      exact hidle
    | forked id hqueue hlist hforked hrunning =>
      rw [hqueue]
      unfold Scheduler.dispatchRightNow
      simp only
      rw [hlist]
      exact hidle
    | timer id hqueue hfunc hscore hforked hrunning =>
      obtain ⟨item, hitem, rfl⟩ := hfunc
      rw [hqueue]
      unfold Scheduler.dispatchRightNow
      simp only
      rw [hitem]
      have hrem : ∀ id', (w.sch.zset.rem id).score id' = if id' = id then none else w.sch.zset.score id' :=
        Zset.score_rem _ _
      let w' : World := { w with dispatches := w.dispatches.eraseIdx n, sch := { w.sch with zset := w.sch.zset.rem id } }
      have hsound : w'.Sound := by
        refine ⟨fun id' hid' => ⟨(h.sound.fresh id' hid').1, ?_⟩, h.sound.made, fun id' d hd => ?_, fun r hr id' hid' => ?_,
          h.sound.removed⟩
        · refine (hrem id').trans ?_
          split
          · rfl
          · exact (h.sound.fresh id' hid').2
        · have hd' := (hrem id').symm.trans hd
          split at hd'
          · cases hd'
          · exact h.sound.timer id' d hd'
        · refine ⟨(h.sound.early r hr id' hid').1, (hrem id').trans ?_⟩
          split
          · rfl
          · exact (h.sound.early r hr id' hid').2
      refine ⟨hsound.dispatchQueueEvent (fun id' ht => ?_) (fun id' hid' => ?_),
        phase_dispatchQueueEvent (w := w') hforked hrunning (fun q' hne => ?_) (some id)⟩
      · obtain rfl := Option.some.inj ((hsound.unique ht).symm.trans hqueue)
        exact ht.1 ((hrem id').trans (if_pos rfl))
      · obtain rfl := Option.some.inj hid'
        exact ⟨h.sound.made _ _ hqueue, (hrem id).trans (if_pos rfl)⟩
      · refine (h.phase q').of_eq rfl (fun _ _ => rfl) (fun id' hid' hsome => ?_) rfl rfl
        refine (hrem id').trans (if_neg (fun heq => hne ?_))
        -- the timer of another task is another one
        subst heq
        cases h.phase q' with
        | running hqueue' _ _ => exact absurd (hid'.symm.trans hqueue') nofun
        | forked id'' hqueue' hlist' _ _ =>
          obtain rfl := Option.some.inj (hid'.symm.trans hqueue')
          exact absurd hlist' hsome
        | timer id'' hqueue' hfunc' _ _ _ =>
          obtain rfl := Option.some.inj (hid'.symm.trans hqueue')
          obtain ⟨item', hitem', rfl⟩ := hfunc'
          rw [Option.some.inj (hitem'.symm.trans hitem)]

theorem Good.step (h : w.Good) (e : Event) : (w.step e).Good := by
  cases e with
  | update now => exact h.update now
  | callback n => exact h.callback n
  | task n raised now => exact h.task n raised now
  | stop => exact h.idle (w.stops + 1) 1 w.dispatches
  | reconnected raised =>
    unfold World.step
    simp only
    split
    · exact h
    · exact h.idle (w.stops - 1) w.dealTaskInv _
  | dispatch n => exact h.dispatch n

theorem good_addQueues : ∀ (qs : List Qtype) (w : World) (f : World → Qtype → Nat) (now : Nat), qs.Nodup → w.Sound →
    (∀ q ∈ qs, w.queue q = none ∧ w.forked.count q = 0 ∧ w.running q = 0) → (∀ q, q ∉ qs → w.Phase q) →
      (qs.foldl (fun w q => w.addQueue q now (f w q)) w).Good
  | [], _, _, _, _, hsound, _, hphase => ⟨hsound, fun q => hphase q List.not_mem_nil⟩
  | q :: qs, w, f, now, hnodup, hsound, hnone, hphase => by
    obtain ⟨hnot, hnodup⟩ := List.nodup_cons.1 hnodup
    obtain ⟨hqueue, hforked, hrunning⟩ := hnone q List.mem_cons_self
    refine good_addQueues qs _ f now hnodup (hsound.addQueue hqueue now _) (fun q' hq' => ?_) (fun q' hq' => ?_)
    · have hne : q' ≠ q := fun heq => hnot (heq ▸ hq')
      obtain ⟨hqueue', hforked', hrunning'⟩ := hnone q' (List.mem_cons_of_mem _ hq')
      obtain ⟨item, -, -, heq⟩ := addQueue_eq hqueue now (f w q)
      simp only
      rw [heq]
      exact ⟨(Function.update_of_ne hne ..).trans hqueue', hforked', hrunning'⟩
    · exact hsound.phase_addQueue hqueue hforked hrunning now _ (fun hne =>
        hphase q' (fun hm => hq' ((List.mem_cons.1 hm).resolve_left hne)))

theorem good_init (debug : Bool) (now : Nat) : (init debug now).Good := by
  refine good_addQueues Qtype.all (ctor debug) (fun w q => now + w.inv q) now (by decide) ?_ (fun _ _ =>
    ⟨rfl, rfl, rfl⟩) (fun q hq => ?_)
  · exact ⟨fun _ _ => ⟨rfl, rfl⟩, fun _ _ hid => (by cases hid), fun _ _ hd => (by cases hd), fun _ hr =>
      (by cases hr), rfl⟩
  · cases q <;> exact absurd (by decide) hq

theorem begins_of_forked {q : Qtype} (hforked : w.forked.count q = 1) :
    ∃ e, (w.step e).begun.count q = w.begun.count q + 1 := by
  have hm : q ∈ w.forked := List.count_pos_iff.1 (by rw [hforked]; exact Nat.one_pos)
  obtain ⟨n, hn⟩ := List.getElem?_of_mem hm
  refine ⟨.callback n, ?_⟩
  unfold World.step
  simp only
  rw [hn]
  exact List.count_cons_self ..

theorem Good.begins_of_queue (h : w.Good) {q : Qtype} (hqueue : w.queue q ≠ none) :
    ∃ es : List Event, w.begun.count q < (es.foldl World.step w).begun.count q := by
  cases h.phase q with
  | running hq _ _ => exact absurd hq hqueue
  | forked id _ _ hforked _ =>
    obtain ⟨e, he⟩ := begins_of_forked hforked
    exact ⟨[e], by rw [List.foldl_cons, List.foldl_nil, he]; exact Nat.lt_succ_self _⟩
  | timer id hq hfunc hscore hforked _ =>
    obtain ⟨d, hd⟩ := Option.ne_none_iff_exists'.1 hscore
    obtain ⟨hpos, -⟩ := h.sound.timer id d hd
    have hdue : (w.sch.entry id).Due (d.toNat : Int) := ⟨d, hd, hpos, Int.self_le_toNat d⟩
    have hcount : (w.step (.update d.toNat)).forked.count q = 1 := by
      show (w.forked ++ (w.sch.update (d.toNat : Int)).2.map Prod.snd).count q = 1
      rw [List.count_append, hforked, h.sound.count_forks_one ⟨hscore, hfunc⟩ hdue]
    obtain ⟨e, he⟩ := begins_of_forked hcount
    refine ⟨[.update d.toNat, e], ?_⟩
    rw [List.foldl_cons, List.foldl_cons, List.foldl_nil, he]
    exact Nat.lt_succ_self _

theorem finish_queue {r : Run} (hqueue : w.queue r.qtype = none) (now : Nat) :
    (w.finish r now).queue r.qtype ≠ none ∧ (w.finish r now).begun = w.begun := by
  obtain ⟨item, -, -, heq⟩ := addQueue_eq hqueue now (now + w.inv r.qtype)
  unfold World.finish
  simp only
  rw [heq]
  have hset : Function.update w.queue r.qtype (some w.sch.ID) r.qtype ≠ none := by
    rw [Function.update_self]
    exact nofun
  cases r.early with
  | none => exact ⟨hset, rfl⟩
  | some timerId => exact ⟨hset, rfl⟩

theorem Good.begins_of_run : ∀ (left : Nat) {w : World} {n : Nat} {r : Run}, w.Good → w.runs[n]? = some r → r.left = left →
    ∃ es : List Event, w.begun.count r.qtype < (es.foldl World.step w).begun.count r.qtype
  | 0, w, n, r, h, hn, hleft => by
    have hstep : w.step (.task n false 0) = { w with runs := w.runs.eraseIdx n }.finish r 0 := by
      unfold World.step
      simp only
      rw [hn]
      simp only
      rw [if_neg (by omega)]
    have hqueue : w.queue r.qtype = none := by
      have hpos : w.running r.qtype ≠ 0 := by
        have hm : r.qtype ∈ w.runs.map Run.qtype := List.mem_map_of_mem (List.mem_of_getElem? hn)
        exact Nat.ne_of_gt (List.count_pos_iff.2 hm)
      cases h.phase r.qtype with
      | timer id _ _ _ _ hrunning => exact absurd hrunning hpos
      | forked id _ _ _ hrunning => exact absurd hrunning hpos
      | running hqueue _ _ => exact hqueue
    obtain ⟨hset, hbegun⟩ := finish_queue (w := { w with runs := w.runs.eraseIdx n }) hqueue 0
    rw [← hstep] at hset hbegun
    obtain ⟨es, hes⟩ := (h.step (.task n false 0)).begins_of_queue hset
    rw [hbegun] at hes
    exact ⟨.task n false 0 :: es, hes⟩
  | left + 1, w, n, r, h, hn, hleft => by
    have hstep : w.step (.task n false 0) = { w with runs := w.runs.set n { r with left := left } } := by
      unfold World.step
      simp only
      rw [hn]
      simp only
      rw [if_pos (by omega), hleft, Nat.add_sub_cancel]
    obtain ⟨hlt, -⟩ := List.getElem?_eq_some_iff.1 hn
    have hnext : (w.step (.task n false 0)).runs[n]? = some { r with left := left } := by
      rw [hstep]
      exact List.getElem?_set_self hlt
    obtain ⟨es, hes⟩ := Good.begins_of_run left (h.step (.task n false 0)) hnext rfl
    have hbegun : (w.step (.task n false 0)).begun = w.begun := by rw [hstep]
    rw [hbegun] at hes
    exact ⟨.task n false 0 :: es, hes⟩

theorem Good.begins (h : w.Good) (q : Qtype) :
    ∃ es : List Event, w.begun.count q < (es.foldl World.step w).begun.count q := by
  cases h.phase q with
  | timer id hqueue _ _ _ _ => exact h.begins_of_queue (by rw [hqueue]; exact nofun)
  | forked id hqueue _ _ _ => exact h.begins_of_queue (by rw [hqueue]; exact nofun)
  | running _ _ hrunning =>
    have hm : q ∈ w.runs.map Run.qtype := List.count_pos_iff.1 (Nat.lt_of_lt_of_eq Nat.one_pos hrunning.symm)
    obtain ⟨r, hr, rfl⟩ := List.mem_map.1 hm
    obtain ⟨n, hn⟩ := List.getElem?_of_mem hr
    exact Good.begins_of_run r.left h hn rfl

/-- **The drains never stop and never double**: in every run there is one of the three of each task, the removal branch is
not reached, and the next callback can begin. -/
theorem one_of_run (debug : Bool) (now : Nat) (es : List Event) (q : Qtype) :
    let w := es.foldl step (init debug now)
    w.One q ∧ w.removed = false ∧ ∃ es' : List Event, w.begun.count q < (es'.foldl step w).begun.count q := by
  have h := Steps.inv_of_run (I := Good) (fun _ e hw => hw.step e) es _ (good_init debug now)
  exact ⟨h.one q, h.sound.removed, h.begins q⟩

end World
end PlayerDataTimer
end Sncpp
