import Sncpp.Steps
import Sncpp.Zset
/-!
# Scheduler — the timers of a service

`scheduler2.lua`: a table of the timers by id, and a sorted set of their deadlines.  A tick starts the timers whose
deadline has come; one that does not repeat leaves both tables then, and one that repeats gets its next deadline, or
stays if it is one of every second.  The deadlines are read without the table in `reset`, `speedup` and `delay`, and
`reset` writes one in any case.
-/
namespace Sncpp

structure Scheduler.Item (α : Type) where
  func : α
  repeats : Bool
  interval : Int
deriving DecidableEq

structure Scheduler (α : Type) where
  list : Nat → Option (Scheduler.Item α)
  zset : Zset Int Nat
  ID : Nat

namespace Scheduler

variable {α : Type}

def ctor : Scheduler α := ⟨fun _ => none, .new, 1⟩

/-- No answer is the assertion's error. -/
def schedule (now : Int) (func : α) (endtime : Int) (repeats : Bool) (s : Scheduler α) : Option (Scheduler α × Nat) :=
  let interval := endtime - now
  if repeats = true ∧ ¬ 0 < interval then none
  else some (⟨Function.update s.list s.ID (some ⟨func, repeats, interval⟩), s.zset.add endtime s.ID, s.ID + 1⟩, s.ID)

def repeatSchedule (now : Int) (func : α) (interval : Int) (s : Scheduler α) : Option (Scheduler α × Nat) :=
  if 0 < interval then
    let endtime := now + interval
    some (⟨Function.update s.list s.ID (some ⟨func, true, interval⟩), s.zset.add endtime s.ID, s.ID + 1⟩, s.ID)
  else none

def reset (ID : Nat) (newEndtime : Int) (s : Scheduler α) : Scheduler α × Bool :=
  (if s.zset.score ID ≠ some newEndtime then { s with zset := s.zset.add newEndtime ID } else s, true)

def speedup (ID : Nat) (second : Int) (s : Scheduler α) : Scheduler α × Bool :=
  if 0 < second then
    match s.zset.score ID with
    | some endtime => ({ s with zset := s.zset.add (endtime - second) ID }, true)
    | none => (s, false)
  else (s, false)

def delay (ID : Nat) (second : Int) (s : Scheduler α) : Scheduler α × Bool :=
  if 0 < second then
    match s.zset.score ID with
    | some endtime => ({ s with zset := s.zset.add (endtime + second) ID }, true)
    | none => (s, false)
  else (s, false)

def stop (ID : Nat) (s : Scheduler α) : Scheduler α × Bool :=
  match s.list ID with
  | some _ => ({ s with list := Function.update s.list ID none, zset := s.zset.rem ID }, true)
  | none => (s, false)

def dispatchRightNow (ID : Nat) (s : Scheduler α) : Option (Scheduler α × α) :=
  match s.list ID with
  | some item => some ({ s with zset := s.zset.rem ID }, item.func)
  | none => none

def dispatched (ID : Nat) (s : Scheduler α) : Scheduler α := { s with list := Function.update s.list ID none }

def clear (s : Scheduler α) : Scheduler α := { s with list := fun _ => none, zset := .new }

def tick (now : Int) (r : Scheduler α × List (Nat × α)) (ID : Nat) : Scheduler α × List (Nat × α) :=
  match r.1.list ID with
  | none => r
  | some item =>
    (if !item.repeats then { r.1 with list := Function.update r.1.list ID none, zset := r.1.zset.rem ID }
      else if item.interval ≠ 1 then { r.1 with zset := r.1.zset.add (now + item.interval) ID } else r.1,
      r.2 ++ [(ID, item.func)])

def update (now : Int) (s : Scheduler α) :
    Scheduler α × List (Nat × α) := (s.zset.range_by_score 0 now).foldl (tick now) (s, [])

structure Entry (α : Type) where
  item : Option (Item α)
  score : Option Int

def entry (s : Scheduler α) (id : Nat) : Entry α := ⟨s.list id, s.zset.score id⟩

def Entry.Due (e : Entry α) (now : Int) : Prop := ∃ d, e.score = some d ∧ 0 ≤ d ∧ d ≤ now

def Entry.fire (now : Int) (e : Entry α) : Entry α :=
  match e.item with
  | none => e
  | some item =>
    if !item.repeats then ⟨none, none⟩ else if item.interval ≠ 1 then ⟨some item, some (now + item.interval)⟩ else e

variable {now : Int}

theorem tick_self (r : Scheduler α × List (Nat × α)) (ID : Nat) : (tick now r ID).1.entry ID = (r.1.entry ID).fire now := by
  unfold tick entry Entry.fire
  cases h : r.1.list ID with
  | none => simp [h]
  | some item =>
    by_cases hrep : item.repeats = true <;> by_cases hone : item.interval = 1 <;>
      simp [h, hrep, hone, Zset.score_rem, Zset.score_add]

theorem tick_of_ne (r : Scheduler α × List (Nat × α)) {ID id : Nat} (hne : id ≠ ID) :
    (tick now r ID).1.entry id = r.1.entry id := by
  unfold tick entry
  cases r.1.list ID with
  | none => rfl
  | some item =>
    by_cases hrep : item.repeats = true <;> by_cases hone : item.interval = 1 <;>
      simp [hrep, hone, hne, Zset.score_rem, Zset.score_add]

theorem tick_forks (r : Scheduler α × List (Nat × α)) (ID : Nat) :
    (tick now r ID).2 = r.2 ++ ((r.1.entry ID).item.map (fun item => (ID, item.func))).toList := by
  unfold tick entry
  cases h : r.1.list ID with
  | none => simp
  | some item => rfl

theorem ticks_entry (id : Nat) : ∀ (ids : List Nat) (r : Scheduler α × List (Nat × α)), ids.Nodup →
    (ids.foldl (tick now) r).1.entry id = if id ∈ ids then (r.1.entry id).fire now else r.1.entry id
  | [], _, _ => rfl
  | ID :: ids, r, h => by
    obtain ⟨hnot, hnodup⟩ := List.nodup_cons.1 h
    rw [List.foldl_cons, ticks_entry id ids _ hnodup]
    by_cases hid : id = ID
    · subst hid
      rw [if_neg hnot, if_pos List.mem_cons_self, tick_self]
    · rw [tick_of_ne r hid]
      simp [hid]

theorem ticks_forks : ∀ (ids : List Nat) (r : Scheduler α × List (Nat × α)), ids.Nodup → (ids.foldl (tick now) r).2 =
    r.2 ++ ids.filterMap (fun id => (r.1.entry id).item.map (fun item => (id, item.func)))
  | [], _, _ => (List.append_nil _).symm
  | ID :: ids, r, h => by
    obtain ⟨hnot, hnodup⟩ := List.nodup_cons.1 h
    rw [List.foldl_cons, ticks_forks ids _ hnodup, tick_forks, List.append_assoc]
    congr 1
    have hsame : ids.filterMap (fun id => ((tick now r ID).1.entry id).item.map (fun item => (id, item.func))) =
        ids.filterMap (fun id => (r.1.entry id).item.map (fun item => (id, item.func))) := by
      refine List.filterMap_congr (fun id hid => ?_)
      have hne : id ≠ ID := fun heq => hnot (heq ▸ hid)
      rw [tick_of_ne r hne]
    rw [hsame, List.filterMap_cons]
    cases (r.1.entry ID).item <;> rfl

theorem mem_range_iff (s : Scheduler α) (id : Nat) : id ∈ s.zset.range_by_score 0 now ↔ (s.entry id).Due now :=
    Zset.mem_range _

theorem update_of_due {s : Scheduler α} {id : Nat} (h : (s.entry id).Due now) :
    (s.update now).1.entry id = (s.entry id).fire now := by
  unfold update
  rw [ticks_entry id _ _ (Zset.nodup_range _ _ _), if_pos ((mem_range_iff s id).2 h)]

theorem update_of_not_due {s : Scheduler α} {id : Nat} (h : ¬ (s.entry id).Due now) :
    (s.update now).1.entry id = s.entry id := by
  unfold update
  rw [ticks_entry id _ _ (Zset.nodup_range _ _ _), if_neg (fun hmem => h ((mem_range_iff s id).1 hmem))]

theorem mem_forks {s : Scheduler α} {id : Nat} {f : α} :
    (id, f) ∈ (s.update now).2 ↔ (s.entry id).Due now ∧ ∃ item, s.list id = some item ∧ item.func = f := by
  unfold update
  rw [ticks_forks _ _ (Zset.nodup_range _ _ _), List.nil_append, List.mem_filterMap]
  constructor
  · rintro ⟨a, ha, heq⟩
    obtain ⟨item, hitem, heq⟩ := Option.map_eq_some_iff.1 heq
    obtain ⟨rfl, rfl⟩ := Prod.mk.inj heq
    exact ⟨(mem_range_iff s a).1 ha, item, hitem, rfl⟩
  · rintro ⟨hdue, item, hitem, rfl⟩
    refine ⟨id, (mem_range_iff s id).2 hdue, ?_⟩
    show (s.list id).map _ = _
    rw [hitem]
    rfl

theorem nodup_forks (s : Scheduler α) : ((s.update now).2.map Prod.fst).Nodup := by
  unfold update
  rw [ticks_forks _ _ (Zset.nodup_range _ _ _), List.nil_append]
  refine List.Nodup.sublist ?_ (Zset.nodup_range s.zset 0 now)
  generalize s.zset.range_by_score 0 now = ids
  induction ids with
  | nil => exact List.Sublist.refl _
  | cons id ids ih =>
    rw [List.filterMap_cons]
    cases (s.entry id).item with
    | none => exact ih.cons id
    | some item => exact ih.cons_cons id

theorem update_ID (s : Scheduler α) : (s.update now).1.ID = s.ID := by
  unfold update
  generalize s.zset.range_by_score 0 now = ids
  have hall : ∀ (ids : List Nat) (r : Scheduler α × List (Nat × α)), (ids.foldl (tick now) r).1.ID = r.1.ID := by
    intro ids
    induction ids with
    | nil => exact fun _ => rfl
    | cons id ids ih =>
      intro r
      rw [List.foldl_cons, ih]
      unfold tick
      cases r.1.list id with
      | none => rfl
      | some item => by_cases hrep : item.repeats = true <;> by_cases hone : item.interval = 1 <;> simp [hrep, hone]
  exact hall ids _

end Scheduler
end Sncpp
