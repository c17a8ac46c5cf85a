import Mathlib.Data.List.AList
import Sncpp.Scheduler
/-!
# TimerMgr — the timers of objects

`timerMgr.lua` over a scheduler of its own: for each object and type of timer the scheduler's id.  A tick takes a
timer out of the scheduler and forks its callback; the id stays in the map until the callback asks `hasTimer` for it.
An `updateTimer` that comes between the two resets an id that the scheduler has forgotten, so the new deadline is lost
and the callback of the old one takes it.
-/
namespace Sncpp

structure TimerMgr (ι τ : Type) [DecidableEq τ] where
  timerMap : ι → AList (fun _ : τ => Nat)
  timer : Scheduler (ι × τ)

namespace TimerMgr

variable {ι τ : Type} [DecidableEq ι] [DecidableEq τ]

def ctor : TimerMgr ι τ := ⟨fun _ => ∅, .ctor⟩

variable (m : TimerMgr ι τ)

def timerId (key : ι × τ) : Option Nat := (m.timerMap key.1).lookup key.2

def setMap (id : ι) (f : AList (fun _ : τ => Nat) → AList (fun _ : τ => Nat)) : TimerMgr ι τ :=
  { m with timerMap := Function.update m.timerMap id (f (m.timerMap id)) }

def updateTimer (now : Int) (id : ι) (timerType : τ) (endTime : Int) : TimerMgr ι τ :=
  match m.timerId (id, timerType) with
  | some timerId =>
    if endTime ≤ 0 then ({ m with timer := (m.timer.stop timerId).1 }).setMap id (AList.erase timerType)
    else { m with timer := (m.timer.reset timerId endTime).1 }
  | none =>
    if endTime ≤ 0 then m
    else match m.timer.schedule now (id, timerType) endTime false with
      | none => m
      | some (timer, timerId) => ({ m with timer := timer }).setMap id (AList.insert timerType timerId)

def removeTimer (id : ι) (timerType : Option τ) : TimerMgr ι τ :=
  match timerType with
  | some timerType =>
    match m.timerId (id, timerType) with
    | some timerId => ({ m with timer := (m.timer.stop timerId).1 }).setMap id (AList.erase timerType)
    | none => m
  | none =>
    ({ m with timer := (m.timerMap id).entries.foldl (fun timer (e : (_ : τ) × Nat) => (timer.stop e.2).1) m.timer }).setMap id (fun _ => ∅)

def hasTimer (id : ι) (timerType : τ) : TimerMgr ι τ × Bool :=
  match m.timerId (id, timerType) with
  | some _ => (m.setMap id (AList.erase timerType), true)
  | none => (m, false)

theorem timerId_insert (key k : ι × τ) (n : Nat) :
    (m.setMap key.1 (AList.insert key.2 n)).timerId k = if k = key then some n else m.timerId k := by
  obtain ⟨id, timerType⟩ := key
  obtain ⟨id', timerType'⟩ := k
  unfold timerId setMap
  by_cases hid : id' = id
  · subst hid
    by_cases ht : timerType' = timerType
    · subst ht
      simp
    · simp [ht, AList.lookup_insert_ne ht]
  · simp [hid]

theorem timerId_erase (key k : ι × τ) :
    (m.setMap key.1 (AList.erase key.2)).timerId k = if k = key then none else m.timerId k := by
  obtain ⟨id, timerType⟩ := key
  obtain ⟨id', timerType'⟩ := k
  unfold timerId setMap
  by_cases hid : id' = id
  · subst hid
    by_cases ht : timerType' = timerType
    · subst ht
      simp
    · simp [ht, AList.lookup_erase_ne ht]
  · simp [hid]

theorem timerId_clear (id : ι) (k : ι × τ) : (m.setMap id (fun _ => ∅)).timerId k = if k.1 = id then none else
    m.timerId k := by
  unfold timerId setMap
  by_cases hid : k.1 = id
  · simp [hid]
  · simp [hid]

def Covers (id : ι) (timerType : Option τ) (k : ι × τ) : Prop := k.1 = id ∧ (timerType = none ∨ timerType = some k.2)

def ids (id : ι) (timerType : Option τ) : List Nat :=
  match timerType with
  | some timerType => (m.timerId (id, timerType)).toList
  | none => (m.timerMap id).entries.map (fun e => e.2)

omit [DecidableEq ι] in
theorem mem_ids (id : ι) (timerType : Option τ) (a : Nat) :
    a ∈ m.ids id timerType ↔ ∃ k, Covers id timerType k ∧ m.timerId k = some a := by
  cases timerType with
  | some timerType =>
    simp only [ids, Option.mem_toList]
    constructor
    · exact fun h => ⟨(id, timerType), ⟨rfl, Or.inr rfl⟩, h⟩
    · rintro ⟨⟨id', timerType'⟩, ⟨rfl, hno | heq⟩, h⟩
      · cases hno
      · obtain rfl := Option.some.inj heq
        exact h
  | none =>
    simp only [ids, List.mem_map]
    constructor
    · rintro ⟨⟨timerType, n⟩, he, rfl⟩
      exact ⟨(id, timerType), ⟨rfl, Or.inl rfl⟩, AList.mem_lookup_iff.2 he⟩
    · rintro ⟨⟨id', timerType⟩, ⟨rfl, -⟩, h⟩
      exact ⟨⟨timerType, a⟩, AList.mem_lookup_iff.1 h, rfl⟩

theorem removeTimer_timer (id : ι) (timerType : Option τ) :
    (m.removeTimer id timerType).timer = (m.ids id timerType).foldl (fun s a => (s.stop a).1) m.timer := by
  unfold removeTimer ids
  cases timerType with
  | some timerType =>
    simp only
    cases m.timerId (id, timerType) <;> rfl
  | none =>
    simp only [setMap]
    rw [List.foldl_map]

theorem removeTimer_of_covers {id : ι} {timerType : Option τ} {k : ι × τ} (h : Covers id timerType k) :
    (m.removeTimer id timerType).timerId k = none := by
  obtain ⟨rfl, hty⟩ := h
  unfold removeTimer
  cases timerType with
  | some timerType =>
    obtain rfl : timerType = k.2 := (hty.resolve_left (fun hno => by cases hno) |> Option.some.inj)
    simp only
    cases hid : m.timerId (k.1, k.2) with
    | none => exact hid
    | some n => exact (timerId_erase _ (k.1, k.2) k).trans (if_pos rfl)
  | none => exact (timerId_clear _ k.1 k).trans (if_pos rfl)

theorem removeTimer_of_not_covers {id : ι} {timerType : Option τ} {k : ι × τ} (h : ¬ Covers id timerType k) :
    (m.removeTimer id timerType).timerId k = m.timerId k := by
  unfold removeTimer
  cases timerType with
  | some timerType =>
    simp only
    have hne : k ≠ (id, timerType) := fun heq => h (heq ▸ ⟨rfl, Or.inr rfl⟩)
    cases m.timerId (id, timerType) with
    | none => rfl
    | some n => exact (timerId_erase _ (id, timerType) k).trans (if_neg hne)
  | none => exact (timerId_clear _ id k).trans (if_neg (fun heq => h ⟨heq, Or.inl rfl⟩))

theorem updateTimer_of_le {now : Int} {id : ι} {timerType : τ} {endTime : Int} (h : endTime ≤ 0) :
    m.updateTimer now id timerType endTime = m.removeTimer id (some timerType) := by
  unfold updateTimer removeTimer
  cases hid : m.timerId (id, timerType) with
  | some n => simp only [hid, if_pos h]
  | none => simp only [hid, if_pos h]

theorem hasTimer_timerId (m : TimerMgr ι τ) (key k : ι × τ) :
    (m.hasTimer key.1 key.2).1.timerId k = if k = key then none else m.timerId k := by
  unfold TimerMgr.hasTimer
  cases hid : m.timerId (key.1, key.2) with
  | none =>
    show m.timerId k = _
    by_cases hk : k = key
    · rw [if_pos hk, hk]
      exact hid
    · rw [if_neg hk]
  | some a => exact timerId_erase m key k

theorem hasTimer_timer (m : TimerMgr ι τ) (id : ι) (timerType : τ) : (m.hasTimer id timerType).1.timer = m.timer := by
  unfold TimerMgr.hasTimer
  cases m.timerId (id, timerType) <;> rfl

theorem hasTimer_eq (m : TimerMgr ι τ) (key : ι × τ) : (m.hasTimer key.1 key.2).2 = (m.timerId key).isSome := by
  unfold TimerMgr.hasTimer
  have hkey : m.timerId (key.1, key.2) = m.timerId key := rfl
  rw [hkey]
  cases m.timerId key <;> rfl

end TimerMgr

namespace Scheduler

variable {α : Type}

theorem stops_entry (id : Nat) : ∀ (ids : List Nat) (s : Scheduler α),
    (ids.foldl (fun s id => (s.stop id).1) s).entry id = if id ∈ ids ∧ s.list id ≠ none then ⟨none, none⟩ else s.entry id
  | [], s => by simp
  | a :: ids, s => by
    rw [List.foldl_cons, stops_entry id ids]
    unfold stop entry
    cases hitem : s.list a with
    | none =>
      by_cases hid : id = a
      · subst hid
        simp [hitem]
      · simp [hid]
    | some item =>
      by_cases hid : id = a
      · subst hid
        simp [hitem, Zset.score_rem]
      · simp [hid, Zset.score_rem]

theorem stops_ID : ∀ (ids : List Nat) (s : Scheduler α), (ids.foldl (fun s id => (s.stop id).1) s).ID = s.ID
  | [], _ => rfl
  | a :: ids, s => by
    rw [List.foldl_cons, stops_ID ids]
    unfold stop
    cases s.list a <;> rfl

theorem reset_entry (s : Scheduler α) (ID id : Nat) (t : Int) :
    (s.reset ID t).1.entry id = ⟨s.list id, if id = ID then some t else s.zset.score id⟩ := by
  unfold reset entry
  split
  · simp [Zset.score_add]
  · next heq =>
    rw [not_not] at heq
    split
    · next hid => rw [hid, heq]
    · rfl

end Scheduler

namespace TimerMgr

variable {ι τ : Type} [DecidableEq ι] [DecidableEq τ] (m : TimerMgr ι τ)

def Live (key : ι × τ) : Prop :=
  ∀ id, m.timerId key = some id → ∃ item, m.timer.list id = some item ∧ item.func = key ∧ item.repeats = false

/-- The scheduler has its timer with this end time; none is no timer. -/
def ArmedAt (key : ι × τ) : Option Int → Prop
  | none => m.timerId key = none
  | some endTime => ∃ id item, m.timerId key = some id ∧ m.timer.list id = some item ∧ item.func = key ∧
      item.repeats = false ∧ m.timer.zset.score id = some endTime

omit [DecidableEq ι] in
variable {m} in
theorem ArmedAt.live {key : ι × τ} {endTime : Option Int} (h : m.ArmedAt key endTime) : m.Live key := by
  intro id hid
  cases endTime with
  | none =>
    rw [show m.timerId key = none from h] at hid
    cases hid
  | some endTime =>
    obtain ⟨id', item, hid', hitem, hfunc, hrep, -⟩ := h
    obtain rfl : id' = id := Option.some.inj (hid'.symm.trans hid)
    exact ⟨item, hitem, hfunc, hrep⟩

omit [DecidableEq ι] in
variable {m} in
theorem ArmedAt.congr {m' : TimerMgr ι τ} {key : ι × τ} {endTime : Option Int} (h : m.ArmedAt key endTime)
    (hid : m'.timerId key = m.timerId key) (hentry : ∀ id, m.timerId key = some id → m'.timer.entry id = m.timer.entry id) :
    m'.ArmedAt key endTime := by
  cases endTime with
  | none => exact hid.trans h
  | some endTime =>
    obtain ⟨id, item, hid', hitem, hfunc, hrep, hscore⟩ := h
    have heq := hentry id hid'
    exact ⟨id, item, hid.trans hid', (congrArg Scheduler.Entry.item heq).trans hitem, hfunc, hrep,
      (congrArg Scheduler.Entry.score heq).trans hscore⟩

omit [DecidableEq ι] in
variable {m} in
theorem Live.congr {m' : TimerMgr ι τ} {key : ι × τ} (h : m.Live key) (hid : m'.timerId key = m.timerId key)
    (hentry : ∀ id, m.timerId key = some id → m'.timer.entry id = m.timer.entry id) : m'.Live key := by
  intro id hid'
  rw [hid] at hid'
  obtain ⟨item, hitem, hfunc⟩ := h id hid'
  exact ⟨item, (congrArg Scheduler.Entry.item (hentry id hid')).trans hitem, hfunc⟩

theorem live_hasTimer (id : ι) (timerType : τ) : (m.hasTimer id timerType).1.Live (id, timerType) := by
  intro n hn
  unfold hasTimer at hn
  cases hid : m.timerId (id, timerType) with
  | none =>
    simp only [hid] at hn
    cases hn
  | some a =>
    simp only [hid] at hn
    rw [timerId_erase m (id, timerType) (id, timerType), if_pos rfl] at hn
    cases hn

variable {m} in
theorem Live.armedAt {id : ι} {timerType : τ} (h : m.Live (id, timerType)) (now endTime : Int) :
    (m.updateTimer now id timerType endTime).ArmedAt (id, timerType) (if 0 < endTime then some endTime else none) := by
  by_cases hpos : endTime ≤ 0
  · rw [if_neg (Int.not_lt.2 hpos), m.updateTimer_of_le hpos]
    exact m.removeTimer_of_covers ⟨rfl, Or.inr rfl⟩
  · rw [if_pos (Int.not_le.1 hpos)]
    unfold updateTimer
    cases hid : m.timerId (id, timerType) with
    | some n =>
      obtain ⟨item, hitem, hfunc, hrep⟩ := h n hid
      simp only [if_neg hpos]
      have hentry := m.timer.reset_entry n n endTime
      rw [if_pos rfl] at hentry
      exact ⟨n, item, hid, (congrArg Scheduler.Entry.item hentry).trans hitem, hfunc, hrep,
        congrArg Scheduler.Entry.score hentry⟩
    | none =>
      simp only [if_neg hpos, Scheduler.schedule]
      refine ⟨m.timer.ID, ⟨(id, timerType), false, endTime - now⟩, ?_, ?_, rfl, rfl, ?_⟩
      · exact (timerId_insert _ (id, timerType) (id, timerType) m.timer.ID).trans (if_pos rfl)
      · exact Function.update_self ..
      · exact (Zset.score_add ..).trans (if_pos rfl)

end TimerMgr
end Sncpp
