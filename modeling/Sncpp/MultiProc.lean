import Mathlib.Data.Finset.Basic
import Sncpp.Steps
/-!
# MultiProc — tasks side by side, and one that waits for them (`multiProc.lua`)

The table has the tasks that have not finished.  The one that leaves it empty wakes the caller up, and `skynet.wakeup`
does not ask what the caller is waiting for: it ends any `skynet.sleep` and `skynet.wait` of the caller, only not a
call that has not been answered.  `wait` looks at the flag of the tasks that raised only if there was a task to wait
for.
-/
namespace Sncpp
namespace MultiProc

/-- What the caller does: it runs, it is in a sleep or wait of its own, it waits for the answer to a call, or it is in
`multiProc:wait`. -/
inductive Caller where
  | running
  | asleep
  | calling
  | waiting
deriving DecidableEq

/-- The object, its caller, and what is recorded: how many tasks were forked, and whether those that have finished
raised. -/
structure State where
  task : Finset Nat
  success : Bool
  caller : Caller
  forked : Nat
  ended : Nat → Option Bool

inductive Effect where
  | nothing
  -- out of a sleep or wait of its own
  | woken
  -- from `multiProc:wait`, and whether that raised
  | returned (raised : Bool)
deriving DecidableEq

inductive Event where
  | fork
  -- the caller goes to sleep, and its sleep ends
  | sleep
  | awake
  -- the caller calls another service, and gets its answer
  | call
  | answer
  | wait
  -- a task that was forked ends
  | finish (task : Nat) (raised : Bool)
deriving DecidableEq

def new : State := ⟨∅, true, .running, 0, fun _ => none⟩

variable (s : State)

def fork : State := { s with task := insert s.forked s.task, forked := s.forked + 1 }

/-- `skynet.wakeup`, and what the caller does when the task's coroutine has ended: the queue of those that are woken is
served before anything else. -/
def wakeup : State × Effect :=
  match s.caller with
  | .running => (s, .nothing)
  | .calling => (s, .nothing)
  | .asleep => ({ s with caller := .running }, .woken)
  | .waiting => ({ s with caller := .running }, .returned (!s.success))

def left (task : Nat) (raised : Bool) : State :=
  { s with
    success := if raised then false else s.success
    task := s.task.erase task
    ended := Function.update s.ended task (some raised) }

def finish (task : Nat) (raised : Bool) : State × Effect :=
  let s := left s task raised
  if s.task = ∅ then wakeup s else (s, .nothing)

def wait : State × Effect :=
  if s.task ≠ ∅ then ({ s with caller := .waiting }, .nothing) else (s, .returned false)

/-- Tasks run, and sleeps and calls end, only while the caller does not run. -/
def act (s : State) : Event → State × Effect
  | .fork => (fork s, .nothing)
  | .sleep => (if s.caller = .running then { s with caller := .asleep } else s, .nothing)
  | .awake => (if s.caller = .asleep then { s with caller := .running } else s, .nothing)
  | .call => (if s.caller = .running then { s with caller := .calling } else s, .nothing)
  | .answer => (if s.caller = .calling then { s with caller := .running } else s, .nothing)
  | .wait => if s.caller = .running then wait s else (s, .nothing)
  | .finish task raised =>
    if s.caller ≠ .running ∧ task < s.forked ∧ s.ended task = none then finish s task raised else (s, .nothing)

def step (s : State) (e : Event) : State := (act s e).1

/-- **What the event should do**: no task wakes the caller out of a sleep of its own, `wait` returns only when all tasks
have finished, and raises exactly if one of them has. -/
structure Joined (s : State) (e : Event) : Prop where
  woken : (act s e).2 ≠ .woken
  all : ∀ raised, (act s e).2 = .returned raised → ∀ task < (step s e).forked, (step s e).ended task ≠ none
  raised : ∀ raised, (act s e).2 = .returned raised → (raised = true ↔ ∃ task, (step s e).ended task = some true)

/-- **When it does.**  The last task of the table does not finish while the caller sleeps elsewhere, and no `wait` comes
when the table is empty and a task has raised. -/
def Fits (s : State) : Event → Prop
  | .finish task _ => ¬ (s.caller = .asleep ∧ s.task = {task})
  | .wait => ¬ (s.caller = .running ∧ s.task = ∅ ∧ s.success = false)
  | _ => True

/-- The table has the tasks that have not finished, the flag is down if one has raised, and the caller waits only if there
is a task to wait for. -/
structure Good (s : State) : Prop where
  task : ∀ i, i ∈ s.task ↔ i < s.forked ∧ s.ended i = none
  ended : ∀ i, s.ended i ≠ none → i < s.forked
  success : s.success = false ↔ ∃ i, s.ended i = some true
  waiting : s.caller = .waiting → s.task ≠ ∅

variable {s}

theorem good_new : Good new := ⟨by simp [new], by simp [new], by simp [new], fun h => by cases h⟩

theorem Good.setCaller (h : Good s) {caller : Caller} (hne : caller ≠ .waiting) : Good { s with caller := caller } :=
  ⟨h.task, h.ended, h.success, fun hw => absurd hw hne⟩

theorem Good.fork (h : Good s) : Good (fork s) where
  task i := by
    show i ∈ insert s.forked s.task ↔ i < s.forked + 1 ∧ s.ended i = none
    rw [Finset.mem_insert, h.task]
    constructor
    · rintro (rfl | ⟨hlt, hnone⟩)
      · refine ⟨Nat.lt_succ_self _, ?_⟩
        by_contra hne
        exact Nat.lt_irrefl _ (h.ended s.forked hne)
      · exact ⟨Nat.lt_succ_of_lt hlt, hnone⟩
    · rintro ⟨hlt, hnone⟩
      rcases Nat.lt_succ_iff_lt_or_eq.1 hlt with hlt | rfl
      · exact .inr ⟨hlt, hnone⟩
      · exact .inl rfl
  ended i hi := Nat.lt_succ_of_lt (h.ended i hi)
  success := h.success
  waiting hw hempty := h.waiting hw (Finset.eq_empty_of_forall_notMem fun i hi =>
    Finset.notMem_empty i (hempty ▸ Finset.mem_insert_of_mem hi))

theorem left_spec (h : Good s) {task : Nat} (hlt : task < s.forked) (hnone : s.ended task = none) (raised : Bool) :
    (∀ i, i ∈ (left s task raised).task ↔ i < s.forked ∧ (left s task raised).ended i = none) ∧
      (∀ i, (left s task raised).ended i ≠ none → i < s.forked) ∧
      ((left s task raised).success = false ↔ ∃ i, (left s task raised).ended i = some true) := by
  refine ⟨fun i => ?_, fun i hi => ?_, ?_⟩
  · show i ∈ s.task.erase task ↔ i < s.forked ∧ Function.update s.ended task (some raised) i = none
    rw [Finset.mem_erase, h.task, Function.update_apply]
    by_cases heq : i = task
    · simp [heq]
    · simp [heq]
  · by_cases heq : i = task
    · exact heq ▸ hlt
    · exact h.ended i (by rwa [← Function.update_of_ne heq (some raised) s.ended])
  · show (if raised = true then false else s.success) = false ↔ ∃ i, Function.update s.ended task (some raised) i = some true
    have hother : ∀ i, s.ended i = some true → i ≠ task := by
      rintro i hi rfl
      rw [hnone] at hi
      cases hi
    cases raised with
    | true => exact ⟨fun _ => ⟨task, Function.update_self ..⟩, fun _ => rfl⟩
    | false =>
      rw [if_neg Bool.false_ne_true, h.success]
      constructor
      · rintro ⟨i, hi⟩
        exact ⟨i, (Function.update_of_ne (hother i hi) _ _).trans hi⟩
      · rintro ⟨i, hi⟩
        by_cases heq : i = task
        · rw [heq, Function.update_self] at hi
          cases hi
        · exact ⟨i, by rwa [Function.update_of_ne heq] at hi⟩

theorem left_empty (h : Good s) {task : Nat} (hlt : task < s.forked) (hnone : s.ended task = none) (raised : Bool) :
    (left s task raised).task = ∅ ↔ s.task = {task} := by
  have hmem : task ∈ s.task := (h.task task).2 ⟨hlt, hnone⟩
  constructor
  · intro hempty
    rw [← Finset.insert_erase hmem, show s.task.erase task = ∅ from hempty]
    rfl
  · intro heq
    show s.task.erase task = ∅
    rw [heq, Finset.erase_singleton]

/-- **A task that ends**: the caller is woken if it was the last, and only a caller in a sleep of its own should not be. -/
theorem Good.finish (h : Good s) {task : Nat} (hrun : s.caller ≠ .running) (hlt : task < s.forked)
    (hnone : s.ended task = none) (raised : Bool) :
    Good (finish s task raised).1 ∧ ((finish s task raised).2 = .woken ↔ s.caller = .asleep ∧ s.task = {task}) ∧
      ∀ r, (finish s task raised).2 = .returned r →
        (∀ i < (finish s task raised).1.forked, (finish s task raised).1.ended i ≠ none) ∧
        (r = true ↔ ∃ i, (finish s task raised).1.ended i = some true) := by
  obtain ⟨htask, hended, hsuccess⟩ := left_spec h hlt hnone raised
  have hempty := left_empty h hlt hnone raised
  unfold MultiProc.finish
  by_cases hlast : (left s task raised).task = ∅
  · rw [if_pos hlast]
    have hgood : ∀ caller, caller ≠ Caller.waiting → Good { left s task raised with caller := caller } :=
      fun caller hne => ⟨htask, hended, hsuccess, fun hw => absurd hw hne⟩
    have hall : ∀ i < s.forked, (left s task raised).ended i ≠ none := fun i hi hno => by
      have hmem := (htask i).2 ⟨hi, hno⟩
      rw [hlast] at hmem
      exact Finset.notMem_empty i hmem
    unfold wakeup
    have hcaller : (left s task raised).caller = s.caller := rfl
    rw [hcaller]
    cases hc : s.caller with
    | running => exact absurd hc hrun
    | asleep =>
      exact ⟨hgood .running (by decide), ⟨fun _ => ⟨rfl, hempty.1 hlast⟩, fun _ => rfl⟩, fun r hr => by cases hr⟩
    | calling =>
      have hkeep := hgood s.caller (by rw [hc]; decide)
      exact ⟨hkeep, ⟨fun hw => (by cases hw), fun hw => (by cases hw.1)⟩, fun r hr => by cases hr⟩
    | waiting =>
      refine ⟨hgood .running (by decide), ⟨fun hw => (by cases hw), fun hw => (by cases hw.1)⟩, fun r hr => ⟨hall, ?_⟩⟩
      obtain rfl := Effect.returned.inj hr
      rw [Bool.not_eq_true', hsuccess]
  · rw [if_neg hlast]
    exact ⟨⟨htask, hended, hsuccess, fun _ => hlast⟩, ⟨fun hw => (by cases hw), fun hw => absurd (hempty.2 hw.2) hlast⟩,
      fun r hr => by cases hr⟩

theorem joined_of_nothing {e : Event} (h : (act s e).2 = .nothing) : Joined s e where
  woken hw := by
    rw [h] at hw
    cases hw
  all r hr := by
    rw [h] at hr
    cases hr
  raised r hr := by
    rw [h] at hr
    cases hr

theorem Good.turn (h : Good s) {was is : Caller} (hne : is ≠ .waiting) :
    Good (if s.caller = was then { s with caller := is } else s) := by
  split
  · exact h.setCaller hne
  · exact h

/-- **`wait` returns at once if there is no task**, and does not say then that one has raised. -/
theorem Good.wait (h : Good s) : Good (MultiProc.wait s).1 ∧ (MultiProc.wait s).2 ≠ .woken ∧
    ∀ r, (MultiProc.wait s).2 = .returned r → s.task = ∅ ∧ r = false ∧ (MultiProc.wait s).1 = s := by
  unfold MultiProc.wait
  by_cases hempty : s.task = ∅
  · rw [if_neg (not_not.2 hempty)]
    exact ⟨h, fun hw => (by cases hw), fun r hr => ⟨hempty, (Effect.returned.inj hr).symm, rfl⟩⟩
  · rw [if_pos hempty]
    exact ⟨⟨h.task, h.ended, h.success, fun _ => hempty⟩, fun hw => (by cases hw), fun r hr => (by cases hr)⟩

theorem Good.joined_wait (h : Good s) : Good (step s .wait) ∧ (Joined s .wait ↔ Fits s .wait) := by
  by_cases hrun : s.caller = .running
  · have hact : act s .wait = MultiProc.wait s := if_pos hrun
    obtain ⟨hgood, hwoken, hret⟩ := h.wait
    refine ⟨?_, ?_⟩
    · show Good (act s .wait).1
      rw [hact]
      exact hgood
    constructor
    · rintro hj ⟨-, hempty, hfail⟩
      have hreturned : (act s .wait).2 = .returned false := by
        rw [hact, MultiProc.wait, if_neg (not_not.2 hempty)]
      have hsame : step s .wait = s := (congrArg Prod.fst hact).trans (hret false (by rw [← hact]; exact hreturned)).2.2
      have hraised := hj.raised false hreturned
      rw [hsame] at hraised
      exact absurd (hraised.2 (h.success.1 hfail)) Bool.false_ne_true
    · intro hfits
      refine ⟨by rw [hact]; exact hwoken, fun r hr => ?_, fun r hr => ?_⟩
      · rw [hact] at hr
        obtain ⟨hempty, -, hsame⟩ := hret r hr
        have hstep : step s .wait = s := (congrArg Prod.fst hact).trans hsame
        rw [hstep]
        intro i hi hnone
        have hmem := (h.task i).2 ⟨hi, hnone⟩
        rw [hempty] at hmem
        exact Finset.notMem_empty i hmem
      · rw [hact] at hr
        obtain ⟨hempty, rfl, hsame⟩ := hret r hr
        have hstep : step s .wait = s := (congrArg Prod.fst hact).trans hsame
        rw [hstep, ← h.success]
        exact iff_of_false Bool.false_ne_true (fun hfail => hfits ⟨hrun, hempty, hfail⟩)
  · have hact : act s .wait = (s, .nothing) := if_neg hrun
    refine ⟨?_, iff_of_true (joined_of_nothing (congrArg Prod.snd hact)) (fun hno => hrun hno.1)⟩
    show Good (act s .wait).1
    rw [hact]
    exact h

theorem Good.joined_finish (h : Good s) (task : ℕ) (raised : Bool) :
    Good (step s (.finish task raised)) ∧ (Joined s (.finish task raised) ↔ Fits s (.finish task raised)) := by
  by_cases hok : s.caller ≠ .running ∧ task < s.forked ∧ s.ended task = none
  · have hact : act s (.finish task raised) = MultiProc.finish s task raised := if_pos hok
    obtain ⟨hgood, hwoken, hret⟩ := h.finish hok.1 hok.2.1 hok.2.2 raised
    rw [← hact] at hgood hwoken hret
    exact ⟨hgood, fun hj hno => hj.woken (hwoken.2 hno), fun hfits => ⟨fun hw => hfits (hwoken.1 hw),
      fun r hr => (hret r hr).1, fun r hr => (hret r hr).2⟩⟩
  · have hact : act s (.finish task raised) = (s, .nothing) := if_neg hok
    refine ⟨?_, iff_of_true (joined_of_nothing (congrArg Prod.snd hact)) ?_⟩
    · show Good (act s (.finish task raised)).1
      rw [hact]
      exact h
    · rintro ⟨hasleep, htask⟩
      have hmem := (h.task task).1 (htask ▸ Finset.mem_singleton_self task)
      exact hok ⟨by rw [hasleep]; decide, hmem⟩

theorem joined_iff (h : Good s) (e : Event) : Good (step s e) ∧ (Joined s e ↔ Fits s e) := by
  cases e with
  | fork => exact ⟨h.fork, iff_of_true (joined_of_nothing rfl) trivial⟩
  | sleep => exact ⟨h.turn (by decide), iff_of_true (joined_of_nothing rfl) trivial⟩
  | awake => exact ⟨h.turn (by decide), iff_of_true (joined_of_nothing rfl) trivial⟩
  | call => exact ⟨h.turn (by decide), iff_of_true (joined_of_nothing rfl) trivial⟩
  | answer => exact ⟨h.turn (by decide), iff_of_true (joined_of_nothing rfl) trivial⟩
  | wait => exact h.joined_wait
  | finish task raised => exact h.joined_finish task raised

/-- **The tasks are joined as they should be exactly if each event fits**, in whatever order they come. -/
theorem joined_iff_of_run (es : List Event) : Steps.Along step Joined new es ↔ Steps.Along step Fits new es :=
  Steps.along_iff (I := Good) (fun _ e h => ⟨(joined_iff h e).2, fun _ => (joined_iff h e).1⟩) es new good_new

def sleepFirst : List Event := [.fork, .sleep, .finish 0 true, .wait]

theorem sleep_woken : ¬ Steps.Along step Joined new sleepFirst ∧
    (act ((sleepFirst.take 2).foldl step new) (.finish 0 true)).2 = .woken ∧
    (act ((sleepFirst.take 3).foldl step new) .wait).2 = .returned false := by
  have hwoken : (act ((sleepFirst.take 2).foldl step new) (.finish 0 true)).2 = .woken := by decide
  exact ⟨fun h => h.2.2.1.woken hwoken, hwoken, by decide⟩

end MultiProc
end Sncpp
