import Sncpp.Steps
import Sncpp.StoreSlice
/-!
# StoreStop — the data centre stops

`playerDataCenter:stop` forks a coroutine that reconnects what is down and then looks at the two queues every two
seconds until it sets `stoped`.  Of the redis tasks it reads how many there are, of the database tasks only that there
is a number.
-/
namespace Sncpp
namespace Store

open Co (World Sys)

variable {κ V : Type} [LinearOrder κ]

/-- The requests and the timers of the service, and what `playerDataTimer:stop` runs itself; the drains that it forks are
`dealDb` and `dealRedis`. -/
inductive StopOp (κ V : Type) where
  | op (o : Op κ V)
  | reconnect

def StopOp.prog (conf : Conf κ V) : StopOp κ V → Co κ V Unit
  | .op o => o.prog conf
  | .reconnect => do
    onRedisReconnect
    onDbReconnect

def stopSys (conf : Conf κ V) : Sys (Svc κ V) κ (Req κ V) (Reply V) (StopOp κ V) Nat where
  prog := StopOp.prog conf
  may _ _ := true
  env n s := { s with now := s.now + n }

/-- `co` is the coroutine that `stop` has forked, which loops when its reconnecting is over. -/
structure Centre (κ V : Type) [LinearOrder κ] where
  world : World (Svc κ V) κ (Req κ V) (Reply V)
  stoping : Bool
  stoped : Bool
  co : Option Nat

inductive StopEvent (κ V : Type) where
  | svc (e : Co.Event (StopOp κ V) (Reply V) Nat)
  | stop
  | look (mqlen taskLen : Nat)

/-- A number in a condition is true, 0 as well. -/
def truthy (_ : Nat) : Bool := true

/-- Whether the loop ends when it looks: it does whatever the message queue and the tasks of the service are. -/
def Svc.breaks (s : Svc κ V) (mqlen taskLen : Nat) : Bool :=
  if s.redisTask.count ≤ 0 ∧ truthy s.dbTask.count then
    if 0 < mqlen ∨ 0 < taskLen then true else true
  else false

namespace Centre

variable (conf : Conf κ V) (c : Centre κ V)

def loops : Bool := !c.stoped && c.co.any (fun n => (c.world.co n).isNone)

def step : StopEvent κ V → Centre κ V
  | .svc e =>
    match (stopSys conf).step c.world e with
    | some w => { c with world := w }
    | none => c
  | .stop =>
    if c.stoping then c
    else
      match (stopSys conf).step c.world (.start .reconnect) with
      | some w => { c with world := w, stoping := true, co := some c.world.next }
      | none => c
  | .look mqlen taskLen => if c.loops && c.world.st.breaks mqlen taskLen then { c with stoped := true } else c

def Right (e : StopEvent κ V) : Prop :=
  c.stoped = false → (c.step conf e).stoped = true →
    (c.step conf e).world.st.redisTask.count = 0 ∧ (c.step conf e).world.st.dbTask.count = 0

/-- When the loop finds no redis task, there is no database task. -/
def Kept : StopEvent κ V → Prop
  | .look _ _ => c.loops = true → c.world.st.redisTask.count = 0 → c.world.st.dbTask.count = 0
  | _ => True

instance : ∀ e : StopEvent κ V, Decidable (c.Kept e)
  | .look _ _ => inferInstanceAs (Decidable (c.loops = true → c.world.st.redisTask.count = 0 → c.world.st.dbTask.count = 0))
  | .svc _ => isTrue trivial
  | .stop => isTrue trivial

variable {conf c}

theorem breaks_iff (s : Svc κ V) (mqlen taskLen : Nat) : s.breaks mqlen taskLen = true ↔ s.redisTask.count = 0 := by
  unfold Svc.breaks truthy
  simp

theorem right_iff (e : StopEvent κ V) : c.Right conf e ↔ c.Kept e := by
  cases e with
  | svc e =>
    refine ⟨fun _ => trivial, fun _ hno hyes => ?_⟩
    have hsame : (c.step conf (.svc e)).stoped = c.stoped := by
      unfold Centre.step
      simp only
      split <;> rfl
    rw [hsame, hno] at hyes
    cases hyes
  | stop =>
    refine ⟨fun _ => trivial, fun _ hno hyes => ?_⟩
    have hsame : (c.step conf .stop).stoped = c.stoped := by
      unfold Centre.step
      simp only
      split
      · rfl
      · split <;> rfl
    rw [hsame, hno] at hyes
    cases hyes
  | look mqlen taskLen =>
    have hstep : c.step conf (.look mqlen taskLen) =
        if c.loops && c.world.st.breaks mqlen taskLen then { c with stoped := true } else c := rfl
    constructor
    · intro h hloops hredis
      have hbreaks := (breaks_iff c.world.st mqlen taskLen).2 hredis
      have hno : c.stoped = false := by
        unfold loops at hloops
        simpa using (Bool.and_eq_true_iff.1 hloops).1
      have hright := h hno
      rw [hstep, if_pos (by rw [hloops, hbreaks]; rfl)] at hright
      exact (hright rfl).2
    · intro h hno hyes
      rw [hstep] at hyes ⊢
      split at hyes
      · next hlooks =>
        obtain ⟨hloops, hbreaks⟩ := Bool.and_eq_true_iff.1 hlooks
        have hredis := (breaks_iff c.world.st mqlen taskLen).1 hbreaks
        rw [if_pos hlooks]
        exact ⟨hredis, h hloops hredis⟩
      · rw [hno] at hyes
        cases hyes

/-- **The service stops with both queues empty, in every run, exactly when the loop never finds the redis tasks gone and
database tasks left.** -/
theorem stoped_iff (conf : Conf κ V) (c : Centre κ V) (es : List (StopEvent κ V)) :
    Steps.Along (step conf) (Right conf) c es ↔ Steps.Along (step conf) Kept c es :=
  ⟨Steps.Along.mono (fun _ e => (right_iff e).1) es c, Steps.Along.mono (fun _ e => (right_iff e).2) es c⟩

def fresh : Centre Nat Nat := ⟨.init (.start (fun _ => none) (fun _ => none)), false, false, none⟩

/-- **A write that was accepted is still queued when the service says that it has stopped.** -/
theorem stoped_with_a_task :
    let es : List (StopEvent Nat Nat) := [.svc (.start (.op (.sendUpdate 0 5))), .svc (.reply 0 (.bool true)), .stop,
      .svc (.reply 1 (.bool true)), .svc (.reply 1 (.bool true)), .look 0 0]
    let c := es.foldl (step (.plain .mongodb)) fresh
    c.stoped = true ∧ c.world.st.dbTask.count = 1 ∧
      ¬ Steps.Along (step (.plain .mongodb)) (Right (.plain .mongodb)) fresh es := by
  refine ⟨by decide +kernel, by decide +kernel, fun h => ?_⟩
  have hkept := Steps.Along.mono (fun _ e => (right_iff e).1) _ _ h
  revert hkept
  decide +kernel

end Centre
end Store
end Sncpp
