import Sncpp.CoDesk
/-!
# Centre — the serial queues of a service centre (`serviceCenterBase2`)

Every service centre keeps one serial queue an id.  `getSq` makes the missing ones and winds a timer of 180 seconds,
and `delSq`, called by the timer or by the service itself, takes the queue out of the table, whether it is in use or
not.  The timers are those of `timerMgr` over a `scheduler2`: a table from ids to timer numbers, and the scheduler's
items and their times.
-/
namespace Sncpp
namespace Centre

open Co (Prog Sys Desk World)

/-- The state of a centre's timers (`timerMgr`, `scheduler2`), its clock, and the rest of the service. -/
structure Svc (ι σ : Type) where
  now : Nat
  timerMap : ι → Option Nat
  list : Nat → Option ι
  zset : Nat → Option Nat
  nextID : Nat
  st : σ

/-- What a coroutine waits for: its fork to be run, or an answer to a call of its own. -/
inductive Req (χ : Type) where
  | fork
  | call (q : χ)

abbrev Co (ι σ χ ρ α : Type) : Type := Prog (Svc ι σ) ι (Req χ) ρ α

variable {ι σ χ ρ α β : Type} [DecidableEq ι]

def Svc.start (now : Nat) (st : σ) : Svc ι σ := ⟨now, fun _ => none, fun _ => none, fun _ => none, 1, st⟩

def schedule (endtime : Nat) (id : ι) (s : Svc ι σ) : Svc ι σ :=
  { s with
    list := Function.update s.list s.nextID (some id)
    zset := Function.update s.zset s.nextID (some endtime)
    nextID := s.nextID + 1 }

/-- `scheduler2:reset`: the time alone is set, also where the item is gone. -/
def reset (t newEndtime : Nat) (s : Svc ι σ) : Svc ι σ := { s with zset := Function.update s.zset t (some newEndtime) }

def stop (t : Nat) (s : Svc ι σ) : Svc ι σ :=
  match s.list t with
  | some _ => { s with list := Function.update s.list t none, zset := Function.update s.zset t none }
  | none => s

def updateTimer (id : ι) (endTime : Nat) (s : Svc ι σ) : Svc ι σ :=
  match s.timerMap id with
  | some t => reset t endTime s
  | none => { schedule endTime id s with timerMap := Function.update s.timerMap id (some s.nextID) }

def removeTimer (id : ι) (s : Svc ι σ) : Svc ι σ :=
  match s.timerMap id with
  | some t => { stop t s with timerMap := Function.update s.timerMap id none }
  | none => s

def due (t : Nat) (s : Svc ι σ) : Option ι :=
  match s.zset t with
  | some time => if time ≤ s.now then s.list t else none
  | none => none

/-- `getSq(id)` and running `f` through the queue it returns. -/
def getSq (id : ι) (f : Co ι σ χ ρ α) : Co ι σ χ ρ α := do
  Prog.modify (fun s => updateTimer id (s.now + 180) s)
  Prog.serial id f

/-- `delSq(id)`; a queue and its timer come and go together, so without a queue there is no timer to remove. -/
def delSq (id : ι) : Co ι σ χ ρ Unit := .poke id (removeTimer id) (.ret ())

/-- An expiry: the scheduler forgets the timer and forks its callback, which calls `delSq`. -/
def expire (t : Nat) : Co ι σ χ ρ Unit := do
  let s ← Prog.get
  match due t s with
  | none => pure ()
  | some id =>
    Prog.modify (fun s => { s with list := Function.update s.list t none, zset := Function.update s.zset t none })
    let _ ← Prog.ask .fork
    delSq id

/-- What can begin: a function through the queue of an id, a `delSq`, a timer's end. -/
inductive Op (ι β : Type) where
  | use (id : ι) (f : β)
  | del (id : ι)
  | expire (t : Nat)

/-- A service centre whose functions are `f`; they may call `getSq` and `delSq` themselves. -/
def keySys (f : β → Co ι σ χ ρ Unit) : Sys (Svc ι σ) ι (Req χ) ρ (Op ι β) Nat where
  prog
    | .use id b => getSq id (f b)
    | .del id => delSq id
    | .expire t => expire t
  may _ _ := true
  env n s := { s with now := s.now + n }

def centreSys (f : β → Co ι σ χ ρ Unit) : Sys (Desk (Svc ι σ) ι) (ι × Nat) (Req χ) ρ (Op ι β) Nat := (keySys f).desk

/-- Coroutine `c` runs, or waits for an answer, inside a queue that `getSq` returned for `id`. -/
def Within (w : World (Desk (Svc ι σ) ι) (ι × Nat) (Req χ) ρ) (id : ι) (c : Nat) : Prop :=
  ∃ n, (w.sq (id, n)).current = some c ∧ 0 < (w.sq (id, n)).ref

/-- **As long as every `delSq` finds the queue idle, at most one coroutine is inside the queues of an id**, after any run
of users, expiries and removals. -/
theorem within_unique_of_run (f : β → Co ι σ χ ρ Unit) (s : Svc ι σ) (es : List (Co.Event (Op ι β) ρ Nat))
    {w : World (Desk (Svc ι σ) ι) (ι × Nat) (Req χ) ρ} (hrun : (centreSys f).run (.init (.new s)) es = some w)
    (hclean : w.clean = true) {id : ι} {c c' : Nat} (h : Within w id c) (h' : Within w id c') : c = c' := by
  obtain ⟨n, hc, -⟩ := h
  obtain ⟨n', hc', -⟩ := h'
  exact Co.holder_unique_of_run s es hrun hclean hc hc'

def callOnce (_ : Unit) : Co Nat Unit Unit Unit Unit := do
  let _ ← Prog.ask (.call ())

theorem within_unique_after_expiry : ∃ es w, (centreSys callOnce).run (.init (.new (.start 0 ()))) es = some w ∧
    w.clean = true ∧ Within w 7 2 ∧ ∀ c, Within w 7 c → c = 2 := by
  -- the first function ends, its queue expires, and two more arrive
  obtain ⟨w, hrun, hc, hcur, href⟩ : ∃ w ∈ (centreSys callOnce).run (.init (.new (.start 0 ())))
      [.start (.use 7 ()), .reply 0 (), .env 180, .start (.expire 1), .reply 1 (), .start (.use 7 ()),
        .start (.use 7 ())],
      w.clean = true ∧ (w.sq (7, 1)).current = some 2 ∧ 0 < (w.sq (7, 1)).ref := by
    decide +kernel
  have hin : Within w 7 2 := ⟨1, hcur, href⟩
  exact ⟨_, w, hrun, hc, hin, fun c h => within_unique_of_run _ _ _ hrun hc h hin⟩

/-- **A timer that ends while a function waits inside lets a second one in**: the function calls out for 180 seconds,
the timer's `delSq` drops its queue, and the next user gets a new one. -/
theorem expired_queue_lets_in : ∃ es w, (centreSys callOnce).run (.init (.new (.start 0 ()))) es = some w ∧
    Within w 7 0 ∧ Within w 7 2 := by
  obtain ⟨w, hrun, h1, h2, h3, h4⟩ : ∃ w ∈ (centreSys callOnce).run (.init (.new (.start 0 ())))
      [.start (.use 7 ()), .env 180, .start (.expire 1), .reply 1 (), .start (.use 7 ())],
      (w.sq (7, 0)).current = some 0 ∧ 0 < (w.sq (7, 0)).ref ∧ (w.sq (7, 1)).current = some 2 ∧ 0 < (w.sq (7, 1)).ref := by
    decide +kernel
  exact ⟨_, w, hrun, ⟨0, h1, h2⟩, ⟨1, h3, h4⟩⟩

end Centre
end Sncpp
