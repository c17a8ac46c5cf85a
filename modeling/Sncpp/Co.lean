import Mathlib.Logic.Function.Basic
/-!
# Co — coroutines that switch only where they wait

A service of one thread runs many coroutines over one shared state.  A coroutine keeps the thread until it waits for
an answer (`call`) or for its turn on a serial queue (`enter`, `take`); between two waits it is atomic.  `Prog` is the
text of such a coroutine, `exec` runs it up to its next wait, and `Sys.run` interleaves any number of them.
-/
namespace Sncpp
namespace Co

/-- A serial queue: the holder, its nesting depth and the threads waiting for it, in order. -/
structure Queue where
  current : Option Nat
  ref : Nat
  waiting : List Nat
deriving DecidableEq

def Queue.empty : Queue := ⟨none, 0, []⟩

def Queue.idle (q : Queue) : Bool := q.current.isNone

/-- The holder goes in; a thread that finds another one inside is refused. -/
def Queue.join (q : Queue) (c : Nat) : Option Queue :=
  match q.current with
  | none => some ⟨some c, q.ref + 1, q.waiting⟩
  | some d => if d = c then some ⟨some c, q.ref + 1, q.waiting⟩ else none

def Queue.await (q : Queue) (c : Nat) : Queue := { q with waiting := q.waiting ++ [c] }

/-- Leaving once; the last leave hands the queue to the next thread. -/
def Queue.release (q : Queue) : Queue :=
  if q.ref - 1 = 0 then ⟨q.waiting.head?, 0, q.waiting.tail⟩ else { q with ref := q.ref - 1 }

/-- A coroutine over the state `σ`, queues named by `κ`, requests `χ` answered by `ρ`. -/
inductive Prog (σ κ χ ρ α : Type) : Type where
  | ret (a : α)
  | err (msg : String)
  | act (f : σ → σ) (k : σ → Prog σ κ χ ρ α)
  | mark (p : σ → (κ → Queue) → Bool) (k : Prog σ κ χ ρ α)
  | call (q : χ) (k : ρ → Prog σ κ χ ρ α)
  | enter (q : κ) (k : Prog σ κ χ ρ α)
  | take (q : κ) (f : σ → σ) (k : Prog σ κ χ ρ α)
  | poke (q : κ) (f : σ → σ) (k : Prog σ κ χ ρ α)
  | leave (q : κ) (k : Prog σ κ χ ρ α)

namespace Prog

variable {σ κ χ ρ α β : Type}

/-- One program after another; an error skips the rest. -/
def bind : Prog σ κ χ ρ α → (α → Prog σ κ χ ρ β) → Prog σ κ χ ρ β
  | ret a, g => g a
  | err m, _ => err m
  | act f k, g => act f (fun s => (k s).bind g)
  | mark p k, g => mark p (k.bind g)
  | call q k, g => call q (fun r => (k r).bind g)
  | enter q k, g => enter q (k.bind g)
  | take q f k, g => take q f (k.bind g)
  | poke q f k, g => poke q f (k.bind g)
  | leave q k, g => leave q (k.bind g)

instance : Monad (Prog σ κ χ ρ) where
  pure := ret
  bind := bind

/-- A protected call: an error is caught and returned. -/
def xpcall : Prog σ κ χ ρ α → Prog σ κ χ ρ (Except String α)
  | ret a => ret (.ok a)
  | err m => ret (.error m)
  | act f k => act f (fun s => (k s).xpcall)
  | mark p k => mark p k.xpcall
  | call q k => call q (fun r => (k r).xpcall)
  | enter q k => enter q k.xpcall
  | take q f k => take q f k.xpcall
  | poke q f k => poke q f k.xpcall
  | leave q k => leave q k.xpcall

/-- The result of a protected call, raised again if it was an error. -/
def raise : Except String α → Prog σ κ χ ρ α
  | .ok a => ret a
  | .error m => err m

def get : Prog σ κ χ ρ σ := act id ret

def modify (f : σ → σ) : Prog σ κ χ ρ Unit := act f (fun _ => ret ())

def check (p : σ → (κ → Queue) → Bool) : Prog σ κ χ ρ Unit := mark p (ret ())

def ask (q : χ) : Prog σ κ χ ρ ρ := call q ret

/-- A program run only if `b`. -/
def when (b : Bool) (p : Prog σ κ χ ρ Unit) : Prog σ κ χ ρ Unit := if b then p else ret ()

/-- What a held queue runs: the body, then the release, then the body's own outcome. -/
def inside (q : κ) (body : Prog σ κ χ ρ α) : Prog σ κ χ ρ α :=
  body.xpcall.bind (fun r => leave q (raise r))

/-- Running a body through a queue. -/
def serial (q : κ) (body : Prog σ κ χ ρ α) : Prog σ κ χ ρ α := enter q (inside q body)

/-- Changing the state, then running a body through a queue. -/
def serialTake (q : κ) (f : σ → σ) (body : Prog σ κ χ ρ α) : Prog σ κ χ ρ α := take q f (inside q body)

/-- A program run alone: every queue is free, nothing else moves, and a request gets the answer `ans` gives. -/
def solo (ans : χ → ρ) : Prog σ κ χ ρ α → σ → Except String α × σ
  | ret a, s => (.ok a, s)
  | err m, s => (.error m, s)
  | act f k, s => (k s).solo ans (f s)
  | mark _ k, s => k.solo ans s
  | call q k, s => (k (ans q)).solo ans s
  | enter _ k, s => k.solo ans s
  | take _ f k, s => k.solo ans (f s)
  | poke _ f k, s => k.solo ans (f s)
  | leave _ k, s => k.solo ans s

end Prog

/-- Where a coroutine waits. -/
inductive Susp (σ κ χ ρ : Type) : Type where
  | calling (q : χ) (k : ρ → Prog σ κ χ ρ Unit)
  | waiting (q : κ) (k : Prog σ κ χ ρ Unit)

/-- What a running coroutine sees and changes. -/
structure Cfg (σ κ : Type) where
  st : σ
  sq : κ → Queue
  clean : Bool

variable {σ κ χ ρ ο ε : Type} [DecidableEq κ]

/-- Entering a queue: inside at once, or behind the others. -/
def goIn (c : Nat) (q : κ) (g : Cfg σ κ) : Option (Cfg σ κ) :=
  ((g.sq q).join c).map (fun q' => { g with sq := Function.update g.sq q q' })

def goBehind (c : Nat) (q : κ) (g : Cfg σ κ) : Cfg σ κ :=
  { g with sq := Function.update g.sq q ((g.sq q).await c) }

/-- A coroutine up to its next wait. -/
def exec (c : Nat) : Prog σ κ χ ρ Unit → Cfg σ κ → Cfg σ κ × Option (Susp σ κ χ ρ)
  | .ret _, g => (g, none)
  | .err _, g => (g, none)
  | .act f k, g => exec c (k g.st) { g with st := f g.st }
  | .mark p k, g => exec c k { g with clean := g.clean && p g.st g.sq }
  | .call q k, g => (g, some (.calling q k))
  | .enter q k, g =>
    match goIn c q g with
    | some g' => exec c k g'
    | none => (goBehind c q g, some (.waiting q k))
  | .take q f k, g =>
    let g₁ : Cfg σ κ := { g with st := f g.st, clean := g.clean && (g.sq q).idle }
    match goIn c q g₁ with
    | some g' => exec c k g'
    | none => (goBehind c q g₁, some (.waiting q k))
  | .poke q f k, g => exec c k { g with st := f g.st, clean := g.clean && (g.sq q).idle }
  | .leave q k, g => exec c k { g with sq := Function.update g.sq q (g.sq q).release }

/-- The service: its shared state and queues, the coroutines that wait, and the next coroutine's number. -/
structure World (σ κ χ ρ : Type) extends Cfg σ κ where
  co : Nat → Option (Susp σ κ χ ρ)
  next : Nat

/-- What can happen next: a request arrives, an answer arrives, a thread's turn on a queue comes, the outside moves. -/
inductive Event (ο ρ ε : Type) where
  | start (o : ο)
  | reply (c : Nat) (r : ρ)
  | wake (c : Nat)
  | env (e : ε)

/-- A system: what each request runs, which answers a request may get, and the outside's moves. -/
structure Sys (σ κ χ ρ ο ε : Type) where
  prog : ο → Prog σ κ χ ρ Unit
  may : χ → ρ → Bool
  env : ε → σ → σ

def World.init (s : σ) : World σ κ χ ρ :=
  { st := s, sq := fun _ => .empty, clean := true, co := fun _ => none, next := 0 }

/-- Coroutine `c` runs `p` up to its next wait. -/
def World.advance (w : World σ κ χ ρ) (c : Nat) (p : Prog σ κ χ ρ Unit) : World σ κ χ ρ :=
  let r := exec c p w.toCfg
  { toCfg := r.1, co := Function.update w.co c r.2, next := w.next }

def Sys.step (S : Sys σ κ χ ρ ο ε) (w : World σ κ χ ρ) : Event ο ρ ε → Option (World σ κ χ ρ)
  | .start o => some (({ w with next := w.next + 1 }).advance w.next (S.prog o))
  | .reply c r =>
    match w.co c with
    | some (.calling q k) => if S.may q r then some (w.advance c (k r)) else none
    | _ => none
  | .wake c =>
    match w.co c with
    | some (.waiting q k) =>
      -- only the thread the last release named goes in
      if (w.sq q).current = some c then
        some (({ w with sq := Function.update w.sq q { w.sq q with ref := (w.sq q).ref + 1 } }).advance c k)
      else none
    | _ => none
  | .env e => some { w with st := S.env e w.st }

def Sys.run (S : Sys σ κ χ ρ ο ε) : World σ κ χ ρ → List (Event ο ρ ε) → Option (World σ κ χ ρ)
  | w, [] => some w
  | w, e :: es => (S.step w e).bind (fun w' => S.run w' es)

/-- What an event makes of a world. -/
inductive Sys.Takes (S : Sys σ κ χ ρ ο ε) (w : World σ κ χ ρ) : Event ο ρ ε → World σ κ χ ρ → Prop
  | start (o : ο) : S.Takes w (.start o) (({ w with next := w.next + 1 }).advance w.next (S.prog o))
  | reply {c : Nat} {q : χ} {k : ρ → Prog σ κ χ ρ Unit} {r : ρ} (hk : w.co c = some (.calling q k))
      (hmay : S.may q r = true) : S.Takes w (.reply c r) (w.advance c (k r))
  | wake {c : Nat} {q : κ} {k : Prog σ κ χ ρ Unit} (hk : w.co c = some (.waiting q k))
      (hcur : (w.sq q).current = some c) : S.Takes w (.wake c)
        (({ w with sq := Function.update w.sq q { w.sq q with ref := (w.sq q).ref + 1 } }).advance c k)
  | env (e : ε) : S.Takes w (.env e) { w with st := S.env e w.st }

theorem Sys.takes {S : Sys σ κ χ ρ ο ε} {w w' : World σ κ χ ρ} {e : Event ο ρ ε} (h : S.step w e = some w') :
    S.Takes w e w' := by
  cases e with
  | start o =>
    cases h
    exact .start o
  | reply c r =>
    simp only [step] at h
    split at h
    · next hk =>
      split at h
      · next hmay =>
        cases h
        exact .reply hk hmay
      · cases h
    · cases h
  | wake c =>
    simp only [step] at h
    split at h
    · next hk =>
      split at h
      · next hcur =>
        cases h
        exact .wake hk hcur
      · cases h
    · cases h
  | env e =>
    cases h
    exact .env e

theorem Sys.run_keeps {S : Sys σ κ χ ρ ο ε} {I : World σ κ χ ρ → Prop}
    (h : ∀ w e w', S.Takes w e w' → I w → I w') : ∀ (es : List (Event ο ρ ε)) (w w' : World σ κ χ ρ), I w →
    S.run w es = some w' → I w'
  | [], _, _, hw, hrun => by cases hrun; exact hw
  | e :: es, w, w', hw, hrun => by
    obtain ⟨w₁, hstep, hrun⟩ := Option.bind_eq_some_iff.1 hrun
    exact Sys.run_keeps h es w₁ w' (h w e w₁ (Sys.takes hstep) hw) hrun

/-- No coroutine waits anywhere: every operation that started has ended. -/
def World.quiet (w : World σ κ χ ρ) : Bool := (List.range w.next).all (fun c => (w.co c).isNone)

end Co
end Sncpp
