import Mathlib.Data.List.AList
import Sncpp.Co
/-!
# AgentPool — the pool of player agents (`agentPoolCenter`, `agentPoolMgr`, `agentPoolCell`)

The pool keeps a cell for each player with an agent.  A cell launches the agent, forwards calls to it and lets it go;
all of that runs through the cell's queue.  `startAgent` puts a new cell into the pool when it found none there, and
the cells leave the pool when the agent went (`safeFree`), when the gate logs the player out, and ten seconds after a
failed start.
-/
namespace Sncpp
namespace AgentPool

open Co (Prog)
open Co.Prog (get modify check ask when serial serialTake)

inductive Status where
  | init
  | work
  | free
deriving DecidableEq

/-- `agentPoolCell`.  `launching` is the agent whose launch the cell waits for. -/
structure Cell where
  uid : Option Nat
  subid : Option Nat
  kid : Option Nat
  online : Option Bool
  agent : Option Nat
  status : Status
  gate : Option Nat
  launching : Option Nat
deriving DecidableEq

def Cell.new : Cell := ⟨none, none, none, some false, none, .init, none, none⟩

/-- An agent service that has not exited; `leaving` once it was told to go. -/
structure Agent where
  id : Nat
  uid : Option Nat
  leaving : Bool
deriving DecidableEq

/-- The pool service.  `pending` are the failed starts to be dealt with.  No code reads `owner`, the players for whom the
cells were made, and `told`, the players whose agents were sent something, the last first. -/
structure Pool where
  agentPool : AList (fun _ : Nat => Nat)
  agentNum : Int
  cells : Nat → Cell
  nextCell : Nat
  agents : List Agent
  nextAgent : Nat
  pending : List (Nat × Nat)
  lock : Nat → Bool
  hotFixes : Bool
  stoping : Bool
  owner : Nat → Nat
  told : List (Option Nat)

def Pool.start : Pool := ⟨∅, 0, fun _ => .new, 0, [], 0, [], fun _ => false, false, false, fun _ => 0, []⟩

inductive Cmd where
  | login
  | hotFix
  | checkin
  | afk
  | safeFree
  | other
deriving DecidableEq

inductive Req where
  | getKidOfUid (uid : Nat)
  | newservice (kid uid : Option Nat)
  | agent (a : Nat) (cmd : Cmd)
  | gateLogout
  | dataLogout
  | mailAfk
  | mailLogout
  | lock (uid : Nat)
deriving DecidableEq

inductive Reply where
  | raised
  | nil
  | bool (b : Bool)
  | num (n : Nat)
deriving DecidableEq

abbrev PoolCo (α : Type) : Type := Prog Pool Nat Req Reply α

def Pool.setCell (s : Pool) (i : Nat) (f : Cell → Cell) : Pool :=
  { s with cells := Function.update s.cells i (f (s.cells i)) }

/-- A message is sent to the agent, and reaches it unless it has exited. -/
def Pool.tell (s : Pool) (a : Nat) : Pool :=
  { s with told := (s.agents.filter (fun b => b.id = a)).map Agent.uid ++ s.told }

def Pool.dismiss (s : Pool) (a : Nat) : Pool :=
  { s with agents := s.agents.map (fun b => if b.id = a then { b with leaving := true } else b) }

def Pool.removeAgent (s : Pool) (uid : Nat) : Pool :=
  if (s.agentPool.lookup uid).isSome then
    { s with agentPool := s.agentPool.erase uid, agentNum := s.agentNum - 1 }
  else s

def Pool.addCell (s : Pool) (uid : Nat) : Pool :=
  { s with
    agentPool := s.agentPool.insert uid s.nextCell
    agentNum := s.agentNum + 1
    nextCell := s.nextCell + 1
    owner := Function.update s.owner s.nextCell uid }

def Pool.launch (s : Pool) (i : Nat) (uid : Option Nat) : Pool :=
  { s.setCell i (fun c => { c with launching := some s.nextAgent }) with
    agents := ⟨s.nextAgent, uid, false⟩ :: s.agents, nextAgent := s.nextAgent + 1 }

def Pool.launched (s : Pool) (i : Nat) : Pool :=
  s.setCell i (fun c => { c with agent := c.launching, launching := none })

def Pool.abandon (s : Pool) (i : Nat) : Pool :=
  { s.setCell i (fun c => { c with launching := none }) with
    agents := s.agents.filter (fun a => some a.id ≠ (s.cells i).launching) }

def Pool.dismissOf (s : Pool) (i : Nat) : Pool :=
  match (s.cells i).agent with
  | some a => (s.tell a).dismiss a
  | none => s

def Pool.logoutCell (s : Pool) (i : Nat) : Pool :=
  (s.dismissOf i).setCell i (fun c =>
    let c := { c with agent := none, status := .init }
    if c.gate.isSome && c.subid.isSome then { c with gate := none, subid := none, online := none } else c)

/-- The cell is the one pooled for the player, and no agent of the player is still on its way out. -/
def Pool.mayLaunch (s : Pool) (i : Nat) (uid : Option Nat) : Bool :=
  uid.bind (fun u => s.agentPool.lookup u) = some i && s.agents.all (fun a => !(a.uid = uid && a.leaving))

/-- The cell pooled for the player launches no agent, and has none that was not told to go. -/
def Pool.mayRemove (s : Pool) (uid : Nat) : Bool :=
  match s.agentPool.lookup uid with
  | none => true
  | some i => (s.cells i).launching.isNone &&
      s.agents.all (fun a => !(some a.id = (s.cells i).agent && !a.leaving))

def Pool.isGoing (s : Pool) (a : Nat) : Bool := s.agents.all (fun b => !(b.id = a && !b.leaving))

/-- `skynet.call`: an answer, or an error. -/
def call (q : Req) : PoolCo Reply := do
  let r ← ask q
  if r = .raised then .err "call failed" else pure r

def callOf (i : Nat) (cmd : Cmd) : PoolCo Reply := do
  let s ← get
  match (s.cells i).agent with
  | some a => do
    modify (fun s => s.tell a)
    call (.agent a cmd)
  | none => .err "call to nil"

def hotFix (i : Nat) : PoolCo Unit := do
  let s ← get
  if s.hotFixes && (s.cells i).agent.isSome then
    let _ ← (callOf i .hotFix).xpcall
    pure ()
  else pure ()

/-- The end of `agentPoolCell:login`, with the agent launched. -/
def loginAgent (i : Nat) : PoolCo Bool := do
  hotFix i
  let r ← callOf i .login
  if r = .bool true then
    modify (fun s => s.setCell i (fun c => { c with status := .work }))
    pure true
  else pure false

def launchAgent (i : Nat) (uid kid : Option Nat) : PoolCo Bool := do
  check (fun s _ => s.mayLaunch i uid)
  modify (fun s => s.launch i uid)
  let r ← ask (.newservice kid uid)
  if r = .raised then
    modify (fun s => s.abandon i)
    .err "newservice failed"
  else
    modify (fun s => s.launched i)
    loginAgent i

def loginBody (i : Nat) (uid kid : Option Nat) (subid : Nat) : PoolCo Bool := do
  let s ← get
  if s.stoping then pure false
  else if (s.cells i).status ≠ .init then pure false
  else
    modify (fun s => s.setCell i (fun c => { c with uid := uid, subid := some subid, kid := kid }))
    if (s.cells i).agent.isSome then pure false else launchAgent i uid kid

def login (i : Nat) (uid kid : Option Nat) (subid : Nat) : PoolCo Bool := serial i (loginBody i uid kid subid)

def checkinBody (i gate uid subid kid : Nat) : PoolCo Unit := do
  let s ← get
  let c := s.cells i
  if c.gate.isSome && c.uid.isSome && c.subid.isSome && (c.uid ≠ some uid || c.kid ≠ some kid) then
    modify (fun s => (s.dismissOf i).setCell i (fun c =>
      { c with gate := none, subid := none, agent := none, online := none, status := .init }))
    .err "agentPoolCell:checkin error!"
  else if c.status ≠ .work then .err "assertion failed!"
  else
    modify (fun s => s.setCell i (fun c =>
      { c with gate := some gate, uid := some uid, subid := some subid, kid := some kid }))
    let _ ← callOf i .checkin
    modify (fun s => s.setCell i (fun c => { c with online := some true }))

def checkin (i gate uid subid kid : Nat) : PoolCo Unit := serial i (checkinBody i gate uid subid kid)

def afkBody (i : Nat) : PoolCo Unit := do
  let s ← get
  if (s.cells i).online = none then pure ()
  else
    modify (fun s => s.setCell i (fun c => { c with online := none }))
    let _ ← callOf i .afk
    pure ()

def afk (i : Nat) : PoolCo Unit := serial i (afkBody i)

def logoutBody (i : Nat) : PoolCo Unit := do
  modify (fun s => s.logoutCell i)
  let _ ← call .mailAfk
  let _ ← call .dataLogout
  pure ()

def logoutOf (i : Nat) : PoolCo Unit := do
  modify (fun s => s.setCell i (fun c => { c with status := .free }))
  serial i (logoutBody i)

/-- `removeAgent`, with the condition under which nothing is lost by it. -/
def remove : Option Nat → PoolCo Unit
  | none => pure ()
  | some uid => do
    check (fun s _ => s.mayRemove uid)
    modify (fun s => s.removeAgent uid)

/-- The end of `safeFree`, for a cell without an agent. -/
def freeCell (i : Nat) : PoolCo Bool := do
  let s ← get
  remove (s.cells i).uid
  let _ ← call .dataLogout
  pure true

def leaveGate (i : Nat) : PoolCo Unit := do
  let s ← get
  if (s.cells i).gate.isSome && (s.cells i).subid.isSome then
    let _ ← call .gateLogout
    modify (fun s => s.setCell i (fun c => { c with gate := none, subid := none }))
  else pure ()

def safeFreeBody (i : Nat) : PoolCo Bool := do
  let s ← get
  if (s.cells i).online = some true && !s.stoping then pure false
  else
    match (s.cells i).agent with
    | none => freeCell i
    | some a =>
      modify (fun s => s.tell a)
      let r ← ask (.agent a .safeFree)
      if r = .bool false then pure false
      else
        -- an error counts as a success
        when (r = .bool true) (modify (fun s => s.dismiss a))
        check (fun s _ => s.isGoing a)
        modify (fun s => s.setCell i (fun c => { c with agent := none }))
        leaveGate i
        modify (fun s => s.setCell i (fun c => { c with status := .init }))
        freeCell i

def safeFree (i : Nat) : PoolCo Bool := serial i (safeFreeBody i)

def forward (a : Nat) (wait : Bool) : PoolCo Unit := do
  modify (fun s => s.tell a)
  if wait then
    let _ ← call (.agent a .other)
    pure ()
  else pure ()

/-- `agentPoolCell:call` (`wait`) and `send`. -/
def forwardTo (i : Nat) (wait : Bool) : PoolCo Unit := do
  let s ← get
  let c := s.cells i
  if c.status = .work && !s.stoping then
    match c.agent with
    | some a => forward a wait
    | none => pure ()
  else
    (if c.agent.isNone then do
        let _ ← login i c.uid c.kid 0
        pure ()
      else pure () : PoolCo Unit)
    serial i (do
      let s ← get
      match (s.cells i).agent with
      | some a => forward a wait
      | none => pure ())

section Kid

variable (myKid : Nat)

def startAgent (uid subid kid : Nat) : PoolCo (Option Nat) := do
  if uid = 0 then pure none
  else
    let s ← get
    match s.agentPool.lookup uid with
    | some i => pure (some i)
    | none =>
      let r ← call (.getKidOfUid uid)
      let kid2 := match r with
        | .num n => n
        | _ => kid
      if kid2 ≠ kid || kid2 ≠ myKid then pure none
      else
        let s ← get
        let i := s.nextCell
        check (fun s _ => (s.agentPool.lookup uid).isNone)
        modify (fun s => s.addCell uid)
        let r ← (login i (some uid) (some kid) subid).xpcall
        match r with
        | .ok true => pure (some i)
        | _ =>
          modify (fun s => { s with pending := (i, uid) :: s.pending })
          pure none

/-- What `startAgent` does ten seconds after a failed start. -/
def fixStart (i uid : Nat) : PoolCo Unit := do
  let s ← get
  if (i, uid) ∈ s.pending then
    modify (fun s => { s with pending := s.pending.erase (i, uid) })
    if (s.cells i).status = .work then pure ()
    else
      modify (fun s => s.dismissOf i)
      remove (some uid)
  else pure ()

/-- `callAgent` (`wait`) and `sendAgent`. -/
def callAgent (uid : Nat) (wait : Bool) : PoolCo Unit := do
  let c ← startAgent myKid uid 0 myKid
  match c with
  | some i => forwardTo i wait
  | none => pure ()

def centerLogin (gate uid subid kid : Nat) : PoolCo Unit := do
  let s ← get
  (if s.lock uid then do
      let _ ← call (.lock uid)
      pure ()
    else pure () : PoolCo Unit)
  let c ← startAgent myKid uid subid kid
  match c with
  | some i => checkin i gate uid subid kid
  | none => pure ()

end Kid

/-- `callOnlineAgent` (`wait`), `sendOnlineAgent` and `notifyMsg`. -/
def callOnlineAgent (uid : Nat) (wait : Bool) : PoolCo Unit := do
  let s ← get
  match s.agentPool.lookup uid with
  | some i => if (s.cells i).online = some true then forwardTo i wait else pure ()
  | none => pure ()

/-- `agentPoolCenter:logout`: the cell leaves the pool, then logs out through its queue. -/
def centerLogout (uid : Nat) : PoolCo Unit := do
  let s ← get
  match s.agentPool.lookup uid with
  | none => pure ()
  | some i =>
    serialTake i (fun s => (s.removeAgent uid).setCell i (fun c => { c with status := .free })) (logoutBody i)

def centerAfk (uid : Nat) : PoolCo Unit := do
  let s ← get
  match s.agentPool.lookup uid with
  | some i => afk i
  | none => pure ()

def timerCallback (uid : Nat) : PoolCo Unit := do
  let s ← get
  match s.agentPool.lookup uid with
  | some i => do
    let _ ← safeFree i
    pure ()
  | none => pure ()

def migrateOut (uid : Nat) : PoolCo Unit := do
  modify (fun s => { s with lock := Function.update s.lock uid true })
  let _ ← call (.lock uid)
  let s ← get
  (match s.agentPool.lookup uid with
    | some i => do
      logoutOf i
      let _ ← (call .gateLogout).xpcall
      pure ()
    | none => pure () : PoolCo Unit)
  let _ ← call .mailLogout
  let _ ← (call .dataLogout).xpcall
  modify (fun s => { s with lock := Function.update s.lock uid false })

def stopAgent (uid : Nat) : PoolCo Unit := do
  let s ← get
  match s.agentPool.lookup uid with
  | some i =>
    if (s.cells i).online = some true then afk i
    else do
      let _ ← safeFree i
      pure ()
  | none => pure ()

inductive Op where
  | callAgent (uid : Nat) (wait : Bool)
  | callOnlineAgent (uid : Nat) (wait : Bool)
  | login (gate uid subid kid : Nat)
  | logout (uid : Nat)
  | afk (uid : Nat)
  | removeAgent (uid : Nat)
  | migrateOut (uid : Nat)
  | timerCallback (uid : Nat)
  | fixStart (i uid : Nat)
  | hotFix
  | stop
  | stopAgent (uid : Nat)

def Op.prog (myKid : Nat) : Op → PoolCo Unit
  | .callAgent uid wait => AgentPool.callAgent myKid uid wait
  | .callOnlineAgent uid wait => AgentPool.callOnlineAgent uid wait
  | .login gate uid subid kid => centerLogin myKid gate uid subid kid
  | .logout uid => centerLogout uid
  | .afk uid => centerAfk uid
  | .removeAgent uid => remove (some uid)
  | .migrateOut uid => AgentPool.migrateOut uid
  | .timerCallback uid => AgentPool.timerCallback uid
  | .fixStart i uid => AgentPool.fixStart i uid
  | .hotFix => modify (fun s => { s with hotFixes := true })
  | .stop => modify (fun s => { s with stoping := true })
  | .stopAgent uid => AgentPool.stopAgent uid

def Pool.exit (a : Nat) (s : Pool) : Pool := { s with agents := s.agents.filter (fun b => !(b.id = a && b.leaving)) }

def poolSys (myKid : Nat) : Co.Sys Pool Nat Req Reply Op Nat := ⟨Op.prog myKid, fun _ _ => true, Pool.exit⟩

end AgentPool
end Sncpp
