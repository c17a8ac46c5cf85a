import Sncpp.CoRely
import Sncpp.Mail
/-!
# MailService — the mails in memory and in the store (`playerMailMgr`, `mailDataMgr`)

The service keeps the mail of a player as an object in `memList`, made and loaded on demand through the player's queue and
dropped when the player has been away.  A request finds the object first and changes it later, through the queue again;
every change is saved at once.  The bodies of mails are cached in `mailList` and stored one by one.

An object is a number; it has no data until it is loaded.  The store answers a query with what was last saved when the
query was sent, so `stored` and `bodies` are what was saved.  The queues are looked up by uid and may be dropped, by a
release and by their own timers.
-/
namespace Sncpp
namespace Mail

open Co (Prog Pact Vow Abides)
open Co.Prog (get modify note ask serial)

structure Body where
  mid : Nat
  settype : SetType
  cfgid : Nat
  expiretime : Nat
  /-- `content.extra` -/
  extra : Option (List (Nat × Nat))
  isshared : Nat
  receivers : List Nat
deriving DecidableEq

def Body.hasExtra (b : Body) : Bool := !(b.extra.getD []).isEmpty

def Body.head (b : Body) : Head := ⟨b.mid, b.settype, b.cfgid, b.hasExtra, b.expiretime⟩

/-- A cell of `shareMailMgr`'s list. -/
structure Share where
  id : Nat
  mid : Nat
  castleLv : Nat
  expiretime : Nat
deriving DecidableEq

/-- The mail service; `γ` is what is recorded of its runs. -/
structure Svc (γ : Type) where
  memList : Nat → Option Nat
  objs : Nat → Option PlayerMail
  nextObj : Nat
  userOnline : List Nat
  stored : Nat → Option Data
  mailList : Nat → Option Body
  bodies : Nat → Option Body
  nextMid : Nat
  maxId : Nat
  list : List Share
  /-- forked removals that have not run yet -/
  forks : List (Nat × Nat)
  notes : γ

inductive Req where
  | checkLock (uid : Nat)
  | getKidOfUid (uid : Nat)
  | mail (uid : Nat)
  | body (mid : Nat)
  | nextid
deriving DecidableEq

inductive Reply where
  | raised
  | yes
  | no
deriving DecidableEq

/-- The queue of a player, or that of `shareMailMgr`. -/
inductive Line where
  | player (uid : Nat)
  | share
deriving DecidableEq

abbrev Co (γ α : Type) : Type := Prog (Svc γ) Line Req Reply α

def Data.default : Data := ⟨fun _ => none, fun _ => ⟨0, .system, 0, false, 0, false, false, false⟩, 0, 0⟩

def PlayerMail.expired (m : PlayerMail) (time : Nat) : List Nat :=
  (SetType.all.flatMap (fun st => (m.listOf st).reverse)).filter (fun r =>
    decide (0 < (m.cells r).expiretime) && decide ((m.cells r).expiretime ≤ time))

def PlayerMail.evicted (m : PlayerMail) (h : Head) : List Nat :=
  if h.settype.limit < ((m.place (defaultListCell h)).listOf h.settype).length then
    (((m.place (defaultListCell h)).surplus ((m.place (defaultListCell h)).listOf h.settype)).map (fun r =>
      ((m.place (defaultListCell h)).cells r).mid)).toList
  else []

section Changes

variable {γ : Type}

def Svc.setObj (s : Svc γ) (o : Nat) (m : PlayerMail) : Svc γ := { s with objs := Function.update s.objs o (some m) }

def Svc.save (s : Svc γ) (uid : Nat) (d : Data) : Svc γ := { s with stored := Function.update s.stored uid (some d) }

def Svc.newMail (s : Svc γ) (uid : Nat) : Svc γ :=
  { s with memList := Function.update s.memList uid (some s.nextObj), nextObj := s.nextObj + 1 }

def Svc.alter (s : Svc γ) (o : Nat) (f : PlayerMail → PlayerMail) : Svc γ :=
  match s.objs o with
  | some m => s.setObj o (f m)
  | none => s

def Svc.change (s : Svc γ) (uid o : Nat) (f : PlayerMail → PlayerMail) : Svc γ :=
  match s.objs o with
  | some m => (s.setObj o (f m)).save uid (f m).toData
  | none => s

def Svc.release (s : Svc γ) (uid : Nat) : Svc γ :=
  { s with userOnline := s.userOnline.filter (fun u => decide (u ≠ uid)), memList := Function.update s.memList uid none }

def Svc.insert (s : Svc γ) (mid : Nat) (b : Body) : Svc γ :=
  if (s.mailList mid).isSome then s else { s with mailList := Function.update s.mailList mid (some b) }

def Svc.uncache (s : Svc γ) (mid : Nat) : Svc γ := { s with mailList := Function.update s.mailList mid none }

def Svc.setBody (s : Svc γ) (mid : Nat) (b : Option Body) : Svc γ := { s with bodies := Function.update s.bodies mid b }

def Svc.create (s : Svc γ) (b : Body) : Svc γ := ({ s with nextMid := s.nextMid + 1 }.setBody b.mid (some b)).insert b.mid b

end Changes

section Programs

variable {γ : Type}

/-- `skynet.call`: an answer, or an error. -/
def call (q : Req) : Co γ Reply := do
  let r ← ask q
  if r = .raised then .err "call failed" else pure r

def delSq (uid : Nat) : Co γ Unit := .poke (.player uid) id (.ret ())

/-- `playerMail:init`.  Recorded: the store finds what is there, the object has no data yet, and a default is saved for the
player's own object. -/
def init (uid o : Nat) : Co γ Unit := do
  let s ← get
  let r ← call (.mail uid)
  note true (fun s' => (decide (r = .yes) || (s.stored uid).isNone) && (s'.objs o).isNone)
  match if r = .yes then s.stored uid else none with
  | some d => modify (fun s => s.setObj o (.init d))
  | none =>
    note true (fun s => decide (s.memList uid = some o))
    modify (fun s => (s.setObj o (.init .default)).save uid .default)

/-- `playerMailMgr:getPlayerMail`.  Recorded: nobody else made the object meanwhile. -/
def getPlayerMail (uid : Nat) (isMem : Bool) : Co γ (Option Nat) :=
  serial (.player uid) (do
    let s ← get
    if (s.memList uid).isSome || isMem then pure (s.memList uid)
    else
      let _ ← call (.checkLock uid)
      let r ← call (.getKidOfUid uid)
      if r = .no then pure none
      else
        let s ← get
        note true (fun s => (s.memList uid).isNone)
        modify (fun s => s.newMail uid)
        init uid s.nextObj
        let s ← get
        pure (s.memList uid))

def login (uid : Nat) : Co γ Unit := do
  let _ ← getPlayerMail uid false

def query (mid : Nat) : Co γ (Option Body) := do
  let s ← get
  match s.mailList mid with
  | some b => pure (some b)
  | none =>
    let r ← call (.body mid)
    match if r = .yes then s.bodies mid else none with
    | some b =>
      modify (fun s => s.insert mid b)
      pure (some b)
    | none => pure none

/-- What counts as true is anything but `nil` and `false`: every number does, also 0. -/
def truthy (_ : Nat) : Bool := true

def remove (mid : Nat) (uid : Option Nat) (force : Bool) : Co γ Unit := do
  let b ← query mid
  match b with
  | none => pure ()
  | some b =>
    (if !force && truthy b.isshared then pure ()
      else if force then modify (fun s => s.setBody mid none)
      else
        let receivers := b.receivers.filter (fun u => decide (some u ≠ uid))
        if receivers = [] then modify (fun s => s.setBody mid none)
        else modify (fun s => s.setBody mid (some { b with receivers := receivers })) : Co γ Unit)
    modify (fun s => s.uncache mid)

def forkRemovals (mids : List Nat) (uid : Nat) : Co γ Unit :=
  modify (fun s => { s with forks := mids.map (fun mid => (mid, uid)) ++ s.forks })

def runFork (mid uid : Nat) : Co γ Unit := do
  let s ← get
  if s.forks.any (fun x => decide (x = (mid, uid))) then
    modify (fun s => { s with forks := s.forks.erase (mid, uid) })
    remove mid (some uid) false
  else pure ()

/-- A change of a player's mail, saved.  Recorded: the object is the player's. -/
def write (uid o : Nat) (f : PlayerMail → PlayerMail) : Co γ Unit := do
  note true (fun s => decide (s.memList uid = some o))
  modify (fun s => s.change uid o f)

/-- `playerMailMgr:releasePlayerMail`; `before` is recorded when its turn has come. -/
def releasePlayerMail (before : Co γ Unit) (uid : Nat) : Co γ Unit := do
  serial (.player uid) (do
    before
    modify (fun s => s.release uid))
  delSq uid

def logout (before : Co γ Unit) (uid : Nat) : Co γ Unit := do
  let o ← getPlayerMail uid true
  if o.isSome then releasePlayerMail before uid else pure ()

end Programs

end Mail
end Sncpp
