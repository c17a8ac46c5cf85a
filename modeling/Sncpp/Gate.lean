import Mathlib.Algebra.Ring.Nat
import Mathlib.Data.Finset.Card
import Sncpp.CoRely
/-!
# Gate — sessions, sockets and handshakes of the gate (`gateCenter`)

A login makes a session, held under its uid and its username; a handshake on a socket ties the socket to it; a
disconnect, `afk`, `logout` or a second login takes it away again, telling the login servers and the agent pool on the
way.  All of that runs through the queue of the uid, but `doAuth` and `close` find their session before they enter it, and
`close`, `afk` and `logout` drop the queue from the table afterwards.

A session object is named by its `subid`, which no other has; its `fd`, `version` and `addr` are kept by that name.  The
version is set to 0 when the number is drawn, which nobody can tell from when `login` makes the object.
-/
namespace Sncpp
namespace Gate

open Co (Prog Sys)
open Co.Prog (get modify note ask when serial)

/-- A username: the encoded uid and `tostring(subid)`; `none` is the text of a missing subid. -/
structure Name where
  uid : Nat
  subid : Option Nat
deriving DecidableEq

def usernameEncode (uid : Nat) (subid : Option Nat) : Name := ⟨uid, subid⟩

structure User (K : Type) where
  uid : Nat
  kid : Nat
  subid : Nat
  agent : Nat
  secret : K
deriving DecidableEq

def User.username {K : Type} (u : User K) : Name := usernameEncode u.uid (some u.subid)

structure Accept (ι : Type) where
  username : Name
  index : ι
  current : Bool

/-- The gate.  `owner` has the uid a subid was drawn for, `removed` counts the sessions a player lost and `accepted` has
the handshakes accepted so far, the latest first; no code reads these three. -/
structure Svc (ι K : Type) where
  clientNum : Int
  uidMap : Nat → Option (User K)
  usernameMap : Name → Option (User K)
  connection : Finset Nat
  connectionMap : Nat → Option (User K)
  handshake : Nat → Option String
  internalId : Nat
  stoped : Bool
  fd : Nat → Option Nat
  version : Nat → ι
  addr : Nat → Option String
  owner : Nat → Option Nat
  removed : Nat → Nat
  accepted : List (Accept ι)

def maxClientNum : Int := 65535

/-- A decoded `reqHandshake`: the three parts of its text, the index as `tonumber` reads it. -/
structure Handshake (ι D : Type) where
  username : Option Name
  index : Option ι
  hmac : D

structure Result where
  code : Nat
  text : String
deriving DecidableEq

inductive PoolCmd where
  | login (uid subid kid : Nat)
  | afk (uid subid flag : Nat)
  | logout (uid : Nat) (subid : Option Nat)

inductive Req where
  | loginSvr (node uid : Nat) (subid : Option Nat)
  | pool (cmd : PoolCmd)

/-- A call returns, to a login the agent's address if it is a number, or it raises. -/
inductive Reply where
  | ret (agent : Option Nat)
  | raise

structure Conf (ι K D : Type) where
  logins : List Nat
  hmac64 : Option Name → ι → K → D

structure Watch where
  maps : Bool
  hand : Bool

abbrev Co (ι K α : Type) : Type := Prog (Svc ι K) Nat Req Reply α

variable {ι K D : Type}

section Maps

variable [DecidableEq K]

def Svc.start [Zero ι] : Svc ι K where
  clientNum := 0
  uidMap _ := none
  usernameMap _ := none
  connection := ∅
  connectionMap _ := none
  handshake _ := none
  internalId := 0
  stoped := false
  fd _ := none
  version _ := 0
  addr _ := none
  owner _ := none
  removed _ := 0
  accepted := []

def Svc.connected (s : Svc ι K) (u : User K) : Bool :=
  match s.fd u.subid with
  | some fd => decide (s.connectionMap fd = some u)
  | none => false

def Svc.current (s : Svc ι K) (u : User K) : Bool := decide (s.uidMap u.uid = some u)

/-- `uidMap[uid] = nil`, and the same for some usernames. -/
def Svc.forget (s : Svc ι K) (uid : Nat) (names : List Name) : Svc ι K :=
  { s with
    uidMap := Function.update s.uidMap uid none
    usernameMap := fun n => if n ∈ names then none else s.usernameMap n
    removed := Function.update s.removed uid (s.removed uid + 1) }

def Svc.setFd (s : Svc ι K) (u : User K) (fd : Option Nat) : Svc ι K :=
  { s with fd := Function.update s.fd u.subid fd }

def Svc.draw [Zero ι] (s : Svc ι K) (uid : Nat) : Svc ι K :=
  { s with
    internalId := s.internalId + 1
    version := Function.update s.version (s.internalId + 1) 0
    owner := Function.update s.owner (s.internalId + 1) (some uid) }

def Svc.store (s : Svc ι K) (u : User K) : Svc ι K :=
  { s with
    uidMap := Function.update s.uidMap u.uid (some u)
    usernameMap := Function.update s.usernameMap u.username (some u)
    fd := Function.update s.fd u.subid (some 0)
    addr := Function.update s.addr u.subid none }

def Svc.accept (s : Svc ι K) (u : User K) (fd : Nat) (index : ι) (addr : String) : Svc ι K :=
  { s with
    fd := Function.update s.fd u.subid (some fd)
    version := Function.update s.version u.subid index
    addr := Function.update s.addr u.subid (some addr)
    connectionMap := Function.update s.connectionMap fd (some u)
    accepted := ⟨u.username, index, s.current u⟩ :: s.accepted }

def Svc.disconnect (s : Svc ι K) (fd : Nat) : Svc ι K :=
  { s with
    handshake := Function.update s.handshake fd none
    connection := s.connection.erase fd
    clientNum := if fd ∈ s.connection then s.clientNum - 1 else s.clientNum }

def Svc.untie (s : Svc ι K) (fd : Nat) : Svc ι K := { s with connectionMap := Function.update s.connectionMap fd none }

end Maps

def callSvr (q : Req) : Co ι K (Option Nat) := do
  match ← ask q with
  | .ret a => pure a
  | .raise => .err "call"

def logoutAll (uid : Nat) (subid : Option Nat) : List Nat → Co ι K Unit
  | [] => pure ()
  | node :: nodes => do
    let _ ← (callSvr (.loginSvr node uid subid)).xpcall
    logoutAll uid subid nodes

def delSq (uid : Nat) : Co ι K Unit := .poke uid id (.ret ())

section Handlers

variable [DecidableEq K] [DecidableEq D] [LinearOrder ι] [Zero ι] (W : Watch) (conf : Conf ι K D)

def «open» (fd : Nat) (msg : String) : Co ι K Unit := do
  let s ← get
  if s.clientNum ≥ maxClientNum then pure ()
  else
    note W.maps (fun s => decide (fd ∉ s.connection))
    modify (fun s => { s with
      connection := insert fd s.connection
      clientNum := s.clientNum + 1
      handshake := Function.update s.handshake fd (some msg) })

def disconnectHandler (fd : Nat) (username : Name) : Co ι K Unit := do
  let s ← get
  match s.usernameMap username with
  | none => pure ()
  | some u =>
    if s.fd u.subid = some fd then
      note W.maps (fun s => decide (s.connectionMap fd ≠ some u))
      modify (fun s => s.forget u.uid [username])
      logoutAll u.uid (some u.subid) conf.logins
      let _ ← callSvr (.pool (.afk u.uid u.subid 0))
    else pure ()

def close (fd : Nat) (inSq : Bool) : Co ι K Unit := do
  modify (fun s => s.disconnect fd)
  let s ← get
  match s.connectionMap fd with
  | none => pure ()
  | some u =>
    modify (fun s => s.untie fd)
    if inSq then disconnectHandler W conf fd u.username
    else
      serial u.uid (disconnectHandler W conf fd u.username)
      delSq u.uid

/-- `gateCenter:closeclient`, which does not count. -/
def closeclient (fd : Nat) : Co ι K Unit := do
  note W.maps (fun s => decide (fd ∉ s.connection))
  modify (fun s => { s with connection := s.connection.erase fd })

/-- `close` of a socket that may be `nil`. -/
def closeFd (fd : Option Nat) : Co ι K Unit :=
  match fd with
  | some fd => close W conf fd true
  | none => pure ()

/-- What `doAuth` runs through the queue: the session `u` was found before, when `r` sessions of the player were gone. -/
def doAuthIn (fd : Nat) (h : Handshake ι D) (addr : String) (u : User K) (r : Nat) : Co ι K (Bool × Result) := do
  let s ← get
  match h.index with
  | none => pure (false, ⟨403, "403 forbidden"⟩)
  | some index =>
    if index ≤ s.version u.subid then pure (false, ⟨403, "403 forbidden"⟩)
    else if conf.hmac64 h.username index u.secret ≠ h.hmac then pure (false, ⟨401, "401 unauthorized"⟩)
    else
      note W.maps (fun s => s.current u && (!s.connected u || decide (s.fd u.subid = some fd)))
      note W.hand (fun s => decide (s.removed u.uid = r))
      modify (fun s => s.accept u fd index addr)
      pure (true, ⟨200, "200 OK"⟩)

/-- `gateCenter:doAuth`; `none` is a message that does not decode to a handshake with a text. -/
def doAuth (fd : Nat) (msg : Option (Handshake ι D)) (addr : String) : Co ι K (Bool × Result) := do
  let s ← get
  match msg with
  | none => pure (false, ⟨401, "401 unauthorized"⟩)
  | some h =>
    if s.stoped then pure (false, ⟨401, "401 unauthorized"⟩)
    else
      match h.username.bind s.usernameMap with
      | none => pure (false, ⟨404, "404 not found"⟩)
      | some u => serial u.uid (doAuthIn W conf fd h addr u (s.removed u.uid))

/-- `gateCenter:auth`: a failed handshake closes the socket. -/
def auth (fd : Nat) (msg : Option (Handshake ι D)) (addr : String) : Co ι K Unit := do
  match ← (doAuth W conf fd msg addr).xpcall with
  | .ok (true, _) => pure ()
  | _ => close W conf fd false

/-- `gateCenter:request`: a message goes to the agent of the socket's session, and a socket without one is closed. -/
def request (fd : Nat) : Co ι K Unit := do
  let s ← get
  if s.connectionMap fd = none ∧ fd ∈ s.connection then close W conf fd false else pure ()

def dispatchMsg (fd : Nat) (msg : Option (Handshake ι D)) : Co ι K Unit := do
  let s ← get
  if fd ∈ s.connection then
    match s.handshake fd with
    | some addr =>
      auth W conf fd msg addr
      modify (fun s => { s with handshake := Function.update s.handshake fd none })
    | none => request W conf fd
  else pure ()

/-- `gateCenter:login`, through the queue: a player who is in is put out, and the login fails. -/
def loginIn (uid kid : Nat) (secret : K) : Co ι K Nat := do
  let s ← get
  match s.uidMap uid with
  | some u =>
    let fd := s.fd u.subid
    note W.maps (fun s => !s.connected u)
    modify (fun s => s.forget uid [u.username])
    logoutAll uid (some u.subid) conf.logins
    let _ ← callSvr (.pool (.afk uid u.subid 1))
    closeFd W conf fd
    .err "gateCenter:login error: user is already login"
  | none =>
    modify (fun s => s.draw uid)
    let subid := s.internalId + 1
    match ← callSvr (.pool (.login uid subid kid)) with
    | none => .err "gateCenter:login error3"
    | some agent =>
      note (W.maps || W.hand) (fun s => decide (s.uidMap uid = none))
      modify (fun s => s.store ⟨uid, kid, subid, agent, secret⟩)
      pure subid

def login (uid kid : Nat) (secret : K) : Co ι K Nat := serial uid (loginIn W conf uid kid secret)

/-- The agent pool is told unless it asked itself (`flag == 4`). -/
def tellPool (flag : Option Nat) (cmd : PoolCmd) : Co ι K Unit :=
  if flag = some 4 then pure ()
  else do
    let _ ← callSvr (.pool cmd)

def notOlder (subid : Option Nat) (u : User K) : Bool :=
  match subid with
  | some n => decide (u.subid ≤ n)
  | none => false

def afkIn (uid : Nat) (subid : Option Nat) (flag : Option Nat) : Co ι K Unit := do
  let s ← get
  match s.uidMap uid with
  | none => pure ()
  | some u =>
    match s.fd u.subid with
    | none => pure ()
    | some fd =>
      let username := usernameEncode uid subid
      note W.maps (fun s => !s.connected u && notOlder subid u)
      note W.hand (fun _ => notOlder subid u)
      modify (fun s => s.setFd u none)
      -- the source takes `subid > u.subid` for an afk that is too old
      if u.username ≠ username ∧ subid.any (fun n => decide (u.subid < n)) then
        modify (fun s => s.forget uid [u.username, username])
        logoutAll uid (some u.subid) conf.logins
        tellPool flag (.afk uid u.subid (flag.getD 0))
        close W conf fd true
        .err "gateCenter:afk afk: u.username ~= usernam"
      else
        modify (fun s => s.forget uid [username])
        logoutAll uid (some u.subid) conf.logins
        tellPool flag (.afk uid u.subid (flag.getD 0))
        close W conf fd true

def afk (uid : Nat) (subid : Option Nat) (flag : Option Nat) : Co ι K Unit := do
  serial uid (afkIn W conf uid subid flag)
  delSq uid

def logoutIn (uid : Nat) (subid : Option Nat) (flag : Option Nat) : Co ι K Unit := do
  let s ← get
  match s.uidMap uid with
  | none => pure ()
  | some u =>
    let username := usernameEncode uid subid
    note W.maps (fun s => !s.connected u && subid.isSome)
    note W.hand (fun _ => subid.isSome)
    if subid.isSome ∧ u.username ≠ username then
      modify (fun s => s.forget uid [u.username, username])
      logoutAll uid (some u.subid) conf.logins
      tellPool flag (.logout uid (some u.subid))
      let s ← get
      closeFd W conf (s.fd u.subid)
      .err "gateCenter:logout error, u.username ~= username"
    else
      modify (fun s => s.forget uid [username])
      logoutAll uid subid conf.logins
      tellPool flag (.logout uid subid)
      let s ← get
      closeFd W conf (s.fd u.subid)

def logout (uid : Nat) (subid : Option Nat) (flag : Option Nat) : Co ι K Unit := do
  serial uid (logoutIn W conf uid subid flag)
  delSq uid

end Handlers

inductive Op (ι K D : Type) where
  | open (fd : Nat) (addr : String)
  | close (fd : Nat)
  | closeclient (fd : Nat)
  | msg (fd : Nat) (m : Option (Handshake ι D))
  | login (uid kid : Nat) (secret : K)
  | afk (uid : Nat) (subid flag : Option Nat)
  | logout (uid : Nat) (subid flag : Option Nat)
  | stop
  | expireSq (uid : Nat)

variable [DecidableEq K] [DecidableEq D] [LinearOrder ι] [Zero ι]

def Op.prog (W : Watch) (conf : Conf ι K D) : Op ι K D → Co ι K Unit
  | .open fd addr => Gate.open W fd addr
  | .close fd => Gate.close W conf fd false
  | .closeclient fd => Gate.closeclient W fd
  | .msg fd m => dispatchMsg W conf fd m
  | .login uid kid secret => do
    let _ ← Gate.login W conf uid kid secret
  | .afk uid subid flag => Gate.afk W conf uid subid flag
  | .logout uid subid flag => Gate.logout W conf uid subid flag
  | .stop => modify (fun s => { s with stoped := true })
  | .expireSq uid => delSq uid

def uidSys (W : Watch) (conf : Conf ι K D) : Sys (Svc ι K) Nat Req Reply (Op ι K D) Empty :=
  ⟨Op.prog W conf, fun _ _ => true, fun e => e.elim⟩

def gateSys (W : Watch) (conf : Conf ι K D) :
    Sys (Co.Desk (Svc ι K) Nat) (Nat × Nat) Req Reply (Op ι K D) Empty :=
  (uidSys W conf).tabled

/-- One login server, and a hash that only the secret and the index enter. -/
def Conf.plain : Conf Nat Nat Nat := ⟨[1], fun _ index secret => secret + index⟩

end Gate
end Sncpp
