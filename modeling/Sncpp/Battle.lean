import Mathlib.Order.Lattice
import Mathlib.Order.Nat
import Sncpp.Steps
/-!
# Battle — the frame service of player battles

`room.lua`, `user.lua`, `userMgr.lua` and `frameCenter.lua` of `pvp/frame`.  A room is created for a list of players,
waits until they are ready and have loaded, sends them a frame of their commands at each turn of the one loop that
`userMgr:game` forks, waits for their reports and is freed.  No handler yields, so the service is a state and a step
for each handler, each expired timer and each turn of the loop.
-/
namespace Sncpp
namespace Battle

inductive Status
  | eInit
  | eWaitPrepare
  | eWaitLoad
  | eGame
  | eSettle
  | eFree
  deriving DecidableEq, Repr

namespace Status

def val : Status → Nat
  | eInit => 0
  | eWaitPrepare => 1
  | eWaitLoad => 2
  | eGame => 3
  | eSettle => 4
  | eFree => 5

theorem val_injective : Function.Injective val := by
  intro a b h
  cases a <;> cases b <;> first | rfl | cases h

instance : LinearOrder Status := LinearOrder.lift' val val_injective

theorem le_eFree (a : Status) : a ≤ eFree := by
  cases a <;> decide

end Status

/-- An answer other than success: `gErrDef`. -/
inductive Err
  | ROOM_NO_USER
  | ROOM_HAD_LEAVE
  | ROOM_NOT_START_OR_END
  | ROOM_NOT_EXIST
  | ROOM_EXIST
  | ILLEGAL_PARAMS
  deriving DecidableEq, Repr

/-- `.sPvpCmd`: the room writes the player and the frame into the command it is given. -/
structure Cmd (β : Type) where
  uid : Nat
  f : Nat
  body : β
  deriving DecidableEq

structure Roster where
  players : List (Nat × Option Nat)
  nodup : (players.map Prod.fst).Nodup

structure Info (β ρ : Type) where
  camp : Nat
  status : Status
  cmds : Nat → Option (Cmd β)
  report : Option ρ

/-- Attackers and defenders decide what the room does; a referee does not. -/
def Info.fights {β ρ : Type} (v : Info β ρ) : Bool := v.camp == 0 || v.camp == 1

structure Room (β ρ : Type) where
  batId : String
  status : Status
  users : List Nat
  info : List (Nat × Info β ρ)
  f : Nat
  fmax : Nat
  isEnd : Bool
  fs : Nat → Option (Cmd β)

namespace Room

variable {β ρ : Type}

def new (batId : String) : Room β ρ where
  batId := batId
  status := .eWaitPrepare
  users := []
  info := []
  f := 0
  fmax := 0
  isEnd := false
  fs := fun _ => none

/-- `room:init`: `math.floor(100/rate)` hundredths of a second to a frame, and the frames of `time` seconds. -/
def init (room : Room β ρ) (users : Roster) (rate time : Nat) : Room β ρ :=
  { room with
    status := .eWaitPrepare
    users := users.players.map Prod.fst
    info := users.players.map (fun u => (u.1, ⟨u.2.getD 0, .eInit, fun _ => none, none⟩))
    fmax := (time * 1000 + (100 / rate * 10 - 1)) / (100 / rate * 10) }

def alter (room : Room β ρ) (uid : Nat) (g : Info β ρ → Info β ρ) : Room β ρ :=
  { room with info := room.info.map (fun v => if v.1 = uid then (v.1, g v.2) else v) }

def alterAll (room : Room β ρ) (g : Info β ρ → Info β ρ) : Room β ρ :=
  { room with info := room.info.map (fun v => (v.1, g v.2)) }

def setStatus (st : Status) (v : Info β ρ) : Info β ρ := { v with status := st }

def isAllStatus (room : Room β ρ) (st : Status) : Bool :=
  room.info.all (fun v => !v.2.fights || decide (st ≤ v.2.status))

def isAllLeft (room : Room β ρ) : Bool :=
  room.info.all (fun v => !v.2.fights || decide (v.2.status = .eFree))

def isAllReported (room : Room β ρ) : Bool :=
  room.info.all (fun v => !v.2.fights || v.2.report.isSome)

/-- The loop of `room:game`, over the frame message that the room uses again for every frame. -/
def pack (room : Room β ρ) : Nat → Option (Cmd β) :=
  room.info.foldl (fun fs v => Function.update fs v.1 (v.2.cmds room.f)) room.fs

end Room

inductive Msg (β ρ : Type)
  | notifyPvpInfo (status : Status) (info : List (Nat × Info β ρ))
  | notifyPvpCmd (batId : String) (f : Nat) (fs : Nat → Option (Cmd β))
  | notifyPvpLogout (flag : Nat)

inductive Event (β ρ : Type)
  /-- A message for the players of a room, the room's status then, and the sockets it went out on. -/
  | broadcast (room : Nat) (status : Status) (fds : List Nat) (msg : Msg β ρ)
  /-- The status timer of a battle id is set. -/
  | armed (room : Nat) (batId : String)
  /-- `reqCommitCmd` answered true. -/
  | accepted (room : Nat) (cmd : Cmd β)
  | sent (fd : Nat) (msg : Msg β ρ)
  /-- A message that arrived on a socket is handled for a user. -/
  | handled (fd : Nat) (user : Nat)
  /-- The gate is told that a player goes. -/
  | gateAfk (uid subid flag : Nat)

structure User where
  uid : Nat
  batId : Option String
  subid : Option Nat
  fd : Option Nat
  online : Bool

def User.new (uid : Nat) : User := ⟨uid, none, none, none, false⟩

/-- A timer of `timerMgr.timerMap`: a room's by its battle id, a user's by its player id. -/
inductive Timer
  | status (batId : String)
  | heartbeat (uid : Nat)
  deriving DecidableEq

/-- The coroutine that `userMgr:game` forks once. -/
inductive Loop
  | absent
  | running
  | ended
  deriving DecidableEq

structure Center (β ρ : Type) where
  debug : Bool
  rooms : String → Option Nat
  heap : Nat → Room β ρ
  roomCount : Nat
  gaming : String → Option Nat
  co : Loop
  timerMap : Timer → Bool
  users : Nat → Option Nat
  user : Nat → User
  userCount : Nat
  fdMap : Nat → Option Nat
  stoped : Bool
  log : List (Event β ρ)

namespace Center

variable {β ρ : Type}

def init (debug : Bool) : Center β ρ where
  debug := debug
  rooms := fun _ => none
  heap := fun _ => Room.new ""
  roomCount := 0
  gaming := fun _ => none
  co := .absent
  timerMap := fun _ => false
  users := fun _ => none
  user := fun _ => User.new 0
  userCount := 0
  fdMap := fun _ => none
  stoped := false
  log := []

def emit (s : Center β ρ) (es : List (Event β ρ)) : Center β ρ := { s with log := s.log ++ es }

def setRoom (s : Center β ρ) (r : Nat) (room : Room β ρ) : Center β ρ :=
  { s with heap := Function.update s.heap r room }

def setUser (s : Center β ρ) (u : Nat) (user : User) : Center β ρ := { s with user := Function.update s.user u user }

/-- `user:notifyMsg`: the socket a message to a player goes out on. -/
def socket (s : Center β ρ) (uid : Nat) : Option Nat :=
  (s.users uid).bind (fun u => if (s.user u).online then (s.user u).fd else none)

def notifyMsgBatch (s : Center β ρ) (r : Nat) (msg : Msg β ρ) : Center β ρ :=
  s.emit [.broadcast r (s.heap r).status ((s.heap r).users.filterMap s.socket) msg]

def notifyPvpInfo (s : Center β ρ) (r : Nat) : Center β ρ :=
  s.notifyMsgBatch r (.notifyPvpInfo (s.heap r).status (s.heap r).info)

/-- `timerMgr:updateTimer(self.batId, gPvpTimerType.status, time)`. -/
def arm (s : Center β ρ) (r : Nat) : Center β ρ :=
  { s with timerMap := Function.update s.timerMap (.status (s.heap r).batId) true }.emit [.armed r (s.heap r).batId]

/-- `timerMgr:updateTimer(batId, gPvpTimerType.status, nil)`. -/
def disarm (s : Center β ρ) (batId : String) : Center β ρ :=
  { s with timerMap := Function.update s.timerMap (.status batId) false }

def game (s : Center β ρ) (batId : String) (r : Nat) : Center β ρ :=
  { s with
    gaming := Function.update s.gaming batId (some r)
    co := if s.co = .absent then .running else s.co }

def delRoom (s : Center β ρ) (batId : String) : Center β ρ :=
  match s.rooms batId with
  | none => s
  | some r =>
    let gone := (s.heap r).users.filterMap (fun uid =>
      (s.users uid).map (fun u => Event.gateAfk uid ((s.user u).subid.getD 0) 1))
    { s.disarm batId with rooms := Function.update s.rooms batId none }.emit gone

def start (s : Center β ρ) (r : Nat) : Center β ρ :=
  let room := s.heap r
  let room := room.alterAll (fun v => if v.status < .eGame then Room.setStatus .eGame v else v)
  let s := s.setRoom r { room with status := .eGame, fs := fun _ => none }
  (s.arm r).game room.batId r

def roomOver (s : Center β ρ) (r : Nat) : Center β ρ :=
  let room := (s.heap r).alterAll (Room.setStatus .eSettle)
  let s := s.setRoom r { room with status := .eSettle }
  (s.notifyPvpInfo r).arm r

def free (s : Center β ρ) (r : Nat) : Center β ρ :=
  let room := s.heap r
  if .eFree ≤ room.status then s
  else
    let s := s.disarm room.batId
    let room := room.alterAll (Room.setStatus .eFree)
    let s := s.setRoom r { room with status := .eFree }
    (s.notifyPvpInfo r).delRoom room.batId

def setIsEnd (s : Center β ρ) (r : Nat) (isEnd : Bool) : Center β ρ :=
  let s := s.setRoom r { s.heap r with isEnd := isEnd }
  if (s.heap r).status < .eGame then s.free r else s

def roomTimer (s : Center β ρ) (r : Nat) : Center β ρ :=
  if (s.heap r).status ≤ .eWaitPrepare then s.setIsEnd r true
  else if (s.heap r).status = .eWaitLoad then s.start r
  else if (s.heap r).status = .eGame then s.setIsEnd r true
  else if (s.heap r).status = .eSettle then s.free r
  else s

def roomPrepare (s : Center β ρ) (r uid : Nat) : Center β ρ × Except Err Unit :=
  let room := s.heap r
  match room.info.lookup uid with
  | none => (s, .error .ROOM_NO_USER)
  | some v =>
    if v.status = .eFree then (s, .error .ROOM_HAD_LEAVE)
    else if room.isEnd || decide (.eSettle ≤ room.status) then (s, .error .ROOM_NOT_START_OR_END)
    else if v.status < .eWaitPrepare then
      let room := room.alter uid (Room.setStatus .eWaitPrepare)
      let s := if room.isAllStatus .eWaitPrepare then (s.setRoom r { room with status := .eWaitLoad }).arm r
        else s.setRoom r room
      (s.notifyPvpInfo r, .ok ())
    else (s, .ok ())

def roomLoad (s : Center β ρ) (r uid : Nat) : Center β ρ × Except Err Unit :=
  let room := s.heap r
  match room.info.lookup uid with
  | none => (s, .error .ROOM_NO_USER)
  | some v =>
    if v.status = .eFree then (s, .error .ROOM_HAD_LEAVE)
    else if room.isEnd || decide (.eSettle ≤ room.status) then (s, .error .ROOM_NOT_START_OR_END)
    else if v.status < .eWaitLoad then
      let room := room.alter uid (Room.setStatus .eWaitLoad)
      let s := if room.isAllStatus .eWaitLoad then (s.setRoom r { room with status := .eGame }).start r
        else s.setRoom r room
      (s.notifyPvpInfo r, .ok ())
    else (s, .ok ())

def roomLeave (s : Center β ρ) (r uid : Nat) : Center β ρ × Except Err Unit :=
  let room := s.heap r
  match room.info.lookup uid with
  | none => (s, .error .ROOM_NO_USER)
  | some _ =>
    let room := room.alter uid (Room.setStatus .eFree)
    let s := s.setRoom r (if room.isAllLeft then { room with isEnd := true } else room)
    (s.notifyPvpInfo r, .ok ())

def roomCommitCmd (s : Center β ρ) (r uid : Nat) (body : β) : Center β ρ × Except Err Unit :=
  let room := s.heap r
  match room.info.lookup uid with
  | none => (s, .error .ROOM_NO_USER)
  | some _ =>
    if room.status ≠ .eGame then (s, .error .ROOM_NOT_START_OR_END)
    else
      let cmd : Cmd β := ⟨uid, room.f, body⟩
      let room := room.alter uid (fun v => { v with cmds := Function.update v.cmds room.f (some cmd) })
      ((s.setRoom r room).emit [.accepted r cmd], .ok ())

def roomCommitReport (s : Center β ρ) (r uid : Nat) (report : Option ρ) : Center β ρ × Except Err Unit :=
  let room := s.heap r
  match room.info.lookup uid with
  | none => (s, .error .ROOM_NO_USER)
  | some _ =>
    if ¬ (room.status = .eGame ∨ room.status = .eSettle) then (s, .error .ROOM_NOT_START_OR_END)
    else
      let room := room.alter uid (fun v => { v with report := report })
      let s := s.setRoom r room
      (if room.isAllReported then s.free r else s, .ok ())

def roomGame (s : Center β ρ) (r : Nat) : Center β ρ × Bool :=
  let room := s.heap r
  if room.fmax ≤ room.f || room.isEnd then (s.roomOver r, true)
  else
    let room := { room with fs := room.pack }
    let s := (s.setRoom r room).notifyMsgBatch r (.notifyPvpCmd room.batId room.f room.fs)
    (s.setRoom r { room with f := room.f + 1 }, false)

def turn (s : Center β ρ) (batId : String) : Center β ρ :=
  match s.gaming batId with
  | none => s
  | some r =>
    let (s, isOver) := s.roomGame r
    if isOver then { s with gaming := Function.update s.gaming batId none } else s

/-- One turn of the loop.  `pairs` gives the battle ids of `self.gaming` in no known order: `ids` is the order it gives. -/
def tick (s : Center β ρ) (ids : List String) : Center β ρ :=
  if s.co = .running then
    let s := ids.foldl turn s
    if s.stoped then { s with co := .ended } else s
  else s

def setFdMap (s : Center β ρ) (fd : Option Nat) (user : Option Nat) : Center β ρ :=
  match fd with
  | none => s
  | some fd => { s with fdMap := Function.update s.fdMap fd user }

def userSetFd (s : Center β ρ) (u : Nat) (fd : Option Nat) : Center β ρ :=
  let s := s.setFdMap (s.user u).fd none
  let s := s.setUser u { s.user u with fd := fd }
  s.setFdMap fd (some u)

def userCheckin (s : Center β ρ) (u subid : Nat) : Center β ρ :=
  let s := s.setUser u { s.user u with subid := some subid, online := true }
  { s with timerMap := Function.update s.timerMap (.heartbeat (s.user u).uid) true }

def userAfk (s : Center β ρ) (u : Nat) (flag : Option Nat) : Center β ρ :=
  let s := match flag, (s.user u).fd with
    | some flag, some fd => if (s.user u).online then s.emit [.sent fd (.notifyPvpLogout flag)] else s
    | _, _ => s
  let s := s.userSetFd u none
  s.setUser u { s.user u with online := false }

def getUser (s : Center β ρ) (uid : Nat) : Center β ρ × Nat :=
  match s.users uid with
  | some u => (s, u)
  | none =>
    ({ s.setUser s.userCount (User.new uid) with
      users := Function.update s.users uid (some s.userCount), userCount := s.userCount + 1 }, s.userCount)

def delUser (s : Center β ρ) (uid : Nat) : Center β ρ :=
  match s.users uid with
  | none => s
  | some u => { s.userSetFd u none with users := Function.update s.users uid none }

/-- `frameCenter:dispatchMsg`: the user that a message on a socket is handled for.  The handlers answer by a call back into
the service, which is a step of its own. -/
def dispatchMsg (s : Center β ρ) (fd : Nat) : Center β ρ :=
  match s.fdMap fd with
  | none => s
  | some u => s.emit [.handled fd u]

def login (s : Center β ρ) (uid : Nat) (batId : String) (subid : Option Nat) : Center β ρ :=
  if (s.rooms batId).isNone && !s.debug then s
  else
    let (s, u) := s.getUser uid
    s.setUser u { s.user u with uid := uid, batId := some batId, subid := subid <|> (s.user u).subid }

def afk (s : Center β ρ) (uid : Nat) (batId : String) (flag : Option Nat) : Center β ρ :=
  match s.users uid with
  | none => s
  | some u =>
    let s := (s.userAfk u flag).delUser uid
    match s.rooms batId with
    | none => s
    | some r => (s.roomLeave r uid).1

def setFd (s : Center β ρ) (fd uid subid : Nat) : Center β ρ :=
  match s.users uid with
  | none => s
  | some u => (s.userSetFd u (some fd)).userCheckin u subid

/-- `frameCenter:createBattle`, with the `userMgr:getRoom` that makes the room.  Both set the room's timer. -/
def createBattle (s : Center β ρ) (batId : String) (users : Roster) (rate time : Option Int) :
    Center β ρ × Except Err Unit :=
  if users.players.isEmpty || rate.any (fun rate => rate ≤ 0 || rate > 50) || time.any (fun time => time ≤ 0) then
    (s, .error .ILLEGAL_PARAMS)
  else if !(users.players.any (fun u => u.2 == some 0) && users.players.any (fun u => u.2 == some 1)) then
    (s, .error .ILLEGAL_PARAMS)
  else if (s.rooms batId).isSome then (s, .error .ROOM_EXIST)
  else
    let r := s.roomCount
    let s := { s.setRoom r (Room.new batId) with
      rooms := Function.update s.rooms batId (some r), roomCount := s.roomCount + 1 }
    let s := s.arm r
    let s := s.setRoom r ((s.heap r).init users (rate.getD 16).toNat (time.getD 300).toNat)
    (s.arm r, .ok ())

def request (s : Center β ρ) (batId : String) (method : Center β ρ → Nat → Center β ρ × Except Err Unit) :
    Center β ρ × Except Err Unit :=
  match s.rooms batId with
  | none => (s, .error .ROOM_NOT_EXIST)
  | some r => method s r

def reqPrepare (s : Center β ρ) (batId : String) (uid : Nat) : Center β ρ × Except Err Unit :=
  s.request batId (fun s r => s.roomPrepare r uid)

def reqLoad (s : Center β ρ) (batId : String) (uid : Nat) : Center β ρ × Except Err Unit :=
  s.request batId (fun s r => s.roomLoad r uid)

def reqLeave (s : Center β ρ) (batId : String) (uid : Nat) : Center β ρ × Except Err Unit :=
  s.request batId (fun s r => s.roomLeave r uid)

def reqCommitCmd (s : Center β ρ) (batId : String) (uid : Nat) (body : β) : Center β ρ × Except Err Unit :=
  s.request batId (fun s r => s.roomCommitCmd r uid body)

/-- `frameCenter` has no handler for it: the room's method, called on the room of a battle id as the others are. -/
def reqCommitReport (s : Center β ρ) (batId : String) (uid : Nat) (report : Option ρ) : Center β ρ × Except Err Unit :=
  s.request batId (fun s r => s.roomCommitReport r uid report)

/-- `frameCenter:timerCallback`; `timerMgr:hasTimer` takes the timer out. -/
def timerCallback (s : Center β ρ) (timer : Timer) : Center β ρ :=
  if s.timerMap timer then
    let s := { s with timerMap := Function.update s.timerMap timer false }
    match timer with
    | .status batId =>
      match s.rooms batId with
      | none => s
      | some r => s.roomTimer r
    | .heartbeat uid =>
      match s.users uid with
      | none => s
      | some u => s.emit [.gateAfk uid ((s.user u).subid.getD 0) 0]
  else s

/-- `clientCmd.reqPvpHeartbeat` and `clientCmd.reqPvpHeartbeatSwitch`. -/
def heartbeat (s : Center β ρ) (uid : Nat) (on : Bool) : Center β ρ :=
  { s with timerMap := Function.update s.timerMap (.heartbeat uid) on }

end Center

inductive Call (β ρ : Type)
  | createBattle (batId : String) (users : Roster) (rate time : Option Int)
  | login (uid : Nat) (batId : String) (subid : Option Nat)
  | setFd (fd uid subid : Nat)
  | afk (uid : Nat) (batId : String) (flag : Option Nat)
  | dispatchMsg (fd : Nat)
  | reqPrepare (batId : String) (uid : Nat)
  | reqLoad (batId : String) (uid : Nat)
  | reqLeave (batId : String) (uid : Nat)
  | reqCommitCmd (batId : String) (uid : Nat) (body : β)
  | reqCommitReport (batId : String) (uid : Nat) (report : Option ρ)
  | timerCallback (timer : Timer)
  | heartbeat (uid : Nat) (on : Bool)
  | tick (ids : List String)
  | stop

namespace Center

variable {β ρ : Type}

def step (s : Center β ρ) : Call β ρ → Center β ρ
  | .createBattle batId users rate time => (s.createBattle batId users rate time).1
  | .login uid batId subid => s.login uid batId subid
  | .setFd fd uid subid => s.setFd fd uid subid
  | .afk uid batId flag => s.afk uid batId flag
  | .dispatchMsg fd => s.dispatchMsg fd
  | .reqPrepare batId uid => (s.reqPrepare batId uid).1
  | .reqLoad batId uid => (s.reqLoad batId uid).1
  | .reqLeave batId uid => (s.reqLeave batId uid).1
  | .reqCommitCmd batId uid body => (s.reqCommitCmd batId uid body).1
  | .reqCommitReport batId uid report => (s.reqCommitReport batId uid report).1
  | .timerCallback timer => s.timerCallback timer
  | .heartbeat uid on => s.heartbeat uid on
  | .tick ids => s.tick ids
  | .stop => { s with stoped := true }

def run (debug : Bool) (calls : List (Call β ρ)) : Center β ρ := calls.foldl step (init debug)

end Center
end Battle
end Sncpp
