import Mathlib.Data.List.Infix
import Sncpp.Co
import Sncpp.FilterList
/-!
# Store — one data centre service (`playerDataCenter`, `playerDataCache`, `mongodbWrap`, `mysqlWrap`)

A service keeps the rows of its keys in three places: the memory cache, the local redis and the database.  A write goes
to the first two at once and to the third either at once (`update`, `delete`) or later, through `dbTask`
(`sendUpdate`, `sendDelete`); a write that redis refused is kept in `redisTask`.  Timers drain both queues.  Every
request of a key runs through the key's serial queue.

The programs below are the service's coroutines as the source writes them; a wait stands where the source calls another
service or sleeps.  `κ` is the type of task keys (`getTaskKey`), in the order the sorted sets keep them, and `V` the
type of the documents stored.
-/
namespace Sncpp
namespace Store

open Co (Prog)
open Co.Prog (get modify check ask when serial serialTake)

/-- A text handed to the database service: a command word, a statement built by `getUpdateSql` or `getDeleteSql`
(kept as what it says), or any other text. -/
inductive Text (κ V : Type) where
  | safeUpdate
  | update
  | delete
  | upsert (k : κ) (data : V)
  | remove (k : κ) (custom : Option V)
  | other (s : String)
deriving DecidableEq

def finds (word s : String) : Bool := decide (word.toList <:+: s.toList)

def writesIn (s : String) : Bool := finds "insert" s || finds "update" s || finds "delete" s

/-- `mongodbWrap:executeSqlSafe`'s test for a write command: the statements of mysql spell their verbs in capitals. -/
def Text.mongoWrites {κ V : Type} : Text κ V → Bool
  | .safeUpdate | .update | .delete => true
  | .upsert .. | .remove .. => false
  | .other s => writesIn s

def Text.mysqlWrites {κ V : Type} : Text κ V → Bool
  | .other s => writesIn s.toLower
  | _ => true

/-- A task of `dbTask`. -/
structure DbTask (κ V : Type) where
  cmd : Option (Text κ V)
  sql : Option (Text κ V)
  key : κ
  data : Option V
  custom : Option V
  time : Nat
deriving DecidableEq

inductive RedisCmd where
  | update
  | delete
deriving DecidableEq

/-- A task of `redisTask`. -/
structure RedisTask (κ V : Type) where
  cmd : RedisCmd
  kid : Nat
  key : κ
  data : Option V
  custom : Option V
  time : Nat
deriving DecidableEq

inductive Req (κ V : Type) where
  | kidOf (k : κ)
  | redisGet (k : κ)
  | redisSet (k : κ) (v : V)
  | redisDel (k : κ)
  | redisAlive
  | ping
  | reconnectRedis
  | keepalive
  | reconnectConf
  | reconnectGame
  | findOne (k : κ) (custom : Option V)
  | select (k : κ) (custom : Option V)
  | mongo (cmd : Option (Text κ V)) (k : κ) (data custom : Option V)
  | execute (sql : Text κ V)
  | remoteQuery (kid : Nat) (k : κ) (custom : Option V) (force : Bool)
  | hSetKid (uid kid : Nat)
  | publishKid (uid kid : Nat)
  | saveMail (idx : Nat)
  | sleep
deriving DecidableEq

/-- What a call brings back: it raised, or a value.  `doc` is one mongo document, `rows` what `queryResultPack` makes of
a mysql result with rows, `done` a mysql result without any, `errd` a result that carries `err`. -/
inductive Reply (V : Type) where
  | raised
  | nil
  | bool (b : Bool)
  | num (n : Nat)
  | doc (v : V)
  | rows (v : V)
  | done
  | errd
deriving DecidableEq

def Reply.truthy {V : Type} : Reply V → Bool
  | .raised | .nil | .bool false => false
  | _ => true

/-- `not ok` after a protected call. -/
def Reply.isRaised {V : Type} : Reply V → Bool
  | .raised => true
  | _ => false

def Reply.hasErr {V : Type} : Reply V → Bool
  | .errd => true
  | _ => false

inductive DbType where
  | mongodb
  | mysql
deriving DecidableEq

/-- Whose kingdom owns a key's data: the player's or the alliance's, looked up, or this one. -/
inductive RedisType where
  | player
  | alliance
  | kingdom
  | common
deriving DecidableEq

/-- The service's configuration: `moduleSettings` per key, the back end, which rows the condition `c` of a delete of
`k` selects (`selects k c x v` for the row `v` of key `x`), and the keys with "mail" in them. -/
structure Conf (κ V : Type) where
  kid : Nat
  idx : Nat
  serviceNum : Nat
  dbtype : DbType
  clearMemTime : Nat
  known : κ → Bool
  columns : κ → Bool
  redisType : κ → RedisType
  selects : κ → V → κ → V → Bool
  mail : κ → Bool

def Conf.plain (db : DbType) : Conf Nat Nat :=
  ⟨1, 1, 8, db, 300, fun _ => true, fun _ => true, fun _ => .kingdom, fun _ _ _ _ => true, fun _ => false⟩

inductive Write (V : Type) where
  | put (v : V)
  | remove
deriving DecidableEq

def Write.row {V : Type} : Write V → Option V
  | .put v => some v
  | .remove => none

/-- The service, its redis and its database.  `last` is a history variable: the last write accepted for a key. -/
structure Svc (κ V : Type) [LinearOrder κ] where
  now : Nat
  redisTask : FilterList κ (RedisTask κ V)
  dbTask : FilterList κ (DbTask κ V)
  cacheData : Nat → κ → Option V
  redis : κ → Option V
  rows : κ → Option V
  redisReconnect : Bool
  dbReconnect : Bool
  zsetSq : List (Nat × κ)
  last : κ → Option (Write V)

variable {κ V : Type} [LinearOrder κ]

abbrev Co (κ V : Type) [LinearOrder κ] (α : Type) : Type := Prog (Svc κ V) κ (Req κ V) (Reply V) α

def Svc.setMem (s : Svc κ V) (kid : Nat) (k : κ) (v : Option V) : Svc κ V :=
  { s with cacheData := Function.update s.cacheData kid (Function.update (s.cacheData kid) k v) }

def Svc.setRedis (s : Svc κ V) (k : κ) (v : Option V) : Svc κ V := { s with redis := Function.update s.redis k v }

def Svc.setRow (s : Svc κ V) (k : κ) (v : Option V) : Svc κ V := { s with rows := Function.update s.rows k v }

def Svc.accept (s : Svc κ V) (k : κ) (w : Write V) : Svc κ V := { s with last := Function.update s.last k (some w) }

def Svc.pushDb (s : Svc κ V) (t : DbTask κ V) : Svc κ V := { s with dbTask := s.dbTask.push s.now t.key t }

def Svc.pushRedis (s : Svc κ V) (t : RedisTask κ V) : Svc κ V := { s with redisTask := s.redisTask.push s.now t.key t }

def Svc.removeDb (s : Svc κ V) (k : κ) : Svc κ V := { s with dbTask := (s.dbTask.remove k).2 }

/-- `playerDataCache:addZsetSq`: the key's queue is kept at least until the whole minute before `clearMemTime` is over. -/
def Svc.addZsetSq (conf : Conf κ V) (s : Svc κ V) (k : κ) : Svc κ V :=
  let time := s.now + conf.clearMemTime
  { s with zsetSq := FilterList.add (time - time % 60) k s.zsetSq }

def Svc.removeRedis (s : Svc κ V) (k : κ) : Svc κ V := { s with redisTask := (s.redisTask.remove k).2 }

/-- **What a database call did, by its answer.**  `safe_update` sets the row and answers true; `delete` is sent without
waiting and answers nothing; a statement of mysql answers a result without `err`.  A condition narrows mongo's delete of
the key, and takes the place of the key in mysql's. -/
def Svc.applied (conf : Conf κ V) (s : Svc κ V) : Req κ V → Reply V → Svc κ V
  | .mongo (some .safeUpdate) k (some d) _, .bool true => s.setRow k (some d)
  | .mongo (some .delete) k none _, .nil => s.setRow k none
  | .mongo (some .delete) k (some c) _, .nil =>
    if (s.rows k).any (conf.selects k c k) then s.setRow k none else s
  | .execute (.upsert k d), .done => s.setRow k (some d)
  | .execute (.remove k none), .done => s.setRow k none
  | .execute (.remove k (some c)), .done =>
    { s with rows := fun x => if (s.rows x).any (conf.selects k c x) then none else s.rows x }
  | _, _ => s

/-! ## Reconnecting (`playerDataTimer`) -/

def onRedisReconnect : Co κ V Unit := do
  let s ← get
  if s.redisReconnect then pure ()
  else
    modify (fun s => { s with redisReconnect := true })
    let r ← ask .ping
    if r.truthy then modify (fun s => { s with redisReconnect := false })
    else
      let r ← ask .reconnectRedis
      if r.truthy then modify (fun s => { s with redisReconnect := false }) else pure ()

/-- `dbWrap:onDbReconnect`: whether the database answers, or answers again. -/
def wrapReconnect : Co κ V Bool := do
  let r ← ask .keepalive
  if r.truthy then pure true
  else
    let r ← ask .reconnectConf
    if r.isRaised then pure false
    else
      let r ← ask .reconnectGame
      pure r.truthy

def onDbReconnect : Co κ V Unit := do
  let s ← get
  if s.dbReconnect then pure ()
  else
    modify (fun s => { s with dbReconnect := true })
    let ok ← wrapReconnect
    if ok then modify (fun s => { s with dbReconnect := false }) else pure ()

def isRedisAlive : Co κ V Bool := do
  let r ← ask .redisAlive
  if r.isRaised then .err "isRedisAlive" else pure r.truthy

def isDbAlive : Co κ V Bool := do
  let r ← ask .keepalive
  if r.isRaised then .err "isDbAlive" else pure r.truthy

/-! ## The cache (`playerDataCache`) -/

section Conf

variable (conf : Conf κ V)

/-- `playerDataCache:update`; `flag` keeps a write that redis refused. -/
def cacheUpdate (kid : Nat) (k : κ) (data : V) (flag : Bool) : Co κ V Unit := do
  modify (fun s => s.setMem kid k (some data))
  if kid = conf.kid then
    let r ← ask (.redisSet k data)
    if r.isRaised then
      onRedisReconnect
      when flag (modify (fun s => s.pushRedis ⟨.update, kid, k, some data, none, s.now⟩))
      .err "playerDataCache:update error: local redis crash"
    else modify (fun s => s.setRedis k (some data))
  else pure ()

def cacheDelete (kid : Nat) (k : κ) (custom : Option V) (flag : Bool) : Co κ V Unit := do
  modify (fun s => s.setMem kid k none)
  if kid = conf.kid then
    let r ← ask (.redisDel k)
    if r.isRaised then
      onRedisReconnect
      when flag (modify (fun s => s.pushRedis ⟨.delete, kid, k, none, custom, s.now⟩))
      .err "playerDataCache:delete error: local redis crash"
    else modify (fun s => s.setRedis k none)
  else pure ()

/-- `playerDataCache:query`: memory first, then the local redis for this kingdom's data. -/
def cacheQuery (kid : Nat) (k : κ) : Co κ V (Option V) := do
  let s ← get
  match s.cacheData kid k with
  | some v => pure (some v)
  | none =>
    if kid = conf.kid then
      let r ← ask (.redisGet k)
      if r.isRaised then
        onRedisReconnect
        .err "playerDataCache:query error: redis crash"
      else
        let s ← get
        match s.redis k with
        | some v =>
          modify (fun s => s.setMem kid k (some v))
          pure (some v)
        | none => pure none
    else pure none

/-! ## The database (`mongodbWrap`, `mysqlWrap`) -/

def dbCall (q : Req κ V) : Co κ V (Reply V) := do
  let r ← ask q
  modify (fun s => s.applied conf q r)
  pure r

/-- The task a failed `executeSqlSafe` puts back. -/
def retryTask (db : DbType) (text : Text κ V) (k : κ) (data custom : Option V) (now : Nat) : DbTask κ V :=
  match db with
  | .mongodb => ⟨some text, none, k, data, custom, now⟩
  | .mysql => ⟨none, some text, k, none, none, now⟩

/-- `mongodbWrap:executeSqlSafe`.  The answer of `delete` is empty, and an empty answer counts as a failure. -/
def mongoExecuteSqlSafe (cmd : Option (Text κ V)) (k : κ) (data custom : Option V) : Co κ V (Reply V) := do
  let r ← dbCall conf (.mongo cmd k data custom)
  if r.truthy then pure r
  else
    onDbReconnect
    match cmd with
    | none => .err "bad argument #1 to 'find'"
    | some text =>
      when text.mongoWrites (modify (fun s => s.pushDb (retryTask .mongodb text k data custom s.now)))
      .err "mongodbWrap:executeSqlSafe"

def mysqlExecuteSqlSafe (sql : Option (Text κ V)) (k : κ) : Co κ V (Reply V) :=
  match sql with
  | none => .err "assertion failed!"
  | some text => do
    let r ← dbCall conf (.execute text)
    if r.truthy && !r.hasErr then pure r
    else
      onDbReconnect
      when text.mysqlWrites (modify (fun s => s.pushDb (retryTask .mysql text k none none s.now)))
      .err "mysqlWrap:executeSqlSafe"

def executeSqlSafe (text : Option (Text κ V)) (k : κ) (data custom : Option V) : Co κ V (Reply V) :=
  match conf.dbtype with
  | .mongodb => mongoExecuteSqlSafe conf text k data custom
  | .mysql => mysqlExecuteSqlSafe conf text k

def runTask (task : DbTask κ V) : Co κ V (Reply V) :=
  executeSqlSafe conf (task.cmd <|> task.sql) task.key task.data task.custom

def flushTask (k : κ) (task : DbTask κ V) : Co κ V (Reply V) := executeSqlSafe conf task.sql k none none

def dealDbTask (k : κ) : Co κ V Unit := do
  let s ← get
  if s.dbTask.has k then
    let alive ← isDbAlive
    if alive then
      let s ← get
      match s.dbTask.get k with
      | some task =>
        modify (fun s => s.removeDb k)
        let _ ← flushTask conf k task
        pure ()
      | none => pure ()
    else pure ()
  else pure ()

def sendUpdateTask (db : DbType) (k : κ) (data : V) (now : Nat) : DbTask κ V :=
  match db with
  | .mongodb => ⟨some .safeUpdate, none, k, some data, none, now⟩
  | .mysql => ⟨some .update, some (.upsert k data), k, none, none, now⟩

def sendDeleteTask (db : DbType) (k : κ) (custom : Option V) (now : Nat) : DbTask κ V :=
  match db with
  | .mongodb => ⟨some .delete, none, k, none, custom, now⟩
  | .mysql => ⟨some .delete, some (.remove k custom), k, none, none, now⟩

def updateNow (k : κ) (data : V) : Co κ V (Reply V) :=
  match conf.dbtype with
  | .mongodb => executeSqlSafe conf (some .safeUpdate) k (some data) none
  | .mysql => executeSqlSafe conf (some (.upsert k data)) k none none

/-- The command `delete` runs at once; mongo gets the condition in the place of the data. -/
def deleteNow (k : κ) (custom : Option V) : Co κ V (Reply V) :=
  match conf.dbtype with
  | .mongodb => executeSqlSafe conf (some .delete) k custom none
  | .mysql => executeSqlSafe conf (some (.remove k custom)) k none none

/-- `if not ok or not ret or ret.err then return false end`: indexing a boolean raises. -/
def outcome (r : Reply V) : Co κ V Bool :=
  match r with
  | .bool true => .err "attempt to index a boolean value"
  | .raised | .nil | .bool false | .errd => pure false
  | _ => pure true

/-- No task of the key is left in `dbTask`. -/
def noDbTask (k : κ) : Co κ V Unit := check (fun s _ => !s.dbTask.has k)

/-- No task of the key is left in `redisTask`. -/
def noRedisTask (k : κ) : Co κ V Unit := check (fun s _ => !s.redisTask.has k)

def wrapUpdate (kid : Nat) (k : κ) (data : V) : Co κ V Bool := do
  cacheUpdate conf kid k data true
  if conf.columns k && kid == conf.kid then
    let _ ← (dealDbTask conf k).xpcall
    noDbTask k
    let r ← updateNow conf k data
    outcome r
  else pure true

def wrapSendUpdate (kid : Nat) (k : κ) (data : V) : Co κ V Unit := do
  cacheUpdate conf kid k data true
  if conf.columns k && kid == conf.kid then
    modify (fun s => s.pushDb (sendUpdateTask conf.dbtype k data s.now))
  else pure ()

/-- mysql's `getDeleteSql` reads the key columns, and a module without columns has none. -/
def deletable (k : κ) : Bool := conf.columns k || conf.dbtype == .mongodb

def wrapDelete (kid : Nat) (k : κ) (custom : Option V) : Co κ V Bool :=
  if !deletable conf k then .err "attempt to index a nil value"
  else do
    cacheDelete conf kid k custom true
    if conf.columns k && kid == conf.kid then
      let _ ← (dealDbTask conf k).xpcall
      noDbTask k
      let r ← deleteNow conf k custom
      outcome r
    else pure true

def wrapSendDelete (kid : Nat) (k : κ) (custom : Option V) : Co κ V Unit :=
  if !deletable conf k then .err "attempt to index a nil value"
  else do
    cacheDelete conf kid k custom true
    if conf.columns k && kid == conf.kid then
      modify (fun s => s.pushDb (sendDeleteTask conf.dbtype k custom s.now))
    else pure ()

/-- `dbWrap:query`.  A mongo document is no sequence, so `queryResultPack` makes nothing of it. -/
def wrapQuery (kid : Nat) (k : κ) (custom : Option V) : Co κ V (Option V) :=
  if conf.columns k then do
    let r ← ask (match conf.dbtype with
      | .mongodb => .findOne k custom
      | .mysql => .select k custom)
    match r with
    | .raised => .err "query error1"
    | .errd => .err "query error2"
    | .rows v =>
      cacheUpdate conf kid k v false
      pure (some v)
    | _ => pure none
  else pure none

/-! ## The requests (`playerDataCenter`) -/

def kidOf (k : κ) : Co κ V (Option Nat) :=
  match conf.redisType k with
  | .player | .alliance => do
    let r ← ask (.kidOf k)
    match r with
    | .raised => .err "getKidOfUid"
    | .num n => pure (some n)
    | _ => pure none
  | .kingdom | .common => pure (some conf.kid)

def replay (task : RedisTask κ V) : Co κ V Unit := do
  match task.cmd, task.data with
  | .update, some d =>
    let _ ← wrapUpdate conf task.kid task.key d
    pure ()
  | .update, none => pure ()
  | .delete, _ =>
    let _ ← wrapDelete conf task.kid task.key task.custom
    pure ()

/-- `playerDataCenter:dealRedisTask`: a pending task of another command is replayed first. -/
def dealRedisTask (k : κ) (cmd : Option RedisCmd) : Co κ V Unit := do
  let s ← get
  match s.redisTask.get k with
  | none => pure ()
  | some task =>
    if some task.cmd ≠ cmd then
      let alive ← isRedisAlive
      if alive then
        let s ← get
        match s.redisTask.get k with
        | some task =>
          modify (fun s => s.removeRedis k)
          replay conf task
        | none => pure ()
      else pure ()
    else pure ()

def through (k : κ) (body : Co κ V Unit) : Co κ V Unit := do
  modify (fun s => s.addZsetSq conf k)
  serial k body

/-- A write request: refused, or accepted; the key's redis task is dealt with, then `body` runs.  The write is recorded
as the key's last one on the way, which nothing in the service reads. -/
def writing (k : κ) (w : Write V) (cmd : RedisCmd) (body : Co κ V Unit) : Co κ V Unit :=
  through conf k (do
    let kid ← kidOf conf k
    if kid = some conf.kid && conf.known k then
      let _ ← (dealRedisTask conf k (some cmd)).xpcall
      noRedisTask k
      modify (fun s => s.accept k w)
      body
    else pure ())

def update (k : κ) (data : V) : Co κ V Unit :=
  writing conf k (.put data) .update (do let _ ← wrapUpdate conf conf.kid k data; pure ())

def sendUpdate (k : κ) (data : V) : Co κ V Unit :=
  writing conf k (.put data) .update (wrapSendUpdate conf conf.kid k data)

def delete (k : κ) (custom : Option V) : Co κ V Unit :=
  writing conf k .remove .delete (do let _ ← wrapDelete conf conf.kid k custom; pure ())

def sendDelete (k : κ) (custom : Option V) : Co κ V Unit :=
  writing conf k .remove .delete (wrapSendDelete conf conf.kid k custom)

def query (k : κ) (custom : Option V) (force : Bool) : Co κ V Unit :=
  through conf k (do
    let kid ← kidOf conf k
    match kid with
    | none => pure ()
    | some kid =>
      if conf.known k then
        let data ← (if kid = conf.kid || !force then do
            dealRedisTask conf k none
            cacheQuery conf kid k
          else pure none)
        match data with
        | some _ => pure ()
        | none =>
          if kid = conf.kid then
            noDbTask k
            dealDbTask conf k
            let _ ← wrapQuery conf kid k custom
            pure ()
          else
            let r ← ask (.remoteQuery kid k custom force)
            match r with
            | .raised => .err "assertion failed!"
            | .doc v | .rows v => cacheUpdate conf kid k v false
            | _ => pure ()
      else pure ())

/-- The timers' loop after a task: a pause every hundred, an end after fifty thousand, and an end at the first task
queued since the tick began. -/
def pace (opt taskTime time : Nat) (next : Co κ V Unit) : Co κ V Unit :=
  let rest := if time ≤ taskTime then pure () else next
  if opt % 100 = 0 then
    if 50000 < opt then pure ()
    else do
      let _ ← ask .sleep
      rest
  else rest

/-- The loop of `onDealDbTask` and `onDealRedisTask`: pop the oldest task, then run it through its key's queue.  It
ends by itself at `opt = 50100`, so that much fuel is never used up. -/
def dealLoop {τ : Type} (pop : Svc κ V → Option τ × Svc κ V) (key : τ → κ) (taskTime : τ → Nat) (run : τ → Co κ V Unit)
    (time : Nat) : Nat → Nat → Co κ V Unit
  | 0, _ => pure ()
  | fuel + 1, opt => do
    let s ← get
    match (pop s).1 with
    | none => pure ()
    | some task =>
      serialTake (key task) (fun s => (pop s).2.addZsetSq conf (key task)) (run task)
      pace (opt + 1) (taskTime task) time (dealLoop pop key taskTime run time fuel (opt + 1))

def Svc.popDb (s : Svc κ V) : Option (DbTask κ V) × Svc κ V := (s.dbTask.pop.1, { s with dbTask := s.dbTask.pop.2 })

def Svc.popRedis (s : Svc κ V) : Option (RedisTask κ V) × Svc κ V :=
  (s.redisTask.pop.1, { s with redisTask := s.redisTask.pop.2 })

def onDealDbTask : Co κ V Unit := do
  let s ← get
  if 0 < s.dbTask.count then
    let alive ← isDbAlive
    if alive then
      let s ← get
      dealLoop conf Svc.popDb DbTask.key DbTask.time (fun task => do let _ ← runTask conf task; pure ()) s.now 50100 0
    else pure ()
  else pure ()

def onDealRedisTask : Co κ V Unit := do
  let s ← get
  if 0 < s.redisTask.count then
    let alive ← isRedisAlive
    if alive then
      let s ← get
      dealLoop conf Svc.popRedis RedisTask.key RedisTask.time (replay conf) s.now 50100 0
    else pure ()
  else pure ()

/-! ## Leaving (`playerDataCenter:logout`, `saveMail`) and dropping queues -/

/-- `delSq`.  With one queue a key here, dropping it is only recorded: it is harmless while the queue is idle. -/
def delSq (k : κ) : Co κ V Unit := .poke k id (.ret ())

def each (f : κ → Co κ V Unit) : List κ → Co κ V Unit
  | [] => pure ()
  | k :: ks => do
    f k
    each f ks

def flushKey (k : κ) : Co κ V Unit :=
  through conf k (do
    dealRedisTask conf k none
    dealDbTask conf k)

def saveMail : Co κ V Unit := do
  let s ← get
  each (fun k => do
    flushKey conf k
    delSq k) (s.dbTask.keys conf.mail)

def saveMailLoop : List Nat → Co κ V Unit
  | [] => pure ()
  | i :: is => do
    if i = conf.idx then saveMailLoop is
    else
      let r ← ask (.saveMail i)
      if r.isRaised then .err "saveMail" else saveMailLoop is

def setKidOfUid (account : κ) (uid kid : Nat) : Co κ V Unit := do
  let r ← ask (.hSetKid uid kid)
  if r.isRaised then .err "hSet"
  else
    let r ← ask (.publishKid uid kid)
    if r.isRaised then .err "publish"
    else
      let _ ← executeSqlSafe conf (some (.other s!"update account set kid = '{kid}' where uid = '{uid}'")) account none none
      pure ()

/-- `playerDataCenter:logout` of `uid`, whose keys of player modules are `ks` and whose account is `account`. -/
def logout (uid : Nat) (ks : List κ) (account : κ) (newKid : Nat) : Co κ V Unit := do
  each (fun k => do
    let s ← get
    if s.redisTask.has k || s.dbTask.has k then flushKey conf k else pure ()) ks
  each delSq ks
  if 0 < newKid then
    modify (fun s => { s with redis := fun x => if x ∈ ks then none else s.redis x })
    saveMail conf
    saveMailLoop conf (List.range' 1 conf.serviceNum)
    setKidOfUid conf account uid newKid
  else pure ()

/-- One batch of `onTimerClearSq`: the count so far, and whether a queue that is not due yet was met. -/
def clearBatch (time : Nat) : List (Nat × κ) → Nat → Co κ V (Nat × Bool)
  | [], count => pure (count, false)
  | (score, k) :: rest, count =>
    if time < score then pure (count, true)
    else do
      modify (fun s => { s with zsetSq := FilterList.rem k s.zsetSq })
      delSq k
      clearBatch time rest (count + 1)

/-- A full batch removes five hundred, so a hundred batches end the loop. -/
def clearSqLoop (time : Nat) : Nat → Nat → Co κ V Unit
  | 0, _ => pure ()
  | fuel + 1, count => do
    let s ← get
    let keyList := s.zsetSq.take 500
    let (count, isEnd) ← clearBatch time keyList count
    if keyList.length < 500 || isEnd || 50000 ≤ count then pure ()
    else
      let _ ← ask .sleep
      clearSqLoop time fuel count

def onTimerClearSq : Co κ V Unit := do
  let s ← get
  clearSqLoop s.now 100 0

end Conf

end Store
end Sncpp
