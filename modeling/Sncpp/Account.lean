import Sncpp.Co
import Sncpp.Conhash
/-!
# Account — the accounts of the login server

`accountHelper.lua` and `loginSlave:auth` of the login server, any number of slaves over one database.  A slave asks for a
user's account, makes one if there is none, and names the gate of the kingdom the user goes to.

A database command is carried out at one moment between the request and its answer; it may fail, before or after it is
carried out, and then the caller gets an error or an answer that says so (`Fate`).
-/
namespace Sncpp
namespace Account

open Co (Prog)

structure Kingdom where
  kid : Nat
  nodeid : Nat
  isNew : Bool
deriving DecidableEq

structure Gate where
  nodeid : Nat
  web : String
  address : String
  port : Nat

structure WhiteList where
  opened : Bool
  ipList : Option (List Char)

structure Conf where
  kingdoms : List Kingdom
  gates : List Gate
  ipWhiteList : Option WhiteList

namespace Conf

variable (conf : Conf)

def getKingdomConfByKid (kid : Nat) : Option Kingdom := conf.kingdoms.find? (fun v => v.kid == kid)

def getKingdomIDListByNodeID (nodeid : Nat) :
    List Nat := (conf.kingdoms.filter (fun v => v.nodeid == nodeid)).map Kingdom.kid

def gateConfGame (nodeid : Nat) : Option Gate := conf.gates.find? (fun v => v.nodeid == nodeid)

end Conf

def matchesAt : List Char → List Char → Bool
  | [], _ => true
  | _ :: _, [] => false
  | p :: ps, c :: cs => (p == '.' || p == c) && matchesAt ps cs

def find (text ip : List Char) : Bool := text.tails.any (matchesAt ip)

def Conf.allows (conf : Conf) (addr : List Char) : Bool :=
  match conf.ipWhiteList with
  | some ⟨true, some ipList⟩ => find ipList (addr.takeWhile (fun c => c != ':'))
  | _ => false

inductive ImportStyle where
  | balance
  | one
deriving DecidableEq

structure Helper where
  importStyle : ImportStyle
  aliveList : List (Nat × List Nat)
  svrList : List Nat
  maxKid : Option Nat
  defaultKid : Option Nat
  hash : Conhash

namespace Helper

def ctor : Helper := ⟨.balance, [], [], none, none, .new⟩

variable (md : Digest) (h : Helper)

def alive (id : Nat) : Bool := (h.aliveList.lookup id).isSome

def newer (maxKid : Option Nat) (v : Kingdom) : Option Nat :=
  match maxKid with
  | none => some v.kid
  | some kid => if v.kid > kid then some v.kid else some kid

def updateNewUserKid (conf : Conf) : Helper :=
  let news := conf.kingdoms.filter Kingdom.isNew
  let svrList := news.map Kingdom.nodeid
  { h with
    svrList := svrList
    maxKid := news.foldl newer none
    defaultKid := none
    hash := (h.aliveList.filter (fun e => !svrList.contains e.1)).foldl (fun hash e =>
      e.2.foldl (Conhash.deletenode md) hash) h.hash
    aliveList := h.aliveList.filter (fun e => svrList.contains e.1) }

def registerGate (conf : Conf) (nodeid : Nat) : Helper :=
  if !h.alive nodeid && h.svrList.contains nodeid then
    let kidList := conf.getKingdomIDListByNodeID nodeid
    if kidList.isEmpty then h
    else
      { h with
        aliveList := h.aliveList ++ [(nodeid, kidList)]
        hash := kidList.foldl (fun hash kid => hash.addnode md kid 1024) h.hash }
  else h

def unregisterGate (nodeid : Nat) : Helper :=
  match h.aliveList.lookup nodeid with
  | none => h
  | some kidList =>
    { h with hash := kidList.foldl (Conhash.deletenode md) h.hash, aliveList := h.aliveList.filter (fun e => e.1 != nodeid) }

def setImportStyle (mStyle : ImportStyle) : Helper := { h with importStyle := mStyle }

end Helper

inductive DbType where
  | mongodb
  | mysql
deriving DecidableEq

structure Row where
  id : Nat
  user : String
  kid : Nat
  status : Nat
deriving DecidableEq

/-- The accounts, the number that the next account gets or the last one got, and the default kingdom of the configuration. -/
structure Db where
  account : List Row
  seq : Nat
  defaultKid : Option Nat

structure Found where
  uid : Option Nat
  kid : Option Nat
  status : Option Nat
deriving DecidableEq

def accountColumns : List String := ["_id", "user", "kid", "status", "createtime", "updatetime"]

namespace Db

variable (db : Db)

def find (user : String) : Option Found :=
    (db.account.find? (fun r => r.user == user)).map (fun r => ⟨r.id, r.kid, r.status⟩)

/-- A `select` of the account's columns, of which the first of `ret[1]` is read as `_id`: it fails on a column that is not
there. -/
def select (columns : List String) (user : String) : Option (Option Found) :=
  if columns.all accountColumns.contains then
    some ((db.account.find? (fun r => r.user == user)).map (fun r =>
      ⟨if columns.contains "_id" then some r.id else none, if columns.contains "kid" then some r.kid else none,
        if columns.contains "status" then some r.status else none⟩))
  else none

theorem select_uid (user : String) : db.select ["uid", "kid", "status"] user = none := by
  unfold select
  rw [if_neg (by decide)]

def nextid : Db × Nat := ({ db with seq := db.seq + 1 }, db.seq + 1)

def safe_insert (row : Row) : Db × Bool :=
  if db.account.any (fun r => r.user == row.user || r.id == row.id) then (db, false)
  else ({ db with account := db.account ++ [row] }, true)

def insert (user : String) (kid status : Nat) : Db × Nat :=
  ({ db with account := db.account ++ [⟨db.seq, user, kid, status⟩], seq := db.seq + 1 }, db.seq)

end Db

/-- The slaves' helpers over one configuration and one database, and the answers that were given. -/
structure Site where
  helper : Nat → Helper
  conf : Conf
  db : Db
  given : List (String × Nat)

inductive Ask where
  | handshake
  | findAccount
  | findGeneral
  | findAndModify
  | insert
  | answer
  | migrateIn (kid uid : Nat)
  | migrateOut (kid uid newKid : Nat)
  | setKidOfUid (uid kid : Nat)
deriving DecidableEq

inductive Fate where
  | fine
  | fails (done raised : Bool)

structure Info where
  uid : Nat
  kid : Nat
  status : Option Nat
  isNewUser : Bool
  gatenodeid : Nat
  gateip : String
  gateport : Nat

abbrev Run (α : Type) : Type := Prog Site Empty Ask Fate α

/-- A database command; no answer is an answer that says it failed. -/
def callDbSvr {α : Type} (q : Ask) (command : Db → Db × α) : Run (Option α) := do
  match ← Prog.ask q with
  | .fine =>
    let a ← Prog.act (fun s => { s with db := (command s.db).1 }) (fun s => .ret (command s.db).2)
    let _ ← Prog.ask .answer
    pure (some a)
  | .fails done raised =>
    Prog.when done (Prog.modify (fun s => { s with db := (command s.db).1 }))
    let _ ← Prog.ask .answer
    if raised then .err "call" else pure none

/-- No answer is the look-up's failure, and an account without an uid is none. -/
def queryAccountByUser (dbtype : DbType) (user : String) : Run (Option Found) :=
  match dbtype with
  | .mongodb => do
    match ← callDbSvr .findAccount (fun db => (db, db.find user)) with
    | some (some found) => pure (some found)
    | _ => pure (some ⟨none, none, none⟩)
  | .mysql => do
    match ← callDbSvr .findAccount (fun db => (db, db.select ["uid", "kid", "status"] user)) with
    | some (some (some found)) => pure (some found)
    | some (some none) => pure (some ⟨none, none, none⟩)
    | _ => pure none

def setHelper (i : Nat) (f : Helper → Helper) (s : Site) :
    Site := { s with helper := Function.update s.helper i (f (s.helper i)) }

def generateKid (i : Nat) : Run (Option Nat) := do
  let s ← Prog.get
  match (s.helper i).defaultKid with
  | some kid => pure (if kid > 0 then some kid else none)
  | none =>
    let ret ← callDbSvr .findGeneral (fun db => (db, db.defaultKid))
    let kid := (ret.getD none).getD 0
    Prog.modify (setHelper i (fun h => { h with defaultKid := some kid }))
    pure (if kid > 0 then some kid else none)

def lookup (md : Digest) (i : Nat) (user : String) : Run (Option Nat) := do
  let s ← Prog.get
  pure ((s.helper i).hash.lookup md user)

def importKid (md : Digest) (i : Nat) (user : String) : Run (Option Nat) := do
  let s ← Prog.get
  if (s.helper i).importStyle = .one then
    match ← generateKid i with
    | some kid => pure (some kid)
    | none => lookup md i user
  else lookup md i user

def NORMAL : Nat := 0

def createAccount (dbtype : DbType) (user : String) (kid status : Nat) : Run (Option Nat) :=
  match dbtype with
  | .mongodb => do
    match ← callDbSvr .findAndModify Db.nextid with
    | none => .err "accountHelper:createAccount error"
    | some uid =>
      match ← callDbSvr .insert (fun db => db.safe_insert ⟨uid, user, kid, status⟩) with
      | some true => pure (some uid)
      | _ => .err "accountHelper:createAccount error"
  | .mysql => callDbSvr .insert (fun db => db.insert user kid status)

def gateOf (uid kid : Nat) (status : Option Nat) (isNewUser : Bool) : Run (Option Info) := do
  let s ← Prog.get
  match s.conf.getKingdomConfByKid kid with
  | none => pure none
  | some kingdomConf =>
    match s.conf.gateConfGame kingdomConf.nodeid with
    | none => pure none
    | some gateConf =>
      pure (some ⟨uid, kid, status, isNewUser, gateConf.nodeid,
        if gateConf.web ≠ "127.0.0.1" ∧ gateConf.web ≠ "localhost" then gateConf.web else gateConf.address, gateConf.port⟩)

def assignKid (md : Digest) (i : Nat) (user : String) (addr : List Char) (kid : Option Nat) : Run (Option Nat) := do
  let s ← Prog.get
  match if s.conf.allows addr then (s.helper i).maxKid else kid with
  | some kid => pure (some kid)
  | none => importKid md i user

def newAccount (md : Digest) (dbtype : DbType) (i : Nat) (user : String) (addr : List Char) (kid : Option Nat) :
    Run (Option Info) := do
  let s ← Prog.get
  if (s.helper i).aliveList.isEmpty then pure none
  else
    let kid ← assignKid md i user addr kid
    let s ← Prog.get
    match kid with
    | none => pure none
    | some kid =>
      if (s.helper i).alive kid then
        match ← createAccount dbtype user kid NORMAL with
        | none => pure none
        | some uid => gateOf uid kid (some NORMAL) true
      else pure none

/-- A user whose kingdom is not the one that the hash has now goes there; both moves are protected calls. -/
def migrate (uid : Nat) (kid newkid : Option Nat) : Run Unit :=
  match newkid with
  | none => pure ()
  | some newkid =>
    if some newkid = kid then pure ()
    else do
      let _ ← Prog.ask (.migrateIn newkid uid)
      let _ ← Prog.ask (.migrateOut (kid.getD 0) uid newkid)
      match ← Prog.ask (.setKidOfUid uid newkid) with
      | .fails _ true => .err "setKidOfUid"
      | _ => pure ()

def oldAccount (md : Digest) (i : Nat) (user : String) (uid : Nat) (kid status : Option Nat) : Run (Option Info) := do
  let newkid ← lookup md i user
  migrate uid kid newkid
  let s ← Prog.get
  match newkid.or kid with
  | none => pure none
  | some kid => if (s.helper i).alive kid then gateOf uid kid status false else pure none

def getAccountInfo (md : Digest) (dbtype : DbType) (i : Nat) (user : String) (addr : List Char) : Run (Option Info) := do
  match ← queryAccountByUser dbtype user with
  | none => pure none
  | some found =>
    match found.uid with
    | none => newAccount md dbtype i user addr found.kid
    | some uid => oldAccount md i user uid found.kid found.status

def auth (md : Digest) (dbtype : DbType) (i : Nat) (user : String) (addr : List Char) : Run Unit := do
  match ← Prog.ask .handshake with
  | .fails _ _ => .err "challenge failed"
  | .fine =>
    match ← getAccountInfo md dbtype i user addr with
    | none => .err "account failed"
    | some info => Prog.modify (fun s => { s with given := s.given ++ [(user, info.uid)] })

/-! ## What else comes to the slaves -/

inductive Change where
  | reload (conf : Conf)
  | updateNewUserKid (i : Nat)
  | registerGate (i nodeid : Nat)
  | unregisterGate (i nodeid : Nat)
  | setImportStyle (i : Nat) (mStyle : ImportStyle)

def Change.apply (md : Digest) (c : Change) (s : Site) : Site :=
  match c with
  | .reload conf => { s with conf := conf }
  | .updateNewUserKid i => setHelper i (fun h => h.updateNewUserKid md s.conf) s
  | .registerGate i nodeid => setHelper i (fun h => h.registerGate md s.conf nodeid) s
  | .unregisterGate i nodeid => setHelper i (fun h => h.unregisterGate md nodeid) s
  | .setImportStyle i mStyle => setHelper i (fun h => h.setImportStyle mStyle) s

end Account
end Sncpp
