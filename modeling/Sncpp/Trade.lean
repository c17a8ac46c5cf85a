import Sncpp.BackpackRep
import Sncpp.CoOwn
/-!
# Trade — the market of the players (`tradeMgr`, `tradeCtrl`, `tradeCmd`)

A player lists items for gold: they leave his backpack, the market gets the good, and the player keeps a record of it.
The three are in three services, and what one does in another is a call: it may not get there, and its answer may not
come back.  A good that is withdrawn or bought goes to a backpack by another such call.
-/
namespace Sncpp
namespace Trade

open Pack Tally
open Co (Prog Sys)
open Co.Prog (get modify note ask)

structure Good where
  idx : Nat
  uid : Nat
  type : Nat
  id : Nat
  count : Int
  gold : Int
deriving DecidableEq

def gold : Nat := 1

/-- What is recorded: the goods that were taken from a backpack to be listed, those that went to a backpack and whose, and
what a player paid and did not get back. -/
structure Log where
  listed : List Good
  given : List (Good × Nat)
  paid : Nat → Int

def Log.pay (l : Log) (uid : Nat) (amount : Int) :
    Log := { l with paid := Function.update l.paid uid (l.paid uid + amount) }

def Log.give (l : Log) (g : Good) (uid : Nat) : Log := { l with given := (g, uid) :: l.given }

/-- The backpacks of the players, the goods of `tradeMgr` by type and id, and the goods of each player's `tradeCtrl`. -/
structure Svc where
  packs : Nat → BackpackCtrl
  goods : Nat → Nat → Option Good
  records : Nat → Nat → Option Good
  nextIdx : Nat
  notes : Log

inductive Stage where
  | deduct
  | list
  | giveBack
  | withdraw
  | hand
  | pay
  | buy
  | refund
  | notify
  | credit
deriving DecidableEq

inductive Req where
  | getKidOfUid (st : Stage) (uid : Nat)
  | send (st : Stage)
  | answer (st : Stage)
deriving DecidableEq

/-- `no` is an answer without values: there is nobody to ask, or what was asked raised. -/
inductive Reply where
  | raised
  | yes
  | no
deriving DecidableEq

abbrev Co (α : Type) : Type := Prog Svc Empty Req Reply α

def Svc.setPack (s : Svc) (uid : Nat) (c : BackpackCtrl) : Svc := { s with packs := Function.update s.packs uid c }

def Svc.setGood (s : Svc) (type idx : Nat) (g : Option Good) : Svc :=
  { s with goods := Function.update s.goods type (Function.update (s.goods type) idx g) }

def Svc.setRecord (s : Svc) (uid idx : Nat) (g : Option Good) : Svc :=
  { s with records := Function.update s.records uid (Function.update (s.records uid) idx g) }

section Calls

variable (conf : Conf) (ord : Visit)

/-- `deductItem` of a backpack, for items to be listed.  The id of the good is drawn here; nobody sees it before the market
does. -/
def deductGoods (uid id : Nat) (count price : Int) (s : Svc) : Option Good × Svc :=
  let r := (s.packs uid).deductItem conf id count
  let g : Good := ⟨s.nextIdx, uid, 0, id, count, price⟩
  if r.1 = .ok () then
    (some g, { s.setPack uid r.2 with nextIdx := s.nextIdx + 1, notes := { s.notes with listed := g :: s.notes.listed } })
  else (none, s.setPack uid r.2)

def deductGold (uid : Nat) (amount : Int) (s : Svc) : Option Unit × Svc :=
  let r := (s.packs uid).deductItem conf gold amount
  if r.1 = .ok () then (some (), { s.setPack uid r.2 with notes := s.notes.pay uid amount }) else (none, s.setPack uid r.2)

/-- `addItem` of a backpack; `log` is what is recorded of it. -/
def addItem (uid id : Nat) (count : Int) (log : Log → Log) (s : Svc) : Option Unit × Svc :=
  let r := (s.packs uid).addItems conf ord [⟨id, count⟩]
  if r.1 = .ok () then (some (), { s.setPack uid r.2 with notes := log s.notes }) else (none, s.setPack uid r.2)

end Calls

def mgrAddGoods (g : Good) (s : Svc) : Option Unit × Svc := (some (), s.setGood g.type g.idx (some g))

def mgrRemGoods (uid type idx : Nat) (s : Svc) : Option Unit × Svc :=
  match s.goods type idx with
  | some g => if g.uid = uid then (some (), s.setGood type idx none) else (none, s)
  | none => (none, s)

def buyGood (uid type idx id : Nat) (gold : Int) (s : Svc) : Option Good × Svc :=
  match s.goods type idx with
  | some g => if g.uid ≠ uid ∨ g.id ≠ id ∨ g.gold ≠ gold then (none, s) else (some g, s.setGood type idx none)
  | none => (none, s)

/-- Whether something is recorded of a call: that it gets there and succeeds (`must`), or that its answer comes back if it
succeeded (`back`). -/
inductive Watch where
  | free
  | must
  | back
deriving DecidableEq

def getKidOfUid (w : Watch) (st : Stage) (uid : Nat) : Co Unit := do
  let r ← ask (.getKidOfUid st uid)
  note (w = .must) (fun _ => decide (r = .yes))
  if r = .yes then pure () else .err "attempt to call a nil address"

/-- A call of another service.  `none` is an answer that is not a success. -/
def call {β : Type} (w : Watch) (st : Stage) (f : Svc → Option β × Svc) : Co (Option β) := do
  let r ← ask (.send st)
  note (w = .must) (fun s => decide (r = .yes) && (f s).1.isSome)
  if r = .raised then .err "call failed"
  else if r = .no then pure none
  else
    let s ← get
    modify (fun s => (f s).2)
    let r ← ask (.answer st)
    note (w = .back && (f s).1.isSome) (fun _ => decide (r = .yes))
    if r = .raised then .err "call failed"
    else if r = .no then pure none
    else pure (f s).1

section Programs

variable (conf : Conf) (ord : Visit)

def hand (st : Stage) (uid : Nat) (g : Good) : Co Unit := do
  getKidOfUid .must st uid
  let _ ← call .must st (addItem conf ord uid g.id g.count (fun l => l.give g uid))

def giveGold (st : Stage) (uid : Nat) (amount : Int) : Co Unit := do
  getKidOfUid .free st uid
  let _ ← call .free st (addItem conf ord uid gold amount (fun l => l.pay uid (-amount)))

def addGoods (uid id : Nat) (count price : Int) : Co Unit :=
  if price ≤ 0 then pure ()
  else do
    getKidOfUid .free .deduct uid
    let ok ← call .back .deduct (deductGoods conf uid id count price)
    match ok with
    | none => pure ()
    | some g =>
      let r ← (call .back .list (mgrAddGoods g)).xpcall
      match r with
      | .ok (some ()) => modify (fun s => s.setRecord uid g.idx (some g))
      | _ =>
        let _ ← (hand conf ord .giveBack uid g).xpcall

def remGoods (uid idx : Nat) : Co Unit := do
  let s ← get
  match s.records uid idx with
  | none => .err "attempt to index a nil value (local 'good')"
  | some g =>
    modify (fun s => s.setRecord uid idx none)
    let r ← (call .back .withdraw (mgrRemGoods uid g.type g.idx)).xpcall
    match r with
    | .ok (some ()) => hand conf ord .hand uid g
    | _ => pure ()

def sellGoods (uid idx : Nat) : Co Unit := do
  let s ← get
  match s.records uid idx with
  | none => pure ()
  | some g =>
    modify (fun s => s.setRecord uid idx none)
    let _ ← (giveGold conf ord .credit uid g.gold).xpcall

/-- The call of `sellGoods` for the seller.  A good has no field `sellUid`: nobody is found to call. -/
def notifySeller : Co Unit := do
  let _ ← ask (.send .notify)
  .err "attempt to perform arithmetic on a nil value"

def reqBuyGoods (uid sellUid type idx id : Nat) (price : Int) : Co Unit :=
  if sellUid = uid then pure ()
  else do
    getKidOfUid .free .pay uid
    let ok ← call .free .pay (deductGold conf uid price)
    if ok = none then pure ()
    else
      let r ← (call .back .buy (buyGood sellUid type idx id price)).xpcall
      match r with
      | .ok (some g) =>
        let _ ← notifySeller.xpcall
        hand conf ord .hand uid g
      | _ =>
        let _ ← (giveGold conf ord .refund uid price).xpcall

inductive Op where
  | addGoods (uid id : Nat) (count price : Int)
  | remGoods (uid idx : Nat)
  | sellGoods (uid idx : Nat)
  | reqBuyGoods (uid sellUid type idx id : Nat) (price : Int)

def Op.prog : Op → Co Unit
  | .addGoods uid id count price => Trade.addGoods conf ord uid id count price
  | .remGoods uid idx => Trade.remGoods conf ord uid idx
  | .sellGoods uid idx => Trade.sellGoods conf ord uid idx
  | .reqBuyGoods uid sellUid type idx id price => Trade.reqBuyGoods conf ord uid sellUid type idx id price

def tradeSys : Sys Svc Empty Req Reply Op Empty := ⟨Op.prog conf ord, fun _ _ => true, fun e => e.elim⟩

end Programs

/-- What a player's backpack has of an item beyond what he was given less what he listed and paid. -/
def owed (l : Log) (uid k : Nat) : Int :=
  (l.given.map (fun x => if x.2 = uid ∧ x.1.id = k then x.1.count else 0)).sum -
    (l.listed.map (fun g => if g.uid = uid ∧ g.id = k then g.count else 0)).sum - if k = gold then l.paid uid else 0

def inMarket (s : Svc) (g : Good) : Bool := decide (s.goods g.type g.idx = some g)

def stock (s : Svc) (k : Nat) : Int :=
  ((s.notes.listed.filter (inMarket s)).map (fun g => if g.id = k then g.count else 0)).sum

def Traders (l : Log) (us : Finset Nat) : Prop := (∀ g ∈ l.listed, g.uid ∈ us) ∧ ∀ x ∈ l.given, x.2 ∈ us

/-- **Trade conserves goods**: every good is in the market and nobody was given it, or it is not and one player was given
it, once; backpacks changed by what was given, listed and paid; and of every item the backpacks and the market have
together what they had, payments apart. -/
structure Conserved (conf : Conf) (s₀ s : Svc) : Prop where
  whole : ∀ g ∈ s.notes.listed, inMarket s g = true ∧ (∀ u, (g, u) ∉ s.notes.given) ∨
    inMarket s g = false ∧ ∃ u, s.notes.given.filter (fun x => decide (x.1 = g)) = [(g, u)]
  known : ∀ t i g, s.goods t i = some g → g ∈ s.notes.listed ∧ g.type = t ∧ g.idx = i
  ledger : ∀ uid k, held conf (s.packs uid) k - owed s.notes uid k = held conf (s₀.packs uid) k - owed s₀.notes uid k
  total : ∀ k us, Traders s₀.notes us → Traders s.notes us →
    ∑ u ∈ us, held conf (s.packs u) k + stock s k + (if k = gold then ∑ u ∈ us, s.notes.paid u else 0) =
      ∑ u ∈ us, held conf (s₀.packs u) k + stock s₀ k + (if k = gold then ∑ u ∈ us, s₀.notes.paid u else 0)

structure Sane (c : BackpackCtrl) : Prop where
  size : ∀ b, (c.backpacks b).curSize ≤ (c.backpacks b).maxSize
  positive : ∀ b, Positive (c.backpacks b).items

/-- A player's record is of a good of his, which is the one in the market if that id is there. -/
structure Recorded (listed : List Good) (nextIdx uid i : Nat) (g : Good) : Prop where
  idx : g.idx = i
  uid : g.uid = uid
  drawn : i < nextIdx
  same : ∀ x ∈ listed, x.idx = i → x = g

structure Sensible (packs : Nat → BackpackCtrl) (market : List Good) (records : Nat → Nat → Option Good) (nextIdx : Nat) :
    Prop where
  packs : ∀ uid, Sane (packs uid)
  idx : (market.map Good.idx).Nodup
  drawn : ∀ g ∈ market, g.idx < nextIdx
  records : ∀ {uid i g}, records uid i = some g → Recorded market nextIdx uid i g

def opening (packs : Nat → BackpackCtrl) (market : List Good) (records : Nat → Nat → Option Good) (nextIdx : Nat) :
    Svc where
  packs := packs
  goods t i := market.find? (fun g => decide (g.type = t) && decide (g.idx = i))
  records := records
  nextIdx := nextIdx
  notes := ⟨market, [], fun _ => 0⟩

end Trade
end Sncpp
