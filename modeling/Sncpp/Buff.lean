import Mathlib.Algebra.BigOperators.Group.List.Basic
import Mathlib.Algebra.Ring.Int.Defs
import Sncpp.TimerMgr
/-!
# Buff — the buffs of a player (`buffCtrl.lua`)

A buff lies in the table of buffs and in the detail of its effect, under its id; the value of an effect is adjusted by the
value of a buff that comes or goes, less that of the buff it replaces.  Each change is saved, and sets the timer to the
first end time to come; the timer's callback removes the buffs whose end time has come.
-/
namespace Sncpp
namespace Buff

inductive BuffEffect where
  | atkPlus
  | defPlus
  | hpPlus
  | luckyPlus
deriving DecidableEq

inductive TimerType where
  | heartbeat
  | buff
  | newDay
deriving DecidableEq

/-- The data of a `buffCell`.  The two tables share it, and nothing writes to it. -/
structure Cell where
  buffId : Nat
  source : Nat
  effect : BuffEffect
  value : Int
  startTime : Int
  endTime : Int
deriving DecidableEq

abbrev Cells := AList (fun _ : Nat => Cell)

structure Effect where
  effect : BuffEffect
  value : Int
  detail : Cells
deriving DecidableEq

structure Data where
  buffs : Cells
  effects : BuffEffect → Option Effect

/-- The order in which `pairs` comes to the entries of a table. -/
structure Pairs where
  order : List ((_ : Nat) × Cell) → List ((_ : Nat) × Cell)
  perm : ∀ l, (order l).Perm l

/-- The agent of a player: the module's data, what is saved of it, and the agent's timers. -/
structure World where
  data : Data
  db : Option Data
  timerMgr : TimerMgr Nat TimerType

def defaultData : Data := ⟨∅, fun _ => none⟩

def queryTurn (source : Nat) (ret : Effect) (e : (_ : Nat) × Cell) : Effect :=
  if e.2.source ≠ source then { ret with value := ret.value - e.2.value, detail := ret.detail.erase e.1 } else ret

def Data.queryBuff (d : Data) (ord : Pairs) (effect : BuffEffect) (source : Option Nat) : Option Effect :=
  match d.effects effect, source with
  | none, _ => none
  | some ret, some source => some ((ord.order ret.detail.entries).foldl (queryTurn source) ret)
  | some ret, none => some ret

def nearTurn (nearTime : Option Int) (e : (_ : Nat) × Cell) : Option Int :=
  if 0 < e.2.endTime then
    match nearTime with
    | none => some e.2.endTime
    | some t => if e.2.endTime < t then some e.2.endTime else nearTime
  else nearTime

section Player

variable (uid : Nat) (ord : Pairs) (now : Int)

def World.updateTimer (w : World) : World :=
  let nearTime := (ord.order w.data.buffs.entries).foldl nearTurn none
  { w with timerMgr := w.timerMgr.updateTimer now uid .buff (nearTime.getD 0) }

/-- Sending what is to be saved may fail; that is an error. -/
def World.updateDB (w : World) (sent : Bool) : World := if sent then { w with db := some w.data } else w

def Data.effectOf (d : Data) (effect : BuffEffect) : Effect := (d.effects effect).getD ⟨effect, 0, ∅⟩

def World.addBuff (w : World) (sent : Bool) (buffId source : Nat) (lastTime : Option Rat) : World :=
  let lastTime := lastTime.getD 0
  let startTime := now
  let endTime := (startTime + lastTime).ceil
  let effect := .atkPlus
  let value := 10
  let valueold := ((w.data.buffs.lookup buffId).map Cell.value).getD 0
  let info : Cell := ⟨buffId, source, effect, value, startTime, endTime⟩
  let eff := w.data.effectOf info.effect
  let eff := { eff with value := eff.value + info.value - valueold, detail := eff.detail.insert info.buffId info }
  let data : Data := ⟨w.data.buffs.insert info.buffId info, Function.update w.data.effects info.effect (some eff)⟩
  let w := ({ w with data := data } : World).updateDB sent
  if sent then w.updateTimer uid ord now else w

/-- The answer is none where it is an error. -/
def World.removeBuff (w : World) (sent : Bool) (buffId : Nat) : World × Option Bool :=
  match w.data.buffs.lookup buffId with
  | none => (w, some false)
  | some info =>
    let w : World := { w with data := { w.data with buffs := w.data.buffs.erase buffId } }
    match w.data.effects info.effect with
    | none => (w, some false)
    | some eff =>
      match eff.detail.lookup buffId with
      | none => (w, some false)
      | some _ =>
        let eff := { eff with detail := eff.detail.erase buffId, value := eff.value - info.value }
        let data : Data := { w.data with effects := Function.update w.data.effects info.effect (some eff) }
        let w := ({ w with data := data } : World).updateDB sent
        if sent then (w.updateTimer uid ord now, some true) else (w, none)

def expireTurn (sent : Nat → Bool) (w : World) (k : Nat) : World :=
  match w.data.buffs.lookup k with
  | none => w
  | some v =>
    if 0 < v.endTime ∧ v.endTime ≤ now then
      match w.removeBuff uid ord now (sent v.buffId) v.buffId with
      | (w, some _) => w
      -- so that an error does not come again and again
      | (w, none) => { w with data := { w.data with buffs := w.data.buffs.erase v.buffId } }
    else w

def World.timerCallback (w : World) (sent : Nat → Bool) : World :=
  (((ord.order w.data.buffs.entries).map Sigma.fst).foldl (expireTurn uid ord now sent) w).updateTimer uid ord now

def World.agentTimerCallback (w : World) (sent : Nat → Bool) : World :=
  match w.timerMgr.hasTimer uid .buff with
  | (timerMgr, true) => ({ w with timerMgr := timerMgr } : World).timerCallback uid ord now sent
  | (timerMgr, false) => { w with timerMgr := timerMgr }

/-- `init` in a new agent; the query may find nothing. -/
def World.init (w : World) (sent found : Bool) : World :=
  match w.db, found with
  | some data, true => ({ w with data := data, timerMgr := .ctor } : World).updateTimer uid ord now
  | _, _ =>
    let w := ({ w with data := defaultData, timerMgr := .ctor } : World).updateDB sent
    if sent then w.updateTimer uid ord now else w

end Player

end Buff
end Sncpp
