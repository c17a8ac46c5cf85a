import Mathlib.Data.List.Destutter
import Sncpp.EventCtrlRun
/-!
# CondMgr — callbacks for conditions of a player (`conditionMgr.lua`)

A registration has conditions and a callback.  Each event that one of its conditions is triggered by has one listener
with the event controller, and a listener evaluates the conjunction of the conditions and calls the callback if it is
not what it was.  The first evaluation is made by `start`, or by a coroutine for what is registered later.
-/
namespace Sncpp
namespace CondMgr

open EventCtrl (Callback Call)

variable {χ ε υ φ β : Type} [DecidableEq ε] [DecidableEq υ]

/-- `condType2Cls` and `gEvent2Channel`: the `triggerEvents` of the class of a condition, if it has one, and which events
are of players. -/
structure Defs (χ ε : Type) where
  triggerEvents : χ → Option (List ε)
  player : ε → Bool
  some_event : ∀ c, triggerEvents c ≠ some []

structure Context (χ υ φ β : Type) where
  player : υ
  conditions : List χ
  cb : Callback φ β
  listeners : List (List Nat)
  isMeet : Option Bool

structure Report (φ β : Type) where
  call : Call φ β
  isMeet : Bool
  handle : Nat

/-- The events of the player, each listener with the handle of its registration. -/
abbrev Ctrl (ε υ : Type) := EventCtrl.World ε υ Unit Unit Nat

/-- The state; `starting` are the handles that the loop of `start` has still to come to, `forks` those with a coroutine.
What the conjunction of a registration was at each evaluation is kept in `evals`, and its callback in `regs`. -/
structure World (χ ε υ φ β : Type) where
  ctrl : Ctrl ε υ
  contexts : AList (fun _ : Nat => Context χ υ φ β)
  nextHandle : Nat
  started : Bool
  starting : Option (List Nat)
  forks : List Nat
  evals : Nat → List Bool
  calls : List (Report φ β)
  regs : Nat → Option (Callback φ β)

/-- The calls of `cbEvent` where the conjunction has changed, and whether something is raised; `raises` if the callback
does. -/
def reports (raises : Bool) (cb : Callback φ β) : List (Call φ β) × Bool :=
  match cb.cb, cb.cbobj with
  | .inl _, none => ([cb.call], raises)
  | .inl _, some _ => if raises then ([cb.call], true) else ([cb.call, cb.call], false)
  | .inr _, _ => ([], true)

/-- `_register`: a listener for each event that has none yet; the last part is `false` where an `assert` fails. -/
def registerEvents (defs : Defs χ ε) (player : υ) (handle : Nat) :
    List ε → Ctrl ε υ → List ε → List Nat → Ctrl ε υ × List ε × List Nat × Bool
  | [], ctrl, tb, listeners => (ctrl, tb, listeners, true)
  | eventId :: rest, ctrl, tb, listeners =>
    if defs.player eventId = false then (ctrl, tb, listeners, false)
    else if eventId ∈ tb then registerEvents defs player handle rest ctrl tb listeners
    else
      match ctrl.registerEvent eventId (some player) ⟨.inl (), none, .inl rfl⟩ (some handle) false with
      | (ctrl, none) => (ctrl, eventId :: tb, listeners, false)
      | (ctrl, some listener) => registerEvents defs player handle rest ctrl (eventId :: tb) (listeners ++ [listener])

def registerConds (defs : Defs χ ε) (player : υ) (handle : Nat) :
    List χ → Ctrl ε υ → List ε → List (List Nat) → Ctrl ε υ × List (List Nat) × Bool
  | [], ctrl, _, listeners => (ctrl, listeners, true)
  | condition :: rest, ctrl, tb, listeners =>
    match defs.triggerEvents condition with
    | none => (ctrl, listeners, false)
    | some events =>
      match registerEvents defs player handle events ctrl tb [] with
      | (ctrl, _, _, false) => (ctrl, listeners, false)
      | (ctrl, tb, own, true) => registerConds defs player handle rest ctrl tb (listeners ++ [own])

namespace World

def init : World χ ε υ φ β := ⟨.start, ∅, 1, false, none, [], fun _ => [], [], fun _ => none⟩

variable (w : World χ ε υ φ β)

def register (defs : Defs χ ε) (player : υ) (conditions : List χ) (cb : Callback φ β) : World χ ε υ φ β :=
  if conditions.isEmpty then w
  else
    let handle := w.nextHandle
    let w := { w with nextHandle := w.nextHandle + 1 }
    match registerConds defs player handle conditions w.ctrl [] [] with
    | (ctrl, _, false) => { w with ctrl := ctrl }
    | (ctrl, listeners, true) =>
      { w with
        ctrl := ctrl
        contexts := w.contexts.insert handle ⟨player, conditions, cb, listeners, none⟩
        forks := if w.started then w.forks ++ [handle] else w.forks
        regs := Function.update w.regs handle (some cb) }

def unregister (handle : Nat) : World χ ε υ φ β :=
  match w.contexts.lookup handle with
  | none => w
  | some context =>
    { w with
      ctrl := context.listeners.flatten.foldl EventCtrl.World.unregisterEvent w.ctrl
      contexts := w.contexts.erase handle }

def changes (handle : Nat) (truth : χ → Bool) : Bool :=
  match w.contexts.lookup handle with
  | none => false
  | some context => w.started && decide (context.isMeet ≠ some (context.conditions.all truth))

/-- `cbEvent`, with the truth of the conditions: whether it raises. -/
def cbEvent (handle : Nat) (truth : χ → Bool) (raises : Bool) : World χ ε υ φ β × Bool :=
  if w.started = false then (w, false)
  else
    match w.contexts.lookup handle with
    | none => (w, false)
    | some context =>
      let isMeet := context.conditions.all truth
      let w := { w with evals := Function.update w.evals handle (w.evals handle ++ [isMeet]) }
      if some isMeet ≠ context.isMeet then
        let made := reports raises context.cb
        ({ w with
            contexts := w.contexts.insert handle { context with isMeet := some isMeet }
            calls := w.calls ++ made.1.map (⟨·, isMeet, handle⟩) }, made.2)
      else (w, false)

/-- The beginning of `conditionMgr.start`, up to its second loop. -/
def start : World χ ε υ φ β :=
  if w.started then w else { w with started := true, starting := some w.contexts.keys }

/-- The loop of `start` comes to a handle; what the callback raises ends it. -/
def first (handle : Nat) (truth : χ → Bool) (raises : Bool) : World χ ε υ φ β :=
  match w.starting with
  | none => w
  | some handles =>
    if handle ∈ handles then
      let r := { w with starting := some (handles.erase handle) }.cbEvent handle truth raises
      if r.2 then { r.1 with starting := none } else r.1
    else w

def fork (handle : Nat) (truth : χ → Bool) (raises : Bool) : World χ ε υ φ β :=
  if handle ∈ w.forks then ({ w with forks := w.forks.erase handle }.cbEvent handle truth raises).1 else w

/-- `player:dispatchEvent`; where nobody listens it raises and nothing is changed. -/
def dispatch (player : υ) (eventId : ε) : World χ ε υ φ β :=
  if (w.ctrl.table eventId (some player)).isSome then
    { w with ctrl := w.ctrl.dispatchEvent eventId (some player) none }
  else w

/-- The listener that the dispatch `i` would call at the key `k`. -/
def callee (i k : Nat) : Option Nat :=
  match w.ctrl.frames[i]? with
  | none => none
  | some f =>
    match (w.ctrl.tabs f.tab).lookup k with
    | none => none
    | some v => if f.running = true ∧ (f.spoilt = true ∨ k ∉ f.called.map EventCtrl.Handler.h) then v.params else none

def turn (i k : Nat) (truth : χ → Bool) (raises : Bool) : World χ ε υ φ β :=
  match w.callee i k with
  | none => w
  | some handle => ({ w with ctrl := w.ctrl.turn i k }.cbEvent handle truth raises).1

end World

inductive Event (χ ε υ φ β : Type) where
  | register (player : υ) (conditions : List χ) (cb : Callback φ β)
  | unregister (handle : Nat)
  | start
  | first (handle : Nat) (truth : χ → Bool) (raises : Bool)
  | fork (handle : Nat) (truth : χ → Bool) (raises : Bool)
  | dispatch (player : υ) (eventId : ε)
  | turn (i k : Nat) (truth : χ → Bool) (raises : Bool)
  | done (i : Nat)
  | fail (i : Nat)

def World.step (defs : Defs χ ε) (w : World χ ε υ φ β) : Event χ ε υ φ β → World χ ε υ φ β
  | .register player conditions cb => w.register defs player conditions cb
  | .unregister handle => w.unregister handle
  | .start => w.start
  | .first handle truth raises => w.first handle truth raises
  | .fork handle truth raises => w.fork handle truth raises
  | .dispatch player eventId => w.dispatch player eventId
  | .turn i k truth raises => w.turn i k truth raises
  | .done i => { w with ctrl := w.ctrl.done i }
  | .fail i => { w with ctrl := w.ctrl.fail i }

/-! ## What is right, and when it is -/

def Context.Triggers (defs : Defs χ ε) (context : Context χ υ φ β) (eventId : ε) : Prop :=
  ∃ c ∈ context.conditions, ∃ events, defs.triggerEvents c = some events ∧ eventId ∈ events

/-- The listeners are those of the registrations, one for each event that triggers it. -/
structure World.Listeners (defs : Defs χ ε) (w : World χ ε υ φ β) : Prop where
  live : ∀ k v, w.ctrl.handlers k = some v → ∃ n context, v.params = some n ∧ w.contexts.lookup n = some context ∧
    v.objId = some context.player ∧ context.Triggers defs v.eventId
  each : ∀ n context eventId, w.contexts.lookup n = some context → context.Triggers defs eventId →
    ∃ k v, w.ctrl.handlers k = some v ∧ v.params = some n ∧ v.eventId = eventId
  once : ∀ k v k' v', w.ctrl.handlers k = some v → w.ctrl.handlers k' = some v' → v.params = v'.params →
    v.eventId = v'.eventId → k = k'

def World.callsOf (w : World χ ε υ φ β) (n : Nat) : List (Report φ β) := w.calls.filter (fun r => r.handle = n)

/-- **After the event the listeners are those of the registrations, the calls of each registration are the changes of what
it was evaluated to, and one that is not registered has not been called.  A dispatch that ends has called each listener that
was there and is not unregistered, and where the loop of `start` is over each registration has been evaluated or has a
coroutine.** -/
structure World.Right (defs : Defs χ ε) (w : World χ ε υ φ β) (e : Event χ ε υ φ β) : Prop where
  listeners : (w.step defs e).Listeners defs
  reports : ∀ n cb, (w.step defs e).regs n = some cb → (w.step defs e).callsOf n =
    (((w.step defs e).evals n).destutter (· ≠ ·)).map (fun isMeet => ⟨cb.call, isMeet, n⟩)
  silent : ∀ n, w.contexts.lookup n = none → (w.step defs e).callsOf n = w.callsOf n
  reached : ∀ i f, e = .done i → (w.step defs e).ctrl.frames[i]? = some f → f.running = false →
    ∀ k v, f.start.lookup k = some v → v ∈ f.called ∨ w.ctrl.handlers k = none
  evaluated : (w.step defs e).starting = some [] → ∀ n context, (w.step defs e).contexts.lookup n = some context →
    (w.step defs e).evals n ≠ [] ∨ n ∈ (w.step defs e).forks

def World.Bare (w : World χ ε υ φ β) (handle : Nat) (truth : χ → Bool) : Prop :=
  w.changes handle truth = true → ((w.contexts.lookup handle).bind (fun context => context.cb.cbobj)).isNone = true

/-- The conditions all have classes, and the events of players only. -/
def Defs.Sound (defs : Defs χ ε) (conditions : List χ) : Prop :=
  ∀ c ∈ conditions, (defs.triggerEvents c).isSome = true ∧ ∀ e ∈ (defs.triggerEvents c).getD [], defs.player e = true

/-- The first condition has no class, or its first event is not one of a player. -/
def Defs.Fails (defs : Defs χ ε) (conditions : List χ) : Prop :=
  ∀ c ∈ conditions.head?, ∀ e ∈ ((defs.triggerEvents c).getD []).head?, defs.player e = false

def Quiet (ctrl : Ctrl ε υ) (player : υ) (eventId : ε) : Prop :=
  ∀ f ∈ ctrl.frames, f.running = true → ctrl.table eventId (some player) ≠ some f.tab

/-- A registration fails before there is a listener, or it goes through and adds no listener to a table that a dispatch is
going through; a callback that is called has no object; and none that `start` calls raises. -/
def World.Kept (defs : Defs χ ε) (w : World χ ε υ φ β) : Event χ ε υ φ β → Prop
  | .register player conditions _ => defs.Fails conditions ∨ defs.Sound conditions ∧
    ∀ c ∈ conditions, ∀ e ∈ (defs.triggerEvents c).getD [], Quiet w.ctrl player e
  | .first handle truth raises => ∀ ns ∈ w.starting, handle ∈ ns →
    w.Bare handle truth ∧ (w.changes handle truth = true → raises = false)
  | .fork handle truth _ => handle ∈ w.forks → w.Bare handle truth
  | .turn i k truth _ => ∀ handle ∈ w.callee i k, w.Bare handle truth
  | _ => True

instance (defs : Defs χ ε) (w : World χ ε υ φ β) (e : Event χ ε υ φ β) : Decidable (w.Kept defs e) :=
  match e with
  | .register player conditions _ =>
    inferInstanceAs (Decidable ((∀ c ∈ conditions.head?, ∀ e ∈ ((defs.triggerEvents c).getD []).head?,
      defs.player e = false) ∨
      (∀ c ∈ conditions, (defs.triggerEvents c).isSome = true ∧ ∀ e ∈ (defs.triggerEvents c).getD [],
        defs.player e = true) ∧
      ∀ c ∈ conditions, ∀ e ∈ (defs.triggerEvents c).getD [],
        ∀ f ∈ w.ctrl.frames, f.running = true → w.ctrl.table e (some player) ≠ some f.tab))
  | .first handle truth raises =>
    inferInstanceAs (Decidable (∀ ns ∈ w.starting, handle ∈ ns →
      (w.changes handle truth = true → ((w.contexts.lookup handle).bind (fun context => context.cb.cbobj)).isNone = true) ∧
        (w.changes handle truth = true → raises = false)))
  | .fork handle truth _ =>
    inferInstanceAs (Decidable (handle ∈ w.forks → w.changes handle truth = true →
      ((w.contexts.lookup handle).bind (fun context => context.cb.cbobj)).isNone = true))
  | .turn i k truth _ =>
    inferInstanceAs (Decidable (∀ handle ∈ w.callee i k, w.changes handle truth = true →
      ((w.contexts.lookup handle).bind (fun context => context.cb.cbobj)).isNone = true))
  | .unregister _ | .start | .dispatch _ _ | .done _ | .fail _ => isTrue trivial

end CondMgr
end Sncpp
