import Mathlib.Data.List.AList
import Mathlib.Order.Basic
import Sncpp.Steps
/-!
# EventCtrl — handlers of the events within a service (`eventCtrl.lua`)

A handler is registered for an event, with an object or without; `dispatchs` leads from the event, and the object, to
the table of its handlers, and `handlers` from the handle.  A dispatch goes through the table with `pairs` and calls
each handler under `xpcall`, so that what a handler raises stops there; a handler may register, unregister and
dispatch, and while it waits so may others.
-/
namespace Sncpp
namespace EventCtrl

variable {ε ο φ β δ : Type} [DecidableEq ε] [DecidableEq ο]

/-- `cb` is a function, or with `cbobj` the name of a method of it. -/
structure Callback (φ β : Type) where
  cb : φ ⊕ String
  cbobj : Option β
  ok : cb.isLeft = true ∨ cbobj.isSome = true

inductive Call (φ β : Type) where
  | fn (cb : φ)
  | on (cb : φ) (cbobj : β)
  | method (name : String) (cbobj : β)
deriving DecidableEq

def Callback.call : Callback φ β → Call φ β
  | ⟨.inl cb, none, _⟩ => .fn cb
  | ⟨.inl cb, some cbobj, _⟩ => .on cb cbobj
  | ⟨.inr name, some cbobj, _⟩ => .method name cbobj
  | ⟨.inr _, none, ok⟩ => absurd ok (by simp)

structure Handler (ε ο φ β δ : Type) where
  h : Nat
  eventId : ε
  objId : Option ο
  cb : Callback φ β
  params : Option δ
  async : Bool

/-- What a handler is called with, and whether in a coroutine of its own, which `skynet.fork` starts. -/
structure Invocation (φ β δ : Type) where
  call : Call φ β
  event : Option δ
  params : Option δ
  forked : Bool

def Handler.invoke (v : Handler ε ο φ β δ) (event : Option δ) : Invocation φ β δ :=
  ⟨v.cb.call, event, v.params, v.objId.isSome && v.async⟩

abbrev Tab (ε ο φ β δ : Type) := AList (fun _ : Nat => Handler ε ο φ β δ)

def empty {κ : Type} {γ : κ → Type} (t : AList γ) : Bool := t.entries.isEmpty

structure Dispatch (ο : Type) where
  objs : AList (fun _ : ο => Nat)
  plain : Nat

/-- A dispatch: the table it goes through, what stood there when it began, and whom it has called.  Once a key has been
added to the table the traversal is `spoilt`. -/
structure Frame (ε ο φ β δ : Type) where
  eventId : ε
  objId : Option ο
  event : Option δ
  tab : Nat
  start : Tab ε ο φ β δ
  called : List (Handler ε ο φ β δ)
  made : List (Invocation φ β δ)
  running : Bool
  spoilt : Bool

structure World (ε ο φ β δ : Type) where
  tabs : Nat → Tab ε ο φ β δ
  fresh : Nat
  dispatchs : ε → Option (Dispatch ο)
  handlers : Nat → Option (Handler ε ο φ β δ)
  h : Nat
  frames : List (Frame ε ο φ β δ)
  raised : Bool

def Frame.spoil (t : Nat) (f : Frame ε ο φ β δ) : Frame ε ο φ β δ :=
  if f.running = true ∧ f.tab = t then { f with spoilt := true } else f

namespace World

def start : World ε ο φ β δ := ⟨fun _ => ∅, 0, fun _ => none, fun _ => none, 0, [], false⟩

variable (w : World ε ο φ β δ)

/-- `dispatchs[eventId][1][objId]` or `dispatchs[eventId][2]`. -/
def table (eventId : ε) : Option ο → Option Nat
  | some objId => (w.dispatchs eventId).bind (fun d => d.objs.lookup objId)
  | none => (w.dispatchs eventId).map Dispatch.plain

def setDispatch (eventId : ε) (d : Option (Dispatch ο)) : World ε ο φ β δ :=
  { w with dispatchs := Function.update w.dispatchs eventId d }

def alloc : World ε ο φ β δ := { w with tabs := Function.update w.tabs w.fresh ∅, fresh := w.fresh + 1 }

def openEvent (eventId : ε) : World ε ο φ β δ :=
  if (w.dispatchs eventId).isSome then w else w.alloc.setDispatch eventId (some ⟨∅, w.fresh⟩)

def openObj (eventId : ε) (objId : ο) : World ε ο φ β δ :=
  match w.dispatchs eventId with
  | none => w
  | some d =>
    if (d.objs.lookup objId).isSome then w
    else w.alloc.setDispatch eventId (some { d with objs := d.objs.insert objId w.fresh })

def put (t : Nat) (v : Handler ε ο φ β δ) : World ε ο φ β δ :=
  { w with
    tabs := Function.update w.tabs t ((w.tabs t).insert v.h v)
    handlers := Function.update w.handlers v.h (some v)
    frames := w.frames.map (Frame.spoil t) }

/-- The event has handlers of the other kind, so that `registerEvent` raises. -/
def mixed (eventId : ε) (objId : Option ο) : Bool :=
  match w.dispatchs eventId with
  | none => false
  | some d => if objId.isSome then !empty (w.tabs d.plain) else !empty d.objs

/-- `eventCtrl.registerEvent`, once the callback has passed the first `assert`: the handle, unless the second raises. -/
def registerEvent (eventId : ε) (objId : Option ο) (cb : Callback φ β) (params : Option δ) (async : Bool) :
    World ε ο φ β δ × Option Nat :=
  let w := w.openEvent eventId
  let w := { w with h := w.h + 1 }
  if w.mixed eventId objId then (w, none)
  else
    let w := match objId with
      | some objId => w.openObj eventId objId
      | none => w
    match w.table eventId objId with
    | none => (w, none)
    | some t => (w.put t ⟨w.h, eventId, objId, cb, params, async⟩, some w.h)

def dropObj (t : Nat) (eventId : ε) : Option ο → World ε ο φ β δ
  | some objId =>
    if empty (w.tabs t) then
      w.setDispatch eventId ((w.dispatchs eventId).map (fun d => { d with objs := d.objs.erase objId }))
    else w
  | none => w

def dropEvent (eventId : ε) : World ε ο φ β δ :=
  match w.dispatchs eventId with
  | none => w
  | some d => if empty d.objs && empty (w.tabs d.plain) then w.setDispatch eventId none else w

def unregisterEvent (h : Nat) : World ε ο φ β δ :=
  match w.handlers h with
  | none => w
  | some v =>
    match w.table v.eventId v.objId with
    | none => { w with raised := true }
    | some t =>
      let w := { w with tabs := Function.update w.tabs t ((w.tabs t).erase h) }
      let w := (w.dropObj t v.eventId v.objId).dropEvent v.eventId
      { w with handlers := Function.update w.handlers h none }

/-- The beginning of `eventCtrl.dispatchEvent`, up to the loop. -/
def dispatchEvent (eventId : ε) (objId : Option ο) (event : Option δ) : World ε ο φ β δ :=
  match w.table eventId objId with
  | none => { w with raised := true }
  | some t => { w with frames := w.frames ++ [⟨eventId, objId, event, t, w.tabs t, [], [], true, false⟩] }

def turn (i k : Nat) : World ε ο φ β δ :=
  match w.frames[i]? with
  | none => w
  | some f =>
    match (w.tabs f.tab).lookup k with
    | none => w
    | some v =>
      if f.running = true ∧ (f.spoilt = true ∨ k ∉ f.called.map Handler.h) then
        { w with frames := w.frames.set i { f with called := f.called ++ [v], made := f.made ++ [v.invoke f.event] } }
      else w

def done (i : Nat) : World ε ο φ β δ :=
  match w.frames[i]? with
  | none => w
  | some f =>
    if f.running = true ∧ (f.spoilt = true ∨ ∀ k ∈ (w.tabs f.tab).keys, k ∈ f.called.map Handler.h) then
      { w with frames := w.frames.set i { f with running := false } }
    else w

/-- `next` raises in the loop of the dispatch `i`: it no longer finds the key. -/
def fail (i : Nat) : World ε ο φ β δ :=
  match w.frames[i]? with
  | none => w
  | some f =>
    if f.running = true ∧ f.spoilt = true then
      { w with frames := w.frames.set i { f with running := false }, raised := true }
    else w

end World

/-- What happens in the service, in any order: within a handler, between two of them, or while one waits. -/
inductive Event (ε ο φ β δ : Type) where
  | register (eventId : ε) (objId : Option ο) (cb : Callback φ β) (params : Option δ) (async : Bool)
  | unregister (h : Nat)
  | dispatch (eventId : ε) (objId : Option ο) (event : Option δ)
  | turn (i k : Nat)
  | done (i : Nat)
  | fail (i : Nat)

namespace World

def step (w : World ε ο φ β δ) : Event ε ο φ β δ → World ε ο φ β δ
  | .register eventId objId cb params async => (w.registerEvent eventId objId cb params async).1
  | .unregister h => w.unregisterEvent h
  | .dispatch eventId objId event => w.dispatchEvent eventId objId event
  | .turn i k => w.turn i k
  | .done i => w.done i
  | .fail i => w.fail i

end World

/-! ## What is right, and when it is -/

/-- `handlers` and `dispatchs` have the same handlers, nothing has raised, and each dispatch has called each handler at most
once, with its own parameters, and only those that stood in its table when it began and are registered for its event and
object. -/
structure World.Sound (w : World ε ο φ β δ) : Prop where
  same : ∀ k v, w.handlers k = some v ↔ ∃ eventId objId t, w.table eventId objId = some t ∧ (w.tabs t).lookup k = some v
  raised : w.raised = false
  once : ∀ f ∈ w.frames, (f.called.map Handler.h).Nodup
  own : ∀ f ∈ w.frames, ∀ v ∈ f.called, f.start.lookup v.h = some v ∧ v.eventId = f.eventId ∧ v.objId = f.objId
  made : ∀ f ∈ w.frames, f.made = f.called.map (fun v => v.invoke f.event)

/-- **After the event all is sound; a dispatch that begins finds the handlers registered for its event and object; and one
that ends has called each handler that it found and that has not been unregistered.** -/
structure World.Right (w : World ε ο φ β δ) (e : Event ε ο φ β δ) : Prop where
  sound : (w.step e).Sound
  begins : ∀ eventId objId event, e = .dispatch eventId objId event → ∃ f, (w.step e).frames = w.frames ++ [f] ∧
    f.eventId = eventId ∧ f.objId = objId ∧ f.event = event ∧
      ∀ k v, f.start.lookup k = some v ↔ w.handlers k = some v ∧ v.eventId = eventId ∧ v.objId = objId
  ends : ∀ i f, e = .done i → (w.step e).frames[i]? = some f → f.running = false →
    ∀ k v, f.start.lookup k = some v → v ∈ f.called ∨ w.handlers k = none

/-- No dispatch is going through the table to which a handler is added, and there is a table to dispatch to. -/
def World.Kept (w : World ε ο φ β δ) : Event ε ο φ β δ → Prop
  | .register eventId objId _ _ _ =>
    ∀ f ∈ w.frames, f.running = true → w.table eventId objId ≠ some f.tab
  | .dispatch eventId objId _ => (w.table eventId objId).isSome = true
  | _ => True

instance (w : World ε ο φ β δ) (e : Event ε ο φ β δ) : Decidable (w.Kept e) :=
  match e with
  | .register eventId objId _ _ _ =>
    inferInstanceAs (Decidable (∀ f ∈ w.frames, f.running = true → w.table eventId objId ≠ some f.tab))
  | .dispatch eventId objId _ => inferInstanceAs (Decidable ((w.table eventId objId).isSome = true))
  | .unregister _ | .turn _ _ | .done _ | .fail _ => isTrue trivial

end EventCtrl
end Sncpp
