import Mathlib.Order.Lattice
import Sncpp.Steps
/-!
# ClosureQueue — the queue of closures

`closureQueue.lua`: for each id a client at a time, the others behind it in a queue.  `unlock` hands the lock to the
first of the queue, and clears the mark of the lock once the queue is empty, even though the client that has just left
the queue goes in.  The order of the calls is kept, and nobody waits in vain.
-/
namespace Sncpp

/-- The tables by id; `α` are the closures, with their answers and requests. -/
structure ClosureQueue (κ α : Type) where
  queue : κ → Option (List α)
  lockTag : κ → Option Bool

namespace ClosureQueue

section Code

variable {κ α : Type} [DecidableEq κ]

def ctor : ClosureQueue κ α := ⟨fun _ => none, fun _ => none⟩

def lock (id : κ) (c : α) (s : ClosureQueue κ α) : ClosureQueue κ α × Option α :=
  let s := if s.lockTag id = some true then s else { s with lockTag := Function.update s.lockTag id (some false) }
  if s.lockTag id = some true then
    ({ s with queue := Function.update s.queue id (some ((s.queue id).getD [] ++ [c])) }, none)
  else ({ s with lockTag := Function.update s.lockTag id (some true) }, some c)

def unlock (id : κ) (s : ClosureQueue κ α) : ClosureQueue κ α × Option α :=
  let responseClosure := ((s.queue id).getD []).head?
  let s := { s with queue := Function.update s.queue id ((s.queue id).map List.tail) }
  let s := if (s.queue id).getD [] = [] then
    ⟨Function.update s.queue id none, Function.update s.lockTag id none⟩ else s
  (s, responseClosure)

end Code

variable {κ : Type} [DecidableEq κ]

/-- The clients of an id are numbered in the order of their calls; `starts` are those whose function was run, `inside`
those of them that have not called `unlock`. -/
structure Hall (κ : Type) where
  table : ClosureQueue κ Nat
  calls : κ → Nat
  starts : κ → List Nat
  inside : κ → List Nat

inductive Event (κ : Type) where
  | lock (id : κ)
  | unlock (id : κ) (c : Nat)
deriving DecidableEq

def Event.id : Event κ → κ
  | .lock id => id
  | .unlock id _ => id

namespace Hall

def new : Hall κ := ⟨ctor, fun _ => 0, fun _ => [], fun _ => []⟩

def step (t : Hall κ) : Event κ → Hall κ
  | .lock id =>
    let r := t.table.lock id (t.calls id)
    ⟨r.1, Function.update t.calls id (t.calls id + 1), Function.update t.starts id (t.starts id ++ r.2.toList),
      Function.update t.inside id (t.inside id ++ r.2.toList)⟩
  | .unlock id c =>
    let r := t.table.unlock id
    ⟨r.1, t.calls, Function.update t.starts id (t.starts id ++ r.2.toList),
      Function.update t.inside id ((t.inside id).erase c ++ r.2.toList)⟩

def waiting (t : Hall κ) (id : κ) : List Nat := (t.table.queue id).getD []

def Proper (t : Hall κ) : Event κ → Prop
  | .lock _ => True
  | .unlock id c => c ∈ t.inside id

/-- **A fair lock**: one client is inside at most, the functions are run in the order of the calls and each of them once,
and someone is inside as long as others wait. -/
structure Fair (t : Hall κ) : Prop where
  one : ∀ id, (t.inside id).length ≤ 1
  order : ∀ id, t.starts id ++ t.waiting id = List.range (t.calls id)
  served : ∀ id, t.inside id = [] → t.waiting id = []

def Marked (t : Hall κ) : Event κ → Prop
  | .lock id => t.inside id ≠ [] → t.table.lockTag id = some true
  | .unlock _ _ => True

structure Line where
  queue : Option (List Nat)
  lockTag : Option Bool
  calls : Nat
  starts : List Nat
  inside : List Nat
deriving DecidableEq

def line (t : Hall κ) (id : κ) : Line := ⟨t.table.queue id, t.table.lockTag id, t.calls id, t.starts id, t.inside id⟩

def Line.go (l : Line) : Line := ⟨l.queue, some true, l.calls + 1, l.starts ++ [l.calls], l.inside ++ [l.calls]⟩

def Line.wait (l : Line) : Line := { l with queue := some (l.queue.getD [] ++ [l.calls]), calls := l.calls + 1 }

def Line.leave (l : Line) (c : Nat) : Line :=
  match l.queue.getD [] with
  | [] => ⟨none, none, l.calls, l.starts, l.inside.erase c⟩
  | [d] => ⟨none, none, l.calls, l.starts ++ [d], l.inside.erase c ++ [d]⟩
  | d :: ds => ⟨some ds, l.lockTag, l.calls, l.starts ++ [d], l.inside.erase c ++ [d]⟩

def Line.step (l : Line) : Event κ → Line
  | .lock _ => if l.lockTag = some true then l.wait else l.go
  | .unlock _ c => l.leave c

theorem line_step_self (t : Hall κ) : ∀ e : Event κ, (t.step e).line e.id = (t.line e.id).step e
  | .lock id => by
    by_cases htag : t.table.lockTag id = some true <;>
      simp [step, ClosureQueue.lock, line, Event.id, Line.step, Line.wait, Line.go, htag]
  | .unlock id c => by
    cases hq : t.table.queue id with
    | none => simp [step, ClosureQueue.unlock, line, Event.id, Line.step, Line.leave, hq]
    | some q =>
      cases q with
      | nil => simp [step, ClosureQueue.unlock, line, Event.id, Line.step, Line.leave, hq]
      | cons d q => cases q <;> simp [step, ClosureQueue.unlock, line, Event.id, Line.step, Line.leave, hq]

theorem line_step_of_ne (t : Hall κ) {id : κ} : ∀ e : Event κ, e.id ≠ id → (t.step e).line id = t.line id
  | .lock id', hid => by
    have hid' : id ≠ id' := Ne.symm hid
    by_cases htag : t.table.lockTag id' = some true <;> simp [step, ClosureQueue.lock, line, htag, hid']
  | .unlock id' c, hid => by
    have hid' : id ≠ id' := Ne.symm hid
    simp only [step, ClosureQueue.unlock, line]
    split <;> simp [hid']

theorem line_of_run (id : κ) : ∀ (es : List (Event κ)) (t t' : Hall κ), t.line id = t'.line id →
    (es.foldl step t).line id = ((es.filter (fun e => e.id = id)).foldl step t').line id
  | [], _, _, h => h
  | e :: es, t, t', h => by
    rw [List.foldl_cons]
    by_cases hid : e.id = id
    · rw [List.filter_cons_of_pos (by simpa using hid), List.foldl_cons]
      subst hid
      refine line_of_run _ es _ _ ?_
      rw [line_step_self, line_step_self, h]
    · rw [List.filter_cons_of_neg (by simpa using hid)]
      refine line_of_run id es _ _ ?_
      rw [line_step_of_ne t e hid, h]

/-- What holds of an id: the clients that wait are behind those that started, the mark is there while any wait, and
someone is inside while it is there. -/
structure Line.Good (l : Line) : Prop where
  order : l.starts ++ l.queue.getD [] = List.range l.calls
  marked : l.lockTag ≠ some true → l.queue.getD [] = []
  held : l.lockTag = some true → l.inside ≠ []

theorem Line.Good.go {l : Line} (h : l.Good) (htag : l.lockTag ≠ some true) : l.go.Good := by
  have hempty := h.marked htag
  refine ⟨?_, fun hne => absurd rfl hne, fun _ => by simp [Line.go]⟩
  have horder := h.order
  rw [hempty, List.append_nil] at horder
  simp [Line.go, hempty, horder, List.range_succ]

theorem Line.Good.wait {l : Line} (h : l.Good) (htag : l.lockTag = some true) : l.wait.Good := by
  refine ⟨?_, fun hne => absurd htag hne, h.held⟩
  show l.starts ++ (l.queue.getD [] ++ [l.calls]) = List.range (l.calls + 1)
  rw [← List.append_assoc, h.order, List.range_succ]

theorem Line.Good.leave {l : Line} (h : l.Good) (c : Nat) : (l.leave c).Good := by
  have horder := h.order
  unfold Line.leave
  split
  · next hq =>
    rw [hq] at horder
    exact ⟨horder, fun _ => rfl, fun hnone => by cases hnone⟩
  · next d hq =>
    rw [hq] at horder
    exact ⟨by simpa using horder, fun _ => rfl, fun hnone => by cases hnone⟩
  · next d ds _ hq =>
    rw [hq] at horder
    refine ⟨by simpa using horder, fun hne => ?_, fun _ => by simp⟩
    have hnone := h.marked hne
    rw [hq] at hnone
    cases hnone

omit [DecidableEq κ] in
theorem Line.Good.step {l : Line} (h : l.Good) : ∀ e : Event κ, (l.step e).Good
  | .lock _ => by
    simp only [Line.step]
    split
    · next htag => exact h.wait htag
    · next htag => exact h.go htag
  | .unlock _ c => h.leave c

theorem good_step {t : Hall κ} (h : ∀ id, (t.line id).Good) (e : Event κ) (id : κ) : ((t.step e).line id).Good := by
  by_cases hid : e.id = id
  · subst hid
    rw [line_step_self]
    exact (h e.id).step e
  · rw [line_step_of_ne t e hid]
    exact h id

omit [DecidableEq κ] in
theorem good_new (id : κ) : ((new : Hall κ).line id).Good := ⟨rfl, fun _ => rfl, fun hnone => by cases hnone⟩

theorem one_step {t : Hall κ} (hone : ∀ id, (t.inside id).length ≤ 1) : ∀ e : Event κ, t.Proper e → t.Marked e →
    ∀ id, ((t.step e).line id).inside.length ≤ 1 := by
  intro e hproper hmarked id
  by_cases hid : e.id = id
  · subst hid
    rw [line_step_self]
    cases e with
    | lock id =>
      simp only [Line.step]
      split
      · exact hone id
      · next htag =>
        -- no mark: nobody is inside
        have hnone : t.inside id = [] := Classical.byContradiction (fun hne => htag (hmarked hne))
        show (t.inside id ++ [t.calls id]).length ≤ 1
        rw [hnone]
        exact Nat.le_refl 1
    | unlock id c =>
      have herase : ((t.inside id).erase c).length = 0 := by
        have hlen := hone id
        rw [List.length_erase_of_mem hproper]
        omega
      simp only [Line.step, Line.leave]
      split
      · exact Nat.le_of_eq herase |>.trans (Nat.zero_le 1)
      · rw [List.length_append]
        exact Nat.le_of_eq (congrArg (fun n => n + 1) herase)
      · rw [List.length_append]
        exact Nat.le_of_eq (congrArg (fun n => n + 1) herase)
  · rw [line_step_of_ne t e hid]
    exact hone id

theorem marked_of_one {t : Hall κ} : ∀ {e : Event κ}, (∀ id, ((t.step e).line id).inside.length ≤ 1) → t.Marked e
  | .unlock _ _, _ => trivial
  | .lock id, h => by
    intro hne
    have hone := h id
    have hself := line_step_self t (.lock id)
    simp only [Event.id] at hself
    rw [hself] at hone
    simp only [Line.step] at hone
    split at hone
    · next htag => exact htag
    · have hpos := List.length_pos_of_ne_nil hne
      have hlen : (t.inside id ++ [t.calls id]).length ≤ 1 := hone
      rw [List.length_append] at hlen
      exact absurd hlen (by simp; omega)

omit [DecidableEq κ] in
theorem fair_of {t : Hall κ} (h : ∀ id, (t.line id).Good) (hone : ∀ id, (t.inside id).length ≤ 1) : t.Fair := by
  refine ⟨hone, fun id => (h id).order, fun id hnone => ?_⟩
  exact (h id).marked (fun htag => (h id).held htag hnone)

/-- **The lock is fair in every state of a run, and no id touches another, if and only if no client calls while the last
of those who waited is inside.** -/
theorem fair_of_run {es : List (Event κ)} (hproper : Steps.Along step Proper (new : Hall κ) es) :
    (Steps.Along step (fun t e => (t.step e).Fair) new es ∧
      ∀ id, (es.foldl step new).line id = ((es.filter (fun e => e.id = id)).foldl step new).line id) ↔
    Steps.Along step Marked new es := by
  constructor
  · exact fun h => h.1.mono (fun t e hfair => marked_of_one hfair.one) es new
  · intro hmarked
    refine ⟨?_, fun id => line_of_run id es new new rfl⟩
    refine Steps.Along.keep (I := fun t => (∀ id, (t.line id).Good) ∧ ∀ id, (t.inside id).length ≤ 1) ?_ es new
      ⟨good_new, fun _ => Nat.zero_le 1⟩ (Steps.Along.and es new hproper hmarked)
    intro t e hok hI
    have hgood := good_step hI.1 e
    have hone := one_step hI.2 e hok.1 hok.2
    exact ⟨⟨hgood, hone⟩, fair_of hgood hone⟩

def turns : List (Event Nat) := [.lock 7, .lock 7, .lock 7, .unlock 7 0, .unlock 7 1, .lock 8, .unlock 7 2, .unlock 8 0]

theorem fair_of_turns : Steps.Along step (fun t e => (t.step e).Fair) (new : Hall Nat) turns ∧
    ∀ id, (turns.foldl step (new : Hall Nat)).line id = ((turns.filter (fun e => e.id = id)).foldl step new).line id :=
  (fair_of_run (by simp [turns, Steps.Along, Proper, step, new, ctor, ClosureQueue.lock, ClosureQueue.unlock])).2
    (by simp [turns, Steps.Along, Marked, step, new, ctor, ClosureQueue.lock, ClosureQueue.unlock])

def meeting : List (Event Nat) := [.lock 7, .lock 7, .unlock 7 0, .lock 7]

theorem two_inside : Steps.Along step Proper (new : Hall Nat) meeting ∧
    ¬ Steps.Along step (fun t e => (t.step e).Fair) (new : Hall Nat) meeting := by
  refine ⟨by simp [meeting, Steps.Along, Proper, step, new, ctor, ClosureQueue.lock], fun h => ?_⟩
  have hone := h.2.2.2.1.one 7
  exact absurd hone (by decide)

end Hall
end ClosureQueue
end Sncpp
