import Mathlib.Data.List.Range
import Sncpp.Steps
/-!
# CompTransaction — steps and what takes them back (`compTransaction.lua`)

The steps are executed in the order in which they were added, up to the first that fails, and then the compensations
of those before it run from the last to the first.  `lastIndex` says where they start; it is not reset before a run,
and it is not written when the first step raises, so the steps of an earlier run are then compensated once more.
-/
namespace Sncpp

structure CompTransaction (τ κ : Type) where
  tranMap : List τ
  compMap : Nat → Option κ
  lastIndex : Nat
  exceptionFlag : Bool

namespace CompTransaction

variable {τ κ : Type}

inductive Result where
  | success
  | failure
  | raised
deriving DecidableEq

/-- What the functions do in one run: how the steps end, and whether the compensations raise. -/
structure Behaviour where
  tran : Nat → Result
  comp : Nat → Bool

inductive Call (τ κ : Type) where
  | tran (index : Nat) (f : τ)
  | comp (index : Nat) (f : κ)
deriving DecidableEq

structure CompResult where
  lastIndex : Nat
  transactionException : Bool
  compensatingException : List Nat
deriving DecidableEq

/-- What `run` returns; no value is nothing. -/
inductive Answer where
  | raised
  | returned (isSuccess : Option Bool)
deriving DecidableEq

/-- A run, with the calls that it made and the table that `compensating` built. -/
structure Ran (τ κ : Type) where
  obj : CompTransaction τ κ
  calls : List (Call τ κ)
  compResult : Option CompResult
  answer : Answer

def new : CompTransaction τ κ := ⟨[], fun _ => none, 0, false⟩

variable (o : CompTransaction τ κ) (b : Behaviour)

def add (transactionFunc : τ) (compensatingFunc : Option κ) : CompTransaction τ κ :=
  let tranMap := o.tranMap ++ [transactionFunc]
  { o with
    tranMap := tranMap
    compMap := match compensatingFunc with
      | some f => Function.update o.compMap tranMap.length (some f)
      | none => o.compMap }

def clear : CompTransaction τ κ := new

/-- One turn of the loop of `compensating`; calling no function is an error as well. -/
def compTurn (r : List (Call τ κ) × List Nat) (index : Nat) : List (Call τ κ) × List Nat :=
  match o.compMap index with
  | some f => (r.1 ++ [.comp index f], if b.comp index then r.2 ++ [index] else r.2)
  | none => (r.1, r.2 ++ [index])

def compLoop : Nat → List (Call τ κ) × List Nat → List (Call τ κ) × List Nat
  | 0, r => r
  | index + 1, r => compLoop index (o.compTurn b r (index + 1))

def compensating : List (Call τ κ) × CompResult :=
  let r := o.compLoop b o.lastIndex ([], [])
  (r.1, ⟨o.lastIndex, o.exceptionFlag, r.2⟩)

/-- The loop over the steps that are left, the first of which is at `index`. -/
def tranLoop : Nat → List τ → CompTransaction τ κ → List (Call τ κ) → CompTransaction τ κ × List (Call τ κ) × Result
  | _, [], o, calls => (o, calls, .success)
  | index, f :: fs, o, calls =>
    let calls := calls ++ [.tran index f]
    match b.tran index with
    | .raised => (o, calls, .raised)
    | .failure => ({ o with lastIndex := index }, calls, .failure)
    | .success => tranLoop (index + 1) fs { o with lastIndex := index } calls

def runFunc : Ran τ κ × Bool :=
  match tranLoop b 1 o.tranMap o [] with
  | (o, calls, .success) => (⟨o, calls, none, .returned none⟩, true)
  | (o, calls, .failure) =>
    let r := o.compensating b
    (⟨o, calls ++ r.1, some r.2, .returned none⟩, false)
  | (o, calls, .raised) =>
    let o := { o with exceptionFlag := true }
    let r := o.compensating b
    (⟨o, calls ++ r.1, some r.2, .returned none⟩, false)

/-- `handler` says whether `svrFunc.error` is a function; `xpcall` raises without one.  What the queue returns is not
returned. -/
def run (handler : Bool) : Ran τ κ :=
  if handler then (o.runFunc b).1 else ⟨o, [], none, .raised⟩

def Behaviour.firstFail (b : Behaviour) (n : Nat) : Option Nat :=
  (List.range' 1 n).find? (fun index => decide (b.tran index ≠ .success))

/-- The last step that is to be compensated, if that at `k` fails; one that raised is not. -/
def Behaviour.last (b : Behaviour) (k : Nat) : Nat := if b.tran k = .raised then k - 1 else k

def Behaviour.owed (b : Behaviour) (n : Nat) : List Nat :=
  ((b.firstFail n).elim [] (fun k => List.range' 1 (b.last k))).reverse

/-- The calls of the first `n` steps, if the first of them is at `index`. -/
def tranCalls (index : Nat) (fs : List τ) : List (Call τ κ) := (fs.zipIdx index).map (fun f => .tran f.2 f.1)

def compCalls (indexes : List Nat) : List (Call τ κ) := indexes.filterMap (fun index => (o.compMap index).map (.comp index))

/-- **The steps are executed up to the first that fails, the compensations that there are run from the last to the first,
those that raised are recorded, and the run reports success if no step failed.** -/
structure Undone (ran : Ran τ κ) : Prop where
  calls : ran.calls = tranCalls 1 (o.tranMap.take ((b.firstFail o.tranMap.length).getD o.tranMap.length)) ++
    o.compCalls (b.owed o.tranMap.length)
  failures : ran.compResult.map CompResult.compensatingException = (b.firstFail o.tranMap.length).map
    (fun _ => (b.owed o.tranMap.length).filter (fun index => (o.compMap index).isSome && b.comp index))
  answer : ran.answer = .returned (some true) ↔ b.firstFail o.tranMap.length = none

/-- **When it does.**  A step fails, those to be compensated have a compensation, and if the first raises no step of an
earlier run is remembered. -/
structure Fit (handler : Bool) : Prop where
  handler : handler = true
  fails : b.firstFail o.tranMap.length ≠ none
  comps : ∀ index ∈ b.owed o.tranMap.length, o.compMap index ≠ none
  fresh : ¬ (b.firstFail o.tranMap.length = some 1 ∧ b.tran 1 = .raised ∧ 0 < o.lastIndex)

variable {o b}

theorem compLoop_spec : ∀ (n : Nat) (r : List (Call τ κ) × List Nat), o.compLoop b n r =
    (r.1 ++ o.compCalls (List.range' 1 n).reverse,
      r.2 ++ (List.range' 1 n).reverse.filter (fun index => (o.compMap index).isNone || b.comp index))
  | 0, r => by simp [compLoop, compCalls]
  | n + 1, r => by
    rw [compLoop, compLoop_spec n, compTurn, List.range'_concat, List.reverse_append]
    unfold compCalls
    rw [Nat.one_mul, Nat.add_comm 1 n, List.reverse_singleton, List.singleton_append, List.filterMap_cons, List.filter_cons]
    cases hcomp : o.compMap (n + 1) with
    | none => simp
    | some f =>
      cases b.comp (n + 1) with
      | true => simp
      | false => simp

theorem tranLoop_success : ∀ (fs : List τ) (index : Nat) (o : CompTransaction τ κ) (calls : List (Call τ κ)),
    (List.range' index fs.length).find? (fun index => decide (b.tran index ≠ .success)) = none →
      ∃ lastIndex, tranLoop b index fs o calls =
        ({ o with lastIndex := lastIndex }, calls ++ tranCalls index fs, .success)
  | [], index, o, calls, _ => ⟨o.lastIndex, by simp [tranLoop, tranCalls]⟩
  | f :: fs, index, o, calls, h => by
    rw [List.length_cons, List.range'_succ, List.find?_cons] at h
    cases htran : b.tran index with
    | success =>
      simp only [htran, ne_eq, not_true_eq_false, decide_false] at h
      obtain ⟨lastIndex, heq⟩ := tranLoop_success fs (index + 1) { o with lastIndex := index } (calls ++ [.tran index f]) h
      refine ⟨lastIndex, ?_⟩
      simp only [tranLoop, htran, heq, tranCalls, List.zipIdx_cons, List.map_cons, List.append_assoc, List.singleton_append]
    | failure => simp [htran] at h
    | raised => simp [htran] at h

theorem tranLoop_fail : ∀ (fs : List τ) (index : Nat) (o : CompTransaction τ κ) (calls : List (Call τ κ)) (k : Nat),
    (List.range' index fs.length).find? (fun index => decide (b.tran index ≠ .success)) = some k →
      tranLoop b index fs o calls =
        ({ o with lastIndex := if b.tran k = .raised then (if k = index then o.lastIndex else k - 1) else k },
          calls ++ tranCalls index (fs.take (k + 1 - index)), b.tran k) ∧ b.tran k ≠ .success ∧ index ≤ k
  | [], index, o, calls, k, h => by simp at h
  | f :: fs, index, o, calls, k, h => by
    rw [List.length_cons, List.range'_succ, List.find?_cons] at h
    cases htran : b.tran index with
    | success =>
      simp only [htran, ne_eq, not_true_eq_false, decide_false] at h
      obtain ⟨heq, hfail, hle⟩ := tranLoop_fail fs (index + 1) { o with lastIndex := index } (calls ++ [.tran index f]) k h
      refine ⟨?_, hfail, by omega⟩
      have htake : k + 1 - index = (k + 1 - (index + 1)) + 1 := by omega
      have hne : k ≠ index := by omega
      have hlast : (if k = index + 1 then index else k - 1) = k - 1 := by
        split
        · omega
        · rfl
      rw [tranLoop, htake, List.take_succ_cons, tranCalls, List.zipIdx_cons, List.map_cons, if_neg hne]
      simp only [htran, heq, hlast, tranCalls, List.append_assoc, List.singleton_append]
    | failure =>
      simp only [htran, ne_eq, reduceCtorEq, not_false_eq_true, decide_true, Option.some.injEq] at h
      subst h
      refine ⟨?_, by simp [htran], le_rfl⟩
      simp [tranLoop, htran, tranCalls]
    | raised =>
      simp only [htran, ne_eq, reduceCtorEq, not_false_eq_true, decide_true, Option.some.injEq] at h
      subst h
      refine ⟨?_, by simp [htran], le_rfl⟩
      simp [tranLoop, htran, tranCalls]

/-- Where the compensations start when the step at `k` has failed: the first that raises leaves what was there. -/
def startAt (o : CompTransaction τ κ) (b : Behaviour) (k : Nat) : Nat :=
  if b.tran k = .raised then (if k = 1 then o.lastIndex else k - 1) else k

theorem run_success (h : b.firstFail o.tranMap.length = none) : (o.run b true).calls = tranCalls 1 o.tranMap ∧
    (o.run b true).compResult = none ∧ (o.run b true).answer = .returned none := by
  obtain ⟨lastIndex, heq⟩ := tranLoop_success o.tranMap 1 o [] h
  rw [run, if_pos rfl, runFunc, heq]
  exact ⟨rfl, rfl, rfl⟩

theorem run_fail {k : Nat} (h : b.firstFail o.tranMap.length = some k) :
    (o.run b true).calls =
      tranCalls 1 (o.tranMap.take k) ++ o.compCalls (List.range' 1 (o.startAt b k)).reverse ∧
    (o.run b true).compResult.map CompResult.compensatingException =
      some ((List.range' 1 (o.startAt b k)).reverse.filter (fun index => (o.compMap index).isNone || b.comp index)) ∧
    (o.run b true).answer = .returned none := by
  obtain ⟨heq, hfail, -⟩ := tranLoop_fail o.tranMap 1 o [] k h
  rw [Nat.add_sub_cancel, List.nil_append] at heq
  change _ = ({ o with lastIndex := o.startAt b k }, _, _) at heq
  rw [run, if_pos rfl, runFunc, heq]
  cases htran : b.tran k with
  | success => exact absurd htran hfail
  | failure =>
    simp only [compensating, compLoop_spec, List.nil_append]
    exact ⟨rfl, rfl, trivial⟩
  | raised =>
    simp only [compensating, compLoop_spec, List.nil_append]
    exact ⟨rfl, rfl, trivial⟩

theorem startAt_eq_iff {k : Nat} (hk : 0 < k) :
    o.startAt b k = b.last k ↔ ¬ (k = 1 ∧ b.tran 1 = .raised ∧ 0 < o.lastIndex) := by
  unfold startAt Behaviour.last
  by_cases hone : k = 1
  · subst hone
    split
    · next hraised => simp [hraised]
    · next hraised => simp [hraised]
  · simp [hone]

theorem firstFail_pos {n k : Nat} (h : b.firstFail n = some k) : 0 < k ∧ k ≤ n := by
  have hmem := List.mem_range'_1.1 (List.mem_of_find?_eq_some h)
  omega

theorem startAt_zero {n : Nat} (hcalls : o.compCalls (List.range' 1 n).reverse = [])
    (hfail : (List.range' 1 n).reverse.filter (fun index => (o.compMap index).isNone || b.comp index) = []) : n = 0 := by
  by_contra hne
  have hmem : 1 ∈ (List.range' 1 n).reverse := by
    rw [List.mem_reverse, List.mem_range'_1]
    omega
  unfold compCalls at hcalls
  have hnone := List.filterMap_eq_nil_iff.1 hcalls 1 hmem
  have hsome := List.filter_eq_nil_iff.1 hfail 1 hmem
  rw [Option.map_eq_none_iff.1 hnone] at hsome
  exact hsome rfl

theorem owed_of_fail {k : Nat} (hfirst : b.firstFail o.tranMap.length = some k) :
    b.owed o.tranMap.length = (List.range' 1 (b.last k)).reverse := by
  rw [Behaviour.owed, hfirst]
  rfl

theorem startAt_fresh {k : Nat} (hfirst : b.firstFail o.tranMap.length = some k) :
    o.startAt b k = b.last k ↔
      ¬ (b.firstFail o.tranMap.length = some 1 ∧ b.tran 1 = .raised ∧ 0 < o.lastIndex) := by
  rw [startAt_eq_iff (firstFail_pos hfirst).1, hfirst, Option.some.injEq]

theorem Undone.fit {k : Nat} (h : Undone o b (o.run b true)) (hfirst : b.firstFail o.tranMap.length = some k) :
    Fit o b true := by
  obtain ⟨hcalls, hfailures, -⟩ := run_fail hfirst
  have howed := owed_of_fail hfirst
  have hundone := h.calls
  have hrecorded := h.failures
  rw [hcalls, hfirst, howed, Option.getD_some, List.append_cancel_left_eq] at hundone
  rw [hfailures, hfirst, howed, Option.map_some, Option.some.injEq] at hrecorded
  have hstart : o.startAt b k = b.last k := by
    by_contra hne
    obtain ⟨rfl, hraised, -⟩ := not_not.1 (fun hno => hne ((startAt_eq_iff (firstFail_pos hfirst).1).2 hno))
    have hlast : b.last 1 = 0 := if_pos hraised
    rw [hlast] at hundone hrecorded
    exact hne ((startAt_zero hundone hrecorded).trans hlast.symm)
  refine ⟨rfl, by rw [hfirst]; exact Option.some_ne_none k, fun index hindex hnone => ?_, (startAt_fresh hfirst).1 hstart⟩
  rw [howed, ← hstart] at hindex
  have hmem : index ∈ (List.range' 1 (o.startAt b k)).reverse.filter
      (fun index => (o.compMap index).isNone || b.comp index) :=
    List.mem_filter.2 ⟨hindex, by simp [hnone]⟩
  rw [hrecorded, List.mem_filter, hnone] at hmem
  cases hmem.2

theorem Fit.undone {k : Nat} (h : Fit o b true) (hfirst : b.firstFail o.tranMap.length = some k) :
    Undone o b (o.run b true) := by
  obtain ⟨hcalls, hfailures, hanswer⟩ := run_fail hfirst
  rw [(startAt_fresh hfirst).2 h.fresh, ← owed_of_fail hfirst] at hcalls hfailures
  refine ⟨?_, ?_, ?_⟩
  · rw [hcalls, hfirst, Option.getD_some]
  · rw [hfailures, hfirst, Option.map_some]
    refine congrArg some (List.filter_congr fun index hindex => ?_)
    obtain ⟨f, hf⟩ := Option.ne_none_iff_exists'.1 (h.comps index hindex)
    rw [hf, Option.isNone_some, Option.isSome_some, Bool.false_or, Bool.true_and]
  · rw [hanswer, hfirst]
    simp

theorem undone_iff (handler : Bool) : Undone o b (o.run b handler) ↔ Fit o b handler := by
  cases handler with
  | false =>
    refine ⟨fun h => ?_, fun h => absurd h.handler Bool.false_ne_true⟩
    cases hfirst : b.firstFail o.tranMap.length with
    | none => cases h.answer.2 hfirst
    | some k =>
      have hfailures := h.failures
      rw [hfirst] at hfailures
      cases hfailures
  | true =>
    cases hfirst : b.firstFail o.tranMap.length with
    | none =>
      obtain ⟨-, -, hanswer⟩ := run_success hfirst
      refine ⟨fun h => ?_, fun h => absurd hfirst h.fails⟩
      have hreport := h.answer.2 hfirst
      rw [hanswer] at hreport
      cases hreport
    | some k => exact ⟨fun h => h.fit hfirst, fun h => h.undone hfirst⟩

inductive Event (τ κ : Type) where
  | add (transactionFunc : τ) (compensatingFunc : Option κ)
  | run (b : Behaviour)
  | clear

def step (handler : Bool) (o : CompTransaction τ κ) : Event τ κ → CompTransaction τ κ
  | .add transactionFunc compensatingFunc => o.add transactionFunc compensatingFunc
  | .run b => (o.run b handler).obj
  | .clear => clear

def Right (handler : Bool) (o : CompTransaction τ κ) : Event τ κ → Prop
  | .run b => Undone o b (o.run b handler)
  | _ => True

def Fits (handler : Bool) (o : CompTransaction τ κ) : Event τ κ → Prop
  | .run b => Fit o b handler
  | _ => True

/-- **The runs on an object are what they should be exactly if each of them fits.** -/
theorem undone_iff_of_run (handler : Bool) (es : List (Event τ κ)) :
    Steps.Along (step handler) (Right handler) new es ↔ Steps.Along (step handler) (Fits handler) new es := by
  refine Steps.along_iff (I := fun _ => True) (fun o e _ => ⟨?_, fun _ => trivial⟩) es new trivial
  cases e with
  | run b => exact undone_iff handler
  | add transactionFunc compensatingFunc => exact Iff.rfl
  | clear => exact Iff.rfl

def okThenRaised : List (Event Unit Unit) :=
  [.add () (some ()), .run ⟨fun _ => .success, fun _ => false⟩, .run ⟨fun _ => .raised, fun _ => false⟩]

/-- The first run reports nothing, and the second takes back the step that it has not executed. -/
theorem stale_undone : ¬ Steps.Along (step true) (Right true) (new : CompTransaction Unit Unit) okThenRaised ∧
    (((okThenRaised.take 2).foldl (step true) (new : CompTransaction Unit Unit)).run
      ⟨fun _ => .raised, fun _ => false⟩ true).calls = [.tran 1 (), .comp 1 ()] := by
  refine ⟨fun h => ?_, rfl⟩
  have hreport := h.2.1.answer.2 rfl
  cases hreport

end CompTransaction
end Sncpp
