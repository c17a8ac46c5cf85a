import Mathlib.Algebra.Group.Nat.Units
/-!
# MsgQueue — the message queue of a service (`skynet_mq`)

A queue is a ring of slots between `head` and `tail`, which is doubled as soon as it is full, so that the two are
equal only when it is empty.
-/
namespace Sncpp.MsgQueue

def defaultQueueSize : Nat := 64

def mqOverload : Nat := 1024

variable {μ : Type}

/-- `struct message_queue`, but for its lock and its link in the global queue.  A slot that was never written is
`none`. -/
structure MessageQueue (μ : Type) where
  handle : Nat
  cap : Nat
  head : Nat
  tail : Nat
  release : Bool
  inGlobal : Bool
  overload : Nat
  overloadThreshold : Nat
  queue : Nat → Option μ

def mqCreate (handle : Nat) : MessageQueue μ :=
  ⟨handle, defaultQueueSize, 0, 0, false, true, 0, mqOverload, fun _ => none⟩

def mqLength (q : MessageQueue μ) : Nat :=
  if q.head ≤ q.tail then q.tail - q.head else q.tail + q.cap - q.head

/-- `skynet_mq_overload`: what is reported is reported once. -/
def takeOverload (q : MessageQueue μ) : MessageQueue μ × Nat := ({ q with overload := 0 }, q.overload)

/-- The loop of `skynet_mq_pop` that doubles the threshold, for at most so many turns. -/
def warn (length : Nat) : Nat → Nat → Nat → Nat × Nat
  | 0, overload, threshold => (overload, threshold)
  | n + 1, overload, threshold =>
    if threshold < length then warn length n length (threshold * 2) else (overload, threshold)

/-- `skynet_mq_pop`: nothing comes out of an empty queue, which leaves the global queue then. -/
def mqPop (q : MessageQueue μ) : MessageQueue μ × Option μ :=
  if q.head = q.tail then ({ q with overloadThreshold := mqOverload, inGlobal := false }, none)
  else
    let head := if q.cap ≤ q.head + 1 then 0 else q.head + 1
    let length := if q.tail < head then q.tail + q.cap - head else q.tail - head
    let w := warn length length q.overload q.overloadThreshold
    ({ q with head := head, overload := w.1, overloadThreshold := w.2 }, q.queue q.head)

def expandQueue (q : MessageQueue μ) : MessageQueue μ :=
  { q with
    queue := fun i => if i < q.cap then q.queue ((q.head + i) % q.cap) else none
    head := 0, tail := q.cap, cap := q.cap * 2 }

/-- `skynet_mq_push`, with whether the queue is to be pushed to the global queue. -/
def mqPush (q : MessageQueue μ) (m : μ) : MessageQueue μ × Bool :=
  let q' := { q with
    queue := Function.update q.queue q.tail (some m)
    tail := if q.cap ≤ q.tail + 1 then 0 else q.tail + 1 }
  let q' := if q'.head = q'.tail then expandQueue q' else q'
  ({ q' with inGlobal := true }, !q'.inGlobal)

theorem warn_le_of_le (length : Nat) : ∀ n o t, length ≤ t * 2 ^ n → length ≤ (warn length n o t).2
  | 0, _, t, h => by rwa [Nat.pow_zero, Nat.mul_one] at h
  | n + 1, o, t, h => by
    unfold warn
    split
    · exact warn_le_of_le length n _ _ (by rw [Nat.pow_succ'] at h; rwa [Nat.mul_assoc])
    · exact Nat.le_of_not_lt ‹_›

/-- The loop has come to its end. -/
theorem warn_le (length o : Nat) {t : Nat} (ht : 0 < t) : length ≤ (warn length length o t).2 :=
  warn_le_of_le length _ _ _ (Nat.le_trans (Nat.le_of_lt Nat.lt_two_pow_self) (Nat.le_mul_of_pos_left _ ht))

/-! ## What is in the ring -/

/-- The slot of the `i`-th message. -/
def MessageQueue.slot (q : MessageQueue μ) (i : Nat) : Nat :=
  if q.head + i < q.cap then q.head + i else q.head + i - q.cap

/-- **The messages in the ring, the first of them first.** -/
structure Holds (q : MessageQueue μ) (l : List μ) : Prop where
  head : q.head < q.cap
  room : l.length < q.cap
  tail : q.tail = q.slot l.length
  slots : ∀ i < l.length, q.queue (q.slot i) = l[i]?

theorem holds_create (h : Nat) : Holds (mqCreate h : MessageQueue μ) [] :=
  ⟨Nat.zero_lt_succ _, Nat.zero_lt_succ _, rfl, fun _ hi => absurd hi (Nat.not_lt_zero _)⟩

theorem slot_ne {q : MessageQueue μ} {i j : Nat} (hj : j < q.cap) (hij : i < j) :
    q.slot i ≠ q.slot j := by
  unfold MessageQueue.slot; split <;> split <;> omega

theorem mod_slot {q : MessageQueue μ} (hq : q.head < q.cap) {i : Nat} (hi : i < q.cap) :
    (q.head + i) % q.cap = q.slot i := by
  unfold MessageQueue.slot
  split
  · rename_i h; exact Nat.mod_eq_of_lt h
  · rw [Nat.mod_eq_sub_mod (by omega), Nat.mod_eq_of_lt (by omega)]

theorem Holds.length_eq {q : MessageQueue μ} {l : List μ} (hq : Holds q l) : mqLength q = l.length := by
  have h₁ := hq.head; have h₂ := hq.room; have h₃ := hq.tail
  unfold MessageQueue.slot at h₃; unfold mqLength
  split at h₃ <;> split <;> omega

theorem Holds.empty_iff {q : MessageQueue μ} {l : List μ} (hq : Holds q l) : q.head = q.tail ↔ l = [] := by
  have h₁ := hq.head; have h₂ := hq.room; have h₃ := hq.tail
  rw [← List.length_eq_zero_iff]
  unfold MessageQueue.slot at h₃
  split at h₃ <;> omega

theorem Holds.pop_nil {q : MessageQueue μ} (hq : Holds q []) :
    mqPop q = ({ q with overloadThreshold := mqOverload, inGlobal := false }, none) :=
  if_pos (hq.empty_iff.2 rfl)

theorem Holds.congr {q q' : MessageQueue μ} {l : List μ} (hq : Holds q l) (h₁ : q'.cap = q.cap)
    (h₂ : q'.head = q.head) (h₃ : q'.tail = q.tail) (h₄ : q'.queue = q.queue) : Holds q' l := by
  have hs : ∀ i, q'.slot i = q.slot i := fun i => by unfold MessageQueue.slot; rw [h₁, h₂]
  refine ⟨by rw [h₁, h₂]; exact hq.head, by rw [h₁]; exact hq.room, by rw [h₃, hs]; exact hq.tail, fun i hi => ?_⟩
  rw [h₄, hs]; exact hq.slots i hi

/-- **What was pushed first comes out**, and the rest stays. -/
theorem Holds.pop_cons {q : MessageQueue μ} {m : μ} {l : List μ} (hq : Holds q (m :: l)) :
    ∃ q', mqPop q = (q', some m) ∧ Holds q' l ∧ q'.inGlobal = q.inGlobal ∧ q'.release = q.release := by
  have hne : q.head ≠ q.tail := fun h => by cases hq.empty_iff.1 h
  have h₁ := hq.head; have h₂ := hq.room; have h₃ := hq.tail
  have h₀ : q.queue q.head = some m := by
    have := hq.slots 0 (by simp)
    rwa [show q.slot 0 = q.head by simp [MessageQueue.slot, h₁]] at this
  rw [List.length_cons] at h₂ h₃
  unfold mqPop
  rw [if_neg hne, h₀]
  refine ⟨_, rfl, ⟨?_, by simp only; omega, ?_, fun i hi => ?_⟩, rfl, rfl⟩
  · simp only; split <;> omega
  · rw [h₃]; unfold MessageQueue.slot; simp only; split <;> split <;> split <;> omega
  · have := hq.slots (i + 1) (by simpa using hi)
    rw [List.getElem?_cons_succ] at this
    rw [← this]
    refine congrArg q.queue ?_
    unfold MessageQueue.slot; simp only; split <;> split <;> split <;> omega

theorem Holds.written {q : MessageQueue μ} {l : List μ} (hq : Holds q l) (m : μ) {i : Nat} (hi : i < (l ++ [m]).length) :
    Function.update q.queue q.tail (some m) (q.slot i) = (l ++ [m])[i]? := by
  rw [List.length_append, List.length_singleton] at hi
  rcases Nat.lt_or_eq_of_le (Nat.le_of_lt_succ hi) with h | rfl
  · rw [Function.update_of_ne (by rw [hq.tail]; exact slot_ne hq.room h), hq.slots i h, List.getElem?_append_left h]
  · rw [← hq.tail, Function.update_self, List.getElem?_concat_length]

/-- **A message is pushed behind the others**, whether the ring is doubled or not. -/
theorem Holds.push {q : MessageQueue μ} {l : List μ} (hq : Holds q l) (m : μ) :
    Holds (mqPush q m).1 (l ++ [m]) ∧ (mqPush q m).1.inGlobal = true ∧ (mqPush q m).1.release = q.release ∧
      (mqPush q m).2 = !q.inGlobal := by
  have h₁ := hq.head; have h₂ := hq.room; have h₃ := hq.tail
  have hw := fun i (hi : i < (l ++ [m]).length) => hq.written m hi
  have hlen : (l ++ [m]).length = l.length + 1 := by simp
  unfold mqPush
  generalize ht : (if q.cap ≤ q.tail + 1 then 0 else q.tail + 1) = t
  unfold MessageQueue.slot at h₃
  dsimp only
  by_cases he : q.head = t
  · have hc : l.length + 1 = q.cap := by split at ht <;> split at h₃ <;> omega
    rw [if_pos he]
    refine ⟨⟨by simp only [expandQueue]; omega, by simp only [expandQueue]; omega, ?_, fun i hi => ?_⟩, rfl, rfl, rfl⟩
    · simp only [expandQueue, MessageQueue.slot, Nat.zero_add]; rw [if_pos (by omega)]; omega
    · have hi' : i < q.cap := by omega
      rw [← hw i hi, ← mod_slot h₁ hi']
      simp only [expandQueue, MessageQueue.slot, Nat.zero_add]
      rw [if_pos (show i < q.cap * 2 by omega), if_pos hi']
  · have hc : l.length + 1 < q.cap := by split at ht <;> split at h₃ <;> omega
    rw [if_neg he]
    refine ⟨⟨h₁, by rw [hlen]; exact hc, ?_, hw⟩, rfl, rfl, rfl⟩
    rw [hlen]
    unfold MessageQueue.slot
    simp only
    split at ht <;> split at h₃ <;> split <;> omega

/-! ## Runs of pushes and pops -/

/-- A message is pushed, or one is popped. -/
inductive Op (μ : Type)
  | push (m : μ)
  | pop

/-- What comes out, and the lengths in between. -/
def mqRun : MessageQueue μ → List (Op μ) → List (Option μ × Nat)
  | _, [] => []
  | q, .push m :: ops => (none, mqLength (mqPush q m).1) :: mqRun (mqPush q m).1 ops
  | q, .pop :: ops => ((mqPop q).2, mqLength (mqPop q).1) :: mqRun (mqPop q).1 ops

/-- The same with a list. -/
def listRun : List μ → List (Op μ) → List (Option μ × Nat)
  | _, [] => []
  | l, .push m :: ops => (none, l.length + 1) :: listRun (l ++ [m]) ops
  | l, .pop :: ops => (l.head?, l.tail.length) :: listRun l.tail ops

theorem Holds.run_eq : ∀ (ops : List (Op μ)) {q : MessageQueue μ} {l : List μ}, Holds q l → mqRun q ops = listRun l ops
  | [], _, _, _ => rfl
  | .push m :: ops, q, l, hq => by
    have hp := (hq.push m).1
    rw [mqRun, listRun, hp.length_eq, hp.run_eq ops, List.length_append, List.length_singleton]
  | .pop :: ops, q, [], hq => by
    have hp : Holds (mqPop q).1 [] := by rw [hq.pop_nil]; exact hq.congr rfl rfl rfl rfl
    rw [mqRun, listRun, hp.length_eq, hp.run_eq ops, hq.pop_nil]; rfl
  | .pop :: ops, q, m :: l, hq => by
    obtain ⟨q', he, hp, -⟩ := hq.pop_cons
    rw [mqRun, listRun, he, hp.length_eq, hp.run_eq ops]; rfl

/-- **The queue is first in, first out**: after any pushes and pops it answers like a list. -/
theorem mqRun_eq (h : Nat) (ops : List (Op μ)) : mqRun (mqCreate h) ops = listRun [] ops := (holds_create h).run_eq ops

end Sncpp.MsgQueue
