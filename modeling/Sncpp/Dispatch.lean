import Sncpp.MsgQueue
/-!
# Dispatch — services, their queues and the worker threads (`skynet_server`, `skynet_mq`, `skynet_handle`)

Threads push messages to services and retire services while the workers take the queues out of the global queue and
hand the messages on.  Each step below is one section under a lock, or one atomic operation on a reference count.
-/
namespace Sncpp.Dispatch

open MsgQueue

variable {μ : Type}

/-- A context that was made, with its queue unless that is freed.  The context itself is freed with its last reference.
Recorded are the messages that were pushed, those that the service was given, and those that were dropped. -/
structure Service (μ : Type) where
  registered : Bool
  ref : Nat
  queue : Option (MessageQueue μ)
  sent : List μ
  got : List μ
  dropped : List μ

/-- The handle storage and the global queue. -/
structure Shared (μ : Type) where
  services : Nat → Option (Service μ)
  globals : List Nat

/-- What a thread is about to do.  What a callback does is done by other threads. -/
inductive Thread (μ : Type)
  /-- Nothing, or `skynet_globalmq_pop`, `skynet_context_new`, a send or a kill. -/
  | idle
  /-- A worker that has a queue dispatches it. -/
  | keeps (h : Nat)
  /-- `skynet_mq_release`, -/
  | letting (h : Nat)
  /-- and its `_drop_queue`. -/
  | dropping (h : Nat)
  /-- The loop of the dispatch, with the turns that are left. -/
  | runs (h : Nat) (first : Bool) (n : Nat)
  /-- Its `skynet_mq_length`. -/
  | counting (h : Nat)
  /-- The queue goes back, as there is another one. -/
  | swapping (h k : Nat)
  /-- `skynet_context_push`, with its reference. -/
  | sending (h : Nat) (m : μ)
  /-- The init function of a new service. -/
  | making (h : Nat)
  /-- The queue of the new service goes to the global queue. -/
  | publishing (h : Nat)
  /-- `skynet_handle_retire` of a service whose init function failed. -/
  | retiring (h : Nat)
  /-- `skynet_context_release`, -/
  | releasing (h : Nat) (next : Thread μ)
  /-- and its `delete_context`. -/
  | deleting (h : Nat) (next : Thread μ)

def Shared.set (s : Shared μ) (h : Nat) (v : Service μ) : Shared μ :=
  { s with services := Function.update s.services h (some v) }

/-- A context that is not freed. -/
def Shared.context (s : Shared μ) (h : Nat) : Option (Service μ) := (s.services h).filter (0 < ·.ref)

/-- A queue that is not freed. -/
def Shared.queue (s : Shared μ) (h : Nat) : Option (Service μ × MessageQueue μ) :=
  (s.services h).bind fun v => v.queue.map (v, ·)

/-- `skynet_globalmq_push`.  Its assertion fails, or the last queue is linked to itself, if the queue is there. -/
def Shared.globalmqPush (s : Shared μ) (h : Nat) : Option (Shared μ) :=
  if h ∈ s.globals then none else some { s with globals := s.globals ++ [h] }

def Shared.registered (s : Shared μ) (h : Nat) : Bool := (s.services h).any (·.registered)

/-- `skynet_handle_grab` of a handle in the storage. -/
def Shared.grab (s : Shared μ) (h : Nat) : Option (Shared μ) :=
  (s.context h).map fun v => s.set h { v with ref := v.ref + 1 }

/-- What a thread does next, none if an assertion fails or freed memory is touched.  `weight` is that of the worker,
none if below 0, and `ok` is whether the init function succeeds. -/
def turn (weight : Option Nat) (ok : Bool) (s : Shared μ) : Thread μ → Option (Thread μ × Shared μ)
  | .idle =>
    match s.globals with
    | [] => some (.idle, s)
    | h :: hs => some (.keeps h, { s with globals := hs })
  | .keeps h => if s.registered h then (s.grab h).map (.runs h true 1, ·) else some (.letting h, s)
  | .letting h => do
    let (_, q) ← s.queue h
    if q.release then some (.dropping h, s) else (s.globalmqPush h).map (.idle, ·)
  | .dropping h => do
    let (v, q) ← s.queue h
    match mqPop q with
    | (q, some m) => some (.dropping h, s.set h { v with queue := some q, dropped := v.dropped ++ [m] })
    | (_, none) => if h ∈ s.globals then none else some (.idle, s.set h { v with queue := none })
  | .runs h _ 0 =>
    match s.globals with
    | [] => some (.releasing h (.keeps h), s)
    | k :: ks => some (.swapping h k, { s with globals := ks })
  | .runs h first (n + 1) => do
    let _ ← s.context h
    let (v, q) ← s.queue h
    match mqPop q with
    | (q, some m) =>
      some (if first ∧ weight ≠ none then .counting h else .runs h false n,
        s.set h { v with queue := some (takeOverload q).1, got := v.got ++ [m] })
    | (q, none) => some (.releasing h .idle, s.set h { v with queue := some q })
  | .counting h => do
    let (_, q) ← s.queue h
    some (.runs h false (mqLength q / 2 ^ weight.getD 0 - 1), s)
  | .swapping h k => (s.globalmqPush h).map (.releasing h (.keeps k), ·)
  | .sending h m => do
    let _ ← s.context h
    let (v, q) ← s.queue h
    let (q, out) := mqPush q m
    let s := s.set h { v with queue := some q, sent := v.sent ++ [m] }
    if out then (s.globalmqPush h).map (.releasing h .idle, ·) else some (.releasing h .idle, s)
  | .making h => some (.releasing h (if ok then .publishing h else .retiring h), s)
  | .publishing h => (s.globalmqPush h).map (.idle, ·)
  | .retiring h =>
    if s.registered h then do
      let v ← s.context h
      some (.releasing h (.letting h), s.set h { v with registered := false })
    else some (.letting h, s)
  | .releasing h t => do
    let v ← s.context h
    some (if v.ref = 1 then .deleting h t else t, s.set h { v with ref := v.ref - 1 })
  | .deleting h t => do
    let (v, q) ← s.queue h
    let s' := s.set h { v with queue := some { q with release := true } }
    if q.release then none else if q.inGlobal then some (t, s') else (s'.globalmqPush h).map (t, ·)

/-- What an idle thread may begin. -/
inductive Job (μ : Type)
  | create (h : Nat)
  | send (h : Nat) (m : μ)
  | retire (h : Nat)

/-- A handle is registered once; a message to an unknown handle is not sent. -/
def start (s : Shared μ) : Job μ → Option (Thread μ × Shared μ)
  | .create h =>
    match s.services h with
    | none => some (.making h, s.set h ⟨true, 2, some (mqCreate h), [], [], []⟩)
    | some _ => some (.idle, s)
  | .send h m => if s.registered h then (s.grab h).map (.sending h m, ·) else some (.idle, s)
  | .retire h =>
    if s.registered h then do
      let v ← s.context h
      some (.releasing h .idle, s.set h { v with registered := false })
    else some (.idle, s)

/-! ## Who has what -/

/-- The references that a thread holds, -/
@[simp] def Thread.refs : Thread μ → List Nat
  | .runs h _ _ | .counting h | .swapping h _ | .sending h _ | .making h => [h]
  | .releasing h t => h :: t.refs
  | .deleting _ t => t.refs
  | _ => []

/-- the queues it has, -/
@[simp] def Thread.holds : Thread μ → List Nat
  | .keeps h | .letting h | .dropping h | .runs h _ _ | .counting h | .making h | .publishing h | .retiring h => [h]
  | .swapping h k => [h, k]
  | .releasing _ t | .deleting _ t => t.holds
  | _ => []

/-- the contexts it is about to delete, -/
@[simp] def Thread.deletes : Thread μ → List Nat
  | .deleting h t => h :: t.deletes
  | .releasing _ t => t.deletes
  | _ => []

/-- and the queues it is emptying. -/
@[simp] def Thread.drops : Thread μ → List Nat
  | .dropping h => [h]
  | .releasing _ t | .deleting _ t => t.drops
  | _ => []

/-- **The numbers of a service.**  `R`, `D` and `X` count the threads with a reference, those that delete it and those
that empty its queue, and `O` those that have the queue, with its places in the global queue; `st` is the queue's
`in_global` and `release`. -/
def Counts (R O D X : Nat) (registered : Bool) (ref : Nat) : Option (Bool × Bool) → Prop
  | none => ref = 0 ∧ R = 0 ∧ registered = false ∧ O = 0 ∧ D = 0 ∧ X = 0
  | some (inGlobal, release) =>
    ref = R + (if registered then 1 else 0) ∧ O = (if inGlobal || release then 1 else 0) ∧
      D = (if ref = 0 ∧ release = false then 1 else 0) ∧ (release = true → ref = 0) ∧ (0 < X → release = true)

/-- **The messages of a service** are given to it in their order; only what is left when it is gone is dropped. -/
structure Ordered (v : Service μ) (l : List μ) : Prop where
  sent : v.got ++ v.dropped ++ l = v.sent
  freed : v.queue = none → l = []
  queue : ∀ q ∈ v.queue, Holds q l ∧ (l ≠ [] → q.inGlobal = true) ∧ (v.dropped ≠ [] → q.release = true)

def Right (R O D X : Nat) : Option (Service μ) → Prop
  | none => R = 0 ∧ O = 0 ∧ D = 0 ∧ X = 0
  | some v =>
    Counts R O D X v.registered v.ref (v.queue.map fun q => (q.inGlobal, q.release)) ∧ ∃ l, Ordered v l

/-- **The invariant**, with what the other threads have. -/
def Inv (r o d x : Nat → Nat) (t : Thread μ) (s : Shared μ) : Prop :=
  ∀ k, x k ≤ o k ∧ Right (r k + t.refs.count k) (o k + t.holds.count k + s.globals.count k) (d k + t.deletes.count k)
    (x k + t.drops.count k) (s.services k)

/-- A step that goes on, and keeps it. -/
def Goes (r o d x : Nat → Nat) (a : Option (Thread μ × Shared μ)) : Prop :=
  ∃ p, a = some p ∧ Inv r o d x p.1 p.2

variable {r o d x : Nat → Nat} {s : Shared μ} {t t' : Thread μ} {h : Nat} (w : Option Nat) (ok : Bool)

/-- What a step of `t` to `t'` leaves alone at a handle, with the global queue before and after. -/
structure Alike (t t' : Thread μ) (g g' : List Nat) (k : Nat) : Prop where
  refs : t'.refs.count k = t.refs.count k
  holds : t'.holds.count k + g'.count k = t.holds.count k + g.count k
  deletes : t'.deletes.count k = t.deletes.count k
  drops : t'.drops.count k = t.drops.count k

theorem Alike.right {g g' : List Nat} {k : Nat} {v : Option (Service μ)} (hk : Alike t t' g g' k)
    (h : Right (r k + t.refs.count k) (o k + t.holds.count k + g.count k) (d k + t.deletes.count k)
      (x k + t.drops.count k) v) :
    Right (r k + t'.refs.count k) (o k + t'.holds.count k + g'.count k) (d k + t'.deletes.count k)
      (x k + t'.drops.count k) v := by
  rwa [hk.refs, Nat.add_assoc, hk.holds, ← Nat.add_assoc, hk.deletes, hk.drops]

theorem Inv.same {g : List Nat} (H : Inv r o d x t s) (hk : ∀ k, Alike t t' s.globals g k) :
    Inv r o d x t' ⟨s.services, g⟩ := fun k => ⟨(H k).1, (hk k).right (H k).2⟩

theorem Inv.set {v : Service μ} {g : List Nat} (H : Inv r o d x t s) (hk : ∀ k ≠ h, Alike t t' s.globals g k)
    (hh : Right (r h + t'.refs.count h) (o h + t'.holds.count h + g.count h) (d h + t'.deletes.count h)
      (x h + t'.drops.count h) (some v)) :
    Inv r o d x t' ⟨Function.update s.services h (some v), g⟩ := by
  intro k
  refine ⟨(H k).1, ?_⟩
  by_cases h' : k = h
  · rw [h']; simp only [Function.update_self]; exact hh
  · simp only [Function.update_of_ne h']; exact (hk k h').right (H k).2

/-- A service in the handle storage, or that a thread has to do with, or whose queue is in the global queue, still has
its queue. -/
theorem Inv.lookup (H : Inv r o d x t s) (h : Nat)
    (hp : h ∈ t.refs ++ t.holds ++ s.globals ++ t.deletes ∨ s.registered h = true) :
    ∃ v q l, s.services h = some v ∧ v.queue = some q ∧ s.queue h = some (v, q) ∧ s.registered h = v.registered ∧
      (0 < v.ref → s.context h = some v) ∧ Ordered v l ∧
      Counts (r h + t.refs.count h) (o h + t.holds.count h + s.globals.count h) (d h + t.deletes.count h)
        (x h + t.drops.count h) v.registered v.ref (some (q.inGlobal, q.release)) := by
  have hh := (H h).2
  simp only [← List.count_pos_iff, List.count_append] at hp
  unfold Shared.queue Shared.registered Shared.context at *
  cases hs : s.services h with
  | none => rw [hs] at hh hp; simp only [Right, Option.any_none, Bool.false_eq_true, or_false] at hh hp; omega
  | some v =>
    rw [hs] at hh hp
    obtain ⟨hc, l, hl⟩ := hh
    cases hq : v.queue with
    | none => rw [hq] at hc; simp [Counts] at hc hp; grind
    | some q =>
      rw [hq] at hc
      exact ⟨v, q, l, rfl, hq, by simp [hq], rfl, fun h => by simp [h], hl, hc⟩

theorem Inv.fresh (H : Inv r o d x t s) (hp : 0 < t.holds.count h) : h ∉ s.globals := by
  obtain ⟨v, q, l, hs, hq, hsq, hr, hx, hl, hc⟩ := H.lookup h (.inl (by simp [List.count_pos_iff.1 hp]))
  rw [← List.count_eq_zero]
  simp only [Counts] at hc
  grind

theorem grab_inv (H : Inv r o d x t s) (hr : s.registered h = true)
    (hk : ∀ k, t'.refs.count k = t.refs.count k + [h].count k ∧ t'.holds.count k = t.holds.count k ∧
      t'.deletes.count k = t.deletes.count k ∧ t'.drops.count k = t.drops.count k) :
    Goes r o d x ((s.grab h).map (t', ·)) := by
  obtain ⟨v, q, l, hs, hq, hsq, hv, hx, hl, hc⟩ := H.lookup h (.inr hr)
  simp [← hv, hr, Counts] at hc
  rw [Shared.grab, hx (by omega)]
  refine ⟨_, rfl, H.set (fun k hk' => ?_) ⟨?_, l, ⟨hl.sent, hl.freed, hl.queue⟩⟩⟩
  · obtain ⟨h₁, h₂, h₃, h₄⟩ := hk k
    exact ⟨by simp [h₁, hk'.symm], by simp [h₂], h₃, h₄⟩
  · obtain ⟨h₁, h₂, h₃, h₄⟩ := hk h
    simp [hq, ← hv, hr, Counts, h₁, h₂, h₃, h₄]
    grind

theorem retire_inv (t' : Thread μ) (H : Inv r o d x t s) (hr : s.registered h = true)
    (hk : ∀ k, Alike t t' s.globals s.globals k) :
    ∃ v, s.context h = some v ∧ Inv r o d x (.releasing h t') (s.set h { v with registered := false }) := by
  obtain ⟨v, q, l, hs, hq, hsq, hv, hx, hl, hc⟩ := H.lookup h (.inr hr)
  simp [← hv, hr, Counts] at hc
  refine ⟨v, hx (by omega), H.set (fun k hk' => ?_) ⟨?_, l, ⟨hl.sent, hl.freed, hl.queue⟩⟩⟩
  · obtain ⟨h₁, h₂, h₃, h₄⟩ := hk k
    exact ⟨by simp [h₁, hk'.symm], h₂, h₃, h₄⟩
  · obtain ⟨h₁, h₂, h₃, h₄⟩ := hk h
    simp [hq, Counts, h₁, h₃, h₄]
    grind

theorem push_inv (t' : Thread μ) (H : Inv r o d x t s) (hp : 0 < t.holds.count h)
    (hk : ∀ k, t'.refs.count k = t.refs.count k ∧ t'.holds.count k + [h].count k = t.holds.count k ∧
      t'.deletes.count k = t.deletes.count k ∧ t'.drops.count k = t.drops.count k) :
    Goes r o d x ((s.globalmqPush h).map (t', ·)) := by
  obtain ⟨v, q, l, hs, hq, hsq, hr, hx, hl, hc⟩ := H.lookup h (.inl (by simp [List.count_pos_iff.1 hp]))
  have hg : h ∉ s.globals := by
    rw [← List.count_eq_zero]; simp only [Counts] at hc; grind
  simp only [Shared.globalmqPush, if_neg hg, Option.map_some]
  refine ⟨_, rfl, H.same fun k => ?_⟩
  obtain ⟨h₁, h₂, h₃, h₄⟩ := hk k
  exact ⟨h₁, by simp only [List.count_append]; omega, h₃, h₄⟩

theorem letting_inv (H : Inv r o d x (.letting h) s) : Goes r o d x (turn w ok s (.letting h)) := by
  have hxo := (H h).1
  obtain ⟨v, q, l, hs, hq, hsq, hr, hx, hl, hc⟩ := H.lookup h (.inl (by simp))
  simp only [turn, hsq, Option.bind_some, Option.bind_eq_bind]
  cases hv : q.release
  · exact push_inv _ H (by simp) fun k => by simp
  · have hs' : s.services = Function.update s.services h (some v) := by rw [← hs, Function.update_eq_self]
    refine ⟨_, rfl, ?_⟩
    show Inv r o d x (.dropping h) ⟨s.services, s.globals⟩
    rw [hs']
    refine H.set (fun k hk => by constructor <;> simp [hk.symm]) ⟨?_, l, hl⟩
    simp [hq, hv, Counts] at hc ⊢
    grind

theorem dropping_inv (H : Inv r o d x (.dropping h) s) : Goes r o d x (turn w ok s (.dropping h)) := by
  have hxo := (H h).1
  obtain ⟨v, q, l, hs, hq, hsq, hr, hx, hl, hc⟩ := H.lookup h (.inl (by simp))
  simp only [turn, hsq, Option.bind_some, Option.bind_eq_bind]
  have hrel : q.release = true := by simp [Counts] at hc; grind
  have hg := H.fresh (h := h) (by simp)
  obtain ⟨hh, hgl, -⟩ := hl.queue q hq
  cases l with
  | nil =>
    rw [hh.pop_nil]
    simp only [if_neg hg]
    refine ⟨_, rfl, H.set (fun k hk => by constructor <;> simp [hk.symm])
      ⟨?_, [], ⟨hl.sent, fun _ => rfl, fun _ h => by cases h⟩⟩⟩
    simp [Counts] at hc ⊢
    grind
  | cons m l =>
    obtain ⟨q', he, hh', hg', hr'⟩ := hh.pop_cons
    rw [he]
    refine ⟨_, rfl, H.set (fun k hk => by constructor <;> simp) ⟨?_, l, ⟨?_, ?_, ?_⟩⟩⟩
    · simp [Counts, hg', hr'] at hc ⊢; grind
    · simpa using hl.sent
    · intro h; cases h
    · rintro _ ⟨⟩; exact ⟨hh', fun _ => by rw [hg']; exact hgl (by simp), fun _ => by rw [hr', hrel]⟩

theorem runs_inv {b : Bool} {n : Nat} (H : Inv r o d x (.runs h b n) s) : Goes r o d x (turn w ok s (.runs h b n)) := by
  cases n with
  | zero =>
    simp only [turn]
    split
    · exact ⟨_, rfl, H.same fun k => by constructor <;> simp⟩
    · rename_i hg
      exact ⟨_, rfl, H.same fun k => by constructor <;> simp [hg] <;> grind⟩
  | succ n =>
    obtain ⟨v, q, l, hs, hq, hsq, hr, hx, hl, hc⟩ := H.lookup h (.inl (by simp))
    have hv : 0 < v.ref := by simp [Counts] at hc; omega
    simp only [turn, hsq, hx hv, Option.bind_some, Option.bind_eq_bind]
    have hrel : q.release = false := by simp [Counts] at hc; grind
    obtain ⟨hh, hgl, hd⟩ := hl.queue q hq
    have hd' : v.dropped = [] := by
      by_contra h; rw [hd h] at hrel; cases hrel
    have hsent := hl.sent
    rw [hd', List.append_nil] at hsent
    cases l with
    | nil =>
      rw [hh.pop_nil]
      refine ⟨_, rfl, H.set (fun k hk => by constructor <;> simp [hk.symm]) ⟨?_, [], ⟨hl.sent, fun _ => rfl, ?_⟩⟩⟩
      · simp [Counts, hrel] at hc ⊢; grind
      · rintro _ ⟨⟩; exact ⟨hh.congr rfl rfl rfl rfl, by simp, fun h => absurd hd' h⟩
    | cons m l =>
      obtain ⟨q', he, hh', hg', hr'⟩ := hh.pop_cons
      rw [he]
      refine ⟨_, rfl, H.set (fun k hk => by constructor <;> simp only <;> split <;> simp) ⟨?_, l, ⟨?_, ?_, ?_⟩⟩⟩
      · simp only; split <;> simp [Counts, takeOverload, hg', hr'] at hc ⊢ <;> grind
      · simpa [hd'] using hsent
      · intro h; cases h
      · rintro _ ⟨⟩; exact ⟨hh'.congr rfl rfl rfl rfl, fun _ => hg'.trans (hgl (by simp)), fun h => absurd hd' h⟩

theorem sending_inv {m : μ} (H : Inv r o d x (.sending h m) s) : Goes r o d x (turn w ok s (.sending h m)) := by
  obtain ⟨v, q, l, hs, hq, hsq, hr, hx, hl, hc⟩ := H.lookup h (.inl (by simp))
  have hv : 0 < v.ref := by simp [Counts] at hc; omega
  simp only [turn, hsq, hx hv, Option.bind_some, Option.bind_eq_bind]
  have hrel : q.release = false := by simp [Counts] at hc; grind
  obtain ⟨hh, hgl, hd⟩ := hl.queue q hq
  obtain ⟨h₁, h₂, h₃, h₄⟩ := hh.push m
  have hv' : Ordered { v with queue := some (mqPush q m).1, sent := v.sent ++ [m] } (l ++ [m]) :=
    ⟨by rw [← hl.sent]; simp, fun h => (Option.some_ne_none _ h).elim,
      by rintro _ ⟨⟩; exact ⟨h₁, fun _ => h₂, fun h => h₃.trans (hd h)⟩⟩
  rw [h₄]
  cases hg : q.inGlobal
  · have hng : h ∉ s.globals := by
      rw [← List.count_eq_zero]; simp [Counts, hg, hrel] at hc; omega
    rw [Bool.not_false, if_pos rfl,
      show (s.set h _).globalmqPush h = some ⟨_, s.globals ++ [h]⟩ from if_neg hng]
    refine ⟨_, rfl, ?_⟩
    refine H.set (fun k hk => by constructor <;> simp [hk.symm]) ⟨?_, _, hv'⟩
    simp [Counts, h₂, h₃, hrel, hg] at hc ⊢; grind
  · refine ⟨_, rfl, H.set (fun k hk => by constructor <;> simp) ⟨?_, _, hv'⟩⟩
    simp [Counts, h₂, h₃, hrel, hg] at hc ⊢; grind

theorem releasing_inv (H : Inv r o d x (.releasing h t) s) : Goes r o d x (turn w ok s (.releasing h t)) := by
  obtain ⟨v, q, l, hs, hq, hsq, hr, hx, hl, hc⟩ := H.lookup h (.inl (by simp))
  have hv : 0 < v.ref := by simp [Counts] at hc; omega
  simp only [turn, hx hv, Option.bind_some, Option.bind_eq_bind]
  refine ⟨_, rfl, ?_⟩
  split
  · rename_i h₁
    refine H.set (fun k hk => by constructor <;> simp [hk.symm]) ⟨?_, l, ⟨hl.sent, hl.freed, hl.queue⟩⟩
    simp [hq, Counts, h₁] at hc ⊢
    grind
  · refine H.set (fun k hk => by constructor <;> simp [hk.symm]) ⟨?_, l, ⟨hl.sent, hl.freed, hl.queue⟩⟩
    simp [hq, Counts] at hc ⊢
    grind

theorem deleting_inv (H : Inv r o d x (.deleting h t) s) : Goes r o d x (turn w ok s (.deleting h t)) := by
  obtain ⟨v, q, l, hs, hq, hsq, hr, hx, hl, hc⟩ := H.lookup h (.inl (by simp))
  simp only [turn, hsq, Option.bind_some, Option.bind_eq_bind]
  have hrel : q.release = false := by simp [Counts] at hc; grind
  obtain ⟨hh, hgl, hd⟩ := hl.queue q hq
  have hv' : Ordered { v with queue := some { q with release := true } } l :=
    ⟨hl.sent, fun h => (Option.some_ne_none _ h).elim,
      by rintro _ ⟨⟩; exact ⟨hh.congr rfl rfl rfl rfl, hgl, fun _ => rfl⟩⟩
  rw [hrel]
  by_cases hg : q.inGlobal = true
  · rw [if_neg Bool.false_ne_true, if_pos hg]
    refine ⟨_, rfl, H.set (fun k hk => by constructor <;> simp [hk.symm]) ⟨?_, _, hv'⟩⟩
    simp [Counts, hrel, hg] at hc ⊢
    grind
  · have hng : h ∉ s.globals := by
      rw [← List.count_eq_zero]; simp [Counts, hg, hrel] at hc; omega
    rw [if_neg Bool.false_ne_true, if_neg hg,
      show (s.set h _).globalmqPush h = some ⟨_, s.globals ++ [h]⟩ from if_neg hng]
    refine ⟨_, rfl, ?_⟩
    refine H.set (fun k hk => by constructor <;> simp [hk.symm]) ⟨?_, _, hv'⟩
    simp [Counts, hrel, hg] at hc ⊢
    grind

theorem turn_inv (H : Inv r o d x t s) :
    Goes r o d x (turn w ok s t) := by
  cases t with
  | idle =>
    simp only [turn]
    split
    · exact ⟨_, rfl, H⟩
    · rename_i hg
      exact ⟨_, rfl, H.same fun k => by constructor <;> simp [hg] <;> grind⟩
  | keeps h =>
    simp only [turn]
    split
    · exact grab_inv H ‹_› fun k => by simp
    · exact ⟨_, rfl, H.same fun k => by constructor <;> simp⟩
  | letting h => exact letting_inv w ok H
  | dropping h => exact dropping_inv w ok H
  | runs h b n => exact runs_inv w ok H
  | counting h =>
    obtain ⟨v, q, l, hs, hq, hsq, -⟩ := H.lookup h (.inl (by simp))
    simp only [turn, hsq, Option.bind_some, Option.bind_eq_bind]
    exact ⟨_, rfl, H.same fun k => by constructor <;> simp⟩
  | swapping h k => exact push_inv _ H (by simp) fun j => by simp; grind
  | sending h m => exact sending_inv w ok H
  | making h => exact ⟨_, rfl, H.same fun k => by cases ok <;> constructor <;> simp⟩
  | publishing h => exact push_inv _ H (by simp) fun j => by simp
  | retiring h =>
    simp only [turn]
    split
    · rename_i hr
      obtain ⟨v, hv, hi⟩ := retire_inv (.letting h) H hr fun k => by constructor <;> simp
      rw [hv]
      exact ⟨_, rfl, hi⟩
    · exact ⟨_, rfl, H.same fun k => by constructor <;> simp⟩
  | releasing h t => exact releasing_inv w ok H
  | deleting h t => exact deleting_inv w ok H

theorem start_inv (j : Job μ) (H : Inv r o d x .idle s) :
    Goes r o d x (start s j) := by
  cases j with
  | create h =>
    simp only [start]
    split
    · rename_i hs
      have hh := (H h).2
      rw [hs] at hh
      refine ⟨_, rfl, ?_⟩
      refine H.set (fun k hk => by constructor <;> simp [hk.symm]) ⟨?_, [], ⟨rfl, fun _ => rfl, ?_⟩⟩
      · simp [Right] at hh
        simp [Counts, mqCreate, hh]
      · rintro _ ⟨⟩; exact ⟨holds_create h, by simp, by simp⟩
    · exact ⟨_, rfl, H⟩
  | send h m =>
    simp only [start]
    split
    · exact grab_inv H ‹_› fun k => by simp
    · exact ⟨_, rfl, H⟩
  | retire h =>
    simp only [start]
    split
    · rename_i hr
      obtain ⟨v, hv, hi⟩ := retire_inv .idle H hr fun k => by constructor <;> simp
      rw [hv]
      exact ⟨_, rfl, hi⟩
    · exact ⟨_, rfl, H⟩

/-! ## All threads -/

/-- The shared state and the threads. -/
structure World (μ : Type) where
  shared : Shared μ
  threads : List (Thread μ)

/-- A thread comes up, an idle one begins something, or one goes on. -/
inductive Event (μ : Type)
  | spawn
  | start (i : Nat) (j : Job μ)
  | turn (i : Nat) (weight : Option Nat) (ok : Bool)

def World.act (w : World μ) (i : Nat) (f : Thread μ → Option (Thread μ × Shared μ)) : Option (World μ) :=
  match w.threads[i]? with
  | none => some w
  | some t => (f t).map fun p => ⟨p.2, w.threads.set i p.1⟩

def World.step (w : World μ) : Event μ → Option (World μ)
  | .spawn => some { w with threads := w.threads ++ [.idle] }
  | .start i j => w.act i fun t =>
    match t with
    | .idle => Dispatch.start w.shared j
    | t => some (t, w.shared)
  | .turn i weight ok => w.act i (Dispatch.turn weight ok w.shared)

/-- The steps of all threads in any order. -/
def run (w : World μ) (es : List (Event μ)) : Option (World μ) := es.foldlM World.step w

def World.init : World μ := ⟨⟨fun _ => none, []⟩, []⟩

def World.count (w : World μ) (f : Thread μ → List Nat) (k : Nat) : Nat := (w.threads.flatMap f).count k

def World.Inv (w : World μ) : Prop :=
  ∀ k, Right (w.count Thread.refs k) (w.count Thread.holds k + w.shared.globals.count k) (w.count Thread.deletes k)
    (w.count Thread.drops k) (w.shared.services k)

theorem drops_le (k : Nat) : ∀ t : Thread μ, t.drops.count k ≤ t.holds.count k
  | .releasing _ t => drops_le k t
  | .deleting _ t => drops_le k t
  | .idle | .keeps _ | .letting _ | .dropping _ | .runs _ _ _ | .counting _ | .swapping _ _ | .sending _ _ | .making _
  | .publishing _ | .retiring _ => by simp

theorem drops_le_flatMap (k : Nat) (ts : List (Thread μ)) :
    (ts.flatMap Thread.drops).count k ≤ (ts.flatMap Thread.holds).count k := by
  induction ts with
  | nil => simp
  | cons t ts ih => have := drops_le k t; simp only [List.flatMap_cons, List.count_append]; omega

theorem World.Inv.act {w : World μ} {i : Nat} {f : Thread μ → Option (Thread μ × Shared μ)} (H : w.Inv)
    (hf : ∀ r o d x t, Dispatch.Inv r o d x t w.shared → Goes r o d x (f t)) :
    ∃ w', w.act i f = some w' ∧ w'.Inv := by
  unfold World.act
  split
  · exact ⟨w, rfl, H⟩
  · rename_i t ht
    obtain ⟨hi, he⟩ := List.getElem?_eq_some_iff.1 ht
    have hts : w.threads = w.threads.take i ++ t :: w.threads.drop (i + 1) := by
      rw [← he, List.getElem_cons_drop, List.take_append_drop]
    let c (g : Thread μ → List Nat) (k : Nat) :=
      ((w.threads.take i).flatMap g).count k + ((w.threads.drop (i + 1)).flatMap g).count k
    have hc : ∀ g t' k, ((w.threads.set i t').flatMap g).count k = c g k + (g t').count k := fun g t' k => by
      rw [List.set_eq_take_append_cons_drop, if_pos hi]
      simp only [List.flatMap_append, List.flatMap_cons, List.count_append, c]
      omega
    have hw : w.threads.set i t = w.threads := by rw [← he, List.set_getElem_self]
    obtain ⟨p, hp, hI⟩ := hf (c Thread.refs) (c Thread.holds) (c Thread.deletes) (c Thread.drops) t fun k => by
      refine ⟨Nat.add_le_add (drops_le_flatMap k _) (drops_le_flatMap k _), ?_⟩
      rw [← hc, ← hc, ← hc, ← hc, hw]
      exact H k
    rw [hp]
    refine ⟨_, rfl, fun k => ?_⟩
    unfold World.count
    rw [hc, hc, hc, hc]
    exact (hI k).2

theorem World.Inv.step {w : World μ} (H : w.Inv) (e : Event μ) : ∃ w', w.step e = some w' ∧ w'.Inv := by
  cases e with
  | spawn => exact ⟨_, rfl, fun k => by simpa [World.count] using H k⟩
  | start i j =>
    refine H.act fun r o d x t hI => ?_
    cases t
    case idle => exact start_inv j hI
    all_goals exact ⟨_, rfl, hI⟩
  | turn i weight ok => exact H.act fun r o d x t hI => turn_inv weight ok hI

theorem World.Inv.run : ∀ (es : List (Event μ)) {w : World μ}, w.Inv → ∃ w', Dispatch.run w es = some w' ∧ w'.Inv
  | [], w, H => ⟨w, rfl, H⟩
  | e :: es, w, H => by
    obtain ⟨w₁, h₁, H₁⟩ := H.step e
    obtain ⟨w₂, h₂, H₂⟩ := H₁.run es
    exact ⟨w₂, by rw [Dispatch.run, List.foldlM_cons, h₁]; exact h₂, H₂⟩

theorem init_inv : (World.init : World μ).Inv := fun _ => ⟨rfl, rfl, rfl, rfl⟩

/-- **A queue is at one place**: in the global queue once or with one thread, or nowhere, and then it is empty and its
next message takes it back to the global queue.  One that is freed is nowhere. -/
def World.OwnedOnce (w : World μ) (h : Nat) : Prop :=
  ∀ v ∈ w.shared.services h,
    (v.queue = none → w.count Thread.holds h + w.shared.globals.count h = 0) ∧
    ∀ q ∈ v.queue, w.count Thread.holds h + w.shared.globals.count h = (if q.inGlobal || q.release then 1 else 0) ∧
      (0 < mqLength q → q.inGlobal = true)

/-- **No message is lost or doubled**: what was pushed is what the service was given, what was dropped and what waits,
in this order, and nothing is dropped before the service is gone. -/
def World.InOrder (w : World μ) (h : Nat) : Prop :=
  ∀ v ∈ w.shared.services h, ∃ l, v.got ++ v.dropped ++ l = v.sent ∧ (v.queue = none → l = []) ∧
    (∀ q ∈ v.queue, Holds q l) ∧ (v.dropped ≠ [] → v.registered = false ∧ v.ref = 0)

end Sncpp.Dispatch
