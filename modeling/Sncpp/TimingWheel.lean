import Mathlib.Algebra.Group.Nat.Units
/-!
# TimingWheel — the timers of the framework (`skynet_timer`)

A timer is kept by how far its time lies ahead: in one of 256 lists if only the last eight bits differ from the
present time, else in a list of one of four levels, which is gone through again when the time comes to its part.
-/
namespace Sncpp.TimingWheel

variable {ε : Type}

/-- The lists of the wheel, `near[256]` and `t[4][64]`. -/
inductive Place
  | near (idx : Nat)
  | t (level idx : Nat)
  deriving DecidableEq

/-- `struct timer_node`, with its event.  Recorded is the tick that it is for. -/
structure TimerNode (ε : Type) where
  expire : Nat
  event : ε
  due : Nat

structure Timer (ε : Type) where
  lists : Place → List (TimerNode ε)
  time : Nat

def Timer.link (T : Timer ε) (p : Place) (node : TimerNode ε) : Timer ε :=
  { T with lists := Function.update T.lists p (T.lists p ++ [node]) }

/-- The loop of `add_node` from level `i`, with so many levels to look at. -/
def level (time current : Nat) : Nat → Nat → Nat
  | 0, i => i
  | n + 1, i =>
    if time ||| (2 ^ (14 + 6 * i) - 1) = current ||| (2 ^ (14 + 6 * i) - 1) then i else level time current n (i + 1)

/-- Where `add_node` puts a node. -/
def place (time current : Nat) : Place :=
  if time ||| (2 ^ 8 - 1) = current ||| (2 ^ 8 - 1) then .near (time % 2 ^ 8)
  else .t (level time current 3 0) (time / 2 ^ (8 + 6 * level time current 3 0) % 2 ^ 6)

def addNode (T : Timer ε) (node : TimerNode ε) : Timer ε := T.link (place node.expire T.time) node

/-- `move_list` of the list at a place. -/
def moveList (T : Timer ε) (p : Place) : Timer ε :=
  (T.lists p).foldl addNode { T with lists := Function.update T.lists p [] }

/-- The loop of `timer_shift` from level `i`, with so many levels to look at. -/
def shiftLevel (ct : Nat) : Nat → Nat → Option Place
  | 0, _ => none
  | n + 1, i =>
    if ct % 2 ^ (8 + 6 * i) = 0 then
      if ct / 2 ^ (8 + 6 * i) % 2 ^ 6 ≠ 0 then some (.t i (ct / 2 ^ (8 + 6 * i) % 2 ^ 6)) else shiftLevel ct n (i + 1)
    else none

/-- The list that a new time moves. -/
def moved (ct : Nat) : Option Place := if ct = 0 then some (.t 3 0) else shiftLevel ct 4 0

def timerShift (T : Timer ε) : Timer ε :=
  let T := { T with time := (T.time + 1) % 2 ^ 32 }
  match moved T.time with
  | some p => moveList T p
  | none => T

/-! ## The timer thread -/

/-- The wheel, whether the update under way has shifted the time, and what was pushed at once.  Recorded are the ticks
so far, the timers that were set, each with its tick, and those that were fired, each with the tick they were fired
in. -/
structure World (ε : Type) where
  timer : Timer ε
  shifted : Bool
  pushed : List ε
  now : Nat
  added : List (Nat × ε)
  fired : List (Nat × ε)

/-- `skynet_timeout` with an event. -/
def timeout (w : World ε) (time : BitVec 32) (ev : ε) : World ε :=
  if time.toInt ≤ 0 then { w with pushed := w.pushed ++ [ev] }
  else { w with
    timer := addNode w.timer ⟨(time.toNat + w.timer.time) % 2 ^ 32, ev, w.now + time.toNat⟩
    added := w.added ++ [(w.now + time.toNat, ev)] }

/-- A turn of `timer_execute`, which lets the lock go to dispatch the list. -/
def execute (w : World ε) : World ε :=
  let p := Place.near (w.timer.time % 2 ^ 8)
  { w with
    timer := { w.timer with lists := Function.update w.timer.lists p [] }
    fired := w.fired ++ (w.timer.lists p).map fun n => (w.now, n.event) }

/-- Whether there is nothing to dispatch. -/
def World.quiet (w : World ε) : Bool := (w.timer.lists (.near (w.timer.time % 2 ^ 8))).isEmpty

/-- What `timer_update` does while it holds the lock: it dispatches what is due, or else shifts the time and dispatches
then, or is done. -/
def update (w : World ε) : World ε :=
  if !w.quiet then execute w
  else if w.shifted then { w with shifted := false }
  else
    let w := { w with timer := timerShift w.timer, now := w.now + 1, shifted := true }
    if !w.quiet then execute w else { w with shifted := false }

/-- A service sets a timer, or the timer thread goes on. -/
inductive Op (ε : Type)
  | timeout (time : BitVec 32) (ev : ε)
  | update

def step (w : World ε) : Op ε → World ε
  | .timeout time ev => timeout w time ev
  | .update => update w

/-- `skynet_timer_init`, at a time of the wheel. -/
def World.init : World ε := ⟨⟨fun _ => [], 0⟩, false, [], 0, [], []⟩

def run (ops : List (Op ε)) : World ε := ops.foldl step World.init

/-! ## Places -/

theorem or_eq_iff (a b k : Nat) : a ||| (2 ^ k - 1) = b ||| (2 ^ k - 1) ↔ a / 2 ^ k = b / 2 ^ k := by
  have h : ∀ a, (a ||| (2 ^ k - 1)) / 2 ^ k = a / 2 ^ k := fun a => by
    rw [Nat.or_div_two_pow, Nat.div_eq_of_lt (Nat.sub_lt (Nat.two_pow_pos k) Nat.one_pos), Nat.or_zero]
  refine ⟨fun he => by rw [← h a, he, h], fun he => Nat.eq_of_testBit_eq fun i => ?_⟩
  rw [Nat.testBit_or, Nat.testBit_or, Nat.testBit_two_pow_sub_one]
  by_cases hi : i < k
  · simp [hi]
  · have := congrArg (·.testBit (i - k)) he
    simp only [Nat.testBit_div_two_pow, Nat.sub_add_cancel (Nat.le_of_not_lt hi)] at this
    rw [this]

/-- The places by the bits in which the times differ. -/
theorem place_eq (e c : Nat) : place e c =
    if e / 2 ^ 8 = c / 2 ^ 8 then .near (e % 2 ^ 8)
    else if e / 2 ^ 14 = c / 2 ^ 14 then .t 0 (e / 2 ^ 8 % 2 ^ 6)
    else if e / 2 ^ 20 = c / 2 ^ 20 then .t 1 (e / 2 ^ 14 % 2 ^ 6)
    else if e / 2 ^ 26 = c / 2 ^ 26 then .t 2 (e / 2 ^ 20 % 2 ^ 6)
    else .t 3 (e / 2 ^ 26 % 2 ^ 6) := by
  unfold place level level level level
  simp only [or_eq_iff]
  split
  · rfl
  · split
    · rfl
    · split
      · rfl
      · split <;> rfl

theorem moved_eq (ct : Nat) : moved ct =
    if ct = 0 then some (.t 3 0)
    else if ct % 2 ^ 8 ≠ 0 then none
    else if ct / 2 ^ 8 % 2 ^ 6 ≠ 0 then some (.t 0 (ct / 2 ^ 8 % 2 ^ 6))
    else if ct % 2 ^ 14 ≠ 0 then none
    else if ct / 2 ^ 14 % 2 ^ 6 ≠ 0 then some (.t 1 (ct / 2 ^ 14 % 2 ^ 6))
    else if ct % 2 ^ 20 ≠ 0 then none
    else if ct / 2 ^ 20 % 2 ^ 6 ≠ 0 then some (.t 2 (ct / 2 ^ 20 % 2 ^ 6))
    else if ct % 2 ^ 26 ≠ 0 then none
    else if ct / 2 ^ 26 % 2 ^ 6 ≠ 0 then some (.t 3 (ct / 2 ^ 26 % 2 ^ 6))
    else none := by
  simp only [moved, shiftLevel, ite_not]

/-- **A tick moves every timer that is to be elsewhere now**, if the timer is to come and not half a turn away. -/
theorem place_succ {e c : Nat} (he : e < 2 ^ 32) (hc : c < 2 ^ 32) (hd : c < e ∨ e + 2 ^ 31 < c) :
    place e ((c + 1) % 2 ^ 32) = place e c ∨ moved ((c + 1) % 2 ^ 32) = some (place e c) := by
  rw [place_eq e c]
  split
  · left
    rw [place_eq, if_pos (by omega)]
  · split
    · by_cases h : (c + 1) / 2 ^ 8 = e / 2 ^ 8
      · right
        rw [moved_eq, if_neg (by omega), if_neg (by omega), if_pos (by omega),
          show (c + 1) % 2 ^ 32 / 2 ^ 8 = e / 2 ^ 8 by omega]
      · left
        rw [place_eq, if_neg (by omega), if_pos (by omega)]
    · split
      · by_cases h : (c + 1) / 2 ^ 14 = e / 2 ^ 14
        · right
          rw [moved_eq, if_neg (by omega), if_neg (by omega), if_neg (by omega), if_neg (by omega), if_pos (by omega),
          show (c + 1) % 2 ^ 32 / 2 ^ 14 = e / 2 ^ 14 by omega]
        · left
          rw [place_eq, if_neg (by omega), if_neg (by omega), if_pos (by omega)]
      · split
        · by_cases h : (c + 1) / 2 ^ 20 = e / 2 ^ 20
          · right
            rw [moved_eq, if_neg (by omega), if_neg (by omega), if_neg (by omega), if_neg (by omega), if_neg (by omega),
              if_neg (by omega), if_pos (by omega),
          show (c + 1) % 2 ^ 32 / 2 ^ 20 = e / 2 ^ 20 by omega]
          · left
            rw [place_eq, if_neg (by omega), if_neg (by omega), if_neg (by omega), if_pos (by omega)]
        · by_cases h : (c + 1) % 2 ^ 32 / 2 ^ 26 = e / 2 ^ 26
          · right
            by_cases h₀ : (c + 1) % 2 ^ 32 = 0
            · rw [moved_eq, if_pos h₀, show e / 2 ^ 26 % 2 ^ 6 = 0 by omega]
            · rw [moved_eq, if_neg h₀, if_neg (by omega), if_neg (by omega), if_neg (by omega), if_neg (by omega),
                if_neg (by omega), if_neg (by omega), if_neg (by omega), if_pos (by omega), h]
          · left
            rw [place_eq, if_neg (by omega), if_neg (by omega), if_neg (by omega), if_neg (by omega)]

theorem place_self (c : Nat) : place c c = .near (c % 2 ^ 8) := by rw [place_eq, if_pos rfl]

theorem eq_of_place_near {e c : Nat} (h : place e c = .near (c % 2 ^ 8)) : e = c := by
  rw [place_eq] at h
  split at h
  · rw [Place.near.injEq] at h; omega
  · repeat' split at h
    all_goals cases h

theorem foldl_addNode : ∀ (l : List (TimerNode ε)) (T : Timer ε), (l.foldl addNode T).time = T.time ∧
    ∀ p, (l.foldl addNode T).lists p = T.lists p ++ l.filter fun n => place n.expire T.time = p
  | [], _ => ⟨rfl, fun _ => (List.append_nil _).symm⟩
  | n :: l, T => by
    obtain ⟨h₁, h₂⟩ := foldl_addNode l (addNode T n)
    refine ⟨h₁, fun p => ?_⟩
    rw [List.foldl_cons, h₂, List.filter_cons]
    by_cases h : place n.expire T.time = p
    · simp [addNode, Timer.link, h]
    · rw [if_neg (by simpa using h)]
      simp only [addNode, Timer.link, Function.update_of_ne (Ne.symm h)]
      rfl

/-! ## The invariant -/

/-- The timers that wait for a tick. -/
def World.waits (w : World ε) (k : Nat) : List (TimerNode ε) :=
  (w.timer.lists (place (k % 2 ^ 32) w.timer.time)).filter (·.due = k)

/-- **Every timer is where it would be put now**, and those of a tick are fired or wait in the order in which they were
set. -/
structure At (w : World ε) : Prop where
  time : w.timer.time = w.now % 2 ^ 32
  node : ∀ p, ∀ n ∈ w.timer.lists p,
    n.expire = n.due % 2 ^ 32 ∧ w.now ≤ n.due ∧ n.due < w.now + 2 ^ 31 ∧ p = place n.expire w.timer.time
  log : ∀ k, w.fired.filter (·.1 = k) ++ (w.waits k).map (fun n => (k, n.event)) = w.added.filter (·.1 = k)
  past : ∀ x ∈ w.fired, x.1 ≤ w.now

variable {w : World ε}

theorem At.timeout (hw : At w) (time : BitVec 32) (ev : ε) : At (timeout w time ev) := by
  unfold TimingWheel.timeout
  split
  · exact ⟨hw.time, hw.node, hw.log, hw.past⟩
  · rename_i ht
    have hlt : 0 < time.toNat ∧ time.toNat < 2 ^ 31 := by
      rw [BitVec.toInt_eq_toNat_cond] at ht; split at ht <;> omega
    have he : (time.toNat + w.timer.time) % 2 ^ 32 = (w.now + time.toNat) % 2 ^ 32 := by rw [hw.time]; omega
    refine ⟨hw.time, fun p n hn => ?_, fun k => ?_, hw.past⟩
    · by_cases hp : p = place ((time.toNat + w.timer.time) % 2 ^ 32) w.timer.time
      · simp only [addNode, Timer.link, hp, Function.update_self, List.mem_append, List.mem_singleton] at hn
        rcases hn with hn | rfl
        · rw [← hp] at hn; exact hw.node p n hn
        · exact ⟨he, by simp only; omega, by simp only; omega, hp⟩
      · simp only [addNode, Timer.link, Function.update_of_ne hp] at hn
        exact hw.node p n hn
    · have := hw.log k
      rw [List.filter_append, ← this, List.append_assoc]
      congr 1
      unfold World.waits
      simp only [addNode, Timer.link, he]
      by_cases hk : k = w.now + time.toNat
      · rw [← hk, Function.update_self, List.filter_append]
        simp
      · by_cases hp : place (k % 2 ^ 32) w.timer.time = place ((w.now + time.toNat) % 2 ^ 32) w.timer.time
        · rw [← hp, Function.update_self, List.filter_append]
          simp [Ne.symm hk]
        · rw [Function.update_of_ne hp]
          simp [Ne.symm hk]

theorem At.due_of_near (hw : At w) {n : TimerNode ε} (hn : n ∈ w.timer.lists (.near (w.timer.time % 2 ^ 8))) :
    n.due = w.now := by
  obtain ⟨h₁, h₂, h₃, h₄⟩ := hw.node _ n hn
  have := eq_of_place_near h₄.symm
  have := hw.time
  omega

theorem At.execute (hw : At w) : At (execute w) := by
  have hd := fun n hn => hw.due_of_near (n := n) hn
  refine ⟨hw.time, fun p n hn => ?_, fun k => ?_, fun x hx => ?_⟩
  · by_cases hp : p = .near (w.timer.time % 2 ^ 8)
    · simp [TimingWheel.execute, hp] at hn
    · simp only [TimingWheel.execute, Function.update_of_ne hp] at hn
      exact hw.node p n hn
  · rw [show (TimingWheel.execute w).added = w.added from rfl, ← hw.log k]
    simp only [TimingWheel.execute, World.waits, List.filter_append, List.append_assoc]
    congr 1
    generalize hL : w.timer.lists (.near (w.timer.time % 2 ^ 8)) = L at hd
    by_cases hk : k = w.now
    · rw [hk, ← hw.time, place_self, Function.update_self, hL,
        List.filter_eq_self.2 fun n hn => decide_eq_true (hd n hn), List.filter_eq_self.2 (by simp)]
      simp
    · rw [List.filter_eq_nil_iff.2 (by simp [Ne.symm hk]), List.nil_append]
      by_cases hp : place (k % 2 ^ 32) w.timer.time = .near (w.timer.time % 2 ^ 8)
      · have hn : L.filter (·.due = k) = [] := List.filter_eq_nil_iff.2 fun n hn => by simp [hd n hn, Ne.symm hk]
        rw [hp, Function.update_self, hL, hn]
        rfl
      · rw [Function.update_of_ne hp]
  · simp only [TimingWheel.execute, List.mem_append, List.mem_map] at hx
    rcases hx with hx | ⟨n, -, rfl⟩
    · exact hw.past x hx
    · exact Nat.le_refl _

theorem timerShift_time (T : Timer ε) : (timerShift T).time = (T.time + 1) % 2 ^ 32 := by
  unfold timerShift
  dsimp only
  cases moved ((T.time + 1) % 2 ^ 32) with
  | none => rfl
  | some p => exact (foldl_addNode _ _).1

theorem timerShift_lists (T : Timer ε) (p : Place) : (timerShift T).lists p =
    (if moved ((T.time + 1) % 2 ^ 32) = some p then [] else T.lists p) ++
      ((moved ((T.time + 1) % 2 ^ 32)).toList.flatMap T.lists).filter
        fun n => place n.expire ((T.time + 1) % 2 ^ 32) = p := by
  unfold timerShift
  dsimp only
  cases moved ((T.time + 1) % 2 ^ 32) with
  | none => simp
  | some q =>
    simp only [moveList, (foldl_addNode _ _).2, Function.update_apply, Option.some.injEq, Option.toList_some,
      List.flatMap_singleton, eq_comm (a := p)]

/-- **A tick leaves every timer that is to come where it would be put then.** -/
theorem At.shift (hw : At w) (hq : w.quiet = true) (b : Bool) :
    At { w with timer := timerShift w.timer, now := w.now + 1, shifted := b } := by
  have htime := hw.time
  have hlater : ∀ p, ∀ n ∈ w.timer.lists p, w.now < n.due := fun p n hn => by
    obtain ⟨h₁, h₂, h₃, h₄⟩ := hw.node p n hn
    refine Nat.lt_of_le_of_ne h₂ fun h => ?_
    rw [h₁, ← h, ← hw.time, place_self] at h₄
    rw [h₄, List.isEmpty_iff.1 hq] at hn
    cases hn
  have hplace : ∀ p, ∀ n ∈ w.timer.lists p,
      place n.expire ((w.timer.time + 1) % 2 ^ 32) = p ∨ moved ((w.timer.time + 1) % 2 ^ 32) = some p :=
    fun p n hn => by
      obtain ⟨h₁, h₂, h₃, h₄⟩ := hw.node p n hn
      have := hlater p n hn
      have h := place_succ (e := n.expire) (c := w.timer.time) (by omega) (by omega) (by omega)
      rwa [← h₄] at h
  have hmoved : ∀ n ∈ (moved ((w.timer.time + 1) % 2 ^ 32)).toList.flatMap w.timer.lists,
      ∃ q, moved ((w.timer.time + 1) % 2 ^ 32) = some q ∧ n ∈ w.timer.lists q := fun n hn => by
    obtain ⟨q, hq, hn⟩ := List.mem_flatMap.1 hn
    exact ⟨q, Option.mem_toList.1 hq, hn⟩
  refine ⟨by rw [timerShift_time]; simp only; omega, fun p n hn => ?_, fun k => ?_, fun x hx => ?_⟩
  · simp only [timerShift_lists, timerShift_time] at hn ⊢
    rcases List.mem_append.1 hn with hn | hn
    · split at hn
      · cases hn
      · rename_i hm
        obtain ⟨h₁, h₂, h₃, h₄⟩ := hw.node p n hn
        have := hlater p n hn
        exact ⟨h₁, by omega, by omega, ((hplace p n hn).resolve_right hm).symm⟩
    · obtain ⟨hn, hp⟩ := List.mem_filter.1 hn
      obtain ⟨q, -, hn⟩ := hmoved n hn
      obtain ⟨h₁, h₂, h₃, h₄⟩ := hw.node q n hn
      have := hlater q n hn
      exact ⟨h₁, by omega, by omega, (of_decide_eq_true hp).symm⟩
  · rw [← hw.log k]
    congr 2
    -- the timers of the tick are all in one list, which is moved as a whole or stays
    simp only [World.waits, timerShift_lists, timerShift_time, List.filter_append]
    have hk : ∀ p, ∀ n ∈ w.timer.lists p, n.due = k → n.expire = k % 2 ^ 32 ∧ p = place (k % 2 ^ 32) w.timer.time :=
      fun p n hn h => by
        obtain ⟨h₁, -, -, h₄⟩ := hw.node p n hn
        rw [← h]
        exact ⟨h₁, by rw [← h₁]; exact h₄⟩
    generalize hc : (w.timer.time + 1) % 2 ^ 32 = c at hplace hmoved
    generalize hs : place (k % 2 ^ 32) w.timer.time = s at hk
    by_cases hm : moved c = some s
    · have hl : (if moved c = some (place (k % 2 ^ 32) c) then [] else
          w.timer.lists (place (k % 2 ^ 32) c)).filter (·.due = k) = [] :=
        List.filter_eq_nil_iff.2 fun n hn h => by
          split at hn
          · cases hn
          · rename_i hne
            exact hne (by rw [(hk _ n hn (of_decide_eq_true h)).2]; exact hm)
      rw [hl, List.nil_append, hm, Option.toList_some, List.flatMap_singleton, List.filter_filter]
      refine List.filter_congr fun n hn => ?_
      by_cases h : n.due = k
      · simp [h, (hk s n hn h).1]
      · simp [h]
    · have hr : (((moved c).toList.flatMap w.timer.lists).filter fun n => place n.expire c = place (k % 2 ^ 32) c).filter
          (·.due = k) = [] :=
        List.filter_eq_nil_iff.2 fun n hn h => by
          obtain ⟨q, hq, hn⟩ := hmoved n (List.mem_filter.1 hn).1
          exact hm (by rw [hq, (hk q n hn (of_decide_eq_true h)).2])
      rw [hr, List.append_nil]
      by_cases hn : ∃ p, ∃ n ∈ w.timer.lists p, n.due = k
      · obtain ⟨p, n, hn, h⟩ := hn
        obtain ⟨he, rfl⟩ := hk p n hn h
        have := (hplace p n hn).resolve_right hm
        rw [he] at this
        rw [this, if_neg hm]
      · have hnil : ∀ p, (w.timer.lists p).filter (·.due = k) = [] := fun p =>
          List.filter_eq_nil_iff.2 fun n hn' h => hn ⟨p, n, hn', of_decide_eq_true h⟩
        rw [hnil]
        split
        · rfl
        · rw [hnil]
  · exact Nat.le_succ_of_le (hw.past x hx)

theorem At.shifted (hw : At w) (b : Bool) : At { w with shifted := b } := ⟨hw.time, hw.node, hw.log, hw.past⟩

theorem At.update (hw : At w) : At (update w) := by
  unfold TimingWheel.update
  cases hq : w.quiet
  · exact hw.execute
  · rw [Bool.not_true, if_neg Bool.false_ne_true]
    split
    · exact hw.shifted false
    · dsimp only
      split
      · exact (hw.shift hq true).execute
      · exact hw.shift hq false

theorem At.run : ∀ (ops : List (Op ε)) {w : World ε}, At w → At (ops.foldl step w)
  | [], _, hw => hw
  | .timeout time ev :: ops, _, hw => (hw.timeout time ev).run ops
  | .update :: ops, _, hw => hw.update.run ops

/-- **The timers of a tick that has passed were fired in it**, all of them, once each and in the order in which they
were set; in the present tick the first of them may have been, and none of a tick to come. -/
def World.Timely (w : World ε) : Prop :=
  ∀ k, ∃ l, w.fired.filter (·.1 = k) ++ l = w.added.filter (·.1 = k) ∧ (k < w.now → l = []) ∧
    (w.now < k → w.fired.filter (·.1 = k) = [])

/-- **Every timer is fired in its tick**, whichever timers are set in between, at any time of the wheel. -/
theorem fires_of_run (ops : List (Op ε)) : (run ops).Timely := by
  have hw : At (run ops) := At.run ops ⟨rfl, by simp [World.init], fun _ => rfl, by simp [World.init]⟩
  refine fun k => ⟨_, hw.log k, fun hk => ?_, fun hk => List.filter_eq_nil_iff.2 fun x hx h => ?_⟩
  · refine List.map_eq_nil_iff.2 (List.filter_eq_nil_iff.2 fun n hn h => ?_)
    obtain ⟨-, h₂, -, -⟩ := hw.node _ n hn
    have := of_decide_eq_true h
    omega
  · have h₁ := hw.past x hx
    have h₂ := of_decide_eq_true h
    omega

end Sncpp.TimingWheel
