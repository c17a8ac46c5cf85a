import Mathlib.Tactic.Linarith
import Sncpp.Steps
/-!
# TokenBucket — tokens that come back with time (`tokenBucket.lua`)

`getTokens` refuses an amount that is smaller than what is there, and grants one that is larger, so that the number of
tokens falls below 0: the comparison is the wrong way round, and the answer is right only for the whole of what is
there.  Each `addTokens` adds the timer of the next one; `start` calls it as well.
-/
namespace Sncpp

/-- `skynettimer.lua`, as far as it goes here: the timers that are to run out, the id of the next, and the number of
callbacks that were forked and have not run. -/
structure TickTimer where
  tbl : List Nat
  nextid : Nat
  forked : Nat

namespace TickTimer

def new : TickTimer := ⟨[], 1, 0⟩

variable (t : TickTimer)

def add : TickTimer × Nat := ({ t with tbl := t.tbl ++ [t.nextid], nextid := t.nextid + 1 }, t.nextid)

def delete (tid : Option Nat) : TickTimer :=
  match tid with
  | some tid => { t with tbl := t.tbl.erase tid }
  | none => t

def pending : Nat := t.tbl.length + t.forked

end TickTimer

structure TokenBucket where
  maxTokenNum : Rat
  avgTokenNum : Rat
  curTokenNum : Rat
  timer : TickTimer
  isStart : Bool
  tid : Option Nat

namespace TokenBucket

def ctor : TokenBucket := ⟨2000, 1000, 0, .new, false, none⟩

variable (b : TokenBucket)

def setMaxTokenNum (maxTokenNum : Rat) : TokenBucket := { b with maxTokenNum := maxTokenNum }

def setAvgTokenNum (avgTokenNum : Rat) : TokenBucket := { b with avgTokenNum := avgTokenNum }

def getTokens (tokenNum : Rat) : TokenBucket × Bool :=
  if tokenNum < b.curTokenNum then (b, false) else ({ b with curTokenNum := b.curTokenNum - tokenNum }, true)

def addTokens (tokenNum : Rat) : TokenBucket :=
  let cur := b.curTokenNum + tokenNum
  let r := b.timer.add
  { b with
    curTokenNum := if b.maxTokenNum < cur then b.maxTokenNum else cur
    timer := r.1
    tid := some r.2 }

def start : TokenBucket := if b.isStart then b else ({ b with isStart := true }).addTokens (b.avgTokenNum / 10)

def stop : TokenBucket := if b.isStart then { b with isStart := false, timer := b.timer.delete b.tid, tid := none } else b

def due (tid : Nat) : TokenBucket :=
  if tid ∈ b.timer.tbl then
    { b with timer := { b.timer with tbl := b.timer.tbl.erase tid, forked := b.timer.forked + 1 } }
  else b

def tick : TokenBucket :=
  if 0 < b.timer.forked then
    ({ b with timer := { b.timer with forked := b.timer.forked - 1 } }).addTokens (b.avgTokenNum / 10)
  else b

inductive Event where
  | getTokens (tokenNum : Rat)
  | start
  | stop
  | due (tid : Nat)
  | tick

def step (b : TokenBucket) : Event → TokenBucket
  | .getTokens tokenNum => (b.getTokens tokenNum).1
  | .start => b.start
  | .stop => b.stop
  | .due tid => b.due tid
  | .tick => b.tick

def grant (b : TokenBucket) : Event → Rat
  | .getTokens tokenNum => if (b.getTokens tokenNum).2 then tokenNum else 0
  | _ => 0

def adds (b : TokenBucket) : Event → Nat
  | .start => if b.isStart then 0 else 1
  | .tick => if 0 < b.timer.forked then 1 else 0
  | _ => 0

def granted : TokenBucket → List Event → Rat
  | _, [] => 0
  | b, e :: es => b.grant e + granted (b.step e) es

def ticks : TokenBucket → List Event → Nat
  | _, [] => 0
  | b, e :: es => b.adds e + ticks (b.step e) es

/-- **What an event should do**: the tokens stay between 0 and the maximum, there is one timer, and tokens are granted if
they are there. -/
structure Right (b : TokenBucket) (e : Event) : Prop where
  nonneg : 0 ≤ (b.step e).curTokenNum
  le_max : (b.step e).curTokenNum ≤ b.maxTokenNum
  pending : (b.step e).timer.pending ≤ 1
  granted : ∀ tokenNum, e = .getTokens tokenNum → ((b.getTokens tokenNum).2 = true ↔ tokenNum ≤ b.curTokenNum)

/-- **When it does.**  All tokens are asked for at once, and a bucket is started only when no timer and no callback of before
is still to come. -/
def Fits (b : TokenBucket) : Event → Prop
  | .getTokens tokenNum => tokenNum = b.curTokenNum
  | .start => b.isStart = true ∨ b.timer.pending = 0
  | _ => True

/-- The tokens are between 0 and the maximum, and one timer or callback is to come at most. -/
structure Good (b : TokenBucket) : Prop where
  max : 0 < b.maxTokenNum
  avg : 0 < b.avgTokenNum
  nonneg : 0 ≤ b.curTokenNum
  le_max : b.curTokenNum ≤ b.maxTokenNum
  pending : b.timer.pending ≤ 1

variable {b}

theorem addTokens_spec (b : TokenBucket) (tokenNum : Rat) :
    (b.addTokens tokenNum).curTokenNum = min b.maxTokenNum (b.curTokenNum + tokenNum) ∧
      (b.addTokens tokenNum).timer.pending = b.timer.pending + 1 := by
  constructor
  · unfold addTokens
    simp only
    by_cases hlt : b.maxTokenNum < b.curTokenNum + tokenNum
    · rw [if_pos hlt, min_eq_left hlt.le]
    · rw [if_neg hlt, min_eq_right (not_lt.1 hlt)]
  · show (b.timer.tbl ++ [b.timer.nextid]).length + b.timer.forked = _
    rw [List.length_append, List.length_singleton, TickTimer.pending]
    omega

theorem Good.addTokens (h : b.Good) (hpending : b.timer.pending = 0) : (b.addTokens (b.avgTokenNum / 10)).Good := by
  obtain ⟨hcur, htimer⟩ := b.addTokens_spec (b.avgTokenNum / 10)
  have hadd : 0 < b.avgTokenNum / 10 := div_pos h.avg (by norm_num)
  refine ⟨h.max, h.avg, ?_, ?_, by rw [htimer, hpending]⟩
  · rw [hcur]
    exact le_min h.max.le (by linarith [h.nonneg])
  · rw [hcur]
    exact min_le_left _ _

theorem pending_delete (t : TickTimer) (tid : Option Nat) : (t.delete tid).pending ≤ t.pending := by
  cases tid with
  | none => exact le_rfl
  | some tid => exact Nat.add_le_add_right (List.length_erase_le ..) _

/-- **Every step but `getTokens` and `start` keeps the bucket.** -/
theorem Good.stop (h : b.Good) : b.stop.Good := by
  unfold TokenBucket.stop
  split
  · exact ⟨h.max, h.avg, h.nonneg, h.le_max, (pending_delete _ _).trans h.pending⟩
  · exact h

theorem Good.due (h : b.Good) (tid : Nat) : (b.due tid).Good := by
  unfold TokenBucket.due
  split
  · next hmem =>
    refine ⟨h.max, h.avg, h.nonneg, h.le_max, ?_⟩
    show (b.timer.tbl.erase tid).length + (b.timer.forked + 1) ≤ 1
    have hpending : b.timer.tbl.length + b.timer.forked ≤ 1 := h.pending
    have hpos := List.length_pos_of_mem hmem
    rw [List.length_erase_of_mem hmem]
    omega
  · exact h

theorem Good.tick (h : b.Good) : b.tick.Good := by
  unfold TokenBucket.tick
  split
  · next hpos =>
    have hpending : b.timer.tbl.length + b.timer.forked ≤ 1 := h.pending
    have hzero : b.timer.tbl.length + (b.timer.forked - 1) = 0 := by omega
    have hgood : Good { b with timer := { b.timer with forked := b.timer.forked - 1 } } :=
      ⟨h.max, h.avg, h.nonneg, h.le_max, hzero.le.trans (Nat.zero_le 1)⟩
    exact hgood.addTokens hzero
  · exact h

theorem Good.right {e : Event} (h : (b.step e).Good) (hmax : (b.step e).maxTokenNum = b.maxTokenNum)
    (he : ∀ tokenNum, e ≠ .getTokens tokenNum) : Right b e :=
  ⟨h.nonneg, hmax ▸ h.le_max, h.pending, fun tokenNum heq => absurd heq (he tokenNum)⟩

theorem Good.right_getTokens (h : b.Good) (tokenNum : Rat) :
    (Right b (.getTokens tokenNum) ↔ Fits b (.getTokens tokenNum)) ∧
      (Fits b (.getTokens tokenNum) → (b.step (.getTokens tokenNum)).Good) := by
  have hgood : tokenNum = b.curTokenNum → (b.step (.getTokens tokenNum)).Good ∧ (b.getTokens tokenNum).2 = true ∧
      (b.step (.getTokens tokenNum)).maxTokenNum = b.maxTokenNum := by
    rintro rfl
    have heq : b.getTokens b.curTokenNum = ({ b with curTokenNum := b.curTokenNum - b.curTokenNum }, true) :=
      if_neg (lt_irrefl _)
    refine ⟨?_, congrArg Prod.snd heq, ?_⟩
    · show (b.getTokens b.curTokenNum).1.Good
      rw [heq]
      exact ⟨h.max, h.avg, (sub_self b.curTokenNum).ge, (sub_self b.curTokenNum).trans_le h.max.le, h.pending⟩
    · show (b.getTokens b.curTokenNum).1.maxTokenNum = _
      rw [heq]
  refine ⟨⟨fun hr => ?_, fun hfits => ?_⟩, fun hfits => (hgood hfits).1⟩
  · have hiff := hr.granted tokenNum rfl
    unfold TokenBucket.getTokens at hiff
    rcases lt_trichotomy tokenNum b.curTokenNum with hlt | heq | hgt
    · rw [if_pos hlt] at hiff
      exact absurd (hiff.2 hlt.le) Bool.false_ne_true
    · exact heq
    · rw [if_neg (not_lt.2 hgt.le)] at hiff
      exact absurd (hiff.1 rfl) (not_le.2 hgt)
  · obtain ⟨hg, htrue, hmax⟩ := hgood hfits
    refine ⟨hg.nonneg, hmax ▸ hg.le_max, hg.pending, fun n hn => ?_⟩
    obtain rfl := Event.getTokens.inj hn
    exact iff_of_true htrue hfits.le

theorem Good.right_start (h : b.Good) :
    (Right b .start ↔ Fits b .start) ∧ (Fits b .start → (b.step .start).Good) := by
  have hstart : Fits b .start → b.start.Good ∧ b.start.maxTokenNum = b.maxTokenNum := by
    intro hfits
    unfold TokenBucket.start
    split
    · exact ⟨h, rfl⟩
    · next hno =>
      have hpending := hfits.resolve_left hno
      have hgood : Good { b with isStart := true } := ⟨h.max, h.avg, h.nonneg, h.le_max, h.pending⟩
      exact ⟨hgood.addTokens hpending, rfl⟩
  refine ⟨⟨fun hr => ?_, fun hfits => Good.right (e := .start) (hstart hfits).1 (hstart hfits).2 (fun n hn => by cases hn)⟩,
    fun hfits => (hstart hfits).1⟩
  by_cases hon : b.isStart = true
  · exact .inl hon
  · have hpending := hr.pending
    have hstep : b.step .start = ({ b with isStart := true } : TokenBucket).addTokens (b.avgTokenNum / 10) := if_neg hon
    rw [hstep, (addTokens_spec _ _).2] at hpending
    exact .inr (Nat.le_zero.1 (Nat.le_of_succ_le_succ hpending))

theorem right_iff (h : b.Good) (e : Event) : (Right b e ↔ Fits b e) ∧ (Fits b e → (b.step e).Good) := by
  cases e with
  | getTokens tokenNum => exact h.right_getTokens tokenNum
  | start => exact h.right_start
  | stop =>
    have hmax : b.stop.maxTokenNum = b.maxTokenNum := by
      unfold TokenBucket.stop
      split <;> rfl
    exact ⟨iff_of_true (Good.right (e := .stop) h.stop hmax (fun n hn => by cases hn)) trivial, fun _ => h.stop⟩
  | due tid =>
    have hmax : (b.due tid).maxTokenNum = b.maxTokenNum := by
      unfold TokenBucket.due
      split <;> rfl
    exact ⟨iff_of_true (Good.right (e := .due tid) (h.due tid) hmax (fun n hn => by cases hn)) trivial, fun _ => h.due tid⟩
  | tick =>
    have hmax : b.tick.maxTokenNum = b.maxTokenNum := by
      unfold TokenBucket.tick
      split <;> rfl
    exact ⟨iff_of_true (Good.right (e := .tick) h.tick hmax (fun n hn => by cases hn)) trivial, fun _ => h.tick⟩

theorem grant_le (b : TokenBucket) (e : Event) :
    b.grant e + (b.step e).curTokenNum ≤ b.curTokenNum + b.adds e * (b.avgTokenNum / 10) ∧
      (b.step e).maxTokenNum = b.maxTokenNum ∧ (b.step e).avgTokenNum = b.avgTokenNum := by
  have hadd : ∀ b' : TokenBucket, b'.maxTokenNum = b.maxTokenNum → b'.curTokenNum = b.curTokenNum →
      0 + (b'.addTokens (b.avgTokenNum / 10)).curTokenNum ≤ b.curTokenNum + (1 : Nat) * (b.avgTokenNum / 10) := by
    intro b' hmax hcur
    rw [(b'.addTokens_spec _).1, zero_add, Nat.cast_one, one_mul, hcur]
    exact min_le_right _ _
  have hkeep : 0 + b.curTokenNum ≤ b.curTokenNum + (0 : Nat) * (b.avgTokenNum / 10) := by simp
  cases e with
  | getTokens tokenNum =>
    simp only [grant, step, adds, getTokens]
    by_cases hlt : tokenNum < b.curTokenNum
    · simp only [if_pos hlt]
      exact ⟨hkeep, trivial, trivial⟩
    · simp only [if_neg hlt]
      exact ⟨by simp, trivial, trivial⟩
  | start =>
    simp only [grant, step, adds, start]
    split
    · exact ⟨hkeep, rfl, rfl⟩
    · exact ⟨hadd _ rfl rfl, rfl, rfl⟩
  | stop =>
    simp only [grant, step, adds, stop]
    split
    · exact ⟨hkeep, rfl, rfl⟩
    · exact ⟨hkeep, rfl, rfl⟩
  | due tid =>
    simp only [grant, step, adds, due]
    split
    · exact ⟨hkeep, rfl, rfl⟩
    · exact ⟨hkeep, rfl, rfl⟩
  | tick =>
    simp only [grant, step, adds, tick]
    split
    · exact ⟨hadd _ rfl rfl, rfl, rfl⟩
    · exact ⟨hkeep, rfl, rfl⟩

/-- **A run grants no more than what was there and what was added**, by induction on its events. -/
theorem granted_le : ∀ (es : List Event) (b : TokenBucket),
    granted b es + (es.foldl step b).curTokenNum ≤ b.curTokenNum + ticks b es * (b.avgTokenNum / 10) ∧
      (es.foldl step b).maxTokenNum = b.maxTokenNum ∧ (es.foldl step b).avgTokenNum = b.avgTokenNum
  | [], b => ⟨by simp [granted, ticks], rfl, rfl⟩
  | e :: es, b => by
    obtain ⟨hstep, hmax, havg'⟩ := grant_le b e
    obtain ⟨hrun, hmax', havg''⟩ := granted_le es (b.step e)
    refine ⟨?_, hmax'.trans hmax, havg''.trans havg'⟩
    rw [granted, ticks, List.foldl_cons, Nat.cast_add, add_mul]
    rw [havg'] at hrun
    linarith

def new (maxTokenNum avgTokenNum : Rat) : TokenBucket := (ctor.setMaxTokenNum maxTokenNum).setAvgTokenNum avgTokenNum

/-- **The bucket does what it should exactly if each event fits**: every event is right, and no part of the run grants more
than the maximum and what is added in it. -/
theorem granted_iff_of_run {maxTokenNum avgTokenNum : Rat} (hmax : 0 < maxTokenNum) (havg : 0 < avgTokenNum)
    (es : List Event) :
    (Steps.Along step Right (new maxTokenNum avgTokenNum) es ∧ ∀ pre mid post, es = pre ++ mid ++ post →
      granted (pre.foldl step (new maxTokenNum avgTokenNum)) mid ≤
        maxTokenNum + ticks (pre.foldl step (new maxTokenNum avgTokenNum)) mid * avgTokenNum / 10) ↔
    Steps.Along step Fits (new maxTokenNum avgTokenNum) es := by
  have hnew : (new maxTokenNum avgTokenNum).Good := ⟨hmax, havg, le_rfl, hmax.le, Nat.zero_le 1⟩
  have hiff := Steps.along_iff (I := Good) (fun _ e h => right_iff h e) es _ hnew
  have hkeep : ∀ (es : List Event) (b : TokenBucket), b.Good → Steps.Along step Fits b es → (es.foldl step b).Good :=
    fun es b h ha => Steps.Along.inv (I := Good) (fun _ e hfits h => (right_iff h e).2 hfits) es b ha h
  refine ⟨fun h => hiff.1 h.1, fun h => ⟨hiff.2 h, ?_⟩⟩
  rintro pre mid post rfl
  have happend := ((Steps.Along.append (pre ++ mid) post _).1 h).1
  have hpre := hkeep pre _ hnew ((Steps.Along.append pre mid _).1 happend).1
  have hmid := hkeep mid _ hpre ((Steps.Along.append pre mid _).1 happend).2
  obtain ⟨-, hmax', havg'⟩ := granted_le pre (new maxTokenNum avgTokenNum)
  obtain ⟨hle, -, -⟩ := granted_le mid (pre.foldl step (new maxTokenNum avgTokenNum))
  have hcur : (pre.foldl step (new maxTokenNum avgTokenNum)).curTokenNum ≤ maxTokenNum := hpre.le_max.trans_eq hmax'
  rw [show (pre.foldl step (new maxTokenNum avgTokenNum)).avgTokenNum = avgTokenNum from havg', ← mul_div_assoc] at hle
  linarith [hmid.nonneg]

def rounds : List Event := [.start, .getTokens 100, .due 1, .tick, .getTokens 100, .stop]

theorem granted_of_rounds : Steps.Along step Fits (new 2000 1000) rounds ∧
    ((Steps.Along step Right (new 2000 1000) rounds ∧ ∀ pre mid post, rounds = pre ++ mid ++ post →
      granted (pre.foldl step (new 2000 1000)) mid ≤ 2000 + ticks (pre.foldl step (new 2000 1000)) mid * 1000 / 10) ↔
    Steps.Along step Fits (new 2000 1000) rounds) := by
  refine ⟨?_, granted_iff_of_run (by norm_num) (by norm_num) rounds⟩
  refine ⟨.inr rfl, ?_, trivial, trivial, ?_, trivial, trivial⟩
  · show (100 : Rat) = _
    decide +kernel
  · show (100 : Rat) = _
    decide +kernel

theorem few_refused : ¬ Steps.Along step Right (new 2000 1000) [.start, .getTokens 5] ∧
    (((new 2000 1000).step .start).getTokens 150).2 = true ∧
    (((new 2000 1000).step .start).getTokens 150).1.curTokenNum = -50 := by
  have hrefused : (((new 2000 1000).step .start).getTokens 5).2 = false := by decide +kernel
  have hthere : 5 ≤ ((new 2000 1000).step .start).curTokenNum := by decide +kernel
  refine ⟨fun h => ?_, by decide +kernel, by decide +kernel⟩
  have hgranted := (h.2.1.granted 5 rfl).2 hthere
  rw [hrefused] at hgranted
  cases hgranted

end TokenBucket
end Sncpp
