import Mathlib.Algebra.BigOperators.Ring.List
import Mathlib.Algebra.Order.BigOperators.Group.List
import Mathlib.Data.Rat.Floor
import Mathlib.Data.List.Nodup
import Mathlib.Data.List.MinMax
import Sncpp.TimeSpan
/-!
# MultiSpan — gatherers that share a resource (`timeSpanUtil.multiBuffTimeSpan`)

The boundaries of all spans are gone through from the last to the first, until one is found before which no more was
gathered than there is.  Those who gather there are cut at the second in which the rest is used up; all others keep
their spans, since they have finished.
-/
namespace Sncpp
namespace TimeSpan

variable {υ κ : Type}

structure UserSpan (κ : Type) where
  timeSpan : List SpanItem
  startTime : Rat
  queue : κ

/-- The loop of `getSpanItem`; `getIntPart` is `svrFunc.getIntPart`. -/
def spanItemLoop (getIntPart : Rat → Rat) (currCollTime : Rat) : List SpanItem → Rat → Nat → Option (SpanItem × Nat)
  | [], _, _ => none
  | item :: timeSpan, totalCollTime, i =>
    let totalCollTime := totalCollTime + item.time
    if getIntPart currCollTime < getIntPart totalCollTime then some (item, i)
    else spanItemLoop getIntPart currCollTime timeSpan totalCollTime (i + 1)

def getSpanItem (getIntPart : Rat → Rat) (timeSpan : List SpanItem) (startTime t : Rat) : Option (SpanItem × Nat) :=
  let currCollTime := t - startTime
  if 0 ≤ currCollTime then spanItemLoop getIntPart currCollTime timeSpan 0 1 else none

/-- The ends of the spans, the first of which starts at `spanTime`. -/
def spanEnds : List SpanItem → Rat → List Rat
  | [], _ => []
  | item :: timeSpan, spanTime => (spanTime + item.time) :: spanEnds timeSpan (spanTime + item.time)

def getSpanTimeList (timeSpan : List SpanItem) (startTime : Rat) : List Rat := startTime :: spanEnds timeSpan startTime

def mergeTurn (multiSpanTimeList : List Rat) (endTime : Rat) : List Rat :=
  if endTime ∈ multiSpanTimeList then multiSpanTimeList else multiSpanTimeList ++ [endTime]

/-- A map is the list of its pairs in the order in which they are gone through. -/
def mergeUserSpanTimeList (userTimeSpanMap : List (υ × UserSpan κ)) : List Rat :=
  ((userTimeSpanMap.flatMap (fun u => getSpanTimeList u.2.timeSpan u.2.startTime)).foldl mergeTurn []).mergeSort
    (fun t1 t2 => decide (t1 ≤ t2))

section Multi

variable [DecidableEq υ] (getIntPart : Rat → Rat)

def allUserCollNum (userTimeSpanMap : List (υ × UserSpan κ)) (t : Rat) : Rat :=
  (userTimeSpanMap.map (fun u => getCollNum u.2.timeSpan u.2.startTime t)).sum

/-- The speed of a user at `t`; one who does not gather then has none. -/
def speedAt (item : UserSpan κ) (t : Rat) : Rat :=
  ((getSpanItem getIntPart item.timeSpan item.startTime t).map (fun spanItem => spanItem.1.speed)).getD 0

def gathers (item : UserSpan κ) (t : Rat) : Bool := (getSpanItem getIntPart item.timeSpan item.startTime t).isSome

def totalSpeed (userTimeSpanMap : List (υ × UserSpan κ)) (t : Rat) : Rat :=
  (userTimeSpanMap.map (fun u => speedAt getIntPart u.2 t)).sum

def setAll (newUserTimeSpanMap : υ → Option (UserSpan κ)) (l : List (υ × UserSpan κ)) : υ → Option (UserSpan κ) :=
  l.foldl (fun m u => Function.update m u.1 (some u.2)) newUserTimeSpanMap

def cutAt (endTime : Rat) (u : υ × UserSpan κ) : υ × UserSpan κ :=
  (u.1, ⟨newEndTimeSpan u.2.timeSpan u.2.startTime endTime, u.2.startTime, u.2.queue⟩)

def atBoundary (userTimeSpanMap : List (υ × UserSpan κ)) (startTime remainNum : Rat) : υ → Option (UserSpan κ) :=
  let remainUserMap := userTimeSpanMap.filter (fun u => gathers getIntPart u.2 startTime)
  let newUserTimeSpanMap := setAll (fun _ => none) (userTimeSpanMap.filter (fun u => !gathers getIntPart u.2 startTime))
  let speed := totalSpeed getIntPart userTimeSpanMap startTime
  if 0 < speed then
    let collTime := ⌈remainNum / (speed / 3600)⌉
    setAll newUserTimeSpanMap (remainUserMap.map (cutAt (startTime + collTime)))
  else newUserTimeSpanMap

def multiBuffTimeSpan (userTimeSpanMap : List (υ × UserSpan κ)) (totalReaminNum : Rat) : υ → Option (UserSpan κ) :=
  match (mergeUserSpanTimeList userTimeSpanMap).reverse.find?
      (fun startTime => decide (allUserCollNum userTimeSpanMap startTime ≤ totalReaminNum)) with
  | none => fun _ => none
  | some startTime =>
    atBoundary getIntPart userTimeSpanMap startTime (totalReaminNum - allUserCollNum userTimeSpanMap startTime)

end Multi

/-- The speed of the span of a user that goes on until `t` or past it. -/
def speedUntil (t : Rat) (item : UserSpan κ) : Rat :=
  ((starts item.startTime item.timeSpan).map
    (fun p => if p.1 < t ∧ t ≤ p.1 + p.2.time then p.2.speed else 0)).sum

def collected (timeSpan : List SpanItem) : Rat := getTotalCollNum timeSpan / 3600

def NoLonger (timeSpan old : List SpanItem) : Prop :=
  List.Forall₂ (fun item' item => item'.speed = item.speed ∧ item'.time ≤ item.time) timeSpan (old.take timeSpan.length)

/-- **Each user has an entry and no longer or faster spans, those who are cut are cut at one moment and nobody gathers after
it, and together they gather all there is, up to a second of those who gather until then.** -/
structure SharedOut (users : List (υ × UserSpan κ)) (R : Rat) (out : υ → Option (UserSpan κ)) : Prop where
  entry : ∀ u ∈ users, ∃ item, out u.1 = some item ∧ item.startTime = u.2.startTime ∧ NoLonger item.timeSpan u.2.timeSpan
  moment : ∃ T, (∀ u ∈ users, ∀ item, out u.1 = some item →
      (getTotalCollTime item.timeSpan < getTotalCollTime u.2.timeSpan →
        item.startTime + getTotalCollTime item.timeSpan = T) ∧
      (getTotalCollTime item.timeSpan = 0 ∨ item.startTime + getTotalCollTime item.timeSpan ≤ T)) ∧
    ∃ A, R ≤ A ∧ A ≤ R + (users.map (fun u => speedUntil T u.2)).sum / 3600 ∧
      (users.map (fun u => ((out u.1).map (fun item => collected item.timeSpan)).getD 0)).sum =
        min (users.map (fun u => collected u.2.timeSpan)).sum A

structure Whole (item : UserSpan κ) : Prop where
  start : ∃ n : Int, item.startTime = n
  span : ∀ i ∈ item.timeSpan, (∃ n : Int, 0 < n ∧ i.time = n) ∧ ∃ n : Int, 0 < n ∧ i.speed = n

/-- **When it is.**  At the start of a user with spans no more has been gathered than there is. -/
def Early (users : List (υ × UserSpan κ)) (R : Rat) : Prop :=
  ∀ u ∈ users, u.2.timeSpan ≠ [] → allUserCollNum users u.2.startTime ≤ R

def IsInt (x : Rat) : Prop := ∃ n : Int, x = n

theorem IsInt.add {x y : Rat} (hx : IsInt x) (hy : IsInt y) : IsInt (x + y) := by
  obtain ⟨n, rfl⟩ := hx
  obtain ⟨m, rfl⟩ := hy
  exact ⟨n + m, by push_cast; rfl⟩

theorem IsInt.sub {x y : Rat} (hx : IsInt x) (hy : IsInt y) : IsInt (x - y) := by
  obtain ⟨n, rfl⟩ := hx
  obtain ⟨m, rfl⟩ := hy
  exact ⟨n - m, by push_cast; rfl⟩

def WholeSpans (timeSpan : List SpanItem) : Prop :=
  ∀ i ∈ timeSpan, (∃ n : Int, 0 < n ∧ i.time = n) ∧ ∃ n : Int, 0 < n ∧ i.speed = n

theorem WholeSpans.cons (h : WholeSpans (item :: timeSpan)) :
    IsInt item.time ∧ 1 ≤ item.time ∧ 0 < item.speed ∧ WholeSpans timeSpan := by
  obtain ⟨⟨n, hn, htime⟩, m, hm, hspeed⟩ := h item List.mem_cons_self
  refine ⟨⟨n, htime⟩, ?_, ?_, fun i hi => h i (List.mem_cons_of_mem item hi)⟩
  · rw [htime]
    exact_mod_cast hn
  · rw [hspeed]
    exact_mod_cast hm

theorem WholeSpans.nonneg (h : WholeSpans timeSpan) : Nonneg timeSpan := by
  intro i hi
  obtain ⟨⟨n, hn, htime⟩, m, hm, hspeed⟩ := h i hi
  rw [htime, hspeed]
  exact ⟨by exact_mod_cast hn.le, by exact_mod_cast hm.le⟩

/-- The speed of the span that goes on until `t` or past it, if the first starts at `a`. -/
def untilFrom (t a : Rat) (timeSpan : List SpanItem) : Rat :=
  ((starts a timeSpan).map (fun p => if p.1 < t ∧ t ≤ p.1 + p.2.time then p.2.speed else 0)).sum

theorem untilFrom_cons (t a : Rat) (item : SpanItem) (timeSpan : List SpanItem) :
    untilFrom t a (item :: timeSpan) =
      (if a < t ∧ t ≤ a + item.time then item.speed else 0) + untilFrom t (a + item.time) timeSpan := by
  simp [untilFrom, starts]

theorem untilFrom_nonneg (t : Rat) : ∀ (timeSpan : List SpanItem) (a : Rat), Nonneg timeSpan → 0 ≤ untilFrom t a timeSpan
  | [], _, _ => le_rfl
  | item :: timeSpan, a, h => by
    rw [untilFrom_cons]
    refine add_nonneg ?_ (untilFrom_nonneg t timeSpan _ h.cons.2.2)
    split
    · exact h.cons.2.1
    · exact le_rfl

theorem getTotalCollNum_cons (item : SpanItem) (timeSpan : List SpanItem) :
    getTotalCollNum (item :: timeSpan) = item.time * item.speed + getTotalCollNum timeSpan := by
  have hfold : ∀ (l : List SpanItem) (total : Rat), l.foldl (fun total item => total + item.time * item.speed) total =
      total + getTotalCollNum l := by
    intro l
    unfold getTotalCollNum
    induction l with
    | nil => simp
    | cons i l ih =>
      intro total
      rw [List.foldl_cons, List.foldl_cons, ih, ih (0 + _)]
      ring
  rw [getTotalCollNum, List.foldl_cons, hfold, zero_add]

theorem gathered_full : ∀ (timeSpan : List SpanItem) (a : Rat), Nonneg timeSpan → s ≤ a →
    a + getTotalCollTime timeSpan ≤ t → gathered s t a timeSpan = collected timeSpan
  | [], _, _, _, _ => by simp [gathered_nil, collected, getTotalCollNum]
  | item :: timeSpan, a, h, hs, ht => by
    obtain ⟨htime, -, hrest⟩ := h.cons
    rw [getTotalCollTime_cons] at ht
    have hle : a ≤ a + item.time := le_add_of_nonneg_right htime
    have hfull : a + item.time ≤ t := by linarith [getTotalCollTime_nonneg timeSpan hrest]
    rw [gathered_cons, overlap_of_le hs hle hfull, gathered_full timeSpan _ hrest (hs.trans hle) (by linarith), collected,
      collected, getTotalCollNum_cons]
    ring

def foundSpeed (r : Option (SpanItem × Nat)) : Rat := (r.map (fun spanItem => spanItem.1.speed)).getD 0

/-- **The span that is found at `b`**, if the first starts no later: there is one if the spans have not all gone by, and
up to the next end of a span the gathering goes on at its speed. -/
theorem spanItemLoop_spec {getIntPart : Rat → Rat} (hint : ∀ n : Int, getIntPart n = n) {b : Rat} (hb : IsInt (b - s)) :
    ∀ (timeSpan : List SpanItem) (total : Rat) (i : Nat), WholeSpans timeSpan → IsInt total → 0 ≤ total → s + total ≤ b →
    ((spanItemLoop getIntPart (b - s) timeSpan total i).isSome = true ↔ b < s + total + getTotalCollTime timeSpan) ∧
    ((spanItemLoop getIntPart (b - s) timeSpan total i).isSome = true →
      0 < foundSpeed (spanItemLoop getIntPart (b - s) timeSpan total i)) ∧
    ∀ T, b ≤ T → (∀ c ∈ spanEnds timeSpan (s + total), b < c → T ≤ c) →
      gathered s T (s + total) timeSpan = gathered s b (s + total) timeSpan +
        foundSpeed (spanItemLoop getIntPart (b - s) timeSpan total i) * (T - b) / 3600 ∧
      (b < T → foundSpeed (spanItemLoop getIntPart (b - s) timeSpan total i) ≤ untilFrom T (s + total) timeSpan)
  | [], total, i, _, _, _, hle => by
    refine ⟨?_, fun h => (by cases h), fun T _ _ => ⟨by simp [gathered_nil, foundSpeed, spanItemLoop], fun _ => le_rfl⟩⟩
    simp [spanItemLoop, getTotalCollTime, hle]
  | item :: timeSpan, total, i, h, htotal, hpos, hle => by
    obtain ⟨hint', hone, hspeed, hrest⟩ := h.cons
    have htime : 0 ≤ item.time := by linarith
    have hs : s ≤ s + total := le_add_of_nonneg_right hpos
    have hend : s + total ≤ s + total + item.time := le_add_of_nonneg_right htime
    have htimes := getTotalCollTime_nonneg timeSpan hrest.nonneg
    have hcmp : getIntPart (b - s) < getIntPart (total + item.time) ↔ b < s + total + item.time := by
      obtain ⟨n, hn⟩ := hb
      obtain ⟨m, hm⟩ := htotal.add hint'
      rw [hn, hm, hint, hint, ← hn, ← hm]
      constructor
      · intro hlt
        linarith
      · intro hlt
        linarith
    rw [spanItemLoop, getTotalCollTime_cons]
    by_cases hin : b < s + total + item.time
    · simp only [if_pos (hcmp.2 hin)]
      refine ⟨⟨fun _ => by linarith, fun _ => rfl⟩, fun _ => hspeed, fun T hT hends => ?_⟩
      have hTend : T ≤ s + total + item.time := hends _ List.mem_cons_self hin
      rw [gathered_cons, gathered_cons, untilFrom_cons, overlap_of_ge hs hTend, overlap_of_ge hs hin.le,
        gathered_zero timeSpan _ hrest.nonneg (hs.trans hend) hTend,
        gathered_zero timeSpan _ hrest.nonneg (hs.trans hend) hin.le, max_eq_right (by linarith),
          max_eq_right (by linarith)]
      refine ⟨?_, fun hlt => ?_⟩
      · simp only [foundSpeed, Option.map_some, Option.getD_some]
        ring
      · rw [if_pos ⟨by linarith, hTend⟩]
        exact le_add_of_nonneg_right (untilFrom_nonneg T timeSpan _ hrest.nonneg)
    · have hout : s + total + item.time ≤ b := not_lt.1 hin
      simp only [if_neg (fun hlt => hin (hcmp.1 hlt))]
      obtain ⟨hsome, hfound, hT⟩ := spanItemLoop_spec hint hb timeSpan (total + item.time) (i + 1) hrest (htotal.add hint')
        (add_nonneg hpos htime) (by linarith)
      rw [← add_assoc] at hsome hT
      refine ⟨hsome.trans (by rw [← add_assoc]), hfound, fun T hbT hends => ?_⟩
      obtain ⟨heq, hle'⟩ := hT T hbT (fun c hc => hends c (List.mem_cons_of_mem _ hc))
      rw [gathered_cons, gathered_cons, untilFrom_cons, overlap_of_le hs hend (hout.trans hbT),
        overlap_of_le hs hend hout, heq]
      refine ⟨by ring, fun hlt => (hle' hlt).trans (le_add_of_nonneg_left ?_)⟩
      split
      · exact hspeed.le
      · exact le_rfl

theorem gathered_last {T : Rat} : ∀ (timeSpan : List SpanItem) (a : Rat), WholeSpans timeSpan → s ≤ a →
    a + getTotalCollTime timeSpan ≤ T →
    gathered s (T - 1) a timeSpan + untilFrom T a timeSpan / 3600 ≤ gathered s T a timeSpan
  | [], _, _, _, _ => by simp [gathered_nil, untilFrom, starts]
  | item :: timeSpan, a, h, hs, hT => by
    obtain ⟨-, hone, hspeed, hrest⟩ := h.cons
    have htimes := getTotalCollTime_nonneg timeSpan hrest.nonneg
    rw [getTotalCollTime_cons] at hT
    have hle : a ≤ a + item.time := by linarith
    have hend : a + item.time ≤ T := by linarith
    have hrec : gathered s (T - 1) (a + item.time) timeSpan + untilFrom T (a + item.time) timeSpan / 3600 ≤
        gathered s T (a + item.time) timeSpan := gathered_last timeSpan _ hrest (hs.trans hle) (by linarith)
    have hmono : overlap a (a + item.time) s (T - 1) ≤ overlap a (a + item.time) s T := overlap_mono (by linarith)
    rw [gathered_cons, gathered_cons, untilFrom_cons]
    split
    · next hin =>
      -- the span ends at `T`, and its last second is that before `T`
      have heq : a + item.time = T := le_antisymm hend hin.2
      have hlast : overlap a (a + item.time) s (T - 1) = overlap a (a + item.time) s T - 1 := by
        rw [overlap_of_le hs hle hend, overlap_of_ge hs (by linarith), max_eq_right (by linarith)]
        linarith
      rw [hlast, mul_sub, sub_div, add_div]
      linarith
    · have hterm := div_le_div_of_nonneg_right (mul_le_mul_of_nonneg_left hmono hspeed.le) (by norm_num : (0 : Rat) ≤ 3600)
      rw [zero_add]
      linarith

section User

variable {item : UserSpan κ} {getIntPart : Rat → Rat} {b : Rat}

theorem Whole.spans (h : Whole item) : WholeSpans item.timeSpan := h.span

theorem Whole.nonneg (h : Whole item) : Nonneg item.timeSpan := h.spans.nonneg

theorem Whole.collNum (h : Whole item) (t : Rat) :
    getCollNum item.timeSpan item.startTime t = gathered item.startTime t item.startTime item.timeSpan :=
  getCollNum_eq h.nonneg _ _

theorem speedUntil_nonneg (h : Whole item) (t : Rat) : 0 ≤ speedUntil t item := untilFrom_nonneg t item.timeSpan _ h.nonneg

/-- **A user at `b`**: whether he gathers then, and how much more by `T` if no boundary of his comes before that. -/
theorem Whole.at (h : Whole item) (hint : ∀ n : Int, getIntPart n = n) (hb : IsInt b) :
    (gathers getIntPart item b = true ↔ item.startTime ≤ b ∧ b < item.startTime + getTotalCollTime item.timeSpan) ∧
    (0 < speedAt getIntPart item b ↔ gathers getIntPart item b = true) ∧ 0 ≤ speedAt getIntPart item b ∧
    ∀ T, b ≤ T → (∀ c ∈ getSpanTimeList item.timeSpan item.startTime, b < c → T ≤ c) →
      getCollNum item.timeSpan item.startTime T =
        getCollNum item.timeSpan item.startTime b + speedAt getIntPart item b * (T - b) / 3600 ∧
      (b < T → speedAt getIntPart item b ≤ speedUntil T item) := by
  by_cases hstart : item.startTime ≤ b
  · obtain ⟨hsome, hpos, hT⟩ := spanItemLoop_spec hint (hb.sub h.start) item.timeSpan 0 1 h.spans ⟨0, rfl⟩ le_rfl
      (by rw [add_zero]; exact hstart)
    rw [add_zero] at hsome hT
    have hitem : getSpanItem getIntPart item.timeSpan item.startTime b =
        spanItemLoop getIntPart (b - item.startTime) item.timeSpan 0 1 := if_pos (sub_nonneg.2 hstart)
    have hspeed : speedAt getIntPart item b =
        foundSpeed (spanItemLoop getIntPart (b - item.startTime) item.timeSpan 0 1) := by
      rw [speedAt, hitem]
      rfl
    rw [gathers, hitem, hspeed]
    have hzero : (spanItemLoop getIntPart (b - item.startTime) item.timeSpan 0 1).isSome = false →
        foundSpeed (spanItemLoop getIntPart (b - item.startTime) item.timeSpan 0 1) = 0 := fun hno => by
      have hnone : spanItemLoop getIntPart (b - item.startTime) item.timeSpan 0 1 = none := by simpa using hno
      rw [hnone]
      rfl
    refine ⟨hsome.trans (and_iff_right hstart).symm, ⟨fun hlt => ?_, hpos⟩, ?_, fun T hbT hends => ?_⟩
    · by_contra hno
      rw [hzero (Bool.eq_false_iff.2 hno)] at hlt
      exact lt_irrefl _ hlt
    · cases hc : (spanItemLoop getIntPart (b - item.startTime) item.timeSpan 0 1).isSome with
      | true => exact (hpos hc).le
      | false => exact (hzero hc).ge
    · rw [h.collNum, h.collNum]
      exact hT T hbT (fun c hc => hends c (List.mem_cons_of_mem _ hc))
  · have hlt : b < item.startTime := not_le.1 hstart
    have hitem : getSpanItem getIntPart item.timeSpan item.startTime b = none := if_neg (by simpa using hlt)
    have hspeed : speedAt getIntPart item b = 0 := by
      rw [speedAt, hitem]
      rfl
    rw [gathers, hitem, hspeed]
    refine ⟨iff_of_false Bool.false_ne_true (fun hno => hstart hno.1), iff_of_false (lt_irrefl _) Bool.false_ne_true,
      le_rfl,
      fun T _ hends => ⟨?_, fun _ => speedUntil_nonneg h T⟩⟩
    have hT := hends _ List.mem_cons_self hlt
    rw [h.collNum, h.collNum, gathered_zero _ _ h.nonneg le_rfl hT, gathered_zero _ _ h.nonneg le_rfl hlt.le]
    ring

theorem spanEnds_spec : ∀ (timeSpan : List SpanItem) (a : Rat), WholeSpans timeSpan → IsInt a →
    (∀ c ∈ spanEnds timeSpan a, IsInt c) ∧ (timeSpan ≠ [] → a + getTotalCollTime timeSpan ∈ spanEnds timeSpan a)
  | [], _, _, _ => ⟨fun c hc => absurd hc List.not_mem_nil, fun h => absurd rfl h⟩
  | item :: timeSpan, a, h, ha => by
    obtain ⟨hitem, -, -, hrest⟩ := h.cons
    obtain ⟨hints, hend⟩ := spanEnds_spec timeSpan (a + item.time) hrest (ha.add hitem)
    refine ⟨fun c hc => ?_, fun _ => ?_⟩
    · rcases List.mem_cons.1 hc with rfl | hc
      · exact ha.add hitem
      · exact hints c hc
    · rw [getTotalCollTime_cons, spanEnds, ← add_assoc]
      by_cases hnil : timeSpan = []
      · subst hnil
        simp [getTotalCollTime]
      · exact List.mem_cons_of_mem _ (hend hnil)

theorem Whole.boundary (h : Whole item) : ∀ c ∈ getSpanTimeList item.timeSpan item.startTime, IsInt c := by
  intro c hc
  rcases List.mem_cons.1 hc with rfl | hc
  · exact h.start
  · exact (spanEnds_spec _ _ h.spans h.start).1 c hc

theorem Whole.one_le (h : Whole item) (hne : item.timeSpan ≠ []) : 1 ≤ getTotalCollTime item.timeSpan := by
  obtain ⟨i, timeSpan, heq⟩ := List.exists_cons_of_ne_nil hne
  have hs := h.spans
  rw [heq] at hs ⊢
  rw [getTotalCollTime_cons]
  linarith [hs.cons.2.1, getTotalCollTime_nonneg timeSpan hs.cons.2.2.2.nonneg]

theorem Whole.collNum_full (h : Whole item) {t : Rat} (ht : item.startTime + getTotalCollTime item.timeSpan ≤ t) :
    getCollNum item.timeSpan item.startTime t = collected item.timeSpan := by
  rw [h.collNum, gathered_full _ _ h.nonneg le_rfl ht]

theorem Whole.collNum_le (h : Whole item) (t : Rat) :
    getCollNum item.timeSpan item.startTime t ≤ collected item.timeSpan := by
  rw [← h.collNum_full (t := max t (item.startTime + getTotalCollTime item.timeSpan)) (le_max_right _ _),
    h.collNum, h.collNum]
  exact gathered_mono (le_max_left _ _) _ _ h.nonneg

theorem Whole.cut (h : Whole item) {e : Rat} (he : item.startTime ≤ e) :
    Nonneg (newEndTimeSpan item.timeSpan item.startTime e) ∧
    getTotalCollTime (newEndTimeSpan item.timeSpan item.startTime e) =
      min (getTotalCollTime item.timeSpan) (e - item.startTime) ∧
    collected (newEndTimeSpan item.timeSpan item.startTime e) = getCollNum item.timeSpan item.startTime e := by
  have hspec := fun t => newEndLoop_spec item.startTime t (e - item.startTime) item.timeSpan 0 h.nonneg le_rfl
    (sub_nonneg.2 he)
  obtain ⟨hnonneg, htime, -⟩ := hspec 0
  rw [sub_zero] at htime
  refine ⟨hnonneg, htime, ?_⟩
  -- when all has gone by
  have hfull := gathered_full (s := item.startTime) (t := e) _ item.startTime hnonneg le_rfl (by
    rw [htime]
    linarith [min_le_right (getTotalCollTime item.timeSpan) (e - item.startTime)])
  obtain ⟨-, -, hgathered⟩ := hspec e
  rw [add_zero, add_sub_cancel, min_self] at hgathered
  rw [h.collNum, ← hgathered, newEndTimeSpan, hfull]

end User

section All

variable [DecidableEq υ] {users : List (υ × UserSpan κ)} {R b : Rat} {getIntPart : Rat → Rat}

omit [DecidableEq υ] in
theorem allUserCollNum_mono (h : ∀ u ∈ users, Whole u.2) {t t' : Rat} (htt' : t ≤ t') :
    allUserCollNum users t ≤ allUserCollNum users t' :=
  List.sum_le_sum (fun u hu => by
    rw [(h u hu).collNum, (h u hu).collNum]
    exact gathered_mono htt' _ _ (h u hu).nonneg)

omit [DecidableEq υ] in
theorem mem_mergeUserSpanTimeList {c : Rat} :
    c ∈ mergeUserSpanTimeList users ↔ ∃ u ∈ users, c ∈ getSpanTimeList u.2.timeSpan u.2.startTime := by
  have hfold : ∀ (l acc : List Rat), c ∈ l.foldl mergeTurn acc ↔ c ∈ acc ∨ c ∈ l := by
    intro l
    induction l with
    | nil => simp
    | cons x l ih =>
      intro acc
      rw [List.foldl_cons, ih, mergeTurn]
      by_cases hx : x ∈ acc
      · rw [if_pos hx, List.mem_cons]
        constructor
        · exact fun hc => hc.imp_right .inr
        · rintro (hc | rfl | hc)
          · exact .inl hc
          · exact .inl hx
          · exact .inr hc
      · rw [if_neg hx]
        simp [or_assoc]
  rw [mergeUserSpanTimeList, List.mem_mergeSort, hfold]
  simp

omit [DecidableEq υ] in
theorem sorted_mergeUserSpanTimeList (users : List (υ × UserSpan κ)) :
    (mergeUserSpanTimeList users).Pairwise (fun t1 t2 => t1 ≤ t2) := by
  have hsort : (mergeUserSpanTimeList users).Pairwise (fun t1 t2 => decide (t1 ≤ t2) = true) :=
    List.pairwise_mergeSort (fun a b c hab hbc => decide_eq_true ((of_decide_eq_true hab).trans (of_decide_eq_true hbc)))
      (fun a b => by simpa using le_total a b) _
  exact hsort.imp of_decide_eq_true

/-- The boundary that is found: no more is gathered until then than there is, and more until any later one. -/
structure Found (users : List (υ × UserSpan κ)) (R b : Rat) : Prop where
  int : IsInt b
  le : allUserCollNum users b ≤ R
  later : ∀ u ∈ users, ∀ c ∈ getSpanTimeList u.2.timeSpan u.2.startTime, b < c → R < allUserCollNum users c

theorem exists_found (getIntPart : Rat → Rat) (h : ∀ u ∈ users, Whole u.2) (hne : users ≠ []) (hR : 0 ≤ R) :
    ∃ b, Found users R b ∧
      multiBuffTimeSpan getIntPart users R = atBoundary getIntPart users b (R - allUserCollNum users b) := by
  have hstart : ∀ u ∈ users, u.2.startTime ∈ mergeUserSpanTimeList users :=
    fun u hu => mem_mergeUserSpanTimeList.2 ⟨u, hu, List.mem_cons_self⟩
  have hsort := sorted_mergeUserSpanTimeList users
  -- before the first boundary nobody gathers
  have hsome : ((mergeUserSpanTimeList users).reverse.find? (fun c => decide (allUserCollNum users c ≤ R))).isSome := by
    cases hl : mergeUserSpanTimeList users with
    | nil =>
      obtain ⟨u, hu⟩ := List.exists_mem_of_ne_nil users hne
      rw [hl] at hstart
      exact absurd (hstart u hu) List.not_mem_nil
    | cons c l =>
      have hzero : allUserCollNum users c ≤ 0 := by
        refine (List.sum_le_card_nsmul _ 0 (fun x hx => ?_)).trans (by simp)
        obtain ⟨u, hu, rfl⟩ := List.mem_map.1 hx
        have hc : c ≤ u.2.startTime := by
          have hmem := hstart u hu
          rw [hl] at hmem hsort
          rcases List.mem_cons.1 hmem with heq | hmem
          · exact heq.ge
          · exact List.rel_of_pairwise_cons hsort hmem
        rw [(h u hu).collNum, gathered_zero _ _ (h u hu).nonneg le_rfl hc]
      simpa using .inr (hzero.trans hR)
  obtain ⟨b, hb⟩ := Option.isSome_iff_exists.1 hsome
  obtain ⟨hle, later, earlier, hsplit, hlater⟩ := List.find?_eq_some_iff_append.1 hb
  have hrev : mergeUserSpanTimeList users = earlier.reverse ++ b :: later.reverse := by
    rw [← List.reverse_reverse (mergeUserSpanTimeList users), hsplit]
    simp
  refine ⟨b, ⟨?_, of_decide_eq_true hle, fun u hu c hc hlt => ?_⟩, by rw [multiBuffTimeSpan, hb]⟩
  · obtain ⟨u, hu, hmem⟩ := mem_mergeUserSpanTimeList.1 (show b ∈ mergeUserSpanTimeList users by rw [hrev]; simp)
    exact (h u hu).boundary b hmem
  · have hmem : c ∈ mergeUserSpanTimeList users := mem_mergeUserSpanTimeList.2 ⟨u, hu, hc⟩
    rw [hrev] at hmem hsort
    rcases List.mem_append.1 hmem with hmem | hmem
    · exact absurd ((List.pairwise_append.1 hsort).2.2 c hmem b List.mem_cons_self) (not_le.2 hlt)
    · rcases List.mem_cons.1 hmem with rfl | hmem
      · exact absurd hlt (lt_irrefl c)
      · simpa using hlater c (List.mem_reverse.1 hmem)

theorem setAll_notMem {k : υ} : ∀ (l : List (υ × UserSpan κ)) (m : υ → Option (UserSpan κ)), k ∉ l.map Prod.fst →
    setAll m l k = m k
  | [], _, _ => rfl
  | u :: l, m, hk => by
    rw [List.map_cons, List.mem_cons, not_or] at hk
    rw [setAll, List.foldl_cons]
    exact (setAll_notMem l _ hk.2).trans (Function.update_of_ne hk.1 _ _)

theorem setAll_mem {u : υ × UserSpan κ} : ∀ (l : List (υ × UserSpan κ)) (m : υ → Option (UserSpan κ)),
    (l.map Prod.fst).Nodup → u ∈ l → setAll m l u.1 = some u.2
  | u' :: l, m, hl, hu => by
    obtain ⟨hnot, hl⟩ := List.nodup_cons.1 hl
    rw [setAll, List.foldl_cons]
    rcases List.mem_cons.1 hu with rfl | hu
    · exact (setAll_notMem l _ hnot).trans (Function.update_self _ _ _)
    · exact setAll_mem l _ hl hu

/-- **What each user gets**: those who gather at the boundary are cut, the others keep their spans. -/
theorem atBoundary_eq (hnodup : (users.map Prod.fst).Nodup) (hv : (∃ u ∈ users, gathers getIntPart u.2 b = true) →
    0 < totalSpeed getIntPart users b) {remainNum : Rat} {u : υ × UserSpan κ} (hu : u ∈ users) :
    atBoundary getIntPart users b remainNum u.1 = some (if gathers getIntPart u.2 b = true then
      (cutAt (b + ⌈remainNum / (totalSpeed getIntPart users b / 3600)⌉) u).2 else u.2) := by
  have hkeys : ∀ p : υ × UserSpan κ → Bool, ((users.filter p).map Prod.fst).Nodup :=
    fun p => hnodup.sublist (List.filter_sublist.map _)
  rw [atBoundary]
  by_cases hg : gathers getIntPart u.2 b = true
  · rw [if_pos (hv ⟨u, hu, hg⟩), if_pos hg]
    refine setAll_mem (u := cutAt _ u) _ _ ?_ (List.mem_map_of_mem (List.mem_filter.2 ⟨hu, hg⟩))
    rw [List.map_map]
    exact hkeys _
  · have hmem : u ∈ users.filter (fun u => !gathers getIntPart u.2 b) := List.mem_filter.2 ⟨hu, by simpa using hg⟩
    rw [if_neg hg]
    split
    · rw [setAll_notMem]
      · exact setAll_mem _ _ (hkeys _) hmem
      · -- an entry that was cut is that of another user
        simp only [List.map_map, List.mem_map, List.mem_filter, not_exists, not_and]
        intro w hw hkey
        have heq : w = u := List.inj_on_of_nodup_map hnodup hw.1 hu hkey
        exact hg (heq ▸ hw.2)
    · exact setAll_mem _ _ (hkeys _) hmem

omit [DecidableEq υ] in
theorem totalSpeed_pos (h : ∀ u ∈ users, Whole u.2) (hint : ∀ n : Int, getIntPart n = n) (hb : IsInt b) :
    0 < totalSpeed getIntPart users b ↔ ∃ u ∈ users, gathers getIntPart u.2 b = true := by
  have hnonneg : ∀ x ∈ users.map (fun u => speedAt getIntPart u.2 b), 0 ≤ x := by
    intro x hx
    obtain ⟨u, hu, rfl⟩ := List.mem_map.1 hx
    exact ((h u hu).at hint hb).2.2.1
  constructor
  · intro hpos
    by_contra hno
    refine hpos.not_ge ((List.sum_le_card_nsmul _ 0 (fun x hx => ?_)).trans (by simp))
    obtain ⟨u, hu, rfl⟩ := List.mem_map.1 hx
    exact not_lt.1 (fun hlt => hno ⟨u, hu, ((h u hu).at hint hb).2.1.1 hlt⟩)
  · rintro ⟨u, hu, hg⟩
    exact (((h u hu).at hint hb).2.1.2 hg).trans_le (List.single_le_sum hnonneg _ (List.mem_map_of_mem hu))

omit [DecidableEq υ] in
theorem totalSpeed_nonneg (h : ∀ u ∈ users, Whole u.2) (hint : ∀ n : Int, getIntPart n = n) (hb : IsInt b) :
    0 ≤ totalSpeed getIntPart users b := by
  refine List.sum_nonneg (fun x hx => ?_)
  obtain ⟨u, hu, rfl⟩ := List.mem_map.1 hx
  exact ((h u hu).at hint hb).2.2.1

omit [DecidableEq υ] in
theorem sum_speedUntil_nonneg (h : ∀ u ∈ users, Whole u.2) (t : Rat) :
    0 ≤ (users.map (fun u => speedUntil t u.2)).sum := by
  refine List.sum_nonneg (fun x hx => ?_)
  obtain ⟨u, hu, rfl⟩ := List.mem_map.1 hx
  exact speedUntil_nonneg (h u hu) t

omit [DecidableEq υ] in
/-- **Up to the next boundary** all users gather at the speed they have at `b`. -/
theorem allUserCollNum_until (h : ∀ u ∈ users, Whole u.2) (hint : ∀ n : Int, getIntPart n = n) (hb : IsInt b) {T : Rat}
    (hT : b ≤ T) (hends : ∀ u ∈ users, ∀ c ∈ getSpanTimeList u.2.timeSpan u.2.startTime, b < c → T ≤ c) :
    allUserCollNum users T = allUserCollNum users b + totalSpeed getIntPart users b * (T - b) / 3600 ∧
    (b < T → totalSpeed getIntPart users b ≤ (users.map (fun u => speedUntil T u.2)).sum) := by
  have huser := fun u hu => ((h u hu).at hint hb).2.2.2 T hT (hends u hu)
  refine ⟨?_, fun hlt => List.sum_le_sum (fun u hu => (huser u hu).2 hlt)⟩
  rw [allUserCollNum, List.map_congr_left (fun u hu => (huser u hu).1), List.sum_map_add]
  simp only [mul_div_assoc]
  rw [List.sum_map_mul_right]
  rfl

theorem exists_least {l : List Rat} {c : Rat} (hc : c ∈ l) (hlt : b < c) : ∃ m ∈ l, b < m ∧ ∀ c ∈ l, b < c → m ≤ c := by
  have hmem : ∀ c, c ∈ l.filter (fun c => decide (b < c)) ↔ c ∈ l ∧ b < c := by simp
  obtain ⟨m, hm⟩ := Option.ne_none_iff_exists'.1 (fun hnone =>
    List.ne_nil_of_mem ((hmem c).2 ⟨hc, hlt⟩) ((List.argmin_eq_none (f := id)).1 hnone))
  obtain ⟨hl, hbm⟩ := (hmem m).1 (List.argmin_mem hm)
  exact ⟨m, hl, hbm, fun c hc hlt => List.le_of_mem_argmin ((hmem c).2 ⟨hc, hlt⟩) hm⟩

/-- The moment at which those who gather at the boundary `b` are cut. -/
def moment (getIntPart : Rat → Rat) (users : List (υ × UserSpan κ)) (R b : Rat) : Rat :=
  b + ⌈(R - allUserCollNum users b) / (totalSpeed getIntPart users b / 3600)⌉

omit [DecidableEq υ] in
theorem Found.le_moment (hb : Found users R b) (h : ∀ u ∈ users, Whole u.2) (hint : ∀ n : Int, getIntPart n = n) :
    b ≤ moment getIntPart users R b := by
  have hspeed := totalSpeed_nonneg h hint hb.int
  have hceil : 0 ≤ ⌈(R - allUserCollNum users b) / (totalSpeed getIntPart users b / 3600)⌉ :=
    Int.ceil_nonneg (div_nonneg (sub_nonneg.2 hb.le) (by linarith))
  exact le_add_of_nonneg_right (by exact_mod_cast hceil)

omit [DecidableEq υ] in
/-- **The moment of the cut comes before any later boundary**, and if there is one somebody gathers. -/
theorem Found.moment_le (hb : Found users R b) (h : ∀ u ∈ users, Whole u.2) (hint : ∀ n : Int, getIntPart n = n)
    {w : υ × UserSpan κ} (hw : w ∈ users) {c : Rat} (hc : c ∈ getSpanTimeList w.2.timeSpan w.2.startTime) (hlt : b < c) :
    0 < totalSpeed getIntPart users b ∧ moment getIntPart users R b ≤ c := by
  obtain ⟨m, hm, hbm, hleast⟩ := exists_least (mem_mergeUserSpanTimeList.2 ⟨w, hw, hc⟩) hlt
  obtain ⟨u, hu, hmu⟩ := mem_mergeUserSpanTimeList.1 hm
  obtain ⟨heq, -⟩ :=
    allUserCollNum_until h hint hb.int hbm.le (fun u hu c hc => hleast c (mem_mergeUserSpanTimeList.2 ⟨u, hu, hc⟩))
  have hmore := hb.later u hu m hmu hbm
  have hle := hb.le
  have hpos : 0 < totalSpeed getIntPart users b := by
    by_contra hno
    have hnonpos := mul_nonpos_of_nonpos_of_nonneg (not_lt.1 hno) (sub_nonneg.2 hbm.le)
    linarith
  refine ⟨hpos, le_trans ?_ (hleast c (mem_mergeUserSpanTimeList.2 ⟨w, hw, hc⟩) hlt)⟩
  obtain ⟨n, hn⟩ := ((h u hu).boundary m hmu).sub hb.int
  -- the rest is used up before `m`, which is a whole number of seconds away
  have hrest : (R - allUserCollNum users b) / (totalSpeed getIntPart users b / 3600) ≤ n := by
    rw [div_le_iff₀ (by linarith), ← hn]
    linarith
  have hceil : (⌈(R - allUserCollNum users b) / (totalSpeed getIntPart users b / 3600)⌉ : Rat) ≤ n := by
    exact_mod_cast Int.ceil_le.2 hrest
  rw [moment]
  linarith

omit [DecidableEq υ] in
/-- **By the moment of the cut the rest is used up**, up to a second of those who gather until then. -/
theorem Found.used_up (hb : Found users R b) (h : ∀ u ∈ users, Whole u.2) (hint : ∀ n : Int, getIntPart n = n)
    (hpos : 0 < totalSpeed getIntPart users b) :
    R ≤ allUserCollNum users (moment getIntPart users R b) ∧
    allUserCollNum users (moment getIntPart users R b) ≤
      R + (users.map (fun u => speedUntil (moment getIntPart users R b) u.2)).sum / 3600 := by
  obtain ⟨heq, hspeed⟩ := allUserCollNum_until h hint hb.int (hb.le_moment h hint)
    (fun u hu c hc hlt => (hb.moment_le h hint hu hc hlt).2)
  have hunit : 0 < totalSpeed getIntPart users b / 3600 := by linarith
  have hrest : (R - allUserCollNum users b) / (totalSpeed getIntPart users b / 3600) *
      (totalSpeed getIntPart users b / 3600) = R - allUserCollNum users b := div_mul_cancel₀ _ hunit.ne'
  have hmoment : moment getIntPart users R b - b =
      ⌈(R - allUserCollNum users b) / (totalSpeed getIntPart users b / 3600)⌉ := add_sub_cancel_left _ _
  rw [hmoment, mul_div_right_comm] at heq
  have hceil := mul_le_mul_of_nonneg_left
    (Int.le_ceil ((R - allUserCollNum users b) / (totalSpeed getIntPart users b / 3600))) hunit.le
  have hceil' := mul_le_mul_of_nonneg_left
    (Int.ceil_lt_add_one ((R - allUserCollNum users b) / (totalSpeed getIntPart users b / 3600))).le hunit.le
  rw [mul_add, mul_one] at hceil'
  refine ⟨by linarith, ?_⟩
  rcases (hb.le_moment h hint).eq_or_lt with hbT | hbT
  · -- nothing was left at the boundary
    have hsum := sum_speedUntil_nonneg h (moment getIntPart users R b)
    rw [← hbT] at hsum ⊢
    linarith [hb.le]
  · linarith [hspeed hbT]

/-! ## The spans that are handed back -/

theorem noLonger_refl (timeSpan : List SpanItem) : NoLonger timeSpan timeSpan := by
  rw [NoLonger, List.take_length]
  exact List.forall₂_same.2 (fun _ _ => ⟨rfl, le_rfl⟩)

theorem noLonger_newEndLoop (curr : Rat) : ∀ (timeSpan : List SpanItem) (total : Rat),
    NoLonger (newEndLoop curr timeSpan total) timeSpan
  | [], _ => .nil
  | item :: timeSpan, total => by
    rw [newEndLoop]
    split
    · split
      · exact .cons ⟨rfl, le_rfl⟩ .nil
      · exact .cons ⟨rfl, le_rfl⟩ (noLonger_newEndLoop curr timeSpan _)
    · next hnot =>
      refine .cons ⟨rfl, ?_⟩ .nil
      dsimp only
      linarith [not_le.1 hnot]

theorem Whole.end_mem {item : UserSpan κ} (h : Whole item) (hne : item.timeSpan ≠ []) :
    item.startTime + getTotalCollTime item.timeSpan ∈ getSpanTimeList item.timeSpan item.startTime :=
  List.mem_cons_of_mem _ ((spanEnds_spec _ _ h.spans h.start).2 hne)

theorem ne_nil_of_time {timeSpan : List SpanItem} (hlt : 0 < getTotalCollTime timeSpan) : timeSpan ≠ [] := by
  intro hnil
  rw [hnil] at hlt
  exact lt_irrefl (0 : Rat) hlt

omit [DecidableEq υ] in
theorem Found.gatherer (hb : Found users R b) (h : ∀ u ∈ users, Whole u.2) (hint : ∀ n : Int, getIntPart n = n)
    {u : υ × UserSpan κ} (hu : u ∈ users) (hg : gathers getIntPart u.2 b = true) :
    u.2.startTime ≤ moment getIntPart users R b ∧
    moment getIntPart users R b ≤ u.2.startTime + getTotalCollTime u.2.timeSpan := by
  obtain ⟨hstart, hend⟩ := ((h u hu).at hint hb.int).1.1 hg
  have hne : u.2.timeSpan ≠ [] := ne_nil_of_time (by linarith)
  exact ⟨hstart.trans (hb.le_moment h hint), (hb.moment_le h hint hu ((h u hu).end_mem hne) hend).2⟩

omit [DecidableEq υ] in
theorem Found.finished (hb : Found users R b) (h : ∀ u ∈ users, Whole u.2) (hint : ∀ n : Int, getIntPart n = n)
    (hearly : Early users R) {u : υ × UserSpan κ} (hu : u ∈ users) (hg : ¬gathers getIntPart u.2 b = true) :
    u.2.timeSpan = [] ∨ u.2.startTime + getTotalCollTime u.2.timeSpan ≤ b := by
  by_cases hne : u.2.timeSpan = []
  · exact .inl hne
  have hstart : u.2.startTime ≤ b :=
    not_lt.1 (fun hlt => (hb.later u hu _ List.mem_cons_self hlt).not_ge (hearly u hu hne))
  exact .inr (not_lt.1 (fun hlt => hg (((h u hu).at hint hb.int).1.2 ⟨hstart, hlt⟩)))

def left (getIntPart : Rat → Rat) (users : List (υ × UserSpan κ)) (R b : Rat) (u : υ × UserSpan κ) : UserSpan κ :=
  if gathers getIntPart u.2 b = true then (cutAt (moment getIntPart users R b) u).2 else u.2

omit [DecidableEq υ] in
theorem left_startTime (u : υ × UserSpan κ) : (left getIntPart users R b u).startTime = u.2.startTime := by
  rw [left]
  split <;> rfl

omit [DecidableEq υ] in
theorem Found.cut_spec (hb : Found users R b) (h : ∀ u ∈ users, Whole u.2) (hint : ∀ n : Int, getIntPart n = n)
    {u : υ × UserSpan κ} (hu : u ∈ users) (hg : gathers getIntPart u.2 b = true) :
    collected (left getIntPart users R b u).timeSpan =
      getCollNum u.2.timeSpan u.2.startTime (moment getIntPart users R b) ∧
    u.2.startTime + getTotalCollTime (left getIntPart users R b u).timeSpan = moment getIntPart users R b := by
  obtain ⟨hstart, hend⟩ := hb.gatherer h hint hu hg
  obtain ⟨-, htime, hcollected⟩ := (h u hu).cut hstart
  have hleft : left getIntPart users R b u = (cutAt (moment getIntPart users R b) u).2 := if_pos hg
  have htotal : getTotalCollTime (cutAt (moment getIntPart users R b) u).2.timeSpan =
      moment getIntPart users R b - u.2.startTime := htime.trans (min_eq_right (by linarith))
  rw [hleft, htotal, add_sub_cancel]
  exact ⟨hcollected, rfl⟩

omit [DecidableEq υ] in
theorem Found.left_spec (hb : Found users R b) (h : ∀ u ∈ users, Whole u.2) (hint : ∀ n : Int, getIntPart n = n)
    (hearly : Early users R) {u : υ × UserSpan κ} (hu : u ∈ users) :
    collected (left getIntPart users R b u).timeSpan =
      getCollNum u.2.timeSpan u.2.startTime (moment getIntPart users R b) ∧
    (getTotalCollTime (left getIntPart users R b u).timeSpan < getTotalCollTime u.2.timeSpan →
      u.2.startTime + getTotalCollTime (left getIntPart users R b u).timeSpan = moment getIntPart users R b) ∧
    (getTotalCollTime (left getIntPart users R b u).timeSpan = 0 ∨
      u.2.startTime + getTotalCollTime (left getIntPart users R b u).timeSpan ≤ moment getIntPart users R b) := by
  by_cases hg : gathers getIntPart u.2 b = true
  · obtain ⟨hcollected, hcut⟩ := hb.cut_spec h hint hu hg
    exact ⟨hcollected, fun _ => hcut, .inr hcut.le⟩
  · have hleft : left getIntPart users R b u = u.2 := if_neg hg
    rw [hleft]
    rcases hb.finished h hint hearly hu hg with hnil | hend
    · rw [hnil]
      exact ⟨by simp [collected, getTotalCollNum, getCollNum, collNumLoop], fun hlt => absurd hlt (lt_irrefl _), .inl rfl⟩
    · have hend' := hend.trans (hb.le_moment h hint)
      exact ⟨((h u hu).collNum_full hend').symm, fun hlt => absurd hlt (lt_irrefl _), .inr hend'⟩

omit [DecidableEq υ] in
theorem Found.sharedOut (hb : Found users R b) (h : ∀ u ∈ users, Whole u.2) (hint : ∀ n : Int, getIntPart n = n)
    (hearly : Early users R) {out : υ → Option (UserSpan κ)}
    (hout : ∀ u ∈ users, out u.1 = some (left getIntPart users R b u)) : SharedOut users R out := by
  -- what all gather
  have hsum : (users.map (fun u => ((out u.1).map (fun item => collected item.timeSpan)).getD 0)).sum =
      allUserCollNum users (moment getIntPart users R b) := by
    refine congrArg List.sum (List.map_congr_left (fun u hu => ?_))
    rw [hout u hu]
    exact (hb.left_spec h hint hearly hu).1
  have hmost : allUserCollNum users (moment getIntPart users R b) ≤ (users.map (fun u => collected u.2.timeSpan)).sum :=
    List.sum_le_sum (fun u hu => (h u hu).collNum_le _)
  have huntil := sum_speedUntil_nonneg h (moment getIntPart users R b)
  refine ⟨fun u hu => ⟨_, hout u hu, left_startTime u, ?_⟩, moment getIntPart users R b, fun u hu item hitem => ?_, ?_⟩
  · rw [left]
    split
    · exact noLonger_newEndLoop _ _ _
    · exact noLonger_refl _
  · obtain rfl := Option.some_injective _ ((hout u hu).symm.trans hitem)
    rw [left_startTime]
    exact (hb.left_spec h hint hearly hu).2
  · rw [hsum]
    by_cases hpos : 0 < totalSpeed getIntPart users b
    · obtain ⟨hle, hge⟩ := hb.used_up h hint hpos
      exact ⟨_, hle, hge, (min_eq_right hmost).symm⟩
    · -- nobody gathers at the boundary, so all have finished
      have hall : allUserCollNum users (moment getIntPart users R b) =
        (users.map (fun u => collected u.2.timeSpan)).sum := by
        refine congrArg List.sum (List.map_congr_left (fun u hu => ?_))
        have hg : ¬gathers getIntPart u.2 b = true := fun hg => hpos ((totalSpeed_pos h hint hb.int).2 ⟨u, hu, hg⟩)
        rw [← (hb.left_spec h hint hearly hu).1, left, if_neg hg]
      have hmoment : moment getIntPart users R b = b := by
        rw [moment, (not_lt.1 hpos).antisymm (totalSpeed_nonneg h hint hb.int)]
        simp
      refine ⟨R, le_rfl, by linarith, ?_⟩
      rw [← hall, hmoment, min_eq_left hb.le]

omit [DecidableEq υ] in
theorem Found.uncut (hb : Found users R b) (h : ∀ u ∈ users, Whole u.2) (hint : ∀ n : Int, getIntPart n = n)
    {u : υ × UserSpan κ} (hu : u ∈ users) {T : Rat} (hlate : moment getIntPart users R b < T)
    (hcut : getTotalCollTime (left getIntPart users R b u).timeSpan < getTotalCollTime u.2.timeSpan →
      u.2.startTime + getTotalCollTime (left getIntPart users R b u).timeSpan = T)
    (hend : getTotalCollTime (left getIntPart users R b u).timeSpan = 0 ∨
      u.2.startTime + getTotalCollTime (left getIntPart users R b u).timeSpan ≤ T) :
    collected (left getIntPart users R b u).timeSpan = collected u.2.timeSpan ∧
    (u.2.timeSpan = [] ∨ u.2.startTime + getTotalCollTime u.2.timeSpan ≤ T) := by
  by_cases hg : gathers getIntPart u.2 b = true
  · obtain ⟨hcollected, htotal⟩ := hb.cut_spec h hint hu hg
    have hge := (hb.gatherer h hint hu hg).2
    have hwhole : moment getIntPart users R b = u.2.startTime + getTotalCollTime u.2.timeSpan := by
      refine hge.antisymm (not_lt.1 (fun hlt => ?_))
      have hT := hcut (by linarith)
      linarith
    exact ⟨hcollected.trans ((h u hu).collNum_full hwhole.ge), .inr (by linarith)⟩
  · have hleft : left getIntPart users R b u = u.2 := if_neg hg
    rw [hleft] at hend ⊢
    refine ⟨rfl, hend.imp_left (fun hzero => by_contra (fun hnil => ?_))⟩
    linarith [(h u hu).one_le hnil]

omit [DecidableEq υ] in
theorem Found.early (hb : Found users R b) (h : ∀ u ∈ users, Whole u.2) (hint : ∀ n : Int, getIntPart n = n)
    {out : υ → Option (UserSpan κ)} (hout : ∀ u ∈ users, out u.1 = some (left getIntPart users R b u))
    (hshared : SharedOut users R out) : Early users R := by
  intro u hu hne
  by_contra hmore
  obtain ⟨T, hT, A, -, hA, hsum⟩ := hshared.moment
  have hlate : b < u.2.startTime := not_le.1 (fun hle => hmore ((allUserCollNum_mono h hle).trans hb.le))
  have hmoment := (hb.moment_le h hint hu List.mem_cons_self hlate).2
  have hkeep : left getIntPart users R b u = u.2 :=
    if_neg (fun hg => (((h u hu).at hint hb.int).1.1 hg).1.not_gt hlate)
  -- he gathers for a second at least
  have hafter : u.2.startTime + 1 ≤ T := by
    have hone := (h u hu).one_le hne
    rcases (hT u hu _ ((hout u hu).trans (congrArg some hkeep))).2 with hzero | hend
    · linarith
    · linarith
  -- so those who are cut would have to be cut after his start
  have huncut : ∀ w ∈ users, collected (left getIntPart users R b w).timeSpan = collected w.2.timeSpan ∧
      (w.2.timeSpan = [] ∨ w.2.startTime + getTotalCollTime w.2.timeSpan ≤ T) := by
    intro w hw
    have hTw := hT w hw _ (hout w hw)
    rw [left_startTime] at hTw
    exact hb.uncut h hint hw (by linarith) hTw.1 hTw.2
  have hall : (users.map (fun u => collected u.2.timeSpan)).sum ≤ A := by
    rw [← min_eq_left_iff, ← hsum]
    refine congrArg List.sum (List.map_congr_left (fun w hw => ?_))
    rw [hout w hw]
    exact (huncut w hw).1
  -- the last second before `T` alone brings what may be gathered too much
  have hlast : allUserCollNum users (T - 1) + (users.map (fun u => speedUntil T u.2)).sum / 3600 ≤
      (users.map (fun u => collected u.2.timeSpan)).sum := by
    simp only [allUserCollNum, div_eq_mul_inv]
    rw [← List.sum_map_mul_right, ← List.sum_map_add]
    refine List.sum_le_sum (fun w hw => ?_)
    rcases (huncut w hw).2 with hnil | hend
    · simp [hnil, collected, getTotalCollNum, getCollNum, collNumLoop, speedUntil, starts]
    · rw [← div_eq_mul_inv, ← (h w hw).collNum_full hend, (h w hw).collNum, (h w hw).collNum]
      exact gathered_last _ _ (h w hw).spans le_rfl hend
  linarith [allUserCollNum_mono h (show u.2.startTime ≤ T - 1 by linarith)]

theorem exists_left (hnodup : (users.map Prod.fst).Nodup) (hne : users ≠ []) (h : ∀ u ∈ users, Whole u.2) (hR : 0 ≤ R)
    (hint : ∀ n : Int, getIntPart n = n) : ∃ b, Found users R b ∧
      ∀ u ∈ users, multiBuffTimeSpan getIntPart users R u.1 = some (left getIntPart users R b u) := by
  obtain ⟨b, hb, heq⟩ := exists_found getIntPart h hne hR
  refine ⟨b, hb, fun u hu => ?_⟩
  rw [heq]
  exact atBoundary_eq hnodup (totalSpeed_pos h hint hb.int).2 hu

end All

def twoUsers : List (Nat × UserSpan Unit) :=
  [(1, ⟨[⟨60, 600000, 0⟩], 1487756129, ()⟩), (2, ⟨[⟨30, 1200000, 0⟩], 1487756149, ()⟩)]

def wholePart (x : Rat) : Rat := x.floor

theorem wholePart_int (n : Int) : wholePart n = n := congrArg Int.cast (Rat.floor_intCast n)

theorem whole_twoUsers : ∀ u ∈ twoUsers, Whole u.2 := by
  have hwhole : ∀ n m l : Nat, 0 < n → 0 < m → Whole (⟨[⟨n, m, 0⟩], l, ()⟩ : UserSpan Unit) := by
    intro n m l hn hm
    refine ⟨⟨l, rfl⟩, fun i hi => ?_⟩
    obtain rfl := List.mem_singleton.1 hi
    exact ⟨⟨n, by exact_mod_cast hn, rfl⟩, m, by exact_mod_cast hm, rfl⟩
  intro u hu
  rcases List.mem_cons.1 hu with rfl | hu
  · exact_mod_cast hwhole 60 600000 1487756129 (by decide) (by decide)
  · obtain rfl := List.mem_singleton.1 hu
    exact_mod_cast hwhole 30 1200000 1487756149 (by decide) (by decide)

end TimeSpan
end Sncpp
