import Mathlib.Algebra.Order.Group.MinMax
import Mathlib.Algebra.BigOperators.Group.List.Basic
import Mathlib.Tactic.Linarith
import Mathlib.Tactic.Ring
/-!
# TimeSpan — gathering in spans of different speed (`timeSpanUtil.lua`)

A gatherer has spans one after another, each with its speed per hour.  Both loops leave as soon as a boundary is met
exactly; what comes after it adds nothing.
-/
namespace Sncpp
namespace TimeSpan

structure SpanItem where
  time : Rat
  speed : Rat
  plus : Rat
deriving DecidableEq

def getTotalCollTime (timeSpan : List SpanItem) : Rat := timeSpan.foldl (fun totalCollTime item => totalCollTime + item.time) 0

def getTotalCollNum (timeSpan : List SpanItem) : Rat :=
  timeSpan.foldl (fun totalCollNum item => totalCollNum + item.time * item.speed) 0

/-- The loop of `getCollNum`, from the span on that starts when `totalCollTime` has gone by. -/
def collNumLoop (startTime endTime : Rat) : List SpanItem → Rat → Rat → Rat
  | [], _, collNum => collNum
  | item :: timeSpan, totalCollTime, collNum =>
    let itemFinishTime := startTime + totalCollTime + item.time
    if itemFinishTime ≤ endTime then
      let collNum := collNum + item.speed * item.time / 3600
      if itemFinishTime = endTime then collNum
      else collNumLoop startTime endTime timeSpan (totalCollTime + item.time) collNum
    else
      let collTime := endTime - (startTime + totalCollTime)
      if 0 < collTime then collNum + item.speed * collTime / 3600 else collNum

def getCollNum (timeSpan : List SpanItem) (startTime endTime : Rat) : Rat := collNumLoop startTime endTime timeSpan 0 0

def newEndLoop (currCollTime : Rat) : List SpanItem → Rat → List SpanItem
  | [], _ => []
  | item :: timeSpan, totalCollTime =>
    let totalCollTime := totalCollTime + item.time
    if totalCollTime ≤ currCollTime then
      if currCollTime = totalCollTime then [item] else item :: newEndLoop currCollTime timeSpan totalCollTime
    else [{ item with time := item.time - (totalCollTime - currCollTime) }]

def newEndTimeSpan (timeSpan : List SpanItem) (startTime endTime : Rat) : List SpanItem :=
  newEndLoop (endTime - startTime) timeSpan 0

def starts : Rat → List SpanItem → List (Rat × SpanItem)
  | _, [] => []
  | a, item :: timeSpan => (a, item) :: starts (a + item.time) timeSpan

def overlap (a b s t : Rat) : Rat := max 0 (min b t - max a s)

/-- **The sum over the spans of speed and time that has gone by** between `s` and `t`, if the first starts at `a`. -/
def gathered (s t a : Rat) (timeSpan : List SpanItem) : Rat :=
  ((starts a timeSpan).map (fun p => p.2.speed * overlap p.1 (p.1 + p.2.time) s t / 3600)).sum

def Nonneg (timeSpan : List SpanItem) : Prop := ∀ item ∈ timeSpan, 0 ≤ item.time ∧ 0 ≤ item.speed

variable {timeSpan : List SpanItem} {item : SpanItem} {s t t' a : Rat}

theorem gathered_nil (s t a : Rat) : gathered s t a [] = 0 := rfl

theorem gathered_cons (s t a : Rat) (item : SpanItem) (timeSpan : List SpanItem) :
    gathered s t a (item :: timeSpan) =
      item.speed * overlap a (a + item.time) s t / 3600 + gathered s t (a + item.time) timeSpan := by
  simp [gathered, starts]

theorem Nonneg.cons (h : Nonneg (item :: timeSpan)) : 0 ≤ item.time ∧ 0 ≤ item.speed ∧ Nonneg timeSpan :=
  ⟨(h item List.mem_cons_self).1, (h item List.mem_cons_self).2, fun i hi => h i (List.mem_cons_of_mem item hi)⟩

theorem overlap_of_le {b : Rat} (hs : s ≤ a) (hab : a ≤ b) (hbt : b ≤ t) : overlap a b s t = b - a := by
  rw [overlap, min_eq_left hbt, max_eq_left hs, max_eq_right (sub_nonneg.2 hab)]

theorem overlap_of_ge {b : Rat} (hs : s ≤ a) (htb : t ≤ b) : overlap a b s t = max 0 (t - a) := by
  rw [overlap, min_eq_right htb, max_eq_left hs]

theorem gathered_zero : ∀ (timeSpan : List SpanItem) (a : Rat), Nonneg timeSpan → s ≤ a → t ≤ a → gathered s t a timeSpan = 0
  | [], _, _, _, _ => rfl
  | item :: timeSpan, a, h, hs, ht => by
    obtain ⟨htime, -, hrest⟩ := h.cons
    have hle : a ≤ a + item.time := le_add_of_nonneg_right htime
    rw [gathered_cons, overlap_of_ge hs (ht.trans hle), max_eq_left (sub_nonpos.2 ht),
      gathered_zero timeSpan _ hrest (hs.trans hle) (ht.trans hle)]
    simp

theorem overlap_mono {b : Rat} (h : t ≤ t') : overlap a b s t ≤ overlap a b s t' :=
  max_le_max le_rfl (sub_le_sub_right (min_le_min le_rfl h) _)

theorem gathered_mono (h : t ≤ t') : ∀ (timeSpan : List SpanItem) (a : Rat), Nonneg timeSpan →
    gathered s t a timeSpan ≤ gathered s t' a timeSpan
  | [], _, _ => le_rfl
  | item :: timeSpan, a, hts => by
    obtain ⟨-, hspeed, hrest⟩ := hts.cons
    rw [gathered_cons, gathered_cons]
    exact add_le_add (div_le_div_of_nonneg_right (mul_le_mul_of_nonneg_left (overlap_mono h) hspeed) (by norm_num))
      (gathered_mono h timeSpan _ hrest)

theorem collNumLoop_eq (s t : Rat) : ∀ (timeSpan : List SpanItem) (total collNum : Rat), Nonneg timeSpan → 0 ≤ total →
    collNumLoop s t timeSpan total collNum = collNum + gathered s t (s + total) timeSpan
  | [], _, collNum, _, _ => (add_zero collNum).symm
  | item :: timeSpan, total, collNum, h, htotal => by
    obtain ⟨htime, -, hrest⟩ := h.cons
    have hs : s ≤ s + total := le_add_of_nonneg_right htotal
    have hle : s + total ≤ s + total + item.time := le_add_of_nonneg_right htime
    rw [collNumLoop, gathered_cons]
    by_cases hfull : s + total + item.time ≤ t
    · rw [overlap_of_le hs hle hfull, add_sub_cancel_left]
      simp only [if_pos hfull]
      by_cases heq : s + total + item.time = t
      · rw [if_pos heq, gathered_zero timeSpan _ hrest (hs.trans hle) heq.ge, add_zero]
      · rw [if_neg heq, collNumLoop_eq s t timeSpan _ _ hrest (add_nonneg htotal htime), add_assoc, add_assoc s]
    · have hlt : t ≤ s + total + item.time := (not_le.1 hfull).le
      rw [overlap_of_ge hs hlt, gathered_zero timeSpan _ hrest (hs.trans hle) hlt, add_zero]
      simp only [if_neg hfull]
      by_cases hpos : 0 < t - (s + total)
      · rw [if_pos hpos, max_eq_right hpos.le]
      · rw [if_neg hpos, max_eq_left (not_lt.1 hpos)]
        simp

theorem getCollNum_eq (h : Nonneg timeSpan) (s t : Rat) : getCollNum timeSpan s t = gathered s t s timeSpan := by
  rw [getCollNum, collNumLoop_eq s t timeSpan 0 0 h le_rfl, zero_add, add_zero]

theorem foldl_time (timeSpan : List SpanItem) : ∀ total : Rat,
    timeSpan.foldl (fun total item => total + item.time) total = total + getTotalCollTime timeSpan := by
  unfold getTotalCollTime
  induction timeSpan with
  | nil => simp
  | cons item timeSpan ih =>
    intro total
    rw [List.foldl_cons, List.foldl_cons, ih, ih (0 + item.time)]
    ring

theorem getTotalCollTime_cons (item : SpanItem) (timeSpan : List SpanItem) :
    getTotalCollTime (item :: timeSpan) = item.time + getTotalCollTime timeSpan := by
  rw [getTotalCollTime, List.foldl_cons, foldl_time, zero_add]

theorem getTotalCollTime_nonneg : ∀ timeSpan : List SpanItem, Nonneg timeSpan → 0 ≤ getTotalCollTime timeSpan
  | [], _ => le_rfl
  | item :: timeSpan, h => by
    rw [getTotalCollTime_cons]
    exact add_nonneg h.cons.1 (getTotalCollTime_nonneg timeSpan h.cons.2.2)

/-- **Spans that are cut** when `curr` has gone by: how long they are, and what they gather until `t`. -/
theorem newEndLoop_spec (s t curr : Rat) : ∀ (timeSpan : List SpanItem) (total : Rat), Nonneg timeSpan → 0 ≤ total →
    total ≤ curr → Nonneg (newEndLoop curr timeSpan total) ∧
      getTotalCollTime (newEndLoop curr timeSpan total) = min (getTotalCollTime timeSpan) (curr - total) ∧
      gathered s t (s + total) (newEndLoop curr timeSpan total) = gathered s (min t (s + curr)) (s + total) timeSpan
  | [], total, h, _, hle => by
    refine ⟨h, ?_, rfl⟩
    rw [newEndLoop, min_eq_left]
    exact sub_nonneg.2 hle
  | item :: timeSpan, total, h, htotal, hle => by
    obtain ⟨htime, hspeed, hrest⟩ := h.cons
    have hs : s ≤ s + total := le_add_of_nonneg_right htotal
    have hstart : s + total ≤ s + total + item.time := le_add_of_nonneg_right htime
    have htimes := getTotalCollTime_nonneg timeSpan hrest
    have hrestZero : s + curr ≤ s + total + item.time → gathered s (min t (s + curr)) (s + total + item.time) timeSpan = 0 :=
      fun hcurr => gathered_zero timeSpan _ hrest (hs.trans hstart) ((min_le_right _ _).trans hcurr)
    rw [newEndLoop, getTotalCollTime_cons, gathered_cons]
    by_cases hfull : total + item.time ≤ curr
    · simp only [if_pos hfull]
      have hmin : overlap (s + total) (s + total + item.time) s (min t (s + curr)) =
          overlap (s + total) (s + total + item.time) s t := by
        have hend : s + total + item.time ≤ s + curr := by linarith
        rw [overlap, overlap, min_comm t, ← min_assoc, min_eq_left hend]
      rw [hmin]
      by_cases heq : curr = total + item.time
      · rw [if_pos heq, gathered_cons, gathered_nil, hrestZero (by linarith), getTotalCollTime_cons]
        refine ⟨fun i hi => ?_, ?_, rfl⟩
        · obtain rfl := List.mem_singleton.1 hi
          exact ⟨htime, hspeed⟩
        · rw [min_eq_right (by linarith), heq]
          simp [getTotalCollTime]
      · rw [if_neg heq, gathered_cons, getTotalCollTime_cons]
        obtain ⟨hnonneg, htotalTime, hgathered⟩ :=
          newEndLoop_spec s t curr timeSpan (total + item.time) hrest (add_nonneg htotal htime) hfull
        rw [← add_assoc] at hgathered
        refine ⟨fun i hi => ?_, ?_, by rw [hgathered]⟩
        · rcases List.mem_cons.1 hi with rfl | hi
          · exact ⟨htime, hspeed⟩
          · exact hnonneg i hi
        · rw [htotalTime, ← min_add_add_left]
          congr 1
          ring
    · have hcurr : curr < total + item.time := not_le.1 hfull
      simp only [if_neg hfull]
      rw [gathered_cons, gathered_nil, hrestZero (by linarith), getTotalCollTime_cons]
      refine ⟨fun i hi => ?_, ?_, ?_⟩
      · obtain rfl := List.mem_singleton.1 hi
        exact ⟨by linarith, hspeed⟩
      · rw [min_eq_right (by linarith)]
        simp [getTotalCollTime]
        ring
      · have hend : s + total + (item.time - (total + item.time - curr)) = s + curr := by ring
        have hmin : min (s + total + item.time) (min t (s + curr)) = min (s + curr) t := by
          have hle : s + curr ≤ s + total + item.time := by linarith
          rw [min_comm t, ← min_assoc, min_eq_right hle]
        simp only [hend, overlap, hmin]

/-- **Cutting spans at `e`**: they gather until `t` what the others do until the earlier of `t` and `e`, last no longer than
until `e`, and gather the more the later it is: the sum of speed and time. -/
theorem coll_cut {timeSpan : List SpanItem} (h : Nonneg timeSpan) {s e : Rat} (he : s ≤ e) (t : Rat) :
    getCollNum (newEndTimeSpan timeSpan s e) s t = getCollNum timeSpan s (min t e) ∧
    getTotalCollTime (newEndTimeSpan timeSpan s e) = min (getTotalCollTime timeSpan) (e - s) ∧
    (∀ t', t ≤ t' → getCollNum timeSpan s t ≤ getCollNum timeSpan s t') ∧
    getCollNum timeSpan s t =
      ((starts s timeSpan).map (fun p => p.2.speed * overlap p.1 (p.1 + p.2.time) s t / 3600)).sum := by
  obtain ⟨hnonneg, htime, hgathered⟩ := newEndLoop_spec s t (e - s) timeSpan 0 h le_rfl (sub_nonneg.2 he)
  rw [add_zero, add_sub_cancel] at hgathered
  rw [sub_zero] at htime
  refine ⟨?_, htime, fun t' htt' => ?_, getCollNum_eq h s t⟩
  · rw [newEndTimeSpan, getCollNum_eq hnonneg, getCollNum_eq h, hgathered]
  · rw [getCollNum_eq h, getCollNum_eq h]
    exact gathered_mono htt' timeSpan s h

def twoSpans : List SpanItem := [⟨60, 7200, 0⟩, ⟨30, 3600, 1⟩]

theorem coll_cut_twoSpans : Nonneg twoSpans ∧
    getCollNum (newEndTimeSpan twoSpans 100 170) 100 200 = getCollNum twoSpans 100 (min 200 170) ∧
    getTotalCollTime (newEndTimeSpan twoSpans 100 170) = min (getTotalCollTime twoSpans) (170 - 100) ∧
    (∀ t', 200 ≤ t' → getCollNum twoSpans 100 200 ≤ getCollNum twoSpans 100 t') ∧
    getCollNum twoSpans 100 200 =
      ((starts 100 twoSpans).map (fun p => p.2.speed * overlap p.1 (p.1 + p.2.time) 100 200 / 3600)).sum := by
  have h : Nonneg twoSpans := by simp [Nonneg, twoSpans]
  exact ⟨h, coll_cut h (by norm_num) 200⟩

end TimeSpan
end Sncpp
