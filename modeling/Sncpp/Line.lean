import Mathlib.Algebra.Order.Ring.Abs
import Mathlib.Data.List.Range
import Mathlib.Tactic.Ring
import Mathlib.Tactic.Linarith
/-!
# Line — drawing a line of cells

Bresenham's line between two cells of the plane, with the error term doubled and both coordinates treated alike.  The pen
reaches the end after as many steps as the longer side has cells and not before (`pen_last`, `pen_ne`), so that a loop
which walks the line until a cell fails a test, or until the end, ends: it visits the cells of `cells` up to the
first that fails (`walk_eq`).
-/
namespace Sncpp

/-- A line from one cell to another. -/
structure Line where
  x₀ : Int
  y₀ : Int
  x₁ : Int
  y₁ : Int

namespace Line

/-- The pen: the cell it is on and the error so far. -/
structure Pen where
  x : Int
  y : Int
  err : Int

variable (l : Line)

def dx : Nat := (l.x₁ - l.x₀).natAbs
def dy : Nat := (l.y₁ - l.y₀).natAbs
def sx : Int := if l.x₀ < l.x₁ then 1 else -1
def sy : Int := if l.y₀ < l.y₁ then 1 else -1

def start : Pen := ⟨l.x₀, l.y₀, l.dx - l.dy⟩

def step (c : Pen) : Pen :=
  let c' := if 2 * c.err > -l.dy then { c with err := c.err - l.dy, x := c.x + l.sx } else c
  if 2 * c.err < l.dx then { c' with err := c'.err + l.dx, y := c'.y + l.sy } else c'

/-- The pen after so many steps. -/
def pen (n : Nat) : Pen := l.step^[n] l.start

/-- The number of steps of the line. -/
def steps : Nat := max l.dx l.dy

/-- **The cells of the line**, from its start to its end. -/
def cells : List (Int × Int) := (List.range (l.steps + 1)).map (fun n => ((l.pen n).x, (l.pen n).y))

theorem pen_succ (n : Nat) : l.pen (n + 1) = l.step (l.pen n) := Function.iterate_succ_apply' l.step n l.start

theorem sx_mul_dx : l.x₀ + l.sx * l.dx = l.x₁ := by
  unfold sx dx
  split <;> omega

theorem sy_mul_dy : l.y₀ + l.sy * l.dy = l.y₁ := by
  unfold sy dy
  split <;> omega

theorem sx_ne_zero : l.sx ≠ 0 := by
  unfold sx
  split <;> decide

/-! ## Lines that are wider than high -/

/-- On a wide line every step goes along `x`, and the error stays within bounds. -/
theorem pen_wide (h : l.dy ≤ l.dx) (hpos : 0 < l.dx) : ∀ n : Nat, ∃ b : Int,
    l.pen n = ⟨l.x₀ + l.sx * n, l.y₀ + l.sy * b, l.dx * (b + 1) - l.dy * (n + 1)⟩ ∧
      -(l.dy : Int) < 2 * (l.dx * (b + 1) - l.dy * (n + 1)) ∧
      2 * (l.dx * (b + 1) - l.dy * (n + 1)) < 3 * l.dx - 2 * l.dy
  | 0 => by
    refine ⟨0, ?_, ?_⟩
    · simp [pen, start]
    · simp only [zero_add, mul_one, Nat.cast_zero]
      omega
  | n + 1 => by
    obtain ⟨b, hpen, hlow, hhigh⟩ := pen_wide h hpos n
    rw [pen_succ, hpen]
    unfold step
    generalize he : (l.dx : Int) * (b + 1) - l.dy * (n + 1) = e at hlow hhigh
    have hx : 2 * e > -(l.dy : Int) := hlow
    by_cases hy : 2 * e < (l.dx : Int)
    · refine ⟨b + 1, ?_, ?_⟩
      · simp only [hx, hy, if_true, Pen.mk.injEq]
        refine ⟨by push_cast; ring, by ring, ?_⟩
        rw [← he]
        push_cast
        ring
      · have : (l.dx : Int) * (b + 1 + 1) - l.dy * ((n + 1 : Nat) + 1) = e - l.dy + l.dx := by
          rw [← he]
          push_cast
          ring
        rw [this]
        omega
    · refine ⟨b, ?_, ?_⟩
      · simp only [hx, hy, if_true, if_false, Pen.mk.injEq]
        refine ⟨by push_cast; ring, trivial, ?_⟩
        rw [← he]
        push_cast
        ring
      · have : (l.dx : Int) * (b + 1) - l.dy * ((n + 1 : Nat) + 1) = e - l.dy := by
          rw [← he]
          push_cast
          ring
        rw [this]
        omega

theorem pen_wide_last (h : l.dy ≤ l.dx) (hpos : 0 < l.dx) : (l.pen l.dx).x = l.x₁ ∧ (l.pen l.dx).y = l.y₁ := by
  obtain ⟨b, hpen, hlow, hhigh⟩ := l.pen_wide h hpos l.dx
  have hb : b = l.dy := by
    have hpos' : (0 : Int) < l.dx := by exact_mod_cast hpos
    have heq : (l.dx : Int) * (2 * (b + 1 - l.dy)) = 2 * (l.dx * (b + 1) - l.dy * (l.dx + 1)) + 2 * l.dy := by ring
    have h1 : (l.dx : Int) * 0 < l.dx * (2 * (b + 1 - l.dy)) := by omega
    have h2 : (l.dx : Int) * (2 * (b + 1 - l.dy)) < l.dx * 3 := by omega
    have h1' := lt_of_mul_lt_mul_left h1 hpos'.le
    have h2' := lt_of_mul_lt_mul_left h2 hpos'.le
    omega
  rw [hpen, hb]
  exact ⟨l.sx_mul_dx, l.sy_mul_dy⟩

/-! ## The line with its coordinates exchanged -/

def swap : Line := ⟨l.y₀, l.x₀, l.y₁, l.x₁⟩

def Pen.swap (c : Pen) : Pen := ⟨c.y, c.x, -c.err⟩

theorem step_swap (c : Pen) : l.swap.step c.swap = (l.step c).swap := by
  have hx : (2 * -c.err > -(l.dx : Int)) = (2 * c.err < l.dx) := propext (by omega)
  have hy : (2 * -c.err < (l.dy : Int)) = (2 * c.err > -l.dy) := propext (by omega)
  have hsub : ∀ a b : Int, -a - b = -(a + b) := fun a b => by ring
  have hadd : ∀ a b : Int, -a + b = -(a - b) := fun a b => by ring
  show (let c' : Pen := if 2 * -c.err > -(l.dx : Int) then ⟨c.y + l.sy, c.x, -c.err - l.dx⟩ else ⟨c.y, c.x, -c.err⟩
    if 2 * -c.err < (l.dy : Int) then (⟨c'.x, c'.y + l.sx, c'.err + l.dy⟩ : Pen) else c') = (l.step c).swap
  unfold step Pen.swap
  simp only [hx, hy]
  by_cases h : 2 * c.err < l.dx
  · by_cases h' : 2 * c.err > -l.dy
    · simp only [h, h', if_true, Pen.mk.injEq, true_and]
      ring
    · simp only [h, h', if_true, if_false, hsub]
  · by_cases h' : 2 * c.err > -l.dy
    · simp only [h, h', if_true, if_false, hadd]
    · simp only [h, h', if_false]

theorem pen_swap (n : Nat) : l.swap.pen n = (l.pen n).swap := by
  induction n with
  | zero =>
    have herr : (l.dy : Int) - l.dx = -(l.dx - l.dy) := by ring
    exact congrArg (Pen.mk l.y₀ l.x₀) herr
  | succ n ih => rw [pen_succ, ih, step_swap, pen_succ]

theorem pen_zero_of_point (hx : l.dx = 0) (hy : l.dy = 0) : (l.pen 0).x = l.x₁ ∧ (l.pen 0).y = l.y₁ := by
  unfold dx at hx
  unfold dy at hy
  exact ⟨show l.x₀ = l.x₁ by omega, show l.y₀ = l.y₁ by omega⟩

theorem pen_last : (l.pen l.steps).x = l.x₁ ∧ (l.pen l.steps).y = l.y₁ := by
  unfold steps
  rcases Nat.le_total l.dy l.dx with h | h
  · rw [Nat.max_eq_left h]
    rcases Nat.eq_zero_or_pos l.dx with hz | hpos
    · rw [hz]
      exact l.pen_zero_of_point hz (by omega)
    · exact l.pen_wide_last h hpos
  · rw [Nat.max_eq_right h]
    rcases Nat.eq_zero_or_pos l.dy with hz | hpos
    · rw [hz]
      exact l.pen_zero_of_point (by omega) hz
    · have hlast := l.swap.pen_wide_last h hpos
      rw [pen_swap] at hlast
      exact hlast.symm

theorem pen_ne_wide (h : l.dy ≤ l.dx) {n : Nat} (hn : n < l.dx) : (l.pen n).x ≠ l.x₁ := by
  intro hx
  obtain ⟨b, hpen, -⟩ := l.pen_wide h (by omega) n
  rw [hpen, ← l.sx_mul_dx] at hx
  have := mul_left_cancel₀ l.sx_ne_zero (add_left_cancel hx)
  omega

theorem pen_ne {n : Nat} (hn : n < l.steps) : ¬ ((l.pen n).x = l.x₁ ∧ (l.pen n).y = l.y₁) := by
  unfold steps at hn
  rintro ⟨hx, hy⟩
  rcases Nat.le_total l.dy l.dx with h | h
  · rw [Nat.max_eq_left h] at hn
    exact l.pen_ne_wide h hn hx
  · rw [Nat.max_eq_right h] at hn
    have hne := l.swap.pen_ne_wide h hn
    rw [pen_swap] at hne
    exact hne hy

/-! ## How near the line its cells are -/

theorem pen_err_wide (h : l.dy ≤ l.dx) (hpos : 0 < l.dx) (n : Nat) : (l.dx : Int) - 2 * l.dy ≤ 2 * (l.pen n).err := by
  induction n with
  | zero =>
    show (l.dx : Int) - 2 * l.dy ≤ 2 * (l.dx - l.dy)
    omega
  | succ n ih =>
    obtain ⟨b, hpen, hlow, -⟩ := l.pen_wide h hpos n
    rw [pen_succ]
    rw [hpen] at ih ⊢
    unfold step
    simp only at ih ⊢
    generalize (l.dx : Int) * (b + 1) - l.dy * (n + 1) = e at hlow ih
    rw [if_pos hlow]
    split
    · simp only
      omega
    · simp only
      omega

/-- How far the pen has gone each way. -/
structure Gone (c : Pen) (a b : Nat) : Prop where
  x : c.x = l.x₀ + l.sx * a
  y : c.y = l.y₀ + l.sy * b
  wide : a ≤ l.dx
  high : b ≤ l.dy
  near : |2 * ((l.dx : Int) * b - l.dy * a)| ≤ max (l.dx : Int) l.dy

theorem gone_wide (h : l.dy ≤ l.dx) (hpos : 0 < l.dx) {n : Nat} (hn : n ≤ l.dx) : ∃ b, l.Gone (l.pen n) n b := by
  have herr := l.pen_err_wide h hpos n
  obtain ⟨b, hpen, -, hhigh⟩ := l.pen_wide h hpos n
  rw [hpen] at herr
  simp only at herr
  have hpos' : (0 : Int) < l.dx := by exact_mod_cast hpos
  have hoff : (l.dx : Int) * (b + 1) - l.dy * (n + 1) = (l.dx * b - l.dy * n) + l.dx - l.dy := by ring
  have hlow : -(l.dx : Int) ≤ 2 * (l.dx * b - l.dy * n) := by omega
  have hupp : 2 * ((l.dx : Int) * b - l.dy * n) ≤ l.dx := by omega
  have hn0 : (0 : Int) ≤ l.dy * n := by positivity
  have hnn : (l.dy : Int) * n ≤ l.dy * l.dx := by
    exact_mod_cast Nat.mul_le_mul_left l.dy hn
  have hb0 : 0 ≤ b := by
    have h1 : (l.dx : Int) * (-1) ≤ l.dx * (2 * b) := by linarith
    have h2 := le_of_mul_le_mul_left h1 hpos'
    omega
  have hb : b ≤ l.dy := by
    have h1 : (l.dx : Int) * (2 * b) ≤ l.dx * (2 * l.dy + 1) := by linarith
    have h2 := le_of_mul_le_mul_left h1 hpos'
    omega
  obtain ⟨b, rfl⟩ := Int.eq_ofNat_of_zero_le hb0
  refine ⟨b, by rw [hpen], by rw [hpen], hn, by exact_mod_cast hb, ?_⟩
  rw [max_eq_left (by exact_mod_cast h), abs_le]
  exact ⟨hlow, hupp⟩

theorem Gone.swap {c : Pen} {a b : Nat} (h : l.swap.Gone c.swap a b) : l.Gone c b a := by
  refine ⟨h.y, h.x, h.high, h.wide, ?_⟩
  have hnear : |2 * ((l.dy : Int) * b - l.dx * a)| ≤ max (l.dy : Int) l.dx := h.near
  rw [max_comm, ← abs_neg, show -(2 * ((l.dx : Int) * a - l.dy * b)) = 2 * ((l.dy : Int) * b - l.dx * a) by ring]
  exact hnear

theorem gone {n : Nat} (hn : n ≤ l.steps) : ∃ a b, l.Gone (l.pen n) a b := by
  unfold steps at hn
  rcases Nat.eq_zero_or_pos n with rfl | hpos
  · refine ⟨0, 0, ?_, ?_, Nat.zero_le _, Nat.zero_le _, ?_⟩
    · simp [pen, start]
    · simp [pen, start]
    · simp
  · rcases Nat.le_total l.dy l.dx with h | h
    · rw [Nat.max_eq_left h] at hn
      exact ⟨n, l.gone_wide h (by omega) hn⟩
    · rw [Nat.max_eq_right h] at hn
      obtain ⟨a, hgone⟩ := l.swap.gone_wide h (by omega : 0 < l.dy) hn
      rw [pen_swap] at hgone
      exact ⟨a, n, hgone.swap⟩

/-- Two cells that touch, in a side or in a corner. -/
def Neighbours (c d : Int × Int) : Prop := max |d.1 - c.1| |d.2 - c.2| = 1

theorem abs_sx : |l.sx| = 1 := by
  unfold sx
  split <;> rfl

theorem abs_sy : |l.sy| = 1 := l.swap.abs_sx

theorem neighbours_wide (h : l.dy ≤ l.dx) (hpos : 0 < l.dx) (n : Nat) :
    Neighbours ((l.pen n).x, (l.pen n).y) ((l.pen (n + 1)).x, (l.pen (n + 1)).y) := by
  obtain ⟨b, hpen, hlow, -⟩ := l.pen_wide h hpos n
  have hx : 2 * (l.pen n).err > -l.dy := by
    rw [hpen]
    exact hlow
  rw [pen_succ]
  unfold step Neighbours
  simp only [hx, if_true]
  split
  · simp [abs_sx, abs_sy]
  · simp [abs_sx]

theorem neighbours {n : Nat} (hn : n < l.steps) :
    Neighbours ((l.pen n).x, (l.pen n).y) ((l.pen (n + 1)).x, (l.pen (n + 1)).y) := by
  unfold steps at hn
  rcases Nat.le_total l.dy l.dx with h | h
  · rw [Nat.max_eq_left h] at hn
    exact l.neighbours_wide h (by omega) n
  · rw [Nat.max_eq_right h] at hn
    have hswap := l.swap.neighbours_wide h (by omega : 0 < l.dy) n
    rw [pen_swap, pen_swap] at hswap
    unfold Neighbours at hswap ⊢
    rw [max_comm]
    exact hswap

/-- **Cells that make a whole line**: one for each step and one more, from end to end, each touching the next, in the box of
the two ends and within half a cell of the straight line. -/
structure Complete (cells : List (Int × Int)) : Prop where
  length : cells.length = max l.dx l.dy + 1
  first : cells.head? = some (l.x₀, l.y₀)
  last : cells.getLast? = some (l.x₁, l.y₁)
  touch : cells.IsChain Neighbours
  box : ∀ c ∈ cells, min l.x₀ l.x₁ ≤ c.1 ∧ c.1 ≤ max l.x₀ l.x₁ ∧ min l.y₀ l.y₁ ≤ c.2 ∧ c.2 ≤ max l.y₀ l.y₁
  near : ∀ c ∈ cells, |2 * ((l.dx : Int) * |c.2 - l.y₀| - l.dy * |c.1 - l.x₀|)| ≤ max (l.dx : Int) l.dy

theorem sx_box {a : Nat} (h : a ≤ l.dx) : min l.x₀ l.x₁ ≤ l.x₀ + l.sx * a ∧ l.x₀ + l.sx * a ≤ max l.x₀ l.x₁ := by
  unfold sx
  unfold dx at h
  split <;> omega

theorem cells_complete : l.Complete l.cells := by
  have hmem : ∀ c ∈ l.cells, ∃ n ≤ l.steps, c = ((l.pen n).x, (l.pen n).y) := by
    intro c hc
    obtain ⟨n, hn, rfl⟩ := List.mem_map.1 hc
    exact ⟨n, Nat.le_of_lt_succ (List.mem_range.1 hn), rfl⟩
  refine ⟨?_, ?_, ?_, ?_, fun c hc => ?_, fun c hc => ?_⟩
  · rw [cells, List.length_map, List.length_range, steps]
  · rw [cells, List.range_succ_eq_map]
    rfl
  · rw [cells, List.range_succ, List.map_append, List.map_singleton, List.getLast?_concat, l.pen_last.1, l.pen_last.2]
  · rw [cells, List.isChain_map, List.isChain_range_succ]
    exact fun n hn => l.neighbours hn
  · obtain ⟨n, hn, rfl⟩ := hmem c hc
    obtain ⟨a, b, hgone⟩ := l.gone hn
    obtain ⟨hx, hx'⟩ := l.sx_box hgone.wide
    obtain ⟨hy, hy'⟩ := l.swap.sx_box (a := b) hgone.high
    rw [hgone.x, hgone.y]
    exact ⟨hx, hx', hy, hy'⟩
  · obtain ⟨n, hn, rfl⟩ := hmem c hc
    obtain ⟨a, b, hgone⟩ := l.gone hn
    have ha : |(l.pen n).x - l.x₀| = a := by
      rw [hgone.x, add_sub_cancel_left, abs_mul, abs_sx, one_mul, Nat.abs_cast]
    have hb : |(l.pen n).y - l.y₀| = b := by
      rw [hgone.y, add_sub_cancel_left, abs_mul, abs_sy, one_mul, Nat.abs_cast]
    rw [ha, hb]
    exact hgone.near

/-- A loop along the line: it stops at the first cell that fails the test, or at the end.  It returns the cells that passed
and whether it came to the end. -/
def walk (ok : Int × Int → Bool) : Nat → Pen → Option (List (Int × Int) × Bool)
  | 0, _ => none
  | n + 1, c =>
    if ok (c.x, c.y) then
      if c.x = l.x₁ ∧ c.y = l.y₁ then some ([(c.x, c.y)], true)
      else (walk ok n (l.step c)).map (fun r => ((c.x, c.y) :: r.1, r.2))
    else some ([], false)

/-- The cells from a step on. -/
def cellsFrom (n : Nat) : List (Int × Int) :=
  (List.range' n (l.steps + 1 - n)).map (fun n => ((l.pen n).x, (l.pen n).y))

theorem cellsFrom_succ {n : Nat} (h : n ≤ l.steps) :
    l.cellsFrom n = ((l.pen n).x, (l.pen n).y) :: l.cellsFrom (n + 1) := by
  unfold cellsFrom
  rw [show l.steps + 1 - n = (l.steps + 1 - (n + 1)) + 1 by omega, List.range'_succ, List.map_cons]

theorem cellsFrom_last : l.cellsFrom (l.steps + 1) = [] := by
  unfold cellsFrom
  rw [Nat.sub_self]
  rfl

theorem walk_pen (ok : Int × Int → Bool) : ∀ (n k : Nat), k ≤ l.steps → l.steps < n + k →
    l.walk ok n (l.pen k) = some ((l.cellsFrom k).takeWhile ok, (l.cellsFrom k).all ok)
  | 0, k, hk, hn => by omega
  | n + 1, k, hk, hn => by
    rw [l.cellsFrom_succ hk, List.takeWhile_cons, List.all_cons]
    unfold walk
    cases hok : ok ((l.pen k).x, (l.pen k).y) with
    | false => simp
    | true =>
      simp only [if_true, Bool.true_and]
      rcases Nat.lt_or_ge k l.steps with hlt | hge
      · rw [if_neg (l.pen_ne hlt), ← l.pen_succ, walk_pen ok n (k + 1) hlt (by omega)]
        rfl
      · obtain rfl : k = l.steps := by omega
        rw [if_pos l.pen_last, l.cellsFrom_last]
        rfl

theorem cells_eq_cellsFrom : l.cells = l.cellsFrom 0 := by
  unfold cells cellsFrom
  rw [List.range_eq_range', Nat.sub_zero]

theorem walk_eq (ok : Int × Int → Bool) {n : Nat} (h : l.steps < n) :
    l.walk ok n l.start = some (l.cells.takeWhile ok, l.cells.all ok) := by
  rw [cells_eq_cellsFrom]
  exact l.walk_pen ok n 0 (Nat.zero_le _) h

end Line
end Sncpp
