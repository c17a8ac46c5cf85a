import Mathlib.Tactic.Ring
import Mathlib.Data.List.Nodup
/-!
# Aoi — the grids of a map

The geometry that `mapslg/aoi/mapAoi.lua` and `queue/aoi/queueAoi.lua` share word for word: a map cut into square grids, a
grid's key (`mapUtils.get_coord_id`), and the nine keys around a grid, found by adding an offset to its key.  Adding an
offset is symmetric whatever the map (`mem_around_comm`).  That the nine keys are the grids of the 3x3 block, and no
grid of another row, takes a map of fewer than 10000 grids to a row (`mem_around`).
-/
namespace Sncpp
namespace Aoi

def getCoordId (x y : Int) : Int := y * 10000 + x

def deltaXY : List Int :=
  [getCoordId 0 (-1), getCoordId (-1) 0, getCoordId 0 1, getCoordId 1 0, getCoordId (-1) (-1), getCoordId (-1) 1,
    getCoordId 1 1, getCoordId 1 (-1), getCoordId 0 0]

/-- A map of `width` by `height` cut into grids of side `offset`. -/
structure Board where
  width : Nat
  height : Nat
  offset : Nat
  offset_pos : 0 < offset
  narrow : width < 10000

namespace Board

variable (b : Board)

def ceil (n : Nat) : Nat := (n + b.offset - 1) / b.offset

def nx : Nat := b.ceil b.width
def ny : Nat := b.ceil b.height

def toGridXy (x y : Nat) : Nat × Nat := (b.ceil x, b.ceil y)

def getGridKey (x y : Nat) : Int := getCoordId (b.toGridXy x y).1 (b.toGridXy x y).2

def isGrid (k : Int) : Bool := decide (1 ≤ k % 10000 ∧ k % 10000 ≤ b.nx ∧ 1 ≤ k / 10000 ∧ k / 10000 ≤ b.ny)

def around (k : Int) : List Int := (deltaXY.map (k + ·)).filter b.isGrid

def walkGrids (x y : Nat) : List Int := b.around (b.getGridKey x y)

/-- **The 3x3 block around a grid, clipped to the map.** -/
def InBlock (g : Nat × Nat) (k : Int) : Prop :=
  ∃ x y : Nat, k = getCoordId x y ∧ (1 ≤ x ∧ x ≤ b.nx ∧ 1 ≤ y ∧ y ≤ b.ny) ∧ (x ≤ g.1 + 1 ∧ g.1 ≤ x + 1) ∧
    (y ≤ g.2 + 1 ∧ g.2 ≤ y + 1)

theorem ceil_mono {m n : Nat} (h : m ≤ n) : b.ceil m ≤ b.ceil n := by
  apply Nat.div_le_div_right
  omega

theorem ceil_pos {n : Nat} (h : 0 < n) : 1 ≤ b.ceil n := by
  have := b.offset_pos
  apply (Nat.le_div_iff_mul_le b.offset_pos).2
  omega

theorem ceil_le (n : Nat) : b.ceil n ≤ n := by
  have hpos := b.offset_pos
  rcases Nat.eq_zero_or_pos n with rfl | hn
  · apply Nat.le_of_lt_succ
    apply (Nat.div_lt_iff_lt_mul hpos).2
    omega
  · apply Nat.le_of_lt_succ
    apply (Nat.div_lt_iff_lt_mul hpos).2
    have : n * 1 ≤ n * b.offset := Nat.mul_le_mul_left n hpos
    rw [Nat.succ_mul]
    omega

theorem nx_lt : b.nx < 10000 := Nat.lt_of_le_of_lt (b.ceil_le b.width) b.narrow

theorem isGrid_getCoordId {x y : Nat} (hx : x < 10000) :
    b.isGrid (getCoordId x y) = true ↔ 1 ≤ x ∧ x ≤ b.nx ∧ 1 ≤ y ∧ y ≤ b.ny := by
  have hmod : getCoordId x y % 10000 = x := by unfold getCoordId; omega
  have hdiv : getCoordId x y / 10000 = y := by unfold getCoordId; omega
  unfold isGrid
  rw [hmod, hdiv, decide_eq_true_iff]
  omega

theorem isGrid_iff {k : Int} :
    b.isGrid k = true ↔ ∃ x y : Nat, k = getCoordId x y ∧ 1 ≤ x ∧ x ≤ b.nx ∧ 1 ≤ y ∧ y ≤ b.ny := by
  have hnx := b.nx_lt
  constructor
  · intro h
    have h' := of_decide_eq_true h
    refine ⟨(k % 10000).toNat, (k / 10000).toNat, ?_, by omega⟩
    unfold getCoordId
    omega
  · rintro ⟨x, y, rfl, h⟩
    exact (b.isGrid_getCoordId (by omega)).2 h

theorem isGrid_getGridKey {x y : Nat} (hx : 0 < x) (hxw : x ≤ b.width) (hy : 0 < y) (hyh : y ≤ b.height) :
    b.isGrid (b.getGridKey x y) = true :=
  b.isGrid_iff.2 ⟨b.ceil x, b.ceil y, rfl, b.ceil_pos hx, b.ceil_mono hxw, b.ceil_pos hy, b.ceil_mono hyh⟩

theorem mem_around_iff {k k' : Int} : k' ∈ b.around k ↔ k' - k ∈ deltaXY ∧ b.isGrid k' = true := by
  unfold around
  rw [List.mem_filter, List.mem_map]
  constructor
  · rintro ⟨⟨v, hv, rfl⟩, hg⟩
    exact ⟨by rwa [add_sub_cancel_left], hg⟩
  · rintro ⟨hv, hg⟩
    exact ⟨⟨k' - k, hv, by omega⟩, hg⟩

theorem neg_mem_deltaXY {v : Int} (h : v ∈ deltaXY) : -v ∈ deltaXY := by
  simp only [deltaXY, getCoordId, List.mem_cons, List.not_mem_nil, or_false] at h ⊢
  omega

theorem mem_around_comm {k k' : Int} (hk : b.isGrid k = true) (hk' : b.isGrid k' = true) :
    k' ∈ b.around k ↔ k ∈ b.around k' := by
  rw [mem_around_iff, mem_around_iff]
  constructor
  · rintro ⟨h, -⟩
    exact ⟨by rw [← Int.neg_sub]; exact neg_mem_deltaXY h, hk⟩
  · rintro ⟨h, -⟩
    exact ⟨by rw [← Int.neg_sub]; exact neg_mem_deltaXY h, hk'⟩

theorem around_nodup (k : Int) : (b.around k).Nodup := by
  apply List.Nodup.filter
  apply List.Nodup.map
  · intro v v' h
    exact Int.add_left_cancel h
  · decide

theorem mem_around {g : Nat × Nat} (hg : b.isGrid (getCoordId g.1 g.2) = true) (hx : g.1 < 10000) {k : Int} :
    k ∈ b.around (getCoordId g.1 g.2) ↔ b.InBlock g k := by
  have hnx := b.nx_lt
  have hg' := (b.isGrid_getCoordId hx).1 hg
  rw [mem_around_iff, isGrid_iff]
  unfold InBlock
  constructor
  · rintro ⟨hd, x, y, rfl, hxy⟩
    refine ⟨x, y, rfl, hxy, ?_⟩
    simp only [deltaXY, getCoordId, List.mem_cons, List.not_mem_nil, or_false] at hd
    omega
  · rintro ⟨x, y, rfl, hxy, hx1, hy1⟩
    refine ⟨?_, x, y, rfl, hxy⟩
    simp only [deltaXY, getCoordId, List.mem_cons, List.not_mem_nil, or_false]
    omega

theorem walkGrids_congr {x y x' y' : Nat} (h : b.toGridXy x y = b.toGridXy x' y') :
    b.walkGrids x y = b.walkGrids x' y' := by
  unfold walkGrids getGridKey
  rw [h]

theorem mem_walkGrids {x y : Nat} (hx : 0 < x) (hxw : x ≤ b.width) (hy : 0 < y) (hyh : y ≤ b.height) {k : Int} :
    k ∈ b.walkGrids x y ↔ b.InBlock (b.toGridXy x y) k :=
  b.mem_around (b.isGrid_getGridKey hx hxw hy hyh) (Nat.lt_of_le_of_lt (b.ceil_mono hxw) b.nx_lt)

end Board
end Aoi
end Sncpp
