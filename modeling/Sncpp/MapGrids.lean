import Mathlib.Data.Finset.Prod
import Mathlib.Tactic.Linarith
import Sncpp.Aoi
/-!
# MapGrids — the grids in a range (`mapAoi:get_grids`)

The centre is shifted away from the borders of the map so that the block of grids around it fits.  On the low side it
is shifted to `range`, which lies in grid `r` and not in the next, so that the block begins at grid 0; and on the high
side of the second axis it is compared with `y - range` and never shifted.
-/
namespace Sncpp
namespace MapGrids

open Aoi (getCoordId)

def ints (a b : Int) : Finset Int := ((List.range (b + 1 - a).toNat).map (fun i : Nat => a + i)).toFinset

theorem mem_ints {a b x : Int} : x ∈ ints a b ↔ a ≤ x ∧ x ≤ b := by
  rw [ints, List.mem_toFinset, List.mem_map]
  constructor
  · rintro ⟨i, hi, rfl⟩
    have hlt := List.mem_range.1 hi
    omega
  · intro h
    exact ⟨(x - a).toNat, List.mem_range.2 (by omega), by omega⟩

theorem card_ints (a b : Int) : (ints a b).card = (b + 1 - a).toNat := by
  rw [ints, List.toFinset_card_of_nodup, List.length_map, List.length_range]
  refine List.nodup_range.map (fun i j hij => ?_)
  have heq : a + (i : Int) = a + j := hij
  omega

structure Map where
  width : Int
  height : Int
  offset : Int
  offset_pos : 0 < offset

namespace Map

variable (m : Map)

def ceil (n : Int) : Int := -(-n / m.offset)

def toGridXy (x y : Int) : Int × Int := (m.ceil x, m.ceil y)

def getGridKey (x y : Int) : Int := getCoordId (m.toGridXy x y).1 (m.toGridXy x y).2

def keys : Finset Int :=
  ((ints 1 (m.ceil m.width)) ×ˢ (ints 1 (m.ceil m.height))).image (fun g => getCoordId g.1 g.2)

def centreX (x range : Int) : Int := if x - range < 0 then range else if m.width < x + range then m.width - range else x

def centreY (y range : Int) : Int := if y - range < 0 then range else if m.height < y - range then m.height - range else y

def getGrids (x y range : Int) : Finset Int × Int × Int :=
  let r := range / m.offset
  let range := r * m.offset
  let x := m.centreX x range
  let y := m.centreY y range
  let key := m.getGridKey x y
  (((ints (-r) r ×ˢ ints (-r) r).image (fun d => key + getCoordId d.1 d.2)).filter (fun k => k ∈ m.keys), x, y)

/-- The keys of the block of side `2 * r + 1` that begins at the grid `(a, b)`. -/
def block (a b r : Int) : Finset Int :=
  (ints a (a + 2 * r) ×ˢ ints b (b + 2 * r)).image (fun g => getCoordId g.1 g.2)

/-- **A full block of grids on the map**, which contains that of the point and has that of the centre in the middle. -/
def FullBlock (x y r : Int) (res : Finset Int × Int × Int) : Prop :=
  ∃ a b, (1 ≤ a ∧ a + 2 * r ≤ m.ceil m.width ∧ 1 ≤ b ∧ b + 2 * r ≤ m.ceil m.height) ∧
    res.1 = block a b r ∧ (res.1.card : Int) = (2 * r + 1) * (2 * r + 1) ∧
    (a ≤ m.ceil x ∧ m.ceil x ≤ a + 2 * r ∧ b ≤ m.ceil y ∧ m.ceil y ≤ b + 2 * r) ∧
    m.toGridXy res.2.1 res.2.2 = (a + r, b + r)

theorem lt_ceil {k n : Int} : k < m.ceil n ↔ k * m.offset < n := by
  rw [ceil, lt_neg, Int.ediv_lt_iff_lt_mul m.offset_pos, neg_mul, neg_lt_neg_iff]

theorem ceil_mono {n n' : Int} (h : n ≤ n') : m.ceil n ≤ m.ceil n' :=
  neg_le_neg (Int.ediv_le_ediv m.offset_pos (neg_le_neg h))

theorem ceil_add_mul (n r : Int) : m.ceil (n + r * m.offset) = m.ceil n + r := by
  rw [ceil, ceil, show -(n + r * m.offset) = -n + -r * m.offset by ring, Int.add_mul_ediv_right _ _ m.offset_pos.ne']
  ring

theorem ceil_sub_mul (n r : Int) : m.ceil (n - r * m.offset) = m.ceil n - r := by
  have h := m.ceil_add_mul (n - r * m.offset) r
  rw [sub_add_cancel] at h
  rw [h, add_sub_cancel_right]

theorem ceil_mul (r : Int) : m.ceil (r * m.offset) = r := by
  have h := m.ceil_add_mul 0 r
  rw [zero_add] at h
  simpa [ceil] using h

theorem range_nonneg {r : Int} (hr : 0 ≤ r) : 0 ≤ r * m.offset := mul_nonneg hr m.offset_pos.le

/-- **The first axis**: the block fits and contains the point exactly if the point does not lie in the first `r` grids. -/
theorem centreX_iff {x r : Int} (hxw : x ≤ m.width) (hr : 0 ≤ r) (hfit : 2 * (r * m.offset) + 1 ≤ m.width) :
    (1 ≤ m.ceil (m.centreX x (r * m.offset)) - r ∧ m.ceil (m.centreX x (r * m.offset)) + r ≤ m.ceil m.width ∧
      m.ceil (m.centreX x (r * m.offset)) - r ≤ m.ceil x ∧ m.ceil x ≤ m.ceil (m.centreX x (r * m.offset)) + r) ↔
    r * m.offset < x := by
  have hrange := m.range_nonneg hr
  rw [centreX]
  split
  · -- the block would begin at grid 0
    next hlow =>
    rw [ceil_mul]
    constructor
    · intro h
      omega
    · intro h
      omega
  · split
    · next hlow hhigh =>
      rw [ceil_sub_mul]
      have hfirst : 2 * r < m.ceil m.width := by
        rw [lt_ceil, mul_assoc]
        omega
      have hle : m.ceil (m.width - 2 * r * m.offset) ≤ m.ceil x := m.ceil_mono (by linarith)
      rw [ceil_sub_mul] at hle
      have hlast := m.ceil_mono hxw
      exact ⟨fun _ => by omega, fun _ => by omega⟩
    · next hlow hhigh =>
      have hle : m.ceil (x + r * m.offset) ≤ m.ceil m.width := m.ceil_mono (by omega)
      rw [ceil_add_mul] at hle
      rw [← lt_ceil]
      constructor
      · intro h
        omega
      · intro h
        omega

/-- **The second axis**: there the point must not lie in the last `r` grids either. -/
theorem centreY_iff {y r : Int} (hyh : y ≤ m.height) (hr : 0 ≤ r) :
    (1 ≤ m.ceil (m.centreY y (r * m.offset)) - r ∧ m.ceil (m.centreY y (r * m.offset)) + r ≤ m.ceil m.height ∧
      m.ceil (m.centreY y (r * m.offset)) - r ≤ m.ceil y ∧ m.ceil y ≤ m.ceil (m.centreY y (r * m.offset)) + r) ↔
    r * m.offset < y ∧ m.ceil y + r ≤ m.ceil m.height := by
  have hrange := m.range_nonneg hr
  rw [centreY]
  split
  · next hlow =>
    rw [ceil_mul]
    constructor
    · intro h
      omega
    · intro h
      omega
  · -- it is never above the map
    next hlow =>
    rw [if_neg (by omega), ← lt_ceil]
    constructor
    · intro h
      omega
    · intro h
      omega

theorem block_subset {a b r : Int}
    (h : 1 ≤ a ∧ a + 2 * r ≤ m.ceil m.width ∧ 1 ≤ b ∧ b + 2 * r ≤ m.ceil m.height) : block a b r ⊆ m.keys := by
  refine Finset.image_subset_image (fun g hg => ?_)
  simp only [Finset.mem_product, mem_ints] at hg ⊢
  omega

/-- **A block has as many keys as grids** exactly if its rows are shorter than those of a key. -/
theorem card_block {a b r : Int} (hr : 0 ≤ r) :
    ((block a b r).card : Int) = (2 * r + 1) * (2 * r + 1) ↔ 2 * r < 10000 := by
  have hside : ∀ c : Int, (((ints c (c + 2 * r)).card : Nat) : Int) = 2 * r + 1 := by
    intro c
    rw [card_ints]
    omega
  have hgrids : (((ints a (a + 2 * r) ×ˢ ints b (b + 2 * r)).card : Nat) : Int) =
    (2 * r + 1) * (2 * r + 1) := by
    rw [Finset.card_product, Nat.cast_mul, hside, hside]
  rw [← hgrids, Nat.cast_inj, block, Finset.card_image_iff]
  constructor
  · intro hinj
    by_contra hlong
    -- the first grid of a row and the last but one of the row below it
    have h1 : (a, b + 1) ∈ (ints a (a + 2 * r) ×ˢ ints b (b + 2 * r) : Finset (Int × Int)) := by
      simp only [Finset.mem_product, mem_ints]
      omega
    have h2 : (a + 10000, b) ∈ (ints a (a + 2 * r) ×ˢ ints b (b + 2 * r) : Finset (Int × Int)) := by
      simp only [Finset.mem_product, mem_ints]
      omega
    have heq := hinj (Finset.mem_coe.2 h1) (Finset.mem_coe.2 h2) (by simp only [getCoordId]; ring)
    have hfst := congrArg Prod.fst heq
    dsimp only at hfst
    omega
  · rintro hshort ⟨x, y⟩ hg ⟨x', y'⟩ hg' heq
    simp only [Finset.mem_coe, Finset.mem_product, mem_ints] at hg hg'
    simp only [getCoordId] at heq
    have hy : y = y' := by omega
    have hx : x = x' := by omega
    rw [hx, hy]

theorem image_around (gx gy r : Int) :
    (ints (-r) r ×ˢ ints (-r) r).image (fun d => getCoordId gx gy + getCoordId d.1 d.2) =
      block (gx - r) (gy - r) r := by
  ext k
  simp only [block, Finset.mem_image, Finset.mem_product, mem_ints, Prod.exists]
  constructor
  · rintro ⟨i, j, h, rfl⟩
    exact ⟨gx + i, gy + j, by omega, by simp only [getCoordId]; ring⟩
  · rintro ⟨x, y, h, rfl⟩
    exact ⟨x - gx, y - gy, by omega, by simp only [getCoordId]; ring⟩

theorem getGrids_eq (x y range : Int) : m.getGrids x y range =
    ((block (m.ceil (m.centreX x (range / m.offset * m.offset)) - range / m.offset)
        (m.ceil (m.centreY y (range / m.offset * m.offset)) - range / m.offset) (range / m.offset)).filter (fun k =>
          k ∈ m.keys),
      m.centreX x (range / m.offset * m.offset), m.centreY y (range / m.offset * m.offset)) := by
  rw [← image_around]
  rfl

/-- **The grids in a range.**  They are a full block with the centre in its middle exactly if the point lies neither in the
first `r` rows and columns nor in the last `r` rows, and the block is shorter than a row of keys. -/
theorem grids_iff {x y range : Int} (hx : x ≤ m.width) (hy : y ≤ m.height) (hrange : 0 ≤ range)
    (hfit : 2 * (range / m.offset) * m.offset + 1 ≤ m.width ∧ 2 * (range / m.offset) * m.offset + 1 ≤ m.height) :
    m.FullBlock x y (range / m.offset) (m.getGrids x y range) ↔
      (range / m.offset * m.offset < x ∧ range / m.offset * m.offset < y ∧
        m.ceil y + range / m.offset ≤ m.ceil m.height) ∧ 2 * (range / m.offset) < 10000 := by
  have hr : 0 ≤ range / m.offset := Int.ediv_nonneg hrange m.offset_pos.le
  have hX := m.centreX_iff hx hr (by rw [← mul_assoc]; exact hfit.1)
  have hY := m.centreY_iff hy hr
  rw [getGrids_eq]
  constructor
  · rintro ⟨a, b, hblock, hkeys, hcard, hpoint, hcentre⟩
    simp only [toGridXy, Prod.mk.injEq] at hcentre
    rw [hkeys, card_block hr] at hcard
    exact ⟨⟨hX.1 (by omega), hY.1 (by omega)⟩, hcard⟩
  · rintro ⟨⟨hlow, hrow⟩, hshort⟩
    have hfitX := hX.2 hlow
    have hfitY := hY.2 hrow
    rw [Finset.filter_true_of_mem (fun k hk => m.block_subset (by omega) hk)]
    exact ⟨_, _, by omega, rfl, (card_block hr).2 hshort, by omega, by rw [toGridXy, sub_add_cancel, sub_add_cancel]⟩

end Map

def smallMap : Map := ⟨10, 10, 2, by decide⟩

theorem grids_iff_smallMap : ((5 : Int) ≤ 10 ∧ (5 : Int) ≤ 10 ∧ (0 : Int) ≤ 3 ∧ 2 * ((3 : Int) / 2) * 2 + 1 ≤ 10) ∧
    (smallMap.FullBlock 5 5 (3 / smallMap.offset) (smallMap.getGrids 5 5 3) ↔
      (3 / smallMap.offset * smallMap.offset < 5 ∧ 3 / smallMap.offset * smallMap.offset < 5 ∧
        smallMap.ceil 5 + 3 / smallMap.offset ≤ smallMap.ceil smallMap.height) ∧ 2 * (3 / smallMap.offset) < 10000) :=
  ⟨by decide, smallMap.grids_iff (by decide) (by decide) (by decide) (by decide)⟩

/-- In the first corner only 4 of 9 grids are there, and in the middle of the last row 6. -/
theorem not_full_smallMap :
    ¬smallMap.FullBlock 1 1 1 (smallMap.getGrids 1 1 3) ∧ ¬smallMap.FullBlock 5 10 1 (smallMap.getGrids 5 10 3) := by
  have hcorner : (smallMap.getGrids 1 1 3).1.card = 4 := by decide +kernel
  have hlast : (smallMap.getGrids 5 10 3).1.card = 6 := by decide +kernel
  constructor
  · rintro ⟨a, b, -, -, hfull, -⟩
    rw [hcorner] at hfull
    revert hfull
    decide
  · rintro ⟨a, b, -, -, hfull, -⟩
    rw [hlast] at hfull
    revert hfull
    decide

end MapGrids
end Sncpp
