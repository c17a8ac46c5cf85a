import Mathlib.Data.List.TakeWhile
import Sncpp.Aoi
import Sncpp.Line
/-!
# GridLine — the cells that a line over a grid visits

`queueAoi:lineThroughGrids` and `AStar::LineOfSight2` go along a line by one loop, the first as long as the map has a
grid there, the second as long as the zone is its own.
-/
namespace Sncpp
namespace GridLine

open Aoi (getCoordId)

variable {σ γ : Type}

/-- The loop: `visit` does what there is to be done with a cell, and says whether to go on.  It returns what has been done,
where it has been and whether it came to the end. -/
def loop (visit : σ → Int × Int → σ × Bool) (l : Line) :
    Nat → Line.Pen → σ → List (Int × Int) → Option (σ × List (Int × Int) × Bool)
  | 0, _, _, _ => none
  | fuel + 1, pen, s, cells =>
    let visited := visit s (pen.x, pen.y)
    let cells := cells ++ [(pen.x, pen.y)]
    if visited.2 then
      if pen.x = l.x₁ ∧ pen.y = l.y₁ then some (visited.1, cells, true)
      else loop visit l fuel (l.step pen) visited.1 cells
    else some (visited.1, cells, false)

/-- `queueAoi:init`: the map has a grid for each pair of coordinates; `new` makes that of a key. -/
def init (new : Int → γ) (nx ny : Nat) : Int → Option γ :=
  (List.range nx).foldl (fun grids (x : Nat) => (List.range ny).foldl (fun grids (y : Nat) =>
    let key := getCoordId (x + 1) (y + 1)
    Function.update grids key (some (new key))) grids) fun _ => none

def addGrid (grids ret : Int → Option γ) (c : Int × Int) : (Int → Option γ) × Bool :=
  let key := getCoordId c.1 c.2
  match grids key with
  | none => (ret, false)
  | some grid => (Function.update ret key (some grid), true)

def lineThroughGrids (grids : Int → Option γ) (l : Line) (fuel : Nat) (ret : Int → Option γ) :
    Option ((Int → Option γ) × List (Int × Int) × Bool) :=
  loop (addGrid grids) l fuel l.start ret []

def WALL : Int := 500

/-- Whether one sees through a cell; `grid` has the zones by row and column. -/
def clear (grid : Int → Int → Int) (subzone₀ : Int) (c : Int × Int) : Bool :=
  let subzone := grid c.2 c.1
  !(subzone == WALL || subzone != subzone₀)

def lineOfSight2 (grid : Int → Int → Int) (subzone₀ : Int) (l : Line) (fuel : Nat) : Option (List (Int × Int) × Bool) :=
  (loop (fun _ c => ((), clear grid subzone₀ c)) l fuel l.start () []).map Prod.snd

def Inside (nx ny : Nat) (l : Line) : Prop :=
  (1 ≤ l.x₀ ∧ l.x₀ ≤ nx ∧ 1 ≤ l.y₀ ∧ l.y₀ ≤ ny) ∧ 1 ≤ l.x₁ ∧ l.x₁ ≤ nx ∧ 1 ≤ l.y₁ ∧ l.y₁ ≤ ny

instance (nx ny : Nat) (l : Line) : Decidable (Inside nx ny l) := inferInstanceAs (Decidable (_ ∧ _))

/-- `cells` is as much of the line as one sees: all of it, or up to the first cell that is not clear. -/
def Sees (clear : Int × Int → Bool) (line cells : List (Int × Int)) (sees : Bool) : Prop :=
  (sees = true ∧ cells = line ∧ ∀ c ∈ line, clear c) ∨
    sees = false ∧ ∃ seen c rest, line = seen ++ c :: rest ∧ cells = seen ++ [c] ∧ (∀ d ∈ seen, clear d) ∧ clear c = false

/-- **The loop ends, and has been to the cells up to the first where it does not go on.** -/
theorem loop_spec (visit : σ → Int × Int → σ × Bool) (ok : Int × Int → Bool) (hok : ∀ s c, (visit s c).2 = ok c) (l : Line) :
    ∀ (fuel k : Nat) (s : σ) (cells : List (Int × Int)), k ≤ l.steps → l.steps < fuel + k →
      ∃ seen sees, loop visit l fuel (l.pen k) s cells =
          some (seen.foldl (fun s c => (visit s c).1) s, cells ++ seen, sees) ∧ Sees ok (l.cellsFrom k) seen sees
  | 0, k, _, _, hk, hfuel => by omega
  | fuel + 1, k, s, cells, hk, hfuel => by
    rw [l.cellsFrom_succ hk, loop]
    simp only [hok]
    cases hc : ok ((l.pen k).x, (l.pen k).y) with
    | false =>
      exact ⟨[((l.pen k).x, (l.pen k).y)], false, rfl, Or.inr ⟨rfl, [], _, _, rfl, rfl, List.forall_mem_nil _, hc⟩⟩
    | true =>
      rcases Nat.lt_or_ge k l.steps with hlt | hge
      · obtain ⟨seen, sees, heq, hsees⟩ := loop_spec visit ok hok l fuel (k + 1)
          (visit s ((l.pen k).x, (l.pen k).y)).1 (cells ++ [((l.pen k).x, (l.pen k).y)]) hlt (by omega)
        refine ⟨((l.pen k).x, (l.pen k).y) :: seen, sees, ?_, ?_⟩
        · rw [if_pos rfl, if_neg (l.pen_ne hlt), ← l.pen_succ, heq, List.append_assoc]
          rfl
        · rcases hsees with ⟨hsees, hseen, hclear⟩ | ⟨hsees, before, c, rest, hline, hseen, hclear, hblock⟩
          · refine Or.inl ⟨hsees, by rw [hseen], fun d hd => ?_⟩
            rcases List.mem_cons.1 hd with rfl | hd
            · exact hc
            · exact hclear d hd
          · refine Or.inr ⟨hsees, ((l.pen k).x, (l.pen k).y) :: before, c, rest, ?_, ?_, fun d hd => ?_, hblock⟩
            · rw [hline, List.cons_append]
            · rw [hseen, List.cons_append]
            · rcases List.mem_cons.1 hd with rfl | hd
              · exact hc
              · exact hclear d hd
      · obtain rfl : k = l.steps := by omega
        refine ⟨[((l.pen l.steps).x, (l.pen l.steps).y)], true, ?_, Or.inl ⟨rfl, ?_, fun d hd => ?_⟩⟩
        · rw [if_pos rfl, if_pos l.pen_last]
          rfl
        · rw [l.cellsFrom_last]
        · rw [l.cellsFrom_last] at hd
          obtain rfl := List.mem_singleton.1 hd
          exact hc

theorem loop_cells (visit : σ → Int × Int → σ × Bool) (ok : Int × Int → Bool) (hok : ∀ s c, (visit s c).2 = ok c) (l : Line)
    {fuel : Nat} (hfuel : max l.dx l.dy < fuel) (s : σ) : ∃ seen sees, loop visit l fuel l.start s [] =
      some (seen.foldl (fun s c => (visit s c).1) s, seen, sees) ∧ Sees ok l.cells seen sees := by
  have hspec := loop_spec visit ok hok l fuel 0 s [] (Nat.zero_le _) hfuel
  rwa [← l.cells_eq_cellsFrom] at hspec

theorem foldl_update (new : Int → γ) (keys : List Int) (grids : Int → Option γ) (key : Int) :
    keys.foldl (fun grids key => Function.update grids key (some (new key))) grids key =
      if key ∈ keys then some (new key) else grids key := by
  induction keys generalizing grids with
  | nil => rfl
  | cons k keys ih =>
    rw [List.foldl_cons, ih, Function.update_apply]
    by_cases hk : key = k
    · simp [hk]
    · simp [hk]

theorem init_eq (new : Int → γ) (nx ny : Nat) (key : Int) : init new nx ny key =
    if key ∈ (List.range nx).flatMap (fun x : Nat => (List.range ny).map fun y : Nat => getCoordId (x + 1) (y + 1)) then
      some (new key) else none := by
  rw [← foldl_update new _ (fun _ => none) key, List.foldl_flatMap]
  simp only [List.foldl_map]
  rfl

theorem init_inside (new : Int → γ) {nx ny : Nat} {x y : Int} (hx : 1 ≤ x ∧ x ≤ nx) (hy : 1 ≤ y ∧ y ≤ ny) :
    init new nx ny (getCoordId x y) = some (new (getCoordId x y)) := by
  obtain ⟨a, rfl⟩ : ∃ a : Nat, x = a + 1 := ⟨(x - 1).toNat, by omega⟩
  obtain ⟨b, rfl⟩ : ∃ b : Nat, y = b + 1 := ⟨(y - 1).toNat, by omega⟩
  rw [init_eq, if_pos]
  refine List.mem_flatMap.2 ⟨a, List.mem_range.2 (by omega), List.mem_map.2 ⟨b, List.mem_range.2 (by omega), rfl⟩⟩

theorem init_box (new : Int → γ) {nx ny : Nat} {l : Line} (h : Inside nx ny l) {line : List (Int × Int)}
    (hline : l.Complete line) {c : Int × Int} (hc : c ∈ line) :
    init new nx ny (getCoordId c.1 c.2) = some (new (getCoordId c.1 c.2)) := by
  obtain ⟨⟨hx₀, hx₀', hy₀, hy₀'⟩, hx₁, hx₁', hy₁, hy₁'⟩ := h
  obtain ⟨hx, hx', hy, hy'⟩ := hline.box c hc
  exact init_inside new (by omega) (by omega)

theorem addGrid_snd (grids ret : Int → Option γ) (c : Int × Int) :
    (addGrid grids ret c).2 = (grids (getCoordId c.1 c.2)).isSome := by
  simp only [addGrid]
  cases grids (getCoordId c.1 c.2) <;> rfl

theorem through_eq (new : Int → γ) {nx ny : Nat} {l : Line} (hl : Inside nx ny l) {fuel : Nat} (hfuel : max l.dx l.dy < fuel)
    (ret : Int → Option γ) : ∃ ret', lineThroughGrids (init new nx ny) l fuel ret = some (ret', l.cells, true) ∧
      ∀ key, ret' key = if key ∈ l.cells.map (fun c => getCoordId c.1 c.2) then some (new key) else ret key := by
  have hgrid : ∀ c ∈ l.cells, init new nx ny (getCoordId c.1 c.2) = some (new (getCoordId c.1 c.2)) :=
    fun c hc => init_box new hl l.cells_complete hc
  obtain ⟨seen, sees, heq, hsees⟩ := loop_cells (addGrid (init new nx ny)) _ (addGrid_snd _) l hfuel ret
  rcases hsees with ⟨rfl, rfl, -⟩ | ⟨-, before, c, rest, hline, -, -, hblock⟩
  · refine ⟨_, heq, fun key => ?_⟩
    rw [← foldl_update, List.foldl_map]
    refine congrFun (List.foldl_ext _ _ ret fun ret c hc => ?_) key
    simp only [addGrid, hgrid c hc]
  · have hc := hgrid c (by rw [hline]; exact List.mem_append_right before List.mem_cons_self)
    simp only [hc] at hblock
    cases hblock

/-- **Both lines visit all the cells**, one if the ends are on the map and one if nothing stands in the sight: as many as the
longer side of the box and one more, from end to end.  A sight ends at the first cell that is not clear. -/
theorem lines_complete (l : Line) {fuel : Nat} (hfuel : max l.dx l.dy < fuel) : ∃ line, l.Complete line ∧
    (∀ (new : Int → γ) (nx ny : Nat) (ret : Int → Option γ), Inside nx ny l →
      ∃ ret', lineThroughGrids (init new nx ny) l fuel ret = some (ret', line, true) ∧ ∀ key, ret' key =
        if key ∈ line.map (fun c => getCoordId c.1 c.2) then some (new key) else ret key) ∧
    ∀ (grid : Int → Int → Int) (subzone₀ : Int), ∃ cells sees,
      lineOfSight2 grid subzone₀ l fuel = some (cells, sees) ∧ Sees (clear grid subzone₀) line cells sees := by
  refine ⟨l.cells, l.cells_complete, fun new nx ny ret hl => through_eq new hl hfuel ret, fun grid subzone₀ => ?_⟩
  obtain ⟨seen, sees, heq, hsees⟩ :=
    loop_cells (fun _ c => ((), clear grid subzone₀ c)) (clear grid subzone₀) (fun _ _ => rfl) l hfuel ()
  exact ⟨seen, sees, by rw [lineOfSight2, heq]; rfl, hsees⟩

theorem lines_complete_slope : ∃ line, Line.Complete ⟨1, 4, 6, 2⟩ line ∧ ∃ ret',
    lineThroughGrids (init (fun key => key) 8 8) ⟨1, 4, 6, 2⟩ 6 (fun _ => none) = some (ret', line, true) := by
  obtain ⟨line, hcomplete, hthrough, -⟩ := @lines_complete Int ⟨1, 4, 6, 2⟩ 6 (by decide)
  obtain ⟨ret', heq, -⟩ := hthrough (fun key => key) 8 8 (fun _ => none) (by decide)
  exact ⟨line, hcomplete, ret', heq⟩

/-- A wall at the start of a sight: it has been to one cell of two. -/
theorem walled_ends : ¬∃ fuel cells sees, lineOfSight2 (fun _ _ => WALL) 1 ⟨1, 1, 2, 1⟩ fuel = some (cells, sees) ∧
    Line.Complete ⟨1, 1, 2, 1⟩ cells := by
  rintro ⟨fuel, cells, sees, heq, hcomplete⟩
  cases fuel with
  | zero => cases heq
  | succ fuel =>
    have hcells : cells = [(1, 1)] := (congrArg Prod.fst (Option.some.inj heq)).symm
    have hlength := hcomplete.length
    rw [hcells] at hlength
    revert hlength
    decide

end GridLine
end Sncpp
