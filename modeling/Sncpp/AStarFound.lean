import Sncpp.AStarPath
/-!
# AStarFound — what a path that is found has, whatever was searched before

The points of a path are cells that the search knows.  A search of one who may use no station leaves no cell with the mark
of the railway.
-/
namespace Sncpp
namespace AStar

variable {n : Nat} {C : Type}

def Field.Unmarked (s : Field n C) : Prop := ∀ p, (s.node p).israilway = false

theorem Field.Unmarked.setNode {s : Field n C} (hs : s.Unmarked) (p : Pos n) {v : Node n C} (hv : v.israilway = false) :
    (s.setNode p v).Unmarked := by
  intro x
  show (Function.update s.node p v x).israilway = false
  by_cases hx : x = p
  · rw [hx, Function.update_self, hv]
  · rw [Function.update_of_ne hx]
    exact hs x

namespace Query

variable [Add C] [LT C] [DecidableLT C] {q : Query n C} {start goal p : Pos n} {s : Field n C}

theorem setVertex_unmarked (hs : s.Unmarked) : (q.setVertex goal s p).Unmarked := by
  unfold setVertex
  split
  · exact hs
  split
  · exact hs
  split
  · exact hs
  · next m g _ => exact hs.setNode p (v := { s.node p with parent := some m, g := g, f := g + q.estimate2 p goal }) (hs p)

theorem expand_unmarked (hu : ∀ key, q.usable key = false) (hs : s.Unmarked) : (q.expand goal s p).Unmarked := by
  have hfoot : ((window q.nb).foldl (q.walkTo goal p) s).Unmarked := by
    refine Steps.inv_of_run (fun t d ht => ?_) (window q.nb) s hs
    rcases q.walkTo_cases goal p t d with ⟨heq, -⟩ | ⟨m, -, -, -, -, -, -, heq⟩
    · rwa [heq]
    rw [heq]
    intro x
    obtain ⟨hother, hself⟩ := reach_node q goal t m (t.node2 p)
      ((t.node (t.node2 p)).g + q.walk m.1 m.2 (t.node2 p).1 (t.node2 p).2) false
    by_cases hx : x = m
    · rw [hx]
      rcases hself with hsame | ⟨-, hrail, -⟩
      · rw [hsame]
        exact ht m
      · rw [hrail, ht m, Bool.or_false]
    · rw [hother x hx]
      exact ht x
  unfold expand
  simp only
  split
  · rw [hu, if_neg Bool.false_ne_true]
    exact hfoot
  · exact hfoot

variable [Zero C]

theorem getPath_unmarked (hs : s.Tidy) (hu : ∀ key, q.usable key = false) {fuel x₁ y₁ x₂ y₂ : Nat} {ptr : List (Pos n)}
    {s' : Field n C} {path : List (Pos n)} (h : q.getPath fuel x₁ y₁ x₂ y₂ ptr s = some (s', some path)) :
    s'.Unmarked := by
  unfold getPath at h
  split at h
  case h_2 => cases h
  next start goal _ _ =>
  split at h
  · cases h
  split at h
  · cases h
  · cases h
  next t hsearch =>
  split at h
  · cases h
  obtain ⟨rfl, -⟩ := Prod.mk.inj (Option.some.inj h)
  have hstart : (q.openStart goal start s).Unmarked := by
    have hblank : Field.Unmarked (⟨fun p => if p ∈ s.clear then Node.blank else s.node p, { s.openset with elts := [] },
        [start], []⟩ : Field n C) := by
      intro x
      show (if x ∈ s.clear then Node.blank else s.node x).israilway = false
      split
      · rfl
      · next hx => rw [hs x hx]; rfl
    exact hblank.setNode start (v := ⟨0, 0 + q.estimate2 start goal, true, false, q.usable start.id, none⟩) (hu _)
  have hpop : ∀ {t t₁ : Field n C} {p : Pos n}, t.Unmarked → pop t = some (p, t₁) → t₁.Unmarked := by
    intro t t₁ p ht hpop
    unfold pop at hpop
    split at hpop
    · cases hpop
    · obtain ⟨rfl, rfl⟩ := Prod.mk.inj (Option.some.inj hpop)
      exact ht.setNode _ (ht _)
  exact (search_rule q goal (I := Field.Unmarked) (F := Field.Unmarked)
    (fun t p t₁ ht hp _ => expand_unmarked hu (setVertex_unmarked (hpop ht hp)))
    (fun t t₁ ht hp => setVertex_unmarked (hpop ht hp)) fuel _ t true hstart hsearch).1 rfl

theorem getPath_tidy (hs : s.Tidy) {fuel : Nat} (hfuel : n * n < fuel) {x₁ y₁ x₂ y₂ : Nat} {ptr : List (Pos n)}
    {s' : Field n C} {path : Option (List (Pos n))} (h : q.getPath fuel x₁ y₁ x₂ y₂ ptr s = some (s', path)) :
    s'.Tidy := by
  obtain ⟨t, hrun, ht⟩ := Call.run_tidy hs hfuel ⟨q, x₁, y₁, x₂, y₂, ptr⟩
  obtain ⟨r, hr, rfl⟩ := Option.map_eq_some_iff.1 hrun
  obtain rfl := Option.some.inj (h.symm.trans hr)
  exact ht

/-- **The points of a path are no walls**; they come behind those that were there, and without these they are a path from the
start to the goal. -/
theorem getPath_found (hs : s.Tidy) {fuel : Nat} (hfuel : n * n < fuel) {ptr path : List (Pos n)} {s' : Field n C}
    (h : q.getPath fuel start.1 start.2 goal.1 goal.2 ptr s = some (s', some path)) : ∃ cells,
      path = ptr ++ (if ptr.getLast? = some start then [] else [start]) ++ cells ++ [goal] ∧
      q.getPath fuel start.1 start.2 goal.1 goal.2 [] s = some (s', some (start :: cells ++ [goal])) ∧
      ∀ p ∈ start :: cells ++ [goal], q.subzone p ≠ WALL ∧ p ∈ s'.clear := by
  by_cases hw : q.subzone start = WALL ∨ q.subzone goal = WALL
  · unfold getPath at h
    rw [spot_eq_some.2 ⟨rfl, rfl⟩, spot_eq_some.2 ⟨rfl, rfl⟩] at h
    simp [hw] at h
  rw [not_or] at hw
  obtain ⟨t, -, ⟨-, hget⟩ | ⟨hsearch, -, cells, hcells, hget⟩⟩ := getPath_ends hs hw.1 hw.2 hfuel ptr
  · cases hget.symm.trans h
  obtain ⟨rfl, hpath⟩ := Prod.mk.inj (Option.some.inj (hget.symm.trans h))
  obtain ⟨t', hi, ⟨hlost, -⟩ | ⟨hsearch', hgoal, cells', hcells', hget'⟩⟩ := getPath_ends hs hw.1 hw.2 hfuel []
  · cases hlost.symm.trans hsearch
  obtain ⟨rfl, -⟩ := Prod.mk.inj (Option.some.inj (hsearch'.symm.trans hsearch))
  obtain rfl := Option.some.inj (hcells'.symm.trans hcells)
  refine ⟨cells', (Option.some.inj hpath).symm, hget', ?_⟩
  obtain ⟨hstart, hmem⟩ := chain_taken hi fuel goal cells' hgoal hcells'
  intro p hp
  have htaken : p ∈ t'.taken := by
    rw [List.mem_append, List.mem_cons, List.mem_singleton] at hp
    rcases hp with (rfl | hp) | rfl
    · exact hstart
    · exact hmem p hp
    · exact hgoal
  exact ⟨(hi.ground p (hi.known_taken htaken)).1, hi.clear p (hi.known_taken htaken)⟩

end Query
end AStar
end Sncpp
