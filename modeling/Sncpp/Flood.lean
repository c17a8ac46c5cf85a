import Mathlib.Data.Finset.Card
/-!
# Flood — a search that marks what it comes to

Each node has a list of neighbours.  The search marks a node when it comes to it, and goes on to those of its neighbours
that are not marked.  Where the nodes are finitely many it comes to an end (`loop_returns`), and begun with nothing marked
it marks what can be reached from where it begins (`mem_loop_iff`).
-/
namespace Sncpp
namespace Flood

variable {ζ : Type} [DecidableEq ζ] (nbrs : ζ → List ζ)

/-- The loop over some nodes; `rec` is the search from one that is not marked. -/
def loop (rec : ζ → List ζ → Option (List ζ)) : List ζ → List ζ → Option (List ζ)
  | [], marks => some marks
  | z :: l, marks => if z ∈ marks then loop rec l marks else (rec z marks).bind (loop rec l)

/-- The search from a node, and what is marked after it. -/
def flood : Nat → ζ → List ζ → Option (List ζ)
  | 0, _, _ => none
  | n + 1, z, marks => loop (flood n) (nbrs z) (z :: marks)

def Edge (z y : ζ) : Prop := y ∈ nbrs z

/-- Marks stay, and the neighbours of what gets a mark have one. -/
structure Spread (marks marks' : List ζ) : Prop where
  grows : marks ⊆ marks'
  closed : ∀ u ∈ marks', u ∉ marks → ∀ y ∈ nbrs u, y ∈ marks'

variable {nbrs} {marks marks' : List ζ}

omit [DecidableEq ζ] in
theorem Spread.refl (marks : List ζ) : Spread nbrs marks marks where
  grows := List.Subset.refl _
  closed _ hu hnot := absurd hu hnot

theorem Spread.trans {marks'' : List ζ} (h : Spread nbrs marks marks') (h' : Spread nbrs marks' marks'') :
    Spread nbrs marks marks'' where
  grows := List.Subset.trans h.grows h'.grows
  closed u hu hnot y hy := by
    by_cases hmem : u ∈ marks'
    · exact h'.grows (h.closed u hmem hnot y hy)
    · exact h'.closed u hu hmem y hy

/-- What a search from `z` does. -/
structure Marks (nbrs : ζ → List ζ) (z : ζ) (marks marks' : List ζ) : Prop extends Spread nbrs marks marks' where
  self : z ∈ marks'
  sound : ∀ u ∈ marks', u ∈ marks ∨ Relation.ReflTransGen (Edge nbrs) z u

/-- **A loop marks its nodes, and what it marks can be reached from them.** -/
theorem loop_marks {rec : ζ → List ζ → Option (List ζ)}
    (hrec : ∀ z marks marks', rec z marks = some marks' → Marks nbrs z marks marks') :
    ∀ (l marks : List ζ), loop rec l marks = some marks' → Spread nbrs marks marks' ∧ (∀ z ∈ l, z ∈ marks') ∧
      ∀ u ∈ marks', u ∈ marks ∨ ∃ z ∈ l, Relation.ReflTransGen (Edge nbrs) z u
  | [], marks, h => by
    obtain rfl := Option.some.inj h
    exact ⟨Spread.refl _, fun _ hz => absurd hz List.not_mem_nil, fun u hu => Or.inl hu⟩
  | z :: l, marks, h => by
    rw [loop] at h
    split_ifs at h with hz
    · obtain ⟨hspread, hall, hsound⟩ := loop_marks hrec l marks h
      refine ⟨hspread, fun y hy => ?_, fun u hu => ?_⟩
      · rcases List.mem_cons.1 hy with rfl | hy
        · exact hspread.grows hz
        · exact hall y hy
      · exact (hsound u hu).imp_right (fun ⟨y, hy, hr⟩ => ⟨y, List.mem_cons_of_mem _ hy, hr⟩)
    · obtain ⟨c, hc, h⟩ := Option.bind_eq_some_iff.1 h
      have hmarks := hrec z marks c hc
      obtain ⟨hspread, hall, hsound⟩ := loop_marks hrec l c h
      refine ⟨hmarks.toSpread.trans hspread, fun y hy => ?_, fun u hu => ?_⟩
      · rcases List.mem_cons.1 hy with rfl | hy
        · exact hspread.grows hmarks.self
        · exact hall y hy
      · rcases hsound u hu with hu | ⟨y, hy, hr⟩
        · exact (hmarks.sound u hu).imp_right (fun hr => ⟨z, List.mem_cons_self, hr⟩)
        · exact Or.inr ⟨y, List.mem_cons_of_mem _ hy, hr⟩

theorem flood_marks : ∀ (n : Nat) (z : ζ) (marks marks' : List ζ), flood nbrs n z marks = some marks' →
    Marks nbrs z marks marks'
  | 0, _, _, _, h => by cases h
  | n + 1, z, marks, marks', h => by
    obtain ⟨hspread, hall, hsound⟩ := loop_marks (flood_marks n) (nbrs z) (z :: marks) h
    refine ⟨⟨fun u hu => hspread.grows (List.mem_cons_of_mem _ hu), fun u hu hnot y hy => ?_⟩,
      hspread.grows List.mem_cons_self, fun u hu => ?_⟩
    · by_cases hz : u = z
      · subst hz
        exact hall y hy
      · exact hspread.closed u hu (fun hmem => (List.mem_cons.1 hmem).elim hz hnot) y hy
    · rcases hsound u hu with hu | ⟨y, hy, hr⟩
      · rcases List.mem_cons.1 hu with rfl | hu
        · exact Or.inr .refl
        · exact Or.inl hu
      · exact Or.inr (.head hy hr)

theorem mem_loop_iff {n : Nat} {l : List ζ} (h : loop (flood nbrs n) l [] = some marks) (u : ζ) :
    u ∈ marks ↔ ∃ z ∈ l, Relation.ReflTransGen (Edge nbrs) z u := by
  obtain ⟨hspread, hall, hsound⟩ := loop_marks (flood_marks n) l [] h
  constructor
  · intro hu
    exact (hsound u hu).resolve_left List.not_mem_nil
  · rintro ⟨z, hz, hr⟩
    induction hr with
    | refl => exact hall z hz
    | tail _ hedge ih => exact hspread.closed _ ih List.not_mem_nil _ hedge

theorem loop_some {rec : ζ → List ζ → Option (List ζ)}
    (hgrows : ∀ z marks marks', rec z marks = some marks' → marks ⊆ marks') :
    ∀ (l marks : List ζ), (∀ z ∈ l, ∀ c, marks ⊆ c → z ∉ c → ∃ c', rec z c = some c') → ∃ c', loop rec l marks = some c'
  | [], marks, _ => ⟨marks, rfl⟩
  | z :: l, marks, hrec => by
    rw [loop]
    split_ifs with hz
    · exact loop_some hgrows l marks (fun y hy => hrec y (List.mem_cons_of_mem _ hy))
    · obtain ⟨c, hc⟩ := hrec z List.mem_cons_self marks (List.Subset.refl _) hz
      rw [hc]
      exact loop_some hgrows l c (fun y hy c' hsub =>
        hrec y (List.mem_cons_of_mem _ hy) c' (List.Subset.trans (hgrows z marks c hc) hsub))

variable {zs : Finset ζ}

theorem card_unmarked_lt {z : ζ} (hz : z ∈ zs) (hnot : z ∉ marks) {c : List ζ} (hsub : z :: marks ⊆ c) :
    (zs \ c.toFinset).card < (zs \ marks.toFinset).card := by
  refine Finset.card_lt_card ⟨fun u hu => ?_, fun hle => ?_⟩
  · rw [Finset.mem_sdiff, List.mem_toFinset] at hu ⊢
    exact ⟨hu.1, fun hmem => hu.2 (hsub (List.mem_cons_of_mem _ hmem))⟩
  · have hmem := hle (Finset.mem_sdiff.2 ⟨hz, fun hmem => hnot (List.mem_toFinset.1 hmem)⟩)
    exact (Finset.mem_sdiff.1 hmem).2 (List.mem_toFinset.2 (hsub List.mem_cons_self))

/-- **A search comes to an end**: it goes no deeper than there are nodes to mark. -/
theorem flood_some (hzs : ∀ z ∈ zs, ∀ y ∈ nbrs z, y ∈ zs) : ∀ (n : Nat) (z : ζ) (marks : List ζ), z ∈ zs → z ∉ marks →
    (zs \ marks.toFinset).card ≤ n → ∃ c, flood nbrs n z marks = some c
  | 0, z, marks, hz, hnot, hcard => by
    have hlt := card_unmarked_lt hz hnot (List.Subset.refl (z :: marks))
    omega
  | n + 1, z, marks, hz, hnot, hcard => by
    refine loop_some (fun z c c' hc => (flood_marks n z c c' hc).grows) (nbrs z) (z :: marks) (fun y hy c hsub hy' => ?_)
    have hlt := card_unmarked_lt hz hnot hsub
    exact flood_some hzs n y c (hzs z hz y hy) hy' (by omega)

theorem loop_returns (hzs : ∀ z ∈ zs, ∀ y ∈ nbrs z, y ∈ zs) {n : Nat} (hcard : zs.card ≤ n) {l : List ζ}
    (hl : ∀ z ∈ l, z ∈ zs) : ∃ c, loop (flood nbrs n) l [] = some c := by
  refine loop_some (fun z c c' hc => (flood_marks n z c c' hc).grows) l [] (fun z hz c _ hnot => ?_)
  exact flood_some hzs n z c (hl z hz) hnot (le_trans (Finset.card_le_card Finset.sdiff_subset) hcard)

end Flood
end Sncpp
