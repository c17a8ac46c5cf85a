import Mathlib.Data.Fintype.Prod
import Sncpp.AStar
import Sncpp.Steps
/-!
# AStarRun — what a search keeps

The invariant of the loop of `getPath`.  The open cells are those in the heap, the closed ones those that were taken from
it, each once; a parent was taken before its child (`Inv`).  A cell that is known, open or closed, stays known (`Stays`),
and the turn that takes a cell makes all the cells known that an edge of the graph leads to (`expand_spec`).
-/
namespace Sncpp
namespace AStar

variable {n : Nat} {C : Type}

/-- **The line from one cell to another stays in the zone it starts in.** -/
def Chart.Seen (c : Chart n) (p m : Pos n) : Prop := ∀ z ∈ (Chart.line p m).cells, c.subzoneAt z = some (c.subzone p)

/-- Neither coordinate of two cells differs by more than `k`. -/
def Within (k : Nat) (p m : Pos n) : Prop := ((m.1 : Int) - p.1).natAbs ≤ k ∧ ((m.2 : Int) - p.2).natAbs ≤ k

def station (n : Nat) (key : Int) : Option (Pos n) := spot n (key.tmod MOD) (key.tdiv MOD)

/-- A railway from a cell to the station of another, both of them usable. -/
def Query.Rail (q : Query n C) (p m : Pos n) : Prop :=
  q.usable p.id = true ∧ ∃ vec, q.railway.lookup p.id = some vec ∧
    ∃ r ∈ vec, q.usable r.id = true ∧ station n r.id = some m

def Query.Edge (q : Query n C) (p m : Pos n) : Prop :=
  q.subzone m ≠ WALL ∧ (Within 1 p m ∧ q.sameZone p m = true ∨
    Within q.nb p m ∧ q.usable m.id = true ∧ q.Seen p m ∨ q.Rail p m)

def Query.Reachable (q : Query n C) : Pos n → Pos n → Prop := Relation.ReflTransGen q.Edge

theorem spot_eq_some {x y : Int} {p : Pos n} : spot n x y = some p ↔ x = p.1 ∧ y = p.2 := by
  obtain ⟨⟨a, ha⟩, ⟨b, hb⟩⟩ := p
  unfold spot
  split
  · next h =>
    rw [Option.some.injEq, Prod.mk.injEq, Fin.mk.injEq, Fin.mk.injEq]
    show x.toNat = a ∧ y.toNat = b ↔ x = (a : Int) ∧ y = (b : Int)
    omega
  · next h =>
    refine ⟨nofun, fun hxy => absurd ?_ h⟩
    have hx : x = (a : Int) := hxy.1
    have hy : y = (b : Int) := hxy.2
    omega

theorem mem_window {nb : Nat} {d : Int × Int} : d ∈ window nb ↔ d.1.natAbs ≤ nb ∧ d.2.natAbs ≤ nb := by
  obtain ⟨i, j⟩ := d
  have hspan : ∀ i : Int, i ∈ (List.range (2 * nb + 1)).map (fun k : Nat => (k : Int) - nb) ↔ i.natAbs ≤ nb := by
    intro i
    rw [List.mem_map]
    constructor
    · rintro ⟨k, hk, rfl⟩
      rw [List.mem_range] at hk
      omega
    · intro hi
      exact ⟨(i + nb).toNat, List.mem_range.2 (by omega), by omega⟩
  unfold window
  rw [List.mem_flatMap]
  constructor
  · rintro ⟨i', hi', hmem⟩
    obtain ⟨j', hj', heq⟩ := List.mem_map.1 hmem
    rw [Prod.mk.injEq] at heq
    rw [← heq.1, ← heq.2]
    exact ⟨(hspan i').1 hi', (hspan j').1 hj'⟩
  · intro h
    exact ⟨i, (hspan i).2 h.1, List.mem_map.2 ⟨j, (hspan j).2 h.2, rfl⟩⟩

theorem near_iff {d : Int × Int} : near d = true ↔ d.1.natAbs ≤ 1 ∧ d.2.natAbs ≤ 1 := by
  unfold near
  simp only [Bool.and_eq_true, decide_eq_true_eq]
  omega

theorem Chart.lineOfSight2_iff {c : Chart n} {p m : Pos n} (h : c.subzone p ≠ WALL) :
    c.lineOfSight2 (c.subzone p) p m = true ↔ c.Seen p m := by
  unfold lineOfSight2
  simp only
  rw [Line.walk_eq _ _ (Nat.lt_succ_self _)]
  show (List.all _ _) = true ↔ _
  rw [List.all_eq_true]
  refine forall₂_congr (fun z _ => ?_)
  cases c.subzoneAt z with
  | none => simp
  | some zone =>
    simp only [Bool.not_eq_true', Bool.or_eq_false_iff, beq_eq_false_iff_ne, bne_eq_false_iff_eq, ne_eq, Option.some.injEq]
    exact ⟨fun hz => hz.2, fun hz => ⟨fun hw => h (hz ▸ hw), hz⟩⟩

theorem Chart.Seen.subzone {c : Chart n} {p m : Pos n} (h : c.Seen p m) : c.subzone m = c.subzone p := by
  have hmem : ((m.1 : Int), (m.2 : Int)) ∈ (Chart.line p m).cells := by
    unfold Line.cells
    refine List.mem_map.2 ⟨(Chart.line p m).steps, List.mem_range.2 (Nat.lt_succ_self _), ?_⟩
    obtain ⟨hx, hy⟩ := (Chart.line p m).pen_last
    rw [hx, hy]
    rfl
  have hat := h _ hmem
  unfold Chart.subzoneAt at hat
  rw [spot_eq_some.2 ⟨rfl, rfl⟩] at hat
  exact Option.some.inj hat

def Field.known (s : Field n C) (p : Pos n) : Prop := (s.node p).isopen = true ∨ (s.node p).isclose = true

namespace Query

variable [Add C] [LT C] [DecidableLT C] {q : Query n C} {goal p m src : Pos n} {s : Field n C}

theorem walkTo_cases (q : Query n C) (goal p : Pos n) (s : Field n C) (d : Int × Int) :
    (q.walkTo goal p s d = s ∧ ∀ m, spot n (p.1 + d.1) (p.2 + d.2) = some m → m ≠ p → q.subzone m ≠ WALL →
      q.sameZone p m = true → q.inReach p m d = true → (s.node m).isclose = true) ∨
    ∃ m, spot n (p.1 + d.1) (p.2 + d.2) = some m ∧ m ≠ p ∧ q.subzone m ≠ WALL ∧ q.sameZone p m = true ∧
      (s.node m).isclose = false ∧ q.inReach p m d = true ∧
      q.walkTo goal p s d =
        q.reach goal s m (s.node2 p) ((s.node (s.node2 p)).g + q.walk m.1 m.2 (s.node2 p).1 (s.node2 p).2) false := by
  unfold walkTo
  split
  · next hspot => exact Or.inl ⟨rfl, fun m hm => by rw [hspot] at hm; cases hm⟩
  next m hspot =>
  split
  · next hmp => exact Or.inl ⟨rfl, fun m' hm' hne => absurd hmp (Option.some.inj (hspot.symm.trans hm') ▸ hne)⟩
  next hmp =>
  split
  · next hwall =>
    rw [Bool.or_eq_true, decide_eq_true_eq, Bool.not_eq_true'] at hwall
    refine Or.inl ⟨rfl, fun m' hm' _ hw hz _ => ?_⟩
    obtain rfl := Option.some.inj (hspot.symm.trans hm')
    rcases hwall with hwall | hzone
    · exact absurd hwall hw
    · rw [hzone] at hz
      cases hz
  next hwall =>
  rw [Bool.or_eq_true, decide_eq_true_eq, Bool.not_eq_true', not_or, Bool.not_eq_false] at hwall
  split
  · next hclose => exact Or.inl ⟨rfl, fun m' hm' _ _ _ _ => Option.some.inj (hspot.symm.trans hm') ▸ hclose⟩
  next hclose =>
  split
  · next hreach =>
    refine Or.inl ⟨rfl, fun m' hm' _ _ _ hr => ?_⟩
    obtain rfl := Option.some.inj (hspot.symm.trans hm')
    rw [hr] at hreach
    cases hreach
  next hreach =>
  rw [Bool.not_eq_true', Bool.not_eq_false] at hreach
  exact Or.inr ⟨m, hspot, hmp, hwall.1, hwall.2, Bool.eq_false_iff.2 hclose, hreach, rfl⟩

def railed (q : Query n C) (goal p m : Pos n) (s : Field n C) : Field n C :=
  let s := q.reach goal s m p ((s.node p).g + q.railwayTime) true
  s.setNode p { s.node p with israilway := true }

theorem railTo_cases (q : Query n C) (goal p : Pos n) (s : Field n C) (pr : Railway) :
    (q.railTo goal p s pr = s ∧ ∀ m, station n pr.id = some m → m ≠ p → q.subzone m ≠ WALL →
      q.usable pr.id = true → (s.node m).isclose = true) ∨
    ∃ m, station n pr.id = some m ∧ m ≠ p ∧ q.subzone m ≠ WALL ∧ (s.node m).isclose = false ∧ q.usable pr.id = true ∧
      q.railTo goal p s pr = q.railed goal p m s := by
  unfold railTo
  split
  · next hspot => exact Or.inl ⟨rfl, fun m hm => by rw [station, hspot] at hm; cases hm⟩
  next m hspot =>
  split
  · next hmp => exact Or.inl ⟨rfl, fun m' hm' hne => absurd hmp (Option.some.inj (hspot.symm.trans hm') ▸ hne)⟩
  next hmp =>
  split
  · next hwall => exact Or.inl ⟨rfl, fun m' hm' _ hw => absurd hwall (Option.some.inj (hspot.symm.trans hm') ▸ hw)⟩
  next hwall =>
  split
  · next hclose => exact Or.inl ⟨rfl, fun m' hm' _ _ _ => Option.some.inj (hspot.symm.trans hm') ▸ hclose⟩
  next hclose =>
  split
  · next husable =>
    refine Or.inl ⟨rfl, fun m' _ _ _ hu => ?_⟩
    rw [hu] at husable
    cases husable
  next husable =>
  rw [Bool.not_eq_true', Bool.not_eq_false] at husable
  exact Or.inr ⟨m, hspot, hmp, hwall, Bool.eq_false_iff.2 hclose, husable, rfl⟩

end Query

def Field.Before (s : Field n C) (m p : Pos n) : Prop :=
  m ∈ s.taken ∧ ∀ later old, s.taken = later ++ p :: old → m ∈ old

structure Query.Inv (q : Query n C) [Zero C] (start : Pos n) (s : Field n C) : Prop where
  placed : s.openset.Placed
  listed : ∀ p, p ∈ s.openset.elts ↔ (s.node p).isopen = true
  closed : ∀ p, p ∈ s.taken ↔ (s.node p).isclose = true
  apart : ∀ p, (s.node p).isopen = true → (s.node p).isclose = false
  nodup : s.taken.Nodup
  blank : ∀ p, ¬ s.known p → s.node p = Node.blank
  clear : ∀ p, s.known p → p ∈ s.clear
  earlier : ∀ p parent, (s.node p).parent = some parent → s.Before parent p
  root : ∀ p, s.known p → (s.node p).parent = none → p = start
  ground : ∀ p, s.known p → q.subzone p ≠ WALL ∧ q.Reachable start p

structure Field.Stays (s s' : Field n C) : Prop where
  taken : s'.taken = s.taken
  known : ∀ p, s.known p → s'.known p

theorem Field.Stays.refl (s : Field n C) : Field.Stays s s := ⟨rfl, fun _ h => h⟩

theorem Field.Stays.trans {s s' s'' : Field n C} (h : s.Stays s') (h' : s'.Stays s'') : s.Stays s'' :=
  ⟨h'.taken.trans h.taken, fun p hp => h'.known p (h.known p hp)⟩

namespace Query

variable [Zero C] {q : Query n C} {start goal p m src : Pos n} {s : Field n C}

theorem Inv.close_false (hi : q.Inv start s) : p ∉ s.taken ↔ (s.node p).isclose = false := by
  rw [hi.closed, Bool.not_eq_true]

theorem Inv.known_taken (hi : q.Inv start s) (hp : p ∈ s.taken) : s.known p := Or.inr ((hi.closed p).1 hp)

theorem Inv.put (hi : q.Inv start s) {v : Node n C} {h : Heap (Pos n)} (hopen : v.isopen = true)
    (hclose : v.isclose = false) (hparent : v.parent = some src) (hm : m ∉ s.taken) (hsrc : src ∈ s.taken)
    (hground : q.subzone m ≠ WALL ∧ q.Reachable start m) (hp : h.Placed) (hh : ∀ p, p ∈ h.elts ↔
      p = m ∨ p ∈ s.openset.elts) :
    q.Inv start ⟨Function.update s.node m v, h, s.clear ++ [m], s.taken⟩ := by
  have hknown : ∀ p, p ≠ m → (Field.known ⟨Function.update s.node m v, h, s.clear ++ [m], s.taken⟩ p ↔ s.known p) := by
    intro p hpm
    unfold Field.known
    simp only [Function.update_of_ne hpm]
  constructor
  · exact hp
  · intro p
    rw [hh]
    by_cases hpm : p = m
    · subst hpm
      simp [hopen]
    · simp only [Function.update_of_ne hpm, hpm, false_or]
      exact hi.listed p
  · intro p
    by_cases hpm : p = m
    · subst hpm
      simp [hclose, hm]
    · simp only [Function.update_of_ne hpm]
      exact hi.closed p
  · intro p hopen'
    by_cases hpm : p = m
    · subst hpm
      simp [hclose]
    · simp only [Function.update_of_ne hpm] at hopen' ⊢
      exact hi.apart p hopen'
  · exact hi.nodup
  · intro p hp'
    by_cases hpm : p = m
    · refine absurd (Or.inl ?_) hp'
      subst hpm
      simp [hopen]
    · simp only [Function.update_of_ne hpm]
      exact hi.blank p (fun hk => hp' ((hknown p hpm).2 hk))
  · intro p hk
    by_cases hpm : p = m
    · exact List.mem_append_right _ (List.mem_singleton.2 hpm)
    · exact List.mem_append_left _ (hi.clear p ((hknown p hpm).1 hk))
  · intro p parent hpar
    by_cases hpm : p = m
    · subst hpm
      simp only [Function.update_self, hparent, Option.some.injEq] at hpar
      rw [← hpar]
      refine ⟨hsrc, fun later old heq => absurd ?_ hm⟩
      have heq : s.taken = later ++ p :: old := heq
      rw [heq]
      exact List.mem_append_right _ List.mem_cons_self
    · simp only [Function.update_of_ne hpm] at hpar
      exact hi.earlier p parent hpar
  · intro p hk hpar
    by_cases hpm : p = m
    · subst hpm
      simp only [Function.update_self, hparent] at hpar
      cases hpar
    · simp only [Function.update_of_ne hpm] at hpar
      exact hi.root p ((hknown p hpm).1 hk) hpar
  · intro p hk
    by_cases hpm : p = m
    · rw [hpm]
      exact hground
    · exact hi.ground p ((hknown p hpm).1 hk)

theorem Inv.same (hi : q.Inv start s) {node : Pos n → Node n C} {h : Heap (Pos n)} {clear : List (Pos n)}
    (hnode : ∀ p, (node p).isopen = (s.node p).isopen ∧ (node p).isclose = (s.node p).isclose)
    (hparent : ∀ p, (node p).parent = (s.node p).parent ∨ ∃ m, (node p).parent = some m ∧ s.Before m p) (hblank : ∀ p,
      p ∉ s.taken → node p = s.node p) (hp : h.Placed)
    (hh : ∀ p, p ∈ h.elts ↔ p ∈ s.openset.elts) (hc : ∀ p ∈ s.clear, p ∈ clear) :
    q.Inv start ⟨node, h, clear, s.taken⟩ := by
  have hknown : ∀ p, Field.known ⟨node, h, clear, s.taken⟩ p ↔ s.known p := by
    intro p
    show (node p).isopen = true ∨ (node p).isclose = true ↔ s.known p
    rw [(hnode p).1, (hnode p).2]
    exact Iff.rfl
  constructor
  · exact hp
  · intro p
    show p ∈ h.elts ↔ (node p).isopen = true
    rw [hh, (hnode p).1, hi.listed]
  · intro p
    show p ∈ s.taken ↔ (node p).isclose = true
    rw [(hnode p).2, hi.closed]
  · intro p
    show (node p).isopen = true → (node p).isclose = false
    rw [(hnode p).1, (hnode p).2]
    exact hi.apart p
  · exact hi.nodup
  · intro p hk
    rw [hknown] at hk
    exact (hblank p (fun hmem => hk (hi.known_taken hmem))).trans (hi.blank p hk)
  · exact fun p hk => hc p (hi.clear p ((hknown p).1 hk))
  · intro p parent hpar
    have hpar : (node p).parent = some parent := hpar
    rcases hparent p with hsame | ⟨m, hm, hbefore⟩
    · exact hi.earlier p parent (hsame ▸ hpar)
    · obtain rfl := Option.some.inj (hm.symm.trans hpar)
      exact hbefore
  · intro p hk hpar
    have hpar : (node p).parent = none := hpar
    rcases hparent p with hsame | ⟨m, hm, -⟩
    · exact hi.root p ((hknown p).1 hk) (hsame ▸ hpar)
    · rw [hm] at hpar
      cases hpar
  · exact fun p hk => hi.ground p ((hknown p).1 hk)

variable [Add C] [LT C] [DecidableLT C]

theorem Inv.reach (goal : Pos n) (hi : q.Inv start s) (t : C) (rail : Bool) (hm : (s.node m).isclose = false)
    (hsrc : src ∈ s.taken)
    (hground : q.subzone m ≠ WALL ∧ q.Reachable start m) :
    q.Inv start (q.reach goal s m src t rail) ∧ s.Stays (q.reach goal s m src t rail) ∧
      (q.reach goal s m src t rail).known m := by
  have hmt : m ∉ s.taken := hi.close_false.2 hm
  have hput : ∀ {v : Node n C} {h : Heap (Pos n)}, v.isopen = true →
      s.Stays ⟨Function.update s.node m v, h, s.clear ++ [m], s.taken⟩ ∧
        Field.known ⟨Function.update s.node m v, h, s.clear ++ [m], s.taken⟩ m := by
    intro v h hv
    have hself : Field.known ⟨Function.update s.node m v, h, s.clear ++ [m], s.taken⟩ m := by
      refine Or.inl ?_
      simp [hv]
    refine ⟨⟨rfl, fun p hk => ?_⟩, hself⟩
    by_cases hpm : p = m
    · exact hpm ▸ hself
    · unfold Field.known
      simp only [Function.update_of_ne hpm]
      exact hk
  unfold Query.reach
  simp only
  split
  · next hopen =>
    split
    · have hmoves := fun greater => Heap.decreaseKey_moves greater hi.placed m
      refine ⟨hi.put rfl hm rfl hmt hsrc hground (hmoves _).placed (fun p => (hmoves _).perm.mem_iff.trans ?_), hput rfl⟩
      exact ⟨Or.inr, fun h => h.elim (fun h => h ▸ (hi.listed m).2 hopen) id⟩
    · exact ⟨hi.same (fun _ => ⟨rfl, rfl⟩) (fun _ => Or.inl rfl) (fun _ _ => rfl) hi.placed (fun _ => Iff.rfl)
        (fun p hp => List.mem_append_left _ hp), ⟨rfl, fun _ h => h⟩, Or.inl hopen⟩
  · next hopen =>
    have hnot : m ∉ s.openset.elts := fun hmem => hopen ((hi.listed m).1 hmem)
    have hmoves := fun greater => Heap.add_moves greater hi.placed hnot
    exact ⟨hi.put rfl hm rfl hmt hsrc hground (hmoves _).2 (fun p => (hmoves _).1.mem_iff.trans List.mem_cons), hput rfl⟩

omit [Add C] [LT C] [DecidableLT C] in
theorem Inv.node2 (hi : q.Inv start s) (hp : p ∈ s.taken) : s.node2 p ∈ s.taken := by
  unfold Field.node2
  split
  · next parent _ hpar => exact (hi.earlier p parent hpar).1
  · exact hp

omit [Zero C] [Add C] [LT C] [DecidableLT C] in
theorem within_of_spot {d : Int × Int} {k : Nat} (hm : spot n (p.1 + d.1) (p.2 + d.2) = some m) :
    Within k p m ↔ d.1.natAbs ≤ k ∧ d.2.natAbs ≤ k := by
  obtain ⟨hx, hy⟩ := spot_eq_some.1 hm
  unfold Within
  rw [← hx, ← hy, add_sub_cancel_left, add_sub_cancel_left]

omit [Zero C] [Add C] [LT C] [DecidableLT C] in
theorem edge_of_inReach (hp : q.subzone p ≠ WALL) {d : Int × Int} (hd : d ∈ window q.nb)
    (hm : spot n (p.1 + d.1) (p.2 + d.2) = some m) (hw : q.subzone m ≠ WALL) (hz : q.sameZone p m = true)
    (hr : q.inReach p m d = true) : q.Edge p m := by
  refine ⟨hw, ?_⟩
  unfold inReach at hr
  rw [Bool.or_eq_true, Bool.and_eq_true] at hr
  rcases hr with hnear | ⟨husable, hline⟩
  · exact Or.inl ⟨(within_of_spot hm).2 (near_iff.1 hnear), hz⟩
  · exact Or.inr (Or.inl ⟨(within_of_spot hm).2 (mem_window.1 hd), husable, (Chart.lineOfSight2_iff hp).1 hline⟩)

omit [Zero C] [Add C] [LT C] [DecidableLT C] in
theorem inReach_of_edge (hnb : 1 ≤ q.nb) (hp : q.subzone p ≠ WALL) (he : q.Edge p m) : q.Rail p m ∨
    ∃ d ∈ window q.nb, spot n (p.1 + d.1) (p.2 + d.2) = some m ∧ q.sameZone p m = true ∧ q.inReach p m d = true := by
  have hspot : spot n (p.1 + ((m.1 : Int) - p.1)) (p.2 + ((m.2 : Int) - p.2)) = some m :=
    spot_eq_some.2 ⟨add_sub_cancel _ _, add_sub_cancel _ _⟩
  obtain ⟨-, ⟨hnear, hz⟩ | ⟨hnb', husable, hseen⟩ | hrail⟩ := he
  · refine Or.inr ⟨((m.1 : Int) - p.1, (m.2 : Int) - p.2), mem_window.2 ?_, hspot, hz, ?_⟩
    · exact ⟨hnear.1.trans hnb, hnear.2.trans hnb⟩
    · have hd : near ((m.1 : Int) - p.1, (m.2 : Int) - p.2) = true := near_iff.2 ⟨hnear.1, hnear.2⟩
      unfold inReach
      rw [hd, Bool.true_or]
  · refine Or.inr ⟨((m.1 : Int) - p.1, (m.2 : Int) - p.2), mem_window.2 hnb', hspot, ?_, ?_⟩
    · unfold sameZone
      rw [hseen.subzone, beq_self_eq_true, Bool.or_true]
    · unfold inReach
      rw [husable, (Chart.lineOfSight2_iff hp).2 hseen, Bool.and_self, Bool.or_true]
  · exact Or.inl hrail

theorem Inv.walkTo (goal : Pos n) (hi : q.Inv start s) (hp : p ∈ s.taken) {d : Int × Int} (hd : d ∈ window q.nb) :
    (q.Inv start (q.walkTo goal p s d) ∧ s.Stays (q.walkTo goal p s d)) ∧
      ∀ m, spot n (p.1 + d.1) (p.2 + d.2) = some m → q.subzone m ≠ WALL → q.sameZone p m = true →
        q.inReach p m d = true → (q.walkTo goal p s d).known m := by
  obtain ⟨hwp, hpr⟩ := hi.ground p (hi.known_taken hp)
  rcases q.walkTo_cases goal p s d with ⟨heq, hclosed⟩ | ⟨m, hspot, hmp, hw, hz, hclose, hr, heq⟩
  · rw [heq]
    refine ⟨⟨hi, Field.Stays.refl s⟩, fun m hm hw hz hr => ?_⟩
    by_cases hmp : m = p
    · exact hmp ▸ hi.known_taken hp
    · exact Or.inr (hclosed m hm hmp hw hz hr)
  · rw [heq]
    have hedge := edge_of_inReach hwp hd hspot hw hz hr
    obtain ⟨hi', hs', hk'⟩ := hi.reach goal _ _ hclose (hi.node2 hp) ⟨hw, hpr.tail hedge⟩
    refine ⟨⟨hi', hs'⟩, fun m' hm' _ _ _ => ?_⟩
    obtain rfl := Option.some.inj (hspot.symm.trans hm')
    exact hk'

theorem Inv.railTo (goal : Pos n) (hi : q.Inv start s) (hp : p ∈ s.taken) {vec : List Railway}
    (hvec : q.railway.lookup p.id = some vec)
    (husable : q.usable p.id = true) {pr : Railway} (hpr : pr ∈ vec) :
    (q.Inv start (q.railTo goal p s pr) ∧ s.Stays (q.railTo goal p s pr)) ∧
      ∀ m, station n pr.id = some m → q.subzone m ≠ WALL → q.usable pr.id = true → (q.railTo goal p s pr).known m := by
  obtain ⟨-, hreach⟩ := hi.ground p (hi.known_taken hp)
  rcases q.railTo_cases goal p s pr with ⟨heq, hclosed⟩ | ⟨m, hspot, hmp, hw, hclose, hu, heq⟩
  · rw [heq]
    refine ⟨⟨hi, Field.Stays.refl s⟩, fun m hm hw hu => ?_⟩
    by_cases hmp : m = p
    · exact hmp ▸ hi.known_taken hp
    · exact Or.inr (hclosed m hm hmp hw hu)
  · rw [heq]
    have hedge : q.Edge p m := ⟨hw, Or.inr (Or.inr ⟨husable, vec, hvec, pr, hpr, hu, hspot⟩)⟩
    obtain ⟨hi', hs', hk'⟩ := hi.reach goal ((s.node p).g + q.railwayTime) true hclose hp
      ⟨hw, hreach.tail hedge⟩
    have hflag : ∀ x, (q.railed goal p m s).known x ↔
        (q.reach goal s m p ((s.node p).g + q.railwayTime) true).known x := by
      intro x
      unfold railed Field.known Field.setNode
      by_cases hx : x = p
      · subst hx
        simp only [Function.update_self]
      · simp only [Function.update_of_ne hx]
    refine ⟨⟨?_, ⟨hs'.taken, fun x hx => (hflag x).2 (hs'.known x hx)⟩⟩, fun m' hm' _ _ => ?_⟩
    · refine hi'.same (fun x => ?_) (fun x => Or.inl ?_) (fun x hx => ?_) hi'.placed (fun _ => Iff.rfl) (fun _ h => h)
      · by_cases hx : x = p
        · subst hx
          simp only [Function.update_self, and_self]
        · simp only [Function.update_of_ne hx, and_self]
      · by_cases hx : x = p
        · subst hx
          simp only [Function.update_self]
        · simp only [Function.update_of_ne hx]
      · exact Function.update_of_ne (fun hxp => hx (by rw [hxp, hs'.taken]; exact hp)) _ _
    · obtain rfl := Option.some.inj (hspot.symm.trans hm')
      exact (hflag m).2 hk'

theorem Inv.expand (goal : Pos n) (hi : q.Inv start s) (hp : p ∈ s.taken) :
    q.Inv start (q.expand goal s p) ∧ s.Stays (q.expand goal s p) ∧
      (1 ≤ q.nb → ∀ m, q.Edge p m → (q.expand goal s p).known m) := by
  obtain ⟨hwp, -⟩ := hi.ground p (hi.known_taken hp)
  obtain ⟨⟨hi', hp'⟩, hs', hall⟩ := Steps.foldl_spec (q.walkTo goal p) (I := fun t => q.Inv start t ∧ p ∈ t.taken)
    (R := Field.Stays) Field.Stays.refl Field.Stays.trans (window q.nb) s
    (fun t d hd ht => by
      obtain ⟨⟨hi', hs'⟩, -⟩ := ht.1.walkTo goal ht.2 hd
      exact ⟨⟨hi', hs'.taken ▸ ht.2⟩, hs'⟩) ⟨hi, hp⟩
  have hfoot : 1 ≤ q.nb → ∀ m, q.Edge p m → q.Rail p m ∨ ((window q.nb).foldl (q.walkTo goal p) s).known m := by
    intro hnb m he
    refine (inReach_of_edge hnb hwp he).imp_right (fun hd => ?_)
    obtain ⟨d, hd, hspot, hz, hr⟩ := hd
    obtain ⟨t, ht, hst⟩ := hall d hd
    exact hst.known m ((ht.1.walkTo goal ht.2 hd).2 m hspot he.1 hz hr)
  have hno : (∀ m, ¬ q.Rail p m) → 1 ≤ q.nb → ∀ m, q.Edge p m → ((window q.nb).foldl (q.walkTo goal p) s).known m :=
    fun hr hnb m he => (hfoot hnb m he).resolve_left (hr m)
  unfold Query.expand
  simp only
  split
  · next vec hvec =>
    split
    · next husable =>
      obtain ⟨⟨hi'', -⟩, hs'', hall'⟩ := Steps.foldl_spec (q.railTo goal p)
        (I := fun t => q.Inv start t ∧ p ∈ t.taken) (R := Field.Stays) Field.Stays.refl Field.Stays.trans vec _
        (fun t pr hpr ht => by
          obtain ⟨⟨hi', hs'⟩, -⟩ := ht.1.railTo goal ht.2 hvec husable hpr
          exact ⟨⟨hi', hs'.taken ▸ ht.2⟩, hs'⟩) ⟨hi', hp'⟩
      refine ⟨hi'', hs'.trans hs'', fun hnb m he => ?_⟩
      rcases hfoot hnb m he with ⟨-, vec', hvec', r, hr, hu, hm⟩ | hk
      · rw [hvec, Option.some.injEq] at hvec'
        obtain ⟨t, ht, hst⟩ := hall' r (hvec' ▸ hr)
        exact hst.known m ((ht.1.railTo goal ht.2 hvec husable (hvec' ▸ hr)).2 m hm he.1 hu)
      · exact hs''.known m hk
    · next husable => exact ⟨hi', hs', hno (fun m hm => husable hm.1)⟩
  · next hvec =>
    refine ⟨hi', hs', hno (fun m hm => ?_)⟩
    obtain ⟨-, vec, hvec', -⟩ := hm
    rw [hvec] at hvec'
    cases hvec'

end Query
end AStar
end Sncpp
