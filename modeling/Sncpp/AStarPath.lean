import Sncpp.AStarEnds
/-!
# AStarPath — what the points of a path are joined by

A cell that leaves the heap keeps its parent if it was reached by rail or sees it, and gets one of its closed
neighbours otherwise.  Two things can go wrong.  The neighbour is not asked for the zone rule; and a cell that was
once reached by rail keeps its mark when it is reached on a cheaper way on foot, so that nobody looks whether it sees
the parent it has then.
-/
namespace Sncpp
namespace AStar

variable {n : Nat} {C : Type}

namespace Query

/-- **Two consecutive points of a path may be joined.** -/
def Link (q : Query n C) (a b : Pos n) : Prop :=
  q.Rail a b ∨ (a ≠ b ∧ Within 1 a b ∧ q.sameZone a b = true) ∨ q.Seen a b ∨ q.Seen b a

structure Sound (q : Query n C) (start goal : Pos n) (path : List (Pos n)) : Prop where
  first : path.head? = some start
  last : path.getLast? = some goal
  noWall : ∀ p ∈ path, q.subzone p ≠ WALL
  linked : path.IsChain q.Link

variable {q : Query n C} {start goal p m : Pos n} {s : Field n C}

theorem sameZone_comm (q : Query n C) (p m : Pos n) : q.sameZone p m = q.sameZone m p := by
  unfold sameZone
  rw [Bool.or_comm (q.subzone m == CHECK), Bool.beq_comm (a := q.subzone m) (b := q.subzone p)]

theorem within_comm {k : Nat} : Within k p m ↔ Within k m p := by
  unfold Within
  omega

theorem seen_self (c : Chart n) (p : Pos n) : c.Seen p p := by
  intro z hz
  have hcells : (Chart.line p p).cells = [((p.1 : Int), (p.2 : Int))] := by
    unfold Line.cells Line.steps Line.dx Line.dy
    simp [Chart.line, Line.pen, Line.start]
  rw [hcells, List.mem_singleton] at hz
  unfold Chart.subzoneAt
  rw [hz, spot_eq_some.2 ⟨rfl, rfl⟩]
  rfl

variable [Add C] [LT C] [DecidableLT C]

/-- When the parent of a cell is replaced there is a neighbour to replace it, and one that stands beside the cell obeys the
zone rule. -/
def Repairs (q : Query n C) (s : Field n C) (p : Pos n) : Prop :=
  ∀ parent, Blocked q s p parent → ∃ best ∈ q.minParent s p, Within 1 p best.1 → q.sameZone p best.1 = true

/-- When a cell that has the mark of the railway gets a new parent on foot, other than the cell `p` it is reached from, it
sees it. -/
def Straight (q : Query n C) (p : Pos n) (s : Field n C) (d : Int × Int) : Prop :=
  ∀ m, spot n (p.1 + d.1) (p.2 + d.2) = some m → (s.node m).isopen = true → (s.node m).israilway = true →
    (s.node (s.node2 p)).g + q.walk m.1 m.2 (s.node2 p).1 (s.node2 p).2 < (s.node m).g → s.node2 p ≠ p →
    q.Seen m (s.node2 p)

instance (c : Chart n) (p m : Pos n) : Decidable (c.Seen p m) :=
  inferInstanceAs (Decidable (∀ z ∈ (Chart.line p m).cells, c.subzoneAt z = some (c.subzone p)))

instance (k : Nat) (p m : Pos n) : Decidable (Within k p m) :=
  inferInstanceAs (Decidable (((m.1 : Int) - p.1).natAbs ≤ k ∧ ((m.2 : Int) - p.2).natAbs ≤ k))

instance (q : Query n C) (s : Field n C) (p parent : Pos n) : Decidable (Blocked q s p parent) :=
  inferInstanceAs (Decidable (_ ∧ _ ∧ _))

instance (q : Query n C) (s : Field n C) (p : Pos n) : Decidable (q.Repairs s p) :=
  inferInstanceAs (Decidable (∀ parent, Blocked q s p parent →
    ∃ best ∈ q.minParent s p, Within 1 p best.1 → q.sameZone p best.1 = true))

instance (q : Query n C) (p : Pos n) (s : Field n C) (d : Int × Int) : Decidable (q.Straight p s d) :=
  inferInstanceAs (Decidable (∀ m, spot n (p.1 + d.1) (p.2 + d.2) = some m → (s.node m).isopen = true →
    (s.node m).israilway = true →
    (s.node (s.node2 p)).g + q.walk m.1 m.2 (s.node2 p).1 (s.node2 p).2 < (s.node m).g → s.node2 p ≠ p →
    q.Seen m (s.node2 p)))

/-- **The steps of a search that go well**: in every turn, for the cell that is taken and the cells reached from it. -/
def Fair (q : Query n C) (goal : Pos n) (s : Field n C) : Prop :=
  ∀ t, q.OnWay goal s t → ∀ p t₁, pop t = some (p, t₁) → q.Repairs t₁ p ∧
    (p ≠ goal → Steps.Along (q.walkTo goal p) (q.Straight p) (q.setVertex goal t₁ p) (window q.nb))

def fairly (q : Query n C) (goal : Pos n) : Nat → Field n C → Bool
  | 0, _ => false
  | k + 1, s =>
    match pop s with
    | none => true
    | some (p, t₁) =>
      let t₂ := q.setVertex goal t₁ p
      q.Repairs t₁ p && (p = goal ||
        (Steps.Along (q.walkTo goal p) (q.Straight p) t₂ (window q.nb) && q.fairly goal k (q.expand goal t₂ p)))

theorem OnWay.head {t : Field n C} (h : q.OnWay goal s t) : t = s ∨ ∃ p s₁, pop s = some (p, s₁) ∧ p ≠ goal ∧
    q.OnWay goal (q.expand goal (q.setVertex goal s₁ p) p) t := by
  induction h with
  | refl => exact Or.inl rfl
  | @turn t t₁ p h hpop hp ih =>
    rcases ih with rfl | ⟨p', s₁, hpop', hp', hway⟩
    · exact Or.inr ⟨p, t₁, hpop, hp, .refl⟩
    · exact Or.inr ⟨p', s₁, hpop', hp', hway.turn hpop hp⟩

theorem fair_of_fairly : ∀ (k : Nat) (s : Field n C), q.fairly goal k s = true → q.Fair goal s
  | 0, _, h => by cases h
  | k + 1, s, h => by
    intro t hway p t₁ hpop
    unfold fairly at h
    rcases hway.head with rfl | ⟨p', s₁, hpop', hp', hway'⟩
    · rw [hpop] at h
      simp only [Bool.and_eq_true, Bool.or_eq_true, decide_eq_true_eq] at h
      exact ⟨h.1, fun hp => (h.2.resolve_left hp).1⟩
    · rw [hpop'] at h
      simp only [Bool.and_eq_true, Bool.or_eq_true, decide_eq_true_eq] at h
      exact fair_of_fairly k _ (h.2.resolve_left hp').2 t hway' p t₁ hpop

/-! ## The cells are linked to their parents -/

/-- The cells that were taken, and those marked for the railway, are linked to their parents. -/
structure Linked (q : Query n C) (s : Field n C) : Prop where
  railed : ∀ m parent, (s.node m).isopen = true → (s.node m).israilway = true → (s.node m).parent = some parent →
    q.Link parent m
  taken : ∀ p ∈ s.taken, ∀ parent, (s.node p).parent = some parent → q.Link parent p

theorem reach_node (q : Query n C) (goal : Pos n) (s : Field n C) (m src : Pos n) (t : C) (rail : Bool) :
    (∀ x, x ≠ m → (q.reach goal s m src t rail).node x = s.node x) ∧
    ((q.reach goal s m src t rail).node m = s.node m ∨
      ((q.reach goal s m src t rail).node m).parent = some src ∧
      ((q.reach goal s m src t rail).node m).israilway = ((s.node m).israilway || rail) ∧
      ((s.node m).isopen = true → t < (s.node m).g)) := by
  unfold reach
  simp only
  split
  · split
    · next hlt =>
      refine ⟨fun x hx => Function.update_of_ne hx _ _, Or.inr ⟨?_, ?_, fun _ => hlt⟩⟩
      · show (Function.update s.node m _ m).parent = some src
        rw [Function.update_self]
      · show (Function.update s.node m _ m).israilway = _
        rw [Function.update_self]
    · exact ⟨fun _ _ => rfl, Or.inl rfl⟩
  · next hopen =>
    refine ⟨fun x hx => Function.update_of_ne hx _ _, Or.inr ⟨?_, ?_, fun h => absurd h hopen⟩⟩
    · show (Function.update s.node m _ m).parent = some src
      rw [Function.update_self]
    · show (Function.update s.node m _ m).israilway = _
      rw [Function.update_self]

variable [Zero C]

theorem Linked.reach (h : q.Linked s) (hi : q.Inv start s) (hm : (s.node m).isclose = false) {src : Pos n}
    {t : C} {rail : Bool}
    (hlink : ((s.node m).isopen = true → t < (s.node m).g) → ((s.node m).israilway || rail) = true → q.Link src m) :
    q.Linked (q.reach goal s m src t rail) := by
  obtain ⟨hother, hself⟩ := reach_node q goal s m src t rail
  have hmt : m ∉ s.taken := hi.close_false.2 hm
  have htaken : (q.reach goal s m src t rail).taken = s.taken := by
    unfold Query.reach
    simp only
    split
    · split <;> rfl
    · rfl
  constructor
  · intro x parent hopen hrail hparent
    by_cases hx : x = m
    · subst hx
      rcases hself with hsame | ⟨hpar, hr, hlt⟩
      · rw [hsame] at hopen hrail hparent
        exact h.railed x parent hopen hrail hparent
      · obtain rfl := Option.some.inj (hpar.symm.trans hparent)
        exact hlink hlt (hr.symm.trans hrail)
    · rw [hother x hx] at hopen hrail hparent
      exact h.railed x parent hopen hrail hparent
  · intro x hx parent hparent
    rw [htaken] at hx
    have hxm : x ≠ m := fun hxm => hmt (hxm ▸ hx)
    rw [hother x hxm] at hparent
    exact h.taken x hx parent hparent

theorem Linked.walkTo (h : q.Linked s) (hi : q.Inv start s) (hp : p ∈ s.taken) {d : Int × Int}
    (hok : q.Straight p s d) : q.Linked (q.walkTo goal p s d) := by
  rcases q.walkTo_cases goal p s d with ⟨heq, -⟩ | ⟨m, hspot, hmp, -, hz, hclose, hr, heq⟩
  · rwa [heq]
  rw [heq]
  refine h.reach hi hclose (fun hlt hrail => ?_)
  rw [Bool.or_false] at hrail
  have hopen : (s.node m).isopen = true := by
    by_contra hopen
    have hblank := hi.blank m (fun hk => hk.elim hopen (fun hk => by rw [hclose] at hk; cases hk))
    rw [hblank] at hrail
    cases hrail
  by_cases hnode : s.node2 p = p
  · rw [hnode]
    unfold inReach at hr
    rw [Bool.or_eq_true, Bool.and_eq_true] at hr
    rcases hr with hnear | ⟨-, hline⟩
    · exact Or.inr (Or.inl ⟨hmp.symm, (within_of_spot hspot).2 (near_iff.1 hnear), hz⟩)
    · exact Or.inr (Or.inr (Or.inl ((Chart.lineOfSight2_iff (hi.ground p (hi.known_taken hp)).1).1 hline)))
  · exact Or.inr (Or.inr (Or.inr (hok m hspot hopen hrail (hlt hopen) hnode)))

theorem Linked.railTo (h : q.Linked s) (hi : q.Inv start s) (hp : p ∈ s.taken) {vec : List Railway}
    (hvec : q.railway.lookup p.id = some vec) (husable : q.usable p.id = true) {pr : Railway} (hpr : pr ∈ vec) :
    q.Linked (q.railTo goal p s pr) := by
  rcases q.railTo_cases goal p s pr with ⟨heq, -⟩ | ⟨m, hspot, -, hw, hclose, hu, heq⟩
  · rwa [heq]
  rw [heq]
  have hl : q.Linked (q.reach goal s m p ((s.node p).g + q.railwayTime) true) :=
    h.reach hi hclose (fun _ _ => Or.inl ⟨husable, vec, hvec, pr, hpr, hu, hspot⟩)
  have hedge : q.Edge p m := ⟨hw, Or.inr (Or.inr ⟨husable, vec, hvec, pr, hpr, hu, hspot⟩)⟩
  obtain ⟨hi', hs', -⟩ := hi.reach goal ((s.node p).g + q.railwayTime) true hclose hp
    ⟨hw, (hi.ground p (hi.known_taken hp)).2.tail hedge⟩
  have hp' : p ∈ (q.reach goal s m p ((s.node p).g + q.railwayTime) true).taken := hs'.taken ▸ hp
  unfold Query.railed
  simp only
  generalize q.reach goal s m p ((s.node p).g + q.railwayTime) true = s' at hl hi' hp'
  have hclosed : (s'.node p).isclose = true := (hi'.closed p).1 hp'
  constructor
  · intro x parent hopen hrail hparent
    by_cases hx : x = p
    · subst hx
      have hopen : (Function.update s'.node x { s'.node x with israilway := true } x).isopen = true := hopen
      rw [Function.update_self] at hopen
      rw [hi'.apart x hopen] at hclosed
      cases hclosed
    · have hnode : (s'.setNode p { s'.node p with israilway := true }).node x = s'.node x := Function.update_of_ne hx _ _
      rw [hnode] at hopen hrail hparent
      exact hl.railed x parent hopen hrail hparent
  · intro x hx parent hparent
    refine hl.taken x hx parent ?_
    by_cases hxp : x = p
    · subst hxp
      have hparent : (Function.update s'.node x { s'.node x with israilway := true } x).parent = some parent := hparent
      rwa [Function.update_self] at hparent
    · have hnode : (s'.setNode p { s'.node p with israilway := true }).node x = s'.node x := Function.update_of_ne hxp _ _
      rwa [hnode] at hparent

theorem Linked.expand (h : q.Linked s) (hi : q.Inv start s) (hp : p ∈ s.taken)
    (hok : Steps.Along (q.walkTo goal p) (q.Straight p) s (window q.nb)) : q.Linked (q.expand goal s p) := by
  have hfoot : ∀ (l : List (Int × Int)) (t : Field n C), (∀ d ∈ l, d ∈ window q.nb) → q.Linked t ∧
    q.Inv start t ∧ p ∈ t.taken →
      Steps.Along (q.walkTo goal p) (q.Straight p) t l →
      q.Linked (l.foldl (q.walkTo goal p) t) ∧ q.Inv start (l.foldl (q.walkTo goal p) t) ∧
        p ∈ (l.foldl (q.walkTo goal p) t).taken := by
    intro l
    induction l with
    | nil => exact fun t _ ht _ => ht
    | cons d l ih =>
      intro t hl ht halong
      obtain ⟨⟨hi', hs'⟩, -⟩ := ht.2.1.walkTo goal ht.2.2 (hl d List.mem_cons_self)
      exact ih _ (fun d' hd' => hl d' (List.mem_cons_of_mem d hd'))
        ⟨ht.1.walkTo ht.2.1 ht.2.2 halong.1, hi', hs'.taken ▸ ht.2.2⟩ halong.2
  obtain ⟨hl', hi', hp'⟩ := hfoot (window q.nb) s (fun _ hd => hd) ⟨h, hi, hp⟩ hok
  unfold Query.expand
  simp only
  split
  · next vec hvec =>
    split
    · next husable =>
      exact (Steps.foldl_spec (q.railTo goal p) (I := fun t => q.Linked t ∧ q.Inv start t ∧ p ∈ t.taken)
        (R := fun _ _ => True) (fun _ => trivial) (fun _ _ => trivial) vec _
        (fun t pr hpr ht => by
          obtain ⟨⟨hi', hs'⟩, -⟩ := ht.2.1.railTo goal ht.2.2 hvec husable hpr
          exact ⟨⟨ht.1.railTo ht.2.1 ht.2.2 hvec husable hpr, hi', hs'.taken ▸ ht.2.2⟩, trivial⟩) ⟨hl', hi', hp'⟩).1.1
    · exact hl'
  · exact hl'

/-- **A cell that leaves the heap is linked to its parent**, if a parent that has to be replaced is replaced well. -/
theorem Linked.settle (goal : Pos n) (h : q.Linked s) (hi : q.Inv start s) {s₁ : Field n C} (hpop : pop s = some (p, s₁))
    (hok : q.Repairs s₁ p) : q.Linked (q.setVertex goal s₁ p) := by
  obtain ⟨hi₁, ht⟩ := hi.pop hpop
  have hp₁ : p ∈ s₁.taken := ht.taken ▸ List.mem_cons_self
  have hwp := (hi₁.ground p (hi₁.known_taken hp₁)).1
  have hother : ∀ x, x ≠ p → s₁.node x = s.node x := fun x hx => by rw [ht.node, Function.update_of_ne hx]
  have hclosed : (s₁.node p).isopen = false := by rw [ht.node, Function.update_self]
  have hparent : (s₁.node p).parent = (s.node p).parent ∧ (s₁.node p).israilway = (s.node p).israilway := by
    rw [ht.node, Function.update_self]
    exact ⟨rfl, rfl⟩
  have hrest : ∀ t : Field n C, t.taken = s₁.taken → (∀ x, x ≠ p → t.node x = s₁.node x) → (t.node p).isopen = false →
      (∀ parent, (t.node p).parent = some parent → q.Link parent p) → q.Linked t := by
    intro t htaken hnode hopen hlink
    constructor
    · intro x parent hopen' hrail hpar
      have hx : x ≠ p := fun hx => by rw [hx, hopen] at hopen'; cases hopen'
      rw [hnode x hx, hother x hx] at hopen' hrail hpar
      exact h.railed x parent hopen' hrail hpar
    · intro x hx parent hpar
      by_cases hxp : x = p
      · subst hxp
        exact hlink parent hpar
      · rw [htaken, ht.taken, List.mem_cons] at hx
        rw [hnode x hxp, hother x hxp] at hpar
        exact h.taken x (hx.resolve_left hxp) parent hpar
  rcases setVertex_cases q goal ht.key with ⟨heq, hnone⟩ | ⟨parent, m, g, hb, hmin, heq⟩
  · rw [heq]
    refine hrest s₁ rfl (fun _ _ => rfl) hclosed (fun parent hpar => ?_)
    by_cases hrail : (s.node p).israilway = true
    · exact h.railed p parent ht.isopen hrail (hparent.1.symm.trans hpar)
    rw [← hparent.2, Bool.not_eq_true] at hrail
    by_cases hline : q.lineOfSight s₁ p parent = true
    · unfold lineOfSight at hline
      rw [hrail, if_neg Bool.false_ne_true] at hline
      split at hline
      · exact Or.inr (Or.inr (Or.inr ((Chart.lineOfSight2_iff hwp).1 hline)))
      · cases hline
    · have hb : Blocked q s₁ p parent := ⟨hpar, hrail, Bool.eq_false_iff.2 hline⟩
      obtain ⟨best, hmin, -⟩ := hok parent hb
      cases (hnone parent hb).symm.trans hmin
  · rw [heq]
    refine hrest _ rfl (fun x hx => Function.update_of_ne hx _ _) ?_ (fun parent' hpar => ?_)
    · show (Function.update s₁.node p _ p).isopen = false
      rw [Function.update_self]
      exact hclosed
    · have hpar : (Function.update s₁.node p _ p).parent = some parent' := hpar
      rw [Function.update_self] at hpar
      obtain rfl := Option.some.inj hpar
      obtain ⟨best, hmin', hzone⟩ := hok parent hb
      obtain rfl := Option.some.inj (hmin'.symm.trans hmin)
      obtain ⟨d, -, hspot, hmp, -, hr, -⟩ := minParent_some hmin
      unfold inReach at hr
      rw [Bool.or_eq_true, Bool.and_eq_true] at hr
      rcases hr with hnear | ⟨-, hline⟩
      · have hwithin : Within 1 p m := (within_of_spot hspot).2 (near_iff.1 hnear)
        exact Or.inr (Or.inl ⟨hmp, within_comm.1 hwithin, (q.sameZone_comm p m).symm.trans (hzone hwithin)⟩)
      · exact Or.inr (Or.inr (Or.inr ((Chart.lineOfSight2_iff hwp).1 hline)))

omit [Add C] [LT C] [DecidableLT C] in
theorem Linked.chain (h : q.Linked s) (hi : q.Inv start s) : ∀ (k : Nat) (p : Pos n) (cells : List (Pos n)), p ∈ s.taken →
    chain s start k (s.node p).parent = some cells → (start :: cells ++ [p]).IsChain q.Link
  | 0, _, _, _, hc => by cases hc
  | k + 1, p, cells, hp, hc => by
    cases hpar : (s.node p).parent with
    | none =>
      rw [hpar] at hc
      obtain rfl := hi.root p (hi.known_taken hp) hpar
      have hnil : [] = cells := Option.some.inj hc
      rw [← hnil]
      exact List.isChain_pair.2 (Or.inr (Or.inr (Or.inl (seen_self q.toChart p))))
    | some m =>
      rw [hpar] at hc
      unfold Query.chain at hc
      have hm : m ∈ s.taken := (hi.earlier p m hpar).1
      have hlink : q.Link m p := h.taken p hp m hpar
      split at hc
      · next hms =>
        subst hms
        rw [← Option.some.inj hc]
        exact List.isChain_pair.2 hlink
      · obtain ⟨cells', hc', rfl⟩ := Option.map_eq_some_iff.1 hc
        rw [← List.cons_append, List.isChain_append]
        refine ⟨Linked.chain h hi k m cells' hm hc', List.isChain_singleton p, fun x hx y hy => ?_⟩
        rw [List.getLast?_concat, Option.mem_def, Option.some.injEq] at hx
        rw [List.head?_cons, Option.mem_def, Option.some.injEq] at hy
        rwa [← hx, ← hy]

theorem openStart_linked (hs : s.Tidy) (hw : q.subzone start ≠ WALL) : q.Linked (q.openStart goal start s) := by
  obtain ⟨hi, ht, -⟩ := openStart_inv goal hs hw
  constructor
  · intro m parent _ _ hparent
    have hm := (hi.earlier m parent hparent).1
    rw [ht] at hm
    cases hm
  · intro p hp
    rw [ht] at hp
    cases hp

end Query

variable [Zero C] [Add C] [LT C] [DecidableLT C]

def meadow : Query 2 Nat := { corner with subzone := fun _ => 1 }

end AStar
end Sncpp
