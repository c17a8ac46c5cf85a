import Sncpp.AStarRun
/-!
# AStarEnds — a search ends, and finds the goal if it can be reached

Every turn of the loop takes a cell that was not taken before, so there are no more turns than cells (`search_ends`).
When the heap is empty the cells that were taken are all that can be reached from the start, since the edges of each of
them were followed (`Inv.covered`).
-/
namespace Sncpp
namespace AStar

variable {n : Nat} {C : Type}

def Field.Acyclic (s : Field n C) : Prop := ∀ p, ¬ Relation.TransGen (fun a b => (s.node b).parent = some a) p p

def Field.Tidy [Zero C] (s : Field n C) : Prop := ∀ p, p ∉ s.clear → s.node p = Node.blank

namespace Query

section

variable [Zero C] {q : Query n C} {start goal p m : Pos n} {s : Field n C}

theorem Inv.acyclic (hi : q.Inv start s) : s.Acyclic := by
  have hbefore : ∀ a b, Relation.TransGen (fun a b => (s.node b).parent = some a) a b →
      a ∈ s.taken ∧ ∀ later old, s.taken = later ++ b :: old → a ∈ old := by
    intro a b h
    induction h with
    | single h => exact hi.earlier _ _ h
    | @tail b c _ h ih =>
      refine ⟨ih.1, fun later old heq => ?_⟩
      obtain ⟨mid, rest, rfl⟩ := List.append_of_mem ((hi.earlier _ _ h).2 later old heq)
      have hsplit : s.taken = (later ++ c :: mid) ++ b :: rest := by rw [heq, List.append_assoc, List.cons_append]
      exact List.mem_append_right _ (List.mem_cons_of_mem _ (ih.2 _ rest hsplit))
  intro p h
  obtain ⟨hmem, hold⟩ := hbefore p p h
  obtain ⟨later, old, heq⟩ := List.append_of_mem hmem
  have hnodup := hi.nodup
  rw [heq] at hnodup
  exact (List.nodup_cons.1 hnodup.of_append_right).1 (hold later old heq)

theorem Inv.length_taken (hi : q.Inv start s) : s.taken.length ≤ n * n := by
  have hcard := hi.nodup.length_le_card
  rwa [Fintype.card_prod, Fintype.card_fin] at hcard

variable [LT C] [DecidableLT C]

structure Taken (s : Field n C) (p : Pos n) (s' : Field n C) : Prop where
  isopen : (s.node p).isopen = true
  fresh : p ∉ s.taken
  taken : s'.taken = p :: s.taken
  node : s'.node = Function.update s.node p { s.node p with isclose := true, isopen := false }
  key : s'.openset.key p = 0

omit [Zero C] [LT C] [DecidableLT C] in
theorem Taken.known {s' : Field n C} (h : Taken s p s') (x : Pos n) : s'.known x ↔ s.known x := by
  unfold Field.known
  rw [h.node]
  by_cases hx : x = p
  · subst hx
    simp [h.isopen]
  · simp only [Function.update_of_ne hx]

theorem pop_none (hi : q.Inv start s) (hpop : pop s = none) (x : Pos n) : (s.node x).isopen = false := by
  have hempty : s.openset.elts = [] := by
    unfold Query.pop at hpop
    split at hpop
    · next hr => exact (Heap.remove_moves s.fless hi.placed).1.1 hr
    · cases hpop
  rw [Bool.eq_false_iff, Ne, ← hi.listed, hempty]
  exact List.not_mem_nil

theorem Inv.pop (hi : q.Inv start s) {s' : Field n C} (hpop : Query.pop s = some (p, s')) :
    q.Inv start s' ∧ Taken s p s' := by
  unfold Query.pop at hpop
  split at hpop
  · cases hpop
  next p' h hr =>
  obtain ⟨hperm, hplaced, hkey⟩ := (Heap.remove_moves s.fless hi.placed).2 p' h hr
  rw [Option.some.injEq, Prod.mk.injEq] at hpop
  obtain ⟨rfl, rfl⟩ := hpop
  have hopen : (s.node p').isopen = true := (hi.listed p').1 (hperm.mem_iff.2 List.mem_cons_self)
  have hnot : p' ∉ s.taken := hi.close_false.2 (hi.apart p' hopen)
  have hnodup : p' ∉ h.elts := (List.nodup_cons.1 (hperm.nodup hi.placed.nodup)).1
  have ht : Taken s p' (({ s with openset := h, taken := p' :: s.taken } : Field n C).setNode p'
      { s.node p' with isclose := true, isopen := false }) := ⟨hopen, hnot, rfl, rfl, hkey⟩
  refine ⟨?_, ht⟩
  have hparent : ∀ x, ((Function.update s.node p' { s.node p' with isclose := true, isopen := false }) x).parent =
      (s.node x).parent := by
    intro x
    by_cases hx : x = p'
    · subst hx
      rw [Function.update_self]
    · rw [Function.update_of_ne hx]
  constructor
  · exact hplaced
  · intro x
    show x ∈ h.elts ↔ (Function.update s.node p' _ x).isopen = true
    by_cases hx : x = p'
    · subst hx
      simp [hnodup]
    · rw [Function.update_of_ne hx, ← hi.listed, hperm.mem_iff, List.mem_cons]
      simp [hx]
  · intro x
    show x ∈ p' :: s.taken ↔ (Function.update s.node p' _ x).isclose = true
    by_cases hx : x = p'
    · subst hx
      simp
    · rw [Function.update_of_ne hx, ← hi.closed, List.mem_cons]
      simp [hx]
  · intro x
    show (Function.update s.node p' _ x).isopen = true → (Function.update s.node p' _ x).isclose = false
    by_cases hx : x = p'
    · subst hx
      simp
    · rw [Function.update_of_ne hx]
      exact hi.apart x
  · exact List.nodup_cons.2 ⟨hnot, hi.nodup⟩
  · intro x hk
    have hx : x ≠ p' := fun hx => hk ((ht.known x).2 (Or.inl (hx ▸ hopen)))
    exact (Function.update_of_ne hx _ _).trans (hi.blank x (fun hk' => hk ((ht.known x).2 hk')))
  · exact fun x hk => hi.clear x ((ht.known x).1 hk)
  · intro x parent hpar
    obtain ⟨hmem, hold⟩ := hi.earlier x parent ((hparent x).symm.trans hpar)
    refine ⟨List.mem_cons_of_mem _ hmem, fun later old heq => ?_⟩
    have heq : p' :: s.taken = later ++ x :: old := heq
    cases later with
    | nil => exact (List.cons.inj heq).2 ▸ hmem
    | cons y later => exact hold later old (List.cons.inj heq).2
  · exact fun x hk hpar => hi.root x ((ht.known x).1 hk) ((hparent x).symm.trans hpar)
  · exact fun x hk => hi.ground x ((ht.known x).1 hk)

end

section

variable [Add C] [LT C] [DecidableLT C] {q : Query n C} {start goal p m : Pos n} {s : Field n C}

omit [Add C] [LT C] [DecidableLT C] in
theorem candidate_some {d : Int × Int} (h : q.candidate s p d = some m) :
    spot n (p.1 + d.1) (p.2 + d.2) = some m ∧ m ≠ p ∧ q.subzone m ≠ WALL ∧ q.inReach p m d = true ∧
      (s.node m).isclose = true := by
  unfold candidate at h
  split at h
  · cases h
  next m' hspot =>
  split at h
  · cases h
  next hmp =>
  split at h
  · cases h
  next hw =>
  split at h
  · cases h
  next hr =>
  split at h
  · next hclose =>
    obtain rfl := Option.some.inj h
    rw [Bool.not_eq_true', Bool.not_eq_false] at hr
    exact ⟨hspot, hmp, hw, hr, hclose⟩
  · cases h

theorem foldl_cheaper {g : C} : ∀ (l : List (Pos n)) (best : Option (Pos n × C)),
    l.foldl (q.cheaper s p) best = some (m, g) → m ∈ l ∨ best = some (m, g)
  | [], _, h => Or.inr h
  | x :: l, best, h => by
    rw [List.foldl_cons] at h
    rcases foldl_cheaper l _ h with hmem | hbest
    · exact Or.inl (List.mem_cons_of_mem x hmem)
    unfold cheaper at hbest
    simp only at hbest
    split at hbest
    · rw [Option.some.injEq, Prod.mk.injEq] at hbest
      exact Or.inl (hbest.1 ▸ List.mem_cons_self)
    · split at hbest
      · rw [Option.some.injEq, Prod.mk.injEq] at hbest
        exact Or.inl (hbest.1 ▸ List.mem_cons_self)
      · exact Or.inr hbest

theorem minParent_some {g : C} (h : q.minParent s p = some (m, g)) :
    ∃ d ∈ window q.nb, spot n (p.1 + d.1) (p.2 + d.2) = some m ∧ m ≠ p ∧ q.subzone m ≠ WALL ∧ q.inReach p m d = true ∧
      (s.node m).isclose = true := by
  unfold minParent at h
  rcases foldl_cheaper _ _ h with hmem | hnone
  · obtain ⟨d, hd, hc⟩ := List.mem_filterMap.1 hmem
    exact ⟨d, hd, candidate_some hc⟩
  · cases hnone

def Blocked (q : Query n C) (s : Field n C) (p parent : Pos n) : Prop :=
  (s.node p).parent = some parent ∧ (s.node p).israilway = false ∧ q.lineOfSight s p parent = false

/-- **A cell that has left the heap is written, and the heap is not**: its place in the heap is the first. -/
theorem setVertex_cases (q : Query n C) (goal : Pos n) (hkey : s.openset.key p = 0) :
    (q.setVertex goal s p = s ∧ ∀ parent, Blocked q s p parent → q.minParent s p = none) ∨
    ∃ parent m g, Blocked q s p parent ∧ q.minParent s p = some (m, g) ∧
      q.setVertex goal s p = s.setNode p { s.node p with parent := some m, g := g, f := g + q.estimate2 p goal } := by
  unfold setVertex
  split
  · next hnone =>
    refine Or.inl ⟨rfl, fun parent hb => ?_⟩
    cases hnone.symm.trans hb.1
  next parent hpar =>
  split
  · next hfree =>
    refine Or.inl ⟨rfl, fun parent' hb => ?_⟩
    obtain ⟨hpar', hrail, hline⟩ := hb
    obtain rfl := Option.some.inj (hpar.symm.trans hpar')
    rw [hrail, hline] at hfree
    cases hfree
  next hfree =>
  rw [Bool.or_eq_true, not_or, Bool.not_eq_true, Bool.not_eq_true] at hfree
  have hb : Blocked q s p parent := ⟨hpar, hfree⟩
  split
  · next hmin => exact Or.inl ⟨rfl, fun _ _ => hmin⟩
  · next m g hmin =>
    refine Or.inr ⟨parent, m, g, hb, hmin, ?_⟩
    have hheap := fun greater => Heap.decreaseKey_zero greater hkey
    unfold Field.decreaseKey
    exact congrArg (Field.mk _ · _ _) (hheap _)

variable [Zero C]

theorem Inv.setVertex (goal : Pos n) (hi : q.Inv start s) {old : List (Pos n)} (ht : s.taken = p :: old)
    (hkey : s.openset.key p = 0) :
    q.Inv start (q.setVertex goal s p) ∧ s.Stays (q.setVertex goal s p) := by
  rcases setVertex_cases q goal hkey with ⟨heq, -⟩ | ⟨parent, m, g, hb, hmin, heq⟩
  · rw [heq]
    exact ⟨hi, Field.Stays.refl s⟩
  rw [heq]
  obtain ⟨d, -, -, hmp, -, -, hclose⟩ := minParent_some hmin
  have hmem : m ∈ old := by
    have hm := (hi.closed m).2 hclose
    rw [ht, List.mem_cons] at hm
    exact hm.resolve_left hmp
  have hp : p ∈ s.taken := ht ▸ List.mem_cons_self
  have hbefore : s.Before m p := by
    refine ⟨ht ▸ List.mem_cons_of_mem p hmem, fun later older heq => ?_⟩
    rw [ht] at heq
    cases later with
    | nil => exact (List.cons.inj heq).2 ▸ hmem
    | cons y later =>
      have hnodup := hi.nodup
      rw [ht] at hnodup
      refine absurd ?_ (List.nodup_cons.1 hnodup).1
      rw [(List.cons.inj heq).2]
      exact List.mem_append_right _ List.mem_cons_self
  have hset : ∀ v : Node n C, v.isopen = (s.node p).isopen → v.isclose = (s.node p).isclose → v.parent = some m →
      q.Inv start (s.setNode p v) ∧ s.Stays (s.setNode p v) := by
    intro v hopen hclose hparent
    have hflags : ∀ x, ((s.setNode p v).node x).isopen = (s.node x).isopen ∧
        ((s.setNode p v).node x).isclose = (s.node x).isclose := by
      intro x
      unfold Field.setNode
      by_cases hx : x = p
      · subst hx
        simp only [Function.update_self, hopen, hclose, and_self]
      · simp only [Function.update_of_ne hx, and_self]
    refine ⟨hi.same hflags (fun x => ?_) (fun x hx => ?_) hi.placed (fun _ => Iff.rfl) (fun _ h => h), rfl, fun x hk => ?_⟩
    · by_cases hx : x = p
      · subst hx
        refine Or.inr ⟨m, ?_, hbefore⟩
        rw [Function.update_self, hparent]
      · refine Or.inl ?_
        rw [Function.update_of_ne hx]
    · have hxp : x ≠ p := fun hxp => hx (by rwa [hxp])
      exact Function.update_of_ne hxp _ _
    · unfold Field.known
      rw [(hflags x).1, (hflags x).2]
      exact hk
  exact hset _ rfl rfl rfl

theorem Inv.settle (goal : Pos n) (hi : q.Inv start s) {s₁ : Field n C} (hpop : Query.pop s = some (p, s₁)) :
    q.Inv start (q.setVertex goal s₁ p) ∧ (q.setVertex goal s₁ p).taken = p :: s.taken ∧
      ∀ x, s.known x → (q.setVertex goal s₁ p).known x := by
  obtain ⟨hi₁, ht⟩ := hi.pop hpop
  obtain ⟨hi₂, hs⟩ := hi₁.setVertex goal ht.taken ht.key
  exact ⟨hi₂, hs.taken.trans ht.taken, fun x hx => hs.known x ((ht.known x).2 hx)⟩

def Spread (q : Query n C) (s : Field n C) : Prop := ∀ p ∈ s.taken, ∀ m, q.Edge p m → s.known m

theorem Inv.turn (goal : Pos n) (hi : q.Inv start s) {s₁ : Field n C} (hpop : Query.pop s = some (p, s₁)) :
    q.Inv start (q.expand goal (q.setVertex goal s₁ p) p) ∧
      (q.expand goal (q.setVertex goal s₁ p) p).taken = p :: s.taken ∧
      (∀ x, s.known x → (q.expand goal (q.setVertex goal s₁ p) p).known x) ∧
      (1 ≤ q.nb → q.Spread s → q.Spread (q.expand goal (q.setVertex goal s₁ p) p)) := by
  obtain ⟨hi₂, ht₂, hk₂⟩ := hi.settle goal hpop
  obtain ⟨hi₃, hs₃, hall⟩ := hi₂.expand goal (ht₂ ▸ List.mem_cons_self)
  refine ⟨hi₃, hs₃.taken.trans ht₂, fun x hx => hs₃.known x (hk₂ x hx), fun hnb hspread x hx m he => ?_⟩
  rw [hs₃.taken, ht₂, List.mem_cons] at hx
  rcases hx with rfl | hx
  · exact hall hnb m he
  · exact hs₃.known m (hk₂ m (hspread x hx m he))

omit [Zero C] in
theorem search_rule (q : Query n C) (goal : Pos n) {I F : Field n C → Prop}
    (hturn : ∀ s p s₁, I s → pop s = some (p, s₁) → p ≠ goal → I (q.expand goal (q.setVertex goal s₁ p) p))
    (hgoal : ∀ s s₁, I s → pop s = some (goal, s₁) → F (q.setVertex goal s₁ goal)) :
    ∀ (k : Nat) (s s' : Field n C) (found : Bool), I s → q.search goal k s = some (s', found) →
      (found = true → F s') ∧ (found = false → I s' ∧ pop s' = none)
  | 0, _, _, _, _, h => by cases h
  | k + 1, s, s', found, hI, h => by
    unfold search at h
    split at h
    · next hpop =>
      rw [Option.some.injEq, Prod.mk.injEq] at h
      obtain ⟨rfl, rfl⟩ := h
      exact ⟨nofun, fun _ => ⟨hI, hpop⟩⟩
    next p s₁ hpop =>
    simp only at h
    split at h
    · next hp =>
      subst hp
      rw [Option.some.injEq, Prod.mk.injEq] at h
      obtain ⟨rfl, rfl⟩ := h
      exact ⟨fun _ => hgoal s s₁ hI hpop, nofun⟩
    · next hp => exact search_rule q goal hturn hgoal k _ s' found (hturn s p s₁ hI hpop hp) h

theorem search_ends : ∀ (k : Nat) (s : Field n C), q.Inv start s → n * n < k + s.taken.length →
    ∃ r, q.search goal k s = some r
  | 0, s, hi, hk => by
    have hlen := hi.length_taken
    omega
  | k + 1, s, hi, hk => by
    unfold search
    split
    · exact ⟨_, rfl⟩
    next p s₁ hpop =>
    simp only
    split
    · exact ⟨_, rfl⟩
    · obtain ⟨hi', ht', -⟩ := hi.turn goal hpop
      apply search_ends k _ hi'
      rw [ht', List.length_cons]
      omega

inductive OnWay (q : Query n C) (goal : Pos n) (s : Field n C) : Field n C → Prop
  | refl : OnWay q goal s s
  | turn {t t₁ : Field n C} {p : Pos n} (h : OnWay q goal s t) (hpop : pop t = some (p, t₁)) (hp : p ≠ goal) :
      OnWay q goal s (q.expand goal (q.setVertex goal t₁ p) p)

theorem Inv.onWay (hi : q.Inv start s) {t : Field n C} (h : q.OnWay goal s t) : q.Inv start t := by
  induction h with
  | refl => exact hi
  | turn _ hpop _ ih => exact (ih.turn goal hpop).1

structure Seeking (q : Query n C) (start goal : Pos n) (s : Field n C) : Prop where
  inv : q.Inv start s
  spread : q.Spread s
  known : s.known start
  goal : goal ∉ s.taken

theorem Seeking.turn (h : q.Seeking start goal s) (hnb : 1 ≤ q.nb) {s₁ : Field n C} (hpop : pop s = some (p, s₁))
    (hp : p ≠ goal) : q.Seeking start goal (q.expand goal (q.setVertex goal s₁ p) p) := by
  obtain ⟨hi, ht, hk, hspread⟩ := h.inv.turn goal hpop
  refine ⟨hi, hspread hnb h.spread, hk start h.known, ?_⟩
  rw [ht, List.mem_cons, not_or]
  exact ⟨hp.symm, h.goal⟩

omit [Add C] in
theorem Seeking.covered (h : q.Seeking start goal s) (hpop : pop s = none) (hr : q.Reachable start m) : m ∈ s.taken := by
  have hi := h.inv
  have htaken : ∀ x, s.known x → x ∈ s.taken := by
    intro x hx
    rcases hx with hopen | hclose
    · rw [pop_none hi hpop x] at hopen
      cases hopen
    · exact (hi.closed x).2 hclose
  induction hr with
  | refl => exact htaken start h.known
  | tail _ he ih => exact htaken _ (h.spread _ ih _ he)

omit [Add C] [LT C] [DecidableLT C] in
theorem Inv.tidy (hi : q.Inv start s) : s.Tidy := fun p hp => hi.blank p (fun hk => hp (hi.clear p hk))

theorem openStart_inv (goal : Pos n) (hs : s.Tidy) (hw : q.subzone start ≠ WALL) :
    q.Inv start (q.openStart goal start s) ∧ (q.openStart goal start s).taken = [] ∧
      (q.openStart goal start s).known start := by
  have hcleared : (fun p => if p ∈ s.clear then Node.blank else s.node p) = fun _ : Pos n => (Node.blank : Node n C) := by
    funext p
    split
    · rfl
    · next hp => exact hs p hp
  have hempty : Heap.Placed ({ s.openset with elts := [] } : Heap (Pos n)) := fun i e he => by cases he
  have hmoves := fun greater => Heap.add_moves greater hempty (e := start) List.not_mem_nil
  have hset : ∀ (v : Node n C) (h : Heap (Pos n)), v.isopen = true → v.isclose = false → v.parent = none →
      h.Placed → h.elts.Perm [start] →
      q.Inv start ⟨Function.update (fun _ => Node.blank) start v, h, [start], []⟩ ∧
        Field.known (⟨Function.update (fun _ => Node.blank) start v, h, [start], []⟩ : Field n C) start := by
    intro v h hopen hclose hparent hp hperm
    have hself : Field.known (⟨Function.update (fun _ => Node.blank) start v, h, [start], []⟩ : Field n C) start := by
      refine Or.inl ?_
      simp [hopen]
    have hknown : ∀ p, Field.known (⟨Function.update (fun _ => Node.blank) start v, h, [start], []⟩ : Field n C) p →
        p = start := by
      intro p hk
      by_contra hps
      unfold Field.known at hk
      simp only [Function.update_of_ne hps] at hk
      rcases hk with hk | hk <;> cases hk
    have hnone : ∀ p, (Function.update (fun _ => (Node.blank : Node n C)) start v p).parent = none := by
      intro p
      by_cases hps : p = start
      · rw [hps, Function.update_self, hparent]
      · rw [Function.update_of_ne hps]
        rfl
    refine ⟨?_, hself⟩
    constructor
    · exact hp
    · intro p
      rw [hperm.mem_iff, List.mem_singleton]
      show p = start ↔ (Function.update (fun _ => Node.blank) start v p).isopen = true
      refine ⟨fun hps => ?_, fun hop => hknown p (Or.inl hop)⟩
      rw [hps, Function.update_self, hopen]
    · intro p
      refine ⟨nofun, fun hcl => ?_⟩
      have hcl : (Function.update (fun _ => Node.blank) start v p).isclose = true := hcl
      rw [hknown p (Or.inr hcl), Function.update_self, hclose] at hcl
      cases hcl
    · intro p hop
      have hop : (Function.update (fun _ => Node.blank) start v p).isopen = true := hop
      show (Function.update (fun _ => Node.blank) start v p).isclose = false
      rw [hknown p (Or.inl hop), Function.update_self, hclose]
    · exact List.nodup_nil
    · intro p hk
      have hps : p ≠ start := fun hps => hk (by rwa [hps])
      exact Function.update_of_ne hps v (fun _ => Node.blank)
    · exact fun p hk => List.mem_singleton.2 (hknown p hk)
    · intro p parent hpar
      cases (hnone p).symm.trans hpar
    · exact fun p hk _ => hknown p hk
    · intro p hk
      rw [hknown p hk]
      exact ⟨hw, Relation.ReflTransGen.refl⟩
  unfold openStart
  rw [hcleared]
  obtain ⟨hi, hk⟩ := hset ⟨0, 0 + q.estimate2 start goal, true, false, q.usable start.id, none⟩ _ rfl rfl rfl
    (hmoves _).2 (hmoves _).1
  exact ⟨hi, rfl, hk⟩

omit [Add C] [LT C] [DecidableLT C] in
theorem chain_ends (hi : q.Inv start s) : ∀ (k : Nat) (parent : Option (Pos n)), 0 < k →
    (∀ p, parent = some p → ∃ later old, s.taken = later ++ p :: old ∧ old.length + 1 < k) →
    ∃ cells, chain s start k parent = some cells
  | 0, _, hk, _ => by omega
  | k + 1, none, _, _ => ⟨[], rfl⟩
  | k + 1, some p, _, hp => by
    obtain ⟨later, old, heq, hlen⟩ := hp p rfl
    unfold chain
    split
    · exact ⟨[], rfl⟩
    · have hnext : ∀ m, (s.node p).parent = some m → ∃ later old, s.taken = later ++ m :: old ∧ old.length + 1 < k := by
        intro m hm
        obtain ⟨mid, rest, hold⟩ := List.append_of_mem ((hi.earlier p m hm).2 later old heq)
        refine ⟨later ++ p :: mid, rest, ?_, ?_⟩
        · rw [heq, hold, List.append_assoc, List.cons_append]
        · rw [hold, List.length_append, List.length_cons] at hlen
          omega
      obtain ⟨cells, hcells⟩ := chain_ends hi k _ (by omega) hnext
      exact ⟨cells ++ [p], by rw [hcells]; rfl⟩

omit [Add C] [LT C] [DecidableLT C] in
theorem chain_taken (hi : q.Inv start s) : ∀ (k : Nat) (p : Pos n) (cells : List (Pos n)), p ∈ s.taken →
    chain s start k (s.node p).parent = some cells → start ∈ s.taken ∧ ∀ x ∈ cells, x ∈ s.taken
  | 0, _, _, _, hc => by cases hc
  | k + 1, p, cells, hp, hc => by
    cases hpar : (s.node p).parent with
    | none =>
      rw [hpar] at hc
      rw [← Option.some.inj hc, ← hi.root p (hi.known_taken hp) hpar]
      exact ⟨hp, fun x hx => by cases hx⟩
    | some m =>
      rw [hpar] at hc
      unfold chain at hc
      have hm : m ∈ s.taken := (hi.earlier p m hpar).1
      split at hc
      · next hms =>
        rw [← Option.some.inj hc, ← hms]
        exact ⟨hm, fun x hx => by cases hx⟩
      · obtain ⟨cells', hc', rfl⟩ := Option.map_eq_some_iff.1 hc
        obtain ⟨hstart, hrest⟩ := chain_taken hi k m cells' hm hc'
        refine ⟨hstart, fun x hx => ?_⟩
        rcases List.mem_append.1 hx with hx | hx
        · exact hrest x hx
        · rwa [List.mem_singleton.1 hx]

theorem getPath_ends (hs : s.Tidy) (hws : q.subzone start ≠ WALL) (hwg : q.subzone goal ≠ WALL) {fuel : Nat}
    (hfuel : n * n < fuel) (ptr : List (Pos n)) : ∃ s', q.Inv start s' ∧
      (q.search goal fuel (q.openStart goal start s) = some (s', false) ∧
        q.getPath fuel start.1 start.2 goal.1 goal.2 ptr s = some (s', none) ∨
      q.search goal fuel (q.openStart goal start s) = some (s', true) ∧ goal ∈ s'.taken ∧
        ∃ cells, chain s' start fuel (s'.node goal).parent = some cells ∧
          q.getPath fuel start.1 start.2 goal.1 goal.2 ptr s =
            some (s', some (ptr ++ (if ptr.getLast? = some start then [] else [start]) ++ cells ++ [goal]))) := by
  obtain ⟨hi, ht, -⟩ := openStart_inv goal hs hws
  have hspot : ∀ p : Pos n, spot n ((p.1 : Nat) : Int) ((p.2 : Nat) : Int) = some p := fun p => spot_eq_some.2 ⟨rfl, rfl⟩
  obtain ⟨⟨s', found⟩, hr⟩ := search_ends fuel _ hi (by rw [ht]; exact hfuel)
  obtain ⟨hfound, hlost⟩ := search_rule q goal (I := q.Inv start)
    (F := fun t => q.Inv start t ∧ goal ∈ t.taken)
    (fun t p t₁ hI hpop _ => (hI.turn goal hpop).1)
    (fun t t₁ hI hpop => by
      obtain ⟨hI', ht', -⟩ := hI.settle goal hpop
      exact ⟨hI', ht' ▸ List.mem_cons_self⟩) fuel _ s' found hi hr
  unfold getPath
  rw [hspot, hspot]
  simp only [hws, hwg, decide_false, Bool.or_self, Bool.false_eq_true, if_false, hr]
  cases found with
  | false => exact ⟨s', (hlost rfl).1, Or.inl ⟨rfl, rfl⟩⟩
  | true =>
    obtain ⟨hi', hgoal⟩ := hfound rfl
    have hlen := hi'.length_taken
    obtain ⟨cells, hcells⟩ := chain_ends hi' fuel (s'.node goal).parent (by omega) (fun p hp => by
      obtain ⟨later', old', heq'⟩ := List.append_of_mem hgoal
      obtain ⟨mid, rest, hold⟩ := List.append_of_mem ((hi'.earlier goal p hp).2 later' old' heq')
      refine ⟨later' ++ goal :: mid, rest, ?_, ?_⟩
      · rw [heq', hold, List.append_assoc, List.cons_append]
      · have hsum := congrArg List.length heq'
        rw [hold, List.length_append, List.length_cons, List.length_append, List.length_cons] at hsum
        omega)
    refine ⟨s', hi', Or.inr ⟨rfl, hgoal, cells, hcells, ?_⟩⟩
    simp only [hcells]

end

end Query

/-- A call of `GetPath`, with the points it appends to. -/
structure Call (n : Nat) (C : Type) extends Query n C where
  x₁ : Nat
  y₁ : Nat
  x₂ : Nat
  y₂ : Nat
  ptr : List (Pos n)

variable [Zero C] [Add C] [LT C] [DecidableLT C] {q : Query n C} {start goal : Pos n} {s : Field n C}

def Call.run (fuel : Nat) (s : Field n C) (c : Call n C) : Option (Field n C) :=
  (c.getPath fuel c.x₁ c.y₁ c.x₂ c.y₂ c.ptr s).map Prod.fst

def Call.runs (fuel : Nat) (calls : List (Call n C)) : Option (Field n C) :=
  calls.foldlM (Call.run fuel) Field.fresh

theorem Call.run_tidy (hs : s.Tidy) {fuel : Nat} (hfuel : n * n < fuel) (c : Call n C) :
    ∃ s', c.run fuel s = some s' ∧ s'.Tidy := by
  have hsame : (c.getPath fuel c.x₁ c.y₁ c.x₂ c.y₂ c.ptr s = some (s, none)) → ∃ s', c.run fuel s = some s' ∧ s'.Tidy :=
    fun h => ⟨s, by unfold run; rw [h]; rfl, hs⟩
  cases h₁ : spot n c.x₁ c.y₁ with
  | none =>
    refine hsame ?_
    unfold Query.getPath
    rw [h₁]
  | some start =>
    cases h₂ : spot n c.x₂ c.y₂ with
    | none =>
      refine hsame ?_
      unfold Query.getPath
      rw [h₁, h₂]
    | some goal =>
      by_cases hw : c.subzone start = WALL ∨ c.subzone goal = WALL
      · refine hsame ?_
        unfold Query.getPath
        rw [h₁, h₂]
        simp [hw]
      · rw [not_or] at hw
        obtain ⟨hx₁, hy₁⟩ := spot_eq_some.1 h₁
        obtain ⟨hx₂, hy₂⟩ := spot_eq_some.1 h₂
        have hx₁ : c.x₁ = start.1 := Int.ofNat.inj hx₁
        have hy₁ : c.y₁ = start.2 := Int.ofNat.inj hy₁
        have hx₂ : c.x₂ = goal.1 := Int.ofNat.inj hx₂
        have hy₂ : c.y₂ = goal.2 := Int.ofNat.inj hy₂
        obtain ⟨s', hi, ⟨-, hget⟩ | ⟨-, -, cells, -, hget⟩⟩ := Query.getPath_ends hs hw.1 hw.2 hfuel c.ptr
        all_goals
          refine ⟨s', ?_, hi.tidy⟩
          unfold run
          rw [hx₁, hy₁, hx₂, hy₂, hget]
          rfl

theorem Call.runs_tidy {fuel : Nat} (hfuel : n * n < fuel) : ∀ (calls : List (Call n C)) (s : Field n C), s.Tidy →
    ∃ s', calls.foldlM (Call.run fuel) s = some s' ∧ s'.Tidy
  | [], s, hs => ⟨s, rfl, hs⟩
  | c :: calls, s, hs => by
    obtain ⟨s₁, hrun, hs₁⟩ := c.run_tidy hs hfuel
    rw [List.foldlM_cons, hrun]
    exact runs_tidy hfuel calls s₁ hs₁

/-- **A search ends, takes every cell once at most, and finds the goal if and only if it can be reached.** -/
theorem complete_of_run (earlier : List (Call n C)) (q : Query n C) (start goal : Pos n) (hws : q.subzone start ≠ WALL)
    (hwg : q.subzone goal ≠ WALL) (hnb : 1 ≤ q.nb) {fuel : Nat} (hfuel : n * n < fuel) (ptr : List (Pos n)) :
    ∃ s, Call.runs fuel earlier = some s ∧
      (∀ t, q.OnWay goal (q.openStart goal start s) t → t.taken.Nodup ∧ t.Acyclic) ∧
      ∃ s' path, q.getPath fuel start.1 start.2 goal.1 goal.2 ptr s = some (s', path) ∧ s'.taken.Nodup ∧ s'.Acyclic ∧
        (path.isSome = true ↔ q.Reachable start goal) := by
  obtain ⟨s, hruns, hs⟩ := Call.runs_tidy hfuel earlier Field.fresh (fun _ _ => rfl)
  obtain ⟨hi, ht, hknown⟩ := Query.openStart_inv goal hs hws
  refine ⟨s, hruns, fun t hway => ⟨(hi.onWay hway).nodup, (hi.onWay hway).acyclic⟩, ?_⟩
  obtain ⟨s', hi', ⟨hlost, hget⟩ | ⟨-, hgoal, cells, -, hget⟩⟩ := Query.getPath_ends hs hws hwg hfuel ptr
  · refine ⟨s', none, hget, hi'.nodup, hi'.acyclic, nofun, fun hr => ?_⟩
    have hnil : ∀ p, p ∉ (q.openStart goal start s).taken := by
      rw [ht]
      exact fun p => List.not_mem_nil
    have hstart : q.Seeking start goal (q.openStart goal start s) :=
      ⟨hi, fun p hp => absurd hp (hnil p), hknown, hnil goal⟩
    obtain ⟨-, hend⟩ := Query.search_rule q goal (I := q.Seeking start goal) (F := fun _ => True)
      (fun t p t₁ h hpop hp => h.turn hnb hpop hp) (fun _ _ _ _ => trivial) fuel _ s' false hstart hlost
    obtain ⟨hseek, hpop⟩ := hend rfl
    exact absurd (hseek.covered hpop hr) hseek.goal
  · exact ⟨s', _, hget, hi'.nodup, hi'.acyclic, fun _ => (hi'.ground goal (hi'.known_taken hgoal)).2, fun _ => rfl⟩

/-- Four cells, of which two lie in zones of their own, one belongs to every zone and one is a wall.  Costs are hundredths
of the distance, cut off. -/
def corner : Query 2 Nat where
  subzone p := if p = (0, 0) then 1 else if p = (0, 1) then 2 else if p = (1, 0) then CHECK else WALL
  railway := []
  railwayaid := []
  friendaid _ := []
  aid := 0
  nb := 1
  walk x y x' y' := Nat.sqrt (10000 * ((x - x').natAbs ^ 2 + (y - y').natAbs ^ 2))
  railwayTime := 0

theorem complete_of_run_corner : ∃ s, Call.runs 5 [⟨corner, 1, 0, 0, 0, []⟩] = some s ∧
    (∀ t, corner.OnWay (0, 1) (corner.openStart (0, 1) (0, 0) s) t → t.taken.Nodup ∧ t.Acyclic) ∧
    ∃ s' path, corner.getPath 5 0 0 0 1 [] s = some (s', path) ∧ s'.taken.Nodup ∧ s'.Acyclic ∧
      (path.isSome = true ↔ corner.Reachable (0, 0) (0, 1)) :=
  complete_of_run [⟨corner, 1, 0, 0, 0, []⟩] corner (0, 0) (0, 1) (by decide) (by decide) (Nat.le_refl 1) (by decide) []

end AStar
end Sncpp
