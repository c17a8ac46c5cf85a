import Mathlib.Combinatorics.SimpleGraph.Metric
/-!
# Dfs — a depth-first search that marks what it looks at

Each node has a list of neighbours, and each of them stands behind an edge that is open or closed.  The search marks a
neighbour when it first looks at it and goes on from it if the edge is open, so that a node that was first looked at
through a closed edge is never entered.  What it finds can be reached through open edges (`search_sound`).
-/
namespace Sncpp
namespace Dfs

variable {ζ : Type} [DecidableEq ζ] (nbrs : ζ → List (ζ × Bool)) (e : ζ)

/-- The loop over the neighbours of a node; `rec` is the search from the next one. -/
def loop (rec : ζ → List ζ → Option (Bool × List ζ)) : List (ζ × Bool) → List ζ → Option (Bool × List ζ)
  | [], check => some (false, check)
  | (z, ok) :: l, check =>
    if z ∈ check then loop rec l check
    else if ok then
      if z = e then some (true, z :: check)
      else (rec z (z :: check)).bind fun r => if r.1 then some r else loop rec l r.2
    else loop rec l (z :: check)

/-- The search from a node: whether `e` was found, and what has been marked by then. -/
def search : Nat → ζ → List ζ → Option (Bool × List ζ)
  | 0, _, _ => none
  | n + 1, z, check => if z = e then some (true, check) else loop e (search n) (nbrs z) check

def Edge (z y : ζ) : Prop := (y, true) ∈ nbrs z

def Closed (z y : ζ) : Prop := (y, false) ∈ nbrs z

variable {nbrs e} {n : Nat} {z y : ζ} {l : List (ζ × Bool)} {check c : List ζ} {b : Bool}
  {rec : ζ → List ζ → Option (Bool × List ζ)}

/-! ## Marks stay, and enough fuel is enough -/

theorem loop_grows (hrec : ∀ z check b c, rec z check = some (b, c) → check ⊆ c) :
    ∀ (l : List (ζ × Bool)) (check : List ζ), loop e rec l check = some (b, c) → check ⊆ c
  | [], check, h => by
    rw [loop, Option.some.injEq, Prod.mk.injEq] at h
    rw [h.2]
    exact List.Subset.refl c
  | (z, ok) :: l, check, h => by
    have hcons : check ⊆ z :: check := List.subset_cons_self z check
    rw [loop] at h
    split_ifs at h with hz hok he
    · exact loop_grows hrec l check h
    · cases h
      exact hcons
    · obtain ⟨⟨b', c'⟩, hr, h⟩ := Option.bind_eq_some_iff.1 h
      have hc' := List.Subset.trans hcons (hrec z _ b' c' hr)
      cases b' with
      | true =>
        cases h
        exact hc'
      | false => exact List.Subset.trans hc' (loop_grows hrec l c' h)
    · exact List.Subset.trans hcons (loop_grows hrec l _ h)

theorem search_grows : ∀ (n : Nat) (z : ζ) (check : List ζ) (b : Bool) (c : List ζ),
    search nbrs e n z check = some (b, c) → check ⊆ c
  | 0, _, _, _, _, h => by cases h
  | n + 1, z, check, b, c, h => by
    rw [search] at h
    split_ifs at h
    · cases h
      exact List.Subset.refl _
    · exact loop_grows (search_grows n) _ _ h

theorem loop_returns (hgrows : ∀ z check b c, rec z check = some (b, c) → check ⊆ c) :
    ∀ (l : List (ζ × Bool)) (check : List ζ),
      (∀ c z, check ⊆ c → z ∉ c → ∃ r, rec z (z :: c) = some r) → ∃ r, loop e rec l check = some r
  | [], check, _ => ⟨_, rfl⟩
  | (z, ok) :: l, check, hrec => by
    rw [loop]
    split_ifs with hz hok he
    · exact loop_returns hgrows l check hrec
    · exact ⟨_, rfl⟩
    · obtain ⟨⟨b, c⟩, hr⟩ := hrec check z (List.Subset.refl _) hz
      rw [hr]
      cases b with
      | true => exact ⟨_, rfl⟩
      | false =>
        have hc : check ⊆ c := List.Subset.trans (List.subset_cons_self z check) (hgrows z _ _ c hr)
        exact loop_returns hgrows l c (fun c' z' hc' => hrec c' z' (List.Subset.trans hc hc'))
    · exact loop_returns hgrows l _ (fun c z' hc => hrec c z' (List.Subset.trans (List.subset_cons_self z check) hc))

/-- **The search comes to an end**: `zs` has all the nodes with neighbours. -/
theorem search_returns {zs : Finset ζ} (hzs : ∀ z, z ∉ zs → nbrs z = []) : ∀ (n : Nat) (z : ζ) (check : List ζ),
    (z ∉ zs ∧ 1 ≤ n ∨ (zs \ check.toFinset).card + 2 ≤ n) → ∃ r, search nbrs e n z check = some r
  | 0, _, _, h => by omega
  | n + 1, z, check, h => by
    rw [search]
    split_ifs with he
    · exact ⟨_, rfl⟩
    rcases h with ⟨hz, -⟩ | hroom
    · exact ⟨_, by rw [hzs z hz, loop]⟩
    refine loop_returns (search_grows n) _ _ fun c z' hc hz' => search_returns hzs n z' _ ?_
    by_cases hmem : z' ∈ zs
    · -- the next node is marked, so there is one less to mark
      refine .inr ?_
      have hlt : (zs \ (z' :: c).toFinset).card < (zs \ check.toFinset).card := by
        refine Finset.card_lt_card ⟨fun u hu => ?_, fun hsub => ?_⟩
        · rw [Finset.mem_sdiff, List.mem_toFinset] at hu ⊢
          exact ⟨hu.1, fun hcheck => hu.2 (List.mem_cons_of_mem _ (hc hcheck))⟩
        · have := hsub (Finset.mem_sdiff.2 ⟨hmem, fun hcheck => hz' (hc (List.mem_toFinset.1 hcheck))⟩)
          simp at this
      omega
    · exact .inl ⟨hmem, by omega⟩

/-! ## What is found can be reached -/

theorem loop_sound (hrec : ∀ z check c, rec z check = some (true, c) → Relation.ReflTransGen (Edge nbrs) z e) :
    ∀ (l : List (ζ × Bool)) (check : List ζ), loop e rec l check = some (true, c) →
      ∃ y, (y, true) ∈ l ∧ Relation.ReflTransGen (Edge nbrs) y e
  | [], check, h => by cases h
  | (z, ok) :: l, check, h => by
    have hrest : (∃ y, (y, true) ∈ l ∧ Relation.ReflTransGen (Edge nbrs) y e) →
        ∃ y, (y, true) ∈ (z, ok) :: l ∧ Relation.ReflTransGen (Edge nbrs) y e :=
      fun ⟨y, hy, hr⟩ => ⟨y, List.mem_cons_of_mem _ hy, hr⟩
    rw [loop] at h
    split_ifs at h with hz hok he
    · exact hrest (loop_sound hrec l check h)
    · subst hok he
      exact ⟨z, List.mem_cons_self, .refl⟩
    · obtain ⟨⟨b, c'⟩, hr, h⟩ := Option.bind_eq_some_iff.1 h
      subst hok
      cases b with
      | true => exact ⟨z, List.mem_cons_self, hrec z _ c' hr⟩
      | false => exact hrest (loop_sound hrec l c' h)
    · exact hrest (loop_sound hrec l _ h)

theorem search_sound : ∀ (n : Nat) (z : ζ) (check c : List ζ), search nbrs e n z check = some (true, c) →
    Relation.ReflTransGen (Edge nbrs) z e
  | 0, _, _, _, h => by cases h
  | n + 1, z, check, c, h => by
    rw [search] at h
    split_ifs at h with he
    · rw [he]
    · obtain ⟨y, hy, hr⟩ := loop_sound (search_sound n) _ _ h
      exact .head hy hr

/-! ## What can be reached is found, where no closed edge leads to it -/

/-- The nodes of `R` that were marked on the way from `check` to `c` are not `e`, and their open neighbours are marked. -/
structure Done (nbrs : ζ → List (ζ × Bool)) (e : ζ) (R : ζ → Prop) (check c : List ζ) : Prop where
  grows : check ⊆ c
  done : ∀ u ∈ c, u ∉ check → R u → u ≠ e ∧ ∀ y, Edge nbrs u y → y ∈ c

variable {R : ζ → Prop} {c' : List ζ}

omit [DecidableEq ζ] in
theorem Done.refl : Done nbrs e R c c := ⟨List.Subset.refl c, fun _ hu hnot => absurd hu hnot⟩

theorem Done.trans (h : Done nbrs e R check c) (h' : Done nbrs e R c c') : Done nbrs e R check c' where
  grows := List.Subset.trans h.grows h'.grows
  done u hu hnot hR := by
    by_cases hc : u ∈ c
    · obtain ⟨hne, hedge⟩ := h.done u hc hnot hR
      exact ⟨hne, fun y hy => h'.grows (hedge y hy)⟩
    · exact h'.done u hu hc hR

omit [DecidableEq ζ] in
theorem Done.mark (h : ¬R z) : Done nbrs e R check (z :: check) where
  grows := List.subset_cons_self z check
  done u hu hnot hR := by
    rcases List.mem_cons.1 hu with rfl | hu
    · exact absurd hR h
    · exact absurd hu hnot

theorem Done.enter (h : Done nbrs e R (z :: check) c) (hne : z ≠ e) (hedge : ∀ y, Edge nbrs z y → y ∈ c) :
    Done nbrs e R check c where
  grows := List.Subset.trans (List.subset_cons_self z check) h.grows
  done u hu hnot hR := by
    by_cases huz : u = z
    · subst huz
      exact ⟨hne, hedge⟩
    · exact h.done u hu (fun hmem => (List.mem_cons.1 hmem).elim huz hnot) hR

/-- What a search from a marked node of `R` that does not find `e` leaves behind. -/
def Leaves (nbrs : ζ → List (ζ × Bool)) (e : ζ) (R : ζ → Prop) (rec : ζ → List ζ → Option (Bool × List ζ)) : Prop :=
  ∀ z check c, R z → z ∈ check → rec z check = some (false, c) →
    Done nbrs e R check c ∧ z ≠ e ∧ ∀ y, Edge nbrs z y → y ∈ c

theorem loop_false (hrec : Leaves nbrs e R rec) : ∀ (l : List (ζ × Bool)) (check : List ζ),
    (∀ y, (y, true) ∈ l → R y) → (∀ y, (y, false) ∈ l → y ∈ check ∨ ¬R y) → loop e rec l check = some (false, c) →
      Done nbrs e R check c ∧ ∀ y, (y, true) ∈ l → y ∈ c
  | [], check, _, _, h => by
    cases h
    exact ⟨.refl, fun y hy => by cases hy⟩
  | (z, ok) :: l, check, hopen, hclosed, h => by
    have hopen' : ∀ y, (y, true) ∈ l → R y := fun y hy => hopen y (List.mem_cons_of_mem _ hy)
    have hclosed' : ∀ c, check ⊆ c → ∀ y, (y, false) ∈ l → y ∈ c ∨ ¬R y := fun c hc y hy =>
      (hclosed y (List.mem_cons_of_mem _ hy)).imp_left fun hy => hc hy
    rw [loop] at h
    split_ifs at h with hz hok he
    · obtain ⟨hdone, hl⟩ := loop_false hrec l check hopen' (hclosed' _ (List.Subset.refl _)) h
      refine ⟨hdone, fun y hy => ?_⟩
      rcases List.mem_cons.1 hy with heq | hy
      · cases heq
        exact hdone.grows hz
      · exact hl y hy
    · cases h
    · subst hok
      obtain ⟨⟨b, c'⟩, hr, h⟩ := Option.bind_eq_some_iff.1 h
      cases b with
      | true => cases h
      | false =>
        obtain ⟨hsub, hne, hedge⟩ := hrec z _ c' (hopen z List.mem_cons_self) List.mem_cons_self hr
        have hstep := hsub.enter hne hedge
        obtain ⟨hdone, hl⟩ := loop_false hrec l c' hopen' (hclosed' _ hstep.grows) h
        refine ⟨hstep.trans hdone, fun y hy => ?_⟩
        rcases List.mem_cons.1 hy with heq | hy
        · cases heq
          exact hdone.grows (hsub.grows List.mem_cons_self)
        · exact hl y hy
    · rw [Bool.not_eq_true] at hok
      subst hok
      have hnot : ¬R z := (hclosed z List.mem_cons_self).resolve_left hz
      obtain ⟨hdone, hl⟩ := loop_false hrec l (z :: check) hopen' (hclosed' _ (List.subset_cons_self z check)) h
      refine ⟨(Done.mark hnot).trans hdone, fun y hy => ?_⟩
      rcases List.mem_cons.1 hy with heq | hy
      · cases heq
      · exact hl y hy

theorem search_leaves (hopen : ∀ z y, R z → Edge nbrs z y → R y) (hclosed : ∀ z y, R z → Closed nbrs z y → y = z ∨ ¬R y) :
    ∀ n, Leaves nbrs e R (search nbrs e n)
  | 0, _, _, _, _, _, h => by cases h
  | n + 1, z, check, c, hz, hcheck, h => by
    rw [search] at h
    split_ifs at h with he
    · cases h
    · obtain ⟨hdone, hl⟩ := loop_false (search_leaves hopen hclosed n) (nbrs z) check (fun y hy => hopen z y hz hy)
        (fun y hy => (hclosed z y hz hy).imp_left fun heq => by rwa [heq]) h
      exact ⟨hdone, he, hl⟩

/-- **The search finds what can be reached**, where no closed edge joins two nodes that can be reached. -/
theorem search_complete {s : ζ} (hclosed : ∀ x w, Relation.ReflTransGen (Edge nbrs) s x →
    Relation.ReflTransGen (Edge nbrs) s w → Closed nbrs x w → w = x) (he : Relation.ReflTransGen (Edge nbrs) s e)
    (h : search nbrs e n s [s] = some (b, c)) : b = true := by
  cases b with
  | true => rfl
  | false =>
    obtain ⟨hdone, hne, hedge⟩ := search_leaves (fun z y hz hy => hz.tail hy)
      (fun z y hz hy => or_iff_not_imp_right.2 fun hR => hclosed z y hz (not_not.1 hR) hy) n s [s] c .refl
      List.mem_cons_self h
    have hall : ∀ u, Relation.ReflTransGen (Edge nbrs) s u → u ∈ c ∧ u ≠ e := by
      intro u hu
      have hself : ∀ u, u ∈ c → Relation.ReflTransGen (Edge nbrs) s u → u ≠ e ∧ ∀ y, Edge nbrs u y → y ∈ c := by
        intro u hu hR
        by_cases hus : u = s
        · subst hus
          exact ⟨hne, hedge⟩
        · exact hdone.done u hu (by simpa using hus) hR
      induction hu with
      | refl => exact ⟨hdone.grows List.mem_cons_self, hne⟩
      | tail hsy hyu ih =>
        have hmem := (hself _ ih.1 hsy).2 _ hyu
        exact ⟨hmem, (hself _ hmem (hsy.tail hyu)).1⟩
    exact absurd rfl (hall e he).2

/-! ## A closed edge that is looked at too early -/

theorem loop_marked (hgrows : ∀ z check b c, rec z check = some (b, c) → check ⊆ c)
    (hrec : ∀ z check b c, e ∈ check → z ≠ e → rec z check = some (b, c) → b = false) :
    ∀ (l : List (ζ × Bool)) (check : List ζ), e ∈ check → loop e rec l check = some (b, c) → b = false
  | [], check, _, h => by
    cases h
    rfl
  | (z, ok) :: l, check, he, h => by
    have hcons : e ∈ z :: check := List.mem_cons_of_mem z he
    rw [loop] at h
    split_ifs at h with hz hok hze
    · exact loop_marked hgrows hrec l check he h
    · exact absurd (hze ▸ he) hz
    · obtain ⟨⟨b', c'⟩, hr, h⟩ := Option.bind_eq_some_iff.1 h
      have hb' : b' = false := hrec z _ b' c' hcons hze hr
      subst hb'
      exact loop_marked hgrows hrec l c' (hgrows z _ _ c' hr hcons) h
    · exact loop_marked hgrows hrec l _ hcons h

theorem search_marked : ∀ (n : Nat) (z : ζ) (check : List ζ) (b : Bool) (c : List ζ), e ∈ check → z ≠ e →
    search nbrs e n z check = some (b, c) → b = false
  | 0, _, _, _, _, _, _, h => by cases h
  | n + 1, z, check, b, c, he, hz, h => by
    rw [search, if_neg hz] at h
    exact loop_marked (search_grows n) (search_marked n) _ _ he h

/-- Where each node of `P` looks first at one that is nearer to `x`, and `x` looks first at `e` through a closed edge, a
search through `P` marks `e` and does not find it. -/
theorem search_blocked {P : ζ → Prop} {d : ζ → Nat} {x : ζ} (hx : ∃ l, nbrs x = (e, false) :: l)
    (hstep : ∀ z, P z → z ≠ x → ∃ y l, nbrs z = (y, true) :: l ∧ P y ∧ d y < d z) (hne : ∀ z, P z → z ≠ e) :
    ∀ (n : Nat) (z : ζ) (check : List ζ) (b : Bool) (c : List ζ), P z → (∀ u ∈ check, d z ≤ d u) →
      search nbrs e n z check = some (b, c) → b = false ∧ e ∈ c
  | 0, _, _, _, _, _, _, h => by cases h
  | n + 1, z, check, b, c, hz, hd, h => by
    by_cases he : e ∈ check
    · exact ⟨search_marked _ _ _ _ _ he (hne z hz) h, search_grows _ _ _ _ _ h he⟩
    rw [search, if_neg (hne z hz)] at h
    by_cases hzx : z = x
    · -- the closed edge is looked at, and `e` is marked
      subst hzx
      obtain ⟨l, hl⟩ := hx
      rw [hl, loop, if_neg he, if_neg (by decide)] at h
      exact ⟨loop_marked (search_grows n) (search_marked n) _ _ List.mem_cons_self h,
        loop_grows (search_grows n) _ _ h List.mem_cons_self⟩
    · obtain ⟨y, l, hl, hy, hlt⟩ := hstep z hz hzx
      have hcheck : y ∉ check := fun hmem => absurd (hd y hmem) (by omega)
      rw [hl, loop, if_neg hcheck, if_pos rfl, if_neg (hne y hy)] at h
      obtain ⟨⟨b', c'⟩, hr, h⟩ := Option.bind_eq_some_iff.1 h
      have hd' : ∀ u ∈ y :: check, d y ≤ d u := by
        intro u hu
        rcases List.mem_cons.1 hu with rfl | hu
        · exact le_refl _
        · exact (hlt.le).trans (hd u hu)
      obtain ⟨rfl, hmem⟩ := search_blocked hx hstep hne n y _ b' c' hy hd' hr
      exact ⟨loop_marked (search_grows n) (search_marked n) _ _ hmem h, loop_grows (search_grows n) _ _ h hmem⟩

variable (nbrs) in
/-- The open edges between nodes other than those of `avoid`. -/
def avoiding (avoid : ζ → Prop) : SimpleGraph ζ :=
  SimpleGraph.fromRel (fun a b => Edge nbrs a b ∧ ¬avoid a ∧ ¬avoid b)

omit [DecidableEq ζ] in
theorem avoiding_adj (hsymm : ∀ z y, Edge nbrs z y → Edge nbrs y z) {avoid : ζ → Prop} {a b : ζ} :
    (avoiding nbrs avoid).Adj a b ↔ a ≠ b ∧ Edge nbrs a b ∧ ¬avoid a ∧ ¬avoid b := by
  rw [avoiding, SimpleGraph.fromRel_adj]
  have := hsymm a b
  have := hsymm b a
  tauto

omit [DecidableEq ζ] in
/-- A way to `x` and a way to `w`: one of the two does without the other node. -/
theorem reachable_avoiding (hsymm : ∀ z y, Edge nbrs z y → Edge nbrs y z) {s x w u : ζ} (hxw : x ≠ w)
    (h : Relation.ReflTransGen (Edge nbrs) s u) :
    s ≠ w ∧ (avoiding nbrs (· = w)).Reachable s x ∨ s ≠ x ∧ (avoiding nbrs (· = x)).Reachable s w ∨
      u ≠ x ∧ u ≠ w ∧ s ≠ x ∧ s ≠ w ∧ (avoiding nbrs (fun v => v = x ∨ v = w)).Reachable s u := by
  by_cases hsx : s = x
  · exact .inl ⟨hsx ▸ hxw, hsx ▸ .rfl⟩
  by_cases hsw : s = w
  · exact .inr (.inl ⟨hsx, hsw ▸ .rfl⟩)
  induction h with
  | refl => exact .inr (.inr ⟨hsx, hsw, hsx, hsw, .rfl⟩)
  | @tail v u hsv hvu ih =>
    rcases ih with hx | hw | ⟨hvx, hvw, -, -, hv⟩
    · exact .inl hx
    · exact .inr (.inl hw)
    have hmono : ∀ {avoid : ζ → Prop}, (∀ v, avoid v → v = x ∨ v = w) → (avoiding nbrs avoid).Reachable s v := by
      intro avoid havoid
      refine hv.mono fun a b hab => ?_
      rw [avoiding_adj hsymm] at hab ⊢
      exact ⟨hab.1, hab.2.1, fun ha => hab.2.2.1 (havoid a ha), fun hb => hab.2.2.2 (havoid b hb)⟩
    by_cases hux : u = x
    · subst hux
      refine .inl ⟨hsw, (hmono fun v hv => .inr hv).trans (SimpleGraph.Adj.reachable ?_)⟩
      exact (avoiding_adj hsymm).2 ⟨hvx, hvu, hvw, hxw⟩
    by_cases huw : u = w
    · subst huw
      refine .inr (.inl ⟨hsx, (hmono fun v hv => .inl hv).trans (SimpleGraph.Adj.reachable ?_)⟩)
      exact (avoiding_adj hsymm).2 ⟨hvw, hvu, hvx, hux⟩
    refine .inr (.inr ⟨hux, huw, hsx, hsw, ?_⟩)
    by_cases hvu' : v = u
    · exact hvu' ▸ hv
    · refine hv.trans (SimpleGraph.Adj.reachable ((avoiding_adj hsymm).2 ⟨hvu', hvu, ?_, ?_⟩))
      · exact not_or.2 ⟨hvx, hvw⟩
      · exact not_or.2 ⟨hux, huw⟩

omit [DecidableEq ζ] in
theorem exists_nearer {G : SimpleGraph ζ} {a x : ζ} (h : G.Reachable a x) (hne : a ≠ x) :
    ∃ y, G.Adj a y ∧ G.Reachable y x ∧ G.dist y x < G.dist a x := by
  obtain ⟨p, hp⟩ := h.exists_walk_length_eq_dist
  cases p with
  | nil => exact absurd rfl hne
  | @cons _ y _ hadj p =>
    refine ⟨y, hadj, ⟨p⟩, ?_⟩
    have hle := SimpleGraph.dist_le p
    rw [SimpleGraph.Walk.length_cons] at hp
    omega

/-- **A closed edge between two nodes that can be reached hides one of them**, if the nodes look at their neighbours in
the right order: `first` says which they look at first. -/
theorem exists_blocked (hsymm : ∀ z y, Edge nbrs z y → Edge nbrs y z) (hcsymm : ∀ z y, Closed nbrs z y → Closed nbrs y z)
    {s x w : ζ} (hxw : x ≠ w) (hx : Relation.ReflTransGen (Edge nbrs) s x) (hw : Relation.ReflTransGen (Edge nbrs) s w)
    (hclosed : Closed nbrs x w) : ∃ (e : ζ) (first : ζ → Option (ζ × Bool)), Relation.ReflTransGen (Edge nbrs) s e ∧
      (∀ z a, first z = some a → a ∈ nbrs z) ∧
      ∀ nbrs' : ζ → List (ζ × Bool), (∀ z a, first z = some a → ∃ l, nbrs' z = a :: l) →
        ∀ n b c, search nbrs' e n s [s] = some (b, c) → b = false := by
  -- one of the two can be reached without the other
  wlog hreach : s ≠ w ∧ (avoiding nbrs (· = w)).Reachable s x generalizing x w
  · refine this hxw.symm hw hx (hcsymm x w hclosed) ?_
    rcases reachable_avoiding hsymm hxw hx with h | h | ⟨h, -⟩
    · exact absurd h hreach
    · exact h
    · exact absurd rfl h
  obtain ⟨hsw, hreach⟩ := hreach
  set G := avoiding nbrs (· = w) with hG
  have hnext : ∀ z, ∃ a, (z = x → a = (w, false)) ∧ (z ≠ x → G.Reachable z x → a.2 = true ∧ G.Adj z a.1 ∧
      G.Reachable a.1 x ∧ G.dist a.1 x < G.dist z x) := by
    intro z
    by_cases hzx : z = x
    · exact ⟨(w, false), fun _ => rfl, fun h => absurd hzx h⟩
    by_cases hz : G.Reachable z x
    · obtain ⟨y, hadj, hy, hlt⟩ := exists_nearer hz hzx
      exact ⟨(y, true), fun h => absurd h hzx, fun _ _ => ⟨rfl, hadj, hy, hlt⟩⟩
    · exact ⟨(z, true), fun h => absurd h hzx, fun _ h => absurd h hz⟩
  choose next hnextx hnext using hnext
  classical
  refine ⟨w, fun z => if G.Reachable z x then some (next z) else none, hw, fun z a ha => ?_, fun nbrs' hfirst n b c h => ?_⟩
  · simp only [Option.ite_none_right_eq_some, Option.some.injEq] at ha
    obtain ⟨hz, rfl⟩ := ha
    by_cases hzx : z = x
    · rw [hnextx z hzx, hzx]
      exact hclosed
    · obtain ⟨htrue, hadj, -⟩ := hnext z hzx hz
      have hedge := ((avoiding_adj hsymm).1 hadj).2.1
      rw [Edge] at hedge
      rwa [← htrue] at hedge
  · have hfirst' : ∀ z, G.Reachable z x → ∃ l, nbrs' z = next z :: l := fun z hz => hfirst z _ (by simp [hz])
    refine (search_blocked (P := fun z => z ≠ w ∧ G.Reachable z x) (d := fun z => G.dist z x) (x := x) ?_
      (fun z hz hzx => ?_) (fun z hz => hz.1) n s [s] b c ⟨hsw, hreach⟩ (by simp) h).1
    · obtain ⟨l, hl⟩ := hfirst' x .rfl
      exact ⟨l, by rw [hl, hnextx x rfl]⟩
    · obtain ⟨htrue, hadj, hy, hlt⟩ := hnext z hzx hz.2
      obtain ⟨l, hl⟩ := hfirst' z hz.2
      refine ⟨(next z).1, l, ?_, ⟨((avoiding_adj hsymm).1 hadj).2.2.2, hy⟩, hlt⟩
      rw [hl, ← htrue]

end Dfs
end Sncpp
