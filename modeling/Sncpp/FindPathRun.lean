import Sncpp.FindPathTurn
/-!
# FindPathRun — calls of `FindPath`, one after another

`look` checks the row of a chunk and not its column, so that a ring may leave the grid.
-/
namespace Sncpp
namespace MapSearch

open AStar

variable {n k : Nat} {C : Type}

def On (k : Nat) (z : Int × Int) : Prop := (0 ≤ z.1 ∧ z.1 < k) ∧ 0 ≤ z.2 ∧ z.2 < k

namespace Call

variable (c : Call n k C) [Zero C] [Add C] [LT C] [DecidableLT C]

structure Sound (start goal : Pos n) (path : List (Pos n × Bool)) : Prop where
  first : (path.map Prod.fst).head? = some start
  last : (path.map Prod.fst).getLast? = some goal
  noWall : ∀ p ∈ path.map Prod.fst, c.map.subzone p ≠ WALL
  linked : (path.map Prod.fst).IsChain c.Joined
  marked : ∀ (i : Nat) (p : Pos n), path[i]? = some (p, true) → ∃ b, (path[i + 1]?).map Prod.fst = some b ∧ c.rides p b = true

/-- **What a call should do**: the chunks that it reads are on the grid, and a path that it returns is sound. -/
structure Right (w : World n k C) : Prop where
  reads : ∀ se ∈ c.ends, ∀ s ∈ c.scouts se.1 se.2, ∀ z ∈ s.reads, On k z
  path : ∀ path, (c.findPath w).2 = some path → ∃ start goal, c.ends = some (start, goal) ∧ c.Sound start goal path

/-- The chunk of a point is on the grid, and a side of a ring that is gone through does not leave it to the left or right. -/
structure Roomy (zone : Int) (p : Pos n) : Prop where
  first : xToChunckX p.1 < k ∧ xToChunckX p.2 < k
  sides : c.zoneAt (xToChunckX p.1, xToChunckX p.2) = WALL →
    Steps.Along (c.ring zone) (fun s r => s.isfind = false →
      Steps.Along (c.walkSide zone r)
        (fun s side => ∀ z ∈ side.points s r, 0 ≤ z.2 ∧ z.2 < k → z.2 ≠ s.cy → 0 ≤ z.1 ∧ z.1 < k) s sides)
      (scoutAt p) (List.range 10)

structure Kept (w : World n k C) : Prop where
  room : ∀ se ∈ c.ends, c.Roomy (c.map.subzone se.2) se.1 ∧
    ((c.scout (c.map.subzone se.2) se.1).isfind = true → c.Roomy (c.map.subzone se.2) se.2)
  turns : ∀ tr ∈ (c.lead w).2, Steps.Along (c.turn tr)
    (fun t gph₂ => t.going = true → c.Fits tr t.ptr gph₂ (c.plan tr (c.see t gph₂) gph₂)) (c.setOut tr w.fine) tr.rest
  once : ∀ tr ∈ (c.lead w).2, (c.tour w tr).ok = true → 0 < c.aid →
    ∀ ab ∈ (c.tour w tr).ptr.zip (c.tour w tr).ptr.tail, c.rides ab.1 ab.2 = true → (c.tour w tr).ptr.count ab.1 = 1

variable {c} {a b p : Pos n}

omit [Zero C] [Add C] [LT C] [DecidableLT C] in
theorem look_reads {zone : Int} : ∀ (zs : List (Int × Int)) (s : Scout),
    (∀ z ∈ zs, 0 ≤ z.2 ∧ z.2 < k → z.2 ≠ s.cy → 0 ≤ z.1 ∧ z.1 < k) → (∀ z ∈ s.reads, On k z) → ∀ z ∈ (c.look zone s zs).reads, On k z
  | [], _, _, hs => hs
  | z :: zs, s, hzs, hs => by
    have hrest := fun z' hz' => hzs z' (List.mem_cons_of_mem z hz')
    unfold look
    split
    · next hz =>
      have hreads : ∀ z' ∈ s.reads ++ [z], On k z' := by
        intro z' hz'
        rcases List.mem_append.1 hz' with hz' | hz'
        · exact hs z' hz'
        · rw [List.mem_singleton.1 hz']
          exact ⟨hzs z List.mem_cons_self ⟨hz.1, hz.2.1⟩ hz.2.2.2, hz.1, hz.2.1⟩
      simp only
      split
      · exact hreads
      · exact look_reads zs _ hrest hreads
    · exact look_reads zs s hrest hs

omit [Zero C] [Add C] [LT C] [DecidableLT C] in
theorem Roomy.reads {zone : Int} (h : c.Roomy zone p) : ∀ z ∈ (c.scout zone p).reads, On k z := by
  have hfirst : ∀ z ∈ (scoutAt p).reads, On k z := by
    intro z hz
    rw [List.mem_singleton.1 hz]
    have hx : 0 ≤ xToChunckX p.1 := Int.ediv_nonneg (Int.natCast_nonneg _) (by decide)
    have hy : 0 ≤ xToChunckX p.2 := Int.ediv_nonneg (Int.natCast_nonneg _) (by decide)
    exact ⟨⟨hx, h.first.1⟩, hy, h.first.2⟩
  unfold scout
  split
  · next hwall =>
    refine Steps.Along.inv (I := fun s => ∀ z ∈ s.reads, On k z) (fun s r hr hs => ?_) (List.range 10) _ (h.sides hwall) hfirst
    unfold ring
    split
    · exact hs
    · next hno =>
      exact Steps.Along.inv (I := fun s => ∀ z ∈ s.reads, On k z) (fun s side hok hs => look_reads _ s hok hs) MapSearch.sides s
        (hr (Bool.eq_false_iff.2 hno)) hs
  · exact hfirst

omit [Zero C] [Add C] [LT C] [DecidableLT C] in
theorem israilway_setNode {s : Field n C} {b : Bool} (x : Pos n) :
    ((s.setNode p { s.node p with israilway := b }).node x).israilway = if x = p then b else (s.node x).israilway := by
  show (Function.update s.node p _ x).israilway = _
  by_cases hx : x = p
  · subst hx
    rw [Function.update_self, if_pos rfl]
  · rw [Function.update_of_ne hx, if_neg hx]

omit [Add C] [LT C] [DecidableLT C] in
theorem unmark_spec : ∀ (ptr : List (Pos n)) (s : Field n C), s.Tidy →
    (ptr.foldl (fun s p => s.setNode p { s.node p with israilway := false }) s).Tidy ∧
      ∀ p ∈ ptr, ((ptr.foldl (fun s p => s.setNode p { s.node p with israilway := false }) s).node p).israilway = false := by
  intro ptr s hs
  have hstep : ∀ (s : Field n C) (p : Pos n), s.Tidy → (s.setNode p { s.node p with israilway := false }).Tidy := by
    intro s p hs x hx
    by_cases hxp : x = p
    · subst hxp
      refine (Function.update_self ..).trans ?_
      rw [hs x hx]
      rfl
    · exact (Function.update_of_ne hxp _ _).trans (hs x hx)
  refine ⟨Steps.inv_of_run (I := Field.Tidy) hstep ptr s hs, ?_⟩
  induction ptr using List.reverseRecOn with
  | nil => exact fun p hp => by cases hp
  | append_singleton ptr x ih =>
    intro p hp
    rw [List.foldl_append, List.foldl_cons, List.foldl_nil, israilway_setNode]
    split
    · rfl
    · next hpx =>
      rw [List.mem_append, List.mem_singleton] at hp
      exact ih p (hp.resolve_right hpx)

omit [Add C] [LT C] [DecidableLT C] in
theorem markRail_spec : ∀ (l : List (Pos n × Pos n)) (s : Field n C), s.Tidy → (l.foldl c.markRail s).Tidy ∧
    ∀ p, ((l.foldl c.markRail s).node p).israilway = true →
      (s.node p).israilway = true ∨ ∃ b, (p, b) ∈ l ∧ c.rides p b = true
  | [], s, hs => ⟨hs, fun _ hp => Or.inl hp⟩
  | ab :: l, s, hs => by
    have hstep : (c.markRail s ab).Tidy ∧ ∀ p, ((c.markRail s ab).node p).israilway = true →
        (s.node p).israilway = true ∨ p = ab.1 ∧ c.rides ab.1 ab.2 = true := by
      unfold markRail
      split
      · next h =>
        refine ⟨fun x hx => ?_, fun p hp => ?_⟩
        · have hx : x ∉ s.clear ++ [ab.1] := hx
          rw [List.mem_append, List.mem_singleton, not_or] at hx
          exact (Function.update_of_ne hx.2 _ _).trans (hs x hx.1)
        · have hp := (israilway_setNode (s := s) p).symm.trans hp
          split at hp
          · next heq => exact Or.inr ⟨heq, h.1⟩
          · exact Or.inl hp
      · exact ⟨hs, fun p hp => Or.inl hp⟩
    obtain ⟨htidy, hrest⟩ := markRail_spec l _ hstep.1
    refine ⟨htidy, fun p hp => ?_⟩
    rcases hrest p hp with hp | ⟨b, hb, hr⟩
    · refine (hstep.2 p hp).imp_right fun h => ⟨ab.2, ?_, ?_⟩
      · rw [h.1]
        exact List.mem_cons_self
      · rw [h.1]
        exact h.2
    · exact Or.inr ⟨b, List.mem_cons_of_mem ab hb, hr⟩

omit [Zero C] [Add C] [LT C] [DecidableLT C] in
theorem index_unique {l : List (Pos n)} (hcount : l.count p = 1) {i j : Nat} (hi : l[i]? = some p) (hj : l[j]? = some p) :
    i = j := by
  have hle : ∀ i j : Nat, l[i]? = some p → l[j]? = some p → ¬i < j := by
    intro i j hi hj hlt
    have hbefore : 0 < (l.take j).count p := by
      refine List.count_pos_iff.2 (List.mem_of_getElem? (i := i) ?_)
      rw [List.getElem?_take_of_lt hlt, hi]
    have hbehind : 0 < (l.drop j).count p := by
      refine List.count_pos_iff.2 (List.mem_of_getElem? (i := 0) ?_)
      rw [List.getElem?_drop, Nat.add_zero, hj]
    rw [← List.take_append_drop j l, List.count_append] at hcount
    omega
  exact Nat.le_antisymm (Nat.not_lt.1 (hle j i hj hi)) (Nat.not_lt.1 (hle i j hi hj))

omit [Add C] [LT C] [DecidableLT C] in
theorem marks_spec {ptr : List (Pos n)} {s : Field n C} (hs : s.Tidy) (hunmarked : c.aid = 0 → s.Unmarked)
    (honce : 0 < c.aid → ∀ ab ∈ ptr.zip ptr.tail, c.rides ab.1 ab.2 = true → ptr.count ab.1 = 1) :
    (c.marks ptr s).Tidy ∧ ∀ (i : Nat) (p : Pos n), ptr[i]? = some p → ((c.marks ptr s).node p).israilway = true →
      ∃ b, ptr[i + 1]? = some b ∧ c.rides p b = true := by
  unfold marks
  split
  · next haid =>
    obtain ⟨htidy, hno⟩ := unmark_spec ptr s hs
    obtain ⟨htidy', hyes⟩ := markRail_spec (c := c) (ptr.zip ptr.tail) _ htidy
    refine ⟨htidy', fun i p hi hp => ?_⟩
    rcases hyes p hp with hp | ⟨b, hb, hr⟩
    · rw [hno p (List.mem_of_getElem? hi)] at hp
      cases hp
    · obtain ⟨j, hj⟩ := List.mem_iff_getElem?.1 hb
      obtain ⟨hj₁, hj₂⟩ := List.getElem?_zip_eq_some.1 hj
      rw [List.getElem?_tail] at hj₂
      obtain rfl := index_unique (honce haid (p, b) hb hr) hi hj₁
      exact ⟨b, hj₂, hr⟩
  · next haid =>
    refine ⟨hs, fun i p _ hp => ?_⟩
    rw [hunmarked (Nat.eq_zero_of_not_pos haid) p] at hp
    cases hp

omit [Zero C] [Add C] [LT C] [DecidableLT C] in
theorem ends_spec (h : c.ends = some (a, b)) : c.map.subzone a ≠ WALL ∧ c.map.subzone b ≠ WALL := by
  unfold ends at h
  split at h
  · split at h
    · cases h
    · next hw =>
      obtain ⟨rfl, rfl⟩ := Prod.mk.inj (Option.some.inj h)
      exact not_or.1 hw
  · cases h

theorem lead_spec {w : World n k C} (hw : w.coarse.Tidy) : (c.lead w).1.Tidy ∧
    ∀ tr ∈ (c.lead w).2, c.ends = some (tr.start, tr.goal) ∧ c.Lawful tr := by
  unfold lead
  split
  · exact ⟨hw, nofun⟩
  next start goal hends =>
  split
  · split
    · split
      · next field first rest hget =>
        refine ⟨Query.getPath_tidy hw (Nat.lt_succ_self _) hget, fun tr htr => ?_⟩
        obtain rfl := Option.some.inj htr
        obtain ⟨hstart, hgoal⟩ := ends_spec hends
        exact ⟨hends, hstart, hgoal, fun haid => Query.getPath_unmarked hw (usable_zero haid) hget⟩
      · next field _ _ hget => exact ⟨Query.getPath_tidy hw (Nat.lt_succ_self _) hget, nofun⟩
      · exact ⟨hw, nofun⟩
    · exact ⟨hw, nofun⟩
  · exact ⟨hw, nofun⟩

/-- **A call that finds what it needs does what it should**, and leaves what the next search clears. -/
theorem findPath_spec {w : World n k C} (hfine : w.fine.Tidy) (hcoarse : w.coarse.Tidy) (hk : c.Kept w) :
    ((c.findPath w).1.fine.Tidy ∧ (c.findPath w).1.coarse.Tidy) ∧ c.Right w := by
  obtain ⟨hlead, hway⟩ := lead_spec (c := c) hcoarse
  have hreads : ∀ se ∈ c.ends, ∀ s ∈ c.scouts se.1 se.2, ∀ z ∈ s.reads, On k z := by
    intro se hse s hs
    obtain ⟨hstart, hgoal⟩ := hk.room se hse
    unfold scouts at hs
    simp only at hs
    split at hs
    · next hfind =>
      rcases List.mem_cons.1 hs with rfl | hs
      · exact hstart.reads
      · rw [List.mem_singleton.1 hs]
        exact (hgoal hfind).reads
    · rw [List.mem_singleton.1 hs]
      exact hstart.reads
  have hpath : ((c.findPath w).1.fine.Tidy ∧ (c.findPath w).1.coarse.Tidy) ∧
      ∀ path, (c.findPath w).2 = some path → ∃ start goal, c.ends = some (start, goal) ∧ c.Sound start goal path := by
    unfold findPath
    split
    · exact ⟨⟨hfine, hlead⟩, nofun⟩
    next tr htr =>
    obtain ⟨hends, hlawful⟩ := hway tr htr
    obtain ⟨hheld, hend⟩ := tour_held hfine hlawful (hk.turns tr htr)
    simp only
    split
    · next h =>
      have hg := hheld.good h.1
      obtain ⟨htidy, hmarks⟩ := marks_spec hheld.tidy (fun haid => hg.unmarked haid h.2) (hk.once tr htr h.1)
      refine ⟨⟨htidy, hlead⟩, fun path hp => ⟨tr.start, tr.goal, hends, ?_⟩⟩
      obtain rfl := Option.some.inj hp
      have hfst : ((c.tour w tr).ptr.map fun p => (p, ((c.marks (c.tour w tr).ptr (c.tour w tr).field).node p).israilway)).map
          Prod.fst = (c.tour w tr).ptr := by
        rw [List.map_map]
        exact List.map_id _
      constructor
      · rw [hfst]
        obtain ⟨x, l, hptr⟩ := List.exists_cons_of_ne_nil h.2
        have hhead : (c.tour w tr).ptr.head? = some x := by rw [hptr, List.head?_cons]
        rw [hhead, hg.first x hhead]
      · rw [hfst]
        exact hheld.done (hend h.2) h.1
      · rw [hfst]
        exact hg.noWall
      · rw [hfst]
        exact hg.linked
      · intro i p hi
        rw [List.getElem?_map, Option.map_eq_some_iff] at hi
        obtain ⟨p', hi, heq⟩ := hi
        obtain ⟨rfl, hmark⟩ := Prod.mk.inj heq
        obtain ⟨b, hb, hr⟩ := hmarks i p' hi hmark
        refine ⟨b, ?_, hr⟩
        rw [List.getElem?_map, hb]
        rfl
    · exact ⟨⟨hheld.tidy, hlead⟩, nofun⟩
  exact ⟨hpath.1, hreads, hpath.2⟩

end Call

variable [Zero C] [Add C] [LT C] [DecidableLT C]

def World.step (w : World n k C) (c : Call n k C) : World n k C := (c.findPath w).1

def gate : Call 10 2 Nat where
  map := ⟨fun p => if p.1.val = 9 then 2 else 1, [], [], fun _ => []⟩
  chunck := ⟨fun p => if p.1.val = 1 then 2 else CHECK, [], [], fun _ => []⟩
  zoneconnect := ((spot 10 8 0).bind fun p1 => (spot 10 9 0).map fun p2 => ⟨1, p1, 2, p2⟩).toList
  beyond _ := 0
  aid := 0
  walk x y x' y' := Nat.sqrt (10000 * ((x - x').natAbs ^ 2 + (y - y').natAbs ^ 2))
  railwayTime := 0
  chunckTime := 0
  x₁ := 8
  y₁ := 0
  x₂ := 9
  y₂ := 0

def edge : Call 18 2 Nat :=
  { gate with
    map := ⟨fun _ => 1, [], [], fun _ => []⟩, chunck := ⟨fun p => if p.1.val = 0 ∧ p.2.val = 0 then WALL else 1, [], [], fun _ => []⟩,
    zoneconnect := [], x₁ := 4, y₁ := 4, x₂ := 4, y₂ := 4 }

end MapSearch
end Sncpp
