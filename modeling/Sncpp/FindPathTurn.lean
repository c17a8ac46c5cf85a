import Sncpp.AStarFound
import Sncpp.FindPath
/-!
# FindPathTurn — what a turn over the chunks adds to the points

A search of the cells goes on from the last point, or from one that is joined to it (`Good.go`), and so do the points that
are added by themselves.  What does not hold in general is that a train goes where one is taken, and that the two ends of a
connection belong together: that is what `Fits` asks for.  What a turn keeps, the whole way keeps (`tour_held`).
-/
namespace Sncpp
namespace MapSearch

open AStar

variable {n k : Nat} {C : Type}

namespace Call

variable (c : Call n k C)

def pairs (a b : Pos n) : Bool := c.zoneconnect.any fun r => r.p1 == a && r.p2 == b || r.p2 == a && r.p1 == b

variable [Zero C] [Add C] [LT C] [DecidableLT C]

/-- The points follow each other on a path that `GetPath` returns. -/
def Segment (a b : Pos n) : Prop :=
  ∃ (s s' : Field n C) (start goal : Pos n) (path : List (Pos n)), s.Tidy ∧
    c.fine.getPath (n * n + 1) start.1 start.2 goal.1 goal.2 [] s = some (s', some path) ∧ [a, b] <:+: path

def Joined (a b : Pos n) : Prop := c.Segment a b ∨ c.rides a b = true ∨ c.pairs a b = true

/-- **The turns that go well.**  Where a train is taken, a railway leads from the one point to the other, which is new and,
where the way goes on from there, no wall; a way does not end with a walk to a station other than the goal; and the ends of a
connection are those of one row. -/
def Fits (tr : Trail n k) (ptr : List (Pos n)) (gph₂ : Pos k) : Plan n → Prop
  | .arrive t₁ t₂ => t₁ = t₂ ∨ c.rides t₁ t₂ = true ∧ t₂ ∉ ptr
  | .ride _ t₃ t₂ => c.rides t₃ t₂ = true ∧ t₂ ∉ ptr ∧ c.map.subzone t₂ ≠ WALL
  | .walk _ t₂ _ => gph₂ = tr.back → t₂ = tr.goal
  | .cross _ g₃ g₄ => g₄ ∈ ptr ∨ c.map.subzone g₄ ≠ WALL ∧ (g₃ = g₄ ∨ c.pairs g₃ g₄ = true)
  | .finish _ (some (g₃, g₄)) => g₃ = g₄ ∨ c.pairs g₃ g₄ = true
  | _ => True

instance (tr : Trail n k) (ptr : List (Pos n)) (gph₂ : Pos k) : ∀ plan, Decidable (c.Fits tr ptr gph₂ plan)
  | .arrive t₁ t₂ => inferInstanceAs (Decidable (t₁ = t₂ ∨ c.rides t₁ t₂ = true ∧ t₂ ∉ ptr))
  | .ride _ t₃ t₂ => inferInstanceAs (Decidable (c.rides t₃ t₂ = true ∧ t₂ ∉ ptr ∧ c.map.subzone t₂ ≠ WALL))
  | .walk _ t₂ _ => inferInstanceAs (Decidable (gph₂ = tr.back → t₂ = tr.goal))
  | .cross _ g₃ g₄ => inferInstanceAs (Decidable (g₄ ∈ ptr ∨ c.map.subzone g₄ ≠ WALL ∧ (g₃ = g₄ ∨ c.pairs g₃ g₄ = true)))
  | .finish _ (some (g₃, g₄)) => inferInstanceAs (Decidable (g₃ = g₄ ∨ c.pairs g₃ g₄ = true))
  | .pass | .skip _ | .fail | .finish _ none => isTrue trivial

variable {c} {start goal a b p : Pos n} {t : Tour n k C}

structure Good (c : Call n k C) (start : Pos n) (t : Tour n k C) : Prop where
  clear : ∀ p, t.ptr.getLast? = some p → p ∈ t.field.clear
  first : ∀ p, t.ptr.head? = some p → p = start
  noWall : ∀ p ∈ t.ptr, c.map.subzone p ≠ WALL
  linked : t.ptr.IsChain c.Joined
  unmarked : c.aid = 0 → t.ptr ≠ [] → t.field.Unmarked

omit [Zero C] [Add C] [LT C] [DecidableLT C] in
theorem usable_zero {m : Nat} {q : Query m C} (haid : q.aid = 0) (key : Int) : q.usable key = false := by
  unfold Query.usable
  rw [haid]
  rfl

theorem Good.same (h : c.Good start t) {t' : Tour n k C} (hfield : t'.field = t.field) (hptr : t'.ptr = t.ptr) :
    c.Good start t' := by
  constructor
  · rw [hptr, hfield]
    exact h.clear
  · rw [hptr]
    exact h.first
  · rw [hptr]
    exact h.noWall
  · rw [hptr]
    exact h.linked
  · rw [hptr, hfield]
    exact h.unmarked

theorem linked_found {s s' : Field n C} (hs : s.Tidy) {path : List (Pos n)}
    (h : c.fine.getPath (n * n + 1) a.1 a.2 b.1 b.2 [] s = some (s', some path)) : path.IsChain c.Joined := by
  refine List.isChain_iff_getElem.2 fun i hi => Or.inl ⟨s, s', a, b, path, hs, h, path.take i, path.drop (i + 2), ?_⟩
  rw [List.append_assoc, List.cons_append, List.cons_append, List.nil_append, List.getElem_cons_drop,
    List.getElem_cons_drop, List.take_append_drop]

theorem Good.extend (h : c.Good start t) (hstart : t.ptr = [] → a = start)
    (hjoin : ∀ p, t.ptr.getLast? = some p → p = a ∨ c.Joined p a) (tail : List (Pos n)) : ∃ pre,
      t.ptr ++ (if t.ptr.getLast? = some a then [] else [a]) ++ tail = pre ++ [a] ++ tail ∧
      (pre ++ [a]).IsChain c.Joined ∧ (∀ p ∈ pre, p ∈ t.ptr) ∧ ∀ p, (pre ++ [a]).head? = some p → p = start := by
  by_cases hlast : t.ptr.getLast? = some a
  · obtain ⟨pre, hpre⟩ := List.getLast?_eq_some_iff.1 hlast
    refine ⟨pre, ?_, hpre ▸ h.linked, fun p hp => ?_, hpre ▸ h.first⟩
    · rw [if_pos hlast, List.append_nil, ← hpre]
    · rw [hpre]
      exact List.mem_append_left _ hp
  · refine ⟨t.ptr, by rw [if_neg hlast], ?_, fun p hp => hp, fun p hp => ?_⟩
    · refine h.linked.append (List.isChain_singleton a) fun x hx y hy => ?_
      rw [List.head?_cons, Option.mem_def, Option.some.injEq] at hy
      rw [Option.mem_def] at hx
      rw [← hy]
      exact (hjoin x hx).resolve_left fun heq => hlast (heq ▸ hx)
    · cases hptr : t.ptr with
      | nil =>
        rw [hptr, List.nil_append, List.head?_cons, Option.some.injEq] at hp
        exact hp.symm.trans (hstart hptr)
      | cons x l =>
        rw [hptr] at hp
        exact h.first p (by rw [hptr]; exact hp)

theorem Good.go (h : c.Good start t) (ht : t.field.Tidy) (hok : t.ok = true) (hstart : t.ptr = [] → a = start)
    (hjoin : ∀ p, t.ptr.getLast? = some p → p = a ∨ c.Joined p a) : (c.go a b t).field.Tidy ∧
      ((c.go a b t).ok = true → (c.go a b t).going = t.going ∧ (c.go a b t).isfirst = t.isfirst ∧ c.Good start (c.go a b t) ∧
        (c.go a b t).ptr.getLast? = some b ∧ c.map.subzone a ≠ WALL ∧
        (∀ p ∈ (c.go a b t).ptr, p ∈ t.ptr ∨ p ∈ (c.go a b t).field.clear) ∧ ∀ p ∈ t.ptr, p ∈ (c.go a b t).ptr) ∧
      ((c.go a b t).ok = false → (c.go a b t).going = false) := by
  unfold Call.go
  split
  · next field ptr hget =>
    obtain ⟨cells, rfl, hnil, hmem⟩ := Query.getPath_found ht (Nat.lt_succ_self _) hget
    obtain ⟨pre, hptr, hpre, hsub, hfirst⟩ := h.extend hstart hjoin (cells ++ [b])
    rw [← List.append_assoc] at hptr
    have hseg : ∀ p ∈ pre ++ [a] ++ (cells ++ [b]), p ∈ t.ptr ∨ c.map.subzone p ≠ WALL ∧ p ∈ field.clear := by
      intro p hp
      rw [List.append_assoc] at hp
      exact (List.mem_append.1 hp).imp (hsub p) fun hp => hmem p hp
    refine ⟨Query.getPath_tidy ht (Nat.lt_succ_self _) hget, fun _ => ⟨rfl, rfl, ?_, List.getLast?_concat,
      (hmem a List.mem_cons_self).1, ?_, fun p hp => ?_⟩, fun hfalse => absurd (hok.symm.trans hfalse) nofun⟩
    · rw [hptr]
      constructor
      · intro p hp
        rw [← List.append_assoc, List.getLast?_concat, Option.some.injEq] at hp
        rw [← hp]
        exact (hmem b (List.mem_append_right _ (List.mem_singleton_self b))).2
      · intro p hp
        have hhead : (pre ++ [a] ++ (cells ++ [b])).head? = (pre ++ [a]).head? :=
          List.head?_append_of_ne_nil _ (List.append_ne_nil_of_right_ne_nil pre (List.cons_ne_nil a []))
        exact hfirst p (hhead.symm.trans hp)
      · exact fun p hp => (hseg p hp).elim (h.noWall p) And.left
      · exact hpre.append_overlap (linked_found ht hnil) (List.cons_ne_nil a [])
      · exact fun haid _ => Query.getPath_unmarked ht (usable_zero haid) hget
    · rw [hptr]
      exact fun p hp => (hseg p hp).imp_right And.right
    · exact List.mem_append_left _ (List.mem_append_left _ (List.mem_append_left _ hp))
  · next field hget =>
    exact ⟨Query.getPath_tidy ht (Nat.lt_succ_self _) hget, nofun, fun _ => rfl⟩
  · exact ⟨ht, nofun, fun _ => rfl⟩

theorem go_wall (ht : t.field.Tidy) (ha : c.map.subzone a = WALL) : (c.go a b t).field.Tidy ∧ (c.go a b t).ok = false ∧
    (c.go a b t).going = false := by
  unfold Call.go
  split
  · next hget =>
    obtain ⟨cells, -, -, hmem⟩ := Query.getPath_found ht (Nat.lt_succ_self _) hget
    exact absurd ha (hmem a List.mem_cons_self).1
  · next hget => exact ⟨Query.getPath_tidy ht (Nat.lt_succ_self _) hget, rfl, rfl⟩
  · exact ⟨ht, rfl, rfl⟩

theorem Good.mark (h : c.Good start t) (haid : c.aid ≠ 0) (p : Pos n) : c.Good start (t.mark p) :=
  ⟨h.clear, h.first, h.noWall, h.linked, fun hzero => absurd hzero haid⟩

omit [Zero C] [Add C] [LT C] [DecidableLT C] in
theorem addToPtr_eq : t.addToPtr p = if p ∈ t.ptr then t
    else { t with field := { t.field with clear := t.field.clear ++ [p] }, ptr := t.ptr ++ [p] } := by
  simp only [Tour.addToPtr, List.contains_iff_mem]

theorem Good.addToPtr (h : c.Good start t) (hstart : t.ptr = [] → p = start ∧ c.aid ≠ 0)
    (hp : p ∉ t.ptr → c.map.subzone p ≠ WALL ∧ ∀ x, t.ptr.getLast? = some x → c.Joined x p) :
    c.Good start (t.addToPtr p) := by
  rw [addToPtr_eq]
  split
  · exact h
  next hnot =>
  obtain ⟨hw, hjoin⟩ := hp hnot
  constructor
  · intro x hx
    rw [List.getLast?_concat, Option.some.injEq] at hx
    exact List.mem_append_right _ (List.mem_singleton.2 hx.symm)
  · intro x hx
    cases hptr : t.ptr with
    | nil =>
      rw [hptr, List.nil_append, List.head?_cons, Option.some.injEq] at hx
      exact hx.symm.trans (hstart hptr).1
    | cons y l =>
      rw [hptr] at hx
      exact h.first x (by rw [hptr]; exact hx)
  · intro x hx
    rcases List.mem_append.1 hx with hx | hx
    · exact h.noWall x hx
    · rwa [List.mem_singleton.1 hx]
  · refine h.linked.append (List.isChain_singleton p) fun x hx y hy => ?_
    rw [List.head?_cons, Option.mem_def, Option.some.injEq] at hy
    rw [← hy]
    exact hjoin x hx
  · intro haid _
    exact h.unmarked haid fun hnil => (hstart hnil).2 haid

omit [Add C] [LT C] [DecidableLT C] in
theorem tidy_addToPtr (ht : t.field.Tidy) : (t.addToPtr p).field.Tidy := by
  rw [addToPtr_eq]
  split
  · exact ht
  · exact fun x hx => ht x fun hmem => hx (List.mem_append_left _ hmem)

omit [Zero C] [Add C] [LT C] [DecidableLT C] in
theorem board_clear (hx : a ∈ t.field.clear) : a ∈ (t.board p).field.clear := by
  unfold Tour.board
  rw [addToPtr_eq]
  split
  · exact hx
  · exact List.mem_append_left _ hx

omit [Zero C] [Add C] [LT C] [DecidableLT C] in
theorem mem_board (ha : a ∈ (t.board p).ptr) : a ∈ t.ptr ∨ a = p := by
  unfold Tour.board at ha
  rw [addToPtr_eq] at ha
  split at ha
  · exact Or.inl ha
  · exact (List.mem_append.1 ha).imp_right List.mem_singleton.1

omit [Zero C] [Add C] [LT C] [DecidableLT C] in
theorem mem_board_self : p ∈ (t.board p).ptr := by
  unfold Tour.board
  rw [addToPtr_eq]
  split
  · next hmem => exact hmem
  · exact List.mem_append_right _ (List.mem_singleton_self p)

omit [Zero C] [Add C] [LT C] [DecidableLT C] in
theorem addToPtr_last (hp : p ∈ t.ptr → t.ptr.getLast? = some p) : (t.addToPtr p).ptr.getLast? = some p := by
  rw [addToPtr_eq]
  split
  · next hmem => exact hp hmem
  · exact List.getLast?_concat

omit [Zero C] [Add C] [LT C] [DecidableLT C] in
theorem addToPtr_same : (t.addToPtr p).ok = t.ok ∧ (t.addToPtr p).going = t.going ∧ (t.addToPtr p).isfirst = t.isfirst := by
  rw [addToPtr_eq]
  split <;> exact ⟨rfl, rfl, rfl⟩

omit [Add C] [LT C] [DecidableLT C] in
theorem tidy_mark (ht : t.field.Tidy) (hp : p ∈ t.field.clear) : (t.mark p).field.Tidy :=
  fun x hx => (Function.update_of_ne (fun heq : x = p => hx (heq ▸ hp)) _ _).trans (ht x hx)

omit [Add C] [LT C] [DecidableLT C] in
theorem tidy_board (ht : t.field.Tidy) (hp : p ∈ t.ptr → p ∈ t.field.clear) : (t.board p).field.Tidy := by
  unfold Tour.board
  rw [addToPtr_eq]
  split
  · next hmem => exact tidy_mark ht (hp hmem)
  · intro x hx
    have hx : x ∉ t.field.clear ++ [p] := hx
    rw [List.mem_append, List.mem_singleton, not_or] at hx
    exact (Function.update_of_ne hx.2 _ _).trans (ht x hx.1)

theorem board_here (ht : t.field.Tidy) (h : c.Good start t) (haid : c.aid ≠ 0) (hw : c.map.subzone start ≠ WALL)
    (hnil : t.ptr = [] → p = start) (hlast : ∀ x, t.ptr.getLast? = some x → x = p) :
    (t.board p).field.Tidy ∧ c.Good start (t.board p) ∧ (t.board p).ptr.getLast? = some p := by
  have hmem : p ∈ t.ptr → t.ptr.getLast? = some p := by
    intro hp
    obtain ⟨x, hx⟩ := Option.isSome_iff_exists.1 (List.getLast?_isSome.2 (List.ne_nil_of_mem hp))
    rw [hx, hlast x hx]
  have hstart : p ∉ t.ptr → t.ptr = [] := by
    intro hp
    by_contra hne
    obtain ⟨x, hx⟩ := Option.isSome_iff_exists.1 (List.getLast?_isSome.2 hne)
    exact hp (hlast x hx ▸ List.mem_of_getLast? hx)
  refine ⟨tidy_board ht fun hp => h.clear p (hmem hp), (h.mark haid p).addToPtr (fun hn => ⟨hnil hn, haid⟩) ?_,
    addToPtr_last (t := t.mark p) hmem⟩
  intro hp
  refine ⟨hnil (hstart hp) ▸ hw, fun x hx => ?_⟩
  have hx : t.ptr.getLast? = some x := hx
  rw [hstart hp] at hx
  cases hx

theorem board_next (ht : t.field.Tidy) (h : c.Good start t) (haid : c.aid ≠ 0) (hl : t.ptr.getLast? = some a)
    (hp : p ∈ t.ptr → p ∈ t.field.clear) (hw : c.map.subzone p ≠ WALL) (hr : c.rides a p = true) :
    (t.board p).field.Tidy ∧ c.Good start (t.board p) := by
  refine ⟨tidy_board ht hp, (h.mark haid p).addToPtr (fun hn => ?_) fun _ => ⟨hw, fun x hx => ?_⟩⟩
  · have hn : t.ptr = [] := hn
    rw [hn] at hl
    cases hl
  · obtain rfl := Option.some.inj (hl.symm.trans hx)
    exact Or.inr (Or.inl hr)

structure Held (c : Call n k C) (tr : Trail n k) (t : Tour n k C) : Prop where
  tidy : t.field.Tidy
  good : t.ok = true → c.Good tr.start t
  going : t.going = true → t.ok = true ∧ (t.isfirst = true ↔ t.ptr = [])
  done : t.going = false → t.ok = true → t.ptr.getLast? = some tr.goal

/-- What holds before `next`. -/
structure Led (c : Call n k C) (tr : Trail n k) (gph₂ : Pos k) (t : Tour n k C) : Prop where
  tidy : t.field.Tidy
  good : t.ok = true → t.going = true ∧ c.Good tr.start t ∧ t.ptr ≠ [] ∧ (gph₂ = tr.back → t.ptr.getLast? = some tr.goal)
  failed : t.ok = false → t.going = false

variable {tr : Trail n k} {gph₂ : Pos k}

theorem Led.next (h : c.Led tr gph₂ t) : c.Held tr (t.andThen (c.next tr gph₂)) ∧
    (gph₂ = tr.back → (t.andThen (c.next tr gph₂)).going = false) := by
  unfold Tour.andThen
  split
  · next hok =>
    obtain ⟨hgoing, hgood, hne, hlast⟩ := h.good hok
    unfold Call.next
    split
    · next hback => exact ⟨⟨h.tidy, fun _ => hgood.same rfl rfl, nofun, fun _ _ => hlast hback⟩, fun _ => rfl⟩
    · next hback =>
      refine ⟨⟨h.tidy, fun _ => hgood.same rfl rfl, fun _ => ⟨hok, nofun, fun hnil => absurd hnil hne⟩, fun hno => ?_⟩,
        fun hb => absurd hb hback⟩
      cases hgoing.symm.trans hno
  · next hok =>
    have hgoing := h.failed (Bool.eq_false_iff.2 hok)
    exact ⟨⟨h.tidy, fun hyes => absurd hyes hok, fun hyes => absurd (hgoing.symm.trans hyes) nofun,
      fun _ hyes => absurd hyes hok⟩, fun _ => hgoing⟩

omit [Zero C] [Add C] [LT C] [DecidableLT C] in
theorem here_spec (start : Pos n) (hfirst : t.isfirst = true ↔ t.ptr = []) :
    (t.ptr = [] → t.here start = start) ∧ ∀ p, t.ptr.getLast? = some p → p = t.here start := by
  unfold Tour.here
  split
  · next h =>
    refine ⟨fun _ => rfl, fun p hp => ?_⟩
    rw [hfirst.1 h] at hp
    cases hp
  · next h =>
    refine ⟨fun hnil => absurd (hfirst.2 hnil) h, fun p hp => ?_⟩
    rw [List.getLastD_eq_getLast?, hp]
    rfl

def Of (tr : Trail n k) (gph₂ : Pos k) (t₁ : Pos n) : Plan n → Prop
  | .pass => gph₂ ≠ tr.back
  | .skip _ => gph₂ ≠ tr.back
  | .fail => True
  | .arrive t _ => t = t₁ ∧ ∃ g, tr.israilway g = true
  | .ride t _ _ => t = t₁ ∧ gph₂ ≠ tr.back ∧ ∃ g, tr.israilway g = true
  | .walk t _ rail => t = t₁ ∧ (rail = true → ∃ g, tr.israilway g = true)
  | .cross t _ _ => t = t₁ ∧ gph₂ ≠ tr.back
  | .finish t _ => t = t₁

omit [Zero C] [Add C] [LT C] [DecidableLT C] in
theorem plan_of : Of tr gph₂ (t.here tr.start) (c.plan tr t gph₂) := by
  unfold Call.plan
  simp only
  split
  · next h => exact fun hb => h (Or.inr hb)
  split
  · next h =>
    split
    · split
      · exact ⟨rfl, _, h.1⟩
      · next hb =>
        split
        · split
          · exact ⟨rfl, hb, _, h.1⟩
          · trivial
        · exact ⟨rfl, nofun⟩
    · trivial
  split
  · next h =>
    split
    · exact ⟨rfl, fun _ => ⟨_, h⟩⟩
    · trivial
  split
  · next h => exact h.2
  split
  · split
    · rfl
    · next hb =>
      split
      · exact ⟨rfl, nofun⟩
      · exact ⟨rfl, hb⟩
  · split
    · rfl
    · split
      · split
        · exact ⟨rfl, nofun⟩
        · trivial
      · trivial

theorem led_andThen {f : Tour n k C → Tour n k C} (hyes : t.ok = true → c.Led tr gph₂ (f t))
    (hno : t.ok = false → t.field.Tidy ∧ t.going = false) : c.Led tr gph₂ (t.andThen f) := by
  unfold Tour.andThen
  split
  · next hok => exact hyes hok
  · next hok =>
    obtain ⟨htidy, hgoing⟩ := hno (Bool.eq_false_iff.2 hok)
    exact ⟨htidy, fun h => absurd h hok, fun _ => hgoing⟩

section

variable (ht : t.field.Tidy) (hok : t.ok = true) (hgoing : t.going = true) (hg : c.Good tr.start t) {t₁ t₂ t₃ g₃ g₄ : Pos n}
  (hnil : t.ptr = [] → t₁ = tr.start) (hlast : ∀ p, t.ptr.getLast? = some p → p = t₁)

include ht hok hgoing hg

theorem led_go (hnil : t.ptr = [] → a = tr.start) (hjoin : ∀ p, t.ptr.getLast? = some p → p = a ∨ c.Joined p a)
    (hgoal : gph₂ = tr.back → b = tr.goal) : c.Led tr gph₂ (c.go a b t) := by
  obtain ⟨htidy, hyes, hno⟩ := hg.go (b := b) ht hok hnil hjoin
  refine ⟨htidy, fun h => ?_, hno⟩
  obtain ⟨hgo, -, hgood, hl, -⟩ := hyes h
  refine ⟨hgo.trans hgoing, hgood, fun hn => ?_, fun hb => hgoal hb ▸ hl⟩
  rw [hn] at hl
  cases hl

include hnil hlast

theorem led_walk {rail : Bool} (hrail : rail = true → c.aid ≠ 0) (hgoal : gph₂ = tr.back → t₂ = tr.goal) :
    c.Led tr gph₂ ((c.go t₁ t₂ t).andThen fun t => if rail then t.mark t₂ else t) := by
  have hled := led_go ht hok hgoing hg hnil (fun p hp => Or.inl (hlast p hp)) hgoal
  obtain ⟨-, hyes, -⟩ := hg.go (b := t₂) ht hok hnil fun p hp => Or.inl (hlast p hp)
  refine led_andThen (fun h => ?_) fun h => ⟨hled.tidy, hled.failed h⟩
  split
  · next hr =>
    obtain ⟨-, -, hgood, hl, -⟩ := hyes h
    refine ⟨tidy_mark hled.tidy (hgood.clear t₂ hl), fun h' => ?_, hled.failed⟩
    obtain ⟨hgo, -, hrest⟩ := hled.good h'
    exact ⟨hgo, hgood.mark (hrail hr) t₂, hrest⟩
  · exact hled

theorem led_cross (hback : gph₂ ≠ tr.back) (hfits : g₄ ∈ t.ptr ∨ c.map.subzone g₄ ≠ WALL ∧ (g₃ = g₄ ∨ c.pairs g₃ g₄ = true)) :
    c.Led tr gph₂ ((c.go t₁ g₃ t).andThen fun t => t.addToPtr g₄) := by
  obtain ⟨htidy, hyes, hno⟩ := hg.go (b := g₃) ht hok hnil fun p hp => Or.inl (hlast p hp)
  refine led_andThen (fun h => ?_) fun h => ⟨htidy, hno h⟩
  obtain ⟨hgo, -, hgood, hl, -, -, hsub⟩ := hyes h
  obtain ⟨hok', hgo', -⟩ := addToPtr_same (t := c.go t₁ g₃ t) (p := g₄)
  have hne : (c.go t₁ g₃ t).ptr ≠ [] := fun hn => by rw [hn] at hl; cases hl
  refine ⟨tidy_addToPtr htidy, fun _ => ⟨hgo'.trans (hgo.trans hgoing), hgood.addToPtr (fun hn => absurd hn hne) ?_, ?_,
    fun hb => absurd hb hback⟩, fun hf => absurd (hok'.symm.trans hf) (by rw [h]; nofun)⟩
  · intro hnot
    obtain ⟨hw, hjoin⟩ := hfits.resolve_left fun hmem => hnot (hsub g₄ hmem)
    refine ⟨hw, fun x hx => ?_⟩
    obtain rfl := Option.some.inj (hl.symm.trans hx)
    rcases hjoin with rfl | hpair
    · exact absurd (List.mem_of_getLast? hl) hnot
    · exact Or.inr (Or.inr hpair)
  · rw [addToPtr_eq]
    split
    · exact hne
    · exact List.append_ne_nil_of_right_ne_nil _ (List.cons_ne_nil g₄ [])

theorem led_finish (hfits : g₃ = g₄ ∨ c.pairs g₃ g₄ = true) :
    c.Led tr gph₂ ((c.go t₁ g₃ t).andThen (c.go g₄ tr.goal)) := by
  obtain ⟨htidy, hyes, hno⟩ := hg.go (b := g₃) ht hok hnil fun p hp => Or.inl (hlast p hp)
  refine led_andThen (fun h => ?_) fun h => ⟨htidy, hno h⟩
  obtain ⟨hgo, -, hgood, hl, -⟩ := hyes h
  refine led_go htidy h (hgo.trans hgoing) hgood (fun hn => ?_) (fun p hp => ?_) fun _ => rfl
  · rw [hn] at hl
    cases hl
  · obtain rfl := Option.some.inj (hl.symm.trans hp)
    exact hfits.imp_right fun hpair => Or.inr (Or.inr hpair)

theorem led_ride (haid : c.aid ≠ 0) (hw : c.map.subzone tr.start ≠ WALL) (hback : gph₂ ≠ tr.back)
    (hfits : c.rides t₃ t₂ = true ∧ t₂ ∉ t.ptr ∧ c.map.subzone t₂ ≠ WALL) :
    c.Led tr gph₂ ((if t₃ = t₁ then t else c.go t₁ t₃ t).andThen fun t => (t.board t₃).board t₂) := by
  have hboard : ∀ s : Tour n k C, s.field.Tidy → s.ok = true → s.going = true → c.Good tr.start s →
      (s.ptr = [] → t₃ = tr.start) → (∀ p, s.ptr.getLast? = some p → p = t₃) →
      (∀ p ∈ s.ptr, p ∈ t.ptr ∨ p ∈ s.field.clear) → c.Led tr gph₂ ((s.board t₃).board t₂) := by
    intro s hs hsok hsgo hsg hsnil hslast hsmem
    obtain ⟨htidy, hgood, hl⟩ := board_here hs hsg haid hw hsnil hslast
    have hclear : t₂ ∈ (s.board t₃).ptr → t₂ ∈ (s.board t₃).field.clear := by
      intro hmem
      rcases mem_board hmem with hmem | rfl
      · exact board_clear ((hsmem t₂ hmem).resolve_left hfits.2.1)
      · exact hgood.clear _ hl
    obtain ⟨htidy', hgood'⟩ := board_next htidy hgood haid hl hclear hfits.2.2 hfits.1
    obtain ⟨hok₁, hgo₁, -⟩ := addToPtr_same (t := s.mark t₃) (p := t₃)
    obtain ⟨hok₂, hgo₂, -⟩ := addToPtr_same (t := (s.board t₃).mark t₂) (p := t₂)
    refine ⟨htidy', fun _ => ⟨hgo₂.trans (hgo₁.trans hsgo), hgood', ?_, fun hb => absurd hb hback⟩, fun hf => ?_⟩
    · exact List.ne_nil_of_mem (mem_board_self (t := s.board t₃))
    · cases (hok₂.trans (hok₁.trans hsok)).symm.trans hf
  split
  · next heq =>
    subst heq
    exact led_andThen (fun _ => hboard t ht hok hgoing hg hnil hlast fun p hp => Or.inl hp) fun h => by
      rw [hok] at h
      cases h
  · obtain ⟨htidy, hyes, hno⟩ := hg.go (b := t₃) ht hok hnil fun p hp => Or.inl (hlast p hp)
    refine led_andThen (fun h => ?_) fun h => ⟨htidy, hno h⟩
    obtain ⟨hgo, -, hgood, hl, -, hmem, -⟩ := hyes h
    refine hboard _ htidy h (hgo.trans hgoing) hgood (fun hn => ?_) (fun p hp => ?_) hmem
    · rw [hn] at hl
      cases hl
    · exact Option.some.inj (hp.symm.trans hl)

theorem led_arrive (haid : c.aid ≠ 0) (hw : c.map.subzone tr.start ≠ WALL) (hgoal : c.map.subzone tr.goal ≠ WALL)
    (hfits : t₁ = t₂ ∨ c.rides t₁ t₂ = true ∧ t₂ ∉ t.ptr) :
    c.Led tr gph₂ (if t₂ = tr.goal then (t.board t₁).board t₂ else c.go t₂ tr.goal ((t.board t₁).board t₂)) := by
  obtain ⟨htidy, hgood, hl⟩ := board_here ht hg haid hw hnil hlast
  obtain ⟨hok₁, hgo₁, -⟩ := addToPtr_same (t := t.mark t₁) (p := t₁)
  obtain ⟨hok₂, hgo₂, -⟩ := addToPtr_same (t := (t.board t₁).mark t₂) (p := t₂)
  have hled : ((t.board t₁).board t₂).field.Tidy → c.Good tr.start ((t.board t₁).board t₂) →
      ((t.board t₁).board t₂).ptr.getLast? = some t₂ →
      c.Led tr gph₂ (if t₂ = tr.goal then (t.board t₁).board t₂ else c.go t₂ tr.goal ((t.board t₁).board t₂)) := by
    intro htidy' hgood' hl'
    have hne : ((t.board t₁).board t₂).ptr ≠ [] := List.ne_nil_of_mem mem_board_self
    split
    · next heq =>
      refine ⟨htidy', fun _ => ⟨hgo₂.trans (hgo₁.trans hgoing), hgood', hne, fun _ => heq ▸ hl'⟩, fun hf => ?_⟩
      cases (hok₂.trans (hok₁.trans hok)).symm.trans hf
    · exact led_go htidy' (hok₂.trans (hok₁.trans hok)) (hgo₂.trans (hgo₁.trans hgoing)) hgood' (fun hn => absurd hn hne)
        (fun p hp => Or.inl (Option.some.inj (hp.symm.trans hl'))) fun _ => rfl
  by_cases heq : t₁ = t₂
  · subst heq
    obtain ⟨htidy', hgood', hl'⟩ := board_here htidy hgood haid hw (fun hn => by rw [hn] at hl; cases hl)
      fun x hx => Option.some.inj (hx.symm.trans hl)
    exact hled htidy' hgood' hl'
  obtain ⟨hrides, hnot⟩ := hfits.resolve_left heq
  have hnew : t₂ ∉ (t.board t₁).ptr := fun hmem => (mem_board hmem).elim hnot fun h => heq h.symm
  by_cases hwall : c.map.subzone t₂ = WALL
  · rw [if_neg fun h : t₂ = tr.goal => hgoal (h ▸ hwall)]
    obtain ⟨htidy', hno, hgo⟩ := go_wall (b := tr.goal) (tidy_board htidy fun hmem => absurd hmem hnew) hwall
    exact ⟨htidy', fun h => absurd (hno.symm.trans h) nofun, fun _ => hgo⟩
  · obtain ⟨htidy', hgood'⟩ := board_next htidy hgood haid hl (fun hmem => absurd hmem hnew) hwall hrides
    exact hled htidy' hgood' (addToPtr_last (t := (t.board t₁).mark t₂) fun hmem => absurd hmem hnew)

end

/-- Neither end of a way is a wall, and only who may use stations has marks on the way. -/
structure Lawful (c : Call n k C) (tr : Trail n k) : Prop where
  start : c.map.subzone tr.start ≠ WALL
  goal : c.map.subzone tr.goal ≠ WALL
  marks : c.aid = 0 → ∀ g, tr.israilway g = false

/-- **What a turn does keeps what holds between the turns**, and the last one ends the loop. -/
theorem Held.exec (h : c.Held tr t) (hgo : t.going = true) (hl : c.Lawful tr) {plan : Plan n}
    (hof : Of tr gph₂ (t.here tr.start) plan) (hfits : c.Fits tr t.ptr gph₂ plan) :
    c.Held tr (c.exec tr gph₂ t plan) ∧ (gph₂ = tr.back → (c.exec tr gph₂ t plan).going = false) := by
  obtain ⟨hok, hfirst⟩ := h.going hgo
  have hg := h.good hok
  obtain ⟨hnil, hlast⟩ := here_spec tr.start hfirst
  have haid : (∃ g, tr.israilway g = true) → c.aid ≠ 0 := fun hmark hzero => by
    obtain ⟨g, hmark⟩ := hmark
    rw [hl.marks hzero g] at hmark
    cases hmark
  cases plan with
  | pass => exact ⟨h, fun hb => absurd hb hof⟩
  | skip => exact ⟨⟨h.tidy, fun hok => (h.good hok).same rfl rfl, h.going, h.done⟩, fun hb => absurd hb hof⟩
  | fail => exact ⟨⟨h.tidy, nofun, nofun, fun _ => nofun⟩, fun _ => rfl⟩
  | arrive t₁ t₂ =>
    obtain ⟨rfl, hmark⟩ := hof
    exact (led_arrive h.tidy hok hgo hg hnil hlast (haid hmark) hl.start hl.goal hfits).next
  | ride t₁ t₃ t₂ =>
    obtain ⟨rfl, hback, hmark⟩ := hof
    exact (led_ride h.tidy hok hgo hg hnil hlast (haid hmark) hl.start hback hfits).next
  | walk t₁ t₂ rail =>
    obtain ⟨rfl, hmark⟩ := hof
    exact (led_walk h.tidy hok hgo hg hnil hlast (fun hr => haid (hmark hr)) hfits).next
  | cross t₁ g₃ g₄ =>
    obtain ⟨rfl, hback⟩ := hof
    exact (led_cross h.tidy hok hgo hg hnil hlast hback hfits).next
  | finish t₁ conn =>
    obtain rfl := hof
    cases conn with
    | none => exact (led_go h.tidy hok hgo hg hnil (fun p hp => Or.inl (hlast p hp)) fun _ => rfl).next
    | some g => exact (led_finish h.tidy hok hgo hg hnil hlast hfits).next

theorem Held.turn (h : c.Held tr t) (hl : c.Lawful tr)
    (hfits : t.going = true → c.Fits tr t.ptr gph₂ (c.plan tr (c.see t gph₂) gph₂)) :
    c.Held tr (c.turn tr t gph₂) ∧ (gph₂ = tr.back → (c.turn tr t gph₂).going = false) := by
  unfold Call.turn
  split
  · next hgo =>
    have hsee : c.Held tr (c.see t gph₂) ∧ (c.see t gph₂).going = t.going ∧ (c.see t gph₂).ptr = t.ptr := by
      unfold Call.see
      split
      · exact ⟨⟨h.tidy, fun hok => (h.good hok).same rfl rfl, h.going, h.done⟩, rfl, rfl⟩
      · exact ⟨h, rfl, rfl⟩
    obtain ⟨hheld, hgoing, hptr⟩ := hsee
    exact hheld.exec (hgoing.trans hgo) hl plan_of (by rw [hptr]; exact hfits hgo)
  · next hgo => exact ⟨h, fun _ => Bool.eq_false_iff.2 hgo⟩

theorem setOut_held {s : Field n C} (hs : s.Tidy) : c.Held tr (c.setOut tr s) :=
  ⟨hs, fun _ => ⟨nofun, nofun, nofun, List.isChain_nil, fun _ hne => absurd rfl hne⟩, fun _ => ⟨rfl, fun _ => rfl, fun _ => rfl⟩,
    nofun⟩

theorem tour_held {w : World n k C} (hw : w.fine.Tidy) (hl : c.Lawful tr)
    (hturns : Steps.Along (c.turn tr) (fun t gph₂ => t.going = true → c.Fits tr t.ptr gph₂ (c.plan tr (c.see t gph₂) gph₂))
      (c.setOut tr w.fine) tr.rest) :
    c.Held tr (c.tour w tr) ∧ ((c.tour w tr).ptr ≠ [] → (c.tour w tr).going = false) := by
  have hheld : ∀ (l : List (Pos k)) (t : Tour n k C), c.Held tr t → Steps.Along (c.turn tr)
      (fun t gph₂ => t.going = true → c.Fits tr t.ptr gph₂ (c.plan tr (c.see t gph₂) gph₂)) t l →
      c.Held tr (l.foldl (c.turn tr) t) := fun l t ht ha =>
    Steps.Along.inv (fun s e hok hs => (hs.turn hl hok).1) l t ha ht
  refine ⟨hheld _ _ (setOut_held hw) hturns, fun hne => ?_⟩
  rcases List.eq_nil_or_concat tr.rest with hnil | ⟨l, g, hrest⟩
  · unfold Call.tour at hne
    rw [hnil] at hne
    exact absurd rfl hne
  · have hback : g = tr.back := by
      unfold Trail.back
      rw [hrest, List.concat_eq_append, List.getLastD_concat]
    rw [hrest, List.concat_eq_append, Steps.Along.append] at hturns
    unfold Call.tour
    rw [hrest, List.concat_eq_append, List.foldl_append]
    exact ((hheld l _ (setOut_held hw) hturns.1).turn hl hturns.2.1).2 hback

end Call
end MapSearch
end Sncpp
