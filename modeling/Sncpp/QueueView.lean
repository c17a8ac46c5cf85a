import Sncpp.QueueBind
/-!
# QueueView — the client's view of the marches

What each call to a level tells the players around it takes a client that showed what was in its view to one that shows what
is in it now (`Calls`).  A request does not: its answer is the difference from what the last answer had, which the messages
in between do not change, so that a client may keep a march that came into view since, or never hear again of one that
left (`Keeps`).
-/
namespace Sncpp
namespace QueueAoi

open Aoi (Board)

variable {S : Static} {b : Board}

/-! ## What a player hears from one level -/

def Msg.shown (m : Msg) (c : Bool) : Bool :=
  match m with
  | .updateViewQueue _ => true
  | .updateViewQueueLittle _ => c
  | .removeViewQueue _ => false

def Msg.about : Msg → Nat
  | .updateViewQueue q => q
  | .updateViewQueueLittle q => q
  | .removeViewQueue q => q

theorem Msg.shown_shown (m : Msg) (c : Bool) : m.shown (m.shown c) = m.shown c := by
  cases m <;> rfl

def hear (p : Nat) (sends : List (Nat × Msg)) (c : Bool) : Bool :=
  sends.foldl (fun c m => if m.1 = p then m.2.shown c else c) c

theorem hear_append (p : Nat) (l l' : List (Nat × Msg)) (c : Bool) : hear p (l ++ l') c = hear p l' (hear p l c) :=
  List.foldl_append

theorem hear_map (p : Nat) (msg : Msg) : ∀ (uids : List Nat) (c : Bool),
    hear p (uids.map (fun u => (u, msg))) c = if p ∈ uids then msg.shown c else c
  | [], c => rfl
  | u :: uids, c => by
    show hear p (uids.map (fun u => (u, msg))) (if u = p then msg.shown c else c) = _
    rw [hear_map p msg uids]
    by_cases hu : u = p
    · subst hu
      simp [Msg.shown_shown]
    · have hne : ¬ p = u := fun h => hu h.symm
      simp [hu, hne]

namespace Level

variable {a : Level} {q p owner : Nat} {g : Int}

def Near (b : Board) (g : Int) (grids : List Int) : Prop := ∃ k ∈ grids, k ∈ b.around g

def At (b : Board) (a : Level) (p : Nat) (g : Int) : Prop := b.isGrid g = true ∧ ∀ k, p ∈ a.watchers k ↔ k = g

theorem mem_getQueueWatchers (h : At b a p g) {grids : List Int} (hgrids : ∀ k ∈ grids, b.isGrid k = true) :
    p ∈ a.getQueueWatchers b grids ↔ Near b g grids := by
  unfold getQueueWatchers Near
  simp only [List.mem_dedup, List.mem_flatMap]
  constructor
  · rintro ⟨k', ⟨k, hk, hk'⟩, hp⟩
    obtain rfl := (h.2 k').1 hp
    exact ⟨k, hk, (b.mem_around_comm (hgrids k hk) h.1).1 hk'⟩
  · rintro ⟨k, hk, hnear⟩
    exact ⟨g, ⟨k, hk, (b.mem_around_comm (hgrids k hk) h.1).2 hnear⟩, (h.2 g).2 rfl⟩

theorem exists_of_mem_getQueueWatchers {grids : List Int} (h : p ∈ a.getQueueWatchers b grids) : ∃ k, p ∈ a.watchers k := by
  unfold getQueueWatchers at h
  rw [List.mem_dedup, List.mem_flatMap] at h
  obtain ⟨k, -, hp⟩ := h
  exact ⟨k, hp⟩

/-- **What a call about one march may do to a level and say to its players.** -/
structure Calls (b : Board) (q owner : Nat) (a a' : Level) (sends : List (Nat × Msg)) : Prop where
  watchers : a'.watchers = a.watchers
  paired : a.Paired → a'.Paired
  grids : (∀ p k, k ∈ a.ref p → b.isGrid k = true) → ∀ p k, k ∈ a'.ref p → b.isGrid k = true
  other : ∀ p, p ≠ q → a'.ref p = a.ref p
  about : ∀ m ∈ sends, m.2.about = q ∧ m.1 ≠ owner ∧ ∃ k, m.1 ∈ a.watchers k
  heard : (∀ p k, k ∈ a.ref p → b.isGrid k = true) → ∀ p g, p ≠ owner → At b a p g → ∀ c : Bool,
    (c = true ↔ Near b g (a.ref q)) → (hear p sends c = true ↔ Near b g (a'.ref q))

theorem mem_tell {uids : List Nat} {msg : Msg} {m : Nat × Msg} (h : m ∈ tell owner uids msg) :
    m.2 = msg ∧ m.1 ≠ owner ∧ m.1 ∈ uids := by
  unfold tell at h
  simp only [List.mem_map, List.mem_filter, bne_iff_ne] at h
  obtain ⟨u, ⟨hu, hne⟩, rfl⟩ := h
  exact ⟨rfl, hne, hu⟩

theorem hear_tell {uids : List Nat} {msg : Msg} (hp : p ≠ owner) (c : Bool) :
    hear p (tell owner uids msg) c = if p ∈ uids then msg.shown c else c := by
  unfold tell
  rw [hear_map]
  simp [hp]

theorem ref_removeQueue (r : Nat) : (a.removeQueue b q owner).1.ref r = if r = q then [] else a.ref r := by
  show ((a.drop q (a.ref q)).setRef q none).ref r = _
  rw [ref_setRef, ref_drop]
  rfl

theorem removeQueue_calls (b : Board) (a : Level) (q owner : Nat) :
    Calls b q owner a (a.removeQueue b q owner).1 (a.removeQueue b q owner).2 where
  watchers := rfl
  paired ha := removeQueue_paired ha owner
  grids h p k hk := by
    rw [ref_removeQueue] at hk
    split at hk
    · cases hk
    · exact h p k hk
  other p hp := by rw [ref_removeQueue, if_neg hp]
  about m hm := by
    obtain ⟨hmsg, hne, hu⟩ := mem_tell hm
    exact ⟨by rw [hmsg]; rfl, hne, exists_of_mem_getQueueWatchers hu⟩
  heard hg p g hp hat c hc := by
    have hmem := mem_getQueueWatchers hat (hg q)
    rw [show (a.removeQueue b q owner).2 = tell owner (a.getQueueWatchers b (a.ref q)) (.removeViewQueue q) from rfl,
      hear_tell hp, ref_removeQueue, if_pos rfl]
    have hnil : ¬ Near b g [] := by
      rintro ⟨k, hk, -⟩
      cases hk
    by_cases hn : Near b g (a.ref q)
    · simp [hmem, hn, hnil, Msg.shown]
    · simp [hmem, hn, hnil, hc]

theorem Calls.refl (b : Board) (q owner : Nat) (a : Level) : Calls b q owner a a [] where
  watchers := rfl
  paired ha := ha
  grids h := h
  other _ _ := rfl
  about m hm := by cases hm
  heard _ _ _ _ _ c hc := hc

theorem At.congr {a' : Level} (h : a'.watchers = a.watchers) (hat : At b a p g) : At b a' p g :=
  ⟨hat.1, fun k => by rw [h]; exact hat.2 k⟩

theorem Calls.trans {a₁ a₂ : Level} {l₁ l₂ : List (Nat × Msg)} (h₁ : Calls b q owner a a₁ l₁)
    (h₂ : Calls b q owner a₁ a₂ l₂) : Calls b q owner a a₂ (l₁ ++ l₂) where
  watchers := h₂.watchers.trans h₁.watchers
  paired ha := h₂.paired (h₁.paired ha)
  grids h := h₂.grids (h₁.grids h)
  other p hp := (h₂.other p hp).trans (h₁.other p hp)
  about m hm := by
    rcases List.mem_append.1 hm with hm | hm
    · exact h₁.about m hm
    · obtain ⟨hq, hne, hk⟩ := h₂.about m hm
      exact ⟨hq, hne, h₁.watchers ▸ hk⟩
  heard hg p g hp hat c hc := by
    rw [hear_append]
    exact h₂.heard (h₁.grids hg) p g hp (hat.congr h₁.watchers) _ (h₁.heard hg p g hp hat c hc)

theorem bind_calls (hempty : a.ref q = []) {ret : List Int} (hret : ∀ k ∈ ret, b.isGrid k = true) {isInit : Bool}
    (hinit : isInit = true → ∀ p g, p ≠ owner → At b a p g → ¬ Near b g ret) :
    Calls b q owner a ((a.setRef q (some ret)).put q ret)
      (if isInit then [] else tell owner (((a.setRef q (some ret)).put q ret).getQueueWatchers b ret)
        (.updateViewQueue q)) where
  watchers := rfl
  paired ha :=
    have hnone : ∀ k, k ∈ [] ↔ k ∈ a.ref q ∧ k ∉ ret := fun k => by rw [hempty]; simp
    ha.rebind hnone
  grids h p k hk := by
    rw [ref_put, ref_setRef] at hk
    split at hk
    · exact hret k hk
    · exact h p k hk
  other p hp := by rw [ref_put, ref_setRef, if_neg hp]
  about m hm := by
    split at hm
    · cases hm
    · obtain ⟨hmsg, hne, hu⟩ := mem_tell hm
      exact ⟨by rw [hmsg]; rfl, hne, exists_of_mem_getQueueWatchers hu⟩
  heard hg p g hp hat c hc := by
    rw [hempty] at hc
    have hfalse : c = false := by
      cases c with
      | false => rfl
      | true =>
        obtain ⟨k, hk, -⟩ := hc.1 rfl
        cases hk
    have hat' : At b ((a.setRef q (some ret)).put q ret) p g := hat.congr rfl
    rw [ref_put, ref_setRef, if_pos rfl, Option.getD_some, hfalse]
    cases hi : isInit with
    | true =>
      constructor
      · intro h
        cases h
      · intro h
        exact absurd h (hinit hi p g hp hat)
    | false =>
      have hmem := mem_getQueueWatchers hat' hret
      rw [if_neg (by decide), hear_tell hp]
      by_cases hn : Near b g ret
      · simp [hmem, hn, Msg.shown]
      · simp [hmem, hn]

theorem addQueue_calls {att : Queue} {isInit : Bool}
    (hinit : isInit = true → ∀ p g, p ≠ owner → At b a p g → ¬ Near b g (boundGrids S b att)) :
    Calls b q owner a (a.addQueue S b q owner att isInit).1 (a.addQueue S b q owner att isInit).2 := by
  have hgone : Calls b q owner a (if (a.queueGridRef q).isSome then a.removeQueue b q owner else (a, [])).1
      (if (a.queueGridRef q).isSome then a.removeQueue b q owner else (a, [])).2 ∧
      (if (a.queueGridRef q).isSome then a.removeQueue b q owner else (a, [])).1.ref q = [] := by
    cases hr : a.queueGridRef q with
    | none =>
      refine ⟨.refl b q owner a, ?_⟩
      show a.ref q = []
      unfold ref
      rw [hr]
      rfl
    | some old =>
      refine ⟨removeQueue_calls b a q owner, ?_⟩
      show (a.removeQueue b q owner).1.ref q = []
      rw [ref_removeQueue, if_pos rfl]
  unfold addQueue
  generalize (if (a.queueGridRef q).isSome then a.removeQueue b q owner else (a, [])) = gone at hgone
  obtain ⟨hcalls, hempty⟩ := hgone
  dsimp only
  split
  · exact hcalls
  · refine hcalls.trans (bind_calls hempty (fun k hk => isGrid_of_mem_boundGrids hk) (fun hi p g hp hat => ?_))
    exact hinit hi p g hp (hat.congr hcalls.watchers.symm)

theorem change_grids (a : Level) (q : Nat) (att : Queue) (ck : Option Keys) :
    (a.change S b q att ck).1.watchers = a.watchers ∧
    (∀ p, p ≠ q → (a.change S b q att ck).1.ref p = a.ref p) ∧
    (∀ k, k ∈ (a.change S b q att ck).1.ref q ↔
      k ∈ (a.change S b q att ck).2.2.1 ∨ k ∈ (a.change S b q att ck).2.2.2) ∧
    (∀ k, k ∈ a.ref q ↔ k ∈ (a.change S b q att ck).2.1 ∨ k ∈ (a.change S b q att ck).2.2.2) ∧
    (∀ k, k ∈ (a.change S b q att ck).2.2.1 → b.isGrid k = true) := by
  unfold change
  cases hr : a.queueGridRef q with
  | none => simp [ref, hr]
  | some old =>
    have href : a.ref q = old := by
      unfold ref
      rw [hr]
      rfl
    cases hck : renews ck with
    | false => simp [href]
    | true =>
      refine ⟨rfl, fun p hp => ?_, fun k => ?_, fun k => ?_, fun k hk => ?_⟩
      · show (((a.drop q _).setRef q _).put q _).ref p = _
        rw [ref_put, ref_setRef, if_neg hp, ref_drop]
      · show k ∈ (((a.drop q _).setRef q (some (boundGrids S b att))).put q _).ref q ↔ _
        rw [ref_put, ref_setRef, if_pos rfl, Option.getD_some]
        by_cases hold : k ∈ old
        · simp [hold]
        · simp [hold]
      · rw [href]
        by_cases hnew : k ∈ boundGrids S b att
        · simp [hnew]
        · simp [hnew]
      · exact isGrid_of_mem_boundGrids (List.mem_filter.1 hk).1

theorem near_or {l l₁ l₂ : List Int} (h : ∀ k, k ∈ l ↔ k ∈ l₁ ∨ k ∈ l₂) : Near b g l ↔ Near b g l₁ ∨ Near b g l₂ := by
  constructor
  · rintro ⟨k, hk, hg⟩
    rcases (h k).1 hk with hk | hk
    · exact .inl ⟨k, hk, hg⟩
    · exact .inr ⟨k, hk, hg⟩
  · rintro (⟨k, hk, hg⟩ | ⟨k, hk, hg⟩)
    · exact ⟨k, (h k).2 (.inl hk), hg⟩
    · exact ⟨k, (h k).2 (.inr hk), hg⟩

theorem updateQueue_calls (a : Level) (q owner : Nat) (att : Queue) (ck : Option Keys) :
    Calls b q owner a (a.updateQueue S b q owner att ck).1 (a.updateQueue S b q owner att ck).2 := by
  obtain ⟨hwatch, hother, hnow, hbefore, hgrid⟩ := change_grids (S := S) (b := b) a q att ck
  have hpaired : a.Paired → (a.change S b q att ck).1.Paired := fun ha => updateQueue_paired ha owner att ck
  unfold updateQueue
  generalize a.change S b q att ck = r at hwatch hother hnow hbefore hgrid hpaired
  obtain ⟨a', rmgrids, newgrids, keepgrids⟩ := r
  dsimp only at hwatch hother hnow hbefore hgrid hpaired ⊢
  refine ⟨hwatch, hpaired, fun h p k hk => ?_, hother, fun m hm => ?_, fun hg p g hp hat c hc => ?_⟩
  · by_cases hpq : p = q
    · subst hpq
      rcases (hnow k).1 hk with hk | hk
      · exact hgrid k hk
      · exact h p k ((hbefore k).2 (.inr hk))
    · exact h p k (hother p hpq ▸ hk)
  · have hknown : ∀ {u grids}, u ∈ a'.getQueueWatchers b grids → ∃ k, u ∈ a.watchers k := by
      intro u grids hu
      rw [← hwatch]
      exact exists_of_mem_getQueueWatchers hu
    simp only [List.mem_append, List.mem_map, List.mem_filter, Bool.and_eq_true, bne_iff_ne] at hm
    rcases hm with (⟨u, ⟨hu, hne⟩, rfl⟩ | ⟨u, ⟨hu, hne, -⟩, rfl⟩) | ⟨u, ⟨hu, ⟨hne, -⟩, -⟩, rfl⟩
    · exact ⟨rfl, hne, hknown hu⟩
    · refine ⟨?_, hne, hknown hu⟩
      dsimp only
      split
      · rfl
      · rfl
    · exact ⟨rfl, hne, hknown hu⟩
  · -- the player hears of the grids entered first, then of those kept, then of those left
    have hat' : At b a' p g := hat.congr hwatch
    have hnew := mem_getQueueWatchers hat' hgrid
    have hkeepgrid : ∀ k ∈ keepgrids, b.isGrid k = true := fun k hk => hg q k ((hbefore k).2 (.inr hk))
    have hkeep := mem_getQueueWatchers hat' hkeepgrid
    have hrmgrid : ∀ k ∈ rmgrids, b.isGrid k = true := fun k hk => hg q k ((hbefore k).2 (.inl hk))
    have hrm := mem_getQueueWatchers hat' hrmgrid
    have hfull : p ∈ (a'.getQueueWatchers b newgrids).filter (fun p => p != owner) ↔ Near b g newgrids := by
      simp [hnew, hp]
    generalize (a'.getQueueWatchers b newgrids).filter (fun p => p != owner) = full at hfull ⊢
    have hlittle : p ∈ (a'.getQueueWatchers b keepgrids).filter (fun p => p != owner && !full.contains p) ↔
        Near b g keepgrids ∧ ¬ Near b g newgrids := by
      simp [hkeep, hfull, hp]
    generalize (a'.getQueueWatchers b keepgrids).filter (fun p => p != owner && !full.contains p) = little at hlittle ⊢
    have hgone : p ∈ (a'.getQueueWatchers b rmgrids).filter (fun p =>
      p != owner && !full.contains p && !little.contains p) ↔
        Near b g rmgrids ∧ ¬ Near b g newgrids ∧ ¬ (Near b g keepgrids ∧ ¬ Near b g newgrids) := by
      simp [hrm, hfull, hlittle, hp]
    rw [near_or hnow, hear_append, hear_append, hear_map, hear_map, hear_map]
    rw [near_or hbefore] at hc
    by_cases h1 : Near b g newgrids
    · rw [if_neg (fun h => (hgone.1 h).2.1 h1), if_neg (fun h => (hlittle.1 h).2 h1), if_pos (hfull.2 h1)]
      simp [h1, Msg.shown]
    · rw [if_neg (fun h => h1 (hfull.1 h))]
      by_cases h2 : Near b g keepgrids
      · have hct : c = true := hc.2 (.inr h2)
        rw [if_neg (fun h => (hgone.1 h).2.2 ⟨h2, h1⟩), if_pos (hlittle.2 ⟨h2, h1⟩), hct]
        cases ck with
        | none => simp [h2, Msg.shown]
        | some ck => simp [h2, Msg.shown]
      · rw [if_neg (fun h => h2 (hlittle.1 h).1)]
        by_cases h3 : Near b g rmgrids
        · rw [if_pos (hgone.2 ⟨h3, h1, fun h => h2 h.1⟩)]
          simp [h1, h2, Msg.shown]
        · have hcf : c = false := by
            cases c with
            | false => rfl
            | true => exact absurd (hc.1 rfl) (by simp [h2, h3])
          rw [if_neg (fun h => h3 (hgone.1 h).1), hcf]
          simp [h1, h2]

end Level

variable {M : Setup}

/-- A position `reqViewMarch` may set. -/
def InRange (m x y : Nat) : Prop := (0 < x ∧ x ≤ m) ∧ 0 < y ∧ y ≤ m

theorem Req.inRange (r : Req) {m : Nat} (h : M.mapSize = some m) : InRange m (r.cx m) (r.cy m) :=
  ⟨⟨Nat.lt_min.2 ⟨r.x_pos, (M.covers m h).1⟩, Nat.min_le_right _ _⟩, Nat.lt_min.2 ⟨r.y_pos, (M.covers m h).1⟩,
    Nat.min_le_right _ _⟩

theorem InRange.isGrid {m x y : Nat} (hm : M.mapSize = some m) (h : InRange m x y) (lv : M.Lv) :
    (M.board lv).isGrid ((M.board lv).getGridKey x y) = true :=
  (M.board lv).isGrid_getGridKey h.1.1 (h.1.2.trans (M.covers m hm).2.1) h.2.1 (h.2.2.trans (M.covers m hm).2.2)

theorem InRange.mem_walkGrids {m x y : Nat} (hm : M.mapSize = some m) (h : InRange m x y) (lv : M.Lv) {k : Int} :
    k ∈ (M.board lv).walkGrids x y ↔ (M.board lv).InBlock ((M.board lv).toGridXy x y) k :=
  (M.board lv).mem_walkGrids h.1.1 (h.1.2.trans (M.covers m hm).2.1) h.2.1 (h.2.2.trans (M.covers m hm).2.2)

namespace Mgr

variable {s : Mgr M}

def Stands (s : Mgr M) (p x y : Nat) (lv : M.Lv) : Prop :=
  ∃ v srv, s.watcherList p = some v ∧ v.pos = some (x, y, lv, srv)

/-- **A watcher is in the grid of its recorded position, at a level that has marches, and in no other; and the records of
each level agree.** -/
structure Sound (s : Mgr M) : Prop where
  placed : ∀ p v, s.watcherList p = some v → ∃ m x y lv, M.mapSize = some m ∧ v.pos = some (x, y, lv, M.home p) ∧
    InRange m x y
  reg : ∀ lv k p, p ∈ (s.aoiList lv).watchers k ↔ M.hasAoi lv = true ∧
    ∃ x y, s.Stands p x y lv ∧ k = (M.board lv).getGridKey x y
  paired : ∀ lv, (s.aoiList lv).Paired
  grids : ∀ lv q k, k ∈ (s.aoiList lv).ref q → (M.board lv).isGrid k = true

theorem Stands.unique {p x y x' y' : Nat} {lv lv' : M.Lv} (h : s.Stands p x y lv) (h' : s.Stands p x' y' lv') :
    x = x' ∧ y = y' ∧ lv = lv' := by
  obtain ⟨v, srv, hv, hp⟩ := h
  obtain ⟨v', srv', hv', hp'⟩ := h'
  rw [hv] at hv'
  cases hv'
  rw [hp] at hp'
  cases hp'
  exact ⟨rfl, rfl, rfl⟩

theorem Sound.isGrid (hs : s.Sound) {p x y : Nat} {lv : M.Lv} (h : s.Stands p x y lv) :
    (M.board lv).isGrid ((M.board lv).getGridKey x y) = true := by
  obtain ⟨v, srv, hv, hp⟩ := h
  obtain ⟨m, x', y', lv', hm, hp', hr⟩ := hs.placed p v hv
  rw [hp] at hp'
  cases hp'
  exact hr.isGrid hm lv

theorem Sound.at (hs : s.Sound) {p x y : Nat} {lv : M.Lv} (h : s.Stands p x y lv) (haoi : M.hasAoi lv = true) :
    Level.At (M.board lv) (s.aoiList lv) p ((M.board lv).getGridKey x y) := by
  refine ⟨hs.isGrid h, fun k => ?_⟩
  rw [hs.reg]
  constructor
  · rintro ⟨-, x', y', h', rfl⟩
    obtain ⟨rfl, rfl, -⟩ := h.unique h'
    rfl
  · rintro rfl
    exact ⟨haoi, x, y, h, rfl⟩

theorem start_sound : (start : Mgr M).Sound := by
  refine ⟨fun p v h => ?_, fun lv k p => ?_, fun lv q k => ?_, fun lv q k h => ?_⟩
  · cases h
  · constructor
    · intro h
      cases h
    · rintro ⟨-, x, y, ⟨v, srv, hv, -⟩, -⟩
      cases hv
  · simp [start, Level.ref]
  · simp [start, Level.ref] at h

end Mgr

def heardBy (M : Setup) (p : Nat) (sends : List Send) (c : Bool) : Bool :=
  sends.foldl (fun c m => if m.uid == p && m.serverid == some (M.home p) then m.msg.shown c else c) c

theorem onMsg_queues (c : Client M) (m : Msg) : (c.onMsg m).lv = c.lv ∧
    (c.onMsg m).queues m.about = m.shown (c.queues m.about) ∧ ∀ q, q ≠ m.about → (c.onMsg m).queues q = c.queues q := by
  cases m with
  | updateViewQueue q' =>
    refine ⟨rfl, Function.update_self .., fun q hq => Function.update_of_ne hq ..⟩
  | updateViewQueueLittle q' => exact ⟨rfl, rfl, fun _ _ => rfl⟩
  | removeViewQueue q' =>
    refine ⟨rfl, Function.update_self .., fun q hq => Function.update_of_ne hq ..⟩

theorem foldl_onMsg (p q : Nat) : ∀ (sends : List Send) (c : Client M), (∀ m ∈ sends, m.msg.about = q) →
    (sends.foldl (fun c m => if m.uid == p && m.serverid == some (M.home p) then c.onMsg m.msg else c) c).lv = c.lv ∧
    (∀ q', q' ≠ q → (sends.foldl (fun c m => if m.uid == p && m.serverid == some (M.home p) then c.onMsg m.msg else c)
      c).queues q' = c.queues q') ∧
    (sends.foldl (fun c m => if m.uid == p && m.serverid == some (M.home p) then c.onMsg m.msg else c) c).queues q =
      heardBy M p sends (c.queues q)
  | [], c, _ => ⟨rfl, fun _ _ => rfl, rfl⟩
  | m :: sends, c, hm => by
    obtain ⟨h1, h2, h3⟩ := foldl_onMsg p q sends
      (if m.uid == p && m.serverid == some (M.home p) then c.onMsg m.msg else c) (fun m' hm' => hm m' (.tail m hm'))
    have hq : m.msg.about = q := hm m (.head sends)
    obtain ⟨g1, g2, g3⟩ := onMsg_queues c m.msg
    rw [hq] at g2 g3
    simp only [List.foldl_cons, heardBy] at h1 h2 h3 ⊢
    refine ⟨h1.trans ?_, fun q' hq' => (h2 q' hq').trans ?_, h3.trans ?_⟩
    · split
      · exact g1
      · rfl
    · split
      · exact g3 q' hq'
      · rfl
    · split
      · rw [g2]
      · rfl

theorem heardBy_flatMap {α : Type} [DecidableEq α] (p : Nat) {f : α → List Send} {a : α}
    (h : ∀ a', a' ≠ a → ∀ c, heardBy M p (f a') c = c) : ∀ (l : List α), l.Nodup → ∀ c,
      heardBy M p (l.flatMap f) c = if a ∈ l then heardBy M p (f a) c else c
  | [], _, c => rfl
  | a' :: l, hl, c => by
    obtain ⟨hnot, hl'⟩ := List.nodup_cons.1 hl
    have happ : heardBy M p (f a' ++ l.flatMap f) c = heardBy M p (l.flatMap f) (heardBy M p (f a') c) := List.foldl_append
    rw [List.flatMap_cons, happ, heardBy_flatMap p h l hl']
    by_cases ha : a' = a
    · subst ha
      simp [hnot]
    · have ha' : ¬ a = a' := fun e => ha e.symm
      simp [h a' ha, ha']

theorem heardBy_nil_of (p : Nat) : ∀ (sends : List Send) (c : Bool), (∀ m ∈ sends, m.uid ≠ p) → heardBy M p sends c = c
  | [], _, _ => rfl
  | m :: sends, c, h => by
    have hne : (m.uid == p) = false := beq_eq_false_iff_ne.2 (h m (.head sends))
    show heardBy M p sends (if m.uid == p && m.serverid == some (M.home p) then m.msg.shown c else c) = c
    rw [hne]
    exact heardBy_nil_of p sends c (fun m' hm' => h m' (.tail m hm'))

theorem heardBy_map {s : Mgr M} (hs : s.Sound) (p : Nat) {lv : M.Lv} : ∀ (l : List (Nat × Msg)) (c : Bool),
    (∀ m ∈ l, ∃ k, m.1 ∈ (s.aoiList lv).watchers k) →
    heardBy M p (l.map (fun m => (⟨(s.getWatcher m.1).pos.map (fun q => q.2.2.2), m.1, m.2⟩ : Send))) c = hear p l c
  | [], _, _ => rfl
  | m :: l, c, h => by
    obtain ⟨k, hk⟩ := h m (.head l)
    obtain ⟨-, x, y, ⟨v, srv, hv, hp⟩, -⟩ := (hs.reg lv k m.1).1 hk
    obtain ⟨_, _, _, _, -, hp', -⟩ := hs.placed m.1 v hv
    have hsrv : (s.getWatcher m.1).pos.map (fun q => q.2.2.2) = some (M.home m.1) := by
      rw [show s.getWatcher m.1 = v by simp [Mgr.getWatcher, hv], hp']
      rfl
    show heardBy M p (l.map _) (if m.1 == p && (s.getWatcher m.1).pos.map (fun q => q.2.2.2) == some (M.home p) then
      m.2.shown c else c) = hear p l (if m.1 = p then m.2.shown c else c)
    rw [heardBy_map hs p l _ (fun m' hm' => h m' (.tail m hm')), hsrv]
    by_cases hmp : m.1 = p
    · subst hmp
      simp
    · simp [hmp]

/-- **The march of another is in the 3x3 view from a position**, at a level that has marches. -/
def Mgr.InView (s : Mgr M) (p x y : Nat) (lv : M.Lv) (q : Nat) : Prop :=
  M.hasAoi lv = true ∧ M.owner q ≠ p ∧ ∃ k ∈ (s.aoiList lv).ref q, k ∈ (M.board lv).walkGrids x y

namespace World

variable {w w' : World M}

structure Shows (w : World M) : Prop where
  sound : w.mgr.Sound
  fresh : ∀ p, w.mgr.watcherList p = none → (w.client p).lv = none
  client : ∀ p x y lv, w.mgr.Stands p x y lv → (w.client p).lv = some lv ∧
    ∀ q, (w.client p).queues q = true ↔ w.mgr.InView p x y lv q

theorem onLevels_sound {s : Mgr M} (hs : s.Sound) {q : Nat} {f : (lv : M.Lv) → Level → Level × List (Nat × Msg)}
    (hf : ∀ lv, M.hasAoi lv = true → Level.Calls (M.board lv) q (M.owner q) (s.aoiList lv) (f lv (s.aoiList lv)).1
      (f lv (s.aoiList lv)).2) (att : Queue) : (s.onLevels att f).1.Sound := by
  unfold Mgr.onLevels
  split
  · exact hs
  · refine ⟨hs.placed, fun lv k p => ?_, fun lv => ?_, fun lv => ?_⟩
    · show p ∈ (if M.hasAoi lv = true then (f lv (s.aoiList lv)).1 else s.aoiList lv).watchers k ↔ _
      refine Iff.trans ?_ (hs.reg lv k p)
      split
      · rename_i haoi
        rw [(hf lv haoi).watchers]
      · exact Iff.rfl
    · show (if M.hasAoi lv = true then (f lv (s.aoiList lv)).1 else s.aoiList lv).Paired
      split
      · rename_i haoi
        exact (hf lv haoi).paired (hs.paired lv)
      · exact hs.paired lv
    · show ∀ q k, k ∈ (if M.hasAoi lv = true then (f lv (s.aoiList lv)).1 else s.aoiList lv).ref q → _
      split
      · rename_i haoi
        exact (hf lv haoi).grids (hs.grids lv)
      · exact hs.grids lv

theorem heardBy_levels {s : Mgr M} (hs : s.Sound) {q : Nat} {f : (lv : M.Lv) → Level → Level × List (Nat × Msg)}
    (hf : ∀ lv, M.hasAoi lv = true → Level.Calls (M.board lv) q (M.owner q) (s.aoiList lv) (f lv (s.aoiList lv)).1
      (f lv (s.aoiList lv)).2) {p x y : Nat} {lv : M.Lv} (hst : s.Stands p x y lv) (c : Bool) :
    heardBy M p ((List.finRange M.confs.length).flatMap (fun lv => if M.hasAoi lv = true then
        (f lv (s.aoiList lv)).2.map (fun m => ⟨(s.getWatcher m.1).pos.map (fun q => q.2.2.2), m.1, m.2⟩) else [])) c =
      if M.hasAoi lv = true then hear p (f lv (s.aoiList lv)).2 c else c := by
  have hother : ∀ lv', lv' ≠ lv → ∀ c, heardBy M p (if M.hasAoi lv' = true then
      (f lv' (s.aoiList lv')).2.map (fun m => ⟨(s.getWatcher m.1).pos.map (fun q => q.2.2.2), m.1, m.2⟩) else []) c =
        c := by
    intro lv' hne c
    split
    · rename_i haoi
      refine heardBy_nil_of p _ c (fun m hm => ?_)
      obtain ⟨m', hm', rfl⟩ := List.mem_map.1 hm
      rintro rfl
      obtain ⟨-, -, k, hk⟩ := (hf lv' haoi).about m' hm'
      obtain ⟨-, x', y', hst', -⟩ := (hs.reg lv' k m'.1).1 hk
      exact hne (hst'.unique hst).2.2
    · rfl
  rw [heardBy_flatMap p hother _ (List.nodup_finRange _), if_pos (List.mem_finRange lv)]
  split
  · rename_i haoi
    exact heardBy_map hs p _ c (fun m hm => ((hf lv haoi).about m hm).2.2)
  · rfl

theorem hear_of_notMem (p : Nat) : ∀ (l : List (Nat × Msg)) (c : Bool), (∀ m ∈ l, m.1 ≠ p) → hear p l c = c
  | [], _, _ => rfl
  | m :: l, c, h => by
    show hear p l (if m.1 = p then m.2.shown c else c) = c
    rw [if_neg (h m (.head l))]
    exact hear_of_notMem p l c (fun m' hm' => h m' (.tail m hm'))

/-- **A call about a march takes every client from what was in its view to what is.** -/
theorem Shows.onLevels (hw : w.Shows) {q : Nat} {f : (lv : M.Lv) → Level → Level × List (Nat × Msg)}
    (hf : ∀ lv, M.hasAoi lv = true → Level.Calls (M.board lv) q (M.owner q) (w.mgr.aoiList lv)
      (f lv (w.mgr.aoiList lv)).1 (f lv (w.mgr.aoiList lv)).2) (att : Queue) :
    Shows { w with mgr := (w.mgr.onLevels att f).1, client := w.deliver (w.mgr.onLevels att f).2 } := by
  have hsound := onLevels_sound hw.sound hf att
  unfold Mgr.onLevels at hsound ⊢
  by_cases hb : att.queueType = M.brigade
  · rw [if_pos hb] at hsound ⊢
    exact ⟨hsound, hw.fresh, hw.client⟩
  · rw [if_neg hb] at hsound ⊢
    have habout : ∀ m ∈ (List.finRange M.confs.length).flatMap (fun lv => if M.hasAoi lv = true then
        (f lv (w.mgr.aoiList lv)).2.map (fun m => (⟨(w.mgr.getWatcher m.1).pos.map (fun q => q.2.2.2), m.1, m.2⟩ : Send))
        else []), m.msg.about = q := by
      intro m hm
      obtain ⟨lv, -, hm⟩ := List.mem_flatMap.1 hm
      split at hm
      · rename_i haoi
        obtain ⟨m', hm', rfl⟩ := List.mem_map.1 hm
        exact ((hf lv haoi).about m' hm').1
      · cases hm
    refine ⟨hsound, fun p hp => ?_, fun p x y lv hst => ?_⟩
    · exact (foldl_onMsg p q _ (w.client p) habout).1.trans (hw.fresh p hp)
    · have hst' : w.mgr.Stands p x y lv := hst
      obtain ⟨hlv, hqs⟩ := hw.client p x y lv hst'
      obtain ⟨h1, h2, h3⟩ := foldl_onMsg p q _ (w.client p) habout
      refine ⟨h1.trans hlv, fun q' => ?_⟩
      show (w.deliver _ p).queues q' = true ↔ M.hasAoi lv = true ∧ M.owner q' ≠ p ∧
        ∃ k ∈ (if M.hasAoi lv = true then (f lv (w.mgr.aoiList lv)).1 else w.mgr.aoiList lv).ref q', _
      by_cases hq : q' = q
      · subst hq
        rw [show (w.deliver _ p).queues q' = _ from h3, heardBy_levels hw.sound hf hst']
        by_cases haoi : M.hasAoi lv = true
        · rw [if_pos haoi, if_pos haoi]
          by_cases hown : M.owner q' = p
          · rw [hear_of_notMem p _ _ (fun m hm => hown ▸ ((hf lv haoi).about m hm).2.1), hqs q']
            unfold Mgr.InView
            simp [hown]
          · have hheard := (hf lv haoi).heard (hw.sound.grids lv) p _ (fun h => hown h.symm) (hw.sound.at hst' haoi)
              ((w.client p).queues q') (by
                rw [hqs q']
                unfold Mgr.InView
                simp only [haoi, ne_eq, hown, not_false_eq_true, true_and]
                exact Iff.rfl)
            rw [hheard]
            simp only [haoi, ne_eq, hown, not_false_eq_true, true_and]
            exact Iff.rfl
        · rw [if_neg haoi, hqs q']
          unfold Mgr.InView
          simp [haoi]
      · rw [show (w.deliver _ p).queues q' = _ from h2 q' hq, hqs q']
        unfold Mgr.InView
        by_cases haoi : M.hasAoi lv = true
        · rw [if_pos haoi, (hf lv haoi).other q' hq]
        · rw [if_neg haoi]

end World

namespace Mgr

variable {s : Mgr M}

def SameMarches (s s' : Mgr M) : Prop :=
  ∀ lv, (s'.aoiList lv).queues = (s.aoiList lv).queues ∧ (s'.aoiList lv).queueGridRef = (s.aoiList lv).queueGridRef

theorem SameMarches.trans {s₁ s₂ : Mgr M} (h : s.SameMarches s₁) (h' : s₁.SameMarches s₂) : s.SameMarches s₂ :=
  fun lv => ⟨(h' lv).1.trans (h lv).1, (h' lv).2.trans (h lv).2⟩

theorem SameMarches.ref {s' : Mgr M} (h : s.SameMarches s') (lv : M.Lv) (q : Nat) :
    (s'.aoiList lv).ref q = (s.aoiList lv).ref q := by
  unfold Level.ref
  rw [(h lv).2]

theorem SameMarches.inView {s' : Mgr M} (h : s.SameMarches s') (p x y : Nat) (lv : M.Lv) (q : Nat) :
    s'.InView p x y lv q ↔ s.InView p x y lv q := by
  unfold InView
  rw [h.ref lv q]

theorem upd_marches (lv : M.Lv) (k : Int) (f : List Nat → List Nat) : s.SameMarches (s.upd lv k f) := by
  intro lv'
  unfold upd
  by_cases h : lv' = lv
  · subst h
    simp
  · simp [h]

theorem upd_watchers (lv lv' : M.Lv) (k k' : Int) (f : List Nat → List Nat) : ((s.upd lv k f).aoiList lv').watchers k' =
    if lv' = lv ∧ k' = k then f ((s.aoiList lv').watchers k') else (s.aoiList lv').watchers k' := by
  unfold upd
  by_cases h : lv' = lv
  · subst h
    by_cases hk : k' = k
    · subst hk
      simp
    · simp [hk]
  · simp [h]

theorem aoiAddWatcher_marches (lv : M.Lv) (p x y : Nat) : s.SameMarches (s.aoiAddWatcher lv p x y) := by
  unfold aoiAddWatcher
  split
  · exact upd_marches _ _ _
  · exact fun _ => ⟨rfl, rfl⟩

theorem leave_marches (p : Nat) (v : Watcher M) : s.SameMarches (s.leave p v) := by
  unfold leave aoiRemoveWatcher
  split
  · exact fun _ => ⟨rfl, rfl⟩
  · split
    · split
      · exact upd_marches _ _ _
      · exact fun _ => ⟨rfl, rfl⟩
    · exact fun _ => ⟨rfl, rfl⟩

theorem leave_watcherList (p : Nat) (v : Watcher M) : (s.leave p v).watcherList = s.watcherList := by
  unfold leave aoiRemoveWatcher
  split
  · rfl
  · split
    · split
      · rfl
      · rfl
    · rfl

theorem getWatcher_of_some {p : Nat} {v : Watcher M} (h : s.watcherList p = some v) : s.getWatcher p = v := by
  simp [getWatcher, h]

theorem Sound.leave (hs : s.Sound) (p : Nat) (lv : M.Lv) (k : Int) (q : Nat) :
    q ∈ ((s.leave p (s.getWatcher p)).aoiList lv).watchers k ↔ q ∈ (s.aoiList lv).watchers k ∧ q ≠ p := by
  cases hv : s.watcherList p with
  | none =>
    have hg : s.getWatcher p = {} := by simp [getWatcher, hv]
    rw [hg]
    refine ⟨fun h => ⟨h, ?_⟩, fun h => h.1⟩
    rintro rfl
    obtain ⟨-, x, y, ⟨v, srv, hv', -⟩, -⟩ := (hs.reg lv k q).1 h
    rw [hv] at hv'
    cases hv'
  | some v =>
    obtain ⟨m, x, y, lv₀, hm, hpos, hr⟩ := hs.placed p v hv
    have hstands : s.Stands p x y lv₀ := ⟨v, M.home p, hv, hpos⟩
    rw [getWatcher_of_some hv]
    unfold Mgr.leave
    simp only [hpos]
    by_cases haoi : M.hasAoi lv₀ = true
    · rw [if_pos haoi]
      unfold aoiRemoveWatcher
      rw [if_pos (hr.isGrid hm lv₀), upd_watchers]
      by_cases hc : lv = lv₀ ∧ k = (M.board lv₀).getGridKey x y
      · rw [if_pos hc, List.mem_filter, bne_iff_ne]
      · rw [if_neg hc]
        refine ⟨fun h => ⟨h, ?_⟩, fun h => h.1⟩
        rintro rfl
        obtain ⟨-, x', y', hst, rfl⟩ := (hs.reg lv k q).1 h
        obtain ⟨rfl, rfl, rfl⟩ := hst.unique hstands
        exact hc ⟨rfl, rfl⟩
    · rw [if_neg haoi]
      refine ⟨fun h => ⟨h, ?_⟩, fun h => h.1⟩
      rintro rfl
      obtain ⟨haoi', x', y', hst, rfl⟩ := (hs.reg lv k q).1 h
      obtain ⟨-, -, rfl⟩ := hst.unique hstands
      exact haoi haoi'

structure Moved (s : Mgr M) (p m : Nat) (r : Req) (v : Watcher M) (s' : Mgr M) : Prop where
  watcherList : s'.watcherList = Function.update s.watcherList p (some v)
  pos : v.pos = some (r.cx m, r.cy m, r.lv M, r.serverid)
  marches : s.SameMarches s'
  watchers : ∀ lv k q, q ∈ (s'.aoiList lv).watchers k ↔ (q ∈ (s.aoiList lv).watchers k ∧ q ≠ p) ∨
    (q = p ∧ M.hasAoi lv = true ∧ lv = r.lv M ∧ k = (M.board lv).getGridKey (r.cx m) (r.cy m))

theorem Moved.sound (hs : s.Sound) {p m : Nat} {r : Req} {v : Watcher M} {s' : Mgr M} (h : s.Moved p m r v s')
    (hm : M.mapSize = some m) (hsrv : r.serverid = M.home p) : s'.Sound := by
  have hp : s'.watcherList p = some v := by rw [h.watcherList, Function.update_self]
  have hq : ∀ q, q ≠ p → s'.watcherList q = s.watcherList q := by
    intro q hne
    rw [h.watcherList, Function.update_of_ne hne]
  refine ⟨fun q u hu => ?_, fun lv k q => ?_, fun lv q k => ?_, fun lv q k hk => ?_⟩
  · by_cases hqp : q = p
    · subst hqp
      rw [hp] at hu
      cases hu
      exact ⟨m, r.cx m, r.cy m, r.lv M, hm, by rw [h.pos, hsrv], r.inRange hm⟩
    · exact hs.placed q u (by rw [← hq q hqp]; exact hu)
  · rw [h.watchers]
    unfold Stands
    by_cases hqp : q = p
    · subst hqp
      rw [hp]
      constructor
      · rintro (⟨-, hne⟩ | ⟨-, haoi, rfl, rfl⟩)
        · exact absurd rfl hne
        · exact ⟨haoi, r.cx m, r.cy m, ⟨v, r.serverid, rfl, h.pos⟩, rfl⟩
      · rintro ⟨haoi, x, y, ⟨u, srv, hu, hpos⟩, rfl⟩
        cases hu
        rw [h.pos] at hpos
        cases hpos
        exact .inr ⟨rfl, haoi, rfl, rfl⟩
    · rw [hq q hqp, hs.reg]
      unfold Stands
      constructor
      · rintro (⟨h', -⟩ | ⟨h', -⟩)
        · exact h'
        · exact absurd h' hqp
      · intro h'
        exact .inl ⟨h', hqp⟩
  · rw [(h.marches lv).1, h.marches.ref]
    exact hs.paired lv q k
  · exact hs.grids lv q k (by rw [← h.marches.ref]; exact hk)

theorem mem_queuesAround (hs : s.Sound) {lv : M.Lv} (haoi : M.hasAoi lv = true) {p x y q : Nat} :
    q ∈ s.queuesAround lv p x y ↔ s.InView p x y lv q := by
  unfold queuesAround InView
  rw [List.mem_dedup, List.mem_filter, List.mem_flatMap, bne_iff_ne]
  simp only [haoi, true_and]
  constructor
  · rintro ⟨⟨k, hk, hq⟩, hown⟩
    exact ⟨hown, k, (hs.paired lv q k).1 hq, hk⟩
  · rintro ⟨hown, k, hq, hk⟩
    exact ⟨⟨k, hk, (hs.paired lv q k).2 hq⟩, hown⟩

theorem reqViewMarch_cases (hs : s.Sound) {p m : Nat} (hm : M.mapSize = some m) (r : Req) :
    (r.stays M m (s.getWatcher p) = true ∧ s.reqViewMarch p r = some (s, ⟨r.lv M, [], []⟩) ∧
      ∃ v, s.watcherList p = some v) ∨
    (r.stays M m (s.getWatcher p) = false ∧ ∃ v s' add del, s.reqViewMarch p r = some (s', ⟨r.lv M, add, del⟩) ∧
      s.Moved p m r v s' ∧
      (M.hasAoi (r.lv M) = false → add = [] ∧ del = []) ∧
      (M.hasAoi (r.lv M) = true → ∀ q,
        (q ∈ add ↔ s.InView p (r.cx m) (r.cy m) (r.lv M) q ∧
          q ∉ ((s.getWatcher p).setPosition (r.cx m) (r.cy m) (r.lv M) r.serverid).viewQueues) ∧
        (q ∈ del ↔ q ∈ ((s.getWatcher p).setPosition (r.cx m) (r.cy m) (r.lv M) r.serverid).viewQueues ∧
          ¬ s.InView p (r.cx m) (r.cy m) (r.lv M) q))) := by
  unfold reqViewMarch
  rw [hm, Option.map_some]
  cases hst : r.stays M m (s.getWatcher p) with
  | true =>
    left
    cases hv : s.watcherList p with
    | none => simp [Req.stays, getWatcher, hv] at hst
    | some v =>
      refine ⟨rfl, ?_, v, rfl⟩
      have hset : s.setWatcher p v = s := by
        unfold setWatcher
        rw [← hv, Function.update_eq_self]
      dsimp only
      rw [if_pos hst, getWatcher_of_some hv, hset]
  | false =>
    right
    refine ⟨rfl, ?_⟩
    dsimp only
    rw [if_neg (by rw [hst]; decide)]
    have hl := hs.leave p
    have hw := s.leave_watcherList p (s.getWatcher p)
    have hmarch := s.leave_marches p (s.getWatcher p)
    generalize s.leave p (s.getWatcher p) = t at hl hw hmarch
    generalize hplaced : (s.getWatcher p).setPosition (r.cx m) (r.cy m) (r.lv M) r.serverid = placed
    have hpos : placed.pos = some (r.cx m, r.cy m, r.lv M, r.serverid) := by
      rw [← hplaced]
      rfl
    by_cases haoi : M.hasAoi (r.lv M) = true
    · rw [if_pos haoi]
      have hgrid := (r.inRange hm).isGrid hm (r.lv M)
      have hmarch' : s.SameMarches ((t.setWatcher p placed).aoiAddWatcher (r.lv M) p (r.cx m) (r.cy m)) :=
        hmarch.trans (aoiAddWatcher_marches (s := t.setWatcher p placed) _ _ _ _)
      have hview : ∀ q, q ∈ ((t.setWatcher p placed).aoiAddWatcher (r.lv M) p (r.cx m) (r.cy m)).queuesAround (r.lv M) p
          (r.cx m) (r.cy m) ↔ s.InView p (r.cx m) (r.cy m) (r.lv M) q := by
        intro q
        rw [← mem_queuesAround hs haoi]
        unfold queuesAround
        rw [(hmarch' (r.lv M)).1]
      refine ⟨(placed.judgeViewqueue (((t.setWatcher p placed).aoiAddWatcher (r.lv M) p (r.cx m) (r.cy m)).queuesAround
        (r.lv M) p (r.cx m) (r.cy m))).1, _, _, _, rfl, ⟨?_, hpos, hmarch', fun lv k q => ?_⟩,
        fun h => absurd haoi (by rw [h]; decide), fun _ q => ⟨?_, ?_⟩⟩
      · have hadd : ((t.setWatcher p placed).aoiAddWatcher (r.lv M) p (r.cx m) (r.cy m)).watcherList =
            Function.update t.watcherList p (some placed) := by
          unfold aoiAddWatcher
          rw [if_pos hgrid]
          rfl
        show Function.update ((t.setWatcher p placed).aoiAddWatcher (r.lv M) p (r.cx m) (r.cy m)).watcherList p _ = _
        rw [hadd, hw, Function.update_idem]
      · show q ∈ (((t.setWatcher p placed).aoiAddWatcher (r.lv M) p (r.cx m) (r.cy m)).aoiList lv).watchers k ↔ _
        unfold aoiAddWatcher
        rw [if_pos hgrid, upd_watchers, ← hl lv k q]
        by_cases hc : lv = r.lv M ∧ k = (M.board (r.lv M)).getGridKey (r.cx m) (r.cy m)
        · obtain ⟨rfl, rfl⟩ := hc
          rw [if_pos ⟨rfl, rfl⟩, List.mem_insert_iff]
          constructor
          · rintro (rfl | h)
            · exact .inr ⟨rfl, haoi, rfl, rfl⟩
            · exact .inl h
          · rintro (h | ⟨rfl, -⟩)
            · exact .inr h
            · exact .inl rfl
        · rw [if_neg hc]
          constructor
          · exact .inl
          · rintro (h | ⟨-, -, rfl, rfl⟩)
            · exact h
            · exact absurd ⟨rfl, rfl⟩ hc
      · simp [Watcher.judgeViewqueue, hview q]
      · simp [Watcher.judgeViewqueue, hview q]
    · rw [if_neg haoi]
      refine ⟨placed, _, [], [], rfl, ⟨?_, hpos, hmarch, fun lv k q => ?_⟩, fun _ => ⟨rfl, rfl⟩, fun h => absurd h haoi⟩
      · show Function.update t.watcherList p _ = _
        rw [hw]
      · show q ∈ (t.aoiList lv).watchers k ↔ _
        rw [hl lv k q]
        constructor
        · exact .inl
        · rintro (h | ⟨-, haoi', rfl, -⟩)
          · exact h
          · exact absurd haoi' haoi

end Mgr

namespace World

variable {w : World M}

/-- **The condition for a call to keep every client's view.**  `queueConf.map_size` is set; where a watcher moves within its
level, a march that came into its view since the last answer is still in the new one, and one that left since is not; and
a march is added without telling only where no one sees it. -/
def Keeps (w : World M) : Call → Prop
  | .reqViewMarch p r => ∃ m, M.mapSize = some m ∧ ∀ v x y srv, w.mgr.watcherList p = some v →
      v.pos = some (x, y, r.lv M, srv) → ∀ q,
        (w.mgr.InView p x y (r.lv M) q → q ∉ v.viewQueues → w.mgr.InView p (r.cx m) (r.cy m) (r.lv M) q) ∧
        (q ∈ v.viewQueues → w.mgr.InView p (r.cx m) (r.cy m) (r.lv M) q → w.mgr.InView p x y (r.lv M) q)
  | .addQueue q att isInit => isInit = true → ∀ p x y lv, w.mgr.Stands p x y lv → M.hasAoi lv = true → p ≠ M.owner q →
      ∀ k ∈ boundGrids M.static (M.board lv) att, k ∉ (M.board lv).walkGrids x y
  | _ => True

theorem setPosition_viewQueues {v : Watcher M} {x y x' y' : Nat} {lv lv' : M.Lv} {srv : Nat}
    (hpos : v.pos = some (x', y', lv', srv)) :
    (v.setPosition x y lv srv).viewQueues = if lv' = lv then v.viewQueues else [] := by
  unfold Watcher.setPosition
  rw [hpos]
  by_cases h : lv' = lv
  · simp [h]
  · simp [h]

theorem step_req_moved (hw : w.Shows) {p m : Nat} {r : Req} (hsrv : r.serverid = M.home p) (hm : M.mapSize = some m)
    (hk : Keeps w (.reqViewMarch p r)) {add del : List Nat}
    (hno : M.hasAoi (r.lv M) = false → add = [] ∧ del = [])
    (hdiff : M.hasAoi (r.lv M) = true → ∀ q,
      (q ∈ add ↔ w.mgr.InView p (r.cx m) (r.cy m) (r.lv M) q ∧
        q ∉ ((w.mgr.getWatcher p).setPosition (r.cx m) (r.cy m) (r.lv M) r.serverid).viewQueues) ∧
      (q ∈ del ↔ q ∈ ((w.mgr.getWatcher p).setPosition (r.cx m) (r.cy m) (r.lv M) r.serverid).viewQueues ∧
        ¬ w.mgr.InView p (r.cx m) (r.cy m) (r.lv M) q)) (q : Nat) :
    ((w.client p).onReply ⟨r.lv M, add, del⟩).queues q = true ↔ w.mgr.InView p (r.cx m) (r.cy m) (r.lv M) q := by
  obtain ⟨m', hm', hkeep⟩ := hk
  obtain rfl : m' = m := Option.some.inj (hm'.symm.trans hm)
  have hgoal : ((w.client p).onReply ⟨r.lv M, add, del⟩).queues q = true ↔
      q ∈ add ∨ (q ∉ del ∧ (w.client p).lv = some (r.lv M) ∧ (w.client p).queues q = true) := by
    unfold Client.onReply
    by_cases h1 : q ∈ add
    · simp [h1]
    · by_cases h2 : q ∈ del
      · simp [h1, h2]
      · by_cases h3 : (w.client p).lv = some (r.lv M)
        · simp [h1, h2, h3]
        · simp [h1, h2, h3]
  rw [hgoal]
  cases hv : w.mgr.watcherList p with
  | none =>
    have hlv := hw.fresh p hv
    have hg : w.mgr.getWatcher p = {} := by simp [Mgr.getWatcher, hv]
    by_cases haoi : M.hasAoi (r.lv M) = true
    · obtain ⟨hadd, -⟩ := hdiff haoi q
      rw [hadd, hg, hlv]
      simp [Watcher.setPosition]
    · obtain ⟨rfl, rfl⟩ := hno (Bool.eq_false_iff.2 haoi)
      rw [hlv]
      simp [Mgr.InView, haoi]
  | some v =>
    obtain ⟨_, x, y, lv, -, hpos, -⟩ := hw.sound.placed p v hv
    obtain ⟨hlv, hqs⟩ := hw.client p x y lv ⟨v, M.home p, hv, hpos⟩
    rw [hlv, hqs q]
    by_cases haoi : M.hasAoi (r.lv M) = true
    · obtain ⟨hadd, hdel⟩ := hdiff haoi q
      rw [hadd, hdel, Mgr.getWatcher_of_some hv, hsrv, setPosition_viewQueues hpos]
      by_cases hsame : lv = r.lv M
      · subst hsame
        obtain ⟨hcame, hleft⟩ := hkeep v x y (M.home p) hv hpos q
        rw [if_pos rfl]
        constructor
        · rintro (h | ⟨hdel, -, hold⟩)
          · exact h.1
          · by_cases hq : q ∈ v.viewQueues
            · by_contra hnew
              exact hdel ⟨hq, hnew⟩
            · exact hcame hold hq
        · intro hnew
          by_cases hq : q ∈ v.viewQueues
          · exact .inr ⟨fun h => h.2 hnew, rfl, hleft hq hnew⟩
          · exact .inl ⟨hnew, hq⟩
      · rw [if_neg hsame]
        simp [hsame]
    · obtain ⟨rfl, rfl⟩ := hno (Bool.eq_false_iff.2 haoi)
      by_cases hsame : lv = r.lv M
      · subst hsame
        simp [Mgr.InView, haoi]
      · simp [hsame, Mgr.InView, haoi]

theorem step_reqViewMarch (hw : w.Shows) {p : Nat} {r : Req} (hsrv : r.serverid = M.home p)
    (hk : Keeps w (.reqViewMarch p r)) : (w.step (.reqViewMarch p r)).Shows := by
  obtain ⟨m, hm, -⟩ := id hk
  rcases Mgr.reqViewMarch_cases hw.sound (p := p) hm r with ⟨hst, heq, v, hv⟩ |
    ⟨-, v, s', add, del, heq, hmoved, hno, hdiff⟩
  · have hmgr : (w.step (.reqViewMarch p r)).mgr = w.mgr := by simp [step, heq]
    have hcl : (w.step (.reqViewMarch p r)).client =
      Function.update w.client p ((w.client p).onReply ⟨r.lv M, [], []⟩) := by
      simp [step, heq]
    -- the answer names the level the client has
    have hsame : (w.client p).onReply ⟨r.lv M, [], []⟩ = w.client p := by
      obtain ⟨_, x, y, lv, -, hpos, -⟩ := hw.sound.placed p v hv
      have hlv := (hw.client p x y lv ⟨v, M.home p, hv, hpos⟩).1
      rw [Mgr.getWatcher_of_some hv] at hst
      unfold Req.stays at hst
      simp only [hpos, Bool.and_eq_true, beq_iff_eq] at hst
      obtain ⟨⟨rfl, -⟩, -⟩ := hst
      unfold Client.onReply
      rw [hlv]
      simp only [List.contains_nil, Bool.false_eq_true, if_false, beq_self_eq_true, if_true]
      rw [← hlv]
    rw [hsame, Function.update_eq_self] at hcl
    refine ⟨hmgr ▸ hw.sound, fun q hq => ?_, fun q x y lv hq => ?_⟩
    · rw [hcl]
      exact hw.fresh q (hmgr ▸ hq)
    · rw [hcl, hmgr]
      exact hw.client q x y lv (hmgr ▸ hq)
  · have hmgr : (w.step (.reqViewMarch p r)).mgr = s' := by simp [step, heq]
    have hcl : (w.step (.reqViewMarch p r)).client =
      Function.update w.client p ((w.client p).onReply ⟨r.lv M, add, del⟩) := by
      simp [step, heq]
    refine ⟨hmgr ▸ hmoved.sound hw.sound hm hsrv, fun q hq => ?_, fun q x y lv hq => ?_⟩
    · rw [hmgr, hmoved.watcherList] at hq
      by_cases hqp : q = p
      · subst hqp
        rw [Function.update_self] at hq
        cases hq
      · rw [Function.update_of_ne hqp] at hq
        rw [hcl, Function.update_of_ne hqp]
        exact hw.fresh q hq
    · rw [hmgr] at hq ⊢
      rw [hcl]
      obtain ⟨u, srv, hu, hpos⟩ := hq
      rw [hmoved.watcherList] at hu
      by_cases hqp : q = p
      · subst hqp
        rw [Function.update_self] at hu ⊢
        cases hu
        rw [hmoved.pos] at hpos
        cases hpos
        refine ⟨rfl, fun q' => ?_⟩
        rw [hmoved.marches.inView]
        exact step_req_moved hw hsrv hm hk hno hdiff q'
      · rw [Function.update_of_ne hqp] at hu ⊢
        obtain ⟨hlv, hqs⟩ := hw.client q x y lv ⟨u, srv, hu, hpos⟩
        refine ⟨hlv, fun q' => ?_⟩
        rw [hmoved.marches.inView]
        exact hqs q'

theorem step_shows (hw : w.Shows) {e : Call} (hk : Keeps w e)
    (hsrv : ∀ p r, e = .reqViewMarch p r → r.serverid = M.home p) :
    (w.step e).Shows := by
  cases e with
  | reqViewMarch p r => exact step_reqViewMarch hw (hsrv p r rfl) hk
  | addQueue q att isInit =>
    refine hw.onLevels (fun lv haoi => Level.addQueue_calls (fun hi p g hp hat => ?_)) att
    rintro ⟨k, hk', hg⟩
    obtain ⟨-, x, y, hst, rfl⟩ := (hw.sound.reg lv g p).1 ((hat.2 g).2 rfl)
    exact hk hi p x y lv hst haoi hp k hk' hg
  | updateQueue q att ck => exact hw.onLevels (fun lv _ => Level.updateQueue_calls _ q (M.owner q) att ck) att
  | removeQueue q att => exact hw.onLevels (fun lv _ => Level.removeQueue_calls _ _ q (M.owner q)) att

def Homely (M : Setup) (es : List Call) : Prop := ∀ p r, Call.reqViewMarch p r ∈ es → r.serverid = M.home p

theorem shows_of_keeps : ∀ (es : List Call) (w : World M), Homely M es → Steps.Along step Keeps w es → w.Shows →
    (es.foldl step w).Shows
  | [], _, _, _, hw => hw
  | e :: es, w, hh, hk, hw =>
    shows_of_keeps es (w.step e) (fun p r hr => hh p r (.tail e hr)) hk.2
      (step_shows hw hk.1 (fun p r hr => hh p r (hr ▸ .head es)))

/-- The player's watcher is at the level and in the grid of its last request. -/
def Follows (w : World M) : Prop := ∀ p r, w.last p = some r → ∃ m x y, M.mapSize = some m ∧ w.mgr.Stands p x y (r.lv M) ∧
  (M.board (r.lv M)).toGridXy x y = (M.board (r.lv M)).toGridXy (r.cx m) (r.cy m)

theorem onLevels_watcherList (s : Mgr M) (att : Queue) (f : (lv : M.Lv) → Level → Level × List (Nat × Msg)) :
    (s.onLevels att f).1.watcherList = s.watcherList := by
  unfold Mgr.onLevels
  split
  · rfl
  · rfl

theorem Follows.congr (hf : w.Follows) {w' : World M} (hwl : w'.mgr.watcherList = w.mgr.watcherList)
    (hl : w'.last = w.last) :
    w'.Follows := by
  intro p r hr
  obtain ⟨m, x, y, hm, ⟨v, srv, hv, hpos⟩, hg⟩ := hf p r (hl ▸ hr)
  exact ⟨m, x, y, hm, ⟨v, srv, by rw [hwl]; exact hv, hpos⟩, hg⟩

theorem step_follows (hw : w.Shows) (hf : w.Follows) {e : Call} (hk : Keeps w e) : (w.step e).Follows := by
  cases e with
  | addQueue q att isInit => exact hf.congr (onLevels_watcherList _ att _) rfl
  | updateQueue q att ck => exact hf.congr (onLevels_watcherList _ att _) rfl
  | removeQueue q att => exact hf.congr (onLevels_watcherList _ att _) rfl
  | reqViewMarch p r =>
    obtain ⟨m, hm, -⟩ := hk
    intro p' r' hr'
    have hlast : (w.step (.reqViewMarch p r)).last = Function.update w.last p (some r) := by
      cases h : w.mgr.reqViewMarch p r with
      | none => simp [step, h]
      | some a => simp [step, h]
    rw [hlast] at hr'
    rcases Mgr.reqViewMarch_cases hw.sound (p := p) hm r with ⟨hst, heq, v, hv⟩ | ⟨-, v, s', add, del, heq, hmoved, -⟩
    · have hmgr : (w.step (.reqViewMarch p r)).mgr = w.mgr := by simp [step, heq]
      rw [hmgr]
      by_cases hp : p' = p
      · subst hp
        rw [Function.update_self] at hr'
        obtain rfl : r = r' := Option.some.inj hr'
        obtain ⟨_, x, y, lv, -, hpos, -⟩ := hw.sound.placed p' v hv
        rw [Mgr.getWatcher_of_some hv] at hst
        unfold Req.stays at hst
        simp only [hpos, Bool.and_eq_true, beq_iff_eq] at hst
        obtain ⟨⟨rfl, -⟩, hg⟩ := hst
        exact ⟨m, x, y, hm, ⟨v, M.home p', hv, hpos⟩, hg⟩
      · rw [Function.update_of_ne hp] at hr'
        exact hf p' r' hr'
    · have hmgr : (w.step (.reqViewMarch p r)).mgr = s' := by simp [step, heq]
      rw [hmgr]
      by_cases hp : p' = p
      · subst hp
        rw [Function.update_self] at hr'
        obtain rfl : r = r' := Option.some.inj hr'
        exact ⟨m, r.cx m, r.cy m, hm, ⟨v, r.serverid, by rw [hmoved.watcherList, Function.update_self], hmoved.pos⟩, rfl⟩
      · rw [Function.update_of_ne hp] at hr'
        obtain ⟨m', x, y, hm', ⟨u, srv, hu, hpos⟩, hg⟩ := hf p' r' hr'
        exact ⟨m', x, y, hm', ⟨u, srv, by rw [hmoved.watcherList, Function.update_of_ne hp]; exact hu, hpos⟩, hg⟩

theorem follows_of_keeps : ∀ (es : List Call) (w : World M), Homely M es → Steps.Along step Keeps w es →
    w.Shows → w.Follows →
    (es.foldl step w).Follows
  | [], _, _, _, _, hf => hf
  | e :: es, w, hh, hk, hw, hf =>
    follows_of_keeps es (w.step e) (fun p r hr => hh p r (.tail e hr)) hk.2
      (step_shows hw hk.1 (fun p r hr => hh p r (hr ▸ .head es))) (step_follows hw hf hk.1)

theorem start_shows : ({} : World M).Shows := by
  refine ⟨Mgr.start_sound, fun _ _ => rfl, fun p x y lv h => ?_⟩
  obtain ⟨v, srv, hv, -⟩ := h
  cases hv

/-- **The client's marches in every run whose calls meet the condition**: exactly those of other players with a grid in the
3x3 block around the client's last request, at its level, and none where that has no marches. -/
theorem marches_of_run (es : List Call) (hhome : Homely M es) (hkeep : Steps.Along step Keeps ({} : World M) es)
    (p : Nat) (r : Req) (hr : (run es : World M).last p = some r) :
    ∃ m, M.mapSize = some m ∧ ∀ q, ((run es : World M).client p).queues q = true ↔
      M.hasAoi (r.lv M) = true ∧ M.owner q ≠ p ∧ ∃ grids k, ((run es : World M).mgr.aoiList (r.lv M)).queueGridRef q =
        some grids ∧
        k ∈ grids ∧ (M.board (r.lv M)).InBlock ((M.board (r.lv M)).toGridXy (r.cx m) (r.cy m)) k := by
  have hw : (run es : World M).Shows := shows_of_keeps es _ hhome hkeep start_shows
  have hf : (run es : World M).Follows := by
    refine follows_of_keeps es _ hhome hkeep start_shows (fun p r h => ?_)
    cases h
  obtain ⟨m, x, y, hm, hst, hg⟩ := hf p r hr
  refine ⟨m, hm, fun q => ?_⟩
  rw [(hw.client p x y (r.lv M) hst).2 q]
  unfold Mgr.InView Level.ref
  rw [(M.board (r.lv M)).walkGrids_congr hg]
  cases ((run es : World M).mgr.aoiList (r.lv M)).queueGridRef q with
  | none => simp
  | some grids =>
    simp only [Option.getD_some, Option.some.injEq, exists_eq_left', (r.inRange hm).mem_walkGrids hm, exists_and_left]

/-! Two levels of the world map, of which the first has marches; every march is player 9's. -/

theorem cells_pos : ∀ c ∈ ([⟨18, true, 54⟩, ⟨27, false, 0⟩] : List Conf), 0 < c.offset := by decide

theorem span_narrow : 1215 < 10000 := by decide

theorem size_covered : ∀ m, some 1197 = some m → 0 < m ∧ m ≤ 1215 ∧ m ≤ 1215 := by
  intro m h
  cases h
  decide

/-- The map with a size to bring requests into, or, as in `queueConf`, without. -/
def field (mapSize : Option Nat) (h : ∀ m, mapSize = some m → 0 < m ∧ m ≤ 1215 ∧ m ≤ 1215) : Setup where
  width := 1215
  height := 1215
  confs := [⟨18, true, 54⟩, ⟨27, false, 0⟩]
  mapSize := mapSize
  brigade := none
  static := Index.plainStatic
  owner := fun _ => 9
  home := fun _ => 1
  confs_ne := List.cons_ne_nil _ _
  offset_pos := cells_pos
  narrow := span_narrow
  covers := h

def sized : Setup := field (some 1197) size_covered

def unsized : Setup := field none (fun m h => by cases h)

def look (x : Nat) (h : 0 < x) : Req := ⟨1, x, x, 30, h, h⟩

def passing : List Call :=
  [.reqViewMarch 7 (look 1 Nat.one_pos), .addQueue 5 (Index.march moving) false,
    .updateQueue 5 (Index.march staying) (some ⟨false, true⟩)]

theorem marches_of_run_passing : ((run passing : World sized).client 7).queues 5 = false ∧
    ∃ m, sized.mapSize = some m ∧ ∀ q, ((run passing : World sized).client 7).queues q = true ↔
      sized.hasAoi ((look 1 (by decide)).lv sized) = true ∧ sized.owner q ≠ 7 ∧
        ∃ grids k, ((run passing : World sized).mgr.aoiList ((look 1 (by decide)).lv sized)).queueGridRef q = some grids ∧
          k ∈ grids ∧ (sized.board ((look 1 (by decide)).lv sized)).InBlock
            ((sized.board ((look 1 (by decide)).lv sized)).toGridXy ((look 1 (by decide)).cx m)
              ((look 1 (by decide)).cy m)) k := by
  refine ⟨by decide +kernel, marches_of_run passing ?_ ⟨⟨1197, rfl, ?_⟩, ?_, trivial, trivial⟩ 7 (look 1 (by decide)) rfl⟩
  · intro p r hr
    simp only [passing, List.mem_cons, Call.reqViewMarch.injEq, reduceCtorEq, List.not_mem_nil, or_false] at hr
    rw [hr.2]
    rfl
  · intro v x y srv hv
    cases hv
  · intro h
    cases h

/-- **Two ways for a client to differ.**  Without `queueConf.map_size` a request raises, and the client shows none of the
marches it asked for.  With it, a march that came into view after a request is not taken back when the view moves away. -/
theorem marches_stale :
    (((run [.addQueue 5 (Index.march staying) false, .reqViewMarch 7 (look 40 (by decide))] : World unsized).mgr.aoiList
        ⟨0, by decide⟩).queueGridRef 5 = some [20003] ∧
      20003 ∈ (unsized.board ⟨0, by decide⟩).walkGrids 40 40 ∧
      ((run [.addQueue 5 (Index.march staying) false, .reqViewMarch 7 (look 40 (by decide))] : World unsized).client
        7).queues 5 = false) ∧
    (((run [.reqViewMarch 7 (look 40 (by decide)), .addQueue 5 (Index.march staying) false,
        .reqViewMarch 7 (look 900 (by decide))] : World sized).mgr.aoiList ⟨0, by decide⟩).queueGridRef 5 = some [20003] ∧
      20003 ∉ (sized.board ⟨0, by decide⟩).walkGrids 900 900 ∧
      ((run [.reqViewMarch 7 (look 40 (by decide)), .addQueue 5 (Index.march staying) false,
        .reqViewMarch 7 (look 900 (by decide))] : World sized).client 7).queues 5 = true) := by
  decide +kernel

end World
end QueueAoi
end Sncpp
