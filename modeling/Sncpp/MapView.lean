import Sncpp.MapAoi
import Sncpp.Steps
/-!
# MapView — every watcher is where it last asked to be

Over every run of requests, removals and changes of objects a watcher is in one grid of one level, that of its
recorded position, and what it is thought to see is the 3x3 block around it (`Sound`).
-/
namespace Sncpp
namespace MapAoi

variable {β : Type} {M : Setup}

theorem mem_addWatcher {c : Cell} {p q : Nat} : q ∈ (c.addWatcher p).watchers ↔ q = p ∨ q ∈ c.watchers :=
  List.mem_insert_iff

theorem mem_removeWatcher {c : Cell} {p q : Nat} : q ∈ (c.removeWatcher p).watchers ↔ q ∈ c.watchers ∧ q ≠ p := by
  unfold Cell.removeWatcher
  rw [List.mem_filter, bne_iff_ne]

theorem removeWatcher_of_notMem {c : Cell} {p : Nat} (h : p ∉ c.watchers) : c.removeWatcher p = c := by
  unfold Cell.removeWatcher
  rw [List.filter_eq_self.2]
  intro q hq
  rw [bne_iff_ne]
  rintro rfl
  exact h hq

theorem removeWatcher_twice (c : Cell) (p : Nat) : (c.removeWatcher p).removeWatcher p = c.removeWatcher p :=
  removeWatcher_of_notMem (fun h => (mem_removeWatcher.1 h).2 rfl)

/-- A position `reqmapinfo` may set. -/
def InRange (x y : Nat) : Prop := (0 < x ∧ x ≤ mapSize) ∧ 0 < y ∧ y ≤ mapSize

theorem Req.inRange (r : Req) : InRange r.cx r.cy :=
  ⟨⟨Nat.lt_min.2 ⟨r.x_pos, by decide⟩, Nat.min_le_right _ _⟩, Nat.lt_min.2 ⟨r.y_pos, by decide⟩, Nat.min_le_right _ _⟩

theorem InRange.isGrid {x y : Nat} (h : InRange x y) (lv : M.Level) :
    (M.board lv).isGrid ((M.board lv).getGridKey x y) = true :=
  (M.board lv).isGrid_getGridKey h.1.1 (h.1.2.trans M.covers.1) h.2.1 (h.2.2.trans M.covers.2)

theorem InRange.mem_walkGrids {x y : Nat} (h : InRange x y) (lv : M.Level) {k : Int} :
    k ∈ (M.board lv).walkGrids x y ↔ (M.board lv).InBlock ((M.board lv).toGridXy x y) k :=
  (M.board lv).mem_walkGrids h.1.1 (h.1.2.trans M.covers.1) h.2.1 (h.2.2.trans M.covers.2)

namespace Mgr

variable {s : Mgr M β}

theorem upd_cell (lv lv' : M.Level) (k k' : Int) (f : Cell → Cell) :
    (s.upd lv k f).aoiList lv' k' = if lv' = lv ∧ k' = k then f (s.aoiList lv' k') else s.aoiList lv' k' := by
  unfold upd
  by_cases hlv : lv' = lv
  · subst hlv
    by_cases hk : k' = k
    · subst hk
      simp
    · simp [hk]
  · simp [hlv]

theorem aoiAddWatcher_cell {x y : Nat} (h : InRange x y) (lv lv' : M.Level) (p : Nat) (k : Int) :
    (s.aoiAddWatcher lv p x y).aoiList lv' k =
      if lv' = lv ∧ k = (M.board lv).getGridKey x y then (s.aoiList lv' k).addWatcher p else s.aoiList lv' k := by
  unfold aoiAddWatcher
  rw [if_pos (h.isGrid lv), upd_cell]

theorem sweep_cell (lv lv' : M.Level) (p : Nat) (k : Int) :
    (s.sweep lv p).aoiList lv' k =
      if lv' = lv ∧ (M.board lv).isGrid k = true then (s.aoiList lv' k).removeWatcher p else s.aoiList lv' k := by
  unfold sweep
  by_cases hlv : lv' = lv
  · subst hlv
    by_cases hk : (M.board lv').isGrid k = true
    · by_cases hp : p ∈ (s.aoiList lv' k).watchers
      · simp [hk, hp]
      · simp [hk, hp, removeWatcher_of_notMem]
    · simp [hk]
  · simp [hlv]

theorem aoiRemoveWatcher_cell {x y : Nat} (h : InRange x y) (lv lv' : M.Level) (p : Nat) (k : Int) :
    (s.aoiRemoveWatcher lv p x y).aoiList lv' k =
      if lv' = lv ∧ (M.board lv).isGrid k = true then (s.aoiList lv' k).removeWatcher p else s.aoiList lv' k := by
  have hg := h.isGrid lv
  unfold aoiRemoveWatcher
  rw [if_pos hg, sweep_cell, upd_cell]
  by_cases hc : lv' = lv ∧ k = (M.board lv).getGridKey x y
  · obtain ⟨rfl, rfl⟩ := hc
    simp [hg, removeWatcher_twice]
  · rw [if_neg hc]

theorem aoiRemoveWatcher_rest (lv : M.Level) (p x y : Nat) :
    (s.aoiRemoveWatcher lv p x y).watcherList = s.watcherList ∧ (s.aoiRemoveWatcher lv p x y).data = s.data := by
  unfold aoiRemoveWatcher
  split
  · exact ⟨rfl, rfl⟩
  · exact ⟨rfl, rfl⟩

theorem aoiAddWatcher_rest (lv : M.Level) (p x y : Nat) :
    (s.aoiAddWatcher lv p x y).watcherList = s.watcherList ∧ (s.aoiAddWatcher lv p x y).data = s.data := by
  unfold aoiAddWatcher
  split
  · exact ⟨rfl, rfl⟩
  · exact ⟨rfl, rfl⟩

theorem foldl_aoiRemoveWatcher {x y : Nat} (h : InRange x y) (p : Nat) (k : Int) :
    ∀ (l : List M.Level) (s : Mgr M β) (lv : M.Level),
      (l.foldl (fun s lv => s.aoiRemoveWatcher lv p x y) s).aoiList lv k =
        if lv ∈ l ∧ (M.board lv).isGrid k = true then (s.aoiList lv k).removeWatcher p else s.aoiList lv k
  | [], s, lv => by simp
  | a :: l, s, lv => by
    rw [List.foldl_cons, foldl_aoiRemoveWatcher h p k l _ lv, aoiRemoveWatcher_cell h]
    by_cases ha : lv = a
    · subst ha
      by_cases hk : (M.board lv).isGrid k = true
      · simp [hk, removeWatcher_twice]
      · simp [hk]
    · simp [ha]

theorem foldl_aoiRemoveWatcher_rest (p x y : Nat) : ∀ (l : List M.Level) (s : Mgr M β),
    (l.foldl (fun s lv => s.aoiRemoveWatcher lv p x y) s).watcherList = s.watcherList ∧
      (l.foldl (fun s lv => s.aoiRemoveWatcher lv p x y) s).data = s.data
  | [], _ => ⟨rfl, rfl⟩
  | a :: l, s => by
    obtain ⟨h1, h2⟩ := foldl_aoiRemoveWatcher_rest p x y l (s.aoiRemoveWatcher a p x y)
    obtain ⟨h3, h4⟩ := s.aoiRemoveWatcher_rest a p x y
    exact ⟨h1.trans h3, h2.trans h4⟩

def Stands (s : Mgr M β) (p x y : Nat) (lv : M.Level) : Prop :=
  ∃ v, s.watcherList p = some v ∧ v.pos = some (x, y, lv)

/-- **A watcher is in the grid of its recorded position and no other, and is thought to see the block around it.** -/
structure Sound (s : Mgr M β) : Prop where
  placed : ∀ p v, s.watcherList p = some v → ∃ x y lv, v.pos = some (x, y, lv) ∧ InRange x y ∧
    ∀ k, k ∈ v.viewgrid ↔ k ∈ (M.board lv).walkGrids x y
  reg : ∀ lv k p, p ∈ (s.aoiList lv k).watchers ↔ ∃ x y, s.Stands p x y lv ∧ k = (M.board lv).getGridKey x y
  nodup : ∀ lv k, (s.aoiList lv k).watchers.Nodup

theorem Stands.unique {p x y x' y' : Nat} {lv lv' : M.Level} (h : s.Stands p x y lv) (h' : s.Stands p x' y' lv') :
    x = x' ∧ y = y' ∧ lv = lv' := by
  obtain ⟨v, hv, hp⟩ := h
  obtain ⟨v', hv', hp'⟩ := h'
  rw [hv] at hv'
  cases hv'
  rw [hp] at hp'
  cases hp'
  exact ⟨rfl, rfl, rfl⟩

theorem Sound.inRange (hs : s.Sound) {p x y : Nat} {lv : M.Level} (h : s.Stands p x y lv) : InRange x y := by
  obtain ⟨v, hv, hp⟩ := h
  obtain ⟨x', y', lv', hp', hr, -⟩ := hs.placed p v hv
  rw [hp] at hp'
  cases hp'
  exact hr

theorem Sound.isGrid (hs : s.Sound) {lv : M.Level} {k : Int} {p : Nat} (h : p ∈ (s.aoiList lv k).watchers) :
    (M.board lv).isGrid k = true := by
  obtain ⟨x, y, hst, rfl⟩ := (hs.reg lv k p).1 h
  exact (hs.inRange hst).isGrid lv

theorem start_sound (data : Nat → Data β) : (start (M := M) data).Sound := by
  refine ⟨fun p v h => ?_, fun lv k p => ?_, fun _ _ => List.nodup_nil⟩
  · cases h
  · constructor
    · intro h
      cases h
    · rintro ⟨x, y, ⟨v, hv, -⟩, -⟩
      cases hv

theorem Sound.congr (hs : s.Sound) {s' : Mgr M β} (hw : s'.watcherList = s.watcherList)
    (hc : ∀ lv k, (s'.aoiList lv k).watchers = (s.aoiList lv k).watchers) : s'.Sound where
  placed p v h := hs.placed p v (hw ▸ h)
  reg lv k p := by
    rw [hc, hs.reg]
    unfold Stands
    rw [hw]
  nodup lv k := hc lv k ▸ hs.nodup lv k

theorem removeWatcher_sound (hs : s.Sound) (p : Nat) : (s.removeWatcher p).Sound := by
  unfold removeWatcher
  cases hv : s.watcherList p with
  | none =>
    refine hs.congr (funext fun q => ?_) (fun _ _ => rfl)
    by_cases hq : q = p
    · subst hq
      simp [setWatcher, hv]
    · simp [setWatcher, hq]
  | some v =>
    obtain ⟨x, y, lv₀, hpos, hr, -⟩ := hs.placed p v hv
    simp only [hpos]
    obtain ⟨hw, -⟩ := foldl_aoiRemoveWatcher_rest p x y (List.finRange M.confs.length) s
    have hcell := fun k => foldl_aoiRemoveWatcher hr p k (List.finRange M.confs.length) s
    generalize (List.finRange M.confs.length).foldl (fun s lv => s.aoiRemoveWatcher lv p x y) s = t at hw hcell
    have hmem : ∀ lv k q, q ∈ (t.aoiList lv k).watchers ↔ q ∈ (s.aoiList lv k).watchers ∧ q ≠ p := by
      intro lv k q
      rw [hcell]
      by_cases hk : (M.board lv).isGrid k = true
      · simp only [List.mem_finRange, hk, and_self, if_true, mem_removeWatcher]
      · simp only [hk, and_false, if_false, Bool.false_eq_true]
        constructor
        · intro h
          exact absurd (hs.isGrid h) hk
        · intro h
          exact h.1
    refine ⟨fun q u hu => ?_, fun lv k q => ?_, fun lv k => ?_⟩
    · by_cases hq : q = p
      · subst hq
        simp [setWatcher] at hu
      · exact hs.placed q u (by simpa [setWatcher, hq, hw] using hu)
    · rw [show ((t.setWatcher p none).aoiList lv k) = t.aoiList lv k from rfl, hmem, hs.reg]
      unfold Stands
      by_cases hq : q = p
      · subst hq
        simp [setWatcher]
      · simp [setWatcher, hq, hw]
    · rw [show ((t.setWatcher p none).aoiList lv k) = t.aoiList lv k from rfl, hcell]
      split
      · exact (hs.nodup lv k).filter _
      · exact hs.nodup lv k

theorem mem_addgrids {v : Watcher M} {grids : List Int} {k : Int} :
    k ∈ (v.judgeViewgrid grids).2.1 ↔ k ∈ grids ∧ k ∉ v.viewgrid := by
  simp only [Watcher.judgeViewgrid, List.mem_filter, Bool.not_eq_true', List.contains_eq_mem, decide_eq_true_eq,
    decide_eq_false_iff_not]
  constructor
  · rintro ⟨hk, hn⟩
    exact ⟨hk, fun hv => hn ⟨hv, hk⟩⟩
  · rintro ⟨hk, hn⟩
    exact ⟨hk, fun hv => hn hv.1⟩

theorem mem_delgrids {v : Watcher M} {grids : List Int} {k : Int} :
    k ∈ (v.judgeViewgrid grids).2.2 ↔ k ∈ v.viewgrid ∧ k ∉ grids := by
  simp [Watcher.judgeViewgrid, List.mem_filter]

theorem mem_judged {v : Watcher M} {grids : List Int} {k : Int} :
    k ∈ (v.judgeViewgrid grids).1.viewgrid ↔ k ∈ grids := by
  show k ∈ v.viewgrid.filter (fun k => grids.contains k) ++ (v.judgeViewgrid grids).2.1 ↔ k ∈ grids
  rw [List.mem_append, mem_addgrids, List.mem_filter, List.contains_eq_mem, decide_eq_true_eq]
  by_cases hv : k ∈ v.viewgrid
  · simp [hv]
  · simp [hv]

structure Moved (s : Mgr M β) (p : Nat) (r : Req) (s' : Mgr M β) : Prop where
  watcherList : s'.watcherList =
    Function.update s.watcherList p (some ((r.place M (s.getWatcher p)).judgeViewgrid (r.view M)).1)
  data : s'.data = s.data
  objects : ∀ lv k, (s'.aoiList lv k).objects = (s.aoiList lv k).objects
  watchers : ∀ lv k q, q ∈ (s'.aoiList lv k).watchers ↔
    (q ∈ (s.aoiList lv k).watchers ∧ q ≠ p) ∨ (q = p ∧ lv = r.lv M ∧ k = (M.board lv).getGridKey r.cx r.cy)
  nodup : ∀ lv k, (s'.aoiList lv k).watchers.Nodup

theorem Sound.leave (hs : s.Sound) (p : Nat) (lv : M.Level) (k : Int) :
    ((s.leave p (s.getWatcher p)).aoiList lv k).objects = (s.aoiList lv k).objects ∧
      ((s.leave p (s.getWatcher p)).aoiList lv k).watchers.Nodup ∧
      ∀ q, q ∈ ((s.leave p (s.getWatcher p)).aoiList lv k).watchers ↔ q ∈ (s.aoiList lv k).watchers ∧ q ≠ p := by
  unfold Mgr.leave getWatcher
  cases hv : s.watcherList p with
  | none =>
    refine ⟨rfl, hs.nodup lv k, fun q => ⟨fun h => ⟨h, ?_⟩, fun h => h.1⟩⟩
    rintro rfl
    obtain ⟨x, y, ⟨v, hv', -⟩, -⟩ := (hs.reg lv k q).1 h
    rw [hv] at hv'
    cases hv'
  | some v =>
    obtain ⟨x, y, lv₀, hpos, hr, -⟩ := hs.placed p v hv
    simp only [Option.getD_some, hpos]
    rw [aoiRemoveWatcher_cell hr]
    by_cases hc : lv = lv₀ ∧ (M.board lv₀).isGrid k = true
    · rw [if_pos hc]
      exact ⟨rfl, (hs.nodup lv k).filter _, fun q => mem_removeWatcher⟩
    · rw [if_neg hc]
      refine ⟨rfl, hs.nodup lv k, fun q => ⟨fun h => ⟨h, ?_⟩, fun h => h.1⟩⟩
      rintro rfl
      obtain ⟨x', y', hst, rfl⟩ := (hs.reg lv k q).1 h
      obtain ⟨-, -, rfl⟩ := hst.unique ⟨v, hv, hpos⟩
      exact hc ⟨rfl, hs.isGrid h⟩

theorem leave_rest (p : Nat) (v : Watcher M) : (s.leave p v).watcherList = s.watcherList ∧ (s.leave p v).data = s.data := by
  unfold Mgr.leave
  split
  · exact ⟨rfl, rfl⟩
  · exact s.aoiRemoveWatcher_rest _ _ _ _

theorem reqmapinfo_stays {p : Nat} {r : Req} (h : r.stays M (s.getWatcher p) = true) :
    s.reqmapinfo p r = (s, some {}) ∧ ∃ v, s.watcherList p = some v := by
  cases hv : s.watcherList p with
  | none => simp [Req.stays, getWatcher, hv] at h
  | some v =>
    refine ⟨?_, v, rfl⟩
    unfold reqmapinfo
    rw [if_pos h]
    have hg : s.getWatcher p = v := by simp [getWatcher, hv]
    have : s.setWatcher p (some v) = s := by
      unfold setWatcher
      rw [← hv, Function.update_eq_self]
    rw [hg, this]

theorem reqmapinfo_moved (hs : s.Sound) {p : Nat} {r : Req} (h : r.stays M (s.getWatcher p) = false) :
    s.Moved p r (s.reqmapinfo p r).1 := by
  have hl := hs.leave p
  obtain ⟨hw, hd⟩ := s.leave_rest p (s.getWatcher p)
  unfold reqmapinfo
  rw [if_neg (by rw [h]; decide)]
  dsimp only
  generalize s.leave p (s.getWatcher p) = t at hl hw hd
  obtain ⟨hw', hd'⟩ := (t.setWatcher p (some (r.place M (s.getWatcher p)))).aoiAddWatcher_rest (r.lv M) p r.cx r.cy
  refine ⟨?_, hd'.trans hd, fun lv k => ?_, fun lv k q => ?_, fun lv k => ?_⟩
  · show Function.update _ _ _ = _
    rw [hw']
    show Function.update (Function.update t.watcherList _ _) _ _ = _
    rw [hw, Function.update_idem]
  all_goals
    obtain ⟨ho, hn, hm⟩ := hl lv k
    rw [show ∀ u : Mgr M β, ∀ v, (u.setWatcher p v).aoiList = u.aoiList from fun _ _ => rfl, aoiAddWatcher_cell r.inRange,
      show ∀ u : Mgr M β, ∀ v, (u.setWatcher p v).aoiList = u.aoiList from fun _ _ => rfl]
  · split
    · exact ho
    · exact ho
  · split
    · rename_i hc
      obtain ⟨rfl, rfl⟩ := hc
      rw [mem_addWatcher, hm]
      constructor
      · rintro (rfl | h)
        · exact .inr ⟨rfl, rfl, rfl⟩
        · exact .inl h
      · rintro (h | ⟨rfl, -⟩)
        · exact .inr h
        · exact .inl rfl
    · rename_i hc
      rw [hm]
      constructor
      · exact .inl
      · rintro (h | ⟨-, rfl, rfl⟩)
        · exact h
        · exact absurd ⟨rfl, rfl⟩ hc
  · split
    · exact hn.insert
    · exact hn

theorem Moved.sound (hs : s.Sound) {p : Nat} {r : Req} {s' : Mgr M β} (h : s.Moved p r s') : s'.Sound := by
  have hp : s'.watcherList p = some ((r.place M (s.getWatcher p)).judgeViewgrid (r.view M)).1 := by
    rw [h.watcherList, Function.update_self]
  have hq : ∀ q, q ≠ p → s'.watcherList q = s.watcherList q := by
    intro q hne
    rw [h.watcherList, Function.update_of_ne hne]
  refine ⟨fun q v hv => ?_, fun lv k q => ?_, h.nodup⟩
  · by_cases hqp : q = p
    · subst hqp
      rw [hp] at hv
      cases hv
      exact ⟨r.cx, r.cy, r.lv M, rfl, r.inRange, fun k => mem_judged⟩
    · exact hs.placed q v (by rw [← hq q hqp]; exact hv)
  · rw [h.watchers]
    unfold Stands
    by_cases hqp : q = p
    · subst hqp
      rw [hp]
      constructor
      · rintro (⟨-, hne⟩ | ⟨-, rfl, rfl⟩)
        · exact absurd rfl hne
        · exact ⟨r.cx, r.cy, ⟨_, rfl, rfl⟩, rfl⟩
      · rintro ⟨x, y, ⟨v, hv, hpos⟩, rfl⟩
        cases hv
        have hpos' : some (r.cx, r.cy, r.lv M) = some (x, y, lv) := hpos
        cases hpos'
        exact .inr ⟨rfl, rfl, rfl⟩
    · rw [hq q hqp, hs.reg]
      unfold Stands
      constructor
      · rintro (⟨h', -⟩ | ⟨h', -⟩)
        · exact h'
        · exact absurd h' hqp
      · intro h'
        exact .inl ⟨h', hqp⟩

theorem reqmapinfo_sound (hs : s.Sound) (p : Nat) (r : Req) : (s.reqmapinfo p r).1.Sound := by
  cases h : r.stays M (s.getWatcher p) with
  | true =>
    rw [(reqmapinfo_stays h).1]
    exact hs
  | false => exact (reqmapinfo_moved hs h).sound hs

/-! ## Objects leave the watchers alone -/

theorem onGrids_watchers (o : Nat) {f : Cell → Cell} (hf : ∀ c, (f c).watchers = c.watchers) (lv : M.Level) (k : Int) :
    ((s.onGrids o f).aoiList lv k).watchers = (s.aoiList lv k).watchers := by
  unfold onGrids
  dsimp only
  split
  · by_cases hk : k = M.gridOf lv o
    · subst hk
      rw [Function.update_self, hf]
    · rw [Function.update_of_ne hk]
  · rfl

/-! ## Whether a request is answered -/

theorem packMessageData_isSome (slv : Nat) (ispost : Option Bool) (data : Nat → Data β) : ∀ os : List Nat,
    (M.packMessageData slv ispost data os).isSome = true ↔
      (M.hasMapConf = true ∨ truthy ispost = true ∨ slv < 3) ∨ os = []
  | [] => by simp [Setup.packMessageData]
  | o :: os => by
    have ih := packMessageData_isSome slv ispost data os
    have hp : (M.packs slv ispost o (data o)).isSome = true ↔ M.hasMapConf = true ∨ truthy ispost = true ∨ slv < 3 := by
      unfold Setup.packs
      cases hpost : truthy ispost with
      | true => simp
      | false =>
        by_cases hslv : 3 ≤ slv
        · cases M.hasMapConf with
          | true => simp [hslv]
          | false => simp [hslv]
        · simp [hslv]
          omega
    rw [or_iff_left (List.cons_ne_nil o os), ← hp]
    unfold Setup.packMessageData
    cases hk : M.packs slv ispost o (data o) with
    | none => simp
    | some keep =>
      have : (M.packMessageData slv ispost data os).isSome = true := ih.2 (.inl (hp.1 (by rw [hk]; rfl)))
      obtain ⟨ret, hret⟩ := Option.isSome_iff_exists.1 this
      simp [hret]

theorem packGrids_isSome (lv : M.Level) (ispost : Option Bool) : ∀ ks : List Int,
    (s.packGrids lv ispost ks).isSome = true ↔ ∀ k ∈ ks,
      (M.packMessageData (M.conf lv).slv ispost s.data (s.aoiList lv k).objects).isSome = true
  | [] => by simp [packGrids]
  | k :: ks => by
    have ih := packGrids_isSome lv ispost ks
    rw [List.forall_mem_cons, ← ih]
    cases ho : M.packMessageData (M.conf lv).slv ispost s.data (s.aoiList lv k).objects with
    | none => simp [packGrids, ho]
    | some objs =>
      cases hr : s.packGrids lv ispost ks with
      | none => simp [packGrids, ho, hr]
      | some ret => simp [packGrids, ho, hr]

theorem packGrids_lookup {lv : M.Level} {ispost : Option Bool} : ∀ {ks : List Int} {ng : List (Int × List (Nat × Data β))},
    s.packGrids lv ispost ks = some ng → ∀ k, ng.lookup k =
      if k ∈ ks then M.packMessageData (M.conf lv).slv ispost s.data (s.aoiList lv k).objects else none
  | [], ng, h, k => by
    cases h
    rfl
  | k' :: ks, ng, h, k => by
    unfold packGrids at h
    cases ho : M.packMessageData (M.conf lv).slv ispost s.data (s.aoiList lv k').objects with
    | none => simp [ho] at h
    | some objs =>
      cases hr : s.packGrids lv ispost ks with
      | none => simp [ho, hr] at h
      | some ret =>
        have hng : ng = (k', objs) :: ret := by simpa [ho, hr] using h.symm
        subst hng
        rw [List.lookup_cons, packGrids_lookup hr k]
        by_cases hk : k = k'
        · subst hk
          simp [ho]
        · have hne : (k == k') = false := beq_eq_false_iff_ne.2 hk
          simp [hne, hk]

/-- **The condition for an answer**: the watcher need not move, or the command posts need not be told apart, or there is
nothing in the grids that are new in view. -/
def Answers (s : Mgr M β) (p : Nat) (r : Req) : Prop :=
  r.stays M (s.getWatcher p) = true ∨ (M.hasMapConf = true ∨ truthy (r.post M) = true ∨ (M.conf (r.lv M)).slv < 3) ∨
    ∀ k ∈ r.view M, k ∈ (r.place M (s.getWatcher p)).viewgrid ∨ (s.aoiList (r.lv M) k).objects = []

instance (s : Mgr M β) (p : Nat) (r : Req) : Decidable (s.Answers p r) :=
  inferInstanceAs (Decidable (_ = true ∨ (_ = true ∨ _ = true ∨ _ < 3) ∨
    ∀ k ∈ r.view M, k ∈ (r.place M (s.getWatcher p)).viewgrid ∨ (s.aoiList (r.lv M) k).objects = []))

theorem reqmapinfo_reply {p : Nat} {r : Req} (h : r.stays M (s.getWatcher p) = false) :
    (s.reqmapinfo p r).2 = ((s.reqmapinfo p r).1.packGrids (r.lv M) (r.post M)
        ((r.place M (s.getWatcher p)).judgeViewgrid (r.view M)).2.1).map (fun newgrids =>
      ⟨some (r.lv M), newgrids, ((r.place M (s.getWatcher p)).judgeViewgrid (r.view M)).2.2⟩) := by
  unfold reqmapinfo
  rw [if_neg (by rw [h]; decide)]

theorem reqmapinfo_isSome (hs : s.Sound) (p : Nat) (r : Req) : (s.reqmapinfo p r).2.isSome = true ↔ s.Answers p r := by
  unfold Answers
  cases h : r.stays M (s.getWatcher p) with
  | true => simp [(reqmapinfo_stays h).1]
  | false =>
    have hm := reqmapinfo_moved hs h
    simp only [reqmapinfo_reply h, Option.isSome_map, packGrids_isSome, packMessageData_isSome, hm.objects, mem_addgrids,
      Bool.false_eq_true, false_or]
    by_cases hc : M.hasMapConf = true ∨ truthy (r.post M) = true ∨ (M.conf (r.lv M)).slv < 3
    · simp [hc]
    · simp only [hc, false_or]
      constructor
      · intro hk k hv
        by_cases hp : k ∈ (r.place M (s.getWatcher p)).viewgrid
        · exact .inl hp
        · exact .inr (hk k ⟨hv, hp⟩)
      · rintro hk k ⟨hv, hp⟩
        exact (hk k hv).resolve_left hp

end Mgr

def Client.SameGrids (c c' : Client M β) : Prop := c'.lv = c.lv ∧ ∀ k, (c'.grids k).isSome = (c.grids k).isSome

theorem Client.SameGrids.refl (c : Client M β) : c.SameGrids c := ⟨rfl, fun _ => rfl⟩

theorem Client.put_sameGrids (c : Client M β) (k : Int) (o : Nat) (d : Option (Data β)) : c.SameGrids (c.put k o d) := by
  refine ⟨rfl, fun k' => ?_⟩
  unfold Client.put
  by_cases hk : k' = k
  · subst hk
    simp
  · simp [hk]

theorem Client.onMsg_sameGrids (c : Client M β) (m : Msg β) : c.SameGrids (c.onMsg m) := by
  cases m with
  | updatemapobject k o d => exact c.put_sameGrids k o (some d)
  | removemapobject k o => exact c.put_sameGrids k o none

namespace World

variable {w : World M β}

theorem deliver_sameGrids (sends : List (Send β)) (p : Nat) : (w.client p).SameGrids (w.deliver sends p) := by
  unfold deliver
  generalize sends.filter (fun m => m.uid == p && m.kid == some (M.home p)) = l
  generalize w.client p = c
  induction l generalizing c with
  | nil => exact .refl c
  | cons m l ih =>
    obtain ⟨h1, h2⟩ := c.onMsg_sameGrids m.msg
    obtain ⟨h3, h4⟩ := ih (c.onMsg m.msg)
    exact ⟨h3.trans h1, fun k => (h4 k).trans (h2 k)⟩

/-- What a step may do to what concerns one player, but for the player's own request. -/
structure Quiet (p : Nat) (w w' : World M β) : Prop where
  last : w'.last p = w.last p
  client : (w.client p).SameGrids (w'.client p)
  watcher : w'.mgr.watcherList p = w.mgr.watcherList p ∨ w'.mgr.watcherList p = none

theorem step_quiet (hs : w.mgr.Sound) (p : Nat) (e : Op β) : (∃ r, e = .reqmapinfo p r) ∨ Quiet p w (w.step e) := by
  cases e with
  | addObject o d => exact .inr ⟨rfl, deliver_sameGrids _ p, .inl rfl⟩
  | updateObject o d => exact .inr ⟨rfl, deliver_sameGrids _ p, .inl rfl⟩
  | removeObject o => exact .inr ⟨rfl, deliver_sameGrids _ p, .inl rfl⟩
  | reqmapinfo q r =>
    by_cases hq : p = q
    · subst hq
      exact .inl ⟨r, rfl⟩
    · refine .inr ⟨by simp [step, hq], ?_, .inl ?_⟩
      · have : (w.step (.reqmapinfo q r)).client p = w.client p := by simp [step, hq]
        rw [this]
        exact .refl _
      · show (w.mgr.reqmapinfo q r).1.watcherList p = w.mgr.watcherList p
        cases h : r.stays M (w.mgr.getWatcher q) with
        | true => rw [(Mgr.reqmapinfo_stays h).1]
        | false => rw [(Mgr.reqmapinfo_moved hs h).watcherList, Function.update_of_ne hq]
  | removeWatcher q =>
    refine .inr ⟨rfl, .refl _, ?_⟩
    show (w.mgr.removeWatcher q).watcherList p = _ ∨ (w.mgr.removeWatcher q).watcherList p = none
    unfold Mgr.removeWatcher
    have hset : ∀ t : Mgr M β, t.watcherList = w.mgr.watcherList →
        (t.setWatcher q none).watcherList p = w.mgr.watcherList p ∨ (t.setWatcher q none).watcherList p = none := by
      intro t ht
      by_cases hq : p = q
      · subst hq
        exact .inr (Function.update_self ..)
      · exact .inl (by simp [Mgr.setWatcher, hq, ht])
    split
    · exact hset _ rfl
    · split
      · exact .inl rfl
      · exact hset _ (Mgr.foldl_aoiRemoveWatcher_rest _ _ _ _ _).1

theorem step_sound (hs : w.mgr.Sound) (e : Op β) : (w.step e).mgr.Sound := by
  cases e with
  | addObject o d =>
    exact hs.congr rfl (Mgr.onGrids_watchers (s := w.mgr.setData o d) (f := (Cell.addObject · o)) o (fun _ => rfl))
  | updateObject o d => exact hs.congr rfl (fun _ _ => rfl)
  | removeObject o =>
    exact hs.congr rfl (Mgr.onGrids_watchers (s := w.mgr) (f := (Cell.removeObject · o)) o (fun _ => rfl))
  | reqmapinfo p r => exact Mgr.reqmapinfo_sound hs p r
  | removeWatcher p => exact Mgr.removeWatcher_sound hs p

theorem run_sound (data : Nat → Data β) (es : List (Op β)) : (run data es : World M β).mgr.Sound :=
  Steps.inv_of_run (I := fun w : World M β => w.mgr.Sound) (fun _ e hs => step_sound hs e) es _ (Mgr.start_sound data)

theorem getWatcher_of_some {s : Mgr M β} {p : Nat} {v : Watcher M} (h : s.watcherList p = some v) : s.getWatcher p = v := by
  simp [Mgr.getWatcher, h]

/-- The watcher is at the level and in the grid of the player's last request. -/
def Follows (p : Nat) (w : World M β) : Prop :=
  ∀ v, w.mgr.watcherList p = some v → ∃ r x y, w.last p = some r ∧ v.pos = some (x, y, r.lv M) ∧
    (M.board (r.lv M)).toGridXy x y = r.grid M

theorem stays_iff {v : Watcher M} {r : Req} : r.stays M v = true ↔ ∃ x y, v.pos = some (x, y, r.lv M) ∧
    truthy (r.post M) = false ∧ (M.board (r.lv M)).toGridXy x y = r.grid M := by
  unfold Req.stays
  cases v.pos with
  | none => simp
  | some q =>
    obtain ⟨x, y, lv⟩ := q
    simp only [Bool.and_eq_true, beq_iff_eq, Bool.not_eq_true', Option.some.injEq, Prod.mk.injEq]
    constructor
    · rintro ⟨⟨rfl, hp⟩, hg⟩
      exact ⟨x, y, ⟨rfl, rfl, rfl⟩, hp, hg⟩
    · rintro ⟨x', y', ⟨rfl, rfl, rfl⟩, hp, hg⟩
      exact ⟨⟨rfl, hp⟩, hg⟩

theorem step_follows (hs : w.mgr.Sound) {p : Nat} (h : Follows p w) (e : Op β) : Follows p (w.step e) := by
  intro v hv
  rcases step_quiet hs p e with ⟨r, rfl⟩ | hq
  · have hlast : (w.step (.reqmapinfo p r)).last p = some r := Function.update_self ..
    cases hst : r.stays M (w.mgr.getWatcher p) with
    | true =>
      have hv' : w.mgr.watcherList p = some v := by
        rw [show (w.step (.reqmapinfo p r)).mgr = (w.mgr.reqmapinfo p r).1 from rfl, (Mgr.reqmapinfo_stays hst).1] at hv
        exact hv
      rw [getWatcher_of_some hv'] at hst
      obtain ⟨x, y, hpos, -, hg⟩ := stays_iff.1 hst
      exact ⟨r, x, y, hlast, hpos, hg⟩
    | false =>
      rw [show (w.step (.reqmapinfo p r)).mgr = (w.mgr.reqmapinfo p r).1 from rfl,
        (Mgr.reqmapinfo_moved hs hst).watcherList,
        Function.update_self] at hv
      cases hv
      exact ⟨r, r.cx, r.cy, hlast, rfl, rfl⟩
  · rcases hq.watcher with hw | hw
    · rw [hw] at hv
      rw [hq.last]
      exact h v hv
    · rw [hw] at hv
      cases hv

/-- A request from the grid and level the watcher is at names the kingdom it has. -/
def KeepsKid (p : Nat) (w : World M β) : Op β → Prop
  | .reqmapinfo q r => q = p → r.stays M (w.mgr.getWatcher p) = true → (w.mgr.getWatcher p).kid = some r.kid
  | _ => True

instance (p : Nat) (w : World M β) : ∀ e : Op β, Decidable (KeepsKid p w e)
  | .reqmapinfo q r =>
    inferInstanceAs (Decidable (q = p → r.stays M (w.mgr.getWatcher p) = true → (w.mgr.getWatcher p).kid = some r.kid))
  | .addObject _ _ => isTrue trivial
  | .updateObject _ _ => isTrue trivial
  | .removeObject _ => isTrue trivial
  | .removeWatcher _ => isTrue trivial

def HasKid (p : Nat) (w : World M β) : Prop :=
  ∀ v r, w.mgr.watcherList p = some v → w.last p = some r → v.kid = some r.kid

theorem step_hasKid (hs : w.mgr.Sound) {p : Nat} (h : HasKid p w) {e : Op β} (he : KeepsKid p w e) :
    HasKid p (w.step e) := by
  intro v r' hv hr'
  rcases step_quiet hs p e with ⟨r, rfl⟩ | hq
  · have hlast : (w.step (.reqmapinfo p r)).last p = some r := Function.update_self ..
    obtain rfl : r' = r := Option.some.inj (hr'.symm.trans hlast)
    rw [show (w.step (.reqmapinfo p r')).mgr = (w.mgr.reqmapinfo p r').1 from rfl] at hv
    cases hst : r'.stays M (w.mgr.getWatcher p) with
    | true =>
      rw [(Mgr.reqmapinfo_stays hst).1] at hv
      rw [← getWatcher_of_some hv]
      exact he rfl hst
    | false =>
      rw [(Mgr.reqmapinfo_moved hs hst).watcherList, Function.update_self] at hv
      cases hv
      rfl
  · rw [hq.last] at hr'
    rcases hq.watcher with hw | hw
    · rw [hw] at hv
      exact h v r' hv hr'
    · rw [hw] at hv
      cases hv

/-- The request is answered; and if the player has no watcher, the grids its client has from that level are in view. -/
def Told (p : Nat) (w : World M β) : Op β → Prop
  | .reqmapinfo q r => q = p → w.mgr.Answers p r ∧ ((w.mgr.watcherList p).isNone = true →
      (w.client p).lv = some (r.lv M) → ∀ k, ((w.client p).grids k).isSome = true → k ∈ r.view M)
  | _ => True

/-- The client has the grids in view of the last request, and the watcher is one of a player who never changes kingdom
and never asks for command posts. -/
structure Shown (p kid : Nat) (w : World M β) : Prop where
  plain : ∀ v, w.mgr.watcherList p = some v → v.kid = some kid ∧ v.ispost = none
  client : ∀ r, w.last p = some r → (w.client p).lv = some (r.lv M) ∧
    ∀ k, ((w.client p).grids k).isSome = true ↔ k ∈ r.view M

theorem onReply_grids (c : Client M β) {s : Mgr M β} {lv : M.Level} {ispost : Option Bool} {ks del : List Int}
    {ng : List (Int × List (Nat × Data β))} (h : s.packGrids lv ispost ks = some ng) (k : Int) :
    ((c.onReply ⟨some lv, ng, del⟩).grids k).isSome = true ↔
      k ∈ ks ∨ (k ∉ del ∧ c.lv = some lv ∧ (c.grids k).isSome = true) := by
  have hsome : (s.packGrids lv ispost ks).isSome = true := by rw [h]; rfl
  have hpack := (Mgr.packGrids_isSome lv ispost ks).1 hsome
  unfold Client.onReply
  dsimp only
  rw [Mgr.packGrids_lookup h]
  by_cases hk : k ∈ ks
  · obtain ⟨objs, ho⟩ := Option.isSome_iff_exists.1 (hpack k hk)
    simp [hk, ho]
  · unfold Client.keep
    by_cases hd : k ∈ del
    · simp [hk, hd]
    · by_cases hlv : c.lv = some lv
      · simp [hk, hd, hlv]
      · simp [hk, hd, hlv]

theorem post_of_none {r : Req} (h : r.ispost = none) : r.post M = none := by
  unfold Req.post
  rw [h, ite_self]

theorem mem_viewgrid (hs : w.mgr.Sound) {p : Nat} (hf : Follows p w) {v : Watcher M} (hv : w.mgr.watcherList p = some v)
    {r : Req} (hr : w.last p = some r) : v.pos.map (fun q => q.2.2) = some (r.lv M) ∧ ∀ k, k ∈ v.viewgrid ↔
      k ∈ r.view M := by
  obtain ⟨r', x, y, hr', hpos, hg⟩ := hf v hv
  obtain rfl : r' = r := Option.some.inj (hr'.symm.trans hr)
  obtain ⟨x', y', lv', hpos', -, hview⟩ := hs.placed p v hv
  rw [hpos] at hpos'
  cases hpos'
  refine ⟨by rw [hpos]; rfl, fun k => ?_⟩
  rw [hview, (M.board _).walkGrids_congr hg]
  rfl

theorem view_of_stays {p : Nat} (hf : Follows p w) {v : Watcher M} (hv : w.mgr.watcherList p = some v)
    {r r' : Req} (hr : w.last p = some r) (hst : r'.stays M v = true) : r'.lv M = r.lv M ∧ r'.view M = r.view M := by
  obtain ⟨r₀, x, y, hr₀, hpos, hg⟩ := hf v hv
  obtain rfl : r₀ = r := Option.some.inj (hr₀.symm.trans hr)
  obtain ⟨x', y', hpos', -, hg'⟩ := stays_iff.1 hst
  rw [hpos] at hpos'
  obtain ⟨rfl, rfl, hlv⟩ : x = x' ∧ y = y' ∧ r₀.lv M = r'.lv M := by simpa using hpos'
  refine ⟨hlv.symm, ?_⟩
  have h1 : r'.view M = (M.board (r'.lv M)).walkGrids x y := ((M.board _).walkGrids_congr hg').symm
  have h2 : r₀.view M = (M.board (r₀.lv M)).walkGrids x y := ((M.board _).walkGrids_congr hg).symm
  rw [h1, h2, hlv]

theorem mem_place {v : Watcher M} {r : Req} {k : Int} : k ∈ (r.place M v).viewgrid ↔
    (v.pos.map (fun q => q.2.2) = some (r.lv M) ∧ v.kid = some r.kid ∧ v.ispost = r.post M) ∧ k ∈ v.viewgrid := by
  unfold Req.place Watcher.setPosition
  dsimp only
  split
  · rename_i h
    simp only [Bool.or_eq_true, bne_iff_ne] at h
    constructor
    · intro hk
      cases hk
    · rintro ⟨⟨h1, h2, h3⟩, -⟩
      exact (h.elim (fun h => h.elim (fun h => h h1) (fun h => h h2)) (fun h => h h3)).elim
  · rename_i h
    simp only [Bool.or_eq_true, bne_iff_ne, not_or, not_not] at h
    constructor
    · intro hk
      exact ⟨⟨h.1.1, h.1.2, h.2⟩, hk⟩
    · intro hk
      exact hk.2

theorem shown_of_moved (hs : w.mgr.Sound) {p kid : Nat} (hf : Follows p w) (h : Shown p kid w) {r : Req}
    (hkid : r.kid = kid) (hpost : r.post M = none) (ht : Told p w (.reqmapinfo p r))
    (hlast : ∀ v, w.mgr.watcherList p = some v → ∃ r₀, w.last p = some r₀) (k : Int) :
    (k ∈ ((r.place M (w.mgr.getWatcher p)).judgeViewgrid (r.view M)).2.1 ∨
      (k ∉ ((r.place M (w.mgr.getWatcher p)).judgeViewgrid (r.view M)).2.2 ∧ (w.client p).lv = some (r.lv M) ∧
        ((w.client p).grids k).isSome = true)) ↔ k ∈ r.view M := by
  rw [Mgr.mem_addgrids, Mgr.mem_delgrids, mem_place]
  cases hv : w.mgr.watcherList p with
  | none =>
    have hg : w.mgr.getWatcher p = {} := by simp [Mgr.getWatcher, hv]
    have hold := (ht rfl).2 (by rw [hv]; rfl)
    rw [hg]
    simp only [List.not_mem_nil, and_false, not_false_eq_true, and_true, false_and, true_and]
    constructor
    · rintro (hk | ⟨hlv, hk⟩)
      · exact hk
      · exact hold hlv k hk
    · exact .inl
  | some v =>
    rw [getWatcher_of_some hv]
    obtain ⟨r₀, hr₀⟩ := hlast v hv
    obtain ⟨hkid₀, hpost₀⟩ := h.plain v hv
    obtain ⟨hlv₀, hview₀⟩ := mem_viewgrid hs hf hv hr₀
    obtain ⟨hclv, hcl⟩ := h.client r₀ hr₀
    rw [hlv₀, hkid₀, hpost₀, hkid, hpost, hclv, hview₀, hcl]
    by_cases hlv : r₀.lv M = r.lv M
    · simp only [hlv, and_self, true_and]
      by_cases hk : k ∈ r₀.view M
      · simp [hk]
      · simp [hk]
    · simp [hlv]

theorem step_shown (hs : w.mgr.Sound) {p kid : Nat} (hf : Follows p w) (h : Shown p kid w) {e : Op β}
    (he : ∀ r, e = .reqmapinfo p r → r.kid = kid ∧ r.ispost = none) (ht : Told p w e) : Shown p kid (w.step e) := by
  rcases step_quiet hs p e with ⟨r, rfl⟩ | hq
  · obtain ⟨hkid, hpost⟩ := he r rfl
    have hlast : (w.step (.reqmapinfo p r)).last p = some r := Function.update_self ..
    have hmgr : (w.step (.reqmapinfo p r)).mgr = (w.mgr.reqmapinfo p r).1 := rfl
    have hcl : (w.step (.reqmapinfo p r)).client p =
        ((w.mgr.reqmapinfo p r).2.map (w.client p).onReply).getD (w.client p) := Function.update_self ..
    cases hst : r.stays M (w.mgr.getWatcher p) with
    | true =>
      obtain ⟨heq, v, hv⟩ := Mgr.reqmapinfo_stays hst
      rw [heq] at hmgr hcl
      have hmgr' : (w.step (.reqmapinfo p r)).mgr = w.mgr := hmgr
      have hcl' : (w.step (.reqmapinfo p r)).client p = w.client p := hcl
      rw [getWatcher_of_some hv] at hst
      obtain ⟨r₀, x, y, hr₀, -⟩ := hf v hv
      obtain ⟨hlv, hview⟩ := view_of_stays hf hv hr₀ hst
      refine ⟨fun u hu => h.plain u (hmgr' ▸ hu), fun r' hr' => ?_⟩
      obtain rfl : r = r' := Option.some.inj (hlast.symm.trans hr')
      rw [hcl', hlv, hview]
      exact h.client r₀ hr₀
    | false =>
      have hsome := (Mgr.reqmapinfo_isSome hs p r).2 (ht rfl).1
      obtain ⟨a, ha⟩ := Option.isSome_iff_exists.1 hsome
      have hreply := Mgr.reqmapinfo_reply hst
      rw [ha] at hreply hcl
      obtain ⟨ng, hng, rfl⟩ := Option.map_eq_some_iff.1 hreply.symm
      refine ⟨fun v hv => ?_, fun r' hr' => ?_⟩
      · rw [hmgr, (Mgr.reqmapinfo_moved hs hst).watcherList, Function.update_self] at hv
        cases hv
        exact ⟨congrArg some hkid, post_of_none hpost⟩
      · obtain rfl : r = r' := Option.some.inj (hlast.symm.trans hr')
        rw [hcl]
        refine ⟨rfl, fun k => ?_⟩
        rw [Option.map_some, Option.getD_some, onReply_grids _ hng]
        refine shown_of_moved hs hf h hkid (post_of_none hpost) ht (fun v hv => ?_) k
        obtain ⟨r₀, -, -, hr₀, -⟩ := hf v hv
        exact ⟨r₀, hr₀⟩
  · refine ⟨fun v hv => ?_, fun r hr => ?_⟩
    · rcases hq.watcher with hw | hw
      · rw [hw] at hv
        exact h.plain v hv
      · rw [hw] at hv
        cases hv
    · rw [hq.last] at hr
      obtain ⟨h1, h2⟩ := h.client r hr
      refine ⟨hq.client.1.trans h1, fun k => ?_⟩
      rw [hq.client.2]
      exact h2 k

theorem run_hasKid (data : Nat → Data β) {es : List (Op β)} {p : Nat}
    (h : Steps.Along step (KeepsKid p) (start data : World M β) es) : HasKid p (run data es : World M β) := by
  refine (Steps.Along.inv (I := fun w : World M β => w.mgr.Sound ∧ HasKid p w) ?_ es _ h ⟨Mgr.start_sound data, ?_⟩).2
  · intro w e he h
    exact ⟨step_sound h.1 e, step_hasKid h.1 h.2 he⟩
  · intro v r hv
    cases hv

/-- The requests of a player name one kingdom and leave `ispost` out. -/
def Plain (p kid : Nat) (es : List (Op β)) : Prop := ∀ r, Op.reqmapinfo p r ∈ es → r.kid = kid ∧ r.ispost = none

theorem shown_of_told {p kid : Nat} : ∀ (es : List (Op β)) (w : World M β), Plain p kid es →
    Steps.Along step (Told p) w es →
    w.mgr.Sound → Follows p w → Shown p kid w → Shown p kid (es.foldl step w)
  | [], _, _, _, _, _, h => h
  | e :: es, w, hp, ht, hs, hf, h =>
    shown_of_told es (w.step e) (fun r hr => hp r (.tail e hr)) ht.2 (step_sound hs e) (step_follows hs hf e)
      (step_shown hs hf h (fun r hr => hp r (hr ▸ .head es)) ht.1)

theorem run_shown (data : Nat → Data β) {es : List (Op β)} {p kid : Nat} (hp : Plain p kid es)
    (h : Steps.Along step (Told p) (start data : World M β) es) : Shown p kid (run data es : World M β) := by
  refine shown_of_told es _ hp h (Mgr.start_sound data) (fun v hv => ?_) ⟨fun v hv => ?_, fun r hr => ?_⟩
  · cases hv
  · cases hv
  · cases hr

def town : Setup := worldSetup (fun _ => ⟨9, 20, 1⟩) (fun _ => 1) (fun _ => by decide)

def ask (kid x radius : Nat) (h : 0 < x) : Op Unit := .reqmapinfo 7 ⟨kid, x, 1, radius, none, h, by decide⟩

def walk : List (Op Unit) :=
  [ask 1 1 30 (by decide), .addObject 3 ⟨true, ()⟩, ask 1 40 30 (by decide), ask 1 38 30 (by decide)]

end World
end MapAoi
end Sncpp
