import Sncpp.MapView
/-!
# MapMirror — the client's copy of the map

A snapshot of each grid new in view and a message to the watchers around an object keep every client's grids in view equal
to the server's (`Mirror`), as long as each request is answered and no object is updated that is not on the map.  The
grids that a message reaches are found from the object, those in view from the watcher: that the two agree is the symmetry
of the nine keys.
-/
namespace Sncpp
namespace MapAoi

variable {β : Type} {M : Setup}

theorem filter_flatMap_unique {α γ : Type} [DecidableEq α] {f : α → List γ} {P : γ → Bool} {a : α}
    (h : ∀ b, b ≠ a → (f b).filter P = []) : ∀ {l : List α}, l.Nodup →
      (l.flatMap f).filter P = if a ∈ l then (f a).filter P else []
  | [], _ => rfl
  | b :: l, hl => by
    obtain ⟨hb, hl'⟩ := List.nodup_cons.1 hl
    rw [List.flatMap_cons, List.filter_append, filter_flatMap_unique h hl']
    by_cases hba : b = a
    · subst hba
      simp [hb]
    · have hab : a ≠ b := fun h => hba h.symm
      simp [h b hba, hab]

theorem filter_eq_singleton {l : List Nat} (hl : l.Nodup) {p : Nat} (hp : p ∈ l) : l.filter (fun q => q == p) = [p] := by
  rw [List.filter_beq, List.count_eq_one_of_mem hl hp]
  rfl

namespace Mgr

variable {s : Mgr M β}

/-- The player sees the grid of the object, at a level that shows it. -/
def Sees (s : Mgr M β) (p o : Nat) (lv : M.Level) : Prop :=
  M.shows lv o = true ∧ ∃ x y, s.Stands p x y lv ∧ M.gridOf lv o ∈ (M.board lv).walkGrids x y

theorem isGrid_gridOf (lv : M.Level) (o : Nat) : (M.board lv).isGrid (M.gridOf lv o) = true :=
  (M.board lv).isGrid_getGridKey (M.inMap o).1 (M.inMap o).2.1 (M.inMap o).2.2.1 (M.inMap o).2.2.2

theorem push_filter_of_notMem {lv : M.Level} {o p : Nat} {msg : Msg β}
    (h : ∀ k ∈ (M.board lv).around (M.gridOf lv o), p ∉ (s.aoiList lv k).watchers) :
    (s.push lv o msg).filter (fun m => m.uid == p) = [] := by
  rw [List.filter_eq_nil_iff]
  unfold push getPosWatcherUids
  intro m hm
  simp only [List.mem_map, List.mem_flatMap] at hm
  obtain ⟨_, ⟨k, hk, q, hq, rfl⟩, rfl⟩ := hm
  rw [beq_iff_eq]
  rintro rfl
  exact h k hk hq

theorem push_filter (hs : s.Sound) {lv : M.Level} {o p x y : Nat} {msg : Msg β} (hst : s.Stands p x y lv)
    (hview : M.gridOf lv o ∈ (M.board lv).walkGrids x y) :
    (s.push lv o msg).filter (fun m => m.uid == p) = [⟨(s.getWatcher p).kid, p, msg⟩] := by
  have hg := (hs.inRange hst).isGrid lv
  have hmem : p ∈ (s.aoiList lv ((M.board lv).getGridKey x y)).watchers := (hs.reg lv _ p).2 ⟨x, y, hst, rfl⟩
  have hin : (M.board lv).getGridKey x y ∈ (M.board lv).around (M.gridOf lv o) :=
    ((M.board lv).mem_around_comm hg (isGrid_gridOf lv o)).1 hview
  have hother : ∀ k, k ≠ (M.board lv).getGridKey x y →
      (((s.aoiList lv k).watchers.map (fun q => ((s.getWatcher q).kid, q))).map
        (fun w => (⟨w.1, w.2, msg⟩ : Send β))).filter (fun m => m.uid == p) = [] := by
    intro k hk
    rw [List.filter_eq_nil_iff]
    intro m hm
    simp only [List.map_map, List.mem_map, Function.comp] at hm
    obtain ⟨q, hq, rfl⟩ := hm
    rw [beq_iff_eq]
    rintro rfl
    obtain ⟨x', y', hst', rfl⟩ := (hs.reg lv k q).1 hq
    obtain ⟨rfl, rfl, -⟩ := hst.unique hst'
    exact hk rfl
  have hn : ((M.board lv).walkGrids (M.site o).x (M.site o).y).Nodup := (M.board lv).around_nodup _
  have hin' : (M.board lv).getGridKey x y ∈ (M.board lv).walkGrids (M.site o).x (M.site o).y := hin
  unfold push getPosWatcherUids
  rw [List.map_flatMap, filter_flatMap_unique hother hn, if_pos hin', List.map_map, List.filter_map]
  have := filter_eq_singleton (hs.nodup lv _) hmem
  simp only [Function.comp_def]
  rw [this]
  rfl

theorem pushAll_filter (hs : s.Sound) {o p : Nat} {lv : M.Level} {msg : M.Level → Msg β} (h : s.Sees p o lv) :
    (s.pushAll o msg).filter (fun m => m.uid == p) = [⟨(s.getWatcher p).kid, p, msg lv⟩] := by
  obtain ⟨hshow, x, y, hst, hview⟩ := h
  have hother : ∀ lv', lv' ≠ lv → (if reaches M lv' o = true then s.push lv' o (msg lv') else []).filter
      (fun m => m.uid == p) = [] := by
    intro lv' hne
    split
    · refine push_filter_of_notMem (fun k _ hk => ?_)
      obtain ⟨x', y', hst', rfl⟩ := (hs.reg lv' k p).1 hk
      exact hne (hst'.unique hst).2.2
    · rfl
  unfold pushAll
  rw [filter_flatMap_unique hother (List.nodup_finRange _), if_pos (List.mem_finRange lv), if_pos]
  · exact push_filter hs hst hview
  · unfold reaches
    rw [hshow, isGrid_gridOf]
    rfl

theorem pushAll_filter_nil (hs : s.Sound) {o p : Nat} {msg : M.Level → Msg β} (h : ∀ lv, ¬ s.Sees p o lv) :
    (s.pushAll o msg).filter (fun m => m.uid == p) = [] := by
  unfold pushAll
  rw [List.filter_flatMap, List.flatMap_eq_nil_iff]
  intro lv _
  split
  · rename_i hr
    unfold reaches at hr
    rw [Bool.and_eq_true] at hr
    refine push_filter_of_notMem (fun k hk hp => h lv ⟨hr.1, ?_⟩)
    obtain ⟨x, y, hst, rfl⟩ := (hs.reg lv k p).1 hp
    exact ⟨x, y, hst, ((M.board lv).mem_around_comm ((hs.inRange hst).isGrid lv) hr.2).2 hk⟩
  · rfl

theorem packMessageData_eq (hpost : ∀ o, (M.site o).type ≠ commandpost) {slv : Nat} {ispost : Option Bool}
    {data : Nat → Data β} : ∀ {os : List Nat} {l : List (Nat × Data β)}, M.packMessageData slv ispost data os = some l →
      l = os.map (fun o => (o, data o))
  | [], l, h => by
    cases h
    rfl
  | o :: os, l, h => by
    have hkeep : ∀ keep, M.packs slv ispost o (data o) = some keep → keep = true := by
      intro keep hk
      unfold Setup.packs at hk
      have hne : ((M.site o).type == commandpost) = false := beq_eq_false_iff_ne.2 (hpost o)
      split at hk
      · split at hk
        · rw [hne] at hk
          cases hk
          rfl
        · cases hk
      · cases hk
        rfl
    cases hp : M.packs slv ispost o (data o) with
    | none => simp [Setup.packMessageData, hp] at h
    | some keep =>
      obtain rfl := hkeep keep hp
      cases hr : M.packMessageData slv ispost data os with
      | none => simp [Setup.packMessageData, hp, hr] at h
      | some ret =>
        have hl : l = (o, data o) :: ret := by simpa [Setup.packMessageData, hp, hr] using h.symm
        rw [hl, packMessageData_eq hpost hr]
        rfl

theorem lookup_map_self (data : Nat → Data β) (o : Nat) : ∀ os : List Nat,
    (os.map (fun o => (o, data o))).lookup o = if o ∈ os then some (data o) else none
  | [] => rfl
  | o' :: os => by
    rw [List.map_cons, List.lookup_cons, lookup_map_self data o os]
    by_cases h : o = o'
    · subst h
      simp
    · have hne : (o == o') = false := beq_eq_false_iff_ne.2 h
      simp [hne, h]

end Mgr

namespace World

variable {w w' : World M β}

/-- **What is on the map in a grid**: the objects of the types shown, with their latest data. -/
def content (w : World M β) (lv : M.Level) (k : Int) (o : Nat) : Option (Data β) :=
  if w.live o = true ∧ M.shows lv o = true ∧ k = M.gridOf lv o then some (w.mgr.data o) else none

/-- **Every client has what is on the map in each grid its player sees.** -/
structure Mirror (w : World M β) : Prop where
  sound : w.mgr.Sound
  objects : ∀ lv k o, o ∈ (w.mgr.aoiList lv k).objects ↔ w.live o = true ∧ M.shows lv o = true ∧ k = M.gridOf lv o
  kid : ∀ p v, w.mgr.watcherList p = some v → v.kid = some (M.home p)
  client : ∀ p x y lv, w.mgr.Stands p x y lv → (w.client p).lv = some lv ∧
    ∀ k ∈ (M.board lv).walkGrids x y, (w.client p).grids k = some (w.content lv k)

def Fair (w : World M β) : Op β → Prop
  | .updateObject o _ => w.live o = true
  | .reqmapinfo p r => w.mgr.Answers p r
  | _ => True

instance (w : World M β) : ∀ e : Op β, Decidable (Fair w e)
  | .updateObject o _ => inferInstanceAs (Decidable (w.live o = true))
  | .reqmapinfo p r => inferInstanceAs (Decidable (w.mgr.Answers p r))
  | .addObject _ _ => isTrue trivial
  | .removeObject _ => isTrue trivial
  | .removeWatcher _ => isTrue trivial

theorem deliver_eq (sends : List (Send β)) (p : Nat) : w.deliver sends p =
    ((sends.filter (fun m => m.uid == p)).filter (fun m => m.kid == some (M.home p))).foldl (fun c m => c.onMsg m.msg)
      (w.client p) := by
  unfold deliver
  rw [List.filter_filter]
  simp only [Bool.and_comm]

theorem deliver_of_sees (hw : w.Mirror) {s : Mgr M β} (hs : s.Sound) (hwl : s.watcherList = w.mgr.watcherList) {o p : Nat}
    {lv : M.Level} {msg : M.Level → Msg β} (h : s.Sees p o lv) :
    w.deliver (s.pushAll o msg) p = (w.client p).onMsg (msg lv) := by
  obtain ⟨-, x, y, ⟨v, hv, -⟩, -⟩ := id h
  have hkid : (s.getWatcher p).kid = some (M.home p) := by
    rw [getWatcher_of_some hv]
    exact hw.kid p v (by rw [← hwl]; exact hv)
  rw [deliver_eq, Mgr.pushAll_filter hs h, hkid]
  simp

theorem deliver_of_not_sees {s : Mgr M β} (hs : s.Sound) {o p : Nat} {msg : M.Level → Msg β} (h : ∀ lv, ¬ s.Sees p o lv) :
    w.deliver (s.pushAll o msg) p = w.client p := by
  rw [deliver_eq, Mgr.pushAll_filter_nil hs h]
  rfl

/-- **A change of one object, told to those who see it.**  Each message sets the object to what it is from now on. -/
theorem Mirror.object (hw : w.Mirror) {o : Nat} {msg : M.Level → Msg β} {d : Option (Data β)} {s : Mgr M β}
    (hs : s.Sound) (hwl : s.watcherList = w.mgr.watcherList) (hw' : w' = ⟨s, w.deliver (s.pushAll o msg), w.last, w'.live⟩)
    (hmsg : ∀ lv (c : Client M β), c.onMsg (msg lv) = c.put (M.gridOf lv o) o d)
    (hobj : ∀ lv k q, q ∈ (s.aoiList lv k).objects ↔ w'.live q = true ∧ M.shows lv q = true ∧ k = M.gridOf lv q)
    (hd : d = if w'.live o = true then some (s.data o) else none)
    (hrest : ∀ q, q ≠ o → w'.live q = w.live q ∧ s.data q = w.mgr.data q) : w'.Mirror := by
  have hmgr : w'.mgr = s := by rw [hw']
  have hclient : w'.client = w.deliver (s.pushAll o msg) := by rw [hw']
  have hsame : ∀ lv k q, q ≠ o → w'.content lv k q = w.content lv k q := by
    intro lv k q hq
    unfold content
    rw [hmgr, (hrest q hq).1, (hrest q hq).2]
  have hother : ∀ lv k, (M.shows lv o = true → k ≠ M.gridOf lv o) → w'.content lv k = w.content lv k := by
    intro lv k hk
    funext q
    by_cases hq : q = o
    · subst hq
      unfold content
      rw [if_neg (fun h => hk h.2.1 h.2.2), if_neg (fun h => hk h.2.1 h.2.2)]
    · exact hsame lv k q hq
  have hthis : ∀ lv, M.shows lv o = true → w'.content lv (M.gridOf lv o) =
    Function.update (w.content lv (M.gridOf lv o)) o d := by
    intro lv hsh
    funext q
    by_cases hq : q = o
    · subst hq
      rw [Function.update_self, hd]
      unfold content
      rw [hmgr]
      simp [hsh]
    · rw [Function.update_of_ne hq, hsame lv _ q hq]
  refine ⟨hmgr ▸ hs, hmgr ▸ hobj, fun p v hv => hw.kid p v (by rw [← hwl, ← hmgr]; exact hv), fun p x y lv hst => ?_⟩
  have hst' : s.Stands p x y lv := hmgr ▸ hst
  have hst₀ : w.mgr.Stands p x y lv := by
    obtain ⟨v, hv, hp⟩ := hst'
    exact ⟨v, hwl ▸ hv, hp⟩
  obtain ⟨hlv, hgrids⟩ := hw.client p x y lv hst₀
  rw [hclient]
  by_cases hsee : s.Sees p o lv
  · rw [deliver_of_sees hw hs hwl hsee, hmsg]
    refine ⟨hlv, fun k hk => ?_⟩
    unfold Client.put
    dsimp only
    by_cases hko : k = M.gridOf lv o
    · subst hko
      rw [Function.update_self, hgrids _ hk, hthis lv hsee.1]
      rfl
    · rw [Function.update_of_ne hko, hgrids k hk, hother lv k (fun _ => hko)]
  · have hnone : ∀ lv', ¬ s.Sees p o lv' := by
      rintro lv' ⟨hsh, x', y', hst'', hv⟩
      obtain ⟨rfl, rfl, rfl⟩ := hst''.unique hst'
      exact hsee ⟨hsh, x', y', hst'', hv⟩
    rw [deliver_of_not_sees hs hnone]
    refine ⟨hlv, fun k hk => ?_⟩
    rw [hgrids k hk, hother lv k]
    rintro hsh rfl
    exact hsee ⟨hsh, x, y, hst', hk⟩

theorem onGrids_cell (s : Mgr M β) (o : Nat) (f : Cell → Cell) (lv : M.Level) (k : Int) : (s.onGrids o f).aoiList lv k =
    if M.shows lv o = true ∧ k = M.gridOf lv o then f (s.aoiList lv k) else s.aoiList lv k := by
  have hr : Mgr.reaches M lv o = M.shows lv o := by
    unfold Mgr.reaches
    rw [Mgr.isGrid_gridOf, Bool.and_true]
  unfold Mgr.onGrids
  dsimp only
  rw [hr]
  by_cases hsh : M.shows lv o = true
  · by_cases hk : k = M.gridOf lv o
    · subst hk
      simp [hsh]
    · simp [hsh, hk]
  · simp [hsh]

theorem mem_onGrids (hw : w.Mirror) {s : Mgr M β} (hs : s.aoiList = w.mgr.aoiList) {o : Nat} {b : Bool} {f : Cell → Cell}
    (hself : ∀ c, o ∈ (f c).objects ↔ b = true) (hother : ∀ c q, q ≠ o → (q ∈ (f c).objects ↔ q ∈ c.objects))
    (lv : M.Level) (k : Int) (q : Nat) : q ∈ ((s.onGrids o f).aoiList lv k).objects ↔
      Function.update w.live o b q = true ∧ M.shows lv q = true ∧ k = M.gridOf lv q := by
  have hold := hw.objects lv k q
  rw [onGrids_cell, hs]
  by_cases hq : q = o
  · subst hq
    rw [Function.update_self]
    by_cases hc : M.shows lv q = true ∧ k = M.gridOf lv q
    · rw [if_pos hc, hself, and_iff_left hc]
    · rw [if_neg hc, hold]
      simp [hc]
  · rw [Function.update_of_ne hq, ← hold]
    split
    · exact hother _ q hq
    · rfl

theorem step_addObject (hw : w.Mirror) (o : Nat) (d : Data β) : (w.step (.addObject o d)).Mirror := by
  refine hw.object (s := (w.mgr.addObject o d).1) (d := some d) (step_sound hw.sound (.addObject o d)) rfl rfl
    (fun _ _ => rfl) (mem_onGrids (s := w.mgr.setData o d) (o := o) (b := true) (f := (Cell.addObject · o)) hw rfl (fun c => ?_)
      (fun c q hq => ?_)) ?_ (fun q hq => ⟨?_, ?_⟩)
  · simp [Cell.addObject]
  · simp [Cell.addObject, hq]
  · simp [step, Mgr.addObject, Mgr.setData, Mgr.onGrids]
  · simp [step, hq]
  · simp [Mgr.addObject, Mgr.setData, Mgr.onGrids, hq]

theorem step_removeObject (hw : w.Mirror) (o : Nat) : (w.step (.removeObject o)).Mirror := by
  refine hw.object (s := (w.mgr.removeObject o).1) (d := none) (step_sound hw.sound (.removeObject o)) rfl rfl
    (fun _ _ => rfl) (mem_onGrids (s := w.mgr) (o := o) (b := false) (f := (Cell.removeObject · o)) hw rfl (fun c => ?_) (fun c q hq => ?_)) ?_
    (fun q hq => ⟨?_, rfl⟩)
  · simp [Cell.removeObject]
  · simp [Cell.removeObject, hq]
  · simp [step]
  · simp [step, hq]

theorem step_updateObject (hpost : ∀ o, (M.site o).type ≠ commandpost) (hw : w.Mirror) {o : Nat} (d : Data β)
    (hlive : w.live o = true) : (w.step (.updateObject o d)).Mirror := by
  refine hw.object (s := (w.mgr.updateObject o d).1) (d := some d) (step_sound hw.sound (.updateObject o d)) rfl rfl
    (fun lv c => ?_) hw.objects ?_ (fun q hq => ⟨rfl, ?_⟩)
  · have hne : ((M.site o).type == commandpost) = false := beq_eq_false_iff_ne.2 (hpost o)
    unfold Mgr.updateMsg
    rw [hne]
    rfl
  · simp [step, Mgr.updateObject, Mgr.setData, hlive]
  · simp [Mgr.updateObject, Mgr.setData, hq]

theorem onReply_content (hpost : ∀ o, (M.site o).type ≠ commandpost) (hw : w.Mirror) {s : Mgr M β} {lv : M.Level}
    {ispost : Option Bool} {ks del : List Int} {ng : List (Int × List (Nat × Data β))}
    (hobj : ∀ k, (s.aoiList lv k).objects = (w.mgr.aoiList lv k).objects) (hdata : s.data = w.mgr.data)
    (h : s.packGrids lv ispost ks = some ng) (c : Client M β) (k : Int) :
    (c.onReply ⟨some lv, ng, del⟩).grids k =
      if k ∈ ks then some (w.content lv k) else if del.contains k = true then none else c.keep lv k := by
  have hsome : (s.packGrids lv ispost ks).isSome = true := by rw [h]; rfl
  have hpack := (Mgr.packGrids_isSome lv ispost ks).1 hsome
  unfold Client.onReply
  dsimp only
  rw [Mgr.packGrids_lookup h]
  by_cases hk : k ∈ ks
  · obtain ⟨objs, ho⟩ := Option.isSome_iff_exists.1 (hpack k hk)
    rw [if_pos hk, if_pos hk, ho]
    dsimp only
    rw [Mgr.packMessageData_eq hpost ho]
    refine congrArg some (funext fun o => ?_)
    rw [Mgr.lookup_map_self, hobj, hdata]
    unfold content
    simp only [hw.objects]
  · rw [if_neg hk, if_neg hk]

theorem step_req_client (hpost : ∀ o, (M.site o).type ≠ commandpost) (hw : w.Mirror) {p : Nat} {r : Req}
    (hans : w.mgr.Answers p r) (hst : r.stays M (w.mgr.getWatcher p) = false) :
    ((w.step (.reqmapinfo p r)).client p).lv = some (r.lv M) ∧
      ∀ k ∈ r.view M, ((w.step (.reqmapinfo p r)).client p).grids k = some (w.content (r.lv M) k) := by
  have hm := Mgr.reqmapinfo_moved hw.sound hst
  obtain ⟨a, ha⟩ := Option.isSome_iff_exists.1 ((Mgr.reqmapinfo_isSome hw.sound p r).2 hans)
  have hcl : (w.step (.reqmapinfo p r)).client p =
      ((w.mgr.reqmapinfo p r).2.map (w.client p).onReply).getD (w.client p) := Function.update_self ..
  have hreply := Mgr.reqmapinfo_reply hst
  rw [ha] at hreply hcl
  obtain ⟨ng, hng, rfl⟩ := Option.map_eq_some_iff.1 hreply.symm
  rw [hcl]
  refine ⟨rfl, fun k hk => ?_⟩
  rw [Option.map_some, Option.getD_some, onReply_content hpost hw (hm.objects _) hm.data hng]
  by_cases hadd : k ∈ ((r.place M (w.mgr.getWatcher p)).judgeViewgrid (r.view M)).2.1
  · rw [if_pos hadd]
  · -- a grid that is not new was in view before, at this level
    rw [if_neg hadd]
    have hold : k ∈ (r.place M (w.mgr.getWatcher p)).viewgrid := by
      by_contra hn
      exact hadd (Mgr.mem_addgrids.2 ⟨hk, hn⟩)
    have hdel : k ∉ ((r.place M (w.mgr.getWatcher p)).judgeViewgrid (r.view M)).2.2 :=
      fun h => (Mgr.mem_delgrids.1 h).2 hk
    obtain ⟨⟨hlv, -, -⟩, hk'⟩ := mem_place.1 hold
    cases hv : w.mgr.watcherList p with
    | none => simp [Mgr.getWatcher, hv] at hk'
    | some v =>
      rw [getWatcher_of_some hv] at hk' hlv
      obtain ⟨x, y, lv, hpos, -, hview⟩ := hw.sound.placed p v hv
      rw [hpos] at hlv
      obtain rfl : lv = r.lv M := Option.some.inj hlv
      obtain ⟨hclv, hgrids⟩ := hw.client p x y (r.lv M) ⟨v, hv, hpos⟩
      have hd : (((r.place M (w.mgr.getWatcher p)).judgeViewgrid (r.view M)).2.2).contains k = false := by
        rw [List.contains_eq_mem, decide_eq_false_iff_not]
        exact hdel
      rw [hd]
      unfold Client.keep
      simp only [Bool.false_eq_true, if_false, hclv, beq_self_eq_true, if_true]
      exact hgrids k ((hview k).1 hk')

theorem step_reqmapinfo (hpost : ∀ o, (M.site o).type ≠ commandpost) (hw : w.Mirror) {p : Nat} {r : Req}
    (hkid : r.kid = M.home p) (hans : w.mgr.Answers p r) : (w.step (.reqmapinfo p r)).Mirror := by
  have hmgr : (w.step (.reqmapinfo p r)).mgr = (w.mgr.reqmapinfo p r).1 := rfl
  cases hst : r.stays M (w.mgr.getWatcher p) with
  | true =>
    have heq := (Mgr.reqmapinfo_stays hst).1
    rw [heq] at hmgr
    have hmgr' : (w.step (.reqmapinfo p r)).mgr = w.mgr := hmgr
    have hcl : (w.step (.reqmapinfo p r)).client = w.client := by
      show Function.update w.client p (((w.mgr.reqmapinfo p r).2.map (w.client p).onReply).getD (w.client p)) = w.client
      rw [heq]
      exact Function.update_eq_self ..
    refine ⟨hmgr' ▸ hw.sound, hmgr' ▸ hw.objects, hmgr' ▸ hw.kid, fun q x y lv hq => ?_⟩
    unfold content
    rw [hmgr', hcl]
    exact hw.client q x y lv (hmgr' ▸ hq)
  | false =>
    have hm := Mgr.reqmapinfo_moved hw.sound hst
    have hcontent : ∀ lv k, (w.step (.reqmapinfo p r)).content lv k = w.content lv k := by
      intro lv k
      funext o
      unfold content
      rw [hmgr, hm.data]
      rfl
    refine ⟨step_sound hw.sound _, fun lv k o => ?_, fun q v hv => ?_, fun q x y lv hq => ?_⟩
    · rw [hmgr, hm.objects]
      exact hw.objects lv k o
    · rw [hmgr, hm.watcherList] at hv
      by_cases hqp : q = p
      · subst hqp
        rw [Function.update_self] at hv
        cases hv
        exact congrArg some hkid
      · rw [Function.update_of_ne hqp] at hv
        exact hw.kid q v hv
    · obtain ⟨v, hv, hpos⟩ := hq
      rw [hmgr, hm.watcherList] at hv
      by_cases hqp : q = p
      · subst hqp
        rw [Function.update_self] at hv
        cases hv
        have hpos' : some (r.cx, r.cy, r.lv M) = some (x, y, lv) := hpos
        cases hpos'
        obtain ⟨hlv, hgrids⟩ := step_req_client hpost hw hans hst
        refine ⟨hlv, fun k hk => ?_⟩
        rw [hcontent]
        exact hgrids k hk
      · rw [Function.update_of_ne hqp] at hv
        obtain ⟨hlv, hgrids⟩ := hw.client q x y lv ⟨v, hv, hpos⟩
        have hcl : (w.step (.reqmapinfo p r)).client q = w.client q := Function.update_of_ne hqp ..
        rw [hcl]
        refine ⟨hlv, fun k hk => ?_⟩
        rw [hcontent]
        exact hgrids k hk

theorem removeWatcher_rest (s : Mgr M β) (hs : s.Sound) (p : Nat) : (s.removeWatcher p).data = s.data ∧
    (∀ lv k, ((s.removeWatcher p).aoiList lv k).objects = (s.aoiList lv k).objects) ∧
    ∀ q v, (s.removeWatcher p).watcherList q = some v → s.watcherList q = some v := by
  have hset : ∀ (t : Mgr M β) q v, (t.setWatcher p none).watcherList q = some v → t.watcherList q = some v := by
    intro t q v h
    by_cases hq : q = p
    · subst hq
      simp [Mgr.setWatcher] at h
    · simpa [Mgr.setWatcher, hq] using h
  unfold Mgr.removeWatcher
  cases hv : s.watcherList p with
  | none => exact ⟨rfl, fun _ _ => rfl, hset s⟩
  | some v =>
    obtain ⟨x, y, lv₀, hpos, hr, -⟩ := hs.placed p v hv
    simp only [hpos]
    obtain ⟨hwl, hd⟩ := Mgr.foldl_aoiRemoveWatcher_rest p x y (List.finRange M.confs.length) s
    refine ⟨hd, fun lv k => ?_, fun q u hu => hwl ▸ hset _ q u hu⟩
    show (((List.finRange M.confs.length).foldl (fun s lv => s.aoiRemoveWatcher lv p x y) s).aoiList lv k).objects = _
    rw [Mgr.foldl_aoiRemoveWatcher hr]
    split
    · rfl
    · rfl

theorem step_removeWatcher (hw : w.Mirror) (p : Nat) : (w.step (.removeWatcher p)).Mirror := by
  obtain ⟨hd, ho, hwl⟩ := removeWatcher_rest w.mgr hw.sound p
  have hmgr : (w.step (.removeWatcher p)).mgr = w.mgr.removeWatcher p := rfl
  refine ⟨step_sound hw.sound _, fun lv k o => ?_, fun q v hv => hw.kid q v (hwl q v hv), fun q x y lv hq => ?_⟩
  · rw [hmgr, ho]
    exact hw.objects lv k o
  · obtain ⟨v, hv, hpos⟩ := hq
    obtain ⟨hlv, hgrids⟩ := hw.client q x y lv ⟨v, hwl q v hv, hpos⟩
    refine ⟨hlv, fun k hk => ?_⟩
    have hcontent : (w.step (.removeWatcher p)).content lv k = w.content lv k := by
      funext o
      unfold content
      rw [hmgr, hd]
      rfl
    rw [hcontent]
    exact hgrids k hk

def Homely (M : Setup) (es : List (Op β)) : Prop := ∀ p r, Op.reqmapinfo p r ∈ es → r.kid = M.home p

theorem step_mirror (hpost : ∀ o, (M.site o).type ≠ commandpost) (hw : w.Mirror) {e : Op β} (hfair : Fair w e)
    (hkid : ∀ p r, e = .reqmapinfo p r → r.kid = M.home p) : (w.step e).Mirror := by
  cases e with
  | addObject o d => exact step_addObject hw o d
  | updateObject o d => exact step_updateObject hpost hw d hfair
  | removeObject o => exact step_removeObject hw o
  | reqmapinfo p r => exact step_reqmapinfo hpost hw (hkid p r rfl) hfair
  | removeWatcher p => exact step_removeWatcher hw p

theorem mirror_of_fair (hpost : ∀ o, (M.site o).type ≠ commandpost) : ∀ (es : List (Op β)) (w : World M β),
    Homely M es → Steps.Along step Fair w es → w.Mirror → (es.foldl step w).Mirror
  | [], _, _, _, hw => hw
  | e :: es, w, hkid, hfair, hw =>
    mirror_of_fair hpost es (w.step e) (fun p r hr => hkid p r (.tail e hr)) hfair.2
      (step_mirror hpost hw hfair.1 (fun p r hr => hkid p r (hr ▸ .head es)))

theorem start_mirror (data : Nat → Data β) : (start data : World M β).Mirror := by
  refine ⟨Mgr.start_sound data, fun lv k o => ?_, fun p v hv => ?_, fun p x y lv h => ?_⟩
  · simp [start, Mgr.start]
  · cases hv
  · obtain ⟨v, hv, -⟩ := h
    cases hv

def news (M : Setup) : Op β → Option (Nat × (M.Level → Msg β))
  | .addObject o d => some (o, fun lv => .updatemapobject (M.gridOf lv o) o d)
  | .updateObject o d => some (o, fun lv => .updatemapobject (M.gridOf lv o) o d)
  | .removeObject o => some (o, fun lv => .removemapobject (M.gridOf lv o) o)
  | .reqmapinfo _ _ => none
  | .removeWatcher _ => none

def sends (w : World M β) : Op β → List (Send β)
  | .addObject o d => (w.mgr.addObject o d).2
  | .updateObject o d => (w.mgr.updateObject o d).2
  | .removeObject o => (w.mgr.removeObject o).2
  | .reqmapinfo _ _ => []
  | .removeWatcher _ => []

theorem sends_eq (hpost : ∀ o, (M.site o).type ≠ commandpost) (hs : w.mgr.Sound) {e : Op β} {o : Nat}
    {msg : M.Level → Msg β} (h : news M e = some (o, msg)) :
    ∃ s : Mgr M β, s.Sound ∧ s.watcherList = w.mgr.watcherList ∧ w.sends e = s.pushAll o msg := by
  cases e with
  | addObject o' d =>
    cases h
    exact ⟨_, step_sound hs (.addObject o d), rfl, rfl⟩
  | updateObject o' d =>
    cases h
    refine ⟨_, step_sound hs (.updateObject o d), rfl, ?_⟩
    have hne : ((M.site o).type == commandpost) = false := beq_eq_false_iff_ne.2 (hpost o)
    have hmsg : Mgr.updateMsg M o d = fun lv => .updatemapobject (M.gridOf lv o) o d := by
      funext lv
      unfold Mgr.updateMsg
      rw [hne]
      rfl
    show (w.mgr.setData o d).pushAll o (Mgr.updateMsg M o d) = _
    rw [hmsg]
    rfl
  | removeObject o' =>
    cases h
    exact ⟨_, step_sound hs (.removeObject o), rfl, rfl⟩
  | reqmapinfo p r => cases h
  | removeWatcher p => cases h

end World
end MapAoi
end Sncpp
