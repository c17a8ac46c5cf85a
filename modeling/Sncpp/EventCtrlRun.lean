import Sncpp.EventCtrl
/-!
# EventCtrlRun — every dispatch reaches its handlers (`eventCtrl.lua`)

What holds between two events of a run: the tables that `dispatchs` leads to are all different, each handler stands in the
table of its event and object, and a dispatch that is under way finds in its table what it found there at first, less what
has been unregistered.
-/
namespace Sncpp
namespace EventCtrl

variable {ε ο φ β δ : Type} [DecidableEq ε] [DecidableEq ο]

/-- A dispatch, as long as nothing is added to its table: what it found is there or has been unregistered. -/
structure FrameGood (w : World ε ο φ β δ) (f : Frame ε ο φ β δ) : Prop where
  tab : f.tab < w.fresh
  old : ∀ k v, f.start.lookup k = some v → v.h = k ∧ k ≤ w.h ∧ v.eventId = f.eventId ∧ v.objId = f.objId
  once : (f.called.map Handler.h).Nodup
  called : ∀ v ∈ f.called, f.start.lookup v.h = some v
  made : f.made = f.called.map (fun v => v.invoke f.event)
  spoilt : f.spoilt = false
  here : f.running = true → ∀ k v, f.start.lookup k = some v → (w.tabs f.tab).lookup k = some v ∨ w.handlers k = none
  found : f.running = true → ∀ k v, (w.tabs f.tab).lookup k = some v → f.start.lookup k = some v
  ended : f.running = false → ∀ k v, f.start.lookup k = some v → v ∈ f.called ∨ w.handlers k = none

structure Good (w : World ε ο φ β δ) : Prop where
  bound : ∀ e o t, w.table e o = some t → t < w.fresh
  inj : ∀ e o e' o' t, w.table e o = some t → w.table e' o' = some t → e = e' ∧ o = o'
  entry : ∀ e o t k v, w.table e o = some t → (w.tabs t).lookup k = some v →
    v.eventId = e ∧ v.objId = o ∧ w.handlers k = some v
  found : ∀ k v, w.handlers k = some v → v.h = k ∧ k ≤ w.h ∧
    ∃ t, w.table v.eventId v.objId = some t ∧ (w.tabs t).lookup k = some v
  raised : w.raised = false
  frame : ∀ f ∈ w.frames, FrameGood w f

variable {w w' : World ε ο φ β δ} {e : ε} {o : Option ο} {t k : Nat} {v : Handler ε ο φ β δ} {f : Frame ε ο φ β δ}

omit [DecidableEq ε] in
theorem Good.sound (h : Good w) : w.Sound where
  same k v := by
    constructor
    · intro hv
      obtain ⟨-, -, t, ht, hk⟩ := h.found k v hv
      exact ⟨_, _, t, ht, hk⟩
    · rintro ⟨e, o, t, ht, hk⟩
      exact (h.entry e o t k v ht hk).2.2
  raised := h.raised
  once f hf := (h.frame f hf).once
  own f hf v hv := by
    have hstart := (h.frame f hf).called v hv
    exact ⟨hstart, ((h.frame f hf).old _ v hstart).2.2⟩
  made f hf := (h.frame f hf).made

omit [DecidableEq ε] in
theorem good_start : Good (World.start : World ε ο φ β δ) where
  bound e o t ht := by cases o <;> cases ht
  inj e o e' o' t ht := by cases o <;> cases ht
  entry e o t k v ht := by cases o <;> cases ht
  found k v hv := by cases hv
  raised := rfl
  frame f hf := by cases hf

omit [DecidableEq ε] [DecidableEq ο] in
theorem FrameGood.alloc (h : FrameGood w f) (htabs : w'.tabs = Function.update w.tabs w.fresh ∅)
    (hfresh : w.fresh < w'.fresh)
    (hh : w.h ≤ w'.h) (hhandlers : w'.handlers = w.handlers) : FrameGood w' f := by
  have htab : w'.tabs f.tab = w.tabs f.tab := by rw [htabs, Function.update_of_ne h.tab.ne]
  refine ⟨h.tab.trans hfresh, fun k v hk => ?_, h.once, h.called, h.made, h.spoilt, fun hrun k v hk => ?_,
    fun hrun k v hk => ?_,
    fun hrun k v hk => ?_⟩
  · obtain ⟨hv, hle, hrest⟩ := h.old k v hk
    exact ⟨hv, hle.trans hh, hrest⟩
  · rw [htab, hhandlers]
    exact h.here hrun k v hk
  · rw [htab] at hk
    exact h.found hrun k v hk
  · rw [hhandlers]
    exact h.ended hrun k v hk

theorem Good.alloc (h : Good w) (hnone : w.table e o = none)
    (htable : ∀ e' o', w'.table e' o' = if e' = e ∧ o' = o then some w.fresh else w.table e' o')
    (htabs : w'.tabs = Function.update w.tabs w.fresh ∅) (hfresh : w'.fresh = w.fresh + 1) (hh : w.h ≤ w'.h)
    (hhandlers : w'.handlers = w.handlers) (hframes : w'.frames = w.frames) (hraised : w'.raised = w.raised) : Good w' := by
  have hold : ∀ t, t < w.fresh → w'.tabs t = w.tabs t := fun t ht => by rw [htabs, Function.update_of_ne ht.ne]
  have hcases : ∀ e' o' t, w'.table e' o' = some t → (e' = e ∧ o' = o ∧ t = w.fresh) ∨ w.table e' o' = some t := by
    intro e' o' t ht
    rw [htable] at ht
    split_ifs at ht with heq
    · exact .inl ⟨heq.1, heq.2, (Option.some.inj ht).symm⟩
    · exact .inr ht
  refine ⟨fun e' o' t ht => ?_, fun e₁ o₁ e₂ o₂ t h₁ h₂ => ?_, fun e' o' t k v ht hk => ?_, fun k v hv => ?_, ?_,
    fun f hf => ?_⟩
  · rcases hcases e' o' t ht with ⟨-, -, rfl⟩ | ht
    · omega
    · have := h.bound e' o' t ht
      omega
  · rcases hcases e₁ o₁ t h₁ with ⟨rfl, rfl, rfl⟩ | h₁ <;> rcases hcases e₂ o₂ _ h₂ with ⟨rfl, rfl, heq⟩ | h₂
    · exact ⟨rfl, rfl⟩
    · exact absurd (h.bound _ _ _ h₂) (lt_irrefl _)
    · exact absurd (h.bound _ _ _ h₁) (heq ▸ lt_irrefl _)
    · exact h.inj _ _ _ _ t h₁ h₂
  · rcases hcases e' o' t ht with ⟨-, -, rfl⟩ | ht
    · rw [htabs, Function.update_self] at hk
      cases hk
    · rw [hold t (h.bound e' o' t ht)] at hk
      rw [hhandlers]
      exact h.entry e' o' t k v ht hk
  · rw [hhandlers] at hv
    obtain ⟨hkey, hle, t, ht, hk⟩ := h.found k v hv
    refine ⟨hkey, hle.trans hh, t, ?_, by rw [hold t (h.bound _ _ t ht)]; exact hk⟩
    rw [htable, if_neg]
    · exact ht
    · rintro ⟨rfl, rfl⟩
      rw [hnone] at ht
      cases ht
  · rw [hraised]
    exact h.raised
  · rw [hframes] at hf
    exact (h.frame f hf).alloc htabs (by omega) hh hhandlers

theorem table_setDispatch (w : World ε ο φ β δ) (e e' : ε) (d : Option (Dispatch ο)) (o : Option ο) :
    (w.setDispatch e d).table e' o = if e' = e then ({ w with dispatchs := fun _ => d } : World ε ο φ β δ).table e o
      else w.table e' o := by
  by_cases h : e' = e
  · subst h
    cases o <;> simp [World.table, World.setDispatch]
  · cases o <;> simp [World.table, World.setDispatch, h]

theorem Good.openEvent (h : Good w) (e : ε) : Good (w.openEvent e) := by
  unfold World.openEvent
  split_ifs with hsome
  · exact h
  · have hnone : w.dispatchs e = none := by simpa using hsome
    refine h.alloc (e := e) (o := none) ?_ (fun e' o' => ?_) rfl rfl le_rfl rfl rfl rfl
    · simp [World.table, hnone]
    · rw [table_setDispatch]
      by_cases he : e' = e
      · subst he
        cases o' with
        | none => simp [World.table]
        | some o => simp [World.table, hnone]
      · cases o' <;> simp [he, World.table, World.alloc]

theorem Good.openObj (h : Good w) (e : ε) (o : ο) : Good (w.openObj e o) := by
  unfold World.openObj
  cases hd : w.dispatchs e with
  | none => exact h
  | some d =>
    dsimp only
    split_ifs with hsome
    · exact h
    · have hnone : d.objs.lookup o = none := by simpa using hsome
      refine h.alloc (e := e) (o := some o) ?_ (fun e' o' => ?_) rfl rfl le_rfl rfl rfl rfl
      · simp [World.table, hd, hnone]
      · rw [table_setDispatch]
        by_cases he : e' = e
        · subst he
          cases o' with
          | none => simp [World.table, hd]
          | some o' =>
            by_cases ho : o' = o
            · subst ho
              simp [World.table]
            · simp [World.table, hd, ho]
        · cases o' <;> simp [he, World.table, World.alloc]

omit [DecidableEq ε] in
theorem table_put (w : World ε ο φ β δ) (t : Nat) (v : Handler ε ο φ β δ) (e : ε) (o : Option ο) :
    (w.put t v).table e o = w.table e o := by
  cases o <;> rfl

omit [DecidableEq ε] [DecidableEq ο] in
theorem spoil_frames {frames : List (Frame ε ο φ β δ)} (h : ∀ f ∈ frames, f.running = true → f.tab ≠ t) :
    frames.map (Frame.spoil t) = frames := by
  have hid : ∀ f ∈ frames, Frame.spoil t f = f := fun f hf => if_neg fun hspoil => h f hf hspoil.1 hspoil.2
  rw [List.map_congr_left hid, List.map_id']

omit [DecidableEq ε] in
theorem Good.put (h : Good w) (ht : w.table v.eventId v.objId = some t) (hle : v.h ≤ w.h)
    (hnew : ∀ v', w.handlers v.h ≠ some v') (hstart : ∀ f ∈ w.frames, f.start.lookup v.h = none)
    (hkept : ∀ f ∈ w.frames, f.running = true → f.tab ≠ t) : Good (w.put t v) := by
  have htab : ∀ t', t' ≠ t → (w.put t v).tabs t' = w.tabs t' := fun t' ht' => Function.update_of_ne ht' _ _
  have htabt : (w.put t v).tabs t = (w.tabs t).insert v.h v := Function.update_self _ _ _
  have hhand : ∀ k, k ≠ v.h → (w.put t v).handlers k = w.handlers k := fun k hk => Function.update_of_ne hk _ _
  have hhandv : (w.put t v).handlers v.h = some v := Function.update_self _ _ _
  have hframes : (w.put t v).frames = w.frames := spoil_frames hkept
  refine ⟨fun e o t' ht' => ?_, fun e o e' o' t' h₁ h₂ => ?_, fun e o t' k v' ht' hk => ?_, fun k v' hv' => ?_, h.raised,
    fun f hf => ?_⟩
  · rw [table_put] at ht'
    exact h.bound e o t' ht'
  · rw [table_put] at h₁ h₂
    exact h.inj e o e' o' t' h₁ h₂
  · rw [table_put] at ht'
    by_cases htt : t' = t
    · subst htt
      obtain ⟨rfl, rfl⟩ := h.inj _ _ _ _ _ ht ht'
      rw [htabt] at hk
      by_cases hkv : k = v.h
      · subst hkv
        rw [AList.lookup_insert] at hk
        cases hk
        exact ⟨rfl, rfl, hhandv⟩
      · rw [AList.lookup_insert_ne hkv] at hk
        rw [hhand k hkv]
        exact h.entry _ _ _ k v' ht hk
    · rw [htab t' htt] at hk
      have hentry := h.entry e o t' k v' ht' hk
      have hkv : k ≠ v.h := fun hkv => hnew v' (hkv ▸ hentry.2.2)
      rw [hhand k hkv]
      exact hentry
  · by_cases hkv : k = v.h
    · subst hkv
      rw [hhandv] at hv'
      cases hv'
      exact ⟨rfl, hle, t, by rw [table_put, ht], by rw [htabt, AList.lookup_insert]⟩
    · rw [hhand k hkv] at hv'
      obtain ⟨hkey, hk, t', ht', hlook⟩ := h.found k v' hv'
      refine ⟨hkey, hk, t', by rw [table_put, ht'], ?_⟩
      by_cases htt : t' = t
      · subst htt
        rw [htabt, AList.lookup_insert_ne hkv, hlook]
      · rw [htab t' htt, hlook]
  · rw [hframes] at hf
    have hgood := h.frame f hf
    have hne : ∀ k v', f.start.lookup k = some v' → k ≠ v.h := by
      rintro k v' hk rfl
      rw [hstart f hf] at hk
      cases hk
    refine ⟨hgood.tab, hgood.old, hgood.once, hgood.called, hgood.made, hgood.spoilt, fun hrun k v' hk => ?_,
      fun hrun k v' hk => ?_,
      fun hrun k v' hk => ?_⟩
    · rw [htab _ (hkept f hf hrun), hhand k (hne k v' hk)]
      exact hgood.here hrun k v' hk
    · rw [htab _ (hkept f hf hrun)] at hk
      exact hgood.found hrun k v' hk
    · rw [hhand k (hne k v' hk)]
      exact hgood.ended hrun k v' hk

/-- The state without the handler `k`, which is in the table `t`. -/
def World.cut (w : World ε ο φ β δ) (t k : Nat) : World ε ο φ β δ :=
  { w with
    tabs := Function.update w.tabs t ((w.tabs t).erase k)
    handlers := Function.update w.handlers k none }

omit [DecidableEq ε] in
theorem table_cut (w : World ε ο φ β δ) (t k : Nat) (e : ε) (o : Option ο) : (w.cut t k).table e o = w.table e o := by
  cases o <;> rfl

omit [DecidableEq ε] in
theorem Good.cut (h : Good w) (hv : w.handlers k = some v) (ht : w.table v.eventId v.objId = some t) :
    Good (w.cut t k) := by
  have hhand : ∀ k', k' ≠ k → (w.cut t k).handlers k' = w.handlers k' := fun k' hk' => Function.update_of_ne hk' _ _
  have hhandk : (w.cut t k).handlers k = none := Function.update_self _ _ _
  have hlook : ∀ t' k' v', ((w.cut t k).tabs t').lookup k' = some v' →
      (w.tabs t').lookup k' = some v' ∧ (t' = t → k' ≠ k) := by
    intro t' k' v' hk'
    unfold World.cut at hk'
    dsimp only at hk'
    by_cases htt : t' = t
    · subst htt
      rw [Function.update_self] at hk'
      by_cases hkk : k' = k
      · subst hkk
        rw [AList.lookup_erase] at hk'
        cases hk'
      · rw [AList.lookup_erase_ne hkk] at hk'
        exact ⟨hk', fun _ => hkk⟩
    · rw [Function.update_of_ne htt] at hk'
      exact ⟨hk', fun heq => absurd heq htt⟩
  have hback : ∀ t' k' v', k' ≠ k → (w.tabs t').lookup k' = some v' → ((w.cut t k).tabs t').lookup k' = some v' := by
    intro t' k' v' hkk hk'
    unfold World.cut
    dsimp only
    by_cases htt : t' = t
    · subst htt
      rw [Function.update_self, AList.lookup_erase_ne hkk, hk']
    · rw [Function.update_of_ne htt, hk']
  refine ⟨fun e o t' ht' => ?_, fun e o e' o' t' h₁ h₂ => ?_, fun e o t' k' v' ht' hk => ?_, fun k' v' hv' => ?_, h.raised,
    fun f hf => ?_⟩
  · rw [table_cut] at ht'
    exact h.bound e o t' ht'
  · rw [table_cut] at h₁ h₂
    exact h.inj e o e' o' t' h₁ h₂
  · rw [table_cut] at ht'
    obtain ⟨hk, hne⟩ := hlook t' k' v' hk
    have hentry := h.entry e o t' k' v' ht' hk
    refine ⟨hentry.1, hentry.2.1, ?_⟩
    rw [hhand, hentry.2.2]
    rintro rfl
    rw [hv] at hentry
    obtain ⟨rfl, rfl, hvv⟩ := hentry
    cases hvv
    rw [ht] at ht'
    exact hne (Option.some.inj ht').symm rfl
  · by_cases hkk : k' = k
    · subst hkk
      rw [hhandk] at hv'
      cases hv'
    · rw [hhand k' hkk] at hv'
      obtain ⟨hkey, hle, t', ht', hk'⟩ := h.found k' v' hv'
      exact ⟨hkey, hle, t', by rw [table_cut, ht'], hback t' k' v' hkk hk'⟩
  · have hgood := h.frame f hf
    refine ⟨hgood.tab, hgood.old, hgood.once, hgood.called, hgood.made, hgood.spoilt, fun hrun k' v' hk => ?_,
      fun hrun k' v' hk => hgood.found hrun k' v' (hlook _ k' v' hk).1, fun hrun k' v' hk => ?_⟩
    · by_cases hkk : k' = k
      · exact .inr (by rw [hkk, hhandk])
      · rw [hhand k' hkk]
        exact (hgood.here hrun k' v' hk).imp_left (hback _ k' v' hkk)
    · by_cases hkk : k' = k
      · exact .inr (by rw [hkk, hhandk])
      · rw [hhand k' hkk]
        exact hgood.ended hrun k' v' hk

omit [DecidableEq ε] in
theorem Good.prune (h : Good w) (hsub : ∀ e o t, w'.table e o = some t → w.table e o = some t)
    (hlost : ∀ e o t, w.table e o = some t → w'.table e o = some t ∨ ∀ k, (w.tabs t).lookup k = none)
    (htabs : w'.tabs = w.tabs) (hfresh : w'.fresh = w.fresh) (hh : w.h ≤ w'.h) (hhandlers : w'.handlers = w.handlers)
    (hframes : w'.frames = w.frames) (hraised : w'.raised = w.raised) : Good w' := by
  refine ⟨fun e o t ht => ?_, fun e o e' o' t h₁ h₂ => h.inj e o e' o' t (hsub e o t h₁) (hsub e' o' t h₂),
    fun e o t k v ht hk => ?_, fun k v hv => ?_, by rw [hraised, h.raised], fun f hf => ?_⟩
  · rw [hfresh]
    exact h.bound e o t (hsub e o t ht)
  · rw [htabs] at hk
    rw [hhandlers]
    exact h.entry e o t k v (hsub e o t ht) hk
  · rw [hhandlers] at hv
    obtain ⟨hkey, hle, t, ht, hk⟩ := h.found k v hv
    refine ⟨hkey, hle.trans hh, t, (hlost _ _ t ht).resolve_right fun hnone => ?_, by rw [htabs, hk]⟩
    rw [hnone k] at hk
    cases hk
  · rw [hframes] at hf
    have hgood := h.frame f hf
    refine ⟨by rw [hfresh]; exact hgood.tab, fun k v hk => ?_, hgood.once, hgood.called, hgood.made, hgood.spoilt, ?_, ?_, ?_⟩
    · obtain ⟨hkey, hle, hrest⟩ := hgood.old k v hk
      exact ⟨hkey, hle.trans hh, hrest⟩
    · rw [htabs, hhandlers]
      exact hgood.here
    · rw [htabs]
      exact hgood.found
    · rw [hhandlers]
      exact hgood.ended

omit [DecidableEq ο] in
theorem openEvent_keeps (w : World ε ο φ β δ) (e : ε) : (w.openEvent e).handlers = w.handlers ∧
    (w.openEvent e).frames = w.frames ∧ (w.openEvent e).h = w.h ∧ w.fresh ≤ (w.openEvent e).fresh := by
  unfold World.openEvent
  split_ifs
  · exact ⟨rfl, rfl, rfl, le_rfl⟩
  · exact ⟨rfl, rfl, rfl, Nat.le_succ _⟩

theorem openObj_keeps (w : World ε ο φ β δ) (e : ε) (o : ο) : (w.openObj e o).handlers = w.handlers ∧
    (w.openObj e o).frames = w.frames ∧ (w.openObj e o).h = w.h ∧ w.fresh ≤ (w.openObj e o).fresh := by
  unfold World.openObj
  cases w.dispatchs e with
  | none => exact ⟨rfl, rfl, rfl, le_rfl⟩
  | some d =>
    dsimp only
    split_ifs
    · exact ⟨rfl, rfl, rfl, le_rfl⟩
    · exact ⟨rfl, rfl, rfl, Nat.le_succ _⟩

theorem openEvent_table {e' : ε} (h : (w.openEvent e).table e' o = some t) : w.table e' o = some t ∨ w.fresh ≤ t := by
  unfold World.openEvent at h
  split_ifs at h with hsome
  · exact .inl h
  · rw [table_setDispatch] at h
    split_ifs at h with he
    · cases o with
      | none => exact .inr (Option.some.inj h).le
      | some o => cases h
    · refine .inl ?_
      cases o <;> exact h

theorem openObj_table {o' : ο} {e' : ε} (h : (w.openObj e o').table e' o = some t) :
    w.table e' o = some t ∨ w.fresh ≤ t := by
  unfold World.openObj at h
  cases hd : w.dispatchs e with
  | none =>
    rw [hd] at h
    exact .inl h
  | some d =>
    rw [hd] at h
    dsimp only at h
    split_ifs at h with hsome
    · exact .inl h
    · rw [table_setDispatch] at h
      split_ifs at h with he
      · subst he
        cases o with
        | none =>
          refine .inl ?_
          rw [← h, World.table, World.table, hd]
          rfl
        | some o =>
          by_cases ho : o = o'
          · subst ho
            simp only [World.table, Option.bind_some, AList.lookup_insert, Option.some.injEq] at h
            exact .inr h.le
          · refine .inl ?_
            simp only [World.table, Option.bind_some, AList.lookup_insert_ne ho] at h
            simp only [World.table, hd, Option.bind_some, h]
      · refine .inl ?_
        cases o <;> exact h

omit [DecidableEq ε] in
theorem Good.bump (h : Good w) : Good { w with h := w.h + 1 } := by
  have htable : ∀ e o, World.table { w with h := w.h + 1 } e o = w.table e o := fun e o => by cases o <;> rfl
  exact h.prune (fun e o t ht => by rwa [htable] at ht) (fun e o t ht => .inl (by rwa [htable])) rfl rfl (Nat.le_succ _) rfl
    rfl rfl

omit [DecidableEq ε] in
theorem Good.enter (h : Good w) {w₀ : World ε ο φ β δ} (h₀ : Good w₀) (hhandlers : w.handlers = w₀.handlers)
    (hframes : w.frames = w₀.frames) (hh : w.h = w₀.h + 1) (ht : w.table e o = some t)
    (hkept : ∀ f ∈ w₀.frames, f.running = true → w₀.table e o ≠ some f.tab) (hold : w₀.table e o = some t ∨ w₀.fresh ≤ t)
    (cb : Callback φ β) (params : Option δ) (async : Bool) : Good (w.put t ⟨w.h, e, o, cb, params, async⟩) := by
  refine h.put ht le_rfl (fun v' hv' => ?_) (fun f hf => ?_) (fun f hf hrun heq => ?_)
  · rw [hhandlers] at hv'
    have := (h₀.found _ v' hv').2.1
    dsimp only at this
    omega
  · rw [hframes] at hf
    cases hk : f.start.lookup w.h with
    | none => rfl
    | some v' =>
      have := ((h₀.frame f hf).old _ v' hk).2.1
      omega
  · rw [hframes] at hf
    rcases hold with hold | hold
    · exact hkept f hf hrun (heq ▸ hold)
    · have := (h₀.frame f hf).tab
      omega

theorem Good.register (h : Good w) {cb : Callback φ β} {params : Option δ} {async : Bool}
    (hkept : w.Kept (.register e o cb params async)) : Good (w.registerEvent e o cb params async).1 := by
  obtain ⟨hhandlers, hframes, hh, hfresh⟩ := openEvent_keeps w e
  have hopen := (h.openEvent e).bump
  have htable : ∀ e' o', World.table { w.openEvent e with h := (w.openEvent e).h + 1 } e' o' =
    (w.openEvent e).table e' o' :=
    fun e' o' => by cases o' <;> rfl
  unfold World.registerEvent
  dsimp only
  split_ifs with hmixed
  · exact hopen
  · cases o with
    | none =>
      dsimp only
      split
      · exact hopen
      · rename_i t ht
        refine hopen.enter h hhandlers hframes (by rw [hh]) ht hkept ?_ cb params async
        rw [htable] at ht
        exact openEvent_table ht
    | some o =>
      dsimp only
      obtain ⟨hhandlers', hframes', hh', -⟩ := openObj_keeps { w.openEvent e with h := (w.openEvent e).h + 1 } e o
      split
      · exact hopen.openObj e o
      · rename_i t ht
        refine (hopen.openObj e o).enter h (hhandlers'.trans hhandlers) (hframes'.trans hframes) (by rw [hh', hh])
          ht hkept ?_ cb
          params async
        rcases openObj_table ht with ht | ht
        · rw [htable] at ht
          exact openEvent_table ht
        · exact .inr (hfresh.trans ht)

structure Prunes (w w' : World ε ο φ β δ) : Prop where
  sub : ∀ e o t, w'.table e o = some t → w.table e o = some t
  lost : ∀ e o t, w.table e o = some t → w'.table e o = some t ∨ ∀ k, (w.tabs t).lookup k = none
  rest : w'.tabs = w.tabs ∧ w'.fresh = w.fresh ∧ w'.h = w.h ∧ w'.frames = w.frames ∧ w'.raised = w.raised ∧
    w'.handlers = w.handlers

theorem lookup_of_empty {κ : Type} [DecidableEq κ] {γ : κ → Type} {l : AList γ} (h : empty l = true) (k : κ) :
    l.lookup k = none := by
  have hkeys : l = ∅ := AList.ext (List.isEmpty_iff.1 h)
  rw [hkeys, AList.lookup_empty]

theorem prunes_dropObj (ht : w.table e o = some t) : Prunes w (w.dropObj t e o) := by
  unfold World.dropObj
  cases o with
  | none => exact ⟨fun _ _ _ h => h, fun _ _ _ h => .inl h, rfl, rfl, rfl, rfl, rfl, rfl⟩
  | some o =>
    dsimp only
    split_ifs with hempty
    · have htable : ∀ e' o', (w.setDispatch e ((w.dispatchs e).map fun d => { d with objs := d.objs.erase o })).table e'
        o' =
          if e' = e ∧ o' = some o then none else w.table e' o' := by
        intro e' o'
        rw [table_setDispatch]
        by_cases he : e' = e
        · subst he
          cases o' with
          | none => cases hd : w.dispatchs e' <;> simp [World.table, hd]
          | some o' =>
            by_cases ho : o' = o
            · subst ho
              cases hd : w.dispatchs e' <;> simp [World.table]
            · cases hd : w.dispatchs e' <;> simp [World.table, hd, ho]
        · simp [he]
      refine ⟨fun e' o' t' ht' => ?_, fun e' o' t' ht' => ?_, rfl, rfl, rfl, rfl, rfl, rfl⟩
      · rw [htable] at ht'
        split_ifs at ht' with heq
        exact ht'
      · rw [htable]
        split_ifs with heq
        · obtain ⟨rfl, rfl⟩ := heq
          rw [ht] at ht'
          cases ht'
          exact .inr (lookup_of_empty hempty)
        · exact .inl ht'
    · exact ⟨fun _ _ _ h => h, fun _ _ _ h => .inl h, rfl, rfl, rfl, rfl, rfl, rfl⟩

theorem prunes_dropEvent (w : World ε ο φ β δ) (e : ε) : Prunes w (w.dropEvent e) := by
  unfold World.dropEvent
  cases hd : w.dispatchs e with
  | none => exact ⟨fun _ _ _ h => h, fun _ _ _ h => .inl h, rfl, rfl, rfl, rfl, rfl, rfl⟩
  | some d =>
    dsimp only
    split_ifs with hempty
    · obtain ⟨hobjs, hplain⟩ := Bool.and_eq_true_iff.1 hempty
      have htable : ∀ e' o', (w.setDispatch e none).table e' o' = if e' = e then none else w.table e' o' := by
        intro e' o'
        rw [table_setDispatch]
        cases o' <;> rfl
      refine ⟨fun e' o' t' ht' => ?_, fun e' o' t' ht' => ?_, rfl, rfl, rfl, rfl, rfl, rfl⟩
      · rw [htable] at ht'
        split_ifs at ht' with heq
        exact ht'
      · rw [htable]
        split_ifs with heq
        · subst heq
          refine .inr ?_
          cases o' with
          | none =>
            simp only [World.table, hd, Option.map_some, Option.some.injEq] at ht'
            subst ht'
            exact lookup_of_empty hplain
          | some o' =>
            simp only [World.table, hd, Option.bind_some, lookup_of_empty hobjs] at ht'
            cases ht'
        · exact .inl ht'
    · exact ⟨fun _ _ _ h => h, fun _ _ _ h => .inl h, rfl, rfl, rfl, rfl, rfl, rfl⟩

omit [DecidableEq ε] in
theorem Prunes.trans {w₁ w₂ w₃ : World ε ο φ β δ} (h : Prunes w₁ w₂) (h' : Prunes w₂ w₃) : Prunes w₁ w₃ where
  sub e o t ht := h.sub e o t (h'.sub e o t ht)
  lost e o t ht := by
    rcases h.lost e o t ht with ht' | hnone
    · rw [← h.rest.1]
      exact h'.lost e o t ht'
    · exact .inr hnone
  rest := ⟨h'.rest.1.trans h.rest.1, h'.rest.2.1.trans h.rest.2.1, h'.rest.2.2.1.trans h.rest.2.2.1,
    h'.rest.2.2.2.1.trans h.rest.2.2.2.1, h'.rest.2.2.2.2.1.trans h.rest.2.2.2.2.1,
    h'.rest.2.2.2.2.2.trans h.rest.2.2.2.2.2⟩

theorem Good.unregister (h : Good w) (k : Nat) : Good (w.unregisterEvent k) := by
  unfold World.unregisterEvent
  split
  · exact h
  · rename_i v hv
    obtain ⟨-, -, t, ht, -⟩ := h.found k v hv
    rw [ht]
    dsimp only
    have htabs : World.table { w with tabs := Function.update w.tabs t ((w.tabs t).erase k) } v.eventId v.objId =
      some t := by
      rw [← ht]
      cases v.objId <;> rfl
    have hprunes := (prunes_dropObj htabs).trans (prunes_dropEvent _ v.eventId)
    obtain ⟨hT, hF, hH, hfr, hr, hhand⟩ := hprunes.rest
    have hcut : ∀ e o, (w.cut t k).table e o =
        World.table { w with tabs := Function.update w.tabs t ((w.tabs t).erase k) } e o := fun e o => by cases o <;> rfl
    have hfinal : ∀ (w₁ : World ε ο φ β δ) (x : Nat → Option (Handler ε ο φ β δ)) e o,
        World.table { w₁ with handlers := x } e o = w₁.table e o := fun w₁ x e o => by cases o <;> rfl
    refine (h.cut hv ht).prune (fun e o t' ht' => ?_) (fun e o t' ht' => ?_) hT hF hH.ge ?_ hfr hr
    · rw [hfinal] at ht'
      rw [hcut]
      exact hprunes.sub e o t' ht'
    · rw [hcut] at ht'
      rw [hfinal]
      exact hprunes.lost e o t' ht'
    · dsimp only
      rw [hhand]
      rfl

omit [DecidableEq ε] in
theorem Good.setFrames (h : Good w) {frames : List (Frame ε ο φ β δ)} (hframes : ∀ f ∈ frames, FrameGood w f) :
    Good { w with frames := frames } := by
  have htable : ∀ e o, World.table { w with frames := frames } e o = w.table e o := fun e o => by cases o <;> rfl
  refine ⟨fun e o t ht => ?_, fun e o e' o' t h₁ h₂ => ?_, fun e o t k v ht hk => ?_, fun k v hv => ?_, h.raised,
    fun f hf => ?_⟩
  · rw [htable] at ht
    exact h.bound e o t ht
  · rw [htable] at h₁ h₂
    exact h.inj e o e' o' t h₁ h₂
  · rw [htable] at ht
    exact h.entry e o t k v ht hk
  · obtain ⟨hkey, hle, t, ht, hk⟩ := h.found k v hv
    exact ⟨hkey, hle, t, by rw [htable, ht], hk⟩
  · have hgood := hframes f hf
    exact ⟨hgood.tab, hgood.old, hgood.once, hgood.called, hgood.made, hgood.spoilt, hgood.here, hgood.found, hgood.ended⟩

omit [DecidableEq ε] in
theorem Good.setFrame (h : Good w) {i : Nat} (hf : FrameGood w f) : Good { w with frames := w.frames.set i f } := by
  refine h.setFrames fun f' hf' => ?_
  rcases List.mem_or_eq_of_mem_set hf' with hmem | rfl
  · exact h.frame f' hmem
  · exact hf

omit [DecidableEq ε] in
theorem Good.begins (h : Good w) (ht : w.table e o = some t) (event : Option δ) :
    FrameGood w ⟨e, o, event, t, w.tabs t, [], [], true, false⟩ := by
  refine ⟨h.bound e o t ht, fun k v hk => ?_, List.nodup_nil, fun v hv => ?_, rfl, rfl, fun _ k v hk => .inl hk,
    fun _ k v hk => hk, fun hrun => ?_⟩
  · obtain ⟨he, ho, hv⟩ := h.entry e o t k v ht hk
    obtain ⟨hkey, hle, -⟩ := h.found k v hv
    exact ⟨hkey, hle, he, ho⟩
  · cases hv
  · cases hrun

omit [DecidableEq ε] in
theorem Good.dispatch (h : Good w) {event : Option δ} (ht : w.table e o = some t) :
    Good (w.dispatchEvent e o event) := by
  unfold World.dispatchEvent
  rw [ht]
  refine h.setFrames fun f hf => ?_
  rcases List.mem_append.1 hf with hf | hf
  · exact h.frame f hf
  · rw [List.mem_singleton.1 hf]
    exact h.begins ht event

omit [DecidableEq ε] [DecidableEq ο] in
theorem FrameGood.turn (h : FrameGood w f) (hv : (w.tabs f.tab).lookup k = some v) (hrun : f.running = true)
    (hk : k ∉ f.called.map Handler.h) : FrameGood w
      { f with called := f.called ++ [v], made := f.made ++ [v.invoke f.event] } := by
  have hstart := h.found hrun k v hv
  have hkey := (h.old k v hstart).1
  refine ⟨h.tab, h.old, ?_, fun v' hv' => ?_, by simp [h.made], h.spoilt, h.here, h.found, fun hrun' => ?_⟩
  · rw [List.map_append, List.nodup_append]
    refine ⟨h.once, List.nodup_singleton _, fun a ha b hb => ?_⟩
    rw [List.map_singleton, List.mem_singleton, hkey] at hb
    rintro rfl
    exact hk (hb ▸ ha)
  · rcases List.mem_append.1 hv' with hv' | hv'
    · exact h.called v' hv'
    · rw [List.mem_singleton.1 hv', hkey]
      exact hstart
  · dsimp only at hrun'
    rw [hrun] at hrun'
    cases hrun'

omit [DecidableEq ε] [DecidableEq ο] in
theorem FrameGood.done (h : FrameGood w f) (hrun : f.running = true)
    (hall : ∀ k ∈ (w.tabs f.tab).keys, k ∈ f.called.map Handler.h) : FrameGood w { f with running := false } := by
  refine ⟨h.tab, h.old, h.once, h.called, h.made, h.spoilt, fun hrun' => ?_, fun hrun' => ?_, fun _ k v hk => ?_⟩
  · cases hrun'
  · cases hrun'
  · rcases h.here hrun k v hk with hlook | hnone
    · have hmem : k ∈ (w.tabs f.tab).keys := AList.lookup_isSome.1 (by rw [hlook]; rfl)
      obtain ⟨v', hv', rfl⟩ := List.mem_map.1 (hall k hmem)
      have hv := h.called v' hv'
      dsimp only at hk
      rw [hk] at hv
      cases hv
      exact .inl hv'
    · exact .inr hnone

omit [DecidableEq ε] in
theorem Good.turn (h : Good w) (i k : Nat) : Good (w.turn i k) := by
  unfold World.turn
  split
  · exact h
  · rename_i f hf
    have hgood := h.frame f (List.mem_of_getElem? hf)
    split
    · exact h
    · rename_i v hv
      split_ifs with hcond
      · refine h.setFrame (hgood.turn hv hcond.1 (hcond.2.resolve_left fun hspoilt => ?_))
        rw [hgood.spoilt] at hspoilt
        cases hspoilt
      · exact h

omit [DecidableEq ε] in
theorem Good.done (h : Good w) (i : Nat) : Good (w.done i) := by
  unfold World.done
  split
  · exact h
  · rename_i f hf
    have hgood := h.frame f (List.mem_of_getElem? hf)
    split_ifs with hcond
    · refine h.setFrame (hgood.done hcond.1 (hcond.2.resolve_left fun hspoilt => ?_))
      rw [hgood.spoilt] at hspoilt
      cases hspoilt
    · exact h

omit [DecidableEq ε] in
theorem Good.fail (h : Good w) (i : Nat) : Good (w.fail i) := by
  unfold World.fail
  split
  · exact h
  · rename_i f hf
    have hspoilt := (h.frame f (List.mem_of_getElem? hf)).spoilt
    rw [if_neg fun hcond => by rw [hspoilt] at hcond; exact absurd hcond.2 (by decide)]
    exact h

/-- **Every event that meets its condition keeps what is known of the tables and the dispatches.** -/
theorem Good.step (h : Good w) (ev : Event ε ο φ β δ) (hkept : w.Kept ev) : Good (w.step ev) := by
  cases ev with
  | register e o cb params async => exact h.register hkept
  | unregister k => exact h.unregister k
  | dispatch e o event =>
    obtain ⟨t, ht⟩ := Option.isSome_iff_exists.1 hkept
    exact h.dispatch ht
  | turn i k => exact h.turn i k
  | done i => exact h.done i
  | fail i => exact h.fail i

omit [DecidableEq ε] [DecidableEq ο] in
theorem done_handlers (w : World ε ο φ β δ) (i : Nat) : (w.done i).handlers = w.handlers := by
  unfold World.done
  split
  · rfl
  · split_ifs <;> rfl

omit [DecidableEq ε] [DecidableEq ο] in
theorem turn_handlers (w : World ε ο φ β δ) (i k : Nat) : (w.turn i k).handlers = w.handlers := by
  unfold World.turn
  split
  · rfl
  · split
    · rfl
    · split_ifs <;> rfl

omit [DecidableEq ε] [DecidableEq ο] in
theorem fail_handlers (w : World ε ο φ β δ) (i : Nat) : (w.fail i).handlers = w.handlers := by
  unfold World.fail
  split
  · rfl
  · split_ifs <;> rfl

theorem Good.right (h : Good w) (ev : Event ε ο φ β δ) (hkept : w.Kept ev) : w.Right ev where
  sound := (h.step ev hkept).sound
  begins e o event hev := by
    subst hev
    obtain ⟨t, ht⟩ := Option.isSome_iff_exists.1 hkept
    refine ⟨⟨e, o, event, t, w.tabs t, [], [], true, false⟩, ?_, rfl, rfl, rfl, fun k v => ?_⟩
    · simp [World.step, World.dispatchEvent, ht]
    · constructor
      · intro hk
        obtain ⟨he, ho, hv⟩ := h.entry e o t k v ht hk
        exact ⟨hv, he, ho⟩
      · rintro ⟨hv, rfl, rfl⟩
        obtain ⟨-, -, t', ht', hk⟩ := h.found k v hv
        rw [ht] at ht'
        cases ht'
        exact hk
  ends i f hev hf hrun := by
    subst hev
    have hended := ((h.done i).frame f (List.mem_of_getElem? hf)).ended hrun
    rwa [done_handlers] at hended

/-! ## What a registration and a removal leave alone -/

theorem openObj_isSome (hd : (w.dispatchs e).isSome = true) (o : ο) : ((w.openObj e o).table e (some o)).isSome = true := by
  obtain ⟨d, hd⟩ := Option.isSome_iff_exists.1 hd
  unfold World.openObj
  rw [hd]
  dsimp only
  split_ifs with hsome
  · simpa [World.table, hd] using hsome
  · rw [table_setDispatch, if_pos rfl]
    simp [World.table]

omit [DecidableEq ο] in
theorem openEvent_isSome (w : World ε ο φ β δ) (e : ε) : ((w.openEvent e).dispatchs e).isSome = true := by
  unfold World.openEvent
  split_ifs with hsome
  · exact hsome
  · simp [World.setDispatch]

omit [DecidableEq ε] in
theorem Good.not_mixed (h : Good w) (hobj : ∀ k v, w.handlers k = some v → v.objId.isSome = true) (o : ο) :
    w.mixed e (some o) = false := by
  unfold World.mixed
  cases hd : w.dispatchs e with
  | none => rfl
  | some d =>
    dsimp only [Option.isSome_some, if_true]
    have ht : w.table e none = some d.plain := by rw [World.table, hd]; rfl
    have hlook : ∀ k, (w.tabs d.plain).lookup k = none := by
      intro k
      cases hk : (w.tabs d.plain).lookup k with
      | none => rfl
      | some v =>
        obtain ⟨-, ho, hv⟩ := h.entry e none d.plain k v ht hk
        have := hobj k v hv
        rw [ho] at this
        cases this
    have hkeys : (w.tabs d.plain).entries = [] := by
      cases hentries : (w.tabs d.plain).entries with
      | nil => rfl
      | cons a l =>
        have hmem : a.1 ∈ w.tabs d.plain := AList.mem_keys.2 (by rw [AList.keys, hentries]; exact List.mem_cons_self)
        rw [← AList.lookup_isSome, hlook a.1] at hmem
        cases hmem
    simp [empty, hkeys]

theorem Good.registerEvent_eq (h : Good w) (hobj : ∀ k v, w.handlers k = some v → v.objId.isSome = true) {o : ο}
    {cb : Callback φ β} {params : Option δ} {async : Bool} (hkept : w.Kept (.register e (some o) cb params async)) :
    ∃ w' : World ε ο φ β δ, w.registerEvent e (some o) cb params async = (w', some (w.h + 1)) ∧
      w'.handlers = Function.update w.handlers (w.h + 1) (some ⟨w.h + 1, e, some o, cb, params, async⟩) ∧
      w'.frames = w.frames ∧ w.fresh ≤ w'.fresh ∧
      ∀ e' o' t, w'.table e' o' = some t → w.table e' o' = some t ∨ w.fresh ≤ t := by
  obtain ⟨hhandlers, hframes, hh, hfresh⟩ := openEvent_keeps w e
  set w₁ : World ε ο φ β δ := { w.openEvent e with h := (w.openEvent e).h + 1 } with hw₁
  have htable₁ : ∀ e' o', w₁.table e' o' = (w.openEvent e).table e' o' := fun e' o' => by cases o' <;> rfl
  have hopen : Good w₁ := (h.openEvent e).bump
  have hh₁ : w₁.h = w.h + 1 := by rw [hw₁, ← hh]
  have hmixed : w₁.mixed e (some o) = false := hopen.not_mixed (fun k v hv => hobj k v (by rw [← hhandlers]; exact hv)) o
  obtain ⟨hhandlers', hframes', hh', hfresh'⟩ := openObj_keeps w₁ e o
  obtain ⟨t, ht⟩ := Option.isSome_iff_exists.1 (openObj_isSome (w := w₁) (openEvent_isSome w e) o)
  have hold : ∀ e' o' t', (w₁.openObj e o).table e' o' = some t' → w.table e' o' = some t' ∨ w.fresh ≤ t' := by
    intro e' o' t' ht'
    rcases openObj_table ht' with ht' | ht'
    · rw [htable₁] at ht'
      exact openEvent_table ht'
    · exact .inr (hfresh.trans ht')
  refine ⟨(w₁.openObj e o).put t ⟨(w₁.openObj e o).h, e, some o, cb, params, async⟩, ?_, ?_, ?_,
    hfresh.trans hfresh', fun e' o' t' ht' => ?_⟩
  · unfold World.registerEvent
    dsimp only
    rw [← hw₁, hmixed, ht, hh', hh₁]
    rfl
  · rw [hh', hh₁]
    unfold World.put
    dsimp only
    rw [hhandlers', ← hhandlers]
  · have hspoil : ((w₁.openObj e o).frames).map (Frame.spoil t) = (w₁.openObj e o).frames := by
      refine spoil_frames fun f hf hrun heq => ?_
      rw [hframes'] at hf
      have hf : f ∈ w.frames := by rwa [← hframes]
      rcases hold e (some o) t ht with ht | ht
      · exact hkept f hf hrun (by rw [ht, heq])
      · have := (h.frame f hf).tab
        omega
    exact (hspoil.trans hframes').trans hframes
  · rw [table_put] at ht'
    exact hold e' o' t' ht'

theorem Good.unregisterEvent_handlers (h : Good w) (k : Nat) :
    (w.unregisterEvent k).handlers = Function.update w.handlers k none ∧ (w.unregisterEvent k).frames = w.frames := by
  unfold World.unregisterEvent
  split
  · rename_i hnone
    exact ⟨by rw [← hnone, Function.update_eq_self], rfl⟩
  · rename_i v hv
    obtain ⟨-, -, t, ht, -⟩ := h.found k v hv
    rw [ht]
    dsimp only
    have htabs : World.table { w with tabs := Function.update w.tabs t ((w.tabs t).erase k) } v.eventId v.objId =
      some t := by
      rw [← ht]
      cases v.objId <;> rfl
    obtain ⟨-, -, -, hframes, -, hhand⟩ := ((prunes_dropObj htabs).trans (prunes_dropEvent _ v.eventId)).rest
    exact ⟨by rw [hhand], hframes⟩

/-- **Dispatches reach each of their handlers once and do not raise**, in every run in which no handler is added to a table
that a dispatch is going through and every dispatch finds a table. -/
theorem dispatch_of_run (es : List (Event ε ο φ β δ)) (h : Steps.Along World.step World.Kept World.start es) :
    Steps.Along World.step World.Right (World.start : World ε ο φ β δ) es :=
  Steps.Along.keep (I := Good) (fun _ ev hkept h => ⟨h.step ev hkept, h.right ev hkept⟩) es _ good_start h

theorem dispatch_twice : Steps.Along World.step World.Right (World.start : World Nat Nat Nat Nat Nat)
    [.register 5 (some 1) ⟨.inl 0, none, by decide⟩ (some 7) false,
      .register 5 (some 1) ⟨.inl 1, none, by decide⟩ none false,
      .dispatch 5 (some 1) none, .turn 0 1, .unregister 2, .done 0] :=
  dispatch_of_run _ (by decide)

theorem dispatch_raises : ¬∀ es : List (Event Nat Nat Nat Nat Nat), Steps.Along World.step World.Right World.start es := by
  intro h
  have hraised := (h [.dispatch 5 (some 1) none]).1.sound.raised
  revert hraised
  decide

end EventCtrl
end Sncpp
