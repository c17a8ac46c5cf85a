import Sncpp.CondMgr
/-!
# CondMgrRun — the calls of a callback are the changes of its conditions (`conditionMgr.lua`)

A registration adds a listener for each event once, whatever the conditions; between two events of a run the listeners are
those of the registrations, and the last value of each is what it was evaluated to last.
-/
namespace Sncpp
namespace CondMgr

open EventCtrl (Callback Call)

variable {χ ε υ φ β : Type} [DecidableEq ε] [DecidableEq υ]

/-! ## The listeners of a registration -/

/-- What registering listeners for the events `es` adds: the listeners `ks`. -/
structure Adds (player : υ) (handle : Nat) (ctrl ctrl' : Ctrl ε υ) (es : List ε) (ks : List Nat) : Prop where
  good : EventCtrl.Good ctrl'
  frames : ctrl'.frames = ctrl.frames
  fresh : ctrl.fresh ≤ ctrl'.fresh
  table : ∀ e o t, ctrl'.table e o = some t → ctrl.table e o = some t ∨ ctrl.fresh ≤ t
  old : ∀ k v, ctrl.handlers k = some v → ctrl'.handlers k = some v
  new : ∀ k v, ctrl'.handlers k = some v → ctrl.handlers k = some v ∨
    k ∈ ks ∧ v.params = some handle ∧ v.objId = some player ∧ v.eventId ∈ es
  each : ∀ e ∈ es, ∃ k v, k ∈ ks ∧ ctrl'.handlers k = some v ∧ v.eventId = e
  keys : ∀ k ∈ ks, ctrl.handlers k = none ∧ ∃ v, ctrl'.handlers k = some v
  once : ∀ k ∈ ks, ∀ k' ∈ ks, ∀ v v', ctrl'.handlers k = some v → ctrl'.handlers k' = some v' → v.eventId =
    v'.eventId → k = k'

variable {defs : Defs χ ε} {w : World χ ε υ φ β} {player : υ} {handle : Nat} {ctrl ctrl' ctrl'' : Ctrl ε υ}
    {es es' : List ε}
  {ks ks' : List Nat}

omit [DecidableEq ε] in
theorem Adds.refl (h : EventCtrl.Good ctrl) : Adds player handle ctrl ctrl [] [] where
  good := h
  frames := rfl
  fresh := le_rfl
  table e o t ht := .inl ht
  old k v hv := hv
  new k v hv := .inl hv
  each e he := by cases he
  keys k hk := by cases hk
  once k hk := by cases hk

omit [DecidableEq ε] in
theorem Adds.trans (h : Adds player handle ctrl ctrl' es ks) (h' : Adds player handle ctrl' ctrl'' es' ks')
    (hdisj : ∀ e ∈ es', e ∉ es) : Adds player handle ctrl ctrl'' (es ++ es') (ks ++ ks') where
  good := h'.good
  frames := h'.frames.trans h.frames
  fresh := h.fresh.trans h'.fresh
  table e o t ht := by
    rcases h'.table e o t ht with ht | ht
    · exact h.table e o t ht
    · exact .inr (h.fresh.trans ht)
  old k v hv := h'.old k v (h.old k v hv)
  new k v hv := by
    rcases h'.new k v hv with hv | ⟨hk, hp, ho, he⟩
    · exact (h.new k v hv).imp_right fun ⟨hk, hp, ho, he⟩ =>
        ⟨List.mem_append_left _ hk, hp, ho, List.mem_append_left _ he⟩
    · exact .inr ⟨List.mem_append_right _ hk, hp, ho, List.mem_append_right _ he⟩
  each e he := by
    rcases List.mem_append.1 he with he | he
    · obtain ⟨k, v, hk, hv, hve⟩ := h.each e he
      exact ⟨k, v, List.mem_append_left _ hk, h'.old k v hv, hve⟩
    · obtain ⟨k, v, hk, hv, hve⟩ := h'.each e he
      exact ⟨k, v, List.mem_append_right _ hk, hv, hve⟩
  keys k hk := by
    rcases List.mem_append.1 hk with hk | hk
    · obtain ⟨hnone, v, hv⟩ := h.keys k hk
      exact ⟨hnone, v, h'.old k v hv⟩
    · obtain ⟨hnone, hv⟩ := h'.keys k hk
      refine ⟨?_, hv⟩
      cases hc : ctrl.handlers k with
      | none => rfl
      | some v =>
        rw [h.old k v hc] at hnone
        cases hnone
  once k hk k' hk' v v' hv hv' hvv := by
    -- a listener of the first part is for an event of the first part
    have hfirst : ∀ k ∈ ks, ∀ v, ctrl''.handlers k = some v → ctrl'.handlers k = some v ∧ v.eventId ∈ es := by
      intro k hk v hv
      obtain ⟨hnone, v₁, hv₁⟩ := h.keys k hk
      have heq : v₁ = v := Option.some.inj ((h'.old k v₁ hv₁).symm.trans hv)
      subst heq
      rcases h.new k v₁ hv₁ with hold | ⟨-, -, -, he⟩
      · rw [hnone] at hold
        cases hold
      · exact ⟨hv₁, he⟩
    have hsecond : ∀ k ∈ ks', ∀ v, ctrl''.handlers k = some v → v.eventId ∈ es' := by
      intro k hk v hv
      rcases h'.new k v hv with hold | ⟨-, -, -, he⟩
      · rw [(h'.keys k hk).1] at hold
        cases hold
      · exact he
    rcases List.mem_append.1 hk with hk | hk <;> rcases List.mem_append.1 hk' with hk' | hk'
    · exact h.once k hk k' hk' v v' (hfirst k hk v hv).1 (hfirst k' hk' v' hv').1 hvv
    · exact absurd (hvv ▸ (hfirst k hk v hv).2) (hdisj _ (hsecond k' hk' v' hv'))
    · exact absurd (hvv.symm ▸ (hfirst k' hk' v' hv').2) (hdisj _ (hsecond k hk v hv))
    · exact h'.once k hk k' hk' v v' hv hv' hvv

omit [DecidableEq ε] in
theorem Adds.quiet (h : Adds player handle ctrl ctrl' es ks) (hctrl : EventCtrl.Good ctrl) {p : υ} {e : ε}
    (hquiet : Quiet ctrl p e) : Quiet ctrl' p e := by
  intro f hf hrun heq
  rw [h.frames] at hf
  rcases h.table e (some p) f.tab heq with ht | ht
  · exact hquiet f hf hrun ht
  · have := (hctrl.frame f hf).tab
    omega

def OfPlayers (ctrl : Ctrl ε υ) : Prop := ∀ k v, ctrl.handlers k = some v → v.objId.isSome = true

omit [DecidableEq ε] in
theorem Adds.ofPlayers (h : Adds player handle ctrl ctrl' es ks) (hobj : OfPlayers ctrl) : OfPlayers ctrl' := by
  intro k v hv
  rcases h.new k v hv with hv | ⟨-, -, ho, -⟩
  · exact hobj k v hv
  · rw [ho]
    rfl

theorem Adds.single (handle : Nat) (h : EventCtrl.Good ctrl) (hobj : OfPlayers ctrl) {e : ε}
    (hquiet : Quiet ctrl player e) :
    ∃ ctrl', ctrl.registerEvent e (some player) ⟨.inl (), none, .inl rfl⟩ (some handle) false = (ctrl', some (ctrl.h + 1)) ∧
      Adds player handle ctrl ctrl' [e] [ctrl.h + 1] := by
  have hkept : ctrl.Kept (.register e (some player) ⟨.inl (), none, .inl rfl⟩ (some handle) false) := hquiet
  obtain ⟨ctrl', heq, hhandlers, hframes, hfresh, htable⟩ := h.registerEvent_eq hobj hkept
  have hgood := h.register hkept
  rw [heq] at hgood
  have hnone : ctrl.handlers (ctrl.h + 1) = none := by
    cases hv : ctrl.handlers (ctrl.h + 1) with
    | none => rfl
    | some v =>
      have := (h.found _ v hv).2.1
      omega
  have hself : ctrl'.handlers (ctrl.h + 1) =
    some ⟨ctrl.h + 1, e, some player, ⟨.inl (), none, .inl rfl⟩, some handle, false⟩ := by
    rw [hhandlers, Function.update_self]
  have hother : ∀ k, k ≠ ctrl.h + 1 → ctrl'.handlers k = ctrl.handlers k := fun k hk => by
    rw [hhandlers, Function.update_of_ne hk]
  refine ⟨ctrl', heq, hgood, hframes, hfresh, htable, fun k v hv => ?_, fun k v hv => ?_, fun e' he' => ?_, fun k hk => ?_,
    fun k hk k' hk' _ _ _ _ _ => ?_⟩
  · have hk : k ≠ ctrl.h + 1 := by
      rintro rfl
      rw [hnone] at hv
      cases hv
    rw [hother k hk, hv]
  · by_cases hk : k = ctrl.h + 1
    · subst hk
      rw [hself] at hv
      cases hv
      exact .inr ⟨List.mem_singleton_self _, rfl, rfl, List.mem_singleton_self _⟩
    · exact .inl (by rw [← hother k hk, hv])
  · rw [List.mem_singleton.1 he']
    exact ⟨_, _, List.mem_singleton_self _, hself, rfl⟩
  · rw [List.mem_singleton.1 hk]
    exact ⟨hnone, _, hself⟩
  · rw [List.mem_singleton.1 hk, List.mem_singleton.1 hk']

theorem registerEvents_adds (defs : Defs χ ε) (handle : Nat) :
    ∀ (events : List ε) (ctrl : Ctrl ε υ) (tb : List ε) (own : List Nat), EventCtrl.Good ctrl →
    OfPlayers ctrl → (∀ e ∈ events, defs.player e = true) → (∀ e ∈ events, Quiet ctrl player e) →
      ∃ ctrl' tb' es ks, registerEvents defs player handle events ctrl tb own = (ctrl', tb', own ++ ks, true) ∧
        Adds player handle ctrl ctrl' es ks ∧ (∀ e, e ∈ tb' ↔ e ∈ tb ∨ e ∈ es) ∧ (∀ e ∈ es, e ∉ tb ∧ e ∈ events) ∧
          ∀ e ∈ events, e ∈ tb'
  | [], ctrl, tb, own, h, _, _, _ =>
    ⟨ctrl, tb, [], [], by rw [registerEvents, List.append_nil], .refl h, by simp, by simp, by simp⟩
  | e :: rest, ctrl, tb, own, h, hobj, hplayer, hquiet => by
    have hrest := fun e' he' => hplayer e' (List.mem_cons_of_mem e he')
    have hqrest := fun e' he' => hquiet e' (List.mem_cons_of_mem e he')
    have hp : ¬defs.player e = false := by rw [hplayer e List.mem_cons_self]; decide
    rw [registerEvents, if_neg hp]
    by_cases htb : e ∈ tb
    · rw [if_pos htb]
      obtain ⟨ctrl', tb', es, ks, heq, hadds, hmem, hes, hall⟩ :=
        registerEvents_adds defs handle rest ctrl tb own h hobj hrest hqrest
      refine ⟨ctrl', tb', es, ks, heq, hadds, hmem, fun e' he' => ⟨(hes e' he').1, List.mem_cons_of_mem _ (hes e' he').2⟩,
        fun e' he' => ?_⟩
      rcases List.mem_cons.1 he' with rfl | he'
      · exact (hmem e').2 (.inl htb)
      · exact hall e' he'
    · rw [if_neg htb]
      obtain ⟨ctrl₁, heq₁, hadds₁⟩ := Adds.single handle h hobj (hquiet e List.mem_cons_self)
      rw [heq₁]
      dsimp only
      obtain ⟨ctrl', tb', es, ks, heq, hadds, hmem, hes, hall⟩ := registerEvents_adds defs handle rest ctrl₁ (e :: tb)
        (own ++ [ctrl.h + 1]) hadds₁.good (hadds₁.ofPlayers hobj) hrest (fun e' he' => hadds₁.quiet h (hqrest e' he'))
      refine ⟨ctrl', tb', [e] ++ es, [ctrl.h + 1] ++
        ks, by rw [heq, List.append_assoc], hadds₁.trans hadds fun e' he' => ?_,
        fun e' => ?_, fun e' he' => ?_, fun e' he' => ?_⟩
      · intro hmem'
        exact (hes e' he').1 (List.mem_cons.2 (.inl (List.mem_singleton.1 hmem')))
      · rw [hmem e', List.mem_cons, List.mem_append, List.mem_singleton]
        tauto
      · rcases List.mem_append.1 he' with he' | he'
        · rw [List.mem_singleton.1 he']
          exact ⟨htb, List.mem_cons_self⟩
        · exact ⟨fun htb' => (hes e' he').1 (List.mem_cons_of_mem _ htb'), List.mem_cons_of_mem _ (hes e' he').2⟩
      · rcases List.mem_cons.1 he' with rfl | he'
        · exact (hmem e').2 (.inl List.mem_cons_self)
        · exact hall e' he'

theorem registerConds_adds (defs : Defs χ ε) (handle : Nat) :
    ∀ (conditions : List χ) (ctrl : Ctrl ε υ) (tb : List ε) (listeners : List (List Nat)),
    EventCtrl.Good ctrl → OfPlayers ctrl → defs.Sound conditions →
      (∀ c ∈ conditions, ∀ e ∈ (defs.triggerEvents c).getD [], Quiet ctrl player e) →
        ∃ ctrl' new es, registerConds defs player handle conditions ctrl tb listeners = (ctrl', listeners ++ new, true) ∧
          Adds player handle ctrl ctrl' es new.flatten ∧
          (∀ e ∈ es, e ∉ tb ∧ ∃ c ∈ conditions, e ∈ (defs.triggerEvents c).getD []) ∧
          ∀ c ∈ conditions, ∀ e ∈ (defs.triggerEvents c).getD [], e ∈ tb ∨ e ∈ es
  | [], ctrl, tb, listeners, h, _, _, _ =>
    ⟨ctrl, [], [], by rw [registerConds, List.append_nil], .refl h, by simp, by simp⟩
  | c :: rest, ctrl, tb, listeners, h, hobj, hsound, hquiet => by
    obtain ⟨hsome, hplayer⟩ := hsound c List.mem_cons_self
    obtain ⟨events, hevents⟩ := Option.isSome_iff_exists.1 hsome
    have hget : (defs.triggerEvents c).getD [] = events := by rw [hevents]; rfl
    have hq := hquiet c List.mem_cons_self
    rw [hget] at hplayer hq
    obtain ⟨ctrl₁, tb₁, es₁, ks₁, heq₁, hadds₁, hmem₁, hes₁, hall₁⟩ :=
      registerEvents_adds defs handle events ctrl tb [] h hobj hplayer hq
    obtain ⟨ctrl', new, es, heq, hadds, hes, hall⟩ :=
      registerConds_adds defs handle rest ctrl₁ tb₁ (listeners ++ [ks₁]) hadds₁.good
      (hadds₁.ofPlayers hobj) (fun c' hc' => hsound c' (List.mem_cons_of_mem _ hc'))
      (fun c' hc' e he => hadds₁.quiet h (hquiet c' (List.mem_cons_of_mem _ hc') e he))
    refine ⟨ctrl', [ks₁] ++ new, es₁ ++ es, ?_, ?_, fun e he => ?_, fun c' hc' e he => ?_⟩
    · rw [registerConds, hevents]
      dsimp only
      rw [heq₁]
      dsimp only
      rw [List.nil_append, heq, List.append_assoc]
    · rw [List.flatten_append, List.flatten_singleton]
      exact hadds₁.trans hadds fun e he hmem => (hes e he).1 ((hmem₁ e).2 (.inr hmem))
    · rcases List.mem_append.1 he with he | he
      · exact ⟨(hes₁ e he).1, c, List.mem_cons_self, by rw [hget]; exact (hes₁ e he).2⟩
      · obtain ⟨hnot, c', hc', hec'⟩ := hes e he
        exact ⟨fun htb => hnot ((hmem₁ e).2 (.inl htb)), c', List.mem_cons_of_mem _ hc', hec'⟩
    · have hin : e ∈ tb₁ ∨ e ∈ es := by
        rcases List.mem_cons.1 hc' with rfl | hc'
        · rw [hget] at he
          exact .inl (hall₁ e he)
        · exact hall c' hc' e he
      rcases hin with hin | hin
      · exact ((hmem₁ e).1 hin).imp_right fun h => List.mem_append_left _ h
      · exact .inr (List.mem_append_right _ hin)

/-! ## What is known between two events -/

structure Good (defs : Defs χ ε) (w : World χ ε υ φ β) : Prop where
  ctrl : EventCtrl.Good w.ctrl
  listeners : w.Listeners defs
  owns : ∀ n context, w.contexts.lookup n = some context → n < w.nextHandle ∧ w.regs n = some context.cb ∧
    context.isMeet = (w.evals n).getLast? ∧
      ∀ k, k ∈ context.listeners.flatten ↔ ∃ v, w.ctrl.handlers k = some v ∧ v.params = some n
  reports : ∀ n cb, w.regs n = some cb → w.callsOf n =
    ((w.evals n).destutter (· ≠ ·)).map (fun isMeet => ⟨cb.call, isMeet, n⟩)
  unused : ∀ n, w.regs n = none → w.evals n = [] ∧ w.callsOf n = []
  fresh : ∀ n, w.nextHandle ≤ n → w.regs n = none

/-- A registration that has not been evaluated is still to be, by the loop of `start` or a coroutine. -/
structure Waits (w : World χ ε υ φ β) : Prop where
  runs : w.starting.isSome = true → w.started = true
  waits : w.started = true → ∀ n context, w.contexts.lookup n = some context →
    w.evals n ≠ [] ∨ n ∈ w.forks ∨ ∃ ns, w.starting = some ns ∧ n ∈ ns

omit [DecidableEq ε] in
theorem good_init : Good defs (World.init : World χ ε υ φ β) where
  ctrl := EventCtrl.good_start
  listeners := ⟨fun _ _ hv => (nomatch hv), fun _ _ _ hn => (nomatch hn), fun _ _ _ _ hv => (nomatch hv)⟩
  owns n context h := by cases h
  reports n cb h := by cases h
  unused n _ := ⟨rfl, rfl⟩
  fresh n _ := rfl

omit [DecidableEq ε] in
theorem Good.ofPlayers (h : Good defs w) : OfPlayers w.ctrl := by
  intro k v hv
  obtain ⟨n, context, -, -, ho, -⟩ := h.listeners.live k v hv
  rw [ho]
  rfl

omit [DecidableEq ε] in
theorem Good.setCtrl (h : Good defs w) {ctrl : Ctrl ε υ} (hctrl : EventCtrl.Good ctrl)
    (hhandlers : ctrl.handlers = w.ctrl.handlers) : Good defs { w with ctrl := ctrl } := by
  refine ⟨hctrl, ⟨?_, ?_, ?_⟩, ?_, h.reports, h.unused, h.fresh⟩
  · dsimp only
    rw [hhandlers]
    exact h.listeners.live
  · dsimp only
    rw [hhandlers]
    exact h.listeners.each
  · dsimp only
    rw [hhandlers]
    exact h.listeners.once
  · dsimp only
    rw [hhandlers]
    exact h.owns

omit [DecidableEq ε] in
theorem Good.skip (h : Good defs w) : Good defs { w with nextHandle := w.nextHandle + 1 } := by
  refine ⟨h.ctrl, ⟨h.listeners.live, h.listeners.each, h.listeners.once⟩, fun n context hn => ?_, h.reports, h.unused,
    fun n hn => h.fresh n (Nat.le_of_succ_le hn)⟩
  obtain ⟨hlt, hrest⟩ := h.owns n context hn
  exact ⟨Nat.lt_succ_of_lt hlt, hrest⟩

theorem registerConds_fails {conditions : List χ} (hne : conditions ≠ []) (hfails : defs.Fails conditions) :
    registerConds defs player handle conditions ctrl [] [] = (ctrl, [], false) := by
  obtain ⟨c, rest, rfl⟩ := List.exists_cons_of_ne_nil hne
  have hfirst := hfails c rfl
  rw [registerConds]
  cases hevents : defs.triggerEvents c with
  | none => rfl
  | some events =>
    cases events with
    | nil => exact absurd hevents (defs.some_event c)
    | cons e events =>
      rw [hevents] at hfirst
      dsimp only
      rw [registerEvents, if_pos (hfirst e rfl)]

omit [DecidableEq ε] in
theorem Good.add (h : Good defs w) {conditions : List χ} {cb : Callback φ β} {new : List (List Nat)}
    (hadds : Adds player w.nextHandle w.ctrl ctrl es new.flatten)
    (hes : ∀ e, e ∈ es ↔ ∃ c ∈ conditions, e ∈ (defs.triggerEvents c).getD []) {forks : List Nat} :
    Good defs { w with
      nextHandle := w.nextHandle + 1
      ctrl := ctrl
      contexts := w.contexts.insert w.nextHandle ⟨player, conditions, cb, new, none⟩
      forks := forks
      regs := Function.update w.regs w.nextHandle (some cb) } := by
  have htrig : ∀ e, (⟨player, conditions, cb, new, none⟩ : Context χ υ φ β).Triggers defs e ↔ e ∈ es := by
    intro e
    rw [hes]
    refine exists_congr fun c => and_congr_right fun _ => ?_
    cases hevents : defs.triggerEvents c <;> simp
  -- the handle has been used for nothing yet
  have hlive : ∀ k v, w.ctrl.handlers k = some v → v.params ≠ some w.nextHandle := by
    intro k v hv heq
    obtain ⟨n, context, hn, hcontext, -⟩ := h.listeners.live k v hv
    rw [hn, Option.some.injEq] at heq
    have := (h.owns n context hcontext).1
    omega
  have hne : ∀ n context, w.contexts.lookup n = some context → n ≠ w.nextHandle := by
    intro n context hn
    exact (h.owns n context hn).1.ne
  have hregs : w.regs w.nextHandle = none := h.fresh _ le_rfl
  have hnew : ∀ k ∈ new.flatten, ∃ v, ctrl.handlers k = some v ∧ v.params = some w.nextHandle ∧ v.objId = some player ∧
      v.eventId ∈ es := by
    intro k hk
    obtain ⟨hnone, v, hv⟩ := hadds.keys k hk
    rcases hadds.new k v hv with hold | ⟨-, hrest⟩
    · rw [hnone] at hold
      cases hold
    · exact ⟨v, hv, hrest⟩
  refine ⟨hadds.good, ⟨fun k v hv => ?_, fun n context e hn he => ?_, fun k v k' v' hv hv' hp he => ?_⟩,
    fun n context hn => ?_, fun n cb' hn => ?_, fun n hn => ?_, fun n hn => ?_⟩
  · rcases hadds.new k v hv with hv | ⟨-, hp, ho, he⟩
    · obtain ⟨n, context, hn, hcontext, hrest⟩ := h.listeners.live k v hv
      refine ⟨n, context, hn, ?_, hrest⟩
      rw [AList.lookup_insert_ne (hne n context hcontext), hcontext]
    · exact ⟨_, _, hp, AList.lookup_insert _, ho, (htrig _).2 he⟩
  · by_cases hnn : n = w.nextHandle
    · subst hnn
      dsimp only at hn
      rw [AList.lookup_insert] at hn
      cases hn
      obtain ⟨k, v, hk, hv, hve⟩ := hadds.each e ((htrig e).1 he)
      obtain ⟨v', hv', hp, -⟩ := hnew k hk
      rw [hv] at hv'
      cases hv'
      exact ⟨k, v, hv, hp, hve⟩
    · dsimp only at hn
      rw [AList.lookup_insert_ne hnn] at hn
      obtain ⟨k, v, hv, hrest⟩ := h.listeners.each n context e hn he
      exact ⟨k, v, hadds.old k v hv, hrest⟩
  · rcases hadds.new k v hv with hold | ⟨hk, hpk, -⟩ <;> rcases hadds.new k' v' hv' with hold' | ⟨hk', hpk', -⟩
    · exact h.listeners.once k v k' v' hold hold' hp he
    · exact absurd (hp.trans hpk') (hlive k v hold)
    · exact absurd (hp.symm.trans hpk) (hlive k' v' hold')
    · exact hadds.once k hk k' hk' v v' hv hv' he
  · by_cases hnn : n = w.nextHandle
    · subst hnn
      dsimp only at hn ⊢
      rw [AList.lookup_insert] at hn
      cases hn
      refine ⟨Nat.lt_succ_self _, Function.update_self _ _ _,
        by rw [(h.unused _ hregs).1]; rfl, fun k => ⟨fun hk => ?_, ?_⟩⟩
      · obtain ⟨v, hv, hp, -⟩ := hnew k hk
        exact ⟨v, hv, hp⟩
      · rintro ⟨v, hv, hp⟩
        rcases hadds.new k v hv with hold | ⟨hk, -⟩
        · exact absurd hp (hlive k v hold)
        · exact hk
    · dsimp only at hn ⊢
      rw [AList.lookup_insert_ne hnn] at hn
      obtain ⟨hlt, hreg, hmeet, hlist⟩ := h.owns n context hn
      refine ⟨Nat.lt_succ_of_lt hlt, by rw [Function.update_of_ne hnn, hreg], hmeet, fun k => ?_⟩
      rw [hlist]
      constructor
      · rintro ⟨v, hv, hp⟩
        exact ⟨v, hadds.old k v hv, hp⟩
      · rintro ⟨v, hv, hp⟩
        rcases hadds.new k v hv with hold | ⟨-, hpk, -⟩
        · exact ⟨v, hold, hp⟩
        · rw [hp, Option.some.injEq] at hpk
          exact absurd hpk hnn
  · by_cases hnn : n = w.nextHandle
    · subst hnn
      obtain ⟨hevals, hcalls⟩ := h.unused _ hregs
      have hcalls' : w.callsOf w.nextHandle = [] := hcalls
      dsimp only
      rw [hevals]
      exact hcalls'
    · dsimp only at hn
      rw [Function.update_of_ne hnn] at hn
      exact h.reports n cb' hn
  · have hnn : n ≠ w.nextHandle := by
      rintro rfl
      dsimp only at hn
      rw [Function.update_self] at hn
      cases hn
    dsimp only at hn
    rw [Function.update_of_ne hnn] at hn
    exact h.unused n hn
  · dsimp only at hn ⊢
    have hnn : n ≠ w.nextHandle := by omega
    rw [Function.update_of_ne hnn]
    exact h.fresh n (Nat.le_of_succ_le hn)

theorem foldl_unregister (ks : List Nat) : ∀ ctrl : Ctrl ε υ, EventCtrl.Good ctrl →
    EventCtrl.Good (ks.foldl EventCtrl.World.unregisterEvent ctrl) ∧
      ∀ k, (ks.foldl EventCtrl.World.unregisterEvent ctrl).handlers k = if k ∈ ks then none else ctrl.handlers k := by
  induction ks with
  | nil => exact fun ctrl h => ⟨h, fun k => rfl⟩
  | cons k' ks ih =>
    intro ctrl h
    obtain ⟨hgood, hhandlers⟩ := ih _ (h.unregister k')
    refine ⟨hgood, fun k => ?_⟩
    rw [List.foldl_cons, hhandlers, (h.unregisterEvent_handlers k').1]
    by_cases hk : k = k'
    · subst hk
      rw [if_pos List.mem_cons_self, Function.update_self, ite_self]
    · rw [Function.update_of_ne hk]
      simp only [List.mem_cons, hk, false_or]

theorem Good.unregister (h : Good defs w) (n : Nat) : Good defs (w.unregister n) := by
  unfold World.unregister
  split
  · exact h
  · rename_i context hn
    obtain ⟨hgood, hhandlers⟩ := foldl_unregister context.listeners.flatten w.ctrl h.ctrl
    -- what is left are the listeners of the others
    have hleft : ∀ k v, (context.listeners.flatten.foldl EventCtrl.World.unregisterEvent w.ctrl).handlers k = some v ↔
        w.ctrl.handlers k = some v ∧ v.params ≠ some n := by
      intro k v
      rw [hhandlers]
      have hmem := (h.owns n context hn).2.2.2 k
      split_ifs with hk
      · obtain ⟨v', hv', hp⟩ := hmem.1 hk
        refine ⟨fun hv => (by cases hv), ?_⟩
        rintro ⟨hv, hne⟩
        rw [hv'] at hv
        cases hv
        exact absurd hp hne
      · exact ⟨fun hv => ⟨hv, fun hp => hk (hmem.2 ⟨v, hv, hp⟩)⟩, And.left⟩
    refine ⟨hgood, ⟨fun k v hv => ?_, fun m context' e hm he => ?_, fun k v k' v' hv hv' => ?_⟩, fun m context' hm => ?_,
      h.reports, h.unused, h.fresh⟩
    · obtain ⟨hv, hne⟩ := (hleft k v).1 hv
      obtain ⟨m, context', hm, hcontext, hrest⟩ := h.listeners.live k v hv
      have hmn : m ≠ n := by
        rintro rfl
        exact hne hm
      refine ⟨m, context', hm, ?_, hrest⟩
      dsimp only
      rw [AList.lookup_erase_ne hmn, hcontext]
    · have hmn : m ≠ n := by
        rintro rfl
        dsimp only at hm
        rw [AList.lookup_erase] at hm
        cases hm
      dsimp only at hm
      rw [AList.lookup_erase_ne hmn] at hm
      obtain ⟨k, v, hv, hp, hve⟩ := h.listeners.each m context' e hm he
      refine ⟨k, v, (hleft k v).2 ⟨hv, fun heq => hmn ?_⟩, hp, hve⟩
      exact Option.some.inj (hp.symm.trans heq)
    · exact h.listeners.once k v k' v' ((hleft k v).1 hv).1 ((hleft k' v').1 hv').1
    · have hmn : m ≠ n := by
        rintro rfl
        dsimp only at hm
        rw [AList.lookup_erase] at hm
        cases hm
      dsimp only at hm
      rw [AList.lookup_erase_ne hmn] at hm
      obtain ⟨hlt, hreg, hmeet, hlist⟩ := h.owns m context' hm
      refine ⟨hlt, hreg, hmeet, fun k => ?_⟩
      rw [hlist]
      refine exists_congr fun v => ?_
      dsimp only
      rw [hleft, and_assoc]
      refine and_congr_right fun _ => ⟨fun hp => ⟨fun heq => hmn (Option.some.inj (hp.symm.trans heq)), hp⟩, And.right⟩

theorem destutter'_append (b : Bool) : ∀ (l : List Bool) (a : Bool), (l ++ [b]).destutter' (· ≠ ·) a =
    l.destutter' (· ≠ ·) a ++ if (a :: l).getLast? = some b then [] else [b]
  | [], a => by cases a <;> cases b <;> rfl
  | c :: l, a => by
    rw [List.cons_append, List.destutter'_cons, List.destutter'_cons, List.getLast?_cons_cons]
    split_ifs with hac hlast
    · rw [destutter'_append b l c, if_pos hlast]
      simp
    · rw [destutter'_append b l c, if_neg hlast]
      simp
    · rw [destutter'_append b l a, not_not.1 hac, if_pos ‹_›]
    · rw [destutter'_append b l a, not_not.1 hac, if_neg ‹_›]

theorem destutter_append (l : List Bool) (b : Bool) :
    (l ++ [b]).destutter (· ≠ ·) = l.destutter (· ≠ ·) ++ if l.getLast? = some b then [] else [b] := by
  cases l with
  | nil => rfl
  | cons a l =>
    rw [List.cons_append, List.destutter_cons', List.destutter_cons', destutter'_append]

/-- The registration `n` has been evaluated to `b`. -/
structure Evaluates (w w' : World χ ε υ φ β) (n : Nat) (context : Context χ υ φ β) (b : Bool) : Prop where
  ctrl : w'.ctrl = w.ctrl
  nextHandle : w'.nextHandle = w.nextHandle
  regs : w'.regs = w.regs
  started : w'.started = w.started
  starting : w'.starting = w.starting
  forks : w'.forks = w.forks
  self : w'.contexts.lookup n = some { context with isMeet := some b }
  other : ∀ m, m ≠ n → w'.contexts.lookup m = w.contexts.lookup m
  evals : w'.evals = Function.update w.evals n (w.evals n ++ [b])
  calls : w'.calls = w.calls ++ if context.isMeet = some b then [] else [⟨context.cb.call, b, n⟩]

omit [DecidableEq ε] [DecidableEq υ] in
theorem cbEvent_idle {n : Nat} (h : w.started = true → w.contexts.lookup n = none) (truth : χ → Bool) (raises : Bool) :
    w.cbEvent n truth raises = (w, false) := by
  unfold World.cbEvent
  split_ifs with hs
  · rfl
  · rw [h (by simpa using hs)]

theorem reports_bare {cb : Callback φ β} (h : cb.cbobj.isNone = true) (raises : Bool) :
    reports raises cb = ([cb.call], raises) := by
  obtain ⟨cb, cbobj, ok⟩ := cb
  have hnone : cbobj = none := Option.isNone_iff_eq_none.1 h
  subst hnone
  cases cb with
  | inl cb => rfl
  | inr name => exact absurd ok (by simp)

omit [DecidableEq ε] [DecidableEq υ] in
theorem cbEvent_evaluates {n : Nat} {context : Context χ υ φ β} {truth : χ → Bool} (hs : w.started = true)
    (hn : w.contexts.lookup n = some context) (hbare : w.Bare n truth) (raises : Bool) :
    Evaluates w (w.cbEvent n truth raises).1 n context (context.conditions.all truth) ∧
      ((w.cbEvent n truth raises).2 = true → w.changes n truth = true ∧ raises = true) := by
  have hchanges : w.changes n truth = decide (context.isMeet ≠ some (context.conditions.all truth)) := by
    rw [World.changes, hn, hs]
    rfl
  unfold World.cbEvent
  rw [if_neg (by rw [hs]; decide), hn]
  dsimp only
  split_ifs with hne
  · have hch : w.changes n truth = true := by
      rw [hchanges]
      exact decide_eq_true hne.symm
    have hobj := hbare hch
    rw [hn] at hobj
    rw [reports_bare hobj raises]
    refine ⟨⟨rfl, rfl, rfl, rfl, rfl, rfl, AList.lookup_insert _, fun m hm => AList.lookup_insert_ne hm, rfl, ?_⟩,
      fun hr => ⟨hch, hr⟩⟩
    rw [if_neg hne.symm]
    rfl
  · have heq : context.isMeet = some (context.conditions.all truth) := (not_not.1 hne).symm
    refine ⟨⟨rfl, rfl, rfl, rfl, rfl, rfl, ?_, fun m _ => rfl, rfl, ?_⟩, fun hr => (by cases hr)⟩
    · dsimp only
      rw [hn, ← heq]
    · rw [if_pos heq, List.append_nil]

omit [DecidableEq ε] [DecidableEq υ] in
theorem Evaluates.callsOf {w' : World χ ε υ φ β} {n m : Nat} {context : Context χ υ φ β} {b : Bool}
    (he : Evaluates w w' n context b) (hm : m ≠ n) : w'.callsOf m = w.callsOf m := by
  rw [World.callsOf, World.callsOf, he.calls, List.filter_append]
  split_ifs
  · rw [List.filter_nil, List.append_nil]
  · rw [List.filter_singleton, decide_eq_false fun heq => hm heq.symm]
    simp

omit [DecidableEq ε] in
theorem Good.evaluates (h : Good defs w) {w' : World χ ε υ φ β} {n : Nat} {context : Context χ υ φ β} {b : Bool}
    (hn : w.contexts.lookup n = some context) (he : Evaluates w w' n context b) : Good defs w' := by
  -- the registrations are those there were, with other values
  have hold : ∀ m context', w'.contexts.lookup m = some context' → ∃ context₀, w.contexts.lookup m = some context₀ ∧
      context'.player = context₀.player ∧ context'.conditions = context₀.conditions ∧ context'.cb = context₀.cb ∧
      context'.listeners = context₀.listeners := by
    intro m context' hm
    by_cases hmn : m = n
    · subst hmn
      rw [he.self] at hm
      cases hm
      exact ⟨context, hn, rfl, rfl, rfl, rfl⟩
    · rw [he.other m hmn] at hm
      exact ⟨context', hm, rfl, rfl, rfl, rfl⟩
  have hnew : ∀ m context₀, w.contexts.lookup m = some context₀ → ∃ context', w'.contexts.lookup m = some context' ∧
      context'.player = context₀.player ∧ context'.conditions = context₀.conditions := by
    intro m context₀ hm
    by_cases hmn : m = n
    · subst hmn
      rw [hn] at hm
      cases hm
      exact ⟨_, he.self, rfl, rfl⟩
    · exact ⟨context₀, by rw [he.other m hmn, hm], rfl, rfl⟩
  refine ⟨he.ctrl ▸ h.ctrl, ⟨fun k v hv => ?_, fun m context' e hm htrig => ?_, fun k v k' v' hv hv' => ?_⟩,
    fun m context' hm => ?_, fun m cb hm => ?_, fun m hm => ?_, fun m hm => ?_⟩
  · rw [he.ctrl] at hv
    obtain ⟨m, context₀, hm, hcontext, ho, htrig⟩ := h.listeners.live k v hv
    obtain ⟨context', hlook, hplayer, hconditions⟩ := hnew m context₀ hcontext
    refine ⟨m, context', hm, hlook, by rw [ho, hplayer], ?_⟩
    rw [Context.Triggers, hconditions]
    exact htrig
  · obtain ⟨context₀, hcontext, -, hconditions, -⟩ := hold m context' hm
    rw [Context.Triggers, hconditions] at htrig
    obtain ⟨k, v, hv, hrest⟩ := h.listeners.each m context₀ e hcontext htrig
    exact ⟨k, v, by rw [he.ctrl, hv], hrest⟩
  · rw [he.ctrl] at hv hv'
    exact h.listeners.once k v k' v' hv hv'
  · obtain ⟨context₀, hcontext, -, -, hcb, hlisteners⟩ := hold m context' hm
    obtain ⟨hlt, hreg, hmeet, hlist⟩ := h.owns m context₀ hcontext
    refine ⟨by rw [he.nextHandle]; exact hlt, by rw [he.regs, hreg, hcb], ?_, by rw [hlisteners, he.ctrl]; exact hlist⟩
    rw [he.evals]
    by_cases hmn : m = n
    · subst hmn
      rw [he.self] at hm
      cases hm
      rw [Function.update_self, List.getLast?_concat]
    · rw [he.other m hmn, hcontext] at hm
      cases hm
      rw [Function.update_of_ne hmn, hmeet]
  · rw [he.regs] at hm
    by_cases hmn : m = n
    · subst hmn
      obtain ⟨-, hreg, hmeet, -⟩ := h.owns m context hn
      rw [hm, Option.some.injEq] at hreg
      subst hreg
      have hcalls := h.reports m _ hm
      rw [World.callsOf] at hcalls ⊢
      rw [he.calls, he.evals, Function.update_self, List.filter_append, hcalls, destutter_append, hmeet, List.map_append]
      split_ifs
      · rfl
      · simp
    · rw [he.callsOf hmn, he.evals, Function.update_of_ne hmn]
      exact h.reports m cb hm
  · rw [he.regs] at hm
    have hmn : m ≠ n := by
      rintro rfl
      rw [(h.owns m context hn).2.1] at hm
      cases hm
    rw [he.callsOf hmn, he.evals, Function.update_of_ne hmn]
    exact h.unused m hm
  · rw [he.nextHandle] at hm
    rw [he.regs]
    exact h.fresh m hm

omit [DecidableEq ε] in
theorem Good.cbEvent (h : Good defs w) {n : Nat} {truth : χ → Bool} (hbare : w.Bare n truth) (raises : Bool) :
    Good defs (w.cbEvent n truth raises).1 := by
  by_cases hs : w.started = true
  · cases hn : w.contexts.lookup n with
    | none =>
      rw [cbEvent_idle (fun _ => hn)]
      exact h
    | some context => exact h.evaluates hn (cbEvent_evaluates hs hn hbare raises).1
  · rw [cbEvent_idle (fun h => absurd h hs)]
    exact h

omit [DecidableEq ε] [DecidableEq υ] in
theorem waits_cbEvent (hruns : w.starting.isSome = true → w.started = true) {n : Nat} {truth : χ → Bool}
    (hwaits : w.started = true → ∀ m, m ≠ n → ∀ context, w.contexts.lookup m = some context →
      w.evals m ≠ [] ∨ m ∈ w.forks ∨ ∃ ns, w.starting = some ns ∧ m ∈ ns) (hbare : w.Bare n truth) (raises : Bool) :
    Waits (w.cbEvent n truth raises).1 := by
  by_cases hs : w.started = true
  · cases hn : w.contexts.lookup n with
    | none =>
      rw [cbEvent_idle (fun _ => hn)]
      refine ⟨hruns, fun _ m context hm => hwaits hs m ?_ context hm⟩
      rintro rfl
      rw [hn] at hm
      cases hm
    | some context =>
      obtain ⟨he, -⟩ := cbEvent_evaluates hs hn hbare raises
      refine ⟨fun _ => by rw [he.started, hs], fun _ m context' hm => ?_⟩
      rw [he.evals, he.forks, he.starting]
      by_cases hmn : m = n
      · subst hmn
        exact .inl (by simp)
      · rw [he.other m hmn] at hm
        rw [Function.update_of_ne hmn]
        exact hwaits hs m hmn context' hm
  · rw [cbEvent_idle (fun h => absurd h hs)]
    exact ⟨hruns, fun h => absurd h hs⟩

omit [DecidableEq ε] [DecidableEq υ] in
theorem callsOf_cbEvent {n m : Nat} {truth : χ → Bool} (hbare : w.Bare n truth) (raises : Bool)
    (hm : w.contexts.lookup m = none) : (w.cbEvent n truth raises).1.callsOf m = w.callsOf m := by
  by_cases hs : w.started = true
  · cases hn : w.contexts.lookup n with
    | none => rw [cbEvent_idle (fun _ => hn)]
    | some context =>
      refine (cbEvent_evaluates hs hn hbare raises).1.callsOf ?_
      rintro rfl
      rw [hn] at hm
      cases hm
  · rw [cbEvent_idle (fun h => absurd h hs)]

theorem Good.register (h : Good defs w) {conditions : List χ} {cb : Callback φ β}
    (hkept : w.Kept defs (.register player conditions cb)) : Good defs (w.register defs player conditions cb) := by
  unfold World.register
  split_ifs with hempty
  · exact h
  · dsimp only
    rcases hkept with hfails | ⟨hsound, hquiet⟩
    · rw [registerConds_fails (by simpa using hempty) hfails]
      exact h.skip
    · obtain ⟨ctrl', new, es, heq, hadds, hes, hall⟩ := registerConds_adds defs w.nextHandle conditions w.ctrl [] [] h.ctrl
        h.ofPlayers hsound hquiet
      rw [heq, List.nil_append]
      refine h.add hadds fun e => ⟨fun he => (hes e he).2, ?_⟩
      rintro ⟨c, hc, he⟩
      exact (hall c hc e he).resolve_left (List.not_mem_nil)

omit [DecidableEq ε] in
theorem Good.setLoops (h : Good defs w) (started : Bool) (starting : Option (List Nat)) (forks : List Nat) :
    Good defs { w with started := started, starting := starting, forks := forks } :=
  ⟨h.ctrl, ⟨h.listeners.live, h.listeners.each, h.listeners.once⟩, h.owns, h.reports, h.unused, h.fresh⟩

/-- **Every event that meets its condition keeps what is known of the listeners and the calls.** -/
theorem Good.step (h : Good defs w) (e : Event χ ε υ φ β) (hkept : w.Kept defs e) : Good defs (w.step defs e) := by
  cases e with
  | register player conditions cb => exact h.register hkept
  | unregister n => exact h.unregister n
  | start =>
    simp only [World.step, World.start]
    split_ifs
    · exact h
    · exact h.setLoops true _ w.forks
  | first n truth raises =>
    simp only [World.step, World.first]
    split
    · exact h
    · rename_i ns hns
      split_ifs with hmem hr
      · exact ((h.setLoops w.started (some (ns.erase n)) w.forks).cbEvent (hkept ns hns hmem).1 raises).setLoops _ none _
      · exact (h.setLoops w.started (some (ns.erase n)) w.forks).cbEvent (hkept ns hns hmem).1 raises
      · exact h
  | fork n truth raises =>
    simp only [World.step, World.fork]
    split_ifs with hmem
    · exact (h.setLoops w.started w.starting (w.forks.erase n)).cbEvent (hkept hmem) raises
    · exact h
  | dispatch player eventId =>
    simp only [World.step, World.dispatch]
    split_ifs with hsome
    · obtain ⟨t, ht⟩ := Option.isSome_iff_exists.1 hsome
      exact h.setCtrl (h.ctrl.dispatch ht) (by rw [EventCtrl.World.dispatchEvent, ht])
    · exact h
  | turn i k truth raises =>
    simp only [World.step, World.turn]
    split
    · exact h
    · rename_i n hn
      exact (h.setCtrl (h.ctrl.turn i k) (EventCtrl.turn_handlers _ _ _)).cbEvent (hkept n hn) raises
  | done i => exact h.setCtrl (h.ctrl.done i) (EventCtrl.done_handlers _ _)
  | fail i => exact h.setCtrl (h.ctrl.fail i) (EventCtrl.fail_handlers _ _)

theorem Waits.register (h : Waits w) (conditions : List χ) (cb : Callback φ β) :
    Waits (w.register defs player conditions cb) := by
  unfold World.register
  split_ifs
  · exact h
  · dsimp only
    split
    · exact ⟨h.runs, h.waits⟩
    · refine ⟨h.runs, fun (hs : w.started = true) m context hm => ?_⟩
      dsimp only at hm ⊢
      rw [if_pos hs]
      by_cases hmn : m = w.nextHandle
      · exact .inr (.inl (List.mem_append_right _ (List.mem_singleton.2 hmn)))
      · rw [AList.lookup_insert_ne hmn] at hm
        exact (h.waits hs m context hm).imp_right (Or.imp_left (List.mem_append_left _))

theorem Waits.unregister (h : Waits w) (n : Nat) : Waits (w.unregister n) := by
  unfold World.unregister
  split
  · exact h
  · refine ⟨h.runs, fun hs m context hm => ?_⟩
    by_cases hmn : m = n
    · subst hmn
      dsimp only at hm
      rw [AList.lookup_erase] at hm
      cases hm
    · dsimp only at hm
      rw [AList.lookup_erase_ne hmn] at hm
      exact h.waits hs m context hm

theorem Waits.step (h : Waits w) (e : Event χ ε υ φ β) (hkept : w.Kept defs e) : Waits (w.step defs e) := by
  cases e with
  | register player conditions cb => exact h.register conditions cb
  | unregister n => exact h.unregister n
  | start =>
    simp only [World.step, World.start]
    split_ifs
    · exact h
    · exact ⟨fun _ => rfl, fun _ m context hm => .inr (.inr ⟨_, rfl, AList.lookup_isSome.1 (by rw [hm]; rfl)⟩)⟩
  | first n truth raises =>
    simp only [World.step, World.first]
    split
    · exact h
    · rename_i ns hns
      split_ifs with hmem hr
      · -- nothing is raised
        obtain ⟨hbare, hquiet⟩ := hkept ns hns hmem
        have hs : w.started = true := h.runs (by rw [hns]; rfl)
        cases hn : w.contexts.lookup n with
        | none =>
          rw [cbEvent_idle (w := { w with starting := some (ns.erase n) }) (fun _ => hn)] at hr
          cases hr
        | some context =>
          obtain ⟨hch, hraises⟩ := (cbEvent_evaluates (w :=
            { w with starting := some (ns.erase n) }) hs hn hbare raises).2 hr
          rw [hquiet hch] at hraises
          cases hraises
      · refine waits_cbEvent (w := { w with starting := some (ns.erase n) }) (fun _ => h.runs (by rw [hns]; rfl))
          (fun hs m hm context hlook => ?_) (hkept ns hns hmem).1 raises
        refine (h.waits hs m context hlook).imp_right (Or.imp_right ?_)
        rintro ⟨ns', hns', hmem'⟩
        rw [hns] at hns'
        cases hns'
        exact ⟨_, rfl, (List.mem_erase_of_ne hm).2 hmem'⟩
      · exact h
  | fork n truth raises =>
    simp only [World.step, World.fork]
    split_ifs with hmem
    · refine waits_cbEvent (w := { w with forks := w.forks.erase n }) h.runs (fun hs m hm context hlook => ?_) (hkept hmem)
        raises
      exact (h.waits hs m context hlook).imp_right (Or.imp_left (List.mem_erase_of_ne hm).2)
    · exact h
  | dispatch player eventId =>
    simp only [World.step, World.dispatch]
    split_ifs
    · exact ⟨h.runs, h.waits⟩
    · exact h
  | turn i k truth raises =>
    simp only [World.step, World.turn]
    split
    · exact h
    · rename_i n hn
      exact waits_cbEvent (w := { w with ctrl := w.ctrl.turn i k }) h.runs (fun hs m _ => h.waits hs m) (hkept n hn) raises
  | done i => exact ⟨h.runs, h.waits⟩
  | fail i => exact ⟨h.runs, h.waits⟩

theorem silent_step (e : Event χ ε υ φ β) (hkept : w.Kept defs e) {m : Nat} (hm : w.contexts.lookup m = none) :
    (w.step defs e).callsOf m = w.callsOf m := by
  cases e with
  | register player conditions cb =>
    simp only [World.step, World.register]
    split
    · rfl
    · split <;> rfl
  | unregister n =>
    simp only [World.step, World.unregister]
    split <;> rfl
  | start =>
    simp only [World.step, World.start]
    split_ifs <;> rfl
  | first n truth raises =>
    simp only [World.step, World.first]
    split
    · rfl
    · rename_i ns hns
      split_ifs with hmem
      · exact callsOf_cbEvent (w := { w with starting := some (ns.erase n) }) (hkept ns hns hmem).1 raises hm
      · exact callsOf_cbEvent (w := { w with starting := some (ns.erase n) }) (hkept ns hns hmem).1 raises hm
      · rfl
  | fork n truth raises =>
    simp only [World.step, World.fork]
    split_ifs with hmem
    · exact callsOf_cbEvent (w := { w with forks := w.forks.erase n }) (hkept hmem) raises hm
    · rfl
  | dispatch player eventId =>
    simp only [World.step, World.dispatch]
    split_ifs <;> rfl
  | turn i k truth raises =>
    simp only [World.step, World.turn]
    split
    · rfl
    · rename_i n hn
      exact callsOf_cbEvent (w := { w with ctrl := w.ctrl.turn i k }) (hkept n hn) raises hm
  | done i => rfl
  | fail i => rfl

theorem Good.right (h : Good defs w) (hwaits : Waits w) (e : Event χ ε υ φ β) (hkept : w.Kept defs e) :
    w.Right defs e where
  listeners := (h.step e hkept).listeners
  reports := (h.step e hkept).reports
  silent n hn := silent_step e hkept hn
  reached i f he hf hrun := by
    subst he
    have hended := ((h.ctrl.done i).frame f (List.mem_of_getElem? hf)).ended hrun
    rwa [EventCtrl.done_handlers] at hended
  evaluated hstarting n context hn := by
    have hw := hwaits.step e hkept
    rcases hw.waits (hw.runs (by rw [hstarting]; rfl)) n context hn with hev | hfork | ⟨ns, hns, hmem⟩
    · exact .inl hev
    · exact .inr hfork
    · rw [hstarting, Option.some.injEq] at hns
      subst hns
      cases hmem

/-- **The calls of each callback are the changes of the conjunction of its conditions, and the listeners are those of the
registrations**, in every run in which a registration fails at once or goes through, no listener is added to a table that a
dispatch is going through, no callback that is called has an object, and none that `start` calls raises. -/
theorem reports_of_run (defs : Defs χ ε) (es : List (Event χ ε υ φ β))
    (h : Steps.Along (World.step defs) (World.Kept defs) World.init es) :
    Steps.Along (World.step defs) (World.Right defs) World.init es :=
  Steps.Along.keep (I := fun w => Good defs w ∧ Waits w)
    (fun _ e hkept h => ⟨⟨h.1.step e hkept, h.2.step e hkept⟩, h.1.right h.2 e hkept⟩) es _
    ⟨good_init, fun h => (nomatch h), fun h => (nomatch h)⟩ h

def sameEvent : Defs Nat Nat := ⟨fun c => some [c], fun _ => true, fun _ h => (nomatch h)⟩

theorem reports_twice : Steps.Along (World.step sameEvent) (World.Right sameEvent)
    (World.init : World Nat Nat Nat Nat Nat)
    [.register 1 [5, 6] ⟨.inl 0, none, by decide⟩, .start, .first 1 (fun c => c == 5) false, .dispatch 1 6,
      .turn 0 2 (fun _ => true) false, .done 0, .unregister 1] :=
  reports_of_run _ _ (by decide)

theorem object_twice : ¬∀ es : List (Event Nat Nat Nat Nat Nat),
    Steps.Along (World.step sameEvent) (World.Right sameEvent) World.init es := by
  intro h
  have hright := (h [.register 1 [5] ⟨.inl 0, some 7, by decide⟩, .start, .first 1 (fun _ => true) false]).2.2.1
  have hcalls := congrArg List.length (hright.reports 1 _ rfl)
  revert hcalls
  decide

end CondMgr
end Sncpp
