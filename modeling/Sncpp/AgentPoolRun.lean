import Sncpp.AgentPool
import Sncpp.CoPlain
/-!
# AgentPoolRun — the pool over whole runs

`Inv` says that the counter is the number of cells, that no player has two agents, and where an agent that was not
told to go is to be found: in the cell pooled for its player.  The queue of a cell protects the cell's agent and its
launch, so a launch meets no other one.
-/
namespace Sncpp
namespace AgentPool

open Co (Prog Spec Triple Plain Keeps)
open Co.Prog (get modify check ask when serial serialTake)

structure Inv (s : Pool) : Prop where
  num : s.agentNum = s.agentPool.entries.length
  one : (s.agents.map Agent.uid).Nodup
  own : ∀ a ∈ s.agents, a.leaving = false → ∃ u i, a.uid = some u ∧ s.agentPool.lookup u = some i ∧
    ((s.cells i).agent = some a.id ∨ (s.cells i).launching = some a.id)

def view (s : Pool) (i : Nat) : Option Nat × Option Nat := ((s.cells i).agent, (s.cells i).launching)

def Calm (z : Option Nat × Option Nat) : Prop := z.2 = none

def spec : Spec Pool Nat (Option Nat × Option Nat) where
  view := view
  idle := fun _ => Calm
  handed := fun _ => Calm
  held := fun _ _ => True
  inv := Inv

theorem spec_held (x : Nat) (z : Option Nat × Option Nat) : spec.held x z := trivial

theorem view_setCell (s : Pool) (i : Nat) (f : Cell → Cell) (x : Nat) :
    view (s.setCell i f) x = if x = i then ((f (s.cells i)).agent, (f (s.cells i)).launching) else view s x := by
  unfold view Pool.setCell
  by_cases hx : x = i
  · subst hx
    simp
  · simp [hx]

theorem view_setCell_ne (s : Pool) {i x : Nat} (f : Cell → Cell) (hx : x ≠ i) : view (s.setCell i f) x = view s x := by
  rw [view_setCell, if_neg hx]

/-- **What `own` needs of a change**: the pool stays, and the agents that stay are still in their cells. -/
theorem Inv.of_cells {s s' : Pool} (h : Inv s) (hnum : s'.agentNum = s.agentNum) (hpool : s'.agentPool = s.agentPool)
    (hone : (s'.agents.map Agent.uid).Nodup)
    (hown : ∀ a ∈ s'.agents, a.leaving = false → a ∈ s.agents ∧ ∀ i, view s i ≠ view s' i →
      (s.cells i).agent = some a.id ∨ (s.cells i).launching = some a.id →
      (s'.cells i).agent = some a.id ∨ (s'.cells i).launching = some a.id) : Inv s' := by
  refine ⟨by rw [hnum, hpool, h.num], hone, fun a ha hl => ?_⟩
  obtain ⟨hold, hkeep⟩ := hown a ha hl
  obtain ⟨u, i, hu, hp, hc⟩ := h.own a hold hl
  refine ⟨u, i, hu, by rw [hpool, hp], ?_⟩
  by_cases hv : view s i = view s' i
  · have h1 : (s.cells i).agent = (s'.cells i).agent := congrArg Prod.fst hv
    have h2 : (s.cells i).launching = (s'.cells i).launching := congrArg Prod.snd hv
    rw [← h1, ← h2]
    exact hc
  · exact hkeep i hv hc

theorem Inv.same {s s' : Pool} (h : Inv s) (hnum : s'.agentNum = s.agentNum) (hpool : s'.agentPool = s.agentPool)
    (hagents : s'.agents = s.agents) (hv : ∀ i, view s' i = view s i) : Inv s' := by
  refine h.of_cells hnum hpool (by rw [hagents]; exact h.one) (fun a ha _ => ⟨by rw [← hagents]; exact ha, ?_⟩)
  intro i hne
  exact absurd (hv i).symm hne

theorem setCell_inv {s : Pool} (h : Inv s) (i : Nat) {f : Cell → Cell}
    (hf : ∀ c : Cell, (f c).agent = c.agent ∧ (f c).launching = c.launching) :
    Inv (s.setCell i f) ∧ ∀ x, view (s.setCell i f) x = view s x := by
  have hv : ∀ x, view (s.setCell i f) x = view s x := by
    intro x
    rw [view_setCell]
    split
    · rename_i hx
      rw [hx, (hf _).1, (hf _).2]
      rfl
    · rfl
  exact ⟨h.same rfl rfl rfl hv, hv⟩

theorem dismiss_uid (s : Pool) (a : Nat) : (s.dismiss a).agents.map Agent.uid = s.agents.map Agent.uid := by
  unfold Pool.dismiss
  rw [List.map_map]
  refine List.map_congr_left (fun b _ => ?_)
  show (if b.id = a then { b with leaving := true } else b).uid = b.uid
  split <;> rfl

theorem mem_dismiss {s : Pool} {a : Nat} {b : Agent} (hb : b ∈ (s.dismiss a).agents) (hl : b.leaving = false) :
    b ∈ s.agents ∧ b.id ≠ a := by
  obtain ⟨c, hc, he⟩ := List.mem_map.1 hb
  split at he
  · rw [← he] at hl
    cases hl
  · rename_i hne
    rw [← he]
    exact ⟨hc, hne⟩

theorem dismiss_inv {s : Pool} (h : Inv s) (a : Nat) : Inv (s.dismiss a) ∧ ∀ x, view (s.dismiss a) x = view s x := by
  refine ⟨h.of_cells rfl rfl (by rw [dismiss_uid]; exact h.one) (fun b hb hl => ⟨(mem_dismiss hb hl).1, ?_⟩), fun _ => rfl⟩
  intro i hne
  exact absurd rfl hne

theorem tell_inv {s : Pool} (h : Inv s) (a : Nat) : Inv (s.tell a) := h.same rfl rfl rfl (fun _ => rfl)

theorem dismissOf_inv {s : Pool} (h : Inv s) (i : Nat) :
    Inv (s.dismissOf i) ∧ ∀ x, view (s.dismissOf i) x = view s x := by
  unfold Pool.dismissOf
  split
  · exact dismiss_inv (tell_inv h _) _
  · exact ⟨h, fun _ => rfl⟩

theorem giveUp_inv {s : Pool} (h : Inv s) {i : Nat} {f : Cell → Cell}
    (hf : ∀ c : Cell, (f c).agent = none ∧ (f c).launching = c.launching)
    (hgo : ∀ a ∈ s.agents, a.leaving = false → (s.cells i).agent ≠ some a.id) : Inv (s.setCell i f) := by
  refine h.of_cells rfl rfl h.one (fun a ha hl => ⟨ha, fun x hne hc => ?_⟩)
  have hx : x = i := by
    by_contra hx
    exact hne (view_setCell_ne s f hx).symm
  subst hx
  have hcell : (s.setCell x f).cells x = f (s.cells x) := by simp [Pool.setCell]
  rw [hcell, (hf _).2]
  exact .inr (hc.resolve_left (hgo a ha hl))

theorem dismissOf_going (s : Pool) (i : Nat) : ∀ a ∈ (s.dismissOf i).agents, a.leaving = false →
    ((s.dismissOf i).cells i).agent ≠ some a.id := by
  intro a ha hl he
  unfold Pool.dismissOf at ha he
  split at ha
  · rename_i b hb
    rw [hb] at he
    have hab : b = a.id := Option.some.inj (hb.symm.trans he)
    exact (mem_dismiss ha hl).2 hab.symm
  · rename_i hn
    rw [hn] at he
    rw [hn] at he
    cases he

/-- **A launch**: the cell is pooled for the player, has no agent and launches none, so the player has none. -/
theorem launch_inv {s : Pool} (h : Inv s) {i : Nat} {uid : Option Nat} (hv : view s i = (none, none))
    (hmay : s.mayLaunch i uid = true) : Inv (s.launch i uid) := by
  unfold Pool.mayLaunch at hmay
  rw [Bool.and_eq_true, decide_eq_true_eq, List.all_eq_true] at hmay
  obtain ⟨hp, hgone⟩ := hmay
  obtain ⟨u, rfl, hlook⟩ : ∃ u, uid = some u ∧ s.agentPool.lookup u = some i := by
    cases uid with
    | none => cases hp
    | some u => exact ⟨u, rfl, hp⟩
  have hag : (s.cells i).agent = none := congrArg Prod.fst hv
  have hla : (s.cells i).launching = none := congrArg Prod.snd hv
  -- an agent of the player would be leaving, or in this cell
  have hnone : some u ∉ s.agents.map Agent.uid := by
    intro hm
    obtain ⟨a, ha, hu⟩ := List.mem_map.1 hm
    cases hl : a.leaving with
    | true =>
      have := hgone a ha
      simp [hu, hl] at this
    | false =>
      obtain ⟨u', j, hu', hj, hc⟩ := h.own a ha hl
      have he : u' = u := Option.some.inj (hu'.symm.trans hu)
      rw [he, hlook] at hj
      cases hj
      rw [hag, hla] at hc
      rcases hc with hc | hc <;> cases hc
  refine ⟨h.num, ?_, fun a ha hl => ?_⟩
  · exact List.nodup_cons.2 ⟨hnone, h.one⟩
  · rcases List.mem_cons.1 ha with rfl | ha
    · exact ⟨u, i, rfl, hlook, .inr (by simp [Pool.launch, Pool.setCell])⟩
    · obtain ⟨u', j, hu', hj, hc⟩ := h.own a ha hl
      refine ⟨u', j, hu', hj, ?_⟩
      by_cases hji : j = i
      · rw [hji, hag, hla] at hc
        rcases hc with hc | hc <;> cases hc
      · have hcell : (s.launch i (some u)).cells j = s.cells j := by simp [Pool.launch, Pool.setCell, hji]
        rw [hcell]
        exact hc

theorem launched_inv {s : Pool} (h : Inv s) {i : Nat} (hv : (view s i).1 = none) : Inv (s.launched i) := by
  refine h.of_cells rfl rfl h.one (fun a ha _ => ⟨ha, fun x hne hc => ?_⟩)
  have hx : x = i := by
    by_contra hx
    exact hne (view_setCell_ne s _ hx).symm
  subst hx
  have hcell : ((s.launched x).cells x).agent = (s.cells x).launching := by simp [Pool.launched, Pool.setCell]
  have hno : (s.cells x).agent = none := hv
  rw [hno] at hc
  rw [hcell]
  exact .inl (hc.resolve_left nofun)

theorem abandon_inv {s : Pool} (h : Inv s) (i : Nat) : Inv (s.abandon i) := by
  refine h.of_cells rfl rfl (h.one.sublist (List.Sublist.map _ List.filter_sublist)) (fun a ha _ => ?_)
  obtain ⟨hmem, hne⟩ := List.mem_filter.1 ha
  refine ⟨hmem, fun x hv hc => ?_⟩
  have hx : x = i := by
    by_contra hx
    exact hv (view_setCell_ne s (fun c => { c with launching := none }) hx).symm
  subst hx
  have hcell : ((s.abandon x).cells x).agent = (s.cells x).agent := by simp [Pool.abandon, Pool.setCell]
  rw [hcell]
  exact .inl (hc.resolve_right (fun e => of_decide_eq_true hne e.symm))

theorem addCell_inv {s : Pool} (h : Inv s) {uid : Nat} (hno : (s.agentPool.lookup uid).isNone = true) :
    Inv (s.addCell uid) := by
  have hlook : s.agentPool.lookup uid = none := Option.isNone_iff_eq_none.1 hno
  have hmem : uid ∉ s.agentPool := AList.lookup_eq_none.1 hlook
  refine ⟨?_, h.one, fun a ha hl => ?_⟩
  · have hlen : (s.addCell uid).agentPool.entries.length = s.agentPool.entries.length + 1 := by
      show (AList.insert uid s.nextCell s.agentPool).entries.length = _
      rw [AList.entries_insert_of_notMem hmem, List.length_cons]
    show s.agentNum + 1 = _
    rw [hlen, h.num, Int.natCast_succ]
  · obtain ⟨u, i, hu, hp, hc⟩ := h.own a ha hl
    have hne : u ≠ uid := by
      rintro rfl
      rw [hlook] at hp
      cases hp
    exact ⟨u, i, hu, (AList.lookup_insert_ne hne).trans hp, hc⟩

theorem erase_length {m : AList (fun _ : Nat => Nat)} {uid : Nat} (h : (m.lookup uid).isSome = true) :
    m.entries.length = (m.erase uid).entries.length + 1 := by
  have hmem : uid ∈ m.keys := AList.lookup_isSome.1 h
  have hlen : ∀ m : AList (fun _ : Nat => Nat), m.keys.length = m.entries.length := fun m => List.length_map _
  have hpos := List.length_pos_of_mem hmem
  rw [← hlen, ← hlen, AList.keys_erase, List.length_erase_of_mem hmem]
  omega

theorem removeAgent_inv {s : Pool} (h : Inv s) {uid : Nat}
    (hgo : ∀ i a, s.agentPool.lookup uid = some i → a ∈ s.agents → a.leaving = false →
      (s.cells i).agent ≠ some a.id ∧ (s.cells i).launching ≠ some a.id) : Inv (s.removeAgent uid) := by
  unfold Pool.removeAgent
  split
  · rename_i hsome
    refine ⟨?_, h.one, fun a ha hl => ?_⟩
    · show s.agentNum - 1 = _
      rw [h.num, erase_length hsome, Int.natCast_succ]
      exact Int.add_sub_cancel _ _
    · obtain ⟨u, i, hu, hp, hc⟩ := h.own a ha hl
      have hne : u ≠ uid := by
        rintro rfl
        have := hgo i a hp ha hl
        rcases hc with hc | hc
        · exact this.1 hc
        · exact this.2 hc
      exact ⟨u, i, hu, (AList.lookup_erase_ne hne).trans hp, hc⟩
  · exact h

theorem removeAgent_cells (s : Pool) (uid : Nat) : (s.removeAgent uid).cells = s.cells := by
  unfold Pool.removeAgent
  split <;> rfl

theorem mayRemove_going {s : Pool} {uid : Nat} (h : s.mayRemove uid = true) :
    ∀ i a, s.agentPool.lookup uid = some i → a ∈ s.agents → a.leaving = false →
      (s.cells i).agent ≠ some a.id ∧ (s.cells i).launching ≠ some a.id := by
  intro i a hi ha hl
  unfold Pool.mayRemove at h
  rw [hi] at h
  simp only [Bool.and_eq_true, Option.isNone_iff_eq_none, List.all_eq_true] at h
  obtain ⟨hla, hag⟩ := h
  constructor
  · intro he
    have := hag a ha
    rw [he, hl] at this
    simp at this
  · rw [hla]
    nofun

theorem exit_inv {s : Pool} (h : Inv s) (a : Nat) : Inv (s.exit a) := by
  refine h.of_cells rfl rfl (h.one.sublist (List.Sublist.map _ List.filter_sublist)) (fun b hb _ => ?_)
  exact ⟨(List.mem_filter.1 hb).1, fun _ hne => absurd rfl hne⟩

theorem isGoing_ne {s : Pool} {i a : Nat} (h : s.isGoing a = true) (ha : (s.cells i).agent = some a) :
    ∀ b ∈ s.agents, b.leaving = false → (s.cells i).agent ≠ some b.id := by
  intro b hb hl he
  unfold Pool.isGoing at h
  rw [List.all_eq_true] at h
  have hab : b.id = a := Option.some.inj (he.symm.trans ha)
  have := h b hb
  simp [hab, hl] at this

theorem dismissOf_cells (s : Pool) (i : Nat) : (s.dismissOf i).cells = s.cells := by
  unfold Pool.dismissOf
  split <;> rfl

theorem letGo_inv {s : Pool} (h : Inv s) (i : Nat) {f : Cell → Cell}
    (hf : ∀ c : Cell, (f c).agent = none ∧ (f c).launching = c.launching) : Inv ((s.dismissOf i).setCell i f) :=
  giveUp_inv (dismissOf_inv h i).1 hf (dismissOf_going s i)

theorem letGo_view (s : Pool) (i x : Nat) {f : Cell → Cell}
    (hf : ∀ c : Cell, (f c).agent = none ∧ (f c).launching = c.launching) :
    view ((s.dismissOf i).setCell i f) x = if x = i then (none, (s.cells i).launching) else view s x := by
  have hv : view (s.dismissOf i) x = view s x := by rw [view, dismissOf_cells]; rfl
  rw [view_setCell, dismissOf_cells, (hf _).1, (hf _).2, hv]

theorem letGo_calm {s : Pool} {i : Nat} {f : Cell → Cell}
    (hf : ∀ c : Cell, (f c).agent = none ∧ (f c).launching = c.launching) (h : Calm (view s i)) :
    Calm (view ((s.dismissOf i).setCell i f) i) := by
  rw [letGo_view s i i hf, if_pos rfl]
  exact h

theorem logoutCell_view (s : Pool) (i x : Nat) :
    view (s.logoutCell i) x = if x = i then (none, (s.cells i).launching) else view s x := by
  refine letGo_view s i x (fun c => ?_)
  dsimp only
  split <;> exact ⟨rfl, rfl⟩

theorem logoutCell_calm {s : Pool} {i : Nat} (h : Calm (view s i)) : Calm (view (s.logoutCell i) i) := by
  rw [logoutCell_view, if_pos rfl]
  exact h

theorem logoutCell_inv {s : Pool} (h : Inv s) (i : Nat) : Inv (s.logoutCell i) := by
  refine letGo_inv h i (fun c => ?_)
  dsimp only
  split <;> exact ⟨rfl, rfl⟩

def gateLogout (s : Pool) (uid i : Nat) : Pool := (s.removeAgent uid).setCell i (fun c => { c with status := .free })

theorem gateLogout_view (s : Pool) (uid i x : Nat) : view (gateLogout s uid i) x = view s x := by
  have hv : view (s.removeAgent uid) x = view s x := by rw [view, removeAgent_cells]; rfl
  unfold gateLogout
  rw [view_setCell]
  split
  · rename_i hx
    rw [← hv, hx]
    rfl
  · exact hv

theorem gateLogout_inv {s : Pool} (h : Inv s) {uid i : Nat} (hi : s.agentPool.lookup uid = some i)
    (hcalm : Calm (view s i)) : Inv ((gateLogout s uid i).logoutCell i) := by
  have hout := logoutCell_inv h i
  have hvi : view (s.logoutCell i) i = (none, none) := by
    rw [logoutCell_view, if_pos rfl]
    exact congrArg (Prod.mk none) hcalm
  have hgone : Inv ((s.logoutCell i).removeAgent uid) := by
    refine removeAgent_inv hout (fun j a hj _ _ => ?_)
    have hpool : (s.logoutCell i).agentPool = s.agentPool := by
      unfold Pool.logoutCell Pool.dismissOf
      split <;> rfl
    rw [hpool, hi] at hj
    cases hj
    have h1 : ((s.logoutCell i).cells i).agent = none := congrArg Prod.fst hvi
    have h2 : ((s.logoutCell i).cells i).launching = none := congrArg Prod.snd hvi
    rw [h1, h2]
    exact ⟨nofun, nofun⟩
  have hswap : (gateLogout s uid i).logoutCell i = (s.logoutCell i).removeAgent uid := by
    cases hag : (s.cells i).agent with
    | none => simp [gateLogout, Pool.logoutCell, Pool.dismissOf, Pool.removeAgent, Pool.setCell, hi, hag]
    | some a => simp [gateLogout, Pool.logoutCell, Pool.dismissOf, Pool.removeAgent, Pool.setCell, Pool.dismiss,
        Pool.tell, hi, hag]
  rw [hswap]
  exact hgone

section Programs

variable {may : Req → Reply → Bool}

theorem call_plain (q : Req) : Plain spec may (call q) :=
  Plain.bind (Plain.ask q) (fun _ => Plain.ite (fun _ => Plain.err _) (fun _ => Plain.pure _))

theorem call_unit_plain (q : Req) : Plain spec may (call q >>= fun _ => pure () : PoolCo Unit) :=
  Plain.bind (call_plain q) (fun _ => Plain.pure ())

theorem setCell_plain (i : Nat) {f : Cell → Cell}
    (hf : ∀ c : Cell, (f c).agent = c.agent ∧ (f c).launching = c.launching) :
    Plain spec may (modify (fun s => s.setCell i f) : PoolCo Unit) :=
  Plain.modify (fun _ h => setCell_inv h i hf)

theorem modify_plain {f : Pool → Pool} (hf : ∀ s, (f s).agentNum = s.agentNum ∧ (f s).agentPool = s.agentPool ∧
    (f s).agents = s.agents ∧ (f s).cells = s.cells) : Plain spec may (modify f : PoolCo Unit) := by
  refine Plain.modify (fun s h => ?_)
  obtain ⟨hnum, hpool, hagents, hcells⟩ := hf s
  have hv : ∀ x, view (f s) x = view s x := fun x => by rw [view, hcells]; rfl
  exact ⟨h.same hnum hpool hagents hv, hv⟩

theorem tell_plain (a : Nat) : Plain spec may (modify (fun s => s.tell a) : PoolCo Unit) :=
  Plain.modify (fun _ h => ⟨tell_inv h a, fun _ => rfl⟩)

theorem callOf_plain (i : Nat) (cmd : Cmd) : Plain spec may (callOf i cmd) := by
  refine Plain.get (fun s => ?_)
  split
  · exact Plain.bind (tell_plain _) (fun _ => call_plain _)
  · exact Plain.err _

theorem hotFix_plain (i : Nat) : Plain spec may (hotFix i) :=
  Plain.get (fun _ => Plain.ite (fun _ => Plain.bind (callOf_plain i _).xpcall (fun _ => Plain.pure ()))
    (fun _ => Plain.pure ()))

theorem loginAgent_plain (i : Nat) : Plain spec may (loginAgent i) := by
  refine Plain.bind (hotFix_plain i) (fun _ =>
    Plain.bind (callOf_plain i _) (fun r => Plain.ite (fun _ => ?_) (fun _ => ?_)))
  · exact Plain.bind (setCell_plain i (fun _ => ⟨rfl, rfl⟩)) (fun _ => Plain.pure _)
  · exact Plain.pure _

theorem remove_plain : ∀ uid : Option Nat, Plain spec may (remove uid)
  | none => Plain.pure ()
  | some uid => Plain.checkModify (fun s _ h hc =>
      ⟨removeAgent_inv h (mayRemove_going hc), fun x => by show view _ x = view s x; rw [view, removeAgent_cells]; rfl⟩)

theorem freeCell_plain (i : Nat) : Plain spec may (freeCell i) :=
  Plain.get (fun _ => Plain.bind (remove_plain _) (fun _ => Plain.bind (call_plain _) (fun _ => Plain.pure _)))

theorem leaveGate_plain (i : Nat) : Plain spec may (leaveGate i) :=
  Plain.get (fun _ => Plain.ite (fun _ => Plain.bind (call_plain _) (fun _ => setCell_plain i (fun _ => ⟨rfl, rfl⟩)))
    (fun _ => Plain.pure ()))

theorem forward_plain (a : Nat) (wait : Bool) : Plain spec may (forward a wait) :=
  Plain.bind (tell_plain a) (fun _ => Plain.ite (fun _ => call_unit_plain _) (fun _ => Plain.pure ()))

theorem afkBody_plain (i : Nat) : Plain spec may (afkBody i) :=
  Plain.get (fun _ => Plain.ite (fun _ => Plain.pure ()) (fun _ =>
    Plain.bind (setCell_plain i (fun _ => ⟨rfl, rfl⟩)) (fun _ => Plain.bind (callOf_plain i _) (fun _ => Plain.pure ()))))

theorem fixStart_plain (i uid : Nat) : Plain spec may (fixStart i uid) := by
  refine Plain.get (fun s => Plain.ite (fun _ => ?_) (fun _ => Plain.pure ()))
  refine Plain.bind (modify_plain ?_) (fun _ => Plain.ite (fun _ => Plain.pure ()) (fun _ => ?_))
  · exact fun _ => ⟨rfl, rfl, rfl, rfl⟩
  · exact Plain.bind (Plain.modify (fun _ h => dismissOf_inv h i)) (fun _ => remove_plain _)

/-! Inside a cell's queue: each body starts and ends with no launch under way. -/

theorem Plain.calm {α : Type} {p : PoolCo α} (hp : Plain spec may p) {i : Nat} {pre : Option Nat × Option Nat → Prop}
    (hpre : ∀ z, pre z → Calm z) : Triple spec may i pre p (fun _ => Calm) Calm :=
  hp.triple spec_held i (fun _ => hpre) hpre

theorem launchAgent_triple (i : Nat) (uid kid : Option Nat) :
    Triple spec may i (fun z => z = (none, none)) (launchAgent i uid kid) (fun _ => Calm) Calm := by
  refine Triple.checkModify (M := fun z => z.1 = none) ?_ ?_ ?_
  · exact fun s x hx => view_setCell_ne s (fun c => { c with launching := some s.nextAgent }) hx
  · intro s _ hi hv hmay
    refine ⟨launch_inv hi hv hmay, ?_⟩
    show ((s.launch i uid).cells i).agent = none
    have hno : (s.cells i).agent = none := congrArg Prod.fst hv
    simp [Pool.launch, Pool.setCell, hno]
  refine Triple.bind (Triple.ask (fun _ _ => trivial) (fun _ _ _ hz => hz)) (fun r =>
    Triple.ite (fun _ => ?_) (fun _ => ?_))
  · refine Triple.bind (M := fun _ => Calm) (Triple.modify ?_ ?_) (fun _ => Triple.err (fun _ hz => hz))
    · exact fun s x hx => view_setCell_ne s (fun c => { c with launching := none }) hx
    · intro s hi _
      refine ⟨abandon_inv hi i, ?_⟩
      show ((s.abandon i).cells i).launching = none
      simp [Pool.abandon, Pool.setCell]
  · refine Triple.bind (M := fun _ => Calm) (Triple.modify ?_ ?_) (fun _ =>
      Plain.calm (loginAgent_plain i) (fun _ hz => hz))
    · exact fun s x hx => view_setCell_ne s _ hx
    · intro s hi hv
      refine ⟨launched_inv hi hv, ?_⟩
      show ((s.launched i).cells i).launching = none
      simp [Pool.launched, Pool.setCell]

theorem loginBody_triple (i : Nat) (uid kid : Option Nat) (subid : Nat) :
    Triple spec may i Calm (loginBody i uid kid subid) (fun _ => Calm) Calm := by
  refine Triple.get (fun s _ hcalm => ?_)
  have hstay : ∀ z, z = view s i → Calm z := fun z hz => by rw [hz]; exact hcalm
  refine Triple.ite (fun _ => Triple.pure hstay) (fun _ => Triple.ite (fun _ => Triple.pure hstay) (fun _ => ?_))
  refine Triple.bind (M := fun _ z => z = view s i) ?_ (fun _ => Triple.ite (fun _ => Triple.pure hstay) (fun hno => ?_))
  · refine (setCell_plain i ?_).triple spec_held i (fun _ _ hz => hz) hstay
    exact fun _ => ⟨rfl, rfl⟩
  refine (launchAgent_triple i uid kid).weaken (fun z hz => ?_)
  have hag : (s.cells i).agent = none := by simpa using hno
  rw [hz]
  exact Prod.ext hag hcalm

theorem checkinBody_triple (i gate uid subid kid : Nat) :
    Triple spec may i Calm (checkinBody i gate uid subid kid) (fun _ => Calm) Calm := by
  refine Triple.peek (fun s => Triple.ite (fun _ => ?_) (fun _ =>
    Triple.ite (fun _ => Triple.err (fun _ hz => hz)) (fun _ => ?_)))
  · refine Triple.bind (M := fun _ => Calm) (Triple.modify ?_ ?_) (fun _ => Triple.err (fun _ hz => hz))
    · intro s x hx
      refine (letGo_view s i x ?_).trans (if_neg hx)
      exact fun _ => ⟨rfl, rfl⟩
    · intro s hi hv
      refine ⟨letGo_inv hi i ?_, letGo_calm ?_ hv⟩
      all_goals exact fun _ => ⟨rfl, rfl⟩
  · refine Plain.calm (Plain.bind (setCell_plain i ?_) (fun _ =>
      Plain.bind (callOf_plain i _) (fun _ => setCell_plain i ?_)))
      (fun _ hz => hz)
    all_goals exact fun _ => ⟨rfl, rfl⟩

theorem logoutCalls_plain : Plain spec may
    (call .mailAfk >>= fun _ => call .dataLogout >>= fun _ => pure () : PoolCo Unit) :=
  Plain.bind (call_plain _) (fun _ => call_unit_plain _)

theorem logoutBody_triple (i : Nat) : Triple spec may i Calm (logoutBody i) (fun _ => Calm) Calm := by
  refine Triple.bind (M := fun _ => Calm) (Triple.modify ?_ ?_) (fun _ => Plain.calm logoutCalls_plain (fun _ hz => hz))
  · exact fun s x hx => (logoutCell_view s i x).trans (if_neg hx)
  · exact fun s hi hv => ⟨logoutCell_inv hi i, logoutCell_calm hv⟩

theorem safeFreeBody_triple (i : Nat) : Triple spec may i Calm (safeFreeBody i) (fun _ => Calm) Calm := by
  refine Triple.get (fun s _ hcalm => ?_)
  have hstay : ∀ z, z = view s i → Calm z := fun z hz => by rw [hz]; exact hcalm
  refine Triple.ite (fun _ => Triple.pure hstay) (fun _ => ?_)
  split
  · exact Plain.calm (freeCell_plain i) hstay
  · rename_i a ha
    refine Triple.bind (M := fun _ z => z = view s i) ?_ (fun _ => ?_)
    · exact (tell_plain a).triple spec_held i (fun _ _ hz => hz) hstay
    refine Triple.bind (M := fun _ z => z = view s i) (Triple.ask (fun _ _ => trivial) (fun _ _ _ hz => hz)) (fun r => ?_)
    refine Triple.ite (fun _ => Triple.pure hstay) (fun _ => ?_)
    refine Triple.bind (M := fun _ z => z = view s i) (Triple.when (fun _ => ?_) (fun _ _ hz => hz)) (fun _ => ?_)
    · exact (Plain.modify (fun _ h => dismiss_inv h a)).triple spec_held i (fun _ _ hz => hz) hstay
    refine Triple.checkModify (M := Calm) ?_ ?_ ?_
    · exact fun s x hx => view_setCell_ne s _ hx
    · intro s' _ hi hv hgo
      have ha' : (s'.cells i).agent = some a := (congrArg Prod.fst hv).trans ha
      refine ⟨giveUp_inv hi (fun _ => ⟨rfl, rfl⟩) (isGoing_ne hgo ha'), ?_⟩
      show Calm (view _ i)
      rw [view_setCell, if_pos rfl]
      exact (congrArg Prod.snd hv).trans hcalm
    · refine Plain.calm (Plain.bind (leaveGate_plain i) (fun _ => ?_)) (fun _ hz => hz)
      exact Plain.bind (setCell_plain i (fun _ => ⟨rfl, rfl⟩)) (fun _ => freeCell_plain i)

/-! Outside: every program of the pool. -/

theorem serial_keeps {α : Type} {i : Nat} {body : PoolCo α} (h : Triple spec may i Calm body (fun _ => Calm) Calm) :
    Keeps spec may (serial i body) :=
  Keeps.serial (h.conseq (fun _ hz => hz.elim id id) (fun _ _ hz => ⟨hz, hz⟩) (fun _ hz => ⟨hz, hz⟩))

theorem login_keeps (i : Nat) (uid kid : Option Nat) (subid : Nat) : Keeps spec may (login i uid kid subid) :=
  serial_keeps (loginBody_triple i uid kid subid)

theorem afk_keeps (i : Nat) : Keeps spec may (afk i) := serial_keeps (Plain.calm (afkBody_plain i) (fun _ hz => hz))

theorem safeFree_keeps (i : Nat) : Keeps spec may (safeFree i) := serial_keeps (safeFreeBody_triple i)

theorem logoutOf_keeps (i : Nat) : Keeps spec may (logoutOf i) := by
  refine Keeps.bind ((setCell_plain i ?_).keeps spec_held) (fun _ => serial_keeps (logoutBody_triple i))
  exact fun _ => ⟨rfl, rfl⟩

theorem forwardTo_keeps (i : Nat) (wait : Bool) : Keeps spec may (forwardTo i wait) := by
  refine Keeps.get (fun s => Keeps.ite (fun _ => ?_) (fun _ =>
    Keeps.bind (Keeps.ite (fun _ => ?_) (fun _ => Keeps.pure ())) (fun _ => ?_)))
  · split
    · exact (forward_plain _ wait).keeps spec_held
    · exact Keeps.pure ()
  · exact Keeps.bind (login_keeps _ _ _ _) (fun _ => Keeps.pure ())
  · refine serial_keeps (Plain.calm (Plain.get (fun s => ?_)) (fun _ hz => hz))
    split
    · exact forward_plain _ wait
    · exact Plain.pure ()

/-- **A start**: nothing is known after the wait for the kingdom but what is recorded there. -/
theorem startAgent_keeps (myKid uid subid kid : Nat) : Keeps spec may (startAgent myKid uid subid kid) := by
  refine Keeps.ite (fun _ => Keeps.pure _) (fun _ => Keeps.get (fun s => ?_))
  split
  · exact Keeps.pure _
  · refine Keeps.bind ((call_plain _).keeps spec_held) (fun r => Keeps.ite (fun _ => Keeps.pure _) (fun _ => ?_))
    refine Keeps.get (fun s => Keeps.checkModify (fun _ _ h hc => ⟨addCell_inv h hc, fun _ => rfl⟩) ?_)
    refine Keeps.bind (login_keeps _ _ _ _).xpcall (fun r => ?_)
    split
    · exact Keeps.pure _
    · refine Keeps.bind ((modify_plain ?_).keeps spec_held) (fun _ => Keeps.pure _)
      exact fun _ => ⟨rfl, rfl, rfl, rfl⟩

theorem callAgent_keeps (myKid uid : Nat) (wait : Bool) : Keeps spec may (callAgent myKid uid wait) := by
  refine Keeps.bind (startAgent_keeps _ _ _ _) (fun c => ?_)
  split
  · exact forwardTo_keeps _ wait
  · exact Keeps.pure ()

theorem callOnlineAgent_keeps (uid : Nat) (wait : Bool) : Keeps spec may (callOnlineAgent uid wait) := by
  refine Keeps.get (fun s => ?_)
  split
  · exact Keeps.ite (fun _ => forwardTo_keeps _ wait) (fun _ => Keeps.pure ())
  · exact Keeps.pure ()

theorem centerLogin_keeps (myKid gate uid subid kid : Nat) : Keeps spec may (centerLogin myKid gate uid subid kid) := by
  refine Keeps.get (fun s => Keeps.bind ?_ (fun _ => Keeps.bind (startAgent_keeps _ _ _ _) (fun c => ?_)))
  · exact Keeps.ite (fun _ => (call_unit_plain _).keeps spec_held) (fun _ => Keeps.pure ())
  · split
    · exact serial_keeps (checkinBody_triple _ _ _ _ _)
    · exact Keeps.pure ()

theorem centerLogout_keeps (uid : Nat) : Keeps spec may (centerLogout uid) := by
  intro Q s hi hQ
  refine Co.wp_get ?_
  split
  · exact hQ _ _ hi
  · rename_i i hlook
    refine Co.wp_serialTake i _ _ _ _ (fun hcalm => ⟨fun x _ => gateLogout_view s uid i x, ?_⟩)
    -- the pool and the agents disagree only until the agent is told to go
    have hinv := gateLogout_inv hi hlook hcalm
    have hdone : Calm (view ((gateLogout s uid i).logoutCell i) i) := by
      refine logoutCell_calm ?_
      rw [gateLogout_view]
      exact hcalm
    refine ⟨fun x hx => (logoutCell_view _ i x).trans (if_neg (fun e => hx (by rw [e]))), ?_⟩
    refine logoutCalls_plain (some i) _ _ hinv spec_held (fun r s' hi' hv => ?_)
    have hcalm' : Calm (view s' i) := by
      rw [show view s' i = _ from hv i rfl]
      exact hdone
    exact ⟨rfl, hcalm', hcalm', hQ _ _ hi'⟩

theorem centerAfk_keeps (uid : Nat) : Keeps spec may (centerAfk uid) := by
  refine Keeps.get (fun s => ?_)
  split
  · exact afk_keeps _
  · exact Keeps.pure ()

theorem safeFree_unit_keeps (i : Nat) : Keeps spec may (safeFree i >>= fun _ => pure () : PoolCo Unit) :=
  Keeps.bind (safeFree_keeps i) (fun _ => Keeps.pure ())

theorem timerCallback_keeps (uid : Nat) : Keeps spec may (timerCallback uid) := by
  refine Keeps.get (fun s => ?_)
  split
  · exact safeFree_unit_keeps _
  · exact Keeps.pure ()

theorem stopAgent_keeps (uid : Nat) : Keeps spec may (stopAgent uid) := by
  refine Keeps.get (fun s => ?_)
  split
  · exact Keeps.ite (fun _ => afk_keeps _) (fun _ => safeFree_unit_keeps _)
  · exact Keeps.pure ()

theorem migrateOut_keeps (uid : Nat) : Keeps spec may (migrateOut uid) := by
  refine Keeps.bind ((modify_plain ?_).keeps spec_held) (fun _ => Keeps.bind ((call_plain _).keeps spec_held)
    (fun _ => Keeps.get (fun s => Keeps.bind ?_ (fun _ => ?_))))
  · exact fun _ => ⟨rfl, rfl, rfl, rfl⟩
  · split
    · refine Keeps.bind (logoutOf_keeps _) (fun _ => Keeps.bind (((call_plain _).keeps spec_held).xpcall) (fun _ => ?_))
      exact Keeps.pure ()
    · exact Keeps.pure ()
  · refine (Plain.bind (call_plain _) (fun _ => Plain.bind (call_plain _).xpcall (fun _ => modify_plain ?_))).keeps
      spec_held
    exact fun _ => ⟨rfl, rfl, rfl, rfl⟩

end Programs

theorem op_keeps (myKid : Nat) (may : Req → Reply → Bool) (o : Op) : Keeps spec may (o.prog myKid) := by
  cases o with
  | callAgent uid wait => exact callAgent_keeps myKid uid wait
  | callOnlineAgent uid wait => exact callOnlineAgent_keeps uid wait
  | login gate uid subid kid => exact centerLogin_keeps myKid gate uid subid kid
  | logout uid => exact centerLogout_keeps uid
  | afk uid => exact centerAfk_keeps uid
  | removeAgent uid => exact (remove_plain (some uid)).keeps spec_held
  | migrateOut uid => exact migrateOut_keeps uid
  | timerCallback uid => exact timerCallback_keeps uid
  | fixStart i uid => exact (fixStart_plain i uid).keeps spec_held
  | hotFix =>
    refine Plain.keeps (modify_plain ?_) spec_held
    exact fun _ => ⟨rfl, rfl, rfl, rfl⟩
  | stop =>
    refine Plain.keeps (modify_plain ?_) spec_held
    exact fun _ => ⟨rfl, rfl, rfl, rfl⟩
  | stopAgent uid => exact stopAgent_keeps uid

theorem pool_checked (myKid : Nat) : Co.Checked spec (poolSys myKid) where
  prog := fun o _ hi => (op_keeps myKid _ o).final hi
  env := fun a _ hi => ⟨exit_inv hi a, fun _ => rfl⟩

theorem start_inv : Inv Pool.start := ⟨rfl, List.nodup_nil, nofun⟩

theorem inv_of_run (myKid : Nat) (es : List (Co.Event Op Reply Nat)) {w : Co.World Pool Nat Req Reply}
    (hrun : (poolSys myKid).run (.init .start) es = some w) (hclean : w.clean = true) : Inv w.st :=
  (Co.fits_of_run (pool_checked myKid) es _ w (Co.fits_init _ _ start_inv (fun _ => rfl)) hrun hclean).inv

def Pool.agentsOf (s : Pool) (uid : Nat) : List Agent := s.agents.filter (fun a => a.uid = some uid)

theorem agentsOf_length {s : Pool} (h : Inv s) (uid : Nat) : (s.agentsOf uid).length ≤ 1 := by
  have hcount : (s.agents.map Agent.uid).count (some uid) ≤ 1 := List.nodup_iff_count_le_one.1 h.one _
  have heq : (s.agents.map Agent.uid).count (some uid) = (s.agentsOf uid).length := by
    unfold Pool.agentsOf
    rw [List.count_eq_countP, List.countP_map, ← List.countP_eq_length_filter]
    refine List.countP_congr (fun a _ => ?_)
    simp
  rw [← heq]
  exact hcount

/-- **The pool's bookkeeping**, after any run of calls, logins, logouts, removals, migrations and timers in which the
recorded conditions held: the counter is the number of cells, a player has at most one cell in the pool, and at most one
agent. -/
theorem pool_of_run (myKid : Nat) (es : List (Co.Event Op Reply Nat)) {w : Co.World Pool Nat Req Reply}
    (hrun : (poolSys myKid).run (.init .start) es = some w) (hclean : w.clean = true) :
    w.st.agentNum = w.st.agentPool.entries.length ∧
      ∀ uid, (w.st.agentPool.keys.count uid ≤ 1) ∧ (w.st.agentsOf uid).length ≤ 1 := by
  have h := inv_of_run myKid es hrun hclean
  exact ⟨h.num, fun uid => ⟨List.nodup_iff_count_le_one.1 w.st.agentPool.keys_nodup uid, agentsOf_length h uid⟩⟩

/-- A call that starts an agent, its idle timer, and a second start after the first agent went. -/
theorem pool_of_run_call : ∃ es w, (poolSys 1).run (.init .start) es = some w ∧ w.clean = true ∧
    w.st.agentPool.keys = [7] ∧ w.st.agentNum = 1 ∧ (w.st.agentsOf 7).length = 1 ∧
    (w.st.agentNum = w.st.agentPool.entries.length ∧
      ∀ uid, (w.st.agentPool.keys.count uid ≤ 1) ∧ (w.st.agentsOf uid).length ≤ 1) := by
  obtain ⟨w, hrun, hc, hkeys, hnum, hlen⟩ : ∃ w ∈ (poolSys 1).run (.init .start)
      [.start (.callAgent 7 true), .reply 0 (.num 1), .reply 0 .nil, .reply 0 (.bool true), .reply 0 .nil,
        .start (.timerCallback 7), .reply 1 (.bool true), .reply 1 .nil, .env 0, .start (.callAgent 7 true),
        .reply 2 (.num 1), .reply 2 .nil],
      w.clean = true ∧ w.st.agentPool.keys = [7] ∧ w.st.agentNum = 1 ∧ (w.st.agentsOf 7).length = 1 := by
    decide +kernel
  exact ⟨_, w, hrun, hc, hkeys, hnum, hlen, pool_of_run 1 _ hrun hc⟩

/-- **Two calls for one player during the kingdom lookup**: both find no cell, both put one into the pool, and both launch
an agent. -/
theorem two_agents : ∃ es w, (poolSys 1).run (.init .start) es = some w ∧
    w.st.agentNum = 2 ∧ w.st.agentPool.entries.length = 1 ∧ (w.st.agentsOf 7).length = 2 := by
  obtain ⟨w, hrun, h1, h2, h3⟩ : ∃ w ∈ (poolSys 1).run (.init .start)
      [.start (.callAgent 7 true), .start (.callAgent 7 true), .reply 0 (.num 1), .reply 1 (.num 1)],
      w.st.agentNum = 2 ∧ w.st.agentPool.entries.length = 1 ∧ (w.st.agentsOf 7).length = 2 := by
    decide +kernel
  exact ⟨_, w, hrun, h1, h2, h3⟩

end AgentPool
end Sncpp
