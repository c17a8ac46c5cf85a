import Sncpp.TerrAct
/-!
# TerrActRun — a building is active if it is connected with a centre

Any order of buildings that are created and removed, updates of their attributes with any order of the handlers, and
calls of `updateTerrAct`.
-/
namespace Sncpp
namespace TerrAct

open MapAttr (Pairs)

variable {o : Nat × Nat} {α : Type}

def Chunk.Next (c d : Chunk o) : Prop :=
  c.y = d.y ∧ (d.x = c.x + 1 ∨ c.x = d.x + 1) ∨ c.x = d.x ∧ (d.y = c.y + 1 ∨ c.y = d.y + 1)

namespace World

variable (w : World o α) (a : α)

def Has (c : Chunk o) : Prop := ∃ t, w.objs c.id = some t ∧ t.ownAid = some a

def Root (c : Chunk o) : Prop := ∃ t, w.objs c.id = some t ∧ t.ownAid = some a ∧ t.centre = true

/-- A chain of the alliance's buildings leads to the chunk from a centre, each to a neighbouring chunk. -/
def Linked (c : Chunk o) : Prop :=
  ∃ r, w.Root a r ∧ Relation.ReflTransGen (fun c d => c.Next d ∧ w.Has a d) r c

/-- **The active buildings of the alliance are those that are linked to a centre.** -/
def Active : Prop := ∀ c t, w.objs c.id = some t → t.ownAid = some a → (t.isAct = true ↔ w.Linked a c)

end World

inductive Event (o : Nat × Nat) (α : Type) where
  | create (p : Pairs Int) (t : Terr o α)
  | remove (p : Pairs Int) (objid : Int)
  | update (p : Pairs Int) (q : Pairs Attr) (objid : Int) (condition : Terr o α → Bool) (u : Update α)
  | updateTerrAct (p : Pairs Int) (aid : α)

section

variable [DecidableEq α]

def World.after (w : World o α) : Event o α → Option (World o α)
  | .create p t => w.create p t
  | .remove p objid => w.remove_object p objid
  | .update p q objid condition u => w.updateMapObjPro p q objid condition u
  | .updateTerrAct p aid => w.updateTerrAct p aid

def World.step (w : World o α) (e : Event o α) : World o α := (w.after e).getD w

/-- An alliance that gains or loses a building, that has one whose type changes, or whose buildings are looked at. -/
def World.Touches (w : World o α) (a : α) : Event o α → Prop
  | .create _ t => t.ownAid = some a ∨ w.Has a t.place
  | .remove _ objid => ∃ t, w.objs objid = some t ∧ t.ownAid = some a
  | .update _ _ objid condition u => ∃ t, w.objs objid = some t ∧ condition t = true ∧
      ((u.set t).ownAid ≠ t.ownAid ∧ (t.ownAid = some a ∨ (u.set t).ownAid = some a) ∨
        (u.set t).buildType ≠ t.buildType ∧ (u.set t).ownAid = some a)
  | .updateTerrAct _ aid => aid = a

structure Right (w : World o α) (e : Event o α) : Prop where
  returns : (w.after e).isSome = true
  active : ∀ a, w.Touches a e → (w.step e).Active a

end

theorem Chunk.id_inj {c d : Chunk o} (h : c.id = d.id) : c = d := by
  obtain ⟨cx, cy, hc⟩ := c
  obtain ⟨dx, dy, hd⟩ := d
  simp only [Chunk.id] at h
  obtain rfl : cy = dy := by omega
  obtain rfl : cx = dx := by omega
  rfl

/-- **The differences lead to the neighbouring chunks**, and never from one row of the map into another. -/
theorem Chunk.next_iff (c d : Chunk o) : (∃ diff ∈ terrConnectDiff, c.id + diff = d.id) ↔ c.Next d := by
  obtain ⟨cx, cy, hc⟩ := c
  obtain ⟨dx, dy, hd⟩ := d
  simp only [terrConnectDiff, List.mem_cons, List.not_mem_nil, or_false, exists_eq_or_imp, exists_eq_left, Chunk.id,
    Chunk.Next]
  omega

/-! ## What is the same but for the active buildings -/

def Terr.idle (t : Terr o α) : Terr o α := { t with isAct := false }

def Like (w w' : World o α) : Prop := ∀ id, (w'.objs id).map Terr.idle = (w.objs id).map Terr.idle

variable {w w' : World o α} {a : α}

theorem Like.refl (w : World o α) : Like w w := fun _ => rfl

theorem Like.symm (h : Like w w') : Like w' w := fun id => (h id).symm

theorem Like.trans {w'' : World o α} (h : Like w w') (h' : Like w' w'') : Like w w'' := fun id => (h' id).trans (h id)

theorem Like.obj (h : Like w w') {id : Int} {t : Terr o α} (ht : w.objs id = some t) :
    ∃ t', w'.objs id = some t' ∧ t'.idle = t.idle := by
  have hid := h id
  rw [ht] at hid
  exact Option.map_eq_some_iff.1 hid

theorem Terr.idle_eq {t t' : Terr o α} (h : t'.idle = t.idle) :
    t'.place = t.place ∧ t'.ownAid = t.ownAid ∧ t'.centre = t.centre := by
  obtain ⟨place, ownAid, buildType, buildFlag, isAct⟩ := t
  obtain ⟨place', ownAid', buildType', buildFlag', isAct'⟩ := t'
  simp only [Terr.idle, Terr.mk.injEq] at h
  obtain ⟨rfl, rfl, rfl, rfl, -⟩ := h
  exact ⟨rfl, rfl, rfl⟩

theorem Like.has (h : Like w w') {c : Chunk o} (hc : w.Has a c) : w'.Has a c := by
  obtain ⟨t, ht, hown⟩ := hc
  obtain ⟨t', ht', heq⟩ := h.obj ht
  exact ⟨t', ht', (Terr.idle_eq heq).2.1.trans hown⟩

theorem Like.root (h : Like w w') {c : Chunk o} (hc : w.Root a c) : w'.Root a c := by
  obtain ⟨t, ht, hown, hcentre⟩ := hc
  obtain ⟨t', ht', heq⟩ := h.obj ht
  exact ⟨t', ht', (Terr.idle_eq heq).2.1.trans hown, (Terr.idle_eq heq).2.2.trans hcentre⟩

theorem World.Linked.mono (hroot : ∀ c, w.Root a c → w'.Root a c) (hhas : ∀ c, w.Has a c → w'.Has a c) {c : Chunk o}
    (h : w.Linked a c) : w'.Linked a c := by
  obtain ⟨r, hr, hchain⟩ := h
  exact ⟨r, hroot r hr, Relation.ReflTransGen.mono (fun _ d hstep => ⟨hstep.1, hhas d hstep.2⟩) _ _ hchain⟩

theorem Like.linked (h : Like w w') (c : Chunk o) : w'.Linked a c ↔ w.Linked a c :=
  ⟨World.Linked.mono (fun _ => h.symm.root) (fun _ => h.symm.has), World.Linked.mono (fun _ => h.root) (fun _ => h.has)⟩

theorem World.Active.frame (h : w.Active a)
    (hsame : ∀ id t, t.ownAid = some a → (w'.objs id = some t ↔ w.objs id = some t)) : w'.Active a := by
  have hlinked : ∀ c, w'.Linked a c ↔ w.Linked a c := fun c =>
    ⟨Linked.mono (fun _ ⟨t, ht, hown, hcentre⟩ => ⟨t, (hsame _ t hown).1 ht, hown, hcentre⟩)
        (fun _ ⟨t, ht, hown⟩ => ⟨t, (hsame _ t hown).1 ht, hown⟩),
      Linked.mono (fun _ ⟨t, ht, hown, hcentre⟩ => ⟨t, (hsame _ t hown).2 ht, hown, hcentre⟩)
        (fun _ ⟨t, ht, hown⟩ => ⟨t, (hsame _ t hown).2 ht, hown⟩)⟩
  intro c t ht hown
  rw [hlinked]
  exact h c t ((hsame _ t hown).1 ht) hown

def World.Keyed (w : World o α) : Prop := ∀ id t, w.objs id = some t → t.place.id = id

def World.Sound (w : World o α) (a : α) : Prop := ∀ id ∈ w.ownAidTerrRef a, ∃ t, w.objs id = some t ∧ t.ownAid = some a

def World.Exact (w : World o α) (a : α) : Prop :=
  ∀ id, id ∈ w.ownAidTerrRef a ↔ ∃ t, w.objs id = some t ∧ t.ownAid = some a

structure World.Good (w : World o α) : Prop where
  keyed : w.Keyed
  exact : ∀ a, w.Exact a

theorem World.Exact.sound (h : w.Exact a) : w.Sound a := fun id hid => (h id).1 hid

theorem Like.keyed (h : Like w w') (hkeyed : w.Keyed) : w'.Keyed := by
  intro id t' ht'
  obtain ⟨t, ht, heq⟩ := h.symm.obj ht'
  rw [← (Terr.idle_eq heq).1]
  exact hkeyed id t ht

theorem Like.own (h : Like w w') (id : Int) :
    (∃ t, w'.objs id = some t ∧ t.ownAid = some a) ↔ ∃ t, w.objs id = some t ∧ t.ownAid = some a := by
  constructor
  · rintro ⟨t', ht', hown⟩
    obtain ⟨t, ht, heq⟩ := h.symm.obj ht'
    exact ⟨t, ht, (Terr.idle_eq heq).2.1.trans hown⟩
  · rintro ⟨t, ht, hown⟩
    obtain ⟨t', ht', heq⟩ := h.obj ht
    exact ⟨t', ht', (Terr.idle_eq heq).2.1.trans hown⟩

theorem Like.exact (h : Like w w') (href : w'.ownAidTerrRef a = w.ownAidTerrRef a) (hexact : w.Exact a) : w'.Exact a := by
  intro id
  rw [href, hexact id]
  exact (h.own id).symm

theorem Like.good (h : Like w w') (href : w'.ownAidTerrRef = w.ownAidTerrRef) (hgood : w.Good) : w'.Good :=
  ⟨h.keyed hgood.keyed, fun a => h.exact (congrFun href a) (hgood.exact a)⟩

theorem updateAct_objs (w : World o α) (objid : Int) (b : Bool) (id : Int) :
    (w.updateAct objid b).objs id = if id = objid then (w.objs id).map (fun t => { t with isAct := b }) else w.objs id := by
  unfold World.updateAct
  split
  · next hnone =>
    split
    · next heq => rw [heq, hnone]; rfl
    · rfl
  · next t ht =>
    split_ifs with hdiff heq heq
    · rw [heq, ht]
      exact Function.update_self ..
    · exact Function.update_of_ne heq ..
    · obtain rfl := not_not.1 hdiff
      rw [heq, ht]
      rfl
    · rfl

theorem updateAct_ref (w : World o α) (objid : Int) (b : Bool) :
    (w.updateAct objid b).ownAidTerrRef = w.ownAidTerrRef := by
  unfold World.updateAct
  split
  · rfl
  · split <;> rfl

theorem updateActs (f : Int → Bool) : ∀ (l : List Int) (w : World o α),
    (l.foldl (fun w objid => w.updateAct objid (f objid)) w).ownAidTerrRef = w.ownAidTerrRef ∧
      ∀ id, (l.foldl (fun w objid => w.updateAct objid (f objid)) w).objs id =
        if id ∈ l then (w.objs id).map (fun t => { t with isAct := f id }) else w.objs id
  | [], w => ⟨rfl, fun id => rfl⟩
  | objid :: l, w => by
    obtain ⟨href, hobjs⟩ := updateActs f l (w.updateAct objid (f objid))
    refine ⟨href.trans (updateAct_ref w objid (f objid)), fun id => ?_⟩
    rw [List.foldl_cons, hobjs, updateAct_objs]
    by_cases hid : id = objid
    · subst hid
      cases w.objs id <;> simp
    · simp [hid]

/-- What `updateTerrAct` leaves: which buildings of the alliance are active is written anew. -/
structure Wrote (w w' : World o α) (aid : α) (act : List Int) : Prop where
  ref : w'.ownAidTerrRef = w.ownAidTerrRef
  objs : ∀ id, w'.objs id =
    if id ∈ w.ownAidTerrRef aid then (w.objs id).map (fun t => { t with isAct := decide (id ∈ act) }) else w.objs id
  act : ∀ id, id ∈ act ↔ ∃ r ∈ w.ownAidTerrRef aid, (w.objs r).any Terr.centre = true ∧
    Relation.ReflTransGen (Flood.Edge (connects (w.ownAidTerrRef aid))) r id

/-- **`updateTerrAct` comes to an end**, and marks what can be reached from the centres. -/
theorem updateTerrAct_wrote (w : World o α) (p : Pairs Int) (aid : α) :
    ∃ w' act, w.updateTerrAct p aid = some w' ∧ Wrote w w' aid act := by
  unfold World.updateTerrAct
  by_cases hnil : w.ownAidTerrRef aid = []
  · refine ⟨w, [], by simp only [hnil, if_true], rfl, fun id => ?_, fun id => ?_⟩
    · rw [hnil, if_neg List.not_mem_nil]
    · rw [hnil]
      simp
  · simp only [if_neg hnil]
    have hmem : ∀ id, id ∈ p.order (w.ownAidTerrRef aid) ↔ id ∈ w.ownAidTerrRef aid := fun id => (p.perm _).mem_iff
    have hstays : ∀ z ∈ (w.ownAidTerrRef aid).toFinset, ∀ y ∈ connects (w.ownAidTerrRef aid) z,
        y ∈ (w.ownAidTerrRef aid).toFinset :=
      fun z _ y hy => List.mem_toFinset.2 (of_decide_eq_true (List.mem_filter.1 hy).2)
    have hloop : ∃ act, Flood.loop (Flood.flood (connects (w.ownAidTerrRef aid)) (w.ownAidTerrRef aid).length)
        ((p.order (w.ownAidTerrRef aid)).filter (fun objid => (w.objs objid).any Terr.centre)) [] = some act :=
      Flood.loop_returns hstays (List.toFinset_card_le _)
        (fun z hz => List.mem_toFinset.2 ((hmem z).1 (List.mem_filter.1 hz).1))
    obtain ⟨act, hact⟩ := hloop
    unfold updateTerrActLoop
    rw [hact]
    obtain ⟨href, hobjs⟩ := updateActs (fun objid => decide (objid ∈ act)) (p.order (w.ownAidTerrRef aid)) w
    refine ⟨_, act, rfl, href, fun id => ?_, fun id => ?_⟩
    · rw [hobjs]
      simp only [hmem]
    · rw [Flood.mem_loop_iff hact]
      simp only [List.mem_filter, hmem, and_assoc]

theorem Wrote.like {aid : α} {act : List Int} (h : Wrote w w' aid act) : Like w w' := by
  intro id
  rw [h.objs]
  split
  · cases w.objs id <;> rfl
  · rfl

theorem chain_iff (hkeyed : w.Keyed) (hexact : w.Exact a) (r c : Chunk o) :
    Relation.ReflTransGen (Flood.Edge (connects (w.ownAidTerrRef a))) r.id c.id ↔
      Relation.ReflTransGen (fun c d => c.Next d ∧ w.Has a d) r c := by
  have hedge : ∀ c d : Chunk o, Flood.Edge (connects (w.ownAidTerrRef a)) c.id d.id ↔ c.Next d ∧ w.Has a d := by
    intro c d
    rw [← Chunk.next_iff, Flood.Edge, connects, List.mem_filter, decide_eq_true_eq, hexact, List.mem_map]
    rfl
  constructor
  · intro h
    have hlift : ∀ id, Relation.ReflTransGen (Flood.Edge (connects (w.ownAidTerrRef a))) r.id id →
        ∃ d : Chunk o, d.id = id ∧ Relation.ReflTransGen (fun c d => c.Next d ∧ w.Has a d) r d := by
      intro id hid
      induction hid with
      | refl => exact ⟨r, rfl, .refl⟩
      | @tail id id' _ hstep ih =>
        obtain ⟨d, rfl, hd⟩ := ih
        -- where the search goes on there is a building, and so a chunk
        obtain ⟨t, ht, -⟩ := (hexact id').1 (of_decide_eq_true (List.mem_filter.1 hstep).2)
        have hplace := hkeyed id' t ht
        rw [← hplace, hedge] at hstep
        exact ⟨t.place, hplace, hd.tail hstep⟩
    obtain ⟨d, hid, hd⟩ := hlift c.id h
    rwa [← Chunk.id_inj hid]
  · intro h
    induction h with
    | refl => exact .refl
    | tail _ hstep ih => exact ih.tail ((hedge _ _).2 hstep)

theorem Wrote.active {act : List Int} (h : Wrote w w' a act) (hkeyed : w.Keyed) (hexact : w.Exact a) : w'.Active a := by
  intro c t' ht' hown
  rw [h.like.linked c]
  obtain ⟨t, ht, heq⟩ := h.like.symm.obj ht'
  have hmem : c.id ∈ w.ownAidTerrRef a := (hexact c.id).2 ⟨t, ht, (Terr.idle_eq heq).2.1.trans hown⟩
  have hobj := h.objs c.id
  rw [if_pos hmem, ht, ht'] at hobj
  obtain rfl := Option.some.inj hobj
  rw [decide_eq_true_eq, h.act]
  constructor
  · rintro ⟨r, hr, hcentre, hchain⟩
    obtain ⟨t', ht'', hown'⟩ := (hexact r).1 hr
    obtain rfl := hkeyed r t' ht''
    rw [ht''] at hcentre
    exact ⟨t'.place, ⟨t', ht'', hown', hcentre⟩, (chain_iff hkeyed hexact _ _).1 hchain⟩
  · rintro ⟨r, ⟨t', ht'', hown', hcentre⟩, hchain⟩
    exact ⟨r.id, (hexact r.id).2 ⟨t', ht'', hown'⟩, by rw [ht'']; exact hcentre, (chain_iff hkeyed hexact _ _).2 hchain⟩

theorem Wrote.other {aid : α} {act : List Int} (h : Wrote w w' aid act) (hsound : w.Sound aid) (hne : a ≠ aid)
    (hactive : w.Active a) : w'.Active a := by
  refine hactive.frame (fun id t hown => ?_)
  rw [h.objs]
  split
  · next hmem =>
    obtain ⟨t₀, ht₀, hown₀⟩ := hsound id hmem
    rw [ht₀]
    have hother : ∀ t' : Terr o α, t'.ownAid = some aid → some t' ≠ some t := by
      intro t' hown' heq
      obtain rfl := Option.some.inj heq
      exact hne (Option.some.inj (hown.symm.trans hown'))
    exact iff_of_false (hother _ hown₀) (hother _ hown₀)
  · rfl

section

variable [DecidableEq α]

structure Looked (w w' : World o α) (aid : α) : Prop where
  like : Like w w'
  ref : w'.ownAidTerrRef = w.ownAidTerrRef
  active : w.Exact aid → w'.Active aid
  other : w.Sound aid → ∀ a ≠ aid, w.Active a → w'.Active a

omit [DecidableEq α] in
theorem updateTerrAct_looked (hkeyed : w.Keyed) (p : Pairs Int) (aid : α) :
    ∃ w', w.updateTerrAct p aid = some w' ∧ Looked w w' aid := by
  obtain ⟨w', act, hw', hwrote⟩ := updateTerrAct_wrote w p aid
  exact ⟨w', hw', hwrote.like, hwrote.ref, hwrote.active hkeyed, fun hsound a hne => hwrote.other hsound hne⟩

theorem ref_setRef (w : World o α) (aid : α) (terrs : List Int) (a : α) :
    (w.setRef aid terrs).ownAidTerrRef a = if a = aid then terrs else w.ownAidTerrRef a :=
  Function.update_apply w.ownAidTerrRef aid terrs a

theorem World.Good.remove_object (h : w.Good) (p : Pairs Int) (objid : Int) :
    ∃ w', w.remove_object p objid = some w' ∧ w'.Good ∧ w'.objs objid = none ∧
      ∀ a, (∃ t, w.objs objid = some t ∧ t.ownAid = some a) → w'.Active a := by
  unfold World.remove_object
  cases hobj : w.objs objid with
  | none =>
    refine ⟨w, rfl, h, hobj, ?_⟩
    rintro a ⟨t, ht, -⟩
    cases ht
  | some t =>
    have hkeyed : ∀ ref, World.Keyed (⟨Function.update w.objs objid none, ref⟩ : World o α) := by
      intro ref id t' ht'
      by_cases hid : id = objid
      · subst hid
        simp at ht'
      · exact h.keyed id t' ((Function.update_of_ne hid ..).symm.trans ht')
    have hown : ∀ (a : α) (id : Int), (∃ t', Function.update w.objs objid none id = some t' ∧ t'.ownAid = some a) ↔
        id ∈ w.ownAidTerrRef a ∧ id ≠ objid := by
      intro a id
      rw [h.exact a id]
      by_cases hid : id = objid
      · subst hid
        simp
      · simp [hid]
    simp only
    cases haid : t.ownAid with
    | none =>
      refine ⟨_, rfl, ⟨hkeyed _, fun a id => ?_⟩, Function.update_self .., ?_⟩
      · rw [hown]
        refine ⟨fun hid => ⟨hid, ?_⟩, And.left⟩
        rintro rfl
        obtain ⟨t', ht', hown'⟩ := (h.exact a id).1 hid
        obtain rfl := Option.some.inj (hobj.symm.trans ht')
        rw [haid] at hown'
        cases hown'
      · rintro a ⟨t', ht', hown'⟩
        obtain rfl := Option.some.inj ht'
        rw [haid] at hown'
        cases hown'
    | some aid =>
      have hmem : objid ∈ w.ownAidTerrRef aid := (h.exact aid objid).2 ⟨t, hobj, haid⟩
      have hexact : ∀ a, World.Exact (World.setRef ⟨Function.update w.objs objid none, w.ownAidTerrRef⟩ aid
          ((w.ownAidTerrRef aid).filter (· ≠ objid))) a := by
        intro a id
        rw [ref_setRef]
        refine Iff.trans ?_ (hown a id).symm
        by_cases ha : a = aid
        · subst ha
          simp
        · rw [if_neg ha]
          refine ⟨fun hid => ⟨hid, ?_⟩, And.left⟩
          rintro rfl
          obtain ⟨t', ht', hown'⟩ := (h.exact a id).1 hid
          obtain rfl := Option.some.inj (hobj.symm.trans ht')
          exact ha (Option.some.inj (hown'.symm.trans haid))
      simp only [if_pos (List.ne_nil_of_mem hmem)]
      obtain ⟨w', hw', hlooked⟩ := updateTerrAct_looked (hkeyed _) p aid
      refine ⟨w', hw', hlooked.like.good hlooked.ref ⟨hkeyed _, hexact⟩, ?_, ?_⟩
      · have hid := hlooked.like objid
        simpa [World.setRef] using hid
      · rintro a ⟨t', ht', hown'⟩
        obtain rfl := Option.some.inj ht'
        obtain rfl := Option.some.inj (hown'.symm.trans haid)
        exact hlooked.active (hexact a)

theorem World.Good.add_object (h : w.Good) (p : Pairs Int) {t : Terr o α} (hfree : w.objs t.place.id = none) :
    ∃ w', w.add_object p t = some w' ∧ w'.Good ∧ (∀ a, t.ownAid = some a → w'.Active a) ∧
      ∀ a, t.ownAid ≠ some a → w.Active a → w'.Active a := by
  have hself : Function.update w.objs t.place.id (some t) t.place.id = some t := Function.update_self ..
  have hkeyed : ∀ ref, World.Keyed (⟨Function.update w.objs t.place.id (some t), ref⟩ : World o α) := by
    intro ref id t' ht'
    by_cases hid : id = t.place.id
    · subst hid
      obtain rfl := Option.some.inj (hself.symm.trans ht')
      rfl
    · exact h.keyed id t' ((Function.update_of_ne hid ..).symm.trans ht')
  have hown : ∀ (a : α) (id : Int), (∃ t', Function.update w.objs t.place.id (some t) id = some t' ∧ t'.ownAid = some a) ↔
      id ∈ w.ownAidTerrRef a ∨ id = t.place.id ∧ t.ownAid = some a := by
    intro a id
    rw [h.exact a id]
    by_cases hid : id = t.place.id
    · subst hid
      simp [hfree]
    · simp [hid]
  have hframe : ∀ a, t.ownAid ≠ some a → w.Active a →
    ∀ ref, World.Active (⟨Function.update w.objs t.place.id (some t), ref⟩ :
      World o α) a := by
    intro a ha hactive ref
    refine hactive.frame (fun id t' hown' => ?_)
    by_cases hid : id = t.place.id
    · subst hid
      rw [hfree]
      refine iff_of_false (fun heq => ?_) (fun heq => by cases heq)
      obtain rfl := Option.some.inj (hself.symm.trans heq)
      exact ha hown'
    · simp [hid]
  unfold World.add_object World.setObj
  cases haid : t.ownAid with
  | none =>
    refine ⟨_, rfl, ⟨hkeyed _, fun a id => ?_⟩, fun a ha => ?_, fun a _ hactive => ?_⟩
    · rw [hown, haid]
      simp
    · cases ha
    · exact hframe a (by rw [haid]; exact (Option.some_ne_none a).symm) hactive _
  | some aid =>
    simp only
    have hexact : ∀ a, World.Exact (World.setRef ⟨Function.update w.objs t.place.id (some t), w.ownAidTerrRef⟩ aid
        (t.place.id :: (w.ownAidTerrRef aid).filter (· ≠ t.place.id))) a := by
      intro a id
      rw [ref_setRef]
      refine Iff.trans ?_ (hown a id).symm
      rw [haid]
      by_cases ha : a = aid
      · subst ha
        by_cases hid : id = t.place.id <;> simp [hid]
      · rw [if_neg ha]
        simp [Ne.symm ha]
    obtain ⟨w', hw', hlooked⟩ := updateTerrAct_looked (hkeyed _) p aid
    refine ⟨w', hw', hlooked.like.good hlooked.ref ⟨hkeyed _, hexact⟩, fun a ha => ?_, fun a ha hactive => ?_⟩
    · obtain rfl := Option.some.inj ha
      exact hlooked.active (hexact _)
    · have hne : a ≠ aid := fun heq => ha (heq ▸ rfl)
      exact hlooked.other (hexact aid).sound a hne (hframe a (by rw [haid]; exact ha) hactive _)

theorem World.Good.create (h : w.Good) (p : Pairs Int) (t : Terr o α) :
    ∃ w', w.create p t = some w' ∧ w'.Good ∧ ∀ a, t.ownAid = some a ∨ w.Has a t.place → w'.Active a := by
  obtain ⟨w₁, hw₁, hgood₁, hfree, hactive₁⟩ := h.remove_object p t.place.id
  obtain ⟨w₂, hw₂, hgood₂, hown, hother⟩ := hgood₁.add_object p hfree
  refine ⟨w₂, ?_, hgood₂, fun a ha => ?_⟩
  · unfold World.create
    rw [hw₁]
    exact hw₂
  · by_cases hta : t.ownAid = some a
    · exact hown a hta
    · exact hother a hta (hactive₁ a (ha.resolve_left hta))

theorem quiet_handlers (p : Pairs Int) (objid : Int) (oldAid newAid : Option α) : ∀ (l : List Attr) (w : World o α),
    Attr.ownAid ∉ l → w.Keyed → (∃ t, w.objs objid = some t ∧ t.ownAid = newAid) →
    (∀ a, newAid = some a → w.Sound a) →
    ∃ w', l.foldlM (fun w k => w.doMoreLogicAttr p objid oldAid newAid k) w = some w' ∧ Like w w' ∧
      w'.ownAidTerrRef = w.ownAidTerrRef ∧
      ∀ a, w.Exact a → w.Active a ∨ Attr.buildType ∈ l ∧ newAid = some a → w'.Active a
  | [], w, _, _, _, _ => ⟨w, rfl, Like.refl w, rfl, fun a _ ha => ha.resolve_right (fun hno => by simp at hno)⟩
  | k :: l, w, hquiet, hkeyed, hobj, hsound => by
    obtain ⟨hk, hl⟩ := not_or.1 (fun hor => hquiet (List.mem_cons.2 hor))
    obtain ⟨t, ht, hnew⟩ := hobj
    -- what one handler leaves
    have hturn : ∃ w₁, w.doMoreLogicAttr p objid oldAid newAid k = some w₁ ∧ Like w w₁ ∧
        w₁.ownAidTerrRef = w.ownAidTerrRef ∧
        ∀ a, w.Exact a → w.Active a ∨ k = Attr.buildType ∧ newAid = some a → w₁.Active a := by
      cases k with
      | ownAid => exact absurd rfl hk
      | isAct => exact ⟨w, rfl, Like.refl w, rfl, fun a _ ha => ha.resolve_right (fun hno => by cases hno.1)⟩
      | buildType =>
        simp only [World.doMoreLogicAttr, ht, Option.bind_some, hnew]
        cases newAid with
        | none => exact ⟨w, rfl, Like.refl w, rfl, fun a _ ha => ha.resolve_right (fun hno => by cases hno.2)⟩
        | some aid =>
          obtain ⟨w₁, hw₁, hlooked⟩ := updateTerrAct_looked hkeyed p aid
          refine ⟨w₁, hw₁, hlooked.like, hlooked.ref, fun a hexact ha => ?_⟩
          by_cases heq : a = aid
          · subst heq
            exact hlooked.active hexact
          · exact hlooked.other (hsound aid rfl) a heq (ha.resolve_right
              (fun hno => heq (Option.some.inj hno.2).symm))
    obtain ⟨w₁, hw₁, hlike₁, href₁, hactive₁⟩ := hturn
    have hobj₁ : ∃ t', w₁.objs objid = some t' ∧ t'.ownAid = newAid := by
      obtain ⟨t', ht', heq⟩ := hlike₁.obj ht
      exact ⟨t', ht', (Terr.idle_eq heq).2.1.trans hnew⟩
    have hsound₁ : ∀ a, newAid = some a → w₁.Sound a := by
      intro a ha id hid
      rw [href₁] at hid
      exact (hlike₁.own id).2 (hsound a ha id hid)
    obtain ⟨w₂, hw₂, hlike₂, href₂, hactive₂⟩ :=
      quiet_handlers p objid oldAid newAid l w₁ hl (hlike₁.keyed hkeyed) hobj₁ hsound₁
    refine ⟨w₂, ?_, hlike₁.trans hlike₂, href₂.trans href₁, fun a hexact ha => ?_⟩
    · rw [List.foldlM_cons, hw₁]
      exact hw₂
    · refine hactive₂ a (hlike₁.exact (congrFun href₁ a) hexact) ?_
      rcases ha with ha | ⟨hmem, ha⟩
      · exact Or.inl (hactive₁ a hexact (Or.inl ha))
      · rcases List.mem_cons.1 hmem with rfl | hmem
        · exact Or.inl (hactive₁ a hexact (Or.inr ⟨rfl, ha⟩))
        · exact Or.inr ⟨hmem, ha⟩

theorem lose_handler {v : World o α} (hkeyed : v.Keyed) (p : Pairs Int) (objid : Int) (oldAid : Option α)
    (hin : ∀ a, objid ∈ v.ownAidTerrRef a ↔ oldAid = some a)
    (hown : ∀ a, oldAid = some a → ∀ id,
      (∃ t, v.objs id = some t ∧ t.ownAid = some a) ↔ id ≠ objid ∧ id ∈ v.ownAidTerrRef a) :
    ∃ v', oldAid.elim (some v) (v.loseAid p objid) = some v' ∧ Like v v' ∧
      (∀ a id, id ∈ v'.ownAidTerrRef a ↔ id ≠ objid ∧ id ∈ v.ownAidTerrRef a) ∧
      ∀ a, oldAid = some a → v'.Active a := by
  cases oldAid with
  | none =>
    refine ⟨v, rfl, Like.refl v, fun a id => ⟨fun hid => ⟨?_, hid⟩, And.right⟩, fun a ha => ?_⟩
    · rintro rfl
      cases (hin a).1 hid
    · cases ha
  | some aid =>
    have href : ∀ a id, id ∈ (v.setRef aid ((v.ownAidTerrRef aid).filter (· ≠ objid))).ownAidTerrRef a ↔
        id ≠ objid ∧ id ∈ v.ownAidTerrRef a := by
      intro a id
      rw [ref_setRef]
      by_cases ha : a = aid
      · subst ha
        simp [and_comm]
      · rw [if_neg ha]
        refine ⟨fun hid => ⟨?_, hid⟩, And.right⟩
        rintro rfl
        exact ha (Option.some.inj ((hin a).1 hid)).symm
    have hmem : objid ∈ v.ownAidTerrRef aid := (hin aid).2 rfl
    obtain ⟨v', hv', hlooked⟩ := updateTerrAct_looked
      (w := v.setRef aid ((v.ownAidTerrRef aid).filter (· ≠ objid))) hkeyed p aid
    refine ⟨v', ?_, hlooked.like, fun a id => ?_, fun a ha => ?_⟩
    · simp only [Option.elim_some, World.loseAid, if_pos hmem]
      exact hv'
    · rw [hlooked.ref, href]
    · obtain rfl := Option.some.inj ha
      refine hlooked.active (fun id => ?_)
      rw [href]
      exact (hown aid rfl id).symm

theorem gain_handler {v : World o α} (hkeyed : v.Keyed) (p : Pairs Int) (objid : Int) (newAid : Option α)
    (hout : ∀ a, objid ∉ v.ownAidTerrRef a)
    (hown : ∀ a id, (∃ t, v.objs id = some t ∧ t.ownAid = some a) ↔
      id = objid ∧ newAid = some a ∨ id ∈ v.ownAidTerrRef a) :
    ∃ v', newAid.elim (some v) (v.gainAid p objid) = some v' ∧ Like v v' ∧ (∀ a, v'.Exact a) ∧
      (∀ a, newAid = some a → v'.Active a) ∧ ∀ a, newAid ≠ some a → v.Active a → v'.Active a := by
  cases newAid with
  | none =>
    refine ⟨v, rfl, Like.refl v, fun a id => ?_, fun a ha => ?_, fun a _ ha => ha⟩
    · rw [hown]
      simp
    · cases ha
  | some aid =>
    have hexact : ∀ a, (v.setRef aid (objid :: v.ownAidTerrRef aid)).Exact a := by
      intro a id
      rw [ref_setRef]
      refine Iff.trans ?_ (hown a id).symm
      by_cases ha : a = aid
      · subst ha
        simp
      · rw [if_neg ha]
        simp [Ne.symm ha]
    obtain ⟨v', hv', hlooked⟩ := updateTerrAct_looked (w := v.setRef aid (objid :: v.ownAidTerrRef aid)) hkeyed p aid
    refine ⟨v', ?_, hlooked.like, fun a => hlooked.like.exact (congrFun hlooked.ref a) (hexact a), fun a ha => ?_,
      fun a ha hactive => ?_⟩
    · simp only [Option.elim_some, World.gainAid, if_pos (hout aid)]
      exact hv'
    · obtain rfl := Option.some.inj ha
      exact hlooked.active (hexact _)
    · refine hlooked.other (hexact aid).sound a (fun heq => ha (heq ▸ rfl)) ?_
      exact World.Active.frame hactive (fun _ _ _ => Iff.rfl)

theorem doMoreLogicAttr_ownAid (v : World o α) (p : Pairs Int) (objid : Int) (oldAid newAid : Option α) :
    v.doMoreLogicAttr p objid oldAid newAid .ownAid =
      (oldAid.elim (some v) (v.loseAid p objid)).bind (fun v => newAid.elim (some v) (v.gainAid p objid)) := by
  cases oldAid <;> cases newAid <;> rfl

omit [DecidableEq α] in
theorem World.Good.setObj (h : w.Good) {objid : Int} {t : Terr o α} (ht : w.objs objid = some t) (t' : Terr o α)
    (hplace : t'.place = t.place) : (w.setObj objid t').Keyed ∧
      ∀ a id, (∃ x, (w.setObj objid t').objs id = some x ∧ x.ownAid = some a) ↔
        id = objid ∧ t'.ownAid = some a ∨ id ≠ objid ∧ id ∈ w.ownAidTerrRef a := by
  have hself : (w.setObj objid t').objs objid = some t' := Function.update_self ..
  have hother : ∀ id, id ≠ objid → (w.setObj objid t').objs id = w.objs id := fun id hid => Function.update_of_ne hid ..
  constructor
  · intro id x hx
    by_cases hid : id = objid
    · subst hid
      obtain rfl := Option.some.inj (hself.symm.trans hx)
      exact (congrArg Chunk.id hplace).trans (h.keyed _ _ ht)
    · exact h.keyed id x ((hother id hid).symm.trans hx)
  · intro a id
    by_cases hid : id = objid
    · subst hid
      simp [hself]
    · simp [hid, hother id hid, h.exact a id]

theorem mem_logicAttrs (u : Update α) (t : Terr o α) :
    (Attr.ownAid ∈ u.logicAttrs t ↔ (u.set t).ownAid ≠ t.ownAid) ∧
      (Attr.buildType ∈ u.logicAttrs t ↔ (u.set t).buildType ≠ t.buildType) ∧ (u.logicAttrs t).Nodup := by
  unfold Update.logicAttrs
  refine ⟨?_, ?_, ?_⟩ <;> split_ifs <;> simp_all

theorem World.Good.updateMapObjPro (h : w.Good) (p : Pairs Int) (q : Pairs Attr) (objid : Int)
    (condition : Terr o α → Bool) (u : Update α) :
    ∃ w', w.updateMapObjPro p q objid condition u = some w' ∧ w'.Good ∧
      ∀ a, w.Touches a (.update p q objid condition u) → w'.Active a := by
  unfold World.updateMapObjPro
  cases hobj : w.objs objid with
  | none =>
    refine ⟨w, rfl, h, ?_⟩
    rintro a ⟨t, ht, -⟩
    rw [hobj] at ht
    cases ht
  | some t =>
    by_cases hcond : condition t = true
    swap
    · simp only [if_neg hcond]
      refine ⟨w, rfl, h, ?_⟩
      rintro a ⟨t', ht', hcond', -⟩
      obtain rfl := Option.some.inj (hobj.symm.trans ht')
      exact absurd hcond' hcond
    simp only [if_pos hcond]
    obtain ⟨hmemOwn, hmemType, hnodup⟩ := mem_logicAttrs u t
    obtain ⟨hkeyed, hown⟩ := h.setObj hobj (u.set t) rfl
    have hself : (w.setObj objid (u.set t)).objs objid = some (u.set t) := Function.update_self ..
    have hin : ∀ a, objid ∈ w.ownAidTerrRef a ↔ t.ownAid = some a := by
      intro a
      rw [h.exact a, hobj]
      simp
    have hperm := q.perm (u.logicAttrs t)
    generalize q.order (u.logicAttrs t) = l at hperm
    by_cases hsame : (u.set t).ownAid = t.ownAid
    · -- the tables stay exact
      have hgood : (w.setObj objid (u.set t)).Good := by
        refine ⟨hkeyed, fun a id => ?_⟩
        rw [hown, hsame, ← hin]
        by_cases hid : id = objid
        · subst hid
          simp [World.setObj]
        · simp [hid, World.setObj]
      have hquiet : Attr.ownAid ∉ l := fun hmem => hmemOwn.1 (hperm.mem_iff.1 hmem) hsame
      obtain ⟨w', hw', hlike, href, hactive⟩ := quiet_handlers p objid t.ownAid _ l _ hquiet hkeyed
        ⟨_, hself, rfl⟩ (fun a _ => (hgood.exact a).sound)
      refine ⟨w', hw', hlike.good href hgood, ?_⟩
      rintro a ⟨t', ht', -, htouch⟩
      obtain rfl := Option.some.inj (hobj.symm.trans ht')
      rcases htouch with ⟨hne, -⟩ | ⟨htype, ha⟩
      · exact absurd hsame hne
      · exact hactive a (hgood.exact a) (Or.inr ⟨hperm.mem_iff.2 (hmemType.2 htype), ha⟩)
    · -- the handlers of the other attributes come before and after that of the owner
      obtain ⟨pre, post, rfl⟩ := List.append_of_mem (hperm.mem_iff.2 (hmemOwn.2 hsame))
      have hnodup' := hperm.nodup_iff.2 hnodup
      rw [List.nodup_middle, List.nodup_cons, List.mem_append, not_or] at hnodup'
      obtain ⟨⟨hpre, hpost⟩, -⟩ := hnodup'
      have hne : ∀ a, t.ownAid = some a → (u.set t).ownAid ≠ some a := fun a ha heq => hsame (heq.trans ha.symm)
      obtain ⟨v, hv, hlike, href, -⟩ := quiet_handlers p objid t.ownAid _ pre _ hpre hkeyed ⟨_, hself, rfl⟩
        (fun a ha id hid => (hown a id).2 (Or.inr ⟨fun heq => hne a ((hin a).1 (heq ▸ hid)) ha, hid⟩))
      have hvown : ∀ a id, (∃ x, v.objs id = some x ∧ x.ownAid = some a) ↔
          id = objid ∧ (u.set t).ownAid = some a ∨ id ≠ objid ∧ id ∈ w.ownAidTerrRef a := fun a id =>
        (hlike.own id).trans (hown a id)
      have hvref : ∀ a, v.ownAidTerrRef a = w.ownAidTerrRef a := fun a => congrFun href a
      obtain ⟨v₁, hv₁, hlike₁, href₁, hactive₁⟩ := lose_handler (hlike.keyed hkeyed) p objid t.ownAid
        (fun a => by rw [hvref]; exact hin a) (fun a ha id => by
          rw [hvown, hvref]
          simp [hne a ha])
      obtain ⟨v₂, hv₂, hlike₂, hexact₂, hnew₂, hold₂⟩ := gain_handler (hlike₁.keyed (hlike.keyed hkeyed)) p objid
        (u.set t).ownAid (fun a hmem => ((href₁ a objid).1 hmem).1 rfl) (fun a id => by
          rw [hlike₁.own, hvown, href₁, hvref])
      have hobj₂ : ∃ x, v₂.objs objid = some x ∧ x.ownAid = (u.set t).ownAid := by
        obtain ⟨x, hx, heq⟩ := ((hlike.trans hlike₁).trans hlike₂).obj hself
        exact ⟨x, hx, (Terr.idle_eq heq).2.1⟩
      have hkeyed₂ : v₂.Keyed := ((hlike.trans hlike₁).trans hlike₂).keyed hkeyed
      obtain ⟨v₃, hv₃, hlike₃, href₃, hactive₃⟩ := quiet_handlers p objid t.ownAid _ post v₂ hpost hkeyed₂ hobj₂
        (fun a _ => (hexact₂ a).sound)
      refine ⟨v₃, ?_, hlike₃.good href₃ ⟨hkeyed₂, hexact₂⟩, ?_⟩
      · simp only [List.foldlM_append, List.foldlM_cons, hv, doMoreLogicAttr_ownAid, hv₁, hv₂, Option.bind_eq_bind,
          Option.bind_some]
        exact hv₃
      · rintro a ⟨t', ht', -, htouch⟩
        obtain rfl := Option.some.inj (hobj.symm.trans ht')
        have hor : t.ownAid = some a ∨ (u.set t).ownAid = some a := htouch.elim And.right (fun hand => Or.inr hand.2)
        refine hactive₃ a (hexact₂ a) (Or.inl ?_)
        by_cases hnew : (u.set t).ownAid = some a
        · exact hnew₂ a hnew
        · exact hold₂ a hnew (hactive₁ a (hor.resolve_right hnew))

theorem World.Good.after (h : w.Good) (e : Event o α) :
    ∃ w', w.after e = some w' ∧ w'.Good ∧ ∀ a, w.Touches a e → w'.Active a := by
  cases e with
  | create p t => exact h.create p t
  | remove p objid =>
    obtain ⟨w', hw', hgood, -, hactive⟩ := h.remove_object p objid
    exact ⟨w', hw', hgood, hactive⟩
  | update p q objid condition u => exact h.updateMapObjPro p q objid condition u
  | updateTerrAct p aid =>
    obtain ⟨w', hw', hlooked⟩ := updateTerrAct_looked h.keyed p aid
    refine ⟨w', hw', hlooked.like.good hlooked.ref h, fun a ha => ?_⟩
    obtain rfl : aid = a := ha
    exact hlooked.active (h.exact aid)

theorem World.Good.step (h : w.Good) (e : Event o α) : (w.step e).Good ∧ Right w e := by
  obtain ⟨w', hw', hgood, hactive⟩ := h.after e
  have hstep : w.step e = w' := by rw [World.step, hw', Option.getD_some]
  refine ⟨hstep ▸ hgood, ⟨by rw [hw']; rfl, fun a ha => ?_⟩⟩
  rw [hstep]
  exact hactive a ha

omit [DecidableEq α] in
theorem good_ctor : (World.ctor : World o α).Good := by
  refine ⟨fun id t ht => ?_, fun a id => ?_⟩
  · cases ht
  · simp [World.ctor]

end

end TerrAct
end Sncpp
