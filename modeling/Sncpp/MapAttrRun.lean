import Sncpp.MapAttr
/-!
# MapAttrRun — the bonuses are those of what is owned (`mapObjectMgr:calPlayerAttr`, `calGuildAttr`)

Between two events of a run a bonus is up to date, or a coroutine that will compute it is waiting and comes before any of
`init_over`, or a removal is under way that will start one.
-/
namespace Sncpp
namespace MapAttr

variable {υ α ι κ β : Type} [DecidableEq υ] [DecidableEq α] [DecidableEq ι] {conf : Conf κ β}

theorem add_comm (h : conf.Lawful) (a e e' : Attr κ β) : conf.add (conf.add a e) e' = conf.add (conf.add a e') e := by
  funext k
  unfold Conf.add
  cases e k <;> cases e' k <;> simp only [h.comm]

theorem accumulate_perm (h : conf.Lawful) {l l' : List (Attr κ β)} (hp : l.Perm l') :
    conf.accumulate l = conf.accumulate l' :=
  hp.foldl_eq' (fun e _ e' _ a => add_comm h a e e') _

theorem foldl_filter_none {γ : Type} (f : γ → Attr κ β) (p : γ → Bool) (hp : ∀ x, p x = false → f x = fun _ => none) :
    ∀ (l : List γ) (a : Attr κ β), ((l.filter p).map f).foldl conf.add a = (l.map f).foldl conf.add a
  | [], _ => rfl
  | x :: l, a => by
    rw [List.map_cons, List.foldl_cons]
    cases hx : p x with
    | true =>
      rw [List.filter_cons_of_pos hx, List.map_cons, List.foldl_cons]
      exact foldl_filter_none f p hp l _
    | false =>
      have hadd : conf.add a (f x) = a := by
        rw [hp x hx]
        rfl
      rw [List.filter_cons_of_neg (by rw [hx]; decide), hadd]
      exact foldl_filter_none f p hp l a

/-! ## What is known between two events -/

variable {w w' : World υ α ι κ β} {uid : υ} {objid : ι} {aid : α} {ops : List (Op υ α ι)}

def World.bonus (conf : Conf κ β) (w : World υ α ι κ β) (uid : υ) : Attr κ β :=
  conf.accumulate ((w.ownUidObjRef uid).map (w.effect conf))

def World.terrBonus (conf : Conf κ β) (w : World υ α ι κ β) (aid : α) : Attr κ β :=
  conf.accumulate ((w.ownAidTerrRef aid).map (fun obj => conf.city_attr obj.xyid))

def Due (conf : Conf κ β) (w : World υ α ι κ β) (uid : υ) : Prop :=
  w.ownUidAttr uid = w.bonus conf uid ∨
    (∃ pre post, w.playerForks = pre ++ (uid, false) :: post ∧ (uid, true) ∉ pre) ∨
      w.Removing uid ∧ (uid, true) ∉ w.playerForks

structure Good (conf : Conf κ β) (w : World υ α ι κ β) : Prop where
  nodup : ∀ uid, (w.ownUidObjRef uid).Nodup
  terrNodup : ∀ aid, ((w.ownAidTerrRef aid).map (fun obj => obj.objectid)).Nodup
  due : ∀ uid, Due conf w uid
  sent : ∀ uid, w.sentPlayer uid = w.ownUidAttr uid
  terr : ∀ aid, w.ownAidAttr aid = w.terrBonus conf aid ∨ ∃ nosync, (aid, nosync) ∈ w.guildForks
  sentTerr : ∀ aid, (w.sentGuild aid).1 = w.ownAidAttr aid

omit [DecidableEq υ] [DecidableEq α] [DecidableEq ι] in
theorem good_start : Good conf (World.start : World υ α ι κ β) where
  nodup _ := List.nodup_nil
  terrNodup _ := List.nodup_nil
  due _ := .inl rfl
  sent _ := rfl
  terr _ := .inl rfl
  sentTerr _ := rfl

omit [DecidableEq υ] [DecidableEq α] [DecidableEq ι] in
theorem Due.mono (h : Due conf w uid) (hattr : w'.ownUidAttr uid = w.ownUidAttr uid)
    (hbonus : w'.bonus conf uid = w.bonus conf uid) {l : List (υ × Bool)} (hforks : w'.playerForks = w.playerForks ++ l)
    (hremoving : w.Removing uid → w'.Removing uid) (hl : (uid, true) ∈ l → ¬w.Removing uid) : Due conf w' uid := by
  rcases h with hfresh | ⟨pre, post, heq, hpre⟩ | ⟨hrem, hnot⟩
  · exact .inl (by rw [hattr, hbonus, hfresh])
  · exact .inr (.inl ⟨pre, post ++ l, by rw [hforks, heq]; simp, hpre⟩)
  · refine .inr (.inr ⟨hremoving hrem, ?_⟩)
    rw [hforks, List.mem_append]
    rintro (hmem | hmem)
    · exact hnot hmem
    · exact hl hmem hrem

omit [DecidableEq υ] [DecidableEq α] [DecidableEq ι] in
theorem Inited.not_mem (h : w.Inited) (uid : υ) : (uid, true) ∉ w.playerForks := fun hmem => nomatch h _ hmem

omit [DecidableEq υ] [DecidableEq α] [DecidableEq ι] in
theorem due_queued (h : w.Inited) (hforks : w'.playerForks = w.playerForks ++ [(uid, false)]) : Due conf w' uid :=
  .inr (.inl ⟨w.playerForks, [], hforks, Inited.not_mem h uid⟩)

omit [DecidableEq α] [DecidableEq ι] in
theorem Good.change (h : Good conf w) (hinit : w.Inited) {l : List ι} (hl : l.Nodup)
    (hops : ∀ u, u ≠ uid → w.Removing u → ({ w with ops := ops } : World υ α ι κ β).Removing u) :
    Good conf { w with
      ops := ops
      ownUidObjRef := Function.update w.ownUidObjRef uid l
      playerForks := w.playerForks ++ [(uid, false)] } := by
  refine ⟨fun u => ?_, h.terrNodup, fun u => ?_, h.sent, h.terr, h.sentTerr⟩
  · by_cases hu : u = uid
    · subst hu
      dsimp only
      rw [Function.update_self]
      exact hl
    · dsimp only
      rw [Function.update_of_ne hu]
      exact h.nodup u
  · by_cases hu : u = uid
    · subst hu
      exact due_queued hinit rfl
    · refine (h.due u).mono rfl ?_ rfl (hops u hu) (fun hmem => ?_)
      · unfold World.bonus
        dsimp only
        rw [Function.update_of_ne hu]
        rfl
      · rw [List.mem_singleton] at hmem
        cases hmem

omit [DecidableEq α] in
theorem Good.gain (h : Good conf w) (ops : List (Op υ α ι)) (hinit : w.Inited)
    (hops : ∀ u, u ≠ uid → w.Removing u → ({ w with ops := ops } : World υ α ι κ β).Removing u) (objid : ι) :
    Good conf (({ w with ops := ops } : World υ α ι κ β).gain uid objid) := by
  refine h.change hinit ?_ hops
  dsimp only
  split_ifs with hmem
  · exact h.nodup uid
  · exact List.nodup_append.2 ⟨h.nodup uid, List.nodup_singleton _, fun a ha b hb => by
      rintro rfl
      exact hmem (List.mem_singleton.1 hb ▸ ha)⟩

omit [DecidableEq α] in
theorem Good.lose (h : Good conf w) (ops : List (Op υ α ι)) (hinit : w.Inited)
    (hops : ∀ u, u ≠ uid → w.Removing u → ({ w with ops := ops } : World υ α ι κ β).Removing u) (objid : ι) :
    Good conf (({ w with ops := ops } : World υ α ι κ β).lose uid objid) :=
  h.change hinit ((h.nodup uid).erase objid) hops

omit [DecidableEq υ] [DecidableEq ι] in
theorem Good.changeTerr (h : Good conf w) {l : List (Obj υ α ι)} (hl : (l.map (fun obj => obj.objectid)).Nodup) :
    Good conf { w with
      ownAidTerrRef := Function.update w.ownAidTerrRef aid l
      guildForks := w.guildForks ++ [(aid, false)] } := by
  refine ⟨h.nodup, fun a => ?_, h.due, h.sent, fun a => ?_, h.sentTerr⟩
  · by_cases ha : a = aid
    · subst ha
      dsimp only
      rw [Function.update_self]
      exact hl
    · dsimp only
      rw [Function.update_of_ne ha]
      exact h.terrNodup a
  · by_cases ha : a = aid
    · subst ha
      exact .inr ⟨false, List.mem_append_right _ (List.mem_singleton_self _)⟩
    · rcases h.terr a with heq | ⟨nosync, hmem⟩
      · refine .inl ?_
        unfold World.terrBonus
        dsimp only
        rw [Function.update_of_ne ha]
        exact heq
      · exact .inr ⟨nosync, List.mem_append_left _ hmem⟩

omit [DecidableEq υ] [DecidableEq α] in
theorem nodup_without (h : Good conf w) (aid : α) (objid : ι) :
    (((w.ownAidTerrRef aid).filter (fun o => o.objectid ≠ objid)).map (fun obj => obj.objectid)).Nodup :=
  (h.terrNodup aid).sublist (List.filter_sublist.map _)

omit [DecidableEq υ] in
theorem Good.loseTerr (h : Good conf w) (aid : α) (objid : ι) : Good conf (w.loseTerr aid objid) :=
  h.changeTerr (nodup_without h aid objid)

omit [DecidableEq υ] in
theorem Good.gainTerr (h : Good conf w) (aid : α) (obj : Obj υ α ι) : Good conf (w.gainTerr aid obj) := by
  refine h.changeTerr ?_
  rw [List.map_append]
  refine List.nodup_append.2 ⟨nodup_without h aid obj.objectid, List.nodup_singleton _, fun a ha b hb => ?_⟩
  obtain ⟨o, ho, rfl⟩ := List.mem_map.1 ha
  rw [List.map_singleton, List.mem_singleton] at hb
  rw [hb]
  simpa using (List.mem_filter.1 ho).2

omit [DecidableEq υ] [DecidableEq α] in
theorem Good.place (h : Good conf w) (ops : List (Op υ α ι)) {v : Option (Obj υ α ι)}
    (hops : ∀ u, w.Removing u → ({ w with ops := ops } : World υ α ι κ β).Removing u)
    (hlist : ∀ u, objid ∈ w.ownUidObjRef u →
      ({ w with objs := Function.update w.objs objid v } : World υ α ι κ β).effect conf objid = w.effect conf objid ∨
        w.Inited ∧ ({ w with ops := ops } : World υ α ι κ β).Removing u) :
    Good conf { w with objs := Function.update w.objs objid v, ops := ops } := by
  refine ⟨h.nodup, h.terrNodup, fun u => ?_, h.sent, h.terr, h.sentTerr⟩
  have hother : ∀ id, id ≠ objid →
      ({ w with objs := Function.update w.objs objid v, ops := ops } : World υ α ι κ β).effect conf id =
        w.effect conf id := by
    intro id hid
    unfold World.effect
    dsimp only
    rw [Function.update_of_ne hid]
  -- the bonus stays unless the place is on the list and has another
  have hsame : (objid ∈ w.ownUidObjRef u →
      ({ w with objs := Function.update w.objs objid v } : World υ α ι κ β).effect conf objid = w.effect conf objid) →
        Due conf ({ w with objs := Function.update w.objs objid v, ops := ops } : World υ α ι κ β) u := by
    intro heff
    refine (h.due u).mono (l := []) rfl ?_ (List.append_nil _).symm (hops u) (fun hmem => nomatch hmem)
    refine congrArg conf.accumulate (List.map_congr_left fun id hid => ?_)
    by_cases hid' : id = objid
    · subst hid'
      exact heff hid
    · exact hother id hid'
  by_cases hmem : objid ∈ w.ownUidObjRef u
  · rcases hlist u hmem with heff | ⟨hinit, hrem⟩
    · exact hsame fun _ => heff
    · exact .inr (.inr ⟨hrem, Inited.not_mem hinit u⟩)
  · exact hsame fun hmem' => absurd hmem' hmem

omit [DecidableEq υ] [DecidableEq α] [DecidableEq ι] in
theorem Good.setOps (h : Good conf w)
    (hops : ∀ u, w.Removing u → ({ w with ops := ops } : World υ α ι κ β).Removing u) : Good conf { w with ops := ops } :=
  ⟨h.nodup, h.terrNodup, fun u => (h.due u).mono (l := []) rfl rfl (List.append_nil _).symm (hops u)
    (fun hmem => nomatch hmem), h.sent, h.terr, h.sentTerr⟩

omit [DecidableEq υ] [DecidableEq α] [DecidableEq ι] in
theorem removing_append (op : Op υ α ι) {u : υ} (h : w.Removing u) :
    ({ w with ops := w.ops ++ [op] } : World υ α ι κ β).Removing u := by
  obtain ⟨objid, hmem⟩ := h
  exact ⟨objid, List.mem_append_left _ hmem⟩

omit [DecidableEq υ] [DecidableEq α] [DecidableEq ι] in
theorem removing_eraseIdx {n : Nat} {op : Op υ α ι} (hn : w.ops[n]? = some op) {u : υ}
    (hop : ∀ objid, op ≠ .remove u objid) (h : w.Removing u) :
    ({ w with ops := w.ops.eraseIdx n } : World υ α ι κ β).Removing u := by
  obtain ⟨objid, hmem⟩ := h
  obtain ⟨i, hi⟩ := List.mem_iff_getElem?.1 hmem
  refine ⟨objid, List.mem_eraseIdx_iff_getElem?.2 ⟨i, ?_, hi⟩⟩
  rintro rfl
  rw [hn] at hi
  exact hop objid (Option.some.inj hi)

theorem Good.add_object (h : Good conf w) {obj : Obj υ α ι} (known : Bool) (hinit : w.Inited)
    (hplace : ∀ u, obj.objectid ∈ w.ownUidObjRef u → Op.remove u obj.objectid ∈ w.ops) :
    Good conf (w.add_object obj known) := by
  have hput : Good conf { w with objs := Function.update w.objs obj.objectid (some obj) } :=
    h.place w.ops (fun _ hrem => hrem) fun u hu => .inr ⟨hinit, _, hplace u hu⟩
  unfold World.add_object
  dsimp only
  split
  · split_ifs
    · exact hput.gain w.ops hinit (fun _ _ hrem => hrem) _
    · exact hput.setOps fun _ => removing_append _
  · split
    · split_ifs
      · exact hput.gainTerr _ _
      · exact hput
    · exact hput

omit [DecidableEq υ] in
theorem Good.remove_object (h : Good conf w) (hinit : w.Inited)
    (howner : ∀ obj ∈ w.objs objid, ∀ u, objid ∈ w.ownUidObjRef u → obj.owner = some u) :
    Good conf (w.remove_object objid) := by
  unfold World.remove_object
  split
  · exact h
  · rename_i obj hobj
    dsimp only
    split
    · rename_i u hu
      refine h.place _ (fun _ => removing_append _) fun u' hu' => .inr ⟨hinit, objid, ?_⟩
      obtain rfl : u = u' := Option.some.inj (hu.symm.trans (howner obj hobj u' hu'))
      exact List.mem_append_right _ (List.mem_singleton_self _)
    · rename_i hnone
      have hput : Good conf { w with objs := Function.update w.objs objid none } := by
        refine h.place w.ops (fun _ hrem => hrem) fun u hu => ?_
        have := howner obj hobj u hu
        rw [hnone] at this
        cases this
      split
      · split_ifs
        · exact hput.loseTerr _ _
        · exact hput
      · exact hput

omit [DecidableEq α] in
theorem Good.newUid (h : Good conf w) (ops : List (Op υ α ι)) (hinit : w.Inited)
    (hops : ∀ u, w.Removing u → ({ w with ops := ops } : World υ α ι κ β).Removing u) (uid : υ) (objid : ι) :
    Good conf (({ w with ops := ops } : World υ α ι κ β).newUid uid objid) := by
  unfold World.newUid
  split_ifs
  · exact h.setOps hops
  · exact h.gain _ hinit (fun u _ => hops u) objid

omit [DecidableEq υ] in
theorem Good.newAid (h : Good conf w) (aid : α) (obj : Obj υ α ι) : Good conf (w.newAid aid obj) := by
  unfold World.newAid
  split_ifs
  · exact h
  · exact h.gainTerr aid obj

omit [DecidableEq υ] [DecidableEq α] [DecidableEq ι] in
theorem setOwnUid_mapType (o : OwnRef.Obj υ α ι) (v : Option υ) : (o.setOwnUid v).mapType = o.mapType := by
  unfold OwnRef.Obj.setOwnUid
  split_ifs <;> rfl

omit [DecidableEq υ] [DecidableEq α] [DecidableEq ι] in
theorem setOwnAid_mapType (o : OwnRef.Obj υ α ι) (v : Option α) : (o.setOwnAid v).mapType = o.mapType := by
  unfold OwnRef.Obj.setOwnAid
  split_ifs <;> rfl

omit [DecidableEq υ] [DecidableEq α] in
theorem Good.reown (h : Good conf w) {obj : Obj υ α ι} (hobj : w.objs objid = some obj) {o : OwnRef.Obj υ α ι}
    (ho : o.mapType = obj.mapType) :
    Good conf { w with objs := Function.update w.objs objid (some { obj with toObj := o }) } := by
  refine h.place w.ops (fun _ hrem => hrem) fun u _ => .inl ?_
  simp [World.effect, hobj, ho]

omit [DecidableEq α] in
theorem Good.updateOwnUid (h : Good conf w) (hinit : w.Inited) (objid : ι) (v : Option υ) :
    Good conf (w.updateOwnUid objid v) := by
  unfold World.updateOwnUid
  split
  · exact h
  · rename_i obj hobj
    have hput := h.reown hobj (setOwnUid_mapType obj.toObj v)
    split_ifs
    · exact h
    · dsimp only
      split
      · split_ifs
        · exact hput.setOps fun _ => removing_append _
        · exact (hput.lose w.ops hinit (fun _ _ hrem => hrem) objid).setOps fun _ => removing_append _
      · split_ifs
        · exact hput
        · exact hput.lose w.ops hinit (fun _ _ hrem => hrem) objid
      · exact hput.newUid w.ops hinit (fun _ hrem => hrem) _ _
      · exact hput
    · exact hput

omit [DecidableEq υ] in
theorem Good.updateOwnAid (h : Good conf w) (objid : ι) (v : Option α) : Good conf (w.updateOwnAid objid v) := by
  unfold World.updateOwnAid
  split
  · exact h
  · rename_i obj hobj
    have hput := h.reown hobj (setOwnAid_mapType obj.toObj v)
    split_ifs
    · exact h
    · dsimp only
      split
      · split_ifs
        · exact (hput.loseTerr _ _).setOps fun _ => removing_append _
        · exact hput.setOps fun _ => removing_append _
      · split_ifs
        · exact hput.loseTerr _ _
        · exact hput
      · exact hput.newAid _ _
      · exact hput
    · exact hput

theorem Good.resume (h : Good conf w) (hinit : w.Inited) (n : Nat) : Good conf (w.resume n) := by
  unfold World.resume
  split
  · exact h
  · rename_i op hn
    cases op with
    | add u objid => exact h.gain _ hinit (fun _ _ => removing_eraseIdx hn fun _ heq => nomatch heq) objid
    | remove u objid =>
      refine h.lose _ hinit (fun u' hu' => removing_eraseIdx hn fun _ heq => ?_) objid
      cases heq
      exact hu' rfl
    | newUid u objid => exact h.newUid _ hinit (fun _ => removing_eraseIdx hn fun _ heq => nomatch heq) u objid
    | newAid a obj => exact (h.setOps fun _ => removing_eraseIdx hn fun _ heq => nomatch heq).newAid a obj

omit [DecidableEq υ] [DecidableEq α] [DecidableEq ι] in
theorem Good.fork (h : Good conf w) (uid : υ) (nosync : Bool) (hremoving : nosync = true → ¬w.Removing uid) :
    Good conf { w with playerForks := w.playerForks ++ [(uid, nosync)] } := by
  refine ⟨h.nodup, h.terrNodup, fun u => (h.due u).mono rfl rfl rfl (fun hrem => hrem) fun hmem => ?_, h.sent, h.terr,
    h.sentTerr⟩
  rw [List.mem_singleton] at hmem
  cases hmem
  exact hremoving rfl

omit [DecidableEq υ] [DecidableEq α] [DecidableEq ι] in
theorem Good.init (h : Good conf w) (aid : α) : Good conf (w.init aid) := by
  unfold World.init
  split_ifs
  · exact h
  · exact ⟨h.nodup, h.terrNodup, h.due, h.sent,
      fun a => (h.terr a).imp_right fun hmem => hmem.imp fun _ => List.mem_append_left _, h.sentTerr⟩

omit [DecidableEq α] [DecidableEq ι] in
theorem Good.ran (h : Good conf w) {f : υ × Bool} {rest : List (υ × Bool)} (hforks : w.playerForks = f :: rest)
    {attr : υ → Attr κ β} {sent : υ → Attr κ β} (hattr : attr f.1 = w.bonus conf f.1)
    (hother : ∀ u, u ≠ f.1 → attr u = w.ownUidAttr u) (hsent : ∀ u, sent u = attr u) :
    Good conf { w with playerForks := rest, ownUidAttr := attr, sentPlayer := sent } := by
  refine ⟨h.nodup, h.terrNodup, fun u => ?_, hsent, h.terr, h.sentTerr⟩
  by_cases hu : u = f.1
  · subst hu
    exact .inl hattr
  · rcases h.due u with hfresh | ⟨pre, post, heq, hpre⟩ | ⟨hrem, hnot⟩
    · exact .inl ((hother u hu).trans hfresh)
    · rw [hforks] at heq
      cases pre with
      | nil =>
        rw [List.nil_append, List.cons.injEq] at heq
        exact absurd (congrArg Prod.fst heq.1).symm hu
      | cons g pre =>
        rw [List.cons_append, List.cons.injEq] at heq
        exact .inr (.inl ⟨pre, post, heq.2, fun hmem => hpre (List.mem_cons_of_mem _ hmem)⟩)
    · refine .inr (.inr ⟨hrem, fun hmem => hnot ?_⟩)
      rw [hforks]
      exact List.mem_cons_of_mem _ hmem

omit [DecidableEq α] [DecidableEq ι] in
theorem Good.calPlayerAttr (hconf : conf.Lawful) (h : Good conf w) (p : Pairs ι)
    (hkept : ∀ f ∈ w.playerForks.head?, w.ownUidObjRef f.1 ≠ [] ∨ w.ownUidAttr f.1 = fun _ => none) :
    Good conf (w.calPlayerAttr conf p) := by
  unfold World.calPlayerAttr
  split
  · exact h
  · rename_i u nosync rest hforks
    dsimp only
    split_ifs with hempty hdiff hns
    · have hnone := (hkept (u, nosync) (by rw [hforks]; rfl)).resolve_left (fun hne => hne hempty)
      refine h.ran hforks ?_ (fun _ _ => rfl) h.sent
      rw [World.bonus, hempty]
      exact hnone
    · -- the first coroutine of `init_over` finds what there is
      exfalso
      subst hns
      have hfresh : w.ownUidAttr u = w.bonus conf u := by
        rcases h.due u with hfresh | ⟨pre, post, heq, hpre⟩ | ⟨-, hnot⟩
        · exact hfresh
        · rw [hforks] at heq
          cases pre with
          | nil => cases heq
          | cons g pre =>
            rw [List.cons_append, List.cons.injEq] at heq
            exact absurd (heq.1 ▸ List.mem_cons_self) hpre
        · exact absurd (hforks ▸ List.mem_cons_self) hnot
      refine (hconf.diff _ _).1 hdiff (hfresh.trans ?_)
      exact accumulate_perm hconf ((p.perm _).map _).symm
    · refine h.ran hforks ?_ (fun u' hu' => Function.update_of_ne hu' _ _) (fun u' => ?_)
      · dsimp only
        rw [Function.update_self]
        exact accumulate_perm hconf ((p.perm _).map _)
      · by_cases hu : u' = u
        · subst hu
          rw [Function.update_self, Function.update_self]
        · rw [Function.update_of_ne hu, Function.update_of_ne hu, h.sent]
    · have hsame := not_not.1 fun hne => hdiff ((hconf.diff _ _).2 hne)
      refine h.ran hforks (hsame.trans ?_) (fun _ _ => rfl) h.sent
      exact accumulate_perm hconf ((p.perm _).map _)

omit [DecidableEq υ] [DecidableEq ι] in
theorem Good.ranTerr (h : Good conf w) {f : α × Bool} {rest : List (α × Bool)} (hforks : w.guildForks = f :: rest)
    {attr : α → Attr κ β} {sent : α → Attr κ β × Nat} (hattr : attr f.1 = w.terrBonus conf f.1)
    (hother : ∀ a, a ≠ f.1 → attr a = w.ownAidAttr a) (hsent : ∀ a, (sent a).1 = attr a) :
    Good conf { w with guildForks := rest, ownAidAttr := attr, sentGuild := sent } := by
  refine ⟨h.nodup, h.terrNodup, h.due, h.sent, fun a => ?_, hsent⟩
  by_cases ha : a = f.1
  · subst ha
    exact .inl hattr
  · rcases h.terr a with hfresh | ⟨nosync, hmem⟩
    · exact .inl ((hother a ha).trans hfresh)
    · rw [hforks] at hmem
      rcases List.mem_cons.1 hmem with rfl | hmem
      · exact absurd rfl ha
      · exact .inr ⟨nosync, hmem⟩

omit [DecidableEq υ] [DecidableEq ι] in
theorem Good.calGuildAttr (hconf : conf.Lawful) (h : Good conf w) (p : Pairs (Obj υ α ι)) :
    Good conf (w.calGuildAttr conf p) := by
  unfold World.calGuildAttr
  split
  · exact h
  · rename_i a nosync rest hforks
    have hperm : conf.accumulate ((p.order (w.ownAidTerrRef a)).map (fun obj => conf.city_attr obj.xyid)) =
        w.terrBonus conf a := accumulate_perm hconf ((p.perm _).map _)
    -- what is told is what there is
    have htold : ∀ (new : Attr κ β) (n : Nat) a', (Function.update w.sentGuild a (new, n) a').1 =
        Function.update w.ownAidAttr a new a' := by
      intro new n a'
      by_cases ha : a' = a
      · subst ha
        rw [Function.update_self, Function.update_self]
      · rw [Function.update_of_ne ha, Function.update_of_ne ha, h.sentTerr]
    dsimp only
    split_ifs with hempty hdiff hdiff
    · refine h.ranTerr hforks ?_ (fun a' ha' => Function.update_of_ne ha' _ _) (htold _ _)
      dsimp only
      rw [Function.update_self, World.terrBonus, hempty]
      rfl
    · have hsame := not_not.1 fun hne => hdiff ((hconf.diff _ _).2 hne)
      have hupdate : Function.update w.ownAidAttr a (fun _ => none) = w.ownAidAttr := by
        rw [← hsame, Function.update_eq_self]
      rw [hupdate]
      refine h.ranTerr hforks (hsame.trans ?_) (fun _ _ => rfl) h.sentTerr
      rw [World.terrBonus, hempty]
      rfl
    · refine h.ranTerr hforks ?_ (fun a' ha' => Function.update_of_ne ha' _ _) (htold _ _)
      dsimp only
      rw [Function.update_self, hperm]
    · have hsame := not_not.1 fun hne => hdiff (.inl ((hconf.diff _ _).2 hne))
      exact h.ranTerr hforks (hsame.trans hperm) (fun _ _ => rfl) h.sentTerr

theorem Good.step (hconf : conf.Lawful) (h : Good conf w) (e : Event υ α ι) (hkept : w.Kept e) :
    Good conf (w.step conf e) := by
  cases e with
  | add obj known => exact h.add_object known hkept.1 hkept.2
  | remove objid => exact h.remove_object hkept.1 hkept.2
  | ownUid objid v => exact h.updateOwnUid hkept objid v
  | ownAid objid v => exact h.updateOwnAid objid v
  | resume n => exact h.resume hkept n
  | settled objid =>
    simp only [World.step, World.settled]
    split
    · exact h
    · split
      · split_ifs
        · exact h.fork _ false (fun hf => nomatch hf)
        · exact h
      · exact h
  | init_over uid =>
    simp only [World.step, World.init_over]
    split_ifs
    · exact h
    · exact h.fork uid true fun _ => hkept
  | init aid => exact h.init aid
  | calPlayerAttr p => exact h.calPlayerAttr hconf p hkept
  | calGuildAttr p => exact h.calGuildAttr hconf p

omit [DecidableEq υ] [DecidableEq α] [DecidableEq ι] in
theorem Good.owned (hconf : conf.Lawful) (h : Good conf w) {objids : List ι} (hnodup : objids.Nodup)
    (hmem : ∀ objid, objid ∈ objids ↔ w.Owns uid objid) :
    conf.accumulate (objids.map (w.effect conf)) = w.bonus conf uid := by
  have hperm : objids.Perm ((w.ownUidObjRef uid).filter (fun objid => (w.objs objid).isSome)) := by
    refine (List.perm_ext_iff_of_nodup hnodup ((h.nodup uid).filter _)).2 fun objid => ?_
    rw [hmem, List.mem_filter]
    rfl
  rw [accumulate_perm hconf (hperm.map _)]
  refine foldl_filter_none _ _ (fun objid hnone => ?_) _ _
  rw [World.effect, Option.isSome_eq_false_iff.1 hnone |> Option.isNone_iff_eq_none.1]

theorem Good.right (hconf : conf.Lawful) (h : Good conf w) (e : Event υ α ι) (hkept : w.Kept e) : w.Right conf e where
  player uid hforks hremoving := by
    have hgood := h.step hconf e hkept
    refine ⟨fun objids hnodup hmem => ?_, hgood.sent uid⟩
    rw [hgood.owned hconf hnodup hmem]
    rcases hgood.due uid with hfresh | ⟨pre, post, heq, -⟩ | ⟨hrem, -⟩
    · exact hfresh
    · exact absurd (heq ▸ List.mem_append_right _ List.mem_cons_self) (hforks false)
    · exact absurd hrem hremoving
  guild aid hforks := by
    have hgood := h.step hconf e hkept
    refine ⟨fun terrs hnodup hmem => ?_, hgood.sentTerr aid⟩
    have hperm : terrs.Perm ((w.step conf e).ownAidTerrRef aid) :=
      (List.perm_ext_iff_of_nodup hnodup ((hgood.terrNodup aid).of_map _)).2 hmem
    rcases hgood.terr aid with hfresh | ⟨nosync, hin⟩
    · rw [accumulate_perm hconf (hperm.map _)]
      exact hfresh
    · exact absurd hin (hforks nosync)

def unit : Conf Unit Nat :=
  ⟨fun _ _ _ _ => some 1, fun _ _ => some 1, fun _ _ _ => 0, fun _ c v => c.getD 0 + v, fun a b => decide (a () ≠ b ())⟩

theorem unit_lawful : unit.Lawful where
  comm _ c v v' := by
    simp only [unit, Option.getD_some]
    omega
  diff a b := by
    rw [unit, decide_eq_true_iff, not_iff_not]
    exact ⟨fun h => funext fun _ => h, fun h => congrFun h ()⟩

def inOrder {γ : Type} : Pairs γ := ⟨id, fun l => .refl l⟩

def mine (objid : Nat) (ownUid : Option Nat) : Obj Nat Nat Nat :=
  ⟨⟨objid, .buildmine, none, ownUid, none, fun h => (nomatch h), fun _ => rfl⟩, 0, 1, 0, 0⟩

end MapAttr
end Sncpp
