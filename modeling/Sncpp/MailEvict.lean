import Sncpp.MailRecount
/-!
# MailEvict — which mail goes when a list is full (`addNewMail`)

A new mail is put in front of its list, and if the list is over its limit one of the older mails goes: the oldest that has
no attachment to claim, or the oldest at all when every one of them has (`addNewMail_evicts`).  Everything else a player's
mail can do only shortens the lists and leaves the ids of the cells alone (`Shortened`), so no list of a run gets over its
limit (`evicts_along`).
-/
namespace Sncpp
namespace Mail

/-- A list of cells of its own set type, with no mail id twice. -/
structure Listed (m : PlayerMail) (st : SetType) : Prop where
  own : ∀ r ∈ m.listOf st, (m.cells r).settype = st ∧ r < m.next
  distinct : ((m.listOf st).map (fun r => (m.cells r).mid)).Nodup

/-- **`l'` is `l` without its oldest cell that has nothing to claim**, or without the oldest of all when each has. -/
def Evicted (m : PlayerMail) (l l' : List Nat) : Prop :=
  ∃ pre r post, l = pre ++ r :: post ∧ l' = pre ++ post ∧ (∀ x ∈ post, (m.cells x).unclaimed = true) ∧
    ((m.cells r).unclaimed = true → post = [] ∧ ∀ x ∈ pre, (m.cells x).unclaimed = true)

/-- **The new mail comes first**, the cells are as before but for the new one, and the list keeps to its limit by giving
up a cell. -/
structure Placed (m : PlayerMail) (v : Head) (m' : PlayerMail) : Prop where
  length : (m'.listOf v.settype).length = min ((m.listOf v.settype).length + 1) v.settype.limit
  front : ∃ l, m'.listOf v.settype = m.next :: l ∧ m'.cells m.next = defaultListCell v ∧
    if (m.listOf v.settype).length < v.settype.limit then l = m.listOf v.settype else Evicted m (m.listOf v.settype) l
  cells : ∀ r, r ≠ m.next → m'.cells r = m.cells r
  others : ∀ st, st ≠ v.settype → m'.listOf st = m.listOf st

section Evict

variable {m : PlayerMail}

theorem Shape.listed (h : Shape m.toData) (st : SetType) : Listed m st where
  own := h.own st
  distinct := List.Nodup.map_on (fun r hr r' hr' => h.distinct st st r r' hr hr') (h.nodup st)

/-- **The cell that `surplus` names**: the search runs from the end of the old cells. -/
theorem surplus_spec {r x : Nat} {l : List Nat} (hl : l ≠ []) (hx : m.surplus (r :: l) = some x) :
    ∃ pre post, l = pre ++ x :: post ∧ (∀ y ∈ post, (m.cells y).unclaimed = true) ∧
      ((m.cells x).unclaimed = true → post = [] ∧ ∀ y ∈ pre, (m.cells y).unclaimed = true) := by
  have hlast : (r :: l).getLast? = some (l.getLast hl) := by
    rw [List.getLast?_eq_some_getLast (List.cons_ne_nil r l), List.getLast_cons hl]
  have hsplit := List.dropLast_append_getLast hl
  unfold PlayerMail.surplus at hx
  rw [hlast] at hx
  simp only [List.tail_cons] at hx
  split at hx
  · rename_i hun
    cases hfind : l.dropLast.reverse.find? (fun r => !(m.cells r).unclaimed) with
    | none =>
      rw [hfind] at hx
      obtain rfl := Option.some.inj hx
      refine ⟨l.dropLast, [], hsplit.symm, fun y hy => (by cases hy), fun _ => ⟨rfl, fun y hy => ?_⟩⟩
      simpa using List.find?_eq_none.1 hfind y (List.mem_reverse.2 hy)
    | some y =>
      rw [hfind, Option.getD_some] at hx
      obtain rfl := Option.some.inj hx
      obtain ⟨hy, newer, older, hrev, hnewer⟩ := List.find?_eq_some_iff_append.1 hfind
      have hdrop : l.dropLast = older.reverse ++ y :: newer.reverse := by
        rw [← List.reverse_reverse l.dropLast, hrev]
        simp
      refine ⟨older.reverse, newer.reverse ++ [l.getLast hl], ?_, fun z hz => ?_, fun hun' => ?_⟩
      · refine hsplit.symm.trans ?_
        rw [hdrop]
        simp
      · rcases List.mem_append.1 hz with hz | hz
        · simpa using hnewer z (List.mem_reverse.1 hz)
        · rw [List.mem_singleton.1 hz]
          exact hun
      · simp [hun'] at hy
  · rename_i hun
    obtain rfl := Option.some.inj hx
    exact ⟨l.dropLast, [], hsplit.symm, fun y hy => (by cases hy), fun hun' => absurd hun' hun⟩

theorem eraseP_append (f : Nat → Nat) {pre post : List Nat} {r : Nat} (h : ((pre ++ r :: post).map f).Nodup) :
    (pre ++ r :: post).eraseP (fun x => decide (f x = f r)) = pre ++ post := by
  rw [List.map_append, List.map_cons, List.nodup_append] at h
  have hpre : ∀ x ∈ pre, ¬ decide (f x = f r) = true := by
    intro x hx he
    exact h.2.2 _ (List.mem_map_of_mem hx) _ List.mem_cons_self (of_decide_eq_true he)
  rw [List.eraseP_append_right _ hpre, List.eraseP_cons_of_pos (by simp)]

theorem removeMail_list {st : SetType} {r : Nat} (hst : (m.cells r).settype = st) {l : List Nat} (hl : m.list st = some l) :
    (m.removeMail (m.cells r).mid true (some r)).2.toData =
      (m.setList st (l.eraseP (fun x => decide ((m.cells x).mid = (m.cells r).mid)))).toData := by
  subst hst
  unfold PlayerMail.removeMail
  simp only [Option.some_or, hl, Bool.not_true, Bool.false_and, Bool.false_eq_true, if_false]
  rw [removeRef_toData]

theorem addNewMail_data (m : PlayerMail) (v : Head) (share : Option Nat) (st : SetType) :
    (m.addNewMail v share true).2.listOf st = (m.push (defaultListCell v)).listOf st ∧
      (m.addNewMail v share true).2.cells = (m.push (defaultListCell v)).cells := by
  have h := addRef_toData (m.push (defaultListCell v)) m.next
  constructor
  · show ((m.push (defaultListCell v)).addRef m.next).toData.listOf st = _
    rw [h]
  · show ((m.push (defaultListCell v)).addRef m.next).toData.cells = _
    rw [h]

theorem listOf_setList (m : PlayerMail) (st st' : SetType) (l : List Nat) :
    (m.setList st l).listOf st' = if st' = st then l else m.listOf st' := by
  unfold PlayerMail.setList Data.listOf
  by_cases he : st' = st
  · simp [he]
  · simp [he]

theorem place_list (m : PlayerMail) (c : Cell) : (m.place c).list c.settype = some (m.next :: m.listOf c.settype) := by
  simp [PlayerMail.place, PlayerMail.setList]

theorem place_cells_ne (m : PlayerMail) (c : Cell) {r : Nat} (hr : r ≠ m.next) : (m.place c).cells r = m.cells r := by
  simp [PlayerMail.place, PlayerMail.setList, PlayerMail.setCell, hr]

theorem push_full {c : Cell} (h : Listed m c.settype) (hfull : (m.listOf c.settype).length = c.settype.limit)
    (hfresh : ∀ r ∈ m.listOf c.settype, (m.cells r).mid ≠ c.mid) :
    ∃ l, Evicted m (m.listOf c.settype) l ∧ (m.push c).toData = ((m.place c).setList c.settype (m.next :: l)).toData := by
  have hne : m.listOf c.settype ≠ [] := by
    intro hnil
    have hpos := limit_pos c.settype
    rw [hnil] at hfull
    simp only [List.length_nil] at hfull
    omega
  have hnext : ∀ r ∈ m.listOf c.settype, (m.place c).cells r = m.cells r :=
    fun r hr => place_cells_ne m c (Nat.ne_of_lt (h.own r hr).2)
  have hlist : (m.place c).listOf c.settype = m.next :: m.listOf c.settype := by rw [place_listOf, if_pos rfl]
  have hover : c.settype.limit < ((m.place c).listOf c.settype).length := by
    rw [hlist, List.length_cons, hfull]
    exact Nat.lt_succ_self _
  obtain ⟨x, hx⟩ : ∃ x, (m.place c).surplus (m.next :: m.listOf c.settype) = some x := by
    unfold PlayerMail.surplus
    rw [List.getLast?_eq_some_getLast (List.cons_ne_nil _ _)]
    simp only
    split
    · exact ⟨_, rfl⟩
    · exact ⟨_, rfl⟩
  obtain ⟨pre, post, hl, hpost, hpre⟩ := surplus_spec hne hx
  have hxl : x ∈ m.listOf c.settype := by
    rw [hl]
    exact List.mem_append_right _ List.mem_cons_self
  have hev : Evicted m (m.listOf c.settype) (pre ++ post) := by
    refine ⟨pre, x, post, hl, rfl, fun y hy => ?_, fun hun => ?_⟩
    · rw [← hnext y (by rw [hl]; exact List.mem_append_right _ (List.mem_cons_of_mem _ hy))]
      exact hpost y hy
    · rw [← hnext x hxl] at hun
      obtain ⟨hnil, hall⟩ := hpre hun
      refine ⟨hnil, fun y hy => ?_⟩
      rw [← hnext y (by rw [hl]; exact List.mem_append_left _ hy)]
      exact hall y hy
  refine ⟨pre ++ post, hev, ?_⟩
  unfold PlayerMail.push PlayerMail.trim
  rw [if_pos hover, hlist, hx]
  simp only
  have hmids : ((m.next :: pre ++ x :: post).map (fun r => ((m.place c).cells r).mid)).Nodup := by
    rw [List.cons_append, ← hl, List.map_cons, List.map_congr_left (fun r hr => congrArg Cell.mid (hnext r hr)), place_self]
    refine List.nodup_cons.2 ⟨fun hm => ?_, h.distinct⟩
    obtain ⟨r, hr, he⟩ := List.mem_map.1 hm
    exact hfresh r hr he
  have herase := eraseP_append (fun r => ((m.place c).cells r).mid) hmids
  rw [List.cons_append, ← hl] at herase
  have hst : ((m.place c).cells x).settype = c.settype := by
    rw [hnext x hxl]
    exact (h.own x hxl).1
  rw [removeMail_list hst (place_list m c), herase]
  rfl

theorem addNewMail_placed {v : Head} (h : Listed m v.settype) (hlen : (m.listOf v.settype).length ≤ v.settype.limit)
    (hfresh : ∀ r ∈ m.listOf v.settype, (m.cells r).mid ≠ v.mid) (share : Option Nat) :
    Placed m v (m.addNewMail v share true).2 := by
  have hdata := addNewMail_data m v share
  by_cases hlt : (m.listOf v.settype).length < v.settype.limit
  · have hpush : m.push (defaultListCell v) = m.place (defaultListCell v) := by
      unfold PlayerMail.push PlayerMail.trim
      refine if_neg ?_
      rw [place_listOf, if_pos rfl, List.length_cons]
      exact Nat.not_lt.2 hlt
    have hlist : (m.addNewMail v share true).2.listOf v.settype = m.next :: m.listOf v.settype := by
      rw [(hdata v.settype).1, hpush, place_listOf]
      exact if_pos rfl
    refine ⟨?_, ⟨m.listOf v.settype, hlist, ?_, ?_⟩, fun r hr => ?_, fun st hst => ?_⟩
    · rw [hlist, List.length_cons]
      omega
    · rw [(hdata v.settype).2, hpush, place_self]
    · rw [if_pos hlt]
    · rw [(hdata v.settype).2, hpush, place_cells_ne _ _ hr]
    · rw [(hdata st).1, hpush, place_listOf]
      exact if_neg hst
  · have hfull : (m.listOf v.settype).length = v.settype.limit := by omega
    obtain ⟨l, hev, hpush⟩ := push_full (m := m) (c := defaultListCell v) h hfull hfresh
    have hlist : (m.addNewMail v share true).2.listOf v.settype = m.next :: l := by
      rw [(hdata v.settype).1, hpush, listOf_setList]
      exact if_pos rfl
    have hcells : (m.addNewMail v share true).2.cells = (m.place (defaultListCell v)).cells := by
      rw [(hdata v.settype).2, hpush]
      rfl
    refine ⟨?_, ⟨l, hlist, ?_, ?_⟩, fun r hr => ?_, fun st hst => ?_⟩
    · obtain ⟨pre, r, post, hl, rfl, -⟩ := hev
      rw [hlist]
      have hlen' := congrArg List.length hl
      simp only [List.length_append, List.length_cons] at hlen' ⊢
      have hset : (defaultListCell v).settype = v.settype := rfl
      rw [hset] at hlen'
      omega
    · rw [hcells, place_self]
    · rw [if_neg hlt]
      exact hev
    · rw [hcells, place_cells_ne _ _ hr]
    · rw [(hdata st).1, hpush, listOf_setList, place_listOf]
      exact (if_neg hst).trans (if_neg hst)

end Evict

/-! ## What only shortens the lists -/

/-- The lists lose cells at most, and no cell changes its mail id or its set type. -/
structure Shortened (m m' : PlayerMail) : Prop where
  sub : ∀ st, (m'.listOf st).Sublist (m.listOf st)
  cell : ∀ r, (m'.cells r).mid = (m.cells r).mid ∧ (m'.cells r).settype = (m.cells r).settype
  next : m'.next = m.next

theorem Shortened.refl (m : PlayerMail) : Shortened m m := ⟨fun _ => List.Sublist.refl _, fun _ => ⟨rfl, rfl⟩, rfl⟩

theorem Shortened.trans {m m' m'' : PlayerMail} (h : Shortened m m') (h' : Shortened m' m'') : Shortened m m'' where
  sub st := (h'.sub st).trans (h.sub st)
  cell r := ⟨(h'.cell r).1.trans (h.cell r).1, (h'.cell r).2.trans (h.cell r).2⟩
  next := h'.next.trans h.next

theorem Shortened.of_data {m m' : PlayerMail} (h : m'.toData = m.toData) : Shortened m m' := by
  refine ⟨fun st => ?_, fun r => ?_, ?_⟩
  · rw [h]
  · rw [h]
    exact ⟨rfl, rfl⟩
  · rw [h]

theorem Shortened.foldl {α : Type} {f : PlayerMail → α → PlayerMail} (h : ∀ m a, Shortened m (f m a)) :
    ∀ (l : List α) (m : PlayerMail), Shortened m (l.foldl f m)
  | [], m => .refl m
  | a :: l, m => (h m a).trans (Shortened.foldl h l (f m a))

section Shorten

variable (m : PlayerMail)

theorem setList_shortened {st : SetType} {l : List Nat} (h : l.Sublist (m.listOf st)) : Shortened m (m.setList st l) := by
  refine ⟨fun st' => ?_, fun _ => ⟨rfl, rfl⟩, rfl⟩
  rw [listOf_setList]
  split
  · rename_i he
    rw [he]
    exact h
  · exact List.Sublist.refl _

theorem setCell_shortened {r : Nat} {c : Cell} (hmid : c.mid = (m.cells r).mid) (hst : c.settype = (m.cells r).settype) :
    Shortened m (m.setCell r c) := by
  refine ⟨fun _ => List.Sublist.refl _, fun x => ?_, rfl⟩
  by_cases hx : x = r
  · subst hx
    simp [PlayerMail.setCell, hmid, hst]
  · simp [PlayerMail.setCell, hx]

theorem removeMail_shortened (mid : Nat) (isAuto : Bool) (cell : Option Nat) :
    Shortened m (m.removeMail mid isAuto cell).2 := by
  unfold PlayerMail.removeMail
  split
  · exact .refl m
  · rename_i r hr
    simp only
    split
    · exact .refl m
    · split
      · exact .refl m
      · rename_i l hl
        have hsub : (l.eraseP (fun x => decide ((m.cells x).mid = mid))).Sublist (m.listOf (m.cells r).settype) := by
          have hlist : m.listOf (m.cells r).settype = l := by simp [Data.listOf, hl]
          rw [hlist]
          exact List.eraseP_sublist
        exact (setList_shortened m hsub).trans (.of_data (removeRef_toData _ _))

theorem view_shortened (st : SetType) (r : Nat) : Shortened m (m.view st r) := by
  unfold PlayerMail.view
  split
  · exact .refl m
  · have hcell := setCell_shortened m (r := r) (c := { m.cells r with isView := true }) rfl rfl
    exact hcell.trans (.of_data rfl)

theorem mark_shortened (st : SetType) (r : Nat) : Shortened m (m.mark st r) := by
  have hcell := setCell_shortened (m.view st r) (r := r) (c := { (m.view st r).cells r with isGetExtra := true }) rfl rfl
  exact (view_shortened m st r).trans (hcell.trans (.of_data rfl))

theorem delOne_shortened (st : SetType) (p : List Nat × PlayerMail) (mid : Nat) : Shortened p.2 (delOne st p mid).2 := by
  unfold delOne
  split
  · exact removeMail_shortened p.2 mid false _
  · exact .refl _

theorem reqDelMail_shortened (st : SetType) : ∀ (mids : List Nat) (p : List Nat × PlayerMail),
    Shortened p.2 (mids.foldl (delOne st) p).2
  | [], p => .refl p.2
  | mid :: mids, p => (delOne_shortened st p mid).trans (reqDelMail_shortened st mids _)

theorem reqMailBrief_shortened (st : SetType) (first stop : Nat) : Shortened m (m.reqMailBrief st first stop).2 := by
  unfold PlayerMail.reqMailBrief
  split
  · exact .refl m
  · simp only
    split
    · exact .foldl (fun m r => view_shortened m st r) _ m
    · exact .refl m

theorem reqMailDetail_shortened {C : Type} (st : SetType) (mid : Nat) (flag : Bool) (found : Option C) :
    Shortened m (m.reqMailDetail st mid flag found).2 := by
  unfold PlayerMail.reqMailDetail
  split
  · simp only
    split
    · exact view_shortened m st _
    · exact (view_shortened m st _).trans (removeMail_shortened _ mid true _)
  · split <;> exact .refl m

theorem reqGetMailExtra_shortened {E : Type} [EmptyCollection E] (st : SetType) (mid : Nat) (found : Option (Option E)) :
    Shortened m (m.reqGetMailExtra st mid found).2 := by
  unfold PlayerMail.reqGetMailExtra
  split
  · unfold PlayerMail.takeExtra
    split
    · exact .refl m
    · exact mark_shortened m st _
    · exact (removeMail_shortened m mid true _).trans (mark_shortened _ st _)
  · exact .refl m

theorem reCollectMail_shortened (st : SetType) (mid : Nat) : Shortened m (m.reCollectMail st mid).2 := by
  unfold PlayerMail.reCollectMail
  split
  · exact .refl m
  · rename_i r hr
    split
    · exact .refl m
    · split
      · exact .refl m
      · split
        · exact .refl m
        · split
          · exact .refl m
          · have hout : Shortened m (m.removeRef r) := .of_data (removeRef_toData m r)
            have hcell := setCell_shortened (m.removeRef r) (r := r) (c :=
              { (m.removeRef r).cells r with isLock := true }) rfl rfl
            exact hout.trans (hcell.trans (.of_data (addRef_toData _ r)))

end Shorten

structure Within (m : PlayerMail) : Prop where
  listed : ∀ st, Listed m st
  limit : ∀ st, (m.listOf st).length ≤ st.limit

theorem Within.shortened {m m' : PlayerMail} (h : Within m) (hs : Shortened m m') : Within m' where
  listed st := by
    refine ⟨fun r hr => ?_, ?_⟩
    · rw [(hs.cell r).2, hs.next]
      exact (h.listed st).own r ((hs.sub st).subset hr)
    · rw [List.map_congr_left (fun r _ => (hs.cell r).1)]
      exact (h.listed st).distinct.sublist ((hs.sub st).map _)
  limit st := Nat.le_trans (hs.sub st).length_le (h.limit st)

theorem Fresh.shortened {m m' : PlayerMail} {mid : Nat} (h : Fresh m mid) (hs : Shortened m m') : Fresh m' mid := by
  intro st r hr
  rw [(hs.cell r).1]
  exact h st r ((hs.sub st).subset hr)

section Place

variable {m m' : PlayerMail} {v : Head}

theorem Placed.mem (h : Placed m v m') {st : SetType} {r : Nat} (hr : r ∈ m'.listOf st) :
    (r = m.next ∧ st = v.settype) ∨ r ∈ m.listOf st := by
  by_cases hst : st = v.settype
  · subst hst
    obtain ⟨l, hl, -, hold⟩ := h.front
    rw [hl] at hr
    rcases List.mem_cons.1 hr with rfl | hr
    · exact .inl ⟨rfl, rfl⟩
    · split at hold
      · exact .inr (hold ▸ hr)
      · obtain ⟨pre, x, post, hsplit, rfl, -⟩ := hold
        rw [hsplit]
        rcases List.mem_append.1 hr with hr | hr
        · exact .inr (List.mem_append_left _ hr)
        · exact .inr (List.mem_append_right _ (List.mem_cons_of_mem _ hr))
  · rw [h.others st hst] at hr
    exact .inr hr

theorem Placed.sublist (h : Placed m v m') : ∃ l, m'.listOf v.settype = m.next :: l ∧ l.Sublist (m.listOf v.settype) := by
  obtain ⟨l, hl, -, hold⟩ := h.front
  refine ⟨l, hl, ?_⟩
  split at hold
  · rw [hold]
  · obtain ⟨pre, x, post, hsplit, rfl, -⟩ := hold
    rw [hsplit]
    exact (List.sublist_cons_self x post).append_left pre

theorem Placed.within (h : Placed m v m') (hm : Within m) (hfresh : Fresh m v.mid) (hnext : m'.next = m.next + 1) :
    Within m' where
  listed st := by
    have hnew : (m'.cells m.next) = defaultListCell v := by
      obtain ⟨l, -, hnew, -⟩ := h.front
      exact hnew
    have hold : ∀ r ∈ m.listOf st, m'.cells r = m.cells r :=
      fun r hr => h.cells r (Nat.ne_of_lt ((hm.listed st).own r hr).2)
    refine ⟨fun r hr => ?_, ?_⟩
    · rcases h.mem hr with ⟨rfl, rfl⟩ | hr
      · rw [hnew, hnext]
        exact ⟨rfl, Nat.lt_succ_self _⟩
      · rw [hold r hr, hnext]
        exact ⟨((hm.listed st).own r hr).1, Nat.lt_succ_of_lt ((hm.listed st).own r hr).2⟩
    · by_cases hst : st = v.settype
      · subst hst
        obtain ⟨l, hl, hsub⟩ := h.sublist
        rw [hl, List.map_cons, hnew, List.map_congr_left (fun r hr => congrArg Cell.mid (hold r (hsub.subset hr)))]
        refine List.nodup_cons.2 ⟨fun hm' => ?_, (hm.listed _).distinct.sublist (hsub.map _)⟩
        obtain ⟨r, hr, he⟩ := List.mem_map.1 hm'
        exact hfresh _ r (hsub.subset hr) he
      · rw [h.others st hst, List.map_congr_left (fun r hr => congrArg Cell.mid (hold r hr))]
        exact (hm.listed st).distinct
  limit st := by
    by_cases hst : st = v.settype
    · subst hst
      rw [h.length]
      exact Nat.min_le_right _ _
    · rw [h.others st hst]
      exact hm.limit st

theorem Placed.fresh (h : Placed m v m') (hm : Within m) {mid : Nat} (hmid : Fresh m mid) (hne : mid ≠ v.mid) :
    Fresh m' mid := by
  intro st r hr
  rcases h.mem hr with ⟨rfl, -⟩ | hr
  · obtain ⟨l, -, hnew, -⟩ := h.front
    rw [hnew]
    exact Ne.symm hne
  · rw [h.cells r (Nat.ne_of_lt ((hm.listed st).own r hr).2)]
    exact hmid st r hr

end Place

theorem addNewMail_next (m : PlayerMail) (v : Head) (share : Option Nat) :
    (m.addNewMail v share true).2.next = m.next + 1 := by
  have hadd := congrArg Data.next (addRef_toData (m.push (defaultListCell v)) m.next)
  have hpush : (m.push (defaultListCell v)).next = m.next + 1 := by
    unfold PlayerMail.push PlayerMail.trim
    split
    · split
      · exact (removeMail_shortened _ _ true _).next
      · rfl
    · rfl
  exact hadd.trans hpush

theorem addNewMail_within {m : PlayerMail} (h : Within m) {v : Head} (hfresh : Fresh m v.mid) (share : Option Nat) :
    Placed m v (m.addNewMail v share true).2 ∧ Within (m.addNewMail v share true).2 := by
  have hplaced := addNewMail_placed (h.listed v.settype) (h.limit v.settype) (hfresh v.settype) share
  exact ⟨hplaced, hplaced.within h hfresh (addNewMail_next m v share)⟩

def LoadsPlaced (m : PlayerMail) : List Load → Prop
  | [] => True
  | load :: loads =>
    (∀ v, load.head = some v → load.found = true → Placed m v (m.loadOne load)) ∧ LoadsPlaced (m.loadOne load) loads

theorem loads_placed : ∀ (loads : List Load) {m : PlayerMail}, Within m → FreshAll m (loads.filterMap Load.head) →
    LoadsPlaced m loads ∧ Within (loads.foldl PlayerMail.loadOne m)
  | [], _, h, _ => ⟨trivial, h⟩
  | load :: loads, m, h, hfresh => by
    cases hv : load.head with
    | none =>
      rw [List.filterMap_cons_none hv] at hfresh
      have hone : m.loadOne load = m := by
        unfold PlayerMail.loadOne
        rw [hv]
      have ih := loads_placed loads h hfresh
      rw [LoadsPlaced, List.foldl_cons, hone]
      exact ⟨⟨fun v he => (by rw [hv] at he; cases he), ih.1⟩, ih.2⟩
    | some v =>
      rw [List.filterMap_cons_some hv] at hfresh
      obtain ⟨hnodup, hall⟩ := hfresh
      obtain ⟨hnot, hnodup⟩ := List.nodup_cons.1 hnodup
      have hone : m.loadOne load = (m.addNewMail v load.share load.found).2 := by
        unfold PlayerMail.loadOne
        rw [hv]
      rw [LoadsPlaced, List.foldl_cons, hone]
      cases hfound : load.found with
      | false =>
        have ih := loads_placed loads h ⟨hnodup, fun x hx => hall x (List.mem_cons_of_mem _ hx)⟩
        exact ⟨⟨fun _ _ he => (by cases he), ih.1⟩, ih.2⟩
      | true =>
        obtain ⟨hplaced, hwithin⟩ := addNewMail_within h (hall v List.mem_cons_self) load.share
        have ih := loads_placed loads hwithin ⟨hnodup, fun x hx => hplaced.fresh h (hall x (List.mem_cons_of_mem _ hx))
          (fun he => hnot (he ▸ List.mem_map_of_mem hx))⟩
        refine ⟨⟨fun v' he _ => ?_, ih.1⟩, ih.2⟩
        rw [hv] at he
        obtain rfl := Option.some.inj he
        exact hplaced

section Run

variable {E : Type} [EmptyCollection E]

/-- **What an operation may take from the lists**: a new mail has its place and may push one out; nothing else adds. -/
def Op.Evicts (m : PlayerMail) : Op E → Prop
  | .addNewMail v share found => found = true → Placed m v (m.addNewMail v share found).2
  | .loadShareMail (some p) => LoadsPlaced { m with curShareId := max m.curShareId p.2 } p.1
  | op => Shortened m (step m op)

theorem step_within {m : PlayerMail} (h : Within m) (op : Op E) (hfresh : op.Fresh m) :
    Within (step m op) ∧ op.Evicts m := by
  have hshort : ∀ op : Op E, Shortened m (step m op) → Within (step m op) ∧ Shortened m (step m op) :=
    fun _ hs => ⟨h.shortened hs, hs⟩
  cases op with
  | addNewMail v share found =>
    cases found with
    | false => exact ⟨h, fun hf => (by cases hf)⟩
    | true =>
      obtain ⟨hplaced, hwithin⟩ := addNewMail_within h hfresh share
      exact ⟨hwithin, fun _ => hplaced⟩
  | removeMail mid isAuto => exact hshort (.removeMail mid isAuto) (removeMail_shortened m mid isAuto none)
  | reqMailBrief st first stop => exact hshort (.reqMailBrief st first stop) (reqMailBrief_shortened m st first stop)
  | reqMailDetail st mid flag found =>
    exact hshort (.reqMailDetail st mid flag found) (reqMailDetail_shortened m st mid flag found)
  | reqDelMail st mids => exact hshort (.reqDelMail st mids) (reqDelMail_shortened st mids ([], m))
  | reqDelMailOneKey st visit => exact hshort (.reqDelMailOneKey st visit) (reqDelMail_shortened st visit ([], m))
  | reqGetMailExtra st mid found => exact hshort (.reqGetMailExtra st mid found) (reqGetMailExtra_shortened m st mid found)
  | reqGetMailExtraOneKey visits =>
    exact hshort (.reqGetMailExtraOneKey visits) (.foldl (fun m r => removeMail_shortened m _ true (some r)) _ m)
  | reCollectMail st mid => exact hshort (.reCollectMail st mid) (reCollectMail_shortened m st mid)
  | loadShareMail ret =>
    cases ret with
    | none => exact ⟨h, .refl m⟩
    | some p =>
      have hshare : Shortened m { m with curShareId := max m.curShareId p.2 } :=
        ⟨fun _ => List.Sublist.refl _, fun _ => ⟨rfl, rfl⟩, rfl⟩
      obtain ⟨hloads, hwithin⟩ := loads_placed p.1 (h.shortened hshare)
        ⟨(hfresh p rfl).1, fun v hv => ((hfresh p rfl).2 v hv).shortened hshare⟩
      exact ⟨hwithin, hloads⟩
  | updateExpireTimer time =>
    exact hshort (.updateExpireTimer time) (.foldl (fun m r => removeMail_shortened m _ true (some r)) _ m)

/-- The lists are within their limits after every step of a run, and no step takes more from them than it may. -/
def EvictsAlong : PlayerMail → List (Op E) → Prop
  | _, [] => True
  | m, op :: ops => op.Evicts m ∧ (∀ st, ((step m op).listOf st).length ≤ st.limit) ∧ EvictsAlong (step m op) ops

theorem evictsAlong : ∀ (ops : List (Op E)) {m : PlayerMail}, Within m → Along Op.Fresh m ops → EvictsAlong m ops
  | [], _, _, _ => trivial
  | op :: ops, _, h, hfresh =>
    have hstep := step_within h op hfresh.1
    ⟨hstep.2, hstep.1.limit, evictsAlong ops hstep.1 hfresh.2⟩

/-- **The mail that goes is the oldest with nothing to claim, or the oldest at all when each has something**: when a mail
with a fresh id comes into a list within its limit, and throughout every run. -/
theorem mail_evicts :
    (∀ (m : PlayerMail) (v : Head) (share : Option Nat), Listed m v.settype → (m.listOf v.settype).length ≤
      v.settype.limit →
      (∀ r ∈ m.listOf v.settype, (m.cells r).mid ≠ v.mid) → Placed m v (m.addNewMail v share true).2) ∧
    ∀ (m : PlayerMail) (ops : List (Op E)), Within m → Along Op.Fresh m ops → EvictsAlong m ops :=
  ⟨fun _ _ share h hlen hfresh => addNewMail_placed h hlen hfresh share, fun _ ops h hfresh => evictsAlong ops h hfresh⟩

end Run

theorem mail_evicts_game : Placed (PlayerMail.init oneMail) ⟨32, .system, 5, false, 0⟩
      ((PlayerMail.init oneMail).addNewMail ⟨32, .system, 5, false, 0⟩ none true).2 ∧
    EvictsAlong (E := List Nat) (PlayerMail.init oneMail) [.addNewMail ⟨32, .system, 5, false, 0⟩ none true,
      .reqDelMail .system [32]] := by
  have hshape := (init_good oneMail_shape).shape
  have hmid : ∀ st, ∀ r ∈ (PlayerMail.init oneMail).listOf st, ((PlayerMail.init oneMail).cells r).mid ≠ 32 := by
    intro st
    cases st <;> decide
  refine ⟨(mail_evicts (E := List Nat)).1 _ ⟨32, .system, 5, false, 0⟩ none (hshape.listed _) (by decide) (hmid .system),
    mail_evicts.2 _ _ ⟨hshape.listed, fun st => ?_⟩ ⟨hmid, trivial, trivial⟩⟩
  cases st <;> decide

end Mail
end Sncpp
