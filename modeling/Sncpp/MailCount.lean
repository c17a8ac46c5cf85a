import Mathlib.Data.List.Perm.Basic
import Sncpp.Mail
/-!
# MailCount — the indexes of a player's mail against a recount

`Counts` says that the index and the cover of a set type are those of a list of cells; the mail is `Recounted` when that
list is the stored one, for every set type.  Every operation keeps it but one: `reqGetMailExtra` on a mail whose body is
missing removes the mail and then counts it out a second time.  `recounted_along_iff` has exactly the runs in which it
holds throughout.
-/
namespace Sncpp
namespace Mail

/-- **The index and the cover of a set type are those of the cells `L`.** -/
structure Counts (m : PlayerMail) (st : SetType) (L : List Nat) : Prop where
  ref : ∀ mid r, m.midRef st mid = some r ↔ r ∈ L ∧ (m.cells r).mid = mid
  total : (m.coverRef st).totalNum = L.length
  notView : (m.coverRef st).notViewNum = (L.countP (fun r => !(m.cells r).isView) : Nat)
  hasExtra : (m.coverRef st).hasExtraNum = (L.countP (fun r => (m.cells r).unclaimed) : Nat)

/-- **The indexes equal a recount of the stored lists.** -/
def Recounted (m : PlayerMail) : Prop := ∀ st, Counts m st (m.listOf st)

/-- Stored lists hold each cell once, under its own set type, and no mail id twice. -/
structure Shape (d : Data) : Prop where
  nodup : ∀ st, (d.listOf st).Nodup
  own : ∀ st r, r ∈ d.listOf st → (d.cells r).settype = st ∧ r < d.next
  distinct : ∀ st st' r r', r ∈ d.listOf st → r' ∈ d.listOf st' → (d.cells r).mid = (d.cells r').mid → r = r'

structure Good (m : PlayerMail) : Prop where
  shape : Shape m.toData
  counts : Recounted m

theorem countP_cons_toNum (p : Nat → Bool) (r : Nat) (L : List Nat) :
    ((r :: L).countP p : Int) = L.countP p + toNum (p r) := by
  rw [List.countP_cons]
  cases p r <;> simp [toNum]

section Index

variable {m n : PlayerMail} {st : SetType} {r : Nat} {L L' : List Nat}

theorem Counts.perm (h : Counts m st L) (hp : L.Perm L') : Counts m st L' where
  ref mid r := by rw [h.ref, hp.mem_iff]
  total := by rw [h.total, hp.length_eq]
  notView := by rw [h.notView, hp.countP_eq]
  hasExtra := by rw [h.hasExtra, hp.countP_eq]

theorem Counts.congr (h : Counts m st L) (href : n.midRef st = m.midRef st) (hcov : n.coverRef st = m.coverRef st)
    (hcells : ∀ x ∈ L, n.cells x = m.cells x) : Counts n st L where
  ref mid r := by
    rw [href, h.ref]
    refine and_congr_right (fun hr => ?_)
    rw [hcells r hr]
  total := by rw [hcov, h.total]
  notView := by
    rw [hcov, h.notView, List.countP_congr (fun x hx => ?_)]
    rw [hcells x hx]
  hasExtra := by
    rw [hcov, h.hasExtra, List.countP_congr (fun x hx => ?_)]
    rw [hcells x hx]

theorem addRef_counts (h : Counts m st L) (hst : (m.cells r).settype = st)
    (hmid : ∀ x ∈ L, (m.cells x).mid ≠ (m.cells r).mid) :
    Counts (m.addRef r) st (r :: L) := by
  have hnone : m.midRef st (m.cells r).mid = none := by
    rw [Option.eq_none_iff_forall_not_mem]
    intro x hx
    obtain ⟨hxL, hxm⟩ := (h.ref _ _).1 hx
    exact hmid x hxL hxm
  have heq : m.addRef r = (m.setRef st (m.cells r).mid (some r)).setCover st ((m.coverRef st).add (m.cells r)) := by
    unfold PlayerMail.addRef
    simp only [hst, hnone]
  rw [heq]
  refine ⟨fun mid x => ?_, ?_, ?_, ?_⟩
  · simp only [PlayerMail.setCover, PlayerMail.setRef, Function.update_self, List.mem_cons]
    by_cases hm : mid = (m.cells r).mid
    · subst hm
      rw [Function.update_self]
      constructor
      · intro hx
        cases hx
        exact ⟨.inl rfl, rfl⟩
      · rintro ⟨rfl | hx, hxm⟩
        · rfl
        · exact absurd hxm (hmid x hx)
    · rw [Function.update_of_ne hm, h.ref]
      constructor
      · rintro ⟨hx, hxm⟩
        exact ⟨.inr hx, hxm⟩
      · rintro ⟨rfl | hx, hxm⟩
        · exact absurd hxm.symm hm
        · exact ⟨hx, hxm⟩
  · simp [PlayerMail.setCover, PlayerMail.setRef, Cover.add, h.total]
  · rw [countP_cons_toNum]
    simp [PlayerMail.setCover, PlayerMail.setRef, Cover.add, h.notView]
  · rw [countP_cons_toNum]
    simp [PlayerMail.setCover, PlayerMail.setRef, Cover.add, h.hasExtra]

theorem removeRef_counts (h : Counts m st (r :: L)) (hst : (m.cells r).settype = st)
    (hmid : ∀ x ∈ L, (m.cells x).mid ≠ (m.cells r).mid) : Counts (m.removeRef r) st L := by
  have hsome : m.midRef st (m.cells r).mid = some r := (h.ref _ _).2 ⟨List.mem_cons_self, rfl⟩
  have heq : m.removeRef r = (m.setRef st (m.cells r).mid none).setCover st ((m.coverRef st).sub (m.cells r)) := by
    unfold PlayerMail.removeRef
    simp only [hst, hsome]
  rw [heq]
  refine ⟨fun mid x => ?_, ?_, ?_, ?_⟩
  · simp only [PlayerMail.setCover, PlayerMail.setRef, Function.update_self]
    by_cases hm : mid = (m.cells r).mid
    · subst hm
      rw [Function.update_self]
      constructor
      · intro hx
        cases hx
      · rintro ⟨hx, hxm⟩
        exact absurd hxm (hmid x hx)
    · rw [Function.update_of_ne hm, h.ref, List.mem_cons]
      constructor
      · rintro ⟨rfl | hx, hxm⟩
        · exact absurd hxm.symm hm
        · exact ⟨hx, hxm⟩
      · rintro ⟨hx, hxm⟩
        exact ⟨.inr hx, hxm⟩
  · simp [PlayerMail.setCover, PlayerMail.setRef, Cover.sub, h.total]
  · have hv := h.notView
    rw [countP_cons_toNum] at hv
    simp [PlayerMail.setCover, PlayerMail.setRef, Cover.sub, hv]
  · have hv := h.hasExtra
    rw [countP_cons_toNum] at hv
    simp [PlayerMail.setCover, PlayerMail.setRef, Cover.sub, hv]

theorem addRef_toData (m : PlayerMail) (r : Nat) : (m.addRef r).toData = m.toData := by
  unfold PlayerMail.addRef
  simp only
  split <;> rfl

theorem removeRef_toData (m : PlayerMail) (r : Nat) : (m.removeRef r).toData = m.toData := by
  unfold PlayerMail.removeRef
  simp only
  split <;> rfl

theorem addRef_other (h : Counts m st L) (hst : (m.cells r).settype ≠ st) : Counts (m.addRef r) st L := by
  refine h.congr ?_ ?_ (fun x _ => by rw [addRef_toData])
  · unfold PlayerMail.addRef
    simp only
    split
    · simp [PlayerMail.setCover, PlayerMail.setRef, Function.update_of_ne (Ne.symm hst)]
    · rfl
  · unfold PlayerMail.addRef
    simp only
    split
    · simp [PlayerMail.setCover, PlayerMail.setRef, Function.update_of_ne (Ne.symm hst)]
    · rfl

theorem removeRef_other (h : Counts m st L) (hst : (m.cells r).settype ≠ st) : Counts (m.removeRef r) st L := by
  refine h.congr ?_ ?_ (fun x _ => by rw [removeRef_toData])
  · unfold PlayerMail.removeRef
    simp only
    split
    · simp [PlayerMail.setCover, PlayerMail.setRef, Function.update_of_ne (Ne.symm hst)]
    · rfl
  · unfold PlayerMail.removeRef
    simp only
    split
    · simp [PlayerMail.setCover, PlayerMail.setRef, Function.update_of_ne (Ne.symm hst)]
    · rfl

theorem setCell_counts {c : Cell} {v : Cover} (h : Counts m st (r :: L)) (hr : r ∉ L) (hmid : c.mid = (m.cells r).mid)
    (htotal : v.totalNum = (m.coverRef st).totalNum)
    (hview : v.notViewNum + toNum (!(m.cells r).isView) = (m.coverRef st).notViewNum + toNum (!c.isView))
    (hextra : v.hasExtraNum + toNum (m.cells r).unclaimed = (m.coverRef st).hasExtraNum + toNum c.unclaimed) :
    Counts ((m.setCell r c).setCover st v) st (r :: L) := by
  have hcell : ∀ x ∈ L, ((m.setCell r c).setCover st v).cells x = m.cells x := by
    intro x hx
    have hne : x ≠ r := fun he => hr (he ▸ hx)
    simp [PlayerMail.setCover, PlayerMail.setCell, hne]
  have hself : ((m.setCell r c).setCover st v).cells r = c := by simp [PlayerMail.setCover, PlayerMail.setCell]
  have hmids : ∀ x, (((m.setCell r c).setCover st v).cells x).mid = (m.cells x).mid := by
    intro x
    by_cases hx : x = r
    · rw [hx, hself, hmid]
    · simp [PlayerMail.setCover, PlayerMail.setCell, hx]
  have hcov : ((m.setCell r c).setCover st v).coverRef st = v := by simp [PlayerMail.setCover]
  refine ⟨fun mid x => ?_, ?_, ?_, ?_⟩
  · rw [hmids]
    exact h.ref mid x
  · rw [hcov, htotal, h.total]
  · have hv := h.notView
    rw [countP_cons_toNum] at hv ⊢
    rw [hcov, hself, List.countP_congr (fun x hx => by rw [hcell x hx])]
    omega
  · have hv := h.hasExtra
    rw [countP_cons_toNum] at hv ⊢
    rw [hcov, hself, List.countP_congr (fun x hx => by rw [hcell x hx])]
    omega

end Index

theorem eraseP_mid (f : Nat → Cell) {r : Nat} : ∀ {l : List Nat}, r ∈ l → (∀ x ∈ l, (f x).mid = (f r).mid → x = r) →
    l.eraseP (fun x => decide ((f x).mid = (f r).mid)) = l.erase r
  | [], hr, _ => by cases hr
  | x :: l, hr, hd => by
    by_cases hx : x = r
    · subst hx
      simp
    · have hne : (f x).mid ≠ (f r).mid := fun he => hx (hd x List.mem_cons_self he)
      have hr' : r ∈ l := (List.mem_cons.1 hr).resolve_left (Ne.symm hx)
      rw [List.eraseP_cons_of_neg (by simpa using hne), List.erase_cons_tail (by simpa using hx),
        eraseP_mid f hr' (fun y hy => hd y (List.mem_cons_of_mem _ hy))]

def PlayerMail.drop (m : PlayerMail) (st : SetType) (r : Nat) : PlayerMail :=
  (m.setList st ((m.listOf st).erase r)).removeRef r

section Drop

variable {m : PlayerMail} {st : SetType} {r : Nat}

theorem drop_listOf (m : PlayerMail) (st : SetType) (r : Nat) (st' : SetType) :
    (m.drop st r).listOf st' = if st' = st then (m.listOf st).erase r else m.listOf st' := by
  unfold PlayerMail.drop
  rw [removeRef_toData]
  by_cases h : st' = st
  · simp [PlayerMail.setList, Data.listOf, h]
  · simp [PlayerMail.setList, Data.listOf, h]

theorem drop_cells (m : PlayerMail) (st : SetType) (r : Nat) : (m.drop st r).cells = m.cells := by
  unfold PlayerMail.drop
  rw [removeRef_toData]
  rfl

theorem drop_next (m : PlayerMail) (st : SetType) (r : Nat) : (m.drop st r).next = m.next := by
  unfold PlayerMail.drop
  rw [removeRef_toData]
  rfl

theorem drop_subset (m : PlayerMail) (st : SetType) (r : Nat) (st' : SetType) :
    (m.drop st r).listOf st' ⊆ m.listOf st' := by
  rw [drop_listOf]
  split
  · rename_i h
    subst h
    exact List.erase_subset
  · exact fun _ h => h

theorem Shape.drop (h : Shape m.toData) (st : SetType) (r : Nat) : Shape (m.drop st r).toData where
  nodup st' := by
    rw [drop_listOf]
    split
    · exact (h.nodup st).erase r
    · exact h.nodup st'
  own st' x hx := by
    rw [drop_cells, drop_next]
    exact h.own st' x (drop_subset m st r st' hx)
  distinct st₁ st₂ x y hx hy := by
    rw [drop_cells]
    exact h.distinct st₁ st₂ x y (drop_subset m st r st₁ hx) (drop_subset m st r st₂ hy)

theorem drop_counts {L : List Nat} (h : Counts m st (r :: L)) (hst : (m.cells r).settype = st)
    (hmid : ∀ x ∈ L, (m.cells x).mid ≠ (m.cells r).mid) : Counts (m.drop st r) st L :=
  removeRef_counts (h.congr rfl rfl (fun _ _ => rfl)) hst hmid

theorem drop_other {L : List Nat} {st' : SetType} (h : Counts m st' L) (hst : (m.cells r).settype ≠ st') :
    Counts (m.drop st r) st' L :=
  removeRef_other (h.congr rfl rfl (fun _ _ => rfl)) hst

theorem Shape.rest (h : Shape m.toData) (hr : r ∈ m.listOf st) : (m.cells r).settype = st ∧
    (m.listOf st).Perm (r :: (m.listOf st).erase r) ∧ r ∉ (m.listOf st).erase r ∧
    ∀ x ∈ (m.listOf st).erase r, (m.cells x).mid ≠ (m.cells r).mid := by
  refine ⟨(h.own st r hr).1, List.perm_cons_erase hr, fun hx => ?_, fun x hx he => ?_⟩
  · exact ((h.nodup st).mem_erase_iff.1 hx).1 rfl
  · obtain ⟨hne, hx⟩ := (h.nodup st).mem_erase_iff.1 hx
    exact hne (h.distinct st st x r hx hr he)

theorem Good.drop (h : Good m) (hr : r ∈ m.listOf st) : Good (m.drop st r) := by
  obtain ⟨hst, hperm, -, hmid⟩ := h.shape.rest hr
  refine ⟨h.shape.drop st r, fun st' => ?_⟩
  rw [drop_listOf]
  split
  · rename_i he
    subst he
    exact drop_counts ((h.counts _).perm hperm) hst hmid
  · rename_i he
    exact drop_other (h.counts st') (fun he' => he (he'.symm.trans hst))

theorem removeMail_eq (h : Shape m.toData) (hr : r ∈ m.listOf st) (isAuto : Bool) :
    m.removeMail (m.cells r).mid isAuto (some r) =
      if !isAuto && (m.cells r).unclaimed then (false, m) else (true, m.drop st r) := by
  have hst : (m.cells r).settype = st := (h.own st r hr).1
  obtain ⟨l, hl⟩ : ∃ l, m.list st = some l := by
    cases hl : m.list st with
    | none => simp [Data.listOf, hl] at hr
    | some l => exact ⟨l, rfl⟩
  have hlist : m.listOf st = l := by simp [Data.listOf, hl]
  have herase : l.eraseP (fun x => decide ((m.cells x).mid = (m.cells r).mid)) = (m.listOf st).erase r := by
    rw [← hlist]
    exact eraseP_mid m.cells hr (fun x hx he => h.distinct st st x r hx hr he)
  unfold PlayerMail.removeMail PlayerMail.drop
  simp only [Option.some_or, hst, hl, herase]

theorem removeMail_gone (hcounts : Counts m (m.cells r).settype (m.listOf (m.cells r).settype))
    (hgone : ∀ x ∈ m.listOf (m.cells r).settype, (m.cells x).mid ≠ (m.cells r).mid)
    (hsome : (m.list (m.cells r).settype).isSome) :
    (m.removeMail (m.cells r).mid true (some r)).2 = m := by
  obtain ⟨l, hl⟩ := Option.isSome_iff_exists.1 hsome
  have hlist : m.listOf (m.cells r).settype = l := by simp [Data.listOf, hl]
  have herase : l.eraseP (fun x => decide ((m.cells x).mid = (m.cells r).mid)) = l := by
    refine List.eraseP_of_forall_not (fun x hx => ?_)
    rw [← hlist] at hx
    simpa using hgone x hx
  have hsame : m.setList (m.cells r).settype l = m := by
    unfold PlayerMail.setList
    rw [← hl, Function.update_eq_self]
  have hnone : m.midRef (m.cells r).settype (m.cells r).mid = none := by
    rw [Option.eq_none_iff_forall_not_mem]
    intro x hx
    obtain ⟨hxl, hxm⟩ := (hcounts.ref _ _).1 hx
    exact hgone x hxl hxm
  unfold PlayerMail.removeMail PlayerMail.removeRef
  simp only [Option.some_or, hl, herase, hsame, hnone, Bool.not_true, Bool.false_and, Bool.false_eq_true, if_false]

end Drop

structure Shrunk (m₀ m : PlayerMail) : Prop where
  cells : m.cells = m₀.cells
  subset : ∀ st, m.listOf st ⊆ m₀.listOf st
  some : ∀ st, (m₀.list st).isSome → (m.list st).isSome

theorem Shrunk.refl (m : PlayerMail) : Shrunk m m := ⟨rfl, fun _ _ h => h, fun _ h => h⟩

theorem Shrunk.drop {m₀ m : PlayerMail} (h : Shrunk m₀ m) (st : SetType) (r : Nat) : Shrunk m₀ (m.drop st r) where
  cells := by rw [drop_cells, h.cells]
  subset st' x hx := h.subset st' (drop_subset m st r st' hx)
  some st' hs := by
    unfold PlayerMail.drop
    rw [removeRef_toData]
    by_cases he : st' = st
    · simp [PlayerMail.setList, he]
    · simpa [PlayerMail.setList, he] using h.some st' hs

theorem removeAll_good {m₀ : PlayerMail} (h₀ : Shape m₀.toData) : ∀ (rs : List Nat) (m : PlayerMail), Good m → Shrunk m₀ m →
    (∀ r ∈ rs, ∃ st, r ∈ m₀.listOf st) → Good (rs.foldl (fun m r => (m.removeMail (m.cells r).mid true (some r)).2) m)
  | [], _, h, _, _ => h
  | r :: rs, m, h, hs, hrs => by
    obtain ⟨st, hr₀⟩ := hrs r List.mem_cons_self
    rw [List.foldl_cons]
    by_cases hr : r ∈ m.listOf st
    · rw [removeMail_eq h.shape hr]
      exact removeAll_good h₀ rs _ (h.drop hr) (hs.drop st r) (fun x hx => hrs x (List.mem_cons_of_mem _ hx))
    · have hst : (m.cells r).settype = st := by
        rw [hs.cells]
        exact (h₀.own st r hr₀).1
      have hgone : (m.removeMail (m.cells r).mid true (some r)).2 = m := by
        refine removeMail_gone (h.counts _) (fun x hx he => ?_) ?_
        · rw [hst] at hx
          rw [hs.cells] at he
          exact hr (h₀.distinct st st x r (hs.subset st hx) hr₀ he ▸ hx)
        · rw [hst]
          refine hs.some st ?_
          cases hl : m₀.list st with
          | none => simp [Data.listOf, hl] at hr₀
          | some l => rfl
      rw [hgone]
      exact removeAll_good h₀ rs m h hs (fun x hx => hrs x (List.mem_cons_of_mem _ hx))

theorem updateExpireTimer_good {m : PlayerMail} (h : Good m) (time : Nat) : Good (m.updateExpireTimer time) := by
  refine removeAll_good h.shape _ m h (.refl m) (fun r hr => ?_)
  obtain ⟨st, -, hst⟩ := List.mem_flatMap.1 (List.mem_filter.1 hr).1
  exact ⟨st, List.mem_reverse.1 hst⟩

theorem Good.mem_of_ref {m : PlayerMail} (h : Good m) {st : SetType} {mid r : Nat} (hr : m.midRef st mid = some r) :
    r ∈ m.listOf st ∧ (m.cells r).mid = mid :=
  ((h.counts st).ref mid r).1 hr

theorem reqGetMailExtraOneKey_good {m : PlayerMail} (h : Good m) (visits : List (SetType × List Nat)) :
    Good (m.reqGetMailExtraOneKey visits).2 := by
  refine removeAll_good h.shape _ m h (.refl m) (fun r hr => ?_)
  obtain ⟨⟨st, mids⟩, -, hr⟩ := List.mem_flatMap.1 hr
  obtain ⟨mid, -, hmid⟩ := List.mem_filterMap.1 hr
  exact ⟨st, (h.mem_of_ref (Option.filter_eq_some_iff.1 hmid).1).1⟩

theorem removeMail_good {m : PlayerMail} (h : Good m) {st : SetType} {mid r : Nat} (hr : m.midRef st mid = some r)
    (isAuto : Bool) : Good (m.removeMail mid isAuto (some r)).2 := by
  obtain ⟨hmem, rfl⟩ := h.mem_of_ref hr
  rw [removeMail_eq h.shape hmem]
  split
  · exact h
  · exact h.drop hmem

theorem removeMail_none_good {m : PlayerMail} (h : Good m) (mid : Nat) (isAuto : Bool) :
    Good (m.removeMail mid isAuto none).2 := by
  cases hc : m.getListCell mid with
  | none =>
    have : m.removeMail mid isAuto none = (false, m) := by
      unfold PlayerMail.removeMail
      rw [Option.none_or, hc]
    rw [this]
    exact h
  | some r =>
    have : m.removeMail mid isAuto none = m.removeMail mid isAuto (some r) := by
      unfold PlayerMail.removeMail
      rw [Option.none_or, hc, Option.some_or]
    rw [this]
    obtain ⟨st, -, hst⟩ := List.exists_of_findSome?_eq_some hc
    exact removeMail_good h hst isAuto

theorem delOne_good {st : SetType} {p : List Nat × PlayerMail} (h : Good p.2) (mid : Nat) : Good (delOne st p mid).2 := by
  unfold delOne
  split
  · rename_i r hr
    exact removeMail_good h hr false
  · exact h

theorem foldl_delOne_good (st : SetType) : ∀ (mids : List Nat) (p : List Nat × PlayerMail), Good p.2 →
    Good (mids.foldl (delOne st) p).2
  | [], _, h => h
  | mid :: mids, _, h => foldl_delOne_good st mids _ (delOne_good h mid)

/-! ## Viewing, claiming, collecting -/

section Cells

variable {m : PlayerMail} {st : SetType} {r : Nat}

theorem Shape.setCell (h : Shape m.toData) {c : Cell} (hmid : c.mid = (m.cells r).mid)
    (hst : c.settype = (m.cells r).settype) : Shape (m.setCell r c).toData := by
  have hcell : ∀ x, ((m.setCell r c).cells x).mid = (m.cells x).mid ∧
      ((m.setCell r c).cells x).settype = (m.cells x).settype := by
    intro x
    by_cases hx : x = r
    · subst hx
      simp [PlayerMail.setCell, hmid, hst]
    · simp [PlayerMail.setCell, hx]
  refine ⟨h.nodup, fun st' x hx => ?_, fun st₁ st₂ x y hx hy he => ?_⟩
  · rw [(hcell x).2]
    exact h.own st' x hx
  · rw [(hcell x).1, (hcell y).1] at he
    exact h.distinct st₁ st₂ x y hx hy he

theorem Good.setCell (h : Good m) (hr : r ∈ m.listOf st) {c : Cell} {v : Cover} (hmid : c.mid = (m.cells r).mid)
    (hst : c.settype = (m.cells r).settype) (htotal : v.totalNum = (m.coverRef st).totalNum)
    (hview : v.notViewNum + toNum (!(m.cells r).isView) = (m.coverRef st).notViewNum + toNum (!c.isView))
    (hextra : v.hasExtraNum + toNum (m.cells r).unclaimed = (m.coverRef st).hasExtraNum + toNum c.unclaimed) :
    Good ((m.setCell r c).setCover st v) := by
  refine ⟨h.shape.setCell hmid hst, fun st' => ?_⟩
  by_cases he : st' = st
  · subst he
    obtain ⟨-, hperm, hout, -⟩ := h.shape.rest hr
    exact (setCell_counts ((h.counts st').perm hperm) hout hmid htotal hview hextra).perm hperm.symm
  · refine (h.counts st').congr rfl (by simp [PlayerMail.setCover, PlayerMail.setCell, he]) (fun x hx => ?_)
    have hne : x ≠ r := by
      rintro rfl
      exact he ((h.shape.own st' x hx).1.symm.trans (h.shape.own st x hr).1)
    simp [PlayerMail.setCover, PlayerMail.setCell, hne]

theorem view_cell (m : PlayerMail) (st : SetType) (r : Nat) :
    (m.view st r).cells r = { m.cells r with isView := true } := by
  unfold PlayerMail.view
  split
  · rename_i h
    cases hc : m.cells r
    simp_all
  · simp [PlayerMail.setCover, PlayerMail.setCell]

theorem view_list (m : PlayerMail) (st : SetType) (r : Nat) : (m.view st r).list = m.list := by
  unfold PlayerMail.view
  split <;> rfl

theorem Good.view (h : Good m) (hr : r ∈ m.listOf st) : Good (m.view st r) := by
  unfold PlayerMail.view
  split
  · exact h
  · rename_i hv
    refine h.setCell hr rfl rfl rfl ?_ rfl
    simp [toNum, hv]

theorem Good.mark (h : Good m) (hr : r ∈ m.listOf st) (hun : (m.cells r).unclaimed = true) : Good (m.mark st r) := by
  have hr' : r ∈ (m.view st r).listOf st := by
    unfold Data.listOf
    rw [view_list]
    exact hr
  refine (h.view hr).setCell hr' rfl rfl rfl rfl ?_
  have hun' : ((m.view st r).cells r).unclaimed = true := by
    rw [view_cell]
    exact hun
  simp only [Cell.unclaimed, toNum, Bool.and_eq_true, Bool.not_eq_true'] at hun' ⊢
  simp [hun']

theorem foldl_view_good : ∀ (ret : List Nat) (m : PlayerMail), Good m → (∀ r ∈ ret, r ∈ m.listOf st) →
    Good (ret.foldl (fun m r => m.view st r) m)
  | [], _, h, _ => h
  | r :: ret, m, h, hret => by
    refine foldl_view_good ret _ (h.view (hret r List.mem_cons_self)) (fun x hx => ?_)
    unfold Data.listOf
    rw [view_list]
    exact hret x (List.mem_cons_of_mem _ hx)

theorem mem_of_briefs {l : List Nat} {first stop : Nat} (h : r ∈ briefs l first stop) : r ∈ l := by
  unfold briefs at h
  split at h
  · cases h
  · exact List.mem_of_mem_drop (List.mem_of_mem_take h)

theorem reqMailBrief_good (h : Good m) (st : SetType) (first stop : Nat) : Good (m.reqMailBrief st first stop).2 := by
  unfold PlayerMail.reqMailBrief
  split
  · exact h
  · rename_i l hl
    simp only
    split
    · refine foldl_view_good _ m h (fun r hr => ?_)
      simpa [Data.listOf, hl] using mem_of_briefs hr
    · exact h

theorem reqMailDetail_good {C : Type} (h : Good m) (st : SetType) (mid : Nat) (flag : Bool) (found : Option C) :
    Good (m.reqMailDetail st mid flag found).2 := by
  unfold PlayerMail.reqMailDetail
  split
  · rename_i r hr
    obtain ⟨hmem, -⟩ := h.mem_of_ref hr
    have hview := h.view hmem
    simp only
    split
    · exact hview
    · have hr' : (m.view st r).midRef st mid = some r := by
        unfold PlayerMail.view
        split <;> exact hr
      exact removeMail_good hview hr' true
  · split <;> exact h

theorem Good.lock (h : Good m) (hr : r ∈ m.listOf st) :
    Good (((m.removeRef r).setCell r { (m.removeRef r).cells r with isLock := true }).addRef r) := by
  obtain ⟨hst, hperm, hout, hmid⟩ := h.shape.rest hr
  have hdata : (m.removeRef r).toData = m.toData := removeRef_toData m r
  have hcells : ∀ x, x ≠ r → ((m.removeRef r).setCell r { (m.removeRef r).cells r with isLock := true }).cells x =
      m.cells x := by
    intro x hx
    simp [PlayerMail.setCell, hx, hdata]
  have hself : ((m.removeRef r).setCell r { (m.removeRef r).cells r with isLock := true }).cells r =
      { m.cells r with isLock := true } := by
    simp [PlayerMail.setCell, hdata]
  refine ⟨?_, fun st' => ?_⟩
  · rw [addRef_toData]
    have hshape : Shape (m.removeRef r).toData := hdata ▸ h.shape
    exact hshape.setCell (c := { (m.removeRef r).cells r with isLock := true }) rfl rfl
  · have hlist : (((m.removeRef r).setCell r { (m.removeRef r).cells r with isLock := true }).addRef r).listOf st' =
        m.listOf st' := by
      unfold Data.listOf
      rw [addRef_toData]
      simp [PlayerMail.setCell, hdata]
    rw [hlist]
    by_cases he : st' = st
    · subst he
      have hc := (removeRef_counts ((h.counts st').perm hperm) hst hmid).congr
        (n := (m.removeRef r).setCell r { (m.removeRef r).cells r with isLock := true }) rfl rfl (fun x hx => by
          rw [hcells x (fun hxr => hout (hxr ▸ hx)), hdata])
      refine (addRef_counts hc (by rw [hself]; exact hst) (fun x hx => ?_)).perm hperm.symm
      rw [hcells x (fun hxr => hout (hxr ▸ hx)), hself]
      exact hmid x hx
    · have hne : (m.cells r).settype ≠ st' := fun h' => he (h'.symm.trans hst)
      refine addRef_other ((removeRef_other (h.counts st') hne).congr rfl rfl (fun x hx => ?_)) (by rw [hself]; exact hne)
      have hxr : x ≠ r := by
        rintro rfl
        exact hne (h.shape.own st' x hx).1
      rw [hcells x hxr, hdata]

theorem reCollectMail_good (h : Good m) (st : SetType) (mid : Nat) : Good (m.reCollectMail st mid).2 := by
  unfold PlayerMail.reCollectMail
  split
  · exact h
  · rename_i r hr
    obtain ⟨hmem, -⟩ := h.mem_of_ref hr
    split
    · exact h
    split
    · exact h
    split
    · exact h
    split
    · exact h
    · exact h.lock hmem

end Cells

def Fresh (m : PlayerMail) (mid : Nat) : Prop := ∀ st, ∀ r ∈ m.listOf st, (m.cells r).mid ≠ mid

/-- A cell stands in front of its list and is not counted yet; `L` is the rest of that list. -/
structure Awaiting (m : PlayerMail) (r : Nat) (L : List Nat) : Prop where
  shape : Shape m.toData
  front : m.listOf (m.cells r).settype = r :: L
  counts : Counts m (m.cells r).settype L
  others : ∀ st, st ≠ (m.cells r).settype → Counts m st (m.listOf st)

section Add

variable {m : PlayerMail} {r : Nat} {L : List Nat}

theorem Awaiting.mids (h : Awaiting m r L) : r ∉ L ∧ ∀ x ∈ L, (m.cells x).mid ≠ (m.cells r).mid := by
  have hnd := h.shape.nodup (m.cells r).settype
  rw [h.front, List.nodup_cons] at hnd
  refine ⟨hnd.1, fun x hx he => hnd.1 ?_⟩
  have hxl : x ∈ m.listOf (m.cells r).settype := by
    rw [h.front]
    exact List.mem_cons_of_mem _ hx
  have hrl : r ∈ m.listOf (m.cells r).settype := by
    rw [h.front]
    exact List.mem_cons_self
  exact h.shape.distinct _ _ x r hxl hrl he ▸ hx

theorem Awaiting.addRef (h : Awaiting m r L) : Good (m.addRef r) := by
  have hlist : ∀ st, (m.addRef r).listOf st = m.listOf st := by
    intro st
    rw [addRef_toData]
  refine ⟨by rw [addRef_toData]; exact h.shape, fun st => ?_⟩
  rw [hlist]
  by_cases he : st = (m.cells r).settype
  · subst he
    rw [h.front]
    exact addRef_counts h.counts rfl h.mids.2
  · exact addRef_other (h.others st he) (Ne.symm he)

theorem Awaiting.drop (h : Awaiting m r L) {x : Nat} (hx : x ∈ L) :
    Awaiting (m.drop (m.cells r).settype x) r (L.erase x) := by
  obtain ⟨hout, -⟩ := h.mids
  have hxl : x ∈ m.listOf (m.cells r).settype := by
    rw [h.front]
    exact List.mem_cons_of_mem _ hx
  have hxr : r ≠ x := fun he => hout (he ▸ hx)
  have hst : (m.cells x).settype = (m.cells r).settype := (h.shape.own _ x hxl).1
  have hnd : L.Nodup := by
    have hnd := h.shape.nodup (m.cells r).settype
    rw [h.front, List.nodup_cons] at hnd
    exact hnd.2
  refine ⟨h.shape.drop _ x, ?_, ?_, fun st he => ?_⟩
  · rw [drop_cells, drop_listOf, if_pos rfl, h.front, List.erase_cons_tail (by simpa using hxr)]
  · rw [drop_cells]
    refine drop_counts (h.counts.perm (List.perm_cons_erase hx)) hst (fun y hy he => ?_)
    obtain ⟨hne, hy⟩ := hnd.mem_erase_iff.1 hy
    have hyl : y ∈ m.listOf (m.cells r).settype := by
      rw [h.front]
      exact List.mem_cons_of_mem _ hy
    exact hne (h.shape.distinct _ _ y x hyl hxl he)
  · rw [drop_cells] at he
    rw [drop_listOf, if_neg he]
    exact drop_other (h.others st he) (fun h' => he (h'.symm.trans hst))

theorem surplus_mem {l : List Nat} (hl : l ≠ []) {x : Nat} (hx : m.surplus (r :: l) = some x) : x ∈ l := by
  have hlast : (r :: l).getLast? = some (l.getLast hl) := by
    rw [List.getLast?_eq_some_getLast (List.cons_ne_nil r l), List.getLast_cons hl]
  unfold PlayerMail.surplus at hx
  rw [hlast] at hx
  simp only at hx
  split at hx
  · cases hf : (r :: l).tail.dropLast.reverse.find? (fun r => !(m.cells r).unclaimed) with
    | none =>
      rw [hf] at hx
      cases hx
      exact List.getLast_mem hl
    | some y =>
      rw [hf] at hx
      cases hx
      exact List.dropLast_subset _ (List.mem_reverse.1 (List.mem_of_find?_eq_some hf))
  · cases hx
    exact List.getLast_mem hl

theorem limit_pos (st : SetType) : 1 ≤ st.limit := by cases st <;> decide

section Place

theorem place_self (m : PlayerMail) (c : Cell) : (m.place c).cells m.next = c := by
  simp [PlayerMail.place, PlayerMail.setList, PlayerMail.setCell]

theorem place_cells (h : Shape m.toData) (c : Cell) {st : SetType} {x : Nat} (hx : x ∈ m.listOf st) :
    (m.place c).cells x = m.cells x := by
  have hne : x ≠ m.next := Nat.ne_of_lt (h.own st x hx).2
  simp [PlayerMail.place, PlayerMail.setList, PlayerMail.setCell, hne]

theorem place_listOf (m : PlayerMail) (c : Cell) (st : SetType) :
    (m.place c).listOf st = if st = c.settype then m.next :: m.listOf c.settype else m.listOf st := by
  by_cases he : st = c.settype
  · simp [PlayerMail.place, Data.listOf, PlayerMail.setList, he]
  · simp [PlayerMail.place, Data.listOf, PlayerMail.setList, PlayerMail.setCell, he]

theorem mem_place {c : Cell} {st : SetType} {x : Nat} (hx : x ∈ (m.place c).listOf st) :
    (x = m.next ∧ st = c.settype) ∨ x ∈ m.listOf st := by
  rw [place_listOf] at hx
  split at hx
  · rename_i he
    subst he
    exact (List.mem_cons.1 hx).imp (fun hx => ⟨hx, rfl⟩) id
  · exact .inr hx

theorem Shape.place (h : Shape m.toData) {c : Cell} (hfresh : Fresh m c.mid) : Shape (m.place c).toData where
  nodup st := by
    rw [place_listOf]
    split
    · refine List.nodup_cons.2 ⟨fun hx => ?_, h.nodup _⟩
      exact absurd (h.own _ _ hx).2 (Nat.lt_irrefl _)
    · exact h.nodup st
  own st x hx := by
    obtain ⟨rfl, rfl⟩ | hx := mem_place hx
    · exact ⟨by rw [place_self], Nat.lt_succ_self _⟩
    · rw [place_cells h c hx]
      exact ⟨(h.own st x hx).1, Nat.lt_succ_of_lt (h.own st x hx).2⟩
  distinct st₁ st₂ x y hx hy he := by
    obtain ⟨rfl, -⟩ | hx := mem_place hx
    · obtain ⟨rfl, -⟩ | hy := mem_place hy
      · rfl
      · rw [place_self, place_cells h c hy] at he
        exact absurd he.symm (hfresh st₂ y hy)
    · obtain ⟨rfl, -⟩ | hy := mem_place hy
      · rw [place_self, place_cells h c hx] at he
        exact absurd he (hfresh st₁ x hx)
      · rw [place_cells h c hx, place_cells h c hy] at he
        exact h.distinct st₁ st₂ x y hx hy he

theorem Good.place (h : Good m) {c : Cell} (hfresh : Fresh m c.mid) :
    Awaiting (m.place c) m.next (m.listOf c.settype) := by
  have hcounts : ∀ st, Counts (m.place c) st (m.listOf st) :=
    fun st => (h.counts st).congr rfl rfl (fun x hx => place_cells h.shape c hx)
  refine ⟨h.shape.place hfresh, ?_, ?_, fun st he => ?_⟩
  · rw [place_self, place_listOf, if_pos rfl]
  · rw [place_self]
    exact hcounts _
  · rw [place_self] at he
    rw [place_listOf, if_neg he]
    exact hcounts st

end Place

theorem Awaiting.trim (h : Awaiting m r L) : ∃ L', Awaiting (m.trim (m.cells r).settype) r L' ∧
    (m.trim (m.cells r).settype).cells = m.cells ∧ ∀ st, (m.trim (m.cells r).settype).listOf st ⊆ m.listOf st := by
  unfold PlayerMail.trim
  split
  · rename_i hlen
    split
    · rename_i x hx
      rw [h.front] at hx hlen
      have hne : L ≠ [] := by
        rintro rfl
        have := limit_pos (m.cells r).settype
        simp only [List.length_cons, List.length_nil] at hlen
        omega
      have hxl := surplus_mem hne hx
      have hx' : x ∈ m.listOf (m.cells r).settype := by
        rw [h.front]
        exact List.mem_cons_of_mem _ hxl
      rw [removeMail_eq h.shape hx', if_neg (by simp)]
      exact ⟨_, h.drop hxl, drop_cells _ _ _, drop_subset _ _ _⟩
    · exact ⟨L, h, rfl, fun _ _ h => h⟩
  · exact ⟨L, h, rfl, fun _ _ h => h⟩

theorem addNewMail_good (h : Good m) {v : Head} (hfresh : Fresh m v.mid) (share : Option Nat) (found : Bool) :
    Good (m.addNewMail v share found).2 := by
  unfold PlayerMail.addNewMail
  split
  · obtain ⟨L, hL, -, -⟩ := (h.place (c := defaultListCell v) hfresh).trim
    rw [place_self] at hL
    obtain ⟨hshape, hcounts⟩ := hL.addRef
    exact ⟨⟨hshape.nodup, hshape.own, hshape.distinct⟩, fun st => (hcounts st).congr rfl rfl (fun _ _ => rfl)⟩
  · exact h

theorem addNewMail_fresh (h : Good m) {v : Head} (hfresh : Fresh m v.mid) (share : Option Nat) (found : Bool) {mid : Nat}
    (hmid : Fresh m mid) (hne : mid ≠ v.mid) : Fresh (m.addNewMail v share found).2 mid := by
  unfold PlayerMail.addNewMail
  split
  · obtain ⟨L, -, hcells, hsub⟩ := (h.place (c := defaultListCell v) hfresh).trim
    rw [place_self] at hcells hsub
    have hdata : ((m.push (defaultListCell v)).addRef m.next).toData = (m.push (defaultListCell v)).toData :=
      addRef_toData _ _
    intro st x hx
    have hx' : x ∈ (m.push (defaultListCell v)).listOf st := by
      rw [← hdata]
      exact hx
    have hcell : ((m.push (defaultListCell v)).addRef m.next).cells x = (m.place (defaultListCell v)).cells x := by
      rw [hdata]
      exact congrFun hcells x
    show (((m.push (defaultListCell v)).addRef m.next).cells x).mid ≠ mid
    rw [hcell]
    obtain ⟨rfl, -⟩ | hx'' := mem_place (hsub st hx')
    · rw [place_self]
      exact Ne.symm hne
    · rw [place_cells h.shape _ hx'']
      exact hmid st x hx''
  · exact hmid

end Add

def FreshAll (m : PlayerMail) (vs : List Head) : Prop := (vs.map Head.mid).Nodup ∧ ∀ v ∈ vs, Fresh m v.mid

theorem foldl_loadOne_good : ∀ (loads : List Load) (m : PlayerMail), Good m → FreshAll m (loads.filterMap Load.head) →
    Good (loads.foldl PlayerMail.loadOne m)
  | [], _, h, _ => h
  | load :: loads, m, h, hfresh => by
    rw [List.foldl_cons]
    cases hv : load.head with
    | none =>
      rw [List.filterMap_cons_none hv] at hfresh
      have hone : m.loadOne load = m := by
        unfold PlayerMail.loadOne
        rw [hv]
      rw [hone]
      exact foldl_loadOne_good loads m h hfresh
    | some v =>
      rw [List.filterMap_cons_some hv] at hfresh
      obtain ⟨hnd, hall⟩ := hfresh
      rw [List.map_cons, List.nodup_cons] at hnd
      have hone : m.loadOne load = (m.addNewMail v load.share load.found).2 := by
        unfold PlayerMail.loadOne
        rw [hv]
      rw [hone]
      have hv' := hall v List.mem_cons_self
      refine foldl_loadOne_good loads _ (addNewMail_good h hv' _ _) ⟨hnd.2, fun w hw => ?_⟩
      refine addNewMail_fresh h hv' _ _ (hall w (List.mem_cons_of_mem _ hw)) (fun he => hnd.1 ?_)
      rw [← he]
      exact List.mem_map_of_mem hw

theorem Good.withShare {m : PlayerMail} (h : Good m) (id : Nat) : Good { m with curShareId := id } :=
  ⟨⟨h.shape.nodup, h.shape.own, h.shape.distinct⟩, fun st => (h.counts st).congr rfl rfl (fun _ _ => rfl)⟩

theorem loadShareMail_good {m : PlayerMail} (h : Good m) {ret : Option (List Load × Nat)}
    (hfresh : ∀ p, ret = some p → FreshAll m (p.1.filterMap Load.head)) : Good (m.loadShareMail ret) := by
  cases ret with
  | none => exact h
  | some p => exact foldl_loadOne_good p.1 _ (h.withShare _) (hfresh p rfl)

theorem foldl_addRef_counts : ∀ (R P : List Nat) (m : PlayerMail), (R ++ P).Nodup →
    (∀ x ∈ R ++ P, ∀ y ∈ R ++ P, (m.cells x).mid = (m.cells y).mid → x = y) →
    (∀ st, Counts m st (P.filter (fun x => decide ((m.cells x).settype = st)))) →
    (R.foldl PlayerMail.addRef m).toData = m.toData ∧
      ∀ st, Counts (R.foldl PlayerMail.addRef m) st ((R.reverse ++ P).filter (fun x => decide ((m.cells x).settype = st)))
  | [], _, _, _, _, h => ⟨rfl, h⟩
  | r :: R, P, m, hnd, hd, h => by
    have hperm : (R ++ r :: P).Perm (r :: R ++ P) := List.perm_middle
    have hout : r ∉ P := by
      rw [List.cons_append, List.nodup_cons] at hnd
      exact fun hr => hnd.1 (List.mem_append_right _ hr)
    have hcells : (m.addRef r).cells = m.cells := by rw [addRef_toData]
    obtain ⟨hdata, hcounts⟩ := foldl_addRef_counts R (r :: P) (m.addRef r) (hperm.nodup_iff.2 hnd)
      (fun x hx y hy => by
        rw [hcells]
        exact hd x (hperm.mem_iff.1 hx) y (hperm.mem_iff.1 hy)) (fun st => by
        rw [hcells]
        by_cases he : (m.cells r).settype = st
        · rw [List.filter_cons_of_pos (by simpa using he)]
          refine addRef_counts (h st) he (fun x hx hxr => ?_)
          have hxP := (List.mem_filter.1 hx).1
          exact hout (hd x (List.mem_append_right _ hxP) r List.mem_cons_self hxr ▸ hxP)
        · rw [List.filter_cons_of_neg (by simpa using he)]
          exact addRef_other (h st) he)
    refine ⟨hdata.trans (addRef_toData m r), fun st => ?_⟩
    have := hcounts st
    rw [hcells] at this
    simpa using this

theorem filter_flatMap_listOf {d : Data} (h : Shape d) (st : SetType) :
    (SetType.all.flatMap d.listOf).filter (fun x => decide ((d.cells x).settype = st)) = d.listOf st := by
  have hpart : ∀ st', (d.listOf st').filter (fun x => decide ((d.cells x).settype = st)) =
      if st' = st then d.listOf st' else [] := by
    intro st'
    split
    · rename_i he
      refine List.filter_eq_self.2 (fun x hx => ?_)
      simp [(h.own st' x hx).1, he]
    · rename_i he
      refine List.filter_eq_nil_iff.2 (fun x hx => ?_)
      simp [(h.own st' x hx).1, he]
  rw [List.filter_flatMap]
  simp only [hpart, SetType.all, List.flatMap_cons, List.flatMap_nil]
  cases st <;> simp

/-- **`init` counts what is stored.** -/
theorem init_good {d : Data} (h : Shape d) : Good (PlayerMail.init d) := by
  have hmem : ∀ {x}, x ∈ SetType.all.flatMap d.listOf → ∃ st, x ∈ d.listOf st := by
    intro x hx
    obtain ⟨st, -, hst⟩ := List.mem_flatMap.1 hx
    exact ⟨st, hst⟩
  have hnd : (SetType.all.flatMap d.listOf).Nodup := by
    refine List.nodup_flatMap.2 ⟨fun st _ => h.nodup st, ?_⟩
    have hall : SetType.all.Nodup := by decide
    refine hall.imp (fun {st st'} hne x hx hx' => hne ?_)
    exact (h.own st x hx).1.symm.trans (h.own st' x hx').1
  obtain ⟨hdata, hcounts⟩ := foldl_addRef_counts (SetType.all.flatMap d.listOf) []
    { d with online := false, midRef := fun _ _ => none, coverRef := fun _ => ⟨0, 0, 0⟩ }
    (by rwa [List.append_nil]) (fun x hx y hy he => by
      rw [List.append_nil] at hx hy
      obtain ⟨st, hx⟩ := hmem hx
      obtain ⟨st', hy⟩ := hmem hy
      exact h.distinct st st' x y hx hy he)
    (fun st => ⟨fun _ _ => ⟨nofun, fun h => by cases h.1⟩, rfl, rfl, rfl⟩)
  refine ⟨by unfold PlayerMail.init; rw [hdata]; exact h, fun st => ?_⟩
  have hlist : (PlayerMail.init d).listOf st = d.listOf st := by
    unfold PlayerMail.init
    rw [hdata]
  rw [hlist]
  refine (hcounts st).perm ?_
  rw [List.append_nil, List.filter_reverse]
  show List.Perm ((SetType.all.flatMap d.listOf).filter (fun x => decide ((d.cells x).settype = st))).reverse _
  rw [filter_flatMap_listOf h]
  exact List.reverse_perm _

end Mail
end Sncpp
