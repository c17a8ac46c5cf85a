import Sncpp.MailShare
/-!
# MailShareLoad — a player's mail keeps up with the shared list

`Said` ties the ledgers to the mails in memory and in the store.  Checking in, loading the shared mails one by one, leaving
and releasing keep it, whatever comes between their waits.
-/
namespace Sncpp
namespace Mail
namespace Sharing

open Co (Prog Sys Pact Vow Abides)
open Co.Prog (get modify note ask serial raise)

/-- **What holds between any two moves**: the shared list and what is recorded fit, and a player's mail, in memory and in
the store, has the mark that is recorded. -/
structure Said (s : Svc Log) : Prop where
  shared : Shared s.list s.maxId s.nextMid s.userOnline s.notes
  object : ∀ {uid o m}, s.memList uid = some o → s.objs o = some m →
    m.curShareId = (s.notes.player uid).mark ∧ (m.online = true → uid ∈ s.userOnline)
  stored : ∀ {uid}, (s.notes.player uid).phase = .idle → storedMark s.stored uid = (s.notes.player uid).mark
  loaded : ∀ {uid}, (s.notes.player uid).phase ≠ .idle → ∃ o m, s.memList uid = some o ∧ s.objs o = some m

theorem Said.delivered {s : Svc Log} (h : Said s) : Delivered s where
  once uid mid := (h.shared.fair uid).once mid
  met uid mid hg := (h.shared.fair uid).met hg
  whole uid hu hidle v hv hc hpush := by
    have hread : ∀ cur, (s.notes.player uid).phase ≠ .reading cur := by
      intro cur
      rw [hidle]
      nofun
    have hle : v.id ≤ (s.notes.player uid).mark := by
      refine (h.shared.reached hu hread hv).resolve_right (fun hp => ?_)
      simp [Log.pend, hpush] at hp
    refine ((h.shared.fair uid).covered v hv hle hc).resolve_right (fun hin => ?_)
    rw [hidle] at hin
    cases hin

def Phase.busy : Phase → Bool
  | .adding _ => true
  | _ => false

def Log.later (g g' : Log) : Prop :=
  ∀ mid, g.castleLv mid ≠ none → g'.castleLv mid ≠ none ∧ ∀ u ∈ g'.pend mid, u ∈ g.pend mid

def trust : Trust Log where
  busy g uid := (g.player uid).phase.busy
  said := Said
  later := Log.later
  refl _ _ hm := ⟨hm, fun _ hu => hu⟩
  trans h h' mid hm := ⟨(h' mid (h mid hm).1).1, fun u hu => (h mid hm).2 u ((h' mid (h mid hm).1).2 u hu)⟩

theorem Said.frame {s s' : Svc Log} (h : Said s) (hl : s'.list = s.list) (hmax : s'.maxId = s.maxId)
    (hmid : s'.nextMid = s.nextMid)
    (hon : s'.userOnline = s.userOnline) (hnotes : s'.notes = s.notes) (hst : s'.stored = s.stored)
    (hobj : ∀ {uid o m}, s'.memList uid = some o → s'.objs o = some m →
      m.curShareId = (s.notes.player uid).mark ∧ (m.online = true → uid ∈ s.userOnline))
    (hload : ∀ {uid o m}, (s.notes.player uid).phase ≠ .idle → s.memList uid = some o → s.objs o = some m →
      ∃ o m, s'.memList uid = some o ∧ s'.objs o = some m) : Said s' where
  shared := by
    rw [hl, hmax, hmid, hon, hnotes]
    exact h.shared
  object hu ho := by
    rw [hnotes, hon]
    exact hobj hu ho
  stored hidle := by
    rw [hnotes] at hidle ⊢
    rw [hst]
    exact h.stored hidle
  loaded {uid} hne := by
    rw [hnotes] at hne
    obtain ⟨o, m, hm, ho⟩ := h.loaded hne
    exact hload hne hm ho

/-- **A player's own object changes**, with his ledger; `st` has what is stored then. -/
theorem Said.put {s : Svc Log} (h : Said s) (hord : Orderly trust.busy s) {uid o : Nat} {g : Log} {m : PlayerMail}
    {st : Nat → Option Data} (hm : s.memList uid = some o) (hshared : Shared s.list s.maxId s.nextMid s.userOnline g)
    (hg : ∀ u, u ≠ uid → g.player u = s.notes.player u) (hcur : m.curShareId = (g.player uid).mark)
    (hon : m.online = true → uid ∈ s.userOnline) (hst : ∀ u, u ≠ uid → st u = s.stored u)
    (hidle : (g.player uid).phase = .idle → storedMark st uid = (g.player uid).mark) :
    Said { ({ s with notes := g } : Svc Log).setObj o m with stored := st } where
  shared := hshared
  object {u x n} hu hx := by
    by_cases hxo : x = o
    · have hn : m = n := by simpa [Svc.setObj, hxo] using hx
      subst hxo
      obtain rfl : u = uid := hord.alone hu hm
      rw [← hn]
      exact ⟨hcur, hon⟩
    · have hne : u ≠ uid := by
        rintro rfl
        exact hxo (Option.some.inj ((show s.memList u = some x from hu).symm.trans hm))
      show n.curShareId = (g.player u).mark ∧ _
      rw [hg u hne]
      exact h.object hu (by simpa [Svc.setObj, hxo] using hx)
  stored {u} hi := by
    show storedMark st u = (g.player u).mark
    have hi' : (g.player u).phase = .idle := hi
    by_cases he : u = uid
    · subst he
      exact hidle hi'
    · rw [hg u he] at hi' ⊢
      rw [← h.stored hi']
      unfold storedMark
      rw [hst u he]
  loaded {u} hne := by
    have hne' : (g.player u).phase ≠ .idle := hne
    by_cases he : u = uid
    · subst he
      exact ⟨o, m, hm, by simp [Svc.setObj]⟩
    · rw [hg u he] at hne'
      obtain ⟨x, n, hu, hx⟩ := h.loaded hne'
      have hxo : x ≠ o := by
        rintro rfl
        exact he (hord.alone hu hm)
      exact ⟨x, n, hu, by simpa [Svc.setObj, hxo] using hx⟩

theorem Said.idle {s : Svc Log} (h : Said s) {uid o : Nat} (hm : s.memList uid = some o) (hno : s.objs o = none) :
    (s.notes.player uid).phase = .idle := by
  by_contra hne
  obtain ⟨o', m, hm', ho'⟩ := h.loaded hne
  rw [hm] at hm'
  cases hm'
  rw [hno] at ho'
  cases ho'

theorem said_steady : Steady trust.busy (fun _ _ => True) Said where
  newMail {s uid} hord h hno := by
    refine h.frame rfl rfl rfl rfl rfl rfl (fun {u o m} hu ho => ?_) (fun {u o m} _ hu ho => ?_)
    · by_cases he : u = uid
      · have hx : some s.nextObj = some o := by simpa [Svc.newMail, he] using hu
        cases hx
        rw [show (s.newMail uid).objs s.nextObj = none from hord.unmade (Nat.le_refl _)] at ho
        cases ho
      · exact h.object (by simpa [Svc.newMail, he] using hu) ho
    · have he : u ≠ uid := by
        rintro rfl
        rw [hno] at hu
        cases hu
      exact ⟨o, m, by simpa [Svc.newMail, he] using hu, ho⟩
  load {s uid o d} hord h hm hno hd := by
    have hidle := h.idle hm hno
    refine h.frame rfl rfl rfl rfl rfl rfl (fun {u x m} hu hx => ?_) (fun {u x m} _ hu hx => ?_)
    · by_cases hxo : x = o
      · have hm' : PlayerMail.init d = m := by simpa [Svc.setObj, hxo] using hx
        subst hxo
        have hue : u = uid := hord.alone hu hm
        subst hue
        rw [← hm']
        refine ⟨?_, fun hon => ?_⟩
        · show (PlayerMail.init d).toData.curShareId = _
          rw [init_toData, ← h.stored hidle]
          simp [storedMark, hd]
        · rw [init_online] at hon
          cases hon
      · exact h.object hu (by simpa [Svc.setObj, hxo] using hx)
    · by_cases hxo : x = o
      · exact ⟨x, .init d, hu, by simp [Svc.setObj, hxo]⟩
      · exact ⟨x, m, hu, by simpa [Svc.setObj, hxo] using hx⟩
  stale {s o m} hord h hno := by
    have hne : ∀ {u x}, s.memList u = some x → x ≠ o := by
      rintro u x hu rfl
      exact hno u hu
    refine h.frame rfl rfl rfl rfl rfl rfl (fun {u x n} hu hx => ?_) (fun {u x n} _ hu hx => ?_)
    · exact h.object hu (by simpa [Svc.setObj, hne hu] using hx)
    · exact ⟨x, n, hu, by simpa [Svc.setObj, hne hu] using hx⟩
  fill {s uid o} hord h hm hno hst := by
    have hidle := h.idle hm hno
    have hzero : (s.notes.player uid).mark = 0 := by
      rw [← h.stored hidle]
      simp [storedMark, hst]
    refine h.put (g := s.notes) hord hm h.shared (fun _ _ => rfl) ?_ (fun hon => ?_) (fun u hu => ?_) (fun _ => ?_)
    · rw [hzero]
      exact congrArg Data.curShareId (init_toData .default)
    · rw [init_online] at hon
      cases hon
    · simp [Svc.setObj, hu]
    · rw [hzero]
      simp [storedMark, Data.default]
  stored _ _ := trivial
  cached _ _ := trivial
  insert {s mid b} h _ := by
    unfold Svc.insert
    split
    · exact h
    · exact h.frame rfl rfl rfl rfl rfl rfl h.object (fun _ hu ho => ⟨_, _, hu, ho⟩)
  uncache h := h.frame rfl rfl rfl rfl rfl rfl h.object (fun _ hu ho => ⟨_, _, hu, ho⟩)

theorem removeMail_rest (m : PlayerMail) (mid : Nat) (isAuto : Bool) (cell : Option Nat) :
    (m.removeMail mid isAuto cell).2.curShareId = m.curShareId ∧ (m.removeMail mid isAuto cell).2.online = m.online := by
  unfold PlayerMail.removeMail
  split
  · exact ⟨rfl, rfl⟩
  · dsimp only
    split
    · exact ⟨rfl, rfl⟩
    · split
      · exact ⟨rfl, rfl⟩
      · unfold PlayerMail.removeRef
        dsimp only
        split <;> exact ⟨rfl, rfl⟩

theorem push_rest (m : PlayerMail) (c : Cell) : (m.push c).curShareId = m.curShareId ∧ (m.push c).online = m.online := by
  unfold PlayerMail.push PlayerMail.trim
  split
  · split
    · exact removeMail_rest (m.place c) _ _ _
    · exact ⟨rfl, rfl⟩
  · exact ⟨rfl, rfl⟩

theorem addNewMail_rest (m : PlayerMail) (h : Head) (share : Option Nat) :
    (m.addNewMail h share true).2.curShareId = max m.curShareId (share.getD 0) ∧ (m.addNewMail h share true).2.online =
      m.online := by
  obtain ⟨hcur, hon⟩ := push_rest m (defaultListCell h)
  have hdata := congrArg Data.curShareId (addRef_toData (m.push (defaultListCell h)) m.next)
  unfold PlayerMail.addNewMail
  rw [if_pos rfl]
  refine ⟨?_, (addRef_online _ _).trans hon⟩
  show max ((m.push (defaultListCell h)).addRef m.next).curShareId (share.getD 0) = _
  rw [hdata, hcur]

theorem updateExpireTimer_rest (m : PlayerMail) (time : Nat) :
    (m.updateExpireTimer time).curShareId = m.curShareId ∧ (m.updateExpireTimer time).online = m.online := by
  have hfold : ∀ (l : List Nat) (m : PlayerMail),
      (l.foldl (fun m r => (m.removeMail (m.cells r).mid true (some r)).2) m).curShareId = m.curShareId ∧
      (l.foldl (fun m r => (m.removeMail (m.cells r).mid true (some r)).2) m).online = m.online := by
    intro l
    induction l with
    | nil => exact fun _ => ⟨rfl, rfl⟩
    | cons r l ih =>
      intro m
      obtain ⟨hcur, hon⟩ := ih (m.removeMail (m.cells r).mid true (some r)).2
      obtain ⟨hcur', hon'⟩ := removeMail_rest m (m.cells r).mid true (some r)
      exact ⟨hcur.trans hcur', hon.trans hon'⟩
  exact hfold _ m

theorem shareId_le {s : Svc Log} (h : Said s) (mid : Nat) : (shareId s.list mid).getD 0 ≤ s.maxId := by
  unfold shareId
  cases hf : s.list.find? (fun v => decide (v.mid = mid)) with
  | none => exact Nat.zero_le _
  | some v => exact h.shared.ids v (List.mem_of_find?_eq_some hf)

theorem shareId_of_mem {l : List Share} (hmids : (l.map Share.mid).Nodup) {v : Share} (hv : v ∈ l) :
    shareId l v.mid = some v.id := by
  unfold shareId
  cases hf : l.find? (fun w => decide (w.mid = v.mid)) with
  | none =>
    have hno := List.find?_eq_none.1 hf v hv
    simp at hno
  | some w =>
    have hmid : w.mid = v.mid := by simpa using List.find?_some hf
    rw [List.inj_on_of_nodup_map hmids (List.mem_of_find?_eq_some hf) hv hmid]
    rfl

theorem listed_false {l : List Share} {mid : Nat} (h : listed l mid = false) : ∀ v ∈ l, v.mid ≠ mid := by
  intro v hv he
  have := List.any_eq_false.1 h v hv
  simp [he] at this

section Adding

variable {may : Req → Reply → Bool}

theorem later_set (g : Log) (uid : Nat) (p : Ledger) : g.later (g.set uid p) := fun _ hm => ⟨hm, fun _ hu => hu⟩

def added (s : Svc Log) (uid o : Nat) (h : Head) (p : Phase) (m : PlayerMail) : Svc Log :=
  (({ s with notes := s.notes.add uid h.mid ((shareId s.list h.mid).getD 0) p } : Svc Log).setObj o
    (m.addNewMail h (shareId s.list h.mid) true).2).save uid (m.addNewMail h (shareId s.list h.mid) true).2.toData

theorem added_inv {s : Svc Log} (hs : trust.pact.inv s) {uid o : Nat} {h : Head} {p : Phase} {m : PlayerMail}
    (hm : s.memList uid = some o) (ho : s.objs o = some m) (hbusy : (s.notes.player uid).phase.busy = true → p.busy = true)
    (hread : ∀ cur, (s.notes.player uid).phase ≠ .reading cur)
    (hfair : Fair s.list s.notes.castleLv ((s.notes.add uid h.mid ((shareId s.list h.mid).getD 0) p).player uid)) :
    trust.pact.inv (added s uid o h p m) := by
  obtain ⟨hord, hsaid⟩ := hs
  obtain ⟨hcur, hon⟩ := addNewMail_rest m h (shareId s.list h.mid)
  obtain ⟨hmark, honline⟩ := hsaid.object hm ho
  have hself : (s.notes.add uid h.mid ((shareId s.list h.mid).getD 0) p).player uid =
      { s.notes.player uid with
        got := Function.update (s.notes.player uid).got h.mid ((s.notes.player uid).got h.mid + 1)
        mark := max (s.notes.player uid).mark ((shareId s.list h.mid).getD 0)
        phase := p } := by
    simp [Log.add, Log.set]
  have hmark' : ((s.notes.add uid h.mid ((shareId s.list h.mid).getD 0) p).player uid).mark =
      (m.addNewMail h (shareId s.list h.mid) true).2.curShareId := by
    rw [hself, hcur, hmark]
  have hord' : Orderly trust.busy { s with notes := s.notes.add uid h.mid ((shareId s.list h.mid).getD 0) p } := by
    refine hord.frame rfl rfl rfl rfl (fun u hb => ?_)
    show ((s.notes.add uid h.mid ((shareId s.list h.mid).getD 0) p).player u).phase.busy = true
    by_cases hu : u = uid
    · subst hu
      rw [hself]
      exact hbusy hb
    · have hother : (s.notes.add uid h.mid ((shareId s.list h.mid).getD 0) p).player u = s.notes.player u := by
        simp [Log.add, Log.set, hu]
      rw [hother]
      exact hb
  refine ⟨hord'.write hm, hsaid.put hord hm ?_ (fun u hu => ?_) hmark'.symm (fun h' => honline (hon ▸ h')) (fun u hu => ?_)
    (fun _ => ?_)⟩
  · rw [hself] at hfair
    refine hsaid.shared.set hfair (Nat.le_max_left _ _) ?_ (fun _ => .inl hread)
    exact Nat.max_le.2 ⟨hsaid.shared.behind uid, shareId_le hsaid h.mid⟩
  · simp [Log.add, Log.set, hu]
  · simp [Svc.setObj, hu]
  · rw [hmark']
    simp [storedMark, Svc.setObj]

theorem lookUp_vow {bad : Svc Log → Prop} (mid : Nat) :
    Vow trust.pact may trust.pact.inv (lookUp mid) (fun b s => trust.pact.inv s ∧
      (b = none → listed s.list mid = false)) bad := by
  refine Vow.bind (M := fun _ =>
    trust.pact.inv) (Vow.xpcall (query_vow said_steady mid) (fun _ _ h => h.1) (fun _ _ h => h))
    (fun r => ?_)
  refine Vow.bind (M := fun _ s => trust.pact.inv s ∧ answered (listed s.list mid) r = true)
    (Vow.note nofun (fun s hs hn => ⟨hs, hn rfl⟩)) (fun _ => ?_)
  cases r with
  | error e => exact fun _ s _ hs => nomatch hs.2
  | ok b =>
    refine fun _ s hv hs => ⟨hv, hs.1, ?_⟩
    rintro rfl
    simpa [answered] using hs.2

theorem forks_abides (f : Svc Log → List (Nat × Nat)) :
    Abides trust.pact may (modify (fun s => { s with forks := f s }) : Co Log Unit) := by
  refine Abides.modify (fun s hs =>
    ⟨⟨hs.1.frame rfl rfl rfl rfl (fun _ hb => hb), ?_⟩, Later.frame rfl rfl rfl rfl (trust.refl _)⟩)
  exact hs.2.frame rfl rfl rfl rfl rfl rfl hs.2.object (fun _ hu ho => ⟨_, _, hu, ho⟩)

/-- **Adding a shared mail**: it is added and `R` holds, or it has no body and is not listed. -/
theorem addNewMail_vow {bad : Svc Log → Prop} {uid o : Nat} {h : Head} {due : Svc Log → Bool} {p : Phase}
    {R : Svc Log → Prop}
    (hfork : ∀ s l, R s → R { s with forks := l })
    (hdue : ∀ s, trust.pact.inv s → due s = true → ∃ m, s.memList uid = some o ∧ s.objs o = some m ∧
      trust.pact.inv (added s uid o h p m) ∧ R (added s uid o h p m)) :
    Vow trust.pact may trust.pact.inv (addNewMail uid o h due p) (fun b s => trust.pact.inv s ∧
      (b = false → listed s.list h.mid = false) ∧ (b = true → R s)) bad := by
  refine Vow.bind (lookUp_vow h.mid) (fun b => Vow.ite (fun hb => ?_) (fun _ => Vow.fix (fun s hs => ?_)))
  · refine Vow.pure (fun s hs => ⟨hs.1, fun _ => hs.2 (by simpa using hb), nofun⟩)
  refine Vow.noteAt nofun (fun hn => ?_)
  obtain ⟨m, hm, ho, hinv, hR⟩ := hdue s hs.1 (hn rfl)
  refine Vow.get (fun s' hs' => ?_)
  subst hs'
  simp only [ho]
  have hchange : ({ s' with notes := s'.notes.add uid h.mid ((shareId s'.list h.mid).getD 0) p } : Svc Log).change uid o
      (fun m => (m.addNewMail h (shareId s'.list h.mid) true).2) = added s' uid o h p m := change_some ho
  refine Vow.modifyAt (Later.frame rfl rfl rfl rfl (later_set _ _ _)) ?_
  refine Vow.modifyAt ?_ (Vow.bind (M := fun _ s'' => trust.pact.inv s'' ∧ R s'') (Vow.modify (fun s'' hs'' => ?_))
    (fun _ => Vow.pure (fun s'' hs'' => ⟨hs''.1, nofun, fun _ => hs''.2⟩)))
  · rw [hchange]
    exact Later.write (V := trust.later) (s :=
      { s' with notes := s'.notes.add uid h.mid ((shareId s'.list h.mid).getD 0) p })
      trust.refl hm _ _
  · rw [hs'', hchange]
    refine ⟨Later.frame rfl rfl rfl rfl (trust.refl _), ⟨hinv.1.frame rfl rfl rfl rfl (fun _ hb => hb), ?_⟩, hfork _ _ hR⟩
    exact hinv.2.frame rfl rfl rfl rfl rfl rfl hinv.2.object (fun _ hu ho => ⟨_, _, hu, ho⟩)

end Adding

theorem Said.ledger {s : Svc Log} (h : Said s) {uid : Nat} {p : Ledger}
    (hshared : Shared s.list s.maxId s.nextMid s.userOnline (s.notes.set uid p)) (hmark : p.mark =
      (s.notes.player uid).mark)
    (hidle : p.phase = .idle → storedMark s.stored uid = p.mark)
    (hload : p.phase ≠ .idle → ∃ o m, s.memList uid = some o ∧ s.objs o = some m) :
    Said { s with notes := s.notes.set uid p } := by
  have hplayer : ∀ u, (s.notes.set uid p).player u = if u = uid then p else s.notes.player u := by
    intro u
    by_cases hu : u = uid
    · subst hu
      simp [Log.set]
    · simp [Log.set, hu]
  refine ⟨hshared, fun {u o m} hu ho => ?_, fun {u} hi => ?_, fun {u} hne => ?_⟩
  · obtain ⟨hcur, hon⟩ := h.object hu ho
    refine ⟨?_, hon⟩
    rw [hcur]
    show _ = ((s.notes.set uid p).player u).mark
    rw [hplayer]
    split
    · rename_i he
      rw [he, hmark]
    · rfl
  · have hi' : ((s.notes.set uid p).player u).phase = .idle := hi
    show _ = ((s.notes.set uid p).player u).mark
    rw [hplayer] at hi' ⊢
    split at hi'
    · rename_i he
      rw [if_pos he, he]
      exact hidle hi'
    · rename_i he
      rw [if_neg he]
      exact h.stored hi'
  · have hne' : ((s.notes.set uid p).player u).phase ≠ .idle := hne
    rw [hplayer] at hne'
    split at hne'
    · rename_i he
      rw [he]
      exact hload hne'
    · exact h.loaded hne'

section Loading

variable {may : Req → Reply → Bool} {bad : Svc Log → Prop}

theorem skip_vow (uid mid : Nat) (mids : List Nat) :
    Vow trust.pact may (fun s => trust.pact.inv s ∧ listed s.list mid = false) (skip uid mid mids) (fun _ => trust.pact.inv)
      bad := by
  refine Vow.fix (fun s hs => Vow.noteAt (fun h => h.elim) (fun hn => Vow.modify (fun s' hs' => ?_)))
  subst hs'
  obtain ⟨⟨hord, hsaid⟩, hgone⟩ := hs
  have hphase : (s'.notes.player uid).phase = .adding (mid :: mids) := of_decide_eq_true (hn rfl)
  have hbusy : (s'.notes.player uid).phase ≠ .idle := by
    rw [hphase]
    simp
  refine ⟨Later.frame rfl rfl rfl rfl (later_set _ _ _), hord.notes (fun u hb => .inl ?_), ?_⟩
  · by_cases hu : u = uid
    · have hb' : (Phase.adding mids).busy = false := by simpa [trust, Log.setPhase, Log.set, hu] using hb
      cases hb'
    · simpa [trust, Log.setPhase, Log.set, hu] using hb
  · refine hsaid.ledger (hsaid.shared.set ((hsaid.shared.fair uid).skip hphase (listed_false hgone)) (Nat.le_refl _)
      (hsaid.shared.behind uid) (fun _ => .inl ?_)) rfl (fun hi => ?_) (fun _ => hsaid.loaded hbusy)
    · intro cur
      rw [hphase]
      simp
    · cases hi

theorem loadAll_vow (uid o : Nat) : ∀ mids : List Nat,
    Vow trust.pact may trust.pact.inv (loadAll uid o mids) (fun _ => trust.pact.inv) bad
  | [] => Vow.pure (fun _ hs => hs)
  | mid :: mids => by
    refine Vow.bind (lookUp_vow mid) (fun b => Vow.bind (M := fun _ => trust.pact.inv) ?_ (fun _ => loadAll_vow uid o mids))
    cases b with
    | none => exact (skip_vow uid mid mids).weaken (fun s hs => ⟨hs.1, hs.2 rfl⟩)
    | some b =>
      have hdue : ∀ s, trust.pact.inv s → (decide (s.memList uid = some o) &&
          decide ((s.notes.player uid).phase = .adding (mid :: mids))) = true → ∃ m, s.memList uid = some o ∧
            s.objs o = some m ∧
          trust.pact.inv (added s uid o (headAs b mid) (.adding mids) m) ∧ True := by
        intro s hs hn
        simp only [Bool.and_eq_true, decide_eq_true_eq] at hn
        obtain ⟨hm, hphase⟩ := hn
        obtain ⟨o', m, hm', ho⟩ := hs.2.loaded (show (s.notes.player uid).phase ≠ .idle by rw [hphase]; simp)
        rw [hm] at hm'
        cases hm'
        refine ⟨m, hm, ho, added_inv hs hm ho (fun _ => rfl) (by rw [hphase]; simp) ?_, trivial⟩
        have hpast : (shareId s.list mid).getD 0 ≤ (s.notes.player uid).mark := by
          unfold shareId
          cases hf : s.list.find? (fun v => decide (v.mid = mid)) with
          | none => exact Nat.zero_le _
          | some v =>
            have hin : mid ∈ (s.notes.player uid).phase.todo := by
              rw [hphase]
              exact List.mem_cons_self
            have hvm : v.mid = mid := by simpa using List.find?_some hf
            exact ((hs.2.shared.fair uid).todo hin).2.2 v (List.mem_of_find?_eq_some hf) hvm
        have htake := (hs.2.shared.fair uid).take hphase hpast
        simpa [Log.add, Log.set, headAs] using htake
      refine Vow.bind (M := fun r s => trust.pact.inv s ∧ (r = .ok true ∨ listed s.list mid = false))
        (Vow.xpcall (E := fun _ => False) ((addNewMail_vow (R := fun _ => True) (fun _ _ h => h) hdue).weaken (fun _ hs =>
          hs.1)) (fun b s hs => ⟨hs.1, ?_⟩)
          (fun _ _ h => h.elim)) (fun r => ?_)
      · cases b with
        | true => exact .inl rfl
        | false => exact .inr (hs.2.1 rfl)
      · split
        · exact Vow.pure (fun _ hs => hs.1)
        · rename_i hr
          exact (skip_vow uid mid mids).weaken (fun s hs => ⟨hs.1, hs.2.resolve_left hr⟩)

theorem read_inv {s : Svc Log} (hs : trust.pact.inv s) {uid o cur : Nat} {m : PlayerMail} (hm : s.memList uid = some o)
    (ho : s.objs o = some m) (hphase : (s.notes.player uid).phase = .reading cur)
    (hasks : ∀ v ∈ s.list, cur < v.id → (v.castleLv ≤ 1 ↔ v.castleLv ≤ (s.notes.player uid).level)) :
    trust.pact.inv (({ s with notes := s.notes.read uid (loadMail s.list cur 1).2 (loadMail s.list cur 1).1 } : Svc
      Log).setObj o
      { m with curShareId := max m.curShareId (loadMail s.list cur 1).2 }) := by
  obtain ⟨hord, hsaid⟩ := hs
  obtain ⟨hcur, hon⟩ := hsaid.object hm ho
  have hself : (s.notes.read uid (loadMail s.list cur 1).2 (loadMail s.list cur 1).1).player uid =
      { s.notes.player uid with
        mark := max (s.notes.player uid).mark (loadMail s.list cur 1).2
        phase := .adding (loadMail s.list cur 1).1 } := by
    simp [Log.read, Log.set]
  have hother : ∀ u, u ≠ uid →
      (s.notes.read uid (loadMail s.list cur 1).2 (loadMail s.list cur 1).1).player u = s.notes.player u := by
    intro u hu
    simp [Log.read, Log.set, hu]
  have hmarkcur : (s.notes.player uid).mark = cur := (hsaid.shared.fair uid).reading hphase
  refine ⟨(hord.notes (fun u hb => .inl ?_)).setObj (hord.drawn hm) (fun u hu hb => ?_), ?_⟩
  · by_cases hu : u = uid
    · subst hu
      rw [show trust.busy s.notes u = (s.notes.player u).phase.busy from rfl, hphase]
      rfl
    · simpa [trust, hother u hu] using hb
  · obtain rfl : u = uid := hord.alone hu hm
    have hb' : ((s.notes.read u (loadMail s.list cur 1).2 (loadMail s.list cur 1).1).player u).phase.busy = false := hb
    rw [hself] at hb'
    cases hb'
  · refine hsaid.put (g := s.notes.read uid (loadMail s.list cur 1).2 (loadMail s.list cur 1).1) hord hm
      (hsaid.shared.set ((hsaid.shared.fair uid).read hsaid.shared.mids hsaid.shared.made hphase hasks)
      (Nat.le_max_left _ _) (Nat.max_le.2 ⟨hsaid.shared.behind uid, ?_⟩) (fun _ => .inr (fun v hv => ?_))) hother ?_ hon
      (fun _ _ => rfl) (fun hi => ?_)
    · exact loadMail_le _ _ _ (hmarkcur ▸ hsaid.shared.behind uid) hsaid.shared.ids
    · exact Nat.le_trans ((le_loadMail s.list cur 1).2 v hv) (Nat.le_max_right _ _)
    · rw [hself]
      show max m.curShareId _ = _
      rw [hcur]
    · rw [hself] at hi
      cases hi

theorem finish_inv {s : Svc Log} (hs : trust.pact.inv s) {uid o : Nat} {m : PlayerMail} (hm : s.memList uid = some o)
    (ho : s.objs o = some m) (hphase : (s.notes.player uid).phase = .adding []) (hst : s.stored uid = some m.toData) :
    trust.pact.inv { s with notes := s.notes.setPhase uid .idle } := by
  obtain ⟨hord, hsaid⟩ := hs
  refine ⟨hord.notes (fun u hb => ?_), ?_⟩
  · by_cases hu : u = uid
    · right
      intro o' m' hm' ho'
      rw [hu] at hm' ⊢
      rw [hm] at hm'
      cases hm'
      rw [ho] at ho'
      cases ho'
      exact hst
    · left
      simpa [trust, Log.setPhase, Log.set, hu] using hb
  · refine hsaid.ledger (hsaid.shared.set ((hsaid.shared.fair uid).finish hphase) (Nat.le_refl _) (hsaid.shared.behind uid)
      (fun _ => .inl ?_)) rfl (fun _ => ?_) (fun hne => absurd rfl hne)
    · intro cur
      rw [hphase]
      simp
    · show storedMark s.stored uid = (s.notes.player uid).mark
      rw [← (hsaid.object hm ho).1]
      simp [storedMark, hst]

theorem loadShareMail_vow (uid o cur : Nat) : Vow trust.pact may (fun s => Orderly trust.busy s ∧ (s.maxId ≤ cur → Said s) ∧
    Said { s with notes := s.notes.setPhase uid (.reading cur) } ∧ (s.notes.player uid).phase =
      .idle) (loadShareMail uid o cur)
    (fun _ => trust.pact.inv) bad := by
  refine Vow.get (fun s₀ h₀ => Vow.ite (fun hle => Vow.pure (fun s hs => ?_)) (fun _ => ?_))
  · rw [hs]
    exact ⟨h₀.1, h₀.2.1 hle⟩
  obtain ⟨hord₀, -, hsaid₀, hidle₀⟩ := h₀
  refine Vow.modifyAt (Later.frame rfl rfl rfl rfl (later_set _ _ _)) ?_
  have hbody : Vow trust.pact may trust.pact.inv (get >>= fun s => pure (loadMail s.list cur 1) : Co Log (List Nat × Nat))
      (fun v s => trust.pact.inv s ∧ v = loadMail s.list cur 1) bad := by
    refine Vow.get (fun s hs => Vow.pure (fun s' hs' => ?_))
    rw [hs']
    exact ⟨hs, rfl⟩
  refine Vow.bind (M := fun v s => trust.pact.inv s ∧ v = loadMail s.list cur 1) (Vow.serial hbody (fun s hs => ?_)
    (fun _ _ _ hi _ => hi)) (fun v => Vow.fix (fun s hs => ?_))
  · rw [hs]
    refine ⟨hord₀.notes (fun u hb => .inl ?_), hsaid₀⟩
    by_cases hu : u = uid
    · subst hu
      rw [show trust.busy s₀.notes u = (s₀.notes.player u).phase.busy from rfl, hidle₀]
      rfl
    · simpa [trust, Log.setPhase, Log.set, hu] using hb
  obtain ⟨hinv, rfl⟩ := hs
  refine Vow.noteAt (fun h => h.elim) (fun hn => ?_)
  have hn' := hn rfl
  simp only [Bool.and_eq_true, decide_eq_true_eq, List.all_eq_true, Bool.or_eq_true, beq_iff_eq, decide_eq_decide] at hn'
  obtain ⟨⟨hm, hphase⟩, hasks⟩ := hn'
  obtain ⟨o', m, hm', ho⟩ := hinv.2.loaded (show (s.notes.player uid).phase ≠ .idle by rw [hphase]; simp)
  obtain rfl : o' = o := Option.some.inj (hm'.symm.trans hm)
  have hread := read_inv hinv hm ho hphase (fun v hv hlt => (hasks v hv).resolve_left (by omega))
  refine Vow.modifyAt (Later.frame rfl rfl rfl rfl (later_set _ _ _)) (Vow.modifyAt ?_ ?_)
  · rw [alter_some (m := m) (by exact ho)]
    exact Later.setObj trust.refl _ _ _
  rw [alter_some (m := m) (by exact ho)]
  -- without anything new nothing is saved, and nothing has to be
  refine Vow.bind (M := fun _ s' => trust.pact.inv s' ∧
    (¬(cur < (loadMail s.list cur 1).2 ∨ (loadMail s.list cur 1).1 ≠ []) →
    ∀ n, s'.objs o' = some n → s'.stored uid = some n.toData)) ?_ (fun _ =>
      Vow.fix (fun s' hs' => Vow.noteAt (fun h => h.elim) (fun hn => ?_)))
  · by_cases hret : (loadMail s.list cur 1).1 = []
    · rw [hret]
      refine Vow.pure (fun s' hs' => ?_)
      rw [hs', ← hret]
      refine ⟨hread, fun hno n hn => ?_⟩
      have hle : (loadMail s.list cur 1).2 ≤ cur := Nat.le_of_not_lt (fun hlt => hno (.inl hlt))
      have hsaved := hinv.1.saved hm ho (show ((s.notes.player uid).phase.busy = false) by rw [hphase]; rfl)
      have hcur : m.curShareId = cur := (hinv.2.object hm ho).1.trans ((hinv.2.shared.fair uid).reading hphase)
      have hn' : ({ m with curShareId := max m.curShareId (loadMail s.list cur 1).2 } : PlayerMail) = n := by
        simpa [Svc.setObj] using hn
      rw [← hn', hcur, Nat.max_eq_left hle, ← hcur]
      exact hsaved
    · exact (loadAll_vow uid o' _).conseq (fun s' hs' => by rw [hs']; exact hread)
        (fun _ _ hs' => ⟨hs', fun hno => absurd (.inr hret) hno⟩) (fun _ hb => hb)
  have hn' := hn rfl
  simp only [Bool.and_eq_true, decide_eq_true_eq] at hn'
  obtain ⟨hm₂, hphase₂⟩ := hn'
  obtain ⟨o₂, m₂, hm₂', ho₂⟩ := hs'.1.2.loaded (show (s'.notes.player uid).phase ≠ .idle by rw [hphase₂]; simp)
  obtain rfl : o₂ = o' := Option.some.inj (hm₂'.symm.trans hm₂)
  refine Vow.bind (M := fun _ s'' => trust.pact.inv s'' ∧ s''.memList uid = some o₂ ∧ s''.objs o₂ = some m₂ ∧
    (s''.notes.player uid).phase = .adding [] ∧ s''.stored uid = some m₂.toData) (Vow.ite (fun _ => ?_) (fun hno => ?_))
    (fun _ => Vow.modify (fun s'' hs'' => ?_))
  · refine Vow.modify (fun s'' hs'' => ?_)
    subst hs''
    rw [change_some ho₂]
    refine ⟨Later.write trust.refl hm₂ _ _, ⟨hs'.1.1.write hm₂, ?_⟩,
      hm₂, by simp [Svc.save, Svc.setObj], hphase₂, by simp [Svc.save]⟩
    refine hs'.1.2.put (g := s''.notes) hs'.1.1 hm₂ hs'.1.2.shared (fun _ _ => rfl) (hs'.1.2.object hm₂ ho₂).1
      (hs'.1.2.object hm₂ ho₂).2 (fun u hu => ?_) (fun hi => ?_)
    · simp [Svc.setObj, hu]
    · rw [hphase₂] at hi
      cases hi
  · refine Vow.pure (fun s'' hs'' => ?_)
    rw [hs'']
    exact ⟨hs'.1, hm₂, ho₂, hphase₂, hs'.2 hno m₂ ho₂⟩
  · obtain ⟨hinv'', hm'', ho'', hphase'', hst''⟩ := hs''
    exact ⟨Later.frame rfl rfl rfl rfl (later_set _ _ _), finish_inv hinv'' hm'' ho'' hphase'' hst''⟩

theorem change_inv {s : Svc Log} (hs : trust.pact.inv s) {uid o : Nat} {m m' : PlayerMail} (hm : s.memList uid = some o)
    (ho : s.objs o = some m) (hrest : m'.curShareId = m.curShareId ∧ m'.online = m.online) :
    trust.pact.inv ((s.setObj o m').save uid m'.toData) := by
  obtain ⟨hord, hsaid⟩ := hs
  obtain ⟨hcur, hon⟩ := hsaid.object hm ho
  refine ⟨hord.write hm, hsaid.put (g := s.notes) hord hm hsaid.shared (fun _ _ => rfl) (hrest.1.trans hcur)
    (fun h => hon (hrest.2 ▸ h)) (fun u hu => ?_) (fun _ => ?_)⟩
  · simp [Svc.setObj, hu]
  · rw [← hcur, ← hrest.1]
    simp [storedMark, Svc.setObj]

theorem updateExpireTimer_abides (uid o time : Nat) : Abides trust.pact may (updateExpireTimer uid o time) := by
  refine Vow.get (fun s hs => ?_)
  split
  · exact (Abides.err _).at hs
  · rename_i m ho
    refine Vow.ite (fun _ => (Abides.pure ()).at hs) (fun _ => write_at (T := trust) (fun hm => (forks_abides _).at ?_))
    rw [change_some ho]
    exact change_inv hs hm ho (updateExpireTimer_rest m time)

theorem Said.enter {s : Svc Log} (h : Said s) {online : List Nat} (hsub : ∀ u ∈ s.userOnline, u ∈ online)
    (hon : ∀ u ∈ online, u ∈ s.userOnline ∨ (∃ cur, (s.notes.player u).phase = .reading cur) ∨
      ∀ v ∈ s.list, v.id ≤ (s.notes.player u).mark) : Said { s with userOnline := online } :=
  ⟨h.shared.enter hon, fun hu ho => ⟨(h.object hu ho).1, fun hb => hsub _ ((h.object hu ho).2 hb)⟩, h.stored, h.loaded⟩

theorem mem_online {online : List Nat} {uid u : Nat} :
    u ∈ uid :: online.filter (fun u => decide (u ≠ uid)) ↔ u = uid ∨ u ∈ online := by
  by_cases hu : u = uid <;> simp [hu]

theorem checkinIn_abides (uid o time : Nat) : Abides trust.pact may (checkinIn uid o time) := by
  refine Vow.fix (fun s hs => Vow.noteAt (fun h => h.elim) (fun hn => ?_))
  have hn' := hn rfl
  simp only [Bool.and_eq_true, decide_eq_true_eq, Option.isSome_iff_exists] at hn'
  obtain ⟨⟨hm, m, ho⟩, hidle⟩ := hn'
  obtain ⟨hord, hsaid⟩ := hs
  obtain ⟨hcur, hon⟩ := hsaid.object hm ho
  refine Vow.modifyAt (Later.frame rfl rfl rfl rfl (trust.refl _)) (Vow.get (fun s' hs' => ?_))
  subst hs'
  have hord' : Orderly trust.busy
      { s with userOnline := uid :: s.userOnline.filter (fun u => decide (u ≠ uid)) } :=
    hord.frame rfl rfl rfl rfl (fun _ hb => hb)
  have hsub : ∀ u ∈ s.userOnline, u ∈ uid :: s.userOnline.filter (fun u => decide (u ≠ uid)) :=
    fun u hu => mem_online.2 (.inr hu)
  simp only [ho]
  refine Vow.ite (fun honline => Vow.pure (fun s' hs' => ?_)) (fun _ => Vow.modifyAt ?_ ?_)
  · rw [hs']
    refine ⟨hord', hsaid.enter hsub (fun u hu => .inl ?_)⟩
    rcases mem_online.1 hu with rfl | hu
    · exact hon honline
    · exact hu
  · rw [alter_some (m := m) (by exact ho)]
    exact Later.setObj trust.refl _ _ _
  rw [alter_some (m := m) (by exact ho)]
  have hordo := hord'.setObj (o := o) (m := { m with online := true }) (hord.drawn hm) (fun u hu hb => by
    obtain rfl : u = uid := hord.alone hu hm
    have hst : s.stored u = some m.toData := hord.saved hm ho hb
    exact hst)
  refine Vow.bind (M := fun _ => trust.pact.inv) ((loadShareMail_vow uid o m.curShareId).weaken (fun s' hs' => ?_))
    (fun _ => updateExpireTimer_abides uid o time)
  rw [hs']
  refine ⟨hordo, fun hle => ?_, ?_, hidle⟩
  · -- nothing is beyond the mark
    have hsaid' : Said { s with userOnline := uid :: s.userOnline.filter (fun u => decide (u ≠ uid)) } := by
      refine hsaid.enter hsub (fun u hu => ?_)
      rcases mem_online.1 hu with rfl | hu
      · refine .inr (.inr (fun v hv => ?_))
        rw [← hcur]
        exact Nat.le_trans (hsaid.shared.ids v hv) hle
      · exact .inl hu
    exact hsaid'.put (g := s.notes) hord' hm hsaid'.shared (fun _ _ => rfl) hcur (fun _ => mem_online.2 (.inl rfl))
      (fun _ _ => rfl) (fun hi => hsaid.stored hi)
  · have hself : (s.notes.setPhase uid (.reading m.curShareId)).player uid =
        { s.notes.player uid with phase := .reading m.curShareId } := by
      simp [Log.setPhase, Log.set]
    have hstart : Said { s with notes := s.notes.setPhase uid (.reading m.curShareId) } := by
      refine hsaid.ledger (hsaid.shared.set ?_ (Nat.le_refl _) (hsaid.shared.behind uid) (fun hr => absurd rfl (hr _))) rfl
        (fun hi => ?_) (fun _ => ⟨o, m, hm, ho⟩)
      · rw [hcur]
        exact (hsaid.shared.fair uid).start hidle
      · cases hi
    have henter : Said { s with
        notes := s.notes.setPhase uid (.reading m.curShareId)
        userOnline := uid :: s.userOnline.filter (fun u => decide (u ≠ uid)) } := by
      refine hstart.enter hsub (fun u hu => ?_)
      rcases mem_online.1 hu with rfl | hu
      · exact .inr (.inl ⟨m.curShareId, by rw [hself]⟩)
      · exact .inl hu
    have hord'' : Orderly trust.busy { s with
        notes := s.notes.setPhase uid (.reading m.curShareId)
        userOnline := uid :: s.userOnline.filter (fun u => decide (u ≠ uid)) } := by
      refine hord'.notes (fun u hb => .inl ?_)
      by_cases hu : u = uid
      · subst hu
        rw [show trust.busy s.notes u = (s.notes.player u).phase.busy from rfl, hidle]
        rfl
      · simpa [trust, Log.setPhase, Log.set, hu] using hb
    refine henter.put (g := s.notes.setPhase uid (.reading m.curShareId)) hord'' hm henter.shared (fun _ _ => rfl) ?_
      (fun _ => mem_online.2 (.inl rfl)) (fun _ _ => rfl) (fun hi => ?_)
    · rw [hself]
      exact hcur
    · rw [hself] at hi
      cases hi

theorem afk_inv {s : Svc Log} (hs : trust.pact.inv s) {uid o : Nat} (hn : s.memList uid = some o ∨ s.memList uid = none) :
    trust.pact.inv (({ s with userOnline := s.userOnline.filter (fun u => decide (u ≠ uid)) } : Svc Log).alter o
      (fun m => { m with online := false })) := by
  obtain ⟨hord, hsaid⟩ := hs
  have hord' : Orderly trust.busy { s with userOnline := s.userOnline.filter (fun u => decide (u ≠ uid)) } :=
    hord.frame rfl rfl rfl rfl (fun _ hb => hb)
  have hshared : Shared s.list s.maxId s.nextMid (s.userOnline.filter (fun u => decide (u ≠ uid))) s.notes :=
    hsaid.shared.enter (fun u hu => .inl (List.mem_filter.1 hu).1)
  -- another object is another player's
  have hkeep : ∀ {u x m}, s.memList u = some x → s.objs x = some m → x ≠ o → m.online = true →
      u ∈ s.userOnline.filter (fun u => decide (u ≠ uid)) := by
    intro u x m hu hx hxo hb
    refine List.mem_filter.2 ⟨(hsaid.object hu hx).2 hb, ?_⟩
    have hne : u ≠ uid := by
      rintro rfl
      rcases hn with hn | hn <;> rw [hn] at hu
      · exact hxo (Option.some.inj hu).symm
      · cases hu
    simpa using hne
  cases ho : s.objs o with
  | none =>
    have hsame : ({ s with userOnline := s.userOnline.filter (fun u => decide (u ≠ uid)) } : Svc Log).alter o
        (fun m => { m with online := false }) =
          { s with userOnline := s.userOnline.filter (fun u => decide (u ≠ uid)) } := by
      unfold Svc.alter
      rw [show ({ s with userOnline := s.userOnline.filter (fun u => decide (u ≠ uid)) } : Svc Log).objs o = none from ho]
    rw [hsame]
    refine ⟨hord', hshared, fun {u x m} hu hx => ⟨(hsaid.object hu hx).1, hkeep hu hx ?_⟩, hsaid.stored, hsaid.loaded⟩
    rintro rfl
    rw [show s.objs x = some m from hx] at ho
    cases ho
  | some m =>
    rw [alter_some (m := m) (by exact ho)]
    have hlt : o < s.nextObj := by
      by_contra hge
      rw [hord.unmade (Nat.le_of_not_lt hge)] at ho
      cases ho
    refine ⟨hord'.setObj hlt (fun u hu hb => ?_), hshared, fun {u x n} hu hx => ?_, hsaid.stored, fun {u} hne => ?_⟩
    · have hst : s.stored u = some m.toData := hord.saved hu ho hb
      exact hst
    · by_cases hxo : x = o
      · have hn' : ({ m with online := false } : PlayerMail) = n := by simpa [Svc.setObj, hxo] using hx
        subst hxo
        rw [← hn']
        exact ⟨(hsaid.object hu ho).1, fun h => absurd h (by simp)⟩
      · have hx' : s.objs x = some n := by simpa [Svc.setObj, hxo] using hx
        exact ⟨(hsaid.object hu hx').1, hkeep hu hx' hxo⟩
    · obtain ⟨x, n, hu, hx⟩ := hsaid.loaded hne
      by_cases hxo : x = o
      · exact ⟨x, _, hu, by simp [Svc.setObj, hxo]; rfl⟩
      · exact ⟨x, n, hu, by simpa [Svc.setObj, hxo] using hx⟩

theorem afk_abides (uid : Nat) : Abides trust.pact may (afk uid) := by
  refine Abides.bind (getPlayerMail_abides said_steady uid true) (fun o => ?_)
  split
  · rename_i o
    refine Abides.serial (Vow.fix (fun s hs => Vow.noteAt (fun h => h.elim) (fun hn => Vow.modify (fun s' hs' => ?_))))
    have hn' := hn rfl
    simp only [Bool.or_eq_true, decide_eq_true_eq, Option.isNone_iff_eq_none] at hn'
    subst hs'
    refine ⟨?_, afk_inv hs hn'⟩
    have hoff : Later trust.later s' { s' with userOnline := s'.userOnline.filter (fun u => decide (u ≠ uid)) } :=
      Later.frame rfl rfl rfl rfl (trust.refl _)
    refine hoff.trans (V := trust.later) trust.trans ?_
    cases ho : s'.objs o with
    | none =>
      unfold Svc.alter
      rw [show ({ s' with userOnline := s'.userOnline.filter (fun u => decide (u ≠ uid)) } : Svc Log).objs o = none from ho]
      exact Later.refl trust.refl _
    | some m =>
      rw [alter_some (m := m) (by exact ho)]
      exact Later.setObj trust.refl _ _ _
  · exact Abides.pure ()

theorem release_abides (uid : Nat) : Abides trust.pact may (releasePlayerMail (settled uid) uid) := by
  refine releasePlayerMail_abides (F := fun s => (s.notes.player uid).phase = .idle)
    (Vow.note nofun (fun s hs hn => ⟨hs, of_decide_eq_true (hn rfl)⟩)) (fun s hord h hidle => ?_)
  have hmem : ∀ {u o}, (s.release uid).memList u = some o → u ≠ uid ∧ s.memList u = some o := by
    intro u o hu
    by_cases he : u = uid
    · simp [Svc.release, he] at hu
    · exact ⟨he, by simpa [Svc.release, he] using hu⟩
  refine ⟨h.shared.enter (fun u hu => .inl (List.mem_filter.1 hu).1), fun {u o m} hu ho => ?_, h.stored, fun {u} hne => ?_⟩
  · obtain ⟨hne, hu'⟩ := hmem hu
    obtain ⟨hcur, hon⟩ := h.object hu' ho
    exact ⟨hcur, fun hb => List.mem_filter.2 ⟨hon hb, by simpa using hne⟩⟩
  · have hu : u ≠ uid := by
      rintro rfl
      exact hne hidle
    obtain ⟨o, m, hm, ho⟩ := h.loaded hne
    exact ⟨o, m, by simpa [Svc.release, hu] using hm, ho⟩

end Loading

end Sharing
end Mail
end Sncpp
