import Sncpp.MailShareLoad
/-!
# MailShareRun — every player gets every shared mail he meets, once

A push visits the players online one by one, and waits for each.  Whom it has still to visit only gets fewer, so at
its end everybody who was online has passed the mail or is gone.
-/
namespace Sncpp
namespace Mail
namespace Sharing

open Co (Prog Sys Pact Vow Abides)
open Co.Prog (get modify note ask serial raise)

section Pushing

variable {may : Req → Reply → Bool} {bad : Svc Log → Prop}

theorem find_least {l : List Share} (hsorted : (l.map Share.id).Pairwise (· < ·)) {q : Share → Bool} {v : Share}
    (hf : l.find? q = some v) : ∀ w ∈ l, q w = true → v.id ≤ w.id := by
  intro w hw hq
  obtain ⟨-, as, bs, rfl, has⟩ := List.find?_eq_some_iff_append.1 hf
  rcases List.mem_append.1 hw with hw | hw
  · have hno := has w hw
    rw [hq] at hno
    cases hno
  · rcases List.mem_cons.1 hw with rfl | hw
    · exact Nat.le_refl _
    · rw [List.map_append, List.map_cons] at hsorted
      have hcons := (List.pairwise_append.1 hsorted).2.1
      exact Nat.le_of_lt ((List.pairwise_cons.1 hcons).1 _ (List.mem_map_of_mem hw))

/-- What a visited player needs no visit for: he is not online, or has passed the mail. -/
def Visited (uid mid : Nat) (s : Svc Log) : Prop :=
  uid ∉ s.userOnline ∨ ∀ v ∈ s.list, v.mid = mid → v.id ≤ (s.notes.player uid).mark

theorem push_due {s : Svc Log} (hs : trust.pact.inv s) {uid o : Nat} {h : Head}
    (hn : (decide (s.memList uid = some o) && decide ((s.notes.player uid).phase = .idle) &&
      decide (nextDue s uid o = some h.mid)) = true) :
    ∃ m, s.memList uid = some o ∧ s.objs o = some m ∧ trust.pact.inv (added s uid o h .idle m) ∧
      Visited uid h.mid (added s uid o h .idle m) := by
  simp only [Bool.and_eq_true, decide_eq_true_eq] at hn
  obtain ⟨⟨hm, hidle⟩, hnext⟩ := hn
  obtain ⟨m, ho, hfind⟩ := Option.bind_eq_some_iff.1 hnext
  obtain ⟨v, hf, hmid⟩ := Option.map_eq_some_iff.1 hfind
  have hv : v ∈ s.list := List.mem_of_find?_eq_some hf
  have hcur := (hs.2.object hm ho).1
  have hq := List.find?_some hf
  simp only [Bool.and_eq_true, decide_eq_true_eq] at hq
  have hshare : shareId s.list h.mid = some v.id := by
    rw [← hmid]
    exact shareId_of_mem hs.2.shared.mids hv
  have hpush := (hs.2.shared.fair uid).push hs.2.shared.nodupIds hs.2.shared.mids hs.2.shared.made hidle hv
    (hcur ▸ hq.1) hq.2
    (fun w hw hlt hle => find_least hs.2.shared.sorted hf w hw (by simp [hcur, hlt, hle]))
  have hself : (s.notes.add uid h.mid ((shareId s.list h.mid).getD 0) .idle).player uid =
      { s.notes.player uid with
        got := Function.update (s.notes.player uid).got v.mid ((s.notes.player uid).got v.mid + 1)
        mark := max (s.notes.player uid).mark v.id } := by
    rw [hshare]
    simp [Log.add, Log.set, hmid, hidle]
  refine ⟨m, hm, ho, added_inv hs hm ho (fun hb => ?_) (fun cur => ?_) ?_, .inr (fun w hw he => ?_)⟩
  · rw [hidle] at hb
    cases hb
  · rw [hidle]
    simp
  · rw [hself]
    exact hpush
  · have hwv : w = v := List.inj_on_of_nodup_map hs.2.shared.mids hw hv (he.trans hmid.symm)
    show w.id ≤ ((s.notes.add uid h.mid ((shareId s.list h.mid).getD 0) .idle).player uid).mark
    rw [hself, hwv]
    exact Nat.le_max_right _ _

/-- Whom a push has still to visit. -/
def Ahead (mid : Nat) (visit : List Nat) (s : Svc Log) : Prop :=
  s.notes.castleLv mid ≠ none ∧ ∀ u ∈ s.notes.pend mid, u ∈ visit

theorem ahead_stable {mid : Nat} {visit : List Nat} (s s' : Svc Log) (h : Ahead mid visit s) (hv : trust.pact.rely s s') :
    Ahead mid visit s' := by
  obtain ⟨hmade, hsub⟩ := hv.notes mid h.1
  exact ⟨hmade, fun u hu => h.2 u (hsub u hu)⟩

theorem push_vow (uid : Nat) (h : Head) (visit : List Nat) :
    Vow trust.pact may (fun s => trust.pact.inv s ∧ Ahead h.mid visit s) (push uid h)
      (fun _ s => (trust.pact.inv s ∧ Ahead h.mid visit s) ∧ Visited uid h.mid s)
      (fun s => (trust.pact.inv s ∧ Ahead h.mid visit s) ∧ Visited uid h.mid s) := by
  refine Vow.bind (M := fun _ s => trust.pact.inv s ∧ Ahead h.mid visit s) (Vow.xpcall
    ((getPlayerMail_abides said_steady uid false).stable ahead_stable) (fun _ _ hs => hs) (fun _ _ hs => hs)) (fun r => ?_)
  have hgone : ∀ {s : Svc Log}, (false || decide (uid ∉ s.userOnline)) = true → Visited uid h.mid s := by
    intro s hn
    exact .inl (by simpa using hn)
  cases r with
  | error e =>
    refine Vow.bind (M := fun _ s => (trust.pact.inv s ∧ Ahead h.mid visit s) ∧ Visited uid h.mid s)
      (Vow.note nofun (fun s hs hn => ⟨hs, hgone (hn rfl)⟩)) (fun _ => ?_)
    exact fun _ s hv hs => ⟨hv, hs⟩
  | ok o =>
    cases o with
    | none =>
      refine Vow.bind (M := fun _ s => (trust.pact.inv s ∧ Ahead h.mid visit s) ∧ Visited uid h.mid s)
        (Vow.note nofun (fun s hs hn => ⟨hs, hgone (hn rfl)⟩)) (fun _ => ?_)
      exact fun _ s hv hs => ⟨hv, hs⟩
    | some o =>
      refine Vow.bind (M := fun _ s => trust.pact.inv s ∧
        Ahead h.mid visit s) (Vow.note nofun (fun s hs _ => hs)) (fun _ => ?_)
      have hstable : ∀ s s' : Svc Log, Ahead h.mid visit s → trust.pact.rely s s' → Ahead h.mid visit s' := ahead_stable
      have hadd : Vow trust.pact may trust.pact.inv (addNewMail uid o h (fun s => decide (s.memList uid = some o) &&
          decide ((s.notes.player uid).phase = .idle) && decide (nextDue s uid o = some h.mid)) .idle)
          (fun b s => trust.pact.inv s ∧ (b = false → listed s.list h.mid = false) ∧ (b = true → Visited uid h.mid s))
          (fun _ => False) :=
        addNewMail_vow (fun _ _ h => h) (fun s hs hn => push_due hs hn)
      show Vow _ _ _ (serial (.player uid) (addNewMail uid o h _ .idle) >>= fun _ => pure ()) _ _
      refine Vow.bind (M := fun _ s => (trust.pact.inv s ∧ Ahead h.mid visit s) ∧ Visited uid h.mid s) ?_
        (fun _ => Vow.pure (fun _ hs => hs))
      refine Vow.serial ((hadd.stable hstable).conseq (fun _ hs => hs) (fun b s hs => ⟨⟨hs.1.1, hs.2⟩, ?_⟩) (fun _ hs =>
        hs.1.elim))
        (fun _ hs => hs.1) (fun s s' hs hi hv => ⟨hi, ahead_stable s s' hs.2 hv⟩)
      cases b with
      | true => exact hs.1.2.2 rfl
      | false => exact .inr (fun v hv he => absurd he (listed_false (hs.1.2.1 rfl) v hv))

theorem pushAll_vow (h : Head) : ∀ visit : List Nat,
    Vow trust.pact may (fun s => trust.pact.inv s ∧ Ahead h.mid visit s) (pushAll h visit)
      (fun _ s => trust.pact.inv s ∧ Ahead h.mid [] s) bad
  | [] => Vow.pure (fun _ hs => hs)
  | uid :: visit => by
    refine Vow.get (fun s hs => Vow.bind (M := fun _ s => (trust.pact.inv s ∧ Ahead h.mid (uid :: visit) s) ∧
      Visited uid h.mid s)
      (Vow.ite (fun _ => ?_) (fun hoff => Vow.pure (fun s' hs' => ?_))) (fun _ => ?_))
    · refine Vow.bind (Vow.xpcall ((push_vow uid h (uid :: visit)).weaken (fun s' hs' => hs' ▸ hs)) (fun _ _ hs => hs)
        (fun _ _ hs => hs)) (fun _ => Vow.pure (fun _ hs => hs))
    · rw [hs']
      exact ⟨hs, .inl hoff⟩
    refine Vow.bind (M := fun _ s => trust.pact.inv s ∧ Ahead h.mid visit s) (Vow.modify (fun s' hs' => ?_))
      (fun _ => pushAll_vow h visit)
    obtain ⟨⟨⟨hord, hsaid⟩, hmade, hahead⟩, hvisited⟩ := hs'
    have hpend : ∀ mid, (s'.notes.setPend h.mid (some ((s'.notes.pend h.mid).filter (fun u => decide (u ≠ uid))))).pend
      mid =
        if mid = h.mid then (s'.notes.pend h.mid).filter (fun u => decide (u ≠ uid)) else s'.notes.pend mid := by
      intro mid
      by_cases hm : mid = h.mid
      · subst hm
        simp [Log.pend, Log.setPend]
      · simp [Log.pend, Log.setPend, hm]
    refine ⟨Later.frame rfl rfl rfl rfl (fun mid hm => ⟨hm, fun u hu => ?_⟩),
      ⟨hord.frame rfl rfl rfl rfl (fun _ hb => hb), hsaid.shared.setPend (fun u hu _ hp hno v hv he => ?_), hsaid.object,
        hsaid.stored, hsaid.loaded⟩, hmade, fun u hu => ?_⟩
    · rw [hpend] at hu
      split at hu
      · rename_i he
        rw [he]
        exact (List.mem_filter.1 hu).1
      · exact hu
    · have huid : u = uid := by
        by_contra hne
        exact hno (List.mem_filter.2 ⟨hp, by simpa using hne⟩)
      rw [huid] at hu ⊢
      exact hvisited.resolve_left (fun h' => h' hu) v hv he
    · rw [hpend, if_pos rfl] at hu
      obtain ⟨hu', hne⟩ := List.mem_filter.1 hu
      exact (List.mem_cons.1 (hahead u hu')).resolve_left (by simpa using hne)

theorem create_frame (s : Svc Log) (b : Body) : (s.create b).memList = s.memList ∧ (s.create b).objs = s.objs ∧
    (s.create b).nextObj = s.nextObj ∧ (s.create b).stored = s.stored ∧ (s.create b).notes = s.notes := by
  obtain ⟨hmem, hobjs, hnext, hst, hnotes⟩ :=
    insert_frame ({ s with nextMid := s.nextMid + 1 }.setBody b.mid (some b)) b.mid b
  exact ⟨hmem, hobjs, hnext, hst, hnotes⟩

theorem create_shares (s : Svc Log) (b : Body) : (s.create b).list = s.list ∧ (s.create b).maxId = s.maxId ∧
    (s.create b).nextMid = s.nextMid + 1 ∧ (s.create b).userOnline = s.userOnline := by
  unfold Svc.create Svc.insert
  split <;> exact ⟨rfl, rfl, rfl, rfl⟩

theorem createMail_inv {s : Svc Log} (hs : trust.pact.inv s) (b : Body) (hb : b.mid = s.nextMid)
    (castleLv expiretime : Nat) :
    trust.pact.inv (createMail (({ s with notes := s.notes.send b.mid castleLv s.userOnline } : Svc Log).create b)
      b.mid castleLv
      expiretime) := by
  obtain ⟨hord, hsaid⟩ := hs
  obtain ⟨hmem, hobjs, hnext, hst, hnotes⟩ :=
    create_frame ({ s with notes := s.notes.send b.mid castleLv s.userOnline } : Svc Log) b
  obtain ⟨hlist, hmax, hmid, honline⟩ :=
    create_shares ({ s with notes := s.notes.send b.mid castleLv s.userOnline } : Svc Log) b
  have hshared := hsaid.shared.create castleLv expiretime
  rw [← hb] at hshared
  generalize ({ s with notes := s.notes.send b.mid castleLv s.userOnline } : Svc Log).create b = x at *
  refine ⟨hord.frame hmem hobjs hnext hst (fun u hbusy => ?_), ?_, fun {u o m} hu ho => ?_, fun {u} hi => ?_,
    fun {u} hne => ?_⟩
  · show trust.busy x.notes u = true
    rw [hnotes]
    exact hbusy
  · show Shared (if shareMailLimit < (x.list ++ _).length then (x.list ++ _).tail else x.list ++ _) (x.maxId + 1) x.nextMid
      x.userOnline x.notes
    rw [hlist, hmax, hmid, honline, hnotes]
    show Shared _ _ (s.nextMid + 1) _ _
    rw [← hb]
    split
    · exact hshared.shrink (List.tail_sublist _)
    · exact hshared
  · have hu' : x.memList u = some o := hu
    have ho' : x.objs o = some m := ho
    show m.curShareId = (x.notes.player u).mark ∧ (m.online = true → u ∈ x.userOnline)
    rw [hmem] at hu'
    rw [hobjs] at ho'
    rw [hnotes, honline]
    exact hsaid.object hu' ho'
  · have hi' : (x.notes.player u).phase = .idle := hi
    show storedMark x.stored u = (x.notes.player u).mark
    rw [hnotes] at hi' ⊢
    rw [hst]
    exact hsaid.stored hi'
  · have hne' : (x.notes.player u).phase ≠ .idle := hne
    show ∃ o m, x.memList u = some o ∧ x.objs o = some m
    rw [hnotes] at hne'
    rw [hmem, hobjs]
    exact hsaid.loaded hne'

theorem later_send {g : Log} {mid : Nat} (hfresh : g.castleLv mid = none) (castleLv : Nat) (online : List Nat) :
    g.later (g.send mid castleLv online) := by
  intro n hn
  have hne : n ≠ mid := by
    rintro rfl
    exact hn hfresh
  refine ⟨by simpa [Log.send, hne] using hn, fun u hu => ?_⟩
  simpa [Log.send, Log.setPend, Log.pend, hne] using hu

theorem later_of_eq {g g' : Log} (h : g' = g) : g.later g' := h ▸ trust.refl g

theorem sendShareMail_abides (x : Letter) (castleLv : Nat) (visit : List Nat) :
    Abides trust.pact may (sendShareMail x castleLv visit) := by
  refine Abides.bind (call_abides _) (fun r => Abides.ite (Abides.pure ()) ?_)
  refine Vow.get (fun s hs => Vow.noteAt nofun (fun hn => ?_))
  have hvisit : ∀ u ∈ s.userOnline, u ∈ visit := by simpa using hn rfl
  have hfresh : s.notes.castleLv s.nextMid = none := hs.2.shared.fresh (Nat.le_refl _)
  obtain ⟨hmem, hobjs, hnext, hst, hnotes⟩ :=
    create_frame ({ s with notes := s.notes.send s.nextMid castleLv s.userOnline } : Svc Log)
    ⟨s.nextMid, x.settype, x.cfgid, x.expiretime, x.extra, 1, []⟩
  refine Vow.modifyAt (Later.frame rfl rfl rfl rfl (later_send hfresh castleLv _)) (Vow.modifyAt ?_ ?_)
  · exact Later.frame hmem hobjs hnext hst (later_of_eq hnotes)
  have hinv := createMail_inv hs ⟨s.nextMid, x.settype, x.cfgid, x.expiretime, x.extra, 1, []⟩ rfl castleLv x.expiretime
  refine Vow.bind (M := fun _ s' => trust.pact.inv s' ∧ Ahead s.nextMid [] s')
    ((pushAll_vow _ visit).weaken (fun s' hs' => ?_)) (fun _ => Vow.modify (fun s' hs' => ?_))
  · rw [hs']
    refine ⟨hinv, ?_, fun u hu => hvisit u ?_⟩
    · show (({ s with notes := s.notes.send s.nextMid castleLv s.userOnline } : Svc Log).create _).notes.castleLv _ ≠ none
      rw [hnotes]
      simp [Log.send, Body.head]
    · have hu' : u ∈ (({ s with notes := s.notes.send s.nextMid castleLv s.userOnline } : Svc Log).create
        ⟨s.nextMid, x.settype, x.cfgid, x.expiretime, x.extra, 1, []⟩).notes.pend s.nextMid := hu
      rw [hnotes] at hu'
      simpa [Log.send, Log.setPend, Log.pend] using hu'
  · obtain ⟨⟨hord, hsaid⟩, hmade, hahead⟩ := hs'
    refine ⟨Later.frame rfl rfl rfl rfl (fun mid hm => ⟨hm, fun u hu => ?_⟩),
      hord.frame rfl rfl rfl rfl (fun _ hb => hb),
        hsaid.shared.setPend (fun u _ _ hp _ => absurd (hahead u hp) List.not_mem_nil),
      hsaid.object, hsaid.stored, hsaid.loaded⟩
    by_cases hm' : mid = s.nextMid
    · simp [Log.pend, Log.setPend, hm'] at hu
    · simpa [Log.pend, Log.setPend, hm'] using hu

end Pushing

section Runs

variable {may : Req → Reply → Bool}

theorem remove_forced_abides (mid : Nat) : Abides trust.pact may (remove mid none true : Co Log Unit) := by
  have hkeep : ∀ {f : Svc Log → Svc Log},
    (∀ s, ∃ bodies mailList, f s = { s with bodies := bodies, mailList := mailList }) →
      Abides trust.pact may (modify f : Co Log Unit) := by
    intro f hf
    refine Abides.modify (fun s hs => ?_)
    obtain ⟨bodies, mailList, he⟩ := hf s
    rw [he]
    exact ⟨⟨hs.1.frame rfl rfl rfl rfl (fun _ hb => hb),
      hs.2.frame rfl rfl rfl rfl rfl rfl hs.2.object (fun _ hu ho => ⟨_, _, hu, ho⟩)⟩,
        Later.frame rfl rfl rfl rfl (trust.refl _)⟩
  refine Vow.bind ((query_vow (T := trust) said_steady mid).conseq (fun _ h => h) (fun _ _ h => h.1) (fun _ h =>
    h)) (fun b => ?_)
  split
  · exact Abides.pure ()
  · exact Abides.bind (hkeep (fun s => ⟨_, _, rfl⟩)) (fun _ => hkeep (fun s => ⟨_, _, rfl⟩))

theorem expireFrom_abides (time : Nat) : ∀ n : Nat, Abides trust.pact may (expireFrom time n)
  | 0 => Abides.pure ()
  | n + 1 => by
    refine Abides.peek (fun s => Abides.bind ?_ (fun _ => expireFrom_abides time n))
    split
    · exact Abides.pure ()
    · refine Abides.ite (Abides.bind (Abides.modify (fun s hs => ?_)) (fun _ => remove_forced_abides _)) (Abides.pure ())
      exact ⟨⟨hs.1.frame rfl rfl rfl rfl (fun _ hb => hb), hs.2.shared.shrink (List.eraseIdx_sublist _ _),
        hs.2.object, hs.2.stored,
        hs.2.loaded⟩, Later.frame rfl rfl rfl rfl (trust.refl _)⟩

theorem levelUp_abides (uid n : Nat) : Abides trust.pact may (levelUp uid n) := by
  refine Vow.fix (fun s hs => Vow.noteAt nofun (fun hn => Vow.modify (fun s' hs' => ?_)))
  subst hs'
  have hn' := hn rfl
  simp only [List.all_eq_true, Bool.or_eq_true, decide_eq_true_eq] at hn'
  refine ⟨Later.frame rfl rfl rfl rfl (later_set _ _ _), hs.1.frame rfl rfl rfl rfl (fun u hb => ?_), ?_⟩
  · by_cases hu : u = uid
    · subst hu
      simpa [trust, Log.set] using hb
    · simpa [trust, Log.set, hu] using hb
  · refine hs.2.ledger (hs.2.shared.set ((hs.2.shared.fair uid).levelUp (fun v hv hm hc => ?_)) (Nat.le_refl _)
      (hs.2.shared.behind uid) .inl) rfl (fun hi => hs.2.stored hi) (fun hne => hs.2.loaded hne)
    have := hn' v hv
    omega

theorem op_abides : ∀ o : Op, Abides trust.pact shareSys.may o.prog
  | .sendShareMail x castleLv visit => sendShareMail_abides x castleLv visit
  | .checkin uid time => by
    refine Abides.bind (getPlayerMail_abides said_steady uid false) (fun o => ?_)
    split
    · exact Abides.serial (checkinIn_abides uid _ time)
    · exact Abides.pure ()
  | .afk uid => afk_abides uid
  | .login uid => login_abides said_steady uid
  | .logout uid => logout_abides said_steady (release_abides uid)
  | .release uid => release_abides uid
  | .expireShares time => Abides.serial (Abides.peek (fun s => expireFrom_abides time s.list.length))
  | .runFork mid uid => runFork_abides (T := trust) said_steady
      (fun h => Said.frame h rfl rfl rfl rfl rfl rfl (Said.object h) (fun _ hu ho => ⟨_, _, hu, ho⟩)) mid uid
  | .releaseBody _ => Abides.modify (fun s hs => ⟨⟨hs.1.frame rfl rfl rfl rfl (fun _ hb => hb), said_steady.uncache hs.2⟩,
      Later.frame rfl rfl rfl rfl (trust.refl _)⟩)
  | .expireSq uid => delSq_abides uid
  | .levelUp uid n => levelUp_abides uid n

theorem keeping : Co.Keeping trust.pact shareSys where
  prog o _ hs := (op_abides o).final hs
  env e := e.elim

end Runs

theorem opening_inv {stored : Nat → Option Data} {l : List Share} {maxId nextMid : Nat}
    (h : Sensible stored l maxId nextMid)
    (bodies : Nat → Option Body) (level : Nat → Nat) : trust.pact.inv (opening stored bodies l maxId nextMid level) := by
  have hlv : ∀ v ∈ l, (l.find? (fun w => decide (w.mid = v.mid))).map Share.castleLv = some v.castleLv := by
    intro v hv
    cases hf : l.find? (fun w => decide (w.mid = v.mid)) with
    | none =>
      have hno := List.find?_eq_none.1 hf v hv
      simp at hno
    | some w =>
      have hmid : w.mid = v.mid := by simpa using List.find?_some hf
      rw [List.inj_on_of_nodup_map h.mids (List.mem_of_find?_eq_some hf) hv hmid]
      rfl
  refine ⟨⟨nofun, fun _ => rfl, nofun, nofun⟩,
    ⟨h.sorted, h.ids, h.mids, hlv, fun {mid} hm => ?_, fun uid => ?_, h.behind, nofun⟩,
    nofun, fun _ => rfl, fun hne => absurd rfl hne⟩
  · show (l.find? (fun v => decide (v.mid = mid))).map Share.castleLv = none
    rw [Option.map_eq_none_iff, List.find?_eq_none]
    intro v hv he
    have := h.drawn v hv
    have hvm : v.mid = mid := by simpa using he
    have hm' : nextMid ≤ mid := hm
    omega
  · have hgot : ∀ mid, ((opening stored bodies l maxId nextMid level).notes.player uid).got mid =
        if l.any (fun v => decide (v.mid = mid) && decide (v.id ≤ storedMark stored uid) && decide (v.castleLv ≤
          level uid)) then 1
        else 0 := fun _ => rfl
    have hsome : ∀ {mid}, ((opening stored bodies l maxId nextMid level).notes.player uid).got mid ≠ 0 →
        ∃ v ∈ l, v.mid = mid ∧ v.id ≤ storedMark stored uid ∧ v.castleLv ≤ level uid := by
      intro mid hg
      rw [hgot] at hg
      split at hg
      · rename_i hany
        obtain ⟨v, hv, hp⟩ := List.any_eq_true.1 hany
        simp only [Bool.and_eq_true, decide_eq_true_eq] at hp
        exact ⟨v, hv, hp.1.1, hp.1.2, hp.2⟩
      · exact absurd rfl hg
    refine ⟨fun mid => ?_, fun {mid} hg => ?_, fun v hv hg => ?_, fun v hv hm hc => .inl ?_, .nil, nofun, nofun⟩
    · rw [hgot]
      split <;> omega
    · obtain ⟨v, hv, rfl, -, hc⟩ := hsome hg
      exact ⟨_, hlv v hv, hc⟩
    · obtain ⟨w, hw, hmid, hid, -⟩ := hsome hg
      rw [← List.inj_on_of_nodup_map h.mids hw hv hmid]
      exact hid
    · rw [hgot, if_pos]
      refine List.any_eq_true.2 ⟨v, hv, ?_⟩
      simp only [Bool.and_eq_true, decide_eq_true_eq]
      exact ⟨⟨trivial, hm⟩, hc⟩

/-- **Every player gets every shared mail he meets, once**, in every run in which a mail is pushed to those who meet it,
have not passed it and lack no earlier one, a load of level 1 asks for what the player's level asks for, those online are
all visited, listed mails have bodies, and no two operations on one player's mail overlap. -/
theorem shared_of_run (stored : Nat → Option Data) (bodies : Nat → Option Body) (l : List Share) (maxId nextMid : Nat)
    (level : Nat → Nat) (h : Sensible stored l maxId nextMid) (es : List (Co.Event Op Reply Empty))
    {w : Co.World (Co.Desk (Svc Log) Line) (Line × Nat) Req Reply}
    (hrun : shareSys.tabled.run (.init (.new (opening stored bodies l maxId nextMid level))) es = some w)
    (hclean : w.clean = true) : Delivered w.st.st :=
  (Co.inv_of_run_tabled keeping (opening_inv h bodies level) hrun hclean).2.delivered

/-- A service without mails; every castle is of level `n`. -/
def empty (n : Nat) : Svc Log := opening (fun _ => none) (fun _ => none) [] 0 1 (fun _ => n)

def letter : Letter := ⟨.system, 5, some [(1, 5)], 0⟩

theorem empty_sensible : Sensible (fun _ => none) [] 0 1 :=
  ⟨.nil, nofun, .nil, nofun, fun _ => Nat.le_refl 0⟩

theorem shared_of_run_twice : ∃ es w, shareSys.tabled.run (.init (.new (empty 5))) es = some w ∧ w.clean = true ∧
    (7 ∈ w.st.st.userOnline ∧ (w.st.st.notes.player 7).got 1 = 1 ∧ (w.st.st.notes.player 7).got 2 = 1) ∧
      Delivered w.st.st := by
  -- the first mail is pushed to player 7, the second one loaded when he is back
  obtain ⟨w, hrun, hw⟩ : ∃ w ∈ shareSys.tabled.run (.init (.new (empty 5)))
      [.start (.checkin 7 0), .reply 0 .yes, .reply 0 .yes, .reply 0 .no, .start (.sendShareMail letter 0 [7]),
        .reply 1 .yes, .start (.afk 7), .start (.release 7), .start (.sendShareMail letter 1 []), .reply 4 .yes,
        .start (.checkin 7 0), .reply 5 .yes, .reply 5 .yes, .reply 5 .yes],
      w.clean = true ∧ 7 ∈ w.st.st.userOnline ∧ (w.st.st.notes.player 7).got 1 = 1 ∧ (w.st.st.notes.player 7).got 2 = 1 := by
    decide +kernel
  exact ⟨_, w, hrun, hw.1, hw.2, shared_of_run _ _ _ _ _ _ empty_sensible _ hrun hw.1⟩

/-- **A push does not look at the castle level**: a player of level 1 gets a mail for level 10. -/
theorem pushed_to_low_level : ∃ es w, shareSys.tabled.run (.init (.new (empty 1))) es = some w ∧ w.quiet = true ∧
    ¬Delivered w.st.st := by
  obtain ⟨w, hrun, hquiet, hgot, hlv, hlevel⟩ : ∃ w ∈ shareSys.tabled.run (.init (.new (empty 1)))
      [.start (.checkin 7 0), .reply 0 .yes, .reply 0 .yes, .reply 0 .no, .start (.sendShareMail letter 10 [7]),
        .reply 1 .yes],
      w.quiet = true ∧ (w.st.st.notes.player 7).got 1 = 1 ∧ w.st.st.notes.castleLv 1 = some 10 ∧
        (w.st.st.notes.player 7).level = 1 := by
    decide +kernel
  refine ⟨_, w, hrun, hquiet, fun hd => ?_⟩
  obtain ⟨c, hc, hle⟩ := hd.met 7 1 (by omega)
  rw [hlv] at hc
  cases hc
  omega

end Sharing
end Mail
end Sncpp
