import Sncpp.MailKeep
import Sncpp.MailRecount
/-!
# MailClaim — attachments are handed out once (`reqGetMailExtra`, `reqGetMailExtraOneKey`)

The mail service marks a mail as claimed, saves that and answers with the attachment; the player's agent puts the
attachment into the backpack when the answer comes in.  `reqGetMailExtraOneKey` removes the mails that have nothing to
claim and raises before it answers.  An answer on its way is in `flights`; `handed` is what the backpacks took.
-/
namespace Sncpp
namespace Mail
namespace Claim

open Co (Prog Sys Pact Vow Abides)
open Co.Prog (get modify note ask serial)

abbrev Items : Type := List (Nat × Nat)

structure Flight where
  uid : Nat
  mid : Nat
  extra : Items
deriving DecidableEq

structure Log where
  flights : List Flight
  handed : Nat → Nat → Items

def Log.answer (g : Log) (uid mid : Nat) (extra : Items) : Log :=
  if extra = [] then g else { g with flights := ⟨uid, mid, extra⟩ :: g.flights }

/-- `playerMail:reqGetMailExtra`.  Recorded: the mail is still unclaimed when its body was looked up. -/
def takeIn (uid o : Nat) (st : SetType) (mid : Nat) : Co Log Unit := do
  let s ← get
  match (s.objs o).bind (fun m => m.claimable st mid) with
  | none => pure ()
  | some r =>
    let b ← query mid
    note true (fun s => decide ((s.objs o).bind (fun m => m.claimable st mid) = some r))
    match b.map Body.extra with
    | some none => .err "bad argument #1 to 'next'"
    | some (some extra) =>
      write uid o (fun m => (m.takeExtra st mid r (some (some extra))).2)
      modify (fun s => { s with notes := s.notes.answer uid mid extra })
    | none =>
      write uid o (fun m => (m.takeExtra (E := Items) st mid r none).2)
      forkRemovals [mid] uid

def reqGetMailExtra (uid : Nat) (st : SetType) (mid : Nat) : Co Log Unit := do
  let o ← getPlayerMail uid false
  match o with
  | some o => serial (.player uid) (takeIn uid o st mid)
  | none => pure ()

/-- The cells of a set type that have nothing to claim, found while the bodies of the others are looked up. -/
def collect (o : Nat) (st : SetType) : List Nat → Co Log (List Nat)
  | [] => pure []
  | mid :: mids => do
    let s ← get
    match (s.objs o).bind (fun m => (m.midRef st mid).map (fun r => (r, (m.cells r).unclaimed))) with
    | none => collect o st mids
    | some (r, unclaimed) =>
      if unclaimed then
        let _ ← query mid
        collect o st mids
      else
        let rs ← collect o st mids
        pure (r :: rs)

def collectAll (o : Nat) : List (SetType × List Nat) → Co Log (List Nat)
  | [] => pure []
  | v :: vs => do
    let rs ← collect o v.1 v.2
    let rs' ← collectAll o vs
    pure (rs ++ rs')

def removeAll (m : PlayerMail) (rs : List Nat) : PlayerMail :=
  rs.foldl (fun m r => (m.removeMail (m.cells r).mid true (some r)).2) m

/-- `playerMail:reqGetMailExtraOneKey`; `visits` is the order in which the indexes are gone through. -/
def oneKeyIn (uid o : Nat) (visits : List (SetType × List Nat)) : Co Log Unit := do
  let rs ← collectAll o visits
  (if rs = [] then pure ()
    else do
      write uid o (fun m => removeAll m rs)
      modify (fun s => { s with forks := (match s.objs o with
        | some m => rs.map (fun r => ((m.cells r).mid, uid))
        | none => []) ++ s.forks }) : Co Log Unit)
  .err "bad argument #1 to 'next'"

def reqGetMailExtraOneKey (uid : Nat) (visits : List (SetType × List Nat)) : Co Log Unit := do
  let o ← getPlayerMail uid false
  match o with
  | some o => serial (.player uid) (oneKeyIn uid o visits)
  | none => pure ()

def Log.hand (g : Log) (f : Flight) (taken : Bool) : Log where
  flights := g.flights.erase f
  handed uid mid :=
    if taken && decide (uid = f.uid ∧ mid = f.mid) then g.handed uid mid ++ f.extra else g.handed uid mid

/-- The answer comes in, and `sendReward` gives it to the backpack, which takes it or not.  Recorded: it is taken. -/
def arrive (f : Flight) (taken : Bool) : Co Log Unit := do
  let s ← get
  if f ∈ s.notes.flights then
    note true (fun _ => taken)
    modify (fun s => { s with notes := s.notes.hand f taken })
  else pure ()

/-- The agent went before the answer came in.  Recorded: that it did not. -/
def lose (f : Flight) : Co Log Unit := do
  let s ← get
  if f ∈ s.notes.flights then
    note true (fun _ => false)
    modify (fun s => { s with notes := s.notes.hand f false })
  else pure ()

inductive Op where
  | reqGetMailExtra (uid : Nat) (st : SetType) (mid : Nat)
  | reqGetMailExtraOneKey (uid : Nat) (visits : List (SetType × List Nat))
  | arrive (f : Flight) (taken : Bool)
  | lose (f : Flight)
  | login (uid : Nat)
  | logout (uid : Nat)
  | release (uid : Nat)
  | runFork (mid uid : Nat)
  | releaseBody (mid : Nat)
  | expireSq (uid : Nat)

def Op.prog : Op → Co Log Unit
  | .reqGetMailExtra uid st mid => Claim.reqGetMailExtra uid st mid
  | .reqGetMailExtraOneKey uid visits => Claim.reqGetMailExtraOneKey uid visits
  | .arrive f taken => Claim.arrive f taken
  | .lose f => Claim.lose f
  | .login uid => Mail.login uid
  | .logout uid => Mail.logout (pure ()) uid
  | .release uid => releasePlayerMail (pure ()) uid
  | .runFork mid uid => Mail.runFork mid uid
  | .releaseBody mid => modify (fun s => s.uncache mid)
  | .expireSq uid => delSq uid

def claimSys : Sys (Svc Log) Line Req Reply Op Empty := ⟨Op.prog, fun _ _ => true, fun e => e.elim⟩

def claimed (d : Data) (mid : Nat) : Bool :=
  SetType.all.any (fun st => (d.listOf st).any (fun r =>
    decide ((d.cells r).mid = mid) && (d.cells r).hasExtra && (d.cells r).isGetExtra))

def extraOf (bodies : Nat → Option Body) (mid : Nat) : Items := ((bodies mid).bind Body.extra).getD []

/-- The service at its start: nothing is loaded, and what is stored as claimed has been handed out. -/
def opening (stored : Nat → Option Data) (bodies : Nat → Option Body) : Svc Log where
  memList _ := none
  objs _ := none
  nextObj := 0
  userOnline := []
  stored := stored
  mailList _ := none
  bodies := bodies
  nextMid := 0
  maxId := 0
  list := []
  forks := []
  notes := ⟨[], fun uid mid =>
    match stored uid with
    | some d => if claimed d mid then extraOf bodies mid else []
    | none => []⟩

/-- **An attachment is granted once**: what was handed out for a mail of a player is nothing or its attachment, and all of
it if the mail is stored as claimed and no answer is on its way. -/
structure GrantedOnce (bodies : Nat → Option Body) (s : Svc Log) : Prop where
  atMost : ∀ uid mid, s.notes.handed uid mid = [] ∨ s.notes.handed uid mid = extraOf bodies mid
  whole : ∀ uid mid d, s.stored uid = some d → claimed d mid = true →
    (∀ f ∈ s.notes.flights, ¬(f.uid = uid ∧ f.mid = mid)) → s.notes.handed uid mid = extraOf bodies mid

structure Indexed (m : PlayerMail) : Prop where
  mem : ∀ {st mid r}, m.midRef st mid = some r → r ∈ m.listOf st ∧ (m.cells r).mid = mid

theorem claimed_iff {d : Data} {mid : Nat} : claimed d mid = true ↔ ∃ st r, r ∈ d.listOf st ∧ (d.cells r).mid = mid ∧
    (d.cells r).hasExtra = true ∧ (d.cells r).isGetExtra = true := by
  unfold claimed
  simp only [List.any_eq_true, Bool.and_eq_true, decide_eq_true_eq]
  constructor
  · rintro ⟨st, -, r, hr, ⟨hmid, hx⟩, hg⟩
    exact ⟨st, r, hr, hmid, hx, hg⟩
  · rintro ⟨st, r, hr, hmid, hx, hg⟩
    refine ⟨st, ?_, r, hr, ⟨hmid, hx⟩, hg⟩
    cases st <;> decide

/-- Some cells are not listed any more, and the listed ones are as they were. -/
structure Thinner (d d' : Data) : Prop where
  shape : Shape d'
  mem : ∀ {st r}, r ∈ d'.listOf st → r ∈ d.listOf st
  cells : ∀ {st r}, r ∈ d'.listOf st → d'.cells r = d.cells r

theorem Thinner.refl {d : Data} (h : Shape d) : Thinner d d := ⟨h, fun hr => hr, fun _ => rfl⟩

theorem Thinner.trans {d d' d'' : Data} (h : Thinner d d') (h' : Thinner d' d'') : Thinner d d'' where
  shape := h'.shape
  mem hr := h.mem (h'.mem hr)
  cells hr := (h'.cells hr).trans (h.cells (h'.mem hr))

theorem removeMail_of_none {m : PlayerMail} {r : Nat} (h : m.list (m.cells r).settype = none) :
    m.removeMail (m.cells r).mid true (some r) = (false, m) := by
  simp [PlayerMail.removeMail, h]

theorem removeMail_of_some {m : PlayerMail} {r : Nat} {l : List Nat} (h : m.list (m.cells r).settype = some l) :
    m.removeMail (m.cells r).mid true (some r) = (true, (m.setList (m.cells r).settype
      (l.eraseP (fun x => decide ((m.cells x).mid = (m.cells r).mid)))).removeRef r) := by
  simp [PlayerMail.removeMail, h]

theorem removeMail_listOf (m : PlayerMail) (r : Nat) (st : SetType) :
    (m.removeMail (m.cells r).mid true (some r)).2.listOf st =
      if st = (m.cells r).settype then (m.listOf st).eraseP (fun x => decide ((m.cells x).mid = (m.cells r).mid))
      else m.listOf st := by
  cases hl : m.list (m.cells r).settype with
  | none =>
    rw [removeMail_of_none hl]
    split
    · rename_i hst
      simp [Data.listOf, hst, hl]
    · rfl
  | some l =>
    rw [removeMail_of_some hl, removeRef_toData]
    by_cases hst : st = (m.cells r).settype
    · rw [if_pos hst, hst]
      simp [PlayerMail.setList, Data.listOf, hl]
    · simp [PlayerMail.setList, Data.listOf, hst]

theorem removeMail_cells (m : PlayerMail) (r : Nat) : (m.removeMail (m.cells r).mid true (some r)).2.cells = m.cells := by
  cases hl : m.list (m.cells r).settype with
  | none => rw [removeMail_of_none hl]
  | some l =>
    rw [removeMail_of_some hl, removeRef_toData]
    rfl

theorem removeMail_next (m : PlayerMail) (r : Nat) : (m.removeMail (m.cells r).mid true (some r)).2.next = m.next := by
  cases hl : m.list (m.cells r).settype with
  | none => rw [removeMail_of_none hl]
  | some l =>
    rw [removeMail_of_some hl, removeRef_toData]
    rfl

theorem removeMail_midRef {m : PlayerMail} {r mid x : Nat} {st : SetType}
    (h : (m.removeMail (m.cells r).mid true (some r)).2.midRef st mid = some x) :
    m.midRef st mid = some x ∧ (st = (m.cells r).settype → (m.list st).isSome → mid ≠ (m.cells r).mid) := by
  cases hl : m.list (m.cells r).settype with
  | none =>
    rw [removeMail_of_none hl] at h
    refine ⟨h, fun hst hsome => ?_⟩
    rw [hst, hl] at hsome
    cases hsome
  | some l =>
    rw [removeMail_of_some hl] at h
    unfold PlayerMail.removeRef at h
    have hcell : (m.setList (m.cells r).settype
        (l.eraseP (fun x => decide ((m.cells x).mid = (m.cells r).mid)))).cells r = m.cells r := rfl
    simp only [hcell] at h
    split at h
    · by_cases hst : st = (m.cells r).settype
      · by_cases hmid : mid = (m.cells r).mid
        · subst hst
          subst hmid
          simp [PlayerMail.setCover, PlayerMail.setRef] at h
        · subst hst
          exact ⟨by simpa [PlayerMail.setCover, PlayerMail.setRef, PlayerMail.setList, hmid] using h, fun _ _ => hmid⟩
      · exact ⟨by simpa [PlayerMail.setCover, PlayerMail.setRef, PlayerMail.setList, hst] using h, fun he => absurd he hst⟩
    · rename_i hnone
      refine ⟨h, fun hst _ hmid => ?_⟩
      subst hst
      subst hmid
      have hnone' : m.midRef (m.cells r).settype (m.cells r).mid = none := hnone
      rw [show m.midRef (m.cells r).settype (m.cells r).mid = some x from h] at hnone'
      cases hnone'

theorem removeMail_thinner {m : PlayerMail} (h : Shape m.toData) (r : Nat) :
    Thinner m.toData (m.removeMail (m.cells r).mid true (some r)).2.toData := by
  have hsub : ∀ st, ((m.removeMail (m.cells r).mid true (some r)).2.listOf st).Sublist (m.listOf st) := by
    intro st
    rw [removeMail_listOf]
    split
    · exact List.eraseP_sublist
    · exact List.Sublist.refl _
  refine ⟨⟨fun st => (h.nodup st).sublist (hsub st), fun st x hx => ?_, fun st st' x x' hx hx' he => ?_⟩,
    fun hx => (hsub _).subset hx, fun _ => by rw [removeMail_cells]⟩
  · rw [removeMail_cells, removeMail_next]
    exact h.own st x ((hsub st).subset hx)
  · rw [removeMail_cells] at he
    exact h.distinct st st' x x' ((hsub st).subset hx) ((hsub st').subset hx') he

theorem removeMail_indexed {m : PlayerMail} (h : Indexed m) (r : Nat) :
    Indexed (m.removeMail (m.cells r).mid true (some r)).2 := by
  refine ⟨fun {st mid x} hx => ?_⟩
  obtain ⟨hold, hne⟩ := removeMail_midRef hx
  obtain ⟨hmem, hmid⟩ := h.mem hold
  rw [removeMail_cells, removeMail_listOf]
  refine ⟨?_, hmid⟩
  split
  · rename_i hst
    refine (List.mem_eraseP_of_neg (fun he => ?_)).2 hmem
    have hsome : (m.list st).isSome := by
      cases hl : m.list st with
      | none => simp [Data.listOf, hl] at hmem
      | some l => rfl
    exact hne hst hsome (hmid.symm.trans (of_decide_eq_true he))
  · exact hmem

theorem removeAll_spec : ∀ (rs : List Nat) (m : PlayerMail), Shape m.toData → Indexed m →
    Thinner m.toData (removeAll m rs).toData ∧ Indexed (removeAll m rs)
  | [], m, h, hi => ⟨Thinner.refl h, hi⟩
  | r :: rs, m, h, hi => by
    have hthin := removeMail_thinner h r
    obtain ⟨hrest, hi'⟩ := removeAll_spec rs _ hthin.shape (removeMail_indexed hi r)
    exact ⟨hthin.trans hrest, hi'⟩

theorem mark_self (m : PlayerMail) (st : SetType) (r : Nat) :
    (m.mark st r).cells r = { m.cells r with isView := true, isGetExtra := true } := by
  have hv := view_cell m st r
  unfold PlayerMail.mark
  simp only [PlayerMail.setCover, PlayerMail.setCell, Function.update_self]
  rw [hv]

theorem mark_midRef (m : PlayerMail) (st : SetType) (r : Nat) : (m.mark st r).midRef = m.midRef := by
  unfold PlayerMail.mark PlayerMail.view
  split <;> rfl

theorem mark_next (m : PlayerMail) (st : SetType) (r : Nat) : (m.mark st r).next = m.next := by
  unfold PlayerMail.mark PlayerMail.view
  split <;> rfl

theorem mark_key (m : PlayerMail) (st : SetType) (r x : Nat) : ((m.mark st r).cells x).mid = (m.cells x).mid ∧
    ((m.mark st r).cells x).settype = (m.cells x).settype ∧ ((m.mark st r).cells x).hasExtra = (m.cells x).hasExtra := by
  by_cases hx : x = r
  · subst hx
    rw [mark_self]
    exact ⟨rfl, rfl, rfl⟩
  · rw [mark_cells hx]
    exact ⟨rfl, rfl, rfl⟩

theorem mark_listOf (m : PlayerMail) (st : SetType) (r : Nat) (st' : SetType) :
    (m.mark st r).listOf st' = m.listOf st' := by
  unfold Data.listOf
  rw [mark_list]

theorem mark_shape {m : PlayerMail} (h : Shape m.toData) (st : SetType) (r : Nat) : Shape (m.mark st r).toData where
  nodup st' := by
    rw [mark_listOf]
    exact h.nodup st'
  own st' x hx := by
    rw [mark_listOf] at hx
    rw [(mark_key m st r x).2.1, mark_next]
    exact h.own st' x hx
  distinct st' st'' x x' hx hx' he := by
    rw [mark_listOf] at hx hx'
    rw [(mark_key m st r x).1, (mark_key m st r x').1] at he
    exact h.distinct st' st'' x x' hx hx' he

theorem mark_indexed {m : PlayerMail} (h : Indexed m) (st : SetType) (r : Nat) : Indexed (m.mark st r) := by
  refine ⟨fun {st' mid x} hx => ?_⟩
  rw [mark_midRef] at hx
  rw [mark_listOf, (mark_key m st r x).1]
  exact h.mem hx

theorem mark_thinner {m : PlayerMail} (h : Shape m.toData) (st : SetType) {r : Nat} (hr : ∀ st', r ∉ m.listOf st') :
    Thinner m.toData (m.mark st r).toData := by
  refine ⟨mark_shape h st r, fun hx => ?_, fun hx => ?_⟩
  · rw [mark_listOf] at hx
    exact hx
  · rw [mark_listOf] at hx
    refine mark_cells ?_
    rintro rfl
    exact hr _ hx

theorem takeExtra_none {m : PlayerMail} (h : Shape m.toData) (hi : Indexed m) {st : SetType} {mid r : Nat}
    (hr : m.midRef st mid = some r) : Thinner m.toData (m.takeExtra (E := Items) st mid r none).2.toData ∧
      Indexed (m.takeExtra (E := Items) st mid r none).2 := by
  obtain ⟨hmem, rfl⟩ := hi.mem hr
  have hthin := removeMail_thinner h r
  have hst : (m.cells r).settype = st := (h.own st r hmem).1
  have hgone : ∀ st', r ∉ (m.removeMail (m.cells r).mid true (some r)).2.listOf st' := by
    intro st' hx
    have hold : r ∈ m.listOf st' := hthin.mem hx
    have hst' : (m.cells r).settype = st' := (h.own st' r hold).1
    rw [removeMail_listOf, if_pos hst'.symm,
      eraseP_mid m.cells hold (fun x hx' he => h.distinct st' st' x r hx' hold he)] at hx
    exact (h.nodup st').not_mem_erase hx
  exact ⟨hthin.trans (mark_thinner hthin.shape st hgone), mark_indexed (removeMail_indexed hi r) st r⟩

def Log.due (g : Log) (uid mid : Nat) : Nat := g.flights.countP (fun f => decide (f.uid = uid) && decide (f.mid = mid))

/-- **What holds between any two moves**: an unclaimed mail was not touched, a claimed one is on its way or was handed
out. -/
structure Said (bodies : Nat → Option Body) (s : Svc Log) : Prop where
  same : s.bodies = bodies
  cached : ∀ {mid b}, s.mailList mid = some b → bodies mid = some b
  shape : ∀ {uid d}, s.stored uid = some d → Shape d
  indexed : ∀ {uid o m}, s.memList uid = some o → s.objs o = some m → Indexed m
  carried : ∀ f ∈ s.notes.flights, f.extra = extraOf bodies f.mid
  once : ∀ uid mid, (s.notes.due uid mid = 0 ∧
    (s.notes.handed uid mid = [] ∨ s.notes.handed uid mid = extraOf bodies mid)) ∨
    (s.notes.due uid mid = 1 ∧ s.notes.handed uid mid = [])
  untouched : ∀ {uid d st r}, s.stored uid = some d → r ∈ d.listOf st → (d.cells r).unclaimed = true →
    s.notes.due uid (d.cells r).mid = 0 ∧ s.notes.handed uid (d.cells r).mid = []
  paid : ∀ {uid d mid}, s.stored uid = some d → claimed d mid = true →
    s.notes.due uid mid = 1 ∨ s.notes.handed uid mid = extraOf bodies mid

variable {bodies : Nat → Option Body} {s : Svc Log} {uid o : Nat}

theorem Said.grantedOnce (h : Said bodies s) : GrantedOnce bodies s where
  atMost uid mid := by
    rcases h.once uid mid with ⟨-, hh⟩ | ⟨-, hh⟩
    · exact hh
    · exact .inl hh
  whole uid mid d hd hc hno := by
    refine (h.paid hd hc).resolve_left (fun hdue => ?_)
    have hpos : 0 < s.notes.due uid mid := by omega
    obtain ⟨f, hf, he⟩ := List.countP_pos_iff.1 hpos
    exact hno f hf (by simpa using he)

theorem Said.frame {s' : Svc Log} (h : Said bodies s) (hstored : s'.stored = s.stored) (hnotes : s'.notes = s.notes)
    (hbodies : s'.bodies = s.bodies) (hcache : ∀ {mid b}, s'.mailList mid = some b → bodies mid = some b)
    (hindexed : ∀ {uid o m}, s'.memList uid = some o → s'.objs o = some m → Indexed m) : Said bodies s' where
  same := hbodies.trans h.same
  cached := hcache
  shape hd := h.shape (hstored ▸ hd)
  indexed := hindexed
  carried := by
    rw [hnotes]
    exact h.carried
  once uid mid := by
    rw [hnotes]
    exact h.once uid mid
  untouched hd hr hu := by
    rw [hnotes]
    exact h.untouched (hstored ▸ hd) hr hu
  paid hd hc := by
    rw [hnotes]
    exact h.paid (hstored ▸ hd) hc

/-- **A player's mails get fewer**: what is listed was listed before, and is as it was. -/
theorem Said.thin (h : Said bodies s) {m : PlayerMail} (hshape : Shape m.toData) (hi : Indexed m)
    (hold : ∀ {st r}, r ∈ m.listOf st → ∃ d, s.stored uid = some d ∧ r ∈ d.listOf st ∧ m.cells r = d.cells r) :
    Said bodies ((s.setObj o m).save uid m.toData) where
  same := h.same
  cached := h.cached
  shape {u e} he := by
    by_cases hu : u = uid
    · have he' : m.toData = e := by simpa [Svc.save, hu] using he
      rw [← he']
      exact hshape
    · exact h.shape (by simpa [Svc.save, Svc.setObj, hu] using he)
  indexed {u x n} hu hx := by
    by_cases hxo : x = o
    · have hm : m = n := by simpa [Svc.save, Svc.setObj, hxo] using hx
      rw [← hm]
      exact hi
    · exact h.indexed hu (by simpa [Svc.save, Svc.setObj, hxo] using hx)
  carried := h.carried
  once := h.once
  untouched {u e st r} he hr hun := by
    by_cases hu : u = uid
    · have he' : m.toData = e := by simpa [Svc.save, hu] using he
      subst hu
      subst he'
      obtain ⟨d, hd, hr', hc⟩ := hold hr
      rw [hc] at hun ⊢
      exact h.untouched hd hr' hun
    · exact h.untouched (by simpa [Svc.save, Svc.setObj, hu] using he) hr hun
  paid {u e mid} he hc := by
    by_cases hu : u = uid
    · have he' : m.toData = e := by simpa [Svc.save, hu] using he
      subst hu
      subst he'
      obtain ⟨st, r, hr, hmid, hx, hg⟩ := claimed_iff.1 hc
      obtain ⟨d, hd, hr', hcell⟩ := hold hr
      rw [hcell] at hmid hx hg
      exact h.paid hd (claimed_iff.2 ⟨st, r, hr', hmid, hx, hg⟩)
    · exact h.paid (by simpa [Svc.save, Svc.setObj, hu] using he) hc

theorem due_answer (g : Log) (uid mid : Nat) (extra : Items) (u n : Nat) : (g.answer uid mid extra).due u n =
    g.due u n + if extra ≠ [] ∧ uid = u ∧ mid = n then 1 else 0 := by
  unfold Log.answer
  split
  · rename_i h
    simp [h]
  · rename_i h
    unfold Log.due
    rw [List.countP_cons]
    simp [h]

theorem handed_answer (g : Log) (uid mid : Nat) (extra : Items) : (g.answer uid mid extra).handed = g.handed := by
  unfold Log.answer
  split <;> rfl

theorem Said.claim (h : Said bodies s) {m : PlayerMail} (hd : s.stored uid = some m.toData) (hi : Indexed m)
    {st : SetType} {mid r : Nat} (hc : m.claimable st mid = some r) {extra : Items} (hx : extra = extraOf bodies mid) :
    Said bodies { (s.setObj o (m.mark st r)).save uid (m.mark st r).toData with
      notes := s.notes.answer uid mid extra } := by
  obtain ⟨href, hun⟩ := claimable_some hc
  obtain ⟨hmem, rfl⟩ := hi.mem href
  have hshape := h.shape hd
  obtain ⟨hdue, hnil⟩ := h.untouched hd hmem hun
  -- another mail, or another player's
  have hother : ∀ u n, ¬(uid = u ∧ (m.cells r).mid = n) →
      (s.notes.answer uid (m.cells r).mid extra).due u n = s.notes.due u n := by
    intro u n hne
    rw [due_answer, if_neg (fun he => hne he.2), Nat.add_zero]
  have hself : (s.notes.answer uid (m.cells r).mid extra).due uid (m.cells r).mid = if extra ≠ [] then 1 else 0 := by
    rw [due_answer, hdue]
    simp
  refine ⟨h.same, h.cached, fun {u e} he => ?_, fun {u x n} hu hx' => ?_, fun f hf => ?_, fun u n => ?_,
    fun {u e st' x} he hx' hun' => ?_, fun {u e n} he hc' => ?_⟩
  · by_cases hu : u = uid
    · have he' : (m.mark st r).toData = e := by simpa [Svc.save, hu] using he
      rw [← he']
      exact mark_shape hshape st r
    · exact h.shape (by simpa [Svc.save, Svc.setObj, hu] using he)
  · by_cases hxo : x = o
    · have hm : m.mark st r = n := by simpa [Svc.save, Svc.setObj, hxo] using hx'
      rw [← hm]
      exact mark_indexed hi st r
    · exact h.indexed hu (by simpa [Svc.save, Svc.setObj, hxo] using hx')
  · have hf' : f ∈ (s.notes.answer uid (m.cells r).mid extra).flights := hf
    unfold Log.answer at hf'
    split at hf'
    · exact h.carried f hf'
    · rcases List.mem_cons.1 hf' with rfl | hf'
      · exact hx
      · exact h.carried f hf'
  · show (_ ∧ ((s.notes.answer uid (m.cells r).mid extra).handed u n = [] ∨ _)) ∨ _
    rw [handed_answer]
    by_cases hne : uid = u ∧ (m.cells r).mid = n
    · obtain ⟨rfl, rfl⟩ := hne
      rw [hself]
      split
      · exact .inr ⟨rfl, hnil⟩
      · exact .inl ⟨rfl, .inl hnil⟩
    · rw [hother u n hne]
      exact h.once u n
  · show (s.notes.answer uid (m.cells r).mid extra).due u _ = 0 ∧ (s.notes.answer uid (m.cells r).mid extra).handed u _ = []
    rw [handed_answer]
    by_cases hu : u = uid
    · have he' : (m.mark st r).toData = e := by simpa [Svc.save, hu] using he
      subst hu
      subst he'
      rw [mark_listOf] at hx'
      have hne : x ≠ r := by
        rintro rfl
        rw [mark_self] at hun'
        simp [Cell.unclaimed] at hun'
      rw [mark_cells hne] at hun' ⊢
      rw [hother u _ (fun hc => hne (hshape.distinct st' st x r hx' hmem hc.2.symm))]
      exact h.untouched hd hx' hun'
    · rw [hother u _ (fun hc => hu hc.1.symm)]
      exact h.untouched (by simpa [Svc.save, Svc.setObj, hu] using he) hx' hun'
  · show (s.notes.answer uid (m.cells r).mid extra).due u n = 1 ∨ (s.notes.answer uid (m.cells r).mid extra).handed u n = _
    rw [handed_answer]
    by_cases hne : uid = u ∧ (m.cells r).mid = n
    · obtain ⟨rfl, rfl⟩ := hne
      rw [hself]
      by_cases hnil' : extra = []
      · right
        rw [hnil, ← hx, hnil']
      · left
        rw [if_pos hnil']
    · rw [hother u n hne]
      by_cases hu : u = uid
      · have he' : (m.mark st r).toData = e := by simpa [Svc.save, hu] using he
        subst hu
        subst he'
        obtain ⟨st', x, hx', hmid, hex, hget⟩ := claimed_iff.1 hc'
        rw [mark_listOf] at hx'
        have hxr : x ≠ r := by
          rintro rfl
          rw [mark_self] at hmid
          exact hne ⟨rfl, hmid⟩
        rw [mark_cells hxr] at hmid hex hget
        exact h.paid hd (claimed_iff.2 ⟨st', x, hx', hmid, hex, hget⟩)
      · exact h.paid (by simpa [Svc.save, Svc.setObj, hu] using he) hc'

theorem Said.arrive (h : Said bodies s) {f : Flight} (hf : f ∈ s.notes.flights) :
    Said bodies { s with notes := s.notes.hand f true } := by
  have hdue : ∀ u n, ¬(f.uid = u ∧ f.mid = n) → (s.notes.hand f true).due u n = s.notes.due u n := by
    intro u n hne
    have hperm := (List.perm_cons_erase hf).countP_eq (fun g => decide (g.uid = u) && decide (g.mid = n))
    rw [List.countP_cons, if_neg (by simpa using hne)] at hperm
    exact hperm.symm
  have hhand : ∀ u n, ¬(f.uid = u ∧ f.mid = n) → (s.notes.hand f true).handed u n = s.notes.handed u n := by
    intro u n hne
    have hno : ¬(u = f.uid ∧ n = f.mid) := fun he => hne ⟨he.1.symm, he.2.symm⟩
    simp [Log.hand, hno]
  -- the mail was on its way, so nothing was handed out for it yet
  have hpos : 0 < s.notes.due f.uid f.mid := List.countP_pos_iff.2 ⟨f, hf, by simp⟩
  obtain ⟨hone, hnil⟩ := (h.once f.uid f.mid).resolve_left (fun hz => by omega)
  have hzero : (s.notes.hand f true).due f.uid f.mid = 0 := by
    have hperm := (List.perm_cons_erase hf).countP_eq (fun g => decide (g.uid = f.uid) && decide (g.mid = f.mid))
    rw [List.countP_cons, if_pos (by simp)] at hperm
    exact Nat.succ.inj (hperm.symm.trans hone)
  have hall : (s.notes.hand f true).handed f.uid f.mid = extraOf bodies f.mid := by
    simp [Log.hand, hnil, h.carried f hf]
  refine ⟨h.same, h.cached, h.shape, h.indexed, fun g hg => h.carried g (List.mem_of_mem_erase hg), fun u n => ?_,
    fun {u d st r} hd hr hun => ?_, fun {u d n} hd hc => ?_⟩
  · show ((s.notes.hand f true).due u n = 0 ∧ ((s.notes.hand f true).handed u n = [] ∨ _)) ∨ _
    by_cases he : f.uid = u ∧ f.mid = n
    · obtain ⟨rfl, rfl⟩ := he
      exact .inl ⟨hzero, .inr hall⟩
    · rw [hdue u n he, hhand u n he]
      exact h.once u n
  · have hold := h.untouched hd hr hun
    have he : ¬(f.uid = u ∧ f.mid = (d.cells r).mid) := by
      rintro ⟨rfl, hm⟩
      rw [← hm] at hold
      omega
    show (s.notes.hand f true).due u _ = 0 ∧ (s.notes.hand f true).handed u _ = []
    rw [hdue u _ he, hhand u _ he]
    exact hold
  · show (s.notes.hand f true).due u n = 1 ∨ (s.notes.hand f true).handed u n = _
    by_cases he : f.uid = u ∧ f.mid = n
    · obtain ⟨rfl, rfl⟩ := he
      exact .inr hall
    · rw [hdue u n he, hhand u n he]
      exact h.paid hd hc

theorem said_steady : Steady (fun _ _ => false) (fun mid b => bodies mid = some b) (Said bodies) where
  newMail {s uid} hord h hno := by
    refine h.frame rfl rfl rfl h.cached (fun {u x m} hu hx => ?_)
    by_cases he : u = uid
    · have hx' : some s.nextObj = some x := by simpa [Svc.newMail, he] using hu
      cases hx'
      rw [show (s.newMail uid).objs s.nextObj = none from hord.unmade (Nat.le_refl _)] at hx
      cases hx
    · exact h.indexed (by simpa [Svc.newMail, he] using hu) hx
  load {s uid o d} hord h hm hno hd := by
    refine h.frame rfl rfl rfl h.cached (fun {u x m} hu hx => ?_)
    by_cases hxo : x = o
    · have hm' : PlayerMail.init d = m := by simpa [Svc.setObj, hxo] using hx
      rw [← hm']
      exact ⟨fun hr => (init_good (h.shape hd)).mem_of_ref hr⟩
    · exact h.indexed hu (by simpa [Svc.setObj, hxo] using hx)
  stale {s o m} hord h hno := by
    refine h.frame rfl rfl rfl h.cached (fun {u x n} hu hx => ?_)
    have hxo : x ≠ o := by
      rintro rfl
      exact hno u hu
    exact h.indexed hu (by simpa [Svc.setObj, hxo] using hx)
  fill {s uid o} hord h hm hno hst := by
    have hdata := init_toData .default
    have hgood : Good (PlayerMail.init .default) := init_good ⟨fun _ => .nil, fun _ _ hr => absurd hr List.not_mem_nil,
      fun _ _ _ _ hr => absurd hr List.not_mem_nil⟩
    have hsaid : Said bodies ((s.setObj o (.init .default)).save uid (PlayerMail.init .default).toData) := by
      refine h.thin hgood.shape ⟨fun hr => hgood.mem_of_ref hr⟩ (fun hr => ?_)
      rw [hdata] at hr
      cases hr
    rw [hdata] at hsaid
    exact hsaid
  stored h hb := by
    rw [← h.same]
    exact hb
  cached h hb := h.cached hb
  insert {s mid b} h hb := by
    obtain ⟨hmem, hobjs, -, hst, hnotes⟩ := insert_frame s mid b
    refine h.frame hst hnotes ?_ (fun {n c} hc => ?_) (fun hu hx => h.indexed (hmem ▸ hu) (hobjs ▸ hx))
    · unfold Svc.insert
      split <;> rfl
    · unfold Svc.insert at hc
      split at hc
      · exact h.cached hc
      · by_cases hn : n = mid
        · have hbc : b = c := by simpa [hn] using hc
          rw [hn, ← hbc]
          exact hb
        · exact h.cached (by simpa [hn] using hc)
  uncache {s mid} h := by
    refine h.frame rfl rfl rfl (fun {n c} hc => ?_) h.indexed
    by_cases hn : n = mid
    · simp [Svc.uncache, hn] at hc
    · exact h.cached (by simpa [Svc.uncache, hn] using hc)

def trust (bodies : Nat → Option Body) : Trust Log :=
  ⟨fun _ _ => false, Said bodies, fun _ _ => True, fun _ => trivial, fun _ _ => trivial⟩

section Programs

variable {may : Req → Reply → Bool}

theorem modify_keeps {f : Svc Log → Svc Log} (hf : ∀ s, (f s).memList = s.memList ∧ (f s).objs = s.objs ∧
    (f s).nextObj = s.nextObj ∧ (f s).stored = s.stored) (hQ : ∀ s, Said bodies s → Said bodies (f s)) :
    Abides (trust bodies).pact may (modify f : Co Log Unit) := by
  refine Abides.modify (fun s hs => ?_)
  obtain ⟨hmem, hobjs, hnext, hst⟩ := hf s
  exact ⟨⟨hs.1.frame hmem hobjs hnext hst (fun _ hb => hb), hQ s hs.2⟩, Later.frame hmem hobjs hnext hst trivial⟩

theorem forks_keeps (l : Svc Log → List (Nat × Nat)) :
    Abides (trust bodies).pact may (modify (fun s => { s with forks := l s }) : Co Log Unit) :=
  modify_keeps (fun _ => ⟨rfl, rfl, rfl, rfl⟩) (fun _ h => h.frame rfl rfl rfl h.cached h.indexed)

theorem write_thin {uid o : Nat} {f : PlayerMail → PlayerMail} {k : Co Log Unit} {s : Svc Log} {m : PlayerMail}
    (hs : (trust bodies).pact.inv s) (ho : s.objs o = some m)
    (hf : Shape m.toData → Indexed m → Thinner m.toData (f m).toData ∧ Indexed (f m))
    (hk : Abides (trust bodies).pact may k) :
    Vow (trust bodies).pact may (fun s' => s' = s) (write uid o f >>= fun _ => k) (fun _ => (trust bodies).pact.inv)
      (trust bodies).pact.inv := by
  refine write_at (T := trust bodies) (fun hm => hk.at ?_)
  have hd := hs.1.saved hm ho rfl
  obtain ⟨ht, hi⟩ := hf (hs.2.shape hd) (hs.2.indexed hm ho)
  rw [change_some ho]
  exact ⟨hs.1.write hm, hs.2.thin ht.shape hi (fun hr => ⟨_, hd, ht.mem hr, ht.cells hr⟩)⟩

theorem takeIn_abides (uid o : Nat) (st : SetType) (mid : Nat) : Abides (trust bodies).pact may (takeIn uid o st mid) := by
  refine Vow.get (fun s₀ h₀ => ?_)
  split
  · exact (Abides.pure ()).at h₀
  rename_i r hr₀
  refine Vow.bind ((query_vow said_steady mid).weaken (fun _ hs => hs ▸ h₀)) (fun b => Vow.fix (fun s hs => ?_))
  refine Vow.noteAt nofun (fun hn => ?_)
  obtain ⟨m, ho, hc⟩ := Option.bind_eq_some_iff.1 (of_decide_eq_true (hn rfl))
  obtain ⟨href, hun⟩ := claimable_some hc
  split
  · exact (Abides.err _).at hs.1
  · rename_i extra hb
    obtain ⟨x, hx, hex⟩ := Option.map_eq_some_iff.1 hb
    have hext : extra = extraOf bodies mid := by
      simp [extraOf, hs.2 x hx, hex]
    refine write_at (T := trust bodies) (fun hm => Vow.modify (fun s' hs' => ?_))
    have hd := hs.1.1.saved hm ho rfl
    have hclaim := hs.1.2.claim (o := o) hd (hs.1.2.indexed hm ho) hc hext
    rw [change_some ho] at hs'
    subst hs'
    have hord := hs.1.1.write (m := m.mark st r) hm
    exact ⟨Later.frame rfl rfl rfl rfl trivial, hord.frame rfl rfl rfl rfl (fun _ hb => hb), hclaim⟩
  · exact write_thin hs.1 ho (fun hshape hi => takeExtra_none hshape hi href) (forks_keeps _)

theorem query_abides (mid : Nat) : Abides (trust bodies).pact may (query mid : Co Log (Option Body)) :=
  (query_vow (T := trust bodies) said_steady mid).conseq (fun _ h => h) (fun _ _ h => h.1) (fun _ h => h)

theorem collect_abides (o : Nat) (st : SetType) : ∀ mids : List Nat, Abides (trust bodies).pact may (collect o st mids)
  | [] => Abides.pure _
  | mid :: mids => by
    refine Abides.peek (fun s => ?_)
    split
    · exact collect_abides o st mids
    · refine Abides.ite ?_ ?_
      · exact Abides.bind (query_abides mid) (fun _ => collect_abides o st mids)
      · exact Abides.bind (collect_abides o st mids) (fun _ => Abides.pure _)

theorem collectAll_abides (o : Nat) :
    ∀ visits : List (SetType × List Nat), Abides (trust bodies).pact may (collectAll o visits)
  | [] => Abides.pure _
  | v :: vs =>
    Abides.bind (collect_abides o v.1 v.2) (fun _ => Abides.bind (collectAll_abides o vs) (fun _ => Abides.pure _))

theorem oneKeyIn_abides (uid o : Nat) (visits : List (SetType × List Nat)) :
    Abides (trust bodies).pact may (oneKeyIn uid o visits) := by
  refine Abides.bind (collectAll_abides o visits) (fun rs =>
    Abides.bind (Abides.ite (Abides.pure ()) ?_) (fun _ => Abides.err _))
  refine Vow.fix (fun s hs => ?_)
  cases ho : s.objs o with
  | some m => exact write_thin hs ho (fun hshape hi => removeAll_spec rs m hshape hi) (forks_keeps _)
  | none =>
    have hsame : s.change uid o (fun m => removeAll m rs) = s := by
      unfold Svc.change
      rw [ho]
    refine write_at (T := trust bodies) (fun _ => ?_)
    rw [hsame]
    exact (forks_keeps _).at hs

theorem arrive_abides (f : Flight) (taken : Bool) : Abides (trust bodies).pact may (arrive f taken) := by
  refine Vow.get (fun s hs => Vow.ite (fun hf => Vow.noteAt nofun (fun ht => ?_)) (fun _ => (Abides.pure ()).at hs))
  have htaken : taken = true := ht rfl
  subst htaken
  refine Vow.modify (fun s' hs' => ?_)
  subst hs'
  exact ⟨Later.frame rfl rfl rfl rfl trivial, hs.1.frame rfl rfl rfl rfl (fun _ hb => hb), hs.2.arrive hf⟩

theorem lose_abides (f : Flight) : Abides (trust bodies).pact may (lose f) := by
  refine Vow.get (fun s hs => Vow.ite (fun _ => Vow.noteAt nofun (fun ht => ?_)) (fun _ => (Abides.pure ()).at hs))
  cases ht rfl

theorem release_abides (uid : Nat) : Abides (trust bodies).pact may (releasePlayerMail (pure ()) uid) := by
  refine releasePlayerMail_abides (F := fun _ => True) (Vow.pure (fun _ hs => ⟨hs, trivial⟩)) (fun s _ h _ => ?_)
  refine h.frame rfl rfl rfl h.cached (fun {u x m} hu hx => ?_)
  by_cases he : u = uid
  · simp [Svc.release, he] at hu
  · exact h.indexed (by simpa [Svc.release, he] using hu) hx

end Programs

theorem op_abides : ∀ o : Op, Abides (trust bodies).pact claimSys.may o.prog
  | .reqGetMailExtra uid st mid => by
    refine Abides.bind (getPlayerMail_abides said_steady uid false) (fun o => ?_)
    split
    · exact Abides.serial (takeIn_abides uid _ st mid)
    · exact Abides.pure ()
  | .reqGetMailExtraOneKey uid visits => by
    refine Abides.bind (getPlayerMail_abides said_steady uid false) (fun o => ?_)
    split
    · exact Abides.serial (oneKeyIn_abides uid _ visits)
    · exact Abides.pure ()
  | .arrive f taken => arrive_abides f taken
  | .lose f => lose_abides f
  | .login uid => login_abides said_steady uid
  | .logout uid => logout_abides said_steady (release_abides uid)
  | .release uid => release_abides uid
  | .runFork mid uid => runFork_abides (T := trust bodies) said_steady
      (fun h => Said.frame h rfl rfl rfl (Said.cached h) (Said.indexed h)) mid uid
  | .releaseBody _ => modify_keeps (fun _ => ⟨rfl, rfl, rfl, rfl⟩) (fun _ h => said_steady.uncache h)
  | .expireSq uid => delSq_abides uid

theorem keeping : Co.Keeping (trust bodies).pact claimSys where
  prog o _ hs := (op_abides o).final hs
  env e := e.elim

theorem opening_handed {stored : Nat → Option Data} {uid : Nat} {d : Data} (hd : stored uid = some d) (mid : Nat) :
    (opening stored bodies).notes.handed uid mid = if claimed d mid then extraOf bodies mid else [] := by
  simp [opening, hd]

theorem opening_inv {stored : Nat → Option Data} (hshape : ∀ uid d, stored uid = some d → Shape d) :
    (trust bodies).pact.inv (opening stored bodies) := by
  refine ⟨⟨nofun, fun _ => rfl, nofun, nofun⟩, rfl, nofun, hshape _ _, nofun, nofun, fun uid mid => .inl ⟨rfl, ?_⟩,
    fun {uid d st r} hd hr hun => ⟨rfl, ?_⟩, fun {uid d mid} hd hc => .inr ?_⟩
  · cases hd : stored uid with
    | none =>
      left
      simp [opening, hd]
    | some d =>
      rw [opening_handed hd]
      split
      · exact .inr rfl
      · exact .inl rfl
  · rw [opening_handed (show stored uid = some d from hd), if_neg]
    intro hc
    obtain ⟨st', x, hx, hmid, -, hget⟩ := claimed_iff.1 hc
    -- the claimed cell of the mail would be this one
    have hxr : x = r := (hshape uid d hd).distinct st' st x r hx hr hmid
    rw [hxr] at hget
    simp [Cell.unclaimed, hget] at hun
  · rw [opening_handed (show stored uid = some d from hd), if_pos hc]

/-- **Attachments are granted once in every run** in which claims are marked, and mails removed, in the player's current
object, a claimed mail is still unclaimed when its body was looked up, loads find what is stored and are not overtaken, and
every answer comes in and is taken. -/
theorem grantedOnce_of_run (stored : Nat → Option Data) (bodies : Nat → Option Body)
    (hshape : ∀ uid d, stored uid = some d → Shape d) (es : List (Co.Event Op Reply Empty))
    {w : Co.World (Co.Desk (Svc Log) Line) (Line × Nat) Req Reply}
    (hrun : claimSys.tabled.run (.init (.new (opening stored bodies))) es = some w) (hclean : w.clean = true) :
    GrantedOnce bodies w.st.st :=
  (Co.inv_of_run_tabled keeping (opening_inv hshape) hrun hclean).2.grantedOnce

def onlySeven (uid : Nat) : Option Data := if uid = 7 then some oneMail else none

def fiveOfOne (mid : Nat) : Option Body := if mid = 31 then some ⟨31, .system, 5, 0, some [(1, 5)], 0, [7]⟩ else none

theorem onlySeven_shape (uid : Nat) (d : Data) (h : onlySeven uid = some d) : Shape d := by
  unfold onlySeven at h
  split at h
  · rw [← Option.some.inj h]
    exact oneMail_shape
  · cases h

theorem grantedOnce_of_run_again : ∃ es w, claimSys.tabled.run (.init (.new (opening onlySeven fiveOfOne))) es = some w ∧
    w.clean = true ∧ w.st.st.notes.handed 7 31 = [(1, 5)] ∧ GrantedOnce fiveOfOne w.st.st := by
  -- the mail is claimed, the player's mail released, and the claim repeated on what is loaded again
  obtain ⟨w, hrun, hw⟩ : ∃ w ∈ claimSys.tabled.run (.init (.new (opening onlySeven fiveOfOne)))
      [.start (.reqGetMailExtra 7 .system 31), .reply 0 .yes, .reply 0 .yes, .reply 0 .yes, .reply 0 .yes,
        .start (.arrive ⟨7, 31, [(1, 5)]⟩ true), .start (.release 7), .start (.reqGetMailExtra 7 .system 31),
        .reply 3 .yes, .reply 3 .yes, .reply 3 .yes],
      w.clean = true ∧ w.st.st.notes.handed 7 31 = [(1, 5)] := by
    decide +kernel
  exact ⟨_, w, hrun, hw.1, hw.2, grantedOnce_of_run _ _ onlySeven_shape _ hrun hw.1⟩

/-- **A full backpack loses the attachment**: the mail is stored as claimed, and nothing was handed out. -/
theorem full_backpack_loses : ∃ es w, claimSys.tabled.run (.init (.new (opening onlySeven fiveOfOne))) es = some w ∧
    w.quiet = true ∧ w.st.st.notes.flights = [] ∧ ¬GrantedOnce fiveOfOne w.st.st := by
  obtain ⟨w, hrun, hq, hfl, hst, hno⟩ : ∃ w ∈ claimSys.tabled.run (.init (.new (opening onlySeven fiveOfOne)))
      [.start (.reqGetMailExtra 7 .system 31), .reply 0 .yes, .reply 0 .yes, .reply 0 .yes, .reply 0 .yes,
        .start (.arrive ⟨7, 31, [(1, 5)]⟩ false)],
      w.quiet = true ∧ w.st.st.notes.flights = [] ∧ (w.st.st.stored 7).any (fun d => claimed d 31) = true ∧
        w.st.st.notes.handed 7 31 = [] := by
    decide +kernel
  refine ⟨_, w, hrun, hq, hfl, fun hg => ?_⟩
  obtain ⟨d, hd, hc⟩ := (Option.any_eq_true _ _).1 hst
  have hall := hg.whole 7 31 d hd hc (by simp [hfl])
  rw [hno] at hall
  cases hall

end Claim
end Mail
end Sncpp
