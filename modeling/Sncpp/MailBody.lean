import Sncpp.MailKeep
/-!
# MailBody — bodies and the lists that hold their mails (`sendMail`, `mailData:remove`)

A mail that is sent to some players is one body in the store and one cell in the list of each of them.  A cell that
goes leaves it to a fork to tell the body, which is to go with the last of them.  `isshared` is a number and counts as
true, so `mailData:remove` takes every mail for a shared one: a body goes only by force, when nobody could be given
the mail.
-/
namespace Sncpp
namespace Mail
namespace Bodies

open Co (Prog Sys Pact Vow Abides)
open Co.Prog (get modify note ask serial)

inductive Stage where
  | none
  | sending
  | closed
deriving DecidableEq

/-- What is recorded of the mails; `ok` is the variable of `sendMail`: somebody was given the mail. -/
structure Log where
  stage : Nat → Stage
  ok : Nat → Bool

def Log.setStage (g : Log) (mid : Nat) (v : Stage) : Log := { g with stage := Function.update g.stage mid v }

def Log.setOk (g : Log) (mid : Nat) : Log := { g with ok := Function.update g.ok mid true }

def mids (d : Data) : List Nat := SetType.all.flatMap (fun st => (d.listOf st).map (fun r => (d.cells r).mid))

def holds (s : Svc Log) (uid mid : Nat) : Bool := (s.stored uid).any (fun d => decide (mid ∈ mids d))

def elsewhere (s : Svc Log) (uid mid : Nat) : Bool :=
  match s.bodies mid with
  | none => true
  | some b => decide (b.isshared ≠ 0) || b.receivers.any (fun u => decide (u ≠ uid) && holds s u mid)

def keepsCopies (s : Svc Log) (uid : Nat) (d d' : Data) : Bool :=
  (mids d).all (fun mid => decide (mid ∈ mids d') || elsewhere s uid mid)

/-- Mails of a player are removed: `gone` has them.  Recorded: no last copy goes. -/
def cut (uid o : Nat) (m : PlayerMail) (f : PlayerMail → PlayerMail) (gone : List Nat) : Co Log Unit :=
  if gone = [] then pure ()
  else do
    note true (fun s => keepsCopies s uid m.toData (f m).toData)
    write uid o f
    forkRemovals gone uid

def delIn (uid o : Nat) (st : SetType) (ms : List Nat) : Co Log Unit := do
  let s ← get
  match s.objs o with
  | none => pure ()
  | some m => cut uid o m (fun m => (m.reqDelMail st ms).2) (m.reqDelMail st ms).1

def expireIn (uid o time : Nat) : Co Log Unit := do
  let s ← get
  match s.objs o with
  | none => .err "attempt to index a nil value (field 'data')"
  | some m => cut uid o m (fun m => m.updateExpireTimer time) ((m.expired time).map (fun r => (m.cells r).mid))

def request (uid : Nat) (p : Nat → Co Log Unit) : Co Log Unit := do
  let o ← getPlayerMail uid false
  match o with
  | some o => serial (.player uid) (p o)
  | none => pure ()

def reqDelMail (uid : Nat) (st : SetType) (ms : List Nat) : Co Log Unit := request uid (fun o => delIn uid o st ms)

/-- `mailCenter:reqDelMailOneKey`; `visit` is the order in which the index is gone through. -/
def reqDelMailOneKey (uid : Nat) (st : SetType) (visit : List Nat) :
    Co Log Unit := request uid (fun o => delIn uid o st visit)

def checkin (uid time : Nat) : Co Log Unit := request uid (fun o => expireIn uid o time)

/-- `playerMail:addNewMail`.  Recorded: the mail is being sent, and no last copy goes to make room. -/
def addNewMail (uid o : Nat) (h : Head) : Co Log Bool := do
  let b ← query h.mid
  if b.isNone then pure false
  else
    let s ← get
    match s.objs o with
    | none => .err "attempt to index a nil value (field 'data')"
    | some m =>
      note true (fun s => decide (s.notes.stage h.mid = .sending) &&
        keepsCopies s uid m.toData (m.addNewMail h none true).2.toData)
      write uid o (fun m => (m.addNewMail h none true).2)
      forkRemovals (m.evicted h) uid
      pure true

def give (uid : Nat) (h : Head) : Co Log Bool := do
  let o ← getPlayerMail uid false
  match o with
  | some o => serial (.player uid) (addNewMail uid o h)
  | none => pure false

def sendAll (h : Head) : List Nat → Co Log Unit
  | [] => pure ()
  | uid :: receivers => do
    let r ← (give uid h).xpcall
    (match r with
      | .ok true => modify (fun s => { s with notes := s.notes.setOk h.mid })
      | _ => pure () : Co Log Unit)
    sendAll h receivers

structure Letter where
  settype : SetType
  cfgid : Nat
  extra : Option (List (Nat × Nat))
  expiretime : Nat

def sendMail (x : Letter) (receivers : List Nat) : Co Log Unit :=
  if receivers = [] ∨ 0 ∈ receivers ∨ x.cfgid = 0 then pure ()
  else do
    let r ← call .nextid
    if r = .no then pure ()
    else
      let s ← get
      let b : Body := ⟨s.nextMid, x.settype, x.cfgid, x.expiretime, x.extra, 0, receivers⟩
      modify (fun s => { s.create b with notes := s.notes.setStage b.mid .sending })
      sendAll b.head receivers
      let s ← get
      modify (fun s => { s with notes := s.notes.setStage b.mid .closed })
      if s.notes.ok b.mid then pure () else remove b.mid none true

inductive Op where
  | sendMail (x : Letter) (receivers : List Nat)
  | reqDelMail (uid : Nat) (st : SetType) (ms : List Nat)
  | reqDelMailOneKey (uid : Nat) (st : SetType) (visit : List Nat)
  | checkin (uid time : Nat)
  | login (uid : Nat)
  | logout (uid : Nat)
  | release (uid : Nat)
  | runFork (mid uid : Nat)
  | releaseBody (mid : Nat)
  | expireSq (uid : Nat)

def Op.prog : Op → Co Log Unit
  | .sendMail x receivers => Bodies.sendMail x receivers
  | .reqDelMail uid st ms => Bodies.reqDelMail uid st ms
  | .reqDelMailOneKey uid st visit => Bodies.reqDelMailOneKey uid st visit
  | .checkin uid time => Bodies.checkin uid time
  | .login uid => Mail.login uid
  | .logout uid => Mail.logout (pure ()) uid
  | .release uid => releasePlayerMail (pure ()) uid
  | .runFork mid uid => Mail.runFork mid uid
  | .releaseBody mid => modify (fun s => s.uncache mid)
  | .expireSq uid => delSq uid

def bodySys : Sys (Svc Log) Line Req Reply Op Empty := ⟨Op.prog, fun _ _ => true, fun e => e.elim⟩

/-- Listed mails have bodies, bodies of mails that are not shared are listed, and ids are drawn in order. -/
structure Sensible (stored : Nat → Option Data) (bodies : Nat → Option Body) (nextMid : Nat) : Prop where
  backed : ∀ {uid d mid}, stored uid = some d → mid ∈ mids d → bodies mid ≠ none
  held : ∀ {mid b}, bodies mid = some b → b.isshared = 0 → ∃ uid d, stored uid = some d ∧ mid ∈ mids d
  drawn : ∀ {mid}, nextMid ≤ mid → bodies mid = none

/-- The service at its start: nothing is loaded, and the mails there are have been given to somebody. -/
def opening (stored : Nat → Option Data) (bodies : Nat → Option Body) (nextMid : Nat) : Svc Log where
  memList _ := none
  objs _ := none
  nextObj := 0
  userOnline := []
  stored := stored
  mailList _ := none
  bodies := bodies
  nextMid := nextMid
  maxId := 0
  list := []
  forks := []
  notes := ⟨fun _ => .none, fun mid => decide (mid < nextMid)⟩

/-- **Bodies live as long as they are referenced**: a listed mail has a body, a mail that was given to somebody and is not
shared has one only while it is listed, and the bodies of the shared mails are all there. -/
structure Referenced (bodies : Nat → Option Body) (s : Svc Log) : Prop where
  stays : ∀ uid d mid, s.stored uid = some d → mid ∈ mids d → s.bodies mid ≠ none
  goes : ∀ mid b, s.bodies mid = some b → b.isshared = 0 → s.notes.ok mid = true →
    ∃ uid d, s.stored uid = some d ∧ mid ∈ mids d
  shared : ∀ mid b, bodies mid = some b → b.isshared ≠ 0 → s.bodies mid = some b

theorem mem_mids {d : Data} {mid : Nat} : mid ∈ mids d ↔ ∃ st r, r ∈ d.listOf st ∧ (d.cells r).mid = mid := by
  unfold mids
  simp only [List.mem_flatMap, List.mem_map]
  constructor
  · rintro ⟨st, -, r, hr, hmid⟩
    exact ⟨st, r, hr, hmid⟩
  · rintro ⟨st, r, hr, hmid⟩
    refine ⟨st, ?_, r, hr, hmid⟩
    cases st <;> decide

theorem removeMail_cases (m : PlayerMail) (mid : Nat) (isAuto : Bool) (cell : Option Nat) :
    (m.removeMail mid isAuto cell).2 = m ∨ ∃ st l, m.list st = some l ∧ (m.removeMail mid isAuto cell).2.toData =
      (m.setList st (l.eraseP (fun x => decide ((m.cells x).mid = mid)))).toData := by
  unfold PlayerMail.removeMail
  split
  · exact .inl rfl
  · rename_i r _
    dsimp only
    split
    · exact .inl rfl
    · split
      · exact .inl rfl
      · rename_i l hl
        exact .inr ⟨_, l, hl, removeRef_toData _ _⟩

theorem setList_listOf (m : PlayerMail) (st st' : SetType) (l : List Nat) :
    (m.setList st l).listOf st' = if st' = st then l else m.listOf st' := by
  by_cases h : st' = st
  · subst h
    simp [PlayerMail.setList, Data.listOf]
  · simp [PlayerMail.setList, Data.listOf, h]

theorem removeMail_mids (m : PlayerMail) (mid : Nat) (isAuto : Bool) (cell : Option Nat) :
    ∀ x ∈ mids (m.removeMail mid isAuto cell).2.toData, x ∈ mids m.toData := by
  intro x hx
  rcases removeMail_cases m mid isAuto cell with he | ⟨st, l, hl, he⟩
  · rw [he] at hx
    exact hx
  · rw [he] at hx
    obtain ⟨st', r, hr, hmid⟩ := mem_mids.1 hx
    refine mem_mids.2 ⟨st', r, ?_, hmid⟩
    rw [setList_listOf] at hr
    split at hr
    · rename_i hst
      rw [hst, Data.listOf, hl]
      exact List.mem_of_mem_eraseP hr
    · exact hr

theorem foldl_mids {ι : Type} (f : PlayerMail → ι → PlayerMail) (hf : ∀ m i, ∀ x ∈ mids (f m i).toData, x ∈ mids m.toData) :
    ∀ (l : List ι) (m : PlayerMail), ∀ x ∈ mids (l.foldl f m).toData, x ∈ mids m.toData
  | [], _, _, hx => hx
  | i :: l, m, x, hx => hf m i x (foldl_mids f hf l (f m i) x hx)

theorem reqDelMail_mids (m : PlayerMail) (st : SetType) (ms : List Nat) :
    ∀ x ∈ mids (m.reqDelMail st ms).2.toData, x ∈ mids m.toData := by
  have hfold : ∀ (ms : List Nat) (p : List Nat × PlayerMail), ∀ x ∈ mids (ms.foldl (delOne st) p).2.toData,
    x ∈ mids p.2.toData := by
    intro ms
    induction ms with
    | nil => exact fun _ _ hx => hx
    | cons mid ms ih =>
      intro p x hx
      have hx' := ih (delOne st p mid) x hx
      unfold delOne at hx'
      split at hx'
      · exact removeMail_mids _ _ _ _ x hx'
      · exact hx'
  exact hfold ms ([], m)

theorem updateExpireTimer_mids (m : PlayerMail) (time : Nat) : ∀ x ∈ mids (m.updateExpireTimer time).toData,
    x ∈ mids m.toData :=
  foldl_mids _ (fun m r => removeMail_mids m (m.cells r).mid true (some r)) _ m

theorem addNewMail_mids (m : PlayerMail) (h : Head) : h.mid ∈ mids (m.addNewMail h none true).2.toData ∧
    ∀ x ∈ mids (m.addNewMail h none true).2.toData, x ∈ mids m.toData ∨ x = h.mid := by
  have hdata : mids (m.addNewMail h none true).2.toData = mids (m.push (defaultListCell h)).toData := by
    unfold PlayerMail.addNewMail
    rw [if_pos rfl]
    have := addRef_toData (m.push (defaultListCell h)) m.next
    unfold mids Data.listOf
    simp only [this]
  have hplace : ∀ x ∈ mids (m.place (defaultListCell h)).toData, x ∈ mids m.toData ∨ x = h.mid := by
    intro x hx
    obtain ⟨st, r, hr, hmid⟩ := mem_mids.1 hx
    have hcells : (m.place (defaultListCell h)).cells = Function.update m.cells m.next (defaultListCell h) := rfl
    rw [hcells] at hmid
    by_cases hrn : r = m.next
    · subst hrn
      right
      simpa [defaultListCell] using hmid.symm
    · left
      rw [Function.update_of_ne hrn] at hmid
      rw [place_listOf] at hr
      split at hr
      · exact mem_mids.2 ⟨_, r, (List.mem_cons.1 hr).resolve_left hrn, hmid⟩
      · exact mem_mids.2 ⟨st, r, hr, hmid⟩
  have hnew : h.mid ∈ mids (m.place (defaultListCell h)).toData := by
    refine mem_mids.2 ⟨(defaultListCell h).settype, m.next, ?_, by rw [place_self]; rfl⟩
    rw [place_listOf, if_pos rfl]
    exact List.mem_cons_self
  rw [hdata]
  unfold PlayerMail.push PlayerMail.trim
  split
  · rename_i hlong
    split
    · rename_i r hr
      refine ⟨?_, fun x hx => hplace x (removeMail_mids _ _ _ _ x hx)⟩
      rw [place_listOf, if_pos rfl] at hlong hr
      have hne : m.listOf (defaultListCell h).settype ≠ [] := by
        intro hnil
        rw [hnil] at hlong
        have hpos : 1 ≤ (defaultListCell h).settype.limit := by cases (defaultListCell h).settype <;> decide
        simp only [List.length_singleton] at hlong
        omega
      have hin : r ∈ m.listOf (defaultListCell h).settype := surplus_mem hne hr
      rcases removeMail_cases (m.place (defaultListCell h)) ((m.place (defaultListCell h)).cells r).mid true (some r) with
        he | ⟨st, l, hl, he⟩
      · rw [he]
        exact hnew
      · rw [he]
        -- the removal takes the first cell of the mail of `r`: the new one only if `r` has the same mail
        by_cases hst : (defaultListCell h).settype = st
        · have hlist : l = m.next :: m.listOf (defaultListCell h).settype := by
            have := place_listOf m (defaultListCell h) st
            rw [if_pos hst.symm, Data.listOf, hl] at this
            exact this
          by_cases hsame : ((m.place (defaultListCell h)).cells r).mid = h.mid
          · refine mem_mids.2 ⟨st, r, ?_, hsame⟩
            rw [setList_listOf, if_pos rfl, hlist, List.eraseP_cons_of_pos]
            · exact hin
            · rw [place_self]
              exact decide_eq_true hsame.symm
          · refine mem_mids.2 ⟨st, m.next, ?_, ?_⟩
            · rw [setList_listOf, if_pos rfl, hlist, List.eraseP_cons_of_neg]
              · exact List.mem_cons_self
              · rw [place_self]
                exact fun he => hsame (of_decide_eq_true he).symm
            · exact congrArg Cell.mid (place_self m (defaultListCell h))
        · refine mem_mids.2 ⟨(defaultListCell h).settype, m.next, ?_, ?_⟩
          · rw [setList_listOf, if_neg hst, place_listOf, if_pos rfl]
            exact List.mem_cons_self
          · exact congrArg Cell.mid (place_self m (defaultListCell h))
    · exact ⟨hnew, hplace⟩
  · exact ⟨hnew, hplace⟩

/-! ## What holds between two moves -/

/-- **Lists and bodies fit**, and nothing is listed that was not given to somebody. -/
structure Said (bodies : Nat → Option Body) (first : Nat) (s : Svc Log) : Prop where
  fresh : ∀ {mid}, s.nextMid ≤ mid → s.bodies mid = none ∧ s.notes.stage mid = .none ∧ s.notes.ok mid = false
  drawn : first ≤ s.nextMid
  backed : ∀ {uid d mid}, s.stored uid = some d → mid ∈ mids d → s.bodies mid ≠ none
  held : ∀ {mid b}, s.bodies mid = some b → b.isshared = 0 → s.notes.ok mid = true → ∃ uid d, s.stored uid =
    some d ∧ mid ∈ mids d
  given : ∀ {uid d mid}, s.stored uid = some d → mid ∈ mids d → s.notes.ok mid = true
  sending : ∀ {mid}, s.notes.stage mid = .sending → s.bodies mid ≠ none
  shared : ∀ {mid b}, bodies mid = some b → b.isshared ≠ 0 → mid < first ∧ s.bodies mid = some b

variable {bodies : Nat → Option Body} {first : Nat} {s : Svc Log} {uid o : Nat}

theorem Said.referenced (h : Said bodies first s) : Referenced bodies s :=
  ⟨fun _ _ _ hd hm => h.backed hd hm, fun _ _ hb hs hok => h.held hb hs hok, fun _ _ hb hs => (h.shared hb hs).2⟩

structure Log.Later (g g' : Log) : Prop where
  begun : ∀ {mid}, g.stage mid ≠ .none → g'.stage mid ≠ .none
  closed : ∀ {mid}, g.stage mid = .closed → g'.stage mid = .closed ∧ g'.ok mid = g.ok mid

def trust (bodies : Nat → Option Body) (first : Nat) : Trust Log where
  busy _ _ := false
  said := Said bodies first
  later := Log.Later
  refl _ := ⟨fun hm => hm, fun hm => ⟨hm, rfl⟩⟩
  trans h h' := by
    refine ⟨fun hm => h'.begun (h.begun hm), fun hm => ?_⟩
    obtain ⟨hstage, hok⟩ := h.closed hm
    obtain ⟨hstage', hok'⟩ := h'.closed hstage
    exact ⟨hstage', hok'.trans hok⟩

theorem Said.frame {s' : Svc Log} (h : Said bodies first s) (hst : s'.stored = s.stored) (hb : s'.bodies = s.bodies)
    (hmid : s'.nextMid = s.nextMid) (hnotes : s'.notes = s.notes) : Said bodies first s' := by
  refine ⟨fun hm => ?_, ?_, fun hd hm => ?_, fun hb' hs hok => ?_, fun hd hm => ?_, fun hsend => ?_, fun hb' hs => ?_⟩
  · rw [hb, hnotes]
    exact h.fresh (hmid ▸ hm)
  · rw [hmid]
    exact h.drawn
  · rw [hb]
    exact h.backed (hst ▸ hd) hm
  · rw [hst]
    exact h.held (hb ▸ hb') hs (hnotes ▸ hok)
  · rw [hnotes]
    exact h.given (hst ▸ hd) hm
  · rw [hb]
    exact h.sending (hnotes ▸ hsend)
  · rw [hb]
    exact h.shared hb' hs

/-- **A player's mails change**: `new` are given to him, and no last copy goes. -/
theorem Said.write (h : Said bodies first s) {d : Data} {m : PlayerMail} {g : Log} (new : List Nat)
    (hd : s.stored uid = some d)
    (hstage : g.stage = s.notes.stage) (hok : ∀ x, g.ok x = true ↔ s.notes.ok x = true ∨ x ∈ new)
    (hnew : ∀ x ∈ new, s.notes.stage x = .sending ∧ x ∈ mids m.toData) (hsub : ∀ x ∈ mids m.toData, x ∈ mids d ∨ x ∈ new)
    (hcopies : keepsCopies s uid d m.toData = true) :
    Said bodies first { ((s.setObj o m).save uid m.toData) with notes := g } where
  fresh {x} hx := by
    obtain ⟨hb, hs, hno⟩ := h.fresh hx
    refine ⟨hb, by rw [hstage]; exact hs, ?_⟩
    by_contra hyes
    rcases (hok x).1 (by simpa using hyes) with hold | hin
    · rw [hno] at hold
      cases hold
    · rw [(hnew x hin).1] at hs
      cases hs
  drawn := h.drawn
  backed {u e x} he hx := by
    by_cases hu : u = uid
    · have he' : m.toData = e := by simpa [Svc.save, hu] using he
      subst he'
      rcases hsub x hx with hold | hin
      · exact h.backed hd hold
      · exact h.sending (hnew x hin).1
    · exact h.backed (by simpa [Svc.save, Svc.setObj, hu] using he) hx
  held {x b} hb hs hokx := by
    have hself : ({ ((s.setObj o m).save uid m.toData) with notes := g } : Svc Log).stored uid =
      some m.toData := by simp [Svc.save]
    by_cases hin : x ∈ mids m.toData
    · exact ⟨uid, _, hself, hin⟩
    · have hold : s.notes.ok x = true := ((hok x).1 hokx).resolve_right (fun hx => hin (hnew x hx).2)
      obtain ⟨u, e, he, hx⟩ := h.held hb hs hold
      by_cases hu : u = uid
      · -- the player's own copy goes: somebody else has one
        subst hu
        rw [hd] at he
        cases he
        have hcopy := List.all_eq_true.1 hcopies x hx
        simp only [hin, decide_false, Bool.false_or] at hcopy
        unfold elsewhere at hcopy
        rw [show s.bodies x = some b from hb] at hcopy
        simp only [hs, ne_eq, not_true_eq_false, decide_false, Bool.false_or, List.any_eq_true, Bool.and_eq_true,
          decide_eq_true_eq] at hcopy
        obtain ⟨u', -, hne, hholds⟩ := hcopy
        obtain ⟨e', he', hx'⟩ := (Option.any_eq_true _ _).1 hholds
        exact ⟨u', e', by simpa [Svc.save, Svc.setObj, hne] using he', of_decide_eq_true hx'⟩
      · exact ⟨u, e, by simpa [Svc.save, Svc.setObj, hu] using he, hx⟩
  given {u e x} he hx := by
    refine (hok x).2 ?_
    by_cases hu : u = uid
    · have he' : m.toData = e := by simpa [Svc.save, hu] using he
      subst he'
      exact (hsub x hx).imp (fun hold => h.given hd hold) id
    · exact .inl (h.given (by simpa [Svc.save, Svc.setObj, hu] using he) hx)
  sending {x} hx := h.sending (by rw [← hstage]; exact hx)
  shared := h.shared

theorem said_steady : Steady (trust bodies first).busy (fun _ _ => True) (Said bodies first) where
  newMail _ h _ := h.frame rfl rfl rfl rfl
  load _ h _ _ _ := h.frame rfl rfl rfl rfl
  stale _ h _ := h.frame rfl rfl rfl rfl
  fill {s uid o} _ h _ _ hst := by
    have hno : ∀ x, x ∉ mids Data.default := by
      intro x hx
      obtain ⟨st, r, hr, -⟩ := mem_mids.1 hx
      cases hr
    have hother : ∀ {u e x}, ((s.setObj o (.init .default)).save uid .default).stored u = some e → x ∈ mids e →
        u ≠ uid ∧ s.stored u = some e := by
      intro u e x he hx
      by_cases hu : u = uid
      · have he' : Data.default = e := by simpa [Svc.save, hu] using he
        rw [← he'] at hx
        exact absurd hx (hno x)
      · exact ⟨hu, by simpa [Svc.save, Svc.setObj, hu] using he⟩
    refine ⟨h.fresh, h.drawn, fun he hx => h.backed (hother he hx).2 hx, fun {x b} hb hs hok => ?_,
      fun he hx => h.given (hother he hx).2 hx, h.sending, h.shared⟩
    obtain ⟨u, e, he, hx⟩ := h.held hb hs hok
    have hu : u ≠ uid := by
      rintro rfl
      rw [hst] at he
      cases he
    exact ⟨u, e, by simpa [Svc.save, Svc.setObj, hu] using he, hx⟩
  stored _ _ := trivial
  cached _ _ := trivial
  insert {s mid b} h _ := by
    unfold Svc.insert
    split
    · exact h
    · exact h.frame rfl rfl rfl rfl
  uncache h := h.frame rfl rfl rfl rfl

section Programs

variable {may : Req → Reply → Bool}

theorem forks_abides (ms : List Nat) (uid : Nat) :
    Abides (trust bodies first).pact may (forkRemovals ms uid : Co Log Unit) := by
  refine Abides.modify (fun s hs => ⟨⟨hs.1.frame rfl rfl rfl rfl (fun _ hb => hb), hs.2.frame rfl rfl rfl rfl⟩, ?_⟩)
  exact Later.frame rfl rfl rfl rfl ((trust bodies first).refl _)

theorem cut_vow {m : PlayerMail} {f : PlayerMail → PlayerMail} (hs : (trust bodies first).pact.inv s)
    (ho : s.objs o = some m)
    (hf : ∀ x ∈ mids (f m).toData, x ∈ mids m.toData) (gone : List Nat) :
    Vow (trust bodies first).pact may (fun s' => s' = s) (cut uid o m f gone) (fun _ => (trust bodies first).pact.inv)
      (trust bodies first).pact.inv := by
  refine Vow.ite (fun _ => (Abides.pure ()).at hs) (fun _ => Vow.noteAt nofun (fun hn => ?_))
  refine write_at (T := trust bodies first) (fun hm => (forks_abides gone uid).at ?_)
  rw [change_some ho]
  have hd := hs.1.saved hm ho rfl
  refine ⟨hs.1.write hm, hs.2.write (g := s.notes) [] hd rfl (fun x => ?_) nofun (fun x hx => .inl (hf x hx)) (hn rfl)⟩
  simp

theorem delIn_abides (uid o : Nat) (st : SetType) (ms : List Nat) :
    Abides (trust bodies first).pact may (delIn uid o st ms) := by
  refine Vow.get (fun s hs => ?_)
  split
  · exact (Abides.pure ()).at hs
  · rename_i m ho
    exact cut_vow hs ho (reqDelMail_mids m st ms) _

theorem expireIn_abides (uid o time : Nat) : Abides (trust bodies first).pact may (expireIn uid o time) := by
  refine Vow.get (fun s hs => ?_)
  split
  · exact (Abides.err _).at hs
  · rename_i m ho
    exact cut_vow (f := fun m => m.updateExpireTimer time) hs ho (updateExpireTimer_mids m time) _

theorem request_abides {p : Nat → Co Log Unit} (hp : ∀ o, Abides (trust bodies first).pact may (p o)) (uid : Nat) :
    Abides (trust bodies first).pact may (request uid p) := by
  refine Abides.bind (getPlayerMail_abides said_steady uid false) (fun o => ?_)
  split
  · exact Abides.serial (hp _)
  · exact Abides.pure ()

def Owing (bodies : Nat → Option Body) (first mid : Nat) (b : Bool) (s : Svc Log) : Prop :=
  if b then s.notes.stage mid = .sending ∧ (trust bodies first).pact.inv { s with notes := s.notes.setOk mid }
  else (trust bodies first).pact.inv s

theorem addNewMail_vow (uid o : Nat) (h : Head) : Vow (trust bodies first).pact may (trust bodies first).pact.inv
    (addNewMail uid o h) (Owing bodies first h.mid) (trust bodies first).pact.inv := by
  refine Vow.bind ((query_vow said_steady h.mid).conseq (fun _ h => h) (fun _ _ h => h.1) (fun _ h => h)) (fun b =>
    Vow.ite (fun _ => Vow.pure (fun s hs => hs)) (fun _ => Vow.get (fun s hs => ?_)))
  split
  · exact (Vow.err (fun _ hs' => hs' ▸ hs))
  · rename_i m ho
    refine Vow.noteAt nofun (fun hn => ?_)
    have hn' := hn rfl
    simp only [Bool.and_eq_true, decide_eq_true_eq] at hn'
    obtain ⟨hin, hsub⟩ := addNewMail_mids m h
    refine write_at (T := trust bodies first) (fun hm => ?_)
    rw [change_some ho]
    have hd := hs.1.saved hm ho rfl
    have hsaid := hs.2.write (o := o) (g := s.notes.setOk h.mid) [h.mid] hd rfl (fun x => ?_) (fun x hx => ?_)
      (fun x hx => (hsub x hx).imp id (fun he => List.mem_singleton.2 he)) hn'.2
    · refine Vow.bind (M := fun _ s' => Owing bodies first h.mid true s') (Vow.modify (fun s' hs' => ?_))
        (fun _ => Vow.pure (fun _ hs' => hs'))
      subst hs'
      refine ⟨Later.frame rfl rfl rfl rfl ((trust bodies first).refl _), ?_⟩
      show _ ∧ _
      refine ⟨hn'.1, ?_, hsaid.frame rfl rfl rfl rfl⟩
      exact (hs.1.write hm).frame rfl rfl rfl rfl (fun _ hb => hb)
    · by_cases hx : x = h.mid
      · subst hx
        simp [Log.setOk]
      · simp [Log.setOk, hx]
    · rw [List.mem_singleton.1 hx]
      exact ⟨hn'.1, hin⟩

theorem give_vow (uid : Nat) (h : Head) : Vow (trust bodies first).pact may (trust bodies first).pact.inv (give uid h)
    (Owing bodies first h.mid) (trust bodies first).pact.inv := by
  refine Vow.bind (getPlayerMail_abides said_steady uid false) (fun o => ?_)
  split
  · exact Vow.serial (addNewMail_vow uid _ h) (fun _ hs => hs) (fun _ _ _ hi _ => hi)
  · exact Vow.pure (fun _ hs => hs)

theorem sendAll_abides (h : Head) : ∀ receivers : List Nat, Abides (trust bodies first).pact may (sendAll h receivers)
  | [] => Abides.pure ()
  | uid :: receivers => by
    refine Vow.bind (M := fun r s => if r = .ok true then Owing bodies first h.mid true s else
      (trust bodies first).pact.inv s)
      (Vow.xpcall (give_vow uid h) (fun b s hs => ?_) (fun e s hs => ?_)) (fun r => Vow.bind
        (M := fun _ => (trust bodies first).pact.inv) ?_ (fun _ => sendAll_abides h receivers))
    · cases b with
      | true => simpa using hs
      | false => simpa [Owing] using hs
    · simpa using hs
    · rcases r with e | b
      · exact Vow.pure (fun s hs => by simpa using hs)
      · cases b with
        | false => exact Vow.pure (fun s hs => by simpa using hs)
        | true =>
          refine Vow.modify (fun s hs => ?_)
          simp only [ite_true] at hs
          obtain ⟨hsend, hinv⟩ := hs
          refine ⟨Later.frame rfl rfl rfl rfl ⟨fun hx => hx, fun {x} hx => ⟨hx, ?_⟩⟩, hinv⟩
          have hne : x ≠ h.mid := by
            rintro rfl
            rw [hsend] at hx
            cases hx
          simp [Log.setOk, hne]

def Dead (mid : Nat) (s : Svc Log) : Prop := s.notes.stage mid = .closed ∧ s.notes.ok mid = false

theorem dead_stable (mid : Nat) (s s' : Svc Log) (h : Dead mid s) (hv : (trust bodies first).pact.rely s s') :
    Dead mid s' := by
  obtain ⟨hstage, hok⟩ := hv.notes.closed h.1
  exact ⟨hstage, hok.trans h.2⟩

theorem remove_vow (mid : Nat) (hmid : first ≤ mid) : Vow (trust bodies first).pact may
    (fun s => (trust bodies first).pact.inv s ∧ Dead mid s) (remove mid none true : Co Log Unit)
    (fun _ => (trust bodies first).pact.inv) (trust bodies first).pact.inv := by
  refine Vow.bind (M := fun _ s => (trust bodies first).pact.inv s ∧ Dead mid s) (((query_vow said_steady mid).stable
    (dead_stable mid)).conseq (fun _ h => h) (fun _ _ h => ⟨h.1.1, h.2⟩) (fun _ h => h.1)) (fun b => ?_)
  split
  · exact Vow.pure (fun _ hs => hs.1)
  refine Vow.bind (M := fun _ => (trust bodies first).pact.inv) (Vow.modify (fun s hs => ?_)) (fun _ =>
    Abides.modify (fun s hs => ?_))
  · obtain ⟨⟨hord, hsaid⟩, hstage, hok⟩ := hs
    have hbody : ∀ {x}, x ≠ mid → (s.setBody mid none).bodies x = s.bodies x := by
      intro x hx
      simp [Svc.setBody, hx]
    have hgone : (s.setBody mid none).bodies mid = none := by simp [Svc.setBody]
    refine ⟨Later.frame rfl rfl rfl rfl ((trust bodies first).refl _), hord.frame rfl rfl rfl rfl (fun _ hb => hb),
      fun {x} hx => ?_, hsaid.drawn, fun {u d x} hd hx => ?_, fun {x b} hb hs hokx => ?_, hsaid.given, fun {x} hx => ?_,
      fun {x b} hb hs => ?_⟩
    · obtain ⟨hb, hrest⟩ := hsaid.fresh hx
      refine ⟨?_, hrest⟩
      by_cases hxm : x = mid
      · rw [hxm, hgone]
      · rw [hbody hxm, hb]
    · have hxm : x ≠ mid := by
        rintro rfl
        rw [hsaid.given hd hx] at hok
        cases hok
      rw [hbody hxm]
      exact hsaid.backed hd hx
    · have hxm : x ≠ mid := by
        rintro rfl
        rw [hgone] at hb
        cases hb
      exact hsaid.held (hbody hxm ▸ hb) hs hokx
    · have hxm : x ≠ mid := by
        rintro rfl
        rw [show s.notes.stage x = .sending from hx] at hstage
        cases hstage
      rw [hbody hxm]
      exact hsaid.sending hx
    · obtain ⟨hlt, hb'⟩ := hsaid.shared hb hs
      rw [hbody (by omega)]
      exact ⟨hlt, hb'⟩
  · exact ⟨⟨hs.1.frame rfl rfl rfl rfl (fun _ hb => hb), said_steady.uncache hs.2⟩,
      Later.frame rfl rfl rfl rfl ((trust bodies first).refl _)⟩

/-! The steps of a sending. -/

theorem create_later {b : Body} (hstage : s.notes.stage b.mid = .none) : Later (trust bodies first).later s
    { s.create b with notes := s.notes.setStage b.mid .sending } := by
  obtain ⟨hmem, hobjs, hnext, hst, -⟩ := insert_frame ({ s with nextMid := s.nextMid + 1 }.setBody b.mid (some b)) b.mid b
  refine Later.frame hmem hobjs hnext hst ⟨fun {x} hx => ?_, fun {x} hx => ?_⟩
  · by_cases he : x = b.mid
    · subst he
      simp [Log.setStage]
    · simpa [Log.setStage, he] using hx
  · have he : x ≠ b.mid := by
      rintro rfl
      rw [hstage] at hx
      cases hx
    exact ⟨by simpa [Log.setStage, he] using hx, rfl⟩

theorem create_inv {b : Body} (hs : (trust bodies first).pact.inv s) (hmid : b.mid = s.nextMid) :
    (trust bodies first).pact.inv { s.create b with notes := s.notes.setStage b.mid .sending } := by
  obtain ⟨hmem, hobjs, hnext, hst, -⟩ := insert_frame ({ s with nextMid := s.nextMid + 1 }.setBody b.mid (some b)) b.mid b
  obtain ⟨hord, hsaid⟩ := hs
  obtain ⟨hnone, hstage, hno⟩ := hsaid.fresh (Nat.le_of_eq hmid.symm)
  obtain ⟨hbodies, hdrawn⟩ : (s.create b).bodies = Function.update s.bodies b.mid (some b) ∧ (s.create b).nextMid =
    s.nextMid + 1 := by
    unfold Svc.create Svc.insert
    split <;> exact ⟨rfl, rfl⟩
  have hsame : ∀ {x}, x ≠ b.mid → (s.create b).bodies x = s.bodies x ∧ (s.notes.setStage b.mid .sending).stage x =
    s.notes.stage x := by
    intro x hx
    rw [hbodies]
    simp [Log.setStage, hx]
  have hgrow : ∀ {x}, s.bodies x ≠ none → (s.create b).bodies x ≠ none := by
    intro x hx
    by_cases he : x = b.mid
    · rw [hbodies, he]
      simp
    · rw [(hsame he).1]
      exact hx
  refine ⟨hord.frame hmem hobjs hnext hst (fun _ hb => hb), fun {x} hx => ?_, ?_, fun hd hx =>
    hgrow (hsaid.backed (hst ▸ hd) hx),
    fun {x c} hc hsh hok => ?_, fun hd hx => hsaid.given (hst ▸ hd) hx, fun {x} hx => ?_, fun {x c} hc hsh => ?_⟩
  · have hx' : s.nextMid + 1 ≤ x := hdrawn ▸ hx
    have he : x ≠ b.mid := by omega
    obtain ⟨hb, hst', hok⟩ := hsaid.fresh (Nat.le_of_succ_le hx')
    exact ⟨(hsame he).1.trans hb, (hsame he).2.trans hst', hok⟩
  · show first ≤ (s.create b).nextMid
    rw [hdrawn]
    exact Nat.le_succ_of_le hsaid.drawn
  · have he : x ≠ b.mid := by
      rintro rfl
      rw [show s.notes.ok b.mid = true from hok] at hno
      cases hno
    obtain ⟨u, d, hd, hx⟩ := hsaid.held ((hsame he).1 ▸ hc) hsh hok
    exact ⟨u, d, by rw [← hd]; exact congrFun hst u, hx⟩
  · by_cases he : x = b.mid
    · show (s.create b).bodies x ≠ none
      rw [hbodies, he]
      simp
    · exact hgrow (hsaid.sending ((hsame he).2 ▸ hx))
  · obtain ⟨hlt, hb⟩ := hsaid.shared hc hsh
    have he : x ≠ b.mid := by
      have := hsaid.drawn
      omega
    exact ⟨hlt, (hsame he).1.trans hb⟩

theorem close_later {mid : Nat} : Later (trust bodies first).later s { s with notes := s.notes.setStage mid .closed } := by
  refine Later.frame rfl rfl rfl rfl ⟨fun {x} hx => ?_, fun {x} hx => ⟨?_, rfl⟩⟩
  · by_cases he : x = mid
    · subst he
      simp [Log.setStage]
    · simpa [Log.setStage, he] using hx
  · by_cases he : x = mid
    · subst he
      simp [Log.setStage]
    · simpa [Log.setStage, he] using hx

theorem close_inv {mid : Nat} (hs : (trust bodies first).pact.inv s) (hmid : s.notes.stage mid ≠ .none) :
    (trust bodies first).pact.inv { s with notes := s.notes.setStage mid .closed } := by
  obtain ⟨hord, hsaid⟩ := hs
  refine ⟨hord.frame rfl rfl rfl rfl (fun _ hb => hb), fun {x} hx => ?_, hsaid.drawn, hsaid.backed, hsaid.held, hsaid.given,
    fun {x} hx => ?_, hsaid.shared⟩
  · obtain ⟨hb, hstage, hok⟩ := hsaid.fresh hx
    have hne : x ≠ mid := by
      rintro rfl
      exact hmid hstage
    exact ⟨hb, by simpa [Log.setStage, hne] using hstage, hok⟩
  · by_cases hne : x = mid
    · subst hne
      simp [Log.setStage] at hx
    · exact hsaid.sending (by simpa [Log.setStage, hne] using hx)

theorem begun_stable (mid : Nat) (s s' : Svc Log) (h : s.notes.stage mid ≠ .none)
    (hv : (trust bodies first).pact.rely s s') :
    s'.notes.stage mid ≠ .none :=
  hv.notes.begun h

/-- **Sending a mail**: a new body, the lists of those who can be given it, and the body goes if there are none. -/
theorem sendMail_abides (x : Letter) (receivers : List Nat) :
    Abides (trust bodies first).pact may (sendMail x receivers) := by
  refine Abides.ite (Abides.pure ()) (Abides.bind (call_abides _) (fun r =>
    Abides.ite (Abides.pure ()) (Vow.get (fun s hs => ?_))))
  obtain ⟨hnone, hstage, -⟩ := hs.2.fresh (Nat.le_refl s.nextMid)
  refine Vow.modifyAt ?_ (Vow.bind (M := fun _ s' => (trust bodies first).pact.inv s' ∧ s'.notes.stage s.nextMid ≠ .none) ?_
    (fun _ => Vow.get (fun s' hs' => Vow.modifyAt ?_ (Vow.ite (fun _ => ?_) (fun hok => ?_)))))
  · exact create_later hstage
  · refine ((sendAll_abides _ receivers).stable (begun_stable s.nextMid)).conseq (fun s' hs' => ?_) (fun _ _ h =>
      h) (fun _ h => h.1)
    subst hs'
    refine ⟨create_inv hs rfl, ?_⟩
    simp [Log.setStage]
  · exact close_later
  · exact (Abides.pure ()).at (close_inv hs'.1 hs'.2)
  · refine (remove_vow s.nextMid hs.2.drawn).weaken (fun s'' hs'' => ?_)
    subst hs''
    refine ⟨close_inv hs'.1 hs'.2, ?_, ?_⟩
    · simp [Log.setStage]
    · simpa [Log.setStage] using hok

theorem release_abides (uid : Nat) : Abides (trust bodies first).pact may (releasePlayerMail (pure ()) uid : Co Log Unit) :=
  releasePlayerMail_abides (F := fun _ => True) (Vow.pure (fun _ hs => ⟨hs, trivial⟩)) (fun _ _ hs _ =>
    hs.frame rfl rfl rfl rfl)

theorem op_abides (op : Op) : Abides (trust bodies first).pact may op.prog := by
  cases op with
  | sendMail x receivers => exact sendMail_abides x receivers
  | reqDelMail uid st ms => exact request_abides (fun o => delIn_abides uid o st ms) uid
  | reqDelMailOneKey uid st visit => exact request_abides (fun o => delIn_abides uid o st visit) uid
  | checkin uid time => exact request_abides (fun o => expireIn_abides uid o time) uid
  | login uid => exact login_abides said_steady uid
  | logout uid => exact logout_abides said_steady (release_abides uid)
  | release uid => exact release_abides uid
  | runFork mid uid => exact runFork_abides said_steady (fun h => h.frame rfl rfl rfl rfl) mid uid
  | releaseBody mid =>
    exact Abides.modify (fun s hs => ⟨⟨hs.1.frame rfl rfl rfl rfl (fun _ hb => hb), said_steady.uncache hs.2⟩,
      Later.frame rfl rfl rfl rfl ((trust bodies first).refl _)⟩)
  | expireSq uid => exact delSq_abides uid

end Programs

theorem keeping : Co.Keeping (trust bodies first).pact bodySys :=
  ⟨fun op _ hs => (op_abides op).final hs, fun e => e.elim⟩

theorem opening_inv {stored : Nat → Option Data} {nextMid : Nat} (h : Sensible stored bodies nextMid) :
    (trust bodies nextMid).pact.inv (opening stored bodies nextMid) := by
  have hlt : ∀ {mid}, bodies mid ≠ none → mid < nextMid := by
    intro mid hb
    by_contra hle
    exact hb (h.drawn (Nat.le_of_not_lt hle))
  refine ⟨⟨nofun, fun _ => rfl, nofun, nofun⟩, fun hm => ⟨h.drawn hm, rfl, decide_eq_false (Nat.not_lt.2 hm)⟩,
    Nat.le_refl _,
    h.backed, fun hb hs _ => h.held hb hs, fun hd hm => decide_eq_true (hlt (h.backed hd hm)), nofun,
      fun {mid b} hb _ => ⟨?_, hb⟩⟩
  refine hlt ?_
  rw [hb]
  exact nofun

/-- **Bodies live as long as they are referenced**, in every run in which no removal takes the last copy of a mail that is
not shared, changes are made to a player's own object, and loads are not overtaken. -/
theorem bodies_of_run (stored : Nat → Option Data) (bodies : Nat → Option Body) (nextMid : Nat)
    (h : Sensible stored bodies nextMid) (es : List (Co.Event Op Reply Empty))
    {w : Co.World (Co.Desk (Svc Log) Line) (Line × Nat) Req Reply}
    (hrun : bodySys.tabled.run (.init (.new (opening stored bodies nextMid))) es = some w) (hclean : w.clean = true) :
    Referenced bodies w.st.st :=
  (Co.inv_of_run_tabled keeping (opening_inv h) hrun hclean).2.referenced

def empty : Svc Log := opening (fun _ => none) (fun _ => none) 1

def letter : Letter := ⟨.system, 5, none, 0⟩

theorem empty_sensible : Sensible (fun _ => none) (fun _ => none) 1 := ⟨nofun, nofun, fun _ => rfl⟩

theorem bodies_of_run_copy : ∃ es w, bodySys.tabled.run (.init (.new empty)) es = some w ∧ w.clean = true ∧
    (holds w.st.st 7 1 = false ∧ holds w.st.st 8 1 = true ∧ w.st.st.forks = []) ∧ Referenced (fun _ => none) w.st.st := by
  -- players 7 and 8 are given the mail, and 7 deletes it
  obtain ⟨w, hrun, hw⟩ : ∃ w ∈ bodySys.tabled.run (.init (.new empty))
      [.start (.sendMail letter [7, 8]), .reply 0 .yes, .reply 0 .yes, .reply 0 .yes, .reply 0 .no, .reply 0 .yes,
        .reply 0 .yes, .reply 0 .no, .start (.reqDelMail 7 .system [1]), .start (.runFork 1 7)],
      w.clean = true ∧ holds w.st.st 7 1 = false ∧ holds w.st.st 8 1 = true ∧ w.st.st.forks = [] := by
    decide +kernel
  exact ⟨_, w, hrun, hw.1, hw.2, bodies_of_run _ _ _ empty_sensible _ hrun hw.1⟩

def deletion : List (Co.Event Op Reply Empty) :=
  [.start (.sendMail letter [7]), .reply 0 .yes, .reply 0 .yes, .reply 0 .yes, .reply 0 .no,
    .start (.reqDelMail 7 .system [1]),
    .start (.runFork 1 7)]

/-- **The body of a mail that its only receiver deleted stays**, with no removal pending. -/
theorem body_left_behind : ∃ w, bodySys.tabled.run (.init (.new empty)) deletion = some w ∧ w.quiet = true ∧
    w.st.st.forks = [] ∧
    ¬Referenced (fun _ => none) w.st.st := by
  have h : (bodySys.tabled.run (.init (.new empty)) deletion).any (fun w => w.quiet && decide (w.st.st.forks = [] ∧
      (w.st.st.bodies 1).any (fun b => decide (b.isshared = 0)) = true ∧ w.st.st.notes.ok 1 = true ∧
      holds w.st.st 7 1 = false)) = true := by
    decide +kernel
  -- nothing was saved but the mails of player 7
  have hsaved : ∃ d d' d'' : Option Data, (bodySys.tabled.run (.init (.new empty)) deletion).map (fun w => w.st.st.stored) =
      some (Function.update (Function.update (Function.update (fun _ => none) 7 d) 7 d') 7 d'') :=
    ⟨_, _, _, rfl⟩
  obtain ⟨w, hrun, hw⟩ := (Option.any_eq_true _ _).1 h
  simp only [Bool.and_eq_true, decide_eq_true_eq] at hw
  obtain ⟨hquiet, hforks, hbody, hok, hself⟩ := hw
  refine ⟨w, hrun, hquiet, hforks, fun href => ?_⟩
  obtain ⟨b, hb, hshared⟩ := (Option.any_eq_true _ _).1 hbody
  obtain ⟨uid, d, hd, hmid⟩ := href.goes 1 b hb (of_decide_eq_true hshared) hok
  have hu : uid = 7 := by
    by_contra hne
    obtain ⟨d₁, d₂, d₃, hst⟩ := hsaved
    rw [hrun, Option.map_some] at hst
    have huid := congrFun (Option.some.inj hst) uid
    rw [hd] at huid
    simp [hne] at huid
  subst hu
  unfold holds at hself
  rw [hd] at hself
  simp [hmid] at hself

end Bodies
end Mail
end Sncpp
