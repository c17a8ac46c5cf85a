import Sncpp.MailKeep
/-!
# MailShare — shared mails reach each player once (`sendShareMail`, `checkin`, `loadShareMail`)

A shared mail is listed once for all players.  `sendShareMail` pushes it to the players online, one by one; the others
load it when they check in.  A player's `curShareId` is the id of the last shared mail passed over.  The push does not
look at it and does not look at the castle level; the load takes every player for one of level 1.
-/
namespace Sncpp
namespace Mail
namespace Sharing

open Co (Prog Sys Pact Vow Abides)
open Co.Prog (get modify note ask serial raise)

/-- How far the loading of shared mails has come: the list is not read yet, or these mails are still to be added. -/
inductive Phase where
  | idle
  | reading (curShareId : Nat)
  | adding (mids : List Nat)
deriving DecidableEq

def Phase.todo : Phase → List Nat
  | .adding mids => mids
  | _ => []

/-- What is recorded of a player: the castle level, how often a mail was added, the last shared id passed over. -/
structure Ledger where
  level : Nat
  got : Nat → Nat
  mark : Nat
  phase : Phase

/-- What is recorded of a run; `castleLv` is that of the shared mails sent, `pushing` has the players still to be visited. -/
structure Log where
  player : Nat → Ledger
  castleLv : Nat → Option Nat
  pushing : Nat → Option (List Nat)

def Log.pend (g : Log) (mid : Nat) : List Nat := (g.pushing mid).getD []

def Log.set (g : Log) (uid : Nat) (p : Ledger) : Log := { g with player := Function.update g.player uid p }

def Log.setPhase (g : Log) (uid : Nat) (p : Phase) : Log := g.set uid { g.player uid with phase := p }

/-- The shared list was read up to `last`; `mids` are to be added. -/
def Log.read (g : Log) (uid last : Nat) (mids : List Nat) : Log :=
  g.set uid { g.player uid with mark := max (g.player uid).mark last, phase := .adding mids }

def Log.add (g : Log) (uid mid id : Nat) (p : Phase) : Log :=
  g.set uid { g.player uid with
    got := Function.update (g.player uid).got mid ((g.player uid).got mid + 1)
    mark := max (g.player uid).mark id
    phase := p }

def Log.setPend (g : Log) (mid : Nat) (us : Option (List Nat)) : Log :=
  { g with pushing := Function.update g.pushing mid us }

def Log.send (g : Log) (mid castleLv : Nat) (online : List Nat) : Log :=
  { g.setPend mid (some online) with castleLv := Function.update g.castleLv mid (some castleLv) }

def listed (l : List Share) (mid : Nat) : Bool := l.any (fun v => decide (v.mid = mid))

def shareId (l : List Share) (mid : Nat) : Option Nat := (l.find? (fun v => decide (v.mid = mid))).map Share.id

def loadMail (l : List Share) (lastId castleLv : Nat) : List Nat × Nat :=
  ((l.filter (fun v => decide (lastId < v.id) && decide (v.castleLv ≤ castleLv))).map Share.mid,
    l.foldl (fun a v => max a v.id) lastId)

def shareMailLimit : Nat := 50

def createMail (s : Svc Log) (mid castleLv expiretime : Nat) : Svc Log :=
  let l := s.list ++ [⟨s.maxId + 1, mid, castleLv, expiretime⟩]
  { s with maxId := s.maxId + 1, list := if shareMailLimit < l.length then l.tail else l }

/-- The first listed mail that the player meets and `curShareId` has not passed. -/
def nextDue (s : Svc Log) (uid o : Nat) : Option Nat :=
  (s.objs o).bind (fun m => (s.list.find? (fun v =>
    decide (m.curShareId < v.id) && decide (v.castleLv ≤ (s.notes.player uid).level))).map Share.mid)

/-- A lookup that did not raise, and found the body if the mail is listed. -/
def answered (listed : Bool) : Except String (Option Body) → Bool
  | .ok (some _) => true
  | .ok none => !listed
  | .error _ => false

/-- `mailDataMgr:query` of a shared mail.  Recorded: it is answered. -/
def lookUp (mid : Nat) : Co Log (Option Body) := do
  let r ← (query mid).xpcall
  note true (fun s => answered (listed s.list mid) r)
  raise r

/-- `playerMail:addNewMail` of a shared mail.  Recorded: `due`, once the body was looked up. -/
def addNewMail (uid o : Nat) (h : Head) (due : Svc Log → Bool) (p : Phase) : Co Log Bool := do
  let b ← lookUp h.mid
  if b.isNone then pure false
  else
    note true due
    let s ← get
    match s.objs o with
    | none => .err "attempt to index a nil value (field 'data')"
    | some m =>
      modify (fun s => { s with notes := s.notes.add uid h.mid ((shareId s.list h.mid).getD 0) p })
      modify (fun s => s.change uid o (fun m => (m.addNewMail h (shareId s.list h.mid) true).2))
      forkRemovals (m.evicted h) uid
      pure true

def skip (uid mid : Nat) (mids : List Nat) : Co Log Unit := do
  note true (fun s => decide ((s.notes.player uid).phase = .adding (mid :: mids)))
  modify (fun s => { s with notes := s.notes.setPhase uid (.adding mids) })

def headAs (b : Body) (mid : Nat) : Head := { b.head with mid := mid }

/-- The mails of a load, one by one.  Recorded: nobody else came between. -/
def loadAll (uid o : Nat) : List Nat → Co Log Unit
  | [] => pure ()
  | mid :: mids => do
    let b ← lookUp mid
    (match b with
      | none => skip uid mid mids
      | some b => do
        let r ← (addNewMail uid o (headAs b mid) (fun s => decide (s.memList uid = some o) &&
          decide ((s.notes.player uid).phase = .adding (mid :: mids))) (.adding mids)).xpcall
        match r with
        | .ok true => pure ()
        | _ => skip uid mid mids : Co Log Unit)
    loadAll uid o mids

/-- `playerMail:loadShareMail`; `checkin` has no castle level for it, so 1 is taken.  Recorded: level 1 asks for what the
player's level asks for, and nobody else came between. -/
def loadShareMail (uid o curShareId : Nat) : Co Log Unit := do
  let s ← get
  if s.maxId ≤ curShareId then pure ()
  else
    modify (fun s => { s with notes := s.notes.setPhase uid (.reading curShareId) })
    let v ← serial .share (do
      let s ← get
      pure (loadMail s.list curShareId 1))
    note true (fun s => decide (s.memList uid = some o) && decide ((s.notes.player uid).phase = .reading curShareId) &&
      s.list.all (fun x => decide (x.id ≤ curShareId) ||
        decide (x.castleLv ≤ 1) == decide (x.castleLv ≤ (s.notes.player uid).level)))
    modify (fun s => { s with notes := s.notes.read uid v.2 v.1 })
    modify (fun s => s.alter o (fun m => { m with curShareId := max m.curShareId v.2 }))
    loadAll uid o v.1
    note true (fun s => decide (s.memList uid = some o) && decide ((s.notes.player uid).phase = .adding []))
    (if curShareId < v.2 ∨ v.1 ≠ [] then modify (fun s => s.change uid o id) else pure () : Co Log Unit)
    modify (fun s => { s with notes := s.notes.setPhase uid .idle })

def updateExpireTimer (uid o time : Nat) : Co Log Unit := do
  let s ← get
  match s.objs o with
  | none => .err "attempt to index a nil value (field 'data')"
  | some m =>
    if m.expired time = [] then pure ()
    else
      write uid o (fun m => m.updateExpireTimer time)
      forkRemovals ((m.expired time).map (fun r => (m.cells r).mid)) uid

/-- `playerMailMgr:checkin`, in the queue.  Recorded: the object is the player's and loaded, and no load is under way. -/
def checkinIn (uid o time : Nat) : Co Log Unit := do
  note true (fun s => decide (s.memList uid = some o) && (s.objs o).isSome && decide ((s.notes.player uid).phase = .idle))
  modify (fun s => { s with userOnline := uid :: s.userOnline.filter (fun u => decide (u ≠ uid)) })
  let s ← get
  match s.objs o with
  | none => .err "attempt to index a nil value (field 'data')"
  | some m =>
    if m.online then pure ()
    else
      modify (fun s => s.alter o (fun m => { m with online := true }))
      loadShareMail uid o m.curShareId
      updateExpireTimer uid o time

def checkin (uid time : Nat) : Co Log Unit := do
  let o ← getPlayerMail uid false
  match o with
  | some o => serial (.player uid) (checkinIn uid o time)
  | none => pure ()

/-- `playerMailMgr:afk`.  Recorded: the object is the player's, unless he has none any more. -/
def afk (uid : Nat) : Co Log Unit := do
  let o ← getPlayerMail uid true
  match o with
  | some o => serial (.player uid) (do
      note true (fun s => decide (s.memList uid = some o) || (s.memList uid).isNone)
      modify (fun s => ({ s with userOnline := s.userOnline.filter (fun u => decide (u ≠ uid)) }).alter o
        (fun m => { m with online := false })))
  | none => pure ()

/-- Recorded before a release: no load is under way. -/
def settled (uid : Nat) : Co Log Unit := note true (fun s => decide ((s.notes.player uid).phase = .idle))

/-- `playerMailMgr:addNewMail` of a shared mail.  Recorded: who is online has a mail, and the mail is the next one that the
player has to get. -/
def push (uid : Nat) (h : Head) : Co Log Unit := do
  let r ← (getPlayerMail uid false).xpcall
  note true (fun s => (match r with
    | .ok (some _) => true
    | _ => false) || decide (uid ∉ s.userOnline))
  let o ← raise r
  match o with
  | none => pure ()
  | some o =>
    let _ ← serial (.player uid) (addNewMail uid o h (fun s => decide (s.memList uid = some o) &&
      decide ((s.notes.player uid).phase = .idle) && decide (nextDue s uid o = some h.mid)) .idle)

/-- The push to the players online; `visit` is the order in which they are gone through. -/
def pushAll (h : Head) : List Nat → Co Log Unit
  | [] => pure ()
  | uid :: visit => do
    let s ← get
    (if uid ∈ s.userOnline then do
      let _ ← (push uid h).xpcall
    else pure () : Co Log Unit)
    modify (fun s => { s with notes := s.notes.setPend h.mid (some ((s.notes.pend h.mid).filter (fun u => decide (u ≠ uid)))) })
    pushAll h visit

structure Letter where
  settype : SetType
  cfgid : Nat
  extra : Option (List (Nat × Nat))
  expiretime : Nat

/-- `mailCenter:sendShareMail`.  Recorded: those online when it starts to push are visited. -/
def sendShareMail (x : Letter) (castleLv : Nat) (visit : List Nat) : Co Log Unit := do
  let r ← call .nextid
  if r = .no then pure ()
  else
    let s ← get
    let b : Body := ⟨s.nextMid, x.settype, x.cfgid, x.expiretime, x.extra, 1, []⟩
    note true (fun s => s.userOnline.all (fun u => decide (u ∈ visit)))
    modify (fun s => { s with notes := s.notes.send b.mid castleLv s.userOnline })
    modify (fun s => createMail (s.create b) b.mid castleLv x.expiretime)
    pushAll b.head visit
    modify (fun s => { s with notes := s.notes.setPend b.mid none })

/-- `shareMailMgr:updateExpireTimer` over the first `n` cells, from the last of them. -/
def expireFrom (time : Nat) : Nat → Co Log Unit
  | 0 => pure ()
  | n + 1 => do
    let s ← get
    (match s.list[n]? with
      | none => pure ()
      | some v =>
        if 0 < v.expiretime ∧ v.expiretime ≤ time then do
          modify (fun s => { s with list := s.list.eraseIdx n })
          remove v.mid none true
        else pure () : Co Log Unit)
    expireFrom time n

def expireShares (time : Nat) : Co Log Unit :=
  serial .share (do
    let s ← get
    expireFrom time s.list.length)

/-- The player's castle grows.  Recorded: it passes no listed mail that `curShareId` has passed. -/
def levelUp (uid n : Nat) : Co Log Unit := do
  note true (fun s => s.list.all (fun v => decide ((s.notes.player uid).mark < v.id) ||
    decide (v.castleLv ≤ (s.notes.player uid).level) || decide ((s.notes.player uid).level + n < v.castleLv)))
  modify (fun s => { s with notes := s.notes.set uid { s.notes.player uid with level := (s.notes.player uid).level + n } })

inductive Op where
  | sendShareMail (x : Letter) (castleLv : Nat) (visit : List Nat)
  | checkin (uid time : Nat)
  | afk (uid : Nat)
  | login (uid : Nat)
  | logout (uid : Nat)
  | release (uid : Nat)
  | expireShares (time : Nat)
  | runFork (mid uid : Nat)
  | releaseBody (mid : Nat)
  | expireSq (uid : Nat)
  | levelUp (uid n : Nat)

def Op.prog : Op → Co Log Unit
  | .sendShareMail x castleLv visit => Sharing.sendShareMail x castleLv visit
  | .checkin uid time => Sharing.checkin uid time
  | .afk uid => Sharing.afk uid
  | .login uid => Mail.login uid
  | .logout uid => Mail.logout (settled uid) uid
  | .release uid => releasePlayerMail (settled uid) uid
  | .expireShares time => Sharing.expireShares time
  | .runFork mid uid => Mail.runFork mid uid
  | .releaseBody mid => modify (fun s => s.uncache mid)
  | .expireSq uid => delSq uid
  | .levelUp uid n => Sharing.levelUp uid n

def shareSys : Sys (Svc Log) Line Req Reply Op Empty := ⟨Op.prog, fun _ _ => true, fun e => e.elim⟩

def storedMark (stored : Nat → Option Data) (uid : Nat) : Nat := (stored uid).elim 0 Data.curShareId

/-- A shared list with its ids and mail ids drawn in order, and players behind its last id. -/
structure Sensible (stored : Nat → Option Data) (l : List Share) (maxId nextMid : Nat) : Prop where
  sorted : (l.map Share.id).Pairwise (· < ·)
  ids : ∀ v ∈ l, v.id ≤ maxId
  mids : (l.map Share.mid).Nodup
  drawn : ∀ v ∈ l, v.mid < nextMid
  behind : ∀ uid, storedMark stored uid ≤ maxId

/-- The service at its start: nobody is online, and what a player met and has passed was added. -/
def opening (stored : Nat → Option Data) (bodies : Nat → Option Body) (l : List Share) (maxId nextMid : Nat)
    (level : Nat → Nat) : Svc Log where
  memList _ := none
  objs _ := none
  nextObj := 0
  userOnline := []
  stored := stored
  mailList _ := none
  bodies := bodies
  nextMid := nextMid
  maxId := maxId
  list := l
  forks := []
  notes :=
    { player := fun uid =>
        { level := level uid
          got := fun mid => if l.any (fun v => decide (v.mid = mid) && decide (v.id ≤ storedMark stored uid) &&
            decide (v.castleLv ≤ level uid)) then 1 else 0
          mark := storedMark stored uid
          phase := .idle }
      castleLv := fun mid => (l.find? (fun v => decide (v.mid = mid))).map Share.castleLv
      pushing := fun _ => none }

/-- **Shared mails are delivered once**: nobody gets one twice or below its castle level, and who is online and not just
checking in has every listed one that he meets and that is not being pushed. -/
structure Delivered (s : Svc Log) : Prop where
  once : ∀ uid mid, (s.notes.player uid).got mid ≤ 1
  met : ∀ uid mid, (s.notes.player uid).got mid ≠ 0 →
    ∃ c, s.notes.castleLv mid = some c ∧ c ≤ (s.notes.player uid).level
  whole : ∀ uid ∈ s.userOnline, (s.notes.player uid).phase = .idle → ∀ v ∈ s.list,
    v.castleLv ≤ (s.notes.player uid).level → s.notes.pushing v.mid = none → (s.notes.player uid).got v.mid = 1

/-- **A player's ledger and the shared list**: what is passed was added or is about to be, what is not passed was not. -/
structure Fair (l : List Share) (lv : Nat → Option Nat) (p : Ledger) : Prop where
  once : ∀ mid, p.got mid ≤ 1
  met : ∀ {mid}, p.got mid ≠ 0 → ∃ c, lv mid = some c ∧ c ≤ p.level
  seen : ∀ v ∈ l, p.got v.mid ≠ 0 → v.id ≤ p.mark
  covered : ∀ v ∈ l, v.id ≤ p.mark → v.castleLv ≤ p.level → p.got v.mid = 1 ∨ v.mid ∈ p.phase.todo
  nodup : p.phase.todo.Nodup
  todo : ∀ {mid}, mid ∈ p.phase.todo → p.got mid = 0 ∧ (∃ c, lv mid = some c ∧ c ≤ p.level) ∧
    ∀ v ∈ l, v.mid = mid → v.id ≤ p.mark
  reading : ∀ {cur}, p.phase = .reading cur → p.mark = cur

section Fair

variable {l : List Share} {lv : Nat → Option Nat} {p : Ledger}

theorem Fair.shrink (h : Fair l lv p) {l' : List Share} (hl : ∀ v ∈ l', v ∈ l) : Fair l' lv p :=
  ⟨h.once, h.met, fun v hv => h.seen v (hl v hv), fun v hv => h.covered v (hl v hv), h.nodup,
    fun hm => ⟨(h.todo hm).1, (h.todo hm).2.1, fun v hv => (h.todo hm).2.2 v (hl v hv)⟩, h.reading⟩

theorem Fair.create (h : Fair l lv p) {v : Share} (hfresh : lv v.mid = none) (hid : p.mark < v.id) :
    Fair (l ++ [v]) (Function.update lv v.mid (some v.castleLv)) p := by
  have hlv : ∀ {mid c}, lv mid = some c → Function.update lv v.mid (some v.castleLv) mid = some c := by
    intro mid c hc
    have hne : mid ≠ v.mid := by
      rintro rfl
      rw [hfresh] at hc
      cases hc
    rw [Function.update_of_ne hne, hc]
  have hgot : p.got v.mid = 0 := by
    by_contra hg
    obtain ⟨c, hc, -⟩ := h.met hg
    rw [hfresh] at hc
    cases hc
  have hup : ∀ {mid}, (∃ c, lv mid = some c ∧ c ≤ p.level) →
      ∃ c, Function.update lv v.mid (some v.castleLv) mid = some c ∧ c ≤ p.level := by
    rintro mid ⟨c, hc, hle⟩
    exact ⟨c, hlv hc, hle⟩
  refine ⟨h.once, fun hg => hup (h.met hg), fun w hw hg => ?_, fun w hw hm hc => ?_, h.nodup, fun hm => ?_, h.reading⟩
  · rcases List.mem_append.1 hw with hw | hw
    · exact h.seen w hw hg
    · rw [List.mem_singleton.1 hw] at hg
      exact absurd hgot hg
  · rcases List.mem_append.1 hw with hw | hw
    · exact h.covered w hw hm hc
    · rw [List.mem_singleton.1 hw] at hm
      omega
  · obtain ⟨hg, hex, hall⟩ := h.todo hm
    refine ⟨hg, hup hex, fun w hw he => ?_⟩
    rcases List.mem_append.1 hw with hw | hw
    · exact hall w hw he
    · obtain ⟨c, hc, -⟩ := hex
      rw [List.mem_singleton.1 hw] at he
      rw [← he, hfresh] at hc
      cases hc

theorem got_add (p : Ledger) (mid n : Nat) :
    Function.update p.got mid (p.got mid + 1) n = if n = mid then p.got mid + 1 else p.got n := by
  by_cases hn : n = mid
  · subst hn
    simp
  · simp [hn]

theorem Fair.push (h : Fair l lv p) (hids : (l.map Share.id).Nodup) (hmids : (l.map Share.mid).Nodup)
    (hmade : ∀ v ∈ l, lv v.mid = some v.castleLv) (hidle : p.phase = .idle)
    {v : Share} (hv : v ∈ l) (hid : p.mark < v.id) (hlevel : v.castleLv ≤ p.level)
    (hfirst : ∀ w ∈ l, p.mark < w.id → w.castleLv ≤ p.level → v.id ≤ w.id) :
    Fair l lv { p with got := Function.update p.got v.mid (p.got v.mid + 1), mark := max p.mark v.id } := by
  have hzero : p.got v.mid = 0 := by
    by_contra hg
    have := h.seen v hv hg
    omega
  have hsame : ∀ w ∈ l, w.mid = v.mid → w = v := fun w hw he => List.inj_on_of_nodup_map hmids hw hv he
  have hmark : max p.mark v.id = v.id := by omega
  refine ⟨fun mid => ?_, fun {mid} hg => ?_, fun w hw hg => ?_, fun w hw hm hc => ?_, ?_, fun {mid} hm => ?_, fun hr => ?_⟩
  · show Function.update p.got v.mid (p.got v.mid + 1) mid ≤ 1
    rw [got_add]
    split
    · omega
    · exact h.once mid
  · have hg' : Function.update p.got v.mid (p.got v.mid + 1) mid ≠ 0 := hg
    rw [got_add] at hg'
    split at hg'
    · rename_i he
      rw [he]
      exact ⟨_, hmade v hv, hlevel⟩
    · exact h.met hg'
  · have hg' : Function.update p.got v.mid (p.got v.mid + 1) w.mid ≠ 0 := hg
    show w.id ≤ max p.mark v.id
    rw [got_add] at hg'
    split at hg'
    · rename_i he
      rw [hsame w hw he]
      omega
    · have := h.seen w hw hg'
      omega
  · left
    show Function.update p.got v.mid (p.got v.mid + 1) w.mid = 1
    have hm' : w.id ≤ max p.mark v.id := hm
    rw [got_add]
    split
    · omega
    · rename_i hne
      have hle : w.id ≤ p.mark := by
        by_contra hgt
        have hge := hfirst w hw (by omega) hc
        have hwv : w.id = v.id := by omega
        exact hne (by rw [List.inj_on_of_nodup_map hids hw hv hwv])
      rcases h.covered w hw hle hc with hg | hg
      · exact hg
      · rw [hidle] at hg
        cases hg
  · show p.phase.todo.Nodup
    exact h.nodup
  · have hm' : mid ∈ p.phase.todo := hm
    rw [hidle] at hm'
    cases hm'
  · have hr' : p.phase = _ := hr
    rw [hidle] at hr'
    cases hr'

theorem Fair.start (h : Fair l lv p) (hidle : p.phase = .idle) : Fair l lv { p with phase := .reading p.mark } := by
  refine ⟨h.once, h.met, h.seen, fun v hv hm hc => ?_, .nil, nofun, fun hr => ?_⟩
  · have hold := h.covered v hv hm hc
    rw [hidle] at hold
    exact hold
  · cases hr
    rfl

theorem Fair.finish (h : Fair l lv p) (hdone : p.phase = .adding []) : Fair l lv { p with phase := .idle } := by
  refine ⟨h.once, h.met, h.seen, fun v hv hm hc => ?_, .nil, nofun, nofun⟩
  have hold := h.covered v hv hm hc
  rw [hdone] at hold
  exact hold

theorem mem_loadMail {mid cur n : Nat} : mid ∈ (loadMail l cur n).1 ↔ ∃ v ∈ l, cur < v.id ∧ v.castleLv ≤ n ∧
    v.mid = mid := by
  simp [loadMail, and_assoc]

theorem le_loadMail : ∀ (l : List Share) (cur n : Nat), cur ≤ (loadMail l cur n).2 ∧ ∀ v ∈ l, v.id ≤ (loadMail l cur n).2
  | [], cur, n => ⟨Nat.le_refl _, nofun⟩
  | v :: l, cur, n => by
    obtain ⟨hcur, hall⟩ := le_loadMail l (max cur v.id) n
    have hcur' : max cur v.id ≤ (loadMail (v :: l) cur n).2 := hcur
    refine ⟨by omega, fun w hw => ?_⟩
    rcases List.mem_cons.1 hw with rfl | hw
    · omega
    · exact hall w hw

theorem loadMail_le : ∀ (l : List Share) (cur n : Nat) {top : Nat}, cur ≤ top → (∀ v ∈ l, v.id ≤ top) →
    (loadMail l cur n).2 ≤ top
  | [], _, _, _, hcur, _ => hcur
  | v :: l, cur, n, top, hcur, hl => by
    have hv := hl v List.mem_cons_self
    exact loadMail_le l (max cur v.id) n (by omega) (fun w hw => hl w (List.mem_cons_of_mem v hw))

/-- **The shared list is read**: what it has beyond the mark is passed now and to be added. -/
theorem Fair.read (h : Fair l lv p) (hmids : (l.map Share.mid).Nodup) (hmade : ∀ v ∈ l, lv v.mid = some v.castleLv)
    {cur : Nat}
    (hphase : p.phase = .reading cur) (hasks : ∀ v ∈ l, cur < v.id → (v.castleLv ≤ 1 ↔ v.castleLv ≤ p.level)) :
    Fair l lv { p with mark := max p.mark (loadMail l cur 1).2, phase := .adding (loadMail l cur 1).1 } := by
  obtain rfl : p.mark = cur := h.reading hphase
  obtain ⟨-, hlast⟩ := le_loadMail l p.mark 1
  refine ⟨h.once, h.met, fun v hv hg => ?_, fun v hv _ hc => ?_, ?_, fun {mid} hm => ?_, nofun⟩
  · have := hlast v hv
    exact Nat.le_trans this (Nat.le_max_right _ _)
  · by_cases hle : v.id ≤ p.mark
    · rcases h.covered v hv hle hc with hg | hg
      · exact .inl hg
      · rw [hphase] at hg
        cases hg
    · right
      have hgt : p.mark < v.id := Nat.lt_of_not_le hle
      exact mem_loadMail.2 ⟨v, hv, hgt, (hasks v hv hgt).2 hc, rfl⟩
  · exact hmids.sublist (List.filter_sublist.map Share.mid)
  · obtain ⟨v, hv, hgt, hlow, rfl⟩ := mem_loadMail.1 hm
    refine ⟨?_, ⟨_, hmade v hv, (hasks v hv hgt).1 hlow⟩, fun w hw he => ?_⟩
    · by_contra hg
      have := h.seen v hv hg
      omega
    · exact Nat.le_trans (hlast w hw) (Nat.le_max_right _ _)

theorem Fair.take (h : Fair l lv p) {mid id : Nat} {mids : List Nat} (hphase : p.phase = .adding (mid :: mids))
    (hid : id ≤ p.mark) :
    Fair l lv { p with got := Function.update p.got mid (p.got mid + 1), mark := max p.mark id, phase := .adding mids } :=
      by
  have hmem : mid ∈ p.phase.todo := by
    rw [hphase]
    exact List.mem_cons_self
  have hnodup : (mid :: mids).Nodup := by
    have := h.nodup
    rw [hphase] at this
    exact this
  obtain ⟨hzero, hex, hpast⟩ := h.todo hmem
  have hmark : max p.mark id = p.mark := by omega
  rw [hmark]
  refine ⟨fun n => ?_, fun {n} hg => ?_, fun v hv hg => ?_, fun v hv hm hc => ?_, (List.nodup_cons.1 hnodup).2,
    fun {n} hn => ?_,
    nofun⟩
  · show Function.update p.got mid (p.got mid + 1) n ≤ 1
    rw [got_add]
    split
    · omega
    · exact h.once n
  · have hg' : Function.update p.got mid (p.got mid + 1) n ≠ 0 := hg
    rw [got_add] at hg'
    split at hg'
    · rename_i he
      rw [he]
      exact hex
    · exact h.met hg'
  · have hg' : Function.update p.got mid (p.got mid + 1) v.mid ≠ 0 := hg
    rw [got_add] at hg'
    split at hg'
    · rename_i he
      exact hpast v hv he
    · exact h.seen v hv hg'
  · show Function.update p.got mid (p.got mid + 1) v.mid = 1 ∨ _
    rw [got_add]
    split
    · left
      omega
    · rename_i hne
      rcases h.covered v hv hm hc with hg | hg
      · exact .inl hg
      · rw [hphase] at hg
        exact .inr ((List.mem_cons.1 hg).resolve_left hne)
  · have hin : n ∈ p.phase.todo := by
      rw [hphase]
      exact List.mem_cons_of_mem mid hn
    have hne : n ≠ mid := by
      rintro rfl
      exact (List.nodup_cons.1 hnodup).1 hn
    obtain ⟨hg, hrest⟩ := h.todo hin
    refine ⟨?_, hrest⟩
    show Function.update p.got mid (p.got mid + 1) n = 0
    rw [got_add, if_neg hne]
    exact hg

theorem Fair.skip (h : Fair l lv p) {mid : Nat} {mids : List Nat} (hphase : p.phase = .adding (mid :: mids))
    (hgone : ∀ v ∈ l, v.mid ≠ mid) : Fair l lv { p with phase := .adding mids } := by
  have hsub : ∀ {n}, n ∈ mids → n ∈ p.phase.todo := by
    intro n hn
    rw [hphase]
    exact List.mem_cons_of_mem mid hn
  have hnodup : (mid :: mids).Nodup := by
    have := h.nodup
    rw [hphase] at this
    exact this
  refine ⟨h.once, h.met, h.seen, fun v hv hm hc => ?_, (List.nodup_cons.1 hnodup).2, fun hn => h.todo (hsub hn), nofun⟩
  rcases h.covered v hv hm hc with hg | hg
  · exact .inl hg
  · rw [hphase] at hg
    exact .inr ((List.mem_cons.1 hg).resolve_left (hgone v hv))

theorem Fair.levelUp (h : Fair l lv p) {n : Nat}
    (hpast : ∀ v ∈ l, v.id ≤ p.mark → v.castleLv ≤ p.level + n → v.castleLv ≤ p.level) :
    Fair l lv { p with level := p.level + n } := by
  have hup : ∀ {mid}, (∃ c, lv mid = some c ∧ c ≤ p.level) → ∃ c, lv mid = some c ∧ c ≤ p.level + n := by
    rintro mid ⟨c, hc, hle⟩
    exact ⟨c, hc, Nat.le_trans hle (Nat.le_add_right _ _)⟩
  refine ⟨h.once, fun hg => hup (h.met hg), h.seen, fun v hv hm hc => h.covered v hv hm (hpast v hv hm hc),
    h.nodup, fun hm => ?_,
    h.reading⟩
  obtain ⟨hg, hex, hall⟩ := h.todo hm
  exact ⟨hg, hup hex, hall⟩

end Fair

/-- **The shared list and what is recorded**: its ids are drawn in order, every ledger is fair, and who is online and has
read the list has passed every listed mail or is still to be visited with it. -/
structure Shared (l : List Share) (maxId nextMid : Nat) (online : List Nat) (g : Log) : Prop where
  sorted : (l.map Share.id).Pairwise (· < ·)
  ids : ∀ v ∈ l, v.id ≤ maxId
  mids : (l.map Share.mid).Nodup
  made : ∀ v ∈ l, g.castleLv v.mid = some v.castleLv
  fresh : ∀ {mid}, nextMid ≤ mid → g.castleLv mid = none
  fair : ∀ uid, Fair l g.castleLv (g.player uid)
  behind : ∀ uid, (g.player uid).mark ≤ maxId
  reached : ∀ {uid v}, uid ∈ online → (∀ cur, (g.player uid).phase ≠ .reading cur) → v ∈ l →
    v.id ≤ (g.player uid).mark ∨ uid ∈ g.pend v.mid

section Shared

variable {l : List Share} {maxId nextMid : Nat} {online : List Nat} {g : Log}

theorem Shared.nodupIds (h : Shared l maxId nextMid online g) : (l.map Share.id).Nodup :=
  h.sorted.imp (fun hlt => Nat.ne_of_lt hlt)

theorem Shared.shrink (h : Shared l maxId nextMid online g) {l' : List Share} (hl : l'.Sublist l) :
    Shared l' maxId nextMid online g where
  sorted := h.sorted.sublist (hl.map Share.id)
  ids v hv := h.ids v (hl.subset hv)
  mids := h.mids.sublist (hl.map Share.mid)
  made v hv := h.made v (hl.subset hv)
  fresh := h.fresh
  fair uid := (h.fair uid).shrink (fun _ hv => hl.subset hv)
  behind := h.behind
  reached hu hr hv := h.reached hu hr (hl.subset hv)

theorem Shared.create (h : Shared l maxId nextMid online g) (castleLv expiretime : Nat) :
    Shared (l ++ [⟨maxId + 1, nextMid, castleLv, expiretime⟩]) (maxId + 1) (nextMid + 1) online
      (g.send nextMid castleLv online) := by
  have hfresh : g.castleLv nextMid = none := h.fresh (Nat.le_refl _)
  have hne : ∀ v ∈ l, v.mid ≠ nextMid := by
    intro v hv he
    have hmade := h.made v hv
    rw [he, hfresh] at hmade
    cases hmade
  refine ⟨?_, fun v hv => ?_, ?_, fun v hv => ?_, fun {mid} hm => ?_, fun uid => ?_, fun uid => ?_,
    fun {uid v} hu hr hv => ?_⟩
  · rw [List.map_append]
    refine List.pairwise_append.2 ⟨h.sorted, List.pairwise_singleton _ _, fun i hi j hj => ?_⟩
    obtain ⟨v, hv, rfl⟩ := List.mem_map.1 hi
    rw [List.mem_singleton.1 hj]
    exact Nat.lt_succ_of_le (h.ids v hv)
  · rcases List.mem_append.1 hv with hv | hv
    · exact Nat.le_succ_of_le (h.ids v hv)
    · exact Nat.le_of_eq (congrArg Share.id (List.mem_singleton.1 hv))
  · rw [List.map_append]
    refine List.Nodup.append h.mids (List.nodup_singleton _) (fun i hi hj => ?_)
    obtain ⟨v, hv, rfl⟩ := List.mem_map.1 hi
    exact hne v hv (List.mem_singleton.1 hj)
  · rcases List.mem_append.1 hv with hv | hv
    · simpa [Log.send, hne v hv] using h.made v hv
    · rw [List.mem_singleton.1 hv]
      simp [Log.send]
  · have hmid : mid ≠ nextMid := by omega
    simpa [Log.send, hmid] using h.fresh (Nat.le_of_succ_le hm)
  · exact (h.fair uid).create (v := ⟨maxId + 1, nextMid, castleLv, expiretime⟩) hfresh (Nat.lt_succ_of_le (h.behind uid))
  · exact Nat.le_succ_of_le (h.behind uid)
  · show v.id ≤ (g.player uid).mark ∨ uid ∈ (g.setPend nextMid (some online)).pend v.mid
    rcases List.mem_append.1 hv with hv | hv
    · rcases h.reached hu hr hv with hle | hp
      · exact .inl hle
      · right
        simpa [Log.pend, Log.setPend, hne v hv] using hp
    · right
      rw [List.mem_singleton.1 hv]
      simpa [Log.pend, Log.setPend] using hu

theorem Shared.set (h : Shared l maxId nextMid online g) {uid : Nat} {p : Ledger} (hfair : Fair l g.castleLv p)
    (hmark : (g.player uid).mark ≤ p.mark) (hmax : p.mark ≤ maxId)
    (hread : (∀ cur, p.phase ≠ .reading cur) → (∀ cur, (g.player uid).phase ≠ .reading cur) ∨ ∀ v ∈ l, v.id ≤ p.mark) :
    Shared l maxId nextMid online (g.set uid p) where
  sorted := h.sorted
  ids := h.ids
  mids := h.mids
  made := h.made
  fresh := h.fresh
  fair u := by
    by_cases hu : u = uid
    · subst hu
      simpa [Log.set] using hfair
    · simpa [Log.set, hu] using h.fair u
  behind u := by
    by_cases hu : u = uid
    · subst hu
      simpa [Log.set] using hmax
    · simpa [Log.set, hu] using h.behind u
  reached {u v} hu hr hv := by
    by_cases he : u = uid
    · subst he
      have hr' : ∀ cur, p.phase ≠ .reading cur := by simpa [Log.set] using hr
      show v.id ≤ ((g.set u p).player u).mark ∨ u ∈ g.pend v.mid
      have hp : (g.set u p).player u = p := by simp [Log.set]
      rw [hp]
      rcases hread hr' with hr'' | hall
      · exact (h.reached hu hr'' hv).imp (fun hle => Nat.le_trans hle hmark) id
      · exact .inl (hall v hv)
    · have hp : (g.set uid p).player u = g.player u := by simp [Log.set, he]
      rw [hp] at hr ⊢
      exact h.reached hu hr hv

theorem Shared.enter (h : Shared l maxId nextMid online g) {online' : List Nat}
    (hon : ∀ u ∈ online', u ∈ online ∨ (∃ cur, (g.player u).phase = .reading cur) ∨ ∀ v ∈ l, v.id ≤ (g.player u).mark) :
    Shared l maxId nextMid online' g where
  sorted := h.sorted
  ids := h.ids
  mids := h.mids
  made := h.made
  fresh := h.fresh
  fair := h.fair
  behind := h.behind
  reached {u v} hu hr hv := by
    rcases hon u hu with hu' | ⟨cur, hcur⟩ | hall
    · exact h.reached hu' hr hv
    · exact absurd hcur (hr cur)
    · exact .inl (hall v hv)

theorem Shared.setPend (h : Shared l maxId nextMid online g) {mid : Nat} {us : Option (List Nat)}
    (hus : ∀ u ∈ online, (∀ cur, (g.player u).phase ≠ .reading cur) → u ∈ g.pend mid → u ∉ us.getD [] →
      ∀ v ∈ l, v.mid = mid → v.id ≤ (g.player u).mark) : Shared l maxId nextMid online (g.setPend mid us) where
  sorted := h.sorted
  ids := h.ids
  mids := h.mids
  made := h.made
  fresh := h.fresh
  fair := h.fair
  behind := h.behind
  reached {u v} hu hr hv := by
    show v.id ≤ (g.player u).mark ∨ u ∈ (g.setPend mid us).pend v.mid
    rcases h.reached hu hr hv with hle | hp
    · exact .inl hle
    · by_cases he : v.mid = mid
      · by_cases hin : u ∈ us.getD []
        · right
          simpa [Log.pend, Log.setPend, he] using hin
        · exact .inl (hus u hu hr (he ▸ hp) hin v hv he)
      · right
        simpa [Log.pend, Log.setPend, he] using hp

end Shared

end Sharing
end Mail
end Sncpp
