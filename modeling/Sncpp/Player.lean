import Mathlib.Data.List.Nodup
import Sncpp.CoRely
/-!
# Player — push messages across a disconnect (`player`)

The agent of a player writes a push message to the player's socket, keeps it while there is no socket, and writes what
it kept when the gate gives it the next one.  A `checkin` within thirty seconds of the disconnect answers `isInit =
false`, and the client relies on getting every message; a later one answers `isInit = true`, and the client starts
anew.
-/
namespace Sncpp
namespace Player

open Co (Prog Sys Pact Vow Abides)
open Co.Prog (get modify note ask serial)

structure Svc where
  now : Nat
  fd : Option Nat
  online : Option Bool
  afkTime : Option Nat
  msgNotify : List Nat
  /-- the number of calls of `notifyMsg` so far -/
  count : Nat
  /-- what was written to the socket in use -/
  sock : List Nat
  /-- the number of calls before the last disconnect -/
  since : Nat
  /-- the number of calls before the last checkin -/
  base : Nat
  /-- the answer of the last checkin -/
  answer : Option Bool
  /-- a socket was set since the last checkin, and is in use -/
  live : Bool
deriving DecidableEq

def Svc.start : Svc := ⟨0, none, none, none, [], 0, [], 0, 0, none, false⟩

def Svc.socket (s : Svc) : Bool :=
  match s.fd with
  | some fd => decide (0 < fd)
  | none => false

def Svc.waiting (s : Svc) : Bool :=
  match s.afkTime with
  | some t => decide (0 < t) && decide (s.now < t)
  | none => false

abbrev Co (α : Type) : Type := Prog Svc Unit Unit Unit α

def Svc.notifyMsg (s : Svc) : Svc :=
  match s.online with
  | none => { s with count := s.count + 1 }
  | some true =>
    if s.socket then { s with count := s.count + 1, sock := s.sock ++ [s.count] }
    else { s with count := s.count + 1, msgNotify := s.msgNotify ++ [s.count] }
  | some false =>
    if s.fd = none ∧ s.waiting then
      if 5000 < (s.msgNotify ++ [s.count]).length then { s with count := s.count + 1, afkTime := none, msgNotify := [] }
      else { s with count := s.count + 1, msgNotify := s.msgNotify ++ [s.count] }
    else { s with count := s.count + 1 }

def Svc.enter (s : Svc) (isInit : Bool) : Svc :=
  { s with online := some true, afkTime := some 0, answer := some isInit, base := s.count, live := false }

def checkin : Co Bool :=
  serial () (do
    let s ← get
    let isInit := !s.waiting
    note true (fun s => !isInit || s.msgNotify.isEmpty)
    modify (fun s => s.enter isInit)
    let _ ← ask ()
    pure isInit)

/-- What `afk` sets, after its own push message. -/
def Svc.leave (s : Svc) : Svc :=
  { s with
    fd := none
    online := some false
    afkTime := if s.afkTime = some 0 then some (s.now + 30) else s.afkTime
    since := if s.online = some true then s.count else s.since
    live := false }

def afk (flag : Bool) : Co Unit :=
  serial () (do
    let s ← get
    Prog.when (decide (s.online = some true) && flag) (modify Svc.notifyMsg)
    modify Svc.leave
    let _ ← ask ())

def Svc.connect (s : Svc) (fd : Nat) : Svc :=
  if 0 < fd then { s with fd := some fd, sock := s.msgNotify, msgNotify := [], live := true }
  else { s with fd := some fd, sock := [], live := false }

def setFd (fd : Nat) : Co Unit := do
  note true (fun s => decide (s.online = some true) && !s.live)
  modify (fun s => s.connect fd)

inductive Op where
  | checkin
  | afk (flag : Bool)
  | setFd (fd : Nat)
  | notifyMsg

def Op.prog : Op → Co Unit
  | .checkin => do
    let _ ← Player.checkin
  | .afk flag => Player.afk flag
  | .setFd fd => Player.setFd fd
  | .notifyMsg => modify Svc.notifyMsg

def playerSys : Sys Svc Unit Unit Unit Op Nat := ⟨Op.prog, fun _ _ => true, fun n s => { s with now := s.now + n }⟩

def Svc.recent (s : Svc) : List Nat := List.range' s.since (s.count - s.since)

/-- **Push messages arrive**: after a checkin that answered `isInit = false`, the socket set then has got the calls since
the disconnect, each once and in order; after one that answered `isInit = true`, it has got nothing from before the
checkin. -/
structure Delivered (s : Svc) : Prop where
  resumed : s.live = true → s.answer = some false → s.sock.filter (fun i => decide (s.since ≤ i)) = s.recent
  fresh : s.live = true → s.answer = some true → ∀ i ∈ s.sock, s.base ≤ i

structure Kept (s : Svc) : Prop where
  delivered : Delivered s
  since_le : s.since ≤ s.count
  base_le : s.base ≤ s.count
  below : ∀ i ∈ s.msgNotify, i < s.count
  clock : s.afkTime = some 0 ↔ s.online = some true
  unset : s.online = none → s.afkTime = none
  noSocket : s.online = some false → s.fd = none
  liveSocket : s.live = true → s.online = some true ∧ s.socket = true ∧ s.msgNotify = []
  buffered : s.online = some false → s.waiting = true → s.msgNotify.filter (fun i => decide (s.since ≤ i)) = s.recent
  pending : s.online = some true → s.live = false → s.answer = some false →
    s.socket = false ∧ s.msgNotify.filter (fun i => decide (s.since ≤ i)) = s.recent
  anew : s.online = some true → s.answer = some true → ∀ i ∈ s.msgNotify, s.base ≤ i

theorem recent_notify {s : Svc} (h : s.since ≤ s.count) :
    List.range' s.since (s.count + 1 - s.since) = s.recent ++ [s.count] := by
  unfold Svc.recent
  rw [Nat.sub_add_comm h, List.range'_1_concat, Nat.add_sub_cancel' h]

theorem filter_notify {s : Svc} (h : s.since ≤ s.count) {l : List Nat}
    (hl : l.filter (fun i => decide (s.since ≤ i)) = s.recent) :
    (l ++ [s.count]).filter (fun i => decide (s.since ≤ i)) = List.range' s.since (s.count + 1 - s.since) := by
  rw [recent_notify h, List.filter_append, hl]
  simp [h]

theorem kept_start : Kept .start where
  delivered := ⟨nofun, nofun⟩
  since_le := Nat.le_refl 0
  base_le := Nat.le_refl 0
  below := nofun
  clock := ⟨nofun, nofun⟩
  unset _ := rfl
  noSocket := nofun
  liveSocket := nofun
  buffered := nofun
  pending := nofun
  anew := nofun

theorem Kept.write {s : Svc} (h : Kept s) (hon : s.online = some true) (hsock : s.socket = true) :
    Kept { s with count := s.count + 1, sock := s.sock ++ [s.count] } where
  delivered := by
    refine ⟨fun hl ha => filter_notify h.since_le (h.delivered.resumed hl ha), fun hl ha i hi => ?_⟩
    obtain hi | hi := List.mem_append.1 hi
    · exact h.delivered.fresh hl ha i hi
    · rw [List.mem_singleton.1 hi]
      exact h.base_le
  since_le := Nat.le_succ_of_le h.since_le
  base_le := Nat.le_succ_of_le h.base_le
  below i hi := Nat.lt_succ_of_lt (h.below i hi)
  clock := h.clock
  unset := h.unset
  noSocket := h.noSocket
  liveSocket := h.liveSocket
  buffered hoff := by
    rw [show s.online = some false from hoff] at hon
    cases hon
  pending hon' hl ha := by
    have hno : s.socket = false := (h.pending hon' hl ha).1
    rw [hsock] at hno
    cases hno
  anew := h.anew

theorem Kept.keep {s : Svc} (h : Kept s) (hno : s.socket = false) (hw : s.online = some false → s.waiting = true) :
    Kept { s with count := s.count + 1, msgNotify := s.msgNotify ++ [s.count] } where
  delivered := by
    refine ⟨fun hl => ?_, fun hl => ?_⟩ <;>
    · have hs := (h.liveSocket hl).2.1
      rw [hno] at hs
      cases hs
  since_le := Nat.le_succ_of_le h.since_le
  base_le := Nat.le_succ_of_le h.base_le
  below i hi := by
    obtain hi | hi := List.mem_append.1 hi
    · exact Nat.lt_succ_of_lt (h.below i hi)
    · rw [List.mem_singleton.1 hi]
      exact Nat.lt_succ_self _
  clock := h.clock
  unset := h.unset
  noSocket := h.noSocket
  liveSocket hl := by
    have hs := (h.liveSocket hl).2.1
    rw [hno] at hs
    cases hs
  buffered hoff _ := filter_notify h.since_le (h.buffered hoff (hw hoff))
  pending hon hl ha := ⟨hno, filter_notify h.since_le (h.pending hon hl ha).2⟩
  anew hon ha i hi := by
    obtain hi | hi := List.mem_append.1 hi
    · exact h.anew hon ha i hi
    · rw [List.mem_singleton.1 hi]
      exact h.base_le

theorem Kept.lose {s : Svc} (h : Kept s) (hon : s.online ≠ some true) {a : Option Nat} {l : List Nat}
    (ha : a = s.afkTime ∨ a = none) (hw : s.online = some false → { s with afkTime := a }.waiting = false)
    (hl : ∀ i ∈ l, i ∈ s.msgNotify) : Kept { s with count := s.count + 1, afkTime := a, msgNotify := l } where
  delivered := ⟨fun hl => absurd (h.liveSocket hl).1 hon, fun hl => absurd (h.liveSocket hl).1 hon⟩
  since_le := Nat.le_succ_of_le h.since_le
  base_le := Nat.le_succ_of_le h.base_le
  below i hi := Nat.lt_succ_of_lt (h.below i (hl i hi))
  clock := by
    refine ⟨fun h0 => ?_, fun hon' => absurd hon' hon⟩
    obtain rfl | rfl := ha
    · exact h.clock.1 h0
    · cases h0
  unset hnone := by
    obtain rfl | rfl := ha
    · exact h.unset hnone
    · rfl
  noSocket := h.noSocket
  liveSocket hl := absurd (h.liveSocket hl).1 hon
  buffered hoff hwait := by
    have hno := (hw hoff).symm.trans hwait
    cases hno
  pending hon' := absurd hon' hon
  anew hon' := absurd hon' hon

theorem Kept.notifyMsg {s : Svc} (h : Kept s) : Kept s.notifyMsg := by
  unfold Svc.notifyMsg
  split
  · rename_i hon
    exact h.lose (a := s.afkTime) (by simp [hon]) (.inl rfl) (by simp [hon]) (fun _ hi => hi)
  · rename_i hon
    split
    · rename_i hsock
      exact h.write hon hsock
    · rename_i hsock
      exact h.keep (by simpa using hsock) (by simp [hon])
  · rename_i hoff
    have hfd := h.noSocket hoff
    have hno : s.socket = false := by simp [Svc.socket, hfd]
    split
    · rename_i hw
      split
      · exact h.lose (a := none) (by simp [hoff]) (.inr rfl) (fun _ => rfl) nofun
      · exact h.keep hno (fun _ => hw.2)
    · rename_i hw
      have hout : s.waiting = false := by simpa [hfd] using hw
      exact h.lose (a := s.afkTime) (by simp [hoff]) (.inl rfl) (fun _ => hout) (fun _ hi => hi)

theorem Kept.waiting_offline {s : Svc} (h : Kept s) (hw : s.waiting = true) : s.online = some false := by
  match hon : s.online with
  | none => simp [Svc.waiting, h.unset hon] at hw
  | some true => simp [Svc.waiting, h.clock.2 hon] at hw
  | some false => rfl

theorem Kept.enter {s : Svc} (h : Kept s) (hnote : s.waiting = true ∨ s.msgNotify = []) : Kept (s.enter (!s.waiting)) where
  delivered := ⟨nofun, nofun⟩
  since_le := h.since_le
  base_le := Nat.le_refl _
  below := h.below
  clock := ⟨fun _ => rfl, fun _ => rfl⟩
  unset := nofun
  noSocket := nofun
  liveSocket := nofun
  buffered := nofun
  pending _ _ ha := by
    have hw : s.waiting = true := by simpa [Svc.enter] using ha
    have hoff : s.online = some false := h.waiting_offline hw
    refine ⟨?_, h.buffered hoff hw⟩
    simp [Svc.enter, Svc.socket, h.noSocket hoff]
  anew _ ha i hi := by
    have hw : s.waiting = false := by simpa [Svc.enter] using ha
    have hnil : s.msgNotify = [] := by simpa [hw] using hnote
    rw [show (s.enter (!s.waiting)).msgNotify = [] from hnil] at hi
    cases hi

theorem Kept.leave {s : Svc} (h : Kept s) : Kept s.leave where
  delivered := ⟨nofun, nofun⟩
  since_le := by
    show (if _ then _ else _) ≤ s.count
    split
    · exact Nat.le_refl _
    · exact h.since_le
  base_le := h.base_le
  below := h.below
  clock := by
    refine ⟨fun h0 => ?_, nofun⟩
    by_cases hz : s.afkTime = some 0
    · simp [Svc.leave, hz] at h0
    · simp [Svc.leave, hz] at h0
  unset := nofun
  noSocket _ := rfl
  liveSocket := nofun
  buffered _ hw := by
    by_cases hon : s.online = some true
    · -- nothing is recent yet
      have hnil : s.msgNotify.filter (fun i => decide (s.count ≤ i)) = [] := by
        refine List.filter_eq_nil_iff.2 (fun i hi => ?_)
        have := h.below i hi
        simpa using this
      simpa [Svc.leave, Svc.recent, hon] using hnil
    · have htime : s.afkTime ≠ some 0 := fun hz => hon (h.clock.1 hz)
      have hw' : s.waiting = true := by simpa [Svc.waiting, Svc.leave, htime] using hw
      have hold := h.buffered (h.waiting_offline hw') hw'
      simpa [Svc.leave, Svc.recent, hon] using hold
  pending := nofun
  anew := nofun

/-- **A socket set while the player is online keeps the invariant**, if none was set since the checkin. -/
theorem Kept.connect {s : Svc} (h : Kept s) (hon : s.online = some true) (hl : s.live = false) (fd : Nat) :
    Kept (s.connect fd) := by
  have hoff : s.online ≠ some false := by simp [hon]
  unfold Svc.connect
  split
  · rename_i hpos
    exact {
      delivered := ⟨fun _ ha => (h.pending hon hl ha).2, fun _ ha => h.anew hon ha⟩
      since_le := h.since_le
      base_le := h.base_le
      below := nofun
      clock := h.clock
      unset := h.unset
      noSocket := fun hoff' => absurd hoff' hoff
      liveSocket := fun _ => ⟨hon, by simpa [Svc.socket] using hpos, rfl⟩
      buffered := fun hoff' => absurd hoff' hoff
      pending := nofun
      anew := nofun }
  · rename_i hpos
    have hno : { s with fd := some fd, sock := [], live := false }.socket = false := by simpa [Svc.socket] using hpos
    exact {
      delivered := ⟨nofun, nofun⟩
      since_le := h.since_le
      base_le := h.base_le
      below := h.below
      clock := h.clock
      unset := h.unset
      noSocket := fun hoff' => absurd hoff' hoff
      liveSocket := nofun
      buffered := fun hoff' => absurd hoff' hoff
      pending := fun _ _ ha => ⟨hno, (h.pending hon hl ha).2⟩
      anew := h.anew }

theorem waiting_sooner {s : Svc} {n : Nat} (hw : { s with now := s.now + n }.waiting = true) : s.waiting = true := by
  unfold Svc.waiting at hw ⊢
  cases hafk : s.afkTime with
  | none => simp [hafk] at hw
  | some t =>
    simp only [hafk, Bool.and_eq_true, decide_eq_true_eq] at hw ⊢
    omega

theorem Kept.pass {s : Svc} (h : Kept s) (n : Nat) : Kept { s with now := s.now + n } where
  delivered := ⟨h.delivered.resumed, h.delivered.fresh⟩
  since_le := h.since_le
  base_le := h.base_le
  below := h.below
  clock := h.clock
  unset := h.unset
  noSocket := h.noSocket
  liveSocket := h.liveSocket
  buffered hoff hw := h.buffered hoff (waiting_sooner hw)
  pending := h.pending
  anew := h.anew

theorem checkin_abides : Abides (Pact.of Kept) playerSys.may checkin := by
  refine Abides.serial (Vow.get (fun s hs => Vow.noteAt nofun (fun hnote => Vow.modifyAt trivial ?_)))
  refine Vow.bind (Abides.at (Abides.ask ()) (hs.enter ?_)) (fun _ => Abides.pure _)
  have hn := hnote rfl
  simp only [Bool.not_not, Bool.or_eq_true, List.isEmpty_iff] at hn
  exact hn

theorem afk_abides (flag : Bool) : Abides (Pact.of Kept) playerSys.may (afk flag) := by
  refine Abides.serial (Abides.peek (fun s => Abides.bind ?_ (fun _ => ?_)))
  · cases h : decide (s.online = some true) && flag with
    | true => exact Abides.modify (fun s hs => ⟨hs.notifyMsg, trivial⟩)
    | false => exact Abides.pure ()
  · exact Abides.bind (Abides.modify (fun s hs => ⟨hs.leave, trivial⟩))
      (fun _ => Abides.bind (Abides.ask ()) (fun _ => Abides.pure ()))

theorem setFd_abides (fd : Nat) : Abides (Pact.of Kept) playerSys.may (setFd fd) := by
  refine Vow.bind (M := fun _ s => Kept s ∧ s.online = some true ∧ s.live = false) (Vow.note nofun ?_) (fun _ => ?_)
  · intro s hs hn
    have hc := hn rfl
    simp only [Bool.and_eq_true, decide_eq_true_eq, Bool.not_eq_true'] at hc
    exact ⟨hs, hc⟩
  · exact Vow.modify (fun s hs => ⟨trivial, hs.1.connect hs.2.1 hs.2.2 fd⟩)

theorem keeping : Co.Keeping (Pact.of Kept) playerSys where
  prog o s hs := by
    refine Abides.final ?_ hs
    cases o with
    | checkin => exact Abides.bind checkin_abides (fun _ => Abides.pure ())
    | afk flag => exact afk_abides flag
    | setFd fd => exact setFd_abides fd
    | notifyMsg => exact Abides.modify (fun s hs => ⟨hs.notifyMsg, trivial⟩)
  env n s hs := ⟨hs.pass n, trivial⟩

/-- **Push messages arrive in every run** in which each checkin that answers `isInit = true` finds no message kept, and a
socket is set only while the player is online, once after a checkin. -/
theorem delivered_of_run (es : List (Co.Event Op Unit Nat)) {w : Co.World Svc Unit Unit Unit}
    (hrun : playerSys.run (.init .start) es = some w) (hclean : w.clean = true) : Delivered w.st :=
  (Co.inv_of_run keeping kept_start hrun hclean).delivered

theorem delivered_of_run_reconnect : ∃ es w, playerSys.run (.init .start) es = some w ∧ w.clean = true ∧
    (w.st.live = true ∧ w.st.answer = some false ∧ w.st.sock = [1, 2, 3]) ∧ Delivered w.st := by
  obtain ⟨w, hrun, hw⟩ : ∃ w ∈ playerSys.run (.init .start)
      [.start .checkin, .start (.setFd 1), .start .notifyMsg, .reply 0 (), .start (.afk false), .reply 3 (),
        .start .notifyMsg, .env 29, .start .notifyMsg, .start .checkin, .start (.setFd 2), .start .notifyMsg],
      w.clean = true ∧ w.st.live = true ∧ w.st.answer = some false ∧ w.st.sock = [1, 2, 3] := by
    decide +kernel
  exact ⟨_, w, hrun, hw.1, hw.2, delivered_of_run _ hrun hw.1⟩

/-- **A message from before the checkin is written after it.**  Nothing empties `msgNotify` when the thirty seconds are
over. -/
theorem old_message_written : ∃ es w, playerSys.run (.init .start) es = some w ∧ ¬Delivered w.st := by
  obtain ⟨w, hrun, hlive, hans, hsock, hbase⟩ : ∃ w ∈ playerSys.run (.init .start)
      [.start .checkin, .start (.setFd 1), .reply 0 (), .start (.afk false), .reply 2 (), .start .notifyMsg, .env 40,
        .start .checkin, .start (.setFd 2)],
      w.st.live = true ∧ w.st.answer = some true ∧ w.st.sock = [0] ∧ w.st.base = 1 := by
    decide +kernel
  refine ⟨_, w, hrun, fun hd => ?_⟩
  have h0 := hd.fresh hlive hans 0 (by rw [hsock]; exact List.mem_singleton_self 0)
  rw [hbase] at h0
  exact absurd h0 (by decide)

end Player
end Sncpp
