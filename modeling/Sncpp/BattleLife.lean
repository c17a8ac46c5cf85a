import Sncpp.Battle
/-!
# BattleLife — a room's status only rises, and a freed room is silent

A room is found by its battle id in `rooms`, and by the loop in `gaming`.  As long as `gaming` holds only rooms that
`rooms` holds and that play (`Inv`), every method moves a room's status up, and nothing reaches a freed room (`Goes`).
-/
namespace Sncpp
namespace Battle

variable {β ρ : Type}

def Event.room : Event β ρ → Option Nat
  | .broadcast r _ _ _ => some r
  | .armed r _ => some r
  | .accepted r _ => some r
  | .sent _ _ => none
  | .handled _ _ => none
  | .gateAfk _ _ _ => none

def Event.Fair : Event β ρ → Prop
  | .broadcast _ status _ (.notifyPvpCmd _ _ _) => status = .eGame
  | _ => True

def Room.Begun (room : Room β ρ) : Prop := .eGame ≤ room.status → ∀ v ∈ room.info, .eGame ≤ v.2.status

namespace Status

theorem le_eWaitLoad {a : Status} (h : ¬ .eGame ≤ a) : a ≤ .eWaitLoad := by
  revert h
  cases a <;> decide

theorem lt_eGame_of_lt {a b : Status} (hb : b ≤ .eWaitLoad) (h : a < b) : ¬ .eGame ≤ a := by
  revert h hb
  cases a <;> cases b <;> decide

end Status

namespace Center

variable {s s' s'' : Center β ρ} {b : String} {r : Nat}

/-- **What the tables hold as long as no game is cut short.** -/
structure Inv (s : Center β ρ) : Prop where
  held : ∀ b r, s.rooms b = some r → r < s.roomCount ∧ (s.heap r).batId = b ∧ (s.heap r).status ≠ .eFree
  gamed : ∀ b r, s.gaming b = some r → s.rooms b = some r ∧ (s.heap r).status = .eGame
  begun : ∀ b r, s.rooms b = some r → (s.heap r).Begun
  timed : ∀ b, s.timerMap (.status b) = true → ∃ r, s.rooms b = some r
  fair : ∀ e ∈ s.log, e.Fair

/-- **What may happen to the rooms there are**: their status rises, and a freed room does nothing. -/
structure Goes (s s' : Center β ρ) : Prop where
  count : s.roomCount ≤ s'.roomCount
  rises : ∀ r < s.roomCount, (s.heap r).status ≤ (s'.heap r).status
  quiet : ∃ es, s'.log = s.log ++ es ∧ ∀ r < s.roomCount, (s.heap r).status = .eFree → ∀ e ∈ es, e.room ≠ some r

def Keeps (s s' : Center β ρ) : Prop := Inv s' ∧ Goes s s'

theorem Goes.refl (s : Center β ρ) : Goes s s where
  count := le_rfl
  rises _ _ := le_rfl
  quiet := ⟨[], (List.append_nil _).symm, fun _ _ _ e he => by cases he⟩

theorem Goes.trans (h : Goes s s') (h' : Goes s' s'') : Goes s s'' where
  count := h.count.trans h'.count
  rises r hr := (h.rises r hr).trans (h'.rises r (hr.trans_le h.count))
  quiet := by
    obtain ⟨es, he, hes⟩ := h.quiet
    obtain ⟨es', he', hes'⟩ := h'.quiet
    refine ⟨es ++ es', by rw [he', he, List.append_assoc], fun r hr hfree e hmem => ?_⟩
    have hstill : (s'.heap r).status = .eFree := le_antisymm (Status.le_eFree _) (hfree ▸ h.rises r hr)
    rcases List.mem_append.1 hmem with hmem | hmem
    · exact hes r hr hfree e hmem
    · exact hes' r (hr.trans_le h.count) hstill e hmem

theorem Keeps.refl (h : Inv s) : Keeps s s := ⟨h, Goes.refl s⟩

theorem Keeps.trans (h : Keeps s s') (h' : Keeps s' s'') : Keeps s s'' := ⟨h'.1, h.2.trans h'.2⟩

/-- **Nothing but users, sockets and their timers changes.** -/
structure Aside (s s' : Center β ρ) : Prop where
  count : s'.roomCount = s.roomCount
  rooms : s'.rooms = s.rooms
  heap : s'.heap = s.heap
  gaming : s'.gaming = s.gaming
  timers : ∀ b, s'.timerMap (.status b) = true → s.timerMap (.status b) = true
  quiet : ∃ es, s'.log = s.log ++ es ∧ ∀ e ∈ es, e.room = none ∧ e.Fair

theorem Aside.refl (s : Center β ρ) : Aside s s :=
  ⟨rfl, rfl, rfl, rfl, fun _ h => h, [], (List.append_nil _).symm, fun e he => by cases he⟩

theorem Aside.trans (h : Aside s s') (h' : Aside s' s'') : Aside s s'' where
  count := h'.count.trans h.count
  rooms := h'.rooms.trans h.rooms
  heap := h'.heap.trans h.heap
  gaming := h'.gaming.trans h.gaming
  timers b hb := h.timers b (h'.timers b hb)
  quiet := by
    obtain ⟨es, he, hes⟩ := h.quiet
    obtain ⟨es', he', hes'⟩ := h'.quiet
    refine ⟨es ++ es', by rw [he', he, List.append_assoc], fun e hmem => ?_⟩
    rcases List.mem_append.1 hmem with hmem | hmem
    · exact hes e hmem
    · exact hes' e hmem

theorem Aside.keeps (h : Inv s) (w : Aside s s') : Keeps s s' := by
  obtain ⟨hcount, hrooms, hheap, hgaming, htimers, es, hlog, hes⟩ := w
  refine ⟨⟨?_, ?_, ?_, ?_, ?_⟩, ⟨hcount.ge, fun r _ => by rw [hheap], es, hlog, fun r _ _ e he => ?_⟩⟩
  · rw [hrooms, hheap, hcount]
    exact h.held
  · rw [hrooms, hheap, hgaming]
    exact h.gamed
  · rw [hrooms, hheap]
    exact h.begun
  · rw [hrooms]
    exact fun b hb => h.timed b (htimers b hb)
  · rw [hlog]
    intro e he
    rcases List.mem_append.1 he with he | he
    · exact h.fair e he
    · exact (hes e he).2
  · rw [(hes e he).1]
    exact Option.some_ne_none r |>.symm

theorem Aside.emit {es : List (Event β ρ)} (h : ∀ e ∈ es, e.room = none ∧ e.Fair) : Aside s (s.emit es) :=
  ⟨rfl, rfl, rfl, rfl, fun _ h => h, es, rfl, h⟩

theorem setUser_aside (u : Nat) (user : User) : Aside s (s.setUser u user) :=
  ⟨rfl, rfl, rfl, rfl, fun _ h => h, [], (List.append_nil _).symm, fun e he => by cases he⟩

theorem setFdMap_aside (fd user : Option Nat) : Aside s (s.setFdMap fd user) := by
  cases fd with
  | none => exact Aside.refl s
  | some fd => exact ⟨rfl, rfl, rfl, rfl, fun _ h => h, [], (List.append_nil _).symm, fun e he => by cases he⟩

theorem userSetFd_aside (u : Nat) (fd : Option Nat) : Aside s (s.userSetFd u fd) :=
  ((setFdMap_aside _ _).trans (setUser_aside _ _)).trans (setFdMap_aside _ _)

theorem heartbeat_aside (uid : Nat) (on : Bool) : Aside s (s.heartbeat uid on) where
  count := rfl
  rooms := rfl
  heap := rfl
  gaming := rfl
  timers b hb := by
    have hb : Function.update s.timerMap (.heartbeat uid) on (.status b) = true := hb
    rwa [Function.update_of_ne (by simp)] at hb
  quiet := ⟨[], (List.append_nil _).symm, fun e he => by cases he⟩

theorem setFd_aside (fd uid subid : Nat) : Aside s (s.setFd fd uid subid) := by
  unfold setFd
  split
  · exact Aside.refl s
  · exact ((userSetFd_aside _ _).trans (setUser_aside _ _)).trans (heartbeat_aside _ _)

theorem userAfk_aside (u : Nat) (flag : Option Nat) : Aside s (s.userAfk u flag) := by
  have hsent : ∀ fd fl, Aside s (s.emit [.sent fd (.notifyPvpLogout fl)]) := by
    intro fd fl
    apply Aside.emit
    intro e he
    rw [List.mem_singleton.1 he]
    exact ⟨rfl, trivial⟩
  unfold userAfk
  split
  · split
    · exact ((hsent _ _).trans (userSetFd_aside _ _)).trans (setUser_aside _ _)
    · exact (userSetFd_aside _ _).trans (setUser_aside _ _)
  · exact (userSetFd_aside _ _).trans (setUser_aside _ _)

theorem delUser_aside (uid : Nat) : Aside s (s.delUser uid) := by
  unfold delUser
  split
  · exact Aside.refl s
  · next u _ =>
    have h : Aside s (s.userSetFd u none) := userSetFd_aside u none
    exact ⟨h.count, h.rooms, h.heap, h.gaming, h.timers, h.quiet⟩

theorem getUser_aside (uid : Nat) : Aside s (s.getUser uid).1 := by
  unfold getUser
  split
  · exact Aside.refl s
  · exact ⟨rfl, rfl, rfl, rfl, fun _ h => h, [], (List.append_nil _).symm, fun e he => by cases he⟩

theorem login_aside (uid : Nat) (batId : String) (subid : Option Nat) : Aside s (s.login uid batId subid) := by
  unfold login
  split
  · exact Aside.refl s
  · exact (getUser_aside uid).trans (setUser_aside _ _)

theorem dispatchMsg_aside (fd : Nat) : Aside s (s.dispatchMsg fd) := by
  unfold dispatchMsg
  split
  · exact Aside.refl s
  · apply Aside.emit
    intro e he
    rw [List.mem_singleton.1 he]
    exact ⟨rfl, trivial⟩

/-- **What a method does to its room**: it stays where it is found, its status rises, and it plays if the loop has it. -/
structure Works (b : String) (r : Nat) (s s' : Center β ρ) : Prop where
  count : s'.roomCount = s.roomCount
  rooms : s'.rooms = s.rooms
  others : ∀ x, x ≠ r → s'.heap x = s.heap x
  batId : (s'.heap r).batId = (s.heap r).batId
  rises : (s.heap r).status ≤ (s'.heap r).status
  stays : (s'.heap r).status ≠ .eFree
  gaming : ∀ k x, s'.gaming k = some x → (x = r → (s'.heap r).status = .eGame) ∧ ((k = b ∧ x = r) ∨ s.gaming k = some x)
  timers : ∀ k, s'.timerMap (.status k) = true → k = b ∨ s.timerMap (.status k) = true
  log : ∃ es, s'.log = s.log ++ es ∧ ∀ e ∈ es, e.room = some r ∧ e.Fair

theorem Works.trans (h : Works b r s s') (h' : Works b r s' s'') : Works b r s s'' where
  count := h'.count.trans h.count
  rooms := h'.rooms.trans h.rooms
  others x hx := (h'.others x hx).trans (h.others x hx)
  batId := h'.batId.trans h.batId
  rises := h.rises.trans h'.rises
  stays := h'.stays
  gaming k x hx := by
    refine ⟨(h'.gaming k x hx).1, ?_⟩
    rcases (h'.gaming k x hx).2 with hkx | hx
    · exact .inl hkx
    · exact (h.gaming k x hx).2
  timers k hk := by
    rcases h'.timers k hk with hk | hk
    · exact .inl hk
    · exact h.timers k hk
  log := by
    obtain ⟨es, he, hes⟩ := h.log
    obtain ⟨es', he', hes'⟩ := h'.log
    refine ⟨es ++ es', by rw [he', he, List.append_assoc], fun e hmem => ?_⟩
    rcases List.mem_append.1 hmem with hmem | hmem
    · exact hes e hmem
    · exact hes' e hmem

theorem Works.keeps (h : Inv s) (hb : s.rooms b = some r) (w : Works b r s s') (hbegun : (s'.heap r).Begun) :
    Keeps s s' := by
  obtain ⟨hr, hid, hlive⟩ := h.held b r hb
  obtain ⟨es, hlog, hes⟩ := w.log
  have hheap : ∀ x, (s'.heap x).batId = (s.heap x).batId ∧ (s.heap x).status ≤ (s'.heap x).status := by
    intro x
    by_cases hx : x = r
    · rw [hx]
      exact ⟨w.batId, w.rises⟩
    · rw [w.others x hx]
      exact ⟨rfl, le_rfl⟩
  refine ⟨⟨fun k x hk => ?_, fun k x hk => ?_, fun k x hk => ?_, fun k hk => ?_, ?_⟩,
    ⟨w.count.ge, fun x _ => (hheap x).2, es, hlog, fun x _ hfree e he hx => ?_⟩⟩
  · rw [w.rooms] at hk
    obtain ⟨hx, hxid, hxlive⟩ := h.held k x hk
    refine ⟨w.count ▸ hx, (hheap x).1.trans hxid, ?_⟩
    by_cases hxr : x = r
    · rw [hxr]
      exact w.stays
    · rw [w.others x hxr]
      exact hxlive
  · rw [w.rooms]
    obtain ⟨hplays, hkx | hk⟩ := w.gaming k x hk
    · obtain ⟨rfl, rfl⟩ := hkx
      exact ⟨hb, hplays rfl⟩
    · refine ⟨(h.gamed k x hk).1, ?_⟩
      by_cases hxr : x = r
      · rw [hxr]
        exact hplays hxr
      · rw [w.others x hxr]
        exact (h.gamed k x hk).2
  · rw [w.rooms] at hk
    by_cases hxr : x = r
    · rw [hxr]
      exact hbegun
    · rw [w.others x hxr]
      exact h.begun k x hk
  · rw [w.rooms]
    rcases w.timers k hk with rfl | hk
    · exact ⟨r, hb⟩
    · exact h.timed k hk
  · rw [hlog]
    intro e he
    rcases List.mem_append.1 he with he | he
    · exact h.fair e he
    · exact (hes e he).2
  · -- the room that works is not a freed one
    rw [(hes e he).1, Option.some.injEq] at hx
    exact hlive (hx ▸ hfree)

theorem setRoom_self (room : Room β ρ) : (s.setRoom r room).heap r = room := Function.update_self _ _ _

theorem setRoom_ne {room : Room β ρ} {x : Nat} (h : x ≠ r) : (s.setRoom r room).heap x = s.heap x :=
  Function.update_of_ne h _ _

theorem Works.put {room : Room β ρ} (hid : room.batId = (s.heap r).batId) (hrise : (s.heap r).status ≤ room.status)
    (hstay : room.status ≠ .eFree) (hplay : ∀ k, s.gaming k = some r → room.status = .eGame) :
    Works b r s (s.setRoom r room) where
  count := rfl
  rooms := rfl
  others x hx := setRoom_ne hx
  batId := by rw [setRoom_self, hid]
  rises := by rwa [setRoom_self]
  stays := by rwa [setRoom_self]
  gaming k x hx := by
    refine ⟨fun hxr => ?_, .inr hx⟩
    rw [setRoom_self]
    exact hplay k (hxr ▸ hx)
  timers k hk := .inr hk
  log := ⟨[], (List.append_nil _).symm, fun e he => by cases he⟩

theorem Works.tell (hstay : (s.heap r).status ≠ .eFree) (hplay : ∀ k, s.gaming k = some r → (s.heap r).status = .eGame)
    {es : List (Event β ρ)} (hes : ∀ e ∈ es, e.room = some r ∧ e.Fair) : Works b r s (s.emit es) where
  count := rfl
  rooms := rfl
  others _ _ := rfl
  batId := rfl
  rises := le_rfl
  stays := hstay
  gaming k _ hx := ⟨fun hxr => hplay k (hxr ▸ hx), .inr hx⟩
  timers _ hk := .inr hk
  log := ⟨es, rfl, hes⟩

theorem Works.info (hstay : (s.heap r).status ≠ .eFree) (hplay : ∀ k, s.gaming k = some r → (s.heap r).status = .eGame) :
    Works b r s (s.notifyPvpInfo r) := by
  apply Works.tell hstay hplay
  intro e he
  rw [List.mem_singleton.1 he]
  exact ⟨rfl, trivial⟩

theorem Works.arm (hid : (s.heap r).batId = b) (hstay : (s.heap r).status ≠ .eFree)
    (hplay : ∀ k, s.gaming k = some r → (s.heap r).status = .eGame) : Works b r s (s.arm r) where
  count := rfl
  rooms := rfl
  others _ _ := rfl
  batId := rfl
  rises := le_rfl
  stays := hstay
  gaming k x hx := ⟨fun hxr => hplay k (hxr ▸ hx), .inr hx⟩
  timers k hk := by
    have hk : Function.update s.timerMap (.status (s.heap r).batId) true (.status k) = true := hk
    by_cases hkb : k = b
    · exact .inl hkb
    · rw [hid, Function.update_of_ne (fun h => hkb (Timer.status.inj h))] at hk
      exact .inr hk
  log := by
    refine ⟨_, rfl, fun e he => ?_⟩
    rw [List.mem_singleton.1 he]
    exact ⟨rfl, trivial⟩

theorem Works.game (hplay : (s.heap r).status = .eGame) : Works b r s (s.game b r) where
  count := rfl
  rooms := rfl
  others _ _ := rfl
  batId := rfl
  rises := le_rfl
  stays := by
    show (s.heap r).status ≠ .eFree
    rw [hplay]
    decide
  gaming k x hx := by
    refine ⟨fun _ => hplay, ?_⟩
    have hx : Function.update s.gaming b (some r) k = some x := hx
    by_cases hkb : k = b
    · rw [hkb, Function.update_self, Option.some.injEq] at hx
      exact .inl ⟨hkb, hx.symm⟩
    · rw [Function.update_of_ne hkb] at hx
      exact .inr hx
  timers k hk := .inr hk
  log := ⟨[], (List.append_nil _).symm, fun e he => by cases he⟩

theorem Works.start (hid : (s.heap r).batId = b) (hrise : (s.heap r).status ≤ .eGame) : Works b r s (s.start r) := by
  let room : Room β ρ := { (s.heap r).alterAll (fun v => if v.status < .eGame then Room.setStatus .eGame v else v) with
    status := .eGame, fs := fun _ => none }
  have hself : (s.setRoom r room).heap r = room := setRoom_self room
  have hne : room.status ≠ .eFree := (by decide : Status.eGame ≠ .eFree)
  have hput : Works b r s (s.setRoom r room) := Works.put rfl hrise hne (fun _ _ => rfl)
  have harm : Works b r (s.setRoom r room) ((s.setRoom r room).arm r) :=
    Works.arm (by rw [hself]; exact hid) (by rw [hself]; exact hne) (fun _ _ => by rw [hself])
  have hgame : Works b r ((s.setRoom r room).arm r) (((s.setRoom r room).arm r).game b r) :=
    Works.game (congrArg Room.status hself)
  have heq : s.start r = ((s.setRoom r room).arm r).game b r := by
    rw [← hid]
    rfl
  rw [heq]
  exact (hput.trans harm).trans hgame

theorem start_status : ((s.start r).heap r).status = .eGame := congrArg Room.status (setRoom_self _)

theorem start_begun : ((s.start r).heap r).Begun := by
  intro _ v hv
  have hv : v ∈ ((s.setRoom r _).heap r).info := hv
  rw [setRoom_self] at hv
  obtain ⟨w, -, rfl⟩ := List.mem_map.1 hv
  dsimp only
  split
  · exact le_rfl
  · next h => exact not_lt.1 h

theorem Works.roomOver (hid : (s.heap r).batId = b) (hrise : (s.heap r).status ≤ .eSettle)
    (hidle : ∀ k, s.gaming k ≠ some r) :
    Works b r s (s.roomOver r) := by
  let room : Room β ρ := { (s.heap r).alterAll (Room.setStatus .eSettle) with status := .eSettle }
  have hself : (s.setRoom r room).heap r = room := setRoom_self room
  have hne : ((s.setRoom r room).heap r).status ≠ .eFree := by
    rw [hself]
    exact (by decide : Status.eSettle ≠ .eFree)
  have hput : Works b r s (s.setRoom r room) :=
    Works.put rfl hrise (by decide : Status.eSettle ≠ .eFree) (fun k hk => absurd hk (hidle k))
  have hinfo : Works b r (s.setRoom r room) ((s.setRoom r room).notifyPvpInfo r) :=
    Works.info hne (fun k hk => absurd hk (hidle k))
  have harm : Works b r ((s.setRoom r room).notifyPvpInfo r) (((s.setRoom r room).notifyPvpInfo r).arm r) :=
    Works.arm ((congrArg Room.batId hself).trans hid) hne (fun k hk => absurd hk (hidle k))
  exact (hput.trans hinfo).trans harm

theorem over_begun : ((s.roomOver r).heap r).Begun := by
  intro _ v hv
  have hv : v ∈ ((s.setRoom r _).heap r).info := hv
  rw [setRoom_self] at hv
  obtain ⟨w, -, rfl⟩ := List.mem_map.1 hv
  exact (by decide : Status.eGame ≤ .eSettle)

theorem delRoom_eq (hb : s.rooms b = some r) : s.delRoom b =
    { s.disarm b with rooms := Function.update s.rooms b none }.emit ((s.heap r).users.filterMap (fun uid =>
      (s.users uid).map (fun u => Event.gateAfk uid ((s.user u).subid.getD 0) 1))) := by
  unfold delRoom
  rw [hb]

theorem free_eq (hb : s.rooms b = some r) (hid : (s.heap r).batId = b) (hlive : (s.heap r).status ≠ .eFree) :
    ∃ es, (∀ e ∈ es, (e.room = none ∨ e.room = some r) ∧ e.Fair) ∧ s.free r =
      { s.setRoom r { (s.heap r).alterAll (Room.setStatus .eFree) with status := .eFree } with
        rooms := Function.update s.rooms b none
        timerMap := Function.update (Function.update s.timerMap (.status b) false) (.status b) false
        log := s.log ++ es } := by
  subst hid
  have hlow : ¬ .eFree ≤ (s.heap r).status := fun hle => hlive (le_antisymm (Status.le_eFree _) hle)
  let b := (s.heap r).batId
  let freed := ((s.disarm b).setRoom r
    { (s.heap r).alterAll (Room.setStatus .eFree) with status := .eFree }).notifyPvpInfo r
  have heq : s.free r = freed.delRoom b := by
    unfold free
    rw [if_neg hlow]
    rfl
  have hat : freed.rooms b = some r := hb
  rw [heq, delRoom_eq hat]
  refine ⟨[_] ++ _, ?_, congrArg _ (List.append_assoc _ _ _)⟩
  intro e he
  rcases List.mem_append.1 he with he | he
  · rw [List.mem_singleton.1 he]
    exact ⟨.inr rfl, trivial⟩
  · obtain ⟨uid, -, hu⟩ := List.mem_filterMap.1 he
    obtain ⟨u, -, rfl⟩ := Option.map_eq_some_iff.1 hu
    exact ⟨.inl rfl, trivial⟩

theorem free_keeps (h : Inv s) (hb : s.rooms b = some r) (hidle : ∀ k, s.gaming k ≠ some r) : Keeps s (s.free r) := by
  obtain ⟨hr, hid, hlive⟩ := h.held b r hb
  obtain ⟨es, hes, heq⟩ := free_eq hb hid hlive
  have hother : ∀ k x, s.rooms k = some x → x ≠ r → k ≠ b := by
    rintro k x hk hx rfl
    exact hx (Option.some.inj (hk.symm.trans hb))
  rw [heq]
  refine ⟨⟨fun k x hk => ?_, fun k x hk => ?_, fun k x hk => ?_, fun k hk => ?_, fun e he => ?_⟩,
    ⟨le_rfl, fun x _ => ?_, es, rfl, fun x _ hfree e he hx => ?_⟩⟩
  · have hk : Function.update s.rooms b none k = some x := hk
    by_cases hkb : k = b
    · rw [hkb, Function.update_self] at hk
      cases hk
    · rw [Function.update_of_ne hkb] at hk
      obtain ⟨hx, hxid, hxlive⟩ := h.held k x hk
      have hxr : x ≠ r := fun hxr => hkb (by rw [← hxid, hxr, hid])
      refine ⟨hx, ?_⟩
      show ((s.setRoom r _).heap x).batId = k ∧ ((s.setRoom r _).heap x).status ≠ .eFree
      rw [setRoom_ne hxr]
      exact ⟨hxid, hxlive⟩
  · have hxr : x ≠ r := fun hxr => hidle k (hxr ▸ hk)
    obtain ⟨hrooms, hplay⟩ := h.gamed k x hk
    refine ⟨(Function.update_of_ne (hother k x hrooms hxr) _ _).trans hrooms, ?_⟩
    show ((s.setRoom r _).heap x).status = .eGame
    rw [setRoom_ne hxr]
    exact hplay
  · have hk : Function.update s.rooms b none k = some x := hk
    by_cases hkb : k = b
    · rw [hkb, Function.update_self] at hk
      cases hk
    · rw [Function.update_of_ne hkb] at hk
      have hxr : x ≠ r := fun hxr => hkb (by rw [← (h.held k x hk).2.1, hxr, hid])
      show ((s.setRoom r _).heap x).Begun
      rw [setRoom_ne hxr]
      exact h.begun k x hk
  · have hk : Function.update (Function.update s.timerMap (.status b) false) (.status b) false (.status k) = true := hk
    by_cases hkb : k = b
    · rw [hkb, Function.update_self] at hk
      cases hk
    · have hne : Timer.status k ≠ .status b := fun he => hkb (Timer.status.inj he)
      rw [Function.update_of_ne hne, Function.update_of_ne hne] at hk
      obtain ⟨x, hx⟩ := h.timed k hk
      exact ⟨x, (Function.update_of_ne hkb _ _).trans hx⟩
  · rcases List.mem_append.1 he with he | he
    · exact h.fair e he
    · exact (hes e he).2
  · show (s.heap x).status ≤ ((s.setRoom r _).heap x).status
    by_cases hxr : x = r
    · rw [hxr, setRoom_self]
      exact Status.le_eFree _
    · rw [setRoom_ne hxr]
  · rcases (hes e he).1 with hnone | hroom
    · rw [hnone] at hx
      cases hx
    · rw [hroom, Option.some.injEq] at hx
      exact hlive (hx ▸ hfree)

theorem Begun.alter {room : Room β ρ} (h : room.Begun) {uid : Nat} {g : Info β ρ → Info β ρ}
    (hg : ∀ v, .eGame ≤ v.status → .eGame ≤ (g v).status) : (room.alter uid g).Begun := by
  intro hst v hv
  obtain ⟨w, hw, rfl⟩ := List.mem_map.1 hv
  split
  · exact hg _ (h hst w hw)
  · exact h hst w hw

theorem mem_of_lookup {α : Type} {l : List (Nat × α)} {k : Nat} {v : α} (h : l.lookup k = some v) : (k, v) ∈ l := by
  obtain ⟨l₁, l₂, rfl, -⟩ := List.lookup_eq_some_iff.1 h
  exact List.mem_append_right _ List.mem_cons_self

theorem waits (h : Inv s) (hb : s.rooms b = some r) {uid : Nat} {v : Info β ρ} {st : Status}
    (hv : (s.heap r).info.lookup uid = some v) (hst : st ≤ .eWaitLoad) (hlt : v.status < st) :
    ¬ .eGame ≤ (s.heap r).status := by
  intro hgame
  exact Status.lt_eGame_of_lt hst hlt (h.begun b r hb hgame _ (mem_of_lookup hv))

theorem Begun.of_low {room : Room β ρ} (h : ¬ .eGame ≤ room.status) : room.Begun := fun hge => absurd hge h

theorem put_keeps (h : Inv s) (hb : s.rooms b = some r) {room : Room β ρ} (hid : room.batId = (s.heap r).batId)
    (hrise : (s.heap r).status ≤ room.status) (hstay : room.status ≠ .eFree)
    (hplay : ∀ k, s.gaming k = some r → room.status = .eGame) (hbegun : room.Begun) :
    Keeps s ((s.setRoom r room).notifyPvpInfo r) := by
  have hself : (s.setRoom r room).heap r = room := setRoom_self room
  have hput : Works b r s (s.setRoom r room) := Works.put hid hrise hstay hplay
  have hinfo : Works b r (s.setRoom r room) ((s.setRoom r room).notifyPvpInfo r) :=
    Works.info (by rwa [hself]) (fun k hk => by rw [hself]; exact hplay k hk)
  apply Works.keeps h hb (hput.trans hinfo)
  rwa [show ((s.setRoom r room).notifyPvpInfo r).heap r = room from hself]

theorem roomPrepare_keeps (h : Inv s) (hb : s.rooms b = some r) (uid : Nat) : Keeps s (s.roomPrepare r uid).1 := by
  obtain ⟨hr, hid, hlive⟩ := h.held b r hb
  unfold roomPrepare
  dsimp only
  split
  · exact Keeps.refl h
  next v hv =>
  split
  · exact Keeps.refl h
  split
  · exact Keeps.refl h
  split
  · next hlt =>
    have hlow : ¬ .eGame ≤ (s.heap r).status := waits h hb hv (by decide) hlt
    have hidle : ∀ k, s.gaming k ≠ some r := fun k hk => hlow (h.gamed k r hk).2.ge
    split
    · -- the last one to be ready
      let room : Room β ρ := { (s.heap r).alter uid (Room.setStatus .eWaitPrepare) with status := .eWaitLoad }
      have hself : (s.setRoom r room).heap r = room := setRoom_self room
      have hne : ((s.setRoom r room).heap r).status ≠ .eFree := by
        rw [hself]
        exact (by decide : Status.eWaitLoad ≠ .eFree)
      have hrise : (s.heap r).status ≤ .eWaitLoad := Status.le_eWaitLoad hlow
      have hput : Works b r s (s.setRoom r room) :=
        Works.put rfl hrise (by decide : Status.eWaitLoad ≠ .eFree) (fun k hk => absurd hk (hidle k))
      have harm : Works b r (s.setRoom r room) ((s.setRoom r room).arm r) :=
        Works.arm ((congrArg Room.batId hself).trans hid) hne (fun k hk => absurd hk (hidle k))
      have hinfo : Works b r ((s.setRoom r room).arm r) (((s.setRoom r room).arm r).notifyPvpInfo r) :=
        Works.info hne (fun k hk => absurd hk (hidle k))
      apply Works.keeps h hb ((hput.trans harm).trans hinfo)
      apply Begun.of_low
      rw [show (((s.setRoom r room).arm r).notifyPvpInfo r).heap r = room from hself]
      exact (by decide : ¬ Status.eGame ≤ .eWaitLoad)
    · exact put_keeps h hb rfl le_rfl hlive (fun k hk => absurd hk (hidle k)) (Begun.of_low hlow)
  · exact Keeps.refl h

theorem roomLoad_keeps (h : Inv s) (hb : s.rooms b = some r) (uid : Nat) : Keeps s (s.roomLoad r uid).1 := by
  obtain ⟨hr, hid, hlive⟩ := h.held b r hb
  unfold roomLoad
  dsimp only
  split
  · exact Keeps.refl h
  next v hv =>
  split
  · exact Keeps.refl h
  split
  · exact Keeps.refl h
  split
  · next hlt =>
    have hlow : ¬ .eGame ≤ (s.heap r).status := waits h hb hv le_rfl hlt
    have hidle : ∀ k, s.gaming k ≠ some r := fun k hk => hlow (h.gamed k r hk).2.ge
    split
    · -- the last one to be loaded
      let room : Room β ρ := { (s.heap r).alter uid (Room.setStatus .eWaitLoad) with status := .eGame }
      have hself : (s.setRoom r room).heap r = room := setRoom_self room
      have hrise : (s.heap r).status ≤ .eGame := (Status.le_eWaitLoad hlow).trans (by decide)
      have hput : Works b r s (s.setRoom r room) :=
        Works.put rfl hrise (by decide : Status.eGame ≠ .eFree) (fun _ _ => rfl)
      have hstart : Works b r (s.setRoom r room) ((s.setRoom r room).start r) :=
        Works.start ((congrArg Room.batId hself).trans hid) (congrArg Room.status hself).le
      have hinfo : Works b r ((s.setRoom r room).start r) (((s.setRoom r room).start r).notifyPvpInfo r) :=
        Works.info (by rw [start_status]; decide) (fun _ _ => start_status)
      exact Works.keeps h hb ((hput.trans hstart).trans hinfo) start_begun
    · exact put_keeps h hb rfl le_rfl hlive (fun k hk => absurd hk (hidle k)) (Begun.of_low hlow)
  · exact Keeps.refl h

theorem roomLeave_keeps (h : Inv s) (hb : s.rooms b = some r) (uid : Nat) : Keeps s (s.roomLeave r uid).1 := by
  obtain ⟨hr, hid, hlive⟩ := h.held b r hb
  have hbegun : ((s.heap r).alter uid (Room.setStatus .eFree)).Begun :=
    Begun.alter (h.begun b r hb) (fun _ _ => (by decide : Status.eGame ≤ .eFree))
  unfold roomLeave
  dsimp only
  split
  · exact Keeps.refl h
  · split
    · exact put_keeps h hb rfl le_rfl hlive (fun k hk => (h.gamed k r hk).2) hbegun
    · exact put_keeps h hb rfl le_rfl hlive (fun k hk => (h.gamed k r hk).2) hbegun

theorem roomCommitCmd_keeps (h : Inv s) (hb : s.rooms b = some r) (uid : Nat) (body : β) :
    Keeps s (s.roomCommitCmd r uid body).1 := by
  obtain ⟨hr, hid, hlive⟩ := h.held b r hb
  unfold roomCommitCmd
  dsimp only
  split
  · exact Keeps.refl h
  split
  · exact Keeps.refl h
  · let cmd : Cmd β := ⟨uid, (s.heap r).f, body⟩
    let room : Room β ρ := (s.heap r).alter uid (fun v => { v with cmds := Function.update v.cmds (s.heap r).f (some cmd) })
    have hself : (s.setRoom r room).heap r = room := setRoom_self room
    have hput : Works b r s (s.setRoom r room) := Works.put rfl le_rfl hlive (fun k hk => (h.gamed k r hk).2)
    have htell : Works b r (s.setRoom r room) ((s.setRoom r room).emit [.accepted r cmd]) := by
      apply Works.tell (by rw [hself]; exact hlive) (fun k hk => by rw [hself]; exact (h.gamed k r hk).2)
      intro e he
      rw [List.mem_singleton.1 he]
      exact ⟨rfl, trivial⟩
    apply Works.keeps h hb (hput.trans htell)
    rw [show ((s.setRoom r room).emit [.accepted r cmd]).heap r = room from hself]
    exact Begun.alter (h.begun b r hb) (fun _ hv => hv)

theorem same_keeps (h : Inv s) (hb : s.rooms b = some r) {room : Room β ρ} (hid : room.batId = (s.heap r).batId)
    (hst : room.status = (s.heap r).status) (hbegun : room.Begun) : Keeps s (s.setRoom r room) := by
  obtain ⟨hr, -, hlive⟩ := h.held b r hb
  have hput : Works b r s (s.setRoom r room) :=
    Works.put hid hst.ge (by rwa [hst]) (fun k hk => hst.trans (h.gamed k r hk).2)
  apply Works.keeps h hb hput
  rwa [setRoom_self]

theorem roomCommitReport_keeps (h : Inv s) (hb : s.rooms b = some r) (uid : Nat) (report : Option ρ)
    (hlast : (s.heap r).status = .eGame → ((s.heap r).info.lookup uid).isSome →
      ((s.heap r).alter uid (fun v => { v with report := report })).isAllReported = false) :
    Keeps s (s.roomCommitReport r uid report).1 := by
  obtain ⟨hr, hid, hlive⟩ := h.held b r hb
  unfold roomCommitReport
  dsimp only
  split
  · exact Keeps.refl h
  next v hv =>
  split
  · exact Keeps.refl h
  · let room : Room β ρ := (s.heap r).alter uid (fun v => { v with report := report })
    have hput : Keeps s (s.setRoom r room) :=
      same_keeps h hb rfl rfl (Begun.alter (h.begun b r hb) (fun _ hv => hv))
    split
    · next hall =>
      apply hput.trans
      apply free_keeps hput.1 hb
      intro k hk
      have hgame : (s.heap r).status = .eGame := (h.gamed k r hk).2
      rw [hlast hgame (by rw [hv]; rfl)] at hall
      cases hall
    · exact hput

theorem setIsEnd_keeps (h : Inv s) (hb : s.rooms b = some r) (isEnd : Bool) : Keeps s (s.setIsEnd r isEnd) := by
  obtain ⟨hr, hid, hlive⟩ := h.held b r hb
  let room : Room β ρ := { s.heap r with isEnd := isEnd }
  have hput : Keeps s (s.setRoom r room) := same_keeps h hb rfl rfl (h.begun b r hb)
  unfold setIsEnd
  dsimp only
  split
  · next hlow =>
    apply hput.trans
    apply free_keeps hput.1 hb
    intro k hk
    rw [(hput.1.gamed k r hk).2] at hlow
    exact absurd hlow (by decide)
  · exact hput

theorem roomTimer_keeps (h : Inv s) (hb : s.rooms b = some r) : Keeps s (s.roomTimer r) := by
  obtain ⟨hr, hid, hlive⟩ := h.held b r hb
  unfold roomTimer
  split
  · exact setIsEnd_keeps h hb true
  split
  · next hload =>
    exact Works.keeps h hb (Works.start hid (hload.le.trans (by decide))) start_begun
  split
  · exact setIsEnd_keeps h hb true
  split
  · next hsettle =>
    apply free_keeps h hb
    intro k hk
    rw [(h.gamed k r hk).2] at hsettle
    cases hsettle
  · exact Keeps.refl h

theorem timerCallback_keeps (h : Inv s) (timer : Timer) : Keeps s (s.timerCallback timer) := by
  have htake : Aside s { s with timerMap := Function.update s.timerMap timer false } := by
    refine ⟨rfl, rfl, rfl, rfl, fun b hb => ?_, [], (List.append_nil _).symm, fun e he => by cases he⟩
    have hb : Function.update s.timerMap timer false (.status b) = true := hb
    by_cases ht : .status b = timer
    · rw [ht, Function.update_self] at hb
      cases hb
    · rwa [Function.update_of_ne ht] at hb
  have htaken := htake.keeps h
  unfold timerCallback
  split
  · cases timer with
    | status batId =>
      dsimp only
      split
      · exact htaken
      · next r hr => exact htaken.trans (roomTimer_keeps htaken.1 hr)
    | heartbeat uid =>
      dsimp only
      split
      · exact htaken
      · apply htaken.trans
        apply Aside.keeps htaken.1
        apply Aside.emit
        intro e he
        rw [List.mem_singleton.1 he]
        exact ⟨rfl, trivial⟩
  · exact Keeps.refl h

theorem createBattle_keeps (h : Inv s) (batId : String) (users : Roster) (rate time : Option Int) :
    Keeps s (s.createBattle batId users rate time).1 := by
  unfold createBattle
  split
  · exact Keeps.refl h
  split
  · exact Keeps.refl h
  split
  · exact Keeps.refl h
  next hnew =>
  have hnone : s.rooms batId = none := by simpa using hnew
  let made : Center β ρ := { s.setRoom s.roomCount (Room.new batId) with
    rooms := Function.update s.rooms batId (some s.roomCount), roomCount := s.roomCount + 1 }
  have hat : made.rooms batId = some s.roomCount := Function.update_self _ _ _
  have hself : made.heap s.roomCount = Room.new batId := Function.update_self _ _ _
  have hold : ∀ x, x < s.roomCount → made.heap x = s.heap x := fun x hx => Function.update_of_ne hx.ne _ _
  have hkeep : ∀ k x, s.rooms k = some x → made.rooms k = some x := by
    intro k x hk
    refine (Function.update_of_ne ?_ _ _).trans hk
    rintro rfl
    rw [hnone] at hk
    cases hk
  have hroom : ∀ k x, made.rooms k = some x → (k = batId ∧ x = s.roomCount) ∨ s.rooms k = some x := by
    intro k x hk
    have hk : Function.update s.rooms batId (some s.roomCount) k = some x := hk
    by_cases hkb : k = batId
    · rw [hkb, Function.update_self, Option.some.injEq] at hk
      exact .inl ⟨hkb, hk.symm⟩
    · rw [Function.update_of_ne hkb] at hk
      exact .inr hk
  have hmade : Keeps s made := by
    refine ⟨⟨fun k x hk => ?_, fun k x hk => ?_, fun k x hk => ?_, fun k hk => ?_, h.fair⟩,
      ⟨Nat.le_succ _, fun x hx => by rw [hold x hx], [], (List.append_nil _).symm, fun _ _ _ e he => by cases he⟩⟩
    · rcases hroom k x hk with ⟨rfl, rfl⟩ | hk
      · rw [hself]
        exact ⟨Nat.lt_succ_self _, rfl, (by decide : Status.eWaitPrepare ≠ .eFree)⟩
      · obtain ⟨hx, hxs⟩ := h.held k x hk
        rw [hold x hx]
        exact ⟨Nat.lt_succ_of_lt hx, hxs⟩
    · obtain ⟨hrooms, hplay⟩ := h.gamed k x hk
      rw [hold x (h.held k x hrooms).1]
      exact ⟨hkeep k x hrooms, hplay⟩
    · rcases hroom k x hk with ⟨rfl, rfl⟩ | hk
      · rw [hself]
        exact Begun.of_low (by decide : ¬ Status.eGame ≤ .eWaitPrepare)
      · rw [hold x (h.held k x hk).1]
        exact h.begun k x hk
    · obtain ⟨x, hx⟩ := h.timed k hk
      exact ⟨x, hkeep k x hx⟩
  have hidle : ∀ k, made.gaming k ≠ some s.roomCount := fun k hk =>
    absurd (h.held k _ (h.gamed k _ hk).1).1 (lt_irrefl _)
  have hwait : (made.heap s.roomCount).status = .eWaitPrepare := congrArg Room.status hself
  -- a room is made with its timer, written and given its timer again
  let ready : Room β ρ := (made.heap s.roomCount).init users (rate.getD 16).toNat (time.getD 300).toNat
  let written := (made.arm s.roomCount).setRoom s.roomCount ready
  have hready : written.heap s.roomCount = ready := setRoom_self ready
  have harm : Works batId s.roomCount made (made.arm s.roomCount) :=
    Works.arm (congrArg Room.batId hself) (by rw [hwait]; decide) (fun k hk => absurd hk (hidle k))
  have hput : Works batId s.roomCount (made.arm s.roomCount) written :=
    Works.put rfl hwait.le (by decide : Status.eWaitPrepare ≠ .eFree) (fun k hk => absurd hk (hidle k))
  have hwritten : (written.heap s.roomCount).status = .eWaitPrepare := congrArg Room.status hready
  have hid : (written.heap s.roomCount).batId = batId := (congrArg Room.batId hready).trans (congrArg Room.batId hself)
  have hagain : Works batId s.roomCount written (written.arm s.roomCount) :=
    Works.arm hid (by rw [hwritten]; decide) (fun k hk => absurd hk (hidle k))
  apply hmade.trans
  apply Works.keeps hmade.1 hat ((harm.trans hput).trans hagain)
  apply Begun.of_low
  show ¬ .eGame ≤ (written.heap s.roomCount).status
  rw [hwritten]
  decide

theorem turn_keeps (h : Inv s) (batId : String) : Keeps s (s.turn batId) := by
  unfold turn
  split
  · exact Keeps.refl h
  next r hr =>
  obtain ⟨hb, hplay⟩ := h.gamed batId r hr
  obtain ⟨-, hid, hlive⟩ := h.held batId r hb
  unfold roomGame
  dsimp only
  split
  · -- the room leaves the loop and waits for reports
    let left : Center β ρ := { s with gaming := Function.update s.gaming batId none }
    have hgaming : ∀ k x, left.gaming k = some x → s.gaming k = some x ∧ k ≠ batId := by
      intro k x hk
      have hk : Function.update s.gaming batId none k = some x := hk
      by_cases hkb : k = batId
      · rw [hkb, Function.update_self] at hk
        cases hk
      · rw [Function.update_of_ne hkb] at hk
        exact ⟨hk, hkb⟩
    have hleft : Keeps s left :=
      ⟨⟨h.held, fun k x hk => h.gamed k x (hgaming k x hk).1, h.begun, h.timed, h.fair⟩,
        ⟨le_rfl, fun _ _ => le_rfl, [], (List.append_nil _).symm, fun _ _ _ e he => by cases he⟩⟩
    have hidle : ∀ k, left.gaming k ≠ some r := by
      intro k hk
      obtain ⟨hk, hkb⟩ := hgaming k r hk
      exact hkb ((h.held k r (h.gamed k r hk).1).2.1.symm.trans hid)
    exact hleft.trans (Works.keeps hleft.1 hb (Works.roomOver hid (hplay.le.trans (by decide)) hidle) over_begun)
  · let room : Room β ρ := { s.heap r with fs := (s.heap r).pack }
    let packed := s.setRoom r room
    have hself : packed.heap r = room := setRoom_self room
    have hplays : ∀ k, s.gaming k = some r → (s.heap r).status = .eGame := fun _ _ => hplay
    have hput : Works batId r s packed := Works.put rfl le_rfl hlive hplays
    have htell : Works batId r packed (packed.notifyMsgBatch r (.notifyPvpCmd room.batId room.f room.fs)) := by
      apply Works.tell (by rw [hself]; exact hlive) (fun _ _ => by rw [hself]; exact hplay)
      intro e he
      rw [List.mem_singleton.1 he]
      exact ⟨rfl, (congrArg Room.status hself).trans hplay⟩
    have hnext : Works batId r (packed.notifyMsgBatch r (.notifyPvpCmd room.batId room.f room.fs))
        ((packed.notifyMsgBatch r (.notifyPvpCmd room.batId room.f room.fs)).setRoom r { room with f := room.f + 1 }) :=
      Works.put (congrArg Room.batId hself).symm (congrArg Room.status hself).le hlive (fun _ _ => hplay)
    apply Works.keeps h hb ((hput.trans htell).trans hnext)
    rw [setRoom_self]
    exact h.begun batId r hb

theorem tick_keeps (h : Inv s) (ids : List String) : Keeps s (s.tick ids) := by
  have hall : ∀ (ids : List String) (s : Center β ρ), Inv s → Keeps s (ids.foldl turn s) := by
    intro ids
    induction ids with
    | nil =>
      intro s h
      exact Keeps.refl h
    | cons id ids ih =>
      intro s h
      have hone := turn_keeps h id
      exact hone.trans (ih _ hone.1)
  unfold tick
  split
  · have hturned := hall ids s h
    dsimp only
    split
    · exact hturned.trans (Aside.keeps hturned.1 ⟨rfl, rfl, rfl, rfl, fun _ h => h, [], (List.append_nil _).symm,
        fun e he => by cases he⟩)
    · exact hturned
  · exact Keeps.refl h

theorem afk_keeps (h : Inv s) (uid : Nat) (batId : String) (flag : Option Nat) : Keeps s (s.afk uid batId flag) := by
  unfold afk
  split
  · exact Keeps.refl h
  next u _ =>
  have hgone : Keeps s ((s.userAfk u flag).delUser uid) := ((userAfk_aside u flag).trans (delUser_aside uid)).keeps h
  dsimp only
  split
  · exact hgone
  · next r hr => exact hgone.trans (roomLeave_keeps hgone.1 hr uid)

theorem request_keeps (h : Inv s) {method : Center β ρ → Nat → Center β ρ × Except Err Unit}
    (hm : ∀ r, s.rooms b = some r → Keeps s (method s r).1) : Keeps s (s.request b method).1 := by
  unfold request
  split
  · exact Keeps.refl h
  · next r hr => exact hm r hr

/-- **No game is cut short**: a report made during the game is not the last one that the room waits for. -/
def Timely (s : Center β ρ) : Call β ρ → Prop
  | .reqCommitReport batId uid report => ∀ r, s.rooms batId = some r → (s.heap r).status = .eGame →
      ((s.heap r).info.lookup uid).isSome → ((s.heap r).alter uid (fun v => { v with report := report })).isAllReported =
        false
  | _ => True

theorem step_keeps (h : Inv s) (call : Call β ρ) (htime : s.Timely call) : Keeps s (s.step call) := by
  cases call with
  | createBattle batId users rate time => exact createBattle_keeps h batId users rate time
  | login uid batId subid => exact (login_aside uid batId subid).keeps h
  | setFd fd uid subid => exact (setFd_aside fd uid subid).keeps h
  | afk uid batId flag => exact afk_keeps h uid batId flag
  | dispatchMsg fd => exact (dispatchMsg_aside fd).keeps h
  | reqPrepare batId uid => exact request_keeps h (fun r hr => roomPrepare_keeps h hr uid)
  | reqLoad batId uid => exact request_keeps h (fun r hr => roomLoad_keeps h hr uid)
  | reqLeave batId uid => exact request_keeps h (fun r hr => roomLeave_keeps h hr uid)
  | reqCommitCmd batId uid body => exact request_keeps h (fun r hr => roomCommitCmd_keeps h hr uid body)
  | reqCommitReport batId uid report =>
    exact request_keeps h (fun r hr => roomCommitReport_keeps h hr uid report (htime r hr))
  | timerCallback timer => exact timerCallback_keeps h timer
  | heartbeat uid on => exact (heartbeat_aside uid on).keeps h
  | tick ids => exact tick_keeps h ids
  | stop =>
    exact Aside.keeps h ⟨rfl, rfl, rfl, rfl, fun _ h => h, [], (List.append_nil _).symm, fun e he => by cases he⟩

theorem run_keeps (calls : List (Call β ρ)) :
    ∀ s : Center β ρ, Inv s → Steps.Along step Timely s calls → Keeps s (calls.foldl step s) := by
  induction calls with
  | nil =>
    intro s h _
    exact Keeps.refl h
  | cons call calls ih =>
    intro s h htime
    have hone := step_keeps h call htime.1
    exact hone.trans (ih _ hone.1 htime.2)

theorem init_inv (debug : Bool) : Inv (init debug : Center β ρ) where
  held _ _ h := by cases h
  gamed _ _ h := by cases h
  begun _ _ h := by cases h
  timed _ h := by cases h
  fair _ h := by cases h

/-- **The life of the rooms from one state to a later one**: statuses rise; every frame sent so far was sent in a game; a
freed room is in no table of rooms, stays freed and does nothing more; and a battle's timer is set only while a room that
is not freed has the battle's id. -/
structure Lives (s s' : Center β ρ) : Prop where
  rises : ∀ r < s.roomCount, (s.heap r).status ≤ (s'.heap r).status
  framed : ∀ r status fds batId f fs, .broadcast r status fds (.notifyPvpCmd batId f fs) ∈ s'.log → status = .eGame
  silent : ∀ r < s.roomCount, (s.heap r).status = .eFree → (∀ b, s'.rooms b ≠ some r) ∧ (s'.heap r).status = .eFree ∧
    ∃ es, s'.log = s.log ++ es ∧ ∀ e ∈ es, e.room ≠ some r
  timed : ∀ b, s'.timerMap (.status b) = true → ∃ r, s'.rooms b = some r ∧ (s'.heap r).status ≠ .eFree

/-- **In every run in which no game is cut short, rooms live from beginning to end.** -/
theorem lives_of_run (debug : Bool) (calls later : List (Call β ρ))
    (htime : Steps.Along step Timely (init debug) (calls ++ later)) :
    Lives (run debug calls) (run debug (calls ++ later)) := by
  obtain ⟨hbefore, hafter⟩ := (Steps.Along.append calls later _).1 htime
  have hs : Inv (run debug calls : Center β ρ) := (run_keeps calls _ (init_inv debug) hbefore).1
  obtain ⟨hs', hgoes⟩ := run_keeps later _ hs hafter
  rw [show run debug (calls ++ later) = later.foldl step (run debug calls) from List.foldl_append]
  refine ⟨hgoes.rises, fun r status fds batId f fs he => hs'.fair _ he, fun r hr hfree => ?_, fun b hb => ?_⟩
  · have hstill : ((later.foldl step (run debug calls)).heap r).status = .eFree :=
      le_antisymm (Status.le_eFree _) (hfree ▸ hgoes.rises r hr)
    refine ⟨fun b hb => (hs'.held b r hb).2.2 hstill, hstill, ?_⟩
    obtain ⟨es, hlog, hes⟩ := hgoes.quiet
    exact ⟨es, hlog, hes r hr hfree⟩
  · obtain ⟨r, hr⟩ := hs'.timed b hb
    exact ⟨r, hr, (hs'.held b r hr).2.2⟩

/-! A battle of two players and one frame. -/

theorem duel_nodup : (([(1, some 0), (2, some 1)] : List (Nat × Option Nat)).map Prod.fst).Nodup := by
  decide

def duel : Roster := ⟨[(1, some 0), (2, some 1)], duel_nodup⟩

def begin : List (Call Unit Unit) :=
  [.createBattle "1" duel (some 1) (some 1), .reqPrepare "1" 1, .reqLoad "1" 1, .reqLoad "1" 2]

def reports : List (Call Unit Unit) := [.reqCommitReport "1" 1 (some ()), .reqCommitReport "1" 2 (some ())]

theorem lives_of_run_bout :
    ((run false (begin ++ [.tick ["1"], .tick ["1"]] ++ reports) : Center Unit Unit).heap 0).status = .eFree ∧
    Lives (run false (begin ++ [.tick ["1"], .tick ["1"]] ++ reports) : Center Unit Unit)
      (run false (begin ++ [.tick ["1"], .tick ["1"]] ++ reports ++ [.tick ["1"], .reqLeave "1" 2])) := by
  refine ⟨by decide +kernel, lives_of_run false _ _ ⟨trivial, trivial, trivial, trivial, trivial, trivial, ?_, ?_, trivial,
    trivial, trivial⟩⟩
  · intro r hr hgame
    cases hr
    revert hgame
    decide +kernel
  · intro r hr hgame
    cases hr
    revert hgame
    decide +kernel

/-- Both players leave and report before the loop has come to the room: it is freed, the loop has it still, and its status
falls, its players are told and its timer is set. -/
theorem freed_lives_on :
    let s : Center Unit Unit := run false (begin ++ [.reqLeave "1" 1, .reqLeave "1" 2] ++ reports)
    let s' : Center Unit Unit := run false (begin ++ [.reqLeave "1" 1, .reqLeave "1" 2] ++ reports ++ [.tick ["1"]])
    (s.heap 0).status = .eFree ∧ s.rooms "1" = none ∧ (s'.heap 0).status = .eSettle ∧ s'.timerMap (.status "1") = true ∧
      ¬ Lives s s' := by
  refine ⟨by decide +kernel, by decide +kernel, by decide +kernel, by decide +kernel, fun h => ?_⟩
  have hrise := h.rises 0 (by decide +kernel)
  revert hrise
  decide +kernel

end Center
end Battle
end Sncpp
