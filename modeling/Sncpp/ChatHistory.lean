import Mathlib.Data.List.Induction
import Sncpp.ChatRoom
import Sncpp.Steps
/-!
# ChatHistory — what is said in a room (`chatRoom.lua`)

The members of a room and their count, and the last 500 messages with their ids, which wrap to 1.  `quitRoom` looks
for those who leave in `self.members`, which there is not, so that it raises as soon as it is given somebody; the room
is dissolved by quits that name nobody.  A chat without a message raises as well, in the line that logs it.
-/
namespace Sncpp

structure ChatMsg where
  uid : Option Int
  tp : Option Nat
  txt : Option String
  time : Option Int

structure ChatSent where
  uid : Int
  tp : Nat
  txt : String
  time : Int
deriving DecidableEq

structure ChatKept extends ChatSent where
  id : Nat
deriving DecidableEq

inductive RoomErr where
  | illegalParams
  | sendMsg
deriving DecidableEq

structure TalkRoom extends ChatRoom Int where
  msgId : Nat
  msgList : List ChatKept

namespace TalkRoom

def defaultData (now : Int) : TalkRoom := { ChatRoom.defaultData now with msgId := 0, msgList := [] }

def knownType (tp : Nat) : Bool := decide (1 ≤ tp ∧ tp ≤ 5)

variable (room : TalkRoom)

/-- The loop of `joinRoom`; someone without an id is passed over. -/
def joinLoop (now : Int) (members : AList (fun _ : Int => Member)) (v : Option Int × Bool) :
    AList (fun _ : Int => Member) :=
  match v.1 with
  | some uid => members.insert uid ⟨v.2, now⟩
  | none => members

def joinRoom (members : List (Option Int × Bool)) (now : Int) : TalkRoom × Bool :=
  if members = [] then (room, false)
  else
    let all := members.foldl (joinLoop now) room.members
    ({ room with members := all, memcnt := all.keys.length }, members.any (fun v => v.1.isSome))

/-- An assertion that fails raises an error. -/
def createRoom (tp : Option ChatRoomType) (members : List (Option Int × Bool)) (kid aid : Option Nat) (now : Int) :
    Option TalkRoom :=
  if tp = some .kingdom ∧ ¬ 0 < kid.getD 0 then none
  else if tp = some .alliance ∧ ¬ 0 < aid.getD 0 then none
  else some (TalkRoom.joinRoom { room with tp := tp.getD .group, kid := kid, aid := aid } members now).1

/-- The loop of `quitRoom`.  There is no `self.members` to look for an id in, which raises an error. -/
def quitLoop (members : AList (fun _ : Int => Member)) : List (Option Int) → Option (AList (fun _ : Int => Member) × Bool)
  | [] => some (members, false)
  | none :: vs => quitLoop members vs
  | some _ :: _ => none

def quitRoom (vs : List (Option Int)) : Option (Option TalkRoom × Bool) :=
  if vs = [] then some (some room, false)
  else (quitLoop room.members vs).map (fun r =>
    (if r.1.keys.length ≤ 1 then none else some { room with members := r.1, memcnt := r.1.keys.length }, r.2))

def nextId (msgId : Nat) : Nat := if 2147483647 ≤ msgId + 1 then 1 else msgId + 1

def keep (uid : Int) (tp : Nat) (txt : String) (time : Int) : TalkRoom :=
  let msgId := nextId room.msgId
  let msgList := room.msgList ++ [⟨⟨uid, tp, txt, time⟩, msgId⟩]
  { room with msgId := msgId, msgList := if 500 < msgList.length then msgList.tail else msgList }

/-- Without a message the line that logs it raises an error. -/
def chat (msg : Option ChatMsg) (now : Int) : Option (TalkRoom × Option RoomErr) :=
  match msg with
  | none => none
  | some ⟨some uid, some tp, some txt, time⟩ =>
    some (if knownType tp then
      match room.tp with
      | .group =>
        if uid ≤ 0 ∨ uid ∉ room.members then (room, some .sendMsg) else (room.keep uid tp txt (time.getD now), none)
      | .alliance => if uid ≤ 0 then (room, some .sendMsg) else (room.keep uid tp txt (time.getD now), none)
      | .kingdom => (room.keep 0 tp txt (time.getD now), none)
    else (room, some .illegalParams))
  | some _ => some (room, some .illegalParams)

end TalkRoom

inductive RoomCall where
  | createRoom (tp : Option ChatRoomType) (members : List (Option Int × Bool)) (kid aid : Option Nat) (now : Int)
  | joinRoom (members : List (Option Int × Bool)) (now : Int)
  | quitRoom (members : List (Option Int))
  | chat (msg : Option ChatMsg) (now : Int)

def RoomCall.exec (room : TalkRoom) : RoomCall → Option (Option TalkRoom × Bool)
  | .createRoom tp members kid aid now => (room.createRoom tp members kid aid now).map (fun room => (some room, false))
  | .joinRoom members now => some (some (room.joinRoom members now).1, false)
  | .quitRoom members => (room.quitRoom members).map (fun r => (r.1, false))
  | .chat msg now => (room.chat msg now).map (fun r => (some r.1, r.2.isNone))

def RoomCall.sent (tp : ChatRoomType) : RoomCall → Option ChatSent
  | .chat (some ⟨some uid, some type, some txt, time⟩) now =>
    some ⟨if tp = .kingdom then 0 else uid, type, txt, time.getD now⟩
  | _ => none

structure Talk where
  room : Option TalkRoom
  accepted : List ChatSent

namespace Talk

def new (now : Int) : Talk := ⟨some (.defaultData now), []⟩

/-- A call that raises leaves all as it was. -/
def step (w : Talk) (c : RoomCall) : Talk :=
  match w.room with
  | none => w
  | some room =>
    match c.exec room with
    | none => w
    | some (left, accepts) => ⟨left, w.accepted ++ (if accepts then (c.sent room.tp).toList else [])⟩

/-- The message accepted after `i` others has the id after theirs, which wrap to 1. -/
def keptAs (i : Nat) (sent : ChatSent) : ChatKept := ⟨sent, i % 2147483646 + 1⟩

def numbered (accepted : List ChatSent) : List ChatKept := accepted.mapIdx keptAs

def history (accepted : List ChatSent) : List ChatKept := (numbered accepted).drop (accepted.length - 500)

def Says (room : TalkRoom) (msg : Option ChatMsg) : Prop :=
  ∃ uid tp txt time, msg = some ⟨some uid, some tp, some txt, time⟩ ∧ uid ∈ room.members ∧ TalkRoom.knownType tp = true

def remaining (room : TalkRoom) (members : List (Option Int)) : List Int :=
  room.members.keys.filter (fun uid => some uid ∉ members)

/-- **What a call should do**: it does not raise, the members are counted and the last 500 messages kept, a group takes
what members say, and a room is dissolved by a quit that leaves one member or none. -/
def Right (w : Talk) (c : RoomCall) : Prop :=
  ∀ room, w.room = some room → ∃ left accepts, c.exec room = some (left, accepts) ∧
    (∀ room', left = some room' →
      room'.memcnt = room'.members.keys.length ∧ room'.msgList = history (w.step c).accepted) ∧
    (∀ msg now, c = .chat msg now → room.tp = .group → (accepts = true ↔ Says room msg)) ∧
    (left = none ↔ ∃ members, c = .quitRoom members ∧ (remaining room members).length ≤ 1)

def Fits (w : Talk) (c : RoomCall) : Prop :=
  ∀ room, w.room = some room →
    match c with
    | .createRoom tp _ kid aid _ => (tp = some .kingdom → 0 < kid.getD 0) ∧ (tp = some .alliance → 0 < aid.getD 0)
    | .joinRoom _ _ => True
    | .quitRoom members => (∀ v ∈ members, v = none) ∧ (members = [] → 1 < room.members.keys.length)
    | .chat msg _ => msg ≠ none ∧ (room.tp = .group → Says room msg → ∀ m uid, msg = some m → m.uid = some uid → 0 < uid)

/-- The members are counted, and the last messages are kept; the last id is that of the last message. -/
structure Good (w : Talk) : Prop where
  memcnt : ∀ room, w.room = some room → room.memcnt = room.members.keys.length
  msgId : ∀ room, w.room = some room → TalkRoom.nextId room.msgId = w.accepted.length % 2147483646 + 1
  msgList : ∀ room, w.room = some room → room.msgList = history w.accepted

theorem numbered_snoc (accepted : List ChatSent) (sent : ChatSent) :
    numbered (accepted ++ [sent]) = numbered accepted ++ [keptAs accepted.length sent] := by
  rw [numbered, List.mapIdx_append]
  simp [numbered]

theorem length_numbered (accepted : List ChatSent) : (numbered accepted).length = accepted.length := List.length_mapIdx

theorem history_snoc (accepted : List ChatSent) (sent : ChatSent) : history (accepted ++ [sent]) =
    (if 500 < (history accepted ++ [keptAs accepted.length sent]).length then
      (history accepted ++ [keptAs accepted.length sent]).tail
    else history accepted ++ [keptAs accepted.length sent]) := by
  have hlength : (history accepted ++ [keptAs accepted.length sent]).length =
      accepted.length - (accepted.length - 500) + 1 := by
    rw [List.length_append, history, List.length_drop, length_numbered]
    rfl
  have hdrop : ∀ k, k ≤ accepted.length → (numbered accepted ++ [keptAs accepted.length sent]).drop k =
      (numbered accepted).drop k ++ [keptAs accepted.length sent] :=
    fun k hk => List.drop_append_of_le_length (by rwa [length_numbered])
  rw [hlength, history, numbered_snoc, List.length_append, List.length_singleton]
  by_cases hfull : 500 ≤ accepted.length
  · have hone : accepted.length + 1 - 500 = accepted.length - 500 + 1 := by omega
    rw [if_pos (by omega), history, ← hdrop _ (by omega), ← List.drop_one, List.drop_drop, hone]
  · have hnone : accepted.length + 1 - 500 = accepted.length - 500 := by omega
    rw [if_neg (by omega), history, ← hdrop _ (by omega), hnone]

theorem nextId_mod (n : Nat) : TalkRoom.nextId (n % 2147483646 + 1) = (n + 1) % 2147483646 + 1 := by
  unfold TalkRoom.nextId
  split
  · omega
  · omega

variable {w : Talk} {room : TalkRoom}

theorem Good.keep (h : w.Good) (hroom : w.room = some room) (uid : Int) (tp : Nat) (txt : String) (time : Int) :
    (room.keep uid tp txt time).msgList = history (w.accepted ++ [⟨uid, tp, txt, time⟩]) ∧
    TalkRoom.nextId (room.keep uid tp txt time).msgId =
      (w.accepted ++ [(⟨uid, tp, txt, time⟩ : ChatSent)]).length % 2147483646 + 1 := by
  have hid := h.msgId room hroom
  have hkept : keptAs w.accepted.length ⟨uid, tp, txt, time⟩ = ⟨⟨uid, tp, txt, time⟩, TalkRoom.nextId room.msgId⟩ := by
    rw [hid]
    rfl
  rw [List.length_append, List.length_singleton, ← nextId_mod, ← hid, history_snoc, hkept, ← h.msgList room hroom]
  exact ⟨rfl, rfl⟩

theorem good_room {accepted : List ChatSent} (hcount : room.memcnt = room.members.keys.length)
    (hid : TalkRoom.nextId room.msgId = accepted.length % 2147483646 + 1) (hlist : room.msgList = history accepted) :
    Good ⟨some room, accepted⟩ := by
  constructor
  · rintro _ ⟨⟩
    exact hcount
  · rintro _ ⟨⟩
    exact hid
  · rintro _ ⟨⟩
    exact hlist

theorem good_dissolved (accepted : List ChatSent) : Good ⟨none, accepted⟩ := by
  constructor
  · rintro _ ⟨⟩
  · rintro _ ⟨⟩
  · rintro _ ⟨⟩

theorem length_joinRoom (room : TalkRoom) (hcount : room.memcnt = room.members.keys.length)
    (members : List (Option Int × Bool)) (now : Int) :
    (room.joinRoom members now).1.memcnt = (room.joinRoom members now).1.members.keys.length := by
  unfold TalkRoom.joinRoom
  split
  · exact hcount
  · rfl

theorem msgs_joinRoom (room : TalkRoom) (members : List (Option Int × Bool)) (now : Int) :
    (room.joinRoom members now).1.msgId = room.msgId ∧ (room.joinRoom members now).1.msgList = room.msgList := by
  unfold TalkRoom.joinRoom
  split
  · exact ⟨rfl, rfl⟩
  · exact ⟨rfl, rfl⟩

theorem quitLoop_eq (all : AList (fun _ : Int => Member)) : ∀ vs : List (Option Int),
    TalkRoom.quitLoop all vs = if ∀ v ∈ vs, v = none then some (all, false) else none
  | [] => by simp [TalkRoom.quitLoop]
  | none :: vs => by simp [TalkRoom.quitLoop, quitLoop_eq all vs]
  | some uid :: vs => by simp [TalkRoom.quitLoop]

theorem exec_quitRoom {members : List (Option Int)} (hnil : members ≠ []) : (RoomCall.quitRoom members).exec room =
    if ∀ v ∈ members, v = none then
      some (if room.members.keys.length ≤ 1 then none else some { room with memcnt := room.members.keys.length }, false)
    else none := by
  rw [RoomCall.exec, TalkRoom.quitRoom, if_neg hnil, quitLoop_eq]
  split
  · rfl
  · rfl

theorem remaining_none {members : List (Option Int)} (h : ∀ v ∈ members, v = none) :
    remaining room members = room.members.keys :=
  List.filter_eq_self.2 (fun uid _ => decide_eq_true (fun hmem => by cases h _ hmem))

variable {c : RoomCall}

theorem not_right (hroom : w.room = some room) (hexec : c.exec room = none) : ¬w.Right c := by
  intro h
  obtain ⟨left, accepts, heq, -⟩ := h room hroom
  rw [hexec] at heq
  cases heq

theorem right_iff (hroom : w.room = some room) {left : Option TalkRoom} {accepts : Bool}
    (hexec : c.exec room = some (left, accepts)) : w.Right c ↔
      (∀ room', left = some room' →
        room'.memcnt = room'.members.keys.length ∧ room'.msgList = history (w.step c).accepted) ∧
      (∀ msg now, c = .chat msg now → room.tp = .group → (accepts = true ↔ Says room msg)) ∧
      (left = none ↔ ∃ members, c = .quitRoom members ∧ (remaining room members).length ≤ 1) := by
  constructor
  · intro h
    obtain ⟨left', accepts', heq, hright⟩ := h room hroom
    obtain ⟨rfl, rfl⟩ := Prod.mk.inj (Option.some.inj (hexec.symm.trans heq))
    exact hright
  · intro h room' hroom'
    obtain rfl := Option.some.inj (hroom.symm.trans hroom')
    exact ⟨left, accepts, hexec, h⟩

theorem step_eq (hroom : w.room = some room) {left : Option TalkRoom} {accepts : Bool}
    (hexec : c.exec room = some (left, accepts)) :
    w.step c = ⟨left, w.accepted ++ (if accepts then (c.sent room.tp).toList else [])⟩ := by
  simp only [step, hroom, hexec]

theorem Good.quiet (h : w.Good) (hroom : w.room = some room) {room' : TalkRoom}
    (hexec : c.exec room = some (some room', false)) (hcount : room'.memcnt = room'.members.keys.length)
    (hmsgs : room'.msgId = room.msgId ∧ room'.msgList = room.msgList) :
    (w.step c).Good ∧ (w.Right c ↔ (∀ msg now, c = .chat msg now → room.tp = .group → ¬Says room msg) ∧
      ∀ members, c = .quitRoom members → 1 < (remaining room members).length) := by
  have hstep := step_eq hroom hexec
  simp only [Bool.false_eq_true, if_false, List.append_nil] at hstep
  have hlist : room'.msgList = history w.accepted := hmsgs.2.trans (h.msgList room hroom)
  constructor
  · rw [hstep]
    exact good_room hcount (by rw [hmsgs.1]; exact h.msgId room hroom) hlist
  · rw [right_iff hroom hexec, hstep]
    constructor
    · rintro ⟨-, hspeak, hquit⟩
      refine ⟨fun msg now hc htp hs => Bool.false_ne_true ((hspeak msg now hc htp).2 hs), fun members hc => ?_⟩
      exact not_le.1 (fun hle => by cases hquit.2 ⟨members, hc, hle⟩)
    · rintro ⟨hspeak, hquit⟩
      refine ⟨?_, fun msg now hc htp => iff_of_false Bool.false_ne_true (hspeak msg now hc htp), ?_⟩
      · rintro _ ⟨⟩
        exact ⟨hcount, hlist⟩
      · refine iff_of_false (Option.some_ne_none _) ?_
        rintro ⟨members, hc, hle⟩
        exact (hquit members hc).not_ge hle

theorem Good.speaks (h : w.Good) (hroom : w.room = some room) {msg : Option ChatMsg} {now : Int} (uid : Int) (tp : Nat)
    (txt : String) (time : Int)
    (hexec : (RoomCall.chat msg now).exec room = some (some (room.keep uid tp txt time), true))
    (hsent : (RoomCall.chat msg now).sent room.tp = some ⟨uid, tp, txt, time⟩) :
    (w.step (.chat msg now)).Good ∧ (w.Right (.chat msg now) ↔ (room.tp = .group → Says room msg)) := by
  have hstep := step_eq hroom hexec
  simp only [if_true, hsent, Option.toList_some] at hstep
  obtain ⟨hlist, hid⟩ := h.keep hroom uid tp txt time
  constructor
  · rw [hstep]
    exact good_room (h.memcnt room hroom) hid hlist
  · rw [right_iff hroom hexec, hstep]
    constructor
    · rintro ⟨-, hspeak, -⟩ htp
      exact (hspeak msg now rfl htp).1 rfl
    · intro hspeak
      refine ⟨?_, ?_, ?_⟩
      · rintro _ ⟨⟩
        exact ⟨h.memcnt room hroom, hlist⟩
      · rintro _ _ ⟨⟩ htp
        exact iff_of_true rfl (hspeak htp)
      · refine iff_of_false (Option.some_ne_none _) ?_
        rintro ⟨members, hc, -⟩
        cases hc

theorem createRoom_spec (h : w.Good) (hroom : w.room = some room) (tp : Option ChatRoomType)
    (members : List (Option Int × Bool)) (kid aid : Option Nat) (now : Int) :
    (w.Right (.createRoom tp members kid aid now) ↔ w.Fits (.createRoom tp members kid aid now)) ∧
    (w.Fits (.createRoom tp members kid aid now) → (w.step (.createRoom tp members kid aid now)).Good) := by
  have hfits : w.Fits (.createRoom tp members kid aid now) ↔
      (tp = some .kingdom → 0 < kid.getD 0) ∧ (tp = some .alliance → 0 < aid.getD 0) :=
    ⟨fun hf => hf room hroom, fun hf _ _ => hf⟩
  rw [hfits]
  by_cases hfit : (tp = some .kingdom → 0 < kid.getD 0) ∧ (tp = some .alliance → 0 < aid.getD 0)
  · have hexec : (RoomCall.createRoom tp members kid aid now).exec room =
        some (some (TalkRoom.joinRoom { room with tp := tp.getD .group, kid := kid, aid := aid } members now).1,
          false) := by
      rw [RoomCall.exec, TalkRoom.createRoom, if_neg (fun hno => hno.2 (hfit.1 hno.1)),
        if_neg (fun hno => hno.2 (hfit.2 hno.1))]
      rfl
    obtain ⟨hgood, hright⟩ := h.quiet hroom hexec
      (length_joinRoom { room with tp := tp.getD .group, kid := kid, aid := aid } (h.memcnt room hroom) members now)
      (msgs_joinRoom _ members now)
    refine ⟨iff_of_true (hright.2 ⟨?_, ?_⟩) hfit, fun _ => hgood⟩
    · rintro _ _ ⟨⟩
    · rintro _ ⟨⟩
  · have hexec : (RoomCall.createRoom tp members kid aid now).exec room = none := by
      rw [RoomCall.exec, TalkRoom.createRoom]
      split
      · rfl
      · next hkingdom =>
        have halliance : tp = some .alliance ∧ ¬ 0 < aid.getD 0 := by
          by_contra hno
          exact hfit ⟨fun htp => not_not.1 (fun hkid => hkingdom ⟨htp, hkid⟩),
            fun htp => not_not.1 (fun haid => hno ⟨htp, haid⟩)⟩
        rw [if_pos halliance]
        rfl
    exact ⟨iff_of_false (not_right hroom hexec) hfit, fun hf => absurd hf hfit⟩

theorem joinRoom_spec (h : w.Good) (hroom : w.room = some room) (members : List (Option Int × Bool)) (now : Int) :
    w.Right (.joinRoom members now) ∧ (w.step (.joinRoom members now)).Good := by
  obtain ⟨hgood, hright⟩ := h.quiet hroom (c := .joinRoom members now) rfl
    (length_joinRoom _ (h.memcnt room hroom) members now) (msgs_joinRoom _ members now)
  refine ⟨hright.2 ⟨?_, ?_⟩, hgood⟩
  · rintro _ _ ⟨⟩
  · rintro _ ⟨⟩

theorem Good.stays (h : w.Good) (hroom : w.room = some room) {members : List (Option Int)} {room' : TalkRoom}
    (hexec : (RoomCall.quitRoom members).exec room = some (some room', false))
    (hcount : room'.memcnt = room'.members.keys.length)
    (hmsgs : room'.msgId = room.msgId ∧ room'.msgList = room.msgList) :
    (w.step (.quitRoom members)).Good ∧ (w.Right (.quitRoom members) ↔ 1 < (remaining room members).length) := by
  obtain ⟨hgood, hright⟩ := h.quiet hroom hexec hcount hmsgs
  refine ⟨hgood, hright.trans ⟨fun hr => hr.2 members rfl, fun hr => ⟨?_, ?_⟩⟩⟩
  · rintro _ _ ⟨⟩
  · rintro _ ⟨⟩
    exact hr

theorem Good.dissolves (hroom : w.room = some room) {members : List (Option Int)}
    (hexec : (RoomCall.quitRoom members).exec room = some (none, false)) :
    (w.step (.quitRoom members)).Good ∧ (w.Right (.quitRoom members) ↔ (remaining room members).length ≤ 1) := by
  constructor
  · rw [step_eq hroom hexec]
    exact good_dissolved _
  · rw [right_iff hroom hexec]
    constructor
    · rintro ⟨-, -, hquit⟩
      obtain ⟨_, ⟨⟩, hle⟩ := hquit.1 rfl
      exact hle
    · intro hle
      refine ⟨?_, ?_, iff_of_true rfl ⟨members, rfl, hle⟩⟩
      · rintro _ ⟨⟩
      · rintro _ _ ⟨⟩

theorem fits_quitRoom (hroom : w.room = some room) (members : List (Option Int)) : w.Fits (.quitRoom members) ↔
    (∀ v ∈ members, v = none) ∧ (members = [] → 1 < room.members.keys.length) := by
  constructor
  · exact fun hf => hf room hroom
  · intro hf room' hroom'
    obtain rfl := Option.some.inj (hroom.symm.trans hroom')
    exact hf

theorem quitRoom_spec (h : w.Good) (hroom : w.room = some room) (members : List (Option Int)) :
    (w.Right (.quitRoom members) ↔ w.Fits (.quitRoom members)) ∧
    (w.Fits (.quitRoom members) → (w.step (.quitRoom members)).Good) := by
  rw [fits_quitRoom hroom]
  by_cases hnone : ∀ v ∈ members, v = none
  · have hall : remaining room members = room.members.keys := remaining_none hnone
    by_cases hnil : members = []
    · subst hnil
      obtain ⟨hgood, hright⟩ := h.stays hroom (show (RoomCall.quitRoom []).exec room = some (some room, false) from rfl)
        (h.memcnt room hroom) ⟨rfl, rfl⟩
      rw [hright, hall]
      exact ⟨⟨fun hmore => ⟨hnone, fun _ => hmore⟩, fun hf => hf.2 rfl⟩, fun _ => hgood⟩
    have hfit : (∀ v ∈ members, v = none) ∧ (members = [] → 1 < room.members.keys.length) :=
      ⟨hnone, fun hm => absurd hm hnil⟩
    by_cases hone : room.members.keys.length ≤ 1
    · obtain ⟨hgood, hright⟩ := Good.dissolves hroom
        (show (RoomCall.quitRoom members).exec room = some (none, false) by
          rw [exec_quitRoom hnil, if_pos hnone, if_pos hone])
      rw [hright, hall]
      exact ⟨iff_of_true hone hfit, fun _ => hgood⟩
    · obtain ⟨hgood, hright⟩ := h.stays hroom
        (show (RoomCall.quitRoom members).exec room =
            some (some { room with memcnt := room.members.keys.length }, false) by
          rw [exec_quitRoom hnil, if_pos hnone, if_neg hone]) rfl ⟨rfl, rfl⟩
      rw [hright, hall]
      exact ⟨iff_of_true (not_le.1 hone) hfit, fun _ => hgood⟩
  · have hnil : members ≠ [] := fun hm => hnone (fun v hv => by rw [hm] at hv; cases hv)
    have hexec : (RoomCall.quitRoom members).exec room = none := by rw [exec_quitRoom hnil, if_neg hnone]
    exact ⟨iff_of_false (not_right hroom hexec) (fun hf => hnone hf.1), fun hf => absurd hf.1 hnone⟩

theorem Good.refuses (h : w.Good) (hroom : w.room = some room) (msg : Option ChatMsg) (now : Int)
    (hexec : (RoomCall.chat msg now).exec room = some (some room, false)) :
    (w.step (.chat msg now)).Good ∧ (w.Right (.chat msg now) ↔ (room.tp = .group → ¬Says room msg)) := by
  obtain ⟨hgood, hright⟩ := h.quiet hroom hexec (h.memcnt room hroom) ⟨rfl, rfl⟩
  refine ⟨hgood, hright.trans ⟨fun hr htp => hr.1 msg now rfl htp, fun hr => ⟨?_, ?_⟩⟩⟩
  · rintro _ _ ⟨⟩ htp
    exact hr htp
  · rintro _ ⟨⟩

theorem says_iff {uid : Int} {tp : Nat} {txt : String} {time : Option Int} :
    Says room (some ⟨some uid, some tp, some txt, time⟩) ↔ uid ∈ room.members ∧ TalkRoom.knownType tp = true := by
  constructor
  · rintro ⟨uid', tp', txt', time', heq, hspeak⟩
    cases heq
    exact hspeak
  · exact fun hspeak => ⟨uid, tp, txt, time, rfl, hspeak⟩

theorem chat_full (h : w.Good) (hroom : w.room = some room) (uid : Int) (tp : Nat) (txt : String) (time : Option Int)
    (now : Int) :
    (w.Right (.chat (some ⟨some uid, some tp, some txt, time⟩) now) ↔
      (room.tp = .group → Says room (some ⟨some uid, some tp, some txt, time⟩) → 0 < uid)) ∧
    (w.step (.chat (some ⟨some uid, some tp, some txt, time⟩) now)).Good := by
  have hrefuses := h.refuses hroom (some ⟨some uid, some tp, some txt, time⟩) now
  by_cases hknown : TalkRoom.knownType tp = true
  · cases htp : room.tp with
    | group =>
      by_cases hmember : uid ≤ 0 ∨ uid ∉ room.members
      · obtain ⟨hgood, hright⟩ := hrefuses (by simp [RoomCall.exec, TalkRoom.chat, hknown, htp, hmember])
        refine ⟨hright.trans ?_, hgood⟩
        constructor
        · exact fun hno _ hspeak => absurd hspeak (hno htp)
        · intro hpos _ hspeak
          have hlt := hpos rfl hspeak
          rcases hmember with hle | hnot
          · omega
          · exact hnot (says_iff.1 hspeak).1
      · obtain ⟨hpos, hin⟩ := not_or.1 hmember
        obtain ⟨hgood, hright⟩ := h.speaks hroom uid tp txt (time.getD now)
          (show (RoomCall.chat (some ⟨some uid, some tp, some txt, time⟩) now).exec room = _ by
            simp [RoomCall.exec, TalkRoom.chat, hknown, htp, hmember])
          (by simp [RoomCall.sent, htp])
        exact ⟨hright.trans (iff_of_true (fun _ => says_iff.2 ⟨not_not.1 hin, hknown⟩) (fun _ _ => by omega)), hgood⟩
    | alliance =>
      by_cases hle : uid ≤ 0
      · obtain ⟨hgood, hright⟩ := hrefuses (by simp [RoomCall.exec, TalkRoom.chat, hknown, htp, hle])
        exact ⟨hright.trans (iff_of_true (fun hg => by cases htp.symm.trans hg) (fun hg => by cases hg)), hgood⟩
      · obtain ⟨hgood, hright⟩ := h.speaks hroom uid tp txt (time.getD now)
          (show (RoomCall.chat (some ⟨some uid, some tp, some txt, time⟩) now).exec room = _ by
            simp [RoomCall.exec, TalkRoom.chat, hknown, htp, hle])
          (by simp [RoomCall.sent, htp])
        exact ⟨hright.trans (iff_of_true (fun hg => by cases htp.symm.trans hg) (fun hg => by cases hg)), hgood⟩
    | kingdom =>
      obtain ⟨hgood, hright⟩ := h.speaks hroom 0 tp txt (time.getD now)
        (show (RoomCall.chat (some ⟨some uid, some tp, some txt, time⟩) now).exec room = _ by
          simp [RoomCall.exec, TalkRoom.chat, hknown, htp])
        (by simp [RoomCall.sent, htp])
      exact ⟨hright.trans (iff_of_true (fun hg => by cases htp.symm.trans hg) (fun hg => by cases hg)), hgood⟩
  · obtain ⟨hgood, hright⟩ := hrefuses (by simp [RoomCall.exec, TalkRoom.chat, hknown])
    have hno : ¬Says room (some ⟨some uid, some tp, some txt, time⟩) := fun hspeak => hknown (says_iff.1 hspeak).2
    exact ⟨hright.trans (iff_of_true (fun _ => hno) (fun _ hspeak => absurd hspeak hno)), hgood⟩

theorem fits_chat (hroom : w.room = some room) (msg : Option ChatMsg) (now : Int) : w.Fits (.chat msg now) ↔
    msg ≠ none ∧ (room.tp = .group → Says room msg → ∀ m uid, msg = some m → m.uid = some uid → 0 < uid) := by
  constructor
  · exact fun hf => hf room hroom
  · intro hf room' hroom'
    obtain rfl := Option.some.inj (hroom.symm.trans hroom')
    exact hf

theorem Good.lacks (h : w.Good) (hroom : w.room = some room) (m : ChatMsg) (now : Int)
    (hexec : (RoomCall.chat (some m) now).exec room = some (some room, false)) (hno : ¬Says room (some m)) :
    (w.Right (.chat (some m) now) ↔ w.Fits (.chat (some m) now)) ∧
    (w.Fits (.chat (some m) now) → (w.step (.chat (some m) now)).Good) := by
  obtain ⟨hgood, hright⟩ := h.refuses hroom (some m) now hexec
  refine ⟨iff_of_true (hright.2 (fun _ => hno)) ?_, fun _ => hgood⟩
  exact (fits_chat hroom (some m) now).2 ⟨Option.some_ne_none m, fun _ hspeak => absurd hspeak hno⟩

theorem chat_spec (h : w.Good) (hroom : w.room = some room) (msg : Option ChatMsg) (now : Int) :
    (w.Right (.chat msg now) ↔ w.Fits (.chat msg now)) ∧ (w.Fits (.chat msg now) → (w.step (.chat msg now)).Good) := by
  have hparts : ∀ {m : ChatMsg}, m.uid = none ∨ m.tp = none ∨ m.txt = none → ¬Says room (some m) := by
    rintro m hm ⟨uid, tp, txt, time, heq, -⟩
    cases heq
    rcases hm with hm | hm | hm <;> cases hm
  cases msg with
  | none =>
    have hno : ¬w.Fits (.chat none now) := fun hf => ((fits_chat hroom none now).1 hf).1 rfl
    exact ⟨iff_of_false (not_right hroom rfl) hno, fun hf => absurd hf hno⟩
  | some m =>
    obtain ⟨uid, tp, txt, time⟩ := m
    cases uid with
    | none => exact h.lacks hroom _ now rfl (hparts (.inl rfl))
    | some uid =>
      cases tp with
      | none => exact h.lacks hroom _ now rfl (hparts (.inr (.inl rfl)))
      | some tp =>
        cases txt with
        | none => exact h.lacks hroom _ now rfl (hparts (.inr (.inr rfl)))
        | some txt =>
          obtain ⟨hright, hgood⟩ := chat_full h hroom uid tp txt time now
          refine ⟨hright.trans ?_, fun _ => hgood⟩
          rw [fits_chat hroom]
          constructor
          · refine fun hpos => ⟨Option.some_ne_none _, ?_⟩
            rintro htp hspeak _ _ ⟨⟩ ⟨⟩
            exact hpos htp hspeak
          · exact fun hf htp hspeak => hf.2 htp hspeak _ _ rfl rfl

theorem good_new (now : Int) : (new now).Good := good_room rfl rfl List.drop_nil.symm

theorem step_spec (w : Talk) (c : RoomCall) (h : w.Good) : (w.Right c ↔ w.Fits c) ∧ (w.Fits c → (w.step c).Good) := by
  cases hroom : w.room with
  | none =>
    have hnone : ∀ room, w.room ≠ some room := fun room heq => by rw [hroom] at heq; cases heq
    have hstep : w.step c = w := by rw [step, hroom]
    rw [hstep]
    exact ⟨iff_of_true (fun room heq => absurd heq (hnone room)) (fun room heq => absurd heq (hnone room)), fun _ => h⟩
  | some room =>
    cases c with
    | createRoom tp members kid aid now => exact createRoom_spec h hroom tp members kid aid now
    | joinRoom members now =>
      obtain ⟨hright, hgood⟩ := joinRoom_spec h hroom members now
      exact ⟨iff_of_true hright (fun _ _ => trivial), fun _ => hgood⟩
    | quitRoom members => exact quitRoom_spec h hroom members
    | chat msg now => exact chat_spec h hroom msg now

/-- **The history of a room.**  In any run from a new room all calls do what they should exactly if each of them fits. -/
theorem history_iff_of_run (now : Int) (calls : List RoomCall) :
    Steps.Along step Right (new now) calls ↔ Steps.Along step Fits (new now) calls :=
  Steps.along_iff step_spec calls (new now) (good_new now)

theorem quit_raises : ¬Steps.Along step Right (new 0)
    [.createRoom none [(some 101, true), (some 102, false), (some 103, false)] none none 0, .quitRoom [some 101]] := by
  rintro ⟨-, hquit, -⟩
  obtain ⟨left, accepts, hexec, -⟩ := hquit _ rfl
  cases hexec

end Talk
end Sncpp
