import Mathlib.Data.List.AList
/-!
# ChatRoom — the rooms of the chat service

`chatRoom.lua` and `chatMgr.lua`: the rooms in memory over the table `chat` of the database.  A room that is asked for is
loaded, or made with the default data and saved; the timer releases the memory only.
-/
namespace Sncpp

inductive ChatRoomType where
  | group
  | alliance
  | kingdom
deriving DecidableEq

structure Member where
  admin : Bool
  time : Int
deriving DecidableEq

/-- The messages of a room are left out. -/
structure ChatRoom (υ : Type) [DecidableEq υ] where
  tp : ChatRoomType
  kid : Option Nat
  aid : Option Nat
  members : AList (fun _ : υ => Member)
  memcnt : Nat
  time : Int

namespace ChatRoom

variable {υ : Type} [DecidableEq υ]

def defaultData (now : Int) : ChatRoom υ := ⟨.group, none, none, ∅, 0, now⟩

variable (room : ChatRoom υ)

def joinRoom (members : List (υ × Bool)) (now : Int) : ChatRoom υ :=
  if members = [] then room
  else
    let all := members.foldl (fun all m => all.insert m.1 ⟨m.2, now⟩) room.members
    { room with members := all, memcnt := all.keys.length }

/-- An assertion that fails raises an error. -/
def createRoom (tp : ChatRoomType) (members : List (υ × Bool)) (kid aid : Option Nat) (now : Int) : Option (ChatRoom υ) :=
  if tp = .kingdom ∧ ¬ 0 < kid.getD 0 then none
  else if tp = .alliance ∧ ¬ 0 < aid.getD 0 then none
  else some ({ room with tp := tp, kid := kid, aid := aid }.joinRoom members now)

theorem mem_foldl_insert (now : Int) (x : υ) : ∀ (members : List (υ × Bool)) (all : AList (fun _ : υ => Member)),
    x ∈ members.foldl (fun all m => all.insert m.1 ⟨m.2, now⟩) all ↔ x ∈ all ∨ ∃ admin, (x, admin) ∈ members
  | [], all => by simp
  | m :: members, all => by
    rw [List.foldl_cons, mem_foldl_insert now x members, AList.mem_insert]
    constructor
    · rintro ((rfl | hall) | ⟨admin, hm⟩)
      · exact Or.inr ⟨m.2, List.mem_cons_self⟩
      · exact Or.inl hall
      · exact Or.inr ⟨admin, List.mem_cons_of_mem _ hm⟩
    · rintro (hall | ⟨admin, hm⟩)
      · exact Or.inl (Or.inr hall)
      · rcases List.mem_cons.1 hm with rfl | hm
        · exact Or.inl (Or.inl rfl)
        · exact Or.inr ⟨admin, hm⟩

theorem mem_joinRoom {members : List (υ × Bool)} {x : υ} {admin : Bool} (h : (x, admin) ∈ members) (now : Int) :
    x ∈ (room.joinRoom members now).members := by
  unfold joinRoom
  rw [if_neg (List.ne_nil_of_mem h)]
  exact (mem_foldl_insert now x members room.members).2 (Or.inr ⟨admin, h⟩)

end ChatRoom

structure ChatMgr (υ ρ : Type) [DecidableEq υ] where
  rooms : ρ → Option (ChatRoom υ)
  db : ρ → Option (ChatRoom υ)

namespace ChatMgr

variable {υ ρ : Type} [DecidableEq υ] [DecidableEq ρ]

variable (m : ChatMgr υ ρ) (roomId : ρ)

def save (room : ChatRoom υ) : ChatMgr υ ρ :=
  ⟨Function.update m.rooms roomId (some room), Function.update m.db roomId (some room)⟩

def getRoom (now : Int) : ChatMgr υ ρ × ChatRoom υ :=
  match m.rooms roomId with
  | some room => (m, room)
  | none =>
    match m.db roomId with
    | some room => ({ m with rooms := Function.update m.rooms roomId (some room) }, room)
    | none => (m.save roomId (.defaultData now), .defaultData now)

def createRoom (tp : ChatRoomType) (members : List (υ × Bool)) (kid aid : Option Nat) (now : Int) : ChatMgr υ ρ × Bool :=
  let r := m.getRoom roomId now
  match r.2.createRoom tp members kid aid now with
  | some room => (r.1.save roomId room, true)
  | none => (r.1, false)

def releaseRoom : ChatMgr υ ρ := { m with rooms := Function.update m.rooms roomId none }

def deleteRoom : ChatMgr υ ρ := { m.releaseRoom roomId with db := Function.update m.db roomId none }

def Has (members : List υ) : Prop := ∃ room, m.db roomId = some room ∧ ∀ x ∈ members, x ∈ room.members

variable {m roomId}

theorem db_getRoom (now : Int) {r : ρ} (h : r ≠ roomId) : (m.getRoom roomId now).1.db r = m.db r := by
  unfold getRoom
  split
  · rfl
  split
  · rfl
  · exact Function.update_of_ne h _ _

theorem db_createRoom (tp : ChatRoomType) (members : List (υ × Bool)) (kid aid : Option Nat) (now : Int) {r : ρ}
    (h : r ≠ roomId) :
    (m.createRoom roomId tp members kid aid now).1.db r = m.db r := by
  unfold createRoom
  dsimp only
  split
  · exact (Function.update_of_ne h _ _).trans (db_getRoom now h)
  · exact db_getRoom now h

theorem has_createRoom (members : List (υ × Bool)) (now : Int) :
    (m.createRoom roomId .group members none none now).1.Has roomId (members.map Prod.fst) := by
  refine ⟨_, Function.update_self _ _ _, fun x hx => ?_⟩
  obtain ⟨⟨y, admin⟩, hmem, rfl⟩ := List.mem_map.1 hx
  exact ChatRoom.mem_joinRoom _ hmem now

omit [DecidableEq ρ] in
theorem Has.keep {m' : ChatMgr υ ρ} {members : List υ} (h : m.Has roomId members) (hdb : m'.db roomId = m.db roomId) :
    m'.Has roomId members := by
  unfold Has
  rwa [hdb]

end ChatMgr
end Sncpp
