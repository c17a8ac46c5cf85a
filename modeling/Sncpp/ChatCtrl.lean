import Mathlib.Data.List.AList
/-!
# ChatCtrl — the friends of a player

`chatCtrl.lua` of one player: friends, applications and the blacklist, each record under the id of the other player.  A
request that concerns both runs one half in the other's service by a call and its own half when the call has been
answered; what stands here is the code between the calls.
-/
namespace Sncpp

inductive ChatErr where
  | SERVICE_EXCEPTION
  | ILLEGAL_PARAMS
  | CANT_BE_SELF
  | COUNT_LIMIT
  | CHAT_SELF_APPLY
  | CHAT_HAD_FRIEND
  | CHAT_IN_BLACKS
  | CHAT_HAD_APPLY
  | CHAT_NO_APPLY
  | CHAT_FRIEND_LIMIT
  | CHAT_HAD_BLACKS
  | CHAT_NO_BLACKS
deriving DecidableEq

structure Friend (ρ : Type) where
  top : Bool
  time : Int
  roomId : Option ρ
deriving DecidableEq

/-- An application has the time when it expires, a player of the blacklist the time when it was added. -/
structure ChatCtrl (υ ρ : Type) [DecidableEq υ] where
  friends : AList (fun _ : υ => Friend ρ)
  apply : AList (fun _ : υ => Int)
  blacks : AList (fun _ : υ => Int)

namespace ChatCtrl

variable {υ ρ : Type} [DecidableEq υ]

def defaultData : ChatCtrl υ ρ := ⟨∅, ∅, ∅⟩

variable (d : ChatCtrl υ ρ) (self uid : υ) (now : Int)

/-- `none` is a function that goes on with a call to the other player, with these data; else the request is answered. -/
abbrev Answer := Option (Except ChatErr Unit)

def clearApply : ChatCtrl υ ρ :=
  { d with apply := ⟨d.apply.entries.filter (fun e => now ≤ e.2), d.apply.nodupKeys.sublist List.filter_sublist⟩ }

def addApply : Answer :=
  if uid = self then some (.error .CHAT_SELF_APPLY)
  else if uid ∈ d.friends then some (.error .CHAT_HAD_FRIEND)
  else none

def dealApply : ChatCtrl υ ρ × Except ChatErr Unit :=
  if uid = self then (d, .error .ILLEGAL_PARAMS)
  else if uid ∈ d.blacks then (d, .error .CHAT_IN_BLACKS)
  else
    let d := d.clearApply now
    if uid ∈ d.apply then (d, .error .CHAT_HAD_APPLY)
    else if 200 ≤ d.apply.keys.length then (d, .error .COUNT_LIMIT)
    else ({ d with apply := d.apply.insert uid (now + 604800) }, .ok ())

def rspApply (flag : Bool) : ChatCtrl υ ρ × Answer :=
  if uid = self then (d, some (.error .CHAT_SELF_APPLY))
  else if uid ∈ d.friends then ({ d with apply := d.apply.erase uid }, some (.error .CHAT_HAD_FRIEND))
  else
    let d := d.clearApply now
    if flag then
      match d.apply.lookup uid with
      | none => (d, some (.error .CHAT_NO_APPLY))
      | some time => if time < now then ({ d with apply := d.apply.erase uid }, some (.error .CHAT_NO_APPLY)) else (d, none)
    else ({ d with apply := d.apply.erase uid }, some (.ok ()))

def addFriends : ChatCtrl υ ρ × Except ChatErr Unit :=
  if uid ∉ d.friends ∧ 500 ≤ d.friends.keys.length then (d, .error .CHAT_FRIEND_LIMIT)
  else (⟨d.friends.insert uid ⟨false, now, none⟩, d.apply.erase uid, d.blacks.erase uid⟩, .ok ())

/-- The rest of `rspApply`: the own half, whatever `addFriends` says. -/
def rspApplied : Except ChatErr Unit → ChatCtrl υ ρ × Except ChatErr Unit
  | .ok () => ((d.addFriends uid now).1, .ok ())
  | .error code => (d, .error code)

def delFriends : ChatCtrl υ ρ := { d with friends := d.friends.erase uid }

def setBlacks (flag : Bool) : ChatCtrl υ ρ × Answer :=
  if uid = self then (d, some (.error .CANT_BE_SELF))
  else if flag then
    if uid ∈ d.blacks then (d, some (.error .CHAT_HAD_BLACKS)) else (d, none)
  else if uid ∈ d.blacks then ({ d with blacks := d.blacks.erase uid }, some (.ok ()))
  else (d, some (.error .CHAT_NO_BLACKS))

def setBlacked : Except ChatErr Unit → ChatCtrl υ ρ × Except ChatErr Unit
  | .ok () => (⟨d.friends.erase uid, d.apply.erase uid, d.blacks.insert uid now⟩, .ok ())
  | .error _ => (d, .error .SERVICE_EXCEPTION)

/-- **The data of a player**: no friend is blacklisted or the player itself, and the limits hold. -/
structure Fit (u : υ) (d : ChatCtrl υ ρ) : Prop where
  other : u ∉ d.friends
  apart : ∀ x ∈ d.friends, x ∉ d.blacks
  limit : d.friends.keys.length ≤ 500
  applyLimit : d.apply.keys.length ≤ 200

variable {d self uid}

theorem fit_defaultData : Fit self (defaultData : ChatCtrl υ ρ) where
  other h := by cases h
  apart x h := by cases h
  limit := Nat.zero_le _
  applyLimit := Nat.zero_le _

theorem length_erase_le {β : Type} (l : AList (fun _ : υ => β)) (x : υ) : (l.erase x).keys.length ≤ l.keys.length := by
  rw [AList.keys_erase]
  exact List.length_erase_le

theorem Fit.less (h : Fit self d) {d' : ChatCtrl υ ρ} (hfriends : d'.friends = d.friends)
    (hblacks : ∀ x ∈ d'.blacks, x ∈ d.blacks) (happly : d'.apply.keys.length ≤ d.apply.keys.length) : Fit self d' where
  other := by
    rw [hfriends]
    exact h.other
  apart x hx hb := h.apart x (by rwa [hfriends] at hx) (hblacks x hb)
  limit := by
    rw [hfriends]
    exact h.limit
  applyLimit := Nat.le_trans happly h.applyLimit

theorem Fit.eraseApply (h : Fit self d) (uid : υ) : Fit self { d with apply := d.apply.erase uid } :=
  h.less rfl (fun _ hx => hx) (length_erase_le d.apply uid)

theorem Fit.clearApply (h : Fit self d) (now : Int) : Fit self (d.clearApply now) := by
  refine h.less rfl (fun _ hx => hx) ?_
  show (List.map _ _).length ≤ (List.map _ _).length
  rw [List.length_map, List.length_map]
  exact List.length_filter_le _ _

theorem Fit.dealApply (h : Fit self d) (uid : υ) (now : Int) : Fit self (d.dealApply self uid now).1 := by
  unfold ChatCtrl.dealApply
  split
  · exact h
  split
  · exact h
  dsimp only
  split
  · exact h.clearApply now
  split
  · exact h.clearApply now
  next hno hlim =>
    have hclear := h.clearApply now
    refine ⟨hclear.other, hclear.apart, hclear.limit, ?_⟩
    simp only [AList.keys_insert, List.length_cons]
    rw [List.erase_of_not_mem hno]
    omega

theorem Fit.rspApply (h : Fit self d) (uid : υ) (now : Int) (flag : Bool) : Fit self (d.rspApply self uid now flag).1 := by
  have hclear := h.clearApply now
  unfold ChatCtrl.rspApply
  split
  · exact h
  split
  · exact h.eraseApply uid
  dsimp only
  split
  · split
    · exact hclear
    · split
      · exact hclear.eraseApply uid
      · exact hclear
  · exact hclear.eraseApply uid

theorem Fit.setBlacks (h : Fit self d) (uid : υ) (flag : Bool) : Fit self (d.setBlacks self uid flag).1 := by
  unfold ChatCtrl.setBlacks
  split
  · exact h
  split
  · split <;> exact h
  split
  · exact h.less rfl (fun x hx => (AList.mem_erase.1 hx).2) (Nat.le_refl _)
  · exact h

theorem Fit.addFriends (h : Fit self d) (hne : uid ≠ self) (now : Int) : Fit self (d.addFriends uid now).1 := by
  unfold ChatCtrl.addFriends
  split
  · exact h
  next hroom =>
    exact {
      other := fun hmem => ((AList.mem_insert _).1 hmem).elim (fun heq => hne heq.symm) h.other
      apart := fun x hx hb => by
        obtain ⟨hxu, hb⟩ := AList.mem_erase.1 hb
        exact h.apart x (((AList.mem_insert _).1 hx).resolve_left hxu) hb
      limit := by
        simp only [AList.keys_insert, List.length_cons]
        by_cases hmem : uid ∈ d.friends
        · have hpos := List.length_pos_of_mem (AList.mem_keys.1 hmem)
          rw [List.length_erase_of_mem (AList.mem_keys.1 hmem)]
          have := h.limit
          omega
        · rw [List.erase_of_not_mem (fun hk => hmem (AList.mem_keys.2 hk))]
          have hlt : ¬ 500 ≤ d.friends.keys.length := fun hle => hroom ⟨hmem, hle⟩
          omega
      applyLimit := Nat.le_trans (length_erase_le d.apply uid) h.applyLimit }

theorem Fit.delFriends (h : Fit self d) (uid : υ) : Fit self (d.delFriends uid) where
  other hmem := h.other (AList.mem_erase.1 hmem).2
  apart x hx := h.apart x (AList.mem_erase.1 hx).2
  limit := Nat.le_trans (length_erase_le d.friends uid) h.limit
  applyLimit := h.applyLimit

theorem Fit.rspApplied (h : Fit self d) (hne : uid ≠ self) (now : Int) : ∀ ret, Fit self (d.rspApplied uid now ret).1
  | .ok () => h.addFriends hne now
  | .error _ => h

theorem Fit.setBlacked (h : Fit self d) (uid : υ) (now : Int) : ∀ ret, Fit self (d.setBlacked uid now ret).1
  | .error _ => h
  | .ok () => {
    other := fun hmem => h.other (AList.mem_erase.1 hmem).2
    apart := fun x hx hb => by
      obtain ⟨hxu, hx⟩ := AList.mem_erase.1 hx
      exact h.apart x hx (((AList.mem_insert _).1 hb).resolve_left hxu)
    limit := Nat.le_trans (length_erase_le d.friends uid) h.limit
    applyLimit := Nat.le_trans (length_erase_le d.apply uid) h.applyLimit }

end ChatCtrl
end Sncpp
