import Sncpp.Battle
/-!
# BattleFd — the sockets of a battle's players

`fdMap` is to give the user of a socket, and each user remembers its own.  A user that changes or leaves its socket
clears the entry of the socket it remembers, whoever has it now.  That is right as long as no socket number comes to a
second user while the first is still there (`Unshared`): then the two sides agree in every state (`Bound`), and a
message goes to the user that was bound to its socket last.
-/
namespace Sncpp
namespace Battle

variable {β ρ : Type}

def Call.moves : Call β ρ → Option Nat
  | .setFd _ uid _ => some uid
  | .afk uid _ _ => some uid
  | _ => none

namespace Center

variable {s s' s'' : Center β ρ} {u uid : Nat}

def Enters (s : Center β ρ) (u : Nat) : Prop := ∃ uid, s.users uid = some u

/-- **`fdMap` and the users say the same.** -/
def Bound (s : Center β ρ) : Prop := ∀ fd u, s.fdMap fd = some u ↔ s.Enters u ∧ (s.user u).fd = some fd

def Own (s : Center β ρ) : Prop := ∀ uid u, s.users uid = some u → u < s.userCount ∧ (s.user u).uid = uid

theorem Own.inj (h : s.Own) {uid uid' : Nat} (hu : s.users uid = some u) (hu' : s.users uid' = some u) : uid = uid' :=
  (h uid u hu).2.symm.trans (h uid' u hu').2

/-! ### What leaves users and sockets alone -/

structure Still (s s' : Center β ρ) : Prop where
  users : s'.users = s.users
  user : s'.user = s.user
  count : s'.userCount = s.userCount
  fdMap : s'.fdMap = s.fdMap

theorem Still.refl (s : Center β ρ) : Still s s := ⟨rfl, rfl, rfl, rfl⟩

theorem Still.trans (h : Still s s') (h' : Still s' s'') : Still s s'' :=
  ⟨h'.users.trans h.users, h'.user.trans h.user, h'.count.trans h.count, h'.fdMap.trans h.fdMap⟩

theorem delRoom_still (b : String) : Still s (s.delRoom b) := by
  unfold delRoom
  split
  · exact Still.refl s
  · exact ⟨rfl, rfl, rfl, rfl⟩

theorem free_still (r : Nat) : Still s (s.free r) := by
  unfold free
  dsimp only
  split
  · exact Still.refl s
  · apply Still.trans _ (delRoom_still _)
    exact ⟨rfl, rfl, rfl, rfl⟩

theorem setIsEnd_still (r : Nat) (isEnd : Bool) : Still s (s.setIsEnd r isEnd) := by
  have hput : Still s (s.setRoom r { s.heap r with isEnd := isEnd }) := ⟨rfl, rfl, rfl, rfl⟩
  unfold setIsEnd
  dsimp only
  split
  · exact hput.trans (free_still r)
  · exact hput

theorem roomTimer_still (r : Nat) : Still s (s.roomTimer r) := by
  unfold roomTimer
  split
  · exact setIsEnd_still r true
  split
  · exact ⟨rfl, rfl, rfl, rfl⟩
  split
  · exact setIsEnd_still r true
  split
  · exact free_still r
  · exact Still.refl s

theorem roomPrepare_still (r uid : Nat) : Still s (s.roomPrepare r uid).1 := by
  unfold roomPrepare
  dsimp only
  split
  · exact Still.refl s
  split
  · exact Still.refl s
  split
  · exact Still.refl s
  split
  · split
    · exact ⟨rfl, rfl, rfl, rfl⟩
    · exact ⟨rfl, rfl, rfl, rfl⟩
  · exact Still.refl s

theorem roomLoad_still (r uid : Nat) : Still s (s.roomLoad r uid).1 := by
  unfold roomLoad
  dsimp only
  split
  · exact Still.refl s
  split
  · exact Still.refl s
  split
  · exact Still.refl s
  split
  · split
    · exact ⟨rfl, rfl, rfl, rfl⟩
    · exact ⟨rfl, rfl, rfl, rfl⟩
  · exact Still.refl s

theorem roomLeave_still (r uid : Nat) : Still s (s.roomLeave r uid).1 := by
  unfold roomLeave
  dsimp only
  split
  · exact Still.refl s
  · exact ⟨rfl, rfl, rfl, rfl⟩

theorem roomCommitCmd_still (r uid : Nat) (body : β) : Still s (s.roomCommitCmd r uid body).1 := by
  unfold roomCommitCmd
  dsimp only
  split
  · exact Still.refl s
  split
  · exact Still.refl s
  · exact ⟨rfl, rfl, rfl, rfl⟩

theorem roomCommitReport_still (r uid : Nat) (report : Option ρ) : Still s (s.roomCommitReport r uid report).1 := by
  unfold roomCommitReport
  dsimp only
  split
  · exact Still.refl s
  split
  · exact Still.refl s
  split
  · apply Still.trans _ (free_still r)
    exact ⟨rfl, rfl, rfl, rfl⟩
  · exact ⟨rfl, rfl, rfl, rfl⟩

theorem request_still {b : String} {method : Center β ρ → Nat → Center β ρ × Except Err Unit}
    (hm : ∀ r, Still s (method s r).1) : Still s (s.request b method).1 := by
  unfold request
  split
  · exact Still.refl s
  · exact hm _

theorem timerCallback_still (timer : Timer) : Still s (s.timerCallback timer) := by
  have htake : Still s { s with timerMap := Function.update s.timerMap timer false } := ⟨rfl, rfl, rfl, rfl⟩
  unfold timerCallback
  split
  · cases timer with
    | status batId =>
      dsimp only
      split
      · exact htake
      · exact htake.trans (roomTimer_still _)
    | heartbeat uid =>
      dsimp only
      split
      · exact htake
      · exact ⟨rfl, rfl, rfl, rfl⟩
  · exact Still.refl s

theorem createBattle_still (b : String) (users : Roster) (rate time : Option Int) :
    Still s (s.createBattle b users rate time).1 := by
  unfold createBattle
  split
  · exact Still.refl s
  split
  · exact Still.refl s
  split
  · exact Still.refl s
  · exact ⟨rfl, rfl, rfl, rfl⟩

theorem turn_still (b : String) : Still s (s.turn b) := by
  unfold turn
  split
  · exact Still.refl s
  · unfold roomGame
    dsimp only
    split
    · exact ⟨rfl, rfl, rfl, rfl⟩
    · exact ⟨rfl, rfl, rfl, rfl⟩

theorem tick_still (ids : List String) : Still s (s.tick ids) := by
  have hall : ∀ (ids : List String) (s : Center β ρ), Still s (ids.foldl turn s) := by
    intro ids
    induction ids with
    | nil =>
      intro s
      exact Still.refl s
    | cons id ids ih =>
      intro s
      exact (turn_still id).trans (ih _)
  unfold tick
  split
  · have hturned := hall ids s
    dsimp only
    split
    · exact hturned.trans ⟨rfl, rfl, rfl, rfl⟩
    · exact hturned
  · exact Still.refl s

theorem Still.bound (h : Still s s') (hs : s.Bound) : s'.Bound := by
  unfold Bound Enters
  rw [h.users, h.user, h.fdMap]
  exact hs

theorem Still.own (h : Still s s') (hs : s.Own) : s'.Own := by
  unfold Own
  rw [h.users, h.user, h.count]
  exact hs

theorem userSetFd_fdMap (fd : Option Nat) (k : Nat) : (s.userSetFd u fd).fdMap k =
    if fd = some k then some u else if (s.user u).fd = some k then none else s.fdMap k := by
  have hclear : (s.setFdMap (s.user u).fd none).fdMap k = if (s.user u).fd = some k then none else s.fdMap k := by
    cases hfd : (s.user u).fd with
    | none => simp [setFdMap]
    | some old =>
      by_cases hk : old = k
      · simp [setFdMap, hk]
      · simp [setFdMap, hk, Function.update_of_ne (Ne.symm hk)]
  rw [← hclear]
  cases fd with
  | none => rfl
  | some new =>
    show Function.update (s.setFdMap (s.user u).fd none).fdMap new (some u) k = _
    by_cases hk : new = k
    · simp [hk]
    · simp [hk, Function.update_of_ne (Ne.symm hk)]

theorem userSetFd_users (fd : Option Nat) : (s.userSetFd u fd).users = s.users := by
  unfold userSetFd setFdMap
  cases (s.user u).fd <;> cases fd <;> rfl

theorem userSetFd_count (fd : Option Nat) : (s.userSetFd u fd).userCount = s.userCount := by
  unfold userSetFd setFdMap
  cases (s.user u).fd <;> cases fd <;> rfl

theorem userSetFd_user (fd : Option Nat) :
    (s.userSetFd u fd).user = Function.update s.user u { s.user u with fd := fd } := by
  unfold userSetFd setFdMap
  cases (s.user u).fd <;> cases fd <;> rfl

theorem Bound.userSetFd (h : s.Bound) (hu : s.Enters u) {fd : Option Nat}
    (hfd : ∀ k, fd = some k → ∀ x, s.Enters x → x ≠ u → (s.user x).fd ≠ some k) : (s.userSetFd u fd).Bound := by
  intro k x
  have henters : (s.userSetFd u fd).Enters x ↔ s.Enters x := by
    unfold Enters
    rw [userSetFd_users]
  rw [henters, userSetFd_fdMap, userSetFd_user]
  by_cases hx : x = u
  · rw [hx, Function.update_self]
    by_cases hk : fd = some k
    · simp [hk, hu]
    · by_cases hold : (s.user u).fd = some k
      · simp [hk, hold]
      · simp [hk, hold, h k u]
  · rw [Function.update_of_ne hx]
    by_cases hk : fd = some k
    · -- the socket is the user's now, and was nobody else's
      simp only [hk, if_true, Option.some.injEq, Ne.symm hx, false_iff, not_and]
      exact fun hin => hfd k hk x hin hx
    · by_cases hold : (s.user u).fd = some k
      · -- the socket was the user's, and so of no other
        simp only [hk, hold, if_true, if_false, reduceCtorEq, false_iff, not_and]
        intro hin hxk
        have hux := ((h k u).2 ⟨hu, hold⟩).symm.trans ((h k x).2 ⟨hin, hxk⟩)
        exact hx (Option.some.inj hux).symm
      · simp only [hk, hold, if_false]
        exact h k x

theorem Own.userSetFd (h : s.Own) (fd : Option Nat) : (s.userSetFd u fd).Own := by
  intro uid x hx
  rw [userSetFd_users] at hx
  rw [userSetFd_count, userSetFd_user]
  by_cases hxu : x = u
  · rw [hxu, Function.update_self]
    exact hxu ▸ h uid x hx
  · rw [Function.update_of_ne hxu]
    exact h uid x hx

theorem Bound.setUser (h : s.Bound) {user : User} (hfd : user.fd = (s.user u).fd) : (s.setUser u user).Bound := by
  intro k x
  show s.fdMap k = some x ↔ s.Enters x ∧ (Function.update s.user u user x).fd = some k
  by_cases hx : x = u
  · rw [hx, Function.update_self, hfd]
    exact h k u
  · rw [Function.update_of_ne hx]
    exact h k x

theorem Own.setUser (h : s.Own) {user : User} (huid : ∀ uid, s.users uid = some u → user.uid = uid) :
    (s.setUser u user).Own := by
  intro uid x hx
  obtain ⟨hlt, hxid⟩ := h uid x hx
  refine ⟨hlt, ?_⟩
  show (Function.update s.user u user x).uid = uid
  by_cases hxu : x = u
  · rw [hxu, Function.update_self]
    exact huid uid (hxu ▸ hx)
  · rw [Function.update_of_ne hxu]
    exact hxid

structure Apt (s : Center β ρ) : Prop where
  own : s.Own
  bound : s.Bound

theorem Still.apt (h : Still s s') (hs : s.Apt) : s'.Apt := ⟨h.own hs.own, h.bound hs.bound⟩

theorem Apt.userSetFd (h : s.Apt) (hu : s.users uid = some u) {fd : Option Nat}
    (hfd : ∀ k, fd = some k → ∀ x, s.Enters x → x ≠ u → (s.user x).fd ≠ some k) : (s.userSetFd u fd).Apt :=
  ⟨h.own.userSetFd fd, h.bound.userSetFd ⟨uid, hu⟩ hfd⟩

theorem Apt.setUser (h : s.Apt) (hu : s.users uid = some u) {user : User} (hfd : user.fd = (s.user u).fd)
    (huid : user.uid = uid) : (s.setUser u user).Apt :=
  ⟨h.own.setUser (fun _ hx => huid.trans (h.own.inj hu hx)), h.bound.setUser hfd⟩

theorem Apt.delUser (h : s.Apt) (uid : Nat) : (s.delUser uid).Apt := by
  unfold Center.delUser
  split
  · exact h
  next u hu =>
  have hoff : (s.userSetFd u none).Apt := h.userSetFd hu (fun k hk => by cases hk)
  have husers : (s.userSetFd u none).users = s.users := userSetFd_users none
  have hnone : ((s.userSetFd u none).user u).fd = none := by
    rw [userSetFd_user, Function.update_self]
  refine ⟨fun k x hx => ?_, fun k x => ?_⟩
  · have hx : Function.update s.users uid none k = some x := hx
    by_cases hk : k = uid
    · rw [hk, Function.update_self] at hx
      cases hx
    · rw [Function.update_of_ne hk] at hx
      exact hoff.own k x (husers ▸ hx)
  · refine (hoff.bound k x).trans ?_
    by_cases hxu : x = u
    · rw [hxu]
      simp [hnone]
    · refine and_congr_left (fun _ => exists_congr (fun k => ?_))
      show (s.userSetFd u none).users k = some x ↔ Function.update s.users uid none k = some x
      rw [husers]
      by_cases hk : k = uid
      · rw [hk, Function.update_self, hu]
        simp [Ne.symm hxu]
      · rw [Function.update_of_ne hk]

theorem Apt.userAfk (h : s.Apt) (hu : s.users uid = some u) (flag : Option Nat) : (s.userAfk u flag).Apt := by
  have hoff : ∀ t : Center β ρ, Still s t → ((t.userSetFd u none).setUser u
      { (t.userSetFd u none).user u with online := false }).Apt := by
    intro t ht
    have htu : t.users uid = some u := by rw [ht.users, hu]
    have hset : (t.userSetFd u none).Apt := (ht.apt h).userSetFd htu (fun k hk => by cases hk)
    have hset' : (t.userSetFd u none).users uid = some u := by rw [userSetFd_users, htu]
    exact hset.setUser hset' rfl (hset.own uid u hset').2
  unfold Center.userAfk
  split
  · split
    · exact hoff _ ⟨rfl, rfl, rfl, rfl⟩
    · exact hoff _ (Still.refl s)
  · exact hoff _ (Still.refl s)

theorem Apt.getUser (h : s.Apt) (uid : Nat) : (s.getUser uid).1.Apt := by
  unfold Center.getUser
  split
  · exact h
  next hnone =>
  have hfresh : ∀ k x, s.users k = some x → x ≠ s.userCount := fun k x hx => (h.own k x hx).1.ne
  refine ⟨fun k x hx => ?_, fun k x => ?_⟩
  · have hx : Function.update s.users uid (some s.userCount) k = some x := hx
    show x < s.userCount + 1 ∧ (Function.update s.user s.userCount (User.new uid) x).uid = k
    by_cases hk : k = uid
    · rw [hk, Function.update_self, Option.some.injEq] at hx
      rw [← hx, Function.update_self, hk]
      exact ⟨Nat.lt_succ_self _, rfl⟩
    · rw [Function.update_of_ne hk] at hx
      rw [Function.update_of_ne (hfresh k x hx)]
      exact ⟨Nat.lt_succ_of_lt (h.own k x hx).1, (h.own k x hx).2⟩
  · show s.fdMap k = some x ↔ (∃ k', Function.update s.users uid (some s.userCount) k' = some x) ∧
      (Function.update s.user s.userCount (User.new uid) x).fd = some k
    by_cases hx : x = s.userCount
    · rw [hx, Function.update_self]
      constructor
      · intro hmap
        obtain ⟨k', hk'⟩ := ((h.bound k _).1 hmap).1
        exact absurd rfl (hfresh k' _ hk')
      · rintro ⟨-, hfd⟩
        cases hfd
    · rw [Function.update_of_ne hx, h.bound k x]
      refine and_congr_left (fun _ => exists_congr (fun k' => ?_))
      by_cases hk : k' = uid
      · rw [hk, Function.update_self, hnone]
        simp [Ne.symm hx]
      · rw [Function.update_of_ne hk]

theorem getUser_users (uid : Nat) : (s.getUser uid).1.users uid = some (s.getUser uid).2 := by
  unfold getUser
  split
  · assumption
  · exact Function.update_self _ _ _

theorem Apt.login (h : s.Apt) (uid : Nat) (batId : String) (subid : Option Nat) : (s.login uid batId subid).Apt := by
  unfold Center.login
  split
  · exact h
  · exact (h.getUser uid).setUser (getUser_users uid) rfl rfl

theorem Apt.setFd (h : s.Apt) {fd uid subid : Nat}
    (hfd : ∀ u, s.users uid = some u → ∀ x, s.Enters x → x ≠ u → (s.user x).fd ≠ some fd) : (s.setFd fd uid subid).Apt := by
  unfold Center.setFd
  split
  · exact h
  next u hu =>
  have hset : (s.userSetFd u (some fd)).Apt := h.userSetFd hu (fun k hk => Option.some.inj hk ▸ hfd u hu)
  have hset' : (s.userSetFd u (some fd)).users uid = some u := by rw [userSetFd_users, hu]
  let user : User := { (s.userSetFd u (some fd)).user u with subid := some subid, online := true }
  have hin : ((s.userSetFd u (some fd)).setUser u user).Apt := hset.setUser hset' rfl (hset.own uid u hset').2
  apply Still.apt _ hin
  exact ⟨rfl, rfl, rfl, rfl⟩

theorem Apt.afk (h : s.Apt) (uid : Nat) (batId : String) (flag : Option Nat) : (s.afk uid batId flag).Apt := by
  unfold Center.afk
  split
  · exact h
  next u hu =>
  have hgone : ((s.userAfk u flag).delUser uid).Apt := (h.userAfk hu flag).delUser uid
  dsimp only
  split
  · exact hgone
  · exact (roomLeave_still _ _).apt hgone

/-- **A socket goes to a player only when no other player's user has it.** -/
def Unshared (s : Center β ρ) : Call β ρ → Prop
  | .setFd fd uid _ => ∀ u, s.users uid = some u → ∀ x, s.Enters x → x ≠ u → (s.user x).fd ≠ some fd
  | _ => True

theorem Apt.step (h : s.Apt) (call : Call β ρ) (hun : s.Unshared call) : (s.step call).Apt := by
  cases call with
  | createBattle batId users rate time => exact (createBattle_still batId users rate time).apt h
  | login uid batId subid => exact h.login uid batId subid
  | setFd fd uid subid => exact h.setFd hun
  | afk uid batId flag => exact h.afk uid batId flag
  | dispatchMsg fd =>
    show (s.dispatchMsg fd).Apt
    unfold dispatchMsg
    split
    · exact h
    · apply Still.apt _ h
      exact ⟨rfl, rfl, rfl, rfl⟩
  | reqPrepare batId uid => exact (request_still (fun r => roomPrepare_still r uid)).apt h
  | reqLoad batId uid => exact (request_still (fun r => roomLoad_still r uid)).apt h
  | reqLeave batId uid => exact (request_still (fun r => roomLeave_still r uid)).apt h
  | reqCommitCmd batId uid body => exact (request_still (fun r => roomCommitCmd_still r uid body)).apt h
  | reqCommitReport batId uid report => exact (request_still (fun r => roomCommitReport_still r uid report)).apt h
  | timerCallback timer => exact (timerCallback_still timer).apt h
  | heartbeat uid on =>
    apply Still.apt _ h
    exact ⟨rfl, rfl, rfl, rfl⟩
  | tick ids => exact (tick_still ids).apt h
  | stop =>
    apply Still.apt _ h
    exact ⟨rfl, rfl, rfl, rfl⟩

/-! ### The user that was bound last -/

structure Spares (uid u : Nat) (s s' : Center β ρ) : Prop where
  users : s'.users uid = s.users uid
  fd : (s'.user u).fd = (s.user u).fd

theorem Spares.refl (uid u : Nat) (s : Center β ρ) : Spares uid u s s := ⟨rfl, rfl⟩

theorem Spares.trans (h : Spares uid u s s') (h' : Spares uid u s' s'') : Spares uid u s s'' :=
  ⟨h'.users.trans h.users, h'.fd.trans h.fd⟩

theorem Still.spares (h : Still s s') : Spares uid u s s' := ⟨by rw [h.users], by rw [h.user]⟩

theorem userSetFd_spares {x : Nat} (hx : u ≠ x) (fd : Option Nat) : Spares uid u s (s.userSetFd x fd) :=
  ⟨by rw [userSetFd_users], by rw [userSetFd_user, Function.update_of_ne hx]⟩

theorem setUser_spares {x : Nat} {user : User} (hfd : user.fd = (s.user x).fd) : Spares uid u s (s.setUser x user) := by
  refine ⟨rfl, ?_⟩
  show (Function.update s.user x user u).fd = _
  by_cases hx : u = x
  · rw [hx, Function.update_self, hfd]
  · rw [Function.update_of_ne hx]

theorem userAfk_spares {x : Nat} (hx : u ≠ x) (flag : Option Nat) : Spares uid u s (s.userAfk x flag) := by
  have hoff : ∀ t : Center β ρ, Still s t → Spares uid u s ((t.userSetFd x none).setUser x
      { (t.userSetFd x none).user x with online := false }) := by
    intro t ht
    exact (ht.spares.trans (userSetFd_spares hx none)).trans (setUser_spares rfl)
  unfold userAfk
  split
  · split
    · exact hoff _ ⟨rfl, rfl, rfl, rfl⟩
    · exact hoff _ (Still.refl s)
  · exact hoff _ (Still.refl s)

theorem userAfk_users (x : Nat) (flag : Option Nat) : (s.userAfk x flag).users = s.users := by
  unfold userAfk
  split
  · split
    · exact userSetFd_users none
    · exact userSetFd_users none
  · exact userSetFd_users none

theorem delUser_spares {uid' x : Nat} (hu' : s.users uid' = some x) (hx : u ≠ x) (hne : uid' ≠ uid) :
    Spares uid u s (s.delUser uid') := by
  unfold delUser
  rw [hu']
  have hoff : Spares uid u s (s.userSetFd x none) := userSetFd_spares hx none
  exact ⟨Function.update_of_ne hne.symm _ _, hoff.fd⟩

theorem step_spares (h : s.Own) (hu : s.users uid = some u) (call : Call β ρ) (hm : call.moves ≠ some uid) :
    Spares uid u s (s.step call) := by
  have hother : ∀ uid' x, s.users uid' = some x → uid' ≠ uid → u ≠ x := by
    rintro uid' x hx hne rfl
    exact hne (h.inj hx hu)
  cases call with
  | createBattle batId users rate time => exact (createBattle_still batId users rate time).spares
  | login uid' batId subid =>
    show Spares uid u s (s.login uid' batId subid)
    unfold login
    split
    · exact Spares.refl uid u s
    · have hget : Spares uid u s (s.getUser uid').1 := by
        unfold getUser
        split
        · exact Spares.refl uid u s
        next hnone =>
        have hne : uid ≠ uid' := by
          rintro rfl
          rw [hnone] at hu
          cases hu
        refine ⟨Function.update_of_ne hne _ _, ?_⟩
        show (Function.update s.user s.userCount (User.new uid') u).fd = _
        rw [Function.update_of_ne (h uid u hu).1.ne]
      exact hget.trans (setUser_spares rfl)
  | setFd fd uid' subid =>
    have hne : uid' ≠ uid := fun heq => hm (congrArg some heq)
    show Spares uid u s (s.setFd fd uid' subid)
    unfold setFd
    split
    · exact Spares.refl uid u s
    next x hx =>
    have hset : Spares uid u s (s.userSetFd x (some fd)) := userSetFd_spares (hother uid' x hx hne) (some fd)
    have hin : Spares uid u s ((s.userSetFd x (some fd)).setUser x
        { (s.userSetFd x (some fd)).user x with subid := some subid, online := true }) :=
      hset.trans (setUser_spares rfl)
    exact ⟨hin.users, hin.fd⟩
  | afk uid' batId flag =>
    have hne : uid' ≠ uid := fun heq => hm (congrArg some heq)
    show Spares uid u s (s.afk uid' batId flag)
    unfold afk
    split
    · exact Spares.refl uid u s
    next x hx =>
    have hx' : (s.userAfk x flag).users uid' = some x := by rw [userAfk_users, hx]
    have hgone : Spares uid u s ((s.userAfk x flag).delUser uid') :=
      (userAfk_spares (hother uid' x hx hne) flag).trans (delUser_spares hx' (hother uid' x hx hne) hne)
    dsimp only
    split
    · exact hgone
    · exact hgone.trans (roomLeave_still _ _).spares
  | dispatchMsg fd =>
    show Spares uid u s (s.dispatchMsg fd)
    unfold dispatchMsg
    split
    · exact Spares.refl uid u s
    · exact ⟨rfl, rfl⟩
  | reqPrepare batId uid' => exact (request_still (fun r => roomPrepare_still r uid')).spares
  | reqLoad batId uid' => exact (request_still (fun r => roomLoad_still r uid')).spares
  | reqLeave batId uid' => exact (request_still (fun r => roomLeave_still r uid')).spares
  | reqCommitCmd batId uid' body => exact (request_still (fun r => roomCommitCmd_still r uid' body)).spares
  | reqCommitReport batId uid' report => exact (request_still (fun r => roomCommitReport_still r uid' report)).spares
  | timerCallback timer => exact (timerCallback_still timer).spares
  | heartbeat uid' on => exact ⟨rfl, rfl⟩
  | tick ids => exact (tick_still ids).spares
  | stop => exact ⟨rfl, rfl⟩

theorem run_spares (calls : List (Call β ρ)) : ∀ s : Center β ρ, s.Apt → Steps.Along step Unshared s calls →
    s.users uid = some u → (∀ c ∈ calls, c.moves ≠ some uid) → Spares uid u s (calls.foldl step s) := by
  induction calls with
  | nil =>
    intro s _ _ _ _
    exact Spares.refl uid u s
  | cons call calls ih =>
    intro s h hun hu hm
    have hone : Spares uid u s (s.step call) := step_spares h.own hu call (hm call List.mem_cons_self)
    exact hone.trans (ih _ (h.step call hun.1) hun.2 (hone.users.trans hu)
      (fun c hc => hm c (List.mem_cons_of_mem _ hc)))

theorem init_apt (debug : Bool) : (init debug : Center β ρ).Apt where
  own _ _ h := by cases h
  bound _ _ := by
    constructor
    · intro h
      cases h
    · rintro ⟨⟨_, h⟩, -⟩
      cases h

theorem dispatchMsg_log {fd : Nat} (h : s.fdMap fd = some u) : (s.dispatchMsg fd).log = s.log ++ [.handled fd u] := by
  unfold dispatchMsg
  rw [h]
  rfl

/-- **In every run in which no socket number is shared**, `fdMap` holds a user for a socket exactly when the user is there
and has that socket; and the user bound to a socket last gets the socket's messages, as long as it is there and has not
moved. -/
theorem sockets_of_run (debug : Bool) (calls : List (Call β ρ)) (hun : Steps.Along step Unshared (init debug) calls) :
    (∀ fd u, (run debug calls).fdMap fd = some u ↔
      (∃ uid, (run debug calls).users uid = some u) ∧ ((run debug calls).user u).fd = some fd) ∧
    ∀ before fd uid subid after u, calls = before ++ .setFd fd uid subid :: after →
      (run debug before : Center β ρ).users uid = some u → (∀ c ∈ after, c.moves ≠ some uid) →
      ((run debug calls).step (.dispatchMsg fd)).log = (run debug calls).log ++ [.handled fd u] := by
  have hrun : (run debug calls).Apt := Steps.Along.inv (fun s c hc h => h.step c hc) calls _ hun (init_apt debug)
  refine ⟨hrun.bound, fun before fd uid subid after u hcalls hu hm => ?_⟩
  subst hcalls
  obtain ⟨hbefore, hset, hafter⟩ := (Steps.Along.append before _ _).1 hun
  have hs : (run debug before : Center β ρ).Apt :=
    Steps.Along.inv (fun s c hc h => h.step c hc) before _ hbefore (init_apt debug)
  have hs' := hs.step _ hset
  -- the user is bound by its call, and spared by all that follow
  have hstep : (run debug before).step (.setFd fd uid subid) =
    ((run debug before).userSetFd u (some fd)).userCheckin u subid := by
    show setFd _ _ _ _ = _
    unfold setFd
    rw [hu]
  have husers : ((run debug before).step (.setFd fd uid subid)).users uid = some u := by
    rw [hstep]
    exact (congrFun (userSetFd_users (some fd)) uid).trans hu
  have hfd : (((run debug before).step (.setFd fd uid subid)).user u).fd = some fd := by
    rw [hstep]
    show (Function.update ((run debug before).userSetFd u (some fd)).user u _ u).fd = some fd
    rw [Function.update_self, userSetFd_user, Function.update_self]
  have hspared := run_spares after _ hs' hafter husers hm
  have hend : run debug (before ++ .setFd fd uid subid :: after) =
      after.foldl step ((run debug before).step (.setFd fd uid subid)) := List.foldl_append
  rw [hend] at hrun ⊢
  exact dispatchMsg_log ((hrun.bound fd u).2 ⟨⟨uid, hspared.users.trans husers⟩, hspared.fd.trans hfd⟩)

/-! Two players of one battle. -/

theorem pair_nodup : (([(1, some 0), (2, some 1)] : List (Nat × Option Nat)).map Prod.fst).Nodup := by
  decide

def meeting : List (Call Unit Unit) :=
  [.createBattle "1" ⟨[(1, some 0), (2, some 1)], pair_nodup⟩ none none, .login 1 "1" (some 1), .login 2 "1" (some 2)]

def reuse : List (Call Unit Unit) := [.setFd 5 1 1, .afk 1 "1" none, .setFd 5 2 2]

theorem unshared_of_free (h : s.Own) {fd subid : Nat} (hfd : ∀ x < s.userCount, (s.user x).fd ≠ some fd) :
    s.Unshared (.setFd fd uid subid) := by
  rintro u hu x ⟨uid', hx⟩ -
  exact hfd x (h uid' x hx).1

theorem reuse_unshared : Steps.Along step Unshared (init false) (meeting ++ reuse) := by
  have hmeet : (run false meeting : Center Unit Unit).Apt :=
    Steps.Along.inv (fun s c hc h => h.step c hc) meeting _ ⟨trivial, trivial, trivial, trivial⟩ (init_apt false)
  have hfirst : (run false meeting : Center Unit Unit).Unshared (.setFd 5 1 1) :=
    unshared_of_free hmeet.own (by decide +kernel)
  have hleft := (hmeet.step _ hfirst).step (.afk 1 "1" none) trivial
  exact ⟨trivial, trivial, trivial, hfirst, trivial, unshared_of_free hleft.own (by decide +kernel), trivial⟩

theorem sockets_of_run_reuse : (∀ fd u, (run false (meeting ++ reuse)).fdMap fd = some u ↔
      (∃ uid, (run false (meeting ++ reuse)).users uid = some u) ∧ ((run false (meeting ++ reuse)).user u).fd = some fd) ∧
    ((run false (meeting ++ reuse)).step (.dispatchMsg 5)).log = (run false (meeting ++ reuse)).log ++ [.handled 5 1] := by
  obtain ⟨hbound, hlast⟩ := sockets_of_run false (meeting ++ reuse) reuse_unshared
  refine ⟨hbound, hlast (meeting ++ [.setFd 5 1 1, .afk 1 "1" none]) 5 2 2 [] 1 rfl (by decide +kernel) ?_⟩
  intro c hc
  cases hc

/-- The socket of a player comes to another before the first is gone: the first, when it goes, takes the socket from the
second, who does not get its messages any more. -/
theorem socket_lost :
    let s : Center Unit Unit := run false (meeting ++ [.setFd 5 1 1, .setFd 5 2 2, .afk 1 "1" none])
    s.users 2 = some 1 ∧ (s.user 1).fd = some 5 ∧ s.fdMap 5 = none := by
  decide +kernel

end Center
end Battle
end Sncpp
