import Mathlib.Algebra.BigOperators.Group.Finset.Piecewise
import Mathlib.Algebra.Ring.Int.Defs
import Sncpp.Steps
/-!
# Slaves — the slaves of a player (`mapCenter:updateSlave`)

The city of a slave has its owner in `ownUid`, and the city of the owner counts his slaves in `slaveNum`.
-/
namespace Sncpp
namespace Slaves

inductive Field where
  | ownUid
  | ownTime
  | beSlaveCastleLv
  | beSlaveCageLv
  | slaveNum
  deriving DecidableEq

/-- The fields of a city that slaves are about, its castle's level, and its timer of `ownTime`. -/
structure City where
  get_field : Field → Option Int
  castlelv : Option Int
  timer : Option Int

namespace City

variable (c : City)

def doUpdate (endTime : Int) : City := { c with timer := if endTime ≤ 0 then none else some endTime }

/-- A turn of the loop of `updateMapObjPro`; none of these fields has a hook that changes a city. -/
def turn (a : Field × Int) : City :=
  if some a.2 ≠ c.get_field a.1 then
    let c := { c with get_field := Function.update c.get_field a.1 (some a.2) }
    if a.1 = .ownTime then c.doUpdate a.2 else c
  else c

def updateMapObjPro (attrUpdates : List (Field × Int)) : City := attrUpdates.foldl turn c

end City

structure Players where
  uids : Finset Int
  pos : ∀ uid ∈ uids, 0 < uid

/-- The cities, and the coroutines that `timerCallback` has forked, each with its city. -/
structure World (players : Players) where
  city : Int → City
  forks : List Int

namespace World

variable {players : Players}

def start (players : Players) (castlelv : Int → Option Int) : World players :=
  ⟨fun uid => ⟨fun _ => none, castlelv uid, none⟩, []⟩

variable (w : World players)

def get_player_city (uid : Int) : Option City := if uid ∈ players.uids then some (w.city uid) else none

def updateMapObjPro (uid : Int) (attrUpdates : List (Field × Int)) : World players :=
  { w with city := Function.update w.city uid ((w.city uid).updateMapObjPro attrUpdates) }

def level (k : Field) (v : Option Int) : List (Field × Int) := (v.map (fun v => (k, v))).toList

def updateOwner (uid : Int) (ownUid ownTime cageLv : Option Int) : World players :=
  match w.get_player_city uid with
  | none => w
  | some cityobj =>
    match ownUid.filter (fun v => 0 < v), ownTime.filter (fun v => 0 < v) with
    | some ownUid, some ownTime => w.updateMapObjPro uid
      ([(.ownUid, ownUid), (.ownTime, ownTime)] ++ level .beSlaveCastleLv cityobj.castlelv ++ level .beSlaveCageLv cageLv)
    | _, _ => w.updateMapObjPro uid [(.ownUid, 0), (.ownTime, 0), (.beSlaveCastleLv, 0), (.beSlaveCageLv, 0)]

def updateSlaveNum (ownUid ownTime : Option Int) : World players :=
  match ownUid with
  | none => w
  | some ownUid =>
    match w.get_player_city ownUid with
    | none => w
    | some ownobj =>
      if (ownTime.filter (fun v => 0 < v)).isSome then
        w.updateMapObjPro ownUid [(.slaveNum, (ownobj.get_field .slaveNum).getD 0 + 1)]
      else w.updateMapObjPro ownUid [(.slaveNum, (ownobj.get_field .slaveNum).getD 0 - 1)]

def updateSlave (uid ownUid ownTime cageLv : Option Int) : World players :=
  match uid.filter (fun v => 0 < v) with
  | none => w
  | some uid => (w.updateOwner uid ownUid ownTime cageLv).updateSlaveNum ownUid ownTime

/-- `timerCallback` of the `ownTime` of a city: it forks if the timer is there. -/
def timerCallback (uid : Int) : World players :=
  if uid ∈ players.uids ∧ (w.city uid).timer.isSome = true then
    ⟨Function.update w.city uid { w.city uid with timer := none }, w.forks ++ [uid]⟩
  else w

def forked : World players :=
  match w.forks with
  | [] => w
  | slaveUId :: forks =>
    let w := { w with forks := forks }
    let ownUid := ((w.city slaveUId).get_field .ownUid).getD 0
    if 0 < ownUid then w.updateSlave (some slaveUId) (some ownUid) none none else w

end World

inductive Event where
  | updateSlave (uid ownUid ownTime cageLv : Option Int)
  | timerCallback (uid : Int)
  | forked

variable {players : Players}

def step (w : World players) : Event → World players
  | .updateSlave uid ownUid ownTime cageLv => w.updateSlave uid ownUid ownTime cageLv
  | .timerCallback uid => w.timerCallback uid
  | .forked => w.forked

/-! ## What is right, and when it is -/

namespace World

variable (w : World players)

def owner (uid : Int) : Int := ((w.city uid).get_field .ownUid).getD 0

def slaveNum (uid : Int) : Int := ((w.city uid).get_field .slaveNum).getD 0

def slaves (uid : Int) : Finset Int := players.uids.filter (fun slave => w.owner slave = uid)

/-- **The city of each player counts the cities that are his.** -/
def Counted : Prop := ∀ uid ∈ players.uids, w.slaveNum uid = (w.slaves uid).card

end World

def known (players : Players) (uid : Option Int) : Option Int := uid.filter (fun uid => uid ∈ players.uids)

/-- **When it does.**  Whoever is enslaved has no owner with a city; who has no city himself is enslaved by nobody who has
one; and a release names the owner, as far as he has a city. -/
def Fits (w : World players) : Event → Prop
  | .updateSlave (some uid) ownUid ownTime _ =>
    0 < uid →
      if (ownUid.filter (fun v => 0 < v)).isSome = true ∧ (ownTime.filter (fun v => 0 < v)).isSome = true then
        if uid ∈ players.uids then known players (some (w.owner uid)) = none else known players ownUid = none
      else
        known players ownUid = if uid ∈ players.uids then known players (some (w.owner uid)) else none
  | _ => True

instance (w : World players) (e : Event) : Decidable (Fits w e) := by
  unfold Fits
  split <;> infer_instance

namespace City

variable (c : City)

theorem turn_get_field (a : Field × Int) : (c.turn a).get_field = Function.update c.get_field a.1 (some a.2) := by
  unfold turn
  by_cases hne : some a.2 ≠ c.get_field a.1
  · rw [if_pos hne]
    dsimp only
    split <;> rfl
  · rw [if_neg hne, not_not.1 hne, Function.update_eq_self]

theorem get_field_of_ne {k : Field} : ∀ (l : List (Field × Int)) (c : City), (∀ a ∈ l, a.1 ≠ k) →
    (c.updateMapObjPro l).get_field k = c.get_field k
  | [], _, _ => rfl
  | a :: l, c, h => by
    obtain ⟨hne, hl⟩ := List.forall_mem_cons.1 h
    show ((c.turn a).updateMapObjPro l).get_field k = _
    rw [get_field_of_ne l (c.turn a) hl, turn_get_field, Function.update_of_ne hne.symm]

theorem get_field_head (k : Field) (v : Int) {l : List (Field × Int)} (h : ∀ a ∈ l, a.1 ≠ k) :
    (c.updateMapObjPro ((k, v) :: l)).get_field k = some v := by
  show ((c.turn (k, v)).updateMapObjPro l).get_field k = _
  rw [get_field_of_ne l _ h, turn_get_field, Function.update_self]

end City

namespace World

variable (w : World players)

def asks (ownUid ownTime : Option Int) : Bool :=
  (ownUid.filter (fun v => 0 < v)).isSome && (ownTime.filter (fun v => 0 < v)).isSome

def asked (ownUid ownTime : Option Int) : Int := if asks ownUid ownTime then ownUid.getD 0 else 0

theorem fst_of_mem_level {k : Field} {v : Option Int} {a : Field × Int} (h : a ∈ level k v) : a.1 = k := by
  obtain ⟨v, -, rfl⟩ := Option.map_eq_some_iff.1 (Option.mem_toList.1 h)
  rfl

theorem updateMapObjPro_city (uid x : Int) (l : List (Field × Int)) :
    (w.updateMapObjPro uid l).city x = if x = uid then (w.city uid).updateMapObjPro l else w.city x :=
  Function.update_apply _ _ _ _

theorem updateOwner_eq (uid : Int) (ownUid ownTime cageLv : Option Int) (hmem : uid ∈ players.uids) :
    ∃ l, w.updateOwner uid ownUid ownTime cageLv = w.updateMapObjPro uid ((.ownUid, asked ownUid ownTime) :: l) ∧
      ∀ a ∈ l, a.1 ≠ .ownUid ∧ a.1 ≠ .slaveNum := by
  have hcity : w.get_player_city uid = some (w.city uid) := if_pos hmem
  unfold updateOwner asked asks
  rw [hcity]
  cases hu : ownUid.filter (fun v => 0 < v) with
  | none => exact ⟨[(.ownTime, 0), (.beSlaveCastleLv, 0), (.beSlaveCageLv, 0)], rfl, by decide⟩
  | some o =>
    cases ht : ownTime.filter (fun v => 0 < v) with
    | none => exact ⟨[(.ownTime, 0), (.beSlaveCastleLv, 0), (.beSlaveCageLv, 0)], rfl, by decide⟩
    | some t =>
      obtain ⟨rfl, -⟩ := Option.filter_eq_some_iff.1 hu
      refine ⟨(.ownTime, t) :: (level .beSlaveCastleLv (w.city uid).castlelv ++ level .beSlaveCageLv cageLv), rfl, ?_⟩
      intro a ha
      rcases List.mem_cons.1 ha with rfl | ha
      · exact ⟨nofun, nofun⟩
      · rcases List.mem_append.1 ha with ha | ha
        · rw [fst_of_mem_level ha]
          decide
        · rw [fst_of_mem_level ha]
          decide

theorem updateOwner_spec (uid : Int) (ownUid ownTime cageLv : Option Int) (x : Int) :
    (w.updateOwner uid ownUid ownTime cageLv).owner x =
        (if x = uid ∧ uid ∈ players.uids then asked ownUid ownTime else w.owner x) ∧
      (w.updateOwner uid ownUid ownTime cageLv).slaveNum x = w.slaveNum x := by
  by_cases hmem : uid ∈ players.uids
  · obtain ⟨l, heq, hl⟩ := w.updateOwner_eq uid ownUid ownTime cageLv hmem
    rw [heq, owner, slaveNum, updateMapObjPro_city]
    by_cases hx : x = uid
    · rw [if_pos hx, if_pos ⟨hx, hmem⟩, hx, City.get_field_head _ _ _ (fun a ha => (hl a ha).1), City.get_field_of_ne]
      · exact ⟨rfl, rfl⟩
      · exact List.forall_mem_cons.2 ⟨nofun, fun a ha => (hl a ha).2⟩
    · rw [if_neg hx, if_neg (fun h => hx h.1)]
      exact ⟨rfl, rfl⟩
  · have hcity : w.get_player_city uid = none := if_neg hmem
    rw [updateOwner, hcity, if_neg (fun h => hmem h.2)]
    exact ⟨rfl, rfl⟩

def one (uid : Option Int) (x : Int) : Int := if uid = some x then 1 else 0

theorem updateSlaveNum_spec (ownUid ownTime : Option Int) (x : Int) :
    (w.updateSlaveNum ownUid ownTime).owner x = w.owner x ∧
      (w.updateSlaveNum ownUid ownTime).slaveNum x = w.slaveNum x +
        (if (ownTime.filter (fun v => 0 < v)).isSome then one (known players ownUid) x else -one (known players ownUid) x) := by
  have hnone : known players ownUid = none → w.slaveNum x = w.slaveNum x +
      (if (ownTime.filter (fun v => 0 < v)).isSome then one (known players ownUid) x else -one (known players ownUid) x) := by
    intro h
    rw [h]
    have hzero : one none x = 0 := if_neg nofun
    rw [hzero, neg_zero, ite_self, add_zero]
  cases ownUid with
  | none => exact ⟨rfl, hnone rfl⟩
  | some o =>
    by_cases hmem : o ∈ players.uids
    · have hcity : w.get_player_city o = some (w.city o) := if_pos hmem
      have hknown : known players (some o) = some o := by simp [known, Option.filter, hmem]
      have hput : ∀ n : Int, (w.updateMapObjPro o [(.slaveNum, w.slaveNum o + n)]).owner x = w.owner x ∧
          (w.updateMapObjPro o [(.slaveNum, w.slaveNum o + n)]).slaveNum x = w.slaveNum x + n * one (some o) x := by
        intro n
        rw [owner, updateMapObjPro_city]
        by_cases hx : x = o
        · rw [if_pos hx, hx, City.get_field_of_ne _ _ (by simp), slaveNum, updateMapObjPro_city, if_pos rfl,
            City.get_field_head _ _ _ (by simp), one, if_pos rfl, mul_one]
          exact ⟨rfl, rfl⟩
        · rw [if_neg hx, slaveNum, updateMapObjPro_city, if_neg hx, one, if_neg (fun h => hx (Option.some.inj h).symm),
            mul_zero, add_zero]
          exact ⟨rfl, rfl⟩
      simp only [updateSlaveNum, hcity, hknown]
      split
      · have h := hput 1
        rw [one_mul] at h
        exact h
      · have h := hput (-1)
        rw [neg_one_mul] at h
        exact h
    · have hcity : w.get_player_city o = none := if_neg hmem
      have hknown : known players (some o) = none := by simp [known, Option.filter, hmem]
      have hsame : w.updateSlaveNum (some o) ownTime = w := by simp only [updateSlaveNum, hcity]
      rw [hsame]
      exact ⟨rfl, hnone hknown⟩

theorem card_slaves_update {w w' : World players} {uid q : Int} (hmem : uid ∈ players.uids)
    (howner : ∀ x, w'.owner x = if x = uid then q else w.owner x) (x : Int) :
    ((w'.slaves x).card : Int) = (w.slaves x).card + (one (some q) x - one (some (w.owner uid)) x) := by
  unfold slaves
  rw [Finset.card_filter, Finset.card_filter, ← Finset.add_sum_erase _ _ hmem,
    ← Finset.add_sum_erase _ (fun slave => if w.owner slave = x then 1 else 0) hmem]
  have herase : ∑ slave ∈ players.uids.erase uid, (if w'.owner slave = x then 1 else 0) =
      ∑ slave ∈ players.uids.erase uid, (if w.owner slave = x then 1 else 0) := by
    refine Finset.sum_congr rfl fun slave hslave => ?_
    rw [howner, if_neg (Finset.ne_of_mem_erase hslave)]
  rw [herase, howner, if_pos rfl]
  simp only [one, Option.some.injEq]
  split <;> split <;> push_cast <;> omega

theorem one_known_iff (v v' : Option Int) :
    (∀ x ∈ players.uids, one (known players v) x = one (known players v') x) ↔ known players v = known players v' := by
  refine ⟨fun h => ?_, fun h x _ => by rw [h]⟩
  have hone : ∀ {v v' : Option Int}, (∀ x ∈ players.uids, one (known players v) x = one (known players v') x) →
      ∀ x, known players v = some x → known players v' = some x := by
    intro v v' h x hx
    obtain ⟨-, hmem⟩ := Option.filter_eq_some_iff.1 hx
    have hval := h x (by simpa using hmem)
    rw [one, if_pos hx, one] at hval
    by_contra hno
    rw [if_neg hno] at hval
    cases hval
  refine Option.ext fun x => ⟨hone h x, hone (fun y hy => (h y hy).symm) x⟩

theorem one_known_none (v : Option Int) : (∀ x ∈ players.uids, one (known players v) x = 0) ↔ known players v = none := by
  have hnone : known players none = none := rfl
  have hzero : ∀ x, one none x = 0 := fun x => if_neg nofun
  rw [← hnone, ← one_known_iff v none]
  simp only [hnone, hzero]

theorem one_some_known {x : Int} (hx : x ∈ players.uids) (o : Int) : one (some o) x = one (known players (some o)) x := by
  unfold one known
  refine if_congr ?_ rfl rfl
  rw [Option.filter_eq_some_iff]
  refine ⟨fun h => ⟨h, by simpa using hx⟩, fun h => h.1⟩

theorem counted_updateSlave (h : w.Counted) (uid : Int) (hpos : 0 < uid) (ownUid ownTime cageLv : Option Int) :
    (w.updateSlave (some uid) ownUid ownTime cageLv).Counted ↔ Fits w (.updateSlave (some uid) ownUid ownTime cageLv) := by
  have hfilter : (some uid).filter (fun v => 0 < v) = some uid := by simp [Option.filter, hpos]
  have heq : w.updateSlave (some uid) ownUid ownTime cageLv =
      (w.updateOwner uid ownUid ownTime cageLv).updateSlaveNum ownUid ownTime := by simp only [updateSlave, hfilter]
  generalize hw' : w.updateSlave (some uid) ownUid ownTime cageLv = w' at heq
  have howner : ∀ x, w'.owner x = if x = uid ∧ uid ∈ players.uids then asked ownUid ownTime else w.owner x := by
    intro x
    rw [heq, (updateSlaveNum_spec _ ownUid ownTime x).1]
    exact (w.updateOwner_spec uid ownUid ownTime cageLv x).1
  have hnum : ∀ x, w'.slaveNum x = w.slaveNum x + (if (ownTime.filter (fun v => 0 < v)).isSome then
      one (known players ownUid) x else -one (known players ownUid) x) := by
    intro x
    rw [heq, (updateSlaveNum_spec _ ownUid ownTime x).2, (w.updateOwner_spec uid ownUid ownTime cageLv x).2]
  have hcard : ∀ x, ((w'.slaves x).card : Int) = (w.slaves x).card +
      (if uid ∈ players.uids then one (some (asked ownUid ownTime)) x - one (some (w.owner uid)) x else 0) := by
    intro x
    by_cases hmem : uid ∈ players.uids
    · rw [if_pos hmem]
      exact card_slaves_update hmem (fun y => (howner y).trans (if_congr (and_iff_left hmem) rfl rfl)) x
    · have hsame : w'.slaves x = w.slaves x := by
        refine Finset.filter_congr fun y _ => ?_
        rw [howner, if_neg (fun h => hmem h.2)]
      rw [hsame, if_neg hmem, add_zero]
  have hcounted : w'.Counted ↔ ∀ x ∈ players.uids,
      (if (ownTime.filter (fun v => 0 < v)).isSome then one (known players ownUid) x else -one (known players ownUid) x) =
        (if uid ∈ players.uids then one (some (asked ownUid ownTime)) x - one (known players (some (w.owner uid))) x else 0) := by
    refine forall₂_congr fun x hx => ?_
    rw [hnum, hcard, h x hx, add_right_inj, ← one_some_known hx]
  rw [hcounted]
  by_cases hasks : (ownUid.filter (fun v => 0 < v)).isSome = true ∧ (ownTime.filter (fun v => 0 < v)).isSome = true
  · have hfits : Fits w (.updateSlave (some uid) ownUid ownTime cageLv) ↔
        if uid ∈ players.uids then known players (some (w.owner uid)) = none else known players ownUid = none := by
      simp only [Fits, hpos, hasks, and_self, if_true, forall_true_left]
    obtain ⟨o, ho⟩ := Option.isSome_iff_exists.1 hasks.1
    obtain ⟨rfl, -⟩ := Option.filter_eq_some_iff.1 ho
    have hasked : asked (some o) ownTime = o := by simp only [asked, asks, hasks, Bool.and_self, if_true, Option.getD_some]
    rw [hfits]
    simp only [hasks.2, if_true, hasked]
    by_cases hmem : uid ∈ players.uids
    · simp only [if_pos hmem]
      rw [← one_known_none]
      refine forall₂_congr fun x hx => ?_
      rw [one_some_known hx o, eq_comm, sub_eq_self]
    · simp only [if_neg hmem]
      exact one_known_none (some o)
  · have hfits : Fits w (.updateSlave (some uid) ownUid ownTime cageLv) ↔
        known players ownUid = if uid ∈ players.uids then known players (some (w.owner uid)) else none := by
      simp only [Fits, hpos, hasks, if_false, forall_true_left]
    have hasked : ∀ x ∈ players.uids, one (some (asked ownUid ownTime)) x = 0 := by
      intro x hx
      have hzero : asked ownUid ownTime = 0 := if_neg (by rwa [asks, Bool.and_eq_true])
      rw [hzero]
      exact if_neg (fun heq => (players.pos x hx).ne (Option.some.inj heq))
    -- a time for an owner whose uid is not above 0 changes no count
    have hless : ∀ x, (if (ownTime.filter (fun v => 0 < v)).isSome then one (known players ownUid) x
        else -one (known players ownUid) x) = -one (known players ownUid) x := by
      intro x
      split
      · next htime =>
        have hnone : known players ownUid = none := by
          rw [known, Option.filter_eq_none_iff]
          rintro o rfl hmem
          refine hasks ⟨?_, htime⟩
          rw [Option.filter_some_pos (by simpa using players.pos o (by simpa using hmem))]
          rfl
        have hzero : one none x = 0 := if_neg nofun
        rw [hnone, hzero, neg_zero]
      · rfl
    rw [hfits]
    simp only [hless]
    by_cases hmem : uid ∈ players.uids
    · simp only [if_pos hmem]
      rw [← one_known_iff]
      refine forall₂_congr fun x hx => ?_
      rw [hasked x hx, zero_sub, neg_inj]
    · simp only [if_neg hmem, neg_eq_zero]
      exact one_known_none ownUid

structure Good : Prop where
  counted : w.Counted
  forks : ∀ uid ∈ w.forks, uid ∈ players.uids

theorem good_start (castlelv : Int → Option Int) : (start players castlelv).Good := by
  refine ⟨fun uid huid => ?_, fun uid h => by cases h⟩
  have hnone : (start players castlelv).slaves uid = ∅ :=
    Finset.filter_false_of_mem fun _ _ heq => (players.pos uid huid).ne heq
  rw [hnone]
  rfl

variable {w}

theorem forks_updateSlave (uid ownUid ownTime cageLv : Option Int) :
    (w.updateSlave uid ownUid ownTime cageLv).forks = w.forks := by
  unfold updateSlave
  cases uid.filter (fun v => 0 < v) with
  | none => rfl
  | some uid =>
    have howner : (w.updateOwner uid ownUid ownTime cageLv).forks = w.forks := by
      unfold updateOwner
      split
      · rfl
      · split <;> rfl
    have hnum : ∀ v : World players, (v.updateSlaveNum ownUid ownTime).forks = v.forks := by
      intro v
      unfold updateSlaveNum
      split
      · rfl
      · split
        · rfl
        · split <;> rfl
    exact (hnum _).trans howner

theorem Good.counted_iff (h : w.Good) (e : Event) : (step w e).Counted ↔ Fits w e := by
  cases e with
  | updateSlave uid ownUid ownTime cageLv =>
    have hnone : uid.filter (fun v => 0 < v) = none → (w.updateSlave uid ownUid ownTime cageLv).Counted := by
      intro hnone
      have hsame : w.updateSlave uid ownUid ownTime cageLv = w := by simp only [updateSlave, hnone]
      rw [hsame]
      exact h.counted
    cases uid with
    | none => exact iff_of_true (hnone rfl) trivial
    | some uid =>
      by_cases hpos : 0 < uid
      · exact counted_updateSlave w h.counted uid hpos ownUid ownTime cageLv
      · exact iff_of_true (hnone (by simp [Option.filter, hpos])) (fun hpos' => absurd hpos' hpos)
  | timerCallback uid =>
    refine iff_of_true ?_ trivial
    show (w.timerCallback uid).Counted
    unfold timerCallback
    split
    · have hfield : ∀ x, (Function.update w.city uid { w.city uid with timer := none } x).get_field = (w.city x).get_field := by
        intro x
        rw [Function.update_apply]
        split
        · next hx => rw [hx]
        · rfl
      intro x hx
      have hslaves : (⟨Function.update w.city uid { w.city uid with timer := none }, w.forks ++ [uid]⟩ :
          World players).slaves x = w.slaves x := by
        refine Finset.filter_congr fun y _ => ?_
        simp only [owner, hfield]
      rw [hslaves, slaveNum, hfield]
      exact h.counted x hx
    · exact h.counted
  | forked =>
    refine iff_of_true ?_ trivial
    show w.forked.Counted
    unfold forked
    cases hforks : w.forks with
    | nil => exact h.counted
    | cons slaveUId forks =>
      have hmem : slaveUId ∈ players.uids := h.forks slaveUId (hforks ▸ List.mem_cons_self)
      dsimp only
      split
      · next hpos =>
        rw [counted_updateSlave { w with forks := forks } h.counted slaveUId (players.pos slaveUId hmem)]
        intro _
        rw [if_neg (fun hasks => Bool.false_ne_true hasks.2), if_pos hmem]
        rfl
      · exact h.counted

theorem Good.step (h : w.Good) (e : Event) (hfits : Fits w e) : (step w e).Good := by
  refine ⟨(h.counted_iff e).2 hfits, fun uid huid => ?_⟩
  cases e with
  | updateSlave uid' ownUid ownTime cageLv =>
    rw [Slaves.step, forks_updateSlave] at huid
    exact h.forks uid huid
  | timerCallback uid' =>
    rw [Slaves.step, timerCallback] at huid
    split at huid
    · next hcity =>
      rcases List.mem_append.1 huid with huid | huid
      · exact h.forks uid huid
      · exact List.mem_singleton.1 huid ▸ hcity.1
    · exact h.forks uid huid
  | forked =>
    rw [Slaves.step, forked] at huid
    split at huid
    · exact h.forks uid huid
    · next slaveUId forks hforks =>
      dsimp only at huid
      have hsub : uid ∈ forks := by
        split at huid
        · rwa [forks_updateSlave] at huid
        · exact huid
      exact h.forks uid (hforks ▸ List.mem_cons_of_mem slaveUId hsub)

end World

def twoPlayers : Players := ⟨{1, 2}, by decide⟩

def enslavedTwice : List Event := [.updateSlave (some 1) (some 2) (some 100) none, .updateSlave (some 1) (some 2) (some 200) none]

end Slaves
end Sncpp
