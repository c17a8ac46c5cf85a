import Mathlib.Data.List.Count
/-!
# TerrBuild — the territory buildings of an alliance

`mapCenter:setTerrBuildType` up to its calls of the guild service, what it writes after them, and the `buildTime` callback
of `mapObjectMgr`.  A field that is missing counts as 0.
-/
namespace Sncpp

/-- `buildTime` is the end of the bar that `buildFlag` names: 1 sets the centre, 2 demolishes it, 3 gives the building up.
`no` is the number of the setting that wrote `costwheat`, that no function reads. -/
structure TerrBuild (α : Type) where
  ownAid : Option α
  annouceTime : Int
  shieldover : Option Int
  buildType : Int
  buildFlag : Int
  buildTime : Int
  buildCdTime : Int
  buildUid : Nat
  costwheat : Nat
  no : Nat
deriving DecidableEq

namespace TerrBuild

inductive Code where
  | map_not_annouce_battle
  | map_terr_not_belong
  | map_annouce_battle
  | error_param
  | map_give_up_cd
  | map_terr_have_build_type
  | guild_build_type_num_limit
  | alliance_res_not_enough
  | map_terr_no_have_build_type
  | map_give_up_shieldover
deriving DecidableEq

/-- The territory buildings of the map, what a centre costs by the number of those that there are, and the limit by
alliance. -/
structure Config (ι α : Type) where
  terr : List ι
  nodup : terr.Nodup
  Hqcost : List Nat
  FarmlandSetHqTime : Int
  FarmlandGiveupTime : Int
  get_capital_limit : α → Nat

def init : Int := 0

def center : Int := 1

variable {ι α : Type} [DecidableEq α] (g : Config ι α) (b : TerrBuild α)

/-- The last cost is that of all further centres; without any the code fails. -/
def Config.cost (num : Nat) : Option Nat := (g.Hqcost[num]?).or g.Hqcost.getLast?

def set (uid : Nat) (curTime : Int) (costNum no : Nat) : TerrBuild α :=
  { b with
    buildType := center
    buildFlag := 1
    buildTime := curTime + g.FarmlandSetHqTime
    buildUid := uid
    costwheat := costNum
    no := no }

def unset (curTime : Int) : TerrBuild α :=
  { b with buildType := init, buildFlag := 0, buildTime := 0, buildCdTime := curTime + 1, buildUid := 0 }

def bar (buildFlag : Int) (uid : Nat) (curTime : Int) : TerrBuild α :=
  { b with buildFlag := buildFlag, buildTime := curTime + g.FarmlandGiveupTime, buildUid := uid }

def unbar (curTime : Int) : TerrBuild α :=
    { b with buildFlag := 0, buildTime := 0, buildCdTime := curTime + 1, buildUid := 0 }

/-- A request is refused, changes the building at once, or goes on to `get_capital_limit` or to the refund. -/
inductive Turn (α : Type) where
  | refuse (code : Code)
  | update (b : TerrBuild α)
  | limit
  | refund

def setTerrBuildType (aid : α) (buildType buildFlag : Int) (uid : Nat) (curTime : Int) : Turn α :=
  if b.ownAid ≠ some aid then .refuse .map_terr_not_belong
  else if curTime < b.annouceTime then .refuse .map_annouce_battle
  else if buildFlag = 1 then
    if 0 < buildType then
      if buildType ≠ center then .refuse .error_param
      else if curTime < b.buildCdTime ∨ 0 < b.buildTime then .refuse .map_give_up_cd
      else if 0 < b.buildType then .refuse .map_terr_have_build_type
      else .limit
    else if ¬ (b.buildFlag = 1 ∧ 0 < b.buildType ∧ 0 < b.buildTime) then .refuse .map_terr_no_have_build_type
    else .refund
  else if buildFlag = 2 then
    if 0 < buildType then
      if curTime < b.buildCdTime ∨ 0 < b.buildTime then .refuse .map_give_up_cd
      else if b.buildType ≤ 0 then .refuse .map_terr_no_have_build_type
      else .update (b.bar g 2 uid curTime)
    else if ¬ (b.buildFlag = 2 ∧ 0 < b.buildType ∧ 0 < b.buildTime) then .refuse .map_terr_no_have_build_type
    else .update (b.unbar curTime)
  else if buildFlag = 3 then
    if 0 < buildType then
      if b.shieldover.any (fun shieldover => curTime < shieldover) then .refuse .map_give_up_shieldover
      else if 0 < b.buildTime then .refuse .map_give_up_cd
      else .update (b.bar g 3 uid curTime)
    else if ¬ (b.buildFlag = 3 ∧ 0 < b.buildTime) then .refuse .map_terr_no_have_build_type
    else .update (b.unbar curTime)
  else .refuse .error_param

/-- The callback of an owned building: the bar of a setting or of a demolition ends here, that of giving up in the queue
service. -/
def buildTimeCallback : TerrBuild α :=
  if b.buildFlag = 1 then { b with buildFlag := 0, buildTime := 0 }
  else if b.buildFlag = 2 then { b with buildType := init, buildFlag := 0, buildTime := 0 }
  else b

/-- A bar that is laid or taken away leaves whose the building is and its type; only what is being set is refunded. -/
def Turn.Fits (aid : α) : Turn α → Prop
  | .refuse _ => True
  | .update b' => b'.ownAid = b.ownAid ∧ b'.buildType = b.buildType ∧ b'.buildFlag ≠ 1
  | .limit => b.ownAid = some aid
  | .refund => b.ownAid = some aid ∧ b.buildFlag = 1

variable {g b}

theorem setTerrBuildType_fits (aid : α) (buildType buildFlag : Int) (uid : Nat) (curTime : Int) :
    (b.setTerrBuildType g aid buildType buildFlag uid curTime).Fits b aid := by
  unfold setTerrBuildType
  split
  · trivial
  next hown =>
  split
  · trivial
  split
  · split
    · split
      · trivial
      split
      · trivial
      split
      · trivial
      · exact not_not.1 hown
    · split
      · trivial
      next hset => exact ⟨not_not.1 hown, (not_not.1 hset).1⟩
  split
  · split
    · split
      · trivial
      split
      · trivial
      · exact ⟨rfl, rfl, (by decide : (2 : Int) ≠ 1)⟩
    · split
      · trivial
      · exact ⟨rfl, rfl, (by decide : (0 : Int) ≠ 1)⟩
  split
  · split
    · split
      · trivial
      split
      · trivial
      · exact ⟨rfl, rfl, (by decide : (3 : Int) ≠ 1)⟩
    · split
      · trivial
      · exact ⟨rfl, rfl, (by decide : (0 : Int) ≠ 1)⟩
  · trivial

def CentreOf (aid : α) (b : TerrBuild α) : Prop := b.ownAid = some aid ∧ b.buildType = center

instance (aid : α) (b : TerrBuild α) : Decidable (b.CentreOf aid) := inferInstanceAs (Decidable (_ ∧ _))

def getTerrBuildNumType (terr : List ι) (objs : ι → TerrBuild α) (aid : α) :
    Nat := terr.countP (fun id => (objs id).CentreOf aid)

variable [DecidableEq ι] {terr : List ι} {objs : ι → TerrBuild α} {aid : α} {id : ι}

theorem num_update_of_not_mem (h : id ∉ terr) (b' : TerrBuild α) :
    getTerrBuildNumType terr (Function.update objs id b') aid = getTerrBuildNumType terr objs aid := by
  refine List.countP_congr (fun x hx => ?_)
  have hne : x ≠ id := fun heq => h (heq ▸ hx)
  rw [Function.update_of_ne hne]

theorem num_update_le {b' : TerrBuild α} (h : b'.CentreOf aid → (objs id).CentreOf aid) :
    getTerrBuildNumType terr (Function.update objs id b') aid ≤ getTerrBuildNumType terr objs aid := by
  refine List.countP_mono_left (fun x _ hx => ?_)
  by_cases hid : x = id
  · subst hid
    rw [Function.update_self] at hx
    exact decide_eq_true (h (of_decide_eq_true hx))
  · rwa [Function.update_of_ne hid] at hx

theorem num_update_succ (b' : TerrBuild α) : ∀ {terr : List ι}, terr.Nodup →
    getTerrBuildNumType terr (Function.update objs id b') aid ≤ getTerrBuildNumType terr objs aid + 1
  | [], _ => Nat.zero_le _
  | x :: terr, h => by
    obtain ⟨hnot, hnodup⟩ := List.nodup_cons.1 h
    by_cases hx : x = id
    · subst hx
      have hrest : getTerrBuildNumType terr (Function.update objs x b') aid = getTerrBuildNumType terr objs aid :=
        num_update_of_not_mem hnot b'
      unfold getTerrBuildNumType at hrest ⊢
      rw [List.countP_cons, List.countP_cons, hrest]
      split <;> split <;> omega
    · have hrest := num_update_succ b' hnodup
      unfold getTerrBuildNumType at hrest ⊢
      rw [List.countP_cons, List.countP_cons, Function.update_of_ne hx]
      omega

end TerrBuild
end Sncpp
