import Sncpp.CoTriple
import Sncpp.Store
/-!
# StoreSlice — what the queue of a key protects

A key's slice is its two pending tasks, its cache entries, its row and its last accepted write.  A settled slice
(`Settled`) has the last write on its way: in `redisTask`, or in `dbTask` with the caches current, or in the row with
the caches current.  `spec` asks for settled slices whenever a queue is idle or handed over, and for tasks that lie
under their own keys at every wait.
-/
namespace Sncpp
namespace Store

open Co (Prog Spec Triple World Sys)
open Co.Prog (get modify check ask when serial serialTake)

variable {κ V : Type} [LinearOrder κ]

inductive Op (κ V : Type) where
  | update (k : κ) (data : V)
  | sendUpdate (k : κ) (data : V)
  | delete (k : κ) (custom : Option V)
  | sendDelete (k : κ) (custom : Option V)
  | query (k : κ) (custom : Option V) (force : Bool)
  | dealDb
  | dealRedis

def Op.prog (conf : Conf κ V) : Op κ V → Co κ V Unit
  | .update k d => Store.update conf k d
  | .sendUpdate k d => Store.sendUpdate conf k d
  | .delete k c => Store.delete conf k c
  | .sendDelete k c => Store.sendDelete conf k c
  | .query k c f => Store.query conf k c f
  | .dealDb => onDealDbTask conf
  | .dealRedis => onDealRedisTask conf

/-- **Which answers a call may get**, with redis always alive (`redisUp`) or not, and the database (`dbUp`) or not.
`delete` is answered by nothing, an unknown command is refused, a mongo query finds one document at most, and every
other answer is the outside's own. -/
def may (redisUp dbUp : Bool) : Req κ V → Reply V → Bool
  | .redisGet _, r | .redisSet _ _, r | .redisDel _, r => !redisUp || !r.isRaised
  | .redisAlive, r => !redisUp || r.truthy
  | .mongo (some .safeUpdate) .., .bool true => true
  | .mongo (some .safeUpdate) .., r => !dbUp && !r.truthy
  | .mongo (some .delete) .., .nil => true
  | .mongo (some .delete) .., r => !dbUp && r.isRaised
  | .mongo .., r => r.isRaised
  | .execute _, .done => true
  | .execute _, r => !dbUp && (!r.truthy || r.hasErr)
  | .findOne .., .rows _ => false
  | .keepalive, r => !dbUp || r.truthy
  | _, _ => true

def sys (conf : Conf κ V) (redisUp dbUp : Bool) : Sys (Svc κ V) κ (Req κ V) (Reply V) (Op κ V) Nat where
  prog := Op.prog conf
  may := may redisUp dbUp
  env n s := { s with now := s.now + n }

def Svc.start (redis rows : κ → Option V) : Svc κ V where
  now := 0
  redisTask := .empty
  dbTask := .empty
  cacheData := fun _ _ => none
  redis := redis
  rows := rows
  redisReconnect := false
  dbReconnect := false
  zsetSq := []
  last := fun _ => none

structure Slice (κ V : Type) where
  redisTask : Option (RedisTask κ V)
  dbTask : Option (DbTask κ V)
  mem : Option V
  redis : Option V
  row : Option V
  last : Option (Write V)

def Svc.slice (conf : Conf κ V) (s : Svc κ V) (k : κ) : Slice κ V where
  redisTask := s.redisTask.get k
  dbTask := s.dbTask.get k
  mem := s.cacheData conf.kid k
  redis := s.redis k
  row := s.rows k
  last := s.last k

def RedisTask.write (t : RedisTask κ V) : Option (Write V) :=
  match t.cmd, t.data with
  | .update, some d => some (.put d)
  | .update, none => none
  | .delete, _ => some .remove

def Text.write (text : Text κ V) (data : Option V) : Option (Write V) :=
  match text, data with
  | .safeUpdate, some d => some (.put d)
  | .delete, _ => some .remove
  | _, _ => none

def DbTask.Carries (t : DbTask κ V) (key : κ) (w : Write V) : Prop :=
  t.key = key ∧ t.sql = none ∧ ∃ text, t.cmd = some text ∧ text.write t.data = some w

/-- **The last write is in `dbTask` or in the row, and no cache holds anything else.** -/
structure Current (conf : Conf κ V) (k : κ) (z : Slice κ V) : Prop where
  noRedisTask : z.redisTask = none
  mem : ∀ w v, z.last = some w → z.mem = some v → w.row = some v
  redis : ∀ w v, z.last = some w → z.redis = some v → w.row = some v
  task : ∀ t, z.dbTask = some t → conf.columns k = true → ∃ w, t.Carries k w ∧ z.last = some w
  row : z.dbTask = none → conf.columns k = true → ∀ w, z.last = some w → z.row = w.row

/-- The last write waits in `redisTask`. -/
structure Waits (conf : Conf κ V) (z : Slice κ V) : Prop where
  task : ∃ t w, z.redisTask = some t ∧ t.kid = conf.kid ∧ t.write = some w ∧ z.last = some w

/-- **A settled slice**: what every queue keeps for its key. -/
def Settled (conf : Conf κ V) (redisUp : Bool) (k : κ) (z : Slice κ V) : Prop :=
  Current conf k z ∨ (redisUp = false ∧ Waits conf z)

structure Keyed (s : Svc κ V) : Prop where
  db : ∀ k t, s.dbTask.get k = some t → ∃ w, t.Carries k w
  redis : ∀ k t, s.redisTask.get k = some t → t.key = k

def spec (conf : Conf κ V) (redisUp : Bool) : Spec (Svc κ V) κ (Slice κ V) where
  view := Svc.slice conf
  idle := Settled conf redisUp
  handed := Settled conf redisUp
  held := fun _ _ => True
  inv := Keyed

/-! ## What each change does to the slices -/

section Slices

variable {conf : Conf κ V} {s : Svc κ V} {k x : κ}

theorem slice_setMem (v : Option V) :
    (s.setMem conf.kid k v).slice conf x = if x = k then { s.slice conf x with mem := v } else s.slice conf x := by
  unfold Svc.slice Svc.setMem
  by_cases h : x = k
  · subst h; simp
  · simp [h]

theorem slice_setMem_of_ne {kid : Nat} (hk : kid ≠ conf.kid) (v : Option V) :
    (s.setMem kid k v).slice conf x = s.slice conf x := by
  unfold Svc.slice Svc.setMem
  simp [hk.symm]

theorem slice_setRedis (v : Option V) :
    (s.setRedis k v).slice conf x = if x = k then { s.slice conf x with redis := v } else s.slice conf x := by
  unfold Svc.slice Svc.setRedis
  by_cases h : x = k
  · subst h; simp
  · simp [h]

theorem slice_setRow (v : Option V) :
    (s.setRow k v).slice conf x = if x = k then { s.slice conf x with row := v } else s.slice conf x := by
  unfold Svc.slice Svc.setRow
  by_cases h : x = k
  · subst h; simp
  · simp [h]

theorem slice_accept (w : Write V) :
    (s.accept k w).slice conf x = if x = k then { s.slice conf x with last := some w } else s.slice conf x := by
  unfold Svc.slice Svc.accept
  by_cases h : x = k
  · subst h; simp
  · simp [h]

theorem slice_pushDb (t : DbTask κ V) : (s.pushDb t).slice conf x =
    if x = t.key then { s.slice conf x with dbTask := some t } else s.slice conf x := by
  unfold Svc.slice Svc.pushDb
  by_cases h : x = t.key
  · subst h; simp
  · simp [h]

theorem slice_pushRedis (t : RedisTask κ V) : (s.pushRedis t).slice conf x =
    if x = t.key then { s.slice conf x with redisTask := some t } else s.slice conf x := by
  unfold Svc.slice Svc.pushRedis
  by_cases h : x = t.key
  · subst h; simp
  · simp [h]

theorem slice_removeDb :
    (s.removeDb k).slice conf x = if x = k then { s.slice conf x with dbTask := none } else s.slice conf x := by
  unfold Svc.slice Svc.removeDb
  by_cases h : x = k
  · subst h; simp
  · simp [h]

theorem slice_removeRedis :
    (s.removeRedis k).slice conf x = if x = k then { s.slice conf x with redisTask := none } else s.slice conf x := by
  unfold Svc.slice Svc.removeRedis
  by_cases h : x = k
  · subst h; simp
  · simp [h]

theorem Keyed.pushDb (h : Keyed s) {t : DbTask κ V} {w : Write V} (ht : t.Carries t.key w) : Keyed (s.pushDb t) := by
  refine ⟨fun y u hu => ?_, h.redis⟩
  unfold Svc.pushDb at hu
  rw [FilterList.get_push] at hu
  by_cases hy : y = t.key
  · rw [if_pos hy] at hu
    cases hu
    exact ⟨w, hy ▸ ht⟩
  · rw [if_neg hy] at hu
    exact h.db y u hu

theorem Keyed.pushRedis (h : Keyed s) (t : RedisTask κ V) : Keyed (s.pushRedis t) := by
  refine ⟨h.db, fun y u hu => ?_⟩
  unfold Svc.pushRedis at hu
  rw [FilterList.get_push] at hu
  by_cases hy : y = t.key
  · rw [if_pos hy] at hu
    cases hu
    exact hy.symm
  · rw [if_neg hy] at hu
    exact h.redis y u hu

theorem Keyed.of_db_erase (h : Keyed s) {l : FilterList κ (DbTask κ V)} {k : κ}
    (hl : ∀ y, l.get y = if y = k then none else s.dbTask.get y) : Keyed { s with dbTask := l } := by
  refine ⟨fun y u hu => ?_, h.redis⟩
  have hu' : l.get y = some u := hu
  rw [hl] at hu'
  split at hu'
  · cases hu'
  · exact h.db y u hu'

theorem Keyed.of_redis_erase (h : Keyed s) {l : FilterList κ (RedisTask κ V)} {k : κ}
    (hl : ∀ y, l.get y = if y = k then none else s.redisTask.get y) : Keyed { s with redisTask := l } := by
  refine ⟨h.db, fun y u hu => ?_⟩
  have hu' : l.get y = some u := hu
  rw [hl] at hu'
  split at hu'
  · cases hu'
  · exact h.redis y u hu'

end Slices

end Store
end Sncpp
