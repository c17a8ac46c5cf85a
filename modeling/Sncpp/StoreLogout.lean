import Mathlib.Data.String.Basic
import Sncpp.CoSolo
import Sncpp.StoreKid
import Sncpp.StoreSq
/-!
# StoreLogout — what a logout flushes

`playerDataLib:logout` goes to one service, `home uid`, and flushes the tasks of the player's modules it finds there.
A module's requests go to `address module uid`, so its tasks lie elsewhere unless the hashes agree.  Over mysql the
tasks at home reach the database; over mongodb any task there makes the flush raise.
-/
namespace Sncpp
namespace Store

open Co (Prog)
open Co.Prog (get modify check ask when serial serialTake)

variable {κ V : Type} [LinearOrder κ]

/-- Redis and the database answer every call they can serve: a mongo delete with nothing, a mongo call without a known
command not at all. -/
def good : Req κ V → Reply V
  | .redisGet _ | .redisSet .. | .redisDel _ | .redisAlive | .ping | .keepalive => .bool true
  | .mongo (some .safeUpdate) .. => .bool true
  | .mongo (some .delete) .. => .nil
  | .mongo .. => .raised
  | .execute _ => .done
  | _ => .nil

def NoTask (s : Svc κ V) (k : κ) : Prop := s.redisTask.get k = none ∧ s.dbTask.get k = none

/-- The write the task of a key carries; a redis task is replayed over a database task. -/
def carried (db : DbType) (s : Svc κ V) (k : κ) : Option (Write V) :=
  match s.redisTask.get k, s.dbTask.get k with
  | some t, _ => t.write
  | none, none => none
  | none, some t =>
    match db, t.sql with
    | .mongodb, _ => t.cmd.bind (fun text => text.write t.data)
    | .mysql, some (.upsert _ d) => some (.put d)
    | .mysql, some (.remove _ _) => some .remove
    | .mysql, _ => none

def Text.Own (k : κ) : Text κ V → Prop
  | .upsert k' _ => k' = k
  | .remove k' custom => k' = k ∧ custom = none
  | _ => True

structure Tidy (conf : Conf κ V) (s : Svc κ V) (k : κ) : Prop where
  columns : conf.columns k = true
  mongo : conf.dbtype = .mongodb → ∀ t, s.dbTask.get k = some t → t.sql = none
  mysql : conf.dbtype = .mysql → ∀ t, s.dbTask.get k = some t → ∃ text, t.sql = some text ∧ text.Own k
  redis : ∀ t, s.redisTask.get k = some t →
    t.key = k ∧ t.kid = conf.kid ∧ t.custom = none ∧ ∃ w, t.write = some w

/-- What a flush of `k` leaves of another key. -/
structure Same (s s' : Svc κ V) (x : κ) : Prop where
  redisTask : s'.redisTask.get x = s.redisTask.get x
  dbTask : s'.dbTask.get x = s.dbTask.get x
  row : s'.rows x = s.rows x

def rowAfter (db : DbType) (s : Svc κ V) (k : κ) : Option V :=
  match carried db s k with
  | some w => w.row
  | none => s.rows k

/-- **The tasks of `ks` reached the rows, and nothing else moved.** -/
structure After (db : DbType) (ks : List κ) (s s' : Svc κ V) : Prop where
  same : ∀ x, x ∉ ks → Same s s' x
  gone : ∀ x ∈ ks, NoTask s' x
  row : ∀ x ∈ ks, s'.rows x = rowAfter db s x

theorem Tidy.of_same {conf : Conf κ V} {s s' : Svc κ V} {x : κ} (h : Tidy conf s x) (hs : Same s s' x) :
    Tidy conf s' x :=
  ⟨h.columns, fun hd t ht => h.mongo hd t (hs.dbTask ▸ ht), fun hd t ht => h.mysql hd t (hs.dbTask ▸ ht),
    fun t ht => h.redis t (hs.redisTask ▸ ht)⟩

theorem Tidy.of_noTask {conf : Conf κ V} {s s' : Svc κ V} {x : κ} (h : Tidy conf s x) (hn : NoTask s' x) :
    Tidy conf s' x :=
  ⟨h.columns, fun _ t ht => (by cases hn.2.symm.trans ht), fun _ t ht => (by cases hn.2.symm.trans ht),
    fun t ht => (by cases hn.1.symm.trans ht)⟩

theorem carried_of_noTask {db : DbType} {s : Svc κ V} {k : κ} (h : NoTask s k) : carried db s k = none := by
  unfold carried
  rw [h.1, h.2]

/-! ## The flush of a key over mysql -/

section Mysql

variable {conf : Conf κ V} {k : κ}

theorem solo_isDbAlive (s : Svc κ V) : (isDbAlive : Co κ V Bool).solo good s = (.ok true, s) := rfl

theorem solo_isRedisAlive (s : Svc κ V) : (isRedisAlive : Co κ V Bool).solo good s = (.ok true, s) := rfl

theorem solo_cacheUpdate (d : V) (s : Svc κ V) : (cacheUpdate conf conf.kid k d true).solo good s =
    (.ok (), (s.setMem conf.kid k (some d)).setRedis k (some d)) := by
  unfold cacheUpdate
  simp [good, Reply.isRaised]

theorem solo_cacheDelete (c : Option V) (s : Svc κ V) : (cacheDelete conf conf.kid k c true).solo good s =
    (.ok (), (s.setMem conf.kid k none).setRedis k none) := by
  unfold cacheDelete
  simp [good, Reply.isRaised]

theorem solo_executeSqlSafe (hdb : conf.dbtype = .mysql) (text : Text κ V) (data custom : Option V) (s : Svc κ V) :
    (executeSqlSafe conf (some text) k data custom).solo good s = (.ok .done, s.applied conf (.execute text) .done) := by
  unfold executeSqlSafe
  rw [hdb]
  rfl

def Text.rowOf (row : Option V) : Text κ V → Option V
  | .upsert _ d => some d
  | .remove _ _ => none
  | _ => row

theorem applied_own {text : Text κ V} (h : text.Own k) (s : Svc κ V) :
    s.applied conf (.execute text) .done = s.setRow k (text.rowOf (s.rows k)) := by
  have hself : s.setRow k (s.rows k) = s := by unfold Svc.setRow; rw [Function.update_eq_self]
  cases text with
  | upsert k' d =>
    have hk : k' = k := h
    rw [hk]
    rfl
  | remove k' c =>
    obtain ⟨hk, hc⟩ : k' = k ∧ c = none := h
    rw [hk, hc]
    rfl
  | _ => exact hself.symm

/-- What the early flush leaves: no database task, and the row its statement makes. -/
def Svc.flushed (s : Svc κ V) (k : κ) : Svc κ V :=
  match s.dbTask.get k with
  | none => s
  | some t =>
    match t.sql with
    | none => s.removeDb k
    | some text => (s.removeDb k).setRow k (text.rowOf (s.rows k))

theorem solo_dealDbTask (hdb : conf.dbtype = .mysql) {s : Svc κ V} (h : Tidy conf s k) :
    (dealDbTask conf k).solo good s = (.ok (), s.flushed k) := by
  unfold dealDbTask Svc.flushed
  rw [Co.solo_get_bind]
  cases ht : s.dbTask.get k with
  | none => simp [FilterList.has, ht]
  | some t =>
    obtain ⟨text, hsql, hown⟩ := h.mysql hdb t ht
    have hhas : s.dbTask.has k = true := by simp [FilterList.has, ht]
    rw [if_pos hhas, Co.solo_bind, solo_isDbAlive]
    simp only [Co.next, if_true, Co.solo_get_bind, ht, Co.solo_modify_bind]
    unfold flushTask
    rw [Co.solo_bind, hsql, solo_executeSqlSafe hdb, applied_own hown]
    rfl

theorem flushed_of_none {s : Svc κ V} (h : s.dbTask.get k = none) : s.flushed k = s := by
  unfold Svc.flushed
  rw [h]

theorem flushed_noDbTask (s : Svc κ V) : (s.flushed k).dbTask.get k = none := by
  unfold Svc.flushed
  cases ht : s.dbTask.get k with
  | none => exact ht
  | some t => cases hs : t.sql <;> simp [hs, Svc.removeDb, Svc.setRow]

theorem flushed_redisTask (s : Svc κ V) : (s.flushed k).redisTask = s.redisTask := by
  unfold Svc.flushed
  split
  · rfl
  · split <;> rfl

theorem flushed_same (s : Svc κ V) {x : κ} (hx : x ≠ k) : Same s (s.flushed k) x := by
  unfold Svc.flushed
  split
  · exact ⟨rfl, rfl, rfl⟩
  · split
    · exact ⟨rfl, by simp [Svc.removeDb, hx], rfl⟩
    · exact ⟨rfl, by simp [Svc.removeDb, Svc.setRow, hx], by simp [Svc.removeDb, Svc.setRow, hx]⟩

theorem flushed_row {s : Svc κ V} (h : s.redisTask.get k = none) : (s.flushed k).rows k = rowAfter .mysql s k := by
  unfold Svc.flushed rowAfter carried
  rw [h]
  cases ht : s.dbTask.get k with
  | none => rfl
  | some t =>
    cases hs : t.sql with
    | none => simp [hs, Svc.removeDb]
    | some text => cases text <;> simp [hs, Svc.removeDb, Svc.setRow, Text.rowOf, Write.row]

theorem solo_writeNow (hdb : conf.dbtype = .mysql) (text : Text κ V) (hown : text.Own k) {s : Svc κ V}
    (h : Tidy conf s k) :
    (do
      let _ ← (dealDbTask conf k).xpcall
      noDbTask k
      let r ← executeSqlSafe conf (some text) k none none
      outcome r : Co κ V Bool).solo good s = (.ok true, (s.flushed k).setRow k (text.rowOf ((s.flushed k).rows k))) := by
  rw [Co.solo_bind, Co.solo_xpcall, solo_dealDbTask hdb h]
  unfold noDbTask
  simp only [Co.next, Co.solo_check_bind]
  rw [Co.solo_bind, solo_executeSqlSafe hdb, applied_own hown]
  rfl

theorem solo_wrapUpdate (hdb : conf.dbtype = .mysql) (d : V) {s : Svc κ V} (h : Tidy conf s k) :
    (wrapUpdate conf conf.kid k d).solo good s =
      (.ok true, (((s.setMem conf.kid k (some d)).setRedis k (some d)).flushed k).setRow k (some d)) := by
  unfold wrapUpdate
  rw [Co.solo_bind, solo_cacheUpdate]
  have hc : (conf.columns k && conf.kid == conf.kid) = true := by simp [h.columns]
  simp only [Co.next]
  rw [if_pos hc]
  unfold updateNow
  rw [hdb]
  exact solo_writeNow hdb (.upsert k d) rfl (h.of_same ⟨rfl, rfl, rfl⟩)

theorem solo_wrapDelete (hdb : conf.dbtype = .mysql) {s : Svc κ V} (h : Tidy conf s k) :
    (wrapDelete conf conf.kid k none).solo good s =
      (.ok true, (((s.setMem conf.kid k none).setRedis k none).flushed k).setRow k none) := by
  unfold wrapDelete deletable
  rw [h.columns]
  simp only [Bool.true_or, Bool.not_true, Bool.false_eq_true, if_false]
  rw [Co.solo_bind, solo_cacheDelete]
  have hc : (true && conf.kid == conf.kid) = true := by simp
  simp only [Co.next]
  rw [if_pos hc]
  unfold deleteNow
  rw [hdb]
  exact solo_writeNow hdb (.remove k none) ⟨rfl, rfl⟩ (h.of_same ⟨rfl, rfl, rfl⟩)

theorem solo_replay (hdb : conf.dbtype = .mysql) {task : RedisTask κ V} {w : Write V} (hkey : task.key = k)
    (hkid : task.kid = conf.kid) (hcustom : task.custom = none) (hw : task.write = some w) {s : Svc κ V}
    (h : Tidy conf s k) :
    (replay conf task).solo good s =
      (.ok (), (((s.setMem conf.kid k w.row).setRedis k w.row).flushed k).setRow k w.row) := by
  unfold replay
  unfold RedisTask.write at hw
  rw [hkey, hkid]
  cases hc : task.cmd with
  | update =>
    cases hd : task.data with
    | none => rw [hc, hd] at hw; cases hw
    | some d =>
      rw [hc, hd] at hw
      cases hw
      show (wrapUpdate conf conf.kid k d >>= fun _ => pure ()).solo good s = _
      rw [Co.solo_bind, solo_wrapUpdate hdb d h]
      rfl
  | delete =>
    rw [hc] at hw
    cases hw
    show (wrapDelete conf conf.kid k task.custom >>= fun _ => pure ()).solo good s = _
    rw [hcustom, Co.solo_bind, solo_wrapDelete hdb h]
    rfl

/-- The service after the redis task `w` of a key was replayed over mysql. -/
def Svc.replayed (conf : Conf κ V) (s : Svc κ V) (k : κ) (w : Write V) : Svc κ V :=
  ((((s.removeRedis k).setMem conf.kid k w.row).setRedis k w.row).flushed k).setRow k w.row

theorem replayed_noTask (conf : Conf κ V) (s : Svc κ V) (w : Write V) : NoTask (s.replayed conf k w) k := by
  refine ⟨?_, flushed_noDbTask _⟩
  have h := flushed_redisTask (k := k) (((s.removeRedis k).setMem conf.kid k w.row).setRedis k w.row)
  show (Svc.flushed _ k).redisTask.get k = none
  rw [h]
  simp [Svc.removeRedis, Svc.setMem, Svc.setRedis]

theorem replayed_same (s : Svc κ V) (w : Write V) {x : κ} (hx : x ≠ k) : Same s (s.replayed conf k w) x := by
  have hf := flushed_same (((s.removeRedis k).setMem conf.kid k w.row).setRedis k w.row) hx
  refine ⟨hf.redisTask.trans ?_, hf.dbTask, Eq.trans ?_ hf.row⟩
  · simp [Svc.removeRedis, Svc.setMem, Svc.setRedis, hx]
  · simp [Svc.replayed, Svc.setRow, hx]

theorem solo_dealRedisTask (hdb : conf.dbtype = .mysql) {s : Svc κ V} (h : Tidy conf s k) {t : RedisTask κ V}
    {w : Write V} (ht : s.redisTask.get k = some t) (hw : t.write = some w) :
    (dealRedisTask conf k none).solo good s = (.ok (), s.replayed conf k w) := by
  obtain ⟨hkey, hkid, hcustom, -⟩ := h.redis t ht
  have hcmd : some t.cmd ≠ none := by simp
  have hr : Tidy conf (s.removeRedis k) k :=
    ⟨h.columns, h.mongo, h.mysql, fun t ht' => by simp [Svc.removeRedis] at ht'⟩
  unfold dealRedisTask
  rw [Co.solo_get_bind, ht]
  simp only [hcmd, if_true, ne_eq, not_false_eq_true]
  rw [Co.solo_bind, solo_isRedisAlive]
  simp only [Co.next, if_true, Co.solo_get_bind, ht, Co.solo_modify_bind]
  exact solo_replay hdb hkey hkid hcustom hw hr

theorem dealBoth_after (hdb : conf.dbtype = .mysql) {s : Svc κ V} (h : Tidy conf s k) :
    ∃ s', (do dealRedisTask conf k none; dealDbTask conf k : Co κ V Unit).solo good s = (.ok (), s') ∧
      After .mysql [k] s s' := by
  rw [Co.solo_bind]
  cases ht : s.redisTask.get k with
  | none =>
    have hnone : (dealRedisTask conf k none).solo good s = (.ok (), s) := by
      unfold dealRedisTask
      rw [Co.solo_get_bind, ht]
      rfl
    rw [hnone]
    simp only [Co.next]
    rw [solo_dealDbTask hdb h]
    refine ⟨_, rfl, fun x hx => flushed_same s (by simpa using hx), fun x hx => ?_, fun x hx => ?_⟩
    · rw [List.mem_singleton.1 hx]
      exact ⟨by rw [flushed_redisTask]; exact ht, flushed_noDbTask s⟩
    · rw [List.mem_singleton.1 hx]
      exact flushed_row ht
  | some t =>
    obtain ⟨-, -, -, w, hw⟩ := h.redis t ht
    have hgone := replayed_noTask (k := k) conf s w
    rw [solo_dealRedisTask hdb h ht hw]
    simp only [Co.next]
    rw [solo_dealDbTask hdb (h.of_noTask hgone), flushed_of_none hgone.2]
    refine ⟨_, rfl, fun x hx => replayed_same s w (by simpa using hx), fun x hx => ?_, fun x hx => ?_⟩
    · rw [List.mem_singleton.1 hx]
      exact hgone
    · rw [List.mem_singleton.1 hx]
      unfold rowAfter carried
      rw [ht]
      simp only [hw]
      simp [Svc.replayed, Svc.setRow]

/-- **The flush of a key over mysql**: both tasks go, the row is what they carried, and no other key moves. -/
theorem flushKey_after (hdb : conf.dbtype = .mysql) {s : Svc κ V} (h : Tidy conf s k) :
    ∃ s', (flushKey conf k).solo good s = (.ok (), s') ∧ After .mysql [k] s s' := by
  unfold flushKey through
  rw [Co.solo_modify_bind, Co.solo_serial]
  obtain ⟨s', he, ha⟩ := dealBoth_after hdb (s := s.addZsetSq conf k) (h.of_same ⟨rfl, rfl, rfl⟩)
  refine ⟨s', he, fun x hx => ?_, ha.gone, ha.row⟩
  obtain ⟨h1, h2, h3⟩ := ha.same x hx
  exact ⟨h1, h2, h3⟩

end Mysql

/-! ## A task over mongodb stops the flush -/

section Mongodb

variable {conf : Conf κ V} {k : κ}

theorem solo_onDbReconnect (s : Svc κ V) : ∃ s', (onDbReconnect : Co κ V Unit).solo good s = (.ok (), s') := by
  unfold onDbReconnect
  rw [Co.solo_get_bind]
  split
  · exact ⟨s, rfl⟩
  · exact ⟨_, rfl⟩

theorem mongoExecuteSqlSafe_raises (conf : Conf κ V) {cmd : Option (Text κ V)} {data custom : Option V}
    (h : (good (.mongo cmd k data custom) : Reply V).truthy = false) (s : Svc κ V) :
    ∃ m s', (mongoExecuteSqlSafe conf cmd k data custom).solo good s = (.error m, s') := by
  obtain ⟨s₂, h₂⟩ :=
    solo_onDbReconnect (s.applied conf (.mongo cmd k data custom) (good (.mongo cmd k data custom)))
  unfold mongoExecuteSqlSafe dbCall
  rw [Co.solo_bind, Co.solo_ask_bind, Co.solo_modify_bind, Co.solo_pure]
  simp only [Co.next, h, Bool.false_eq_true, if_false]
  rw [Co.solo_bind, h₂]
  simp only [Co.next]
  cases cmd with
  | none => exact ⟨_, _, rfl⟩
  | some text =>
    simp only
    unfold when
    split
    · exact ⟨_, _, rfl⟩
    · exact ⟨_, _, rfl⟩

theorem wrapUpdate_raises (hdb : conf.dbtype = .mongodb) (hcol : conf.columns k = true) (d : V) (s : Svc κ V) :
    ∃ m s', (wrapUpdate conf conf.kid k d).solo good s = (.error m, s') := by
  unfold wrapUpdate
  rw [Co.solo_bind, solo_cacheUpdate]
  have hc : (conf.columns k && conf.kid == conf.kid) = true := by simp [hcol]
  simp only [Co.next]
  rw [if_pos hc, Co.solo_bind, Co.solo_xpcall]
  unfold noDbTask updateNow executeSqlSafe
  rw [hdb]
  exact ⟨_, _, rfl⟩

theorem wrapDelete_raises (hdb : conf.dbtype = .mongodb) (hcol : conf.columns k = true) (c : Option V) (s : Svc κ V) :
    ∃ m s', (wrapDelete conf conf.kid k c).solo good s = (.error m, s') := by
  unfold wrapDelete deletable
  rw [hcol]
  simp only [Bool.true_or, Bool.not_true, Bool.false_eq_true, if_false]
  rw [Co.solo_bind, solo_cacheDelete]
  have hc : (true && conf.kid == conf.kid) = true := by simp
  simp only [Co.next]
  rw [if_pos hc, Co.solo_bind, Co.solo_xpcall]
  unfold noDbTask deleteNow executeSqlSafe
  rw [hdb]
  simp only [Co.next, Co.solo_check_bind]
  have hfalse : (good (.mongo (some .delete) k c none) : Reply V).truthy = false := rfl
  obtain ⟨m, s', h⟩ := mongoExecuteSqlSafe_raises conf hfalse
    ((dealDbTask conf k).solo good ((s.setMem conf.kid k none).setRedis k none)).2
  rw [Co.solo_bind, h]
  exact ⟨_, _, rfl⟩

theorem replay_raises (hdb : conf.dbtype = .mongodb) (hcol : conf.columns k = true) {task : RedisTask κ V} {w : Write V}
    (hkey : task.key = k) (hkid : task.kid = conf.kid) (hw : task.write = some w) (s : Svc κ V) :
    ∃ m s', (replay conf task).solo good s = (.error m, s') := by
  unfold replay
  unfold RedisTask.write at hw
  rw [hkey, hkid]
  cases hc : task.cmd with
  | update =>
    cases hd : task.data with
    | none => rw [hc, hd] at hw; cases hw
    | some d =>
      obtain ⟨m, s', h⟩ := wrapUpdate_raises hdb hcol d s
      refine ⟨m, s', ?_⟩
      show (wrapUpdate conf conf.kid k d >>= fun _ => pure ()).solo good s = _
      rw [Co.solo_bind, h]
      rfl
  | delete =>
    obtain ⟨m, s', h⟩ := wrapDelete_raises hdb hcol task.custom s
    refine ⟨m, s', ?_⟩
    show (wrapDelete conf conf.kid k task.custom >>= fun _ => pure ()).solo good s = _
    rw [Co.solo_bind, h]
    rfl

theorem flushKey_raises (hdb : conf.dbtype = .mongodb) {s : Svc κ V} (h : Tidy conf s k) (hn : ¬NoTask s k) :
    ∃ m s', (flushKey conf k).solo good s = (.error m, s') := by
  unfold flushKey through
  rw [Co.solo_modify_bind, Co.solo_serial, Co.solo_bind]
  unfold dealRedisTask
  rw [Co.solo_get_bind]
  cases ht : (s.addZsetSq conf k).redisTask.get k with
  | some t =>
    obtain ⟨hkey, hkid, -, w, hw⟩ := h.redis t ht
    obtain ⟨m, s', hr⟩ := replay_raises hdb h.columns hkey hkid hw ((s.addZsetSq conf k).removeRedis k)
    have hcmd : some t.cmd ≠ none := by simp
    refine ⟨m, s', ?_⟩
    simp only [hcmd, if_true, ne_eq, not_false_eq_true]
    rw [Co.solo_bind, solo_isRedisAlive]
    simp only [Co.next, if_true, Co.solo_get_bind, ht, Co.solo_modify_bind, hr]
  | none =>
    cases hd : s.dbTask.get k with
    | none => exact absurd ⟨ht, hd⟩ hn
    | some t =>
      have hd' : (s.addZsetSq conf k).dbTask.get k = some t := hd
      have hhas : (s.addZsetSq conf k).dbTask.has k = true := by simp [FilterList.has, hd']
      have hfalse : (good (.mongo none k none none) : Reply V).truthy = false := rfl
      obtain ⟨m, s', hr⟩ := mongoExecuteSqlSafe_raises conf hfalse ((s.addZsetSq conf k).removeDb k)
      refine ⟨m, s', ?_⟩
      simp only [Co.solo_pure, Co.next]
      unfold dealDbTask
      rw [Co.solo_get_bind, if_pos hhas, Co.solo_bind, solo_isDbAlive]
      simp only [Co.next, if_true, Co.solo_get_bind, hd', Co.solo_modify_bind]
      unfold flushTask executeSqlSafe
      rw [Co.solo_bind, hdb, h.mongo hdb t hd, hr]
      rfl

end Mongodb

/-! ## The loop over the player's keys -/

section Loop

variable {conf : Conf κ V}

def flushTurn (conf : Conf κ V) (k : κ) : Co κ V Unit := do
  let s ← get
  if s.redisTask.has k || s.dbTask.has k then flushKey conf k else pure ()

theorem has_iff {s : Svc κ V} {k : κ} : (s.redisTask.has k || s.dbTask.has k) = true ↔ ¬NoTask s k := by
  unfold NoTask FilterList.has
  cases s.redisTask.get k <;> cases s.dbTask.get k <;> simp

theorem flushTurn_of_noTask {s : Svc κ V} {k : κ} (h : NoTask s k) : (flushTurn conf k).solo good s = (.ok (), s) := by
  unfold flushTurn
  rw [Co.solo_get_bind, if_neg (fun hh => has_iff.1 hh h)]
  rfl

theorem flushTurn_of_task {s : Svc κ V} {k : κ} (h : ¬NoTask s k) :
    (flushTurn conf k).solo good s = (flushKey conf k).solo good s := by
  unfold flushTurn
  rw [Co.solo_get_bind, if_pos (has_iff.2 h)]

theorem After.refl {db : DbType} {s : Svc κ V} {k : κ} (h : NoTask s k) : After db [k] s s := by
  refine ⟨fun _ _ => ⟨rfl, rfl, rfl⟩, fun x hx => ?_, fun x hx => ?_⟩
  · rw [List.mem_singleton.1 hx]
    exact h
  · rw [List.mem_singleton.1 hx]
    unfold rowAfter
    rw [carried_of_noTask h]

theorem After.cons {db : DbType} {s s₁ s' : Svc κ V} {k : κ} {ks : List κ} (h : After db [k] s s₁)
    (h' : After db ks s₁ s') : After db (k :: ks) s s' := by
  have hk := List.mem_singleton.2 (rfl : k = k)
  have hrow : rowAfter db s₁ k = s₁.rows k := by
    unfold rowAfter
    rw [carried_of_noTask (h.gone k hk)]
  refine ⟨fun x hx => ?_, fun x hx => ?_, fun x hx => ?_⟩
  · have hxk : x ≠ k := fun e => hx (e ▸ List.mem_cons_self)
    have hxs : x ∉ ks := fun h => hx (List.mem_cons_of_mem _ h)
    have h1 := h.same x (by simpa using hxk)
    have h2 := h'.same x hxs
    exact ⟨h2.redisTask.trans h1.redisTask, h2.dbTask.trans h1.dbTask, h2.row.trans h1.row⟩
  · by_cases hxs : x ∈ ks
    · exact h'.gone x hxs
    · have hxk : x = k := (List.mem_cons.1 hx).resolve_right hxs
      subst hxk
      have h2 := h'.same x hxs
      have h3 := h.gone x hk
      exact ⟨h2.redisTask.trans h3.1, h2.dbTask.trans h3.2⟩
  · by_cases hxk : x = k
    · subst hxk
      by_cases hxs : x ∈ ks
      · rw [h'.row x hxs, hrow, h.row x hk]
      · rw [(h'.same x hxs).row, h.row x hk]
    · have hxs : x ∈ ks := (List.mem_cons.1 hx).resolve_left hxk
      have h1 := h.same x (by simpa using hxk)
      rw [h'.row x hxs]
      unfold rowAfter carried
      rw [h1.redisTask, h1.dbTask, h1.row]

theorem each_after (hdb : conf.dbtype = .mysql) : ∀ (ks : List κ) (s : Svc κ V), (∀ k ∈ ks, Tidy conf s k) →
    ∃ s', (each (flushTurn conf) ks).solo good s = (.ok (), s') ∧ After .mysql ks s s'
  | [], s, _ => ⟨s, rfl, fun _ _ => ⟨rfl, rfl, rfl⟩, nofun, nofun⟩
  | k :: ks, s, h => by
    have hk : ∃ s₁, (flushTurn conf k).solo good s = (.ok (), s₁) ∧ After .mysql [k] s s₁ := by
      by_cases hn : NoTask s k
      · exact ⟨s, flushTurn_of_noTask hn, .refl hn⟩
      · rw [flushTurn_of_task hn]
        exact flushKey_after hdb (h k List.mem_cons_self)
    obtain ⟨s₁, h1, ha1⟩ := hk
    have htidy : ∀ x ∈ ks, Tidy conf s₁ x := by
      intro x hx
      by_cases hxk : x = k
      · subst hxk
        exact (h x List.mem_cons_self).of_noTask (ha1.gone x (List.mem_singleton.2 rfl))
      · exact (h x (List.mem_cons_of_mem _ hx)).of_same (ha1.same x (by simpa using hxk))
    obtain ⟨s', h2, ha2⟩ := each_after hdb ks s₁ htidy
    refine ⟨s', ?_, ha1.cons ha2⟩
    show (flushTurn conf k >>= fun _ => each (flushTurn conf) ks).solo good s = _
    rw [Co.solo_bind, h1]
    exact h2

/-- **Over mongodb the loop ends with an error if any key has a task**, and does nothing otherwise. -/
theorem each_raises (hdb : conf.dbtype = .mongodb) : ∀ (ks : List κ) (s : Svc κ V), (∀ k ∈ ks, Tidy conf s k) →
    (∃ k ∈ ks, ¬NoTask s k) → ∃ m s', (each (flushTurn conf) ks).solo good s = (.error m, s')
  | [], _, _, h => by
    obtain ⟨k, hk, -⟩ := h
    cases hk
  | k :: ks, s, htidy, h => by
    have hcons : (each (flushTurn conf) (k :: ks)).solo good s =
        (flushTurn conf k >>= fun _ => each (flushTurn conf) ks).solo good s := rfl
    rw [hcons, Co.solo_bind]
    by_cases hn : NoTask s k
    · rw [flushTurn_of_noTask hn]
      refine each_raises hdb ks s (fun x hx => htidy x (List.mem_cons_of_mem _ hx)) ?_
      obtain ⟨x, hx, hxn⟩ := h
      refine ⟨x, (List.mem_cons.1 hx).resolve_left (fun e => hxn (e ▸ hn)), hxn⟩
    · obtain ⟨m, s', hr⟩ := flushKey_raises hdb (htidy k List.mem_cons_self) hn
      rw [flushTurn_of_task hn, hr]
      exact ⟨m, s', rfl⟩

theorem each_of_noTask (conf : Conf κ V) : ∀ (ks : List κ) (s : Svc κ V), (∀ k ∈ ks, NoTask s k) →
    (each (flushTurn conf) ks).solo good s = (.ok (), s)
  | [], _, _ => rfl
  | k :: ks, s, h => by
    show (flushTurn conf k >>= fun _ => each (flushTurn conf) ks).solo good s = _
    rw [Co.solo_bind, flushTurn_of_noTask (h k List.mem_cons_self)]
    exact each_of_noTask conf ks s (fun x hx => h x (List.mem_cons_of_mem _ hx))

theorem each_delSq : ∀ (ks : List κ) (s : Svc κ V), (each delSq ks : Co κ V Unit).solo good s = (.ok (), s)
  | [], _ => rfl
  | _ :: ks, s => each_delSq ks s

theorem solo_logout (uid : Nat) (ks : List κ) (account : κ) (s : Svc κ V) :
    (logout conf uid ks account 0).solo good s = (each (flushTurn conf) ks).solo good s := by
  have h : (logout conf uid ks account 0).solo good s =
      (each (flushTurn conf) ks >>= fun _ => each delSq ks >>= fun _ => pure ()).solo good s := rfl
  rw [h, Co.solo_bind]
  cases hr : (each (flushTurn conf) ks).solo good s with
  | mk r s' =>
    cases r with
    | error m => rfl
    | ok a =>
      simp only [Co.next]
      rw [Co.solo_bind, each_delSq]
      rfl

end Loop

def getTaskKey (id : Nat) (module : String) : String := s!"{id}-{module}"

/-- The modules of `moduleSettings` whose redis type is the player's. -/
def playerModules : List String :=
  ["account", "cacheplayer", "lordinfo", "backpack", "setting", "buffinfo", "mail", "mapinfo", "rpginfo"]

def playerKeys (uid : Nat) : List String := playerModules.map (getTaskKey uid)

/-- `playerDataLib:logout`: the service at `home uid` flushes the player's keys, in the order `pairs` gives them.  The
services share one database. -/
def logoutKingdom (conf : Conf String V) (uid : Nat) (ks : List String) (svc : Nat → Svc String V) :
    Except String Unit × (Nat → Svc String V) :=
  let r := (logout conf uid ks (getTaskKey uid "account") 0).solo good (svc (home uid))
  (r.1, fun i => if i = home uid then r.2 else { svc i with rows := r.2.rows })

/-- **The logout returns, no service has a task of the player, and the database holds what the tasks carried.** -/
def Flushes (conf : Conf String V) (uid : Nat) (ks : List String) (svc : Nat → Svc String V) : Prop :=
  (logoutKingdom conf uid ks svc).1 = .ok () ∧ ∀ i ∈ List.range' 1 serviceNum, ∀ k ∈ ks,
    NoTask ((logoutKingdom conf uid ks svc).2 i) k ∧
      ∀ w, carried conf.dbtype (svc i) k = some w → ((logoutKingdom conf uid ks svc).2 i).rows k = w.row

/-- Where the player's tasks may lie: over mysql at home only, over mongodb nowhere. -/
def Placed (conf : Conf String V) (uid : Nat) (ks : List String) (svc : Nat → Svc String V) : Prop :=
  ∀ i ∈ List.range' 1 serviceNum, ∀ k ∈ ks, conf.dbtype = .mysql ∧ i = home uid ∨ NoTask (svc i) k

theorem home_mem (uid : Nat) : home uid ∈ List.range' 1 serviceNum := by
  unfold home address serviceNum
  rw [List.mem_range'_1]
  omega

/-- **A logout flushes the player exactly when the tasks are placed so.** -/
theorem flushes_iff (conf : Conf String V) (uid : Nat) {ks : List String} (hks : ks.Perm (playerKeys uid))
    (svc : Nat → Svc String V) (htidy : ∀ i ∈ List.range' 1 serviceNum, ∀ k ∈ playerKeys uid, Tidy conf (svc i) k) :
    Flushes conf uid ks svc ↔ Placed conf uid ks svc := by
  have htidy' : ∀ k ∈ ks, Tidy conf (svc (home uid)) k := fun k hk => htidy _ (home_mem uid) k (hks.mem_iff.1 hk)
  have hother : ∀ i k, i ≠ home uid → (NoTask ((logoutKingdom conf uid ks svc).2 i) k ↔ NoTask (svc i) k) := by
    intro i k hi
    unfold logoutKingdom
    simp only [if_neg hi]
    exact Iff.rfl
  have hhome : (logoutKingdom conf uid ks svc).2 (home uid) =
    ((each (flushTurn conf) ks).solo good (svc (home uid))).2 := by
    unfold logoutKingdom
    rw [← solo_logout uid ks (getTaskKey uid "account")]
    simp
  have hres : (logoutKingdom conf uid ks svc).1 = ((each (flushTurn conf) ks).solo good (svc (home uid))).1 := by
    unfold logoutKingdom
    rw [← solo_logout uid ks (getTaskKey uid "account")]
  constructor
  · rintro ⟨hok, hall⟩ i hi k hk
    by_cases hih : i = home uid
    · subst hih
      cases hdb : conf.dbtype with
      | mysql => exact .inl ⟨rfl, rfl⟩
      | mongodb =>
        refine .inr (Classical.byContradiction fun hn => ?_)
        obtain ⟨m, s', hr⟩ := each_raises hdb ks _ htidy' ⟨k, hk, hn⟩
        rw [hres, hr] at hok
        cases hok
    · exact .inr ((hother i k hih).1 (hall i hi k hk).1)
  · intro hp
    cases hdb : conf.dbtype with
    | mysql =>
      obtain ⟨s', hr, ha⟩ := each_after hdb ks _ htidy'
      refine ⟨by rw [hres, hr], fun i hi k hk => ?_⟩
      by_cases hih : i = home uid
      · subst hih
        rw [hhome, hr, hdb]
        refine ⟨ha.gone k hk, fun w hw => ?_⟩
        rw [ha.row k hk]
        unfold rowAfter
        rw [hw]
      · have hn : NoTask (svc i) k := (hp i hi k hk).resolve_left (fun h => hih h.2)
        refine ⟨(hother i k hih).2 hn, fun w hw => ?_⟩
        rw [carried_of_noTask hn] at hw
        cases hw
    | mongodb =>
      have hnone : ∀ i ∈ List.range' 1 serviceNum, ∀ k ∈ ks, NoTask (svc i) k := by
        intro i hi k hk
        refine (hp i hi k hk).resolve_left (fun h => ?_)
        rw [hdb] at h
        cases h.1
      have hr := each_of_noTask conf ks _ (hnone _ (home_mem uid))
      refine ⟨by rw [hres, hr], fun i hi k hk => ?_⟩
      have hn := hnone i hi k hk
      refine ⟨?_, fun w hw => by rw [carried_of_noTask hn] at hw; cases hw⟩
      by_cases hih : i = home uid
      · subst hih
        rw [hhome, hr]
        exact hn
      · exact (hother i k hih).2 hn

def Conf.players (db : DbType) : Conf String Nat :=
  ⟨1, 1, 8, db, 300, fun _ => true, fun _ => true, fun _ => .player, fun _ _ _ _ => true, fun _ => false⟩

/-- Services that have just started, and one `sendUpdate` queued where its requests go. -/
def queuedAt (db : DbType) (uid : Nat) (module : String) (data : Nat) (i : Nat) : Svc String Nat :=
  let s := Svc.start (fun _ => none) (fun _ => none)
  if i = address (some module) (some (toString uid)) then s.pushDb (sendUpdateTask db (getTaskKey uid module) data 0)
  else s

theorem queuedAt_dbTask (db : DbType) (uid : Nat) (module : String) (data i : Nat) (k : String) :
    (queuedAt db uid module data i).dbTask.get k =
      if i = address (some module) (some (toString uid)) ∧ k = getTaskKey uid module then
        some (sendUpdateTask db (getTaskKey uid module) data 0) else none := by
  have hkey : (sendUpdateTask db (getTaskKey uid module) data 0).key = getTaskKey uid module := by cases db <;> rfl
  unfold queuedAt
  by_cases hi : i = address (some module) (some (toString uid))
  · by_cases hk : k = getTaskKey uid module
    · simp [hi, hk, Svc.pushDb, hkey]
    · simp [hi, hk, Svc.pushDb, hkey, Svc.start]
  · rw [if_neg hi, if_neg (fun h => hi h.1)]
    rfl

theorem queuedAt_redisTask (db : DbType) (uid : Nat) (module : String) (data i : Nat) (k : String) :
    (queuedAt db uid module data i).redisTask.get k = none := by
  unfold queuedAt
  split <;> rfl

theorem queuedAt_tidy (uid : Nat) (module : String) (data i : Nat) (k : String) :
    Tidy (Conf.players .mysql) (queuedAt .mysql uid module data i) k := by
  refine ⟨rfl, nofun, fun _ t ht => ?_, fun t ht => ?_⟩
  · rw [queuedAt_dbTask] at ht
    split at ht
    · rename_i h
      cases ht
      exact ⟨_, rfl, h.2.symm⟩
    · cases ht
  · rw [queuedAt_redisTask] at ht
    cases ht

theorem flushes_1021 : Flushes (Conf.players .mysql) 1021 (playerKeys 1021) (queuedAt .mysql 1021 "lordinfo" 7) := by
  refine (flushes_iff _ 1021 (.refl _) _ (fun i _ k _ => queuedAt_tidy 1021 "lordinfo" 7 i k)).2 ?_
  intro i _ k _
  have hhome : address (some "lordinfo") (some (toString 1021)) = home 1021 := by decide +kernel
  by_cases hi : i = home 1021
  · exact .inl ⟨rfl, hi⟩
  · refine .inr ⟨queuedAt_redisTask .., ?_⟩
    rw [queuedAt_dbTask, if_neg (fun h => hi (h.1.trans hhome))]

/-- **The logout of player 1201 misses its `lordinfo`**: it goes to service 4, the task waits on service 1. -/
theorem logout_misses_1201 :
    (logoutKingdom (Conf.players .mongodb) 1201 (playerKeys 1201) (queuedAt .mongodb 1201 "lordinfo" 7)).1 = .ok () ∧
      ¬Flushes (Conf.players .mongodb) 1201 (playerKeys 1201) (queuedAt .mongodb 1201 "lordinfo" 7) := by
  have haddr : address (some "lordinfo") (some (toString 1201)) = 1 := by decide +kernel
  have hhome : home 1201 = 4 := by decide +kernel
  have hidle : ∀ k ∈ playerKeys 1201, NoTask (queuedAt .mongodb 1201 "lordinfo" 7 (home 1201)) k := by
    intro k _
    refine ⟨queuedAt_redisTask .., ?_⟩
    rw [queuedAt_dbTask, haddr, hhome, if_neg (fun h => by cases h.1)]
  constructor
  · unfold logoutKingdom
    rw [solo_logout, each_of_noTask _ _ _ hidle]
  · rintro ⟨-, hall⟩
    have hkey : getTaskKey 1201 "lordinfo" ∈ playerKeys 1201 := List.mem_map_of_mem (by decide)
    have hn := (hall 1 (by decide) _ hkey).1.2
    unfold logoutKingdom at hn
    rw [hhome] at hn
    have hq := queuedAt_dbTask .mongodb 1201 "lordinfo" 7 1 (getTaskKey 1201 "lordinfo")
    rw [haddr, if_pos ⟨rfl, rfl⟩] at hq
    exact Option.some_ne_none _ (hq.symm.trans hn)

end Store
end Sncpp
