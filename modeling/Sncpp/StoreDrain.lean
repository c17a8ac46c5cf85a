import Sncpp.Store
/-!
# StoreDrain — the two drains of `dbTask`

A task leaves `dbTask` through the timer (`runTask`) or through the early flush of its key (`flushTask`).  The timer
reads `task.cmd or task.sql` with the task's documents, the flush reads `task.sql` alone.
-/
namespace Sncpp
namespace Store

open Co (Prog)

variable {κ V : Type} [LinearOrder κ]

/-- The tasks of `k` that `sendUpdate`, `sendDelete` and a failed `executeSqlSafe` put into `dbTask`. -/
inductive Queued (db : DbType) (k : κ) : DbTask κ V → Prop
  | sendUpdate (data : V) (now : Nat) : Queued db k (sendUpdateTask db k data now)
  | sendDelete (custom : Option V) (now : Nat) : Queued db k (sendDeleteTask db k custom now)
  | retry (text : Text κ V) (data custom : Option V) (now : Nat) : Queued db k (retryTask db text k data custom now)

def issued {α : Type} : Co κ V α → Option (Req κ V)
  | .call q _ => some q
  | _ => none

def DbTask.wanted (db : DbType) (t : DbTask κ V) : Option (Req κ V) :=
  match db with
  | .mongodb => some (.mongo t.cmd t.key t.data t.custom)
  | .mysql => t.sql.map .execute

/-- **Both drains make the call the task stands for, and go on alike.** -/
structure DrainsAgree (conf : Conf κ V) (k : κ) (t : DbTask κ V) : Prop where
  run : issued (runTask conf t) = t.wanted conf.dbtype
  flush : issued (flushTask conf k t) = t.wanted conf.dbtype
  same : runTask conf t = flushTask conf k t

section Agree

variable {conf : Conf κ V} {k : κ} {t : DbTask κ V}

omit [LinearOrder κ] in
theorem Queued.key_eq {db : DbType} (h : Queued db k t) : t.key = k := by
  cases h <;> cases db <;> rfl

omit [LinearOrder κ] in
theorem Queued.mongodb (h : Queued .mongodb k t) : ∃ text, t.cmd = some text ∧ t.sql = none := by
  cases h with
  | sendUpdate d n => exact ⟨.safeUpdate, rfl, rfl⟩
  | sendDelete c n => exact ⟨.delete, rfl, rfl⟩
  | retry text data custom n => exact ⟨text, rfl, rfl⟩

omit [LinearOrder κ] in
theorem Queued.mysql (h : Queued .mysql k t) :
    ∃ sql, t.sql = some sql ∧ (t.cmd = none ∨ ∃ word, t.cmd = some word ∧ word ≠ sql) := by
  cases h with
  | sendUpdate d n => exact ⟨.upsert k d, rfl, .inr ⟨.update, rfl, nofun⟩⟩
  | sendDelete c n => exact ⟨.remove k c, rfl, .inr ⟨.delete, rfl, nofun⟩⟩
  | retry text data custom n => exact ⟨text, rfl, .inl rfl⟩

theorem issued_mongo (cmd : Option (Text κ V)) (data custom : Option V) (hdb : conf.dbtype = .mongodb) :
    issued (executeSqlSafe conf cmd k data custom) = some (.mongo cmd k data custom) := by
  unfold executeSqlSafe
  rw [hdb]
  rfl

theorem issued_mysql (sql : Option (Text κ V)) (data custom : Option V) (hdb : conf.dbtype = .mysql) :
    issued (executeSqlSafe conf sql k data custom) = sql.map .execute := by
  unfold executeSqlSafe
  rw [hdb]
  cases sql <;> rfl

/-- **The drains agree on a queued task exactly when it has no command.** -/
theorem drainsAgree_iff (conf : Conf κ V) {k : κ} {t : DbTask κ V} (hq : Queued conf.dbtype k t) :
    DrainsAgree conf k t ↔ t.cmd = none := by
  have hkey := hq.key_eq
  cases hdb : conf.dbtype with
  | mongodb =>
    rw [hdb] at hq
    obtain ⟨text, hcmd, hsql⟩ := hq.mongodb
    constructor
    · intro h
      -- the flush calls without a command
      have hflush := h.flush
      unfold flushTask at hflush
      rw [issued_mongo _ _ _ hdb, hdb, hsql] at hflush
      unfold DbTask.wanted at hflush
      rw [hcmd] at hflush
      cases hflush
    · intro h
      rw [hcmd] at h
      cases h
  | mysql =>
    rw [hdb] at hq
    obtain ⟨sql, hsql, hcmd⟩ := hq.mysql
    constructor
    · intro h
      rcases hcmd with hcmd | ⟨word, hcmd, hne⟩
      · exact hcmd
      · -- the timer calls with the command word
        have hrun := h.run
        unfold runTask at hrun
        rw [issued_mysql _ _ _ hdb, hdb] at hrun
        unfold DbTask.wanted at hrun
        rw [hcmd, hsql] at hrun
        cases hrun
        exact absurd rfl hne
    · intro h
      have hrun : issued (runTask conf t) = t.wanted conf.dbtype := by
        unfold runTask DbTask.wanted
        rw [issued_mysql _ _ _ hdb, hdb, h, hsql]
        rfl
      have hsame : runTask conf t = flushTask conf k t := by
        unfold runTask flushTask executeSqlSafe
        rw [hdb, hkey, h, hsql]
        rfl
      exact ⟨hrun, hsame ▸ hrun, hsame⟩

end Agree

theorem drainsAgree_retry : Queued .mysql 0 (retryTask .mysql (.upsert 0 1) 0 none none 0) ∧
    DrainsAgree (.plain .mysql) 0 (retryTask .mysql (.upsert 0 1) 0 none none 0) :=
  ⟨.retry _ none none 0, (drainsAgree_iff (.plain .mysql) (.retry (.upsert 0 1) none none 0)).2 rfl⟩

/-- **The flush of a queued mongo update calls without a command**: the write is not made. -/
theorem drainsAgree_sendUpdate_false : Queued .mongodb 0 (sendUpdateTask .mongodb 0 1 0) ∧
    issued (runTask (.plain .mongodb) (sendUpdateTask .mongodb 0 1 0)) =
      some (.mongo (some .safeUpdate) 0 (some 1) none) ∧
    issued (flushTask (.plain .mongodb) 0 (sendUpdateTask .mongodb 0 1 0)) = some (.mongo none 0 none none) ∧
    ¬DrainsAgree (.plain .mongodb) 0 (sendUpdateTask .mongodb 0 1 0) := by
  refine ⟨.sendUpdate 1 0, rfl, rfl, fun h => ?_⟩
  cases h.flush

end Store
end Sncpp
