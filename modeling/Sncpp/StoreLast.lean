import Sncpp.StoreKeep
/-!
# StoreLast — the last accepted write of a key survives

In every clean run of the requests and the timers, once nothing runs and the queues are empty, the stores hold the
last write of each key (`row_eq_last_of_run`, `stores_eq_last_of_run`).
-/
namespace Sncpp
namespace Store

open Co (Triple World)

variable {κ V : Type} [LinearOrder κ]

section Runs

variable {conf : Conf κ V}

theorem sys_checked (hdb : conf.dbtype = .mongodb) (redisUp dbUp : Bool) :
    Co.Checked (spec conf redisUp) (sys conf redisUp dbUp) := by
  refine ⟨fun o s hi => ?_, fun n s hi => ⟨⟨hi.db, hi.redis⟩, fun _ => rfl⟩⟩
  cases o with
  | update k d => exact writing_wp hdb (Triple.bind (wrapUpdate_holds hdb d) (fun _ => Triple.pure (fun _ h => h))) hi
  | sendUpdate k d => exact writing_wp hdb (wrapSendUpdate_holds hdb d) hi
  | delete k c => exact writing_wp hdb (Triple.bind (wrapDelete_holds hdb c) (fun _ => Triple.pure (fun _ h => h))) hi
  | sendDelete k c => exact writing_wp hdb (wrapSendDelete_holds hdb c) hi
  | query k c force => exact query_wp hdb c force hi
  | dealDb => exact tick_wp (fun s hs => dealLoop_wp (popDb_holds hdb) _ _ _ s hs) hi
  | dealRedis => exact tick_wp (fun s hs => dealLoop_wp (popRedis_holds hdb) _ _ _ s hs) hi

theorem settled_start (redisUp : Bool) (redis rows : κ → Option V) (k : κ) :
    Settled conf redisUp k ((Svc.start redis rows).slice conf k) :=
  .inl ⟨rfl, (fun _ _ h => by cases h), (fun _ _ h => by cases h), (fun _ h => by cases h), fun _ _ _ h => by cases h⟩

theorem settled_of_run (hdb : conf.dbtype = .mongodb) (redisUp dbUp : Bool) (redis rows : κ → Option V)
    (es : List (Co.Event (Op κ V) (Reply V) Nat)) {w : World (Svc κ V) κ (Req κ V) (Reply V)}
    (hrun : (sys conf redisUp dbUp).run (.init (.start redis rows)) es = some w) (hclean : w.clean = true)
    (hquiet : w.quiet = true) (k : κ) : Settled conf redisUp k (w.st.slice conf k) := by
  have hinit : Co.Fits (spec conf redisUp) (sys conf redisUp dbUp) (.init (.start redis rows)) :=
    Co.fits_init _ _ ⟨(fun _ _ h => by cases h), fun _ _ h => by cases h⟩ (settled_start redisUp redis rows)
  exact (Co.fits_of_run (sys_checked hdb redisUp dbUp) es _ w hinit hrun hclean).quiet hquiet k

end Runs

/-- **Redis always alive, the database failing as it likes: once `dbTask` is empty and nothing runs, each row is the
last write accepted for its key**, in every clean run. -/
theorem row_eq_last_of_run {conf : Conf κ V} (hdb : conf.dbtype = .mongodb) (redis rows : κ → Option V)
    (es : List (Co.Event (Op κ V) (Reply V) Nat)) {w : World (Svc κ V) κ (Req κ V) (Reply V)}
    (hrun : (sys conf true false).run (.init (.start redis rows)) es = some w) (hclean : w.clean = true)
    (hquiet : w.quiet = true) (hempty : w.st.dbTask.count = 0) {k : κ} (hcol : conf.columns k = true) {a : Write V}
    (hlast : w.st.last k = some a) : w.st.rows k = a.row := by
  have hnone : w.st.dbTask.get k = none := (FilterList.count_eq_zero _).1 hempty k
  rcases settled_of_run hdb true false redis rows es hrun hclean hquiet k with h | ⟨hup, -⟩
  · exact h.row hnone hcol a hlast
  · cases hup

theorem row_eq_last_of_run_plain : ∃ es w,
    (sys (.plain .mongodb) true false).run (.init (.start (fun _ => none) (fun _ => none))) es = some w ∧ w.clean = true ∧
      w.quiet = true ∧ w.st.dbTask.count = 0 ∧ w.st.last 0 = some (.put 2) ∧ w.st.rows 0 = (Write.put 2).row := by
  -- a queued update, then an update that flushes it
  obtain ⟨w, hrun, hc, hq, he, hl⟩ : ∃ w ∈ (sys (.plain .mongodb) true false).run (.init (.start (fun _ => none) (fun _ => none)))
      [.start (.sendUpdate 0 1), .reply 0 (.bool true), .start (.update 0 2), .reply 1 (.bool true),
        .reply 1 (.bool true), .reply 1 .raised, .reply 1 (.bool true), .reply 1 (.bool true)],
      w.clean = true ∧ w.quiet = true ∧ w.st.dbTask.count = 0 ∧ w.st.last 0 = some (.put 2) := by
    decide +kernel
  exact ⟨_, w, hrun, hc, hq, he, hl, row_eq_last_of_run rfl _ _ _ hrun hc hq he rfl hl⟩

/-- **A pop outside the queue brings an old write back**: the timer pops the queued 1 while an update to 2 is inside the
queue, waits behind it, and writes 1 over 2. -/
theorem popped_task_overwrites : ∃ es w,
    (sys (.plain .mongodb) true false).run (.init (.start (fun _ => none) (fun _ => none))) es = some w ∧
      w.quiet = true ∧ w.st.dbTask.count = 0 ∧ w.st.last 0 = some (.put 2) ∧ w.st.rows 0 = some 1 := by
  obtain ⟨w, hrun, h1, h2, h3, h4⟩ : ∃ w ∈ (sys (.plain .mongodb) true false).run (.init (.start (fun _ => none) (fun _ => none)))
      [.start (.sendUpdate 0 1), .reply 0 (.bool true), .start (.update 0 2), .start .dealDb, .reply 2 (.bool true),
        .reply 1 (.bool true), .reply 1 (.bool true), .wake 2, .reply 2 (.bool true)],
      w.quiet = true ∧ w.st.dbTask.count = 0 ∧ w.st.last 0 = some (.put 2) ∧ w.st.rows 0 = some 1 := by
    decide +kernel
  exact ⟨_, w, hrun, h1, h2, h3, h4⟩

/-- **Redis and the database failing as they like: once both queues are empty and nothing runs, the caches hold nothing
but the last write of a key, and its row is that write**, in every clean run. -/
theorem stores_eq_last_of_run {conf : Conf κ V} (hdb : conf.dbtype = .mongodb) (redisUp dbUp : Bool)
    (redis rows : κ → Option V) (es : List (Co.Event (Op κ V) (Reply V) Nat))
    {w : World (Svc κ V) κ (Req κ V) (Reply V)}
    (hrun : (sys conf redisUp dbUp).run (.init (.start redis rows)) es = some w) (hclean : w.clean = true)
    (hquiet : w.quiet = true) (hredis : w.st.redisTask.count = 0) (hempty : w.st.dbTask.count = 0) {k : κ} {a : Write V}
    (hlast : w.st.last k = some a) : (∀ v, w.st.cacheData conf.kid k = some v → a.row = some v) ∧
      (∀ v, w.st.redis k = some v → a.row = some v) ∧ (conf.columns k = true → w.st.rows k = a.row) := by
  have hnone : w.st.dbTask.get k = none := (FilterList.count_eq_zero _).1 hempty k
  have hnone' : w.st.redisTask.get k = none := (FilterList.count_eq_zero _).1 hredis k
  rcases settled_of_run hdb redisUp dbUp redis rows es hrun hclean hquiet k with h | ⟨-, t, -, ht, -⟩
  · exact ⟨fun v hv => h.mem a v hlast hv, fun v hv => h.redis a v hlast hv, fun hcol => h.row hnone hcol a hlast⟩
  · cases hnone'.symm.trans ht

theorem stores_eq_last_of_run_plain : ∃ es w,
    (sys (.plain .mongodb) false true).run (.init (.start (fun _ => none) (fun _ => none))) es = some w ∧ w.clean = true ∧
      w.quiet = true ∧ w.st.redisTask.count = 0 ∧ w.st.dbTask.count = 0 ∧ w.st.last 0 = some (.put 2) ∧
      w.st.cacheData 1 0 = some 2 ∧ w.st.rows 0 = (Write.put 2).row := by
  -- an update that redis refuses, then the timer that replays it
  obtain ⟨w, hrun, hc, hq, hr, he, hl, hm⟩ : ∃ w ∈ (sys (.plain .mongodb) false true).run (.init (.start (fun _ => none) (fun _ => none)))
      [.start (.update 0 2), .reply 0 .raised, .reply 0 (.bool true), .start .dealRedis, .reply 1 (.bool true),
        .reply 1 (.bool true), .reply 1 (.bool true)],
      w.clean = true ∧ w.quiet = true ∧ w.st.redisTask.count = 0 ∧ w.st.dbTask.count = 0 ∧ w.st.last 0 = some (.put 2) ∧
        w.st.cacheData 1 0 = some 2 := by
    decide +kernel
  exact ⟨_, w, hrun, hc, hq, hr, he, hl, hm, (stores_eq_last_of_run rfl _ _ _ _ _ hrun hc hq hr he hl).2.2 rfl⟩

/-- **A redis task outlives a later write of the same command**: an update to 1 that redis refused is replayed after an
update to 2 that succeeded everywhere, and all three stores go back to 1. -/
theorem replay_overwrites : ∃ es w,
    (sys (.plain .mongodb) false true).run (.init (.start (fun _ => none) (fun _ => none))) es = some w ∧ w.quiet = true ∧
      w.st.redisTask.count = 0 ∧ w.st.dbTask.count = 0 ∧ w.st.last 0 = some (.put 2) ∧ w.st.cacheData 1 0 = some 1 ∧
      w.st.redis 0 = some 1 ∧ w.st.rows 0 = some 1 := by
  obtain ⟨w, hrun, hq, hr, he, hl, hm, hd, hrow⟩ : ∃ w ∈ (sys (.plain .mongodb) false true).run (.init (.start (fun _ => none) (fun _ => none)))
      [.start (.sendUpdate 0 1), .reply 0 .raised, .reply 0 (.bool true), .start (.update 0 2), .reply 1 (.bool true),
        .reply 1 (.bool true), .start .dealRedis, .reply 2 (.bool true), .reply 2 (.bool true), .reply 2 (.bool true)],
      w.quiet = true ∧ w.st.redisTask.count = 0 ∧ w.st.dbTask.count = 0 ∧ w.st.last 0 = some (.put 2) ∧
        w.st.cacheData 1 0 = some 1 ∧ w.st.redis 0 = some 1 ∧ w.st.rows 0 = some 1 := by
    decide +kernel
  exact ⟨_, w, hrun, hq, hr, he, hl, hm, hd, hrow⟩

end Store
end Sncpp
