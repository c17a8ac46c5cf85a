import Sncpp.StoreSlice
/-!
# StoreKeep — requests and timers keep the slices settled

One triple a function, in the order the functions call each other, over mongodb and with redis and the database failing
at any call.  The conditions the programs record are used where they stand: a write issued with no task of its key left
behind (`noDbTask`, `noRedisTask`), a task popped while its key's queue is idle.
-/
namespace Sncpp
namespace Store

open Co (Prog Spec Triple World Sys)
open Co.Prog (get modify check ask when serial serialTake)

variable {κ V : Type} [LinearOrder κ]

/-! ## What each function does to the slice of its key -/

section Functions

variable {conf : Conf κ V} {redisUp dbUp : Bool} {k : κ} {α : Type} {pre bad : Slice κ V → Prop} {y : Slice κ V}

/-- A program inside the queue of `k`, over the slice of `k`. -/
abbrev Holds (conf : Conf κ V) (redisUp dbUp : Bool) (k : κ) (pre : Slice κ V → Prop) (p : Co κ V α)
    (ok : α → Slice κ V → Prop) (bad : Slice κ V → Prop) : Prop :=
  Triple (spec conf redisUp) (may redisUp dbUp) k pre p ok bad

theorem holds_ask (c : Req κ V) : Holds conf redisUp dbUp k pre (ask c)
    (fun r z => may redisUp dbUp c r = true ∧ pre z) bad :=
  Triple.ask (fun _ _ => trivial) (fun _ _ hr hz => ⟨hr, hz⟩)

theorem holds_ask' (c : Req κ V) : Holds conf redisUp dbUp k pre (ask c) (fun _ => pre) bad :=
  Triple.ask (fun _ _ => trivial) (fun _ _ _ hz => hz)

theorem holds_still {f : Svc κ V → Svc κ V} (hf : ∀ s x, (f s).slice conf x = s.slice conf x)
    (hi : ∀ s, Keyed s → Keyed (f s)) : Holds conf redisUp dbUp k pre (modify f) (fun _ => pre) bad := by
  refine Triple.modify (fun s x _ => hf s x) (fun s h hs => ⟨hi s h, ?_⟩)
  show pre ((f s).slice conf k)
  rw [hf]
  exact hs

theorem holds_change {f : Svc κ V → Svc κ V} {g : Slice κ V → Slice κ V}
    (hf : ∀ s x, (f s).slice conf x = if x = k then g (s.slice conf x) else s.slice conf x)
    (hi : ∀ s, Keyed s → Keyed (f s)) :
    Holds conf redisUp dbUp k (fun z => z = y) (modify f) (fun _ z => z = g y) bad := by
  refine Triple.modify (fun s x hx => ?_) (fun s h hs => ⟨hi s h, ?_⟩)
  · exact (hf s x).trans (if_neg hx)
  · have he : (f s).slice conf k = g (s.slice conf k) := (hf s k).trans (if_pos rfl)
    exact he.trans (congrArg g hs)

theorem onRedisReconnect_still : Holds conf redisUp dbUp k pre onRedisReconnect (fun _ => pre) bad := by
  unfold onRedisReconnect
  refine Triple.peek (fun s => Triple.ite (fun _ => Triple.pure (fun _ h => h)) (fun _ => ?_))
  refine Triple.bind (holds_still (fun _ _ => rfl) (fun _ h => ⟨h.db, h.redis⟩)) (fun _ => ?_)
  refine Triple.bind (holds_ask' _) (fun r => ?_)
  refine Triple.ite (fun _ => holds_still (fun _ _ => rfl) (fun _ h => ⟨h.db, h.redis⟩)) (fun _ => ?_)
  refine Triple.bind (holds_ask' _) (fun r => ?_)
  exact Triple.ite (fun _ => holds_still (fun _ _ => rfl) (fun _ h => ⟨h.db, h.redis⟩))
    (fun _ => Triple.pure (fun _ h => h))

theorem onDbReconnect_still : Holds conf redisUp dbUp k pre onDbReconnect (fun _ => pre) bad := by
  unfold onDbReconnect wrapReconnect
  refine Triple.peek (fun s => Triple.ite (fun _ => Triple.pure (fun _ h => h)) (fun _ => ?_))
  refine Triple.bind (holds_still (fun _ _ => rfl) (fun _ h => ⟨h.db, h.redis⟩)) (fun _ => ?_)
  refine Triple.bind (M := fun _ => pre) ?_ (fun ok => ?_)
  · refine Triple.bind (holds_ask' _) (fun r => ?_)
    refine Triple.ite (fun _ => Triple.pure (fun _ h => h)) (fun _ => ?_)
    refine Triple.bind (holds_ask' _) (fun r => ?_)
    refine Triple.ite (fun _ => Triple.pure (fun _ h => h)) (fun _ => ?_)
    exact Triple.bind (holds_ask' _) (fun r => Triple.pure (fun _ h => h))
  · exact Triple.ite (fun _ => holds_still (fun _ _ => rfl) (fun _ h => ⟨h.db, h.redis⟩))
      (fun _ => Triple.pure (fun _ h => h))

theorem isRedisAlive_still : Holds conf redisUp dbUp k pre isRedisAlive (fun _ => pre) pre := by
  unfold isRedisAlive
  refine Triple.bind (holds_ask' _) (fun r => ?_)
  exact Triple.ite (fun _ => Triple.err (fun _ h => h)) (fun _ => Triple.pure (fun _ h => h))

theorem isDbAlive_still : Holds conf redisUp dbUp k pre isDbAlive (fun _ => pre) pre := by
  unfold isDbAlive
  refine Triple.bind (holds_ask' _) (fun r => ?_)
  exact Triple.ite (fun _ => Triple.err (fun _ h => h)) (fun _ => Triple.pure (fun _ h => h))

/-- **A write to both caches** sets them, or is left in `redisTask` and raises. -/
theorem cacheWrite_holds (v : Option V) {c : Req κ V} {f : Nat → RedisTask κ V} {m : String} (hkey : ∀ n, (f n).key = k)
    (hc : ∀ r : Reply V, may redisUp dbUp c r = true → r.isRaised = true → redisUp = false) :
    Holds conf redisUp dbUp k (fun z => z = y)
      (do
        modify (fun s => s.setMem conf.kid k v)
        if conf.kid = conf.kid then
          let r ← ask c
          if r.isRaised then
            onRedisReconnect
            when true (modify (fun s => s.pushRedis (f s.now)))
            Prog.err m
          else modify (fun s => s.setRedis k v)
        else pure ())
      (fun _ z => z = { y with mem := v, redis := v })
      (fun z => redisUp = false ∧ ∃ n, z = { y with mem := v, redisTask := some (f n) }) := by
  refine Triple.bind (holds_change (g := fun z => { z with mem := v }) (fun s x => slice_setMem _)
    (fun _ h => ⟨h.db, h.redis⟩)) (fun _ => ?_)
  refine Triple.ite (fun _ => ?_) (fun h => absurd rfl h)
  refine Triple.bind (holds_ask _) (fun r => ?_)
  refine Triple.ite (fun hr => ?_) (fun hr => ?_)
  · refine Triple.bind onRedisReconnect_still (fun _ => ?_)
    refine Triple.bind (Triple.when (fun _ => ?_) (fun h => by cases h)) (fun _ => Triple.err (fun _ h => h))
    refine Triple.modify (fun s x hx => ?_) (fun s hi hs => ⟨hi.pushRedis _, hc r hs.1 hr, s.now, ?_⟩)
    · exact (slice_pushRedis _).trans (if_neg ((hkey s.now).symm ▸ hx))
    · refine ((slice_pushRedis _).trans (if_pos (hkey s.now).symm)).trans ?_
      rw [show s.slice conf k = _ from hs.2]
  · exact Triple.weaken (holds_change (g := fun z => { z with redis := v }) (fun s x => slice_setRedis _)
      (fun _ h => ⟨h.db, h.redis⟩)) (fun _ h => h.2)

theorem cacheUpdate_holds (d : V) : Holds conf redisUp dbUp k (fun z => z = y) (cacheUpdate conf conf.kid k d true)
    (fun _ z => z = { y with mem := some d, redis := some d })
    (fun z => redisUp = false ∧
      ∃ n, z = { y with mem := some d, redisTask := some ⟨.update, conf.kid, k, some d, none, n⟩ }) :=
  cacheWrite_holds (f := fun n => ⟨.update, conf.kid, k, some d, none, n⟩) (some d) (fun _ => rfl)
    (fun r hmay hr => by simpa [may, hr] using hmay)

theorem cacheDelete_holds (c : Option V) : Holds conf redisUp dbUp k (fun z => z = y)
    (cacheDelete conf conf.kid k c true) (fun _ z => z = { y with mem := none, redis := none })
    (fun z => redisUp = false ∧
      ∃ n, z = { y with mem := none, redisTask := some ⟨.delete, conf.kid, k, none, c, n⟩ }) :=
  cacheWrite_holds (f := fun n => ⟨.delete, conf.kid, k, none, c, n⟩) none (fun _ => rfl)
    (fun r hmay hr => by simpa [may, hr] using hmay)

theorem applied_mongo (conf : Conf κ V) {text : Text κ V} {data custom : Option V} {w : Write V}
    (hw : text.write data = some w)
    {r : Reply V} (hr : may redisUp dbUp (.mongo (some text) k data custom) r = true) (s : Svc κ V) :
    ∃ row, s.applied conf (.mongo (some text) k data custom) r = s.setRow k row ∧ (r.truthy = true → row = w.row) := by
  have hself : s.setRow k (s.rows k) = s := by unfold Svc.setRow; rw [Function.update_eq_self]
  cases text with
  | safeUpdate =>
    cases data with
    | none => cases hw
    | some d =>
      cases hw
      cases r with
      | bool b =>
        cases b with
        | true => exact ⟨some d, rfl, fun _ => rfl⟩
        | false => exact ⟨s.rows k, hself.symm, fun h => by cases h⟩
      | raised => exact ⟨s.rows k, hself.symm, fun h => by cases h⟩
      | nil => exact ⟨s.rows k, hself.symm, fun h => by cases h⟩
      | _ => simp [may, Reply.truthy] at hr
  | delete =>
    cases hw
    cases r with
    | nil =>
      cases data with
      | none => exact ⟨none, rfl, fun _ => rfl⟩
      | some c =>
        by_cases hc : (s.rows k).any (conf.selects k c k) = true
        · exact ⟨none, if_pos hc, fun h => by cases h⟩
        · exact ⟨s.rows k, (if_neg hc).trans hself.symm, fun h => by cases h⟩
    | raised => exact ⟨s.rows k, by simp only [Svc.applied, hself], fun h => by cases h⟩
    | _ => simp [may, Reply.isRaised] at hr
  | _ => cases hw

theorem dbCall_holds {text : Text κ V} {data custom : Option V} {w : Write V} (hw : text.write data = some w) :
    Holds conf redisUp dbUp k (fun z => z = y) (dbCall conf (.mongo (some text) k data custom))
      (fun r z => ∃ row, z = { y with row := row } ∧ (r.truthy = true → row = w.row)) bad := by
  unfold dbCall
  refine Triple.bind (holds_ask _) (fun r => ?_)
  refine Triple.bind (M := fun _ z => ∃ row, z = { y with row := row } ∧ (r.truthy = true → row = w.row)) ?_
    (fun _ => Triple.pure (fun _ h => h))
  intro s hi hs
  obtain ⟨hr, hs⟩ := hs
  obtain ⟨row, he, ht⟩ := applied_mongo conf hw hr s
  refine ⟨fun x hx => ?_, rfl, ?_, row, ?_, ht⟩
  · have hx' : x ≠ k := fun e => hx (by rw [e])
    show (s.applied conf _ r).slice conf x = s.slice conf x
    rw [he]
    exact (slice_setRow row).trans (if_neg hx')
  · show Keyed (s.applied conf _ r)
    rw [he]
    exact ⟨hi.db, hi.redis⟩
  · show (s.applied conf _ r).slice conf k = _
    rw [he]
    refine ((slice_setRow row).trans (if_pos rfl)).trans ?_
    rw [show s.slice conf k = y from hs]

omit [LinearOrder κ] in
theorem mongoWrites_of_write {text : Text κ V} {data : Option V} {w : Write V} (hw : text.write data = some w) :
    text.mongoWrites = true := by
  cases text with
  | safeUpdate => rfl
  | delete => rfl
  | _ => cases hw

/-- **A mongo write** sets the row, or puts itself back into `dbTask` and raises. -/
theorem mongoExecuteSqlSafe_holds {text : Text κ V} {data custom : Option V} {w : Write V}
    (hw : text.write data = some w) :
    Holds conf redisUp dbUp k (fun z => z = y) (mongoExecuteSqlSafe conf (some text) k data custom)
      (fun _ z => z = { y with row := w.row })
      (fun z => ∃ row n, z = { y with row := row, dbTask := some ⟨some text, none, k, data, custom, n⟩ }) := by
  unfold mongoExecuteSqlSafe
  refine Triple.bind (dbCall_holds hw) (fun r => ?_)
  refine Triple.ite (fun hr => ?_) (fun _ => ?_)
  · refine Triple.pure (fun z hz => ?_)
    obtain ⟨row, hz, ht⟩ := hz
    rw [hz, ht hr]
  · refine Triple.bind onDbReconnect_still (fun _ => ?_)
    refine Triple.bind (Triple.when (fun _ => ?_) (fun h => ?_)) (fun _ => Triple.err (fun _ h => h))
    · refine Triple.modify (fun s x hx => ?_) (fun s hi hs => ⟨hi.pushDb ⟨rfl, rfl, text, rfl, hw⟩, ?_⟩)
      · exact (slice_pushDb _).trans (if_neg hx)
      · obtain ⟨row, hz, -⟩ := hs
        refine ⟨row, s.now, ((slice_pushDb _).trans (if_pos rfl)).trans ?_⟩
        exact congrArg (fun z : Slice κ V => { z with dbTask := some ⟨some text, none, k, data, custom, s.now⟩ }) hz
    · rw [mongoWrites_of_write hw] at h
      cases h

theorem mongoExecuteSqlSafe_nil : Holds conf redisUp dbUp k (fun z => z = y)
    (mongoExecuteSqlSafe conf none k none none) (fun _ _ => False) (fun z => z = y) := by
  unfold mongoExecuteSqlSafe dbCall
  refine Triple.bind (Triple.bind (holds_ask _) (fun r => Triple.bind (M := fun _ z => r.isRaised = true ∧ z = y) ?_
    (fun _ => Triple.pure (fun _ h => h)))) (fun r => ?_)
  · intro s hi hs
    obtain ⟨hr, hs⟩ := hs
    exact ⟨fun _ _ => rfl, rfl, hi, hr, hs⟩
  · refine Triple.ite (fun hr => Triple.pure (fun z hz => ?_)) (fun _ => ?_)
    · cases r with
      | raised => cases hr
      | _ => cases hz.1
    · exact Triple.bind onDbReconnect_still (fun _ => Triple.err (fun _ h => h.2))

/-- **The early flush over mongodb drops the task**: its statement is missing, so the call is refused. -/
theorem dealDbTask_holds (hdb : conf.dbtype = .mongodb) : Holds conf redisUp dbUp k (fun z => z = y)
    (dealDbTask conf k) (fun _ z => ∃ t, z = { y with dbTask := t }) (fun z => ∃ t, z = { y with dbTask := t }) := by
  unfold dealDbTask
  refine Triple.peek (fun _ => Triple.ite (fun _ => ?_) (fun _ => Triple.pure (fun z hz => ⟨y.dbTask, hz⟩)))
  refine Triple.bind (Triple.conseq isDbAlive_still (fun _ h => h) (fun _ _ h => h) (fun z hz => ⟨y.dbTask, hz⟩))
    (fun alive => ?_)
  refine Triple.ite (fun _ => ?_) (fun _ => Triple.pure (fun z hz => ⟨y.dbTask, hz⟩))
  refine Triple.get (fun s hi hs => ?_)
  cases ht : s.dbTask.get k with
  | none => exact Triple.pure (fun z hz => ⟨y.dbTask, hz.trans hs⟩)
  | some task =>
    obtain ⟨w, -, hsql, -⟩ := hi.db k task ht
    refine Triple.bind (holds_change (g := fun z => { z with dbTask := none }) (fun s x => slice_removeDb)
      (fun s h => h.of_db_erase (fun x => FilterList.get_remove _ _ _))) (fun _ => ?_)
    unfold flushTask executeSqlSafe
    rw [hdb, hsql]
    refine Triple.bind (Triple.conseq mongoExecuteSqlSafe_nil (fun _ h => h) (fun _ _ h => h) (fun z hz => ?_))
      (fun r => Triple.pure (fun _ h => h.elim))
    exact ⟨none, hz.trans (congrArg (fun z : Slice κ V => { z with dbTask := none }) hs)⟩

def Under (w : Write V) (z : Slice κ V) : Prop := z.redisTask = none ∧ z.last = some w

omit [LinearOrder κ] in
theorem settled_of_redis {t : RedisTask κ V} {w : Write V} {z : Slice κ V} (hup : redisUp = false)
    (ht : z.redisTask = some t) (hk : t.kid = conf.kid) (hw : t.write = some w) (hl : z.last = some w) :
    Settled conf redisUp k z :=
  .inr ⟨hup, t, w, ht, hk, hw, hl⟩

omit [LinearOrder κ] in
theorem settled_of_current {w : Write V} {z : Slice κ V} (hr : z.redisTask = none) (hl : z.last = some w)
    (hm : z.mem = w.row ∨ z.mem = none) (hd : z.redis = w.row ∨ z.redis = none)
    (ht : ∀ t, z.dbTask = some t → conf.columns k = true → t.Carries k w)
    (hrow : z.dbTask = none → conf.columns k = true → z.row = w.row) : Settled conf redisUp k z := by
  refine .inl ⟨hr, fun w' v hw' hv => ?_, fun w' v hw' hv => ?_, fun t h hc => ⟨w, ht t h hc, hl⟩, fun h hc w' hw' => ?_⟩
  · rw [hl] at hw'; cases hw'
    rcases hm with hm | hm
    · rw [← hm, hv]
    · rw [hm] at hv; cases hv
  · rw [hl] at hw'; cases hw'
    rcases hd with hd | hd
    · rw [← hd, hv]
    · rw [hd] at hv; cases hv
  · rw [hl] at hw'; cases hw'
    exact hrow h hc

theorem outcome_still (r : Reply V) : Holds conf redisUp dbUp k pre (outcome r) (fun _ => pre) pre := by
  unfold outcome
  split
  · exact Triple.err (fun _ h => h)
  all_goals exact Triple.pure (fun _ h => h)

omit [LinearOrder κ] in
theorem settled_of_plain {w : Write V} (hcol : ¬(conf.columns k && conf.kid == conf.kid) = true) (hl : y.last = some w)
    (hr : y.redisTask = none) (hm : y.mem = w.row) (hd : y.redis = w.row) : Settled conf redisUp k y :=
  have hcol : conf.columns k ≠ true := fun h => hcol (by simp [h])
  settled_of_current hr hl (.inl hm) (.inl hd) (fun _ _ h => absurd h hcol) (fun _ h => absurd h hcol)

theorem writeNow_holds (hdb : conf.dbtype = .mongodb) {w : Write V} {text : Text κ V} {data : Option V}
    (hw : text.write data = some w) (hl : y.last = some w) (hr : y.redisTask = none) (hm : y.mem = w.row)
    (hd : y.redis = w.row) :
    Holds conf redisUp dbUp k (fun z => z = y)
      (if (conf.columns k && conf.kid == conf.kid) = true then do
        let _ ← (dealDbTask conf k).xpcall
        noDbTask k
        let r ← executeSqlSafe conf (some text) k data none
        outcome r
      else pure true)
      (fun _ => Settled conf redisUp k) (Settled conf redisUp k) := by
  refine Triple.ite (fun _ => ?_) (fun hc => Triple.pure (fun z hz => hz ▸ settled_of_plain hc hl hr hm hd))
  refine Triple.bind (Triple.xpcall (dealDbTask_holds hdb)) (fun _ => ?_)
  refine Triple.bind (M := fun _ z => z = { y with dbTask := none }) (Triple.check (fun s sq hc hs => ?_)) (fun _ => ?_)
  · obtain ⟨t, hs⟩ := hs
    have ht : s.dbTask.get k = none := by simpa [FilterList.has] using hc
    have he : t = none := (congrArg Slice.dbTask hs).symm.trans ht
    rw [hs, he]
  · unfold executeSqlSafe
    rw [hdb]
    refine Triple.bind (Triple.conseq (mongoExecuteSqlSafe_holds hw) (fun _ h => h) (fun _ _ h => h) ?_) (fun r => ?_)
    · rintro z ⟨row, n, rfl⟩
      refine settled_of_current hr hl (.inl hm) (.inl hd) (fun t ht _ => ?_) (fun h => by cases h)
      cases ht
      exact ⟨rfl, rfl, text, rfl, hw⟩
    · refine Triple.weaken (outcome_still r) (fun z hz => ?_)
      subst hz
      exact settled_of_current hr hl (.inl hm) (.inl hd) (fun t ht => by cases ht) (fun _ _ => rfl)

theorem writeLater_holds {w : Write V} {f : Nat → DbTask κ V} (hf : ∀ n, (f n).Carries k w) (hl : y.last = some w)
    (hr : y.redisTask = none) (hm : y.mem = w.row) (hd : y.redis = w.row) :
    Holds conf redisUp dbUp k (fun z => z = y)
      (if (conf.columns k && conf.kid == conf.kid) = true then modify (fun s => s.pushDb (f s.now)) else pure ())
      (fun _ => Settled conf redisUp k) (Settled conf redisUp k) := by
  have hkey : ∀ n, (f n).key = k := fun n => (hf n).1
  refine Triple.ite (fun _ => ?_) (fun hc => Triple.pure (fun z hz => ?_))
  · refine Triple.modify (fun s x hx => ?_) (fun s hi hs => ⟨hi.pushDb ((hkey s.now).symm ▸ hf s.now), ?_⟩)
    · exact (slice_pushDb _).trans (if_neg ((hkey s.now).symm ▸ hx))
    · have he : (s.pushDb (f s.now)).slice conf k = { y with dbTask := some (f s.now) } :=
        ((slice_pushDb _).trans (if_pos (hkey s.now).symm)).trans (congrArg (fun z : Slice κ V => { z with
          dbTask := some (f s.now) }) hs)
      show Settled conf redisUp k ((s.pushDb (f s.now)).slice conf k)
      rw [he]
      refine settled_of_current hr hl (.inl hm) (.inl hd) (fun t ht _ => ?_) (fun h => by cases h)
      cases ht
      exact hf s.now
  · exact hz ▸ settled_of_plain hc hl hr hm hd

theorem cached_holds {w : Write V} {f : Nat → RedisTask κ V} {cache : Co κ V Unit} {rest : Co κ V α}
    (hcache : ∀ y, Holds conf redisUp dbUp k (fun z => z = y) cache (fun _ z => z = { y with mem := w.row, redis := w.row })
      (fun z => redisUp = false ∧ ∃ n, z = { y with mem := w.row, redisTask := some (f n) }))
    (hf : ∀ n, (f n).kid = conf.kid ∧ (f n).write = some w)
    (hrest : ∀ y : Slice κ V, y.last = some w → y.redisTask = none → y.mem = w.row → y.redis = w.row →
      Holds conf redisUp dbUp k (fun z => z = y) rest (fun _ => Settled conf redisUp k) (Settled conf redisUp k)) :
    Holds conf redisUp dbUp k (Under w) (do cache; rest) (fun _ => Settled conf redisUp k) (Settled conf redisUp k) := by
  refine Triple.of_eq (fun y hy => ?_)
  refine Triple.bind (Triple.conseq (hcache y) (fun _ h => h) (fun _ _ h => h) ?_) (fun _ => hrest _ hy.2 hy.1 rfl rfl)
  rintro z ⟨hup, n, rfl⟩
  exact settled_of_redis hup rfl (hf n).1 (hf n).2 hy.2

omit [LinearOrder κ] in
theorem deletable_mongodb (hdb : conf.dbtype = .mongodb) : deletable conf k = true := by
  unfold deletable
  rw [hdb]
  simp

theorem wrapUpdate_holds (hdb : conf.dbtype = .mongodb) (d : V) :
    Holds conf redisUp dbUp k (Under (.put d)) (wrapUpdate conf conf.kid k d) (fun _ => Settled conf redisUp k)
      (Settled conf redisUp k) := by
  unfold wrapUpdate updateNow
  rw [hdb]
  exact cached_holds (fun _ => cacheUpdate_holds d) (fun _ => ⟨rfl, rfl⟩) (fun _ => writeNow_holds hdb rfl)

theorem wrapDelete_holds (hdb : conf.dbtype = .mongodb) (c : Option V) :
    Holds conf redisUp dbUp k (Under .remove) (wrapDelete conf conf.kid k c) (fun _ => Settled conf redisUp k)
      (Settled conf redisUp k) := by
  unfold wrapDelete deleteNow
  rw [deletable_mongodb hdb, hdb]
  simp only [Bool.not_true, Bool.false_eq_true, if_false]
  exact cached_holds (fun _ => cacheDelete_holds c) (fun _ => ⟨rfl, rfl⟩) (fun _ => writeNow_holds hdb rfl)

theorem wrapSendUpdate_holds (hdb : conf.dbtype = .mongodb) (d : V) :
    Holds conf redisUp dbUp k (Under (.put d)) (wrapSendUpdate conf conf.kid k d) (fun _ => Settled conf redisUp k)
      (Settled conf redisUp k) := by
  unfold wrapSendUpdate
  rw [hdb]
  exact cached_holds (fun _ => cacheUpdate_holds d) (fun _ => ⟨rfl, rfl⟩)
    (fun _ => writeLater_holds (fun n => ⟨rfl, rfl, .safeUpdate, rfl, rfl⟩))

theorem wrapSendDelete_holds (hdb : conf.dbtype = .mongodb) (c : Option V) :
    Holds conf redisUp dbUp k (Under .remove) (wrapSendDelete conf conf.kid k c) (fun _ => Settled conf redisUp k)
      (Settled conf redisUp k) := by
  unfold wrapSendDelete
  rw [deletable_mongodb hdb, hdb]
  simp only [Bool.not_true, Bool.false_eq_true, if_false]
  exact cached_holds (fun _ => cacheDelete_holds c) (fun _ => ⟨rfl, rfl⟩)
    (fun _ => writeLater_holds (fun n => ⟨rfl, rfl, .delete, rfl, rfl⟩))

theorem replay_holds (hdb : conf.dbtype = .mongodb) {task : RedisTask κ V} {w : Write V} (hkey : task.key = k)
    (hkid : task.kid = conf.kid) (hw : task.write = some w) :
    Holds conf redisUp dbUp k (Under w) (replay conf task) (fun _ => Settled conf redisUp k)
      (Settled conf redisUp k) := by
  unfold replay
  unfold RedisTask.write at hw
  rw [hkey, hkid]
  cases hc : task.cmd with
  | update =>
    cases hd : task.data with
    | none => rw [hc, hd] at hw; cases hw
    | some d =>
      rw [hc, hd] at hw
      cases hw
      exact Triple.bind (wrapUpdate_holds hdb d) (fun _ => Triple.pure (fun _ h => h))
  | delete =>
    rw [hc] at hw
    cases hw
    exact Triple.bind (wrapDelete_holds hdb _) (fun _ => Triple.pure (fun _ h => h))

/-- **Dealing with the key's redis task keeps the slice settled**, whether it replays the task or not. -/
theorem dealRedisTask_holds (hdb : conf.dbtype = .mongodb) (cmd : Option RedisCmd) :
    Holds conf redisUp dbUp k (Settled conf redisUp k) (dealRedisTask conf k cmd) (fun _ => Settled conf redisUp k)
      (Settled conf redisUp k) := by
  unfold dealRedisTask
  refine Triple.peek (fun s => ?_)
  split
  · exact Triple.pure (fun _ h => h)
  refine Triple.ite (fun _ => ?_) (fun _ => Triple.pure (fun _ h => h))
  refine Triple.bind isRedisAlive_still (fun alive => ?_)
  refine Triple.ite (fun _ => ?_) (fun _ => Triple.pure (fun _ h => h))
  refine Triple.get (fun s hi hs => ?_)
  cases ht : s.redisTask.get k with
  | none => exact Triple.pure (fun z hz => hz ▸ hs)
  | some task =>
    -- a task is there, so the last write is the one it carries
    obtain ⟨hup, t, w, htask, hkid, hw, hl⟩ : redisUp = false ∧ Waits conf (s.slice conf k) := by
      rcases hs with hs | hs
      · have := hs.noRedisTask.symm.trans ht
        cases this
      · exact hs
    have he : task = t := Option.some.inj (ht.symm.trans htask)
    subst he
    refine Triple.bind (holds_change (g := fun z => { z with redisTask := none }) (fun s x => slice_removeRedis)
      (fun s h => h.of_redis_erase (fun x => FilterList.get_remove _ _ _))) (fun _ => ?_)
    exact Triple.weaken (replay_holds hdb (hi.redis k task ht) hkid hw) (fun z hz => hz ▸ ⟨rfl, hl⟩)

theorem kidOf_still : Holds conf redisUp dbUp k pre (kidOf conf k) (fun _ => pre) pre := by
  unfold kidOf
  split
  · refine Triple.bind (holds_ask' _) (fun r => ?_)
    split
    · exact Triple.err (fun _ h => h)
    · exact Triple.pure (fun _ h => h)
    · exact Triple.pure (fun _ h => h)
  · refine Triple.bind (holds_ask' _) (fun r => ?_)
    split
    · exact Triple.err (fun _ h => h)
    · exact Triple.pure (fun _ h => h)
    · exact Triple.pure (fun _ h => h)
  · exact Triple.pure (fun _ h => h)
  · exact Triple.pure (fun _ h => h)

/-- **A request of `k`**: a body that settles the slice, run through the queue of `k`. -/
theorem through_wp {body : Co κ V Unit} (h : Holds conf redisUp dbUp k (Settled conf redisUp k) body
    (fun _ => Settled conf redisUp k) (Settled conf redisUp k)) {s : Svc κ V} (hi : Keyed s) :
    Co.wp (spec conf redisUp) (may redisUp dbUp) (through conf k body) none (spec conf redisUp).final s := by
  refine ⟨fun _ _ => rfl, Triple.wp_serial (Triple.conseq h (fun z hz => hz.elim id id) (fun _ _ h => ⟨h, h⟩)
    (fun _ h => ⟨h, h⟩)) ⟨hi.db, hi.redis⟩ (fun r s' h => ⟨rfl, h⟩)⟩

theorem writing_wp (hdb : conf.dbtype = .mongodb) {w : Write V} {cmd : RedisCmd} {body : Co κ V Unit}
    (hbody : Holds conf redisUp dbUp k (Under w) body (fun _ => Settled conf redisUp k) (Settled conf redisUp k))
    {s : Svc κ V} (hi : Keyed s) :
    Co.wp (spec conf redisUp) (may redisUp dbUp) (writing conf k w cmd body) none (spec conf redisUp).final s := by
  refine through_wp ?_ hi
  refine Triple.bind kidOf_still (fun kid => ?_)
  refine Triple.ite (fun _ => ?_) (fun _ => Triple.pure (fun _ h => h))
  refine Triple.bind (Triple.xpcall (dealRedisTask_holds hdb _)) (fun _ => ?_)
  refine Triple.bind (M := fun _ z => z.redisTask = none) (Triple.check (fun s sq hc _ => ?_)) (fun _ => ?_)
  · show s.redisTask.get k = none
    simpa [FilterList.has] using hc
  · refine Triple.bind (M := fun _ => Under w) ?_ (fun _ => hbody)
    refine Triple.of_eq (fun y hy => Triple.conseq (holds_change (g := fun z => { z with last := some w })
      (fun s x => slice_accept w) (fun _ h => ⟨h.db, h.redis⟩)) (fun _ h => h) (fun _ z hz => ?_) (fun _ h => h))
    rw [hz]
    exact ⟨hy, rfl⟩

omit [LinearOrder κ] in
theorem settled_fill {z : Slice κ V} {v : V} (h : Settled conf redisUp k z) (hv : z.redis = some v) :
    Settled conf redisUp k { z with mem := some v } := by
  rcases h with h | ⟨hup, t, w, htask, hkid, hw, hl⟩
  · refine .inl ⟨h.noRedisTask, fun w v' hw hv' => ?_, h.redis, h.task, h.row⟩
    exact h.redis w v' hw (hv.trans hv')
  · exact settled_of_redis hup htask hkid hw hl

theorem cacheQuery_holds (kid : Nat) : Holds conf redisUp dbUp k (Settled conf redisUp k) (cacheQuery conf kid k)
    (fun _ => Settled conf redisUp k) (Settled conf redisUp k) := by
  unfold cacheQuery
  refine Triple.peek (fun s => ?_)
  split
  · exact Triple.pure (fun _ h => h)
  refine Triple.ite (fun hkid => ?_) (fun _ => Triple.pure (fun _ h => h))
  refine Triple.bind (holds_ask' _) (fun r => ?_)
  refine Triple.ite (fun _ => Triple.bind onRedisReconnect_still (fun _ => Triple.err (fun _ h => h))) (fun _ => ?_)
  refine Triple.get (fun s _ hs => ?_)
  cases hv : s.redis k with
  | none => exact Triple.pure (fun z hz => hz ▸ hs)
  | some v =>
    rw [hkid]
    refine Triple.bind (Triple.conseq (holds_change (g := fun z => { z with mem := some v }) (fun s x => slice_setMem _)
      (fun _ h => ⟨h.db, h.redis⟩)) (fun _ h => h) (fun _ z hz => ?_) (fun _ h => h))
      (fun _ => Triple.pure (fun _ h => h))
    rw [hz]
    exact settled_fill hs hv

theorem cacheUpdate_still {kid : Nat} (hk : kid ≠ conf.kid) (d : V) (flag : Bool) :
    Holds conf redisUp dbUp k pre (cacheUpdate conf kid k d flag) (fun _ => pre) bad := by
  unfold cacheUpdate
  refine Triple.bind (holds_still (fun s x => slice_setMem_of_ne hk _) (fun _ h => ⟨h.db, h.redis⟩)) (fun _ => ?_)
  exact Triple.ite (fun h => absurd h hk) (fun _ => Triple.pure (fun _ h => h))

theorem wrapQuery_still (hdb : conf.dbtype = .mongodb) (c : Option V) :
    Holds conf redisUp dbUp k pre (wrapQuery conf conf.kid k c) (fun _ => pre) pre := by
  unfold wrapQuery
  rw [hdb]
  refine Triple.ite (fun _ => ?_) (fun _ => Triple.pure (fun _ h => h))
  refine Triple.bind (holds_ask _) (fun r => ?_)
  cases r with
  | raised => exact Triple.err (fun _ h => h.2)
  | errd => exact Triple.err (fun _ h => h.2)
  | rows v => exact fun s _ h => absurd h.1 (by simp [may])
  | _ => exact Triple.pure (fun _ h => h.2)

theorem dealDbTask_of_none : Holds conf redisUp dbUp k (fun z => z.dbTask = none ∧ pre z) (dealDbTask conf k)
    (fun _ => pre) bad := by
  unfold dealDbTask
  refine Triple.get (fun s _ hs => Triple.ite (fun hh => ?_) (fun _ => Triple.pure (fun z hz => hz ▸ hs.2)))
  have hnone : s.dbTask.get k = none := hs.1
  simp [FilterList.has, hnone] at hh

theorem query_wp (hdb : conf.dbtype = .mongodb) (c : Option V) (force : Bool) {s : Svc κ V} (hi : Keyed s) :
    Co.wp (spec conf redisUp) (may redisUp dbUp) (query conf k c force) none (spec conf redisUp).final s := by
  refine through_wp ?_ hi
  refine Triple.bind kidOf_still (fun kid => ?_)
  cases kid with
  | none => exact Triple.pure (fun _ h => h)
  | some kid =>
    refine Triple.ite (fun _ => ?_) (fun _ => Triple.pure (fun _ h => h))
    refine Triple.bind (M := fun _ => Settled conf redisUp k) ?_ (fun data => ?_)
    · refine Triple.ite (fun _ => ?_) (fun _ => Triple.pure (fun _ h => h))
      exact Triple.bind (dealRedisTask_holds hdb none) (fun _ => cacheQuery_holds kid)
    cases data with
    | some v => exact Triple.pure (fun _ h => h)
    | none =>
      refine Triple.ite (fun hkid => ?_) (fun hkid => ?_)
      · rw [hkid]
        refine Triple.bind (M := fun _ z => z.dbTask = none ∧ Settled conf redisUp k z)
          (Triple.check (fun s sq hc hs => ⟨?_, hs⟩)) (fun _ => ?_)
        · show s.dbTask.get k = none
          simpa [FilterList.has] using hc
        refine Triple.bind dealDbTask_of_none (fun _ => ?_)
        exact Triple.bind (wrapQuery_still hdb c) (fun _ => Triple.pure (fun _ h => h))
      · refine Triple.bind (holds_ask' _) (fun r => ?_)
        cases r with
        | raised => exact Triple.err (fun _ h => h)
        | doc v => exact cacheUpdate_still hkid v false
        | rows v => exact cacheUpdate_still hkid v false
        | _ => exact Triple.pure (fun _ h => h)

omit [LinearOrder κ] in
theorem DbTask.Carries.unique {t : DbTask κ V} {w w' : Write V} (h : t.Carries k w) (h' : t.Carries k w') : w = w' := by
  obtain ⟨-, -, text, hc, hw⟩ := h
  obtain ⟨-, -, text', hc', hw'⟩ := h'
  cases hc.symm.trans hc'
  exact Option.some.inj (hw.symm.trans hw')

/-- **A task the timer popped from a settled slice** reaches the row, or goes back into `dbTask`. -/
theorem runTask_holds (hdb : conf.dbtype = .mongodb) {task : DbTask κ V} {w : Write V} (hcar : task.Carries k w)
    (hy : Settled conf redisUp k y) (ht : y.dbTask = some task) :
    Holds conf redisUp dbUp k (fun z => z = { y with dbTask := none }) (runTask conf task)
      (fun _ => Settled conf redisUp k) (Settled conf redisUp k) := by
  have hcar' := hcar
  obtain ⟨hkey, -, text, hc, hw⟩ := hcar
  unfold runTask executeSqlSafe
  rw [hdb, hkey, hc]
  refine Triple.conseq (mongoExecuteSqlSafe_holds hw) (fun _ h => h) (fun _ z hz => ?_) (fun z hz => ?_)
  · subst hz
    rcases hy with h | ⟨hup, t, w', htask, hkid, hw', hl⟩
    · refine .inl ⟨h.noRedisTask, h.mem, h.redis, (fun t h => by cases h), fun _ hcol w' hw' => ?_⟩
      obtain ⟨w'', hcar'', hl⟩ := h.task task ht hcol
      rw [show y.last = some w' from hw'] at hl
      cases hl
      exact congrArg Write.row (hcar'.unique hcar'')
    · exact settled_of_redis hup htask hkid hw' hl
  · obtain ⟨row, n, rfl⟩ := hz
    rcases hy with h | ⟨hup, t, w', htask, hkid, hw', hl⟩
    · refine .inl ⟨h.noRedisTask, h.mem, h.redis, fun t htk hcol => ?_, fun h => by cases h⟩
      cases htk
      obtain ⟨w'', hcar'', hl⟩ := h.task task ht hcol
      cases hcar'.unique hcar''
      exact ⟨w, ⟨rfl, rfl, text, rfl, hw⟩, hl⟩
    · exact settled_of_redis hup htask hkid hw' hl

theorem pace_wp {opt taskTime time : Nat} {next : Co κ V Unit}
    (hnext : ∀ s, Keyed s → Co.wp (spec conf redisUp) (may redisUp dbUp) next none (spec conf redisUp).final s)
    {s : Svc κ V} (hi : Keyed s) :
    Co.wp (spec conf redisUp) (may redisUp dbUp) (pace opt taskTime time next) none (spec conf redisUp).final s := by
  have rest : ∀ s, Keyed s → Co.wp (spec conf redisUp) (may redisUp dbUp)
      (if time ≤ taskTime then pure () else next) none (spec conf redisUp).final s := by
    intro s hi
    split
    · exact ⟨rfl, hi⟩
    · exact hnext s hi
  unfold pace
  simp only
  split
  · split
    · exact ⟨rfl, hi⟩
    · exact ⟨hi, (fun x hx => by cases hx), fun _ _ s' hi' _ => rest s' hi'⟩
  · exact rest s hi

/-- **A timer's loop**, by induction on the tasks it may still take: each task is popped from a settled slice, and what
runs it settles the slice again. -/
theorem dealLoop_wp {τ : Type} {pop : Svc κ V → Option τ × Svc κ V} {key : τ → κ} {taskTime : τ → Nat}
    {run : τ → Co κ V Unit} (hpop : ∀ s task, Keyed s → (pop s).1 = some task →
      Settled conf redisUp (key task) (s.slice conf (key task)) → Keyed (pop s).2 ∧
      (∀ x, x ≠ key task → (pop s).2.slice conf x = s.slice conf x) ∧
      Holds conf redisUp dbUp (key task) (fun z => z = (pop s).2.slice conf (key task)) (run task)
        (fun _ => Settled conf redisUp (key task)) (Settled conf redisUp (key task))) (time : Nat) :
    ∀ (fuel opt : Nat) (s : Svc κ V), Keyed s → Co.wp (spec conf redisUp) (may redisUp dbUp)
      (dealLoop conf pop key taskTime run time fuel opt) none (spec conf redisUp).final s
  | 0, _, _, hi => ⟨rfl, hi⟩
  | fuel + 1, opt, s, hi => by
    unfold dealLoop
    refine Co.wp_get ?_
    split
    · exact ⟨rfl, hi⟩
    · rename_i task ht
      refine Co.wp_bind _ _ _ _ _ (Triple.wp_serialTake (fun hidle => ?_) (fun r s' hi' => ?_))
      · obtain ⟨hk, hv, h⟩ := hpop s task hi ht hidle
        exact ⟨⟨hk.db, hk.redis⟩, hv, Triple.conseq h (fun _ h => h) (fun _ _ h => ⟨h, h⟩) (fun _ h => ⟨h, h⟩)⟩
      · cases r with
        | error m => exact ⟨rfl, hi'⟩
        | ok a => exact pace_wp (fun s hs => dealLoop_wp hpop time fuel (opt + 1) s hs) hi'

theorem slice_popDb {s : Svc κ V} {task : DbTask κ V} (hpop : s.dbTask.pop = (some task, s.dbTask.erase k)) (x : κ) :
    s.popDb.2.slice conf x = if x = k then { s.slice conf x with dbTask := none } else s.slice conf x := by
  unfold Svc.popDb Svc.slice
  rw [hpop]
  by_cases hx : x = k
  · subst hx; simp
  · simp [hx]

theorem slice_popRedis {s : Svc κ V} {task : RedisTask κ V} (hpop : s.redisTask.pop = (some task, s.redisTask.erase k))
    (x : κ) :
    s.popRedis.2.slice conf x = if x = k then { s.slice conf x with redisTask := none } else s.slice conf x := by
  unfold Svc.popRedis Svc.slice
  rw [hpop]
  by_cases hx : x = k
  · subst hx; simp
  · simp [hx]

theorem popDb_holds (hdb : conf.dbtype = .mongodb) (s : Svc κ V) (task : DbTask κ V) (hi : Keyed s)
    (ht : s.popDb.1 = some task) (hset : Settled conf redisUp task.key (s.slice conf task.key)) :
    Keyed s.popDb.2 ∧ (∀ x, x ≠ task.key → s.popDb.2.slice conf x = s.slice conf x) ∧
      Holds conf redisUp dbUp task.key (fun z => z = s.popDb.2.slice conf task.key)
        (do let _ ← runTask conf task; pure ()) (fun _ => Settled conf redisUp task.key)
        (Settled conf redisUp task.key) := by
  obtain ⟨k, hget, hpop⟩ := FilterList.pop_some ht
  obtain ⟨w, hcar⟩ := hi.db k task hget
  obtain rfl : task.key = k := hcar.1
  refine ⟨?_, fun x hx => (slice_popDb hpop x).trans (if_neg hx), ?_⟩
  · exact hi.of_db_erase (k := task.key) (fun x => by rw [hpop]; exact FilterList.get_erase _ _ _)
  · rw [(slice_popDb hpop task.key).trans (if_pos rfl)]
    exact Triple.bind (runTask_holds hdb hcar hset hget) (fun _ => Triple.pure (fun _ h => h))

theorem popRedis_holds (hdb : conf.dbtype = .mongodb) (s : Svc κ V) (task : RedisTask κ V) (hi : Keyed s)
    (ht : s.popRedis.1 = some task) (hset : Settled conf redisUp task.key (s.slice conf task.key)) :
    Keyed s.popRedis.2 ∧ (∀ x, x ≠ task.key → s.popRedis.2.slice conf x = s.slice conf x) ∧
      Holds conf redisUp dbUp task.key (fun z => z = s.popRedis.2.slice conf task.key) (replay conf task)
        (fun _ => Settled conf redisUp task.key) (Settled conf redisUp task.key) := by
  obtain ⟨k, hget, hpop⟩ := FilterList.pop_some ht
  obtain rfl : task.key = k := hi.redis k task hget
  obtain ⟨-, t, w, htask, hkid, hw, hl⟩ : redisUp = false ∧ Waits conf (s.slice conf task.key) := by
    rcases hset with h | h
    · cases h.noRedisTask.symm.trans hget
    · exact h
  obtain rfl : t = task := Option.some.inj (htask.symm.trans hget)
  refine ⟨?_, fun x hx => (slice_popRedis hpop x).trans (if_neg hx), ?_⟩
  · exact hi.of_redis_erase (k := t.key) (fun x => by rw [hpop]; exact FilterList.get_erase _ _ _)
  · rw [(slice_popRedis hpop t.key).trans (if_pos rfl)]
    exact Triple.weaken (replay_holds hdb rfl hkid hw) (fun z hz => hz ▸ ⟨rfl, hl⟩)

theorem tick_wp {c : Req κ V} {m : String} {n : Svc κ V → Nat} {loop : Svc κ V → Co κ V Unit}
    (hloop : ∀ s, Keyed s → Co.wp (spec conf redisUp) (may redisUp dbUp) (loop s) none (spec conf redisUp).final s)
    {s : Svc κ V} (hi : Keyed s) :
    Co.wp (spec conf redisUp) (may redisUp dbUp) (do
      let s ← get
      if 0 < n s then
        let alive ← (do
          let r ← ask c
          if r.isRaised then Prog.err m else pure r.truthy)
        if alive then
          let s ← get
          loop s
        else pure ()
      else pure ()) none (spec conf redisUp).final s := by
  refine ⟨fun _ _ => rfl, ?_⟩
  show Co.wp _ _ (if 0 < n s then _ else _) none _ s
  split
  · refine Co.wp_bind _ _ _ _ _ (Co.wp_bind _ _ _ _ _ ⟨hi, (fun x hx => by cases hx), fun r _ s' hi' _ => ?_⟩)
    show Co.wp _ _ (if r.isRaised = true then _ else _) none _ s'
    split
    · exact ⟨rfl, hi'⟩
    · show Co.wp _ _ (if r.truthy = true then _ else _) none _ s'
      split
      · exact ⟨fun _ _ => rfl, hloop s' hi'⟩
      · exact ⟨rfl, hi'⟩
  · exact ⟨rfl, hi⟩

end Functions

end Store
end Sncpp
