import Sncpp.Steps
/-!
# QueueIndex — the indexes of the march queues (`queueCellMgr`, `queueCell`)

A queue stands in an index for each attribute of `queueConf.queueIndexKey`, under the value the attribute has and
under the queue's own id.  `createQueue` enters it and `remove` takes it out, each by the attributes of the moment; in
between `onUpdateQueue` calls `updateIndex` without a key, which returns at once.
-/
namespace Sncpp
namespace QueueIndex

inductive Val where
  | num (n : Int)
  | str (s : String)
deriving DecidableEq

inductive Key where
  | id | uid | aid | toId | toUid | queueType
deriving DecidableEq

def Key.queueIndexKey : List Key := [.id, .uid, .aid, .toId, .toUid, .queueType]

/-- Two types of `queueConf.queueType`: the one that has a class, and that of the way home. -/
def killNpc : Val := .num 2

def backHome : Val := .num 7

structure Data where
  attr : Key → Option Val
  statusEndTime : Option Int

/-- A `queueCell`; `reset` takes both away. -/
structure Cell where
  id : Option Val
  data : Option Data

/-- Cells are known by their place in `heap`. -/
structure World where
  heap : List Cell
  indexRef : Key → Val → Val → Option Nat
  recyclePool : Val → List Nat
  timersMap : Val → Option Int
  db : Val → Option Data

inductive Event where
  | createQueue (data : Data) (nextid : String)
  | setAttr (queue : Nat) (key : Key) (v : Option Val)
  | changeQueueType (queue : Nat) (queueType toId : Val)
  | trans2ReturnQueue (queue : Nat) (toId : Val)
  | removeQueue (queue : Nat)

namespace World

variable (defined : Bool) (w : World)

def getId (queue : Nat) : Option Val := w.heap[queue]?.bind Cell.id

def data (queue : Nat) : Option Data := w.heap[queue]?.bind Cell.data

def getAttr (queue : Nat) (key : Key) : Option Val := (w.data queue).bind (fun data => data.attr key)

/-- `updateIndexSingle`: without a value or an id it only complains. -/
def updateIndexSingle (key : Key) (colValue id : Option Val) (queue : Option Nat) : World :=
  match colValue, id with
  | some v, some id =>
    { w with indexRef := fun k u i => if k = key ∧ u = v ∧ i = id then queue else w.indexRef k u i }
  | _, _ => w

def addIndex (queue : Nat) : World :=
  Key.queueIndexKey.foldl (fun w key => w.updateIndexSingle key (w.getAttr queue key) (w.getId queue) (some queue)) w

def removeIndex (queue : Nat) : World :=
  Key.queueIndexKey.foldl (fun w key => w.updateIndexSingle key (w.getAttr queue key) (w.getId queue) none) w

def updateIndex (queue : Nat) (indexKey : Option Key) (oldValue newValue : Option Val) : World :=
  match indexKey with
  | some key =>
    if oldValue = newValue then w
    else
      (w.updateIndexSingle key oldValue (w.getId queue) none).updateIndexSingle key newValue (w.getId queue) (some queue)
  | none => w

/-- `queueCenter:onUpdateQueue`, as far as it goes to the indexes: it calls `updateIndex` with the queue alone. -/
def onUpdateQueue (queue : Nat) : World := w.updateIndex queue none none none

def addObjTimer (queue : Nat) : World :=
  match w.getId queue, (w.data queue).bind Data.statusEndTime with
  | some id, some endTime =>
    if 0 < endTime then { w with timersMap := Function.update w.timersMap id (some endTime) } else w
  | _, _ => w

def removeObjTimer (qid : Option Val) : World :=
  match qid with
  | some id => { w with timersMap := Function.update w.timersMap id none }
  | none => w

def updateDB (queue : Nat) : World :=
  match w.getId queue with
  | some id => { w with db := Function.update w.db id (w.data queue) }
  | none => w

def deleteDB (queue : Nat) : World :=
  match w.getId queue with
  | some id => { w with db := Function.update w.db id none, heap := w.heap.set queue ⟨none, none⟩ }
  | none => w

/-- `pushRecyclePool` of a cell without data is an error. -/
def pushRecyclePool (queue : Nat) : World :=
  match w.getAttr queue .queueType with
  | some queueType =>
    if (w.recyclePool queueType).length < 100 then
      { w with recyclePool := Function.update w.recyclePool queueType (w.recyclePool queueType ++ [queue]) }
    else w
  | none => w

/-- `query` by an id: an entry under the key `id` is made with the queue's own id. -/
def query (id : Option Val) : Option Nat := id.bind (fun id => w.indexRef .id id id)

/-- `init` of a cell with `data`, and what `addQueue` and `createQueue` do of it. -/
def addQueue (queue : Nat) (data : Data) : World :=
  let w := { w with heap := w.heap.set queue ⟨w.getId queue, some data⟩ }
  ((w.addIndex queue).addObjTimer queue).updateDB queue

/-- `createQueue`: of the types only `killNpc` has a class. -/
def createQueue (data : Data) (nextid : String) : World :=
  match data.attr .queueType, data.attr .uid with
  | some queueType, some _ =>
    let id := (data.attr .id).getD (.str nextid)
    let data := { data with attr := Function.update data.attr .id (some id) }
    match w.recyclePool queueType with
    | queue :: pool => { w with recyclePool := Function.update w.recyclePool queueType pool }.addQueue queue data
    | [] =>
      if queueType = killNpc then { w with heap := w.heap ++ [Cell.mk (some id) none] }.addQueue w.heap.length data else w
  | _, _ => w

def set (queue : Nat) (key : Key) (v : Option Val) : World :=
  match w.heap[queue]? with
  | some ⟨id, some data⟩ =>
    { w with heap := w.heap.set queue ⟨id, some { data with attr := Function.update data.attr key v }⟩ }
  | _ => w

/-- `trans2ReturnQueue` calls methods of `queueCell` (`setSqKey`, `getToId`, `isMoving`) of which the class has none; the
attributes it sets before the first are not indexed.  `defined` says that it has them. -/
def trans2ReturnQueue (queue : Nat) (toId : Val) : World :=
  if defined then (w.set queue .toId (some toId)).set queue .toUid none else w

/-- `changeQueueType` calls `getQueueType` first, which the class has not either. -/
def changeQueueType (queue : Nat) (queueType toId : Val) : World :=
  if defined then
    if w.getAttr queue .queueType = some queueType then w
    else
      let w := w.set queue .queueType (some queueType)
      (if queueType = backHome then w.trans2ReturnQueue defined queue toId else w).onUpdateQueue queue
  else w

def remove (id : Option Val) : World :=
  match w.query id with
  | some queue => (((w.removeIndex queue).removeObjTimer id).deleteDB queue).pushRecyclePool queue
  | none => w

def removeQueue (queue : Nat) : World := (w.removeObjTimer (w.getId queue)).remove (w.getId queue)

def step (e : Event) : World :=
  match e with
  | .createQueue data nextid => w.createQueue data nextid
  | .setAttr queue key v => (w.set queue key v).onUpdateQueue queue
  | .changeQueueType queue queueType toId => w.changeQueueType defined queue queueType toId
  | .trans2ReturnQueue queue toId => w.trans2ReturnQueue defined queue toId
  | .removeQueue queue => w.removeQueue queue

/-- **The indexes are exact**: under a value of a key stand the queues that have it, each under its own id; a queue that is
removed stands nowhere; one that is built, of a new cell or of one that was removed, stands in the index, with its timer and
in the database under the id in its data. -/
structure Right (e : Event) : Prop where
  exact : ∀ key v id queue, (w.step defined e).indexRef key v id = some queue ↔
    ∃ data, (w.step defined e).heap[queue]? = some ⟨some id, some data⟩ ∧ data.attr key = some v
  removed : ∀ queue, e = .removeQueue queue → ∀ key v id, (w.step defined e).indexRef key v id ≠ some queue
  built : ∀ (queue : Nat) x data, (w.step defined e).heap[queue]? = some ⟨x, some data⟩ → w.data queue = none →
    ∃ id, data.attr .id = some id ∧ (w.step defined e).indexRef .id id id = some queue ∧
      (∀ endTime, data.statusEndTime = some endTime → 0 < endTime →
        (w.step defined e).timersMap id = some endTime) ∧ (w.step defined e).db id = some data

/-- A new queue has an id under which there is none, and an indexed attribute gets the value it has. -/
def Kept : Event → Prop
  | .createQueue data nextid =>
    w.indexRef .id ((data.attr .id).getD (.str nextid)) ((data.attr .id).getD (.str nextid)) = none
  | .setAttr queue key v => (w.data queue).isSome → w.getAttr queue key = v
  | .changeQueueType queue queueType _ =>
    defined = true → (w.data queue).isSome → w.getAttr queue .queueType = some queueType
  | .trans2ReturnQueue queue toId => defined = true → (w.data queue).isSome →
      w.getAttr queue .toId = some toId ∧ w.getAttr queue .toUid = none
  | .removeQueue _ => True

instance : ∀ e : Event, Decidable (w.Kept defined e)
  | .createQueue data nextid => inferInstanceAs (Decidable
      (w.indexRef .id ((data.attr .id).getD (.str nextid)) ((data.attr .id).getD (.str nextid)) = none))
  | .setAttr queue key v => inferInstanceAs (Decidable ((w.data queue).isSome → w.getAttr queue key = v))
  | .changeQueueType queue queueType _ => inferInstanceAs (Decidable (defined = true → (w.data queue).isSome →
      w.getAttr queue .queueType = some queueType))
  | .trans2ReturnQueue queue toId => inferInstanceAs (Decidable (defined = true → (w.data queue).isSome →
      w.getAttr queue .toId = some toId ∧ w.getAttr queue .toUid = none))
  | .removeQueue _ => isTrue trivial

def start : World := ⟨[], fun _ _ _ => none, fun _ => [], fun _ => none, fun _ => none⟩

structure Good : Prop where
  pool : ∀ queueType, w.recyclePool queueType = []
  exact : ∀ key v id queue, w.indexRef key v id = some queue ↔
    ∃ data, w.heap[queue]? = some ⟨some id, some data⟩ ∧ data.attr key = some v
  id : ∀ (queue : Nat) x data, w.heap[queue]? = some ⟨x, some data⟩ → x ≠ none ∧ data.attr .id = x
  reset : ∀ (queue : Nat) x, w.heap[queue]? = some ⟨x, none⟩ → x = none

variable {w}

theorem mem_queueIndexKey (key : Key) : key ∈ Key.queueIndexKey := by cases key <;> decide

theorem nodup_queueIndexKey : Key.queueIndexKey.Nodup := by decide

theorem getAttr_congr (queue : Nat) {w w' : World} (h : w'.heap = w.heap) (key : Key) :
    w'.getAttr queue key = w.getAttr queue key :=
  congrArg (fun heap : List Cell => (heap[queue]?.bind Cell.data).bind (fun data => data.attr key)) h

theorem getId_congr (queue : Nat) {w w' : World} (h : w'.heap = w.heap) : w'.getId queue = w.getId queue :=
  congrArg (fun heap : List Cell => heap[queue]?.bind Cell.id) h

theorem foldl_updateIndexSingle (queue : Nat) (v : Option Nat) : ∀ (keys : List Key) (w : World), keys.Nodup →
    let w' := keys.foldl (fun w key => w.updateIndexSingle key (w.getAttr queue key) (w.getId queue) v) w
    w'.heap = w.heap ∧ w'.recyclePool = w.recyclePool ∧ w'.timersMap = w.timersMap ∧ w'.db = w.db ∧
      ∀ key u id, w'.indexRef key u id =
        if key ∈ keys ∧ w.getAttr queue key = some u ∧ w.getId queue = some id then v else w.indexRef key u id
  | [], w, _ => ⟨rfl, rfl, rfl, rfl, fun _ _ _ => by simp⟩
  | k :: keys, w, h => by
    obtain ⟨hnot, hnodup⟩ := List.nodup_cons.1 h
    have hstep : ∀ colValue id, (w.updateIndexSingle k colValue id v).heap = w.heap ∧
        (w.updateIndexSingle k colValue id v).recyclePool = w.recyclePool ∧
        (w.updateIndexSingle k colValue id v).timersMap = w.timersMap ∧
        (w.updateIndexSingle k colValue id v).db = w.db ∧
        ∀ key u i, (w.updateIndexSingle k colValue id v).indexRef key u i =
          if key = k ∧ colValue = some u ∧ id = some i then v else w.indexRef key u i := by
      intro colValue id
      unfold updateIndexSingle
      cases colValue <;> cases id <;> simp [eq_comm]
    obtain ⟨hheap, hpool, htimers, hdb, hindex⟩ := hstep (w.getAttr queue k) (w.getId queue)
    obtain ⟨hheap', hpool', htimers', hdb', hindex'⟩ := foldl_updateIndexSingle queue v keys
      (w.updateIndexSingle k (w.getAttr queue k) (w.getId queue) v) hnodup
    have hattr := getAttr_congr queue hheap
    have hid := getId_congr queue hheap
    refine ⟨hheap'.trans hheap, hpool'.trans hpool, htimers'.trans htimers, hdb'.trans hdb, fun key u id => ?_⟩
    rw [List.foldl_cons, hindex', hindex, hattr, hid]
    by_cases hk : key = k
    · subst hk
      simp [hnot]
    · simp [hk]

theorem addIndex_spec (w : World) (queue : Nat) : (w.addIndex queue).heap = w.heap ∧
    (w.addIndex queue).recyclePool = w.recyclePool ∧ (w.addIndex queue).timersMap = w.timersMap ∧
    ∀ key v id, (w.addIndex queue).indexRef key v id =
      if w.getAttr queue key = some v ∧ w.getId queue = some id then some queue else w.indexRef key v id := by
  obtain ⟨hheap, hpool, htimers, -, hindex⟩ := foldl_updateIndexSingle queue (some queue) _ w nodup_queueIndexKey
  refine ⟨hheap, hpool, htimers, fun key v id => (hindex key v id).trans ?_⟩
  simp only [mem_queueIndexKey, true_and]

theorem removeIndex_spec (w : World) (queue : Nat) : (w.removeIndex queue).heap = w.heap ∧
    (w.removeIndex queue).recyclePool = w.recyclePool ∧
    ∀ key v id, (w.removeIndex queue).indexRef key v id =
      if w.getAttr queue key = some v ∧ w.getId queue = some id then none else w.indexRef key v id := by
  obtain ⟨hheap, hpool, -, -, hindex⟩ := foldl_updateIndexSingle queue none _ w nodup_queueIndexKey
  refine ⟨hheap, hpool, fun key v id => (hindex key v id).trans ?_⟩
  simp only [mem_queueIndexKey, true_and]

/-! ## A queue that is built and one that is removed -/

theorem addObjTimer_spec (w : World) (queue : Nat) : (w.addObjTimer queue).heap = w.heap ∧
    (w.addObjTimer queue).recyclePool = w.recyclePool ∧ (w.addObjTimer queue).indexRef = w.indexRef := by
  unfold addObjTimer
  split
  · split <;> exact ⟨rfl, rfl, rfl⟩
  · exact ⟨rfl, rfl, rfl⟩

theorem addQueue_spec (w : World) {queue : Nat} {id : Val} (hid : w.getId queue = some id) (data : Data) :
    (∀ q, (w.addQueue queue data).heap[q]? = if q = queue then some ⟨some id, some data⟩ else w.heap[q]?) ∧
      (w.addQueue queue data).recyclePool = w.recyclePool ∧
      (∀ key v i, (w.addQueue queue data).indexRef key v i =
        if data.attr key = some v ∧ id = i then some queue else w.indexRef key v i) ∧
      (∀ endTime, data.statusEndTime = some endTime → 0 < endTime →
        (w.addQueue queue data).timersMap id = some endTime) ∧ (w.addQueue queue data).db id = some data := by
  let w₁ : World := { w with heap := w.heap.set queue ⟨w.getId queue, some data⟩ }
  have hlt : queue < w.heap.length := by
    unfold getId at hid
    obtain ⟨cell, hcell, -⟩ := Option.bind_eq_some_iff.1 hid
    exact (List.getElem?_eq_some_iff.1 hcell).1
  have hself : w₁.heap[queue]? = some ⟨some id, some data⟩ := by
    rw [← hid]
    exact List.getElem?_set_self hlt
  have hheap : ∀ q, w₁.heap[q]? = if q = queue then some ⟨some id, some data⟩ else w.heap[q]? := by
    intro q
    by_cases hq : q = queue
    · subst hq
      rw [if_pos rfl]
      exact hself
    · rw [if_neg hq]
      exact List.getElem?_set_ne (Ne.symm hq)
  obtain ⟨hheap₂, hpool₂, htimers₂, hindex₂⟩ := addIndex_spec w₁ queue
  obtain ⟨hheap₃, hpool₃, hindex₃⟩ := addObjTimer_spec (w₁.addIndex queue) queue
  have hid₁ : w₁.getId queue = some id := congrArg (Option.bind · Cell.id) hself
  have hid₂ : (w₁.addIndex queue).getId queue = some id := (getId_congr queue hheap₂).trans hid₁
  have hid₃ : ((w₁.addIndex queue).addObjTimer queue).getId queue = some id := (getId_congr queue hheap₃).trans hid₂
  have hdata₂ : (w₁.addIndex queue).data queue = some data := by
    unfold World.data
    rw [hheap₂, hself]
    rfl
  have hdata₃ : ((w₁.addIndex queue).addObjTimer queue).data queue = some data := by
    unfold World.data
    rw [hheap₃, hheap₂, hself]
    rfl
  have hattr : ∀ key, w₁.getAttr queue key = data.attr key := fun key => by
    unfold getAttr World.data
    rw [hself]
    rfl
  have hw : w.addQueue queue data = { (w₁.addIndex queue).addObjTimer queue with
      db := Function.update ((w₁.addIndex queue).addObjTimer queue).db id (some data) } := by
    show ((w₁.addIndex queue).addObjTimer queue).updateDB queue = _
    unfold updateDB
    rw [hid₃, hdata₃]
  rw [hw]
  refine ⟨fun q => ?_, hpool₃.trans hpool₂, fun key v i => ?_, fun endTime hend hpos => ?_, Function.update_self ..⟩
  · simp only
    rw [hheap₃, hheap₂]
    exact hheap q
  · simp only
    rw [hindex₃, hindex₂, hattr, hid₁]
    simp only [Option.some.injEq]
    rfl
  · simp only
    unfold addObjTimer
    rw [hid₂, hdata₂]
    simp only [Option.bind_some, hend, if_pos hpos]
    exact Function.update_self ..

theorem Good.eq_of_id (h : w.Good) {queue queue' : Nat} {id : Val} {data data' : Data}
    (hq : w.heap[queue]? = some ⟨some id, some data⟩) (hq' : w.heap[queue']? = some ⟨some id, some data'⟩) :
    queue = queue' := by
  have hentry := (h.exact .id id id queue).2 ⟨data, hq, (h.id queue _ data hq).2⟩
  have hentry' := (h.exact .id id id queue').2 ⟨data', hq', (h.id queue' _ data' hq').2⟩
  exact Option.some.inj (hentry.symm.trans hentry')

theorem Good.createQueue_cases (h : w.Good) (data : Data) (nextid : String) :
    w.createQueue data nextid = w ∨ ∃ id data', id = (data.attr .id).getD (.str nextid) ∧ data'.attr .id = some id ∧
      w.createQueue data nextid = { w with heap := w.heap ++ [Cell.mk (some id) none] }.addQueue w.heap.length data' := by
  unfold createQueue
  split
  · rename_i queueType uid htype huid
    simp only [h.pool queueType]
    split
    · exact .inr ⟨_, _, rfl, by simp only [Function.update_self], rfl⟩
    · exact .inl rfl
  · exact .inl rfl

theorem getElem?_new (w : World) (cell : Cell) (q : Nat) : (w.heap ++ [cell])[q]? =
    if q = w.heap.length then some cell else w.heap[q]? := by
  by_cases hq : q = w.heap.length
  · rw [if_pos hq, hq]
    exact List.getElem?_concat_length ..
  · rw [if_neg hq]
    by_cases hlt : q < w.heap.length
    · exact List.getElem?_append_left hlt
    · have hlen : (w.heap ++ [cell]).length ≤ q := by
        rw [List.length_append, List.length_singleton]
        omega
      rw [List.getElem?_eq_none hlen, List.getElem?_eq_none (Nat.not_lt.1 hlt)]

/-- **A queue that is built stands in the indexes, with its timer and in the database.** -/
theorem Good.createQueue (h : w.Good) {data : Data} {nextid : String} (hkept : w.indexRef .id
    ((data.attr .id).getD (.str nextid)) ((data.attr .id).getD (.str nextid)) = none) :
    (w.createQueue data nextid).Good ∧ ∀ (queue : Nat) x d, (w.createQueue data nextid).heap[queue]? = some ⟨x, some d⟩ →
      w.data queue = none → ∃ id, d.attr .id = some id ∧ (w.createQueue data nextid).indexRef .id id id = some queue ∧
        (∀ endTime, d.statusEndTime = some endTime → 0 < endTime →
          (w.createQueue data nextid).timersMap id = some endTime) ∧ (w.createQueue data nextid).db id = some d := by
  rcases h.createQueue_cases data nextid with heq | ⟨id, data', rfl, hid, heq⟩
  · rw [heq]
    refine ⟨h, fun queue x d hq hnone => ?_⟩
    unfold World.data at hnone
    rw [hq] at hnone
    cases hnone
  · generalize (data.attr .id).getD (.str nextid) = id at hkept hid heq
    have hnew : ({ w with heap := w.heap ++ [Cell.mk (some id) none] } : World).getId w.heap.length = some id := by
      unfold getId
      rw [getElem?_new, if_pos rfl]
      rfl
    obtain ⟨hheap, hpool, hindex, htimers, hdb⟩ := addQueue_spec _ hnew data'
    rw [← heq] at hheap hpool hindex htimers hdb
    have hheap' : ∀ q, (w.createQueue data nextid).heap[q]? =
        if q = w.heap.length then some ⟨some id, some data'⟩ else w.heap[q]? := by
      intro q
      rw [hheap q]
      by_cases hq : q = w.heap.length
      · rw [if_pos hq, if_pos hq]
      · rw [if_neg hq, if_neg hq]
        exact (getElem?_new w _ q).trans (if_neg hq)
    have hnot : w.heap[w.heap.length]? = none := List.getElem?_eq_none (Nat.le_refl _)
    have hpools : ∀ t, (w.createQueue data nextid).recyclePool t = [] := fun t => (congrFun hpool t).trans (h.pool t)
    refine ⟨⟨hpools, fun key v i queue => ?_, fun queue x d hq => ?_, fun queue x hq => ?_⟩,
      fun queue x d hq hnone => ?_⟩
    · rw [hindex, hheap']
      simp only
      by_cases hq : queue = w.heap.length
      · subst hq
        rw [if_pos rfl]
        constructor
        · intro hentry
          by_cases hcond : data'.attr key = some v ∧ id = i
          · exact ⟨data', by rw [hcond.2], hcond.1⟩
          · rw [if_neg hcond] at hentry
            obtain ⟨d, hd, -⟩ := (h.exact key v i _).1 hentry
            rw [hnot] at hd
            cases hd
        · rintro ⟨d, hd, hattr⟩
          obtain ⟨rfl, rfl⟩ : id = i ∧ data' = d := by
            simpa only [Option.some.injEq, Cell.mk.injEq] using hd
          exact if_pos ⟨hattr, rfl⟩
      · rw [if_neg hq, ← h.exact key v i queue]
        by_cases hcond : data'.attr key = some v ∧ id = i
        · rw [if_pos hcond]
          refine ⟨fun heq => absurd (Option.some.inj heq).symm hq, fun hentry => ?_⟩
          obtain ⟨d, hd, -⟩ := (h.exact key v i queue).1 hentry
          have hother := (h.exact .id i i queue).2 ⟨d, hd, (h.id queue _ d hd).2⟩
          rw [← hcond.2, hkept] at hother
          cases hother
        · rw [if_neg hcond]
    · rw [hheap'] at hq
      split at hq
      · obtain ⟨rfl, rfl⟩ : some id = x ∧ data' = d := by simpa only [Option.some.injEq, Cell.mk.injEq] using hq
        exact ⟨nofun, hid⟩
      · exact h.id queue x d hq
    · rw [hheap'] at hq
      split at hq
      · cases hq
      · exact h.reset queue x hq
    · rw [hheap'] at hq
      split at hq
      · rename_i hlast
        obtain ⟨rfl, rfl⟩ : some id = x ∧ data' = d := by simpa only [Option.some.injEq, Cell.mk.injEq] using hq
        exact ⟨id, hid, by rw [hindex, if_pos ⟨hid, rfl⟩, hlast], htimers, hdb⟩
      · unfold World.data at hnone
        rw [hq] at hnone
        cases hnone

theorem removeObjTimer_heap (w : World) (qid : Option Val) : (w.removeObjTimer qid).heap = w.heap := by
  cases qid <;> rfl

theorem removeObjTimer_recyclePool (w : World) (qid : Option Val) : (w.removeObjTimer qid).recyclePool = w.recyclePool := by
  cases qid <;> rfl

theorem removeObjTimer_indexRef (w : World) (qid : Option Val) : (w.removeObjTimer qid).indexRef = w.indexRef := by
  cases qid <;> rfl

theorem Good.removeQueue_live (h : w.Good) {queue : Nat} {id : Val} {data : Data}
    (hq : w.heap[queue]? = some ⟨some id, some data⟩) :
    (w.removeQueue queue).heap = w.heap.set queue ⟨none, none⟩ ∧ (w.removeQueue queue).recyclePool = w.recyclePool ∧
      ∀ key v i, (w.removeQueue queue).indexRef key v i =
        if data.attr key = some v ∧ id = i then none else w.indexRef key v i := by
  have hid : w.getId queue = some id := congrArg (Option.bind · Cell.id) hq
  have hquery : (w.removeObjTimer (some id)).query (some id) = some queue :=
    (h.exact .id id id queue).2 ⟨data, hq, (h.id queue _ data hq).2⟩
  have hw : w.removeQueue queue = ((((w.removeObjTimer (some id)).removeIndex queue).removeObjTimer (some id)).deleteDB
      queue).pushRecyclePool queue := by
    unfold removeQueue remove
    rw [hid]
    show (match (w.removeObjTimer (some id)).query (some id) with
      | some queue => ((((w.removeObjTimer (some id)).removeIndex queue).removeObjTimer (some id)).deleteDB
          queue).pushRecyclePool queue
      | none => w.removeObjTimer (some id)) = _
    rw [hquery]
  -- the queue is out of the index, and its data are as before
  obtain ⟨hheap₂, hpool₂, hindex₂⟩ := removeIndex_spec (w.removeObjTimer (some id)) queue
  have hheap₃ : (((w.removeObjTimer (some id)).removeIndex queue).removeObjTimer (some id)).heap = w.heap := by
    rw [removeObjTimer_heap, hheap₂, removeObjTimer_heap]
  have hpool₃ : (((w.removeObjTimer (some id)).removeIndex queue).removeObjTimer (some id)).recyclePool = w.recyclePool := by
    rw [removeObjTimer_recyclePool, hpool₂, removeObjTimer_recyclePool]
  have hindex₃ : ∀ key v i, (((w.removeObjTimer (some id)).removeIndex queue).removeObjTimer (some id)).indexRef key v i =
      if data.attr key = some v ∧ id = i then none else w.indexRef key v i := by
    intro key v i
    have hattr : (w.removeObjTimer (some id)).getAttr queue key = data.attr key := by
      show (w.heap[queue]?.bind Cell.data).bind (fun data => data.attr key) = _
      rw [hq]
      rfl
    have hid₁ : (w.removeObjTimer (some id)).getId queue = some id := hid
    rw [removeObjTimer_indexRef, hindex₂, hattr, hid₁, removeObjTimer_indexRef]
    simp only [Option.some.injEq]
  generalize ((w.removeObjTimer (some id)).removeIndex queue).removeObjTimer (some id) = w₃ at hw hheap₃ hpool₃ hindex₃
  have hid₃ : w₃.getId queue = some id := (getId_congr queue hheap₃).trans hid
  have hdelete : w₃.deleteDB queue =
    { w₃ with db := Function.update w₃.db id none, heap := w₃.heap.set queue ⟨none, none⟩ } := by
    unfold deleteDB
    rw [hid₃]
  -- the cell has no type any more
  have hpush : (w₃.deleteDB queue).pushRecyclePool queue = w₃.deleteDB queue := by
    have hnone : (w₃.deleteDB queue).getAttr queue .queueType = none := by
      unfold getAttr World.data
      rw [hdelete]
      simp only
      rw [hheap₃, List.getElem?_set_self (List.getElem?_eq_some_iff.1 hq).1]
      rfl
    unfold pushRecyclePool
    rw [hnone]
  rw [hw, hpush, hdelete]
  exact ⟨congrArg (fun heap => heap.set queue ⟨none, none⟩) hheap₃, hpool₃, hindex₃⟩

theorem Good.removeQueue_none (h : w.Good) {queue : Nat} (hnone : w.data queue = none) : w.removeQueue queue = w := by
  have hid : w.getId queue = none := by
    unfold getId
    unfold World.data at hnone
    cases hq : w.heap[queue]? with
    | none => rfl
    | some cell =>
      rw [hq] at hnone
      obtain ⟨x, d⟩ := cell
      obtain rfl : d = none := hnone
      exact h.reset queue x hq
  unfold removeQueue
  rw [hid]
  rfl

theorem Good.removeQueue (h : w.Good) (queue : Nat) : (w.removeQueue queue).Good ∧
    (∀ (q : Nat) x d, (w.removeQueue queue).heap[q]? = some ⟨x, some d⟩ → w.heap[q]? = some ⟨x, some d⟩) ∧
      ∀ key v id, (w.removeQueue queue).indexRef key v id ≠ some queue := by
  cases hdata : w.data queue with
  | none =>
    rw [h.removeQueue_none hdata]
    refine ⟨h, fun _ _ _ hq => hq, fun key v id hentry => ?_⟩
    obtain ⟨d, hd, -⟩ := (h.exact key v id queue).1 hentry
    unfold World.data at hdata
    rw [hd] at hdata
    cases hdata
  | some data =>
    obtain ⟨⟨x, d⟩, hq, hd⟩ := Option.bind_eq_some_iff.1 hdata
    obtain rfl : d = some data := hd
    obtain ⟨id, rfl⟩ := Option.ne_none_iff_exists'.1 (h.id queue x data hq).1
    obtain ⟨hheap, hpool, hindex⟩ := h.removeQueue_live hq
    have hself : (w.removeQueue queue).heap[queue]? = some ⟨none, none⟩ := by
      rw [hheap]
      exact List.getElem?_set_self (List.getElem?_eq_some_iff.1 hq).1
    have hother : ∀ q, q ≠ queue → (w.removeQueue queue).heap[q]? = w.heap[q]? := fun q hne => by
      rw [hheap]
      exact List.getElem?_set_ne hne.symm
    have hlive : ∀ (q : Nat) x d, (w.removeQueue queue).heap[q]? = some ⟨x, some d⟩ →
        q ≠ queue ∧ w.heap[q]? = some ⟨x, some d⟩ := by
      intro q x d hq'
      have hne : q ≠ queue := fun heq => by
        rw [heq, hself] at hq'
        cases hq'
      exact ⟨hne, (hother q hne) ▸ hq'⟩
    have hpools : ∀ t, (w.removeQueue queue).recyclePool t = [] := fun t => (congrFun hpool t).trans (h.pool t)
    refine ⟨⟨hpools, fun key v i q => ?_, fun q x d hq' => h.id q x d (hlive q x d hq').2, fun q x hq' => ?_⟩,
      fun q x d hq' => (hlive q x d hq').2, fun key v i hentry => ?_⟩
    · rw [hindex]
      constructor
      · intro hentry
        split at hentry
        · cases hentry
        · rename_i hcond
          obtain ⟨d, hd, hattr⟩ := (h.exact key v i q).1 hentry
          refine ⟨d, ?_, hattr⟩
          rw [hother q]
          · exact hd
          · rintro rfl
            obtain ⟨rfl, rfl⟩ : id = i ∧ data = d := by
              simpa only [Option.some.injEq, Cell.mk.injEq] using hq.symm.trans hd
            exact hcond ⟨hattr, rfl⟩
      · rintro ⟨d, hd, hattr⟩
        obtain ⟨hne, hd⟩ := hlive q _ d hd
        rw [if_neg]
        · exact (h.exact key v i q).2 ⟨d, hd, hattr⟩
        · rintro ⟨-, rfl⟩
          exact hne (h.eq_of_id hd hq)
    · by_cases hne : q = queue
      · rw [hne, hself] at hq'
        obtain rfl : none = x := by simpa only [Option.some.injEq, Cell.mk.injEq, and_true] using hq'
        rfl
      · exact h.reset q x ((hother q hne) ▸ hq')
    · rw [hindex] at hentry
      split at hentry
      · cases hentry
      · rename_i hcond
        obtain ⟨d, hd, hattr⟩ := (h.exact key v i queue).1 hentry
        obtain ⟨rfl, rfl⟩ : id = i ∧ data = d := by
          simpa only [Option.some.injEq, Cell.mk.injEq] using hq.symm.trans hd
        exact hcond ⟨hattr, rfl⟩

theorem set_eq_self {queue : Nat} {key : Key} {v : Option Val} (h : (w.data queue).isSome → w.getAttr queue key = v) :
    w.set queue key v = w := by
  unfold World.set
  split
  · rename_i id data hq
    have hattr : data.attr key = v := by
      have hv := h (by unfold World.data; rw [hq]; rfl)
      unfold getAttr World.data at hv
      rw [hq] at hv
      exact hv
    rw [← hattr, Function.update_eq_self]
    obtain ⟨hlt, hget⟩ := List.getElem?_eq_some_iff.1 hq
    have hset : w.heap.set queue ⟨id, some data⟩ = w.heap := by
      rw [← hget]
      exact List.set_getElem_self hlt
    rw [show (⟨data.attr, data.statusEndTime⟩ : Data) = data from rfl, hset]
  · rfl

theorem trans2ReturnQueue_eq_self {defined : Bool} {queue : Nat} {toId : Val}
    (h : w.Kept defined (.trans2ReturnQueue queue toId)) :
    w.trans2ReturnQueue defined queue toId = w := by
  unfold trans2ReturnQueue
  split
  · rename_i hdefined
    rw [set_eq_self (fun hq => (h hdefined hq).1), set_eq_self (fun hq => (h hdefined hq).2)]
  · rfl

theorem changeQueueType_eq_self {defined : Bool} {queue : Nat} {queueType toId : Val}
    (h : w.Kept defined (.changeQueueType queue queueType toId)) : w.changeQueueType defined queue queueType toId = w := by
  unfold changeQueueType
  split
  · rename_i hdefined
    split
    · rfl
    · rename_i hne
      -- then the queue is not there
      have hdead : ¬(w.data queue).isSome := fun hq => hne (h hdefined hq)
      have htrans : w.trans2ReturnQueue defined queue toId = w :=
        trans2ReturnQueue_eq_self (fun _ hq => absurd hq hdead)
      simp only [set_eq_self (fun hq => absurd hq hdead), htrans, ite_self]
      rfl
  · rfl

theorem Good.step (h : w.Good) {defined : Bool} {e : Event} (hkept : w.Kept defined e) : (w.step defined e).Good := by
  cases e with
  | createQueue data nextid => exact (h.createQueue hkept).1
  | setAttr queue key v =>
    have heq : w.step defined (.setAttr queue key v) = w := set_eq_self hkept
    rwa [heq]
  | changeQueueType queue queueType toId =>
    have heq : w.step defined (.changeQueueType queue queueType toId) = w := changeQueueType_eq_self hkept
    rwa [heq]
  | trans2ReturnQueue queue toId =>
    have heq : w.step defined (.trans2ReturnQueue queue toId) = w := trans2ReturnQueue_eq_self hkept
    rwa [heq]
  | removeQueue queue => exact (h.removeQueue queue).1

theorem Good.right (h : w.Good) {defined : Bool} {e : Event} (hkept : w.Kept defined e) : w.Right defined e where
  exact := (h.step hkept).exact
  removed queue he := by
    subst he
    exact (h.removeQueue queue).2.2
  built queue x d hq hnone := by
    have hno : w.heap[queue]? ≠ some ⟨x, some d⟩ := fun heq => by
      unfold World.data at hnone
      rw [heq] at hnone
      cases hnone
    cases e with
    | createQueue data nextid => exact (h.createQueue hkept).2 queue x d hq hnone
    | setAttr q key v =>
      have heq : w.step defined (.setAttr q key v) = w := set_eq_self hkept
      rw [heq] at hq
      exact absurd hq hno
    | changeQueueType q queueType toId =>
      have heq : w.step defined (.changeQueueType q queueType toId) = w := changeQueueType_eq_self hkept
      rw [heq] at hq
      exact absurd hq hno
    | trans2ReturnQueue q toId =>
      have heq : w.step defined (.trans2ReturnQueue q toId) = w := trans2ReturnQueue_eq_self hkept
      rw [heq] at hq
      exact absurd hq hno
    | removeQueue q => exact absurd ((h.removeQueue q).2.1 queue x d hq) hno

theorem good_start : start.Good where
  pool _ := rfl
  exact key v id queue := by simp [start]
  id queue x d hq := by cases hq
  reset queue x hq := by cases hq

/-- **The indexes are exact, in every run that gives no indexed attribute a new value**, whether `queueCell` has the methods
that `changeQueueType` calls on it or not. -/
theorem queueIndex_of_run (defined : Bool) (es : List Event) (h : Steps.Along (step defined) (Kept defined) start es) :
    Steps.Along (step defined) (Right defined) start es :=
  Steps.Along.keep (I := Good) (fun _ _ hkept hgood => ⟨hgood.step hkept, hgood.right hkept⟩) es _ good_start h

def march (uid toId : Int) : Data :=
  ⟨fun key => match key with
    | .uid => some (.num uid)
    | .toId => some (.num toId)
    | .queueType => some killNpc
    | _ => none, some 60⟩

theorem index_marches :
    let es : List Event := [.createQueue (march 7 100) "1", .createQueue (march 7 200) "2",
      .setAttr 1 .toId (some (.num 200)),
      .removeQueue 0, .removeQueue 0, .createQueue (march 8 100) "3", .changeQueueType 2 backHome (.num 5)]
    Steps.Along (step false) (Kept false) start es ∧ Steps.Along (step false) (Right false) start es :=
  ⟨by decide, queueIndex_of_run false _ (by decide)⟩

/-- **A march whose target is given anew stands under the old one**, and under neither once it is removed: `remove` takes it
out of the entry it is not in. -/
theorem stands_under_old :
    let es : List Event := [.createQueue (march 7 100) "1", .setAttr 0 .toId (some (.num 200))]
    let w := es.foldl (step false) start
    let w' := w.step false (.removeQueue 0)
    w.indexRef .toId (.num 100) (.str "1") = some 0 ∧ w.indexRef .toId (.num 200) (.str "1") = none ∧
      w'.indexRef .toId (.num 100) (.str "1") = some 0 ∧ ¬Steps.Along (step false) (Right false) start es := by
  refine ⟨by decide, by decide, by decide, fun h => ?_⟩
  obtain ⟨data, hq, hattr⟩ := (h.2.1.exact .toId (.num 100) (.str "1") 0).1 (by decide)
  cases hq
  revert hattr
  decide

end World
end QueueIndex
end Sncpp
