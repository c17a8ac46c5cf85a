import Sncpp.Steps
import Sncpp.Zset
/-!
# MemCache — the memory cache of the data centre and its eviction

`playerDataCache` keeps the data under a text made of kingdom, module and id, and in `zset` when each is to go.  A
read that finds something enters it there, a write only if the kingdom is the service's own, and the timer takes out
what is due, five hundred at a time with a pause between.
-/
namespace Sncpp
namespace MemCache

/-- The kingdom of the service, the text of a key, and the values that a condition takes for true, all but `false`. -/
structure Conf (K V : Type) where
  kid : Nat
  clearMemTime : Nat
  key : Nat → Nat → String → K
  truthy : V → Bool

/-- `touched` is when the entry was last written or handed out, which no function reads. -/
structure Cache (K V : Type) [LinearOrder K] where
  now : Nat
  cacheData : K → Option V
  zset : Zset Nat K
  touched : K → Nat

/-- A run of the timer that sleeps: the time when it began, and how many it has taken out. -/
structure Clear where
  time : Nat
  count : Nat

variable {K V : Type} [LinearOrder K] (conf : Conf K V)

/-- The time at which an entry of time `now` is due: a whole minute. -/
def Conf.due (now : Nat) : Nat :=
  let time := now + conf.clearMemTime
  time - time % 60

namespace Cache

variable (s : Cache K V)

def getMemTime : Nat := conf.due s.now

def getMemCache (kid id : Nat) (name : String) : Option V × Cache K V :=
  let k := conf.key kid id name
  match s.cacheData k with
  | some v =>
    if conf.truthy v then
      (some v, { s with zset := s.zset.add (s.getMemTime conf) k, touched := Function.update s.touched k s.now })
    else (none, s)
  | none => (none, s)

def setMemCache (kid id : Nat) (name : String) (data : V) : Cache K V :=
  let k := conf.key kid id name
  { s with
    cacheData := Function.update s.cacheData k (some data)
    zset := if kid = conf.kid then s.zset.add (s.getMemTime conf) k else s.zset
    touched := Function.update s.touched k s.now }

def drop (k : K) : Cache K V := { s with cacheData := Function.update s.cacheData k none, zset := s.zset.rem k }

def delMemCache (kid id : Nat) (name : String) : Cache K V := s.drop (conf.key kid id name)

end Cache

/-- One batch: the cache, how many went, and whether one was met that is not due; without a score the comparison would
raise. -/
def clearBatch (time : Nat) : List K → Cache K V → Nat → Cache K V × Nat × Bool
  | [], s, count => (s, count, false)
  | k :: ks, s, count =>
    match s.zset.score k with
    | some score => if time < score then (s, count, true) else clearBatch time ks (s.drop k) (count + 1)
    | none => (s, count, true)

def clearTurn (s : Cache K V) (c : Clear) : Cache K V × Option Clear :=
  let keyList := s.zset.range 500
  let r := clearBatch c.time keyList s c.count
  if keyList.length < 500 ∨ r.2.2 = true ∨ 50000 ≤ r.2.1 then (r.1, none) else (r.1, some ⟨c.time, r.2.1⟩)

/-- The cache, the queries that wait for the local redis, and the runs of the timer that sleep. -/
structure World (K V : Type) [LinearOrder K] where
  cache : Cache K V
  queries : List (Nat × String)
  clears : List Clear

inductive Event (V : Type) where
  | sleep (n : Nat)
  | query (kid id : Nat) (name : String)
  | redis (n : Nat) (data : Option V)
  | update (kid id : Nat) (name : String) (data : V)
  | delete (kid id : Nat) (name : String)
  | onTimerClearCache
  | wake (n : Nat)

namespace World

variable (w : World K V)

/-- What is not in memory is asked of the local redis, if it is of this kingdom. -/
def query (kid id : Nat) (name : String) : World K V :=
  let r := w.cache.getMemCache conf kid id name
  { w with
    cache := r.2
    queries := if r.1.isNone ∧ kid = conf.kid then (id, name) :: w.queries else w.queries }

def answered (n : Nat) (q : Nat × String) (data : Option V) : World K V :=
  { w with
    cache := match data with
      | some data => w.cache.setMemCache conf conf.kid q.1 q.2 data
      | none => w.cache
    queries := w.queries.eraseIdx n }

def clear (c : Clear) (clears : List Clear) : World K V :=
  { w with
    cache := (clearTurn w.cache c).1
    clears := (clearTurn w.cache c).2.toList ++ clears }

def step : Event V → World K V
  | .sleep n => { w with cache := { w.cache with now := w.cache.now + n } }
  | .query kid id name => w.query conf kid id name
  | .redis n data =>
    match w.queries[n]? with
    | some q => w.answered conf n q data
    | none => w
  | .update kid id name data => { w with cache := w.cache.setMemCache conf kid id name data }
  | .delete kid id name => { w with cache := w.cache.delMemCache conf kid id name }
  | .onTimerClearCache => w.clear ⟨w.cache.now, 0⟩ w.clears
  | .wake n =>
    match w.clears[n]? with
    | some c => w.clear c (w.clears.eraseIdx n)
    | none => w

end World

def Event.clears : Event V → Bool
  | .onTimerClearCache => true
  | .wake _ => true
  | _ => false

namespace World

variable (w : World K V)

/-- **What is in memory is what is to go**, and what the timer takes out was last written or handed out `clearMemTime -
60` ago. -/
structure Right (e : Event V) : Prop where
  keys : ∀ k, (w.step conf e).cache.cacheData k ≠ none ↔ (w.step conf e).cache.zset.score k ≠ none
  old : e.clears = true → ∀ k, w.cache.cacheData k ≠ none → (w.step conf e).cache.cacheData k = none →
    w.cache.touched k + conf.clearMemTime ≤ w.cache.now + 60

def Kept : Event V → Prop
  | .update kid _ _ _ => kid = conf.kid
  | _ => True

instance : ∀ e : Event V, Decidable (Kept conf e)
  | .update kid _ _ _ => inferInstanceAs (Decidable (kid = conf.kid))
  | .sleep _ => isTrue trivial
  | .query _ _ _ => isTrue trivial
  | .redis _ _ => isTrue trivial
  | .delete _ _ _ => isTrue trivial
  | .onTimerClearCache => isTrue trivial
  | .wake _ => isTrue trivial

structure Ready : Prop where
  cacheData : w.cache.cacheData = fun _ => none
  zset : w.cache.zset = .new
  clears : w.clears = []

end World

variable {conf}

namespace Cache

variable {s : Cache K V}

structure Good (conf : Conf K V) (s : Cache K V) : Prop where
  keys : ∀ k, s.cacheData k ≠ none ↔ s.zset.score k ≠ none
  score : ∀ k due, s.zset.score k = some due → due = conf.due (s.touched k)

theorem Good.touch (h : s.Good conf) (k : K) {cacheData : K → Option V} (hk : cacheData k ≠ none)
    (hother : ∀ k', k' ≠ k → cacheData k' = s.cacheData k') :
    Good conf { s with cacheData := cacheData, zset := s.zset.add (s.getMemTime conf) k, touched := Function.update s.touched k s.now } where
  keys k' := by
    simp only [Zset.score_add]
    by_cases hkk : k' = k
    · subst hkk
      simp [hk]
    · rw [if_neg hkk, hother k' hkk]
      exact h.keys k'
  score k' due hdue := by
    simp only [Zset.score_add] at hdue
    by_cases hkk : k' = k
    · subst hkk
      rw [if_pos rfl] at hdue
      simp only [Function.update_self]
      exact (Option.some.inj hdue).symm
    · rw [if_neg hkk] at hdue
      simp only [Function.update_of_ne hkk]
      exact h.score k' due hdue

theorem Good.get (h : s.Good conf) (kid id : Nat) (name : String) : Good conf (s.getMemCache conf kid id name).2 := by
  unfold getMemCache
  simp only
  split
  · next v hv =>
    split
    · exact h.touch _ (by rw [hv]; exact Option.some_ne_none v) (fun k' _ => rfl)
    · exact h
  · exact h

theorem Good.set (h : s.Good conf) {kid : Nat} (hkid : kid = conf.kid) (id : Nat) (name : String) (data : V) :
    Good conf (s.setMemCache conf kid id name data) := by
  unfold setMemCache
  simp only [if_pos hkid]
  refine h.touch _ ?_ (fun k' hk' => Function.update_of_ne hk' _ _)
  rw [Function.update_self]
  exact Option.some_ne_none data

theorem Good.drop (h : s.Good conf) (k : K) : Good conf (s.drop k) where
  keys k' := by
    simp only [Cache.drop, Zset.score_rem]
    by_cases hkk : k' = k
    · subst hkk
      simp
    · rw [if_neg hkk, Function.update_of_ne hkk]
      exact h.keys k'
  score k' due hdue := by
    simp only [Cache.drop, Zset.score_rem] at hdue
    split at hdue
    · cases hdue
    · exact h.score k' due hdue

end Cache

theorem clearBatch_spec (time : Nat) : ∀ (ks : List K) (s : Cache K V) (count : Nat), s.Good conf →
    (clearBatch time ks s count).1.Good conf ∧ (clearBatch time ks s count).1.now = s.now ∧
      ∀ k, s.cacheData k ≠ none → (clearBatch time ks s count).1.cacheData k = none → conf.due (s.touched k) ≤ time
  | [], s, count, h => ⟨h, rfl, fun k hk hnone => absurd hnone hk⟩
  | k :: ks, s, count, h => by
    unfold clearBatch
    split
    · next due hdue =>
      split
      · exact ⟨h, rfl, fun k' hk' hnone => absurd hnone hk'⟩
      · next hle =>
        obtain ⟨hgood, hnow, hold⟩ := clearBatch_spec time ks (s.drop k) (count + 1) (h.drop k)
        refine ⟨hgood, hnow, fun k' hk' hnone => ?_⟩
        by_cases hkk : k' = k
        · subst hkk
          rw [← h.score k' due hdue]
          exact not_lt.1 hle
        · refine hold k' ?_ hnone
          exact (Function.update_of_ne hkk none s.cacheData).trans_ne hk'
    · exact ⟨h, rfl, fun k' hk' hnone => absurd hnone hk'⟩

theorem clearTurn_cache (s : Cache K V) (c : Clear) :
    (clearTurn s c).1 = (clearBatch c.time (s.zset.range 500) s c.count).1 := by
  unfold clearTurn
  simp only
  split <;> rfl

theorem clearTurn_time (s : Cache K V) (c : Clear) : ∀ c' ∈ (clearTurn s c).2, c'.time = c.time := by
  unfold clearTurn
  simp only
  split
  · intro c' hc'
    cases hc'
  · intro c' hc'
    cases hc'
    rfl

omit [LinearOrder K] in
theorem Conf.le_due (conf : Conf K V) (time : Nat) : time + conf.clearMemTime < conf.due time + 60 := by
  unfold Conf.due
  have hmod := Nat.mod_lt (time + conf.clearMemTime) (by decide : 60 > 0)
  have hle := Nat.mod_le (time + conf.clearMemTime) 60
  simp only
  omega

namespace World

variable {w : World K V}

structure Good (conf : Conf K V) (w : World K V) : Prop where
  cache : w.cache.Good conf
  clears : ∀ c ∈ w.clears, c.time ≤ w.cache.now

theorem Ready.good (conf : Conf K V) (h : w.Ready) : w.Good conf where
  cache :=
    { keys := fun k => by simp [h.cacheData, h.zset]
      score := fun k due hdue => by
        rw [h.zset] at hdue
        cases hdue }
  clears c hc := by
    rw [h.clears] at hc
    cases hc

theorem Good.clear (h : w.Good conf) {c : Clear} (hc : c.time ≤ w.cache.now) {clears : List Clear}
    (hclears : ∀ c' ∈ clears, c' ∈ w.clears) :
    Good conf (w.clear c clears) ∧ ∀ k, w.cache.cacheData k ≠ none → (w.clear c clears).cache.cacheData k = none →
      w.cache.touched k + conf.clearMemTime ≤ w.cache.now + 60 := by
  obtain ⟨hgood, hnow, hold⟩ := clearBatch_spec c.time (w.cache.zset.range 500) w.cache c.count h.cache
  rw [← clearTurn_cache] at hgood hnow hold
  refine ⟨⟨hgood, fun c' hc' => ?_⟩, fun k hk hnone => ?_⟩
  · show c'.time ≤ (clearTurn w.cache c).1.now
    rw [hnow]
    rcases List.mem_append.1 hc' with hc' | hc'
    · rw [clearTurn_time w.cache c c' (Option.mem_toList.1 hc')]
      exact hc
    · exact h.clears c' (hclears c' hc')
  · have hdue := hold k hk hnone
    have hle := conf.le_due (w.cache.touched k)
    omega

theorem getMemCache_now (conf : Conf K V) (s : Cache K V) (kid id : Nat) (name : String) :
    (s.getMemCache conf kid id name).2.now = s.now := by
  unfold Cache.getMemCache
  simp only
  split
  · split <;> rfl
  · rfl

theorem Good.step (h : w.Good conf) {e : Event V} (he : Kept conf e) : Good conf (w.step conf e) ∧ w.Right conf e := by
  have hquiet : ∀ {w' : World K V} {e : Event V}, w' = w.step conf e → e.clears = false → Good conf w' →
      Good conf (w.step conf e) ∧ w.Right conf e := by
    rintro w' e rfl hno hgood
    refine ⟨hgood, hgood.cache.keys, fun hyes => ?_⟩
    rw [hno] at hyes
    cases hyes
  cases e with
  | sleep n =>
    exact hquiet rfl rfl ⟨⟨h.cache.keys, h.cache.score⟩, fun c hc => (h.clears c hc).trans (Nat.le_add_right _ n)⟩
  | query kid id name =>
    refine hquiet rfl rfl ⟨h.cache.get kid id name, fun c hc => ?_⟩
    show c.time ≤ (w.cache.getMemCache conf kid id name).2.now
    rw [getMemCache_now]
    exact h.clears c hc
  | redis n data =>
    refine hquiet rfl rfl ?_
    unfold World.step
    simp only
    split
    · next q _ =>
      cases data with
      | none => exact ⟨h.cache, h.clears⟩
      | some data => exact ⟨h.cache.set rfl q.1 q.2 data, h.clears⟩
    · exact h
  | update kid id name data => exact hquiet rfl rfl ⟨h.cache.set he id name data, h.clears⟩
  | delete kid id name => exact hquiet rfl rfl ⟨h.cache.drop _, h.clears⟩
  | onTimerClearCache =>
    obtain ⟨hgood, hold⟩ := h.clear (c := ⟨w.cache.now, 0⟩) le_rfl (fun c' hc' => hc')
    exact ⟨hgood, hgood.cache.keys, fun _ => hold⟩
  | wake n =>
    cases hn : w.clears[n]? with
    | none =>
      have hsame : w.step conf (.wake n) = w := by
        unfold World.step
        simp only [hn]
      refine ⟨?_, ?_, fun _ k hk hnone => ?_⟩
      · rw [hsame]
        exact h
      · rw [hsame]
        exact h.cache.keys
      · rw [hsame] at hnone
        exact absurd hnone hk
    | some c =>
      have hstep : w.step conf (.wake n) = w.clear c (w.clears.eraseIdx n) := by
        unfold World.step
        simp only [hn]
      obtain ⟨hgood, hold⟩ := h.clear (h.clears c (List.mem_of_getElem? hn)) (fun c' hc' => List.mem_of_mem_eraseIdx hc')
      refine ⟨?_, ?_, fun _ => ?_⟩
      · rw [hstep]
        exact hgood
      · rw [hstep]
        exact hgood.cache.keys
      · rw [hstep]
        exact hold

/-- **The eviction in every run** of queries, writes of this kingdom's data, deletions and runs of the timer. -/
theorem evicts_of_run (conf : Conf K V) (w : World K V) (h : w.Ready) (es : List (Event V))
    (hkept : Steps.Along (step conf) (fun _ e => Kept conf e) w es) : Steps.Along (step conf) (Right conf) w es :=
  Steps.Along.keep (I := Good conf) (fun _ _ he hs => hs.step he) es w (h.good conf) hkept

def plain : Conf Nat Nat := ⟨1, 300, fun kid id _ => kid * 1000 + id, fun _ => true⟩

def fresh : World Nat Nat := ⟨⟨0, fun _ => none, .new, fun _ => 0⟩, [], []⟩

theorem evicts_of_fresh : Steps.Along (step plain) (Right plain) fresh
    [.update 1 7 "role" 5, .sleep 100, .query 1 7 "role", .query 1 8 "role", .redis 0 (some 3), .sleep 320,
      .onTimerClearCache] :=
  evicts_of_run plain fresh ⟨rfl, rfl, rfl⟩ _ (by decide)

/-- **Another kingdom's data**: an entry that is written is not to go, and one that was read before goes ten seconds after
it was written. -/
theorem other_kingdom :
    ¬ Steps.Along (step plain) (Right plain) fresh [.update 2 7 "role" 5] ∧
      ¬ Steps.Along (step plain) (fun w e => e.clears = true → ∀ k, w.cache.cacheData k ≠ none →
        (w.step plain e).cache.cacheData k = none →
        w.cache.touched k + plain.clearMemTime ≤ w.cache.now + 60) fresh
        [.update 2 7 "role" 5, .query 2 7 "role", .sleep 290, .update 2 7 "role" 6, .sleep 10, .onTimerClearCache] := by
  constructor
  · intro h
    exact (h.1.keys 2007).1 (by decide) (by decide)
  · intro h
    have hold := h.2.2.2.2.2.1 rfl 2007 (by decide) (by decide)
    revert hold
    decide

end World
end MemCache
end Sncpp
