import Sncpp.Steps
import Mathlib.Data.List.Nodup
/-!
# ServerStop — the start service stops the others (`serverStartMgr:finishInit`, `stop`)

`stop` goes through the table of the services once and sends each of them `stop`; the coroutine that it forks goes
through the table again and again until every service answers that it has stopped.  An entry of a service that has not
reported is `false`, at which both raise, and no later report is sent anything.
-/
namespace Sncpp
namespace ServerStop

variable {ν α : Type} [DecidableEq ν] [DecidableEq α]

/-- Where the coroutine that `stop` forks is: with the gate, asleep, or waiting for the answer of a service with those of
`rest` to come; `changed` if the table has got a new entry since this round began. -/
inductive Wait (ν α : Type) where
  | idle
  | gate
  | sleep
  | asking (svrName : ν) (address : α) (rest : List ν) (changed : Bool)
  | raised
  | done
deriving DecidableEq

def Wait.touch : Wait ν α → Wait ν α
  | .asking svrName address rest _ => .asking svrName address rest true
  | wait => wait

/-- `reported`, `sent` and `answered` are what has happened: the services that have reported, that were sent `stop`, and
that have answered true after that.  A service that has stopped, stays so. -/
structure World (ν α : Type) where
  mapStartedService : List (ν × Option α)
  stoping : Bool
  wait : Wait ν α
  reported : List (ν × α)
  sent : List (ν × α)
  answered : List (ν × α)
  stoped : List α
  resets : Nat

/-- An `order` is the one in which the table is gone through; if it is none of the table, it is the table's own. -/
inductive Event (ν α : Type) where
  | finishInit (svrName : ν) (address : Option α)
  | stop (order : List (ν × Option α))
  | gate
  | wake (order : List ν)
  | answer (rest : List ν)
  | stoped (address : α)

def put (svrName : ν) (address : Option α) (l : List (ν × Option α)) : List (ν × Option α) :=
  if svrName ∈ l.map Prod.fst then l.map (fun e => if e.1 = svrName then (svrName, address) else e) else l ++
    [(svrName, address)]

/-- The sends of `stop`: those that are made, and whether it comes to the end of the table. -/
def sends (me : α) : List (ν × Option α) → List (ν × α) × Bool
  | [] => ([], true)
  | (svrName, some address) :: es =>
    if address = me then sends me es else ((svrName, address) :: (sends me es).1, (sends me es).2)
  | (_, none) :: _ => ([], false)

def ask (me : α) (l : List (ν × Option α)) : List ν → Wait ν α
  | [] => .done
  | svrName :: rest =>
    match l.lookup svrName with
    | some (some address) => if address = me then ask me l rest else .asking svrName address rest false
    | some none => .raised
    | none => ask me l rest

section
variable {svrName : ν} {address : Option α} {l : List (ν × Option α)}

omit [DecidableEq α] in
theorem keys_put : (put svrName address l).map Prod.fst =
    if svrName ∈ l.map Prod.fst then l.map Prod.fst else l.map Prod.fst ++ [svrName] := by
  unfold put
  split
  · rw [List.map_map]
    refine List.map_congr_left (fun e _ => ?_)
    show (if e.1 = svrName then (svrName, address) else e).1 = e.1
    split
    · rename_i h
      exact h.symm
    · rfl
  · rw [List.map_append]
    rfl

omit [DecidableEq α] in
theorem nodup_put (h : (l.map Prod.fst).Nodup) : ((put svrName address l).map Prod.fst).Nodup := by
  rw [keys_put]
  split
  · exact h
  · rename_i hnew
    exact List.Nodup.append h (List.nodup_singleton _) (by simpa using hnew)

omit [DecidableEq α] in
theorem mem_put {e : ν × Option α} (h : e ∈ put svrName address l) : e = (svrName, address) ∨ e ∈ l := by
  unfold put at h
  split at h
  · obtain ⟨e', he', rfl⟩ := List.mem_map.1 h
    split
    · exact .inl rfl
    · exact .inr he'
  · rcases List.mem_append.1 h with h | h
    · exact .inr h
    · exact .inl (List.mem_singleton.1 h)

omit [DecidableEq ν] [DecidableEq α] in
theorem entry_unique {v : Option α} (h : (l.map Prod.fst).Nodup) (hm : (svrName, address) ∈ l) (hv : (svrName, v) ∈ l) :
    address = v :=
  congrArg Prod.snd (List.inj_on_of_nodup_map h hm hv rfl)

omit [DecidableEq α] in
theorem put_of_mem (h : (l.map Prod.fst).Nodup) (hm : (svrName, address) ∈ l) : put svrName address l = l := by
  unfold put
  rw [if_pos (List.mem_map_of_mem hm)]
  conv => rhs; rw [← List.map_id l]
  refine List.map_congr_left (fun e he => ?_)
  show (if e.1 = svrName then (svrName, address) else e) = e
  split
  · rename_i heq
    obtain ⟨k, v⟩ := e
    obtain rfl : k = svrName := heq
    rw [entry_unique h he hm]
  · rfl

theorem lookup_of_mem {β : Type} : ∀ {l : List (ν × β)} {v : β}, (l.map Prod.fst).Nodup → (svrName, v) ∈ l →
    l.lookup svrName = some v
  | (k, v') :: l, v, h, hm => by
    rw [List.lookup_cons]
    obtain ⟨hnot, hrest⟩ := List.nodup_cons.1 h
    rcases List.mem_cons.1 hm with heq | hm
    · obtain ⟨rfl, rfl⟩ := Prod.mk.inj heq
      simp
    · have hne : svrName ≠ k := fun heq => hnot (List.mem_map.2 ⟨_, hm, heq⟩)
      simp only [beq_eq_false_iff_ne.2 hne]
      exact lookup_of_mem hrest hm

end

variable {me : α}

omit [DecidableEq ν] in
theorem sends_snd : ∀ l : List (ν × Option α), (sends me l).2 = true ↔ ∀ e ∈ l, e.2 ≠ none
  | [] => by simp [sends]
  | (k, none) :: es => by simp [sends]
  | (k, some a) :: es => by
    have ih := sends_snd es
    have hcons : (∀ e ∈ (k, some a) :: es, e.2 ≠ none) ↔ ∀ e ∈ es, e.2 ≠ none := by
      rw [List.forall_mem_cons]
      exact and_iff_right (Option.some_ne_none a)
    rw [hcons, ← ih, sends]
    split <;> rfl

omit [DecidableEq ν] in
theorem mem_of_sends {p : ν × α} : ∀ {l : List (ν × Option α)}, p ∈ (sends me l).1 → (p.1, some p.2) ∈ l ∧ p.2 ≠ me
  | (k, some a) :: es, h => by
    rw [sends] at h
    split at h
    · obtain ⟨hm, hne⟩ := mem_of_sends h
      exact ⟨List.mem_cons_of_mem _ hm, hne⟩
    · rename_i ha
      rcases List.mem_cons.1 h with rfl | h
      · exact ⟨List.mem_cons_self, ha⟩
      · obtain ⟨hm, hne⟩ := mem_of_sends h
        exact ⟨List.mem_cons_of_mem _ hm, hne⟩

/-- **A service is sent `stop` as often as it is in the table**, if all have reported. -/
theorem count_sends {p : ν × α} (hp : p.2 ≠ me) : ∀ {l : List (ν × Option α)}, (∀ e ∈ l, e.2 ≠ none) →
    (sends me l).1.count p = l.count (p.1, some p.2)
  | [], _ => rfl
  | (k, none) :: es, h => absurd rfl (h _ List.mem_cons_self)
  | (k, some a) :: es, h => by
    have ih := count_sends hp (fun e he => h e (List.mem_cons_of_mem _ he))
    have hcount : (((k, some a) : ν × Option α) == (p.1, some p.2)) = ((k, a) == p) := by
      rw [Bool.eq_iff_iff, beq_iff_eq, beq_iff_eq, Prod.ext_iff, Prod.ext_iff]
      simp
    rw [List.count_cons, hcount, sends]
    split
    · rename_i ha
      have hne : ¬((k, a) == p) = true := fun heq => hp (by rw [← beq_iff_eq.1 heq]; exact ha)
      rw [if_neg hne, ih, Nat.add_zero]
    · rw [List.count_cons, ih]

theorem ask_cons {l : List (ν × Option α)} (hkeys : (l.map Prod.fst).Nodup) {svrName : ν} {address : α}
    (hm : (svrName, some address) ∈ l) (hne : address ≠ me) (rest : List ν) :
    ask me l (svrName :: rest) = .asking svrName address rest false := by
  rw [ask, lookup_of_mem hkeys hm]
  simp only
  rw [if_neg hne]

namespace World

variable (me : α) (w : World ν α)

/-- `ctor`: no service has reported. -/
def start (services : List ν) : World ν α :=
  ⟨services.foldl (fun l svrName => put svrName none l) [], false, .idle, [], [], [], [], 0⟩

/-- A round goes on, and is the last one if no service is left to ask. -/
def look (order : List ν) : World ν α :=
  { w with
    wait := ask me w.mapStartedService order
    resets := if ask me w.mapStartedService order = .done then w.resets + 1 else w.resets }

def step : Event ν α → World ν α
  | .finishInit svrName address =>
    match address with
    | none => w
    | some a => { w with
        mapStartedService := put svrName (some a) w.mapStartedService
        reported := (svrName, a) :: w.reported
        wait := if svrName ∈ w.mapStartedService.map Prod.fst then w.wait else w.wait.touch }
  | .stop order =>
    if w.stoping then w
    else
      let r := sends me (if order.Perm w.mapStartedService then order else w.mapStartedService)
      { w with stoping := true, sent := w.sent ++ r.1, wait := if r.2 then .gate else .idle }
  | .gate => if w.wait = .gate then { w with wait := .sleep } else w
  | .wake order =>
    let names := w.mapStartedService.map Prod.fst
    if w.wait = .sleep then w.look me (if order.Perm names then order else names) else w
  | .answer rest' =>
    match w.wait with
    | .asking svrName address rest changed =>
      if address ∈ w.stoped then
        -- a table that has got a new entry goes on in any way
        { w with answered := if (svrName, address) ∈ w.sent then (svrName, address) :: w.answered else w.answered }.look me
          (if changed then rest' else rest)
      else { w with wait := .sleep }
    | _ => w
  | .stoped address => { w with stoped := address :: w.stoped }

/-- **Every service that has reported is sent `stop` once, the loop is there, and the signal handler is reset once at
most**, when all have answered. -/
structure Right (e : Event ν α) : Prop where
  once : ∀ p ∈ (w.step me e).reported, (w.step me e).sent.count p = if (w.step me e).stoping then 1 else 0
  waits : (w.step me e).stoping = true → (w.step me e).wait ≠ .idle ∧ (w.step me e).wait ≠ .raised
  resets : (w.step me e).resets ≤ 1
  reset : (w.step me e).resets ≠ w.resets → ∀ p ∈ (w.step me e).reported, p ∈ (w.step me e).answered

/-- At the first stop every service has reported, none under two addresses, and after it no other reports. -/
def Kept : Event ν α → Prop
  | .stop _ => w.stoping = false →
      (∀ e ∈ w.mapStartedService, e.2 ≠ none) ∧ ∀ p ∈ w.reported, p.2 ≠ me ∧ (p.1, some p.2) ∈ w.mapStartedService
  | .finishInit svrName address => w.stoping = true → ∀ a ∈ address, (svrName, a) ∈ w.reported
  | _ => True

/-- The invariant.  After the stop nothing changes in the table, whose services were all sent `stop`, and those of the
round that are not to come have answered. -/
structure Good : Prop where
  keys : (w.mapStartedService.map Prod.fst).Nodup
  listed : ∀ p : ν × α, (p.1, some p.2) ∈ w.mapStartedService → p ∈ w.reported
  before : w.stoping = false → w.sent = [] ∧ w.wait = .idle
  full : w.stoping = true → ∀ e ∈ w.mapStartedService, e.2 ≠ none
  sent : ∀ p ∈ w.sent, p ∈ w.reported
  table : w.stoping = true → ∀ p ∈ w.reported, p.2 ≠ me ∧ (p.1, some p.2) ∈ w.mapStartedService ∧ w.sent.count p = 1
  waits : w.stoping = true → w.wait ≠ .idle ∧ w.wait ≠ .raised
  asking : ∀ svrName address rest changed, w.wait = .asking svrName address rest changed →
    changed = false ∧ (svrName, address) ∈ w.reported ∧ (∀ k ∈ rest, k ∈ w.mapStartedService.map Prod.fst) ∧
      ∀ p ∈ w.reported, p = (svrName, address) ∨ p.1 ∈ rest ∨ p ∈ w.answered
  done : w.wait = .done → ∀ p ∈ w.reported, p ∈ w.answered
  resets : w.resets = if w.wait = .done then 1 else 0

variable {me w}

theorem Good.still (h : w.Good me) {wait : Wait ν α} (hstoping : w.stoping = true) (hover : w.wait ≠ .done)
    (hwait : wait = .gate ∨ wait = .sleep) : ({ w with wait := wait } : World ν α).Good me := by
  have hzero : w.resets = 0 := by rw [h.resets, if_neg hover]
  rcases hwait with rfl | rfl
  · exact ⟨h.keys, h.listed, fun hno => absurd (hstoping.symm.trans hno) (by decide), h.full, h.sent, h.table,
      fun _ => ⟨nofun, nofun⟩, nofun, nofun, hzero⟩
  · exact ⟨h.keys, h.listed, fun hno => absurd (hstoping.symm.trans hno) (by decide), h.full, h.sent, h.table,
      fun _ => ⟨nofun, nofun⟩, nofun, nofun, hzero⟩

theorem Good.look (h : w.Good me) (hstoping : w.stoping = true) (hover : w.wait ≠ .done) {order : List ν}
    (hkeys : ∀ k ∈ order, k ∈ w.mapStartedService.map Prod.fst) (hrest : ∀ p ∈ w.reported, p.1 ∈ order ∨ p ∈ w.answered) :
    (w.look me order).Good me ∧ ((w.look me order).resets ≠ w.resets → ∀ p ∈ w.reported, p ∈ w.answered) := by
  have hzero : w.resets = 0 := by rw [h.resets, if_neg hover]
  have hno : w.stoping ≠ false := by rw [hstoping]; exact nofun
  cases order with
  | nil =>
    have hall : ∀ p ∈ w.reported, p ∈ w.answered := fun p hp => (hrest p hp).resolve_left List.not_mem_nil
    refine ⟨⟨h.keys, h.listed, fun hf => absurd hf hno, h.full, h.sent, h.table, fun _ => ⟨nofun, nofun⟩, nofun,
      fun _ => hall, ?_⟩,
      fun _ => hall⟩
    show (if (Wait.done : Wait ν α) = .done then w.resets + 1 else w.resets) = 1
    rw [if_pos rfl, hzero]
  | cons k rest =>
    obtain ⟨⟨k', v⟩, hm, rfl⟩ := List.mem_map.1 (hkeys k List.mem_cons_self)
    obtain ⟨a, rfl⟩ := Option.ne_none_iff_exists'.1 (h.full hstoping _ hm)
    have hreported : (k', a) ∈ w.reported := h.listed (k', a) hm
    have hask : ask me w.mapStartedService (k' :: rest) = .asking k' a rest false :=
      ask_cons h.keys hm (h.table hstoping _ hreported).1 rest
    have hlook : w.look me (k' :: rest) = { w with wait := .asking k' a rest false } := by
      unfold World.look
      rw [hask, if_neg nofun]
    rw [hlook]
    refine ⟨⟨h.keys, h.listed, fun hf => absurd hf hno, h.full, h.sent, h.table, fun _ => ⟨nofun, nofun⟩, ?_, nofun, ?_⟩,
      fun hne => absurd rfl hne⟩
    · intro svrName address rest' changed heq
      obtain ⟨rfl, rfl, rfl, rfl⟩ := Wait.asking.inj heq
      refine ⟨rfl, hreported, fun x hx => hkeys x (List.mem_cons_of_mem _ hx), fun p hp => ?_⟩
      rcases hrest p hp with hin | hdone
      · rcases List.mem_cons.1 hin with heq | hin
        · have hentry := (h.table hstoping p hp).2.1
          rw [heq] at hentry
          exact .inl (Prod.ext heq (Option.some.inj (entry_unique h.keys hentry hm)))
        · exact .inr (.inl hin)
      · exact .inr (.inr hdone)
    · show w.resets = if (Wait.asking k' a rest false : Wait ν α) = .done then 1 else 0
      rw [if_neg nofun, hzero]

theorem Good.right {e : Event ν α} (h : (w.step me e).Good me)
    (hreset : (w.step me e).resets ≠ w.resets → ∀ p ∈ (w.step me e).reported,
      p ∈ (w.step me e).answered) : w.Right me e where
  once p hp := by
    by_cases hstoping : (w.step me e).stoping = true
    · rw [if_pos hstoping]
      exact (h.table hstoping p hp).2.2
    · rw [if_neg hstoping, (h.before (Bool.eq_false_iff.2 hstoping)).1]
      rfl
  waits := h.waits
  resets := by
    rw [h.resets]
    split <;> decide
  reset := hreset

theorem Good.finishInit (h : w.Good me) {svrName : ν} {a : α} (hkept : w.stoping = true → (svrName, a) ∈ w.reported) :
    (w.step me (.finishInit svrName (some a))).Good me := by
  have hsub : ∀ p ∈ w.reported, p ∈ (svrName, a) :: w.reported := fun p hp => List.mem_cons_of_mem _ hp
  have hback : w.stoping = true → ∀ p ∈ (svrName, a) :: w.reported, p ∈ w.reported := by
    intro hstoping p hp
    rcases List.mem_cons.1 hp with rfl | hp
    · exact hkept hstoping
    · exact hp
  cases hstoping : w.stoping with
  | false =>
    obtain ⟨hsent, hwait⟩ := h.before hstoping
    have htouch : (if svrName ∈ w.mapStartedService.map Prod.fst then w.wait else w.wait.touch) = .idle := by
      rw [hwait]
      split <;> rfl
    have hstep : w.step me (.finishInit svrName (some a)) = { w with
        mapStartedService := put svrName (some a) w.mapStartedService
        reported := (svrName, a) :: w.reported
        wait := .idle } := by
      rw [← htouch]
      rfl
    have hno : w.stoping ≠ true := by rw [hstoping]; exact nofun
    rw [hstep]
    refine ⟨nodup_put h.keys, fun p hp => ?_, fun _ => ⟨hsent, rfl⟩, fun ht => absurd ht hno, fun p hp =>
      hsub p (h.sent p hp),
      fun ht => absurd ht hno, fun ht => absurd ht hno, nofun, nofun, ?_⟩
    · rcases mem_put hp with heq | hp
      · obtain ⟨hname, haddress⟩ := Prod.mk.inj heq
        exact List.mem_cons.2 (.inl (Prod.ext hname (Option.some.inj haddress)))
      · exact hsub p (h.listed p hp)
    · show w.resets = if (Wait.idle : Wait ν α) = .done then 1 else 0
      rw [h.resets, hwait]
  | true =>
    have hreported := hkept hstoping
    obtain ⟨-, hm, -⟩ := h.table hstoping _ hreported
    have hstep : w.step me (.finishInit svrName (some a)) = { w with reported := (svrName, a) :: w.reported } := by
      show ({ w with
        mapStartedService := put svrName (some a) w.mapStartedService
        reported := (svrName, a) :: w.reported
        wait := if svrName ∈ w.mapStartedService.map Prod.fst then w.wait else w.wait.touch } : World ν α) = _
      rw [put_of_mem h.keys hm, if_pos (List.mem_map_of_mem (f := Prod.fst) hm)]
    rw [hstep]
    refine ⟨h.keys, fun p hp => hsub p (h.listed p hp), h.before, h.full, fun p hp => hsub p (h.sent p hp),
      fun ht p hp => h.table ht p (hback ht p hp), h.waits, ?_, fun hover p hp => h.done hover p (hback hstoping p hp),
        h.resets⟩
    intro k b rest changed hasking
    obtain ⟨hchanged, hin, hrest, hall⟩ := h.asking k b rest changed hasking
    exact ⟨hchanged, hsub _ hin, hrest, fun p hp => hall p (hback hstoping p hp)⟩

theorem step_stop (me : α) (hstoping : w.stoping = false) (order : List (ν × Option α)) :
    ∃ l : List (ν × Option α), l.Perm w.mapStartedService ∧ w.step me (.stop order) =
      { w with stoping := true, sent := w.sent ++ (sends me l).1, wait := if (sends me l).2 then .gate else .idle } := by
  refine ⟨if order.Perm w.mapStartedService then order else w.mapStartedService, ?_, ?_⟩
  · split
    · assumption
    · exact List.Perm.refl _
  · unfold World.step
    rw [hstoping]
    rfl

theorem Good.stop (h : w.Good me) (hstoping : w.stoping = false) (hfull : ∀ e ∈ w.mapStartedService, e.2 ≠ none)
    (htable : ∀ p ∈ w.reported, p.2 ≠ me ∧ (p.1, some p.2) ∈ w.mapStartedService) (order : List (ν × Option α)) :
    (w.step me (.stop order)).Good me := by
  obtain ⟨l, hperm, hstep⟩ := step_stop me hstoping order
  obtain ⟨hsent, hwait⟩ := h.before hstoping
  have hl : ∀ e ∈ l, e.2 ≠ none := fun e he => hfull e (hperm.mem_iff.1 he)
  rw [hstep, (sends_snd l).2 hl, hsent, List.nil_append]
  refine ⟨h.keys, h.listed, nofun, fun _ => hfull, fun p hp => ?_, fun _ p hp => ?_, fun _ => ⟨nofun, nofun⟩,
    nofun, nofun, ?_⟩
  · exact h.listed p (hperm.mem_iff.1 (mem_of_sends hp).1)
  · obtain ⟨hne, hm⟩ := htable p hp
    refine ⟨hne, hm, ?_⟩
    show (sends me l).1.count p = 1
    rw [count_sends hne hl, hperm.count_eq]
    exact List.count_eq_one_of_mem (List.Nodup.of_map _ h.keys) hm
  · show w.resets = if (Wait.gate : Wait ν α) = .done then 1 else 0
    rw [h.resets, hwait]
    rfl

theorem Good.of_stop (h : w.Good me) (hstoping : w.stoping = false) {order : List (ν × Option α)}
    (hright : w.Right me (.stop order)) :
    (∀ e ∈ w.mapStartedService, e.2 ≠ none) ∧ ∀ p ∈ w.reported, p.2 ≠ me ∧ (p.1, some p.2) ∈ w.mapStartedService := by
  obtain ⟨l, hperm, hstep⟩ := step_stop me hstoping order
  obtain ⟨honce, hwaits, -, -⟩ := hright
  rw [hstep] at honce hwaits
  constructor
  · have hend : (sends me l).2 = true := by
      by_contra hno
      exact (hwaits rfl).1 (if_neg hno)
    exact fun e he => (sends_snd l).1 hend e (hperm.mem_iff.2 he)
  · intro p hp
    have hcount : (w.sent ++ (sends me l).1).count p = 1 := honce p hp
    rw [(h.before hstoping).1, List.nil_append] at hcount
    have hm : p ∈ (sends me l).1 := List.count_pos_iff.1 (by rw [hcount]; exact Nat.one_pos)
    exact ⟨(mem_of_sends hm).2, hperm.mem_iff.1 (mem_of_sends hm).1⟩

theorem Good.stoping_of (h : w.Good me) (hwait : w.wait ≠ .idle) : w.stoping = true := by
  by_contra hno
  exact hwait (h.before (Bool.eq_false_iff.2 hno)).2

/-- A step that keeps the invariant and resets the signal handler only when all have answered. -/
def Sound (me : α) (w w' : World ν α) : Prop :=
  w'.Good me ∧ (w'.resets ≠ w.resets → ∀ p ∈ w'.reported, p ∈ w'.answered)

theorem Good.sound (h : w.Good me) : Sound me w w := ⟨h, fun hne => absurd rfl hne⟩

theorem Good.wake (h : w.Good me) (order : List ν) : Sound me w (w.step me (.wake order)) := by
  by_cases hsleep : w.wait = .sleep
  · obtain ⟨l, hperm, hstep⟩ : ∃ l : List ν, l.Perm (w.mapStartedService.map Prod.fst) ∧
        w.step me (.wake order) = w.look me l := by
      refine ⟨if order.Perm (w.mapStartedService.map Prod.fst) then order else w.mapStartedService.map Prod.fst, ?_,
        if_pos hsleep⟩
      split
      · assumption
      · exact List.Perm.refl _
    have hstoping := h.stoping_of (by rw [hsleep]; exact nofun)
    rw [hstep]
    refine h.look hstoping (by rw [hsleep]; exact nofun) (fun k hk => hperm.mem_iff.1 hk) (fun p hp => .inl ?_)
    exact hperm.mem_iff.2 (List.mem_map_of_mem (f := Prod.fst) (h.table hstoping p hp).2.1)
  · have hstep : w.step me (.wake order) = w := if_neg hsleep
    rw [hstep]
    exact h.sound

/-- **A service that answers true has been sent `stop`**, and the round goes on with the next. -/
theorem Good.answer (h : w.Good me) (rest' : List ν) : Sound me w (w.step me (.answer rest')) := by
  unfold World.step
  simp only
  split
  · rename_i svrName address rest changed hasking
    obtain ⟨rfl, hin, hrest, hall⟩ := h.asking _ _ _ _ hasking
    have hstoping := h.stoping_of (by rw [hasking]; exact nofun)
    have hover : w.wait ≠ .done := by rw [hasking]; exact nofun
    split
    · have hsent : (svrName, address) ∈ w.sent :=
        List.count_pos_iff.1 (by rw [(h.table hstoping _ hin).2.2]; exact Nat.one_pos)
      rw [if_pos hsent, if_neg Bool.false_ne_true]
      have hanswered : ({ w with answered := (svrName, address) :: w.answered } : World ν α).Good me := by
        refine ⟨h.keys, h.listed, h.before, h.full, h.sent, h.table, h.waits, ?_, fun ho => absurd ho hover, h.resets⟩
        intro k b rest'' changed heq
        obtain ⟨hchanged, hin', hrest', hall'⟩ := h.asking k b rest'' changed heq
        exact ⟨hchanged, hin', hrest', fun p hp => (hall' p hp).imp_right (fun h => h.imp_right (List.mem_cons_of_mem _))⟩
      refine hanswered.look hstoping hover hrest (fun p hp => ?_)
      rcases hall p hp with rfl | hin | hdone
      · exact .inr List.mem_cons_self
      · exact .inl hin
      · exact .inr (List.mem_cons_of_mem _ hdone)
    · exact ⟨h.still hstoping hover (.inr rfl), fun hne => absurd rfl hne⟩
  · exact h.sound

/-- **A step that finds every service there keeps the invariant**, and resets the signal handler only when all have
answered. -/
theorem Good.step (h : w.Good me) {e : Event ν α} (hkept : w.Kept me e) : Sound me w (w.step me e) := by
  cases e with
  | finishInit svrName address =>
    cases address with
    | none => exact h.sound
    | some a => exact ⟨h.finishInit (fun hstoping => hkept hstoping a rfl), fun hne => absurd rfl hne⟩
  | stop order =>
    cases hstoping : w.stoping with
    | false =>
      obtain ⟨hfull, htable⟩ := hkept hstoping
      refine ⟨h.stop hstoping hfull htable order, fun hne => absurd ?_ hne⟩
      obtain ⟨l, -, hstep⟩ := step_stop me hstoping order
      rw [hstep]
    | true =>
      have hstep : w.step me (.stop order) = w := if_pos hstoping
      rw [hstep]
      exact h.sound
  | gate =>
    by_cases hgate : w.wait = .gate
    · have hstep : w.step me .gate = { w with wait := .sleep } := if_pos hgate
      have hstoping := h.stoping_of (by rw [hgate]; exact nofun)
      rw [hstep]
      exact ⟨h.still hstoping (by rw [hgate]; exact nofun) (.inr rfl), fun hne => absurd rfl hne⟩
    · have hstep : w.step me .gate = w := if_neg hgate
      rw [hstep]
      exact h.sound
  | wake order => exact h.wake order
  | answer rest' => exact h.answer rest'
  | stoped address =>
    exact ⟨⟨h.keys, h.listed, h.before, h.full, h.sent, h.table, h.waits, h.asking, h.done, h.resets⟩, fun hne =>
      absurd rfl hne⟩

theorem Good.kept (h : w.Good me) : ∀ {e : Event ν α}, w.Right me e → w.Kept me e
  | .stop _, hright => fun hstoping => h.of_stop hstoping hright
  | .finishInit svrName (some b), hright => by
    rintro hstoping a ⟨⟩
    have hcount : w.sent.count (svrName, b) = 1 := by
      have honce := hright.once (svrName, b) List.mem_cons_self
      exact honce.trans (if_pos hstoping)
    exact h.sent _ (List.count_pos_iff.1 (by rw [hcount]; exact Nat.one_pos))
  | .finishInit _ none, _ => fun _ a ha => by cases ha
  | .gate, _ | .wake _, _ | .answer _, _ | .stoped _, _ => trivial

theorem good_start (services : List ν) : (start services : World ν α).Good me := by
  have hkeys : ∀ (ks : List ν) (l : List (ν × Option α)), (l.map Prod.fst).Nodup → (∀ e ∈ l, e.2 = none) →
      ((ks.foldl (fun l k => put k none l) l).map Prod.fst).Nodup ∧ ∀ e ∈ ks.foldl (fun l k => put k none l) l,
        e.2 = none := by
    intro ks
    induction ks with
    | nil => exact fun l hl hnone => ⟨hl, hnone⟩
    | cons k ks ih =>
      intro l hl hnone
      refine ih _ (nodup_put hl) (fun e he => ?_)
      rcases mem_put he with rfl | he
      · rfl
      · exact hnone e he
  obtain ⟨hnodup, hnone⟩ := hkeys services [] List.nodup_nil (fun e he => by cases he)
  refine ⟨hnodup, fun p hp => ?_, fun _ => ⟨rfl, rfl⟩, nofun, fun p hp => (by cases hp), nofun, nofun, nofun, nofun, rfl⟩
  have hfalse := hnone _ hp
  cases hfalse

/-- **A shutdown is orderly in every run, exactly when at the first stop every service has reported, each under one
address, and no other reports after it.** -/
theorem stop_iff (me : α) (services : List ν) (es : List (Event ν α)) :
    Steps.Along (step me) (Right me) (start services) es ↔ Steps.Along (step me) (Kept me) (start services) es := by
  constructor
  · refine Steps.Along.keep (I := Good me) (fun w e hright h => ?_) es _ (good_start services)
    exact ⟨(h.step (h.kept hright)).1, h.kept hright⟩
  · refine Steps.Along.keep (I := Good me) (fun w e hkept h => ?_) es _ (good_start services)
    exact ⟨(h.step hkept).1, (h.step hkept).1.right (h.step hkept).2⟩

/-- **A stop while the second of three services has not reported**: the third is not sent `stop`, then or later, and no
loop waits. -/
theorem stop_unreported :
    let es : List (Event Nat Nat) := [.finishInit 1 (some 11), .finishInit 3 (some 13),
      .stop [(1, some 11), (2, none), (3, some 13)], .finishInit 2 (some 12), .stop []]
    let w := es.foldl (step 10) (start [1, 2, 3])
    w.sent = [(1, 11)] ∧ w.reported = [(2, 12), (3, 13), (1, 11)] ∧ w.stoping = true ∧ w.wait = .idle ∧
      ¬Steps.Along (step 10) (Right 10) (start [1, 2, 3]) es := by
  refine ⟨by decide, by decide, by decide, by decide, fun h => ?_⟩
  have hwaits := h.2.2.1.waits (by decide)
  revert hwaits
  decide

/-- A shutdown of two services, the second of which stops later. -/
example :
    let es : List (Event Nat Nat) := [.finishInit 1 (some 11), .finishInit 2 (some 12),
      .stop [(2, some 12), (1, some 11)], .stop [], .gate, .stoped 11, .wake [1, 2], .answer [], .answer [], .stoped 12,
        .wake [2, 1], .answer [], .answer []]
    let w := es.foldl (step 10) (start [1, 2])
    w.sent = [(2, 12), (1, 11)] ∧ w.resets = 1 ∧ w.wait = .done := by decide

end World
end ServerStop
end Sncpp
