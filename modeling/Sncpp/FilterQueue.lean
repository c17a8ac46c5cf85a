import Mathlib.Data.List.AList
import Mathlib.Data.String.Basic
import Sncpp.Steps
import Sncpp.Zset
/-!
# FilterQueue — the deduplicating queue with ids that are numbers or strings (`filterList`)

`push`, `remove` and `pop` take an id as its text, `get` and `has` as it is given; `dataList` holds the data of an id
and `sortSet` the time of its last push.
-/
namespace Sncpp
namespace FilterQueue

variable {ν κ δ S : Type} [DecidableEq ν] [LinearOrder κ] [LinearOrder S]

inductive Id (ν κ : Type) where
  | number (n : ν)
  | string (s : κ)
deriving DecidableEq

def tostring (text : ν → κ) : Id ν κ → κ
  | .number n => text n
  | .string s => s

/-- Data that is not nil. -/
inductive Data (δ : Type) where
  | false
  | data (d : δ)

structure Queue (ν κ δ S : Type) [LinearOrder κ] [LinearOrder S] where
  dataList : AList (fun _ : Id ν κ => Data δ)
  sortSet : Zset S κ

namespace Queue

def new : Queue ν κ δ S := ⟨∅, Zset.new⟩

variable (text : ν → κ) (q : Queue ν κ δ S)

def get (id : Id ν κ) : Option (Data δ) := q.dataList.lookup id

def has (id : Id ν κ) : Bool :=
  match q.dataList.lookup id with
  | some (.data _) => true
  | _ => false

/-- `push`; data of `none` is nil. -/
def push (now : S) (id : Id ν κ) (data : Option (Data δ)) : Queue ν κ δ S where
  dataList :=
    match data with
    | none => q.dataList.erase (.string (tostring text id))
    | some d => q.dataList.insert (.string (tostring text id)) d
  sortSet := q.sortSet.add now (tostring text id)

def remove (id : Id ν κ) : Option (Data δ) × Queue ν κ δ S :=
  let id := tostring text id
  if q.has (.string id) then
    (q.dataList.lookup (.string id), ⟨q.dataList.erase (.string id), q.sortSet.rem id⟩)
  else (none, q)

/-- The ids in which `find` finds what is looked for, in the order of `pairs`. -/
def keys (order : List (Id ν κ) → List (Id ν κ)) (find : Id ν κ → Bool) : List (Id ν κ) :=
  (order q.dataList.keys).filter find

def pop : Option (Data δ) × Queue ν κ δ S :=
  match (q.sortSet.range 1).head? with
  | none => (none, q)
  | some id =>
    (q.dataList.lookup (.string id),
      { dataList := if q.has (.string id) then q.dataList.erase (.string id) else q.dataList
        sortSet := q.sortSet.rem id })

def count : Nat := q.sortSet.items.length

/-- The last push of an id that is in the queue: its time and its data. -/
def pushed (id : κ) : Option (S × Option (Data δ)) :=
  (q.sortSet.score id).map (fun now => (now, q.dataList.lookup (.string id)))

end Queue

inductive Event (ν κ δ S : Type) where
  | push (now : S) (id : Id ν κ) (data : Option (Data δ))
  | remove (id : Id ν κ)
  | pop
  | get (id : Id ν κ)
  | has (id : Id ν κ)
  | keys (find : Id ν κ → Bool)

variable (text : ν → κ)

def step (q : Queue ν κ δ S) : Event ν κ δ S → Queue ν κ δ S
  | .push now id data => q.push text now id data
  | .remove id => (q.remove text id).2
  | .pop => q.pop.2
  | .get _ => q
  | .has _ => q
  | .keys _ => q

/-- **`dataList` and `sortSet` hold the same ids**, and `count` is their number. -/
structure Synced (q : Queue ν κ δ S) : Prop where
  same : ∀ id, id ∈ q.dataList ↔ ∃ s, id = .string s ∧ q.sortSet.score s ≠ none
  count : q.count = q.dataList.keys.length

/-- What an operation does to the last pushes, and returns of them. -/
def Does (q : Queue ν κ δ S) (e : Event ν κ δ S) : Prop :=
  match e with
  | .push now id data => (step text q e).pushed = Function.update q.pushed (tostring text id) (some (now, data))
  | .remove id => (q.remove text id).1 = (q.pushed (tostring text id)).bind Prod.snd ∧
      (step text q e).pushed = Function.update q.pushed (tostring text id) none
  | .pop => (∀ id, q.pushed id = none) ∧ q.pop.1 = none ∧ (step text q e).pushed = q.pushed ∨
      ∃ id now data, q.pushed id = some (now, data) ∧
        (∀ id' now' data', q.pushed id' = some (now', data') → now ≤ now') ∧
        q.pop.1 = data ∧ (step text q e).pushed = Function.update q.pushed id none
  | .get id => q.get id = (q.pushed (tostring text id)).bind Prod.snd
  | .has id => q.has id = true ↔ q.pushed (tostring text id) ≠ none
  | .keys find => ∀ order : List (Id ν κ) → List (Id ν κ), (∀ l, (order l).Perm l) → (q.keys order find).Nodup ∧
      ∀ id, id ∈ q.keys order find ↔ find id = true ∧ ∃ s, id = .string s ∧ q.pushed s ≠ none

/-- **An operation does what it says**, and leaves the same ids in both. -/
def Right (q : Queue ν κ δ S) (e : Event ν κ δ S) : Prop := Synced (step text q e) ∧ Does text q e

/-- An id that is queued is not asked for by its number; data is not nil, and not asked for while it is false. -/
def Fits (q : Queue ν κ δ S) : Event ν κ δ S → Prop
  | .push _ _ data => data.isSome
  | .remove id => q.dataList.lookup (.string (tostring text id)) ≠ some .false
  | .pop => ∀ id ∈ q.sortSet.range 1, q.dataList.lookup (.string id) ≠ some .false
  | .get (.number n) => .string (text n) ∉ q.dataList
  | .get (.string _) => True
  | .has (.number n) => .string (text n) ∉ q.dataList
  | .has (.string s) => q.dataList.lookup (.string s) ≠ some .false
  | .keys _ => True

namespace Queue

variable {q : Queue ν κ δ S}

theorem pushed_ne_none {s : κ} : q.pushed s ≠ none ↔ q.sortSet.score s ≠ none := by
  rw [pushed, Ne, Option.map_eq_none_iff]

theorem has_eq_true {id : Id ν κ} : q.has id = true ↔ id ∈ q.dataList ∧ q.dataList.lookup id ≠ some .false := by
  rw [has, ← AList.lookup_isSome]
  cases q.dataList.lookup id with
  | none => simp
  | some d => cases d <;> simp

omit [DecidableEq ν] in
theorem synced_of_same (h : ∀ id, id ∈ q.dataList ↔ ∃ s, id = .string s ∧ q.sortSet.score s ≠ none) : Synced q := by
  refine ⟨h, ?_⟩
  have hperm : (q.sortSet.items.map fun e => (Id.string (ofLex e).2 : Id ν κ)).Perm q.dataList.keys := by
    rw [List.perm_ext_iff_of_nodup ?_ q.dataList.keys_nodup]
    · intro id
      rw [← AList.mem_keys, h, List.mem_map]
      constructor
      · rintro ⟨e, he, rfl⟩
        refine ⟨(ofLex e).2, rfl, ?_⟩
        have hscore : q.sortSet.score (ofLex e).2 = some (ofLex e).1 := q.sortSet.score_eq_some.2 he
        rw [hscore]
        exact Option.some_ne_none _
      · rintro ⟨s, rfl, hs⟩
        obtain ⟨now, hnow⟩ := Option.ne_none_iff_exists'.1 hs
        exact ⟨toLex (now, s), q.sortSet.score_eq_some.1 hnow, rfl⟩
    · have hnodup := q.sortSet.one.map (f := (Id.string : κ → Id ν κ)) fun _ _ heq => Id.string.inj heq
      rwa [List.map_map] at hnodup
  rw [count, ← hperm.length_eq, List.length_map]

end Queue

theorem pushed_push (q : Queue ν κ δ S) (now : S) (id : Id ν κ) (data : Option (Data δ)) :
    (q.push text now id data).pushed = Function.update q.pushed (tostring text id) (some (now, data)) := by
  funext s
  simp only [Queue.pushed, Queue.push, Zset.score_add, Function.update_apply]
  by_cases hs : s = tostring text id
  · rw [if_pos hs, if_pos hs, hs, Option.map_some]
    cases data <;> simp
  · have hne : (Id.string s : Id ν κ) ≠ .string (tostring text id) := fun heq => hs (Id.string.inj heq)
    rw [if_neg hs, if_neg hs]
    cases data <;> simp [AList.lookup_insert_ne hne, AList.lookup_erase_ne hne]

theorem synced_push {q : Queue ν κ δ S} (h : Synced q) (now : S) (id : Id ν κ) (data : Option (Data δ)) :
    Synced (q.push text now id data) ↔ data.isSome := by
  constructor
  · intro hsync
    have hmem : (Id.string (tostring text id) : Id ν κ) ∈ (q.push text now id data).dataList := by
      refine (hsync.same _).2 ⟨_, rfl, ?_⟩
      simp only [Queue.push, Zset.score_add, if_true]
      exact Option.some_ne_none now
    cases data with
    | none => exact absurd rfl (AList.mem_erase.1 hmem).1
    | some d => rfl
  · intro hdata
    obtain ⟨d, rfl⟩ := Option.isSome_iff_exists.1 hdata
    refine Queue.synced_of_same fun id' => ?_
    simp only [Queue.push, AList.mem_insert, h.same, Zset.score_add]
    constructor
    · rintro (rfl | ⟨s, rfl, hs⟩)
      · exact ⟨_, rfl, by simp⟩
      · refine ⟨s, rfl, ?_⟩
        split
        · exact Option.some_ne_none now
        · exact hs
    · rintro ⟨s, rfl, hs⟩
      by_cases heq : s = tostring text id
      · exact Or.inl (by rw [heq])
      · rw [if_neg heq] at hs
        exact Or.inr ⟨s, rfl, hs⟩

theorem synced_out {q : Queue ν κ δ S} (h : Synced q) (s : κ) :
    Synced (⟨q.dataList.erase (.string s), q.sortSet.rem s⟩ : Queue ν κ δ S) ∧
      (⟨q.dataList.erase (.string s), q.sortSet.rem s⟩ : Queue ν κ δ S).pushed = Function.update q.pushed s none := by
  refine ⟨Queue.synced_of_same fun id => ?_, funext fun s' => ?_⟩
  · simp only [AList.mem_erase, h.same, Zset.score_rem]
    constructor
    · rintro ⟨hne, s', rfl, hs'⟩
      refine ⟨s', rfl, ?_⟩
      rwa [if_neg fun heq => hne (by rw [heq])]
    · rintro ⟨s', rfl, hs'⟩
      by_cases heq : s' = s
      · rw [if_pos heq] at hs'
        exact absurd rfl hs'
      · rw [if_neg heq] at hs'
        exact ⟨fun hid => heq (Id.string.inj hid), s', rfl, hs'⟩
  · simp only [Queue.pushed, Zset.score_rem, Function.update_apply]
    split
    · rfl
    · next hs =>
      have hne : (Id.string s' : Id ν κ) ≠ .string s := fun heq => hs (Id.string.inj heq)
      rw [AList.lookup_erase_ne hne]

namespace Synced

variable {q : Queue ν κ δ S}

theorem pushed_bind (h : Synced q) (s : κ) : (q.pushed s).bind Prod.snd = q.dataList.lookup (.string s) := by
  rw [Queue.pushed]
  cases hscore : q.sortSet.score s with
  | some now => rfl
  | none =>
    have hnot : (Id.string s : Id ν κ) ∉ q.dataList := by
      rw [h.same]
      rintro ⟨s', heq, hs'⟩
      rw [← Id.string.inj heq, hscore] at hs'
      exact hs' rfl
    exact (AList.lookup_eq_none.2 hnot).symm

theorem mem_string (h : Synced q) (s : κ) : (.string s : Id ν κ) ∈ q.dataList ↔ q.pushed s ≠ none := by
  rw [h.same, Queue.pushed_ne_none]
  constructor
  · rintro ⟨s', heq, hs'⟩
    rwa [Id.string.inj heq]
  · intro hs
    exact ⟨s, rfl, hs⟩

omit [DecidableEq ν] in
theorem not_mem_number (h : Synced q) (n : ν) : (.number n : Id ν κ) ∉ q.dataList := by
  rw [h.same]
  rintro ⟨s, heq, -⟩
  cases heq

theorem remove_iff (h : Synced q) (id : Id ν κ) :
    (Right text q (.remove id) ↔ Fits text q (.remove id)) ∧ (Fits text q (.remove id) → Synced (step text q (.remove id))) := by
  have hbind := h.pushed_bind (tostring text id)
  by_cases hhas : q.has (.string (tostring text id)) = true
  · have heq : q.remove text id = (q.dataList.lookup (.string (tostring text id)),
        ⟨q.dataList.erase (.string (tostring text id)), q.sortSet.rem (tostring text id)⟩) := if_pos hhas
    obtain ⟨hsync, hpushed⟩ := synced_out h (tostring text id)
    have hstep : Synced (step text q (.remove id)) := by rwa [step, heq]
    refine ⟨iff_of_true ⟨hstep, ?_⟩ (Queue.has_eq_true.1 hhas).2, fun _ => hstep⟩
    rw [Does, step, heq, hbind]
    exact ⟨rfl, hpushed⟩
  · have heq : q.remove text id = (none, q) := if_neg hhas
    have hstep : Synced (step text q (.remove id)) := by rwa [step, heq]
    refine ⟨?_, fun _ => hstep⟩
    have hfits : Fits text q (.remove id) ↔ (Id.string (tostring text id) : Id ν κ) ∉ q.dataList := by
      rw [Queue.has_eq_true, not_and, not_not] at hhas
      constructor
      · exact fun hfits hmem => hfits (hhas hmem)
      · intro hnot
        rw [Fits, AList.lookup_eq_none.2 hnot]
        exact (Option.some_ne_none _).symm
    rw [hfits, Right, and_iff_right hstep, Does, step, heq, hbind]
    constructor
    · rintro ⟨hnone, -⟩
      exact AList.lookup_eq_none.1 hnone.symm
    · intro hnot
      refine ⟨(AList.lookup_eq_none.2 hnot).symm, (Function.update_eq_self_iff.2 ?_).symm⟩
      by_contra hne
      exact hnot ((h.mem_string _).2 (Ne.symm hne))

theorem pop_iff (h : Synced q) :
    (Right text q .pop ↔ Fits text q .pop) ∧ (Fits text q .pop → Synced (step text q .pop)) := by
  cases hfirst : (q.sortSet.range 1).head? with
  | none =>
    have hnil : ∀ s, q.sortSet.score s = none := (q.sortSet.head?_range_eq_none).1 hfirst
    have heq : q.pop = (none, q) := by rw [Queue.pop, hfirst]
    have hstep : Synced (step text q .pop) := by rwa [step, heq]
    refine ⟨iff_of_true ⟨hstep, Or.inl ⟨fun s => ?_, by rw [heq], by rw [step, heq]⟩⟩ fun s hs => ?_, fun _ => hstep⟩
    · rw [Queue.pushed, hnil]
      rfl
    · rw [List.head?_eq_none_iff.1 hfirst] at hs
      cases hs
  | some s =>
    obtain ⟨now, hnow, hle⟩ := q.sortSet.head?_range hfirst
    have hrange : q.sortSet.range 1 = [s] := q.sortSet.range_one hfirst
    have hpushed : q.pushed s = some (now, q.dataList.lookup (.string s)) := by
      rw [Queue.pushed, hnow]
      rfl
    have hmem : (.string s : Id ν κ) ∈ q.dataList := (h.mem_string s).2 (by rw [hpushed]; exact Option.some_ne_none _)
    have hfits : Fits text q .pop ↔ q.dataList.lookup (.string s) ≠ some .false := by
      rw [Fits, hrange]
      exact List.forall_mem_singleton
    rw [hfits]
    by_cases hdata : q.dataList.lookup (.string s) = some .false
    · have hhas : ¬q.has (.string s) = true := fun hhas => (Queue.has_eq_true.1 hhas).2 hdata
      have heq : q.pop.2.dataList = q.dataList ∧ q.pop.2.sortSet = q.sortSet.rem s := by
        rw [Queue.pop, hfirst]
        exact ⟨if_neg hhas, rfl⟩
      refine ⟨iff_of_false (fun hright => ?_) (not_not.2 hdata), fun hne => absurd hdata hne⟩
      -- the id stays in `dataList`, and has left `sortSet`
      obtain ⟨s', hid, hs'⟩ := (hright.1.same (.string s)).1 (by rw [step, heq.1]; exact hmem)
      rw [← Id.string.inj hid, step, heq.2, Zset.score_rem, if_pos rfl] at hs'
      exact hs' rfl
    · have hhas : q.has (.string s) = true := Queue.has_eq_true.2 ⟨hmem, hdata⟩
      have heq : q.pop = (q.dataList.lookup (.string s), ⟨q.dataList.erase (.string s), q.sortSet.rem s⟩) := by
        rw [Queue.pop, hfirst]
        simp only [hhas, if_true]
      obtain ⟨hsync, hout⟩ := synced_out h s
      have hstep : Synced (step text q .pop) := by rwa [step, heq]
      refine ⟨iff_of_true ⟨hstep, Or.inr ⟨s, now, _, hpushed, fun s' now' data' hs' => ?_, by rw [heq], ?_⟩⟩ hdata,
        fun _ => hstep⟩
      · obtain ⟨now'', hnow'', hpair⟩ := Option.map_eq_some_iff.1 hs'
        rw [← (Prod.mk.inj hpair).1]
        exact hle s' now'' hnow''
      · rw [step, heq, hout]

theorem get_iff (h : Synced q) (id : Id ν κ) : Right text q (.get id) ↔ Fits text q (.get id) := by
  rw [Right, step, and_iff_right h, Does, h.pushed_bind, Queue.get]
  cases id with
  | number n =>
    rw [AList.lookup_eq_none.2 (h.not_mem_number n), eq_comm]
    exact AList.lookup_eq_none
  | string s => exact iff_of_true rfl trivial

theorem has_iff (h : Synced q) (id : Id ν κ) : Right text q (.has id) ↔ Fits text q (.has id) := by
  rw [Right, step, and_iff_right h, Does, ← h.mem_string, Queue.has_eq_true]
  cases id with
  | number n => simp only [Fits, h.not_mem_number n, false_and, false_iff, tostring]
  | string s =>
    refine ⟨fun hiff => ?_, fun hdata => and_iff_left hdata⟩
    by_cases hmem : (.string s : Id ν κ) ∈ q.dataList
    · exact (hiff.2 hmem).2
    · rw [Fits, AList.lookup_eq_none.2 hmem]
      exact (Option.some_ne_none _).symm

theorem keys_right (h : Synced q) (find : Id ν κ → Bool) : Right text q (.keys find) := by
  refine ⟨h, fun order hperm => ⟨?_, fun id => ?_⟩⟩
  · exact ((hperm _).nodup_iff.2 q.dataList.keys_nodup).filter _
  · rw [Queue.keys, List.mem_filter, (hperm _).mem_iff, ← AList.mem_keys, h.same, and_comm]
    simp only [Queue.pushed_ne_none]

theorem push_iff (h : Synced q) (now : S) (id : Id ν κ) (data : Option (Data δ)) :
    (Right text q (.push now id data) ↔ Fits text q (.push now id data)) ∧
      (Fits text q (.push now id data) → Synced (step text q (.push now id data))) := by
  have hsync := synced_push text h now id data
  refine ⟨⟨fun hright => hsync.1 hright.1, fun hdata => ⟨hsync.2 hdata, pushed_push text q now id data⟩⟩, hsync.2⟩

theorem step_iff (h : Synced q) (e : Event ν κ δ S) :
    (Right text q e ↔ Fits text q e) ∧ (Fits text q e → Synced (step text q e)) := by
  cases e with
  | push now id data => exact h.push_iff text now id data
  | remove id => exact h.remove_iff text id
  | pop => exact h.pop_iff text
  | get id => exact ⟨h.get_iff text id, fun _ => h⟩
  | has id => exact ⟨h.has_iff text id, fun _ => h⟩
  | keys find => exact ⟨iff_of_true (h.keys_right text find) trivial, fun _ => h⟩

end Synced

/-- **Each operation of a run does what it says exactly if each fits.** -/
theorem queue_iff_of_run (es : List (Event ν κ δ S)) :
    Steps.Along (step text) (Right text) (Queue.new : Queue ν κ δ S) es ↔
      Steps.Along (step text) (Fits text) (Queue.new : Queue ν κ δ S) es := by
  refine Steps.along_iff (I := Synced) (fun q e h => h.step_iff text e) es Queue.new ?_
  refine Queue.synced_of_same fun id => iff_of_false (AList.notMem_empty id) ?_
  rintro ⟨s, -, hs⟩
  exact hs rfl

theorem pushedNumber_missing : ¬Steps.Along (step (toString : ℤ → String)) (Right toString)
    (Queue.new : Queue ℤ String ℕ ℕ) [.push 5 (.number 1) (some (.data 7)), .get (.number 1)] := by
  rintro ⟨⟨hsync, -⟩, hget, -⟩
  exact ((hsync.get_iff toString (.number 1)).1 hget) ((AList.mem_insert _).2 (Or.inl rfl))

end FilterQueue
end Sncpp
