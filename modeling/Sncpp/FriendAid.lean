import Mathlib.Data.Finset.Sort
import Sncpp.AStar
import Sncpp.Steps
/-!
# FriendAid — which alliances let each other on their railways (`MapSearch::SetFriendAid`, `AStar::IsUsableRailway`)

A map leads from each alliance to the set of its friends, and an alliance without friends has no entry.  A call with
`isadd` puts each alliance into the set of the other.
-/
namespace Sncpp
namespace FriendAid

abbrev FriendMap := Nat → Option (Finset Nat)

/-- `p_friendaid->find`: `none` is `end()`. -/
def find (m : FriendMap) (aid : Nat) : Option Nat := if (m aid).isSome then some aid else none

/-- What stands behind an iterator, unless it is `end()` or its entry has been erased. -/
def deref (m : FriendMap) (it : Option Nat) : Option (Finset Nat) := it.bind m

def insertOne (m : FriendMap) (aid1 aid2 : Nat) : FriendMap :=
  match find m aid1 with
  | none => Function.update m aid1 (some {aid2})
  | some it => Function.update m it ((m it).map (insert aid2))

/-- Take `aid` out of the set of `of`, and if that leaves it empty erase the entry `it`. -/
def eraseOne (m : FriendMap) (of : Nat) (set : Finset Nat) (aid it : Nat) : FriendMap :=
  if aid ∈ set then
    let m := Function.update m of (some (set.erase aid))
    if set.erase aid = ∅ then Function.update m it none else m
  else m

def removeFirst (m : FriendMap) (aid1 aid2 : Nat) : FriendMap :=
  match m aid1 with
  | none => m
  | some set => eraseOne m aid1 set aid2 aid1

/-- A removal: `none` once an iterator without an entry is dereferenced. -/
def remove (m : FriendMap) (aid1 aid2 : Nat) : Option FriendMap :=
  let it1 := find m aid1
  let m := removeFirst m aid1 aid2
  match find m aid2 with
  | none => some m
  | some it2 =>
    match deref m it1 with
    | none => none
    | some set => some (eraseOne m aid1 set aid1 it2)

def setFriendAid (m : FriendMap) (aid1 aid2 : Nat) (isadd : Bool) : Option (FriendMap × Nat) :=
  if aid1 > 0 ∧ aid2 > 0 then
    if isadd then some (insertOne (insertOne m aid1 aid2) aid2 aid1, 1)
    else (remove m aid1 aid2).map (·, 1)
  else some (m, 0)

def Friends (m : FriendMap) (a b : Nat) : Prop := b ∈ (m a).getD ∅

instance (m : FriendMap) (a b : Nat) : Decidable (Friends m a b) := inferInstanceAs (Decidable (b ∈ (m a).getD ∅))

def Full (m : FriendMap) : Prop := ∀ a, m a ≠ some ∅

variable {m : FriendMap} {a b aid1 aid2 : Nat}

theorem friends_insertOne : Friends (insertOne m aid1 aid2) a b ↔ Friends m a b ∨ a = aid1 ∧ b = aid2 := by
  unfold Friends insertOne find
  rcases hm : m aid1 with _ | set <;> by_cases ha : a = aid1
  · subst ha
    simp [hm]
  · simp [ha]
  · subst ha
    simp [hm, or_comm]
  · simp [ha]

theorem Full.insertOne (h : Full m) : Full (insertOne m aid1 aid2) := by
  intro a
  unfold FriendAid.insertOne find
  rcases hm : m aid1 with _ | set <;> by_cases ha : a = aid1
  · subst ha
    simp
  · simpa [ha] using h a
  · subst ha
    simp [hm]
  · simpa [ha] using h a

theorem friends_removeFirst : Friends (removeFirst m aid1 aid2) a b ↔ Friends m a b ∧ ¬(a = aid1 ∧ b = aid2) := by
  unfold Friends removeFirst eraseOne
  rcases hm : m aid1 with _ | set
  · by_cases ha : a = aid1
    · subst ha
      simp [hm]
    · simp [ha]
  · by_cases ha : a = aid1
    · subst ha
      by_cases hmem : aid2 ∈ set
      · by_cases hempty : set.erase aid2 = ∅
        · have hset : b ∈ set → b = aid2 := fun hb => by
            by_contra hne
            exact Finset.notMem_empty b (hempty ▸ Finset.mem_erase.2 ⟨hne, hb⟩)
          simpa [hm, hmem, hempty] using hset
        · simp [hm, hmem, hempty, and_comm]
      · have hset : b ∈ set → b ≠ aid2 := fun hb heq => hmem (heq ▸ hb)
        simpa [hm, hmem] using hset
    · by_cases hmem : aid2 ∈ set <;> by_cases hempty : set.erase aid2 = ∅ <;> simp [ha, hmem, hempty]

theorem Full.removeFirst (h : Full m) : Full (removeFirst m aid1 aid2) := by
  intro a
  unfold FriendAid.removeFirst eraseOne
  rcases hm : m aid1 with _ | set
  · exact h a
  · by_cases ha : a = aid1
    · subst ha
      have hset : set ≠ ∅ := fun hset => h a (by rw [hm, hset])
      by_cases hmem : aid2 ∈ set <;> by_cases hempty : set.erase aid2 = ∅ <;> simp [hm, hmem, hempty, hset]
    · by_cases hmem : aid2 ∈ set <;> by_cases hempty : set.erase aid2 = ∅ <;> simpa [ha, hmem, hempty] using h a

theorem removeFirst_other (h : a ≠ aid1) : removeFirst m aid1 aid2 a = m a := by
  unfold removeFirst eraseOne
  rcases hm : m aid1 with _ | set
  · rfl
  · by_cases hmem : aid2 ∈ set <;> by_cases hempty : set.erase aid2 = ∅ <;> simp [h, hmem, hempty]

theorem removeFirst_of_not (h : ¬Friends m aid1 aid2) : removeFirst m aid1 aid2 = m := by
  unfold removeFirst eraseOne
  rcases hm : m aid1 with _ | set
  · rfl
  · have hmem : aid2 ∉ set := by simpa [Friends, hm] using h
    simp [hmem]

theorem remove_of_missing (h : m aid2 = none) : remove m aid1 aid2 = some (removeFirst m aid1 aid2) := by
  have hfirst : removeFirst m aid1 aid2 aid2 = none := by
    by_cases heq : aid2 = aid1
    · subst heq
      simp [removeFirst, h]
    · rw [removeFirst_other heq, h]
  simp [remove, find, hfirst]

structure Call where
  aid1 : Nat
  aid2 : Nat
  isadd : Bool
  pos1 : 0 < aid1
  pos2 : 0 < aid2

def Call.About (c : Call) (a b : Nat) : Prop := c.aid1 = a ∧ c.aid2 = b ∨ c.aid1 = b ∧ c.aid2 = a

instance (c : Call) (a b : Nat) : Decidable (c.About a b) :=
  inferInstanceAs (Decidable (c.aid1 = a ∧ c.aid2 = b ∨ c.aid1 = b ∧ c.aid2 = a))

def Added : List Call → Nat → Nat → Prop
  | [], _, _ => False
  | c :: log, a, b => if c.About a b then c.isadd = true else Added log a b

/-- The map, while every iterator that was dereferenced had an entry, and the calls so far from the last one back. -/
structure World where
  friendaid : Option FriendMap
  log : List Call

namespace World

def start : World := ⟨some (fun _ => none), []⟩

def step (w : World) (c : Call) : World :=
  ⟨w.friendaid.bind (fun m => (setFriendAid m c.aid1 c.aid2 c.isadd).map Prod.fst), c :: w.log⟩

end World

/-- The sets mirror each other and hold the pairs whose last call was an addition, and none of them is empty. -/
structure Mirrors (m : FriendMap) (log : List Call) : Prop where
  symm : ∀ a b, Friends m a b ↔ Friends m b a
  exact : ∀ a b, Friends m a b ↔ Added log a b
  full : Full m

/-- **After the call nothing missing has been dereferenced, and the sets mirror each other.** -/
def World.Right (w : World) (c : Call) : Prop := ∃ m, (w.step c).friendaid = some m ∧ Mirrors m (w.step c).log

/-- A call that is an addition, or about an alliance and itself, or whose second alliance has no entry, or whose first has
one with neither of the two in it. -/
def Call.Kept (c : Call) (m : FriendMap) : Prop :=
  c.isadd = true ∨ c.aid1 = c.aid2 ∨ m c.aid2 = none ∨
    m c.aid1 ≠ none ∧ ¬Friends m c.aid1 c.aid2 ∧ ¬Friends m c.aid1 c.aid1

instance (c : Call) (m : FriendMap) : Decidable (c.Kept m) :=
  inferInstanceAs (Decidable (c.isadd = true ∨ c.aid1 = c.aid2 ∨ m c.aid2 = none ∨
    m c.aid1 ≠ none ∧ ¬Friends m c.aid1 c.aid2 ∧ ¬Friends m c.aid1 c.aid1))

def World.Kept (w : World) (c : Call) : Prop :=
  match w.friendaid with
  | none => False
  | some m => c.Kept m

instance (w : World) (c : Call) : Decidable (w.Kept c) :=
  match h : w.friendaid with
  | none => .isFalse (by simp [World.Kept, h])
  | some m => decidable_of_iff (c.Kept m) (by simp [World.Kept, h])

variable {log : List Call} {c : Call}

theorem setFriendAid_add (h : c.isadd = true) : setFriendAid m c.aid1 c.aid2 c.isadd =
    some (insertOne (insertOne m c.aid1 c.aid2) c.aid2 c.aid1, 1) := by
  simp [setFriendAid, c.pos1, c.pos2, h]

theorem setFriendAid_remove (h : c.isadd = false) : (setFriendAid m c.aid1 c.aid2 c.isadd).map Prod.fst =
    remove m c.aid1 c.aid2 := by
  simp [setFriendAid, c.pos1, c.pos2, h, Function.comp_def]

theorem World.step_some {w : World} (h : w.friendaid = some m) : (w.step c).friendaid =
    (setFriendAid m c.aid1 c.aid2 c.isadd).map Prod.fst := by
  rw [World.step, h]
  rfl

theorem about_comm : c.About a b ↔ c.About b a := or_comm

theorem Mirrors.call {m' : FriendMap} (h : Mirrors m log) (hfull : Full m')
    (hpair : ∀ a b, Friends m' a b ↔ if c.About a b then c.isadd = true else Friends m a b) : Mirrors m' (c :: log) where
  symm a b := by
    rw [hpair, hpair, h.symm a b]
    simp only [about_comm (a := a)]
  exact a b := by
    rw [hpair, h.exact]
    rfl
  full := hfull

theorem Mirrors.add (h : Mirrors m log) (hadd : c.isadd = true) :
    Mirrors (insertOne (insertOne m c.aid1 c.aid2) c.aid2 c.aid1) (c :: log) := by
  refine h.call h.full.insertOne.insertOne fun a b => ?_
  rw [friends_insertOne, friends_insertOne, hadd]
  by_cases habout : c.About a b
  · rw [if_pos habout]
    rcases habout with ⟨rfl, rfl⟩ | ⟨rfl, rfl⟩ <;> simp
  · rw [if_neg habout]
    unfold Call.About at habout
    grind

theorem Mirrors.removeFirst (h : Mirrors m log) (hrem : c.isadd = false)
    (hback : c.aid1 = c.aid2 ∨ ¬Friends m c.aid2 c.aid1) : Mirrors (removeFirst m c.aid1 c.aid2) (c :: log) := by
  refine h.call h.full.removeFirst fun a b => ?_
  rw [friends_removeFirst, hrem]
  by_cases habout : c.About a b
  · rw [if_pos habout]
    rcases habout with ⟨rfl, rfl⟩ | ⟨rfl, rfl⟩
    · simp
    · rcases hback with heq | hnot
      · simp [heq]
      · simp [hnot]
  · rw [if_neg habout]
    unfold Call.About at habout
    grind

theorem remove_self (a : Nat) : remove m a a = some (FriendAid.removeFirst m a a) := by
  rcases hm : FriendAid.removeFirst m a a a with _ | set
  · simp [remove, find, hm]
  · have hlive : (m a).isSome = true := by
      rcases hma : m a with _ | set'
      · simp [FriendAid.removeFirst, hma] at hm
      · rfl
    have hnot : a ∉ set := by
      have hself : ¬Friends (FriendAid.removeFirst m a a) a a := by
        rw [friends_removeFirst]
        simp
      simpa [Friends, hm] using hself
    simp [remove, find, deref, hm, hlive, eraseOne, hnot]

theorem remove_apart (h₁ : m aid1 ≠ none) (h : ¬Friends m aid1 aid2) (hself : ¬Friends m aid1 aid1) :
    remove m aid1 aid2 = some m := by
  obtain ⟨set, hm⟩ := Option.ne_none_iff_exists'.1 h₁
  have hnot : aid1 ∉ set := by simpa [Friends, hm] using hself
  rcases hm2 : m aid2 with _ | set2
  · simp [remove, removeFirst_of_not h, find, hm2]
  · simp [remove, removeFirst_of_not h, find, deref, hm, hm2, eraseOne, hnot]

theorem Mirrors.step {w : World} (h : Mirrors m w.log) (hw : w.friendaid = some m) (hkept : c.Kept m) : w.Right c := by
  unfold World.Right
  rw [World.step_some hw]
  cases hadd : c.isadd with
  | true => exact ⟨_, by rw [← hadd, setFriendAid_add hadd]; rfl, h.add hadd⟩
  | false =>
    rw [← hadd, setFriendAid_remove hadd]
    rcases hkept with hkept | heq | hnone | ⟨h₁, hnot, hself⟩
    · rw [hadd] at hkept
      cases hkept
    · refine ⟨_, ?_, h.removeFirst hadd (.inl heq)⟩
      rw [← heq, remove_self]
    · refine ⟨_, remove_of_missing hnone, h.removeFirst hadd (.inr ?_)⟩
      simp [Friends, hnone]
    · refine ⟨_, remove_apart h₁ hnot hself, ?_⟩
      have hmirror := h.removeFirst hadd (.inr (fun hback => hnot ((h.symm _ _).1 hback)))
      rwa [removeFirst_of_not hnot] at hmirror

/-! ## A removal that does not meet its condition -/

theorem remove_live {set : Finset Nat} (h₂ : m aid2 ≠ none) (hne : aid1 ≠ aid2)
    (hset : FriendAid.removeFirst m aid1 aid2 aid1 = some set) :
    remove m aid1 aid2 = some (eraseOne (FriendAid.removeFirst m aid1 aid2) aid1 set aid1 aid2) := by
  have hlive : (m aid1).isSome = true := by
    rcases hm : m aid1 with _ | set'
    · simp [FriendAid.removeFirst, hm] at hset
    · rfl
  have h₂' : (m aid2).isSome = true := Option.isSome_iff_ne_none.2 h₂
  simp [remove, find, removeFirst_other hne.symm, h₂', hlive, deref, hset]

theorem remove_lost (h₂ : m aid2 ≠ none) (hne : aid1 ≠ aid2) (hset : FriendAid.removeFirst m aid1 aid2 aid1 = none) :
    remove m aid1 aid2 = none := by
  have h₂' : (m aid2).isSome = true := Option.isSome_iff_ne_none.2 h₂
  cases hlive : (m aid1).isSome <;> simp [remove, find, removeFirst_other hne.symm, h₂', hlive, deref, hset]

theorem eraseOne_other {set : Finset Nat} (hne : aid1 ≠ aid2) : eraseOne m aid1 set aid1 aid2 aid2 = m aid2 ∨
    eraseOne m aid1 set aid1 aid2 aid1 = some ∅ := by
  unfold eraseOne
  by_cases hmem : aid1 ∈ set
  · by_cases hempty : set.erase aid1 = ∅
    · exact .inr (by simp [hmem, hempty, hne])
    · exact .inl (by simp [hmem, hempty, hne.symm])
  · exact .inl (by simp [hmem])

theorem eraseOne_self {set : Finset Nat} (hne : aid1 ≠ aid2) (hmem : aid1 ∈ set) :
    ¬Friends (eraseOne m aid1 set aid1 aid2) aid1 aid1 := by
  by_cases hempty : set.erase aid1 = ∅ <;> simp [Friends, eraseOne, hmem, hempty, hne]

/-- **A removal that does not meet its condition goes wrong**: friends stay friends on one side, an alliance loses the
place in its own set, an empty set is kept, or a missing entry is dereferenced. -/
theorem Mirrors.not_right {w : World} (h : Mirrors m w.log) (hw : w.friendaid = some m) (hkept : ¬c.Kept m) :
    ¬w.Right c := by
  unfold Call.Kept at hkept
  push Not at hkept
  obtain ⟨hadd, hne, h₂, hrest⟩ := hkept
  rw [ne_eq, Bool.not_eq_true] at hadd
  rintro ⟨m', hm', hmirror⟩
  rw [World.step_some hw, setFriendAid_remove hadd] at hm'
  rcases hset : FriendAid.removeFirst m c.aid1 c.aid2 c.aid1 with _ | set
  · rw [remove_lost h₂ hne hset] at hm'
    cases hm'
  · rw [remove_live h₂ hne hset] at hm'
    cases hm'
    have hlog : (w.step c).log = c :: w.log := rfl
    rw [hlog] at hmirror
    by_cases hfriends : Friends m c.aid1 c.aid2
    · -- the first is still in the set of the second
      rcases eraseOne_other hne with hsame | hempty
      · have hpair : ¬Added (c :: w.log) c.aid2 c.aid1 := by simp [Added, Call.About, hadd]
        refine hpair ((hmirror.exact _ _).1 ?_)
        rw [Friends, hsame, removeFirst_other hne.symm]
        exact (h.symm _ _).1 hfriends
      · exact hmirror.full _ hempty
    · -- the first is taken out of its own set
      rw [removeFirst_of_not hfriends] at hset hmirror
      have hself := hrest (by simp [hset]) hfriends
      have hmem : c.aid1 ∈ set := by simpa [Friends, hset] using hself
      refine eraseOne_self hne hmem ((hmirror.exact _ _).2 ?_)
      have habout : ¬c.About c.aid1 c.aid1 := by simp [Call.About, hne.symm]
      rw [Added, if_neg habout]
      exact (h.exact _ _).1 hself

theorem Mirrors.start : Mirrors (fun _ => none) [] where
  symm a b := by simp [Friends]
  exact a b := by simp [Friends, Added]
  full a := by simp

theorem along_kept_iff : ∀ (calls : List Call) (w : World) (m : FriendMap), w.friendaid = some m → Mirrors m w.log →
    (Steps.Along World.step World.Kept w calls ↔ Steps.Along World.step World.Right w calls)
  | [], _, _, _, _ => Iff.rfl
  | c :: calls, w, m, hw, h => by
    have hkept : w.Kept c ↔ c.Kept m := by simp [World.Kept, hw]
    have hstep : w.Kept c ↔ w.Right c :=
      ⟨fun hc => h.step hw (hkept.1 hc), fun hr => hkept.2 (by_contra fun hc => h.not_right hw hc hr)⟩
    rw [Steps.Along, Steps.Along, hstep]
    refine and_congr_right fun hright => ?_
    obtain ⟨m', hm', hmirror⟩ := hright
    exact along_kept_iff calls (w.step c) m' hm' hmirror

/-- **The friend sets mirror each other, after every call of a run, exactly if every removal of it meets its condition.** -/
theorem mirrors_of_calls (calls : List Call) :
    Steps.Along World.step World.Right World.start calls ↔ Steps.Along World.step World.Kept World.start calls :=
  (along_kept_iff calls World.start _ rfl Mirrors.start).symm

/-- One of two friends of an alliance is to be its friend no more: the alliance is still in the set of that one. -/
theorem unfriend_one_sided : ¬∀ calls : List Call, Steps.Along World.step World.Right World.start calls := by
  intro h
  have hkept := (along_kept_iff _ World.start _ rfl Mirrors.start).2
    (h [⟨1, 2, true, by decide, by decide⟩, ⟨1, 3, true, by decide, by decide⟩, ⟨1, 2, false, by decide, by decide⟩])
  revert hkept
  decide

end FriendAid
end Sncpp
