import Mathlib.Algebra.Group.Nat.Range
/-!
# Handle — the handles and the names of the services (`skynet_handle`)

A context stands at the slot of its handle's low bits, and a table without a free slot is doubled.  Handles come round
after 24 bits.  The names are sorted for the binary search.  Each call is one section under the lock.
-/
namespace Sncpp.Handle

variable {κ ν : Type}

def handleMask : Nat := 0xffffff

def maxSlotSize : Nat := 0x40000000

/-- `struct handle_storage`.  A context stands with its handle, and a name with what it stands for. -/
structure HandleStorage (κ ν : Type) where
  harbor : Nat
  handleIndex : Nat
  /-- `slot_size` is a power of two. -/
  bits : Nat
  slot : Nat → Option (Nat × κ)
  nameCap : Nat
  name : List (ν × Nat)

/-- Why a call stops: at an assertion that bounds a table, or at an entry that is taken or outside. -/
inductive Fault
  | bound
  | broken

def HandleStorage.slotSize (s : HandleStorage κ ν) : Nat := 2 ^ s.bits

def HandleStorage.hash (s : HandleStorage κ ν) (handle : Nat) : Nat := handle &&& (s.slotSize - 1)

theorem HandleStorage.slotSize_bound (s : HandleStorage κ ν) : s.slotSize * 2 - 1 ≤ handleMask ↔ s.bits < 24 := by
  unfold slotSize handleMask
  refine ⟨fun h => Nat.lt_of_not_le fun hb => ?_, fun hb => ?_⟩
  · have := Nat.pow_le_pow_right Nat.two_pos hb
    omega
  · have := Nat.pow_le_pow_right Nat.two_pos (Nat.le_of_lt_succ hb)
    omega

def init (harbor : Nat) : HandleStorage κ ν := ⟨(harbor &&& 0xff) <<< 24, 1, 2, fun _ => none, 2, []⟩

variable (s : HandleStorage κ ν)

/-- The loop of `skynet_handle_register` over the slots. -/
def search : Nat → Nat → Option (Nat × Nat)
  | 0, _ => none
  | n + 1, handle =>
    let handle := if handleMask < handle then 1 else handle
    if (s.slot (s.hash handle)).isNone then some (handle, s.hash handle) else search n (handle + 1)

/-- One context moves to the slots of the doubled table. -/
def rehash (new : Nat → Option (Nat × κ)) (i : Nat) : Except Fault (Nat → Option (Nat × κ)) :=
  match s.slot i with
  | none => pure new
  | some c =>
    let hash := c.1 &&& (s.slotSize * 2 - 1)
    if (new hash).isSome then throw .broken else pure (Function.update new hash (some c))

/-- `skynet_handle_register`. -/
def register (s : HandleStorage κ ν) (ctx : κ) : Except Fault (Nat × HandleStorage κ ν) :=
  match search s s.slotSize s.handleIndex with
  | some (handle, hash) =>
    let h := handle ||| s.harbor
    pure (h, { s with slot := Function.update s.slot hash (some (h, ctx)), handleIndex := handle + 1 })
  | none =>
    if s.slotSize * 2 - 1 ≤ handleMask then do
      let slot ← (List.range s.slotSize).foldlM (rehash s) fun _ => none
      register { s with slot, bits := s.bits + 1 } ctx
    else throw .bound
termination_by 24 - s.bits
decreasing_by exact Nat.sub_lt_sub_left (s.slotSize_bound.1 ‹_›) (Nat.lt_succ_self _)

def grab (handle : Nat) : Option κ := ((s.slot (s.hash handle)).filter (·.1 = handle)).map (·.2)

/-- `skynet_handle_retire`, with the context that is released. -/
def retire (handle : Nat) : Option κ × HandleStorage κ ν :=
  match grab s handle with
  | some ctx => (some ctx, { s with
      slot := Function.update s.slot (s.hash handle) none, name := s.name.filter (·.2 ≠ handle) })
  | none => (none, s)

variable [LinearOrder ν]

/-- The binary search by `strcmp`: the handle of the name, or where it is to be inserted.  `stop` is after `end`. -/
def find (l : List (ν × Nat)) (name : ν) (start stop : Nat) : Except Fault (Nat ⊕ Nat) :=
  if start < stop then
    let mid := (start + stop - 1) / 2
    match l[mid]? with
    | none => throw .broken
    | some n =>
      if n.1 = name then pure (.inl n.2)
      else if n.1 < name then find l name (mid + 1) stop
      else find l name start mid
  else pure (.inr start)
termination_by stop - start

def findname (name : ν) : Except Fault Nat := do
  match ← find s.name name 0 s.name.length with
  | .inl handle => pure handle
  | .inr _ => pure 0

def insertNameBefore (name : ν) (handle before : Nat) : Except Fault (HandleStorage κ ν) :=
  let name := s.name.take before ++ (name, handle) :: s.name.drop before
  if s.nameCap ≤ s.name.length then
    if maxSlotSize < s.nameCap * 2 then throw .bound else pure { s with nameCap := s.nameCap * 2, name }
  else pure { s with name }

/-- `skynet_handle_namehandle`, with whether the name is bound. -/
def namehandle (handle : Nat) (name : ν) : Except Fault (Bool × HandleStorage κ ν) := do
  match ← find s.name name 0 s.name.length with
  | .inl _ => pure (false, s)
  | .inr before => pure (true, ← insertNameBefore s name handle before)

inductive Call (κ ν : Type)
  | register (ctx : κ)
  | retire (handle : Nat)
  | grab (handle : Nat)
  | findname (name : ν)
  | namehandle (handle : Nat) (name : ν)

inductive Answer (κ : Type)
  | handle (handle : Nat)
  | context (ctx : Option κ)
  | bound (ok : Bool)

def step : Call κ ν → Except Fault (Answer κ × HandleStorage κ ν)
  | .register ctx => do let r ← register s ctx; pure (.handle r.1, r.2)
  | .retire handle => let r := retire s handle; pure (.context r.1, r.2)
  | .grab handle => pure (.context (grab s handle), s)
  | .findname name => do pure (.handle (← findname s name), s)
  | .namehandle handle name => do let r ← namehandle s handle name; pure (.bound r.1, r.2)

def run (s : HandleStorage κ ν) : List (Call κ ν) → Except Fault (List (Answer κ) × HandleStorage κ ν)
  | [] => pure ([], s)
  | c :: cs => do
    let (a, s) ← step s c
    let (as, s) ← run s cs
    pure (a :: as, s)

/-! ## What the storage is for -/

/-- The services that are registered, and what the names stand for. -/
structure Directory (κ ν : Type) where
  live : Nat → Option κ
  named : ν → Option Nat

def Directory.empty : Directory κ ν := ⟨fun _ => none, fun _ => none⟩

/-- A service that retires loses its names. -/
def Directory.retire (d : Directory κ ν) (handle : Nat) : Directory κ ν :=
  if (d.live handle).isSome then
    ⟨Function.update d.live handle none, fun n => (d.named n).filter (· ≠ handle)⟩
  else d

/-- A new handle is of the harbor, not 0 and not in use; the first handle that takes a name keeps it. -/
inductive Directory.Step (harbor : Nat) : Directory κ ν → Call κ ν → Answer κ → Directory κ ν → Prop
  | register {d ctx h} : h % 2 ^ 24 ≠ 0 → h / 2 ^ 24 = harbor % 2 ^ 8 → d.live h = none →
    Step harbor d (.register ctx) (.handle h) { d with live := Function.update d.live h (some ctx) }
  | retire {d h} : Step harbor d (.retire h) (.context (d.live h)) (d.retire h)
  | grab {d h} : Step harbor d (.grab h) (.context (d.live h)) d
  | findname {d n} : Step harbor d (.findname n) (.handle ((d.named n).getD 0)) d
  | bound {d h n} : d.named n = none →
    Step harbor d (.namehandle h n) (.bound true) { d with named := Function.update d.named n (some h) }
  | taken {d h n} : d.named n ≠ none → Step harbor d (.namehandle h n) (.bound false) d

inductive Directory.Steps (harbor : Nat) : Directory κ ν → List (Call κ ν) → List (Answer κ) → Directory κ ν → Prop
  | nil {d} : Steps harbor d [] [] d
  | cons {d c a e cs as f} : Step harbor d c a e → Steps harbor e cs as f → Steps harbor d (c :: cs) (a :: as) f

/-- Every handle is in use, or more than 2^29 names are. -/
def Directory.Full (d : Directory κ ν) : Prop :=
  (∀ k, 1 ≤ k → k ≤ handleMask → ∃ h, h % 2 ^ 24 = k ∧ (d.live h).isSome) ∨
    ∃ l : List ν, l.Nodup ∧ maxSlotSize < l.length * 2 ∧ ∀ n ∈ l, d.named n ≠ none

/-- The storage is sound and shows this directory. -/
structure Shows (harbor : Nat) (s : HandleStorage κ ν) (d : Directory κ ν) : Prop where
  harbor : s.harbor = harbor % 2 ^ 8 * 2 ^ 24
  index : 1 ≤ s.handleIndex ∧ s.handleIndex ≤ handleMask + 1
  bits : s.bits ≤ 24
  slot : ∀ i c, s.slot i = some c → c.1 % 2 ^ s.bits = i
  sorted : s.name.Pairwise fun a b => a.1 < b.1
  live : d.live = grab s
  named : ∀ n h, d.named n = some h ↔ (n, h) ∈ s.name

theorem and_slotSize (b h : Nat) : h &&& (2 ^ b * 2 - 1) = h % 2 ^ (b + 1) := by
  rw [← Nat.pow_succ, Nat.and_two_pow_sub_one_eq_mod]

omit [LinearOrder ν]

theorem hash_eq (h : Nat) : s.hash h = h % 2 ^ s.bits := Nat.and_two_pow_sub_one_eq_mod _ _

theorem search_spec {s : HandleStorage κ ν} {x : Nat × Nat} : ∀ n h, 1 ≤ h → search s n h = some x →
    x.2 = x.1 % 2 ^ s.bits ∧ 1 ≤ x.1 ∧ x.1 ≤ handleMask ∧ s.slot (x.1 % 2 ^ s.bits) = none
  | n + 1, h, hh, hs => by
    have hk : 1 ≤ (if handleMask < h then 1 else h) ∧ (if handleMask < h then 1 else h) ≤ handleMask := by
      split
      · decide
      · omega
    unfold search at hs
    simp only [hash_eq] at hs
    generalize (if handleMask < h then 1 else h) = k at hs hk
    split at hs
    · cases hs
      exact ⟨rfl, hk.1, hk.2, Option.isNone_iff_eq_none.1 ‹_›⟩
    · exact search_spec n _ (Nat.le_add_left _ _) hs

/-- A search that fails has been to every handle that is not too far on. -/
theorem search_none {s : HandleStorage κ ν} {k : Nat} (hk : 1 ≤ k ∧ k ≤ handleMask) : ∀ n h, h ≤ handleMask + 1 →
    (if h ≤ k then k < h + n else handleMask + k < h + n) → search s n h = none → s.slot (k % 2 ^ s.bits) ≠ none
  | 0, h, hh, hd, _ => by split at hd <;> omega
  | n + 1, h, hh, hd, hs => by
    have hd' : ∀ j, j = (if handleMask < h then 1 else h) → j ≤ handleMask ∧
        (j = k ∨ if j + 1 ≤ k then k < j + 1 + n else handleMask + k < j + 1 + n) := by
      intro j hj
      split at hj <;> split at hd <;> split <;> omega
    unfold search at hs
    simp only [hash_eq] at hs
    generalize (if handleMask < h then 1 else h) = j at hs hd'
    obtain ⟨hj, hd⟩ := hd' j rfl
    split at hs
    · cases hs
    · obtain rfl | hd := hd
      · rwa [Option.isNone_iff_eq_none] at *
      · exact search_none hk n (j + 1) (Nat.succ_le_succ hj) hd hs

/-- What the doubled table has once the slots below `n` have moved. -/
def doubled (n : Nat) (j : Nat) : Option (Nat × κ) :=
  if j % 2 ^ s.bits < n then (s.slot (j % 2 ^ s.bits)).filter (·.1 % 2 ^ (s.bits + 1) = j) else none

theorem mod_mod_slots (a b : Nat) : a % 2 ^ (b + 1) % 2 ^ b = a % 2 ^ b :=
  Nat.mod_mod_of_dvd _ (Nat.pow_dvd_pow _ (Nat.le_succ b))

/-- **Doubling the table never finds a slot taken.** -/
theorem rehash_all (hs : ∀ i c, s.slot i = some c → c.1 % 2 ^ s.bits = i) :
    ∀ n, (List.range n).foldlM (rehash s) (fun _ => none) = .ok (doubled s n)
  | 0 => rfl
  | n + 1 => by
    rw [List.range_succ, List.foldlM_append, rehash_all hs n]
    change rehash s (doubled s n) n >>= pure = _
    unfold rehash
    cases hc : s.slot n with
    | none =>
      refine congrArg Except.ok (funext fun j => ?_)
      unfold doubled
      by_cases hj : j % 2 ^ s.bits = n
      · rw [hj, hc]; simp
      · grind
    | some c =>
      have hn := hs n c hc
      have hm := mod_mod_slots c.1 s.bits
      have hd : doubled s n (c.1 % 2 ^ (s.bits + 1)) = none := by
        unfold doubled
        rw [hm, if_neg (by omega)]
      simp only [HandleStorage.slotSize, and_slotSize, hd]
      refine congrArg Except.ok (funext fun j => ?_)
      unfold doubled Function.update
      by_cases hj : j = c.1 % 2 ^ (s.bits + 1)
      · subst hj
        rw [hm, hn, hc]
        simp [Option.filter]
      · by_cases hj' : j % 2 ^ s.bits = n
        · rw [hj', hc]
          simp [Option.filter, hj, Ne.symm hj, hj']
        · grind

theorem grab_eq (h : Nat) : grab s h = ((s.slot (h % 2 ^ s.bits)).filter (·.1 = h)).map (·.2) := by
  unfold grab
  rw [hash_eq]

/-- The doubled table has the same contexts. -/
theorem grab_doubled (h : Nat) :
    grab { s with slot := doubled s s.slotSize, bits := s.bits + 1 } h = grab s h := by
  rw [grab_eq, grab_eq]
  simp only [doubled, mod_mod_slots, HandleStorage.slotSize, Nat.mod_lt _ (Nat.two_pow_pos _), if_true]
  cases s.slot (h % 2 ^ s.bits) with
  | none => rfl
  | some c => grind [Option.filter]

variable {s} {harbor : Nat} {d : Directory κ ν}

theorem insertNameBefore_eq (n : ν) (h p : Nat) : 
    insertNameBefore s n h p = .error .bound ∧ maxSlotSize < s.name.length * 2 ∨
    ∃ cap, insertNameBefore s n h p = .ok { s with nameCap := cap, name := s.name.take p ++ (n, h) :: s.name.drop p } := by
  unfold insertNameBefore
  dsimp only
  split
  · split
    · exact .inl ⟨rfl, by omega⟩
    · exact .inr ⟨_, rfl⟩
  · exact .inr ⟨s.nameCap, rfl⟩

section Slots

variable [LinearOrder ν]

theorem Shows.doubled (H : Shows harbor s d) (hb : s.bits < 24) :
    Shows harbor { s with slot := doubled s s.slotSize, bits := s.bits + 1 } d := by
  refine ⟨H.harbor, H.index, hb, fun i c hc => ?_, H.sorted, ?_, H.named⟩
  · simp only [Handle.doubled] at hc
    split at hc
    · simpa using (Option.filter_eq_some_iff.1 hc).2
    · cases hc
  · rw [H.live]
    exact funext fun h => (grab_doubled s h).symm

theorem Shows.put (H : Shows harbor s d) {k : Nat} (hk : 1 ≤ k ∧ k ≤ handleMask ∧ s.slot (k % 2 ^ s.bits) = none)
    (ctx : κ) {h : Nat} (hh : h = k ||| s.harbor) :
    Shows harbor { s with slot := Function.update s.slot (k % 2 ^ s.bits) (some (h, ctx)), handleIndex := k + 1 }
        { d with live := Function.update d.live h (some ctx) } ∧
      h % 2 ^ 24 ≠ 0 ∧ h / 2 ^ 24 = harbor % 2 ^ 8 ∧ d.live h = none := by
  obtain ⟨h₁, h₂, hf⟩ := hk
  have h₃ : k < 2 ^ 24 := Nat.lt_succ_of_le h₂
  have hm : h % 2 ^ s.bits = k % 2 ^ s.bits := by
    have : s.harbor % 2 ^ s.bits = 0 := by
      rw [H.harbor]
      exact Nat.mod_eq_zero_of_dvd (Nat.dvd_mul_left_of_dvd (Nat.pow_dvd_pow 2 H.bits) _)
    rw [hh, Nat.or_mod_two_pow, this, Nat.or_zero]
  refine ⟨⟨H.harbor, ⟨Nat.le_add_left _ _, Nat.succ_le_succ h₂⟩, H.bits, fun i c hc => ?_, H.sorted, ?_, H.named⟩, ?_, ?_, ?_⟩
  · by_cases hi : i = k % 2 ^ s.bits
    · subst hi
      simp only [Function.update_self] at hc
      cases hc
      exact hm
    · simp only [Function.update_of_ne hi] at hc
      exact H.slot i c hc
  · refine funext fun x => ?_
    rw [grab_eq]
    simp only [H.live, Function.update_apply, grab_eq]
    grind [Option.filter]
  · rw [hh, Nat.or_mod_two_pow, H.harbor, Nat.mul_mod_left, Nat.or_zero]
    omega
  · rw [hh, Nat.or_div_two_pow, H.harbor, Nat.div_eq_of_lt h₃, Nat.zero_or, Nat.mul_div_cancel _ (Nat.two_pow_pos _)]
  · rw [H.live, grab_eq, hm, hf]
    rfl

/-- **A new handle is fresh**, or all handles are in use. -/
theorem Shows.register (ctx : κ) (H : Shows harbor s d) : register s ctx = .error .bound ∧ d.Full ∨
    ∃ r, register s ctx = .ok r ∧ Directory.Step harbor d (.register ctx) (.handle r.1)
      { d with live := Function.update d.live r.1 (some ctx) } ∧
      Shows harbor r.2 { d with live := Function.update d.live r.1 (some ctx) } := by
  fun_induction Handle.register s ctx with
  | case1 s k i hk h =>
    obtain ⟨rfl, hk⟩ : i = k % 2 ^ s.bits ∧ _ := search_spec _ _ H.index.1 hk
    obtain ⟨hs, h₁, h₂, h₃⟩ := H.put hk ctx (h := h) rfl
    exact .inr ⟨_, rfl, .register h₁ h₂ h₃, hs⟩
  | case2 s hk hb ih =>
    rw [rehash_all s H.slot]
    exact ih _ (H.doubled (s.slotSize_bound.1 hb))
  | case3 s hk hb =>
    have hb : s.bits = 24 := Nat.le_antisymm H.bits (Nat.le_of_not_lt fun h => hb (s.slotSize_bound.2 h))
    refine .inl ⟨rfl, .inl fun k h₁ h₂ => ?_⟩
    have hk' := search_none ⟨h₁, h₂⟩ _ _ H.index.2 (by
      simp only [HandleStorage.slotSize, hb, handleMask] at *
      split <;> omega) hk
    obtain ⟨c, hc⟩ := Option.ne_none_iff_exists'.1 hk'
    have hm := H.slot _ c hc
    rw [hb, Nat.mod_eq_of_lt (show k < 2 ^ 24 from Nat.lt_succ_of_le h₂)] at hc hm
    refine ⟨c.1, hm, ?_⟩
    rw [H.live, grab_eq, hb, hm, hc]
    simp [Option.filter]

theorem Shows.retire (H : Shows harbor s d) (h : Nat) :
    (retire s h).1 = d.live h ∧ Shows harbor (retire s h).2 (d.retire h) := by
  unfold Handle.retire Directory.retire
  rw [H.live]
  cases hg : grab s h with
  | none => exact ⟨rfl, H⟩
  | some ctx =>
    obtain ⟨c, hf, hc⟩ := Option.map_eq_some_iff.1 (grab_eq s h ▸ hg)
    obtain ⟨hf, hch⟩ := Option.filter_eq_some_iff.1 hf
    simp only [Option.isSome_some, if_true, hash_eq]
    refine ⟨trivial, H.harbor, H.index, H.bits, fun i c hc => ?_, H.sorted.filter _, funext fun x => ?_, fun n x => ?_⟩
    · by_cases hi : i = h % 2 ^ s.bits
      · simp [hi] at hc
      · exact H.slot i c (by simpa [hi] using hc)
    · simp only [Function.update_apply, grab_eq]
      grind [Option.filter]
    · rw [Option.filter_eq_some_iff, H.named, List.mem_filter]

end Slots

section Names

variable [LinearOrder ν]

/-- The binary search finds the name, or a place with the smaller names before it and the greater ones after. -/
theorem find_spec {l : List (ν × Nat)} (hl : l.Pairwise fun a b => a.1 < b.1) (n : ν) (a b : Nat) (hb : b ≤ l.length)
    (lo : ∀ i (hi : i < l.length), i < a → l[i].1 < n) (hi : ∀ i (hi : i < l.length), b ≤ i → n < l[i].1) :
    (∃ h, find l n a b = .ok (.inl h) ∧ (n, h) ∈ l) ∨
      ∃ p, find l n a b = .ok (.inr p) ∧ (∀ x ∈ l.take p, x.1 < n) ∧ ∀ x ∈ l.drop p, n < x.1 := by
  rw [List.pairwise_iff_getElem] at hl
  fun_induction find l n a b with
  | case1 a b hab mid hm =>
    rw [List.getElem?_eq_none_iff] at hm
    omega
  | case2 a b hab mid x hx hc =>
    exact .inl ⟨_, rfl, hc ▸ List.mem_of_getElem? hx⟩
  | case3 a b hab mid x hx hn hc ih =>
    obtain ⟨hm, rfl⟩ := List.getElem?_eq_some_iff.1 hx
    refine ih hb (fun i hi him => ?_) hi
    obtain h | rfl := Nat.lt_succ_iff_lt_or_eq.1 him
    · exact lt_trans (hl i mid _ _ h) hc
    · exact hc
  | case4 a b hab mid x hx hn hc ih =>
    replace hc := lt_of_le_of_ne (not_lt.1 hc) (Ne.symm hn)
    obtain ⟨hm, rfl⟩ := List.getElem?_eq_some_iff.1 hx
    refine ih (Nat.le_of_lt hm) lo fun i hi him => ?_
    obtain h | rfl := Nat.lt_or_eq_of_le him
    · exact lt_trans hc (hl mid i _ _ h)
    · exact hc
  | case5 a b hab =>
    refine .inr ⟨a, rfl, fun x hx => ?_, fun x hx => ?_⟩
    · obtain ⟨i, h, rfl⟩ := List.mem_take_iff_getElem.1 hx
      exact lo i _ (by omega)
    · obtain ⟨i, h, rfl⟩ := List.mem_drop_iff_getElem.1 hx
      exact hi _ _ (by omega)

theorem Shows.find (H : Shows harbor s d) (n : ν) :
    (∃ h, find s.name n 0 s.name.length = .ok (.inl h) ∧ d.named n = some h) ∨
      ∃ p, find s.name n 0 s.name.length = .ok (.inr p) ∧ d.named n = none ∧ (∀ x ∈ s.name.take p, x.1 < n) ∧
        ∀ x ∈ s.name.drop p, n < x.1 := by
  obtain ⟨h, hf, hm⟩ | ⟨p, hf, lo, hi⟩ := find_spec H.sorted n 0 s.name.length (Nat.le_refl _)
    (fun _ _ h => absurd h (Nat.not_lt_zero _)) (fun _ h h' => absurd h (Nat.not_lt_of_le h'))
  · exact .inl ⟨h, hf, (H.named n h).2 hm⟩
  · refine .inr ⟨p, hf, Option.eq_none_iff_forall_ne_some.2 fun h hh => ?_, lo, hi⟩
    have hm := (H.named n h).1 hh
    rw [← List.take_append_drop p s.name, List.mem_append] at hm
    exact hm.elim (fun hm => lt_irrefl n (lo _ hm)) fun hm => lt_irrefl n (hi _ hm)

theorem Shows.findname (H : Shows harbor s d) (n : ν) : findname s n = .ok ((d.named n).getD 0) := by
  unfold Handle.findname
  obtain ⟨h, hf, hd⟩ | ⟨p, hf, hd, -⟩ := H.find n
  all_goals
    rw [hf, hd]
    rfl

theorem Shows.namehandle (H : Shows harbor s d) (h : Nat) (n : ν) : namehandle s h n = .error .bound ∧ d.Full ∨
    ∃ r e, namehandle s h n = .ok r ∧ Directory.Step harbor d (.namehandle h n) (.bound r.1) e ∧ Shows harbor r.2 e := by
  unfold Handle.namehandle
  obtain ⟨x, hf, hd⟩ | ⟨p, hf, hd, lo, hi⟩ := H.find n
  · rw [hf]
    exact .inr ⟨_, d, rfl, .taken (by simp [hd]), H⟩
  · obtain ⟨hc, hl⟩ | ⟨cap, hc⟩ := insertNameBefore_eq (s := s) n h p
    all_goals
      rw [hf]
      simp only [Except.bind, bind, hc]
    · refine .inl ⟨trivial, .inr ⟨s.name.map (·.1), ?_, by rwa [List.length_map], fun m hm => ?_⟩⟩
      · exact List.pairwise_map.2 (H.sorted.imp ne_of_lt)
      · obtain ⟨x, hx, rfl⟩ := List.mem_map.1 hm
        rw [(H.named x.1 x.2).2 hx]
        exact Option.some_ne_none _
    · refine .inr ⟨_, { d with named := Function.update d.named n (some h) }, rfl, .bound hd, H.harbor, H.index,
        H.bits, H.slot, ?_, H.live, fun m x => ?_⟩
      · have hs := H.sorted
        rw [← List.take_append_drop p s.name, List.pairwise_append] at hs
        refine List.pairwise_append.2 ⟨hs.1, List.pairwise_cons.2 ⟨hi, hs.2.1⟩, fun a ha b hb => ?_⟩
        obtain rfl | hb := List.mem_cons.1 hb
        · exact lo a ha
        · exact hs.2.2 a ha b hb
      · have hm := H.named m x
        have hn := H.named n
        rw [← List.take_append_drop p s.name] at hm
        simp only [List.mem_append, List.mem_cons, Function.update_apply, Prod.mk.injEq] at hm ⊢
        grind

end Names

/-! ## Runs -/

variable [LinearOrder ν]

theorem Shows.step (H : Shows harbor s d) (c : Call κ ν) : step s c = .error .bound ∧ d.Full ∨
    ∃ a s' e, step s c = .ok (a, s') ∧ Directory.Step harbor d c a e ∧ Shows harbor s' e := by
  cases c with
  | register ctx =>
    obtain ⟨hr, hd⟩ | ⟨r, hr, hs⟩ := H.register ctx
    all_goals simp only [Handle.step, hr]
    · exact .inl ⟨rfl, hd⟩
    · exact .inr ⟨_, _, _, rfl, hs⟩
  | retire h =>
    obtain ⟨ha, hs⟩ := H.retire h
    exact .inr ⟨_, _, _, rfl, ha ▸ .retire, hs⟩
  | grab h => exact .inr ⟨_, _, _, rfl, H.live ▸ .grab, H⟩
  | findname n =>
    simp only [Handle.step, H.findname]
    exact .inr ⟨_, _, _, rfl, .findname, H⟩
  | namehandle h n =>
    obtain ⟨hr, hd⟩ | ⟨r, e, hr, hs⟩ := H.namehandle h n
    all_goals simp only [Handle.step, hr]
    · exact .inl ⟨rfl, hd⟩
    · exact .inr ⟨_, _, _, rfl, hs⟩

theorem Shows.run (cs : List (Call κ ν)) : ∀ {s d}, Shows harbor s d →
    (run s cs = .error .bound ∧ ∃ pre as e, pre <+: cs ∧ Directory.Steps harbor d pre as e ∧ e.Full) ∨
      ∃ as s' e, run s cs = .ok (as, s') ∧ Directory.Steps harbor d cs as e ∧ Shows harbor s' e := by
  induction cs with
  | nil => exact fun H => .inr ⟨_, _, _, rfl, .nil, H⟩
  | cons c cs ih =>
    intro s d H
    obtain ⟨hs, hd⟩ | ⟨a, s', e, hs, hd, H'⟩ := H.step c
    · exact .inl ⟨by rw [Handle.run, hs]; rfl, [], [], d, List.nil_prefix, .nil, hd⟩
    · have hc : Handle.run s (c :: cs) = (Handle.run s' cs).bind fun r => .ok (a :: r.1, r.2) := by
        rw [Handle.run, hs]
        rfl
      obtain ⟨hr, pre, as, f, hp, hd', hf⟩ | ⟨as, t, f, hr, hd', H''⟩ := ih H'
      · exact .inl ⟨by rw [hc, hr]; rfl, c :: pre, a :: as, f, List.cons_prefix_cons.2 ⟨rfl, hp⟩, .cons hd hd', hf⟩
      · exact .inr ⟨a :: as, t, f, by rw [hc, hr]; rfl, .cons hd hd', H''⟩

end Sncpp.Handle
