import Mathlib.Logic.Function.Basic
/-!
# StoreKid — addressing the services, and the kingdom of a player (`playerDataLib`)

A kingdom runs `serviceNum` data services.  `address` picks one by hashing a module and an id, and its callers
disagree on the arguments: `getKidOfUid` hashes `uid`, while the subscriber and the mail loop of `logout` pass theirs
in the module's place and hash `uid .. "nil"`.
-/
namespace Sncpp
namespace Store

/-- `fnv_hash` of `lua-chash`: 32 bits, with the five rounds after the loop. -/
def fnvHash (str : List UInt8) : UInt32 :=
  let hash := str.foldl (fun hash c => (hash ^^^ c.toUInt32) * 16777619) (2166136261 : UInt32)
  let hash := hash + (hash <<< 13)
  let hash := hash ^^^ (hash >>> 7)
  let hash := hash + (hash <<< 3)
  let hash := hash ^^^ (hash >>> 17)
  hash + (hash <<< 5)

def bytes (s : String) : List UInt8 := s.toList.map (fun c => c.toNat.toUInt8)

def serviceNum : Nat := 8

/-- `playerDataLib:address`, as the service's number; a missing module is empty, a missing id is `"nil"`. -/
def address (module id : Option String) : Nat :=
  (fnvHash (bytes (module.getD "" ++ id.getD "nil"))).toNat % serviceNum + 1

def home (uid : Nat) : Nat := address none (some (toString uid))

/-- The service that the subscriber clears: `address(self.kid, uid)`. -/
def target (uid : Nat) : Nat := address (some (toString uid)) none

/-- The services that save their mail when `logout` runs on service `idx`: itself, and what the loop calls. -/
def mailReach (idx : Nat) : List Nat :=
  idx :: ((List.range' 1 serviceNum).filter (fun i => i ≠ idx)).map (fun i => address (some (toString i)) none)

def ReachesAll (idx : Nat) : Prop := ∀ i ∈ List.range' 1 serviceNum, (mailReach idx).count i = 1

instance (idx : Nat) : Decidable (ReachesAll idx) := inferInstanceAs (Decidable (∀ _ ∈ _, _))

/-- A lookup that misses the cache: where it runs, whom it looks up, and what it read once it has. -/
structure Lookup where
  svc : Nat
  uid : Nat
  read : Option (Option Nat)
deriving DecidableEq

/-- The caches of the services, what redis or the account table knows, the lookups under way, the messages published
and not handled, and the messages the subscriber sent. -/
structure Kids where
  kidOfUid : Nat → Nat → Option Nat
  found : Nat → Option Nat
  lookups : List Lookup
  channel : List Nat
  inbox : List (Nat × Nat)

def Kids.start (found : Nat → Option Nat) : Kids := ⟨fun _ _ => none, found, [], [], []⟩

def Kids.setKid (s : Kids) (i uid : Nat) (kid : Option Nat) : Kids :=
  { s with kidOfUid := Function.update s.kidOfUid i (Function.update (s.kidOfUid i) uid kid) }

inductive KidEvent where
  | getKidOfUid (i uid : Nat)
  | read (n : Nat)
  | store (n : Nat)
  | change (uid kid : Nat)
  | setKidOfUid (i uid kid : Nat)
  | handle
  | deliver

/-- One event.  A service other than `home uid` passes `getKidOfUid` on to it; a lookup reads, and stores what it read
when the answer is back; `setKidOfUid` with a kingdom changes an entry that is there, and publishes. -/
def Kids.step (s : Kids) : KidEvent → Kids
  | .getKidOfUid i uid =>
    if i = home uid ∧ 0 < uid ∧ s.kidOfUid i uid = none then { s with lookups := s.lookups ++ [⟨i, uid, none⟩] } else s
  | .read n => { s with lookups := s.lookups.modify n (fun l => { l with read := some (s.found l.uid) }) }
  | .store n =>
    match s.lookups[n]? with
    | some ⟨i, uid, some (some kid)⟩ => { s.setKid i uid (some kid) with lookups := s.lookups.eraseIdx n }
    | some ⟨_, _, some none⟩ => { s with lookups := s.lookups.eraseIdx n }
    | _ => s
  | .change uid kid => { s with found := Function.update s.found uid (some kid), channel := s.channel ++ [uid] }
  | .setKidOfUid i uid kid =>
    let s' := if (s.kidOfUid i uid).isSome then s.setKid i uid (some kid) else s
    { s' with found := Function.update s.found uid (some kid), channel := s.channel ++ [uid] }
  | .handle =>
    match s.channel with
    | [] => s
    | uid :: rest => { s with channel := rest, inbox := s.inbox ++ [(target uid, uid)] }
  | .deliver =>
    match s.inbox with
    | [] => s
    | (i, uid) :: rest => { s.setKid i uid none with inbox := rest }

def Kids.run : Kids → List KidEvent → Kids
  | s, [] => s
  | s, e :: es => (s.step e).run es

/-- Kingdoms are cached at home only, lookups run at home only, and the subscriber writes to `target`. -/
structure AtHome (s : Kids) : Prop where
  cached : ∀ i uid kid, s.kidOfUid i uid = some kid → i = home uid
  lookups : ∀ l ∈ s.lookups, l.svc = home l.uid
  inbox : ∀ m ∈ s.inbox, m.1 = target m.2

theorem setKid_apply (s : Kids) (i uid : Nat) (kid : Option Nat) (j u : Nat) :
    (s.setKid i uid kid).kidOfUid j u = if j = i ∧ u = uid then kid else s.kidOfUid j u := by
  unfold Kids.setKid
  by_cases hj : j = i
  · subst hj
    by_cases hu : u = uid
    · subst hu; simp
    · simp [hu]
  · simp [hj]

theorem AtHome.setKid {s : Kids} (h : AtHome s) (i uid : Nat) (kid : Option Nat) (hi : kid ≠ none → i = home uid) :
    AtHome (s.setKid i uid kid) := by
  refine ⟨fun j u k hk => ?_, h.lookups, h.inbox⟩
  rw [setKid_apply] at hk
  split at hk
  · rename_i hju
    rw [hju.1, hju.2]
    exact hi (by rw [hk]; simp)
  · exact h.cached j u k hk

theorem step_atHome {s : Kids} (h : AtHome s) (e : KidEvent) : AtHome (s.step e) := by
  cases e with
  | getKidOfUid i uid =>
    simp only [Kids.step]
    split
    · rename_i hc
      refine ⟨h.cached, fun l hl => ?_, h.inbox⟩
      rcases List.mem_append.1 hl with hl | hl
      · exact h.lookups l hl
      · rw [List.mem_singleton.1 hl]
        exact hc.1
    · exact h
  | read n =>
    refine ⟨h.cached, fun l hl => ?_, h.inbox⟩
    obtain ⟨m, hm⟩ := List.mem_iff_getElem?.1 hl
    simp only [Kids.step, List.getElem?_modify, Option.map_eq_map, Option.map_eq_some_iff] at hm
    obtain ⟨l', hl', rfl⟩ := hm
    have hmem := h.lookups l' (List.mem_iff_getElem?.2 ⟨m, hl'⟩)
    split
    · exact hmem
    · exact hmem
  | store n =>
    simp only [Kids.step]
    have hsub : ∀ l ∈ s.lookups.eraseIdx n, l.svc = home l.uid :=
      fun l hl => h.lookups l ((List.eraseIdx_sublist _ _).subset hl)
    split
    · rename_i i uid kid hl
      have hi := h.lookups _ (List.mem_iff_getElem?.2 ⟨n, hl⟩)
      exact ⟨(h.setKid i uid (some kid) (fun _ => hi)).cached, hsub, h.inbox⟩
    · exact ⟨h.cached, hsub, h.inbox⟩
    · exact h
  | change uid kid => exact ⟨h.cached, h.lookups, h.inbox⟩
  | setKidOfUid i uid kid =>
    simp only [Kids.step]
    split
    · rename_i hs
      obtain ⟨k, hk⟩ := Option.isSome_iff_exists.1 hs
      have h' := h.setKid i uid (some kid) (fun _ => h.cached i uid k hk)
      exact ⟨h'.cached, h'.lookups, h'.inbox⟩
    · exact ⟨h.cached, h.lookups, h.inbox⟩
  | handle =>
    simp only [Kids.step]
    split
    · exact h
    · refine ⟨h.cached, h.lookups, fun m hm => ?_⟩
      rcases List.mem_append.1 hm with hm | hm
      · exact h.inbox m hm
      · rw [List.mem_singleton.1 hm]
  | deliver =>
    simp only [Kids.step]
    split
    · exact h
    · rename_i i uid rest hin
      have h' := h.setKid i uid none (fun hn => absurd rfl hn)
      exact ⟨h'.cached, h'.lookups, fun m hm => h.inbox m (by rw [hin]; exact List.mem_cons_of_mem _ hm)⟩

theorem run_atHome : ∀ (es : List KidEvent) {s : Kids}, AtHome s → AtHome (s.run es)
  | [], _, h => h
  | e :: es, _, h => run_atHome es (step_atHome h e)

theorem start_atHome (found : Nat → Option Nat) : AtHome (.start found) :=
  ⟨nofun, nofun, nofun⟩

theorem not_reachesAll : ∀ idx ∈ List.range' 1 serviceNum, ¬ReachesAll idx := by
  decide +kernel

/-- **The clearing message clears exactly the players that hash alike.**  Once the message for `uid` is processed, some
service still has the old kingdom unless none had it or `target` and `home` agree; and the mail loop never reaches every
service once. -/
theorem cleared_iff_and_not_reachesAll (found : Nat → Option Nat) (es : List KidEvent) {i uid : Nat}
    {rest : List (Nat × Nat)} (hin : ((Kids.start found).run es).inbox = (i, uid) :: rest) (old : Nat) {idx : Nat}
    (hidx : idx ∈ List.range' 1 serviceNum) :
    ¬((∀ j, (((Kids.start found).run es).step .deliver).kidOfUid j uid ≠ some old) ∧ ReachesAll idx) ∧
      ((∀ j, (((Kids.start found).run es).step .deliver).kidOfUid j uid ≠ some old) ↔
        ((Kids.start found).run es).kidOfUid (home uid) uid ≠ some old ∨ target uid = home uid) := by
  refine ⟨fun h => not_reachesAll idx hidx h.2, ?_⟩
  have hhome := run_atHome es (start_atHome found)
  generalize (Kids.start found).run es = s at hin hhome
  have hi : i = target uid := hhome.inbox (i, uid) (by rw [hin]; exact List.mem_cons_self)
  have hstep : ∀ j, (s.step .deliver).kidOfUid j uid = if j = target uid then none else s.kidOfUid j uid := by
    intro j
    simp only [Kids.step, hin]
    rw [setKid_apply, hi]
    simp
  constructor
  · intro h
    by_cases ht : target uid = home uid
    · exact .inr ht
    · refine .inl (fun hc => h (home uid) ?_)
      rw [hstep, if_neg (Ne.symm ht)]
      exact hc
  · intro h j hj
    rw [hstep] at hj
    split at hj
    · cases hj
    · rename_i hjt
      have hjh := hhome.cached j uid old hj
      rcases h with h | h
      · exact h (hjh ▸ hj)
      · exact hjt (hjh.trans h.symm)

theorem cleared_iff_1201 : ((Kids.start (fun _ => some 1)).run
      [.getKidOfUid 4 1201, .read 0, .store 0, .change 1201 2, .handle]).inbox = [(1, 1201)] ∧
    ¬((∀ j, (((Kids.start (fun _ => some 1)).run
      [.getKidOfUid 4 1201, .read 0, .store 0, .change 1201 2, .handle]).step .deliver).kidOfUid j 1201 ≠ some 1) ∧
      ReachesAll 1) := by
  have hin : ((Kids.start (fun _ => some 1)).run
      [.getKidOfUid 4 1201, .read 0, .store 0, .change 1201 2, .handle]).inbox = [(1, 1201)] := by decide +kernel
  exact ⟨hin, (cleared_iff_and_not_reachesAll _ _ hin 1 (by decide)).1⟩

/-- **Player 1201 keeps the old kingdom**: service 4 cached kingdom 1, the change to 2 is cleared on service 1, and
service 4 still answers 1; from service 1 the mail loop reaches services 1 and 4 twice and services 2 and 7 not at all. -/
theorem old_kingdom_stays : ∃ es i rest, ((Kids.start (fun _ => some 1)).run es).inbox = (i, 1201) :: rest ∧
    (((Kids.start (fun _ => some 1)).run es).step .deliver).kidOfUid 4 1201 = some 1 ∧
    (((Kids.start (fun _ => some 1)).run es).step .deliver).found 1201 = some 2 ∧ ¬ReachesAll 1 :=
  ⟨[.getKidOfUid 4 1201, .read 0, .store 0, .change 1201 2, .handle], 1, [], by decide +kernel, by decide +kernel,
    by decide +kernel, not_reachesAll 1 (by decide)⟩

end Store
end Sncpp
