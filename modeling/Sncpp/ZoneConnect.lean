import Mathlib.Data.List.AList
import Sncpp.Dfs
/-!
# ZoneConnect — from which zones an alliance can move its cities to which (`mapObjectMgr:isZoneConnect`)

Checkpoints join the zones of the map in pairs, and the alliance that owns an active one may pass there.  `init`
enters each checkpoint under both zones, and the search goes from zone to zone in the order in which `pairs`
enumerates the tables.
-/
namespace Sncpp
namespace ZoneConnect

variable {ζ ω α : Type} [DecidableEq ζ]

/-- A row of the table `zoneconnect`: a checkpoint and the two zones it joins. -/
structure Row (ζ ω : Type) where
  zone1 : ζ
  zone2 : ζ
  centerid : ω

abbrev Nexts (ζ ω : Type) := AList (fun _ : ζ => List ω)

abbrev Zones (ζ ω : Type) := AList (fun _ : ζ => Nexts ζ ω)

def insert (t : Zones ζ ω) (zone1 zone2 : ζ) (centerid : ω) : Zones ζ ω :=
  let nexts := (t.lookup zone1).getD ∅
  t.insert zone1 (nexts.insert zone2 ((nexts.lookup zone2).getD [] ++ [centerid]))

/-- The part of `mapObjectMgr:init` that fills `self.zoneconnect`. -/
def init (zoneconnect : List (Row ζ ω)) : Zones ζ ω :=
  zoneconnect.foldl (fun t v => insert (insert t v.zone1 v.zone2 v.centerid) v.zone2 v.zone1 v.centerid) ∅

structure Terr where
  isAct : Bool

structure MapObjectMgr (ζ ω α : Type) where
  zoneconnect : Zones ζ ω
  ownAidTerrRef : α → ω → Option Terr

namespace MapObjectMgr

variable (m : MapObjectMgr ζ ω α) (aid : α)

def act (objid : ω) : Bool := (m.ownAidTerrRef aid objid).any Terr.isAct

/-- What `pairs(self.zoneconnect[zoneid])` goes through, in some order. -/
def nexts (zoneid : ζ) : List (Σ _ : ζ, List ω) := ((m.zoneconnect.lookup zoneid).getD ∅).entries

def Order (order : ζ → List (Σ _ : ζ, List ω)) : Prop := ∀ zoneid, (order zoneid).Perm (m.nexts zoneid)

/-- The loop over the zones next to one; `rec` is the call of `isZoneConnect` for the next one. -/
def loop (e_zoneid : ζ) (rec : ζ → List ζ → Option (Bool × List ζ)) :
    List (Σ _ : ζ, List ω) → List ζ → Option (Bool × List ζ)
  | [], check => some (false, check)
  | ⟨zoneid, v⟩ :: rest, check =>
    if zoneid ∈ check then loop e_zoneid rec rest check
    else
      let check := zoneid :: check
      let ok := v.any (m.act aid)
      if ok then
        if zoneid = e_zoneid then some (true, check)
        else (rec zoneid check).bind fun r => if r.1 then some r else loop e_zoneid rec rest r.2
      else loop e_zoneid rec rest check

/-- `isZoneConnect` with a table `check`; the fuel bounds the depth of the calls. -/
def search (order : ζ → List (Σ _ : ζ, List ω)) (e_zoneid : ζ) : Nat → ζ → List ζ → Option (Bool × List ζ)
  | 0, _, _ => none
  | n + 1, s_zoneid, check =>
    if s_zoneid = e_zoneid then some (true, check)
    else m.loop aid e_zoneid (search order e_zoneid n) (order s_zoneid) check

/-- `mapObjectMgr:isZoneConnect`; `some false` where the source returns nothing. -/
def isZoneConnect (order : ζ → List (Σ _ : ζ, List ω)) (s_zoneid e_zoneid : ζ) : Option Bool :=
  (m.search aid order e_zoneid (m.zoneconnect.keys.length + 2) s_zoneid [s_zoneid]).map Prod.fst

end MapObjectMgr

def between (t : Zones ζ ω) (x y : ζ) : Option (List ω) := (t.lookup x).bind (·.lookup y)

theorem between_insert (t : Zones ζ ω) (x y x' y' : ζ) (id : ω) : between (insert t x y id) x' y' =
    if x' = x ∧ y' = y then some ((between t x y).getD [] ++ [id]) else between t x' y' := by
  unfold between insert
  by_cases hx : x' = x
  · subst hx
    rw [AList.lookup_insert, Option.bind_some]
    by_cases hy : y' = y
    · subst hy
      rw [AList.lookup_insert, if_pos ⟨rfl, rfl⟩]
      cases t.lookup x' <;> simp
    · rw [AList.lookup_insert_ne hy]
      cases t.lookup x' <;> simp [hy]
  · rw [AList.lookup_insert_ne hx]
    simp [hx]

def Row.Joins (v : Row ζ ω) (x y : ζ) : Prop := v.zone1 = x ∧ v.zone2 = y ∨ v.zone1 = y ∧ v.zone2 = x

omit [DecidableEq ζ] in
theorem Row.Joins.symm {v : Row ζ ω} {x y : ζ} (h : v.Joins x y) : v.Joins y x := Or.symm h

/-- The table after some rows: `P` says which checkpoints stand between which zones. -/
structure Holds (t : Zones ζ ω) (P : ζ → ζ → ω → Prop) : Prop where
  ids : ∀ x y ids, between t x y = some ids → ∀ id, id ∈ ids ↔ P x y id
  found : ∀ x y id, P x y id → (between t x y).isSome = true
  full : ∀ x y ids, between t x y = some ids → ids ≠ []

theorem Holds.insert {t : Zones ζ ω} {P : ζ → ζ → ω → Prop} (h : Holds t P) (x y : ζ) (id : ω) :
    Holds (insert t x y id) (fun x' y' id' => P x' y' id' ∨ x' = x ∧ y' = y ∧ id' = id) where
  ids x' y' ids hids id' := by
    rw [between_insert] at hids
    split_ifs at hids with hxy
    · obtain ⟨rfl, rfl⟩ := hxy
      cases hids
      rcases hb : between t x' y' with _ | ids
      · have hnot : ¬P x' y' id' := fun hP => by simpa [hb] using h.found x' y' id' hP
        simp [hnot]
      · simp [h.ids x' y' ids hb id']
    · rw [h.ids x' y' ids hids id']
      have : ¬(x' = x ∧ y' = y ∧ id' = id) := fun hh => hxy ⟨hh.1, hh.2.1⟩
      simp [this]
  found x' y' id' hP := by
    rw [between_insert]
    split_ifs with hxy
    · rfl
    · rcases hP with hP | hP
      · exact h.found x' y' id' hP
      · exact absurd ⟨hP.1, hP.2.1⟩ hxy
  full x' y' ids hids := by
    rw [between_insert] at hids
    split_ifs at hids with hxy
    · cases hids
      simp
    · exact h.full x' y' ids hids

theorem Holds.congr {t : Zones ζ ω} {P Q : ζ → ζ → ω → Prop} (h : Holds t P) (hPQ : ∀ x y id, P x y id ↔ Q x y id) :
    Holds t Q := by
  have : P = Q := by
    funext x y id
    exact propext (hPQ x y id)
  exact this ▸ h

theorem holds_init (zoneconnect : List (Row ζ ω)) :
    Holds (init zoneconnect) (fun x y id => ∃ v ∈ zoneconnect, v.Joins x y ∧ v.centerid = id) := by
  have hfold : ∀ (rows : List (Row ζ ω)) (t : Zones ζ ω) (P : ζ → ζ → ω → Prop), Holds t P →
      Holds (rows.foldl (fun t v => insert (insert t v.zone1 v.zone2 v.centerid) v.zone2 v.zone1 v.centerid) t)
        (fun x y id => P x y id ∨ ∃ v ∈ rows, v.Joins x y ∧ v.centerid = id) := by
    intro rows
    induction rows with
    | nil => exact fun t P h => h.congr (by simp)
    | cons v rows ih =>
      intro t P h
      refine (ih _ _ ((h.insert v.zone1 v.zone2 v.centerid).insert v.zone2 v.zone1 v.centerid)).congr fun x y id => ?_
      simp only [List.exists_mem_cons_iff, Row.Joins]
      grind
  refine (hfold zoneconnect ∅ (fun _ _ _ => False) ⟨?_, ?_, ?_⟩).congr (by simp) <;> simp [between]

theorem mem_nexts {m : MapObjectMgr ζ ω α} {x y : ζ} {v : List ω} :
    ⟨y, v⟩ ∈ m.nexts x ↔ between m.zoneconnect x y = some v := by
  unfold MapObjectMgr.nexts between
  cases hx : m.zoneconnect.lookup x with
  | none => simp
  | some nexts => simp [AList.mem_lookup_iff.symm]

variable {m : MapObjectMgr ζ ω α} {aid : α} {order : ζ → List (Σ _ : ζ, List ω)} {s e : ζ}

variable (m aid order) in
/-- The zones next to one, and whether a checkpoint on the way is open. -/
def nbrs (z : ζ) : List (ζ × Bool) := (order z).map (fun a => (a.1, a.2.any (m.act aid)))

theorem loop_eq {rec rec' : ζ → List ζ → Option (Bool × List ζ)} (h : ∀ z check, rec z check = rec' z check) :
    ∀ (l : List (Σ _ : ζ, List ω)) (check : List ζ), m.loop aid e rec l check =
      Dfs.loop e rec' (l.map (fun a => (a.1, a.2.any (m.act aid)))) check
  | [], _ => rfl
  | ⟨z, v⟩ :: l, check => by
    simp only [MapObjectMgr.loop, List.map_cons, Dfs.loop, h, loop_eq h l]

theorem search_eq : ∀ (n : Nat) (z : ζ) (check : List ζ), m.search aid order e n z check =
    Dfs.search (nbrs m aid order) e n z check
  | 0, _, _ => rfl
  | n + 1, z, check => by
    rw [MapObjectMgr.search, Dfs.search, loop_eq (search_eq n)]
    rfl

theorem search_returns (horder : m.Order order) :
    ∃ r, Dfs.search (nbrs m aid order) e (m.zoneconnect.keys.length + 2) s [s] = some r := by
  have hnone : ∀ z, z ∉ m.zoneconnect.keys.toFinset → nbrs m aid order z = [] := by
    intro z hz
    rw [List.mem_toFinset, AList.mem_keys.symm, ← AList.lookup_eq_none] at hz
    have hperm := horder z
    have hempty : m.nexts z = [] := by
      rw [MapObjectMgr.nexts, hz]
      rfl
    rw [hempty, List.perm_nil] at hperm
    rw [nbrs, hperm, List.map_nil]
  refine Dfs.search_returns hnone _ s [s] (.inr ?_)
  have hcard := Finset.card_le_card (Finset.sdiff_subset (s := m.zoneconnect.keys.toFinset) (t := [s].toFinset))
  have hle := m.zoneconnect.keys.toFinset_card_le
  omega

theorem isZoneConnect_eq_iff {b : Bool} : m.isZoneConnect aid order s e = some b ↔
    ∃ c, Dfs.search (nbrs m aid order) e (m.zoneconnect.keys.length + 2) s [s] = some (b, c) := by
  rw [MapObjectMgr.isZoneConnect, search_eq, Option.map_eq_some_iff]
  simp

def mgr (rows : List (Row ζ ω)) (ref : α → ω → Option Terr) : MapObjectMgr ζ ω α := ⟨init rows, ref⟩

variable {rows : List (Row ζ ω)} {ref : α → ω → Option Terr} {x y : ζ}

/-- Some checkpoint of the alliance that joins the two zones is active. -/
def Open (rows : List (Row ζ ω)) (ref : α → ω → Option Terr) (aid : α) (x y : ζ) : Prop :=
  ∃ v ∈ rows, v.Joins x y ∧ (mgr rows ref).act aid v.centerid = true

def Reach (rows : List (Row ζ ω)) (ref : α → ω → Option Terr) (aid : α) : ζ → ζ → Prop :=
  Relation.ReflTransGen (Open rows ref aid)

theorem Open.symm (h : Open rows ref aid x y) : Open rows ref aid y x := by
  obtain ⟨v, hv, hjoins, hact⟩ := h
  exact ⟨v, hv, hjoins.symm, hact⟩

theorem mem_nbrs (horder : (mgr rows ref).Order order) {ok : Bool} : (y, ok) ∈ nbrs (mgr rows ref) aid order x ↔
    ∃ v, between (init rows) x y = some v ∧ v.any ((mgr rows ref).act aid) = ok := by
  unfold nbrs
  rw [List.mem_map]
  constructor
  · rintro ⟨⟨y', v⟩, hmem, heq⟩
    cases heq
    exact ⟨v, mem_nexts.1 ((horder x).mem_iff.1 hmem), rfl⟩
  · rintro ⟨v, hv, rfl⟩
    exact ⟨⟨y, v⟩, (horder x).mem_iff.2 (mem_nexts.2 hv), rfl⟩

theorem edge_iff (horder : (mgr rows ref).Order order) :
    Dfs.Edge (nbrs (mgr rows ref) aid order) x y ↔ Open rows ref aid x y := by
  have hinit := holds_init rows
  rw [Dfs.Edge, mem_nbrs horder]
  constructor
  · rintro ⟨ids, hids, hany⟩
    obtain ⟨id, hid, hact⟩ := List.any_eq_true.1 hany
    obtain ⟨v, hv, hjoins, rfl⟩ := (hinit.ids x y ids hids id).1 hid
    exact ⟨v, hv, hjoins, hact⟩
  · rintro ⟨v, hv, hjoins, hact⟩
    obtain ⟨ids, hids⟩ := Option.isSome_iff_exists.1 (hinit.found x y _ ⟨v, hv, hjoins, rfl⟩)
    exact ⟨ids, hids, List.any_eq_true.2 ⟨_, (hinit.ids x y ids hids _).2 ⟨v, hv, hjoins, rfl⟩, hact⟩⟩

theorem closed_iff (horder : (mgr rows ref).Order order) :
    Dfs.Closed (nbrs (mgr rows ref) aid order) x y ↔ (∃ v ∈ rows, v.Joins x y) ∧ ¬Open rows ref aid x y := by
  have hinit := holds_init rows
  rw [← edge_iff horder, Dfs.Closed, Dfs.Edge, mem_nbrs horder, mem_nbrs horder]
  constructor
  · rintro ⟨ids, hids, hany⟩
    refine ⟨?_, ?_⟩
    · obtain ⟨id, hid⟩ := List.exists_mem_of_ne_nil ids (hinit.full x y ids hids)
      obtain ⟨v, hv, hjoins, -⟩ := (hinit.ids x y ids hids id).1 hid
      exact ⟨v, hv, hjoins⟩
    · rintro ⟨ids', hids', hany'⟩
      rw [hids] at hids'
      cases hids'
      rw [hany] at hany'
      cases hany'
  · rintro ⟨⟨v, hv, hjoins⟩, hnot⟩
    obtain ⟨ids, hids⟩ := Option.isSome_iff_exists.1 (hinit.found x y _ ⟨v, hv, hjoins, rfl⟩)
    refine ⟨ids, hids, ?_⟩
    cases hany : ids.any ((mgr rows ref).act aid) with
    | true => exact absurd ⟨ids, hids, hany⟩ hnot
    | false => rfl

/-- The search comes back, and its answer is whether `e` can be reached. -/
def Answers (rows : List (Row ζ ω)) (ref : α → ω → Option Terr) (aid : α) (order : ζ → List (Σ _ : ζ, List ω)) (s e : ζ) :
    Prop := ∃ b, (mgr rows ref).isZoneConnect aid order s e = some b ∧ (b = true ↔ Reach rows ref aid s e)

/-- Two zones that can be reached from `s` and have a checkpoint between them have an open one. -/
def Thorough (rows : List (Row ζ ω)) (ref : α → ω → Option Terr) (aid : α) (s : ζ) : Prop :=
  ∀ x w, Reach rows ref aid s x → Reach rows ref aid s w → x ≠ w → (∃ v ∈ rows, v.Joins x w) → Open rows ref aid x w

theorem reflTransGen_edge (horder : (mgr rows ref).Order order) :
    Relation.ReflTransGen (Dfs.Edge (nbrs (mgr rows ref) aid order)) = Reach rows ref aid := by
  have : Dfs.Edge (nbrs (mgr rows ref) aid order) = Open rows ref aid := by
    funext x y
    exact propext (edge_iff horder)
  rw [this]
  rfl

theorem Thorough.answers (h : Thorough rows ref aid s) (horder : (mgr rows ref).Order order) :
    Answers rows ref aid order s e := by
  obtain ⟨⟨b, c⟩, hr⟩ : ∃ r, Dfs.search (nbrs (mgr rows ref) aid order) e _ s [s] = some r := search_returns horder
  refine ⟨b, isZoneConnect_eq_iff.2 ⟨c, hr⟩, fun hb => ?_, fun he => ?_⟩
  · rw [hb] at hr
    have hsound := Dfs.search_sound _ _ _ _ hr
    rwa [reflTransGen_edge horder] at hsound
  · refine Dfs.search_complete (fun x w hx hw hxw => ?_) ?_ hr
    · rw [reflTransGen_edge horder] at hx hw
      obtain ⟨hjoins, hnot⟩ := (closed_iff horder).1 hxw
      by_contra hne
      exact hnot (h x w hx hw (fun heq => hne heq.symm) hjoins)
    · rwa [reflTransGen_edge horder]

theorem exists_order {first : ζ → Option (ζ × Bool)} (h : ∀ z a, first z = some a → a ∈ nbrs m aid m.nexts z) :
    ∃ order, m.Order order ∧ ∀ z a, first z = some a → ∃ l, nbrs m aid order z = a :: l := by
  have hex : ∀ z, ∃ l : List (Σ _ : ζ, List ω), l.Perm (m.nexts z) ∧
      ∀ a, first z = some a → ∃ t, l.map (fun a => (a.1, a.2.any (m.act aid))) = a :: t := by
    intro z
    rcases hz : first z with _ | a
    · exact ⟨_, .refl _, fun a ha => by cases ha⟩
    · obtain ⟨entry, hmem, rfl⟩ := List.mem_map.1 (h z a hz)
      obtain ⟨l₁, l₂, hl⟩ := List.append_of_mem hmem
      refine ⟨entry :: (l₁ ++ l₂), ?_, fun a ha => ?_⟩
      · rw [hl]
        exact List.perm_middle.symm
      · cases ha
        exact ⟨_, rfl⟩
  choose order hperm hfirst using hex
  exact ⟨order, hperm, hfirst⟩

/-- **The answers for a zone are right in every order exactly if no two zones that can be reached from it are joined by
closed checkpoints only.** -/
theorem isZoneConnect_exact (rows : List (Row ζ ω)) (ref : α → ω → Option Terr) (aid : α) (s : ζ) :
    (∀ order, (mgr rows ref).Order order → ∀ e, Answers rows ref aid order s e) ↔ Thorough rows ref aid s := by
  refine ⟨fun h x w hx hw hne hjoins => ?_, fun h order horder e => h.answers horder⟩
  have hself : (mgr rows ref).Order (mgr rows ref).nexts := fun z => .refl _
  by_contra hnot
  have hopen : Relation.ReflTransGen (Dfs.Edge (nbrs (mgr rows ref) aid (mgr rows ref).nexts)) = Reach rows ref aid :=
    reflTransGen_edge hself
  have hsymm : ∀ z y, Dfs.Edge (nbrs (mgr rows ref) aid (mgr rows ref).nexts) z y →
      Dfs.Edge (nbrs (mgr rows ref) aid (mgr rows ref).nexts) y z :=
    fun z y hzy => (edge_iff hself).2 ((edge_iff hself).1 hzy).symm
  have hcsymm : ∀ z y, Dfs.Closed (nbrs (mgr rows ref) aid (mgr rows ref).nexts) z y →
      Dfs.Closed (nbrs (mgr rows ref) aid (mgr rows ref).nexts) y z := by
    intro z y hzy
    obtain ⟨⟨v, hv, hvz⟩, hzy⟩ := (closed_iff hself).1 hzy
    exact (closed_iff hself).2 ⟨⟨v, hv, hvz.symm⟩, fun hyz => hzy hyz.symm⟩
  obtain ⟨e, first, he, hmem, hblocked⟩ := Dfs.exists_blocked hsymm hcsymm hne (hopen ▸ hx) (hopen ▸ hw)
    ((closed_iff hself).2 ⟨hjoins, hnot⟩)
  obtain ⟨order, horder, hfirst⟩ := exists_order hmem
  obtain ⟨b, hb, hiff⟩ := h order horder e
  obtain ⟨c, hc⟩ := isZoneConnect_eq_iff.1 hb
  have hb := hblocked _ hfirst _ _ _ hc
  rw [hb] at hiff
  exact absurd (hiff.2 (hopen ▸ he)) (by decide)

def ring : List (Row Nat Nat) := [⟨1, 3, 11⟩, ⟨1, 2, 10⟩, ⟨3, 2, 12⟩]

def ringTerr (_ objid : Nat) : Option Terr := if objid = 10 then none else some ⟨true⟩

/-- The closed checkpoint between 1 and 2 is looked at first, and the way over 3 is not found. -/
theorem ring_hides : (mgr ring ringTerr).Order (mgr ring ringTerr).nexts ∧
    (mgr ring ringTerr).isZoneConnect 1 (mgr ring ringTerr).nexts 1 2 = some false ∧ Reach ring ringTerr 1 1 2 := by
  refine ⟨fun z => .refl _, by decide, .tail (b := 3) (.tail .refl ?_) ?_⟩
  · exact ⟨⟨1, 3, 11⟩, by simp [ring], .inl ⟨rfl, rfl⟩, by decide⟩
  · exact ⟨⟨3, 2, 12⟩, by simp [ring], .inl ⟨rfl, rfl⟩, by decide⟩

end ZoneConnect
end Sncpp
