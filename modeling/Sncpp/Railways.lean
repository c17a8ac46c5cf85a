import Sncpp.AStar
import Sncpp.KeyMap
/-!
# Railways — the railway tables of the map and of its chunks

The tables that `MapSearch::Init` fills in `mapSearch.cpp`: for each station the stations it leads to and its owner, and
the same for the chunks of nine by nine cells.  The tables of the chunks are filled with `insert`, so that a chunk has the
railways of the first of its stations; a station that gets an owner gives it to its chunk, so that a chunk has the owner
that one of its stations was given last.
-/
namespace Sncpp
namespace AStar

open KeyMap

def getKey (x y : Int) : Int := y * MOD + x
def xyToChunckKey (x y : Int) : Int := y.tdiv 9 * MOD + x.tdiv 9
def xToChunckX (x : Int) : Int := x % 2 ^ 32 / 9
def keyToChunckKey (key : Int) : Int := xyToChunckKey (key.tmod MOD) (key.tdiv MOD)

structure Rails where
  railway : List (Int × List Railway)
  railwayaid : List (Int × Nat)
  chunckrailway : List (Int × List Railway)
  chunckrailwayaid : List (Int × Nat)

namespace Rails

def unpack (id : Int) : Railway :=
  let y := id.tdiv MOD - 1
  let x := id.tmod MOD - 1
  ⟨getKey x y, x, y⟩

def leads (p : List (Int × List Railway)) (r r' : Railway) : List (Int × List Railway) :=
  alter r.id (fun vec => if r'.id ≠ r.id then vec ++ [r'] else vec) (emplace r.id [] p)

/-- A line of the railway file: the stations lead to each other, and nobody owns them. -/
def readLine (t : List (Int × List Railway) × List (Int × Nat)) (ids : Int × Int) :
    List (Int × List Railway) × List (Int × Nat) :=
  let r₁ := unpack ids.1
  let r₂ := unpack ids.2
  (leads (leads t.1 r₁ r₂) r₂ r₁, emplace r₂.id 0 (emplace r₁.id 0 t.2))

def toChunck (r : Railway) : Railway := ⟨keyToChunckKey r.id, xToChunckX r.x, xToChunckX r.y⟩

/-- `Init`: the lines are read up to the first whose first id is not positive. -/
def init (lines : List (Int × Int)) : Rails :=
  let t := (lines.takeWhile (fun ids => 0 < ids.1)).foldl readLine ([], [])
  { railway := t.1
    railwayaid := t.2
    chunckrailway := collect keyToChunckKey (List.map toChunck) t.1
    chunckrailwayaid := collect keyToChunckKey id t.2 }

/-- The arguments of `SetRailwayAid`. -/
structure Call where
  x : Int
  y : Int
  aid : Nat

def setRailwayAid (rows : Nat) (t : Rails) (c : Call) : Rails × Int :=
  if c.x < 0 || c.x ≥ rows || c.y < 0 || c.y ≥ rows then (t, 0)
  else
    match t.railwayaid.lookup (getKey c.x c.y) with
    | none => (t, 0)
    | some _ =>
      let t := { t with railwayaid := alter (getKey c.x c.y) (fun _ => c.aid) t.railwayaid }
      match t.chunckrailwayaid.lookup (xyToChunckKey c.x c.y) with
      | none => (t, 0)
      | some _ =>
        ({ t with chunckrailwayaid := alter (xyToChunckKey c.x c.y) (fun _ => c.aid) t.chunckrailwayaid }, 1)

def run (rows : Nat) (t : Rails) (calls : List Call) : Rails := calls.foldl (fun t c => (setRailwayAid rows t c).1) t

def fine {n : Nat} (t : Rails) (subzone : Pos n → Int) (friendaid : Nat → List Nat) : Chart n :=
  ⟨subzone, t.railway, t.railwayaid, friendaid⟩

def coarse {m : Nat} (t : Rails) (subzone : Pos m → Int) (friendaid : Nat → List Nat) : Chart m :=
  ⟨subzone, t.chunckrailway, t.chunckrailwayaid, friendaid⟩

end Rails

def Chart.Leads {n : Nat} (c : Chart n) (k k' : Int) : Prop := ∃ vec, c.railway.lookup k = some vec ∧ ∃ r ∈ vec, r.id = k'

/-- **The railways of the chunks are those of their stations.** -/
structure Image {n m : Nat} (fine : Chart n) (coarse : Chart m) : Prop where
  edges : ∀ a b, coarse.Leads a b ↔ ∃ k k', keyToChunckKey k = a ∧ keyToChunckKey k' = b ∧ fine.Leads k k'
  usable : ∀ a aid, coarse.isUsableRailway a aid = true ↔ ∃ k, keyToChunckKey k = a ∧ fine.isUsableRailway k aid = true

namespace Rails

variable {t : Rails} {lines : List (Int × Int)} {rows : Nat} {calls : List Call}

def FirstLeads (t : Rails) : Prop :=
  ∀ k vec, t.railway.lookup k = some vec → ∀ r ∈ vec,
    ∃ first, t.railway.find? (fun e => keyToChunckKey e.1 = keyToChunckKey k) = some first ∧
      ∃ r' ∈ first.2, keyToChunckKey r'.id = keyToChunckKey r.id

theorem run_railway (rows : Nat) (t : Rails) (calls : List Call) :
    (run rows t calls).railway = t.railway ∧ (run rows t calls).chunckrailway = t.chunckrailway := by
  unfold run
  induction calls generalizing t with
  | nil => exact ⟨rfl, rfl⟩
  | cons c calls ih =>
    have hstep : (setRailwayAid rows t c).1.railway = t.railway ∧
        (setRailwayAid rows t c).1.chunckrailway = t.chunckrailway := by
      unfold setRailwayAid
      split
      · exact ⟨rfl, rfl⟩
      · split
        · exact ⟨rfl, rfl⟩
        · simp only
          split <;> exact ⟨rfl, rfl⟩
    rw [List.foldl_cons]
    exact ⟨(ih _).1.trans hstep.1, (ih _).2.trans hstep.2⟩

theorem leads_ordered {p : List (Int × List Railway)} (h : Ordered p) (r r' : Railway) : Ordered (leads p r r') :=
  h.emplace.alter _

theorem readLine_ordered (l : List (Int × Int)) : ∀ (p : List (Int × List Railway) × List (Int × Nat)),
    Ordered p.1 ∧ Ordered p.2 ∧ (∀ e ∈ p.2, e.2 = 0) →
    Ordered (l.foldl readLine p).1 ∧ Ordered (l.foldl readLine p).2 ∧ ∀ e ∈ (l.foldl readLine p).2, e.2 = 0 := by
  induction l with
  | nil => exact fun p h => h
  | cons ids l ih =>
    intro p ⟨h₁, h₂, h₃⟩
    refine ih _ ⟨leads_ordered (leads_ordered h₁ _ _) _ _, h₂.emplace.emplace, fun e he => ?_⟩
    rcases mem_emplace he with rfl | he
    · rfl
    rcases mem_emplace he with rfl | he
    · rfl
    · exact h₃ e he

theorem init_ordered (lines : List (Int × Int)) : Ordered (init lines).railway ∧ Ordered (init lines).railwayaid ∧
    ∀ e ∈ (init lines).railwayaid, e.2 = 0 :=
  readLine_ordered _ ([], []) ⟨List.Pairwise.nil, List.Pairwise.nil, fun e he => by cases he⟩

theorem edges_iff : (∀ a b, (∃ vec, (init lines).chunckrailway.lookup a = some vec ∧ ∃ r ∈ vec, r.id = b) ↔
      ∃ k k', keyToChunckKey k = a ∧ keyToChunckKey k' = b ∧
        ∃ vec, (init lines).railway.lookup k = some vec ∧ ∃ r ∈ vec, r.id = k') ↔ FirstLeads (init lines) := by
  have hchunck : ∀ a, (init lines).chunckrailway.lookup a =
      ((init lines).railway.find? (fun e => keyToChunckKey e.1 = a)).map (fun e => e.2.map toChunck) :=
    fun a => lookup_collect keyToChunckKey (List.map toChunck) (init lines).railway a
  constructor
  · intro h k vec hvec r hr
    obtain ⟨vec', hvec', r₀, hr₀, hid⟩ := (h (keyToChunckKey k) (keyToChunckKey r.id)).2
      ⟨k, r.id, rfl, rfl, vec, hvec, r, hr, rfl⟩
    rw [hchunck, Option.map_eq_some_iff] at hvec'
    obtain ⟨first, hfirst, rfl⟩ := hvec'
    obtain ⟨r', hr', rfl⟩ := List.mem_map.1 hr₀
    exact ⟨first, hfirst, r', hr', hid⟩
  · intro h a b
    constructor
    · rintro ⟨vec, hvec, r, hr, hid⟩
      rw [hchunck, Option.map_eq_some_iff] at hvec
      obtain ⟨first, hfirst, rfl⟩ := hvec
      obtain ⟨r', hr', rfl⟩ := List.mem_map.1 hr
      have ha := List.find?_some hfirst
      exact ⟨first.1, r'.id, of_decide_eq_true ha, hid, first.2,
        (init_ordered lines).1.lookup_of_mem (List.mem_of_find?_eq_some hfirst), r', hr', rfl⟩
    · rintro ⟨k, k', rfl, rfl, vec, hvec, r, hr, rfl⟩
      obtain ⟨first, hfirst, r', hr', hid⟩ := h k vec hvec r hr
      refine ⟨first.2.map toChunck, ?_, toChunck r', List.mem_map_of_mem hr', hid⟩
      rw [hchunck, hfirst]
      rfl

def counts (rows : Nat) (t : Rails) (c : Call) : Bool :=
  !(c.x < 0 || c.x ≥ rows || c.y < 0 || c.y ≥ rows) && (t.railwayaid.lookup (getKey c.x c.y)).isSome

def lastOn (rows : Nat) (t : Rails) (calls : List Call) (k : Int) : Option Call :=
  (calls.filter (fun c => counts rows t c && getKey c.x c.y == k)).getLast?

def lastIn (rows : Nat) (t : Rails) (calls : List Call) (a : Int) : Option Call :=
  (calls.filter (fun c => counts rows t c && xyToChunckKey c.x c.y == a)).getLast?

def given (c : Option Call) : Nat := (c.map Call.aid).getD 0

theorem getLast?_filter_concat {α : Type} (P : α → Bool) (l : List α) (x : α) :
    ((l ++ [x]).filter P).getLast? = if P x then some x else (l.filter P).getLast? := by
  rw [List.filter_append]
  by_cases hx : P x = true
  · rw [if_pos hx, List.filter_cons_of_pos hx, List.filter_nil, List.getLast?_concat]
  · rw [if_neg hx, List.filter_cons_of_neg hx, List.filter_nil, List.append_nil]

theorem run_owner (rows : Nat) (ht : ∀ k owner, t.railwayaid.lookup k = some owner → owner = 0)
    (ht' : ∀ a owner, t.chunckrailwayaid.lookup a = some owner → owner = 0) (calls : List Call) :
    (∀ k, (run rows t calls).railwayaid.lookup k =
      (t.railwayaid.lookup k).map (fun _ => given (lastOn rows t calls k))) ∧
    ∀ a, (run rows t calls).chunckrailwayaid.lookup a =
      (t.chunckrailwayaid.lookup a).map (fun _ => given (lastIn rows t calls a)) := by
  induction calls using List.reverseRecOn with
  | nil =>
    refine ⟨fun k => ?_, fun a => ?_⟩
    · cases h : t.railwayaid.lookup k with
      | none => exact h
      | some owner => exact h.trans (congrArg some (ht k owner h))
    · cases h : t.chunckrailwayaid.lookup a with
      | none => exact h
      | some owner => exact h.trans (congrArg some (ht' a owner h))
  | append_singleton calls c ih =>
    obtain ⟨ihk, iha⟩ := ih
    have hrun : run rows t (calls ++ [c]) = (setRailwayAid rows (run rows t calls) c).1 := by
      unfold run
      rw [List.foldl_append]
      rfl
    have hon : ∀ k, lastOn rows t (calls ++ [c]) k =
        if counts rows t c && getKey c.x c.y == k then some c else lastOn rows t calls k :=
      fun k => getLast?_filter_concat _ calls c
    have hin : ∀ a, lastIn rows t (calls ++ [c]) a =
        if counts rows t c && xyToChunckKey c.x c.y == a then some c else lastIn rows t calls a :=
      fun a => getLast?_filter_concat _ calls c
    have hidle : counts rows t c = false → (setRailwayAid rows (run rows t calls) c).1 = run rows t calls →
        (∀ k, (run rows t (calls ++ [c])).railwayaid.lookup k =
          (t.railwayaid.lookup k).map (fun _ => given (lastOn rows t (calls ++ [c]) k))) ∧
        ∀ a, (run rows t (calls ++ [c])).chunckrailwayaid.lookup a =
          (t.chunckrailwayaid.lookup a).map (fun _ => given (lastIn rows t (calls ++ [c]) a)) := by
      intro hc hsame
      rw [hrun, hsame]
      refine ⟨fun k => ?_, fun a => ?_⟩
      · rw [ihk, hon, hc, Bool.false_and, if_neg Bool.false_ne_true]
      · rw [iha, hin, hc, Bool.false_and, if_neg Bool.false_ne_true]
    by_cases hrange : (c.x < 0 || c.x ≥ rows || c.y < 0 || c.y ≥ rows) = true
    · refine hidle ?_ ?_
      · unfold counts
        rw [hrange]
        rfl
      · unfold setRailwayAid
        rw [if_pos hrange]
    cases hstation : t.railwayaid.lookup (getKey c.x c.y) with
    | none =>
      refine hidle ?_ ?_
      · unfold counts
        rw [hstation, Option.isSome_none, Bool.and_false]
      · unfold setRailwayAid
        rw [if_neg hrange, ihk, hstation]
        rfl
    | some owner =>
      have hc : counts rows t c = true := by
        unfold counts
        rw [hstation, Option.isSome_some, Bool.and_true, Bool.eq_false_iff.2 hrange]
        rfl
      have hfine : ∀ k, (alter (getKey c.x c.y) (fun _ => c.aid) (run rows t calls).railwayaid).lookup k =
          (t.railwayaid.lookup k).map (fun _ => given (lastOn rows t (calls ++ [c]) k)) := by
        intro k
        rw [lookup_alter, ihk, hon, hc, Bool.true_and]
        by_cases hk : k = getKey c.x c.y
        · subst hk
          rw [if_pos rfl, beq_self_eq_true, if_pos rfl, Option.map_map]
          rfl
        · rw [if_neg hk, beq_false_of_ne (Ne.symm hk), if_neg Bool.false_ne_true]
      have hcoarse : ∀ a, a ≠ xyToChunckKey c.x c.y →
          lastIn rows t (calls ++ [c]) a = lastIn rows t calls a := by
        intro a ha
        rw [hin, hc, Bool.true_and, beq_false_of_ne (Ne.symm ha), if_neg Bool.false_ne_true]
      rw [hrun]
      unfold setRailwayAid
      rw [if_neg hrange, ihk, hstation]
      simp only [Option.map_some]
      split
      · next hnone =>
        refine ⟨hfine, fun a => ?_⟩
        by_cases ha : a = xyToChunckKey c.x c.y
        · have hout : (t.chunckrailwayaid.lookup a).map (fun _ => given (lastIn rows t calls a)) = none :=
            (iha a).symm.trans (ha ▸ hnone)
          rw [Option.map_eq_none_iff] at hout
          rw [iha, hout]
          rfl
        · rw [iha, hcoarse a ha]
      · refine ⟨hfine, fun a => ?_⟩
        rw [lookup_alter, iha]
        by_cases ha : a = xyToChunckKey c.x c.y
        · subst ha
          rw [if_pos rfl, hin, hc, beq_self_eq_true, Option.map_map]
          rfl
        · rw [if_neg ha, hcoarse a ha]

def mayUse (friendaid : Nat → List Nat) (aid owner : Nat) : Bool :=
  aid > 0 && (owner == aid || (friendaid aid).contains owner)

theorem isUsableRailway_eq {n : Nat} (c : Chart n) (key : Int) (aid : Nat) :
    c.isUsableRailway key aid = true ↔ ∃ owner, c.railwayaid.lookup key = some owner ∧
      mayUse c.friendaid aid owner = true := by
  unfold Chart.isUsableRailway mayUse
  by_cases haid : aid > 0
  · rw [if_pos haid]
    cases c.railwayaid.lookup key with
    | none => simp
    | some owner => simp [haid]
  · simp [haid]

/-- **Every station's users may use the owner that its chunk has.**  On a map so wide that ids run together a chunk may also
have its owner from elsewhere; its users must find a station in it. -/
structure Served (rows : Nat) (t : Rails) (calls : List Call) (friendaid : Nat → List Nat) : Prop where
  station : ∀ k, (t.railwayaid.lookup k).isSome = true → ∀ aid,
    mayUse friendaid aid (given (lastOn rows t calls k)) = true →
      mayUse friendaid aid (given (lastIn rows t calls (keyToChunckKey k))) = true
  elsewhere : ∀ k, (t.railwayaid.lookup k).isSome = true →
    (∀ c, lastIn rows t calls (keyToChunckKey k) = some c → keyToChunckKey (getKey c.x c.y) = keyToChunckKey k →
      lastOn rows t calls (getKey c.x c.y) ≠ some c) →
    ∀ aid, mayUse friendaid aid (given (lastIn rows t calls (keyToChunckKey k))) = true →
      ∃ k', (t.railwayaid.lookup k').isSome = true ∧ keyToChunckKey k' = keyToChunckKey k ∧
        mayUse friendaid aid (given (lastOn rows t calls k')) = true

theorem usable_iff (friendaid : Nat → List Nat) {n m : Nat} (subzone : Pos n → Int) (subzone' : Pos m → Int) :
    (∀ a aid, ((run rows (init lines) calls).coarse subzone' friendaid).isUsableRailway a aid = true ↔
      ∃ k, keyToChunckKey k = a ∧ ((run rows (init lines) calls).fine subzone friendaid).isUsableRailway k aid = true) ↔
    Served rows (init lines) calls friendaid := by
  obtain ⟨-, hord, hzero⟩ := init_ordered lines
  have hchunck : ∀ a, (init lines).chunckrailwayaid.lookup a =
      ((init lines).railwayaid.find? (fun e => keyToChunckKey e.1 = a)).map (fun e => e.2) :=
    fun a => lookup_collect keyToChunckKey id (init lines).railwayaid a
  have hmem : ∀ (l : List (Int × Nat)) k owner, l.lookup k = some owner → (k, owner) ∈ l := by
    intro l k owner h
    obtain ⟨l₁, l₂, rfl, -⟩ := List.lookup_eq_some_iff.1 h
    exact List.mem_append_right l₁ List.mem_cons_self
  obtain ⟨hfine, hcoarse⟩ := run_owner rows (t := init lines)
    (fun k owner h => hzero _ (hmem _ k owner h))
    (fun a owner h => by
      rw [hchunck, Option.map_eq_some_iff] at h
      obtain ⟨e, he, rfl⟩ := h
      exact hzero e (List.mem_of_find?_eq_some he)) calls
  have hk : ∀ k aid, ((run rows (init lines) calls).fine subzone friendaid).isUsableRailway k aid = true ↔
      ((init lines).railwayaid.lookup k).isSome = true ∧
        mayUse friendaid aid (given (lastOn rows (init lines) calls k)) = true := by
    intro k aid
    rw [isUsableRailway_eq]
    show (∃ owner, (run rows (init lines) calls).railwayaid.lookup k = some owner ∧ mayUse friendaid aid owner = true) ↔ _
    rw [hfine]
    cases (init lines).railwayaid.lookup k <;> simp
  have ha : ∀ a aid, ((run rows (init lines) calls).coarse subzone' friendaid).isUsableRailway a aid = true ↔
      (∃ k, ((init lines).railwayaid.lookup k).isSome = true ∧ keyToChunckKey k = a) ∧
        mayUse friendaid aid (given (lastIn rows (init lines) calls a)) = true := by
    intro a aid
    rw [isUsableRailway_eq]
    show (∃ owner, (run rows (init lines) calls).chunckrailwayaid.lookup a = some owner ∧
      mayUse friendaid aid owner = true) ↔ _
    rw [hcoarse, hchunck]
    cases hfind : (init lines).railwayaid.find? (fun e => keyToChunckKey e.1 = a) with
    | none =>
      refine ⟨nofun, fun ⟨⟨k, hk, hka⟩, _⟩ => ?_⟩
      obtain ⟨owner, howner⟩ := Option.isSome_iff_exists.1 hk
      have hno := List.find?_eq_none.1 hfind (k, owner) (hmem _ k owner howner)
      exact absurd hka (by simpa using hno)
    | some e =>
      have hea := List.find?_some hfind
      have hin : ((init lines).railwayaid.lookup e.1).isSome = true := by
        rw [hord.lookup_of_mem (List.mem_of_find?_eq_some hfind)]
        rfl
      simp only [Option.map_some, Option.some.injEq, exists_eq_left']
      exact ⟨fun h => ⟨⟨e.1, hin, of_decide_eq_true hea⟩, h⟩, fun h => h.2⟩
  constructor
  · intro h
    constructor
    · intro k hin aid huse
      exact ((ha _ _).1 ((h (keyToChunckKey k) aid).2 ⟨k, rfl, (hk k aid).2 ⟨hin, huse⟩⟩)).2
    · intro k hin _ aid huse
      obtain ⟨k', hk', huse'⟩ := (h (keyToChunckKey k) aid).1 ((ha _ _).2 ⟨⟨k, hin, rfl⟩, huse⟩)
      obtain ⟨hin', hmay⟩ := (hk k' aid).1 huse'
      exact ⟨k', hin', hk', hmay⟩
  · intro h a aid
    rw [ha]
    constructor
    · rintro ⟨⟨k, hin, rfl⟩, huse⟩
      by_cases hown : ∀ c, lastIn rows (init lines) calls (keyToChunckKey k) = some c →
          keyToChunckKey (getKey c.x c.y) = keyToChunckKey k → lastOn rows (init lines) calls (getKey c.x c.y) ≠ some c
      · obtain ⟨k', hin', hk', hmay⟩ := h.elsewhere k hin hown aid huse
        exact ⟨k', hk', (hk k' aid).2 ⟨hin', hmay⟩⟩
      · simp only [not_forall, not_not, exists_prop] at hown
        obtain ⟨c, hlast, hkey, hlast'⟩ := hown
        have hcount := List.mem_of_getLast? hlast
        rw [List.mem_filter, Bool.and_eq_true] at hcount
        have hcount := hcount.2.1
        unfold counts at hcount
        rw [Bool.and_eq_true] at hcount
        refine ⟨getKey c.x c.y, hkey, (hk _ aid).2 ⟨hcount.2, ?_⟩⟩
        rw [hlast']
        rwa [hlast] at huse
    · rintro ⟨k, rfl, huse⟩
      obtain ⟨hin, hmay⟩ := (hk k aid).1 huse
      exact ⟨⟨k, hin, rfl⟩, h.station k hin aid hmay⟩

end Rails

/-- **The railways of the chunks are those of the stations if and only if the first station of every chunk leads wherever
the others lead, and every station's users may use the owner that its chunk was given last.** -/
theorem image_of_run (lines : List (Int × Int)) (rows : Nat) (calls : List Rails.Call) (friendaid : Nat → List Nat)
    {n m : Nat} (subzone : Pos n → Int) (subzone' : Pos m → Int) :
    Image ((Rails.run rows (Rails.init lines) calls).fine subzone friendaid)
        ((Rails.run rows (Rails.init lines) calls).coarse subzone' friendaid) ↔
      Rails.FirstLeads (Rails.init lines) ∧ Rails.Served rows (Rails.init lines) calls friendaid := by
  obtain ⟨hfine, hcoarse⟩ := Rails.run_railway rows (Rails.init lines) calls
  rw [← Rails.edges_iff, ← Rails.usable_iff friendaid subzone subzone']
  have hedges : ∀ a b, (((Rails.run rows (Rails.init lines) calls).coarse subzone' friendaid).Leads a b ↔
      ∃ k k', keyToChunckKey k = a ∧ keyToChunckKey k' = b ∧
        ((Rails.run rows (Rails.init lines) calls).fine subzone friendaid).Leads k k') ↔
      ((∃ vec, (Rails.init lines).chunckrailway.lookup a = some vec ∧ ∃ r ∈ vec, r.id = b) ↔
        ∃ k k', keyToChunckKey k = a ∧ keyToChunckKey k' = b ∧
          ∃ vec, (Rails.init lines).railway.lookup k = some vec ∧ ∃ r ∈ vec, r.id = k') := by
    intro a b
    unfold Chart.Leads Rails.fine Rails.coarse
    rw [hfine, hcoarse]
  exact ⟨fun h => ⟨fun a b => (hedges a b).1 (h.edges a b), h.usable⟩,
    fun h => ⟨fun a b => (hedges a b).2 (h.1 a b), h.2⟩⟩

/-- Two stations of one chunk, with a railway between them, and one from the second to a station of another chunk. -/
def branch : Rails := Rails.init [(10001, 10002), (10002, 10021)]

theorem railway_hidden : ¬ Image ((Rails.run 27 branch []).fine (fun _ : Pos 27 => 1) (fun _ => []))
    ((Rails.run 27 branch []).coarse (fun _ : Pos 3 => 1) (fun _ => [])) := by
  intro h
  have hfine : ((Rails.run 27 branch []).fine (fun _ : Pos 27 => 1) (fun _ => [])).Leads 1 20 :=
    ⟨[⟨0, 0, 0⟩, ⟨20, 20, 0⟩], rfl, ⟨20, 20, 0⟩, List.mem_cons_of_mem _ List.mem_cons_self, rfl⟩
  obtain ⟨vec, hvec, r, hr, hid⟩ := (h.edges 0 2).2 ⟨1, 20, by decide, by decide, hfine⟩
  have hfirst : ((Rails.run 27 branch []).coarse (fun _ : Pos 3 => 1) (fun _ => [])).railway.lookup 0 =
    some [⟨0, 0, 0⟩] := rfl
  obtain rfl := Option.some.inj (hfirst.symm.trans hvec)
  rw [List.mem_singleton] at hr
  rw [hr] at hid
  cases hid

end AStar
end Sncpp
