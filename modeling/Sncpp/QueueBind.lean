import Mathlib.Data.List.TakeWhile
import Sncpp.QueueAoi
import Sncpp.Steps
/-!
# QueueBind — the index of marches by grid

A level's two records of where marches are, by grid and by march, agree in every run (`Paired`).  That they agree with the
march's own path, status and target takes more than the calls give: `updateQueue` looks at a march again only if it has
grids already, so that one which was added while following another is never bound, and not at all when `changeKeys` names
neither the path nor the status.
-/
namespace Sncpp
namespace QueueAoi

open Aoi (Board getCoordId)

variable {S : Static} {b : Board}

/-! ## The grids of a march are grids of the map -/

theorem mem_foldl_insert {α : Type} (f : α → Int) (k : Int) : ∀ (l : List α) (ret : List Int),
    k ∈ l.foldl (fun ret c => ret.insert (f c)) ret ↔ k ∈ ret ∨ ∃ c ∈ l, k = f c
  | [], ret => by simp
  | c :: l, ret => by
    rw [List.foldl_cons, mem_foldl_insert f k l, List.mem_insert_iff]
    simp only [List.mem_cons, exists_eq_or_imp]
    constructor
    · rintro ((h | h) | h)
      · exact .inr (.inl h)
      · exact .inl h
      · exact .inr (.inr h)
    · rintro (h | h | h)
      · exact .inl (.inr h)
      · exact .inl (.inl h)
      · exact .inr h

theorem mem_lineThroughGrids {ret : List Int} {g₀ g₁ : Nat × Nat} {k : Int} : k ∈ lineThroughGrids b ret g₀ g₁ ↔
    k ∈ ret ∨ ∃ c ∈ (Line.mk g₀.1 g₀.2 g₁.1 g₁.2).cells.takeWhile (fun c => b.isGrid (getCoordId c.1 c.2)),
      k = getCoordId c.1 c.2 := by
  unfold lineThroughGrids
  dsimp only
  rw [Line.walk_eq _ _ (Nat.lt_succ_self _)]
  exact mem_foldl_insert (fun c : Int × Int => getCoordId c.1 c.2) k _ ret

theorem isGrid_of_mem_legGrids {ret : List Int} {p q : Point} {k : Int} (h : k ∈ legGrids S b ret p q) :
    k ∈ ret ∨ b.isGrid k = true := by
  unfold legGrids at h
  split at h
  · dsimp only at h
    split at h
    · unfold railwayGrids at h
      rcases (mem_foldl_insert (fun k => k) k _ ret).1 h with h | ⟨c, hc, rfl⟩
      · exact .inl h
      · exact .inr (List.mem_takeWhile_imp hc)
    · exact .inl h
  · rcases mem_lineThroughGrids.1 h with h | ⟨c, hc, rfl⟩
    · exact .inl h
    · exact .inr (List.mem_takeWhile_imp (p := fun c : Int × Int => b.isGrid (getCoordId c.1 c.2)) hc)

theorem isGrid_of_mem_pathGrids {k : Int} : ∀ (path : List Point) {ret : List Int}, k ∈ pathGrids S b ret path →
    k ∈ ret ∨ b.isGrid k = true
  | [], ret, h => .inl h
  | [_], ret, h => .inl h
  | p :: q :: path, ret, h => by
    rcases isGrid_of_mem_pathGrids (q :: path) h with h | h
    · exact isGrid_of_mem_legGrids h
    · exact .inr h

theorem isGrid_of_mem_pointGrid {x y : Nat} {k : Int} (h : k ∈ pointGrid b x y) : b.isGrid k = true := by
  unfold pointGrid at h
  split at h
  · rw [List.mem_singleton] at h
    rw [h]
    assumption
  · cases h

theorem isGrid_of_mem_boundGrids {q : Queue} {k : Int} (h : k ∈ boundGrids S b q) : b.isGrid k = true := by
  unfold boundGrids at h
  split at h
  · exact (isGrid_of_mem_pathGrids q.path h).resolve_left List.not_mem_nil
  · split at h
    · exact isGrid_of_mem_pointGrid h
    · split at h
      · exact isGrid_of_mem_pointGrid h
      · cases h

namespace Level

variable {a : Level} {q p : Nat} {k : Int}

theorem mem_put {grids : List Int} : p ∈ (a.put q grids).queues k ↔ p ∈ a.queues k ∨ (p = q ∧ k ∈ grids) := by
  unfold put
  by_cases hk : k ∈ grids
  · simp [hk, or_comm]
  · simp [hk]

theorem mem_drop {grids : List Int} : p ∈ (a.drop q grids).queues k ↔ p ∈ a.queues k ∧ ¬ (p = q ∧ k ∈ grids) := by
  unfold drop
  by_cases hk : k ∈ grids
  · simp [hk]
  · simp [hk]

def ref (a : Level) (q : Nat) : List Int := (a.queueGridRef q).getD []

/-- **A grid has a march exactly when the march has the grid.** -/
def Paired (a : Level) : Prop := ∀ q k, q ∈ a.queues k ↔ k ∈ a.ref q

theorem ref_setRef (r : Option (List Int)) : (a.setRef q r).ref p = if p = q then r.getD [] else a.ref p := by
  unfold ref setRef
  by_cases hp : p = q
  · subst hp
    simp
  · simp [hp]

theorem ref_put (grids : List Int) : (a.put q grids).ref p = a.ref p := rfl

theorem ref_drop (grids : List Int) : (a.drop q grids).ref p = a.ref p := rfl

theorem Paired.rebind (ha : a.Paired) {rm ret : List Int} (hrm : ∀ k, k ∈ rm ↔ k ∈ a.ref q ∧ k ∉ ret) :
    (((a.drop q rm).setRef q (some ret)).put q ret).Paired := by
  intro p k
  rw [mem_put, ref_put, ref_setRef, show ((a.drop q rm).setRef q (some ret)).queues = (a.drop q rm).queues from rfl,
    mem_drop,
    ha p k, hrm, ref_drop]
  by_cases hp : p = q
  · subst hp
    simp only [true_and, if_true, Option.getD_some]
    by_cases hk : k ∈ ret
    · simp [hk]
    · simp [hk]
  · simp [hp]

theorem removeQueue_paired (ha : a.Paired) (owner : Nat) : (a.removeQueue b q owner).1.Paired := by
  intro p k
  show p ∈ (a.drop q (a.ref q)).queues k ↔ k ∈ ((a.drop q (a.ref q)).setRef q none).ref p
  rw [mem_drop, ref_setRef, ha p k, ref_drop]
  by_cases hp : p = q
  · subst hp
    simp
  · simp [hp]

theorem unbound (owner : Nat) (ha : a.Paired) :
    (if (a.queueGridRef q).isSome then a.removeQueue b q owner else (a, [])).1.Paired ∧
      (if (a.queueGridRef q).isSome then a.removeQueue b q owner else (a, [])).1.queueGridRef =
        Function.update a.queueGridRef q none := by
  cases hr : a.queueGridRef q with
  | none =>
    refine ⟨ha, ?_⟩
    show a.queueGridRef = _
    rw [← hr, Function.update_eq_self]
  | some old => exact ⟨removeQueue_paired ha owner, rfl⟩

theorem addQueue_paired (ha : a.Paired) (owner : Nat) (att : Queue) (isInit : Bool) :
    (a.addQueue S b q owner att isInit).1.Paired := by
  obtain ⟨hp, hr⟩ := unbound (b := b) (q := q) owner ha
  unfold addQueue
  generalize (if (a.queueGridRef q).isSome then a.removeQueue b q owner else (a, [])) = gone at hp hr
  dsimp only
  split
  · exact hp
  · have hempty : gone.1.ref q = [] := by
      unfold ref
      rw [hr, Function.update_self]
      rfl
    have hnone : ∀ k, k ∈ [] ↔ k ∈ gone.1.ref q ∧ k ∉ boundGrids S b att := fun k => by rw [hempty]; simp
    have := hp.rebind hnone
    have hdrop : gone.1.drop q [] = gone.1 := rfl
    rw [hdrop] at this
    exact this

theorem change_cases (att : Queue) (ck : Option Keys) :
    ((a.queueGridRef q = none ∨ renews ck = false) ∧ (a.change S b q att ck).1 = a) ∨
    (∃ old, a.queueGridRef q = some old ∧ renews ck = true ∧ (a.change S b q att ck).1 =
      ((a.drop q (old.filter (fun k => !(boundGrids S b att).contains k))).setRef q (some (boundGrids S b att))).put q
        (boundGrids S b att)) := by
  unfold change
  cases hr : a.queueGridRef q with
  | none => exact .inl ⟨.inl rfl, rfl⟩
  | some old =>
    cases hck : renews ck with
    | false => exact .inl ⟨.inr rfl, rfl⟩
    | true => exact .inr ⟨old, rfl, rfl, rfl⟩

theorem updateQueue_paired (ha : a.Paired) (owner : Nat) (att : Queue) (ck : Option Keys) :
    (a.updateQueue S b q owner att ck).1.Paired := by
  show (a.change S b q att ck).1.Paired
  rcases a.change_cases (S := S) (b := b) (q := q) att ck with ⟨-, h⟩ | ⟨old, hr, -, h⟩
  · rw [h]
    exact ha
  · rw [h]
    refine ha.rebind (fun k => ?_)
    unfold ref
    rw [hr]
    simp

theorem addQueue_ref (owner : Nat) (att : Queue) (isInit : Bool) : (a.addQueue S b q owner att isInit).1.queueGridRef =
    Function.update a.queueGridRef q (if (boundGrids S b att).isEmpty then none else some (boundGrids S b att)) := by
  have hgone : (if (a.queueGridRef q).isSome then a.removeQueue b q owner else (a, [])).1.queueGridRef =
      Function.update a.queueGridRef q none := by
    cases hr : a.queueGridRef q with
    | none =>
      show a.queueGridRef = _
      rw [← hr, Function.update_eq_self]
    | some old => rfl
  unfold addQueue
  generalize (if (a.queueGridRef q).isSome then a.removeQueue b q owner else (a, [])) = gone at hgone
  dsimp only
  split
  · exact hgone
  · show Function.update gone.1.queueGridRef q _ = _
    rw [hgone, Function.update_idem]

theorem updateQueue_ref (owner : Nat) (att : Queue) (ck : Option Keys) :
    (a.updateQueue S b q owner att ck).1.queueGridRef = if (a.queueGridRef q).isSome = true ∧ renews ck = true then
      Function.update a.queueGridRef q (some (boundGrids S b att)) else a.queueGridRef := by
  show (a.change S b q att ck).1.queueGridRef = _
  rcases a.change_cases (S := S) (b := b) (q := q) att ck with ⟨hno, h⟩ | ⟨old, hr, hck, h⟩
  · rw [h, if_neg]
    rintro ⟨h1, h2⟩
    rcases hno with hno | hno
    · rw [hno] at h1
      cases h1
    · rw [hno] at h2
      cases h2
  · rw [h, if_pos ⟨by rw [hr]; rfl, hck⟩]
    rfl

end Level

inductive Op
  | addQueue (q : Nat) (att : Queue) (isInit : Bool)
  | updateQueue (q : Nat) (att : Queue) (changeKeys : Option Keys)
  | removeQueue (q : Nat)

/-- A level, and the attributes of the marches that were added and not removed. -/
structure Index where
  level : Level := {}
  att : Nat → Option Queue := fun _ => none

namespace Index

variable (S b) (owner : Nat → Nat)

def step (w : Index) : Op → Index
  | .addQueue q att isInit => ⟨(w.level.addQueue S b q (owner q) att isInit).1, Function.update w.att q (some att)⟩
  | .updateQueue q att ck =>
    ⟨(w.level.updateQueue S b q (owner q) att ck).1, Function.update w.att q ((w.att q).map (fun _ => att))⟩
  | .removeQueue q => ⟨(w.level.removeQueue b q (owner q)).1, Function.update w.att q none⟩

def run (es : List Op) : Index := es.foldl (step S b owner) {}

/-- `changeKeys`, where given, names the path and the status if they changed. -/
def Named (w : Index) : Op → Prop
  | .updateQueue q att (some ck) => ∀ old, w.att q = some old →
      (att.path ≠ old.path → ck.moveTimeSpan = true) ∧ (att.status ≠ old.status → ck.status = true)
  | _ => True

def anchor (q : Queue) : Option (Nat × Nat) :=
  if q.status = some moving then none
  else if q.status = some staying ∨ q.status = S.occupying then some (q.toX, q.toY)
  else if q.status = some massing then some (q.fromX, q.fromY)
  else none

/-- **The condition for an update to keep the index**: a march that is looked at again has grids or is to have none, and one
that is not stays in the grid it is bound by. -/
def Rebinds (w : Index) : Op → Prop
  | .updateQueue q att ck => ∀ old, w.att q = some old →
      if Level.renews ck then (w.level.queueGridRef q).isSome = true ∨ boundGrids S b att = []
      else (anchor S att).map (fun g => b.getGridKey g.1 g.2) = (anchor S old).map (fun g => b.getGridKey g.1 g.2)
  | _ => True

variable {S b owner} {w : Index}

theorem boundGrids_congr {q q' : Queue} (hs : q.status = q'.status) (hp : q.path = q'.path)
    (ha : (anchor S q).map (fun g => b.getGridKey g.1 g.2) = (anchor S q').map (fun g => b.getGridKey g.1 g.2)) :
    boundGrids S b q = boundGrids S b q' := by
  unfold boundGrids anchor at *
  rw [hs, hp] at *
  split
  · rfl
  · rename_i hm
    rw [if_neg hm, if_neg hm] at ha
    split
    · rename_i ht
      rw [if_pos ht, if_pos ht] at ha
      have hk : b.getGridKey q.toX q.toY = b.getGridKey q'.toX q'.toY := Option.some.inj ha
      unfold pointGrid
      rw [hk]
    · rename_i ht
      rw [if_neg ht, if_neg ht] at ha
      split
      · rename_i hf
        rw [if_pos hf, if_pos hf] at ha
        have hk : b.getGridKey q.fromX q.fromY = b.getGridKey q'.fromX q'.fromY := Option.some.inj ha
        unfold pointGrid
        rw [hk]
      · rfl

/-- **Every march that was added and not removed has the grids of its path, status and target.** -/
def Bound (S : Static) (b : Board) (w : Index) : Prop := ∀ q a, w.att q = some a → w.level.ref q = boundGrids S b a

theorem step_paired (hw : w.level.Paired) (e : Op) : (w.step S b owner e).level.Paired := by
  cases e with
  | addQueue q att isInit => exact Level.addQueue_paired hw _ att isInit
  | updateQueue q att ck => exact Level.updateQueue_paired hw (owner q) att ck
  | removeQueue q => exact Level.removeQueue_paired (b := b) hw (owner q)

theorem step_bound (hw : Bound S b w) {e : Op} (hn : Named w e) (hr : Rebinds S b w e) :
    Bound S b (w.step S b owner e) := by
  intro p a hp
  cases e with
  | addQueue q att isInit =>
    unfold Level.ref
    rw [show (w.step S b owner (.addQueue q att isInit)).level = (w.level.addQueue S b q (owner q) att isInit).1 from rfl,
      Level.addQueue_ref]
    by_cases hpq : p = q
    · subst hpq
      rw [show (w.step S b owner (.addQueue p att isInit)).att p = some att from Function.update_self ..] at hp
      cases hp
      rw [Function.update_self]
      cases hb : boundGrids S b a with
      | nil => rfl
      | cons k l => rfl
    · rw [show (w.step S b owner (.addQueue q att isInit)).att p = w.att p from Function.update_of_ne hpq ..] at hp
      rw [Function.update_of_ne hpq]
      exact hw p a hp
  | updateQueue q att ck =>
    unfold Level.ref
    rw [show (w.step S b owner (.updateQueue q att ck)).level = (w.level.updateQueue S b q (owner q) att ck).1 from rfl,
      Level.updateQueue_ref]
    by_cases hpq : p = q
    · subst hpq
      rw [show (w.step S b owner (.updateQueue p att ck)).att p = (w.att p).map (fun _ => att) from
        Function.update_self ..] at hp
      obtain ⟨old, hold, rfl⟩ := Option.map_eq_some_iff.1 hp
      have hr' := hr old hold
      cases hck : Level.renews ck with
      | true =>
        rw [hck, if_pos rfl] at hr'
        cases href : w.level.queueGridRef p with
        | some ref => simp
        | none =>
          rw [href] at hr'
          rw [hr'.resolve_left (by decide)]
          simp [href]
      | false =>
        rw [hck] at hr'
        have heq : boundGrids S b att = boundGrids S b old := by
          cases ck with
          | none => cases hck
          | some ck =>
            obtain ⟨hp', hs'⟩ := hn old hold
            have hno : ck.moveTimeSpan = false ∧ ck.status = false := by simpa [Level.renews] using hck
            refine boundGrids_congr ?_ ?_ hr'
            · by_contra hne
              rw [hs' hne] at hno
              cases hno.2
            · by_contra hne
              rw [hp' hne] at hno
              cases hno.1
        rw [heq, ← hw p old hold]
        simp [Level.ref]
    · rw [show (w.step S b owner (.updateQueue q att ck)).att p = w.att p from Function.update_of_ne hpq ..] at hp
      rw [← hw p a hp]
      unfold Level.ref
      split
      · rw [Function.update_of_ne hpq]
      · rfl
  | removeQueue q =>
    by_cases hpq : p = q
    · subst hpq
      rw [show (w.step S b owner (.removeQueue p)).att p = none from Function.update_self ..] at hp
      cases hp
    · rw [show (w.step S b owner (.removeQueue q)).att p = w.att p from Function.update_of_ne hpq ..] at hp
      rw [← hw p a hp]
      show ((w.level.drop q (w.level.ref q)).setRef q none).ref p = w.level.ref p
      rw [Level.ref_setRef, if_neg hpq, Level.ref_drop]

/-- **The index of marches in every run.**  The two records agree; and a march that was added and not removed has the grids
`addQueue` would compute, in every run whose updates meet the condition. -/
theorem index_of_run (S : Static) (b : Board) (owner : Nat → Nat) (es : List Op) :
    (∀ q k, q ∈ (run S b owner es).level.queues k ↔
      ∃ ref, (run S b owner es).level.queueGridRef q = some ref ∧ k ∈ ref) ∧
    (Steps.Along (step S b owner) Named {} es → Steps.Along (step S b owner) (Rebinds S b) {} es →
      ∀ q a, (run S b owner es).att q = some a →
        ∀ k, (∃ ref, (run S b owner es).level.queueGridRef q = some ref ∧ k ∈ ref) ↔ k ∈ boundGrids S b a) := by
  have hiff : ∀ (w : Index) q k, (∃ ref, w.level.queueGridRef q = some ref ∧ k ∈ ref) ↔ k ∈ w.level.ref q := by
    intro w q k
    unfold Level.ref
    cases w.level.queueGridRef q with
    | none => simp
    | some ref => simp
  have hpaired : (run S b owner es).level.Paired :=
    Steps.inv_of_run (I := fun w : Index => w.level.Paired) (fun _ e h =>
      step_paired h e) es {} (fun q k => by simp [Level.ref])
  refine ⟨fun q k => ?_, fun hn hr q a ha k => ?_⟩
  · rw [hiff]
    exact hpaired q k
  · have hbound : Bound S b (run S b owner es) := by
      refine Steps.Along.inv (I := Bound S b) ?_ es _ (Steps.Along.and es _ hn hr) (fun q a h => by cases h)
      intro w e he h
      exact step_bound h he.1 he.2
    rw [hiff, hbound q a ha]

instance (w : Index) : ∀ e : Op, Decidable (Rebinds S b w e)
  | .updateQueue q att ck =>
    match h : w.att q with
    | none => isTrue (fun old hold => by rw [h] at hold; cases hold)
    | some a => decidable_of_iff
        (if Level.renews ck then (w.level.queueGridRef q).isSome = true ∨ boundGrids S b att = []
          else (anchor S att).map (fun g => b.getGridKey g.1 g.2) = (anchor S a).map (fun g => b.getGridKey g.1 g.2))
        (by simp [Rebinds, h])
  | .addQueue _ _ _ => isTrue trivial
  | .removeQueue _ => isTrue trivial

/-! A level of the world map with no railways, and marches on it. -/

def plainStatic : Static := ⟨none, fun _ => none⟩

def plainBoard : Board := ⟨1215, 1215, 18, by decide, by decide⟩

def march (status : Nat) : Queue := ⟨some 2, some status, [⟨1, 1, false⟩, ⟨40, 20, false⟩], 1, 1, 40, 20⟩

def journey : List Op :=
  [.addQueue 5 (march moving) false, .updateQueue 5 (march staying) (some ⟨false, true⟩),
    .updateQueue 5 (march staying) (some ⟨false, false⟩)]

theorem index_of_run_journey : ∀ q a, (run plainStatic plainBoard id journey).att q = some a →
    ∀ k, (∃ ref, (run plainStatic plainBoard id journey).level.queueGridRef q = some ref ∧ k ∈ ref) ↔
      k ∈ boundGrids plainStatic plainBoard a := by
  refine (index_of_run plainStatic plainBoard id journey).2 ⟨trivial, ?_, ?_, trivial⟩ (by decide +kernel)
  · intro old h
    cases h
    exact ⟨fun h => absurd rfl h, fun _ => rfl⟩
  · intro old h
    cases h
    exact ⟨fun h => absurd rfl h, fun h => absurd rfl h⟩

/-- **A march that was added while following another is not bound when it goes on its own.** -/
theorem follower_unbound :
    (run plainStatic plainBoard id [.addQueue 5 (march following) false, .updateQueue 5 (march moving) none]).att 5 =
      some (march moving) ∧
    (10001 ∈ boundGrids plainStatic plainBoard (march moving)) ∧
    (run plainStatic plainBoard id [.addQueue 5 (march following) false,
      .updateQueue 5 (march moving) none]).level.queueGridRef 5 = none := by
  refine ⟨rfl, by decide +kernel, by decide +kernel⟩

end Index
end QueueAoi
end Sncpp
