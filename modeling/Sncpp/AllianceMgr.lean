import Mathlib.Data.List.AList
import Sncpp.CoLock
/-!
# AllianceMgr — the data of the alliances

`allianceMgr.lua`, the release timer of `allianceCenter.lua` and the queues of the service.  The data of an alliance
are loaded and released inside the alliance's queue; a release then drops the queue from the table, as the queue's own
timer does.

Who stays is written down in `alive`, which `logout` reads and the release timer does not.
-/
namespace Sncpp
namespace AllianceMgr

open Co (Prog)
open Co.Prog (get modify check ask serial)

/-- `inn` are the members whose last event is not `logout`, `loading` the loads that go on; `lost` and `raised` record a
load that finds an object in its place, and a `getModule` that finds none.  No code reads these. -/
structure Svc where
  modules : Nat → Option Nat
  alive : Nat → Option (AList (fun _ : Nat => Nat))
  timer : Nat → Bool
  made : Nat
  loading : Nat → Nat
  inn : Nat → List Nat
  lost : Bool
  raised : Bool

namespace Svc

def ctor : Svc := ⟨fun _ => none, fun _ => none, fun _ => false, 0, fun _ => 0, fun _ => [], false, false⟩

variable (aid : Nat) (s : Svc)

def updateTimer : Svc := { s with timer := Function.update s.timer aid true }

def loads : Svc := { s with loading := Function.update s.loading aid (s.loading aid + 1) }

def fails : Svc := { s with loading := Function.update s.loading aid (s.loading aid - 1) }

def loaded : Svc :=
  ({ s with
    modules := Function.update s.modules aid (some s.made)
    made := s.made + 1
    loading := Function.update s.loading aid (s.loading aid - 1)
    lost := s.lost || (s.modules aid).isSome } : Svc).updateTimer aid

def release : Svc := { s with modules := Function.update s.modules aid none, alive := Function.update s.alive aid none }

end Svc

namespace Svc

variable (aid uid : Nat) (s : Svc)

def enters : Svc := { s with inn := Function.update s.inn aid (uid :: s.inn aid) }

def leaves : Svc := { s with inn := Function.update s.inn aid ((s.inn aid).filter (fun u => u != uid)) }

def keep (aid uid state : Nat) (s : Svc) : Svc :=
  { s with alive := Function.update s.alive aid (some (((s.alive aid).getD ∅).insert uid state)) }

def afk : Svc := if (s.alive aid).isSome then (s.enters aid uid).keep aid uid 0 else s.enters aid uid

end Svc

/-- The query of an alliance's data may fail. -/
abbrev Co (α : Type) : Type := Prog Svc Nat Nat Bool α

def aliInfoModule : String := "aliInfoCtrl"

def loadModule (aid : Nat) : Co Unit := do
  let s ← get
  if (s.modules aid).isSome then pure ()
  else
    modify (Svc.loads aid)
    match ← ask aid with
    | true => modify (Svc.loaded aid)
    | false =>
      modify (Svc.fails aid)
      .err "assertion failed!"

def initModule (aid : Nat) : Co Unit := serial aid (loadModule aid)

def findModule (aid : Nat) (module : String) : Co Nat := do
  let s ← get
  match s.modules aid with
  | none =>
    modify (fun s => { s with raised := true })
    .err "attempt to index a nil value"
  | some obj =>
    if module = aliInfoModule then
      modify (Svc.updateTimer aid)
      pure obj
    else .err "allianceMgr:getModule error: not exist!"

def getModule (aid : Nat) (module : String) : Co Nat := do
  let s ← get
  Prog.when (s.modules aid).isNone (initModule aid)
  findModule aid module

def delSq (aid : Nat) : Co Unit := .poke aid id (.ret ())

def releaseModule (aid : Nat) : Co Unit := do
  serial aid (do
    check (fun s _ => (s.inn aid).isEmpty)
    modify (Svc.release aid))
  delSq aid

def login (aid uid : Nat) : Co Unit := do
  let _ ← getModule aid aliInfoModule
  modify (fun s => (s.enters aid uid).keep aid uid 0)

def checkin (aid uid : Nat) : Co Unit := do
  check (fun s _ => (s.modules aid).isSome)
  modify (fun s => (s.enters aid uid).keep aid uid 1)

def afk (aid uid : Nat) : Co Unit := do
  check (fun s _ => (s.modules aid).isSome)
  modify (Svc.afk aid uid)

def logout (aid uid : Nat) : Co Unit := do
  modify (Svc.leaves aid uid)
  let s ← get
  if (s.modules aid).isSome then
    match s.alive aid with
    | none => pure ()
    | some t =>
      if (t.erase uid).entries = [] then
        modify (fun s => { s with alive := Function.update s.alive aid none })
        releaseModule aid
      else modify (fun s => { s with alive := Function.update s.alive aid (some (t.erase uid)) })
  else pure ()

def timerCallback (aid : Nat) : Co Unit := do
  let s ← get
  Prog.when (s.timer aid) (do
    modify (fun s => { s with timer := Function.update s.timer aid false })
    releaseModule aid)

inductive Op where
  | getModule (aid : Nat) (module : String)
  | login (aid uid : Nat)
  | checkin (aid uid : Nat)
  | afk (aid uid : Nat)
  | logout (aid uid : Nat)
  | timerCallback (aid : Nat)
  | delSq (aid : Nat)

def Op.prog : Op → Co Unit
  | .getModule aid module => do
    let _ ← AllianceMgr.getModule aid module
  | .login aid uid => AllianceMgr.login aid uid
  | .checkin aid uid => AllianceMgr.checkin aid uid
  | .afk aid uid => AllianceMgr.afk aid uid
  | .logout aid uid => AllianceMgr.logout aid uid
  | .timerCallback aid => AllianceMgr.timerCallback aid
  | .delSq aid => AllianceMgr.delSq aid

def system : Co.Sys Svc Nat Nat Bool Op Empty where
  prog := Op.prog
  may _ _ := true
  env e := e.elim

/-- **The data are there while a member is in**; no load finds another's object, and no `getModule` finds none. -/
structure Kept (s : Svc) : Prop where
  present : ∀ aid, s.inn aid ≠ [] → (s.modules aid).isSome = true
  one : ∀ aid, s.loading aid ≤ 1
  lost : s.lost = false
  raised : s.raised = false

/-- A queue protects the alliance's data and its loads: none goes on while the queue is idle, and one while its holder
waits. -/
def spec : Co.Spec Svc Nat (Option Nat × Nat) where
  view s aid := (s.modules aid, s.loading aid)
  idle _ z := z.2 = 0
  handed _ z := z.2 = 0
  held _ _ := True
  inv := Kept

variable {may : Nat → Bool → Bool} {s : Svc}

theorem kept_ctor : Kept .ctor := ⟨fun _ h => absurd rfl h, fun _ => Nat.zero_le 1, rfl, rfl⟩

theorem view_update {modules : Nat → Option Nat} {loading : Nat → Nat} {aid x : Nat} (hx : some aid ≠ some x)
    (obj : Option Nat)
    (n : Nat) : (Function.update modules aid obj x, Function.update loading aid n x) = (modules x, loading x) := by
  have hne : x ≠ aid := fun heq => hx (congrArg some heq.symm)
  rw [Function.update_of_ne hne, Function.update_of_ne hne]

theorem Kept.loads (h : Kept s) {aid : Nat} (hidle : s.loading aid = 0) : Kept (s.loads aid) where
  present := h.present
  one x := by
    unfold Svc.loads
    by_cases hx : x = aid
    · rw [hx]
      simp [hidle]
    · simp only [Function.update_of_ne hx]
      exact h.one x
  lost := h.lost
  raised := h.raised

theorem Kept.fails (h : Kept s) (aid : Nat) : Kept (s.fails aid) where
  present := h.present
  one x := by
    have hone := h.one x
    unfold Svc.fails
    by_cases hx : x = aid
    · subst hx
      simp only [Function.update_self]
      omega
    · simp only [Function.update_of_ne hx]
      exact hone
  lost := h.lost
  raised := h.raised

theorem Kept.loaded (h : Kept s) {aid : Nat} (hnone : s.modules aid = none) : Kept (s.loaded aid) where
  present x hx := by
    show (Function.update s.modules aid (some s.made) x).isSome = true
    by_cases hxa : x = aid
    · rw [hxa, Function.update_self]
      rfl
    · rw [Function.update_of_ne hxa]
      exact h.present x hx
  one := (h.fails aid).one
  lost := by
    show (s.lost || (s.modules aid).isSome) = false
    rw [h.lost, hnone]
    rfl
  raised := h.raised

theorem Kept.release (h : Kept s) {aid : Nat} (hout : s.inn aid = []) : Kept (s.release aid) where
  present x hx := by
    show (Function.update s.modules aid none x).isSome = true
    have hxa : x ≠ aid := by
      rintro rfl
      exact hx hout
    rw [Function.update_of_ne hxa]
    exact h.present x hx
  one := h.one
  lost := h.lost
  raised := h.raised

theorem Kept.enters (h : Kept s) {aid : Nat} (hsome : (s.modules aid).isSome = true) (uid : Nat) :
    Kept (s.enters aid uid) where
  present x hx := by
    by_cases hxa : x = aid
    · rw [hxa]
      exact hsome
    · have hin : Function.update s.inn aid (uid :: s.inn aid) x ≠ [] := hx
      rw [Function.update_of_ne hxa] at hin
      exact h.present x hin
  one := h.one
  lost := h.lost
  raised := h.raised

theorem Kept.leaves (h : Kept s) (aid uid : Nat) : Kept (s.leaves aid uid) where
  present x hx := by
    refine h.present x (fun hnil => hx ?_)
    show Function.update s.inn aid ((s.inn aid).filter (fun u => u != uid)) x = []
    by_cases hxa : x = aid
    · subst hxa
      simp [hnil]
    · rw [Function.update_of_ne hxa]
      exact hnil
  one := h.one
  lost := h.lost
  raised := h.raised

theorem Kept.same (h : Kept s) {s' : Svc} (hm : s'.modules = s.modules) (hi : s'.inn = s.inn) (hl : s'.loading = s.loading)
    (hlost : s'.lost = s.lost) (hraised : s'.raised = s.raised) : Kept s' where
  present x hx := by
    rw [hm]
    exact h.present x (hi ▸ hx)
  one := by
    rw [hl]
    exact h.one
  lost := hlost.trans h.lost
  raised := hraised.trans h.raised

variable {α : Type}

/-- What follows a program that ends well and keeps the invariant, or raises. -/
def Keeps (Q : Co.Post Svc Nat α) (good : α → Svc → Prop) : Prop :=
  (∀ a s, Kept s → good a s → Q (.ok a) none s) ∧ ∀ m s, Kept s → Q (.error m) none s

theorem loadModule_wp {aid : Nat} (hs : Kept s) (hidle : s.loading aid = 0) {Q : Co.Post Svc Nat Unit}
    (hQ : Keeps Q (fun _ s => (s.modules aid).isSome = true)) :
    Co.wp spec may (loadModule aid) (some aid) (spec.unlock aid Q) s := by
  unfold loadModule
  refine Co.wp_get ?_
  by_cases hsome : (s.modules aid).isSome = true
  · rw [if_pos hsome]
    exact ⟨rfl, hidle, hidle, hQ.1 () s hs hsome⟩
  rw [if_neg hsome]
  have hnone : s.modules aid = none := by simpa using hsome
  refine ⟨fun x hx => ?_, hs.loads hidle, fun _ _ => trivial, fun r _ s' hs' hview => ?_⟩
  · show (s.modules x, Function.update s.loading aid _ x) = (s.modules x, s.loading x)
    rw [Function.update_of_ne (fun heq => hx (congrArg some heq.symm))]
  · -- the queue is held: no object has come, and this load is the only one
    have hv := hview aid rfl
    have hmod : s'.modules aid = none := (congrArg Prod.fst hv).trans hnone
    have hload : s'.loading aid = 1 := by
      refine (congrArg Prod.snd hv).trans ?_
      show Function.update s.loading aid (s.loading aid + 1) aid = 1
      rw [Function.update_self, hidle]
    have hzero : Function.update s'.loading aid (s'.loading aid - 1) aid = 0 := by
      rw [Function.update_self, hload]
    cases r with
    | true =>
      refine ⟨fun x hx => ?_, rfl, hzero, hzero, hQ.1 () _ (hs'.loaded hmod) ?_⟩
      · exact view_update hx _ _
      · show (Function.update s'.modules aid (some s'.made) aid).isSome = true
        rw [Function.update_self]
        rfl
    | false =>
      refine ⟨fun x hx => ?_, rfl, hzero, hzero, hQ.2 _ _ (hs'.fails aid)⟩
      show (s'.modules x, Function.update s'.loading aid _ x) = (s'.modules x, s'.loading x)
      rw [Function.update_of_ne (fun heq => hx (congrArg some heq.symm))]

/-- **After `initModule` the data are there**, unless it raises. -/
theorem initModule_wp {aid : Nat} (hs : Kept s) {Q : Co.Post Svc Nat Unit}
    (hQ : Keeps Q (fun _ s => (s.modules aid).isSome = true)) :
    Co.wp spec may (initModule aid) none Q s :=
  ⟨rfl, hs, fun hi => Co.wp_inside _ _ _ _ _ (loadModule_wp hs hi hQ), fun _ hs' hh =>
    Co.wp_inside _ _ _ _ _ (loadModule_wp hs' hh hQ)⟩

theorem findModule_wp {aid : Nat} (module : String) (hs : Kept s) (hsome : (s.modules aid).isSome = true)
    {Q : Co.Post Svc Nat Nat}
    (hQ : Keeps Q (fun _ s => (s.modules aid).isSome = true)) : Co.wp spec may (findModule aid module) none Q s := by
  unfold findModule
  refine Co.wp_get ?_
  obtain ⟨obj, hobj⟩ := Option.isSome_iff_exists.1 hsome
  rw [hobj]
  simp only
  split
  · exact ⟨fun _ _ => rfl, hQ.1 obj _ (hs.same rfl rfl rfl rfl rfl) hsome⟩
  · exact hQ.2 _ s hs

/-- **`getModule` answers with the data in their place**; it raises only if the load does, or there is no such module. -/
theorem getModule_wp {aid : Nat} (module : String) (hs : Kept s) {Q : Co.Post Svc Nat Nat}
    (hQ : Keeps Q (fun _ s => (s.modules aid).isSome = true)) : Co.wp spec may (getModule aid module) none Q s := by
  unfold getModule
  refine Co.wp_get (Co.wp_bind _ _ _ _ _ ?_)
  have hload : Keeps (Co.Post.andThen spec may (fun _ : Unit => findModule aid module) Q) (fun _ s =>
    (s.modules aid).isSome = true) :=
    ⟨fun _ s hs hsome => findModule_wp module hs hsome hQ, hQ.2⟩
  cases hmod : s.modules aid with
  | none => exact initModule_wp hs hload
  | some obj =>
    have hsome : (s.modules aid).isSome = true := by
      rw [hmod]
      rfl
    exact hload.1 () s hs hsome

theorem delSq_wp (aid : Nat) (hs : Kept s) : Co.wp spec may (delSq aid) none spec.final s :=
  ⟨(fun heq => by cases heq), fun hi => ⟨fun _ _ => rfl, hi, rfl, hs⟩⟩

theorem releaseModule_wp (aid : Nat) (hs : Kept s) : Co.wp spec may (releaseModule aid) none spec.final s := by
  unfold releaseModule
  refine Co.wp_bind _ _ _ _ _ ?_
  have hbody : ∀ s, Kept s → s.loading aid = 0 → Co.wp spec may (check (fun s _ => (s.inn aid).isEmpty) >>= fun _ =>
      modify (Svc.release aid)) (some aid) (spec.unlock aid (Co.Post.andThen spec may (fun _ => delSq aid) spec.final))
        s := by
    rintro s hs hidle ⟨_, hout⟩
    have hkept := hs.release (List.isEmpty_iff.1 hout)
    refine ⟨fun x hx => ?_, rfl, hidle, hidle, delSq_wp aid hkept⟩
    show (Function.update s.modules aid none x, s.loading x) = (s.modules x, s.loading x)
    rw [Function.update_of_ne (fun heq => hx (congrArg some heq.symm))]
  exact ⟨rfl, hs, fun hi => Co.wp_inside _ _ _ _ _ (hbody s hs hi), fun s' hs' hh =>
    Co.wp_inside _ _ _ _ _ (hbody s' hs' hh)⟩

theorem login_wp (aid uid : Nat) (hs : Kept s) : Co.wp spec may (login aid uid) none spec.final s := by
  unfold login
  refine Co.wp_bind _ _ _ _ _ (getModule_wp aliInfoModule hs ⟨fun _ s hs hsome => ?_, fun _ s hs => ⟨rfl, hs⟩⟩)
  exact ⟨fun _ _ => rfl, rfl, (hs.enters hsome uid).same rfl rfl rfl rfl rfl⟩

theorem checkin_wp (aid uid : Nat) (hs : Kept s) : Co.wp spec may (checkin aid uid) none spec.final s :=
  fun ⟨_, hsome⟩ => ⟨fun _ _ => rfl, rfl, (hs.enters hsome uid).same rfl rfl rfl rfl rfl⟩

theorem view_afk (s : Svc) (aid uid x : Nat) : spec.view (s.afk aid uid) x = spec.view s x := by
  unfold Svc.afk
  split <;> rfl

theorem Kept.afk (h : Kept s) {aid : Nat} (hsome : (s.modules aid).isSome = true) (uid : Nat) : Kept (s.afk aid uid) := by
  unfold Svc.afk
  split
  · exact (h.enters hsome uid).same rfl rfl rfl rfl rfl
  · exact h.enters hsome uid

theorem afk_wp (aid uid : Nat) (hs : Kept s) : Co.wp spec may (afk aid uid) none spec.final s :=
  fun ⟨_, hsome⟩ => ⟨fun x _ => view_afk s aid uid x, rfl, hs.afk hsome uid⟩

theorem logout_wp (aid uid : Nat) (hs : Kept s) : Co.wp spec may (logout aid uid) none spec.final s := by
  unfold logout
  have hleft := hs.leaves aid uid
  refine ⟨fun _ _ => rfl, Co.wp_get ?_⟩
  split
  · split
    · exact ⟨rfl, hleft⟩
    · split
      · exact ⟨fun _ _ => rfl, releaseModule_wp aid (hleft.same rfl rfl rfl rfl rfl)⟩
      · exact ⟨fun _ _ => rfl, rfl, hleft.same rfl rfl rfl rfl rfl⟩
  · exact ⟨rfl, hleft⟩

theorem timerCallback_wp (aid : Nat) (hs : Kept s) : Co.wp spec may (timerCallback aid) none spec.final s := by
  unfold timerCallback
  refine Co.wp_get ?_
  unfold Prog.when
  split
  · exact ⟨fun _ _ => rfl, releaseModule_wp aid (hs.same rfl rfl rfl rfl rfl)⟩
  · exact ⟨rfl, hs⟩

theorem checked : Co.Checked spec system where
  prog o s hs := by
    cases o with
    | getModule aid module =>
      exact Co.wp_bind _ _ _ _ _ (getModule_wp module hs ⟨fun _ s hs _ => ⟨rfl, hs⟩, fun _ s hs => ⟨rfl, hs⟩⟩)
    | login aid uid => exact login_wp aid uid hs
    | checkin aid uid => exact checkin_wp aid uid hs
    | afk aid uid => exact afk_wp aid uid hs
    | logout aid uid => exact logout_wp aid uid hs
    | timerCallback aid => exact timerCallback_wp aid hs
    | delSq aid => exact delSq_wp aid hs
  env e _ _ := e.elim

/-- **The data of an alliance are there while a member is in and no load goes on, one load goes on at a time and none
finds another's object, and no `getModule` finds its data gone.** -/
theorem loaded_of_run (es : List (Co.Event Op Bool Empty)) {w : Co.World Svc Nat Nat Bool}
    (hrun : system.run (.init .ctor) es = some w)
    (hclean : w.clean = true) :
    (∀ aid, w.st.inn aid ≠ [] → w.st.loading aid = 0 → (w.st.modules aid).isSome = true) ∧
      (∀ aid, w.st.loading aid ≤ 1) ∧ w.st.lost = false ∧ w.st.raised = false := by
  have hfit := Co.fits_init (P := spec) system .ctor kept_ctor (fun _ => rfl)
  have hkept := (Co.fits_of_run checked es _ w hfit hrun hclean).inv
  exact ⟨fun aid hin _ => hkept.present aid hin, hkept.one, hkept.lost, hkept.raised⟩

def visit : List (Co.Event Op Bool Empty) :=
  [.start (.login 3 7), .start (.login 3 8), .reply 0 true, .wake 1, .start (.checkin 3 7), .start (.afk 3 7),
    .start (.delSq 3),
    .start (.logout 3 7), .start (.logout 3 8), .start (.getModule 3 aliInfoModule)]

theorem loaded_of_run_visit : ∃ w, system.run (.init .ctor) visit = some w ∧ w.clean = true ∧ w.st.made = 1 ∧
    w.st.loading 3 = 1 ∧
    (∀ aid, w.st.inn aid ≠ [] → w.st.loading aid = 0 → (w.st.modules aid).isSome = true) ∧
      (∀ aid, w.st.loading aid ≤ 1) ∧ w.st.lost = false ∧ w.st.raised = false := by
  obtain ⟨w, hrun, hw⟩ : ∃ w ∈ system.run (.init .ctor) visit, w.clean = true ∧ w.st.made = 1 ∧ w.st.loading 3 = 1 := by
    decide +kernel
  exact ⟨w, hrun, hw.1, hw.2.1, hw.2.2, loaded_of_run visit hrun hw.1⟩

theorem released_while_in : ¬ ∀ (es : List (Co.Event Op Bool Empty)) (w : Co.World Svc Nat Nat Bool),
    system.run (.init .ctor) es = some w → ∀ aid, w.st.inn aid ≠ [] → w.st.loading aid = 0 →
      (w.st.modules aid).isSome = true := by
  intro hall
  obtain ⟨w, hrun, hw⟩ : ∃ w ∈ system.run (.init .ctor) [.start (.login 3 7), .reply 0 true, .start (.timerCallback 3)],
      w.st.inn 3 = [7] ∧ w.st.loading 3 = 0 ∧ w.st.modules 3 = none := by
    decide +kernel
  have hsome := hall _ w hrun 3 (by rw [hw.1]; exact List.cons_ne_nil _ _) hw.2.1
  rw [hw.2.2] at hsome
  cases hsome

end AllianceMgr
end Sncpp
