import Sncpp.Steps
/-!
# RedisLock — the lock of a redis key

`redisLock.lua` in every service: a local record by key names the coroutine whose `SET NX` has made the key.  `unlock`
asks whether there is a record, not whose; the timer of an acquisition is never stopped and clears whichever record it
finds; and `DEL` deletes whichever key it finds.
-/
namespace Sncpp
namespace RedisLock

/-- Every `SET` that makes a key has a number, that no function reads. -/
structure Record (γ : Type) where
  co : γ
  acq : Nat
deriving DecidableEq

/-- The callback of a `skynet.timeout`. -/
structure Timer (σ κ : Type) where
  svc : σ
  key : κ
  acq : Nat
deriving DecidableEq

/-- What a coroutine waits for; `left` are the tries that are left to it. -/
inductive Phase (κ : Type) where
  | idle
  | sets (key : κ) (left : Nat)
  | answered (key : κ) (left : Nat) (ret : Option Nat)
  | sleeps (key : κ) (left : Nat)
  | deletes (key : κ) (acq : Nat)
deriving DecidableEq

def Phase.deleting {κ : Type} : Phase κ → Option (κ × Nat)
  | .deletes key acq => some (key, acq)
  | _ => none

/-- A coroutine is between a successful `trylock` and its `unlock`. -/
structure Stay (σ γ κ : Type) where
  co : σ × γ
  key : κ
  acq : Nat
deriving DecidableEq

structure Cluster (σ γ κ : Type) where
  redis : κ → Option Nat
  map : σ × κ → Option (Record γ)
  timers : List (Timer σ κ)
  phase : σ × γ → Phase κ
  next : Nat
  stays : List (Stay σ γ κ)
  expired : List Nat

inductive Event (σ γ κ : Type) where
  | trylock (co : σ × γ) (key : κ) (seconds : Nat)
  | unlock (co : σ × γ) (key : κ)
  | execute (co : σ × γ)
  | reply (co : σ × γ)
  | raise (co : σ × γ)
  | wake (co : σ × γ)
  | expire (key : κ)
  | timeout (n : Nat)

variable {σ γ κ : Type} [DecidableEq σ] [DecidableEq γ] [DecidableEq κ]

namespace Cluster

def new : Cluster σ γ κ := ⟨fun _ => none, fun _ => none, [], fun _ => .idle, 0, [], []⟩

variable (w : Cluster σ γ κ)

def setPhase (co : σ × γ) (p : Phase κ) : Cluster σ γ κ := { w with phase := Function.update w.phase co p }

def again (co : σ × γ) (key : κ) : Nat → Cluster σ γ κ
  | 0 => w.setPhase co .idle
  | left + 1 => w.setPhase co (.sets key left)

def trylock (co : σ × γ) (key : κ) (seconds : Nat) : Cluster σ γ κ :=
  match (w.map (co.1, key)).filter (fun r => r.co = co.2) with
  | some r => { w with stays := ⟨co, key, r.acq⟩ :: w.stays }
  | none => w.again co key seconds

def answer (co : σ × γ) (key : κ) (left : Nat) : Option Nat → Cluster σ γ κ
  | some acq =>
    { w with
      timers := w.timers ++ [⟨co.1, key, acq⟩]
      map := Function.update w.map (co.1, key) (some ⟨co.2, acq⟩)
      stays := ⟨co, key, acq⟩ :: w.stays
      phase := Function.update w.phase co .idle }
  | none => w.setPhase co (.sleeps key left)

def unlock (co : σ × γ) (key : κ) : Cluster σ γ κ :=
  let left := w.stays.filter (fun s => ¬ (s.co = co ∧ s.key = key))
  match w.map (co.1, key) with
  | some r =>
    { w with
      map := Function.update w.map (co.1, key) none
      stays := left
      phase := Function.update w.phase co (.deletes key r.acq) }
  | none => { w with stays := left }

def setexnx (co : σ × γ) (key : κ) (left : Nat) : Cluster σ γ κ :=
  match w.redis key with
  | none =>
    { w with
      redis := Function.update w.redis key (some w.next)
      next := w.next + 1
      phase := Function.update w.phase co (.answered key left (some w.next)) }
  | some _ => w.setPhase co (.answered key left none)

def delete (co : σ × γ) (key : κ) : Cluster σ γ κ :=
  { w with redis := Function.update w.redis key none, phase := Function.update w.phase co .idle }

def expire (key : κ) : Cluster σ γ κ :=
  match w.redis key with
  | some acq => { w with redis := Function.update w.redis key none, expired := acq :: w.expired }
  | none => w

def timeout (n : Nat) : Cluster σ γ κ :=
  match w.timers[n]? with
  | some t => { w with timers := w.timers.eraseIdx n, map := Function.update w.map (t.svc, t.key) none }
  | none => w

/-- A coroutine makes one call at a time; a call to redis may raise an error before it has been executed or after it. -/
def step : Event σ γ κ → Cluster σ γ κ
  | .trylock co key seconds => if w.phase co = .idle then w.trylock co key seconds else w
  | .unlock co key => if w.phase co = .idle then w.unlock co key else w
  | .execute co =>
    match w.phase co with
    | .sets key left => w.setexnx co key left
    | .deletes key _ => w.delete co key
    | _ => w
  | .reply co =>
    match w.phase co with
    | .answered key left ret => w.answer co key left ret
    | _ => w
  | .raise co =>
    match w.phase co with
    | .sleeps _ _ => w
    | _ => w.setPhase co .idle
  | .wake co =>
    match w.phase co with
    | .sleeps key left => w.again co key left
    | _ => w
  | .expire key => w.expire key
  | .timeout n => w.timeout n

/-- Whoever calls `unlock` finds no record or the one that names it, its `DEL` no key or the one that it has made, and the
callback of a timer no record of a later acquisition. -/
def Owned : Event σ γ κ → Prop
  | .unlock co key => w.phase co = .idle → ∀ r ∈ w.map (co.1, key), r.co = co.2
  | .execute co => ∀ d ∈ (w.phase co).deleting, ∀ acq ∈ w.redis d.1, acq = d.2
  | .timeout n => ∀ t ∈ w.timers[n]?, ∀ r ∈ w.map (t.svc, t.key), r.acq ≤ t.acq
  | _ => True

instance : ∀ e : Event σ γ κ, Decidable (w.Owned e)
  | .unlock co key => inferInstanceAs (Decidable (w.phase co = .idle → ∀ r ∈ w.map (co.1, key), r.co = co.2))
  | .execute co => inferInstanceAs (Decidable (∀ d ∈ (w.phase co).deleting, ∀ acq ∈ w.redis d.1, acq = d.2))
  | .timeout n => inferInstanceAs (Decidable (∀ t ∈ w.timers[n]?, ∀ r ∈ w.map (t.svc, t.key), r.acq ≤ t.acq))
  | .trylock _ _ _ => isTrue trivial
  | .reply _ => isTrue trivial
  | .raise _ => isTrue trivial
  | .wake _ => isTrue trivial
  | .expire _ => isTrue trivial

/-- What a step may release: `unlock` the lock of a stay of the caller, `DEL` the key of one that the caller has ended,
and a timer no record of a later acquisition. -/
def Right : Event σ γ κ → Prop
  | .unlock co key => (∀ s ∈ w.stays, ¬ (s.co = co ∧ s.key = key)) → w.step (.unlock co key) = w
  | .execute co => ∀ key acq, w.redis key = some acq → (w.step (.execute co)).redis key = none →
      (w.phase co).deleting = some (key, acq) ∧ ∀ s ∈ w.stays, s.acq ≠ acq
  | .timeout n =>
    ∀ t ∈ w.timers[n]?, ∀ r ∈ w.map (t.svc, t.key), t.acq < r.acq → (w.step (.timeout n)).map (t.svc, t.key) = some r
  | _ => True

/-- **Two coroutines are inside only if the key of the earlier one has expired.** -/
def Exclusive : Prop :=
  ∀ s ∈ w.stays, ∀ t ∈ w.stays, s.key = t.key → s.co ≠ t.co →
    s.acq < t.acq ∧ s.acq ∈ w.expired ∨ t.acq < s.acq ∧ t.acq ∈ w.expired

end Cluster

def Phase.acq : Phase κ → Option Nat
  | .answered _ _ ret => ret
  | .deletes _ acq => some acq
  | _ => none

namespace Cluster

variable {w : Cluster σ γ κ}

/-- An acquisition of the key that nobody has released: its key is there, or has expired. -/
structure Stands (w : Cluster σ γ κ) (key : κ) (acq : Nat) : Prop where
  old : acq < w.next
  there : w.redis key = some acq ∨ acq ∈ w.expired
  last : ∀ a ∈ w.redis key, acq ≤ a

structure Good (w : Cluster σ γ κ) : Prop where
  key : ∀ key, ∀ a ∈ w.redis key, a < w.next
  hand : ∀ co, ∀ a ∈ (w.phase co).acq, a < w.next ∧ ∀ s ∈ w.stays, s.acq ≠ a
  hands : ∀ co co', ∀ a ∈ (w.phase co).acq, a ∈ (w.phase co').acq → co = co'
  answered : ∀ co key left acq, w.phase co = .answered key left (some acq) → w.Stands key acq
  stay : ∀ s ∈ w.stays, w.Stands s.key s.acq
  one : ∀ s ∈ w.stays, ∀ t ∈ w.stays, s.acq = t.acq → s = t
  record : ∀ svc key, ∀ r ∈ w.map (svc, key), (⟨(svc, r.co), key, r.acq⟩ : Stay σ γ κ) ∈ w.stays

omit [DecidableEq σ] [DecidableEq γ] [DecidableEq κ] in
theorem good_new : (new : Cluster σ γ κ).Good where
  key key a h := by cases h
  hand co a h := by cases h
  hands co co' a h := by cases h
  answered co key left acq h := by cases h
  stay s h := by cases h
  one s h := by cases h
  record svc key r h := by cases h

omit [DecidableEq σ] [DecidableEq γ] [DecidableEq κ] in
theorem Good.exclusive (h : w.Good) : w.Exclusive := by
  intro s hs t ht hkey hco
  have hs' := h.stay s hs
  have ht' := h.stay t ht
  rw [← hkey] at ht'
  have hne : s.acq ≠ t.acq := fun heq => hco (congrArg Stay.co (h.one s hs t ht heq))
  rcases Nat.lt_or_gt_of_ne hne with hlt | hlt
  · refine Or.inl ⟨hlt, hs'.there.resolve_left (fun hr => ?_)⟩
    have := ht'.last s.acq hr
    omega
  · refine Or.inr ⟨hlt, ht'.there.resolve_left (fun hr => ?_)⟩
    have := hs'.last t.acq hr
    omega

omit [DecidableEq σ] [DecidableEq γ] [DecidableEq κ] in
theorem Stands.mono {w' : Cluster σ γ κ} {key : κ} {acq : Nat} (h : w.Stands key acq) (hredis : w'.redis key = w.redis key)
    (hnext : w.next ≤ w'.next) (hexp : ∀ a ∈ w.expired, a ∈ w'.expired) : w'.Stands key acq where
  old := Nat.lt_of_lt_of_le h.old hnext
  there := by
    rw [hredis]
    exact h.there.imp_right (hexp acq)
  last := by
    rw [hredis]
    exact h.last

omit [DecidableEq κ] in
theorem acq_update (f : σ × γ → Phase κ) (co c : σ × γ) (p : Phase κ) :
    (Function.update f co p c).acq = if c = co then p.acq else (f c).acq := by
  by_cases hc : c = co
  · simp [hc]
  · simp [hc]

omit [DecidableEq κ] in
theorem Good.setPhase (h : w.Good) (co : σ × γ) {p : Phase κ} (hp : p.acq = none) : (w.setPhase co p).Good where
  key := h.key
  hand c a ha := by
    simp only [Cluster.setPhase, acq_update, hp] at ha
    split at ha
    · cases ha
    · exact h.hand c a ha
  hands c c' a ha ha' := by
    simp only [Cluster.setPhase, acq_update, hp] at ha ha'
    split at ha
    · cases ha
    · split at ha'
      · cases ha'
      · exact h.hands c c' a ha ha'
  answered c key left acq hph := by
    by_cases hc : c = co
    · subst hc
      simp only [Cluster.setPhase, Function.update_self] at hph
      rw [hph] at hp
      cases hp
    · simp only [Cluster.setPhase, Function.update_of_ne hc] at hph
      exact (h.answered c key left acq hph).mono rfl (Nat.le_refl _) (fun _ ha => ha)
  stay s hs := (h.stay s hs).mono rfl (Nat.le_refl _) (fun _ ha => ha)
  one := h.one
  record := h.record

omit [DecidableEq κ] in
theorem Good.again (h : w.Good) (co : σ × γ) (key : κ) : ∀ left, (w.again co key left).Good
  | 0 => h.setPhase co rfl
  | _ + 1 => h.setPhase co rfl

theorem Stands.made {key k : κ} {acq : Nat} {co : σ × γ} {left : Nat} (h : w.Stands k acq) (hno : w.redis key = none) :
    Stands { w with
      redis := Function.update w.redis key (some w.next)
      next := w.next + 1
      phase := Function.update w.phase co (.answered key left (some w.next)) } k acq where
  old := Nat.lt_succ_of_lt h.old
  there := by
    by_cases hk : k = key
    · subst hk
      exact Or.inr (h.there.resolve_left (fun hr => by rw [hno] at hr; cases hr))
    · simp only [Function.update_of_ne hk]
      exact h.there
  last a ha := by
    by_cases hk : k = key
    · subst hk
      simp only [Function.update_self] at ha
      obtain rfl := Option.some.inj ha
      exact Nat.le_of_lt h.old
    · simp only [Function.update_of_ne hk] at ha
      exact h.last a ha

theorem Good.setexnx (h : w.Good) (co : σ × γ) (key : κ) (left : Nat) : (w.setexnx co key left).Good := by
  unfold Cluster.setexnx
  split
  next hno =>
    exact {
      key := fun k a ha => by
        by_cases hk : k = key
        · subst hk
          simp only [Function.update_self] at ha
          obtain rfl := Option.some.inj ha
          exact Nat.lt_succ_self _
        · simp only [Function.update_of_ne hk] at ha
          exact Nat.lt_succ_of_lt (h.key k a ha)
      hand := fun c a ha => by
        simp only [acq_update] at ha
        split at ha
        · obtain rfl := Option.some.inj ha
          exact ⟨Nat.lt_succ_self _, fun s hs => Nat.ne_of_lt (h.stay s hs).old⟩
        · exact ⟨Nat.lt_succ_of_lt (h.hand c a ha).1, (h.hand c a ha).2⟩
      hands := fun c c' a ha ha' => by
        simp only [acq_update] at ha ha'
        split at ha
        · next hc =>
          split at ha'
          · next hc' => exact hc.trans hc'.symm
          · obtain rfl := Option.some.inj ha
            exact absurd (h.hand c' _ ha').1 (Nat.lt_irrefl _)
        · split at ha'
          · obtain rfl := Option.some.inj ha'
            exact absurd (h.hand c _ ha).1 (Nat.lt_irrefl _)
          · exact h.hands c c' a ha ha'
      answered := fun c k l acq hph => by
        by_cases hc : c = co
        · subst hc
          simp only [Function.update_self, Phase.answered.injEq, Option.some.injEq] at hph
          obtain ⟨rfl, -, rfl⟩ := hph
          exact ⟨Nat.lt_succ_self _, Or.inl (by simp), fun a ha => by simp at ha; omega⟩
        · simp only [Function.update_of_ne hc] at hph
          exact (h.answered c k l acq hph).made hno
      stay := fun s hs => (h.stay s hs).made hno
      one := h.one
      record := h.record }
  next => exact h.setPhase co rfl

theorem Good.delete (h : w.Good) {co : σ × γ} {key : κ} {acq : Nat} (hph : w.phase co = .deletes key acq)
    (hown : ∀ a ∈ w.redis key, a = acq) : (w.delete co key).Good := by
  have hacq : acq ∈ (w.phase co).acq := by
    rw [hph]
    rfl
  have hstands : ∀ k a, a ≠ acq → w.Stands k a → (w.delete co key).Stands k a := fun k a hne hs => {
    old := hs.old
    there := by
      by_cases hk : k = key
      · subst hk
        exact Or.inr (hs.there.resolve_left (fun hr => hne (hown a hr)))
      · simp only [Cluster.delete, Function.update_of_ne hk]
        exact hs.there
    last := fun b hb => by
      by_cases hk : k = key
      · subst hk
        simp [Cluster.delete] at hb
      · simp only [Cluster.delete, Function.update_of_ne hk] at hb
        exact hs.last b hb }
  have hgood := h.setPhase co (p := .idle) rfl
  exact {
    key := fun k a ha => by
      by_cases hk : k = key
      · subst hk
        simp [Cluster.delete] at ha
      · simp only [Cluster.delete, Function.update_of_ne hk] at ha
        exact h.key k a ha
    hand := hgood.hand
    hands := hgood.hands
    answered := fun c k left a hans => by
      by_cases hc : c = co
      · subst hc
        simp [Cluster.delete] at hans
      · simp only [Cluster.delete, Function.update_of_ne hc] at hans
        refine hstands k a (fun heq => hc ?_) (h.answered c k left a hans)
        refine h.hands c co acq ?_ hacq
        rw [hans, heq]
        rfl
    stay := fun s hs => hstands s.key s.acq ((h.hand co acq hacq).2 s hs) (h.stay s hs)
    one := h.one
    record := h.record }

theorem Good.answer (h : w.Good) {co : σ × γ} {key : κ} {left : Nat} {ret : Option Nat}
    (hph : w.phase co = .answered key left ret) : (w.answer co key left ret).Good := by
  cases ret with
  | none => exact h.setPhase co rfl
  | some acq =>
    have hacq : acq ∈ (w.phase co).acq := by
      rw [hph]
      rfl
    have hstands := h.answered co key left acq hph
    have hgood := h.setPhase co (p := .idle) rfl
    exact {
      key := h.key
      hand := fun c a ha => by
        obtain ⟨hlt, hno⟩ := hgood.hand c a ha
        refine ⟨hlt, fun s hs => ?_⟩
        rcases List.mem_cons.1 hs with rfl | hs
        · rintro rfl
          simp only [Cluster.answer, acq_update] at ha
          split at ha
          · cases ha
          · next hc => exact hc (h.hands c co _ ha hacq)
        · exact hno s hs
      hands := hgood.hands
      answered := fun c k l a hans => (hgood.answered c k l a hans).mono rfl (Nat.le_refl _) (fun _ ha => ha)
      stay := fun s hs => by
        rcases List.mem_cons.1 hs with rfl | hs
        · exact hstands.mono rfl (Nat.le_refl _) (fun _ ha => ha)
        · exact (h.stay s hs).mono rfl (Nat.le_refl _) (fun _ ha => ha)
      one := fun s hs t ht heq => by
        rcases List.mem_cons.1 hs with rfl | hs <;> rcases List.mem_cons.1 ht with rfl | ht
        · rfl
        · exact absurd heq.symm ((h.hand co acq hacq).2 t ht)
        · exact absurd heq ((h.hand co acq hacq).2 s hs)
        · exact h.one s hs t ht heq
      record := fun svc k r hr => by
        by_cases hk : (svc, k) = (co.1, key)
        · obtain ⟨rfl, rfl⟩ := Prod.mk.inj hk
          simp only [Cluster.answer, Function.update_self] at hr
          obtain rfl := Option.some.inj hr
          exact List.mem_cons_self
        · simp only [Cluster.answer, Function.update_of_ne hk] at hr
          exact List.mem_cons_of_mem _ (h.record svc k r hr) }

omit [DecidableEq σ] [DecidableEq γ] [DecidableEq κ] in
theorem Good.stays_again (h : w.Good) {s : Stay σ γ κ} (hs : s ∈ w.stays) : Good { w with stays := s :: w.stays } := by
  have hmem : ∀ t, t ∈ s :: w.stays → t ∈ w.stays := fun t ht => by
    rcases List.mem_cons.1 ht with rfl | ht
    · exact hs
    · exact ht
  exact {
    key := h.key
    hand := fun c a ha => ⟨(h.hand c a ha).1, fun t ht => (h.hand c a ha).2 t (hmem t ht)⟩
    hands := h.hands
    answered := fun c k left a hans => (h.answered c k left a hans).mono rfl (Nat.le_refl _) (fun _ ha => ha)
    stay := fun t ht => (h.stay t (hmem t ht)).mono rfl (Nat.le_refl _) (fun _ ha => ha)
    one := fun t ht u hu => h.one t (hmem t ht) u (hmem u hu)
    record := fun svc k r hr => List.mem_cons_of_mem _ (h.record svc k r hr) }

omit [DecidableEq κ] in
theorem Good.trylock (h : w.Good) (co : σ × γ) (key : κ) (seconds : Nat) : (w.trylock co key seconds).Good := by
  unfold Cluster.trylock
  split
  next r hr =>
    obtain ⟨hr, hco⟩ := Option.filter_eq_some_iff.1 hr
    refine h.stays_again ?_
    have hmem := h.record co.1 key r hr
    rwa [of_decide_eq_true hco] at hmem
  next => exact h.again co key seconds

omit [DecidableEq σ] [DecidableEq γ] [DecidableEq κ] in
theorem Good.forget (h : w.Good) {map : σ × κ → Option (Record γ)} {timers : List (Timer σ κ)} {stays : List (Stay σ γ κ)}
    (hsub : ∀ s ∈ stays, s ∈ w.stays)
    (hrec : ∀ svc key, ∀ r ∈ map (svc, key), (⟨(svc, r.co), key, r.acq⟩ : Stay σ γ κ) ∈ stays) :
    Good { w with map := map, timers := timers, stays := stays } where
  key := h.key
  hand c a ha := ⟨(h.hand c a ha).1, fun t ht => (h.hand c a ha).2 t (hsub t ht)⟩
  hands := h.hands
  answered c k left a hans := (h.answered c k left a hans).mono rfl (Nat.le_refl _) (fun _ ha => ha)
  stay t ht := (h.stay t (hsub t ht)).mono rfl (Nat.le_refl _) (fun _ ha => ha)
  one t ht u hu := h.one t (hsub t ht) u (hsub u hu)
  record := hrec

theorem Good.unlock (h : w.Good) {co : σ × γ} {key : κ} (hown : ∀ r ∈ w.map (co.1, key), r.co = co.2) :
    (w.unlock co key).Good := by
  have hleft : ∀ s ∈ w.stays.filter (fun s => ¬ (s.co = co ∧ s.key = key)), s ∈ w.stays ∧ ¬ (s.co = co ∧ s.key = key) :=
    fun s hs => ⟨(List.mem_filter.1 hs).1, of_decide_eq_true (List.mem_filter.1 hs).2⟩
  have hrec : ∀ svc k, (svc, k) ≠ (co.1, key) → ∀ r ∈ w.map (svc, k),
      (⟨(svc, r.co), k, r.acq⟩ : Stay σ γ κ) ∈ w.stays.filter (fun s => ¬ (s.co = co ∧ s.key = key)) :=
        fun svc k hk r hr => by
    refine List.mem_filter.2 ⟨h.record svc k r hr, decide_eq_true ?_⟩
    rintro ⟨hco, rfl⟩
    exact hk (by rw [← congrArg Prod.fst hco])
  unfold Cluster.unlock
  cases hr : w.map (co.1, key) with
  | none =>
    refine h.forget (fun s hs => (hleft s hs).1) (fun svc k r hr' => ?_)
    by_cases hk : (svc, k) = (co.1, key)
    · rw [hk, hr] at hr'
      cases hr'
    · exact hrec svc k hk r hr'
  | some r =>
    have hmem := h.record co.1 key r hr
    rw [hown r hr] at hmem
    have hgood : Good { w with
        map := Function.update w.map (co.1, key) none
        stays := w.stays.filter (fun s => ¬ (s.co = co ∧ s.key = key)) } := by
      refine h.forget (fun s hs => (hleft s hs).1) (fun svc k r' hr' => ?_)
      by_cases hk : (svc, k) = (co.1, key)
      · rw [hk, Function.update_self] at hr'
        cases hr'
      · rw [Function.update_of_ne hk] at hr'
        exact hrec svc k hk r' hr'
    exact {
      key := hgood.key
      hand := fun c a ha => by
        simp only [acq_update] at ha
        split at ha
        · obtain rfl := Option.some.inj ha
          refine ⟨(h.stay _ hmem).old, fun s hs heq => (hleft s hs).2 ?_⟩
          have := h.one s (hleft s hs).1 _ hmem heq
          rw [this]
          exact ⟨rfl, rfl⟩
        · exact hgood.hand c a ha
      hands := fun c c' a ha ha' => by
        simp only [acq_update] at ha ha'
        split at ha <;> split at ha'
        · next hc hc' => exact hc.trans hc'.symm
        · obtain rfl := Option.some.inj ha
          exact absurd rfl ((h.hand c' _ ha').2 _ hmem)
        · obtain rfl := Option.some.inj ha'
          exact absurd rfl ((h.hand c _ ha).2 _ hmem)
        · exact h.hands c c' a ha ha'
      answered := fun c k left a hans => by
        by_cases hc : c = co
        · subst hc
          simp at hans
        · simp only [Function.update_of_ne hc] at hans
          exact (h.answered c k left a hans).mono rfl (Nat.le_refl _) (fun _ ha => ha)
      stay := fun s hs => (hgood.stay s hs).mono rfl (Nat.le_refl _) (fun _ ha => ha)
      one := hgood.one
      record := hgood.record }

omit [DecidableEq σ] [DecidableEq γ] in
theorem Good.expire (h : w.Good) (key : κ) : (w.expire key).Good := by
  unfold Cluster.expire
  split
  next acq hacq =>
    have hstands : ∀ k a, w.Stands k a →
        Stands { w with redis := Function.update w.redis key none, expired := acq :: w.expired } k a := fun k a hs => {
      old := hs.old
      there := by
        by_cases hk : k = key
        · subst hk
          refine Or.inr (hs.there.elim (fun hr => ?_) (fun hexp => List.mem_cons_of_mem _ hexp))
          obtain rfl := Option.some.inj (hr.symm.trans hacq)
          exact List.mem_cons_self
        · simp only [Function.update_of_ne hk]
          exact hs.there.imp_right (fun hexp => List.mem_cons_of_mem _ hexp)
      last := fun b hb => by
        by_cases hk : k = key
        · subst hk
          simp at hb
        · simp only [Function.update_of_ne hk] at hb
          exact hs.last b hb }
    exact {
      key := fun k a ha => by
        by_cases hk : k = key
        · subst hk
          simp at ha
        · simp only [Function.update_of_ne hk] at ha
          exact h.key k a ha
      hand := h.hand
      hands := h.hands
      answered := fun c k left a hans => hstands k a (h.answered c k left a hans)
      stay := fun s hs => hstands s.key s.acq (h.stay s hs)
      one := h.one
      record := h.record }
  next => exact h

omit [DecidableEq γ] in
theorem Good.timeout (h : w.Good) (n : Nat) : (w.timeout n).Good := by
  unfold Cluster.timeout
  split
  next t _ =>
    refine h.forget (fun s hs => hs) (fun svc k r hr => ?_)
    by_cases hk : (svc, k) = (t.svc, t.key)
    · rw [hk, Function.update_self] at hr
      cases hr
    · rw [Function.update_of_ne hk] at hr
      exact h.record svc k r hr
  next => exact h

theorem Good.step (h : w.Good) : ∀ e : Event σ γ κ, w.Owned e → (w.step e).Good
  | .trylock co key seconds, _ => by
    simp only [Cluster.step]
    split
    · exact h.trylock co key seconds
    · exact h
  | .unlock co key, hown => by
    simp only [Cluster.step]
    split
    · next hidle => exact h.unlock (hown hidle)
    · exact h
  | .execute co, hown => by
    simp only [Cluster.step]
    cases hph : w.phase co with
    | sets key left => exact h.setexnx co key left
    | deletes key acq => exact h.delete hph (hown (key, acq) (by rw [hph]; rfl))
    | idle => exact h
    | answered key left ret => exact h
    | sleeps key left => exact h
  | .reply co, _ => by
    simp only [Cluster.step]
    cases hph : w.phase co with
    | answered key left ret => exact h.answer hph
    | idle => exact h
    | sets key left => exact h
    | deletes key acq => exact h
    | sleeps key left => exact h
  | .raise co, _ => by
    simp only [Cluster.step]
    split
    · exact h
    · exact h.setPhase co rfl
  | .wake co, _ => by
    simp only [Cluster.step]
    split
    · exact h.again co _ _
    · exact h
  | .expire key, _ => h.expire key
  | .timeout n, _ => h.timeout n

theorem Good.right (h : w.Good) : ∀ e : Event σ γ κ, w.Owned e → w.Right e
  | .unlock co key, hown => fun hno => by
    simp only [Cluster.step]
    split
    next hidle =>
      have hstays : w.stays.filter (fun s => ¬ (s.co = co ∧ s.key = key)) = w.stays :=
        List.filter_eq_self.2 (fun s hs => decide_eq_true (hno s hs))
      unfold Cluster.unlock
      cases hr : w.map (co.1, key) with
      | none => simp only [hstays]
      | some r =>
        have hmem := h.record co.1 key r hr
        rw [hown hidle r hr] at hmem
        exact absurd ⟨rfl, rfl⟩ (hno _ hmem)
    next => rfl
  | .execute co, hown => fun key acq hacq hgone => by
    simp only [Cluster.step] at hgone
    cases hph : w.phase co with
    | deletes k a =>
      rw [hph] at hgone
      by_cases hk : key = k
      · subst hk
        obtain rfl := hown (key, a) (by rw [hph]; rfl) acq hacq
        refine ⟨rfl, (h.hand co acq ?_).2⟩
        rw [hph]
        rfl
      · simp only [Cluster.delete, Function.update_of_ne hk] at hgone
        rw [hacq] at hgone
        cases hgone
    | sets k left =>
      rw [hph] at hgone
      simp only [Cluster.setexnx] at hgone
      split at hgone
      · by_cases hk : key = k
        · subst hk
          simp at hgone
        · simp only [Function.update_of_ne hk] at hgone
          rw [hacq] at hgone
          cases hgone
      · rw [Cluster.setPhase, hacq] at hgone
        cases hgone
    | idle => simp [hph, hacq] at hgone
    | answered k left ret => simp [hph, hacq] at hgone
    | sleeps k left => simp [hph, hacq] at hgone
  | .timeout n, hown => fun t ht r hr hlt => absurd (hown t ht r hr) (Nat.not_le_of_lt hlt)
  | .trylock _ _ _, _ => trivial
  | .reply _, _ => trivial
  | .raise _, _ => trivial
  | .wake _, _ => trivial
  | .expire _, _ => trivial

end Cluster

open Cluster

/-- **The lock is released by its holder only**, and two coroutines are inside only if the key of the earlier one has
expired. -/
theorem released_of_run (events : List (Event σ γ κ)) (h : Steps.Along step Owned (new : Cluster σ γ κ) events) :
    Steps.Along step (fun w e => w.Right e ∧ (w.step e).Exclusive) (new : Cluster σ γ κ) events :=
  Steps.Along.keep (I := Good) (fun _ e howned hgood =>
    have hnext := hgood.step e howned
    ⟨hnext, hgood.right e howned, hnext.exclusive⟩) events new good_new h

def shift : List (Event Nat Nat Nat) :=
  [.trylock (0, 1) 7 2, .execute (0, 1), .reply (0, 1), .trylock (1, 1) 7 2, .execute (1, 1), .reply (1, 1),
    .unlock (0, 1) 7, .execute (0, 1), .wake (1, 1), .execute (1, 1), .reply (1, 1), .expire 7,
    .trylock (0, 2) 7 1, .execute (0, 2), .reply (0, 2), .timeout 1]

theorem released_of_shift :
    Steps.Along step (fun w e => w.Right e ∧ (w.step e).Exclusive) new shift ∧
      (shift.foldl step new).stays = [⟨(0, 2), 7, 2⟩, ⟨(1, 1), 7, 1⟩] ∧ (shift.foldl step new).expired = [1] :=
  ⟨released_of_run shift (by decide), by decide, by decide⟩

/-- Another coroutine of the service unlocks, a third goes in, and the timer of the first clears its record. -/
def raid : List (Event Nat Nat Nat) :=
  [.trylock (0, 1) 7 2, .execute (0, 1), .reply (0, 1), .unlock (0, 2) 7, .execute (0, 2), .trylock (0, 3) 7 2,
    .execute (0, 3),
    .reply (0, 3), .timeout 0]

theorem unlocked_by_another :
    ¬ ((raid.take 3).foldl step new).Right (.unlock (0, 2) 7) ∧ ¬ ((raid.take 8).foldl step new).Exclusive ∧
      ¬ ((raid.take 8).foldl step new).Right (.timeout 0) := by
  refine ⟨fun h => ?_, fun h => ?_, fun h => ?_⟩
  · have hkept := h (by decide)
    have hmap := congrArg (fun w => w.map (0, 7)) hkept
    revert hmap
    decide
  · have hboth := h ⟨(0, 1), 7, 0⟩ (by decide) ⟨(0, 3), 7, 1⟩ (by decide) rfl (by decide)
    revert hboth
    decide
  · have hmap := h ⟨0, 7, 0⟩ (by decide) ⟨3, 1⟩ (by decide) (by decide)
    revert hmap
    decide

end RedisLock
end Sncpp
