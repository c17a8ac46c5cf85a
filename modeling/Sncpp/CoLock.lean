import Sncpp.Co
/-!
# CoLock — what a serial queue protects

A queue `q` protects a part of the state, `view s q`.  Only its holder changes that part, so a body run through the
queue is checked as if it ran alone (`wp`): every other coroutine leaves the part as it was.  `Spec` states what the
part satisfies while the queue is idle, when it passes from one thread to the next and while its holder waits, with an
invariant of the whole state at every wait.
-/
namespace Sncpp
namespace Co

/-- What the queues protect. -/
structure Spec (σ κ ζ : Type) where
  view : σ → κ → ζ
  idle : κ → ζ → Prop
  handed : κ → ζ → Prop
  held : κ → ζ → Prop
  inv : σ → Prop

variable {σ κ χ ρ ο ε ζ α β : Type}

/-- The outcome of a program: its result or its error, the queue it holds then, and the state. -/
abbrev Post (σ κ α : Type) : Type := Except String α → Option κ → σ → Prop

/-- **The condition under which a program, holding `o` in state `s`, keeps the specification and ends in `Q`.**
An action leaves every part alone but the held queue's; a wait forgets everything but that part. -/
def wp (P : Spec σ κ ζ) (may : χ → ρ → Bool) : Prog σ κ χ ρ α → Option κ → Post σ κ α → σ → Prop
  | .ret a, o, Q, s => Q (.ok a) o s
  | .err m, o, Q, s => Q (.error m) o s
  | .act f k, o, Q, s => (∀ x, o ≠ some x → P.view (f s) x = P.view s x) ∧ wp P may (k s) o Q (f s)
  | .mark p k, o, Q, s => (∃ sq, p s sq = true) → wp P may k o Q s
  | .call q k, o, Q, s => P.inv s ∧ (∀ x, o = some x → P.held x (P.view s x)) ∧
      ∀ r, may q r = true → ∀ s', P.inv s' → (∀ x, o = some x → P.view s' x = P.view s x) → wp P may (k r) o Q s'
  | .enter q k, o, Q, s => o = none ∧ P.inv s ∧ (P.idle q (P.view s q) → wp P may k (some q) Q s) ∧
      ∀ s', P.inv s' → P.handed q (P.view s' q) → wp P may k (some q) Q s'
  | .take q f k, o, Q, s => o = none ∧ (P.idle q (P.view s q) →
      (∀ x, x ≠ q → P.view (f s) x = P.view s x) ∧ wp P may k (some q) Q (f s))
  | .poke q f k, o, Q, s => o ≠ some q ∧ (P.idle q (P.view s q) →
      (∀ x, x ≠ q → P.view (f s) x = P.view s x) ∧ P.idle q (P.view (f s) q) ∧ wp P may k o Q (f s))
  | .leave q k, o, Q, s => o = some q ∧ P.idle q (P.view s q) ∧ P.handed q (P.view s q) ∧ wp P may k none Q s

/-- A coroutine ends outside every queue, with the invariant. -/
def Spec.final (P : Spec σ κ ζ) : Post σ κ α := fun _ o s => o = none ∧ P.inv s

section Rules

variable {P : Spec σ κ ζ} {may : χ → ρ → Bool}

theorem wp_mono {Q Q' : Post σ κ α} (hQ : ∀ r o s, Q r o s → Q' r o s) :
    ∀ (p : Prog σ κ χ ρ α) (o : Option κ) (s : σ), wp P may p o Q s → wp P may p o Q' s
  | .ret _, _, _, h => hQ _ _ _ h
  | .err _, _, _, h => hQ _ _ _ h
  | .act f k, o, s, h => ⟨h.1, wp_mono hQ (k s) o (f s) h.2⟩
  | .mark _ k, o, s, h => fun hp => wp_mono hQ k o s (h hp)
  | .call _ k, o, _, h => ⟨h.1, h.2.1, fun r hr s' hi hv => wp_mono hQ (k r) o s' (h.2.2 r hr s' hi hv)⟩
  | .enter _ k, _, _, h =>
    ⟨h.1, h.2.1, fun hi => wp_mono hQ k _ _ (h.2.2.1 hi), fun s' hi hh => wp_mono hQ k _ _ (h.2.2.2 s' hi hh)⟩
  | .take _ _ k, _, _, h => ⟨h.1, fun hi => ⟨(h.2 hi).1, wp_mono hQ k _ _ (h.2 hi).2⟩⟩
  | .poke _ _ k, _, _, h => ⟨h.1, fun hi => ⟨(h.2 hi).1, (h.2 hi).2.1, wp_mono hQ k _ _ (h.2 hi).2.2⟩⟩
  | .leave _ k, _, _, h => ⟨h.1, h.2.1, h.2.2.1, wp_mono hQ k _ _ h.2.2.2⟩

/-- What the first of two programs must end in. -/
def Post.andThen (P : Spec σ κ ζ) (may : χ → ρ → Bool) (g : α → Prog σ κ χ ρ β) (Q : Post σ κ β) : Post σ κ α :=
  fun r o s => match r with
    | .ok a => wp P may (g a) o Q s
    | .error m => Q (.error m) o s

theorem wp_bind (g : α → Prog σ κ χ ρ β) (Q : Post σ κ β) : ∀ (p : Prog σ κ χ ρ α) (o : Option κ) (s : σ),
    wp P may p o (Post.andThen P may g Q) s → wp P may (p.bind g) o Q s
  | .ret _, _, _, h => h
  | .err _, _, _, h => h
  | .act f k, o, s, h => ⟨h.1, wp_bind g Q (k s) o (f s) h.2⟩
  | .mark _ k, o, s, h => fun hp => wp_bind g Q k o s (h hp)
  | .call _ k, o, _, h => ⟨h.1, h.2.1, fun r hr s' hi hv => wp_bind g Q (k r) o s' (h.2.2 r hr s' hi hv)⟩
  | .enter _ k, _, _, h =>
    ⟨h.1, h.2.1, fun hi => wp_bind g Q k _ _ (h.2.2.1 hi), fun s' hi hh => wp_bind g Q k _ _ (h.2.2.2 s' hi hh)⟩
  | .take _ _ k, _, _, h => ⟨h.1, fun hi => ⟨(h.2 hi).1, wp_bind g Q k _ _ (h.2 hi).2⟩⟩
  | .poke _ _ k, _, _, h => ⟨h.1, fun hi => ⟨(h.2 hi).1, (h.2 hi).2.1, wp_bind g Q k _ _ (h.2 hi).2.2⟩⟩
  | .leave _ k, _, _, h => ⟨h.1, h.2.1, h.2.2.1, wp_bind g Q k _ _ h.2.2.2⟩

theorem wp_get {g : σ → Prog σ κ χ ρ α} {o : Option κ} {Q : Post σ κ α} {s : σ} (h : wp P may (g s) o Q s) :
    wp P may (Prog.get >>= g) o Q s :=
  ⟨fun _ _ => rfl, h⟩

theorem wp_xpcall (Q : Post σ κ (Except String α)) : ∀ (p : Prog σ κ χ ρ α) (o : Option κ) (s : σ),
    wp P may p o (fun r o' s' => Q (.ok r) o' s') s → wp P may p.xpcall o Q s
  | .ret _, _, _, h => h
  | .err _, _, _, h => h
  | .act f k, o, s, h => ⟨h.1, wp_xpcall Q (k s) o (f s) h.2⟩
  | .mark _ k, o, s, h => fun hp => wp_xpcall Q k o s (h hp)
  | .call _ k, o, _, h => ⟨h.1, h.2.1, fun r hr s' hi hv => wp_xpcall Q (k r) o s' (h.2.2 r hr s' hi hv)⟩
  | .enter _ k, _, _, h =>
    ⟨h.1, h.2.1, fun hi => wp_xpcall Q k _ _ (h.2.2.1 hi), fun s' hi hh => wp_xpcall Q k _ _ (h.2.2.2 s' hi hh)⟩
  | .take _ _ k, _, _, h => ⟨h.1, fun hi => ⟨(h.2 hi).1, wp_xpcall Q k _ _ (h.2 hi).2⟩⟩
  | .poke _ _ k, _, _, h => ⟨h.1, fun hi => ⟨(h.2 hi).1, (h.2 hi).2.1, wp_xpcall Q k _ _ (h.2 hi).2.2⟩⟩
  | .leave _ k, _, _, h => ⟨h.1, h.2.1, h.2.2.1, wp_xpcall Q k _ _ h.2.2.2⟩

/-- The outcome a body must reach before its queue is released. -/
def Spec.unlock (P : Spec σ κ ζ) (q : κ) (Q : Post σ κ α) : Post σ κ α := fun r o s =>
  o = some q ∧ P.idle q (P.view s q) ∧ P.handed q (P.view s q) ∧ Q r none s

theorem wp_inside (q : κ) (body : Prog σ κ χ ρ α) (Q : Post σ κ α) (o : Option κ) (s : σ)
    (h : wp P may body o (P.unlock q Q) s) : wp P may (Prog.inside q body) o Q s := by
  refine wp_bind _ _ _ _ _ (wp_xpcall _ _ _ _ (wp_mono ?_ _ _ _ h))
  rintro (m | a) o' s' ⟨ho, hi, hh, hq⟩
  · exact ⟨ho, hi, hh, hq⟩
  · exact ⟨ho, hi, hh, hq⟩

theorem wp_serialTake (q : κ) (f : σ → σ) (body : Prog σ κ χ ρ α) (Q : Post σ κ α) (s : σ)
    (h : P.idle q (P.view s q) → (∀ x, x ≠ q → P.view (f s) x = P.view s x) ∧
      wp P may body (some q) (P.unlock q Q) (f s)) :
    wp P may (Prog.serialTake q f body) none Q s :=
  ⟨rfl, fun hi => ⟨(h hi).1, wp_inside q body Q _ _ (h hi).2⟩⟩

end Rules

/-! ## Worlds that fit the specification -/

/-- What a suspended call does with any answer it may get, once the state kept the part it holds. -/
def Resumes (P : Spec σ κ ζ) (may : χ → ρ → Bool) (q : χ) (k : ρ → Prog σ κ χ ρ Unit) (o : Option κ) (s : σ) : Prop :=
  ∀ r, may q r = true → ∀ s', P.inv s' → (∀ x, o = some x → P.view s' x = P.view s x) → wp P may (k r) o P.final s'

/-- **The queues, the waiting coroutines and the state fit together**, with the running coroutine `me` (if any) inside
`o` (if any) left out. -/
structure Fit (P : Spec σ κ ζ) (may : χ → ρ → Bool) (me : Option Nat) (o : Option κ) (g : Cfg σ κ)
    (co : Nat → Option (Susp σ κ χ ρ)) : Prop where
  mine : ∀ c, me = some c → ∀ q, (g.sq q).current = some c ↔ o = some q
  depth : ∀ c q, me = some c → o = some q → (g.sq q).ref = 1
  idle : ∀ q, (g.sq q).current = none → P.idle q (P.view g.st q) ∧ g.sq q = .empty
  held : ∀ q d, (g.sq q).current = some d → some d ≠ me → (g.sq q).ref ≠ 0 →
    (g.sq q).ref = 1 ∧ P.held q (P.view g.st q) ∧ ∃ r k, co d = some (.calling r k)
  handed : ∀ q d, (g.sq q).current = some d → some d ≠ me → (g.sq q).ref = 0 →
    P.handed q (P.view g.st q) ∧ ∃ k, co d = some (.waiting q k)
  calling : ∀ d r k, some d ≠ me → co d = some (.calling r k) →
    ∃ o', (∀ q, (g.sq q).current = some d ↔ o' = some q) ∧ Resumes P may r k o' g.st
  waiting : ∀ d q k, some d ≠ me → co d = some (.waiting q k) →
    (∀ x, (g.sq x).current = some d → x = q ∧ (g.sq x).ref = 0) ∧
    ∀ s', P.inv s' → P.handed q (P.view s' q) → wp P may k (some q) P.final s'
  line : ∀ q d, d ∈ (g.sq q).waiting → some d ≠ me ∧ ∃ k, co d = some (.waiting q k)
  nodup : ∀ q, (g.sq q).waiting.Nodup ∧ ∀ d ∈ (g.sq q).waiting, (g.sq q).current ≠ some d

section Fit

variable {P : Spec σ κ ζ} {may : χ → ρ → Bool} {co : Nat → Option (Susp σ κ χ ρ)} {g : Cfg σ κ} {c : Nat}
  {o : Option κ}

theorem Resumes.of_view {q : χ} {k : ρ → Prog σ κ χ ρ Unit} {s s' : σ} (h : Resumes P may q k o s)
    (hv : ∀ x, o = some x → P.view s' x = P.view s x) : Resumes P may q k o s' :=
  fun r hr t hi ht => h r hr t hi (fun x hx => (ht x hx).trans (hv x hx))

/-- **An action of the running coroutine keeps the fit**: it touches only its own part. -/
theorem Fit.act (h : Fit P may (some c) o g co) (s' : σ) (b : Bool)
    (hv : ∀ x, o ≠ some x → P.view s' x = P.view g.st x) :
    Fit P may (some c) o { g with st := s', clean := b } co := by
  have other : ∀ q d, (g.sq q).current = some d → some d ≠ some c → P.view s' q = P.view g.st q := by
    intro q d hq hd
    refine hv q (fun ho => hd ?_)
    rw [← hq, (h.mine c rfl q).2 ho]
  refine ⟨h.mine, h.depth, fun q hq => ?_, fun q d hq hd hr => ?_, fun q d hq hd hr => ?_,
    fun d r k hd hk => ?_, h.waiting, h.line, h.nodup⟩
  · have hne : o ≠ some q := fun ho => by rw [(h.mine c rfl q).2 ho] at hq; cases hq
    refine ⟨?_, (h.idle q hq).2⟩
    show P.idle q (P.view s' q)
    rw [hv q hne]
    exact (h.idle q hq).1
  · show _ ∧ P.held q (P.view s' q) ∧ _
    rw [other q d hq hd]
    exact h.held q d hq hd hr
  · show P.handed q (P.view s' q) ∧ _
    rw [other q d hq hd]
    exact h.handed q d hq hd hr
  · obtain ⟨o', ho', hres⟩ := h.calling d r k hd hk
    exact ⟨o', ho', hres.of_view (fun x hx => other x d ((ho' x).2 hx) hd)⟩

variable [DecidableEq κ]

theorem update_sq (sq : κ → Queue) (q x : κ) (v : Queue) :
    Function.update sq q v x = if x = q then v else sq x := by
  by_cases h : x = q
  · subst h; simp
  · simp [h]

theorem Fit.goIn (h : Fit P may (some c) none g co) (q : κ) (hq : (g.sq q).current = none) (s' : σ) (b : Bool)
    (hv : ∀ x, x ≠ q → P.view s' x = P.view g.st x) :
    Fit P may (some c) (some q) ⟨s', Function.update g.sq q ⟨some c, 1, []⟩, b⟩ co := by
  have hnone : ∀ x, (g.sq x).current ≠ some c := fun x hx => by have := (h.mine c rfl x).1 hx; cases this
  refine ⟨fun d hd x => ?_, fun d x hd hx => ?_, fun x hx => ?_, fun x d hx hd hr => ?_, fun x d hx hd hr => ?_,
    fun d r k hd hk => ?_, fun d x k hd hk => ?_, fun x d hx => ?_, fun x => ?_⟩
  · cases hd
    simp only [update_sq]
    by_cases hxq : x = q
    · subst hxq; simp
    · simp [hxq, Ne.symm hxq, hnone x]
  · cases hx
    simp
  · simp only [update_sq] at hx ⊢
    by_cases hxq : x = q
    · simp [hxq] at hx
    · simp only [hxq, if_false] at hx ⊢
      rw [hv x hxq]
      exact h.idle x hx
  · simp only [update_sq] at hx hr ⊢
    by_cases hxq : x = q
    · simp only [hxq, if_true, Option.some.injEq] at hx; exact absurd (by rw [hx]) hd
    · simp only [hxq, if_false] at hx hr ⊢
      rw [hv x hxq]
      exact h.held x d hx hd hr
  · simp only [update_sq] at hx hr ⊢
    by_cases hxq : x = q
    · simp only [hxq, if_true, Option.some.injEq] at hx; exact absurd (by rw [hx]) hd
    · simp only [hxq, if_false] at hx hr ⊢
      rw [hv x hxq]
      exact h.handed x d hx hd hr
  · obtain ⟨o', ho', hres⟩ := h.calling d r k hd hk
    have hoq : o' ≠ some q := fun hoq => by rw [(ho' q).2 hoq] at hq; cases hq
    refine ⟨o', fun x => ?_, hres.of_view (fun x hx => hv x (fun hxq => hoq (by rw [← hxq, hx])))⟩
    simp only [update_sq]
    by_cases hxq : x = q
    · subst hxq
      simp only [if_true, Option.some.injEq]
      exact ⟨fun e => absurd (by rw [e]) hd, fun e => absurd e hoq⟩
    · simp only [hxq, if_false]; exact ho' x
  · refine ⟨fun y hy => ?_, (h.waiting d x k hd hk).2⟩
    simp only [update_sq] at hy ⊢
    by_cases hyq : y = q
    · simp only [hyq, if_true, Option.some.injEq] at hy; exact absurd (by rw [hy]) hd
    · simp only [hyq, if_false] at hy ⊢
      exact (h.waiting d x k hd hk).1 y hy
  · simp only [update_sq] at hx
    by_cases hxq : x = q
    · simp [hxq] at hx
    · simp only [hxq, if_false] at hx; exact h.line x d hx
  · simp only [update_sq]
    by_cases hxq : x = q
    · simp [hxq]
    · simp only [hxq, if_false]; exact h.nodup x

theorem Fit.goBehind (h : Fit P may (some c) none g co) (q : κ) (hq : (g.sq q).current ≠ none)
    (k : Prog σ κ χ ρ Unit) (hk : ∀ s', P.inv s' → P.handed q (P.view s' q) → wp P may k (some q) P.final s') :
    Fit P may none none (Co.goBehind c q g) (Function.update co c (some (.waiting q k))) := by
  have hnone : ∀ x, (g.sq x).current ≠ some c := fun x hx => by have := (h.mine c rfl x).1 hx; cases this
  have hcur : ∀ x, (Function.update g.sq q ((g.sq q).await c) x).current = (g.sq x).current := by
    intro x; rw [update_sq]; split
    · rename_i e; subst e; rfl
    · rfl
  have href : ∀ x, (Function.update g.sq q ((g.sq q).await c) x).ref = (g.sq x).ref := by
    intro x; rw [update_sq]; split
    · rename_i e; subst e; rfl
    · rfl
  have hne : ∀ x d, (g.sq x).current = some d → d ≠ c := fun x d hx e => hnone x (e ▸ hx)
  have hco : ∀ d, d ≠ c → Function.update co c (some (.waiting q k)) d = co d := fun d hd => by simp [hd]
  refine ⟨nofun, nofun, fun x hx => ?_, fun x d hx _ hr => ?_,
    fun x d hx _ hr => ?_, fun d r k' _ hk' => ?_, fun d x k' _ hk' => ?_, fun x d hx => ?_, fun x => ?_⟩
  · simp only [Co.goBehind, hcur] at hx ⊢
    have hxq : x ≠ q := fun e => hq (e ▸ hx)
    rw [update_sq, if_neg hxq]
    exact h.idle x hx
  · simp only [Co.goBehind, hcur, href] at hx hr ⊢
    rw [hco d (hne x d hx)]
    exact h.held x d hx (fun e => hne x d hx (Option.some.inj e)) hr
  · simp only [Co.goBehind, hcur, href] at hx hr ⊢
    rw [hco d (hne x d hx)]
    exact h.handed x d hx (fun e => hne x d hx (Option.some.inj e)) hr
  · by_cases hd : d = c
    · subst hd; simp at hk'
    · rw [hco d hd] at hk'
      simp only [Co.goBehind, hcur]
      exact h.calling d r k' (fun e => hd (Option.some.inj e)) hk'
  · by_cases hd : d = c
    · subst hd
      simp only [Function.update_self, Option.some.injEq, Susp.waiting.injEq] at hk'
      obtain ⟨rfl, rfl⟩ := hk'
      refine ⟨fun y hy => ?_, hk⟩
      simp only [Co.goBehind, hcur] at hy
      exact absurd hy (hnone y)
    · rw [hco d hd] at hk'
      simp only [Co.goBehind, hcur, href]
      exact h.waiting d x k' (fun e => hd (Option.some.inj e)) hk'
  · refine ⟨by simp, ?_⟩
    simp only [Co.goBehind, update_sq] at hx
    by_cases hxq : x = q
    · subst hxq
      simp only [if_true, Queue.await, List.mem_append, List.mem_singleton] at hx
      rcases hx with hx | rfl
      · obtain ⟨h1, h2⟩ := h.line x d hx
        rw [hco d (fun e => h1 (congrArg some e))]
        exact h2
      · exact ⟨k, by simp⟩
    · simp only [hxq, if_false] at hx
      obtain ⟨h1, h2⟩ := h.line x d hx
      rw [hco d (fun e => h1 (congrArg some e))]
      exact h2
  · simp only [Co.goBehind, update_sq]
    by_cases hxq : x = q
    · subst hxq
      simp only [if_true, Queue.await]
      have hfresh : c ∉ (g.sq x).waiting := fun hm => (h.line x c hm).1 rfl
      refine ⟨List.nodup_append.2 ⟨(h.nodup x).1, by simp, fun a ha b hb => ?_⟩, fun d hd => ?_⟩
      · rw [List.mem_singleton] at hb
        exact fun e => hfresh (hb ▸ e ▸ ha)
      · rcases List.mem_append.1 hd with hd | hd
        · exact (h.nodup x).2 d hd
        · rw [List.mem_singleton] at hd; subst hd; exact hnone x
    · simp only [hxq, if_false]; exact h.nodup x

theorem Fit.leave {q : κ} (h : Fit P may (some c) (some q) g co) (hi : P.idle q (P.view g.st q))
    (hh : P.handed q (P.view g.st q)) :
    Fit P may (some c) none { g with sq := Function.update g.sq q (g.sq q).release } co := by
  have hmine : ∀ x, (g.sq x).current = some c → x = q := fun x hx => (Option.some.inj ((h.mine c rfl x).1 hx)).symm
  have hcq : (g.sq q).current = some c := (h.mine c rfl q).2 rfl
  have hrel : (g.sq q).release = ⟨(g.sq q).waiting.head?, 0, (g.sq q).waiting.tail⟩ := by
    simp [Queue.release, h.depth c q rfl rfl]
  rw [hrel]
  cases hw : (g.sq q).waiting with
  | nil =>
    refine ⟨fun d hd x => ?_, nofun, fun x hx => ?_, fun x d hx hd hr => ?_,
      fun x d hx hd hr => ?_, fun d r k hd hk => ?_, fun d x k hd hk => ?_, fun x d hx => ?_, fun x => ?_⟩
    all_goals simp only [update_sq] at *
    · cases hd
      by_cases hxq : x = q
      · simp [hxq]
      · simp only [hxq, if_false, reduceCtorEq, iff_false]
        exact fun hx => hxq (hmine x hx)
    · by_cases hxq : x = q
      · subst hxq; simp [hi, Queue.empty]
      · simp only [hxq, if_false] at hx ⊢; exact h.idle x hx
    · by_cases hxq : x = q
      · simp [hxq] at hx
      · simp only [hxq, if_false] at hx hr ⊢; exact h.held x d hx hd hr
    · by_cases hxq : x = q
      · simp [hxq] at hx
      · simp only [hxq, if_false] at hx hr ⊢; exact h.handed x d hx hd hr
    · obtain ⟨o', ho', hres⟩ := h.calling d r k hd hk
      refine ⟨o', fun x => ?_, hres⟩
      by_cases hxq : x = q
      · subst hxq
        simp only [if_true, List.head?_nil, reduceCtorEq, false_iff]
        intro e
        rw [(ho' x).2 e] at hcq
        exact hd (hcq ▸ rfl)
      · simp only [hxq, if_false]; exact ho' x
    · refine ⟨fun y hy => ?_, (h.waiting d x k hd hk).2⟩
      by_cases hyq : y = q
      · simp [hyq] at hy
      · simp only [hyq, if_false] at hy ⊢; exact (h.waiting d x k hd hk).1 y hy
    · by_cases hxq : x = q
      · simp [hxq] at hx
      · simp only [hxq, if_false] at hx; exact h.line x d hx
    · by_cases hxq : x = q
      · simp [hxq]
      · simp only [hxq, if_false]; exact h.nodup x
  | cons e es =>
    have hline := h.line q e (by rw [hw]; simp)
    obtain ⟨ke, hke⟩ := hline.2
    have hec : e ≠ c := fun he => hline.1 (congrArg some he)
    have hnd : (e :: es).Nodup := hw ▸ (h.nodup q).1
    refine ⟨fun d hd x => ?_, nofun, fun x hx => ?_, fun x d hx hd hr => ?_,
      fun x d hx hd hr => ?_, fun d r k hd hk => ?_, fun d x k hd hk => ?_, fun x d hx => ?_, fun x => ?_⟩
    all_goals simp only [update_sq] at *
    · cases hd
      by_cases hxq : x = q
      · simp [hxq, hec]
      · simp only [hxq, if_false, reduceCtorEq, iff_false]
        exact fun hx => hxq (hmine x hx)
    · by_cases hxq : x = q
      · simp [hxq] at hx
      · simp only [hxq, if_false] at hx ⊢; exact h.idle x hx
    · by_cases hxq : x = q
      · simp [hxq] at hr
      · simp only [hxq, if_false] at hx hr ⊢; exact h.held x d hx hd hr
    · by_cases hxq : x = q
      · subst hxq
        simp only [if_true, List.head?_cons, Option.some.injEq] at hx
        subst hx
        exact ⟨hh, ke, hke⟩
      · simp only [hxq, if_false] at hx hr ⊢; exact h.handed x d hx hd hr
    · obtain ⟨o', ho', hres⟩ := h.calling d r k hd hk
      refine ⟨o', fun x => ?_, hres⟩
      by_cases hxq : x = q
      · subst hxq
        simp only [if_true, List.head?_cons, Option.some.injEq]
        refine ⟨fun he => ?_, fun ho => ?_⟩
        · subst he; rw [hke] at hk; cases hk
        · rw [(ho' x).2 ho] at hcq
          exact absurd hcq hd
      · simp only [hxq, if_false]; exact ho' x
    · refine ⟨fun y hy => ?_, (h.waiting d x k hd hk).2⟩
      by_cases hyq : y = q
      · subst hyq
        simp only [if_true, List.head?_cons, Option.some.injEq] at hy ⊢
        subst hy
        rw [hke] at hk
        cases hk
        exact ⟨rfl, trivial⟩
      · simp only [hyq, if_false] at hy ⊢; exact (h.waiting d x k hd hk).1 y hy
    · by_cases hxq : x = q
      · subst hxq
        simp only [if_true, List.tail_cons] at hx
        exact h.line x d (by rw [hw]; exact List.mem_cons_of_mem _ hx)
      · simp only [hxq, if_false] at hx; exact h.line x d hx
    · by_cases hxq : x = q
      · subst hxq
        simp only [if_true, List.tail_cons, List.head?_cons]
        rw [List.nodup_cons] at hnd
        exact ⟨hnd.2, fun d hd he => hnd.1 (Option.some.inj he ▸ hd)⟩
      · simp only [hxq, if_false]; exact h.nodup x

omit [DecidableEq κ] in
theorem Fit.poke (h : Fit P may (some c) o g co) (q : κ) (hq : (g.sq q).current = none) (s' : σ) (b : Bool)
    (hv : ∀ x, x ≠ q → P.view s' x = P.view g.st x) (hi : P.idle q (P.view s' q)) :
    Fit P may (some c) o { g with st := s', clean := b } co := by
  have other : ∀ x d, (g.sq x).current = some d → P.view s' x = P.view g.st x := fun x d hx =>
    hv x (fun e => by rw [e, hq] at hx; cases hx)
  refine ⟨h.mine, h.depth, fun x hx => ?_, fun x d hx hd hr => ?_, fun x d hx hd hr => ?_,
    fun d r k hd hk => ?_, h.waiting, h.line, h.nodup⟩
  · refine ⟨?_, (h.idle x hx).2⟩
    show P.idle x (P.view s' x)
    by_cases hxq : x = q
    · subst hxq; exact hi
    · rw [hv x hxq]; exact (h.idle x hx).1
  · show _ ∧ P.held x (P.view s' x) ∧ _
    rw [other x d hx]
    exact h.held x d hx hd hr
  · show P.handed x (P.view s' x) ∧ _
    rw [other x d hx]
    exact h.handed x d hx hd hr
  · obtain ⟨o', ho', hres⟩ := h.calling d r k hd hk
    exact ⟨o', ho', hres.of_view (fun x hx => other x d ((ho' x).2 hx))⟩

omit [DecidableEq κ] in
theorem Fit.view (h : Fit P may none none g co) {s' : σ} (hv : ∀ x, P.view s' x = P.view g.st x) :
    Fit P may none none { g with st := s' } co := by
  refine ⟨nofun, nofun, fun x hx => ?_, fun x d hx hd hr => ?_, fun x d hx hd hr => ?_,
    fun d r k hd hk => ?_, h.waiting, h.line, h.nodup⟩
  · show P.idle x (P.view s' x) ∧ _
    rw [hv x]; exact h.idle x hx
  · show _ ∧ P.held x (P.view s' x) ∧ _
    rw [hv x]; exact h.held x d hx hd hr
  · show P.handed x (P.view s' x) ∧ _
    rw [hv x]; exact h.handed x d hx hd hr
  · obtain ⟨o', ho', hres⟩ := h.calling d r k hd hk
    exact ⟨o', ho', hres.of_view (fun x _ => hv x)⟩

omit [DecidableEq κ] in
theorem Fit.begin (h : Fit P may none none g co) (hcur : ∀ q, (g.sq q).current ≠ some c)
    (hwait : ∀ q, c ∉ (g.sq q).waiting) : Fit P may (some c) none g co :=
  ⟨fun d hd q => by cases hd; simp [hcur q], nofun, h.idle, fun q d hq _ hr => h.held q d hq (by simp) hr,
    fun q d hq _ hr => h.handed q d hq (by simp) hr, fun d r k _ hk => h.calling d r k (by simp) hk,
    fun d q k _ hk => h.waiting d q k (by simp) hk,
    fun q d hd => ⟨fun e => hwait q (Option.some.inj e ▸ hd), (h.line q d hd).2⟩, h.nodup⟩

omit [DecidableEq κ] in
theorem Fit.resume (h : Fit P may none none g co) {r : χ} {k : ρ → Prog σ κ χ ρ Unit}
    (hk : co c = some (.calling r k)) (ho : ∀ q, (g.sq q).current = some c ↔ o = some q) :
    Fit P may (some c) o g co := by
  refine ⟨fun d hd => by cases hd; exact ho, fun d q hd hq => ?_, h.idle, fun q d hq _ hr => h.held q d hq (by simp) hr,
    fun q d hq _ hr => h.handed q d hq (by simp) hr, fun d r k _ hk => h.calling d r k (by simp) hk,
    fun d q k _ hk => h.waiting d q k (by simp) hk, fun q d hd => ⟨fun e => ?_, (h.line q d hd).2⟩, h.nodup⟩
  · cases hd
    have hcur := (ho q).2 hq
    by_cases hr : (g.sq q).ref = 0
    · obtain ⟨-, k', hk'⟩ := h.handed q c hcur (by simp) hr
      rw [hk] at hk'; cases hk'
    · exact (h.held q c hcur (by simp) hr).1
  · obtain ⟨k', hk'⟩ := (h.line q d hd).2
    rw [Option.some.inj e, hk] at hk'; cases hk'

theorem Fit.wake (h : Fit P may none none g co) {q : κ} {k : Prog σ κ χ ρ Unit} (hk : co c = some (.waiting q k))
    (hcur : (g.sq q).current = some c) (href : (g.sq q).ref = 0) :
    Fit P may (some c) (some q)
      { g with sq := Function.update g.sq q { g.sq q with ref := (g.sq q).ref + 1 } } co := by
  have hcq : ∀ x, (Function.update g.sq q { g.sq q with ref := (g.sq q).ref + 1 } x).current = (g.sq x).current := by
    intro x; rw [update_sq]; split
    · rename_i e; subst e; rfl
    · rfl
  have hwq : ∀ x, (Function.update g.sq q { g.sq q with ref := (g.sq q).ref + 1 } x).waiting = (g.sq x).waiting := by
    intro x; rw [update_sq]; split
    · rename_i e; subst e; rfl
    · rfl
  have hne : ∀ x d, (g.sq x).current = some d → some d ≠ some c → x ≠ q := fun x d hx hd e => by
    subst e; rw [hcur] at hx; exact hd hx.symm
  refine ⟨fun d hd x => ?_, fun d x hd hx => ?_, fun x hx => ?_, fun x d hx hd hr => ?_, fun x d hx hd hr => ?_,
    fun d r k' hd hk' => ?_, fun d x k' hd hk' => ?_, fun x d hx => ?_, fun x => ?_⟩
  · cases hd
    simp only [hcq, Option.some.injEq]
    exact ⟨fun hx => (((h.waiting c q k (by simp) hk).1 x hx).1).symm, fun e => e ▸ hcur⟩
  · cases hx
    simp [href]
  · simp only [hcq] at hx ⊢
    have hxq : x ≠ q := fun e => by rw [e, hcur] at hx; cases hx
    rw [update_sq, if_neg hxq]
    exact h.idle x hx
  · simp only [hcq] at hx
    simp only [update_sq, if_neg (hne x d hx hd)] at hr ⊢
    exact h.held x d hx (by simp) hr
  · simp only [hcq] at hx
    simp only [update_sq, if_neg (hne x d hx hd)] at hr ⊢
    exact h.handed x d hx (by simp) hr
  · simp only [hcq]; exact h.calling d r k' (by simp) hk'
  · refine ⟨fun y hy => ?_, (h.waiting d x k' (by simp) hk').2⟩
    simp only [hcq] at hy
    simp only [update_sq, if_neg (hne y d hy hd)]
    exact (h.waiting d x k' (by simp) hk').1 y hy
  · simp only [hwq] at hx
    refine ⟨fun e => ?_, (h.line x d hx).2⟩
    obtain ⟨k', hk'⟩ := (h.line x d hx).2
    rw [Option.some.inj e, hk] at hk'
    cases hk'
    exact (h.nodup q).2 c (Option.some.inj e ▸ hx) hcur
  · simp only [hwq, hcq]; exact h.nodup x

omit [DecidableEq κ] in
theorem Fit.rest (h : Fit P may (some c) o g co) (next : Option (Susp σ κ χ ρ))
    (hheld : ∀ q, o = some q → P.held q (P.view g.st q))
    (hn : (o = none ∧ next = none) ∨ ∃ r k, next = some (.calling r k) ∧ Resumes P may r k o g.st) :
    Fit P may none none g (Function.update co c next) := by
  have hco : ∀ d, d ≠ c → Function.update co c next d = co d := fun d hd => by simp [hd]
  have hsome : ∀ d, d ≠ c → some d ≠ some c := fun d hd e => hd (Option.some.inj e)
  refine ⟨nofun, nofun, h.idle, fun q d hq _ hr => ?_, fun q d hq _ hr => ?_, fun d r k _ hk => ?_,
    fun d q k _ hk => ?_, fun q d hd => ?_, h.nodup⟩
  · by_cases hd : d = c
    · subst hd
      have ho := (h.mine d rfl q).1 hq
      obtain ⟨hn1, -⟩ | ⟨r, k, rfl, -⟩ := hn
      · rw [hn1] at ho; cases ho
      · exact ⟨h.depth d q rfl ho, hheld q ho, r, k, by simp⟩
    · rw [hco d hd]; exact h.held q d hq (hsome d hd) hr
  · by_cases hd : d = c
    · subst hd
      have := h.depth d q rfl ((h.mine d rfl q).1 hq)
      omega
    · rw [hco d hd]; exact h.handed q d hq (hsome d hd) hr
  · by_cases hd : d = c
    · subst hd
      simp only [Function.update_self] at hk
      obtain ⟨-, rfl⟩ | ⟨r', k', rfl, hres⟩ := hn
      · cases hk
      · cases hk
        exact ⟨o, h.mine d rfl, hres⟩
    · rw [hco d hd] at hk; exact h.calling d r k (hsome d hd) hk
  · by_cases hd : d = c
    · subst hd
      simp only [Function.update_self] at hk
      obtain ⟨-, rfl⟩ | ⟨r', k', rfl, -⟩ := hn <;> cases hk
    · rw [hco d hd] at hk; exact h.waiting d q k (hsome d hd) hk
  · obtain ⟨h1, h2⟩ := h.line q d hd
    refine ⟨by simp, ?_⟩
    rw [hco d (fun e => h1 (congrArg some e))]
    exact h2

omit [DecidableEq κ] in
theorem Fit.busy_ne (h : Fit P may (some c) none g co) (q : κ) : (g.sq q).current ≠ some c :=
  fun hq => by have := (h.mine c rfl q).1 hq; cases this

theorem goIn_none (h : Fit P may (some c) none g co) (q : κ) :
    (Co.goIn c q g = some { g with sq := Function.update g.sq q ⟨some c, 1, []⟩ } ∧ (g.sq q).current = none) ∨
      (Co.goIn c q g = none ∧ (g.sq q).current ≠ none) := by
  cases hq : (g.sq q).current with
  | none =>
    refine .inl ⟨?_, rfl⟩
    have he := (h.idle q hq).2
    simp only [Co.goIn, Queue.join, he, Queue.empty, Option.map_some, Nat.zero_add]
  | some d =>
    refine .inr ⟨?_, by simp⟩
    have hd : d ≠ c := fun e => h.busy_ne q (e ▸ hq)
    simp [Co.goIn, Queue.join, hq, hd]

theorem exec_clean : ∀ (p : Prog σ κ χ ρ Unit) (g : Cfg σ κ), (exec c p g).1.clean = true → g.clean = true
  | .ret _, _, h => h
  | .err _, _, h => h
  | .act f k, g, h => exec_clean (k g.st) { g with st := f g.st } h
  | .mark _ k, g, h => by
    have := exec_clean k _ h
    simp only [Bool.and_eq_true] at this
    exact this.1
  | .call _ _, _, h => h
  | .enter q k, g, h => by
    simp only [exec] at h
    split at h
    · rename_i g' hg
      have := exec_clean k g' h
      simp only [Co.goIn, Option.map_eq_some_iff] at hg
      obtain ⟨_, -, rfl⟩ := hg
      exact this
    · exact h
  | .take q f k, g, h => by
    simp only [exec] at h
    split at h
    · rename_i g' hg
      have := exec_clean k g' h
      simp only [Co.goIn, Option.map_eq_some_iff] at hg
      obtain ⟨_, -, rfl⟩ := hg
      simp only [Bool.and_eq_true] at this
      exact this.1
    · simp only [Co.goBehind, Bool.and_eq_true] at h
      exact h.1
  | .poke _ _ k, g, h => by
    have := exec_clean k _ h
    simp only [Bool.and_eq_true] at this
    exact this.1
  | .leave q k, g, h => exec_clean k { g with sq := Function.update g.sq q (g.sq q).release } h

/-- **One run between two waits keeps the fit**, by induction on the program: each constructor is one of the moves
above. -/
theorem exec_fit : ∀ (p : Prog σ κ χ ρ Unit) (o : Option κ) (g : Cfg σ κ), Fit P may (some c) o g co →
    wp P may p o P.final g.st → (exec c p g).1.clean = true →
    Fit P may none none (exec c p g).1 (Function.update co c (exec c p g).2) ∧ P.inv (exec c p g).1.st
  | .ret _, o, g, h, hw, _ => ⟨h.rest none (fun q hq => by rw [hw.1] at hq; cases hq) (.inl ⟨hw.1, rfl⟩), hw.2⟩
  | .err _, o, g, h, hw, _ => ⟨h.rest none (fun q hq => by rw [hw.1] at hq; cases hq) (.inl ⟨hw.1, rfl⟩), hw.2⟩
  | .act f k, o, g, h, hw, hc => exec_fit (k g.st) o _ (h.act (f g.st) g.clean hw.1) hw.2 hc
  | .mark p k, o, g, h, hw, hc => by
    have hcl := exec_clean k _ hc
    simp only [Bool.and_eq_true] at hcl
    exact exec_fit k o _ (h.act g.st _ (fun _ _ => rfl)) (hw ⟨g.sq, hcl.2⟩) hc
  | .call q k, o, g, h, hw, _ => ⟨h.rest _ hw.2.1 (.inr ⟨q, k, rfl, hw.2.2⟩), hw.1⟩
  | .enter q k, o, g, h, hw, hc => by
    obtain ⟨rfl, hinv, hidle, hhanded⟩ := hw
    rcases goIn_none h q with ⟨he, hq⟩ | ⟨he, hq⟩
    · simp only [exec, he] at hc ⊢
      exact exec_fit k _ _ (h.goIn q hq g.st g.clean (fun _ _ => rfl)) (hidle (h.idle q hq).1) hc
    · simp only [exec, he]
      exact ⟨h.goBehind q hq k hhanded, hinv⟩
  | .take q f k, o, g, h, hw, hc => by
    obtain ⟨rfl, hidle⟩ := hw
    -- the queue was idle: otherwise the run would not be clean
    have hq : (g.sq q).current = none := by
      simp only [exec] at hc
      split at hc
      · rename_i g' hg
        have hcl := exec_clean k g' hc
        simp only [Co.goIn, Option.map_eq_some_iff] at hg
        obtain ⟨_, -, rfl⟩ := hg
        simp only [Bool.and_eq_true, Queue.idle, Option.isNone_iff_eq_none] at hcl
        exact hcl.2
      · simp only [Co.goBehind, Bool.and_eq_true, Queue.idle, Option.isNone_iff_eq_none] at hc
        exact hc.2
    have he := (h.idle q hq).2
    have hin : ∀ b, Co.goIn c q ({ g with st := f g.st, clean := b } : Cfg σ κ)
        = some ⟨f g.st, Function.update g.sq q ⟨some c, 1, []⟩, b⟩ := by
      intro b
      simp only [Co.goIn, Queue.join, he, Queue.empty, Option.map_some, Nat.zero_add]
    obtain ⟨hv, hk⟩ := hidle (h.idle q hq).1
    simp only [exec, hin] at hc ⊢
    exact exec_fit k _ _ (h.goIn q hq (f g.st) _ hv) hk hc
  | .poke q f k, o, g, h, hw, hc => by
    have hcl := exec_clean k _ hc
    simp only [Bool.and_eq_true, Queue.idle, Option.isNone_iff_eq_none] at hcl
    obtain ⟨hv, hiq, hk⟩ := hw.2 (h.idle q hcl.2).1
    refine exec_fit k o _ ?_ hk hc
    exact h.poke q hcl.2 (f g.st) _ hv hiq
  | .leave q k, o, g, h, hw, hc => by
    obtain ⟨rfl, hi, hh, hk⟩ := hw
    exact exec_fit k none _ (h.leave hi hh) hk hc

end Fit

section Run

variable {P : Spec σ κ ζ} [DecidableEq κ] {S : Sys σ κ χ ρ ο ε} {w w' : World σ κ χ ρ}

/-- **A world that fits**: at rest, with the invariant, and no coroutine numbered from `next` on. -/
structure Fits (P : Spec σ κ ζ) (S : Sys σ κ χ ρ ο ε) (w : World σ κ χ ρ) : Prop where
  fit : Fit P S.may none none w.toCfg w.co
  inv : P.inv w.st
  fresh : ∀ c, w.next ≤ c → w.co c = none

/-- **What a system must satisfy**: every request's program, started anywhere, and every move of the outside. -/
structure Checked (P : Spec σ κ ζ) (S : Sys σ κ χ ρ ο ε) : Prop where
  prog : ∀ o s, P.inv s → wp P S.may (S.prog o) none P.final s
  env : ∀ e s, P.inv s → P.inv (S.env e s) ∧ ∀ x, P.view (S.env e s) x = P.view s x

omit [DecidableEq κ] in
theorem fits_init (S : Sys σ κ χ ρ ο ε) (s : σ) (hinv : P.inv s) (hidle : ∀ q, P.idle q (P.view s q)) :
    Fits P S (World.init s) := by
  refine ⟨⟨nofun, nofun, fun q _ => ⟨hidle q, rfl⟩, ?_, ?_, ?_, ?_, ?_, ?_⟩, hinv, fun _ _ => rfl⟩
  all_goals simp [World.init, Queue.empty]

theorem Fit.advance {v : World σ κ χ ρ} {c : Nat} {p : Prog σ κ χ ρ Unit} {o : Option κ}
    (h : Fit P S.may (some c) o v.toCfg v.co) (hp : wp P S.may p o P.final v.st) (hc : (v.advance c p).clean = true)
    (hnext : c < v.next) (hfresh : ∀ d, v.next ≤ d → v.co d = none) : Fits P S (v.advance c p) := by
  obtain ⟨hfit, hinv⟩ := exec_fit p o v.toCfg h hp hc
  refine ⟨hfit, hinv, fun d hd => ?_⟩
  exact (Function.update_of_ne (Nat.ne_of_gt (Nat.lt_of_lt_of_le hnext hd)) _ _).trans (hfresh d hd)

omit [DecidableEq κ] in
theorem Fits.lt_next (h : Fits P S w) {c : Nat} {u : Susp σ κ χ ρ} (hu : w.co c = some u) : c < w.next := by
  by_contra hle
  rw [h.fresh c (Nat.le_of_not_lt hle)] at hu
  cases hu

theorem step_fits (hS : Checked P S) (h : Fits P S w) {e : Event ο ρ ε} (hs : S.Takes w e w')
    (hc : w'.clean = true) : Fits P S w' := by
  cases hs with
  | start o =>
    have hn : w.co w.next = none := h.fresh w.next (Nat.le_refl _)
    have hrun : Fit P S.may (some w.next) none w.toCfg w.co := h.fit.begin (fun q hq => by
      by_cases hr : (w.sq q).ref = 0
      · obtain ⟨-, k, hk⟩ := h.fit.handed q _ hq (by simp) hr
        rw [hn] at hk; cases hk
      · obtain ⟨-, -, r, k, hk⟩ := h.fit.held q _ hq (by simp) hr
        rw [hn] at hk; cases hk) (fun q hq => by
      obtain ⟨k, hk⟩ := (h.fit.line q _ hq).2
      rw [hn] at hk; cases hk)
    exact hrun.advance (v := { w with next := w.next + 1 }) (hS.prog o w.st h.inv) hc (Nat.lt_succ_self _)
      (fun d hd => h.fresh d (Nat.le_of_succ_le hd))
  | @reply c q k r hk hmay =>
    obtain ⟨o, ho, hres⟩ := h.fit.calling c q k (by simp) hk
    exact (h.fit.resume hk ho).advance (hres r hmay w.st h.inv (fun _ _ => rfl)) hc (h.lt_next hk) h.fresh
  | @wake c q k hk hcur =>
    have href : (w.sq q).ref = 0 := ((h.fit.waiting c q k (by simp) hk).1 q hcur).2
    have hh := (h.fit.handed q c hcur (by simp) href).1
    exact (h.fit.wake hk hcur href).advance (v := { w with sq := _ })
      ((h.fit.waiting c q k (by simp) hk).2 w.st h.inv hh) hc (h.lt_next hk) h.fresh
  | env e =>
    obtain ⟨hi, hv⟩ := hS.env e w.st h.inv
    exact ⟨h.fit.view hv, hi, h.fresh⟩

theorem step_clean {e : Event ο ρ ε} (hs : S.Takes w e w') (hc : w'.clean = true) : w.clean = true := by
  cases hs with
  | start o => exact exec_clean _ w.toCfg hc
  | reply hk hmay => exact exec_clean _ w.toCfg hc
  | @wake c q k hk hcur =>
    exact exec_clean k { w.toCfg with sq := Function.update w.sq q { w.sq q with ref := (w.sq q).ref + 1 } } hc
  | env e => exact hc

theorem Sys.clean_run_keeps {I : World σ κ χ ρ → Prop}
    (h : ∀ w e w', S.Takes w e w' → w'.clean = true → I w → I w') (es : List (Event ο ρ ε)) (w w' : World σ κ χ ρ)
    (hw : I w) (hrun : S.run w es = some w') (hc : w'.clean = true) : I w' := by
  refine S.run_keeps (I := fun w => w.clean = true → I w) (fun w e w' hs hw hc => ?_) es w w' (fun _ => hw) hrun hc
  exact h w e w' hs hc (hw (step_clean hs hc))

/-- **Every clean run keeps the fit**, whatever the order of requests, answers and turns. -/
theorem fits_of_run (hS : Checked P S) (es : List (Event ο ρ ε)) (w w' : World σ κ χ ρ) (h : Fits P S w)
    (hrun : S.run w es = some w') (hc : w'.clean = true) : Fits P S w' :=
  S.clean_run_keeps (fun _ _ _ hs hc h => step_fits hS h hs hc) es w w' h hrun hc

omit [DecidableEq κ] in
/-- **With no coroutine waiting, every queue is idle** and its part satisfies the idle condition. -/
theorem Fits.quiet (h : Fits P S w) (hquiet : w.quiet = true) (q : κ) : P.idle q (P.view w.st q) := by
  have hq : ∀ c, w.co c = none := by
    intro c
    by_cases hc : c < w.next
    · simp only [World.quiet, List.all_eq_true, List.mem_range, Option.isNone_iff_eq_none] at hquiet
      exact hquiet c hc
    · exact h.fresh c (Nat.le_of_not_lt hc)
  cases hc : (w.sq q).current with
  | none => exact (h.fit.idle q hc).1
  | some d =>
    by_cases hr : (w.sq q).ref = 0
    · obtain ⟨-, k, hk⟩ := h.fit.handed q d hc (by simp) hr
      rw [hq d] at hk; cases hk
    · obtain ⟨-, -, r, k, hk⟩ := h.fit.held q d hc (by simp) hr
      rw [hq d] at hk; cases hk

end Run

end Co
end Sncpp
