import Mathlib.Algebra.BigOperators.Group.Finset.Basic
import Sncpp.CoRely
/-!
# CoOwn — coroutines with something in hand

What a coroutine has taken out of the shared state and not yet put back is in its hand, and belongs to no one else.  A
`Hands` is an invariant of the state together with all that is in hand anywhere, and a relation every coroutine's
moves stay within.  A coroutine knows its own hand and not the others': `handled` checks a program for whatever the
others hold, `Deal` packs it into pre- and postconditions.
-/
namespace Sncpp
namespace Co

/-- An invariant of the state and what is in hand, and what every coroutine may rely on the others to do. -/
structure Hands (σ M : Type) where
  inv : M → σ → Prop
  rely : σ → σ → Prop
  refl : ∀ s, rely s s
  trans : ∀ {a b c}, rely a b → rely b c → rely a c

variable {σ κ χ ρ ο ε α β M : Type} [AddCommMonoid M]

/-- The outcome of a program: its result, what the others hold, the state at its last wait and the state now. -/
abbrev Outcome (σ M α : Type) : Type := Except String α → M → σ → σ → Prop

/-- **The condition under which a program keeps the invariant and ends in `Q`**, in state `s` after a wait in state `b`,
while the others hold `f`.  At a wait it says what it has in hand. -/
def handled (P : Hands σ M) (may : χ → ρ → Bool) : Prog σ κ χ ρ α → Outcome σ M α → M → σ → σ → Prop
  | .ret a, Q, f, b, s => Q (.ok a) f b s
  | .err m, Q, f, b, s => Q (.error m) f b s
  | .act g k, Q, f, b, s => handled P may (k s) Q f b (g s)
  | .mark p k, Q, f, b, s => (∃ sq, p s sq = true) → handled P may k Q f b s
  | .call q k, Q, f, b, s => ∃ h, P.inv (h + f) s ∧ P.rely b s ∧
      ∀ r, may q r = true → ∀ f' s', P.inv (h + f') s' → P.rely s s' → handled P may (k r) Q f' s' s'
  | .enter _ k, Q, f, b, s => ∃ h, P.inv (h + f) s ∧ P.rely b s ∧
      ∀ f' s', P.inv (h + f') s' → P.rely s s' → handled P may k Q f' s' s'
  | .take _ g k, Q, f, b, s => ∃ h, P.inv (h + f) (g s) ∧ P.rely b (g s) ∧
      ∀ f' s', P.inv (h + f') s' → P.rely (g s) s' → handled P may k Q f' s' s'
  | .poke _ g k, Q, f, b, s => handled P may k Q f b (g s)
  | .leave _ k, Q, f, b, s => handled P may k Q f b s

/-- A coroutine ends with the invariant kept and nothing in hand. -/
def Hands.final (P : Hands σ M) : Outcome σ M α := fun _ f b s => P.inv f s ∧ P.rely b s

section Rules

variable {P : Hands σ M} {may : χ → ρ → Bool}

theorem handled_mono {Q Q' : Outcome σ M α} (hQ : ∀ r f b s, Q r f b s → Q' r f b s) :
    ∀ (p : Prog σ κ χ ρ α) (f : M) (b s : σ), handled P may p Q f b s → handled P may p Q' f b s
  | .ret _, _, _, _, h => hQ _ _ _ _ h
  | .err _, _, _, _, h => hQ _ _ _ _ h
  | .act g k, f, b, s, h => handled_mono hQ (k s) f b (g s) h
  | .mark _ k, f, b, s, h => fun hp => handled_mono hQ k f b s (h hp)
  | .call _ k, _, _, _, ⟨h, hi, hv, hk⟩ =>
    ⟨h, hi, hv, fun r hr f' s' hi' hv' => handled_mono hQ (k r) f' s' s' (hk r hr f' s' hi' hv')⟩
  | .enter _ k, _, _, _, ⟨h, hi, hv, hk⟩ =>
    ⟨h, hi, hv, fun f' s' hi' hv' => handled_mono hQ k f' s' s' (hk f' s' hi' hv')⟩
  | .take _ _ k, _, _, _, ⟨h, hi, hv, hk⟩ =>
    ⟨h, hi, hv, fun f' s' hi' hv' => handled_mono hQ k f' s' s' (hk f' s' hi' hv')⟩
  | .poke _ g k, f, b, s, h => handled_mono hQ k f b (g s) h
  | .leave _ k, f, b, s, h => handled_mono hQ k f b s h

/-- What the first of two programs must end in. -/
def Outcome.andThen (P : Hands σ M) (may : χ → ρ → Bool) (g : α → Prog σ κ χ ρ β) (Q : Outcome σ M β) : Outcome σ M α :=
  fun r f b s =>
    match r with
    | .ok a => handled P may (g a) Q f b s
    | .error m => Q (.error m) f b s

theorem handled_bind (g : α → Prog σ κ χ ρ β) (Q : Outcome σ M β) : ∀ (p : Prog σ κ χ ρ α) (f : M) (b s : σ),
    handled P may p (Outcome.andThen P may g Q) f b s → handled P may (p.bind g) Q f b s
  | .ret _, _, _, _, h => h
  | .err _, _, _, _, h => h
  | .act e k, f, b, s, h => handled_bind g Q (k s) f b (e s) h
  | .mark _ k, f, b, s, h => fun hp => handled_bind g Q k f b s (h hp)
  | .call _ k, _, _, _, ⟨h, hi, hv, hk⟩ =>
    ⟨h, hi, hv, fun r hr f' s' hi' hv' => handled_bind g Q (k r) f' s' s' (hk r hr f' s' hi' hv')⟩
  | .enter _ k, _, _, _, ⟨h, hi, hv, hk⟩ =>
    ⟨h, hi, hv, fun f' s' hi' hv' => handled_bind g Q k f' s' s' (hk f' s' hi' hv')⟩
  | .take _ _ k, _, _, _, ⟨h, hi, hv, hk⟩ =>
    ⟨h, hi, hv, fun f' s' hi' hv' => handled_bind g Q k f' s' s' (hk f' s' hi' hv')⟩
  | .poke _ e k, f, b, s, h => handled_bind g Q k f b (e s) h
  | .leave _ k, f, b, s, h => handled_bind g Q k f b s h

theorem handled_xpcall (Q : Outcome σ M (Except String α)) : ∀ (p : Prog σ κ χ ρ α) (f : M) (b s : σ),
    handled P may p (fun r f' b' s' => Q (.ok r) f' b' s') f b s → handled P may p.xpcall Q f b s
  | .ret _, _, _, _, h => h
  | .err _, _, _, _, h => h
  | .act e k, f, b, s, h => handled_xpcall Q (k s) f b (e s) h
  | .mark _ k, f, b, s, h => fun hp => handled_xpcall Q k f b s (h hp)
  | .call _ k, _, _, _, ⟨h, hi, hv, hk⟩ =>
    ⟨h, hi, hv, fun r hr f' s' hi' hv' => handled_xpcall Q (k r) f' s' s' (hk r hr f' s' hi' hv')⟩
  | .enter _ k, _, _, _, ⟨h, hi, hv, hk⟩ =>
    ⟨h, hi, hv, fun f' s' hi' hv' => handled_xpcall Q k f' s' s' (hk f' s' hi' hv')⟩
  | .take _ _ k, _, _, _, ⟨h, hi, hv, hk⟩ =>
    ⟨h, hi, hv, fun f' s' hi' hv' => handled_xpcall Q k f' s' s' (hk f' s' hi' hv')⟩
  | .poke _ e k, f, b, s, h => handled_xpcall Q k f b (e s) h
  | .leave _ k, f, b, s, h => handled_xpcall Q k f b s h

end Rules

section Run

variable {P : Hands σ M} [DecidableEq κ] {S : Sys σ κ χ ρ ο ε} {w w' : World σ κ χ ρ}

/-- What a waiting coroutine with `h` in hand does from any state the others may leave. -/
def Poised (P : Hands σ M) (may : χ → ρ → Bool) (h : M) (s : σ) : Susp σ κ χ ρ → Prop
  | .calling q k => ∀ r, may q r = true → ∀ f s', P.inv (h + f) s' → P.rely s s' → handled P may (k r) P.final f s' s'
  | .waiting _ k => ∀ f s', P.inv (h + f) s' → P.rely s s' → handled P may k P.final f s' s'

omit [DecidableEq κ] in
theorem Poised.later {may : χ → ρ → Bool} {h : M} {s s' : σ} (hv : P.rely s s') : ∀ {u : Susp σ κ χ ρ}, Poised P may h s u →
    Poised P may h s' u
  | .calling _ _, hu => fun r hr f s'' hi hv' => hu r hr f s'' hi (P.trans hv hv')
  | .waiting _ _, hu => fun f s'' hi hv' => hu f s'' hi (P.trans hv hv')

theorem exec_handled {may : χ → ρ → Bool} (c : Nat) : ∀ (p : Prog σ κ χ ρ Unit) (f : M) (b : σ) (g : Cfg σ κ),
    handled P may p P.final f b g.st → (exec c p g).1.clean = true → ∃ h, P.inv (h + f) (exec c p g).1.st ∧
      P.rely b (exec c p g).1.st ∧ (∀ u, (exec c p g).2 = some u → Poised P may h (exec c p g).1.st u) ∧
      ((exec c p g).2 = none → h = 0)
  | .ret _, f, _, _, hp, _ => ⟨0, by rw [zero_add]; exact hp.1, hp.2, (fun _ hu => by cases hu), fun _ => rfl⟩
  | .err _, f, _, _, hp, _ => ⟨0, by rw [zero_add]; exact hp.1, hp.2, (fun _ hu => by cases hu), fun _ => rfl⟩
  | .act e k, f, b, g, hp, hc => exec_handled c (k g.st) f b { g with st := e g.st } hp hc
  | .mark p k, f, b, g, hp, hc => by
    have hcl := exec_clean k _ hc
    simp only [Bool.and_eq_true] at hcl
    exact exec_handled c k f b { g with clean := g.clean && p g.st g.sq } (hp ⟨g.sq, hcl.2⟩) hc
  | .call q k, _, _, _, ⟨h, hi, hv, hk⟩, _ => ⟨h, hi, hv, fun u hu => by cases hu; exact hk, fun hu => by cases hu⟩
  | .enter q k, f, b, g, ⟨h, hi, hv, hk⟩, hc => by
    simp only [exec] at hc ⊢
    split
    · rename_i g' hg
      rw [hg] at hc
      obtain ⟨q', -, rfl⟩ := Option.map_eq_some_iff.1 hg
      obtain ⟨h', hi', hv', hu⟩ := exec_handled c k f g.st { g with sq := Function.update g.sq q q' }
        (hk f g.st hi (P.refl _)) hc
      exact ⟨h', hi', P.trans hv hv', hu⟩
    · exact ⟨h, hi, hv, fun u hu => by cases hu; exact hk, fun hu => by cases hu⟩
  | .take q e k, f, b, g, ⟨h, hi, hv, hk⟩, hc => by
    simp only [exec] at hc ⊢
    split
    · rename_i g' hg
      rw [hg] at hc
      obtain ⟨q', -, rfl⟩ := Option.map_eq_some_iff.1 hg
      obtain ⟨h', hi', hv', hu⟩ := exec_handled c k f (e g.st)
        ⟨e g.st, Function.update g.sq q q', g.clean && (g.sq q).idle⟩ (hk f (e g.st) hi (P.refl _)) hc
      exact ⟨h', hi', P.trans hv hv', hu⟩
    · exact ⟨h, hi, hv, fun u hu => by cases hu; exact hk, fun hu => by cases hu⟩
  | .poke q e k, f, b, g, hp, hc => exec_handled c k f b { g with st := e g.st, clean := g.clean && (g.sq q).idle } hp hc
  | .leave q k, f, b, g, hp, hc => exec_handled c k f b { g with sq := Function.update g.sq q (g.sq q).release } hp hc

/-- A world in which `hands` has what each coroutine holds. -/
structure Settled (P : Hands σ M) (S : Sys σ κ χ ρ ο ε) (w : World σ κ χ ρ) (hands : Nat → M) : Prop where
  inv : P.inv (∑ c ∈ Finset.range w.next, hands c) w.st
  poised : ∀ c u, w.co c = some u → Poised P S.may (hands c) w.st u
  empty : ∀ c, w.co c = none → hands c = 0
  begun : ∀ c u, w.co c = some u → c < w.next

/-- **What a system must satisfy**: every request's program, started anywhere, and every move of the outside. -/
structure Dealing (P : Hands σ M) (S : Sys σ κ χ ρ ο ε) : Prop where
  prog : ∀ o f s, P.inv f s → handled P S.may (S.prog o) P.final f s s
  env : ∀ e f s, P.inv f s → P.inv f (S.env e s) ∧ P.rely s (S.env e s)

theorem Settled.advance {hands : Nat → M} (hw : Settled P S w hands) {c : Nat} {p : Prog σ κ χ ρ Unit} {v : World σ κ χ ρ}
    (hst : v.st = w.st) (hco : v.co = w.co) (hnext : w.next ≤ v.next) (hc : c < v.next)
    (hp : ∀ f, P.inv (hands c + f) w.st → handled P S.may p P.final f w.st w.st) (hclean : (v.advance c p).clean = true) :
    ∃ hands', Settled P S (v.advance c p) hands' := by
  have hsum : ∑ d ∈ Finset.range v.next, hands d = ∑ d ∈ Finset.range w.next, hands d := by
    refine (Finset.sum_subset (Finset.range_mono hnext) (fun d _ hd => ?_)).symm
    refine hw.empty d ?_
    cases hu : w.co d with
    | none => rfl
    | some u => exact absurd (Finset.mem_range.2 (hw.begun d u hu)) hd
  have hmem : c ∈ Finset.range v.next := Finset.mem_range.2 hc
  have hold : P.inv (hands c + ∑ d ∈ (Finset.range v.next).erase c, hands d) w.st := by
    rw [Finset.add_sum_erase _ _ hmem, hsum]
    exact hw.inv
  obtain ⟨h, hi, hv, hu, hnone⟩ := exec_handled c p _ w.st v.toCfg (by rw [hst]; exact hp _ hold) hclean
  have hothers : ∀ d, d ≠ c → (v.advance c p).co d = w.co d := by
    intro d hd
    rw [← hco]
    simp [World.advance, hd]
  refine ⟨Function.update hands c h, ?_, fun d u hd => ?_, fun d hd => ?_, fun d u hd => ?_⟩
  · have hnew : ∑ d ∈ Finset.range v.next, Function.update hands c h d =
        h + ∑ d ∈ (Finset.range v.next).erase c, hands d := by
      rw [← Finset.add_sum_erase _ _ hmem, Function.update_self]
      refine congrArg (h + ·) (Finset.sum_congr rfl (fun d hd => ?_))
      exact Function.update_of_ne (Finset.ne_of_mem_erase hd) _ _
    rw [show (v.advance c p).next = v.next from rfl, hnew]
    exact hi
  · by_cases hdc : d = c
    · subst hdc
      rw [Function.update_self]
      exact hu u (by simpa [World.advance] using hd)
    · rw [Function.update_of_ne hdc]
      exact (hw.poised d u (hothers d hdc ▸ hd)).later hv
  · by_cases hdc : d = c
    · subst hdc
      rw [Function.update_self]
      exact hnone (by simpa [World.advance] using hd)
    · rw [Function.update_of_ne hdc]
      exact hw.empty d (hothers d hdc ▸ hd)
  · by_cases hdc : d = c
    · subst hdc
      exact hc
    · exact Nat.lt_of_lt_of_le (hw.begun d u (hothers d hdc ▸ hd)) hnext

theorem step_settled (hS : Dealing P S) {hands : Nat → M} (hw : Settled P S w hands) {e : Event ο ρ ε}
    (hs : S.Takes w e w') (hc : w'.clean = true) : ∃ hands', Settled P S w' hands' := by
  cases hs with
  | start o =>
    have hnone : w.co w.next = none := by
      cases hu : w.co w.next with
      | none => rfl
      | some u => exact absurd (hw.begun _ u hu) (Nat.lt_irrefl _)
    refine hw.advance (v := { w with next := w.next + 1 }) rfl rfl (Nat.le_succ _) (Nat.lt_succ_self _) (fun f hf => ?_) hc
    rw [hw.empty _ hnone, zero_add] at hf
    exact hS.prog o f w.st hf
  | @reply c q k r hk hmay =>
    exact hw.advance rfl rfl (Nat.le_refl _) (hw.begun c _ hk)
      (fun f hf => hw.poised c _ hk r hmay f w.st hf (P.refl _)) hc
  | @wake c q k hk hcur =>
    exact hw.advance (v := { w with sq := _ }) rfl rfl (Nat.le_refl _) (hw.begun c _ hk)
      (fun f hf => hw.poised c _ hk f w.st hf (P.refl _)) hc
  | env e =>
    obtain ⟨hi, hv⟩ := hS.env e _ w.st hw.inv
    exact ⟨hands, hi, fun c u hu => (hw.poised c u hu).later hv, hw.empty, hw.begun⟩

omit [DecidableEq κ] in
theorem settled_init {s : σ} (hs : P.inv 0 s) : Settled P S (.init s) (fun _ => 0) :=
  ⟨by rw [Finset.sum_const_zero]; exact hs, nofun, fun _ _ => rfl, nofun⟩

theorem inv_of_quiet_run (hS : Dealing P S) {s : σ} (hs : P.inv 0 s) {es : List (Event ο ρ ε)}
    (hrun : S.run (.init s) es = some w) (hc : w.clean = true) (hq : w.quiet = true) : P.inv 0 w.st := by
  obtain ⟨hands, hw⟩ := S.clean_run_keeps (I := fun w => ∃ hands, Settled P S w hands)
    (fun _ _ _ ht hc hw => step_settled hS hw.choose_spec ht hc) es _ w ⟨_, settled_init hs⟩ hrun hc
  have hzero : ∑ c ∈ Finset.range w.next, hands c = 0 := by
    refine Finset.sum_eq_zero (fun c hmem => hw.empty c ?_)
    have := List.all_eq_true.1 hq c (List.mem_range.2 (Finset.mem_range.1 hmem))
    exact Option.isNone_iff_eq_none.1 this
  rw [← hzero]
  exact hw.inv

end Run

/-- Ending in `ok`, or with an error in `bad`. -/
def Yields (P : Hands σ M) (ok : α → M → σ → Prop) (bad : M → σ → Prop) : Outcome σ M α := fun r f b s =>
  P.rely b s ∧ match r with
    | .ok a => ok a f s
    | .error _ => bad f s

/-- **A program, from `pre`, ends in `ok` or raises in `bad`**; these are about the state and what the others hold. -/
def Deal (P : Hands σ M) (may : χ → ρ → Bool) (pre : M → σ → Prop) (p : Prog σ κ χ ρ α) (ok : α → M → σ → Prop)
    (bad : M → σ → Prop) : Prop :=
  ∀ f b s, P.rely b s → pre f s → handled P may p (Yields P ok bad) f b s

section Deal

variable {P : Hands σ M} {may : χ → ρ → Bool} {pre : M → σ → Prop} {ok : α → M → σ → Prop} {bad : M → σ → Prop}

theorem Deal.conseq {pre' : M → σ → Prop} {ok' : α → M → σ → Prop} {bad' : M → σ → Prop} {p : Prog σ κ χ ρ α}
    (h : Deal P may pre' p ok' bad') (hpre : ∀ f s, pre f s → pre' f s) (hok : ∀ a f s, ok' a f s → ok a f s)
    (hbad : ∀ f s, bad' f s → bad f s) : Deal P may pre p ok bad := by
  intro f b s hv hs
  refine handled_mono ?_ p f b s (h f b s hv (hpre f s hs))
  rintro (m | a) f' b' s' ⟨hv', hp⟩
  · exact ⟨hv', hbad _ _ hp⟩
  · exact ⟨hv', hok a _ _ hp⟩

theorem Deal.pure {a : α} (h : ∀ f s, pre f s → ok a f s) : Deal P may pre (Pure.pure a : Prog σ κ χ ρ α) ok bad :=
  fun f _ s hv hs => ⟨hv, h f s hs⟩

theorem Deal.err {m : String} (h : ∀ f s, pre f s → bad f s) : Deal P may pre (.err m : Prog σ κ χ ρ α) ok bad :=
  fun f _ s hv hs => ⟨hv, h f s hs⟩

theorem Deal.bind {p : Prog σ κ χ ρ β} {g : β → Prog σ κ χ ρ α} {R : β → M → σ → Prop} (hp : Deal P may pre p R bad)
    (hg : ∀ b, Deal P may (R b) (g b) ok bad) : Deal P may pre (p >>= g) ok bad := by
  intro f b s hv hs
  refine handled_bind g _ p f b s (handled_mono ?_ p f b s (hp f b s hv hs))
  rintro (m | a) f' b' s' ⟨hv', hm⟩
  · exact ⟨hv', hm⟩
  · exact hg a f' b' s' hv' hm

theorem Deal.xpcall {p : Prog σ κ χ ρ β} {R : β → M → σ → Prop} {E : M → σ → Prop} {Q : Except String β → M → σ → Prop}
    (hp : Deal P may pre p R E) (hok : ∀ a f s, R a f s → Q (.ok a) f s) (herr : ∀ m f s, E f s → Q (.error m) f s) :
    Deal P may pre p.xpcall Q bad := by
  intro f b s hv hs
  refine handled_xpcall _ p f b s (handled_mono ?_ p f b s (hp f b s hv hs))
  rintro (m | a) f' b' s' ⟨hv', hm⟩
  · exact ⟨hv', herr m _ _ hm⟩
  · exact ⟨hv', hok a _ _ hm⟩

theorem Deal.get {g : σ → Prog σ κ χ ρ α} (hg : ∀ f s, pre f s → Deal P may (fun f' s' => f' = f ∧ s' = s) (g s) ok bad) :
    Deal P may pre (Prog.get >>= g) ok bad :=
  fun f b s hv hs => hg f s hs f b s hv ⟨rfl, rfl⟩

theorem Deal.modify {e : σ → σ} {post : Unit → M → σ → Prop} (he : ∀ f s, pre f s → P.rely s (e s) ∧ post () f (e s)) :
    Deal P may pre (Prog.modify e : Prog σ κ χ ρ Unit) post bad :=
  fun f _ s hv hs => ⟨P.trans hv (he f s hs).1, (he f s hs).2⟩

theorem Deal.note {on : Bool} {c : σ → Bool} {post : Unit → M → σ → Prop}
    (hc : ∀ f s, pre f s → (on = true → c s = true) → post () f s) :
    Deal P may pre (Prog.note on c : Prog σ κ χ ρ Unit) post bad := by
  intro f b s hv hs hsq
  obtain ⟨sq, hsq⟩ := hsq
  refine ⟨hv, hc f s hs (fun hon => ?_)⟩
  subst hon
  exact hsq

/-- A request made with `h` in hand: the others move, within what they may. -/
theorem Deal.ask {c : χ} (h : M) {post : ρ → M → σ → Prop} (hinv : ∀ f s, pre f s → P.inv (h + f) s)
    (hr : ∀ f s f' s' r, pre f s → may c r = true → P.inv (h + f') s' → P.rely s s' → post r f' s') :
    Deal P may pre (Prog.ask c : Prog σ κ χ ρ ρ) post bad :=
  fun f _ s hv hs => ⟨h, hinv f s hs, hv, fun r hmay f' s' hi hv' => ⟨P.refl _, hr f s f' s' r hs hmay hi hv'⟩⟩

theorem Deal.ite {c : Prop} [Decidable c] {p p' : Prog σ κ χ ρ α} (ht : c → Deal P may pre p ok bad)
    (he : ¬c → Deal P may pre p' ok bad) : Deal P may pre (if c then p else p') ok bad := by
  by_cases h : c
  · rw [if_pos h]
    exact ht h
  · rw [if_neg h]
    exact he h

theorem Deal.final {p : Prog σ κ χ ρ Unit} (h : Deal P may P.inv p (fun _ => P.inv) P.inv) {f : M} {s : σ}
    (hi : P.inv f s) :
    handled P may p P.final f s s := by
  refine handled_mono ?_ p f s s (h f s s (P.refl _) hi)
  rintro (m | a) f' b' s' ⟨hv, hp⟩
  · exact ⟨hp, hv⟩
  · exact ⟨hp, hv⟩

end Deal

end Co
end Sncpp
