import Sncpp.CoDesk
/-!
# CoRely — what holds at every wait, whatever the queues do

A `Pact` is an invariant of the state and a relation that every coroutine's moves between two waits stay within.  A
coroutine that waits finds afterwards a state with the invariant, related to the one it left; nothing is known of the
queues.
-/
namespace Sncpp
namespace Co

/-- An invariant, what every coroutine may rely on the others to do, and whether recorded conditions are proved. -/
structure Pact (σ : Type) where
  inv : σ → Prop
  rely : σ → σ → Prop
  honest : Prop
  refl : ∀ s, rely s s
  trans : ∀ {a b c}, rely a b → rely b c → rely a c

/-- An invariant alone: the others may do anything that keeps it. -/
def Pact.of {σ : Type} (inv : σ → Prop) : Pact σ := ⟨inv, fun _ _ => True, False, fun _ => trivial, fun _ _ => trivial⟩

/-- An invariant that needs no recorded condition. -/
def Pact.always {σ : Type} (inv : σ → Prop) : Pact σ :=
  ⟨inv, fun _ _ => True, True, fun _ => trivial, fun _ _ => trivial⟩

variable {σ κ χ ρ ο ε α β : Type}

/-- A condition recorded only if `on`. -/
def Prog.note (on : Bool) (p : σ → Bool) : Prog σ κ χ ρ Unit := Prog.check (fun s _ => !on || p s)

/-- The outcome of a program: its result, the state at its last wait and the state now. -/
abbrev Fate (σ α : Type) : Type := Except String α → σ → σ → Prop

/-- **The condition under which a program keeps the pact and ends in `Q`**, in state `s` after a wait in state `b`. -/
def safe (P : Pact σ) (may : χ → ρ → Bool) : Prog σ κ χ ρ α → Fate σ α → σ → σ → Prop
  | .ret a, Q, b, s => Q (.ok a) b s
  | .err m, Q, b, s => Q (.error m) b s
  | .act f k, Q, b, s => safe P may (k s) Q b (f s)
  | .mark p k, Q, b, s => (P.honest → ∀ sq, p s sq = true) ∧ ((∃ sq, p s sq = true) → safe P may k Q b s)
  | .call q k, Q, b, s => P.inv s ∧ P.rely b s ∧
      ∀ r, may q r = true → ∀ s', P.inv s' → P.rely s s' → safe P may (k r) Q s' s'
  | .enter _ k, Q, b, s => P.inv s ∧ P.rely b s ∧ ∀ s', P.inv s' → P.rely s s' → safe P may k Q s' s'
  | .take _ f k, Q, b, s => P.inv (f s) ∧ P.rely b (f s) ∧ ∀ s', P.inv s' → P.rely (f s) s' → safe P may k Q s' s'
  | .poke _ f k, Q, b, s => safe P may k Q b (f s)
  | .leave _ k, Q, b, s => safe P may k Q b s

/-- A coroutine ends with the pact kept. -/
def Pact.final (P : Pact σ) : Fate σ α := fun _ b s => P.inv s ∧ P.rely b s

section Rules

variable {P : Pact σ} {may : χ → ρ → Bool}

theorem safe_mono {Q Q' : Fate σ α} (hQ : ∀ r b s, Q r b s → Q' r b s) :
    ∀ (p : Prog σ κ χ ρ α) (b s : σ), safe P may p Q b s → safe P may p Q' b s
  | .ret _, _, _, h => hQ _ _ _ h
  | .err _, _, _, h => hQ _ _ _ h
  | .act f k, b, s, h => safe_mono hQ (k s) b (f s) h
  | .mark _ k, b, s, h => ⟨h.1, fun hp => safe_mono hQ k b s (h.2 hp)⟩
  | .call _ k, _, _, h => ⟨h.1, h.2.1, fun r hr s' hi hv => safe_mono hQ (k r) s' s' (h.2.2 r hr s' hi hv)⟩
  | .enter _ k, _, _, h => ⟨h.1, h.2.1, fun s' hi hv => safe_mono hQ k s' s' (h.2.2 s' hi hv)⟩
  | .take _ _ k, _, _, h => ⟨h.1, h.2.1, fun s' hi hv => safe_mono hQ k s' s' (h.2.2 s' hi hv)⟩
  | .poke _ f k, b, s, h => safe_mono hQ k b (f s) h
  | .leave _ k, b, s, h => safe_mono hQ k b s h

/-- What the first of two programs must end in. -/
def Fate.andThen (P : Pact σ) (may : χ → ρ → Bool) (g : α → Prog σ κ χ ρ β) (Q : Fate σ β) : Fate σ α := fun r b s =>
  match r with
  | .ok a => safe P may (g a) Q b s
  | .error m => Q (.error m) b s

theorem safe_bind (g : α → Prog σ κ χ ρ β) (Q : Fate σ β) : ∀ (p : Prog σ κ χ ρ α) (b s : σ),
    safe P may p (Fate.andThen P may g Q) b s → safe P may (p.bind g) Q b s
  | .ret _, _, _, h => h
  | .err _, _, _, h => h
  | .act f k, b, s, h => safe_bind g Q (k s) b (f s) h
  | .mark _ k, b, s, h => ⟨h.1, fun hp => safe_bind g Q k b s (h.2 hp)⟩
  | .call _ k, _, _, h => ⟨h.1, h.2.1, fun r hr s' hi hv => safe_bind g Q (k r) s' s' (h.2.2 r hr s' hi hv)⟩
  | .enter _ k, _, _, h => ⟨h.1, h.2.1, fun s' hi hv => safe_bind g Q k s' s' (h.2.2 s' hi hv)⟩
  | .take _ _ k, _, _, h => ⟨h.1, h.2.1, fun s' hi hv => safe_bind g Q k s' s' (h.2.2 s' hi hv)⟩
  | .poke _ f k, b, s, h => safe_bind g Q k b (f s) h
  | .leave _ k, b, s, h => safe_bind g Q k b s h

theorem safe_xpcall (Q : Fate σ (Except String α)) : ∀ (p : Prog σ κ χ ρ α) (b s : σ),
    safe P may p (fun r b' s' => Q (.ok r) b' s') b s → safe P may p.xpcall Q b s
  | .ret _, _, _, h => h
  | .err _, _, _, h => h
  | .act f k, b, s, h => safe_xpcall Q (k s) b (f s) h
  | .mark _ k, b, s, h => ⟨h.1, fun hp => safe_xpcall Q k b s (h.2 hp)⟩
  | .call _ k, _, _, h => ⟨h.1, h.2.1, fun r hr s' hi hv => safe_xpcall Q (k r) s' s' (h.2.2 r hr s' hi hv)⟩
  | .enter _ k, _, _, h => ⟨h.1, h.2.1, fun s' hi hv => safe_xpcall Q k s' s' (h.2.2 s' hi hv)⟩
  | .take _ _ k, _, _, h => ⟨h.1, h.2.1, fun s' hi hv => safe_xpcall Q k s' s' (h.2.2 s' hi hv)⟩
  | .poke _ f k, b, s, h => safe_xpcall Q k b (f s) h
  | .leave _ k, b, s, h => safe_xpcall Q k b s h

end Rules

section Run

variable {P : Pact σ} [DecidableEq κ] {S : Sys σ κ χ ρ ο ε} {w w' : World σ κ χ ρ}

theorem step_of_run {e : Event ο ρ ε} : ∀ (es : List (Event ο ρ ε)) (w₀ w w' : World σ κ χ ρ), S.run w₀ es = some w →
    S.run w₀ (es ++ [e]) = some w' → S.step w e = some w'
  | [], _, _, _, h, h' => by
    cases h
    simpa [Sys.run] using h'
  | e' :: es, w₀, w, w', h, h' => by
    simp only [List.cons_append, Sys.run, Option.bind_eq_some_iff] at h h'
    obtain ⟨w₁, h1, h2⟩ := h
    obtain ⟨w₂, h1', h2'⟩ := h'
    rw [h1] at h1'
    cases h1'
    exact step_of_run es w₁ w w' h2 h2'

/-- What a waiting coroutine does from any state the others may leave. -/
def Ready (P : Pact σ) (may : χ → ρ → Bool) (s : σ) : Susp σ κ χ ρ → Prop
  | .calling q k => ∀ r, may q r = true → ∀ s', P.inv s' → P.rely s s' → safe P may (k r) P.final s' s'
  | .waiting _ k => ∀ s', P.inv s' → P.rely s s' → safe P may k P.final s' s'

omit [DecidableEq κ] in
theorem Ready.later {may : χ → ρ → Bool} {s s' : σ} (hv : P.rely s s') : ∀ {u : Susp σ κ χ ρ}, Ready P may s u →
    Ready P may s' u
  | .calling _ _, h => fun r hr s'' hi hv' => h r hr s'' hi (P.trans hv hv')
  | .waiting _ _, h => fun s'' hi hv' => h s'' hi (P.trans hv hv')

/-- **Between two waits a safe program keeps the pact**, and it is ready at the next. -/
theorem exec_safe {may : χ → ρ → Bool} (c : Nat) : ∀ (p : Prog σ κ χ ρ Unit) (b : σ) (g : Cfg σ κ),
    safe P may p P.final b g.st →
    (P.honest ∨ (exec c p g).1.clean = true) → P.inv (exec c p g).1.st ∧ P.rely b (exec c p g).1.st ∧
      ∀ u, (exec c p g).2 = some u → Ready P may (exec c p g).1.st u
  | .ret _, _, _, h, _ => ⟨h.1, h.2, nofun⟩
  | .err _, _, _, h, _ => ⟨h.1, h.2, nofun⟩
  | .act f k, b, g, h, hc => exec_safe c (k g.st) b { g with st := f g.st } h hc
  | .mark p k, b, g, h, hc => by
    have hp : p g.st g.sq = true := by
      rcases hc with hh | hc
      · exact h.1 hh g.sq
      · have hcl := exec_clean k _ hc
        simp only [Bool.and_eq_true] at hcl
        exact hcl.2
    exact exec_safe c k b { g with clean := g.clean && p g.st g.sq } (h.2 ⟨g.sq, hp⟩) hc
  | .call q k, _, _, h, _ => ⟨h.1, h.2.1, fun u hu => by cases hu; exact h.2.2⟩
  | .enter q k, b, g, h, hc => by
    obtain ⟨hi, hv, hk⟩ := h
    simp only [exec] at hc ⊢
    split
    · rename_i g' hg
      rw [hg] at hc
      obtain ⟨q', -, rfl⟩ := Option.map_eq_some_iff.1 hg
      obtain ⟨hi', hv', hu⟩ := exec_safe c k g.st { g with sq := Function.update g.sq q q' } (hk g.st hi (P.refl _)) hc
      exact ⟨hi', P.trans hv hv', hu⟩
    · exact ⟨hi, hv, fun u hu => by cases hu; exact hk⟩
  | .take q f k, b, g, h, hc => by
    obtain ⟨hi, hv, hk⟩ := h
    simp only [exec] at hc ⊢
    split
    · rename_i g' hg
      rw [hg] at hc
      obtain ⟨q', -, rfl⟩ := Option.map_eq_some_iff.1 hg
      obtain ⟨hi', hv', hu⟩ := exec_safe c k (f g.st)
        ⟨f g.st, Function.update g.sq q q', g.clean && (g.sq q).idle⟩ (hk (f g.st) hi (P.refl _)) hc
      exact ⟨hi', P.trans hv hv', hu⟩
    · exact ⟨hi, hv, fun u hu => by cases hu; exact hk⟩
  | .poke q f k, b, g, h, hc => exec_safe c k b { g with st := f g.st, clean := g.clean && (g.sq q).idle } h hc
  | .leave q k, b, g, h, hc => exec_safe c k b { g with sq := Function.update g.sq q (g.sq q).release } h hc

/-- A world that keeps the pact. -/
structure Sound (P : Pact σ) (S : Sys σ κ χ ρ ο ε) (w : World σ κ χ ρ) : Prop where
  inv : P.inv w.st
  ready : ∀ c u, w.co c = some u → Ready P S.may w.st u

/-- **What a system must satisfy**: every request's program, started anywhere, and every move of the outside. -/
structure Keeping (P : Pact σ) (S : Sys σ κ χ ρ ο ε) : Prop where
  prog : ∀ o s, P.inv s → safe P S.may (S.prog o) P.final s s
  env : ∀ e s, P.inv s → P.inv (S.env e s) ∧ P.rely s (S.env e s)

theorem Sound.advance (h : Sound P S w) {c : Nat} {p : Prog σ κ χ ρ Unit} {v : World σ κ χ ρ} (hst : v.st = w.st)
    (hco : v.co = w.co) (hp : safe P S.may p P.final w.st w.st)
    (hc : P.honest ∨ (v.advance c p).clean = true) :
    Sound P S (v.advance c p) := by
  obtain ⟨hi, hv, hu⟩ := exec_safe c p w.st v.toCfg (by rw [hst]; exact hp) hc
  refine ⟨hi, fun d u hd => ?_⟩
  by_cases hdc : d = c
  · subst hdc
    exact hu u (by simpa [World.advance] using hd)
  · have hold : w.co d = some u := by
      rw [← hco]
      simpa [World.advance, hdc] using hd
    exact (h.ready d u hold).later hv

theorem step_sound (hS : Keeping P S) (h : Sound P S w) {e : Event ο ρ ε} (hs : S.Takes w e w')
    (hc : P.honest ∨ w'.clean = true) : Sound P S w' := by
  cases hs with
  | start o => exact h.advance (v := { w with next := w.next + 1 }) rfl rfl (hS.prog o w.st h.inv) hc
  | @reply c q k r hk hmay => exact h.advance rfl rfl (h.ready c _ hk r hmay w.st h.inv (P.refl _)) hc
  | @wake c q k hk hcur => exact h.advance (v := { w with sq := _ }) rfl rfl (h.ready c _ hk w.st h.inv (P.refl _)) hc
  | env e =>
    obtain ⟨hi, hv⟩ := hS.env e w.st h.inv
    exact ⟨hi, fun c u hu => (h.ready c u hu).later hv⟩

theorem sound_of_run (hS : Keeping P S) (es : List (Event ο ρ ε)) (w w' : World σ κ χ ρ) (h : Sound P S w)
    (hrun : S.run w es = some w') (hc : P.honest ∨ w'.clean = true) : Sound P S w' := by
  refine S.run_keeps (I := fun w => P.honest ∨ w.clean = true → Sound P S w) (fun w e w' hs hw hc => ?_) es w w'
    (fun _ => h) hrun hc
  exact step_sound hS (hw (hc.imp_right (step_clean hs))) hs hc

theorem inv_of_run (hS : Keeping P S) {s : σ} (hs : P.inv s) {es : List (Event ο ρ ε)}
    (hrun : S.run (.init s) es = some w) (hc : w.clean = true) : P.inv w.st :=
  (sound_of_run hS es _ w ⟨hs, fun _ _ h => by cases h⟩ hrun (.inr hc)).inv

end Run

section Table

variable [DecidableEq κ]

def Desk.ensure (q : κ) (d : Desk σ κ) : Desk σ κ := if (d.sq q).isSome then d else d.open q

/-- The queues of a desk under their names. -/
def Desk.named (d : Desk σ κ) (sq : κ × Nat → Queue) (q : κ) : Queue :=
  match d.sq q with
  | some n => sq (q, n)
  | none => .empty

/-- A program over one queue a name, on a desk whose queues are dropped at will; `h` has the numbers of the queues it
entered. -/
def tabled (h : κ → Nat) : Prog σ κ χ ρ α → Prog (Desk σ κ) (κ × Nat) χ ρ α
  | .ret a => .ret a
  | .err m => .err m
  | .act f k => .act (Desk.on f) (fun d => tabled h (k d.st))
  | .mark p k => .mark (fun d sq => p d.st (d.named sq)) (tabled h k)
  | .call q k => .call q (fun r => tabled h (k r))
  | .enter q k => .act (Desk.ensure q) (fun d =>
      let n := (d.sq q).getD d.nextQ
      .enter (q, n) (tabled (Function.update h q n) k))
  | .take q f k => .act (fun d => (d.on f).ensure q) (fun d =>
      let n := (d.sq q).getD d.nextQ
      .enter (q, n) (tabled (Function.update h q n) k))
  | .poke q f k => .act (fun d => (d.on f).drop q) (fun _ => tabled h k)
  | .leave q k => .leave (q, h q) (tabled h k)

/-- The system with its queues in a table. -/
def Sys.tabled (S : Sys σ κ χ ρ ο ε) : Sys (Desk σ κ) (κ × Nat) χ ρ ο ε where
  prog o := Co.tabled (fun _ => 0) (S.prog o)
  may := S.may
  env e := Desk.on (S.env e)

omit [DecidableEq κ] in
/-- The pact of a desk is that of its state. -/
def Pact.desk (P : Pact σ) : Pact (Desk σ κ) where
  inv d := P.inv d.st
  rely d d' := P.rely d.st d'.st
  honest := P.honest
  refl d := P.refl d.st
  trans := P.trans

variable {P : Pact σ} {may : χ → ρ → Bool}

theorem ensure_st (q : κ) (d : Desk σ κ) : (d.ensure q).st = d.st := by
  unfold Desk.ensure
  split <;> rfl

theorem exec_tabled_enter (c : Nat) (h : κ → Nat) (q : κ) (k : Prog σ κ χ ρ Unit) (g : Cfg (Desk σ κ) (κ × Nat)) {n : Nat}
    (hn : (g.st.sq q).getD g.st.nextQ = n) (hfree : (g.sq (q, n)).current = none) :
    exec c (tabled h (.enter q k)) g = exec c (tabled (Function.update h q n) k)
      ⟨g.st.ensure q, Function.update g.sq (q, n) ⟨some c, (g.sq (q, n)).ref + 1, (g.sq (q, n)).waiting⟩, g.clean⟩ := by
  have hgo : goIn c (q, n) { g with st := g.st.ensure q } = some ⟨g.st.ensure q,
      Function.update g.sq (q, n) ⟨some c, (g.sq (q, n)).ref + 1, (g.sq (q, n)).waiting⟩, g.clean⟩ := by
    unfold goIn Queue.join
    rw [hfree]
    rfl
  subst hn
  simp only [tabled, exec, hgo]

theorem safe_tabled {Q : Fate σ α} : ∀ (p : Prog σ κ χ ρ α) (h : κ → Nat) (b d : Desk σ κ), safe P may p Q b.st d.st →
    safe P.desk may (tabled h p) (fun r b' d' => Q r b'.st d'.st) b d
  | .ret _, _, _, _, hp => hp
  | .err _, _, _, _, hp => hp
  | .act f k, h, b, d, hp => safe_tabled (k d.st) h b (d.on f) hp
  | .mark p k, h, b, d, hp =>
    ⟨fun hh sq => hp.1 hh (d.named sq), fun ⟨sq, hsq⟩ => safe_tabled k h b d (hp.2 ⟨d.named sq, hsq⟩)⟩
  | .call q k, h, b, d, hp =>
    ⟨hp.1, hp.2.1, fun r hr d' hi hv => safe_tabled (k r) h d' d' (hp.2.2 r hr d'.st hi hv)⟩
  | .enter q k, h, b, d, hp => by
    obtain ⟨hi, hv, hk⟩ := hp
    refine ⟨?_, ?_, fun d' hi' hv' => safe_tabled k _ d' d' (hk d'.st hi' ?_)⟩
    · show P.inv (d.ensure q).st
      rw [ensure_st]
      exact hi
    · show P.rely b.st (d.ensure q).st
      rw [ensure_st]
      exact hv
    · have hv'' : P.rely (d.ensure q).st d'.st := hv'
      rwa [ensure_st] at hv''
  | .take q f k, h, b, d, hp => by
    obtain ⟨hi, hv, hk⟩ := hp
    refine ⟨?_, ?_, fun d' hi' hv' => safe_tabled k _ d' d' (hk d'.st hi' ?_)⟩
    · show P.inv ((d.on f).ensure q).st
      rw [ensure_st]
      exact hi
    · show P.rely b.st ((d.on f).ensure q).st
      rw [ensure_st]
      exact hv
    · have hv'' : P.rely ((d.on f).ensure q).st d'.st := hv'
      rwa [ensure_st] at hv''
  | .poke q f k, h, b, d, hp => safe_tabled k h b ((d.on f).drop q) hp
  | .leave q k, h, b, d, hp => safe_tabled k h b d hp

theorem Keeping.tabled {S : Sys σ κ χ ρ ο ε} (hS : Keeping P S) : Keeping P.desk S.tabled where
  prog o d hi := safe_tabled (Q := P.final) (S.prog o) _ d d (hS.prog o d.st hi)
  env e d hi := hS.env e d.st hi

theorem inv_of_run_tabled {S : Sys σ κ χ ρ ο ε} (hS : Keeping P S) {s : σ} (hs : P.inv s) {es : List (Event ο ρ ε)}
    {w : World (Desk σ κ) (κ × Nat) χ ρ} (hrun : S.tabled.run (.init (.new s)) es = some w) (hc : w.clean = true) :
    P.inv w.st.st :=
  inv_of_run hS.tabled (P := P.desk) (s := .new s) hs hrun hc

/-- **The invariant of an honest pact holds after every run over a table of queues.** -/
theorem inv_of_run_honest {S : Sys σ κ χ ρ ο ε} (hP : P.honest) (hS : Keeping P S) {s : σ} (hs : P.inv s)
    {es : List (Event ο ρ ε)} {w : World (Desk σ κ) (κ × Nat) χ ρ} (hrun : S.tabled.run (.init (.new s)) es = some w) :
    P.inv w.st.st := by
  have hinit : Sound P.desk S.tabled (.init (.new s)) := ⟨hs, fun _ _ h => by cases h⟩
  exact (sound_of_run hS.tabled es _ w hinit hrun (.inl hP)).inv

end Table

/-- Ending in `ok`, or with an error in `bad`. -/
def Meets (P : Pact σ) (ok : α → σ → Prop) (bad : σ → Prop) : Fate σ α := fun r b s =>
  P.rely b s ∧ match r with
    | .ok a => ok a s
    | .error _ => bad s

/-- **A program, from `pre`, ends in `ok` or raises in `bad`**, keeping the pact on its way. -/
def Vow (P : Pact σ) (may : χ → ρ → Bool) (pre : σ → Prop) (p : Prog σ κ χ ρ α) (ok : α → σ → Prop)
    (bad : σ → Prop) : Prop :=
  ∀ b s, P.rely b s → pre s → safe P may p (Meets P ok bad) b s

/-- A program that keeps the pact, from anywhere. -/
def Abides (P : Pact σ) (may : χ → ρ → Bool) (p : Prog σ κ χ ρ α) : Prop :=
  Vow P may P.inv p (fun _ => P.inv) P.inv

section Vow

variable {P : Pact σ} {may : χ → ρ → Bool} {pre : σ → Prop} {ok : α → σ → Prop} {bad : σ → Prop}

theorem Vow.conseq {pre' : σ → Prop} {ok' : α → σ → Prop} {bad' : σ → Prop} {p : Prog σ κ χ ρ α}
    (h : Vow P may pre' p ok' bad') (hpre : ∀ s, pre s → pre' s) (hok : ∀ a s, ok' a s → ok a s)
    (hbad : ∀ s, bad' s → bad s) : Vow P may pre p ok bad := by
  intro b s hv hs
  refine safe_mono ?_ p b s (h b s hv (hpre s hs))
  rintro (m | a) b' s' ⟨hv', hp⟩
  · exact ⟨hv', hbad _ hp⟩
  · exact ⟨hv', hok a _ hp⟩

theorem Vow.weaken {pre' : σ → Prop} {p : Prog σ κ χ ρ α} (h : Vow P may pre' p ok bad) (hpre : ∀ s, pre s → pre' s) :
    Vow P may pre p ok bad :=
  fun b s hv hs => h b s hv (hpre s hs)

theorem Vow.pure {a : α} (h : ∀ s, pre s → ok a s) : Vow P may pre (Pure.pure a : Prog σ κ χ ρ α) ok bad :=
  fun _ s hv hs => ⟨hv, h s hs⟩

theorem Vow.err {m : String} (h : ∀ s, pre s → bad s) : Vow P may pre (.err m : Prog σ κ χ ρ α) ok bad :=
  fun _ s hv hs => ⟨hv, h s hs⟩

theorem Vow.bind {p : Prog σ κ χ ρ β} {g : β → Prog σ κ χ ρ α} {M : β → σ → Prop} (hp : Vow P may pre p M bad)
    (hg : ∀ b, Vow P may (M b) (g b) ok bad) : Vow P may pre (p >>= g) ok bad := by
  intro b s hv hs
  refine safe_bind g _ p b s (safe_mono ?_ p b s (hp b s hv hs))
  rintro (m | a) b' s' ⟨hv', hm⟩
  · exact ⟨hv', hm⟩
  · exact hg a b' s' hv' hm

theorem Vow.xpcall {p : Prog σ κ χ ρ β} {M : β → σ → Prop} {E : σ → Prop} {post : Except String β → σ → Prop}
    (hp : Vow P may pre p M E) (hok : ∀ a s, M a s → post (.ok a) s) (herr : ∀ m s, E s → post (.error m) s) :
    Vow P may pre p.xpcall post bad := by
  intro b s hv hs
  refine safe_xpcall _ p b s (safe_mono ?_ p b s (hp b s hv hs))
  rintro (m | a) b' s' ⟨hv', hm⟩
  · exact ⟨hv', herr m _ hm⟩
  · exact ⟨hv', hok a _ hm⟩

theorem Vow.get {g : σ → Prog σ κ χ ρ α} (hg : ∀ s, pre s → Vow P may (fun s' => s' = s) (g s) ok bad) :
    Vow P may pre (Prog.get >>= g) ok bad :=
  fun b s hv hs => hg s hs b s hv rfl

theorem Vow.peek {g : σ → Prog σ κ χ ρ α} (hg : ∀ s, Vow P may pre (g s) ok bad) : Vow P may pre (Prog.get >>= g) ok bad :=
  fun b s hv hs => hg s b s hv hs

theorem Vow.modify {f : σ → σ} {post : Unit → σ → Prop} (hf : ∀ s, pre s → P.rely s (f s) ∧ post () (f s)) :
    Vow P may pre (Prog.modify f : Prog σ κ χ ρ Unit) post bad :=
  fun _ s hv hs => ⟨P.trans hv (hf s hs).1, (hf s hs).2⟩

theorem Vow.check {c : σ → (κ → Queue) → Bool} {post : Unit → σ → Prop}
    (hhon : P.honest → ∀ s sq, pre s → c s sq = true) (hc : ∀ s sq, pre s → c s sq = true → post () s) :
    Vow P may pre (Prog.check c : Prog σ κ χ ρ Unit) post bad := by
  intro b s hv hs
  refine ⟨fun hh sq => hhon hh s sq hs, fun h => ?_⟩
  obtain ⟨sq, hsq⟩ := h
  exact ⟨hv, hc s sq hs hsq⟩

theorem Vow.note {on : Bool} {c : σ → Bool} {post : Unit → σ → Prop} (hhon : P.honest → on = false)
    (hc : ∀ s, pre s → (on = true → c s = true) → post () s) :
    Vow P may pre (Prog.note on c : Prog σ κ χ ρ Unit) post bad := by
  refine Vow.check (fun hh s _ _ => ?_) (fun s _ hs h => hc s hs (fun ho => ?_))
  · rw [hhon hh]
    rfl
  · subst ho
    exact h

theorem Vow.ask {c : χ} {post : ρ → σ → Prop} (hinv : ∀ s, pre s → P.inv s)
    (hr : ∀ s s' r, pre s → may c r = true → P.inv s' → P.rely s s' → post r s') :
    Vow P may pre (Prog.ask c : Prog σ κ χ ρ ρ) post bad :=
  fun _ s hv hs => ⟨hinv s hs, hv, fun r hmay s' hi hv' => ⟨P.refl _, hr s s' r hs hmay hi hv'⟩⟩

theorem Vow.ite {c : Prop} [Decidable c] {p p' : Prog σ κ χ ρ α} (ht : c → Vow P may pre p ok bad)
    (he : ¬c → Vow P may pre p' ok bad) : Vow P may pre (if c then p else p') ok bad := by
  by_cases h : c
  · rw [if_pos h]
    exact ht h
  · rw [if_neg h]
    exact he h

theorem Vow.when {b : Bool} {p : Prog σ κ χ ρ Unit} {post : Unit → σ → Prop} (ht : b = true → Vow P may pre p post bad)
    (he : b = false → ∀ s, pre s → post () s) : Vow P may pre (Prog.when b p) post bad := by
  cases b with
  | true => exact ht rfl
  | false => exact fun _ s hv hs => ⟨hv, he rfl s hs⟩

theorem Vow.inside {q : κ} {body : Prog σ κ χ ρ α} (h : Vow P may pre body ok bad) :
    Vow P may pre (Prog.inside q body) ok bad := by
  intro b s hv hs
  refine safe_bind _ _ _ b s (safe_xpcall _ body b s (safe_mono ?_ body b s (h b s hv hs)))
  rintro (m | a) b' s' hm
  · exact hm
  · exact hm

theorem Vow.serial {q : κ} {body : Prog σ κ χ ρ α} {mid : σ → Prop} (h : Vow P may mid body ok bad)
    (hinv : ∀ s, pre s → P.inv s) (hmid : ∀ s s', pre s → P.inv s' → P.rely s s' → mid s') :
    Vow P may pre (Prog.serial q body) ok bad :=
  fun _ s hv hs => ⟨hinv s hs, hv, fun s' hi hv' => h.inside s' s' (P.refl _) (hmid s s' hs hi hv')⟩

theorem safe_from {b b₀ : σ} (hb : P.rely b b₀) : ∀ (p : Prog σ κ χ ρ α) (s : σ), safe P may p (Meets P ok bad) b₀ s →
    safe P may p (Meets P ok bad) b s
  | .ret _, _, h => ⟨P.trans hb h.1, h.2⟩
  | .err _, _, h => ⟨P.trans hb h.1, h.2⟩
  | .act f k, s, h => safe_from hb (k s) (f s) h
  | .mark _ k, s, h => ⟨h.1, fun hp => safe_from hb k s (h.2 hp)⟩
  | .call _ _, _, h => ⟨h.1, P.trans hb h.2.1, h.2.2⟩
  | .enter _ _, _, h => ⟨h.1, P.trans hb h.2.1, h.2.2⟩
  | .take _ _ _, _, h => ⟨h.1, P.trans hb h.2.1, h.2.2⟩
  | .poke _ f k, s, h => safe_from hb k (f s) h
  | .leave _ k, s, h => safe_from hb k s h

theorem safe_stable {J : σ → Prop} (hJ : ∀ s s', J s → P.rely s s' → J s') {Q : Fate σ α} :
    ∀ (p : Prog σ κ χ ρ α) (b s : σ), J b → safe P may p Q b s → safe P may p (fun r b' s' => Q r b' s' ∧ J b') b s
  | .ret _, _, _, hb, h => ⟨h, hb⟩
  | .err _, _, _, hb, h => ⟨h, hb⟩
  | .act f k, b, s, hb, h => safe_stable hJ (k s) b (f s) hb h
  | .mark _ k, b, s, hb, h => ⟨h.1, fun hp => safe_stable hJ k b s hb (h.2 hp)⟩
  | .call _ k, b, s, hb, h => ⟨h.1, h.2.1, fun r hr s' hi hv =>
      safe_stable hJ (k r) s' s' (hJ s s' (hJ b s hb h.2.1) hv) (h.2.2 r hr s' hi hv)⟩
  | .enter _ k, b, s, hb, h => ⟨h.1, h.2.1, fun s' hi hv =>
      safe_stable hJ k s' s' (hJ s s' (hJ b s hb h.2.1) hv) (h.2.2 s' hi hv)⟩
  | .take _ f k, b, s, hb, h => ⟨h.1, h.2.1, fun s' hi hv =>
      safe_stable hJ k s' s' (hJ (f s) s' (hJ b (f s) hb h.2.1) hv) (h.2.2 s' hi hv)⟩
  | .poke _ f k, b, s, hb, h => safe_stable hJ k b (f s) hb h
  | .leave _ k, b, s, hb, h => safe_stable hJ k b s hb h

theorem Vow.stable {J : σ → Prop} (hJ : ∀ s s', J s → P.rely s s' → J s') {p : Prog σ κ χ ρ α}
    (h : Vow P may pre p ok bad) :
    Vow P may (fun s => pre s ∧ J s) p (fun a s => ok a s ∧ J s) (fun s => bad s ∧ J s) := by
  intro b s hv hs
  refine safe_from hv p s (safe_mono ?_ p s s (safe_stable hJ p s s hs.2 (h s s (P.refl s) hs.1)))
  rintro (m | a) b' s' ⟨⟨hv', hp⟩, hb⟩
  · exact ⟨hv', hp, hJ b' s' hb hv'⟩
  · exact ⟨hv', hp, hJ b' s' hb hv'⟩

/-! Running on from a known state. -/

theorem Vow.fix {p : Prog σ κ χ ρ α} (h : ∀ s, pre s → Vow P may (fun s' => s' = s) p ok bad) : Vow P may pre p ok bad :=
  fun b s hv hs => h s hs b s hv rfl

theorem Vow.noteAt {on : Bool} {c : σ → Bool} {k : Prog σ κ χ ρ α} {s : σ} (hhon : P.honest → on = false)
    (hk : (on = true → c s = true) → Vow P may (fun s' => s' = s) k ok bad) :
    Vow P may (fun s' => s' = s) (Prog.note on c >>= fun _ => k) ok bad := by
  refine Vow.bind (M := fun _ s' => s' = s ∧ (on = true → c s = true)) (Vow.note hhon (fun s' hs' h => ⟨hs', ?_⟩)) ?_
  · subst hs'
    exact h
  · rintro - b s' hv ⟨rfl, h⟩
    exact hk h b s' hv rfl

theorem Vow.modifyAt {f : σ → σ} {k : Prog σ κ χ ρ α} {s : σ} (hf : P.rely s (f s))
    (hk : Vow P may (fun s' => s' = f s) k ok bad) :
    Vow P may (fun s' => s' = s) (Prog.modify f >>= fun _ => k) ok bad := by
  refine Vow.bind (M := fun _ s' => s' = f s) (Vow.modify (fun s' hs' => ?_)) (fun _ => hk)
  subst hs'
  exact ⟨hf, rfl⟩

theorem Abides.at {p : Prog σ κ χ ρ α} (h : Abides P may p) {s : σ} (hs : P.inv s) :
    Vow P may (fun s' => s' = s) p (fun _ => P.inv) P.inv :=
  h.weaken (fun _ hs' => hs' ▸ hs)

theorem Abides.final {p : Prog σ κ χ ρ Unit} (h : Abides P may p) {s : σ} (hi : P.inv s) :
    safe P may p P.final s s := by
  refine safe_mono ?_ p s s (h s s (P.refl _) hi)
  rintro (m | a) b' s' ⟨hv, hp⟩
  · exact ⟨hp, hv⟩
  · exact ⟨hp, hv⟩

theorem Vow.exec_tabled [DecidableEq κ] {p : Prog σ κ χ ρ Unit} {g : Cfg (Desk σ κ) (κ × Nat)} (hP : P.honest)
    (h : Vow P may (fun s' => s' = g.st.st) p (fun _ => P.inv) P.inv) (c : Nat) (hq : κ → Nat) :
    P.inv (exec c (tabled hq p) g).1.st.st := by
  have hsafe : safe P may p P.final g.st.st g.st.st := by
    refine safe_mono ?_ p _ _ (h _ _ (P.refl _) rfl)
    rintro (m | a) b' s' ⟨hv, hp⟩
    · exact ⟨hp, hv⟩
    · exact ⟨hp, hv⟩
  exact (exec_safe (P := P.desk) c _ g.st g (safe_tabled p hq g.st g.st hsafe) (.inl hP)).1

theorem Abides.pure (a : α) : Abides P may (Pure.pure a : Prog σ κ χ ρ α) := Vow.pure (fun _ h => h)

theorem Abides.err (m : String) : Abides P may (.err m : Prog σ κ χ ρ α) := Vow.err (fun _ h => h)

theorem Abides.bind {p : Prog σ κ χ ρ β} {g : β → Prog σ κ χ ρ α} (hp : Abides P may p) (hg : ∀ b, Abides P may (g b)) :
    Abides P may (p >>= g) :=
  Vow.bind hp hg

theorem Abides.xpcall {p : Prog σ κ χ ρ α} (hp : Abides P may p) : Abides P may p.xpcall :=
  Vow.xpcall hp (fun _ _ h => h) (fun _ _ h => h)

theorem Abides.peek {g : σ → Prog σ κ χ ρ α} (hg : ∀ s, Abides P may (g s)) : Abides P may (Prog.get >>= g) := Vow.peek hg

theorem Abides.modify {f : σ → σ} (hf : ∀ s, P.inv s → P.inv (f s) ∧ P.rely s (f s)) :
    Abides P may (Prog.modify f : Prog σ κ χ ρ Unit) :=
  Vow.modify (fun s hs => ⟨(hf s hs).2, (hf s hs).1⟩)

theorem Abides.ask (c : χ) : Abides P may (Prog.ask c : Prog σ κ χ ρ ρ) :=
  Vow.ask (fun _ h => h) (fun _ _ _ _ _ hi _ => hi)

theorem Abides.note {on : Bool} (c : σ → Bool) (hhon : P.honest → on = false) :
    Abides P may (Prog.note on c : Prog σ κ χ ρ Unit) :=
  Vow.note hhon (fun _ h _ => h)

theorem Abides.ite {c : Prop} [Decidable c] {p p' : Prog σ κ χ ρ α} (ht : Abides P may p) (he : Abides P may p') :
    Abides P may (if c then p else p') :=
  Vow.ite (fun _ => ht) (fun _ => he)

theorem Abides.serial {q : κ} {body : Prog σ κ χ ρ α} (h : Abides P may body) : Abides P may (Prog.serial q body) :=
  Vow.serial h (fun _ h => h) (fun _ _ _ hi _ => hi)

end Vow

end Co
end Sncpp
