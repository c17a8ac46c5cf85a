import Sncpp.CoLock
/-!
# CoDesk — queues looked up by name

A service seldom holds its queues; it looks them up in a table and drops them from it.  `Desk` is a state with such a
table, a queue being a name and a number that is never used again.  `lift` runs a program written over one queue a
name on a desk: entering looks the queue up, making it if it is missing, leaving leaves the queue that was entered,
and touching a queue from outside drops it from the table.
-/
namespace Sncpp
namespace Co

variable {σ κ χ ρ ο ε α β : Type}

/-- A state, the queues in use by name, and the number of the next queue. -/
structure Desk (σ κ : Type) where
  st : σ
  sq : κ → Option Nat
  nextQ : Nat

def Desk.new (s : σ) : Desk σ κ := ⟨s, fun _ => none, 0⟩

def Desk.on (f : σ → σ) (d : Desk σ κ) : Desk σ κ := { d with st := f d.st }

section Lift

variable [DecidableEq κ]

/-- A new queue under a name. -/
def Desk.open (q : κ) (d : Desk σ κ) : Desk σ κ :=
  { d with sq := Function.update d.sq q (some d.nextQ), nextQ := d.nextQ + 1 }

/-- No queue under a name. -/
def Desk.drop (q : κ) (d : Desk σ κ) : Desk σ κ := { d with sq := Function.update d.sq q none }

/-- The queue under a name, made if it is missing. -/
def lookup (q : κ) (c : Nat → Prog (Desk σ κ) (κ × Nat) χ ρ α) : Prog (Desk σ κ) (κ × Nat) χ ρ α :=
  .act id (fun d =>
    match d.sq q with
    | some n => c n
    | none => .poke (q, d.nextQ) (Desk.open q) (c d.nextQ))

/-- A program over one queue a name, on a desk; `h` has the numbers of the queues it entered. -/
def lift (h : κ → Nat) : Prog σ κ χ ρ α → Prog (Desk σ κ) (κ × Nat) χ ρ α
  | .ret a => .ret a
  | .err m => .err m
  | .act f k => .act (Desk.on f) (fun d => lift h (k d.st))
  | .mark _ k => lift h k
  | .call q k => .call q (fun r => lift h (k r))
  | .enter q k => lookup q (fun n => .enter (q, n) (lift (Function.update h q n) k))
  | .take q f k =>
    .act (Desk.on f) (fun _ => lookup q (fun n => .enter (q, n) (lift (Function.update h q n) k)))
  | .poke q f k =>
    .act (Desk.on f) (fun d =>
      match d.sq q with
      | none => lift h k
      | some n => .poke (q, n) (Desk.drop q) (lift h k))
  | .leave q k => .leave (q, h q) (lift h k)

/-- The system with its programs on a desk. -/
def Sys.desk (S : Sys σ κ χ ρ ο ε) : Sys (Desk σ κ) (κ × Nat) χ ρ ο ε where
  prog o := lift (fun _ => 0) (S.prog o)
  may := S.may
  env e := Desk.on (S.env e)

end Lift

/-! ## Busy queues stay in the table -/

section Desk

variable [DecidableEq κ] {c : Nat} {g : Cfg (Desk σ κ) (κ × Nat)} {q : κ} {n : Nat}

/-- **A busy queue is the one in the table under its name**, and nobody waits for an idle one. -/
structure InTable (g : Cfg (Desk σ κ) (κ × Nat)) : Prop where
  busy : ∀ q n, (g.sq (q, n)).current ≠ none → g.st.sq q = some n
  line : ∀ x, (g.sq x).current = none → (g.sq x).waiting = []

/-- A coroutine that waits in the middle of a program on a desk. -/
def Lifted : Susp (Desk σ κ) (κ × Nat) χ ρ → Prop
  | .calling _ k => ∀ r, ∃ (h : κ → Nat) (p : Prog σ κ χ ρ Unit), k r = lift h p
  | .waiting _ k => ∃ (h : κ → Nat) (p : Prog σ κ χ ρ Unit), k = lift h p

theorem InTable.update (h : InTable g) (v : Queue) (hbusy : v.current ≠ none → g.st.sq q = some n)
    (hline : v.current = none → v.waiting = []) : InTable { g with sq := Function.update g.sq (q, n) v } where
  busy q' n' hc := by
    by_cases hx : (q', n') = (q, n)
    · cases hx
      exact hbusy (by simpa using hc)
    · exact h.busy q' n' (by simpa [hx] using hc)
  line x hc := by
    by_cases hx : x = (q, n)
    · subst hx
      simpa using hline (by simpa using hc)
    · simpa [hx] using h.line x (by simpa [hx] using hc)

theorem InTable.open (h : InTable g) (hq : g.st.sq q = none) (b : Bool) :
    InTable { g with st := g.st.open q, clean := b } where
  busy q' n' hc := by
    have hold := h.busy q' n' hc
    have hne : q' ≠ q := by
      rintro rfl
      rw [hq] at hold
      cases hold
    simpa [Desk.open, hne] using hold
  line := h.line

theorem InTable.drop (h : InTable g) (hq : g.st.sq q = some n) (hidle : (g.sq (q, n)).current = none) (b : Bool) :
    InTable { g with st := g.st.drop q, clean := b } where
  busy q' n' hc := by
    have hold := h.busy q' n' hc
    have hne : q' ≠ q := by
      rintro rfl
      rw [hq] at hold
      cases hold
      exact hc hidle
    simpa [Desk.drop, hne] using hold
  line := h.line

theorem InTable.release (h : InTable g) (x : κ × Nat) :
    InTable { g with sq := Function.update g.sq x (g.sq x).release } := by
  refine h.update (q := x.1) (n := x.2) _ (fun hc => ?_) (fun hc => ?_)
  · refine h.busy x.1 x.2 (fun hn => hc ?_)
    unfold Queue.release
    split
    · show (g.sq x).waiting.head? = none
      rw [h.line x hn]
      rfl
    · exact hn
  · unfold Queue.release at hc ⊢
    split at hc
    · rename_i href
      rw [if_pos href]
      show (g.sq x).waiting.tail = []
      rw [List.head?_eq_none_iff.1 hc]
      rfl
    · rename_i href
      rw [if_neg href]
      exact h.line x hc

theorem exec_enter {k : Prog (Desk σ κ) (κ × Nat) χ ρ Unit} (h : InTable g) (hq : g.st.sq q = some n)
    (hk : Lifted (.waiting (q, n) k))
    (ih : ∀ g' : Cfg (Desk σ κ) (κ × Nat), InTable g' → (exec c k g').1.clean = true →
      InTable (exec c k g').1 ∧ ∀ u, (exec c k g').2 = some u → Lifted u)
    (hc : (exec c (.enter (q, n) k) g).1.clean = true) :
    InTable (exec c (.enter (q, n) k) g).1 ∧ ∀ u, (exec c (.enter (q, n) k) g).2 = some u → Lifted u := by
  simp only [exec] at hc ⊢
  split
  · rename_i g' hg
    rw [hg] at hc
    obtain ⟨v, hv, rfl⟩ := Option.map_eq_some_iff.1 hg
    have hcur : v.current = some c := by
      unfold Queue.join at hv
      split at hv
      · cases hv
        rfl
      · split at hv
        · cases hv
          rfl
        · cases hv
    refine ih _ (h.update v (fun _ => hq) (fun hn => ?_)) hc
    rw [hcur] at hn
    cases hn
  · rename_i hg
    have hcur : (g.sq (q, n)).current ≠ none := by
      intro hn
      unfold goIn Queue.join at hg
      rw [hn] at hg
      cases hg
    refine ⟨h.update _ (fun _ => hq) (fun hn => absurd hn hcur), fun u hu => ?_⟩
    cases hu
    exact hk

theorem exec_lookup {k : Nat → Prog (Desk σ κ) (κ × Nat) χ ρ Unit} (h : InTable g)
    (hk : ∀ n, Lifted (.waiting (q, n) (k n)))
    (ih : ∀ n, ∀ g' : Cfg (Desk σ κ) (κ × Nat), InTable g' → (exec c (k n) g').1.clean = true →
      InTable (exec c (k n) g').1 ∧ ∀ u, (exec c (k n) g').2 = some u → Lifted u)
    (hc : (exec c (lookup q (fun n => .enter (q, n) (k n))) g).1.clean = true) :
    InTable (exec c (lookup q (fun n => .enter (q, n) (k n))) g).1 ∧
      ∀ u, (exec c (lookup q (fun n => .enter (q, n) (k n))) g).2 = some u → Lifted u := by
  have heq : exec c (lookup q (fun n => .enter (q, n) (k n))) g =
      match g.st.sq q with
      | some n => exec c (.enter (q, n) (k n)) g
      | none => exec c (.enter (q, g.st.nextQ) (k g.st.nextQ))
          { g with st := g.st.open q, clean := g.clean && (g.sq (q, g.st.nextQ)).idle } := by
    unfold lookup
    rw [exec]
    cases hq : g.st.sq q <;> rfl
  rw [heq] at hc ⊢
  cases hq : g.st.sq q with
  | some n =>
    rw [hq] at hc
    exact exec_enter h hq (hk n) (ih n) hc
  | none =>
    rw [hq] at hc
    exact exec_enter (h.open hq _) (by simp [Desk.open]) (hk _) (ih _) hc

/-- **A program on a desk keeps the busy queues in the table between two waits**, by induction on the program. -/
theorem exec_inTable (c : Nat) : ∀ (p : Prog σ κ χ ρ Unit) (h : κ → Nat) (g : Cfg (Desk σ κ) (κ × Nat)), InTable g →
    (exec c (lift h p) g).1.clean = true →
    InTable (exec c (lift h p) g).1 ∧ ∀ u, (exec c (lift h p) g).2 = some u → Lifted u
  | .ret _, _, _, hg, _ => ⟨hg, nofun⟩
  | .err _, _, _, hg, _ => ⟨hg, nofun⟩
  | .act f k, h, g, hg, hc => exec_inTable c (k g.st.st) h { g with st := g.st.on f } ⟨hg.busy, hg.line⟩ hc
  | .mark _ k, h, g, hg, hc => exec_inTable c k h g hg hc
  | .call _ k, h, g, hg, _ => ⟨hg, fun u hu => by cases hu; exact fun r => ⟨h, k r, rfl⟩⟩
  | .enter q k, h, g, hg, hc =>
    exec_lookup hg (fun n => ⟨_, k, rfl⟩) (fun n g' hg' hc' => exec_inTable c k _ g' hg' hc') hc
  | .take q f k, h, g, hg, hc =>
    exec_lookup (g := { g with st := g.st.on f }) ⟨hg.busy, hg.line⟩ (fun n => ⟨_, k, rfl⟩)
      (fun n g' hg' hc' => exec_inTable c k _ g' hg' hc') hc
  | .poke q f k, h, g, hg, hc => by
    have hon : InTable { g with st := g.st.on f } := ⟨hg.busy, hg.line⟩
    have heq : exec c (lift h (.poke q f k)) g =
        match g.st.sq q with
        | none => exec c (lift h k) { g with st := g.st.on f }
        | some n => exec c (lift h k)
            { g with st := (g.st.on f).drop q, clean := g.clean && (g.sq (q, n)).idle } := by
      rw [lift, exec]
      cases hq : g.st.sq q <;> rfl
    rw [heq] at hc ⊢
    cases hq : g.st.sq q with
    | none =>
      rw [hq] at hc
      exact exec_inTable c k h _ hon hc
    | some n =>
      rw [hq] at hc
      have hcl := exec_clean _ _ hc
      simp only [Bool.and_eq_true, Queue.idle, Option.isNone_iff_eq_none] at hcl
      exact exec_inTable c k h _ (hon.drop hq hcl.2 _) hc
  | .leave q k, h, g, hg, hc => exec_inTable c k h _ (hg.release (q, h q)) hc

/-- A world of programs on a desk, with its busy queues in the table. -/
structure Seated (w : World (Desk σ κ) (κ × Nat) χ ρ) : Prop where
  table : InTable w.toCfg
  co : ∀ c u, w.co c = some u → Lifted u

theorem Seated.advance {w : World (Desk σ κ) (κ × Nat) χ ρ} (h : Seated w) {v : World (Desk σ κ) (κ × Nat) χ ρ}
    (htable : InTable v.toCfg) (hco : v.co = w.co) {hq : κ → Nat} {p : Prog σ κ χ ρ Unit}
    (hc : (v.advance c (lift hq p)).clean = true) : Seated (v.advance c (lift hq p)) := by
  obtain ⟨ht, hu⟩ := exec_inTable c p hq v.toCfg htable hc
  refine ⟨ht, fun d u hd => ?_⟩
  by_cases hdc : d = c
  · subst hdc
    exact hu u (by simpa [World.advance] using hd)
  · refine h.co d u ?_
    rw [← hco]
    simpa [World.advance, hdc] using hd

theorem step_seated {S : Sys σ κ χ ρ ο ε} {w w' : World (Desk σ κ) (κ × Nat) χ ρ} (h : Seated w) {e : Event ο ρ ε}
    (hs : S.desk.Takes w e w') (hc : w'.clean = true) : Seated w' := by
  cases hs with
  | start o => exact h.advance (v := { w with next := w.next + 1 }) h.table rfl hc
  | @reply c q k r hk hmay =>
    obtain ⟨hq, p, hp⟩ := h.co c _ hk r
    rw [hp] at hc ⊢
    exact h.advance h.table rfl hc
  | @wake c x k hk hcur =>
    obtain ⟨hq, p, hp⟩ := h.co c _ hk
    have hne : (w.sq x).current ≠ none := by
      rw [hcur]
      exact Option.some_ne_none c
    rw [hp] at hc ⊢
    refine h.advance (v := { w with sq := Function.update w.sq x { w.sq x with ref := (w.sq x).ref + 1 } }) ?_ rfl hc
    exact h.table.update (q := x.1) (n := x.2) _ (fun _ => h.table.busy _ _ hne) (fun hn => absurd hn hne)
  | env e => exact ⟨⟨h.table.busy, h.table.line⟩, h.co⟩

theorem busy_in_table_of_run {S : Sys σ κ χ ρ ο ε} (s : σ) (es : List (Event ο ρ ε))
    {w : World (Desk σ κ) (κ × Nat) χ ρ} (hrun : S.desk.run (.init (.new s)) es = some w) (hclean : w.clean = true)
    {k : κ} {n c : Nat} (hcur : (w.sq (k, n)).current = some c) : w.st.sq k = some n := by
  have hinit : Seated (.init (.new s) : World (Desk σ κ) (κ × Nat) χ ρ) := by
    refine ⟨⟨fun q n hc => absurd rfl hc, fun _ _ => rfl⟩, fun _ _ h => ?_⟩
    cases h
  have hseated := S.desk.clean_run_keeps (fun _ _ _ hs hc h => step_seated h hs hc) es _ w hinit hrun hclean
  refine hseated.table.busy k n ?_
  rw [hcur]
  nofun

/-- **At most one coroutine holds the queues of a name** as long as only idle queues are dropped. -/
theorem holder_unique_of_run {S : Sys σ κ χ ρ ο ε} (s : σ) (es : List (Event ο ρ ε))
    {w : World (Desk σ κ) (κ × Nat) χ ρ} (hrun : S.desk.run (.init (.new s)) es = some w) (hclean : w.clean = true)
    {q : κ} {n n' c c' : Nat} (h : (w.sq (q, n)).current = some c) (h' : (w.sq (q, n')).current = some c') : c = c' := by
  have hn := busy_in_table_of_run s es hrun hclean h
  have hn' := busy_in_table_of_run s es hrun hclean h'
  rw [hn] at hn'
  cases hn'
  rw [h] at h'
  exact Option.some.inj h'

end Desk

end Co
end Sncpp
