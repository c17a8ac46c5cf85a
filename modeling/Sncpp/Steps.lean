import Mathlib.Data.List.Basic
/-!
# Steps — machines that take one event after another

A step function on a state; a run is its fold over the events.  `Along` says that each event meets a condition in the
state it finds, and what every such step keeps, a whole such run keeps (`Along.inv`).  `Each` says that each event of a
history meets a condition on what came before it.
-/
namespace Sncpp
namespace Steps

variable {σ ε : Type} {step : σ → ε → σ} {ok ok' : σ → ε → Prop}

/-- **Each event meets `ok` in the state it finds.** -/
def Along (step : σ → ε → σ) (ok : σ → ε → Prop) : σ → List ε → Prop
  | _, [] => True
  | s, e :: es => ok s e ∧ Along step ok (step s e) es

instance Along.decidable (step : σ → ε → σ) (ok : σ → ε → Prop) [∀ s e, Decidable (ok s e)] :
    ∀ (s : σ) (es : List ε), Decidable (Along step ok s es)
  | _, [] => isTrue trivial
  | s, e :: es =>
    have := Along.decidable step ok (step s e) es
    inferInstanceAs (Decidable (ok s e ∧ Along step ok (step s e) es))

theorem Along.inv {I : σ → Prop} (h : ∀ s e, ok s e → I s → I (step s e)) :
    ∀ (es : List ε) (s : σ), Along step ok s es → I s → I (es.foldl step s)
  | [], _, _, hs => hs
  | e :: es, s, ha, hs => Along.inv h es (step s e) ha.2 (h s e ha.1 hs)

theorem Along.mono (h : ∀ s e, ok s e → ok' s e) : ∀ (es : List ε) (s : σ), Along step ok s es → Along step ok' s es
  | [], _, _ => trivial
  | e :: es, s, ha => ⟨h s e ha.1, Along.mono h es (step s e) ha.2⟩

theorem Along.and : ∀ (es : List ε) (s : σ), Along step ok s es → Along step ok' s es →
    Along step (fun s e => ok s e ∧ ok' s e) s es
  | [], _, _, _ => trivial
  | e :: es, s, h, h' => ⟨⟨h.1, h'.1⟩, Along.and es (step s e) h.2 h'.2⟩

theorem Along.append : ∀ (es fs : List ε) (s : σ), Along step ok s (es ++ fs) ↔
    Along step ok s es ∧ Along step ok (es.foldl step s) fs
  | [], _, _ => by simp [Along]
  | e :: es, fs, s => by
    rw [List.cons_append, Along, Along, Along.append es fs (step s e), and_assoc]
    rfl

theorem Along.keep {I : σ → Prop} (h : ∀ s e, ok s e → I s → I (step s e) ∧ ok' s e) :
    ∀ (es : List ε) (s : σ), I s → Along step ok s es → Along step ok' s es
  | [], _, _, _ => trivial
  | e :: es, s, hs, ha =>
    have hstep := h s e ha.1 hs
    ⟨hstep.2, Along.keep h es (step s e) hstep.1 ha.2⟩

theorem along_of_inv {I : σ → Prop} (h : ∀ s e, I s → I (step s e) ∧ ok s e) : ∀ (es : List ε) (s : σ), I s →
    Along step ok s es
  | [], _, _ => trivial
  | e :: es, s, hs => ⟨(h s e hs).2, along_of_inv h es (step s e) (h s e hs).1⟩

/-- Two conditions that are the same as long as the invariant holds, which a step that meets them keeps. -/
theorem along_iff {I : σ → Prop} (h : ∀ s e, I s → (ok s e ↔ ok' s e) ∧ (ok' s e → I (step s e))) :
    ∀ (es : List ε) (s : σ), I s → (Along step ok s es ↔ Along step ok' s es)
  | [], _, _ => Iff.rfl
  | e :: es, s, hs =>
    (and_congr_left' (h s e hs).1).trans (and_congr_right fun he => along_iff h es (step s e) ((h s e hs).2 he))

theorem inv_of_run {I : σ → Prop} (h : ∀ s e, I s → I (step s e)) : ∀ (es : List ε) (s : σ), I s → I (es.foldl step s)
  | [], _, hs => hs
  | e :: es, s, hs => inv_of_run h es (step s e) (h s e hs)

/-- A loop whose steps keep `I` and only go along `R`: so does the whole loop, and every step leads to its end. -/
theorem foldl_spec (step : σ → ε → σ) {I : σ → Prop} {R : σ → σ → Prop} (hrefl : ∀ s, R s s)
    (htrans : ∀ {s t u}, R s t → R t u → R s u) :
    ∀ (es : List ε) (s : σ), (∀ t, ∀ e ∈ es, I t → I (step t e) ∧ R t (step t e)) → I s →
      I (es.foldl step s) ∧ R s (es.foldl step s) ∧ ∀ e ∈ es, ∃ t, I t ∧ R (step t e) (es.foldl step s)
  | [], s, _, hs => ⟨hs, hrefl s, fun e he => by cases he⟩
  | e :: es, s, h, hs => by
    obtain ⟨hI, hR⟩ := h s e List.mem_cons_self hs
    obtain ⟨hI', hR', hall⟩ := foldl_spec step hrefl htrans es (step s e) (fun t e' he' =>
      h t e' (List.mem_cons_of_mem e he')) hI
    refine ⟨hI', htrans hR hR', fun e' he' => ?_⟩
    rcases List.mem_cons.1 he' with rfl | he'
    · exact ⟨s, hs, hR'⟩
    · exact hall e' he'

theorem foldl_update {κ β : Type} [DecidableEq κ] (g : β → β) (k : κ) : ∀ (ks : List κ) (f : κ → β), ks.Nodup →
    ks.foldl (fun f k => Function.update f k (g (f k))) f k = if k ∈ ks then g (f k) else f k
  | [], _, _ => rfl
  | k' :: ks, f, h => by
    obtain ⟨hnot, hnodup⟩ := List.nodup_cons.1 h
    rw [List.foldl_cons, foldl_update g k ks _ hnodup]
    by_cases hk : k = k'
    · subst hk
      simp [hnot]
    · simp [hk]

/-- **Each event of a history fits what came before it.** -/
def Each (P : List ε → ε → Prop) (log : List ε) : Prop := ∀ pre e post, log = pre ++ e :: post → P pre e

theorem Each.nil (P : List ε → ε → Prop) : Each P [] := by
  intro pre e post h
  cases pre <;> cases h

theorem Each.snoc {P : List ε → ε → Prop} {log : List ε} {e : ε} (h : Each P log) (he : P log e) : Each P (log ++ [e]) := by
  intro pre e' post heq
  rcases List.eq_nil_or_concat post with rfl | ⟨post, x, rfl⟩
  · obtain ⟨rfl, hlast⟩ := List.append_inj' heq rfl
    rwa [← (List.cons.inj hlast).1]
  · rw [List.concat_eq_append, ← List.cons_append, ← List.append_assoc] at heq
    exact h pre e' post (List.append_inj' heq rfl).1

theorem Each.append {P : List ε → ε → Prop} {log : List ε} : ∀ {es : List ε}, Each P log → (∀ e ∈ es, ∀ pre, P pre e) →
    Each P (log ++ es)
  | [], h, _ => by rwa [List.append_nil]
  | e :: es, h, hes => by
    rw [List.append_cons]
    exact Each.append (h.snoc (hes e List.mem_cons_self log)) (fun x hx => hes x (List.mem_cons_of_mem _ hx))

end Steps
end Sncpp
