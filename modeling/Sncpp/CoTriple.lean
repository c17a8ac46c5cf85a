import Sncpp.CoLock
/-!
# CoTriple — pre- and postconditions for what a held queue runs

A coroutine inside the queue `q` sees the part `q` protects and nothing else for certain.  `Triple` states what its
program does to that part: from `pre` it ends in `ok`, or raises an error in `bad`.  One rule a constructor, one for
each way of putting programs together; a program is proved by following its text.
-/
namespace Sncpp
namespace Co

variable {σ κ χ ρ ζ α β : Type}

/-- Ending inside `q`, in `ok` or with an error in `bad`. -/
def Ends (P : Spec σ κ ζ) (q : κ) (ok : α → ζ → Prop) (bad : ζ → Prop) : Post σ κ α := fun r o s =>
  o = some q ∧ P.inv s ∧ match r with
    | .ok a => ok a (P.view s q)
    | .error _ => bad (P.view s q)

/-- **A program inside `q`, from `pre`, ends in `ok` or raises in `bad`**, still inside `q`. -/
def Triple (P : Spec σ κ ζ) (may : χ → ρ → Bool) (q : κ) (pre : ζ → Prop) (p : Prog σ κ χ ρ α) (ok : α → ζ → Prop)
    (bad : ζ → Prop) : Prop :=
  ∀ s, P.inv s → pre (P.view s q) → wp P may p (some q) (Ends P q ok bad) s

variable {P : Spec σ κ ζ} {may : χ → ρ → Bool} {q : κ} {pre : ζ → Prop} {ok : α → ζ → Prop} {bad : ζ → Prop}

theorem Triple.conseq {pre' : ζ → Prop} {ok' : α → ζ → Prop} {bad' : ζ → Prop} {p : Prog σ κ χ ρ α}
    (h : Triple P may q pre' p ok' bad') (hpre : ∀ z, pre z → pre' z) (hok : ∀ a z, ok' a z → ok a z)
    (hbad : ∀ z, bad' z → bad z) : Triple P may q pre p ok bad := by
  intro s hi hs
  refine wp_mono ?_ p _ s (h s hi (hpre _ hs))
  rintro (m | a) o s' ⟨ho, hi', hp⟩
  · exact ⟨ho, hi', hbad _ hp⟩
  · exact ⟨ho, hi', hok a _ hp⟩

theorem Triple.weaken {pre' : ζ → Prop} {p : Prog σ κ χ ρ α} (h : Triple P may q pre' p ok bad)
    (hpre : ∀ z, pre z → pre' z) : Triple P may q pre p ok bad :=
  fun s hi hs => h s hi (hpre _ hs)

theorem Triple.of_eq {p : Prog σ κ χ ρ α} (h : ∀ z, pre z → Triple P may q (fun y => y = z) p ok bad) :
    Triple P may q pre p ok bad :=
  fun s hi hs => h _ hs s hi rfl

theorem Triple.ret {a : α} (h : ∀ z, pre z → ok a z) : Triple P may q pre (.ret a) ok bad :=
  fun _ hi hs => ⟨rfl, hi, h _ hs⟩

theorem Triple.pure {a : α} (h : ∀ z, pre z → ok a z) : Triple P may q pre (Pure.pure a : Prog σ κ χ ρ α) ok bad :=
  Triple.ret h

theorem Triple.err {m : String} (h : ∀ z, pre z → bad z) : Triple P may q pre (.err m) ok bad :=
  fun _ hi hs => ⟨rfl, hi, h _ hs⟩

theorem Triple.bind {p : Prog σ κ χ ρ β} {g : β → Prog σ κ χ ρ α} {M : β → ζ → Prop}
    (hp : Triple P may q pre p M bad) (hg : ∀ b, Triple P may q (M b) (g b) ok bad) :
    Triple P may q pre (p >>= g) ok bad := by
  intro s hi hs
  refine wp_bind g _ p _ s (wp_mono ?_ p _ s (hp s hi hs))
  rintro (m | b) o s' ⟨rfl, hi', hp'⟩
  · exact ⟨rfl, hi', hp'⟩
  · exact hg b s' hi' hp'

theorem Triple.xpcall {p : Prog σ κ χ ρ β} {M : ζ → Prop} (hp : Triple P may q pre p (fun _ => M) M) :
    Triple P may q pre p.xpcall (fun _ => M) bad := by
  intro s hi hs
  refine wp_xpcall _ p _ s (wp_mono ?_ p _ s (hp s hi hs))
  rintro (m | b) o s' ⟨rfl, hi', hp'⟩
  · exact ⟨rfl, hi', hp'⟩
  · exact ⟨rfl, hi', hp'⟩

theorem Triple.get {g : σ → Prog σ κ χ ρ α}
    (hg : ∀ s, P.inv s → pre (P.view s q) → Triple P may q (fun z => z = P.view s q) (g s) ok bad) :
    Triple P may q pre (Prog.get >>= g) ok bad :=
  fun s hi hs => wp_get (hg s hi hs s hi rfl)

theorem Triple.peek {g : σ → Prog σ κ χ ρ α} (hg : ∀ s, Triple P may q pre (g s) ok bad) :
    Triple P may q pre (Prog.get >>= g) ok bad :=
  fun s hi hs => wp_get (hg s s hi hs)

theorem Triple.modify {f : σ → σ} {post : Unit → ζ → Prop} (hv : ∀ s x, x ≠ q → P.view (f s) x = P.view s x)
    (hf : ∀ s, P.inv s → pre (P.view s q) → P.inv (f s) ∧ post () (P.view (f s) q)) :
    Triple P may q pre (Prog.modify f) post bad :=
  fun s hi hs => ⟨fun x hx => hv s x (fun e => hx (by rw [e])), rfl, (hf s hi hs).1, (hf s hi hs).2⟩

theorem Triple.check {p : σ → (κ → Queue) → Bool} {post : Unit → ζ → Prop}
    (hp : ∀ s sq, p s sq = true → pre (P.view s q) → post () (P.view s q)) :
    Triple P may q pre (Prog.check p) post bad := by
  intro s hi hs h
  obtain ⟨sq, hsq⟩ := h
  exact ⟨rfl, hi, hp s sq hsq hs⟩

theorem Triple.checkModify {c : σ → (κ → Queue) → Bool} {f : σ → σ} {g : Unit → Prog σ κ χ ρ α} {M : ζ → Prop}
    (hv : ∀ s x, x ≠ q → P.view (f s) x = P.view s x)
    (hf : ∀ s sq, P.inv s → pre (P.view s q) → c s sq = true → P.inv (f s) ∧ M (P.view (f s) q))
    (hg : Triple P may q M (g ()) ok bad) : Triple P may q pre (Prog.check c >>= fun _ => Prog.modify f >>= g) ok bad := by
  intro s hi hs hc
  obtain ⟨sq, hsq⟩ := hc
  obtain ⟨hi', hm⟩ := hf s sq hi hs hsq
  exact ⟨fun x hx => hv s x (fun e => hx (by rw [e])), hg (f s) hi' hm⟩

theorem Triple.ask {c : χ} {post : ρ → ζ → Prop} (hheld : ∀ z, pre z → P.held q z)
    (hr : ∀ r z, may c r = true → pre z → post r z) : Triple P may q pre (Prog.ask c) post bad := by
  intro s hi hs
  refine ⟨hi, ?_, ?_⟩
  · rintro x ⟨⟩
    exact hheld _ hs
  · intro r hmay s' hi' hv
    refine ⟨rfl, hi', ?_⟩
    show post r (P.view s' q)
    rw [hv q rfl]
    exact hr r _ hmay hs

theorem Triple.ite {c : Prop} [Decidable c] {p p' : Prog σ κ χ ρ α} (ht : c → Triple P may q pre p ok bad)
    (he : ¬c → Triple P may q pre p' ok bad) : Triple P may q pre (if c then p else p') ok bad := by
  by_cases h : c
  · rw [if_pos h]; exact ht h
  · rw [if_neg h]; exact he h

theorem Triple.when {b : Bool} {p : Prog σ κ χ ρ Unit} {post : Unit → ζ → Prop}
    (ht : b = true → Triple P may q pre p post bad) (he : b = false → ∀ z, pre z → post () z) :
    Triple P may q pre (Prog.when b p) post bad := by
  cases b with
  | true => exact ht rfl
  | false => exact Triple.ret (he rfl)

theorem Triple.wp_inside {body : Prog σ κ χ ρ α} {Q : Post σ κ α} {s : σ}
    (h : Triple P may q pre body (fun _ z => P.idle q z ∧ P.handed q z) (fun z => P.idle q z ∧ P.handed q z))
    (hinv : P.inv s) (hpre : pre (P.view s q)) (hQ : ∀ r s', P.inv s' → Q r none s') :
    wp P may (Prog.inside q body) (some q) Q s := by
  refine Co.wp_inside q body Q _ s (wp_mono ?_ body _ s (h s hinv hpre))
  rintro (m | a) o s' ⟨ho, hi, hp⟩
  · exact ⟨ho, hp.1, hp.2, hQ _ _ hi⟩
  · exact ⟨ho, hp.1, hp.2, hQ _ _ hi⟩

/-- **A body run through its queue**: from the idle part, or the part handed over, back to both. -/
theorem Triple.wp_serial {body : Prog σ κ χ ρ α} {Q : Post σ κ α} {s : σ}
    (h : Triple P may q (fun z => P.idle q z ∨ P.handed q z) body (fun _ z => P.idle q z ∧ P.handed q z)
      (fun z => P.idle q z ∧ P.handed q z))
    (hinv : P.inv s) (hQ : ∀ r s', P.inv s' → Q r none s') : wp P may (Prog.serial q body) none Q s :=
  ⟨rfl, hinv, fun hi => h.wp_inside hinv (.inl hi) hQ, fun _ hi hh => h.wp_inside hi (.inr hh) hQ⟩

/-- **A body run through its queue, after a change of the part while the queue was idle.** -/
theorem Triple.wp_serialTake {f : σ → σ} {body : Prog σ κ χ ρ α} {Q : Post σ κ α} {s : σ}
    (hf : P.idle q (P.view s q) → P.inv (f s) ∧ (∀ x, x ≠ q → P.view (f s) x = P.view s x) ∧
      Triple P may q (fun z => z = P.view (f s) q) body (fun _ z => P.idle q z ∧ P.handed q z)
        (fun z => P.idle q z ∧ P.handed q z))
    (hQ : ∀ r s', P.inv s' → Q r none s') : wp P may (Prog.serialTake q f body) none Q s := by
  refine ⟨rfl, fun hi => ?_⟩
  obtain ⟨hinv, hv, h⟩ := hf hi
  exact ⟨hv, h.wp_inside hinv rfl hQ⟩

end Co
end Sncpp
