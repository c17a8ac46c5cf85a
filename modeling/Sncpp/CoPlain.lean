import Sncpp.CoTriple
/-!
# CoPlain — programs that leave the protected parts alone

Much of what a coroutine does concerns no queue: it reads, changes fields that no queue protects, and waits for answers.
Such a program is `Plain`; it may stand inside a queue (`Plain.triple`) or outside (`Plain.keeps`), and whatever the part
satisfied it still satisfies.  `Keeps` is for programs outside every queue, which may go through one.
-/
namespace Sncpp
namespace Co

variable {σ κ χ ρ ζ α β : Type}

/-- **A program that keeps the invariant and changes no protected part**, inside a queue or outside. -/
def Plain (P : Spec σ κ ζ) (may : χ → ρ → Bool) (p : Prog σ κ χ ρ α) : Prop :=
  ∀ (o : Option κ) (Q : Post σ κ α) (s : σ), P.inv s → (∀ x z, P.held x z) →
    (∀ r s', P.inv s' → (∀ x, o = some x → P.view s' x = P.view s x) → Q r o s') → wp P may p o Q s

/-- **A program outside every queue that keeps the invariant.** -/
def Keeps (P : Spec σ κ ζ) (may : χ → ρ → Bool) (p : Prog σ κ χ ρ α) : Prop :=
  ∀ (Q : Post σ κ α) (s : σ), P.inv s → (∀ r s', P.inv s' → Q r none s') → wp P may p none Q s

variable {P : Spec σ κ ζ} {may : χ → ρ → Bool}

theorem Plain.ret (a : α) : Plain P may (.ret a) := fun _ _ _ hi _ hQ => hQ _ _ hi (fun _ _ => rfl)

theorem Plain.pure (a : α) : Plain P may (Pure.pure a : Prog σ κ χ ρ α) := Plain.ret a

theorem Plain.err (m : String) : Plain P may (.err m : Prog σ κ χ ρ α) := fun _ _ _ hi _ hQ => hQ _ _ hi (fun _ _ => rfl)

theorem Plain.bind {p : Prog σ κ χ ρ β} {g : β → Prog σ κ χ ρ α} (hp : Plain P may p) (hg : ∀ b, Plain P may (g b)) :
    Plain P may (p >>= g) := by
  intro o Q s hi hheld hQ
  refine wp_bind g Q p o s (hp o _ s hi hheld (fun r s' hi' hv => ?_))
  cases r with
  | error m => exact hQ _ _ hi' hv
  | ok b => exact hg b o Q s' hi' hheld (fun r' s'' hi'' hv' => hQ _ _ hi'' (fun x hx => (hv' x hx).trans (hv x hx)))

theorem Plain.xpcall {p : Prog σ κ χ ρ α} (hp : Plain P may p) : Plain P may p.xpcall :=
  fun o Q s hi hheld hQ => wp_xpcall Q p o s (hp o _ s hi hheld (fun _ _ hi' hv => hQ _ _ hi' hv))

theorem Plain.get {g : σ → Prog σ κ χ ρ α} (hg : ∀ s, Plain P may (g s)) : Plain P may (Prog.get >>= g) :=
  fun o Q s hi hheld hQ => wp_get (hg s o Q s hi hheld hQ)

theorem Plain.modify {f : σ → σ} (hf : ∀ s, P.inv s → P.inv (f s) ∧ ∀ x, P.view (f s) x = P.view s x) :
    Plain P may (Prog.modify f) :=
  fun _ _ s hi _ hQ => ⟨fun x _ => (hf s hi).2 x, hQ _ _ (hf s hi).1 (fun x _ => (hf s hi).2 x)⟩

theorem Plain.checkModify {c : σ → (κ → Queue) → Bool} {f : σ → σ}
    (hf : ∀ s sq, P.inv s → c s sq = true → P.inv (f s) ∧ ∀ x, P.view (f s) x = P.view s x) :
    Plain P may (Prog.check c >>= fun _ => Prog.modify f) := by
  intro o Q s hi _ hQ hc
  obtain ⟨sq, hsq⟩ := hc
  obtain ⟨hi', hv⟩ := hf s sq hi hsq
  exact ⟨fun x _ => hv x, hQ _ _ hi' (fun x _ => hv x)⟩

theorem Plain.ask (c : χ) : Plain P may (Prog.ask c : Prog σ κ χ ρ ρ) :=
  fun _ _ _ hi hheld hQ => ⟨hi, fun x _ => hheld x _, fun _ _ _ hi' hv => hQ _ _ hi' hv⟩

theorem Plain.ite {c : Prop} [Decidable c] {p p' : Prog σ κ χ ρ α} (ht : c → Plain P may p) (he : ¬c → Plain P may p') :
    Plain P may (if c then p else p') := by
  by_cases h : c
  · rw [if_pos h]
    exact ht h
  · rw [if_neg h]
    exact he h

theorem Plain.triple {p : Prog σ κ χ ρ α} (hp : Plain P may p) (hheld : ∀ x z, P.held x z) (q : κ) {pre : ζ → Prop}
    {ok : α → ζ → Prop} {bad : ζ → Prop} (hok : ∀ a z, pre z → ok a z) (hbad : ∀ z, pre z → bad z) :
    Triple P may q pre p ok bad := by
  intro s hi hs
  refine hp (some q) _ s hi hheld (fun r s' hi' hv => ?_)
  have hq := hv q rfl
  cases r with
  | ok a =>
    refine ⟨rfl, hi', ?_⟩
    show ok a (P.view s' q)
    rw [hq]
    exact hok a _ hs
  | error m =>
    refine ⟨rfl, hi', ?_⟩
    show bad (P.view s' q)
    rw [hq]
    exact hbad _ hs

theorem Plain.keeps {p : Prog σ κ χ ρ α} (hp : Plain P may p) (hheld : ∀ x z, P.held x z) : Keeps P may p :=
  fun Q s hi hQ => hp none Q s hi hheld (fun r s' hi' _ => hQ r s' hi')

theorem Keeps.ret (a : α) : Keeps P may (.ret a) := fun _ _ hi hQ => hQ _ _ hi

theorem Keeps.pure (a : α) : Keeps P may (Pure.pure a : Prog σ κ χ ρ α) := Keeps.ret a

theorem Keeps.bind {p : Prog σ κ χ ρ β} {g : β → Prog σ κ χ ρ α} (hp : Keeps P may p) (hg : ∀ b, Keeps P may (g b)) :
    Keeps P may (p >>= g) := by
  intro Q s hi hQ
  refine wp_bind g Q p none s (hp _ s hi (fun r s' hi' => ?_))
  cases r with
  | error m => exact hQ _ _ hi'
  | ok b => exact hg b Q s' hi' hQ

theorem Keeps.xpcall {p : Prog σ κ χ ρ α} (hp : Keeps P may p) : Keeps P may p.xpcall :=
  fun Q s hi hQ => wp_xpcall Q p none s (hp _ s hi (fun _ s' hi' => hQ _ s' hi'))

theorem Keeps.get {g : σ → Prog σ κ χ ρ α} (hg : ∀ s, Keeps P may (g s)) : Keeps P may (Prog.get >>= g) :=
  fun Q s hi hQ => wp_get (hg s Q s hi hQ)

theorem Keeps.ite {c : Prop} [Decidable c] {p p' : Prog σ κ χ ρ α} (ht : c → Keeps P may p) (he : ¬c → Keeps P may p') :
    Keeps P may (if c then p else p') := by
  by_cases h : c
  · rw [if_pos h]
    exact ht h
  · rw [if_neg h]
    exact he h

theorem Keeps.checkModify {c : σ → (κ → Queue) → Bool} {f : σ → σ} {g : Unit → Prog σ κ χ ρ α}
    (hf : ∀ s sq, P.inv s → c s sq = true → P.inv (f s) ∧ ∀ x, P.view (f s) x = P.view s x) (hg : Keeps P may (g ())) :
    Keeps P may (Prog.check c >>= fun _ => Prog.modify f >>= g) := by
  intro Q s hi hQ hc
  obtain ⟨sq, hsq⟩ := hc
  obtain ⟨hi', hv⟩ := hf s sq hi hsq
  exact ⟨fun x _ => hv x, hg Q (f s) hi' hQ⟩

theorem Keeps.serial {q : κ} {body : Prog σ κ χ ρ α}
    (h : Triple P may q (fun z => P.idle q z ∨ P.handed q z) body (fun _ z => P.idle q z ∧ P.handed q z)
      (fun z => P.idle q z ∧ P.handed q z)) : Keeps P may (Prog.serial q body) :=
  fun _ _ hi hQ => h.wp_serial hi hQ

theorem Keeps.final {p : Prog σ κ χ ρ α} (hp : Keeps P may p) {s : σ} (hi : P.inv s) : wp P may p none P.final s :=
  hp _ s hi (fun _ _ hi' => ⟨rfl, hi'⟩)

end Co
end Sncpp
