import Sncpp.CoRely
/-!
# CoWatch — programs under an observer

An observer keeps notes of its own beside the state.  `watched` is a program that leaves these notes alone; each time it
goes on after a wait, a condition on the notes is recorded.  The conditions the program itself records are left out, so the
pacts of the watched program are about other conditions than those of the program.
-/
namespace Sncpp
namespace Co

variable {σ τ κ χ ρ α β : Type}

/-- What an observer asks of a program that goes on: after an answer, and when its turn has come. -/
structure Watch (χ ρ τ : Type) where
  answered : χ → ρ → τ → Bool
  turn : τ → Bool

namespace Prog

def watched (c : Watch χ ρ τ) : Prog σ κ χ ρ α → Prog (σ × τ) κ χ ρ α
  | .ret a => .ret a
  | .err m => .err m
  | .act f k => .act (Prod.map f id) (fun x => (k x.1).watched c)
  | .mark _ k => k.watched c
  | .call q k => .call q (fun r => .mark (fun x _ => c.answered q r x.2) ((k r).watched c))
  | .enter q k => .enter q (.mark (fun x _ => c.turn x.2) (k.watched c))
  | .take q f k => .act (Prod.map f id) (fun _ => .enter q (.mark (fun x _ => c.turn x.2) (k.watched c)))
  | .poke _ f k => .act (Prod.map f id) (fun _ => k.watched c)
  | .leave q k => .leave q (k.watched c)

variable (c : Watch χ ρ τ)

theorem bind_assoc {γ : Type} (g : α → Prog σ κ χ ρ β) (h : β → Prog σ κ χ ρ γ) : ∀ p : Prog σ κ χ ρ α,
    (p.bind g).bind h = p.bind (fun a => (g a).bind h)
  | .ret _ => rfl
  | .err _ => rfl
  | .act f k => congrArg (act f) (funext (fun s => bind_assoc g h (k s)))
  | .mark p k => congrArg (mark p) (bind_assoc g h k)
  | .call q k => congrArg (call q) (funext (fun r => bind_assoc g h (k r)))
  | .enter q k => congrArg (enter q) (bind_assoc g h k)
  | .take q f k => congrArg (take q f) (bind_assoc g h k)
  | .poke q f k => congrArg (poke q f) (bind_assoc g h k)
  | .leave q k => congrArg (leave q) (bind_assoc g h k)

theorem watched_bind (g : α → Prog σ κ χ ρ β) : ∀ p : Prog σ κ χ ρ α,
    (p.bind g).watched c = (p.watched c).bind (fun a => (g a).watched c)
  | .ret _ => rfl
  | .err _ => rfl
  | .act _ k => congrArg (act _) (funext (fun x => watched_bind g (k x.1)))
  | .mark _ k => watched_bind g k
  | .call q k => congrArg (call q) (funext (fun r => congrArg (mark _) (watched_bind g (k r))))
  | .enter q k => congrArg (enter q) (congrArg (mark _) (watched_bind g k))
  | .take q _ k => congrArg (act _) (funext (fun _ => congrArg (enter q) (congrArg (mark _) (watched_bind g k))))
  | .poke _ _ k => congrArg (act _) (funext (fun _ => watched_bind g k))
  | .leave q k => congrArg (leave q) (watched_bind g k)

theorem watched_xpcall : ∀ p : Prog σ κ χ ρ α, p.xpcall.watched c = (p.watched c).xpcall
  | .ret _ => rfl
  | .err _ => rfl
  | .act _ k => congrArg (act _) (funext (fun x => watched_xpcall (k x.1)))
  | .mark _ k => watched_xpcall k
  | .call q k => congrArg (call q) (funext (fun r => congrArg (mark _) (watched_xpcall (k r))))
  | .enter q k => congrArg (enter q) (congrArg (mark _) (watched_xpcall k))
  | .take q _ k => congrArg (act _) (funext (fun _ => congrArg (enter q) (congrArg (mark _) (watched_xpcall k))))
  | .poke _ _ k => congrArg (act _) (funext (fun _ => watched_xpcall k))
  | .leave q k => congrArg (leave q) (watched_xpcall k)

theorem watched_inside (q : κ) (body : Prog σ κ χ ρ α) : (inside q body).watched c = inside q (body.watched c) := by
  unfold inside
  rw [watched_bind, watched_xpcall]
  congr 1
  funext r
  cases r <;> rfl

end Prog

/-- A watched program, from `pre`, ends in `ok` or raises in `bad`. -/
def Seen (P : Pact (σ × τ)) (may : χ → ρ → Bool) (c : Watch χ ρ τ) (pre : σ × τ → Prop) (p : Prog σ κ χ ρ α)
    (ok : α → σ × τ → Prop) (bad : σ × τ → Prop) : Prop :=
  Vow P may pre (p.watched c) ok bad

section Seen

variable {P : Pact (σ × τ)} {may : χ → ρ → Bool} {c : Watch χ ρ τ} {pre : σ × τ → Prop} {ok : α → σ × τ → Prop}
  {bad : σ × τ → Prop}

theorem Seen.conseq {pre' : σ × τ → Prop} {ok' : α → σ × τ → Prop} {bad' : σ × τ → Prop} {p : Prog σ κ χ ρ α}
    (h : Seen P may c pre' p ok' bad') (hpre : ∀ x, pre x → pre' x) (hok : ∀ a x, ok' a x → ok a x)
    (hbad : ∀ x, bad' x → bad x) : Seen P may c pre p ok bad :=
  Vow.conseq h hpre hok hbad

theorem Seen.pure {a : α} (h : ∀ x, pre x → ok a x) : Seen P may c pre (Pure.pure a : Prog σ κ χ ρ α) ok bad := Vow.pure h

theorem Seen.err {m : String} (h : ∀ x, pre x → bad x) : Seen P may c pre (.err m : Prog σ κ χ ρ α) ok bad := Vow.err h

theorem Seen.bind {p : Prog σ κ χ ρ β} {g : β → Prog σ κ χ ρ α} {M : β → σ × τ → Prop} (hp : Seen P may c pre p M bad)
    (hg : ∀ b, Seen P may c (M b) (g b) ok bad) : Seen P may c pre (p >>= g) ok bad := by
  show Vow P may pre ((p.bind g).watched c) ok bad
  rw [Prog.watched_bind]
  exact Vow.bind hp hg

theorem Seen.xpcall {p : Prog σ κ χ ρ β} {M : β → σ × τ → Prop} {E : σ × τ → Prop}
    {post : Except String β → σ × τ → Prop} (hp : Seen P may c pre p M E) (hok : ∀ a x, M a x → post (.ok a) x)
    (herr : ∀ m x, E x → post (.error m) x) : Seen P may c pre p.xpcall post bad := by
  show Vow P may pre (p.xpcall.watched c) post bad
  rw [Prog.watched_xpcall]
  exact Vow.xpcall hp hok herr

theorem Seen.get {g : σ → Prog σ κ χ ρ α} (hg : ∀ x, pre x → Seen P may c (fun x' => x' = x) (g x.1) ok bad) :
    Seen P may c pre (Prog.get >>= g) ok bad :=
  fun b x hv hx => hg x hx b x hv rfl

theorem Seen.peek {g : σ → Prog σ κ χ ρ α} (hg : ∀ s, Seen P may c pre (g s) ok bad) :
    Seen P may c pre (Prog.get >>= g) ok bad :=
  fun b x hv hx => hg x.1 b x hv hx

theorem Seen.modify {f : σ → σ} {post : Unit → σ × τ → Prop}
    (hf : ∀ x, pre x → P.rely x (f x.1, x.2) ∧ post () (f x.1, x.2)) :
    Seen P may c pre (Prog.modify f : Prog σ κ χ ρ Unit) post bad :=
  Vow.modify hf

theorem Seen.check {p : σ → (κ → Queue) → Bool} {post : Unit → σ × τ → Prop} (h : ∀ x, pre x → post () x) :
    Seen P may c pre (Prog.check p : Prog σ κ χ ρ Unit) post bad :=
  fun _ x hv hx => ⟨hv, h x hx⟩

theorem Seen.ite {b : Prop} [Decidable b] {p p' : Prog σ κ χ ρ α} (ht : b → Seen P may c pre p ok bad)
    (he : ¬b → Seen P may c pre p' ok bad) : Seen P may c pre (if b then p else p') ok bad := by
  by_cases h : b
  · rw [if_pos h]
    exact ht h
  · rw [if_neg h]
    exact he h

theorem Seen.ask (hhon : ¬P.honest) {q : χ} {post : ρ → σ × τ → Prop} (hinv : ∀ x, pre x → P.inv x)
    (hr : ∀ x x' r, pre x → may q r = true → P.inv x' → P.rely x x' → c.answered q r x'.2 = true → post r x') :
    Seen P may c pre (Prog.ask q : Prog σ κ χ ρ ρ) post bad := by
  intro b x hv hx
  refine ⟨hinv x hx, hv, fun r hmay x' hi hv' => ⟨fun hh => absurd hh hhon, fun hc => ⟨P.refl _, ?_⟩⟩⟩
  obtain ⟨sq, hc⟩ := hc
  exact hr x x' r hx hmay hi hv' hc

theorem Seen.serial (hhon : ¬P.honest) {q : κ} {body : Prog σ κ χ ρ α} {mid : σ × τ → Prop}
    (h : Seen P may c mid body ok bad) (hinv : ∀ x, pre x → P.inv x)
    (hmid : ∀ x x', pre x → P.inv x' → P.rely x x' → c.turn x'.2 = true → mid x') :
    Seen P may c pre (Prog.serial q body) ok bad := by
  intro b x hv hx
  refine ⟨hinv x hx, hv, fun x' hi hv' => ⟨fun hh => absurd hh hhon, fun hc => ?_⟩⟩
  obtain ⟨sq, hc⟩ := hc
  rw [Prog.watched_inside]
  exact Vow.inside h x' x' (P.refl _) (hmid x x' hx hi hv' hc)

theorem Seen.serialTake (hhon : ¬P.honest) {q : κ} {f : σ → σ} {body : Prog σ κ χ ρ α} {mid : σ × τ → Prop}
    (h : Seen P may c mid body ok bad) (hinv : ∀ x, pre x → P.inv (f x.1, x.2) ∧ P.rely x (f x.1, x.2))
    (hmid : ∀ x x', pre x → P.inv x' → P.rely (f x.1, x.2) x' → c.turn x'.2 = true → mid x') :
    Seen P may c pre (Prog.serialTake q f body) ok bad := by
  intro b x hv hx
  obtain ⟨hi, hv'⟩ := hinv x hx
  refine ⟨hi, P.trans hv hv', fun x' hi' hv'' => ⟨fun hh => absurd hh hhon, fun hc => ?_⟩⟩
  obtain ⟨sq, hc⟩ := hc
  rw [Prog.watched_inside]
  exact Vow.inside h x' x' (P.refl _) (hmid x x' hx hi' hv'' hc)

end Seen

end Co
end Sncpp
