import Sncpp.CoDesk
/-!
# CoSolo — a program that runs alone

What a program does when nothing else moves is a function of the state (`Prog.solo`).  The rules below compute it along
the program's text.
-/
namespace Sncpp
namespace Co

open Prog

variable {σ κ χ ρ ο ε α β : Type} {ans : χ → ρ}

/-- What a program does with the outcome of another. -/
def next (ans : χ → ρ) (g : α → Prog σ κ χ ρ β) : Except String α × σ → Except String β × σ
  | (.ok a, s) => (g a).solo ans s
  | (.error m, s) => (.error m, s)

theorem solo_bind (g : α → Prog σ κ χ ρ β) : ∀ (p : Prog σ κ χ ρ α) (s : σ),
    (p >>= g).solo ans s = next ans g (p.solo ans s)
  | .ret _, _ => rfl
  | .err _, _ => rfl
  | .act f k, s => solo_bind g (k s) (f s)
  | .mark _ k, s => solo_bind g k s
  | .call q k, s => solo_bind g (k (ans q)) s
  | .enter _ k, s => solo_bind g k s
  | .take _ f k, s => solo_bind g k (f s)
  | .poke _ f k, s => solo_bind g k (f s)
  | .leave _ k, s => solo_bind g k s

theorem solo_bind_ok {g : α → Prog σ κ χ ρ β} {p : Prog σ κ χ ρ α} {s s' : σ} {a : α} (h : p.solo ans s = (.ok a, s')) :
    (p >>= g).solo ans s = (g a).solo ans s' := by
  rw [solo_bind, h]
  rfl

theorem ok_of_solo_bind {g : α → Prog σ κ χ ρ β} {p : Prog σ κ χ ρ α} {s : σ} {b : β}
    (h : ((p >>= g).solo ans s).1 = .ok b) : ∃ a s', p.solo ans s = (.ok a, s') ∧ ((g a).solo ans s').1 = .ok b := by
  rw [solo_bind] at h
  cases hr : p.solo ans s with
  | mk r s' =>
    rw [hr] at h
    cases r with
    | error m => cases h
    | ok a => exact ⟨a, s', rfl, h⟩

theorem solo_xpcall : ∀ (p : Prog σ κ χ ρ α) (s : σ), p.xpcall.solo ans s = (.ok (p.solo ans s).1, (p.solo ans s).2)
  | .ret _, _ => rfl
  | .err _, _ => rfl
  | .act f k, s => solo_xpcall (k s) (f s)
  | .mark _ k, s => solo_xpcall k s
  | .call q k, s => solo_xpcall (k (ans q)) s
  | .enter _ k, s => solo_xpcall k s
  | .take _ f k, s => solo_xpcall k (f s)
  | .poke _ f k, s => solo_xpcall k (f s)
  | .leave _ k, s => solo_xpcall k s

theorem solo_serial (q : κ) (body : Prog σ κ χ ρ α) (s : σ) : (serial q body).solo ans s = body.solo ans s := by
  have h : (serial q body).solo ans s = (body.xpcall >>= fun r => leave q (raise r)).solo ans s := rfl
  rw [h, solo_bind, solo_xpcall]
  cases hr : body.solo ans s with
  | mk r s' => cases r <;> rfl

/-- The requests that a program makes when it runs alone, in their order. -/
def asks (ans : χ → ρ) : Prog σ κ χ ρ α → σ → List χ
  | .ret _, _ => []
  | .err _, _ => []
  | .act f k, s => asks ans (k s) (f s)
  | .mark _ k, s => asks ans k s
  | .call q k, s => q :: asks ans (k (ans q)) s
  | .enter _ k, s => asks ans k s
  | .take _ f k, s => asks ans k (f s)
  | .poke _ f k, s => asks ans k (f s)
  | .leave _ k, s => asks ans k s

/-- What a program asks after another. -/
def nextAsks (ans : χ → ρ) (g : α → Prog σ κ χ ρ β) : Except String α × σ → List χ
  | (.ok a, s) => asks ans (g a) s
  | (.error _, _) => []

theorem asks_bind (g : α → Prog σ κ χ ρ β) : ∀ (p : Prog σ κ χ ρ α) (s : σ),
    asks ans (p >>= g) s = asks ans p s ++ nextAsks ans g (p.solo ans s)
  | .ret _, _ => rfl
  | .err _, _ => rfl
  | .act f k, s => asks_bind g (k s) (f s)
  | .mark _ k, s => asks_bind g k s
  | .call q k, s => congrArg (List.cons q) (asks_bind g (k (ans q)) s)
  | .enter _ k, s => asks_bind g k s
  | .take _ f k, s => asks_bind g k (f s)
  | .poke _ f k, s => asks_bind g k (f s)
  | .leave _ k, s => asks_bind g k s

@[simp] theorem solo_pure (a : α) (s : σ) : (pure a : Prog σ κ χ ρ α).solo ans s = (.ok a, s) := rfl

@[simp] theorem solo_get_bind (g : σ → Prog σ κ χ ρ α) (s : σ) : (get >>= g).solo ans s = (g s).solo ans s := rfl

@[simp] theorem solo_modify (f : σ → σ) (s : σ) : (modify f : Prog σ κ χ ρ Unit).solo ans s = (.ok (), f s) := rfl

@[simp] theorem solo_modify_bind (f : σ → σ) (g : Unit → Prog σ κ χ ρ α) (s : σ) :
    (modify f >>= g).solo ans s = (g ()).solo ans (f s) := rfl

@[simp] theorem solo_ask_bind (q : χ) (g : ρ → Prog σ κ χ ρ α) (s : σ) :
    (ask q >>= g).solo ans s = (g (ans q)).solo ans s := rfl

@[simp] theorem solo_check_bind (p : σ → (κ → Queue) → Bool) (g : Unit → Prog σ κ χ ρ α) (s : σ) :
    (check p >>= g).solo ans s = (g ()).solo ans s := rfl

end Co
end Sncpp
