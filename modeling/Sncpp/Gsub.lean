import Mathlib.Data.List.Basic
/-!
# Gsub — the matches of a pattern replaced

A pattern has a class for each character that it takes, so that no match is empty.  The text is gone through once; what a
match takes is replaced, and is not looked at again.  A text that is put together of matches and of characters at which no
match begins is replaced piece by piece (`gsub_flatMap`).
-/
namespace Sncpp

/-- Classes of characters, one after another. -/
structure Pattern (α : Type) where
  first : α → Bool
  rest : List (α → Bool)

namespace Pattern

variable {α β : Type} (pat : Pattern α) (repl : List α → List α)

/-- A text begins with characters of the classes. -/
def takes : List (α → Bool) → List α → Bool
  | [], _ => true
  | _ :: _, [] => false
  | p :: ps, c :: s => p c && takes ps s

/-- The new text, and the number of the matches; `skip` characters are left of the last match. -/
def gsubFrom (skip : Nat) : List α → List α × Nat
  | [] => ([], 0)
  | c :: s =>
    match skip with
    | skip + 1 => gsubFrom skip s
    | 0 =>
      if takes (pat.first :: pat.rest) (c :: s) then
        let r := gsubFrom pat.rest.length s
        (repl (c :: s.take pat.rest.length) ++ r.1, r.2 + 1)
      else
        let r := gsubFrom 0 s
        (c :: r.1, r.2)

def gsub (s : List α) : List α × Nat := pat.gsubFrom repl 0 s

variable {pat repl}

theorem takes_append {ps : List (α → Bool)} : ∀ {m : List α}, takes ps m = true → ∀ s, takes ps (m ++ s) = true := by
  induction ps with
  | nil => exact fun _ _ => rfl
  | cons p ps ih =>
    intro m hm s
    cases m with
    | nil => cases hm
    | cons c m =>
      rw [takes, Bool.and_eq_true] at hm
      rw [List.cons_append, takes, hm.1, ih hm.2, Bool.and_self]

theorem gsubFrom_append (m s : List α) : pat.gsubFrom repl m.length (m ++ s) = pat.gsub repl s := by
  induction m with
  | nil => rfl
  | cons c m ih => exact ih

theorem gsub_match {m : List α} (hm : takes (pat.first :: pat.rest) m = true) (hlen : m.length = pat.rest.length + 1)
    (s : List α) : pat.gsub repl (m ++ s) = (repl m ++ (pat.gsub repl s).1, (pat.gsub repl s).2 + 1) := by
  cases m with
  | nil => cases hm
  | cons c m =>
    have hrest : m.length = pat.rest.length := Nat.succ.inj hlen
    have htakes := takes_append hm s
    rw [List.cons_append] at htakes ⊢
    rw [gsub, gsubFrom, if_pos htakes, ← hrest, gsubFrom_append, List.take_left]

theorem gsub_miss {c : α} (hc : pat.first c = false) (s : List α) :
    pat.gsub repl (c :: s) = (c :: (pat.gsub repl s).1, (pat.gsub repl s).2) := by
  rw [gsub, gsubFrom, takes, hc, Bool.false_and, if_neg Bool.false_ne_true]
  rfl

/-- **A text put together of matches, and of characters at which none begins.** -/
theorem gsub_flatMap {f g : β → List α} {s : List β}
    (h : ∀ b ∈ s, (takes (pat.first :: pat.rest) (f b) = true ∧ (f b).length = pat.rest.length + 1 ∧ g b = repl (f b)) ∨
      ∃ c, f b = [c] ∧ pat.first c = false ∧ g b = [c]) : (pat.gsub repl (s.flatMap f)).1 = s.flatMap g := by
  induction s with
  | nil => rfl
  | cons b s ih =>
    have hrest := ih fun b' hb' => h b' (List.mem_cons_of_mem b hb')
    rw [List.flatMap_cons, List.flatMap_cons]
    rcases h b List.mem_cons_self with ⟨htakes, hlen, hg⟩ | ⟨c, hf, hc, hg⟩
    · rw [gsub_match htakes hlen, hg, hrest]
    · rw [hf, hg, List.singleton_append, gsub_miss hc, hrest]
      rfl

theorem gsub_single (p : α → Bool) (s : List α) : ((⟨p, []⟩ : Pattern α).gsub repl s).1 =
    s.flatMap fun c => if p c then repl [c] else [c] := by
  conv_lhs => rw [← List.flatMap_singleton' s]
  refine gsub_flatMap fun c _ => ?_
  cases hc : p c with
  | true => exact Or.inl ⟨by simp [takes, hc], rfl, rfl⟩
  | false => exact Or.inr ⟨c, rfl, hc, rfl⟩

end Pattern
end Sncpp
