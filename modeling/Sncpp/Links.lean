import Mathlib.Data.List.Nodup
/-!
# Links — doubly linked lists

Cells that know the one after them and the one before them.  `Links` says that they are those of a list, from its head to
its tail; a cell that is cut out of it leaves the list of the others (`Links.unlink`), and one that is put in between stands
there (`Links.insert`), if the cells on both sides are told.
-/
namespace Sncpp

variable {ν : Type} {next pre next' pre' : ν → Option ν}

/-- Cells in a row, after one cell and before another. -/
def Seg (next pre : ν → Option ν) : Option ν → List ν → Option ν → Prop
  | _, [], _ => True
  | p, a :: l, q => pre a = p ∧ next a = l.head?.or q ∧ Seg next pre (some a) l q

namespace Seg

variable {p p' q q' : Option ν} {l xs ys : List ν} {a : ν}

theorem append : ∀ {xs : List ν} {p : Option ν},
    Seg next pre p (xs ++ ys) q ↔ Seg next pre p xs (ys.head?.or q) ∧ Seg next pre (xs.getLast?.or p) ys q
  | [], p => by simp [Seg]
  | x :: xs, p => by
    have hlast : (x :: xs).getLast?.or p = xs.getLast?.or (some x) := by
      rw [List.getLast?_cons]
      cases xs.getLast? <;> rfl
    rw [List.cons_append, Seg, Seg, append, hlast, List.head?_append, Option.or_assoc, and_assoc, and_assoc]

theorem mid (h : Seg next pre p (xs ++ a :: ys) q) : pre a = xs.getLast?.or p ∧ next a = ys.head?.or q :=
  ⟨(append.1 h).2.1, (append.1 h).2.2.1⟩

theorem congr : ∀ {l : List ν} {p : Option ν}, (∀ b ∈ l, next' b = next b ∧ pre' b = pre b) → Seg next pre p l q →
    Seg next' pre' p l q
  | [], _, _, _ => trivial
  | a :: l, _, hsame, h => by
    obtain ⟨hnext, hpre⟩ := hsame a List.mem_cons_self
    exact ⟨hpre.trans h.1, hnext.trans h.2.1, congr (fun b hb => hsame b (List.mem_cons_of_mem a hb)) h.2.2⟩

theorem first (h : Seg next pre p l q) (hnodup : l.Nodup) (hnext : ∀ b ∈ l, next' b = next b)
    (hhead : ∀ b, l.head? = some b → pre' b = p') (hpre : ∀ b ∈ l, l.head? ≠ some b → pre' b = pre b) :
    Seg next' pre' p' l q := by
  cases l with
  | nil => trivial
  | cons a l =>
    refine ⟨hhead a rfl, (hnext a List.mem_cons_self).trans h.2.1, congr (fun b hb => ?_) h.2.2⟩
    have hne : a ≠ b := fun heq => (List.nodup_cons.1 hnodup).1 (heq ▸ hb)
    exact ⟨hnext b (List.mem_cons_of_mem a hb), hpre b (List.mem_cons_of_mem a hb) (fun heq => hne (Option.some.inj heq))⟩

theorem last (h : Seg next pre p l q) (hnodup : l.Nodup) (hpre : ∀ b ∈ l, pre' b = pre b)
    (hlast : ∀ b, l.getLast? = some b → next' b = q') (hnext : ∀ b ∈ l, l.getLast? ≠ some b → next' b = next b) :
    Seg next' pre' p l q' := by
  rcases List.eq_nil_or_concat l with rfl | ⟨l, a, rfl⟩
  · trivial
  · rw [List.concat_eq_append] at *
    obtain ⟨hl, ha⟩ := append.1 h
    rw [List.getLast?_concat] at hlast hnext
    refine append.2 ⟨congr (fun b hb => ⟨?_, hpre b (List.mem_append_left _ hb)⟩) hl, ?_, hlast a rfl, trivial⟩
    · refine hnext b (List.mem_append_left _ hb) fun heq => ?_
      exact (List.disjoint_of_nodup_append hnodup) hb (List.mem_singleton.2 (Option.some.inj heq).symm)
    · exact (hpre a (List.mem_append_right _ (List.mem_singleton_self a))).trans ha.1

end Seg

/-- **The cells are linked as a list**, from a head to a tail. -/
structure Links (next pre : ν → Option ν) (head tail : Option ν) (l : List ν) : Prop where
  nodup : l.Nodup
  seg : Seg next pre none l none
  head : head = l.head?
  tail : tail = l.getLast?

namespace Links

variable {head tail : Option ν} {l xs ys : List ν} {a : ν}

theorem nil (next pre : ν → Option ν) : Links next pre none none [] := ⟨List.nodup_nil, trivial, rfl, rfl⟩

theorem mid (h : Links next pre head tail (xs ++ a :: ys)) : pre a = xs.getLast? ∧ next a = ys.head? := by
  obtain ⟨hpre, hnext⟩ := h.seg.mid
  rw [Option.or_none] at hpre hnext
  exact ⟨hpre, hnext⟩

theorem congr (h : Links next pre head tail l) (hsame : ∀ b ∈ l, next' b = next b ∧ pre' b = pre b) :
    Links next' pre' head tail l := ⟨h.nodup, h.seg.congr hsame, h.head, h.tail⟩

/-- **A cell is cut out**: the one before it is told of the one after it, and that one of the one before it. -/
theorem unlink (h : Links next pre head tail (xs ++ a :: ys)) {head' tail' : Option ν}
    (hhead : head' = (xs ++ ys).head?) (htail : tail' = (xs ++ ys).getLast?)
    (hlast : ∀ b, xs.getLast? = some b → next' b = ys.head?)
    (hnext : ∀ b ∈ xs ++ ys, xs.getLast? ≠ some b → next' b = next b)
    (hfirst : ∀ b, ys.head? = some b → pre' b = xs.getLast?)
    (hpre : ∀ b ∈ xs ++ ys, ys.head? ≠ some b → pre' b = pre b) : Links next' pre' head' tail' (xs ++ ys) := by
  obtain ⟨hxs, hys⟩ := Seg.append.1 h.seg
  have hnodup : (xs ++ ys).Nodup := h.nodup.sublist (List.Sublist.append_left (List.sublist_cons_self a ys) xs)
  obtain ⟨hxsn, hysn, hdisj⟩ := List.nodup_append.1 hnodup
  refine ⟨hnodup, Seg.append.2 ⟨?_, ?_⟩, hhead, htail⟩
  · refine hxs.last hxsn (fun b hb => ?_) (fun b hb => ?_) (fun b hb hne => hnext b (List.mem_append_left _ hb) hne)
    · exact hpre b (List.mem_append_left _ hb) fun heq => hdisj b hb b (List.mem_of_head? heq) rfl
    · rw [hlast b hb, Option.or_none]
  · refine hys.2.2.first hysn (fun b hb => ?_) (fun b hb => ?_) (fun b hb hne => hpre b (List.mem_append_right _ hb) hne)
    · exact hnext b (List.mem_append_right _ hb) fun heq => hdisj b (List.mem_of_getLast? heq) b hb rfl
    · rw [hfirst b hb, Option.or_none]

/-- **A cell is put in**, between the last of some cells and the first of the others. -/
theorem insert (h : Links next pre head tail (xs ++ ys)) (ha : a ∉ xs ++ ys) {head' tail' : Option ν}
    (hhead : head' = (xs ++ a :: ys).head?) (htail : tail' = (xs ++ a :: ys).getLast?)
    (hat : next' a = ys.head? ∧ pre' a = xs.getLast?)
    (hlast : ∀ b, xs.getLast? = some b → next' b = some a)
    (hnext : ∀ b ∈ xs ++ ys, xs.getLast? ≠ some b → next' b = next b)
    (hfirst : ∀ b, ys.head? = some b → pre' b = some a)
    (hpre : ∀ b ∈ xs ++ ys, ys.head? ≠ some b → pre' b = pre b) : Links next' pre' head' tail' (xs ++ a :: ys) := by
  obtain ⟨hxs, hys⟩ := Seg.append.1 h.seg
  obtain ⟨hxsn, hysn, hdisj⟩ := List.nodup_append.1 h.nodup
  refine ⟨?_, Seg.append.2 ⟨?_, ?_, ?_, ?_⟩, hhead, htail⟩
  · rw [List.nodup_middle]
    exact List.nodup_cons.2 ⟨ha, h.nodup⟩
  · refine hxs.last hxsn (fun b hb => ?_) (fun b hb => ?_) (fun b hb hne => hnext b (List.mem_append_left _ hb) hne)
    · exact hpre b (List.mem_append_left _ hb) fun heq => hdisj b hb b (List.mem_of_head? heq) rfl
    · exact hlast b hb
  · rw [hat.2, Option.or_none]
  · rw [hat.1, Option.or_none]
  · refine hys.first hysn (fun b hb => ?_) (fun b hb => hfirst b hb)
      (fun b hb hne => hpre b (List.mem_append_right _ hb) hne)
    exact hnext b (List.mem_append_right _ hb) fun heq => hdisj b (List.mem_of_getLast? heq) b hb rfl

theorem singleton (h : Links next pre (some a) (some a) l) : l = [a] := by
  obtain ⟨hnodup, -, hhead, htail⟩ := h
  cases l with
  | nil => cases hhead
  | cons b l =>
    obtain rfl : a = b := Option.some.inj hhead
    rcases List.eq_nil_or_concat l with rfl | ⟨l, c, rfl⟩
    · rfl
    · rw [List.concat_eq_append, ← List.cons_append, List.getLast?_concat] at htail
      have hnot := (List.nodup_cons.1 hnodup).1
      rw [List.concat_eq_append, Option.some.inj htail] at hnot
      exact absurd (List.mem_append_right _ (List.mem_singleton_self c)) hnot

theorem ne_self (h : Links next pre head tail (xs ++ a :: ys)) : pre a ≠ some a ∧ next a ≠ some a := by
  obtain ⟨-, hys, hdisj⟩ := List.nodup_append.1 h.nodup
  obtain ⟨hpre, hnext⟩ := h.mid
  refine ⟨fun heq => ?_, fun heq => ?_⟩
  · exact hdisj a (List.mem_of_getLast? (hpre.symm.trans heq)) a List.mem_cons_self rfl
  · exact (List.nodup_cons.1 hys).1 (List.mem_of_head? (hnext.symm.trans heq))

theorem head_eq (h : Links next pre head tail (xs ++ a :: ys)) : head = some a ↔ pre a = none := by
  have hnot := (List.nodup_middle.1 h.nodup).notMem
  rw [h.mid.1, h.head]
  cases xs with
  | nil => exact iff_of_true rfl rfl
  | cons x xs =>
    refine iff_of_false (fun heq => hnot ?_) (by simp)
    obtain rfl : x = a := Option.some.inj heq
    exact List.mem_cons_self

theorem tail_eq (h : Links next pre head tail (xs ++ a :: ys)) : tail = some a ↔ next a = none := by
  have hnot := (List.nodup_middle.1 h.nodup).notMem
  rw [h.mid.2, h.tail]
  rcases List.eq_nil_or_concat ys with rfl | ⟨ys, y, rfl⟩
  · exact iff_of_true List.getLast?_concat rfl
  · rw [List.concat_eq_append, ← List.cons_append, ← List.append_assoc, List.getLast?_concat]
    refine iff_of_false (fun heq => hnot ?_) (by simp)
    obtain rfl : y = a := Option.some.inj heq
    exact List.mem_append_right xs (by simp)

variable [DecidableEq ν]

/-- A link of a cell is written, if there is the cell. -/
def write (f : ν → Option ν) (cell x : Option ν) (b : ν) : Option ν := if cell = some b then x else f b

theorem write_none (f : ν → Option ν) (x : Option ν) : write f none x = f := by
  funext b
  exact if_neg (Option.some_ne_none b).symm

theorem write_some (f : ν → Option ν) (cell : ν) (x : Option ν) : write f (some cell) x = Function.update f cell x := by
  funext b
  simp [write, Function.update_apply, eq_comm]

/-- A cell is cut out by two writes, and stands at neither end from then on. -/
theorem cut (h : Links next pre head tail (xs ++ a :: ys)) :
    Links (write next (pre a) (next a)) (write pre (next a) (pre a))
    (if head = some a then next a else head) (if tail = some a then pre a else tail) (xs ++ ys) := by
  obtain ⟨-, hysn, hdisj⟩ := List.nodup_append.1 h.nodup
  obtain ⟨hpre, hnext⟩ := h.mid
  refine h.unlink ?_ ?_ (fun b hb => ?_) (fun b _ hb => ?_) (fun b hb => ?_) (fun b _ hb => ?_)
  · rw [h.head, hnext]
    cases xs with
    | nil => exact if_pos rfl
    | cons x xs => exact if_neg fun heq => hdisj x List.mem_cons_self a List.mem_cons_self (Option.some.inj heq)
  · rw [h.tail, hpre]
    rcases List.eq_nil_or_concat ys with rfl | ⟨ys, y, rfl⟩
    · rw [List.getLast?_concat, if_pos rfl, List.append_nil]
    · rw [List.concat_eq_append, ← List.cons_append, ← List.append_assoc, ← List.append_assoc, List.getLast?_concat,
        List.getLast?_concat]
      refine if_neg fun heq => (List.nodup_cons.1 hysn).1 ?_
      rw [← Option.some.inj heq, List.concat_eq_append]
      exact List.mem_append_right _ (List.mem_singleton_self y)
  · rw [write, hpre, if_pos hb, hnext]
  · rw [write, hpre, if_neg hb]
  · rw [write, hnext, if_pos hb, hpre]
  · rw [write, hnext, if_neg hb]

theorem push (h : Links next pre head tail ys) (ha : a ∉ ys) : Links (Function.update next a head)
    (write (Function.update pre a none) head (some a)) (some a) (tail.or (some a)) (a :: ys) := by
  have hne : ∀ b ∈ ys, b ≠ a := fun b hb heq => ha (heq ▸ hb)
  have hnil : Links next pre head tail ([] ++ ys) := h
  refine hnil.insert ha rfl ?_ ⟨?_, ?_⟩ (fun b hb => ?_) (fun b hb _ => ?_) (fun b hb => ?_) (fun b hb hh => ?_)
  · rw [h.tail, List.nil_append, List.getLast?_cons]
    cases ys.getLast? <;> rfl
  · rw [Function.update_self, h.head]
  · rw [write, if_neg fun heq => ha (List.mem_of_head? (h.head.symm.trans heq)), Function.update_self]
    rfl
  · cases hb
  · exact Function.update_of_ne (hne b hb) _ _
  · rw [write, if_pos (h.head.trans hb)]
  · rw [write, if_neg fun heq => hh (h.head.symm.trans heq), Function.update_of_ne (hne b hb)]

theorem before {b : ν} (h : Links next pre head tail (xs ++ a :: ys)) (hb : b ∉ xs ++ a :: ys) :
    Links (write (Function.update next b (some a)) (pre a) (some b))
      (Function.update (Function.update pre b (pre a)) a (some b)) (if pre a = none then some b else head) tail
      (xs ++ b :: a :: ys) := by
  obtain ⟨hpre, hnext⟩ := h.mid
  have hba : b ≠ a := fun heq => hb (heq ▸ List.mem_append_right xs List.mem_cons_self)
  have hne : ∀ c ∈ xs ++ a :: ys, c ≠ b := fun c hc heq => hb (heq ▸ hc)
  have hnot : xs.getLast? ≠ some b := fun heq => hb (List.mem_append_left _ (List.mem_of_getLast? heq))
  refine h.insert hb ?_ ?_ ⟨?_, ?_⟩ (fun c hc => ?_) (fun c hc hl => ?_) (fun c hc => ?_) (fun c hc hf => ?_)
  · rw [h.head, hpre]
    cases xs with
    | nil => rfl
    | cons x xs =>
      rw [List.getLast?_cons]
      exact if_neg (Option.some_ne_none _)
  · rw [h.tail, List.getLast?_append, List.getLast?_append, List.getLast?_cons_cons]
  · rw [write, hpre, if_neg hnot, Function.update_self]
    rfl
  · rw [Function.update_of_ne hba, Function.update_self, hpre]
  · rw [write, hpre, if_pos hc]
  · rw [write, hpre, if_neg hl, Function.update_of_ne (hne c hc)]
  · obtain rfl : a = c := Option.some.inj hc
    exact Function.update_self _ _ _
  · rw [Function.update_of_ne (fun heq => hf (congrArg some heq.symm)), Function.update_of_ne (hne c hc)]

theorem after {b : ν} (h : Links next pre head tail (xs ++ a :: ys)) (hb : b ∉ xs ++ a :: ys) :
    Links (Function.update (Function.update next b (next a)) a (some b))
      (write (Function.update pre b (some a)) (next a) (some b)) head (if next a = none then some b else tail)
      (xs ++ a :: b :: ys) := by
  obtain ⟨hpre, hnext⟩ := h.mid
  have hba : b ≠ a := fun heq => hb (heq ▸ List.mem_append_right xs List.mem_cons_self)
  have hne : ∀ c ∈ xs ++ a :: ys, c ≠ b := fun c hc heq => hb (heq ▸ hc)
  have hnot : ys.head? ≠ some b := fun heq =>
    hb (List.mem_append_right xs (List.mem_cons_of_mem a (List.mem_of_head? heq)))
  have hsplit : xs ++ a :: ys = (xs ++ [a]) ++ ys := List.append_cons xs a ys
  have hlast : (xs ++ [a]).getLast? = some a := List.getLast?_concat
  rw [List.append_cons xs a (b :: ys)]
  rw [hsplit] at h hb hne
  refine h.insert hb ?_ ?_ ⟨?_, ?_⟩ (fun c hc => ?_) (fun c hc hl => ?_) (fun c hc => ?_) (fun c hc hf => ?_)
  · rw [h.head, List.head?_append, List.head?_append]
    cases xs <;> rfl
  · rw [h.tail, hnext]
    cases ys with
    | nil =>
      rw [List.getLast?_concat]
      rfl
    | cons y ys =>
      rw [List.getLast?_append_cons (xs ++ [a]) b, List.getLast?_append_cons (xs ++ [a]) y, List.getLast?_cons_cons]
      exact if_neg (Option.some_ne_none y)
  · rw [Function.update_of_ne hba, Function.update_self, hnext]
  · rw [write, hnext, if_neg hnot, Function.update_self, hlast]
  · obtain rfl : a = c := Option.some.inj (hlast.symm.trans hc)
    exact Function.update_self _ _ _
  · rw [hlast] at hl
    rw [Function.update_of_ne (fun heq => hl (congrArg some heq.symm)), Function.update_of_ne (hne c hc)]
  · rw [write, hnext, if_pos hc]
  · rw [write, hnext, if_neg hf, Function.update_of_ne (hne c hc)]

end Links
end Sncpp
