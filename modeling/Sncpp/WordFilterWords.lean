import Sncpp.WordFilterFind
/-!
# WordFilterWords — every word that stands in a text is masked

`doFilter` answers if and only if a listed word stands in the text, and answers the same whatever it has been given before
(`answers_of_doFilter`).  The words that stand in the text are masked but for those behind the first code point of a turn
that reads on to the end of the text.
-/
namespace Sncpp
namespace WordFilter

/-- **A word stands in a text**: it is what is heard of `n` code points from `i` on. -/
def OccursAt (ignoreCode w text : List Nat) (i n : Nat) : Prop := heard ignoreCode ((text.drop i).take n) = w

/-- One of the code points that are heard there comes out masked. -/
def MaskedAt (ignoreCode : List Nat) (replaceCode : Nat) (text out : List Nat) (i n : Nat) : Prop :=
  ∃ j, i ≤ j ∧ j < i + n ∧ (∃ c, text[j]? = some c ∧ c ∉ ignoreCode) ∧ out[j]? = some replaceCode

structure Answers (list : List (List Nat)) (ignoreCode : List Nat) (replaceCode : Nat) (text : List Nat)
    (answer : Option (List Nat × List (List Nat))) : Prop where
  found : answer.isSome = true ↔ ∃ w ∈ list, ∃ i n, OccursAt ignoreCode w text i n
  masked : ∀ out words, answer = some (out, words) → ∀ w ∈ list, ∀ i n, OccursAt ignoreCode w text i n →
    MaskedAt ignoreCode replaceCode text out i n

theorem mem_span {text : List Nat} {i n c : Nat} : c ∈ (text.drop i).take n ↔ ∃ j, i ≤ j ∧ j < i + n ∧
    text[j]? = some c := by
  rw [List.mem_iff_getElem?]
  constructor
  · rintro ⟨j, hj⟩
    rw [List.getElem?_take] at hj
    split at hj
    · next hlt =>
      rw [List.getElem?_drop] at hj
      exact ⟨i + j, Nat.le_add_right _ _, by omega, hj⟩
    · cases hj
  · rintro ⟨j, hij, hjn, hj⟩
    refine ⟨j - i, ?_⟩
    rw [List.getElem?_take, if_pos (by omega), List.getElem?_drop, Nat.add_sub_cancel' hij]
    exact hj

theorem OccursAt.append {ignoreCode w rest : List Nat} {i n : Nat} (a : List Nat) (h : OccursAt ignoreCode w rest i n) :
    OccursAt ignoreCode w (a ++ rest) (a.length + i) n := by
  unfold OccursAt
  rw [List.drop_append, List.drop_eq_nil_of_le (Nat.le_add_right _ _), List.nil_append, Nat.add_sub_cancel_left]
  exact h

theorem OccursAt.split {ignoreCode w a rest : List Nat} {i n : Nat} (hw : w ≠ [])
    (h : OccursAt ignoreCode w (a ++ rest) i n) :
    (∃ j c, i ≤ j ∧ j < i + n ∧ a[j]? = some c ∧ c ∉ ignoreCode) ∨
      ∃ i' n', OccursAt ignoreCode w rest i' n' ∧ i ≤ a.length + i' ∧ a.length + i' + n' ≤ i + n := by
  by_cases hhead : ∃ j c, i ≤ j ∧ j < i + n ∧ a[j]? = some c ∧ c ∉ ignoreCode
  · exact Or.inl hhead
  have hnil : heard ignoreCode ((a.drop i).take n) = [] := by
    refine List.eq_nil_iff_forall_not_mem.2 (fun c hc => hhead ?_)
    obtain ⟨hspan, hheard⟩ := mem_heard.1 hc
    obtain ⟨j, hij, hjn, hj⟩ := mem_span.1 hspan
    exact ⟨j, c, hij, hjn, hj, hheard⟩
  have hrest : OccursAt ignoreCode w rest (i - a.length) (n - (a.length - i)) := by
    unfold OccursAt at h ⊢
    rw [List.drop_append, List.take_append, List.length_drop] at h
    unfold heard at h hnil ⊢
    rw [List.filter_append, hnil, List.nil_append] at h
    exact h
  refine Or.inr ⟨_, _, hrest, by omega, ?_⟩
  have hpos : n - (a.length - i) ≠ 0 := by
    intro hzero
    rw [hzero] at hrest
    unfold OccursAt at hrest
    rw [List.take_zero] at hrest
    exact hw hrest.symm
  omega

namespace Filter

theorem Finds.get {W : List (List Nat)} {s s' : Scan} {a : List Nat} {r : Replace} (h : Finds W s s' a r) {j : Nat}
    (hj : j < s.codeList.length) : s'.codeList[j]? = s.codeList[j]? := by
  have hafter := h.after
  rw [h.put, mask_get, if_neg (by omega), List.getElem?_append_left hj]

theorem turn_get {W : List (List Nat)} {s : Scan} (h : Trie W s.filter) (hplain : ∀ c ∈ s.iter, isLetter c = false)
    {j : Nat}
    (hj : j < s.codeList.length) : (turn s).codeList[j]? = s.codeList[j]? ∧ j < (turn s).codeList.length := by
  have hget : (turn s).codeList[j]? = s.codeList[j]? := by
    cases hs : s.iter with
    | nil => rw [turn_nil hs]
    | cons code iter =>
      rcases turn_plain h hs hplain with ⟨-, -, -, ⟨-, hput⟩ | ⟨-, hput⟩⟩ | ⟨a, r, hfinds⟩
      · rw [hput, List.getElem?_append_left hj]
      · rw [hput, List.getElem?_append_left hj]
      · exact hfinds.get hj
  refine ⟨hget, ?_⟩
  rw [List.getElem?_eq_getElem hj] at hget
  exact (List.getElem?_eq_some_iff.1 hget).1

theorem turn_suffix {W : List (List Nat)} {s : Scan} (h : Trie W s.filter) (hplain : ∀ c ∈ s.iter, isLetter c = false) :
    (turn s).iter <:+ s.iter := by
  cases hs : s.iter with
  | nil =>
    have hnil : (turn s).iter = [] := by
      rw [turn_nil hs]
      exact hs
    exact ⟨[], hnil⟩
  | cons code iter =>
    rcases turn_plain h hs hplain with hmiss | ⟨a, r, hfinds⟩
    · rw [hmiss.left]
      exact List.suffix_cons _ _
    · rw [← hs, hfinds.read]
      exact List.suffix_append _ _

theorem turns_suffix {W : List (List Nat)} : ∀ (k : Nat) {s : Scan}, Trie W s.filter → (∀ c ∈ s.iter, isLetter c = false) →
    (turn^[k] s).iter <:+ s.iter
  | 0, _, _, _ => List.suffix_refl _
  | k + 1, s, h, hplain => by
    have hsuffix := turn_suffix h hplain
    rw [Function.iterate_succ_apply]
    exact (turns_suffix k h.turn.trie (fun c hc => hplain c (hsuffix.mem hc))).trans hsuffix

theorem loop_get {W : List (List Nat)} {s : Scan} (h : Trie W s.filter) (hplain : ∀ c ∈ s.iter, isLetter c = false)
    {j : Nat}
    (hj : j < s.codeList.length) : (loop s).codeList[j]? = s.codeList[j]? := by
  rw [loop_eq _ s (Nat.le_refl _)]
  have hturns : ∀ (k : Nat) (s : Scan), Trie W s.filter → (∀ c ∈ s.iter, isLetter c = false) → j < s.codeList.length →
      (turn^[k] s).codeList[j]? = s.codeList[j]? := by
    intro k
    induction k with
    | zero => exact fun _ _ _ _ => rfl
    | succ k ih =>
      intro s h hplain hj
      obtain ⟨hget, hlt⟩ := turn_get h hplain hj
      rw [Function.iterate_succ_apply, ih (turn s) h.turn.trie (fun c hc => hplain c ((turn_suffix h hplain).mem hc)) hlt,
        hget]
  exact hturns _ s h hplain hj

/-! ## A word is found if one stands in the text -/

theorem Misses.split {W : List (List Nat)} {s s' : Scan} {code : Nat} {iter : List Nat} (h : Misses W s s' code iter)
    {w : List Nat} (hmem : w ∈ W) (hw : w ≠ []) {i n : Nat} (hoccurs : OccursAt s.filter.ignoreCode w (code :: iter) i n) :
    (∀ j c, i ≤ j → j < i + n → [code][j]? = some c → c ∈ s.filter.ignoreCode) ∧
      ∃ i' n', OccursAt s.filter.ignoreCode w iter i' n' ∧ i ≤ 1 + i' ∧ 1 + i' + n' ≤ i + n := by
  have hnone : ∀ j c, i ≤ j → j < i + n → [code][j]? = some c → c ∈ s.filter.ignoreCode := by
    intro j c hij hjn hj
    have hzero : j = 0 := Nat.lt_one_iff.1 (List.getElem?_eq_some_iff.1 hj).1
    obtain rfl : i = 0 := by omega
    unfold OccursAt at hoccurs
    rw [List.drop_zero] at hoccurs
    exact absurd (hoccurs.symm.trans (h.none n (by rwa [hoccurs]))) hw
  refine ⟨hnone, (OccursAt.split (a := [code]) hw hoccurs).resolve_left ?_⟩
  rintro ⟨j, c, hij, hjn, hj, hc⟩
  exact hc (hnone j c hij hjn hj)

theorem found_iff {W : List (List Nat)} (hW : ∀ w ∈ W, w ≠ []) : ∀ (m : Nat) {s : Scan}, s.iter.length ≤ m →
    Trie W s.filter →
    (∀ c ∈ s.iter, isLetter c = false) →
    ((loop s).beReplaced = true ↔ s.beReplaced = true ∨ ∃ w ∈ W, ∃ i n, OccursAt s.filter.ignoreCode w s.iter i n)
  | m, s, hm, h, hplain => by
    cases hs : s.iter with
    | nil =>
      rw [loop_nil hs]
      refine ⟨Or.inl, fun hor => hor.resolve_right ?_⟩
      rintro ⟨w, hw, i, n, hoccurs⟩
      unfold OccursAt at hoccurs
      rw [List.drop_nil, List.take_nil] at hoccurs
      exact hW w hw hoccurs.symm
    | cons code iter =>
      have hne : s.iter ≠ [] := by
        rw [hs]
        exact List.cons_ne_nil _ _
      have hlt := turn_iter hne
      cases m with
      | zero => exact absurd (List.eq_nil_of_length_eq_zero (Nat.le_zero.1 hm)) hne
      | succ m =>
        have hsuffix := turn_suffix h hplain
        rw [loop_turn hne, found_iff hW m (by omega) h.turn.trie (fun c hc => hplain c (hsuffix.mem hc)), h.turn.ignoreCode]
        rcases turn_plain h hs hplain with hmiss | ⟨a, r, hfinds⟩
        · rw [hmiss.beReplaced, hmiss.left]
          refine or_congr_right ⟨?_, ?_⟩
          · rintro ⟨w, hw, i, n, hoccurs⟩
            exact ⟨w, hw, _, n, hoccurs.append [code]⟩
          · rintro ⟨w, hw, i, n, hoccurs⟩
            obtain ⟨-, i', n', hoccurs', -, -⟩ := hmiss.split hw (hW w hw) hoccurs
            exact ⟨w, hw, i', n', hoccurs'⟩
        · refine iff_of_true (Or.inl hfinds.beReplaced) (Or.inr ⟨_, hfinds.word, 0, a.length, ?_⟩)
          rw [← hs, hfinds.read]
          unfold OccursAt
          rw [List.drop_zero, List.take_left]

def Masked (W : List (List Nat)) (s : Scan) : Prop :=
  ∀ w ∈ W, ∀ i n, OccursAt s.filter.ignoreCode w s.iter i n → ∃ j, i ≤ j ∧ j < i + n ∧
    (∃ c, s.iter[j]? = some c ∧ c ∉ s.filter.ignoreCode) ∧
    (loop s).codeList[s.codeList.length + j]? = some s.filter.replaceCode

/-- No turn reads to the end of the text past a word, unless that word has the replacing code point itself. -/
def Reaches (W : List (List Nat)) (s : Scan) : Prop :=
  ∀ k, Overruns (turn^[k] s) → ∀ w ∈ W, ∀ i n, OccursAt s.filter.ignoreCode w (turn^[k] s).iter.tail i n →
    s.filter.replaceCode ∈ w

theorem reaches_turn {W : List (List Nat)} {s : Scan} (h : Trie W s.filter) : Reaches W s ↔
    (Overruns s → ∀ w ∈ W, ∀ i n, OccursAt s.filter.ignoreCode w s.iter.tail i n → s.filter.replaceCode ∈ w) ∧
      Reaches W (turn s) := by
  unfold Reaches
  rw [h.turn.ignoreCode, h.turn.replaceCode]
  constructor
  · intro hall
    refine ⟨hall 0, fun k => ?_⟩
    have hk := hall (k + 1)
    rw [Function.iterate_succ_apply] at hk
    exact hk
  · rintro ⟨hfirst, hrest⟩ k
    cases k with
    | zero => exact hfirst
    | succ k =>
      rw [Function.iterate_succ_apply]
      exact hrest k

theorem masked_turn {W : List (List Nat)} (hW : ∀ w ∈ W, w ≠ []) {s : Scan} (h : Trie W s.filter) {a : List Nat}
    (hloop : loop s = loop (turn s)) (hiter : s.iter = a ++ (turn s).iter)
    (hlen : (turn s).codeList.length = s.codeList.length + a.length)
    (hnew : ∀ w ∈ W, ∀ i n, OccursAt s.filter.ignoreCode w s.iter i n → ∀ j c, i ≤ j → j < i + n → a[j]? = some c →
      c ∉ s.filter.ignoreCode → (loop s).codeList[s.codeList.length + j]? = some s.filter.replaceCode) :
    Masked W s ↔ Masked W (turn s) := by
  have hget : ∀ j, s.iter[a.length + j]? = (turn s).iter[j]? := by
    intro j
    rw [hiter, List.getElem?_append_right (Nat.le_add_right _ _), Nat.add_sub_cancel_left]
  unfold Masked
  rw [h.turn.ignoreCode, h.turn.replaceCode, ← hloop, hlen]
  constructor
  · intro hall w hw i n hoccurs
    have hlater := hoccurs.append a
    rw [← hiter] at hlater
    obtain ⟨j, hij, hjn, hc, hout⟩ := hall w hw _ n hlater
    obtain ⟨j, rfl⟩ : ∃ j', j = a.length + j' := ⟨j - a.length, by omega⟩
    rw [hget] at hc
    exact ⟨j, by omega, by omega, hc, by rw [Nat.add_assoc]; exact hout⟩
  · intro hall w hw i n hoccurs
    have hoccurs' := hoccurs
    rw [hiter] at hoccurs'
    rcases hoccurs'.split (hW w hw) with ⟨j, c, hij, hjn, hj, hc⟩ | ⟨i', n', hrest, hi, hn⟩
    · refine ⟨j, hij, hjn, ⟨c, ?_, hc⟩, hnew w hw i n hoccurs j c hij hjn hj hc⟩
      rw [hiter, List.getElem?_append_left (List.getElem?_eq_some_iff.1 hj).1]
      exact hj
    · obtain ⟨j, hij, hjn, hc, hout⟩ := hall w hw i' n' hrest
      rw [← hget] at hc
      exact ⟨a.length + j, by omega, by omega, hc, by rw [← Nat.add_assoc]; exact hout⟩

theorem masked_overrun {W : List (List Nat)} (hW : ∀ w ∈ W, w ≠ []) {s : Scan} (h : Trie W s.filter)
    (hplain : ∀ c ∈ s.iter, isLetter c = false) {code : Nat} {iter : List Nat} (hs : s.iter = code :: iter)
    (hmiss : Misses W s (turn s) code iter) (hput : (turn s).codeList = s.codeList ++ code :: iter) :
    Masked W s ↔ ∀ w ∈ W, ∀ i n, OccursAt s.filter.ignoreCode w iter i n → s.filter.replaceCode ∈ w := by
  have hsuffix := turn_suffix h hplain
  have hout : ∀ j, j < (code :: iter).length → (loop s).codeList[s.codeList.length + j]? = s.iter[j]? := by
    intro j hj
    have hlt : s.codeList.length + j < (turn s).codeList.length := by
      rw [hput, List.length_append]
      omega
    rw [loop_turn (by rw [hs]; exact List.cons_ne_nil _ _),
      loop_get h.turn.trie (fun c hc => hplain c (hsuffix.mem hc)) hlt, hput,
      List.getElem?_append_right (Nat.le_add_right _ _), Nat.add_sub_cancel_left, hs]
  unfold Masked
  constructor
  · intro hall w hw i n hoccurs
    have hlater := hoccurs.append [code]
    rw [List.singleton_append, ← hs] at hlater
    obtain ⟨j, hij, hjn, ⟨c, hc, hheard⟩, hmasked⟩ := hall w hw _ n hlater
    rw [hout j (by rw [← hs]; exact (List.getElem?_eq_some_iff.1 hc).1), hc] at hmasked
    rw [← Option.some.inj hmasked, ← hlater]
    exact mem_heard.2 ⟨mem_span.2 ⟨j, hij, hjn, hc⟩, hheard⟩
  · intro hall w hw i n hoccurs
    have hoccurs' := hoccurs
    rw [hs] at hoccurs'
    obtain ⟨-, i', n', hrest, -, -⟩ := hmiss.split hw (hW w hw) hoccurs'
    have hmem := hall w hw i' n' hrest
    rw [← hoccurs] at hmem
    obtain ⟨hspan, hheard⟩ := mem_heard.1 hmem
    obtain ⟨j, hij, hjn, hj⟩ := mem_span.1 hspan
    exact ⟨j, hij, hjn, ⟨_, hj, hheard⟩, (hout j (by rw [← hs]; exact (List.getElem?_eq_some_iff.1 hj).1)).trans hj⟩

theorem masked_iff {W : List (List Nat)} (hW : ∀ w ∈ W, w ≠ []) : ∀ (m : Nat) {s : Scan}, s.iter.length ≤ m →
    Trie W s.filter → (∀ c ∈ s.iter, isLetter c = false) → (Masked W s ↔ Reaches W s)
  | m, s, hm, h, hplain => by
    cases hs : s.iter with
    | nil =>
      have hstay : ∀ k, turn^[k] s = s := fun k => Function.iterate_fixed (turn_nil hs) k
      refine iff_of_true (fun w hw i n hoccurs => ?_) (fun k hover => ?_)
      · rw [hs] at hoccurs
        unfold OccursAt at hoccurs
        rw [List.drop_nil, List.take_nil] at hoccurs
        exact absurd hoccurs.symm (hW w hw)
      · have htwo := hover.1
        rw [hstay, hs] at htwo
        exact absurd htwo (Nat.not_succ_le_zero 1)
    | cons code iter =>
      have hne : s.iter ≠ [] := by
        rw [hs]
        exact List.cons_ne_nil _ _
      have hlt := turn_iter hne
      cases m with
      | zero => exact absurd (List.eq_nil_of_length_eq_zero (Nat.le_zero.1 hm)) hne
      | succ m =>
        have hsuffix := turn_suffix h hplain
        have hplain' : ∀ c ∈ (turn s).iter, isLetter c = false := fun c hc => hplain c (hsuffix.mem hc)
        have hrest := masked_iff hW m (Nat.le_of_lt_succ (Nat.lt_of_lt_of_le hlt hm)) h.turn.trie hplain'
        rw [reaches_turn h, ← hrest]
        rcases turn_plain h hs hplain with hmiss | ⟨a, r, hfinds⟩
        · rcases hmiss.put with ⟨hclean, hput⟩ | ⟨hover, hput⟩
          · -- the code point goes on the list, and no word is heard from it on
            have hstep := masked_turn hW h (a := [code]) (loop_turn hne) (by rw [hs, hmiss.left]; rfl)
              (by rw [hput, List.length_append]) (fun w hw i n hoccurs j c hij hjn hj hc => by
                rw [hs] at hoccurs
                exact absurd ((hmiss.split hw (hW w hw) hoccurs).1 j c hij hjn hj) hc)
            rw [hstep]
            exact ⟨fun hall => ⟨fun hover => absurd hover hclean, hall⟩, And.right⟩
          · -- every word that stands behind the code point stays as it is
            rw [masked_overrun hW h hplain hs hmiss hput, hs]
            refine ⟨fun hall => ⟨fun _ => hall, ?_⟩, fun hall => hall.1 hover⟩
            rw [hrest]
            intro k _ w hw i n hoccurs
            have hleft := turns_suffix k h.turn.trie hplain'
            rw [hmiss.left] at hleft
            obtain ⟨front, hfront⟩ := (List.tail_suffix _).trans hleft
            rw [h.turn.ignoreCode] at hoccurs
            rw [h.turn.replaceCode]
            have hback := hoccurs.append front
            rw [hfront] at hback
            exact hall w hw _ n hback
        · -- what was found is masked from the first code point that is heard to the last
          have hstep := masked_turn hW h (a := a) (loop_turn hne) hfinds.read
            (by rw [hfinds.put, mask_length, List.length_append]) (fun w hw i n _ j c _ _ hj hc => by
              have hja := (List.getElem?_eq_some_iff.1 hj).1
              have hlist : s.codeList.length + j < (s.codeList ++ a).length := by
                rw [List.length_append]
                omega
              have hturned : s.codeList.length + j < (turn s).codeList.length := by
                rw [hfinds.put, mask_length]
                exact hlist
              have hbegin := hfinds.begins j c hj hc
              have hend := hfinds.upTo
              rw [loop_turn hne, loop_get h.turn.trie hplain' hturned, hfinds.put, mask_get, if_pos (by omega),
                List.getElem?_eq_getElem hlist]
              rfl)
          rw [hstep]
          exact ⟨fun hall => ⟨fun hover => absurd hover hfinds.clean, hall⟩, And.right⟩

theorem Alike.turns {W : List (List Nat)} : ∀ (k : Nat) {s t : Scan}, Alike W s t → (∀ c ∈ s.iter, isLetter c = false) →
    Alike W (Filter.turn^[k] s) (Filter.turn^[k] t)
  | 0, _, _, h, _ => h
  | k + 1, s, t, h, hplain => by
    rw [Function.iterate_succ_apply, Function.iterate_succ_apply]
    exact Alike.turns k (h.turn hplain) (fun c hc => hplain c ((turn_suffix h.first hplain).mem hc))

theorem doFilter_same {W : List (List Nat)} {f g : Filter} (hf : Trie W f) (hg : Trie W g)
    (hreplace : f.replaceCode = g.replaceCode) (hign : f.ignoreCode = g.ignoreCode) {text : List Nat}
    (hplain : ∀ c ∈ text, isLetter c = false) : (f.doFilter text).2 = (g.doFilter text).2 := by
  have hstart : Alike W (start f text) (start g text) := ⟨hf, hg, hreplace, hign, rfl, rfl, rfl, rfl⟩
  have halike := hstart.turns text.length hplain
  unfold doFilter
  simp only
  rw [loop_eq text.length (start f text) (Nat.le_refl _), loop_eq text.length (start g text) (Nat.le_refl _),
    halike.beReplaced, halike.codeList, halike.filterWordList]

theorem init_codes (list : List (List Nat)) (removeIgnoreWords : Bool) (f : Filter) :
    (f.init list removeIgnoreWords).replaceCode = f.replaceCode ∧
      (f.init list removeIgnoreWords).ignoreCode = f.ignoreCode := by
  have hfold : (list.foldl (initWord removeIgnoreWords) f).replaceCode = f.replaceCode ∧
      (list.foldl (initWord removeIgnoreWords) f).ignoreCode = f.ignoreCode := by
    refine Steps.inv_of_run (I := fun g : Filter => g.replaceCode = f.replaceCode ∧ g.ignoreCode = f.ignoreCode)
      (fun g w hg => ?_) list f ⟨rfl, rfl⟩
    unfold initWord
    split
    · exact hg
    · exact hg
  exact hfold

def filled (replaceCode : Nat) (ignoreCode : List Nat) (list : List (List Nat)) (removeIgnoreWords : Bool)
    (texts : List (List Nat)) : Filter :=
  texts.foldl (fun f text => (f.doFilter text).1) ((ctor replaceCode ignoreCode).init list removeIgnoreWords)

/-- **The words of the list are found, those that stand in the text are masked and earlier texts do not show, if and only
if no turn reads to the end of the text past a word.** -/
theorem answers_of_doFilter (replaceCode : Nat) {ignoreCode : List Nat} {list : List (List Nat)} (removeIgnoreWords : Bool)
    (hlist : ∀ w ∈ list, w ≠ [] ∧ ∀ c ∈ w, c ∉ ignoreCode) (earlier : List (List Nat)) {text : List Nat}
    (htext : ∀ c ∈ text, isLetter c = false) :
    (Answers list ignoreCode replaceCode text
        ((filled replaceCode ignoreCode list removeIgnoreWords earlier).doFilter text).2 ∧
      ((filled replaceCode ignoreCode list removeIgnoreWords earlier).doFilter text).2 =
        ((filled replaceCode ignoreCode list removeIgnoreWords []).doFilter text).2) ↔
      ∀ k, Overruns (turn^[k] (start (filled replaceCode ignoreCode list removeIgnoreWords earlier) text)) →
        ∀ w ∈ list, ∀ i n, OccursAt ignoreCode w
          (turn^[k] (start (filled replaceCode ignoreCode list removeIgnoreWords earlier) text)).iter.tail i n →
        replaceCode ∈ w := by
  have hne : ∀ w ∈ list, w ≠ [] := fun w hw => (hlist w hw).1
  have hinit : Trie list (filled replaceCode ignoreCode list removeIgnoreWords []) := Trie.init _ _ _ hlist
  have hkept : Kept list (filled replaceCode ignoreCode list removeIgnoreWords [])
      (filled replaceCode ignoreCode list removeIgnoreWords earlier) := hinit.texts earlier
  have hcodes : (filled replaceCode ignoreCode list removeIgnoreWords []).replaceCode = replaceCode ∧
      (filled replaceCode ignoreCode list removeIgnoreWords []).ignoreCode = ignoreCode :=
    init_codes list removeIgnoreWords (ctor replaceCode ignoreCode)
  have hsame := doFilter_same hkept.trie hinit hkept.replaceCode hkept.ignoreCode htext
  have hreplace := hkept.replaceCode.trans hcodes.1
  have hign := hkept.ignoreCode.trans hcodes.2
  generalize filled replaceCode ignoreCode list removeIgnoreWords [] = f₀ at *
  generalize filled replaceCode ignoreCode list removeIgnoreWords earlier = f at *
  have hfound := found_iff hne text.length (s := start f text) (Nat.le_refl _) hkept.trie htext
  have hmasked := masked_iff hne text.length (s := start f text) (Nat.le_refl _) hkept.trie htext
  unfold Masked Reaches at hmasked
  rw [show (start f text).filter.ignoreCode = ignoreCode from hign] at hfound hmasked
  rw [show (start f text).filter.replaceCode = replaceCode from hreplace] at hmasked
  rw [← hmasked]
  have hsome : (f.doFilter text).2.isSome = (loop (start f text)).beReplaced := by
    unfold doFilter
    simp only
    split
    · next h => exact h.symm
    · next h => exact (Bool.eq_false_iff.2 h).symm
  have hout : ∀ {out words}, (f.doFilter text).2 = some (out, words) → out = (loop (start f text)).codeList := by
    intro out words h
    unfold doFilter at h
    simp only at h
    split at h
    · exact (Prod.mk.inj (Option.some.inj h)).1.symm
    · cases h
  have hoff : ∀ j, (loop (start f text)).codeList[(start f text).codeList.length + j]? =
      (loop (start f text)).codeList[j]? := by
    intro j
    rw [show (start f text).codeList.length = 0 from rfl, Nat.zero_add]
  simp only [hoff]
  rw [← hsome] at hfound
  constructor
  · rintro ⟨⟨-, hall⟩, -⟩ w hw i n hoccurs
    obtain ⟨⟨out, words⟩, hanswer⟩ := Option.isSome_iff_exists.1 (hfound.2 (Or.inr ⟨w, hw, i, n, hoccurs⟩))
    obtain ⟨j, hij, hjn, hc, hj⟩ := hall out words hanswer w hw i n hoccurs
    rw [hout hanswer] at hj
    exact ⟨j, hij, hjn, hc, hj⟩
  · intro hall
    refine ⟨⟨hfound.trans (or_iff_right Bool.false_ne_true), fun out words hanswer w hw i n hoccurs => ?_⟩, hsame⟩
    obtain ⟨j, hij, hjn, hc, hj⟩ := hall w hw i n hoccurs
    rw [← hout hanswer] at hj
    exact ⟨j, hij, hjn, hc, hj⟩

def within : List (List Nat) := [[2, 3, 4], [3]]

theorem answers_of_doFilter_within :
    (Answers within [32] 42 [3, 5] ((filled 42 [32] within false [[2, 3]]).doFilter [3, 5]).2 ∧
      ((filled 42 [32] within false [[2, 3]]).doFilter [3, 5]).2 = ((filled 42 [32] within false []).doFilter [3, 5]).2) ↔
      ∀ k, Overruns (turn^[k] (start (filled 42 [32] within false [[2, 3]]) [3, 5])) → ∀ w ∈ within, ∀ i n,
        OccursAt [32] w (turn^[k] (start (filled 42 [32] within false [[2, 3]]) [3, 5])).iter.tail i n → 42 ∈ w :=
  answers_of_doFilter 42 false (by decide) [[2, 3]] (by decide)

/-- The text ends within the longer word, and the shorter one comes out as it stands. -/
theorem word_unmasked : ¬ Answers within [32] 42 [2, 3] ((filled 42 [32] within false []).doFilter [2, 3]).2 := by
  have hanswer : ((filled 42 [32] within false []).doFilter [2, 3]).2 = some ([2, 3, 42], [[3]]) := by
    decide +kernel
  intro h
  obtain ⟨j, hij, hjn, -, hj⟩ := h.masked _ _ hanswer [3] (by decide) 1 1 rfl
  obtain rfl : j = 1 := by omega
  cases hj

end Filter
end WordFilter
end Sncpp
