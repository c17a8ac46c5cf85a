import Mathlib.Data.List.Basic
import Mathlib.Logic.Function.Iterate
import Sncpp.WordFilter
/-!
# WordFilterMask — what filtering makes of a text

The loops of `doFilter` come down to one turn for each code point at which a word is looked for (`loop_eq`).  A turn puts as
many code points on the list as it takes from the text, unless what it reads is the beginning of a word up to the end of the
text: then all of it is put on the list, and only one code point is taken (`Overruns`).
-/
namespace Sncpp
namespace WordFilter

/-- **A text is masked**: a code point stays, but for its case, or it is replaced within one of the words. -/
structure Masks (replaceCode : Nat) (text out : List Nat) (filterWordList : List (List Nat)) : Prop where
  length : out.length = text.length
  each : ∀ i, i < text.length → out[i]? = text[i]? ∨ out[i]? = some replaceCode ∧
    ∃ word ∈ filterWordList, ∃ b, b ≤ i ∧ i < b + word.length ∧ (text.drop b).take word.length = word

namespace Filter

/-- What is read from a level on comes to the end of the text before it comes to the end of a word or leaves the trie. -/
def runsOut : Filter → List Nat → List Nat → Bool
  | _, _, [] => true
  | f, path, code :: iter =>
    let code := convertEnLowerCode code
    if f.ignores code then runsOut f path iter
    else
      let f := f.unfoldLevel (code :: path)
      if (f.level (code :: path)).isNone then false
      else if f.isEnd (code :: path) then false
      else runsOut f (code :: path) iter

/-- One turn of the loops: a word is looked for at the next code point. -/
def turn (s : Scan) : Scan :=
  match s.iter with
  | [] => s
  | code :: iter =>
    let look := findEnd s.codeList s.filter [] [] none (code :: iter)
    match look.replace with
    | none => { s with filter := look.filter, codeList := look.codeList, iter := iter }
    | some r => settle s look r

/-- **A turn that is bad**: it reads to the end of the text, over more than one code point. -/
def Overruns (s : Scan) : Prop := 2 ≤ s.iter.length ∧ runsOut s.filter [] s.iter = true

instance (s : Scan) : Decidable (Overruns s) := inferInstanceAs (Decidable (_ ∧ _))

theorem loop_none {s : Scan} (h : (findReplace s.filter s.codeList s.iter).replace = none) :
    loop s = { s with filter := (findReplace s.filter s.codeList s.iter).filter,
                      codeList := (findReplace s.filter s.codeList s.iter).codeList, iter := [] } := by
  rw [loop]
  split
  · rfl
  · next hsome => cases hsome.symm.trans h

theorem loop_some {s : Scan} {r : Replace} (h : (findReplace s.filter s.codeList s.iter).replace = some r) :
    loop s = loop (settle s (findReplace s.filter s.codeList s.iter) r) := by
  conv_lhs => rw [loop]
  split
  · next hnone => cases hnone.symm.trans h
  · next r' hsome => rw [Option.some.inj (hsome.symm.trans h)]

theorem loop_nil {s : Scan} (h : s.iter = []) : loop s = s := by
  obtain ⟨filter, codeList, words, be, iter⟩ := s
  obtain rfl : iter = [] := h
  rw [loop_none rfl]
  rfl

theorem loop_turn {s : Scan} (h : s.iter ≠ []) : loop s = loop (turn s) := by
  obtain ⟨filter, codeList, words, be, iter⟩ := s
  cases iter with
  | nil => exact absurd rfl h
  | cons code iter =>
    unfold turn
    simp only
    cases hr : (findEnd codeList filter [] [] none (code :: iter)).replace with
    | none =>
      have hfind : findReplace filter codeList (code :: iter) =
          findReplace (findEnd codeList filter [] [] none (code :: iter)).filter
            (findEnd codeList filter [] [] none (code :: iter)).codeList iter := by
        conv_lhs => unfold findReplace
        simp only [hr]
      cases hrest : (findReplace filter codeList (code :: iter)).replace with
      | none =>
        rw [loop_none hrest, loop_none (hfind ▸ hrest)]
        simp only [hfind]
      | some r =>
        have hlater := loop_some (s := ⟨(findEnd codeList filter [] [] none (code :: iter)).filter,
          (findEnd codeList filter [] [] none (code :: iter)).codeList, words, be, iter⟩) (r := r) (hfind ▸ hrest)
        rw [loop_some hrest, hlater]
        simp only [hfind]
        rfl
    | some r =>
      have hfind : findReplace filter codeList (code :: iter) = findEnd codeList filter [] [] none (code :: iter) := by
        unfold findReplace
        simp only [hr]
      have hrest : (findReplace filter codeList (code :: iter)).replace = some r := hfind ▸ hr
      rw [loop_some hrest]
      simp only [hfind]

theorem turn_nil {s : Scan} (h : s.iter = []) : turn s = s := by
  unfold turn
  rw [h]

theorem turn_miss {s : Scan} {code : Nat} {iter : List Nat} (hs : s.iter = code :: iter)
    (h : (findEnd s.codeList s.filter [] [] none s.iter).replace = none) :
    turn s = { s with filter := (findEnd s.codeList s.filter [] [] none s.iter).filter,
                      codeList := (findEnd s.codeList s.filter [] [] none s.iter).codeList, iter := iter } := by
  unfold turn
  rw [hs] at h ⊢
  simp only
  rw [h]

theorem turn_found {s : Scan} {r : Replace} (hs : s.iter ≠ [])
    (h : (findEnd s.codeList s.filter [] [] none s.iter).replace = some r) :
    turn s = settle s (findEnd s.codeList s.filter [] [] none s.iter) r := by
  unfold turn
  split
  · next hnil => exact absurd hnil hs
  · next code iter hiter =>
    rw [hiter] at h ⊢
    simp only
    rw [h]

theorem turn_iter {s : Scan} (h : s.iter ≠ []) : (turn s).iter.length < s.iter.length := by
  obtain ⟨filter, codeList, words, be, iter⟩ := s
  cases iter with
  | nil => exact absurd rfl h
  | cons code iter =>
    unfold turn
    simp only
    split
    · exact Nat.lt_succ_self _
    · exact Nat.lt_of_le_of_lt (settle_iter _ _ _) ((findEnd_iter codeList (code :: iter) filter [] [] none).2 h)

theorem loop_eq : ∀ (k : Nat) (s : Scan), s.iter.length ≤ k → loop s = turn^[k] s
  | 0, s, h => loop_nil (List.eq_nil_of_length_eq_zero (Nat.le_zero.1 h))
  | k + 1, s, h => by
    rw [Function.iterate_succ_apply]
    by_cases hs : s.iter = []
    · rw [turn_nil hs]
      exact loop_eq k s (by rw [hs]; exact Nat.zero_le k)
    · rw [loop_turn hs]
      have := turn_iter hs
      exact loop_eq k _ (by omega)

/-! ## What a turn puts on the list -/

theorem foldl_unfoldIter_codes (path : List Nat) : ∀ (iters : List (List Nat)) (f : Filter),
    (iters.foldl (unfoldIter path) f).replaceCode = f.replaceCode ∧
      (iters.foldl (unfoldIter path) f).ignoreCode = f.ignoreCode
  | [], _ => ⟨rfl, rfl⟩
  | iter :: iters, f => by
    obtain ⟨h₁, h₂⟩ := foldl_unfoldIter_codes path iters (unfoldIter path f iter)
    have hiter : (unfoldIter path f iter).replaceCode = f.replaceCode ∧
        (unfoldIter path f iter).ignoreCode = f.ignoreCode := by
      cases iter <;> exact ⟨rfl, rfl⟩
    rw [List.foldl_cons]
    exact ⟨h₁.trans hiter.1, h₂.trans hiter.2⟩

theorem unfoldLevel_codes (f : Filter) (path : List Nat) :
    (f.unfoldLevel path).replaceCode = f.replaceCode ∧ (f.unfoldLevel path).ignoreCode = f.ignoreCode := by
  unfold unfoldLevel
  split
  · exact ⟨rfl, rfl⟩
  split
  · exact ⟨rfl, rfl⟩
  · exact foldl_unfoldIter_codes path _ f

structure Reads (codeList tempList iter : List Nat) (runsOut : Bool) (f : Filter) (b : Option Nat) (look : Look) :
    Prop where
  code : look.filter.replaceCode = f.replaceCode
  out : look.replace = none → runsOut = true → look.codeList = codeList ++ tempList ++ iter.map convertEnLowerCode
  miss : look.replace = none → runsOut = false →
    look.codeList = codeList ++ (tempList ++ iter.map convertEnLowerCode).take 1
  found : ∀ r, look.replace = some r → runsOut = false ∧
    (∃ a, iter = a ++ look.iter ∧ look.codeList = codeList ++ tempList ++ a.map convertEnLowerCode) ∧
    r.endIndex = look.codeList.length ∧
    ((∀ i, b = some i → codeList.length < i ∧ i ≤ codeList.length + tempList.length) →
      codeList.length < r.beginIndex ∧ r.beginIndex ≤ r.endIndex)

theorem findEnd_reads (codeList : List Nat) : ∀ (iter : List Nat) (f : Filter) (path tempList : List Nat) (b : Option Nat),
    Reads codeList tempList iter (runsOut f path iter) f b (findEnd codeList f path tempList b iter)
  | [], f, path, tempList, b => by
    refine ⟨rfl, fun _ _ => ?_, fun _ h => ?_, fun r h => ?_⟩
    · exact (List.append_nil _).symm
    · cases h
    · cases h
  | code :: iter, f, path, tempList, b => by
    have hshift : codeList ++ (tempList ++ [convertEnLowerCode code]) ++ iter.map convertEnLowerCode =
        codeList ++ tempList ++ (code :: iter).map convertEnLowerCode := by simp
    have htake : ((tempList ++ [convertEnLowerCode code]) ++ iter.map convertEnLowerCode).take 1 =
        (tempList ++ (code :: iter).map convertEnLowerCode).take 1 := by simp
    unfold findEnd runsOut
    simp only
    split
    · obtain ⟨hcode, hout, hmiss, hfound⟩ := findEnd_reads codeList iter f path (tempList ++ [convertEnLowerCode code]) b
      refine ⟨hcode, fun h h' => (hout h h').trans hshift, fun h h' => ?_, fun r h => ?_⟩
      · rw [hmiss h h', htake]
      · obtain ⟨hno, ⟨a, ha, hlist⟩, hend, hbegin⟩ := hfound r h
        refine ⟨hno, ⟨code :: a, by rw [List.cons_append, ← ha], ?_⟩, hend, fun hb => hbegin (fun i hi => ?_)⟩
        · rw [hlist]
          simp
        · have hi := hb i hi
          rw [List.length_append]
          omega
    · have hcodes := unfoldLevel_codes f (convertEnLowerCode code :: path)
      generalize f.unfoldLevel (convertEnLowerCode code :: path) = f' at hcodes
      have hbegin : (∀ i, b = some i → codeList.length < i ∧ i ≤ codeList.length + tempList.length) →
          codeList.length < b.getD (codeList.length + (tempList ++ [convertEnLowerCode code]).length) ∧
            b.getD (codeList.length + (tempList ++ [convertEnLowerCode code]).length) ≤
              codeList.length + (tempList ++ [convertEnLowerCode code]).length := by
        intro hb
        rw [List.length_append, List.length_singleton]
        cases b with
        | none =>
          show codeList.length < codeList.length + (tempList.length + 1) ∧
            codeList.length + (tempList.length + 1) ≤ codeList.length + (tempList.length + 1)
          omega
        | some i =>
          show codeList.length < i ∧ i ≤ codeList.length + (tempList.length + 1)
          have := hb i rfl
          omega
      split
      · refine ⟨hcodes.1, fun _ h => ?_, fun _ _ => ?_, fun r h => ?_⟩
        · cases h
        · show codeList ++ (tempList ++ [convertEnLowerCode code]).take 1 = _
          have hlen : 1 ≤ (tempList ++ [convertEnLowerCode code]).length := by
            rw [List.length_append]
            exact Nat.le_add_left _ _
          rw [← htake, List.take_append_of_le_length hlen]
        · cases h
      split
      · refine ⟨hcodes.1, fun h => ?_, fun h => ?_, fun r h => ?_⟩
        · cases h
        · cases h
        rw [← Option.some.inj h]
        refine ⟨rfl, ⟨[code], rfl, ?_⟩, rfl, fun hb => ⟨(hbegin hb).1, ?_⟩⟩
        · simp
        · exact Nat.le_trans (hbegin hb).2 (Nat.le_of_eq List.length_append.symm)
      · obtain ⟨hcode, hout, hmiss, hfound⟩ := findEnd_reads codeList iter f' (convertEnLowerCode code :: path)
          (tempList ++ [convertEnLowerCode code])
          (some (b.getD (codeList.length + (tempList ++ [convertEnLowerCode code]).length)))
        refine ⟨hcode.trans hcodes.1, fun h h' => (hout h h').trans hshift, fun h h' => ?_, fun r h => ?_⟩
        · rw [hmiss h h', htake]
        · obtain ⟨hno, ⟨a, ha, hlist⟩, hend, hb'⟩ := hfound r h
          refine ⟨hno, ⟨code :: a, by rw [List.cons_append, ← ha], ?_⟩, hend, fun hb => hb' (fun i hi => ?_)⟩
          · rw [hlist]
            simp
          · rw [← Option.some.inj hi]
            exact hbegin hb

theorem stretch_reads : ∀ (iter : List Nat) (f : Filter) (current next : Option (List Nat))
    (tempList : List Nat) (new : Bool),
    (stretch f current next tempList new iter).filter.replaceCode = f.replaceCode ∧
      ∃ a, iter = a ++ (stretch f current next tempList new iter).iter ∧
        (stretch f current next tempList new iter).tempList = tempList ++ a.map convertEnLowerCode
  | [], f, current, next, tempList, new => ⟨rfl, [], rfl, (List.append_nil _).symm⟩
  | code :: iter, f, current, next, tempList, new => by
    unfold stretch
    simp only
    split
    · exact ⟨rfl, [code], rfl, rfl⟩
    split
    · next path _ =>
      obtain ⟨hcode, a, ha, htemp⟩ := stretch_reads iter (f.unfoldLevel (convertEnLowerCode code :: path))
        (if (f.level (convertEnLowerCode code :: path)).isSome then some (convertEnLowerCode code :: path) else none)
        (if (f.level (convertEnLowerCode code :: path)).isSome then some (convertEnLowerCode code :: path) else none)
        (tempList ++ [convertEnLowerCode code]) true
      refine ⟨hcode.trans (unfoldLevel_codes f _).1, code :: a, by rw [List.cons_append, ← ha], ?_⟩
      rw [htemp]
      simp
    · exact ⟨rfl, [code], rfl, rfl⟩

theorem replaceLetters_cases (f : Filter) {codeList : List Nat} {r : Replace} (iter : List Nat)
    (hend : r.endIndex = codeList.length) :
    (replaceLetters f codeList r iter).filter.replaceCode = f.replaceCode ∧
    (((replaceLetters f codeList r iter).replace = none ∧ (replaceLetters f codeList r iter).codeList = codeList ∧
      (replaceLetters f codeList r iter).iter = iter) ∨
    ∃ a, iter = a ++ (replaceLetters f codeList r iter).iter ∧
      (replaceLetters f codeList r iter).codeList = codeList ++ a.map convertEnLowerCode ∧
      (replaceLetters f codeList r iter).replace =
        some ⟨r.beginIndex, (replaceLetters f codeList r iter).codeList.length, r.level⟩) := by
  unfold replaceLetters
  split
  · exact ⟨rfl, Or.inl ⟨rfl, rfl, rfl⟩⟩
  obtain ⟨hcode, a, ha, htemp⟩ := stretch_reads iter f (some r.level) none [] false
  rw [List.nil_append] at htemp
  simp only
  split
  · exact ⟨hcode, Or.inr ⟨a, ha, by rw [htemp], rfl⟩⟩
  split
  · exact ⟨hcode, Or.inl ⟨rfl, rfl, rfl⟩⟩
  · refine ⟨hcode, Or.inr ⟨[], rfl, (List.append_nil _).symm, ?_⟩⟩
    show some r = some ⟨r.beginIndex, codeList.length, r.level⟩
    rw [← hend]

theorem settle_cases (s : Scan) (look : Look) (r : Replace) (hlook : look.replace = some r)
    (hend : r.endIndex = look.codeList.length) :
    (settle s look r).filter.replaceCode = look.filter.replaceCode ∧
    (((settle s look r).codeList = look.codeList ∧ (settle s look r).iter = look.iter ∧
      (settle s look r).filterWordList = s.filterWordList) ∨
    ∃ a, look.iter = a ++ (settle s look r).iter ∧
      (settle s look r).codeList = mask look.filter.replaceCode (look.codeList ++ a.map convertEnLowerCode)
        ⟨r.beginIndex, (look.codeList ++ a.map convertEnLowerCode).length, r.level⟩ ∧
      (settle s look r).filterWordList =
        s.filterWordList ++ [(look.codeList ++ a.map convertEnLowerCode).drop (r.beginIndex - 1)]) := by
  have hput : ∀ look' : Look, look'.filter.replaceCode = look.filter.replaceCode →
      ((look'.replace = none ∧ look'.codeList = look.codeList ∧ look'.iter = look.iter) ∨
        ∃ a, look.iter = a ++ look'.iter ∧ look'.codeList = look.codeList ++ a.map convertEnLowerCode ∧
          look'.replace = some ⟨r.beginIndex, look'.codeList.length, r.level⟩) →
      (if isLetterAt look.codeList r.endIndex then replaceLetters look.filter look.codeList r look.iter else look) = look' →
      (settle s look r).filter.replaceCode = look.filter.replaceCode ∧
      (((settle s look r).codeList = look.codeList ∧ (settle s look r).iter = look.iter ∧
        (settle s look r).filterWordList = s.filterWordList) ∨
      ∃ a, look.iter = a ++ (settle s look r).iter ∧
        (settle s look r).codeList = mask look.filter.replaceCode (look.codeList ++ a.map convertEnLowerCode)
          ⟨r.beginIndex, (look.codeList ++ a.map convertEnLowerCode).length, r.level⟩ ∧
        (settle s look r).filterWordList =
          s.filterWordList ++ [(look.codeList ++ a.map convertEnLowerCode).drop (r.beginIndex - 1)]) := by
    intro look' hcode hcases hlook'
    have heq : settle s look r = (match look'.replace with
        | none => ⟨look'.filter, look'.codeList, s.filterWordList, s.beReplaced, look'.iter⟩
        | some r => ⟨look'.filter, mask look'.filter.replaceCode look'.codeList r,
            s.filterWordList ++ [(look'.codeList.take r.endIndex).drop (r.beginIndex - 1)], true, look'.iter⟩) := by
      subst hlook'
      rfl
    rcases hcases with ⟨hnone, hlist, hiter⟩ | ⟨a, hiter, hlist, hsome⟩
    · rw [hnone] at heq
      rw [heq]
      exact ⟨hcode, Or.inl ⟨hlist, hiter, rfl⟩⟩
    · rw [hsome] at heq
      rw [heq]
      refine ⟨hcode, Or.inr ⟨a, hiter, ?_, ?_⟩⟩
      · show mask look'.filter.replaceCode look'.codeList _ = _
        rw [hcode, hlist]
      · show s.filterWordList ++ [(look'.codeList.take look'.codeList.length).drop _] = _
        rw [List.take_length, hlist]
  by_cases hletter : isLetterAt look.codeList r.endIndex = true
  · obtain ⟨hcode, hcases⟩ := replaceLetters_cases look.filter look.iter hend
    exact hput _ hcode hcases (if_pos hletter)
  · refine hput look rfl (Or.inr ⟨[], rfl, (List.append_nil _).symm, ?_⟩) (if_neg hletter)
    rw [hlook, ← hend]

theorem mask_length (c : Nat) (l : List Nat) (r : Replace) : (mask c l r).length = l.length := List.length_mapIdx

theorem mask_get (c : Nat) (l : List Nat) (r : Replace) (i : Nat) :
    (mask c l r)[i]? = if r.beginIndex ≤ i + 1 ∧ i + 1 ≤ r.endIndex then l[i]?.map (fun _ => c) else l[i]? := by
  unfold mask
  rw [List.getElem?_mapIdx]
  split
  · simp
  · simp

def total (s : Scan) : Nat := s.codeList.length + s.iter.length

theorem turn_total (s : Scan) : total s ≤ total (turn s) ∧ (Overruns s → total s < total (turn s)) := by
  obtain ⟨filter, codeList, words, be, iter⟩ := s
  cases iter with
  | nil => exact ⟨Nat.le_refl _, fun h => absurd h.1 (Nat.not_succ_le_zero 1)⟩
  | cons code iter =>
    obtain ⟨-, hout, hmiss, hfound⟩ := findEnd_reads codeList (code :: iter) filter [] [] none
    unfold turn total Overruns
    simp only
    cases hr : (findEnd codeList filter [] [] none (code :: iter)).replace with
    | none =>
      simp only
      cases hruns : runsOut filter [] (code :: iter) with
      | true =>
        rw [hout hr hruns]
        simp only [List.length_append, List.length_map, List.length_cons, List.length_nil]
        omega
      | false =>
        rw [hmiss hr hruns]
        simp only [List.nil_append, List.map_cons, List.take_succ_cons, List.take_zero, List.length_append,
          List.length_cons,
          List.length_nil]
        exact ⟨by omega, fun h => absurd h.2 Bool.false_ne_true⟩
    | some r =>
      obtain ⟨hno, ⟨a, ha, hlist⟩, hend, -⟩ := hfound r hr
      have hlen := congrArg List.length ha
      rw [List.length_append] at hlen
      have hlist' := congrArg List.length hlist
      simp only [List.length_append, List.length_map, List.length_nil] at hlist'
      rw [hno]
      simp only
      rcases (settle_cases ⟨filter, codeList, words, be, code :: iter⟩ _ r hr hend).2 with ⟨h₁, h₂, -⟩ | ⟨b, h₁, h₂, -⟩
      · rw [h₁, h₂]
        exact ⟨by omega, fun h => absurd h.2 Bool.false_ne_true⟩
      · have hlen' := congrArg List.length h₁
        rw [List.length_append] at hlen'
        rw [h₂, mask_length, List.length_append, List.length_map]
        exact ⟨by omega, fun h => absurd h.2 Bool.false_ne_true⟩

/-- What holds between the turns as long as none of them is bad: the list is the masked beginning of the text. -/
structure InStep (replaceCode : Nat) (text : List Nat) (s : Scan) : Prop where
  code : s.filter.replaceCode = replaceCode
  length : s.codeList.length ≤ text.length
  iter : s.iter.map convertEnLowerCode = text.drop s.codeList.length
  each : ∀ i, i < s.codeList.length → s.codeList[i]? = text[i]? ∨ s.codeList[i]? = some replaceCode ∧
    ∃ word ∈ s.filterWordList, ∃ b, b ≤ i ∧ i < b + word.length ∧ (text.drop b).take word.length = word

theorem InStep.read {replaceCode : Nat} {text : List Nat} {s : Scan} (h : InStep replaceCode text s) {a rest : List Nat}
    (hiter : s.iter = a ++ rest) :
    (s.codeList ++ a.map convertEnLowerCode).length ≤ text.length ∧
      rest.map convertEnLowerCode = text.drop (s.codeList ++ a.map convertEnLowerCode).length ∧
      ∀ i, s.codeList.length ≤ i → i < (s.codeList ++ a.map convertEnLowerCode).length →
        (s.codeList ++ a.map convertEnLowerCode)[i]? = text[i]? := by
  have htext := h.iter
  rw [hiter, List.map_append] at htext
  have hlen := congrArg List.length htext
  rw [List.length_append, List.length_map, List.length_map, List.length_drop] at hlen
  have hle := h.length
  refine ⟨?_, ?_, fun i hi hi' => ?_⟩
  · rw [List.length_append, List.length_map]
    omega
  · have hdrop := congrArg (List.drop a.length) htext
    rw [List.drop_append_of_le_length (by simp), List.drop_eq_nil_of_le (by simp), List.nil_append, List.drop_drop] at hdrop
    rw [hdrop, List.length_append, List.length_map]
  · rw [List.getElem?_append_right hi]
    have hat : (a.map convertEnLowerCode ++ rest.map convertEnLowerCode)[i - s.codeList.length]? =
        (text.drop s.codeList.length)[i - s.codeList.length]? := by rw [htext]
    rw [List.length_append, List.length_map] at hi'
    rw [List.getElem?_append_left (by rw [List.length_map]; omega), List.getElem?_drop] at hat
    rw [hat]
    congr 1
    omega

theorem InStep.mask {replaceCode : Nat} {text : List Nat} {s s' : Scan} (h : InStep replaceCode text s) {a : List Nat}
    {r : Replace} (hiter : s.iter = a ++ s'.iter) (hbegin : s.codeList.length < r.beginIndex)
    (hbegin' : r.beginIndex ≤ (s.codeList ++ a.map convertEnLowerCode).length)
    (hend : r.endIndex = (s.codeList ++ a.map convertEnLowerCode).length) (hcode : s'.filter.replaceCode = replaceCode)
    (hlist : s'.codeList = Filter.mask replaceCode (s.codeList ++ a.map convertEnLowerCode) r)
    (hwords : s'.filterWordList = s.filterWordList ++ [(s.codeList ++ a.map convertEnLowerCode).drop (r.beginIndex - 1)]) :
    InStep replaceCode text s' := by
  obtain ⟨hle, hrest, hsame⟩ := h.read hiter
  have hlen := mask_length replaceCode (s.codeList ++ a.map convertEnLowerCode) r
  generalize hl : s.codeList ++ a.map convertEnLowerCode = l at *
  -- the word is the text from where the place begins
  have hword : (text.drop (r.beginIndex - 1)).take (l.drop (r.beginIndex - 1)).length = l.drop (r.beginIndex - 1) := by
    apply List.ext_getElem?
    intro i
    rw [List.getElem?_take, List.getElem?_drop, List.getElem?_drop, List.length_drop]
    split
    · next hi => exact (hsame _ (by omega) (by omega)).symm
    · next hi => exact (List.getElem?_eq_none (by omega)).symm
  constructor
  · exact hcode
  · rw [hlist, hlen]
    exact hle
  · rw [hlist, hlen]
    exact hrest
  · intro i hi
    rw [hlist, hlen] at hi
    rw [hlist, mask_get, hwords]
    split
    · next hin =>
      refine Or.inr ⟨?_, _, List.mem_append_right _ (List.mem_singleton.2 rfl), r.beginIndex - 1, by omega, ?_, hword⟩
      · rw [List.getElem?_eq_getElem hi]
        rfl
      · rw [List.length_drop]
        omega
    · next hout =>
      by_cases hold : i < s.codeList.length
      · have hget : l[i]? = s.codeList[i]? := by rw [← hl, List.getElem?_append_left hold]
        rw [hget]
        refine (h.each i hold).imp_right (fun ⟨hr, word, hmem, hb⟩ => ?_)
        exact ⟨hr, word, List.mem_append_left _ hmem, hb⟩
      · exact Or.inl (hsame i (Nat.le_of_not_lt hold) hi)

theorem InStep.keep {replaceCode : Nat} {text : List Nat} {s s' : Scan} (h : InStep replaceCode text s) {a : List Nat}
    (hiter : s.iter = a ++ s'.iter) (hcode : s'.filter.replaceCode = replaceCode)
    (hlist : s'.codeList = s.codeList ++ a.map convertEnLowerCode) (hwords : s'.filterWordList = s.filterWordList) :
    InStep replaceCode text s' := by
  obtain ⟨hle, hrest, hsame⟩ := h.read hiter
  constructor
  · exact hcode
  · rw [hlist]
    exact hle
  · rw [hlist]
    exact hrest
  · intro i hi
    rw [hlist] at hi ⊢
    rw [hwords]
    by_cases hold : i < s.codeList.length
    · rw [List.getElem?_append_left hold]
      exact h.each i hold
    · exact Or.inl (hsame i (Nat.le_of_not_lt hold) hi)

theorem InStep.turn {replaceCode : Nat} {text : List Nat} {s : Scan} (h : InStep replaceCode text s) (hs : ¬ Overruns s) :
    InStep replaceCode text (turn s) := by
  obtain ⟨filter, codeList, words, be, iter⟩ := s
  cases iter with
  | nil => exact h
  | cons code iter =>
    obtain ⟨hcode, hout, hmiss, hfound⟩ := findEnd_reads codeList (code :: iter) filter [] [] none
    have hcode := hcode.trans h.code
    unfold Filter.turn
    simp only
    cases hr : (findEnd codeList filter [] [] none (code :: iter)).replace with
    | none =>
      refine h.keep (a := [code]) rfl hcode ?_ rfl
      show (findEnd codeList filter [] [] none (code :: iter)).codeList = codeList ++ [code].map convertEnLowerCode
      cases hruns : runsOut filter [] (code :: iter) with
      | false => exact hmiss hr hruns
      | true =>
        have hone : iter = [] := by
          cases iter with
          | nil => rfl
          | cons c iter => exact absurd ⟨by simp, hruns⟩ hs
        rw [hout hr hruns, hone, List.append_nil]
    | some r =>
      obtain ⟨-, ⟨a, ha, hlist⟩, hend, hb⟩ := hfound r hr
      obtain ⟨hbegin, hbegin'⟩ := hb (fun i h => by cases h)
      rw [List.append_nil] at hlist
      rw [hend, hlist] at hbegin'
      obtain ⟨hcode', ⟨h₁, h₂, h₃⟩ | ⟨b, h₁, h₂, h₃⟩⟩ :=
        settle_cases ⟨filter, codeList, words, be, code :: iter⟩ _ r hr hend
      · exact h.keep (a := a) (by rw [h₂]; exact ha) (hcode'.trans hcode) (by rw [h₁]; exact hlist) h₃
      · have hsplit : code :: iter = (a ++ b) ++ (settle ⟨filter, codeList, words, be, code :: iter⟩
            (findEnd codeList filter [] [] none (code :: iter)) r).iter := by
          rw [List.append_assoc, ← h₁]
          exact ha
        rw [hlist, List.append_assoc, ← List.map_append] at h₂ h₃
        rw [hcode] at h₂
        refine h.mask (a := a ++ b)
          (r := ⟨r.beginIndex, (codeList ++ (a ++ b).map convertEnLowerCode).length, r.level⟩) hsplit hbegin ?_ rfl
            (hcode'.trans hcode) h₂ h₃
        refine Nat.le_trans hbegin' ?_
        rw [List.map_append, ← List.append_assoc]
        exact Nat.le_trans (Nat.le_add_right _ _) (Nat.le_of_eq List.length_append.symm)

theorem turns_inStep {replaceCode : Nat} {text : List Nat} {s : Scan} (h : InStep replaceCode text s)
    (hs : ∀ k, ¬ Overruns (Filter.turn^[k] s)) : ∀ k, InStep replaceCode text (Filter.turn^[k] s)
  | 0 => h
  | k + 1 => by
    rw [Function.iterate_succ_apply']
    exact (turns_inStep h hs k).turn (hs k)

theorem turns_iter (s : Scan) : ∀ k, (turn^[k] s).iter.length ≤ s.iter.length - k
  | 0 => Nat.le_refl _
  | k + 1 => by
    rw [Function.iterate_succ_apply']
    have hle := turns_iter s k
    by_cases hnil : (turn^[k] s).iter = []
    · rw [turn_nil hnil, hnil]
      exact Nat.zero_le _
    · have := turn_iter hnil
      omega

theorem turns_total (s : Scan) (j : Nat) : ∀ k, total (turn^[j] s) ≤ total (turn^[j + k] s)
  | 0 => Nat.le_refl _
  | k + 1 => by
    rw [← Nat.add_assoc, Function.iterate_succ_apply']
    exact Nat.le_trans (turns_total s j k) (turn_total _).1

/-- **What comes out is the text with its words masked if and only if no turn reads on to the end of the text.** -/
theorem masks_of_doFilter (f : Filter) (text : List Nat) {out : List Nat} {words : List (List Nat)}
    (h : (f.doFilter text).2 = some (out, words)) :
    Masks f.replaceCode (text.map convertEnLowerCode) out words ↔ ∀ k, ¬ Overruns (turn^[k] (start f text)) := by
  have hloop : loop (start f text) = turn^[text.length] (start f text) := loop_eq _ _ (Nat.le_refl _)
  have hend : (loop (start f text)).codeList = out ∧ (loop (start f text)).filterWordList = words := by
    unfold doFilter at h
    simp only at h
    split at h
    · exact Prod.mk.inj (Option.some.inj h)
    · cases h
  rw [← hend.1, ← hend.2]
  have hnil : ∀ k, text.length ≤ k → (turn^[k] (start f text)).iter = [] := by
    intro k hk
    have hle := turns_iter (start f text) k
    exact List.eq_nil_of_length_eq_zero (Nat.le_zero.1 (Nat.le_trans hle (Nat.le_of_eq (Nat.sub_eq_zero_of_le hk))))
  constructor
  · intro hmasks k hover
    have hlate : loop (start f text) = turn^[k + 1 + text.length] (start f text) :=
      loop_eq _ _ (Nat.le_add_left text.length (k + 1))
    have hlen := hmasks.length
    rw [List.length_map, hlate] at hlen
    have hfirst := turns_total (start f text) 0 k
    have hbad := (turn_total _).2 hover
    have hlast := turns_total (start f text) (k + 1) text.length
    rw [Nat.zero_add] at hfirst
    rw [Function.iterate_succ_apply'] at hlast
    have htotal : total (turn^[k + 1 + text.length] (start f text)) = text.length := by
      unfold total
      rw [hlen, hnil _ (Nat.le_add_left text.length (k + 1))]
      rfl
    have hstart : total (turn^[0] (start f text)) = text.length := Nat.zero_add _
    omega
  · intro hclean
    have h₀ : InStep f.replaceCode (text.map convertEnLowerCode) (start f text) :=
      ⟨rfl, Nat.zero_le _, rfl, fun i hi => absurd hi (Nat.not_lt_zero i)⟩
    have hin := turns_inStep h₀ hclean text.length
    rw [← hloop] at hin
    have hiter := hin.iter
    rw [hloop, hnil _ (Nat.le_refl _), ← hloop] at hiter
    have hlen : (loop (start f text)).codeList.length = (text.map convertEnLowerCode).length :=
      Nat.le_antisymm hin.length (List.drop_eq_nil_iff.1 hiter.symm)
    exact ⟨hlen, fun i hi => hin.each i (hlen ▸ hi)⟩

def twoWords : Filter := (ctor 42 [32]).init [[1], [2, 3, 4]] false

theorem masks_of_doFilter_one : Masks 42 ([1, 2].map convertEnLowerCode) [42, 2] [[1]] ↔
    ∀ k, ¬ Overruns (turn^[k] (start twoWords [1, 2])) :=
  masks_of_doFilter twoWords [1, 2] (by decide +kernel)

/-- The text ends within the second word: its last code point comes out twice. -/
theorem tail_repeated : (twoWords.doFilter [1, 2, 3]).2 = some ([42, 2, 3, 3], [[1]]) ∧
    ¬ Masks 42 ([1, 2, 3].map convertEnLowerCode) [42, 2, 3, 3] [[1]] :=
  ⟨by decide +kernel, fun h => absurd h.length (by decide)⟩

end Filter
end WordFilter
end Sncpp
