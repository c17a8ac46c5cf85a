import Sncpp.WordFilterAgree
/-!
# WordFilterAdd — words that are added and deleted (`WordFilter:addFilterWord`, `delFilterWord`)

Both walk along the levels that the lower-case code points of a word lead to, whatever case those on its iterator have.  A
query changes a filter only by unfolding levels along lower-case code points, so what every such unfolding keeps, any
queries keep (`Stable.asked`).
-/
namespace Sncpp
namespace WordFilter

def Lower (codes : List Nat) : Prop := ∀ c ∈ codes, convertEnLowerCode c = c

instance (codes : List Nat) : Decidable (Lower codes) := inferInstanceAs (Decidable (∀ c ∈ codes, _))

theorem lower_nil : Lower [] := fun _ h => by cases h

theorem convertEnLowerCode_idem (code : Nat) : convertEnLowerCode (convertEnLowerCode code) = convertEnLowerCode code := by
  unfold convertEnLowerCode
  split
  · next h =>
    rw [Bool.and_eq_true, decide_eq_true_eq, decide_eq_true_eq] at h
    rw [if_neg]
    simp only [Bool.and_eq_true, decide_eq_true_eq]
    omega
  · rfl

theorem Lower.cons {path : List Nat} (h : Lower path) (code : Nat) : Lower (convertEnLowerCode code :: path) := by
  intro c hc
  rcases List.mem_cons.1 hc with rfl | hc
  · exact convertEnLowerCode_idem code
  · exact h c hc

namespace Filter

variable (f : Filter)

/-- A level is unfolded, also where it has been before (`unfoldLevel` with `isAdd`). -/
def unfoldLevelAdd (path : List Nat) : Filter :=
  match f.level path with
  | none => f
  | some level =>
    (level.iters.foldl (unfoldIter path) f).modify path (fun level => { level with isInit := true, iters := [] })

/-- What the loop of `addFilterWord` makes of a code point: the filter, and the current level. -/
def addCode (s : Filter × List Nat) (code : Nat) : Filter × List Nat :=
  if s.1.ignores code then s
  else
    let path := convertEnLowerCode code :: s.2
    if (s.1.level path).isSome then (s.1.unfoldLevelAdd path, path) else s

def addFilterWord (words : List Nat) (removeIgnoreWords : Bool) : Filter :=
  (words.foldl addCode (f.init [words] removeIgnoreWords, [])).1

/-- The state of the loop of `delFilterWord`. -/
structure Deleting where
  filter : Filter
  currLevel : List Nat
  notFind : Bool

def delCode (s : Deleting) (code : Nat) : Deleting :=
  if s.filter.ignores code then s
  else
    let path := convertEnLowerCode code :: s.currLevel
    if (s.filter.level path).isSome then ⟨s.filter.unfoldLevel path, path, s.notFind⟩ else { s with notFind := true }

def delFilterWord (words : List Nat) : Filter :=
  let s := words.foldl delCode ⟨f, [], false⟩
  if s.notFind then s.filter else s.filter.modify s.currLevel (fun level => { level with isEnd := false })

inductive Query where
  | doFilter (words : List Nat)
  | isFilter (words : List Nat)

def ask : Query → Filter
  | .doFilter words => (f.doFilter words).1
  | .isFilter words => (f.isFilter words).1

/-- **The filter as it was filled, after any queries.** -/
def asked (replaceCode : Nat) (ignoreCode : List Nat) (list : List (List Nat)) (removeIgnoreWords : Bool)
    (queries : List Query) : Filter :=
  queries.foldl ask ((ctor replaceCode ignoreCode).init list removeIgnoreWords)

/-- **Unfolding a level along lower-case code points keeps it.** -/
def Stable (I : Filter → Prop) : Prop := ∀ f path, path ≠ [] → Lower path → I f → I (f.unfoldLevel path)

variable {f} {I : Filter → Prop}

theorem Stable.findEnd (hI : Stable I) (codeList : List Nat) : ∀ (iter : List Nat) {f : Filter}, I f →
    ∀ (path tempList : List Nat) (b : Option Nat), Lower path →
    I (findEnd codeList f path tempList b iter).filter ∧
      ∀ r, (findEnd codeList f path tempList b iter).replace = some r → Lower r.level
  | [], _, h, _, _, _, _ => ⟨h, fun _ hr => by cases hr⟩
  | code :: iter, f, h, path, tempList, b, hlow => by
    have hu := hI f _ (List.cons_ne_nil _ _) (hlow.cons code) h
    unfold Filter.findEnd
    simp only
    split
    · exact hI.findEnd codeList iter h _ _ _ hlow
    split
    · exact ⟨hu, fun _ hr => by cases hr⟩
    split
    · refine ⟨hu, fun r hr => ?_⟩
      cases hr
      exact hlow.cons code
    · exact hI.findEnd codeList iter hu _ _ _ (hlow.cons code)

theorem Stable.findReplace (hI : Stable I) : ∀ (iter : List Nat) {f : Filter}, I f → ∀ (codeList : List Nat),
    I (findReplace f codeList iter).filter ∧ ∀ r, (findReplace f codeList iter).replace = some r → Lower r.level
  | [], _, h, _ => ⟨h, fun _ hr => by cases hr⟩
  | code :: iter, f, h, codeList => by
    have hfind := hI.findEnd codeList (code :: iter) h [] [] none lower_nil
    unfold Filter.findReplace
    simp only
    split
    · exact hfind
    · exact hI.findReplace iter hfind.1 _

theorem Stable.stretch (hI : Stable I) : ∀ (iter : List Nat) {f : Filter}, I f →
    ∀ (current next : Option (List Nat)) (tempList : List Nat) (new : Bool), (∀ p, current = some p → Lower p) →
    I (stretch f current next tempList new iter).filter
  | [], _, h, _, _, _, _, _ => h
  | code :: iter, f, h, current, next, tempList, new, hlow => by
    unfold Filter.stretch
    simp only
    split
    · exact h
    split
    · next path hletter =>
      have hlow' := (hlow path rfl).cons code
      refine hI.stretch iter (hI f _ (List.cons_ne_nil _ _) hlow' h) _ _ _ _ (fun p hp => ?_)
      split at hp
      · rw [← Option.some.inj hp]
        exact hlow'
      · cases hp
    · exact h

theorem Stable.replaceLetters (hI : Stable I) (h : I f) (codeList : List Nat) {r : Replace} (hr : Lower r.level)
    (iter : List Nat) : I (replaceLetters f codeList r iter).filter := by
  have hstretch := hI.stretch iter h (some r.level) none [] false (fun p hp => by
    rw [← Option.some.inj hp]
    exact hr)
  unfold Filter.replaceLetters
  split
  · exact h
  simp only
  split
  · exact hstretch
  split <;> exact hstretch

theorem Stable.settle (hI : Stable I) (s : Scan) {look : Look} (h : I look.filter) {r : Replace} (hr : Lower r.level) :
    I (settle s look r).filter := by
  have hletters := hI.replaceLetters h look.codeList hr look.iter
  unfold Filter.settle
  split
  · simp only
    split <;> exact hletters
  · simp only
    split <;> exact h

theorem Stable.turn (hI : Stable I) {s : Scan} (h : I s.filter) : I (turn s).filter := by
  unfold Filter.turn
  split
  · exact h
  next code iter _ =>
    obtain ⟨hfind, hlow⟩ := hI.findEnd s.codeList (code :: iter) h [] [] none lower_nil
    simp only
    split
    · exact hfind
    · next r hr => exact hI.settle s hfind (hlow r hr)

theorem Stable.doFilter (hI : Stable I) (h : I f) (text : List Nat) : I (f.doFilter text).1 := by
  have hturns : ∀ k, I (Filter.turn^[k] (start f text)).filter := by
    intro k
    induction k with
    | zero => exact h
    | succ k ih =>
      rw [Function.iterate_succ_apply']
      exact hI.turn ih
  have hloop : (f.doFilter text).1 = (Filter.turn^[text.length] (start f text)).filter :=
    congrArg Scan.filter (loop_eq _ _ (Nat.le_refl _))
  rw [hloop]
  exact hturns text.length

theorem Stable.isFilterLoop (hI : Stable I) : ∀ (m : Nat) (iter : List Nat), iter.length ≤ m → ∀ {f : Filter}, I f →
    ∀ (codeList : List Nat), I (isFilterLoop f codeList iter).1 := by
  intro m
  induction m with
  | zero =>
    intro iter hm f h codeList
    obtain rfl : iter = [] := List.eq_nil_of_length_eq_zero (Nat.le_zero.1 hm)
    rw [Filter.isFilterLoop]
    exact h
  | succ m ih =>
    intro iter hm f h codeList
    obtain ⟨hfirst, hlow⟩ := hI.findReplace iter h codeList
    have hsecond := (hI.findReplace (Filter.findReplace f codeList iter).iter hfirst
      (Filter.findReplace f codeList iter).codeList).1
    rw [Filter.isFilterLoop]
    split
    · exact hsecond
    · next r hr =>
      have hshort := findReplace_iter iter f codeList hr
      have hle := findReplace_le (Filter.findReplace f codeList iter).iter (Filter.findReplace f codeList iter).filter
        (Filter.findReplace f codeList iter).codeList
      generalize Filter.findReplace (Filter.findReplace f codeList iter).filter
        (Filter.findReplace f codeList iter).codeList
        (Filter.findReplace f codeList iter).iter = next at *
      have hjudge := judge_iter next.filter next.codeList r next.iter
      have hkept : I (judge next.filter next.codeList r next.iter).filter := by
        unfold judge
        split
        · exact hI.replaceLetters hsecond _ (hlow r hr) _
        · exact hsecond
      simp only
      split
      · exact hkept
      · exact ih _ (by omega) hkept _

theorem Stable.asked (hI : Stable I) (queries : List Query) (h : I f) : I (queries.foldl ask f) := by
  refine Steps.inv_of_run (fun f query hf => ?_) queries f h
  cases query with
  | doFilter words => exact hI.doFilter hf words
  | isFilter words => exact hI.isFilterLoop words.length words (Nat.le_refl _) hf []

end Filter
end WordFilter
end Sncpp
