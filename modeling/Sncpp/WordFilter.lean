import Mathlib.Logic.Function.Basic
/-!
# WordFilter — the filter of sensitive words

`WordFilter.lua` of the global server.  The words stand in a trie whose levels are unfolded only when a text comes to
them: a level has the iterators of the words that lead through it, and unfolding it moves each of them on by one code
point.  A text is read by copied iterators; what has been read is put on a list of code points, and of a word that is
found each code point is replaced in that list.
-/
namespace Sncpp
namespace WordFilter

structure Level where
  isInit : Bool
  isEnd : Bool
  iters : List (List Nat)

def Level.new : Level := ⟨false, false, []⟩

structure Filter where
  ignoreCode : List Nat
  replaceCode : Nat
  level : List Nat → Option Level

/-- A place that was found: where it begins and ends in the list, and the level it ends at. -/
structure Replace where
  beginIndex : Nat
  endIndex : Nat
  level : List Nat

/-- What looking for a word leaves: the filter, the list, the place if there is one, and the iterator. -/
structure Look where
  filter : Filter
  codeList : List Nat
  replace : Option Replace
  iter : List Nat

def letterArea : List (Nat × Nat) := [(65, 90), (97, 122), (126, 687), (880, 1791), (3584, 3711)]

def isLetter (code : Nat) : Bool := letterArea.any (fun r => r.1 ≤ code && code ≤ r.2)

def convertEnLowerCode (code : Nat) : Nat := if 65 ≤ code && code ≤ 90 then code + 32 else code

def at? (codeList : List Nat) (index : Nat) : Option Nat := if index = 0 then none else codeList[index - 1]?

def isLetterAt (codeList : List Nat) (index : Nat) : Bool := (at? codeList index).any isLetter

namespace Filter

variable (f : Filter)

def ctor (replaceCode : Nat) (ignoreWords : List Nat) : Filter :=
  ⟨ignoreWords, replaceCode, Function.update (fun _ => none) [] (some Level.new)⟩

def ignores (code : Nat) : Bool := f.ignoreCode.contains code

def modify (path : List Nat) (g : Level → Level) : Filter :=
  { f with level := Function.update f.level path ((f.level path).map g) }

def isEnd (path : List Nat) : Bool := (f.level path).any Level.isEnd

/-- An iterator that has given `code` goes to the next level, which is made if it is not there. -/
def push (path : List Nat) (code : Nat) (iter : List Nat) : Filter :=
  let next := (f.level (code :: path)).getD Level.new
  { f with level := Function.update f.level (code :: path) (some { next with iters := next.iters ++ [iter] }) }

def initWord (removeIgnoreWords : Bool) (f : Filter) (words : List Nat) : Filter :=
  match if removeIgnoreWords then words.filter (fun code => !f.ignores code) else words with
  | [] => f
  | code :: iter => f.push [] code iter

def init (list : List (List Nat)) (removeIgnoreWords : Bool) : Filter :=
  (list.foldl (initWord removeIgnoreWords) f).modify [] (fun level => { level with isInit := true })

def unfoldIter (path : List Nat) (f : Filter) (iter : List Nat) : Filter :=
  match iter with
  | code :: iter => f.push path code iter
  | [] => f.modify path (fun level => { level with isEnd := true })

def unfoldLevel (path : List Nat) : Filter :=
  match f.level path with
  | none => f
  | some level =>
    if level.isInit then f
    else (level.iters.foldl (unfoldIter path) f).modify path (fun level => { level with isInit := true, iters := [] })

/-- The end of a word is looked for, from the level at `path` on. -/
def findEnd (codeList : List Nat) : Filter → List Nat → List Nat → Option Nat → List Nat → Look
  | f, _, tempList, _, [] => ⟨f, codeList ++ tempList, none, []⟩
  | f, path, tempList, beginIndex, code :: iter =>
    let code := convertEnLowerCode code
    let tempList := tempList ++ [code]
    if f.ignores code then findEnd codeList f path tempList beginIndex iter
    else
      let beginIndex := beginIndex.getD (codeList.length + tempList.length)
      let f := f.unfoldLevel (code :: path)
      if (f.level (code :: path)).isNone then ⟨f, codeList ++ tempList.take 1, none, iter⟩
      else if f.isEnd (code :: path) then
        let codeList := codeList ++ tempList
        ⟨f, codeList, some ⟨beginIndex, codeList.length, code :: path⟩, iter⟩
      else findEnd codeList f (code :: path) tempList (some beginIndex) iter

def findReplace : Filter → List Nat → List Nat → Look
  | f, codeList, [] => ⟨f, codeList, none, []⟩
  | f, codeList, code :: iter =>
    let look := findEnd codeList f [] [] none (code :: iter)
    match look.replace with
    | some _ => look
    | none => findReplace look.filter look.codeList iter

/-- What going on over letters leaves: the filter, the last level, the code points read, whether a letter was among them,
and the iterator. -/
structure Stretch where
  filter : Filter
  next : Option (List Nat)
  tempList : List Nat
  hasNewLetter : Bool
  iter : List Nat

def stretch : Filter → Option (List Nat) → Option (List Nat) → List Nat → Bool → List Nat → Stretch
  | f, _, next, tempList, new, [] => ⟨f, next, tempList, new, []⟩
  | f, current, next, tempList, new, code :: iter =>
    let code := convertEnLowerCode code
    let tempList := tempList ++ [code]
    match current with
    | none => ⟨f, next, tempList, new, iter⟩
    | some path =>
      if isLetter code then
        let next := if (f.level (code :: path)).isSome then some (code :: path) else none
        stretch (f.unfoldLevel (code :: path)) next next tempList true iter
      else ⟨f, next, tempList, new, iter⟩

/-- A word that ends with a letter counts if no letter stands before it, and either none after it or the letters after it
belong to a word as well. -/
def replaceLetters (f : Filter) (codeList : List Nat) (replace : Replace) (iter : List Nat) : Look :=
  if isLetterAt codeList (replace.beginIndex - 1) then ⟨f, codeList, none, iter⟩
  else
    let s := stretch f (some replace.level) none [] false iter
    if s.next.any s.filter.isEnd then
      let codeList := codeList ++ s.tempList
      ⟨s.filter, codeList, some { replace with endIndex := codeList.length }, s.iter⟩
    else if s.hasNewLetter then ⟨s.filter, codeList, none, iter⟩
    else ⟨s.filter, codeList, some replace, iter⟩

/-- The state of the loop of `doFilter`. -/
structure Scan where
  filter : Filter
  codeList : List Nat
  filterWordList : List (List Nat)
  beReplaced : Bool
  iter : List Nat

def mask (replaceCode : Nat) (codeList : List Nat) (r : Replace) : List Nat :=
  codeList.mapIdx (fun i code => if r.beginIndex ≤ i + 1 ∧ i + 1 ≤ r.endIndex then replaceCode else code)

/-- The body of the loop of `doFilter`, at a place that was found. -/
def settle (s : Scan) (look : Look) (replace : Replace) : Scan :=
  let look :=
    if isLetterAt look.codeList replace.endIndex then replaceLetters look.filter look.codeList replace look.iter else look
  match look.replace with
  | none => ⟨look.filter, look.codeList, s.filterWordList, s.beReplaced, look.iter⟩
  | some r =>
    ⟨look.filter, mask look.filter.replaceCode look.codeList r,
      s.filterWordList ++ [(look.codeList.take r.endIndex).drop (r.beginIndex - 1)], true, look.iter⟩

theorem findEnd_iter (codeList : List Nat) : ∀ (iter : List Nat) (f : Filter) (path tempList : List Nat) (b : Option Nat),
    (findEnd codeList f path tempList b iter).iter.length ≤ iter.length ∧
      (iter ≠ [] → (findEnd codeList f path tempList b iter).iter.length < iter.length)
  | [], _, _, _, _ => ⟨Nat.le_refl _, fun h => absurd rfl h⟩
  | code :: iter, f, path, tempList, b => by
    unfold findEnd
    simp only
    rw [List.length_cons]
    split
    · exact ⟨Nat.le_trans (findEnd_iter codeList iter _ _ _ _).1 (Nat.le_succ _),
        fun _ => Nat.lt_succ_of_le (findEnd_iter codeList iter _ _ _ _).1⟩
    split
    · exact ⟨Nat.le_succ _, fun _ => Nat.lt_succ_self _⟩
    split
    · exact ⟨Nat.le_succ _, fun _ => Nat.lt_succ_self _⟩
    · exact ⟨Nat.le_trans (findEnd_iter codeList iter _ _ _ _).1 (Nat.le_succ _),
        fun _ => Nat.lt_succ_of_le (findEnd_iter codeList iter _ _ _ _).1⟩

theorem findReplace_iter : ∀ (iter : List Nat) (f : Filter) (codeList : List Nat) {r : Replace},
    (findReplace f codeList iter).replace = some r → (findReplace f codeList iter).iter.length < iter.length
  | [], _, _, _, h => by cases h
  | code :: iter, f, codeList, r, h => by
    unfold findReplace at h ⊢
    cases hreplace : (findEnd codeList f [] [] none (code :: iter)).replace with
    | some r' =>
      simp only [hreplace]
      exact (findEnd_iter codeList (code :: iter) f [] [] none).2 (List.cons_ne_nil _ _)
    | none =>
      simp only [hreplace] at h ⊢
      exact Nat.lt_trans (findReplace_iter iter _ _ h) (Nat.lt_succ_self _)

theorem stretch_iter : ∀ (iter : List Nat) (f : Filter) (current next : Option (List Nat))
    (tempList : List Nat) (new : Bool),
    (stretch f current next tempList new iter).iter.length ≤ iter.length
  | [], _, _, _, _, _ => Nat.le_refl _
  | code :: iter, f, current, next, tempList, new => by
    unfold stretch
    simp only
    split
    · exact Nat.le_succ _
    split
    · exact Nat.le_trans (stretch_iter iter _ _ _ _ _) (Nat.le_succ _)
    · exact Nat.le_succ _

theorem settle_iter (s : Scan) (look : Look) (r : Replace) : (settle s look r).iter.length ≤ look.iter.length := by
  have hlook : (if isLetterAt look.codeList r.endIndex then replaceLetters look.filter look.codeList r look.iter
      else look).iter.length ≤ look.iter.length := by
    split
    · unfold replaceLetters
      split
      · exact Nat.le_refl _
      simp only
      split
      · exact stretch_iter _ _ _ _ _ _
      split
      · exact Nat.le_refl _
      · exact Nat.le_refl _
    · exact Nat.le_refl _
  unfold settle
  simp only
  split <;> exact hlook

def loop (s : Scan) : Scan :=
  let look := findReplace s.filter s.codeList s.iter
  match _h : look.replace with
  | none => { s with filter := look.filter, codeList := look.codeList, iter := [] }
  | some replace => loop (settle s look replace)
termination_by s.iter.length
decreasing_by exact Nat.lt_of_le_of_lt (settle_iter s _ _) (findReplace_iter s.iter s.filter s.codeList _h)

def start (f : Filter) (words : List Nat) : Scan := ⟨f, [], [], false, words⟩

/-- The filtered text and the words that were found in it, if there are any. -/
def doFilter (words : List Nat) : Filter × Option (List Nat × List (List Nat)) :=
  let s := loop (start f words)
  (s.filter, if s.beReplaced then some (s.codeList, s.filterWordList) else none)

end Filter
end WordFilter
end Sncpp
