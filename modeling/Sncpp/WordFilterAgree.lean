import Sncpp.WordFilterWords
/-!
# WordFilterAgree — the two entry points of the filter (`WordFilter:isFilter`, `doFilter`)

`doFilter` looks at the places at which a word is found, one after another, and a place that ends with a letter counts
only where its letters do not go on into what is no word.  `isFilter` looks for the next place before it looks at a
place: it passes over every other one, and what follows a place is for it what follows the next.
-/
namespace Sncpp
namespace WordFilter
namespace Filter

theorem findReplace_le : ∀ (iter : List Nat) (f : Filter) (codeList : List Nat),
    (findReplace f codeList iter).iter.length ≤ iter.length
  | [], _, _ => Nat.le_refl _
  | code :: iter, f, codeList => by
    unfold findReplace
    simp only
    split
    · exact (findEnd_iter codeList (code :: iter) f [] [] none).1
    · exact Nat.le_trans (findReplace_le iter _ _) (Nat.le_succ _)

theorem replaceLetters_iter (f : Filter) (codeList : List Nat) (r : Replace) (iter : List Nat) :
    (replaceLetters f codeList r iter).iter.length ≤ iter.length := by
  unfold replaceLetters
  split
  · exact Nat.le_refl _
  simp only
  split
  · exact stretch_iter _ _ _ _ _ _
  split <;> exact Nat.le_refl _

def judge (f : Filter) (codeList : List Nat) (replace : Replace) (iter : List Nat) : Look :=
  if isLetterAt codeList replace.endIndex then replaceLetters f codeList replace iter
  else ⟨f, codeList, some replace, iter⟩

theorem judge_iter (f : Filter) (codeList : List Nat) (r : Replace) (iter : List Nat) :
    (judge f codeList r iter).iter.length ≤ iter.length := by
  unfold judge
  split
  · exact replaceLetters_iter f codeList r iter
  · exact Nat.le_refl _

def isFilterLoop (f : Filter) (codeList iter : List Nat) : Filter × Bool :=
  let look := findReplace f codeList iter
  let nextLook := findReplace look.filter look.codeList look.iter
  match _h : look.replace with
  | none => (nextLook.filter, false)
  | some replace =>
    let judged := judge nextLook.filter nextLook.codeList replace nextLook.iter
    match judged.replace with
    | some _ => (judged.filter, true)
    | none => isFilterLoop judged.filter judged.codeList judged.iter
termination_by iter.length
decreasing_by
  exact Nat.lt_of_le_of_lt (Nat.le_trans (judge_iter _ _ _ _) (findReplace_le _ _ _)) (findReplace_iter iter f codeList _h)

def isFilter (f : Filter) (words : List Nat) : Filter × Bool := isFilterLoop f [] words

/-- Where a word is found: what is on the list then, the place, and what is still to be read. -/
structure Place where
  codeList : List Nat
  replace : Replace
  iter : List Nat

def places (f : Filter) (codeList iter : List Nat) : List Place :=
  let look := findReplace f codeList iter
  match _h : look.replace with
  | none => []
  | some replace => ⟨look.codeList, replace, look.iter⟩ :: places look.filter look.codeList look.iter
termination_by iter.length
decreasing_by exact findReplace_iter iter f codeList _h

def letters (iter : List Nat) : List Nat := (iter.map convertEnLowerCode).takeWhile isLetter

/-- **A place counts**, if `iter` is what follows it: it does not end with a letter, or there is none before it and those
that follow, if any, end a word. -/
def Place.Counts (W : List (List Nat)) (p : Place) (iter : List Nat) : Prop :=
  isLetterAt p.codeList p.replace.endIndex = true → isLetterAt p.codeList (p.replace.beginIndex - 1) = false ∧
    (letters iter = [] ∨ p.replace.level.reverse ++ letters iter ∈ W)

instance (W : List (List Nat)) (p : Place) (iter : List Nat) : Decidable (p.Counts W iter) :=
  inferInstanceAs (Decidable (_ → _))

def everyOther : List Place → List (Place × List Nat)
  | [] => []
  | [p] => [(p, [])]
  | p :: next :: rest => (p, next.iter) :: everyOther rest

/-- **Some place counts by what follows it if and only if one of odd number does by what follows the next.** -/
def Agrees (W : List (List Nat)) (ps : List Place) : Prop :=
  (∃ p ∈ everyOther ps, p.1.Counts W p.2) ↔ ∃ p ∈ ps, p.Counts W p.iter

instance (W : List (List Nat)) (ps : List Place) : Decidable (Agrees W ps) := inferInstanceAs (Decidable (_ ↔ _))

theorem letters_cons {code : Nat} (iter : List Nat) (h : isLetter (convertEnLowerCode code) = true) :
    letters (code :: iter) = convertEnLowerCode code :: letters iter := by
  unfold letters
  rw [List.map_cons, List.takeWhile_cons_of_pos h]

theorem letters_other {code : Nat} (iter : List Nat) (h : ¬isLetter (convertEnLowerCode code) = true) :
    letters (code :: iter) = [] := by
  unfold letters
  rw [List.map_cons, List.takeWhile_cons_of_neg h]

theorem stretch_none (f : Filter) (tempList : List Nat) (iter : List Nat) :
    (stretch f none none tempList true iter).next = none ∧ (stretch f none none tempList true iter).hasNewLetter =
      true := by
  cases iter <;> exact ⟨rfl, rfl⟩

theorem stretch_letters {W : List (List Nat)} : ∀ (iter : List Nat) {f : Filter}, Trie W f → ∀ (path : List Nat),
    f.Opened path → ∀ (next : Option (List Nat)) (tempList : List Nat) (new : Bool),
    (letters iter = [] → (stretch f (some path) next tempList new iter).filter = f ∧
      (stretch f (some path) next tempList new iter).next = next ∧
        (stretch f (some path) next tempList new iter).hasNewLetter = new) ∧
    (letters iter ≠ [] → (stretch f (some path) next tempList new iter).hasNewLetter = true ∧
      ((stretch f (some path) next tempList new iter).next.any (stretch f (some path) next tempList new iter).filter.isEnd =
        true ↔ path.reverse ++ letters iter ∈ W))
  | [], _, _, _, _, _, _, _ => ⟨fun _ => ⟨rfl, rfl, rfl⟩, fun h => absurd rfl h⟩
  | code :: iter, f, h, path, hopen, next, tempList, new => by
    unfold stretch
    simp only
    by_cases hletter : isLetter (convertEnLowerCode code) = true
    · rw [if_pos hletter, letters_cons iter hletter]
      refine ⟨fun hnil => absurd hnil (List.cons_ne_nil _ _), fun _ => ?_⟩
      have hthere := (h.unfoldLevel (List.cons_ne_nil (convertEnLowerCode code) path)).there
      have hkept := h.unfoldLevel_kept (convertEnLowerCode code) path
      have hlook := h.look hopen (convertEnLowerCode code)
      rw [← hthere]
      generalize f.unfoldLevel (convertEnLowerCode code :: path) = f' at hkept hlook ⊢
      have happend : path.reverse ++ convertEnLowerCode code :: letters iter =
          (convertEnLowerCode code :: path).reverse ++ letters iter := by
        rw [List.reverse_cons, List.append_assoc, List.singleton_append]
      rcases hlook with ⟨hno, hleads⟩ | ⟨hyes, -, hopen', hend⟩
      · rw [if_neg (by rw [Option.isNone_iff_eq_none.1 hno]; decide)]
        obtain ⟨hnext, hnew⟩ := stretch_none f' (tempList ++ [convertEnLowerCode code]) iter
        refine ⟨hnew, ?_⟩
        rw [hnext, happend]
        exact ⟨fun hany => absurd hany Bool.false_ne_true, fun hw => absurd ⟨_, hw, List.prefix_append _ _⟩ hleads⟩
      · rw [if_pos (by rw [← Option.not_isNone, hyes]; rfl), happend]
        obtain ⟨hstop, hgo⟩ := stretch_letters iter hkept.trie (convertEnLowerCode code :: path) hopen'
          (some (convertEnLowerCode code :: path)) (tempList ++ [convertEnLowerCode code]) true
        by_cases hrest : letters iter = []
        · obtain ⟨hfilter, hnext, hnew⟩ := hstop hrest
          rw [hfilter, hnext, hnew, hrest, List.append_nil]
          exact ⟨rfl, hend⟩
        · exact hgo hrest
    · rw [if_neg hletter, letters_other iter hletter]
      exact ⟨fun _ => ⟨rfl, rfl, rfl⟩, fun hne => absurd rfl hne⟩

theorem judge_iff {W : List (List Nat)} {f : Filter} (h : Trie W f) (codeList : List Nat) {r : Replace}
    (hopen : f.Opened r.level) (iter : List Nat) (rest : List Nat) :
    (judge f codeList r iter).replace.isSome = true ↔ Place.Counts W ⟨codeList, r, rest⟩ iter := by
  obtain ⟨hstop, hgo⟩ := stretch_letters iter h r.level hopen none [] false
  unfold judge Place.Counts
  split
  · next hend =>
    rw [forall_prop_of_true hend]
    unfold replaceLetters
    split
    · next hbefore => simp [hbefore]
    · next hbefore =>
      rw [Bool.not_eq_true] at hbefore
      simp only [hbefore, true_and]
      by_cases hnone : letters iter = []
      · obtain ⟨-, hnext, hnew⟩ := hstop hnone
        simp [hnext, hnew, hnone]
      · obtain ⟨hnew, hword⟩ := hgo hnone
        rw [← hword]
        by_cases hany : (stretch f (some r.level) none [] false iter).next.any
          (stretch f (some r.level) none [] false iter).filter.isEnd = true
        · simp [hany, hnone]
        · simp [hany, hnew, hnone]
  · next hend => simp [hend]

theorem judge_none {f : Filter} {codeList iter : List Nat} {r : Replace} (h : (judge f codeList r iter).replace = none) :
    (judge f codeList r iter).codeList = codeList ∧ (judge f codeList r iter).iter = iter := by
  unfold judge at h ⊢
  split at h
  · next hend =>
    rw [if_pos hend]
    unfold replaceLetters at h ⊢
    split at h
    · next hbefore => rw [if_pos hbefore]; exact ⟨rfl, rfl⟩
    · next hbefore =>
      rw [if_neg hbefore]
      simp only at h ⊢
      split at h
      · cases h
      · next hany =>
        rw [if_neg hany]
        split <;> exact ⟨rfl, rfl⟩
  · cases h

theorem Trie.judge {W : List (List Nat)} {f : Filter} (h : Trie W f) (codeList : List Nat) (r : Replace) (iter : List Nat) :
    Kept W f (judge f codeList r iter).filter := by
  unfold Filter.judge replaceLetters
  have hstretch := h.stretch iter (some r.level) none [] false
  split
  · split
    · exact h.kept
    · simp only
      split
      · exact hstretch
      · split <;> exact hstretch
  · exact h.kept

theorem Opened.findEnd (codeList : List Nat) {p : List Nat} : ∀ (iter : List Nat) {f : Filter}, f.Opened p →
    ∀ (path tempList : List Nat) (b : Option Nat), (findEnd codeList f path tempList b iter).filter.Opened p
  | [], _, hp, _, _, _ => hp
  | code :: iter, f, hp, path, tempList, b => by
    unfold Filter.findEnd
    simp only
    have hp' := (unfoldLevel_levels f (convertEnLowerCode code :: path)).2.2 p hp
    split
    · exact hp.findEnd codeList iter _ _ _
    split
    · exact hp'
    split
    · exact hp'
    · exact hp'.findEnd codeList iter _ _ _

theorem findEnd_prefix (codeList : List Nat) (f : Filter) (iter : List Nat) :
    codeList <+: (findEnd codeList f [] [] none iter).codeList := by
  obtain ⟨-, hout, hmiss, hfound⟩ := findEnd_reads codeList iter f [] [] none
  cases hr : (findEnd codeList f [] [] none iter).replace with
  | none =>
    cases hruns : runsOut f [] iter with
    | true =>
      rw [hout hr hruns, List.append_nil]
      exact List.prefix_append _ _
    | false =>
      rw [hmiss hr hruns]
      exact List.prefix_append _ _
  | some r =>
    obtain ⟨-, ⟨a, -, hlist⟩, -⟩ := hfound r hr
    rw [hlist, List.append_nil]
    exact List.prefix_append _ _

structure Next (W : List (List Nat)) (f : Filter) (codeList : List Nat) (look : Look) : Prop where
  kept : Kept W f look.filter
  opened : ∀ p, f.Opened p → look.filter.Opened p
  grows : codeList <+: look.codeList
  found : ∀ r, look.replace = some r → look.filter.Opened r.level ∧ r.endIndex = look.codeList.length ∧
    r.beginIndex ≤ look.codeList.length
  done : look.replace = none → look.iter = []

theorem findReplace_next {W : List (List Nat)} : ∀ (iter : List Nat) {f : Filter}, Trie W f → ∀ (codeList : List Nat),
    Next W f codeList (findReplace f codeList iter)
  | [], _, h, _ => ⟨h.kept, fun _ hp => hp, List.prefix_rfl, fun _ hr => (by cases hr), fun _ => rfl⟩
  | code :: iter, f, h, codeList => by
    have hkept := h.findEnd codeList (code :: iter) [] [] none
    have hopened := fun p (hp : f.Opened p) => hp.findEnd codeList (code :: iter) [] [] none
    have hgrows := findEnd_prefix codeList f (code :: iter)
    unfold findReplace
    simp only
    split
    · next r hr =>
      refine ⟨hkept, hopened, hgrows, fun r' hr' => ?_, fun hnone => ?_⟩
      · obtain ⟨-, -, hend, hbegin⟩ := (findEnd_reads codeList (code :: iter) f [] [] none).found r' hr'
        refine ⟨findEnd_found codeList (code :: iter) _ _ _ _ r' hr', hend, ?_⟩
        rw [← hend]
        exact (hbegin fun _ hi => nomatch hi).2
      · rw [hr] at hnone
        cases hnone
    · obtain ⟨hkept', hopened', hgrows', hfound, hdone⟩ := findReplace_next iter hkept.trie
        (findEnd codeList f [] [] none (code :: iter)).codeList
      exact ⟨hkept.trans hkept', fun p hp => hopened' p (hopened p hp), hgrows.trans hgrows', hfound, hdone⟩

theorem findReplace_same {W : List (List Nat)} : ∀ (iter : List Nat) {f g : Filter}, Trie W f → Trie W g →
    f.ignoreCode = g.ignoreCode → ∀ (codeList : List Nat),
    (findReplace f codeList iter).codeList = (findReplace g codeList iter).codeList ∧
      (findReplace f codeList iter).replace = (findReplace g codeList iter).replace ∧
      (findReplace f codeList iter).iter = (findReplace g codeList iter).iter
  | [], _, _, _, _, _, _ => ⟨rfl, rfl, rfl⟩
  | code :: iter, f, g, hf, hg, hign, codeList => by
    obtain ⟨hlist, hreplace, hiter⟩ := findEnd_same codeList (code :: iter) hf hg hign [] [] none (.inl rfl) (.inl rfl)
    have hkf := hf.findEnd codeList (code :: iter) [] [] none
    have hkg := hg.findEnd codeList (code :: iter) [] [] none
    unfold findReplace
    simp only
    rw [hreplace]
    split
    · next r hr =>
      rw [hreplace]
      exact ⟨hlist, rfl, hiter⟩
    · rw [hlist]
      exact findReplace_same iter hkf.trie hkg.trie (hkf.ignoreCode.trans (hign.trans hkg.ignoreCode.symm)) _

theorem places_none {f : Filter} {codeList iter : List Nat} (h : (findReplace f codeList iter).replace = none) :
    places f codeList iter = [] := by
  rw [places]
  split
  · rfl
  · next hr => cases h.symm.trans hr

theorem places_some {f : Filter} {codeList iter : List Nat} {r : Replace}
    (h : (findReplace f codeList iter).replace = some r) :
    places f codeList iter = ⟨(findReplace f codeList iter).codeList, r, (findReplace f codeList iter).iter⟩ ::
      places (findReplace f codeList iter).filter (findReplace f codeList iter).codeList
        (findReplace f codeList iter).iter := by
  rw [places]
  split
  · next hr => cases h.symm.trans hr
  · next r' hr =>
    obtain rfl : r = r' := Option.some.inj (h.symm.trans hr)
    rfl

theorem places_same {W : List (List Nat)} : ∀ (m : Nat) (iter : List Nat), iter.length ≤ m → ∀ {f g : Filter}, Trie W f →
    Trie W g → f.ignoreCode = g.ignoreCode → ∀ (codeList : List Nat), places f codeList iter = places g codeList iter := by
  intro m
  induction m with
  | zero =>
    intro iter hm f g _ _ _ codeList
    obtain rfl : iter = [] := List.eq_nil_of_length_eq_zero (Nat.le_zero.1 hm)
    rw [places_none rfl, places_none rfl]
  | succ m ih =>
    intro iter hm f g hf hg hign codeList
    obtain ⟨hlist, hreplace, hiter⟩ := findReplace_same iter hf hg hign codeList
    have hkf := (findReplace_next iter hf codeList).kept
    have hkg := (findReplace_next iter hg codeList).kept
    cases hr : (findReplace f codeList iter).replace with
    | none => rw [places_none hr, places_none (hreplace ▸ hr)]
    | some r =>
      have hshort := findReplace_iter iter f codeList hr
      have hrest := ih (findReplace f codeList iter).iter (by omega) hkf.trie hkg.trie
        (hkf.ignoreCode.trans (hign.trans hkg.ignoreCode.symm)) (findReplace f codeList iter).codeList
      rw [places_some hr, places_some (f := g) (hreplace ▸ hr), hrest, hlist, hiter]

theorem isLetterAt_grows {l l' : List Nat} (h : l <+: l') {i : Nat} (hi : i ≤ l.length) :
    isLetterAt l' i = isLetterAt l i := by
  obtain ⟨a, rfl⟩ := h
  unfold isLetterAt at?
  split
  · rfl
  · rw [List.getElem?_append_left (by omega)]

theorem loop_beReplaced : ∀ (m : Nat) (s : Scan), s.iter.length ≤ m → s.beReplaced = true → (loop s).beReplaced = true := by
  intro m
  induction m with
  | zero =>
    intro s hm h
    rw [loop_nil (List.eq_nil_of_length_eq_zero (Nat.le_zero.1 hm))]
    exact h
  | succ m ih =>
    intro s hm h
    cases hr : (findReplace s.filter s.codeList s.iter).replace with
    | none =>
      rw [loop_none hr]
      exact h
    | some r =>
      rw [loop_some hr]
      have hshort := findReplace_iter s.iter s.filter s.codeList hr
      refine ih _ (Nat.le_of_lt_succ (Nat.lt_of_le_of_lt (settle_iter _ _ _) (Nat.lt_of_lt_of_le hshort hm))) ?_
      unfold settle
      simp only
      split
      · exact h
      · rfl

theorem settle_judge {s : Scan} {look : Look} {r : Replace} (hlook : look.replace = some r) :
    ((judge look.filter look.codeList r look.iter).replace.isSome = true → (settle s look r).beReplaced = true) ∧
    ((judge look.filter look.codeList r look.iter).replace = none →
      settle s look r = ⟨(judge look.filter look.codeList r look.iter).filter, look.codeList, s.filterWordList,
        s.beReplaced, look.iter⟩) := by
  have heq : (if isLetterAt look.codeList r.endIndex then replaceLetters look.filter look.codeList r look.iter else look) =
      judge look.filter look.codeList r look.iter := by
    unfold judge
    rw [← hlook]
  unfold settle
  simp only
  rw [heq]
  constructor
  · intro hsome
    obtain ⟨r', hr'⟩ := Option.isSome_iff_exists.1 hsome
    rw [hr']
  · intro hnone
    obtain ⟨hlist, hiter⟩ := judge_none hnone
    rw [hnone, hlist, hiter]

/-- **`doFilter` replaces something if some place counts by what follows it.** -/
theorem loop_counts {W : List (List Nat)} : ∀ (m : Nat) (s : Scan), s.iter.length ≤ m → Trie W s.filter →
    s.beReplaced = false →
    ((loop s).beReplaced = true ↔ ∃ p ∈ places s.filter s.codeList s.iter, p.Counts W p.iter) := by
  intro m
  induction m with
  | zero =>
    intro s hm _ hno
    have hnil : s.iter = [] := List.eq_nil_of_length_eq_zero (Nat.le_zero.1 hm)
    rw [loop_nil hnil, hnil, places_none rfl, hno]
    simp
  | succ m ih =>
    intro s hm h hno
    have hnext := findReplace_next s.iter h s.codeList
    cases hr : (findReplace s.filter s.codeList s.iter).replace with
    | none =>
      rw [loop_none hr, places_none hr, hno]
      simp
    | some r =>
      have hshort := findReplace_iter s.iter s.filter s.codeList hr
      obtain ⟨hopen, -, -⟩ := hnext.found r hr
      rw [loop_some hr, places_some hr]
      generalize findReplace s.filter s.codeList s.iter = look at *
      obtain ⟨hcounts, hgiven⟩ := settle_judge (s := s) hr
      have hjudge := judge_iff hnext.kept.trie look.codeList hopen look.iter look.iter
      cases hj : (judge look.filter look.codeList r look.iter).replace with
      | some r' =>
        rw [hj] at hcounts hjudge
        have htrue := loop_beReplaced _ (settle s look r) (Nat.le_refl _) (hcounts rfl)
        exact ⟨fun _ => ⟨_, List.mem_cons_self, hjudge.1 rfl⟩, fun _ => htrue⟩
      | none =>
        rw [hj] at hjudge
        have hkept := hnext.kept.trie.judge look.codeList r look.iter
        have hrec := ih ⟨(judge look.filter look.codeList r look.iter).filter, look.codeList, s.filterWordList,
          s.beReplaced, look.iter⟩ (Nat.le_of_lt_succ (Nat.lt_of_lt_of_le hshort hm)) hkept.trie hno
        dsimp only at hrec
        rw [hgiven hj, hrec, places_same _ _ (Nat.le_refl _) hkept.trie hnext.kept.trie hkept.ignoreCode,
          List.exists_mem_cons_iff]
        exact (or_iff_right fun hc => by simpa using hjudge.2 hc).symm

theorem doFilter_counts {W : List (List Nat)} {f : Filter} (h : Trie W f) (text : List Nat) :
    (f.doFilter text).2.isSome = true ↔ ∃ p ∈ places f [] text, p.Counts W p.iter := by
  have hloop : (loop (start f text)).beReplaced = true ↔ ∃ p ∈ places f [] text, p.Counts W p.iter :=
    loop_counts text.length (start f text) (Nat.le_refl _) h rfl
  rw [← hloop]
  unfold doFilter
  simp only
  split
  · next hyes => simp [hyes]
  · next hno => simp [hno]

theorem isFilterLoop_none {f : Filter} {codeList iter : List Nat} (h : (findReplace f codeList iter).replace = none) :
    (isFilterLoop f codeList iter).2 = false := by
  rw [isFilterLoop]
  split
  · rfl
  · next hr => cases h.symm.trans hr

theorem isFilterLoop_some {f : Filter} {codeList iter : List Nat} {r : Replace} {look next : Look}
    (hlook : findReplace f codeList iter = look) (hnext : findReplace look.filter look.codeList look.iter = next)
    (h : look.replace = some r) :
    ((judge next.filter next.codeList r next.iter).replace.isSome = true → (isFilterLoop f codeList iter).2 = true) ∧
    ((judge next.filter next.codeList r next.iter).replace = none → (isFilterLoop f codeList iter).2 =
      (isFilterLoop (judge next.filter next.codeList r next.iter).filter next.codeList next.iter).2) := by
  subst hlook hnext
  constructor
  · intro hsome
    rw [isFilterLoop]
    split
    · next hr => cases h.symm.trans hr
    · next r' hr =>
      obtain rfl : r = r' := Option.some.inj (h.symm.trans hr)
      obtain ⟨r', hr'⟩ := Option.isSome_iff_exists.1 hsome
      simp only [hr']
  · intro hnone
    obtain ⟨hlist, hiter⟩ := judge_none hnone
    conv_lhs => rw [isFilterLoop]
    split
    · next hr => cases h.symm.trans hr
    · next r' hr =>
      obtain rfl : r = r' := Option.some.inj (h.symm.trans hr)
      simp only [hnone]
      rw [hlist, hiter]

/-- **`isFilter` finds something if some place of odd number counts by what follows the next.** -/
theorem isFilterLoop_counts {W : List (List Nat)} : ∀ (m : Nat) (iter : List Nat), iter.length ≤ m → ∀ {f : Filter},
    Trie W f → ∀ (codeList : List Nat),
    ((isFilterLoop f codeList iter).2 = true ↔ ∃ p ∈ everyOther (places f codeList iter), p.1.Counts W p.2) := by
  intro m
  induction m with
  | zero =>
    intro iter hm f _ codeList
    obtain rfl : iter = [] := List.eq_nil_of_length_eq_zero (Nat.le_zero.1 hm)
    rw [isFilterLoop_none rfl, places_none rfl]
    simp [everyOther]
  | succ m ih =>
    intro iter hm f h codeList
    have hfirst := findReplace_next iter h codeList
    cases hr : (findReplace f codeList iter).replace with
    | none =>
      rw [isFilterLoop_none hr, places_none hr]
      simp [everyOther]
    | some r =>
      have hshort := findReplace_iter iter f codeList hr
      have hstep := isFilterLoop_some rfl rfl hr
      obtain ⟨hopen, hend, hbegin⟩ := hfirst.found r hr
      rw [places_some hr]
      generalize findReplace f codeList iter = look at *
      have hsecond := findReplace_next look.iter hfirst.kept.trie look.codeList
      have hle := findReplace_le look.iter look.filter look.codeList
      -- the places from the next on, and what follows it
      have hrest : everyOther (⟨look.codeList, r, look.iter⟩ :: places look.filter look.codeList look.iter) =
          (⟨look.codeList, r, look.iter⟩, (findReplace look.filter look.codeList look.iter).iter) ::
            everyOther (places (findReplace look.filter look.codeList look.iter).filter
              (findReplace look.filter look.codeList look.iter).codeList
              (findReplace look.filter look.codeList look.iter).iter) := by
        cases hn : (findReplace look.filter look.codeList look.iter).replace with
        | none =>
          rw [places_none hn, hsecond.done hn, places_none rfl]
          rfl
        | some r' =>
          rw [places_some hn]
          rfl
      rw [hrest]
      generalize findReplace look.filter look.codeList look.iter = next at *
      have hjudge := judge_iff hsecond.kept.trie next.codeList (hsecond.opened _ hopen) next.iter look.iter
      have hsame : Place.Counts W ⟨next.codeList, r, look.iter⟩ next.iter ↔
          Place.Counts W ⟨look.codeList, r, look.iter⟩ next.iter := by
        unfold Place.Counts
        dsimp only
        rw [isLetterAt_grows hsecond.grows (Nat.le_of_eq hend), isLetterAt_grows hsecond.grows (by omega)]
      rw [hsame] at hjudge
      obtain ⟨hcounts, hgiven⟩ := hstep
      cases hj : (judge next.filter next.codeList r next.iter).replace with
      | some r' =>
        rw [hj] at hcounts hjudge
        exact ⟨fun _ => ⟨_, List.mem_cons_self, hjudge.1 rfl⟩, fun _ => hcounts rfl⟩
      | none =>
        rw [hj] at hjudge
        have hkept := hsecond.kept.trie.judge next.codeList r next.iter
        rw [hgiven hj, ih _ (by omega) hkept.trie,
          places_same _ _ (Nat.le_refl _) hkept.trie hsecond.kept.trie hkept.ignoreCode, List.exists_mem_cons_iff]
        exact (or_iff_right fun hc => by simpa using hjudge.2 hc).symm

def entries (ignoreCode : List Nat) (list : List (List Nat)) (removeIgnoreWords : Bool) : List (List Nat) :=
  (list.map (fun words => if removeIgnoreWords then heard ignoreCode words else words)).filter (fun w => !w.isEmpty)

theorem initWord_codes (removeIgnoreWords : Bool) (f : Filter) (words : List Nat) :
    (initWord removeIgnoreWords f words).ignoreCode = f.ignoreCode := by
  unfold initWord
  split <;> rfl

theorem init_entries (ignoreCode : List Nat) (removeIgnoreWords : Bool) : ∀ (list : List (List Nat)) (f : Filter),
    f.ignoreCode = ignoreCode →
    list.foldl (initWord removeIgnoreWords) f = (entries ignoreCode list removeIgnoreWords).foldl (initWord false) f
  | [], _, _ => rfl
  | words :: list, f, hf => by
    have hclean : (if removeIgnoreWords then words.filter (fun code => !f.ignores code) else words) =
        if removeIgnoreWords then heard ignoreCode words else words := by
      unfold ignores heard
      rw [hf]
    have hrest := init_entries ignoreCode removeIgnoreWords list (initWord removeIgnoreWords f words)
      ((initWord_codes _ _ _).trans hf)
    rw [List.foldl_cons, hrest]
    unfold entries
    rw [List.map_cons]
    cases hw : (if removeIgnoreWords then heard ignoreCode words else words) with
    | nil =>
      have hsame : initWord removeIgnoreWords f words = f := by
        unfold initWord
        rw [hclean, hw]
      rw [hsame]
      rfl
    | cons code iter =>
      have hsame : initWord removeIgnoreWords f words = initWord false f (code :: iter) := by
        unfold initWord
        rw [hclean, hw]
        rfl
      rw [hsame]
      rfl

theorem trie_filled (replaceCode : Nat) (ignoreCode : List Nat) (list : List (List Nat)) (removeIgnoreWords : Bool)
    (earlier : List (List Nat)) :
    Trie (entries ignoreCode list removeIgnoreWords) (filled replaceCode ignoreCode list removeIgnoreWords earlier) := by
  have hinit : Trie (entries ignoreCode list removeIgnoreWords)
      ((ctor replaceCode ignoreCode).init list removeIgnoreWords) := by
    have hsame : (ctor replaceCode ignoreCode).init list removeIgnoreWords =
        (ctor replaceCode ignoreCode).init (entries ignoreCode list removeIgnoreWords) false := by
      unfold Filter.init
      rw [init_entries ignoreCode removeIgnoreWords list _ rfl]
    rw [hsame]
    refine Trie.fill replaceCode ignoreCode fun w hw => ?_
    rintro rfl
    simpa using (List.mem_filter.1 hw).2
  exact (hinit.texts earlier).trie

/-- **`isFilter` answers what `doFilter` does if and only if, of the places of the text, some count by what follows them
just where some of odd number count by what follows the next.** -/
theorem agree_iff (replaceCode : Nat) (ignoreCode : List Nat) (list : List (List Nat)) (removeIgnoreWords : Bool)
    (earlier : List (List Nat)) (text : List Nat) :
    (((filled replaceCode ignoreCode list removeIgnoreWords earlier).isFilter text).2 = true ↔
      ((filled replaceCode ignoreCode list removeIgnoreWords earlier).doFilter text).2.isSome = true) ↔
      Agrees (entries ignoreCode list removeIgnoreWords)
        (places (filled replaceCode ignoreCode list removeIgnoreWords earlier) [] text) := by
  have htrie := trie_filled replaceCode ignoreCode list removeIgnoreWords earlier
  rw [doFilter_counts htrie, isFilter, isFilterLoop_counts text.length text (Nat.le_refl _) htrie]
  rfl

/-- A word that ends with a letter, in a text where more letters follow it: only `isFilter` reports it. -/
theorem letters_reported : ¬(((filled 42 [] [[97, 98]] false []).isFilter [97, 98, 99]).2 = true ↔
    ((filled 42 [] [[97, 98]] false []).doFilter [97, 98, 99]).2.isSome = true) := by
  decide +kernel

end Filter
end WordFilter
end Sncpp
