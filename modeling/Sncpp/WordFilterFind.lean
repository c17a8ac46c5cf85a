import Sncpp.Steps
import Sncpp.WordFilterTrie
/-!
# WordFilterFind — the words that are found in a text

In a text without letters a word is found wherever one stands: what is read from a position on follows the words of
the trie past the ignored code points (`findEnd_finds`), and the words of the trie are the same whatever has been
unfolded (`findEnd_same`).
-/
namespace Sncpp
namespace WordFilter

def heard (ignoreCode codes : List Nat) : List Nat := codes.filter (fun code => !ignoreCode.contains code)

theorem heard_ignored {ignoreCode : List Nat} {code : Nat} (h : ignoreCode.contains code = true) (codes : List Nat) :
    heard ignoreCode (code :: codes) = heard ignoreCode codes := by
  unfold heard
  rw [List.filter_cons_of_neg]
  simpa using h

theorem heard_cons {ignoreCode : List Nat} {code : Nat} (h : ignoreCode.contains code = false) (codes : List Nat) :
    heard ignoreCode (code :: codes) = code :: heard ignoreCode codes := by
  unfold heard
  rw [List.filter_cons_of_pos]
  simpa using h

theorem mem_heard {ignoreCode codes : List Nat} {code : Nat} :
    code ∈ heard ignoreCode codes ↔ code ∈ codes ∧ code ∉ ignoreCode := by
  unfold heard
  rw [List.mem_filter]
  simp

theorem convertEnLowerCode_plain {code : Nat} (h : isLetter code = false) : convertEnLowerCode code = code := by
  unfold convertEnLowerCode
  split
  · next hupper =>
    have htrue : isLetter code = true := by
      unfold isLetter letterArea
      rw [List.any_cons]
      simp only [Bool.and_eq_true, decide_eq_true_eq] at hupper
      simp [hupper]
    cases h.symm.trans htrue
  · rfl

namespace Filter

def Opened (f : Filter) (path : List Nat) : Prop :=
  path = [] ∨ ∃ level, f.level path = some level ∧ level.isInit = true

variable {f : Filter}

theorem Opened.push {p : List Nat} (h : f.Opened p) (path : List Nat) (code : Nat) (iter : List Nat) :
    (f.push path code iter).Opened p := by
  refine h.imp id fun ⟨level, hl, hi⟩ => ?_
  by_cases hp : p = code :: path
  · subst hp
    refine ⟨_, push_self f path code iter, ?_⟩
    rw [hl]
    exact hi
  · exact ⟨level, (push_other iter hp).trans hl, hi⟩

theorem Opened.modify {p : List Nat} (h : f.Opened p) (path : List Nat) {u : Level → Level}
    (hu : ∀ level : Level, level.isInit = true → (u level).isInit = true) : (f.modify path u).Opened p := by
  refine h.imp id fun ⟨level, hl, hi⟩ => ?_
  by_cases hp : p = path
  · subst hp
    exact ⟨u level, (modify_self f p u).trans (by rw [hl]; rfl), hu level hi⟩
  · exact ⟨level, (modify_other u hp).trans hl, hi⟩

theorem unfoldLevel_levels (f : Filter) (path : List Nat) :
    ((f.unfoldLevel path).level path).isSome = (f.level path).isSome ∧
      (path ≠ [] → (f.level path).isSome = true → (f.unfoldLevel path).Opened path) ∧
      ∀ p, f.Opened p → (f.unfoldLevel path).Opened p := by
  cases hl : f.level path with
  | none =>
    rw [unfoldLevel_none hl, hl]
    exact ⟨rfl, fun _ h => (by cases h), fun p hp => hp⟩
  | some level =>
    by_cases hi : level.isInit = true
    · rw [unfoldLevel_init hl hi, hl]
      exact ⟨rfl, fun _ _ => .inr ⟨level, hl, hi⟩, fun p hp => hp⟩
    have hfold : (((level.iters.foldl (unfoldIter path) f).level path).isSome = true) ∧
        ∀ p, f.Opened p → (level.iters.foldl (unfoldIter path) f).Opened p := by
      refine Steps.inv_of_run (I := fun g : Filter => (g.level path).isSome = true ∧ ∀ p, f.Opened p → g.Opened p)
        (fun g iter hg => ?_) level.iters f ⟨by rw [hl]; rfl, fun p hp => hp⟩
      cases iter with
      | nil =>
        refine ⟨?_, fun p hp => (hg.2 p hp).modify path fun _ h => h⟩
        show (((g.modify path _).level path).isSome) = true
        rw [modify_self, Option.isSome_map]
        exact hg.1
      | cons code iter =>
        refine ⟨?_, fun p hp => (hg.2 p hp).push path code iter⟩
        show ((g.push path code iter).level path).isSome = true
        rw [push_other iter (cons_ne code).symm]
        exact hg.1
    have heq : f.unfoldLevel path = (level.iters.foldl (unfoldIter path) f).modify path
        (fun level => { level with isInit := true, iters := [] }) := by
      unfold Filter.unfoldLevel
      rw [hl]
      exact if_neg hi
    rw [heq]
    refine ⟨?_, fun _ _ => ?_, fun p hp => (hfold.2 p hp).modify path fun _ _ => rfl⟩
    · rw [modify_self, Option.isSome_map]
      exact hfold.1
    · obtain ⟨level', hl'⟩ := Option.isSome_iff_exists.1 hfold.1
      exact .inr ⟨_, (modify_self _ _ _).trans (by rw [hl']; rfl), rfl⟩

theorem findEnd_found (codeList : List Nat) : ∀ (iter : List Nat) (f : Filter) (path tempList : List Nat) (b : Option Nat)
    (r : Replace), (findEnd codeList f path tempList b iter).replace = some r →
      (findEnd codeList f path tempList b iter).filter.Opened r.level
  | [], _, _, _, _, _, hr => by cases hr
  | code :: iter, f, path, tempList, b, r, hr => by
    unfold findEnd at hr ⊢
    simp only at hr ⊢
    have hlevels := unfoldLevel_levels f (convertEnLowerCode code :: path)
    generalize f.unfoldLevel (convertEnLowerCode code :: path) = f' at hlevels hr ⊢
    split
    · next hign =>
      rw [if_pos hign] at hr
      exact findEnd_found codeList iter _ _ _ _ r hr
    next hign =>
    rw [if_neg hign] at hr
    split
    · next hno =>
      rw [if_pos hno] at hr
      cases hr
    next hyes =>
    rw [if_neg hyes] at hr
    split
    · next hend =>
      rw [if_pos hend] at hr
      cases hr
      refine hlevels.2.1 (List.cons_ne_nil _ _) ?_
      rw [← hlevels.1, ← Option.not_isNone, Bool.eq_false_iff.2 hyes]
      rfl
    · next hend =>
      rw [if_neg hend] at hr
      exact findEnd_found codeList iter _ _ _ _ r hr

theorem Trie.leads_iff {W : List (List Nat)} {f : Filter} (h : Trie W f) {path : List Nat} (hopen : f.Opened path)
    (code : Nat) : (f.level (code :: path)).isSome = true ↔ Leads W (code :: path) := by
  rcases hopen with rfl | ⟨level, hl, hi⟩
  · exact h.first code
  · cases path with
    | nil => exact h.first code
    | cons c path => exact (h.unfolded _ level (List.cons_ne_nil _ _) hl hi).2 code

theorem Trie.look {W : List (List Nat)} {f : Filter} (h : Trie W f) {path : List Nat} (hopen : f.Opened path) (code : Nat) :
    ((f.unfoldLevel (code :: path)).level (code :: path)).isNone = true ∧ ¬ Leads W (code :: path) ∨
    ((f.unfoldLevel (code :: path)).level (code :: path)).isNone = false ∧ Leads W (code :: path) ∧
      (f.unfoldLevel (code :: path)).Opened (code :: path) ∧
        ((f.unfoldLevel (code :: path)).isEnd (code :: path) = true ↔ (code :: path).reverse ∈ W) := by
  obtain ⟨htrie, hthere, hinit, -, -⟩ := h.unfoldLevel (List.cons_ne_nil code path)
  rw [← h.leads_iff hopen, ← hthere]
  cases hl : (f.unfoldLevel (code :: path)).level (code :: path) with
  | none => exact Or.inl ⟨rfl, fun h => Bool.false_ne_true h⟩
  | some level =>
    have hi := hinit level hl
    refine Or.inr ⟨rfl, rfl, Or.inr ⟨level, hl, hi⟩, ?_⟩
    unfold isEnd
    rw [hl, Option.any_some]
    exact (htrie.unfolded _ level (List.cons_ne_nil _ _) hl hi).1

structure Sought (W : List (List Nat)) (ignoreCode codeList path tempList : List Nat) (b : Option Nat) (iter : List Nat)
    (look : Look) : Prop where
  none : look.replace = none → ∀ n, path.reverse ++ heard ignoreCode (iter.take n) ∈ W → heard ignoreCode (iter.take n) = []
  found : ∀ r, look.replace = some r → ∃ a, iter = a ++ look.iter ∧ path.reverse ++ heard ignoreCode a ∈ W ∧
    heard ignoreCode a ≠ [] ∧ (∀ i, b = some i → r.beginIndex = i) ∧
    (b = Option.none → ∀ (j c : Nat), a[j]? = some c → c ∉ ignoreCode →
      r.beginIndex ≤ codeList.length + tempList.length + j + 1)

theorem findEnd_finds {W : List (List Nat)} {ignoreCode : List Nat} (codeList : List Nat) :
    ∀ (iter : List Nat) {f : Filter},
    Trie W f → f.ignoreCode = ignoreCode → (∀ c ∈ iter, isLetter c = false) → ∀ (path tempList : List Nat) (b : Option Nat),
    f.Opened path → Sought W ignoreCode codeList path tempList b iter (findEnd codeList f path tempList b iter)
  | [], _, _, _, _, _, _, _, _ => by
    refine ⟨fun _ n _ => ?_, fun r h => ?_⟩
    · rw [List.take_nil]
      rfl
    · cases h
  | code :: iter, f, h, hign, hplain, path, tempList, b, hopen => by
    have hrest : ∀ c ∈ iter, isLetter c = false := fun c hc => hplain c (List.mem_cons_of_mem _ hc)
    unfold findEnd
    simp only
    rw [convertEnLowerCode_plain (hplain code List.mem_cons_self)]
    have hcontains : f.ignores code = ignoreCode.contains code := by rw [← hign]; rfl
    by_cases hskip : f.ignores code = true
    · rw [if_pos hskip]
      rw [hcontains] at hskip
      obtain ⟨hnone, hfound⟩ := findEnd_finds codeList iter h hign hrest path (tempList ++ [code]) b hopen
      refine ⟨fun hr n => ?_, fun r hr => ?_⟩
      · cases n with
        | zero => exact fun _ => rfl
        | succ n =>
          rw [List.take_succ_cons, heard_ignored hskip]
          exact hnone hr n
      · obtain ⟨a, ha, hw, hne, hsome, hbegin⟩ := hfound r hr
        refine ⟨code :: a, by rw [List.cons_append, ← ha], ?_, ?_, hsome, fun hb j c hj hc => ?_⟩
        · rw [heard_ignored hskip]
          exact hw
        · rw [heard_ignored hskip]
          exact hne
        · cases j with
          | zero =>
            obtain rfl : code = c := Option.some.inj hj
            exact absurd (by simpa using hskip) hc
          | succ j =>
            have := hbegin hb j c hj hc
            rw [List.length_append, List.length_singleton] at this
            omega
    · rw [if_neg hskip]
      rw [hcontains] at hskip
      have hkeep : ignoreCode.contains code = false := Bool.eq_false_iff.2 hskip
      have hkept := h.unfoldLevel_kept code path
      have hlook := h.look hopen code
      generalize f.unfoldLevel (code :: path) = f' at hkept hlook ⊢
      have happend : ∀ w, path.reverse ++ code :: w = (code :: path).reverse ++ w := by
        intro w
        rw [List.reverse_cons, List.append_assoc, List.singleton_append]
      rcases hlook with ⟨hno, hleads⟩ | ⟨hyes, -, hopen', hend⟩
      · rw [if_pos hno]
        refine ⟨fun _ n hw => ?_, fun r hr => by cases hr⟩
        cases n with
        | zero => rfl
        | succ n =>
          rw [List.take_succ_cons, heard_cons hkeep, happend] at hw
          exact absurd ⟨_, hw, List.prefix_append _ _⟩ hleads
      rw [hyes, if_neg Bool.false_ne_true]
      split
      · next hfound =>
        refine ⟨fun hr => by (cases hr), fun r hr => ⟨[code], rfl, ?_, ?_, fun i hi => ?_, fun hb j c hj _ => ?_⟩⟩
        · rw [heard_cons hkeep, happend]
          have hw := hend.1 hfound
          unfold heard
          rw [List.filter_nil, List.append_nil]
          exact hw
        · rw [heard_cons hkeep]
          exact List.cons_ne_nil _ _
        · rw [← Option.some.inj hr, hi]
          rfl
        · rw [← Option.some.inj hr, hb]
          show codeList.length + (tempList ++ [code]).length ≤ _
          rw [List.length_append, List.length_singleton]
          omega
      · next hmore =>
        obtain ⟨hnone, hfound⟩ := findEnd_finds codeList iter hkept.trie (hkept.ignoreCode.trans hign) hrest (code :: path)
          (tempList ++ [code]) (some (b.getD (codeList.length + (tempList ++ [code]).length))) hopen'
        refine ⟨fun hr n hw => ?_, fun r hr => ?_⟩
        · cases n with
          | zero => rfl
          | succ n =>
            rw [List.take_succ_cons, heard_cons hkeep, happend] at hw
            have hnil := hnone hr n hw
            rw [hnil, List.append_nil] at hw
            exact absurd (hend.2 hw) hmore
        · obtain ⟨a, ha, hw, hne, hsome, -⟩ := hfound r hr
          have hb := hsome _ rfl
          refine ⟨code :: a, by rw [List.cons_append, ← ha], ?_, ?_, fun i hi => ?_, fun hnone j c _ _ => ?_⟩
          · rw [heard_cons hkeep, happend]
            exact hw
          · rw [heard_cons hkeep]
            exact List.cons_ne_nil _ _
          · rw [hb, hi]
            rfl
          · rw [hb, hnone]
            show codeList.length + (tempList ++ [code]).length ≤ _
            rw [List.length_append, List.length_singleton]
            omega

theorem findEnd_same {W : List (List Nat)} (codeList : List Nat) : ∀ (iter : List Nat) {f g : Filter}, Trie W f → Trie W g →
    f.ignoreCode = g.ignoreCode → ∀ (path tempList : List Nat) (b : Option Nat), f.Opened path → g.Opened path →
    (findEnd codeList f path tempList b iter).codeList = (findEnd codeList g path tempList b iter).codeList ∧
      (findEnd codeList f path tempList b iter).replace = (findEnd codeList g path tempList b iter).replace ∧
      (findEnd codeList f path tempList b iter).iter = (findEnd codeList g path tempList b iter).iter
  | [], _, _, _, _, _, _, _, _, _, _ => ⟨rfl, rfl, rfl⟩
  | code :: iter, f, g, hf, hg, hign, path, tempList, b, hpf, hpg => by
    unfold findEnd
    simp only
    have hignores : f.ignores (convertEnLowerCode code) = g.ignores (convertEnLowerCode code) := by
      unfold ignores
      rw [hign]
    rw [hignores]
    split
    · exact findEnd_same codeList iter hf hg hign _ _ _ hpf hpg
    have hkf := hf.unfoldLevel_kept (convertEnLowerCode code) path
    have hkg := hg.unfoldLevel_kept (convertEnLowerCode code) path
    have hlf := hf.look hpf (convertEnLowerCode code)
    have hlg := hg.look hpg (convertEnLowerCode code)
    generalize f.unfoldLevel (convertEnLowerCode code :: path) = f' at hkf hlf ⊢
    generalize g.unfoldLevel (convertEnLowerCode code :: path) = g' at hkg hlg ⊢
    rcases hlf with ⟨hnf, hl⟩ | ⟨hyf, hl, hof, hef⟩
    · rcases hlg with ⟨hng, -⟩ | ⟨-, hl', -⟩
      · rw [if_pos hnf, if_pos hng]
        exact ⟨rfl, rfl, rfl⟩
      · exact absurd hl' hl
    · rcases hlg with ⟨-, hl'⟩ | ⟨hyg, -, hog, heg⟩
      · exact absurd hl hl'
      have hend : f'.isEnd (convertEnLowerCode code :: path) = g'.isEnd (convertEnLowerCode code :: path) :=
        Bool.eq_iff_iff.2 (hef.trans heg.symm)
      rw [hyf, hyg, hend, if_neg Bool.false_ne_true, if_neg Bool.false_ne_true]
      split
      · exact ⟨rfl, rfl, rfl⟩
      · exact findEnd_same codeList iter hkf.trie hkg.trie (hkf.ignoreCode.trans (hign.trans hkg.ignoreCode.symm)) _ _ _
          hof hog

/-! ## A turn over a text without letters -/

theorem isLetterAt_last {l a : List Nat} (hplain : ∀ c ∈ a, isLetter c = false) (ha : a ≠ []) :
    isLetterAt (l ++ a) (l ++ a).length = false := by
  have hpos := List.length_pos_iff.2 ha
  have hlen : (l ++ a).length = l.length + a.length := List.length_append
  unfold isLetterAt at?
  rw [if_neg (by omega), List.getElem?_append_right (by omega)]
  cases hget : a[(l ++ a).length - 1 - l.length]? with
  | none => rfl
  | some c => exact hplain c (List.mem_of_getElem? hget)

theorem settle_plain (s : Scan) {look : Look} {r : Replace} (hlook : look.replace = some r)
    (hletter : isLetterAt look.codeList r.endIndex = false) :
    settle s look r = ⟨look.filter, mask look.filter.replaceCode look.codeList r,
      s.filterWordList ++ [(look.codeList.take r.endIndex).drop (r.beginIndex - 1)], true, look.iter⟩ := by
  unfold settle
  rw [hletter]
  simp only [Bool.false_eq_true, if_false]
  rw [hlook]

theorem findEnd_plain (codeList : List Nat) {iter : List Nat} (f : Filter) (hplain : ∀ c ∈ iter, isLetter c = false)
    {r : Replace}
    (hr : (findEnd codeList f [] [] none iter).replace = some r) :
    ∃ a, iter = a ++ (findEnd codeList f [] [] none iter).iter ∧
      (findEnd codeList f [] [] none iter).codeList = codeList ++ a ∧ r.endIndex = (codeList ++ a).length ∧
      codeList.length < r.beginIndex ∧ isLetterAt (codeList ++ a) r.endIndex = false := by
  obtain ⟨-, ⟨a, ha, hlist⟩, hend, hb⟩ := (findEnd_reads codeList iter f [] [] none).found r hr
  have hplain' : ∀ c ∈ a, isLetter c = false := fun c hc => hplain c (by
    rw [ha]
    exact List.mem_append_left _ hc)
  have hlower : a.map convertEnLowerCode = a :=
    (List.map_congr_left (fun c hc => convertEnLowerCode_plain (hplain' c hc))).trans (List.map_id _)
  obtain ⟨hafter, hupTo⟩ := hb (fun i h => by cases h)
  rw [List.append_nil, hlower] at hlist
  rw [hlist] at hend
  refine ⟨a, ha, hlist, hend, hafter, ?_⟩
  rw [hend]
  refine isLetterAt_last hplain' ?_
  rintro rfl
  rw [hend, List.append_nil] at hupTo
  exact absurd (Nat.lt_of_lt_of_le hafter hupTo) (Nat.lt_irrefl _)

/-- A turn finds no word at its code point, and puts that on the list or all that is left. -/
structure Misses (W : List (List Nat)) (s s' : Scan) (code : Nat) (iter : List Nat) : Prop where
  left : s'.iter = iter
  beReplaced : s'.beReplaced = s.beReplaced
  none : ∀ n, heard s.filter.ignoreCode ((code :: iter).take n) ∈ W → heard s.filter.ignoreCode ((code :: iter).take n) = []
  put : ¬ Overruns s ∧ s'.codeList = s.codeList ++ [code] ∨ Overruns s ∧ s'.codeList = s.codeList ++ code :: iter

structure Finds (W : List (List Nat)) (s s' : Scan) (a : List Nat) (r : Replace) : Prop where
  clean : ¬ Overruns s
  read : s.iter = a ++ s'.iter
  beReplaced : s'.beReplaced = true
  word : heard s.filter.ignoreCode a ∈ W
  ne : heard s.filter.ignoreCode a ≠ []
  put : s'.codeList = mask s.filter.replaceCode (s.codeList ++ a) r
  after : s.codeList.length < r.beginIndex
  upTo : r.endIndex = (s.codeList ++ a).length
  begins : ∀ (j c : Nat), a[j]? = some c → c ∉ s.filter.ignoreCode → r.beginIndex ≤ s.codeList.length + j + 1

theorem turn_plain {W : List (List Nat)} {s : Scan} (h : Trie W s.filter) {code : Nat} {iter : List Nat}
    (hs : s.iter = code :: iter) (hplain : ∀ c ∈ s.iter, isLetter c = false) :
    Misses W s (turn s) code iter ∨ ∃ a r, Finds W s (turn s) a r := by
  obtain ⟨filter, codeList, words, be, iter'⟩ := s
  obtain rfl : iter' = code :: iter := hs
  have hlower : (code :: iter).map convertEnLowerCode = code :: iter :=
    (List.map_congr_left (fun c hc => convertEnLowerCode_plain (hplain c hc))).trans (List.map_id _)
  obtain ⟨hcode, hout, hmiss, hfound⟩ := findEnd_reads codeList (code :: iter) filter [] [] none
  obtain ⟨hnone, hsome⟩ := findEnd_finds (W := W) codeList (code :: iter) h rfl hplain [] [] none (Or.inl rfl)
  have hturn := turn_miss (s := ⟨filter, codeList, words, be, code :: iter⟩) rfl
  have hturn' := fun {r} => turn_found (s := ⟨filter, codeList, words, be, code :: iter⟩) (r := r) (List.cons_ne_nil _ _)
  have hplace := fun {r} => findEnd_plain codeList (r := r) filter hplain
  simp only at hturn hturn' hplace
  rw [hlower] at hout hmiss
  generalize findEnd codeList filter [] [] none (code :: iter) = look at *
  cases hr : look.replace with
  | none =>
    rw [hturn hr]
    refine Or.inl ⟨rfl, rfl, hnone hr, ?_⟩
    cases hruns : runsOut filter [] (code :: iter) with
    | false => exact Or.inl ⟨fun hover => Bool.false_ne_true (hruns.symm.trans hover.2), hmiss hr hruns⟩
    | true =>
      have hlist := hout hr hruns
      rw [List.append_nil] at hlist
      cases iter with
      | nil => exact Or.inl ⟨fun hover => absurd hover.1 (Nat.not_succ_le_self 1), hlist⟩
      | cons c iter => exact Or.inr ⟨⟨by simp, hruns⟩, hlist⟩
  | some r =>
    obtain ⟨a, ha, hw, hne, -, hbegin⟩ := hsome r hr
    obtain ⟨a', ha', hlist, hend, hafter, hletter⟩ := hplace hr
    obtain rfl : a' = a := List.append_cancel_right (ha'.symm.trans ha)
    have hno := (hfound r hr).1
    rw [hturn' hr, settle_plain _ hr (by rw [hlist]; exact hletter)]
    refine Or.inr ⟨a', r, fun hover => Bool.false_ne_true (hno.symm.trans hover.2), ha, rfl, hw, hne, ?_, hafter, hend,
      hbegin rfl⟩
    show mask look.filter.replaceCode look.codeList r = _
    rw [hcode, hlist]

structure Alike (W : List (List Nat)) (s t : Scan) : Prop where
  first : Trie W s.filter
  second : Trie W t.filter
  replaceCode : s.filter.replaceCode = t.filter.replaceCode
  ignoreCode : s.filter.ignoreCode = t.filter.ignoreCode
  codeList : s.codeList = t.codeList
  filterWordList : s.filterWordList = t.filterWordList
  beReplaced : s.beReplaced = t.beReplaced
  iter : s.iter = t.iter

theorem Alike.turn {W : List (List Nat)} {s t : Scan} (h : Alike W s t) (hplain : ∀ c ∈ s.iter, isLetter c = false) :
    Alike W (turn s) (turn t) := by
  have hs := h.first.turn
  have ht := h.second.turn
  have hr := hs.replaceCode.trans (h.replaceCode.trans ht.replaceCode.symm)
  have hi := hs.ignoreCode.trans (h.ignoreCode.trans ht.ignoreCode.symm)
  obtain ⟨f, codeList, words, be, iter⟩ := s
  obtain ⟨g, codeList', words', be', iter'⟩ := t
  obtain ⟨hf, hg, hreplace, hign, rfl, rfl, rfl, rfl⟩ := h
  cases iter with
  | nil => exact ⟨hf, hg, hreplace, hign, rfl, rfl, rfl, rfl⟩
  | cons code iter =>
    obtain ⟨hlist, hfound, hiter⟩ := findEnd_same codeList (code :: iter) hf hg hign [] [] none (Or.inl rfl) (Or.inl rfl)
    have hkf := hf.findEnd codeList (code :: iter) [] [] none
    have hkg := hg.findEnd codeList (code :: iter) [] [] none
    have hplace := fun r => findEnd_plain codeList (r := r) f hplain
    suffices hsame : (Filter.turn ⟨f, codeList, words, be, code :: iter⟩).codeList =
          (Filter.turn ⟨g, codeList, words, be, code :: iter⟩).codeList ∧
        (Filter.turn ⟨f, codeList, words, be, code :: iter⟩).filterWordList =
          (Filter.turn ⟨g, codeList, words, be, code :: iter⟩).filterWordList ∧
        (Filter.turn ⟨f, codeList, words, be, code :: iter⟩).beReplaced =
          (Filter.turn ⟨g, codeList, words, be, code :: iter⟩).beReplaced ∧
        (Filter.turn ⟨f, codeList, words, be, code :: iter⟩).iter =
          (Filter.turn ⟨g, codeList, words, be, code :: iter⟩).iter from
      ⟨hs.trie, ht.trie, hr, hi, hsame.1, hsame.2.1, hsame.2.2.1, hsame.2.2.2⟩
    unfold Filter.turn
    simp only
    cases hrf : (findEnd codeList f [] [] none (code :: iter)).replace with
    | none =>
      rw [hrf] at hfound
      rw [← hfound]
      exact ⟨hlist, rfl, rfl, rfl⟩
    | some r =>
      obtain ⟨a, -, hlista, -, -, hletter⟩ := hplace r hrf
      rw [← hlista] at hletter
      rw [hrf] at hfound
      rw [← hfound]
      simp only
      rw [settle_plain _ hrf hletter, settle_plain _ hfound.symm (by rw [← hlist]; exact hletter)]
      refine ⟨?_, ?_, rfl, hiter⟩
      · show mask _ _ r = mask _ _ r
        rw [hlist, hkf.replaceCode, hkg.replaceCode, hreplace]
      · show words ++ _ = words ++ _
        rw [hlist]

end Filter
end WordFilter
end Sncpp
