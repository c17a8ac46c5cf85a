import Sncpp.WordFilterMask
/-!
# WordFilterTrie — the trie that is unfolded as texts come

However far the levels are unfolded, the trie is that of the words it was filled with (`Trie`): a level that is not unfolded
has the rest of every word that leads to it, and one that is unfolded has a level below it for each code point that such a
word goes on with.  Looking into a text keeps this, and two filters with the same words find the same (`doFilter_same`).
-/
namespace Sncpp
namespace WordFilter

def rests (W : List (List Nat)) (path : List Nat) : List (List Nat) :=
  W.filterMap (fun w => if path.reverse <+: w then some (w.drop path.length) else none)

def Leads (W : List (List Nat)) (path : List Nat) : Prop := ∃ w ∈ W, path.reverse <+: w

theorem mem_rests {W : List (List Nat)} {path rest : List Nat} : rest ∈ rests W path ↔ path.reverse ++ rest ∈ W := by
  unfold rests
  rw [List.mem_filterMap]
  constructor
  · rintro ⟨w, hw, h⟩
    split at h
    · next hp =>
      obtain ⟨t, rfl⟩ := hp
      rw [← Option.some.inj h, ← List.length_reverse, List.drop_left]
      exact hw
    · cases h
  · intro h
    refine ⟨_, h, ?_⟩
    rw [if_pos (List.prefix_append _ _), ← List.length_reverse, List.drop_left]

theorem leads_iff {W : List (List Nat)} {path : List Nat} : Leads W path ↔ rests W path ≠ [] := by
  constructor
  · rintro ⟨w, hw, t, rfl⟩
    exact List.ne_nil_of_mem (mem_rests.2 hw)
  · intro h
    obtain ⟨t, ht⟩ := List.exists_mem_of_ne_nil _ h
    exact ⟨_, mem_rests.1 ht, List.prefix_append _ _⟩

def tails (code : Nat) (rests : List (List Nat)) : List (List Nat) :=
  rests.filterMap (fun rest => match rest with
    | [] => none
    | c :: rest => if c = code then some rest else none)

theorem rests_cons (W : List (List Nat)) (path : List Nat) (code : Nat) :
    rests W (code :: path) = tails code (rests W path) := by
  unfold rests tails
  rw [List.filterMap_filterMap]
  refine List.filterMap_congr (fun w _ => ?_)
  rw [List.reverse_cons]
  by_cases hp : path.reverse <+: w
  · obtain ⟨t, rfl⟩ := hp
    rw [if_pos (List.prefix_append _ _), Option.bind_some]
    have hback : path.reverse ++ [code] <+: path.reverse ++ t ↔ [code] <+: t := List.prefix_append_right_inj _
    have hdrop : (path.reverse ++ t).drop path.length = t := by rw [← List.length_reverse, List.drop_left]
    have hdrop' : (path.reverse ++ t).drop (code :: path).length = t.drop 1 := by
      rw [List.length_cons, ← List.drop_drop, hdrop]
    rw [hdrop, hdrop']
    cases t with
    | nil =>
      rw [List.append_nil] at hback
      simp [hback]
    | cons c t =>
      by_cases hc : c = code
      · simp [hc]
      · simp [hback, hc, Ne.symm hc]
  · have hno : ¬ path.reverse ++ [code] <+: w := fun h => hp ((List.prefix_append _ _).trans h)
    rw [if_neg hno, if_neg hp]
    rfl

namespace Filter

structure Trie (W : List (List Nat)) (f : Filter) : Prop where
  first : ∀ code, (f.level [code]).isSome = true ↔ Leads W [code]
  below : ∀ path code, path ≠ [] → f.level path = none → f.level (code :: path) = none
  folded : ∀ path level, path ≠ [] → f.level path = some level → level.isInit = false →
    level.isEnd = false ∧ level.iters = rests W path ∧ ∀ code, f.level (code :: path) = none
  unfolded : ∀ path level, path ≠ [] → f.level path = some level → level.isInit = true →
    (level.isEnd = true ↔ path.reverse ∈ W) ∧ ∀ code, (f.level (code :: path)).isSome = true ↔ Leads W (code :: path)

theorem modify_self (f : Filter) (path : List Nat) (g : Level → Level) :
    (f.modify path g).level path = (f.level path).map g :=
  Function.update_self _ _ _

theorem modify_other {f : Filter} {path q : List Nat} (g : Level → Level) (hq : q ≠ path) : (f.modify path g).level q = f.level q :=
  Function.update_of_ne hq _ _

theorem push_self (f : Filter) (path : List Nat) (code : Nat) (iter : List Nat) :
    (f.push path code iter).level (code :: path) =
    some { (f.level (code :: path)).getD Level.new with
      iters := ((f.level (code :: path)).getD Level.new).iters ++ [iter] } :=
  Function.update_self _ _ _

theorem push_other {f : Filter} {path q : List Nat} {code : Nat} (iter : List Nat) (hq : q ≠ code :: path) :
    (f.push path code iter).level q = f.level q :=
  Function.update_of_ne hq _ _

theorem cons_ne {path : List Nat} (code : Nat) : code :: path ≠ path := fun h => by
  have := congrArg List.length h
  simp at this

theorem foldl_unfoldIter (path : List Nat) : ∀ (iters : List (List Nat)) (f : Filter) (level : Level)
    (below : Nat → List (List Nat)), f.level path = some level →
    (∀ code, f.level (code :: path) = if below code = [] then none else some ⟨false, false, below code⟩) →
    (iters.foldl (unfoldIter path) f).level path =
        some { level with isEnd := level.isEnd || iters.contains [] } ∧
      (∀ code, (iters.foldl (unfoldIter path) f).level (code :: path) =
        if below code ++ tails code iters = [] then none else some ⟨false, false, below code ++ tails code iters⟩) ∧
      ∀ p, p ≠ path → (∀ code, p ≠ code :: path) → (iters.foldl (unfoldIter path) f).level p = f.level p
  | [], f, level, below, hp, hb => by
    refine ⟨?_, fun code => ?_, fun _ _ _ => rfl⟩
    · rw [List.foldl_nil, hp]
      simp
    · have htails : tails code [] = [] := rfl
      rw [List.foldl_nil, htails, List.append_nil, hb]
  | [] :: iters, f, level, below, hp, hb => by
    obtain ⟨h₁, h₂, h₃⟩ := foldl_unfoldIter path iters (unfoldIter path f []) { level with isEnd := true } below
      ((modify_self f path _).trans (by rw [hp]; rfl)) (fun code => (modify_other _ (cons_ne code)).trans (hb code))
    rw [List.foldl_cons]
    refine ⟨h₁.trans (by simp), h₂, fun p hp' hc => (h₃ p hp' hc).trans (modify_other _ hp')⟩
  | (code :: rest) :: iters, f, level, below, hp, hb => by
    obtain ⟨h₁, h₂, h₃⟩ := foldl_unfoldIter path iters (unfoldIter path f (code :: rest)) level
      (Function.update below code (below code ++ [rest])) ((push_other rest (cons_ne code).symm).trans hp)
      (fun code' => by
        show Function.update f.level (code :: path) _ (code' :: path) = _
        by_cases hc : code' = code
        · subst hc
          rw [Function.update_self, Function.update_self, if_neg (by simp), hb]
          split
          · next hnil => simp [hnil, Level.new]
          · rfl
        · rw [Function.update_of_ne (fun h => hc (List.cons.inj h).1), Function.update_of_ne hc, hb])
    rw [List.foldl_cons]
    have htails : ∀ code', Function.update below code (below code ++ [rest]) code' ++ tails code' iters =
        below code' ++ tails code' ((code :: rest) :: iters) := by
      intro code'
      by_cases hc : code' = code
      · subst hc
        rw [Function.update_self]
        simp [tails]
      · rw [Function.update_of_ne hc]
        simp [tails, Ne.symm hc]
    refine ⟨h₁.trans (by simp), fun code' => ?_, fun p hp' hc => ?_⟩
    · rw [h₂, htails]
    · exact (h₃ p hp' hc).trans (push_other rest (hc code))

/-- What unfolding a level does: it is unfolded then, and every level that was unfolded stays as it was. -/
structure Unfolds (W : List (List Nat)) (path : List Nat) (f f' : Filter) : Prop where
  trie : Trie W f'
  there : (f'.level path).isSome = (f.level path).isSome
  init : ∀ level, f'.level path = some level → level.isInit = true
  keeps : ∀ p level, f.level p = some level → level.isInit = true → f'.level p = some level
  codes : f'.replaceCode = f.replaceCode ∧ f'.ignoreCode = f.ignoreCode

theorem unfoldLevel_none {f : Filter} {path : List Nat} (h : f.level path = none) : f.unfoldLevel path = f := by
  unfold Filter.unfoldLevel
  rw [h]

theorem unfoldLevel_init {f : Filter} {path : List Nat} {level : Level} (h : f.level path = some level)
    (hinit : level.isInit = true) : f.unfoldLevel path = f := by
  unfold Filter.unfoldLevel
  rw [h]
  exact if_pos hinit

theorem unfoldLevel_folded {f : Filter} {path : List Nat} {level : Level} (hlevel : f.level path = some level)
    (hinit : level.isInit = false) (hnone : ∀ code, f.level (code :: path) = none) :
    (f.unfoldLevel path).level path = some ⟨true, level.isEnd || level.iters.contains [], []⟩ ∧
      (∀ code, (f.unfoldLevel path).level (code :: path) =
        if tails code level.iters = [] then none else some ⟨false, false, tails code level.iters⟩) ∧
      ∀ p, p ≠ path → (∀ code, p ≠ code :: path) → (f.unfoldLevel path).level p = f.level p := by
  obtain ⟨h₁, h₂, h₃⟩ := foldl_unfoldIter path level.iters f level (fun _ => []) hlevel
    (fun code => by rw [if_pos rfl, hnone])
  have heq : f.unfoldLevel path =
      (level.iters.foldl (unfoldIter path) f).modify path (fun level => { level with isInit := true, iters := [] }) := by
    unfold Filter.unfoldLevel
    rw [hlevel]
    simp only
    rw [if_neg (by rw [hinit]; exact Bool.false_ne_true)]
  rw [heq]
  refine ⟨?_, fun code => (modify_other _ (cons_ne code)).trans (h₂ code),
    fun p hpp hpc => (modify_other _ hpp).trans (h₃ p hpp hpc)⟩
  rw [modify_self, h₁]
  rfl

theorem Trie.unfoldLevel {W : List (List Nat)} {f : Filter} (h : Trie W f) {path : List Nat} (hp : path ≠ []) :
    Unfolds W path f (f.unfoldLevel path) := by
  have hcodes := unfoldLevel_codes f path
  cases hlevel : f.level path with
  | none =>
    rw [unfoldLevel_none hlevel]
    refine ⟨h, rfl, fun level hl => ?_, fun _ _ hl _ => hl, rfl, rfl⟩
    cases hlevel.symm.trans hl
  | some level =>
    by_cases hinit : level.isInit = true
    · rw [unfoldLevel_init hlevel hinit]
      refine ⟨h, rfl, fun level' hl => ?_, fun _ _ hl _ => hl, rfl, rfl⟩
      rwa [← Option.some.inj (hlevel.symm.trans hl)]
    obtain ⟨hend, hiters, hnone⟩ := h.folded path level hp hlevel (Bool.eq_false_iff.2 hinit)
    obtain ⟨hself, htails, hother⟩ := unfoldLevel_folded hlevel (Bool.eq_false_iff.2 hinit) hnone
    rw [hend, Bool.false_or] at hself
    have hbelow : ∀ code, (f.unfoldLevel path).level (code :: path) =
        if rests W (code :: path) = [] then none else some ⟨false, false, rests W (code :: path)⟩ := by
      intro code
      rw [htails, hiters, rests_cons]
    generalize f.unfoldLevel path = f' at *
    have hdeep : ∀ code code', f'.level (code' :: code :: path) = none := by
      intro code code'
      rw [hother]
      · exact h.below (code :: path) code' (List.cons_ne_nil _ _) (hnone code)
      · intro heq
        have := congrArg List.length heq
        simp only [List.length_cons] at this
        omega
      · intro c heq
        exact cons_ne code (List.cons.inj heq).2
    have hup : ∀ p code, p ≠ path → code :: p ≠ path → (∀ c, p ≠ c :: path) → f'.level (code :: p) =
      f.level (code :: p) := by
      intro p code hpp hcp hpc
      refine hother _ hcp (fun c heq => hpp (List.cons.inj heq).2)
    refine ⟨⟨?_, ?_, ?_, ?_⟩, ?_, ?_, ?_, hcodes⟩
    · intro code
      by_cases hpc : [code] = path
      · rw [hpc, hself, ← hpc, ← h.first code, hpc, hlevel]
        simp
      · rw [hother _ hpc (fun c heq => hp (List.cons.inj heq).2.symm)]
        exact h.first code
    · intro p code hpn hl
      by_cases hpp : p = path
      · rw [hpp, hself] at hl
        cases hl
      by_cases hpc : ∃ c, p = c :: path
      · obtain ⟨c, rfl⟩ := hpc
        exact hdeep c code
      rw [not_exists] at hpc
      rw [hother p hpp hpc] at hl
      have hbelow' := h.below p code hpn hl
      by_cases hcp : code :: p = path
      · rw [hcp, hlevel] at hbelow'
        cases hbelow'
      · rw [hup p code hpp hcp hpc]
        exact hbelow'
    · intro p level' hpn hl hi
      by_cases hpp : p = path
      · rw [hpp, hself] at hl
        rw [← Option.some.inj hl] at hi
        cases hi
      by_cases hpc : ∃ c, p = c :: path
      · obtain ⟨c, rfl⟩ := hpc
        rw [hbelow] at hl
        split at hl
        · cases hl
        · rw [← Option.some.inj hl]
          exact ⟨rfl, rfl, hdeep c⟩
      rw [not_exists] at hpc
      rw [hother p hpp hpc] at hl
      obtain ⟨he, hr, hn⟩ := h.folded p level' hpn hl hi
      refine ⟨he, hr, fun code => ?_⟩
      by_cases hcp : code :: p = path
      · have hno := hn code
        rw [hcp, hlevel] at hno
        cases hno
      · rw [hup p code hpp hcp hpc]
        exact hn code
    · intro p level' hpn hl hi
      by_cases hpp : p = path
      · subst hpp
        rw [hself] at hl
        rw [← Option.some.inj hl]
        refine ⟨?_, fun code => ?_⟩
        · show level.iters.contains [] = true ↔ _
          rw [List.contains_eq_mem, decide_eq_true_eq, hiters, mem_rests, List.append_nil]
        · rw [hbelow, leads_iff]
          split
          · next hnil => simp [hnil]
          · next hnil => simp [hnil]
      by_cases hpc : ∃ c, p = c :: path
      · obtain ⟨c, rfl⟩ := hpc
        rw [hbelow] at hl
        split at hl
        · cases hl
        · rw [← Option.some.inj hl] at hi
          cases hi
      rw [not_exists] at hpc
      rw [hother p hpp hpc] at hl
      obtain ⟨he, hb⟩ := h.unfolded p level' hpn hl hi
      refine ⟨he, fun code => ?_⟩
      by_cases hcp : code :: p = path
      · rw [← hb code, hcp, hself, hlevel, Option.isSome_some, Option.isSome_some]
      · rw [hup p code hpp hcp hpc]
        exact hb code
    · rw [hself, hlevel]
      rfl
    · intro level' hl
      rw [hself] at hl
      rw [← Option.some.inj hl]
    · intro p level' hl hi
      have hpp : p ≠ path := by
        rintro rfl
        rw [Option.some.inj (hlevel.symm.trans hl)] at hinit
        exact hinit hi
      rw [hother p hpp (fun code heq => ?_)]
      · exact hl
      · rw [heq, hnone] at hl
        cases hl

theorem ctor_root (replaceCode : Nat) (ignoreCode : List Nat) : (ctor replaceCode ignoreCode).level [] =
    some Level.new := by
  simp [ctor]

theorem ctor_below (replaceCode : Nat) (ignoreCode : List Nat) (code : Nat) (path : List Nat) :
    (ctor replaceCode ignoreCode).level (code :: path) = none := by
  simp [ctor]

theorem Trie.fill {W : List (List Nat)} (replaceCode : Nat) (ignoreCode : List Nat) (hW : ∀ w ∈ W, w ≠ []) :
    Trie W ((ctor replaceCode ignoreCode).init W false) := by
  -- filling the trie is what unfolding the root would be
  have hfold : ∀ (V : List (List Nat)) (f : Filter), (∀ w ∈ V, w ∈ W) →
      V.foldl (initWord false) f = V.foldl (unfoldIter []) f := by
    intro V
    induction V with
    | nil => exact fun _ _ => rfl
    | cons w V ih =>
      intro f hV
      have hw : initWord false f w = unfoldIter [] f w := by
        cases w with
        | nil => exact absurd rfl (hW _ (hV _ List.mem_cons_self))
        | cons code iter => rfl
      rw [List.foldl_cons, List.foldl_cons, hw]
      exact ih _ (fun v hv => hV v (List.mem_cons_of_mem _ hv))
  have hroot : rests W [] = W := by
    unfold rests
    simp
  obtain ⟨-, hfirst, hother⟩ := foldl_unfoldIter [] W (ctor replaceCode ignoreCode) Level.new (fun _ => [])
    (ctor_root _ _) (fun code => by rw [if_pos rfl, ctor_below])
  have hlevel : ∀ path, path ≠ [] → ((ctor replaceCode ignoreCode).init W false).level path =
      (W.foldl (unfoldIter []) (ctor replaceCode ignoreCode)).level path := by
    intro path hp
    refine (modify_other _ hp).trans ?_
    rw [hfold W _ (fun _ hw => hw)]
  have hone : ∀ code, ((ctor replaceCode ignoreCode).init W false).level [code] =
      if rests W [code] = [] then none else some ⟨false, false, rests W [code]⟩ := by
    intro code
    rw [hlevel _ (List.cons_ne_nil _ _), hfirst, List.nil_append, rests_cons, hroot]
  have hdeep : ∀ code code' path, ((ctor replaceCode ignoreCode).init W false).level (code' :: code :: path) =
    none := by
    intro code code' path
    rw [hlevel _ (List.cons_ne_nil _ _), hother _ (List.cons_ne_nil _ _)]
    · exact ctor_below _ _ _ _
    · intro c heq
      cases (List.cons.inj heq).2
  generalize (ctor replaceCode ignoreCode).init W false = f at *
  refine ⟨fun code => ?_, fun path code hp _ => ?_, fun path level hp hl _ => ?_, fun path level hp hl hi => ?_⟩
  · rw [hone, leads_iff]
    split
    · next hnil => simp [hnil]
    · next hnil => simp [hnil]
  · cases path with
    | nil => exact absurd rfl hp
    | cons c path => exact hdeep c code path
  · match path, hp, hl with
    | [c], _, hl =>
      rw [hone] at hl
      split at hl
      · cases hl
      · rw [← Option.some.inj hl]
        exact ⟨rfl, rfl, fun code => hdeep c code []⟩
    | c :: c' :: path, _, hl => cases (hdeep c' c path).symm.trans hl
  · match path, hp, hl with
    | [c], _, hl =>
      rw [hone] at hl
      split at hl
      · cases hl
      · rw [← Option.some.inj hl] at hi
        cases hi
    | c :: c' :: path, _, hl => cases (hdeep c' c path).symm.trans hl

theorem Trie.init {W : List (List Nat)} (replaceCode : Nat) (ignoreCode : List Nat) (removeIgnoreWords : Bool)
    (hW : ∀ w ∈ W, w ≠ [] ∧ ∀ c ∈ w, c ∉ ignoreCode) :
    Trie W ((ctor replaceCode ignoreCode).init W removeIgnoreWords) := by
  have hfold : ∀ (V : List (List Nat)) (f : Filter), (∀ w ∈ V, w ∈ W) → f.ignoreCode = ignoreCode →
      V.foldl (initWord removeIgnoreWords) f = V.foldl (initWord false) f := by
    intro V
    induction V with
    | nil => exact fun _ _ _ => rfl
    | cons w V ih =>
      intro f hV hf
      have hclean : (if removeIgnoreWords then w.filter (fun code => !f.ignores code) else w) = w := by
        split
        · refine List.filter_eq_self.2 (fun c hc => ?_)
          unfold ignores
          rw [hf, List.contains_eq_mem, decide_eq_false ((hW w (hV w List.mem_cons_self)).2 c hc)]
          rfl
        · rfl
      have hw : initWord removeIgnoreWords f w = initWord false f w := by
        unfold initWord
        rw [hclean]
        rfl
      rw [List.foldl_cons, List.foldl_cons, hw]
      refine ih _ (fun v hv => hV v (List.mem_cons_of_mem _ hv)) ?_
      cases w <;> exact hf
  have hsame : (ctor replaceCode ignoreCode).init W removeIgnoreWords = (ctor replaceCode ignoreCode).init W false := by
    unfold Filter.init
    rw [hfold W _ (fun _ hw => hw) rfl]
  rw [hsame]
  exact Trie.fill replaceCode ignoreCode fun w hw => (hW w hw).1

structure Kept (W : List (List Nat)) (f f' : Filter) : Prop where
  trie : Trie W f'
  replaceCode : f'.replaceCode = f.replaceCode
  ignoreCode : f'.ignoreCode = f.ignoreCode

theorem Kept.trans {W : List (List Nat)} {f g h : Filter} (hfg : Kept W f g) (hgh : Kept W g h) : Kept W f h :=
  ⟨hgh.trie, hgh.replaceCode.trans hfg.replaceCode, hgh.ignoreCode.trans hfg.ignoreCode⟩

theorem Trie.kept {W : List (List Nat)} {f : Filter} (h : Trie W f) : Kept W f f := ⟨h, rfl, rfl⟩

theorem Trie.unfoldLevel_kept {W : List (List Nat)} {f : Filter} (h : Trie W f) (code : Nat) (path : List Nat) :
    Kept W f (f.unfoldLevel (code :: path)) :=
  have hu := h.unfoldLevel (List.cons_ne_nil code path)
  ⟨hu.trie, hu.codes.1, hu.codes.2⟩

theorem Trie.findEnd {W : List (List Nat)} (codeList : List Nat) : ∀ (iter : List Nat) {f : Filter}, Trie W f →
    ∀ (path tempList : List Nat) (b : Option Nat), Kept W f (findEnd codeList f path tempList b iter).filter
  | [], _, h, _, _, _ => h.kept
  | code :: iter, f, h, path, tempList, b => by
    unfold Filter.findEnd
    simp only
    have hu := h.unfoldLevel_kept (convertEnLowerCode code) path
    split
    · exact Trie.findEnd codeList iter h _ _ _
    split
    · exact hu
    split
    · exact hu
    · exact hu.trans (Trie.findEnd codeList iter hu.trie _ _ _)

theorem Trie.stretch {W : List (List Nat)} : ∀ (iter : List Nat) {f : Filter}, Trie W f →
    ∀ (current next : Option (List Nat)) (tempList : List Nat) (new : Bool),
      Kept W f (stretch f current next tempList new iter).filter
  | [], _, h, _, _, _, _ => h.kept
  | code :: iter, f, h, current, next, tempList, new => by
    unfold Filter.stretch
    simp only
    split
    · exact h.kept
    split
    · next path _ =>
      have hu := h.unfoldLevel_kept (convertEnLowerCode code) path
      exact hu.trans (Trie.stretch iter hu.trie _ _ _ _)
    · exact h.kept

theorem Trie.settle {W : List (List Nat)} (s : Scan) {look : Look} (h : Trie W look.filter) (r : Replace) :
    Kept W look.filter (settle s look r).filter := by
  have hletters : Kept W look.filter (replaceLetters look.filter look.codeList r look.iter).filter := by
    unfold replaceLetters
    split
    · exact h.kept
    have hstretch := h.stretch look.iter (some r.level) none [] false
    simp only
    split
    · exact hstretch
    split
    · exact hstretch
    · exact hstretch
  unfold Filter.settle
  split
  · simp only
    split <;> exact hletters
  · simp only
    split <;> exact h.kept

theorem Trie.turn {W : List (List Nat)} {s : Scan} (h : Trie W s.filter) : Kept W s.filter (turn s).filter := by
  unfold Filter.turn
  split
  · exact h.kept
  next code iter _ =>
    have hfind := h.findEnd s.codeList (code :: iter) [] [] none
    simp only
    split
    · exact hfind
    · exact hfind.trans (hfind.trie.settle s _)

theorem Trie.turns {W : List (List Nat)} {s : Scan} (h : Trie W s.filter) : ∀ k, Kept W s.filter (Filter.turn^[k] s).filter
  | 0 => h.kept
  | k + 1 => by
    rw [Function.iterate_succ_apply']
    exact (Trie.turns h k).trans (Trie.turns h k).trie.turn

theorem Trie.doFilter {W : List (List Nat)} {f : Filter} (h : Trie W f) (text : List Nat) :
    Kept W f (f.doFilter text).1 := by
  have hloop : (f.doFilter text).1 = (Filter.turn^[text.length] (start f text)).filter :=
    congrArg Scan.filter (loop_eq _ _ (Nat.le_refl _))
  rw [hloop]
  exact h.turns (s := start f text) text.length

theorem Trie.texts {W : List (List Nat)} : ∀ (texts : List (List Nat)) {f : Filter}, Trie W f →
    Kept W f (texts.foldl (fun f text => (f.doFilter text).1) f)
  | [], _, h => h.kept
  | text :: texts, _, h => (h.doFilter text).trans (Trie.texts texts (h.doFilter text).trie)

end Filter
end WordFilter
end Sncpp
