import Sncpp.WordFilterAdd
/-!
# WordFilterSound — the words of the trie as one is added or deleted

The iterator of a word that is added goes on, level after level, as far as the levels it leads through have been
unfolded before; at the first that has not been it waits as those of the other words do.  So the trie is that of the
words and the new one (`Ready.add`).
-/
namespace Sncpp
namespace WordFilter
namespace Filter

variable {f : Filter} {W : List (List Nat)}

theorem filter_ext {f g : Filter} (hign : f.ignoreCode = g.ignoreCode) (hreplace : f.replaceCode = g.replaceCode)
    (hlevel : ∀ path, f.level path = g.level path) : f = g := by
  obtain ⟨_, _, level⟩ := f
  obtain ⟨_, _, level'⟩ := g
  obtain rfl : level = level' := funext hlevel
  obtain rfl := hign
  obtain rfl := hreplace
  rfl

/-- **The trie is that of the words, no iterator is left in a level that is unfolded, and only along lower-case code points
are there such levels.** -/
structure Sound (W : List (List Nat)) (f : Filter) : Prop where
  trie : Trie W f
  tidy : ∀ path level, path ≠ [] → f.level path = some level → level.isInit = true → level.iters = [] ∧ Lower path


theorem Sound.congr {g : Filter} (h : Sound W f) (heq : ∀ path, path ≠ [] → g.level path = f.level path) : Sound W g := by
  obtain ⟨⟨hfirst, hbelow, hfolded, hunfolded⟩, htidy⟩ := h
  refine ⟨⟨fun code => ?_, fun path code hp hl => ?_, fun path level hp hl hi => ?_, fun path level hp hl hi => ?_⟩,
    fun path level hp hl => ?_⟩
  · rw [heq _ (List.cons_ne_nil _ _)]
    exact hfirst code
  · rw [heq _ hp] at hl
    rw [heq _ (List.cons_ne_nil _ _)]
    exact hbelow path code hp hl
  · rw [heq _ hp] at hl
    obtain ⟨hend, hiters, hnone⟩ := hfolded path level hp hl hi
    refine ⟨hend, hiters, fun code => ?_⟩
    rw [heq _ (List.cons_ne_nil _ _)]
    exact hnone code
  · rw [heq _ hp] at hl
    obtain ⟨hend, hleads⟩ := hunfolded path level hp hl hi
    refine ⟨hend, fun code => ?_⟩
    rw [heq _ (List.cons_ne_nil _ _)]
    exact hleads code
  · rw [heq _ hp] at hl
    exact htidy path level hp hl

theorem Sound.stable : Stable (Sound W) := by
  intro f path hp hlow h
  refine ⟨(h.trie.unfoldLevel hp).trie, fun p level hpn hl hi => ?_⟩
  cases hlevel : f.level path with
  | none =>
    rw [unfoldLevel_none hlevel] at hl
    exact h.tidy p level hpn hl hi
  | some level' =>
    by_cases hinit : level'.isInit = true
    · rw [unfoldLevel_init hlevel hinit] at hl
      exact h.tidy p level hpn hl hi
    · obtain ⟨-, -, hnone⟩ := h.trie.folded path level' hp hlevel (Bool.eq_false_iff.2 hinit)
      obtain ⟨hself, htails, hother⟩ := unfoldLevel_folded hlevel (Bool.eq_false_iff.2 hinit) hnone
      by_cases hpp : p = path
      · subst hpp
        rw [hself] at hl
        rw [← Option.some.inj hl]
        exact ⟨rfl, hlow⟩
      by_cases hpc : ∃ c, p = c :: path
      · obtain ⟨c, rfl⟩ := hpc
        rw [htails] at hl
        split at hl
        · cases hl
        · rw [← Option.some.inj hl] at hi
          cases hi
      · rw [hother p hpp (not_exists.1 hpc)] at hl
        exact h.tidy p level hpn hl hi

theorem Sound.unfoldLevelAdd (h : Sound W f) {path : List Nat} (hp : path ≠ []) :
    f.unfoldLevelAdd path = f.unfoldLevel path := by
  unfold Filter.unfoldLevelAdd
  split
  · next hl => rw [unfoldLevel_none hl]
  · next level hl =>
    by_cases hi : level.isInit = true
    · have hiters := (h.tidy path level hp hl hi).1
      have hsame : { level with isInit := true, iters := [] } = level := by
        rw [← hi, ← hiters]
      rw [unfoldLevel_init hl hi, hiters, List.foldl_nil]
      unfold modify
      rw [hl, Option.map_some, hsame, ← hl, Function.update_eq_self]
    · unfold Filter.unfoldLevel
      rw [hl]
      exact (if_neg hi).symm

theorem Trie.leads_of_level (h : Trie W f) : ∀ {path : List Nat}, path ≠ [] → (f.level path).isSome = true → Leads W path
  | [], hp, _ => absurd rfl hp
  | [code], _, hl => (h.first code).1 hl
  | code :: c :: path, _, hl => by
    cases hup : f.level (c :: path) with
    | none =>
      rw [h.below _ code (List.cons_ne_nil _ _) hup] at hl
      cases hl
    | some level =>
      cases hi : level.isInit with
      | false =>
        rw [(h.folded _ level (List.cons_ne_nil _ _) hup hi).2.2] at hl
        cases hl
      | true => exact ((h.unfolded _ level (List.cons_ne_nil _ _) hup hi).2 code).1 hl

theorem Trie.opened_above (h : Trie W f) (code : Nat) {path : List Nat} (hl : (f.level (code :: path)).isSome = true) :
    f.Opened path := by
  cases path with
  | nil => exact .inl rfl
  | cons c path =>
    cases hup : f.level (c :: path) with
    | none =>
      rw [h.below _ code (List.cons_ne_nil _ _) hup] at hl
      cases hl
    | some level =>
      cases hi : level.isInit with
      | false =>
        rw [(h.folded _ level (List.cons_ne_nil _ _) hup hi).2.2] at hl
        cases hl
      | true => exact .inr ⟨level, hup, hi⟩

theorem Trie.opened_suffix (h : Trie W f) : ∀ (front : List Nat) {path : List Nat}, f.Opened (front ++ path) → f.Opened path
  | [], _, hopen => hopen
  | code :: front, path, hopen => by
    refine h.opened_suffix front ?_
    rcases hopen with hnil | ⟨level, hl, -⟩
    · cases hnil
    · refine h.opened_above code ?_
      rw [← List.cons_append, hl]
      rfl

theorem Trie.level_below (h : Trie W f) {path : List Nat} (hno : ¬f.Opened path) (code : Nat) (front : List Nat) :
    f.level (code :: (front ++ path)) = none := by
  cases hl : f.level (code :: (front ++ path)) with
  | none => rfl
  | some level =>
    refine absurd (h.opened_suffix front (h.opened_above code ?_)) hno
    rw [hl]
    rfl

theorem leads_append {h p : List Nat} : Leads (W ++ [h]) p ↔ Leads W p ∨ p.reverse <+: h := by
  unfold Leads
  constructor
  · rintro ⟨w, hw, hp⟩
    rcases List.mem_append.1 hw with hw | hw
    · exact .inl ⟨w, hw, hp⟩
    · rw [← List.mem_singleton.1 hw]
      exact .inr hp
  · rintro (⟨w, hw, hp⟩ | hp)
    · exact ⟨w, List.mem_append_left _ hw, hp⟩
    · exact ⟨h, List.mem_append_right _ (List.mem_singleton.2 rfl), hp⟩

theorem rests_append (W : List (List Nat)) (h p : List Nat) :
    rests (W ++ [h]) p = rests W p ++ if p.reverse <+: h then [h.drop p.length] else [] := by
  unfold rests
  rw [List.filterMap_append]
  congr 1
  split
  · next hp => simp [hp]
  · next hp => simp [hp]

theorem way_cases {q p t : List Nat} {c : Nat} (h : q.reverse <+: p.reverse ++ c :: t) :
    (∃ front, p = front ++ q) ∨ ∃ front, q = front ++ c :: p := by
  rcases Nat.lt_or_ge p.length q.length with hlt | hge
  · refine .inr ?_
    have hpc : (c :: p).reverse <+: q.reverse := by
      refine List.prefix_of_prefix_length_le ?_ h (by simp only [List.length_reverse, List.length_cons]; omega)
      rw [List.reverse_cons]
      exact ⟨t, by simp⟩
    obtain ⟨front, hfront⟩ := List.reverse_prefix.1 hpc
    exact ⟨front, hfront.symm⟩
  · refine .inl ?_
    have hqp : q.reverse <+: p.reverse := List.prefix_of_prefix_length_le h (List.prefix_append _ _) (by simpa using hge)
    obtain ⟨front, hfront⟩ := List.reverse_prefix.1 hqp
    exact ⟨front, hfront.symm⟩

theorem Trie.leads_of_opened (h : Trie W f) {front q : List Nat} (hopen : f.Opened (front ++ q)) (hq : q ≠ []) :
    Leads W q := by
  rcases h.opened_suffix front hopen with rfl | ⟨level, hl, -⟩
  · exact absurd rfl hq
  · exact h.leads_of_level hq (by rw [hl]; rfl)

theorem Sound.push (h : Sound W f) {p : List Nat} (hopen : f.Opened p) {c : Nat} (hno : ¬f.Opened (c :: p)) (t : List Nat) :
    Sound (W ++ [p.reverse ++ c :: t]) (f.push p c t) := by
  obtain ⟨htrie, htidy⟩ := h
  have hself := push_self f p c t
  have hother : ∀ q, q ≠ c :: p → (f.push p c t).level q = f.level q := fun q hq => push_other t hq
  have hdeep : ∀ code front, f.level (code :: (front ++ c :: p)) = none := fun code front =>
    htrie.level_below hno code front
  generalize f.push p c t = g at hself hother
  -- the level at which the iterator waits is not unfolded
  have hwait : ∃ level, g.level (c :: p) = some level ∧ level.isInit = false ∧ level.isEnd = false ∧
      level.iters = rests (W ++ [p.reverse ++ c :: t]) (c :: p) := by
    have hrests : rests (W ++ [p.reverse ++ c :: t]) (c :: p) = rests W (c :: p) ++ [t] := by
      rw [rests_append, if_pos (by rw [List.reverse_cons]; exact ⟨t, by simp⟩)]
      congr 2
      rw [List.drop_append]
      simp
    refine ⟨_, hself, ?_⟩
    rw [hrests]
    cases hl : f.level (c :: p) with
    | none =>
      have hnil : rests W (c :: p) = [] := Classical.not_not.1 fun hne => by
        have hsome := (htrie.leads_iff hopen c).2 (WordFilter.leads_iff.2 hne)
        rw [hl] at hsome
        cases hsome
      rw [hnil]
      exact ⟨rfl, rfl, rfl⟩
    | some level =>
      have hi : level.isInit = false := Bool.eq_false_iff.2 fun hi => hno (.inr ⟨level, hl, hi⟩)
      obtain ⟨hend, hiters, -⟩ := htrie.folded _ level (List.cons_ne_nil _ _) hl hi
      exact ⟨hi, hend, by rw [← hiters]; rfl⟩
  obtain ⟨waiting, hwaiting, hwi, hwe, hwr⟩ := hwait
  -- a level on the way of the word is above that one, or that one, or there is none
  have hway : ∀ q level, q ≠ [] → q ≠ c :: p → f.level q = some level → q.reverse <+: p.reverse ++ c :: t →
      ∃ front, p = front ++ q := by
    intro q level hq hqc hl hon
    refine (way_cases hon).resolve_right ?_
    rintro ⟨front, rfl⟩
    cases front with
    | nil => exact hqc rfl
    | cons code front =>
      rw [List.cons_append, hdeep] at hl
      cases hl
  have hleads : ∀ code q, f.Opened q → code :: q ≠ c :: p →
      ((f.level (code :: q)).isSome = true ↔ Leads (W ++ [p.reverse ++ c :: t]) (code :: q)) := by
    intro code q hq hne
    rw [htrie.leads_iff hq, leads_append]
    refine (or_iff_left_of_imp fun hon => ?_).symm
    rcases way_cases hon with ⟨front, rfl⟩ | ⟨front, hfront⟩
    · exact htrie.leads_of_opened hopen (List.cons_ne_nil _ _)
    · cases front with
      | nil => exact absurd hfront hne
      | cons code' front =>
        obtain ⟨-, rfl⟩ := List.cons.inj hfront
        exact absurd (htrie.opened_suffix front hq) hno
  have hthere : Leads (W ++ [p.reverse ++ c :: t]) (c :: p) :=
    leads_append.2 (.inr (by rw [List.reverse_cons]; exact ⟨t, by simp⟩))
  refine ⟨⟨fun code => ?_, fun q code hq hl => ?_, fun q level hq hl hi => ?_, fun q level hq hl hi => ?_⟩,
    fun q level hq hl hi => ?_⟩
  · by_cases hne : [code] = c :: p
    · rw [hne, hwaiting]
      exact iff_of_true rfl hthere
    · rw [hother _ hne]
      exact hleads code [] (.inl rfl) hne
  · by_cases hqc : q = c :: p
    · rw [hqc, hwaiting] at hl
      cases hl
    rw [hother q hqc] at hl
    rw [hother _ (fun heq => ?_)]
    · exact htrie.below q code hq hl
    · obtain ⟨-, rfl⟩ := List.cons.inj heq
      rcases hopen with rfl | ⟨level, hl', -⟩
      · exact hq rfl
      · cases hl.symm.trans hl'
  · by_cases hqc : q = c :: p
    · subst hqc
      obtain rfl : waiting = level := Option.some.inj (hwaiting.symm.trans hl)
      refine ⟨hwe, hwr, fun code => ?_⟩
      rw [hother _ (cons_ne code)]
      exact hdeep code []
    rw [hother q hqc] at hl
    obtain ⟨hend, hiters, hnone⟩ := htrie.folded q level hq hl hi
    have hqno : ¬f.Opened q := by
      rintro (hnil | ⟨level', hl', hi'⟩)
      · exact hq hnil
      · rw [Option.some.inj (hl.symm.trans hl'), hi'] at hi
        cases hi
    refine ⟨hend, ?_, fun code => ?_⟩
    · rw [hiters, rests_append, if_neg, List.append_nil]
      intro hon
      obtain ⟨front, rfl⟩ := hway q level hq hqc hl hon
      exact hqno (htrie.opened_suffix front hopen)
    · rw [hother _ (fun heq => ?_)]
      · exact hnone code
      · obtain ⟨-, rfl⟩ := List.cons.inj heq
        exact hqno hopen
  · by_cases hqc : q = c :: p
    · subst hqc
      rw [← Option.some.inj (hwaiting.symm.trans hl), hwi] at hi
      cases hi
    rw [hother q hqc] at hl
    obtain ⟨hend, -⟩ := htrie.unfolded q level hq hl hi
    refine ⟨?_, fun code => ?_⟩
    · rw [hend, List.mem_append, List.mem_singleton]
      refine (or_iff_left_of_imp fun heq => ?_).symm
      obtain ⟨front, rfl⟩ := hway q level hq hqc hl (heq ▸ List.prefix_rfl)
      have hlen := congrArg List.length heq
      simp only [List.length_append, List.length_reverse, List.length_cons] at hlen
      omega
    · by_cases hne : code :: q = c :: p
      · rw [hne, hwaiting]
        exact iff_of_true rfl hthere
      · rw [hother _ hne]
        exact hleads code q (.inr ⟨level, hl, hi⟩) hne
  · by_cases hqc : q = c :: p
    · subst hqc
      rw [← Option.some.inj (hwaiting.symm.trans hl), hwi] at hi
      cases hi
    · rw [hother q hqc] at hl
      exact htidy q level hq hl hi

theorem Sound.mark (h : Sound W f) {p : List Nat} {level : Level} (hp : p ≠ []) (hl : f.level p = some level)
    (hi : level.isInit = true) :
    Sound (W ++ [p.reverse]) (f.modify p (fun level => { level with isEnd := true })) := by
  obtain ⟨htrie, htidy⟩ := h
  have hopen : f.Opened p := .inr ⟨level, hl, hi⟩
  have hself := modify_self f p (fun level => { level with isEnd := true })
  rw [hl, Option.map_some] at hself
  have hother : ∀ q, q ≠ p → (f.modify p (fun level => { level with isEnd := true })).level q = f.level q :=
    fun q hq => modify_other _ hq
  generalize f.modify p (fun level => { level with isEnd := true }) = g at hself hother
  have hsome : ∀ q, (g.level q).isSome = (f.level q).isSome := by
    intro q
    by_cases hq : q = p
    · rw [hq, hself, hl]
      rfl
    · rw [hother q hq]
  have habove : ∀ q, q.reverse <+: p.reverse → ∃ front, p = front ++ q := by
    intro q hon
    obtain ⟨front, hfront⟩ := List.reverse_prefix.1 hon
    exact ⟨front, hfront.symm⟩
  have hleads : ∀ code q, f.Opened q →
      ((f.level (code :: q)).isSome = true ↔ Leads (W ++ [p.reverse]) (code :: q)) := by
    intro code q hq
    rw [htrie.leads_iff hq, leads_append]
    refine (or_iff_left_of_imp fun hon => ?_).symm
    obtain ⟨front, rfl⟩ := habove _ hon
    exact htrie.leads_of_opened hopen (List.cons_ne_nil _ _)
  refine ⟨⟨fun code => ?_, fun q code hq hl' => ?_, fun q level' hq hl' hi' => ?_, fun q level' hq hl' hi' => ?_⟩,
    fun q level' hq hl' hi' => ?_⟩
  · rw [hsome]
    exact hleads code [] (.inl rfl)
  · have hnone := hsome q
    rw [hl'] at hnone
    have hbelow := htrie.below q code hq (Option.isNone_iff_eq_none.1 (by rw [← Option.not_isSome, ← hnone]; rfl))
    have hsome' := hsome (code :: q)
    rw [hbelow] at hsome'
    exact Option.isNone_iff_eq_none.1 (by rw [← Option.not_isSome, hsome']; rfl)
  · by_cases hqp : q = p
    · subst hqp
      rw [← Option.some.inj (hself.symm.trans hl'), hi] at hi'
      cases hi'
    rw [hother q hqp] at hl'
    obtain ⟨hend, hiters, hnone⟩ := htrie.folded q level' hq hl' hi'
    refine ⟨hend, ?_, fun code => ?_⟩
    · rw [hiters, rests_append, if_neg, List.append_nil]
      intro hon
      obtain ⟨front, rfl⟩ := habove q hon
      rcases htrie.opened_suffix front hopen with hnil | ⟨level'', hl'', hi''⟩
      · exact hq hnil
      · rw [Option.some.inj (hl'.symm.trans hl''), hi''] at hi'
        cases hi'
    · have hsome' := hsome (code :: q)
      rw [hnone] at hsome'
      exact Option.isNone_iff_eq_none.1 (by rw [← Option.not_isSome, hsome']; rfl)
  · have hqo : f.Opened q := by
      by_cases hqp : q = p
      · rw [hqp]
        exact hopen
      · rw [hother q hqp] at hl'
        exact .inr ⟨level', hl', hi'⟩
    refine ⟨?_, fun code => ?_⟩
    · rw [List.mem_append, List.mem_singleton]
      by_cases hqp : q = p
      · subst hqp
        rw [← Option.some.inj (hself.symm.trans hl')]
        exact iff_of_true rfl (.inr rfl)
      · rw [hother q hqp] at hl'
        rw [(htrie.unfolded q level' hq hl' hi').1]
        exact (or_iff_left fun heq => hqp (List.reverse_injective heq)).symm
    · rw [hsome]
      exact hleads code q hqo
  · by_cases hqp : q = p
    · subst hqp
      rw [← Option.some.inj (hself.symm.trans hl')]
      exact htidy q level hq hl hi
    · rw [hother q hqp] at hl'
      exact htidy q level' hq hl' hi'

theorem push_unfold {p t : List Nat} {c c' : Nat} {level : Level} (hl : f.level (c :: p) = some level)
    (hi : level.isInit = true) (hiters : level.iters = []) :
    (f.push p c (c' :: t)).unfoldLevelAdd (c :: p) = f.push (c :: p) c' t := by
  have hhere := push_self f p c (c' :: t)
  rw [hl, Option.getD_some, hiters] at hhere
  unfold Filter.unfoldLevelAdd
  rw [hhere]
  refine filter_ext rfl rfl (fun q => ?_)
  show (((f.push p c (c' :: t)).push (c :: p) c' t).modify (c :: p) _).level q = _
  by_cases hq : q = c :: p
  · subst hq
    rw [modify_self, push_other t (cons_ne c').symm, push_other t (cons_ne c').symm, hhere, hl, Option.map_some, ← hi,
      ← hiters]
  rw [modify_other _ hq]
  by_cases hqc : q = c' :: c :: p
  · subst hqc
    rw [push_self, push_self, push_other _ (cons_ne c')]
  · rw [push_other t hqc, push_other t hqc, push_other _ hq]

theorem push_end {p : List Nat} {c : Nat} {level : Level} (hl : f.level (c :: p) = some level) (hi : level.isInit = true)
    (hiters : level.iters = []) :
    (f.push p c []).unfoldLevelAdd (c :: p) = f.modify (c :: p) (fun level => { level with isEnd := true }) := by
  have hhere := push_self f p c []
  rw [hl, Option.getD_some, hiters] at hhere
  unfold Filter.unfoldLevelAdd
  rw [hhere]
  refine filter_ext rfl rfl (fun q => ?_)
  show (((f.push p c []).modify (c :: p) _).modify (c :: p) _).level q = _
  by_cases hq : q = c :: p
  · subst hq
    rw [modify_self, modify_self, modify_self, hhere, hl, Option.map_some, Option.map_some, Option.map_some, ← hi,
      ← hiters]
  · rw [modify_other _ hq, modify_other _ hq, modify_other _ hq, push_other _ hq]

theorem unfoldLevelAdd_codes (f : Filter) (path : List Nat) :
    (f.unfoldLevelAdd path).replaceCode = f.replaceCode ∧ (f.unfoldLevelAdd path).ignoreCode = f.ignoreCode := by
  unfold Filter.unfoldLevelAdd
  split
  · exact ⟨rfl, rfl⟩
  · exact foldl_unfoldIter_codes path _ f

theorem addCode_codes (s : Filter × List Nat) (code : Nat) :
    (addCode s code).1.replaceCode = s.1.replaceCode ∧ (addCode s code).1.ignoreCode = s.1.ignoreCode := by
  unfold addCode
  split
  · exact ⟨rfl, rfl⟩
  simp only
  split
  · exact unfoldLevelAdd_codes _ _
  · exact ⟨rfl, rfl⟩

theorem Sound.lower (h : Sound W f) {p : List Nat} (hopen : f.Opened p) : Lower p := by
  rcases hopen with rfl | ⟨level, hl, hi⟩
  · exact lower_nil
  · cases p with
    | nil => exact lower_nil
    | cons c p => exact (h.tidy _ level (List.cons_ne_nil _ _) hl hi).2

theorem Sound.walk (h : Sound W f) {path : List Nat} (hlow : Lower path) (codes : List Nat) :
    Sound W (codes.foldl addCode (f, path)).1 := by
  suffices hall : Sound W (codes.foldl addCode (f, path)).1 ∧ Lower (codes.foldl addCode (f, path)).2 from hall.1
  refine Steps.inv_of_run (I := fun s : Filter × List Nat => Sound W s.1 ∧ Lower s.2) (fun s code hs => ?_) codes (f, path)
    ⟨h, hlow⟩
  unfold addCode
  split
  · exact hs
  simp only
  split
  · have hlow' := hs.2.cons code
    refine ⟨?_, hlow'⟩
    rw [hs.1.unfoldLevelAdd (List.cons_ne_nil _ _)]
    exact Sound.stable _ _ (List.cons_ne_nil _ _) hlow' hs.1
  · exact hs

theorem Sound.addCodes : ∀ (t : List Nat) (c : Nat) {f : Filter} {p : List Nat}, Sound W f → f.Opened p →
    (∀ x ∈ c :: t, f.ignores x = false) →
    Sound (W ++ [p.reverse ++ c :: t]) ((c :: t).foldl addCode (f.push p c t, p)).1
  | t, c, f, p, h, hopen, hheard => by
    by_cases hno : f.Opened (c :: p)
    · rcases hno with hnil | ⟨level, hl, hi⟩
      · cases hnil
      obtain ⟨hiters, hlow⟩ := h.tidy _ level (List.cons_ne_nil _ _) hl hi
      have hstep : addCode (f.push p c t, p) c = ((f.push p c t).unfoldLevelAdd (c :: p), c :: p) := by
        have hskip : ¬(f.push p c t).ignores c = true := Bool.eq_false_iff.1 (hheard c List.mem_cons_self)
        unfold addCode
        rw [if_neg hskip, hlow c List.mem_cons_self]
        refine if_pos ?_
        rw [push_self]
        rfl
      rw [List.foldl_cons, hstep]
      cases t with
      | nil =>
        rw [push_end hl hi hiters, ← List.reverse_cons]
        exact h.mark (List.cons_ne_nil _ _) hl hi
      | cons c' t =>
        have hrest := Sound.addCodes t c' h (.inr ⟨level, hl, hi⟩) (fun x hx => hheard x (List.mem_cons_of_mem _ hx))
        rw [List.reverse_cons, List.append_assoc, List.singleton_append] at hrest
        rw [push_unfold hl hi hiters]
        exact hrest
    · exact (h.push hopen hno t).walk (h.lower hopen) _

/-- **The trie is that of the words, and the codes are these.** -/
structure Ready (ignoreCode : List Nat) (replaceCode : Nat) (W : List (List Nat)) (f : Filter) : Prop where
  sound : Sound W f
  ignoreCode : f.ignoreCode = ignoreCode
  replaceCode : f.replaceCode = replaceCode

variable {ignoreCode : List Nat} {replaceCode : Nat}

theorem Ready.stable : Stable (Ready ignoreCode replaceCode W) := fun f path hp hlow h =>
  ⟨Sound.stable f path hp hlow h.sound, (unfoldLevel_codes f path).2.trans h.ignoreCode,
    (unfoldLevel_codes f path).1.trans h.replaceCode⟩

theorem foldl_heard {σ : Type} {step : σ → Nat → σ} {I : σ → Prop} (hskip : ∀ s c, I s → c ∈ ignoreCode → step s c = s)
    (hkeep : ∀ s c, I s → I (step s c)) : ∀ (words : List Nat) (s : σ), I s →
    words.foldl step s = (heard ignoreCode words).foldl step s
  | [], _, _ => rfl
  | c :: words, s, hs => by
    rw [List.foldl_cons]
    by_cases hc : c ∈ ignoreCode
    · rw [hskip s c hs hc, heard_ignored (by simpa using hc)]
      exact foldl_heard hskip hkeep words s hs
    · rw [heard_cons (by simpa using hc), List.foldl_cons]
      exact foldl_heard hskip hkeep words _ (hkeep s c hs)

theorem ignores_iff {code : Nat} : f.ignores code = true ↔ code ∈ f.ignoreCode := by
  unfold ignores
  rw [List.contains_eq_mem, decide_eq_true_eq]

theorem Ready.add (h : Ready ignoreCode replaceCode W f) {words : List Nat} (hne : heard ignoreCode words ≠ []) :
    Ready ignoreCode replaceCode (W ++ [heard ignoreCode words]) (f.addFilterWord words true) := by
  obtain ⟨hsound, rfl, rfl⟩ := h
  obtain ⟨c, t, hw⟩ := List.exists_cons_of_ne_nil hne
  have hinit : f.init [words] true = (f.modify [] (fun level => { level with isInit := true })).push [] c t := by
    have hword : initWord true f words = f.push [] c t := by
      have hkept : words.filter (fun code => !f.ignores code) = c :: t := hw
      unfold initWord
      simp only [if_pos, hkept]
    unfold Filter.init
    rw [List.foldl_cons, List.foldl_nil, hword]
    refine filter_ext rfl rfl (fun q => ?_)
    by_cases hq : q = []
    · subst hq
      rw [modify_self, push_other t (List.cons_ne_nil _ _).symm, push_other t (List.cons_ne_nil _ _).symm, modify_self]
    rw [modify_other _ hq]
    by_cases hqc : q = [c]
    · rw [hqc, push_self, push_self, modify_other _ (List.cons_ne_nil _ _)]
    · rw [push_other t hqc, push_other t hqc, modify_other _ hq]
  have hcodes : ∀ (codes : List Nat) (s : Filter × List Nat), (codes.foldl addCode s).1.ignoreCode = s.1.ignoreCode ∧
      (codes.foldl addCode s).1.replaceCode = s.1.replaceCode := by
    intro codes s
    refine Steps.inv_of_run (I := fun s' : Filter × List Nat => s'.1.ignoreCode = s.1.ignoreCode ∧
      s'.1.replaceCode = s.1.replaceCode) (fun s' code hs => ?_) codes s ⟨rfl, rfl⟩
    exact ⟨(addCode_codes s' code).2.trans hs.1, (addCode_codes s' code).1.trans hs.2⟩
  have hwalk : f.addFilterWord words true = ((c :: t).foldl addCode
      ((f.modify [] (fun level => { level with isInit := true })).push [] c t, [])).1 := by
    unfold addFilterWord
    rw [hinit, ← hw]
    congr 1
    refine foldl_heard (I := fun s : Filter × List Nat => s.1.ignoreCode = f.ignoreCode) (fun s code hs hcode => ?_)
      (fun s code hs => (addCode_codes s code).2.trans hs) words _ rfl
    unfold addCode
    exact if_pos (ignores_iff.2 (hs ▸ hcode))
  have hfirst : Sound W (f.modify [] (fun level => { level with isInit := true })) :=
    hsound.congr fun path hp => modify_other _ hp
  have hadd := hfirst.addCodes t c (.inl rfl) (fun x hx => Bool.eq_false_iff.2 fun hign => by
    rw [← hw] at hx
    exact (mem_heard.1 hx).2 (ignores_iff.1 hign))
  rw [List.reverse_nil, List.nil_append] at hadd
  rw [hwalk, hw]
  exact ⟨hadd, (hcodes _ _).1, (hcodes _ _).2⟩

theorem leads_suffix {front q : List Nat} (h : Leads W (front ++ q)) : Leads W q := by
  obtain ⟨w, hw, hon⟩ := h
  refine ⟨w, hw, List.IsPrefix.trans ?_ hon⟩
  rw [List.reverse_append]
  exact List.prefix_append _ _

theorem delCode_codes (s : Deleting) (code : Nat) : (delCode s code).filter.ignoreCode = s.filter.ignoreCode := by
  unfold delCode
  split
  · rfl
  simp only
  split
  · exact (unfoldLevel_codes _ _).2
  · rfl

structure Walked (ignoreCode : List Nat) (replaceCode : Nat) (W : List (List Nat)) (codes : List Nat) (s s' : Deleting) :
    Prop where
  ready : Ready ignoreCode replaceCode W s'.filter
  opened : s'.filter.Opened s'.currLevel
  found : s'.notFind = false → s.notFind = false ∧ s'.currLevel = (codes.map convertEnLowerCode).reverse ++ s.currLevel
  missed : s.notFind = false → s'.notFind = true → ¬Leads W ((codes.map convertEnLowerCode).reverse ++ s.currLevel)

theorem Ready.walked : ∀ (codes : List Nat) {s : Deleting}, Ready ignoreCode replaceCode W s.filter →
    s.filter.Opened s.currLevel → (∀ c ∈ codes, c ∉ ignoreCode) →
    Walked ignoreCode replaceCode W codes s (codes.foldl delCode s)
  | [], s, h, hopen, _ => ⟨h, hopen, fun hfound => ⟨hfound, rfl⟩, fun hfound hmissed => by
    rw [List.foldl_nil, hfound] at hmissed
    cases hmissed⟩
  | c :: codes, s, h, hopen, hheard => by
    have happend : ((c :: codes).map convertEnLowerCode).reverse ++ s.currLevel =
        (codes.map convertEnLowerCode).reverse ++ convertEnLowerCode c :: s.currLevel := by simp
    have hrest : ∀ c ∈ codes, c ∉ ignoreCode := fun c hc => hheard c (List.mem_cons_of_mem _ hc)
    have hskip : ¬s.filter.ignores c = true := fun hign => hheard c List.mem_cons_self (h.ignoreCode ▸ ignores_iff.1 hign)
    have hthere := h.sound.trie.leads_iff hopen (convertEnLowerCode c)
    rw [List.foldl_cons]
    by_cases hsome : (s.filter.level (convertEnLowerCode c :: s.currLevel)).isSome = true
    · have hstep : delCode s c = ⟨s.filter.unfoldLevel (convertEnLowerCode c :: s.currLevel),
          convertEnLowerCode c :: s.currLevel, s.notFind⟩ := by
        unfold delCode
        rw [if_neg hskip]
        exact if_pos hsome
      have hready := Ready.stable _ _ (List.cons_ne_nil _ _) ((h.sound.lower hopen).cons c) h
      have hopen' : (s.filter.unfoldLevel (convertEnLowerCode c :: s.currLevel)).Opened
          (convertEnLowerCode c :: s.currLevel) :=
        ((h.sound.trie.look hopen (convertEnLowerCode c)).resolve_left fun hno => hno.2 (hthere.1 hsome)).2.2.1
      rw [hstep]
      obtain ⟨hready', hopened, hfound, hmissed⟩ := Ready.walked codes
        (s := ⟨s.filter.unfoldLevel (convertEnLowerCode c :: s.currLevel), convertEnLowerCode c :: s.currLevel, s.notFind⟩)
        hready hopen' hrest
      exact ⟨hready', hopened, fun hf => (hfound hf).imp id fun hpath => hpath.trans happend.symm, fun hf hm => by
        rw [happend]
        exact hmissed hf hm⟩
    · have hstep : delCode s c = { s with notFind := true } := by
        unfold delCode
        rw [if_neg hskip]
        exact if_neg hsome
      rw [hstep]
      obtain ⟨hready', hopened, hfound, -⟩ := Ready.walked codes (s := { s with notFind := true }) h hopen hrest
      refine ⟨hready', hopened, fun hf => (by cases (hfound hf).1), fun _ _ hleads => ?_⟩
      rw [happend] at hleads
      exact hsome (hthere.2 (leads_suffix hleads))

/-- **Deleting a word unfolds levels, and takes the end of the one its lower-case code points lead to, if it is there.** -/
theorem Ready.del (h : Ready ignoreCode replaceCode W f) (words : List Nat) : ∃ g, Ready ignoreCode replaceCode W g ∧
    (f.delFilterWord words = g ∧ ¬Leads W ((heard ignoreCode words).map convertEnLowerCode).reverse ∨
      g.Opened ((heard ignoreCode words).map convertEnLowerCode).reverse ∧
        f.delFilterWord words = g.modify ((heard ignoreCode words).map convertEnLowerCode).reverse
          (fun level => { level with isEnd := false })) := by
  have hwalk : words.foldl delCode ⟨f, [], false⟩ = (heard ignoreCode words).foldl delCode ⟨f, [], false⟩ := by
    refine foldl_heard (I := fun s : Deleting => s.filter.ignoreCode = ignoreCode) (fun s code hs hcode => ?_)
      (fun s code hs => (delCode_codes s code).trans hs) words _ h.ignoreCode
    unfold delCode
    exact if_pos (ignores_iff.2 (hs ▸ hcode))
  obtain ⟨hready, hopened, hfound, hmissed⟩ := Ready.walked (heard ignoreCode words) (s := ⟨f, [], false⟩) h (.inl rfl)
    (fun c hc => (mem_heard.1 hc).2)
  unfold delFilterWord
  rw [hwalk]
  generalize (heard ignoreCode words).foldl delCode ⟨f, [], false⟩ = s at *
  rw [List.append_nil] at hfound hmissed
  refine ⟨s.filter, hready, ?_⟩
  cases hf : s.notFind with
  | true => exact .inl ⟨if_pos hf, hmissed rfl hf⟩
  | false =>
    obtain ⟨-, hpath⟩ := hfound hf
    rw [hpath] at hopened
    refine .inr ⟨hopened, ?_⟩
    rw [← hpath]
    exact if_neg (by rw [hf]; exact Bool.false_ne_true)

/-- **However often it has been asked, the trie is that of the words it was filled with.** -/
theorem ready_asked (replaceCode : Nat) (ignoreCode : List Nat) (list : List (List Nat)) (removeIgnoreWords : Bool)
    (queries : List Query) : Ready ignoreCode replaceCode (entries ignoreCode list removeIgnoreWords)
      (asked replaceCode ignoreCode list removeIgnoreWords queries) := by
  have hfolded : ∀ path level, path ≠ [] →
      (list.foldl (initWord removeIgnoreWords) (ctor replaceCode ignoreCode)).level path = some level →
      level.isInit = false := by
    refine Steps.inv_of_run (I := fun g : Filter => ∀ path level, path ≠ [] → g.level path = some level →
      level.isInit = false) (fun g words hg => ?_) list _ (fun path level hp hl => ?_)
    · unfold initWord
      split
      · exact hg
      · next code iter _ =>
        intro path level hp hl
        by_cases hpc : path = [code]
        · subst hpc
          rw [push_self] at hl
          rw [← Option.some.inj hl]
          cases hl' : g.level [code] with
          | none => rfl
          | some level' => exact hg _ level' hp hl'
        · rw [push_other iter hpc] at hl
          exact hg path level hp hl
    · cases path with
      | nil => exact absurd rfl hp
      | cons code path => cases (ctor_below replaceCode ignoreCode code path).symm.trans hl
  obtain ⟨hreplace, hign⟩ := init_codes list removeIgnoreWords (ctor replaceCode ignoreCode)
  refine Ready.stable.asked queries ⟨⟨trie_filled replaceCode ignoreCode list removeIgnoreWords [], ?_⟩, hign, hreplace⟩
  intro path level hp hl hi
  have hlevel := hfolded path level hp ((modify_other _ hp).symm.trans hl)
  rw [hi] at hlevel
  cases hlevel

end Filter
end WordFilter
end Sncpp
