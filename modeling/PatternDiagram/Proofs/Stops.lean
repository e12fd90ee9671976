import PatternDiagram.Reading.Machine

/-!
# Where reading stops

A failure leaves an end of what came in, wherever it is found:

* `Token.next_stop`: in a token;
* `ClassBody.read_stop`: in a character class;
* `Machine.run_stop`: anywhere in a pattern.
-/

namespace PatternDiagram

variable {f : Failure} {site cs : List Char}

/-! ## 1. Tokens -/

namespace Token

theorem name_stop (h : name site cs = .error f) : f.stop <:+ cs := by
  unfold name at h
  split at h
  · simp at h
  · rename_i rest _ hrun
    simp only [Except.error.injEq] at h
    subst h
    have hsuffix := nameRun_suffix cs
    rwa [hrun] at hsuffix

theorem braces_stop (h : braces site cs = .error f) : f.stop <:+ cs := by
  unfold braces at h
  split at h
  · simp at h
  · rename_i hbounds
    split at h
    · simp only [Except.error.injEq] at h
      subst h
      exact bounds?_suffix hbounds
    · simp at h
  · simp at h

theorem group_stop (h : group site cs = .error f) : f.stop <:+ cs := by
  unfold group at h
  split at h
  case h_6 =>
    split at h
    · simp at h
    · rename_i hname
      simp only [Except.error.injEq] at h
      subst h
      exact ((name_stop hname).trans (List.suffix_cons _ _)).trans (List.suffix_cons _ _)
  case h_7 rest _ _ _ _ _ _ =>
    simp only [Except.error.injEq] at h
    subst h
    exact (List.drop_suffix 1 rest).trans (List.suffix_cons _ _)
  all_goals simp at h

theorem escape_stop (h : escape site cs = .error f) : f.stop <:+ cs := by
  unfold escape at h
  split at h
  · simp only [Except.error.injEq] at h
    subst h
    exact List.suffix_refl _
  · simp at h
  · simp at h
  · split at h
    · simp at h
    · rename_i hname
      simp only [Except.error.injEq] at h
      subst h
      exact ((name_stop hname).trans (List.suffix_cons _ _)).trans (List.suffix_cons _ _)
  · split at h <;> simp at h

/-- **A token that cannot be read stops within the pattern.** -/
theorem next_stop (h : next cs = .error f) : f.stop <:+ cs := by
  cases cs with
  | nil => simp [next] at h
  | cons c cs =>
    have hself : cs <:+ c :: cs := List.suffix_cons c cs
    simp only [next] at h
    split at h
    · simp at h
    · rename_i failure hread
      simp only [Except.error.injEq] at h
      subst h
      unfold read at hread
      split at hread
      case h_3 => exact (group_stop hread).trans hself
      case h_4 => split at hread <;> simp at hread
      case h_11 => exact (braces_stop hread).trans hself
      case h_12 => exact (escape_stop hread).trans hself
      all_goals simp at hread

/-- What is left behind a token is an end of the pattern. -/
theorem suffix_of_next {rest : List Char} {t : Token} (h : next cs = .ok (some (t, rest))) :
    rest <:+ cs := by
  obtain ⟨c, more, rfl, hsuffix⟩ := next_suffix h
  exact hsuffix.trans (List.suffix_cons c more)

end Token

/-! ## 2. Classes -/

namespace ClassBody

variable {start : List Char}

theorem members_stop {item : ClassItem} (h : members start site item cs = .error f) :
    f.stop <:+ cs := by
  unfold members at h
  split at h
  · simp at h
  · rename_i htail
    split at h
    · simp only [Except.error.injEq] at h
      subst h
      exact List.nil_suffix
    · rename_i hatom
      split at h
      · split at h
        · simp only [Except.error.injEq] at h
          subst h
          exact (atom_suffix hatom).trans (rangeTail?_suffix htail)
        · simp at h
      · simp at h

theorem read_stop (h : read start cs = .error f) : f.stop <:+ cs := by
  fun_induction read start cs with
  | case1 =>
    simp only [Except.error.injEq] at h
    subst h
    exact List.suffix_refl _
  | case2 => simp at h
  | case3 =>
    simp only [Except.error.injEq] at h
    subst h
    exact List.nil_suffix
  | case4 c cs hc item rest hatom failure hmembers =>
    simp only [Except.error.injEq] at h
    subst h
    exact ((members_stop hmembers).trans (atom_suffix hatom)).trans (List.suffix_cons c cs)
  | case5 c cs hc item rest hatom found left hmembers failure hread ih =>
    simp only [Except.error.injEq] at h
    subst h
    exact (((ih hread).trans (members_suffix hmembers)).trans (atom_suffix hatom)).trans
      (List.suffix_cons c cs)
  | case6 => simp at h

end ClassBody

/-! ## 3. Runs -/

namespace Machine

variable {m m' : Machine} {naming : Naming}

theorem take_stop {t : Token} {rest : List Char} (hrest : rest <:+ m.rest)
    (h : m.take t rest = .failed f naming) : f.stop <:+ m.rest := by
  cases t with
  | literal l => simp [take, item] at h
  | anchor a => simp [take, item] at h
  | backreference target => simp [take, item] at h
  | bar => simp [take, bar] at h
  | classOpen negated =>
    simp only [take, item, characterClass] at h
    split at h
    · rename_i failure hread
      obtain ⟨rfl, rfl⟩ := Step.failed.inj h
      exact (ClassBody.read_stop hread).trans hrest
    · simp at h
  | groupOpen head =>
    simp only [take, item, openGroup] at h
    split at h
    · split at h
      · simp at h
      · obtain ⟨rfl, rfl⟩ := Step.failed.inj h
        exact hrest
    · simp at h
  | groupClose =>
    simp only [take, closeGroup] at h
    split at h
    · obtain ⟨rfl, rfl⟩ := Step.failed.inj h
      exact hrest
    · simp at h
  | quantifier q =>
    simp only [take, item, quantify] at h
    split at h
    · obtain ⟨rfl, rfl⟩ := Step.failed.inj h
      exact hrest
    · split at h
      · simp at h
      · obtain ⟨rfl, rfl⟩ := Step.failed.inj h
        exact List.suffix_refl _

theorem step_stop (h : m.step = .failed f naming) : f.stop <:+ m.rest := by
  unfold step at h
  split at h
  · obtain ⟨rfl, rfl⟩ := Step.failed.inj h
    exact List.suffix_refl _
  · simp only [atEnd] at h
    split at h
    · simp at h
    · obtain ⟨rfl, rfl⟩ := Step.failed.inj h
      exact List.nil_suffix
  · rename_i hnext
    exact take_stop (Token.suffix_of_next hnext) h

theorem step_suffix (h : m.step = .next m') : m'.rest <:+ m.rest := by
  unfold step at h
  split at h
  · simp at h
  · simp only [atEnd] at h
    split at h <;> simp at h
  · rename_i hnext
    exact (take_rest h).trans (Token.suffix_of_next hnext)

/-- **A run that fails stops within the pattern.** -/
theorem run_stop (h : m.run.result = .error f) : f.stop <:+ m.rest := by
  fun_induction run m with
  | case1 m m' hstep ih => exact (ih h).trans (step_suffix hstep)
  | case2 m root naming hstep => simp at h
  | case3 m failure naming hstep =>
    simp only [Except.error.injEq] at h
    exact step_stop (h ▸ hstep)

end Machine

end PatternDiagram
