import PatternDiagram.Proofs.Slashes
import PatternDiagram.Proofs.Words

/-!
# The places of faults

Every error of a source comes with the place of a character that its message is about:

* `Fault.Marks`: the characters that a fault can be about;
* `ClassBody.Within`, `ClassBody.Reversed`: the places in classes, and the ranges out of order;
* `Failure.Fits`: a failure whose place is one in the pattern that its fault is about;
* `Token.fails_of_next`, `ClassBody.read_error`: how single tokens and classes fail;
* `Machine.Rejects`: how the machine can fail at a token;
* `Machine.Placed`, `Machine.Placed.next`, `Machine.Placed.fits_of_run`: what a step keeps, and what
  a run that fails comes to;
* `parse_error_marks`: **the place of an error is in its source, and holds what the message is
  about**.
-/

namespace PatternDiagram

/-! ## 1. What faults are about -/

/-- **The fault can be about the character.** A range out of order can begin with any. -/
def Fault.Marks : Fault → Char → Prop
  | .unmatchedClose, c => c = ')'
  | .unterminatedGroup, c => c = '('
  | .invalidGroup, c => c = '('
  | .duplicateGroupName _, c => c = '('
  | .invalidGroupName, c => c = '(' ∨ c = '\\'
  | .unterminatedClass, c => c = '['
  | .rangeOutOfOrder, _ => True
  | .countsOutOfOrder, c => c = '{'
  | .nothingToRepeat, c => c = '*' ∨ c = '+' ∨ c = '?' ∨ c = '{'
  | .trailingBackslash, c => c = '\\'
  | .repeatedFlag letter, c => c = letter
  | .unexpectedBar, _ => False

/-- Its character is all that is said of the place of the fault. -/
def Fault.isPlain : Fault → Bool
  | .trailingBackslash | .rangeOutOfOrder | .repeatedFlag _ => false
  | _ => true

namespace ClassBody

/-- Whole members of a class stand between the two places. -/
inductive Reaches : List Char → List Char → Prop where
  | here (cs : List Char) : Reaches cs cs
  | behind {start cs rest left site : List Char} {c : Char} {item : ClassItem}
      {found : List ClassItem} (hc : c ≠ ']') (hatom : atom c cs = some (item, rest))
      (hmembers : members start (c :: cs) item rest = .ok (found, left)) (h : Reaches left site) :
      Reaches (c :: cs) site

/-- A member of a class begins at the place, where the class is opened by a token of the pattern. -/
def Within (pattern site : List Char) : Prop :=
  ∃ ws start negated inner, Reads pattern ws start ∧
    Token.next start = .ok (some (.classOpen negated, inner)) ∧ Reaches inner site

/-- The text begins with the lower bound of a range that is out of order. -/
def Reversed (site : List Char) : Prop :=
  ∃ c cs lo d more hi rest, site = c :: cs ∧ c ≠ ']' ∧
    atom c cs = some (.char lo, '-' :: d :: more) ∧ d ≠ ']' ∧
    atom d more = some (.char hi, rest) ∧ hi < lo

end ClassBody

/-- **The place of the failure is one in the pattern that its fault is about.** -/
structure Failure.Fits (f : Failure) (pattern : List Char) : Prop where
  suffix : f.site <:+ pattern
  marks : ∃ c, f.site.head? = some c ∧ f.fault.Marks c
  noFlag : ∀ letter, f.fault ≠ .repeatedFlag letter
  last : f.fault = .trailingBackslash → f.site = ['\\']
  lower : f.fault = .rangeOutOfOrder →
    ClassBody.Within pattern f.site ∧ ClassBody.Reversed f.site

/-! ## 2. Tokens -/

namespace Token

/-- The character can be the first one of the token, as far as faults are about it. -/
def MayBegin : Token → Char → Prop
  | .groupOpen _, c => c = '('
  | .groupClose, c => c = ')'
  | .classOpen _, c => c = '['
  | .quantifier _, c => c = '*' ∨ c = '+' ∨ c = '?' ∨ c = '{'
  | _, _ => True

theorem mayBegin_lazily {c : Char} (min : Nat) (max : Option Nat) (cs : List Char)
    (hc : c = '*' ∨ c = '+' ∨ c = '?' ∨ c = '{') : (lazily min max cs).1.MayBegin c := by
  unfold lazily
  split <;> exact hc

theorem mayBegin_of_ok {t t' : Token} {c : Char} {rest left : List Char}
    (h : (.ok (t', left) : Except Failure (Token × List Char)) = .ok (t, rest))
    (ht : t'.MayBegin c) : t.MayBegin c := by
  simp only [Except.ok.injEq, Prod.mk.injEq] at h
  rwa [← h.1]

theorem mayBegin_braces {site cs rest : List Char} {t : Token}
    (h : braces site cs = .ok (t, rest)) : t.MayBegin '{' := by
  unfold braces at h
  split at h
  · exact mayBegin_of_ok h trivial
  · rename_i m n left _
    split at h
    · simp at h
    · exact mayBegin_of_ok h (mayBegin_lazily m (some n) left (by simp))
  · rename_i m left _
    exact mayBegin_of_ok h (mayBegin_lazily m none left (by simp))

theorem mayBegin_group {site cs rest : List Char} {t : Token}
    (h : group site cs = .ok (t, rest)) : t.MayBegin '(' := by
  unfold group at h
  split at h
  case h_6 =>
    split at h
    · exact mayBegin_of_ok h rfl
    · simp at h
  case h_7 => simp at h
  all_goals exact mayBegin_of_ok h rfl

theorem mayBegin_escape {site cs rest : List Char} {t : Token}
    (h : escape site cs = .ok (t, rest)) : t.MayBegin '\\' := by
  unfold escape at h
  split at h
  · simp at h
  · exact mayBegin_of_ok h trivial
  · exact mayBegin_of_ok h trivial
  · split at h
    · exact mayBegin_of_ok h trivial
    · simp at h
  · split at h
    · exact mayBegin_of_ok h trivial
    · exact mayBegin_of_ok h trivial

/-- **A token begins with its own character.** -/
theorem mayBegin_of_next {cs rest : List Char} {t : Token}
    (h : next cs = .ok (some (t, rest))) : ∃ c, cs.head? = some c ∧ t.MayBegin c := by
  cases cs with
  | nil => simp [next] at h
  | cons c cs =>
    refine ⟨c, rfl, ?_⟩
    simp only [next] at h
    split at h
    · rename_i found hread
      simp only [Except.ok.injEq, Option.some.injEq] at h
      rw [h] at hread
      unfold read at hread
      split at hread
      case h_2 => exact mayBegin_of_ok hread rfl
      case h_3 => exact mayBegin_group hread
      case h_4 => split at hread <;> exact mayBegin_of_ok hread rfl
      case h_8 => exact mayBegin_of_ok hread (mayBegin_lazily 0 none cs (by simp))
      case h_9 => exact mayBegin_of_ok hread (mayBegin_lazily 1 none cs (by simp))
      case h_10 => exact mayBegin_of_ok hread (mayBegin_lazily 0 (some 1) cs (by simp))
      case h_11 => exact mayBegin_braces hread
      case h_12 => exact mayBegin_escape hread
      all_goals exact mayBegin_of_ok hread trivial
    · simp at h

/-- **What can be wrong with a token** that begins the text. -/
inductive Fails : List Char → Fault → Prop where
  | group (cs : List Char) : Fails ('(' :: cs) .invalidGroup
  | groupName (cs : List Char) : Fails ('(' :: cs) .invalidGroupName
  | referenceName (cs : List Char) : Fails ('\\' :: cs) .invalidGroupName
  | counts (cs : List Char) : Fails ('{' :: cs) .countsOutOfOrder
  | backslash : Fails ['\\'] .trailingBackslash

/-- A name that is not there is about the place where it was asked for. -/
theorem name_error {site cs : List Char} {f : Failure} (h : name site cs = .error f) :
    f.site = site ∧ f.fault = .invalidGroupName := by
  unfold name at h
  split at h
  · simp at h
  · simp only [Except.error.injEq] at h
    rw [← h]
    exact ⟨rfl, rfl⟩

theorem fails_of_braces {cs : List Char} {f : Failure} (h : braces ('{' :: cs) cs = .error f) :
    f.site = '{' :: cs ∧ Fails ('{' :: cs) f.fault := by
  unfold braces at h
  split at h
  · simp at h
  · split at h
    · simp only [Except.error.injEq] at h
      rw [← h]
      exact ⟨rfl, .counts cs⟩
    · simp at h
  · simp at h

theorem fails_of_group {cs : List Char} {f : Failure} (h : group ('(' :: cs) cs = .error f) :
    f.site = '(' :: cs ∧ Fails ('(' :: cs) f.fault := by
  unfold group at h
  split at h
  case h_6 =>
    split at h
    · simp at h
    · rename_i hname
      simp only [Except.error.injEq] at h
      obtain ⟨hsite, hfault⟩ := name_error (h ▸ hname)
      rw [hsite, hfault]
      exact ⟨rfl, .groupName _⟩
  case h_7 =>
    simp only [Except.error.injEq] at h
    rw [← h]
    exact ⟨rfl, .group _⟩
  all_goals simp at h

theorem fails_of_escape {cs : List Char} {f : Failure} (h : escape ('\\' :: cs) cs = .error f) :
    f.site = '\\' :: cs ∧ Fails ('\\' :: cs) f.fault := by
  unfold escape at h
  split at h
  · simp only [Except.error.injEq] at h
    rw [← h]
    exact ⟨rfl, .backslash⟩
  · simp at h
  · simp at h
  · split at h
    · simp at h
    · rename_i hname
      simp only [Except.error.injEq] at h
      obtain ⟨hsite, hfault⟩ := name_error (h ▸ hname)
      rw [hsite, hfault]
      exact ⟨rfl, .referenceName _⟩
  · split at h <;> simp at h

/-- **A token that cannot be read fails in one of these ways**, at the place where it begins. -/
theorem fails_of_next {cs : List Char} {f : Failure} (h : next cs = .error f) :
    f.site = cs ∧ Fails cs f.fault := by
  cases cs with
  | nil => simp [next] at h
  | cons c cs =>
    simp only [next] at h
    split at h
    · simp at h
    · rename_i failure hread
      simp only [Except.error.injEq] at h
      rw [h] at hread
      unfold read at hread
      split at hread
      case h_3 => exact fails_of_group hread
      case h_4 => split at hread <;> simp at hread
      case h_11 => exact fails_of_braces hread
      case h_12 => exact fails_of_escape hread
      all_goals simp at hread

end Token

/-- A failure about a single character, whatever else the pattern has. -/
theorem Failure.fits_of_head {f : Failure} {pattern : List Char} {c : Char}
    (hsuffix : f.site <:+ pattern) (hhead : f.site.head? = some c) (hmarks : f.fault.Marks c)
    (hplain : f.fault.isPlain = true) : f.Fits pattern where
  suffix := hsuffix
  marks := ⟨c, hhead, hmarks⟩
  noFlag letter e := by simp [e, Fault.isPlain] at hplain
  last e := by simp [e, Fault.isPlain] at hplain
  lower e := by simp [e, Fault.isPlain] at hplain

/-- **A token that cannot be read is about the place where it begins.** -/
theorem Token.fits_of_next {pattern cs : List Char} {f : Failure} (hsuffix : cs <:+ pattern)
    (h : next cs = .error f) : f.Fits pattern := by
  obtain ⟨fault, site, stop⟩ := f
  obtain ⟨rfl, hfails⟩ := fails_of_next h
  cases hfails with
  | group => exact Failure.fits_of_head hsuffix rfl rfl rfl
  | groupName => exact Failure.fits_of_head hsuffix rfl (.inl rfl) rfl
  | referenceName => exact Failure.fits_of_head hsuffix rfl (.inr rfl) rfl
  | counts => exact Failure.fits_of_head hsuffix rfl rfl rfl
  | backslash => exact ⟨hsuffix, ⟨'\\', rfl, rfl⟩, by simp, fun _ => rfl, by simp⟩

/-! ## 3. Classes -/

namespace ClassBody

/-- What can be wrong with the members that an atom makes. -/
theorem members_error {start site rest : List Char} {item : ClassItem} {f : Failure}
    (h : members start site item rest = .error f) :
    f.fault = .unterminatedClass ∧ f.site = start ∨
      f.fault = .rangeOutOfOrder ∧ f.site = site ∧ ∃ lo d more hi left, item = .char lo ∧
        rest = '-' :: d :: more ∧ d ≠ ']' ∧ atom d more = some (.char hi, left) ∧ hi < lo := by
  unfold members at h
  split at h
  · simp at h
  · rename_i d more htail
    split at h
    · simp only [Except.error.injEq] at h
      rw [← h]
      exact .inl ⟨rfl, rfl⟩
    · rename_i upper left hatom
      split at h
      · rename_i lo hi
        split at h
        · rename_i hlt
          simp only [Except.error.injEq] at h
          rw [← h]
          obtain ⟨hrest, hd⟩ := rangeTail?_eq_some_iff.mp htail
          exact .inr ⟨rfl, rfl, lo, d, more, hi, left, rfl, hrest, hd, hatom, hlt⟩
        · simp at h
      · simp at h

/-- **A class fails at its beginning or at one of its ranges.** -/
theorem read_error {start cs : List Char} {f : Failure} (h : read start cs = .error f) :
    f.fault = .unterminatedClass ∧ f.site = start ∨
      f.fault = .rangeOutOfOrder ∧ Reaches cs f.site ∧ Reversed f.site := by
  fun_induction read start cs with
  | case1 =>
    simp only [Except.error.injEq] at h
    rw [← h]
    exact .inl ⟨rfl, rfl⟩
  | case2 => simp at h
  | case3 c cs hc hatom =>
    simp only [Except.error.injEq] at h
    rw [← h]
    exact .inl ⟨rfl, rfl⟩
  | case4 c cs hc item rest hatom failure hmembers =>
    simp only [Except.error.injEq] at h
    rw [h] at hmembers
    rcases members_error hmembers with hunterminated | ⟨hfault, hsite, hrange⟩
    · exact .inl hunterminated
    · obtain ⟨lo, d, more, hi, left, rfl, rfl, hd, hupper, hlt⟩ := hrange
      rw [hsite]
      exact .inr ⟨hfault, .here _, c, cs, lo, d, more, hi, left, rfl, hc, hatom, hd, hupper, hlt⟩
  | case5 c cs hc item rest hatom found left hmembers failure hread ih =>
    simp only [Except.error.injEq] at h
    rw [h] at hread
    rcases ih hread with hunterminated | ⟨hfault, hreaches, hreversed⟩
    · exact .inl hunterminated
    · exact .inr ⟨hfault, .behind hc hatom hmembers hreaches, hreversed⟩
  | case6 => simp at h

theorem Reaches.suffix {cs site : List Char} (h : Reaches cs site) : site <:+ cs := by
  induction h with
  | here => exact List.suffix_refl _
  | behind _ hatom hmembers _ ih =>
    exact ((ih.trans (members_suffix hmembers)).trans (atom_suffix hatom)).trans
      (List.suffix_cons _ _)

end ClassBody

/-! ## 4. The machine -/

namespace Machine

/-- **The machine stands behind words of the pattern**, and its groups begin in the pattern. -/
structure Placed (m : Machine) (pattern : List Char) : Prop where
  reads : ∃ ws, Reads pattern ws m.rest
  opened : ∀ g ∈ m.stack, g.site <:+ pattern ∧ g.site.head? = some '('

theorem Placed.start (naming : Naming) (pattern : List Char) :
    (start naming pattern).Placed pattern where
  reads := ⟨[], .done pattern⟩
  opened _ hg := absurd hg List.not_mem_nil

theorem Placed.suffix {m : Machine} {pattern : List Char} (h : m.Placed pattern) :
    m.rest <:+ pattern := by
  obtain ⟨ws, hws⟩ := h.reads
  exact hws.suffix

/-- The groups that are open behind a word were open before it, or begin with it. -/
theorem mem_stack_of_take {m m' : Machine} {w : Word} {rest : List Char} {g : OpenGroup}
    (h : m.takeWord w rest = .next m') (hg : g ∈ m'.stack) :
    g ∈ m.stack ∨ g.site = m.rest ∧ ∃ head, w = .token (.groupOpen head) := by
  cases w with
  | characterClass c =>
    simp only [takeWord, push, Step.next.injEq] at h
    rw [← h] at hg
    exact .inl hg
  | token t =>
    simp only [takeWord] at h
    cases t with
    | groupOpen head =>
      simp only [take, item, openGroup] at h
      split at h
      · split at h
        · simp only [Step.next.injEq] at h
          rw [← h] at hg
          rcases List.mem_cons.mp hg with rfl | hg
          · exact .inr ⟨rfl, _, rfl⟩
          · exact .inl hg
        · simp at h
      · simp only [Step.next.injEq] at h
        rw [← h] at hg
        rcases List.mem_cons.mp hg with rfl | hg
        · exact .inr ⟨rfl, _, rfl⟩
        · exact .inl hg
    | groupClose =>
      simp only [take, closeGroup] at h
      split at h
      · simp at h
      · rename_i outer stack hstack
        simp only [Step.next.injEq] at h
        rw [← h] at hg
        rw [hstack]
        exact .inl (List.mem_cons_of_mem outer hg)
    | classOpen negated =>
      simp only [take, item, characterClass] at h
      split at h
      · simp at h
      · simp only [push, Step.next.injEq] at h
        rw [← h] at hg
        exact .inl hg
    | quantifier q =>
      simp only [take, item, quantify] at h
      split at h
      · simp at h
      · split at h
        · simp only [Step.next.injEq] at h
          rw [← h] at hg
          exact .inl hg
        · simp at h
    | bar =>
      simp only [take, bar, Step.next.injEq] at h
      rw [← h] at hg
      exact .inl hg
    | _ =>
      simp only [take, item, push, Step.next.injEq] at h
      rw [← h] at hg
      exact .inl hg

/-- **A step that leads on leaves the machine at a place of its pattern.** -/
theorem Placed.next {m m' : Machine} {pattern : List Char} (h : m.Placed pattern)
    (hstep : m.step = .next m') : m'.Placed pattern := by
  obtain ⟨w, hnext, htake⟩ := word_of_step hstep
  obtain ⟨ws, hws⟩ := h.reads
  refine ⟨⟨ws ++ [w], hws.append (.single hnext)⟩, fun g hg => ?_⟩
  rcases mem_stack_of_take htake hg with hg | ⟨hsite, head, rfl⟩
  · exact h.opened g hg
  · -- a group that has just been opened begins at the token that opened it
    obtain ⟨c, hc, hbegin⟩ := Token.mayBegin_of_next (Word.next?_token_iff.mp hnext).1
    rw [hsite, hc]
    exact ⟨h.suffix, congrArg some hbegin⟩

/-- **How a token can lead nowhere**, where `rest` is left behind it: a name is taken, there is
    nothing to close or to repeat, or the class that begins here is malformed. -/
inductive Rejects (m : Machine) (rest : List Char) : Token → Failure → Naming → Prop where
  | name {s : String} (hs : s ∈ m.naming.scope) :
      Rejects m rest (.groupOpen (.capture (some s))) ⟨.duplicateGroupName s, m.rest, rest⟩
        { m.naming with next := m.naming.next + 1 }
  | close (naming : Naming) :
      Rejects m rest .groupClose ⟨.unmatchedClose, m.rest, rest⟩ naming
  | repetition (q : Quantifier) (stop : List Char) :
      Rejects m rest (.quantifier q) ⟨.nothingToRepeat, m.rest, stop⟩ m.naming
  | classBody (negated : Bool) {f : Failure} (h : ClassBody.read m.rest rest = .error f) :
      Rejects m rest (.classOpen negated) f m.naming

theorem rejects_of_take {m : Machine} {t : Token} {rest : List Char} {f : Failure}
    {naming : Naming} (h : m.take t rest = .failed f naming) : m.Rejects rest t f naming := by
  cases t with
  | literal l => simp [take, item] at h
  | anchor a => simp [take, item] at h
  | backreference target => simp [take, item] at h
  | bar => simp [take, bar] at h
  | classOpen negated =>
    simp only [take, item, characterClass] at h
    split at h
    · rename_i failure hread
      obtain ⟨rfl, rfl⟩ := Step.failed.inj h
      exact .classBody negated hread
    · simp at h
  | groupOpen head =>
    simp only [take, item, openGroup] at h
    cases head with
    | plain => simp at h
    | look direction polarity => simp at h
    | capture name =>
      cases name with
      | none => simp [Naming.allot] at h
      | some s =>
        by_cases hs : s ∈ m.naming.scope
        · simp only [Naming.allot, hs, if_true] at h
          obtain ⟨rfl, rfl⟩ := Step.failed.inj h
          exact .name hs
        · simp [Naming.allot, hs] at h
  | groupClose =>
    simp only [take, closeGroup] at h
    split at h
    · obtain ⟨rfl, rfl⟩ := Step.failed.inj h
      exact .close _
    · simp at h
  | quantifier q =>
    simp only [take, item, quantify] at h
    split at h
    · obtain ⟨rfl, rfl⟩ := Step.failed.inj h
      exact .repetition q rest
    · split at h
      · simp at h
      · obtain ⟨rfl, rfl⟩ := Step.failed.inj h
        exact .repetition q m.rest

/-- **A token that leads nowhere is about its own place.** A class may fail at one of its ranges. -/
theorem Placed.fits_of_take {m : Machine} {pattern rest : List Char} {t : Token} {f : Failure}
    {naming : Naming} (h : m.Placed pattern) (hnext : Token.next m.rest = .ok (some (t, rest)))
    (htake : m.take t rest = .failed f naming) : f.Fits pattern := by
  obtain ⟨c, hc, hbegin⟩ := Token.mayBegin_of_next hnext
  cases rejects_of_take htake with
  | name => exact Failure.fits_of_head h.suffix hc hbegin rfl
  | close => exact Failure.fits_of_head h.suffix hc hbegin rfl
  | repetition => exact Failure.fits_of_head h.suffix hc hbegin rfl
  | classBody negated hread =>
    rcases ClassBody.read_error hread with ⟨hfault, hsite⟩ | ⟨hfault, hreaches, hreversed⟩
    · exact Failure.fits_of_head (hsite ▸ h.suffix) (hsite ▸ hc) (hfault ▸ hbegin)
        (by rw [hfault]; rfl)
    · obtain ⟨ws, hws⟩ := h.reads
      have hinner : rest <:+ pattern := by
        obtain ⟨d, more, hrest, hsuffix⟩ := Token.next_suffix hnext
        exact (hsuffix.trans (List.suffix_cons d more)).trans (hrest ▸ h.suffix)
      refine ⟨hreaches.suffix.trans hinner, ?_, by simp [hfault], by simp [hfault],
        fun _ => ⟨⟨ws, m.rest, negated, rest, hws, hnext, hreaches⟩, hreversed⟩⟩
      obtain ⟨d, cs, _, _, _, _, _, hsite, -⟩ := hreversed
      exact ⟨d, by rw [hsite]; rfl, by rw [hfault]; trivial⟩

/-- **A step that fails is about a place of the pattern.** -/
theorem Placed.fits_of_step {m : Machine} {pattern : List Char} {f : Failure} {naming : Naming}
    (h : m.Placed pattern) (hstep : m.step = .failed f naming) : f.Fits pattern := by
  unfold step at hstep
  split at hstep
  · rename_i failure hnext
    simp only [Step.failed.injEq] at hstep
    have hfits := Token.fits_of_next h.suffix hnext
    rw [← hstep.1]
    exact ⟨hfits.suffix, hfits.marks, hfits.noFlag, hfits.last, hfits.lower⟩
  · simp only [atEnd] at hstep
    split at hstep
    · simp at hstep
    · rename_i g stack hstack
      simp only [Step.failed.injEq] at hstep
      obtain ⟨hsuffix, hhead⟩ := h.opened g (by simp [hstack])
      rw [← hstep.1]
      exact Failure.fits_of_head hsuffix hhead rfl rfl
  · rename_i t rest hnext
    exact h.fits_of_take hnext hstep

/-- **A run that fails is about a place of the pattern.** -/
theorem Placed.fits_of_run {m : Machine} {pattern : List Char} {f : Failure}
    (h : m.Placed pattern) (hrun : m.run.result = .error f) : f.Fits pattern := by
  fun_induction run m with
  | case1 m m' hstep ih => exact ih (h.next hstep) hrun
  | case2 m root naming hstep => simp at hrun
  | case3 m failure naming hstep =>
    simp only [Except.error.injEq] at hrun
    exact h.fits_of_step (hrun ▸ hstep)

end Machine

/-! ## 5. Sources -/

/-- No other fault has the wording of a bar where an item has to begin. -/
theorem Fault.message_eq_unexpectedBar {f : Fault} (h : f.message = "unexpected '|'") :
    f = .unexpectedBar := by
  delta message at h
  cases f with
  | unexpectedBar => rfl
  | duplicateGroupName name =>
    have hhead := congrArg (fun s => s.toList.head?) h
    simp at hhead
  | repeatedFlag letter =>
    have hhead := congrArg (fun s => s.toList.head?) h
    simp at hhead
  | _ => simp at h

/-- A place of the pattern, found in its source. -/
theorem getElem?_of_site {front pattern back site : List Char} {c : Char}
    (hsuffix : site <:+ pattern) (hhead : site.head? = some c) :
    (front ++ pattern ++ back)[front.length + (pattern.length - site.length)]? = some c := by
  obtain ⟨before, rfl⟩ := hsuffix
  cases site with
  | nil => simp at hhead
  | cons d more =>
    obtain rfl : d = c := by simpa using hhead
    have hlength : (before ++ d :: more).length - (d :: more).length = before.length := by
      rw [List.length_append, Nat.add_sub_cancel]
    rw [hlength, List.append_assoc, List.getElem?_append_right (by omega), Nat.add_sub_cancel_left,
      List.append_assoc, List.getElem?_append_right (Nat.le_refl _), Nat.sub_self]
    rfl

/-- A letter behind the last slash, found in its source. -/
theorem getElem?_of_flag (body front back : List Char) (letter : Char) :
    ('/' :: (body ++ '/' :: (front ++ letter :: back)))[2 + body.length + front.length]? =
      some letter := by
  have hsplit : '/' :: (body ++ '/' :: (front ++ letter :: back)) =
      ('/' :: (body ++ '/' :: front)) ++ letter :: back := by simp
  have hlength : ('/' :: (body ++ '/' :: front)).length = 2 + body.length + front.length := by
    simp only [List.length_cons, List.length_append]
    omega
  rw [hsplit, List.getElem?_append_right (by omega), hlength, Nat.sub_self]
  rfl

/-- **An error comes from a letter behind the pattern, or from a failure in the pattern**, at the
    place that this is about. -/
theorem fits_of_parse {source : String} {e : SyntaxError} (h : parse source = .error e) :
    Source.split source.toList = .error e ∨
      ∃ (s : Source) (f : Failure), Source.split source.toList = .ok s ∧ f.Fits s.pattern ∧
        e = ⟨f.fault, s.base + (s.pattern.length - f.site.length)⟩ := by
  unfold parse at h
  split at h
  · rename_i s hsplit
    refine .inr ?_
    unfold Source.expression at h
    split at h
    · simp at h
    · rename_i failure after hparse
      simp only [Except.error.injEq] at h
      have hfailed : (Reader.ofPattern s.pattern s.base).parse.1 = .error e := by rw [hparse, h]
      obtain ⟨f, hrun, rfl⟩ := (Reader.parse_eq_error_iff _ _).mp hfailed
      exact ⟨s, f, hsplit, (Machine.Placed.start _ s.pattern).fits_of_run hrun, rfl⟩
  · rename_i failure hsplit
    simp only [Except.error.injEq] at h
    exact .inl (h ▸ hsplit)

/-- **The places of errors.** The offset of an error is less than the number of characters of its
    source, slashes and flags included, and the character there is one that the message is about. A
    backslash without anything behind it is the last character of the pattern; a flag is refused
    where its letter stands for the second time; and a range is refused at the first character of
    its lower bound. Nothing is ever refused because of a bar. -/
theorem parse_error_marks {source : String} {e : SyntaxError} (h : parse source = .error e) :
    e.offset < source.length ∧
    (∃ c, source.toList[e.offset]? = some c ∧ e.fault.Marks c) ∧
    (e.fault = .trailingBackslash → ∃ s, Source.split source.toList = .ok s ∧
      e.offset + 1 = s.base + s.pattern.length) ∧
    (∀ letter, e.fault = .repeatedFlag letter → ∃ body front back,
      source.toList = '/' :: (body ++ '/' :: (front ++ letter :: back)) ∧
      '/' ∉ front ++ letter :: back ∧ e.offset = 2 + body.length + front.length ∧
      front.count letter = 1) ∧
    (e.fault = .rangeOutOfOrder → ∃ s site, Source.split source.toList = .ok s ∧
      site <:+ s.pattern ∧ e.offset = s.base + (s.pattern.length - site.length) ∧
      ClassBody.Within s.pattern site ∧ ClassBody.Reversed site) ∧
    e.fault.message ≠ "unexpected '|'" := by
  have hmessage {c : Char} (hmarks : e.fault.Marks c) : e.fault.message ≠ "unexpected '|'" := by
    intro hbar
    rw [Fault.message_eq_unexpectedBar hbar] at hmarks
    exact hmarks
  have hlt {c : Char} (hc : source.toList[e.offset]? = some c) : e.offset < source.length := by
    rw [← String.length_toList]
    exact (List.getElem?_eq_some_iff.mp hc).1
  rcases fits_of_parse h with hsplit | ⟨s, f, hsplit, hfits, rfl⟩
  · obtain ⟨body, tail, letter, before, hsource, hslash, hread, rfl⟩ := Source.split_error hsplit
    obtain ⟨front, back, rfl, rfl, hcount⟩ := FlagLetters.count_of_read hread
    have hc : source.toList[2 + body.length + front.length]? = some letter := by
      rw [hsource]
      exact getElem?_of_flag body front back letter
    refine ⟨hlt hc, ⟨letter, hc, rfl⟩, by simp, fun letter' hletter => ?_, by simp,
      hmessage (c := letter) rfl⟩
    obtain rfl : letter = letter' := by simpa using hletter
    exact ⟨body, front, back, hsource, hslash, rfl, hcount⟩
  · obtain ⟨c, hhead, hmarks⟩ := hfits.marks
    obtain ⟨front, back, hsource, hbase⟩ := Source.split_frame hsplit
    have hc : source.toList[s.base + (s.pattern.length - f.site.length)]? = some c := by
      rw [hsource, hbase]
      exact getElem?_of_site hfits.suffix hhead
    refine ⟨hlt hc, ⟨c, hc, hmarks⟩, fun hfault => ⟨s, hsplit, ?_⟩,
      fun letter hfault => absurd hfault (hfits.noFlag letter), fun hfault => ?_, hmessage hmarks⟩
    · have hsite := hfits.last hfault
      have hle := hfits.suffix.length_le
      simp only [hsite, List.length_singleton] at hle ⊢
      omega
    · obtain ⟨hwithin, hreversed⟩ := hfits.lower hfault
      exact ⟨s, f.site, hsplit, hfits.suffix, rfl, hwithin, hreversed⟩

/-- A range out of order, behind a character of two bytes and between slashes. -/
theorem parse_error_marks_of_range :
    parse "/é(?:|[cz-a])/gi" = .error ⟨.rangeOutOfOrder, 8⟩ ∧
      8 < "/é(?:|[cz-a])/gi".length ∧ "/é(?:|[cz-a])/gi".toList[8]? = some 'z' ∧
      ∃ s site, Source.split "/é(?:|[cz-a])/gi".toList = .ok s ∧ site <:+ s.pattern ∧
        8 = s.base + (s.pattern.length - site.length) ∧
        ClassBody.Within s.pattern site ∧ ClassBody.Reversed site := by
  have h : parse "/é(?:|[cz-a])/gi" = .error ⟨.rangeOutOfOrder, 8⟩ := by with_unfolding_all rfl
  obtain ⟨hlt, -, -, -, hrange, -⟩ := parse_error_marks h
  exact ⟨h, hlt, by decide, hrange rfl⟩

end PatternDiagram
