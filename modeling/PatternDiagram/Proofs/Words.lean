import PatternDiagram.Reading.Reader

/-!
# Patterns as rows of words

The grammar of patterns does not look at characters. This file fixes what it looks at:

* `Word`: a token, or a character class as a whole;
* `Word.next?`: the word at the front of a pattern, and what is left behind it;
* `Reads`: a row of words stands at the front of a pattern; `Reads.unique`: a pattern that is read
  to its end is read as one row only;
* `Machine.run_of_word`, `Machine.word_of_step`: a step of the machine takes one word.
-/

namespace PatternDiagram

/-! ## 1. Words -/

/-- A unit of a pattern as the grammar sees it. -/
inductive Word where
  | token (t : Token)
  | characterClass (c : CharacterClass)
  deriving DecidableEq, Repr

/-- The word at the front of a pattern and what is left behind it. There is none at the end of the
    pattern and in front of something malformed. -/
def Word.next? (cs : List Char) : Option (Word × List Char) :=
  match Token.next cs with
  | .ok (some (.classOpen negated, inner)) =>
      match ClassBody.read cs inner with
      | .ok (items, rest) => some (.characterClass ⟨negated, items⟩, rest)
      | .error _ => none
  | .ok (some (t, rest)) => some (.token t, rest)
  | _ => none

namespace Word

variable {cs rest : List Char}

@[simp] theorem next?_nil : next? [] = none := rfl

/-- A token is a word unless it opens a class. -/
theorem next?_token_iff {t : Token} :
    next? cs = some (.token t, rest) ↔
      Token.next cs = .ok (some (t, rest)) ∧ ∀ negated, t ≠ .classOpen negated := by
  unfold next?
  constructor
  · intro h
    split at h
    · split at h <;> simp at h
    · rename_i hne hnext
      simp only [Option.some.injEq, Prod.mk.injEq, token.injEq] at h
      obtain ⟨rfl, rfl⟩ := h
      exact ⟨hnext, hne⟩
    · simp at h
  · intro ⟨h, hne⟩
    rw [h]
    split
    · rename_i heq
      simp only [Except.ok.injEq, Option.some.injEq, Prod.mk.injEq] at heq
      exact absurd heq.1 (hne _)
    · rename_i heq
      simp only [Except.ok.injEq, Option.some.injEq, Prod.mk.injEq] at heq
      rw [heq.1, heq.2]
    · rename_i hno
      exact absurd rfl (hno t rest)

/-- A class is a word with all of its body. -/
theorem next?_characterClass_iff {c : CharacterClass} :
    next? cs = some (.characterClass c, rest) ↔
      ∃ inner, Token.next cs = .ok (some (.classOpen c.negated, inner)) ∧
        ClassBody.read cs inner = .ok (c.items, rest) := by
  unfold next?
  constructor
  · intro h
    split at h
    · rename_i negated inner hnext
      split at h
      · rename_i items left hread
        simp only [Option.some.injEq, Prod.mk.injEq, characterClass.injEq] at h
        obtain ⟨rfl, rfl⟩ := h
        exact ⟨inner, hnext, hread⟩
      · simp at h
    · simp at h
    · simp at h
  · intro ⟨inner, hnext, hread⟩
    simp [hnext, hread]

/-- **A word takes one character at least.** What is left behind it is an end of the text. -/
theorem next?_suffix {w : Word} (h : next? cs = some (w, rest)) :
    ∃ c more, cs = c :: more ∧ rest <:+ more := by
  cases w with
  | token t => exact Token.next_suffix (next?_token_iff.mp h).1
  | characterClass c =>
    obtain ⟨inner, hnext, hread⟩ := next?_characterClass_iff.mp h
    obtain ⟨c, more, hcs, hsuffix⟩ := Token.next_suffix hnext
    exact ⟨c, more, hcs, (ClassBody.read_suffix hread).trans hsuffix⟩

theorem next?_length {w : Word} (h : next? cs = some (w, rest)) : rest.length < cs.length := by
  obtain ⟨c, more, rfl, hsuffix⟩ := next?_suffix h
  exact Nat.lt_succ_of_le hsuffix.length_le

end Word

/-- The words stand at the front of the first text, and the second one is left behind them. -/
inductive Reads : List Char → List Word → List Char → Prop where
  | done (cs : List Char) : Reads cs [] cs
  | more {cs mid rest : List Char} {w : Word} {ws : List Word}
      (h : Word.next? cs = some (w, mid)) (hs : Reads mid ws rest) : Reads cs (w :: ws) rest

namespace Reads

theorem single {cs rest : List Char} {w : Word} (h : Word.next? cs = some (w, rest)) :
    Reads cs [w] rest := .more h (.done rest)

theorem append {cs mid rest : List Char} {ws vs : List Word} (h : Reads cs ws mid)
    (h' : Reads mid vs rest) : Reads cs (ws ++ vs) rest := by
  induction h with
  | done => exact h'
  | more hw _ ih => exact .more hw (ih h')

theorem exists_of_append {cs rest : List Char} {ws vs : List Word}
    (h : Reads cs (ws ++ vs) rest) : ∃ mid, Reads cs ws mid ∧ Reads mid vs rest := by
  induction ws generalizing cs with
  | nil => exact ⟨cs, .done cs, h⟩
  | cons w ws ih =>
    cases h with
    | more hw hs =>
      obtain ⟨mid, hfront, hback⟩ := ih hs
      exact ⟨mid, .more hw hfront, hback⟩

/-- What is left behind words is an end of the text. -/
theorem suffix {cs rest : List Char} {ws : List Word} (h : Reads cs ws rest) : rest <:+ cs := by
  induction h with
  | done => exact List.suffix_refl _
  | more hw _ ih =>
    obtain ⟨c, more, rfl, hsuffix⟩ := Word.next?_suffix hw
    exact ih.trans (hsuffix.trans (List.suffix_cons c more))

/-- **A pattern is read to its end in one way at most.** -/
theorem unique {cs : List Char} {ws vs : List Word} (h : Reads cs ws []) (h' : Reads cs vs []) :
    ws = vs := by
  induction ws generalizing cs vs with
  | nil =>
    cases h
    cases h' with
    | done => rfl
    | more hw _ => simp at hw
  | cons w ws ih =>
    cases h with
    | more hw hs =>
      cases h' with
      | done => simp at hw
      | more hw' hs' =>
        rw [hw] at hw'
        simp only [Option.some.injEq, Prod.mk.injEq] at hw'
        obtain ⟨rfl, rfl⟩ := hw'
        rw [ih hs hs']

end Reads

/-! ## 2. Words and steps -/

namespace Machine

/-- What a word leads to that leaves `rest`. -/
def takeWord (m : Machine) (w : Word) (rest : List Char) : Step :=
  match w with
  | .token t => m.take t rest
  | .characterClass c => .next (m.push (.characterClass c) rest)

/-- **A step takes the word at the front.** -/
theorem step_of_word {m : Machine} {w : Word} {rest : List Char}
    (h : Word.next? m.rest = some (w, rest)) : m.step = m.takeWord w rest := by
  cases w with
  | token t =>
    obtain ⟨hnext, -⟩ := Word.next?_token_iff.mp h
    simp [step, hnext, takeWord]
  | characterClass c =>
    obtain ⟨inner, hnext, hread⟩ := Word.next?_characterClass_iff.mp h
    simp [step, hnext, take, item, characterClass, hread, takeWord]

/-- A token other than the opening of a class leaves what it is told to leave. -/
theorem take_rest_eq {m m' : Machine} {t : Token} {rest : List Char}
    (ht : ∀ negated, t ≠ .classOpen negated) (h : m.take t rest = .next m') : m'.rest = rest := by
  cases t with
  | classOpen negated => exact absurd rfl (ht negated)
  | literal l => simp only [take, item, push, Step.next.injEq] at h; simp [← h]
  | anchor a => simp only [take, item, push, Step.next.injEq] at h; simp [← h]
  | backreference target => simp only [take, item, push, Step.next.injEq] at h; simp [← h]
  | groupOpen head =>
    simp only [take, item, openGroup] at h
    split at h
    · split at h
      · simp only [Step.next.injEq] at h; simp [← h]
      · simp at h
    · simp only [Step.next.injEq] at h; simp [← h]
  | groupClose =>
    simp only [take, closeGroup] at h
    split at h
    · simp at h
    · simp only [Step.next.injEq] at h; simp [← h]
  | quantifier q =>
    simp only [take, item, quantify] at h
    split at h
    · simp at h
    · split at h
      · simp only [Step.next.injEq] at h; simp [← h]
      · simp at h
  | bar => simp only [take, bar, Step.next.injEq] at h; simp [← h]

/-- **A step that leads on has taken a word.** -/
theorem word_of_step {m m' : Machine} (h : m.step = .next m') :
    ∃ w, Word.next? m.rest = some (w, m'.rest) ∧ m.takeWord w m'.rest = .next m' := by
  unfold step at h
  split at h
  · simp at h
  · simp only [atEnd] at h
    split at h <;> simp at h
  · rename_i t rest hnext
    by_cases ht : ∃ negated, t = .classOpen negated
    · obtain ⟨negated, rfl⟩ := ht
      simp only [take, item, characterClass] at h
      split at h
      · simp at h
      · rename_i items left hread
        simp only [Step.next.injEq] at h
        subst h
        exact ⟨.characterClass ⟨negated, items⟩,
          Word.next?_characterClass_iff.mpr ⟨rest, hnext, hread⟩, rfl⟩
    · have ht' : ∀ negated, t ≠ .classOpen negated := fun negated e => ht ⟨negated, e⟩
      rw [take_rest_eq ht' h]
      exact ⟨.token t, Word.next?_token_iff.mpr ⟨hnext, ht'⟩, h⟩

/-- No token is the end of the pattern. -/
theorem take_ne_done (m : Machine) (t : Token) (rest : List Char) (root : Node) (naming : Naming) :
    m.take t rest ≠ .done root naming := by
  cases t with
  | literal l => simp [take, item]
  | anchor a => simp [take, item]
  | backreference target => simp [take, item]
  | classOpen negated => simp only [take, item, characterClass]; split <;> simp
  | groupOpen head =>
    simp only [take, item, openGroup]
    split
    · split <;> simp
    · simp
  | groupClose => simp only [take, closeGroup]; split <;> simp
  | quantifier q =>
    simp only [take, item, quantify]
    split
    · simp
    · split <;> simp
  | bar => simp [take, bar]

/-- Reading is done only at the end of the pattern, outside all groups. -/
theorem atEnd_of_step {m : Machine} {root : Node} {naming : Naming}
    (h : m.step = .done root naming) :
    m.rest = [] ∧ m.stack = [] ∧ m.current.close m.naming = (root, naming) := by
  unfold step at h
  split at h
  · simp at h
  · rename_i hnext
    simp only [atEnd] at h
    split at h
    · rename_i hstack
      simp only [Step.done.injEq] at h
      exact ⟨Token.next_eq_none_iff.mp hnext, hstack, Prod.ext h.1 h.2⟩
    · simp at h
  · exact absurd h (take_ne_done m _ _ root naming)

/-! ## 3. Words and runs -/

theorem run_of_step {m m' : Machine} (h : m.step = .next m') : m.run = m'.run := by
  rw [run]
  split
  · rename_i heq
    rw [h] at heq
    simp only [Step.next.injEq] at heq
    rw [heq]
  · rename_i heq
    rw [h] at heq
    simp at heq
  · rename_i heq
    rw [h] at heq
    simp at heq

theorem run_of_done {m : Machine} {root : Node} {naming : Naming}
    (h : m.step = .done root naming) : m.run = ⟨.ok root, naming⟩ := by
  rw [run]
  split <;> (rename_i heq; rw [h] at heq; simp at heq)
  simp [heq]

theorem run_of_failed {m : Machine} {f : Failure} {naming : Naming}
    (h : m.step = .failed f naming) : m.run = ⟨.error f, naming⟩ := by
  rw [run]
  split <;> (rename_i heq; rw [h] at heq; simp at heq)
  simp [heq]

/-- **A word that leads on is one step of the run.** -/
theorem run_of_word {m m' : Machine} {w : Word} {rest : List Char}
    (hw : Word.next? m.rest = some (w, rest)) (h : m.takeWord w rest = .next m') :
    m.run = m'.run := run_of_step ((step_of_word hw).trans h)

end Machine

end PatternDiagram
