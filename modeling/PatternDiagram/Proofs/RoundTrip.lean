import Mathlib.Data.List.Chain
import PatternDiagram.Proofs.Scanning
import PatternDiagram.Proofs.Wording

/-!
# Printing and reading

Which trees come back when their text is read:

* `Node.print`: the text of a tree;
* `Node.Canonical`: well-formed trees of what can be typed, their groups numbered in order;
* `Node.Spaced`: in no sequence an item begins with something that the one before it takes;
* `Grammar.Choice.reads` and the others: what is typed is read, if it is spaced;
* `Grammar.Choice.spaced` and the others: what is read is spaced;
* `parse_print`: **a canonical tree that is spaced comes back, and any other has no source**;
* `CharacterClass.parse_label`: the label of a class is read as the class.
-/

namespace PatternDiagram

open Grammar

/-! ## 1. Canonical trees -/

/-- The text of words, one after the other. -/
def textOf (ws : List Word) : List Char := ws.flatMap Word.written

namespace Node

/-- The text of a tree: that of its words, one after the other. -/
def print (x : Node) : List Char := textOf x.words

/-- What the root of the tree says can be typed. -/
def Typable : Node → Prop
  | .literal l => l.Typable
  | .backreference t => t.Typable
  | .repetition q _ => q.Typable
  | .group _ (some s) _ _ => isName s = true
  | _ => True

instance : ∀ x : Node, Decidable x.Typable
  | .literal l => inferInstanceAs (Decidable l.Typable)
  | .backreference t => inferInstanceAs (Decidable t.Typable)
  | .repetition q _ => inferInstanceAs (Decidable q.Typable)
  | .group _ (some s) _ _ => inferInstanceAs (Decidable (isName s = true))
  | .group _ none _ _ | .sequence _ | .alternation _ => isTrue trivial
  | .characterClass _ | .anchor _ | .lookaround _ _ _ => isTrue trivial

/-- **The trees that sources are expected to have.** -/
structure Canonical (x : Node) : Prop where
  wellFormed : x.WellFormed
  typable : x.Every Typable
  numbered : x.captures.map Capture.index = (List.range' 1 x.captures.length).map some
  namesApart : x.NamesApart

/-- The plain character that an item begins with. -/
def leading? : Node → Option Char
  | .literal (.char c) => some c
  | .repetition _ body => body.leading?
  | _ => none

/-- The character would become part of the item in front of it: a digit goes on with the number of a
    reference, and an octal digit turns the null character into an octal escape. -/
def takes : Node → Char → Bool
  | .backreference (.index _), c => c.isDigit
  | .literal (.escaped _ .null), c => Numeral.isDigit 8 c
  | _, _ => false

/-- The second item does not begin with something that the first one takes. -/
def MayPrecede (x y : Node) : Prop := ∀ c, y.leading? = some c → x.takes c = false

instance (x y : Node) : Decidable (x.MayPrecede y) :=
  match h : y.leading? with
  | none => isTrue (by simp [MayPrecede, h])
  | some c => decidable_of_iff (x.takes c = false) (by simp [MayPrecede, h])

/-- The items right below the root of the tree leave each other alone. -/
def Parted : Node → Prop
  | .sequence items => items.IsChain MayPrecede
  | _ => True

instance : ∀ x : Node, Decidable x.Parted
  | .sequence items => inferInstanceAs (Decidable (items.IsChain MayPrecede))
  | .alternation _ | .group _ _ _ _ | .characterClass _ | .literal _ => isTrue trivial
  | .repetition _ _ | .anchor _ | .backreference _ | .lookaround _ _ _ => isTrue trivial

/-- **In no sequence does an item begin with something that the one before it takes.** -/
def Spaced (x : Node) : Prop := x.Every Parted

instance (x : Node) : Decidable x.Spaced := inferInstanceAs (Decidable (x.Every Parted))

theorem isDigit_of_takes {x : Node} {c : Char} (h : x.takes c = true) : c.isDigit = true := by
  unfold takes at h
  split at h
  · exact h
  · exact Numeral.char_isDigit (by omega) h
  · simp at h

theorem takes_eq_false (x : Node) {c : Char} (h : c.isDigit = false) : x.takes c = false := by
  rw [← Bool.not_eq_true]
  intro htakes
  rw [isDigit_of_takes htakes] at h
  simp at h

end Node

/-! ## 2. Beginnings -/

theorem Quantifier.written_head (q : Quantifier) :
    ∃ c cs, q.written = c :: cs ∧ c ≠ '/' ∧ c.isDigit = false := by
  unfold Quantifier.written
  cases q.shape <;> exact ⟨_, _, rfl, by decide, by decide⟩

/-- **No text of a word is empty.** It does not begin with a slash; a question mark only begins
    quantifiers, and a digit only begins itself. -/
theorem Word.written_head (w : Word) :
    ∃ c cs, w.written = c :: cs ∧ c ≠ '/' ∧ (c = '?' → ∃ q, w = .token (.quantifier q)) ∧
      (c.isDigit = true → w = .token (.literal (.char c))) := by
  cases w with
  | characterClass c => exact ⟨_, _, rfl, by decide, by simp, by simp⟩
  | token t =>
    cases t with
    | literal l =>
      cases l with
      | char c =>
        by_cases hc : c ∈ syntaxChars
        · refine ⟨'\\', [c], ?_, by decide, by simp, by simp⟩
          simp [written, Token.written, Literal.written, hc]
        · refine ⟨c, [], ?_, ?_, ?_, fun _ => rfl⟩
          · simp [written, Token.written, Literal.written, hc]
          · intro e
            subst e
            exact hc (by decide)
          · intro e
            subst e
            exact absurd (by decide) hc
      | any => exact ⟨_, _, rfl, by decide, by simp, by simp⟩
      | set e => exact ⟨_, _, rfl, by decide, by simp, by simp⟩
      | escaped value form => cases form <;> exact ⟨_, _, rfl, by decide, by simp, by simp⟩
    | classOpen negated => exact ⟨_, _, rfl, by decide, by simp, by simp⟩
    | anchor a => cases a <;> exact ⟨_, _, rfl, by decide, by simp, by simp⟩
    | groupOpen head =>
      cases head with
      | capture name => cases name <;> exact ⟨_, _, rfl, by decide, by simp, by simp⟩
      | plain => exact ⟨_, _, rfl, by decide, by simp, by simp⟩
      | look direction polarity =>
        cases direction <;> cases polarity <;> exact ⟨_, _, rfl, by decide, by simp, by simp⟩
    | groupClose => exact ⟨_, _, rfl, by decide, by simp, by simp⟩
    | quantifier q =>
      obtain ⟨c, cs, hwritten, hslash, hdigit⟩ := q.written_head
      exact ⟨c, cs, hwritten, hslash, fun _ => ⟨q, rfl⟩, by simp [hdigit]⟩
    | bar => exact ⟨_, _, rfl, by decide, by simp, by simp⟩
    | backreference t => cases t <;> exact ⟨_, _, rfl, by decide, by simp, by simp⟩

@[simp] theorem textOf_nil : textOf [] = [] := rfl

@[simp] theorem textOf_cons (w : Word) (ws : List Word) :
    textOf (w :: ws) = w.written ++ textOf ws := rfl

@[simp] theorem textOf_append (ws vs : List Word) : textOf (ws ++ vs) = textOf ws ++ textOf vs := by
  simp [textOf]

/-- The text does not go on with something that a piece takes. -/
def Quiet (rest : List Char) : Prop := ∀ c, rest.head? = some c → c ≠ '?' ∧ c.isDigit = false

theorem quiet_nil : Quiet [] := by simp [Quiet]

theorem quiet_bar (cs : List Char) : Quiet ('|' :: cs) := by
  intro c hc
  obtain rfl : '|' = c := by simpa using hc
  decide

theorem quiet_close (cs : List Char) : Quiet (')' :: cs) := by
  intro c hc
  obtain rfl : ')' = c := by simpa using hc
  decide

/-- No question mark begins what is typed without a quantifier in front. -/
theorem head?_textOf_ne {ws : List Word} (rest : List Char) (h : Unquantified ws) (hne : ws ≠ []) :
    (textOf ws ++ rest).head? ≠ some '?' := by
  cases ws with
  | nil => exact absurd rfl hne
  | cons w ws =>
    obtain ⟨c, cs, hwritten, -, hmark, -⟩ := w.written_head
    intro e
    obtain ⟨q, rfl⟩ := hmark (by simpa [hwritten] using e)
    exact h q ws rfl

theorem Word.swallows_literal (l : Literal) (c : Char) :
    (Word.token (.literal l)).swallows c = (Node.literal l).takes c := by
  cases l with
  | escaped value form => cases form <;> rfl
  | _ => rfl

theorem Word.swallows_backreference (t : Target) (c : Char) :
    (Word.token (.backreference t)).swallows c = (Node.backreference t).takes c := by
  cases t <;> rfl

theorem Word.endsBefore_groupOpen (head : GroupHead) {rest : List Char}
    (h : rest.head? ≠ some '?') : (Word.token (.groupOpen head)).EndsBefore rest := by
  intro c hc
  cases head with
  | capture name =>
    cases name with
    | none =>
      have hne : c ≠ '?' := fun e => h (e ▸ hc)
      simpa [Word.swallows] using hne
    | some s => rfl
  | plain => rfl
  | look direction polarity => rfl

theorem Node.spaced_ofItems (xs : List Node) :
    (ofItems xs).Spaced ↔ xs.IsChain MayPrecede ∧ ∀ x ∈ xs, x.Spaced := by
  refine (every_ofItems xs).trans (and_congr_left fun _ => ⟨fun h => ?_, fun h _ => h⟩)
  by_cases hlength : xs.length = 1
  · obtain ⟨x, rfl⟩ := List.length_eq_one_iff.mp hlength
    exact .singleton x
  · exact h hlength

/-! ## 3. What is typed is read -/

namespace Grammar

theorem Choice.unquantified {n n' : Nat} {ws vs : List Word} {xs : List Node} :
    Choice n ws xs n' → EndsChoice vs → Unquantified (ws ++ vs)
  | .one h, hv => h.unquantified hv.endsRow
  | .more h hs, hv => by
      rw [List.append_assoc]
      exact h.unquantified (.inr ⟨_, .inl rfl⟩)

/-- A piece whose text begins with a digit begins with that character. -/
theorem Piece.leading_of_word {n n' : Nat} {ws : List Word} {x : Node} {c : Char}
    (h : Piece n (.token (.literal (.char c)) :: ws) x n') : x.leading? = some c := by
  have hatom {n n' : Nat} {ws vs : List Word} {x : Node} (h : Atom n ws x n')
      (e : ws = .token (.literal (.char c)) :: vs) : x.leading? = some c := by
    cases h <;> simp_all [Node.leading?]
  generalize e : Word.token (.literal (.char c)) :: ws = us at h
  cases h with
  | once h => exact hatom h e.symm
  | repeated q h hx =>
    obtain ⟨w, vs, rfl, -⟩ := h.begins
    simp only [List.cons_append, List.cons.injEq] at e
    rw [Node.leading?]
    exact hatom h (by rw [e.1])

/-- Behind an item the text goes on with nothing that it takes. -/
theorem Row.quiet {n n' : Nat} {ws : List Word} {x : Node} {xs : List Node} {rest : List Char}
    (h : Row n ws xs n') (hx : (x :: xs).IsChain Node.MayPrecede) (hrest : Quiet rest) :
    ∀ c, (textOf ws ++ rest).head? = some c → c ≠ '?' ∧ x.takes c = false := by
  intro c hc
  cases h with
  | nil =>
    obtain ⟨hmark, hdigit⟩ := hrest c hc
    exact ⟨hmark, x.takes_eq_false hdigit⟩
  | cons hp hs =>
    -- only digits are ever taken, and the only text that begins with one is that of a digit
    obtain ⟨w, vs, rfl, hbegins⟩ := hp.begins
    obtain ⟨d, ds, hwritten, -, hmark, hdigit⟩ := w.written_head
    obtain rfl : d = c := by simpa [hwritten] using hc
    constructor
    · intro e
      obtain ⟨q, rfl⟩ := hmark e
      simp [Word.beginsAtom] at hbegins
    · cases htakes : x.takes d with
      | false => rfl
      | true =>
        obtain rfl := hdigit (Node.isDigit_of_takes htakes)
        have hmay := (List.isChain_cons_cons.mp hx).1 d hp.leading_of_word
        rw [htakes] at hmay
        simp at hmay

mutual

theorem Atom.reads {n n' : Nat} {ws : List Word} {x : Node} {rest : List Char} :
    Atom n ws x n' → (∀ w ∈ ws, w.Typable) → x.Spaced →
      (∀ c, rest.head? = some c → x.takes c = false) → Reads (textOf ws ++ rest) ws rest
  | .literal _ l, hw, _, hrest => by
      rw [textOf_cons, textOf_nil, List.append_nil]
      refine .single (Word.next?_written (hw _ (by simp)) fun c hc => ?_)
      rw [Word.swallows_literal]
      exact hrest c hc
  | .anchor _ a, hw, _, _ => by
      rw [textOf_cons, textOf_nil, List.append_nil]
      exact .single (Word.next?_written (hw _ (by simp)) fun _ _ => rfl)
  | .backreference _ t, hw, _, hrest => by
      rw [textOf_cons, textOf_nil, List.append_nil]
      refine .single (Word.next?_written (hw _ (by simp)) fun c hc => ?_)
      rw [Word.swallows_backreference]
      exact hrest c hc
  | .characterClass _ c, hw, _, _ => by
      rw [textOf_cons, textOf_nil, List.append_nil]
      exact .single (Word.next?_written (hw _ (by simp)) fun _ _ => rfl)
  | .group head body, hw, hx, _ => by
      rw [textOf_cons, textOf_append, textOf_cons, textOf_nil, List.append_nil, List.append_assoc,
        List.append_assoc]
      have hinner := body.reads (fun w hmem => hw w (by simp [hmem]))
        ((Node.every_ofBranches _).mp ((Node.every_node head _ _).mp hx).2).2 (quiet_close rest)
      refine .more (Word.next?_written (hw _ (by simp)) (Word.endsBefore_groupOpen head ?_))
        (hinner.append (.single rfl))
      have hhead := head?_textOf_ne rest (body.unquantified (.inr ⟨[], rfl⟩)) (by simp)
      simpa using hhead
termination_by structural h => h

theorem Piece.reads {n n' : Nat} {ws : List Word} {x : Node} {rest : List Char} :
    Piece n ws x n' → (∀ w ∈ ws, w.Typable) → x.Spaced →
      (∀ c, rest.head? = some c → c ≠ '?' ∧ x.takes c = false) → Reads (textOf ws ++ rest) ws rest
  | .once h, hw, hx, hrest => h.reads hw hx fun c hc => (hrest c hc).2
  | .repeated q h hplace, hw, hx, hrest => by
      rw [textOf_append, textOf_cons, textOf_nil, List.append_nil, List.append_assoc]
      refine .append (h.reads (fun w hmem => hw w (List.mem_append_left _ hmem))
        ((Node.every_repetition q _).mp hx).2 ?_) (.single (Word.next?_written (hw _ (by simp)) ?_))
      · intro c hc
        obtain ⟨d, ds, hwritten, -, hdigit⟩ := q.written_head
        obtain rfl : d = c := by simpa [Word.written, Token.written, hwritten] using hc
        exact Node.takes_eq_false _ hdigit
      · intro c hc
        simp [Word.swallows, (hrest c hc).1]
termination_by structural h => h

theorem Row.reads {n n' : Nat} {ws : List Word} {xs : List Node} {rest : List Char} :
    Row n ws xs n' → (∀ w ∈ ws, w.Typable) → xs.IsChain Node.MayPrecede →
      (∀ x ∈ xs, x.Spaced) → Quiet rest → Reads (textOf ws ++ rest) ws rest
  | .nil _, _, _, _, _ => .done rest
  | .cons h hs, hw, hchain, hx, hrest => by
      rw [List.forall_mem_cons] at hx
      rw [textOf_append, List.append_assoc]
      exact .append
        (h.reads (fun w hmem => hw w (List.mem_append_left _ hmem)) hx.1 (hs.quiet hchain hrest))
        (hs.reads (fun w hmem => hw w (List.mem_append_right _ hmem)) hchain.of_cons hx.2 hrest)
termination_by structural h => h

theorem Choice.reads {n n' : Nat} {ws : List Word} {xs : List Node} {rest : List Char} :
    Choice n ws xs n' → (∀ w ∈ ws, w.Typable) → (∀ x ∈ xs, x.Spaced) → Quiet rest →
      Reads (textOf ws ++ rest) ws rest
  | .one h, hw, hx, hrest => by
      obtain ⟨hchain, hitems⟩ := (Node.spaced_ofItems _).mp (List.forall_mem_cons.mp hx).1
      exact h.reads hw hchain hitems hrest
  | .more h hs, hw, hx, hrest => by
      obtain ⟨hfirst, hothers⟩ := List.forall_mem_cons.mp hx
      obtain ⟨hchain, hitems⟩ := (Node.spaced_ofItems _).mp hfirst
      rw [textOf_append, textOf_cons, List.append_assoc]
      exact .append
        (h.reads (fun w hmem => hw w (List.mem_append_left _ hmem)) hchain hitems (quiet_bar _))
        (.more rfl (hs.reads (fun w hmem => hw w (by simp [hmem])) hothers hrest))
termination_by structural h => h

end

end Grammar

/-! ## 4. What is read is spaced -/

namespace Grammar

theorem Piece.word_of_leading {n n' : Nat} {ws : List Word} {x : Node} {c : Char} :
    Piece n ws x n' → x.leading? = some c → ∃ vs, ws = .token (.literal (.char c)) :: vs
  | .once h, hx => by
      cases h with
      | literal _ l =>
        cases l with
        | char d =>
          obtain rfl : d = c := by simpa [Node.leading?] using hx
          exact ⟨[], rfl⟩
        | _ => simp [Node.leading?] at hx
      | group head => cases head <;> simp [GroupHead.node, Node.leading?] at hx
      | _ => simp [Node.leading?] at hx
  | .repeated q h _, hx => by
      rw [Node.leading?] at hx
      obtain ⟨vs, rfl⟩ := Piece.word_of_leading (.once h) hx
      exact ⟨_, rfl⟩

/-- An item does not take what the next one begins with. -/
theorem Row.mayPrecede {n n' : Nat} {cs rest : List Char} {ws : List Word} {x y : Node}
    {ys : List Node} (h : Row n ws (y :: ys) n') (hw : Reads cs ws rest)
    (hx : ∀ c, cs.head? = some c → x.takes c = false) : x.MayPrecede y := by
  intro c hc
  cases h with
  | cons hp _ =>
    obtain ⟨vs, rfl⟩ := hp.word_of_leading hc
    cases hw with
    | more hnext _ =>
      cases htakes : x.takes c with
      | false => rfl
      | true =>
        have hhead := Word.head?_of_next?_char (Node.isDigit_of_takes htakes) hnext
        rw [← htakes, hx c hhead]

mutual

theorem Atom.spaced {n n' : Nat} {cs rest : List Char} {ws : List Word} {x : Node} :
    Atom n ws x n' → Reads cs ws rest →
      x.Spaced ∧ ∀ c, rest.head? = some c → x.takes c = false
  | .literal _ l, hw => by
      cases hw with
      | more hnext hs =>
        cases hs
        refine ⟨(Node.every_literal l).mpr trivial, fun c hc => ?_⟩
        rw [← Word.swallows_literal]
        exact Word.endsBefore_of_next? hnext c hc
  | .anchor _ a, _ => ⟨(Node.every_anchor a).mpr trivial, fun _ _ => rfl⟩
  | .backreference _ t, hw => by
      cases hw with
      | more hnext hs =>
        cases hs
        refine ⟨(Node.every_backreference t).mpr trivial, fun c hc => ?_⟩
        rw [← Word.swallows_backreference]
        exact Word.endsBefore_of_next? hnext c hc
  | .characterClass _ c, _ => ⟨(Node.every_characterClass c).mpr trivial, fun _ _ => rfl⟩
  | .group head body, hw => by
      cases hw with
      | more _ hs =>
        obtain ⟨mid, hbody, -⟩ := hs.exists_of_append
        have hspaced := (Node.every_ofBranches _).mpr ⟨fun _ => trivial, body.spaced hbody⟩
        refine ⟨(Node.every_node head _ _).mpr ⟨?_, hspaced⟩, fun c _ => ?_⟩
        · cases head <;> trivial
        · cases head <;> rfl
termination_by structural h => h

theorem Piece.spaced {n n' : Nat} {cs rest : List Char} {ws : List Word} {x : Node} :
    Piece n ws x n' → Reads cs ws rest →
      x.Spaced ∧ ∀ c, rest.head? = some c → x.takes c = false
  | .once h, hw => h.spaced hw
  | .repeated q h _, hw => by
      obtain ⟨mid, hatom, -⟩ := hw.exists_of_append
      exact ⟨(Node.every_repetition q _).mpr ⟨trivial, (h.spaced hatom).1⟩, fun _ _ => rfl⟩
termination_by structural h => h

theorem Row.spaced {n n' : Nat} {cs rest : List Char} {ws : List Word} {xs : List Node} :
    Row n ws xs n' → Reads cs ws rest → xs.IsChain Node.MayPrecede ∧ ∀ x ∈ xs, x.Spaced
  | .nil _, _ => ⟨.nil, by simp⟩
  | .cons h hs, hw => by
      obtain ⟨mid, hfront, hback⟩ := hw.exists_of_append
      obtain ⟨hx, htakes⟩ := h.spaced hfront
      obtain ⟨hchain, hxs⟩ := hs.spaced hback
      refine ⟨?_, List.forall_mem_cons.mpr ⟨hx, hxs⟩⟩
      cases hs with
      | nil => exact .singleton _
      | cons hp hs => exact .cons_cons ((Row.cons hp hs).mayPrecede hback htakes) hchain
termination_by structural h => h

theorem Choice.spaced {n n' : Nat} {cs rest : List Char} {ws : List Word} {xs : List Node} :
    Choice n ws xs n' → Reads cs ws rest → ∀ x ∈ xs, x.Spaced
  | .one h, hw => by
      have hspaced := (Node.spaced_ofItems _).mpr (h.spaced hw)
      simpa using hspaced
  | .more h hs, hw => by
      obtain ⟨mid, hfront, hback⟩ := hw.exists_of_append
      have hspaced := (Node.spaced_ofItems _).mpr (h.spaced hfront)
      cases hback with
      | more _ hback => exact List.forall_mem_cons.mpr ⟨hspaced, hs.spaced hback⟩
termination_by structural h => h

end

end Grammar

/-- **The tree of an accepted source is spaced.** -/
theorem spaced_of_parse {source : String} {e : Expression} (h : parse source = .ok e) :
    e.root.Spaced := by
  obtain ⟨s, after, -, hparse, -⟩ := reader_of_parse h
  have haccepted : (Reader.ofPattern s.pattern s.base).parse.1 = .ok e.root := by rw [hparse]
  obtain ⟨ws, hws, ⟨xs, _, hxs, hroot⟩, -⟩ := (Reader.parse_iff _ _).mp haccepted
  rw [hroot]
  exact (Node.every_ofBranches xs).mpr ⟨fun _ => trivial, hxs.spaced hws⟩

/-! ## 5. There and back -/

namespace Node

mutual

/-- The words of a tree can be typed if its nodes can. -/
theorem typable_words :
    ∀ x : Node, x.WellFormed → x.Every Typable → ∀ w ∈ x.words, w.Typable
  | .sequence items, hx, ht =>
      typable_wordsThrough items ((every_sequence items).mp hx).2 ((every_sequence items).mp ht).2
  | .alternation branches, hx, ht =>
      typable_wordsBetween branches ((every_alternation branches).mp hx).2
        ((every_alternation branches).mp ht).2
  | .group capturing name index body, hx, ht => by
      obtain ⟨hname, ht⟩ := (every_group capturing name index body).mp ht
      have hbody := typable_words body ((every_group capturing name index body).mp hx).2 ht
      simp only [words, List.mem_cons, List.mem_append, List.not_mem_nil, or_false]
      intro w hw
      rcases hw with rfl | hw | rfl
      · cases capturing with
        | false => trivial
        | true =>
          cases name with
          | none => trivial
          | some s => exact hname
      · exact hbody w hw
      · trivial
  | .lookaround direction polarity body, hx, ht => by
      have hbody := typable_words body ((every_lookaround direction polarity body).mp hx).2
        ((every_lookaround direction polarity body).mp ht).2
      simp only [words, List.mem_cons, List.mem_append, List.not_mem_nil, or_false]
      intro w hw
      rcases hw with rfl | hw | rfl
      · trivial
      · exact hbody w hw
      · trivial
  | .repetition q body, hx, ht => by
      obtain ⟨hq, ht⟩ := (every_repetition q body).mp ht
      have hbody := typable_words body ((every_repetition q body).mp hx).2 ht
      simp only [words, List.mem_append, List.mem_singleton]
      intro w hw
      rcases hw with hw | rfl
      · exact hbody w hw
      · exact hq
  | .characterClass c, hx, _ => by
      simp only [words, List.mem_singleton, forall_eq]
      exact (every_characterClass c).mp hx
  | .literal l, _, ht => by
      simp only [words, List.mem_singleton, forall_eq]
      exact (every_literal l).mp ht
  | .anchor a, _, _ => by
      simp only [words, List.mem_singleton, forall_eq]
      trivial
  | .backreference t, _, ht => by
      simp only [words, List.mem_singleton, forall_eq]
      exact (every_backreference t).mp ht

theorem typable_wordsThrough :
    ∀ xs : List Node, (∀ x ∈ xs, x.WellFormed) → (∀ x ∈ xs, x.Every Typable) →
      ∀ w ∈ wordsThrough xs, w.Typable
  | [], _, _ => by simp [wordsThrough]
  | x :: xs, hx, ht => by
      rw [List.forall_mem_cons] at hx ht
      simp only [wordsThrough, List.mem_append]
      intro w hw
      rcases hw with hw | hw
      · exact typable_words x hx.1 ht.1 w hw
      · exact typable_wordsThrough xs hx.2 ht.2 w hw

theorem typable_wordsBetween :
    ∀ xs : List Node, (∀ x ∈ xs, x.WellFormed) → (∀ x ∈ xs, x.Every Typable) →
      ∀ w ∈ wordsBetween xs, w.Typable
  | [], _, _ => by simp [wordsBetween]
  | [x], hx, ht => typable_words x (hx x (by simp)) (ht x (by simp))
  | x :: y :: ys, hx, ht => by
      rw [List.forall_mem_cons] at hx ht
      simp only [wordsBetween, List.mem_append, List.mem_cons]
      intro w hw
      rcases hw with hw | rfl | hw
      · exact typable_words x hx.1 ht.1 w hw
      · trivial
      · exact typable_wordsBetween (y :: ys) hx.2 ht.2 w hw

end

/-- No tree is typed with a slash in front. -/
theorem head?_print_ne (x : Node) : x.print.head? ≠ some '/' := by
  unfold print
  cases x.words with
  | nil => simp
  | cons w ws =>
    obtain ⟨c, cs, hwritten, hslash, -⟩ := w.written_head
    simpa [hwritten] using hslash

end Node

theorem Source.split_bare {cs : List Char} (h : cs.head? ≠ some '/') :
    split cs = .ok { pattern := cs } := by
  unfold split
  split
  · exact absurd rfl h
  · rfl

/-- **A canonical tree that is spaced is read from its text**, with its own groups. -/
theorem parse_print_of_spaced {x : Node} (h : x.Canonical) (hs : x.Spaced) :
    parse (String.ofList x.print) = .ok ⟨x, {}, ⟨x.captures.length, x.named⟩⟩ := by
  obtain ⟨xs, hxs, hchoice⟩ := (x.worded h.wellFormed ⟨_, rfl, h.numbered⟩).choice
  have hspaced : ∀ y ∈ xs, y.Spaced := ((Node.every_ofBranches xs).mp (hxs ▸ hs)).2
  have hreads : Reads x.print x.words [] := by
    simpa [Node.print] using
      hchoice.reads (x.typable_words h.wellFormed h.typable) hspaced quiet_nil
  have hclash : (Node.ofBranches xs).clash? [] = none :=
    (Node.clash?_nil_eq_none_iff _).mpr (hxs ▸ h.namesApart)
  have hchoice : Choice (Naming.next {}) x.words xs (1 + x.captures.length) := hchoice
  obtain ⟨after, hrun, htakes⟩ := (Machine.run_of_choice hreads hchoice).accepts hclash
  rw [← hxs] at hrun htakes
  have hparse : (Reader.ofPattern x.print 0).parse =
      (.ok x, { pattern := x.print, rest := [], naming := after }) := by
    simp [Reader.parse, Reader.ofPattern, hrun, Reader.goTo]
  have hgroups : GroupTable.mk (after.next - 1) after.table = ⟨x.captures.length, x.named⟩ := by
    rw [htakes.next_eq, htakes.table_eq]
    simp
  rw [parse, String.toList_ofList, Source.split_bare x.head?_print_ne]
  simp [Source.expression, hparse, Reader.groups, hgroups]

/-- **Printing and reading.** A canonical tree is recovered from its text, with no flags and with
    its own groups, if in none of its sequences an item begins with something that the one before
    it takes: a digit behind the number of a reference, or an octal digit behind the null
    character. Otherwise no source has that tree at all. -/
theorem parse_print {x : Node} (h : x.Canonical) :
    (x.Spaced → parse (String.ofList x.print) = .ok ⟨x, {}, ⟨x.captures.length, x.named⟩⟩) ∧
      (¬ x.Spaced → ∀ source e, parse source = .ok e → e.root ≠ x) :=
  ⟨parse_print_of_spaced h, fun hs _ _ hparse e => hs (e ▸ spaced_of_parse hparse)⟩

/-- A named group, a lazy repetition and a class. -/
theorem parse_print_named :
    ∃ x : Node, x.Canonical ∧ parse (String.ofList x.print) = .ok ⟨x, {}, ⟨1, [("a", 1)]⟩⟩ := by
  have hcanonical : Node.Canonical (.sequence [.group true (some "a") (some 1) (.alternation
      [.characterClass ⟨true, [.range 'a' 'c']⟩, .literal (.escaped '\x00' .null)]),
      .repetition ⟨2, none, false⟩ (.backreference (.name "a"))]) := by
    exact ⟨by decide, by decide, rfl, by decide⟩
  exact ⟨_, hcanonical, (parse_print hcanonical).1 (by decide)⟩

/-- A digit behind the null character: its text is that of an octal escape, and there is no other
    text for it. -/
theorem not_parse_print :
    Node.Canonical (.sequence [.literal (.escaped '\x00' .null), .literal (.char '1')]) ∧
      Node.print (.sequence [.literal (.escaped '\x00' .null), .literal (.char '1')]) =
        ['\\', '0', '1'] ∧
      parse "\\01" = .ok ⟨.literal (.escaped '\x01' .octal), {}, {}⟩ ∧
      ∀ source e, parse source = .ok e →
        e.root ≠ .sequence [.literal (.escaped '\x00' .null), .literal (.char '1')] := by
  refine ⟨⟨by decide, by decide, rfl, by decide⟩, by decide, by with_unfolding_all rfl,
    fun source e h hroot => ?_⟩
  have hspaced := spaced_of_parse h
  rw [hroot] at hspaced
  exact absurd hspaced (by decide)

/-! ## 6. Labels of classes -/

namespace CharacterClass

/-- The tree of a class whose ranges are in order is canonical. -/
theorem canonical {c : CharacterClass} (h : c.Proper) : (Node.characterClass c).Canonical where
  wellFormed := (Node.every_characterClass c).mpr h
  typable := (Node.every_characterClass c).mpr trivial
  numbered := rfl
  namesApart := by
    intro path hpath
    obtain rfl : path = [] := by simpa [Node.paths] using hpath
    exact List.nodup_nil

/-- The text of a class is its label. -/
theorem print_eq (c : CharacterClass) : (Node.characterClass c).print = c.source := by
  simp [Node.print, Node.words, textOf, Word.written]

/-- **The label of a class is read as the class**, whatever its items are, if its ranges are in
    order: no item runs into the next one, and none ends the class before its time. -/
theorem parse_label {c : CharacterClass} (h : c.Proper) :
    parse c.label = .ok ⟨.characterClass c, {}, {}⟩ := by
  have hspaced : (Node.characterClass c).Spaced := (Node.every_characterClass c).mpr trivial
  have hparse := parse_print_of_spaced (canonical h) hspaced
  rwa [print_eq] at hparse

/-- A caret, a dash, brackets, control characters, and a set behind a range. -/
theorem parse_label_of_marks :
    let c : CharacterClass := ⟨true, [.char '^', .char '-', .range '\x00' '\n', .char ']',
      .range '[' '\\', .escape .nonDigit, .char '\x7f', .char 'b']⟩
    c.label = "[^\\^\\-\\u0000-\\n\\][-\\\\\\D\\u007Fb]" ∧
      parse c.label = .ok ⟨.characterClass c, {}, {}⟩ := by
  intro c
  have hproper : c.Proper := by decide
  exact ⟨by decide, parse_label hproper⟩

end CharacterClass

end PatternDiagram
