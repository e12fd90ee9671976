import PatternDiagram.Proofs.Numbering
import PatternDiagram.Proofs.WellFormed

/-!
# The words of a tree

Every well-formed tree can be put into words:

* `Node.words`: the words of a tree, from left to right;
* `Numbered.of_append`, `Numbered.of_cons`: numbers that are in order are so in each part;
* `Worded`: the words of a tree stand for it, on every level of the grammar where it has a place;
* `Node.worded`: **the words of a well-formed tree stand for it**, if its groups are numbered in
  order;
* `Derives.words_eq`: no other words stand for a tree.
-/

namespace PatternDiagram

open Grammar

/-! ## 1. Words -/

namespace Node

mutual

/-- The words of a tree. -/
def words : Node → List Word
  | .sequence items => wordsThrough items
  | .alternation branches => wordsBetween branches
  | .group capturing name _ body =>
      .token (.groupOpen (if capturing then .capture name else .plain)) ::
        (body.words ++ [.token .groupClose])
  | .lookaround direction polarity body =>
      .token (.groupOpen (.look direction polarity)) :: (body.words ++ [.token .groupClose])
  | .repetition q body => body.words ++ [.token (.quantifier q)]
  | .characterClass c => [.characterClass c]
  | .literal l => [.token (.literal l)]
  | .anchor a => [.token (.anchor a)]
  | .backreference t => [.token (.backreference t)]

/-- The words of trees one after the other. -/
def wordsThrough : List Node → List Word
  | [] => []
  | x :: xs => x.words ++ wordsThrough xs

/-- The words of trees with bars between them. -/
def wordsBetween : List Node → List Word
  | [] => []
  | [x] => x.words
  | x :: xs => x.words ++ .token .bar :: wordsBetween xs

end

end Node

/-! ## 2. Numbers of parts -/

namespace Numbered

theorem of_append {n n' : Nat} {cs ds : List Capture} (h : Numbered n (cs ++ ds) n') :
    Numbered n cs (n + cs.length) ∧ Numbered (n + cs.length) ds n' := by
  obtain ⟨k, rfl, hindex⟩ := h
  have hlength : cs.length + ds.length = k := by simpa using congrArg List.length hindex
  obtain rfl : k = cs.length + ds.length := hlength.symm
  rw [← List.range'_append_1, List.map_append, List.map_append] at hindex
  obtain ⟨hcs, hds⟩ := List.append_inj hindex (by simp)
  exact ⟨⟨_, rfl, hcs⟩, ⟨_, (Nat.add_assoc ..).symm, hds⟩⟩

theorem of_cons {n n' : Nat} {name : Option String} {index : Option Nat} {cs : List Capture}
    (h : Numbered n (⟨name, index⟩ :: cs) n') : index = some n ∧ Numbered (n + 1) cs n' := by
  have happend : Numbered n ([⟨name, index⟩] ++ cs) n' := h
  obtain ⟨⟨k, hk, hindex⟩, hothers⟩ := happend.of_append
  obtain rfl : k = 1 := by simpa using hk.symm
  exact ⟨by simpa using hindex, hothers⟩

theorem of_nil {n n' : Nat} (h : Numbered n [] n') : n' = n := by
  obtain ⟨k, rfl, hindex⟩ := h
  have hlength : 0 = k := by simpa using congrArg List.length hindex
  omega

end Numbered

/-! ## 3. Derivations -/

/-- The words stand for the tree on each level of the grammar where a tree of its shape has a
    place. -/
structure Worded (n : Nat) (ws : List Word) (x : Node) (n' : Nat) : Prop where
  piece : x.isItem = true → Piece n ws x n'
  row : x.isBranch = true → ∃ xs, x = .ofItems xs ∧ Row n ws xs n'
  choice : ∃ xs, x = .ofBranches xs ∧ Choice n ws xs n'

namespace Worded

variable {n n' : Nat} {ws : List Word} {x : Node}

theorem of_piece (h : Piece n ws x n') : Worded n ws x n' where
  piece _ := h
  row _ := ⟨[x], rfl, .single h⟩
  choice := ⟨[x], rfl, .one (.single h)⟩

theorem of_atom (h : Atom n ws x n') : Worded n ws x n' := of_piece (.once h)

theorem of_row {xs : List Node} (hlength : xs.length ≠ 1) (h : Row n ws xs n') :
    Worded n ws (.sequence xs) n' := by
  have hitems : .sequence xs = Node.ofItems xs := by
    unfold Node.ofItems
    split
    · exact absurd rfl hlength
    · rfl
  exact ⟨by simp [Node.isItem], fun _ => ⟨xs, hitems, h⟩, [.ofItems xs], hitems, .one h⟩

theorem of_choice {xs : List Node} (hlength : 2 ≤ xs.length) (h : Choice n ws xs n') :
    Worded n ws (.alternation xs) n' := by
  have hbranches : .alternation xs = Node.ofBranches xs := by
    unfold Node.ofBranches
    split
    · simp at hlength
    · rfl
  exact ⟨by simp [Node.isItem], by simp [Node.isBranch], xs, hbranches, h⟩

/-- What can be repeated is an atom. -/
theorem atom (h : Worded n ws x n') (hx : x.isUnit = true) :
    Atom n ws x n' ∧ x.isPlace = false := by
  cases h.piece (Node.isItem_of_isUnit hx) with
  | once h =>
    refine ⟨h, ?_⟩
    unfold Node.isUnit at hx
    split at hx <;> simp_all [Node.isPlace]
  | repeated => simp [Node.isUnit] at hx

end Worded

namespace Node

mutual

/-- **The words of a well-formed tree stand for it.** -/
theorem worded {n n' : Nat} :
    ∀ x : Node, x.WellFormed → Numbered n x.captures n' → Worded n x.words x n'
  | .sequence items, hx, hn => by
      obtain ⟨⟨hlength, hitems⟩, hall⟩ := (every_sequence items).mp hx
      exact .of_row hlength (rowWorded items hitems hall (by simpa using hn))
  | .alternation branches, hx, hn => by
      obtain ⟨⟨hlength, hbranches⟩, hall⟩ := (every_alternation branches).mp hx
      have hne : branches ≠ [] := by
        intro e
        subst e
        simp at hlength
      exact .of_choice hlength (choiceWorded branches hne hbranches hall (by simpa using hn))
  | .group true name index body, hx, hn => by
      obtain ⟨-, hbody⟩ := (every_group true name index body).mp hx
      rw [captures_capture] at hn
      obtain ⟨rfl, hinner⟩ := hn.of_cons
      obtain ⟨xs, hxs, hchoice⟩ := (worded body hbody hinner).choice
      have hgroup := Atom.group (n := n) (.capture name) hchoice
      rw [← hxs] at hgroup
      exact .of_atom hgroup
  | .group false name index body, hx, hn => by
      obtain ⟨⟨hindex, hname⟩, hbody⟩ := (every_group false name index body).mp hx
      obtain rfl : index = none := by simpa using hindex
      obtain rfl : name = none := by simpa using hname
      rw [captures_plain] at hn
      obtain ⟨xs, hxs, hchoice⟩ := (worded body hbody hn).choice
      have hgroup := Atom.group (n := n) .plain hchoice
      rw [← hxs] at hgroup
      exact .of_atom hgroup
  | .lookaround direction polarity body, hx, hn => by
      obtain ⟨-, hbody⟩ := (every_lookaround direction polarity body).mp hx
      rw [captures_lookaround] at hn
      obtain ⟨xs, hxs, hchoice⟩ := (worded body hbody hn).choice
      have hgroup := Atom.group (n := n) (.look direction polarity) hchoice
      rw [← hxs] at hgroup
      exact .of_atom hgroup
  | .repetition q body, hx, hn => by
      obtain ⟨⟨-, hunit⟩, hbody⟩ := (every_repetition q body).mp hx
      rw [captures_repetition] at hn
      obtain ⟨hatom, hplace⟩ := (worded body hbody hn).atom hunit
      exact .of_piece (.repeated q hatom hplace)
  | .characterClass c, _, hn => by
      obtain rfl := hn.of_nil
      exact .of_atom (.characterClass _ c)
  | .literal l, _, hn => by
      obtain rfl := hn.of_nil
      exact .of_atom (.literal _ l)
  | .anchor a, _, hn => by
      obtain rfl := hn.of_nil
      exact .of_atom (.anchor _ a)
  | .backreference t, _, hn => by
      obtain rfl := hn.of_nil
      exact .of_atom (.backreference _ t)

theorem rowWorded {n n' : Nat} :
    ∀ xs : List Node, (∀ x ∈ xs, x.isItem = true) → (∀ x ∈ xs, x.WellFormed) →
      Numbered n (xs.flatMap captures) n' → Row n (wordsThrough xs) xs n'
  | [], _, _, hn => hn.of_nil ▸ .nil n
  | x :: xs, hitems, hall, hn => by
      rw [List.flatMap_cons] at hn
      obtain ⟨hfirst, hothers⟩ := hn.of_append
      rw [List.forall_mem_cons] at hitems hall
      exact .cons ((worded x hall.1 hfirst).piece hitems.1)
        (rowWorded xs hitems.2 hall.2 hothers)

theorem choiceWorded {n n' : Nat} :
    ∀ xs : List Node, xs ≠ [] → (∀ x ∈ xs, x.isBranch = true) → (∀ x ∈ xs, x.WellFormed) →
      Numbered n (xs.flatMap captures) n' → Choice n (wordsBetween xs) xs n'
  | [], hne, _, _, _ => absurd rfl hne
  | [x], _, hbranches, hall, hn => by
      rw [List.forall_mem_cons] at hbranches hall
      obtain ⟨items, hx, hrow⟩ := (worded x hall.1 (by simpa using hn)).row hbranches.1
      have hchoice := Choice.one hrow
      rwa [← hx] at hchoice
  | x :: y :: ys, _, hbranches, hall, hn => by
      -- a branch is a row: its items, or the branch itself if it is no sequence
      rw [List.flatMap_cons] at hn
      obtain ⟨hfirst, hothers⟩ := hn.of_append
      rw [List.forall_mem_cons] at hbranches hall
      obtain ⟨items, hx, hrow⟩ := (worded x hall.1 hfirst).row hbranches.1
      have hchoice := Choice.more hrow
        (choiceWorded (y :: ys) (by simp) hbranches.2 hall.2 hothers)
      rwa [← hx] at hchoice

end

end Node

/-! ## 4. No other words -/

namespace Node

theorem words_ofItems (xs : List Node) : (ofItems xs).words = wordsThrough xs := by
  match xs with
  | [] | [_] | _ :: _ :: _ => simp [ofItems, words, wordsThrough]

theorem words_ofBranches (xs : List Node) : (ofBranches xs).words = wordsBetween xs := by
  match xs with
  | [] | [_] | _ :: _ :: _ => simp [ofBranches, words, wordsBetween]

theorem words_node (head : GroupHead) (index : Option Nat) (x : Node) :
    (head.node index x).words =
      .token (.groupOpen head) :: (x.words ++ [.token .groupClose]) := by
  cases head <;> simp [GroupHead.node, words]

end Node

namespace Grammar

open Node

theorem Choice.ne_nil {n n' : Nat} {ws : List Word} {xs : List Node} (h : Choice n ws xs n') :
    xs ≠ [] := by
  cases h <;> simp

mutual

theorem Atom.words_eq {n n' : Nat} {ws : List Word} {x : Node} : Atom n ws x n' → x.words = ws
  | .literal _ _ | .anchor _ _ | .backreference _ _ | .characterClass _ _ => by simp [words]
  | .group head body => by rw [words_node, words_ofBranches, body.words_eq]
termination_by structural h => h

theorem Piece.words_eq {n n' : Nat} {ws : List Word} {x : Node} : Piece n ws x n' → x.words = ws
  | .once h => h.words_eq
  | .repeated q h _ => by rw [words, h.words_eq]
termination_by structural h => h

theorem Row.words_eq {n n' : Nat} {ws : List Word} {xs : List Node} :
    Row n ws xs n' → wordsThrough xs = ws
  | .nil _ => by simp [wordsThrough]
  | .cons h hs => by rw [wordsThrough, h.words_eq, hs.words_eq]
termination_by structural h => h

theorem Choice.words_eq {n n' : Nat} {ws : List Word} {xs : List Node} :
    Choice n ws xs n' → wordsBetween xs = ws
  | .one h => by rw [wordsBetween, words_ofItems, h.words_eq]
  | .more h hs => by
      rw [wordsBetween, words_ofItems, h.words_eq, hs.words_eq]
      exact hs.ne_nil
termination_by structural h => h

end

end Grammar

/-- **No other words than its own stand for a tree.** -/
theorem Derives.words_eq {n : Nat} {ws : List Word} {x : Node} (h : Derives n ws x) :
    x.words = ws := by
  obtain ⟨xs, n', hxs, rfl⟩ := h
  rw [Node.words_ofBranches, hxs.words_eq]

end PatternDiagram
