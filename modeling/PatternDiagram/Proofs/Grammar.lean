import PatternDiagram.Proofs.Words

/-!
# The grammar of patterns

Which trees a row of words can stand for. The groups that capture are numbered on the way, so that
each judgement has the next free number in front of the words and behind them:

* `Grammar.Atom`, `Grammar.Piece`, `Grammar.Row`, `Grammar.Choice`: the four levels, from one unit
  up to rows with bars between them;
* `Derives`: the words as a whole stand for the tree;
* `Derives.unique`: **no row of words stands for two trees**;
* `Grammar.Row.append`, `Grammar.Row.quantify`, `Grammar.Front`: how rows and choices grow at their
  end, which is where the machine works.
-/

namespace PatternDiagram

/-! ## 1. The levels -/

/-- The number of a group that begins in this way, where `n` is free. -/
def GroupHead.number? (head : GroupHead) (n : Nat) : Option Nat :=
  match head with
  | .capture _ => some n
  | _ => none

/-- The next free number behind the beginning of the group. -/
def GroupHead.after (head : GroupHead) (n : Nat) : Nat :=
  match head with
  | .capture _ => n + 1
  | _ => n

/-- The tree stands for a place: between two characters, or behind something. -/
def Node.isPlace : Node → Bool
  | .anchor _ => true
  | .lookaround .behind _ _ => true
  | _ => false

/-- The tree can be repeated: it is one unit, and more than a place. -/
def Node.isUnit : Node → Bool
  | .literal _ | .characterClass _ | .backreference _ | .group _ _ _ _ => true
  | .lookaround .ahead _ _ => true
  | _ => false

/-- The word begins an atom. -/
def Word.beginsAtom : Word → Bool
  | .token (.literal _) | .token (.anchor _) | .token (.backreference _) => true
  | .token (.groupOpen _) | .characterClass _ => true
  | _ => false

namespace Grammar

mutual

/-- **A single unit**: a word of its own, or a group with what it encloses. -/
inductive Atom : Nat → List Word → Node → Nat → Prop where
  | literal (n : Nat) (l : Literal) : Atom n [.token (.literal l)] (.literal l) n
  | anchor (n : Nat) (a : Anchor) : Atom n [.token (.anchor a)] (.anchor a) n
  | backreference (n : Nat) (t : Target) : Atom n [.token (.backreference t)] (.backreference t) n
  | characterClass (n : Nat) (c : CharacterClass) : Atom n [.characterClass c] (.characterClass c) n
  | group {n n' : Nat} {ws : List Word} {xs : List Node} (head : GroupHead)
      (body : Choice (head.after n) ws xs n') :
      Atom n (.token (.groupOpen head) :: (ws ++ [.token .groupClose]))
        (head.node (head.number? n) (.ofBranches xs)) n'

/-- **An atom, alone or with one quantifier behind it.** Places are not repeated. -/
inductive Piece : Nat → List Word → Node → Nat → Prop where
  | once {n n' : Nat} {ws : List Word} {x : Node} (h : Atom n ws x n') : Piece n ws x n'
  | repeated {n n' : Nat} {ws : List Word} {x : Node} (q : Quantifier) (h : Atom n ws x n')
      (hx : x.isPlace = false) : Piece n (ws ++ [.token (.quantifier q)]) (.repetition q x) n'

/-- **Pieces one after the other**, none at all included. -/
inductive Row : Nat → List Word → List Node → Nat → Prop where
  | nil (n : Nat) : Row n [] [] n
  | cons {n n₁ n' : Nat} {ws vs : List Word} {x : Node} {xs : List Node} (h : Piece n ws x n₁)
      (hs : Row n₁ vs xs n') : Row n (ws ++ vs) (x :: xs) n'

/-- **Rows with bars between them**, at least one. -/
inductive Choice : Nat → List Word → List Node → Nat → Prop where
  | one {n n' : Nat} {ws : List Word} {xs : List Node} (h : Row n ws xs n') :
      Choice n ws [.ofItems xs] n'
  | more {n n₁ n' : Nat} {ws vs : List Word} {xs ys : List Node} (h : Row n ws xs n₁)
      (hs : Choice n₁ vs ys n') : Choice n (ws ++ .token .bar :: vs) (.ofItems xs :: ys) n'

end

end Grammar

/-- The words stand for the tree, where `n` is the first free number. -/
def Derives (n : Nat) (ws : List Word) (x : Node) : Prop :=
  ∃ xs n', Grammar.Choice n ws xs n' ∧ x = .ofBranches xs

namespace Grammar

/-! ## 2. One row of words, one tree -/

theorem Atom.begins {n n' : Nat} {ws : List Word} {x : Node} :
    Atom n ws x n' → ∃ w vs, ws = w :: vs ∧ w.beginsAtom = true
  | .literal _ _ => ⟨_, _, rfl, rfl⟩
  | .anchor _ _ => ⟨_, _, rfl, rfl⟩
  | .backreference _ _ => ⟨_, _, rfl, rfl⟩
  | .characterClass _ _ => ⟨_, _, rfl, rfl⟩
  | .group _ _ => ⟨_, _, rfl, rfl⟩

theorem Piece.begins {n n' : Nat} {ws : List Word} {x : Node} :
    Piece n ws x n' → ∃ w vs, ws = w :: vs ∧ w.beginsAtom = true
  | .once h => h.begins
  | .repeated _ h _ => by
      obtain ⟨w, vs, rfl, hw⟩ := h.begins
      exact ⟨w, _, rfl, hw⟩

/-- No quantifier stands at the front. -/
def Unquantified (vs : List Word) : Prop := ∀ q more, vs ≠ .token (.quantifier q) :: more

/-- A row ends in front of the words. -/
def EndsRow (vs : List Word) : Prop :=
  vs = [] ∨ ∃ more, vs = .token .bar :: more ∨ vs = .token .groupClose :: more

/-- A choice ends in front of the words. -/
def EndsChoice (vs : List Word) : Prop := vs = [] ∨ ∃ more, vs = .token .groupClose :: more

theorem EndsChoice.endsRow {vs : List Word} : EndsChoice vs → EndsRow vs
  | .inl h => .inl h
  | .inr ⟨more, h⟩ => .inr ⟨more, .inr h⟩

theorem EndsRow.unquantified {vs : List Word} (h : EndsRow vs) : Unquantified vs := by
  rintro q more rfl
  rcases h with h | ⟨_, h | h⟩ <;> simp at h

/-- No piece begins where a row ends. -/
theorem EndsRow.not_piece {n n' : Nat} {ws more : List Word} {x : Node}
    (h : EndsRow (ws ++ more)) (hp : Piece n ws x n') : False := by
  obtain ⟨w, _, rfl, hw⟩ := hp.begins
  rcases h with h | ⟨_, h | h⟩
  · simp at h
  · simp only [List.cons_append, List.cons.injEq] at h
    simp [h.1, Word.beginsAtom] at hw
  · simp only [List.cons_append, List.cons.injEq] at h
    simp [h.1, Word.beginsAtom] at hw

theorem Row.unquantified {n n' : Nat} {ws vs : List Word} {xs : List Node}
    (h : Row n ws xs n') (hv : EndsRow vs) : Unquantified (ws ++ vs) := by
  cases h with
  | nil => exact hv.unquantified
  | cons hp _ =>
    obtain ⟨w, _, rfl, hw⟩ := hp.begins
    intro q more e
    simp only [List.cons_append, List.cons.injEq] at e
    simp [e.1, Word.beginsAtom] at hw

mutual

theorem Atom.unique {n n₁ n₂ : Nat} {ws vs us us' : List Word} {x y : Node} :
    Atom n ws x n₁ → Atom n vs y n₂ → ws ++ us = vs ++ us' → ws = vs ∧ x = y ∧ n₁ = n₂
  | .literal _ _, h, e => by cases h <;> simp_all
  | .anchor _ _, h, e => by cases h <;> simp_all
  | .backreference _ _, h, e => by cases h <;> simp_all
  | .characterClass _ _, h, e => by cases h <;> simp_all
  | .group head body, h, e => by
      cases h with
      | group head' body' =>
        simp only [List.cons_append, List.append_assoc, List.cons.injEq, Word.token.injEq,
          Token.groupOpen.injEq] at e
        obtain ⟨rfl, e⟩ := e
        obtain ⟨rfl, rfl, rfl⟩ := body.unique body' e (.inr ⟨_, rfl⟩) (.inr ⟨_, rfl⟩)
        exact ⟨rfl, rfl, rfl⟩
      | _ => simp at e
termination_by structural h => h

theorem Piece.unique {n n₁ n₂ : Nat} {ws vs us us' : List Word} {x y : Node} :
    Piece n ws x n₁ → Piece n vs y n₂ → ws ++ us = vs ++ us' → Unquantified us →
      Unquantified us' → ws = vs ∧ x = y ∧ n₁ = n₂
  | .once h, h', e, hu, hu' => by
      cases h' with
      | once h' => exact h.unique h' e
      | repeated q h' hy =>
        -- the quantifier of the one piece would stand behind the other
        rw [List.append_assoc] at e
        obtain ⟨rfl, rfl, rfl⟩ := h.unique h' e
        exact absurd (List.append_cancel_left e) (hu _ _)
  | .repeated q h hx, h', e, hu, hu' => by
      rw [List.append_assoc] at e
      cases h' with
      | once h' =>
        obtain ⟨rfl, rfl, rfl⟩ := h.unique h' e
        exact absurd (List.append_cancel_left e).symm (hu' _ _)
      | repeated q' h' hy =>
        rw [List.append_assoc] at e
        obtain ⟨rfl, rfl, rfl⟩ := h.unique h' e
        have e := List.append_cancel_left e
        simp only [List.cons_append, List.nil_append, List.cons.injEq, Word.token.injEq,
          Token.quantifier.injEq] at e
        obtain ⟨rfl, -⟩ := e
        exact ⟨rfl, rfl, rfl⟩
termination_by structural h => h

theorem Row.unique {n n₁ n₂ : Nat} {ws vs us us' : List Word} {xs ys : List Node} :
    Row n ws xs n₁ → Row n vs ys n₂ → ws ++ us = vs ++ us' → EndsRow us → EndsRow us' →
      ws = vs ∧ xs = ys ∧ n₁ = n₂
  | .nil _, h', e, hu, hu' => by
      cases h' with
      | nil => exact ⟨rfl, rfl, rfl⟩
      | cons hp _ =>
        rw [List.nil_append, List.append_assoc] at e
        exact (EndsRow.not_piece (e ▸ hu) hp).elim
  | .cons h hs, h', e, hu, hu' => by
      rw [List.append_assoc] at e
      cases h' with
      | nil =>
        rw [List.nil_append] at e
        exact (EndsRow.not_piece (e ▸ hu') h).elim
      | cons h' hs' =>
        rw [List.append_assoc] at e
        obtain ⟨rfl, rfl, rfl⟩ := h.unique h' e (hs.unquantified hu) (hs'.unquantified hu')
        obtain ⟨rfl, rfl, rfl⟩ := hs.unique hs' (List.append_cancel_left e) hu hu'
        exact ⟨rfl, rfl, rfl⟩
termination_by structural h => h

theorem Choice.unique {n n₁ n₂ : Nat} {ws vs us us' : List Word} {xs ys : List Node} :
    Choice n ws xs n₁ → Choice n vs ys n₂ → ws ++ us = vs ++ us' → EndsChoice us →
      EndsChoice us' → ws = vs ∧ xs = ys ∧ n₁ = n₂
  | .one h, h', e, hu, hu' => by
      cases h' with
      | one h' =>
        obtain ⟨rfl, rfl, rfl⟩ := h.unique h' e hu.endsRow hu'.endsRow
        exact ⟨rfl, rfl, rfl⟩
      | more h' hs' =>
        rw [List.append_assoc] at e
        obtain ⟨rfl, rfl, rfl⟩ := h.unique h' e hu.endsRow (.inr ⟨_, .inl rfl⟩)
        rcases hu with rfl | ⟨_, rfl⟩ <;> simp at e
  | .more h hs, h', e, hu, hu' => by
      rw [List.append_assoc] at e
      cases h' with
      | one h' =>
        obtain ⟨rfl, rfl, rfl⟩ := h.unique h' e (.inr ⟨_, .inl rfl⟩) hu'.endsRow
        rcases hu' with rfl | ⟨_, rfl⟩ <;> simp at e
      | more h' hs' =>
        rw [List.append_assoc] at e
        obtain ⟨rfl, rfl, rfl⟩ := h.unique h' e (.inr ⟨_, .inl rfl⟩) (.inr ⟨_, .inl rfl⟩)
        have e := List.append_cancel_left e
        simp only [List.cons_append, List.cons.injEq, true_and] at e
        obtain ⟨rfl, rfl, rfl⟩ := hs.unique hs' e hu hu'
        exact ⟨rfl, rfl, rfl⟩
termination_by structural h => h

end

end Grammar

/-- **No row of words stands for two trees.** -/
theorem Derives.unique {n : Nat} {ws : List Word} {x y : Node} (h : Derives n ws x)
    (h' : Derives n ws y) : x = y := by
  obtain ⟨xs, _, hxs, rfl⟩ := h
  obtain ⟨ys, _, hys, rfl⟩ := h'
  have hwords : ws ++ [] = ws ++ [] := rfl
  obtain ⟨-, rfl, -⟩ := hxs.unique hys hwords (.inl rfl) (.inl rfl)
  rfl

/-! ## 3. Growing at the end -/

theorem Node.isRepeatable_of_isUnit {x : Node} (h : x.isUnit = true) : x.isRepeatable = true := by
  unfold isUnit at h
  split at h <;> simp_all [isRepeatable]

namespace Grammar

/-- An atom is one unit unless it is a place. -/
theorem Atom.isUnit {n n' : Nat} {ws : List Word} {x : Node} (h : Atom n ws x n')
    (hx : x.isPlace = false) : x.isUnit = true := by
  cases h with
  | anchor => simp [Node.isPlace] at hx
  | group head =>
    cases head with
    | look direction polarity =>
      cases direction with
      | ahead => rfl
      | behind => simp [GroupHead.node, Node.isPlace] at hx
    | _ => rfl
  | _ => rfl

theorem Row.append {n n₁ n' : Nat} {ws vs : List Word} {xs ys : List Node} :
    Row n ws xs n₁ → Row n₁ vs ys n' → Row n (ws ++ vs) (xs ++ ys) n'
  | .nil _, h' => h'
  | .cons h hs, h' => by
      rw [List.append_assoc]
      exact .cons h (hs.append h')

theorem Row.single {n n' : Nat} {ws : List Word} {x : Node} (h : Piece n ws x n') :
    Row n ws [x] n' := by
  simpa using Row.cons h (.nil n')

/-- A piece may be followed by a quantifier if it is one atom and no place. -/
theorem Piece.quantify {n n' : Nat} {ws : List Word} {x : Node} (q : Quantifier)
    (h : Piece n ws x n') (hx : x.isRepeatable = true) :
    Piece n (ws ++ [.token (.quantifier q)]) (.repetition q x) n' := by
  cases h with
  | once h =>
    refine .repeated q h ?_
    unfold Node.isRepeatable at hx
    split at hx <;> simp_all [Node.isPlace]
  | repeated q' h hx' => simp [Node.isRepeatable] at hx

/-- **A quantifier behind a row belongs to its last piece.** -/
theorem Row.quantify {n n' : Nat} {ws : List Word} {xs : List Node} {x : Node} (q : Quantifier)
    (h : Row n ws (xs ++ [x]) n') (hx : x.isRepeatable = true) :
    Row n (ws ++ [.token (.quantifier q)]) (xs ++ [.repetition q x]) n' := by
  induction xs generalizing n ws with
  | nil =>
    cases h with
    | cons hp hs =>
      cases hs
      rw [List.append_nil]
      exact .single (hp.quantify q hx)
  | cons y ys ih =>
    cases h with
    | cons hp hs =>
      rw [List.append_assoc]
      exact .cons hp (ih hs)

/-- Rows, each with a bar behind it: the part of a choice that is finished while its last row is
    still growing. -/
inductive Front : Nat → List Word → List Node → Nat → Prop where
  | nil (n : Nat) : Front n [] [] n
  | cons {n n₁ n' : Nat} {ws vs : List Word} {xs ys : List Node} (h : Row n ws xs n₁)
      (hs : Front n₁ vs ys n') : Front n (ws ++ .token .bar :: vs) (.ofItems xs :: ys) n'

theorem Front.choice {n n₁ n' : Nat} {ws vs : List Word} {xs ys : List Node}
    (h : Front n ws ys n₁) (hr : Row n₁ vs xs n') :
    Choice n (ws ++ vs) (ys ++ [.ofItems xs]) n' := by
  induction h with
  | nil => exact .one hr
  | cons h _ ih =>
    rw [List.append_assoc, List.cons_append, List.cons_append]
    exact .more h (ih hr)

theorem Front.snoc {n n₁ n' : Nat} {ws vs : List Word} {xs ys : List Node}
    (h : Front n ws ys n₁) (hr : Row n₁ vs xs n') :
    Front n (ws ++ (vs ++ [.token .bar])) (ys ++ [.ofItems xs]) n' := by
  induction h with
  | nil => simpa using Front.cons hr (.nil n')
  | cons h _ ih =>
    rw [List.append_assoc, List.cons_append, List.cons_append]
    exact .cons h (ih hr)

end Grammar

end PatternDiagram
