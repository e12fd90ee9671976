import PatternDiagram.Proofs.Grammar

/-!
# What the machine has gathered

While a pattern is read, its words lie in the machine: as trees in the alternations, and as the
heads of the groups that are open. This file says which words those are:

* `Alternation.Gathers`: the words that an alternation holds;
* `Stacked`, `Machine.Gathered`: the words that a whole stack of open groups holds;
* `Machine.Gathered.step`: a word that leads on is gathered behind the others;
* `Machine.derives_of_run`: **what a run returns is a tree that the words stand for**.
-/

namespace PatternDiagram

open Grammar

/-! ## 1. One alternation -/

/-- The alternation holds the words: its finished branches with their bars, and then the row that
    has been begun. -/
def Alternation.Gathers (a : Alternation) (n : Nat) (ws : List Word) (n' : Nat) : Prop :=
  ∃ front row n₁, ws = front ++ row ∧ Front n front a.branches.reverse n₁ ∧
    Row n₁ row a.items.reverse n'

namespace Alternation.Gathers

variable {a : Alternation} {n n₁ n' : Nat} {ws vs : List Word}

theorem new (n mark : Nat) : Gathers { mark } n [] n := ⟨[], [], n, rfl, .nil n, .nil n⟩

theorem push {x : Node} (h : a.Gathers n ws n₁) (hx : Atom n₁ vs x n') :
    (a.push x).Gathers n (ws ++ vs) n' := by
  obtain ⟨front, row, k, rfl, hfront, hrow⟩ := h
  refine ⟨front, row ++ vs, k, List.append_assoc .., hfront, ?_⟩
  simp only [Alternation.push, List.reverse_cons]
  exact hrow.append (.single (.once hx))

theorem quantify {x : Node} {items : List Node} (q : Quantifier) (h : a.Gathers n ws n')
    (hitems : a.items = x :: items) (hx : x.isRepeatable = true) :
    Gathers { a with items := .repetition q x :: items } n (ws ++ [.token (.quantifier q)]) n' := by
  obtain ⟨front, row, k, rfl, hfront, hrow⟩ := h
  rw [hitems, List.reverse_cons] at hrow
  refine ⟨front, row ++ [.token (.quantifier q)], k, List.append_assoc .., hfront, ?_⟩
  simp only [List.reverse_cons]
  exact hrow.quantify q hx

theorem bar (naming : Naming) (h : a.Gathers n ws n') :
    (a.bar naming).1.Gathers n (ws ++ [.token .bar]) n' := by
  obtain ⟨front, row, k, rfl, hfront, hrow⟩ := h
  refine ⟨front ++ (row ++ [.token .bar]), [], n', by simp, ?_, .nil n'⟩
  simp only [Alternation.bar, List.reverse_cons]
  exact hfront.snoc hrow

/-- **Closed, the alternation is a choice.** -/
theorem choice (h : a.Gathers n ws n') : Choice n ws (a.branch :: a.branches).reverse n' := by
  obtain ⟨front, row, k, rfl, hfront, hrow⟩ := h
  rw [List.reverse_cons]
  exact hfront.choice hrow

end Alternation.Gathers

/-! ## 2. Alternations within groups -/

/-- The open groups with their surroundings and the alternation in the innermost of them hold the
    words. -/
inductive Stacked (n : Nat) : List Word → List OpenGroup → Alternation → Nat → Prop where
  | outermost {ws : List Word} {a : Alternation} {n' : Nat} (h : a.Gathers n ws n') :
      Stacked n ws [] a n'
  | within {ws vs : List Word} {g : OpenGroup} {stack : List OpenGroup} {a : Alternation}
      {n₁ n' : Nat} (hs : Stacked n ws stack g.outer n₁) (hindex : g.index = g.head.number? n₁)
      (h : a.Gathers (g.head.after n₁) vs n') :
      Stacked n (ws ++ .token (.groupOpen g.head) :: vs) (g :: stack) a n'

/-- Words that go to the innermost alternation go behind all others. -/
theorem Stacked.grow {n n₁ n' : Nat} {ws vs : List Word} {stack : List OpenGroup}
    {a a' : Alternation} (h : Stacked n ws stack a n₁)
    (ha : ∀ k us, a.Gathers k us n₁ → a'.Gathers k (us ++ vs) n') :
    Stacked n (ws ++ vs) stack a' n' := by
  cases h with
  | outermost h => exact .outermost (ha _ _ h)
  | within hs hindex h =>
    rw [List.append_assoc, List.cons_append]
    exact .within hs hindex (ha _ _ h)

/-- The machine holds the words, read while `n` was the first free number. -/
def Machine.Gathered (m : Machine) (n : Nat) (ws : List Word) : Prop :=
  Stacked n ws m.stack m.current m.naming.next

/-! ## 3. Numbers -/

@[simp] theorem Naming.next_forget (naming : Naming) (mark : Nat) :
    (naming.forget mark).next = naming.next := rfl

@[simp] theorem Naming.next_bring (naming : Naming) (names : List String) :
    (naming.bring names).next = naming.next := rfl

theorem Naming.allot_ok {naming naming' : Naming} {name : Option String} {index : Nat}
    (h : naming.allot name = .ok (index, naming')) :
    index = naming.next ∧ naming'.next = naming.next + 1 := by
  unfold allot at h
  split at h
  · simp only [Except.ok.injEq, Prod.mk.injEq] at h
    exact ⟨h.1.symm, by rw [← h.2]⟩
  · split at h
    · simp at h
    · simp only [Except.ok.injEq, Prod.mk.injEq] at h
      exact ⟨h.1.symm, by rw [← h.2]⟩

/-! ## 4. Steps and runs -/

/-- No word opens a class: the class is a word as a whole. -/
theorem Word.next?_ne_classOpen {cs rest : List Char} {w : Word}
    (h : Word.next? cs = some (w, rest)) (negated : Bool) : w ≠ .token (.classOpen negated) := by
  intro e
  subst e
  exact (Word.next?_token_iff.mp h).2 negated rfl

namespace Machine

theorem Gathered.push {m : Machine} {n : Nat} {ws vs : List Word} {x : Node} {rest : List Char}
    (h : m.Gathered n ws) (hx : Atom m.naming.next vs x m.naming.next) :
    (m.push x rest).Gathered n (ws ++ vs) := Stacked.grow h fun _ _ ha => ha.push hx

theorem Gathered.openGroup {m m' : Machine} {n : Nat} {ws : List Word} {head : GroupHead}
    {rest : List Char} (h : m.Gathered n ws) (hstep : m.openGroup head rest = .next m') :
    m'.Gathered n (ws ++ [.token (.groupOpen head)]) := by
  have hopen {naming : Naming} (hnext : naming.next = head.after m.naming.next) :
      Gathered ⟨naming, { mark := naming.scope.length },
        ⟨head, head.number? m.naming.next, m.rest, m.current⟩ :: m.stack, rest⟩ n
        (ws ++ [.token (.groupOpen head)]) :=
    Stacked.within (g := ⟨head, head.number? m.naming.next, m.rest, m.current⟩) h rfl
      (hnext ▸ .new _ _)
  unfold Machine.openGroup at hstep
  cases head with
  | capture name =>
    simp only at hstep
    split at hstep
    · rename_i index naming hallot
      obtain ⟨rfl, hnext⟩ := Naming.allot_ok hallot
      simp only [Step.next.injEq] at hstep
      rw [← hstep]
      exact hopen hnext
    · simp at hstep
  | plain =>
    simp only [Step.next.injEq] at hstep
    rw [← hstep]
    exact hopen rfl
  | look direction polarity =>
    simp only [Step.next.injEq] at hstep
    rw [← hstep]
    exact hopen rfl

theorem Gathered.closeGroup {m m' : Machine} {n : Nat} {ws : List Word} {rest : List Char}
    (h : m.Gathered n ws) (hstep : m.closeGroup rest = .next m') :
    m'.Gathered n (ws ++ [.token .groupClose]) := by
  unfold Machine.closeGroup at hstep
  unfold Gathered at h
  cases hstack : m.stack with
  | nil => simp [hstack] at hstep
  | cons g stack =>
    rw [hstack] at h
    simp only [hstack, Step.next.injEq] at hstep
    cases h with
    | within hs hindex h =>
      rw [← hstep, hindex, List.append_assoc]
      exact hs.grow fun _ _ ha => ha.push (.group g.head h.choice)

theorem Gathered.quantify {m m' : Machine} {n : Nat} {ws : List Word} {q : Quantifier}
    {rest : List Char} (h : m.Gathered n ws) (hstep : m.quantify q rest = .next m') :
    m'.Gathered n (ws ++ [.token (.quantifier q)]) := by
  unfold Machine.quantify at hstep
  split at hstep
  · simp at hstep
  · rename_i x items hitems
    split at hstep
    · rename_i hx
      simp only [Step.next.injEq] at hstep
      rw [← hstep]
      exact Stacked.grow h fun _ _ ha => ha.quantify q hitems hx
    · simp at hstep

/-- **A word that leads on is gathered behind the others.** -/
theorem Gathered.step {m m' : Machine} {n : Nat} {ws : List Word} {w : Word} {rest : List Char}
    (h : m.Gathered n ws) (hw : ∀ negated, w ≠ .token (.classOpen negated))
    (hstep : m.takeWord w rest = .next m') : m'.Gathered n (ws ++ [w]) := by
  cases w with
  | characterClass c =>
    simp only [takeWord, Step.next.injEq] at hstep
    exact hstep ▸ h.push (.characterClass _ c)
  | token t =>
    simp only [takeWord] at hstep
    cases t with
    | literal l =>
      simp only [take, item, Step.next.injEq] at hstep
      exact hstep ▸ h.push (.literal _ l)
    | anchor a =>
      simp only [take, item, Step.next.injEq] at hstep
      exact hstep ▸ h.push (.anchor _ a)
    | backreference t =>
      simp only [take, item, Step.next.injEq] at hstep
      exact hstep ▸ h.push (.backreference _ t)
    | classOpen negated => exact absurd rfl (hw negated)
    | groupOpen head => exact h.openGroup hstep
    | groupClose => exact h.closeGroup hstep
    | quantifier q => exact h.quantify hstep
    | bar =>
      simp only [take, bar, Step.next.injEq] at hstep
      rw [← hstep]
      exact Stacked.grow h fun _ _ ha => ha.bar m.naming

theorem Gathered.start (naming : Naming) (pattern : List Char) :
    (start naming pattern).Gathered naming.next [] := .outermost (.new _ _)

/-- **At the end of a pattern the tree is one that the words stand for.** -/
theorem Gathered.derives_of_done {m : Machine} {n : Nat} {ws : List Word} {root : Node}
    {naming : Naming} (h : m.Gathered n ws) (hstep : m.step = .done root naming) :
    m.rest = [] ∧ Derives n ws root := by
  obtain ⟨hrest, hstack, hclose⟩ := atEnd_of_step hstep
  unfold Gathered at h
  rw [hstack] at h
  cases h with
  | outermost h => exact ⟨hrest, _, _, h.choice, (congrArg Prod.fst hclose).symm⟩

/-- **What a run returns is a tree that the words stand for**, those gathered before and those that
    were still to be read. -/
theorem derives_of_run {m : Machine} {n : Nat} {ws : List Word} {root : Node}
    (hg : m.Gathered n ws) (h : m.run.result = .ok root) :
    ∃ vs, Reads m.rest vs [] ∧ Derives n (ws ++ vs) root := by
  fun_induction run m generalizing ws with
  | case1 m m' hstep ih =>
    -- the step takes one word from the front and gathers it behind the others
    obtain ⟨w, hnext, htake⟩ := word_of_step hstep
    obtain ⟨vs, hvs, hroot⟩ := ih (hg.step (Word.next?_ne_classOpen hnext) htake) h
    exact ⟨w :: vs, .more hnext hvs, by simpa using hroot⟩
  | case2 m x naming hstep =>
    obtain rfl : x = root := by simpa using h
    obtain ⟨hrest, hroot⟩ := hg.derives_of_done hstep
    exact ⟨[], hrest ▸ .done _, by simpa using hroot⟩
  | case3 m f naming hstep => simp at h

end Machine

end PatternDiagram
