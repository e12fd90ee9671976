import PatternDiagram.Proofs.Gathering

/-!
# Reading without regard to names

A pattern can be refused only because it gives a name twice. This file says what it is read as when
nobody minds:

* `Machine.nameless`: a machine that has forgotten all it knows of names;
* `Machine.runUnchecked`: a run that forgets them before each step;
* `Machine.run_eq_runUnchecked`: **a run that minds them comes to the same, unless it is refused
  because of a name**;
* `Machine.derives_of_runUnchecked`: what the run returns is a tree that the words stand for.
-/

namespace PatternDiagram

open Grammar

/-! ## 1. Forgetting names -/

/-- The next number is all that is left. -/
def Naming.nameless (n : Naming) : Naming := { next := n.next }

/-- The alternation without what it knows of names. -/
def Alternation.nameless (a : Alternation) : Alternation := { a with mark := 0, declared := [] }

/-- The group, in an alternation without names. Its own name it keeps. -/
def OpenGroup.nameless (g : OpenGroup) : OpenGroup := { g with outer := g.outer.nameless }

/-- **The machine with all forgotten that it knows of names.** Trees and heads of groups stay as
    they are. -/
def Machine.nameless (m : Machine) : Machine where
  naming := m.naming.nameless
  current := m.current.nameless
  stack := m.stack.map OpenGroup.nameless
  rest := m.rest

/-- The same for what a step leads to. -/
def Step.nameless : Step → Step
  | .next m => .next m.nameless
  | .done root naming => .done root naming.nameless
  | .failed f naming => .failed f naming.nameless

namespace Step

variable {s : Step} {m : Machine} {root : Node} {f : Failure} {naming : Naming}

theorem eq_next_of_nameless (h : s.nameless = (next m).nameless) :
    ∃ m', s = .next m' ∧ m'.nameless = m.nameless := by
  cases s with
  | next m' => exact ⟨m', rfl, next.inj h⟩
  | done root naming => simp [nameless] at h
  | failed f naming => simp [nameless] at h

theorem eq_done_of_nameless (h : s.nameless = (done root naming).nameless) :
    ∃ naming', s = .done root naming' := by
  cases s with
  | next m => simp [nameless] at h
  | done root' naming' =>
    obtain ⟨rfl, -⟩ := done.inj h
    exact ⟨naming', rfl⟩
  | failed f naming => simp [nameless] at h

theorem eq_failed_of_nameless (h : s.nameless = (failed f naming).nameless) :
    ∃ naming', s = .failed f naming' := by
  cases s with
  | next m => simp [nameless] at h
  | done root naming => simp [nameless] at h
  | failed f' naming' =>
    obtain ⟨rfl, -⟩ := failed.inj h
    exact ⟨naming', rfl⟩

end Step

/-- The step is refused because of a name. -/
def Step.IsRefusal (s : Step) : Prop :=
  ∃ f naming name, s = .failed f naming ∧ f.fault = .duplicateGroupName name

@[simp] theorem OpenGroup.map_nameless (stack : List OpenGroup) :
    (stack.map nameless).map nameless = stack.map nameless := by
  rw [List.map_map]
  rfl

theorem Stacked.nameless {n n' : Nat} {ws : List Word} {stack : List OpenGroup} {a : Alternation}
    (h : Stacked n ws stack a n') :
    Stacked n ws (stack.map OpenGroup.nameless) a.nameless n' := by
  induction h with
  | outermost h => exact .outermost h
  | within _ hindex h ih => exact .within (g := OpenGroup.nameless _) ih hindex h

namespace Machine

@[simp] theorem naming_nameless (m : Machine) : m.nameless.naming = m.naming.nameless := rfl

@[simp] theorem stack_nameless (m : Machine) :
    m.nameless.stack = m.stack.map OpenGroup.nameless := rfl

@[simp] theorem rest_nameless (m : Machine) : m.nameless.rest = m.rest := rfl

/-- Names do not count among the words that a machine holds. -/
theorem Gathered.nameless {m : Machine} {n : Nat} {ws : List Word} (h : m.Gathered n ws) :
    m.nameless.Gathered n ws := Stacked.nameless h

/-! ## 2. One step -/

theorem nameless_push (m : Machine) (x : Node) (rest : List Char) :
    (m.nameless.push x rest).nameless = (m.push x rest).nameless := by
  simp only [nameless, push, OpenGroup.map_nameless]
  rfl

theorem nameless_bar (m : Machine) (rest : List Char) :
    (m.nameless.bar rest).nameless = (m.bar rest).nameless := by
  simp only [bar, Step.nameless, nameless, OpenGroup.map_nameless]
  rfl

theorem nameless_closeGroup (m : Machine) (rest : List Char) :
    (m.nameless.closeGroup rest).nameless = (m.closeGroup rest).nameless := by
  cases hstack : m.stack with
  | nil =>
    simp only [closeGroup, stack_nameless, hstack]
    rfl
  | cons g stack =>
    simp only [closeGroup, hstack, List.map_cons, Step.nameless, nameless,
      OpenGroup.map_nameless]
    rfl

theorem nameless_atEnd (m : Machine) : m.nameless.atEnd.nameless = m.atEnd.nameless := by
  cases hstack : m.stack with
  | nil =>
    simp only [atEnd, stack_nameless, hstack]
    rfl
  | cons g stack =>
    simp only [atEnd, stack_nameless, hstack]
    rfl

theorem nameless_characterClass (m : Machine) (negated : Bool) (rest : List Char) :
    (m.nameless.characterClass negated rest).nameless =
      (m.characterClass negated rest).nameless := by
  cases hread : ClassBody.read m.rest rest with
  | error f =>
    simp only [characterClass, rest_nameless, hread]
    rfl
  | ok found =>
    simp only [characterClass, rest_nameless, hread, Step.nameless, nameless_push]

theorem nameless_quantify (m : Machine) (q : Quantifier) (rest : List Char) :
    (m.nameless.quantify q rest).nameless = (m.quantify q rest).nameless := by
  have hitems : m.nameless.current.items = m.current.items := rfl
  unfold quantify
  rw [hitems]
  cases m.current.items with
  | nil => rfl
  | cons x items =>
    by_cases hx : x.isRepeatable = true
    · simp only [hx, if_true, Step.nameless, nameless, OpenGroup.map_nameless]
      rfl
    · simp only [hx]
      rfl

/-- A group begins in the same way, unless its name is refused. -/
theorem nameless_openGroup (m : Machine) (head : GroupHead) (rest : List Char) :
    (m.openGroup head rest).IsRefusal ∨
      (m.nameless.openGroup head rest).nameless = (m.openGroup head rest).nameless := by
  have henter (naming naming' : Naming) (index : Option Nat) (hnext : naming'.next = naming.next) :
      nameless ⟨naming', { mark := naming'.scope.length },
        ⟨head, index, m.rest, m.current.nameless⟩ :: m.stack.map OpenGroup.nameless, rest⟩ =
      nameless ⟨naming, { mark := naming.scope.length },
        ⟨head, index, m.rest, m.current⟩ :: m.stack, rest⟩ := by
    simp only [nameless, List.map_cons, OpenGroup.map_nameless, Naming.nameless, hnext]
    rfl
  cases head with
  | plain => exact .inr (congrArg Step.next (henter m.naming m.naming.nameless none rfl))
  | look direction polarity =>
    exact .inr (congrArg Step.next (henter m.naming m.naming.nameless none rfl))
  | capture name =>
    cases hallot : m.naming.allot name with
    | error naming =>
      simp only [openGroup, hallot]
      cases name with
      | none => simp [Naming.allot] at hallot
      | some s => exact .inl ⟨_, _, s, rfl, rfl⟩
    | ok found =>
      obtain ⟨index, naming⟩ := found
      obtain ⟨rfl, hnext⟩ := Naming.allot_ok hallot
      obtain ⟨naming', hallot', hnext'⟩ :
          ∃ naming', m.naming.nameless.allot name = .ok (m.naming.next, naming') ∧
            naming'.next = naming.next := by
        rw [hnext]
        cases name with
        | none => exact ⟨_, rfl, rfl⟩
        | some s => exact ⟨_, rfl, rfl⟩
      simp only [openGroup, hallot, naming_nameless, hallot']
      exact .inr (congrArg Step.next (henter naming naming' (some m.naming.next) hnext'))

/-- **A token leads to the same, unless it is refused because of a name.** -/
theorem nameless_take (m : Machine) (t : Token) (rest : List Char) :
    (m.take t rest).IsRefusal ∨ (m.nameless.take t rest).nameless = (m.take t rest).nameless := by
  cases t with
  | literal l => exact .inr (congrArg Step.next (m.nameless_push (.literal l) rest))
  | anchor a => exact .inr (congrArg Step.next (m.nameless_push (.anchor a) rest))
  | backreference target =>
    exact .inr (congrArg Step.next (m.nameless_push (.backreference target) rest))
  | bar => exact .inr (m.nameless_bar rest)
  | classOpen negated => exact .inr (m.nameless_characterClass negated rest)
  | groupOpen head => exact m.nameless_openGroup head rest
  | groupClose => exact .inr (m.nameless_closeGroup rest)
  | quantifier q => exact .inr (m.nameless_quantify q rest)

/-- **A step leads to the same, unless it is refused because of a name.** -/
theorem nameless_step (m : Machine) :
    m.step.IsRefusal ∨ m.nameless.step.nameless = m.step.nameless := by
  unfold step
  rw [rest_nameless]
  cases hnext : Token.next m.rest with
  | error f => exact .inr rfl
  | ok found =>
    cases found with
    | none => exact .inr m.nameless_atEnd
    | some found => exact m.nameless_take found.1 found.2

/-! ## 3. All steps -/

/-- **Reads to the end of the pattern or to a fault other than that of a name.** -/
def runUnchecked (m : Machine) : Except Failure Node :=
  match _ : m.nameless.step with
  | .next m' => m'.runUnchecked
  | .done root _ => .ok root
  | .failed f _ => .error f
termination_by m.rest.length
decreasing_by
  rw [← m.rest_nameless]
  exact step_length ‹m.nameless.step = .next m'›

theorem runUnchecked_eq (m : Machine) :
    m.runUnchecked = match m.nameless.step with
      | .next m' => m'.runUnchecked
      | .done root _ => .ok root
      | .failed f _ => .error f := by
  rw [runUnchecked]
  split <;> simp_all

/-- What is known of names makes no difference. -/
theorem runUnchecked_congr {m m' : Machine} (h : m.nameless = m'.nameless) :
    m.runUnchecked = m'.runUnchecked := by
  rw [runUnchecked_eq, runUnchecked_eq, h]

/-- **A run that minds names comes to the same, unless it is refused because of a name.** -/
theorem run_eq_runUnchecked (m : Machine) :
    (∃ f name, m.run.result = .error f ∧ f.fault = .duplicateGroupName name) ∨
      m.runUnchecked = m.run.result := by
  fun_induction run m with
  | case1 m m' hstep ih =>
    have hsame := m.nameless_step.resolve_left (by simp [hstep, Step.IsRefusal])
    obtain ⟨m₁, hstep₁, hm₁⟩ := Step.eq_next_of_nameless (hstep ▸ hsame)
    have hrun : m.runUnchecked = m'.runUnchecked := by
      rw [runUnchecked_eq, hstep₁]
      exact runUnchecked_congr hm₁
    rwa [hrun]
  | case2 m root naming hstep =>
    have hsame := m.nameless_step.resolve_left (by simp [hstep, Step.IsRefusal])
    obtain ⟨naming₁, hstep₁⟩ := Step.eq_done_of_nameless (hstep ▸ hsame)
    exact .inr (by rw [runUnchecked_eq, hstep₁])
  | case3 m f naming hstep =>
    rcases m.nameless_step with ⟨f', naming', name, hfailed, hfault⟩ | hsame
    · obtain ⟨rfl, -⟩ := Step.failed.inj (hstep.symm.trans hfailed)
      exact .inl ⟨f, name, rfl, hfault⟩
    · obtain ⟨naming₁, hstep₁⟩ := Step.eq_failed_of_nameless (hstep ▸ hsame)
      exact .inr (by rw [runUnchecked_eq, hstep₁])

/-- **What an unchecked run returns is a tree that the words stand for**, those gathered before and
    those that were still to be read. -/
theorem derives_of_runUnchecked {m : Machine} {n : Nat} {ws : List Word} {root : Node}
    (hg : m.Gathered n ws) (h : m.runUnchecked = .ok root) :
    ∃ vs, Reads m.rest vs [] ∧ Derives n (ws ++ vs) root := by
  fun_induction runUnchecked m generalizing ws with
  | case1 m m' hstep ih =>
    obtain ⟨w, hnext, htake⟩ := word_of_step hstep
    have hgathered : m'.Gathered n (ws ++ [w]) :=
      hg.nameless.step (Word.next?_ne_classOpen hnext) htake
    obtain ⟨vs, hvs, hroot⟩ := ih hgathered h
    exact ⟨w :: vs, .more hnext hvs, by simpa using hroot⟩
  | case2 m x naming hstep =>
    obtain rfl : x = root := by simpa using h
    obtain ⟨hrest, hroot⟩ := hg.nameless.derives_of_done hstep
    rw [rest_nameless] at hrest
    exact ⟨[], hrest ▸ .done _, by simpa using hroot⟩
  | case3 m f naming hstep => simp at h

/-- The same for a pattern as a whole. -/
theorem derives_of_start_runUnchecked {pattern : List Char} {root : Node}
    (h : (start {} pattern).runUnchecked = .ok root) :
    ∃ ws, Reads pattern ws [] ∧ Derives 1 ws root :=
  derives_of_runUnchecked (.start {} pattern) h

end Machine

end PatternDiagram
