import PatternDiagram.Proofs.Acceptance
import PatternDiagram.Reading.Source

/-!
# The numbers of groups

* `Numbered`: captures that have the numbers from one on, in order; `Grammar.Atom.numbered` and the
  others: so have those of everything that the grammar derives;
* `Reader.parse_numbered`: what a reader does to its numbers and names when it accepts;
* `Machine.issued`, `Machine.issued_eq`: the numbers that any run gives out, a failed one too;
* `Reader.Call`, `Reader.after`, `Reader.issued`: a history of calls and the numbers that it gives
  out;
* `parse_numbers`: **groups are numbered in order, and no number is given twice**.
-/

namespace PatternDiagram

open Grammar

/-! ## 1. The numbers of one tree -/

/-- The captures have the numbers from `n` up to `n'`, in order. -/
def Numbered (n : Nat) (cs : List Capture) (n' : Nat) : Prop :=
  ∃ k, n' = n + k ∧ cs.map Capture.index = (List.range' n k).map some

namespace Numbered

theorem nil (n : Nat) : Numbered n [] n := ⟨0, rfl, rfl⟩

theorem cons {n n' : Nat} {cs : List Capture} (name : Option String) (h : Numbered (n + 1) cs n') :
    Numbered n (⟨name, some n⟩ :: cs) n' := by
  obtain ⟨k, rfl, hcs⟩ := h
  exact ⟨k + 1, by omega, by simp [hcs, List.range'_succ]⟩

theorem append {n n₁ n' : Nat} {cs ds : List Capture} (h : Numbered n cs n₁)
    (h' : Numbered n₁ ds n') : Numbered n (cs ++ ds) n' := by
  obtain ⟨k, rfl, hcs⟩ := h
  obtain ⟨l, rfl, hds⟩ := h'
  refine ⟨k + l, Nat.add_assoc .., ?_⟩
  rw [List.map_append, hcs, hds, ← List.map_append, List.range'_append_1]

end Numbered

namespace Grammar

mutual

theorem Atom.numbered {n n' : Nat} {ws : List Word} {x : Node} :
    Atom n ws x n' → Numbered n x.captures n'
  | .literal _ _ | .anchor _ _ | .backreference _ _ | .characterClass _ _ => .nil _
  | .group head body => by
      have ih := body.numbered
      cases head with
      | capture name => simpa [GroupHead.node, GroupHead.number?] using ih.cons name
      | plain => simpa [GroupHead.node, GroupHead.after] using ih
      | look direction polarity => simpa [GroupHead.node, GroupHead.after] using ih
termination_by structural h => h

theorem Piece.numbered {n n' : Nat} {ws : List Word} {x : Node} :
    Piece n ws x n' → Numbered n x.captures n'
  | .once h => h.numbered
  | .repeated q h _ => by simpa using h.numbered
termination_by structural h => h

theorem Row.numbered {n n' : Nat} {ws : List Word} {xs : List Node} :
    Row n ws xs n' → Numbered n (xs.flatMap Node.captures) n'
  | .nil _ => .nil _
  | .cons h hs => by simpa using h.numbered.append hs.numbered
termination_by structural h => h

theorem Choice.numbered {n n' : Nat} {ws : List Word} {xs : List Node} :
    Choice n ws xs n' → Numbered n (xs.flatMap Node.captures) n'
  | .one h => by simpa using h.numbered
  | .more h hs => by simpa using h.numbered.append hs.numbered
termination_by structural h => h

end

end Grammar

/-- **An accepting reader numbers the groups of its tree from its first free number on**, and puts
    their names at the end of its table. -/
theorem Reader.parse_numbered {r after : Reader} {root : Node} (h : r.parse = (.ok root, after)) :
    ∃ k, root.captures.map Capture.index = (List.range' r.naming.next k).map some ∧
      after.naming.next = r.naming.next + k ∧
      after.naming.table = r.naming.table ++ root.named := by
  have hparse : r.parse.1 = .ok root := by rw [h]
  obtain ⟨ws, hws, ⟨xs, next, hxs, rfl⟩, hclash⟩ := (r.parse_iff root).mp hparse
  obtain ⟨naming, hrun, htakes⟩ := (Machine.run_of_choice hws hxs).accepts hclash
  obtain ⟨k, rfl, hindex⟩ := hxs.numbered
  have hafter : after.naming = naming := by
    simp only [parse, hrun, Prod.mk.injEq, true_and] at h
    simp [← h, goTo]
  rw [hafter]
  exact ⟨k, by simpa using hindex, htakes.next_eq, htakes.table_eq⟩

/-! ## 2. The numbers of any run -/

/-- The numbers and names behind a step. -/
def Step.naming : Step → Naming
  | .next m => m.naming
  | .done _ naming => naming
  | .failed _ naming => naming

namespace Machine

/-- The number that the next step gives out: there is one in front of a group that captures. -/
def allots (m : Machine) : List Nat :=
  match Token.next m.rest with
  | .ok (some (.groupOpen (.capture _), _)) => [m.naming.next]
  | _ => []

/-- The numbers that the run gives out, in order, those of groups that come to nothing included. -/
def issued (m : Machine) : List Nat :=
  match _ : m.step with
  | .next m' => m.allots ++ m'.issued
  | _ => m.allots
termination_by m.rest.length
decreasing_by exact step_length ‹m.step = .next m'›

theorem allots_eq (m : Machine) : m.allots = List.range' m.naming.next m.allots.length := by
  unfold allots
  split <;> rfl

theorem next_openGroup (m : Machine) (head : GroupHead) (rest : List Char) :
    (m.openGroup head rest).naming.next = head.after m.naming.next := by
  cases head with
  | capture name =>
    cases name with
    | none => rfl
    | some s =>
      simp only [openGroup, Naming.allot]
      by_cases hs : s ∈ m.naming.scope <;> simp [hs, Step.naming, GroupHead.after]
  | plain => rfl
  | look direction polarity => rfl

theorem next_take (m : Machine) (t : Token) (rest : List Char)
    (ht : ∀ name, t ≠ .groupOpen (.capture name)) :
    (m.take t rest).naming.next = m.naming.next := by
  cases t with
  | literal l => rfl
  | anchor a => rfl
  | backreference t => rfl
  | classOpen negated =>
    simp only [take, item, characterClass]
    split <;> rfl
  | groupOpen head =>
    simp only [take, item, next_openGroup]
    cases head with
    | capture name => exact absurd rfl (ht name)
    | plain => rfl
    | look direction polarity => rfl
  | groupClose =>
    simp only [take, closeGroup]
    split <;> rfl
  | quantifier q =>
    simp only [take, item, quantify]
    split
    · rfl
    · split <;> rfl
  | bar => rfl

/-- **A step moves the free number past what it gives out**, also when it fails. -/
theorem next_step (m : Machine) :
    m.step.naming.next = m.naming.next + m.allots.length := by
  unfold step allots
  split
  · rename_i hnext
    rw [hnext]
    rfl
  · rename_i hnext
    rw [hnext]
    simp only [atEnd]
    split <;> rfl
  · rename_i t rest hnext
    rw [hnext]
    split
    · rename_i heq
      simp only [Except.ok.injEq, Option.some.injEq, Prod.mk.injEq] at heq
      obtain ⟨rfl, rfl⟩ := heq
      exact m.next_openGroup (.capture _) rest
    · rename_i hne
      exact m.next_take t rest fun name e => hne name rest (by rw [e])

/-- **A run gives out the numbers from the first free one on**, and leaves the next one free. -/
theorem issued_eq (m : Machine) :
    m.issued = List.range' m.naming.next m.issued.length ∧
      m.run.naming.next = m.naming.next + m.issued.length := by
  have hstep := m.next_step
  fun_induction issued m with
  | case1 m m' heq ih =>
    rw [heq] at hstep
    obtain ⟨hissued, hrun⟩ := ih m'.next_step
    rw [run_of_step heq, hrun, List.length_append]
    refine ⟨?_, by rw [show m'.naming.next = _ from hstep]; omega⟩
    rw [← List.range'_append_1, ← m.allots_eq, ← show m'.naming.next = _ from hstep, ← hissued]
  | case2 m hne =>
    -- the last step may have failed at the name of a group: its number is given out all the same
    refine ⟨m.allots_eq, ?_⟩
    cases heq : m.step with
    | next m' => exact absurd heq (hne m')
    | done root naming =>
      rw [run_of_done heq, ← hstep, heq]
      rfl
    | failed f naming =>
      rw [run_of_failed heq, ← hstep, heq]
      rfl

end Machine

/-! ## 3. Histories -/

namespace Reader

/-- What can be asked of a reader. -/
inductive Call where
  | next
  | parse
  | seek (position : Nat)
  deriving DecidableEq, Repr

/-- The reader behind a call. -/
def call (r : Reader) : Call → Reader
  | .next => r.next.2
  | .parse => r.parse.2
  | .seek position => r.seek position

/-- The reader behind a row of calls. -/
def after (r : Reader) (calls : List Call) : Reader := calls.foldl call r

/-- The numbers that a row of calls gives out, in order. -/
def issued (r : Reader) : List Call → List Nat
  | [] => []
  | .parse :: calls =>
      (Machine.start r.naming r.rest).issued ++ (r.call .parse).issued calls
  | c :: calls => (r.call c).issued calls

theorem naming_next (r : Reader) : r.next.2.naming = r.naming := by
  unfold next
  split <;> rfl

theorem naming_parse (r : Reader) :
    r.parse.2.naming = (Machine.start r.naming r.rest).run.naming := by
  unfold parse
  dsimp only
  split <;> rfl

/-- **Over any history the numbers are given out one after the other**, none twice and none left
    out, whatever failed on the way. -/
theorem issued_eq (r : Reader) (calls : List Call) :
    r.issued calls = List.range' r.naming.next (r.issued calls).length ∧
      (r.after calls).naming.next = r.naming.next + (r.issued calls).length := by
  induction calls generalizing r with
  | nil => exact ⟨rfl, rfl⟩
  | cons c calls ih =>
    obtain ⟨hissued, hnext⟩ := ih (r.call c)
    cases c with
    | next =>
      have hnaming : (r.call .next).naming = r.naming := r.naming_next
      rw [hnaming] at hissued hnext
      exact ⟨hissued, hnext⟩
    | seek position => exact ⟨hissued, hnext⟩
    | parse =>
      obtain ⟨hrun, hrunNext⟩ := (Machine.start r.naming r.rest).issued_eq
      have hnaming : (r.call .parse).naming.next = r.naming.next +
          (Machine.start r.naming r.rest).issued.length := by
        rw [← show (Machine.start r.naming r.rest).naming.next = r.naming.next from rfl, ← hrunNext]
        exact congrArg Naming.next r.naming_parse
      rw [issued, List.length_append, ← List.range'_append_1, ← hnaming, ← hissued]
      refine ⟨congrArg (· ++ _) hrun, ?_⟩
      rw [← Nat.add_assoc, ← hnaming]
      exact hnext

end Reader

/-- A call that moves the free number by `k` gives out as many numbers. -/
theorem Reader.issued_of_next {r : Reader} {calls : List Call} {k : Nat}
    (h : (r.after calls).naming.next = r.naming.next + k) :
    r.issued calls = List.range' r.naming.next k := by
  obtain ⟨hissued, hnext⟩ := r.issued_eq calls
  have hlength : (r.issued calls).length = k := by omega
  rw [hissued, hlength]

/-! ## 4. Expressions -/

/-- **Numbers of groups.** The groups of an accepted source have the numbers from one up to their
    count, in the order of their opening parentheses, and its table has their names in that order.
    A reader in any state that accepts gives its groups the numbers from its first free one on, puts
    their names behind the names that it has, and leaves the next number free. No history of calls
    gives out a number twice, and reading single tokens changes neither numbers nor names. -/
theorem parse_numbers :
    (∀ source e, parse source = .ok e →
      e.root.captures.map Capture.index = (List.range' 1 e.groups.count).map some ∧
        e.groups.names = e.root.named) ∧
    (∀ (r after : Reader) (root : Node), r.parse = (.ok root, after) →
      ∃ k, root.captures.map Capture.index = (List.range' r.naming.next k).map some ∧
        r.issued [.parse] = List.range' r.naming.next k ∧
        after.naming.next = r.naming.next + k ∧
        after.naming.table = r.naming.table ++ root.named) ∧
    (∀ (r : Reader) (calls : List Reader.Call),
      ∃ k, r.issued calls = List.range' r.naming.next k ∧
        (r.after calls).naming.next = r.naming.next + k) ∧
    ∀ r : Reader, r.next.2.naming = r.naming := by
  refine ⟨fun source e h => ?_, fun r after root h => ?_, fun r calls => ?_, Reader.naming_next⟩
  · obtain ⟨s, after, -, hparse, hgroups⟩ := reader_of_parse h
    obtain ⟨k, hindex, hnext, htable⟩ := Reader.parse_numbered hparse
    have hcount : after.groups.count = k := by
      simp only [Reader.groups, hnext, Reader.ofPattern]
      omega
    rw [hgroups, hcount]
    exact ⟨hindex, htable⟩
  · obtain ⟨k, hindex, hnext, htable⟩ := Reader.parse_numbered h
    have hafter : r.after [.parse] = after := congrArg Prod.snd h
    exact ⟨k, hindex, Reader.issued_of_next (hafter ▸ hnext), hnext, htable⟩
  · obtain ⟨hissued, hnext⟩ := r.issued_eq calls
    exact ⟨_, hissued, hnext⟩

set_option maxRecDepth 100000 in
/-- The number that a reading in vain has given out is not given out again. -/
theorem parse_numbers_of_retry :
    (∃ e, parse "(?<n>a(b))|(c)" = .ok e ∧
      e.root.captures.map Capture.index = [some 1, some 2, some 3] ∧
      e.groups.names = [("n", 1)]) ∧
    let r := (Reader.ofPattern "(*(?<n>a)".toList 0).after [.parse, .seek 2]
    ∃ root after, r.parse = (.ok root, after) ∧ root.captures.map Capture.index = [some 2] ∧
      r.issued [.parse] = [2] ∧ after.naming.next = 3 ∧ after.naming.table = [("n", 2)] := by
  obtain ⟨hsource, hreader, -, -⟩ := parse_numbers
  have hparse : parse "(?<n>a(b))|(c)" = .ok
      ⟨.alternation
        [.group true (some "n") (some 1)
          (.sequence [.literal (.char 'a'), .group true none (some 2) (.literal (.char 'b'))]),
        .group true none (some 3) (.literal (.char 'c'))], {}, ⟨3, [("n", 1)]⟩⟩ := by
    with_unfolding_all rfl
  obtain ⟨hindex, hnames⟩ := hsource _ _ hparse
  refine ⟨⟨_, hparse, hindex, hnames⟩, ?_⟩
  intro r
  have hretry : r.parse =
      (.ok (.group true (some "n") (some 2) (.literal (.char 'a'))), r.parse.2) := by
    with_unfolding_all rfl
  have hnaming : r.naming = ⟨2, [], []⟩ := by decide +kernel
  obtain ⟨k, hindex, hissued, hafter, htable⟩ := hreader r _ _ hretry
  obtain rfl : k = 1 := by simpa using (congrArg List.length hindex).symm
  rw [hnaming] at hindex hissued hafter htable
  exact ⟨_, _, hretry, hindex, hissued, hafter, htable⟩

end PatternDiagram
