import PatternDiagram.Proofs.Acceptance
import PatternDiagram.Proofs.Brackets
import PatternDiagram.Proofs.Stops

/-!
# Trees by bytes

The parser that walks over bytes calls itself for what a group encloses, while `Machine` has the
groups that are open on a stack:

* `Bytes.parseGroup`, `Bytes.parseAtom`, `Bytes.parseRepeat`, `Bytes.parseSequence`: the calls,
  given the one for what a group encloses; `Bytes.parseAlternation`: that call, which makes the
  others again; `Bytes.parse`: a whole pattern;
* `Descends`: a call comes to what the run of a machine comes to, or to something behind which that
  run goes on;
* `Bytes.run_parse`: the parser and the machine come to the same.
-/

namespace PatternDiagram

namespace Bytes

/-! ## 1. The calls -/

/-- The numbers and names given out so far. -/
def naming : ByteReader Naming := fun s => some (s.naming, s)

/-- Gives out numbers and names. -/
def setNaming (naming : Naming) : ByteReader Unit := fun s => some ((), { s with naming := naming })

/-- Takes the names from position `mark` of the scope on out of it. There have to be so many. -/
def drain (mark : Nat) : ByteReader (List String) := do
  let names ← naming
  if names.scope.length < mark then
    giveUp
  else
    setNaming (names.forget mark)
    return names.since mark

section

variable (pattern : List Char) (base : Nat)

/-- The number of the group that begins at `start`. -/
def number (head : GroupHead) (start : Nat) : Trial (Option Nat) := do
  match head with
  | .capture name =>
    match (← naming).allot name with
    | .ok (index, after) =>
      setNaming after
      return some index
    | .error after =>
      setNaming after
      throw (← errorAt pattern base (.duplicateGroupName (name.getD "")) start)
  | _ => return none

/-- The atom with the quantifier that follows it at `first`. -/
def repeatAtom (atom : Node) (q : Quantifier) (first : Nat) : Trial Node := do
  if atom.isRepeatable then
    let _ ← nextToken pattern base
    match ← peekToken pattern base with
    | some ⟨.quantifier _, second, _⟩ => throw (← errorAt pattern base .nothingToRepeat second)
    | _ => return .repetition q atom
  else
    throw (← errorAt pattern base .nothingToRepeat first)

section

variable (inner : Trial Node)

/-- What the group encloses that begins at `start`, and its closing parenthesis. -/
def parseGroup (head : GroupHead) (start : Nat) : Trial Node := do
  let index ← number pattern base head start
  let body ← inner
  match ← nextToken pattern base with
  | some ⟨.groupClose, _, _⟩ => return head.node index body
  | _ => throw (← errorAt pattern base .unterminatedGroup start)

/-- A group, a class, or what is an atom by itself. -/
def parseAtom : Trial Node := do
  match ← nextToken pattern base with
  | none => return Node.ofItems []
  | some ⟨.literal l, _, _⟩ => return .literal l
  | some ⟨.anchor a, _, _⟩ => return .anchor a
  | some ⟨.backreference target, _, _⟩ => return .backreference target
  | some ⟨.classOpen negated, first, _⟩ =>
    return .characterClass ⟨negated, ← classItems pattern base first (rounds pattern) []⟩
  | some ⟨.groupOpen head, first, _⟩ => parseGroup pattern base inner head first
  | some ⟨.quantifier _, first, _⟩ => throw (← errorAt pattern base .nothingToRepeat first)
  | some ⟨.groupClose, first, _⟩ => throw (← errorAt pattern base .unmatchedClose first)
  | some ⟨.bar, first, _⟩ => throw (← errorAt pattern base .unexpectedBar first)

/-- An atom and the quantifier behind it, if there is one. -/
def parseRepeat : Trial Node := do
  let atom ← parseAtom pattern base inner
  match ← peekToken pattern base with
  | some ⟨.quantifier q, first, _⟩ => repeatAtom pattern base atom q first
  | _ => return atom

/-- The items of a branch, behind those that have been read, within so many rounds. -/
def parseItems : Nat → List Node → Trial (List Node)
  | 0, _ => giveUp
  | n + 1, items => do
    match ← peekToken pattern base with
    | none => return items
    | some ⟨.bar, _, _⟩ => return items
    | some ⟨.groupClose, _, _⟩ => return items
    | some _ =>
      let item ← parseRepeat pattern base inner
      parseItems n (items ++ [item])

/-- One branch. -/
def parseSequence : Trial Node := do
  return Node.ofItems (← parseItems pattern base inner (rounds pattern) [])

/-- The other branches, behind those that have been read, within so many rounds. -/
def parseBranches (mark : Nat) : Nat → List Node → List String → Trial (List Node × List String)
  | 0, _, _ => giveUp
  | n + 1, branches, declared => do
    match ← peekToken pattern base with
    | some ⟨.bar, _, _⟩ =>
      let _ ← nextToken pattern base
      let branch ← parseSequence pattern base inner
      parseBranches mark n (branches ++ [branch]) (declared ++ (← drain mark))
    | _ => return (branches, declared)

end

/-- All branches up to a closing parenthesis or the end, with groups in them that lie within each
    other to so many levels. What follows meets the names of all branches. -/
def parseAlternation : Nat → Trial Node
  | 0 => giveUp
  | n + 1 => do
    let mark := (← naming).scope.length
    let first ← parseSequence pattern base (parseAlternation n)
    let (branches, declared) ←
      parseBranches pattern base (parseAlternation n) mark (rounds pattern) [first] (← drain mark)
    setNaming ((← naming).bring declared)
    return Node.ofBranches branches

/-- A whole pattern. Only a closing parenthesis can be left behind its branches. -/
def parse : Trial Node := do
  let root ← parseAlternation pattern base (rounds pattern)
  match ← nextToken pattern base with
  | none => return root
  | some t => throw (← errorAt pattern base .unmatchedClose t.first)

end

end Bytes

/-! ## 2. Calls and runs -/

/-- What a call comes to in front of what a machine has left: something with what is left behind it,
    of which `good` holds, or the failure of the machine's run. -/
inductive Descends {α : Type} (pattern : List Char) (base : Nat) (m : Machine)
    (good : α → Naming → List Char → Prop) : Option (Except SyntaxError α × Cursor) → Prop where
  | ok {a : α} {naming : Naming} {rest : List Char} (hrest : rest <:+ m.rest)
      (h : good a naming rest) :
      Descends pattern base m good (some (.ok a, .before pattern rest naming))
  | failed {f : Failure} {naming : Naming} (h : m.run = ⟨.error f, naming⟩) :
      Descends pattern base m good (Bytes.outcome pattern base naming (.error f))

namespace Descends

variable {α β : Type} {pattern : List Char} {base : Nat} {m m' : Machine}
  {good : α → Naming → List Char → Prop} {good' : β → Naming → List Char → Prop}

/-- What comes next is about where the run has gone on to. -/
theorem bind {x : Trial α} {f : α → Trial β} {s : Cursor}
    (h : Descends pattern base m good (x.run.run s))
    (hf : ∀ a naming rest, rest <:+ m.rest → good a naming rest →
      Descends pattern base m good' ((f a).run.run (.before pattern rest naming))) :
    Descends pattern base m good' ((x >>= f).run.run s) := by
  rw [Bytes.run_bind]
  cases h' : x.run.run s with
  | none => rw [h'] at h; cases h
  | some found =>
    rw [h'] at h
    cases h with
    | ok hrest hgood => exact hf _ _ _ hrest hgood
    | failed hrun => exact failed hrun

/-- A fault at a place that has been met, if the run fails with it. -/
theorem throws {fault : Fault} {site stop : List Char} {naming : Naming}
    (hsite : site <:+ pattern) (hrun : m.run = ⟨.error ⟨fault, site, stop⟩, naming⟩) :
    Descends pattern base m good
      ((do throw (← Bytes.errorAt pattern base fault (placeOf pattern site)) : Trial α).run.run
        (.before pattern stop naming)) := by
  rw [Bytes.run_throw_errorAt hsite]
  exact failed hrun

/-- A call in the middle of a run is a call at its beginning. -/
theorem of_run {result : Option (Except SyntaxError α × Cursor)}
    {good' : α → Naming → List Char → Prop} (h : Descends pattern base m' good result)
    (hrun : m.run = m'.run) (hrest : m'.rest <:+ m.rest)
    (hgood : ∀ a naming rest, good a naming rest → good' a naming rest) :
    Descends pattern base m good' result := by
  cases h with
  | ok hsuffix h => exact .ok (hsuffix.trans hrest) (hgood _ _ _ h)
  | failed h => exact .failed (hrun.trans h)

end Descends

/-- The cursor in front of what the machine has left. -/
def Machine.cursor (m : Machine) (pattern : List Char) : Cursor := .before pattern m.rest m.naming

/-- What is left begins with a token. -/
def Begins (t : Token) (rest : List Char) : Prop := ∃ left, Token.next rest = .ok (some (t, left))

/-- What is left does not go on with an item. -/
def EndsItems (rest : List Char) : Prop :=
  rest = [] ∨ Begins .bar rest ∨ Begins .groupClose rest

namespace Machine

/-- The run goes on behind some items. -/
structure Past (m : Machine) (xs : List Node) (naming : Naming) (rest : List Char) : Prop where
  run_eq : m.run = (m.past naming xs rest).run
  scope_prefix : m.naming.scope <+: naming.scope

/-- The run goes on at the end of the alternation. The names that came before it are still there. -/
structure Closed (m : Machine) (root : Node) (naming : Naming) (rest : List Char) : Prop where
  run_eq : ∃ m' : Machine, m.run = m'.run ∧ m'.stack = m.stack ∧ m'.rest = rest ∧
    m'.current.close m'.naming = (root, naming)
  scope_prefix : m.naming.scope.take m.current.mark <+: naming.scope
  ends : rest = [] ∨ Begins .groupClose rest

end Machine

/-! ## 3. Atoms -/

namespace Bytes

variable {pattern : List Char} {base : Nat} {m : Machine} {inner : Trial Node}

@[simp] theorem naming_before (pattern rest : List Char) (names : Naming) :
    (Cursor.before pattern rest names).naming = names := rfl

@[simp] theorem run_naming (s : Cursor) : naming.run s = some (s.naming, s) := rfl

@[simp] theorem run_setNaming (rest : List Char) (before after : Naming) :
    (setNaming after).run (.before pattern rest before) =
      some ((), .before pattern rest after) := rfl

theorem run_drain {mark : Nat} {names : Naming} (h : mark ≤ names.scope.length)
    (rest : List Char) :
    (drain mark).run (.before pattern rest names) =
      some (names.since mark, .before pattern rest (names.forget mark)) := by
  simp [drain, Nat.not_lt.mpr h]

/-- The call reads an alternation where fewer than `n` characters are left. -/
def Alternates (pattern : List Char) (base : Nat) (inner : Trial Node) (n : Nat) : Prop :=
  ∀ m : Machine, m.rest <:+ pattern → m.rest.length < n →
    m.current = { mark := m.naming.scope.length } →
    Descends pattern base m m.Closed (inner.run.run (m.cursor pattern))

theorem allot_ok {before after : Naming} {name : Option String} {index : Nat}
    (h : before.allot name = .ok (index, after)) :
    index = before.next ∧ before.scope <+: after.scope := by
  unfold Naming.allot at h
  dsimp only at h
  split at h
  · simp only [Except.ok.injEq, Prod.mk.injEq] at h
    obtain ⟨rfl, rfl⟩ := h
    exact ⟨rfl, List.prefix_refl _⟩
  · split at h
    · simp at h
    · simp only [Except.ok.injEq, Prod.mk.injEq] at h
      obtain ⟨rfl, rfl⟩ := h
      exact ⟨rfl, List.prefix_append _ _⟩

/-- The number of a group, and the run inside it. -/
theorem descends_number {head : GroupHead} {left : List Char} (hm : m.rest <:+ pattern)
    (hleft : left <:+ m.rest) (hstep : m.step = m.openGroup head left) :
    Descends pattern base m
      (fun index naming rest => rest = left ∧ index = head.number? m.naming.next ∧
        m.run = (m.inside naming head left).run ∧ m.naming.scope <+: naming.scope)
      ((number pattern base head (placeOf pattern m.rest)).run.run
        (.before pattern left m.naming)) := by
  cases head with
  | plain => exact .ok hleft ⟨rfl, rfl, Machine.run_of_step hstep, List.prefix_refl _⟩
  | look direction polarity =>
    exact .ok hleft ⟨rfl, rfl, Machine.run_of_step hstep, List.prefix_refl _⟩
  | capture name =>
    rw [number]
    cases hallot : m.naming.allot name with
    | ok found =>
      obtain ⟨index, after⟩ := found
      obtain ⟨rfl, hprefix⟩ := allot_ok hallot
      have hnext : m.step = .next (m.inside after (.capture name) left) := by
        simp [hstep, Machine.openGroup, hallot, Machine.inside, GroupHead.number?]
      have hrun : (number pattern base (.capture name) (placeOf pattern m.rest)).run.run
          (.before pattern left m.naming) =
            some (.ok (some m.naming.next), .before pattern left after) := by
        simp [number, hallot, Except.map]
      exact hrun ▸ .ok hleft ⟨rfl, rfl, Machine.run_of_step hnext, hprefix⟩
    | error after =>
      have hfailed : m.step =
          .failed ⟨.duplicateGroupName (name.getD ""), m.rest, left⟩ after := by
        simp [hstep, Machine.openGroup, hallot]
      have hrun : (number pattern base (.capture name) (placeOf pattern m.rest)).run.run
          (.before pattern left m.naming) = outcome pattern base after
            (.error ⟨.duplicateGroupName (name.getD ""), m.rest, left⟩) := by
        simpa [number, hallot] using run_throw_errorAt hm base _ left after
      exact hrun ▸ .failed (Machine.run_of_failed hfailed)

/-- **A group**: what it encloses is read by a call for less, and behind that call the run is at the
    end of the alternation. -/
theorem descends_group {head : GroupHead} {left : List Char} (hm : m.rest <:+ pattern)
    (hnext : Token.next m.rest = .ok (some (.groupOpen head, left)))
    (hless : Alternates pattern base inner m.rest.length) :
    Descends pattern base m
      (fun x naming rest => m.Past [x] naming rest ∧ rest.length < m.rest.length)
      ((parseGroup pattern base inner head (placeOf pattern m.rest)).run.run
        (.before pattern left m.naming)) := by
  have hleft : left <:+ m.rest := Token.suffix_of_next hnext
  have hlength := Token.next_length hnext
  rw [parseGroup]
  refine (descends_number hm hleft (by simp [Machine.step, hnext]; rfl)).bind ?_
  rintro _ names within - ⟨rfl, rfl, hrun, hprefix⟩
  have hinside := hless (m.inside names head within) (hleft.trans hm) hlength rfl
  refine (hinside.of_run hrun hleft fun _ _ _ h => h).bind ?_
  rintro body after rest hrest ⟨⟨m', hrun', hstack, rfl, hclose⟩, hprefix', hends⟩
  have hkept : names.scope <+: after.scope := by simpa [Machine.inside] using hprefix'
  have htoken := run_nextToken (hrest.trans hm) base after
  rcases hends with hnil | ⟨behind, hbehind⟩
  · have hfailed : m'.step = .failed ⟨.unterminatedGroup, m.rest, []⟩ after := by
      simp [Machine.step, hnil, Token.next, Machine.atEnd, hclose, hstack, Machine.inside]
    rw [hnil] at htoken ⊢
    rw [run_bind, htoken]
    exact Descends.throws hm (hrun.trans (hrun'.trans (Machine.run_of_failed hfailed)))
  · have hnext' : m'.step = .next (m.past after
        [head.node (head.number? m.naming.next) body] behind) := by
      simp only [Machine.step, hbehind, Machine.take, Machine.closeGroup, hclose, hstack]
      rfl
    have hbehind' := Token.suffix_of_next hbehind
    rw [run_bind, htoken, hbehind]
    exact .ok (hbehind'.trans hrest) ⟨⟨hrun.trans (hrun'.trans (Machine.run_of_step hnext')),
      hprefix.trans hkept⟩, Nat.lt_of_lt_of_le (Token.next_length hbehind) hrest.length_le⟩

theorem descends_class {negated : Bool} {left : List Char} (hm : m.rest <:+ pattern)
    (hnext : Token.next m.rest = .ok (some (.classOpen negated, left))) :
    Descends pattern base m
      (fun items naming rest => m.Past [.characterClass ⟨negated, items⟩] naming rest ∧
        rest.length < m.rest.length)
      ((classItems pattern base (placeOf pattern m.rest) (rounds pattern) []).run.run
        (.before pattern left m.naming)) := by
  have hleft : left <:+ m.rest := Token.suffix_of_next hnext
  have hstep : m.step = m.characterClass negated left := by
    rw [Machine.step, hnext]
    rfl
  rw [rounds, run_classItems hm (hleft.trans hm) (hleft.trans hm).length_le [] base m.naming]
  cases hread : ClassBody.read m.rest left with
  | error f =>
    rw [Machine.characterClass, hread] at hstep
    exact .failed (Machine.run_of_failed hstep)
  | ok found =>
    obtain ⟨items, rest⟩ := found
    rw [Machine.characterClass, hread] at hstep
    have hrest := ClassBody.read_suffix hread
    exact .ok (hrest.trans hleft) ⟨⟨Machine.run_of_step hstep, List.prefix_refl _⟩,
      Nat.lt_of_le_of_lt hrest.length_le (Token.next_length hnext)⟩

theorem descends_atom {t : Token} {left : List Char} (hm : m.rest <:+ pattern)
    (hnext : Token.next m.rest = .ok (some (t, left)))
    (hbar : t ≠ .bar) (hclose : t ≠ .groupClose)
    (hitems : ∀ q, t = .quantifier q → m.current.items = [])
    (hless : Alternates pattern base inner m.rest.length) :
    Descends pattern base m
      (fun x naming rest => m.Past [x] naming rest ∧ rest.length < m.rest.length)
      ((parseAtom pattern base inner).run.run (m.cursor pattern)) := by
  have hstep : m.step = m.take t left := by simp [Machine.step, hnext]
  have hleft : left <:+ m.rest := Token.suffix_of_next hnext
  have hlength := Token.next_length hnext
  have htoken := run_nextToken hm base m.naming
  rw [hnext] at htoken
  rw [parseAtom, Machine.cursor, run_bind, htoken]
  cases t with
  | literal l =>
    exact .ok hleft ⟨⟨Machine.run_of_step hstep, List.prefix_refl _⟩, hlength⟩
  | anchor a =>
    exact .ok hleft ⟨⟨Machine.run_of_step hstep, List.prefix_refl _⟩, hlength⟩
  | backreference target =>
    exact .ok hleft ⟨⟨Machine.run_of_step hstep, List.prefix_refl _⟩, hlength⟩
  | classOpen negated =>
    refine (descends_class hm hnext).bind ?_
    exact fun items names rest hrest hpast => .ok hrest hpast
  | groupOpen head => exact descends_group hm hnext hless
  | quantifier q =>
    have hfailed : m.step = .failed ⟨.nothingToRepeat, m.rest, left⟩ m.naming := by
      simp [hstep, Machine.take, Machine.item, Machine.quantify, hitems q rfl]
    exact Descends.throws hm (Machine.run_of_failed hfailed)
  | groupClose => exact absurd rfl hclose
  | bar => exact absurd rfl hbar

/-! ## 4. Items and branches -/

theorem step_error {m : Machine} {f : Failure} (h : Token.next m.rest = .error f) :
    m.step = .failed { f with stop := m.rest } m.naming := by
  rw [Machine.step, h]

/-- A quantifier behind an item is taken by it or refused. -/
theorem step_quantifier (m : Machine) (x : Node) (names : Naming) {rest behind : List Char}
    {q : Quantifier} (hnext : Token.next rest = .ok (some (.quantifier q, behind))) :
    (m.past names [x] rest).step =
      if x.isRepeatable then .next (m.past names [.repetition q x] behind)
      else .failed ⟨.nothingToRepeat, rest, rest⟩ names := by
  rw [Machine.step, show (m.past names [x] rest).rest = rest from rfl, hnext]
  rfl

/-- An atom that may be repeated takes one quantifier and no second one. -/
theorem descends_quantifier {atom : Node} {names : Naming} {rest behind : List Char}
    {q : Quantifier} (hm : m.rest <:+ pattern) (hrest : rest <:+ m.rest)
    (hpast : m.Past [atom] names rest) (hlength : rest.length < m.rest.length)
    (hnext : Token.next rest = .ok (some (.quantifier q, behind))) :
    Descends pattern base m
      (fun x naming rest => m.Past [x] naming rest ∧ rest.length < m.rest.length ∧
        ∀ q, ¬ Begins (.quantifier q) rest)
      ((repeatAtom pattern base atom q (placeOf pattern rest)).run.run
        (.before pattern rest names)) := by
  have hstep := step_quantifier m atom names hnext
  rw [repeatAtom]
  cases hatom : atom.isRepeatable with
  | false =>
    rw [hatom] at hstep
    exact Descends.throws (hrest.trans hm) (hpast.run_eq.trans (Machine.run_of_failed hstep))
  | true =>
    rw [hatom] at hstep
    have hrun := hpast.run_eq.trans (Machine.run_of_step hstep)
    have hbehind := (Token.suffix_of_next hnext).trans hrest
    have hless := Nat.lt_trans (Token.next_length hnext) hlength
    have htoken := run_nextToken (hrest.trans hm) base names
    have hpeek := run_peekToken (hbehind.trans hm) base names
    rw [if_pos rfl, run_bind, htoken, hnext]
    dsimp only [outcome, Option.bind_some]
    rw [run_bind, hpeek]
    cases hsecond : Token.next behind with
    | error f =>
      exact .failed (hrun.trans (Machine.run_of_failed (step_error hsecond)))
    | ok found =>
      rcases found with _ | ⟨second, after⟩
      · exact .ok hbehind ⟨⟨hrun, hpast.scope_prefix⟩, hless, by simp [Begins, hsecond]⟩
      · cases second with
        | quantifier q' =>
          have hfailed := step_quantifier m (.repetition q atom) names hsecond
          exact Descends.throws (hbehind.trans hm) (hrun.trans (Machine.run_of_failed hfailed))
        | _ => exact .ok hbehind ⟨⟨hrun, hpast.scope_prefix⟩, hless, by simp [Begins, hsecond]⟩

/-- **An item**: what a quantifier behind the atom does to the machine, and that a second one does
    not do so. -/
theorem descends_repeat {t : Token} {left : List Char} (hm : m.rest <:+ pattern)
    (hnext : Token.next m.rest = .ok (some (t, left)))
    (hbar : t ≠ .bar) (hclose : t ≠ .groupClose)
    (hitems : ∀ q, t = .quantifier q → m.current.items = [])
    (hless : Alternates pattern base inner m.rest.length) :
    Descends pattern base m
      (fun x naming rest => m.Past [x] naming rest ∧ rest.length < m.rest.length ∧
        ∀ q, ¬ Begins (.quantifier q) rest)
      ((parseRepeat pattern base inner).run.run (m.cursor pattern)) := by
  rw [parseRepeat]
  refine (descends_atom hm hnext hbar hclose hitems hless).bind ?_
  rintro atom names rest hrest ⟨hpast, hlength⟩
  have hpeek := run_peekToken (hrest.trans hm) base names
  rw [run_bind, hpeek]
  cases htoken : Token.next rest with
  | error f =>
    exact .failed (hpast.run_eq.trans (Machine.run_of_failed (step_error htoken)))
  | ok found =>
    rcases found with _ | ⟨second, behind⟩
    · exact .ok hrest ⟨hpast, hlength, by simp [Begins, htoken]⟩
    · cases second with
      | quantifier q => exact descends_quantifier hm hrest hpast hlength htoken
      | _ => exact .ok hrest ⟨hpast, hlength, by simp [Begins, htoken]⟩

theorem past_past (m : Machine) (names names' : Naming) (xs ys : List Node)
    (rest rest' : List Char) :
    (m.past names xs rest).past names' ys rest' = m.past names' (xs ++ ys) rest' := by
  simp [Machine.past]

/-- **The items of a branch.** The induction is on what is left. A quantifier never stands behind an
    item here, since the item has taken it. -/
theorem descends_items {n k : Nat} (hless : Alternates pattern base inner n) (m : Machine)
    (hm : m.rest <:+ pattern) (hlength : m.rest.length ≤ n) (hrounds : m.rest.length < k)
    (hitems : ∀ q, Begins (.quantifier q) m.rest → m.current.items = []) (items : List Node) :
    Descends pattern base m
      (fun all naming rest => ∃ xs, all = items ++ xs ∧ m.Past xs naming rest ∧ EndsItems rest)
      ((parseItems pattern base inner k items).run.run (m.cursor pattern)) := by
  obtain ⟨k, rfl⟩ := Nat.exists_eq_add_one_of_ne_zero (Nat.ne_zero_of_lt hrounds)
  have hpeek := run_peekToken hm base m.naming
  rw [parseItems, run_bind, Machine.cursor, hpeek]
  cases htoken : Token.next m.rest with
  | error f => exact .failed (Machine.run_of_failed (step_error htoken))
  | ok found =>
    rcases found with _ | ⟨t, left⟩
    · exact .ok (List.suffix_refl _) ⟨[], by simp, ⟨rfl, List.prefix_refl _⟩,
        .inl (Token.next_eq_none_iff.mp htoken)⟩
    · by_cases hend : t = .bar ∨ t = .groupClose
      · have hstop : EndsItems m.rest := by
          rcases hend with rfl | rfl
          · exact .inr (.inl ⟨left, htoken⟩)
          · exact .inr (.inr ⟨left, htoken⟩)
        rcases hend with rfl | rfl <;>
          exact .ok (List.suffix_refl _) ⟨[], by simp, ⟨rfl, List.prefix_refl _⟩, hstop⟩
      · obtain ⟨hbar, hclose⟩ := not_or.mp hend
        have hgoesOn : Descends pattern base m
            (fun all naming rest => ∃ xs, all = items ++ xs ∧ m.Past xs naming rest ∧
              EndsItems rest)
            ((do let item ← parseRepeat pattern base inner
                 parseItems pattern base inner k (items ++ [item])).run.run
              (m.cursor pattern)) := by
          have hfirst : ∀ q, t = .quantifier q → m.current.items = [] := fun q e =>
            hitems q ⟨left, e ▸ htoken⟩
          have hless' : Alternates pattern base inner m.rest.length := fun m' hm' hlt =>
            hless m' hm' (Nat.lt_of_lt_of_le hlt hlength)
          refine (descends_repeat hm htoken hbar hclose hfirst hless').bind ?_
          rintro item names rest hrest ⟨hpast, hshorter, hquantifier⟩
          refine (descends_items hless (m.past names [item] rest) (hrest.trans hm)
            (Nat.le_of_lt (Nat.lt_of_lt_of_le hshorter hlength))
            (Nat.lt_of_lt_of_le hshorter (Nat.le_of_lt_succ hrounds))
            (fun q hq => absurd hq (hquantifier q)) (items ++ [item])).of_run hpast.run_eq hrest ?_
          rintro all names' rest' ⟨xs, rfl, hmore, hends⟩
          refine ⟨item :: xs, by simp, ⟨?_, hpast.scope_prefix.trans hmore.scope_prefix⟩, hends⟩
          rw [hpast.run_eq, hmore.run_eq, past_past, List.singleton_append]
        cases t with
        | bar => exact absurd rfl hbar
        | groupClose => exact absurd rfl hclose
        | _ => exact hgoesOn
termination_by m.rest.length
decreasing_by exact hshorter

theorem descends_sequence {n : Nat} (hless : Alternates pattern base inner n)
    (hm : m.rest <:+ pattern) (hlength : m.rest.length ≤ n) (hitems : m.current.items = []) :
    Descends pattern base m
      (fun x naming rest => ∃ xs, x = .ofItems xs ∧ m.Past xs naming rest ∧ EndsItems rest)
      ((parseSequence pattern base inner).run.run (m.cursor pattern)) := by
  rw [parseSequence]
  refine (descends_items hless m hm hlength (length_lt_rounds hm) (fun _ _ => hitems) []).bind ?_
  rintro all names rest hrest ⟨_, rfl, hpast, hends⟩
  exact .ok hrest ⟨all, rfl, hpast, hends⟩

/-- The alternation as the machine has it, if no bar comes next. -/
theorem closed_self (hends : m.rest = [] ∨ Begins .groupClose m.rest) :
    m.Closed (.ofBranches (m.current.branch :: m.current.branches).reverse)
      ((m.naming.forget m.current.mark).bring
        (m.current.declared ++ m.naming.since m.current.mark)) m.rest where
  run_eq := ⟨m, rfl, rfl, rfl, rfl⟩
  scope_prefix := Naming.prefix_bring (m.naming.forget m.current.mark) _
  ends := hends

theorem step_bar {m : Machine} {left : List Char}
    (h : Token.next m.rest = .ok (some (.bar, left))) :
    m.step = .next (m.pastBar m.naming [] left) := by
  rw [Machine.step, h]
  rfl

/-- The names in front of the mark are those that were there before. -/
theorem take_scope {mark : Nat} {before after : List String} (hmark : mark ≤ before.length)
    (h : before.take mark <+: after) :
    mark ≤ after.length ∧ after.take mark = before.take mark := by
  have hlength : (before.take mark).length = mark := List.length_take_of_le hmark
  have hle := h.length_le
  have htake := List.prefix_iff_eq_take.mp h
  rw [hlength] at hle htake
  exact ⟨hle, htake.symm⟩

/-- **The other branches.** The induction is on what is left. The loop has the branches before in
    its hands and has taken their names out of scope, while the machine still has the last one
    open. -/
theorem descends_branches {n k : Nat} (hless : Alternates pattern base inner n) (m : Machine)
    (hm : m.rest <:+ pattern) (hlength : m.rest.length ≤ n) (hrounds : m.rest.length < k)
    (hends : EndsItems m.rest) (hmark : m.current.mark ≤ m.naming.scope.length) :
    Descends pattern base m
      (fun found naming rest => m.Closed (.ofBranches found.1) (naming.bring found.2) rest)
      ((parseBranches pattern base inner m.current.mark k
        (m.current.branch :: m.current.branches).reverse
        (m.current.declared ++ m.naming.since m.current.mark)).run.run
          (.before pattern m.rest (m.naming.forget m.current.mark))) := by
  obtain ⟨k, rfl⟩ := Nat.exists_eq_add_one_of_ne_zero (Nat.ne_zero_of_lt hrounds)
  have hpeek := run_peekToken hm base (m.naming.forget m.current.mark)
  have htoken := run_nextToken hm base (m.naming.forget m.current.mark)
  rw [parseBranches, run_bind, hpeek]
  rcases hends with hnil | ⟨left, hbar⟩ | ⟨left, hclose⟩
  · rw [Token.next_eq_none_iff.mpr hnil]
    exact .ok (List.suffix_refl _) (closed_self (.inl hnil))
  · rw [hbar]
    dsimp only [outcome, Option.bind_some]
    rw [run_bind, htoken, hbar]
    dsimp only [outcome, Option.bind_some]
    have hleft := Token.suffix_of_next hbar
    have hshorter := Token.next_length hbar
    have hrun := Machine.run_of_step (step_bar hbar)
    refine Descends.of_run ?_ hrun hleft fun _ _ _ h => h
    refine (descends_sequence hless (hleft.trans hm)
      (Nat.le_of_lt (Nat.lt_of_lt_of_le hshorter hlength)) rfl).bind ?_
    rintro x names rest hrest ⟨xs, rfl, hpast, hends⟩
    obtain ⟨hmark', htake⟩ := take_scope hmark hpast.scope_prefix
    rw [run_lift_bind, run_drain hmark', Option.bind_some]
    have hless' : rest.length < m.rest.length := Nat.lt_of_le_of_lt hrest.length_le hshorter
    have hmore := descends_branches hless ((m.pastBar m.naming [] left).past names xs rest)
      (hrest.trans (hleft.trans hm)) (Nat.le_of_lt (Nat.lt_of_lt_of_le hless' hlength))
      (Nat.lt_of_lt_of_le hless' (Nat.le_of_lt_succ hrounds)) hends hmark'
    have hbranches : (((m.pastBar m.naming [] left).past names xs rest).current.branch ::
        ((m.pastBar m.naming [] left).past names xs rest).current.branches).reverse =
          (m.current.branch :: m.current.branches).reverse ++ [.ofItems xs] := by
      simp [Machine.past, Machine.pastBar, Alternation.bar, Alternation.branch]
    rw [hbranches] at hmore
    refine hmore.of_run hpast.run_eq hrest ?_
    rintro found after rest' ⟨⟨m', hrun', hstack, hrest', hclose⟩, hprefix, hends⟩
    exact ⟨⟨m', hrun.trans (hpast.run_eq.trans hrun'), hstack, hrest', hclose⟩, htake ▸ hprefix,
      hends⟩
  · rw [hclose]
    exact .ok (List.suffix_refl _) (closed_self (.inr ⟨left, hclose⟩))
termination_by m.rest.length
decreasing_by exact hless'

/-- **A whole alternation**, from what is read in the groups in it. -/
theorem descends_alternation {n : Nat}
    (hless : Alternates pattern base (parseAlternation pattern base n) n) (hm : m.rest <:+ pattern)
    (hlength : m.rest.length ≤ n) (hfresh : m.current = { mark := m.naming.scope.length }) :
    Descends pattern base m m.Closed
      ((parseAlternation pattern base (n + 1)).run.run (m.cursor pattern)) := by
  obtain ⟨before, current, stack, left⟩ := m
  obtain rfl : current = { mark := before.scope.length } := hfresh
  rw [Machine.cursor, parseAlternation, run_lift_bind, run_naming, Option.bind_some, naming_before]
  refine (descends_sequence hless hm hlength rfl).bind ?_
  rintro x names rest hrest ⟨xs, rfl, hpast, hends⟩
  have hmark : before.scope.length ≤ names.scope.length := hpast.scope_prefix.length_le
  have htake : names.scope.take before.scope.length = before.scope :=
    (List.prefix_iff_eq_take.mp hpast.scope_prefix).symm
  have hmore := descends_branches hless
    (Machine.past ⟨before, { mark := before.scope.length }, stack, left⟩ names xs rest)
    (hrest.trans hm) (Nat.le_trans hrest.length_le hlength) (length_lt_rounds (hrest.trans hm))
    hends hmark
  have hbranch : (Machine.past ⟨before, { mark := before.scope.length }, stack, left⟩ names xs
      rest).current.branch = .ofItems xs := by
    simp [Machine.past, Alternation.branch]
  rw [hbranch] at hmore
  rw [run_lift_bind, run_drain hmark, Option.bind_some]
  refine Descends.bind (hmore.of_run hpast.run_eq hrest fun _ _ _ h => h) ?_
  rintro ⟨branches, declared⟩ after rest' hrest' ⟨⟨m', hrun, hstack, hleft, hclose⟩, hprefix, hend⟩
  refine .ok hrest' ⟨⟨m', hpast.run_eq.trans hrun, hstack, hleft, hclose⟩, ?_, hend⟩
  exact (List.take_prefix _ _).trans (htake ▸ hprefix)

/-! ## 5. Whole patterns -/

/-- **Fewer than `n` characters need no more than `n` levels.** The induction goes one level down,
    where a group has taken its parenthesis. -/
theorem alternates (pattern : List Char) (base n : Nat) :
    Alternates pattern base (parseAlternation pattern base n) n := by
  induction n with
  | zero => exact fun m hm hlt => absurd hlt (Nat.not_lt_zero _)
  | succ n ih =>
    exact fun m hm hlt hfresh => descends_alternation ih hm (Nat.le_of_lt_succ hlt) hfresh

/-- Behind the alternation of a whole pattern there is nothing, or a parenthesis too many. -/
theorem descends_parse {rest : List Char} (h : rest <:+ pattern) (base : Nat) (names : Naming) :
    Descends pattern base (.start names rest)
      (fun root after left => left = [] ∧ (Machine.start names rest).run = ⟨.ok root, after⟩)
      ((parse pattern base).run.run (.before pattern rest names)) := by
  rw [parse]
  refine (alternates pattern base (rounds pattern) (.start names rest) h (length_lt_rounds h)
    rfl).bind ?_
  rintro root after left hleft ⟨⟨m', hrun, hstack, rfl, hclose⟩, -, hend⟩
  have htoken := run_nextToken (hleft.trans h) base after
  rcases hend with hnil | ⟨behind, hbehind⟩
  · have hdone : m'.step = .done root after := by
      simp [Machine.step, hnil, Token.next, Machine.atEnd, hclose, hstack, Machine.start]
    rw [hnil] at htoken hleft ⊢
    rw [run_bind, htoken]
    exact .ok hleft ⟨rfl, hrun.trans (Machine.run_of_done hdone)⟩
  · have hfailed : m'.step = .failed ⟨.unmatchedClose, m'.rest, behind⟩ after := by
      simp [Machine.step, hbehind, Machine.take, Machine.closeGroup, hclose, hstack, Machine.start]
    rw [run_bind, htoken, hbehind]
    exact Descends.throws (hleft.trans h) (hrun.trans (Machine.run_of_failed hfailed))

/-- **The parser and the machine come to the same**, wherever an end of the pattern begins. -/
theorem run_parse {rest : List Char} (h : rest <:+ pattern) (base : Nat) (names : Naming) :
    (parse pattern base).run.run (.before pattern rest names) =
      match (Machine.start names rest).run with
      | ⟨.ok root, after⟩ => outcome pattern base after (.ok (root, []))
      | ⟨.error f, after⟩ => outcome pattern base after (.error f) := by
  have hparse := descends_parse h base names
  generalize (parse pattern base).run.run (.before pattern rest names) = result at hparse ⊢
  cases hparse with
  | ok hrest hgood =>
    obtain ⟨rfl, hrun⟩ := hgood
    rw [hrun]
    rfl
  | failed hrun => rw [hrun]

end Bytes

end PatternDiagram
