import PatternDiagram.Proofs.Captures
import PatternDiagram.Proofs.Gathering

/-!
# Which patterns are accepted

* `Naming.Takes`: what numbers, names and scope become behind some captures;
* `Grammar.Atom.meets`, `Grammar.Piece.meets`, `Grammar.Row.meets`, `Grammar.Choice.meets`: the
  machine comes to the end of what the grammar derives, or to the first clash of names in it;
* `Machine.run_of_choice`: the same for a pattern as a whole;
* `Reader.parse_iff`: **a pattern is accepted with just the tree that the grammar derives,
  if that gives no name twice on one path**.
-/

namespace PatternDiagram

open Grammar

/-! ## 1. Numbers and names on the way -/

/-- What becomes of numbers and names when groups with these names are passed, up to the free number
    `next`. -/
structure Naming.Takes (before : Naming) (names : List String) (named : List (String × Nat))
    (next : Nat) (after : Naming) : Prop where
  next_eq : after.next = next
  table_eq : after.table = before.table ++ named
  scope_prefix : before.scope <+: after.scope
  mem_scope : ∀ s, s ∈ after.scope ↔ s ∈ before.scope ∨ s ∈ names

namespace Naming

theorem Takes.refl (naming : Naming) : naming.Takes [] [] naming.next naming :=
  ⟨rfl, by simp, List.prefix_refl _, by simp⟩

theorem Takes.trans {a b c : Naming} {names names' : List String}
    {named named' : List (String × Nat)} {n n' : Nat} (h : a.Takes names named n b)
    (h' : b.Takes names' named' n' c) : a.Takes (names ++ names') (named ++ named') n' c where
  next_eq := h'.next_eq
  table_eq := by rw [h'.table_eq, h.table_eq, List.append_assoc]
  scope_prefix := h.scope_prefix.trans h'.scope_prefix
  mem_scope s := by rw [h'.mem_scope, h.mem_scope, List.mem_append, or_assoc]

/-- Behind a branch its names are forgotten. -/
theorem Takes.scope_forget {a b : Naming} {names : List String} {named : List (String × Nat)}
    {n : Nat} (h : a.Takes names named n b) : (b.forget a.scope.length).scope = a.scope :=
  (List.prefix_iff_eq_take.mp h.scope_prefix).symm

/-- The names that are forgotten are those of the branch, and names in scope. -/
theorem Takes.mem_since {a b : Naming} {names : List String} {named : List (String × Nat)}
    {n : Nat} (h : a.Takes names named n b) (s : String) :
    s ∈ a.scope ∨ s ∈ b.since a.scope.length ↔ s ∈ a.scope ∨ s ∈ names := by
  obtain ⟨added, hadded⟩ := h.scope_prefix
  rw [← h.mem_scope, since, ← hadded, List.drop_left, List.mem_append]

theorem prefix_bring (naming : Naming) (names : List String) :
    naming.scope <+: (naming.bring names).scope := by
  unfold bring
  induction names generalizing naming with
  | nil => exact List.prefix_refl _
  | cons s names ih =>
    simp only [List.foldl_cons]
    split
    · exact ih naming
    · exact (List.prefix_append _ _).trans (ih { naming with scope := naming.scope ++ [s] })

theorem mem_bring (naming : Naming) (names : List String) (s : String) :
    s ∈ (naming.bring names).scope ↔ s ∈ naming.scope ∨ s ∈ names := by
  unfold bring
  induction names generalizing naming with
  | nil => simp
  | cons t names ih =>
    simp only [List.foldl_cons]
    split
    · rename_i ht
      rw [ih naming, List.mem_cons]
      constructor
      · exact Or.imp id .inr
      · intro h
        rcases h with hs | rfl | hs
        · exact .inl hs
        · exact .inl ht
        · exact .inr hs
    · rw [ih { naming with scope := naming.scope ++ [t] }]
      simp [or_assoc]

/-- **Behind an alternation the names of all branches are in scope.** -/
theorem Takes.close {a b : Naming} {names : List String} {named : List (String × Nat)} {n : Nat}
    (h : a.Takes names named n b) (declared : List String) :
    a.Takes (declared ++ names) named n
      ((b.forget a.scope.length).bring (declared ++ b.since a.scope.length)) where
  next_eq := h.next_eq
  table_eq := h.table_eq
  scope_prefix := by
    have hprefix := prefix_bring (b.forget a.scope.length) (declared ++ b.since a.scope.length)
    rwa [h.scope_forget] at hprefix
  mem_scope s := by
    have hmem := h.mem_since s
    rw [mem_bring, h.scope_forget, List.mem_append, List.mem_append]
    grind

end Naming

/-! ## 2. What a run meets -/

namespace Machine

/-- The machine, moved past some items to where `rest` is left. -/
def past (m : Machine) (naming : Naming) (items : List Node) (rest : List Char) : Machine :=
  { m with
    naming := naming
    current := { m.current with items := items.reverse ++ m.current.items }
    rest := rest }

/-- The machine, moved past the items of a branch and the bar behind them. -/
def pastBar (m : Machine) (naming : Naming) (items : List Node) (rest : List Char) : Machine :=
  { m with
    naming := naming.forget m.current.mark
    current := ((m.past naming items rest).current.bar naming).1
    rest := rest }

/-- The run comes to nothing because of the name of this capture, whose number is the last one that
    is gone. -/
def Refuses (m : Machine) (c : Capture) : Prop :=
  ∃ f naming, m.run = ⟨.error f, naming⟩ ∧ f.fault = .duplicateGroupName (c.name.getD "") ∧
    ∃ n, c.index = some n ∧ naming.next = n + 1

/-- The run goes on in a way, unless it is refused because of a clash. -/
structure Meets (m : Machine) (clash : Option Capture) (goesOn : Prop) : Prop where
  accepts : clash = none → goesOn
  refuses : ∀ c, clash = some c → m.Refuses c

theorem Refuses.of_run_eq {m m' : Machine} {c : Capture} (h : m'.Refuses c) (e : m.run = m'.run) :
    m.Refuses c := by
  obtain ⟨f, naming, hrun, hfault⟩ := h
  exact ⟨f, naming, e.trans hrun, hfault⟩

/-- The machine goes past the items, with their names taken. -/
def Passes (m : Machine) (items : List Node) (next : Nat) (rest : List Char) : Prop :=
  ∃ naming, m.naming.Takes (items.flatMap Node.names) (items.flatMap Node.named) next naming ∧
    m.run = (m.past naming items rest).run

/-- The machine goes to the end of an alternation that goes on with these branches. -/
def Closes (m : Machine) (branches : List Node) (next : Nat) (rest : List Char) : Prop :=
  ∃ (m' : Machine) (naming : Naming), m.run = m'.run ∧ m'.stack = m.stack ∧ m'.rest = rest ∧
    m'.current.close m'.naming = (.ofBranches (m.current.branches.reverse ++ branches), naming) ∧
    m.naming.Takes (m.current.declared ++ branches.flatMap Node.names)
      (branches.flatMap Node.named) next naming

/-- A word that is an item by itself. -/
theorem meets_leaf {m : Machine} {w : Word} {x : Node} {rest : List Char}
    (hw : Reads m.rest [w] rest) (hstep : m.takeWord w rest = .next (m.push x rest))
    (hx : x.captures = []) (hclash : x.clash? m.naming.scope = none) :
    m.Meets (x.clash? m.naming.scope) (m.Passes [x] m.naming.next rest) where
  accepts _ := by
    refine ⟨m.naming, ?_, ?_⟩
    · simpa [Node.names, Node.named, hx] using Naming.Takes.refl m.naming
    · cases hw with
      | more hnext hs =>
        cases hs
        exact run_of_word hnext hstep
  refuses c hc := by simp [hclash] at hc

/-- A quantifier behind an item that may be repeated. -/
theorem Passes.repeated {m : Machine} {x : Node} {next : Nat} {mid rest : List Char}
    {q : Quantifier} (h : m.Passes [x] next mid) (hx : x.isRepeatable = true)
    (hw : Reads mid [.token (.quantifier q)] rest) :
    m.Passes [.repetition q x] next rest := by
  obtain ⟨naming, htakes, hrun⟩ := h
  refine ⟨naming, by simpa [Node.names, Node.named] using htakes, ?_⟩
  cases hw with
  | more hnext hs =>
    cases hs
    refine hrun.trans (run_of_word (m := m.past naming [x] mid) hnext ?_)
    simp [takeWord, take, item, quantify, past, hx]

/-- Behind the items of a branch the alternation is at its end. -/
theorem Passes.closes {m : Machine} {items : List Node} {next : Nat} {rest : List Char}
    (h : m.Passes items next rest) (hitems : m.current.items = [])
    (hmark : m.current.mark = m.naming.scope.length) :
    m.Closes [.ofItems items] next rest := by
  obtain ⟨naming, htakes, hrun⟩ := h
  refine ⟨m.past naming items rest, (naming.forget m.current.mark).bring
    (m.current.declared ++ naming.since m.current.mark), hrun, rfl, rfl, ?_, ?_⟩
  · simp [Alternation.close, Alternation.node, Alternation.branch, past, hitems]
  · rw [hmark]
    simpa [Node.names_ofItems, Node.named_ofItems] using htakes.close m.current.declared

/-- The items of a branch and the bar behind them, with what is said of the branches that follow. -/
theorem closes_more {m : Machine} {naming : Naming} {items branches : List Node}
    {next next' : Nat} {mid inner rest : List Char}
    (htakes : m.naming.Takes (items.flatMap Node.names) (items.flatMap Node.named) next naming)
    (hrun : m.run = (m.past naming items mid).run) (hitems : m.current.items = [])
    (hmark : m.current.mark = m.naming.scope.length)
    (hw : Word.next? mid = some (.token .bar, inner))
    (hs : (m.pastBar naming items inner).Closes branches next' rest) :
    m.Closes (.ofItems items :: branches) next' rest := by
  have hscope : (naming.forget m.current.mark).scope = m.naming.scope := by
    rw [hmark, htakes.scope_forget]
  obtain ⟨m', naming', hrun', hstack, hrest, hclose, htakes'⟩ := hs
  refine ⟨m', naming', ?_, hstack, hrest, ?_, htakes'.next_eq, ?_, ?_, ?_⟩
  · exact hrun.trans ((run_of_word (m := m.past naming items mid) hw rfl).trans hrun')
  · simpa [pastBar, Alternation.bar, Alternation.branch, past, hitems] using hclose
  · rw [htakes'.table_eq]
    simp [pastBar, Naming.forget, htakes.table_eq, Node.named_ofItems]
  · exact hscope ▸ htakes'.scope_prefix
  · intro s
    -- the names of the branch are forgotten at the bar, and are back when the alternation is closed
    have hmem := htakes.mem_since s
    have hmem' := htakes'.mem_scope s
    simp only [pastBar, hscope] at hmem'
    simp only [Alternation.bar, past, hmark, List.mem_append] at hmem'
    rw [hmem', List.flatMap_cons, Node.names_ofItems, List.mem_append, List.mem_append]
    grind

/-- The machine behind the beginning of a group. -/
def inside (m : Machine) (naming : Naming) (head : GroupHead) (rest : List Char) : Machine where
  naming := naming
  current := { mark := naming.scope.length }
  stack := ⟨head, head.number? m.naming.next, m.rest, m.current⟩ :: m.stack
  rest := rest

/-- A group that begins with a free name leads on. -/
theorem openGroup_of_free {m : Machine} {head : GroupHead} (rest : List Char)
    (hfree : ∀ s ∈ head.names, s ∉ m.naming.scope) :
    ∃ naming, m.openGroup head rest = .next (m.inside naming head rest) ∧
      m.naming.Takes head.names (head.named m.naming.next) (head.after m.naming.next) naming := by
  cases head with
  | plain => exact ⟨m.naming, rfl, .refl m.naming⟩
  | look direction polarity => exact ⟨m.naming, rfl, .refl m.naming⟩
  | capture name =>
    cases name with
    | none =>
      refine ⟨{ m.naming with next := m.naming.next + 1 }, rfl, rfl, ?_, List.prefix_refl _, ?_⟩
      · simp [GroupHead.named, GroupHead.names]
      · simp [GroupHead.names]
    | some s =>
      have hs : s ∉ m.naming.scope := hfree s (by simp [GroupHead.names])
      refine ⟨{ m.naming with
        next := m.naming.next + 1
        table := m.naming.table ++ [(s, m.naming.next)]
        scope := m.naming.scope ++ [s] }, ?_, rfl, rfl, List.prefix_append _ _, ?_⟩
      · simp [openGroup, Naming.allot, hs, inside, GroupHead.number?]
      · simp [GroupHead.names]

/-- What a group encloses, and its end. -/
theorem Closes.passes {m : Machine} {naming : Naming} {head : GroupHead} {branches : List Node}
    {next next' : Nat} {inner mid rest : List Char}
    (h : (m.inside naming head inner).Closes branches next' mid)
    (hrun : m.run = (m.inside naming head inner).run)
    (htakes : m.naming.Takes head.names (head.named m.naming.next) next naming)
    (hw : Reads mid [.token .groupClose] rest) :
    m.Passes [head.node (head.number? m.naming.next) (.ofBranches branches)] next' rest := by
  obtain ⟨m', naming', hrun', hstack, hrest, hclose, htakes'⟩ := h
  refine ⟨naming', ?_, ?_⟩
  · simpa [inside, Node.names_node, Node.named_node, Node.names_ofBranches,
      Node.named_ofBranches] using htakes.trans htakes'
  · cases hw with
    | more hnext hs =>
      cases hs
      refine hrun.trans (hrun'.trans (run_of_word (hrest ▸ hnext) ?_))
      simp only [takeWord, take, closeGroup, hstack, hclose]
      rfl

end Machine

/-! ## 3. What the grammar derives is met -/

namespace Grammar

open Machine

/-- **A group**: its own name is the first that can clash. -/
theorem meets_group {m : Machine} {head : GroupHead} {branches : List Node} {next' : Nat}
    {inner mid rest : List Char}
    (hopen : Word.next? m.rest = some (.token (.groupOpen head), inner))
    (hclose : Reads mid [.token .groupClose] rest)
    (hbody : ∀ naming : Naming, naming.next = head.after m.naming.next →
      (m.inside naming head inner).Meets (Node.clashInto? naming.scope branches)
        ((m.inside naming head inner).Closes branches next' mid)) :
    m.Meets ((head.node (head.number? m.naming.next) (.ofBranches branches)).clash? m.naming.scope)
      (m.Passes [head.node (head.number? m.naming.next) (.ofBranches branches)] next' rest) := by
  -- the name is looked up before anything inside the group is read
  by_cases hfree : ∀ s ∈ head.names, s ∉ m.naming.scope
  · obtain ⟨naming, hstep, htakes⟩ := openGroup_of_free inner hfree
    have hrun : m.run = (m.inside naming head inner).run := run_of_word hopen hstep
    have hscope (s : String) : s ∈ head.names ++ m.naming.scope ↔ s ∈ naming.scope := by
      rw [htakes.mem_scope, List.mem_append, or_comm]
    have hmeets := hbody naming htakes.next_eq
    rw [Node.clash?_node hfree, Node.clash?_ofBranches, Node.clashInto?_congr hscope]
    exact ⟨fun hc => (hmeets.accepts hc).passes hrun htakes hclose,
      fun c hc => (hmeets.refuses c hc).of_run_eq hrun⟩
  · obtain ⟨s, rfl, hs⟩ : ∃ s, head = .capture (some s) ∧ s ∈ m.naming.scope := by
      cases head with
      | capture name => cases name <;> simp_all [GroupHead.names]
      | _ => simp [GroupHead.names] at hfree
    have hstep : m.step = .failed ⟨.duplicateGroupName s, m.rest, inner⟩
        { m.naming with next := m.naming.next + 1 } := by
      simp [step_of_word hopen, takeWord, take, item, openGroup, Naming.allot, hs]
    refine ⟨fun hc => ?_, fun c hc => ?_⟩
    · simp [GroupHead.node, Node.clash?, hs] at hc
    · simp only [GroupHead.node, Node.clash?, hs, if_true, Option.some.injEq] at hc
      exact ⟨_, _, run_of_failed hstep, by simp [← hc], m.naming.next, by rw [← hc]; rfl, rfl⟩

/-- **A row**: what comes later only clashes if nothing before does. -/
theorem meets_cons {m : Machine} {x : Node} {xs : List Node} {next next' : Nat}
    {mid rest : List Char} (h : m.Meets (x.clash? m.naming.scope) (m.Passes [x] next mid))
    (hs : ∀ naming : Naming, naming.next = next →
      (m.past naming [x] mid).Meets (Node.clashThrough? naming.scope xs)
        ((m.past naming [x] mid).Passes xs next' rest)) :
    m.Meets (Node.clashThrough? m.naming.scope (x :: xs)) (m.Passes (x :: xs) next' rest) := by
  rw [Node.clashThrough?]
  cases hx : x.clash? m.naming.scope with
  | some c =>
    refine ⟨by simp, fun c' hc => ?_⟩
    obtain rfl : c = c' := by simpa using hc
    exact h.refuses c hx
  | none =>
    obtain ⟨naming, htakes, hrun⟩ := h.accepts hx
    have hscope (s : String) : s ∈ x.names ++ m.naming.scope ↔ s ∈ naming.scope := by
      rw [htakes.mem_scope]
      simp [or_comm]
    have hmeets := hs naming htakes.next_eq
    rw [Option.none_or, Node.clashThrough?_congr hscope]
    refine ⟨fun hc => ?_, fun c hc => (hmeets.refuses c hc).of_run_eq hrun⟩
    obtain ⟨naming', htakes', hrun'⟩ := hmeets.accepts hc
    exact ⟨naming', by simpa using htakes.trans htakes', by simpa [past] using hrun.trans hrun'⟩

/-- **A choice**: the branches do not see each other's names. -/
theorem meets_more {m : Machine} {items branches : List Node} {next next' : Nat}
    {mid inner rest : List Char}
    (h : m.Meets (Node.clashThrough? m.naming.scope items) (m.Passes items next mid))
    (hitems : m.current.items = []) (hmark : m.current.mark = m.naming.scope.length)
    (hbar : Word.next? mid = some (.token .bar, inner))
    (hs : ∀ naming : Naming, naming.next = next →
      (naming.forget m.current.mark).scope = m.naming.scope →
        (m.pastBar naming items inner).Meets
          (Node.clashInto? (m.pastBar naming items inner).naming.scope branches)
          ((m.pastBar naming items inner).Closes branches next' rest)) :
    m.Meets (Node.clashInto? m.naming.scope (.ofItems items :: branches))
      (m.Closes (.ofItems items :: branches) next' rest) := by
  rw [Node.clashInto?, Node.clash?_ofItems]
  cases hx : Node.clashThrough? m.naming.scope items with
  | some c =>
    refine ⟨by simp, fun c' hc => ?_⟩
    obtain rfl : c = c' := by simpa using hc
    exact h.refuses c hx
  | none =>
    obtain ⟨naming, htakes, hrun⟩ := h.accepts hx
    have hscope : (naming.forget m.current.mark).scope = m.naming.scope := by
      rw [hmark, htakes.scope_forget]
    have hmeets := hs naming htakes.next_eq hscope
    rw [show (m.pastBar naming items inner).naming.scope = m.naming.scope from hscope] at hmeets
    rw [Option.none_or]
    refine ⟨fun hc => closes_more htakes hrun hitems hmark hbar (hmeets.accepts hc),
      fun c hc => (hmeets.refuses c hc).of_run_eq (hrun.trans ?_)⟩
    exact run_of_word (m := m.past naming items mid) hbar rfl

mutual

theorem Atom.meets {n n' : Nat} {ws : List Word} {x : Node} {m : Machine} {rest : List Char} :
    Atom n ws x n' → m.naming.next = n → Reads m.rest ws rest →
      m.Meets (x.clash? m.naming.scope) (m.Passes [x] n' rest)
  | .literal _ _, rfl, hw => meets_leaf hw rfl rfl rfl
  | .anchor _ _, rfl, hw => meets_leaf hw rfl rfl rfl
  | .backreference _ _, rfl, hw => meets_leaf hw rfl rfl rfl
  | .characterClass _ _, rfl, hw => meets_leaf hw rfl rfl rfl
  | .group head body, rfl, hw => by
      cases hw with
      | more hopen hs =>
        obtain ⟨mid, hbody, hclose⟩ := hs.exists_of_append
        exact meets_group hopen hclose fun naming hnext => body.meets hnext hbody rfl rfl
termination_by structural h => h

theorem Piece.meets {n n' : Nat} {ws : List Word} {x : Node} {m : Machine} {rest : List Char} :
    Piece n ws x n' → m.naming.next = n → Reads m.rest ws rest →
      m.Meets (x.clash? m.naming.scope) (m.Passes [x] n' rest)
  | .once h, hn, hw => h.meets hn hw
  | .repeated q h hx, hn, hw => by
      obtain ⟨mid, hatom, hq⟩ := hw.exists_of_append
      have hmeets := h.meets hn hatom
      have hrepeatable := Node.isRepeatable_of_isUnit (h.isUnit hx)
      exact ⟨fun hc => (hmeets.accepts hc).repeated hrepeatable hq, hmeets.refuses⟩
termination_by structural h => h

theorem Row.meets {n n' : Nat} {ws : List Word} {xs : List Node} {m : Machine}
    {rest : List Char} :
    Row n ws xs n' → m.naming.next = n → Reads m.rest ws rest →
      m.Meets (Node.clashThrough? m.naming.scope xs) (m.Passes xs n' rest)
  | .nil _, rfl, hw => by
      cases hw
      exact ⟨fun _ => ⟨m.naming, .refl _, rfl⟩, fun c hc => by simp [Node.clashThrough?] at hc⟩
  | .cons h hs, hn, hw => by
      obtain ⟨mid, hfront, hback⟩ := hw.exists_of_append
      exact meets_cons (h.meets hn hfront) fun naming hnext => hs.meets hnext hback
termination_by structural h => h

theorem Choice.meets {n n' : Nat} {ws : List Word} {xs : List Node} {m : Machine}
    {rest : List Char} :
    Choice n ws xs n' → m.naming.next = n → Reads m.rest ws rest →
      m.current.items = [] → m.current.mark = m.naming.scope.length →
        m.Meets (Node.clashInto? m.naming.scope xs) (m.Closes xs n' rest)
  | .one h, hn, hw, hitems, hmark => by
      have hmeets := h.meets hn hw
      rw [Node.clashInto?, Node.clash?_ofItems, Node.clashInto?, Option.or_none]
      exact ⟨fun hc => (hmeets.accepts hc).closes hitems hmark, hmeets.refuses⟩
  | .more h hs, hn, hw, hitems, hmark => by
      obtain ⟨mid, hfront, hback⟩ := hw.exists_of_append
      cases hback with
      | more hbar hback =>
        exact meets_more (h.meets hn hfront) hitems hmark hbar fun naming hnext hscope =>
          hs.meets hnext hback rfl (by rw [pastBar, hscope]; exact hmark)
termination_by structural h => h

end

end Grammar

/-! ## 4. Whole patterns -/

theorem Machine.step_at_end {m : Machine} (h : m.rest = []) : m.step = m.atEnd := by
  simp [step, h, Token.next]

/-- **What the grammar derives from a whole pattern is what a run returns**, unless there is a clash
    of names. -/
theorem Machine.run_of_choice {naming : Naming} {pattern : List Char} {ws : List Word}
    {xs : List Node} {next : Nat} (hw : Reads pattern ws []) (h : Choice naming.next ws xs next) :
    (start naming pattern).Meets ((Node.ofBranches xs).clash? naming.scope)
      (∃ after, (start naming pattern).run = ⟨.ok (.ofBranches xs), after⟩ ∧
        naming.Takes (Node.ofBranches xs).names (Node.ofBranches xs).named next after) := by
  have hmeets := h.meets (m := start naming pattern) rfl hw rfl rfl
  rw [Node.clash?_ofBranches, Node.names_ofBranches, Node.named_ofBranches]
  refine ⟨fun hc => ?_, hmeets.refuses⟩
  obtain ⟨m, after, hrun, hstack, hrest, hclose, htakes⟩ := hmeets.accepts hc
  refine ⟨after, hrun.trans (run_of_done ?_), htakes⟩
  rw [step_at_end hrest]
  simp only [atEnd, hclose, hstack, start]
  rfl

/-- What a run returns has no clash of names. -/
theorem Machine.clash?_of_run {naming : Naming} {pattern : List Char} {ws : List Word}
    {xs : List Node} {next : Nat} {root : Node} (hw : Reads pattern ws [])
    (h : Choice naming.next ws xs next) (hrun : (start naming pattern).run.result = .ok root) :
    (Node.ofBranches xs).clash? naming.scope = none := by
  cases hc : (Node.ofBranches xs).clash? naming.scope with
  | none => rfl
  | some c =>
    obtain ⟨f, after, hfail, -⟩ := (run_of_choice hw h).refuses c hc
    simp [hfail] at hrun

namespace Reader

/-- **A reader accepts just what the grammar derives without a clash**, wherever it stands and
    whatever it has read before. -/
theorem parse_iff (r : Reader) (root : Node) :
    r.parse.1 = .ok root ↔
      ∃ ws, Reads r.rest ws [] ∧ Derives r.naming.next ws root ∧
        root.clash? r.naming.scope = none := by
  rw [parse_eq_ok_iff]
  constructor
  · intro h
    obtain ⟨ws, hws, xs, next, hxs, rfl⟩ := Machine.derives_of_run (.start r.naming r.rest) h
    exact ⟨ws, hws, ⟨xs, next, hxs, rfl⟩, Machine.clash?_of_run hws hxs h⟩
  · intro h
    obtain ⟨ws, hws, ⟨xs, next, hxs, rfl⟩, hclash⟩ := h
    obtain ⟨after, hrun, -⟩ := (Machine.run_of_choice hws hxs).accepts hclash
    rw [hrun]

/-- **Acceptance of patterns.** A pattern is accepted with a tree if and only if its words stand for
    that tree and no path of the tree gives a name twice; and the words of a pattern stand for one
    tree at most. -/
theorem parse_ofPattern_iff (pattern : List Char) (base : Nat) :
    (∀ root, (ofPattern pattern base).parse.1 = .ok root ↔
      ∃ ws, Reads pattern ws [] ∧ Derives 1 ws root ∧ root.NamesApart) ∧
    ∀ ws vs x y, Reads pattern ws [] → Derives 1 ws x → Reads pattern vs [] → Derives 1 vs y →
      x = y := by
  refine ⟨fun root => ?_, fun ws vs x y hws hx hvs hy => ?_⟩
  · simp only [parse_iff, ofPattern, Node.clash?_nil_eq_none_iff]
  · obtain rfl := hws.unique hvs
    exact hx.unique hy

end Reader

end PatternDiagram
