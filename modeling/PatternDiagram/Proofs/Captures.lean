import PatternDiagram.Proofs.Grammar

/-!
# The groups of a tree that capture

* `Capture`, `Node.captures`: the groups that capture, in the order of their opening parentheses;
* `Node.names`, `Node.named`: the names among them, and the names with their numbers;
* `Node.paths`: the captures that are met on each way through a tree. Two of them are on one path
  unless they lie in different branches of an alternation;
* `Node.NamesApart`: on no path is a name given twice;
* `Node.clash?`: the first capture that takes a name given before on its path, with
  `Node.clash?_eq_none_iff` between the two.
-/

namespace PatternDiagram

/-! ## 1. Captures -/

/-- What a group that captures is known by. -/
structure Capture where
  name : Option String
  index : Option Nat
  deriving DecidableEq, Repr

/-- The entry of the capture in a table of names. -/
def Capture.entry? (c : Capture) : Option (String × Nat) :=
  match c.name, c.index with
  | some s, some n => some (s, n)
  | _, _ => none

/-- The names among captures. -/
def namesOf (cs : List Capture) : List String := cs.filterMap Capture.name

@[simp] theorem namesOf_nil : namesOf [] = [] := rfl

@[simp] theorem namesOf_append (cs ds : List Capture) :
    namesOf (cs ++ ds) = namesOf cs ++ namesOf ds := by simp [namesOf]

@[simp] theorem namesOf_cons_none (index : Option Nat) (cs : List Capture) :
    namesOf (⟨none, index⟩ :: cs) = namesOf cs := rfl

@[simp] theorem namesOf_cons_some (s : String) (index : Option Nat) (cs : List Capture) :
    namesOf (⟨some s, index⟩ :: cs) = s :: namesOf cs := rfl

namespace Node

/-- The capture that the root of the tree is. -/
def capture? : Node → Option Capture
  | .group true name index _ => some ⟨name, index⟩
  | _ => none

/-- The groups that capture, each before those inside it. -/
def captures (x : Node) : List Capture := x.preorder.filterMap capture?

/-- The names of groups that capture. -/
def names (x : Node) : List String := namesOf x.captures

/-- The names of groups that capture, with the numbers of the groups. -/
def named (x : Node) : List (String × Nat) := x.captures.filterMap Capture.entry?

theorem preorderAll_eq_flatMap (xs : List Node) : preorderAll xs = xs.flatMap preorder := by
  induction xs with
  | nil => rfl
  | cons x xs ih => simp [preorderAll, ih]

@[simp] theorem captures_sequence (xs : List Node) :
    (sequence xs).captures = xs.flatMap captures := by
  simp [captures, preorder, preorderAll_eq_flatMap, capture?, List.filterMap_cons,
    List.filterMap_flatMap]
  rfl

@[simp] theorem captures_alternation (xs : List Node) :
    (alternation xs).captures = xs.flatMap captures := by
  simp [captures, preorder, preorderAll_eq_flatMap, capture?, List.filterMap_cons,
    List.filterMap_flatMap]
  rfl

@[simp] theorem captures_capture (name : Option String) (index : Option Nat) (x : Node) :
    (group true name index x).captures = ⟨name, index⟩ :: x.captures := by
  simp [captures, preorder, capture?]

@[simp] theorem captures_plain (name : Option String) (index : Option Nat) (x : Node) :
    (group false name index x).captures = x.captures := by
  simp [captures, preorder, capture?, List.filterMap_cons]

@[simp] theorem captures_repetition (q : Quantifier) (x : Node) :
    (repetition q x).captures = x.captures := by
  simp [captures, preorder, capture?, List.filterMap_cons]

@[simp] theorem captures_lookaround (direction : Direction) (polarity : Polarity) (x : Node) :
    (lookaround direction polarity x).captures = x.captures := by
  simp [captures, preorder, capture?, List.filterMap_cons]

@[simp] theorem captures_literal (l : Literal) : (literal l).captures = [] := rfl

@[simp] theorem captures_anchor (a : Anchor) : (anchor a).captures = [] := rfl

@[simp] theorem captures_backreference (t : Target) : (backreference t).captures = [] := rfl

@[simp] theorem captures_characterClass (c : CharacterClass) :
    (characterClass c).captures = [] := rfl

@[simp] theorem captures_ofItems (xs : List Node) :
    (ofItems xs).captures = xs.flatMap captures := by
  unfold ofItems
  split <;> simp

@[simp] theorem captures_ofBranches (xs : List Node) :
    (ofBranches xs).captures = xs.flatMap captures := by
  unfold ofBranches
  split <;> simp

theorem namesOf_flatMap (xs : List Node) :
    namesOf (xs.flatMap captures) = xs.flatMap names := by
  simp only [namesOf, List.filterMap_flatMap]
  rfl

theorem names_ofItems (xs : List Node) : (ofItems xs).names = xs.flatMap names := by
  rw [names, captures_ofItems, namesOf_flatMap]

theorem names_ofBranches (xs : List Node) : (ofBranches xs).names = xs.flatMap names := by
  rw [names, captures_ofBranches, namesOf_flatMap]

theorem named_ofItems (xs : List Node) : (ofItems xs).named = xs.flatMap named := by
  simp only [named, captures_ofItems, List.filterMap_flatMap]
  rfl

theorem named_ofBranches (xs : List Node) : (ofBranches xs).named = xs.flatMap named := by
  simp only [named, captures_ofBranches, List.filterMap_flatMap]
  rfl

end Node

/-- The name that the beginning of a group gives. -/
def GroupHead.names : GroupHead → List String
  | .capture (some s) => [s]
  | _ => []

/-- The name that the beginning of a group gives, with the number `n`. -/
def GroupHead.named (head : GroupHead) (n : Nat) : List (String × Nat) :=
  head.names.map fun s => (s, n)

namespace Node

theorem names_node (head : GroupHead) (n : Nat) (x : Node) :
    (head.node (head.number? n) x).names = head.names ++ x.names := by
  cases head with
  | capture name => cases name <;> simp [GroupHead.node, GroupHead.names, names]
  | _ => simp [GroupHead.node, GroupHead.names, names]

theorem named_node (head : GroupHead) (n : Nat) (x : Node) :
    (head.node (head.number? n) x).named = head.named n ++ x.named := by
  cases head with
  | capture name =>
    cases name <;>
      simp [GroupHead.node, GroupHead.named, GroupHead.names, named, Capture.entry?,
        GroupHead.number?, List.filterMap_cons]
  | _ => simp [GroupHead.node, GroupHead.named, GroupHead.names, named]

/-! ## 2. Paths -/

mutual

/-- The captures on each way through the tree. A way goes through all items of a sequence and into
    one branch of an alternation at most. -/
def paths : Node → List (List Capture)
  | .sequence items => pathsThrough items
  | .alternation branches => pathsInto branches
  | .group true name index body => body.paths.map (⟨name, index⟩ :: ·)
  | .group false _ _ body => body.paths
  | .repetition _ body => body.paths
  | .lookaround _ _ body => body.paths
  | .characterClass _ | .literal _ | .anchor _ | .backreference _ => [[]]

/-- The ways through all of the trees. -/
def pathsThrough : List Node → List (List Capture)
  | [] => [[]]
  | x :: xs => x.paths.flatMap fun path => (pathsThrough xs).map (path ++ ·)

/-- The ways through one of the trees, or past them. -/
def pathsInto : List Node → List (List Capture)
  | [] => [[]]
  | x :: xs => x.paths ++ pathsInto xs

end

/-- **No name is given twice on one path.** -/
def NamesApart (x : Node) : Prop := ∀ path ∈ x.paths, (namesOf path).Nodup

instance (x : Node) : Decidable x.NamesApart :=
  inferInstanceAs (Decidable (∀ path ∈ x.paths, (namesOf path).Nodup))

mutual

/-- The first capture that takes a name which is in `scope` or was given before on its path. -/
def clash? (scope : List String) : Node → Option Capture
  | .sequence items => clashThrough? scope items
  | .alternation branches => clashInto? scope branches
  | .group true none _ body => body.clash? scope
  | .group true (some s) index body =>
      if s ∈ scope then some ⟨some s, index⟩ else body.clash? (s :: scope)
  | .group false _ _ body => body.clash? scope
  | .repetition _ body => body.clash? scope
  | .lookaround _ _ body => body.clash? scope
  | .characterClass _ | .literal _ | .anchor _ | .backreference _ => none

/-- The same for trees one after the other. -/
def clashThrough? (scope : List String) : List Node → Option Capture
  | [] => none
  | x :: xs => (x.clash? scope).or (clashThrough? (x.names ++ scope) xs)

/-- The same for trees that do not see each other. -/
def clashInto? (scope : List String) : List Node → Option Capture
  | [] => none
  | x :: xs => (x.clash? scope).or (clashInto? scope xs)

end

/-! ## 3. Clashes and paths -/

/-- The path gives no name twice, and none that is in `scope`. -/
def Clear (scope : List String) (path : List Capture) : Prop :=
  (namesOf path).Nodup ∧ ∀ s ∈ namesOf path, s ∉ scope

theorem clear_nil (scope : List String) : Clear scope [] := by simp [Clear]

theorem clear_append (scope : List String) (front back : List Capture) :
    Clear scope (front ++ back) ↔
      Clear scope front ∧ Clear scope back ∧ ∀ s ∈ namesOf front, s ∉ namesOf back := by
  simp only [Clear, namesOf_append, List.nodup_append, List.mem_append]
  constructor
  · intro ⟨⟨hfront, hback, hapart⟩, hscope⟩
    exact ⟨⟨hfront, fun s hs => hscope s (.inl hs)⟩, ⟨hback, fun s hs => hscope s (.inr hs)⟩,
      fun s hs hs' => hapart s hs s hs' rfl⟩
  · intro ⟨⟨hfront, hfree⟩, ⟨hback, hfree'⟩, hapart⟩
    exact ⟨⟨hfront, hback, fun s hs t ht e => hapart s hs (e ▸ ht)⟩,
      fun s hs => hs.elim (hfree s) (hfree' s)⟩

theorem clear_append_scope (names scope : List String) (path : List Capture) :
    Clear (names ++ scope) path ↔ Clear scope path ∧ ∀ s ∈ names, s ∉ namesOf path := by
  simp only [Clear, List.mem_append, not_or]
  constructor
  · intro ⟨hnodup, hfree⟩
    exact ⟨⟨hnodup, fun s hs => (hfree s hs).2⟩, fun s hs hs' => (hfree s hs').1 hs⟩
  · intro ⟨⟨hnodup, hfree⟩, hnames⟩
    exact ⟨hnodup, fun s hs => ⟨fun hs' => hnames s hs' hs, hfree s hs⟩⟩

theorem clear_cons_some (scope : List String) (s : String) (index : Option Nat)
    (path : List Capture) :
    Clear scope (⟨some s, index⟩ :: path) ↔ s ∉ scope ∧ Clear (s :: scope) path := by
  simp only [Clear, namesOf_cons_some, List.nodup_cons, List.mem_cons, forall_eq_or_imp, not_or]
  constructor
  · intro ⟨⟨hs, hnodup⟩, hfree, hfree'⟩
    exact ⟨hfree, hnodup, fun t ht => ⟨fun e => hs (e ▸ ht), hfree' t ht⟩⟩
  · intro ⟨hfree, hnodup, hfree'⟩
    exact ⟨⟨fun hs => (hfree' s hs).1 rfl, hnodup⟩, hfree, fun t ht => (hfree' t ht).2⟩

mutual

/-- There is a way through every tree. -/
theorem exists_path : ∀ x : Node, ∃ path, path ∈ x.paths
  | .sequence items => exists_pathThrough items
  | .alternation branches => exists_pathInto branches
  | .group true name index body => by
      obtain ⟨path, hpath⟩ := exists_path body
      exact ⟨_, List.mem_map_of_mem hpath⟩
  | .group false _ _ body => exists_path body
  | .repetition _ body => exists_path body
  | .lookaround _ _ body => exists_path body
  | .characterClass _ | .literal _ | .anchor _ | .backreference _ => ⟨[], by simp [paths]⟩

theorem exists_pathThrough : ∀ xs : List Node, ∃ path, path ∈ pathsThrough xs
  | [] => ⟨[], by simp [pathsThrough]⟩
  | x :: xs => by
      obtain ⟨front, hfront⟩ := exists_path x
      obtain ⟨back, hback⟩ := exists_pathThrough xs
      exact ⟨front ++ back, List.mem_flatMap.mpr ⟨front, hfront, List.mem_map_of_mem hback⟩⟩

theorem exists_pathInto : ∀ xs : List Node, ∃ path, path ∈ pathsInto xs
  | [] => ⟨[], by simp [pathsInto]⟩
  | x :: xs => by
      obtain ⟨path, hpath⟩ := exists_path x
      exact ⟨path, by simp [pathsInto, hpath]⟩

end

mutual

/-- Every name of a tree is met on some way through it. -/
theorem mem_names_iff (s : String) :
    ∀ x : Node, s ∈ x.names ↔ ∃ path ∈ x.paths, s ∈ namesOf path
  | .sequence items => by
      simpa [names, paths, namesOf_flatMap] using mem_namesThrough_iff s items
  | .alternation branches => by
      simpa [names, paths, namesOf_flatMap] using mem_namesInto_iff s branches
  | .group true none index body => by
      refine (mem_names_iff s body).trans ⟨?_, ?_⟩
      · intro ⟨path, hpath, hs⟩
        exact ⟨_, List.mem_map_of_mem hpath, hs⟩
      · intro ⟨_, hmem, hs⟩
        obtain ⟨path, hpath, rfl⟩ := List.mem_map.mp hmem
        exact ⟨path, hpath, hs⟩
  | .group true (some t) index body => by
      have ih := mem_names_iff s body
      obtain ⟨path, hpath⟩ := exists_path body
      simp only [names, captures_capture, namesOf_cons_some, List.mem_cons, paths, List.mem_map]
      constructor
      · intro h
        rcases h with rfl | hs
        · exact ⟨_, ⟨path, hpath, rfl⟩, by simp⟩
        · obtain ⟨path, hpath, hs⟩ := ih.mp hs
          exact ⟨_, ⟨path, hpath, rfl⟩, by simp [hs]⟩
      · intro h
        obtain ⟨_, ⟨path, hpath, rfl⟩, hs⟩ := h
        simp only [namesOf_cons_some, List.mem_cons] at hs
        exact hs.imp id fun hs => ih.mpr ⟨path, hpath, hs⟩
  | .group false _ _ body => by simpa [names, paths] using mem_names_iff s body
  | .repetition _ body => by simpa [names, paths] using mem_names_iff s body
  | .lookaround _ _ body => by simpa [names, paths] using mem_names_iff s body
  | .characterClass _ | .literal _ | .anchor _ | .backreference _ => by simp [names, paths]

theorem mem_namesThrough_iff (s : String) :
    ∀ xs : List Node, s ∈ xs.flatMap names ↔ ∃ path ∈ pathsThrough xs, s ∈ namesOf path
  | [] => by simp [pathsThrough]
  | x :: xs => by
      obtain ⟨front, hfront⟩ := exists_path x
      obtain ⟨back, hback⟩ := exists_pathThrough xs
      simp only [List.flatMap_cons, List.mem_append, mem_names_iff s x, mem_namesThrough_iff s xs,
        pathsThrough, List.mem_flatMap, List.mem_map]
      constructor
      · intro h
        rcases h with ⟨path, hpath, hs⟩ | ⟨path, hpath, hs⟩
        · exact ⟨_, ⟨path, hpath, back, hback, rfl⟩, by simp [hs]⟩
        · exact ⟨_, ⟨front, hfront, path, hpath, rfl⟩, by simp [hs]⟩
      · intro h
        obtain ⟨_, ⟨front, hfront, back, hback, rfl⟩, hs⟩ := h
        simp only [namesOf_append, List.mem_append] at hs
        exact hs.imp (fun hs => ⟨front, hfront, hs⟩) fun hs => ⟨back, hback, hs⟩

theorem mem_namesInto_iff (s : String) :
    ∀ xs : List Node, s ∈ xs.flatMap names ↔ ∃ path ∈ pathsInto xs, s ∈ namesOf path
  | [] => by simp [pathsInto]
  | x :: xs => by
      simp only [List.flatMap_cons, List.mem_append, mem_names_iff s x, mem_namesInto_iff s xs,
        pathsInto, or_and_right, exists_or]

end

/-- On all ways through a row of trees: the first tree, and the others with its names in scope. -/
theorem forall_pathsThrough_cons (scope : List String) (x : Node) (xs : List Node) :
    (∀ path ∈ pathsThrough (x :: xs), Clear scope path) ↔
      (∀ path ∈ x.paths, Clear scope path) ∧
        ∀ path ∈ pathsThrough xs, Clear (x.names ++ scope) path := by
  simp only [pathsThrough, List.mem_flatMap, List.mem_map, clear_append_scope]
  constructor
  · intro h
    have hboth (front : List Capture) (hfront : front ∈ x.paths) (back : List Capture)
        (hback : back ∈ pathsThrough xs) :=
      (clear_append scope front back).mp (h _ ⟨front, hfront, back, hback, rfl⟩)
    -- each path is half of some way through the whole row, since the other half exists
    obtain ⟨front, hfront⟩ := exists_path x
    obtain ⟨back, hback⟩ := exists_pathThrough xs
    refine ⟨fun path hpath => (hboth path hpath back hback).1,
      fun path hpath => ⟨(hboth front hfront path hpath).2.1, fun s hs => ?_⟩⟩
    obtain ⟨front, hfront, hs⟩ := (mem_names_iff s x).mp hs
    exact (hboth front hfront path hpath).2.2 s hs
  · intro ⟨hx, hxs⟩ path hpath
    obtain ⟨front, hfront, back, hback, rfl⟩ := hpath
    exact (clear_append scope front back).mpr ⟨hx front hfront, (hxs back hback).1,
      fun s hs => (hxs back hback).2 s ((mem_names_iff s x).mpr ⟨front, hfront, hs⟩)⟩

mutual

/-- **There is a clash where some path is not clear, and nowhere else.** -/
theorem clash?_eq_none_iff (scope : List String) :
    ∀ x : Node, x.clash? scope = none ↔ ∀ path ∈ x.paths, Clear scope path
  | .sequence items => by simpa [clash?, paths] using clashThrough?_eq_none_iff scope items
  | .alternation branches => by simpa [clash?, paths] using clashInto?_eq_none_iff scope branches
  | .group true none index body => by
      simp only [clash?, clash?_eq_none_iff scope body, paths, List.forall_mem_map, Clear,
        namesOf_cons_none]
  | .group true (some s) index body => by
      have ih := clash?_eq_none_iff (s :: scope) body
      obtain ⟨path, hpath⟩ := exists_path body
      simp only [clash?, paths, List.forall_mem_map, clear_cons_some]
      split
      · rename_i hs
        simp only [reduceCtorEq, false_iff]
        exact fun h => (h path hpath).1 hs
      · rename_i hs
        rw [ih]
        exact ⟨fun h path hpath => ⟨hs, h path hpath⟩, fun h path hpath => (h path hpath).2⟩
  | .group false _ _ body => by simpa [clash?, paths] using clash?_eq_none_iff scope body
  | .repetition _ body => by simpa [clash?, paths] using clash?_eq_none_iff scope body
  | .lookaround _ _ body => by simpa [clash?, paths] using clash?_eq_none_iff scope body
  | .characterClass _ | .literal _ | .anchor _ | .backreference _ => by
      simp [clash?, paths, clear_nil]

theorem clashThrough?_eq_none_iff (scope : List String) :
    ∀ xs : List Node, clashThrough? scope xs = none ↔
      ∀ path ∈ pathsThrough xs, Clear scope path
  | [] => by simp [clashThrough?, pathsThrough, clear_nil]
  | x :: xs => by
      rw [forall_pathsThrough_cons, ← clash?_eq_none_iff scope x,
        ← clashThrough?_eq_none_iff (x.names ++ scope) xs, clashThrough?, Option.or_eq_none_iff]

theorem clashInto?_eq_none_iff (scope : List String) :
    ∀ xs : List Node, clashInto? scope xs = none ↔ ∀ path ∈ pathsInto xs, Clear scope path
  | [] => by simp [clashInto?, pathsInto, clear_nil]
  | x :: xs => by
      rw [clashInto?, Option.or_eq_none_iff, clash?_eq_none_iff scope x,
        clashInto?_eq_none_iff scope xs]
      simp only [pathsInto, List.mem_append, or_imp, forall_and]

end

/-- A tree by itself has a clash unless it gives no name twice on one path. -/
theorem clash?_nil_eq_none_iff (x : Node) : x.clash? [] = none ↔ x.NamesApart := by
  simp [clash?_eq_none_iff, NamesApart, Clear]

/-! ## 4. What clashes depend on -/

mutual

/-- It only matters which names are in scope. -/
theorem clash?_congr {scope scope' : List String} (h : ∀ s, s ∈ scope ↔ s ∈ scope') :
    ∀ x : Node, x.clash? scope = x.clash? scope'
  | .sequence items => clashThrough?_congr h items
  | .alternation branches => clashInto?_congr h branches
  | .group true none _ body => clash?_congr h body
  | .group true (some t) index body => by
      have hbody : ∀ s, s ∈ t :: scope ↔ s ∈ t :: scope' := by simp [h]
      simp only [clash?, h t, clash?_congr hbody body]
  | .group false _ _ body => clash?_congr h body
  | .repetition _ body => clash?_congr h body
  | .lookaround _ _ body => clash?_congr h body
  | .characterClass _ | .literal _ | .anchor _ | .backreference _ => by simp [clash?]

theorem clashThrough?_congr {scope scope' : List String} (h : ∀ s, s ∈ scope ↔ s ∈ scope') :
    ∀ xs : List Node, clashThrough? scope xs = clashThrough? scope' xs
  | [] => rfl
  | x :: xs => by
      have hxs : ∀ s, s ∈ x.names ++ scope ↔ s ∈ x.names ++ scope' := by simp [h]
      simp only [clashThrough?]
      rw [clash?_congr h x, clashThrough?_congr hxs xs]

theorem clashInto?_congr {scope scope' : List String} (h : ∀ s, s ∈ scope ↔ s ∈ scope') :
    ∀ xs : List Node, clashInto? scope xs = clashInto? scope' xs
  | [] => rfl
  | x :: xs => by
      simp only [clashInto?]
      rw [clash?_congr h x, clashInto?_congr h xs]

end

theorem clash?_ofItems (scope : List String) (xs : List Node) :
    (ofItems xs).clash? scope = clashThrough? scope xs := by
  unfold ofItems
  split
  · simp [clashThrough?]
  · rfl

/-- A group whose name is free clashes where its body does, with that name in scope. -/
theorem clash?_node {scope : List String} {head : GroupHead} {index : Option Nat} {x : Node}
    (hfree : ∀ s ∈ head.names, s ∉ scope) :
    (head.node index x).clash? scope = x.clash? (head.names ++ scope) := by
  cases head with
  | capture name =>
    cases name with
    | none => rfl
    | some s => simp_all [GroupHead.node, clash?, GroupHead.names]
  | _ => simp [GroupHead.node, clash?, GroupHead.names]

theorem clash?_ofBranches (scope : List String) (xs : List Node) :
    (ofBranches xs).clash? scope = clashInto? scope xs := by
  unfold ofBranches
  split
  · simp [clashInto?]
  · rfl

end Node

end PatternDiagram
