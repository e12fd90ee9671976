import PatternDiagram.Proofs.Numbering

/-!
# Trees with other literals

The grammar asks where a literal stands and never which one it is. So literals can be exchanged:

* `Node.mapLiterals`, `Word.mapLiterals`: a tree and a word with other literals in it;
* `Node.captures_mapLiterals`, `Node.paths_mapLiterals`: they have the same groups;
* `Derives.mapLiterals`, `Derives.of_mapLiterals`: the words stand for a tree just if the exchanged
  words stand for the exchanged tree;
* `Reader.parse_mapLiterals`: **two texts whose words differ in their literals alone** are both
  accepted or both refused, and their trees differ in these literals alone.
-/

namespace PatternDiagram

/-! ## 1. Exchanged literals -/

namespace Node

mutual

/-- The tree with `f l` in place of each literal `l`. -/
def mapLiterals (f : Literal → Literal) : Node → Node
  | .sequence items => .sequence (mapLiteralsAll f items)
  | .alternation branches => .alternation (mapLiteralsAll f branches)
  | .group capturing name index body => .group capturing name index (body.mapLiterals f)
  | .repetition q body => .repetition q (body.mapLiterals f)
  | .lookaround direction polarity body => .lookaround direction polarity (body.mapLiterals f)
  | .literal l => .literal (f l)
  | .characterClass c => .characterClass c
  | .anchor a => .anchor a
  | .backreference t => .backreference t

/-- The same for several trees. -/
def mapLiteralsAll (f : Literal → Literal) : List Node → List Node
  | [] => []
  | x :: xs => x.mapLiterals f :: mapLiteralsAll f xs

end

variable (f : Literal → Literal)

theorem mapLiteralsAll_eq_map (xs : List Node) :
    mapLiteralsAll f xs = xs.map (mapLiterals f) := by
  induction xs with
  | nil => rfl
  | cons x xs ih => simp [mapLiteralsAll, ih]

@[simp] theorem mapLiterals_ofItems (xs : List Node) :
    (ofItems xs).mapLiterals f = ofItems (xs.map (mapLiterals f)) := by
  match xs with
  | [] | [_] | _ :: _ :: _ => simp [ofItems, mapLiterals, mapLiteralsAll_eq_map]

@[simp] theorem mapLiterals_ofBranches (xs : List Node) :
    (ofBranches xs).mapLiterals f = ofBranches (xs.map (mapLiterals f)) := by
  match xs with
  | [] | [_] | _ :: _ :: _ => simp [ofBranches, mapLiterals, mapLiteralsAll_eq_map]

@[simp] theorem mapLiterals_node (head : GroupHead) (index : Option Nat) (x : Node) :
    (head.node index x).mapLiterals f = head.node index (x.mapLiterals f) := by
  cases head <;> rfl

@[simp] theorem isPlace_mapLiterals (x : Node) : (x.mapLiterals f).isPlace = x.isPlace := by
  cases x with
  | lookaround direction polarity body => cases direction <;> rfl
  | _ => rfl

/-! ## 2. Groups stay as they are -/

mutual

theorem captures_mapLiterals : ∀ x : Node, (x.mapLiterals f).captures = x.captures
  | .sequence items => by simp [mapLiterals, captures_mapLiteralsAll items]
  | .alternation branches => by simp [mapLiterals, captures_mapLiteralsAll branches]
  | .group true _ _ body => by simp [mapLiterals, captures_mapLiterals body]
  | .group false _ _ body => by simp [mapLiterals, captures_mapLiterals body]
  | .repetition _ body => by simp [mapLiterals, captures_mapLiterals body]
  | .lookaround _ _ body => by simp [mapLiterals, captures_mapLiterals body]
  | .literal _ | .characterClass _ | .anchor _ | .backreference _ => by simp [mapLiterals]

theorem captures_mapLiteralsAll :
    ∀ xs : List Node, (mapLiteralsAll f xs).flatMap captures = xs.flatMap captures
  | [] => rfl
  | x :: xs => by simp [mapLiteralsAll, captures_mapLiterals x, captures_mapLiteralsAll xs]

end

mutual

theorem paths_mapLiterals : ∀ x : Node, (x.mapLiterals f).paths = x.paths
  | .sequence items => by simp [mapLiterals, paths, pathsThrough_mapLiteralsAll items]
  | .alternation branches => by simp [mapLiterals, paths, pathsInto_mapLiteralsAll branches]
  | .group true _ _ body => by simp [mapLiterals, paths, paths_mapLiterals body]
  | .group false _ _ body => by simp [mapLiterals, paths, paths_mapLiterals body]
  | .repetition _ body => by simp [mapLiterals, paths, paths_mapLiterals body]
  | .lookaround _ _ body => by simp [mapLiterals, paths, paths_mapLiterals body]
  | .literal _ | .characterClass _ | .anchor _ | .backreference _ => by simp [mapLiterals, paths]

theorem pathsThrough_mapLiteralsAll :
    ∀ xs : List Node, pathsThrough (mapLiteralsAll f xs) = pathsThrough xs
  | [] => rfl
  | x :: xs => by
      simp [mapLiteralsAll, pathsThrough, paths_mapLiterals x, pathsThrough_mapLiteralsAll xs]

theorem pathsInto_mapLiteralsAll :
    ∀ xs : List Node, pathsInto (mapLiteralsAll f xs) = pathsInto xs
  | [] => rfl
  | x :: xs => by
      simp [mapLiteralsAll, pathsInto, paths_mapLiterals x, pathsInto_mapLiteralsAll xs]

end

theorem clash?_mapLiterals (scope : List String) (x : Node) :
    (x.mapLiterals f).clash? scope = none ↔ x.clash? scope = none := by
  rw [clash?_eq_none_iff, clash?_eq_none_iff, paths_mapLiterals]

end Node

/-! ## 3. The grammar -/

/-- The token with `f l` in place of the literal `l`. -/
def Token.mapLiterals (f : Literal → Literal) : Token → Token
  | .literal l => .literal (f l)
  | t => t

/-- The word with `f l` in place of the literal `l`. -/
def Word.mapLiterals (f : Literal → Literal) : Word → Word
  | .token t => .token (t.mapLiterals f)
  | .characterClass c => .characterClass c

/-- Only a literal becomes a literal, and any other word stays what it is. -/
theorem Word.mapLiterals_eq_iff {f : Literal → Literal} {w v : Word}
    (hv : ∀ l, v ≠ .token (.literal l)) : w.mapLiterals f = v ↔ w = v := by
  cases w with
  | characterClass c => rfl
  | token t =>
    cases t with
    | literal l =>
      constructor
      · intro e
        exact absurd e.symm (hv (f l))
      · intro e
        exact absurd e.symm (hv l)
    | _ => rfl

theorem Word.mapLiterals_eq_literal_iff {f : Literal → Literal} {w : Word} {l : Literal} :
    w.mapLiterals f = .token (.literal l) ↔ ∃ l', w = .token (.literal l') ∧ l = f l' := by
  cases w with
  | characterClass c => simp [mapLiterals]
  | token t => cases t <;> simp [mapLiterals, Token.mapLiterals, eq_comm]

namespace Grammar

variable {f : Literal → Literal}

mutual

theorem Atom.mapLiterals {n n' : Nat} {ws : List Word} {x : Node} :
    Atom n ws x n' → Atom n (ws.map (Word.mapLiterals f)) (x.mapLiterals f) n'
  | .literal n l => .literal n (f l)
  | .anchor n a => .anchor n a
  | .backreference n t => .backreference n t
  | .characterClass n c => .characterClass n c
  | .group head body => by
      simpa [Word.mapLiterals, Token.mapLiterals] using Atom.group head body.mapLiterals
termination_by structural h => h

theorem Piece.mapLiterals {n n' : Nat} {ws : List Word} {x : Node} :
    Piece n ws x n' → Piece n (ws.map (Word.mapLiterals f)) (x.mapLiterals f) n'
  | .once h => .once h.mapLiterals
  | .repeated q h hx => by
      simpa [Word.mapLiterals, Token.mapLiterals, Node.mapLiterals] using
        Piece.repeated q h.mapLiterals (by simpa using hx)
termination_by structural h => h

theorem Row.mapLiterals {n n' : Nat} {ws : List Word} {xs : List Node} :
    Row n ws xs n' → Row n (ws.map (Word.mapLiterals f)) (xs.map (Node.mapLiterals f)) n'
  | .nil n => .nil n
  | .cons h hs => by simpa using Row.cons h.mapLiterals hs.mapLiterals
termination_by structural h => h

theorem Choice.mapLiterals {n n' : Nat} {ws : List Word} {xs : List Node} :
    Choice n ws xs n' → Choice n (ws.map (Word.mapLiterals f)) (xs.map (Node.mapLiterals f)) n'
  | .one h => by simpa using Choice.one h.mapLiterals
  | .more h hs => by
      simpa [Word.mapLiterals, Token.mapLiterals] using Choice.more h.mapLiterals hs.mapLiterals
termination_by structural h => h

end

mutual

theorem Atom.of_mapLiterals {n n' : Nat} {vs : List Word} {y : Node} :
    Atom n vs y n' → ∀ ws, vs = ws.map (Word.mapLiterals f) →
      ∃ x, Atom n ws x n' ∧ y = x.mapLiterals f
  | .literal n l, ws, e => by
      obtain ⟨w, rfl, hw⟩ := List.map_eq_singleton_iff.mp e.symm
      obtain ⟨l', rfl, rfl⟩ := Word.mapLiterals_eq_literal_iff.mp hw
      exact ⟨_, .literal n l', rfl⟩
  | .anchor n a, ws, e => by
      obtain ⟨w, rfl, hw⟩ := List.map_eq_singleton_iff.mp e.symm
      obtain rfl := (Word.mapLiterals_eq_iff (by simp)).mp hw
      exact ⟨_, .anchor n a, rfl⟩
  | .backreference n t, ws, e => by
      obtain ⟨w, rfl, hw⟩ := List.map_eq_singleton_iff.mp e.symm
      obtain rfl := (Word.mapLiterals_eq_iff (by simp)).mp hw
      exact ⟨_, .backreference n t, rfl⟩
  | .characterClass n c, ws, e => by
      obtain ⟨w, rfl, hw⟩ := List.map_eq_singleton_iff.mp e.symm
      obtain rfl := (Word.mapLiterals_eq_iff (by simp)).mp hw
      exact ⟨_, .characterClass n c, rfl⟩
  | .group head body, ws, e => by
      obtain ⟨w, back, rfl, hw, hback⟩ := List.map_eq_cons_iff.mp e.symm
      obtain ⟨inner, last, rfl, hinner, hlast⟩ := List.map_eq_append_iff.mp hback
      obtain ⟨v, rfl, hv⟩ := List.map_eq_singleton_iff.mp hlast
      obtain rfl := (Word.mapLiterals_eq_iff (by simp)).mp hw
      obtain rfl := (Word.mapLiterals_eq_iff (by simp)).mp hv
      obtain ⟨xs, hxs, rfl⟩ := body.of_mapLiterals inner hinner.symm
      exact ⟨_, .group head hxs, by simp⟩
termination_by structural h => h

theorem Piece.of_mapLiterals {n n' : Nat} {vs : List Word} {y : Node} :
    Piece n vs y n' → ∀ ws, vs = ws.map (Word.mapLiterals f) →
      ∃ x, Piece n ws x n' ∧ y = x.mapLiterals f
  | .once h, ws, e => by
      obtain ⟨x, hx, rfl⟩ := h.of_mapLiterals ws e
      exact ⟨x, .once hx, rfl⟩
  | .repeated q h hy, ws, e => by
      obtain ⟨front, last, rfl, hfront, hlast⟩ := List.map_eq_append_iff.mp e.symm
      obtain ⟨w, rfl, hw⟩ := List.map_eq_singleton_iff.mp hlast
      obtain rfl := (Word.mapLiterals_eq_iff (by simp)).mp hw
      obtain ⟨x, hx, rfl⟩ := h.of_mapLiterals front hfront.symm
      exact ⟨_, .repeated q hx (by simpa using hy), rfl⟩
termination_by structural h => h

theorem Row.of_mapLiterals {n n' : Nat} {vs : List Word} {ys : List Node} :
    Row n vs ys n' → ∀ ws, vs = ws.map (Word.mapLiterals f) →
      ∃ xs, Row n ws xs n' ∧ ys = xs.map (Node.mapLiterals f)
  | .nil n, ws, e => by
      obtain rfl := List.map_eq_nil_iff.mp e.symm
      exact ⟨[], .nil n, rfl⟩
  | .cons h hs, ws, e => by
      obtain ⟨front, back, rfl, hfront, hback⟩ := List.map_eq_append_iff.mp e.symm
      obtain ⟨x, hx, rfl⟩ := h.of_mapLiterals front hfront.symm
      obtain ⟨xs, hxs, rfl⟩ := hs.of_mapLiterals back hback.symm
      exact ⟨x :: xs, .cons hx hxs, rfl⟩
termination_by structural h => h

theorem Choice.of_mapLiterals {n n' : Nat} {vs : List Word} {ys : List Node} :
    Choice n vs ys n' → ∀ ws, vs = ws.map (Word.mapLiterals f) →
      ∃ xs, Choice n ws xs n' ∧ ys = xs.map (Node.mapLiterals f)
  | .one h, ws, e => by
      obtain ⟨xs, hxs, rfl⟩ := h.of_mapLiterals ws e
      exact ⟨_, .one hxs, by simp⟩
  | .more h hs, ws, e => by
      obtain ⟨front, rest, rfl, hfront, hrest⟩ := List.map_eq_append_iff.mp e.symm
      obtain ⟨w, back, rfl, hw, hback⟩ := List.map_eq_cons_iff.mp hrest
      obtain rfl := (Word.mapLiterals_eq_iff (by simp)).mp hw
      obtain ⟨xs, hxs, rfl⟩ := h.of_mapLiterals front hfront.symm
      obtain ⟨ys, hys, rfl⟩ := hs.of_mapLiterals back hback.symm
      exact ⟨_, .more hxs hys, by simp⟩
termination_by structural h => h

end

end Grammar

variable {f : Literal → Literal} {n : Nat} {ws : List Word}

/-- **The exchanged words stand for the exchanged tree.** -/
theorem Derives.mapLiterals {x : Node} (h : Derives n ws x) :
    Derives n (ws.map (Word.mapLiterals f)) (x.mapLiterals f) := by
  obtain ⟨xs, n', hxs, rfl⟩ := h
  exact ⟨_, n', hxs.mapLiterals, by simp⟩

/-- **Exchanged words stand for nothing else.** -/
theorem Derives.of_mapLiterals {y : Node} (h : Derives n (ws.map (Word.mapLiterals f)) y) :
    ∃ x, Derives n ws x ∧ y = x.mapLiterals f := by
  obtain ⟨ys, n', hys, rfl⟩ := h
  obtain ⟨xs, hxs, rfl⟩ := hys.of_mapLiterals ws rfl
  exact ⟨_, ⟨xs, n', hxs, rfl⟩, by simp⟩

/-! ## 4. Readers -/

namespace Reader

variable {r r' : Reader}

/-- **Two texts whose words differ in their literals alone**: the one is accepted just if the other
    is, and the trees differ in these literals alone. -/
theorem parse_mapLiterals (hnaming : r'.naming = r.naming)
    (hwords : ∀ vs, Reads r'.rest vs [] ↔
      ∃ ws, Reads r.rest ws [] ∧ vs = ws.map (Word.mapLiterals f)) (y : Node) :
    r'.parse.1 = .ok y ↔ ∃ x, r.parse.1 = .ok x ∧ y = x.mapLiterals f := by
  simp only [parse_iff, hnaming]
  constructor
  · rintro ⟨vs, hvs, hy, hclash⟩
    obtain ⟨ws, hws, rfl⟩ := (hwords vs).mp hvs
    obtain ⟨x, hx, rfl⟩ := hy.of_mapLiterals
    exact ⟨x, ⟨ws, hws, hx, (Node.clash?_mapLiterals f _ x).mp hclash⟩, rfl⟩
  · rintro ⟨x, ⟨ws, hws, hx, hclash⟩, rfl⟩
    exact ⟨_, (hwords _).mpr ⟨ws, hws, rfl⟩, hx.mapLiterals,
      (Node.clash?_mapLiterals f _ x).mpr hclash⟩

/-- Trees with the same captures come with the same groups. -/
theorem groups_eq_of_captures {after after' : Reader} {x y : Node} (hnaming : r'.naming = r.naming)
    (hcaptures : y.captures = x.captures) (h : r.parse = (.ok x, after))
    (h' : r'.parse = (.ok y, after')) : after'.groups = after.groups := by
  obtain ⟨k, hindex, hnext, htable⟩ := parse_numbered h
  obtain ⟨k', hindex', hnext', htable'⟩ := parse_numbered h'
  have hk : k' = k := by
    have hlength := congrArg List.length (hindex'.symm.trans (hcaptures ▸ hnaming ▸ hindex))
    simpa using hlength
  simp only [groups, hnext, hnext', htable, htable', hk, hnaming, Node.named, hcaptures]

end Reader

end PatternDiagram
