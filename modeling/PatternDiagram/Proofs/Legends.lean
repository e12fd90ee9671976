import Mathlib.Data.List.SplitBy
import PatternDiagram.Proofs.Walks

/-!
# What is written in a drawing

A tree says what is to be written in its drawing, and in which order; where it is written is another
matter:

* `Shape.texts`: the texts that a walk through a shape meets. Moving a shape, spacing shapes out and
  linking them by rails leaves them alone;
* `Node.legend`: the texts that belong to a tree, without any picture. Neighbouring characters of a
  sequence are one text, as many of them as there are; `Expression.legend`: the flags come last;
* `Drawing.texts_node`: **what is written in the drawing of a tree is its legend**;
* `Drawing.drawing_shows_legend`: the same for whoever draws a tree or an expression, if nobody
  calls it off.
-/

namespace PatternDiagram

/-! ## 1. Texts in shapes -/

namespace Shape

variable {α : Type}

/-- What is written in a shape itself. -/
def content? : Shape α → Option String
  | .text _ _ _ _ _ content => some content
  | _ => none

/-- The texts of a shape, in the order in which a walk through it meets them. -/
def texts (s : Shape α) : List String := s.all.filterMap content?

theorem texts_allOf (ss : List (Shape α)) : (allOf ss).filterMap content? = ss.flatMap texts := by
  rw [allOf_eq_flatMap, List.filterMap_flatMap]
  rfl

@[simp] theorem texts_group (style : Option String) (dx dy : α) (ss : List (Shape α)) :
    (group style dx dy ss).texts = ss.flatMap texts := by
  rw [texts, all, List.filterMap_cons_none rfl, texts_allOf]

@[simp] theorem texts_rect (style : String) (x y width height rx : α) :
    (rect style x y width height rx).texts = [] := rfl

@[simp] theorem texts_circle (style : String) (cx cy r : α) :
    (circle style cx cy r).texts = [] := rfl

@[simp] theorem texts_text (style : String) (x y width height : α) (content : String) :
    (text style x y width height content).texts = [content] := rfl

@[simp] theorem texts_path (style : String) (commands : List (PathCommand α)) :
    (path style commands).texts = [] := rfl

@[simp] theorem texts_rail (x₁ x₂ y : α) : (rail x₁ x₂ y).texts = [] := rfl

/-- Nothing is written on connectors. -/
theorem texts_paths {β : Type} (style : String) (commands : β → List (PathCommand α))
    (bs : List β) : (bs.map fun b => path style (commands b)).flatMap texts = [] := by
  induction bs with
  | nil => rfl
  | cons b bs ih => rw [List.map_cons, List.flatMap_cons, texts_path, ih, List.nil_append]

variable [Coordinate α]

@[simp] theorem texts_plain (style : String) (ss : List (Shape α)) :
    (plain style ss).texts = ss.flatMap texts := texts_group ..

/-- A shape that is moved says the same. -/
@[simp] theorem texts_translate (dx dy : α) (s : Shape α) :
    (s.translate dx dy).texts = s.texts := by
  cases s with
  | group style gx gy ss => rw [translate, texts_group, texts_group]
  | rect style x y width height rx => rfl
  | circle style cx cy r => rfl
  | text style x y width height content => rfl
  | path style commands => rfl

end Shape

/-! ## 2. Texts in a layout -/

section

variable {α : Type} [Coordinate α]

namespace Placed

omit [Coordinate α] in
/-- The texts of a drawing. -/
def texts (p : Placed α) : List String := p.shape.texts

omit [Coordinate α] in
@[simp] theorem texts_shape (p : Placed α) : p.shape.texts = p.texts := rfl

@[simp] theorem texts_ofShape (s : Shape α) (axis : Option (Axis α)) :
    (ofShape s axis).texts = s.texts := rfl

@[simp] theorem texts_translate (dx dy : α) (p : Placed α) : (p.translate dx dy).texts = p.texts :=
  p.shape.texts_translate dx dy

omit [Coordinate α] in
@[simp] theorem flatMap_texts_shapes (ps : List (Placed α)) :
    (ps.map shape).flatMap Shape.texts = ps.flatMap texts := by
  rw [List.flatMap_map]
  rfl

/-- Drawings that are moved, each by its own way, say the same. -/
theorem flatMap_texts_zipWith (dx dy : α → Placed α → α) :
    ∀ (starts : List α) (ps : List (Placed α)), starts.length = ps.length →
      (List.zipWith (fun start p => p.translate (dx start p) (dy start p)) starts ps).flatMap
        texts = ps.flatMap texts
  | [], [], _ => rfl
  | start :: starts, p :: ps, h => by
      have hlength : starts.length = ps.length := Nat.succ.inj h
      rw [List.zipWith_cons_cons, List.flatMap_cons, texts_translate,
        flatMap_texts_zipWith dx dy starts ps hlength, List.flatMap_cons]

end Placed

/-- Everything begins somewhere. -/
theorem length_offsets (padding start : α) (sizes : List α) :
    (offsets padding start sizes).length = sizes.length := by
  induction sizes generalizing start with
  | nil => rfl
  | cons size sizes ih => rw [offsets, List.length_cons, ih, List.length_cons]

@[simp] theorem texts_spaceHorizontally (padding : α) (ps : List (Placed α)) :
    (spaceHorizontally padding ps).flatMap Placed.texts = ps.flatMap Placed.texts := by
  refine Placed.flatMap_texts_zipWith _ _ _ ps ?_
  rw [length_offsets, List.length_map, List.length_map]

@[simp] theorem texts_spaceVertically (padding : α) (ps : List (Placed α)) :
    (spaceVertically padding ps).flatMap Placed.texts = ps.flatMap Placed.texts := by
  refine Placed.flatMap_texts_zipWith _ _ _ ps ?_
  rw [length_offsets, List.length_map, List.length_map]

namespace Drawing

/-! ## 3. Texts in the parts of a drawing -/

omit [Coordinate α] in
@[simp] theorem texts_rails (ps : List (Placed α)) : (rails ps).flatMap Shape.texts = [] := by
  fun_induction rails ps with
  | case1 p q ps ih => rw [List.flatMap_cons, Shape.texts_rail, ih, List.nil_append]
  | case2 => rfl

@[simp] theorem texts_labelBox (c : Config α) (style text : String) :
    (labelBox c style text).texts = [text] := by
  simp [labelBox]

/-- A caption comes before what it stands above. -/
@[simp] theorem texts_captionBox (c : Config α) (style : String) (caption : Option String)
    (content : Placed α) :
    (captionBox c style caption content).texts = caption.toList ++ content.texts := by
  cases caption with
  | none => simp [captionBox]
  | some caption => simp [captionBox, captionText]

@[simp] theorem texts_row (c : Config α) (ps : List (Placed α)) :
    (row c ps).texts = ps.flatMap Placed.texts := by
  have hplaced : (spaceHorizontally c.sequencePadding ps).flatMap Placed.texts = _ :=
    texts_spaceHorizontally c.sequencePadding ps
  unfold row
  generalize spaceHorizontally c.sequencePadding ps = placed at hplaced
  rw [← hplaced]
  cases placed with
  | nil => simp
  | cons first rest =>
    obtain ⟨last, hlast⟩ : ∃ last, (first :: rest).getLast? = some last :=
      ⟨_, List.getLast?_eq_some_getLast (List.cons_ne_nil first rest)⟩
    simp only [List.head?_cons, hlast, Placed.texts_ofShape, Shape.texts_plain,
      List.flatMap_append, texts_rails, Placed.flatMap_texts_shapes, List.nil_append]

@[simp] theorem texts_stack (c : Config α) (ps : List (Placed α)) :
    (stack c ps).flatMap Placed.texts = ps.flatMap Placed.texts := by
  simp [stack, List.flatMap_map]

@[simp] theorem texts_column (c : Config α) (ps : List (Placed α)) :
    (column c ps).texts = ps.flatMap Placed.texts := by
  simp only [column, Placed.texts_ofShape, Shape.texts_plain, List.flatMap_cons, Shape.texts_paths,
    List.nil_append, Placed.flatMap_texts_shapes, texts_stack]

/-- The words of a repetition come before what is repeated. -/
@[simp] theorem texts_repeated (c : Config α) (q : Quantifier) (body : Placed α) :
    (repeated c q body).texts = q.label.toList ++ body.texts := by
  -- The ways around the body and back to its front say nothing, whether they are there or not.
  have hways (condition : Bool) (a b : Shape α) (ha : a.texts = []) (hb : b.texts = []) :
      (if condition then [a, b] else []).flatMap Shape.texts = [] := by
    cases condition with
    | false => rfl
    | true => simp [ha, hb]
  have hwords (shape : RepeatShape) (cb : Box α) :
      (q.label.toList.map (repeatText c shape cb)).flatMap Shape.texts = q.label.toList := by
    cases q.label with
    | none => rfl
    | some label => simp [repeatText]
  simp only [repeated, Placed.texts_ofShape, Shape.texts_plain, List.flatMap_append, hwords]
  rw [hways _ _ _ rfl rfl, hways _ _ _ rfl rfl, hways _ _ _ rfl rfl]
  simp

@[simp] theorem texts_marker (style : String) : (marker style : Placed α).texts = [] := by
  simp [marker]

/-- The flags come after everything else. -/
@[simp] theorem texts_framed (c : Config α) (flags : List String) (content : Placed α) :
    (framed c flags content).texts =
      content.texts ++ if flags.isEmpty then [] else ["Flags: " ++ ", ".intercalate flags] := by
  simp only [framed, Placed.texts_ofShape, Shape.texts_plain, List.flatMap_append, texts_rails,
    Placed.flatMap_texts_shapes, texts_spaceHorizontally, List.flatMap_cons, List.flatMap_nil,
    texts_marker, List.nil_append, List.append_nil]
  split
  · rfl
  · simp [flagsText]

end Drawing

end

/-! ## 4. Legends -/

/-- What an item of a sequence says: a character that may come together with its neighbours, or
    texts that stand for themselves. -/
inductive Saying where
  | char (c : Char)
  | texts (ts : List String)
  deriving DecidableEq, Repr

namespace Saying

/-- The character, if it is one. -/
def char? : Saying → Option Char
  | .char c => some c
  | .texts _ => none

/-- Both are characters, so that they come together if they are neighbours. -/
def meets (a b : Saying) : Bool := a.char?.isSome && b.char?.isSome

/-- What is written for neighbours that come together: several characters, or something that stands
    for itself. -/
def written : List Saying → List String
  | .char c :: others => [quotedRun (c :: others.filterMap char?)]
  | .texts ts :: _ => ts
  | [] => []

/-- What is written for the items of a sequence. Each run of characters is one text, and no run
    could be any longer. -/
def legend (ss : List Saying) : List String := (ss.splitBy meets).flatMap written

end Saying

namespace Node

mutual

/-- **The texts that belong to a tree**, in order. A group has a caption if it has a number, and a
    lookaround always has one. -/
def legend : Node → List String
  | .sequence items => Saying.legend (sayings items)
  | .alternation branches => legendAll branches
  | .group _ none (some n) body => ("group #" ++ toString n) :: body.legend
  | .group _ (some name) (some n) body =>
      ("group #" ++ toString n ++ ": " ++ name) :: body.legend
  | .group _ _ none body => body.legend
  | .lookaround .ahead .positive body => "positive lookahead" :: body.legend
  | .lookaround .ahead .negative body => "negative lookahead" :: body.legend
  | .lookaround .behind .positive body => "positive lookbehind" :: body.legend
  | .lookaround .behind .negative body => "negative lookbehind" :: body.legend
  | .repetition q body => q.label.toList ++ body.legend
  | .characterClass c => [c.label]
  | .literal l => [l.label]
  | .anchor .start => ["Start of line"]
  | .anchor .finish => ["End of line"]
  | .anchor .wordBoundary => ["word boundary"]
  | .anchor .nonWordBoundary => ["non-word boundary"]
  | .backreference (.index n) => ["back reference #" ++ toString n]
  | .backreference (.name name) => ["back reference \"" ++ name ++ "\""]

/-- The texts that belong to several trees, one tree after the other. -/
def legendAll : List Node → List String
  | [] => []
  | x :: xs => x.legend ++ legendAll xs

/-- What the items of a sequence say. -/
def sayings : List Node → List Saying
  | [] => []
  | .literal (.char c) :: xs => .char c :: sayings xs
  | x :: xs => .texts x.legend :: sayings xs

end

/-- A group has the caption that is drawn above it. -/
theorem legend_group (capturing : Bool) (name : Option String) (index : Option Nat) (body : Node) :
    (group capturing name index body).legend =
      (Drawing.groupCaption index name).toList ++ body.legend := by
  cases index with
  | none => simp [legend, Drawing.groupCaption]
  | some n => cases name <;> simp [legend, Drawing.groupCaption, Numeral.decimal_eq_toString]

/-- A lookaround has the caption that is drawn above it. -/
theorem legend_lookaround (direction : Direction) (polarity : Polarity) (body : Node) :
    (lookaround direction polarity body).legend =
      Drawing.lookaroundCaption direction polarity :: body.legend := by
  cases direction <;> cases polarity <;> simp [legend, Drawing.lookaroundCaption]

theorem legend_anchor (a : Anchor) : (anchor a).legend = [a.label] := by
  cases a <;> simp [legend, Anchor.label]

theorem legend_backreference (t : Target) :
    (backreference t).legend = [Drawing.referenceText t] := by
  cases t <;>
    simp [legend, Drawing.referenceText, Target.label, Numeral.decimal_eq_toString,
      ← String.append_assoc]

/-- An item that is no plain character stands for itself. -/
theorem sayings_cons {x : Node} (h : ∀ c, x ≠ .literal (.char c)) (xs : List Node) :
    sayings (x :: xs) = .texts x.legend :: sayings xs := by
  rw [sayings]
  exact h

end Node

/-- The texts that belong to an expression: those of its tree, and the flags if there are any. -/
def Expression.legend (e : Expression) : List String :=
  e.root.legend ++
    if e.flags.isEmpty then [] else ["Flags: " ++ ", ".intercalate e.flags.names]

/-- The flags are named just if there are any. -/
theorem Flags.isEmpty_names (f : Flags) : f.names.isEmpty = f.isEmpty := by
  obtain ⟨hasIndices, global, ignoreCase, multiline, dotAll, unicode, unicodeSets, sticky⟩ := f
  revert hasIndices global ignoreCase multiline dotAll unicode unicodeSets sticky
  decide

namespace Saying

/-- Characters that come together are one text. -/
theorem legend_chars (cs : List Char) :
    legend (cs.map .char) = if cs.isEmpty then [] else [quotedRun cs] := by
  cases cs with
  | nil => rfl
  | cons c cs =>
    have hne : (c :: cs).map Saying.char ≠ [] := List.cons_ne_nil _ _
    have hchain : ((c :: cs).map Saying.char).IsChain fun a b => meets a b = true := by
      rw [List.isChain_map]
      exact (List.pairwise_of_forall fun _ _ => rfl).isChain
    have hchars : (cs.map Saying.char).filterMap char? = cs := by
      rw [List.filterMap_map]
      exact List.filterMap_some
    rw [legend, List.splitBy_of_isChain hne hchain, List.flatMap_singleton, List.map_cons, written,
      hchars]
    rfl

/-- **What stands for itself** ends the run of characters before it, and the next run begins
    anew. -/
theorem legend_append_texts (cs : List Char) (ts : List String) (ss : List Saying) :
    legend (cs.map .char ++ .texts ts :: ss) = legend (cs.map .char) ++ (ts ++ legend ss) := by
  have hbefore : (cs.map Saying.char ++ .texts ts :: ss).splitBy meets =
      (cs.map Saying.char).splitBy meets ++ (.texts ts :: ss).splitBy meets :=
    List.splitBy_append_cons ss fun x _ => Bool.and_false _
  have hbehind : (.texts ts :: ss).splitBy meets = [.texts ts] :: ss.splitBy meets := by
    have hapart : ∀ x ∈ [Saying.texts ts].getLast?, ∀ y ∈ ss.head?, meets x y = false := by
      intro x hx y _
      obtain rfl : .texts ts = x := Option.some.inj hx
      rfl
    exact List.splitBy_append hapart
  rw [legend, hbefore, hbehind, List.flatMap_append, List.flatMap_cons]
  rfl

end Saying

/-! ## 5. Drawings -/

namespace Drawing

variable {α : Type} [Coordinate α]

theorem texts_leaf (s : Setting α) (style text : String) :
    (leaf s style text : Script (Placed α)).result.texts = [text] := by
  rw [leaf, Script.result_bind, Script.result_pure, texts_labelBox]

/-- A reference says where it leads, even if it leads nowhere. -/
theorem texts_reference (s : Setting α) (t : Target) :
    (reference s t : Script (Placed α)).result.texts = [referenceText t] := by
  unfold reference
  by_cases h : s.groups.resolves t = true
  · rw [if_pos h]
    exact texts_leaf s _ _
  · rw [if_neg h, Script.result_bind]
    exact texts_leaf s _ _

theorem texts_charRun (s : Setting α) (cs : List Char) :
    (charRun s cs : Script (List (Placed α))).result.flatMap Placed.texts =
      Saying.legend (cs.map .char) := by
  rw [Saying.legend_chars]
  cases cs with
  | nil => rfl
  | cons c cs => simp [charRun]

mutual

/-- **What is written in the drawing of a tree** is its legend. -/
theorem texts_node (s : Setting α) : ∀ x : Node,
    (node s x : Script (Placed α)).result.texts = x.legend
  | .sequence items => by
      rw [Node.legend, ← List.nil_append (Node.sayings items)]
      simpa [node] using texts_nodesInRow s [] items
  | .alternation branches => by simp [node, Node.legend, texts_nodes s branches]
  | .group _ _ _ body => by simp [node, Node.legend_group, texts_node s body]
  | .lookaround _ _ body => by simp [node, Node.legend_lookaround, texts_node s body]
  | .repetition _ body => by simp [node, Node.legend, texts_node s body]
  | .characterClass _ => by rw [node, Node.legend, texts_leaf]
  | .literal _ => by rw [node, Node.legend, texts_leaf]
  | .anchor _ => by rw [node, Node.legend_anchor, texts_leaf]
  | .backreference t => by rw [node, Node.legend_backreference, texts_reference]

theorem texts_nodes (s : Setting α) : ∀ xs : List Node,
    (nodes s xs : Script (List (Placed α))).result.flatMap Placed.texts = Node.legendAll xs
  | [] => rfl
  | x :: xs => by simp [nodes, Node.legendAll, texts_node s x, texts_nodes s xs]

/-- The characters that have not been drawn yet stand before all the others. -/
theorem texts_nodesInRow (s : Setting α) (run : List Char) : ∀ xs : List Node,
    (nodesInRow s run xs : Script (List (Placed α))).result.flatMap Placed.texts =
      Saying.legend (run.map .char ++ Node.sayings xs)
  | [] => by rw [nodesInRow, texts_charRun, Node.sayings, List.append_nil]
  | x :: xs => by
      rcases x.char_or_not with ⟨c, rfl⟩ | hother
      · rw [nodesInRow, texts_nodesInRow s (run ++ [c]) xs, Node.sayings]
        simp
      · have hothers : (nodesInRow s [] xs : Script (List (Placed α))).result.flatMap Placed.texts =
            Saying.legend (Node.sayings xs) := texts_nodesInRow s [] xs
        rw [nodesInRow_cons s run hother, Node.sayings_cons hother, Saying.legend_append_texts]
        simp only [Script.result_bind, Script.result_pure, List.flatMap_append, List.flatMap_cons,
          texts_charRun, texts_node s x, hothers]

end

/-- **What is written in the drawing of an expression** is its legend. -/
theorem texts_expression (c : Config α) (e : Expression) :
    (expression c e : Script (Placed α)).result.texts = e.legend := by
  simp only [expression, Script.result_bind, Script.result_pure, texts_framed, texts_node,
    Flags.isEmpty_names, Expression.legend]

/-- A single character is drawn the same way alone and as a run of its own. -/
theorem charRun_singleton {m : Type → Type} [Walker m] [LawfulMonad m] (s : Setting α) (c : Char) :
    (charRun s [c] : m (List (Placed α))) = (do return [← node s (.literal (.char c))]) := by
  simp [charRun, node, leaf, literalStyle, Literal.label]

/-- **A drawing that nobody calls off shows the legend**: a walk through the drawing of a tree meets
    the texts that belong to the tree, and a walk through the drawing of an expression meets them
    and then the flags. No character is drawn in another way because it stands alone. -/
theorem drawing_shows_legend (s : Setting α) (x : Node) (flags : Flags) {w : Walk}
    (hw : w.ticket.cancelled = false) :
    (∃ placed w', (node s x : Walking (Placed α)).run w = .ok placed w' ∧
      placed.shape.texts = x.legend) ∧
    (∃ placed w',
      (expression s.config ⟨x, flags, s.groups⟩ : Walking (Placed α)).run w = .ok placed w' ∧
      placed.shape.texts = (⟨x, flags, s.groups⟩ : Expression).legend) ∧
    ∀ c : Char, (charRun s [c] : Walking (List (Placed α))) =
      (do return [← node s (.literal (.char c))]) := by
  let e : Expression := ⟨x, flags, s.groups⟩
  refine ⟨⟨_, _, node_yields s x w hw, ?_⟩, ⟨_, _, draws_result s.config e w hw, ?_⟩, ?_⟩
  · exact texts_node s x
  · exact texts_expression s.config e
  · exact charRun_singleton s

/-- The run `ab` is one text, and what is repeated comes between it and the run `d`. A caption comes
    before what stands below it, and a group without a number has none. -/
theorem drawing_shows_legend_of_runs :
    let digits : CharacterClass := ⟨true, [.range '0' '9', .escape .word]⟩
    let x : Node := .sequence [.anchor .start, .literal (.char 'a'), .literal (.char 'b'),
      .repetition ⟨2, none, false⟩ (.literal (.char 'c')), .literal (.char 'd'),
      .group true (some "year") (some 1) (.alternation
        [.characterClass digits, .group false none none (.literal .any)]),
      .group true none (some 2) (.lookaround .behind .negative (.backreference (.index 1))),
      .lookaround .ahead .positive (.backreference (.name "year")), .anchor .wordBoundary,
      .literal (.set .digit), .literal (.escaped '\t' .tab), .literal (.char 'e')]
    ∃ placed w',
      (expression Config.standard ⟨x, { global := true, sticky := true }, {}⟩ :
        Walking (Placed Rat)).run {} = .ok placed w' ∧
      placed.shape.texts =
        ["Start of line", "\"ab\"", "2+ times (lazy)", "\"c\"", "\"d\"", "group #1: year",
          "[^0-9\\w]", "any character", "group #2", "negative lookbehind", "back reference #1",
          "positive lookahead", "back reference \"year\"", "word boundary", "digit",
          "tab (0x09)", "\"e\"", "Flags: global, sticky"] := by
  intro digits x
  obtain ⟨-, ⟨placed, w', hrun, htexts⟩, -⟩ :=
    drawing_shows_legend (⟨Config.standard, {}⟩ : Setting Rat) x { global := true, sticky := true }
      (w := {}) rfl
  refine ⟨placed, w', hrun, ?_⟩
  rw [htexts]
  decide

end Drawing

end PatternDiagram
