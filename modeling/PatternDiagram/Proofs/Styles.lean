import PatternDiagram.Proofs.Legends

/-!
# The names in a drawing

A style sheet knows the shapes of a drawing by their names. A drawing uses no other names than those
of a fixed list, whatever the pattern:

* `Shape.Uses`: the names of a shape, and of all that is in it, are in a list;
* `Drawing.names`: the list;
* `Drawing.uses_node`: a tree is drawn with these names;
* `Drawing.uses_expression`: **so is an expression**.
-/

namespace PatternDiagram

/-! ## 1. Shapes -/

namespace Shape

variable {α : Type} {ns : List String}

/-- The names of a shape, and of all that is in it, are in the list. -/
def Uses (ns : List String) (s : Shape α) : Prop := ∀ name, some name ∈ s.styles → name ∈ ns

theorem mem_styles_group {style : Option String} {dx dy : α} {ss : List (Shape α)}
    {name : Option String} :
    name ∈ (group style dx dy ss).styles ↔ name = style ∨ ∃ s ∈ ss, name ∈ s.styles := by
  rw [styles, all, List.map_cons, List.mem_cons, allOf_eq_flatMap, List.map_flatMap,
    List.mem_flatMap]
  rfl

@[simp] theorem uses_group {style : Option String} {dx dy : α} {ss : List (Shape α)} :
    (group style dx dy ss).Uses ns ↔
      (∀ name, style = some name → name ∈ ns) ∧ ∀ s ∈ ss, s.Uses ns := by
  simp only [Uses, mem_styles_group]
  constructor
  · intro h
    exact ⟨fun name hname => h name (.inl hname.symm),
      fun s hs name hname => h name (.inr ⟨s, hs, hname⟩)⟩
  · rintro ⟨hown, hinside⟩ name (hname | ⟨s, hs, hname⟩)
    · exact hown name hname.symm
    · exact hinside s hs name hname

@[simp] theorem uses_rect {style : String} {x y width height rx : α} :
    (rect style x y width height rx).Uses ns ↔ style ∈ ns := by
  simp [Uses, styles, all, style?]

@[simp] theorem uses_circle {style : String} {cx cy r : α} :
    (circle style cx cy r).Uses ns ↔ style ∈ ns := by
  simp [Uses, styles, all, style?]

@[simp] theorem uses_text {style : String} {x y width height : α} {content : String} :
    (text style x y width height content).Uses ns ↔ style ∈ ns := by
  simp [Uses, styles, all, style?]

@[simp] theorem uses_path {style : String} {commands : List (PathCommand α)} :
    (path style commands).Uses ns ↔ style ∈ ns := by
  simp [Uses, styles, all, style?]

@[simp] theorem uses_rail {x₁ x₂ y : α} : (rail x₁ x₂ y).Uses ns ↔ "connector" ∈ ns := uses_path

variable [Coordinate α]

@[simp] theorem uses_plain {style : String} {ss : List (Shape α)} :
    (plain style ss).Uses ns ↔ style ∈ ns ∧ ∀ s ∈ ss, s.Uses ns := by
  simp [plain]

/-- A shape keeps its names when it is moved. -/
@[simp] theorem uses_translate {dx dy : α} {s : Shape α} :
    (s.translate dx dy).Uses ns ↔ s.Uses ns := by
  cases s <;> simp [translate]

end Shape

/-! ## 2. Layouts -/

section

variable {α : Type} [Coordinate α] {ns : List String}

/-- Things that are moved, each by its own way, keep their names. -/
theorem uses_zipWith (dx dy : α → Placed α → α) {ps : List (Placed α)}
    (h : ∀ p ∈ ps, p.shape.Uses ns) (starts : List α) :
    ∀ p ∈ List.zipWith (fun start p => p.translate (dx start p) (dy start p)) starts ps,
      p.shape.Uses ns := by
  intro p hp
  rw [List.mem_iff_getElem] at hp
  obtain ⟨i, hi, rfl⟩ := hp
  rw [List.getElem_zipWith]
  exact Shape.uses_translate.mpr (h _ (List.getElem_mem _))

theorem uses_spaceHorizontally (padding : α) {ps : List (Placed α)}
    (h : ∀ p ∈ ps, p.shape.Uses ns) : ∀ p ∈ spaceHorizontally padding ps, p.shape.Uses ns :=
  uses_zipWith _ _ h _

theorem uses_spaceVertically (padding : α) {ps : List (Placed α)}
    (h : ∀ p ∈ ps, p.shape.Uses ns) : ∀ p ∈ spaceVertically padding ps, p.shape.Uses ns :=
  uses_zipWith _ _ h _

/-! ## 3. The parts of a drawing -/

namespace Drawing

/-- **The names in drawings.** -/
def names : List String :=
  ["label", "label-text", "box", "caption", "connector", "sequence", "alternation", "fan-out",
    "fan-in", "arrow", "connector skip", "connector loop", "repeat-label", "repeat", "marker",
    "begin", "end", "flags", "diagram", "subexp", "lookaround positive", "lookaround negative",
    "literal", "any-character", "escape", "charset", "charset negated", "anchor", "backref",
    "backref unresolved"]

theorem uses_labelBox (c : Config α) {style : String} (hstyle : style ∈ names) (text : String) :
    (labelBox c style text).shape.Uses names := by
  have hparts : "label" ∈ names ∧ "label-text" ∈ names := by decide
  simp [labelBox, Placed.ofShape, hstyle, hparts]

theorem uses_captionBox (c : Config α) {style : String} (hstyle : style ∈ names)
    (caption : Option String) {content : Placed α} (h : content.shape.Uses names) :
    (captionBox c style caption content).shape.Uses names := by
  have hparts : "caption" ∈ names ∧ "box" ∈ names ∧ "connector" ∈ names := by decide
  cases caption <;> simp [captionBox, captionText, Placed.ofShape, hstyle, hparts, h]

omit [Coordinate α] in
theorem uses_rails (ps : List (Placed α)) : ∀ s ∈ rails ps, s.Uses names := by
  have hrail : "connector" ∈ names := by decide
  fun_induction rails ps with
  | case1 p q ps ih => exact List.forall_mem_cons.mpr ⟨Shape.uses_rail.mpr hrail, ih⟩
  | case2 => simp

theorem uses_row (c : Config α) {ps : List (Placed α)} (h : ∀ p ∈ ps, p.shape.Uses names) :
    (row c ps).shape.Uses names := by
  have hname : "sequence" ∈ names := by decide
  have hplaced := uses_spaceHorizontally c.sequencePadding h
  unfold row
  generalize spaceHorizontally c.sequencePadding ps = placed at hplaced
  dsimp only
  split
  · rw [Placed.ofShape, Shape.uses_plain, List.forall_mem_append, List.forall_mem_map]
    exact ⟨hname, uses_rails placed, hplaced⟩
  · simp [Placed.ofShape, hname]

theorem uses_stack (c : Config α) {ps : List (Placed α)} (h : ∀ p ∈ ps, p.shape.Uses names) :
    ∀ p ∈ stack c ps, p.shape.Uses names := by
  rw [stack, List.forall_mem_map]
  exact fun p hp =>
    Shape.uses_translate.mpr (uses_spaceVertically c.alternationPadding h p hp)

theorem uses_column (c : Config α) {ps : List (Placed α)} (h : ∀ p ∈ ps, p.shape.Uses names) :
    (column c ps).shape.Uses names := by
  have hparts : "alternation" ∈ names ∧ "fan-out" ∈ names ∧ "fan-in" ∈ names ∧
      "connector" ∈ names := by decide
  have hstack := uses_stack c h
  simpa [column, Placed.ofShape, hparts] using hstack

theorem uses_repeated (c : Config α) (q : Quantifier) {body : Placed α}
    (h : body.shape.Uses names) : (repeated c q body).shape.Uses names := by
  have hparts : "repeat" ∈ names ∧ "connector" ∈ names ∧ "connector skip" ∈ names ∧
      "connector loop" ∈ names ∧ "arrow" ∈ names ∧ "repeat-label" ∈ names := by decide
  obtain ⟨hrepeat, hrail, hskip, hloop, harrow, hlabel⟩ := hparts
  -- The ways around the body and back to its front may be there or not.
  have hways (condition : Bool) (a b : Shape α) (ha : a.Uses names) (hb : b.Uses names) :
      ∀ s ∈ if condition then [a, b] else [], s.Uses names := by
    cases condition <;> simp [ha, hb]
  simp only [repeated, Placed.ofShape, Shape.uses_plain, List.forall_mem_append,
    List.forall_mem_singleton, List.forall_mem_map]
  refine ⟨hrepeat, ⟨⟨⟨hways _ _ _ ?_ ?_, hways _ _ _ ?_ ?_⟩, hways _ _ _ ?_ ?_⟩,
    fun label _ => ?_⟩, ?_⟩
  · exact Shape.uses_rail.mpr hrail
  · exact Shape.uses_rail.mpr hrail
  · exact Shape.uses_path.mpr hskip
  · exact Shape.uses_path.mpr harrow
  · exact Shape.uses_path.mpr hloop
  · exact Shape.uses_path.mpr harrow
  · exact Shape.uses_text.mpr hlabel
  · exact Shape.uses_translate.mpr h

theorem uses_marker {style : String} (h : style ∈ names) :
    (marker style : Placed α).shape.Uses names := by
  have hname : "marker" ∈ names := by decide
  simp [marker, Placed.ofShape, hname, h]

theorem uses_framed (c : Config α) (flags : List String) {content : Placed α}
    (h : content.shape.Uses names) : (framed c flags content).shape.Uses names := by
  have hparts : "diagram" ∈ names ∧ "flags" ∈ names := by decide
  let items : List (Placed α) := [marker "begin", content, marker "end"]
  have hitems : ∀ p ∈ items, p.shape.Uses names := by
    simp only [items, List.forall_mem_cons]
    exact ⟨uses_marker (by decide), h, uses_marker (by decide), List.forall_mem_nil _⟩
  have hplaced := uses_spaceHorizontally c.sequencePadding hitems
  unfold framed
  generalize spaceHorizontally c.sequencePadding items = placed at hplaced
  simp only [Placed.ofShape, Shape.uses_plain, List.forall_mem_append, List.forall_mem_map]
  refine ⟨hparts.1, ⟨uses_rails placed, hplaced⟩, ?_⟩
  split
  · simp
  · exact List.forall_mem_singleton.mpr (Shape.uses_text.mpr hparts.2)

/-! ## 4. Drawings -/

theorem literalStyle_mem (l : Literal) : literalStyle l ∈ names := by
  cases l <;> simp [literalStyle, names]

theorem uses_leaf (s : Setting α) {style : String} (hstyle : style ∈ names) (text : String) :
    (leaf s style text : Script (Placed α)).result.shape.Uses names := by
  rw [leaf, Script.result_bind, Script.result_pure]
  exact uses_labelBox s.config hstyle text

theorem uses_reference (s : Setting α) (t : Target) :
    (reference s t : Script (Placed α)).result.shape.Uses names := by
  unfold reference
  by_cases h : s.groups.resolves t = true
  · rw [if_pos h]
    exact uses_leaf s (by decide) _
  · rw [if_neg h, Script.result_bind]
    exact uses_leaf s (by decide) _

theorem uses_charRun (s : Setting α) (cs : List Char) :
    ∀ p ∈ (charRun s cs : Script (List (Placed α))).result, p.shape.Uses names := by
  cases cs with
  | nil => simp [charRun]
  | cons c cs => simpa [charRun] using uses_labelBox s.config (by decide) _

mutual

/-- **A tree is drawn with these names.** -/
theorem uses_node (s : Setting α) : ∀ x : Node,
    (node s x : Script (Placed α)).result.shape.Uses names
  | .sequence items => by simpa [node] using uses_row s.config (uses_nodesInRow s [] items)
  | .alternation branches => by simpa [node] using uses_column s.config (uses_nodes s branches)
  | .group _ name index body => by
      simpa [node] using uses_captionBox s.config (by decide) (groupCaption index name)
        (uses_node s body)
  | .lookaround direction polarity body => by
      have hstyle : lookaroundStyle polarity ∈ names := by cases polarity <;> decide
      simpa [node] using uses_captionBox s.config hstyle
        (some (lookaroundCaption direction polarity)) (uses_node s body)
  | .repetition q body => by simpa [node] using uses_repeated s.config q (uses_node s body)
  | .characterClass c => by
      rw [node]
      exact uses_leaf s (by split <;> decide) _
  | .literal l => by
      rw [node]
      exact uses_leaf s (literalStyle_mem l) _
  | .anchor a => by
      rw [node]
      exact uses_leaf s (by decide) _
  | .backreference t => by
      rw [node]
      exact uses_reference s t

theorem uses_nodes (s : Setting α) : ∀ xs : List Node,
    ∀ p ∈ (nodes s xs : Script (List (Placed α))).result, p.shape.Uses names
  | [] => by simp [nodes]
  | x :: xs => by
      simpa [nodes] using And.intro (uses_node s x) (uses_nodes s xs)

theorem uses_nodesInRow (s : Setting α) (run : List Char) : ∀ xs : List Node,
    ∀ p ∈ (nodesInRow s run xs : Script (List (Placed α))).result, p.shape.Uses names
  | [] => by
      rw [nodesInRow]
      exact uses_charRun s run
  | x :: xs => by
      rcases x.char_or_not with ⟨c, rfl⟩ | hother
      · rw [nodesInRow]
        exact uses_nodesInRow s (run ++ [c]) xs
      · rw [nodesInRow_cons s run hother]
        simp only [Script.result_bind, Script.result_pure, List.forall_mem_append,
          List.forall_mem_cons]
        exact ⟨uses_charRun s run, uses_node s x, uses_nodesInRow s [] xs⟩

end

/-- **So is an expression.** -/
theorem uses_expression (c : Config α) (e : Expression) :
    (expression c e : Script (Placed α)).result.shape.Uses names := by
  simpa [expression] using uses_framed c e.flags.names (uses_node ⟨c, e.groups⟩ e.root)

end Drawing

end

end PatternDiagram
