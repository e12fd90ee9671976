import PatternDiagram.Proofs.Measures

/-!
# What a measured box holds

The box that a shape measures is compared with all that stands in the shape, wherever it is.

* `Shape.Occurs`: **what stands in a shape, and where**: the offsets of the groups around it, added
  up;
* `Shape.mem_leaves_iff`: the leaves of a shape are all that stands in it and is no group;
* `Shape.Fills`, `Shape.Reaches`: the points of a leaf's own box or path, and all such points of a
  shape;
* `Shape.measure_encloses`: **the measured box moves with the shape, and is the smallest that holds
  what the shape reaches**.
-/

namespace PatternDiagram.Shape

/-! ## 1. What stands in a shape -/

/-- **What stands in a shape, and where.** The coordinates of `t` count from a point that is found
    by adding up the offsets of all groups around it. -/
inductive Occurs (t : Shape Rat) : Rat × Rat → Shape Rat → Prop where
  | here : Occurs t (0, 0) t
  | inside {style : Option String} {dx dy : Rat} {children : List (Shape Rat)} {s : Shape Rat}
      {origin : Rat × Rat} (hmem : s ∈ children) (h : Occurs t origin s) :
      Occurs t (shift dx dy origin) (.group style dx dy children)

theorem IsLeaf.all_eq {s : Shape Rat} (h : s.IsLeaf) : s.all = [s] := by
  cases s with
  | group style dx dy children => exact absurd rfl (h style dx dy children)
  | _ => rfl

theorem mem_all_group {t : Shape Rat} {style : Option String} {dx dy : Rat}
    {children : List (Shape Rat)} : t ∈ (group style dx dy children).all ↔
      t = .group style dx dy children ∨ ∃ s ∈ children, t ∈ s.all := by
  rw [all, allOf_eq_flatMap, List.mem_cons, List.mem_flatMap]

/-- Whoever goes through a shape comes by all that stands in it, and by nothing else. -/
theorem mem_all_iff {t s : Shape Rat} : t ∈ s.all ↔ ∃ origin, Occurs t origin s := by
  constructor
  · intro h
    induction s using inductionOn with
    | leaf s hs =>
      rw [hs.all_eq] at h
      rw [List.mem_singleton.mp h]
      exact ⟨_, .here⟩
    | group style dx dy children ih =>
      rcases mem_all_group.mp h with rfl | ⟨s, hs, hmem⟩
      · exact ⟨_, .here⟩
      · obtain ⟨origin, hoccurs⟩ := ih s hs hmem
        exact ⟨_, .inside hs hoccurs⟩
  · rintro ⟨origin, h⟩
    induction h with
    | here => cases t <;> exact List.mem_cons_self
    | inside hmem _ ih => exact mem_all_group.mpr (.inr ⟨_, hmem, ih⟩)

/-- **The leaves of a shape** are all that stands in it and is no group, each moved to where it
    stands. -/
theorem mem_leaves_iff {leaf s : Shape Rat} : leaf ∈ s.leaves ↔
    ∃ t origin, Occurs t origin s ∧ t.IsLeaf ∧ leaf = t.translate origin.1 origin.2 := by
  constructor
  · intro h
    induction s using inductionOn generalizing leaf with
    | leaf s hs =>
      rw [hs.leaves_eq] at h
      rw [List.mem_singleton.mp h]
      exact ⟨s, (0, 0), .here, hs, (translate_zero s).symm⟩
    | group style dx dy children ih =>
      obtain ⟨s, hs, below, hbelow, rfl⟩ := mem_leaves_group.mp h
      obtain ⟨t, origin, hoccurs, ht, rfl⟩ := ih s hs hbelow
      exact ⟨t, shift dx dy origin, .inside hs hoccurs, ht, translate_translate ..⟩
  · rintro ⟨t, origin, h, ht, rfl⟩
    induction h with
    | here =>
      rw [translate_zero, ht.leaves_eq]
      exact List.mem_singleton.mpr rfl
    | inside hmem _ ih =>
      exact mem_leaves_group.mpr ⟨_, hmem, _, ih, (translate_translate ..).symm⟩

/-- The measured points of a shape are those of what stands in it. -/
theorem mem_points_iff {s : Shape Rat} {p : Rat × Rat} : p ∈ s.points ↔
    ∃ t origin q, Occurs t origin s ∧ t.IsLeaf ∧ q ∈ t.points ∧ p = shift origin.1 origin.2 q := by
  rw [points_eq_leaves, List.mem_flatMap]
  constructor
  · rintro ⟨leaf, hleaf, hp⟩
    obtain ⟨t, origin, hoccurs, ht, rfl⟩ := mem_leaves_iff.mp hleaf
    rw [points_translate] at hp
    obtain ⟨q, hq, rfl⟩ := List.mem_map.mp hp
    exact ⟨t, origin, q, hoccurs, ht, hq, rfl⟩
  · rintro ⟨t, origin, q, hoccurs, ht, hq, rfl⟩
    refine ⟨_, mem_leaves_iff.mpr ⟨t, origin, hoccurs, ht, rfl⟩, ?_⟩
    rw [points_translate]
    exact List.mem_map_of_mem hq

/-! ## 2. What a leaf fills -/

/-- There is something of the shape itself to be measured: it is a rectangle, a circle, a text, or a
    path with a command. -/
def Solid : Shape Rat → Prop
  | .group .. => False
  | .path _ commands => commands ≠ []
  | _ => True

/-- The sizes of the shape itself are not negative. -/
def Sized : Shape Rat → Prop
  | .rect _ _ _ width height _ => 0 ≤ width ∧ 0 ≤ height
  | .text _ _ _ width height _ => 0 ≤ width ∧ 0 ≤ height
  | .circle _ _ _ r => 0 ≤ r
  | _ => True

/-- The point belongs to the shape itself: to the box of a rectangle or a text, to the square around
    a circle, or to the points and control points of a path. -/
def Fills : Shape Rat → Rat × Rat → Prop
  | .rect _ x y width height _, p => RawBox.Holds { x, y, width, height } p
  | .text _ x y width height _, p => RawBox.Holds { x, y, width, height } p
  | .circle _ cx cy r, p => (cx - r ≤ p.1 ∧ p.1 ≤ cx + r) ∧ cy - r ≤ p.2 ∧ p.2 ≤ cy + r
  | .path _ commands, p => ∃ command ∈ commands, p ∈ command.named
  | .group .., _ => False

/-- **The points that a shape reaches**: all points of what stands in it, counted from where the
    shape itself counts from. -/
def Reaches (s : Shape Rat) (p : Rat × Rat) : Prop :=
  ∃ t origin q, Occurs t origin s ∧ t.Fills q ∧ p = shift origin.1 origin.2 q

theorem Fills.isLeaf {t : Shape Rat} {q : Rat × Rat} (h : t.Fills q) : t.IsLeaf := by
  rintro style dx dy children rfl
  exact h

theorem Solid.isLeaf {t : Shape Rat} (h : t.Solid) : t.IsLeaf := by
  rintro style dx dy children rfl
  exact h

theorem Solid.points_ne_nil {t : Shape Rat} (h : t.Solid) : t.points ≠ [] := by
  cases t with
  | group style dx dy children => exact absurd h id
  | path style commands =>
    rw [points_path]
    cases commands with
    | nil => exact absurd rfl h
    | cons command commands => cases command <;> simp [PathCommand.named]
  | _ => simp [corners]

theorem holds_square {cx cy r : Rat} {p : Rat × Rat} :
    RawBox.Holds { x := cx - r, y := cy - r, width := 2 * r, height := 2 * r } p ↔
      (cx - r ≤ p.1 ∧ p.1 ≤ cx + r) ∧ cy - r ≤ p.2 ∧ p.2 ≤ cy + r := by
  have hedge (c : Rat) : c - r + 2 * r = c + r := by ring
  simp only [RawBox.Holds, hedge]

/-- The measured points of a leaf belong to it, if its sizes are not negative. -/
theorem fills_of_mem_points {t : Shape Rat} {q : Rat × Rat} (ht : t.IsLeaf) (hsized : t.Sized)
    (hq : q ∈ t.points) : t.Fills q := by
  cases t with
  | group style dx dy children => exact absurd rfl (ht style dx dy children)
  | rect style x y width height rx =>
    rw [points_rect] at hq
    exact RawBox.holds_corners hsized.1 hsized.2 q hq
  | text style x y width height content =>
    rw [points_text] at hq
    exact RawBox.holds_corners hsized.1 hsized.2 q hq
  | circle style cx cy r =>
    have hr : 0 ≤ 2 * r := mul_nonneg (by norm_num) hsized
    rw [points_circle] at hq
    exact holds_square.mp (RawBox.holds_corners hr hr q hq)
  | path style commands =>
    rw [points_path, List.mem_flatMap] at hq
    exact hq

/-- What holds two opposite corners holds the box between them. -/
theorem holds_of_corners {x y width height dx dy : Rat} {b : RawBox Rat} {q : Rat × Rat}
    (h : ∀ p ∈ corners x y width height, b.Holds (shift dx dy p))
    (hq : RawBox.Holds { x, y, width, height } q) : b.Holds (shift dx dy q) := by
  obtain ⟨⟨⟨hleft, -⟩, htop, -⟩, ⟨-, hright⟩, -, hbottom⟩ := forall_corners.mp h
  obtain ⟨⟨hx, hx2⟩, hy, hy2⟩ := hq
  simp only [shift] at hleft htop hright hbottom
  refine ⟨⟨?_, ?_⟩, ?_, ?_⟩ <;> simp only [shift] <;> linarith

/-- A box that holds the measured points of a leaf holds all that belongs to it, wherever the leaf
    is moved. -/
theorem Fills.holds {t : Shape Rat} {b : RawBox Rat} {dx dy : Rat} {q : Rat × Rat}
    (hq : t.Fills q) (h : ∀ p ∈ t.points, b.Holds (shift dx dy p)) : b.Holds (shift dx dy q) := by
  cases t with
  | group style dx dy children => exact absurd hq id
  | rect style x y width height rx =>
    rw [points_rect] at h
    exact holds_of_corners h hq
  | text style x y width height content =>
    rw [points_text] at h
    exact holds_of_corners h hq
  | circle style cx cy r =>
    rw [points_circle] at h
    exact holds_of_corners h (holds_square.mpr hq)
  | path style commands =>
    rw [points_path] at h
    exact h q (List.mem_flatMap.mpr hq)

/-! ## 3. The measured box -/

/-- **A box holds what a shape reaches** just if it holds the measured points. -/
theorem holds_reaches_iff {s : Shape Rat} {b : RawBox Rat}
    (hsized : ∀ t ∈ s.all, t.Sized) :
    (∀ p, s.Reaches p → b.Holds p) ↔ ∀ p ∈ s.points, b.Holds p := by
  constructor
  · intro h p hp
    obtain ⟨t, origin, q, hoccurs, ht, hq, rfl⟩ := mem_points_iff.mp hp
    have hsize : t.Sized := hsized t (mem_all_iff.mpr ⟨origin, hoccurs⟩)
    exact h _ ⟨t, origin, q, hoccurs, fills_of_mem_points ht hsize hq, rfl⟩
  · rintro h p ⟨t, origin, q, hoccurs, hfills, rfl⟩
    refine hfills.holds fun p hp => h _ (mem_points_iff.mpr ?_)
    exact ⟨t, origin, p, hoccurs, hfills.isLeaf, hp, rfl⟩

/-- **The measured box** of a shape in which there is anything to measure. It moves with the shape.
    And if no size is negative, it holds all that the shape reaches, and every box that does so lies
    around it. -/
theorem measure_encloses {s : Shape Rat} (h : ∃ t ∈ s.all, t.Solid) :
    (∀ dx dy, (s.translate dx dy).measure =
      { x := s.measure.x + dx, y := s.measure.y + dy
        width := s.measure.width, height := s.measure.height }) ∧
    ((∀ t ∈ s.all, t.Sized) →
      (∀ p, s.Reaches p → s.measure.Holds p) ∧
      ∀ b : RawBox Rat, (∀ p, s.Reaches p → b.Holds p) →
        (b.x ≤ s.measure.x ∧ s.measure.x + s.measure.width ≤ b.x + b.width) ∧
          b.y ≤ s.measure.y ∧ s.measure.y + s.measure.height ≤ b.y + b.height) := by
  have hpoints : s.points ≠ [] := by
    obtain ⟨t, ht, hsolid⟩ := h
    obtain ⟨origin, hoccurs⟩ := mem_all_iff.mp ht
    obtain ⟨q, hq⟩ := List.exists_mem_of_ne_nil _ hsolid.points_ne_nil
    exact List.ne_nil_of_mem
      (mem_points_iff.mpr ⟨t, origin, q, hoccurs, hsolid.isLeaf, hq, rfl⟩)
  have htight := tight_measure hpoints
  refine ⟨measure_translate hpoints, ?_⟩
  intro hsized
  refine ⟨(holds_reaches_iff hsized).mpr fun p hp => htight.holds hp, ?_⟩
  intro b hb
  have hheld := (holds_reaches_iff hsized).mp hb
  have hcorners : ∀ p ∈ corners s.measure.x s.measure.y s.measure.width s.measure.height,
      b.Holds p := by
    intro p hp
    refine htight.subset hheld ?_
    exact RawBox.holds_corners htight.width_nonneg htight.height_nonneg p hp
  obtain ⟨hfirst, hsecond⟩ := forall_corners.mp hcorners
  exact ⟨⟨hfirst.1.1, hsecond.1.2⟩, hfirst.2.1, hsecond.2.2⟩

/-- A text beside a group that is moved, with a circle and a curve in it. -/
def nested : Shape Rat :=
  .group none 1 2 [.text "label" 0 0 4 5 "a",
    .group none 10 20 [.circle "begin" 0 0 3, .path "connector" [.move 0 0, .curve 5 9 7 0]]]

/-- The circle reaches furthest up, and the control point of the curve furthest down. -/
theorem measure_encloses_of_nested :
    (∃ t ∈ nested.all, t.Solid) ∧ (∀ t ∈ nested.all, t.Sized) ∧
      nested.measure = { x := 1, y := 2, width := 17, height := 29 } ∧
      (nested.translate (-1) (1 / 2)).measure =
        { x := 1 + -1, y := 2 + 1 / 2, width := 17, height := 29 } ∧
      (∀ p, nested.Reaches p → nested.measure.Holds p) ∧ nested.Reaches (16, 31) := by
  have hsolid : ∃ t ∈ nested.all, t.Solid :=
    ⟨_, List.mem_cons_of_mem _ List.mem_cons_self, trivial⟩
  have hsized : ∀ t ∈ nested.all, t.Sized := by simp [nested, all, allOf, Sized]
  have hmeasure : nested.measure = { x := 1, y := 2, width := 17, height := 29 } := by
    decide +kernel
  obtain ⟨hmoved, hheld⟩ := measure_encloses hsolid
  refine ⟨hsolid, hsized, hmeasure, ?_, (hheld hsized).1, ?_⟩
  · rw [hmoved, hmeasure]
  · have hcurve : Fills (.path "connector" [.move 0 0, .curve 5 9 7 0]) (5, 9) :=
      ⟨_, List.mem_cons_of_mem _ List.mem_cons_self, List.mem_cons_self⟩
    refine ⟨_, _, _, .inside (List.mem_cons_of_mem _ List.mem_cons_self)
      (.inside (List.mem_cons_of_mem _ List.mem_cons_self) .here), hcurve, ?_⟩
    norm_num [shift]

end PatternDiagram.Shape
