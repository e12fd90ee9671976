import PatternDiagram.Proofs.Spacing

/-!
# Where things are put

A row and a column say where each of their things begins, and on which line all of them are. Over
exact numbers, and wherever the things have been before:

* `Spacing.getElem?_zipWith_offsets`: each thing begins behind the sizes of all before it, and as
  many paddings;
* `Box.SameForm`: a box of the same size, with its axis at the same place in it;
* `Spacing.Aligned`: **one after the other from nought on, and all on one line**: the greatest of
  nought and of the lines on which they have been;
* `Spacing.spacing_aligns_iff`: **rows and columns are aligned in this way**. Their line is the
  greatest of the lines alone just if one of these is not below nought;
* `Spacing.spacing_above`: a single thing above nought and on the left of it leaves its line.
-/

namespace PatternDiagram

/-! ## 1. Boxes -/

namespace Box

/-- **The boxes have the same form**: they are of one size, and their axes are at the same place,
    counted from the upper left corner. -/
structure SameForm (b d : Box Rat) : Prop where
  width : d.width = b.width
  height : d.height = b.height
  left : d.ax - d.x = b.ax - b.x
  right : d.ax2 - d.x = b.ax2 - b.x
  level : d.ay - d.y = b.ay - b.y

/-- A box keeps its form when it is moved. -/
theorem sameForm_translate (b : Box Rat) (dx dy : Rat) : b.SameForm (b.translate dx dy) :=
  ⟨rfl, rfl, add_sub_add_right_eq_sub .., add_sub_add_right_eq_sub ..,
    add_sub_add_right_eq_sub ..⟩

end Box

open Boxed

/-- A thing keeps its form when it is moved. -/
theorem Boxed.Moved.sameForm {ι : Type} [Boxed ι Rat] [LawfulBoxed ι] {i j : ι} (h : Moved i j) :
    (box i).SameForm (box j) := by
  obtain ⟨dx, dy, rfl⟩ := h
  rw [LawfulBoxed.box_translate]
  exact (box i).sameForm_translate dx dy

namespace Spacing

/-! ## 2. One after the other -/

/-- **Each thing begins behind all that come before it**, and behind a padding for each of them. -/
theorem getElem?_zipWith_offsets {ι : Type} {move : Rat → ι → ι} {size : ι → Rat}
    (padding start : Rat) (items : List ι) (k : Nat) :
    (List.zipWith move (offsets padding start (items.map size)) items)[k]? =
      items[k]?.map (move (start + ((items.take k).map fun i => size i + padding).sum)) := by
  induction items generalizing start k with
  | nil => rfl
  | cons i items ih =>
    cases k with
    | zero => simp [offsets]
    | succ k => simp [offsets, ih, add_assoc]

variable {ι : Type} [Boxed ι Rat]

/-- The lines on which several things are. -/
def lines (line : Box Rat → Rat) (items : List ι) : Set Rat :=
  {y | y ∈ items.map fun i => line (box i)}

/-- **The things have been put one after the other**, and all on one line. Each of them is moved and
    keeps its form; it begins behind the sizes of all before it, and a padding for each of them. The
    line is the greatest of nought and of the lines on which the things have been. -/
structure Aligned (near size line : Box Rat → Rat) (padding : Rat) (items placed : List ι) :
    Prop where
  length_eq : placed.length = items.length
  begins : ∀ k i, items[k]? = some i → ∃ p, placed[k]? = some p ∧
    near (box p) = ((items.take k).map fun j => size (box j) + padding).sum ∧
    Moved i p ∧ (box i).SameForm (box p)
  level : ∀ p ∈ placed, IsGreatest (insert 0 (lines line items)) (line (box p))

variable {near size line : Box Rat → Rat} {padding : Rat} {items placed : List ι}

/-- What is put down one by one, each where its turn is, and on the line, is aligned. -/
theorem aligned_of_offsets [LawfulBoxed ι] {move : Rat → ι → ι}
    (hmoved : ∀ start i, Moved i (move start i))
    (hnear : ∀ start i, near (box (move start i)) = start)
    (hline : ∀ start i, line (box (move start i)) = greatestOf (items.map fun i => line (box i)))
    (hplaced : placed =
      List.zipWith move (offsets padding 0 (items.map fun i => size (box i))) items) :
    Aligned near size line padding items placed := by
  subst hplaced
  refine ⟨?_, fun k i hi => ?_, ?_⟩
  · exact (forall₂_zipWith_offsets hmoved padding 0 items).length_eq.symm
  · rw [getElem?_zipWith_offsets, hi, zero_add]
    exact ⟨_, rfl, hnear _ i, hmoved _ i, (hmoved _ i).sameForm⟩
  · refine forall_zipWith_offsets (fun start i => ?_) padding 0 items
    rw [hline]
    exact isGreatest_insert_greatestOf _

/-- The line is the greatest of the lines alone just if one of these is not below nought. -/
theorem Aligned.isGreatest_iff (h : Aligned near size line padding items placed)
    (hne : items ≠ []) : (∀ p ∈ placed, IsGreatest (lines line items) (line (box p))) ↔
      ∃ i ∈ items, 0 ≤ line (box i) := by
  have hgreatest (p : ι) (hp : p ∈ placed) :
      line (box p) = greatestOf (items.map fun i => line (box i)) :=
    (h.level p hp).unique (isGreatest_insert_greatestOf _)
  have hlines : (∃ y ∈ items.map fun i => line (box i), 0 ≤ y) ↔ ∃ i ∈ items, 0 ≤ line (box i) := by
    simp
  rw [← hlines, ← isGreatest_greatestOf_iff]
  constructor
  · intro hall
    obtain ⟨p, hp⟩ : ∃ p, p ∈ placed := by
      refine List.exists_mem_of_ne_nil _ fun hnil => hne ?_
      rw [← List.length_eq_zero_iff, ← h.length_eq, hnil, List.length_nil]
    rw [← hgreatest p hp]
    exact hall p hp
  · intro hall p hp
    rw [hgreatest p hp]
    exact hall

variable [LawfulBoxed ι]

theorem aligned_spaceHorizontally (padding : Rat) (items : List ι) :
    Aligned Box.x Box.width Box.ay padding items (spaceHorizontally padding items) :=
  aligned_of_offsets (moved_intoRow _) (x_intoRow _) (ay_intoRow _)
    (spaceHorizontally_eq padding items)

theorem aligned_spaceVertically (padding : Rat) (items : List ι) :
    Aligned Box.y Box.height Box.cx padding items (spaceVertically padding items) :=
  aligned_of_offsets (moved_intoColumn _) (y_intoColumn _) (cx_intoColumn _)
    (spaceVertically_eq padding items)

/-! ## 3. Rows and columns -/

/-- **Rows and columns.** Whatever is put into a row begins, from the left to the right, behind the
    widths of all before it and a padding for each of them; whatever is put into a column begins,
    from the top to the bottom, behind their heights. All axes of a row are on one line, and all
    centres of a column: on the greatest of the lines on which they have been if one of these is not
    below nought, and else on nought itself. -/
theorem spacing_aligns_iff (padding : Rat) {items : List ι} (hne : items ≠ []) :
    (Aligned Box.x Box.width Box.ay padding items (spaceHorizontally padding items) ∧
      ((∀ p ∈ spaceHorizontally padding items,
          IsGreatest (lines Box.ay items) (box p).ay) ↔ ∃ i ∈ items, 0 ≤ (box i).ay)) ∧
    Aligned Box.y Box.height Box.cx padding items (spaceVertically padding items) ∧
      ((∀ p ∈ spaceVertically padding items,
          IsGreatest (lines Box.cx items) (box p).cx) ↔ ∃ i ∈ items, 0 ≤ (box i).cx) := by
  have hrow := aligned_spaceHorizontally padding items
  have hcolumn := aligned_spaceVertically padding items
  exact ⟨⟨hrow, hrow.isGreatest_iff hne⟩, hcolumn, hcolumn.isGreatest_iff hne⟩

/-- Of two boxes one is above nought and on the left of it. -/
theorem spacing_aligns_iff_of_two :
    let items : List (Box Rat) := [⟨-20, -10, 4, 4, -20, -16, -8⟩, ⟨1, 2, 30, 10, 1, 31, 7⟩]
    (∃ p, (spaceHorizontally 5 items)[1]? = some p ∧ p.x = 9 ∧ p.width = 30) ∧
    (∀ p ∈ spaceHorizontally 5 items, IsGreatest (lines Box.ay items) p.ay) ∧
    ∀ p ∈ spaceVertically 5 items, IsGreatest (lines Box.cx items) p.cx := by
  intro items
  have hlow : (⟨1, 2, 30, 10, 1, 31, 7⟩ : Box Rat) ∈ items := by simp [items]
  obtain ⟨⟨hrow, hlevel⟩, -, hcentre⟩ := spacing_aligns_iff 5 (List.ne_nil_of_mem hlow)
  obtain ⟨p, hp, hx, -, hform⟩ := hrow.begins 1 _ rfl
  refine ⟨⟨p, hp, hx.trans ?_, hform.width⟩, hlevel.mpr ⟨_, hlow, ?_⟩, hcentre.mpr ⟨_, hlow, ?_⟩⟩
  · decide +kernel
  · decide +kernel
  · decide +kernel

/-- A box above nought and on the left of it leaves the only line there has been: in a row its axis
    is moved to nought, and in a column its centre. -/
theorem spacing_above :
    let items : List (Box Rat) := [⟨-20, -10, 4, 4, -20, -16, -8⟩]
    (∀ p ∈ spaceHorizontally 5 items, p.ay = 0 ∧ ¬ IsGreatest (lines Box.ay items) p.ay) ∧
    ∀ p ∈ spaceVertically 5 items, p.cx = 0 ∧ ¬ IsGreatest (lines Box.cx items) p.cx := by
  intro items
  -- Each line is the only one there has been.
  have hlines (line : Box Rat → Rat) (hline : line ⟨-20, -10, 4, 4, -20, -16, -8⟩ < 0) :
      ¬ IsGreatest (lines line items) 0 := by
    rintro ⟨hmem, -⟩
    have hzero : (0 : Rat) = line ⟨-20, -10, 4, 4, -20, -16, -8⟩ := List.mem_singleton.mp hmem
    exact absurd hzero hline.ne'
  have hrow : ∀ p ∈ spaceHorizontally 5 items, p.ay = 0 := by decide +kernel
  have hcolumn : ∀ p ∈ spaceVertically 5 items, p.cx = 0 := by decide +kernel
  refine ⟨fun p hp => ⟨hrow p hp, ?_⟩, fun p hp => ⟨hcolumn p hp, ?_⟩⟩
  · rw [hrow p hp]
    exact hlines Box.ay (by decide +kernel)
  · rw [hcolumn p hp]
    exact hlines Box.cx (by decide +kernel)

end Spacing

end PatternDiagram
