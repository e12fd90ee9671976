import Mathlib.Data.List.Chain
import Mathlib.Data.List.Forall2
import PatternDiagram.Proofs.Measures

/-!
# Rows and columns

Things that have a box are moved next to each other or on top of each other. Over exact numbers this
comes to what it is meant to:

* `Boxed.Moved`: a thing, moved somewhere. Moving it twice is moving it once;
* `Spacing.Row`, `Spacing.Column`: several things in a row, and on top of each other;
* `Spacing.row_spaceHorizontally`, `Spacing.column_spaceVertically`: **this is how things are spaced
  out**, whatever they are;
* `Spacing.Row.pairwise`, `Spacing.Column.pairwise`: **no two of them overlap**, even if they are
  not neighbours.
-/

namespace PatternDiagram

open Coordinate (ofNat)

/-! ## 1. The greatest -/

theorem greatestOf_rat (values : List Rat) : greatestOf values = values.foldl max 0 := by
  have hmax : (Coordinate.greatest : Rat → Rat → Rat) = max :=
    funext fun a => funext fun b => Coordinate.greatest_rat a b
  rw [greatestOf, hmax, Coordinate.ofNat_rat, Nat.cast_zero]

/-- **The greatest of nought and the values** is what its name says. -/
theorem isGreatest_insert_greatestOf (values : List Rat) :
    IsGreatest (insert 0 {x | x ∈ values}) (greatestOf values) := by
  rw [greatestOf_rat]
  induction values using List.reverseRecOn with
  | nil => simp
  | append_singleton values x ih =>
    have hset : insert 0 {y | y ∈ values ++ [x]} = insert x (insert 0 {y | y ∈ values}) := by
      ext y
      simp only [List.mem_append, List.mem_singleton, Set.mem_insert_iff, Set.mem_ofPred_eq]
      tauto
    rw [List.foldl_append, hset]
    show IsGreatest _ (max (values.foldl max 0) x)
    rw [max_comm]
    exact ih.insert x

theorem greatestOf_nonneg (values : List Rat) : 0 ≤ greatestOf values :=
  (isGreatest_insert_greatestOf values).2 (Set.mem_insert 0 _)

/-- It is the greatest of the values alone if one of them is not below nought, and else it is none
    of them. -/
theorem isGreatest_greatestOf_iff {values : List Rat} :
    IsGreatest {x | x ∈ values} (greatestOf values) ↔ ∃ x ∈ values, 0 ≤ x := by
  obtain ⟨hmem, hbound⟩ := isGreatest_insert_greatestOf values
  have hvalues : greatestOf values ∈ upperBounds {x | x ∈ values} :=
    fun x hx => hbound (Set.mem_insert_of_mem 0 hx)
  constructor
  · intro h
    exact ⟨_, h.1, greatestOf_nonneg values⟩
  · rintro ⟨x, hx, hnonneg⟩
    refine ⟨?_, hvalues⟩
    rcases hmem with hzero | hmem
    · -- Nought is the greatest, so the value that is not below it is nought as well.
      have hle : x ≤ 0 := hzero ▸ hvalues hx
      rw [hzero, ← le_antisymm hle hnonneg]
      exact hx
    · exact hmem

/-! ## 2. Moves -/

/-- Things whose box moves with them, however often they are moved. -/
class LawfulBoxed (ι : Type) [Boxed ι Rat] : Prop where
  box_translate (dx dy : Rat) (i : ι) :
    Boxed.box (Boxed.translate dx dy i) = (Boxed.box i).translate dx dy
  translate_translate (dx dy ex ey : Rat) (i : ι) :
    Boxed.translate ex ey (Boxed.translate dx dy i) = Boxed.translate (dx + ex) (dy + ey) i

theorem Box.translate_translate (dx dy ex ey : Rat) (b : Box Rat) :
    (b.translate dx dy).translate ex ey = b.translate (dx + ex) (dy + ey) := by
  simp only [translate, add_assoc]

instance : LawfulBoxed (Box Rat) where
  box_translate _ _ _ := rfl
  translate_translate dx dy ex ey b := b.translate_translate dx dy ex ey

instance : LawfulBoxed (Placed Rat) where
  box_translate _ _ _ := rfl
  translate_translate dx dy ex ey p :=
    congrArg₂ Placed.mk (p.shape.translate_translate dx dy ex ey)
      (p.box.translate_translate dx dy ex ey)

/-- A drawing that stays where it is has been moved by nothing. -/
theorem Placed.translate_zero (p : Placed Rat) : p.translate 0 0 = p := by
  have hbox : p.box.translate 0 0 = p.box := by simp only [Box.translate, add_zero]
  exact congrArg₂ Placed.mk p.shape.translate_zero hbox

section Moved

variable {ι : Type} [Boxed ι Rat]

/-- **The thing, moved** somewhere. -/
def Boxed.Moved (i j : ι) : Prop := ∃ dx dy, j = Boxed.translate dx dy i

variable [LawfulBoxed ι] {i j k : ι}

/-- Two moves are one. -/
theorem Boxed.Moved.trans (h : Moved i j) (h' : Moved j k) : Moved i k := by
  obtain ⟨dx, dy, rfl⟩ := h
  obtain ⟨ex, ey, rfl⟩ := h'
  exact ⟨_, _, LawfulBoxed.translate_translate dx dy ex ey i⟩

theorem Boxed.Moved.width_eq (h : Moved i j) : (box j).width = (box i).width := by
  obtain ⟨dx, dy, rfl⟩ := h
  rw [LawfulBoxed.box_translate, Box.width_translate]

theorem Boxed.Moved.height_eq (h : Moved i j) : (box j).height = (box i).height := by
  obtain ⟨dx, dy, rfl⟩ := h
  rw [LawfulBoxed.box_translate, Box.height_translate]

end Moved

/-! ## 3. One after the other -/

namespace Spacing

open Boxed

/-- What is on the right belongs to something on the left. -/
theorem exists_left_of_forall₂ {β γ : Type} {R : β → γ → Prop} {bs : List β} {cs : List γ}
    (h : List.Forall₂ R bs cs) : ∀ c ∈ cs, ∃ b ∈ bs, R b c := by
  induction h with
  | nil => exact fun _ hc => absurd hc List.not_mem_nil
  | cons hfirst _ ih =>
    refine List.forall_mem_cons.mpr ⟨⟨_, List.mem_cons_self, hfirst⟩, fun c hc => ?_⟩
    obtain ⟨b, hb, hrel⟩ := ih c hc
    exact ⟨b, List.mem_cons_of_mem _ hb, hrel⟩

/-- What is on the left belongs to something on the right. -/
theorem exists_right_of_forall₂ {β γ : Type} {R : β → γ → Prop} {bs : List β} {cs : List γ}
    (h : List.Forall₂ R bs cs) : ∀ b ∈ bs, ∃ c ∈ cs, R b c :=
  exists_left_of_forall₂ (R := flip R) h.flip

section

variable {ι : Type} {move : Rat → ι → ι} {near size : ι → Rat}

/-- What holds between a thing and what it is moved to holds of all of them. -/
theorem forall₂_zipWith_offsets {R : ι → ι → Prop} (h : ∀ start i, R i (move start i))
    (padding start : Rat) (items : List ι) :
    List.Forall₂ R items (List.zipWith move (offsets padding start (items.map size)) items) := by
  induction items generalizing start with
  | nil => exact .nil
  | cons i items ih => exact .cons (h start i) (ih _)

/-- What holds of a thing wherever it is moved holds of all of them. -/
theorem forall_zipWith_offsets {P : ι → Prop} (h : ∀ start i, P (move start i))
    (padding start : Rat) (items : List ι) :
    ∀ p ∈ List.zipWith move (offsets padding start (items.map size)) items, P p := by
  induction items generalizing start with
  | nil => exact fun _ hp => absurd hp List.not_mem_nil
  | cons i items ih => exact List.forall_mem_cons.mpr ⟨h start i, ih _⟩

/-- The first thing begins where the row begins. -/
theorem near_head_zipWith_offsets (hnear : ∀ start i, near (move start i) = start)
    (padding start : Rat) (items : List ι) :
    ∀ p ∈ (List.zipWith move (offsets padding start (items.map size)) items).head?,
      near p = start := by
  cases items with
  | nil => exact fun _ hp => by cases hp
  | cons i items =>
    intro p hp
    obtain rfl : move start i = p := Option.some.inj hp
    exact hnear start i

/-- **Each thing begins `padding` behind the end of the one before it.** -/
theorem isChain_zipWith_offsets (hnear : ∀ start i, near (move start i) = start)
    (hsize : ∀ start i, size (move start i) = size i) (padding start : Rat) (items : List ι) :
    (List.zipWith move (offsets padding start (items.map size)) items).IsChain
      fun p q => near q = near p + size p + padding := by
  induction items generalizing start with
  | nil => exact .nil
  | cons i items ih =>
    refine List.isChain_cons.mpr ⟨fun q hq => ?_, ih _⟩
    rw [near_head_zipWith_offsets hnear padding _ items q hq, hnear, hsize, add_assoc]

/-- Where each thing begins behind the end of the one before it, it begins behind all that come
    before it. -/
theorem pairwise_of_isChain {ps : List ι} {padding : Rat} (hpadding : 0 ≤ padding)
    (hsize : ∀ p ∈ ps, 0 ≤ size p)
    (h : ps.IsChain fun p q => near q = near p + size p + padding) :
    ps.Pairwise fun p q => near p + size p ≤ near q := by
  induction ps with
  | nil => exact .nil
  | cons p ps ih =>
    obtain ⟨hp, hps⟩ := List.forall_mem_cons.mp hsize
    obtain ⟨hhead, htail⟩ := List.isChain_cons.mp h
    have hothers := ih hps htail
    refine List.pairwise_cons.mpr ⟨fun q hq => ?_, hothers⟩
    -- The neighbour begins behind `p`, and everything else begins behind the neighbour.
    cases ps with
    | nil => cases hq
    | cons r rest =>
      have hr : near r = near p + size p + padding := hhead r rfl
      rcases List.mem_cons.mp hq with rfl | hq
      · linarith
      · have hrest := (List.pairwise_cons.mp hothers).1 q hq
        have := hps r List.mem_cons_self
        linarith

/-- Nothing begins before the row does. -/
theorem near_nonneg_of_isChain {ps : List ι} {padding : Rat} (hpadding : 0 ≤ padding)
    (hsize : ∀ p ∈ ps, 0 ≤ size p) (hhead : ∀ p ∈ ps.head?, near p = 0)
    (h : ps.IsChain fun p q => near q = near p + size p + padding) : ∀ p ∈ ps, 0 ≤ near p := by
  cases ps with
  | nil => exact fun _ hp => absurd hp List.not_mem_nil
  | cons first rest =>
    have hfirst : near first = 0 := hhead first rfl
    refine List.forall_mem_cons.mpr ⟨hfirst.ge, fun p hp => ?_⟩
    have hbehind := (List.pairwise_cons.mp (pairwise_of_isChain hpadding hsize h)).1 p hp
    have := hsize first List.mem_cons_self
    linarith

end

/-! ## 4. Rows and columns -/

variable {ι : Type} [Boxed ι Rat]

/-- **Things in a row**, in order: each is moved, `padding` lies between neighbours, and all axes
    are at one height. -/
structure Row (padding : Rat) (items placed : List ι) : Prop where
  moved : List.Forall₂ Moved items placed
  spaced : placed.IsChain fun p q => (box q).x = (box p).x2 + padding
  level : ∀ p ∈ placed, (box p).ay = greatestOf (items.map fun i => (box i).ay)

/-- **Things on top of each other**, in order: each is moved, `padding` lies between neighbours, the
    first one begins at nought, and all have one centre. -/
structure Column (padding : Rat) (items placed : List ι) : Prop where
  moved : List.Forall₂ Moved items placed
  spaced : placed.IsChain fun p q => (box q).y = (box p).y2 + padding
  top : ∀ p ∈ placed.head?, (box p).y = 0
  centred : ∃ center, ∀ p ∈ placed, (box p).cx = center

variable [LawfulBoxed ι] {padding : Rat} {items placed : List ι}

/-- Something that is put into a row: it begins at `start`, and its axis is on the baseline. -/
def intoRow (baseline start : Rat) (i : ι) : ι :=
  translate (start - (box i).x) (baseline - (box i).ay) i

/-- Something that is put into a column: it begins at `start`, and its centre is where the others
    have theirs. -/
def intoColumn (center start : Rat) (i : ι) : ι :=
  translate (center - (box i).cx) (start - (box i).y) i

omit [LawfulBoxed ι] in
theorem spaceHorizontally_eq (padding : Rat) (items : List ι) :
    spaceHorizontally padding items =
      List.zipWith (intoRow (greatestOf (items.map fun i => (box i).ay)))
        (offsets padding 0 (items.map fun i => (box i).width)) items := by
  simp only [spaceHorizontally, List.map_map]
  rfl

omit [LawfulBoxed ι] in
theorem spaceVertically_eq (padding : Rat) (items : List ι) :
    spaceVertically padding items =
      List.zipWith (intoColumn (greatestOf (items.map fun i => (box i).cx)))
        (offsets padding 0 (items.map fun i => (box i).height)) items := by
  simp only [spaceVertically, List.map_map]
  rfl

section

variable (baseline center start : Rat) (i : ι)

omit [LawfulBoxed ι] in
theorem moved_intoRow : Moved i (intoRow baseline start i) := ⟨_, _, rfl⟩

omit [LawfulBoxed ι] in
theorem moved_intoColumn : Moved i (intoColumn center start i) := ⟨_, _, rfl⟩

@[simp] theorem x_intoRow : (box (intoRow baseline start i)).x = start := by
  rw [intoRow, LawfulBoxed.box_translate]
  exact add_sub_cancel _ _

@[simp] theorem ay_intoRow : (box (intoRow baseline start i)).ay = baseline := by
  rw [intoRow, LawfulBoxed.box_translate]
  exact add_sub_cancel _ _

@[simp] theorem y_intoColumn : (box (intoColumn center start i)).y = start := by
  rw [intoColumn, LawfulBoxed.box_translate]
  exact add_sub_cancel _ _

@[simp] theorem cx_intoColumn : (box (intoColumn center start i)).cx = center := by
  rw [intoColumn, LawfulBoxed.box_translate]
  show (box i).x + (center - (box i).cx) + (box i).width / ofNat 2 = center
  rw [Box.cx]
  ring

end

/-- **A row** is spaced out as rows are meant to be. -/
theorem row_spaceHorizontally (padding : Rat) (items : List ι) :
    Row padding items (spaceHorizontally padding items) := by
  rw [spaceHorizontally_eq]
  let baseline : Rat := greatestOf (items.map fun i => (box i).ay)
  have hnear (start : Rat) (i : ι) : (box (intoRow baseline start i)).x = start :=
    x_intoRow baseline start i
  have hsize (start : Rat) (i : ι) : (box (intoRow baseline start i)).width = (box i).width :=
    (moved_intoRow baseline start i).width_eq
  exact ⟨forall₂_zipWith_offsets (moved_intoRow baseline) padding 0 items,
    isChain_zipWith_offsets hnear hsize padding 0 items,
    forall_zipWith_offsets (ay_intoRow baseline) padding 0 items⟩

/-- **A column** is spaced out as columns are meant to be. -/
theorem column_spaceVertically (padding : Rat) (items : List ι) :
    Column padding items (spaceVertically padding items) := by
  rw [spaceVertically_eq]
  let center : Rat := greatestOf (items.map fun i => (box i).cx)
  have hnear (start : Rat) (i : ι) : (box (intoColumn center start i)).y = start :=
    y_intoColumn center start i
  have hsize (start : Rat) (i : ι) : (box (intoColumn center start i)).height = (box i).height :=
    (moved_intoColumn center start i).height_eq
  exact ⟨forall₂_zipWith_offsets (moved_intoColumn center) padding 0 items,
    isChain_zipWith_offsets hnear hsize padding 0 items,
    near_head_zipWith_offsets hnear padding 0 items, center,
    forall_zipWith_offsets (cx_intoColumn center) padding 0 items⟩

/-- A column that is moved sideways is a column. -/
theorem Column.sideways (h : Column padding items placed) (dx : Rat) :
    Column padding items (placed.map (translate dx 0)) := by
  have hbox (p : ι) : box (translate dx 0 p) = (box p).translate dx 0 :=
    LawfulBoxed.box_translate dx 0 p
  obtain ⟨center, hcenter⟩ := h.centred
  refine ⟨?_, ?_, ?_, center + dx, ?_⟩
  · rw [List.forall₂_map_right_iff]
    exact h.moved.imp fun i p hmoved => hmoved.trans ⟨dx, 0, rfl⟩
  · rw [List.isChain_map]
    refine h.spaced.imp fun p q hpq => ?_
    simp only [hbox, Box.translate, Box.y2, add_zero] at hpq ⊢
    exact hpq
  · intro p hp
    rw [List.head?_map] at hp
    obtain ⟨q, hq, rfl⟩ := Option.mem_map.mp hp
    rw [hbox]
    exact (add_zero _).trans (h.top q hq)
  · intro p hp
    obtain ⟨q, hq, rfl⟩ := List.mem_map.mp hp
    rw [hbox, ← hcenter q hq]
    simp only [Box.cx, Box.translate]
    ring

/-- **No two things in a row overlap**, even if they are not neighbours. -/
theorem Row.pairwise (h : Row padding items placed) (hpadding : 0 ≤ padding)
    (hwidth : ∀ i ∈ items, 0 ≤ (box i).width) :
    placed.Pairwise fun p q => (box p).x2 ≤ (box q).x := by
  refine pairwise_of_isChain hpadding (fun p hp => ?_) h.spaced
  obtain ⟨i, hi, hmoved⟩ := exists_left_of_forall₂ h.moved p hp
  rw [hmoved.width_eq]
  exact hwidth i hi

/-- **No two things on top of each other overlap**, even if they are not neighbours. -/
theorem Column.pairwise (h : Column padding items placed) (hpadding : 0 ≤ padding)
    (hheight : ∀ i ∈ items, 0 ≤ (box i).height) :
    placed.Pairwise fun p q => (box p).y2 ≤ (box q).y := by
  refine pairwise_of_isChain hpadding (fun p hp => ?_) h.spaced
  obtain ⟨i, hi, hmoved⟩ := exists_left_of_forall₂ h.moved p hp
  rw [hmoved.height_eq]
  exact hheight i hi

/-- Nothing in a column reaches above nought. -/
theorem Column.y_nonneg (h : Column padding items placed) (hpadding : 0 ≤ padding)
    (hheight : ∀ i ∈ items, 0 ≤ (box i).height) : ∀ p ∈ placed, 0 ≤ (box p).y := by
  refine near_nonneg_of_isChain hpadding (fun p hp => ?_) h.top h.spaced
  obtain ⟨i, hi, hmoved⟩ := exists_left_of_forall₂ h.moved p hp
  rw [hmoved.height_eq]
  exact hheight i hi

end Spacing

end PatternDiagram
