import Mathlib.Algebra.Order.Group.Unbundled.Abs
import Mathlib.Order.Interval.Set.UnorderedInterval
import PatternDiagram.Proofs.Axes

/-!
# Forks

The branches of an alternation hang between two forks. To each of them a way leads from the fork in
front, and from each of them a way leads to the fork behind:

* `PathCommand.Runs`: one stroke from a point to another, which never turns back to the left and
  never leaves the heights between the two points, not even with a control point;
* `Drawing.runs_fanOut`, `Drawing.runs_fanIn`: the ways are such strokes, far from the fork's
  height, near to it, and level with it;
* `Drawing.Forked`: **one way to each branch, and one way from it**, in the order of the branches;
* `Drawing.node_forks_branches`: **so it is in the drawing of each alternation** of a tree that is
  read.
-/

namespace PatternDiagram

open Coordinate (ofNat)

/-! ## 1. Heights -/

namespace Coordinate

theorem abs_rat (x : Rat) : Coordinate.abs x = |x| := by
  rw [Coordinate.abs, ofNat_rat, Nat.cast_zero]
  split
  · next h => exact (abs_of_neg h).symm
  · next h => exact (abs_of_nonneg (not_lt.mp h)).symm

/-- A step towards a height that is far enough stays between the heights. -/
theorem step_mem_uIcc {y₁ y₂ r : Rat} (hr : 0 < r) (hfar : r ≤ |y₂ - y₁|) :
    y₁ + direction (y₂ - y₁) * r ∈ Set.uIcc y₁ y₂ ∧
      y₂ - direction (y₂ - y₁) * r ∈ Set.uIcc y₁ y₂ := by
  rw [direction, ofNat_rat, ofNat_rat, Nat.cast_zero, Nat.cast_one]
  split
  · next h =>
    -- The way leads down.
    rw [abs_of_pos h] at hfar
    rw [Set.uIcc_of_le (by linarith)]
    exact ⟨⟨by linarith, by linarith⟩, by linarith, by linarith⟩
  · next h =>
    rw [abs_of_nonpos (not_lt.mp h)] at hfar
    rw [Set.uIcc_of_ge (by linarith)]
    exact ⟨⟨by linarith, by linarith⟩, by linarith, by linarith⟩

/-- Half the way to a height lies between the heights. -/
theorem middle_mem_uIcc (y₁ y₂ : Rat) : (y₁ + y₂) / 2 ∈ Set.uIcc y₁ y₂ := by
  rcases le_total y₁ y₂ with h | h
  · rw [Set.uIcc_of_le h]
    exact ⟨by linarith, by linarith⟩
  · rw [Set.uIcc_of_ge h]
    exact ⟨by linarith, by linarith⟩

end Coordinate

/-! ## 2. Ways -/

namespace PathCommand

/-- The command begins a new stroke. -/
def isMove {α : Type} : PathCommand α → Bool
  | .move .. => true
  | _ => false

/-- **The commands run from `p` to `q`** in one stroke: from each point to the next, control points
    included, they go to the right or straight up and down, and all points are at heights between
    `p` and `q`. -/
structure Runs (p q : Rat × Rat) (commands : List (PathCommand Rat)) : Prop where
  stroke : ∃ rest, commands = .move p.1 p.2 :: rest ∧ ∀ command ∈ rest, command.isMove = false
  ends : (commands.flatMap named).getLast? = some q
  forward : (commands.flatMap named).IsChain fun a b => a.1 ≤ b.1
  between : ∀ a ∈ commands.flatMap named, a.2 ∈ Set.uIcc p.2 q.2

end PathCommand

namespace Drawing

open Coordinate Placed Spacing
open PathCommand (Runs)

/-- **The way to a branch** that begins twenty on the right of the fork or further. -/
theorem runs_fanOut {ax : Rat} (center ay : Rat) (hax : 20 ≤ ax) :
    Runs (0, center) (ax, ay) (fanOut center ax ay) := by
  have hend : 2 * 10 ≤ ax := by linarith
  have hmiddle := middle_mem_uIcc center ay
  simp only [fanOut, abs_rat, ofNat_rat, curve_rat, Nat.cast_ofNat, Nat.cast_zero]
  split_ifs with hfar hnear
  · -- Up or down, and then to the right.
    have hlong : 10 ≤ |ay - center| := by linarith
    obtain ⟨hfirst, hsecond⟩ := step_mem_uIcc (r := 10) (by norm_num) hlong
    refine ⟨⟨_, rfl, by simp [PathCommand.isMove]⟩, rfl, ?_, ?_⟩
    · simpa [PathCommand.named] using hend
    · simpa [PathCommand.named] using ⟨hfirst, hsecond⟩
  · -- Two curves that meet in the middle.
    refine ⟨⟨_, rfl, by simp [PathCommand.isMove]⟩, rfl, ?_, ?_⟩
    · simpa [PathCommand.named] using hend
    · simpa [PathCommand.named] using hmiddle
  · have hforward : 0 ≤ ax := by linarith
    refine ⟨⟨_, rfl, by simp [PathCommand.isMove]⟩, rfl, ?_, ?_⟩
    · simpa [PathCommand.named] using hforward
    · simp [PathCommand.named]

/-- **The way from a branch** that ends twenty on the left of the fork or further. -/
theorem runs_fanIn {right ax2 : Rat} (center ay : Rat) (hax2 : ax2 ≤ right - 20) :
    Runs (ax2, ay) (right, center) (fanIn center right ax2 ay) := by
  have hlead : ax2 ≤ right - 2 * 10 := by linarith
  have hturn : right ≤ right - 10 + 2 * 10 := by linarith
  have hmiddle := middle_mem_uIcc ay center
  rw [add_comm] at hmiddle
  simp only [fanIn, abs_rat, ofNat_rat, curve_rat, Nat.cast_ofNat, Nat.cast_zero]
  split_ifs with hapart hfar hfar
  · -- To the right, and then up or down.
    have hlong : 10 ≤ |center - ay| := by
      rw [abs_sub_comm]
      linarith
    obtain ⟨hfirst, hsecond⟩ := step_mem_uIcc (r := 10) (by norm_num) hlong
    refine ⟨⟨_, rfl, by simp [PathCommand.isMove]⟩, rfl, ?_, ?_⟩
    · simpa [PathCommand.named] using ⟨hlead, hturn⟩
    · simpa [PathCommand.named] using ⟨hfirst, hsecond⟩
  · -- Two curves that meet in the middle.
    refine ⟨⟨_, rfl, by simp [PathCommand.isMove]⟩, rfl, ?_, ?_⟩
    · simpa [PathCommand.named] using ⟨hlead, hturn⟩
    · simpa [PathCommand.named] using hmiddle
  · exact absurd hfar (by linarith)
  · have hforward : ax2 ≤ right := by linarith
    refine ⟨⟨_, rfl, by simp [PathCommand.isMove]⟩, rfl, ?_, ?_⟩
    · simpa [PathCommand.named] using hforward
    · simp [PathCommand.named]

/-! ## 3. Columns -/

/-- **The branches hang between two forks.** The drawing shows the ways `out` to the branches, the
    ways `back` from them, and the branches where they have been put, and nothing else. To each
    branch, in order, one way runs from the front of the drawing's axis to the front of the branch's
    own, and from each branch one way runs from the end of its axis to the end of the drawing's. -/
structure Forked (drawing : Placed Rat) (branches placed : List (Placed Rat))
    (out back : List (List (PathCommand Rat))) : Prop where
  moved : List.Forall₂ Boxed.Moved branches placed
  shown : drawing.shape = .plain "alternation"
    (.plain "fan-out" (out.map (Shape.path "connector")) ::
      .plain "fan-in" (back.map (Shape.path "connector")) :: placed.map Placed.shape)
  begins : drawing.box.ax = 0
  out : List.Forall₂ (fun p way => Runs (0, drawing.box.ay) (p.box.ax, p.box.ay) way) placed out
  back : List.Forall₂
    (fun p way => Runs (p.box.ax2, p.box.ay) (drawing.box.ax2, drawing.box.ay) way) placed back

/-- No picture reaches further to the right than all together. -/
theorem x2_le_enclosing {items : List (Placed Rat)} {p : Placed Rat} (hp : p ∈ items) :
    p.box.x2 ≤ (enclosing items).x2 := by
  have hcorner : (p.box.x2, p.box.y2) ∈ items.flatMap fun i => (Boxed.box i).corners :=
    List.mem_flatMap.mpr ⟨p, hp, List.mem_cons_of_mem _ (List.mem_singleton_self _)⟩
  exact ((tight_enclosing (List.ne_nil_of_mem hp)).holds hcorner).1.2

/-- **What columns do** with pictures whose axes lie in their boxes. -/
theorem forked_column (c : Config Rat) {branches : List (Placed Rat)}
    (h : ∀ p ∈ branches, p.box.Upright) :
    ∃ out back, Forked (column c branches) branches (stack c branches) out back := by
  have hmoved := (column_stack c branches).moved
  have hleft := le_x_of_mem_stack c branches
  rw [column_rat]
  generalize stack c branches = placed at hmoved hleft
  have hupright := upright_of_moved hmoved h
  let content := enclosing placed
  refine ⟨placed.map fun p => fanOut content.cy p.box.ax p.box.ay,
    placed.map fun p => fanIn content.cy (content.x2 + 2 * 10) p.box.ax2 p.box.ay,
    hmoved, ?_, rfl, ?_, ?_⟩
  · simp only [List.map_map]
    rfl
  · rw [List.forall₂_map_right_iff, List.forall₂_same]
    intro p hp
    exact runs_fanOut content.cy p.box.ay ((hleft p hp).trans (hupright p hp).left)
  · rw [List.forall₂_map_right_iff, List.forall₂_same]
    intro p hp
    -- The fork is twenty behind everything there is.
    have hright : p.box.ax2 ≤ content.x2 := (hupright p hp).right.trans (x2_le_enclosing hp)
    have hbehind : p.box.ax2 ≤ content.x2 + 2 * 10 - 20 := by linarith
    exact runs_fanIn content.cy p.box.ay hbehind

/-! ## 4. Trees -/

/-- **Every branch is linked to both forks.** For each alternation of a tree that is read, a walk
    that nobody calls off comes to a drawing in which one way runs from the fork in front to each
    branch, and one way from each branch to the fork behind, in the order of the branches. -/
theorem node_forks_branches {source : String} {e : Expression} (hparse : parse source = .ok e)
    {c : Config Rat} (hc : c.NonNegative) {branches : List Node}
    (hbranches : .alternation branches ∈ e.root.preorder) {w : Walk}
    (hw : w.ticket.cancelled = false) :
    ∃ drawing w' placed out back,
      (node ⟨c, e.groups⟩ (.alternation branches) : Walking (Placed Rat)).run w = .ok drawing w' ∧
      Forked drawing (branches.map (drawn ⟨c, e.groups⟩)) placed out back := by
  have hwell := Node.wellFormed_of_mem_preorder hparse hbranches
  obtain ⟨w', hrun⟩ := run_node_drawn (⟨c, e.groups⟩ : Setting Rat) (.alternation branches) hw
  have hupright : ∀ p ∈ branches.map (drawn (⟨c, e.groups⟩ : Setting Rat)), p.box.Upright := by
    refine List.forall_mem_map.mpr fun x hx => ?_
    exact (drawn_sound hc (((Node.every_alternation branches).mp hwell).2 x hx)).1.upright
  obtain ⟨out, back, hforked⟩ := forked_column c hupright
  refine ⟨_, w', stack c (branches.map (drawn ⟨c, e.groups⟩)), out, back, hrun, ?_⟩
  rw [drawn_alternation]
  exact hforked

/-- A caption that is wider than its frame, a branch of which nothing is to be seen, and a character
    in between. -/
theorem node_forks_branches_of_empty :
    let branches : List Node := [.group true none (some 1) (.literal (.char 'a')),
      .literal (.char 'b'), .sequence []]
    parse "(a)|b|" = .ok ⟨.alternation branches, {}, ⟨1, []⟩⟩ ∧
    ∃ drawing w' placed out back,
      (node ⟨Config.standard, ⟨1, []⟩⟩ (.alternation branches) : Walking (Placed Rat)).run {} =
        .ok drawing w' ∧
      Forked drawing (branches.map (drawn ⟨Config.standard, ⟨1, []⟩⟩)) placed out back ∧
      out.length = 3 := by
  intro branches
  have hparse : parse "(a)|b|" = .ok ⟨.alternation branches, {}, ⟨1, []⟩⟩ := by
    with_unfolding_all rfl
  have hroot : Node.alternation branches ∈ (Node.alternation branches).preorder := by
    rw [Node.preorder]
    exact List.mem_cons_self
  obtain ⟨drawing, w', placed, out, back, hrun, hforked⟩ :=
    node_forks_branches hparse Config.nonNegative_standard hroot (w := {}) rfl
  have hlength : out.length = 3 := hforked.out.length_eq.symm.trans hforked.moved.length_eq.symm
  exact ⟨hparse, drawing, w', placed, out, back, hrun, hforked, hlength⟩

end Drawing

end PatternDiagram
