import PatternDiagram.Proofs.Measures
import PatternDiagram.Proofs.Mounting

/-!
# Margins

What is put on a surface is the drawing of an expression, moved so that its margin begins at the
origin. Over exact numbers every drawing has bounds, so that nothing but a call-off keeps it from
being shown.

* `Drawing.points_framed`: the markers are measured whatever stands between them;
* `Render.run_keeps_margins`: **what is shown measures as the surface less its margins**, and all
  that is drawn, at any depth, lies between the margins.
-/

namespace PatternDiagram

open Coordinate (ofNat)

/-- The markers are measured whatever stands between them. -/
theorem Drawing.points_framed (c : Config Rat) (flags : List String) (content : Placed Rat) :
    (framed c flags content).shape.points ≠ [] := by
  let items := spaceHorizontally c.sequencePadding [marker "begin", content, marker "end"]
  let first : Placed Rat := items.head (List.cons_ne_nil _ _)
  have hpoint : ∃ p, p ∈ first.shape.points := ⟨_, List.mem_cons_self⟩
  obtain ⟨p, hp⟩ := hpoint
  have hfirst : first.shape ∈ (rails items ++ items.map Placed.shape) ++
      (if flags.isEmpty then [] else [flagsText c (enclosing items) flags]) :=
    List.mem_append_left _ (List.mem_append_right _ (List.mem_map_of_mem List.mem_cons_self))
  have hmem : p ∈ (framed c flags content).shape.points := by
    show p ∈ (Shape.plain "diagram" _).points
    rw [Shape.points_plain]
    exact List.mem_flatMap.mpr ⟨_, hfirst, hp⟩
  exact List.ne_nil_of_mem hmem

namespace Render

open Drawing

variable {σ : Type}

/-- Exact numbers are finite. -/
theorem isFinite_bounds (placed : Placed Rat) : (bounds placed).isFinite = true := rfl

/-- **A drawing that is placed** measures as its size less the margin on each side. -/
theorem measure_place (c : Config Rat) {shape : Shape Rat} (h : shape.points ≠ []) :
    let placed := place c shape shape.measure.normalize
    placed.1.measure =
      { x := c.margin, y := c.margin
        width := placed.2.1 - 2 * c.margin, height := placed.2.2 - 2 * c.margin } := by
  intro placed
  have hmoved : placed.1.measure = _ :=
    Shape.measure_translate h (c.margin - shape.measure.x) (c.margin - shape.measure.y)
  have hwidth : placed.2.1 = shape.measure.width + 2 * c.margin := rfl
  have hheight : placed.2.2 = shape.measure.height + 2 * c.margin := rfl
  rw [hmoved, hwidth, hheight, add_sub_cancel, add_sub_cancel, add_sub_cancel_right,
    add_sub_cancel_right]

/-- **What is shown keeps its margins.** A rendering of exact numbers comes to a picture unless it
    is called off. The drawing that it mounts measures as the surface less the margin on each side;
    so every rectangle, circle, text, path point and control point of it lies between the
    margins. -/
theorem run_keeps_margins (surface : Surface σ Rat) (c : Config Rat) (e : Expression) (s : σ)
    (w : Walk) :
    let result := run surface.logged c e (s, []) w
    let log := result.surface.2
    (w.ticket.cancelled = false → (∀ entry ∈ log, entry.calledOff = false) →
      ∃ output, result.outcome = .ok output) ∧
    ∀ output, result.outcome = .ok output → ∃ drawing,
      log.map Surface.Entry.call = [.mount drawing, .resize output.width output.height] ∧
      drawing.measure =
        { x := c.margin, y := c.margin
          width := output.width - 2 * c.margin, height := output.height - 2 * c.margin } ∧
      ∀ leaf ∈ drawing.leaves,
        leaf.LiesIn ⟨c.margin, output.width - c.margin⟩ ⟨c.margin, output.height - c.margin⟩ := by
  intro result log
  let placed : Placed Rat := (expression c e : Script (Placed Rat)).result
  rcases finish_logged_cases (draws_result c e) surface s (begin e w.ticket) w.warnings with
    ⟨hcancelled, -, houtcome⟩ | ⟨-, hinfinite, -⟩ | ⟨-, -, hlog, houtcome⟩
  · -- The rendering has been called off before.
    refine ⟨fun hw => ?_, fun output houtput => ?_⟩
    · rw [show w.ticket.cancelled = true from hcancelled] at hw
      cases hw
    · rw [show result.outcome = _ from houtcome] at houtput
      cases houtput
  · rw [isFinite_bounds] at hinfinite
    cases hinfinite
  · -- The picture is put on the surface.
    have hlog : log = _ := hlog
    have houtcome : result.outcome = _ := houtcome
    refine ⟨fun _ hdown => ?_, fun output houtput => ?_⟩
    · rw [hlog] at hdown
      have hlast := hdown _ (List.mem_cons_of_mem _ (List.mem_singleton_self _))
      rw [houtcome]
      exact ⟨_, if_neg (by rw [show (surface.present ..).2.cancelled = false from hlast]; decide)⟩
    · have hsize : output.width = (picture c placed).width ∧
          output.height = (picture c placed).height := by
        rw [houtcome] at houtput
        split at houtput
        · cases houtput
        · cases houtput
          exact ⟨rfl, rfl⟩
      have hmeasure : (place c placed.shape (bounds placed)).1.measure = _ :=
        measure_place c (points_framed c e.flags.names _)
      refine ⟨(place c placed.shape (bounds placed)).1, ?_, ?_, fun leaf hleaf => ?_⟩
      · rw [hlog, hsize.1, hsize.2]
        exact surface.calls_record ..
      · rw [hmeasure, hsize.1, hsize.2]
        rfl
      · have hlies := Shape.liesIn_of_mem_leaves hleaf
        have hright : c.margin + (output.width - 2 * c.margin) = output.width - c.margin := by ring
        have hbottom : c.margin + (output.height - 2 * c.margin) = output.height - c.margin := by
          ring
        rw [hmeasure] at hlies
        rwa [← hright, ← hbottom, hsize.1, hsize.2]

/-- A group that is narrower than its caption, a repetition that reaches over and under its body,
    and a flag above it all. -/
def overhanging : Expression where
  root := .alternation [.sequence [.repetition ⟨0, none, true⟩ (.group true none (some 1)
    (.literal (.char 'a'))), .literal (.char 'b')], .literal (.char 'c')]
  flags := { global := true }
  groups := ⟨1, []⟩

theorem parse_overhanging : parse "/(a)*b|c/g" = .ok overhanging := by with_unfolding_all rfl

/-- A drawing with texts on the left of it and above it is shown with a margin of ten. -/
theorem run_keeps_margins_of_overhanging :
    ∃ (output : RenderOutput Rat) (drawing : Shape Rat), parse "/(a)*b|c/g" = .ok overhanging ∧
      let result := run Canvas.surface.logged Config.standard overhanging (Canvas.blank, []) {}
      result.outcome = .ok output ∧
      result.surface.2.map Surface.Entry.call =
        [.mount drawing, .resize output.width output.height] ∧
      drawing.measure =
        { x := 10, y := 10, width := output.width - 2 * 10, height := output.height - 2 * 10 } ∧
      ∀ leaf ∈ drawing.leaves, leaf.LiesIn ⟨10, output.width - 10⟩ ⟨10, output.height - 10⟩ := by
  obtain ⟨output, houtcome, -⟩ := run_logged_canvas (c := (Config.standard : Config Rat))
    (isFinite_bounds (expression Config.standard overhanging : Script (Placed Rat)).result)
  obtain ⟨drawing, hcalls, hmeasure, hleaves⟩ :=
    (run_keeps_margins Canvas.surface Config.standard overhanging Canvas.blank {}).2 output houtcome
  exact ⟨output, drawing, parse_overhanging, houtcome, hcalls, hmeasure, hleaves⟩

end Render

end PatternDiagram
