import PatternDiagram.Proofs.Walks
import PatternDiagram.Render.Tree

/-!
# Pictures

* `Render.picture`: the canvas that shows a drawing with its margins;
* `Render.verdict`: what a rendering comes to that nobody calls off, and `Render.verdict_ok_iff`:
  there is a picture just if the bounds of the drawing are finite;
* `Surface.present`: what becomes of a surface, and of a ticket, when a picture is put there;
* `Render.finish_of_cancelled`, `Render.finish_of_draws`: **a rendering that has been called off
  leaves its surface alone; any other puts its picture there, unless its bounds are not finite**;
* `Render.finish_on_canvas`, `Render.cancelled_finish`: a canvas shows the picture, and calls
  nothing off;
* `Render.renderSvg_of_parse`, `Render.renderSvg_ok`, `Render.exists_renderSvg`: the document of a
  source that is accepted.
-/

namespace PatternDiagram

open Drawing

variable {α σ : Type} [Coordinate α]

namespace Render

/-- The bounds of a drawing, without margins. -/
def bounds (placed : Placed α) : Box α := placed.shape.measure.normalize

/-- **The picture of a drawing**: moved so that its margin begins at the origin, on a canvas of its
    size. -/
def picture (c : Config α) (placed : Placed α) : Canvas α :=
  let (shape, width, height) := place c placed.shape (bounds placed)
  { drawing := some shape, width, height }

/-- **What a rendering comes to** that nobody calls off. -/
def verdict (c : Config α) (placed : Placed α) (warnings : List Warning) :
    Except (RenderError α) (RenderOutput α) :=
  if (bounds placed).isFinite then
    .ok ⟨(picture c placed).width, (picture c placed).height, warnings.map Warning.message⟩
  else .error (.unbounded (bounds placed))

/-- There is a picture just if the bounds of the drawing are finite. -/
theorem verdict_ok_iff {c : Config α} {placed : Placed α} {warnings : List Warning} :
    (∃ output, verdict c placed warnings = .ok output) ↔ (bounds placed).isFinite = true := by
  unfold verdict
  by_cases h : (bounds placed).isFinite = true <;> simp [h]

end Render

/-- **What becomes of a surface**, and of the ticket it is shown, when a picture is put there. -/
def Surface.present (surface : Surface σ α) (c : Config α) (placed : Placed α) (s : σ)
    (t : Ticket) : σ × Ticket :=
  let (shape, width, height) := Render.place c placed.shape (Render.bounds placed)
  let (s, t) := surface.mount shape s t
  surface.resize width height s t

namespace Render

/-- A rendering that has been called off leaves everything as it is. -/
theorem finish_of_cancelled (surface : Surface σ α) (c : Config α) (e : Expression) (s : σ)
    {w : Walk} (h : w.ticket.cancelled = true) :
    finish surface c e s w = ⟨.error .cancelled, s, w⟩ := by
  simp only [finish, h, if_true]

/-- **A rendering that nobody has called off** puts its picture on the surface, unless the bounds of
    its drawing are not finite. Only the surface can still call it off. -/
theorem finish_of_draws {c : Config α} {e : Expression} {placed : Placed α}
    {warnings : List Warning} (hdraws : Draws c e placed warnings) (surface : Surface σ α) (s : σ)
    {w : Walk} (hw : w.ticket.cancelled = false) :
    finish surface c e s w =
      if (bounds placed).isFinite then
        let (s, ticket) := surface.present c placed s (w.ticket.advance e.root.count)
        ⟨if ticket.cancelled then .error .cancelled
          else .ok ⟨(picture c placed).width, (picture c placed).height,
            (w.warnings ++ warnings).map Warning.message⟩,
          s, ⟨ticket, w.warnings ++ warnings⟩⟩
      else ⟨.error (.unbounded (bounds placed)), s, w.grow e.root.count warnings⟩ := by
  have hrun : (Drawing.expression c e : Walking (Placed α)).run w =
      .ok placed (w.grow e.root.count warnings) := hdraws w hw
  unfold finish
  rw [hw, hrun]
  simp only [Walk.cancelled_grow, hw]
  by_cases hfinite : (bounds placed).isFinite = true
  · have hmeasured : placed.shape.measure.normalize.isFinite = true := hfinite
    rw [if_pos hfinite]
    simp only [hmeasured, Bool.not_true, Bool.false_eq_true, if_false]
    by_cases hraised :
        (surface.present c placed s (w.ticket.advance e.root.count)).2.cancelled = true
    · rw [if_pos hraised]
      exact if_pos hraised
    · rw [if_neg hraised]
      exact if_neg hraised
  · have hmeasured : placed.shape.measure.normalize.isFinite = false :=
      Bool.eq_false_iff.mpr hfinite
    rw [if_neg hfinite]
    simp only [hmeasured, Bool.not_false, Bool.false_eq_true, if_false, if_true, bounds]

/-- A canvas shows the picture, whatever was there. -/
theorem finish_on_canvas {c : Config α} {e : Expression} {placed : Placed α}
    {warnings : List Warning} (hdraws : Draws c e placed warnings) (canvas : Canvas α) {w : Walk}
    (hw : w.ticket.cancelled = false) (hwarnings : w.warnings = []) :
    finish Canvas.surface c e canvas w =
      ⟨verdict c placed warnings,
        if (bounds placed).isFinite then picture c placed else canvas,
        w.grow e.root.count warnings⟩ := by
  rw [finish_of_draws hdraws Canvas.surface canvas hw]
  by_cases hfinite : (bounds placed).isFinite = true
  · simp only [verdict, if_pos hfinite, hwarnings, List.nil_append, Walk.grow]
    simp [Surface.present, Canvas.surface, Canvas.mount, Canvas.resize, picture, hw]
  · simp only [verdict, if_neg hfinite]

/-- A canvas calls nothing off. -/
theorem cancelled_finish (c : Config α) (e : Expression) (canvas : Canvas α) {w : Walk}
    (hwarnings : w.warnings = []) :
    (finish Canvas.surface c e canvas w).walk.ticket.cancelled = w.ticket.cancelled := by
  by_cases hw : w.ticket.cancelled = true
  · rw [finish_of_cancelled _ c e canvas hw]
  · obtain ⟨placed, hdraws⟩ := exists_draws c e
    rw [finish_on_canvas hdraws canvas (Bool.eq_false_iff.mpr hw) hwarnings, Walk.cancelled_grow]

/-- **A source that is accepted is shown**, unless the bounds of its drawing are not finite. -/
theorem renderSvg_of_parse (c : Config Float) {source : String} {e : Expression}
    (h : parse source = .ok e) :
    let placed := (expression c e : Script (Placed Float)).result
    renderSvg c source =
      (verdict c placed (e.groups.warnings e.root.references)).map fun output =>
        ((picture c placed).toSvg, output) := by
  intro placed
  have hrun := finish_on_canvas (draws_result c e) Canvas.blank
    (w := { ticket := begin e {} }) rfl rfl
  unfold renderSvg
  rw [h]
  simp only [run, hrun, verdict]
  by_cases hfinite : (bounds placed).isFinite = true
  · rw [if_pos hfinite, if_pos hfinite]
    rfl
  · rw [if_neg hfinite, if_neg hfinite]
    rfl

/-- A document is there just if the source is accepted and the bounds of its drawing are finite. -/
theorem renderSvg_ok {c : Config Float} {source svg : String} {output : RenderOutput Float}
    (h : renderSvg c source = .ok (svg, output)) :
    ∃ e, parse source = .ok e ∧
      svg = (picture c (expression c e : Script (Placed Float)).result).toSvg := by
  cases hparse : parse source with
  | error e => simp [renderSvg, hparse] at h
  | ok e =>
    rw [renderSvg_of_parse c hparse] at h
    unfold verdict at h
    split at h
    · cases h
      exact ⟨e, rfl, rfl⟩
    · cases h

/-- A source that is accepted has a document if the bounds of its drawing are finite. -/
theorem exists_renderSvg (c : Config Float) {source : String} {e : Expression}
    (h : parse source = .ok e)
    (hfinite : (bounds (expression c e : Script (Placed Float)).result).isFinite = true) :
    ∃ output, renderSvg c source =
      .ok ((picture c (expression c e : Script (Placed Float)).result).toSvg, output) := by
  rw [renderSvg_of_parse c h, verdict, if_pos hfinite]
  exact ⟨_, rfl⟩

end Render

end PatternDiagram
