import PatternDiagram.Proofs.Pictures

/-!
# Surfaces that are watched

A rendering may be called off before it begins, between its halves, and by the surface while that
takes the picture. Here a surface keeps a log of its calls, and says after each of them whether the
rendering has been called off:

* `Surface.logged`: the surface with its log; `Render.finish_logged`: the log makes no
  difference;
* `Ticket.Keeps`, `Surface.Keeps`: nobody takes a call-off back;
* `Render.finish_logged_cases`: what a rendering may come to, and what its log says then;
* `Render.runAround_mounts_once`: **a picture is put on its surface once or not at all, and not if
  the rendering has been called off before its second half; there is a picture just if nobody calls
  it off and its bounds are finite**.
-/

namespace PatternDiagram

open Drawing

variable {α σ : Type}

/-! ## 1. Logs -/

namespace Surface

/-- A call of a surface. -/
inductive Call (α : Type) where
  | mount (drawing : Shape α)
  | resize (width height : α)
  deriving Repr

/-- A call of a surface, and whether the rendering was called off when the call was over. -/
structure Entry (α : Type) where
  call : Call α
  calledOff : Bool
  deriving Repr

/-- The surface with a log of its calls. -/
def logged (surface : Surface σ α) : Surface (σ × List (Entry α)) α where
  mount drawing s t :=
    let (after, t) := surface.mount drawing s.1 t
    ((after, s.2 ++ [⟨.mount drawing, t.cancelled⟩]), t)
  resize width height s t :=
    let (after, t) := surface.resize width height s.1 t
    ((after, s.2 ++ [⟨.resize width height, t.cancelled⟩]), t)

end Surface

/-- No call-off is taken back. -/
def Ticket.Keeps (f : Ticket → Ticket) : Prop := ∀ t, t.cancelled = true → (f t).cancelled = true

/-- The surface takes no call-off back. -/
structure Surface.Keeps (surface : Surface σ α) : Prop where
  mount : ∀ drawing s, Ticket.Keeps fun t => (surface.mount drawing s t).2
  resize : ∀ width height s, Ticket.Keeps fun t => (surface.resize width height s t).2

variable [Coordinate α]

namespace Surface

/-- What a log says when a picture has been put on a surface. -/
def record (surface : Surface σ α) (c : Config α) (placed : Placed α) (s : σ) (t : Ticket) :
    List (Entry α) :=
  let (shape, width, height) := Render.place c placed.shape (Render.bounds placed)
  let mounted := surface.mount shape s t
  let resized := surface.resize width height mounted.1 mounted.2
  [⟨.mount shape, mounted.2.cancelled⟩, ⟨.resize width height, resized.2.cancelled⟩]

/-- A picture is put on a surface the same way if there is a log. -/
theorem present_logged (surface : Surface σ α) (c : Config α) (placed : Placed α) (s : σ)
    (log : List (Entry α)) (t : Ticket) :
    surface.logged.present c placed (s, log) t =
      let shown := surface.present c placed s t
      ((shown.1, log ++ surface.record c placed s t), shown.2) := by
  show _ = ((_, log ++ ([_] ++ [_])), _)
  rw [← List.append_assoc]
  rfl

/-- Every picture comes with the same two calls. -/
theorem calls_record (surface : Surface σ α) (c : Config α) (placed : Placed α) (s : σ)
    (t : Ticket) :
    (surface.record c placed s t).map Entry.call =
      [.mount (Render.place c placed.shape (Render.bounds placed)).1,
        .resize (Render.picture c placed).width (Render.picture c placed).height] := rfl

/-- **Somebody has called the rendering off during the calls** just if it is called off behind
    them. -/
theorem Keeps.record_iff {surface : Surface σ α} (h : surface.Keeps) (c : Config α)
    (placed : Placed α) (s : σ) (t : Ticket) :
    (∀ entry ∈ surface.record c placed s t, entry.calledOff = false) ↔
      (surface.present c placed s t).2.cancelled = false := by
  let shape := (Render.place c placed.shape (Render.bounds placed)).1
  let mounted := surface.mount shape s t
  have hkeeps : mounted.2.cancelled = true → (surface.present c placed s t).2.cancelled = true :=
    h.resize _ _ mounted.1 mounted.2
  constructor
  · intro hdown
    exact hdown _ (List.mem_cons_of_mem _ (List.mem_singleton_self _))
  · intro hshown entry hentry
    rcases List.mem_cons.mp hentry with rfl | hlast
    · show mounted.2.cancelled = false
      cases hmounted : mounted.2.cancelled with
      | false => rfl
      | true => rw [hkeeps hmounted] at hshown; cases hshown
    · rw [List.mem_singleton.mp hlast]
      exact hshown

end Surface

namespace Render

/-! ## 2. Renderings -/

/-- A rendering between whose halves something happens to its ticket. -/
def runAround (surface : Surface σ α) (c : Config α) (e : Expression) (s : σ) (w : Walk)
    (meanwhile : Ticket → Ticket) : Result σ α :=
  finish surface c e s { w with ticket := meanwhile (begin e w.ticket) }

/-- **It is the rendering itself** if nothing happens. -/
theorem runAround_id (surface : Surface σ α) (c : Config α) (e : Expression) (s : σ) (w : Walk) :
    runAround surface c e s w id = run surface c e s w := rfl

/-- The log of a rendering makes no difference to it. -/
theorem finish_logged (surface : Surface σ α) (c : Config α) (e : Expression) (s : σ) (w : Walk) :
    let result := finish surface.logged c e (s, []) w
    finish surface c e s w = ⟨result.outcome, result.surface.1, result.walk⟩ := by
  by_cases hw : w.ticket.cancelled = true
  · rw [finish_of_cancelled surface.logged c e (s, []) hw, finish_of_cancelled surface c e s hw]
  · have hw : w.ticket.cancelled = false := Bool.eq_false_iff.mpr hw
    obtain ⟨placed, hdraws⟩ := exists_draws c e
    rw [finish_of_draws hdraws surface.logged (s, []) hw, finish_of_draws hdraws surface s hw]
    by_cases hfinite : (bounds placed).isFinite = true
    · simp only [if_pos hfinite, Surface.present_logged]
    · simp only [if_neg hfinite]

/-- **What a rendering may come to**, and what its surface's log says then: it is refused, its
    bounds are not finite, or the picture is put on the surface, which may still call the rendering
    off. -/
theorem finish_logged_cases {c : Config α} {e : Expression} {placed : Placed α}
    {warnings : List Warning} (hdraws : Draws c e placed warnings) (surface : Surface σ α) (s : σ)
    (t : Ticket) (noted : List Warning) :
    let drawn := t.advance e.root.count
    let result := finish surface.logged c e (s, []) ⟨t, noted⟩
    (t.cancelled = true ∧ result.surface.2 = [] ∧ result.outcome = .error .cancelled) ∨
    (t.cancelled = false ∧ (bounds placed).isFinite = false ∧ result.surface.2 = [] ∧
      result.outcome = .error (.unbounded (bounds placed))) ∨
    (t.cancelled = false ∧ (bounds placed).isFinite = true ∧
      result.surface.2 = surface.record c placed s drawn ∧
      result.outcome = if (surface.present c placed s drawn).2.cancelled then .error .cancelled
        else .ok ⟨(picture c placed).width, (picture c placed).height,
          (noted ++ warnings).map Warning.message⟩) := by
  intro drawn result
  by_cases ht : t.cancelled = true
  · have hresult : result = ⟨.error .cancelled, (s, []), ⟨t, noted⟩⟩ :=
      finish_of_cancelled surface.logged c e (s, []) ht
    exact .inl ⟨ht, by rw [hresult], by rw [hresult]⟩
  have ht : t.cancelled = false := Bool.eq_false_iff.mpr ht
  have hresult : result = _ := finish_of_draws hdraws surface.logged (s, []) ht
  by_cases hfinite : (bounds placed).isFinite = true
  · rw [if_pos hfinite, Surface.present_logged] at hresult
    refine .inr (.inr ⟨ht, hfinite, ?_, ?_⟩)
    · rw [hresult]
      exact List.nil_append _
    · rw [hresult]
  · rw [if_neg hfinite] at hresult
    exact .inr (.inl ⟨ht, Bool.eq_false_iff.mpr hfinite, by rw [hresult], by rw [hresult]⟩)

/-- **A picture is put on its surface once or not at all.** Nothing is put there if the rendering is
    called off before its second half, or if its bounds are not finite. There is an output just if
    nobody calls the rendering off, and the bounds are finite; the surface then has the size that
    the output says, and all that has been noted is said in order. -/
theorem runAround_mounts_once (surface : Surface σ α) (c : Config α) (e : Expression) (s : σ)
    (w : Walk) (meanwhile : Ticket → Ticket) (hsurface : surface.Keeps)
    (hmeanwhile : Ticket.Keeps meanwhile) :
    let resumed := meanwhile (begin e w.ticket)
    let result := runAround surface.logged c e (s, []) w meanwhile
    let log := result.surface.2
    let calls := log.map Surface.Entry.call
    runAround surface c e s w meanwhile = ⟨result.outcome, result.surface.1, result.walk⟩ ∧
    (calls = [] ∨ ∃ drawing width height, calls = [.mount drawing, .resize width height]) ∧
    (w.ticket.cancelled = true ∨ resumed.cancelled = true → calls = []) ∧
    (∀ box, result.outcome = .error (.unbounded box) → calls = []) ∧
    ∃ placed, Draws c e placed (e.groups.warnings e.root.references) ∧
      ((∃ output, result.outcome = .ok output) ↔
        (w.ticket.cancelled = false ∧ resumed.cancelled = false ∧
          ∀ entry ∈ log, entry.calledOff = false) ∧
        (bounds placed).isFinite = true) ∧
      ∀ output, result.outcome = .ok output →
        calls = [.mount (place c placed.shape (bounds placed)).1,
          .resize output.width output.height] ∧
        output.warnings =
          (w.warnings ++ e.groups.warnings e.root.references).map Warning.message := by
  intro resumed result log calls
  refine ⟨finish_logged surface c e s _, ?_⟩
  have hbefore : w.ticket.cancelled = true → resumed.cancelled = true :=
    fun h => hmeanwhile (begin e w.ticket) h
  obtain ⟨placed, hdraws⟩ := exists_draws c e
  have hcases : (_ ∧ log = _ ∧ result.outcome = _) ∨ (_ ∧ _ ∧ log = _ ∧ result.outcome = _) ∨
      (_ ∧ _ ∧ log = _ ∧ result.outcome = _) :=
    finish_logged_cases hdraws surface s resumed w.warnings
  rcases hcases with ⟨hresumed, hlog, houtcome⟩ | ⟨-, hfinite, hlog, houtcome⟩ |
    ⟨hresumed, hfinite, hlog, houtcome⟩
  · -- The second half is refused.
    have hcalls : calls = [] := congrArg (List.map _) hlog
    refine ⟨.inl hcalls, fun _ => hcalls, fun _ _ => hcalls, placed, hdraws, ?_, ?_⟩
    · simp [houtcome, hresumed]
    · simp [houtcome]
  · -- The surface is left alone.
    have hcalls : calls = [] := congrArg (List.map _) hlog
    refine ⟨.inl hcalls, fun _ => hcalls, fun _ _ => hcalls, placed, hdraws, ?_, ?_⟩
    · simp [houtcome, hfinite]
    · simp [houtcome]
  · -- Both calls are made.
    let shown := surface.present c placed s (resumed.advance e.root.count)
    change _ = if shown.2.cancelled then _ else _ at houtcome
    have hw : w.ticket.cancelled = false := by
      cases h : w.ticket.cancelled with
      | false => rfl
      | true => rw [hbefore h] at hresumed; cases hresumed
    have hcalls : calls = _ := (congrArg (List.map _) hlog).trans (surface.calls_record ..)
    have hdown : (∀ entry ∈ log, entry.calledOff = false) ↔ shown.2.cancelled = false := by
      rw [hlog]
      exact hsurface.record_iff c placed s _
    refine ⟨.inr ⟨_, _, _, hcalls⟩, ?_, ?_, placed, hdraws, ?_, ?_⟩
    · simp [hw, hresumed]
    · intro box hbox
      rw [houtcome] at hbox
      split at hbox <;> cases hbox
    · rw [hdown, houtcome]
      cases shown.2.cancelled <;> simp [hw, hresumed, hfinite]
    · intro output houtput
      rw [houtcome] at houtput
      split at houtput
      · cases houtput
      · cases houtput
        exact ⟨hcalls, rfl⟩

/-- A surface that calls the rendering off while it takes the picture is called twice all the same,
    and there is no output. -/
theorem runAround_mounts_once_of_preempted :
    let surface : Surface (Canvas Rat) Rat :=
      { mount := fun drawing canvas t => (canvas.mount drawing, t.cancel)
        resize := fun width height canvas t => (canvas.resize width height, t) }
    let result := runAround surface.logged Config.standard ⟨.literal (.char 'a'), {}, {}⟩
      (Canvas.blank, []) {} id
    (∃ drawing width height,
      result.surface.2.map Surface.Entry.call = [.mount drawing, .resize width height]) ∧
      ∀ output, result.outcome ≠ .ok output := by
  intro surface result
  have hsurface : surface.Keeps := ⟨fun _ _ _ _ => rfl, fun _ _ _ _ h => h⟩
  obtain ⟨-, -, -, -, placed, hdraws, hok, -⟩ := runAround_mounts_once surface Config.standard
    ⟨.literal (.char 'a'), {}, {}⟩ Canvas.blank {} id hsurface fun _ h => h
  have hlog : result.surface.2 =
      surface.record Config.standard placed Canvas.blank ⟨false, 1, 1⟩ := by
    rcases finish_logged_cases hdraws surface Canvas.blank ⟨false, 0, 1⟩ [] with
      ⟨h, -⟩ | ⟨-, h, -⟩ | ⟨-, -, h, -⟩
    · cases h
    · cases h
    · exact h
  refine ⟨⟨_, _, _, (congrArg _ hlog).trans (surface.calls_record ..)⟩, ?_⟩
  intro output houtput
  have hdown := (hok.mp ⟨output, houtput⟩).1.2.2
  have hmount : ⟨.mount (place Config.standard placed.shape (bounds placed)).1, true⟩ ∈
      result.surface.2 := by
    rw [hlog]
    exact List.mem_cons_self
  cases hdown _ hmount

/-- A drawing with finite bounds is put on a canvas that is there for it alone. -/
theorem run_logged_canvas {c : Config α} {e : Expression}
    (hfinite : (bounds (expression c e : Script (Placed α)).result).isFinite = true) :
    let placed := (expression c e : Script (Placed α)).result
    let result := run Canvas.surface.logged c e (Canvas.blank, []) {}
    ∃ output, result.outcome = .ok output ∧
      result.surface.2.map Surface.Entry.call =
        [.mount (place c placed.shape (bounds placed)).1, .resize output.width output.height] := by
  intro placed result
  rcases finish_logged_cases (draws_result c e) Canvas.surface Canvas.blank (begin e {}) [] with
    ⟨hcancelled, -⟩ | ⟨-, hinfinite, -⟩ | ⟨-, -, hlog, houtcome⟩
  · cases hcancelled
  · rw [hfinite] at hinfinite
    cases hinfinite
  · exact ⟨_, houtcome, (congrArg (List.map _) hlog).trans (Canvas.surface.calls_record ..)⟩

end Render

end PatternDiagram
