import PatternDiagram.Proofs.Locks
import PatternDiagram.Render.Schedule

/-!
# Schedules are histories

Whoever goes on next, and whenever: what becomes of a renderer on a schedule also becomes of it by
actions in some order.

* `Renderer.Becomes`: what a renderer can become by actions, without anybody calling anything off
  but requests;
* `Schedule.becomes_turn`, `Schedule.becomes_runUntil` and others: **all that happens on a schedule
  is of this kind**;
* `Command`, `Schedule.ofCommands`: what the one in the foreground does, one thing after another;
* `Schedule.exists_history`: **whatever the foreground does, the renderer has a history**, so that
  all that is known of histories is known of it.
-/

namespace PatternDiagram

variable {α : Type} [Coordinate α]

/-! ## 1. What becomes of a renderer -/

namespace Renderer

/-- **What a renderer can become** by actions, without anybody calling anything off but requests. -/
def Becomes (s s' : Renderer α) : Prop :=
  ∃ actions : List Action, (∀ a ∈ actions, a.callsOff = false) ∧ s' = actions.foldl perform s

namespace Becomes

theorem refl (s : Renderer α) : s.Becomes s := ⟨[], by simp, rfl⟩

theorem of_eq {s s' : Renderer α} (h : s' = s) : s.Becomes s' := h ▸ refl s

theorem trans {s s' s'' : Renderer α} (h : s.Becomes s') (h' : s'.Becomes s'') :
    s.Becomes s'' := by
  obtain ⟨actions, hquiet, rfl⟩ := h
  obtain ⟨more, hquiet', rfl⟩ := h'
  refine ⟨actions ++ more, fun a ha => ?_, by rw [List.foldl_append]⟩
  exact (List.mem_append.mp ha).elim (hquiet a) (hquiet' a)

theorem single (s : Renderer α) {a : Action} (ha : a.callsOff = false) : s.Becomes (s.perform a) :=
  ⟨[a], by simpa using ha, rfl⟩

/-- Several waits are over. -/
theorem rouse (s : Renderer α) (rs : List RequestId) : s.Becomes (rs.foldl Renderer.rouse s) := by
  induction rs generalizing s with
  | nil => exact refl s
  | cons r rs ih => exact (single s (a := .rouse r) rfl).trans (ih (s.rouse r))

end Becomes

end Renderer

/-! ## 2. Turns -/

namespace Schedule

omit [Coordinate α] in
@[simp] theorem renderer_callHolder (s : Schedule α) : s.callHolder.renderer = s.renderer := by
  unfold callHolder
  split
  · split
    · split <;> rfl
    · rfl
  · rfl

omit [Coordinate α] in
@[simp] theorem renderer_park (s : Schedule α) (r : RequestId) :
    (s.park r).renderer = s.renderer := by
  unfold park
  split
  · split <;> rfl
  · rfl
  · rfl

theorem becomes_fire (s : Schedule α) : s.renderer.Becomes s.fire.renderer :=
  .rouse s.renderer _

theorem becomes_gather (s : Schedule α) : s.renderer.Becomes s.gather.renderer :=
  s.becomes_fire.trans (.rouse s.fire.renderer _)

theorem becomes_tick {s s' : Schedule α} (h : s.tick? = some s') :
    s.renderer.Becomes s'.renderer := by
  unfold tick? at h
  split at h
  · cases h
  · obtain rfl := Option.some.inj h
    exact becomes_fire { s with now := _ }

theorem becomes_turn (s : Schedule α) (r : RequestId) : s.renderer.Becomes (s.turn r).renderer := by
  refine (Renderer.Becomes.single s.renderer (a := .resume r) rfl).trans (.of_eq ?_)
  simp only [turn, renderer_callHolder, renderer_park]
  rfl

theorem becomes_drain (foreground : Option RequestId) (turns : Nat) (s : Schedule α) :
    s.renderer.Becomes (s.drain foreground turns).renderer := by
  induction turns generalizing s with
  | zero => exact .refl s.renderer
  | succ turns ih =>
    unfold drain
    split
    · exact .refl s.renderer
    · rename_i r _
      exact (s.becomes_turn r).trans (ih (s.turn r))

theorem becomes_turnForeground (s : Schedule α) (foreground : Option RequestId) :
    s.renderer.Becomes (s.turnForeground foreground).renderer := by
  unfold turnForeground
  split
  · exact .refl s.renderer
  · rename_i r
    split
    · exact s.becomes_turn r
    · exact .refl s.renderer

theorem becomes_round (s : Schedule α) (foreground : Option RequestId) :
    s.renderer.Becomes (s.round foreground).renderer :=
  (s.becomes_drain foreground _).trans (becomes_gather _)

/-! ## 3. Many turns -/

theorem becomes_settleFor (rounds : Nat) (s : Schedule α) :
    s.renderer.Becomes (s.settleFor rounds).renderer := by
  induction rounds generalizing s with
  | zero => exact .refl s.renderer
  | succ rounds ih =>
    unfold settleFor
    dsimp only
    split
    · exact s.becomes_round none
    · exact (s.becomes_round none).trans (ih (s.round none))

/-- **Requests take turns**, and time passes when none can go on. -/
theorem becomes_runUntil (has : Schedule α → Bool) (foreground : Option RequestId) (rounds : Nat)
    (s : Schedule α) : s.renderer.Becomes (s.runUntil has foreground rounds).renderer := by
  induction rounds generalizing s with
  | zero => exact .refl s.renderer
  | succ rounds ih =>
    unfold runUntil
    dsimp only
    have hforeground := s.becomes_turnForeground foreground
    have hround := hforeground.trans (becomes_round (s.turnForeground foreground) foreground)
    split
    · exact .refl s.renderer
    · split
      · exact hforeground
      · split
        · exact hround
        · split
          · split
            · exact hround
            · rename_i htick
              exact (hround.trans (becomes_tick htick)).trans (ih _)
          · exact hround.trans (ih _)

theorem becomes_settle (s : Schedule α) : s.renderer.Becomes s.settle.renderer :=
  s.becomes_settleFor _

theorem becomes_passTo (time steps : Nat) (s : Schedule α) :
    s.renderer.Becomes (s.passTo time steps).renderer := by
  induction steps generalizing s with
  | zero => exact s.becomes_settle
  | succ steps ih =>
    unfold passTo
    dsimp only
    split
    · split
      · refine s.becomes_settle.trans (.trans ?_ (ih _))
        exact becomes_fire { s.settle with now := _ }
      · exact s.becomes_settle
    · exact s.becomes_settle

end Schedule

/-! ## 4. The foreground -/

/-- What the one in the foreground may do. -/
inductive Command where
  /-- A new request in the background. -/
  | start (source : String)
  /-- Waits for the end of a request. -/
  | join (r : RequestId)
  /-- A new request, and its end. -/
  | render (source : String)
  | hold
  | release
  /-- Lets so many milliseconds pass. -/
  | pass (ms : Nat)
  | cancel
  deriving DecidableEq, Repr

namespace Schedule

def obey (s : Schedule α) : Command → Schedule α
  | .start source => (s.start source).1
  | .join r => s.join r
  | .render source => (s.render source).1
  | .hold => s.hold
  | .release => s.release
  | .pass ms => s.pass ms
  | .cancel => s.cancel.2

/-- A schedule on which the foreground does one thing after another. -/
def ofCommands (config : Config α) (commands : List Command) : Schedule α :=
  commands.foldl obey (new config)

/-- Only one command calls something off. -/
theorem becomes_obey (s : Schedule α) {c : Command} (hc : c ≠ .cancel) :
    s.renderer.Becomes (s.obey c).renderer := by
  have hsubmit (source : String) : s.renderer.Becomes (s.submit source).1.renderer :=
    .single s.renderer (a := .submit source) rfl
  cases c with
  | start source => exact (hsubmit source).trans (becomes_settle _)
  | join r => exact s.becomes_runUntil _ none _
  | render source => exact (hsubmit source).trans (becomes_runUntil _ _ _ _)
  | hold =>
    exact (Renderer.Becomes.single s.renderer (a := .hold) rfl).trans (becomes_runUntil _ _ _ _)
  | release =>
    refine (Renderer.Becomes.single s.renderer (a := .release) rfl).trans (.of_eq ?_)
    exact renderer_callHolder _
  | pass ms => exact s.becomes_passTo _ _
  | cancel => exact absurd rfl hc

/-- **Whatever the foreground does, the renderer has a history.** Nobody calls anything off in it
    but requests if the foreground does not. -/
theorem exists_history (config : Config α) (commands : List Command) :
    ∃ actions, (ofCommands config commands).renderer =
        (History.ofActions config actions).renderer ∧
      (.cancel ∉ commands → ∀ a ∈ actions, a.callsOff = false) := by
  induction commands using List.reverseRecOn with
  | nil => exact ⟨[], rfl, by simp⟩
  | append_singleton commands c ih =>
    obtain ⟨actions, hrenderer, hquiet⟩ := ih
    rw [ofCommands, List.foldl_append]
    by_cases hc : c = .cancel
    · refine ⟨actions ++ [.cancel], ?_, fun hnot => absurd (by simp [hc]) hnot⟩
      rw [History.renderer_ofActions_append, ← hrenderer, hc]
      rfl
    · obtain ⟨more, hmore, hafter⟩ := becomes_obey (ofCommands config commands) hc
      refine ⟨actions ++ more, ?_, fun hnot a ha => ?_⟩
      · rw [History.renderer_ofActions_append, ← hrenderer, ← hafter]
        rfl
      · have hnot' : .cancel ∉ commands := fun hmem => hnot (List.mem_append_left _ hmem)
        exact (List.mem_append.mp ha).elim (hquiet hnot' a) (hmore a)

end Schedule

end PatternDiagram
