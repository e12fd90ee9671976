import Mathlib.Data.List.Induction
import PatternDiagram.Render.Renderer

/-!
# What happens to a renderer

Requests, their waits, those who hold the canvas and those who call a drawing off take turns in any
order. This file fixes what each of them can do, and what is noted of it:

* `Action`, `Renderer.perform`: one stretch of a request, or what others do in between;
* `Event`, `Renderer.events`: a request is given its turn, a ticket is called off, a request comes
  to an end;
* `Renderer.Moves`, `Renderer.moves_perform`: **all that an action can do to a renderer**, and what
  is noted then;
* `History`, `History.ofActions`: a renderer with all that has been noted since it was new;
* `History.invariant`: what a new renderer has and every action keeps, every history has.
-/

namespace PatternDiagram

/-- What may happen to a renderer. -/
inductive Action where
  /-- Someone asks for a drawing. -/
  | submit (source : String)
  /-- A request goes on until it has to wait. -/
  | resume (r : RequestId)
  /-- The wait of a request is over. -/
  | rouse (r : RequestId)
  /-- Someone calls off the request that has its turn. -/
  | cancel
  /-- Someone who has been given a ticket calls it off, at whatever time. -/
  | callOff (t : TicketId)
  /-- Someone else asks for the canvas. -/
  | hold
  /-- Someone else hands the canvas on. -/
  | release
  deriving DecidableEq, Repr

/-- Someone calls a drawing off who does not ask for one himself. -/
def Action.callsOff : Action → Bool
  | .cancel | .callOff _ => true
  | .submit _ | .resume _ | .rouse _ | .hold | .release => false

/-- What a request comes to. -/
abbrev Outcome (α : Type) := Except (RenderError α) (RenderOutput α)

/-- What is noted of a renderer. -/
inductive Event (α : Type) where
  /-- The request is given its turn, and the ticket. -/
  | claimed (r : RequestId) (t : TicketId)
  /-- The ticket is called off, by a request that asks for its turn or by someone else. -/
  | calledOff (t : TicketId) (caller : Option RequestId)
  /-- The request with the ticket comes to an end. -/
  | settled (r : RequestId) (t : TicketId) (outcome : Outcome α)

variable {α : Type}

/-! ## 1. Requests and their phases -/

namespace Phase

/-- The ticket of a request that has its turn. -/
def ticket? : Phase α → Option TicketId
  | .queued t _ | .drawing t _ => some t
  | .claiming | .asleep | .settled _ => none

/-- The expression of a request that has its turn. -/
def expression? : Phase α → Option Expression
  | .queued _ e | .drawing _ e => some e
  | .claiming | .asleep | .settled _ => none

/-- The request has been given its turn, which may be over. -/
def isClaimed : Phase α → Bool
  | .queued _ _ | .drawing _ _ | .settled _ => true
  | .claiming | .asleep => false

/-- What the request has come to. -/
def outcome? : Phase α → Option (Outcome α)
  | .settled outcome => some outcome
  | .claiming | .asleep | .queued _ _ | .drawing _ _ => none

end Phase

namespace Renderer

/-- The ticket of the request, if it has its turn: it has been given a ticket and has not come to an
    end. -/
def ticket? (s : Renderer α) (r : RequestId) : Option TicketId := (s.phase? r).bind Phase.ticket?

/-- What the request asks for. -/
def source? (s : Renderer α) (r : RequestId) : Option String := s.requests[r]?.map Request.source

/-- The request has been given its turn, which may be over. -/
def isClaimed (s : Renderer α) (r : RequestId) : Bool := (s.phase? r).any Phase.isClaimed

/-- **A request has its turn** between being given it and coming to an end. -/
theorem isSome_ticket? (s : Renderer α) (r : RequestId) :
    (s.ticket? r).isSome = (s.isClaimed r && !s.isSettled r) := by
  unfold ticket? isClaimed isSettled outcome?
  cases s.phase? r with
  | none => rfl
  | some phase => cases phase <;> rfl

/-- The number of tickets that have been issued. -/
def issued (s : Renderer α) : Nat := s.tickets.tickets.length

/-! ## 2. Actions and events -/

/-- The end of the request, if it has come to one. -/
def ending (s : Renderer α) (r : RequestId) (t : TicketId) : List (Event α) :=
  ((s.outcome? r).map (Event.settled r t)).toList

variable [Coordinate α]

/-- The renderer after an action. -/
def perform (s : Renderer α) : Action → Renderer α
  | .submit source => (s.submit source).1
  | .resume r => s.resume r
  | .rouse r => s.rouse r
  | .cancel => s.cancel.2
  | .callOff t => { s with tickets := s.tickets.update t Ticket.cancel }
  | .hold => s.hold
  | .release => s.release

/-- What is noted of an action. -/
def events (s : Renderer α) : Action → List (Event α)
  | .resume r =>
      match s.phase? r with
      | some .claiming =>
          match s.active with
          | some t => [.calledOff t (some r)]
          | none => .claimed r s.issued :: (s.resume r).ending r s.issued
      | some (.drawing t _) => (s.resume r).ending r t
      | _ => []
  | .cancel => (s.active.map fun t => Event.calledOff t none).toList
  | .callOff t => if t < s.issued then [.calledOff t none] else []
  | .submit _ | .rouse _ | .hold | .release => []

/-- What the drawing of the request's expression leaves behind. -/
def result (s : Renderer α) (t : TicketId) (e : Expression) : Render.Result (Canvas α) α :=
  Render.finish Canvas.surface s.config e s.canvas { ticket := s.tickets.get t }

/-- **All that can happen to a renderer**, and what is noted of it. -/
inductive Moves (s : Renderer α) : List (Event α) → Renderer α → Prop where
  | submit (source : String) : Moves s [] (s.submit source).1
  | rouse {r : RequestId} (hphase : s.phase? r = some .asleep) :
      Moves s [] (s.setPhase r .claiming)
  /-- Whoever is to go on has to wait, or there is nothing to do. -/
  | stay : Moves s [] s
  | hold : Moves s [] { s with lock := s.lock.acquire .outside }
  | release (hlock : s.lock.holder = some .outside) : Moves s [] { s with lock := s.lock.release }
  | callOff {t : TicketId} (ht : t < s.issued ∨ s.active = some t) :
      Moves s [.calledOff t none] { s with tickets := s.tickets.update t Ticket.cancel }
  /-- A request finds another that has its turn. -/
  | defer {r : RequestId} {t : TicketId} (hphase : s.phase? r = some .claiming)
      (ht : s.active = some t) :
      Moves s [.calledOff t (some r)]
        { s.setPhase r .asleep with tickets := s.tickets.update t Ticket.cancel }
  /-- A request is given its turn, and its source is malformed. -/
  | refuse {r : RequestId} {source : String} {e : SyntaxError}
      (hphase : s.requests[r]? = some ⟨source, .claiming⟩) (hfree : s.active = none)
      (hparse : parse source = .error e) :
      Moves s [.claimed r s.issued, .settled r s.issued (.error (.malformed e))]
        { s.setPhase r (.settled (.error (.malformed e))) with tickets := s.tickets.issue.1 }
  /-- A request is given its turn and waits for the canvas. -/
  | queue {r : RequestId} {source : String} {e : Expression}
      (hphase : s.requests[r]? = some ⟨source, .claiming⟩) (hfree : s.active = none)
      (hparse : parse source = .ok e)
      (hlock : (s.lock.acquire (.request r)).holder ≠ some (.request r)) :
      Moves s [.claimed r s.issued]
        { s.setPhase r (.queued s.issued e) with
          tickets := s.tickets.issue.1
          active := some s.issued
          lock := s.lock.acquire (.request r) }
  /-- A request is given its turn and the canvas. -/
  | enter {r : RequestId} {source : String} {e : Expression}
      (hphase : s.requests[r]? = some ⟨source, .claiming⟩) (hfree : s.active = none)
      (hparse : parse source = .ok e)
      (hlock : (s.lock.acquire (.request r)).holder = some (.request r)) :
      Moves s [.claimed r s.issued]
        { s.setPhase r (.drawing s.issued e) with
          tickets := s.tickets.issue.1.update s.issued (Render.begin e)
          active := some s.issued
          lock := s.lock.acquire (.request r) }
  /-- A request that has its turn is given the canvas. -/
  | begin {r : RequestId} {t : TicketId} {e : Expression}
      (hphase : s.phase? r = some (.queued t e)) (hlock : s.lock.holder = some (.request r)) :
      Moves s [] { s.setPhase r (.drawing t e) with
        tickets := s.tickets.update t (Render.begin e) }
  | finish {r : RequestId} {t : TicketId} {e : Expression}
      (hphase : s.phase? r = some (.drawing t e)) :
      Moves s [.settled r t (s.result t e).outcome]
        { s.setPhase r (.settled (s.result t e).outcome) with
          canvas := (s.result t e).surface
          tickets := s.tickets.update t fun _ => (s.result t e).walk.ticket
          lock := s.lock.release
          active := if s.active = some t then none else s.active }

/-! ## 3. What an action does -/

omit [Coordinate α] in
theorem phase?_of_request {s : Renderer α} {r : RequestId} {source : String} {p : Phase α}
    (h : s.requests[r]? = some ⟨source, p⟩) : s.phase? r = some p := by
  rw [phase?, h]
  rfl

omit [Coordinate α] in
theorem source?_of_request {s : Renderer α} {r : RequestId} {source : String} {p : Phase α}
    (h : s.requests[r]? = some ⟨source, p⟩) : s.source? r = some source := by
  rw [source?, h]
  rfl

omit [Coordinate α] in
/-- A request that gets further is the only one that does. -/
theorem phase?_setPhase {s : Renderer α} {r : RequestId} {before : Phase α}
    (h : s.phase? r = some before) (after : Phase α) (r' : RequestId) :
    (s.setPhase r after).phase? r' = if r' = r then some after else s.phase? r' := by
  obtain ⟨q, hq, -⟩ := Option.map_eq_some_iff.mp h
  simp only [phase?, setPhase, List.getElem?_modify]
  by_cases hr : r' = r
  · subst hr
    simp [hq]
  · simp [hr, Ne.symm hr]

omit [Coordinate α] in
/-- A request is in the phase that it gets to, and any other is where it was. -/
theorem phase?_of_setPhase {s : Renderer α} {r r' : RequestId} {before after p : Phase α}
    (h : s.phase? r = some before) (hp : (s.setPhase r after).phase? r' = some p) :
    r' = r ∧ after = p ∨ r ≠ r' ∧ s.phase? r' = some p := by
  rw [phase?_setPhase h] at hp
  by_cases hr : r' = r
  · rw [if_pos hr] at hp
    exact .inl ⟨hr, Option.some.inj hp⟩
  · rw [if_neg hr] at hp
    exact .inr ⟨Ne.symm hr, hp⟩

omit [Coordinate α] in
/-- What depends on the phase of a request changes with that of the one that gets further. -/
theorem apply_setPhase {β : Type} (f : Option (Phase α) → β) {s : Renderer α} {r : RequestId}
    {before : Phase α} (h : s.phase? r = some before) (after : Phase α) (r' : RequestId) :
    f ((s.setPhase r after).phase? r') = if r' = r then f (some after) else f (s.phase? r') := by
  rw [phase?_setPhase h]
  split <;> rfl

omit [Coordinate α] in
/-- What is the same before and after does not change at all. -/
theorem apply_setPhase_of_eq {β : Type} (f : Option (Phase α) → β) {s : Renderer α}
    {r : RequestId} {before after : Phase α} (h : s.phase? r = some before)
    (he : f (some after) = f (some before)) (r' : RequestId) :
    f ((s.setPhase r after).phase? r') = f (s.phase? r') := by
  rw [apply_setPhase f h]
  split
  · rename_i hr
    rw [hr, he, h]
  · rfl

omit [Coordinate α] in
/-- A new request has not got anywhere, and all others are where they were. -/
theorem phase?_submit (s : Renderer α) (source : String) (r : RequestId) :
    (s.submit source).1.phase? r = s.phase? r ∨
      s.phase? r = none ∧ (s.submit source).1.phase? r = some .claiming := by
  simp only [phase?, submit, List.getElem?_append, List.getElem?_singleton]
  split
  · exact .inl rfl
  · rename_i h
    rw [List.getElem?_eq_none (Nat.le_of_not_lt h)]
    split
    · exact .inr ⟨rfl, rfl⟩
    · exact .inl rfl

omit [Coordinate α] in
theorem apply_submit {β : Type} (f : Option (Phase α) → β) (he : f (some .claiming) = f none)
    (s : Renderer α) (source : String) (r : RequestId) :
    f ((s.submit source).1.phase? r) = f (s.phase? r) := by
  rcases s.phase?_submit source r with h | ⟨hnone, h⟩
  · rw [h]
  · rw [h, hnone, he]

omit [Coordinate α] in
theorem outcome?_eq_bind (s : Renderer α) (r : RequestId) :
    s.outcome? r = (s.phase? r).bind Phase.outcome? := by
  unfold outcome?
  cases s.phase? r with
  | none => rfl
  | some phase => cases phase <;> rfl

omit [Coordinate α] in
theorem source?_setPhase (s : Renderer α) (r : RequestId) (after : Phase α) (r' : RequestId) :
    (s.setPhase r after).source? r' = s.source? r' := by
  simp only [source?, setPhase, List.getElem?_modify, Option.map_eq_map, Option.map_map]
  congr 1
  funext q
  by_cases hr : r = r' <;> simp [hr]

omit [Coordinate α] in
theorem eq_settled_of_mem_ending {s : Renderer α} {r : RequestId} {t : TicketId} {event : Event α}
    (h : event ∈ s.ending r t) : ∃ o, event = .settled r t o := by
  obtain ⟨o, -, rfl⟩ := Option.map_eq_some_iff.mp (Option.mem_toList.mp h)
  exact ⟨o, rfl⟩

omit [Coordinate α] in
theorem ending_of_settled {s : Renderer α} {r : RequestId} {t : TicketId} {outcome : Outcome α}
    (h : s.phase? r = some (.settled outcome)) : s.ending r t = [.settled r t outcome] := by
  simp [ending, outcome?, h]

omit [Coordinate α] in
theorem ending_of_running {s : Renderer α} {r : RequestId} (t : TicketId) {p : Phase α}
    (h : s.phase? r = some p) (hp : p.ticket?.isSome) : s.ending r t = [] := by
  cases p <;> simp_all [ending, outcome?, Phase.ticket?]

omit [Coordinate α] in
theorem ending_askForCanvas {s : Renderer α} {r : RequestId} {p : Phase α}
    (h : s.phase? r = some p) (t : TicketId) (e : Expression) :
    (s.askForCanvas r t e).ending r t = [] := by
  unfold askForCanvas
  dsimp only
  split
  · exact ending_of_running t ((phase?_setPhase h (.drawing t e) r).trans (if_pos rfl)) rfl
  · exact ending_of_running t ((phase?_setPhase h (.queued t e) r).trans (if_pos rfl)) rfl

omit [Coordinate α] in
theorem claim_of_taken {s : Renderer α} {t : TicketId} (r : RequestId) (source : String)
    (h : s.active = some t) :
    s.claim r source =
      { s.setPhase r .asleep with tickets := s.tickets.update t Ticket.cancel } := by
  cases s
  subst h
  rfl

omit [Coordinate α] in
theorem claim_of_malformed {s : Renderer α} {source : String} {e : SyntaxError} (r : RequestId)
    (hfree : s.active = none) (hparse : parse source = .error e) :
    s.claim r source =
      { s.setPhase r (.settled (.error (.malformed e))) with tickets := s.tickets.issue.1 } := by
  cases s
  subst hfree
  simp only [claim, hparse, settle, setPhase, if_true]

omit [Coordinate α] in
theorem claim_of_parsed {s : Renderer α} {source : String} {e : Expression} (r : RequestId)
    (hfree : s.active = none) (hparse : parse source = .ok e) :
    s.claim r source =
      { s with tickets := s.tickets.issue.1, active := some s.issued }.askForCanvas r s.issued
        e := by
  cases s
  subst hfree
  simp only [claim, hparse]
  rfl

/-- A request that is given its turn comes to an end in the same stretch if its source is
    malformed. -/
theorem resume_of_malformed {s : Renderer α} {r : RequestId} {source : String} {e : SyntaxError}
    (hrequest : s.requests[r]? = some ⟨source, .claiming⟩) (hfree : s.active = none)
    (hparse : parse source = .error e) :
    s.resume r =
        { s.setPhase r (.settled (.error (.malformed e))) with tickets := s.tickets.issue.1 } ∧
      s.events (.resume r) =
        [.claimed r s.issued, .settled r s.issued (.error (.malformed e))] := by
  have hphase := phase?_of_request hrequest
  have hresume : s.resume r =
      { s.setPhase r (.settled (.error (.malformed e))) with tickets := s.tickets.issue.1 } := by
    rw [← claim_of_malformed r hfree hparse]
    simp only [resume, hrequest]
  have hafter : (s.resume r).phase? r = some (.settled (.error (.malformed e))) := by
    rw [hresume]
    exact (phase?_setPhase hphase _ r).trans (if_pos rfl)
  refine ⟨hresume, ?_⟩
  simp only [events, hphase, hfree]
  rw [ending_of_settled hafter]

/-- A request that is given its turn asks for the canvas if its source is not malformed. -/
theorem resume_of_parsed {s : Renderer α} {r : RequestId} {source : String} {e : Expression}
    (hrequest : s.requests[r]? = some ⟨source, .claiming⟩) (hfree : s.active = none)
    (hparse : parse source = .ok e) :
    s.resume r =
        { s with tickets := s.tickets.issue.1, active := some s.issued }.askForCanvas r s.issued
          e ∧
      s.events (.resume r) = [.claimed r s.issued] := by
  have hphase := phase?_of_request hrequest
  have hresume : s.resume r =
      { s with tickets := s.tickets.issue.1, active := some s.issued }.askForCanvas r s.issued
        e := by
    rw [← claim_of_parsed r hfree hparse]
    simp only [resume, hrequest]
  have hrunning := ending_askForCanvas
    (s := { s with tickets := s.tickets.issue.1, active := some s.issued }) hphase s.issued e
  refine ⟨hresume, ?_⟩
  simp only [events, hphase, hfree]
  rw [hresume, hrunning]

/-- A request that has the canvas comes to an end when it goes on. -/
theorem resume_of_drawing {s : Renderer α} {r : RequestId} {t : TicketId} {e : Expression}
    (hphase : s.phase? r = some (.drawing t e)) :
    s.resume r = s.finishDrawing r t e ∧
      s.events (.resume r) = [.settled r t (s.result t e).outcome] := by
  obtain ⟨q, hrequest, hq⟩ := Option.map_eq_some_iff.mp hphase
  have hresume : s.resume r = s.finishDrawing r t e := by simp only [resume, hrequest, hq]
  have hafter : (s.resume r).phase? r = some (.settled (s.result t e).outcome) := by
    rw [hresume]
    exact (phase?_setPhase hphase _ r).trans (if_pos rfl)
  refine ⟨hresume, ?_⟩
  simp only [events, hphase]
  exact ending_of_settled hafter

/-- What a request does that asks for its turn. -/
theorem moves_claim {s : Renderer α} {r : RequestId} {source : String}
    (hrequest : s.requests[r]? = some ⟨source, .claiming⟩) :
    Moves s (s.events (.resume r)) (s.resume r) := by
  have hphase := phase?_of_request hrequest
  have hresume : s.resume r = s.claim r source := by simp only [resume, hrequest]
  cases hactive : s.active with
  | some t =>
    simp only [events, hphase, hactive]
    rw [hresume, claim_of_taken r source hactive]
    exact .defer hphase hactive
  | none =>
    cases hparse : parse source with
    | error e =>
      obtain ⟨hrefuse, hevents⟩ := resume_of_malformed hrequest hactive hparse
      rw [hevents, hrefuse]
      exact .refuse hrequest hactive hparse
    | ok e =>
      obtain ⟨hask, hevents⟩ := resume_of_parsed hrequest hactive hparse
      rw [hevents, hask]
      unfold askForCanvas
      dsimp only
      split
      · rename_i hlock
        exact .enter hrequest hactive hparse hlock
      · rename_i hlock
        exact .queue hrequest hactive hparse hlock

/-- **Every action moves the renderer** in one of these ways, and what is noted of it says in
    which. -/
theorem moves_perform (s : Renderer α) (a : Action) : Moves s (s.events a) (s.perform a) := by
  cases a with
  | submit source => exact .submit source
  | resume r =>
    cases hrequest : s.requests[r]? with
    | none =>
      have hphase : s.phase? r = none := by rw [phase?, hrequest]; rfl
      simp only [perform, resume, events, hrequest, hphase]
      exact .stay
    | some q =>
      obtain ⟨source, phase⟩ := q
      have hphase := phase?_of_request hrequest
      cases phase with
      | claiming => exact moves_claim hrequest
      | asleep =>
        simp only [perform, resume, events, hrequest, hphase]
        exact .stay
      | queued t e =>
        simp only [perform, resume, events, hrequest, hphase]
        split
        · rename_i hlock
          exact .begin hphase hlock
        · exact .stay
      | drawing t e =>
        obtain ⟨hresume, hevents⟩ := resume_of_drawing hphase
        rw [hevents, perform, hresume]
        exact .finish hphase
      | settled outcome =>
        simp only [perform, resume, events, hrequest, hphase]
        exact .stay
  | rouse r =>
    simp only [perform, rouse, events]
    split
    · rename_i hphase
      exact .rouse hphase
    · exact .stay
  | cancel =>
    cases hactive : s.active with
    | none =>
      simp only [perform, cancel, cancelActive, events, hactive]
      exact .stay
    | some t =>
      have hcancel : s.cancelActive =
          { s with tickets := s.tickets.update t Ticket.cancel } := by
        cases s
        subst hactive
        rfl
      have hnoted : s.events .cancel = [.calledOff t none] := by
        simp only [events, hactive]
        rfl
      rw [hnoted]
      show Moves s _ s.cancelActive
      rw [hcancel]
      exact .callOff (.inr hactive)
  | callOff t =>
    simp only [perform, events]
    split
    · rename_i ht
      exact .callOff (.inl ht)
    · rename_i ht
      have hsame : s.tickets.update t Ticket.cancel = s.tickets := by
        simp only [TicketBook.update, List.modify_eq_self (Nat.le_of_not_lt ht)]
      rw [hsame]
      exact .stay
  | hold => exact .hold
  | release =>
    simp only [perform, release, events]
    split
    · rename_i hlock
      exact .release hlock
    · exact .stay

omit [Coordinate α] in
/-- A request that comes to an end is the only one that does. -/
theorem outcome?_settle {s : Renderer α} {r : RequestId} {before : Phase α}
    {outcome : Outcome α} {es : List (Event α)} (hphase : s.phase? r = some before)
    (hbefore : before.outcome? = none)
    (hes : ∀ r' o, (∃ t, .settled r' t o ∈ es) ↔ r' = r ∧ o = outcome) (r' : RequestId)
    (o : Outcome α) :
    (s.setPhase r (.settled outcome)).outcome? r' = some o ↔
      s.outcome? r' = some o ∨ ∃ t, .settled r' t o ∈ es := by
  have hset := apply_setPhase (·.bind Phase.outcome?) hphase (.settled outcome) r'
  simp only [← outcome?_eq_bind] at hset
  rw [hset, hes]
  by_cases hr : r' = r
  · have hnone : s.outcome? r' = none := by
      rw [outcome?_eq_bind, hr, hphase]
      exact hbefore
    rw [if_pos hr, hnone]
    simp [Phase.outcome?, hr, eq_comm]
  · simp [hr]

/-- **A request comes to an end just when this is noted.** -/
theorem Moves.outcome?_iff {s s' : Renderer α} {es : List (Event α)} (h : Moves s es s')
    (r : RequestId) (o : Outcome α) :
    s'.outcome? r = some o ↔ s.outcome? r = some o ∨ ∃ t, .settled r t o ∈ es := by
  have hkeep {s' : Renderer α} {es : List (Event α)} (hsame : s'.outcome? r = s.outcome? r)
      (hes : ∀ t, .settled r t o ∉ es) :
      s'.outcome? r = some o ↔ s.outcome? r = some o ∨ ∃ t, .settled r t o ∈ es := by
    rw [hsame]
    exact ⟨.inl, fun h => h.resolve_right fun ⟨t, ht⟩ => hes t ht⟩
  have hphase {r' : RequestId} {before after : Phase α} (h : s.phase? r' = some before)
      (he : after.outcome? = before.outcome?) :
      (s.setPhase r' after).outcome? r = s.outcome? r := by
    simp only [outcome?_eq_bind]
    exact apply_setPhase_of_eq (·.bind Phase.outcome?) h he r
  cases h with
  | submit source =>
    refine hkeep ?_ (by simp)
    simp only [outcome?_eq_bind]
    exact apply_submit (·.bind Phase.outcome?) rfl s source r
  | rouse h => exact hkeep (hphase h rfl) (by simp)
  | stay | hold | release _ => exact hkeep rfl (by simp)
  | callOff ht => exact hkeep rfl (by simp)
  | defer h ht => exact hkeep (hphase h rfl) (by simp)
  | queue hrequest hfree hparse hlock =>
    exact hkeep (hphase (phase?_of_request hrequest) rfl) (by simp)
  | enter hrequest hfree hparse hlock =>
    exact hkeep (hphase (phase?_of_request hrequest) rfl) (by simp)
  | begin h hlock => exact hkeep (hphase h rfl) (by simp)
  | refuse hrequest hfree hparse =>
    exact outcome?_settle (phase?_of_request hrequest) rfl (by simp) r o
  | finish h => exact outcome?_settle h rfl (by simp) r o

end Renderer

/-! ## 4. Histories -/

/-- A renderer, with all that has been noted since it was new. -/
structure History (α : Type) where
  renderer : Renderer α
  log : List (Event α) := []

namespace History

variable [Coordinate α]

/-- Nothing has happened yet. -/
def new (config : Config α) : History α := { renderer := Renderer.new config }

/-- The history with one more action. -/
def extend (h : History α) (a : Action) : History α :=
  ⟨h.renderer.perform a, h.log ++ h.renderer.events a⟩

/-- What becomes of a new renderer. -/
def ofActions (config : Config α) (actions : List Action) : History α :=
  actions.foldl extend (new config)

/-- **What a new renderer has and every action keeps, every history has.** -/
theorem invariant {P : History α → Prop} {config : Config α} (hnew : P (new config))
    (hextend : ∀ h a, P h → P (h.extend a)) (actions : List Action) :
    P (ofActions config actions) := by
  induction actions using List.reverseRecOn with
  | nil => exact hnew
  | append_singleton actions a ih =>
    rw [ofActions, List.foldl_append]
    exact hextend _ a ih

/-- **A request has come to an end just when this has been noted.** -/
theorem outcome?_iff (config : Config α) (actions : List Action) (r : RequestId) (o : Outcome α) :
    (ofActions config actions).renderer.outcome? r = some o ↔
      ∃ t, .settled r t o ∈ (ofActions config actions).log := by
  refine invariant (P := fun h => h.renderer.outcome? r = some o ↔ ∃ t, .settled r t o ∈ h.log)
    ?_ (fun h a ih => ?_) actions
  · simp [new, Renderer.new, Renderer.outcome?_eq_bind, Renderer.phase?]
  · simp only [extend, List.mem_append, exists_or]
    rw [(h.renderer.moves_perform a).outcome?_iff, ih]

end History

end PatternDiagram
