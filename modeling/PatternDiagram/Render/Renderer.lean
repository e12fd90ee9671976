import PatternDiagram.Render.Lock
import PatternDiagram.Render.TicketBook
import PatternDiagram.Render.Tree

/-!
# One drawing at a time

A renderer owns a canvas and draws on it whatever it is asked for, one request at a time. A new
request calls off the one that is being served, waits a while, and tries again:

* `Phase`: how far a request has got. Between two phases it runs without a break;
* `Renderer`: the canvas with its lock, the tickets, the active ticket, and all requests;
* `Renderer.submit`, `Renderer.rouse`, `Renderer.resume`: a new request, the end of a wait, the next
  stretch of a request;
* `Renderer.cancel`, `Renderer.hold`, `Renderer.release`: what others may do in between.

Nothing here says who goes on next; that is `Schedule`.
-/

namespace PatternDiagram

/-- The number of a request, in the order in which they were made. -/
abbrev RequestId := Nat

/-- Who may have the canvas. -/
inductive Holder where
  | outside
  | request (r : RequestId)
  deriving DecidableEq, Repr

/-- How far a request has got. -/
inductive Phase (α : Type) where
  /-- It is about to ask for its turn. -/
  | claiming
  /-- It has called off the active request and waits for it to come to an end. -/
  | asleep
  /-- It has its turn and waits for the canvas. -/
  | queued (ticket : TicketId) (e : Expression)
  /-- It has the canvas, and the first half of the rendering is done. -/
  | drawing (ticket : TicketId) (e : Expression)
  | settled (outcome : Except (RenderError α) (RenderOutput α))

/-- A source that is to be drawn, and how far that has got. -/
structure Request (α : Type) where
  source : String
  phase : Phase α

/-- Everything that several requests have in common. -/
structure Renderer (α : Type) where
  config : Config α
  canvas : Canvas α
  lock : Lock Holder := {}
  tickets : TicketBook := {}
  /-- The ticket of the request that has its turn. -/
  active : Option TicketId := none
  requests : List (Request α) := []

namespace Renderer

variable {α : Type}

/-! ## 1. Looking -/

def phase? (s : Renderer α) (r : RequestId) : Option (Phase α) := s.requests[r]?.map Request.phase

/-- What a request has come to. -/
def outcome? (s : Renderer α) (r : RequestId) : Option (Except (RenderError α) (RenderOutput α)) :=
  match s.phase? r with
  | some (.settled outcome) => some outcome
  | _ => none

def isSettled (s : Renderer α) (r : RequestId) : Bool := (s.outcome? r).isSome

/-- The ticket of the request that has its turn. -/
def activeTicket? (s : Renderer α) : Option Ticket := s.active.map s.tickets.get

/-! ## 2. Small changes -/

def setPhase (s : Renderer α) (r : RequestId) (phase : Phase α) : Renderer α :=
  { s with requests := s.requests.modify r fun q => { q with phase } }

/-- The request comes to an end. Its turn is over, unless another has taken it. -/
def settle (s : Renderer α) (r : RequestId) (ticket : TicketId)
    (outcome : Except (RenderError α) (RenderOutput α)) : Renderer α :=
  { s.setPhase r (.settled outcome) with
    active := if s.active = some ticket then none else s.active }

/-- The request has the canvas: the first half of the rendering is done. -/
def beginDrawing (s : Renderer α) (r : RequestId) (ticket : TicketId) (e : Expression) :
    Renderer α :=
  { s.setPhase r (.drawing ticket e) with tickets := s.tickets.update ticket (Render.begin e) }

/-- The request asks for the canvas. -/
def askForCanvas (s : Renderer α) (r : RequestId) (ticket : TicketId) (e : Expression) :
    Renderer α :=
  let s' := { s with lock := s.lock.acquire (.request r) }
  if s'.lock.holder = some (.request r) then s'.beginDrawing r ticket e
  else s'.setPhase r (.queued ticket e)

/-! ## 3. Stretches of a request -/

/-- A new request. -/
def submit (s : Renderer α) (source : String) : Renderer α × RequestId :=
  ({ s with requests := s.requests ++ [⟨source, .claiming⟩] }, s.requests.length)

/-- The end of a request's wait. -/
def rouse (s : Renderer α) (r : RequestId) : Renderer α :=
  match s.phase? r with
  | some .asleep => s.setPhase r .claiming
  | _ => s

/-- Calls off the request that has its turn. -/
def cancelActive (s : Renderer α) : Renderer α :=
  match s.active with
  | none => s
  | some t => { s with tickets := s.tickets.update t Ticket.cancel }

/-- The request asks for its turn. If another has it, that one is called off. -/
def claim (s : Renderer α) (r : RequestId) (source : String) : Renderer α :=
  match s.active with
  | some _ => s.cancelActive.setPhase r .asleep
  | none =>
      let (tickets, ticket) := s.tickets.issue
      let s := { s with tickets, active := some ticket }
      match parse source with
      | .error e => s.settle r ticket (.error (.malformed e))
      | .ok e => s.askForCanvas r ticket e

variable [Coordinate α]

/-- The request draws and hands the canvas on. -/
def finishDrawing (s : Renderer α) (r : RequestId) (ticket : TicketId) (e : Expression) :
    Renderer α :=
  let result := Render.finish Canvas.surface s.config e s.canvas
    { ticket := s.tickets.get ticket }
  { s with
      canvas := result.surface
      tickets := s.tickets.update ticket fun _ => result.walk.ticket
      lock := s.lock.release }.settle r ticket result.outcome

/-- The next stretch of a request: as far as it gets without a break. A request that waits for
    something stays as it is. -/
def resume (s : Renderer α) (r : RequestId) : Renderer α :=
  match s.requests[r]? with
  | none => s
  | some q =>
      match q.phase with
      | .claiming => s.claim r q.source
      | .asleep => s
      | .queued ticket e =>
          if s.lock.holder = some (.request r) then s.beginDrawing r ticket e else s
      | .drawing ticket e => s.finishDrawing r ticket e
      | .settled _ => s

/-! ## 4. What others may do -/

/-- Nothing has been asked for yet. -/
def new (config : Config α) : Renderer α := { config, canvas := Canvas.blank }

omit [Coordinate α] in
/-- Calls off the request that has its turn. The answer says whether there is one. -/
def cancel (s : Renderer α) : Bool × Renderer α := (s.active.isSome, s.cancelActive)

omit [Coordinate α] in
/-- Someone else asks for the canvas. -/
def hold (s : Renderer α) : Renderer α := { s with lock := s.lock.acquire .outside }

omit [Coordinate α] in
/-- Someone else hands the canvas on. -/
def release (s : Renderer α) : Renderer α :=
  if s.lock.holder = some .outside then { s with lock := s.lock.release } else s

end Renderer

end PatternDiagram
