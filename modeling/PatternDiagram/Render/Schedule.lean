import PatternDiagram.Render.Renderer

/-!
# Who goes on next

The requests of a renderer take turns on one thread. This file fixes their order:

* `Schedule`: the requests that can go on, first come first served; those that have stepped back
  until no other can; and those that wait for a time;
* `Schedule.turn`: one request goes on until it has to wait;
* `Schedule.settle`: all requests go on until each of them waits for something. No time passes;
* `Schedule.runUntil`: requests take turns, and time passes only when none of them can go on;
* `Schedule.start`, `Schedule.join`, `Schedule.render`, `Schedule.hold`, `Schedule.release`,
  `Schedule.pass`, `Schedule.cancel`: what the one in the foreground may do.

The foreground waits for one thing at a time. If that is a request of its own, the request goes on
before all others as soon as it can.
-/

namespace PatternDiagram

/-- The requests of a renderer, in the order in which they go on. -/
structure Schedule (α : Type) where
  renderer : Renderer α
  /-- The time in milliseconds. -/
  now : Nat := 0
  /-- The requests that can go on, the next one first. -/
  ready : List RequestId := []
  /-- The requests that step back until no other can go on. -/
  yielded : List RequestId := []
  /-- The requests that wait for a time. All wait equally long, so the earliest time stands
      first. -/
  timers : List (Nat × RequestId) := []

namespace Schedule

variable {α : Type}

/-! ## 1. Turns -/

/-- The request can go on if it has just been handed the canvas. -/
def callHolder (s : Schedule α) : Schedule α :=
  match s.renderer.lock.holder with
  | some (.request r) =>
      match s.renderer.phase? r with
      | some (.queued _ _) =>
          if r ∈ s.ready then s else { s with ready := s.ready ++ [r] }
      | _ => s
  | _ => s

/-- What a request waits for that has come to the end of a stretch. A wait of no time at all is no
    more than a step back. -/
def park (s : Schedule α) (r : RequestId) : Schedule α :=
  match s.renderer.phase? r with
  | some .asleep =>
      if s.renderer.config.cancelDelay = 0 then { s with yielded := s.yielded ++ [r] }
      else { s with timers := s.timers ++ [(s.now + s.renderer.config.cancelDelay, r)] }
  | some (.drawing _ _) => { s with yielded := s.yielded ++ [r] }
  | _ => s

/-- Those who wait for a time that has come can go on. -/
def fire (s : Schedule α) : Schedule α :=
  let due := (s.timers.filter fun timer => decide (timer.1 ≤ s.now)).map (·.2)
  { s with
    renderer := due.foldl Renderer.rouse s.renderer
    ready := s.ready ++ due
    timers := s.timers.filter fun timer => decide (s.now < timer.1) }

/-- Those who have stepped back can go on, behind those whose time has come. -/
def gather (s : Schedule α) : Schedule α :=
  let s := s.fire
  { s with
    renderer := s.yielded.foldl Renderer.rouse s.renderer
    ready := s.ready ++ s.yielded
    yielded := [] }

/-- Time passes until the first of the waiting has to go on. -/
def tick? (s : Schedule α) : Option (Schedule α) :=
  match s.timers with
  | [] => none
  | (time, _) :: _ => some { s with now := max s.now time }.fire

variable [Coordinate α]

/-- A request goes on until it has to wait. -/
def turn (s : Schedule α) (r : RequestId) : Schedule α :=
  ({ s with
      renderer := s.renderer.resume r
      ready := s.ready.erase r }.park r).callHolder

/-- All that can go on do so, those too that are called on the way; only the one in the foreground
    does not. No request has more than three turns. -/
def drain (foreground : Option RequestId) : Nat → Schedule α → Schedule α
  | 0, s => s
  | turns + 1, s =>
      match s.ready.find? fun r => some r != foreground with
      | none => s
      | some r => drain foreground turns (s.turn r)

/-- The one in the foreground goes on, if it can. -/
def turnForeground (s : Schedule α) : Option RequestId → Schedule α
  | none => s
  | some r => if r ∈ s.ready then s.turn r else s

/-- All that can go on do so, except for the one in the foreground. Those who have stepped back are
    next. -/
def round (s : Schedule α) (foreground : Option RequestId) : Schedule α :=
  (s.drain foreground (3 * s.renderer.requests.length)).gather

/-! ## 2. Many turns -/

/-- Rounds until every request waits for something, or for so many rounds. No time passes. -/
def settleFor : Nat → Schedule α → Schedule α
  | 0, s => s
  | rounds + 1, s =>
      let s := s.round none
      if s.ready.isEmpty then s else settleFor rounds s

/-- Rounds until the foreground has what it waits for, or for so many rounds. Time passes when no
    request can go on. -/
def runUntil (has : Schedule α → Bool) (foreground : Option RequestId) :
    Nat → Schedule α → Schedule α
  | 0, s => s
  | rounds + 1, s =>
      if has s then s
      else
        let s := s.turnForeground foreground
        if has s then s
        else
          let s := s.round foreground
          if has s then s
          else if s.ready.isEmpty then
            match s.tick? with
            | none => s
            | some s => runUntil has foreground rounds s
          else runUntil has foreground rounds s

/-- So many rounds are enough if nobody else keeps the canvas: with every passage of time at least
    one more request comes to an end, within a few rounds. -/
def patience (s : Schedule α) : Nat := 8 * (s.renderer.requests.length + 2)

/-- Every request goes on until it waits for something. No time passes. -/
def settle (s : Schedule α) : Schedule α := s.settleFor s.patience

/-- Time passes up to the given time, in so many steps at most. Whoever waits for a time on the way
    goes on at that time. -/
def passTo (time : Nat) : Nat → Schedule α → Schedule α
  | 0, s => s.settle
  | steps + 1, s =>
      let s := s.settle
      match s.timers with
      | (next, _) :: _ =>
          if s.now < next ∧ next ≤ time then passTo time steps { s with now := next }.fire
          else { s with now := time }
      | [] => { s with now := time }

/-! ## 3. The foreground -/

/-- A renderer that nobody has asked for anything yet. -/
def new (config : Config α) : Schedule α := { renderer := Renderer.new config }

/-- A new request that can go on. -/
def submit (s : Schedule α) (source : String) : Schedule α × RequestId :=
  let (renderer, r) := s.renderer.submit source
  ({ s with renderer, ready := s.ready ++ [r] }, r)

/-- A new request in the background. Everything goes on as far as it can without time passing. -/
def start (s : Schedule α) (source : String) : Schedule α × RequestId :=
  let (s, r) := s.submit source
  (s.settle, r)

/-- Waits for the end of a request. -/
def join (s : Schedule α) (r : RequestId) : Schedule α :=
  s.runUntil (fun s => s.renderer.isSettled r) none s.patience

/-- A new request in the foreground, and its end. -/
def render (s : Schedule α) (source : String) : Schedule α × RequestId :=
  let (s, r) := s.submit source
  (s.runUntil (fun s => s.renderer.isSettled r) (some r) s.patience, r)

/-- Waits for the canvas, and keeps it. -/
def hold (s : Schedule α) : Schedule α :=
  let s := { s with renderer := s.renderer.hold }
  s.runUntil (fun s => s.renderer.lock.holder == some .outside) none s.patience

omit [Coordinate α] in
/-- Hands the canvas on. No request goes on by this alone. -/
def release (s : Schedule α) : Schedule α :=
  { s with renderer := s.renderer.release }.callHolder

/-- Lets so many milliseconds pass. -/
def pass (s : Schedule α) (ms : Nat) : Schedule α := passTo (s.now + ms) (ms + 1) s

omit [Coordinate α] in
/-- Calls off the request that has its turn. The answer says whether there is one. -/
def cancel (s : Schedule α) : Bool × Schedule α :=
  let (found, renderer) := s.renderer.cancel
  (found, { s with renderer })

end Schedule

end PatternDiagram
