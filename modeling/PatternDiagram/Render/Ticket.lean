/-!
# Tickets

Whoever asked for a drawing holds a ticket for it, by which the drawing can be called off and its
progress watched:

* `Progress`: how many nodes of a tree are drawn, of how many; both count modulo `2 ^ 64`;
* `Progress.percent`: the same in percent, never more than a hundred;
* `Ticket`: the call-off flag and the progress.
-/

namespace PatternDiagram

/-- How far a drawing has got. -/
structure Progress where
  done : UInt64 := 0
  total : UInt64 := 0
  deriving DecidableEq, Repr

/-- How far a drawing has got, in percent. Of nothing, nothing is done. -/
def Progress.percent (p : Progress) : Float :=
  if p.total = 0 then 0
  else (if p.done < p.total then p.done else p.total).toFloat / p.total.toFloat * 100

/-- What the one who asked for a drawing holds. -/
structure Ticket where
  cancelled : Bool := false
  progress : Progress := {}
  deriving DecidableEq, Repr

namespace Ticket

/-- Calls the drawing off. -/
def cancel (t : Ticket) : Ticket := { t with cancelled := true }

/-- Sets how many nodes there are to draw, none of which is drawn yet. -/
def setTotal (t : Ticket) (n : Nat) : Ticket := { t with progress := ⟨0, UInt64.ofNat n⟩ }

/-- Some more nodes are drawn. -/
def advance (t : Ticket) (n : Nat) : Ticket :=
  { t with progress := { t.progress with done := t.progress.done + UInt64.ofNat n } }

@[simp] theorem cancelled_advance (t : Ticket) (n : Nat) : (t.advance n).cancelled = t.cancelled :=
  rfl

@[simp] theorem cancelled_setTotal (t : Ticket) (n : Nat) :
    (t.setTotal n).cancelled = t.cancelled := rfl

/-- **Progress adds up.** -/
theorem advance_advance (t : Ticket) (m n : Nat) :
    (t.advance m).advance n = t.advance (m + n) := by
  simp [advance, UInt64.ofNat_add, UInt64.add_assoc]

@[simp] theorem advance_zero (t : Ticket) : t.advance 0 = t := by
  simp [advance]

end Ticket

end PatternDiagram
