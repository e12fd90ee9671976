import PatternDiagram.Pattern.References
import PatternDiagram.Render.Ticket

/-!
# Books of tickets

Several parties may hold the same ticket. A book keeps the tickets, and the parties hold numbers:

* `TicketBook`: the tickets that have been issued; `TicketBook.issue`, `TicketBook.get`,
  `TicketBook.update`;
* `Account`: what one drawing holds: the number of its ticket, and warnings of its own.
-/

namespace PatternDiagram

/-- The number of a ticket. -/
abbrev TicketId := Nat

/-- The tickets that have been issued, in order. -/
structure TicketBook where
  tickets : List Ticket := []
  deriving DecidableEq, Repr

namespace TicketBook

/-- Issues a fresh ticket. -/
def issue (b : TicketBook) : TicketBook × TicketId :=
  (⟨b.tickets ++ [({} : Ticket)]⟩, b.tickets.length)

/-- The ticket with this number. One that has not been issued is as good as fresh. -/
def get (b : TicketBook) (id : TicketId) : Ticket := b.tickets.getD id {}

/-- Changes the ticket with this number. -/
def update (b : TicketBook) (id : TicketId) (f : Ticket → Ticket) : TicketBook :=
  ⟨b.tickets.modify id f⟩

@[simp] theorem length_issue (b : TicketBook) :
    b.issue.1.tickets.length = b.tickets.length + 1 := by
  simp [issue]

@[simp] theorem length_update (b : TicketBook) (id : TicketId) (f : Ticket → Ticket) :
    (b.update id f).tickets.length = b.tickets.length := by
  simp [update]

theorem get_update_self (b : TicketBook) {id : TicketId} (f : Ticket → Ticket)
    (h : id < b.tickets.length) : (b.update id f).get id = f (b.get id) := by
  simp [update, get, List.getD_eq_getElem?_getD, h]

theorem get_update_ne (b : TicketBook) {id other : TicketId} (f : Ticket → Ticket)
    (h : id ≠ other) : (b.update id f).get other = b.get other := by
  simp [update, get, List.getD_eq_getElem?_getD, h]

end TicketBook

/-- What one drawing holds. -/
structure Account where
  ticket : TicketId
  warnings : List Warning := []
  deriving DecidableEq, Repr

end PatternDiagram
