/-!
# Locks

Something that one party has at a time. Whoever comes while it is taken waits in a queue, and it
goes to the one who has waited longest:

* `Lock`: who has it, and who waits for it;
* `Lock.acquire`, `Lock.release`.
-/

namespace PatternDiagram

/-- Who has something, and who waits for it, the longest first. -/
structure Lock (π : Type) where
  holder : Option π := none
  queue : List π := []
  deriving DecidableEq, Repr

namespace Lock

variable {π : Type}

/-- Takes it if it is free, and joins the queue otherwise. -/
def acquire (l : Lock π) (p : π) : Lock π :=
  match l.holder with
  | none => { l with holder := some p }
  | some _ => { l with queue := l.queue ++ [p] }

/-- Hands it on. -/
def release (l : Lock π) : Lock π :=
  match l.queue with
  | [] => { holder := none, queue := [] }
  | p :: rest => { holder := some p, queue := rest }

theorem acquire_free (l : Lock π) (p : π) (h : l.holder = none) :
    (l.acquire p).holder = some p := by
  simp [acquire, h]

theorem acquire_taken (l : Lock π) (p q : π) (h : l.holder = some q) :
    l.acquire p = { holder := some q, queue := l.queue ++ [p] } := by
  simp [acquire, h]

/-- **It goes to the one who has waited longest.** -/
theorem holder_release (l : Lock π) : l.release.holder = l.queue.head? := by
  unfold release
  cases l.queue <;> rfl

end Lock

end PatternDiagram
