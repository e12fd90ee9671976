import PatternDiagram.Reading.Machine

/-!
# Readers

A reader stands somewhere in a pattern and goes on from there, token by token or tree by tree:

* `Reader`: the pattern, what is left of it, and the numbers and names given out so far, which
  outlive a failure;
* `Reader.position`, `Reader.offset`: places in bytes and in characters;
* `Reader.next`, `Reader.parse`, `Reader.seek`: one token, a whole tree, another place.
-/

namespace PatternDiagram

/-- The number of bytes that characters take in UTF-8. -/
def byteLength : List Char → Nat
  | [] => 0
  | c :: cs => c.utf8Size + byteLength cs

@[simp] theorem byteLength_nil : byteLength [] = 0 := rfl

@[simp] theorem byteLength_cons (c : Char) (cs : List Char) :
    byteLength (c :: cs) = c.utf8Size + byteLength cs := rfl

theorem byteLength_append (cs ds : List Char) :
    byteLength (cs ++ ds) = byteLength cs + byteLength ds := by
  induction cs with
  | nil => simp
  | cons c cs ih => simp [ih, Nat.add_assoc]

/-- What is left behind the first `n` bytes. -/
def dropBytes : Nat → List Char → List Char
  | _, [] => []
  | n, c :: cs => if n = 0 then c :: cs else dropBytes (n - c.utf8Size) cs

theorem dropBytes_suffix (n : Nat) (cs : List Char) : dropBytes n cs <:+ cs := by
  induction cs generalizing n with
  | nil => exact List.suffix_refl _
  | cons c cs ih =>
    rw [dropBytes]
    split
    · exact List.suffix_refl _
    · exact (ih _).trans (List.suffix_cons c cs)

/-- A place in a pattern, on the way through it. -/
structure Reader where
  pattern : List Char
  /-- How many characters of the source come before the pattern. -/
  base : Nat := 0
  /-- What is left of the pattern. -/
  rest : List Char
  naming : Naming := {}

/-- A token with the bytes that it takes, from the first to just behind the last one. -/
structure Lexeme where
  token : Token
  first : Nat
  behind : Nat
  deriving DecidableEq, Repr

namespace Reader

/-- A reader at the front of a pattern. -/
def ofPattern (pattern : List Char) (base : Nat) : Reader where
  pattern := pattern
  base := base
  rest := pattern

/-- The place where so much is left, in bytes. -/
def place (r : Reader) (rest : List Char) : Nat := byteLength r.pattern - byteLength rest

/-- The place of the reader, in bytes. -/
def position (r : Reader) : Nat := r.place r.rest

/-- The place where so much is left, in characters of the source. -/
def offset (r : Reader) (rest : List Char) : Nat := r.base + (r.pattern.length - rest.length)

/-- The error that a failure is to someone who sees the whole source. -/
def error (r : Reader) (f : Failure) : SyntaxError := ⟨f.fault, r.offset f.site⟩

/-- The reader, moved to where so much is left. -/
def goTo (r : Reader) (rest : List Char) : Reader := { r with rest }

/-- The reader, moved to a place given in bytes. -/
def seek (r : Reader) (position : Nat) : Reader := r.goTo (dropBytes position r.pattern)

/-- The next token, and the reader behind it; behind a fault it is where reading stopped. -/
def next (r : Reader) : Except SyntaxError (Option Lexeme) × Reader :=
  match Token.next r.rest with
  | .error f => (.error (r.error f), r.goTo f.stop)
  | .ok none => (.ok none, r)
  | .ok (some (t, rest)) => (.ok (some ⟨t, r.position, r.place rest⟩), r.goTo rest)

/-- All that is left as one tree, and the reader behind it. -/
def parse (r : Reader) : Except SyntaxError Node × Reader :=
  let outcome := (Machine.start r.naming r.rest).run
  let after := { r with naming := outcome.naming }
  match outcome.result with
  | .ok root => (.ok root, after.goTo [])
  | .error f => (.error (r.error f), after.goTo f.stop)

theorem parse_eq_ok_iff (r : Reader) (root : Node) :
    r.parse.1 = .ok root ↔ (Machine.start r.naming r.rest).run.result = .ok root := by
  unfold parse
  dsimp only
  split <;> simp_all

theorem parse_eq_error_iff (r : Reader) (e : SyntaxError) :
    r.parse.1 = .error e ↔
      ∃ f, (Machine.start r.naming r.rest).run.result = .error f ∧ e = r.error f := by
  unfold parse
  dsimp only
  split
  · rename_i root hrun
    simp [hrun]
  · rename_i f hrun
    simp [hrun, eq_comm]

/-- The groups that were given numbers. -/
def groups (r : Reader) : GroupTable := ⟨r.naming.next - 1, r.naming.table⟩

/-- The place where a reader stands comes before what is left of its pattern. -/
theorem place_of_append {r : Reader} {front rest : List Char} (h : r.pattern = front ++ rest) :
    r.place rest = byteLength front := by
  rw [place, h, byteLength_append, Nat.add_sub_cancel]

/-- A reader finds the token that its rest begins with, and goes behind it. -/
theorem next_eq_some_iff {r after : Reader} {t : Token} {first behind : Nat} :
    r.next = (.ok (some ⟨t, first, behind⟩), after) ↔
      ∃ rest, Token.next r.rest = .ok (some (t, rest)) ∧ first = r.position ∧
        behind = r.place rest ∧ after = r.goTo rest := by
  unfold next
  constructor
  · intro h
    split at h
    · simp at h
    · simp at h
    · rename_i t' rest hnext
      simp only [Prod.mk.injEq, Except.ok.injEq, Option.some.injEq, Lexeme.mk.injEq] at h
      obtain ⟨⟨rfl, rfl, rfl⟩, rfl⟩ := h
      exact ⟨rest, hnext, rfl, rfl, rfl⟩
  · rintro ⟨rest, hnext, rfl, rfl, rfl⟩
    rw [hnext]

end Reader

end PatternDiagram
