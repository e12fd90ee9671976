import PatternDiagram.Reading.Reader

/-!
# Sources

A source is a pattern as it stands, or a pattern between slashes with flags behind it:

* `FlagLetters.read`: the flags that a row of letters stands for;
* `Source`, `Source.split`: the pattern of a source, how many characters come before it, and its
  flags. If something other than flag letters follows the last slash, the slashes belong to the
  pattern;
* `parse`: the expression that a source denotes.
-/

namespace PatternDiagram

/-! ## 1. Flags -/

/-- Whether the flag of this letter is set, or `none` if there is no such flag. -/
def Flags.isSet? (f : Flags) : Char → Option Bool
  | 'd' => some f.hasIndices
  | 'g' => some f.global
  | 'i' => some f.ignoreCase
  | 'm' => some f.multiline
  | 's' => some f.dotAll
  | 'u' => some f.unicode
  | 'v' => some f.unicodeSets
  | 'y' => some f.sticky
  | _ => none

/-- The flags with the flag of this letter as well. -/
def Flags.set (f : Flags) : Char → Flags
  | 'd' => { f with hasIndices := true }
  | 'g' => { f with global := true }
  | 'i' => { f with ignoreCase := true }
  | 'm' => { f with multiline := true }
  | 's' => { f with dotAll := true }
  | 'u' => { f with unicode := true }
  | 'v' => { f with unicodeSets := true }
  | 'y' => { f with sticky := true }
  | _ => f

/-- What the letters behind a pattern amount to. -/
inductive FlagLetters where
  | flags (f : Flags)
  /-- One of them is no flag. -/
  | foreign
  /-- One of them stands there for the second time, behind so many others. -/
  | repeated (letter : Char) (before : Nat)
  deriving DecidableEq, Repr

/-- Reads flag letters, `before` of which have been read. -/
def FlagLetters.read (f : Flags) (before : Nat) : List Char → FlagLetters
  | [] => .flags f
  | c :: cs =>
      match f.isSet? c with
      | none => .foreign
      | some true => .repeated c before
      | some false => read (f.set c) (before + 1) cs

/-! ## 2. Slashes -/

/-- A pattern in its source. -/
structure Source where
  pattern : List Char
  /-- How many characters come before the pattern. -/
  base : Nat := 0
  flags : Flags := {}
  deriving DecidableEq, Repr

namespace Source

/-- The text before the last slash, and the text behind it. -/
def atLastSlash? (cs : List Char) : Option (List Char × List Char) :=
  match cs.reverse.dropWhile (· != '/') with
  | [] => none
  | _ :: front => some (front.reverse, (cs.reverse.takeWhile (· != '/')).reverse)

/-- The pattern of a source. -/
def split (source : List Char) : Except SyntaxError Source :=
  let bare : Source := { pattern := source }
  match source with
  | '/' :: rest =>
      match atLastSlash? rest with
      | none => .ok bare
      | some (body, tail) =>
          match FlagLetters.read {} 0 tail with
          | .foreign => .ok bare
          | .repeated letter before =>
              .error ⟨.repeatedFlag letter, 2 + body.length + before⟩
          | .flags f => .ok { pattern := body, base := 1, flags := f }
  | _ => .ok bare

/-- The expression that the pattern denotes. -/
def expression (s : Source) : Except SyntaxError Expression :=
  match (Reader.ofPattern s.pattern s.base).parse with
  | (.ok root, reader) => .ok { root, flags := s.flags, groups := reader.groups }
  | (.error e, _) => .error e

end Source

/-- The expression that a source denotes. -/
def parse (source : String) : Except SyntaxError Expression :=
  match Source.split source.toList with
  | .ok s => s.expression
  | .error e => .error e

/-- An expression is the tree of its source's pattern with the groups that reading it gave. -/
theorem reader_of_parse {source : String} {e : Expression} (h : parse source = .ok e) :
    ∃ (s : Source) (after : Reader), Source.split source.toList = .ok s ∧
      (Reader.ofPattern s.pattern s.base).parse = (.ok e.root, after) ∧
      e.groups = after.groups := by
  unfold parse at h
  split at h
  · rename_i s hsplit
    unfold Source.expression at h
    split at h
    · rename_i root after hparse
      simp only [Except.ok.injEq] at h
      subst h
      exact ⟨s, after, hsplit, hparse, rfl⟩
    · simp at h
  · simp at h

end PatternDiagram
