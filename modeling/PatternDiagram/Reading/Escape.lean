import PatternDiagram.Pattern.Basic
import PatternDiagram.Text.Numeral

/-!
# Escapes

What follows a backslash, as far as it means the same inside and outside a character class:

* `Escape.octal`, `Escape.hex`, `Escape.code`: numbers of characters;
* `Escape.read`: one escape. The answer is the literal and what is left of the pattern, which is
  always an end of what came in (`Escape.read_suffix`).

An escape that is not finished properly stands for its letter.
-/

namespace PatternDiagram.Escape

/-- The character with this number, if there is one. -/
def charOfCode? (n : Nat) : Option Char := if n.isValidChar then some (Char.ofNat n) else none

/-- Goes on with an octal number for at most `more` digits, as long as it stays at most 255. -/
def octal : Nat → Nat → List Char → Nat × List Char
  | more + 1, value, c :: cs =>
      let larger := value * 8 + (Numeral.digit? c).getD 0
      if Numeral.isDigit 8 c ∧ larger ≤ 255 then octal more larger cs else (value, c :: cs)
  | _, value, cs => (value, cs)

/-- The digits of base sixteen at the front. -/
def hexDigits (cs : List Char) : List Char := cs.takeWhile (Numeral.isDigit 16)

/-- Exactly `n` digits of base sixteen. Without them nothing is read; with them they are, even if no
    character has that number. -/
def hex (n : Nat) (cs : List Char) : Option Char × List Char :=
  if (hexDigits (cs.take n)).length = n then
    (charOfCode? (Numeral.value 16 (cs.take n)), cs.drop n)
  else (none, cs)

/-- The number of a character: four digits of base sixteen, or any number of them in braces. Without
    a character of that number and a closing brace, nothing in braces is read. -/
def code : List Char → Option Char × List Char
  | '{' :: cs =>
      let digits := hexDigits cs
      match cs.drop digits.length with
      | '}' :: rest =>
          if digits.isEmpty then (none, '{' :: cs)
          else match charOfCode? (Numeral.value 16 digits) with
            | some c => (some c, rest)
            | none => (none, '{' :: cs)
      | _ => (none, '{' :: cs)
  | cs => hex 4 cs

/-- The character that a control letter stands for. -/
def controlChar (letter : Char) : Char := Char.ofNat (letter.toNat % 32)

/-- The escape of letter `c`, followed by `cs`. After a control escape without a letter, the
    backslash stands for itself and `c` is still to be read. -/
def read (c : Char) (cs : List Char) : Literal × List Char :=
  match c with
  | 'd' => (.set .digit, cs)
  | 'D' => (.set .nonDigit, cs)
  | 'w' => (.set .word, cs)
  | 'W' => (.set .nonWord, cs)
  | 's' => (.set .whitespace, cs)
  | 'S' => (.set .nonWhitespace, cs)
  | 'n' => (.escaped '\n' .lineFeed, cs)
  | 'r' => (.escaped '\r' .carriageReturn, cs)
  | 't' => (.escaped '\t' .tab, cs)
  | 'v' => (.escaped '\x0b' .verticalTab, cs)
  | 'f' => (.escaped '\x0c' .formFeed, cs)
  | '0' =>
      let (value, rest) := octal 2 0 cs
      if rest.length = cs.length then (.escaped '\x00' .null, cs)
      else (.escaped (Char.ofNat value) .octal, rest)
  | 'c' =>
      match cs with
      | letter :: rest =>
          if letter.isAlpha then (.escaped (controlChar letter) (.control letter), rest)
          else (.char '\\', c :: cs)
      | [] => (.char '\\', c :: cs)
  | 'x' =>
      match hex 2 cs with
      | (some value, rest) => (.escaped value .hex, rest)
      | (none, rest) => (.char 'x', rest)
  | 'u' =>
      match code cs with
      | (some value, rest) => (.escaped value .unicode, rest)
      | (none, rest) => (.char 'u', rest)
  | _ => (.char c, cs)

/-! ## What is left -/

theorem octal_suffix (more value : Nat) (cs : List Char) : (octal more value cs).2 <:+ cs := by
  induction more generalizing value cs with
  | zero => simp [octal]
  | succ more ih =>
    cases cs with
    | nil => simp [octal]
    | cons c cs =>
      simp only [octal]
      split
      · exact (ih _ cs).trans (List.suffix_cons c cs)
      · exact List.suffix_refl _

theorem drop_hexDigits (cs : List Char) :
    cs.drop (hexDigits cs).length = cs.dropWhile (Numeral.isDigit 16) := by
  have hsplit : (hexDigits cs ++ cs.dropWhile (Numeral.isDigit 16)).drop (hexDigits cs).length =
      cs.dropWhile (Numeral.isDigit 16) := List.drop_left
  rwa [hexDigits, List.takeWhile_append_dropWhile] at hsplit

theorem hex_suffix (n : Nat) (cs : List Char) : (hex n cs).2 <:+ cs := by
  unfold hex
  split
  · exact List.drop_suffix n cs
  · exact List.suffix_refl _

theorem code_suffix (cs : List Char) : (code cs).2 <:+ cs := by
  unfold code
  split
  · rename_i cs
    dsimp only
    split
    · rename_i rest hrest
      split
      · exact List.suffix_refl _
      · split
        · have hsuffix : '}' :: rest <:+ cs := by
            rw [← hrest]
            exact List.drop_suffix _ _
          exact ((List.suffix_cons '}' rest).trans hsuffix).trans (List.suffix_cons '{' cs)
        · exact List.suffix_refl _
    · exact List.suffix_refl _
  · exact hex_suffix 4 _

/-- **What an escape leaves is an end of what came in, its letter included.** -/
theorem read_suffix (c : Char) (cs : List Char) : (read c cs).2 <:+ c :: cs := by
  have hself : cs <:+ c :: cs := List.suffix_cons c cs
  unfold read
  split <;> try exact hself
  · dsimp only
    split
    · exact hself
    · exact (octal_suffix 2 0 cs).trans hself
  · split
    · split
      · exact (List.suffix_cons _ _).trans hself
      · exact List.suffix_refl _
    · exact List.suffix_refl _
  · have h := hex_suffix 2 cs
    split <;> (rename_i heq; rw [heq] at h; exact h.trans hself)
  · have h := code_suffix cs
    split <;> (rename_i heq; rw [heq] at h; exact h.trans hself)

end PatternDiagram.Escape
