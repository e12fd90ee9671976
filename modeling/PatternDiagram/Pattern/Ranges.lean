import PatternDiagram.Pattern.Basic
import PatternDiagram.Text.CodeRange

/-!
# The characters of a class, as ranges of code points

* `EscapeClass.ranges`: a named set as ascending ranges; the three negative ones are complements;
* `complement`: the gaps between ascending ranges, up to the last code point;
* `CharacterClass.ranges`: the ranges of all items in the order in which they were written, the
  class's own negation not applied;
* `EscapeClass.Holds`, `ClassItem.Covers`: what a named set and an item stand for, as sets.
-/

namespace PatternDiagram

/-! ## 1. Named sets -/

/-- The last code point. -/
def lastCode : Nat := 0x10FFFF

def digitRanges : List CodeRange := [(0x30, 0x39)]

def wordRanges : List CodeRange := [(0x30, 0x39), (0x41, 0x5A), (0x5F, 0x5F), (0x61, 0x7A)]

def spaceRanges : List CodeRange :=
  [(0x09, 0x0D), (0x20, 0x20), (0xA0, 0xA0), (0x1680, 0x1680), (0x2000, 0x200A),
    (0x2028, 0x2029), (0x202F, 0x202F), (0x205F, 0x205F), (0x3000, 0x3000), (0xFEFF, 0xFEFF)]

/-- The gaps that ascending ranges leave from `next` on. -/
def complementFrom (next : Nat) : List CodeRange → List CodeRange
  | [] => [(next, lastCode)]
  | (lo, hi) :: rs =>
      if next < lo then (next, lo - 1) :: complementFrom (hi + 1) rs
      else complementFrom (hi + 1) rs

/-- All code points outside the ranges, which must be ascending. -/
def complement (rs : List CodeRange) : List CodeRange := complementFrom 0 rs

/-- The set that an escape names. -/
def EscapeClass.ranges : EscapeClass → List CodeRange
  | .digit => digitRanges
  | .word => wordRanges
  | .whitespace => spaceRanges
  | .nonDigit => complement digitRanges
  | .nonWord => complement wordRanges
  | .nonWhitespace => complement spaceRanges

/-! ## 2. Classes -/

/-- The ranges of one item. -/
def ClassItem.ranges : ClassItem → List CodeRange
  | .char c => [(c.toNat, c.toNat)]
  | .range lo hi => [(lo.toNat, hi.toNat)]
  | .escape e => e.ranges

/-- The ranges of all items, in order. -/
def CharacterClass.ranges (c : CharacterClass) : List CodeRange :=
  c.items.flatMap ClassItem.ranges

/-- The code points that an escape stands for, said without the ranges of a complement: a negative
    escape stands for all that are not in the table. -/
def EscapeClass.Holds : EscapeClass → Nat → Prop
  | .digit, c => InRanges digitRanges c
  | .word, c => InRanges wordRanges c
  | .whitespace, c => InRanges spaceRanges c
  | .nonDigit, c => ¬ InRanges digitRanges c
  | .nonWord, c => ¬ InRanges wordRanges c
  | .nonWhitespace, c => ¬ InRanges spaceRanges c

/-- The code points that an item stands for. -/
def ClassItem.Covers : ClassItem → Nat → Prop
  | .char d, c => c = d.toNat
  | .range lo hi, c => lo.toNat ≤ c ∧ c ≤ hi.toNat
  | .escape e, c => e.Holds c

end PatternDiagram
