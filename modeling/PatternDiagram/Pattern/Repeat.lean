import PatternDiagram.Pattern.Basic
import PatternDiagram.Text.Numeral

/-!
# How a repetition is shown

* `RepeatShape`: the six pictures of a repetition, and `Quantifier.shape`, which picks one;
* `RepeatShape.skips`, `RepeatShape.loops`: whether the picture has a way around the body, and a way
  back to its front;
* `Quantifier.label`: the words under the picture, if the picture does not speak for itself.
-/

namespace PatternDiagram

/-- The pictures of a repetition. -/
inductive RepeatShape where
  | optional
  | zeroOrMore
  | oneOrMore
  | exact (n : Nat)
  | bounded (min max : Nat)
  | atLeast (min : Nat)
  deriving DecidableEq, Repr

/-- The picture of a quantifier. -/
def Quantifier.shape (q : Quantifier) : RepeatShape :=
  match q.min, q.max with
  | 0, some 1 => .optional
  | 0, none => .zeroOrMore
  | 1, none => .oneOrMore
  | m, none => .atLeast m
  | m, some n => if m = n then .exact m else .bounded m n

namespace RepeatShape

/-- There is a way around the body. -/
def skips : RepeatShape → Bool
  | .optional => true
  | .zeroOrMore => true
  | .bounded min _ => min == 0
  | _ => false

/-- There is a way from the end of the body back to its front. -/
def loops : RepeatShape → Bool
  | .optional => false
  | .exact _ => false
  | _ => true

/-- How often the body is repeated, in words. The shapes that have a sign of their own need none. -/
def words : RepeatShape → Option String
  | .optional => none
  | .zeroOrMore => none
  | .oneOrMore => none
  | .exact n => some (if n = 1 then "1 time" else Numeral.decimal n ++ " times")
  | .bounded min max => some (Numeral.decimal min ++ "\u2013" ++ Numeral.decimal max ++ " times")
  | .atLeast min => some (Numeral.decimal min ++ "+ times")

/-- The words under the picture. A lazy repetition says so. -/
def label (s : RepeatShape) (greedy : Bool) : Option String :=
  match s.words, greedy with
  | words, true => words
  | some words, false => some (words ++ " (lazy)")
  | none, false => some "lazy"

end RepeatShape

/-- The words under the picture of a quantifier. -/
def Quantifier.label (q : Quantifier) : Option String := q.shape.label q.greedy

end PatternDiagram
