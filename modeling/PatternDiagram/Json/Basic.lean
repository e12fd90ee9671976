import PatternDiagram.Decimal.Shortest

/-!
# JSON

* `Json`: values. The fields of an object keep their order;
* `Json.compact`: a value in one line, without blanks;
* `Json.pretty`: a value over several lines, two blanks for each level. An empty list and an empty
  object stay in one line.
-/

namespace PatternDiagram

/-- A JSON value. -/
inductive Json where
  | null
  | bool (b : Bool)
  | integer (n : Nat)
  | decimal (x : Float)
  | text (s : String)
  | list (items : List Json)
  | object (fields : List (String × Json))
  deriving Inhabited

namespace Json

/-! ## 1. Texts and numbers -/

/-- A character of a text. Quotation marks, backslashes and the controls below the space are written
    as escapes, the common ones with letters of their own; all else stands as it is. -/
def char (c : Char) : List Char :=
  if c = '"' ∨ c = '\\' then ['\\', c]
  else if c = '\n' then ['\\', 'n']
  else if c = '\r' then ['\\', 'r']
  else if c = '\t' then ['\\', 't']
  else if c = '\x08' then ['\\', 'b']
  else if c = '\x0c' then ['\\', 'f']
  else if c.toNat < 0x20 then '\\' :: 'u' :: Numeral.padded 4 16 c.toNat
  else [c]

/-- A text in quotation marks. -/
def quoted (s : String) : List Char := '"' :: (s.toList.flatMap char ++ ['"'])

/-- Numbers have the fewest digits that read back. From `10 ^ 16` on and below `10 ^ (-5)` they have
    an exponent, with a sign in either case, and what is not finite is no number at all. -/
def numberStyle : NumberStyle where
  leastPoint := -4
  greatestPoint := 16
  plus := ['+']
  tie := .even
  nan := "null"
  infinite := "null"
  negativeInfinite := "null"

/-- A value that holds no other values. Lists and objects are shown as if they were empty. -/
def scalar : Json → List Char
  | .null => "null".toList
  | .bool true => "true".toList
  | .bool false => "false".toList
  | .integer n => Numeral.write 10 n
  | .decimal x => (numberStyle.write x).toList
  | .text s => quoted s
  | .list _ => ['[', ']']
  | .object _ => ['{', '}']

/-! ## 2. In one line

Every part is written with what follows it, so that nothing is copied when something is put in
front. -/

mutual

/-- A value in one line, with what follows it. -/
def compactBefore : Json → List Char → List Char
  | .list items, rest => '[' :: compactItems items (']' :: rest)
  | .object fields, rest => '{' :: compactFields fields ('}' :: rest)
  | v, rest => v.scalar ++ rest

/-- Several values with commas between them. -/
def compactItems : List Json → List Char → List Char
  | [], rest => rest
  | [v], rest => compactBefore v rest
  | v :: vs, rest => compactBefore v (',' :: compactItems vs rest)

/-- Several fields with commas between them. -/
def compactFields : List (String × Json) → List Char → List Char
  | [], rest => rest
  | [(name, v)], rest => quoted name ++ ':' :: compactBefore v rest
  | (name, v) :: fields, rest =>
      quoted name ++ ':' :: compactBefore v (',' :: compactFields fields rest)

end

/-- A value in one line. -/
def compact (v : Json) : List Char := compactBefore v []

/-! ## 3. Over several lines -/

/-- A new line at the given level. -/
def newLine (level : Nat) : List Char := '\n' :: List.replicate (2 * level) ' '

mutual

/-- A value over several lines, its own first line at the given level, with what follows it. -/
def prettyBefore (level : Nat) : Json → List Char → List Char
  | .list (v :: vs), rest => '[' :: prettyItems (level + 1) (v :: vs) (newLine level ++ ']' :: rest)
  | .object (f :: fs), rest =>
      '{' :: prettyFields (level + 1) (f :: fs) (newLine level ++ '}' :: rest)
  | v, rest => v.scalar ++ rest

/-- Several values, each in lines of its own. -/
def prettyItems (level : Nat) : List Json → List Char → List Char
  | [], rest => rest
  | [v], rest => newLine level ++ prettyBefore level v rest
  | v :: vs, rest => newLine level ++ prettyBefore level v (',' :: prettyItems level vs rest)

/-- Several fields, each in lines of its own. -/
def prettyFields (level : Nat) : List (String × Json) → List Char → List Char
  | [], rest => rest
  | [(name, v)], rest => newLine level ++ quoted name ++ ':' :: ' ' :: prettyBefore level v rest
  | (name, v) :: fields, rest =>
      newLine level ++ quoted name ++
        ':' :: ' ' :: prettyBefore level v (',' :: prettyFields level fields rest)

end

/-- A value over several lines. -/
def pretty (v : Json) : List Char := prettyBefore 0 v []

end Json

end PatternDiagram
