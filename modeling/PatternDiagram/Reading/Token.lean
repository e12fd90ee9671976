import PatternDiagram.Reading.Fault
import PatternDiagram.Reading.Escape
import PatternDiagram.Text.Letter

/-!
# Tokens

A pattern outside its character classes is a row of tokens:

* `GroupHead`, `Token`: the tokens;
* `Token.name`, `Token.braces`: group names and counts in braces;
* `Token.next`: the token at the front of a pattern and what is left behind it, or a failure, or
  nothing at the end;
* `Token.next_suffix`: what is left is an end of the pattern, and shorter than it.
-/

namespace PatternDiagram

/-- How a group begins. -/
inductive GroupHead where
  | capture (name : Option String)
  | plain
  | look (direction : Direction) (polarity : Polarity)
  deriving DecidableEq, Repr

/-- A unit of a pattern. A character class is only opened by a token; its members are read by rules
    of their own. -/
inductive Token where
  | literal (l : Literal)
  | classOpen (negated : Bool)
  | anchor (a : Anchor)
  | groupOpen (head : GroupHead)
  | groupClose
  | quantifier (q : Quantifier)
  | bar
  | backreference (t : Target)
  deriving DecidableEq, Repr

namespace Token

/-! ## 1. Numbers and names -/

/-- The greatest count of a repetition. Greater ones are read as this one. -/
def greatestCount : Nat := UInt32.size - 1

/-- The greatest number of a group in a back reference. Greater ones are read as this one. -/
def greatestIndex : Nat := UInt64.size - 1

/-- The digits at the front. -/
def digits (cs : List Char) : List Char := cs.takeWhile Char.isDigit

/-- What follows the digits at the front. -/
def afterDigits (cs : List Char) : List Char := cs.dropWhile Char.isDigit

/-- A count at the front, if there is a digit, and what follows it. -/
def count? (cs : List Char) : Option (Nat × List Char) :=
  match digits cs with
  | [] => none
  | ds => some (min (Numeral.value 10 ds) greatestCount, afterDigits cs)

/-- A name may start with the character. -/
def startsName (c : Char) : Bool := isLetter c || c == '_' || c == '$'

/-- A name may go on with the character. -/
def continuesName (c : Char) : Bool := isLetterOrNumber c || c == '_' || c == '$'

/-- The name at the front, empty if there is none, and what follows it. -/
def nameRun : List Char → List Char × List Char
  | c :: cs =>
      if startsName c then (c :: cs.takeWhile continuesName, cs.dropWhile continuesName)
      else ([], c :: cs)
  | [] => ([], [])

/-- A name with the bracket that closes it. Without a name or without the bracket the failure is
    about the place `site`. -/
def name (site cs : List Char) : Except Failure (String × List Char) :=
  match nameRun cs with
  | (c :: more, '>' :: rest) => .ok (String.ofList (c :: more), rest)
  | (_, rest) => .error ⟨.invalidGroupName, site, rest⟩

/-! ## 2. The parts of tokens -/

/-- The bounds in braces behind the opening one, `m}`, `m,}` or `m,n}`, and what follows them. -/
def bounds? (cs : List Char) : Option ((Nat × Option Nat) × List Char) :=
  match count? cs with
  | none => none
  | some (m, '}' :: rest) => some ((m, some m), rest)
  | some (m, ',' :: '}' :: rest) => some ((m, none), rest)
  | some (m, ',' :: more) =>
      match count? more with
      | some (n, '}' :: rest) => some ((m, some n), rest)
      | _ => none
  | some _ => none

/-- A quantifier with its bounds, lazy if a question mark follows. -/
def lazily (min : Nat) (max : Option Nat) : List Char → Token × List Char
  | '?' :: rest => (.quantifier ⟨min, max, false⟩, rest)
  | rest => (.quantifier ⟨min, max, true⟩, rest)

/-- What an opening brace means. If no bounds follow, it is a character like any other. -/
def braces (site cs : List Char) : Except Failure (Token × List Char) :=
  match bounds? cs with
  | none => .ok (.literal (.char '{'), cs)
  | some ((m, some n), rest) =>
      if n < m then .error ⟨.countsOutOfOrder, site, rest⟩ else .ok (lazily m (some n) rest)
  | some ((m, none), rest) => .ok (lazily m none rest)

/-- What an opening parenthesis means. -/
def group (site : List Char) : List Char → Except Failure (Token × List Char)
  | '?' :: ':' :: rest => .ok (.groupOpen .plain, rest)
  | '?' :: '=' :: rest => .ok (.groupOpen (.look .ahead .positive), rest)
  | '?' :: '!' :: rest => .ok (.groupOpen (.look .ahead .negative), rest)
  | '?' :: '<' :: '=' :: rest => .ok (.groupOpen (.look .behind .positive), rest)
  | '?' :: '<' :: '!' :: rest => .ok (.groupOpen (.look .behind .negative), rest)
  | '?' :: '<' :: rest =>
      match name site rest with
      | .ok (s, rest) => .ok (.groupOpen (.capture (some s)), rest)
      | .error f => .error f
  | '?' :: rest => .error ⟨.invalidGroup, site, rest.drop 1⟩
  | rest => .ok (.groupOpen (.capture none), rest)

/-- What a backslash means. -/
def escape (site : List Char) : List Char → Except Failure (Token × List Char)
  | [] => .error ⟨.trailingBackslash, site, []⟩
  | 'b' :: rest => .ok (.anchor .wordBoundary, rest)
  | 'B' :: rest => .ok (.anchor .nonWordBoundary, rest)
  | 'k' :: '<' :: rest =>
      match name site rest with
      | .ok (s, rest) => .ok (.backreference (.name s), rest)
      | .error f => .error f
  | c :: rest =>
      if c.isDigit ∧ c ≠ '0' then
        .ok (.backreference (.index
          (min (Numeral.value 10 (digits (c :: rest))) greatestIndex)), afterDigits (c :: rest))
      else
        let (l, rest) := Escape.read c rest
        .ok (.literal l, rest)

/-! ## 3. Tokens -/

/-- The token that starts with `c`, followed by `cs`. -/
def read (c : Char) (cs : List Char) : Except Failure (Token × List Char) :=
  match c with
  | '|' => .ok (.bar, cs)
  | ')' => .ok (.groupClose, cs)
  | '(' => group (c :: cs) cs
  | '[' =>
      match cs with
      | '^' :: rest => .ok (.classOpen true, rest)
      | rest => .ok (.classOpen false, rest)
  | '^' => .ok (.anchor .start, cs)
  | '$' => .ok (.anchor .finish, cs)
  | '.' => .ok (.literal .any, cs)
  | '*' => .ok (lazily 0 none cs)
  | '+' => .ok (lazily 1 none cs)
  | '?' => .ok (lazily 0 (some 1) cs)
  | '{' => braces (c :: cs) cs
  | '\\' => escape (c :: cs) cs
  | _ => .ok (.literal (.char c), cs)

/-- The token at the front of a pattern and what is left behind it. -/
def next : List Char → Except Failure (Option (Token × List Char))
  | [] => .ok none
  | c :: cs =>
      match read c cs with
      | .ok found => .ok (some found)
      | .error f => .error f

/-! ## 4. What is left -/

theorem afterDigits_suffix (cs : List Char) : afterDigits cs <:+ cs := List.dropWhile_suffix _

theorem nameRun_suffix (cs : List Char) : (nameRun cs).2 <:+ cs := by
  cases cs with
  | nil => exact List.suffix_refl _
  | cons c cs =>
    simp only [nameRun]
    split
    · exact (List.dropWhile_suffix _).trans (List.suffix_cons c cs)
    · exact List.suffix_refl _

theorem name_suffix {site cs rest : List Char} {s : String} (h : name site cs = .ok (s, rest)) :
    rest <:+ cs := by
  have hrun := nameRun_suffix cs
  unfold name at h
  split at h
  · rename_i heq
    rw [heq] at hrun
    simp only [Except.ok.injEq, Prod.mk.injEq] at h
    obtain rfl := h.2
    exact (List.suffix_cons _ _).trans hrun
  · simp at h

theorem count?_suffix {cs rest : List Char} {n : Nat} (h : count? cs = some (n, rest)) :
    rest <:+ cs := by
  unfold count? at h
  split at h
  · simp at h
  · simp only [Option.some.injEq, Prod.mk.injEq] at h
    obtain rfl := h.2
    exact afterDigits_suffix cs

theorem bounds?_suffix {cs rest : List Char} {b : Nat × Option Nat}
    (h : bounds? cs = some (b, rest)) : rest <:+ cs := by
  unfold bounds? at h
  split at h
  · simp at h
  · rename_i heq
    simp only [Option.some.injEq, Prod.mk.injEq] at h
    obtain rfl := h.2
    exact (List.suffix_cons _ _).trans (count?_suffix heq)
  · rename_i heq
    simp only [Option.some.injEq, Prod.mk.injEq] at h
    obtain rfl := h.2
    exact ((List.suffix_cons _ _).trans (List.suffix_cons _ _)).trans (count?_suffix heq)
  · rename_i heq
    split at h
    · rename_i heq2
      simp only [Option.some.injEq, Prod.mk.injEq] at h
      obtain rfl := h.2
      exact (((List.suffix_cons _ _).trans (count?_suffix heq2)).trans
        (List.suffix_cons _ _)).trans (count?_suffix heq)
    · simp at h
  · simp at h

theorem lazily_suffix (min : Nat) (max : Option Nat) (cs : List Char) :
    (lazily min max cs).2 <:+ cs := by
  unfold lazily
  split
  · exact List.suffix_cons _ _
  · exact List.suffix_refl _

theorem braces_suffix {site cs rest : List Char} {t : Token}
    (h : braces site cs = .ok (t, rest)) : rest <:+ cs := by
  unfold braces at h
  split at h
  · simp only [Except.ok.injEq, Prod.mk.injEq] at h
    obtain rfl := h.2
    exact List.suffix_refl _
  · rename_i m n r heq
    split at h
    · simp at h
    · have hlazy := lazily_suffix m (some n) r
      simp only [Except.ok.injEq] at h
      rw [h] at hlazy
      exact hlazy.trans (bounds?_suffix heq)
  · rename_i m r heq
    have hlazy := lazily_suffix m none r
    simp only [Except.ok.injEq] at h
    rw [h] at hlazy
    exact hlazy.trans (bounds?_suffix heq)

theorem group_suffix {site cs rest : List Char} {t : Token}
    (h : group site cs = .ok (t, rest)) : rest <:+ cs := by
  have htwo : ∀ (a b : Char) (r : List Char), r <:+ a :: b :: r := fun a b r =>
    (List.suffix_cons b r).trans (List.suffix_cons a (b :: r))
  have hthree : ∀ (a b c : Char) (r : List Char), r <:+ a :: b :: c :: r := fun a b c r =>
    (htwo b c r).trans (List.suffix_cons a (b :: c :: r))
  unfold group at h
  split at h
  · simp only [Except.ok.injEq, Prod.mk.injEq] at h
    obtain rfl := h.2
    exact htwo _ _ _
  · simp only [Except.ok.injEq, Prod.mk.injEq] at h
    obtain rfl := h.2
    exact htwo _ _ _
  · simp only [Except.ok.injEq, Prod.mk.injEq] at h
    obtain rfl := h.2
    exact htwo _ _ _
  · simp only [Except.ok.injEq, Prod.mk.injEq] at h
    obtain rfl := h.2
    exact hthree _ _ _ _
  · simp only [Except.ok.injEq, Prod.mk.injEq] at h
    obtain rfl := h.2
    exact hthree _ _ _ _
  · split at h
    · rename_i heq
      simp only [Except.ok.injEq, Prod.mk.injEq] at h
      obtain rfl := h.2
      exact (name_suffix heq).trans (htwo _ _ _)
    · simp at h
  · simp at h
  · simp only [Except.ok.injEq, Prod.mk.injEq] at h
    obtain rfl := h.2
    exact List.suffix_refl _

theorem escape_suffix {site cs rest : List Char} {t : Token}
    (h : escape site cs = .ok (t, rest)) : rest <:+ cs := by
  unfold escape at h
  split at h
  · simp at h
  · simp only [Except.ok.injEq, Prod.mk.injEq] at h
    obtain rfl := h.2
    exact List.suffix_cons _ _
  · simp only [Except.ok.injEq, Prod.mk.injEq] at h
    obtain rfl := h.2
    exact List.suffix_cons _ _
  · split at h
    · rename_i heq
      simp only [Except.ok.injEq, Prod.mk.injEq] at h
      obtain rfl := h.2
      exact (name_suffix heq).trans ((List.suffix_cons _ _).trans (List.suffix_cons _ _))
    · simp at h
  · split at h
    · simp only [Except.ok.injEq, Prod.mk.injEq] at h
      obtain rfl := h.2
      exact afterDigits_suffix _
    · simp only [Except.ok.injEq, Prod.mk.injEq] at h
      obtain rfl := h.2
      exact Escape.read_suffix _ _

theorem read_suffix {c : Char} {cs rest : List Char} {t : Token}
    (h : read c cs = .ok (t, rest)) : rest <:+ cs := by
  have hlazy := fun (min : Nat) (max : Option Nat) => lazily_suffix min max cs
  unfold read at h
  split at h
  · simp only [Except.ok.injEq, Prod.mk.injEq] at h
    obtain rfl := h.2
    exact List.suffix_refl _
  · simp only [Except.ok.injEq, Prod.mk.injEq] at h
    obtain rfl := h.2
    exact List.suffix_refl _
  · exact group_suffix h
  · split at h
    · simp only [Except.ok.injEq, Prod.mk.injEq] at h
      obtain rfl := h.2
      exact List.suffix_cons _ _
    · simp only [Except.ok.injEq, Prod.mk.injEq] at h
      obtain rfl := h.2
      exact List.suffix_refl _
  · simp only [Except.ok.injEq, Prod.mk.injEq] at h
    obtain rfl := h.2
    exact List.suffix_refl _
  · simp only [Except.ok.injEq, Prod.mk.injEq] at h
    obtain rfl := h.2
    exact List.suffix_refl _
  · simp only [Except.ok.injEq, Prod.mk.injEq] at h
    obtain rfl := h.2
    exact List.suffix_refl _
  · simp only [Except.ok.injEq] at h
    have := hlazy 0 none
    rwa [h] at this
  · simp only [Except.ok.injEq] at h
    have := hlazy 1 none
    rwa [h] at this
  · simp only [Except.ok.injEq] at h
    have := hlazy 0 (some 1)
    rwa [h] at this
  · exact braces_suffix h
  · exact escape_suffix h
  · simp only [Except.ok.injEq, Prod.mk.injEq] at h
    obtain rfl := h.2
    exact List.suffix_refl _

/-- **A token takes at least one character, and what is left is an end of the pattern.** -/
theorem next_suffix {cs rest : List Char} {t : Token} (h : next cs = .ok (some (t, rest))) :
    ∃ c more, cs = c :: more ∧ rest <:+ more := by
  cases cs with
  | nil => simp [next] at h
  | cons c more =>
    refine ⟨c, more, rfl, ?_⟩
    simp only [next] at h
    split at h
    · rename_i heq
      simp only [Except.ok.injEq, Option.some.injEq] at h
      rw [h] at heq
      exact read_suffix heq
    · simp at h

theorem next_length {cs rest : List Char} {t : Token} (h : next cs = .ok (some (t, rest))) :
    rest.length < cs.length := by
  obtain ⟨c, more, rfl, hsuffix⟩ := next_suffix h
  exact Nat.lt_succ_of_le hsuffix.length_le

/-- Only the empty pattern has no token. -/
theorem next_eq_none_iff {cs : List Char} : next cs = .ok none ↔ cs = [] := by
  cases cs with
  | nil => simp [next]
  | cons c cs =>
    simp only [next, reduceCtorEq, iff_false]
    split <;> simp

end Token

end PatternDiagram
