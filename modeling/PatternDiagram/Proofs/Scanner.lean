import PatternDiagram.Proofs.Bytes

/-!
# Tokens by bytes

The scanner that walks over bytes, one definition for each of its parts. Some parts try a reading
and go back if it fails, to a place they have kept or by one byte:

* `Bytes.scanCount`, `Bytes.scanBounds`, `Bytes.scanName`: counts, bounds and names;
* `Bytes.scanOctal`, `Bytes.scanHex`, `Bytes.scanCode`, `Bytes.charEscape`: escapes;
* `Bytes.nextToken`, `Bytes.peekToken`: a token.

In front of any end of a pattern each of them comes to what its counterpart without bytes finds
there, up to `Bytes.run_nextToken`. So none of their cuts goes wrong, and none of their loops uses
up its rounds.
-/

namespace PatternDiagram.Bytes

/-! ## 1. The parts -/

section

variable (pattern : List Char) (base : Nat)

/-- A question mark behind a quantifier makes it lazy. -/
def scanLazy (min : Nat) (max : Option Nat) : ByteReader Token := do
  let isLazy ← eat pattern '?'
  return .quantifier ⟨min, max, !isLazy⟩

/-- A count. Without a digit there is none. -/
def scanCount : ByteReader (Option Nat) := do
  let first ← position
  skipWhile pattern fun _ => Char.isDigit
  let behind ← position
  if behind = first then
    return none
  else
    return some (min (Numeral.value 10 (← slice pattern first behind)) Token.greatestCount)

/-- The bounds behind a count. -/
def scanBoundsFrom (min : Nat) : ByteReader (Option (Nat × Option Nat)) := do
  if ← eat pattern '}' then
    return some (min, some min)
  else if ← eat pattern ',' then
    if ← eat pattern '}' then
      return some (min, none)
    else
      match ← scanCount pattern with
      | none => return none
      | some max => if ← eat pattern '}' then return some (min, some max) else return none
  else
    return none

/-- The bounds behind an opening brace. If there are none, the cursor goes back to the brace. -/
def scanBounds : ByteReader (Option (Nat × Option Nat)) := do
  let kept ← position
  match ← scanCount pattern with
  | none => return none
  | some min =>
    match ← scanBoundsFrom pattern min with
    | some bounds => return some bounds
    | none =>
      goTo kept
      return none

/-- What an opening brace means that stands at `start`. -/
def scanBraces (start : Nat) : Trial Token := do
  match ← (scanBounds pattern : ByteReader _) with
  | none => return .literal (.char '{')
  | some (min, none) => scanLazy pattern min none
  | some (min, some max) =>
    if max < min then throw (← errorAt pattern base .countsOutOfOrder start)
    else scanLazy pattern min (some max)

/-- A name may have the character at this place, if it begins at `first`. -/
def suitsName (first place : Nat) (c : Char) : Bool :=
  if place = first then Token.startsName c else Token.continuesName c

/-- A name and the bracket that closes it, in what begins at `start`. -/
def scanName (start : Nat) : Trial String := do
  let first ← position
  (skipWhile pattern (suitsName first) : ByteReader _)
  let name ← slice pattern first (← position)
  if name.isEmpty then throw (← errorAt pattern base .invalidGroupName start)
  else if ← eat pattern '>' then return String.ofList name
  else throw (← errorAt pattern base .invalidGroupName start)

/-- What an opening parenthesis means that stands at `start`. -/
def scanGroup (start : Nat) : Trial Token := do
  if ← eat pattern '?' then
    match ← (advance pattern : ByteReader _) with
    | some ':' => return .groupOpen .plain
    | some '=' => return .groupOpen (.look .ahead .positive)
    | some '!' => return .groupOpen (.look .ahead .negative)
    | some '<' =>
      if ← eat pattern '=' then return .groupOpen (.look .behind .positive)
      else if ← eat pattern '!' then return .groupOpen (.look .behind .negative)
      else return .groupOpen (.capture (some (← scanName pattern base start)))
    | _ => throw (← errorAt pattern base .invalidGroup start)
  else
    return .groupOpen (.capture none)

/-- Goes on with an octal number for at most `more` digits, as long as it stays at most 255. -/
def scanOctal : Nat → Nat → ByteReader Nat
  | 0, value => return value
  | more + 1, value => do
    match ← peek pattern with
    | none => return value
    | some c =>
      let larger := value * 8 + (Numeral.digit? c).getD 0
      if Numeral.isDigit 8 c ∧ larger ≤ 255 then
        let _ ← advance pattern
        scanOctal more larger
      else
        return value

/-- Past so many digits of base sixteen, or to the first character that is none. -/
def eatHexDigits : Nat → ByteReader Bool
  | 0 => return true
  | n + 1 => do
    if (← peek pattern).any (Numeral.isDigit 16) then
      let _ ← advance pattern
      eatHexDigits n
    else
      return false

/-- Exactly `n` digits of base sixteen. Without them the cursor goes back. -/
def scanHex (n : Nat) : ByteReader (Option Char) := do
  let first ← position
  if ← eatHexDigits pattern n then
    return Escape.charOfCode? (Numeral.value 16 (← slice pattern first (← position)))
  else
    goTo first
    return none

/-- The character with a number of base sixteen. No digits are no number. -/
def charOfDigits? (digits : List Char) : Option Char :=
  if digits.isEmpty then none else Escape.charOfCode? (Numeral.value 16 digits)

/-- The number of a character, in braces or with four digits. If the braces do not hold one, the
    cursor goes back to the opening brace. -/
def scanCode : ByteReader (Option Char) := do
  if (← peek pattern) = some '{' then
    let kept ← position
    let _ ← advance pattern
    let first ← position
    skipWhile pattern fun _ => Numeral.isDigit 16
    match charOfDigits? (← slice pattern first (← position)) with
    | some value =>
      if ← eat pattern '}' then
        return some value
      else
        goTo kept
        return none
    | none =>
      goTo kept
      return none
  else
    scanHex pattern 4

/-- The escape of the letter that has been passed. A control escape without a letter goes one byte
    back, to its own. -/
def charEscape (c : Char) : ByteReader Literal := do
  match c with
  | '0' =>
    let first ← position
    let value ← scanOctal pattern 2 0
    if (← position) = first then return .escaped '\x00' .null
    else return .escaped (Char.ofNat value) .octal
  | 'c' =>
    match (← peek pattern).filter Char.isAlpha with
    | some letter =>
      let _ ← advance pattern
      return .escaped (Escape.controlChar letter) (.control letter)
    | none =>
      goTo (← onePlaceBack)
      return .char '\\'
  | 'x' =>
    match ← scanHex pattern 2 with
    | some value => return .escaped value .hex
    | none => return .char 'x'
  | 'u' =>
    match ← scanCode pattern with
    | some value => return .escaped value .unicode
    | none => return .char 'u'
  | _ => return (Escape.read c []).1

/-- What a backslash means that stands at `start`. The number of a back reference begins one byte
    back, with the digit that has been passed. -/
def scanEscape (start : Nat) : Trial Token := do
  match ← (advance pattern : ByteReader _) with
  | none => throw (← errorAt pattern base .trailingBackslash start)
  | some 'b' => return .anchor .wordBoundary
  | some 'B' => return .anchor .nonWordBoundary
  | some c =>
    if c.isDigit ∧ c ≠ '0' then
      let first ← onePlaceBack
      (skipWhile pattern fun _ => Char.isDigit : ByteReader _)
      let digits ← slice pattern first (← position)
      return .backreference (.index (min (Numeral.value 10 digits) Token.greatestIndex))
    else if c = 'k' then
      if ← eat pattern '<' then return .backreference (.name (← scanName pattern base start))
      else return .literal (← charEscape pattern c)
    else
      return .literal (← charEscape pattern c)

/-- The token whose first character `c` stands at `start`. -/
def scanToken (c : Char) (start : Nat) : Trial Token := do
  match c with
  | '|' => return .bar
  | ')' => return .groupClose
  | '(' => scanGroup pattern base start
  | '[' => return .classOpen (← eat pattern '^')
  | '^' => return .anchor .start
  | '$' => return .anchor .finish
  | '.' => return .literal .any
  | '*' => scanLazy pattern 0 none
  | '+' => scanLazy pattern 1 none
  | '?' => scanLazy pattern 0 (some 1)
  | '{' => scanBraces pattern base start
  | '\\' => scanEscape pattern base start
  | _ => return .literal (.char c)

/-- The next token with the bytes that it takes, and past it. -/
def nextToken : Trial (Option Lexeme) := do
  let start ← (position : ByteReader _)
  match ← (advance pattern : ByteReader _) with
  | none => return none
  | some c =>
    let token ← scanToken pattern base c start
    return some ⟨token, start, ← position⟩

/-- The next token, or the fault in it. The cursor stays where it is. -/
def peekToken : Trial (Option Lexeme) := ExceptT.mk do
  let kept ← position
  let found ← (nextToken pattern base).run
  goTo kept
  return found

end

/-! ## 2. What they come to -/

/-- What is found in front of an end of a pattern, as a trial comes to it. -/
def outcome {α : Type} (pattern : List Char) (base : Nat) (naming : Naming) :
    Except Failure (α × List Char) → Option (Except SyntaxError α × Cursor)
  | .ok (a, rest) => some (.ok a, .before pattern rest naming)
  | .error f =>
      some (.error ⟨f.fault, base + (pattern.length - f.site.length)⟩,
        .before pattern f.stop naming)

variable {pattern rest site : List Char}

theorem run_throw_errorAt {α : Type} (h : site <:+ pattern) (base : Nat) (fault : Fault)
    (stop : List Char) (naming : Naming) :
    (do throw (← errorAt pattern base fault (placeOf pattern site)) : Trial α).run.run
        (.before pattern stop naming) =
      outcome pattern base naming (.error ⟨fault, site, stop⟩) := by
  simp [outcome, run_errorAt h, throw, throwThe, MonadExceptOf.throw]

theorem run_scanLazy (h : rest <:+ pattern) (min : Nat) (max : Option Nat) (naming : Naming) :
    (scanLazy pattern min max).run (.before pattern rest naming) =
      some ((Token.lazily min max rest).1,
        .before pattern (Token.lazily min max rest).2 naming) := by
  unfold Token.lazily
  split
  · simp [scanLazy, h]
  · rename_i hne
    simp [scanLazy, run_eat_of_ne h hne]

theorem run_scanCount (h : rest <:+ pattern) (naming : Naming) :
    (scanCount pattern).run (.before pattern rest naming) =
      some ((Token.count? rest).map Prod.fst,
        .before pattern (Token.afterDigits rest) naming) := by
  have hplace := placeOf_skipped_iff Char.isDigit h
  unfold Token.count? Token.digits Token.afterDigits
  cases hdigits : rest.takeWhile Char.isDigit with
  | nil => simp [scanCount, run_skip _ h, hplace.mpr hdigits]
  | cons c cs =>
    have hne : ¬ placeOf pattern (rest.dropWhile Char.isDigit) = placeOf pattern rest := by
      simp [hplace, hdigits]
    simp [scanCount, run_skip _ h, hne, run_slice_skipped _ h, hdigits]

theorem afterDigits_of_none {cs : List Char} (h : Token.count? cs = none) :
    Token.afterDigits cs = cs := by
  unfold Token.count? at h
  split at h
  · rename_i hdigits
    have hsplit : Token.digits cs ++ Token.afterDigits cs = cs := List.takeWhile_append_dropWhile
    rwa [hdigits, List.nil_append] at hsplit
  · simp at h

theorem count?_rest {cs more : List Char} {n : Nat} (h : Token.count? cs = some (n, more)) :
    more = Token.afterDigits cs := by
  unfold Token.count? at h
  split at h
  · simp at h
  · simp only [Option.some.injEq, Prod.mk.injEq] at h
    exact h.2.symm

/-- The bounds behind a count, and what follows them. -/
def boundsFrom? (min : Nat) : List Char → Option ((Nat × Option Nat) × List Char)
  | '}' :: rest => some ((min, some min), rest)
  | ',' :: '}' :: rest => some ((min, none), rest)
  | ',' :: more =>
      match Token.count? more with
      | some (max, '}' :: rest) => some ((min, some max), rest)
      | _ => none
  | _ => none

theorem bounds?_eq (cs : List Char) :
    Token.bounds? cs = (Token.count? cs).bind fun (min, more) => boundsFrom? min more := by
  unfold Token.bounds?
  split
  · simp_all
  · simp_all [boundsFrom?]
  · simp_all [boundsFrom?]
  · rename_i hbrace hcount
    rw [hcount, Option.bind_some]
    exact (boundsFrom?.eq_3 _ _ hbrace).symm
  · rename_i found hclose hboth hcomma hcount
    obtain ⟨m, more⟩ := found
    rw [hcount, Option.bind_some]
    exact (boundsFrom?.eq_4 m more (fun rest e => hclose m rest (by rw [e]))
      (fun rest e => hboth m rest (by rw [e])) (fun rest e => hcomma m rest (by rw [e]))).symm

/-- Where there are no bounds, the cursor may be anywhere between. -/
theorem run_scanBoundsFrom (h : rest <:+ pattern) (min : Nat) (naming : Naming) :
    ∃ stop, (scanBoundsFrom pattern min).run (.before pattern rest naming) =
        some ((boundsFrom? min rest).map Prod.fst, .before pattern stop naming) ∧
      ∀ b left, boundsFrom? min rest = some (b, left) → stop = left := by
  unfold boundsFrom?
  split
  · rename_i left
    exact ⟨left, by simp [scanBoundsFrom, h], by simp⟩
  · rename_i left
    have hbrace : '}' :: left <:+ pattern := (List.suffix_cons ',' _).trans h
    exact ⟨left, by simp [scanBoundsFrom, h, hbrace, run_eat_of_ne h], by simp⟩
  · rename_i more hbrace
    have hmore : more <:+ pattern := (List.suffix_cons ',' more).trans h
    have hafter : Token.afterDigits more <:+ pattern := (Token.afterDigits_suffix more).trans hmore
    have hcount := run_scanCount hmore naming
    cases heq : Token.count? more with
    | none =>
      rw [heq] at hcount
      refine ⟨Token.afterDigits more, ?_, by simp⟩
      simp [scanBoundsFrom, h, run_eat_of_ne h, run_eat_of_ne hmore hbrace, hcount]
    | some found =>
      obtain ⟨max, left⟩ := found
      obtain rfl := count?_rest heq
      rw [heq] at hcount
      split
      · rename_i max' left' e
        simp only [Option.some.injEq, Prod.mk.injEq] at e
        obtain ⟨rfl, e⟩ := e
        rw [e] at hafter hcount
        refine ⟨left', ?_, by simp⟩
        simp [scanBoundsFrom, h, run_eat_of_ne h, run_eat_of_ne hmore hbrace, hcount, hafter]
      · rename_i hnone
        have hne : ∀ left, Token.afterDigits more ≠ '}' :: left := fun left e =>
          hnone max left (by rw [e])
        refine ⟨Token.afterDigits more, ?_, by simp⟩
        simp [scanBoundsFrom, h, run_eat_of_ne h, run_eat_of_ne hmore hbrace, hcount,
          run_eat_of_ne hafter hne]
  · rename_i hclose _ hcomma
    exact ⟨rest, by simp [scanBoundsFrom, run_eat_of_ne h hclose, run_eat_of_ne h hcomma], by simp⟩

theorem run_scanBounds (h : rest <:+ pattern) (naming : Naming) :
    (scanBounds pattern).run (.before pattern rest naming) =
      some ((Token.bounds? rest).map Prod.fst,
        .before pattern ((Token.bounds? rest).elim rest Prod.snd) naming) := by
  have hcount := run_scanCount h naming
  have hafter : Token.afterDigits rest <:+ pattern := (Token.afterDigits_suffix rest).trans h
  rw [bounds?_eq]
  cases heq : Token.count? rest with
  | none =>
    rw [heq] at hcount
    simp [scanBounds, hcount, afterDigits_of_none heq]
  | some found =>
    obtain ⟨min, more⟩ := found
    rw [heq, ← count?_rest heq] at hcount
    rw [← count?_rest heq] at hafter
    obtain ⟨stop, hrun, hstop⟩ := run_scanBoundsFrom hafter min naming
    cases hfrom : boundsFrom? min more with
    | none => simp [scanBounds, hcount, hrun, hfrom]
    | some found =>
      obtain rfl := hstop _ _ hfrom
      simp [scanBounds, hcount, hrun, hfrom]

theorem run_scanBraces (hsite : site <:+ pattern) (h : rest <:+ pattern) (base : Nat)
    (naming : Naming) :
    (scanBraces pattern base (placeOf pattern site)).run.run (.before pattern rest naming) =
      outcome pattern base naming (Token.braces site rest) := by
  have hbounds := run_scanBounds h naming
  unfold Token.braces
  split
  · rename_i heq
    simp [scanBraces, hbounds, heq, outcome]
  · rename_i min max left heq
    have hleft := (Token.bounds?_suffix heq).trans h
    split
    · rename_i hlt
      simpa [scanBraces, hbounds, heq, hlt] using run_throw_errorAt hsite base _ left naming
    · rename_i hlt
      simp [scanBraces, hbounds, heq, hlt, run_scanLazy hleft, outcome]
  · rename_i min left heq
    have hleft := (Token.bounds?_suffix heq).trans h
    simp [scanBraces, hbounds, heq, run_scanLazy hleft, outcome]

/-- The first character of a name is told by its place. -/
theorem run_skipWhile_name (h : rest <:+ pattern) (naming : Naming) :
    (skipWhile pattern (suitsName (placeOf pattern rest))).run (.before pattern rest naming) =
      some ((), .before pattern (Token.nameRun rest).2 naming) := by
  rw [skipWhile, rounds, skipWithin]
  cases rest with
  | nil => simp [h, Token.nameRun]
  | cons c cs =>
    have hcs : cs <:+ pattern := (List.suffix_cons c cs).trans h
    have hlater : ∀ d more, d :: more <:+ cs →
        suitsName (placeOf pattern (c :: cs)) (placeOf pattern (d :: more)) d =
          Token.continuesName d := by
      rintro d more ⟨between, rfl⟩
      have hne : ¬ placeOf pattern (d :: more) = placeOf pattern (c :: (between ++ d :: more)) :=
        fun e => List.cons_ne_nil c between ((placeOf_eq_iff (c :: between) h).mp e)
      simp [suitsName, hne]
    have hmore := run_skipWithin hcs h.length_le hlater naming
    rw [Token.nameRun]
    cases hstarts : Token.startsName c <;> simp [h, suitsName, hstarts, hmore]

theorem nameRun_append (cs : List Char) : (Token.nameRun cs).1 ++ (Token.nameRun cs).2 = cs := by
  unfold Token.nameRun
  split
  · split <;> simp
  · rfl

theorem run_scanName (hsite : site <:+ pattern) (h : rest <:+ pattern) (base : Nat)
    (naming : Naming) :
    (scanName pattern base (placeOf pattern site)).run.run (.before pattern rest naming) =
      outcome pattern base naming (Token.name site rest) := by
  have hskip := run_skipWhile_name h naming
  have hslice := fun s => run_slice ((nameRun_append rest).symm ▸ h) s
  rw [nameRun_append] at hslice
  have hbehind := (Token.nameRun_suffix rest).trans h
  unfold Token.name
  split
  · rename_i c more left heq
    rw [heq] at hskip hslice hbehind
    simp [scanName, hskip, hslice, hbehind, outcome]
  · rename_i name left hname heq
    rw [heq] at hskip hslice hbehind
    cases name with
    | nil => simpa [scanName, hskip, hslice] using run_throw_errorAt hsite base _ left naming
    | cons c more =>
      have hne : ∀ rest, left ≠ '>' :: rest := fun rest e => hname c more rest rfl e
      simpa [scanName, hskip, hslice, run_eat_of_ne hbehind hne] using
        run_throw_errorAt hsite base _ left naming

/-- A token that a name makes. -/
theorem run_scanName_token (make : String → Token) (hsite : site <:+ pattern)
    (h : rest <:+ pattern) (base : Nat) (naming : Naming) :
    (do return make (← scanName pattern base (placeOf pattern site)) : Trial Token).run.run
        (.before pattern rest naming) =
      outcome pattern base naming
        (match Token.name site rest with
        | .ok (s, left) => .ok (make s, left)
        | .error f => .error f) := by
  rw [run_bind, run_scanName hsite h]
  cases Token.name site rest <;> rfl

theorem run_scanGroup (hsite : site <:+ pattern) (h : rest <:+ pattern) (base : Nat)
    (naming : Naming) :
    (scanGroup pattern base (placeOf pattern site)).run.run (.before pattern rest naming) =
      outcome pattern base naming (Token.group site rest) := by
  have htail : ∀ {c : Char} {cs : List Char}, c :: cs <:+ pattern → cs <:+ pattern :=
    fun hcs => (List.suffix_cons _ _).trans hcs
  unfold Token.group
  split
  · simp [scanGroup, h, htail h, outcome]
  · simp [scanGroup, h, htail h, outcome]
  · simp [scanGroup, h, htail h, outcome]
  · simp [scanGroup, h, htail h, htail (htail h), outcome]
  · simp [scanGroup, h, htail h, htail (htail h), outcome, run_eat_of_ne]
  · rename_i more hequal hnot
    have hmore := htail (htail h)
    have hname := run_scanName_token (.groupOpen <| .capture <| some ·) hsite hmore base naming
    cases hfound : Token.name site more <;>
      simpa [scanGroup, h, htail h, run_eat_of_ne hmore hequal, run_eat_of_ne hmore hnot, hfound]
        using hname
  · rename_i more hcolon hequal hnot _ _ hangle
    cases more with
    | nil => simpa [scanGroup, h, htail h] using run_throw_errorAt hsite base _ [] naming
    | cons c cs =>
      have hne : c ≠ ':' ∧ c ≠ '=' ∧ c ≠ '!' ∧ c ≠ '<' := by
        refine ⟨?_, ?_, ?_, ?_⟩ <;> rintro rfl
        · exact hcolon cs rfl
        · exact hequal cs rfl
        · exact hnot cs rfl
        · exact hangle cs rfl
      simpa [scanGroup, h, htail h, hne] using run_throw_errorAt hsite base _ cs naming
  · rename_i hq
    simp [scanGroup, run_eat_of_ne h hq, outcome]

theorem run_scanOctal (h : rest <:+ pattern) (more value : Nat) (naming : Naming) :
    (scanOctal pattern more value).run (.before pattern rest naming) =
      some ((Escape.octal more value rest).1,
        .before pattern (Escape.octal more value rest).2 naming) := by
  induction more generalizing value rest with
  | zero => simp [scanOctal, Escape.octal]
  | succ more ih =>
    cases rest with
    | nil => simp [scanOctal, Escape.octal, h]
    | cons c cs =>
      have hmore := fun value => ih ((List.suffix_cons c cs).trans h) value
      by_cases hc : Numeral.isDigit 8 c ∧ value * 8 + (Numeral.digit? c).getD 0 ≤ 255
      · simp [scanOctal, Escape.octal, h, hc, hmore]
      · simp [scanOctal, Escape.octal, h, if_neg hc]

/-- Past the digits, if there are enough of them. -/
theorem run_eatHexDigits (h : rest <:+ pattern) (n : Nat) (naming : Naming) :
    ∃ enough stop, (eatHexDigits pattern n).run (.before pattern rest naming) =
        some (enough, .before pattern stop naming) ∧
      (enough = true ↔ (Escape.hexDigits (rest.take n)).length = n) ∧
      (enough = true → stop = rest.drop n) := by
  induction n generalizing rest with
  | zero => exact ⟨true, rest, by simp [eatHexDigits], by simp [Escape.hexDigits], by simp⟩
  | succ n ih =>
    cases rest with
    | nil => exact ⟨false, [], by simp [eatHexDigits, h], by simp [Escape.hexDigits], by simp⟩
    | cons c cs =>
      cases hc : Numeral.isDigit 16 c with
      | false =>
        exact ⟨false, c :: cs, by simp [eatHexDigits, h, hc], by simp [Escape.hexDigits, hc],
          by simp⟩
      | true =>
        obtain ⟨enough, stop, hrun, henough, hstop⟩ := ih ((List.suffix_cons c cs).trans h)
        refine ⟨enough, stop, ?_, ?_, hstop⟩
        · simpa [eatHexDigits, h, hc] using hrun
        · simpa [Escape.hexDigits, hc] using henough

theorem run_scanHex (h : rest <:+ pattern) (n : Nat) (naming : Naming) :
    (scanHex pattern n).run (.before pattern rest naming) =
      some ((Escape.hex n rest).1, .before pattern (Escape.hex n rest).2 naming) := by
  obtain ⟨enough, stop, hrun, henough, hstop⟩ := run_eatHexDigits h n naming
  unfold Escape.hex
  split
  · rename_i hlength
    obtain rfl := henough.mpr hlength
    obtain rfl := hstop rfl
    have hsplit : rest.take n ++ rest.drop n = rest := List.take_append_drop n rest
    have hslice := fun s => run_slice (hsplit.symm ▸ h) s
    rw [hsplit] at hslice
    simp [scanHex, hrun, hslice]
  · rename_i hlength
    obtain rfl : enough = false := by simpa [hlength] using henough
    simp [scanHex, hrun]

theorem code_braces (cs : List Char) :
    Escape.code ('{' :: cs) =
      match charOfDigits? (Escape.hexDigits cs) with
      | none => (none, '{' :: cs)
      | some value =>
          match cs.dropWhile (Numeral.isDigit 16) with
          | '}' :: rest => (some value, rest)
          | _ => (none, '{' :: cs) := by
  rw [Escape.code, Escape.drop_hexDigits]
  unfold charOfDigits?
  cases (Escape.hexDigits cs).isEmpty <;>
    cases Escape.charOfCode? (Numeral.value 16 (Escape.hexDigits cs)) <;>
    split <;> simp_all

theorem run_scanCode (h : rest <:+ pattern) (naming : Naming) :
    (scanCode pattern).run (.before pattern rest naming) =
      some ((Escape.code rest).1, .before pattern (Escape.code rest).2 naming) := by
  by_cases hhead : rest.head? = some '{'
  · obtain ⟨cs, rfl⟩ := List.head?_eq_some_iff.mp hhead
    have hcs : cs <:+ pattern := (List.suffix_cons _ _).trans h
    have hskip := run_skip (Numeral.isDigit 16) hcs naming
    have hslice := run_slice_skipped (Numeral.isDigit 16) hcs
    have hleft : cs.dropWhile (Numeral.isDigit 16) <:+ pattern :=
      (List.dropWhile_suffix _).trans hcs
    rw [code_braces, Escape.hexDigits]
    cases hvalue : charOfDigits? (cs.takeWhile (Numeral.isDigit 16)) with
    | none => simp [scanCode, h, hskip, hslice, hvalue]
    | some value =>
      dsimp only
      split
      · rename_i left heq
        rw [heq] at hskip hslice hleft
        simp [scanCode, h, hskip, hslice, hvalue, hleft]
      · rename_i hne
        simp [scanCode, h, hskip, hslice, hvalue, run_eat_of_ne hleft hne]
  · have hcode : Escape.code rest = Escape.hex 4 rest := by
      unfold Escape.code
      split
      · simp at hhead
      · rfl
    simp [scanCode, h, hhead, run_scanHex h, hcode]

/-- An escape by one letter takes nothing more. -/
theorem read_of_letter {c : Char} (hc : c ≠ '0' ∧ c ≠ 'c' ∧ c ≠ 'x' ∧ c ≠ 'u') (cs : List Char) :
    Escape.read c cs = ((Escape.read c []).1, cs) := by
  unfold Escape.read
  split <;> simp_all

theorem run_charEscape {c : Char} (h : c :: rest <:+ pattern) (naming : Naming) :
    (charEscape pattern c).run (.before pattern rest naming) =
      some ((Escape.read c rest).1, .before pattern (Escape.read c rest).2 naming) := by
  have hrest : rest <:+ pattern := (List.suffix_cons c rest).trans h
  unfold charEscape
  split
  · have hoctal := run_scanOctal hrest 2 0 naming
    have hsuffix := Escape.octal_suffix 2 0 rest
    by_cases hnone : (Escape.octal 2 0 rest).2 = rest
    · simp [hoctal, Escape.read, hnone]
    · have hlength : ¬ (Escape.octal 2 0 rest).2.length = rest.length := fun e =>
        hnone (hsuffix.eq_of_length e)
      have hplace : ¬ placeOf pattern (Escape.octal 2 0 rest).2 = placeOf pattern rest := fun e =>
        hnone ((placeOf_inj hrest hsuffix).mp e)
      simp [hoctal, Escape.read, hlength, hplace]
  · have hback := run_onePlaceBack h (by decide) naming
    cases rest with
    | nil => simp [hrest, hback, Escape.read]
    | cons letter more =>
      cases halpha : letter.isAlpha <;> simp [hrest, hback, halpha, Option.filter, Escape.read]
  · have hhex := run_scanHex hrest 2 naming
    simp only [Escape.read]
    split <;> (rename_i heq; simp [hhex, heq])
  · have hcode := run_scanCode hrest naming
    simp only [Escape.read]
    split <;> (rename_i heq; simp [hcode, heq])
  · rename_i h0 hcontrol hx hu
    rw [read_of_letter ⟨h0, hcontrol, hx, hu⟩ rest]
    rfl

theorem utf8Size_of_isDigit {c : Char} (hc : c.isDigit = true) : c.utf8Size = 1 := by
  have hle : c.val ≤ 57 := by simp_all [Char.isDigit]
  unfold Char.utf8Size
  rw [if_pos]
  exact UInt32.le_trans hle (by decide)

theorem run_scanEscape (hsite : site <:+ pattern) (h : rest <:+ pattern) (base : Nat)
    (naming : Naming) :
    (scanEscape pattern base (placeOf pattern site)).run.run (.before pattern rest naming) =
      outcome pattern base naming (Token.escape site rest) := by
  unfold Token.escape
  split
  · simpa [scanEscape] using run_throw_errorAt hsite base _ [] naming
  · simp [scanEscape, h, outcome]
  · simp [scanEscape, h, outcome]
  · rename_i more
    have hangle : '<' :: more <:+ pattern := (List.suffix_cons 'k' _).trans h
    have hmore : more <:+ pattern := (List.suffix_cons '<' _).trans hangle
    have hname := run_scanName_token (.backreference <| .name ·) hsite hmore base naming
    cases hfound : Token.name site more <;>
      simpa [scanEscape, h, hangle, hfound] using hname
  · rename_i c cs hb hB hk
    have hcs : cs <:+ pattern := (List.suffix_cons c cs).trans h
    split
    · rename_i hc
      have hback := run_onePlaceBack h (utf8Size_of_isDigit hc.1) naming
      have hskip := run_skip Char.isDigit hcs naming
      have hslice := run_slice_skipped Char.isDigit h
      rw [List.dropWhile_cons_of_pos hc.1] at hslice
      have hafter : Token.afterDigits (c :: cs) = cs.dropWhile Char.isDigit :=
        List.dropWhile_cons_of_pos hc.1
      simp [scanEscape, h, hc, hback, hskip, hslice, outcome, hafter, Token.digits,
        Except.map]
    · rename_i hc
      have hescape := run_charEscape h naming
      by_cases hletter : c = 'k'
      · subst hletter
        have hangle := fun more e => hk more rfl e
        simp [scanEscape, h, run_eat_of_ne hcs hangle, hescape, outcome, Except.map]
      · simp [scanEscape, h, if_neg hc, hletter, hescape, outcome, Except.map]

theorem run_scanToken {c : Char} (h : c :: rest <:+ pattern) (base : Nat) (naming : Naming) :
    (scanToken pattern base c (placeOf pattern (c :: rest))).run.run
        (.before pattern rest naming) =
      outcome pattern base naming (Token.read c rest) := by
  have hrest : rest <:+ pattern := (List.suffix_cons c rest).trans h
  unfold scanToken
  split
  · rfl
  · rfl
  · exact run_scanGroup h hrest base naming
  · simp only [Token.read]
    split
    · simp [hrest, outcome, Except.map]
    · rename_i hcaret
      simp [run_eat_of_ne hrest hcaret, outcome, Except.map]
  · rfl
  · rfl
  · rfl
  · simp [run_scanLazy hrest, Token.read, outcome]
  · simp [run_scanLazy hrest, Token.read, outcome]
  · simp [run_scanLazy hrest, Token.read, outcome]
  · exact run_scanBraces h hrest base naming
  · exact run_scanEscape h hrest base naming
  · rename_i h1 h2 h3 h4 h5 h6 h7 h8 h9 h10 h11 h12
    have hread : Token.read c rest = .ok (.literal (.char c), rest) := by
      unfold Token.read
      split <;> simp_all
    rw [hread]
    rfl

/-- **The scanner and the reader find the same**, wherever an end of the pattern begins. -/
theorem run_nextToken (h : rest <:+ pattern) (base : Nat) (naming : Naming) :
    (nextToken pattern base).run.run (.before pattern rest naming) =
      match Token.next rest with
      | .error f => outcome pattern base naming (.error f)
      | .ok none => outcome pattern base naming (.ok (none, rest))
      | .ok (some (t, left)) =>
          outcome pattern base naming
            (.ok (some ⟨t, placeOf pattern rest, placeOf pattern left⟩, left)) := by
  cases rest with
  | nil => simp [nextToken, Token.next, outcome]
  | cons c cs =>
    have htoken := run_scanToken h base naming
    rw [Token.next]
    cases hread : Token.read c cs with
    | error f =>
      rw [hread] at htoken
      simp [nextToken, h, htoken, outcome]
    | ok found =>
      rw [hread] at htoken
      simp [nextToken, h, htoken, outcome, Except.map]

/-- Looking at a token, or at the fault in it, changes nothing. -/
theorem run_peekToken (h : rest <:+ pattern) (base : Nat) (naming : Naming) :
    (peekToken pattern base).run.run (.before pattern rest naming) =
      match Token.next rest with
      | .error f => outcome pattern base naming (.error { f with stop := rest })
      | .ok none => outcome pattern base naming (.ok (none, rest))
      | .ok (some (t, left)) =>
          outcome pattern base naming
            (.ok (some ⟨t, placeOf pattern rest, placeOf pattern left⟩, rest)) := by
  have hnext := run_nextToken h base naming
  unfold peekToken
  split <;> (rename_i heq; rw [heq] at hnext; simp [hnext, outcome])

end PatternDiagram.Bytes
