import PatternDiagram.Proofs.Literals

/-!
# Line feeds and their escapes

A pattern with an escape in place of each line feed, beside the pattern itself. Whatever is scanned
from the one is scanned from the other, but for the line feeds:

* `escapeBreaks`: the text with its line feeds escaped;
* `escapesBreak`: a backslash stands in front of a line feed and escapes it already, so that it will
  escape another backslash instead;
* `Unfolds`: the two texts side by side, piece by piece;
* `Alike`: what has been found in the two is the same, and what is left stands side by side again;
* `Unfolds.tokenRead`, `Unfolds.tokenEscape`: **tokens are alike**;
* `Unfolds.classRead`: **classes are alike, unless a line feed in them is escaped already**; then
  they have other members.
-/

namespace PatternDiagram

/-! ## 1. Line feeds and their escapes -/

/-- The text with an escape in place of each line feed. -/
def escapeBreaks : List Char → List Char
  | [] => []
  | c :: cs => if c = '\n' then '\\' :: 'n' :: escapeBreaks cs else c :: escapeBreaks cs

/-- A line feed stands behind a backslash that escapes it. -/
def escapesBreak : List Char → Bool
  | '\\' :: c :: cs => c == '\n' || escapesBreak cs
  | _ :: cs => escapesBreak cs
  | [] => false

/-- The second text is the first one with an escape in place of each line feed, taken apart into
    what a scanner takes in one piece. The flag says that a line feed is escaped already. -/
inductive Unfolds : Bool → List Char → List Char → Prop where
  | nil : Unfolds false [] []
  | char {b : Bool} {cs ds : List Char} (c : Char) (hslash : c ≠ '\\') (hbreak : c ≠ '\n')
      (h : Unfolds b cs ds) : Unfolds b (c :: cs) (c :: ds)
  | lineFeed {b : Bool} {cs ds : List Char} (h : Unfolds b cs ds) :
      Unfolds b ('\n' :: cs) ('\\' :: 'n' :: ds)
  | escape {b : Bool} {cs ds : List Char} (c : Char) (hbreak : c ≠ '\n') (h : Unfolds b cs ds) :
      Unfolds b ('\\' :: c :: cs) ('\\' :: c :: ds)
  | backslash : Unfolds false ['\\'] ['\\']
  | escapedBreak {b : Bool} {cs ds : List Char} (h : Unfolds b cs ds) :
      Unfolds true ('\\' :: '\n' :: cs) ('\\' :: '\\' :: 'n' :: ds)

theorem unfolds (cs : List Char) : Unfolds (escapesBreak cs) cs (escapeBreaks cs) := by
  fun_induction escapesBreak cs with
  | case1 c cs ih =>
    by_cases hc : c = '\n'
    · subst hc
      simpa [escapeBreaks] using ih.escapedBreak
    · have hself : (c == '\n') = false := by simp [hc]
      simpa [escapeBreaks, hc, hself] using ih.escape c hc
  | case2 c cs hc ih =>
    by_cases hbreak : c = '\n'
    · subst hbreak
      simpa [escapeBreaks] using ih.lineFeed
    · by_cases hslash : c = '\\'
      · subst hslash
        cases cs with
        | nil => exact .backslash
        | cons d cs => exact absurd rfl (hc d cs rfl)
      · simpa [escapeBreaks, hbreak] using ih.char c hslash hbreak
  | case3 => exact .nil

namespace Unfolds

variable {b : Bool} {cs ds : List Char}

/-- Both texts begin with the character, or neither does. -/
theorem heads (h : Unfolds b cs ds) (c : Char) (hslash : c ≠ '\\') (hbreak : c ≠ '\n') :
    (∃ cs' ds', cs = c :: cs' ∧ ds = c :: ds' ∧ Unfolds b cs' ds') ∨
      (∀ cs', cs ≠ c :: cs') ∧ ∀ ds', ds ≠ c :: ds' := by
  cases h with
  | char d hd hd' h =>
    by_cases hc : d = c
    · subst hc
      exact .inl ⟨_, _, rfl, rfl, h⟩
    · simp [hc]
  | _ => simp [hslash.symm, hbreak.symm]

theorem takeWhile_eq {p : Char → Bool} (h : Unfolds b cs ds) (hslash : p '\\' = false)
    (hbreak : p '\n' = false) : ds.takeWhile p = cs.takeWhile p := by
  induction h with
  | char c _ _ _ ih => simp [List.takeWhile_cons, ih]
  | _ => simp [hslash, hbreak]

theorem dropWhile {p : Char → Bool} (h : Unfolds b cs ds) (hslash : p '\\' = false)
    (hbreak : p '\n' = false) : Unfolds b (cs.dropWhile p) (ds.dropWhile p) := by
  induction h with
  | nil => exact .nil
  | char c hc hc' h ih =>
    rw [List.dropWhile_cons, List.dropWhile_cons]
    split
    · exact ih
    · exact .char c hc hc' h
  | lineFeed h => simpa [hslash, hbreak] using h.lineFeed
  | escape c hc h => simpa [hslash] using h.escape c hc
  | backslash => simpa [hslash] using backslash
  | escapedBreak h => simpa [hslash] using h.escapedBreak

end Unfolds

/-- The literal, if it is a line feed, as its escape. -/
def Literal.escapeBreak : Literal → Literal
  | .char c => if c = '\n' then .escaped c .lineFeed else .char c
  | l => l

/-- Two readings have found the same, up to `f`, and leave texts of which the second is the first
    one unfolded. -/
def Alike {α β : Type} (b : Bool) (f : α → β) (found : α × List Char) (found' : β × List Char) :
    Prop := found'.1 = f found.1 ∧ Unfolds b found.2 found'.2

namespace Alike

variable {α β : Type} {b : Bool} {f : α → β}

/-- The same has been found. -/
theorem same {found found' : α × List Char} (h : Alike b id found found') :
    ∃ a rest rest', found = (a, rest) ∧ found' = (a, rest') ∧ Unfolds b rest rest' :=
  ⟨found.1, found.2, found'.2, rfl, Prod.ext h.1 rfl, h.2⟩

/-- The same has been found, if anything has. -/
theorem same? {found found' : Option (α × List Char)} (h : Option.Rel (Alike b id) found found') :
    found = none ∧ found' = none ∨
      ∃ a rest rest', found = some (a, rest) ∧ found' = some (a, rest') ∧ Unfolds b rest rest' := by
  cases h with
  | none => exact .inl ⟨rfl, rfl⟩
  | some h =>
    obtain ⟨a, rest, rest', rfl, rfl, hrest⟩ := h.same
    exact .inr ⟨a, rest, rest', rfl, rfl, hrest⟩

/-- What has been found in the first text has been found in the second. -/
theorem of_some {found : α × List Char} {result : Option (β × List Char)}
    (h : Option.Rel (Alike b f) (some found) result) :
    ∃ rest', result = some (f found.1, rest') ∧ Unfolds b found.2 rest' := by
  cases h with
  | some h => exact ⟨_, congrArg some (Prod.ext h.1 rfl), h.2⟩

/-- What has been found in the second text has been found in the first. -/
theorem to_some {found' : β × List Char} {result : Option (α × List Char)}
    (h : Option.Rel (Alike b f) result (some found')) :
    ∃ a rest, result = some (a, rest) ∧ found'.1 = f a ∧ Unfolds b rest found'.2 := by
  cases h with
  | some h => exact ⟨_, _, rfl, h.1, h.2⟩

end Alike

namespace Unfolds

variable {b : Bool} {cs ds : List Char}

/-! ## 2. Escapes -/

theorem octal (h : Unfolds b cs ds) (more value : Nat) :
    Alike b id (Escape.octal more value cs) (Escape.octal more value ds) := by
  induction more generalizing value cs ds with
  | zero => exact ⟨rfl, h⟩
  | succ more ih =>
    have hslash : Numeral.isDigit 8 '\\' = false := by decide
    have hbreak : Numeral.isDigit 8 '\n' = false := by decide
    cases h with
    | nil => exact ⟨rfl, .nil⟩
    | char c hc hc' h =>
      simp only [Escape.octal]
      split
      · exact ih h _
      · exact ⟨rfl, .char c hc hc' h⟩
    | lineFeed h => simpa [Escape.octal, hslash, hbreak, Alike] using h.lineFeed
    | escape c hc h => simpa [Escape.octal, hslash, Alike] using h.escape c hc
    | backslash => simpa [Escape.octal, hslash, Alike] using backslash
    | escapedBreak h => simpa [Escape.octal, hslash, Alike] using h.escapedBreak

/-- Neither text begins with an octal digit, or both do. -/
theorem octal_stops (h : Unfolds b cs ds) :
    (Escape.octal 2 0 ds).2.length = ds.length ↔ (Escape.octal 2 0 cs).2.length = cs.length := by
  have hslash : Numeral.isDigit 8 '\\' = false := by decide
  have hbreak : Numeral.isDigit 8 '\n' = false := by decide
  cases h with
  | char c _ _ h =>
    simp only [Escape.octal]
    split
    · -- a digit has been read from both texts, and none is given back
      have hle (value : Nat) (cs : List Char) := (Escape.octal_suffix 1 value cs).length_le
      constructor <;> intro e <;> exact absurd e (Nat.ne_of_lt (Nat.lt_succ_of_le (hle _ _)))
    · simp
  | _ => simp [Escape.octal, hslash, hbreak]

theorem hexDigits_take (h : Unfolds b cs ds) (n : Nat) :
    Escape.hexDigits (ds.take n) = Escape.hexDigits (cs.take n) := by
  have hslash : Numeral.isDigit 16 '\\' = false := by decide
  have hbreak : Numeral.isDigit 16 '\n' = false := by decide
  induction n generalizing cs ds with
  | zero => rfl
  | succ n ih =>
    cases h with
    | char c _ _ h =>
      have hmore := ih h
      simp only [Escape.hexDigits] at hmore
      simp [Escape.hexDigits, List.takeWhile_cons, hmore]
    | _ => simp [Escape.hexDigits, hslash, hbreak]

/-- Where only digits stand, both texts go on behind them. -/
theorem drop_of_hexDigits (h : Unfolds b cs ds) {n : Nat}
    (hn : (Escape.hexDigits (cs.take n)).length = n) :
    ds.take n = cs.take n ∧ Unfolds b (cs.drop n) (ds.drop n) := by
  have hslash : Numeral.isDigit 16 '\\' = false := by decide
  have hbreak : Numeral.isDigit 16 '\n' = false := by decide
  induction n generalizing cs ds with
  | zero => exact ⟨rfl, h⟩
  | succ n ih =>
    cases h with
    | char c _ _ h =>
      simp only [Escape.hexDigits, List.take_succ_cons, List.takeWhile_cons] at hn
      split at hn
      · obtain ⟨htake, hdrop⟩ := ih h (by simpa [Escape.hexDigits] using hn)
        exact ⟨by simp [htake], hdrop⟩
      · simp at hn
    | _ => simp [Escape.hexDigits, hslash, hbreak] at hn

theorem hex (h : Unfolds b cs ds) (n : Nat) : Alike b id (Escape.hex n cs) (Escape.hex n ds) := by
  unfold Escape.hex
  rw [h.hexDigits_take]
  split
  · rename_i hn
    obtain ⟨htake, hdrop⟩ := h.drop_of_hexDigits hn
    exact ⟨by rw [htake]; rfl, hdrop⟩
  · exact ⟨rfl, h⟩

theorem code (h : Unfolds b cs ds) : Alike b id (Escape.code cs) (Escape.code ds) := by
  rcases h.heads '{' (by decide) (by decide) with ⟨es, es', rfl, rfl, hrest⟩ | ⟨hcs, hds⟩
  · have hdigits : Escape.hexDigits es' = Escape.hexDigits es :=
      hrest.takeWhile_eq (by decide) (by decide)
    have hdrop : Unfolds b (es.drop (Escape.hexDigits es).length)
        (es'.drop (Escape.hexDigits es').length) := by
      rw [Escape.drop_hexDigits, Escape.drop_hexDigits]
      exact hrest.dropWhile (by decide) (by decide)
    simp only [Escape.code, hdigits] at hdrop ⊢
    rcases hdrop.heads '}' (by decide) (by decide) with
      ⟨left, left', e, e', hleft⟩ | ⟨hne, hne'⟩
    · rw [e, e']
      simp only
      split
      · exact ⟨rfl, h⟩
      · split
        · exact ⟨rfl, hleft⟩
        · exact ⟨rfl, h⟩
    · split
      · exact absurd ‹_› (hne _)
      · exact ⟨rfl, h⟩
  · have hcode {cs : List Char} (hcs : ∀ cs', cs ≠ '{' :: cs') :
        Escape.code cs = Escape.hex 4 cs := by
      unfold Escape.code
      split
      · exact absurd rfl (hcs _)
      · rfl
    rw [hcode hcs, hcode hds]
    exact h.hex 4

theorem escapeRead (h : Unfolds b cs ds) {c : Char} (hc : c ≠ '\n') :
    Alike b Literal.escapeBreak (Escape.read c cs) (Escape.read c ds) := by
  have hself (hslash : c ≠ '\\') : Unfolds b (c :: cs) (c :: ds) := .char c hslash hc h
  unfold Escape.read
  split
  case h_12 =>
    obtain ⟨hvalue, hrest⟩ := h.octal 2 0
    dsimp only
    simp only [h.octal_stops]
    split
    · exact ⟨rfl, h⟩
    · exact ⟨by rw [hvalue]; rfl, hrest⟩
  case h_13 =>
    cases h with
    | char d hd hd' h' =>
      simp only
      split
      · exact ⟨rfl, h'⟩
      · exact ⟨rfl, hself (by decide)⟩
    | _ => exact ⟨rfl, hself (by decide)⟩
  case h_14 =>
    obtain ⟨value, rest, rest', e, e', hrest⟩ := (h.hex 2).same
    rw [e, e']
    cases value <;> exact ⟨rfl, hrest⟩
  case h_15 =>
    obtain ⟨value, rest, rest', e, e', hrest⟩ := h.code.same
    rw [e, e']
    cases value <;> exact ⟨rfl, hrest⟩
  all_goals exact ⟨by simp [Literal.escapeBreak, hc], h⟩

/-! ## 3. Tokens -/

theorem nameRun (h : Unfolds b cs ds) : Alike b id (Token.nameRun cs) (Token.nameRun ds) := by
  have hslash : Token.startsName '\\' = false := by decide +kernel
  have hbreak : Token.startsName '\n' = false := by decide +kernel
  cases h with
  | nil => exact ⟨rfl, .nil⟩
  | char c hc hc' h =>
    simp only [Token.nameRun]
    split
    · exact ⟨by rw [h.takeWhile_eq (by decide +kernel) (by decide +kernel)]; rfl,
        h.dropWhile (by decide +kernel) (by decide +kernel)⟩
    · exact ⟨rfl, .char c hc hc' h⟩
  | lineFeed h => simpa [Token.nameRun, hslash, hbreak, Alike] using h.lineFeed
  | escape c hc h => simpa [Token.nameRun, hslash, Alike] using h.escape c hc
  | backslash => simpa [Token.nameRun, hslash, Alike] using backslash
  | escapedBreak h => simpa [Token.nameRun, hslash, Alike] using h.escapedBreak

theorem name (h : Unfolds b cs ds) (site site' : List Char) :
    Option.Rel (Alike b id) (Token.name site cs).toOption (Token.name site' ds).toOption := by
  obtain ⟨letters, rest, rest', e, e', hrest⟩ := h.nameRun.same
  unfold Token.name
  rw [e, e']
  cases letters with
  | nil => exact .none
  | cons c more =>
    rcases hrest.heads '>' (by decide) (by decide) with
      ⟨es, es', rfl, rfl, hleft⟩ | ⟨hne, hne'⟩
    · exact .some ⟨rfl, hleft⟩
    · split <;> split <;> first | exact .none | simp_all

/-- A token that has a name in it. -/
theorem named (h : Unfolds b cs ds) (site site' : List Char) {t : String → Token}
    (ht : ∀ s, (t s).mapLiterals Literal.escapeBreak = t s) :
    Option.Rel (Alike b (Token.mapLiterals Literal.escapeBreak))
      (match Token.name site cs with
        | .ok (s, rest) => .ok (t s, rest)
        | .error f => .error f : Except Failure (Token × List Char)).toOption
      (match Token.name site' ds with
        | .ok (s, rest) => .ok (t s, rest)
        | .error f => .error f : Except Failure (Token × List Char)).toOption := by
  have hname := h.name site site'
  generalize Token.name site cs = found at hname ⊢
  generalize Token.name site' ds = found' at hname ⊢
  cases found <;> cases found' <;> cases hname
  · exact .none
  · rename_i found found' hfound
    exact .some ⟨by rw [hfound.1, ht]; rfl, hfound.2⟩

theorem count? (h : Unfolds b cs ds) :
    Option.Rel (Alike b id) (Token.count? cs) (Token.count? ds) := by
  have hdigits : Token.digits ds = Token.digits cs := h.takeWhile_eq (by decide) (by decide)
  have hrest : Unfolds b (Token.afterDigits cs) (Token.afterDigits ds) :=
    h.dropWhile (by decide) (by decide)
  simp only [Token.count?, hdigits]
  split
  · exact .none
  · exact .some ⟨rfl, hrest⟩

theorem bounds? (h : Unfolds b cs ds) :
    Option.Rel (Alike b id) (Token.bounds? cs) (Token.bounds? ds) := by
  unfold Token.bounds?
  rcases Alike.same? h.count? with ⟨e, e'⟩ | ⟨m, rest, rest', e, e', hrest⟩ <;> rw [e, e']
  · exact .none
  rcases hrest.heads '}' (by decide) (by decide) with
    ⟨es, es', rfl, rfl, hleft⟩ | ⟨hne, hne'⟩
  · exact .some ⟨rfl, hleft⟩
  rcases hrest.heads ',' (by decide) (by decide) with
    ⟨es, es', rfl, rfl, hmore⟩ | ⟨hcomma, hcomma'⟩
  · rcases hmore.heads '}' (by decide) (by decide) with
      ⟨left, left', rfl, rfl, hleft⟩ | ⟨hclose, hclose'⟩
    · exact .some ⟨rfl, hleft⟩
    simp only
    rcases Alike.same? hmore.count? with ⟨e, e'⟩ | ⟨n, rest, rest', e, e', hrest⟩ <;> rw [e, e']
    · exact .none
    rcases hrest.heads '}' (by decide) (by decide) with
      ⟨left, left', rfl, rfl, hleft⟩ | ⟨hend, hend'⟩
    · exact .some ⟨rfl, hleft⟩
    · split
      · simp_all
      · split
        · simp_all
        · exact .none
  · split
    all_goals first | exact .none | simp_all

theorem lazily (h : Unfolds b cs ds) (min : Nat) (max : Option Nat) :
    Alike b (Token.mapLiterals Literal.escapeBreak) (Token.lazily min max cs)
      (Token.lazily min max ds) := by
  rcases h.heads '?' (by decide) (by decide) with ⟨es, es', rfl, rfl, hrest⟩ | ⟨hne, hne'⟩
  · exact ⟨rfl, hrest⟩
  · unfold Token.lazily
    split
    · exact absurd rfl (hne _)
    · exact ⟨rfl, h⟩

theorem braces (h : Unfolds b cs ds) (site site' : List Char) :
    Option.Rel (Alike b (Token.mapLiterals Literal.escapeBreak)) (Token.braces site cs).toOption
      (Token.braces site' ds).toOption := by
  unfold Token.braces
  rcases Alike.same? h.bounds? with ⟨e, e'⟩ | ⟨⟨min, max⟩, rest, rest', e, e', hrest⟩ <;>
    rw [e, e']
  · exact .some ⟨rfl, h⟩
  cases max with
  | none => exact .some (hrest.lazily _ _)
  | some n =>
    simp only
    split
    · exact .none
    · exact .some (hrest.lazily _ _)

theorem group (h : Unfolds b cs ds) (site site' : List Char) :
    Option.Rel (Alike b (Token.mapLiterals Literal.escapeBreak)) (Token.group site cs).toOption
      (Token.group site' ds).toOption := by
  rcases h.heads '?' (by decide) (by decide) with ⟨es, es', rfl, rfl, hmark⟩ | ⟨hne, hne'⟩
  · cases hmark with
    | char c _ _ hrest =>
      by_cases hplain : c = ':'
      · subst hplain
        exact .some ⟨rfl, hrest⟩
      by_cases hahead : c = '='
      · subst hahead
        exact .some ⟨rfl, hrest⟩
      by_cases hnot : c = '!'
      · subst hnot
        exact .some ⟨rfl, hrest⟩
      by_cases hbehind : c = '<'
      · subst hbehind
        rcases hrest.heads '=' (by decide) (by decide) with
          ⟨left, left', rfl, rfl, hleft⟩ | ⟨hequal, hequal'⟩
        · exact .some ⟨rfl, hleft⟩
        rcases hrest.heads '!' (by decide) (by decide) with
          ⟨left, left', rfl, rfl, hleft⟩ | ⟨hmark, hmark'⟩
        · exact .some ⟨rfl, hleft⟩
        simp only [Token.group]
        exact hrest.named site site' fun _ => rfl
      · have hinvalid (site es : List Char) :
            Token.group site ('?' :: c :: es) = .error ⟨.invalidGroup, site, es⟩ := by
          simp [Token.group, hplain, hahead, hnot, hbehind]
        rw [hinvalid, hinvalid]
        exact .none
    | _ => exact .none
  · have hplain {cs site : List Char} (hne : ∀ cs', cs ≠ '?' :: cs') :
        Token.group site cs = .ok (.groupOpen (.capture none), cs) := by
      unfold Token.group
      split
      all_goals first | exact absurd rfl (hne _) | rfl
    rw [hplain hne, hplain hne']
    exact .some ⟨rfl, h⟩

theorem tokenEscape (h : Unfolds b cs ds) {c : Char} (hc : c ≠ '\n') (site site' : List Char) :
    Option.Rel (Alike b (Token.mapLiterals Literal.escapeBreak))
      (Token.escape site (c :: cs)).toOption (Token.escape site' (c :: ds)).toOption := by
  have hself (hslash : c ≠ '\\') : Unfolds b (c :: cs) (c :: ds) := .char c hslash hc h
  by_cases hword : c = 'b'
  · subst hword
    exact .some ⟨rfl, h⟩
  by_cases hnotWord : c = 'B'
  · subst hnotWord
    exact .some ⟨rfl, h⟩
  -- what remains has no match on the text behind the letter, unless that is the bracket of a name
  have hother {cs : List Char} (site : List Char) (hne : c = 'k' → ∀ cs', cs ≠ '<' :: cs') :
      Token.escape site (c :: cs) =
        if c.isDigit ∧ c ≠ '0' then
          .ok (.backreference (.index (min (Numeral.value 10 (Token.digits (c :: cs)))
            Token.greatestIndex)), Token.afterDigits (c :: cs))
        else .ok (.literal (Escape.read c cs).1, (Escape.read c cs).2) := by
    unfold Token.escape
    split <;> simp_all
  have hrest (hcs : c = 'k' → ∀ cs', cs ≠ '<' :: cs') (hds : c = 'k' → ∀ ds', ds ≠ '<' :: ds') :
      Option.Rel (Alike b (Token.mapLiterals Literal.escapeBreak))
        (Token.escape site (c :: cs)).toOption (Token.escape site' (c :: ds)).toOption := by
    rw [hother site hcs, hother site' hds]
    split
    · rename_i hdigit
      have hslash : c ≠ '\\' := fun e => by simp [e] at hdigit
      have hdigits : Token.digits (c :: ds) = Token.digits (c :: cs) :=
        (hself hslash).takeWhile_eq (by decide) (by decide)
      rw [hdigits]
      exact .some ⟨rfl, (hself hslash).dropWhile (by decide) (by decide)⟩
    · obtain ⟨hvalue, hleft⟩ := h.escapeRead hc
      exact .some ⟨congrArg Token.literal hvalue, hleft⟩
  by_cases hname : c = 'k'
  · subst hname
    rcases h.heads '<' (by decide) (by decide) with ⟨es, es', rfl, rfl, hmore⟩ | ⟨hne, hne'⟩
    · exact hmore.named site site' (fun _ => rfl)
    · exact hrest (fun _ => hne) (fun _ => hne')
  · exact hrest (absurd · hname) (absurd · hname)

theorem tokenRead (h : Unfolds b cs ds) {c : Char} (hslash : c ≠ '\\') (hbreak : c ≠ '\n') :
    Option.Rel (Alike b (Token.mapLiterals Literal.escapeBreak)) (Token.read c cs).toOption
      (Token.read c ds).toOption := by
  unfold Token.read
  split
  case h_3 => exact h.group _ _
  case h_4 =>
    rcases h.heads '^' (by decide) (by decide) with ⟨es, es', rfl, rfl, hrest⟩ | ⟨hne, hne'⟩
    · exact .some ⟨rfl, hrest⟩
    · split
      · exact absurd rfl (hne _)
      · exact .some ⟨rfl, h⟩
  case h_8 => exact .some (h.lazily _ _)
  case h_9 => exact .some (h.lazily _ _)
  case h_10 => exact .some (h.lazily _ _)
  case h_11 => exact h.braces _ _
  case h_12 => exact absurd rfl hslash
  all_goals exact .some ⟨by simp [Token.mapLiterals, Literal.escapeBreak, hbreak], h⟩

end Unfolds

/-! ## 4. Character classes -/

namespace ClassBody

/-- The members that a character makes begin with it. -/
theorem members_char {start site rest left : List Char} {c : Char} {found : List ClassItem}
    (h : members start site (.char c) rest = .ok (found, left)) :
    ∃ i is, found = i :: is ∧ (i = .char c ∨ ∃ hi, i = .range c hi) := by
  rcases members_ok_cases h with ⟨-, rfl, -⟩ |
    ⟨d, more, upper, -, -, -, ⟨lo, hi, hlo, -, -, rfl⟩ | rfl⟩
  · exact ⟨_, _, rfl, .inl rfl⟩
  · obtain rfl := ClassItem.char.inj hlo
    exact ⟨_, _, rfl, .inr ⟨hi, rfl⟩⟩
  · exact ⟨_, _, rfl, .inl rfl⟩

end ClassBody

namespace Unfolds

variable {b : Bool} {cs ds : List Char}

theorem classEscape (h : Unfolds b cs ds) {c : Char} (hc : c ≠ '\n') :
    Alike b id (ClassBody.escape c cs) (ClassBody.escape c ds) := by
  have hof (l : Literal) : ClassBody.ofLiteral l.escapeBreak = ClassBody.ofLiteral l := by
    cases l with
    | char d => simp only [Literal.escapeBreak]; split <;> rfl
    | _ => rfl
  unfold ClassBody.escape
  split
  · exact ⟨rfl, h⟩
  · split
    · obtain ⟨hvalue, hrest⟩ := h.octal 2 ((Numeral.digit? c).getD 0)
      exact ⟨congrArg (fun n => ClassItem.char (Char.ofNat n)) hvalue, hrest⟩
    · obtain ⟨hvalue, hrest⟩ := h.escapeRead hc
      exact ⟨by simp [hvalue, hof], hrest⟩

/-- The first atom of a class is the same, unless it is a line feed that is escaped already. -/
theorem atom {c d : Char} (h : Unfolds b (c :: cs) (d :: ds)) :
    Option.Rel (Alike b id) (ClassBody.atom c cs) (ClassBody.atom d ds) ∨
      b = true ∧ (∃ rest, ClassBody.atom c cs = some (.char '\n', rest)) ∧
        ∃ rest, ClassBody.atom d ds = some (.char '\\', 'n' :: rest) := by
  cases h with
  | char _ hslash _ h =>
    simp only [ClassBody.atom, if_neg hslash]
    exact .inl (.some ⟨rfl, h⟩)
  | lineFeed h => exact .inl (.some ⟨rfl, h⟩)
  | escape e he h => exact .inl (.some (h.classEscape he))
  | backslash => exact .inl .none
  | escapedBreak h => exact .inr ⟨rfl, ⟨_, rfl⟩, _, rfl⟩

/-- A text that is not empty is unfolded to one that is not. -/
theorem exists_cons {c : Char} (h : Unfolds b (c :: cs) ds) : ∃ d ds', ds = d :: ds' := by
  cases h <;> exact ⟨_, _, rfl⟩

theorem rangeTail? (h : Unfolds b cs ds) :
    ClassBody.rangeTail? cs = none ∧ ClassBody.rangeTail? ds = none ∨
      ∃ e es e' es', ClassBody.rangeTail? cs = some (e, es) ∧
        ClassBody.rangeTail? ds = some (e', es') ∧ Unfolds b (e :: es) (e' :: es') := by
  rcases h.heads '-' (by decide) (by decide) with ⟨es, es', rfl, rfl, hrest⟩ | ⟨hne, hne'⟩
  · rcases hrest.heads ']' (by decide) (by decide) with
      ⟨left, left', rfl, rfl, -⟩ | ⟨hend, hend'⟩
    · exact .inl ⟨rfl, rfl⟩
    cases es with
    | nil =>
      cases hrest
      exact .inl ⟨rfl, rfl⟩
    | cons e es =>
      obtain ⟨e', es', rfl⟩ := hrest.exists_cons
      have he : e ≠ ']' := fun he => hend es (he ▸ rfl)
      have he' : e' ≠ ']' := fun he' => hend' es' (he' ▸ rfl)
      exact .inr ⟨e, es, e', es', if_neg he, if_neg he', hrest⟩
  · have hnone {es : List Char} (hne : ∀ es', es ≠ '-' :: es') :
        ClassBody.rangeTail? es = none := by
      unfold ClassBody.rangeTail?
      split
      · exact absurd rfl (hne _)
      · rfl
    exact .inl ⟨hnone hne, hnone hne'⟩

/-- Whatever comes behind the members, the two rows differ. -/
def Apart (found found' : Except Failure (List ClassItem × List Char)) : Prop :=
  ∀ items rest items' rest', found = .ok (items, rest) → found' = .ok (items', rest') →
    ∀ more more', items ++ more ≠ items' ++ more'

theorem members (h : Unfolds b cs ds) (item : ClassItem) (start site start' site' : List Char) :
    Option.Rel (Alike b id) (ClassBody.members start site item cs).toOption
        (ClassBody.members start' site' item ds).toOption ∨
      b = true ∧ Apart (ClassBody.members start site item cs)
        (ClassBody.members start' site' item ds) := by
  rcases h.rangeTail? with ⟨hnone, hnone'⟩ | ⟨e, es, e', es', hsome, hsome', htail⟩
  · simp only [ClassBody.members, hnone, hnone']
    exact .inl (.some ⟨rfl, h⟩)
  simp only [ClassBody.members, hsome, hsome']
  rcases htail.atom with hatom | ⟨hb, ⟨rest, hatom⟩, rest', hatom'⟩
  · left
    rcases Alike.same? hatom with ⟨he, he'⟩ | ⟨upper, rest, rest', he, he', hrest⟩ <;>
      rw [he, he']
    · exact .none
    simp only
    split
    · split
      · exact .none
      · exact .some ⟨rfl, hrest⟩
    · exact .some ⟨rfl, hrest⟩
  · refine .inr ⟨hb, fun items left items' left' hfound hfound' more more' e => ?_⟩
    simp only [hatom, hatom'] at hfound hfound'
    cases item with
    | char lo =>
      simp only at hfound hfound'
      split at hfound
      · simp at hfound
      · split at hfound'
        · simp at hfound'
        · simp only [Except.ok.injEq, Prod.mk.injEq] at hfound hfound'
          simp [← hfound.1, ← hfound'.1] at e
    | _ =>
      simp only [Except.ok.injEq, Prod.mk.injEq] at hfound hfound'
      simp [← hfound.1, ← hfound'.1] at e

theorem piece {c d : Char} (h : Unfolds b (c :: cs) (d :: ds)) (start start' : List Char) :
    Option.Rel (Alike b id) (ClassBody.piece start c cs).toOption
        (ClassBody.piece start' d ds).toOption ∨
      b = true ∧ Apart (ClassBody.piece start c cs) (ClassBody.piece start' d ds) := by
  unfold ClassBody.piece
  rcases h.atom with hatom | ⟨hb, ⟨rest, hatom⟩, rest', hatom'⟩
  · rcases Alike.same? hatom with ⟨e, e'⟩ | ⟨item, rest, rest', e, e', hrest⟩ <;> rw [e, e']
    · exact .inl .none
    · exact hrest.members _ _ _ _ _
  · -- the one class goes on with a line feed, the other one with a backslash and a letter
    refine .inr ⟨hb, fun items left items' left' hfound hfound' more more' e => ?_⟩
    have htail : ClassBody.rangeTail? ('n' :: rest') = none := rfl
    simp only [hatom, hatom'] at hfound hfound'
    obtain ⟨i, is, rfl, hi⟩ := ClassBody.members_char hfound
    simp only [ClassBody.members, htail, Except.ok.injEq, Prod.mk.injEq] at hfound'
    rw [← hfound'.1] at e
    rcases hi with rfl | ⟨hi, rfl⟩ <;> simp at e

/-- **A class has the same members**, unless a line feed in it is escaped already. -/
theorem classRead (h : Unfolds b cs ds) (start start' : List Char) :
    Option.Rel (Alike b id) (ClassBody.read start cs).toOption
        (ClassBody.read start' ds).toOption ∨
      b = true ∧ Apart (ClassBody.read start cs) (ClassBody.read start' ds) := by
  induction hn : cs.length using Nat.strongRecOn generalizing cs ds with
  | ind n ih =>
  subst hn
  cases cs with
  | nil =>
    cases h
    rw [ClassBody.read, ClassBody.read]
    exact .inl .none
  | cons c cs =>
    rcases h.heads ']' (by decide) (by decide) with ⟨es, es', e, rfl, hrest⟩ | ⟨hne, hne'⟩
    · obtain ⟨rfl, rfl⟩ := List.cons.inj e
      rw [ClassBody.read, ClassBody.read]
      exact .inl (.some ⟨rfl, hrest⟩)
    obtain ⟨d, ds, rfl⟩ := h.exists_cons
    have hc : c ≠ ']' := fun e => hne cs (e ▸ rfl)
    have hd : d ≠ ']' := fun e => hne' ds (e ▸ rfl)
    rcases h.piece start start' with hpiece | ⟨hb, hpiece⟩
    · rw [ClassBody.read_cons hc, ClassBody.read_cons hd]
      have hlength (found : List ClassItem) (left : List Char)
          (hfound : ClassBody.piece start c cs = .ok (found, left)) :
          left.length < (c :: cs).length :=
        Nat.lt_succ_of_le (ClassBody.piece_suffix hfound).length_le
      generalize ClassBody.piece start c cs = found at hpiece hlength ⊢
      generalize ClassBody.piece start' d ds = found' at hpiece ⊢
      cases found <;> cases found' <;> cases hpiece
      · exact .inl .none
      rename_i found found' hpiece
      obtain ⟨items, left⟩ := found
      obtain ⟨items', left'⟩ := found'
      obtain ⟨e, hleft⟩ := hpiece
      obtain rfl : items' = items := e
      simp only
      rcases ih _ (hlength _ _ rfl) hleft rfl with hread | ⟨hb, hread⟩
      · generalize ClassBody.read start left = more at hread ⊢
        generalize ClassBody.read start' left' = more' at hread ⊢
        cases more <;> cases more' <;> cases hread
        · exact .inl .none
        · rename_i hmore
          exact .inl (.some ⟨by simp [hmore.1], hmore.2⟩)
      · refine .inr ⟨hb, fun items rest items' rest' hitems hitems' more more' e => ?_⟩
        split at hitems
        · simp at hitems
        · split at hitems'
          · simp at hitems'
          · rename_i hmore _ _ _ hmore'
            simp only [Except.ok.injEq, Prod.mk.injEq] at hitems hitems'
            rw [← hitems.1, ← hitems'.1, List.append_assoc, List.append_assoc] at e
            exact hread _ _ _ _ hmore hmore' _ _ (List.append_cancel_left e)
    · refine .inr ⟨hb, fun items rest items' rest' hread hread' more more' e => ?_⟩
      obtain ⟨found, left, back, hfound, -, rfl⟩ := ClassBody.read_cons_ok hc hread
      obtain ⟨found', left', back', hfound', -, rfl⟩ := ClassBody.read_cons_ok hd hread'
      rw [List.append_assoc, List.append_assoc] at e
      exact hpiece _ _ _ _ hfound hfound' _ _ e

end Unfolds

end PatternDiagram
