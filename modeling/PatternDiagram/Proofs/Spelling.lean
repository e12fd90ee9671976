import Mathlib.Data.List.TakeWhile
import PatternDiagram.Proofs.Printing

/-!
# How literals are spelled

* `Literal.Spells`: the texts that stand for a literal;
* `Literal.IsSurrogate`: the one kind of text that stands for less than it says: an escape of four
  digits whose number is that of no character;
* `Escape.octal_digits`, `Escape.hex_some`, `Escape.hex_none`, `Escape.code_some`,
  `Escape.code_none`: the digits that a number takes, or that none are taken;
* `Token.spells_of_next`: **a literal takes a text that spells it**, surrogates apart;
* `Token.next_of_isSurrogate`: what becomes of a surrogate;
* `Token.next_of_incomplete_iff`: **an escape that is not complete is plain**, surrogates apart;
* `Reader.next_spells_iff`: both for readers, with places in bytes.
-/

namespace PatternDiagram

/-! ## 1. Spellings -/

/-- The digits are of the base, and their number is that of the character. -/
def Numeral.IsCode (base : Nat) (ds : List Char) (c : Char) : Prop :=
  (∀ d ∈ ds, isDigit base d = true) ∧ value base ds = c.toNat

namespace Literal

/-- **The text stands for the literal.** A character stands for itself, with or without a
    backslash; the others have the forms of their own, whose digits and letters say which
    character it is. -/
inductive Spells : List Char → Literal → Prop where
  | plain (c : Char) : Spells [c] (.char c)
  | backslash (c : Char) : Spells ['\\', c] (.char c)
  | any : Spells ['.'] .any
  | set (e : EscapeClass) : Spells e.source (.set e)
  | lineFeed : Spells ['\\', 'n'] (.escaped '\n' .lineFeed)
  | carriageReturn : Spells ['\\', 'r'] (.escaped '\r' .carriageReturn)
  | tab : Spells ['\\', 't'] (.escaped '\t' .tab)
  | verticalTab : Spells ['\\', 'v'] (.escaped '\x0b' .verticalTab)
  | formFeed : Spells ['\\', 'f'] (.escaped '\x0c' .formFeed)
  | null : Spells ['\\', '0'] (.escaped '\x00' .null)
  | octal {ds : List Char} {c : Char} (hpos : 0 < ds.length) (hlength : ds.length ≤ 2)
      (h : Numeral.IsCode 8 ds c) : Spells ('\\' :: '0' :: ds) (.escaped c .octal)
  | control {letter c : Char} (hletter : letter.isAlpha = true) (h : c.toNat = letter.toNat % 32) :
      Spells ['\\', 'c', letter] (.escaped c (.control letter))
  | hex {ds : List Char} {c : Char} (hlength : ds.length = 2) (h : Numeral.IsCode 16 ds c) :
      Spells ('\\' :: 'x' :: ds) (.escaped c .hex)
  | unicode {ds : List Char} {c : Char} (hlength : ds.length = 4) (h : Numeral.IsCode 16 ds c) :
      Spells ('\\' :: 'u' :: ds) (.escaped c .unicode)
  | braces {ds : List Char} {c : Char} (hpos : 0 < ds.length) (h : Numeral.IsCode 16 ds c) :
      Spells ('\\' :: 'u' :: '{' :: (ds ++ ['}'])) (.escaped c .unicode)

theorem spells_char_iff {text : List Char} {c : Char} :
    Spells text (.char c) ↔ text = [c] ∨ text = ['\\', c] := by
  constructor
  · intro h
    cases h with
    | plain => exact .inl rfl
    | backslash => exact .inr rfl
  · rintro (rfl | rfl)
    · exact .plain c
    · exact .backslash c

/-- The text is an escape of four digits whose number is that of no character. -/
def IsSurrogate (text : List Char) : Prop :=
  ∃ ds, text = '\\' :: 'u' :: ds ∧ ds.length = 4 ∧ (∀ d ∈ ds, Numeral.isDigit 16 d = true) ∧
    ¬ (Numeral.value 16 ds).isValidChar

end Literal

/-! ## 2. Digits -/

namespace Escape

/-- **The digits of an octal escape** go on with the number before them. -/
theorem octal_digits (more value : Nat) (cs : List Char) :
    ∃ ds, cs = ds ++ (octal more value cs).2 ∧ ds.length ≤ more ∧
      (∀ d ∈ ds, Numeral.isDigit 8 d = true) ∧
      (octal more value cs).1 = ds.foldl (fun n c => n * 8 + (Numeral.digit? c).getD 0) value := by
  fun_induction octal more value cs with
  | case1 more value c cs larger hc ih =>
    obtain ⟨ds, hcs, hlength, hdigits, hvalue⟩ := ih
    refine ⟨c :: ds, ?_, by simpa using hlength, List.forall_mem_cons.mpr ⟨hc.1, hdigits⟩, hvalue⟩
    rw [List.cons_append, ← hcs]
  | case2 more value c cs larger hc => exact ⟨[], rfl, by simp, by simp, rfl⟩
  | case3 more value cs => exact ⟨[], rfl, by simp, by simp, rfl⟩

/-- The digits at the front of a text are as many as the text is long only if it has no others. -/
theorem digits_of_length_hexDigits {n : Nat} {cs : List Char}
    (h : (hexDigits (cs.take n)).length = n) :
    (cs.take n).length = n ∧ ∀ d ∈ cs.take n, Numeral.isDigit 16 d = true := by
  have hprefix : hexDigits (cs.take n) <+: cs.take n := List.takeWhile_prefix _
  have hle := hprefix.length_le
  have hlength : (cs.take n).length = n := Nat.le_antisymm (List.length_take_le n cs) (by omega)
  refine ⟨hlength, fun d hd => ?_⟩
  rw [← hprefix.eq_of_length (h.trans hlength.symm)] at hd
  exact List.mem_takeWhile_imp hd

theorem not_isValidChar {n : Nat} (h : charOfCode? n = none) : ¬ n.isValidChar := by
  intro hn
  simp [charOfCode?, hn] at h

/-- Digits that give a character have been there, as many as were asked for. -/
theorem hex_some {n : Nat} {cs rest : List Char} {c : Char} (h : hex n cs = (some c, rest)) :
    ∃ ds, cs = ds ++ rest ∧ ds.length = n ∧ Numeral.IsCode 16 ds c := by
  unfold hex at h
  split at h
  · rename_i hdigits
    obtain ⟨hlength, hall⟩ := digits_of_length_hexDigits hdigits
    simp only [Prod.mk.injEq] at h
    obtain ⟨hcode, rfl⟩ := h
    exact ⟨cs.take n, (List.take_append_drop n cs).symm, hlength, hall,
      (toNat_charOfCode? hcode).symm⟩
  · simp at h

/-- Without a character nothing is taken, unless the digits are there and give none. -/
theorem hex_none {n : Nat} {cs rest : List Char} (h : hex n cs = (none, rest)) :
    rest = cs ∨ ∃ ds, cs = ds ++ rest ∧ ds.length = n ∧
      (∀ d ∈ ds, Numeral.isDigit 16 d = true) ∧ ¬ (Numeral.value 16 ds).isValidChar := by
  unfold hex at h
  split at h
  · rename_i hdigits
    obtain ⟨hlength, hall⟩ := digits_of_length_hexDigits hdigits
    simp only [Prod.mk.injEq] at h
    obtain ⟨hcode, rfl⟩ := h
    exact .inr ⟨cs.take n, (List.take_append_drop n cs).symm, hlength, hall,
      not_isValidChar hcode⟩
  · simp only [Prod.mk.injEq, true_and] at h
    exact .inl h.symm

/-- Two digits always give a character. -/
theorem hex_two_none {cs rest : List Char} (h : hex 2 cs = (none, rest)) : rest = cs := by
  rcases hex_none h with hrest | ⟨ds, -, hlength, -, hvalid⟩
  · exact hrest
  · have hvalue := Numeral.value_lt ds
    rw [hlength] at hvalue
    exact absurd (.inl (by omega)) hvalid

/-- The number of a character takes a text that spells it. -/
theorem code_some {cs rest : List Char} {c : Char} (h : code cs = (some c, rest)) :
    ∃ text, cs = text ++ rest ∧ Literal.Spells ('\\' :: 'u' :: text) (.escaped c .unicode) := by
  unfold code at h
  split at h
  · rename_i cs
    dsimp only at h
    split at h
    · rename_i left hdrop
      split at h
      · simp at h
      · rename_i hne
        split at h
        · rename_i value hcode
          simp only [Prod.mk.injEq, Option.some.injEq] at h
          obtain ⟨rfl, rfl⟩ := h
          have hcs : cs = hexDigits cs ++ '}' :: left := by
            rw [← hdrop]
            exact (List.prefix_iff_eq_append.mp (List.takeWhile_prefix _)).symm
          have hpos : 0 < (hexDigits cs).length := by
            rw [List.length_pos_iff]
            simpa using hne
          refine ⟨'{' :: (hexDigits cs ++ ['}']), ?_, .braces hpos ⟨fun d hd => ?_, ?_⟩⟩
          · simpa using hcs
          · exact List.mem_takeWhile_imp hd
          · exact (toNat_charOfCode? hcode).symm
        · simp at h
    · simp at h
  · obtain ⟨ds, hcs, hlength, hcode⟩ := hex_some h
    exact ⟨ds, hcs, .unicode hlength hcode⟩

/-- Without a character nothing is taken, except the digits of a surrogate. -/
theorem code_none {cs rest : List Char} (h : code cs = (none, rest)) :
    rest = cs ∨ ∃ ds, cs = ds ++ rest ∧ Literal.IsSurrogate ('\\' :: 'u' :: ds) := by
  unfold code at h
  split at h
  · rename_i cs
    dsimp only at h
    split at h
    · split at h
      · exact .inl (by simpa using h.symm)
      · split at h
        · simp at h
        · exact .inl (by simpa using h.symm)
    · exact .inl (by simpa using h.symm)
  · rcases hex_none h with hrest | ⟨ds, hcs, hlength, hall, hvalid⟩
    · exact .inl hrest
    · exact .inr ⟨ds, hcs, ds, rfl, hlength, hall, hvalid⟩

/-- **An escape takes a text that spells it**, its backslash included, or else the digits of a
    surrogate behind its letter. -/
theorem spells_read (c : Char) (cs : List Char) :
    ∃ text, '\\' :: c :: cs = text ++ (read c cs).2 ∧
      (Literal.Spells text (read c cs).1 ∨
        Literal.IsSurrogate text ∧ (read c cs).1 = .char 'u') := by
  unfold read
  split
  case h_12 =>
    -- an octal number is read if there is a digit behind the nought
    obtain ⟨ds, hcs, hlength, hall, hvalue⟩ := octal_digits 2 0 cs
    dsimp only
    split
    · exact ⟨['\\', '0'], rfl, .inl .null⟩
    · rename_i hne
      have hpos : 0 < ds.length := by
        rw [List.length_pos_iff]
        rintro rfl
        exact hne (congrArg List.length hcs).symm
      have hbyte := octal_le 2 0 cs (by omega)
      refine ⟨'\\' :: '0' :: ds, by rw [List.cons_append, List.cons_append, ← hcs],
        .inl (.octal hpos hlength ⟨hall, ?_⟩)⟩
      rw [toNat_ofNat_of_le hbyte]
      exact hvalue.symm
  case h_13 =>
    split
    · rename_i letter rest
      split
      · exact ⟨['\\', 'c', letter], rfl, .inl (.control ‹_› (toNat_controlChar letter))⟩
      · exact ⟨['\\'], rfl, .inl (.plain '\\')⟩
    · exact ⟨['\\'], rfl, .inl (.plain '\\')⟩
  case h_14 =>
    split
    · rename_i value rest hhex
      obtain ⟨ds, rfl, hlength, hcode⟩ := hex_some hhex
      exact ⟨'\\' :: 'x' :: ds, rfl, .inl (.hex hlength hcode)⟩
    · rename_i rest hhex
      rw [hex_two_none hhex]
      exact ⟨['\\', 'x'], rfl, .inl (.backslash 'x')⟩
  case h_15 =>
    split
    · rename_i value rest hcode
      obtain ⟨text, rfl, hspells⟩ := code_some hcode
      exact ⟨'\\' :: 'u' :: text, rfl, .inl hspells⟩
    · rename_i rest hcode
      rcases code_none hcode with rfl | ⟨ds, rfl, hsurrogate⟩
      · exact ⟨['\\', 'u'], rfl, .inl (.backslash 'u')⟩
      · exact ⟨'\\' :: 'u' :: ds, rfl, .inr ⟨hsurrogate, rfl⟩⟩
  case h_16 => exact ⟨['\\', c], rfl, .inl (.backslash c)⟩
  all_goals exact ⟨_, rfl, .inl (by constructor)⟩

end Escape

/-! ## 3. Tokens -/

namespace Token

open Literal

/-- No literal is a quantifier. -/
theorem lazily_ne_literal (min : Nat) (max : Option Nat) (cs : List Char) (l : Literal)
    (rest : List Char) : lazily min max cs ≠ (.literal l, rest) := by
  unfold lazily
  split <;> simp

/-- A brace that is a literal takes nothing but itself. -/
theorem braces_literal {site cs rest : List Char} {l : Literal}
    (h : braces site cs = .ok (.literal l, rest)) : l = .char '{' ∧ rest = cs := by
  unfold braces at h
  split at h
  · simp only [Except.ok.injEq, Prod.mk.injEq, literal.injEq] at h
    exact ⟨h.1.symm, h.2.symm⟩
  · split at h
    · simp at h
    · exact absurd (Except.ok.inj h) (lazily_ne_literal _ _ _ l rest)
  · exact absurd (Except.ok.inj h) (lazily_ne_literal _ _ _ l rest)

/-- No literal is the beginning of a group. -/
theorem group_ne_literal (site cs : List Char) (l : Literal) (rest : List Char) :
    group site cs ≠ .ok (.literal l, rest) := by
  unfold group
  split
  case h_6 => split <;> simp
  all_goals simp

/-- A backslash that is a literal is read by the rules for escapes. -/
theorem escape_literal {site cs rest : List Char} {l : Literal}
    (h : escape site cs = .ok (.literal l, rest)) :
    ∃ c left, cs = c :: left ∧ Escape.read c left = (l, rest) := by
  unfold escape at h
  split at h
  · simp at h
  · simp at h
  · simp at h
  · split at h <;> simp at h
  · rename_i c left _ _ _
    split at h
    · simp at h
    · simp only [Except.ok.injEq, Prod.mk.injEq, literal.injEq] at h
      exact ⟨c, left, rfl, Prod.ext h.1 h.2⟩

/-- **A literal takes a text that spells it**, or else it is the letter of a surrogate and takes the
    digits as well. -/
theorem spells_of_next {cs rest : List Char} {l : Literal}
    (h : next cs = .ok (some (.literal l, rest))) :
    ∃ text, cs = text ++ rest ∧ (Spells text l ∨ IsSurrogate text ∧ l = .char 'u') := by
  cases cs with
  | nil => simp [next] at h
  | cons c cs =>
    have hread : read c cs = .ok (.literal l, rest) := by
      simp only [next] at h
      split at h
      · rename_i found hread
        simp only [Except.ok.injEq, Option.some.injEq] at h
        rw [hread, h]
      · simp at h
    unfold read at hread
    split at hread
    case h_3 => exact absurd hread (group_ne_literal _ _ _ _)
    case h_4 => split at hread <;> simp at hread
    case h_8 => exact absurd (Except.ok.inj hread) (lazily_ne_literal _ _ _ _ _)
    case h_9 => exact absurd (Except.ok.inj hread) (lazily_ne_literal _ _ _ _ _)
    case h_10 => exact absurd (Except.ok.inj hread) (lazily_ne_literal _ _ _ _ _)
    case h_11 =>
      obtain ⟨rfl, rfl⟩ := braces_literal hread
      exact ⟨['{'], rfl, .inl (.plain '{')⟩
    case h_12 =>
      obtain ⟨d, left, rfl, hescape⟩ := escape_literal hread
      have hspells := Escape.spells_read d left
      rw [hescape] at hspells
      exact hspells
    case h_7 =>
      simp only [Except.ok.injEq, Prod.mk.injEq, literal.injEq] at hread
      obtain ⟨rfl, rfl⟩ := hread
      exact ⟨['.'], rfl, .inl .any⟩
    case h_13 =>
      simp only [Except.ok.injEq, Prod.mk.injEq, literal.injEq] at hread
      obtain ⟨rfl, rfl⟩ := hread
      exact ⟨[c], rfl, .inl (.plain c)⟩
    all_goals simp at hread

end Token

/-! ## 4. Surrogates -/

/-- A text that spells a literal is not the escape of a surrogate. -/
theorem Literal.Spells.not_isSurrogate {text : List Char} {l : Literal} (h : Spells text l) :
    ¬ IsSurrogate text := by
  rintro ⟨ds, rfl, hlength, hdigits, hvalid⟩
  generalize htext : '\\' :: 'u' :: ds = text at h
  cases h with
  | unicode hlength' hcode =>
    obtain ⟨-, hvalue⟩ := hcode
    simp only [List.cons.injEq, true_and] at htext
    rw [htext, hvalue] at hvalid
    exact hvalid (Char.valid _)
  | braces hpos hcode =>
    simp only [List.cons.injEq, true_and] at htext
    rw [htext] at hdigits
    exact absurd (hdigits '{' List.mem_cons_self) (by decide)
  | set e =>
    simp only [EscapeClass.source, List.cons.injEq] at htext
    rw [htext.2.2] at hlength
    simp at hlength
  | backslash c =>
    simp only [List.cons.injEq, true_and] at htext
    rw [htext.2] at hlength
    simp at hlength
  | _ => simp at htext

/-- The escape of a surrogate is read as its letter, and its digits are taken as well. -/
theorem Token.next_of_isSurrogate {text : List Char} (rest : List Char)
    (h : Literal.IsSurrogate text) :
    next (text ++ rest) = .ok (some (.literal (.char 'u'), rest)) := by
  obtain ⟨ds, rfl, hlength, hdigits, hvalid⟩ := h
  refine next_escape (by decide) (by decide) (by decide) (by decide) ?_
  have hcode : Escape.code (ds ++ rest) = (none, rest) := by
    rw [Escape.code_append rest hlength hdigits, Escape.charOfCode?, if_neg hvalid]
  simp [Escape.read, hcode]

/-! ## 5. Escapes that are not complete -/

/-- Some front of the text completes the escape of the letter. -/
def Escape.Completes (letter : Char) (cs : List Char) : Prop :=
  ∃ text rest c form, cs = text ++ rest ∧
    Literal.Spells ('\\' :: letter :: text) (.escaped c form)

/-- What an escape stands for that is begun and not completed, and what is left: the letter by
    itself, or the backslash by itself if it is a control escape. -/
def Escape.plain (letter : Char) (cs : List Char) : Literal × List Char :=
  if letter = 'c' then (.char '\\', 'c' :: cs) else (.char letter, cs)

/-- Some front of the text is an escape of a surrogate. -/
def Literal.SurrogateAhead (cs : List Char) : Prop :=
  ∃ text rest, cs = text ++ rest ∧ IsSurrogate text

theorem Literal.SurrogateAhead.head_eq {letter : Char} {cs : List Char}
    (h : SurrogateAhead ('\\' :: letter :: cs)) : letter = 'u' := by
  obtain ⟨text, rest, htext, ds, rfl, -⟩ := h
  simp only [List.cons_append, List.cons.injEq, true_and] at htext
  exact htext.1

namespace Token

/-- A hexadecimal escape that is not complete takes its letter only. -/
theorem next_hex_of_incomplete {cs : List Char} (h : ¬ Escape.Completes 'x' cs) :
    next ('\\' :: 'x' :: cs) = .ok (some (.literal (.char 'x'), cs)) := by
  refine next_escape (by decide) (by decide) (by decide) (by decide) ?_
  simp only [Escape.read]
  split
  · rename_i value rest hhex
    obtain ⟨ds, rfl, hlength, hcode⟩ := Escape.hex_some hhex
    exact absurd ⟨ds, rest, value, .hex, rfl, .hex hlength hcode⟩ h
  · rename_i rest hhex
    rw [Escape.hex_two_none hhex]

/-- So does the escape of a number of a character, if it is not the escape of a surrogate. -/
theorem next_unicode_of_incomplete {cs : List Char} (h : ¬ Escape.Completes 'u' cs)
    (hsurrogate : ¬ Literal.SurrogateAhead ('\\' :: 'u' :: cs)) :
    next ('\\' :: 'u' :: cs) = .ok (some (.literal (.char 'u'), cs)) := by
  refine next_escape (by decide) (by decide) (by decide) (by decide) ?_
  simp only [Escape.read]
  split
  · rename_i value rest hcode
    obtain ⟨text, rfl, hspells⟩ := Escape.code_some hcode
    exact absurd ⟨text, rest, value, .unicode, rfl, hspells⟩ h
  · rename_i rest hcode
    rcases Escape.code_none hcode with rfl | ⟨ds, rfl, his⟩
    · rfl
    · exact absurd ⟨_, rest, rfl, his⟩ hsurrogate

/-- A control escape without a letter takes its backslash only. -/
theorem next_control_of_incomplete {cs : List Char} (h : ¬ Escape.Completes 'c' cs) :
    next ('\\' :: 'c' :: cs) = .ok (some (.literal (.char '\\'), 'c' :: cs)) := by
  refine next_escape (by decide) (by decide) (by decide) (by decide) ?_
  simp only [Escape.read]
  split
  · rename_i letter rest
    split
    · rename_i hletter
      exact absurd ⟨[letter], rest, _, _, rfl, .control hletter (Escape.toNat_controlChar letter)⟩ h
    · rfl
  · rfl

/-- **An escape that is not complete is plain, and nothing behind it is taken**, unless it is the
    escape of a surrogate. -/
theorem next_of_incomplete_iff {letter : Char} {cs : List Char} (hletter : letter ∈ ['x', 'u', 'c'])
    (h : ¬ Escape.Completes letter cs) :
    next ('\\' :: letter :: cs) =
        .ok (some (.literal (Escape.plain letter cs).1, (Escape.plain letter cs).2)) ↔
      ¬ Literal.SurrogateAhead ('\\' :: letter :: cs) := by
  constructor
  · intro hnext hsurrogate
    obtain rfl := hsurrogate.head_eq
    obtain ⟨text, rest, htext, his⟩ := hsurrogate
    have hshort : rest.length < cs.length := by
      obtain ⟨ds, rfl, hlength, -⟩ := his
      simp only [List.cons_append, List.cons.injEq, true_and] at htext
      rw [htext, List.length_append]
      omega
    rw [htext, next_of_isSurrogate rest his] at hnext
    obtain rfl : rest = cs := by simpa [Escape.plain] using hnext
    exact Nat.lt_irrefl _ hshort
  · intro hsurrogate
    simp only [List.mem_cons, List.not_mem_nil, or_false] at hletter
    rcases hletter with rfl | rfl | rfl
    · exact next_hex_of_incomplete h
    · exact next_unicode_of_incomplete h hsurrogate
    · exact next_control_of_incomplete h

end Token

/-! ## 6. Readers -/

namespace Reader

open Literal

/-- **Literals and their spans**, at any position of any pattern. A literal that is found there has
    a span whose text spells it, so that nothing is passed over, just if that text is not the escape
    of a surrogate: this is read as its letter, but has its digits in its span all the same. And an
    escape that is begun and not completed is the plain letter, or the backslash if it is a control
    escape, and reading goes on right behind that, just if it does not begin as one of a
    surrogate. -/
theorem next_spells_iff (pattern : List Char) (base position : Nat) :
    (∀ l first behind after, ((ofPattern pattern base).seek position).next =
      (.ok (some ⟨.literal l, first, behind⟩), after) →
        ∃ front text, pattern = front ++ text ++ after.rest ∧ first = byteLength front ∧
          behind = byteLength (front ++ text) ∧ (Spells text l ↔ ¬ IsSurrogate text)) ∧
    ∀ letter ∈ ['x', 'u', 'c'], ∀ cs,
      ((ofPattern pattern base).seek position).rest = '\\' :: letter :: cs →
        ¬ Escape.Completes letter cs →
          ((∃ first behind after, ((ofPattern pattern base).seek position).next =
              (.ok (some ⟨.literal (Escape.plain letter cs).1, first, behind⟩), after) ∧
              after.rest = (Escape.plain letter cs).2) ↔
            ¬ SurrogateAhead ('\\' :: letter :: cs)) := by
  have hplace := dropBytes_suffix position pattern
  refine ⟨fun l first behind after h => ?_, fun letter hletter cs hrest hincomplete => ?_⟩
  · obtain ⟨rest, hnext, rfl, rfl, rfl⟩ := next_eq_some_iff.mp h
    obtain ⟨text, htext, hspells⟩ := Token.spells_of_next hnext
    obtain ⟨front, hpattern⟩ := hplace
    have hsplit : pattern = front ++ text ++ rest := by
      rw [List.append_assoc, ← htext]
      exact hpattern.symm
    refine ⟨front, text, hsplit, place_of_append hpattern.symm, place_of_append hsplit,
      fun h => h.not_isSurrogate, fun h => ?_⟩
    exact hspells.resolve_right fun hsurrogate => h hsurrogate.1
  · rw [← Token.next_of_incomplete_iff hletter hincomplete, ← hrest]
    constructor
    · rintro ⟨first, behind, after, h, hafter⟩
      obtain ⟨rest, hnext, -, -, rfl⟩ := next_eq_some_iff.mp h
      rw [hnext, ← hafter]
      rfl
    · intro hnext
      exact ⟨_, _, _, next_eq_some_iff.mpr ⟨_, hnext, rfl, rfl, rfl⟩, rfl⟩

/-- The escape of a surrogate takes its digits, though it only stands for its letter. -/
theorem next_surrogate :
    (ofPattern "\\ud800".toList 0).next.1 = .ok (some ⟨.literal (.char 'u'), 0, 6⟩) ∧
      ¬ Spells "\\ud800".toList (.char 'u') := by
  refine ⟨by with_unfolding_all rfl, ?_⟩
  rw [spells_char_iff]
  decide

end Reader

end PatternDiagram
