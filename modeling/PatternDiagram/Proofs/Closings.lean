import Mathlib.Algebra.Group.Nat.Even
import PatternDiagram.Proofs.Spelling

/-!
# Closing brackets

A class goes on to the first bracket that no backslash escapes. Here this is said without reading
anything, by counting backslashes, and then what the atoms of a class take is brought together with
it:

* `slashesAtEnd`: how many backslashes stand at the end of a text;
* `ClassBody.IsBody`: **all that stands before the closing bracket**;
* `ClassBody.Takes`, `ClassBody.takes_of_atom`: what an atom takes, as far as brackets and
  backslashes go;
* `ClassBody.isBody_of_takes`: a text is a body just if it is one behind an atom;
* `ClassBody.atom_append`: **an atom is read as if the closing bracket were the end of the text**.
-/

namespace PatternDiagram

/-! ## 1. Backslashes -/

/-- How many backslashes stand at the end of the text, one directly after the other. -/
def slashesAtEnd (cs : List Char) : Nat := (cs.reverse.takeWhile (· == '\\')).length

theorem slashesAtEnd_append (front back : List Char) :
    slashesAtEnd (front ++ back) =
      if slashesAtEnd back = back.length then back.length + slashesAtEnd front
      else slashesAtEnd back := by
  unfold slashesAtEnd
  rw [List.reverse_append, List.takeWhile_append, List.length_reverse]
  split
  · rw [List.length_append, List.length_reverse]
  · rfl

/-- Where an even number of backslashes ends a text, what comes behind it counts from nought. -/
theorem even_slashesAtEnd_append {front : List Char} (h : Even (slashesAtEnd front))
    (back : List Char) : Even (slashesAtEnd (front ++ back)) ↔ Even (slashesAtEnd back) := by
  rw [slashesAtEnd_append]
  split
  · rename_i hall
    rw [hall, Nat.even_add]
    exact iff_of_eq (by simp [h])
  · exact Iff.rfl

theorem slashesAtEnd_singleton {c : Char} (h : c ≠ '\\') : slashesAtEnd [c] = 0 := by
  simp [slashesAtEnd, h]

theorem even_slashesAtEnd_escape (d : Char) : Even (slashesAtEnd ['\\', d]) := by
  by_cases hd : d = '\\'
  · subst hd
    decide
  · simp [slashesAtEnd, hd]

namespace ClassBody

/-! ## 2. Bodies -/

/-- **The text is all that stands before the closing bracket**: the bracket behind it comes after an
    even number of backslashes, and every bracket in it after an odd number. -/
structure IsBody (body : List Char) : Prop where
  closed : Even (slashesAtEnd body)
  opened : ∀ front back, body = front ++ ']' :: back → ¬ Even (slashesAtEnd front)

theorem isBody_nil : IsBody [] where
  closed := by decide
  opened := by
    intro front back h
    simp at h

theorem not_isBody_bracket (cs : List Char) : ¬ IsBody (']' :: cs) := by
  intro h
  exact h.opened [] cs rfl (by decide)

theorem not_isBody_backslash : ¬ IsBody ['\\'] := by
  intro h
  exact absurd h.closed (by decide)

/-- A character that is neither a bracket nor a backslash makes no difference. -/
theorem isBody_char {c : Char} (cs : List Char) (hslash : c ≠ '\\') (hbracket : c ≠ ']') :
    IsBody (c :: cs) ↔ IsBody cs := by
  have hnone : Even (slashesAtEnd [c]) := by simp [slashesAtEnd_singleton hslash]
  have heven (back : List Char) : Even (slashesAtEnd (c :: back)) ↔ Even (slashesAtEnd back) :=
    even_slashesAtEnd_append hnone back
  constructor
  · intro h
    refine ⟨(heven cs).mp h.closed, ?_⟩
    rintro front back rfl hfront
    exact h.opened (c :: front) back rfl ((heven front).mpr hfront)
  · intro h
    refine ⟨(heven cs).mpr h.closed, ?_⟩
    intro front back hcs hfront
    cases front with
    | nil => exact hbracket (List.cons.inj hcs).1
    | cons d front =>
      obtain ⟨rfl, hback⟩ := List.cons.inj hcs
      exact h.opened front back hback ((heven front).mp hfront)

/-- Nor does a backslash with the character that it escapes, whichever this is. -/
theorem isBody_escape (d : Char) (cs : List Char) : IsBody ('\\' :: d :: cs) ↔ IsBody cs := by
  have heven (back : List Char) :
      Even (slashesAtEnd ('\\' :: d :: back)) ↔ Even (slashesAtEnd back) :=
    even_slashesAtEnd_append (even_slashesAtEnd_escape d) back
  constructor
  · intro h
    refine ⟨(heven cs).mp h.closed, ?_⟩
    rintro front back rfl hfront
    exact h.opened ('\\' :: d :: front) back rfl ((heven front).mpr hfront)
  · intro h
    refine ⟨(heven cs).mpr h.closed, ?_⟩
    intro front back hcs hfront
    match front with
    | [] => exact absurd (List.cons.inj hcs).1 (by decide)
    | [e] =>
      obtain ⟨rfl, -⟩ := List.cons.inj hcs
      exact absurd hfront (by decide)
    | e :: f :: front =>
      simp only [List.cons_append, List.cons.injEq] at hcs
      obtain ⟨rfl, rfl, hcs⟩ := hcs
      exact h.opened front back hcs ((heven front).mp hfront)

/-- The text is a body, a closing bracket, and `tail`. -/
def ClosesBefore (tail text : List Char) : Prop := ∃ body, text = body ++ ']' :: tail ∧ IsBody body

theorem closesBefore_bracket (tail : List Char) : ClosesBefore tail (']' :: tail) :=
  ⟨[], rfl, isBody_nil⟩

theorem closesBefore_char {c : Char} (tail cs : List Char) (hslash : c ≠ '\\')
    (hbracket : c ≠ ']') : ClosesBefore tail (c :: cs) ↔ ClosesBefore tail cs := by
  constructor
  · rintro ⟨body, hbody, h⟩
    cases body with
    | nil => exact absurd (List.cons.inj hbody).1 hbracket
    | cons d body =>
      obtain ⟨rfl, hcs⟩ := List.cons.inj hbody
      exact ⟨body, hcs, (isBody_char body hslash hbracket).mp h⟩
  · rintro ⟨body, rfl, h⟩
    exact ⟨c :: body, rfl, (isBody_char body hslash hbracket).mpr h⟩

theorem closesBefore_escape (d : Char) (tail cs : List Char) :
    ClosesBefore tail ('\\' :: d :: cs) ↔ ClosesBefore tail cs := by
  constructor
  · rintro ⟨body, hbody, h⟩
    match body with
    | [] => exact absurd (List.cons.inj hbody).1 (by decide)
    | [e] =>
      obtain ⟨rfl, -⟩ := List.cons.inj hbody
      exact absurd h not_isBody_backslash
    | e :: f :: body =>
      simp only [List.cons_append, List.cons.injEq] at hbody
      obtain ⟨rfl, rfl, hcs⟩ := hbody
      exact ⟨body, hcs, (isBody_escape d body).mp h⟩
  · rintro ⟨body, rfl, h⟩
    exact ⟨'\\' :: d :: body, rfl, (isBody_escape d body).mpr h⟩

/-! ## 3. What atoms take -/

/-- Nothing has been taken between the two places but characters that are neither brackets nor
    backslashes. -/
def TakesPlain (cs rest : List Char) : Prop :=
  ∃ front, cs = front ++ rest ∧ ∀ c ∈ front, c ≠ '\\' ∧ c ≠ ']'

/-- What one atom takes: a character, or a backslash with the character that it escapes and perhaps
    more, or a backslash by itself. That one stands before a control letter that is missing. -/
inductive Takes : List Char → List Char → Prop where
  | char {c : Char} (cs : List Char) (hslash : c ≠ '\\') (hbracket : c ≠ ']') : Takes (c :: cs) cs
  | escape (d : Char) {cs rest : List Char} (h : TakesPlain cs rest) : Takes ('\\' :: d :: cs) rest
  | backslash (cs : List Char) : Takes ('\\' :: 'c' :: cs) ('c' :: cs)

/-- A property of texts that neither plain characters nor escapes make a difference to holds of a
    text just if it holds behind an atom. -/
theorem Takes.iff {P : List Char → Prop} {cs rest : List Char}
    (hchar : ∀ (c : Char) (cs : List Char), c ≠ '\\' → c ≠ ']' → (P (c :: cs) ↔ P cs))
    (hescape : ∀ (d : Char) (cs : List Char), P ('\\' :: d :: cs) ↔ P cs) (h : Takes cs rest) :
    P cs ↔ P rest := by
  cases h with
  | char _ hslash hbracket => exact hchar _ rest hslash hbracket
  | escape d hplain =>
    obtain ⟨front, rfl, hfront⟩ := hplain
    rw [hescape]
    induction front with
    | nil => exact Iff.rfl
    | cons c front ih =>
      obtain ⟨hc, hfront⟩ := List.forall_mem_cons.mp hfront
      rw [List.cons_append, hchar c _ hc.1 hc.2]
      exact ih hfront
  | backslash cs => rw [hescape, hchar 'c' cs (by decide) (by decide)]

theorem isBody_of_takes {cs rest : List Char} (h : Takes cs rest) : IsBody cs ↔ IsBody rest :=
  h.iff (fun _ cs => isBody_char cs) isBody_escape

theorem closesBefore_of_takes {cs rest : List Char} (tail : List Char) (h : Takes cs rest) :
    ClosesBefore tail cs ↔ ClosesBefore tail rest :=
  h.iff (fun _ cs => closesBefore_char tail cs) fun d cs => closesBefore_escape d tail cs

theorem takesPlain_refl (cs : List Char) : TakesPlain cs cs := ⟨[], rfl, by simp⟩

theorem plain_of_isDigit {base : Nat} {c : Char} (h : Numeral.isDigit base c = true) :
    c ≠ '\\' ∧ c ≠ ']' := by
  constructor
  · rintro rfl
    exact absurd h (by simp [Numeral.isDigit, show Numeral.digit? '\\' = none by decide])
  · rintro rfl
    exact absurd h (by simp [Numeral.isDigit, show Numeral.digit? ']' = none by decide])

/-- Digits are plain. -/
theorem takesPlain_digits {base : Nat} {ds : List Char} (rest : List Char)
    (h : ∀ d ∈ ds, Numeral.isDigit base d = true) : TakesPlain (ds ++ rest) rest :=
  ⟨ds, rfl, fun d hd => plain_of_isDigit (h d hd)⟩

theorem takesPlain_octal (more value : Nat) (cs : List Char) :
    TakesPlain cs (Escape.octal more value cs).2 := by
  obtain ⟨ds, hcs, -, hdigits, -⟩ := Escape.octal_digits more value cs
  have htakes := takesPlain_digits (Escape.octal more value cs).2 hdigits
  rwa [← hcs] at htakes

theorem takesPlain_code (cs : List Char) : TakesPlain cs (Escape.code cs).2 := by
  cases hcode : Escape.code cs with
  | mk found rest =>
    cases found with
    | none =>
      rcases Escape.code_none hcode with rfl | ⟨ds, rfl, ds', hds, -, hdigits, -⟩
      · exact takesPlain_refl rest
      · obtain rfl : ds = ds' := by simpa using hds
        exact takesPlain_digits rest hdigits
    | some c =>
      obtain ⟨text, rfl, hspells⟩ := Escape.code_some hcode
      refine ⟨text, rfl, ?_⟩
      generalize htext : '\\' :: 'u' :: text = whole at hspells
      cases hspells with
      | unicode _ his =>
        obtain rfl : text = _ := by simpa using htext
        exact fun d hd => plain_of_isDigit (his.1 d hd)
      | @braces ds _ _ his =>
        obtain rfl : text = '{' :: (ds ++ ['}']) := by simpa using htext
        intro d hd
        simp only [List.mem_cons, List.mem_append, List.not_mem_nil, or_false] at hd
        rcases hd with rfl | hd | rfl
        · decide
        · exact plain_of_isDigit (his.1 d hd)
        · decide

/-- What an escape takes behind its letter, unless it gives the letter back. -/
theorem takesPlain_read (c : Char) (cs : List Char) :
    TakesPlain cs (Escape.read c cs).2 ∨ c = 'c' ∧ (Escape.read c cs).2 = c :: cs := by
  have hself := takesPlain_refl cs
  unfold Escape.read
  split
  case h_12 =>
    dsimp only
    split
    · exact .inl hself
    · exact .inl (takesPlain_octal 2 0 cs)
  case h_13 =>
    split
    · rename_i letter rest
      split
      · rename_i hletter
        have hplain : letter ≠ '\\' ∧ letter ≠ ']' := by
          constructor <;> (rintro rfl; exact absurd hletter (by decide))
        exact .inl ⟨[letter], rfl, by simpa using hplain⟩
      · exact .inr ⟨rfl, rfl⟩
    · exact .inr ⟨rfl, rfl⟩
  case h_14 =>
    split
    · rename_i value rest hhex
      obtain ⟨ds, rfl, -, his⟩ := Escape.hex_some hhex
      exact .inl (takesPlain_digits rest his.1)
    · rename_i rest hhex
      rw [Escape.hex_two_none hhex]
      exact .inl hself
  case h_15 =>
    have hcode := takesPlain_code cs
    split <;> (rename_i heq; rw [heq] at hcode; exact .inl hcode)
  all_goals exact .inl hself

/-- **What an atom takes.** -/
theorem takes_of_atom {c : Char} {cs rest : List Char} {item : ClassItem} (hc : c ≠ ']')
    (h : atom c cs = some (item, rest)) : Takes (c :: cs) rest := by
  unfold atom at h
  split at h
  · rename_i hslash
    subst hslash
    split at h
    · simp at h
    · rename_i d left
      have hescape : (escape d left).2 = rest := by simpa using congrArg (Option.map Prod.snd) h
      unfold escape at hescape
      split at hescape
      · rw [← hescape]
        exact .escape d (takesPlain_refl left)
      · split at hescape
        · rw [← hescape]
          exact .escape d (takesPlain_octal _ _ left)
        · rcases takesPlain_read d left with hplain | ⟨rfl, hletter⟩
          · rw [← hescape]
            exact .escape d hplain
          · rw [← hescape, hletter]
            exact .backslash left
  · rename_i hslash
    obtain ⟨-, rfl⟩ : _ ∧ cs = rest := by simpa using h
    exact .char cs hslash hc

/-! ## 4. The bracket as an end -/

section

variable (tail : List Char)

theorem octal_append (more value : Nat) (cs : List Char) :
    Escape.octal more value (cs ++ ']' :: tail) =
      ((Escape.octal more value cs).1, (Escape.octal more value cs).2 ++ ']' :: tail) := by
  have hbracket : Numeral.isDigit 8 ']' = false := by decide
  induction more generalizing value cs with
  | zero => rfl
  | succ more ih =>
    cases cs with
    | nil => simp [Escape.octal, hbracket]
    | cons c cs =>
      simp only [List.cons_append, Escape.octal]
      split
      · exact ih _ cs
      · rfl

theorem hexDigits_append (cs : List Char) :
    Escape.hexDigits (cs ++ ']' :: tail) = Escape.hexDigits cs := by
  have hbracket : Numeral.isDigit 16 ']' = false := by decide
  induction cs with
  | nil => simp [Escape.hexDigits, hbracket]
  | cons c cs ih =>
    simp only [Escape.hexDigits] at ih
    simp only [Escape.hexDigits, List.cons_append, List.takeWhile_cons, ih]

/-- Digits that are missing are still missing, since the bracket is none. -/
theorem hex_append_bracket (n : Nat) (cs : List Char) :
    Escape.hex n (cs ++ ']' :: tail) =
      ((Escape.hex n cs).1, (Escape.hex n cs).2 ++ ']' :: tail) := by
  by_cases hlength : n ≤ cs.length
  · have htake : (cs ++ ']' :: tail).take n = cs.take n := List.take_append_of_le_length hlength
    have hdrop : (cs ++ ']' :: tail).drop n = cs.drop n ++ ']' :: tail :=
      List.drop_append_of_le_length hlength
    unfold Escape.hex
    rw [htake, hdrop]
    split <;> rfl
  · obtain ⟨k, hk⟩ : ∃ k, n = cs.length + (k + 1) := ⟨n - cs.length - 1, by omega⟩
    have htake : (cs ++ ']' :: tail).take n = cs ++ ']' :: tail.take k := by
      rw [hk, List.take_length_add_append, List.take_succ_cons]
    have hle : (Escape.hexDigits cs).length ≤ cs.length := (List.takeWhile_prefix _).length_le
    have hwhole : cs.take n = cs := List.take_of_length_le (by omega)
    unfold Escape.hex
    rw [htake, hexDigits_append, hwhole, if_neg (by omega), if_neg (by omega)]

theorem code_append_bracket (cs : List Char) :
    Escape.code (cs ++ ']' :: tail) =
      ((Escape.code cs).1, (Escape.code cs).2 ++ ']' :: tail) := by
  have hother {text : List Char} (h : ∀ more, text ≠ '{' :: more) :
      Escape.code text = Escape.hex 4 text := by
    unfold Escape.code
    split
    · exact absurd rfl (h _)
    · rfl
  by_cases hbrace : ∃ more, cs = '{' :: more
  · obtain ⟨more, rfl⟩ := hbrace
    have hdrop : (more ++ ']' :: tail).drop (Escape.hexDigits more).length =
        more.drop (Escape.hexDigits more).length ++ ']' :: tail :=
      List.drop_append_of_le_length (List.takeWhile_prefix _).length_le
    simp only [List.cons_append, Escape.code, hexDigits_append, hdrop]
    cases hleft : more.drop (Escape.hexDigits more).length with
    | nil => rfl
    | cons c left =>
      by_cases hc : c = '}'
      · subst hc
        simp only [List.cons_append]
        split
        · rfl
        · split <;> rfl
      · simp [hc]
  · have hcs : ∀ more, cs ≠ '{' :: more := fun more h => hbrace ⟨more, h⟩
    have hwhole : ∀ more, cs ++ ']' :: tail ≠ '{' :: more := by
      intro more h
      cases cs with
      | nil => simp at h
      | cons c cs =>
        obtain ⟨rfl, -⟩ := List.cons.inj h
        exact hcs cs rfl
    rw [hother hcs, hother hwhole, hex_append_bracket]

theorem read_append (c : Char) (cs : List Char) :
    Escape.read c (cs ++ ']' :: tail) =
      ((Escape.read c cs).1, (Escape.read c cs).2 ++ ']' :: tail) := by
  unfold Escape.read
  split
  case h_12 =>
    have hlength (rest : List Char) :
        (rest ++ ']' :: tail).length = (cs ++ ']' :: tail).length ↔ rest.length = cs.length := by
      simp
    simp only [octal_append, hlength]
    split <;> rfl
  case h_13 =>
    cases cs with
    | nil => simp [show ']'.isAlpha = false by decide]
    | cons letter rest =>
      simp only [List.cons_append]
      split <;> rfl
  case h_14 =>
    rw [hex_append_bracket]
    cases Escape.hex 2 cs with
    | mk found rest => cases found <;> rfl
  case h_15 =>
    rw [code_append_bracket]
    cases Escape.code cs with
    | mk found rest => cases found <;> rfl
  all_goals rfl

theorem escape_append (c : Char) (cs : List Char) :
    escape c (cs ++ ']' :: tail) = ((escape c cs).1, (escape c cs).2 ++ ']' :: tail) := by
  unfold escape
  split
  · rfl
  · split
    · rw [octal_append]
    · rw [read_append]

/-- **An atom is read as if the closing bracket were the end of the text.** -/
theorem atom_append {c : Char} {cs rest : List Char} {item : ClassItem}
    (h : atom c cs = some (item, rest)) :
    atom c (cs ++ ']' :: tail) = some (item, rest ++ ']' :: tail) := by
  by_cases hslash : c = '\\'
  · subst hslash
    cases cs with
    | nil => simp [atom] at h
    | cons d left =>
      have hescape : escape d left = (item, rest) := by simpa [atom] using h
      simp [atom, escape_append, hescape]
  · obtain ⟨rfl, rfl⟩ : _ ∧ cs = rest := by simpa [atom, hslash] using h
    simp [atom, hslash]

end

end ClassBody

end PatternDiagram
