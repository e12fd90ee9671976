import PatternDiagram.Proofs.Printing

/-!
# Words go as far as they can

The other side of `Word.next?_written`: where a word has been read, nothing follows that would have
become part of it.

* `Word.endsBefore_of_next?`: **a word takes from what follows it all that it can**;
* `Word.head?_of_next?_char`: a digit is only read where it stands.
-/

namespace PatternDiagram

theorem Token.Scanned.endsBefore {c : Char} {cs rest : List Char} {t : Token}
    (h : Token.Scanned c cs t rest) : (Word.token t).EndsBefore rest := by
  intro e he
  cases h with
  | escape d left _ h =>
    cases h with
    | escaped value form rest _ hnull =>
      cases form with
      | null => exact hnull rfl e he
      | _ => rfl
    | _ => rfl
  | groupOpen head rest hhead =>
    cases head with
    | capture name =>
      cases name with
      | none =>
        have hne : e ≠ '?' := fun hmark => hhead rfl (hmark ▸ he)
        simpa [Word.swallows] using hne
      | some s => rfl
    | _ => rfl
  | quantifier q rest _ hgreedy =>
    cases hq : q.greedy with
    | false => simp [Word.swallows, hq]
    | true =>
      have hne : e ≠ '?' := fun hmark => hgreedy hq (hmark ▸ he)
      simpa [Word.swallows, hq] using hne
  | index n rest _ hrest => exact hrest e he
  | _ => rfl

/-- **A word takes from what follows it all that it can.** -/
theorem Word.endsBefore_of_next? {cs rest : List Char} {w : Word}
    (h : Word.next? cs = some (w, rest)) : w.EndsBefore rest := by
  cases w with
  | characterClass c => exact fun _ _ => rfl
  | token t =>
    obtain ⟨c, more, -, hscanned⟩ := scanned_of_next? h
    exact hscanned.endsBefore

/-- No escape of a letter stands for a digit. -/
theorem Token.Scanned.eq_of_digit {c d : Char} {cs rest : List Char} (hd : d.isDigit = true)
    (h : Token.Scanned c cs (.literal (.char d)) rest) : c = d := by
  cases h with
  | char => rfl
  | escape e left he h =>
    cases h with
    | letter rest hnought => exact absurd (he hd) hnought
    | backslash rest => simp at hd

theorem Word.head?_of_next?_char {cs rest : List Char} {d : Char} (hd : d.isDigit = true)
    (h : Word.next? cs = some (.token (.literal (.char d)), rest)) : cs.head? = some d := by
  obtain ⟨c, more, rfl, hscanned⟩ := scanned_of_next? h
  rw [List.head?_cons, hscanned.eq_of_digit hd]

end PatternDiagram
