import Mathlib.Algebra.Ring.Nat
import PatternDiagram.Text.Numeral

/-!
# What numerals denote

* `Numeral.digit?_of_isDigit`, `Numeral.digit?_digitChar`, `Numeral.digit?_toUpper`: single digits;
* `Numeral.value_cons`, `Numeral.value_append`, `Numeral.value_lt_pow`: rows of digits, from the
  front;
* `Numeral.value_write`, `Numeral.value_padded`, `Numeral.value_paddedUpper`: **a number that is
  written is read as it was**;
* `Numeral.length_padded`, `Numeral.length_paddedUpper`: the widths.
-/

namespace PatternDiagram.Numeral

/-! ## 1. Digits -/

theorem digit?_of_isDigit {c : Char} (h : c.isDigit = true) :
    digit? c = some (c.toNat - '0'.toNat) := by
  rw [Char.isDigit_iff_toNat] at h
  have hc : '0' ≤ c ∧ c ≤ '9' := by
    simpa only [Char.le_def, UInt32.le_iff_toNat_le, Char.toNat_val] using h
  simp [digit?, hc]

theorem digit?_lt {c : Char} {d : Nat} (h : digit? c = some d) : d < 16 := by
  simp only [digit?, Char.le_def, UInt32.le_iff_toNat_le] at h
  split at h
  · rename_i hc
    simp at hc h
    omega
  · split at h
    · rename_i hc
      simp at hc h
      omega
    · split at h
      · rename_i hc
        simp at hc h
        omega
      · simp at h

theorem getD_digit?_lt (c : Char) : (digit? c).getD 0 < 16 := by
  cases h : digit? c with
  | none => simp
  | some d => exact digit?_lt h

/-- Up to base ten only the decimal digits are digits. -/
theorem char_isDigit {base : Nat} (hbase : base ≤ 10) {c : Char} (h : isDigit base c = true) :
    c.isDigit = true := by
  unfold isDigit digit? at h
  split at h
  · rename_i d hd
    split at hd
    · rename_i hc
      rw [Char.isDigit_iff_toNat]
      simpa only [Char.le_def, UInt32.le_iff_toNat_le, Char.toNat_val] using hc
    · have hlarge : 10 ≤ d := by
        split at hd
        · simp only [Option.some.injEq] at hd
          omega
        · split at hd
          · simp only [Option.some.injEq] at hd
            omega
          · simp at hd
      have hsmall : d < base := of_decide_eq_true h
      omega
  · simp at h

/-- Only the nought counts nothing. -/
theorem getD_digit?_eq_zero {c : Char} (h : isDigit 10 c = true) :
    (digit? c).getD 0 = 0 ↔ c = '0' := by
  have hc := char_isDigit (Nat.le_refl 10) h
  have hlow := (Char.isDigit_iff_toNat.mp hc).1
  rw [digit?_of_isDigit hc, Option.getD_some, ← Char.toNat_inj]
  constructor
  · intro hsub
    exact Nat.le_antisymm (Nat.sub_eq_zero_iff_le.mp hsub) hlow
  · intro heq
    rw [heq, Nat.sub_self]

theorem digit?_digitChar {d : Nat} (h : d < 16) : digit? (Nat.digitChar d) = some d := by
  have hall : ∀ d, d < 16 → digit? (Nat.digitChar d) = some d := by decide
  exact hall d h

/-- Small and capital letters are the same digits. -/
theorem digit?_toUpper (c : Char) : digit? c.toUpper = digit? c := by
  have hascii : ∀ n, n < 128 → digit? (Char.ofNat n).toUpper = digit? (Char.ofNat n) := by decide
  by_cases h : c.toNat < 128
  · rw [← Char.ofNat_toNat c]
    exact hascii c.toNat h
  · have hlarge : ¬ (c.val ≥ 'a'.val ∧ c.val ≤ 'z'.val) := by
      intro ⟨_, hz⟩
      rw [UInt32.le_iff_toNat_le, Char.toNat_val] at hz
      simp at hz
      omega
    have hupper : c.toUpper = c := dif_neg hlarge
    rw [hupper]

/-! ## 2. Rows of digits -/

theorem foldl_value (base n : Nat) (cs : List Char) :
    cs.foldl (fun n c => n * base + (digit? c).getD 0) n =
      n * base ^ cs.length + value base cs := by
  induction cs generalizing n with
  | nil => simp
  | cons c cs ih =>
    have htail := ih (0 * base + (digit? c).getD 0)
    rw [value, List.foldl_cons, List.foldl_cons, ih, htail, List.length_cons, Nat.pow_succ]
    grind

/-- **The first digit counts as often as the base says for each digit behind it.** -/
theorem value_cons (base : Nat) (c : Char) (cs : List Char) :
    value base (c :: cs) = (digit? c).getD 0 * base ^ cs.length + value base cs := by
  rw [← foldl_value]
  simp [value]

/-- A row of digits in front counts as often as the base says for each digit behind it. -/
theorem value_append (base : Nat) (cs ds : List Char) :
    value base (cs ++ ds) = value base cs * base ^ ds.length + value base ds := by
  rw [value, List.foldl_append, foldl_value]
  rfl

/-- **Digits denote numbers that have no more digits.** -/
theorem value_lt_pow {base : Nat} {cs : List Char} (h : ∀ c ∈ cs, (digit? c).getD 0 < base) :
    value base cs < base ^ cs.length := by
  induction cs with
  | nil => simp
  | cons c cs ih =>
    obtain ⟨hc, hcs⟩ := List.forall_mem_cons.mp h
    have hmul := Nat.mul_le_mul_right (base ^ cs.length) (Nat.succ_le_of_lt hc)
    rw [Nat.succ_mul] at hmul
    have htail := ih hcs
    rw [value_cons, List.length_cons, Nat.pow_succ, Nat.mul_comm (base ^ cs.length)]
    omega

/-- Whatever is not a digit counts as nought, so that base sixteen has room for every character. -/
theorem value_lt (cs : List Char) : value 16 cs < 16 ^ cs.length :=
  value_lt_pow fun c _ => getD_digit?_lt c

theorem getD_digit?_lt_of_isDigit {base : Nat} {c : Char} (h : isDigit base c = true) :
    (digit? c).getD 0 < base := by
  unfold isDigit at h
  split at h
  · next d hd => simpa [hd] using h
  · simp at h

/-! ## 3. Numbers -/

/-- **The digits of a number denote it.** -/
theorem value_write {base : Nat} (hbase : 1 < base) (hsixteen : base ≤ 16) (n : Nat) :
    value base (write base n) = n := by
  induction n using Nat.strongRecOn with
  | ind n ih =>
    by_cases h : n < base
    · simp [write_of_lt h, value, digit?_digitChar (Nat.lt_of_lt_of_le h hsixteen)]
    · have hlast : n % base < 16 := Nat.lt_of_lt_of_le (Nat.mod_lt n (by omega)) hsixteen
      have hless : n / base < n := Nat.div_lt_self (by omega) hbase
      rw [write, Nat.toDigits_of_base_le hbase (by omega), value_append_singleton,
        digit?_digitChar hlast, ← write, ih _ hless]
      exact Nat.div_add_mod' n base

theorem isDigit_of_mem_write {base n : Nat} (hbase : 1 < base) (hsixteen : base ≤ 16) {c : Char}
    (h : c ∈ write base n) : isDigit base c = true := by
  induction n using Nat.strongRecOn with
  | ind n ih =>
    have hone {d : Nat} (hd : d < base) : isDigit base (Nat.digitChar d) = true := by
      simp [isDigit, digit?_digitChar (Nat.lt_of_lt_of_le hd hsixteen), hd]
    by_cases hn : n < base
    · rw [write_of_lt hn, List.mem_singleton] at h
      exact h ▸ hone hn
    · rw [write, Nat.toDigits_of_base_le hbase (by omega), List.mem_append,
        List.mem_singleton] at h
      rcases h with h | rfl
      · exact ih _ (Nat.div_lt_self (by omega) hbase) h
      · exact hone (Nat.mod_lt n (by omega))

/-- A number other than nought does not begin with one. -/
theorem head?_write_ne {base n : Nat} (hbase : 1 < base) (hsixteen : base ≤ 16) (hn : 0 < n) :
    (write base n).head? ≠ some '0' := by
  induction n using Nat.strongRecOn with
  | ind n ih =>
    by_cases h : n < base
    · intro e
      have hdigit := digit?_digitChar (Nat.lt_of_lt_of_le h hsixteen)
      rw [write_of_lt h, List.head?_cons, Option.some.injEq] at e
      rw [e, show digit? '0' = some 0 from rfl] at hdigit
      simp at hdigit
      omega
    · have hfront := ih _ (Nat.div_lt_self (by omega) hbase) (Nat.div_pos (by omega) (by omega))
      have hne : write base (n / base) ≠ [] := Nat.toDigits_ne_nil
      rw [write, Nat.toDigits_of_base_le hbase (by omega), ← write]
      cases hdigits : write base (n / base) with
      | nil => exact absurd hdigits hne
      | cons c cs => simpa [hdigits] using hfront

/-- Noughts in front do not count. -/
theorem value_padded {width base n : Nat} (hbase : 1 < base) (hsixteen : base ≤ 16) :
    value base (padded width base n) = n := by
  have hnoughts (k : Nat) (ds : List Char) :
      value base (List.replicate k '0' ++ ds) = value base ds := by
    induction k with
    | zero => rfl
    | succ k ih =>
      rw [List.replicate_succ, List.cons_append, value_cons, ih]
      simp [show digit? '0' = some 0 from rfl]
  rw [padded, hnoughts, value_write hbase hsixteen]

theorem le_length_padded (width base n : Nat) : width ≤ (padded width base n).length := by
  simp only [padded, List.length_append, List.length_replicate]
  omega

theorem length_padded {width base n : Nat} (hbase : 1 < base) (hwidth : 0 < width)
    (h : n < base ^ width) : (padded width base n).length = width := by
  have hlength := (Nat.length_toDigits_le_iff hbase hwidth).mpr h
  simp only [padded, write, List.length_append, List.length_replicate]
  omega

theorem isDigit_of_mem_padded {width base n : Nat} (hbase : 1 < base) (hsixteen : base ≤ 16)
    {c : Char} (h : c ∈ padded width base n) : isDigit base c = true := by
  rcases List.mem_append.mp h with h | h
  · rw [List.eq_of_mem_replicate h, isDigit, show digit? '0' = some 0 from rfl]
    simp
    omega
  · exact isDigit_of_mem_write hbase hsixteen h

theorem value_paddedUpper {width base n : Nat} (hbase : 1 < base) (hsixteen : base ≤ 16) :
    value base (paddedUpper width base n) = n := by
  have hupper (cs : List Char) : value base (cs.map Char.toUpper) = value base cs := by
    induction cs with
    | nil => rfl
    | cons c cs ih =>
      rw [List.map_cons, value_cons, value_cons, digit?_toUpper, ih, List.length_map]
  rw [paddedUpper, hupper, value_padded hbase hsixteen]

theorem length_paddedUpper {width base n : Nat} (hbase : 1 < base) (hwidth : 0 < width)
    (h : n < base ^ width) : (paddedUpper width base n).length = width := by
  rw [paddedUpper, List.length_map, length_padded hbase hwidth h]

theorem isDigit_of_mem_paddedUpper {width base n : Nat} (hbase : 1 < base)
    (hsixteen : base ≤ 16) {c : Char} (h : c ∈ paddedUpper width base n) :
    isDigit base c = true := by
  obtain ⟨d, hd, rfl⟩ := List.mem_map.mp h
  have hdigit := isDigit_of_mem_padded hbase hsixteen hd
  rwa [isDigit, digit?_toUpper, ← isDigit]

end PatternDiagram.Numeral
