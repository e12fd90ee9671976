import PatternDiagram.Proofs.Doubles
import PatternDiagram.Proofs.Numerals
import PatternDiagram.Svg.Number

/-!
# The figures of a number

A number in a document is meant to be plain: perhaps a sign, one or more digits, and perhaps a point
with one or two digits behind it, the last of which is not a nought. Whether there is a point is
settled before the number is rounded, and the noughts are dropped afterwards:

* `Double.ofFloat_eq`: the sign, the whole number and the power of two that are read off the bits
  are those of the number;
* `roundHalfEven_near`, `roundHalfEven_eq_of_even`: the nearest whole number, a half to the even
  side;
* `Fixed.pointed_eq`, `Svg.value_dropNoughts`: what the digits denote, with a point and without
  noughts;
* `Svg.Figure`: a plain number;
* `Svg.number_plain_iff`: **a number is plain, and at most half a hundredth off, unless it lies
  beside a whole number**. There, and only there, its text ends in a point.
-/

namespace PatternDiagram

open Binary (Fraction fraction)

/-! ## 1. The number in the bits -/

namespace Double

open Float.Model (UnpackedFloat)
open Float.Model.UnpackedFloat (Sign)

/-- A number that has been taken apart. -/
def binary : UnpackedFloat → Binary
  | .notANumber => .nan
  | .infinity s => .infinite (s == .negative)
  | .zero s => .finite (s == .negative) 0 (-1074)
  | .finite s m e _ => .finite (s == .negative) m e

section

variable (b : BitVec 64)

theorem toNat_unpackExponent :
    (@UnpackedFloat.unpackExponent .binary64 b).toNat =
      b.toNat / 0x10000000000000 % 0x800 := by
  show (b.extractLsb 62 52).toNat = _
  rw [BitVec.extractLsb_toNat, Nat.shiftRight_eq_div_pow]

theorem toNat_unpackMantissa :
    (@UnpackedFloat.unpackMantissa .binary64 b).toNat = b.toNat % 0x10000000000000 := by
  show (b.extractLsb 51 0).toNat = _
  rw [BitVec.extractLsb_toNat, Nat.shiftRight_zero]

theorem ofBitVec_unpackSign :
    (Sign.ofBitVec (@UnpackedFloat.unpackSign .binary64 b) == .negative) =
      (b.toNat / 0x8000000000000000 == 1) := by
  have hbit : (@UnpackedFloat.unpackSign .binary64 b).toNat =
      b.toNat / 0x8000000000000000 := by
    show (b.extractLsb 63 63).toNat = _
    have hlt := b.isLt
    rw [BitVec.extractLsb_toNat, Nat.shiftRight_eq_div_pow]
    omega
  rw [← hbit]
  generalize @UnpackedFloat.unpackSign .binary64 b = s
  revert s
  decide

end

/-- The leading one bit. -/
theorem toNat_one_append (m : BitVec 52) : (1#1 ++ m).toNat = m.toNat + 0x10000000000000 := by
  rw [BitVec.toNat_append, ← Nat.shiftLeft_add_eq_or_of_lt m.isLt]
  simp only [BitVec.toNat_ofNat, Nat.shiftLeft_eq]
  omega

/-- **What is read off the bits is the number.** -/
theorem ofFloat_eq (x : Float) : Binary.ofFloat x = binary (parts x) := by
  have hbits : x.toBits.toNat = x.toModel.toBits.toBitVec.toNat := rfl
  unfold Binary.ofFloat parts Float.Model.unpack
  rw [hbits]
  generalize (x.toModel.toBits.toBitVec : BitVec 64) = b
  have hones : (@UnpackedFloat.unpackExponent .binary64 b).toNat = 2047 ↔
      @UnpackedFloat.unpackExponent .binary64 b = -1#11 := BitVec.toNat_inj (y := -1#11)
  have hleast : (@UnpackedFloat.unpackExponent .binary64 b).toNat = 0 ↔
      @UnpackedFloat.unpackExponent .binary64 b = 0#11 := BitVec.toNat_inj (y := 0#11)
  have hempty : (@UnpackedFloat.unpackMantissa .binary64 b).toNat = 0 ↔
      @UnpackedFloat.unpackMantissa .binary64 b = 0#52 := BitVec.toNat_inj (y := 0#52)
  rw [UnpackedFloat.unpack]
  dsimp only
  simp only [← toNat_unpackMantissa, ← toNat_unpackExponent, ← ofBitVec_unpackSign, hones, hleast,
    hempty]
  split
  · split <;> rfl
  · split
    · next hexponent =>
      split
      · next hrest =>
        rw [hrest]
        rfl
      · rw [hexponent]
        rfl
    · rw [binary, toNat_one_append]
      rfl

end Double

namespace Binary

/-- The quotient. -/
def Fraction.value (f : Fraction) : ℚ := f.num / f.den

theorem Fraction.value_nonneg (f : Fraction) : 0 ≤ f.value := by
  unfold Fraction.value
  positivity

theorem value_fraction (m : Nat) (q : Int) : (fraction m q).value = m * 2 ^ q := by
  unfold fraction Fraction.value
  split
  · next h =>
    obtain ⟨n, rfl⟩ := Int.eq_ofNat_of_zero_le h
    simp
  · next h =>
    obtain ⟨n, hn⟩ := Int.eq_ofNat_of_zero_le (show 0 ≤ -q by omega)
    obtain rfl : q = -(n : Int) := by omega
    simp [div_eq_mul_inv]

theorem value_scale (f : Fraction) (places : Nat) :
    (f.scale places).value = f.value * 10 ^ places := by
  simp only [Fraction.scale, Fraction.value, Nat.pow_eq, Nat.cast_mul, Nat.cast_pow, Nat.cast_ofNat]
  ring

/-- A magnitude with its sign. -/
def signed (negative : Bool) (v : ℚ) : ℚ := if negative then -v else v

theorem abs_signed_sub (negative : Bool) (v w : ℚ) :
    |signed negative v - signed negative w| = |v - w| := by
  cases negative
  · rfl
  · rw [signed, signed, if_pos rfl, if_pos rfl, neg_sub_neg, abs_sub_comm]

/-- The number itself. What is not finite counts as nought. -/
def value : Binary → ℚ
  | .finite negative m q => signed negative (m * 2 ^ q)
  | _ => 0

/-- **A finite number** is its sign and its magnitude. -/
theorem exists_finite {x : Float} (h : Coordinate.isFinite x = true) :
    ∃ negative m q, ofFloat x = .finite negative m q ∧
      (ofFloat x).value = signed negative (fraction m q).value := by
  rw [Double.isFinite_iff] at h
  rw [Double.ofFloat_eq]
  cases hparts : Double.parts x with
  | notANumber => simp [hparts] at h
  | infinity s => simp [hparts] at h
  | zero s => exact ⟨s == .negative, 0, -1074, rfl, by rw [value_fraction]; rfl⟩
  | finite s m e hm => exact ⟨s == .negative, m, e, rfl, by rw [value_fraction]; rfl⟩

end Binary

/-! ## 2. The nearest whole number -/

section

variable {f : Fraction} {n : Nat}

/-- At most half a unit away, without a division. -/
theorem near_iff (hden : 0 < f.den) : |(n : ℚ) - f.value| ≤ 1 / 2 ↔
    2 * (n * f.den) ≤ 2 * f.num + f.den ∧ 2 * f.num ≤ 2 * (n * f.den) + f.den := by
  have hpos : (0 : ℚ) < f.den := by exact_mod_cast hden
  have hvalue : f.value * f.den = f.num := div_mul_cancel₀ _ hpos.ne'
  have hscaled : |(n : ℚ) - f.value| ≤ 1 / 2 ↔ |(n : ℚ) * f.den - f.num| ≤ 1 / 2 * f.den := by
    rw [← hvalue, ← sub_mul, abs_mul, abs_of_pos hpos]
    exact (mul_le_mul_iff_left₀ hpos).symm
  rw [hscaled, abs_le]
  constructor
  · rintro ⟨hbelow, habove⟩
    constructor
    · have h : 2 * ((n : ℚ) * f.den) ≤ 2 * f.num + f.den := by linarith
      exact_mod_cast h
    · have h : 2 * (f.num : ℚ) ≤ 2 * (n * f.den) + f.den := by linarith
      exact_mod_cast h
  · rintro ⟨habove, hbelow⟩
    have habove' : 2 * ((n : ℚ) * f.den) ≤ 2 * f.num + f.den := by exact_mod_cast habove
    have hbelow' : 2 * (f.num : ℚ) ≤ 2 * (n * f.den) + f.den := by exact_mod_cast hbelow
    constructor <;> linarith

theorem roundHalfEven_near (hden : 0 < f.den) : |(roundHalfEven f : ℚ) - f.value| ≤ 1 / 2 :=
  (near_iff hden).mpr (roundHalfEven_error f hden)

/-- **An even number at most half a unit away is the nearest one**, or the one of two that is
    chosen. -/
theorem roundHalfEven_eq_of_even (hden : 0 < f.den) (heven : n % 2 = 0)
    (hnear : |(n : ℚ) - f.value| ≤ 1 / 2) : roundHalfEven f = n := by
  obtain ⟨habove, hbelow⟩ := (near_iff hden).mp hnear
  have hdiv := Nat.div_add_mod f.num f.den
  have hrest := Nat.mod_lt f.num hden
  rw [Nat.mul_comm] at hdiv
  -- It is the whole number below the quotient, or the next one.
  have hlow : f.num / f.den ≤ n := by
    by_contra hlt
    have := Nat.mul_le_mul_right f.den (Nat.succ_le_of_lt (not_le.mp hlt))
    rw [Nat.succ_mul] at this
    omega
  have hhigh : n ≤ f.num / f.den + 1 := by
    by_contra hlt
    have := Nat.mul_le_mul_right f.den (Nat.succ_le_of_lt (not_le.mp hlt))
    rw [Nat.succ_mul, Nat.succ_mul] at this
    omega
  have hcases : n = f.num / f.den ∨ n = f.num / f.den + 1 := by omega
  unfold roundHalfEven
  dsimp only
  rcases hcases with hn | hn
  · rw [← hn] at hdiv ⊢
    split_ifs <;> omega
  · rw [hn, Nat.succ_mul (f.num / f.den)] at habove hbelow
    split_ifs <;> omega

theorem isWhole_iff (hden : 0 < f.den) : f.isWhole = true ↔ ∃ k : Nat, f.value = k := by
  have hpos : (f.den : ℚ) ≠ 0 := by exact_mod_cast hden.ne'
  rw [Fraction.isWhole, beq_iff_eq, ← Nat.dvd_iff_mod_eq_zero]
  constructor
  · rintro ⟨k, hk⟩
    exact ⟨k, by rw [Fraction.value, hk, Nat.cast_mul, mul_div_cancel_left₀ _ hpos]⟩
  · rintro ⟨k, hk⟩
    rw [Fraction.value, div_eq_iff hpos] at hk
    exact ⟨k, by rw [Nat.mul_comm]; exact_mod_cast hk⟩

theorem cast_roundHalfEven (h : f.isWhole = true) (hden : 0 < f.den) :
    (roundHalfEven f : ℚ) = f.value := by
  have hdvd : f.den ∣ f.num := Nat.dvd_of_mod_eq_zero (beq_iff_eq.mp h)
  rw [roundHalfEven_of_isWhole h hden, Fraction.value,
    Nat.cast_div hdvd (by exact_mod_cast hden.ne')]

end

namespace Svg

/-- **The number lies beside a whole number**: at most half a hundredth away, but not on it. -/
def BesideWhole (v : ℚ) : Prop := ∃ k : ℤ, v ≠ k ∧ |v - k| ≤ 1 / 200

theorem besideWhole_neg {v : ℚ} (h : BesideWhole v) : BesideWhole (-v) := by
  obtain ⟨k, hne, hle⟩ := h
  refine ⟨-k, fun heq => hne ?_, ?_⟩
  · rwa [Int.cast_neg, neg_inj] at heq
  · rw [Int.cast_neg, neg_sub_neg, abs_sub_comm]
    exact hle

theorem besideWhole_signed (negative : Bool) (v : ℚ) :
    BesideWhole (Binary.signed negative v) ↔ BesideWhole v := by
  cases negative
  · rfl
  · refine ⟨fun h => ?_, besideWhole_neg⟩
    have := besideWhole_neg h
    rwa [Binary.signed, if_pos rfl, neg_neg] at this

/-- Such a number is no whole number, but its hundredths are rounded to one. -/
theorem besideWhole_iff {f : Fraction} (hden : 0 < f.den) :
    BesideWhole f.value ↔ f.isWhole = false ∧ 100 ∣ roundHalfEven (f.scale 2) := by
  rw [← Bool.not_eq_true, isWhole_iff hden]
  constructor
  · rintro ⟨k, hne, hle⟩
    obtain ⟨hbelow, habove⟩ := abs_le.mp hle
    -- A magnitude is beside no number below nought.
    have hnonneg : 0 ≤ k := by
      have hv := f.value_nonneg
      have : (-1 : ℚ) < k := by linarith
      have : -1 < k := by exact_mod_cast this
      omega
    obtain ⟨n, rfl⟩ := Int.eq_ofNat_of_zero_le hnonneg
    rw [Int.cast_natCast] at hne hbelow habove
    constructor
    · rintro ⟨m, hm⟩
      rw [hm] at hne hbelow habove
      have hlow : (m : ℚ) < n + 1 := by linarith
      have hhigh : (n : ℚ) < m + 1 := by linarith
      have hlow' : m < n + 1 := by exact_mod_cast hlow
      have hhigh' : n < m + 1 := by exact_mod_cast hhigh
      exact hne (by rw [show m = n by omega])
    · have hnear : |((100 * n : Nat) : ℚ) - (f.scale 2).value| ≤ 1 / 2 := by
        rw [Binary.value_scale, abs_le]
        push_cast
        constructor <;> linarith
      exact ⟨n, roundHalfEven_eq_of_even hden (by omega) hnear⟩
  · rintro ⟨hwhole, n, hn⟩
    have hnear := roundHalfEven_near (f := f.scale 2) hden
    rw [hn, Binary.value_scale, abs_le] at hnear
    push_cast at hnear
    refine ⟨n, fun heq => hwhole ⟨n, heq⟩, abs_le.mpr ?_⟩
    rw [Int.cast_natCast]
    constructor <;> linarith [hnear.1, hnear.2]

end Svg

/-! ## 3. Points and noughts -/

namespace Fixed

/-- **A point divides the digits**: the last ones are behind it, and at least one is in front. -/
theorem pointed_eq {places : Nat} (hplaces : places ≠ 0) (n : Nat) :
    ∃ front back, pointed places n = front ++ '.' :: back ∧ front ≠ [] ∧ back.length = places ∧
      (∀ c ∈ front ++ back, Numeral.isDigit 10 c = true) ∧
      Numeral.value 10 front = n / 10 ^ places ∧ Numeral.value 10 back = n % 10 ^ places := by
  have hlength := Numeral.le_length_padded (places + 1) 10 n
  have hvalue : Numeral.value 10 (Numeral.padded (places + 1) 10 n) = n :=
    Numeral.value_padded (by omega) (by omega)
  have hdigits : ∀ c ∈ Numeral.padded (places + 1) 10 n, Numeral.isDigit 10 c = true :=
    fun c hc => Numeral.isDigit_of_mem_padded (by omega) (by omega) hc
  rw [pointed, if_neg hplaces]
  generalize Numeral.padded (places + 1) 10 n = digits at hlength hvalue hdigits
  have hback : (digits.drop (digits.length - places)).length = places := by
    rw [List.length_drop]
    omega
  have hsmall : Numeral.value 10 (digits.drop (digits.length - places)) < 10 ^ places := by
    have hlt := Numeral.value_lt_pow fun c (hc : c ∈ digits.drop (digits.length - places)) =>
      Numeral.getD_digit?_lt_of_isDigit (hdigits c (List.mem_of_mem_drop hc))
    rwa [hback] at hlt
  rw [← List.take_append_drop (digits.length - places) digits, Numeral.value_append,
    hback] at hvalue
  refine ⟨_, _, rfl, ?_, hback, ?_, ?_, ?_⟩
  · rw [Ne, ← List.length_eq_zero_iff, List.length_take]
    omega
  · rwa [List.take_append_drop]
  · rw [← hvalue, Nat.mul_comm, Nat.mul_add_div (by positivity), Nat.div_eq_of_lt hsmall,
      Nat.add_zero]
  · rw [← hvalue, Nat.mul_comm, Nat.mul_add_mod, Nat.mod_eq_of_lt hsmall]

end Fixed

namespace Svg

theorem dropNoughts_append_singleton (cs : List Char) (c : Char) :
    dropNoughts (cs ++ [c]) = if c = '0' then dropNoughts cs else cs ++ [c] := by
  show List.rdropWhile (· == '0') (cs ++ [c]) =
    if c = '0' then List.rdropWhile (· == '0') cs else cs ++ [c]
  simp [List.rdropWhile_concat]

/-- Nothing in front of the point is dropped. -/
theorem dropNoughts_point (front back : List Char) :
    dropNoughts (front ++ '.' :: back) = front ++ '.' :: dropNoughts back := by
  induction back using List.reverseRecOn with
  | nil => exact dropNoughts_append_singleton front '.'
  | append_singleton back c ih =>
    rw [← List.cons_append, ← List.append_assoc, dropNoughts_append_singleton,
      dropNoughts_append_singleton, ih]
    split
    · rfl
    · simp

theorem dropNoughts_prefix (cs : List Char) : (dropNoughts cs).IsPrefix cs :=
  List.rdropWhile_prefix _ cs

theorem getLast?_dropNoughts_ne (cs : List Char) : (dropNoughts cs).getLast? ≠ some '0' := by
  induction cs using List.reverseRecOn with
  | nil => simp [dropNoughts]
  | append_singleton cs c ih =>
    rw [dropNoughts_append_singleton]
    split
    · exact ih
    · next hc => simpa using hc

/-- **Noughts behind the point do not count.** -/
theorem value_dropNoughts (cs : List Char) :
    (Numeral.value 10 (dropNoughts cs) : ℚ) / 10 ^ (dropNoughts cs).length =
      Numeral.value 10 cs / 10 ^ cs.length := by
  induction cs using List.reverseRecOn with
  | nil => rfl
  | append_singleton cs c ih =>
    rw [dropNoughts_append_singleton]
    split
    · next hc =>
      have hnought : (Numeral.digit? '0').getD 0 = 0 := rfl
      rw [ih, hc, Numeral.value_append_singleton, hnought, List.length_append,
        List.length_singleton, pow_succ, Nat.add_zero, Nat.cast_mul, Nat.cast_ofNat]
      exact (mul_div_mul_right _ _ (by norm_num)).symm
    · rfl

/-- Nothing is left of noughts only. -/
theorem dropNoughts_eq_nil_iff {cs : List Char} (h : ∀ c ∈ cs, Numeral.isDigit 10 c = true) :
    dropNoughts cs = [] ↔ Numeral.value 10 cs = 0 := by
  induction cs using List.reverseRecOn with
  | nil => exact iff_of_true rfl rfl
  | append_singleton cs c ih =>
    obtain ⟨hcs, hc⟩ := List.forall_mem_append.mp h
    have hnought := Numeral.getD_digit?_eq_zero (hc c (List.mem_singleton_self c))
    rw [dropNoughts_append_singleton, Numeral.value_append_singleton]
    split
    · next heq =>
      rw [ih hcs, hnought.mpr heq]
      omega
    · next hne =>
      have hpos := mt hnought.mp hne
      refine iff_of_false (by simp) ?_
      omega

/-! ## 4. Plain numbers -/

/-- **A plain number**: perhaps a sign, one or more digits, and perhaps a point with one or two
    digits behind it, the last of which is not a nought. -/
structure Figure where
  negative : Bool
  whole : List Char
  places : List Char
  whole_ne_nil : whole ≠ []
  isDigit_whole : ∀ c ∈ whole, c.isDigit = true
  isDigit_places : ∀ c ∈ places, c.isDigit = true
  length_places : places.length ≤ 2
  getLast?_places : places.getLast? ≠ some '0'

namespace Figure

/-- The text of a plain number. There is no point without a digit behind it. -/
def text (g : Figure) : List Char :=
  (if g.negative then ['-'] else []) ++ (g.whole ++ if g.places = [] then [] else '.' :: g.places)

/-- The number that a text denotes. -/
def value (g : Figure) : ℚ :=
  Binary.signed g.negative
    (Numeral.value 10 g.whole + Numeral.value 10 g.places / 10 ^ g.places.length)

/-- **No plain number ends in a point.** -/
theorem getLast?_text_ne (g : Figure) : g.text.getLast? ≠ some '.' := by
  intro h
  have hpoint {cs : List Char} (hcs : ∀ c ∈ cs, c.isDigit = true) : cs.getLast? ≠ some '.' :=
    fun hlast => absurd (hcs '.' (List.mem_of_getLast? hlast)) (by decide)
  rw [text] at h
  by_cases hplaces : g.places = []
  · rw [if_pos hplaces, List.append_nil, List.getLast?_append_of_ne_nil _ g.whole_ne_nil] at h
    exact hpoint g.isDigit_whole h
  · rw [if_neg hplaces, ← List.append_assoc,
      List.getLast?_append_of_ne_nil _ (List.cons_ne_nil _ _),
      List.getLast?_cons_of_ne_nil hplaces] at h
    exact hpoint g.isDigit_places h

end Figure

theorem magnitude_of_isWhole {f : Fraction} (hden : 0 < f.den) (h : f.isWhole = true) :
    magnitude f ≠ [] ∧ (∀ c ∈ magnitude f, c.isDigit = true) ∧
      (Numeral.value 10 (magnitude f) : ℚ) = f.value := by
  have hscale : f.scale 0 = f := by simp [Fraction.scale]
  have htext : magnitude f = Numeral.padded 1 10 (roundHalfEven f) := by
    simp [magnitude, h, Fixed.write, Fixed.pointed, hscale]
  rw [htext]
  refine ⟨fun hnil => ?_, fun c hc => ?_, ?_⟩
  · have := Numeral.le_length_padded 1 10 (roundHalfEven f)
    simp [hnil] at this
  · exact Numeral.char_isDigit (Nat.le_refl 10)
      (Numeral.isDigit_of_mem_padded (by omega) (by omega) hc)
  · rw [Numeral.value_padded (by omega) (by omega), cast_roundHalfEven h hden]

theorem magnitude_of_not_isWhole {f : Fraction} (h : f.isWhole = false) :
    ∃ front back, magnitude f = front ++ '.' :: dropNoughts back ∧ front ≠ [] ∧ back.length = 2 ∧
      (∀ c ∈ front ++ back, Numeral.isDigit 10 c = true) ∧
      Numeral.value 10 front = roundHalfEven (f.scale 2) / 100 ∧
      Numeral.value 10 back = roundHalfEven (f.scale 2) % 100 := by
  obtain ⟨front, back, htext, hparts⟩ := Fixed.pointed_eq two_ne_zero (roundHalfEven (f.scale 2))
  refine ⟨front, back, ?_, hparts⟩
  rw [magnitude, h, if_neg Bool.false_ne_true, Fixed.write, htext, dropNoughts_point]

/-- Beside a whole number the point is left behind. -/
theorem getLast?_magnitude {f : Fraction} (hden : 0 < f.den) (h : BesideWhole f.value) :
    (magnitude f).getLast? = some '.' := by
  obtain ⟨hwhole, hhundred⟩ := (besideWhole_iff hden).mp h
  obtain ⟨front, back, htext, -, -, hdigits, -, hback⟩ := magnitude_of_not_isWhole hwhole
  have hnil : dropNoughts back = [] := by
    rw [dropNoughts_eq_nil_iff (List.forall_mem_append.mp hdigits).2, hback]
    exact Nat.mod_eq_zero_of_dvd hhundred
  rw [htext, hnil, List.getLast?_concat]

/-- Anywhere else it is a plain number. -/
theorem exists_figure (negative : Bool) {f : Fraction} (hden : 0 < f.den)
    (h : ¬ BesideWhole f.value) :
    ∃ g : Figure, g.text = (if negative then ['-'] else []) ++ magnitude f ∧
      |g.value - Binary.signed negative f.value| ≤ 1 / 200 := by
  cases hwhole : f.isWhole with
  | true =>
    obtain ⟨hne, hdigits, hvalue⟩ := magnitude_of_isWhole hden hwhole
    refine ⟨⟨negative, magnitude f, [], hne, hdigits, List.forall_mem_nil _, by simp, by simp⟩,
      by simp [Figure.text], ?_⟩
    simp [Figure.value, hvalue]
  | false =>
    obtain ⟨front, back, htext, hne, hlength, hdigits, hfront, hback⟩ :=
      magnitude_of_not_isWhole hwhole
    obtain ⟨hdfront, hdback⟩ := List.forall_mem_append.mp hdigits
    have hsome : dropNoughts back ≠ [] := by
      rw [Ne, dropNoughts_eq_nil_iff hdback, hback, ← Nat.dvd_iff_mod_eq_zero]
      exact fun hhundred => h ((besideWhole_iff hden).mpr ⟨hwhole, hhundred⟩)
    have hkept := dropNoughts_prefix back
    refine ⟨⟨negative, front, dropNoughts back, hne,
      fun c hc => Numeral.char_isDigit (Nat.le_refl 10) (hdfront c hc),
      fun c hc => Numeral.char_isDigit (Nat.le_refl 10) (hdback c (hkept.mem hc)),
      hlength ▸ hkept.length_le, getLast?_dropNoughts_ne back⟩, ?_, ?_⟩
    · simp [Figure.text, hsome, htext]
    · have hdivision : (roundHalfEven (f.scale 2) : ℚ) =
          100 * (roundHalfEven (f.scale 2) / 100 : Nat) +
            (roundHalfEven (f.scale 2) % 100 : Nat) := by
        exact_mod_cast (Nat.div_add_mod _ _).symm
      have hplaces : (Numeral.value 10 (dropNoughts back) : ℚ) / 10 ^ (dropNoughts back).length =
          (roundHalfEven (f.scale 2) % 100 : Nat) / 100 := by
        rw [value_dropNoughts, hlength, hback]
        norm_num
      have hnear := roundHalfEven_near (f := f.scale 2) hden
      rw [Binary.value_scale, hdivision, abs_le] at hnear
      rw [Figure.value, Binary.abs_signed_sub, hfront, hplaces, abs_le]
      constructor <;> linarith [hnear.1, hnear.2]

/-- **A finite number is written as a plain number, at most half a hundredth off, just where it does
    not lie beside a whole number.** Where it does, and only there, its text ends in a point. -/
theorem number_plain_iff {x : Float} (hx : Coordinate.isFinite x = true) :
    ((∃ g : Figure, g.text = number x ∧ |g.value - (Binary.ofFloat x).value| ≤ 1 / 200) ↔
      ¬ BesideWhole (Binary.ofFloat x).value) ∧
    ((number x).getLast? = some '.' ↔ BesideWhole (Binary.ofFloat x).value) := by
  obtain ⟨negative, m, q, hfinite, hvalue⟩ := Binary.exists_finite hx
  have hden := Binary.fraction_den_pos m q
  have htext : number x = (if negative then ['-'] else []) ++ magnitude (fraction m q) := by
    rw [number, hfinite]
  rw [hvalue, htext, besideWhole_signed]
  have hpoint (h : BesideWhole (fraction m q).value) :
      ((if negative then ['-'] else []) ++ magnitude (fraction m q)).getLast? = some '.' := by
    have hlast := getLast?_magnitude hden h
    rw [List.getLast?_append, hlast]
    rfl
  refine ⟨⟨?_, exists_figure negative hden⟩, fun hlast => ?_, hpoint⟩
  · rintro ⟨g, hg, -⟩ h
    exact g.getLast?_text_ne (hg ▸ hpoint h)
  · by_contra h
    obtain ⟨g, hg, -⟩ := exists_figure negative hden h
    exact g.getLast?_text_ne (hg ▸ hlast)

/-- Sixteen and a fifth. -/
theorem number_plain_iff_of_fifth :
    Coordinate.isFinite (16.2 : Float) = true ∧ number 16.2 = ['1', '6', '.', '2'] ∧
      ∃ g : Figure, g.text = number 16.2 ∧ |g.value - (Binary.ofFloat 16.2).value| ≤ 1 / 200 := by
  have hfinite : Coordinate.isFinite (16.2 : Float) = true := by decide
  have htext : number 16.2 = ['1', '6', '.', '2'] := by decide
  obtain ⟨hplain, hlast⟩ := number_plain_iff hfinite
  refine ⟨hfinite, htext, hplain.mpr fun h => ?_⟩
  have := hlast.mpr h
  rw [htext] at this
  exact absurd this (by decide)

/-- **A thousandth above one**: the text is one and a point. -/
theorem number_above_one :
    Coordinate.isFinite (1.001 : Float) = true ∧ number 1.001 = ['1', '.'] ∧
      ¬ ∃ g : Figure, g.text = number 1.001 := by
  have htext : number 1.001 = ['1', '.'] := by decide
  refine ⟨by decide, htext, fun ⟨g, hg⟩ => g.getLast?_text_ne ?_⟩
  rw [hg, htext]
  rfl

end Svg

end PatternDiagram
