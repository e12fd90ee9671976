import PatternDiagram.Pattern.Ranges
import PatternDiagram.Proofs.Tokens
import PatternDiagram.Text.Blank
import PatternDiagram.Text.Letter

/-!
# What a class covers

The ranges of a class stand in one list, item by item. Those of three escapes are the gaps in the
table of another one, and what is said of gaps holds whatever the table is.

* `AscendingFrom`, `Ascending`: ranges that follow one another without overlapping;
* `AscendingFrom.gaps`: so do the gaps between them;
* `inRanges_complement_iff`: **a code point lies in a gap if it lies in no range**;
* `EscapeClass.ascending_ranges`, `EscapeClass.inRanges_ranges_iff`: the ranges of an escape ascend,
  and they are its set;
* `EscapeClass.opposite`, `EscapeClass.holds_digit_iff` and the others behind it: what these sets
  are;
* `CharacterClass.ranges_cover`: **the ranges of a class hold the code points that its items
  cover**.
-/

namespace PatternDiagram

/-! ## 1. Ranges that follow one another -/

/-- None of the ranges is empty, the first does not begin before `next`, and each of the others
    begins behind the end of the one before it. -/
def AscendingFrom : Nat → List CodeRange → Prop
  | _, [] => True
  | next, r :: rs => next ≤ r.1 ∧ r.1 ≤ r.2 ∧ AscendingFrom (r.2 + 1) rs

instance decidableAscendingFrom :
    ∀ (next : Nat) (rs : List CodeRange), Decidable (AscendingFrom next rs)
  | _, [] => isTrue trivial
  | next, r :: rs =>
      have : Decidable (AscendingFrom (r.2 + 1) rs) := decidableAscendingFrom (r.2 + 1) rs
      inferInstanceAs (Decidable (next ≤ r.1 ∧ r.1 ≤ r.2 ∧ AscendingFrom (r.2 + 1) rs))

/-- Ranges of code points that follow one another. -/
structure Ascending (rs : List CodeRange) : Prop where
  follow : AscendingFrom 0 rs
  within : ∀ r ∈ rs, r.2 ≤ lastCode

namespace AscendingFrom

variable {next c : Nat} {r : CodeRange} {rs : List CodeRange}

theorem mono {earlier : Nat} (h : AscendingFrom next rs) (hle : earlier ≤ next) :
    AscendingFrom earlier rs := by
  cases rs with
  | nil => trivial
  | cons r rs =>
    obtain ⟨hnext, hrest⟩ := h
    exact ⟨Nat.le_trans hle hnext, hrest⟩

theorem bounds_of_mem (h : AscendingFrom next rs) (hr : r ∈ rs) : next ≤ r.1 ∧ r.1 ≤ r.2 := by
  induction rs generalizing next with
  | nil => cases hr
  | cons first rs ih =>
    obtain ⟨hnext, hfirst, hrest⟩ := h
    rcases List.mem_cons.mp hr with rfl | hr
    · exact ⟨hnext, hfirst⟩
    · have hbounds := ih hrest hr
      omega

theorem le_of_inRanges (h : AscendingFrom next rs) (hc : InRanges rs c) : next ≤ c := by
  obtain ⟨r, hr, hlow, -⟩ := hc
  exact Nat.le_trans (h.bounds_of_mem hr).1 hlow

theorem pairwise (h : AscendingFrom next rs) : rs.Pairwise fun r s => r.2 < s.1 := by
  induction rs generalizing next with
  | nil => exact .nil
  | cons r rs ih =>
    obtain ⟨-, -, hrest⟩ := h
    exact .cons (fun s hs => (hrest.bounds_of_mem hs).1) (ih hrest)

end AscendingFrom

/-! ## 2. Gaps -/

section Gaps

variable {next c : Nat} {rs : List CodeRange}

/-- **Gaps follow one another** as the ranges do. That there is something left for the last of them
    is due to the ranges, which end before the last code point. -/
theorem AscendingFrom.gaps (h : AscendingFrom next rs) (hnext : next ≤ lastCode)
    (hlast : ∀ r ∈ rs, r.2 < lastCode) : AscendingFrom next (complementFrom next rs) := by
  induction rs generalizing next with
  | nil => exact ⟨Nat.le_refl next, hnext, trivial⟩
  | cons r rs ih =>
    obtain ⟨lo, hi⟩ := r
    obtain ⟨hlo : next ≤ lo, hhi : lo ≤ hi, hrest⟩ := h
    obtain ⟨hend, hlast⟩ := List.forall_mem_cons.mp hlast
    have hbehind : AscendingFrom (hi + 1) (complementFrom (hi + 1) rs) := ih hrest hend hlast
    rw [complementFrom]
    split
    · rename_i hgap
      have hnonempty : next ≤ lo - 1 := by omega
      exact ⟨Nat.le_refl next, hnonempty, hbehind.mono (show lo - 1 + 1 ≤ hi + 1 by omega)⟩
    · exact hbehind.mono (by omega)

-- Behind a range that ends with the last code point stands an empty one, which begins beyond it.
example : complement [(0, lastCode)] = [(lastCode + 1, lastCode)] := by decide

theorem inRanges_complementFrom_iff (h : AscendingFrom next rs) (hlast : ∀ r ∈ rs, r.2 < lastCode) :
    InRanges (complementFrom next rs) c ↔ next ≤ c ∧ c ≤ lastCode ∧ ¬ InRanges rs c := by
  induction rs generalizing next with
  | nil => simp [complementFrom]
  | cons r rs ih =>
    obtain ⟨lo, hi⟩ := r
    obtain ⟨hlo : next ≤ lo, hhi : lo ≤ hi, hrest⟩ := h
    obtain ⟨hend : hi < lastCode, hlast⟩ := List.forall_mem_cons.mp hlast
    -- No later range reaches into the gap in front of this one.
    have hbehind : InRanges rs c → hi + 1 ≤ c := hrest.le_of_inRanges
    rw [complementFrom]
    split
    · rw [inRanges_cons, inRanges_cons, ih hrest hlast]
      grind
    · rw [inRanges_cons, ih hrest hlast]
      grind

/-- **A code point lies in a gap if it lies in no range.** -/
theorem inRanges_complement_iff (h : AscendingFrom 0 rs) (hlast : ∀ r ∈ rs, r.2 < lastCode) :
    InRanges (complement rs) c ↔ c ≤ lastCode ∧ ¬ InRanges rs c := by
  rw [complement, inRanges_complementFrom_iff h hlast]
  simp

theorem ascending_complement (h : AscendingFrom 0 rs) (hlast : ∀ r ∈ rs, r.2 < lastCode) :
    Ascending (complement rs) := by
  have hfollow : AscendingFrom 0 (complement rs) := h.gaps (Nat.zero_le lastCode) hlast
  refine ⟨hfollow, fun gap hgap => ?_⟩
  -- A gap is not empty, so its end lies in it.
  have hend : InRanges (complement rs) gap.2 :=
    ⟨gap, hgap, (hfollow.bounds_of_mem hgap).2, Nat.le_refl gap.2⟩
  exact ((inRanges_complement_iff h hlast).mp hend).1

end Gaps

/-! ## 3. Escapes -/

namespace EscapeClass

/-- The escape with the other case of its letter. -/
def opposite : EscapeClass → EscapeClass
  | .digit => .nonDigit
  | .nonDigit => .digit
  | .word => .nonWord
  | .nonWord => .word
  | .whitespace => .nonWhitespace
  | .nonWhitespace => .whitespace

theorem holds_opposite_iff (e : EscapeClass) (c : Nat) : e.opposite.Holds c ↔ ¬ e.Holds c := by
  cases e <;> simp [opposite, Holds]

theorem holds_digit_iff (c : Char) : digit.Holds c.toNat ↔ c.isDigit = true := by
  rw [Char.isDigit_iff_toNat]
  simp [Holds, digitRanges]

theorem holds_word_iff (c : Char) : word.Holds c.toNat ↔ c.isAlphanum = true ∨ c = '_' := by
  have hlow : c = '_' ↔ c.toNat = 0x5F := by rw [← Char.toNat_inj]; rfl
  rw [isAlphanum_iff_toNat, hlow]
  simp only [Holds, wordRanges, inRanges_cons, inRanges_nil, or_false]
  omega

/-- **White space is what is blank, but for two characters**: the next line control is none, and the
    byte order mark is one. -/
theorem holds_whitespace_iff (c : Char) :
    whitespace.Holds c.toNat ↔ isBlank c = true ∧ c ≠ '\x85' ∨ c = '\uFEFF' := by
  have hnext : c = '\x85' ↔ c.toNat = 0x85 := by rw [← Char.toNat_inj]; rfl
  have hmark : c = '\uFEFF' ↔ c.toNat = 0xFEFF := by rw [← Char.toNat_inj]; rfl
  rw [ne_eq, hnext, hmark, isBlank, inRanges_iff]
  simp only [Holds, spaceRanges, blankRanges, inRanges_cons, inRanges_nil, or_false]
  omega

/-- **The ranges of an escape ascend**, whether they are a table or the gaps in one. -/
theorem ascending_ranges (e : EscapeClass) : Ascending e.ranges := by
  cases e with
  | digit => exact ⟨by decide, by decide⟩
  | word => exact ⟨by decide, by decide⟩
  | whitespace => exact ⟨by decide, by decide⟩
  | nonDigit => exact ascending_complement (by decide) (by decide)
  | nonWord => exact ascending_complement (by decide) (by decide)
  | nonWhitespace => exact ascending_complement (by decide) (by decide)

/-- **The ranges of an escape are its set**, as far as there are code points. -/
theorem inRanges_ranges_iff {c : Nat} (e : EscapeClass) (hc : c ≤ lastCode) :
    InRanges e.ranges c ↔ e.Holds c := by
  have hgaps {rs : List CodeRange} (h : AscendingFrom 0 rs) (hlast : ∀ r ∈ rs, r.2 < lastCode) :
      InRanges (complement rs) c ↔ ¬ InRanges rs c :=
    (inRanges_complement_iff h hlast).trans (and_iff_right hc)
  cases e with
  | digit => rfl
  | word => rfl
  | whitespace => rfl
  | nonDigit => exact hgaps (by decide) (by decide)
  | nonWord => exact hgaps (by decide) (by decide)
  | nonWhitespace => exact hgaps (by decide) (by decide)

end EscapeClass

/-! ## 4. Items -/

theorem toNat_le_lastCode (c : Char) : c.toNat ≤ lastCode := by
  have hvalid : c.toNat.isValidChar := c.valid
  unfold Nat.isValidChar at hvalid
  unfold lastCode
  omega

namespace ClassItem

theorem inRanges_ranges_iff {c : Nat} (item : ClassItem) (hc : c ≤ lastCode) :
    InRanges item.ranges c ↔ item.Covers c := by
  cases item with
  | char d =>
    simp only [ranges, Covers, inRanges_cons, inRanges_nil, or_false]
    omega
  | range lo hi => simp [ranges, Covers]
  | escape e => exact e.inRanges_ranges_iff hc

theorem bounds_of_mem_ranges {item : ClassItem} {r : CodeRange} (h : item.Proper)
    (hr : r ∈ item.ranges) : r.1 ≤ r.2 ∧ r.2 ≤ lastCode := by
  cases item with
  | char d =>
    rw [List.mem_singleton.mp hr]
    exact ⟨Nat.le_refl _, toNat_le_lastCode d⟩
  | range lo hi =>
    rw [List.mem_singleton.mp hr]
    exact ⟨h, toNat_le_lastCode hi⟩
  | escape e =>
    have hascending := e.ascending_ranges
    exact ⟨(hascending.follow.bounds_of_mem hr).2, hascending.within r hr⟩

end ClassItem

/-! ## 5. Classes -/

namespace CharacterClass

/-- **The ranges of a class, if the ranges among its items are in order.** A code point lies in one
    of them if and only if some item covers it, which an escape does if its set holds the code
    point. None of them is empty, and none goes on behind the last code point; those of an escape
    stand side by side, ascending and apart from each other. A negative set holds what the positive
    one does not, and the positive ones are the digits, the letters and digits with the low line,
    and the blanks but for two characters. -/
theorem ranges_cover {cls : CharacterClass} (h : cls.Proper) :
    (∀ c ≤ lastCode, InRanges cls.ranges c ↔ ∃ item ∈ cls.items, item.Covers c) ∧
    (∀ r ∈ cls.ranges, r.1 ≤ r.2 ∧ r.2 ≤ lastCode) ∧
    (∀ e, .escape e ∈ cls.items →
      e.ranges <:+: cls.ranges ∧ e.ranges.Pairwise fun r s => r.2 < s.1) ∧
    (∀ (e : EscapeClass) (c : Nat), e.opposite.Holds c ↔ ¬ e.Holds c) ∧
    ∀ c : Char, (EscapeClass.digit.Holds c.toNat ↔ c.isDigit = true) ∧
      (EscapeClass.word.Holds c.toNat ↔ c.isAlphanum = true ∨ c = '_') ∧
      (EscapeClass.whitespace.Holds c.toNat ↔ isBlank c = true ∧ c ≠ '\x85' ∨ c = '\uFEFF') := by
  refine ⟨?_, ?_, ?_, EscapeClass.holds_opposite_iff, ?_⟩
  · intro c hc
    rw [ranges, inRanges_flatMap]
    exact exists_congr fun item => and_congr_right fun _ => item.inRanges_ranges_iff hc
  · intro r hr
    obtain ⟨item, hitem, hr⟩ := List.mem_flatMap.mp hr
    exact ClassItem.bounds_of_mem_ranges (h item hitem) hr
  · intro e he
    exact ⟨List.infix_of_mem_flatten (List.mem_map_of_mem he), e.ascending_ranges.follow.pairwise⟩
  · intro c
    exact ⟨EscapeClass.holds_digit_iff c, EscapeClass.holds_word_iff c,
      EscapeClass.holds_whitespace_iff c⟩

/-- A range across the code points that are no characters, the gaps in the table of word characters,
    and a character that stands in one of these gaps. -/
theorem ranges_cover_of_nonWord :
    let cls : CharacterClass :=
      ⟨true, [.range '\uD7FF' '\uE000', .escape .nonWord, .range 'a' 'a', .char '`']⟩
    cls.Proper ∧
      cls.ranges = [(0xD7FF, 0xE000), (0, 0x2F), (0x3A, 0x40), (0x5B, 0x5E), (0x60, 0x60),
        (0x7B, 0x10FFFF), (0x61, 0x61), (0x60, 0x60)] ∧
      (∃ item ∈ cls.items, item.Covers 0xD800) ∧ (¬ ∃ item ∈ cls.items, item.Covers 0x62) ∧
      (∀ r ∈ cls.ranges, r.1 ≤ r.2 ∧ r.2 ≤ lastCode) ∧
      (EscapeClass.nonWord.ranges <:+: cls.ranges ∧
        EscapeClass.nonWord.ranges.Pairwise fun r s => r.2 < s.1) ∧
      EscapeClass.nonWord.Holds 0x60 := by
  intro cls
  have hproper : cls.Proper := by decide
  have hitem : ClassItem.escape .nonWord ∈ cls.items := by decide
  obtain ⟨hcover, hbounds, hescapes, hopposite, -⟩ := ranges_cover hproper
  have hcovered := (hcover 0xD800 (by decide)).mp (by decide)
  have hfree := mt (hcover 0x62 (by decide)).mpr (by decide)
  have hholds : EscapeClass.nonWord.Holds 0x60 :=
    (hopposite .word 0x60).mpr (by simp [EscapeClass.Holds, wordRanges])
  exact ⟨hproper, by decide, hcovered, hfree, hbounds, hescapes _ hitem, hholds⟩

end CharacterClass

end PatternDiagram
