import Mathlib.Data.List.Nodup
import Mathlib.Data.List.TakeWhile
import PatternDiagram.Reading.Source

/-!
# Patterns between slashes

* `Source.atLastSlash?_eq_some_iff`: a text is cut at its last slash;
* `Source.split_between`, `Source.split_frame`, `Source.split_error`: what a source is split into;
* `Flags.ofLetters`: the flags that letters name, in whatever order they stand;
* `FlagLetters.read_of_nodup`, `FlagLetters.repeated_of_read`: letters that all differ are read as
  the flags that they name, and a letter that is refused stands there for the second time;
* `Reader.parse_shift`: characters in front of a pattern move the offsets of its errors, and nothing
  else;
* `parse_delimited`: **a pattern between slashes is read as it is by itself**.
-/

namespace PatternDiagram

/-! ## 1. The last slash -/

namespace Source

theorem atLastSlash?_append {body tail : List Char} (h : '/' ∉ tail) :
    atLastSlash? (body ++ '/' :: tail) = some (body, tail) := by
  have hreverse : (body ++ '/' :: tail).reverse = tail.reverse ++ '/' :: body.reverse := by simp
  have hne : ∀ c ∈ tail.reverse, (c != '/') = true := by
    intro c hc
    simpa using fun e : c = '/' => h (e ▸ List.mem_reverse.mp hc)
  rw [atLastSlash?, hreverse, List.dropWhile_append_of_pos hne, List.takeWhile_append_of_pos hne]
  simp

theorem atLastSlash?_eq_none {cs : List Char} (h : '/' ∉ cs) : atLastSlash? cs = none := by
  have hdrop : cs.reverse.dropWhile (· != '/') = [] := by
    refine List.dropWhile_eq_nil_iff.mpr fun c hc => ?_
    simpa using fun e : c = '/' => h (e ▸ List.mem_reverse.mp hc)
  rw [atLastSlash?, hdrop]

/-- A text with a slash has a last one. -/
theorem exists_last_slash {cs : List Char} (h : '/' ∈ cs) :
    ∃ body tail, cs = body ++ '/' :: tail ∧ '/' ∉ tail := by
  obtain ⟨front, back, hcs, hfront⟩ := List.eq_append_cons_of_mem (List.mem_reverse.mpr h)
  refine ⟨back.reverse, front.reverse, ?_, by simpa using hfront⟩
  rw [← List.reverse_reverse cs, hcs]
  simp

/-- **The cut is at the slash behind which there is none.** -/
theorem atLastSlash?_eq_some_iff {cs body tail : List Char} :
    atLastSlash? cs = some (body, tail) ↔ cs = body ++ '/' :: tail ∧ '/' ∉ tail := by
  constructor
  · intro h
    by_cases hslash : '/' ∈ cs
    · obtain ⟨front, back, rfl, hback⟩ := exists_last_slash hslash
      rw [atLastSlash?_append hback, Option.some.injEq, Prod.mk.injEq] at h
      obtain ⟨rfl, rfl⟩ := h
      exact ⟨rfl, hback⟩
    · rw [atLastSlash?_eq_none hslash] at h
      simp at h
  · rintro ⟨rfl, htail⟩
    exact atLastSlash?_append htail

/-! ## 2. What a source is split into -/

/-- Between slashes stands a pattern, if what follows the last slash are flags. -/
theorem split_between {body tail : List Char} {f : Flags} (h : '/' ∉ tail)
    (hflags : FlagLetters.read {} 0 tail = .flags f) :
    split ('/' :: (body ++ '/' :: tail)) = .ok { pattern := body, base := 1, flags := f } := by
  simp [split, atLastSlash?_append h, hflags]

/-- **The pattern is a part of its source**, and its base counts the characters before it. -/
theorem split_frame {source : List Char} {s : Source} (h : split source = .ok s) :
    ∃ front back, source = front ++ s.pattern ++ back ∧ s.base = front.length := by
  have hbare : (.ok { pattern := source } : Except SyntaxError Source) = .ok s →
      ∃ front back, source = front ++ s.pattern ++ back ∧ s.base = front.length := by
    intro e
    simp only [Except.ok.injEq] at e
    subst e
    exact ⟨[], [], by simp, rfl⟩
  unfold split at h
  dsimp only at h
  split at h
  · split at h
    · exact hbare h
    · rename_i body tail hcut
      obtain ⟨rfl, -⟩ := atLastSlash?_eq_some_iff.mp hcut
      split at h
      · exact hbare h
      · simp at h
      · simp only [Except.ok.injEq] at h
        subst h
        exact ⟨['/'], '/' :: tail, by simp, rfl⟩
  · exact hbare h

/-- **A source is only refused for a letter behind its last slash** that is there already. -/
theorem split_error {source : List Char} {e : SyntaxError} (h : split source = .error e) :
    ∃ body tail letter before, source = '/' :: (body ++ '/' :: tail) ∧ '/' ∉ tail ∧
      FlagLetters.read {} 0 tail = .repeated letter before ∧
      e = ⟨.repeatedFlag letter, 2 + body.length + before⟩ := by
  unfold split at h
  dsimp only at h
  split at h
  · split at h
    · simp at h
    · rename_i body tail hcut
      obtain ⟨rfl, htail⟩ := atLastSlash?_eq_some_iff.mp hcut
      split at h
      · simp at h
      · rename_i letter before hread
        simp only [Except.error.injEq] at h
        exact ⟨body, tail, letter, before, rfl, htail, hread, h.symm⟩
      · simp at h
  · simp at h

end Source

/-! ## 3. Flag letters -/

namespace Flags

/-- The letters of the flags. -/
def letters : List Char := ['d', 'g', 'i', 'm', 's', 'u', 'v', 'y']

/-- The flags whose letters are among these, and no others. -/
def ofLetters (cs : List Char) : Flags where
  hasIndices := 'd' ∈ cs
  global := 'g' ∈ cs
  ignoreCase := 'i' ∈ cs
  multiline := 'm' ∈ cs
  dotAll := 's' ∈ cs
  unicode := 'u' ∈ cs
  unicodeSets := 'v' ∈ cs
  sticky := 'y' ∈ cs

/-- Just the letters have a flag. -/
theorem isSet?_eq_none_iff (f : Flags) (c : Char) : f.isSet? c = none ↔ c ∉ letters := by
  unfold isSet? letters
  split <;> simp_all

theorem isSet?_set (f : Flags) {c d : Char} (hc : c ∈ letters) :
    (f.set c).isSet? d = if d = c then some true else f.isSet? d := by
  simp only [letters, List.mem_cons, List.not_mem_nil, or_false] at hc
  rcases hc with rfl | rfl | rfl | rfl | rfl | rfl | rfl | rfl <;>
    (simp only [set]; unfold isSet?; split <;> simp_all)

theorem isSet?_ofLetters (cs : List Char) {c : Char} (hc : c ∈ letters) :
    (ofLetters cs).isSet? c = some (decide (c ∈ cs)) := by
  simp only [letters, List.mem_cons, List.not_mem_nil, or_false] at hc
  rcases hc with rfl | rfl | rfl | rfl | rfl | rfl | rfl | rfl <;> rfl

/-- Flags are the same if the same letters are set. -/
theorem ext_isSet? {f g : Flags} (h : ∀ c ∈ letters, f.isSet? c = g.isSet? c) : f = g := by
  cases f
  cases g
  simp only [letters, List.forall_mem_cons, isSet?, Option.some.injEq] at h
  simp_all

/-- Letters that are set one after the other are set together with what was set before. -/
theorem isSet?_foldl (f : Flags) {cs : List Char} {d : Char} (hcs : ∀ c ∈ cs, c ∈ letters) :
    (cs.foldl set f).isSet? d = if d ∈ cs then some true else f.isSet? d := by
  induction cs generalizing f with
  | nil => simp
  | cons c cs ih =>
    obtain ⟨hc, hcs⟩ := List.forall_mem_cons.mp hcs
    rw [List.foldl_cons, ih (f.set c) hcs, isSet?_set f hc]
    by_cases hd : d ∈ cs <;> simp [hd]

theorem foldl_set_eq_ofLetters {cs : List Char} (hcs : ∀ c ∈ cs, c ∈ letters) :
    cs.foldl set {} = ofLetters cs := by
  refine ext_isSet? fun c hc => ?_
  have hfree : isSet? {} c = some false := isSet?_ofLetters [] hc
  rw [isSet?_foldl {} hcs, isSet?_ofLetters cs hc, hfree]
  by_cases hmem : c ∈ cs <;> simp [hmem]

end Flags

namespace FlagLetters

/-- Letters that all differ and are not set yet are set, and reading goes on behind them. -/
theorem read_append (f : Flags) (before : Nat) {front : List Char} (cs : List Char)
    (hfront : ∀ c ∈ front, c ∈ Flags.letters) (hnodup : front.Nodup)
    (hfree : ∀ c ∈ front, f.isSet? c = some false) :
    read f before (front ++ cs) = read (front.foldl Flags.set f) (before + front.length) cs := by
  induction front generalizing f before with
  | nil => rfl
  | cons c front ih =>
    obtain ⟨hc, hfront⟩ := List.forall_mem_cons.mp hfront
    obtain ⟨hcfree, hfree⟩ := List.forall_mem_cons.mp hfree
    obtain ⟨hnot, hnodup⟩ := List.nodup_cons.mp hnodup
    have hset : ∀ d ∈ front, (f.set c).isSet? d = some false := by
      intro d hd
      rw [f.isSet?_set hc, if_neg fun e : d = c => hnot (e ▸ hd), hfree d hd]
    simp only [List.cons_append, read, hcfree, List.foldl_cons, List.length_cons]
    rw [ih (f.set c) (before + 1) hfront hnodup hset, Nat.add_assoc, Nat.add_comm 1]

theorem read_of_nodup (f : Flags) (before : Nat) {cs : List Char}
    (hcs : ∀ c ∈ cs, c ∈ Flags.letters) (hnodup : cs.Nodup)
    (hfree : ∀ c ∈ cs, f.isSet? c = some false) :
    read f before cs = .flags (cs.foldl Flags.set f) := by
  have h := read_append f before [] hcs hnodup hfree
  rwa [List.append_nil] at h

/-- **A letter that is refused stands there for the second time**, behind others that all differ. -/
theorem repeated_of_read {f : Flags} {n before : Nat} {cs : List Char} {letter : Char}
    (h : read f n cs = .repeated letter before) :
    ∃ front back, cs = front ++ letter :: back ∧ before = n + front.length ∧ front.Nodup ∧
      (∀ c ∈ front, f.isSet? c = some false) ∧ (f.isSet? letter = some true ∨ letter ∈ front) := by
  induction cs generalizing f n with
  | nil => simp [read] at h
  | cons c cs ih =>
    unfold read at h
    split at h
    · simp at h
    · rename_i hset
      simp only [repeated.injEq] at h
      obtain ⟨rfl, rfl⟩ := h
      exact ⟨[], cs, rfl, rfl, by simp, by simp, .inl hset⟩
    · rename_i hfree
      have hc : c ∈ Flags.letters := by
        by_contra hnot
        rw [(f.isSet?_eq_none_iff c).mpr hnot] at hfree
        simp at hfree
      obtain ⟨front, back, rfl, rfl, hnodup, hfront, hletter⟩ := ih h
      have hfront' : ∀ d ∈ front, d ≠ c ∧ f.isSet? d = some false := by
        intro d hd
        have hd := hfront d hd
        rw [f.isSet?_set hc] at hd
        split at hd
        · simp at hd
        · exact ⟨‹_›, hd⟩
      have hnot : c ∉ front := fun hmem => (hfront' c hmem).1 rfl
      refine ⟨c :: front, back, rfl, by rw [List.length_cons]; omega,
        List.nodup_cons.mpr ⟨hnot, hnodup⟩,
        List.forall_mem_cons.mpr ⟨hfree, fun d hd => (hfront' d hd).2⟩, ?_⟩
      rw [f.isSet?_set hc] at hletter
      by_cases e : letter = c
      · exact .inr (e ▸ List.mem_cons_self)
      · rw [if_neg e] at hletter
        exact hletter.imp id (List.mem_cons_of_mem c)

/-- Read from the beginning, such a letter is found once before. -/
theorem count_of_read {before : Nat} {cs : List Char} {letter : Char}
    (h : read {} 0 cs = .repeated letter before) :
    ∃ front back, cs = front ++ letter :: back ∧ before = front.length ∧
      front.count letter = 1 := by
  obtain ⟨front, back, hcs, hbefore, hnodup, -, hletter⟩ := repeated_of_read h
  refine ⟨front, back, hcs, by omega, ?_⟩
  rcases hletter with hset | hmem
  · unfold Flags.isSet? at hset
    split at hset <;> simp at hset
  · exact List.count_eq_one_of_mem hnodup hmem

end FlagLetters

/-! ## 4. Characters in front of a pattern -/

/-- The error, so many characters later. -/
def SyntaxError.shift (e : SyntaxError) (k : Nat) : SyntaxError := { e with offset := e.offset + k }

namespace Reader

/-- The reader with so many more characters in front of its pattern. -/
def shift (r : Reader) (k : Nat) : Reader := { r with base := r.base + k }

/-- **Characters in front of a pattern move the offsets of its errors**, and nothing else. -/
theorem parse_shift (r : Reader) (k : Nat) :
    (r.shift k).parse = (r.parse.1.mapError (·.shift k), r.parse.2.shift k) := by
  have herror (f : Failure) : (r.shift k).error f = (r.error f).shift k := by
    simp only [error, offset, shift, SyntaxError.shift, SyntaxError.mk.injEq, true_and]
    omega
  have hrun : (Machine.start (r.shift k).naming (r.shift k).rest).run =
      (Machine.start r.naming r.rest).run := rfl
  unfold parse
  rw [hrun]
  cases (Machine.start r.naming r.rest).run with
  | mk result naming =>
    cases result with
    | ok root => rfl
    | error f => simp only [herror]; rfl

end Reader

/-- **Patterns between slashes.** A text between slashes with flag letters behind it that all differ
    is read as the text by itself: it is refused when that is, with the same fault one character
    later, and otherwise it has the same tree and the same groups, with just the flags that its
    letters name, in whatever order. -/
theorem parse_delimited (body letters : String) (hletters : ∀ c ∈ letters.toList, c ∈ Flags.letters)
    (hnodup : letters.toList.Nodup) :
    parse ("/" ++ body ++ "/" ++ letters) =
      match (Reader.ofPattern body.toList 0).parse with
      | (.ok root, after) => .ok ⟨root, .ofLetters letters.toList, after.groups⟩
      | (.error e, _) => .error ⟨e.fault, e.offset + 1⟩ := by
  have hsource : ("/" ++ body ++ "/" ++ letters).toList =
      '/' :: (body.toList ++ '/' :: letters.toList) := by simp
  have hslash : '/' ∉ letters.toList := fun h => by simpa [Flags.letters] using hletters _ h
  have hflags : FlagLetters.read {} 0 letters.toList = .flags (.ofLetters letters.toList) := by
    rw [FlagLetters.read_of_nodup {} 0 hletters hnodup fun c hc => ?_,
      Flags.foldl_set_eq_ofLetters hletters]
    exact Flags.isSet?_ofLetters [] (hletters c hc)
  have hshift : (Reader.ofPattern body.toList 1).parse = _ :=
    (Reader.ofPattern body.toList 0).parse_shift 1
  unfold parse
  rw [hsource, Source.split_between hslash hflags]
  simp only [Source.expression, hshift]
  cases hparse : (Reader.ofPattern body.toList 0).parse with
  | mk result after =>
    cases result <;> rfl

/-- A body with a slash of its own, once as a pattern and once with a group that is not closed. -/
theorem parse_delimited_path :
    (∀ c ∈ "yi".toList, c ∈ Flags.letters) ∧ "yi".toList.Nodup ∧
      parse "/a/(b)/yi" = .ok
        ⟨.sequence [.literal (.char 'a'), .literal (.char '/'),
          .group true none (some 1) (.literal (.char 'b'))],
          { ignoreCase := true, sticky := true }, ⟨1, []⟩⟩ ∧
      parse "/a/(/yi" = .error ⟨.unterminatedGroup, 3⟩ := by
  have hletters : ∀ c ∈ "yi".toList, c ∈ Flags.letters := by simp [Flags.letters]
  have hnodup : "yi".toList.Nodup := by simp
  refine ⟨hletters, hnodup, ?_, ?_⟩
  · exact (parse_delimited "a/(b)" "yi" hletters hnodup).trans (by with_unfolding_all rfl)
  · exact (parse_delimited "a/(" "yi" hletters hnodup).trans (by with_unfolding_all rfl)

end PatternDiagram
