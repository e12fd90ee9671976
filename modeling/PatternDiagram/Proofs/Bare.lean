import PatternDiagram.Proofs.Sites

/-!
# Patterns without slashes around them

A source that is not a pattern between slashes is a pattern as it stands:

* `Source.IsDelimited`: a pattern between slashes, with nothing but flag letters behind it;
* `Source.RepeatsFlag`: behind the last slash a flag letter comes for the second time, and only flag
  letters come before it;
* `FlagLetters.read_eq_repeated_iff`, `FlagLetters.letters_of_read`: which letters are refused, and
  which are read as flags;
* `Source.split_eq_error`, `Source.split_eq_bare`: what becomes of a source in either case;
* `parse_bare_iff`: **a source that is not delimited is a pattern as it stands, just if it repeats
  no flag**.
-/

namespace PatternDiagram

/-! ## 1. Flag letters that are refused -/

namespace FlagLetters

/-- **A letter is refused** when it comes for the second time, behind letters that all differ. -/
theorem read_eq_repeated_iff {cs : List Char} {letter : Char} {before : Nat} :
    read {} 0 cs = .repeated letter before ↔
      ∃ front back, cs = front ++ letter :: back ∧ before = front.length ∧ front.Nodup ∧
        (∀ c ∈ front, c ∈ Flags.letters) ∧ letter ∈ front := by
  have hfresh {c : Char} (hc : c ∈ Flags.letters) : Flags.isSet? {} c = some false :=
    Flags.isSet?_ofLetters [] hc
  constructor
  · intro h
    obtain ⟨front, back, hcs, hbefore, hnodup, hfront, hletter⟩ := repeated_of_read h
    have hletters : ∀ c ∈ front, c ∈ Flags.letters := by
      intro c hc
      by_contra hnot
      have hnone := (Flags.isSet?_eq_none_iff {} c).mpr hnot
      simp [hfront c hc] at hnone
    refine ⟨front, back, hcs, by omega, hnodup, hletters, hletter.resolve_left fun hset => ?_⟩
    by_cases hmem : letter ∈ Flags.letters
    · simp [hfresh hmem] at hset
    · simp [(Flags.isSet?_eq_none_iff {} letter).mpr hmem] at hset
  · rintro ⟨front, back, rfl, rfl, hnodup, hfront, hmem⟩
    have hset : (front.foldl Flags.set {}).isSet? letter = some true := by
      rw [Flags.isSet?_foldl {} hfront, if_pos hmem]
    rw [read_append {} 0 _ hfront hnodup fun c hc => hfresh (hfront c hc), read, hset, Nat.zero_add]

/-- Whatever is read as flags are flag letters. -/
theorem letters_of_read {f g : Flags} {n : Nat} {cs : List Char} (h : read f n cs = .flags g) :
    ∀ c ∈ cs, c ∈ Flags.letters := by
  induction cs generalizing f n with
  | nil => simp
  | cons c cs ih =>
    unfold read at h
    split at h
    · simp at h
    · simp at h
    · rename_i hfree
      refine List.forall_mem_cons.mpr ⟨?_, ih h⟩
      by_contra hnot
      simp [(Flags.isSet?_eq_none_iff f c).mpr hnot] at hfree

end FlagLetters

/-! ## 2. Two kinds of sources -/

namespace Source

/-- **The source is a pattern between slashes** with nothing but flag letters behind it. There is no
    slash among these, so that the one before them is the last. -/
def IsDelimited (source : List Char) : Prop :=
  ∃ body letters, source = '/' :: (body ++ '/' :: letters) ∧ ∀ c ∈ letters, c ∈ Flags.letters

/-- **Behind the last slash a flag letter comes for the second time**, so many characters into the
    source, and only flag letters that differ come before it. -/
def RepeatsFlag (source : List Char) (letter : Char) (offset : Nat) : Prop :=
  ∃ body front back, source = '/' :: (body ++ '/' :: (front ++ letter :: back)) ∧
    '/' ∉ front ++ letter :: back ∧ front.Nodup ∧ (∀ c ∈ front, c ∈ Flags.letters) ∧
    letter ∈ front ∧ offset = 2 + body.length + front.length

/-- Something else than a flag letter behind the last slash belongs to the pattern. -/
theorem not_isDelimited (body : List Char) {tail : List Char} {c : Char} (hslash : '/' ∉ tail)
    (hc : c ∈ tail) (hletter : c ∉ Flags.letters) :
    ¬ IsDelimited ('/' :: (body ++ '/' :: tail)) := by
  rintro ⟨body', letters, hsource, hletters⟩
  have hslash' : '/' ∉ letters := fun h => by simpa [Flags.letters] using hletters _ h
  have hcut : atLastSlash? (body ++ '/' :: tail) = some (body, tail) := atLastSlash?_append hslash
  rw [(List.cons.inj hsource).2, atLastSlash?_append hslash', Option.some.injEq, Prod.mk.injEq]
    at hcut
  exact hletter (hletters c (hcut.2 ▸ hc))

theorem split_eq_error {source : List Char} {letter : Char} {offset : Nat}
    (h : RepeatsFlag source letter offset) :
    split source = .error ⟨.repeatedFlag letter, offset⟩ := by
  obtain ⟨body, front, back, rfl, hslash, hnodup, hfront, hmem, rfl⟩ := h
  have hread : FlagLetters.read {} 0 (front ++ letter :: back) = .repeated letter front.length :=
    FlagLetters.read_eq_repeated_iff.mpr ⟨front, back, rfl, rfl, hnodup, hfront, hmem⟩
  simp only [split, atLastSlash?_append hslash, hread]

/-- **A source is a pattern as it stands** if it is not delimited and repeats no flag. -/
theorem split_eq_bare {source : List Char} (h : ¬ IsDelimited source)
    (hflags : ∀ letter offset, ¬ RepeatsFlag source letter offset) :
    split source = .ok { pattern := source } := by
  unfold split
  dsimp only
  split
  · split
    · rfl
    · rename_i body tail hcut
      obtain ⟨rfl, hslash⟩ := atLastSlash?_eq_some_iff.mp hcut
      split
      · rfl
      · rename_i letter before hread
        obtain ⟨front, back, rfl, -, hnodup, hfront, hmem⟩ :=
          FlagLetters.read_eq_repeated_iff.mp hread
        exact absurd ⟨body, front, back, rfl, hslash, hnodup, hfront, hmem, rfl⟩
          (hflags letter (2 + body.length + front.length))
      · rename_i f hread
        exact absurd ⟨body, tail, rfl, FlagLetters.letters_of_read hread⟩ h
  · rfl

end Source

/-! ## 3. Patterns as they stand -/

/-- No pattern is refused because of a flag. -/
theorem Reader.parse_ne_repeatedFlag (pattern : List Char) (base : Nat) (letter : Char)
    (offset : Nat) : (ofPattern pattern base).parse.1 ≠ .error ⟨.repeatedFlag letter, offset⟩ := by
  intro h
  obtain ⟨f, hrun, he⟩ := (parse_eq_error_iff _ _).mp h
  have hfits := (Machine.Placed.start _ pattern).fits_of_run hrun
  exact hfits.noFlag letter (congrArg SyntaxError.fault he).symm

/-- **Patterns as they stand.** A source that is not delimited is read as a pattern as it stands,
    with no flags, just if no flag letter comes for the second time before something comes that is
    no flag letter. Otherwise it is refused because of that letter, whatever stands behind it. -/
theorem parse_bare_iff {source : String} (h : ¬ Source.IsDelimited source.toList) :
    (parse source =
        (match (Reader.ofPattern source.toList 0).parse with
          | (.ok root, after) => .ok ⟨root, {}, after.groups⟩
          | (.error e, _) => .error e) ↔
      ∀ letter offset, ¬ Source.RepeatsFlag source.toList letter offset) ∧
    ∀ letter offset, Source.RepeatsFlag source.toList letter offset →
      parse source = .error ⟨.repeatedFlag letter, offset⟩ := by
  have hrefused : ∀ letter offset, Source.RepeatsFlag source.toList letter offset →
      parse source = .error ⟨.repeatedFlag letter, offset⟩ := by
    intro letter offset hflag
    rw [parse, Source.split_eq_error hflag]
  refine ⟨⟨fun hbare letter offset hflag => ?_, fun hflags => ?_⟩, hrefused⟩
  · rw [hrefused letter offset hflag] at hbare
    split at hbare
    · simp at hbare
    · rename_i e after hparse
      simp only [Except.error.injEq] at hbare
      refine Reader.parse_ne_repeatedFlag source.toList 0 letter offset ?_
      rw [hparse, hbare]
  · rw [parse, Source.split_eq_bare h hflags]
    rfl

/-- A path is a pattern as it stands: behind its last slash there is a letter that is no flag. -/
theorem parse_bare_path :
    ¬ Source.IsDelimited "/usr/dim/st".toList ∧
      parse "/usr/dim/st" =
        .ok ⟨.sequence ("/usr/dim/st".toList.map fun c => .literal (.char c)), {}, {}⟩ ∧
      ∀ letter offset, ¬ Source.RepeatsFlag "/usr/dim/st".toList letter offset := by
  have h : ¬ Source.IsDelimited "/usr/dim/st".toList :=
    Source.not_isDelimited "usr/dim".toList (show '/' ∉ "st".toList by decide)
      (show 't' ∈ "st".toList by decide) (by decide)
  have hparse : parse "/usr/dim/st" =
      .ok ⟨.sequence ("/usr/dim/st".toList.map fun c => .literal (.char c)), {}, {}⟩ := by
    with_unfolding_all rfl
  exact ⟨h, hparse, (parse_bare_iff h).1.mp (hparse.trans (by with_unfolding_all rfl))⟩

/-- A path whose last part begins with a flag letter twice is refused, though it is a pattern. -/
theorem parse_repeated_flag_path :
    ¬ Source.IsDelimited "/a/ggx".toList ∧
      (Reader.ofPattern "/a/ggx".toList 0).parse.1 =
        .ok (.sequence ("/a/ggx".toList.map fun c => .literal (.char c))) ∧
      parse "/a/ggx" = .error ⟨.repeatedFlag 'g', 4⟩ :=
  ⟨Source.not_isDelimited ['a'] (show '/' ∉ "ggx".toList by decide)
      (show 'x' ∈ "ggx".toList by decide) (by decide),
    by with_unfolding_all rfl, by with_unfolding_all rfl⟩

end PatternDiagram
