import PatternDiagram.Command.Report
import PatternDiagram.Proofs.Bare
import PatternDiagram.Proofs.LineFeeds
import PatternDiagram.Proofs.Wording

/-!
# Patterns that are typed over several lines

The command puts an escape in place of each line end of a pattern before it reads it:

* `Unfolds.next?`, `Unfolds.reads_map`, `Unfolds.reads_of_map`: the words stay what they are, with
  line feeds escaped;
* `Unfolds.not_reads_map`: with a line feed that is escaped already they do not;
* `Source.split_escapeBreaks`: slashes and flags stay what they are;
* `Command.unfoldLines_eq`: line ends become line feeds first, and then escapes;
* `Command.parse_unfolded`: **the pattern means what it meant**, just if none of its line feeds is
  escaped already.
-/

namespace PatternDiagram

/-! ## 1. Words -/

/-- The word that begins with the token: a class is read to its end. -/
def Word.ofToken? (site : List Char) (t : Token) (rest : List Char) : Option (Word × List Char) :=
  match t with
  | .classOpen negated =>
      match ClassBody.read site rest with
      | .ok (items, rest) => some (.characterClass ⟨negated, items⟩, rest)
      | .error _ => none
  | t => some (.token t, rest)

theorem Word.next?_cons (c : Char) (cs : List Char) :
    next? (c :: cs) = (Token.read c cs).toOption.bind fun found =>
      ofToken? (c :: cs) found.1 found.2 := by
  unfold next?
  simp only [Token.next]
  cases Token.read c cs with
  | error f => rfl
  | ok found =>
    obtain ⟨t, rest⟩ := found
    cases t <;> rfl

namespace Unfolds

variable {b : Bool} {cs ds : List Char}

/-- The words are the same but for the literals that they are, unless a line feed in them is escaped
    already. -/
def WordsAlike (b : Bool) (found found' : Option (Word × List Char)) : Prop :=
  Option.Rel (Alike b (Word.mapLiterals Literal.escapeBreak)) found found' ∨
    b = true ∧ ∀ w rest w' rest', found = some (w, rest) → found' = some (w', rest') →
      w' ≠ w.mapLiterals Literal.escapeBreak

theorem ofToken? {found found' : Except Failure (Token × List Char)} (site site' : List Char)
    (h : Option.Rel (Alike b (Token.mapLiterals Literal.escapeBreak)) found.toOption
      found'.toOption) :
    WordsAlike b (found.toOption.bind fun found => Word.ofToken? site found.1 found.2)
      (found'.toOption.bind fun found => Word.ofToken? site' found.1 found.2) := by
  cases found <;> cases found' <;> cases h
  · exact .inl .none
  rename_i found found' h
  obtain ⟨t, rest⟩ := found
  obtain ⟨t', rest'⟩ := found'
  obtain ⟨e, hrest⟩ := h
  obtain rfl : t' = t.mapLiterals Literal.escapeBreak := e
  cases t with
  | classOpen negated =>
    show WordsAlike b (Word.ofToken? site (.classOpen negated) rest)
      (Word.ofToken? site' (.classOpen negated) rest')
    simp only [Word.ofToken?]
    rcases hrest.classRead site site' with hread | ⟨hb, hread⟩
    · generalize ClassBody.read site rest = found at hread ⊢
      generalize ClassBody.read site' rest' = found' at hread ⊢
      cases found <;> cases found' <;> cases hread
      · exact .inl .none
      · rename_i found found' hread
        obtain ⟨items, left⟩ := found
        obtain ⟨items', left'⟩ := found'
        obtain ⟨e, hleft⟩ := hread
        obtain rfl : items' = items := e
        exact .inl (.some ⟨rfl, hleft⟩)
    · refine .inr ⟨hb, fun w left w' left' hw hw' e => ?_⟩
      split at hw
      · split at hw'
        · rename_i hitems _ _ _ hitems'
          simp only [Option.some.injEq, Prod.mk.injEq] at hw hw'
          rw [← hw.1, ← hw'.1] at e
          simp only [Word.mapLiterals, Word.characterClass.injEq, CharacterClass.mk.injEq,
            true_and] at e
          exact hread _ _ _ _ hitems hitems' [] [] (by simp [e])
        · simp at hw'
      · simp at hw
  | _ => exact .inl (.some ⟨rfl, hrest⟩)

/-- **The word at the front is the same, with a line feed escaped if it is one**, unless a line feed
    in it is escaped already. -/
theorem next? (h : Unfolds b cs ds) : WordsAlike b (Word.next? cs) (Word.next? ds) := by
  cases h with
  | nil => exact .inl .none
  | char c hslash hbreak h =>
    rw [Word.next?_cons, Word.next?_cons]
    exact ofToken? _ _ (h.tokenRead hslash hbreak)
  | lineFeed h => exact .inl (.some ⟨rfl, h⟩)
  | escape c hc h =>
    rw [Word.next?_cons, Word.next?_cons]
    exact ofToken? _ _ (h.tokenEscape hc _ _)
  | backslash => exact .inl .none
  | escapedBreak h =>
    refine .inr ⟨rfl, fun w rest w' rest' hw hw' e => ?_⟩
    obtain rfl : Word.token (.literal (.char '\n')) = w := congrArg Prod.fst (Option.some.inj hw)
    obtain rfl : Word.token (.literal (.char '\\')) = w' := congrArg Prod.fst (Option.some.inj hw')
    simp [Word.mapLiterals, Token.mapLiterals, Literal.escapeBreak] at e

theorem reads_map (h : Unfolds false cs ds) {ws : List Word} (hws : Reads cs ws []) :
    Reads ds (ws.map (Word.mapLiterals Literal.escapeBreak)) [] := by
  induction ws generalizing cs ds with
  | nil =>
    cases hws
    cases h
    exact .done _
  | cons w ws ih =>
    cases hws with
    | more hw hs =>
      rcases h.next? with hword | ⟨hb, -⟩
      · rw [hw] at hword
        obtain ⟨rest', hw', hrest⟩ := Alike.of_some hword
        exact .more hw' (ih hrest hs)
      · simp at hb

theorem reads_of_map (h : Unfolds false cs ds) {vs : List Word} (hvs : Reads ds vs []) :
    ∃ ws, Reads cs ws [] ∧ vs = ws.map (Word.mapLiterals Literal.escapeBreak) := by
  induction vs generalizing cs ds with
  | nil =>
    cases hvs
    cases h
    exact ⟨[], .done _, rfl⟩
  | cons v vs ih =>
    cases hvs with
    | more hv hs =>
      rcases h.next? with hword | ⟨hb, -⟩
      · rw [hv] at hword
        obtain ⟨w, rest, hw, rfl, hrest⟩ := Alike.to_some hword
        obtain ⟨ws, hws, rfl⟩ := ih hrest hs
        exact ⟨w :: ws, .more hw hws, rfl⟩
      · simp at hb

/-- **With a line feed that is escaped already, the words differ.** -/
theorem not_reads_map (h : Unfolds true cs ds) {ws : List Word} (hws : Reads cs ws []) :
    ¬ Reads ds (ws.map (Word.mapLiterals Literal.escapeBreak)) [] := by
  induction ws generalizing cs ds with
  | nil =>
    cases hws
    cases h
  | cons w ws ih =>
    intro hvs
    cases hws with
    | more hw hs =>
      cases hvs with
      | more hv hvs =>
        rcases h.next? with hword | ⟨-, hword⟩
        · rw [hw, hv] at hword
          cases hword with
          | some hfound => exact ih hfound.2 hs hvs
        · exact hword _ _ _ _ hw hv rfl

end Unfolds

/-! ## 2. Sources -/

/-- The expression with each literal line feed as its escape. -/
def Expression.withEscapes (e : Expression) : Expression :=
  { e with root := e.root.mapLiterals Literal.escapeBreak }

/-- The source with an escape in place of each line feed of its pattern. -/
def Source.withEscapes (s : Source) : Source := { s with pattern := escapeBreaks s.pattern }

theorem escapeBreaks_append (cs ds : List Char) :
    escapeBreaks (cs ++ ds) = escapeBreaks cs ++ escapeBreaks ds := by
  induction cs with
  | nil => rfl
  | cons c cs ih =>
    simp only [List.cons_append, escapeBreaks, ih]
    split <;> rfl

/-- A character other than those of an escape stands where it stood. -/
theorem mem_escapeBreaks_iff {c : Char} (hslash : c ≠ '\\') (hn : c ≠ 'n') (hbreak : c ≠ '\n')
    {cs : List Char} : c ∈ escapeBreaks cs ↔ c ∈ cs := by
  induction cs with
  | nil => rfl
  | cons d cs ih =>
    simp only [escapeBreaks]
    split <;> simp_all

/-- Behind flag letters and the slash in front of them no line feed is escaped. -/
theorem escapesBreak_append {tail : List Char} (htail : '\\' ∉ tail) (body : List Char) :
    escapesBreak (body ++ '/' :: tail) = escapesBreak body := by
  have hnone : ∀ {cs : List Char}, '\\' ∉ cs → escapesBreak cs = false := by
    intro cs hcs
    induction cs with
    | nil => rfl
    | cons c cs ih =>
      rw [List.mem_cons, not_or] at hcs
      rw [escapesBreak]
      · exact ih hcs.2
      · exact fun _ _ e => absurd e.symm hcs.1
  fun_induction escapesBreak body with
  | case1 c cs ih => simp [escapesBreak, ih]
  | case2 c cs hc ih =>
    by_cases hslash : c = '\\'
    · subst hslash
      cases cs with
      | nil => simp [escapesBreak, hnone htail]
      | cons d cs => exact absurd rfl (hc d cs rfl)
    · rw [List.cons_append, escapesBreak, ih]
      exact fun _ _ e => absurd e hslash
  | case3 => exact hnone (by simpa using htail)

/-- No flag has a line feed or a backslash for its letter. -/
theorem FlagLetters.read_escapeBreaks (f : Flags) (before : Nat) (cs : List Char) :
    read f before (escapeBreaks cs) = read f before cs := by
  induction cs generalizing f before with
  | nil => rfl
  | cons c cs ih =>
    by_cases hc : c = '\n'
    · subst hc
      rfl
    · simp only [escapeBreaks, if_neg hc, read, ih]

namespace Source

/-- **A source with its line feeds escaped is split as it was.** -/
theorem split_escapeBreaks (cs : List Char) :
    (split (escapeBreaks cs)).toOption = (split cs).toOption.map withEscapes := by
  cases cs with
  | nil => rfl
  | cons c cs =>
    by_cases hc : c = '/'
    · subst hc
      have hcons : escapeBreaks ('/' :: cs) = '/' :: escapeBreaks cs := rfl
      by_cases hslash : '/' ∈ cs
      · obtain ⟨body, tail, rfl, htail⟩ := exists_last_slash hslash
        have htail' : '/' ∉ escapeBreaks tail := by
          rwa [mem_escapeBreaks_iff (by decide) (by decide) (by decide)]
        have happend : escapeBreaks (body ++ '/' :: tail) =
            escapeBreaks body ++ '/' :: escapeBreaks tail := escapeBreaks_append body _
        rw [hcons, happend]
        simp only [split, atLastSlash?_append htail, atLastSlash?_append htail',
          FlagLetters.read_escapeBreaks]
        cases FlagLetters.read {} 0 tail with
        | foreign => simp [Except.toOption, withEscapes, ← happend, ← hcons]
        | repeated letter before => rfl
        | flags f => rfl
      · have hslash' : '/' ∉ escapeBreaks cs := by
          rwa [mem_escapeBreaks_iff (by decide) (by decide) (by decide)]
        rw [hcons]
        simp only [split, atLastSlash?_eq_none hslash, atLastSlash?_eq_none hslash']
        rfl
    · have hbare {c : Char} {cs : List Char} (hc : c ≠ '/') :
          split (c :: cs) = .ok { pattern := c :: cs } := by
        unfold split
        split
        · rename_i e
          exact absurd (List.cons.inj e).1 hc
        · rfl
      by_cases hbreak : c = '\n'
      · subst hbreak
        rfl
      · rw [hbare hc, escapeBreaks, if_neg hbreak, hbare hc]
        simp [Except.toOption, withEscapes, escapeBreaks, hbreak]

/-- A line feed is escaped in a source just if it is in its pattern. -/
theorem escapesBreak_of_split {cs : List Char} {s : Source} (h : split cs = .ok s) :
    escapesBreak s.pattern = escapesBreak cs := by
  have hbare (e : (.ok { pattern := cs } : Except SyntaxError Source) = .ok s) :
      escapesBreak s.pattern = escapesBreak cs := by
    obtain rfl := Except.ok.inj e
    rfl
  unfold split at h
  dsimp only at h
  split at h
  · split at h
    · exact hbare h
    · rename_i body tail hcut
      obtain ⟨rfl, -⟩ := atLastSlash?_eq_some_iff.mp hcut
      split at h
      · exact hbare h
      · simp at h
      · rename_i f hflags
        obtain rfl := Except.ok.inj h
        have htail : '\\' ∉ tail := fun hmem => by
          simpa [Flags.letters] using FlagLetters.letters_of_read hflags _ hmem
        exact (escapesBreak_append htail body).symm
  · exact hbare h

theorem expression_eq_ok_iff {s : Source} {e : Expression} :
    s.expression = .ok e ↔
      ∃ after, (Reader.ofPattern s.pattern s.base).parse = (.ok e.root, after) ∧
        e.flags = s.flags ∧ e.groups = after.groups := by
  unfold expression
  constructor
  · intro h
    split at h
    · rename_i root after hparse
      obtain rfl := Except.ok.inj h
      exact ⟨after, hparse, rfl, rfl⟩
    · simp at h
  · rintro ⟨after, hparse, hflags, hgroups⟩
    rw [hparse]
    simp [← hflags, ← hgroups]

theorem expression_withEscapes {s : Source} (h : escapesBreak s.pattern = false)
    (e' : Expression) :
    s.withEscapes.expression = .ok e' ↔ ∃ e, s.expression = .ok e ∧ e' = e.withEscapes := by
  let r := Reader.ofPattern s.pattern s.base
  let r' := Reader.ofPattern s.withEscapes.pattern s.base
  have hunfolds : Unfolds false s.pattern s.withEscapes.pattern := h ▸ unfolds s.pattern
  have hnaming : r'.naming = r.naming := rfl
  have hparse (y : Node) : r'.parse.1 = .ok y ↔
      ∃ x, r.parse.1 = .ok x ∧ y = x.mapLiterals Literal.escapeBreak := by
    refine Reader.parse_mapLiterals hnaming (fun vs => ⟨hunfolds.reads_of_map, ?_⟩) y
    rintro ⟨ws, hws, rfl⟩
    exact hunfolds.reads_map hws
  have hgroups {x : Node} {after after' : Reader} (hx : r.parse = (.ok x, after))
      (hy : r'.parse = (.ok (x.mapLiterals Literal.escapeBreak), after')) :
      after'.groups = after.groups :=
    Reader.groups_eq_of_captures hnaming (Node.captures_mapLiterals _ x) hx hy
  constructor
  · intro he'
    obtain ⟨after', hy, hflags, hafter'⟩ := expression_eq_ok_iff.mp he'
    obtain ⟨x, hx, hroot⟩ := (hparse _).mp (congrArg Prod.fst hy)
    have hpair : r.parse = (.ok x, r.parse.2) := Prod.ext hx rfl
    refine ⟨⟨x, s.flags, r.parse.2.groups⟩, expression_eq_ok_iff.mpr ⟨_, hpair, rfl, rfl⟩, ?_⟩
    obtain ⟨root, flags, groups⟩ := e'
    obtain rfl : root = x.mapLiterals Literal.escapeBreak := hroot
    obtain rfl : flags = s.flags := hflags
    obtain rfl : groups = after'.groups := hafter'
    rw [hgroups hpair hy]
    rfl
  · rintro ⟨e, he, rfl⟩
    obtain ⟨after, hx, hflags, hafter⟩ := expression_eq_ok_iff.mp he
    have hy := (hparse _).mpr ⟨_, congrArg Prod.fst hx, rfl⟩
    have hpair : r'.parse = (.ok (e.root.mapLiterals Literal.escapeBreak), r'.parse.2) :=
      Prod.ext hy rfl
    exact expression_eq_ok_iff.mpr ⟨_, hpair, hflags, hafter.trans (hgroups hx hpair).symm⟩

/-- **With a line feed that is escaped already, the trees differ.** -/
theorem expression_withEscapes_ne {s : Source} {e : Expression}
    (h : escapesBreak s.pattern = true) (he : s.expression = .ok e) :
    s.withEscapes.expression ≠ .ok e.withEscapes := by
  intro he'
  have hunfolds : Unfolds true s.pattern s.withEscapes.pattern := h ▸ unfolds s.pattern
  obtain ⟨after, hx, -⟩ := expression_eq_ok_iff.mp he
  obtain ⟨after', hy, -⟩ := expression_eq_ok_iff.mp he'
  obtain ⟨ws, hws, hderives, -⟩ := (Reader.parse_iff _ _).mp (congrArg Prod.fst hx)
  obtain ⟨vs, hvs, hderives', -⟩ := (Reader.parse_iff _ _).mp (congrArg Prod.fst hy)
  -- the trees would be made of the same words, and the texts are not
  have hwords : vs = ws.map (Word.mapLiterals Literal.escapeBreak) :=
    hderives'.words_eq.symm.trans hderives.mapLiterals.words_eq
  exact hunfolds.not_reads_map hws (hwords ▸ hvs)

end Source

/-! ## 3. What was typed -/

namespace Command

/-- A line feed in place of every line end. -/
def plainLines : List Char → List Char
  | '\r' :: '\n' :: cs => '\n' :: plainLines cs
  | c :: cs => c :: plainLines cs
  | [] => []

/-- A line end is escaped as the line feed that it stands for. -/
theorem unfoldLines_eq (cs : List Char) : unfoldLines cs = escapeBreaks (plainLines cs) := by
  fun_induction unfoldLines cs with
  | case1 cs ih => simp [plainLines, escapeBreaks, ih]
  | case2 cs ih => simp [plainLines, escapeBreaks, ih]
  | case3 c cs hcrlf hlf ih =>
    have hc : c ≠ '\n' := fun e => hlf e
    rw [plainLines, escapeBreaks, if_neg hc, ih]
    exact hcrlf
  | case4 => rfl

/-- The pattern as it was typed, with line feeds for its line ends. -/
def plain (pattern : String) : String := String.ofList (plainLines pattern.toList)

/-- **Patterns over several lines.** If no line feed is escaped already, the pattern with escapes is
    accepted just if the pattern with line feeds is, with the same flags, groups and tree, but for
    the line feeds among its literals, which are escaped. And whenever the pattern with line feeds
    is accepted, this can be said of it only then. -/
theorem parse_unfolded (raw : String) :
    (escapesBreak (plain raw).toList = false → ∀ e',
      parse (unfolded raw) = .ok e' ↔ ∃ e, parse (plain raw) = .ok e ∧ e' = e.withEscapes) ∧
    ∀ e, parse (plain raw) = .ok e →
      (parse (unfolded raw) = .ok e.withEscapes ↔ escapesBreak (plain raw).toList = false) := by
  have hunfolded : (unfolded raw).toList = escapeBreaks (plain raw).toList := by
    simp [unfolded, plain, unfoldLines_eq]
  have hsplit := Source.split_escapeBreaks (plain raw).toList
  rw [← hunfolded] at hsplit
  unfold parse
  cases hs : Source.split (plain raw).toList with
  | error e =>
    -- the source is refused for its flags, and stays refused
    rw [hs] at hsplit
    cases hs' : Source.split (unfolded raw).toList with
    | error e' => simp
    | ok s' => simp [hs', Except.toOption] at hsplit
  | ok s =>
    rw [hs] at hsplit
    have hs' : Source.split (unfolded raw).toList = .ok s.withEscapes := by
      cases hs' : Source.split (unfolded raw).toList with
      | error e' => simp [hs', Except.toOption] at hsplit
      | ok s' =>
        rw [hs'] at hsplit
        exact congrArg Except.ok (Option.some.inj hsplit)
    rw [hs', ← Source.escapesBreak_of_split hs]
    simp only
    refine ⟨fun h => Source.expression_withEscapes h, fun e he => ⟨fun he' => ?_, fun h => ?_⟩⟩
    · rw [← Bool.not_eq_true]
      exact fun h => Source.expression_withEscapes_ne h he he'
    · exact (Source.expression_withEscapes h _).mpr ⟨e, he, rfl⟩

/-- Three lines between slashes: a line end behind an escaped backslash, and one in a range. -/
theorem parse_unfolded_of_lines :
    let raw := "/\\\\\r\n([\t-\n])\\1/i"
    let tree (l : Literal) : Node := .sequence [.literal (.char '\\'), .literal l,
      .group true none (some 1) (.characterClass ⟨false, [.range '\t' '\n']⟩),
      .backreference (.index 1)]
    let e : Expression := ⟨tree (.char '\n'), { ignoreCase := true }, ⟨1, []⟩⟩
    escapesBreak (plain raw).toList = false ∧ parse (plain raw) = .ok e ∧
      parse (unfolded raw) = .ok e.withEscapes ∧
      e.withEscapes.root = tree (.escaped '\n' .lineFeed) := by
  intro raw tree e
  have hplain : plain raw = "/\\\\\n([\t-\n])\\1/i" := by decide +kernel
  have hapart : escapesBreak (plain raw).toList = false := by decide +kernel
  have hparse : parse (plain raw) = .ok e := by
    rw [hplain]
    with_unfolding_all rfl
  exact ⟨hapart, hparse, ((parse_unfolded raw).1 hapart _).mpr ⟨e, hparse, rfl⟩, rfl⟩

/-- Behind a backslash, a line feed becomes a backslash and a letter: as a pattern by itself, and in
    a class, which is refused then. -/
theorem escaped_break_not_unfolded :
    parse (plain "\\\n") = .ok ⟨.literal (.char '\n'), {}, {}⟩ ∧
    parse (unfolded "\\\n") =
      .ok ⟨.sequence [.literal (.char '\\'), .literal (.char 'n')], {}, {}⟩ ∧
    parse (plain "[\\\n-a]") = .ok ⟨.characterClass ⟨false, [.range '\n' 'a']⟩, {}, {}⟩ ∧
    parse (unfolded "[\\\n-a]") = .error ⟨.rangeOutOfOrder, 3⟩ := by
  refine ⟨?_, ?_, ?_, ?_⟩ <;> with_unfolding_all rfl

end Command

end PatternDiagram
