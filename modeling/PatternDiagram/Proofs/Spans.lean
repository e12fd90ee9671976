import PatternDiagram.Proofs.Descent

/-!
# Where readers stand

A reader on a boundary between characters, and the cursor on the byte that it stands at:

* `Reader.cursor`: the cursor of a reader;
* `Reader.run_next`, `Reader.run_parse`: by bytes the next token and the tree are found as the
  reader finds them, so nothing is ever cut out within a character or behind the end, every loop
  comes to its end, within as many rounds as there are characters and one more, and the reader is on
  a boundary again, behind a fault as well;
* `Reader.lexemes`: one token after the other to the end, and `Bytes.lexemes`: the same by bytes;
* `Spans`: lexemes that adjoin each other; `Reader.spans_of_lexemes`: those of a reader do, up to
  the end of the pattern.
-/

namespace PatternDiagram

/-! ## 1. Readers and cursors -/

theorem dropBytes_append (front rest : List Char) :
    dropBytes (byteLength front) (front ++ rest) = rest := by
  induction front with
  | nil => cases rest <;> simp [dropBytes]
  | cons c cs ih =>
    have hne : ¬ byteLength (c :: cs) = 0 := by
      have hpos := c.utf8Size_pos
      rw [byteLength_cons]
      omega
    rw [List.cons_append, dropBytes, if_neg hne, byteLength_cons, Nat.add_sub_cancel_left, ih]

namespace Reader

/-- The cursor on the byte where the reader stands. -/
def cursor (r : Reader) : Cursor := ⟨r.position, r.naming⟩

/-- The reader has an end of its pattern left. -/
def Stands (r : Reader) : Prop := r.rest <:+ r.pattern

variable {r : Reader}

/-- A reader is moved just to a boundary. -/
theorem position_seek {n : Nat} (h : IsBoundary r.pattern n) : (r.seek n).position = n := by
  obtain ⟨front, rest, hpattern, rfl⟩ := h
  have hrest : (r.seek (byteLength front)).rest = rest := by
    rw [seek, goTo, hpattern, dropBytes_append]
  rw [position, hrest]
  have hseek : (r.seek (byteLength front)).pattern = front ++ rest := hpattern
  exact place_of_append hseek

theorem stands_seek (r : Reader) (n : Nat) : (r.seek n).Stands := dropBytes_suffix n r.pattern

theorem isBoundary_position (h : r.Stands) : IsBoundary r.pattern r.position :=
  isBoundary_placeOf h

theorem pattern_next (r : Reader) : r.next.2.pattern = r.pattern := by
  unfold next
  split <;> rfl

theorem base_next (r : Reader) : r.next.2.base = r.base := by
  unfold next
  split <;> rfl

theorem pattern_parse (r : Reader) : r.parse.2.pattern = r.pattern := by
  unfold parse
  dsimp only
  split <;> rfl

/-- **The next token by bytes**, in front of whatever is left. -/
theorem run_next (h : r.Stands) :
    (Bytes.nextToken r.pattern r.base).run.run r.cursor = some (r.next.1, r.next.2.cursor) := by
  refine (Bytes.run_nextToken h r.base r.naming).trans ?_
  unfold next
  rcases Token.next r.rest with f | _ | ⟨t, rest⟩ <;> rfl

/-- **The tree of a pattern by bytes**, in front of whatever is left. -/
theorem run_parse (h : r.Stands) :
    (Bytes.parse r.pattern r.base).run.run r.cursor = some (r.parse.1, r.parse.2.cursor) := by
  refine (Bytes.run_parse h r.base r.naming).trans ?_
  unfold parse
  cases hrun : (Machine.start r.naming r.rest).run with
  | mk result after => cases result <;> rfl

/-- Behind a token, and behind a fault in one, the reader stands in the pattern. -/
theorem stands_next (h : r.Stands) : r.next.2.Stands := by
  unfold next
  split
  · rename_i hnext
    exact (Token.next_stop hnext).trans h
  · exact h
  · rename_i hnext
    exact (Token.suffix_of_next hnext).trans h

theorem stands_parse (h : r.Stands) : r.parse.2.Stands := by
  unfold parse
  dsimp only
  split
  · exact List.nil_suffix
  · rename_i hrun
    exact (Machine.run_stop hrun).trans h

/-- A token begins where the reader stands and ends where it goes, which is further on. -/
theorem span_of_next {t : Lexeme} {after : Reader} (h : r.Stands)
    (hnext : r.next = (.ok (some t), after)) :
    t.first = r.position ∧ t.first < t.behind ∧ t.behind = after.position ∧
      ∃ text, text ≠ [] ∧ slice? t.first t.behind r.pattern = some text ∧
        r.rest = text ++ after.rest := by
  obtain ⟨token, first, behind⟩ := t
  obtain ⟨rest, htoken, rfl, rfl, rfl⟩ := next_eq_some_iff.mp hnext
  obtain ⟨c, more, hrest, between, rfl⟩ := Token.next_suffix htoken
  have hbetween : (c :: between) ++ rest <:+ r.pattern := by
    rw [List.cons_append, ← hrest]
    exact h
  have hslice := slice?_between hbetween
  have hadd := placeOf_add (c :: between) hbetween
  rw [List.cons_append, ← hrest] at hslice hadd
  have hpos := c.utf8Size_pos
  rw [byteLength_cons] at hadd
  refine ⟨rfl, ?_, rfl, c :: between, List.cons_ne_nil c between, hslice, hrest⟩
  change placeOf r.pattern r.rest < placeOf r.pattern rest
  omega

/-- The end of the pattern is reached where there is no token. -/
theorem rest_of_next_none {after : Reader} (hnext : r.next = (.ok none, after)) :
    r.rest = [] ∧ after = r := by
  unfold next at hnext
  split at hnext
  · simp at hnext
  · rename_i htoken
    simp only [Prod.mk.injEq] at hnext
    exact ⟨Token.next_eq_none_iff.mp htoken, hnext.2.symm⟩
  · simp at hnext

/-- Less is left behind a token. -/
theorem length_next {t : Lexeme} {after : Reader} (hnext : r.next = (.ok (some t), after)) :
    after.rest.length < r.rest.length := by
  obtain ⟨token, first, behind⟩ := t
  obtain ⟨rest, htoken, -, -, rfl⟩ := next_eq_some_iff.mp hnext
  exact Token.next_length htoken

/-- One token after the other, up to the end of the pattern or the first fault. -/
def lexemes (r : Reader) : Except SyntaxError (List Lexeme) × Reader :=
  match _ : r.next with
  | (.error e, after) => (.error e, after)
  | (.ok none, after) => (.ok [], after)
  | (.ok (some t), after) => after.lexemes.map (Except.map (t :: ·)) id
termination_by r.rest.length
decreasing_by exact length_next ‹r.next = (.ok (some t), after)›

end Reader

/-- Lexemes that adjoin each other from one place to another. None of them is empty. -/
def Spans (first : Nat) : List Lexeme → Nat → Prop
  | [], behind => first = behind
  | t :: ts, behind => t.first = first ∧ t.first < t.behind ∧ Spans t.behind ts behind

/-- One token after the other by bytes, within so many rounds. -/
def Bytes.lexemes (pattern : List Char) (base : Nat) : Nat → Trial (List Lexeme)
  | 0 => giveUp
  | n + 1 => do
    match ← nextToken pattern base with
    | none => return []
    | some t => return t :: (← lexemes pattern base n)

namespace Reader

variable {r : Reader}

/-- **All tokens by bytes.** The induction is on the tokens that the reader finds. -/
theorem run_lexemes {n : Nat} (h : r.Stands) (hn : r.rest.length ≤ n) :
    (Bytes.lexemes r.pattern r.base (n + 1)).run.run r.cursor =
      some (r.lexemes.1, r.lexemes.2.cursor) := by
  fun_induction lexemes r generalizing n with
  | case1 r e after hnext =>
    rw [Bytes.lexemes, Bytes.run_bind, run_next h, hnext]
    rfl
  | case2 r after hnext =>
    rw [Bytes.lexemes, Bytes.run_bind, run_next h, hnext]
    rfl
  | case3 r t after hnext ih =>
    have hless := Nat.lt_of_lt_of_le (length_next hnext) hn
    obtain ⟨n, rfl⟩ := Nat.exists_eq_add_one_of_ne_zero (Nat.ne_zero_of_lt hless)
    have hafter := stands_next h
    have hpattern := pattern_next r
    have hbase := base_next r
    rw [hnext] at hafter hpattern hbase
    have hmore := ih hafter (Nat.le_of_lt_succ hless)
    rw [hpattern, hbase] at hmore
    rw [Bytes.lexemes, Bytes.run_bind, run_next h, hnext, Option.bind_some]
    dsimp only
    rw [Bytes.run_bind, hmore]
    rcases after.lexemes with ⟨_ | _, last⟩ <;> rfl

/-- **The tokens of a reader adjoin each other** up to the end of the pattern, and what they stand
    for makes up what is left. -/
theorem spans_of_lexemes {ts : List Lexeme} (h : r.Stands) (hts : r.lexemes.1 = .ok ts) :
    Spans r.position ts (byteLength r.pattern) ∧
      ∃ texts : List (List Char),
        ts.map (fun t => slice? t.first t.behind r.pattern) = texts.map some ∧
        [] ∉ texts ∧ texts.flatten = r.rest := by
  fun_induction lexemes r generalizing ts with
  | case1 r e after hnext => simp at hts
  | case2 r after hnext =>
    obtain rfl : [] = ts := by simpa using hts
    obtain ⟨hrest, -⟩ := rest_of_next_none hnext
    refine ⟨?_, [], rfl, by simp, hrest.symm⟩
    simp [Spans, position, place, hrest]
  | case3 r t after hnext ih =>
    have hafter := stands_next h
    have hpattern := pattern_next r
    rw [hnext] at hafter hpattern
    obtain ⟨hfirst, hlt, hbehind, text, hne, hslice, hrest⟩ := span_of_next h hnext
    cases hmore : after.lexemes.1 with
    | error e => simp [hmore, Except.map] at hts
    | ok us =>
      obtain rfl : t :: us = ts := by simpa [hmore, Except.map] using hts
      obtain ⟨hspans, texts, htexts, hnone, hflatten⟩ := ih hafter hmore
      rw [hpattern] at hspans htexts
      rw [← hbehind] at hspans
      refine ⟨⟨hfirst, hlt, hspans⟩, text :: texts, ?_, ?_, ?_⟩
      · rw [List.map_cons, hslice, htexts, List.map_cons]
      · simp [hnone, hne.symm]
      · rw [List.flatten_cons, hflatten, hrest]

/-- **Reading keeps to the boundaries between characters.** From any of them the next token and the
    tree are found by bytes as the reader finds them, with no cut off a boundary and no loop that
    goes on, and the reader is on a boundary behind them, or behind the fault. A token begins where
    the reader stood and ends where it stands then, and it is not empty. So the tokens from the
    front to the end of the pattern adjoin each other and make up the whole pattern. -/
theorem reading_keeps_to_boundaries (r : Reader) {n : Nat} (hn : IsBoundary r.pattern n) :
    (Bytes.nextToken r.pattern r.base).run.run ⟨n, r.naming⟩ =
      some ((r.seek n).next.1, (r.seek n).next.2.cursor) ∧
    IsBoundary r.pattern (r.seek n).next.2.position ∧
    (∀ t, (r.seek n).next.1 = .ok (some t) →
      t.first = n ∧ t.first < t.behind ∧ t.behind = (r.seek n).next.2.position) ∧
    (Bytes.parse r.pattern r.base).run.run ⟨n, r.naming⟩ =
      some ((r.seek n).parse.1, (r.seek n).parse.2.cursor) ∧
    IsBoundary r.pattern (r.seek n).parse.2.position ∧
    (Bytes.lexemes r.pattern r.base (Bytes.rounds r.pattern)).run.run ⟨0, r.naming⟩ =
      some ((r.seek 0).lexemes.1, (r.seek 0).lexemes.2.cursor) ∧
    ∀ ts, (r.seek 0).lexemes.1 = .ok ts →
      Spans 0 ts (byteLength r.pattern) ∧
      ∃ texts : List (List Char),
        ts.map (fun t => slice? t.first t.behind r.pattern) = texts.map some ∧
        [] ∉ texts ∧ texts.flatten = r.pattern := by
  have hstands := r.stands_seek n
  have hposition := position_seek hn
  have hcursor : (r.seek n).cursor = ⟨n, r.naming⟩ := by rw [cursor, hposition]; rfl
  have hfront : IsBoundary r.pattern 0 := ⟨[], r.pattern, rfl, rfl⟩
  have hcursor' : (r.seek 0).cursor = ⟨0, r.naming⟩ := by rw [cursor, position_seek hfront]; rfl
  refine ⟨hcursor ▸ run_next hstands, ?_, fun t ht => ?_, hcursor ▸ run_parse hstands, ?_,
    hcursor' ▸ run_lexemes (r.stands_seek 0) (r.stands_seek 0).length_le, fun ts hts => ?_⟩
  · have hboundary := isBoundary_position (stands_next hstands)
    rwa [pattern_next] at hboundary
  · obtain ⟨hfirst, hlt, hbehind, -⟩ := span_of_next hstands (Prod.ext ht rfl)
    exact ⟨hfirst.trans hposition, hlt, hbehind⟩
  · have hboundary := isBoundary_position (stands_parse hstands)
    rwa [pattern_parse] at hboundary
  · obtain ⟨hspans, texts, htexts, hnone, hflatten⟩ := spans_of_lexemes (r.stands_seek 0) hts
    rw [position_seek hfront] at hspans
    have hrest : (r.seek 0).rest = r.pattern := dropBytes_append [] r.pattern
    exact ⟨hspans, texts, htexts, hnone, hflatten.trans hrest⟩

/-- A control escape without its letter, between characters of two bytes. -/
theorem reading_keeps_to_boundaries_of_control :
    IsBoundary "é\\cß".toList 2 ∧
      ((Reader.ofPattern "é\\cß".toList 0).seek 2).next.1 =
        .ok (some ⟨.literal (.char '\\'), 2, 3⟩) ∧
      ((Reader.ofPattern "é\\cß".toList 0).seek 2).next.2.position = 3 ∧
      IsBoundary "é\\cß".toList 3 := by
  have hn : IsBoundary "é\\cß".toList 2 := by decide
  have hnext : ((Reader.ofPattern "é\\cß".toList 0).seek 2).next.1 =
      .ok (some ⟨.literal (.char '\\'), 2, 3⟩) := by rfl
  obtain ⟨-, hboundary, hspan, -⟩ :=
    reading_keeps_to_boundaries (Reader.ofPattern "é\\cß".toList 0) hn
  obtain ⟨-, -, hbehind⟩ := hspan _ hnext
  rw [← hbehind] at hboundary
  exact ⟨hn, hnext, hbehind.symm, hboundary⟩

end Reader

end PatternDiagram
