import PatternDiagram.Reading.Fault
import PatternDiagram.Reading.Escape

/-!
# Character classes

The members of a character class, from behind its opening bracket to its closing one:

* `ClassBody.atom`: one character or escape;
* `ClassBody.read`: all members. An atom, a dash and another atom make a range, unless one of the
  atoms is a named set; then the dash is a member like the others. A dash before the closing bracket
  is a member as well;
* `ClassBody.members_ok_cases`: how the members come about that begin with an atom;
* `ClassBody.read_suffix`: what is left is an end of the pattern;
* `ClassBody.piece`, `ClassBody.read_cons_iff`: a class is read one piece after the other.
-/

namespace PatternDiagram.ClassBody

/-- The member that a literal stands for in a class. -/
def ofLiteral : Literal → ClassItem
  | .char c => .char c
  | .escaped value _ => .char value
  | .set e => .escape e
  | .any => .char '.'

/-- What an escape stands for in a class. There are no back references: a digit begins an octal
    number, and `b` is the backspace. -/
def escape (c : Char) (cs : List Char) : ClassItem × List Char :=
  if c = 'b' then (.char '\x08', cs)
  else if '1' ≤ c ∧ c ≤ '7' then
    let (value, rest) := Escape.octal 2 ((Numeral.digit? c).getD 0) cs
    (.char (Char.ofNat value), rest)
  else
    let (l, rest) := Escape.read c cs
    (ofLiteral l, rest)

/-- The atom that starts with `c`, followed by `cs`. Nothing follows a backslash at the end of the
    pattern. -/
def atom (c : Char) (cs : List Char) : Option (ClassItem × List Char) :=
  if c = '\\' then
    match cs with
    | [] => none
    | d :: rest => some (escape d rest)
  else some (.char c, cs)

/-- Where a dash goes on to a second atom: the atom's first character and what follows that. -/
def rangeTail? : List Char → Option (Char × List Char)
  | '-' :: d :: rest => if d = ']' then none else some (d, rest)
  | _ => none

theorem escape_suffix (c : Char) (cs : List Char) : (escape c cs).2 <:+ c :: cs := by
  unfold escape
  split
  · exact List.suffix_cons c cs
  · split
    · exact (Escape.octal_suffix _ _ _).trans (List.suffix_cons c cs)
    · exact Escape.read_suffix c cs

theorem atom_suffix {c : Char} {cs rest : List Char} {item : ClassItem}
    (h : atom c cs = some (item, rest)) : rest <:+ cs := by
  unfold atom at h
  split at h
  · split at h
    · simp at h
    · simp only [Option.some.injEq] at h
      have := escape_suffix ‹Char› ‹List Char›
      rwa [h] at this
  · simp only [Option.some.injEq, Prod.mk.injEq] at h
    obtain rfl := h.2
    exact List.suffix_refl _

theorem rangeTail?_eq_some_iff {cs more : List Char} {d : Char} :
    rangeTail? cs = some (d, more) ↔ cs = '-' :: d :: more ∧ d ≠ ']' := by
  constructor
  · intro h
    unfold rangeTail? at h
    split at h
    · split at h
      · simp at h
      · rename_i hd
        obtain ⟨rfl, rfl⟩ := Prod.ext_iff.mp (Option.some.inj h)
        exact ⟨rfl, hd⟩
    · simp at h
  · rintro ⟨rfl, hd⟩
    exact if_neg hd

theorem rangeTail?_suffix {cs rest : List Char} {d : Char} (h : rangeTail? cs = some (d, rest)) :
    rest <:+ cs := by
  obtain ⟨rfl, -⟩ := rangeTail?_eq_some_iff.mp h
  exact (List.suffix_cons _ _).trans (List.suffix_cons _ _)

/-- What follows an atom: the members that it makes, alone or with a second atom after a dash, and
    what is left. `site` is where the atom begins, `start` where the class does. -/
def members (start site : List Char) (item : ClassItem) (rest : List Char) :
    Except Failure (List ClassItem × List Char) :=
  match rangeTail? rest with
  | none => .ok ([item], rest)
  | some (d, more) =>
      match atom d more with
      | none => .error ⟨.unterminatedClass, start, []⟩
      | some (upper, rest) =>
          match item, upper with
          | .char lo, .char hi =>
              if hi < lo then .error ⟨.rangeOutOfOrder, site, rest⟩
              else .ok ([.range lo hi], rest)
          | lower, upper => .ok ([lower, .char '-', upper], rest)

/-- **How the members come about** that begin with an atom: it is one by itself, or a range with a
    second one behind a dash, or the dash and the second one are members as well. -/
theorem members_ok_cases {start site rest left : List Char} {item : ClassItem}
    {found : List ClassItem} (h : members start site item rest = .ok (found, left)) :
    (rangeTail? rest = none ∧ found = [item] ∧ left = rest) ∨
      ∃ d more upper, rest = '-' :: d :: more ∧ d ≠ ']' ∧ atom d more = some (upper, left) ∧
        ((∃ lo hi, item = .char lo ∧ upper = .char hi ∧ lo ≤ hi ∧ found = [.range lo hi]) ∨
          found = [item, .char '-', upper]) := by
  unfold members at h
  split at h
  · rename_i hnone
    obtain ⟨rfl, rfl⟩ := Prod.ext_iff.mp (Except.ok.inj h)
    exact .inl ⟨hnone, rfl, rfl⟩
  · rename_i d more htail
    obtain ⟨rfl, hd⟩ := rangeTail?_eq_some_iff.mp htail
    right
    split at h
    · cases h
    · rename_i upper rest hatom
      split at h
      · rename_i lo hi
        split at h
        · cases h
        · rename_i hle
          obtain ⟨rfl, rfl⟩ := Prod.ext_iff.mp (Except.ok.inj h)
          exact ⟨d, more, _, rfl, hd, hatom, .inl ⟨lo, hi, rfl, rfl, Char.not_lt.mp hle, rfl⟩⟩
      · obtain ⟨rfl, rfl⟩ := Prod.ext_iff.mp (Except.ok.inj h)
        exact ⟨d, more, upper, rfl, hd, hatom, .inr rfl⟩

theorem members_suffix {start site rest left : List Char} {item : ClassItem}
    {found : List ClassItem} (h : members start site item rest = .ok (found, left)) :
    left <:+ rest := by
  rcases members_ok_cases h with ⟨-, -, rfl⟩ | ⟨d, more, upper, rfl, -, hatom, -⟩
  · exact List.suffix_refl _
  · exact ((atom_suffix hatom).trans (List.suffix_cons _ _)).trans (List.suffix_cons _ _)

/-- The members of the class that begins at `start`, and what is left behind its closing bracket. -/
def read (start : List Char) (cs : List Char) : Except Failure (List ClassItem × List Char) :=
  match cs with
  | [] => .error ⟨.unterminatedClass, start, []⟩
  | c :: cs =>
      if c = ']' then .ok ([], cs)
      else
        match _ : atom c cs with
        | none => .error ⟨.unterminatedClass, start, []⟩
        | some (item, rest) =>
            match _ : members start (c :: cs) item rest with
            | .error f => .error f
            | .ok (found, left) =>
                match read start left with
                | .error f => .error f
                | .ok (more, rest) => .ok (found ++ more, rest)
termination_by cs.length
decreasing_by
  have h1 := (atom_suffix ‹atom c cs = some (item, rest)›).length_le
  have h2 := (members_suffix ‹members start (c :: cs) item rest = .ok (found, left)›).length_le
  simp only [List.length_cons]
  omega

/-- **What is left behind a class is an end of the pattern.** -/
theorem read_suffix {start cs rest : List Char} {items : List ClassItem}
    (h : read start cs = .ok (items, rest)) : rest <:+ cs := by
  fun_induction read start cs generalizing items rest with
  | case1 => simp at h
  | case2 =>
    simp only [Except.ok.injEq, Prod.mk.injEq] at h
    obtain rfl := h.2
    exact List.suffix_cons _ _
  | case3 => simp at h
  | case4 => simp at h
  | case5 => simp at h
  | case6 c cs hc item more hatom found left hmembers others rest' hread ih =>
    simp only [Except.ok.injEq, Prod.mk.injEq] at h
    obtain rfl := h.2
    exact (((ih hread).trans (members_suffix hmembers)).trans (atom_suffix hatom)).trans
      (List.suffix_cons c cs)

/-- What one atom makes, alone or with a second one. -/
def piece (start : List Char) (c : Char) (cs : List Char) :
    Except Failure (List ClassItem × List Char) :=
  match atom c cs with
  | none => .error ⟨.unterminatedClass, start, []⟩
  | some (item, rest) => members start (c :: cs) item rest

theorem read_cons {start : List Char} {c : Char} {cs : List Char} (hc : c ≠ ']') :
    read start (c :: cs) =
      match piece start c cs with
      | .error f => .error f
      | .ok (found, left) =>
          match read start left with
          | .error f => .error f
          | .ok (more, rest) => .ok (found ++ more, rest) := by
  rw [read, if_neg hc, piece]
  cases atom c cs with
  | none => rfl
  | some found =>
    simp only
    cases members start (c :: cs) found.1 found.2 <;> rfl

theorem piece_suffix {start cs left : List Char} {c : Char} {found : List ClassItem}
    (h : piece start c cs = .ok (found, left)) : left <:+ cs := by
  unfold piece at h
  split at h
  · simp at h
  · exact (members_suffix h).trans (atom_suffix ‹_›)

/-- A class that is read to its end is one piece and what is read behind it. -/
theorem read_cons_ok {start cs rest : List Char} {c : Char} {items : List ClassItem}
    (hc : c ≠ ']') (h : read start (c :: cs) = .ok (items, rest)) :
    ∃ found left more, piece start c cs = .ok (found, left) ∧
      read start left = .ok (more, rest) ∧ items = found ++ more := by
  rw [read_cons hc] at h
  split at h
  · simp at h
  · rename_i found left hpiece
    split at h
    · simp at h
    · rename_i more rest' hread
      simp only [Except.ok.injEq, Prod.mk.injEq] at h
      obtain ⟨rfl, rfl⟩ := h
      exact ⟨found, left, more, hpiece, hread, rfl⟩

/-- **A class is read one piece after the other.** -/
theorem read_cons_iff {start cs left rest : List Char} {c : Char} {found items : List ClassItem}
    (hc : c ≠ ']') (hpiece : piece start c cs = .ok (found, left)) :
    read start (c :: cs) = .ok (items, rest) ↔
      ∃ others, read start left = .ok (others, rest) ∧ items = found ++ others := by
  constructor
  · intro h
    obtain ⟨found', left', others, hpiece', hread, rfl⟩ := read_cons_ok hc h
    rw [hpiece] at hpiece'
    obtain ⟨rfl, rfl⟩ := Prod.ext_iff.mp (Except.ok.inj hpiece')
    exact ⟨others, hread, rfl⟩
  · rintro ⟨others, hread, rfl⟩
    rw [read_cons hc, hpiece]
    simp only [hread]

end PatternDiagram.ClassBody
