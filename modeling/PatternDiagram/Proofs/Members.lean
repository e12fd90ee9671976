import PatternDiagram.Proofs.Closings
import PatternDiagram.Proofs.LineFeeds
import PatternDiagram.Proofs.Tokens

/-!
# The members of a class

The text of a class is what stands before its closing bracket, and its members are read off that
text alone:

* `ClassBody.joined`: what two atoms with a dash between them make;
* `ClassBody.Members`: **the members that a text has**, atom by atom;
* `ClassBody.exists_members`, `ClassBody.Members.unique`: the text of a class has members, and only
  these;
* `ClassBody.read_body_iff`: what reading a class comes to, if its text and its members are known;
* `ClassBody.closesBefore_of_read`: without a closing bracket no class is read;
* `Machine.characterClass_next_iff`: **a class is read just if it is closed and its ranges are in
  order**, and then its members are those of its text.
-/

namespace PatternDiagram

namespace ClassBody

/-! ## 1. Members -/

/-- Two atoms with a dash between them: a range if both are characters, and otherwise three members,
    the dash being one of them. -/
def joined : ClassItem → ClassItem → List ClassItem
  | .char lo, .char hi => [.range lo hi]
  | lower, upper => [lower, .char '-', upper]

/-- A dash and a further character. -/
def BeginsPair (cs : List Char) : Prop := ∃ d more, cs = '-' :: d :: more

/-- **The members of a text**, from left to right: an atom makes one member, unless a dash with
    something behind it follows; then the next atom belongs to it. -/
inductive Members : List Char → List ClassItem → Prop where
  | done : Members [] []
  | single {c : Char} {cs rest : List Char} {item : ClassItem} {items : List ClassItem}
      (hatom : atom c cs = some (item, rest)) (hdash : ¬ BeginsPair rest)
      (h : Members rest items) : Members (c :: cs) (item :: items)
  | pair {c d : Char} {cs more rest : List Char} {lower upper : ClassItem}
      {items : List ClassItem} (hlower : atom c cs = some (lower, '-' :: d :: more))
      (hupper : atom d more = some (upper, rest)) (h : Members rest items) :
      Members (c :: cs) (joined lower upper ++ items)

/-- A text has one row of members only. -/
theorem Members.unique {cs : List Char} {items items' : List ClassItem} (h : Members cs items)
    (h' : Members cs items') : items = items' := by
  induction h generalizing items' with
  | done =>
    cases h'
    rfl
  | single hatom hdash _ ih =>
    cases h' with
    | single hatom' _ h' =>
      rw [hatom] at hatom'
      obtain ⟨rfl, rfl⟩ := Prod.ext_iff.mp (Option.some.inj hatom')
      rw [ih h']
    | pair hlower _ _ =>
      rw [hatom] at hlower
      exact absurd ⟨_, _, (Prod.ext_iff.mp (Option.some.inj hlower)).2⟩ hdash
  | pair hlower hupper _ ih =>
    cases h' with
    | single hatom hdash _ =>
      rw [hlower] at hatom
      exact absurd ⟨_, _, (Prod.ext_iff.mp (Option.some.inj hatom)).2.symm⟩ hdash
    | pair hlower' hupper' h' =>
      rw [hlower] at hlower'
      obtain ⟨rfl, rfl, rfl⟩ : _ = _ ∧ _ = _ ∧ _ = _ := by simpa using hlower'
      rw [hupper] at hupper'
      obtain ⟨rfl, rfl⟩ := Prod.ext_iff.mp (Option.some.inj hupper')
      rw [ih h']

/-- A body that is not empty begins with an atom, and is a body behind it. -/
theorem IsBody.atom {c : Char} {cs : List Char} (h : IsBody (c :: cs)) :
    c ≠ ']' ∧ ∃ item rest, ClassBody.atom c cs = some (item, rest) := by
  constructor
  · rintro rfl
    exact not_isBody_bracket cs h
  · by_cases hslash : c = '\\'
    · subst hslash
      cases cs with
      | nil => exact absurd h not_isBody_backslash
      | cons d cs => exact ⟨_, _, rfl⟩
    · exact ⟨.char c, cs, if_neg hslash⟩

theorem IsBody.behind_atom {c : Char} {cs rest : List Char} {item : ClassItem}
    (h : IsBody (c :: cs)) (hatom : ClassBody.atom c cs = some (item, rest)) : IsBody rest :=
  (isBody_of_takes (takes_of_atom h.atom.1 hatom)).mp h

/-- Behind a dash a body goes on as one. -/
theorem IsBody.behind_dash {cs : List Char} (h : IsBody ('-' :: cs)) : IsBody cs :=
  (isBody_char cs (by decide) (by decide)).mp h

/-- **The text of a class has members.** The induction is on how long it is, since an atom takes
    more than the first character. -/
theorem exists_members {body : List Char} (h : IsBody body) : ∃ items, Members body items := by
  induction hn : body.length using Nat.strongRecOn generalizing body with
  | ind n ih =>
  subst hn
  cases body with
  | nil => exact ⟨[], .done⟩
  | cons c cs =>
    obtain ⟨-, item, rest, hatom⟩ := h.atom
    have hrest := h.behind_atom hatom
    have hlength := (atom_suffix hatom).length_le
    by_cases hdash : BeginsPair rest
    · obtain ⟨d, more, rfl⟩ := hdash
      obtain ⟨-, upper, rest', hupper⟩ := hrest.behind_dash.atom
      have hlength' := (atom_suffix hupper).length_le
      simp only [List.length_cons] at hlength
      have hshort : rest'.length < (c :: cs).length := by
        simp only [List.length_cons]
        omega
      obtain ⟨items, hitems⟩ := ih _ hshort (hrest.behind_dash.behind_atom hupper) rfl
      exact ⟨_, .pair hatom hupper hitems⟩
    · obtain ⟨items, hitems⟩ := ih _ (Nat.lt_succ_of_le hlength) hrest rfl
      exact ⟨_, .single hatom hdash hitems⟩

/-! ## 2. One piece -/

/-- The dash before the closing bracket begins nothing. -/
theorem rangeTail?_bracket {cs : List Char} (tail : List Char) (h : ¬ BeginsPair cs) :
    rangeTail? (cs ++ ']' :: tail) = none := by
  cases htail : rangeTail? (cs ++ ']' :: tail) with
  | none => rfl
  | some found =>
    obtain ⟨hcs, hne⟩ := rangeTail?_eq_some_iff.mp htail
    match cs with
    | [] => exact absurd (List.cons.inj hcs).1 (by decide)
    | [e] => exact absurd (List.cons.inj (List.cons.inj hcs).2).1.symm hne
    | e :: f :: more =>
      obtain ⟨rfl, -⟩ := List.cons.inj hcs
      exact absurd ⟨f, more, rfl⟩ h

section

variable {start site tail left : List Char} {c d : Char} {cs more : List Char}

theorem piece_single {item : ClassItem} (hatom : atom c cs = some (item, left))
    (hdash : ¬ BeginsPair left) :
    piece start c (cs ++ ']' :: tail) = .ok ([item], left ++ ']' :: tail) := by
  rw [piece, atom_append tail hatom]
  simp only [members, rangeTail?_bracket tail hdash]

/-- Atoms with a dash between them are joined. If this gives a range, it has to be in order. -/
theorem members_pair {lower upper : ClassItem} (hlower : lower.Proper) (hd : d ≠ ']')
    (hupper : atom d more = some (upper, left)) :
    members start site lower ('-' :: d :: more) =
      if ∀ i ∈ joined lower upper, i.Proper then .ok (joined lower upper, left)
      else .error ⟨.rangeOutOfOrder, site, left⟩ := by
  have htail : rangeTail? ('-' :: d :: more) = some (d, more) :=
    rangeTail?_eq_some_iff.mpr ⟨rfl, hd⟩
  have hthree (h : joined lower upper = [lower, .char '-', upper]) :
      ∀ i ∈ joined lower upper, i.Proper := by
    rw [h]
    simp only [List.forall_mem_cons]
    exact ⟨hlower, trivial, atom_proper hupper, by simp⟩
  simp only [members, htail, hupper]
  cases lower with
  | char lo =>
    cases upper with
    | char hi =>
      simp only [joined, List.forall_mem_singleton, ClassItem.Proper]
      by_cases hlt : hi < lo
      · rw [if_pos hlt, if_neg (Char.not_le.mpr hlt)]
      · rw [if_neg hlt, if_pos (Char.not_lt.mp hlt)]
    | range lo hi => exact (if_pos (hthree rfl)).symm
    | escape e => exact (if_pos (hthree rfl)).symm
  | range lo hi => exact (if_pos (hthree rfl)).symm
  | escape e => exact (if_pos (hthree rfl)).symm

theorem piece_pair (start tail : List Char) {lower upper : ClassItem}
    (hlower : atom c cs = some (lower, '-' :: d :: more)) (hd : d ≠ ']')
    (hupper : atom d more = some (upper, left)) :
    piece start c (cs ++ ']' :: tail) =
      if ∀ i ∈ joined lower upper, i.Proper then .ok (joined lower upper, left ++ ']' :: tail)
      else .error ⟨.rangeOutOfOrder, c :: (cs ++ ']' :: tail), left ++ ']' :: tail⟩ := by
  rw [piece, atom_append tail hlower]
  exact members_pair (atom_proper hlower) hd (atom_append tail hupper)

end

/-! ## 3. The whole class -/

/-- **What reading a class comes to**: its members are those of its text, if the ranges among them
    are in order. The induction is on the members. -/
theorem read_body_iff {start body tail rest : List Char} {items found : List ClassItem}
    (hbody : IsBody body) (h : Members body items) :
    read start (body ++ ']' :: tail) = .ok (found, rest) ↔
      found = items ∧ rest = tail ∧ ∀ i ∈ items, i.Proper := by
  induction h generalizing found with
  | done =>
    rw [List.nil_append, read, if_pos rfl]
    simp [eq_comm]
  | @single c cs left item items hatom hdash _ ih =>
    rw [List.cons_append, read_cons_iff hbody.atom.1 (piece_single hatom hdash)]
    simp only [ih (hbody.behind_atom hatom), List.forall_mem_cons, atom_proper hatom, true_and]
    constructor
    · rintro ⟨others, ⟨rfl, rfl, hall⟩, rfl⟩
      exact ⟨rfl, rfl, hall⟩
    · rintro ⟨rfl, rfl, hall⟩
      exact ⟨items, ⟨rfl, rfl, hall⟩, rfl⟩
  | @pair c d cs more left lower upper items hlower hupper _ ih =>
    have hc := hbody.atom.1
    have hmore := (hbody.behind_atom hlower).behind_dash
    have hpiece := piece_pair start tail hlower hmore.atom.1 hupper
    rw [List.cons_append, List.forall_mem_append]
    by_cases hjoined : ∀ i ∈ joined lower upper, i.Proper
    · rw [if_pos hjoined] at hpiece
      rw [read_cons_iff hc hpiece]
      simp only [ih (hmore.behind_atom hupper)]
      constructor
      · rintro ⟨others, ⟨rfl, rfl, hall⟩, rfl⟩
        exact ⟨rfl, rfl, hjoined, hall⟩
      · rintro ⟨rfl, rfl, -, hall⟩
        exact ⟨items, ⟨rfl, rfl, hall⟩, rfl⟩
    · rw [if_neg hjoined] at hpiece
      constructor
      · intro hread
        obtain ⟨found', left', others, hpiece', -, -⟩ := read_cons_ok hc hread
        rw [hpiece] at hpiece'
        cases hpiece'
      · rintro ⟨-, -, hall, -⟩
        exact absurd hall hjoined

/-- **Without a closing bracket no class is read.** The induction is on what the reader does. -/
theorem closesBefore_of_read {start cs rest : List Char} {items : List ClassItem}
    (h : read start cs = .ok (items, rest)) : ClosesBefore rest cs := by
  fun_induction read start cs generalizing items rest with
  | case1 => cases h
  | case2 cs =>
    obtain ⟨-, rfl⟩ := Prod.ext_iff.mp (Except.ok.inj h)
    exact closesBefore_bracket cs
  | case3 => cases h
  | case4 => cases h
  | case5 => cases h
  | case6 c cs hc item more hatom found left hmembers others rest' hread ih =>
    obtain ⟨-, rfl⟩ := Prod.ext_iff.mp (Except.ok.inj h)
    rw [closesBefore_of_takes rest' (takes_of_atom hc hatom)]
    rcases members_ok_cases hmembers with ⟨-, -, rfl⟩ | ⟨d, more', upper, rfl, hd, hupper, -⟩
    · exact ih hread
    · rw [closesBefore_char rest' _ (by decide) (by decide),
        closesBefore_of_takes rest' (takes_of_atom hd hupper)]
      exact ih hread

/-- **A class is read just if it is closed and its ranges are in order.** -/
theorem read_eq_ok_iff {start cs rest : List Char} {items : List ClassItem} :
    read start cs = .ok (items, rest) ↔
      ∃ body, cs = body ++ ']' :: rest ∧ IsBody body ∧ Members body items ∧
        ∀ i ∈ items, i.Proper := by
  constructor
  · intro h
    obtain ⟨body, rfl, hbody⟩ := closesBefore_of_read h
    obtain ⟨members, hmembers⟩ := exists_members hbody
    obtain ⟨rfl, -, hall⟩ := (read_body_iff hbody hmembers).mp h
    exact ⟨body, rfl, hbody, hmembers, hall⟩
  · rintro ⟨body, rfl, hbody, hmembers, hall⟩
    exact (read_body_iff hbody hmembers).mpr ⟨rfl, rfl, hall⟩

end ClassBody

theorem forall_proper_iff {items : List ClassItem} :
    (∀ i ∈ items, i.Proper) ↔ ∀ lo hi, .range lo hi ∈ items → lo ≤ hi := by
  constructor
  · intro h lo hi hmem
    exact h _ hmem
  · intro h i hmem
    cases i with
    | range lo hi => exact h lo hi hmem
    | _ => trivial

/-! ## 4. Classes in a pattern -/

open ClassBody in
/-- **When a character class is read, and as what.** It has to have a closing bracket, the first one
    behind an even number of backslashes, and no range in front of that bracket may be out of order;
    reading goes on directly behind it. The members are those of the text between the brackets,
    which are determined by it. A bracket that comes first closes a class without members. -/
theorem Machine.characterClass_next_iff (m : Machine) (negated : Bool) (text : List Char) :
    (∀ after, m.characterClass negated text = .next after ↔
      ∃ body rest items, text = body ++ ']' :: rest ∧ IsBody body ∧ Members body items ∧
        (∀ lo hi, .range lo hi ∈ items → lo ≤ hi) ∧
        after = m.push (.characterClass ⟨negated, items⟩) rest) ∧
    (∀ body, IsBody body → ∃! items, Members body items) ∧
    ∀ rest, m.characterClass negated (']' :: rest) =
      .next (m.push (.characterClass ⟨negated, []⟩) rest) := by
  refine ⟨?_, ?_, ?_⟩
  · intro after
    constructor
    · intro h
      unfold characterClass at h
      split at h
      · cases h
      · rename_i items rest hread
        obtain ⟨body, rfl, hbody, hmembers, hall⟩ := read_eq_ok_iff.mp hread
        exact ⟨body, rest, items, rfl, hbody, hmembers, forall_proper_iff.mp hall,
          (Step.next.inj h).symm⟩
    · rintro ⟨body, rest, items, rfl, hbody, hmembers, hall, rfl⟩
      have hread : ClassBody.read m.rest (body ++ ']' :: rest) = .ok (items, rest) :=
        read_eq_ok_iff.mpr ⟨body, rfl, hbody, hmembers, forall_proper_iff.mpr hall⟩
      rw [characterClass, hread]
  · intro body hbody
    obtain ⟨items, hitems⟩ := exists_members hbody
    exact ⟨items, hitems, fun others hothers => hothers.unique hitems⟩
  · intro rest
    have hread : ClassBody.read m.rest (']' :: rest) = .ok ([], rest) :=
      read_eq_ok_iff.mpr ⟨[], rfl, isBody_nil, .done, by simp⟩
    rw [characterClass, hread]

open ClassBody in
/-- A class with an escaped bracket at the lower end of a range, a named set at that of another
    dash, a control letter that is missing, and a dash before the closing bracket. -/
theorem Machine.characterClass_next_iff_of_escapes :
    IsBody "\\]-a\\d-z\\c-".toList ∧
      Members "\\]-a\\d-z\\c-".toList
        [.range ']' 'a', .escape .digit, .char '-', .char 'z', .char '\\', .char 'c', .char '-'] ∧
      (start {} "[\\]-a\\d-z\\c-]]".toList).characterClass false "\\]-a\\d-z\\c-]]".toList =
        .next ((start {} "[\\]-a\\d-z\\c-]]".toList).push (.characterClass ⟨false,
          [.range ']' 'a', .escape .digit, .char '-', .char 'z', .char '\\', .char 'c',
            .char '-']⟩) [']']) := by
  have hbody : IsBody "\\]-a\\d-z\\c-".toList := by
    have hchar (c : Char) (cs : List Char) (hslash : c ≠ '\\') (hbracket : c ≠ ']')
        (h : IsBody cs) : IsBody (c :: cs) := (isBody_char cs hslash hbracket).mpr h
    have hescape (d : Char) (cs : List Char) (h : IsBody cs) : IsBody ('\\' :: d :: cs) :=
      (isBody_escape d cs).mpr h
    refine hescape ']' _ (hchar '-' _ ?_ ?_ (hchar 'a' _ ?_ ?_ (hescape 'd' _
      (hchar '-' _ ?_ ?_ (hchar 'z' _ ?_ ?_ (hescape 'c' _ (hchar '-' _ ?_ ?_ isBody_nil)))))))
    all_goals decide
  have hmembers : Members "\\]-a\\d-z\\c-".toList
      [.range ']' 'a', .escape .digit, .char '-', .char 'z', .char '\\', .char 'c', .char '-'] := by
    have hdash (d : Char) : ¬ BeginsPair [d] := by simp [BeginsPair]
    have hletter (d : Char) (rest : List Char) (hd : d ≠ '-') : ¬ BeginsPair (d :: rest) := by
      rintro ⟨e, more, h⟩
      exact hd (List.cons.inj h).1
    have hend : Members "\\c-".toList [.char '\\', .char 'c', .char '-'] :=
      .single rfl (hletter 'c' _ (by decide)) (.single rfl (hdash '-')
        (.single rfl (by simp [BeginsPair]) .done))
    have hset : Members "\\d-z\\c-".toList (joined (.escape .digit) (.char 'z') ++ _) :=
      .pair rfl rfl hend
    have hrange : Members "\\]-a\\d-z\\c-".toList (joined (.char ']') (.char 'a') ++ _) :=
      .pair rfl rfl hset
    exact hrange
  refine ⟨hbody, hmembers, ?_⟩
  exact ((characterClass_next_iff _ _ _).1 _).mpr ⟨_, _, _, rfl, hbody, hmembers, by simp, rfl⟩

end PatternDiagram
