import Mathlib.Control.Lawful
import PatternDiagram.Reading.Source

/-!
# Reading by bytes

A `Reader` holds what is left of a pattern as a list of characters, so it cannot stand within one.
Here a place is a number of bytes, and the pattern is cut there whenever something is read:

* `cut?`: a text cut behind so many bytes. It comes to nothing within a character and behind the
  end; `IsBoundary`: the places where a cut is possible;
* `ByteReader`, `Trial`: a piece of a reading. It comes to nothing as soon as one of its cuts does,
  and also if a loop in it has used up its rounds;
* `Bytes.peek`, `Bytes.advance`, `Bytes.slice` and the like: the smallest pieces, and
  `Bytes.run_peek` and so on: what they come to in front of an end of the pattern.
-/

namespace PatternDiagram

/-! ## 1. Cutting a text -/

/-- The text cut behind so many bytes. There is no cut within a character, and none behind the
    end. -/
def cut? : Nat → List Char → Option (List Char × List Char)
  | 0, cs => some ([], cs)
  | _ + 1, [] => none
  | n + 1, c :: cs =>
      if n + 1 < c.utf8Size then none
      else (cut? (n + 1 - c.utf8Size) cs).map fun (front, rest) => (c :: front, rest)

/-- What lies between two places of a text. -/
def slice? (first behind : Nat) (text : List Char) : Option (List Char) :=
  if behind < first then none
  else (cut? first text).bind fun (_, rest) => (cut? (behind - first) rest).map Prod.fst

/-- A character begins, or the text ends, behind so many bytes. -/
def IsBoundary (text : List Char) (n : Nat) : Prop :=
  ∃ front rest, text = front ++ rest ∧ n = byteLength front

theorem cut?_append (front rest : List Char) :
    cut? (byteLength front) (front ++ rest) = some (front, rest) := by
  induction front with
  | nil => cases rest <;> rfl
  | cons c cs ih =>
    have hpos := c.utf8Size_pos
    obtain ⟨n, hn⟩ : ∃ n, byteLength (c :: cs) = n + 1 := ⟨byteLength (c :: cs) - 1, by simp; omega⟩
    have hsize : ¬ n + 1 < c.utf8Size := by simp at hn; omega
    have hmore : n + 1 - c.utf8Size = byteLength cs := by simp at hn; omega
    rw [hn, List.cons_append, cut?, if_neg hsize, hmore, ih]
    rfl

/-- The sides of a cut make up the text, and the first of them has so many bytes. -/
theorem cut?_eq_some_iff {n : Nat} {text front rest : List Char} :
    cut? n text = some (front, rest) ↔ text = front ++ rest ∧ n = byteLength front := by
  constructor
  · intro h
    fun_induction cut? n text generalizing front with
    | case1 cs =>
      simp only [Option.some.injEq, Prod.mk.injEq] at h
      obtain ⟨rfl, rfl⟩ := h
      exact ⟨rfl, rfl⟩
    | case2 => simp at h
    | case3 => simp at h
    | case4 n c cs hsize ih =>
      obtain ⟨⟨more, rest⟩, hcut, hpair⟩ := Option.map_eq_some_iff.mp h
      simp only [Prod.mk.injEq] at hpair
      obtain ⟨rfl, rfl⟩ := hpair
      obtain ⟨rfl, hn⟩ := ih hcut
      exact ⟨rfl, by rw [byteLength_cons, ← hn]; omega⟩
  · rintro ⟨rfl, rfl⟩
    exact cut?_append front rest

/-- **A cut is possible just on a boundary.** -/
theorem isBoundary_iff {text : List Char} {n : Nat} :
    IsBoundary text n ↔ (cut? n text).isSome := by
  simp [Option.isSome_iff_exists, IsBoundary, cut?_eq_some_iff]

instance (text : List Char) (n : Nat) : Decidable (IsBoundary text n) :=
  decidable_of_iff _ isBoundary_iff.symm

/-- The place in front of what is left of a text, in bytes. -/
def placeOf (text rest : List Char) : Nat := byteLength text - byteLength rest

theorem placeOf_append (front rest : List Char) :
    placeOf (front ++ rest) rest = byteLength front := by
  rw [placeOf, byteLength_append, Nat.add_sub_cancel]

theorem byteLength_eq_zero_iff {cs : List Char} : byteLength cs = 0 ↔ cs = [] := by
  cases cs with
  | nil => simp
  | cons c cs =>
    have hpos := c.utf8Size_pos
    simp only [byteLength_cons, reduceCtorEq, iff_false]
    omega

/-- Behind a piece of a text the place is further on by its length. -/
theorem placeOf_add {text rest : List Char} (middle : List Char) (h : middle ++ rest <:+ text) :
    placeOf text (middle ++ rest) + byteLength middle = placeOf text rest := by
  obtain ⟨front, rfl⟩ := h
  have hbehind : placeOf (front ++ middle ++ rest) rest = byteLength (front ++ middle) :=
    placeOf_append _ rest
  rw [List.append_assoc] at hbehind
  rw [placeOf_append, hbehind, byteLength_append]

theorem placeOf_cons {c : Char} {text rest : List Char} (h : c :: rest <:+ text) :
    placeOf text (c :: rest) + c.utf8Size = placeOf text rest :=
  placeOf_add [c] h

/-- Only behind nothing the place is the same. -/
theorem placeOf_eq_iff {text rest : List Char} (middle : List Char) (h : middle ++ rest <:+ text) :
    placeOf text rest = placeOf text (middle ++ rest) ↔ middle = [] := by
  rw [← placeOf_add middle h, ← byteLength_eq_zero_iff]
  omega

theorem placeOf_inj {text rest left : List Char} (h : rest <:+ text) (hleft : left <:+ rest) :
    placeOf text left = placeOf text rest ↔ left = rest := by
  obtain ⟨middle, rfl⟩ := hleft
  simp [placeOf_eq_iff middle h]

/-- A piece of a text is cut out between the places in front of it and behind it. -/
theorem slice?_between {text middle rest : List Char} (h : middle ++ rest <:+ text) :
    slice? (placeOf text (middle ++ rest)) (placeOf text rest) text = some middle := by
  have hbehind := placeOf_add middle h
  obtain ⟨front, rfl⟩ := h
  have hle : ¬ placeOf (front ++ (middle ++ rest)) rest <
      placeOf (front ++ (middle ++ rest)) (middle ++ rest) := by omega
  rw [slice?, if_neg hle, ← hbehind, Nat.add_sub_cancel_left, placeOf_append, cut?_append]
  simp [cut?_append]

/-- In front of what is left is a boundary. -/
theorem isBoundary_placeOf {text rest : List Char} (h : rest <:+ text) :
    IsBoundary text (placeOf text rest) := by
  obtain ⟨front, rfl⟩ := h
  exact ⟨front, rest, rfl, placeOf_append front rest⟩

/-! ## 2. Pieces of a reading -/

/-- What a reading by bytes goes on with. -/
structure Cursor where
  position : Nat
  naming : Naming

/-- The cursor in front of what is left of a pattern. -/
def Cursor.before (pattern rest : List Char) (naming : Naming) : Cursor :=
  ⟨placeOf pattern rest, naming⟩

/-- A piece of a reading by bytes. -/
abbrev ByteReader (α : Type) := StateT Cursor Option α

/-- A piece that may find a fault. -/
abbrev Trial (α : Type) := ExceptT SyntaxError ByteReader α

namespace Bytes

/-- Nothing more is done. -/
def giveUp {α : Type} : ByteReader α := fun _ => none

/-- The place of the cursor. -/
def position : ByteReader Nat := fun s => some (s.position, s)

/-- Moves the cursor. -/
def goTo (place : Nat) : ByteReader Unit := fun s => some ((), { s with position := place })

/-- The place one byte back. -/
def onePlaceBack : ByteReader Nat := do
  match ← position with
  | 0 => giveUp
  | place + 1 => return place

section

variable (pattern : List Char)

/-- What follows a place. -/
def sliceFrom (place : Nat) : ByteReader (List Char) := fun s =>
  (cut? place pattern).map fun (_, rest) => (rest, s)

/-- What comes before a place. -/
def sliceTo (place : Nat) : ByteReader (List Char) := fun s =>
  (cut? place pattern).map fun (front, _) => (front, s)

/-- What lies between two places. -/
def slice (first behind : Nat) : ByteReader (List Char) := fun s =>
  (slice? first behind pattern).map fun middle => (middle, s)

/-- The character behind the next `n`. -/
def peekNth (n : Nat) : ByteReader (Option Char) := do
  return (← sliceFrom pattern (← position))[n]?

/-- The next character. -/
def peek : ByteReader (Option Char) := do
  return (← sliceFrom pattern (← position)).head?

/-- The next character, and past it. -/
def advance : ByteReader (Option Char) := do
  match ← peek pattern with
  | none => return none
  | some c =>
    goTo ((← position) + c.utf8Size)
    return some c

/-- Past the character, if it is the next one. -/
def eat (c : Char) : ByteReader Bool := do
  if (← peek pattern) = some c then
    let _ ← advance pattern
    return true
  else
    return false

/-- The error of a fault at a place, as someone sees it who has `base` characters more in front. -/
def errorAt (base : Nat) (fault : Fault) (place : Nat) : ByteReader SyntaxError := do
  return ⟨fault, base + (← sliceTo pattern place).length⟩

/-- More rounds than a loop needs that goes past a character in each of them. -/
def rounds : Nat := pattern.length + 1

/-- Past all characters up to the first that is not suitable for its place, within so many
    rounds. -/
def skipWithin (suits : Nat → Char → Bool) : Nat → ByteReader Unit
  | 0 => giveUp
  | n + 1 => do
    match ← peek pattern with
    | none => return ()
    | some c =>
      if suits (← position) c then
        let _ ← advance pattern
        skipWithin suits n
      else
        return ()

/-- Past all characters up to the first that is not suitable for its place. -/
def skipWhile (suits : Nat → Char → Bool) : ByteReader Unit :=
  skipWithin pattern suits (rounds pattern)

end

/-! ## 3. What they come to in front of an end of the pattern -/

/-- What follows a trial is only done without a fault. -/
theorem run_bind {α β : Type} (x : Trial α) (f : α → Trial β) (s : Cursor) :
    (x >>= f).run.run s = (x.run.run s).bind fun
      | (.ok a, s) => (f a).run.run s
      | (.error e, s) => some (.error e, s) := by
  rw [ExceptT.run_bind, StateT.run_bind]
  congr 1
  funext ⟨a, s⟩
  cases a <;> rfl

/-- A trial that begins with something that finds no fault. -/
@[simp] theorem run_lift_bind {α β : Type} (x : ByteReader α) (f : α → Trial β) (s : Cursor) :
    (liftM x >>= f : Trial β).run.run s = (x.run s).bind fun (a, s) => (f a).run.run s := by
  rw [run_bind]
  change (Option.bind (Option.bind (x s) _) _) = _
  cases h : x s <;> simp [StateT.run, h]

variable {pattern rest : List Char} {naming : Naming}

@[simp] theorem position_before (pattern rest : List Char) (naming : Naming) :
    (Cursor.before pattern rest naming).position = placeOf pattern rest := rfl

@[simp] theorem run_position (s : Cursor) : position.run s = some (s.position, s) := rfl

@[simp] theorem run_goTo (left : List Char) :
    (goTo (placeOf pattern left)).run (.before pattern rest naming) =
      some ((), .before pattern left naming) := rfl

theorem run_sliceFrom (h : rest <:+ pattern) (s : Cursor) :
    (sliceFrom pattern (placeOf pattern rest)).run s = some (rest, s) := by
  obtain ⟨front, rfl⟩ := h
  simp [sliceFrom, StateT.run, placeOf_append, cut?_append]

theorem run_sliceTo (front : List Char) (s : Cursor) :
    (sliceTo (front ++ rest) (byteLength front)).run s = some (front, s) := by
  simp [sliceTo, StateT.run, cut?_append]

/-- What has been passed since a place is cut out behind it. -/
theorem run_slice {middle : List Char} (h : middle ++ rest <:+ pattern) (s : Cursor) :
    (slice pattern (placeOf pattern (middle ++ rest)) (placeOf pattern rest)).run s =
      some (middle, s) := by
  simp [slice, StateT.run, slice?_between h]

@[simp] theorem run_peek (h : rest <:+ pattern) :
    (peek pattern).run (.before pattern rest naming) =
      some (rest.head?, .before pattern rest naming) := by
  simp [peek, run_sliceFrom h]

@[simp] theorem run_peekNth (h : rest <:+ pattern) (n : Nat) :
    (peekNth pattern n).run (.before pattern rest naming) =
      some (rest[n]?, .before pattern rest naming) := by
  simp [peekNth, run_sliceFrom h]

@[simp] theorem run_advance_nil :
    (advance pattern).run (.before pattern [] naming) = some (none, .before pattern [] naming) := by
  simp [advance, List.nil_suffix]

@[simp] theorem run_advance_cons {c : Char} (h : c :: rest <:+ pattern) :
    (advance pattern).run (.before pattern (c :: rest) naming) =
      some (some c, .before pattern rest naming) := by
  simp [advance, h, placeOf_cons h]

@[simp] theorem run_eat_cons {c : Char} (h : c :: rest <:+ pattern) :
    (eat pattern c).run (.before pattern (c :: rest) naming) =
      some (true, .before pattern rest naming) := by
  simp [eat, h]

theorem run_eat_of_ne {c : Char} (h : rest <:+ pattern) (hne : ∀ more, rest ≠ c :: more) :
    (eat pattern c).run (.before pattern rest naming) =
      some (false, .before pattern rest naming) := by
  have hhead : rest.head? ≠ some c := by
    intro e
    obtain ⟨more, rfl⟩ := List.head?_eq_some_iff.mp e
    exact hne more rfl
  simp [eat, h, hhead]

/-- One byte back, from behind a character of one byte. -/
theorem run_onePlaceBack {c : Char} (h : c :: rest <:+ pattern) (hc : c.utf8Size = 1)
    (naming : Naming) : onePlaceBack.run (.before pattern rest naming) =
      some (placeOf pattern (c :: rest), .before pattern rest naming) := by
  have hplace : placeOf pattern rest = placeOf pattern (c :: rest) + 1 := by
    rw [← placeOf_cons h, hc]
  simp [onePlaceBack, hplace]

/-- A fault at a place that has been met is counted in characters. -/
theorem run_errorAt {site : List Char} (h : site <:+ pattern) (base : Nat) (fault : Fault)
    (s : Cursor) : (errorAt pattern base fault (placeOf pattern site)).run s =
      some (⟨fault, base + (pattern.length - site.length)⟩, s) := by
  obtain ⟨front, rfl⟩ := h
  simp [errorAt, placeOf_append, run_sliceTo]

/-- What is left of a pattern is not too long for a loop. -/
theorem length_lt_rounds (h : rest <:+ pattern) : rest.length < rounds pattern :=
  Nat.lt_succ_of_le h.length_le

/-- **Skipping comes to an end**, behind all characters that are suitable. The induction is on the
    rounds. -/
theorem run_skipWithin {suits : Nat → Char → Bool} {ok : Char → Bool} {n : Nat}
    (h : rest <:+ pattern) (hn : rest.length < n)
    (hsuits : ∀ c more, c :: more <:+ rest → suits (placeOf pattern (c :: more)) c = ok c)
    (naming : Naming) :
    (skipWithin pattern suits n).run (.before pattern rest naming) =
      some ((), .before pattern (rest.dropWhile ok) naming) := by
  induction n generalizing rest with
  | zero => exact absurd hn (Nat.not_lt_zero _)
  | succ n ih =>
    cases rest with
    | nil => simp [skipWithin, h]
    | cons c rest =>
      have hself : rest <:+ c :: rest := List.suffix_cons c rest
      have hmore := ih (hself.trans h) (Nat.lt_of_succ_lt_succ hn) fun d more hd =>
        hsuits d more (hd.trans hself)
      have hc := hsuits c rest (List.suffix_refl _)
      cases hok : ok c <;> simp [skipWithin, h, hc, hok, hmore]

/-- Skipping characters of a kind, wherever they are. -/
theorem run_skip (ok : Char → Bool) (h : rest <:+ pattern) (naming : Naming) :
    (skipWhile pattern fun _ => ok).run (.before pattern rest naming) =
      some ((), .before pattern (rest.dropWhile ok) naming) :=
  run_skipWithin h (length_lt_rounds h) (fun _ _ _ => rfl) naming

/-- What has been skipped is cut out behind it. -/
theorem run_slice_skipped (ok : Char → Bool) (h : rest <:+ pattern) (s : Cursor) :
    (slice pattern (placeOf pattern rest) (placeOf pattern (rest.dropWhile ok))).run s =
      some (rest.takeWhile ok, s) := by
  have hsplit : rest.takeWhile ok ++ rest.dropWhile ok = rest := List.takeWhile_append_dropWhile
  have hslice := run_slice (hsplit.symm ▸ h) s
  rwa [hsplit] at hslice

/-- Nothing has been skipped if the place is the same. -/
theorem placeOf_skipped_iff (ok : Char → Bool) (h : rest <:+ pattern) :
    placeOf pattern (rest.dropWhile ok) = placeOf pattern rest ↔ rest.takeWhile ok = [] := by
  have hsplit : rest.takeWhile ok ++ rest.dropWhile ok = rest := List.takeWhile_append_dropWhile
  have hiff := placeOf_eq_iff (rest.takeWhile ok) (hsplit.symm ▸ h)
  rwa [hsplit] at hiff

end Bytes

end PatternDiagram
