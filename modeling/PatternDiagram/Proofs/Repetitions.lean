import PatternDiagram.Proofs.Forks
import PatternDiagram.Proofs.Notices
import PatternDiagram.Proofs.Printing
import PatternDiagram.Proofs.Rails

/-!
# What a repetition looks like

A repetition is drawn with a way around its body, with a way from the end of the body back to its
front, and with words below, or without some of them:

* `Shape.ways`, `Shape.words`: the paths and the texts of a style that lie right in a drawing;
* `Quantifier.skips_shape_iff`, `Quantifier.loops_shape_iff`: which bounds have which ways;
* `PathCommand.Passes`: one stroke from a point to another that passes along an edge on its way;
* `Drawing.node_skips_and_loops`: **there is a way around the body just if it may be left out**,
  unless it has to be, and a way back just if it may be met twice;
* `RepeatShape.eq_of_words`: different bounds have different words;
* `Drawing.quantifier_eq_of_drawings`: **a repetition can be read off its drawing**.
-/

namespace PatternDiagram

open Coordinate (ofNat)

/-! ## 1. What lies right in a drawing -/

namespace Shape

variable {α : Type}

/-- The commands of a path of this style. -/
def path? (style : String) : Shape α → Option (List (PathCommand α))
  | .path name commands => if name = style then some commands else none
  | _ => none

/-- The words of a text of this style. -/
def text? (style : String) : Shape α → Option String
  | .text name _ _ _ _ content => if name = style then some content else none
  | _ => none

/-- The paths of a style right in a group. -/
def ways (style : String) (s : Shape α) : List (List (PathCommand α)) :=
  s.children.filterMap (path? style)

/-- The texts of a style right in a group. -/
def words (style : String) (s : Shape α) : List String := s.children.filterMap (text? style)

end Shape

/-! ## 2. Bounds and ways -/

/-- **The bounds of each picture.** -/
theorem Quantifier.shape_cases (q : Quantifier) :
    (q.min = 0 ∧ q.max = some 1 ∧ q.shape = .optional) ∨
    (q.min = 0 ∧ q.max = none ∧ q.shape = .zeroOrMore) ∨
    (q.min = 1 ∧ q.max = none ∧ q.shape = .oneOrMore) ∨
    (2 ≤ q.min ∧ q.max = none ∧ q.shape = .atLeast q.min) ∨
    (q.max = some q.min ∧ q.shape = .exact q.min) ∨
    ∃ n, q.max = some n ∧ q.min ≠ n ∧ ¬ (q.min = 0 ∧ n = 1) ∧ q.shape = .bounded q.min n := by
  obtain ⟨min, max, greedy⟩ := q
  match min, max with
  | 0, none => exact .inr (.inl ⟨rfl, rfl, rfl⟩)
  | 1, none => exact .inr (.inr (.inl ⟨rfl, rfl, rfl⟩))
  | m + 2, none => exact .inr (.inr (.inr (.inl ⟨Nat.le_add_left 2 m, rfl, rfl⟩)))
  | 0, some 1 => exact .inl ⟨rfl, rfl, rfl⟩
  | 0, some 0 => exact .inr (.inr (.inr (.inr (.inl ⟨rfl, rfl⟩))))
  | 0, some (n + 2) =>
    exact .inr (.inr (.inr (.inr (.inr ⟨n + 2, rfl, by simp, by simp, rfl⟩))))
  | m + 1, some n =>
    by_cases h : m + 1 = n
    · subst h
      exact .inr (.inr (.inr (.inr (.inl ⟨rfl, by simp [shape]⟩))))
    · exact .inr (.inr (.inr (.inr (.inr ⟨n, rfl, h, by simp, by simp [shape, h]⟩))))

namespace Quantifier

/-- **There is a way around the body** if it may be left out, but not if it may only be left out. -/
theorem skips_shape_iff (q : Quantifier) :
    q.shape.skips = true ↔ q.min = 0 ∧ q.max ≠ some 0 := by
  rcases q.shape_cases with ⟨hmin, hmax, h⟩ | ⟨hmin, hmax, h⟩ | ⟨hmin, hmax, h⟩ | ⟨hmin, hmax, h⟩ |
    ⟨hmax, h⟩ | ⟨n, hmax, hne, -, h⟩
  all_goals rw [h, hmax]
  all_goals simp [RepeatShape.skips]
  all_goals omega

/-- **There is a way back** if the body may be met twice, but not if the number is fixed. -/
theorem loops_shape_iff {q : Quantifier} (hq : q.Proper) :
    q.shape.loops = true ↔ q.max ≠ some q.min ∧ ∀ n, q.max = some n → 2 ≤ n := by
  rcases q.shape_cases with ⟨hmin, hmax, h⟩ | ⟨hmin, hmax, h⟩ | ⟨hmin, hmax, h⟩ | ⟨hmin, hmax, h⟩ |
    ⟨hmax, h⟩ | ⟨n, hmax, hne, hother, h⟩
  all_goals rw [h, hmax]
  all_goals simp [RepeatShape.loops]
  -- Bounds that differ and are in order leave only one pair below two.
  have hle := hq n hmax
  omega

end Quantifier

/-! ## 3. Strokes along an edge -/

namespace PathCommand

/-- **The commands pass along the edge** from `(x₁, y)` to `(x₂, y)`: in one stroke they lead from
    `p` to `q`, and the edge is one of their straight pieces. -/
structure Passes (p q : Rat × Rat) (x₁ x₂ y : Rat) (commands : List (PathCommand Rat)) : Prop where
  stroke : ∃ rest, commands = .move p.1 p.2 :: rest ∧ ∀ command ∈ rest, command.isMove = false
  ends : (commands.flatMap named).getLast? = some q
  along : ((x₁, y), (x₂, y)) ∈ straights commands

end PathCommand

namespace Drawing

/-- The style of the way around a body. -/
def skipStyle : String := "connector skip"

/-- The style of the way from the end of a body back to its front. -/
def loopStyle : String := "connector loop"

/-- The style of the words below a repetition. -/
def wordsStyle : String := "repeat-label"

section

variable {α : Type} [Coordinate α]

/-- The way around the body, if there is one. -/
def skipWays (q : Quantifier) (content : Box α) : List (List (PathCommand α)) :=
  if q.shape.skips then
    [skipPath (content.x2 + lead q.shape) (content.y - curve) content.ay]
  else []

/-- The way back to the front of the body, if there is one. -/
def loopWays (q : Quantifier) (content : Box α) : List (List (PathCommand α)) :=
  if q.shape.loops then [loopPath content (content.y2 + curve)] else []

/-- Besides its own ways and words, there are only rails, arrow heads and the body right in the
    drawing of a repetition. -/
theorem filterMap_children_repeated {β : Type} (f : Shape α → Option β)
    (hrail : ∀ x₁ x₂ y, f (.rail x₁ x₂ y) = none) (harrow : ∀ x y dir, f (arrow x y dir) = none)
    (hgroup : ∀ s : Shape α, s.IsGroup → f s = none) (c : Config α) (q : Quantifier)
    {body : Placed α} (hbody : body.shape.IsGroup) :
    (repeated c q body).shape.children.filterMap f =
      (skipWays q (settled q body).box).filterMap (fun way => f (.path skipStyle way)) ++
      (loopWays q (settled q body).box).filterMap (fun way => f (.path loopStyle way)) ++
      q.label.toList.filterMap fun label =>
        f (repeatText c q.shape (settled q body).box label) := by
  have hcontent : f (settled q body).shape = none :=
    hgroup _ (hbody.translate (lead q.shape - body.box.x) (ofNat 0))
  have hchildren : (repeated c q body).shape.children = _ ++ [(settled q body).shape] := rfl
  rw [hchildren, List.filterMap_append, List.filterMap_cons_none hcontent, List.filterMap_nil,
    List.append_nil]
  simp only [List.filterMap_append, List.filterMap_map, skipWays, loopWays]
  refine congrArg₂ _ ?_ rfl
  cases q.shape.skips <;> cases q.shape.loops <;> simp [List.filterMap_cons, hrail, harrow] <;> rfl

/-- **A repetition of a group** has its own ways and words right in its drawing, and no others. -/
theorem ways_repeated (c : Config α) (q : Quantifier) {body : Placed α}
    (hbody : body.shape.IsGroup) :
    (repeated c q body).shape.ways skipStyle = skipWays q (settled q body).box ∧
      (repeated c q body).shape.ways loopStyle = loopWays q (settled q body).box ∧
      (repeated c q body).shape.words wordsStyle = q.label.toList := by
  have hpaths (style : String) (hrail : "connector" ≠ style) (harrow : "arrow" ≠ style) :=
    filterMap_children_repeated (α := α) (Shape.path? style) (fun _ _ _ => if_neg hrail)
      (fun _ _ _ => if_neg harrow) (by rintro _ ⟨_, _, _, _, rfl⟩; rfl) c q hbody
  have htexts := filterMap_children_repeated (α := α) (Shape.text? wordsStyle) (fun _ _ _ => rfl)
    (fun _ _ _ => rfl) (by rintro _ ⟨_, _, _, _, rfl⟩; rfl) c q hbody
  refine ⟨(hpaths skipStyle (by decide) (by decide)).trans ?_,
    (hpaths loopStyle (by decide) (by decide)).trans ?_, htexts.trans ?_⟩
  · simp [Shape.path?, skipStyle, loopStyle, repeatText]
  · simp [Shape.path?, skipStyle, loopStyle, repeatText]
  · simp [Shape.text?, wordsStyle, repeatText]

/-- What a walk comes to that nobody calls off shows the ways and the words of the quantifier. -/
theorem ways_of_run {s : Setting α} {q : Quantifier} {body : Node} {w v : Walk}
    {drawing : Placed α} (hw : w.ticket.cancelled = false)
    (hrun : (node s (.repetition q body) : Walking (Placed α)).run w = .ok drawing v) :
    (drawing.shape.ways skipStyle = [] ↔ q.shape.skips = false) ∧
      (drawing.shape.ways loopStyle = [] ↔ q.shape.loops = false) ∧
      drawing.shape.words wordsStyle = q.label.toList := by
  obtain ⟨w', hdrawn⟩ := run_node_drawn s (.repetition q body) hw
  obtain ⟨rfl, -⟩ := EStateM.Result.ok.inj (hrun.symm.trans hdrawn)
  rw [drawn_repetition]
  obtain ⟨hskip, hloop, hwords⟩ := ways_repeated s.config q (isGroup_drawn s body)
  refine ⟨?_, ?_, hwords⟩
  · rw [hskip, skipWays]
    simp
  · rw [hloop, loopWays]
    simp

end

/-! ## 4. Around the body -/

theorem mem_skipWays_iff {q : Quantifier} {content : Box Rat} {way : List (PathCommand Rat)} :
    way ∈ skipWays q content ↔ q.shape.skips = true ∧
      way = skipPath (content.x2 + lead q.shape) (content.y - 10) content.ay := by
  rw [skipWays, curve_rat]
  split <;> simp [*]

theorem mem_loopWays_iff {q : Quantifier} {content : Box Rat} {way : List (PathCommand Rat)} :
    way ∈ loopWays q content ↔ q.shape.loops = true ∧
      way = loopPath content (content.y2 + 10) := by
  rw [loopWays, curve_rat]
  split <;> simp [*]

/-- **The way around** a body that begins twenty behind the front passes above it. -/
theorem passes_skipPath {content : Box Rat} (hx : content.x = 20) :
    PathCommand.Passes (0, content.ay) (content.x2 + 20, content.ay) content.x content.x2
      (content.y - 10) (skipPath (content.x2 + 20) (content.y - 10) content.ay) := by
  refine ⟨⟨_, rfl, by simp [PathCommand.isMove]⟩, rfl, ?_⟩
  simp [skipPath, PathCommand.straights, PathCommand.stop, curve_rat, hx]
  norm_num

/-- **The way back** passes below the body. -/
theorem passes_loopPath (content : Box Rat) :
    PathCommand.Passes (content.ax2, content.ay) (content.ax, content.ay) content.x2 content.x
      (content.y2 + 10) (loopPath content (content.y2 + 10)) := by
  refine ⟨⟨_, rfl, by simp [PathCommand.isMove]⟩, rfl, ?_⟩
  simp [loopPath, PathCommand.straights, PathCommand.stop]

/-- **The ways lead around the body**, which has been put behind the room for them: the one in front
    leads from the beginning of the drawing's axis to its end and passes above the body, and the one
    back leads from the end of the body's axis to its beginning and passes below the body. -/
structure Encircled (drawing content : Placed Rat) : Prop where
  shown : content.shape ∈ drawing.shape.children
  around : ∀ way ∈ drawing.shape.ways skipStyle, ∃ y < content.box.y,
    PathCommand.Passes (drawing.box.ax, drawing.box.ay) (drawing.box.ax2, drawing.box.ay)
      content.box.x content.box.x2 y way
  back : ∀ way ∈ drawing.shape.ways loopStyle, ∃ y > content.box.y2,
    PathCommand.Passes (content.box.ax2, content.box.ay) (content.box.ax, content.box.ay)
      content.box.x2 content.box.x y way

/-- **So it is with every repetition** of a group. -/
theorem encircled_repeated (c : Config Rat) (q : Quantifier) {body : Placed Rat}
    (hbody : body.shape.IsGroup) : Encircled (repeated c q body) (settled q body) := by
  obtain ⟨hskip, hloop, -⟩ := ways_repeated c q hbody
  refine ⟨List.mem_append_right _ (List.mem_singleton_self _), fun way hway => ?_,
    fun way hway => ?_⟩
  · rw [hskip] at hway
    obtain ⟨hskips, rfl⟩ := mem_skipWays_iff.mp hway
    have hlead : lead q.shape = (20 : Rat) := by
      rw [lead, if_pos hskips, Coordinate.ofNat_rat, curve_rat]
      norm_num
    have hx : (settled q body).box.x = 20 := (settled_x q body).trans hlead
    refine ⟨(settled q body).box.y - 10, by linarith, ?_⟩
    have hpasses := passes_skipPath hx
    rw [← hlead] at hpasses
    exact hpasses
  · rw [hloop] at hway
    obtain ⟨-, rfl⟩ := mem_loopWays_iff.mp hway
    exact ⟨(settled q body).box.y2 + 10, by linarith, passes_loopPath (settled q body).box⟩

/-- **What the ways of a repetition say.** Whatever the body, a walk that nobody calls off comes to
    a drawing with a way around the body just if there may be none of it, unless there must be none,
    and with a way back to its front just if the bounds differ and there may be two of it. Over
    exact numbers these ways lead around the body, above and below. -/
theorem node_skips_and_loops {q : Quantifier} (hq : q.Proper) (body : Node) :
    (∀ (α : Type) [Coordinate α] (s : Setting α) (w : Walk), w.ticket.cancelled = false →
      ∃ drawing w', (node s (.repetition q body) : Walking (Placed α)).run w = .ok drawing w' ∧
        (drawing.shape.ways skipStyle ≠ [] ↔ q.min = 0 ∧ q.max ≠ some 0) ∧
        (drawing.shape.ways loopStyle ≠ [] ↔
          q.max ≠ some q.min ∧ ∀ max, q.max = some max → 2 ≤ max)) ∧
    ∀ (s : Setting Rat) (w : Walk), w.ticket.cancelled = false →
      ∃ drawing w' content,
        (node s (.repetition q body) : Walking (Placed Rat)).run w = .ok drawing w' ∧
        Boxed.Moved (drawn s body) content ∧ Encircled drawing content := by
  refine ⟨fun α _ s w hw => ?_, fun s w hw => ?_⟩
  · obtain ⟨w', hrun⟩ := run_node_drawn s (.repetition q body) hw
    obtain ⟨hskip, hloop, -⟩ := ways_of_run hw hrun
    refine ⟨_, w', hrun, ?_, ?_⟩
    · rw [ne_eq, hskip, Bool.not_eq_false, q.skips_shape_iff]
    · rw [ne_eq, hloop, Bool.not_eq_false, Quantifier.loops_shape_iff hq]
  · obtain ⟨w', hrun⟩ := run_node_drawn s (.repetition q body) hw
    refine ⟨_, w', settled q (drawn s body), hrun, moved_settled q _, ?_⟩
    rw [drawn_repetition]
    exact encircled_repeated s.config q (isGroup_drawn s body)

/-- At most three, and perhaps none: a way around a group, and a way back. -/
theorem node_skips_and_loops_of_bounded :
    let s : Setting Rat := ⟨Config.standard, ⟨1, []⟩⟩
    let q : Quantifier := ⟨0, some 3, false⟩
    let body : Node := .group true none (some 1) (.literal .any)
    parse "(.)\x7b0,3\x7d?" = .ok ⟨.repetition q body, {}, s.groups⟩ ∧ q.Proper ∧
    (∃ drawing w', (node s (.repetition q body) : Walking (Placed Rat)).run {} = .ok drawing w' ∧
      drawing.shape.ways skipStyle ≠ [] ∧ drawing.shape.ways loopStyle ≠ []) ∧
    ∃ drawing w' content,
      (node s (.repetition q body) : Walking (Placed Rat)).run {} = .ok drawing w' ∧
      Boxed.Moved (drawn s body) content ∧ Encircled drawing content := by
  intro s q body
  have hparse : parse "(.)\x7b0,3\x7d?" = .ok ⟨.repetition q body, {}, s.groups⟩ := by
    with_unfolding_all rfl
  have hq : q.Proper := by simp [q, Quantifier.Proper]
  obtain ⟨hways, haround⟩ := node_skips_and_loops hq body
  obtain ⟨drawing, w', hrun, hskip, hloop⟩ := hways Rat s {} rfl
  exact ⟨hparse, hq, ⟨drawing, w', hrun, hskip.mpr (by simp [q]), hloop.mpr (by simp [q])⟩,
    haround s {} rfl⟩

/-- **A body that may be left out, and no way around it**: there must be none of it. -/
theorem none_repetition_not_skipped :
    let s : Setting Rat := ⟨Config.standard, {}⟩
    let q : Quantifier := ⟨0, some 0, true⟩
    parse "a\x7b0\x7d" = .ok ⟨.repetition q (.literal (.char 'a')), {}, {}⟩ ∧ q.Proper ∧ q.min = 0 ∧
    ∃ drawing w', (node s (.repetition q (.literal (.char 'a'))) : Walking (Placed Rat)).run {} =
        .ok drawing w' ∧
      drawing.shape.ways skipStyle = [] := by
  intro s q
  have hparse : parse "a\x7b0\x7d" = .ok ⟨.repetition q (.literal (.char 'a')), {}, {}⟩ := by
    with_unfolding_all rfl
  obtain ⟨w', hrun⟩ := run_node_drawn s (.repetition q (.literal (.char 'a'))) (w := {}) rfl
  refine ⟨hparse, by simp [q, Quantifier.Proper], rfl, _, w', hrun, ?_⟩
  rw [drawn_repetition]
  exact (ways_repeated s.config q (isGroup_drawn s (.literal (.char 'a')))).1

end Drawing

/-! ## 5. Words -/

namespace RepeatShape

/-- The number that the words of a repetition begin with, the sign behind it, and what follows. -/
def phrase? : RepeatShape → Option (Nat × Char × String)
  | .exact n => some (n, ' ', if n = 1 then "time" else "times")
  | .bounded min max => some (min, '\u2013', Numeral.decimal max ++ " times")
  | .atLeast min => some (min, '+', " times")
  | .optional | .zeroOrMore | .oneOrMore => none

theorem toList_words (s : RepeatShape) :
    s.words.map String.toList =
      s.phrase?.map fun p => Numeral.write 10 p.1 ++ p.2.1 :: p.2.2.toList := by
  cases s with
  | exact n =>
    simp only [words, phrase?]
    split
    · next h => subst h; rfl
    · simp [Numeral.decimal]
  | bounded min max => simp [words, phrase?, Numeral.decimal]
  | atLeast min => simp [words, phrase?, Numeral.decimal]
  | optional | zeroOrMore | oneOrMore => rfl

/-- The sign is no digit. -/
theorem isDigit_of_phrase? {s : RepeatShape} {n : Nat} {sign : Char} {more : String}
    (h : s.phrase? = some (n, sign, more)) : sign.isDigit = false := by
  cases s with
  | optional | zeroOrMore | oneOrMore => cases h
  | exact m | bounded min max | atLeast min =>
    obtain ⟨-, rfl, -⟩ := by simpa only [phrase?, Option.some.injEq, Prod.mk.injEq] using h
    decide

/-- **One phrase belongs to one shape.** -/
theorem eq_of_phrase? {s t : RepeatShape} {p : Nat × Char × String} (hs : s.phrase? = some p)
    (ht : t.phrase? = some p) : s = t := by
  have h : s.phrase? = t.phrase? := hs.trans ht.symm
  cases s with
  | exact m =>
    cases t with
    | exact n => rw [(Prod.mk.inj (Option.some.inj h)).1]
    | _ => simp [phrase?] at h
  | bounded min max =>
    cases t with
    | bounded min' max' =>
      obtain ⟨hmin, hmax⟩ : min = min' ∧ Numeral.decimal max = Numeral.decimal max' := by
        simpa [phrase?] using h
      rw [hmin, Numeral.decimal_injective hmax]
    | _ => simp [phrase?] at h
  | atLeast min =>
    cases t with
    | atLeast min' => rw [(Prod.mk.inj (Option.some.inj h)).1]
    | _ => simp [phrase?] at h
  | optional | zeroOrMore | oneOrMore => cases hs

/-- **Different shapes have different words.** The number is what can be read of it, and the sign
    behind it says how it is meant. -/
theorem eq_of_words {s t : RepeatShape} {w : String} (hs : s.words = some w)
    (ht : t.words = some w) : s = t := by
  have hphrase {s : RepeatShape} (hs : s.words = some w) :
      ∃ n sign more, s.phrase? = some (n, sign, more) ∧
        w.toList = Numeral.write 10 n ++ sign :: more.toList := by
    have h := s.toList_words
    rw [hs] at h
    obtain ⟨⟨n, sign, more⟩, hp, heq⟩ := Option.map_eq_some_iff.mp h.symm
    exact ⟨n, sign, more, hp, heq.symm⟩
  obtain ⟨m, sign, more, hp, hw⟩ := hphrase hs
  obtain ⟨n, sign', more', hp', hw'⟩ := hphrase ht
  have hread {n : Nat} {sign : Char} {more : String} (hsign : sign.isDigit = false)
      (hw : w.toList = Numeral.write 10 n ++ sign :: more.toList) :
      Token.digits w.toList = Numeral.write 10 n ∧
        Token.afterDigits w.toList = sign :: more.toList := by
    rw [hw]
    exact Token.digits_written n (by simpa using hsign)
  obtain ⟨hdigits, hrest⟩ := hread (isDigit_of_phrase? hp) hw
  obtain ⟨hdigits', hrest'⟩ := hread (isDigit_of_phrase? hp') hw'
  obtain rfl : m = n :=
    Numeral.decimal_injective (congrArg String.ofList (hdigits.symm.trans hdigits'))
  obtain ⟨rfl, hmore⟩ := List.cons.inj (hrest.symm.trans hrest')
  rw [String.toList_injective hmore] at hp
  exact eq_of_phrase? hp hp'

/-- No words say that a repetition is lazy. -/
theorem not_mem_words {s : RepeatShape} {w : String} (h : s.words = some w) : 'z' ∉ w.toList := by
  have hdigits (n : Nat) : 'z' ∉ Numeral.write 10 n := fun hz => by
    have := Token.isDigit_of_mem_write hz
    revert this
    decide
  cases s with
  | exact n =>
    obtain rfl := Option.some.inj h
    split <;> simp [Numeral.decimal, hdigits]
  | bounded min max =>
    obtain rfl := Option.some.inj h
    simp [Numeral.decimal, hdigits]
  | atLeast min =>
    obtain rfl := Option.some.inj h
    simp [Numeral.decimal, hdigits]
  | optional | zeroOrMore | oneOrMore => cases h

/-- **The words below a picture** say whether the repetition is lazy, and the rest is what they say
    of one that is not. -/
theorem words_eq_of_label {s t : RepeatShape} {greedy greedy' : Bool}
    (h : s.label greedy = t.label greedy') : greedy = greedy' ∧ s.words = t.words := by
  have hlazy (s : RepeatShape) : ∃ l, s.label false = some l ∧ 'z' ∈ l.toList := by
    unfold label
    cases s.words <;> simp
  cases greedy with
  | true =>
    cases greedy' with
    | true => exact ⟨rfl, by simpa [label] using h⟩
    | false =>
      obtain ⟨l, hl, hz⟩ := hlazy t
      exact absurd hz (not_mem_words (by simpa [label] using h.trans hl))
  | false =>
    cases greedy' with
    | true =>
      obtain ⟨l, hl, hz⟩ := hlazy s
      exact absurd hz (not_mem_words (by simpa [label] using h.symm.trans hl))
    | false =>
      have hlength (w : String) : "lazy" ≠ w ++ " (lazy)" := fun e => by
        have hcount : "lazy".length = w.length + " (lazy)".length := by
          rw [← String.length_append, ← e]
        have hlazy : "lazy".length = 4 ∧ " (lazy)".length = 7 := ⟨rfl, rfl⟩
        omega
      refine ⟨rfl, ?_⟩
      cases hs : s.words <;> cases ht : t.words
      · rfl
      · simp [label, hs, ht, hlength] at h
      · simp [label, hs, ht, (hlength _).symm] at h
      · simpa [label, hs, ht] using h

/-- **The two ways and the words** make out the shape. -/
theorem eq_of_ways {s t : RepeatShape} (hskips : s.skips = t.skips) (hloops : s.loops = t.loops)
    (hwords : s.words = t.words) : s = t := by
  cases hw : s.words with
  | some w => exact eq_of_words hw (hwords.symm.trans hw)
  | none =>
    -- The three pictures without words differ in their ways.
    have hw' : t.words = none := hwords.symm.trans hw
    revert hskips hloops
    cases s <;> cases hw <;> cases t <;> cases hw' <;> decide

/-- The bounds of a picture. -/
def bounds : RepeatShape → Nat × Option Nat
  | .optional => (0, some 1)
  | .zeroOrMore => (0, none)
  | .oneOrMore => (1, none)
  | .exact n => (n, some n)
  | .bounded min max => (min, some max)
  | .atLeast min => (min, none)

end RepeatShape

/-- A picture has the bounds that it was picked for. -/
theorem Quantifier.bounds_shape (q : Quantifier) : q.shape.bounds = (q.min, q.max) := by
  rcases q.shape_cases with ⟨hmin, hmax, h⟩ | ⟨hmin, hmax, h⟩ | ⟨hmin, hmax, h⟩ | ⟨-, hmax, h⟩ |
    ⟨hmax, h⟩ | ⟨n, hmax, -, -, h⟩
  all_goals simp [RepeatShape.bounds, *]

/-! ## 6. Reading a drawing -/

namespace Drawing

variable {α : Type} [Coordinate α]

/-- **A repetition can be read off its drawing.** If two repetitions, of whatever bodies and drawn
    in whatever settings, both have a way around or both have none, both have a way back or both
    have none, and have the same words below or none, then they have the same bounds, and both are
    lazy or neither is. -/
theorem quantifier_eq_of_drawings {s s' : Setting α} {q q' : Quantifier} {body body' : Node}
    {w w' v v' : Walk} {drawing drawing' : Placed α} (hw : w.ticket.cancelled = false)
    (hw' : w'.ticket.cancelled = false)
    (hrun : (node s (.repetition q body) : Walking (Placed α)).run w = .ok drawing v)
    (hrun' : (node s' (.repetition q' body') : Walking (Placed α)).run w' = .ok drawing' v')
    (hskip : drawing.shape.ways skipStyle = [] ↔ drawing'.shape.ways skipStyle = [])
    (hloop : drawing.shape.ways loopStyle = [] ↔ drawing'.shape.ways loopStyle = [])
    (hwords : drawing.shape.words wordsStyle = drawing'.shape.words wordsStyle) :
    q.min = q'.min ∧ q.max = q'.max ∧ q.greedy = q'.greedy := by
  obtain ⟨hskips, hloops, hlabel⟩ := ways_of_run hw hrun
  obtain ⟨hskips', hloops', hlabel'⟩ := ways_of_run hw' hrun'
  have hlabels : q.label = q'.label := by
    simpa using congrArg List.head? (hlabel.symm.trans (hwords.trans hlabel'))
  obtain ⟨hgreedy, hphrase⟩ := RepeatShape.words_eq_of_label hlabels
  have hbool {b b' : Bool} (h : b = false ↔ b' = false) : b = b' := by
    cases b <;> cases b' <;> simp_all
  have hshape : q.shape = q'.shape := RepeatShape.eq_of_ways
    (hbool (hskips.symm.trans (hskip.trans hskips')))
    (hbool (hloops.symm.trans (hloop.trans hloops'))) hphrase
  have hbounds : (q.min, q.max) = (q'.min, q'.max) := by
    rw [← q.bounds_shape, ← q'.bounds_shape, hshape]
  obtain ⟨hmin, hmax⟩ := Prod.mk.inj hbounds
  exact ⟨hmin, hmax, hgreedy⟩

/-- A group that is met once or more, and a character that is met once or more, drawn in other
    measures: `{1,}?` and `+?` are two ways to write one thing. -/
theorem quantifier_eq_of_drawings_of_lazy :
    let s : Setting Rat := ⟨Config.standard, ⟨1, []⟩⟩
    let s' : Setting Rat := ⟨{ Config.standard with charWidth := 9 }, {}⟩
    let body : Node := .group true none (some 1) .empty
    ∃ q q' drawing drawing' v v',
      parse "()\x7b1,\x7d?" = .ok ⟨.repetition q body, {}, s.groups⟩ ∧
      parse "a+?" = .ok ⟨.repetition q' (.literal (.char 'a')), {}, s'.groups⟩ ∧
      (node s (.repetition q body) : Walking (Placed Rat)).run {} = .ok drawing v ∧
      (node s' (.repetition q' (.literal (.char 'a'))) : Walking (Placed Rat)).run {} =
        .ok drawing' v' ∧
      drawing.shape.words wordsStyle = ["lazy"] ∧
      (q.min = q'.min ∧ q.max = q'.max ∧ q.greedy = q'.greedy) := by
  intro s s' body
  let q : Quantifier := ⟨1, none, false⟩
  have hparse : parse "()\x7b1,\x7d?" = .ok ⟨.repetition q body, {}, s.groups⟩ := by
    with_unfolding_all rfl
  have hparse' : parse "a+?" = .ok ⟨.repetition q (.literal (.char 'a')), {}, s'.groups⟩ := by
    with_unfolding_all rfl
  obtain ⟨v, hrun⟩ := run_node_drawn s (.repetition q body) (w := {}) rfl
  obtain ⟨v', hrun'⟩ := run_node_drawn s' (.repetition q (.literal (.char 'a'))) (w := {}) rfl
  obtain ⟨hskip, hloop, hwords⟩ := ways_of_run rfl hrun
  obtain ⟨hskip', hloop', hwords'⟩ := ways_of_run rfl hrun'
  exact ⟨q, q, _, _, v, v', hparse, hparse', hrun, hrun', hwords,
    quantifier_eq_of_drawings rfl rfl hrun hrun' (hskip.trans hskip'.symm)
      (hloop.trans hloop'.symm) (hwords.trans hwords'.symm)⟩

end Drawing

end PatternDiagram
