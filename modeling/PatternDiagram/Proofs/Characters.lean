import PatternDiagram.Proofs.Documents
import PatternDiagram.Proofs.Names
import PatternDiagram.Proofs.Pictures
import PatternDiagram.Proofs.Styles

/-!
# The characters of a document

A document can only be loaded if all its characters may occur in one: of the control characters
these are the tab, the line feed and the carriage return, and two code points at the end of the
basic plane are excluded as well. Most of what a diagram says is made of other texts than its
source: escapes are shown in words, and the control characters of a class by their numbers. Plain
characters of the pattern are written as they stand.

* `Svg.isLoadable`: the characters that may occur;
* `Svg.loads_element`: the characters of a drawing that matter are those of its texts;
* `ClassItem.loads_source`, `Literal.loads_label`, `Node.loads_legend`: which of the texts of a
  pattern can be loaded;
* `Render.renderSvg_loads_iff`: **a document can be loaded just if every plain character of the
  pattern may occur in one, and every member of a class is a control character or may occur**;
* `Render.renderSvg_not_loadable`: a document that cannot be loaded;
* `Render.document?_renderSvg`: the document of a source is read as its drawing.
-/

namespace PatternDiagram

open Markup (attributeText)

/-! ## 1. Characters -/

namespace Svg

/-- The code points that may occur in a document. -/
def loadableRanges : List CodeRange :=
  [(0x09, 0x0A), (0x0D, 0x0D), (0x20, 0xD7FF), (0xE000, 0xFFFD), (0x10000, 0x10FFFF)]

/-- The character may occur in a document. -/
def isLoadable (c : Char) : Bool := inRanges loadableRanges c.toNat

/-- The characters may occur in a document. -/
def Loads (cs : List Char) : Prop := ∀ c ∈ cs, isLoadable c = true

instance (cs : List Char) : Decidable (Loads cs) := List.decidableBAll _ cs

@[simp] theorem loads_nil : Loads [] := by simp [Loads]

@[simp] theorem loads_cons {c : Char} {cs : List Char} :
    Loads (c :: cs) ↔ isLoadable c = true ∧ Loads cs := by simp [Loads]

@[simp] theorem loads_append {cs ds : List Char} : Loads (cs ++ ds) ↔ Loads cs ∧ Loads ds := by
  simp [Loads, or_imp, forall_and]

@[simp] theorem loads_flatten {css : List (List Char)} :
    Loads css.flatten ↔ ∀ cs ∈ css, Loads cs := by
  induction css with
  | nil => simp
  | cons cs css ih => simp [ih]

/-- The text may occur in a document. -/
def LoadsText (t : String) : Prop := Loads t.toList

instance (t : String) : Decidable (LoadsText t) := inferInstanceAs (Decidable (Loads t.toList))

@[simp] theorem loadsText_ofList {cs : List Char} : LoadsText (String.ofList cs) ↔ Loads cs := by
  rw [LoadsText, String.toList_ofList]

@[simp] theorem loadsText_append {s t : String} :
    LoadsText (s ++ t) ↔ LoadsText s ∧ LoadsText t := by
  simp [LoadsText]

/-- All the texts may occur. -/
def LoadsTexts (texts : List String) : Prop := ∀ t ∈ texts, LoadsText t

theorem loadsTexts_append {ss ts : List String} :
    LoadsTexts (ss ++ ts) ↔ LoadsTexts ss ∧ LoadsTexts ts := List.forall_mem_append

/-- Texts with something between them. -/
theorem loadsText_intercalate {sep : String} (hsep : LoadsText sep) {texts : List String}
    (h : LoadsTexts texts) : LoadsText (sep.intercalate texts) := by
  induction texts with
  | nil => exact fun c hc => by simp at hc
  | cons t ts ih =>
    have ht : LoadsText t := h t List.mem_cons_self
    cases ts with
    | nil => rwa [String.intercalate_singleton]
    | cons u us =>
      rw [String.intercalate_cons_cons, loadsText_append, loadsText_append]
      exact ⟨⟨ht, hsep⟩, ih fun text htext => h text (List.mem_cons_of_mem _ htext)⟩

/-- Every visible character of the basic set may occur. -/
theorem isLoadable_of_visible {c : Char} (hlow : 0x20 ≤ c.toNat) (hhigh : c.toNat < 0x7F) :
    isLoadable c = true := by
  have hrange : InRanges loadableRanges c.toNat := by
    simp only [loadableRanges, inRanges_cons]
    omega
  exact (inRanges_iff _ _).mpr hrange

theorem visible_of_isAlphanum {c : Char} (h : c.isAlphanum = true) :
    0x20 ≤ c.toNat ∧ c.toNat < 0x7F := by
  rw [isAlphanum_iff_toNat] at h
  omega

theorem isLoadable_of_isAlphanum {c : Char} (h : c.isAlphanum = true) : isLoadable c = true :=
  isLoadable_of_visible (visible_of_isAlphanum h).1 (visible_of_isAlphanum h).2

theorem isLoadable_of_isMeasure {c : Char} (h : isMeasure c = true) : isLoadable c = true := by
  rcases Bool.or_eq_true_iff.mp h with h | h
  · exact isLoadable_of_isAlphanum h
  · have hmarks : Loads ['.', '-', ',', ' ', '(', ')'] := by decide
    exact hmarks c (of_decide_eq_true h)

/-- Ranges within ranges. -/
theorem inRanges_of_within {rs qs : List CodeRange} (h : ∀ r ∈ rs, ∃ q ∈ qs, q.1 ≤ r.1 ∧ r.2 ≤ q.2)
    {c : Nat} (hc : inRanges rs c = true) : inRanges qs c = true := by
  obtain ⟨r, hr, hlow, hhigh⟩ := (inRanges_iff _ _).mp hc
  obtain ⟨q, hq, hbelow, habove⟩ := h r hr
  exact (inRanges_iff _ _).mpr ⟨q, hq, hbelow.trans hlow, hhigh.trans habove⟩

/-- Every letter and every number may occur. -/
theorem isLoadable_of_isLetterOrNumber {c : Char} (h : isLetterOrNumber c = true) :
    isLoadable c = true := by
  have hletters : ∀ r ∈ lettersBeyondAscii, ∃ q ∈ loadableRanges, q.1 ≤ r.1 ∧ r.2 ≤ q.2 := by
    decide +kernel
  have hnumbers : ∀ r ∈ numbersBeyondAscii, ∃ q ∈ loadableRanges, q.1 ≤ r.1 ∧ r.2 ≤ q.2 := by
    decide +kernel
  simp only [isLetterOrNumber, isLetter, Bool.or_eq_true] at h
  rcases h with ((h | h) | h) | h
  · exact isLoadable_of_isAlphanum (by simp [Char.isAlphanum, h])
  · exact inRanges_of_within hletters h
  · exact isLoadable_of_isAlphanum (by simp [Char.isAlphanum, h])
  · exact inRanges_of_within hnumbers h

/-- Escaping changes nothing here: what it writes may occur, and what it writes for may occur. -/
theorem loads_escape {s : String} : Loads (escape s) ↔ LoadsText s := by
  have hchar (c : Char) : Loads (escapeChar c) ↔ isLoadable c = true := by
    unfold escapeChar
    split
    · next h => subst h; decide
    split
    · next h => subst h; decide
    split
    · next h => subst h; decide
    split
    · next h => subst h; decide
    · simp
  have hchars (cs : List Char) : Loads (cs.flatMap escapeChar) ↔ Loads cs := by
    induction cs with
    | nil => simp
    | cons c cs ih => rw [List.flatMap_cons, loads_append, hchar, ih, loads_cons]
  exact hchars s.toList

/-! ## 2. Drawings -/

/-- The names of the shapes may occur. -/
def LoadsStyles (styles : List (Option String)) : Prop :=
  ∀ name, some name ∈ styles → LoadsText name

theorem loads_attributes {s : Shape Float}
    (h : ∀ name, s.style? = some name → LoadsText name) :
    ∀ a ∈ s.attributes.map attributeText, Loads a := by
  have hnames : ∀ name ∈ Markup.measureNames, LoadsText name := by decide
  have hattr {name value : String} (hname : LoadsText name) (hvalue : LoadsText value) :
      Loads (attributeText (name, value)) := by
    simp only [attributeText, attr, loads_cons, loads_append, loads_nil]
    exact ⟨by decide, hname, by decide, by decide, hvalue, by decide, trivial⟩
  rw [List.forall_mem_map]
  refine Markup.forall_attributes (fun name hname => hattr (by decide) (h name hname))
    fun name hname cs hcs => hattr (hnames name hname) (loadsText_ofList.mpr ?_)
  exact fun c hc => isLoadable_of_isMeasure (hcs c hc)

theorem loads_emptyTag {name : String} {attributes : List (List Char)} (hname : LoadsText name)
    (h : ∀ a ∈ attributes, Loads a) : Loads (emptyTag name attributes) := by
  simp only [emptyTag, loads_cons, loads_append, loads_flatten, loads_nil]
  exact ⟨by decide, ⟨hname, h⟩, by decide, by decide, trivial⟩

theorem loads_tag {name : String} {attributes : List (List Char)} {content : List Char}
    (hname : LoadsText name) (h : ∀ a ∈ attributes, Loads a) :
    Loads (tag name attributes content) ↔ Loads content := by
  simp only [tag, openTag, closeTag, loads_cons, loads_append, loads_flatten, loads_nil]
  have hmarks : isLoadable '<' = true ∧ isLoadable '>' = true ∧ isLoadable '/' = true := by decide
  have hall : (∀ a ∈ attributes, Loads a) ↔ True := iff_true_intro h
  have hletters : Loads name.toList := hname
  simp [hletters, hall, hmarks]

mutual

/-- **The characters of a drawing that matter are those of its texts**, if its names may occur. -/
theorem loads_element {s : Shape Float} (h : LoadsStyles s.styles) :
    Loads (element s) ↔ LoadsTexts s.texts := by
  have hown : ∀ name, s.style? = some name → LoadsText name := fun name hname =>
    h name (hname ▸ s.style?_mem_styles)
  have hattributes := loads_attributes hown
  cases s with
  | group style dx dy children =>
    have hchildren : LoadsStyles ((Shape.allOf children).map Shape.style?) := fun name hname =>
      h name (List.mem_cons_of_mem _ hname)
    rw [Markup.element_group, loads_tag (by decide) hattributes, loads_elements hchildren,
      Shape.texts_group]
  | rect style x y width height rx =>
    rw [Markup.element_rect]
    simpa [LoadsTexts] using loads_emptyTag (by decide) hattributes
  | circle style cx cy r =>
    rw [Markup.element_circle]
    simpa [LoadsTexts] using loads_emptyTag (by decide) hattributes
  | text style x y width height content =>
    rw [Markup.element_text, loads_tag (by decide) hattributes, loads_escape]
    simp [LoadsTexts]
  | path style commands =>
    rw [Markup.element_path]
    simpa [LoadsTexts] using loads_emptyTag (by decide) hattributes

theorem loads_elements {ss : List (Shape Float)}
    (h : LoadsStyles ((Shape.allOf ss).map Shape.style?)) :
    Loads (elements ss) ↔ LoadsTexts (ss.flatMap Shape.texts) := by
  cases ss with
  | nil => simp [LoadsTexts]
  | cons s ss =>
    have hs : LoadsStyles s.styles := fun name hname =>
      h name (Shape.mem_styles_cons.mpr (.inl hname))
    have hss : LoadsStyles ((Shape.allOf ss).map Shape.style?) := fun name hname =>
      h name (Shape.mem_styles_cons.mpr (.inr hname))
    rw [elements_cons, loads_append, loads_element hs, loads_elements hss, List.flatMap_cons]
    simp only [LoadsTexts, List.forall_mem_append]

end

/-- **So are those of a document.** -/
theorem loads_toSvg (canvas : Canvas Float) {s : Shape Float} (h : LoadsStyles s.styles) :
    LoadsText (canvas.mount s).toSvg ↔ LoadsTexts s.texts := by
  have hsheet : Loads (tag "style" [] styleSheet) := by decide +kernel
  have hattributes : ∀ a ∈ (canvas.mount s).attributes, Loads a := by
    have hnumber (x : Float) : Loads (number x) := fun c hc =>
      isLoadable_of_isMeasure (forall_number x c hc)
    have hquotes : isLoadable '"' = true ∧ isLoadable ' ' = true ∧ isLoadable '=' = true := by
      decide
    simp only [Canvas.attributes, List.forall_mem_cons, attr, loads_cons, loads_append, hnumber,
      hquotes, loads_nil, and_true, true_and]
    decide
  rw [Canvas.toSvg, loadsText_ofList, Canvas.document_eq, loads_append,
    loads_tag (by decide) hattributes, loads_append]
  have helement : Loads (elements (canvas.mount s).drawing.toList) ↔ LoadsTexts s.texts := by
    show Loads (elements [s]) ↔ _
    rw [elements_cons, elements_nil, List.append_nil, loads_element h]
  have hend : Loads ['\n'] := by decide
  simp only [helement, hsheet, hend, true_and, and_true]

end Svg

open Svg (isLoadable Loads LoadsText LoadsTexts)

/-! ## 3. The texts of a pattern -/

/-- Every digit may occur. -/
theorem Numeral.isLoadable_of_isDigit {base : Nat} {c : Char} (h : isDigit base c = true) :
    isLoadable c = true := by
  have hdigit : digit? c ≠ none := fun hnone => by simp [isDigit, hnone] at h
  simp only [digit?, Char.le_def, UInt32.le_iff_toNat_le, Char.toNat_val] at hdigit
  split at hdigit
  · next hc => exact Svg.isLoadable_of_visible (by simp at hc; omega) (by simp at hc; omega)
  split at hdigit
  · next hc => exact Svg.isLoadable_of_visible (by simp at hc; omega) (by simp at hc; omega)
  split at hdigit
  · next hc => exact Svg.isLoadable_of_visible (by simp at hc; omega) (by simp at hc; omega)
  · exact absurd rfl hdigit

theorem Numeral.loads_write {base n : Nat} (hbase : 1 < base) (hsixteen : base ≤ 16) :
    Loads (write base n) :=
  fun _ hc => isLoadable_of_isDigit (isDigit_of_mem_write hbase hsixteen hc)

theorem Numeral.loads_decimal (n : Nat) : LoadsText (decimal n) :=
  Svg.loadsText_ofList.mpr (loads_write (by omega) (by omega))

theorem Numeral.loads_paddedUpper {width n : Nat} : Loads (paddedUpper width 16 n) :=
  fun _ hc => isLoadable_of_isDigit (isDigit_of_mem_paddedUpper (by omega) (by omega) hc)

/-- The name of a group may occur. -/
theorem loads_of_isName {s : String} (h : isName s = true) : LoadsText s := by
  have hcontinues {c : Char} (hc : Token.continuesName c = true) : isLoadable c = true := by
    simp only [Token.continuesName, Bool.or_eq_true, beq_iff_eq] at hc
    rcases hc with (hc | rfl) | rfl
    · exact Svg.isLoadable_of_isLetterOrNumber hc
    · decide
    · decide
  have hstarts {c : Char} (hc : Token.startsName c = true) : isLoadable c = true := by
    simp only [Token.startsName, Bool.or_eq_true, beq_iff_eq] at hc
    rcases hc with (hc | rfl) | rfl
    · exact Svg.isLoadable_of_isLetterOrNumber (isLetterOrNumber_of_isLetter hc)
    · decide
    · decide
  unfold isName at h
  unfold LoadsText
  cases hs : s.toList with
  | nil => simp
  | cons c cs =>
    simp only [hs, Bool.and_eq_true, List.all_eq_true] at h
    exact Svg.loads_cons.mpr ⟨hstarts h.1, fun d hd => hcontinues (h.2 d hd)⟩

theorem loads_quotedRun {cs : List Char} : LoadsText (quotedRun cs) ↔ Loads cs := by
  have hquote : isLoadable '"' = true := by decide
  rw [quotedRun, Svg.loadsText_ofList]
  simp [hquote]

/-- A control character of a class is shown by its number. -/
theorem loads_classChar {c : Char} :
    Loads (classChar c) ↔ isControl c = true ∨ isLoadable c = true := by
  have hbackslash : isLoadable '\\' = true := by decide
  unfold classChar
  split
  · next h =>
    have hmark : isLoadable c = true := by rcases h with rfl | rfl | rfl | rfl <;> decide
    simp [hbackslash, hmark]
  split
  · next h => subst h; decide
  split
  · next h => subst h; decide
  split
  · next h => subst h; decide
  split
  · next h =>
    have hletter : isLoadable 'u' = true := by decide
    simp [hbackslash, hletter, Numeral.loads_paddedUpper, h]
  · next h => simp [h]

/-- What the item says can be shown. -/
def ClassItem.Loadable : ClassItem → Prop
  | .char c => isControl c = true ∨ isLoadable c = true
  | .range lo hi =>
      (isControl lo = true ∨ isLoadable lo = true) ∧ (isControl hi = true ∨ isLoadable hi = true)
  | .escape _ => True

instance : ∀ item : ClassItem, Decidable item.Loadable
  | .char _ => inferInstanceAs (Decidable (_ ∨ _))
  | .range _ _ => inferInstanceAs (Decidable (_ ∧ _))
  | .escape _ => isTrue trivial

theorem ClassItem.loads_source {item : ClassItem} : Loads item.source ↔ item.Loadable := by
  cases item with
  | char c => exact loads_classChar
  | range lo hi =>
    have hdash : isLoadable '-' = true := by decide
    simp [source, Loadable, loads_classChar, hdash]
  | escape e =>
    have hsource : Loads e.source := by cases e <;> decide
    simp [source, Loadable, hsource]

theorem CharacterClass.loads_label {c : CharacterClass} :
    LoadsText c.label ↔ ∀ item ∈ c.items, item.Loadable := by
  have hmarks : isLoadable '[' = true ∧ isLoadable ']' = true := by decide
  have hcaret : Loads (if c.negated then ['^'] else []) := by split <;> decide
  have hitems : Loads (c.items.flatMap ClassItem.source) ↔ ∀ item ∈ c.items, item.Loadable := by
    rw [List.flatMap_def]
    simp [ClassItem.loads_source]
  simp only [label, source, Svg.loadsText_ofList, Svg.loads_cons, Svg.loads_append, Svg.loads_nil,
    hitems, hmarks, hcaret, true_and, and_true]

/-- An escape is shown in words. -/
theorem loads_escapedLabel {value : Char} {form : EscapeForm} (h : form.Denotes value) :
    LoadsText (escapedLabel value form) := by
  cases form with
  | control letter =>
    have hupper : ∀ n, n < 128 → (Char.ofNat n).isAlpha = true →
        isLoadable (Char.ofNat n).toUpper = true := by decide
    have hletter : isLoadable letter.toUpper = true := by
      have hsmall : letter.toNat < 128 := by
        have hvisible := Svg.visible_of_isAlphanum (Bool.or_eq_true_iff.mpr (.inl h.1))
        omega
      rw [← Char.ofNat_toNat letter]
      exact hupper _ hsmall (by rw [Char.ofNat_toNat]; exact h.1)
    have hwords : LoadsText "ctrl-" := by decide
    simp only [escapedLabel, Svg.loadsText_append, Svg.loadsText_ofList, hwords,
      Svg.loads_cons, hletter, Svg.loads_nil, and_self]
  | hex =>
    have hwords : LoadsText "0x" := by decide
    simp only [escapedLabel, Svg.loadsText_append, Svg.loadsText_ofList, hwords,
      Numeral.loads_paddedUpper, and_self]
  | unicode =>
    have hwords : LoadsText "U+" := by decide
    simp only [escapedLabel, Svg.loadsText_append, Svg.loadsText_ofList, hwords,
      Numeral.loads_paddedUpper, and_self]
  | octal =>
    have hwords : LoadsText "octal: " := by decide
    simp only [escapedLabel, Svg.loadsText_append, Svg.loadsText_ofList, hwords,
      true_and]
    exact Numeral.loads_write (by omega) (by omega)
  | _ =>
    simp only [escapedLabel]
    decide

/-- What the literal says can be shown. -/
def Literal.Loadable : Literal → Prop
  | .char c => isLoadable c = true
  | _ => True

instance : ∀ l : Literal, Decidable l.Loadable
  | .char c => inferInstanceAs (Decidable (isLoadable c = true))
  | .any | .set _ | .escaped _ _ => isTrue trivial

theorem Literal.loads_label {l : Literal} (h : l.Proper) : LoadsText l.label ↔ l.Loadable := by
  cases l with
  | char c => simp [label, loads_quotedRun, Loadable]
  | any => exact iff_of_true (by decide) trivial
  | set e => exact iff_of_true (by cases e <;> decide) trivial
  | escaped value form => exact iff_of_true (loads_escapedLabel h) trivial

theorem Anchor.loads_label (a : Anchor) : LoadsText a.label := by cases a <;> decide

theorem Target.loads_label {t : Target} (h : ∀ s, t = .name s → isName s = true) :
    LoadsText t.label := by
  cases t with
  | index n =>
    have hsign : LoadsText "#" := by decide
    simp only [label, Svg.loadsText_append, hsign, Numeral.loads_decimal, and_self]
  | name s =>
    have hquote : LoadsText "\"" := by decide
    simp only [label, Svg.loadsText_append, hquote, loads_of_isName (h s rfl),
      and_self]

theorem Drawing.loads_groupCaption {index : Option Nat} {name : Option String}
    (h : ∀ s, name = some s → isName s = true) : LoadsTexts (groupCaption index name).toList := by
  have hwords : LoadsText "group #" ∧ LoadsText ": " := by decide
  cases index with
  | none => simp [groupCaption, LoadsTexts]
  | some n =>
    cases name with
    | none => simp [groupCaption, LoadsTexts, hwords, Numeral.loads_decimal]
    | some s =>
      simp [groupCaption, LoadsTexts, hwords, Numeral.loads_decimal, loads_of_isName (h s rfl)]

theorem Drawing.loads_lookaroundCaption (d : Direction) (p : Polarity) :
    LoadsText (lookaroundCaption d p) := by
  cases d <;> cases p <;> decide

theorem RepeatShape.loads_words (shape : RepeatShape) : LoadsTexts shape.words.toList := by
  have hwords : LoadsText " times" ∧ LoadsText "+ times" ∧ LoadsText "\u2013" ∧
      LoadsText "1 time" := by decide
  cases shape with
  | exact n =>
    simp only [words]
    split <;> simp [LoadsTexts, hwords, Numeral.loads_decimal]
  | _ => simp [words, LoadsTexts, hwords, Numeral.loads_decimal]

theorem Quantifier.loads_label (q : Quantifier) : LoadsTexts q.label.toList := by
  have hlazy : LoadsText " (lazy)" ∧ LoadsText "lazy" := by decide
  have hshown := q.shape.loads_words
  unfold Quantifier.label RepeatShape.label
  split
  · exact hshown
  · next words hwords _ =>
    rw [hwords] at hshown
    have hfirst : LoadsText words := hshown words (by simp)
    simp [LoadsTexts, hlazy, hfirst]
  · simp [LoadsTexts, hlazy]

theorem Flags.loads_names (f : Flags) : LoadsText (", ".intercalate f.names) := by
  have hall : ∀ name ∈ ["indices", "global", "ignore case", "multiline", "dot all", "unicode",
      "unicode sets", "sticky"], LoadsText name := by decide
  refine Svg.loadsText_intercalate (by decide) fun name hname => hall name ?_
  obtain ⟨⟨set, name'⟩, hmem, hshown⟩ := List.mem_filterMap.mp hname
  obtain rfl : name' = name := by
    cases set with
    | true => exact Option.some.inj hshown
    | false => cases hshown
  exact List.mem_map_of_mem (f := Prod.snd) hmem

/-! ## 4. Trees -/

/-- What the item of a sequence says can be shown. -/
def Saying.Loadable : Saying → Prop
  | .char c => isLoadable c = true
  | .texts ts => LoadsTexts ts

/-- Characters that come together can be shown just if each of them can. -/
theorem Saying.loads_legend_chars (cs : List Char) :
    LoadsTexts (legend (cs.map .char)) ↔ Loads cs := by
  rw [legend_chars]
  cases cs with
  | nil => simp [LoadsTexts]
  | cons c cs => simp [LoadsTexts, loads_quotedRun]

theorem Saying.loads_legend (run : List Char) (ss : List Saying) :
    LoadsTexts (legend (run.map .char ++ ss)) ↔ Loads run ∧ ∀ s ∈ ss, s.Loadable := by
  induction ss generalizing run with
  | nil => simp [loads_legend_chars]
  | cons s ss ih =>
    cases s with
    | char c =>
      have hcollect : run.map Saying.char ++ .char c :: ss = (run ++ [c]).map .char ++ ss := by simp
      rw [hcollect, ih, Svg.loads_append, List.forall_mem_cons]
      simp [Loadable, and_assoc]
    | texts ts =>
      have hothers : LoadsTexts (legend ss) ↔ ∀ s ∈ ss, s.Loadable := by
        simpa using ih []
      rw [legend_append_texts, List.forall_mem_cons, ← hothers, ← loads_legend_chars run]
      simp only [LoadsTexts, List.forall_mem_append, Loadable]

namespace Node

/-- What the root of the tree says can be shown. -/
def Loadable : Node → Prop
  | .literal l => l.Loadable
  | .characterClass c => ∀ item ∈ c.items, item.Loadable
  | _ => True

instance : ∀ x : Node, Decidable x.Loadable
  | .literal l => inferInstanceAs (Decidable l.Loadable)
  | .characterClass c => List.decidableBAll _ c.items
  | .sequence _ | .alternation _ | .group _ _ _ _ | .lookaround _ _ _ => isTrue trivial
  | .repetition _ _ | .anchor _ | .backreference _ => isTrue trivial

mutual

/-- **What a tree says can be shown** just if its plain characters and its classes can. -/
theorem loads_legend : ∀ x : Node, x.Every Sound → (LoadsTexts x.legend ↔ x.Every Loadable)
  | .sequence items, h => by
      rw [every_sequence] at h ⊢
      rw [legend, ← loads_sayings items h.2]
      have hsayings := Saying.loads_legend [] (sayings items)
      simpa [Loadable] using hsayings
  | .alternation branches, h => by
      rw [every_alternation] at h ⊢
      rw [legend, loads_legendAll branches h.2]
      simp [Loadable]
  | .group capturing name index body, h => by
      rw [every_group] at h ⊢
      have hcaption : LoadsTexts (Drawing.groupCaption index name).toList :=
        Drawing.loads_groupCaption fun s hs => by subst hs; exact h.1.1
      rw [legend_group, Svg.loadsTexts_append, ← loads_legend body h.2]
      simp [Loadable, hcaption]
  | .lookaround direction polarity body, h => by
      rw [every_lookaround] at h ⊢
      rw [legend_lookaround, ← loads_legend body h.2]
      simp [LoadsTexts, Loadable, Drawing.loads_lookaroundCaption]
  | .repetition q body, h => by
      rw [every_repetition] at h ⊢
      rw [legend, Svg.loadsTexts_append, ← loads_legend body h.2]
      simp [Loadable, q.loads_label]
  | .characterClass c, _ => by
      rw [every_characterClass, legend]
      simp [LoadsTexts, Loadable, CharacterClass.loads_label]
  | .literal l, h => by
      rw [every_literal] at h ⊢
      rw [legend]
      simp [LoadsTexts, Loadable, Literal.loads_label h.2]
  | .anchor a, _ => by
      rw [every_anchor, legend_anchor]
      simp [LoadsTexts, Loadable, Anchor.loads_label]
  | .backreference t, h => by
      rw [every_backreference] at h ⊢
      have hwords : LoadsText "back reference " := by decide
      have htarget : LoadsText t.label := Target.loads_label fun s hs => by subst hs; exact h.1
      rw [legend_backreference, Drawing.referenceText]
      simp [LoadsTexts, Loadable, hwords, htarget]

theorem loads_legendAll : ∀ xs : List Node, (∀ x ∈ xs, x.Every Sound) →
    (LoadsTexts (legendAll xs) ↔ ∀ x ∈ xs, x.Every Loadable)
  | [], _ => by simp [legendAll, LoadsTexts]
  | x :: xs, h => by
      rw [List.forall_mem_cons] at h ⊢
      rw [legendAll, ← loads_legend x h.1, ← loads_legendAll xs h.2]
      simp only [LoadsTexts, List.forall_mem_append]

theorem loads_sayings : ∀ xs : List Node, (∀ x ∈ xs, x.Every Sound) →
    ((∀ s ∈ sayings xs, s.Loadable) ↔ ∀ x ∈ xs, x.Every Loadable)
  | [], _ => by simp [sayings]
  | x :: xs, h => by
      rw [List.forall_mem_cons] at h ⊢
      rcases x.char_or_not with ⟨c, rfl⟩ | hother
      · rw [sayings, List.forall_mem_cons, loads_sayings xs h.2, every_literal]
        rfl
      · rw [sayings_cons hother, List.forall_mem_cons, loads_sayings xs h.2, ← loads_legend x h.1]
        rfl

end

end Node

/-- **What an expression says can be shown** just if its tree can. -/
theorem Expression.loads_legend {e : Expression} (h : e.root.Every Node.Sound) :
    LoadsTexts e.legend ↔ e.root.Every Node.Loadable := by
  have hflags : LoadsTexts (if e.flags.isEmpty then [] else
      ["Flags: " ++ ", ".intercalate e.flags.names]) := by
    have hwords : LoadsText "Flags: " := by decide
    split <;> simp [LoadsTexts, hwords, Flags.loads_names]
  rw [legend, Svg.loadsTexts_append, Node.loads_legend e.root h]
  simp [hflags]

/-! ## 5. Documents -/

/-- All names in drawings may occur, and can be written as they stand. -/
theorem Drawing.names_plain :
    ∀ name ∈ Drawing.names, LoadsText name ∧ Markup.Plain name.toList := by decide

namespace Render

open Drawing

/-- A picture has the names and the texts of its drawing. -/
theorem picture_eq (c : Config Float) (placed : Placed Float) :
    picture c placed = (Canvas.mk none (picture c placed).width (picture c placed).height).mount
      (placed.shape.translate (c.margin - (bounds placed).x) (c.margin - (bounds placed).y)) := rfl

/-- The document of an expression can be loaded just if what the expression says can be shown. -/
theorem loads_picture (c : Config Float) {e : Expression} (h : e.root.Every Node.Sound) :
    LoadsText (picture c (expression c e : Script (Placed Float)).result).toSvg ↔
      e.root.Every Node.Loadable := by
  let placed := (expression c e : Script (Placed Float)).result
  have hstyles : Svg.LoadsStyles (placed.shape.translate (c.margin - (bounds placed).x)
      (c.margin - (bounds placed).y)).styles := fun name hname =>
    (names_plain name (Shape.uses_translate.mpr (uses_expression c e) name hname)).1
  have htexts : placed.shape.texts = e.legend := texts_expression c e
  rw [picture_eq, Svg.loads_toSvg _ hstyles, Shape.texts_translate, htexts,
    Expression.loads_legend h]

/-- **Which documents can be loaded.** The document of a source consists of characters that may
    occur in one just if the plain characters of the pattern may, and each member of a class, and
    each end of a range, may occur or is a control character. Nothing depends on the names of
    groups, on escapes, on the flags or on the measures. -/
theorem renderSvg_loads_iff {c : Config Float} {source svg : String} {output : RenderOutput Float}
    (h : renderSvg c source = .ok (svg, output)) :
    ∃ e, parse source = .ok e ∧
      ((∀ ch ∈ svg.toList, isLoadable ch = true) ↔ e.root.Every Node.Loadable) := by
  obtain ⟨e, hparse, rfl⟩ := renderSvg_ok h
  exact ⟨e, hparse, loads_picture c (Node.every_sound_of_parse hparse)⟩

/-- A control character in a class, and one that is escaped. -/
theorem renderSvg_loads_iff_of_controls :
    ∃ svg output, renderSvg Config.standard "[\x01]\\cA" = .ok (svg, output) ∧
      ∀ ch ∈ svg.toList, isLoadable ch = true := by
  let e : Expression := ⟨.sequence [.characterClass ⟨false, [.char '\x01']⟩,
    .literal (.escaped '\x01' (.control 'A'))], {}, {}⟩
  have hparse : parse "[\x01]\\cA" = .ok e := by with_unfolding_all rfl
  obtain ⟨output, hrender⟩ := exists_renderSvg Config.standard hparse (by decide +kernel)
  obtain ⟨e', hparse', hiff⟩ := renderSvg_loads_iff hrender
  obtain rfl : e = e' := Except.ok.inj (hparse.symm.trans hparse')
  exact ⟨_, _, hrender, hiff.mpr (by decide)⟩

/-- **A document that cannot be loaded.** The pattern is a control character. In a class the same
    character would be shown by its number. -/
theorem renderSvg_not_loadable :
    ∃ svg output, renderSvg Config.standard "\x01" = .ok (svg, output) ∧
      ∃ ch ∈ svg.toList, isLoadable ch = false := by
  let e : Expression := ⟨.literal (.char '\x01'), {}, {}⟩
  have hparse : parse "\x01" = .ok e := by with_unfolding_all rfl
  obtain ⟨output, hrender⟩ := exists_renderSvg Config.standard hparse (by decide +kernel)
  refine ⟨_, _, hrender, ?_⟩
  have hsound : e.root.Every Node.Sound := Node.every_sound_of_parse hparse
  have hnot : ¬ e.root.Every Node.Loadable := by decide
  have hloads := mt (loads_picture Config.standard hsound).mp hnot
  simpa [LoadsText, Loads] using hloads

/-- **The document of a source is read as its drawing**: it is well-formed, and kinds, names and
    texts of the drawing can be told from it. -/
theorem document?_renderSvg {c : Config Float} {source svg : String} {output : RenderOutput Float}
    (h : renderSvg c source = .ok (svg, output)) :
    ∃ e attributes drawing, parse source = .ok e ∧
      Markup.document? svg =
        some (.element "svg" attributes [Canvas.styleMarkup, drawing]) ∧
      Markup.shape? drawing =
        some (expression c e : Script (Placed Float)).result.shape.outline := by
  obtain ⟨e, hparse, rfl⟩ := renderSvg_ok h
  let placed := (expression c e : Script (Placed Float)).result
  let shown := placed.shape.translate (c.margin - (bounds placed).x) (c.margin - (bounds placed).y)
  have hplain : Markup.PlainStyles shown.styles := fun name hname =>
    (names_plain name (Shape.uses_translate.mpr (uses_expression c e) name hname)).2
  have houtline : shown.outline = placed.shape.outline := Shape.outline_translate ..
  have hdocument := Canvas.document?_toSvg_of_plain
    (Canvas.mk none (picture c placed).width (picture c placed).height) hplain
  exact ⟨e, _, shown.markup, hparse, hdocument, houtline ▸ Markup.shape?_markup shown⟩

end Render

end PatternDiagram
