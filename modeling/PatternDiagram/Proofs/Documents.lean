import PatternDiagram.Proofs.Markup

/-!
# Documents are read as what they show

* `Svg.forall_number`: what a number consists of;
* `Shape.markup`: the elements of a drawing, its numbers as the text that stands for them;
* `Shape.outline`, `Markup.shape?`: a drawing without its numbers, and how it is told from elements;
* `Markup.read_element`: the reader makes of a drawing the elements of the drawing;
* `Shape.retext`, `Markup.frame`: other texts in the same drawing, and the elements without texts;
* `Canvas.document?_toSvg`: **a document is read as the drawing that is on the canvas**, and no text
  in it, whatever it says, is taken for anything but a text.
-/

namespace PatternDiagram

open Markup (Head Plain Fit IsName)

/-! ## 1. Numbers -/

namespace Svg

/-- The characters of numbers, and of what is written around them. -/
def isMeasure (c : Char) : Bool := c.isAlphanum || c ∈ ['.', '-', ',', ' ', '(', ')']

theorem isMeasure_of_isDigit {c : Char} (h : c.isDigit = true) : isMeasure c = true := by
  simp [isMeasure, Char.isAlphanum, h]

theorem forall_write (places : Nat) (f : Binary.Fraction) :
    ∀ c ∈ Fixed.write places f, isMeasure c = true := by
  intro c hc
  have hdigit : ∀ n, ∀ d ∈ Numeral.padded (places + 1) 10 n, isMeasure d = true := by
    intro n d hd
    rcases List.mem_append.mp hd with hd | hd
    · rw [List.eq_of_mem_replicate hd]
      decide
    · exact isMeasure_of_isDigit (Nat.isDigit_of_mem_toDigits (by omega) (by omega) hd)
  unfold Fixed.write Fixed.pointed at hc
  split at hc
  · exact hdigit _ c (List.mem_of_mem_take hc)
  · rcases List.mem_append.mp hc with hc | hc
    · exact hdigit _ c (List.mem_of_mem_take hc)
    · rcases List.mem_cons.mp hc with rfl | hc
      · decide
      · exact hdigit _ c (List.mem_of_mem_drop hc)

theorem forall_magnitude (f : Binary.Fraction) : ∀ c ∈ magnitude f, isMeasure c = true := by
  intro c hc
  unfold magnitude at hc
  split at hc
  · exact forall_write _ _ c hc
  · have hmem := (List.dropWhile_suffix _).mem (List.mem_reverse.mp hc)
    exact forall_write _ _ c (List.mem_reverse.mp hmem)

/-- **What a number consists of**, whichever it is. -/
theorem forall_number (x : Float) : ∀ c ∈ number x, isMeasure c = true := by
  unfold number
  cases Binary.ofFloat x with
  | nan => exact List.all_eq_true.mp (by decide)
  | infinite negative => cases negative <;> exact List.all_eq_true.mp (by decide)
  | finite negative m q =>
    intro c hc
    rcases List.mem_append.mp hc with hc | hc
    · cases negative with
      | true => exact List.mem_singleton.mp hc ▸ by decide
      | false => cases hc
    · exact forall_magnitude _ c hc

theorem forall_point (x y : Float) : ∀ c ∈ point x y, isMeasure c = true := by
  rw [point, List.forall_mem_append, List.forall_mem_cons]
  exact ⟨forall_number x, by decide, forall_number y⟩

theorem forall_pathCommand (p : PathCommand Float) : ∀ c ∈ pathCommand p, isMeasure c = true := by
  cases p with
  | move x y => exact List.forall_mem_cons.mpr ⟨by decide, forall_point x y⟩
  | line x y => exact List.forall_mem_cons.mpr ⟨by decide, forall_point x y⟩
  | curve cx cy x y =>
    rw [pathCommand, List.forall_mem_cons, List.forall_mem_append, List.forall_mem_cons]
    exact ⟨by decide, forall_point cx cy, by decide, forall_point x y⟩

theorem forall_pathData (commands : List (PathCommand Float)) :
    ∀ c ∈ pathData commands, isMeasure c = true := by
  induction commands with
  | nil => simp [pathData]
  | cons p ps ih =>
    cases ps with
    | nil => simpa [pathData] using forall_pathCommand p
    | cons q qs =>
      have hcons : pathData (p :: q :: qs) = pathCommand p ++ ' ' :: pathData (q :: qs) := by
        simp [pathData, List.intercalate]
      rw [hcons, List.forall_mem_append, List.forall_mem_cons]
      exact ⟨forall_pathCommand p, by decide, ih⟩

/-- Nothing in a number is taken for the end of its attribute. -/
theorem plain_of_isMeasure {cs : List Char} (h : ∀ c ∈ cs, isMeasure c = true) : Plain cs := by
  intro c hc
  refine ⟨?_, ?_, ?_⟩ <;> rintro rfl <;> exact absurd (h _ hc) (by decide)

end Svg

/-! ## 2. The elements of a drawing -/

namespace Shape

/-- A number as the text of an attribute. -/
def numberText (x : Float) : String := String.ofList (Svg.number x)

/-- The attributes of the element of a shape. -/
def attributes : Shape Float → List (String × String)
  | .group style dx dy _ =>
      (style.toList.map fun s => ("class", s)) ++
        (if dx != 0 || dy != 0 then
          [("transform", String.ofList
            ("translate(".toList ++ Svg.number dx ++ ' ' :: (Svg.number dy ++ [')'])))]
        else [])
  | .rect style x y width height rx =>
      [("class", style), ("x", numberText x), ("y", numberText y), ("width", numberText width),
        ("height", numberText height), ("rx", numberText rx)]
  | .circle style cx cy r =>
      [("class", style), ("cx", numberText cx), ("cy", numberText cy), ("r", numberText r)]
  | .text style x y _ height _ =>
      [("class", style), ("x", numberText x), ("y", numberText (Svg.baseline y height))]
  | .path style commands => [("class", style), ("d", String.ofList (Svg.pathData commands))]

mutual

/-- The element of a shape. -/
def markup : Shape Float → Markup
  | .group style dx dy children =>
      .element "g" (group style dx dy children).attributes (markups children)
  | .rect style x y width height rx =>
      .element "rect" (rect style x y width height rx).attributes []
  | .circle style cx cy r => .element "circle" (circle style cx cy r).attributes []
  | .text style x y width height content =>
      .element "text" (text style x y width height content).attributes
        (Markup.texts content.toList)
  | .path style commands => .element "path" (path style commands).attributes []

/-- The elements of several shapes. -/
def markups : List (Shape Float) → List Markup
  | [] => []
  | s :: ss => s.markup :: markups ss

end

mutual

/-- The shape without its numbers. -/
def outline {α : Type} : Shape α → Shape Unit
  | .group style _ _ children => .group style () () (outlines children)
  | .rect style .. => .rect style () () () () ()
  | .circle style .. => .circle style () () ()
  | .text style _ _ _ _ content => .text style () () () () content
  | .path style _ => .path style []

/-- The shapes without their numbers. -/
def outlines {α : Type} : List (Shape α) → List (Shape Unit)
  | [] => []
  | s :: ss => s.outline :: outlines ss

end

/-- A shape that is moved differs in its numbers only. -/
theorem outline_translate {α : Type} [Coordinate α] (dx dy : α) (s : Shape α) :
    (s.translate dx dy).outline = s.outline := by
  cases s <;> simp [translate, outline]

mutual

/-- The shape with other texts in it. -/
def retext {α : Type} (f : String → String) : Shape α → Shape α
  | .group style dx dy children => .group style dx dy (retexts f children)
  | .rect style x y width height rx => .rect style x y width height rx
  | .circle style cx cy r => .circle style cx cy r
  | .text style x y width height content => .text style x y width height (f content)
  | .path style commands => .path style commands

/-- The shapes with other texts in them. -/
def retexts {α : Type} (f : String → String) : List (Shape α) → List (Shape α)
  | [] => []
  | s :: ss => s.retext f :: retexts f ss

end

mutual

/-- Other texts leave the names of the shapes alone. -/
theorem styles_retext {α : Type} (f : String → String) (s : Shape α) :
    (s.retext f).styles = s.styles := by
  cases s with
  | group style dx dy children =>
    simp only [retext, styles, all, List.map_cons, styles_retexts f children]
    rfl
  | _ => rfl

theorem styles_retexts {α : Type} (f : String → String) (ss : List (Shape α)) :
    (allOf (retexts f ss)).map style? = (allOf ss).map style? := by
  cases ss with
  | nil => rfl
  | cons s ss =>
    simp only [retexts, allOf, List.map_append, styles_retexts f ss]
    exact congrArg (· ++ _) (styles_retext f s)

end

end Shape

/-! ## 3. The drawing told from its elements -/

namespace Markup

mutual

/-- The shape that an element stands for, without its numbers. -/
def shape? : Markup → Option (Shape Unit)
  | .element "g" as children => (shapes? children).map (.group (as.lookup "class") () ())
  | .element "rect" as [] => (as.lookup "class").map (.rect · () () () () ())
  | .element "circle" as [] => (as.lookup "class").map (.circle · () () ())
  | .element "text" as [] => (as.lookup "class").map (.text · () () () () "")
  | .element "text" as [.text content] => (as.lookup "class").map (.text · () () () () content)
  | .element "path" as [] => (as.lookup "class").map (.path · [])
  | _ => none

/-- The shapes that elements stand for. -/
def shapes? : List Markup → Option (List (Shape Unit))
  | [] => some []
  | m :: ms => do some ((← shape? m) :: (← shapes? ms))

end

mutual

/-- The elements without what is written in them. -/
def frame : Markup → List Markup
  | .text _ => []
  | .element name attributes children => [.element name attributes (frames children)]

/-- Several elements without what is written in them. -/
def frames : List Markup → List Markup
  | [] => []
  | m :: ms => m.frame ++ frames ms

end

mutual

/-- **The elements of a drawing show which drawing it is**, its numbers apart. -/
theorem shape?_markup (s : Shape Float) : shape? s.markup = some s.outline := by
  cases s with
  | group style dx dy children =>
    have hclass : (Shape.group style dx dy children).attributes.lookup "class" = style := by
      cases style with
      | none => by_cases h : dx != 0 || dy != 0 <;> simp [Shape.attributes, h]
      | some name => simp [Shape.attributes]
    rw [Shape.markup, shape?, shapes?_markups children, hclass, Option.map_some, Shape.outline]
  | rect style x y width height rx => simp [Shape.markup, shape?, Shape.attributes, Shape.outline]
  | circle style cx cy r => simp [Shape.markup, shape?, Shape.attributes, Shape.outline]
  | text style x y width height content =>
    by_cases h : content.toList = []
    · have hempty : content = "" := String.toList_inj.mp h
      simp [Shape.markup, shape?, Shape.attributes, Shape.outline, texts, hempty]
    · simp [Shape.markup, shape?, Shape.attributes, Shape.outline, texts, h]
  | path style commands => simp [Shape.markup, shape?, Shape.attributes, Shape.outline]

theorem shapes?_markups (ss : List (Shape Float)) :
    shapes? (Shape.markups ss) = some (Shape.outlines ss) := by
  cases ss with
  | nil => rfl
  | cons s ss =>
    simp [Shape.markups, shapes?, shape?_markup s, shapes?_markups ss, Shape.outlines]

end

mutual

/-- **No text makes, ends or changes an element.** -/
theorem frame_retext (f : String → String) (s : Shape Float) :
    frame (s.retext f).markup = frame s.markup := by
  cases s with
  | group style dx dy children =>
    simp only [Shape.retext, Shape.markup, frame, frames_retexts f children]
    rfl
  | text style x y width height content =>
    have htexts : ∀ cs, frames (texts cs) = [] := by
      intro cs
      by_cases h : cs = [] <;> simp [texts, h, frames, frame]
    simp only [Shape.retext, Shape.markup, frame, htexts]
    rfl
  | _ => rfl

theorem frames_retexts (f : String → String) (ss : List (Shape Float)) :
    frames (Shape.markups (Shape.retexts f ss)) = frames (Shape.markups ss) := by
  cases ss with
  | nil => rfl
  | cons s ss => simp only [Shape.retexts, Shape.markups, frames, frame_retext f s,
      frames_retexts f ss]

end

/-! ## 4. Reading a drawing -/

/-- The attributes that say where a shape is and how large. -/
def measureNames : List String :=
  ["transform", "x", "y", "width", "height", "rx", "cx", "cy", "r", "d"]

/-- **What holds of the names of shapes and of everything that is measured** holds of the attributes
    of a shape. -/
theorem forall_attributes {P : String × String → Prop} {s : Shape Float}
    (hclass : ∀ name, s.style? = some name → P ("class", name))
    (hmeasure : ∀ name ∈ measureNames, ∀ cs : List Char, (∀ c ∈ cs, Svg.isMeasure c = true) →
      P (name, String.ofList cs)) :
    ∀ a ∈ s.attributes, P a := by
  have hnumber {name : String} (hname : name ∈ measureNames) (x : Float) :
      P (name, Shape.numberText x) := hmeasure name hname _ (Svg.forall_number x)
  cases s with
  | group style dx dy children =>
    rw [Shape.attributes, List.forall_mem_append]
    refine ⟨?_, ?_⟩
    · cases style with
      | none => simp
      | some name => simpa using hclass name rfl
    · split
      · refine List.forall_mem_singleton.mpr (hmeasure "transform" (by decide) _ ?_)
        rw [List.forall_mem_append, List.forall_mem_append, List.forall_mem_cons,
          List.forall_mem_append]
        have hopen : ∀ c ∈ "translate(".toList, Svg.isMeasure c = true :=
          List.all_eq_true.mp (by decide)
        have hclose : ∀ c ∈ [')'], Svg.isMeasure c = true := List.all_eq_true.mp (by decide)
        exact ⟨⟨hopen, Svg.forall_number dx⟩, by decide, Svg.forall_number dy, hclose⟩
      · simp
  | rect style x y width height rx =>
    simp only [Shape.attributes, List.forall_mem_cons]
    exact ⟨hclass style rfl, hnumber (by decide) x, hnumber (by decide) y,
      hnumber (by decide) width, hnumber (by decide) height, hnumber (by decide) rx,
      List.forall_mem_nil _⟩
  | circle style cx cy r =>
    simp only [Shape.attributes, List.forall_mem_cons]
    exact ⟨hclass style rfl, hnumber (by decide) cx, hnumber (by decide) cy,
      hnumber (by decide) r, List.forall_mem_nil _⟩
  | text style x y width height content =>
    simp only [Shape.attributes, List.forall_mem_cons]
    exact ⟨hclass style rfl, hnumber (by decide) x,
      hnumber (by decide) (Svg.baseline y height), List.forall_mem_nil _⟩
  | path style commands =>
    simp only [Shape.attributes, List.forall_mem_cons]
    exact ⟨hclass style rfl, hmeasure "d" (by decide) _ (Svg.forall_pathData commands),
      List.forall_mem_nil _⟩

/-- What is measured can be written as it stands. -/
theorem fit_measure {name : String} (hname : IsName name) {cs : List Char}
    (h : ∀ c ∈ cs, Svg.isMeasure c = true) : Fit (name, String.ofList cs) :=
  ⟨hname, by rw [String.toList_ofList]; exact Svg.plain_of_isMeasure h⟩

/-- The attributes of a shape are written as they are read. -/
theorem fit_attributes {s : Shape Float} (h : ∀ name, s.style? = some name → Plain name.toList) :
    ∀ a ∈ s.attributes, Fit a := by
  have hnames : ∀ name ∈ measureNames, IsName name := by decide
  exact forall_attributes (fun name hname => ⟨show IsName "class" by decide, h name hname⟩)
    fun name hname cs hcs => fit_measure (hnames name hname) hcs

/-- No attribute of a shape is given twice. -/
theorem nodup_attributes (s : Shape Float) : (s.attributes.map Prod.fst).Nodup := by
  cases s with
  | group style dx dy children =>
    by_cases h : (dx != 0 || dy != 0) = true <;> cases style <;> simp [Shape.attributes, h]
  | _ => simp [Shape.attributes]

theorem fit_head {name : String} (hname : IsName name) {s : Shape Float}
    (h : ∀ name, s.style? = some name → Plain name.toList) :
    Head.Fit { name, attributes := s.attributes } :=
  ⟨hname, fit_attributes h, nodup_attributes s⟩

@[simp] theorem attributeText_class (style : String) :
    attributeText ("class", style) = Svg.classAttribute style := rfl

@[simp] theorem attributeText_number (name : String) (x : Float) :
    attributeText (name, Shape.numberText x) = Svg.attr name (Svg.number x) := by
  simp [attributeText, Shape.numberText]

section Elements

variable (style : String) (x y width height rx : Float)

theorem element_group (style : Option String) (children : List (Shape Float)) :
    Svg.element (.group style x y children) =
      Svg.tag "g" ((Shape.group style x y children).attributes.map attributeText)
        (Svg.elements children) := by
  have hattributes : Svg.groupAttributes style x y =
      (Shape.group style x y children).attributes.map attributeText := by
    by_cases h : (x != 0 || y != 0) = true <;>
      cases style <;>
        simp [Svg.groupAttributes, Shape.attributes, attributeText, Svg.classAttribute, h]
  rw [Svg.element, hattributes]

theorem element_rect : Svg.element (.rect style x y width height rx) =
    Svg.emptyTag "rect" ((Shape.rect style x y width height rx).attributes.map attributeText) := by
  simp [Svg.element, Shape.attributes]

theorem element_circle : Svg.element (.circle style x y rx) =
    Svg.emptyTag "circle" ((Shape.circle style x y rx).attributes.map attributeText) := by
  simp [Svg.element, Shape.attributes]

theorem element_text (content : String) : Svg.element (.text style x y width height content) =
    Svg.tag "text" ((Shape.text style x y width height content).attributes.map attributeText)
      (Svg.escape content) := by
  simp [Svg.element, Shape.attributes]

theorem element_path (commands : List (PathCommand Float)) : Svg.element (.path style commands) =
    Svg.emptyTag "path" ((Shape.path style commands).attributes.map attributeText) := by
  simp [Svg.element, Shape.attributes, attributeText, Svg.classAttribute]

end Elements

/-- An escaped text has no angles in it. -/
theorem not_mem_escape (s : String) : '<' ∉ Svg.escape s ∧ '>' ∉ Svg.escape s := by
  have hchar : ∀ c, '<' ∉ Svg.escapeChar c ∧ '>' ∉ Svg.escapeChar c := by
    intro c
    unfold Svg.escapeChar
    split
    · decide
    split
    · decide
    split
    · decide
    split
    · decide
    · next hangle hclose _ => simp [eq_comm, hangle, hclose]
  refine ⟨fun h => ?_, fun h => ?_⟩ <;> obtain ⟨c, -, hc⟩ := List.mem_flatMap.mp h
  · exact (hchar c).1 hc
  · exact (hchar c).2 hc

/-- The names of the shapes can be written as they stand. -/
def PlainStyles (styles : List (Option String)) : Prop :=
  ∀ name, some name ∈ styles → Plain name.toList

mutual

/-- **A drawing is read as its elements**, wherever it stands. -/
theorem read_element {s : Shape Float} (h : PlainStyles s.styles)
    (outer : List (Head × List Markup)) (inner : List Markup) :
    read (.between outer inner) (Svg.element s) = some (.between outer (inner ++ [s.markup])) := by
  have hown : ∀ name, s.style? = some name → Plain name.toList := fun name hname =>
    h name (hname ▸ s.style?_mem_styles)
  cases s with
  | group style dx dy children =>
    have hchildren : PlainStyles ((Shape.allOf children).map Shape.style?) := fun name hname =>
      h name (List.mem_cons_of_mem _ hname)
    have hread := read_tag outer inner (fit_head (show IsName "g" by decide) hown)
      fun outer => read_elements hchildren outer []
    rw [element_group]
    exact hread
  | rect style x y width height rx =>
    have hread := read_emptyTag outer inner (fit_head (show IsName "rect" by decide) hown)
    rw [element_rect]
    exact hread
  | circle style cx cy r =>
    have hread := read_emptyTag outer inner (fit_head (show IsName "circle" by decide) hown)
    rw [element_circle]
    exact hread
  | text style x y width height content =>
    obtain ⟨hangle, hclose⟩ := not_mem_escape content
    have hsection : ¬ [']', ']', '>'] <:+: Svg.escape content :=
      fun hwithin => hclose (hwithin.mem (by simp))
    have hread := read_tag_text outer inner (fit_head (show IsName "text" by decide) hown) hangle
      hsection (unescape?_escape content)
    rw [element_text]
    exact hread
  | path style commands =>
    have hread := read_emptyTag outer inner (fit_head (show IsName "path" by decide) hown)
    rw [element_path]
    exact hread

theorem read_elements {ss : List (Shape Float)}
    (h : PlainStyles ((Shape.allOf ss).map Shape.style?))
    (outer : List (Head × List Markup)) (inner : List Markup) :
    read (.between outer inner) (Svg.elements ss) =
      some (.between outer (inner ++ Shape.markups ss)) := by
  cases ss with
  | nil => simp [Shape.markups]
  | cons s ss =>
    have hs : PlainStyles s.styles := fun name hname =>
      h name (Shape.mem_styles_cons.mpr (.inl hname))
    have hss : PlainStyles ((Shape.allOf ss).map Shape.style?) := fun name hname =>
      h name (Shape.mem_styles_cons.mpr (.inr hname))
    rw [Svg.elements, read_append_of (read_element hs outer inner), read_elements hss,
      Shape.markups, List.append_assoc, List.singleton_append]

end

end Markup

/-! ## 5. Documents -/

namespace Canvas

/-- The attributes of a document, its size as text. -/
def attributeTexts (canvas : Canvas Float) : List (String × String) :=
  [("xmlns", "http://www.w3.org/2000/svg"), ("version", "1.1"),
    ("width", Shape.numberText canvas.width), ("height", Shape.numberText canvas.height)]

/-- The element of the style sheet. -/
def styleMarkup : Markup := .element "style" [] [.text (String.ofList Svg.styleSheet)]

theorem attributes_eq (canvas : Canvas Float) :
    canvas.attributes = canvas.attributeTexts.map Markup.attributeText := by
  simp only [attributes, attributeTexts, List.map_cons, Markup.attributeText_number]
  rfl

theorem fit_svg (canvas : Canvas Float) :
    Head.Fit { name := "svg", attributes := canvas.attributeTexts } where
  name := show IsName "svg" by decide
  attributes := by
    simp only [attributeTexts, List.forall_mem_cons]
    have haddress : Plain "http://www.w3.org/2000/svg".toList := by decide
    exact ⟨⟨show IsName "xmlns" by decide, haddress⟩,
      ⟨show IsName "version" by decide, show Plain "1.1".toList by decide⟩,
      Markup.fit_measure (by decide) (Svg.forall_number _),
      Markup.fit_measure (by decide) (Svg.forall_number _), List.forall_mem_nil _⟩
  nodup := by simp [attributeTexts]

/-- The style sheet is read as it stands. -/
theorem read_styleSheet (outer : List (Head × List Markup)) :
    Markup.read (.between outer []) (Svg.tag "style" [] Svg.styleSheet) =
      some (.between outer [styleMarkup]) := by
  have hnone : '<' ∉ Svg.styleSheet ∧ '&' ∉ Svg.styleSheet ∧ ']' ∉ Svg.styleSheet := by
    decide +kernel
  obtain ⟨hangle, hand, hbracket⟩ := hnone
  have htexts : Markup.texts Svg.styleSheet = [.text (String.ofList Svg.styleSheet)] := rfl
  have hfit : Head.Fit { name := "style" } := ⟨show IsName "style" by decide, by simp, by simp⟩
  have hread := Markup.read_tag_text outer [] hfit hangle
    (fun hwithin => hbracket (hwithin.mem (by simp))) (Markup.unescape?_of_not_mem hand)
  rwa [htexts] at hread

/-- The document of a drawing has one element, with the style sheet and the drawing in it. -/
theorem document?_toSvg_of_plain (canvas : Canvas Float) {s : Shape Float}
    (h : Markup.PlainStyles s.styles) :
    Markup.document? (canvas.mount s).toSvg =
      some (.element "svg" canvas.attributeTexts [styleMarkup, s.markup]) := by
  have hcontent (outer : List (Head × List Markup)) :
      Markup.read (.between outer [])
          (Svg.tag "style" [] Svg.styleSheet ++ Svg.elements [s]) =
        some (.between outer [styleMarkup, s.markup]) := by
    rw [Markup.read_append_of (read_styleSheet outer), Svg.elements_cons, Svg.elements_nil,
      List.append_nil, Markup.read_element h, List.singleton_append]
  have hread : Markup.read (.between [] []) (canvas.mount s).document = some
      ((Markup.State.between [] [.element "svg" canvas.attributeTexts [styleMarkup, s.markup]]).goTo
        (.content ['\n'])) := by
    have htag := Markup.read_tag [] [] (fit_svg canvas) hcontent
    have hdocument : (canvas.mount s).document = Svg.tag "svg"
        (canvas.attributeTexts.map Markup.attributeText)
        (Svg.tag "style" [] Svg.styleSheet ++ Svg.elements [s]) ++ ['\n'] := by
      rw [document_eq, ← attributes_eq]
      rfl
    rw [hdocument, Markup.read_append_of htag]
    rfl
  rw [Markup.document?, toSvg, String.toList_ofList]
  rw [show ({} : Markup.State) = .between [] [] from rfl, hread]
  rfl

/-- **A document is read as the drawing that is on the canvas**, if the names of its shapes can be
    written as they stand. It is well-formed, its elements are those of the drawing in the same
    order and one within another as the shapes are, and kinds, names and texts can be told from
    them. Whatever the texts say: other texts in the same drawing neither make nor end nor change an
    element. -/
theorem document?_toSvg (canvas : Canvas Float) {s : Shape Float}
    (h : Markup.PlainStyles s.styles) :
    Markup.document? (canvas.mount s).toSvg =
        some (.element "svg" canvas.attributeTexts [styleMarkup, s.markup]) ∧
      Markup.shape? s.markup = some s.outline ∧
      ∀ f : String → String,
        (Markup.document? (canvas.mount (s.retext f)).toSvg).map Markup.frame =
          (Markup.document? (canvas.mount s).toSvg).map Markup.frame := by
  refine ⟨document?_toSvg_of_plain canvas h, Markup.shape?_markup s, fun f => ?_⟩
  have hretext : Markup.PlainStyles (s.retext f).styles := (Shape.styles_retext f s).symm ▸ h
  rw [document?_toSvg_of_plain canvas h, document?_toSvg_of_plain canvas hretext]
  simp only [Option.map_some, Markup.frame, Markup.frames, Markup.frame_retext]

/-- A text that pretends to end its element and to open another one. -/
theorem document?_toSvg_of_tags :
    let s : Shape Float := .group (some "root") 0 0
      [.text "label" 0 0 0 0 "</text><g class=\"x\">&lt;", .path "connector" []]
    Markup.document? ((Canvas.mk none 0 0).mount s).toSvg =
        some (.element "svg" (Canvas.mk none 0 0).attributeTexts [styleMarkup, s.markup]) ∧
      s.outline = .group (some "root") () ()
        [.text "label" () () () () "</text><g class=\"x\">&lt;", .path "connector" []] := by
  intro s
  have hplain : Markup.PlainStyles s.styles := by
    intro name hname
    have hall : ∀ style ∈ s.styles, ∀ name ∈ style, Plain name.toList := by decide
    exact hall _ hname name rfl
  exact ⟨(document?_toSvg (Canvas.mk none 0 0) hplain).1, rfl⟩

end Canvas

end PatternDiagram
