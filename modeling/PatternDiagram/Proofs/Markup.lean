import Mathlib.Data.List.Infix
import PatternDiagram.Svg.Document

/-!
# Reading markup

A reader for documents of nested tags. It goes through a text from the left to the right and accepts
only what is well-formed: every element is closed by its own name and in its own turn, no attribute
is given twice, and every ampersand begins one of the five names that a character can have. It knows
nothing of shapes. Which characters a document may contain at all is not its business.

* `Markup`: elements with attributes, and texts between them;
* `Markup.unescape?`: a text with its entities replaced;
* `Markup.State`, `Markup.step`: what is open, and what one more character does;
* `Markup.document?`: **the one element of a document**;
* `Markup.read_openTag`, `Markup.read_emptyTag`, `Markup.read_closeTag`, `Markup.read_text`: what
  the reader makes of each thing that is written.
-/

namespace PatternDiagram

/-- What a document consists of. -/
inductive Markup where
  | text (content : String)
  | element (name : String) (attributes : List (String × String)) (children : List Markup)
  deriving Repr

namespace Markup

/-! ## 1. Entities -/

/-- The text with the entities replaced by what they stand for. An ampersand that begins none of
    them is an error. -/
def unescape? : List Char → Option (List Char)
  | '&' :: 'a' :: 'm' :: 'p' :: ';' :: cs => (unescape? cs).map ('&' :: ·)
  | '&' :: 'l' :: 't' :: ';' :: cs => (unescape? cs).map ('<' :: ·)
  | '&' :: 'g' :: 't' :: ';' :: cs => (unescape? cs).map ('>' :: ·)
  | '&' :: 'q' :: 'u' :: 'o' :: 't' :: ';' :: cs => (unescape? cs).map ('"' :: ·)
  | '&' :: 'a' :: 'p' :: 'o' :: 's' :: ';' :: cs => (unescape? cs).map ('\x27' :: ·)
  | '&' :: _ => none
  | c :: cs => (unescape? cs).map (c :: ·)
  | [] => some []

theorem unescape?_cons {c : Char} (h : c ≠ '&') (cs : List Char) :
    unescape? (c :: cs) = (unescape? cs).map (c :: ·) := by
  rw [unescape?]
  all_goals simp [h]

/-- A text without ampersands stands for itself. -/
theorem unescape?_of_not_mem {cs : List Char} (h : '&' ∉ cs) : unescape? cs = some cs := by
  induction cs with
  | nil => rfl
  | cons c cs ih =>
    have hc : c ≠ '&' := fun e => h (by simp [e])
    rw [unescape?_cons hc, ih (fun hmem => h (List.mem_cons_of_mem _ hmem)), Option.map_some]

/-- A character that is escaped is read as itself, whatever follows it. -/
theorem unescape?_escapeChar_append (c : Char) (cs : List Char) :
    unescape? (Svg.escapeChar c ++ cs) = (unescape? cs).map (c :: ·) := by
  unfold Svg.escapeChar
  split
  · next h => subst h; rfl
  split
  · next h => subst h; rfl
  split
  · next h => subst h; rfl
  split
  · next h => subst h; rfl
  · next h _ _ _ => exact unescape?_cons h cs

/-- **Escaping loses nothing.** -/
theorem unescape?_escape (s : String) : unescape? (Svg.escape s) = some s.toList := by
  have hchars : ∀ cs : List Char, unescape? (cs.flatMap Svg.escapeChar) = some cs := by
    intro cs
    induction cs with
    | nil => rfl
    | cons c cs ih => rw [List.flatMap_cons, unescape?_escapeChar_append, ih, Option.map_some]
  exact hchars s.toList

/-! ## 2. One character more -/

/-- The begin of an element: its name and its attributes. -/
structure Head where
  name : String
  attributes : List (String × String) := []
  deriving Repr

/-- Where in the text a reader is, with what it has seen of the present text, name or value. -/
inductive Place where
  | content (raw : List Char)
  | angle
  | name (name : List Char)
  | head (head : Head)
  | attribute (head : Head) (name : List Char)
  | equals (head : Head) (name : String)
  | value (head : Head) (name : String) (raw : List Char)
  | slash (head : Head)
  | closing (name : List Char)
  deriving Repr

/-- The elements that are open, the innermost first, each with what stands before it; what has been
    read of the innermost one; and the place. -/
structure State where
  outer : List (Head × List Markup) := []
  inner : List Markup := []
  place : Place := .content []
  deriving Repr

/-- The text node of some characters. No characters make no node. -/
def texts (cs : List Char) : List Markup := if cs = [] then [] else [.text (String.ofList cs)]

namespace State

/-- The state at another place. -/
def goTo (s : State) (place : Place) : State := { s with place }

/-- The text before a tag is over. The end mark of a section must not occur in it. -/
def flush? (s : State) (raw : List Char) : Option State :=
  if [']', ']', '>'] <:+: raw then none
  else (unescape? raw).map fun cs => { s with inner := s.inner ++ texts cs, place := .angle }

/-- An element begins. -/
def enter (s : State) (head : Head) : State := { outer := (head, s.inner) :: s.outer }

/-- An element is complete. -/
def add (s : State) (head : Head) (children : List Markup) : State :=
  { s with inner := s.inner ++ [.element head.name head.attributes children], place := .content [] }

/-- The innermost element ends, if it has this name. -/
def leave? (s : State) (name : String) : Option State :=
  match s.outer with
  | (head, before) :: outer =>
      if head.name = name then some (add { outer, inner := before } head s.inner) else none
  | [] => none

/-- A character in a tag, behind the name or behind an attribute. -/
def inHead (s : State) (head : Head) (c : Char) : Option State :=
  if c = ' ' then some (s.goTo (.attribute head []))
  else if c = '/' then some (s.goTo (.slash head))
  else if c = '>' then some (s.enter head)
  else none

end State

/-- One more character. Names consist of letters. -/
def step (s : State) (c : Char) : Option State :=
  match s.place with
  | .content raw => if c = '<' then s.flush? raw else some (s.goTo (.content (raw ++ [c])))
  | .angle =>
      if c = '/' then some (s.goTo (.closing []))
      else if c.isAlpha then some (s.goTo (.name [c]))
      else none
  | .name name =>
      if c.isAlpha then some (s.goTo (.name (name ++ [c])))
      else s.inHead { name := String.ofList name } c
  | .head head => s.inHead head c
  | .attribute head name =>
      if c.isAlpha then some (s.goTo (.attribute head (name ++ [c])))
      else if c = '=' ∧ name ≠ [] ∧ String.ofList name ∉ head.attributes.map Prod.fst then
        some (s.goTo (.equals head (String.ofList name)))
      else none
  | .equals head name => if c = '"' then some (s.goTo (.value head name [])) else none
  | .value head name raw =>
      if c = '"' then
        (unescape? raw).map fun cs =>
          s.goTo (.head { head with attributes := head.attributes ++ [(name, String.ofList cs)] })
      else if c = '<' then none
      else some (s.goTo (.value head name (raw ++ [c])))
  | .slash head => if c = '>' then some (s.add head []) else none
  | .closing name =>
      if c.isAlpha then some (s.goTo (.closing (name ++ [c])))
      else if c = '>' then s.leave? (String.ofList name)
      else none

/-- Several characters more. -/
def read (s : State) (cs : List Char) : Option State := cs.foldlM step s

/-- The characters that may stand behind the last tag. -/
def isSpace (c : Char) : Bool := c == ' ' || c == '\t' || c == '\n' || c == '\r'

/-- **The element of a document.** There is exactly one, and nothing but space behind it. -/
def document? (text : String) : Option Markup :=
  match read {} text.toList with
  | some ⟨[], [.element name attributes children], .content raw⟩ =>
      if raw.all isSpace then some (.element name attributes children) else none
  | _ => none

/-! ## 3. Rows of characters -/

@[simp] theorem read_nil (s : State) : read s [] = some s := rfl

theorem read_cons (s : State) (c : Char) (cs : List Char) :
    read s (c :: cs) = (step s c).bind (read · cs) := rfl

theorem read_append (s : State) (cs ds : List Char) :
    read s (cs ++ ds) = (read s cs).bind (read · ds) := List.foldlM_append

/-- What is read after something that is read. -/
theorem read_append_of {s t : State} {cs : List Char} (h : read s cs = some t) (ds : List Char) :
    read s (cs ++ ds) = read t ds := by
  rw [read_append, h, Option.bind_some]

theorem read_cons_of {s t : State} {c : Char} (h : step s c = some t) (cs : List Char) :
    read s (c :: cs) = read t cs := by
  rw [read_cons, h, Option.bind_some]

/-- **Characters that are collected one by one are collected all together.** -/
theorem read_collected (s : State) (place : List Char → Place) {cs : List Char}
    (hstep : ∀ raw, ∀ c ∈ cs, step (s.goTo (place raw)) c = some (s.goTo (place (raw ++ [c]))))
    (raw : List Char) : read (s.goTo (place raw)) cs = some (s.goTo (place (raw ++ cs))) := by
  induction cs generalizing raw with
  | nil => simp
  | cons c cs ih =>
    have hrest := ih (fun raw d hd => hstep raw d (List.mem_cons_of_mem _ hd)) (raw ++ [c])
    rw [read_cons_of (hstep raw c List.mem_cons_self), hrest, List.append_assoc,
      List.singleton_append]

/-! ## 4. Attributes -/

/-- The characters of an attribute that is written as it stands. -/
def Plain (cs : List Char) : Prop := ∀ c ∈ cs, c ≠ '<' ∧ c ≠ '&' ∧ c ≠ '"'

instance (cs : List Char) : Decidable (Plain cs) := List.decidableBAll _ cs

/-- What can be the name of something. -/
def IsName (s : String) : Prop := s.toList ≠ [] ∧ ∀ c ∈ s.toList, c.isAlpha = true

instance (s : String) : Decidable (IsName s) :=
  decidable_of_iff (s.toList ≠ [] ∧ s.toList.all Char.isAlpha = true)
    (and_congr_right fun _ => List.all_eq_true)

/-- An attribute as it is written. -/
def attributeText (a : String × String) : List Char := Svg.attr a.1 a.2.toList

/-- The attribute is written as it is read. -/
def Fit (a : String × String) : Prop := IsName a.1 ∧ Plain a.2.toList

theorem Plain.unescape? {cs : List Char} (h : Plain cs) : unescape? cs = some cs :=
  unescape?_of_not_mem fun hmem => (h _ hmem).2.1 rfl

/-- An attribute adds itself to the head of its tag. -/
theorem read_attributeText {a : String × String} (h : Fit a) {head : Head}
    (hnew : a.1 ∉ head.attributes.map Prod.fst) (s : State) :
    read (s.goTo (.head head)) (attributeText a) =
      some (s.goTo (.head { head with attributes := head.attributes ++ [a] })) := by
  obtain ⟨name, value⟩ := a
  obtain ⟨⟨hname, hletters⟩, hvalue⟩ := h
  have hspace : step (s.goTo (.head head)) ' ' = some (s.goTo (.attribute head [])) := rfl
  have hcollect : read (s.goTo (.attribute head [])) name.toList =
      some (s.goTo (.attribute head name.toList)) :=
    read_collected s (.attribute head) (fun raw c hc => by
      simp only [step, State.goTo, if_pos (hletters c hc)]) []
  have hequals : step (s.goTo (.attribute head name.toList)) '=' =
      some (s.goTo (.equals head name)) := by
    have hother : ¬ ('=').isAlpha = true := by decide
    simp only [step, State.goTo, if_neg hother, String.ofList_toList]
    exact if_pos ⟨trivial, hname, hnew⟩
  have hquote : step (s.goTo (.equals head name)) '"' = some (s.goTo (.value head name [])) := rfl
  have hinside : read (s.goTo (.value head name [])) value.toList =
      some (s.goTo (.value head name value.toList)) :=
    read_collected s (.value head name) (fun raw c hc => by
      simp only [step, State.goTo, if_neg (hvalue c hc).2.2, if_neg (hvalue c hc).1]) []
  have hend : step (s.goTo (.value head name value.toList)) '"' =
      some (s.goTo (.head { head with attributes := head.attributes ++ [(name, value)] })) := by
    simp only [step, State.goTo, if_true, Plain.unescape? hvalue, Option.map_some,
      String.ofList_toList]
  rw [attributeText, Svg.attr, read_cons_of hspace, read_append_of hcollect, read_cons_of hequals,
    read_cons_of hquote, read_append_of hinside, read_cons_of hend, read_nil]

/-- All attributes add themselves, if no name occurs twice. -/
theorem read_attributeTexts {new : List (String × String)} (h : ∀ a ∈ new, Fit a) (head : Head)
    (hnodup : ((head.attributes ++ new).map Prod.fst).Nodup) (s : State) :
    read (s.goTo (.head head)) (new.map attributeText).flatten =
      some (s.goTo (.head { head with attributes := head.attributes ++ new })) := by
  induction new generalizing head with
  | nil => simp
  | cons a new ih =>
    have hnew : a.1 ∉ head.attributes.map Prod.fst := by
      rw [List.map_append, List.nodup_append] at hnodup
      exact fun hmem => hnodup.2.2 _ hmem a.1 (by simp) rfl
    have hrest := ih (fun b hb => h b (List.mem_cons_of_mem _ hb))
      { head with attributes := head.attributes ++ [a] } (by simpa using hnodup)
    rw [List.map_cons, List.flatten_cons,
      read_append_of (read_attributeText (h a List.mem_cons_self) hnew s), hrest]
    simp

/-! ## 5. Tags and texts -/

/-- The head is written as it is read. -/
structure Head.Fit (head : Head) : Prop where
  name : IsName head.name
  attributes : ∀ a ∈ head.attributes, Markup.Fit a
  nodup : (head.attributes.map Prod.fst).Nodup

/-- Behind a tag, with nothing after it yet. -/
def State.between (outer : List (Head × List Markup)) (inner : List Markup) : State :=
  { outer, inner }

variable {outer : List (Head × List Markup)} {inner : List Markup}

/-- **A text is read up to the next tag**, and its entities are replaced. -/
theorem read_text {raw cs : List Char} (hangle : '<' ∉ raw) (hsection : ¬ [']', ']', '>'] <:+: raw)
    (hcs : unescape? raw = some cs) :
    read (.between outer inner) (raw ++ ['<']) =
      some ((State.between outer (inner ++ texts cs)).goTo .angle) := by
  have hcollect : read (.between outer inner) raw =
      some ((State.between outer inner).goTo (.content raw)) :=
    read_collected (.between outer inner) .content (fun seen c hc => by
      have hother : c ≠ '<' := fun e => hangle (e ▸ hc)
      simp only [step, State.goTo, if_neg hother]) []
  have hflush : step ((State.between outer inner).goTo (.content raw)) '<' =
      some ((State.between outer (inner ++ texts cs)).goTo .angle) := by
    simp only [step, State.goTo, if_true, State.flush?, if_neg hsection, hcs, Option.map_some]
    rfl
  rw [read_append_of hcollect, read_cons_of hflush, read_nil]

/-- A tag follows right behind a tag. -/
theorem step_angle :
    step (.between outer inner) '<' = some ((State.between outer inner).goTo .angle) := by
  have htext : read (.between outer inner) ([] ++ ['<']) =
      some ((State.between outer (inner ++ texts [])).goTo .angle) :=
    read_text (by simp) (by simp) rfl
  simpa [texts, read_cons] using htext

/-- The name of an element. -/
theorem read_name {name : String} (h : IsName name) (s : State) :
    read (s.goTo .angle) name.toList = some (s.goTo (.name name.toList)) := by
  obtain ⟨hne, hletters⟩ := h
  obtain ⟨c, cs, hcons⟩ := List.exists_cons_of_ne_nil hne
  rw [hcons] at hletters ⊢
  have hc : c.isAlpha = true := hletters c List.mem_cons_self
  have hslash : c ≠ '/' := fun e => absurd (e ▸ hc) (by decide)
  have hfirst : step (s.goTo .angle) c = some (s.goTo (.name [c])) := by
    simp only [step, State.goTo, if_neg hslash, if_pos hc]
  have hcollect : read (s.goTo (.name [c])) cs = some (s.goTo (.name ([c] ++ cs))) :=
    read_collected s .name (fun raw d hd => by
      simp only [step, State.goTo, if_pos (hletters d (List.mem_cons_of_mem _ hd))]) [c]
  rw [read_cons_of hfirst, hcollect, List.singleton_append]

/-- Where the name of an element ends, its head begins. -/
theorem step_name {c : Char} (hc : c.isAlpha = false) (name : String) (s : State) :
    step (s.goTo (.name name.toList)) c = step (s.goTo (.head { name })) c := by
  simp only [step, State.goTo, hc, Bool.false_eq_true, if_false, String.ofList_toList]
  rfl

/-- The head of a tag, up to the character that ends it. -/
theorem read_head {head : Head} (h : head.Fit) {c : Char} (hc : c.isAlpha = false)
    (rest : List Char) (s : State) :
    read (s.goTo .angle)
        (head.name.toList ++ (head.attributes.map attributeText).flatten ++ c :: rest) =
      read (s.goTo (.head head)) (c :: rest) := by
  have hattributes : read (s.goTo (.head { name := head.name }))
      (head.attributes.map attributeText).flatten = some (s.goTo (.head head)) :=
    read_attributeTexts h.attributes { name := head.name } (by simpa using h.nodup) s
  -- The name is over when something comes that is no letter: a space, or the end of the tag.
  have hover : ∃ d ds, d.isAlpha = false ∧
      (head.attributes.map attributeText).flatten ++ c :: rest = d :: ds := by
    cases head.attributes with
    | nil => exact ⟨c, rest, hc, rfl⟩
    | cons a as => exact ⟨' ', _, by decide, rfl⟩
  obtain ⟨d, ds, hd, hcons⟩ := hover
  rw [List.append_assoc, read_append_of (read_name h.name s), hcons, read_cons, step_name hd,
    ← read_cons, ← hcons, read_append_of hattributes]

/-- **The begin of an element opens it.** -/
theorem read_openTag {head : Head} (h : head.Fit) :
    read (.between outer inner) (Svg.openTag head.name (head.attributes.map attributeText)) =
      some (.between ((head, inner) :: outer) []) := by
  rw [Svg.openTag, read_cons_of step_angle, read_head h (by decide)]
  rfl

/-- **A tag with nothing in it is an element of its own.** -/
theorem read_emptyTag (outer : List (Head × List Markup)) (inner : List Markup) {head : Head}
    (h : head.Fit) :
    read (.between outer inner) (Svg.emptyTag head.name (head.attributes.map attributeText)) =
      some (.between outer (inner ++ [.element head.name head.attributes []])) := by
  rw [Svg.emptyTag, read_cons_of step_angle, read_head h (by decide)]
  rfl

/-- The end of an element behind an angle. -/
theorem read_closing {head : Head} (h : IsName head.name) (before : List Markup) :
    read ((State.between ((head, before) :: outer) inner).goTo .angle)
        ('/' :: (head.name.toList ++ ['>'])) =
      some (.between outer (before ++ [.element head.name head.attributes inner])) := by
  let s := State.between ((head, before) :: outer) inner
  have hslash : step (s.goTo .angle) '/' = some (s.goTo (.closing [])) := rfl
  have hcollect : read (s.goTo (.closing [])) head.name.toList =
      some (s.goTo (.closing head.name.toList)) :=
    read_collected s .closing (fun raw c hc => by
      simp only [step, State.goTo, if_pos (h.2 c hc)]) []
  have hleave : step (s.goTo (.closing head.name.toList)) '>' =
      some (.between outer (before ++ [.element head.name head.attributes inner])) := by
    have hother : ¬ ('>').isAlpha = true := by decide
    simp only [step, State.goTo, if_neg hother, if_true, String.ofList_toList]
    exact if_pos rfl
  rw [read_cons_of hslash, read_append_of hcollect, read_cons_of hleave, read_nil]

/-- **The end of an element closes it**, if it is the innermost one. -/
theorem read_closeTag {head : Head} (h : IsName head.name) (before : List Markup) :
    read (.between ((head, before) :: outer) inner) (Svg.closeTag head.name) =
      some (.between outer (before ++ [.element head.name head.attributes inner])) := by
  rw [Svg.closeTag, read_cons_of step_angle, read_closing h]

/-- **An element around some text.** -/
theorem read_tag_text (outer : List (Head × List Markup)) (inner : List Markup) {head : Head}
    (h : head.Fit) {raw cs : List Char} (hangle : '<' ∉ raw)
    (hsection : ¬ [']', ']', '>'] <:+: raw) (hcs : unescape? raw = some cs) :
    read (.between outer inner)
        (Svg.tag head.name (head.attributes.map attributeText) raw) =
      some (.between outer (inner ++ [.element head.name head.attributes (texts cs)])) := by
  have hclose : Svg.closeTag head.name = ['<'] ++ '/' :: (head.name.toList ++ ['>']) := rfl
  rw [Svg.tag, List.append_assoc, read_append_of (read_openTag h), hclose, ← List.append_assoc,
    read_append_of (read_text hangle hsection hcs), List.nil_append, read_closing h.name]

/-- **An element around something that is read whole.** -/
theorem read_tag (outer : List (Head × List Markup)) (inner : List Markup) {head : Head}
    (h : head.Fit) {content : List Char} {children : List Markup}
    (hcontent : ∀ outer, read (.between outer []) content = some (.between outer children)) :
    read (.between outer inner)
        (Svg.tag head.name (head.attributes.map attributeText) content) =
      some (.between outer (inner ++ [.element head.name head.attributes children])) := by
  rw [Svg.tag, List.append_assoc, read_append_of (read_openTag h),
    read_append_of (hcontent _), read_closeTag h.name]

end Markup

end PatternDiagram
