import PatternDiagram.Proofs.Drawn

/-!
# Drawings that have been called off

Only sequences and alternations ask whether a drawing has been called off, and they ask before
anything else is done:

* `Node.isComposite`: the nodes that ask;
* `Script.Guarded`: the first thing that a script does is to ask; `Script.run_perform_of_guarded`:
  **such a script leaves no trace** if it is called off beforehand;
* `Drawing.guarded_node`, `Drawing.check_not_mem_node`: the script of a tree is such a script, or it
  never asks;
* `Drawing.node_refused_iff`: **a tree that is called off beforehand is refused just if there is a
  node in it that asks**, and then nothing is counted and nothing is noted. Otherwise it is drawn as
  if nobody had called it off. An expression is always refused.
-/

namespace PatternDiagram

/-! ## 1. Who asks -/

namespace Node

/-- The node asks whether the drawing has been called off. -/
def isComposite : Node → Bool
  | .sequence _ | .alternation _ => true
  | _ => false

/-- There is a node in the tree that asks. -/
def Asks (x : Node) : Prop := ∃ y ∈ x.preorder, y.isComposite = true

theorem asks_sequence (items : List Node) : (Node.sequence items).Asks :=
  ⟨.sequence items, by simp [preorder], rfl⟩

theorem asks_alternation (branches : List Node) : (Node.alternation branches).Asks :=
  ⟨.alternation branches, by simp [preorder], rfl⟩

variable {body : Node}

theorem asks_group {capturing : Bool} {name : Option String} {index : Option Nat} :
    (Node.group capturing name index body).Asks ↔ body.Asks := by
  simp [Asks, preorder, isComposite]

theorem asks_lookaround {direction : Direction} {polarity : Polarity} :
    (Node.lookaround direction polarity body).Asks ↔ body.Asks := by
  simp [Asks, preorder, isComposite]

theorem asks_repetition {q : Quantifier} : (Node.repetition q body).Asks ↔ body.Asks := by
  simp [Asks, preorder, isComposite]

theorem not_asks_leaf {x : Node} (hx : x.isLeaf = true) : ¬ x.Asks := by
  cases x with
  | characterClass c | literal l | anchor a | backreference t => simp [Asks, preorder, isComposite]
  | _ => cases hx

end Node

/-! ## 2. What becomes of a script -/

/-- The walk, called off. -/
def Walk.callOff (w : Walk) : Walk := { w with ticket := w.ticket.cancel }

/-- Whether a walk has been called off makes no difference to what acts count and note. -/
theorem Walk.after_callOff (w : Walk) (acts : List Act) :
    w.callOff.after acts = (w.after acts).callOff := by
  rw [after_eq_grow, after_eq_grow]
  rfl

namespace Script

variable {β γ : Type}

/-- **The first thing the script does is to ask** whether it has been called off. -/
def Guarded (p : Script β) : Prop := ∃ acts, p.acts = .check :: acts

theorem guarded_checkCancelled : (Walker.checkCancelled : Script Unit).Guarded := ⟨[], rfl⟩

/-- What comes later does not matter. -/
theorem Guarded.bind {p : Script β} (h : p.Guarded) (f : β → Script γ) : (p >>= f).Guarded := by
  obtain ⟨acts, hacts⟩ := h
  exact ⟨acts ++ (f p.result).acts, by rw [acts_bind, hacts, List.cons_append]⟩

/-- **A script that asks first** is refused if it has been called off beforehand, and leaves
    everything as it was. -/
theorem run_perform_of_guarded {p : Script β} (h : p.Guarded) {w : Walk}
    (hw : w.ticket.cancelled = true) : (p.perform : Walking β).run w = .error .cancelled w := by
  obtain ⟨acts, hacts⟩ := h
  have hcheck : (Act.check.perform : Walking Unit) w = .error .cancelled w := by
    show (if w.ticket.cancelled then throw .cancelled else pure () : Walking Unit) w = _
    rw [hw]
    rfl
  have hall : (Act.performAll p.acts : Walking Unit) w = .error .cancelled w := by
    rw [hacts]
    show EStateM.bind Act.check.perform (fun _ => Act.performAll acts) w = _
    simp only [EStateM.bind, hcheck]
  show EStateM.bind (Act.performAll p.acts) (fun _ => pure p.result) w = _
  simp only [EStateM.bind, hall]

end Script

/-! ## 3. Trees -/

namespace Drawing

open Node Walker

variable {α : Type} [Coordinate α]

/-- **A tree with a node in it that asks** does so before anything else: what is around the node
    counts itself only when it has been drawn. -/
theorem guarded_node (s : Setting α) {x : Node} (hx : x.Asks) :
    (node s x : Script (Placed α)).Guarded := by
  induction x using Node.induction with
  | sequence items =>
    rw [node]
    exact Script.guarded_checkCancelled.bind _
  | alternation branches =>
    rw [node]
    exact Script.guarded_checkCancelled.bind _
  | group capturing name index body ih =>
    rw [node]
    exact (ih (asks_group.mp hx)).bind _
  | lookaround direction polarity body ih =>
    rw [node]
    exact (ih (asks_lookaround.mp hx)).bind _
  | repetition q body ih =>
    rw [node]
    exact (ih (asks_repetition.mp hx)).bind _
  | leaf x hleaf => exact absurd hx (not_asks_leaf hleaf)

theorem check_not_mem_leaf (s : Setting α) (style text : String) :
    .check ∉ (leaf s style text : Script (Placed α)).acts := by
  simp [leaf]

/-- **A tree without such a node** never asks. -/
theorem check_not_mem_node (s : Setting α) {x : Node} (hx : ¬ x.Asks) :
    .check ∉ (node s x : Script (Placed α)).acts := by
  induction x using Node.induction with
  | sequence items => exact absurd (asks_sequence items) hx
  | alternation branches => exact absurd (asks_alternation branches) hx
  | group capturing name index body ih =>
    have hbody := ih (mt asks_group.mpr hx)
    simpa [node] using hbody
  | lookaround direction polarity body ih =>
    have hbody := ih (mt asks_lookaround.mpr hx)
    simpa [node] using hbody
  | repetition q body ih =>
    have hbody := ih (mt asks_repetition.mpr hx)
    simpa [node] using hbody
  | leaf x hleaf =>
    cases x with
    | characterClass c | literal l | anchor a =>
      rw [node]
      exact check_not_mem_leaf s _ _
    | backreference t =>
      rw [node, reference]
      split
      · exact check_not_mem_leaf s _ _
      · simpa using check_not_mem_leaf s (α := α) "backref unresolved" (referenceText t)
    | _ => cases hleaf

/-- **A tree that is called off beforehand** is refused just if there is a sequence or an
    alternation in it. Then the walk is the one that set out: no progress has been made, and no
    warning has been added. A tree without them is drawn just as if nobody had called it off, with
    the same progress and the same warnings. An expression is always refused, whatever its tree. -/
theorem node_refused_iff (s : Setting α) (x : Node) {w : Walk} (hw : w.ticket.cancelled = false) :
    ((∃ w', (node s x : Walking (Placed α)).run w.callOff = .error .cancelled w') ↔
      ∃ y ∈ x.preorder, y.isComposite = true) ∧
    ((∃ y ∈ x.preorder, y.isComposite = true) →
      (node s x : Walking (Placed α)).run w.callOff = .error .cancelled w.callOff) ∧
    ((∀ y ∈ x.preorder, y.isComposite = false) →
      ∃ placed w', (node s x : Walking (Placed α)).run w = .ok placed w' ∧
        (node s x : Walking (Placed α)).run w.callOff = .ok placed w'.callOff) ∧
    ∀ (c : Config α) (e : Expression),
      (expression c e : Walking (Placed α)).run w.callOff = .error .cancelled w.callOff := by
  have hoff : w.callOff.ticket.cancelled = true := rfl
  have hrefused (hx : x.Asks) :
      (node s x : Walking (Placed α)).run w.callOff = .error .cancelled w.callOff := by
    rw [← perform_node]
    exact Script.run_perform_of_guarded (guarded_node s hx) hoff
  have hdrawn (hx : ¬ x.Asks) : ∃ placed w',
      (node s x : Walking (Placed α)).run w = .ok placed w' ∧
        (node s x : Walking (Placed α)).run w.callOff = .ok placed w'.callOff := by
    have hfree := check_not_mem_node s (α := α) hx
    refine ⟨drawn s x, w.after (node s x : Script (Placed α)).acts, ?_, ?_⟩
    · rw [← perform_node]
      exact Script.run_perform _ hw
    · rw [← perform_node, ← Walk.after_callOff]
      exact Script.run_perform_of_check _ fun hmem => absurd hmem hfree
  refine ⟨⟨?_, fun hx => ⟨_, hrefused hx⟩⟩, hrefused, fun hx => ?_, fun c e => ?_⟩
  · rintro ⟨w', hrun⟩
    -- A tree without a node that asks would have been drawn.
    by_contra hx
    obtain ⟨placed, w'', -, hok⟩ := hdrawn hx
    rw [hrun] at hok
    cases hok
  · refine hdrawn ?_
    rintro ⟨y, hy, hcomposite⟩
    rw [hx y hy] at hcomposite
    cases hcomposite
  · rw [← perform_expression]
    exact Script.run_perform_of_guarded (Script.guarded_checkCancelled.bind _) hoff

/-- A reference that leads nowhere, in a group that is repeated, is drawn and noted. In a sequence
    within a lookahead it is not. -/
theorem node_refused_iff_of_reference :
    let s : Setting Rat := ⟨Config.standard, {}⟩
    let x : Node := .repetition ⟨0, none, true⟩
      (.group true none (some 1) (.backreference (.index 2)))
    (∃ placed, ∃ w' : Walk,
      (node s x : Walking (Placed Rat)).run ({} : Walk).callOff = .ok placed w'.callOff ∧
      w'.ticket.progress = ⟨3, 0⟩ ∧ w'.warnings = [.unresolvedReference (.index 2)]) ∧
    (node s (.lookaround .ahead .negative (.sequence [x, .literal .any])) :
      Walking (Placed Rat)).run ({} : Walk).callOff = .error .cancelled ({} : Walk).callOff := by
  intro s x
  obtain ⟨-, -, hdrawn, -⟩ := node_refused_iff s x (w := {}) rfl
  obtain ⟨-, hrefused, -⟩ := node_refused_iff s
    (.lookaround .ahead .negative (.sequence [x, .literal .any])) (w := {}) rfl
  obtain ⟨placed, w', hrun, hoff⟩ := hdrawn (by simp [x, preorder, isComposite])
  obtain ⟨-, hw'⟩ := EStateM.Result.ok.inj (hrun.symm.trans (node_yields s x {} rfl))
  refine ⟨⟨placed, w', hoff, ?_, ?_⟩, hrefused (by simp [preorder, isComposite])⟩
  · rw [hw']
    rfl
  · rw [hw']
    rfl

end Drawing

end PatternDiagram
