import PatternDiagram.Proofs.Printing
import PatternDiagram.Proofs.WellFormed

/-!
# Names

What a group and a reference can be called:

* `Token.isName_of_name`: a name begins with a letter, `_` or `$` and goes on with these and with
  numbers;
* `Token.Named`, `Word.Named`, `Node.Named`: what is called something is called by a name;
* `Node.every_sound_of_parse`: **in the tree of a source everything that is called something is
  called by a name**.
-/

namespace PatternDiagram

open Grammar

/-! ## 1. Tokens -/

namespace Token

/-- What is read as a name is one. -/
theorem isName_of_name {site cs rest : List Char} {s : String} (h : name site cs = .ok (s, rest)) :
    isName s = true := by
  unfold name at h
  split at h
  · next c more left hrun =>
    simp only [Except.ok.injEq, Prod.mk.injEq] at h
    obtain rfl := h.1
    cases cs with
    | nil => simp [nameRun] at hrun
    | cons d ds =>
      rw [nameRun] at hrun
      split at hrun
      · next hstart =>
        simp only [Prod.mk.injEq, List.cons.injEq] at hrun
        obtain ⟨⟨rfl, rfl⟩, -⟩ := hrun
        have hmore : (ds.takeWhile continuesName).all continuesName = true := List.all_takeWhile
        simp [isName, hstart, hmore]
      · simp at hrun
  · simp at h

/-- If the token is called something, this is a name. -/
def Named : Token → Prop
  | .groupOpen (.capture (some s)) => isName s = true
  | .backreference (.name s) => isName s = true
  | _ => True

theorem named_of_lazily {min : Nat} {max : Option Nat} {cs rest : List Char} {t : Token}
    (h : lazily min max cs = (t, rest)) : t.Named := by
  unfold lazily at h
  split at h <;> cases h <;> trivial

theorem named_of_braces {site cs rest : List Char} {t : Token}
    (h : braces site cs = .ok (t, rest)) : t.Named := by
  unfold braces at h
  split at h
  · cases h; trivial
  · split at h
    · cases h
    · exact named_of_lazily (Except.ok.inj h)
  · exact named_of_lazily (Except.ok.inj h)

theorem named_of_group {site cs rest : List Char} {t : Token}
    (h : group site cs = .ok (t, rest)) : t.Named := by
  unfold group at h
  split at h
  case h_6 =>
    split at h
    · next hname => cases h; exact isName_of_name hname
    · cases h
  all_goals cases h
  all_goals trivial

theorem named_of_escape {site cs rest : List Char} {t : Token}
    (h : escape site cs = .ok (t, rest)) : t.Named := by
  unfold escape at h
  split at h
  case h_4 =>
    split at h
    · next hname => cases h; exact isName_of_name hname
    · cases h
  case h_5 =>
    split at h
    all_goals cases h
    all_goals trivial
  all_goals cases h
  all_goals trivial

theorem named_of_read {c : Char} {cs rest : List Char} {t : Token}
    (h : read c cs = .ok (t, rest)) : t.Named := by
  unfold read at h
  split at h
  case h_3 => exact named_of_group h
  case h_4 => split at h <;> cases h <;> trivial
  case h_8 | h_9 | h_10 => exact named_of_lazily (Except.ok.inj h)
  case h_11 => exact named_of_braces h
  case h_12 => exact named_of_escape h
  all_goals cases h
  all_goals trivial

end Token

/-! ## 2. Words -/

/-- If the word is called something, this is a name. -/
def Word.Named : Word → Prop
  | .token t => t.Named
  | .characterClass _ => True

theorem Word.named_of_next? {cs rest : List Char} {w : Word} (h : Word.next? cs = some (w, rest)) :
    w.Named := by
  cases w with
  | characterClass c => trivial
  | token t =>
    obtain ⟨hnext, -⟩ := next?_token_iff.mp h
    cases cs with
    | nil => simp [Token.next] at hnext
    | cons c more =>
      simp only [Token.next] at hnext
      split at hnext
      · next found hread =>
        simp only [Except.ok.injEq, Option.some.injEq] at hnext
        subst hnext
        exact Token.named_of_read hread
      · simp at hnext

theorem Reads.named {cs rest : List Char} {ws : List Word} (h : Reads cs ws rest) :
    ∀ w ∈ ws, w.Named := by
  induction h with
  | done => simp
  | more hw _ ih => exact List.forall_mem_cons.mpr ⟨Word.named_of_next? hw, ih⟩

/-! ## 3. Trees -/

/-- If the node is called something, this is a name. -/
def Node.Named : Node → Prop
  | .group _ (some s) _ _ => isName s = true
  | .backreference (.name s) => isName s = true
  | _ => True

theorem Node.every_named_node {head : GroupHead} (h : (Token.groupOpen head).Named)
    (index : Option Nat) {x : Node} (hx : x.Every Named) : (head.node index x).Every Named := by
  refine (Node.every_node head index x).mpr ⟨?_, hx⟩
  cases head with
  | capture name =>
    cases name with
    | none => trivial
    | some s => exact h
  | plain => trivial
  | look direction polarity => trivial

namespace Grammar

mutual

theorem Atom.named {n n' : Nat} {ws : List Word} {x : Node} :
    Atom n ws x n' → (∀ w ∈ ws, w.Named) → x.Every Node.Named
  | .literal _ l, _ => (Node.every_literal l).mpr trivial
  | .anchor _ a, _ => (Node.every_anchor a).mpr trivial
  | .backreference _ t, hw => by
      have ht : (Token.backreference t).Named := hw (.token (.backreference t)) (by simp)
      refine (Node.every_backreference t).mpr ?_
      cases t with
      | index n => trivial
      | name s => exact ht
  | .characterClass _ c, _ => (Node.every_characterClass c).mpr trivial
  | .group head body, hw => by
      have hbody := body.named fun w hmem => hw w (by simp [hmem])
      have hhead : (Token.groupOpen head).Named := hw (.token (.groupOpen head)) (by simp)
      exact Node.every_named_node hhead _ ((Node.every_ofBranches _).mpr ⟨fun _ => trivial, hbody⟩)
termination_by structural h => h

theorem Piece.named {n n' : Nat} {ws : List Word} {x : Node} :
    Piece n ws x n' → (∀ w ∈ ws, w.Named) → x.Every Node.Named
  | .once h, hw => h.named hw
  | .repeated q h _, hw =>
      (Node.every_repetition q _).mpr
        ⟨trivial, h.named fun w hmem => hw w (List.mem_append_left _ hmem)⟩
termination_by structural h => h

theorem Row.named {n n' : Nat} {ws : List Word} {xs : List Node} :
    Row n ws xs n' → (∀ w ∈ ws, w.Named) → ∀ x ∈ xs, x.Every Node.Named
  | .nil _, _ => by simp
  | .cons h hs, hw => by
      have hfirst := h.named fun w hmem => hw w (List.mem_append_left _ hmem)
      have hothers := hs.named fun w hmem => hw w (List.mem_append_right _ hmem)
      exact List.forall_mem_cons.mpr ⟨hfirst, hothers⟩
termination_by structural h => h

theorem Choice.named {n n' : Nat} {ws : List Word} {xs : List Node} :
    Choice n ws xs n' → (∀ w ∈ ws, w.Named) → ∀ x ∈ xs, x.Every Node.Named
  | .one h, hw => by
      simpa using (Node.every_ofItems _).mpr ⟨fun _ => trivial, h.named hw⟩
  | .more h hs, hw => by
      have hrow := h.named fun w hmem => hw w (List.mem_append_left _ hmem)
      have hothers := hs.named fun w hmem => hw w (by simp [hmem])
      exact List.forall_mem_cons.mpr
        ⟨(Node.every_ofItems _).mpr ⟨fun _ => trivial, hrow⟩, hothers⟩
termination_by structural h => h

end

end Grammar

/-- What is called something is called by a name, and the node has a proper form. -/
def Node.Sound (x : Node) : Prop := x.Named ∧ x.Proper

/-- **In the tree of a source everything that is called something is called by a name**, and all
    nodes have a proper form. -/
theorem Node.every_sound_of_parse {source : String} {e : Expression} (h : parse source = .ok e) :
    e.root.Every Sound := by
  obtain ⟨s, after, -, hparse, -⟩ := reader_of_parse h
  have haccepted : (Reader.ofPattern s.pattern s.base).parse.1 = .ok e.root := by rw [hparse]
  obtain ⟨ws, hws, ⟨xs, _, hxs, hroot⟩, -⟩ := (Reader.parse_iff _ _).mp haccepted
  have hnamed : (Node.ofBranches xs).Every Named :=
    (Node.every_ofBranches xs).mpr ⟨fun _ => trivial, hxs.named hws.named⟩
  have hproper : (Node.ofBranches xs).WellFormed :=
    Node.wellFormed_ofBranches hxs.isBranch.1 (hxs.wellFormed hws.proper) hxs.isBranch.2
  rw [hroot]
  exact fun y hy => ⟨hnamed y hy, hproper y hy⟩

end PatternDiagram
