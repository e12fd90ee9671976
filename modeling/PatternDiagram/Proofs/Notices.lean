import PatternDiagram.Proofs.Numerals
import PatternDiagram.Proofs.Walks

/-!
# What a drawing says about references

A drawing notes every back reference that leads nowhere, and an expression lists them without
repeats. The two go over the tree in ways of their own:

* `Target.label_injective`: targets of the same text are the same;
* `GroupTable.unresolvedBeyond_eq`: leaving out a text that has been seen is leaving out a target
  that has been seen;
* `Node.unresolvedIn`: the back references of a tree that name no group, one for each node;
  `Node.references_eq`: they are in the order of the nodes;
* `Drawing.node_notes_unresolved`: **a drawing that nobody calls off notes just these, and without
  later repeats they are those that the expression lists**.
-/

namespace PatternDiagram

/-! ## 1. Texts of targets -/

theorem Numeral.decimal_injective {m n : Nat} (h : decimal m = decimal n) : m = n := by
  have hdigits : write 10 m = write 10 n := String.ofList_injective h
  have hvalue := congrArg (value 10) hdigits
  rwa [value_write (by decide) (by decide), value_write (by decide) (by decide)] at hvalue

/-- **Targets of the same text are the same**: a number comes after its sign, a name in quotation
    marks. -/
theorem Target.label_injective {t u : Target} (h : t.label = u.label) : t = u := by
  have hlist : t.label.toList = u.label.toList := congrArg String.toList h
  cases t with
  | index m =>
    cases u with
    | index n =>
      simp only [label, String.toList_append, List.append_cancel_left_eq] at hlist
      rw [Numeral.decimal_injective (String.toList_injective hlist)]
    | name s => simp [label] at hlist
  | name s =>
    cases u with
    | index n => simp [label] at hlist
    | name r =>
      simp only [label, String.toList_append, List.append_cancel_right_eq,
        List.append_cancel_left_eq] at hlist
      rw [String.toList_injective hlist]

theorem Target.contains_label {us : List Target} {t : Target} :
    (us.map label).contains t.label = us.contains t := by
  rw [Bool.eq_iff_iff, List.contains_iff_mem, List.contains_iff_mem, List.mem_map]
  constructor
  · rintro ⟨u, hu, hlabel⟩
    exact label_injective hlabel ▸ hu
  · intro ht
    exact ⟨t, ht, rfl⟩

/-- **Leaving out texts that have been seen** is leaving out targets that have been seen. -/
theorem GroupTable.unresolvedBeyond_eq (g : GroupTable) (seen ts : List Target) :
    g.unresolvedBeyond (seen.map Target.label) ts =
      ((ts.filter fun t => !g.resolves t).filter fun t => !seen.contains t).eraseDups := by
  induction ts generalizing seen with
  | nil => rfl
  | cons t ts ih =>
    rw [unresolvedBeyond, Target.contains_label]
    by_cases hresolves : g.resolves t = true
    · rw [if_pos (by rw [hresolves, Bool.true_or]), ih,
        List.filter_cons_of_neg (by rw [hresolves]; exact Bool.false_ne_true)]
    · rw [List.filter_cons_of_pos (by simpa using hresolves)]
      by_cases hseen : seen.contains t = true
      · rw [if_pos (by rw [hseen, Bool.or_true]), ih,
          List.filter_cons_of_neg (by rw [hseen]; exact Bool.false_ne_true)]
      · have hrest := ih (t :: seen)
        rw [List.map_cons] at hrest
        rw [if_neg (by simp only [Bool.or_eq_true, not_or]; exact ⟨hresolves, hseen⟩), hrest,
          List.filter_cons_of_pos (by simpa using hseen), List.eraseDups_cons]
        -- From here on `t` has been seen, besides those that have been seen before.
        generalize (ts.filter fun t => !g.resolves t) = rest
        rw [List.filter_filter]
        refine congrArg (fun us : List Target => t :: us.eraseDups) ?_
        refine List.filter_congr fun u _ => ?_
        rw [List.contains_cons, Bool.not_or]

/-! ## 2. References in a tree -/

namespace Node

/-- The target of a back reference. -/
def target? : Node → Option Target
  | .backreference t => some t
  | _ => none

/-- **The back references of a tree that name no group**, one for each node, each node before those
    below it. -/
def unresolvedIn (g : GroupTable) (x : Node) : List Target :=
  (x.preorder.filterMap target?).filter fun t => !g.resolves t

mutual

theorem references_eq (x : Node) : x.references = x.preorder.filterMap target? := by
  cases x with
  | sequence items =>
    rw [references, preorder, List.filterMap_cons_none rfl, referencesAll_eq items]
  | alternation branches =>
    rw [references, preorder, List.filterMap_cons_none rfl, referencesAll_eq branches]
  | group capturing name index body =>
    rw [references, preorder, List.filterMap_cons_none rfl, references_eq body]
  | repetition q body =>
    rw [references, preorder, List.filterMap_cons_none rfl, references_eq body]
  | lookaround direction polarity body =>
    rw [references, preorder, List.filterMap_cons_none rfl, references_eq body]
  | characterClass c => rfl
  | literal l => rfl
  | anchor a => rfl
  | backreference t => rfl

theorem referencesAll_eq (xs : List Node) :
    referencesAll xs = (preorderAll xs).filterMap target? := by
  cases xs with
  | nil => rfl
  | cons x xs =>
    rw [referencesAll, preorderAll, List.filterMap_append, references_eq x, referencesAll_eq xs]

end

/-- Without repeats, these are the references that an expression lists. -/
theorem eraseDups_unresolvedIn (x : Node) (flags : Flags) (g : GroupTable) :
    (x.unresolvedIn g).eraseDups = (⟨x, flags, g⟩ : Expression).unresolved := by
  have h : g.unresolvedBeyond [] x.references = _ := g.unresolvedBeyond_eq [] x.references
  have hall (ts : List Target) : (ts.filter fun t => !([] : List Target).contains t) = ts :=
    List.filter_eq_self.mpr fun _ _ => rfl
  rw [Expression.unresolved, h, hall, references_eq, unresolvedIn]

end Node

/-! ## 3. Drawings -/

namespace Drawing

variable {α : Type} [Coordinate α]

/-- **A drawing that nobody calls off** notes the back references that name no group, one for each
    node, in order, behind what has been noted before. Without later repeats they are those that the
    expression lists. -/
theorem node_notes_unresolved (s : Setting α) (x : Node) {w : Walk}
    (hw : w.ticket.cancelled = false) :
    ∃ placed ticket,
      (node s x : Walking (Placed α)).run w =
        .ok placed ⟨ticket, w.warnings ++ (x.unresolvedIn s.groups).map .unresolvedReference⟩ ∧
      ∀ flags, (x.unresolvedIn s.groups).eraseDups =
        (⟨x, flags, s.groups⟩ : Expression).unresolved := by
  have hnotes : s.groups.warnings x.references =
      (x.unresolvedIn s.groups).map .unresolvedReference := by
    rw [GroupTable.warnings, x.references_eq, Node.unresolvedIn]
  refine ⟨(node s x : Script (Placed α)).result, w.ticket.advance x.count, ?_, ?_⟩
  · rw [node_yields s x w hw, hnotes]
    rfl
  · intro flags
    exact x.eraseDups_unresolvedIn flags s.groups

/-- A reference that leads nowhere is noted as often as it is written, and listed once. -/
theorem node_notes_unresolved_of_repeated :
    let groups : GroupTable := { count := 1 }
    let x : Node := .sequence [.backreference (.index 3),
      .group true none (some 1) (.backreference (.name "x")), .backreference (.index 1),
      .backreference (.index 3)]
    (∃ placed ticket,
      (node ⟨Config.standard, groups⟩ x : Walking (Placed Rat)).run {} =
        .ok placed ⟨ticket, [.unresolvedReference (.index 3), .unresolvedReference (.name "x"),
          .unresolvedReference (.index 3)]⟩) ∧
      (⟨x, {}, groups⟩ : Expression).unresolved = [.index 3, .name "x"] := by
  intro groups x
  obtain ⟨placed, ticket, hrun, hlist⟩ :=
    node_notes_unresolved (⟨Config.standard, groups⟩ : Setting Rat) x (w := {}) rfl
  refine ⟨⟨placed, ticket, hrun⟩, ?_⟩
  rw [← hlist {}]
  decide

end Drawing

end PatternDiagram
