import PatternDiagram.Proofs.Walks

/-!
# Progress on the way

While a tree is drawn, somebody else may look at its ticket. Here somebody looks after each advance:

* `Watched`, `Watching`: a walk together with the progress that has been seen, and the walker who
  keeps both; nothing else is different from a walk that nobody watches;
* `Walk.sights`: what there is to see while some acts are done; `Walk.mem_sights`: **no sight is
  ahead of what the acts count together**;
* `Drawing.progress_counts_nodes`: **a tree that nobody calls off advances its ticket by the number
  of its nodes, so that a whole expression ends with all its nodes done; on the way, no more nodes
  are done than there are**.
-/

namespace PatternDiagram

/-! ## 1. Somebody who watches -/

/-- A walk that somebody watches, and the progress seen so far. -/
structure Watched where
  walk : Walk
  seen : List Progress := []
  deriving DecidableEq, Repr

/-- A step of a drawing that somebody watches. -/
abbrev Watching := EStateM Cancelled Watched

namespace Watching

/-- A step of a walk, which it makes no difference to be watched in. -/
def ofWalking (step : Walking Unit) : Watching Unit := fun v =>
  match step v.walk with
  | .ok () w => .ok () { v with walk := w }
  | .error e w => .error e { v with walk := w }

/-- The progress is looked at. -/
def look : Watching Unit :=
  modify fun v => { v with seen := v.seen ++ [v.walk.ticket.progress] }

end Watching

/-- After each advance the progress is looked at. -/
instance : Walker Watching where
  checkCancelled := .ofWalking Walk.checkCancelled
  advance n := do
    .ofWalking (Walk.advance n)
    .look
  warn warning := .ofWalking (Walk.warn warning)

/-! ## 2. What there is to see -/

namespace Walk

/-- The progress after each advance, while some acts are done. -/
def sights (w : Walk) : List Act → List Progress
  | [] => []
  | .check :: acts => w.sights acts
  | .advance n :: acts => (w.ticket.advance n).progress :: (w.does (.advance n)).sights acts
  | .warn warning :: acts => (w.does (.warn warning)).sights acts

/-- **No sight is ahead** of what the acts count together. -/
theorem mem_sights {acts : List Act} {w : Walk} {p : Progress} (h : p ∈ w.sights acts) :
    ∃ k ≤ Act.countAll acts, p = (w.ticket.advance k).progress := by
  induction acts generalizing w with
  | nil => cases h
  | cons a acts ih =>
    rw [Act.countAll_cons]
    cases a with
    | check =>
      obtain ⟨k, hk, hp⟩ := ih h
      exact ⟨k, Nat.le_trans hk (Nat.le_add_left ..), hp⟩
    | warn warning =>
      obtain ⟨k, hk, hp⟩ := ih h
      exact ⟨k, Nat.le_trans hk (Nat.le_add_left ..), hp⟩
    | advance n =>
      rw [Act.count]
      rcases List.mem_cons.mp h with hfirst | hlater
      · exact ⟨n, Nat.le_add_right .., hfirst⟩
      · obtain ⟨k, hk, hp⟩ := ih hlater
        refine ⟨n + k, Nat.add_le_add_left hk n, ?_⟩
        rw [hp, does, Ticket.advance_advance]

/-- Acts that nobody calls off are done the same way if somebody watches, who sees the sights. -/
theorem run_acts_watched (acts : List Act) {w : Walk} (hw : w.ticket.cancelled = false)
    (seen : List Progress) :
    (Act.performAll acts : Watching Unit).run ⟨w, seen⟩ =
      .ok () ⟨w.after acts, seen ++ w.sights acts⟩ := by
  induction acts generalizing w seen with
  | nil =>
    show EStateM.Result.ok () (⟨w, seen⟩ : Watched) = _
    rw [sights, List.append_nil, after_nil]
  | cons a acts ih =>
    have hcancelled : (w.does a).ticket.cancelled = false := (w.cancelled_does a).trans hw
    have hfirst : ∃ now, (a.perform : Watching Unit) ⟨w, seen⟩ = .ok () ⟨w.does a, seen ++ now⟩ ∧
        now ++ (w.does a).sights acts = w.sights (a :: acts) := by
      have hact : (a.perform : Walking Unit) w = .ok () (w.does a) := run_act a fun _ => hw
      cases a with
      | check =>
        refine ⟨[], ?_, rfl⟩
        show Watching.ofWalking checkCancelled ⟨w, seen⟩ = _
        have hcheck : checkCancelled w = .ok () w := hact
        rw [Watching.ofWalking, hcheck, List.append_nil]
        rfl
      | advance n => exact ⟨[(w.ticket.advance n).progress], rfl, rfl⟩
      | warn warning =>
        refine ⟨[], ?_, rfl⟩
        rw [List.append_nil]
        rfl
    obtain ⟨now, hnow, hsights⟩ := hfirst
    have hrest := ih hcancelled (seen ++ now)
    rw [List.append_assoc, hsights] at hrest
    show EStateM.bind a.perform (fun _ => Act.performAll acts) (⟨w, seen⟩ : Watched) = _
    rw [EStateM.bind, hnow]
    exact hrest

end Walk

/-- A script that nobody calls off comes to the same if somebody watches. -/
theorem Script.run_perform_watched {β : Type} (p : Script β) {w : Walk}
    (hw : w.ticket.cancelled = false) (seen : List Progress) :
    (p.perform : Watching β).run ⟨w, seen⟩ =
      .ok p.result ⟨w.after p.acts, seen ++ w.sights p.acts⟩ := by
  have hacts : (Act.performAll p.acts : Watching Unit) ⟨w, seen⟩ =
      .ok () ⟨w.after p.acts, seen ++ w.sights p.acts⟩ := Walk.run_acts_watched p.acts hw seen
  show EStateM.bind (Act.performAll p.acts) (fun _ => pure p.result) (⟨w, seen⟩ : Watched) = _
  rw [EStateM.bind, hacts]
  rfl

/-! ## 3. Drawings -/

namespace Drawing

variable {α : Type} [Coordinate α]

/-- **A tree that nobody calls off** advances its ticket by the number of its nodes (both are
    counted modulo `2 ^ 64`). An expression whose nodes have been counted beforehand is done when it
    is drawn. Whoever looks after an advance sees that no more nodes are done than there are; as
    long as the number of nodes fits into the counter, the one counter is not above the other. -/
theorem progress_counts_nodes (s : Setting α) (x : Node) (flags : Flags) {w : Walk}
    (hw : w.ticket.cancelled = false) :
    (∃ placed w', (node s x : Walking (Placed α)).run w = .ok placed w' ∧
      w'.ticket.progress =
        ⟨w.ticket.progress.done + UInt64.ofNat x.count, w.ticket.progress.total⟩) ∧
    ∃ placed w' seen,
      (expression s.config ⟨x, flags, s.groups⟩ : Walking (Placed α)).run
        { w with ticket := w.ticket.setTotal x.count } = .ok placed w' ∧
      w'.ticket.progress.done = w'.ticket.progress.total ∧
      (expression s.config ⟨x, flags, s.groups⟩ : Watching (Placed α)).run
        ⟨{ w with ticket := w.ticket.setTotal x.count }, []⟩ = .ok placed ⟨w', seen⟩ ∧
      (∀ p ∈ seen, ∃ k ≤ x.count, p = ⟨UInt64.ofNat k, UInt64.ofNat x.count⟩) ∧
      (x.count < UInt64.size → ∀ p ∈ seen, p.done ≤ p.total) := by
  refine ⟨⟨_, _, node_yields s x w hw, rfl⟩, ?_⟩
  let e : Expression := ⟨x, flags, s.groups⟩
  let start : Walk := { w with ticket := w.ticket.setTotal x.count }
  let script : Script (Placed α) := expression s.config e
  have hstart : start.ticket.cancelled = false := hw
  have hcount : Act.countAll script.acts = x.count := count_expression s.config e
  -- What is seen lies between nothing and everything.
  have hsights : ∀ p ∈ start.sights script.acts,
      ∃ k ≤ x.count, p = ⟨UInt64.ofNat k, UInt64.ofNat x.count⟩ := by
    intro p hp
    obtain ⟨k, hk, rfl⟩ := Walk.mem_sights hp
    refine ⟨k, hcount ▸ hk, ?_⟩
    simp [start, Ticket.setTotal, Ticket.advance]
  refine ⟨script.result, start.after script.acts, start.sights script.acts, ?_, ?_, ?_, hsights, ?_⟩
  · rw [← perform_expression]
    exact script.run_perform hstart
  · rw [start.after_eq_grow, hcount]
    simp [start, Walk.grow, Ticket.setTotal, Ticket.advance]
  · rw [← perform_expression]
    exact script.run_perform_watched hstart []
  · intro hsize p hp
    obtain ⟨k, hk, rfl⟩ := hsights p hp
    rw [UInt64.le_iff_toNat_le, UInt64.toNat_ofNat', UInt64.toNat_ofNat']
    rw [Nat.mod_eq_of_lt hsize, Nat.mod_eq_of_lt (Nat.lt_of_le_of_lt hk hsize)]
    exact hk

/-- Two characters in a row come as one text, and are two nodes: five nodes are done in the end, and
    never more than five on the way. -/
theorem progress_counts_nodes_of_run :
    let x : Node := .sequence [.literal (.char 'a'), .literal (.char 'b'),
      .repetition ⟨0, none, true⟩ (.literal (.char 'c'))]
    (∃ placed w', (node ⟨Config.standard, {}⟩ x : Walking (Placed Rat)).run {} = .ok placed w' ∧
      w'.ticket.progress = ⟨5, 0⟩) ∧
    ∃ placed w' seen,
      (expression Config.standard ⟨x, {}, {}⟩ : Watching (Placed Rat)).run
        ⟨{ ticket := { progress := ⟨0, 5⟩ } }, []⟩ = .ok placed ⟨w', seen⟩ ∧
      w'.ticket.progress.done = w'.ticket.progress.total ∧
      ∀ p ∈ seen, p.total = 5 ∧ p.done ≤ p.total := by
  intro x
  have hcount : x.count = 5 := rfl
  obtain ⟨⟨first, w₁, hnode, hprogress⟩, placed, w₂, seen, -, hdone, hwatched, hsights, hbelow⟩ :=
    progress_counts_nodes (⟨Config.standard, {}⟩ : Setting Rat) x {} (w := {}) rfl
  refine ⟨⟨first, w₁, hnode, hprogress⟩, placed, w₂, seen, hwatched, hdone, ?_⟩
  intro p hp
  obtain ⟨k, -, hk⟩ := hsights p hp
  have hsize : x.count < UInt64.size := by rw [hcount]; decide
  exact ⟨by rw [hk, hcount]; rfl, hbelow hsize p hp⟩

end Drawing

end PatternDiagram
