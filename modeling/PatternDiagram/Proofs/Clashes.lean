import PatternDiagram.Proofs.Numbering
import PatternDiagram.Proofs.Routes
import PatternDiagram.Proofs.Sites
import PatternDiagram.Proofs.Unchecked

/-!
# Which group is refused

A pattern that is fine but for the names of its groups is refused because of the first group that
takes a name again:

* `Opening`, `openings`: where in a pattern the groups begin that capture;
* `Derives.map_name_openings`: they are the groups of the tree, in the same order;
* `Machine.Rejects.opens`, `Machine.openings_of_step`, `Machine.openings_of_run`: a refusal is
  about one of these places, and the numbers that are gone say which;
* `Reader.parse_ofPattern_clashes`: **a pattern is accepted unless two groups on one path have one
  name, and otherwise refused where the first such group begins**.
-/

namespace PatternDiagram

open Grammar

/-! ## 1. Where groups begin -/

/-- The beginning of a group that captures. -/
structure Opening where
  /-- What is left of the pattern from the parenthesis on. -/
  site : List Char
  name : Option String
  deriving DecidableEq, Repr

/-- The word begins a group that captures, and with this name. -/
def Word.opens? : Word → Option (Option String)
  | .token (.groupOpen (.capture name)) => some name
  | _ => none

/-- **The beginnings of the groups that capture**, in order, up to the end of the pattern or to
    something malformed. -/
def openings (cs : List Char) : List Opening :=
  match _ : Word.next? cs with
  | some (w, rest) => (w.opens?.map (Opening.mk cs)).toList ++ openings rest
  | none => []
termination_by cs.length
decreasing_by exact Word.next?_length ‹_›

theorem openings_of_next? {cs rest : List Char} {w : Word} (h : Word.next? cs = some (w, rest)) :
    openings cs = (w.opens?.map (Opening.mk cs)).toList ++ openings rest := by
  rw [openings]
  split
  · rename_i heq
    rw [h] at heq
    simp only [Option.some.injEq, Prod.mk.injEq] at heq
    obtain ⟨rfl, rfl⟩ := heq
    rfl
  · rename_i heq
    rw [h] at heq
    simp at heq

theorem openings_nil : openings [] = [] := by
  rw [openings]
  split
  · rename_i heq
    simp at heq
  · rfl

/-- The groups that begin in a row of words. -/
theorem Reads.map_name_openings {cs rest : List Char} {ws : List Word} (h : Reads cs ws rest) :
    (openings cs).map Opening.name =
      ws.filterMap Word.opens? ++ (openings rest).map Opening.name := by
  induction h with
  | done => rfl
  | more hw _ ih =>
    rename_i w ws _
    rw [openings_of_next? hw, List.map_append, ih]
    cases hopens : w.opens? with
    | none => rw [List.filterMap_cons_none hopens]; rfl
    | some name => rw [List.filterMap_cons_some hopens]; rfl

/-- A word that begins a group begins with a parenthesis. -/
theorem Word.eq_cons_of_opens? {cs rest : List Char} {w : Word} {name : Option String}
    (hw : next? cs = some (w, rest)) (hopens : w.opens? = some name) :
    ∃ more, cs = '(' :: more := by
  unfold opens? at hopens
  split at hopens
  · obtain ⟨c, hc, hbegin⟩ := Token.mayBegin_of_next (next?_token_iff.mp hw).1
    obtain ⟨more, rfl⟩ := List.head?_eq_some_iff.mp hc
    exact ⟨more, congrArg (· :: more) hbegin⟩
  · simp at hopens

/-- **Each of these places is that of a parenthesis in the pattern.** -/
theorem Reads.site_of_mem_openings {cs : List Char} {ws : List Word} {o : Opening}
    (h : Reads cs ws []) (ho : o ∈ openings cs) :
    ∃ before more, cs = before ++ '(' :: more ∧ o.site = '(' :: more := by
  induction ws generalizing cs with
  | nil =>
    cases h
    rw [openings_nil] at ho
    exact absurd ho List.not_mem_nil
  | cons w ws ih =>
    cases h with
    | more hw hs =>
      rw [openings_of_next? hw, List.mem_append] at ho
      rcases ho with ho | ho
      · obtain ⟨name, hopens, rfl⟩ : ∃ name, w.opens? = some name ∧ Opening.mk cs name = o := by
          simpa using ho
        obtain ⟨more, rfl⟩ := Word.eq_cons_of_opens? hw hopens
        exact ⟨[], more, rfl, rfl⟩
      · obtain ⟨before, more, rfl, hsite⟩ := ih hs ho
        obtain ⟨front, rfl⟩ := (Reads.single hw).suffix
        exact ⟨front ++ before, more, by rw [List.append_assoc], hsite⟩

namespace Grammar

mutual

theorem Atom.opens {n n' : Nat} {ws : List Word} {x : Node} :
    Atom n ws x n' → ws.filterMap Word.opens? = x.captures.map Capture.name
  | .literal _ _ | .anchor _ _ | .backreference _ _ | .characterClass _ _ => rfl
  | .group head body => by
      have ih := body.opens
      cases head with
      | capture name =>
        simpa [GroupHead.node, List.filterMap_cons, Word.opens?] using ih
      | plain => simpa [GroupHead.node, List.filterMap_cons, Word.opens?] using ih
      | look direction polarity =>
        simpa [GroupHead.node, List.filterMap_cons, Word.opens?] using ih
termination_by structural h => h

theorem Piece.opens {n n' : Nat} {ws : List Word} {x : Node} :
    Piece n ws x n' → ws.filterMap Word.opens? = x.captures.map Capture.name
  | .once h => h.opens
  | .repeated q h _ => by
      simpa [List.filterMap_cons, Word.opens?] using h.opens
termination_by structural h => h

theorem Row.opens {n n' : Nat} {ws : List Word} {xs : List Node} :
    Row n ws xs n' → ws.filterMap Word.opens? = (xs.flatMap Node.captures).map Capture.name
  | .nil _ => rfl
  | .cons h hs => by
      rw [List.filterMap_append, h.opens, hs.opens, List.flatMap_cons, List.map_append]
termination_by structural h => h

theorem Choice.opens {n n' : Nat} {ws : List Word} {xs : List Node} :
    Choice n ws xs n' → ws.filterMap Word.opens? = (xs.flatMap Node.captures).map Capture.name
  | .one h => by
      simpa using h.opens
  | .more h hs => by
      simpa [List.filterMap_cons, Word.opens?, hs.opens] using h.opens
termination_by structural h => h

end

end Grammar

/-- **The groups that begin in a pattern are those of its tree**, in the same order. -/
theorem Derives.map_name_openings {n : Nat} {pattern : List Char} {ws : List Word} {x : Node}
    (hw : Reads pattern ws []) (h : Derives n ws x) :
    (openings pattern).map Opening.name = x.captures.map Capture.name := by
  obtain ⟨xs, next, hxs, rfl⟩ := h
  rw [hw.map_name_openings, openings_nil, hxs.opens, Node.captures_ofBranches]
  exact List.append_nil _

/-! ## 2. Where a run is refused -/

namespace Machine

/-- A word that leads on gives out one number if it begins a group that captures, and otherwise
    none. -/
theorem allots_length_of_next? {m : Machine} {w : Word} {rest : List Char}
    (h : Word.next? m.rest = some (w, rest)) : m.allots.length = w.opens?.toList.length := by
  cases w with
  | characterClass c =>
    obtain ⟨inner, hnext, -⟩ := Word.next?_characterClass_iff.mp h
    simp [allots, hnext, Word.opens?]
  | token t =>
    obtain ⟨hnext, -⟩ := Word.next?_token_iff.mp h
    cases t with
    | groupOpen head => cases head <;> simp [allots, hnext, Word.opens?]
    | _ => simp [allots, hnext, Word.opens?]

/-- A token that cannot be read gives no name twice. -/
theorem ne_duplicate_of_fails {cs : List Char} {fault : Fault} (h : Token.Fails cs fault)
    (s : String) : fault ≠ .duplicateGroupName s := by
  cases h <;> simp

/-- **A token is refused because of a name only where it begins a group with this name.** Its number
    is gone all the same. -/
theorem Rejects.opens {m : Machine} {t : Token} {rest : List Char} {f : Failure} {naming : Naming}
    {s : String} (h : m.Rejects rest t f naming) (hfault : f.fault = .duplicateGroupName s) :
    t = .groupOpen (.capture (some s)) ∧ f.site = m.rest ∧ naming.next = m.naming.next + 1 := by
  cases h with
  | name hs =>
    obtain ⟨rfl⟩ := hfault
    exact ⟨rfl, rfl, rfl⟩
  | close => simp at hfault
  | repetition => simp at hfault
  | classBody negated hread =>
    rcases ClassBody.read_error hread with ⟨hother, -⟩ | ⟨hother, -⟩
    all_goals simp [hother] at hfault

/-- **A step that is refused because of a name is at the beginning of a group.** -/
theorem openings_of_step {m : Machine} {f : Failure} {naming : Naming} {s : String}
    (h : m.step = .failed f naming) (hfault : f.fault = .duplicateGroupName s) :
    (openings m.rest)[0]? = some ⟨f.site, some s⟩ ∧ naming.next = m.naming.next + 1 := by
  unfold step at h
  split at h
  · rename_i f' hnext
    obtain ⟨rfl, -⟩ := Step.failed.inj h
    obtain ⟨-, hfails⟩ := Token.fails_of_next hnext
    exact absurd hfault (ne_duplicate_of_fails hfails s)
  · simp only [atEnd] at h
    split at h
    · simp at h
    · obtain ⟨rfl, -⟩ := Step.failed.inj h
      simp at hfault
  · rename_i t rest hnext
    obtain ⟨rfl, hsite, hnaming⟩ := (rejects_of_take h).opens hfault
    have hword : Word.next? m.rest = some (.token (.groupOpen (.capture (some s))), rest) :=
      Word.next?_token_iff.mpr ⟨hnext, by simp⟩
    rw [openings_of_next? hword, hsite]
    exact ⟨rfl, hnaming⟩

/-- **A run that is refused because of a name is refused at the beginning of a group**, and as many
    numbers are gone as groups have begun. -/
theorem openings_of_run {m : Machine} {f : Failure} {naming : Naming} {s : String}
    (h : m.run = ⟨.error f, naming⟩) (hfault : f.fault = .duplicateGroupName s) :
    ∃ k, (openings m.rest)[k]? = some ⟨f.site, some s⟩ ∧ naming.next = m.naming.next + k + 1 := by
  fun_induction run m with
  | case1 m m' hstep ih =>
    obtain ⟨w, hnext, -⟩ := word_of_step hstep
    obtain ⟨k, hopening, hnaming⟩ := ih h
    have hgone : m'.naming.next = m.naming.next + m.allots.length := by
      rw [← m.next_step, hstep]
      rfl
    have hlength : (w.opens?.map (Opening.mk m.rest)).toList.length = m.allots.length := by
      rw [allots_length_of_next? hnext]
      cases w.opens? <;> rfl
    refine ⟨m.allots.length + k, ?_, by omega⟩
    rw [openings_of_next? hnext, ← hlength, List.getElem?_append_right (Nat.le_add_right _ _),
      Nat.add_sub_cancel_left]
    exact hopening
  | case2 m root naming' hstep => simp at h
  | case3 m f' naming' hstep =>
    simp only [Outcome.mk.injEq, Except.error.injEq] at h
    obtain ⟨rfl, rfl⟩ := h
    obtain ⟨hopening, hnaming⟩ := openings_of_step hstep hfault
    exact ⟨0, hopening, hnaming⟩

end Machine

/-! ## 3. Whole patterns -/

/-- The number of a group comes from how many groups begin before it. -/
theorem Numbered.index_eq {n n' : Nat} {front back : List Spot} {g : Spot}
    (h : Numbered n ((front ++ g :: back).map Spot.capture) n') :
    g.capture.index = some (n + front.length) := by
  obtain ⟨k, -, hindex⟩ := h
  have hat : ((front ++ g :: back).map fun g => g.capture.index)[front.length]? =
      some g.capture.index := by
    simp
  have hlt : front.length < k := by
    have hlength := congrArg List.length hindex
    simp only [List.length_map, List.length_append, List.length_cons,
      List.length_range'] at hlength
    omega
  have hmap : ((front ++ g :: back).map fun g => g.capture.index) =
      (List.range' n k).map some := by
    rw [← hindex, List.map_map]
    rfl
  rw [hmap] at hat
  simpa [hlt] using hat.symm

namespace Machine

/-- **A pattern that is fine but for its names** is accepted if no two groups on one path have one
    name, and otherwise refused because of the first group that is on one path with an earlier one
    of its name. -/
theorem run_of_runUnchecked {pattern : List Char} {tree : Node}
    (h : (start {} pattern).runUnchecked = .ok tree) :
    ((tree.spots.Pairwise fun g g' => ¬ g.Clashes g') ∧
      (start {} pattern).run.result = .ok tree) ∨
    ∃ front g name f, FirstClash tree.spots front g name ∧
      (openings pattern)[front.length]? = some ⟨f.site, some name⟩ ∧
      (start {} pattern).run.result = .error f ∧ f.fault = .duplicateGroupName name := by
  obtain ⟨ws, hws, xs, next, hxs, rfl⟩ := derives_of_start_runUnchecked h
  have hmeets := @run_of_choice {} pattern ws xs next hws hxs
  obtain ⟨first, hscan, hfirst⟩ := (Node.ofBranches xs).exists_scan []
  cases first with
  | none =>
    obtain ⟨after, hrun, -⟩ := hmeets.accepts hfirst.symm
    exact .inl ⟨hscan.pairwise_of_none.1, by rw [hrun]⟩
  | some g =>
    obtain ⟨front, name, hclash⟩ := hscan.firstClash
    obtain ⟨f, naming, hrun, hfault, n, hindex, hnaming⟩ := hmeets.refuses g.capture hfirst.symm
    rw [hclash.name_eq, Option.getD_some] at hfault
    -- the numbers that are gone tell which group has been refused
    have hnumbered : Numbered 1 ((Node.ofBranches xs).spots.map Spot.capture) next := by
      rw [Node.map_capture_spots, Node.captures_ofBranches]
      exact hxs.numbered
    obtain ⟨back, hspots⟩ := hclash.split
    rw [hspots] at hnumbered
    rw [hnumbered.index_eq, Option.some.injEq] at hindex
    obtain ⟨k, hopening, hgone⟩ := openings_of_run hrun hfault
    have hk : k = front.length := by
      have hstart : naming.next = 1 + k + 1 := hgone
      omega
    exact .inr ⟨front, g, name, f, hclash, hk ▸ hopening, by rw [hrun], hfault⟩

end Machine

namespace Reader

/-- **Names of groups.** Let a pattern be read as a tree when nobody minds the names of its groups.
    Then it is accepted, with just that tree, if and only if no two groups on one path have one
    name. Otherwise it is refused because of the first group, in the order of their opening
    parentheses, that is on one path with an earlier one of its name, at the place of its
    parenthesis. -/
theorem parse_ofPattern_clashes (pattern : List Char) (base : Nat) {tree : Node}
    (h : (Machine.start {} pattern).runUnchecked = .ok tree) :
    ((∃ root, (ofPattern pattern base).parse.1 = .ok root) ↔
      tree.spots.Pairwise fun g g' => ¬ g.Clashes g') ∧
    (∀ root, (ofPattern pattern base).parse.1 = .ok root → root = tree) ∧
    (openings pattern).map Opening.name = tree.spots.map (fun g => g.capture.name) ∧
    ∀ e, (ofPattern pattern base).parse.1 = .error e → ∃ front g name before more,
      FirstClash tree.spots front g name ∧ pattern = before ++ '(' :: more ∧
      (openings pattern)[front.length]? = some ⟨'(' :: more, some name⟩ ∧
      e = ⟨.duplicateGroupName name, base + before.length⟩ ∧
      e.fault.message = "duplicate group name '" ++ name ++ "'" := by
  obtain ⟨ws, hws, hderives⟩ := Machine.derives_of_start_runUnchecked h
  have hnames : (openings pattern).map Opening.name =
      tree.spots.map (fun g => g.capture.name) := by
    rw [hderives.map_name_openings hws, ← Node.map_capture_spots, List.map_map]
    rfl
  rcases Machine.run_of_runUnchecked h with ⟨hapart, hrun⟩ | hrefused
  · have hparse : (ofPattern pattern base).parse.1 = .ok tree :=
      (parse_eq_ok_iff _ tree).mpr hrun
    refine ⟨⟨fun _ => hapart, fun _ => ⟨tree, hparse⟩⟩, fun root hroot => ?_, hnames,
      fun e he => ?_⟩
    · exact Except.ok.inj (hroot.symm.trans hparse)
    · simp [hparse] at he
  · obtain ⟨front, g, name, f, hclash, hopening, hrun, hfault⟩ := hrefused
    have hparse : (ofPattern pattern base).parse.1 =
        .error ⟨f.fault, base + (pattern.length - f.site.length)⟩ :=
      (parse_eq_error_iff _ _).mpr ⟨f, hrun, rfl⟩
    refine ⟨⟨fun ⟨root, hroot⟩ => ?_, fun hapart => absurd hapart hclash.not_pairwise⟩,
      fun root hroot => ?_, hnames, fun e he => ?_⟩
    · simp [hparse] at hroot
    · simp [hparse] at hroot
    · obtain ⟨before, more, hpattern, hsite⟩ :=
        hws.site_of_mem_openings (List.mem_of_getElem? hopening)
      simp only at hsite
      have hbefore : pattern.length - f.site.length = before.length := by
        rw [hpattern, hsite, List.length_append, Nat.add_sub_cancel]
      rw [hparse, hfault, hbefore] at he
      obtain rfl := Except.error.inj he
      exact ⟨front, g, name, before, more, hclash, hpattern, hsite ▸ hopening, rfl, rfl⟩

set_option maxRecDepth 100000 in
/-- A group that takes the name of the one around it, in a branch behind another with that name. -/
theorem parse_ofPattern_clashes_of_nested :
    (Machine.start {} "(?<a>x)|(?<a>(?<a>))".toList).runUnchecked =
      .ok (.alternation [.group true (some "a") (some 1) (.literal (.char 'x')),
        .group true (some "a") (some 2) (.group true (some "a") (some 3) (.sequence []))]) ∧
    (¬ ∃ root, (ofPattern "(?<a>x)|(?<a>(?<a>))".toList 0).parse.1 = .ok root) ∧
    (openings "(?<a>x)|(?<a>(?<a>))".toList).map Opening.name = [some "a", some "a", some "a"] ∧
    (ofPattern "(?<a>x)|(?<a>(?<a>))".toList 0).parse.1 =
      .error ⟨.duplicateGroupName "a", 13⟩ := by
  have hrun : (Machine.start {} "(?<a>x)|(?<a>(?<a>))".toList).runUnchecked =
      .ok (.alternation [.group true (some "a") (some 1) (.literal (.char 'x')),
        .group true (some "a") (some 2) (.group true (some "a") (some 3) (.sequence []))]) := by
    with_unfolding_all rfl
  obtain ⟨haccepted, -, hnames, -⟩ := parse_ofPattern_clashes _ 0 hrun
  refine ⟨hrun, fun h => ?_, hnames, by with_unfolding_all rfl⟩
  exact absurd (haccepted.mp h) (by decide)

end Reader

end PatternDiagram
