import PatternDiagram.Proofs.Captures

/-!
# The way to a group

Where the groups of a tree stand that capture:

* `Turn`, `Spot`: a way from the root down to a group, turn by turn, with the group;
* `Apart`: two ways that part in an alternation; groups whose ways do not part are on one path;
* `Node.spots`: the groups that capture with their ways, in the order of their opening parentheses;
* `Spot.Clashes`: two groups of one name on one path;
* `Scan`: the first group of a row that clashes with one before it; `Scan.pairwise_of_none`,
  `Scan.split_of_some` say what that means;
* `FirstClash`: the first of all groups that clashes with one before it;
* `Node.exists_scan`: **the clash that a scope finds is the first group that clashes**.
-/

namespace PatternDiagram

/-! ## 1. Ways -/

/-- A turn on the way from the root of a tree down to one of its groups. -/
inductive Turn where
  | item (i : Nat)
  | branch (i : Nat)
  | body
  deriving DecidableEq, Repr

/-- The turn is one in an alternation. -/
def Turn.isBranch : Turn → Bool
  | .branch _ => true
  | _ => false

/-- **The ways part in an alternation**: they go together to one, and there they go into different
    branches. -/
inductive Apart : List Turn → List Turn → Prop where
  | here {i j : Nat} (h : i ≠ j) (route route' : List Turn) :
      Apart (.branch i :: route) (.branch j :: route')
  | down {route route' : List Turn} (t : Turn) (h : Apart route route') :
      Apart (t :: route) (t :: route')

theorem not_apart_nil (route : List Turn) : ¬ Apart [] route := by
  intro h
  cases h

/-- Two ways part at their first turns, or behind them if these are the same. -/
theorem apart_cons_cons_iff (t t' : Turn) (route route' : List Turn) :
    Apart (t :: route) (t' :: route') ↔
      t ≠ t' ∧ t.isBranch = true ∧ t'.isBranch = true ∨ t = t' ∧ Apart route route' := by
  constructor
  · intro h
    cases h with
    | here hne => exact .inl ⟨by simp [hne], rfl, rfl⟩
    | down _ h => exact .inr ⟨rfl, h⟩
  · intro h
    rcases h with ⟨hne, ht, ht'⟩ | ⟨rfl, h⟩
    · cases t <;> cases t' <;> simp_all [Turn.isBranch, Apart.here]
    · exact .down t h

theorem apart_cons_iff (t : Turn) (route route' : List Turn) :
    Apart (t :: route) (t :: route') ↔ Apart route route' := by
  simp [apart_cons_cons_iff]

theorem not_apart_item {i j : Nat} (hne : i ≠ j) (route route' : List Turn) :
    ¬ Apart (.item i :: route) (.item j :: route') := by
  simp [apart_cons_cons_iff, Turn.isBranch, hne]

instance decidableApart : ∀ route route' : List Turn, Decidable (Apart route route')
  | [], route' => isFalse (not_apart_nil route')
  | _ :: _, [] => isFalse fun h => nomatch h
  | t :: route, t' :: route' =>
      have := decidableApart route route'
      decidable_of_iff _ (apart_cons_cons_iff t t' route route').symm

/-- A group that captures, and the way to it. -/
structure Spot where
  route : List Turn
  capture : Capture
  deriving DecidableEq, Repr

namespace Spot

/-- The group, one turn further down. -/
def under (t : Turn) (g : Spot) : Spot := { g with route := t :: g.route }

@[simp] theorem capture_under (t : Turn) (g : Spot) : (g.under t).capture = g.capture := rfl

/-- **The groups have one name and are on one path.** -/
def Clashes (g g' : Spot) : Prop :=
  ¬ Apart g.route g'.route ∧ ∃ s, g.capture.name = some s ∧ g'.capture.name = some s

instance (g g' : Spot) : Decidable (g.Clashes g') :=
  decidable_of_iff (¬ Apart g.route g'.route ∧ g.capture.name ≠ none ∧
      g'.capture.name = g.capture.name) <| by
    cases hname : g.capture.name <;> simp [Clashes, hname]

theorem clashes_under (t : Turn) (g g' : Spot) :
    (g.under t).Clashes (g'.under t) ↔ g.Clashes g' := by
  simp only [Clashes, under, apart_cons_iff]

/-- The group takes a name that is in `scope`, or clashes with one of the groups `before`. -/
def Repeats (scope : List String) (before : List Spot) (g : Spot) : Prop :=
  (∃ s ∈ scope, g.capture.name = some s) ∨ ∃ g' ∈ before, g'.Clashes g

theorem repeats_append (scope : List String) (front back : List Spot) (g : Spot) :
    g.Repeats scope (front ++ back) ↔ g.Repeats scope front ∨ ∃ g' ∈ back, g'.Clashes g := by
  simp only [Repeats, List.mem_append, or_and_right, exists_or, or_assoc]

theorem repeats_under (scope : List String) (t : Turn) (before : List Spot) (g : Spot) :
    (g.under t).Repeats scope (before.map (under t)) ↔ g.Repeats scope before := by
  have hclash : (∃ g' ∈ before.map (under t), g'.Clashes (g.under t)) ↔
      ∃ g' ∈ before, g'.Clashes g := by
    constructor
    · rintro ⟨_, hmem, h⟩
      obtain ⟨g', hg', rfl⟩ := List.mem_map.mp hmem
      exact ⟨g', hg', (clashes_under t g' g).mp h⟩
    · rintro ⟨g', hg', h⟩
      exact ⟨_, List.mem_map_of_mem hg', (clashes_under t g' g).mpr h⟩
  rw [Repeats, Repeats, hclash, capture_under]

/-- Behind the beginning of a group its name counts like one in scope: the group is on one path with
    all that is inside it. -/
theorem repeats_inside (scope : List String) (name : Option String) (index : Option Nat)
    (g : Spot) :
    g.Repeats (name.toList ++ scope) [] ↔ g.Repeats scope [⟨[], ⟨name, index⟩⟩] := by
  have hclash : Clashes ⟨[], ⟨name, index⟩⟩ g ↔ ∃ s, name = some s ∧ g.capture.name = some s :=
    and_iff_right (not_apart_nil g.route)
  cases name with
  | none => simp [Repeats, hclash]
  | some s => simp [Repeats, hclash, or_comm]

end Spot

namespace Node

mutual

/-- The groups that capture with the ways to them, each before those inside it. -/
def spots : Node → List Spot
  | .sequence items => spotsBelow .item 0 items
  | .alternation branches => spotsBelow .branch 0 branches
  | .group true name index body => ⟨[], ⟨name, index⟩⟩ :: body.spots.map (Spot.under .body)
  | .group false _ _ body => body.spots.map (Spot.under .body)
  | .repetition _ body => body.spots.map (Spot.under .body)
  | .lookaround _ _ body => body.spots.map (Spot.under .body)
  | .characterClass _ | .literal _ | .anchor _ | .backreference _ => []

/-- The groups of several trees, with a turn for each of the trees, from the `i`th on. -/
def spotsBelow (turn : Nat → Turn) (i : Nat) : List Node → List Spot
  | [] => []
  | x :: xs => x.spots.map (Spot.under (turn i)) ++ spotsBelow turn (i + 1) xs

end

theorem map_capture_under (t : Turn) (gs : List Spot) :
    (gs.map (Spot.under t)).map Spot.capture = gs.map Spot.capture := by
  rw [List.map_map]
  rfl

mutual

/-- **These are the groups that capture**, in their order. -/
theorem map_capture_spots : ∀ x : Node, x.spots.map Spot.capture = x.captures
  | .sequence items => by rw [spots, map_capture_spotsBelow, captures_sequence]
  | .alternation branches => by rw [spots, map_capture_spotsBelow, captures_alternation]
  | .group true name index body => by
      rw [spots, List.map_cons, map_capture_under, map_capture_spots body, captures_capture]
  | .group false name index body => by
      rw [spots, map_capture_under, map_capture_spots body, captures_plain]
  | .repetition q body => by
      rw [spots, map_capture_under, map_capture_spots body, captures_repetition]
  | .lookaround direction polarity body => by
      rw [spots, map_capture_under, map_capture_spots body, captures_lookaround]
  | .characterClass _ | .literal _ | .anchor _ | .backreference _ => rfl

theorem map_capture_spotsBelow (turn : Nat → Turn) (i : Nat) :
    ∀ xs : List Node, (spotsBelow turn i xs).map Spot.capture = xs.flatMap captures
  | [] => rfl
  | x :: xs => by
      rw [spotsBelow, List.map_append, map_capture_under, map_capture_spots x,
        map_capture_spotsBelow turn (i + 1) xs, List.flatMap_cons]

end

/-- The names of a tree are those of its groups. -/
theorem mem_names_iff_spot (x : Node) (s : String) :
    s ∈ x.names ↔ ∃ g ∈ x.spots, g.capture.name = some s := by
  simp [names, namesOf, ← map_capture_spots]

/-- The way to a group begins with the turn of its tree. -/
theorem route_of_mem_spotsBelow {turn : Nat → Turn} {i : Nat} {xs : List Node} {g : Spot}
    (h : g ∈ spotsBelow turn i xs) : ∃ j route, i ≤ j ∧ g.route = turn j :: route := by
  induction xs generalizing i with
  | nil => simp [spotsBelow] at h
  | cons x xs ih =>
    rw [spotsBelow, List.mem_append] at h
    rcases h with h | h
    · obtain ⟨g, -, rfl⟩ := List.mem_map.mp h
      exact ⟨i, g.route, Nat.le_refl i, rfl⟩
    · obtain ⟨j, route, hle, hroute⟩ := ih h
      exact ⟨j, route, by omega, hroute⟩

end Node

/-! ## 2. The first clash -/

/-- Reading the groups one after the other, behind the groups `before`, the first that repeats a
    name is the last argument. -/
inductive Scan (scope : List String) : List Spot → List Spot → Option Spot → Prop where
  | done (before : List Spot) : Scan scope before [] none
  | found {before gs : List Spot} {g : Spot} (h : g.Repeats scope before) :
      Scan scope before (g :: gs) (some g)
  | pass {before gs : List Spot} {g : Spot} {first : Option Spot} (h : ¬ g.Repeats scope before)
      (hs : Scan scope (before ++ [g]) gs first) : Scan scope before (g :: gs) first

namespace Scan

variable {scope scope' : List String} {before before' gs gs' : List Spot}
  {first first' : Option Spot}

theorem append (h : Scan scope before gs first) (h' : Scan scope (before ++ gs) gs' first') :
    Scan scope before (gs ++ gs') (first.or first') := by
  induction h with
  | done before => simpa using h'
  | found hg => exact .found hg
  | pass hg _ ih => exact .pass hg (ih (by simpa using h'))

/-- It only matters what repeats the names that there were. -/
theorem congr (h : Scan scope before gs first)
    (hrepeats : ∀ g ∈ gs, g.Repeats scope before ↔ g.Repeats scope' before') :
    Scan scope' before' gs first := by
  induction h generalizing before' with
  | done before => exact .done before'
  | found hg => exact .found ((hrepeats _ List.mem_cons_self).mp hg)
  | pass hg _ ih =>
    refine .pass (fun hg' => hg ((hrepeats _ List.mem_cons_self).mpr hg')) (ih fun g hmem => ?_)
    rw [Spot.repeats_append, Spot.repeats_append, hrepeats g (List.mem_cons_of_mem _ hmem)]

theorem under (t : Turn) (h : Scan scope before gs first) :
    Scan scope (before.map (Spot.under t)) (gs.map (Spot.under t))
      (first.map (Spot.under t)) := by
  induction h with
  | done before => exact .done _
  | found hg => exact .found ((Spot.repeats_under _ t _ _).mpr hg)
  | pass hg _ ih =>
    refine .pass (fun hg' => hg ((Spot.repeats_under _ t _ _).mp hg')) ?_
    rwa [List.map_append] at ih

/-- **If none is found, none repeats a name.** -/
theorem pairwise_of_none (h : Scan scope before gs none) :
    gs.Pairwise (fun g g' => ¬ g.Clashes g') ∧ ∀ g ∈ gs, ¬ g.Repeats scope before := by
  generalize hfirst : (none : Option Spot) = first at h
  induction h with
  | done before => simp
  | found hg => simp at hfirst
  | pass hg _ ih =>
    obtain ⟨hpairwise, hfree⟩ := ih hfirst
    refine ⟨List.pairwise_cons.mpr ⟨fun g' hg' hclash => ?_, hpairwise⟩,
      List.forall_mem_cons.mpr ⟨hg, fun g' hg' hrepeats => ?_⟩⟩
    · exact hfree g' hg' ((Spot.repeats_append _ _ _ _).mpr (.inr ⟨_, by simp, hclash⟩))
    · exact hfree g' hg' ((Spot.repeats_append _ _ _ _).mpr (.inl hrepeats))

/-- **The one that is found repeats a name, and none before it does.** -/
theorem split_of_some {g : Spot} (h : Scan scope before gs (some g)) :
    ∃ front back, gs = front ++ g :: back ∧ g.Repeats scope (before ++ front) ∧
      Scan scope before front none := by
  generalize hfirst : some g = first at h
  induction h with
  | done before => simp at hfirst
  | found hg =>
    obtain rfl := Option.some.inj hfirst
    exact ⟨[], _, rfl, by simpa using hg, .done _⟩
  | pass hg _ ih =>
    obtain ⟨front, back, rfl, hrepeats, hscan⟩ := ih hfirst
    exact ⟨_ :: front, back, rfl, by simpa using hrepeats, .pass hg hscan⟩

end Scan

/-- **The group is the first one to clash**: it takes the name of one of those in `front`, and none
    of these takes a name again. -/
structure FirstClash (gs front : List Spot) (g : Spot) (name : String) : Prop where
  split : ∃ back, gs = front ++ g :: back
  name_eq : g.capture.name = some name
  clashes : ∃ g' ∈ front, g'.Clashes g
  before : front.Pairwise fun g g' => ¬ g.Clashes g'

theorem FirstClash.not_pairwise {gs front : List Spot} {g : Spot} {name : String}
    (h : FirstClash gs front g name) : ¬ gs.Pairwise fun g g' => ¬ g.Clashes g' := by
  obtain ⟨back, rfl⟩ := h.split
  obtain ⟨g', hg', hclash⟩ := h.clashes
  intro hapart
  rw [List.pairwise_append] at hapart
  exact hapart.2.2 g' hg' g List.mem_cons_self hclash

/-- **With no names in scope, the one that is found is the first one to clash.** -/
theorem Scan.firstClash {gs : List Spot} {g : Spot} (h : Scan [] [] gs (some g)) :
    ∃ front name, FirstClash gs front g name := by
  obtain ⟨front, back, hgs, hrepeats, hfront⟩ := h.split_of_some
  obtain ⟨g', hg', hclash⟩ : ∃ g' ∈ front, g'.Clashes g := by
    simpa [Spot.Repeats] using hrepeats
  obtain ⟨name, -, hname⟩ := hclash.2
  exact ⟨front, name, ⟨back, hgs⟩, hname, ⟨g', hg', hclash⟩, hfront.pairwise_of_none.1⟩

/-! ## 3. The clash that a scope finds -/

namespace Node

/-- A group of a later item is on one path with those of an item before it. -/
theorem repeats_behind_item (scope : List String) (x : Node) {xs : List Node} {i : Nat} {g : Spot}
    (hg : g ∈ spotsBelow .item (i + 1) xs) :
    g.Repeats (x.names ++ scope) [] ↔ g.Repeats scope (x.spots.map (Spot.under (.item i))) := by
  obtain ⟨j, route, hle, hroute⟩ := route_of_mem_spotsBelow hg
  have hclash (g' : Spot) : (g'.under (.item i)).Clashes g ↔
      ∃ s, g'.capture.name = some s ∧ g.capture.name = some s := by
    rw [Spot.Clashes, hroute]
    exact and_iff_right (not_apart_item (by omega) _ _)
  have hnames : (∃ g' ∈ x.spots.map (Spot.under (.item i)), g'.Clashes g) ↔
      ∃ s ∈ x.names, g.capture.name = some s := by
    simp only [List.mem_map, mem_names_iff_spot]
    constructor
    · rintro ⟨_, ⟨g', hg', rfl⟩, h⟩
      obtain ⟨s, hs, hs'⟩ := (hclash g').mp h
      exact ⟨s, ⟨g', hg', hs⟩, hs'⟩
    · rintro ⟨s, ⟨g', hg', hs⟩, hs'⟩
      exact ⟨_, ⟨g', hg', rfl⟩, (hclash g').mpr ⟨s, hs, hs'⟩⟩
  rw [Spot.Repeats, Spot.Repeats, hnames]
  simp [or_and_right, exists_or, or_comm]

/-- A group of a later branch is on no path with those of a branch before it. -/
theorem repeats_behind_branch (scope : List String) (x : Node) {xs : List Node} {i : Nat}
    {g : Spot} (hg : g ∈ spotsBelow .branch (i + 1) xs) :
    g.Repeats scope [] ↔ g.Repeats scope (x.spots.map (Spot.under (.branch i))) := by
  obtain ⟨j, route, hle, hroute⟩ := route_of_mem_spotsBelow hg
  have hclash : ¬ ∃ g' ∈ x.spots.map (Spot.under (.branch i)), g'.Clashes g := by
    rintro ⟨g', hg', happart, -⟩
    obtain ⟨g', -, rfl⟩ := List.mem_map.mp hg'
    rw [hroute] at happart
    exact happart (.here (by omega) _ _)
  rw [Spot.Repeats, Spot.Repeats, or_iff_left hclash]
  simp

theorem map_capture_or (t : Turn) (first first' : Option Spot) :
    ((first.map (Spot.under t)).or first').map Spot.capture =
      (first.map Spot.capture).or (first'.map Spot.capture) := by
  cases first <;> rfl

/-- A clash stays the same one turn further down. -/
theorem exists_scan_under {scope : List String} {before gs : List Spot} {clash : Option Capture}
    (t : Turn) (h : ∃ first, Scan scope before gs first ∧ first.map Spot.capture = clash) :
    ∃ first, Scan scope (before.map (Spot.under t)) (gs.map (Spot.under t)) first ∧
      first.map Spot.capture = clash := by
  obtain ⟨first, hscan, rfl⟩ := h
  exact ⟨_, hscan.under t, by cases first <;> rfl⟩

mutual

/-- **The clash that a scope finds is the first group that clashes.** -/
theorem exists_scan (scope : List String) :
    ∀ x : Node, ∃ first, Scan scope [] x.spots first ∧
      first.map Spot.capture = x.clash? scope
  | .sequence items => exists_scanThrough scope 0 items
  | .alternation branches => exists_scanInto scope 0 branches
  | .group true none index body => by
      obtain ⟨first, hscan, hfirst⟩ := exists_scan_under .body (exists_scan scope body)
      have hinside := hscan.congr fun g _ => Spot.repeats_inside scope none index g
      exact ⟨first, .pass (by simp [Spot.Repeats]) hinside, hfirst⟩
  | .group true (some s) index body => by
      rw [spots, clash?]
      by_cases hs : s ∈ scope
      · exact ⟨_, .found (.inl ⟨s, hs, rfl⟩), by simp [hs]⟩
      · obtain ⟨first, hscan, hfirst⟩ := exists_scan_under .body (exists_scan (s :: scope) body)
        have hinside := hscan.congr fun g _ => Spot.repeats_inside scope (some s) index g
        rw [if_neg hs]
        exact ⟨first, .pass (by simp [Spot.Repeats, hs]) hinside, hfirst⟩
  | .group false _ _ body => exists_scan_under .body (exists_scan scope body)
  | .repetition _ body => exists_scan_under .body (exists_scan scope body)
  | .lookaround _ _ body => exists_scan_under .body (exists_scan scope body)
  | .characterClass _ | .literal _ | .anchor _ | .backreference _ =>
      ⟨none, .done [], by simp [clash?]⟩

theorem exists_scanThrough (scope : List String) (i : Nat) :
    ∀ xs : List Node, ∃ first, Scan scope [] (spotsBelow .item i xs) first ∧
      first.map Spot.capture = clashThrough? scope xs
  | [] => ⟨none, .done [], rfl⟩
  | x :: xs => by
      obtain ⟨first, hscan, hfirst⟩ := exists_scan scope x
      obtain ⟨first', hscan', hfirst'⟩ := exists_scanThrough (x.names ++ scope) (i + 1) xs
      have hbehind := hscan'.congr fun g hg => repeats_behind_item scope x hg
      refine ⟨_, (hscan.under (.item i)).append hbehind, ?_⟩
      rw [clashThrough?, ← hfirst, ← hfirst', map_capture_or]

theorem exists_scanInto (scope : List String) (i : Nat) :
    ∀ xs : List Node, ∃ first, Scan scope [] (spotsBelow .branch i xs) first ∧
      first.map Spot.capture = clashInto? scope xs
  | [] => ⟨none, .done [], rfl⟩
  | x :: xs => by
      obtain ⟨first, hscan, hfirst⟩ := exists_scan scope x
      obtain ⟨first', hscan', hfirst'⟩ := exists_scanInto scope (i + 1) xs
      have hbehind := hscan'.congr fun g hg => repeats_behind_branch scope x hg
      refine ⟨_, (hscan.under (.branch i)).append hbehind, ?_⟩
      rw [clashInto?, ← hfirst, ← hfirst', map_capture_or]

end

end Node

end PatternDiagram
