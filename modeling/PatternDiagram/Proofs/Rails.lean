import PatternDiagram.Proofs.Lines

/-!
# Rails across gaps

What is put into something else may begin behind the axis of the whole, or end before it. The gap is
to be bridged by a rail:

* `Shape.Covers`, `Shape.Bridges`: a connector covers a gap; some connector of a drawing does, if
  there is a gap at all;
* `Drawing.Overhangs`: a caption is wider than the frame below it; `Drawing.Unlinked`: the body of a
  repetition with an exact count has such a caption;
* `Drawing.through_drawn`: **a line can be followed through a tree** with no such repetition in it;
* `Drawing.node_bridges_gaps`: **every gap of every node of a tree that is read is bridged**, but
  for the one behind the body of such a repetition, which never is.
-/

namespace PatternDiagram

open Coordinate (ofNat)

/-! ## 1. Gaps -/

namespace PathCommand

/-- Where a command ends. -/
def stop : PathCommand Rat → Rat × Rat
  | .move x y => (x, y)
  | .line x y => (x, y)
  | .curve _ _ x y => (x, y)

/-- The straight pieces of a path, each with its ends. -/
def straights (commands : List (PathCommand Rat)) : List ((Rat × Rat) × (Rat × Rat)) :=
  (commands.zip commands.tail).filterMap fun
    | (before, .line x y) => some (before.stop, (x, y))
    | _ => none

theorem stop_mem_named (command : PathCommand Rat) : command.stop ∈ command.named := by
  cases command <;> simp [stop, named]

/-- The ends of a straight piece are points of the path. -/
theorem mem_named_of_mem_straights {commands : List (PathCommand Rat)}
    {piece : (Rat × Rat) × (Rat × Rat)} (h : piece ∈ straights commands) :
    piece.1 ∈ commands.flatMap named ∧ piece.2 ∈ commands.flatMap named := by
  obtain ⟨⟨before, command⟩, hpair, hpiece⟩ := List.mem_filterMap.mp h
  obtain ⟨hbefore, hcommand⟩ := List.of_mem_zip hpair
  cases command with
  | line x y =>
    obtain rfl : (before.stop, (x, y)) = piece := Option.some.inj hpiece
    exact ⟨List.mem_flatMap.mpr ⟨before, hbefore, before.stop_mem_named⟩,
      List.mem_flatMap.mpr ⟨_, List.mem_of_mem_tail hcommand, List.mem_singleton_self _⟩⟩
  | move x y => cases hpiece
  | curve cx cy x y => cases hpiece

end PathCommand

namespace Shape

/-- **The connector covers the gap** from `x₁` to `x₂` at the height `y` with one straight piece. -/
def Covers (x₁ x₂ y : Rat) : Shape Rat → Prop
  | .path style commands => style ∈ connectorStyles ∧
      ∃ piece ∈ PathCommand.straights commands, (piece.1.2 = y ∧ piece.2.2 = y) ∧
        min piece.1.1 piece.2.1 ≤ min x₁ x₂ ∧ max x₁ x₂ ≤ max piece.1.1 piece.2.1
  | _ => False

/-- **The gap is bridged**: if there is one, a connector of the drawing covers it. -/
def Bridges (s : Shape Rat) (x₁ x₂ y : Rat) : Prop :=
  x₁ ≠ x₂ → ∃ leaf ∈ s.leaves, leaf.Covers x₁ x₂ y

/-- The points of a path. -/
def pathPoints : Shape Rat → List (Rat × Rat)
  | .path _ commands => commands.flatMap PathCommand.named
  | _ => []

/-- The points of all the paths in a shape. -/
def traced (s : Shape Rat) : List (Rat × Rat) := s.leaves.flatMap pathPoints

theorem covers_rail (x₁ x₂ y : Rat) : (rail x₁ x₂ y).Covers x₁ x₂ y :=
  ⟨by decide, ((x₁, y), (x₂, y)), List.mem_singleton_self _, ⟨rfl, rfl⟩, le_refl _, le_refl _⟩

/-- **A rail in the gap** bridges it. -/
theorem bridges_of_rail {style : String} {children : List (Shape Rat)} {x₁ x₂ y : Rat}
    (h : rail x₁ x₂ y ∈ children) : (plain style children).Bridges x₁ x₂ y := by
  refine fun _ => ⟨rail x₁ x₂ y, ?_, covers_rail x₁ x₂ y⟩
  rw [leaves_plain]
  exact List.mem_flatMap.mpr ⟨_, h, List.mem_singleton_self _⟩

/-- **A gap behind all paths** is not bridged. -/
theorem not_bridges_of_traced {s : Shape Rat} {x₁ x₂ : Rat} (h : ∀ p ∈ s.traced, p.1 ≤ x₁)
    (hgap : x₁ < x₂) (y : Rat) : ¬ s.Bridges x₁ x₂ y := by
  intro hbridges
  obtain ⟨leaf, hleaf, hcovers⟩ := hbridges hgap.ne
  cases leaf with
  | path style commands =>
    obtain ⟨-, piece, hpiece, -, -, hreach⟩ := hcovers
    obtain ⟨hfirst, hsecond⟩ := PathCommand.mem_named_of_mem_straights hpiece
    have hbound (p : Rat × Rat) (hp : p ∈ commands.flatMap PathCommand.named) : p.1 ≤ x₁ :=
      h p (List.mem_flatMap.mpr ⟨_, hleaf, hp⟩)
    have hmax : max piece.1.1 piece.2.1 ≤ x₁ := max_le (hbound _ hfirst) (hbound _ hsecond)
    exact absurd ((le_max_right x₁ x₂).trans (hreach.trans hmax)) (not_le.mpr hgap)
  | group style dx dy children => exact hcovers
  | rect style x y width height rx => exact hcovers
  | circle style cx cy r => exact hcovers
  | text style x y width height content => exact hcovers

theorem traced_plain (style : String) (children : List (Shape Rat)) :
    (plain style children).traced = children.flatMap traced := by
  rw [traced, leaves_plain, List.flatMap_assoc]
  rfl

theorem traced_translate (dx dy : Rat) (s : Shape Rat) :
    (s.translate dx dy).traced = s.traced.map (shift dx dy) := by
  have hleaf (leaf : Shape Rat) :
      (leaf.translate dx dy).pathPoints = leaf.pathPoints.map (shift dx dy) := by
    cases leaf with
    | path style commands => exact PathCommand.flatMap_named_translate dx dy commands
    | _ => rfl
  rw [traced, leaves_translate, List.flatMap_map, traced, List.map_flatMap]
  exact congrArg (s.leaves.flatMap ·) (funext hleaf)

/-- What is traced is measured. -/
theorem traced_subset_points {s : Shape Rat} {p : Rat × Rat} (h : p ∈ s.traced) : p ∈ s.points := by
  obtain ⟨leaf, hleaf, hp⟩ := List.mem_flatMap.mp h
  rw [points_eq_leaves]
  refine List.mem_flatMap.mpr ⟨leaf, hleaf, ?_⟩
  cases leaf with
  | path style commands =>
    rw [points_path]
    exact hp
  | _ => cases hp

/-- What holds of all measured points holds of what is traced. -/
theorem forall_traced {s : Shape Rat} {P : Rat × Rat → Prop} (h : ∀ p ∈ s.points, P p) :
    ∀ p ∈ s.traced, P p := fun p hp => h p (traced_subset_points hp)

end Shape

/-- What a group, a lookaround or a repetition is put around. -/
def Node.body? : Node → Option Node
  | .group _ _ _ body => some body
  | .lookaround _ _ body => some body
  | .repetition _ body => some body
  | _ => none

namespace Drawing

open Node Placed Spacing

variable {c : Config Rat}

/-! ## 2. Captions -/

/-- How wide a caption is, if there is one. -/
def captionWidth (c : Config Rat) (caption : Option String) : Rat :=
  caption.elim 0 fun text => (c.textSize text).1

theorem points_captionText (c : Config Rat) (x y : Rat) (text : String) :
    (captionText c x y text).points =
      corners x (y - (c.textSize text).2 - 2) (c.textSize text).1 (c.textSize text).2 :=
  Shape.points_text ..

theorem exists_end_captionText (c : Config Rat) (x y : Rat) (text : String) :
    ∃ p ∈ (captionText c x y text).points, p.1 = x + (c.textSize text).1 := by
  rw [points_captionText]
  exact ⟨_, List.mem_cons_of_mem _ List.mem_cons_self, rfl⟩

theorem captionBox_plain (c : Config Rat) (style : String) (caption : Option String)
    (content : Placed Rat) : (captionBox c style caption content).shape =
      .plain style (captionBox c style caption content).shape.children := rfl

theorem captionBox_ax2 (c : Config Rat) (style : String) (caption : Option String)
    (content : Placed Rat) :
    (captionBox c style caption content).box.ax2 = content.box.x2 + 10 := by
  rw [captionBox_rat]
  rfl

/-- **What has a caption** consists of the caption, the frame, two rails and what is in it. -/
theorem forall_children_captionBox {P : Shape Rat → Prop} (style : String)
    {caption : Option String} {content : Placed Rat}
    (hcaption : ∀ text, caption = some text →
      P (captionText c (content.box.x - 10) (content.box.y - 10) text))
    (hframe : P (.rect "box" (content.box.x - 10) (content.box.y - 10)
      (content.box.width + 2 * 10) (content.box.height + 2 * 10) corner))
    (hbefore : P (.rail (content.box.x - 10) content.box.ax content.box.ay))
    (hbehind : P (.rail content.box.ax2 (content.box.x2 + 10) content.box.ay))
    (hcontent : P content.shape) :
    ∀ child ∈ (captionBox c style caption content).shape.children, P child := by
  rw [captionBox_rat]
  refine List.forall_mem_append.mpr ⟨List.forall_mem_map.mpr fun text htext => ?_, ?_⟩
  · exact hcaption text (by simpa using htext)
  · simp only [List.forall_mem_cons]
    exact ⟨hframe, hbefore, hbehind, hcontent, List.forall_mem_nil _⟩

/-- Nothing of what has a caption reaches beyond the frame on the left, or beyond both the frame and
    the caption on the right. -/
theorem points_captionBox_within (hc : c.NonNegative) (style : String) (caption : Option String)
    {content : Placed Rat} (h : content.Sound) :
    ∀ p ∈ (captionBox c style caption content).shape.points, content.box.x - 10 ≤ p.1 ∧
      p.1 ≤ max (content.box.x2 + 10) (content.box.x - 10 + captionWidth c caption) := by
  have hframe := le_max_left (content.box.x2 + 10) (content.box.x - 10 + captionWidth c caption)
  have hcaption := le_max_right (content.box.x2 + 10) (content.box.x - 10 + captionWidth c caption)
  have hleft := h.upright.left
  have hacross := h.upright.across
  have hright := h.upright.right
  have hend : content.box.x - 10 + (content.box.width + 2 * 10) = content.box.x2 + 10 := by
    rw [Box.x2]
    ring
  -- What lies between the edges of the frame lies within both bounds.
  have hwithin (x : Rat) (hlow : content.box.x - 10 ≤ x) (hhigh : x ≤ content.box.x2 + 10) :
      content.box.x - 10 ≤ x ∧
        x ≤ max (content.box.x2 + 10) (content.box.x - 10 + captionWidth c caption) :=
    ⟨hlow, hhigh.trans hframe⟩
  rw [captionBox_plain, Shape.points_plain]
  refine List.forall_mem_flatMap.mpr
    (forall_children_captionBox style ?words ?frame ?before ?behind ?inner)
  case words =>
    -- The caption begins with the frame.
    rintro text rfl
    rw [points_captionText]
    exact forall_corners.mpr ⟨hwithin _ (le_refl _) (by linarith),
      le_add_of_nonneg_right (hc.textWidth text), hcaption⟩
  case frame =>
    rw [Shape.points_rect]
    exact forall_corners.mpr ⟨hwithin _ (le_refl _) (by linarith), hwithin _ (by linarith) hend.le⟩
  case before =>
    exact Shape.forall_points_rail.mpr
      ⟨hwithin _ (le_refl _) (by linarith), hwithin _ (by linarith) (by linarith)⟩
  case behind =>
    exact Shape.forall_points_rail.mpr
      ⟨hwithin _ (by linarith) (by linarith), hwithin _ (by linarith) (le_refl _)⟩
  case inner =>
    intro p hp
    obtain ⟨hx, hx2⟩ := h.measured.between hp
    exact hwithin _ (by linarith) (by linarith)

/-- **The box of what has a caption** begins with the frame, and ends with the frame or with the
    caption, whichever reaches further. -/
theorem box_captionBox (hc : c.NonNegative) (style : String) (caption : Option String)
    {content : Placed Rat} (h : content.Sound) :
    (captionBox c style caption content).box.x = content.box.x - 10 ∧
    (captionBox c style caption content).box.x2 =
      max (content.box.x2 + 10) (content.box.x - 10 + captionWidth c caption) := by
  have hwithin := points_captionBox_within hc style caption h
  have htight := Shape.tight_measure (sound_captionBox (c := c) style caption h).2
  have hleft : (content.box.x - 10, content.box.ay) ∈
      (captionBox c style caption content).shape.points := by
    rw [captionBox_rat]
    exact Shape.mem_points_plain (by simp) (Shape.mem_points_rail_left _ content.box.ax _)
  have hright : (content.box.x2 + 10, content.box.ay) ∈
      (captionBox c style caption content).shape.points := by
    rw [captionBox_rat]
    exact Shape.mem_points_plain (by simp) (Shape.mem_points_rail_right content.box.ax2 _ _)
  constructor
  · refine htight.left.unique ⟨List.mem_map.mpr ⟨_, hleft, rfl⟩, fun x hx => ?_⟩
    obtain ⟨p, hp, rfl⟩ := List.mem_map.mp hx
    exact (hwithin p hp).1
  · refine htight.right.unique ⟨?_, fun x hx => ?_⟩
    · -- The further end of the two is one of the points.
      rcases le_or_gt (content.box.x - 10 + captionWidth c caption) (content.box.x2 + 10) with
        hle | hlt
      · rw [max_eq_left hle]
        exact List.mem_map.mpr ⟨_, hright, rfl⟩
      · rw [max_eq_right hlt.le]
        obtain ⟨text, rfl⟩ : ∃ text, caption = some text := by
          refine Option.ne_none_iff_exists'.mp fun hnone => ?_
          have hwidth : captionWidth c caption = 0 := by rw [hnone]; rfl
          have := h.upright.width_nonneg
          rw [hwidth, Box.x2] at hlt
          linarith
        obtain ⟨p, hp, hend⟩ :=
          exists_end_captionText c (content.box.x - 10) (content.box.y - 10) text
        refine List.mem_map.mpr ⟨p, ?_, hend⟩
        rw [captionBox_rat]
        exact Shape.mem_points_plain (List.mem_append_left _ List.mem_cons_self) hp
    · obtain ⟨p, hp, rfl⟩ := List.mem_map.mp hx
      exact (hwithin p hp).2

/-- The axis of what has a caption begins where its box does. It ends there too, unless the caption
    is wider than the frame: then no path goes beyond the axis, but the box does. -/
theorem edges_captionBox (hc : c.NonNegative) (style : String) (caption : Option String)
    {content : Placed Rat} (h : content.Sound) :
    let whole := captionBox c style caption content
    whole.box.ax = whole.box.x ∧
    (content.box.width + 2 * 10 < captionWidth c caption → whole.box.ax2 < whole.box.x2) ∧
    (¬ content.box.width + 2 * 10 < captionWidth c caption → whole.box.ax2 = whole.box.x2) := by
  obtain ⟨hx, hx2⟩ := box_captionBox hc style caption h
  have hax : (captionBox c style caption content).box.ax = content.box.x - 10 := rfl
  have hend : content.box.x2 = content.box.x + content.box.width := rfl
  refine ⟨hax.trans hx.symm, fun hover => ?_, fun hover => ?_⟩
  · rw [captionBox_ax2, hx2, lt_max_iff]
    exact .inr (by linarith)
  · rw [captionBox_ax2, hx2, max_eq_left (by linarith)]

/-- No path of what has a caption goes beyond its axis. -/
theorem traced_captionBox (style : String) (caption : Option String) {content : Placed Rat}
    (h : content.Sound) : ∀ p ∈ (captionBox c style caption content).shape.traced,
      p.1 ≤ (captionBox c style caption content).box.ax2 := by
  have hleft := h.upright.left
  have hacross := h.upright.across
  have hright := h.upright.right
  rw [captionBox_plain, Shape.traced_plain, captionBox_ax2]
  refine List.forall_mem_flatMap.mpr
    (forall_children_captionBox style ?words ?frame ?before ?behind ?inner)
  case words => exact fun text _ p hp => by cases hp
  case frame => exact fun p hp => by cases hp
  case before =>
    exact Shape.forall_traced (Shape.forall_points_rail.mpr ⟨by linarith, by linarith⟩)
  case behind =>
    exact Shape.forall_traced (Shape.forall_points_rail.mpr ⟨by linarith, le_refl _⟩)
  case inner =>
    refine Shape.forall_traced fun p hp => ?_
    obtain ⟨-, hx2⟩ := h.measured.between hp
    linarith

/-! ## 3. Bodies -/

/-- **The body of a node**, where it has been put: it is shown at the height of the whole, the gap
    before it is bridged, and the gap behind it is bridged just if it is `linked`. -/
structure Bridged (whole body content : Placed Rat) (linked : Prop) : Prop where
  moved : Boxed.Moved body content
  shown : content.shape ∈ whole.shape.children
  level : content.box.ay = whole.box.ay
  before : whole.shape.Bridges whole.box.ax content.box.ax whole.box.ay
  behind : whole.shape.Bridges content.box.ax2 whole.box.ax2 whole.box.ay ↔ linked

/-- **Rails bridge both gaps** between a frame and what is in it. -/
theorem bridged_captionBox (style : String) (caption : Option String) (content : Placed Rat)
    {linked : Prop} (hlinked : linked) :
    Bridged (captionBox c style caption content) content content linked := by
  rw [captionBox_rat]
  refine ⟨⟨0, 0, content.translate_zero.symm⟩, ?_, rfl, Shape.bridges_of_rail ?_,
    iff_of_true (Shape.bridges_of_rail ?_) hlinked⟩
  · exact List.mem_append_right _ (List.mem_cons_of_mem _ (List.mem_cons_of_mem _
      (List.mem_cons_of_mem _ List.mem_cons_self)))
  · exact List.mem_append_right _ (List.mem_cons_of_mem _ List.mem_cons_self)
  · exact List.mem_append_right _ (List.mem_cons_of_mem _ (List.mem_cons_of_mem _
      List.mem_cons_self))

/-- Neither a way around the body nor a way back to its front is drawn just if the count is
    exact. -/
theorem ways_eq_false_iff (q : Quantifier) :
    (q.shape.skips || q.shape.loops) = false ↔ q.max = some q.min := by
  unfold Quantifier.shape
  split
  case h_1 hmin hmax => simp [hmin, hmax, RepeatShape.skips]
  case h_2 hmin hmax => simp [hmax, RepeatShape.skips]
  case h_3 hmin hmax => simp [hmax, RepeatShape.loops]
  case h_4 hmax _ _ => simp [hmax, RepeatShape.loops]
  case h_5 n hmax _ =>
    by_cases hmin : q.min = n
    · simp [hmax, hmin, RepeatShape.skips, RepeatShape.loops]
    · simp [hmax, hmin, Ne.symm hmin, RepeatShape.loops]

/-- **The gaps of a repetition** whose body begins where its box does: the one before the body is
    bridged, and the one behind it unless the count is exact and the body ends before its box. -/
theorem bridged_repeated (c : Config Rat) (q : Quantifier) {body : Placed Rat} {overhangs : Prop}
    (hbegin : body.box.ax = body.box.x)
    (hend : ¬ overhangs → body.box.ax2 = body.box.x2)
    (hover : overhangs → body.box.ax2 < body.box.x2 ∧
      ∀ p ∈ body.shape.traced, p.1 ≤ body.box.ax2) :
    Bridged (repeated c q body) body (settled q body) (¬ (q.max = some q.min ∧ overhangs)) := by
  obtain ⟨ways, heq, hrails, hwords⟩ := exists_repeated c q body
  have hmoved := moved_settled q body
  have hshown : (settled q body).shape ∈ ways ++ [(settled q body).shape] :=
    List.mem_append_right _ (List.mem_singleton_self _)
  rw [heq]
  cases hways : q.shape.skips || q.shape.loops with
  | true =>
    obtain ⟨hfirst, hsecond⟩ := hrails hways
    refine ⟨hmoved, hshown, rfl, Shape.bridges_of_rail (List.mem_append_left _ hfirst),
      iff_of_true (Shape.bridges_of_rail (List.mem_append_left _ hsecond)) fun h => ?_⟩
    rw [← ways_eq_false_iff, hways] at h
    cases h.1
  | false =>
    have hexact := (ways_eq_false_iff q).mp hways
    have hax : (settled q body).box.ax = 0 := (settled_ax q hbegin).trans (lead_eq_zero hways)
    refine ⟨hmoved, hshown, rfl, fun hne => absurd hax.symm hne, ?_⟩
    show Shape.Bridges _ _ ((settled q body).box.x2 + lead q.shape) _ ↔ _
    rw [lead_eq_zero hways, add_zero]
    have hax2 : (settled q body).box.ax2 = body.box.ax2 + (lead q.shape - body.box.x) := rfl
    have hx2 : (settled q body).box.x2 = body.box.x2 + (lead q.shape - body.box.x) :=
      add_right_comm ..
    by_cases hoverhangs : overhangs
    · -- There are only words besides the body, and the paths of the body do not reach that far.
      obtain ⟨hlt, htraced⟩ := hover hoverhangs
      refine iff_of_false (Shape.not_bridges_of_traced ?_ ?_ _) fun h => h ⟨hexact, hoverhangs⟩
      · rw [ofShape, Shape.traced_plain, hwords hways]
        refine List.forall_mem_flatMap.mpr fun child hchild => ?_
        rcases List.mem_append.mp hchild with hlabel | hbody
        · obtain ⟨label, -, rfl⟩ := List.mem_map.mp hlabel
          exact fun p hp => by cases hp
        · obtain rfl := List.mem_singleton.mp hbody
          rw [settled, Placed.translate, Shape.traced_translate]
          refine List.forall_mem_map.mpr fun p hp => ?_
          exact add_le_add_left (htraced p hp) _
      · rw [hax2, hx2]
        linarith
    · refine iff_of_true (fun hne => absurd ?_ hne) fun h => hoverhangs h.2
      rw [hax2, hx2, hend hoverhangs]

/-! ## 4. Trees -/

/-- The caption of a tree is wider than the frame below it. -/
def Overhangs (s : Setting Rat) : Node → Prop
  | .group _ name index body =>
      (drawn s body).box.width + 2 * 10 < captionWidth s.config (groupCaption index name)
  | .lookaround direction polarity body =>
      (drawn s body).box.width + 2 * 10 <
        captionWidth s.config (some (lookaroundCaption direction polarity))
  | _ => False

/-- **A repetition that is not linked** to what follows it: its count is exact, and the caption of
    its body is wider than the frame below it. -/
def Unlinked (s : Setting Rat) : Node → Prop
  | .repetition q body => q.max = some q.min ∧ Overhangs s body
  | _ => False

variable {s : Setting Rat}

/-- The axis of one unit begins where its box does, and ends there too unless its caption is wider
    than the frame. -/
theorem edges_of_isUnit (hc : s.config.NonNegative) {x : Node} (hx : x.WellFormed)
    (hunit : x.isUnit = true) :
    (drawn s x).box.ax = (drawn s x).box.x ∧
    (¬ Overhangs s x → (drawn s x).box.ax2 = (drawn s x).box.x2) ∧
    (Overhangs s x → (drawn s x).box.ax2 < (drawn s x).box.x2 ∧
      ∀ p ∈ (drawn s x).shape.traced, p.1 ≤ (drawn s x).box.ax2) := by
  -- What has a caption is all of one kind.
  have hcaption (style : String) (caption : Option String) {body : Node} (hbody : body.WellFormed) :
      let whole := captionBox s.config style caption (drawn s body)
      let wide := (drawn s body).box.width + 2 * 10 < captionWidth s.config caption
      whole.box.ax = whole.box.x ∧ (¬ wide → whole.box.ax2 = whole.box.x2) ∧
        (wide → whole.box.ax2 < whole.box.x2 ∧ ∀ p ∈ whole.shape.traced, p.1 ≤ whole.box.ax2) := by
    intro whole wide
    have hsound := (drawn_sound hc hbody).1
    obtain ⟨hbegin, hover, hend⟩ := edges_captionBox hc style caption hsound
    exact ⟨hbegin, hend, fun h => ⟨hover h, traced_captionBox style caption hsound⟩⟩
  induction x using Node.induction with
  | group capturing name index body =>
    rw [drawn_group]
    exact hcaption _ _ ((every_group ..).mp hx).2
  | lookaround direction polarity body =>
    rw [drawn_lookaround]
    exact hcaption _ _ ((every_lookaround ..).mp hx).2
  | leaf x hleaf =>
    obtain ⟨style, text, heq⟩ := exists_drawn_leaf s hleaf
    have hnone : ¬ Overhangs s x := by
      cases x with
      | characterClass c | literal l | anchor a | backreference t => exact id
      | _ => cases hleaf
    rw [heq, box_labelBox hc]
    exact ⟨rfl, fun _ => rfl, fun h => absurd h hnone⟩
  | sequence | alternation | repetition => cases hunit

/-- **The gaps around the body** of a node: but for the one behind the body of an unlinked
    repetition, they are bridged. -/
theorem bridged_drawn (hc : s.config.NonNegative) {x body : Node} (hx : x.WellFormed)
    (hbody : x.body? = some body) :
    ∃ content, Bridged (drawn s x) (drawn s body) content (¬ Unlinked s x) := by
  cases x with
  | group capturing name index inner =>
    obtain rfl : inner = body := Option.some.inj hbody
    rw [drawn_group]
    exact ⟨_, bridged_captionBox _ _ _ id⟩
  | lookaround direction polarity inner =>
    obtain rfl : inner = body := Option.some.inj hbody
    rw [drawn_lookaround]
    exact ⟨_, bridged_captionBox _ _ _ id⟩
  | repetition q inner =>
    obtain rfl : inner = body := Option.some.inj hbody
    obtain ⟨⟨-, hunit⟩, hinner⟩ := (every_repetition q inner).mp hx
    obtain ⟨hbegin, hend, hover⟩ := edges_of_isUnit hc hinner hunit
    rw [drawn_repetition]
    exact ⟨_, bridged_repeated s.config q hbegin hend hover⟩
  | _ => cases hbody

/-- **A line can be followed through a tree** in which every repetition is linked. -/
theorem through_drawn (hc : s.config.NonNegative) {x : Node} (hx : x.WellFormed)
    (hlinked : x.Every fun y => ¬ Unlinked s y) : (drawn s x).Through := by
  induction x using Node.induction with
  | sequence items ih =>
    have hall := ((every_sequence items).mp hx).2
    have hbelow := ((every_sequence items).mp hlinked).2
    rw [drawn_sequence]
    exact through_row s.config (forall_drawnRuns s (through_labelBox hc)
      fun x hmem => ih x hmem (hall x hmem) (hbelow x hmem))
  | alternation branches ih =>
    obtain ⟨⟨hlength, -⟩, hall⟩ := (every_alternation branches).mp hx
    have hbelow := ((every_alternation branches).mp hlinked).2
    obtain ⟨x, hmem⟩ : ∃ x, x ∈ branches := List.exists_mem_of_length_pos (by omega)
    rw [drawn_alternation]
    exact through_column s.config (List.mem_map_of_mem hmem)
      (ih x hmem (hall x hmem) (hbelow x hmem))
  | group capturing name index body ih =>
    rw [drawn_group]
    exact through_captionBox _ _ (ih ((every_group ..).mp hx).2 ((every_group ..).mp hlinked).2)
  | lookaround direction polarity body ih =>
    rw [drawn_lookaround]
    exact through_captionBox _ _
      (ih ((every_lookaround ..).mp hx).2 ((every_lookaround ..).mp hlinked).2)
  | repetition q body ih =>
    obtain ⟨⟨-, hunit⟩, hbody⟩ := (every_repetition q body).mp hx
    obtain ⟨hroot, hbelow⟩ := (every_repetition q body).mp hlinked
    obtain ⟨hbegin, hend, -⟩ := edges_of_isUnit hc hbody hunit
    rw [drawn_repetition]
    refine through_repeated s.config q (ih hbody hbelow) fun hways => ⟨hbegin, hend fun hover => ?_⟩
    exact hroot ⟨(ways_eq_false_iff q).mp hways, hover⟩
  | leaf x hleaf =>
    obtain ⟨style, text, heq⟩ := exists_drawn_leaf s hleaf
    rw [heq]
    exact through_labelBox hc style text

/-- **The rail is broken in one place only.** In the drawing of each group, each lookaround and each
    repetition of a tree that is read, a connector bridges the gap before the body, if there is one;
    and the gap behind it too, unless the node is a repetition with an exact count around something
    with a caption that is wider than its frame. Through each node with no such repetition in it a
    line can be followed from one end of its axis to the other. -/
theorem node_bridges_gaps {source : String} {e : Expression} (hparse : parse source = .ok e)
    {c : Config Rat} (hc : c.NonNegative) {x : Node} (hx : x ∈ e.root.preorder) {w : Walk}
    (hw : w.ticket.cancelled = false) :
    let s : Setting Rat := ⟨c, e.groups⟩
    ∃ whole w', (node s x : Walking (Placed Rat)).run w = .ok whole w' ∧
      (∀ body, x.body? = some body →
        ∃ content, Bridged whole (drawn s body) content (¬ Unlinked s x)) ∧
      ((∀ y ∈ x.preorder, ¬ Unlinked s y) →
        whole.shape.Leads (whole.box.ax, whole.box.ay) (whole.box.ax2, whole.box.ay)) := by
  intro s
  have hwell := wellFormed_of_mem_preorder hparse hx
  obtain ⟨w', hrun⟩ := run_node_drawn s x hw
  exact ⟨_, w', hrun, fun body hbody => bridged_drawn hc hwell hbody,
    fun hlinked => through_drawn hc hwell hlinked⟩

/-- A repetition with rails around a group that is narrower than its caption. -/
theorem node_bridges_gaps_of_loop :
    let s : Setting Rat := ⟨Config.standard, ⟨1, []⟩⟩
    let body : Node := .group true none (some 1) (.literal (.char 'a'))
    let x : Node := .repetition ⟨1, none, true⟩ body
    parse "(a)+" = .ok ⟨x, {}, s.groups⟩ ∧
    ∃ whole w', (node s x : Walking (Placed Rat)).run {} = .ok whole w' ∧
      (∃ content, Bridged whole (drawn s body) content (¬ Unlinked s x)) ∧ ¬ Unlinked s x ∧
      whole.shape.Leads (whole.box.ax, whole.box.ay) (whole.box.ax2, whole.box.ay) := by
  intro s body x
  have hparse : parse "(a)+" = .ok ⟨x, {}, s.groups⟩ := by with_unfolding_all rfl
  have hlinked : ∀ y ∈ x.preorder, ¬ Unlinked s y := by
    simp [x, body, preorder, Unlinked]
  obtain ⟨whole, w', hrun, hgaps, hleads⟩ :=
    node_bridges_gaps hparse Config.nonNegative_standard List.mem_cons_self (w := {}) rfl
  exact ⟨hparse, whole, w', hrun, hgaps body rfl, hlinked x List.mem_cons_self, hleads hlinked⟩

/-- **A gap that is not bridged**: behind a group that is repeated twice, and whose caption is wider
    than its frame, the axis goes on from 51 to 56, but no connector does. -/
theorem exact_repetition_not_bridged :
    let s : Setting Rat := ⟨Config.standard, ⟨1, []⟩⟩
    let body : Node := .group true none (some 1) (.literal (.char 'a'))
    let x : Node := .repetition ⟨2, some 2, true⟩ body
    parse "(a)\x7b2\x7d" = .ok ⟨x, {}, s.groups⟩ ∧
    ∃ whole content w', (node s x : Walking (Placed Rat)).run {} = .ok whole w' ∧
      Boxed.Moved (drawn s body) content ∧ content.shape ∈ whole.shape.children ∧
      (content.box.ax2, content.box.ay) = (51, 12) ∧ (whole.box.ax2, whole.box.ay) = (56, 12) ∧
      ∀ leaf ∈ whole.shape.leaves, ¬ leaf.Covers 51 56 12 := by
  intro s body x
  have hparse : parse "(a)\x7b2\x7d" = .ok ⟨x, {}, s.groups⟩ := by with_unfolding_all rfl
  have hwell : body.WellFormed := by decide
  obtain ⟨w', hrun⟩ := run_node_drawn s x (w := {}) rfl
  obtain ⟨hbegin, hend, hover⟩ := edges_of_isUnit Config.nonNegative_standard hwell (s := s) rfl
  have hoverhangs : Overhangs s body := by
    show (drawn s (.literal (.char 'a'))).box.width + 2 * 10 <
      captionWidth Config.standard (some "group #1")
    decide +kernel
  have hbridged := bridged_repeated Config.standard ⟨2, some 2, true⟩ hbegin hend hover
  rw [show repeated Config.standard ⟨2, some 2, true⟩ (drawn s body) = drawn s x from
    (drawn_repetition s ⟨2, some 2, true⟩ body).symm] at hbridged
  have hcontent : ((settled ⟨2, some 2, true⟩ (drawn s body)).box.ax2,
      (settled ⟨2, some 2, true⟩ (drawn s body)).box.ay) = ((51, 12) : Rat × Rat) := by
    decide +kernel
  have hwhole : ((drawn s x).box.ax2, (drawn s x).box.ay) = ((56, 12) : Rat × Rat) := by
    decide +kernel
  have hgap : ¬ (drawn s x).shape.Bridges 51 56 12 := by
    obtain ⟨hfrom, -⟩ := Prod.mk.inj hcontent
    obtain ⟨hto, hheight⟩ := Prod.mk.inj hwhole
    have hbehind := hbridged.behind
    rw [hfrom, hto, hheight] at hbehind
    exact fun h => hbehind.mp h ⟨rfl, hoverhangs⟩
  exact ⟨hparse, _, _, w', hrun, hbridged.moved, hbridged.shown, hcontent, hwhole,
    fun leaf hleaf hcovers => hgap fun _ => ⟨leaf, hleaf, hcovers⟩⟩

end Drawing

end PatternDiagram
