import PatternDiagram.Proofs.Exhibits

/-!
# Every request comes to its end

A request may wait for its turn, and then for the canvas. Neither lasts for ever, unless others see
to that:

* `Renderer.turn_of_parsed`: a request that asks for its turn while nobody has one is given it;
* `History.ends_as_due`: a request that has its turn comes to what it is due;
* `History.turn_ends`: the turn that there is, if there is one, comes to an end, and no other
  begins;
* `History.can_end`: **whatever has happened, a request that has not come to an end can still do
  so**, and nobody has to call anything off for that;
* `History.canvas_shows_last`: **the canvas is blank or shows the last picture; a request that has
  been called off or is malformed leaves it alone; any other comes to an end, with a picture just if
  the bounds of its drawing are finite**.
-/

namespace PatternDiagram

open Drawing

variable {α : Type}

/-! ## 1. The beginning of a turn -/

namespace Renderer

theorem ticket?_askForCanvas {s : Renderer α} {r : RequestId} {p : Phase α}
    (h : s.phase? r = some p) (t : TicketId) (e : Expression) :
    (s.askForCanvas r t e).ticket? r = some t := by
  unfold askForCanvas
  dsimp only
  split
  · exact (ticket?_setPhase h (.drawing t e) r).trans (if_pos rfl)
  · exact (ticket?_setPhase h (.queued t e) r).trans (if_pos rfl)

variable [Coordinate α]

/-- **A request is given its turn** that asks for it while nobody has one, if its source is not
    malformed. -/
theorem turn_of_parsed {s : Renderer α} {r : RequestId} {source : String} {e : Expression}
    (hrequest : s.requests[r]? = some ⟨source, .claiming⟩) (hfree : s.active = none)
    (hparse : parse source = .ok e) :
    (s.perform (.resume r)).ticket? r = some s.issued ∧
      s.events (.resume r) = [.claimed r s.issued] := by
  obtain ⟨hask, hevents⟩ := resume_of_parsed hrequest hfree hparse
  refine ⟨?_, hevents⟩
  have hphase : { s with tickets := s.tickets.issue.1, active := some s.issued }.phase? r =
      some .claiming := phase?_of_request hrequest
  rw [perform, hask, ticket?_askForCanvas hphase]

/-- **A request is refused** that asks for its turn while nobody has one, if its source is
    malformed. -/
theorem outcome?_of_malformed {s : Renderer α} {r : RequestId} {source : String} {e : SyntaxError}
    (hrequest : s.requests[r]? = some ⟨source, .claiming⟩) (hfree : s.active = none)
    (hparse : parse source = .error e) :
    (s.perform (.resume r)).outcome? r = some (.error (.malformed e)) := by
  have hmoves := s.moves_perform (.resume r)
  rw [(resume_of_malformed hrequest hfree hparse).2] at hmoves
  exact (hmoves.outcome?_iff r _).mpr (.inr ⟨s.issued, by simp⟩)

omit [Coordinate α] in
theorem exists_source {s : Renderer α} {r : RequestId} {t : TicketId} (h : s.ticket? r = some t) :
    ∃ source, s.source? r = some source := by
  obtain ⟨p, hphase, -⟩ := Option.bind_eq_some_iff.mp h
  obtain ⟨q, hrequest, -⟩ := Option.map_eq_some_iff.mp hphase
  exact ⟨q.source, source?_of_request hrequest⟩

/-- A request that has not been given its turn asks for it when its wait is over. -/
theorem claiming_of_rouse {s : Renderer α} {r : RequestId} {source : String}
    (hsource : s.source? r = some source) (hwaits : s.isClaimed r = false) :
    (s.perform (.rouse r)).requests[r]? = some ⟨source, .claiming⟩ ∧
      (s.perform (.rouse r)).active = s.active := by
  obtain ⟨⟨source, p⟩, hrequest, rfl⟩ := Option.map_eq_some_iff.mp hsource
  have hphase := phase?_of_request hrequest
  rw [isClaimed_of_phase? hphase] at hwaits
  cases p with
  | claiming => simp [perform, rouse, hphase, hrequest]
  | asleep => simp [perform, rouse, hphase, setPhase, hrequest]
  | _ => cases hwaits

end Renderer

/-! ## 2. The end of a turn -/

namespace History

variable [Coordinate α]

theorem source?_append (config : Config α) (actions more : List Action) {r : RequestId}
    {source : String} (hsource : (ofActions config actions).renderer.source? r = some source) :
    (ofActions config (actions ++ more)).renderer.source? r = some source := by
  rw [renderer_ofActions_append]
  generalize (ofActions config actions).renderer = s at hsource
  induction more generalizing s with
  | nil => exact hsource
  | cons a more ih => exact ih _ ((s.moves_perform a).source?_eq hsource)

/-- **A request that has its turn comes to what it is due** when the others have handed the canvas
    on. -/
theorem ends_as_due (config : Config α) (actions : List Action) {r : RequestId} {t : TicketId}
    {source : String} (hsource : (ofActions config actions).renderer.source? r = some source)
    (hturn : (ofActions config actions).renderer.ticket? r = some t) :
    let h := ofActions config actions
    ∃ n o, Renderer.Due config source (∃ caller, .calledOff t caller ∈ h.log) o ∧
      let h' := ofActions config (actions ++ (List.replicate n .release ++ [.resume r, .resume r]))
      h'.log = h.log ++ [.settled r t o] ∧ h'.renderer.outcome? r = some o := by
  intro h
  obtain ⟨n, o, hlog⟩ := comes_to_an_end config actions r t hturn
  have hend := (outcome?_iff config _ r o).mpr ⟨t, by rw [hlog]; simp⟩
  obtain ⟨-, source', hsource', hdue⟩ :=
    (faithful config _).due h.log r t o ⟨[], (List.append_nil _).trans hlog.symm⟩
  obtain rfl : source = source' :=
    Option.some.inj ((source?_append config actions _ hsource).symm.trans hsource')
  exact ⟨n, o, hdue, hlog, hend⟩

omit [Coordinate α] in
/-- Nobody calls anything off by handing the canvas on, or by going on. -/
theorem callsOff_of_mem {n : Nat} {r : RequestId} {a : Action}
    (ha : a ∈ List.replicate n .release ++ [.resume r, .resume r]) : a.callsOff = false := by
  rcases List.mem_append.mp ha with hrelease | hresume
  · rw [List.eq_of_mem_replicate hrelease]
    rfl
  · obtain rfl : a = .resume r := by simpa using hresume
    rfl

omit [Coordinate α] in
/-- Where only the end of a turn has been noted, no other has begun. -/
theorem Orderly.over {h h' : History α} {r : RequestId} {t : TicketId} {o : Outcome α}
    {turn : Option (RequestId × TicketId)} (ho : h.Orderly (some (r, t))) (ho' : h'.Orderly turn)
    (hlog : h'.log = h.log ++ [.settled r t o]) : turn = none ∧ h'.claims = h.claims := by
  have hclaims : h'.claims = h.claims := by simp [claims, hlog, Event.claim?]
  have hendings : h'.endings = h.endings ++ [(r, t)] := by simp [endings, hlog, Event.ending?]
  have hturns := ho'.claims_eq
  rw [hclaims, hendings, ho.claims_eq] at hturns
  exact ⟨by simpa using hturns, hclaims⟩

/-- **The turn that there is comes to an end**, and no other begins. -/
theorem turn_ends (config : Config α) (actions : List Action) :
    ∃ more, (∀ a ∈ more, a.callsOff = false) ∧
      (ofActions config (actions ++ more)).renderer.active = none ∧
      (ofActions config (actions ++ more)).claims = (ofActions config actions).claims := by
  obtain ⟨turn, ho⟩ := orderly config actions
  cases turn with
  | none =>
    refine ⟨[], by simp, ?_⟩
    rw [List.append_nil]
    exact ⟨ho.active, rfl⟩
  | some turn =>
    obtain ⟨r, t⟩ := turn
    obtain ⟨n, o, hlog⟩ := comes_to_an_end config actions r t ((ho.ticket r t).mpr rfl)
    obtain ⟨turn', ho'⟩ := orderly config
      (actions ++ (List.replicate n .release ++ [.resume r, .resume r]))
    obtain ⟨rfl, hclaims⟩ := ho.over ho' hlog
    exact ⟨_, fun a => callsOff_of_mem, ho'.active, hclaims⟩

/-! ## 3. The way of a request to its end -/

/-- A request that has not been given its turn gets to ask for it while nobody has one. -/
theorem gets_to_ask (config : Config α) (actions : List Action) {r : RequestId} {source : String}
    (hsource : (ofActions config actions).renderer.source? r = some source)
    (hwaits : (ofActions config actions).renderer.isClaimed r = false) :
    ∃ more, (∀ a ∈ more, a.callsOff = false) ∧
      (ofActions config (actions ++ more)).renderer.requests[r]? = some ⟨source, .claiming⟩ ∧
      (ofActions config (actions ++ more)).renderer.active = none := by
  obtain ⟨more, hquiet, hfree, hclaims⟩ := turn_ends config actions
  obtain ⟨_, ho⟩ := orderly config actions
  obtain ⟨_, ho'⟩ := orderly config (actions ++ more)
  have hwaits' : (ofActions config (actions ++ more)).renderer.isClaimed r = false := by
    rw [Bool.eq_false_iff, ne_eq, ← ho'.ticketed.claimed, hclaims, ho.ticketed.claimed, hwaits]
    exact Bool.false_ne_true
  obtain ⟨hrequest, hactive⟩ :=
    Renderer.claiming_of_rouse (source?_append config actions more hsource) hwaits'
  refine ⟨more ++ [.rouse r], ?_, ?_⟩
  · rw [List.forall_mem_append]
    exact ⟨hquiet, by simp [Action.callsOff]⟩
  · rw [← List.append_assoc, ofActions_append]
    exact ⟨hrequest, hactive.trans hfree⟩

/-- A request that asks for its turn while nobody has one comes to what it is due, as nobody can
    have called it off. -/
theorem ends_from_asking (config : Config α) (actions : List Action) {r : RequestId}
    {source : String}
    (hrequest : (ofActions config actions).renderer.requests[r]? = some ⟨source, .claiming⟩)
    (hfree : (ofActions config actions).renderer.active = none) :
    ∃ more o, (∀ a ∈ more, a.callsOff = false) ∧
      (ofActions config (actions ++ more)).renderer.outcome? r = some o ∧
      Renderer.Due config source False o := by
  have hresume : ofActions config (actions ++ [.resume r]) =
      (ofActions config actions).extend (.resume r) := ofActions_append ..
  cases hparse : parse source with
  | error e =>
    refine ⟨[.resume r], .error (.malformed e), by simp [Action.callsOff], ?_, ?_⟩
    · rw [hresume]
      exact Renderer.outcome?_of_malformed hrequest hfree hparse
    · rw [Renderer.Due, hparse]
      exact ⟨not_false, rfl⟩
  | ok e =>
    obtain ⟨hturn, hevents⟩ := Renderer.turn_of_parsed hrequest hfree hparse
    have hsource := source?_append config actions [.resume r] (Renderer.source?_of_request hrequest)
    obtain ⟨n, o, hdue, -, hend⟩ := ends_as_due config _ hsource (by rw [hresume]; exact hturn)
    refine ⟨.resume r :: (List.replicate n .release ++ [.resume r, .resume r]), o, ?_, ?_, ?_⟩
    · rw [List.forall_mem_cons]
      exact ⟨rfl, fun a => callsOff_of_mem⟩
    · rw [List.append_cons]
      exact hend
    · have hnot : ¬ ∃ caller, .calledOff (ofActions config actions).renderer.issued caller ∈
          (ofActions config (actions ++ [.resume r])).log := by
        rw [hresume, extend, hevents]
        rintro ⟨caller, hmem⟩
        exact (faithful config actions).not_calledOff_issued caller (by simpa using hmem)
      rwa [eq_false hnot] at hdue

/-- **Whatever has happened, a request that has not come to an end can still do so**, and nobody has
    to call anything off for that: the turn that there is comes to an end, the request is given its
    own, and that comes to an end as well. What it comes to is what it is due. -/
theorem can_end (config : Config α) (actions : List Action) {r : RequestId} {source : String}
    (hsource : (ofActions config actions).renderer.source? r = some source)
    (hopen : (ofActions config actions).renderer.isSettled r = false) :
    let h := ofActions config actions
    ∃ more o, (∀ a ∈ more, a.callsOff = false) ∧
      (ofActions config (actions ++ more)).renderer.outcome? r = some o ∧
      Renderer.Due config source
        (∃ t caller, h.renderer.ticket? r = some t ∧ .calledOff t caller ∈ h.log) o := by
  intro h
  cases hticket : h.renderer.ticket? r with
  | some t =>
    obtain ⟨n, o, hdue, -, hend⟩ := ends_as_due config actions hsource hticket
    exact ⟨_, o, fun a => callsOff_of_mem, hend, by simpa using hdue⟩
  | none =>
    have hwaits : h.renderer.isClaimed r = false := by
      have hturn := h.renderer.isSome_ticket? r
      rw [hticket, hopen] at hturn
      simpa using hturn.symm
    obtain ⟨front, hfront, hrequest, hfree⟩ := gets_to_ask config actions hsource hwaits
    obtain ⟨more, o, hmore, hend, hdue⟩ := ends_from_asking config _ hrequest hfree
    refine ⟨front ++ more, o, List.forall_mem_append.mpr ⟨hfront, hmore⟩, ?_, by simpa using hdue⟩
    rw [← List.append_assoc]
    exact hend

/-! ## 4. What the canvas shows -/

/-- **What the canvas shows.** Whatever has happened to a renderer: its canvas is blank, or it shows
    the picture of the request that has come to an end with a picture last, and has its size. Of the
    requests that have come to an end, one that had been called off before comes to nothing else;
    one that is malformed is refused for that; and one that is not, and that nobody had called off,
    has a picture just if the bounds of its drawing are finite. The canvas changes only when a
    request goes on that comes to an end with a picture by that.

    And they do come to an end. One that has its turn comes to what it is due as soon as all before
    it have handed the canvas on. One that asks for its turn while nobody has one is refused if it
    is malformed, and is given its turn and a ticket of its own otherwise. One that has to wait for
    others can still come to its end, and nobody has to call anything off for that. -/
theorem canvas_shows_last (config : Config α) (actions : List Action) :
    let h := ofActions config actions
    (match h.lastShown? with
      | none => h.renderer.canvas = Canvas.blank
      | some r => h.renderer.Shows config r) ∧
    (∀ before r t o, before ++ [.settled r t o] <+: h.log →
      .claimed r t ∈ before ∧
      ((∃ caller, .calledOff t caller ∈ before) → o = .error .cancelled) ∧
      ∃ source, h.renderer.source? r = some source ∧
        (∀ e, parse source = .error e → o = .error (.malformed e)) ∧
        ∀ e, parse source = .ok e → (∀ caller, .calledOff t caller ∉ before) →
          ∃ placed warnings, Draws config e placed warnings ∧
            o = Render.verdict config placed warnings ∧
            ((∃ output, o = .ok output) ↔ (Render.bounds placed).isFinite = true)) ∧
    (∀ a, (h.renderer.perform a).canvas = h.renderer.canvas ∨
      ∃ r t output, a = .resume r ∧ h.renderer.events a = [.settled r t (.ok output)]) ∧
    (∀ r t, h.renderer.ticket? r = some t →
      ∃ n source o, h.renderer.source? r = some source ∧
        Renderer.Due config source (∃ caller, .calledOff t caller ∈ h.log) o ∧
        let h' := ofActions config
          (actions ++ (List.replicate n .release ++ [.resume r, .resume r]))
        h'.log = h.log ++ [.settled r t o] ∧ h'.renderer.outcome? r = some o) ∧
    (∀ r source e, h.renderer.requests[r]? = some ⟨source, .claiming⟩ → h.renderer.active = none →
      parse source = .error e →
        (h.renderer.perform (.resume r)).outcome? r = some (.error (.malformed e))) ∧
    (∀ r source e, h.renderer.requests[r]? = some ⟨source, .claiming⟩ → h.renderer.active = none →
      parse source = .ok e →
        (h.renderer.perform (.resume r)).ticket? r = some h.renderer.issued ∧
          h.renderer.events (.resume r) = [.claimed r h.renderer.issued]) ∧
    ∀ r source, h.renderer.source? r = some source → h.renderer.isSettled r = false →
      ∃ more o, (∀ a ∈ more, a.callsOff = false) ∧
        (ofActions config (actions ++ more)).renderer.outcome? r = some o ∧
        Renderer.Due config source
          (∃ t caller, h.renderer.ticket? r = some t ∧ .calledOff t caller ∈ h.log) o := by
  intro h
  have hf : Faithful config h := faithful config actions
  refine ⟨hf.shown, fun before r t o hupto => ?_, hf.canvas_perform, fun r t hturn => ?_,
    fun r source e hrequest hfree hparse => Renderer.outcome?_of_malformed hrequest hfree hparse,
    fun r source e hrequest hfree hparse => Renderer.turn_of_parsed hrequest hfree hparse,
    fun r source hsource hopen => can_end config actions hsource hopen⟩
  · obtain ⟨hclaimed, source, hsource, hdue⟩ := hf.due before r t o hupto
    refine ⟨hclaimed, hdue.of_calledOff, source, hsource, fun e => hdue.of_malformed,
      fun e hparse hnot => ?_⟩
    obtain ⟨placed, warnings, hdraws, ho⟩ :=
      hdue.of_parsed hparse fun ⟨caller, hmem⟩ => hnot caller hmem
    refine ⟨placed, warnings, hdraws, ho, ?_⟩
    rw [ho]
    exact Render.verdict_ok_iff
  · obtain ⟨source, hsource⟩ := Renderer.exists_source hturn
    obtain ⟨n, o, hend⟩ := ends_as_due config actions hsource hturn
    exact ⟨n, source, o, hsource, hend⟩

/-- The first of three requests is called off by the second, which has its turn and its picture
    after that; the third is malformed. -/
theorem canvas_shows_last_of_three :
    let actions : List Action :=
      [.submit "a", .resume 0, .submit "b", .resume 1, .resume 0, .rouse 1]
    let before : History Rat := ofActions Config.standard actions
    let given : History Rat := ofActions Config.standard (actions ++ [.resume 1])
    let shown : History Rat :=
      ofActions Config.standard (actions ++ [.resume 1, .resume 1, .submit "("])
    before.log = [.claimed 0 0, .calledOff 0 (some 1), .settled 0 0 (.error .cancelled)] ∧
    before.renderer.canvas = Canvas.blank ∧
    (∃ more output, (∀ a ∈ more, a.callsOff = false) ∧
      (ofActions Config.standard (actions ++ more)).renderer.outcome? 1 =
        some (.ok output : Outcome Rat)) ∧
    given.renderer.ticket? 1 = some 1 ∧
    (∃ n output, (ofActions Config.standard (actions ++ [.resume 1] ++
      (List.replicate n .release ++ [.resume 1, .resume 1]))).renderer.outcome? 1 =
        some (.ok output : Outcome Rat)) ∧
    shown.renderer.outcome? 1 = some (.ok ⟨91, 44, []⟩) ∧
    shown.renderer.Shows Config.standard 1 ∧
    (shown.renderer.perform (.resume 2)).outcome? 2 =
      some (.error (.malformed ⟨.unterminatedGroup, 0⟩)) := by
  intro actions before given shown
  have hparse : parse "b" = .ok ⟨.literal (.char 'b'), {}, {}⟩ := by with_unfolding_all rfl
  have hpicture (o : Outcome Rat) (hdue : Renderer.Due Config.standard "b" False o) :
      ∃ output, o = .ok output := by
    obtain ⟨placed, warnings, -, rfl⟩ := hdue.of_parsed hparse not_false
    exact Render.verdict_ok_iff.mpr rfl
  obtain ⟨hblank, hends, -, -, -, hturn, hcan⟩ :=
    canvas_shows_last (Config.standard : Config Rat) actions
  obtain ⟨-, -, -, hhandOn, -⟩ :=
    canvas_shows_last (Config.standard : Config Rat) (actions ++ [.resume 1])
  obtain ⟨hshown, -, -, -, hmalformed, -⟩ :=
    canvas_shows_last (Config.standard : Config Rat)
      (actions ++ [.resume 1, .resume 1, .submit "("])
  have hgiven : given.renderer.ticket? 1 = some 1 := by
    have hnext : given = before.extend (.resume 1) := ofActions_append ..
    have hissued : before.renderer.issued = 1 := by decide +kernel
    rw [hnext]
    exact (hturn 1 "b" _ (by with_unfolding_all rfl) (by decide +kernel) hparse).1.trans
      (congrArg some hissued)
  refine ⟨?_, ?_, ?_, hgiven, ?_, ?_, ?_, ?_⟩
  · obtain ⟨o, hlog⟩ : ∃ o, before.log =
        [.claimed 0 0, .calledOff 0 (some 1), .settled 0 0 o] := ⟨_, by with_unfolding_all rfl⟩
    have hupto : [.claimed 0 0, .calledOff 0 (some 1)] ++ [.settled 0 0 o] <+: before.log :=
      ⟨[], (List.append_nil _).trans hlog.symm⟩
    obtain rfl := (hends _ 0 0 o hupto).2.1 ⟨some 1, by simp⟩
    exact hlog
  · have hnone : before.lastShown? = none := by decide +kernel
    rw [hnone] at hblank
    exact hblank
  · obtain ⟨more, o, hquiet, hend, hdue⟩ := hcan 1 "b" (by decide +kernel) (by decide +kernel)
    have hnone : (ofActions (Config.standard : Config Rat) actions).renderer.ticket? 1 = none := by
      decide +kernel
    obtain ⟨output, rfl⟩ := hpicture o (by simpa [hnone] using hdue)
    exact ⟨more, output, hquiet, hend⟩
  · obtain ⟨n, source, o, hsource, hdue, -, hend⟩ := hhandOn 1 1 hgiven
    have hb : given.renderer.source? 1 = some "b" := by decide +kernel
    obtain rfl : source = "b" := Option.some.inj (hsource.symm.trans hb)
    have hnot : ¬ ∃ caller, .calledOff 1 caller ∈ given.log := by
      have hlog : given.log = [.claimed 0 0, .calledOff 0 (some 1),
        .settled 0 0 (.error .cancelled), .claimed 1 1] := by with_unfolding_all rfl
      rw [hlog]
      simp
    obtain ⟨output, rfl⟩ := hpicture o (by rwa [eq_false hnot] at hdue)
    exact ⟨n, output, hend⟩
  · decide +kernel
  · have hlast : shown.lastShown? = some 1 := by decide +kernel
    rw [hlast] at hshown
    exact hshown
  · exact hmalformed 2 "(" _ (by with_unfolding_all rfl) (by decide +kernel)
      (by with_unfolding_all rfl)

end History

end PatternDiagram
