import PatternDiagram.Proofs.Exhibits
import PatternDiagram.Proofs.Schedules

/-!
# Who has the last word

* `Drawable`: the source has a picture;
* `History.Ranked`: a request that calls off another is given its turn after it;
* `History.Orderly.settled_in_order`: turns are over in the order in which they began;
* `History.last_word`: **if nobody else calls anything off and all requests have come to an end, the
  canvas shows the request that was given its turn last**;
* `Schedule.second_has_last_word`: this may be a request that was made earlier and has waited
  longer.
-/

namespace PatternDiagram

open Drawing

variable {α : Type}

/-- **The source has a picture**: it is a pattern, and the bounds of its drawing are finite. -/
def Drawable [Coordinate α] (config : Config α) (source : String) : Prop :=
  ∃ e placed warnings, parse source = .ok e ∧ Draws config e placed warnings ∧
    (Render.bounds placed).isFinite = true

/-- With rational measures every pattern has a picture. -/
theorem Drawable.of_parse {config : Config Rat} {source : String} {e : Expression}
    (h : parse source = .ok e) : Drawable config source := by
  obtain ⟨placed, hdraws⟩ := exists_draws config e
  exact ⟨e, placed, _, h, hdraws, rfl⟩

/-! ## 1. Who calls off whom -/

namespace Renderer

variable [Coordinate α]

/-- A request calls off another that has its turn, and only while it has not been given its own. -/
theorem Moves.calledOff_cases {s s' : Renderer α} {es : List (Event α)} (h : s.Moves es s')
    {t : TicketId} {r : RequestId} (hmem : .calledOff t (some r) ∈ es) :
    s.active = some t ∧ s.phase? r = some .claiming := by
  cases h with
  | defer hphase ht =>
    obtain ⟨rfl, rfl⟩ : t = _ ∧ r = _ := by simpa using hmem
    exact ⟨ht, hphase⟩
  | _ => simp at hmem

/-- Tickets are given out in order. -/
theorem Moves.claimed_cases {s s' : Renderer α} {es : List (Event α)} (h : s.Moves es s')
    {t : TicketId} {r : RequestId} (hmem : .claimed r t ∈ es) : t = s.issued := by
  cases h with
  | refuse | queue | enter =>
    simp at hmem
    exact hmem.2
  | _ => simp at hmem

theorem Moves.issued_le {s s' : Renderer α} {es : List (Event α)} (h : s.Moves es s') :
    s.issued ≤ s'.issued := by
  cases h <;> simp [issued, Renderer.setPhase, Renderer.submit]

omit [Coordinate α] in
theorem mem_of_source? {s : Renderer α} {r : RequestId} {source : String}
    (h : s.source? r = some source) : source ∈ s.requests.map Request.source := by
  obtain ⟨q, hq, rfl⟩ := Option.map_eq_some_iff.mp h
  exact List.mem_map_of_mem (List.mem_of_getElem? hq)

/-- Nobody calls anything off but requests. -/
theorem caller_of_events {s : Renderer α} {a : Action} (ha : a.callsOff = false) {t : TicketId}
    {caller : Option RequestId} (h : .calledOff t caller ∈ s.events a) : ∃ r, caller = some r := by
  cases a with
  | resume r =>
    simp only [events] at h
    split at h
    · split at h
      · exact ⟨r, (Event.calledOff.inj (List.mem_singleton.mp h)).2⟩
      · obtain ⟨_, hsettled⟩ :=
          eq_settled_of_mem_ending ((List.mem_cons.mp h).resolve_left (by simp))
        cases hsettled
    · obtain ⟨_, hsettled⟩ := eq_settled_of_mem_ending h
      cases hsettled
    · cases h
  | cancel | callOff _ => cases ha
  | _ => simp [events] at h

omit [Coordinate α] in
/-- Who has come to an end has been given its turn. -/
theorem isClaimed_of_isSettled {s : Renderer α} {r : RequestId} (h : s.isSettled r = true) :
    s.isClaimed r = true := by
  obtain ⟨o, ho⟩ := Option.isSome_iff_exists.mp h
  rw [outcome?_eq_bind] at ho
  obtain ⟨p, hphase, hp⟩ := Option.bind_eq_some_iff.mp ho
  rw [isClaimed_of_phase? hphase]
  cases p with
  | settled o' => rfl
  | _ => cases hp

end Renderer

namespace History

/-- **A request that calls off another** is given its turn after it. -/
def Ranked (h : History α) : Prop :=
  ∀ t r, .calledOff t (some r) ∈ h.log →
    t < h.renderer.issued ∧ (h.renderer.source? r).isSome = true ∧
      ∀ t', .claimed r t' ∈ h.log → t < t'

variable [Coordinate α]

theorem Ranked.moves {h : History α} (hr : h.Ranked) {turn : Option (RequestId × TicketId)}
    (ho : h.Orderly turn) {es : List (Event α)} {s : Renderer α}
    (hmoves : h.renderer.Moves es s) : Ranked ⟨s, h.log ++ es⟩ := by
  -- Whoever is given its turn by the action has a greater ticket than all before.
  have hkeep {t : TicketId} {r : RequestId} {source : String} (hlt : t < h.renderer.issued)
      (hsource : h.renderer.source? r = some source)
      (hlater : ∀ t', .claimed r t' ∈ h.log → t < t') :
      t < s.issued ∧ (s.source? r).isSome = true ∧ ∀ t', .claimed r t' ∈ h.log ++ es → t < t' := by
    refine ⟨Nat.lt_of_lt_of_le hlt hmoves.issued_le, ?_, fun t' hclaimed => ?_⟩
    · rw [hmoves.source?_eq hsource]
      rfl
    · rcases List.mem_append.mp hclaimed with hbefore | hnew
      · exact hlater t' hbefore
      · rw [hmoves.claimed_cases hnew]
        exact hlt
  intro t r hmem
  rcases List.mem_append.mp hmem with hlog | hes
  · obtain ⟨hlt, hsource, hlater⟩ := hr t r hlog
    obtain ⟨source, hsource⟩ := Option.isSome_iff_exists.mp hsource
    exact hkeep hlt hsource hlater
  · obtain ⟨hactive, hphase⟩ := hmoves.calledOff_cases hes
    obtain ⟨q, hq, -⟩ := Option.map_eq_some_iff.mp hphase
    have hsource : h.renderer.source? r = some q.source := Renderer.source?_of_request hq
    refine hkeep (ho.lt_issued t hactive) hsource fun t' hclaimed => ?_
    -- Who asks for its turn has not been given it before.
    have hfst := List.mem_map_of_mem (f := Prod.fst) (mem_claims_iff.mpr hclaimed)
    rw [ho.ticketed.claimed, Renderer.isClaimed_of_phase? hphase] at hfst
    cases hfst

theorem ranked (config : Config α) (actions : List Action) : (ofActions config actions).Ranked := by
  refine (invariant (P := fun h => (∃ turn, h.Orderly turn) ∧ h.Ranked)
    ⟨⟨none, .new config⟩, fun t r hmem => by simp [new] at hmem⟩
    (fun h a ⟨⟨turn, ho⟩, hr⟩ => ?_) actions).2
  have hmoves := h.renderer.moves_perform a
  exact ⟨ho.moves hmoves, hr.moves ho hmoves⟩

/-- If nobody else calls anything off, requests do. -/
theorem caller_of_log (config : Config α) {actions : List Action}
    (hquiet : ∀ a ∈ actions, a.callsOff = false) {t : TicketId} {caller : Option RequestId}
    (h : .calledOff t caller ∈ (ofActions config actions).log) : ∃ r, caller = some r := by
  induction actions using List.reverseRecOn with
  | nil => simp [ofActions, new] at h
  | append_singleton actions a ih =>
    rw [ofActions, List.foldl_append] at h
    rcases List.mem_append.mp h with hlog | hes
    · exact ih (fun a ha => hquiet a (List.mem_append_left _ ha)) hlog
    · exact Renderer.caller_of_events (hquiet a (by simp)) hes

/-! ## 2. The order of turns -/

omit [Coordinate α] in
theorem Ticketed.increasing {s : Renderer α} {claims : List (RequestId × TicketId)}
    (h : Ticketed s claims) : (claims.map Prod.snd).Pairwise (· < ·) := by
  rw [h.numbered]
  exact List.pairwise_lt_range

omit [Coordinate α] in
/-- **Turns are over in the order in which they began.** -/
theorem Orderly.settled_in_order {h : History α} {turn : Option (RequestId × TicketId)}
    (ho : h.Orderly turn) {before : List (Event α)} {r r' : RequestId} {t t' : TicketId}
    {o o' : Outcome α} (hupto : before ++ [.settled r t o] <+: h.log)
    (hmem : .settled r' t' o' ∈ before) : t' < t := by
  obtain ⟨after, hlog⟩ := hupto
  have hendings : h.endings =
      before.filterMap Event.ending? ++ (r, t) :: after.filterMap Event.ending? := by
    rw [endings, ← hlog]
    simp [Event.ending?]
  have hincreasing := ho.ticketed.increasing
  rw [ho.claims_eq, hendings, List.append_assoc, List.map_append, List.pairwise_append]
    at hincreasing
  have hbefore : (r', t') ∈ before.filterMap Event.ending? := List.mem_filterMap.mpr ⟨_, hmem, rfl⟩
  exact hincreasing.2.2 t' (List.mem_map_of_mem hbefore) t (by simp)

omit [Coordinate α] in
/-- The turn that began last has the greatest ticket. -/
theorem Ticketed.le_last {s : Renderer α} {claims : List (RequestId × TicketId)}
    (h : Ticketed s claims) {r r' : RequestId} {t t' : TicketId}
    (hlast : claims.getLast? = some (r, t)) (hmem : (r', t') ∈ claims) : t' ≤ t := by
  obtain ⟨others, rfl⟩ := List.getLast?_eq_some_iff.mp hlast
  have hincreasing := h.increasing
  rw [List.map_append, List.pairwise_append] at hincreasing
  rcases List.mem_append.mp hmem with hbefore | hsame
  · exact Nat.le_of_lt (hincreasing.2.2 t' (List.mem_map_of_mem hbefore) t (by simp))
  · obtain ⟨-, rfl⟩ : r' = r ∧ t' = t := by simpa using hsame
    exact Nat.le_refl _

omit [Coordinate α] in
/-- Nobody has a turn when all requests have come to an end. -/
theorem Orderly.none_of_settled {h : History α} {turn : Option (RequestId × TicketId)}
    (ho : h.Orderly turn)
    (hsettled : ∀ r, (h.renderer.source? r).isSome = true → h.renderer.isSettled r = true) :
    turn = none := by
  cases turn with
  | none => rfl
  | some last =>
    obtain ⟨r, t⟩ := last
    have hticket := (ho.ticket r t).mpr rfl
    have hboth := h.renderer.isSome_ticket? r
    obtain ⟨p, hphase, -⟩ := Option.bind_eq_some_iff.mp hticket
    obtain ⟨q, hq, -⟩ := Option.map_eq_some_iff.mp hphase
    rw [hticket, hsettled r (by rw [Renderer.source?, hq]; rfl)] at hboth
    simp at hboth

/-! ## 3. The last word -/

/-- A request that nobody calls off has a picture, if its source has one. -/
theorem Faithful.ok_of_drawable {config : Config α} {h : History α} (hf : Faithful config h)
    (hdrawable : ∀ r source, h.renderer.source? r = some source → Drawable config source)
    {r : RequestId} {t : TicketId} {o : Outcome α} (hmem : .settled r t o ∈ h.log)
    (hnot : ∀ caller, .calledOff t caller ∉ h.log) : ∃ output, o = .ok output := by
  obtain ⟨before, after, hlog⟩ := List.append_of_mem hmem
  have hupto : before ++ [.settled r t o] <+: h.log := ⟨after, by rw [hlog]; simp⟩
  obtain ⟨-, source, hsource, hdue⟩ := hf.due before r t o hupto
  obtain ⟨e, placed, warnings, hparse, hdraws, hfinite⟩ := hdrawable r source hsource
  have hbefore : ¬ ∃ caller, .calledOff t caller ∈ before := by
    rintro ⟨caller, hcalled⟩
    refine hnot caller ?_
    rw [hlog]
    exact List.mem_append_left _ hcalled
  obtain ⟨placed', warnings', hdraws', rfl⟩ := hdue.of_parsed hparse hbefore
  obtain ⟨rfl, rfl⟩ := hdraws.unique hdraws'
  exact Render.verdict_ok_iff.mpr hfinite

omit [Coordinate α] in
/-- **The request with the greatest ticket is shown**, if it has come to an end with a picture. -/
theorem Orderly.lastShown?_eq {h : History α} {turn : Option (RequestId × TicketId)}
    (ho : h.Orderly turn) {r : RequestId} {t : TicketId} {output : RenderOutput α}
    (hmem : .settled r t (.ok output) ∈ h.log)
    (hlast : ∀ r' t' o', .settled r' t' o' ∈ h.log → t' ≤ t) : h.lastShown? = some r := by
  obtain ⟨before, after, hlog⟩ := List.append_of_mem hmem
  have hafter : after.filterMap Event.shown? = [] := by
    refine List.filterMap_eq_nil_iff.mpr fun event hevent => ?_
    cases event with
    | settled r' t' o' =>
      -- A later picture would be that of a later turn.
      obtain ⟨between, rest, rfl⟩ := List.append_of_mem hevent
      have hupto : (before ++ .settled r t (.ok output) :: between) ++ [.settled r' t' o'] <+:
          h.log := ⟨rest, by rw [hlog]; simp⟩
      have hbefore : .settled r t (.ok output) ∈
          before ++ .settled r t (.ok output) :: between := by simp
      have hlt : t < t' := ho.settled_in_order hupto hbefore
      exact absurd hlt (Nat.not_lt.mpr (hlast r' t' o' (by rw [hlog]; simp)))
    | _ => rfl
  have hhere : (Event.settled r t (.ok output) : Event α).shown? = some r := rfl
  rw [lastShown?, hlog, List.filterMap_append, List.filterMap_cons_some hhere, hafter]
  simp

/-- The only request with a picture is shown. -/
theorem shows_of_only {config : Config α} {actions : List Action} {r : RequestId}
    {output : RenderOutput α}
    (hpicture : (ofActions config actions).renderer.outcome? r = some (.ok output))
    (honly : ∀ r' output', (ofActions config actions).renderer.outcome? r' = some (.ok output') →
      r' = r) : (ofActions config actions).renderer.Shows config r := by
  have hshown := (faithful config actions).shown
  obtain ⟨t, hmem⟩ := (outcome?_iff config actions r _).mp hpicture
  have hsome : r ∈ (ofActions config actions).log.filterMap Event.shown? :=
    List.mem_filterMap.mpr ⟨_, hmem, rfl⟩
  split at hshown
  · rename_i hnone
    rw [List.getLast?_eq_none_iff.mp hnone] at hsome
    cases hsome
  · rename_i r' _
    obtain ⟨_, _, _, _, -, -, -, -, hend⟩ := id hshown
    obtain rfl := honly r' _ hend
    exact hshown

/-- **Who has the last word.** If nobody calls anything off but requests that ask for their turn,
    all sources have pictures, and all requests have come to an end: the canvas shows the picture of
    the request that was given its turn last. This need not be the request that was made last: that
    one is shown just if it was also given its turn last. A request calls off only those that were
    given their turn before it, and draws only over those. -/
theorem last_word {config : Config α} {actions : List Action}
    (hquiet : ∀ a ∈ actions, a.callsOff = false)
    (hdrawable : ∀ r source, (ofActions config actions).renderer.source? r = some source →
      Drawable config source)
    (hsettled : ∀ r, ((ofActions config actions).renderer.source? r).isSome = true →
      (ofActions config actions).renderer.isSettled r = true) :
    let h := ofActions config actions
    (∀ r t, h.claims.getLast? = some (r, t) →
      h.lastShown? = some r ∧ h.renderer.Shows config r) ∧
    (∀ n, h.renderer.requests.length = n + 1 →
      (∃ r t, h.claims.getLast? = some (r, t)) ∧
      (h.lastShown? = some n ↔ ∃ t, h.claims.getLast? = some (n, t))) ∧
    (∀ t caller, .calledOff t caller ∈ h.log →
      ∃ r t', caller = some r ∧ .claimed r t' ∈ h.log ∧ t < t') ∧
    ∀ before r t o r' t' o', before ++ [.settled r t o] <+: h.log → .settled r' t' o' ∈ before →
      t' < t := by
  intro h
  obtain ⟨turn, ho⟩ : ∃ turn, h.Orderly turn := orderly config actions
  obtain rfl := ho.none_of_settled hsettled
  have hf : Faithful config h := faithful config actions
  have hclaims : h.claims = h.endings := by simpa using ho.claims_eq
  have hclaimed : ∀ r, (h.renderer.source? r).isSome = true → ∃ t, (r, t) ∈ h.claims := by
    intro r hsource
    have hclaimed := Renderer.isClaimed_of_isSettled (hsettled r hsource)
    obtain ⟨⟨r, t⟩, hmem, rfl⟩ := List.mem_map.mp ((ho.ticketed.claimed r).mpr hclaimed)
    exact ⟨t, hmem⟩
  have hcaller : ∀ t caller, .calledOff t caller ∈ h.log →
      ∃ r t', caller = some r ∧ .claimed r t' ∈ h.log ∧ t < t' := by
    intro t caller hmem
    obtain ⟨r, rfl⟩ := caller_of_log config hquiet hmem
    obtain ⟨-, hsource, hlater⟩ := ranked config actions t r hmem
    obtain ⟨t', ht'⟩ := hclaimed r hsource
    have hlog := mem_claims_iff.mp ht'
    exact ⟨r, t', rfl, hlog, hlater t' hlog⟩
  have hlast : ∀ r t, h.claims.getLast? = some (r, t) →
      h.lastShown? = some r ∧ h.renderer.Shows config r := by
    intro r t hgreatest
    have hle {r' : RequestId} {t' : TicketId} (hmem : (r', t') ∈ h.claims) : t' ≤ t :=
      ho.ticketed.le_last hgreatest hmem
    obtain ⟨o, hmem⟩ := mem_endings_iff.mp (hclaims ▸ List.mem_of_getLast? hgreatest)
    have hnot : ∀ caller, .calledOff t caller ∉ h.log := by
      intro caller hcalled
      obtain ⟨r', t', -, hlog, hlt⟩ := hcaller t caller hcalled
      exact absurd hlt (Nat.not_lt.mpr (hle (mem_claims_iff.mpr hlog)))
    obtain ⟨output, rfl⟩ := hf.ok_of_drawable hdrawable hmem hnot
    have hshown : h.lastShown? = some r :=
      ho.lastShown?_eq hmem fun r' t' o' hmem' =>
        hle (hclaims ▸ mem_endings_iff.mpr ⟨o', hmem'⟩)
    have hshows := hf.shown
    rw [hshown] at hshows
    exact ⟨hshown, hshows⟩
  refine ⟨hlast, fun n hlength => ?_, hcaller, fun before r t o r' t' o' => ho.settled_in_order⟩
  have hsource : (h.renderer.source? n).isSome = true := by
    have hlt : n < h.renderer.requests.length := by omega
    simp [Renderer.source?, hlt]
  obtain ⟨t, hmem⟩ := hclaimed n hsource
  cases hgreatest : h.claims.getLast? with
  | none =>
    rw [List.getLast?_eq_none_iff.mp hgreatest] at hmem
    cases hmem
  | some last =>
    obtain ⟨r, t'⟩ := last
    refine ⟨⟨r, t', rfl⟩, ?_, ?_⟩
    · intro hshown
      have hr := (hlast r t' hgreatest).1
      exact ⟨t', by rw [Option.some.inj (hshown.symm.trans hr)]⟩
    · rintro ⟨t'', hn⟩
      exact (hlast n t'' (hgreatest.trans hn)).1

/-- A request that is made while another has the canvas calls it off, waits, and has the last
    word. -/
theorem last_word_of_two :
    let actions : List Action :=
      [.submit "a", .resume 0, .submit "b", .resume 1, .resume 0, .rouse 1, .resume 1, .resume 1]
    let h : History Rat := ofActions Config.standard actions
    (∀ a ∈ actions, a.callsOff = false) ∧
    (∀ r source, h.renderer.source? r = some source →
      Drawable (Config.standard : Config Rat) source) ∧
    (∀ r, (h.renderer.source? r).isSome = true → h.renderer.isSettled r = true) ∧
    h.lastShown? = some 1 ∧ h.renderer.Shows Config.standard 1 := by
  intro actions h
  have hquiet : ∀ a ∈ actions, a.callsOff = false := by decide
  have hsources : h.renderer.requests.map Request.source = ["a", "b"] := by decide +kernel
  have hdrawable : ∀ r source, h.renderer.source? r = some source →
      Drawable (Config.standard : Config Rat) source := by
    intro r source hsource
    have hmem := Renderer.mem_of_source? hsource
    rw [hsources] at hmem
    have hcases : source = "a" ∨ source = "b" := by simpa using hmem
    rcases hcases with rfl | rfl
    · exact .of_parse (by with_unfolding_all rfl)
    · exact .of_parse (by with_unfolding_all rfl)
  have hsettled : ∀ r, (h.renderer.source? r).isSome = true → h.renderer.isSettled r = true := by
    have hboth : ∀ r < 2, h.renderer.isSettled r = true := by decide +kernel
    intro r hsource
    refine hboth r ?_
    have hlength : h.renderer.requests.length = 2 := by
      rw [← List.length_map Request.source, hsources]
      rfl
    simpa [Renderer.source?, hlength] using hsource
  have hlast : h.claims.getLast? = some (1, 1) := by decide +kernel
  exact ⟨hquiet, hdrawable, hsettled, (last_word hquiet hdrawable hsettled).1 1 1 hlast⟩

end History

/-- **The request that was made last need not have the last word**, on a schedule either. The second
    calls the first off and finds it still there when its wait is over; when the first has come to
    an end, the third is given its turn; and when the second has waited again, it calls the third
    off, and the canvas shows it in the end. -/
theorem Schedule.second_has_last_word :
    let s : Schedule Rat := ofCommands Config.standard
      [.hold, .start "a", .start "bb", .pass 1, .start "ccc", .pass 9, .release, .hold, .pass 1,
        .pass 9, .release, .pass 40]
    s.renderer.requests.map Request.source = ["a", "bb", "ccc"] ∧
      s.renderer.outcome? 0 = some (.error .cancelled) ∧
      s.renderer.outcome? 1 = some (.ok ⟨98, 44, []⟩) ∧
      s.renderer.outcome? 2 = some (.error .cancelled) ∧
      s.renderer.Shows Config.standard 1 := by
  intro s
  have hsources : s.renderer.requests.map Request.source = ["a", "bb", "ccc"] := by decide +kernel
  have hfirst : s.renderer.outcome? 0 = some (.error .cancelled) := by decide +kernel
  have hsecond : s.renderer.outcome? 1 = some (.ok ⟨98, 44, []⟩) := by decide +kernel
  have hthird : s.renderer.outcome? 2 = some (.error .cancelled) := by decide +kernel
  obtain ⟨actions, hrenderer, -⟩ : ∃ actions, s.renderer =
      (History.ofActions (Config.standard : Config Rat) actions).renderer ∧ _ := exists_history _ _
  -- From here on it does not matter how all this has come about.
  clear_value s
  refine ⟨hsources, hfirst, hsecond, hthird, ?_⟩
  rw [hrenderer] at hsources hfirst hsecond hthird ⊢
  refine History.shows_of_only hsecond fun r output hend => ?_
  match r with
  | 0 => rw [hfirst] at hend; cases hend
  | 1 => rfl
  | 2 => rw [hthird] at hend; cases hend
  | n + 3 =>
    have hlength := congrArg List.length hsources
    rw [List.length_map] at hlength
    have hnone : (History.ofActions (Config.standard : Config Rat) actions).renderer.phase?
        (n + 3) = none := by
      rw [Renderer.phase?, List.getElem?_eq_none (by rw [hlength]; simp)]
      rfl
    rw [Renderer.outcome?_eq_bind, hnone] at hend
    cases hend

end PatternDiagram
