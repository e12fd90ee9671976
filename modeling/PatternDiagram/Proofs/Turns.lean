import Mathlib.Data.List.Nodup
import PatternDiagram.Proofs.Histories

/-!
# One request at a time

* `History.claims`, `History.endings`: who has been given which ticket, and whose turn is over;
* `History.Orderly`: the request whose turn it is has the active ticket, and it is the one that has
  been given its turn last; the turns of all others are over, in the order in which they began;
* `History.Orderly.moves`, `History.orderly`: every action keeps this, so that every history has it;
* `History.one_at_a_time`: **there is one turn at a time**, with a ticket of its own, and it is over
  when its request comes to an end.
-/

namespace PatternDiagram

variable {α : Type}

/-! ## 1. Turns that are noted -/

/-- The request that is given its turn, and its ticket. -/
def Event.claim? : Event α → Option (RequestId × TicketId)
  | .claimed r t => some (r, t)
  | .calledOff _ _ | .settled _ _ _ => none

/-- The request whose turn is over, and its ticket. -/
def Event.ending? : Event α → Option (RequestId × TicketId)
  | .settled r t _ => some (r, t)
  | .claimed _ _ | .calledOff _ _ => none

namespace History

/-- Who has been given which ticket, in order. -/
def claims (h : History α) : List (RequestId × TicketId) := h.log.filterMap Event.claim?

/-- Whose turn is over, in order. -/
def endings (h : History α) : List (RequestId × TicketId) := h.log.filterMap Event.ending?

theorem claims_append (h : History α) (s : Renderer α) (es : List (Event α)) :
    claims ⟨s, h.log ++ es⟩ = h.claims ++ es.filterMap Event.claim? := List.filterMap_append ..

theorem endings_append (h : History α) (s : Renderer α) (es : List (Event α)) :
    endings ⟨s, h.log ++ es⟩ = h.endings ++ es.filterMap Event.ending? := List.filterMap_append ..

theorem mem_claims_iff {h : History α} {r : RequestId} {t : TicketId} :
    (r, t) ∈ h.claims ↔ .claimed r t ∈ h.log := by
  simp only [claims, List.mem_filterMap]
  constructor
  · rintro ⟨event, hmem, hclaim⟩
    cases event <;> simp_all [Event.claim?]
  · intro hmem
    exact ⟨_, hmem, rfl⟩

theorem mem_endings_iff {h : History α} {r : RequestId} {t : TicketId} :
    (r, t) ∈ h.endings ↔ ∃ outcome, .settled r t outcome ∈ h.log := by
  simp only [endings, List.mem_filterMap]
  constructor
  · rintro ⟨event, hmem, hending⟩
    cases event with
    | settled r' t' outcome =>
      obtain ⟨rfl, rfl⟩ : r' = r ∧ t' = t := by simpa [Event.ending?] using hending
      exact ⟨outcome, hmem⟩
    | _ => simp [Event.ending?] at hending
  · rintro ⟨outcome, hmem⟩
    exact ⟨_, hmem, rfl⟩

end History

/-! ## 2. What a phase says of a turn -/

namespace Renderer

theorem ticket?_setPhase {s : Renderer α} {r : RequestId} {before : Phase α}
    (h : s.phase? r = some before) (after : Phase α) (r' : RequestId) :
    (s.setPhase r after).ticket? r' = if r' = r then after.ticket? else s.ticket? r' :=
  apply_setPhase (·.bind Phase.ticket?) h after r'

/-- A request that gets further with the ticket that it had before. -/
theorem ticket?_setPhase_of_eq {s : Renderer α} {r : RequestId} {before after : Phase α}
    (h : s.phase? r = some before) (he : after.ticket? = before.ticket?) (r' : RequestId) :
    (s.setPhase r after).ticket? r' = s.ticket? r' :=
  apply_setPhase_of_eq (·.bind Phase.ticket?) h he r'

theorem isClaimed_setPhase {s : Renderer α} {r : RequestId} {before : Phase α}
    (h : s.phase? r = some before) (after : Phase α) (r' : RequestId) :
    (s.setPhase r after).isClaimed r' = if r' = r then after.isClaimed else s.isClaimed r' :=
  apply_setPhase (·.any Phase.isClaimed) h after r'

theorem isClaimed_setPhase_of_eq {s : Renderer α} {r : RequestId} {before after : Phase α}
    (h : s.phase? r = some before) (he : after.isClaimed = before.isClaimed) (r' : RequestId) :
    (s.setPhase r after).isClaimed r' = s.isClaimed r' :=
  apply_setPhase_of_eq (·.any Phase.isClaimed) h he r'

theorem ticket?_of_phase? {s : Renderer α} {r : RequestId} {p : Phase α}
    (h : s.phase? r = some p) : s.ticket? r = p.ticket? := by
  rw [ticket?, h]
  rfl

theorem isClaimed_of_phase? {s : Renderer α} {r : RequestId} {p : Phase α}
    (h : s.phase? r = some p) : s.isClaimed r = p.isClaimed := by
  rw [isClaimed, h]
  rfl

end Renderer

/-! ## 3. The order of turns -/

namespace History

/-- **Tickets are numbered as turns begin**, and no request has two turns. -/
structure Ticketed (s : Renderer α) (claims : List (RequestId × TicketId)) : Prop where
  numbered : claims.map Prod.snd = List.range s.issued
  claimed : ∀ r, r ∈ claims.map Prod.fst ↔ s.isClaimed r = true
  once : (claims.map Prod.fst).Nodup

theorem Ticketed.snoc {s s' : Renderer α} {claims : List (RequestId × TicketId)} {r : RequestId}
    (h : Ticketed s claims) (hfresh : s.isClaimed r = false) (hissued : s'.issued = s.issued + 1)
    (hclaimed : ∀ r', s'.isClaimed r' = if r' = r then true else s.isClaimed r') :
    Ticketed s' (claims ++ [(r, s.issued)]) where
  numbered := by simp [h.numbered, hissued, List.range_succ]
  claimed := by
    intro r'
    rw [hclaimed, List.map_append, List.mem_append, h.claimed]
    by_cases hr : r' = r <;> simp [hr]
  once := by
    have hnot : r ∉ claims.map Prod.fst := by
      rw [h.claimed, hfresh]
      simp
    rw [List.map_append, List.nodup_append_comm]
    exact List.nodup_cons.mpr ⟨hnot, h.once⟩

theorem Ticketed.congr {s s' : Renderer α} {claims : List (RequestId × TicketId)}
    (h : Ticketed s claims) (hissued : s'.issued = s.issued)
    (hclaimed : ∀ r, s'.isClaimed r = s.isClaimed r) : Ticketed s' claims where
  numbered := by rw [hissued, h.numbered]
  claimed := fun r => by rw [hclaimed, h.claimed]
  once := h.once

/-- **The turns of a history are in order**: `turn` is the one that is not over, if there is one,
    and it has begun after all others were over. -/
structure Orderly (h : History α) (turn : Option (RequestId × TicketId)) : Prop where
  active : h.renderer.active = turn.map Prod.snd
  ticket : ∀ r t, h.renderer.ticket? r = some t ↔ turn = some (r, t)
  claims_eq : h.claims = h.endings ++ turn.toList
  ticketed : Ticketed h.renderer h.claims

theorem Orderly.new [Coordinate α] (config : Config α) : (new config).Orderly none where
  active := rfl
  ticket := by simp [History.new, Renderer.new, Renderer.ticket?, Renderer.phase?]
  claims_eq := rfl
  ticketed := {
    numbered := rfl
    claimed := by simp [History.new, Renderer.new, Renderer.isClaimed, Renderer.phase?, claims]
    once := by simp [History.new, claims] }

/-- What has nothing to do with turns keeps them. -/
theorem Orderly.keep {h : History α} {turn : Option (RequestId × TicketId)} (ho : h.Orderly turn)
    {s : Renderer α} {es : List (Event α)} (hactive : s.active = h.renderer.active)
    (hissued : s.issued = h.renderer.issued) (hticket : ∀ r, s.ticket? r = h.renderer.ticket? r)
    (hclaimed : ∀ r, s.isClaimed r = h.renderer.isClaimed r)
    (hclaims : es.filterMap Event.claim? = []) (hendings : es.filterMap Event.ending? = []) :
    Orderly ⟨s, h.log ++ es⟩ turn := by
  have hclaims' : claims ⟨s, h.log ++ es⟩ = h.claims := by
    rw [claims_append, hclaims, List.append_nil]
  have hendings' : endings ⟨s, h.log ++ es⟩ = h.endings := by
    rw [endings_append, hendings, List.append_nil]
  exact {
    active := hactive.trans ho.active
    ticket := fun r t => by rw [hticket, ho.ticket]
    claims_eq := by rw [hclaims', hendings', ho.claims_eq]
    ticketed := by rw [hclaims']; exact ho.ticketed.congr hissued hclaimed }

/-- A turn begins when all others are over. -/
theorem Orderly.begin {h : History α} (ho : h.Orderly none) {s : Renderer α} {r : RequestId}
    (hfresh : h.renderer.isClaimed r = false) (hactive : s.active = some h.renderer.issued)
    (hissued : s.issued = h.renderer.issued + 1)
    (hticket : ∀ r', s.ticket? r' = if r' = r then some h.renderer.issued
      else h.renderer.ticket? r')
    (hclaimed : ∀ r', s.isClaimed r' = if r' = r then true else h.renderer.isClaimed r') :
    Orderly ⟨s, h.log ++ [.claimed r h.renderer.issued]⟩ (some (r, h.renderer.issued)) where
  active := hactive
  ticket := by
    intro r' t
    rw [hticket]
    by_cases hr : r' = r
    · simp [hr]
    · simp [hr, ho.ticket, Ne.symm hr]
  claims_eq := by
    rw [claims_append, endings_append, ho.claims_eq]
    simp [Event.claim?, Event.ending?]
  ticketed := by
    rw [claims_append]
    exact ho.ticketed.snoc hfresh hissued hclaimed

/-- A turn is over when its request comes to an end. -/
theorem Orderly.finish {h : History α} {r : RequestId} {t : TicketId}
    (ho : h.Orderly (some (r, t))) {s : Renderer α} (outcome : Outcome α)
    (hactive : s.active = none) (hissued : s.issued = h.renderer.issued)
    (hticket : ∀ r', s.ticket? r' = if r' = r then none else h.renderer.ticket? r')
    (hclaimed : ∀ r', s.isClaimed r' = h.renderer.isClaimed r') :
    Orderly ⟨s, h.log ++ [.settled r t outcome]⟩ none where
  active := hactive
  ticket := by
    intro r' t'
    rw [hticket]
    by_cases hr : r' = r
    · simp [hr]
    · simp [hr, ho.ticket, Ne.symm hr]
  claims_eq := by
    rw [claims_append, endings_append, ho.claims_eq]
    simp [Event.claim?, Event.ending?]
  ticketed := by
    rw [claims_append, show List.filterMap Event.claim? [.settled r t outcome] = [] from rfl,
      List.append_nil]
    exact ho.ticketed.congr hissued hclaimed

/-- A turn that is over as soon as it has begun. -/
theorem Orderly.refuse {h : History α} (ho : h.Orderly none) {s : Renderer α} {r : RequestId}
    (outcome : Outcome α) (hfresh : h.renderer.isClaimed r = false) (hactive : s.active = none)
    (hissued : s.issued = h.renderer.issued + 1)
    (hticket : ∀ r', s.ticket? r' = h.renderer.ticket? r')
    (hclaimed : ∀ r', s.isClaimed r' = if r' = r then true else h.renderer.isClaimed r') :
    Orderly ⟨s, h.log ++ [.claimed r h.renderer.issued, .settled r h.renderer.issued outcome]⟩
      none where
  active := hactive
  ticket := fun r' t => by rw [hticket, ho.ticket]
  claims_eq := by
    rw [claims_append, endings_append, ho.claims_eq]
    simp only [Option.toList_none, List.append_nil]
    rfl
  ticketed := by
    rw [claims_append]
    exact ho.ticketed.snoc hfresh hissued hclaimed

/-- Nobody has a turn if no ticket is active. -/
theorem Orderly.eq_none {h : History α} {turn : Option (RequestId × TicketId)}
    (ho : h.Orderly turn) (hfree : h.renderer.active = none) : turn = none := by
  have hturn := ho.active
  rw [hfree] at hturn
  exact Option.map_eq_none_iff.mp hturn.symm

/-- Whose turn it is has been given the ticket. -/
theorem Orderly.mem_claims {h : History α} {r : RequestId} {t : TicketId}
    (ho : h.Orderly (some (r, t))) : (r, t) ∈ h.claims := by
  rw [ho.claims_eq]
  simp

/-- The ticket of the request that has its turn has been issued. -/
theorem Orderly.lt_issued {h : History α} {turn : Option (RequestId × TicketId)}
    (ho : h.Orderly turn) (t : TicketId) (hactive : h.renderer.active = some t) :
    t < h.renderer.issued := by
  obtain ⟨⟨r, t'⟩, rfl, rfl⟩ := Option.map_eq_some_iff.mp (ho.active.symm.trans hactive)
  have hmem := List.mem_map_of_mem (f := Prod.snd) ho.mem_claims
  rw [ho.ticketed.numbered] at hmem
  exact List.mem_range.mp hmem

/-- **A ticket belongs to one request**, and a request has one ticket. -/
theorem Ticketed.eq_iff {s : Renderer α} {claims : List (RequestId × TicketId)}
    (h : Ticketed s claims) {r r' : RequestId} {t t' : TicketId} (hr : (r, t) ∈ claims)
    (hr' : (r', t') ∈ claims) : r = r' ↔ t = t' := by
  have htickets : (claims.map Prod.snd).Nodup := h.numbered ▸ List.nodup_range
  constructor
  · intro e
    exact congrArg Prod.snd (List.inj_on_of_nodup_map h.once hr hr' e)
  · intro e
    exact congrArg Prod.fst (List.inj_on_of_nodup_map htickets hr hr' e)

variable [Coordinate α]

/-- **Every action keeps the turns in order.** -/
theorem Orderly.moves {h : History α} {turn : Option (RequestId × TicketId)} (ho : h.Orderly turn)
    {es : List (Event α)} {s : Renderer α} (hmoves : h.renderer.Moves es s) :
    ∃ turn', Orderly ⟨s, h.log ++ es⟩ turn' := by
  cases hmoves with
  | submit source =>
    exact ⟨turn, ho.keep rfl rfl (Renderer.apply_submit (·.bind Phase.ticket?) rfl _ source)
      (Renderer.apply_submit (·.any Phase.isClaimed) rfl _ source) rfl rfl⟩
  | rouse hphase =>
    exact ⟨turn, ho.keep rfl rfl (Renderer.ticket?_setPhase_of_eq hphase rfl)
      (Renderer.isClaimed_setPhase_of_eq hphase rfl) rfl rfl⟩
  | stay | hold | release _ =>
    exact ⟨turn, ho.keep rfl rfl (fun _ => rfl) (fun _ => rfl) rfl rfl⟩
  | callOff ht =>
    exact ⟨turn, ho.keep rfl (TicketBook.length_update ..) (fun _ => rfl) (fun _ => rfl) rfl rfl⟩
  | defer hphase ht =>
    exact ⟨turn, ho.keep rfl (TicketBook.length_update ..)
      (Renderer.ticket?_setPhase_of_eq hphase rfl)
      (Renderer.isClaimed_setPhase_of_eq hphase rfl) rfl rfl⟩
  | begin hphase hlock =>
    exact ⟨turn, ho.keep rfl (TicketBook.length_update ..)
      (Renderer.ticket?_setPhase_of_eq hphase rfl)
      (Renderer.isClaimed_setPhase_of_eq hphase rfl) rfl rfl⟩
  | refuse hrequest hfree hparse =>
    obtain rfl := ho.eq_none hfree
    have hphase := Renderer.phase?_of_request hrequest
    have hfresh := Renderer.isClaimed_of_phase? hphase
    exact ⟨none, ho.refuse _ hfresh hfree (TicketBook.length_issue _)
      (Renderer.ticket?_setPhase_of_eq hphase rfl) (Renderer.isClaimed_setPhase hphase _)⟩
  | queue hrequest hfree hparse hlock =>
    obtain rfl := ho.eq_none hfree
    have hphase := Renderer.phase?_of_request hrequest
    have hfresh := Renderer.isClaimed_of_phase? hphase
    exact ⟨_, ho.begin hfresh rfl (TicketBook.length_issue _)
      (Renderer.ticket?_setPhase hphase _) (Renderer.isClaimed_setPhase hphase _)⟩
  | enter hrequest hfree hparse hlock =>
    obtain rfl := ho.eq_none hfree
    have hphase := Renderer.phase?_of_request hrequest
    have hfresh := Renderer.isClaimed_of_phase? hphase
    exact ⟨_, ho.begin hfresh rfl ((TicketBook.length_update ..).trans (TicketBook.length_issue _))
      (Renderer.ticket?_setPhase hphase _) (Renderer.isClaimed_setPhase hphase _)⟩
  | @finish r t e hphase =>
    obtain rfl := (ho.ticket r t).mp (Renderer.ticket?_of_phase? hphase)
    have hactive : h.renderer.active = some t := ho.active
    exact ⟨none, ho.finish _ (if_pos hactive) (TicketBook.length_update ..)
      (Renderer.ticket?_setPhase hphase _) (Renderer.isClaimed_setPhase_of_eq hphase rfl)⟩

/-- A request that comes to an end leaves no ticket active. Before, its own was, or it has been
    given its turn in the same stretch. -/
theorem Orderly.of_settled {h : History α} {turn : Option (RequestId × TicketId)}
    (ho : h.Orderly turn) {es : List (Event α)} {s : Renderer α} (hmoves : h.renderer.Moves es s)
    {r : RequestId} {t : TicketId} {outcome : Outcome α} (hmem : .settled r t outcome ∈ es) :
    s.active = none ∧
      (h.renderer.active = some t ∧ h.renderer.ticket? r = some t ∨
        h.renderer.active = none ∧ .claimed r t ∈ es) := by
  cases hmoves with
  | refuse hrequest hfree hparse =>
    obtain ⟨rfl, rfl, -⟩ : r = _ ∧ t = _ ∧ _ := by simpa using hmem
    exact ⟨hfree, .inr ⟨hfree, by simp⟩⟩
  | finish hphase =>
    obtain ⟨rfl, rfl, -⟩ : r = _ ∧ t = _ ∧ _ := by simpa using hmem
    have hticket := Renderer.ticket?_of_phase? hphase
    obtain rfl := (ho.ticket _ _).mp hticket
    have hactive : h.renderer.active = some t := ho.active
    exact ⟨if_pos hactive, .inl ⟨hactive, hticket⟩⟩
  | _ => simp at hmem

/-- Only the request itself gives its ticket back, when it comes to an end. -/
theorem Orderly.settled_of_active {h : History α} {turn : Option (RequestId × TicketId)}
    (ho : h.Orderly turn) {es : List (Event α)} {s : Renderer α} (hmoves : h.renderer.Moves es s)
    {t : TicketId} (hactive : h.renderer.active = some t) (hafter : s.active ≠ some t) :
    ∃ r outcome, h.renderer.ticket? r = some t ∧ .settled r t outcome ∈ es := by
  cases hmoves with
  | @finish r t' e hphase =>
    have hticket := Renderer.ticket?_of_phase? hphase
    obtain rfl := (ho.ticket _ _).mp hticket
    obtain rfl : t' = t := Option.some.inj (ho.active.symm.trans hactive)
    exact ⟨r, _, hticket, List.mem_singleton_self _⟩
  | refuse hrequest hfree hparse =>
    rw [hactive] at hfree
    cases hfree
  | queue hrequest hfree hparse hlock =>
    rw [hactive] at hfree
    cases hfree
  | enter hrequest hfree hparse hlock =>
    rw [hactive] at hfree
    cases hfree
  | _ => exact absurd hactive hafter

/-- **The turns of every history are in order.** -/
theorem orderly (config : Config α) (actions : List Action) :
    ∃ turn, (ofActions config actions).Orderly turn :=
  invariant (P := fun h => ∃ turn, h.Orderly turn) ⟨none, .new config⟩
    (fun h a ⟨_, ho⟩ => ho.moves (h.renderer.moves_perform a)) actions

/-- **One request at a time.** Whatever has happened to a renderer: at most one request has its turn
    and has not come to an end; a ticket is active just if there is such a request, and it is the
    ticket that this one has been given; no two requests are ever given the same ticket, and none is
    given two; a request that comes to an end, in whatever way, leaves no ticket active, where its
    own was before, or none as it has been given its turn in the same stretch; and nobody else gives
    a request's ticket back. -/
theorem one_at_a_time (config : Config α) (actions : List Action) :
    let h := ofActions config actions
    (∀ r r' t t', h.renderer.ticket? r = some t → h.renderer.ticket? r' = some t' → r = r') ∧
    (∀ t, h.renderer.active = some t ↔ ∃ r, h.renderer.ticket? r = some t) ∧
    (∀ r t, h.renderer.ticket? r = some t → .claimed r t ∈ h.log) ∧
    (∀ r r' t t', .claimed r t ∈ h.log → .claimed r' t' ∈ h.log → (r = r' ↔ t = t')) ∧
    (∀ a r, h.renderer.isSettled r = false → (h.renderer.perform a).isSettled r = true →
      (h.renderer.perform a).active = none ∧
      ∃ t, .claimed r t ∈ (h.extend a).log ∧
        (h.renderer.active = some t ∧ h.renderer.ticket? r = some t ∨
          h.renderer.active = none ∧ .claimed r t ∈ h.renderer.events a)) ∧
    ∀ a t, h.renderer.active = some t → (h.renderer.perform a).active ≠ some t →
      ∃ r, h.renderer.ticket? r = some t ∧ (h.renderer.perform a).isSettled r = true := by
  intro h
  obtain ⟨turn, ho⟩ := orderly config actions
  have hturn {r : RequestId} {t : TicketId} (hr : h.renderer.ticket? r = some t) :
      turn = some (r, t) := (ho.ticket r t).mp hr
  refine ⟨fun r r' t t' hr hr' => ?_, fun t => ⟨fun hactive => ?_, fun ⟨r, hr⟩ => ?_⟩,
    fun r t hr => ?_, fun r r' t t' hr hr' => ?_, fun a r hbefore hafter => ?_,
    fun a t hactive hafter => ?_⟩
  · have hboth := (hturn hr).symm.trans (hturn hr')
    exact congrArg Prod.fst (Option.some.inj hboth)
  · obtain ⟨⟨r, t'⟩, rfl, rfl⟩ := Option.map_eq_some_iff.mp (ho.active.symm.trans hactive)
    exact ⟨r, (ho.ticket r t').mpr rfl⟩
  · rw [ho.active, hturn hr]
    rfl
  · obtain rfl := hturn hr
    exact mem_claims_iff.mp ho.mem_claims
  · exact ho.ticketed.eq_iff (mem_claims_iff.mpr hr) (mem_claims_iff.mpr hr')
  · have hmoves := h.renderer.moves_perform a
    obtain ⟨outcome, houtcome⟩ := Option.isSome_iff_exists.mp hafter
    rcases (hmoves.outcome?_iff r outcome).mp houtcome with hsome | ⟨t, hmem⟩
    · rw [Renderer.isSettled, hsome] at hbefore
      cases hbefore
    · obtain ⟨hnone, hown⟩ := ho.of_settled hmoves hmem
      refine ⟨hnone, t, List.mem_append.mpr ?_, hown⟩
      rcases hown with ⟨-, hr⟩ | ⟨-, hclaimed⟩
      · obtain rfl := hturn hr
        exact .inl (mem_claims_iff.mp ho.mem_claims)
      · exact .inr hclaimed
  · have hmoves := h.renderer.moves_perform a
    obtain ⟨r, outcome, hr, hmem⟩ := ho.settled_of_active hmoves hactive hafter
    refine ⟨r, hr, ?_⟩
    rw [Renderer.isSettled, (hmoves.outcome?_iff r outcome).mpr (.inr ⟨t, hmem⟩)]
    rfl

/-- A request is called off while it draws, and its turn is over when it goes on. -/
theorem one_at_a_time_of_two :
    let h : History Rat :=
      ofActions Config.standard [.submit "a", .resume 0, .submit "b", .resume 1]
    h.renderer.active = some 0 ∧ .claimed 0 0 ∈ h.log ∧
    (∀ r t, h.renderer.ticket? r = some t → r = 0) ∧
    (∀ r t, .claimed r t ∈ h.log → (r = 0 ↔ t = 0)) ∧
    (h.renderer.perform (.resume 0)).active = none ∧
    (∃ t, .claimed 0 t ∈ (h.extend (.resume 0)).log ∧
      (h.renderer.active = some t ∧ h.renderer.ticket? 0 = some t ∨
        h.renderer.active = none ∧ .claimed 0 t ∈ h.renderer.events (.resume 0))) ∧
    ∃ r, h.renderer.ticket? r = some 0 ∧
      (h.renderer.perform (.resume 0)).isSettled r = true := by
  intro h
  obtain ⟨hone, hactive, hclaimed, hnumbers, hsettled, hleft⟩ :=
    one_at_a_time (Config.standard : Config Rat) [.submit "a", .resume 0, .submit "b", .resume 1]
  have hturn : h.renderer.ticket? 0 = some 0 := by decide +kernel
  obtain ⟨hfree, hown⟩ := hsettled (.resume 0) 0 (by decide +kernel) (by decide +kernel)
  have hlast := hleft (.resume 0) 0 ((hactive 0).mpr ⟨0, hturn⟩) (by rw [hfree]; simp)
  exact ⟨(hactive 0).mpr ⟨0, hturn⟩, hclaimed 0 0 hturn, fun r t hr => hone r 0 t 0 hr hturn,
    fun r t hr => hnumbers r 0 t 0 hr (hclaimed 0 0 hturn), hfree, hown, hlast⟩

end History

end PatternDiagram
