import PatternDiagram.Proofs.Locks
import PatternDiagram.Proofs.Pictures

/-!
# What the canvas shows

* `History.lastShown?`: the request that has come to an end with a picture last;
* `Renderer.Shows`: the canvas shows the picture of a request, and has its size;
* `Renderer.Due`: what a request has to come to, depending on its source and on whether it has been
  called off before;
* `History.Faithful`: what is known of a history: tickets are marked just if they have been called
  off, every request has come to what it was due, and the canvas shows the last picture;
* `History.faithful`: **every history is like that**.
-/

namespace PatternDiagram

open Drawing

variable {α : Type}

/-! ## 1. Tickets -/

namespace TicketBook

/-- A fresh ticket is as good as one that has not been issued. -/
theorem get_issue_fst (b : TicketBook) (t : TicketId) : b.issue.1.get t = b.get t := by
  simp only [issue, get, List.getD_eq_getElem?_getD, List.getElem?_append, List.getElem?_singleton]
  split
  · rfl
  · rename_i h
    rw [List.getElem?_eq_none (Nat.le_of_not_lt h)]
    split <;> rfl

/-- A ticket is called off by nobody who only changes its progress. -/
theorem cancelled_update {b : TicketBook} {t : TicketId} {f : Ticket → Ticket}
    (hf : (f (b.get t)).cancelled = (b.get t).cancelled) (t' : TicketId) :
    ((b.update t f).get t').cancelled = (b.get t').cancelled := by
  by_cases ht : t = t'
  · subst ht
    by_cases hlt : t < b.tickets.length
    · rw [b.get_update_self f hlt, hf]
    · rw [update, List.modify_eq_self (Nat.le_of_not_lt hlt)]
  · rw [b.get_update_ne f ht]

/-- **A ticket is called off** just if it is this one or has been called off before. -/
theorem cancelled_cancel {b : TicketBook} {t : TicketId} (ht : t < b.tickets.length)
    (t' : TicketId) :
    ((b.update t Ticket.cancel).get t').cancelled = true ↔
      (b.get t').cancelled = true ∨ t' = t := by
  by_cases hsame : t = t'
  · subst hsame
    rw [b.get_update_self Ticket.cancel ht]
    simp [Ticket.cancel]
  · rw [b.get_update_ne Ticket.cancel hsame]
    simp [Ne.symm hsame]

end TicketBook

/-- A ticket is called off by nobody before it is issued. -/
theorem Renderer.cancelled_issued (s : Renderer α) :
    (s.tickets.get s.issued).cancelled = false := by
  rw [TicketBook.get, List.getD_eq_getElem?_getD, issued, List.getElem?_eq_none (Nat.le_refl _)]
  rfl

/-! ## 2. What an action changes -/

namespace Renderer

/-- The expression of a request that has its turn. -/
def expression? (s : Renderer α) (r : RequestId) : Option Expression :=
  (s.phase? r).bind Phase.expression?

variable [Coordinate α]

theorem Moves.config_eq {s s' : Renderer α} {es : List (Event α)} (h : s.Moves es s') :
    s'.config = s.config := by
  cases h <;> rfl

/-- A request asks for the same as long as there is a renderer. -/
theorem Moves.source?_eq {s s' : Renderer α} {es : List (Event α)} (h : s.Moves es s')
    {r : RequestId} {source : String} (hsource : s.source? r = some source) :
    s'.source? r = some source := by
  cases h with
  | submit source' =>
    obtain ⟨q, hq, rfl⟩ := Option.map_eq_some_iff.mp hsource
    obtain ⟨hlt, -⟩ := List.getElem?_eq_some_iff.mp hq
    rw [source?, Renderer.submit, List.getElem?_append_left hlt, hq]
    rfl
  | stay | hold | release _ | callOff _ => exact hsource
  | _ => exact (source?_setPhase ..).trans hsource

/-- A request is given its turn with the expression of its source. -/
theorem Moves.expression?_of_parsed {s s' : Renderer α} {es : List (Event α)} (h : s.Moves es s')
    {r : RequestId} {e : Expression} (hexpression : s'.expression? r = some e) :
    s.expression? r = some e ∨ ∃ source, s.source? r = some source ∧ parse source = .ok e := by
  have hset {r' : RequestId} {before after : Phase α} (hphase : s.phase? r' = some before)
      (hsome : ((s.setPhase r' after).phase? r).bind Phase.expression? = some e) :
      r = r' ∧ after.expression? = some e ∨ s.expression? r = some e := by
    obtain ⟨p, hp, he⟩ := Option.bind_eq_some_iff.mp hsome
    rcases phase?_of_setPhase hphase hp with ⟨hr, rfl⟩ | ⟨-, hbefore⟩
    · exact .inl ⟨hr, he⟩
    · exact .inr (Option.bind_eq_some_iff.mpr ⟨p, hbefore, he⟩)
  have hkept {r' : RequestId} {before after : Phase α} (hphase : s.phase? r' = some before)
      (hafter : after.expression? = none)
      (hsome : ((s.setPhase r' after).phase? r).bind Phase.expression? = some e) :
      s.expression? r = some e := by
    rcases hset hphase hsome with ⟨-, he⟩ | he
    · rw [hafter] at he
      cases he
    · exact he
  have hparsed {r' : RequestId} {source : String} {e' : Expression} {after : Phase α}
      (hrequest : s.requests[r']? = some ⟨source, .claiming⟩) (hparse : parse source = .ok e')
      (hafter : after.expression? = some e')
      (hsome : ((s.setPhase r' after).phase? r).bind Phase.expression? = some e) :
      s.expression? r = some e ∨ ∃ source, s.source? r = some source ∧ parse source = .ok e := by
    rcases hset (phase?_of_request hrequest) hsome with ⟨rfl, he⟩ | he
    · obtain rfl : e' = e := Option.some.inj (hafter.symm.trans he)
      exact .inr ⟨source, source?_of_request hrequest, hparse⟩
    · exact .inl he
  cases h with
  | submit source =>
    exact .inl ((apply_submit (·.bind Phase.expression?) rfl s source r).symm.trans hexpression)
  | stay | hold | release _ | callOff _ => exact .inl hexpression
  | queue hrequest hfree hparse hlock => exact hparsed hrequest hparse rfl hexpression
  | enter hrequest hfree hparse hlock => exact hparsed hrequest hparse rfl hexpression
  | begin hphase hlock =>
    rcases hset hphase hexpression with ⟨rfl, he⟩ | he
    · exact .inl (Option.bind_eq_some_iff.mpr ⟨_, hphase, he⟩)
    · exact .inl he
  | rouse hphase => exact .inl (hkept hphase rfl hexpression)
  | defer hphase ht => exact .inl (hkept hphase rfl hexpression)
  | refuse hrequest hfree hparse =>
    exact .inl (hkept (phase?_of_request hrequest) rfl hexpression)
  | finish hphase => exact .inl (hkept hphase rfl hexpression)

theorem cancelled_result (s : Renderer α) (t : TicketId) (e : Expression) :
    (s.result t e).walk.ticket.cancelled = (s.tickets.get t).cancelled :=
  Render.cancelled_finish s.config e s.canvas rfl

/-- **A ticket is marked just when it is called off.** -/
theorem Moves.cancelled_iff {s s' : Renderer α} {es : List (Event α)} (h : s.Moves es s')
    (hactive : ∀ t, s.active = some t → t < s.issued) (t : TicketId) :
    (s'.tickets.get t).cancelled = true ↔
      (s.tickets.get t).cancelled = true ∨ ∃ caller, .calledOff t caller ∈ es := by
  have hcancel {t' : TicketId} (caller : Option RequestId) (ht : t' < s.issued) :
      ((s.tickets.update t' Ticket.cancel).get t).cancelled = true ↔
        (s.tickets.get t).cancelled = true ∨
          ∃ c, .calledOff t c ∈ [(.calledOff t' caller : Event α)] := by
    rw [TicketBook.cancelled_cancel ht]
    simp
  cases h with
  | submit | rouse _ | stay | hold | release _ => simp [Renderer.submit, Renderer.setPhase]
  | callOff ht => exact hcancel none (ht.elim id (hactive _))
  | defer hphase ht => exact hcancel _ (hactive _ ht)
  | refuse hrequest hfree hparse => simp [TicketBook.get_issue_fst]
  | queue hrequest hfree hparse hlock => simp [TicketBook.get_issue_fst]
  | enter hrequest hfree hparse hlock =>
    rw [TicketBook.cancelled_update (Ticket.cancelled_setTotal _ _), TicketBook.get_issue_fst]
    simp
  | begin hphase hlock =>
    rw [TicketBook.cancelled_update (Ticket.cancelled_setTotal _ _)]
    simp
  | @finish r t' e hphase =>
    rw [TicketBook.cancelled_update (s.cancelled_result t' e)]
    simp

/-- **A canvas is drawn on only when a request comes to an end** that has it. Otherwise no request
    comes to an end, or one whose source is malformed. -/
theorem Moves.settled_cases {s s' : Renderer α} {es : List (Event α)} (h : s.Moves es s') :
    (s'.canvas = s.canvas ∧ ∀ r t o, .settled r t o ∉ es) ∨
    (∃ r source e, s.requests[r]? = some ⟨source, .claiming⟩ ∧ parse source = .error e ∧
      s'.canvas = s.canvas ∧
      es = [.claimed r s.issued, .settled r s.issued (.error (.malformed e))]) ∨
    ∃ r t e, s.phase? r = some (.drawing t e) ∧ s'.canvas = (s.result t e).surface ∧
      es = [.settled r t (s.result t e).outcome] := by
  cases h with
  | refuse hrequest hfree hparse =>
    exact .inr (.inl ⟨_, _, _, hrequest, hparse, rfl, rfl⟩)
  | finish hphase => exact .inr (.inr ⟨_, _, _, hphase, rfl, rfl⟩)
  | _ => exact .inl ⟨rfl, by simp⟩

end Renderer

/-! ## 3. What a request has to come to -/

namespace Renderer

variable [Coordinate α]

/-- **What is due to a request**: one that is malformed is refused for that, and nobody calls it
    off; one that has been called off comes to nothing else; any other to the verdict on its
    drawing. -/
def Due (config : Config α) (source : String) (calledOff : Prop) (o : Outcome α) : Prop :=
  match parse source with
  | .error e => ¬ calledOff ∧ o = .error (.malformed e)
  | .ok e =>
      calledOff ∧ o = .error .cancelled ∨
        ¬ calledOff ∧ ∃ placed warnings, Draws config e placed warnings ∧
          o = Render.verdict config placed warnings

/-- **The canvas shows the picture** of what the request asks for, and has the size that the request
    has come to. -/
def Shows (config : Config α) (s : Renderer α) (r : RequestId) : Prop :=
  ∃ source e placed warnings, s.source? r = some source ∧ parse source = .ok e ∧
    Draws config e placed warnings ∧ s.canvas = Render.picture config placed ∧
    s.outcome? r = some (.ok ⟨s.canvas.width, s.canvas.height, warnings.map Warning.message⟩)

/-- What a request comes to that has the canvas, and what it leaves there. -/
theorem due_result {s : Renderer α} {t : TicketId} {e : Expression} {source : String}
    {calledOff : Prop} (hparse : parse source = .ok e)
    (hcancelled : (s.tickets.get t).cancelled = true ↔ calledOff) :
    Due s.config source calledOff (s.result t e).outcome ∧
      ((∃ error, (s.result t e).outcome = .error error) ∧ (s.result t e).surface = s.canvas ∨
        ∃ placed warnings, Draws s.config e placed warnings ∧
          (s.result t e).surface = Render.picture s.config placed ∧
          (s.result t e).outcome =
            .ok ⟨(s.result t e).surface.width, (s.result t e).surface.height,
              warnings.map Warning.message⟩) := by
  unfold Due
  rw [hparse]
  by_cases hc : (s.tickets.get t).cancelled = true
  · have hresult : s.result t e = ⟨.error .cancelled, s.canvas, { ticket := s.tickets.get t }⟩ :=
      Render.finish_of_cancelled _ _ _ _ hc
    rw [hresult]
    exact ⟨.inl ⟨hcancelled.mp hc, rfl⟩, .inl ⟨⟨_, rfl⟩, rfl⟩⟩
  · obtain ⟨placed, hdraws⟩ := exists_draws s.config e
    have hresult := Render.finish_on_canvas hdraws s.canvas
      (w := { ticket := s.tickets.get t }) (Bool.eq_false_iff.mpr hc) rfl
    rw [← result] at hresult
    rw [hresult]
    refine ⟨.inr ⟨fun h => hc (hcancelled.mpr h), placed, _, hdraws, rfl⟩, ?_⟩
    by_cases hfinite : (Render.bounds placed).isFinite = true
    · refine .inr ⟨placed, _, hdraws, if_pos hfinite, ?_⟩
      simp [Render.verdict, hfinite]
    · refine .inl ⟨⟨.unbounded (Render.bounds placed), ?_⟩, if_neg hfinite⟩
      simp [Render.verdict, hfinite]

theorem Due.of_calledOff {config : Config α} {source : String} {calledOff : Prop} {o : Outcome α}
    (h : Due config source calledOff o) (hcalled : calledOff) : o = .error .cancelled := by
  unfold Due at h
  split at h
  · exact absurd hcalled h.1
  · rcases h with ⟨-, ho⟩ | ⟨hnot, -⟩
    · exact ho
    · exact absurd hcalled hnot

theorem Due.of_malformed {config : Config α} {source : String} {calledOff : Prop} {o : Outcome α}
    {e : SyntaxError} (h : Due config source calledOff o) (hparse : parse source = .error e) :
    o = .error (.malformed e) := by
  rw [Due, hparse] at h
  exact h.2

theorem Due.of_parsed {config : Config α} {source : String} {calledOff : Prop} {o : Outcome α}
    {e : Expression} (h : Due config source calledOff o) (hparse : parse source = .ok e)
    (hnot : ¬ calledOff) :
    ∃ placed warnings, Draws config e placed warnings ∧
      o = Render.verdict config placed warnings := by
  rw [Due, hparse] at h
  rcases h with ⟨hcalled, -⟩ | ⟨-, hdrawn⟩
  · exact absurd hcalled hnot
  · exact hdrawn

/-- Only a request that goes on comes to an end. -/
theorem eq_resume_of_settled {s : Renderer α} {a : Action} {r : RequestId} {t : TicketId}
    {o : Outcome α} (h : .settled r t o ∈ s.events a) : a = .resume r := by
  cases a with
  | resume r' =>
    have hsame : r' = r := by
      simp only [events] at h
      split at h
      · split at h
        · simp at h
        · obtain ⟨_, hsettled⟩ :=
            eq_settled_of_mem_ending ((List.mem_cons.mp h).resolve_left (by simp))
          exact (Event.settled.inj hsettled).1.symm
      · obtain ⟨_, hsettled⟩ := eq_settled_of_mem_ending h
        exact (Event.settled.inj hsettled).1.symm
      · cases h
    rw [hsame]
  | cancel => cases hactive : s.active <;> simp [events, hactive] at h
  | callOff t' =>
    simp only [events] at h
    split at h <;> simp at h
  | _ => simp [events] at h

end Renderer

/-! ## 4. Histories -/

/-- The request that comes to an end with a picture. -/
def Event.shown? : Event α → Option RequestId
  | .settled r _ (.ok _) => some r
  | .settled _ _ (.error _) | .claimed _ _ | .calledOff _ _ => none

namespace History

/-- **The request that has come to an end with a picture last.** -/
def lastShown? (h : History α) : Option RequestId := (h.log.filterMap Event.shown?).getLast?

variable [Coordinate α]

/-- **What is known of a history.** -/
structure Faithful (config : Config α) (h : History α) : Prop where
  config_eq : h.renderer.config = config
  parsed : ∀ r e, h.renderer.expression? r = some e →
    ∃ source, h.renderer.source? r = some source ∧ parse source = .ok e
  calledOff : ∀ t, (h.renderer.tickets.get t).cancelled = true ↔
    ∃ caller, .calledOff t caller ∈ h.log
  due : ∀ before r t o, before ++ [.settled r t o] <+: h.log →
    .claimed r t ∈ before ∧ ∃ source, h.renderer.source? r = some source ∧
      Renderer.Due config source (∃ caller, .calledOff t caller ∈ before) o
  shown : match h.lastShown? with
    | none => h.renderer.canvas = Canvas.blank
    | some r => h.renderer.Shows config r

theorem Faithful.new (config : Config α) : Faithful config (new config) where
  config_eq := rfl
  parsed := by simp [History.new, Renderer.new, Renderer.expression?, Renderer.phase?]
  calledOff := by simp [History.new, Renderer.new, TicketBook.get]
  due := by simp [History.new]
  shown := rfl

omit [Coordinate α] in
/-- What is noted later, if no request comes to an end. -/
theorem prefix_of_append {log es before : List (Event α)} {r : RequestId} {t : TicketId}
    {o : Outcome α} (hes : ∀ r t o, .settled r t o ∉ es)
    (h : before ++ [.settled r t o] <+: log ++ es) : before ++ [.settled r t o] <+: log := by
  rcases List.prefix_or_prefix_of_prefix h (List.prefix_append log es) with hlog | hlog
  · exact hlog
  · rcases List.prefix_concat_iff.mp hlog with hsame | ⟨between, rfl⟩
    · exact hsame ▸ List.prefix_rfl
    · rw [List.append_assoc, List.prefix_append_right_inj] at h
      exact absurd (h.subset (List.mem_append_right _ (List.mem_singleton_self _))) (hes r t o)

omit [Coordinate α] in
/-- What is noted later, if only the last that is noted is the end of a request. -/
theorem eq_of_upto {log before : List (Event α)} (front : List (Event α)) {r r' : RequestId}
    {t t' : TicketId} {o o' : Outcome α} (hfront : ∀ r t o, .settled r t o ∉ front)
    (h : before ++ [.settled r t o] <+: log ++ (front ++ [.settled r' t' o'])) :
    before ++ [.settled r t o] <+: log ∨ before = log ++ front ∧ r = r' ∧ t = t' ∧ o = o' := by
  rw [← List.append_assoc, List.prefix_concat_iff] at h
  rcases h with hsame | hbefore
  · obtain ⟨hlog, hevent⟩ := List.append_inj' hsame rfl
    exact .inr ⟨hlog, by simpa using hevent⟩
  · exact .inl (prefix_of_append hfront hbefore)

/-- A request shows its picture as long as nobody draws. -/
theorem shows_of_moves {config : Config α} {s s' : Renderer α} {es : List (Event α)}
    {r : RequestId} (hshows : s.Shows config r) (hmoves : s.Moves es s')
    (hcanvas : s'.canvas = s.canvas) : s'.Shows config r := by
  obtain ⟨source, e, placed, warnings, hsource, hparse, hdraws, hpicture, houtcome⟩ := hshows
  refine ⟨source, e, placed, warnings, hmoves.source?_eq hsource, hparse, hdraws,
    hcanvas.trans hpicture, ?_⟩
  rw [hcanvas]
  exact (hmoves.outcome?_iff r _).mpr (.inl houtcome)

/-- The canvas shows what it did before, if nobody draws. -/
theorem Faithful.shown_of_canvas {config : Config α} {h : History α} (hf : Faithful config h)
    {s : Renderer α} {es : List (Event α)} (hmoves : h.renderer.Moves es s)
    (hcanvas : s.canvas = h.renderer.canvas) (hes : es.filterMap Event.shown? = []) :
    match (⟨s, h.log ++ es⟩ : History α).lastShown? with
    | none => s.canvas = Canvas.blank
    | some r => s.Shows config r := by
  have hlast : (⟨s, h.log ++ es⟩ : History α).lastShown? = h.lastShown? := by
    simp only [lastShown?, List.filterMap_append, hes, List.append_nil]
  have hshown := hf.shown
  rw [hlast]
  cases hbefore : h.lastShown? with
  | none =>
    rw [hbefore] at hshown
    exact hcanvas.trans hshown
  | some r =>
    rw [hbefore] at hshown
    exact shows_of_moves hshown hmoves hcanvas

/-- A request that has the canvas draws the expression of its source. -/
theorem Faithful.drawing {config : Config α} {h : History α} (hf : Faithful config h)
    {r : RequestId} {t : TicketId} {e : Expression}
    (hphase : h.renderer.phase? r = some (.drawing t e)) :
    ∃ source, h.renderer.source? r = some source ∧ parse source = .ok e := by
  refine hf.parsed r e ?_
  rw [Renderer.expression?, hphase]
  rfl

/-- Nobody can call a ticket off before it is issued. -/
theorem Faithful.not_calledOff_issued {config : Config α} {h : History α} (hf : Faithful config h)
    (caller : Option RequestId) : .calledOff h.renderer.issued caller ∉ h.log := by
  intro hmem
  have hcancelled := (hf.calledOff h.renderer.issued).mpr ⟨caller, hmem⟩
  rw [Renderer.cancelled_issued] at hcancelled
  cases hcancelled

/-- What a request leaves behind that has the canvas. -/
theorem Faithful.shown_of_drawing {config : Config α} {h : History α} (hf : Faithful config h)
    {r : RequestId} {t : TicketId} {e : Expression} {s : Renderer α}
    (hphase : h.renderer.phase? r = some (.drawing t e))
    (hmoves : h.renderer.Moves [.settled r t (h.renderer.result t e).outcome] s)
    (hcanvas : s.canvas = (h.renderer.result t e).surface) :
    match (⟨s, h.log ++ [.settled r t (h.renderer.result t e).outcome]⟩ : History α).lastShown? with
    | none => s.canvas = Canvas.blank
    | some r => s.Shows config r := by
  obtain ⟨source, hsource, hparse⟩ := hf.drawing hphase
  have hend : s.outcome? r = some (h.renderer.result t e).outcome :=
    (hmoves.outcome?_iff r _).mpr (.inr ⟨t, List.mem_singleton_self _⟩)
  rcases (Renderer.due_result hparse (hf.calledOff t)).2 with
    ⟨⟨error, herror⟩, hkept⟩ | ⟨placed, warnings, hdraws, hpicture, hok⟩
  · refine hf.shown_of_canvas hmoves (hcanvas.trans hkept) ?_
    rw [herror]
    rfl
  · have hlast : (⟨s, h.log ++ [.settled r t (h.renderer.result t e).outcome]⟩ :
        History α).lastShown? = some r := by
      simp [lastShown?, hok, Event.shown?]
    rw [hlast]
    rw [hf.config_eq] at hdraws hpicture
    refine ⟨source, e, placed, warnings, hmoves.source?_eq hsource, hparse, hdraws,
      hcanvas.trans hpicture, ?_⟩
    rw [hend, hok, hcanvas]

/-- **The canvas changes only** when a request goes on that comes to an end with a picture by
    that. -/
theorem Faithful.canvas_perform {config : Config α} {h : History α} (hf : Faithful config h)
    (a : Action) :
    (h.renderer.perform a).canvas = h.renderer.canvas ∨
      ∃ r t output, a = .resume r ∧ h.renderer.events a = [.settled r t (.ok output)] := by
  have hmoves := h.renderer.moves_perform a
  rcases hmoves.settled_cases with ⟨hcanvas, -⟩ | ⟨r, source, e, -, -, hcanvas, -⟩ |
    ⟨r, t, e, hphase, hcanvas, hevents⟩
  · exact .inl hcanvas
  · exact .inl hcanvas
  · obtain ⟨source, -, hparse⟩ := hf.drawing hphase
    rcases (Renderer.due_result hparse (hf.calledOff t)).2 with
      ⟨-, hkept⟩ | ⟨placed, warnings, -, -, hok⟩
    · exact .inl (hcanvas.trans hkept)
    · rw [hok] at hevents
      have hmem : .settled r t (.ok _) ∈ h.renderer.events a :=
        hevents ▸ List.mem_singleton_self _
      exact .inr ⟨r, t, _, Renderer.eq_resume_of_settled hmem, hevents⟩

/-- **Every action keeps what is known.** -/
theorem Faithful.moves {config : Config α} {h : History α} (hf : Faithful config h)
    {turn : Option (RequestId × TicketId)} (ho : h.Orderly turn) {es : List (Event α)}
    {s : Renderer α} (hmoves : h.renderer.Moves es s) : Faithful config ⟨s, h.log ++ es⟩ := by
  have hdue : ∀ before r t o, before ++ [.settled r t o] <+: h.log →
      .claimed r t ∈ before ∧ ∃ source, s.source? r = some source ∧
        Renderer.Due config source (∃ caller, .calledOff t caller ∈ before) o := by
    intro before r t o hupto
    obtain ⟨hclaimed, source, hsource, hdue⟩ := hf.due before r t o hupto
    exact ⟨hclaimed, source, hmoves.source?_eq hsource, hdue⟩
  refine {
    config_eq := hmoves.config_eq.trans hf.config_eq
    parsed := fun r e hexpression => ?_
    calledOff := fun t => ?_
    due := fun before r t o hupto => ?_
    shown := ?_ }
  · rcases hmoves.expression?_of_parsed hexpression with hbefore | ⟨source, hsource, hparse⟩
    · obtain ⟨source, hsource, hparse⟩ := hf.parsed r e hbefore
      exact ⟨source, hmoves.source?_eq hsource, hparse⟩
    · exact ⟨source, hmoves.source?_eq hsource, hparse⟩
  · simp only [List.mem_append, exists_or]
    rw [hmoves.cancelled_iff ho.lt_issued, hf.calledOff]
  · rcases hmoves.settled_cases with ⟨-, hes⟩ | ⟨r', source, e, hrequest, hparse, -, rfl⟩ |
      ⟨r', t', e, hphase, -, rfl⟩
    · exact hdue before r t o (prefix_of_append hes hupto)
    · rcases eq_of_upto [_] (by simp) hupto with hlog | ⟨rfl, rfl, rfl, rfl⟩
      · exact hdue before r t o hlog
      · have hsource := Renderer.source?_of_request hrequest
        refine ⟨by simp, source, hmoves.source?_eq hsource, ?_⟩
        rw [Renderer.Due, hparse]
        refine ⟨?_, rfl⟩
        rintro ⟨caller, hmem⟩
        exact hf.not_calledOff_issued caller (by simpa using hmem)
    · rcases eq_of_upto [] (by simp) hupto with hlog | ⟨rfl, rfl, rfl, rfl⟩
      · exact hdue before r t o hlog
      · obtain ⟨source, hsource, hparse⟩ := hf.drawing hphase
        obtain rfl := (ho.ticket r t).mp (Renderer.ticket?_of_phase? hphase)
        rw [List.append_nil, ← hf.config_eq]
        exact ⟨mem_claims_iff.mp ho.mem_claims, source, hmoves.source?_eq hsource,
          (Renderer.due_result hparse (hf.calledOff t)).1⟩
  · rcases hmoves.settled_cases with ⟨hcanvas, hes⟩ | ⟨r', source, e, -, -, hcanvas, rfl⟩ |
      ⟨r, t, e, hphase, hcanvas, rfl⟩
    · refine hf.shown_of_canvas hmoves hcanvas (List.filterMap_eq_nil_iff.mpr fun event hmem => ?_)
      cases event with
      | settled r t o => exact absurd hmem (hes r t o)
      | _ => rfl
    · exact hf.shown_of_canvas hmoves hcanvas rfl
    · exact hf.shown_of_drawing hphase hmoves hcanvas

theorem faithful (config : Config α) (actions : List Action) :
    Faithful config (ofActions config actions) := by
  refine (invariant (P := fun h => (∃ turn, h.Orderly turn) ∧ Faithful config h)
    ⟨⟨none, .new config⟩, .new config⟩ (fun h a ⟨⟨turn, ho⟩, hf⟩ => ?_) actions).2
  have hmoves := h.renderer.moves_perform a
  exact ⟨ho.moves hmoves, hf.moves ho hmoves⟩

end History

end PatternDiagram
