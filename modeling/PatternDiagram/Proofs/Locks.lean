import PatternDiagram.Proofs.Turns

/-!
# Who gets the canvas

* `Lock.parties`: who has something, and behind him those who wait for it;
* `Renderer.Housed`: the request that has its turn is one of those, and no other request is; a
  request that draws has the canvas;
* `Renderer.Housed.moves`, `History.housed`: every action keeps this, so that every history has it;
* `History.comes_to_an_end`: **a request that has its turn comes to an end** as soon as all others
  who wait for the canvas before it have handed it on and it has gone on twice; nothing else happens
  in between.
-/

namespace PatternDiagram

/-! ## 1. Locks -/

namespace Lock

variable {π : Type}

/-- Who has it, and then who waits for it, the longest first. -/
def parties (l : Lock π) : List π := l.holder.toList ++ l.queue

/-- Nobody waits for what nobody has. -/
def IsFair (l : Lock π) : Prop := l.holder = none → l.queue = []

theorem isFair_acquire (l : Lock π) (p : π) : (l.acquire p).IsFair := by
  intro hnone
  cases hholder : l.holder with
  | none =>
    rw [l.acquire_free p hholder] at hnone
    cases hnone
  | some q =>
    rw [l.acquire_taken p q hholder] at hnone
    cases hnone

theorem isFair_release (l : Lock π) : l.release.IsFair := by
  intro hnone
  rw [holder_release, List.head?_eq_none_iff] at hnone
  rw [release, hnone]

theorem parties_acquire {l : Lock π} (h : l.IsFair) (p : π) :
    (l.acquire p).parties = l.parties ++ [p] := by
  cases hholder : l.holder with
  | none => simp [parties, acquire, hholder, h hholder]
  | some q => simp [parties, l.acquire_taken p q hholder, hholder]

theorem parties_release {l : Lock π} (h : l.IsFair) : l.release.parties = l.parties.tail := by
  cases hholder : l.holder with
  | none => simp [parties, release, hholder, h hholder]
  | some q =>
    unfold release parties
    cases l.queue <;> simp [hholder]

theorem head?_parties {l : Lock π} (h : l.IsFair) : l.parties.head? = l.holder := by
  cases hholder : l.holder with
  | none => simp [parties, hholder, h hholder]
  | some q => simp [parties, hholder]

end Lock

/-! ## 2. The canvas and the turn -/

namespace Renderer

variable {α : Type}

/-- **Those who have the canvas or wait for it**: the request that has its turn is one of them,
    once, and no other request is. A request that draws has the canvas. -/
structure Housed (s : Renderer α) : Prop where
  fair : s.lock.IsFair
  turn : ∀ r, .request r ∈ s.lock.parties ↔ (s.ticket? r).isSome = true
  once : s.lock.parties.Pairwise fun p q => p = .outside ∨ p ≠ q
  drawing : ∀ r t e, s.phase? r = some (.drawing t e) → s.lock.holder = some (.request r)

theorem Housed.new [Coordinate α] (config : Config α) : (new config).Housed where
  fair := fun _ => rfl
  turn := by simp [Renderer.new, Renderer.ticket?, Renderer.phase?, Lock.parties]
  once := by simp [Renderer.new, Lock.parties]
  drawing := by simp [Renderer.new, Renderer.phase?]

/-- What has nothing to do with the canvas. -/
theorem Housed.keep {s s' : Renderer α} (h : s.Housed) (hlock : s'.lock = s.lock)
    (hticket : ∀ r, s'.ticket? r = s.ticket? r)
    (hdrawing : ∀ r t e, s'.phase? r = some (.drawing t e) →
      s.phase? r = some (.drawing t e) ∨ s.lock.holder = some (.request r)) : s'.Housed where
  fair := by rw [hlock]; exact h.fair
  turn := fun r => by rw [hlock, hticket, h.turn]
  once := by rw [hlock]; exact h.once
  drawing := by
    intro r t e hphase
    rw [hlock]
    exact (hdrawing r t e hphase).elim (h.drawing r t e) id

/-- Someone comes for the canvas. If it is a request, it has just been given its turn. -/
theorem Housed.join {s s' : Renderer α} {p : Holder} (h : s.Housed)
    (hlock : s'.lock = s.lock.acquire p) (hfresh : ∀ r, p = .request r → s.ticket? r = none)
    (hticket : ∀ r, (s'.ticket? r).isSome = true ↔ (s.ticket? r).isSome = true ∨ p = .request r)
    (hdrawing : ∀ r t e, s'.phase? r = some (.drawing t e) →
      s.phase? r = some (.drawing t e) ∨ s'.lock.holder = some (.request r)) : s'.Housed := by
  have hparties : s'.lock.parties = s.lock.parties ++ [p] := by
    rw [hlock, Lock.parties_acquire h.fair]
  exact {
    fair := by rw [hlock]; exact s.lock.isFair_acquire p
    turn := by
      intro r
      rw [hparties, List.mem_append, h.turn, hticket, List.mem_singleton, eq_comm (a := p)]
    once := by
      rw [hparties, List.pairwise_append]
      refine ⟨h.once, List.pairwise_singleton _ _, fun q hq p' hp' => ?_⟩
      obtain rfl := List.mem_singleton.mp hp'
      cases q with
      | outside => exact .inl rfl
      | request r =>
        refine .inr fun hsame => ?_
        have hsome := (h.turn r).mp hq
        rw [hfresh r hsame.symm] at hsome
        cases hsome
    drawing := by
      intro r t e hphase
      rcases hdrawing r t e hphase with hbefore | hholder
      · -- The one who has the canvas keeps it.
        have hholder := h.drawing r t e hbefore
        rw [hlock, s.lock.acquire_taken _ _ hholder]
      · exact hholder }

/-- Whoever has the canvas hands it on. If it is a request, its turn is over. -/
theorem Housed.handOn {s s' : Renderer α} {p : Holder} (h : s.Housed)
    (hholder : s.lock.holder = some p) (hlock : s'.lock = s.lock.release)
    (hticket : ∀ r, (s'.ticket? r).isSome = true ↔ p ≠ .request r ∧ (s.ticket? r).isSome = true)
    (hdrawing : ∀ r t e, s'.phase? r = some (.drawing t e) →
      p ≠ .request r ∧ s.phase? r = some (.drawing t e)) : s'.Housed := by
  have hparties : s.lock.parties = p :: s.lock.queue := by rw [Lock.parties, hholder]; rfl
  have hrest : s'.lock.parties = s.lock.queue := by
    rw [hlock, Lock.parties_release h.fair, hparties, List.tail_cons]
  have honce := h.once
  rw [hparties, List.pairwise_cons] at honce
  exact {
    fair := by rw [hlock]; exact s.lock.isFair_release
    turn := by
      intro r
      rw [hrest, hticket, ← h.turn, hparties, List.mem_cons]
      constructor
      · intro hmem
        refine ⟨fun hp => ?_, .inr hmem⟩
        rcases honce.1 _ hmem with houtside | hne
        · rw [hp] at houtside
          cases houtside
        · exact hne hp
      · rintro ⟨hne, hmem⟩
        exact hmem.resolve_left hne.symm
    once := by
      rw [hrest]
      exact honce.2
    drawing := by
      intro r t e hphase
      obtain ⟨hne, hbefore⟩ := hdrawing r t e hphase
      rw [h.drawing r t e hbefore] at hholder
      exact absurd (Option.some.inj hholder).symm hne }

/-- A request gets further that neither has the canvas nor comes for it. -/
theorem Housed.setPhase {s s' : Renderer α} {r : RequestId} {before : Phase α} (h : s.Housed)
    (hphase : s.phase? r = some before) (after : Phase α) (hafter : ∀ t e, after ≠ .drawing t e)
    (hticket : after.ticket? = before.ticket?) (hlock : s'.lock = s.lock)
    (hrequests : ∀ r', s'.phase? r' = (s.setPhase r after).phase? r') : s'.Housed := by
  refine h.keep hlock (fun r' => ?_) fun r' t e hdrawing => ?_
  · rw [← ticket?_setPhase_of_eq hphase hticket r', ticket?, ticket?, hrequests]
  · rw [hrequests] at hdrawing
    rcases phase?_of_setPhase hphase hdrawing with ⟨-, hsame⟩ | ⟨-, hbefore⟩
    · exact absurd hsame (hafter t e)
    · exact .inl hbefore

/-- A request comes for the canvas that has just been given its turn. -/
theorem Housed.enter {s s' : Renderer α} {r : RequestId} {before after : Phase α} {t : TicketId}
    (h : s.Housed) (hphase : s.phase? r = some before) (hbefore : before.ticket? = none)
    (hticket : after.ticket? = some t) (hlock : s'.lock = s.lock.acquire (.request r))
    (hdrawing : ∀ t e, after = .drawing t e → s'.lock.holder = some (.request r))
    (hrequests : ∀ r', s'.phase? r' = (s.setPhase r after).phase? r') : s'.Housed := by
  have hfresh : s.ticket? r = none := (ticket?_of_phase? hphase).trans hbefore
  refine h.join hlock (fun r' hr => ?_) (fun r' => ?_) fun r' t' e hafter => ?_
  · obtain rfl := Holder.request.inj hr
    exact hfresh
  · have hset : s'.ticket? r' = (s.setPhase r after).ticket? r' := by
      rw [ticket?, ticket?, hrequests]
    rw [hset, ticket?_setPhase hphase, hticket]
    by_cases hr : r' = r
    · simp [hr]
    · simp [hr, Ne.symm hr]
  · rw [hrequests] at hafter
    rcases phase?_of_setPhase hphase hafter with ⟨rfl, hsame⟩ | ⟨-, hold⟩
    · exact .inr (hdrawing t' e hsame)
    · exact .inl hold

variable [Coordinate α]

/-- **Every action keeps the canvas with the turn.** -/
theorem Housed.moves {s s' : Renderer α} {es : List (Event α)} (h : s.Housed)
    (hmoves : s.Moves es s') : s'.Housed := by
  cases hmoves with
  | submit source =>
    refine h.keep rfl (apply_submit (·.bind Phase.ticket?) rfl s source) fun r t e hphase => ?_
    rcases s.phase?_submit source r with hsame | ⟨-, hnew⟩
    · exact .inl (hsame ▸ hphase)
    · rw [hnew] at hphase
      cases hphase
  | rouse hphase => exact h.setPhase hphase .claiming (by simp) rfl rfl fun _ => rfl
  | stay => exact h
  | hold =>
    exact h.join rfl (by simp) (by simp [Renderer.ticket?, Renderer.phase?]) fun r t e => .inl
  | release hlock =>
    exact h.handOn hlock rfl (by simp [Renderer.ticket?, Renderer.phase?])
      fun r t e hphase => ⟨by simp, hphase⟩
  | callOff ht => exact h.keep rfl (fun _ => rfl) fun r t e => .inl
  | defer hphase ht => exact h.setPhase hphase .asleep (by simp) rfl rfl fun _ => rfl
  | refuse hrequest hfree hparse =>
    exact h.setPhase (phase?_of_request hrequest) (.settled _) (by simp) rfl rfl fun _ => rfl
  | queue hrequest hfree hparse hlock =>
    exact h.enter (phase?_of_request hrequest) rfl rfl rfl (by simp) fun _ => rfl
  | enter hrequest hfree hparse hlock =>
    exact h.enter (phase?_of_request hrequest) rfl rfl rfl (fun _ _ _ => hlock) fun _ => rfl
  | @begin r t e hphase hlock =>
    refine h.keep rfl (ticket?_setPhase_of_eq hphase rfl) fun r' t' e' hafter => ?_
    rcases phase?_of_setPhase hphase hafter with ⟨rfl, -⟩ | ⟨-, hbefore⟩
    · exact .inr hlock
    · exact .inl hbefore
  | @finish r t e hphase =>
    refine h.handOn (h.drawing r t e hphase) rfl (fun r' => ?_) fun r' t' e' hafter => ?_
    · show ((s.setPhase r (.settled (s.result t e).outcome)).ticket? r').isSome = true ↔ _
      rw [ticket?_setPhase hphase]
      by_cases hr : r' = r
      · simp [hr, Phase.ticket?]
      · simp [hr, Ne.symm hr]
    · rcases phase?_of_setPhase hphase hafter with ⟨-, hsame⟩ | ⟨hne, hbefore⟩
      · cases hsame
      · exact ⟨fun hr => hne (Holder.request.inj hr), hbefore⟩

/-! ## 3. The end of a turn -/

/-- A request that is given the canvas draws. -/
theorem drawing_of_queued {s : Renderer α} {r : RequestId} {t : TicketId} {e : Expression}
    (hphase : s.phase? r = some (.queued t e)) (hlock : s.lock.holder = some (.request r)) :
    (s.perform (.resume r)).phase? r = some (.drawing t e) ∧ s.events (.resume r) = [] := by
  obtain ⟨q, hrequest, hq⟩ := Option.map_eq_some_iff.mp hphase
  have hresume : s.resume r = s.beginDrawing r t e := by
    simp only [resume, hrequest, hq, hlock, if_true]
  refine ⟨?_, by simp only [events, hphase]⟩
  rw [perform, hresume]
  exact (phase?_setPhase hphase _ r).trans (if_pos rfl)

/-- A request that has come to an end does nothing any more. -/
theorem events_of_settled {s : Renderer α} {r : RequestId} {o : Outcome α}
    (hend : s.outcome? r = some o) : s.events (.resume r) = [] := by
  rw [outcome?_eq_bind] at hend
  obtain ⟨p, hphase, hp⟩ := Option.bind_eq_some_iff.mp hend
  cases p with
  | settled o' => simp only [events, hphase]
  | _ => cases hp

end Renderer

namespace History

variable {α : Type} [Coordinate α]

theorem housed (config : Config α) (actions : List Action) :
    (ofActions config actions).renderer.Housed :=
  invariant (P := fun h => h.renderer.Housed) (.new config)
    (fun h a hh => hh.moves (h.renderer.moves_perform a)) actions

theorem ofActions_append (config : Config α) (actions more : List Action) :
    ofActions config (actions ++ more) = more.foldl extend (ofActions config actions) :=
  List.foldl_append

theorem renderer_ofActions_append (config : Config α) (actions more : List Action) :
    (ofActions config (actions ++ more)).renderer =
      more.foldl Renderer.perform (ofActions config actions).renderer := by
  rw [ofActions_append]
  exact (List.foldl_hom History.renderer fun _ _ => rfl).symm

omit [Coordinate α] in
/-- Only others come for the canvas before the request that has its turn, as no other request has
    one. -/
theorem exists_front {h : History α} {turn : Option (RequestId × TicketId)}
    (hh : h.renderer.Housed) (ho : h.Orderly turn) {r : RequestId} {t : TicketId}
    (hturn : h.renderer.ticket? r = some t) :
    ∃ front back, h.renderer.lock.parties = front ++ .request r :: back ∧
      ∀ p ∈ front, p = .outside := by
  have hmem := (hh.turn r).mpr (by rw [hturn]; rfl)
  obtain ⟨front, back, hparties, hfront⟩ := List.eq_append_cons_of_mem hmem
  refine ⟨front, back, hparties, fun p hp => ?_⟩
  cases p with
  | outside => rfl
  | request r' =>
    have hother : .request r' ∈ h.renderer.lock.parties := by
      rw [hparties]
      exact List.mem_append_left _ hp
    obtain ⟨t', ht'⟩ := Option.isSome_iff_exists.mp ((hh.turn r').mp hother)
    have hboth := ((ho.ticket r t).mp hturn).symm.trans ((ho.ticket r' t').mp ht')
    obtain rfl : r = r' := congrArg Prod.fst (Option.some.inj hboth)
    exact absurd hp hfront

/-- Those who have the canvas before a request hand it on, one after the other. -/
theorem holder_of_releases {h : History α} {r : RequestId} {front back : List Holder}
    (hfair : h.renderer.lock.IsFair)
    (hparties : h.renderer.lock.parties = front ++ .request r :: back)
    (hfront : ∀ p ∈ front, p = .outside) :
    let h' := (List.replicate front.length .release).foldl extend h
    h'.renderer.lock.holder = some (.request r) ∧
      h'.renderer.phase? r = h.renderer.phase? r ∧ h'.log = h.log := by
  have hhead := Lock.head?_parties hfair
  induction front generalizing h with
  | nil =>
    rw [hparties] at hhead
    exact ⟨hhead.symm, rfl, rfl⟩
  | cons p front ih =>
    obtain ⟨rfl, houtside⟩ := List.forall_mem_cons.mp hfront
    rw [hparties] at hhead
    have hholder : h.renderer.lock.holder = some .outside := hhead.symm
    have hextend : h.extend .release =
        ⟨{ h.renderer with lock := h.renderer.lock.release }, h.log⟩ := by
      rw [extend, Renderer.perform, Renderer.release, if_pos hholder, Renderer.events,
        List.append_nil]
    have hrest : h.renderer.lock.release.parties = front ++ .request r :: back := by
      rw [Lock.parties_release hfair, hparties, List.cons_append, List.tail_cons]
    have hfair' := h.renderer.lock.isFair_release
    have hnext := ih (h := ⟨{ h.renderer with lock := h.renderer.lock.release }, h.log⟩)
      hfair' hrest houtside (Lock.head?_parties hfair')
    rw [List.length_cons, List.replicate_succ, List.foldl_cons, hextend]
    exact hnext

/-- A request that draws comes to an end when it goes on, and goes on no further. -/
theorem log_of_drawing {h : History α} {r : RequestId} {t : TicketId} {e : Expression}
    (hphase : h.renderer.phase? r = some (.drawing t e)) :
    (h.extend (.resume r)).log = h.log ++ [.settled r t (h.renderer.result t e).outcome] ∧
      ((h.extend (.resume r)).extend (.resume r)).log = (h.extend (.resume r)).log := by
  have hevents := (Renderer.resume_of_drawing hphase).2
  have hmoves := h.renderer.moves_perform (.resume r)
  rw [hevents] at hmoves
  have hend := (hmoves.outcome?_iff r _).mpr (.inr ⟨t, List.mem_singleton_self _⟩)
  constructor
  · rw [extend, hevents]
  · show (h.extend (.resume r)).log ++ (h.renderer.perform (.resume r)).events (.resume r) = _
    rw [Renderer.events_of_settled hend, List.append_nil]

/-- **A request that has its turn comes to an end**: once so many others have handed the canvas on,
    it goes on twice at most. Nothing else happens until then. -/
theorem comes_to_an_end (config : Config α) (actions : List Action) (r : RequestId) (t : TicketId)
    (hturn : (ofActions config actions).renderer.ticket? r = some t) :
    ∃ n o, (ofActions config
      (actions ++ (List.replicate n .release ++ [.resume r, .resume r]))).log =
        (ofActions config actions).log ++ [.settled r t o] := by
  have hh := housed config actions
  obtain ⟨turn, ho⟩ := orderly config actions
  simp only [ofActions_append, List.foldl_append, List.foldl_cons, List.foldl_nil]
  obtain ⟨p, hphase, hp⟩ := Option.bind_eq_some_iff.mp hturn
  cases p with
  | queued t' e =>
    obtain rfl : t' = t := Option.some.inj hp
    obtain ⟨front, back, hparties, houtside⟩ := exists_front hh ho hturn
    obtain ⟨hholder, hsame, hlog⟩ := holder_of_releases hh.fair hparties houtside
    refine ⟨front.length, ?_⟩
    generalize (List.replicate front.length Action.release).foldl extend
      (ofActions config actions) = h at hholder hsame hlog ⊢
    obtain ⟨hdrawing, hquiet⟩ := Renderer.drawing_of_queued (hsame.trans hphase) hholder
    have hbegun : (h.extend (.resume r)).log = (ofActions config actions).log := by
      rw [extend, hquiet, List.append_nil, hlog]
    rw [← hbegun]
    exact ⟨_, (log_of_drawing hdrawing).1⟩
  | drawing t' e =>
    obtain rfl : t' = t := Option.some.inj hp
    obtain ⟨hend, hafter⟩ := log_of_drawing hphase
    exact ⟨0, _, hafter.trans hend⟩
  | _ => cases hp

end History

end PatternDiagram
