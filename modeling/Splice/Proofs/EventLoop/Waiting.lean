import Splice.Proofs.EventLoop.Handover
import Splice.Proofs.EventLoop.Serving

/-!
# What a loop waits for

A loop that still listens waits for its handles. One that no longer does has reset the connection, so that its
bridge is winding down: output is left that can be written, to the socket or once the connect completes.
-/

namespace Splice

namespace Bridge

variable {σ : Type} {b c : Bridge σ} {s s' : Stream} {event : Event}

def Unwritten (b : Bridge σ) : Prop := ∀ s, b.stream = some s → s.writes = false

theorem Unwritten.of_open (hs : b.stream = some s) (hw : s.writes = false) : b.Unwritten := by
  intro t ht
  obtain rfl : s = t := Option.some.inj (hs.symm.trans ht)
  exact hw

theorem Unwritten.of_closed (hs : b.stream = none) : b.Unwritten := by
  intro t ht
  cases hs.symm.trans ht

theorem Unwritten.drop (h : b.Unwritten) : b.drop.Unwritten := by
  unfold Unwritten
  rw [drop_stream]
  exact h

theorem Rests.releasePeer {ended noMore : Prop} (h : b.Rests ended noMore) : b.releasePeer.Rests ended noMore := by
  rw [releasePeer_eq]
  cases h with
  | waiting ha hs w => exact .waiting ha hs (w.of_le rfl (List.subset_append_right _ _) id id)
  | winding ha hs hsound henabled hi ho => exact .winding ha hs hsound henabled hi ho
  | finished hf => exact .finished hf

variable [Sender σ]

theorem Deed.unwritten (d : Deed event b c) (ht : b.Sound) (h : b.Unwritten) : c.Unwritten := by
  cases d with
  | @send s _ hs _ =>
    have hw : s.writes = false := h s hs
    exact .of_open rfl hw
  | tell _ hs _ => exact .of_open hs (h _ hs)
  | suspend _ _ => exact h
  | announce _ _ =>
    rw [connected_eq]
    exact h
  | @receive data ha _ =>
    obtain ⟨s, hs⟩ := ht.stream_of_attached ha
    rw [queueOutput_of_not_writes data hs (h s hs)]
    exact h
  | endOutput _ _ hs _ hw => cases hw.symm.trans (h _ hs)
  | adjust hs adjusts => exact .of_open rfl (adjusts.narrows.writes (h _ hs))
  | closeConnection ha hs => exact .of_open (closeConnection_stream b ▸ hs) (h _ hs)
  | closeStream ha hs hi ho he =>
    rw [closeStream_conclude ha hs hi ho he]
    exact .of_closed rfl

theorem Unwritten.react (h : b.Unwritten) (ht : b.Tidy) (event : Event) : (b.react event).1.Unwritten :=
  ht.react_preserves event (fun hc d => d.unwritten hc.toSound) id h

theorem onConnection_error (hf : b.finished = false) (ha : b.attached = true) (fault : ConnectionFault) :
    b.onConnection (.error fault) = b.closeConnection.windDownStream := by
  unfold onConnection
  rw [if_neg (by simp [hf]), if_neg (by simp [ha])]

theorem reset_detaches (ht : b.Tidy) (fault : ConnectionFault) : (b.onConnection (.error fault)).1.attached = false := by
  cases ha : b.attached with
  | false => exact (ht.react_ahead (.connection (.error fault))).detached ha
  | true =>
    obtain ⟨s, hs⟩ := ht.stream_of_attached ha
    have hf := ht.finished_of_open hs
    rw [onConnection_error hf ha]
    have reacts : Reacts (.connection (.error fault)) b.closeConnection b.closeConnection.windDownStream :=
      windDownStream_reacts (s := s) (by simpa using hf) (closeConnection_attached b) (by simpa using hs)
    exact reacts.deeds.detached (closeConnection_attached b)

end Bridge

namespace EventLoop

open Bridge

variable {σ κ : Type} [Sender σ] {b c : Bridge σ} {s : Stream} {ts : List Task}

/-! ## What a batch leaves -/

theorem rests_events (h : b.Rests False False) (ht : b.Tidy) (hts : ∀ t ∈ ts, t.toConnection = true) :
    (carryOut b ts).1.Rests False False := by
  induction ts generalizing b with
  | nil => exact h
  | cons t ts ih =>
    obtain ⟨event, delivers⟩ : ∃ event, t.on b = b.onConnection event := by
      have := hts t List.mem_cons_self
      cases t with
      | hand event => exact ⟨event, rfl⟩
      | reset => exact ⟨.error .reset, rfl⟩
      | report | serve | drop => cases this
    have next : (b.onConnection event).1.Rests False False := (h.connection ht event).of_le False.elim id
    unfold carryOut
    rw [delivers]
    split
    · exact next
    · exact ih next (ht.react (.connection event)) fun u hu => hts u (List.mem_cons_of_mem _ hu)

theorem unwritten_events (h : b.Unwritten) (ht : b.Tidy) (hts : ∀ t ∈ ts, t.event?.isSome = true) :
    (carryOut b ts).1.Unwritten := by
  induction ts generalizing b with
  | nil => exact h
  | cons t ts ih =>
    obtain ⟨e, he⟩ := Option.isSome_iff_exists.mp (hts t List.mem_cons_self)
    unfold carryOut
    rw [Task.on_event he]
    split
    · exact h.react ht e
    · exact ih (h.react ht e) (ht.react e) fun u hu => hts u (List.mem_cons_of_mem _ hu)

theorem unwritten_planned (h : b.Unwritten) (ht : b.Tidy) (hplan : Planned b ts) : (carryOut b ts).1.Unwritten := by
  cases hplan with
  | deliver hts => exact unwritten_events h ht hts
  | serve hs narrows hts =>
    rw [carryOut_serve]
    exact unwritten_events (.of_open rfl (narrows.writes (h _ hs))) (ht.keep hs _) hts

/-! ## Turns -/

variable [Socket κ] {l m : EventLoop σ κ}

theorem rests_acted (act : Act) {e : StreamEvent} (h : b.Rests False False) (ht : b.Tidy) (hs : b.stream = some s)
    (hon : act.on? s = some (s', some e)) : (carryOut (b.keep s') [.report e]).1.Rests False False := by
  rw [carryOut_singleton]
  exact (h.acted ht (.reported hs hon)).of_le id False.elim

theorem plan_rests (h : l.whole.Rests False False) (ht : l.whole.Tidy) (turn : Turn κ) :
    (carryOut l.whole (l.plan turn)).1.Rests False False := by
  cases turn with
  | events =>
    refine rests_events h ht fun t hmem => ?_
    unfold plan at hmem
    dsimp only at hmem
    split at hmem
    · split at hmem
      · rw [List.mem_singleton.mp hmem]
        rfl
      · cases hmem
    · obtain ⟨event, -, rfl⟩ := List.mem_map.mp hmem
      rfl
  | connected | connectFailed =>
    unfold plan
    dsimp only
    cases hb : l.buffered? with
    | none =>
      -- Without a stream the bridge has finished already.
      have hnone : l.whole.stream = none := Option.map_eq_none_iff.mp hb
      have late : l.whole.finished = true := by
        cases h with
        | waiting _ hs | winding _ hs => cases hs.symm.trans hnone
        | finished hf => exact hf
      rw [carryOut_singleton, show (Task.report .connected).on l.whole = _ from react_late late (.stream .connected)]
      exact .finished late
    | some b =>
      have hs : l.whole.stream = some b.stream := buffered_stream hb
      unfold serving
      rw [carryOut_serve]
      first
      | exact rests_acted .connect h ht hs rfl
      | exact rests_acted .failAll h ht hs (congrArg (fun s => some (s, _)) b.stream.withdraw_both)
  | ready ready =>
    unfold plan
    cases hb : l.buffered? with
    | none => exact h
    | some b =>
      have hs : l.whole.stream = some b.stream := buffered_stream hb
      simp only [Option.map_some, Option.getD_some, serving, carryOut_serve]
      exact rests_served (b.serve_serves ready) h ht hs
  | watchFailed =>
    unfold plan
    cases hb : l.buffered? with
    | none => exact h
    | some b =>
      have hs : l.whole.stream = some b.stream := buffered_stream hb
      simp only [Option.map_some, Option.getD_some, serving, carryOut_serve]
      exact rests_acted .failAll h ht hs (congrArg (fun s => some (s, _)) b.stream.withdraw_both)

omit [Socket κ] in
theorem CarriesOut.preserves {P : Bridge σ → Prop} (carried : CarriesOut l ts m) (drop : ∀ {c}, P c → P c.drop)
    (h : P (carryOut l.whole ts).1) : P m.whole := by
  rw [carried.whole, replay_carriedOut]
  split
  · exact drop h
  · exact h

omit [Socket κ] in
theorem Chore.detached (chore : Chore b c) (h : b.Tidy ∧ b.attached = false) : c.Tidy ∧ c.attached = false := by
  cases chore with
  | deliver event => exact ⟨h.1.react event, (h.1.react_ahead event).detached h.2⟩
  | serve hs _ => exact ⟨h.1.keep hs _, h.2⟩
  | drop => exact ⟨h.1.releasePeer, (drop_attached b).trans h.2⟩

theorem take_unwritten (h : l.whole.Unwritten) (ht : l.whole.Tidy) (hopen : l.ended = false) (turn : Turn κ) :
    (l.take turn).whole.Unwritten :=
  (take_carriesOut hopen turn).preserves (fun h => h.drop) (unwritten_planned h ht (l.plan_planned turn))

omit [Sender σ] in
theorem absorb_isSome (l : EventLoop σ κ) (reaction : Bridge σ × Status) :
    (l.absorb reaction).socket.isSome = l.socket.isSome := Option.isSome_map

theorem absorbStream_socket (l : EventLoop σ κ) (result : Buffered κ × List StreamEvent) :
    (l.absorbStream result).socket.isSome = result.1.socket.isSome := Option.isSome_map

omit [Sender σ] in
theorem serve_socket (b : Buffered κ) (ready : Readiness) : (b.serve ready).1.socket.isSome = b.socket.isSome := by
  refine serve_preserves (P := fun c => c.socket.isSome = b.socket.isSome) ready ?_ ?_ rfl
  · intro c _ h
    rw [attemptRead_socket, Option.isSome_map, h]
  · intro c h
    rw [attemptWrite_socket, Option.isSome_map, h]

theorem take_socket {turn : Turn κ} (hfails : turn ≠ .connectFailed) (hconnects : ∀ socket, turn ≠ .connected socket) :
    (l.take turn).socket.isSome = l.socket.isSome ∧ (l.take turn).connecting = l.connecting := by
  cases turn with
  | connected socket => exact absurd rfl (hconnects socket)
  | connectFailed => exact absurd rfl hfails
  | events =>
    unfold take takeEvents
    dsimp only
    split
    · split
      · exact ⟨absorb_isSome _ _, rfl⟩
      · exact ⟨rfl, rfl⟩
    · exact ⟨absorb_isSome _ _, rfl⟩
  | ready ready =>
    unfold take
    dsimp only
    split
    · exact ⟨rfl, rfl⟩
    · next b hb =>
      refine ⟨(absorbStream_socket _ _).trans ?_, rfl⟩
      rw [← buffered_socket hb]
      exact serve_socket b ready
  | watchFailed =>
    unfold take
    dsimp only
    split
    · exact ⟨rfl, rfl⟩
    · next b hb =>
      refine ⟨(absorbStream_socket _ _).trans ?_, rfl⟩
      rw [← buffered_socket hb]
      rfl

/-- How a loop stands between turns: at rest, with something to write to if it still writes, and parted from its
connection if it no longer listens. -/
structure Poised (l : EventLoop σ κ) : Prop where
  rests : l.whole.Rests False False
  wired : l.socket.isSome = true ∨ l.connecting = true ∨ l.whole.Unwritten
  parted : l.listening = false → l.whole.attached = false

namespace Poised

theorem take_wired (h : Poised l) (ht : l.whole.Tidy) (hopen : l.ended = false) (turn : Turn κ) :
    (l.take turn).socket.isSome = true ∨ (l.take turn).connecting = true ∨ (l.take turn).whole.Unwritten := by
  by_cases hconnects : ∃ socket, turn = .connected socket
  · obtain ⟨socket, rfl⟩ := hconnects
    cases hs : l.bridge.stream with
    | none => exact .inr (.inr (take_unwritten (.of_closed hs) ht hopen _))
    | some s =>
      left
      unfold EventLoop.take takeConnected
      simp only [buffered?, hs, Option.map_some]
      exact absorbStream_socket _ _
  · by_cases hfails : turn = .connectFailed
    · -- There is no socket to write to, but nothing is enabled any more either.
      subst hfails
      right; right
      cases hs : l.bridge.stream with
      | none => exact take_unwritten (.of_closed hs) ht hopen _
      | some s =>
        have carried := take_carriesOut hopen .connectFailed
        simp only [plan, buffered?, hs, Option.map_some, serving] at carried
        refine carried.preserves (fun h => h.drop) ?_
        rw [carryOut_serve]
        exact unwritten_events (.of_open rfl rfl) (ht.keep hs _) (by simp [Task.event?])
    · obtain ⟨hsocket, hconnecting⟩ := take_socket hfails (not_exists.mp hconnects) (l := l)
      rw [hsocket, hconnecting]
      exact h.wired.imp_right (Or.imp_right fun hw => take_unwritten hw ht hopen turn)

theorem take_parted (h : Poised l) (ht : l.whole.Tidy) (hopen : l.ended = false) (turn : Turn κ)
    (hdeaf : (l.take turn).listening = false) : (l.take turn).whole.attached = false := by
  cases ha : l.bridge.attached with
  | false =>
    have kept := (take_chores l turn).preserves (P := fun b => b.Tidy ∧ b.attached = false) Chore.detached ⟨ht, ha⟩
    exact kept.2
  | true =>
    have hlistening : l.listening = true := by
      by_contra hno
      cases ha.symm.trans (h.parted (by simpa using hno))
    -- Only the turn that finds neither an event nor a handle stops listening, and it resets the connection.
    have hturn : turn = .events := by
      by_contra hne
      cases hlistening.symm.trans ((take_frame l hne).2.symm.trans hdeaf)
    subst hturn
    have hqueue : l.queue.isEmpty = true := by
      by_contra hno
      unfold EventLoop.take takeEvents at hdeaf
      rw [if_neg hno] at hdeaf
      cases hlistening.symm.trans hdeaf
    have carried := take_carriesOut hopen .events
    simp only [plan, hqueue, ha, if_true] at carried
    refine carried.preserves (P := fun b => b.attached = false) (fun {c} h => c.drop_attached.trans h) ?_
    rw [carryOut_singleton]
    exact reset_detaches ht .reset

theorem take (h : Poised l) (ht : l.whole.Tidy) (hopen : l.ended = false) (turn : Turn κ) : Poised (l.take turn) :=
  ⟨(take_carriesOut hopen turn).preserves (fun h => h.releasePeer) (plan_rests h.rests ht turn),
    h.take_wired ht hopen turn, h.take_parted ht hopen turn⟩

theorem step (h : Poised l) (ht : l.whole.Tidy) (s : Step κ) : Poised (l.step s) := by
  cases s with
  | post event =>
    rw [step_post]
    split
    · exact h
    · exact ⟨h.rests, h.wired, h.parted⟩
  | dropHandles => exact ⟨h.rests, h.wired, h.parted⟩
  | outside change =>
    refine ⟨h.rests, ?_, h.parted⟩
    unfold EventLoop.step
    rw [Option.isSome_map]
    exact h.wired
  | take turn =>
    unfold EventLoop.step
    dsimp only
    split
    · next hcan =>
      exact h.take ht (open_of_possible hcan) turn
    · exact h

end Poised

theorem unharmed_run (sender : σ) (config : Config) (socket : Option κ) (peer : Option PeerId)
    (steps : List (Step κ)) :
    let l := (launchHolding sender config socket peer).run steps
    l.whole.Tidy ∧ (l.whole.finished = true ↔ l.ended = true) := by
  intro l
  have logged : Logged _ _ l := Logged.run (l := launchHolding sender config socket peer) rfl steps
  obtain ⟨unharmed, ends⟩ := logged.unharmed (unharmed_launch sender config socket peer) rfl
  exact ⟨unharmed.tidy, ends⟩

theorem poised_run (sender : σ) (config : Config) (socket : Option κ) (peer : Option PeerId)
    (steps : List (Step κ)) : Poised ((launchHolding sender config socket peer).run steps) := by
  induction steps using List.reverseRecOn with
  | nil =>
    refine ⟨.waiting rfl rfl (waits_of_sound rfl fun h => absurd rfl h), ?_, nofun⟩
    cases socket with
    | none => exact .inr (.inl rfl)
    | some socket => exact .inl rfl
  | append_singleton steps s ih =>
    rw [run_snoc]
    exact ih.step (unharmed_run sender config socket peer steps).1 s

/-! ## The last handle -/

omit [Sender σ] [Socket κ] in
theorem Poised.winding (h : Poised l) (hopen : l.whole.finished = false) (hdeaf : l.listening = false) :
    ∃ s, l.whole.Winding s := by
  cases h.rests with
  | waiting ha => cases ha.symm.trans (h.parted hdeaf)
  | winding ha hs hsound he hi ho => exact ⟨_, ha, hs, hsound, he, hi, ho⟩
  | finished hf => cases hopen.symm.trans hf

/-- With nothing left to hand over, noticing the last handle ends the loop unless output is left. -/
theorem Poised.reset_ends (h : Poised l) (hopen : l.whole.finished = false) (hended : l.ended = false)
    (hqueue : l.queue = []) :
    (l.take .events).ended = true ↔ ∀ s, l.bridge.stream = some s → s.output = [] := by
  have ended := (take_carriesOut hended .events).ended
  simp only [plan, hqueue, List.isEmpty_nil, if_true] at ended
  rw [ended]
  cases h.rests with
  | finished hf => cases hopen.symm.trans hf
  | @winding s ha hs hsound he hi ho =>
    have ha' : l.bridge.attached = false := ha
    rw [ha']
    refine iff_of_false nofun fun hall => ho (hall s hs)
  | @waiting s ha hs w =>
    have ha' : l.bridge.attached = true := ha
    have detached := closeConnection_attached l.whole
    have isOpen : l.whole.closeConnection.stream = some s := (closeConnection_stream l.whole).trans hs
    have resets : Task.reset.on l.whole = l.whole.closeConnection.windDownStream :=
      onConnection_error hopen ha .reset
    rw [ha', if_pos rfl, carryOut_singleton, resets]
    by_cases ho : s.output = []
    · rw [windDownStream_gone detached isOpen w.sound ho]
      refine iff_of_true rfl fun t ht => ?_
      obtain rfl : s = t := Option.some.inj (hs.symm.trans ht)
      exact ho
    · rw [windDownStream_left isOpen ho]
      exact iff_of_false nofun fun hall => ho (hall s hs)

theorem winding_ends (w : l.whole.Winding s) (hopen : l.whole.finished = false) (hended : l.ended = false)
    {turn : Turn κ} (hturn : turn ≠ .events) :
    (l.take turn).ended = true ↔ turn = .watchFailed ∨ turn = .connectFailed ∨
      ∃ ready b, turn = .ready ready ∧ l.buffered? = some b ∧
        ((b.serve ready).1.stream.output = [] ∨ (b.serve ready).1.stream.writes = false) := by
  have hb : l.buffered? = some { stream := s, socket := l.socket, limits := l.limits } :=
    Option.map_eq_some_iff.mpr ⟨s, w.holds, rfl⟩
  have failed : (Task.report (.error .both)).on (l.whole.keep { s with enabled := .none }) = (l.whole.gone, .finished) := by
    rw [← Stream.withdraw_both]
    exact w.reacts hopen .failAll
  have ended := (take_carriesOut hended turn).ended
  simp only [plan, hb, serving, Option.map_some, Option.getD_some] at ended
  rw [ended]
  cases turn with
  | events => exact absurd rfl hturn
  | connected socket =>
    have stays : (Task.report .connected).on (l.whole.keep s) = (l.whole, .active) := w.reacts hopen .connect
    rw [carryOut_serve]
    refine iff_of_false ?_ (by simp)
    show ¬ (carryOut (l.whole.keep s) [.report .connected]).2 = .finished
    rw [carryOut_singleton, stays]
    exact Status.noConfusion
  | connectFailed =>
    rw [carryOut_serve]
    refine iff_of_true ?_ (.inr (.inl rfl))
    show (carryOut (l.whole.keep { s with enabled := .none }) [.report (.error .both)]).2 = .finished
    rw [carryOut_singleton, failed]
  | watchFailed =>
    rw [carryOut_serve]
    refine iff_of_true ?_ (.inl rfl)
    show (carryOut (l.whole.keep { s with enabled := .none }) [.report (.error .both)]).2 = .finished
    rw [carryOut_singleton, failed]
  | ready ready =>
    rw [carryOut_serve, finishes_served (Buffered.serve_serves _ ready) w hopen]
    constructor
    · exact fun nothing => .inr (.inr ⟨ready, _, rfl, hb, nothing⟩)
    · rintro (h | h | ⟨ready', b, h, hb', nothing⟩)
      · cases h
      · cases h
      · cases h
        cases hb.symm.trans hb'
        exact nothing

/-- In every run of an unfinished loop: output that is queued can be written, now or once the connect completes,
and a loop that does not wait for its handles waits to write. Once they are all gone that is noticed, and then the
loop ends as soon as the output has been written or cannot be. -/
theorem never_waits_in_vain (sender : σ) (config : Config) (socket : Option κ) (peer : Option PeerId)
    (steps : List (Step κ)) (hended : ((launchHolding sender config socket peer).run steps).ended = false) :
    let l := (launchHolding sender config socket peer).run steps
    (∀ s, l.bridge.stream = some s → s.output ≠ [] →
      s.writes = true ∧ (l.socket.isSome = true ∨ l.connecting = true)) ∧
    (l.listening = true ∨ l.bridge.attached = false ∧ ∃ b, l.buffered? = some b ∧ b.stream.writes = true ∧
      b.stream.output ≠ [] ∧ b.wantsWrite = true ∧ (l.socket.isSome = true ∨ l.connecting = true)) ∧
    (l.listening = true → l.handlesAlive = false → l.possible .events = true ∧
      (l.queue = [] → ((l.take .events).ended = true ↔ ∀ s, l.bridge.stream = some s → s.output = []))) ∧
    (l.listening = false → ∀ turn, l.possible turn = true →
      ((l.take turn).ended = true ↔ turn = .watchFailed ∨ turn = .connectFailed ∨
        ∃ ready b, turn = .ready ready ∧ l.buffered? = some b ∧
          ((b.serve ready).1.stream.output = [] ∨ (b.serve ready).1.stream.writes = false))) := by
  intro l
  obtain ⟨-, ends⟩ := unharmed_run sender config socket peer steps
  have poised : Poised l := poised_run sender config socket peer steps
  have hopen : l.whole.finished = false := by
    by_contra hno
    cases (ends.mp (by simpa using hno)).symm.trans hended
  have wired : ∀ s, l.bridge.stream = some s → s.writes = true → l.socket.isSome = true ∨ l.connecting = true := by
    intro s hs hw
    rcases poised.wired with h | h | h
    · exact .inl h
    · exact .inr h
    · cases hw.symm.trans (h s hs)
  refine ⟨?_, ?_, ?_, ?_⟩
  · intro s hs ho
    have hw : s.writes = true := by
      cases poised.rests with
      | finished hf => cases hopen.symm.trans hf
      | @waiting t _ ht w =>
        cases hs.symm.trans ht
        exact w.writes_of_queued ho
      | @winding t _ ht _ he =>
        cases hs.symm.trans ht
        rw [Stream.writes_eq, he]
        rfl
    exact ⟨hw, wired s hs hw⟩
  · cases hdeaf : l.listening with
    | true => exact .inl rfl
    | false =>
      obtain ⟨s, w⟩ := poised.winding hopen hdeaf
      have hw : s.writes = true := by
        rw [Stream.writes_eq, w.enabled]
        rfl
      refine .inr ⟨w.detached, _, Option.map_eq_some_iff.mpr ⟨s, w.holds, rfl⟩, hw, w.output, ?_, wired s w.holds hw⟩
      simp only [Buffered.wantsWrite, hw, Bool.true_and, Bool.not_eq_true', List.isEmpty_eq_false_iff]
      exact w.output
  · intro hlistening hgone
    refine ⟨?_, poised.reset_ends hopen hended⟩
    simp only [possible, hlistening, hgone, Bool.not_false, Bool.or_true, Bool.and_true, Bool.not_eq_true']
    exact hended
  · intro hdeaf turn hcan
    obtain ⟨s, w⟩ := poised.winding hopen hdeaf
    refine winding_ends w hopen hended ?_
    rintro rfl
    simp [possible, hdeaf] at hcan

/-- A byte is queued for an outbound connect when the last handle goes. The loop then waits for the connect alone,
and ends if it fails. -/
theorem never_waits_in_vain_connecting :
    let steps : List (Step Pair) := [.post (.read [1]), .dropHandles, .take .events, .take .events]
    let l : EventLoop Unlimited Pair := (launchHolding {} {} none none).run steps
    l.ended = false ∧ l.listening = false ∧ l.socket.isSome = false ∧
      (∃ b, l.buffered? = some b ∧ b.wantsWrite = true ∧ l.connecting = true) ∧
      (l.take .connectFailed).ended = true := by
  intro steps l
  have hended : l.ended = false := by decide +kernel
  have hdeaf : l.listening = false := by decide +kernel
  have hno : l.socket.isSome = false := by decide +kernel
  obtain ⟨-, waits, -, ends⟩ := never_waits_in_vain ({} : Unlimited) {} (none : Option Pair) none steps hended
  refine ⟨hended, hdeaf, hno, ?_, (ends hdeaf .connectFailed (by decide +kernel)).mpr (.inr (.inl rfl))⟩
  rcases waits with hlistening | ⟨-, b, hb, -, -, hw, hsocket | hconnecting⟩
  · cases hdeaf.symm.trans hlistening
  · cases hno.symm.trans hsocket
  · exact ⟨b, hb, hw, hconnecting⟩

end EventLoop

end Splice
