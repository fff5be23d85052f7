import Splice.Proofs.Bridge.Lifecycle

/-!
# Bytes to the connection

What the connection has taken is always a beginning of what the stream was fed, and while the connection is
attached the rest is in the input, whatever the sizes of the chunks and the answers to the sends.
-/

namespace Splice

theorem Answer.taken_begins (offered : List UInt8) (answer : Answer) : answer.taken offered <+: offered := by
  cases answer with
  | accepted n => exact List.take_prefix n offered
  | failed => exact List.nil_prefix

theorem Call.sent_of_toPeer {call : Call} (h : call.toPeer = true) : call.sent = [] := by
  cases call <;> simp_all [Call.toPeer, Call.sent]

namespace Bridge

variable {σ : Type} {event : Event} {b c : Bridge σ} {s s' : Stream} {fed : List UInt8}

theorem sent_of_calls (made : List Call) (h : c.calls = made ++ b.calls) :
    c.sent = b.sent ++ made.reverse.flatMap Call.sent := by
  simp [sent, h]

theorem sent_of_unsent (made : List Call) (h : c.calls = made ++ b.calls) (hmade : ∀ call ∈ made, call.sent = []) :
    c.sent = b.sent := by
  have nothing : made.reverse.flatMap Call.sent = [] :=
    List.flatMap_eq_nil_iff.mpr fun call hc => hmade call (List.mem_reverse.mp hc)
  rw [sent_of_calls made h, nothing, List.append_nil]

theorem sent_closeConnection (ha : b.attached = true) : b.closeConnection.sent = b.sent := by
  refine sent_of_unsent b.closing (closeConnection_calls ha) ?_
  intro call hc
  rcases closing_cases hc with hc | rfl
  · exact Call.sent_of_toPeer hc
  · rfl

theorem sent_connected : b.connected.sent = b.sent := by
  rw [connected_eq]
  exact sent_of_unsent b.announces rfl fun call hc => Call.sent_of_toPeer (b.announces_toPeer call hc)

theorem sent_holdPeer (peer : PeerId) : (b.holdPeer peer).sent = b.sent := by
  rw [holdPeer, releasePeer_eq]
  exact sent_of_unsent b.releases rfl fun call hc => Call.sent_of_toPeer (b.releases_toPeer call hc)

/-! ## The bytes in flight -/

/-- Where the bytes are that the stream was fed. -/
structure Sends (fed : List UInt8) (b : Bridge σ) : Prop where
  pending : b.attached = true → ∀ s, b.stream = some s → b.sent ++ s.input = fed
  sent_begins : b.sent <+: fed
  counted : b.stats.bytesToConnection = b.sent.length.toUInt64

namespace Sends

theorem of_unsent (h : b.Sends fed) (hsent : c.sent = b.sent)
    (hstream : c.attached = true → ∀ s', c.stream = some s' →
      b.attached = true ∧ ∃ s, b.stream = some s ∧ s.input = s'.input)
    (hstats : c.stats.bytesToConnection = b.stats.bytesToConnection) : c.Sends fed := by
  refine ⟨?_, hsent ▸ h.sent_begins, by rw [hstats, h.counted, hsent]⟩
  intro ha s' hs'
  obtain ⟨hb, s, hs, hi⟩ := hstream ha s' hs'
  rw [hsent, ← hi]
  exact h.pending hb s hs

theorem holdPeer (h : b.Sends fed) (peer : PeerId) : (b.holdPeer peer).Sends fed := by
  refine h.of_unsent (sent_holdPeer peer) ?_ ?_
  · rw [Bridge.holdPeer, releasePeer_eq]
    exact fun ha s' hs' => ⟨ha, s', hs', rfl⟩
  · rw [Bridge.holdPeer, releasePeer_eq]

theorem change (h : b.Sends fed) (f : Stream → Stream) (hf : ∀ s, (f s).input = s.input) :
    (b.change f).Sends fed := by
  cases hs : b.stream with
  | none =>
    rw [change_of_closed hs]
    exact h
  | some s =>
    rw [change_of_open hs]
    refine h.of_unsent rfl ?_ rfl
    rintro ha _ ⟨⟩
    exact ⟨ha, s, hs, (hf s).symm⟩

theorem append (h : b.Sends fed) (data : List UInt8) :
    (b.change fun s => { s with input := s.input ++ data }).Sends (fed ++ b.appendedBy (.append data)) := by
  cases hs : b.stream with
  | none =>
    rw [change_of_closed hs, appendedBy, hs, Option.isSome_none, if_neg (by decide), List.append_nil]
    exact h
  | some s =>
    rw [change_of_open hs, appendedBy, hs, Option.isSome_some, if_pos rfl]
    refine ⟨?_, h.sent_begins.trans (List.prefix_append _ _), h.counted⟩
    rintro ha _ ⟨⟩
    rw [← h.pending ha s hs, List.append_assoc]
    rfl

end Sends

theorem sends_new (sender : σ) (stream : Stream) (config : Config) :
    (new sender stream config).Sends stream.input := by
  refine ⟨?_, List.nil_prefix, rfl⟩
  rintro - s ⟨⟩
  rfl

theorem sent_change (f : Stream → Stream) : (b.change f).sent = b.sent := by
  cases hs : b.stream with
  | none => rw [change_of_closed hs]
  | some s =>
    rw [change_of_open hs]
    rfl

theorem Adjusts.input_eq (h : Adjusts event true s s') : s'.input = s.input := by
  cases h with
  | stopReading | loseOutput | stopWriting => rfl
  | dropInput ha => cases ha
  | discard ha => cases ha

variable [Sender σ]

def chunkTaken (b : Bridge σ) (s : Stream) : List UInt8 :=
  (Sender.send b.sender (s.input.take b.maxChunk)).1.taken (s.input.take b.maxChunk)

theorem chunkTaken_begins : b.chunkTaken s <+: s.input :=
  (Answer.taken_begins _ _).trans (List.take_prefix _ _)

theorem sent_sendChunk : (b.sendChunk s).sent = b.sent ++ b.chunkTaken s := by
  rw [sent_of_calls [_] rfl]
  simp [Call.sent, chunkTaken]

theorem Deed.sends (d : Deed event b c) (ht : b.Sound) (h : b.Sends fed) : c.Sends fed := by
  cases d with
  | @send s ha hs _ =>
    have rest := h.pending ha s hs
    refine ⟨?_, ?_, ?_⟩
    · rintro - s' ⟨⟩
      have input := List.prefix_iff_eq_append.mp (chunkTaken_begins (b := b) (s := s))
      rw [chunkTaken] at input
      rw [sent_sendChunk, chunkTaken, List.append_assoc, input, rest]
    · rw [sent_sendChunk, ← rest]
      exact (List.prefix_append_right_inj _).mpr chunkTaken_begins
    · show b.stats.bytesToConnection + _ = _
      rw [sent_sendChunk, List.length_append, h.counted]
      exact (UInt64.ofNat_add _ _).symm
  | @tell s call ha hs tells =>
    have unsent : (b.record call).sent = b.sent := by
      refine sent_of_unsent [call] rfl ?_
      cases tells <;> simp [Call.sent]
    exact h.of_unsent unsent (fun ha s' hs' => ⟨ha, s', hs', rfl⟩) rfl
  | suspend _ _ => exact h.of_unsent rfl (fun ha s' hs' => ⟨ha, s', hs', rfl⟩) rfl
  | announce _ _ =>
    refine h.of_unsent sent_connected ?_ (by rw [connected_eq])
    rw [connected_eq]
    exact fun ha s' hs' => ⟨ha, s', hs', rfl⟩
  | @receive data ha _ =>
    obtain ⟨s, hs⟩ := ht.stream_of_attached ha
    cases hw : s.writes with
    | true =>
      rw [queueOutput_of_writes data hs hw]
      refine h.of_unsent rfl ?_ rfl
      rintro - s' ⟨⟩
      exact ⟨ha, s, hs, rfl⟩
    | false =>
      rw [queueOutput_of_not_writes data hs hw]
      exact h.of_unsent rfl (fun ha s' hs' => ⟨ha, s', hs', rfl⟩) rfl
  | @endOutput s ha _ hs _ =>
    have unsent : ((b.keep (s.disable .onlyWrite)).record .shutdownStream).sent = b.sent :=
      sent_of_unsent [.shutdownStream] rfl (by simp [Call.sent])
    refine h.of_unsent unsent ?_ rfl
    rintro - s' ⟨⟩
    exact ⟨ha, s, hs, rfl⟩
  | @adjust s s' hs adjusts =>
    refine h.of_unsent rfl ?_ rfl
    rintro ha _ ⟨⟩
    rw [keep_attached] at ha
    rw [ha] at adjusts
    exact ⟨ha, s, hs, adjusts.input_eq.symm⟩
  | closeConnection ha hs =>
    -- From here on the input no longer matters: what was sent stays as it is.
    refine h.of_unsent (sent_closeConnection ha) ?_ (by rw [closeConnection_eq ha])
    intro ha'
    rw [closeConnection_attached] at ha'
    cases ha'
  | @closeStream s ha hs hi ho he =>
    have unsent : b.closeStream.conclude.1.sent = b.sent := by
      refine sent_of_unsent [.closeStream s.enabled 0 0] ?_ (by simp [Call.sent])
      rw [closeStream_conclude ha hs hi ho he]
      rfl
    refine h.of_unsent unsent ?_ ?_
    · rw [closeStream_conclude ha hs hi ho he]
      exact fun ha' => absurd ha' (by simp [ha])
    · rw [closeStream_conclude ha hs hi ho he]
      by_cases hne : s.enabled = .none
      · simp [hne]
      · simp [hne, countViolation]

theorem Deed.sends_nothing (d : Deed event b c) (ha : b.attached = false) :
    c.attached = false ∧ c.sent = b.sent := by
  cases d with
  | send h | tell h | suspend h | announce h | receive h | endOutput h | closeConnection h => simp [ha] at h
  | adjust => exact ⟨ha, rfl⟩
  | @closeStream s _ hs hi ho he =>
    rw [closeStream_conclude ha hs hi ho he]
    exact ⟨ha, sent_of_unsent [.closeStream s.enabled 0 0] rfl (by simp [Call.sent])⟩

/-! ## Along a run -/

theorem Sends.step (h : b.Sends fed) (ht : b.Tidy) (s : Step) (hs : s.keepsInput = true) :
    (b.step s).Sends (fed ++ b.appendedBy s) := by
  cases s with
  | event event =>
    simp only [appendedBy, List.append_nil]
    exact ht.react_preserves event (fun hc d sends => d.sends hc.toSound sends)
      (fun sends => ⟨sends.pending, sends.sent_begins, sends.counted⟩) h
  | append data => exact h.append data
  | replaceInput data => cases hs
  | replaceOutput | setEnabled =>
    simp only [appendedBy, List.append_nil]
    exact h.change _ fun _ => rfl
  | hold peer =>
    simp only [appendedBy, List.append_nil]
    exact h.holdPeer peer

theorem sends_run (sender : σ) (stream : Stream) (config : Config) (steps : List Step)
    (hkeep : ∀ s ∈ steps, s.keepsInput = true) :
    let start := new sender stream config
    (start.run steps).Sends (stream.input ++ start.appended steps) := by
  intro start
  induction steps using List.reverseRecOn with
  | nil =>
    rw [appended, Run.gather, List.append_nil]
    exact sends_new sender stream config
  | append_singleton steps s ih =>
    rw [run_snoc, appended_snoc, ← List.append_assoc]
    have kept := ih fun s hs => hkeep s (List.mem_append_left _ hs)
    exact kept.step ((tidy_new sender stream config).run steps) s (hkeep s (by simp))

theorem step_sends_nothing (ht : b.Tidy) (ha : b.attached = false) (s : Step) :
    (b.step s).sent = b.sent := by
  cases s with
  | event event =>
    have kept := ht.react_preserves (P := fun c => c.attached = false ∧ c.sent = b.sent) event
      (fun _ d hc => ⟨(d.sends_nothing hc.1).1, (d.sends_nothing hc.1).2.trans hc.2⟩) id ⟨ha, rfl⟩
    exact kept.2
  | append | replaceInput | replaceOutput | setEnabled => exact sent_change _
  | hold peer => exact sent_holdPeer peer

theorem run_sends_nothing (ht : b.Tidy) (ha : b.attached = false) (steps : List Step) :
    (b.run steps).sent = b.sent := by
  induction steps using List.reverseRecOn with
  | nil => rfl
  | append_singleton steps s ih =>
    have detached := (ht.run_ahead steps).detached ha
    rw [run_snoc, step_sends_nothing (ht.run steps) detached s, ih]

/-- In every run that only appends to the input: nothing is lost, sent twice or out of order. -/
theorem sent_in_order (sender : σ) (stream : Stream) (config : Config) (steps : List Step)
    (hkeep : ∀ s ∈ steps, s.keepsInput = true) :
    let start := new sender stream config
    let b := start.run steps
    let fed := stream.input ++ start.appended steps
    (b.attached = true → ∃ s, b.stream = some s ∧ b.sent ++ s.input = fed) ∧
    (b.attached = false → b.sent <+: fed ∧ ∀ later, (b.run later).sent = b.sent) ∧
    b.stats.bytesToConnection = b.sent.length.toUInt64 := by
  intro start b fed
  have tidy : b.Tidy := (tidy_new sender stream config).run steps
  have sends : b.Sends fed := sends_run sender stream config steps hkeep
  refine ⟨fun ha => ?_, fun ha => ⟨sends.sent_begins, fun later => ?_⟩, sends.counted⟩
  · obtain ⟨s, hs⟩ := tidy.stream_of_attached ha
    exact ⟨s, hs, sends.pending ha s hs⟩
  · exact run_sends_nothing tidy ha later

/-- Over-large, partial and refused sends, and then a failed one. -/
theorem sent_in_order_mixed :
    let script : Script := { answers := [.accepted 9, .accepted 1, .accepted 0, .failed] }
    let fill : List Step := [.append [5], .event (.stream .readable)]
    let start := new script { input := [1, 2, 3, 4] } { maxChunk := 2 }
    let filled := start.run fill
    let b := start.run (fill ++ [.event (.connection .writable)])
    filled.attached = true ∧ (∃ s, filled.stream = some s ∧ filled.sent ++ s.input = [1, 2, 3, 4, 5]) ∧
      b.attached = false ∧ b.sent <+: [1, 2, 3, 4, 5] ∧ b.stats.bytesToConnection = 3 := by
  intro script fill start filled b
  have open_yet : filled.attached = true := by decide +kernel
  have closed : b.attached = false := by decide +kernel
  have before := sent_in_order script { input := [1, 2, 3, 4] } { maxChunk := 2 } fill (by decide)
  have after := sent_in_order script { input := [1, 2, 3, 4] } { maxChunk := 2 }
    (fill ++ [.event (.connection .writable)]) (by decide)
  exact ⟨open_yet, before.1 open_yet, closed, (after.2.1 closed).1, after.2.2.trans (by decide +kernel)⟩

end Bridge

end Splice
