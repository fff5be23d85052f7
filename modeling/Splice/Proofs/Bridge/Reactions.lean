import Splice.Proofs.Bridge.Deeds

/-!
# Reactions are series of deeds

One lemma for each operation of a bridge, in the order of their definitions. Each says that the operation
is a series of deeds and that the status it gives says whether the bridge is finished.
-/

namespace Splice.Bridge

variable {σ : Type} [Sender σ] {event : Event} {b c : Bridge σ} {s : Stream} {r : Bridge σ × Status}

structure Reacts (event : Event) (b : Bridge σ) (r : Bridge σ × Status) : Prop where
  deeds : Deeds event b r.1
  status : r.2 = .finished ↔ r.1.finished = true

namespace Reacts

theorem stay (h : b.finished = false) : Reacts event b (b, .active) :=
  ⟨.refl, by simp [h]⟩

theorem after (d : Deed event b c) (h : Reacts event c r) : Reacts event b r :=
  ⟨.head d h.deeds, h.status⟩

theorem after_deeds (d : Deeds event b c) (h : Reacts event c r) : Reacts event b r :=
  ⟨d.trans h.deeds, h.status⟩

end Reacts

/-! ## Closing -/

theorem closeStream_reacts (ha : b.attached = false) (hs : b.stream = some s) (hi : s.input = [])
    (ho : s.output = []) (he : s.enabled ⊆ s.sticky) : Reacts event b b.closeStream.conclude := by
  refine ⟨.single (.closeStream ha hs hi ho he), ?_⟩
  simp [closeStream_conclude ha hs hi ho he]

theorem windDownStream_reacts (hf : b.finished = false) (ha : b.attached = false) (hs : b.stream = some s) :
    Reacts event b b.windDownStream := by
  unfold windDownStream
  rw [hs]
  dsimp only
  apply Reacts.after (.adjust hs (.dropInput ha))
  split
  · next h =>
    have ho : s.output = [] := List.isEmpty_iff.mp h
    refine Reacts.after (.adjust (keep_stream ..) (.stopWriting (.inr ⟨ha, ?_⟩))) ?_
    · exact ho
    · exact closeStream_reacts ha rfl rfl ho (Directions.sdiff_sdiff_subset ..)
  · rw [conclude_of_open (keep_stream ..)]
    exact Reacts.stay hf

theorem discardStream_reacts (ha : b.attached = false) (hs : b.stream = some s)
    (h : event.losesOutput ∨ s.writes = false) : Reacts event b b.discardStream.conclude := by
  unfold discardStream
  rw [hs]
  apply Reacts.after (.adjust hs (.discard ha h))
  exact closeStream_reacts ha rfl rfl rfl (Directions.sdiff_both_sdiff_subset ..)

theorem abandon_reacts (hs : b.stream = some s) (h : event.losesOutput) : Reacts event b b.abandon := by
  unfold abandon
  split
  · next ha =>
    apply Reacts.after (.closeConnection ha hs)
    exact discardStream_reacts (closeConnection_attached b) (by simpa using hs) (.inl h)
  · next ha => exact discardStream_reacts (by simpa using ha) hs (.inl h)

/-! ## Forwarding -/

def offeredTo (b : Bridge σ) (s : Stream) (o : Offered σ) : Bridge σ :=
  { b with
    sender := o.sender
    stream := some { s with input := o.rest }
    stats := { b.stats with bytesToConnection := o.count }
    calls := o.calls }

theorem sendChunk_of_failed {sender : σ}
    (h : Sender.send b.sender (s.input.take b.maxChunk) = (.failed, sender)) :
    b.sendChunk s = b.offeredTo s ⟨sender, s.input, b.stats.bytesToConnection, true,
      .send (s.input.take b.maxChunk) .failed :: b.calls⟩ := by
  simp [sendChunk, h, offeredTo, Answer.taken]

theorem sendChunk_of_accepted {n taken : Nat} {sender : σ} (failed : Bool)
    (h : Sender.send b.sender (s.input.take b.maxChunk) = (.accepted n, sender))
    (ht : min n (s.input.take b.maxChunk).length = taken) :
    b.sendChunk s = b.offeredTo s ⟨sender, s.input.drop taken, b.stats.bytesToConnection + taken.toUInt64,
      failed, .send (s.input.take b.maxChunk) (.accepted n) :: b.calls⟩ := by
  subst ht
  rw [← List.length_take]
  simp only [sendChunk, h, offeredTo, Answer.taken]

theorem offer_deeds {chunk : Nat} {sender : σ} {input : List UInt8} {count : UInt64} {calls : List Call}
    (ha : b.attached = true) (hs : b.stream = some s) (hchunk : b.maxChunk = chunk)
    (hsender : b.sender = sender) (hinput : s.input = input)
    (hcount : b.stats.bytesToConnection = count) (hcalls : b.calls = calls) :
    Deeds event b (b.offeredTo s (offer chunk sender input count calls)) := by
  -- Along the recursion of the loop: each round is one send, and the next starts from where it got.
  fun_induction offer chunk sender input count calls generalizing b s with
  | case1 =>
    subst hsender hcount hcalls
    rcases b with ⟨_, _, _, _⟩
    rcases s with ⟨_, _, _⟩
    subst hs hinput
    exact .refl
  | case2 _ _ _ _ hne _ sender =>
    subst hchunk hsender hinput hcount hcalls
    have sends := sendChunk_of_failed ‹Sender.send _ _ = (.failed, sender)›
    exact .single (sends ▸ Deed.send ha hs hne)
  | case3 _ _ _ _ hne _ sender n _ ht =>
    subst hchunk hsender hinput hcount hcalls
    have sends := sendChunk_of_accepted false ‹Sender.send _ _ = (.accepted n, sender)› ht
    have zero : b.stats.bytesToConnection + (0 : Nat).toUInt64 = b.stats.bytesToConnection :=
      UInt64.add_zero _
    rw [zero] at sends
    exact .single (sends ▸ Deed.send ha hs hne)
  | case4 _ _ _ _ hne _ sender n _ _ h =>
    rename_i ih
    subst hchunk hsender hinput hcount hcalls
    have sends := sendChunk_of_accepted false h rfl
    refine .head (sends ▸ Deed.send ha hs hne) ?_
    let s' := { s with input := s.input.drop (min n (s.input.take b.maxChunk).length) }
    exact ih (s := s') ha rfl rfl rfl rfl rfl rfl

theorem afterSending_reacts (hf : b.finished = false) (ha : b.attached = true) (hs : b.stream = some s) :
    Reacts event b (b.afterSending s) := by
  unfold afterSending
  split
  · exact Reacts.stay hf
  next h =>
  simp only [Bool.or_eq_true, Bool.not_eq_true', not_or, Bool.not_eq_true, Bool.not_eq_false,
    List.isEmpty_iff] at h
  obtain ⟨hr, hi⟩ := h
  split
  · exact Reacts.after (.tell ha hs (.endSending hr hi)) (Reacts.stay hf)
  next hw =>
  have hw : s.writes = false := by simpa using hw
  have he : s.enabled = .none := (Directions.eq_none_iff _).mpr ⟨by simpa using hr, by simpa using hw⟩
  -- Neither direction is left: the connection goes first, and the stream with what it cannot write.
  split
  · next ho =>
    refine Reacts.after (.closeConnection ha hs) ?_
    exact closeStream_reacts (closeConnection_attached b) (by simpa using hs) hi (List.isEmpty_iff.mp ho)
      (he ▸ Directions.none_subset _)
  · refine Reacts.after (.closeConnection ha hs) ?_
    exact discardStream_reacts (closeConnection_attached b) (by simpa using hs) (.inr hw)

theorem sendPending_of_attached (ha : b.attached = true) (hs : b.stream = some s) :
    b.sendPending =
      let o := offer b.maxChunk b.sender s.input b.stats.bytesToConnection b.calls
      if o.failed then (b.offeredTo s o).closeConnection.windDownStream
      else (b.offeredTo s o).afterSending { s with input := o.rest } := by
  rw [sendPending, hs]
  dsimp only
  rw [if_neg (by simp [ha])]
  rfl

theorem sendPending_reacts (hf : b.finished = false) (hs : b.stream = some s) :
    Reacts event b b.sendPending := by
  cases ha : b.attached with
  | false =>
    simp only [sendPending, hs, ha, Bool.not_false, if_true]
    exact windDownStream_reacts hf ha hs
  | true =>
    rw [sendPending_of_attached ha hs]
    refine Reacts.after_deeds (offer_deeds ha hs rfl rfl rfl rfl rfl) ?_
    dsimp only
    split
    · refine Reacts.after (.closeConnection ha rfl) ?_
      exact windDownStream_reacts ((closeConnection_finished _).trans hf) (closeConnection_attached _)
        (closeConnection_stream _)
    · exact afterSending_reacts hf ha rfl

theorem queueOutput_reacts (hf : b.finished = false) (ha : b.attached = true) (data : List UInt8) :
    Reacts (.connection (.read data)) b (b.queueOutput data) := by
  refine ⟨.single (.receive ha rfl), ?_⟩
  unfold queueOutput
  repeat' split
  all_goals simp [hf]

theorem endOutput_reacts (hf : b.finished = false) (ha : b.attached = true) (hsus : b.suspended = true)
    (hs : b.stream = some s) (ho : s.output = []) : Reacts event b b.endOutput := by
  have goes_on : ∀ {c : Bridge σ} {s' : Stream}, c.finished = false → c.stream = some s' →
      Reacts event c (if s.reads then (c, .active) else c.sendPending) := by
    intro c s' hf hs
    split
    · exact Reacts.stay hf
    · exact sendPending_reacts hf hs
  rw [endOutput, hs]
  dsimp only
  cases hw : s.writes with
  | false => exact goes_on hf hs
  | true => exact Reacts.after (.endOutput ha hsus hs ho hw) (goes_on hf rfl)

theorem outputDrained_reacts (hf : b.finished = false) (hs : b.stream = some s) :
    Reacts event b b.outputDrained := by
  unfold outputDrained
  rw [hs]
  dsimp only
  split
  · exact Reacts.stay hf
  next ho =>
  have ho : s.output = [] := by simpa using ho
  split
  · next ha => exact windDownStream_reacts hf (by simpa using ha) hs
  next ha =>
  have ha : b.attached = true := by simpa using ha
  refine Reacts.after (.tell ha hs (.acknowledge ho)) ?_
  split
  · next h =>
    simp only [Bool.and_eq_true] at h
    exact endOutput_reacts hf ha h.1 hs ho
  · exact Reacts.stay hf

/-! ## Events -/

theorem writable_reacts (hf : b.finished = false) (hs : b.stream = some s) : Reacts event b b.writable := by
  rw [writable, hs]
  exact sendPending_reacts hf hs

theorem connectionEnded_reacts (hf : b.finished = false) (ha : b.attached = true) (hs : b.stream = some s) :
    Reacts (.connection .eof) b b.connectionEnded := by
  have suspends : Deed (.connection .eof) b { b with suspended := true } := .suspend ha (.inl rfl)
  refine Reacts.after suspends ?_
  dsimp only [connectionEnded]
  split
  · exact Reacts.stay hf
  next s' hs' =>
  obtain rfl : s = s' := Option.some.inj (hs.symm.trans hs')
  split
  · next ho => exact endOutput_reacts hf ha rfl hs (List.isEmpty_iff.mp ho)
  · exact Reacts.stay hf

theorem conclude_reacts (h : b.Sound) (hf : b.finished = false) : Reacts event b b.conclude := by
  rw [h.conclude_eq hf]
  exact Reacts.stay hf

theorem onConnection_detached (h : b.Sound) (hf : b.finished = false) (ha : b.attached = false)
    (e : ConnectionEvent) : b.onConnection e = (b, .active) := by
  unfold onConnection
  rw [if_neg (by simp [hf]), if_pos (by simp [ha]), h.conclude_eq hf]

theorem onConnection_read (hf : b.finished = false) (ha : b.attached = true) (data : List UInt8) :
    b.onConnection (.read data) = b.queueOutput data := by
  unfold onConnection
  rw [if_neg (by simp [hf]), if_neg (by simp [ha])]

theorem onConnection_reacts (h : b.Sound) (hf : b.finished = false) (e : ConnectionEvent) :
    Reacts (.connection e) b (b.onConnection e) := by
  unfold onConnection
  rw [if_neg (by simp [hf])]
  split
  · exact conclude_reacts h hf
  next ha =>
  have ha : b.attached = true := by simpa using ha
  obtain ⟨s, hs⟩ := h.stream_of_attached ha
  cases e with
  | connected =>
    refine Reacts.after (.announce ha rfl) (writable_reacts (s := s) ?_ ?_)
    · rw [connected_eq]
      exact hf
    · rw [connected_eq]
      exact hs
  | writable => exact writable_reacts hf hs
  | read data => exact queueOutput_reacts hf ha data
  | eof => exact connectionEnded_reacts hf ha hs
  | error =>
    refine Reacts.after (.closeConnection ha hs) ?_
    exact windDownStream_reacts (by simpa using hf) (closeConnection_attached b) (by simpa using hs)
  | destroying => exact Reacts.stay hf

theorem streamFailed_reacts (hf : b.finished = false) (hs : b.stream = some s) (d : Directions) :
    Reacts (.stream (.error d)) b (b.streamFailed d) := by
  have lost : (Event.stream (.error d)).losesOutput := rfl
  unfold streamFailed
  rw [hs]
  dsimp only
  split
  next h =>
    have ha : b.attached = true := (Bool.and_eq_true_iff.mp h).1
    have kept : Deeds (.stream (.error d)) b
        (b.keep (if d.contains .onlyWrite then { s.disable .onlyWrite with output := [] } else s)) := by
      split
      · exact .single (.adjust hs (.loseOutput lost))
      · rw [keep_self hs]
    generalize (if d.contains .onlyWrite then { s.disable .onlyWrite with output := [] } else s) = s' at *
    refine Reacts.after_deeds kept ?_
    refine Reacts.after (.suspend ha (.inr lost)) ?_
    refine Reacts.after (.tell ha rfl (.endReceiving lost)) ?_
    split
    · next h' =>
      have ho : s'.output = [] := by simpa using (Bool.and_eq_true_iff.mp h').2
      exact endOutput_reacts hf ha rfl rfl ho
    · exact Reacts.stay hf
  · exact abandon_reacts hs lost

theorem inputEnded_reacts (hf : b.finished = false) (hs : b.stream = some s) (he : event.endsInput = true) :
    Reacts event b b.inputEnded := by
  unfold inputEnded
  rw [hs]
  dsimp only
  refine Reacts.after (.adjust hs (.stopReading he)) ?_
  split
  · exact sendPending_reacts hf rfl
  · split
    · next ha =>
      refine Reacts.after (.closeConnection ha rfl) ?_
      exact windDownStream_reacts (by simpa using hf) (closeConnection_attached _) (closeConnection_stream _)
    · next ha => exact windDownStream_reacts hf (by simpa using ha) rfl

theorem streamEnded_reacts (hf : b.finished = false) (hs : b.stream = some s) (d : Directions) :
    Reacts (.stream (.eof d)) b (b.streamEnded d) := by
  unfold streamEnded
  split
  · split
    · exact inputEnded_reacts hf hs ‹_›
    · exact Reacts.stay hf
  next hw =>
  have lost : (Event.stream (.eof d)).losesOutput := by simpa [Event.losesOutput] using hw
  split
  · next hn => cases hs.symm.trans hn
  next s' hs' =>
  obtain rfl : s = s' := Option.some.inj (hs.symm.trans hs')
  extract_lets s₁ b₁ b₂
  split
  · refine Reacts.after (.adjust hs (.stopWriting (.inl lost))) ?_
    exact abandon_reacts rfl lost
  have loses : Deed (.stream (.eof d)) b b₁ := .adjust hs (.loseOutput lost)
  have told : Deeds (.stream (.eof d)) b₁ b₂ ∧ b₂.finished = false ∧ b₂.stream = b₁.stream := by
    simp only [b₂]
    split
    · next ha =>
      exact ⟨.head (.suspend ha (.inr lost)) (.single (.tell ha rfl (.endReceiving lost))), hf, rfl⟩
    · exact ⟨.refl, hf, rfl⟩
  refine Reacts.after loses (Reacts.after_deeds told.1 ?_)
  split
  · exact inputEnded_reacts told.2.1 told.2.2 ‹_›
  · exact Reacts.stay told.2.1

theorem onStream_reacts (h : b.Sound) (hf : b.finished = false) (e : StreamEvent) :
    Reacts (.stream e) b (b.onStream e) := by
  unfold onStream
  rw [if_neg (by simp [hf])]
  cases hs : b.stream with
  | none => exact conclude_reacts h hf
  | some s =>
    simp only [Option.isNone_some, Bool.false_eq_true, if_false]
    cases e with
    | readable => exact sendPending_reacts hf hs
    | drained => exact outputDrained_reacts hf hs
    | connected => exact Reacts.stay hf
    | eof d => exact streamEnded_reacts hf hs d
    | error d => exact streamFailed_reacts hf hs d

theorem react_late (hf : b.finished = true) (event : Event) :
    b.react event = (b.countViolation, .finished) := by
  cases event with
  | connection e =>
    unfold react onConnection
    exact if_pos hf
  | stream e =>
    unfold react onStream
    exact if_pos hf

theorem react_reacts (h : b.Sound) (hf : b.finished = false) (event : Event) :
    Reacts event b (b.react event) := by
  cases event with
  | connection e => exact onConnection_reacts h hf e
  | stream e => exact onStream_reacts h hf e

end Splice.Bridge
