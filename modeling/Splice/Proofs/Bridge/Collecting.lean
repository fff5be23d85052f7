import Splice.Proofs.Bridge.Behaving

/-!
# Collecting calls

The calls that a bridge has made do not change what it does. So a bridge whose calls are collected after
each reaction goes the way of one whose calls are never collected, and the collected calls are the same.
-/

namespace Splice.Bridge

variable {σ : Type}

/-- The bridge with calls that were made before those it knows of. -/
def since (b : Bridge σ) (earlier : List Call) : Bridge σ := { b with calls := b.calls ++ earlier }

def collected (b : Bridge σ) : Bridge σ := b.collect.2

theorem collected_since_calls (b : Bridge σ) : b.collected.since b.calls = b := rfl

section Since

variable (b : Bridge σ) (earlier : List Call)

@[simp] theorem since_sender : (b.since earlier).sender = b.sender := rfl
@[simp] theorem since_attached : (b.since earlier).attached = b.attached := rfl
@[simp] theorem since_stream : (b.since earlier).stream = b.stream := rfl
@[simp] theorem since_peer : (b.since earlier).peer = b.peer := rfl
@[simp] theorem since_suspended : (b.since earlier).suspended = b.suspended := rfl
@[simp] theorem since_finished : (b.since earlier).finished = b.finished := rfl
@[simp] theorem since_maxChunk : (b.since earlier).maxChunk = b.maxChunk := rfl
@[simp] theorem since_stats : (b.since earlier).stats = b.stats := rfl
@[simp] theorem since_calls : (b.since earlier).calls = b.calls ++ earlier := rfl

/-! ## Small steps -/

@[simp] theorem record_since (call : Call) : (b.since earlier).record call = (b.record call).since earlier := rfl
@[simp] theorem keep_since (s : Stream) : (b.since earlier).keep s = (b.keep s).since earlier := rfl
@[simp] theorem countViolation_since : (b.since earlier).countViolation = b.countViolation.since earlier := rfl

@[simp] theorem releasePeer_since : (b.since earlier).releasePeer = b.releasePeer.since earlier := by
  rcases b with ⟨_, _, _, _ | _⟩ <;> rfl

@[simp] theorem holdPeer_since (peer : PeerId) :
    (b.since earlier).holdPeer peer = (b.holdPeer peer).since earlier := by
  rw [holdPeer, releasePeer_since]
  rfl

@[simp] theorem connected_since : (b.since earlier).connected = b.connected.since earlier := by
  rcases b with ⟨_, _, _, _ | _⟩ <;> rfl

def reactionSince (r : Bridge σ × Status) : Bridge σ × Status := (r.1.since earlier, r.2)

theorem goes_on_since {f : Bridge σ → Bridge σ × Status} {p : Bool}
    (h : f (b.since earlier) = reactionSince earlier (f b)) :
    (if p then f (b.since earlier) else (b.since earlier, .active)) =
      reactionSince earlier (if p then f b else (b, .active)) := by
  split
  · exact h
  · rfl

@[simp] theorem conclude_since : (b.since earlier).conclude = reactionSince earlier b.conclude := by
  rcases b with ⟨_, _ | _, _ | _⟩ <;> rfl

/-! ## Closing -/

@[simp] theorem closeConnection_since : (b.since earlier).closeConnection = b.closeConnection.since earlier := by
  rcases b with ⟨_, _ | _, _, _ | _⟩ <;> rfl

@[simp] theorem closeStream_since : (b.since earlier).closeStream = b.closeStream.since earlier := by
  unfold closeStream
  rw [since_stream]
  cases b.stream with
  | none => rfl
  | some s => cases h : s.isQuiet <;> simp only [h] <;> rfl

@[simp] theorem windDownStream_since :
    (b.since earlier).windDownStream = reactionSince earlier b.windDownStream := by
  unfold windDownStream
  rw [since_stream]
  cases b.stream with
  | none => exact conclude_since b earlier
  | some s => simp only [keep_since, closeStream_since, conclude_since, apply_ite (reactionSince earlier)]

@[simp] theorem discardStream_since : (b.since earlier).discardStream = b.discardStream.since earlier := by
  unfold discardStream
  rw [since_stream]
  cases b.stream with
  | none => rfl
  | some s => simp only [keep_since, closeStream_since]

@[simp] theorem abandon_since : (b.since earlier).abandon = reactionSince earlier b.abandon := by
  unfold abandon
  rw [since_attached, closeConnection_since, ← apply_ite (since · earlier), discardStream_since, conclude_since]

/-! ## Forwarding -/

@[simp] theorem afterSending_since (s : Stream) :
    (b.since earlier).afterSending s = reactionSince earlier (b.afterSending s) := by
  simp only [afterSending, record_since, closeConnection_since, closeStream_since, discardStream_since,
    conclude_since, apply_ite (reactionSince earlier)]
  rfl

@[simp] theorem queueOutput_since (data : List UInt8) :
    (b.since earlier).queueOutput data = reactionSince earlier (b.queueOutput data) := by
  unfold queueOutput
  rw [since_stream]
  cases b.stream with
  | none => rfl
  | some s => cases h : s.writes <;> simp only [h] <;> rfl

variable [Sender σ]

omit b in
theorem offer_since (chunk : Nat) (sender : σ) (input : List UInt8) (count : UInt64) (calls : List Call) :
    offer chunk sender input count (calls ++ earlier) =
      { offer chunk sender input count calls with
        calls := (offer chunk sender input count calls).calls ++ earlier } := by
  fun_induction offer chunk sender input count calls with
  | case1 => rw [offer, if_pos rfl]
  | case2 _ _ _ _ hne =>
    rename_i hsend _
    rw [offer, if_neg hne]
    dsimp only
    rw [show Sender.send _ _ = _ from hsend]
    rfl
  | case3 _ _ _ _ hne =>
    rename_i hnone hsend _
    rw [offer, if_neg hne]
    dsimp only
    rw [show Sender.send _ _ = _ from hsend]
    exact if_pos hnone
  | case4 _ _ _ _ hne =>
    rename_i hsome hsend _ ih
    rw [offer, if_neg hne]
    dsimp only
    rw [show Sender.send _ _ = _ from hsend]
    exact (if_neg hsome).trans ih

@[simp] theorem sendPending_since : (b.since earlier).sendPending = reactionSince earlier b.sendPending := by
  cases hs : b.stream with
  | none =>
    rw [sendPending, sendPending, since_stream, hs]
    exact conclude_since b earlier
  | some s =>
    cases ha : b.attached with
    | false =>
      simp only [sendPending, since_stream, since_attached, hs, ha, Bool.not_false, if_true]
      exact windDownStream_since b earlier
    | true =>
      rw [sendPending_of_attached (b := b.since earlier) ha hs, sendPending_of_attached ha hs]
      dsimp only [since_maxChunk, since_sender, since_stats, since_calls]
      rw [offer_since]
      generalize offer b.maxChunk b.sender s.input b.stats.bytesToConnection b.calls = o
      have offered : (b.since earlier).offeredTo s { o with calls := o.calls ++ earlier } =
          (b.offeredTo s o).since earlier := rfl
      rw [offered]
      simp only [closeConnection_since, windDownStream_since, afterSending_since, apply_ite (reactionSince earlier)]

@[simp] theorem endOutput_since : (b.since earlier).endOutput = reactionSince earlier b.endOutput := by
  unfold endOutput
  rw [since_stream]
  cases b.stream with
  | none => exact conclude_since b earlier
  | some s =>
    simp only [keep_since, record_since, ← apply_ite (since · earlier), sendPending_since,
      apply_ite (reactionSince earlier)]
    rfl

@[simp] theorem outputDrained_since :
    (b.since earlier).outputDrained = reactionSince earlier b.outputDrained := by
  unfold outputDrained
  rw [since_stream]
  cases b.stream with
  | none => exact conclude_since b earlier
  | some s =>
    cases ho : s.output.isEmpty with
    | false => simp only [ho]; rfl
    | true =>
      cases ha : b.attached with
      | false => simp only [ho, since_attached, ha]; exact windDownStream_since b earlier
      | true =>
        simp only [ho, since_attached, ha]
        exact goes_on_since (b.record .readDrained) earlier (endOutput_since _ earlier)

/-! ## Events -/

@[simp] theorem writable_since : (b.since earlier).writable = reactionSince earlier b.writable :=
  goes_on_since b earlier (sendPending_since b earlier)

@[simp] theorem connectionEnded_since :
    (b.since earlier).connectionEnded = reactionSince earlier b.connectionEnded := by
  cases hs : b.stream with
  | none =>
    simp only [connectionEnded, since_stream, hs]
    rfl
  | some s =>
    simp only [connectionEnded, since_stream, hs]
    exact goes_on_since { b with stream := some s, suspended := true } earlier (endOutput_since _ earlier)

theorem onConnection_since (event : ConnectionEvent) :
    (b.since earlier).onConnection event = reactionSince earlier (b.onConnection event) := by
  unfold onConnection
  simp only [since_finished, since_attached, countViolation_since, conclude_since,
    apply_ite (reactionSince earlier)]
  cases event <;>
    simp only [connected_since, writable_since, queueOutput_since, connectionEnded_since, closeConnection_since,
      windDownStream_since] <;> rfl

@[simp] theorem inputEnded_since : (b.since earlier).inputEnded = reactionSince earlier b.inputEnded := by
  unfold inputEnded
  rw [since_stream]
  cases b.stream with
  | none =>
    simp only [since_suspended, since_attached, closeConnection_since, ← apply_ite (since · earlier),
      sendPending_since, windDownStream_since, apply_ite (reactionSince earlier)]
  | some s =>
    simp only [keep_since, since_suspended, since_attached, closeConnection_since,
      ← apply_ite (since · earlier), sendPending_since, windDownStream_since, apply_ite (reactionSince earlier)]

@[simp] theorem streamFailed_since (d : Directions) :
    (b.since earlier).streamFailed d = reactionSince earlier (b.streamFailed d) := by
  unfold streamFailed
  rw [since_stream]
  cases b.stream with
  | none => exact abandon_since b earlier
  | some s =>
    by_cases h : (b.attached && s.input.isEmpty) = true
    · simp only [since_attached, since_suspended, h, if_true]
      exact goes_on_since ({ b.keep _ with suspended := true }.record (.shutdown .receive)) earlier
        (endOutput_since _ earlier)
    · simp only [since_attached, h]
      exact abandon_since b earlier

@[simp] theorem streamEnded_since (d : Directions) :
    (b.since earlier).streamEnded d = reactionSince earlier (b.streamEnded d) := by
  unfold streamEnded
  cases d.contains .onlyWrite with
  | false => exact goes_on_since b earlier (inputEnded_since b earlier)
  | true =>
    rw [since_stream]
    cases b.stream with
    | none => exact conclude_since b earlier
    | some s =>
      dsimp only
      cases (s.disable .onlyWrite).reads with
      | false => exact abandon_since (b.keep (s.disable .onlyWrite)) earlier
      | true =>
        have told : ∀ c : Bridge σ,
            (if (c.since earlier).attached then
              { c.since earlier with suspended := true }.record (.shutdown .receive) else c.since earlier) =
            (if c.attached then { c with suspended := true }.record (.shutdown .receive) else c).since earlier := by
          rintro ⟨_, _ | _⟩ <;> rfl
        have goes_on := congrArg
          (fun c : Bridge σ => if d.contains .onlyRead then c.inputEnded else (c, .active))
          (told (b.keep { s.disable .onlyWrite with output := [] }))
        exact goes_on.trans (goes_on_since _ earlier (inputEnded_since _ earlier))

theorem onStream_since (event : StreamEvent) :
    (b.since earlier).onStream event = reactionSince earlier (b.onStream event) := by
  unfold onStream
  simp only [since_finished, since_stream, countViolation_since, conclude_since,
    apply_ite (reactionSince earlier)]
  cases event <;>
    simp only [sendPending_since, outputDrained_since, streamFailed_since, streamEnded_since] <;> rfl

theorem react_since (event : Event) : (b.since earlier).react event = reactionSince earlier (b.react event) := by
  cases event with
  | connection e => exact onConnection_since b earlier e
  | stream e => exact onStream_since b earlier e

theorem move_since (m : Move) : (b.since earlier).move m = (b.move m).since earlier := by
  cases m with
  | connection e => exact congrArg Prod.fst (onConnection_since b earlier e)
  | hold peer => exact holdPeer_since b earlier peer
  | stream act =>
    rw [move, move, since_stream]
    cases b.stream.bind act.on? with
    | none => rfl
    | some done =>
      obtain ⟨s, _ | e⟩ := done
      · rfl
      · exact congrArg Prod.fst (onStream_since (b.keep s) earlier e)

end Since

variable [Sender σ]

/-- With the calls collected before a move, what is made in it comes to the same. -/
theorem move_of_collected (b : Bridge σ) (m : Move) : (b.collected.move m).since b.calls = b.move m := by
  rw [← move_since, collected_since_calls]

end Splice.Bridge
