import Splice.Bridge.Events

/-!
# The load of a bridge

What a bridge may still write and withdraw: the bytes of its output and the directions enabled. A reaction
to an event adds at most the data that the event carries.
-/

namespace Splice

namespace Stream

def load (s : Stream) : Nat := s.output.length + s.enabled.read.toNat + s.enabled.write.toNat

theorem toNat_and_le (p q : Bool) : (p && q).toNat ≤ p.toNat := by
  cases p <;> cases q <;> decide

theorem load_withdraw_le (s : Stream) (d : Directions) : (s.withdraw d).load ≤ s.load :=
  Nat.add_le_add (Nat.add_le_add_left (toNat_and_le ..) _) (toNat_and_le ..)

theorem load_disable_le (s : Stream) (d : Directions) : (s.disable d).load ≤ s.load :=
  s.load_withdraw_le (d \ s.sticky)

@[simp] theorem load_with_input (s : Stream) (bytes : List UInt8) :
    load { s with input := bytes } = s.load := rfl

theorem load_with_output_nil_le (s : Stream) : load { s with output := [] } ≤ s.load := by
  simp [load]

end Stream

namespace Bridge

variable {σ : Type}

def load (b : Bridge σ) : Nat := (b.stream.map Stream.load).getD 0

theorem load_of_none {b : Bridge σ} (h : b.stream = none) : b.load = 0 := by simp [load, h]

theorem load_of_some {b : Bridge σ} {s : Stream} (h : b.stream = some s) : b.load = s.load := by
  simp [load, h]

@[simp] theorem load_keep (b : Bridge σ) (s : Stream) : (b.keep s).load = s.load := rfl
@[simp] theorem load_record (b : Bridge σ) (call : Call) : (b.record call).load = b.load := rfl
@[simp] theorem load_countViolation (b : Bridge σ) : b.countViolation.load = b.load := rfl

@[simp] theorem load_releasePeer (b : Bridge σ) : b.releasePeer.load = b.load := by
  unfold releasePeer; split <;> rfl

@[simp] theorem load_conclude (b : Bridge σ) : b.conclude.1.load = b.load := by
  unfold conclude; split <;> rfl

/-! ## Closing -/

@[simp] theorem load_closeConnection (b : Bridge σ) : b.closeConnection.load = b.load := by
  unfold closeConnection; rw [load_releasePeer]; split <;> rfl

@[simp] theorem load_closeStream (b : Bridge σ) : b.closeStream.load = 0 := by
  unfold closeStream; split
  · exact load_of_none ‹_›
  · rfl

@[simp] theorem load_discardStream (b : Bridge σ) : b.discardStream.load = 0 := by
  unfold discardStream; split
  · exact load_of_none ‹_›
  · exact load_closeStream _

theorem load_windDownStream_le (b : Bridge σ) : b.windDownStream.1.load ≤ b.load := by
  unfold windDownStream
  split
  · simp
  · next s h =>
    rw [load_of_some h]
    dsimp only
    split
    · simp
    · simpa using Stream.load_disable_le { s with input := [] } .onlyRead

@[simp] theorem load_abandon (b : Bridge σ) : b.abandon.1.load = 0 := by simp [abandon]

/-! ## Forwarding -/

theorem load_afterSending_le (b : Bridge σ) (s : Stream) : (b.afterSending s).1.load ≤ b.load := by
  unfold afterSending
  repeat' split
  all_goals simp

theorem load_queueOutput_le (b : Bridge σ) (data : List UInt8) :
    (b.queueOutput data).1.load ≤ b.load + data.length := by
  unfold queueOutput
  split
  · simp [load]
  · next s h =>
    split
    · simp only [load, h, Stream.load, Option.map_some, Option.getD_some, List.length_append]
      omega
    · simp [load]

@[simp] theorem load_connected (b : Bridge σ) : b.connected.load = b.load := by
  unfold connected; split <;> simp

variable [Sender σ]

theorem load_sendPending_le (b : Bridge σ) : b.sendPending.1.load ≤ b.load := by
  unfold sendPending
  split
  · simp
  · next s h =>
    split
    · exact b.load_windDownStream_le
    · rw [load_of_some h]
      dsimp only
      split
      · refine Nat.le_trans (load_windDownStream_le _) ?_
        rw [load_closeConnection]
        exact Nat.le_refl _
      · exact load_afterSending_le _ _

theorem load_endOutput_le (b : Bridge σ) : b.endOutput.1.load ≤ b.load := by
  unfold endOutput
  split
  · simp
  · next s h =>
    dsimp only
    have kept : (if s.writes then (b.keep (s.disable .onlyWrite)).record .shutdownStream else b).load
        ≤ b.load := by
      split
      · simpa [load_of_some h] using s.load_disable_le .onlyWrite
      · exact Nat.le_refl _
    split
    · exact kept
    · exact Nat.le_trans (load_sendPending_le _) kept

theorem load_outputDrained_le (b : Bridge σ) : b.outputDrained.1.load ≤ b.load := by
  unfold outputDrained
  split
  · simp
  · split
    · exact Nat.le_refl _
    · split
      · exact load_windDownStream_le _
      · dsimp only
        split
        · exact load_endOutput_le (b.record .readDrained)
        · exact Nat.le_refl _

/-! ## Events -/

theorem load_writable_le (b : Bridge σ) : b.writable.1.load ≤ b.load := by
  unfold writable; split
  · exact b.load_sendPending_le
  · exact Nat.le_refl _

theorem load_connectionEnded_le (b : Bridge σ) : b.connectionEnded.1.load ≤ b.load := by
  unfold connectionEnded
  dsimp only
  split
  · exact Nat.le_refl _
  · split
    · exact load_endOutput_le { b with suspended := true }
    · exact Nat.le_refl _

theorem load_onConnection_le (b : Bridge σ) (event : ConnectionEvent) :
    (b.onConnection event).1.load ≤ b.load + event.payload.length := by
  unfold onConnection
  split
  · simp
  · split
    · simp
    · cases event with
      | connected => simpa [ConnectionEvent.payload] using b.connected.load_writable_le
      | writable => exact b.load_writable_le
      | read data => exact b.load_queueOutput_le data
      | eof => exact b.load_connectionEnded_le
      | error => simpa [ConnectionEvent.payload] using b.closeConnection.load_windDownStream_le
      | destroying => simp

theorem load_inputEnded_le (b : Bridge σ) : b.inputEnded.1.load ≤ b.load := by
  unfold inputEnded
  extract_lets b₁ 
  have kept : b₁.load ≤ b.load := by
    simp only [b₁]
    split
    · exact Nat.le_refl _
    · next s h => simpa [load_of_some h] using s.load_disable_le .onlyRead
  split
  · exact Nat.le_trans (load_sendPending_le _) kept
  · refine Nat.le_trans (load_windDownStream_le _) ?_
    split
    · simpa using kept
    · exact kept

theorem load_streamFailed_le (b : Bridge σ) (d : Directions) : (b.streamFailed d).1.load ≤ b.load := by
  unfold streamFailed
  split
  · simp
  · next s h =>
    split
    · extract_lets disabled s₁ _ _ b₁
      have kept : b₁.load ≤ b.load := by
        rw [load_of_some h]
        show s₁.load ≤ s.load
        simp only [s₁]
        split
        · exact Nat.le_trans (Stream.load_with_output_nil_le _) (s.load_disable_le .onlyWrite)
        · exact Nat.le_refl _
      split
      · exact Nat.le_trans (load_endOutput_le _) kept
      · exact kept
    · simp

theorem load_streamEnded_le (b : Bridge σ) (d : Directions) : (b.streamEnded d).1.load ≤ b.load := by
  unfold streamEnded
  split
  · split
    · exact b.load_inputEnded_le
    · exact Nat.le_refl _
  · split
    · simp
    · next s h =>
      extract_lets s₁ b₁ b₂
      split
      · simp
      · have kept : b₂.load ≤ b.load := by
          rw [load_of_some h]
          refine Nat.le_trans ?_ (s.load_disable_le .onlyWrite)
          refine Nat.le_trans ?_ (Stream.load_with_output_nil_le _)
          simp only [b₂]
          split <;> exact Nat.le_refl _
        split
        · exact Nat.le_trans (load_inputEnded_le _) kept
        · exact kept

theorem load_onStream_le (b : Bridge σ) (event : StreamEvent) :
    (b.onStream event).1.load ≤ b.load := by
  unfold onStream
  split
  · simp
  · split
    · simp
    · cases event with
      | readable => exact b.load_sendPending_le
      | drained => exact b.load_outputDrained_le
      | connected => exact Nat.le_refl _
      | eof d => exact b.load_streamEnded_le d
      | error d => exact b.load_streamFailed_le d

end Bridge

end Splice
