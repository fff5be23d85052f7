import Splice.Bridge.Closing

/-!
# Forwarding

Stream input goes to the connection in chunks, and what the connection refuses waits for it to become
writable. Connection data goes to the output of the stream, or is dropped if the stream is not written.
-/

namespace Splice.Bridge

variable {σ : Type} [Sender σ]

/-! ## To the connection -/

structure Offered (σ : Type) where
  sender : σ
  rest : List UInt8
  /-- The count of earlier, increased by the bytes taken. -/
  count : UInt64
  failed : Bool
  /-- The sends, the latest first, before the calls of earlier. -/
  calls : List Call

/-- Offers chunk after chunk until nothing is left, nothing is taken or a send fails. -/
def offer (chunk : Nat) (sender : σ) (input : List UInt8) (count : UInt64) (calls : List Call) :
    Offered σ :=
  if input = [] then ⟨sender, input, count, false, calls⟩
  else
    let offered := input.take chunk
    let (answer, sender) := Sender.send sender offered
    let calls := .send offered answer :: calls
    match answer with
    | .failed => ⟨sender, input, count, true, calls⟩
    | .accepted n =>
      let taken := min n offered.length
      if taken = 0 then ⟨sender, input, count, false, calls⟩
      else offer chunk sender (input.drop taken) (count + taken.toUInt64) calls
termination_by input.length
decreasing_by
  have : 0 < input.length := List.length_pos_iff.2 ‹_›
  have : min n (input.take chunk).length ≠ 0 := ‹¬taken = 0›
  rw [List.length_drop]
  omega

/-- Goes on once the pending input has been offered: a stream that will give no more input ends the
sending half, or both sides if it is not written either. -/
def afterSending (b : Bridge σ) (s : Stream) : Bridge σ × Status :=
  if s.reads || !s.input.isEmpty then (b, .active)
  else if s.writes then (b.record (.shutdown .transmit), .active)
  else if s.output.isEmpty then b.closeConnection.closeStream.conclude
  else b.closeConnection.discardStream.conclude

def sendPending (b : Bridge σ) : Bridge σ × Status :=
  match b.stream with
  | none => b.conclude
  | some s =>
    if !b.attached then b.windDownStream
    else
      let o := offer b.maxChunk b.sender s.input b.stats.bytesToConnection b.calls
      let s := { s with input := o.rest }
      let stats := { b.stats with bytesToConnection := o.count }
      let b := { b with sender := o.sender, stream := some s, stats, calls := o.calls }
      if o.failed then b.closeConnection.windDownStream else b.afterSending s

/-! ## To the stream -/

def queueOutput (b : Bridge σ) (data : List UInt8) : Bridge σ × Status :=
  let dropped :=
    { b with stats.bytesDropped := b.stats.bytesDropped + data.length.toUInt64 }
  match b.stream with
  | none => (dropped, .active)
  | some s =>
    if s.writes then
      ({ b with
          stream := some { s with output := s.output ++ data }
          stats.bytesToStream := b.stats.bytesToStream + data.length.toUInt64 }, .active)
    else (dropped, .active)

/-- Stops writing to the stream; goes on as if sending if it is not read either. -/
def endOutput (b : Bridge σ) : Bridge σ × Status :=
  match b.stream with
  | none => b.conclude
  | some s =>
    let b := if s.writes then (b.keep (s.disable .onlyWrite)).record .shutdownStream else b
    if s.reads then (b, .active) else b.sendPending

def outputDrained (b : Bridge σ) : Bridge σ × Status :=
  match b.stream with
  | none => b.conclude
  | some s =>
    if !s.output.isEmpty then (b, .active)
    else if !b.attached then b.windDownStream
    else
      let b := b.record .readDrained
      if b.suspended && s.writes then b.endOutput else (b, .active)

end Splice.Bridge
