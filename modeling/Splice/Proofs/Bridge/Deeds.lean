import Splice.Proofs.Bridge.Run
import Mathlib.Logic.Relation

/-!
# What a bridge does in a reaction

A reaction to an event is a series of deeds: single sends, calls, changes of the stream and closings, each
possible only in some states. `react_reacts` shows this of every reaction of a sound bridge, so that a
property kept by each deed is kept by every reaction.
-/

namespace Splice

namespace Directions

theorem sdiff_both_sdiff_subset (d e : Directions) : d \ (both \ e) ⊆ e := by
  constructor <;> simp [both]

theorem sdiff_sdiff_subset (d e : Directions) : (d \ (onlyRead \ e)) \ (onlyWrite \ e) ⊆ e := by
  constructor <;> simp +contextual [onlyRead, onlyWrite]

theorem none_subset (d : Directions) : none ⊆ d := by
  constructor <;> simp [none]

theorem eq_none_iff (d : Directions) : d = none ↔ d.read = false ∧ d.write = false := by
  rcases d with ⟨_ | _, _ | _⟩ <;> decide

theorem subset_none_iff (d : Directions) : d ⊆ none ↔ d = none := by
  rcases d with ⟨_ | _, _ | _⟩ <;> decide

@[simp] theorem isEmpty_iff (d : Directions) : d.isEmpty = true ↔ d = none := by
  rcases d with ⟨_ | _, _ | _⟩ <;> decide

end Directions

namespace Event

def endsInput : Event → Bool
  | .stream (.eof d) => d.contains .onlyRead
  | _ => false

/-- The stream fails, or says that it takes no more output. -/
def losesOutput : Event → Bool
  | .stream (.error _) => true
  | .stream (.eof d) => d.contains .onlyWrite
  | _ => false

end Event

namespace Bridge

variable {σ : Type}

/-! ## Fields -/

@[simp] theorem keep_stream (b : Bridge σ) (s : Stream) : (b.keep s).stream = some s := rfl
@[simp] theorem keep_attached (b : Bridge σ) (s : Stream) : (b.keep s).attached = b.attached := rfl
@[simp] theorem keep_suspended (b : Bridge σ) (s : Stream) : (b.keep s).suspended = b.suspended := rfl
@[simp] theorem keep_finished (b : Bridge σ) (s : Stream) : (b.keep s).finished = b.finished := rfl
@[simp] theorem keep_stats (b : Bridge σ) (s : Stream) : (b.keep s).stats = b.stats := rfl
@[simp] theorem keep_calls (b : Bridge σ) (s : Stream) : (b.keep s).calls = b.calls := rfl

@[simp] theorem record_stream (b : Bridge σ) (c : Call) : (b.record c).stream = b.stream := rfl
@[simp] theorem record_attached (b : Bridge σ) (c : Call) : (b.record c).attached = b.attached := rfl
@[simp] theorem record_suspended (b : Bridge σ) (c : Call) : (b.record c).suspended = b.suspended := rfl
@[simp] theorem record_finished (b : Bridge σ) (c : Call) : (b.record c).finished = b.finished := rfl
@[simp] theorem record_stats (b : Bridge σ) (c : Call) : (b.record c).stats = b.stats := rfl
@[simp] theorem record_calls (b : Bridge σ) (c : Call) : (b.record c).calls = c :: b.calls := rfl

theorem keep_self {b : Bridge σ} {s : Stream} (h : b.stream = some s) : b.keep s = b := by
  rcases b with ⟨_, _, _, _⟩
  subst h
  rfl

def releases (b : Bridge σ) : List Call := b.peer.toList.map .peerReleased

/-- The calls by which the held peer is told that the connection is up, and let go. -/
def announces (b : Bridge σ) : List Call := b.peer.toList.flatMap fun p => [.peerReleased p, .peerConnected p]

theorem releasePeer_eq (b : Bridge σ) :
    b.releasePeer = { b with peer := none, calls := b.releases ++ b.calls } := by
  rcases b with ⟨_, _, _, _ | _⟩ <;> rfl

theorem connected_eq (b : Bridge σ) :
    b.connected = { b with peer := none, calls := b.announces ++ b.calls } := by
  rcases b with ⟨_, _, _, _ | _⟩ <;> rfl

theorem closeConnection_eq {b : Bridge σ} (h : b.attached = true) :
    b.closeConnection =
      { b with attached := false, peer := none, calls := b.releases ++ .closeConnection :: b.calls } := by
  simp [closeConnection, h, releasePeer_eq, releases, record]

@[simp] theorem closeConnection_stream (b : Bridge σ) : b.closeConnection.stream = b.stream := by
  simp only [closeConnection, releasePeer_eq]
  split <;> rfl

@[simp] theorem closeConnection_attached (b : Bridge σ) : b.closeConnection.attached = false := by
  by_cases h : b.attached = true <;> simp [closeConnection, releasePeer_eq, countViolation, h]

@[simp] theorem closeConnection_finished (b : Bridge σ) : b.closeConnection.finished = b.finished := by
  simp only [closeConnection, releasePeer_eq]
  split <;> rfl

theorem queueOutput_of_writes {b : Bridge σ} {s : Stream} (data : List UInt8) (hs : b.stream = some s)
    (hw : s.writes = true) :
    b.queueOutput data =
      ({ b with
          stream := some { s with output := s.output ++ data }
          stats.bytesToStream := b.stats.bytesToStream + data.length.toUInt64 }, .active) := by
  simp only [queueOutput, hs, hw, if_true]

theorem queueOutput_of_not_writes {b : Bridge σ} {s : Stream} (data : List UInt8) (hs : b.stream = some s)
    (hw : s.writes = false) :
    b.queueOutput data =
      ({ b with stats.bytesDropped := b.stats.bytesDropped + data.length.toUInt64 }, .active) := by
  simp only [queueOutput, hs, hw, Bool.false_eq_true, if_false]

theorem conclude_of_open {b : Bridge σ} {s : Stream} (h : b.stream = some s) :
    b.conclude = (b, .active) := by
  simp [conclude, h]

/-- Closing a stream of which only the directions that it cannot give up are left. -/
theorem closeStream_conclude {b : Bridge σ} {s : Stream} (ha : b.attached = false) (hs : b.stream = some s)
    (hi : s.input = []) (ho : s.output = []) (he : s.enabled ⊆ s.sticky) :
    b.closeStream.conclude =
      ({ b with
          stream := none
          finished := true
          stats := if s.enabled = .none then b.stats else b.countViolation.stats
          calls := .closeStream s.enabled 0 0 :: b.calls }, .finished) := by
  have forced : s.enabled \ (Directions.both \ s.sticky) = s.enabled := by
    rcases s with ⟨⟨r, w⟩, _, _, ⟨sr, sw⟩⟩
    obtain ⟨hr, hw⟩ := he
    show Directions.mk _ _ = _
    simp only [Directions.both, Directions.mk.injEq] at *
    cases r <;> cases w <;> simp_all
  by_cases h : s.enabled = .none <;>
    simp [closeStream, hs, Stream.isQuiet, h, hi, ho, conclude, record, countViolation, ha, Stream.disable, forced]

/-- A bridge holds its stream at least as long as its connection, and is finished once both are gone. -/
structure Sound (b : Bridge σ) : Prop where
  open_of_attached : b.attached = true → b.stream.isSome = true
  finished_iff : b.finished = true ↔ b.attached = false ∧ b.stream = none

namespace Sound

theorem stream_of_attached {b : Bridge σ} (h : b.Sound) (ha : b.attached = true) : ∃ s, b.stream = some s :=
  Option.isSome_iff_exists.mp (h.open_of_attached ha)

theorem finished_of_open {b : Bridge σ} {s : Stream} (h : b.Sound) (hs : b.stream = some s) : b.finished = false := by
  rw [← Bool.not_eq_true, h.finished_iff]
  simp [hs]

theorem conclude_eq {b : Bridge σ} (h : b.Sound) (hf : b.finished = false) : b.conclude = (b, .active) := by
  unfold conclude
  split
  · rfl
  next hgone =>
  have gone : b.attached = false ∧ b.stream = none := by simpa using hgone
  rw [← h.finished_iff, hf] at gone
  cases gone

end Sound

/-! ## Deeds -/

/-- How a stream may be changed by its bridge; all but the first two are steps towards closing it. -/
inductive Adjusts (event : Event) (attached : Bool) (s : Stream) : Stream → Prop
  | stopReading : event.endsInput → Adjusts event attached s (s.disable .onlyRead)
  | loseOutput : event.losesOutput → Adjusts event attached s { s.disable .onlyWrite with output := [] }
  | stopWriting : event.losesOutput ∨ attached = false ∧ s.output = [] →
      Adjusts event attached s (s.disable .onlyWrite)
  | dropInput : attached = false → Adjusts event attached s ({ s with input := [] }.disable .onlyRead)
  | discard : attached = false → event.losesOutput ∨ s.writes = false →
      Adjusts event attached s ({ s with input := [], output := [] }.disable .both)

/-- What the attached connection may be told, apart from sends. -/
inductive Tells (event : Event) (s : Stream) : Call → Prop
  | acknowledge : s.output = [] → Tells event s .readDrained
  | endSending : s.reads = false → s.input = [] → Tells event s (.shutdown .transmit)
  | endReceiving : event.losesOutput → Tells event s (.shutdown .receive)

variable [Sender σ]

def sendChunk (b : Bridge σ) (s : Stream) : Bridge σ :=
  let offered := s.input.take b.maxChunk
  let answered := Sender.send b.sender offered
  let taken := (answered.1.taken offered).length
  { b with
    sender := answered.2
    stream := some { s with input := s.input.drop taken }
    stats := { b.stats with bytesToConnection := b.stats.bytesToConnection + taken.toUInt64 }
    calls := .send offered answered.1 :: b.calls }

/-- One thing done in the reaction to an event. -/
inductive Deed (event : Event) : Bridge σ → Bridge σ → Prop
  | send {b s} : b.attached = true → b.stream = some s → s.input ≠ [] → Deed event b (b.sendChunk s)
  | tell {b s call} : b.attached = true → b.stream = some s → Tells event s call → Deed event b (b.record call)
  | suspend {b} : b.attached = true → event = .connection .eof ∨ event.losesOutput →
      Deed event b { b with suspended := true }
  | announce {b} : b.attached = true → event = .connection .connected → Deed event b b.connected
  | receive {b data} : b.attached = true → event = .connection (.read data) →
      Deed event b (b.queueOutput data).1
  | endOutput {b s} : b.attached = true → b.suspended = true → b.stream = some s → s.output = [] →
      s.writes = true → Deed event b ((b.keep (s.disable .onlyWrite)).record .shutdownStream)
  | adjust {b s s'} : b.stream = some s → Adjusts event b.attached s s' → Deed event b (b.keep s')
  | closeConnection {b s} : b.attached = true → b.stream = some s → Deed event b b.closeConnection
  | closeStream {b s} : b.attached = false → b.stream = some s → s.input = [] → s.output = [] →
      s.enabled ⊆ s.sticky → Deed event b b.closeStream.conclude.1

abbrev Deeds (event : Event) : Bridge σ → Bridge σ → Prop := Relation.ReflTransGen (Deed event)

theorem Deeds.preserves {event : Event} {P : Bridge σ → Prop} {b b' : Bridge σ} (h : Deeds event b b')
    (deed : ∀ {c c'}, Deed event c c' → P c → P c') (start : P b) : P b' := by
  induction h with
  | refl => exact start
  | tail _ d ih => exact deed d ih

end Bridge

end Splice
