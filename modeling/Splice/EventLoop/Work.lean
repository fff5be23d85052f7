import Splice.Bridge.Load
import Splice.EventLoop.Basic
import Splice.Socket.Pair

/-!
# Work waiting for a loop

Over a pair of sockets everything that a loop can do without anything new from outside uses up something:
an event, a byte on its way, or a direction that was enabled. Main statements: a turn of the events and a
turn of a ready socket leave less work than they found.
-/

namespace Splice.EventLoop

variable {σ : Type}

def queueWork : List ConnectionEvent → Nat
  | [] => 0
  | event :: queue => 1 + event.payload.length + queueWork queue

def socketWork (socket : Option Pair) : Nat := (socket.map fun p => p.toNear.length).getD 0

/-- What is waiting to be done: events, the noticing of the last handle, output, enabled directions and
bytes on their way to the near end. -/
def work (l : EventLoop σ Pair) : Nat :=
  queueWork l.queue + l.listening.toNat + l.bridge.load + socketWork l.socket

@[simp] theorem socketWork_some (p : Pair) : socketWork (some p) = p.toNear.length := rfl

@[simp] theorem queueWork_cons (event : ConnectionEvent) (queue : List ConnectionEvent) :
    queueWork (event :: queue) = 1 + event.payload.length + queueWork queue := rfl

/-! ## Calls add none -/

theorem toNear_applyCall_le (p : Pair) (call : Call) :
    (applyCall p call).toNear.length ≤ p.toNear.length := by
  cases call with
  | closeStream =>
    show (Pair.close p).toNear.length ≤ _
    unfold Pair.close
    split <;> simp
  | _ => exact Nat.le_refl _

theorem toNear_foldl_applyCall_le (p : Pair) (calls : List Call) :
    (calls.foldl applyCall p).toNear.length ≤ p.toNear.length := by
  induction calls generalizing p with
  | nil => exact Nat.le_refl _
  | cons call calls ih => exact Nat.le_trans (ih _) (toNear_applyCall_le p call)

theorem socketWork_map_applyCall_le (socket : Option Pair) (calls : List Call) :
    socketWork (socket.map fun p => calls.foldl applyCall p) ≤ socketWork socket := by
  cases socket with
  | none => exact Nat.le_refl _
  | some p => exact toNear_foldl_applyCall_le p calls

theorem work_absorb_le (l : EventLoop σ Pair) (reaction : Bridge σ × Status) :
    (l.absorb reaction).work
      ≤ queueWork l.queue + l.listening.toNat + reaction.1.load + socketWork l.socket := by
  unfold absorb
  extract_lets ended
  have load : ((if ended then reaction.1.drop else reaction.1).collect).2.load = reaction.1.load := by
    split
    · exact reaction.1.load_releasePeer
    · rfl
  simp only [work, load]
  exact Nat.add_le_add_left (socketWork_map_applyCall_le ..) _

/-! ## Reading and writing use up work -/

def bufferedWork (b : Buffered Pair) : Nat := b.stream.load + socketWork b.socket

theorem load_withdraw_read_lt {s : Stream} (h : s.reads) : (s.withdraw .onlyRead).load < s.load := by
  rcases s with ⟨⟨_ | _, _ | _⟩, input, output, sticky⟩ <;> simp at h <;>
    simp [Stream.load, Stream.withdraw, Directions.onlyRead]

theorem load_withdraw_write_lt {s : Stream} (h : s.writes) : (s.withdraw .onlyWrite).load < s.load := by
  rcases s with ⟨⟨_ | _, _ | _⟩, input, output, sticky⟩ <;> simp at h <;>
    simp [Stream.load, Stream.withdraw, Directions.onlyWrite]

theorem attemptRead_work_lt {b : Buffered Pair} {p : Pair} (hsocket : b.socket = some p)
    (hwants : b.wantsRead) (hready : p.readiness.readable) :
    bufferedWork b.attemptRead.after < bufferedWork b := by
  simp only [Buffered.wantsRead, Bool.and_eq_true] at hwants
  have withdrawn := load_withdraw_read_lt hwants.1
  simp only [bufferedWork, Buffered.attemptRead, hsocket, socketWork_some, Socket.read, Pair.read]
  by_cases hqueued : p.toNear = []
  · by_cases hreset : p.nearReset
    · simpa [hqueued, hreset, Buffered.mapStream] using withdrawn
    · have hover : p.farClosed || p.farWriteShut := by
        simpa [Pair.readiness, hqueued, hreset] using hready
      simpa [hqueued, hreset, hover, Buffered.mapStream] using withdrawn
  · have capacity := b.limits.one_le_readCapacity
    have queued := List.length_pos_iff.2 hqueued
    have shorter : (p.toNear.drop b.limits.readCapacity).length < p.toNear.length := by
      rw [List.length_drop]; omega
    rw [if_pos hqueued]
    cases htaken : p.toNear.take b.limits.readCapacity with
    | nil =>
      have := congrArg List.length htaken
      rw [List.length_take, List.length_nil] at this
      omega
    | cons byte block => exact Nat.add_lt_add_left shorter _

theorem toNear_write (p : Pair) (data : List UInt8) : (p.write data).2.toNear = p.toNear := by
  unfold Pair.write Pair.accept
  repeat' split
  all_goals rfl

theorem write_ne_wouldBlock {p : Pair} (h : p.readiness.writable) (data : List UInt8) :
    (p.write data).1 ≠ .wouldBlock := by
  unfold Pair.write Pair.accept
  repeat' split
  all_goals simp_all [Pair.readiness]

theorem load_drop_output_le (s : Stream) (n : Nat) :
    Stream.load { s with output := s.output.drop n } ≤ s.load := by
  simp [Stream.load]

theorem load_drop_output_lt {s : Stream} {n : Nat} (hn : n ≠ 0) (houtput : s.output ≠ []) :
    Stream.load { s with output := s.output.drop n } < s.load := by
  have := List.length_pos_iff.2 houtput
  simp only [Stream.load, List.length_drop]
  omega

theorem attemptWrite_work_le (b : Buffered Pair) :
    bufferedWork b.attemptWrite.after ≤ bufferedWork b := by
  unfold Buffered.attemptWrite
  split
  · exact Nat.le_refl _
  · next p hsocket =>
    have withdrawn := b.stream.load_withdraw_le .onlyWrite
    have taken := load_drop_output_le b.stream
    simp only [bufferedWork, hsocket, socketWork_some, Socket.write, Buffered.mapStream]
    split
    all_goals simp [toNear_write, withdrawn, taken]

theorem attemptWrite_work_lt {b : Buffered Pair} {p : Pair} (hsocket : b.socket = some p)
    (hwants : b.wantsWrite) (hready : p.readiness.writable) :
    bufferedWork b.attemptWrite.after < bufferedWork b := by
  simp only [Buffered.wantsWrite, Bool.and_eq_true, Bool.not_eq_true', List.isEmpty_eq_false_iff]
    at hwants
  have withdrawn := load_withdraw_write_lt hwants.1
  have passed := write_ne_wouldBlock hready b.stream.output
  simp only [Buffered.attemptWrite, bufferedWork, hsocket, socketWork_some, Socket.write,
    Buffered.mapStream]
  split
  all_goals simp only [toNear_write, socketWork_some, Nat.add_lt_add_iff_right]
  · exact withdrawn
  · exact load_drop_output_lt ‹_› hwants.2
  · contradiction
  · exact withdrawn
  · exact withdrawn

theorem serve_work_lt {b : Buffered Pair} {p : Pair} (hsocket : b.socket = some p)
    (h : b.wantsRead && p.readiness.readable || b.wantsWrite && p.readiness.writable) :
    bufferedWork (b.serve p.readiness).1 < bufferedWork b := by
  unfold Buffered.serve
  extract_lets reading writing
  by_cases hread : b.wantsRead && p.readiness.readable
  · have first : bufferedWork reading.after < bufferedWork b := by
      simp only [Bool.and_eq_true] at hread
      simpa [reading, hread] using attemptRead_work_lt hsocket hread.1 hread.2
    split
    · exact first
    · refine Nat.lt_of_le_of_lt ?_ first
      simp only [writing]
      split
      · exact attemptWrite_work_le _
      · exact Nat.le_refl _
  · have hwrite : b.wantsWrite && p.readiness.writable := by simp_all
    have first : reading = { after := b } := by
      have : p.readiness.readClosed = false := rfl
      simp_all [reading]
    simp only [Bool.and_eq_true] at hwrite
    simpa [writing, first, hwrite, Buffered.endsReading] using
      attemptWrite_work_lt hsocket hwrite.1 hwrite.2

/-! ## Turns -/

theorem bufferedWork_eq {l : EventLoop σ Pair} {b : Buffered Pair} (h : l.buffered? = some b) :
    bufferedWork b = l.bridge.load + socketWork l.socket := by
  obtain ⟨stream, hstream, rfl⟩ := Option.map_eq_some_iff.1 h
  rw [Bridge.load_of_some hstream]
  rfl

variable [Sender σ]

theorem deliver_work_le (limit : Nat) (b : Bridge σ) (queue : List ConnectionEvent) :
    (deliver limit b queue).1.1.load + queueWork (deliver limit b queue).2
      ≤ b.load + queueWork queue := by
  fun_induction deliver limit b queue with
  | case1 | case2 => exact Nat.le_refl _
  | case3 b limit event queue reaction =>
    have : reaction.1.load ≤ _ := b.load_onConnection_le event
    rw [queueWork_cons]; dsimp only; omega
  | case4 b limit event queue reaction _ ih =>
    have : reaction.1.load ≤ _ := b.load_onConnection_le event
    rw [queueWork_cons]; omega

theorem deliver_batch_work_lt (b : Bridge σ) {queue : List ConnectionEvent} (h : queue ≠ []) :
    (deliver batchSize b queue).1.1.load + queueWork (deliver batchSize b queue).2
      < b.load + queueWork queue := by
  obtain ⟨limit, hlimit⟩ := Nat.exists_eq_add_one_of_ne_zero (show batchSize ≠ 0 by decide)
  obtain ⟨event, queue, rfl⟩ := List.exists_cons_of_ne_nil h
  have first := b.load_onConnection_le event
  have rest := deliver_work_le limit (b.onConnection event).1 queue
  rw [hlimit, deliver, queueWork_cons]
  split
  · dsimp only; omega
  · omega

theorem load_deliverStream_le (b : Bridge σ) (events : List StreamEvent) :
    (deliverStream b events).1.load ≤ b.load := by
  fun_induction deliverStream b events with
  | case1 => exact Nat.le_refl _
  | case2 b event _ reaction => exact b.load_onStream_le event
  | case3 b event _ reaction _ ih => exact Nat.le_trans ih (b.load_onStream_le event)

theorem work_absorbStream_le (l : EventLoop σ Pair) (result : Buffered Pair × List StreamEvent) :
    (l.absorbStream result).work ≤ queueWork l.queue + l.listening.toNat + bufferedWork result.1 := by
  have := load_deliverStream_le (l.bridge.keep result.1.stream) result.2
  have := work_absorb_le { l with socket := result.1.socket }
    (deliverStream (l.bridge.keep result.1.stream) result.2)
  simp only [Bridge.load_keep] at *
  unfold absorbStream bufferedWork
  omega

theorem work_takeEvents_lt {l : EventLoop σ Pair} (h : l.possible .events) :
    l.takeEvents.work < l.work := by
  simp only [possible, Bool.and_eq_true] at h
  have listening : l.listening.toNat = 1 := by simp [h.1.2]
  unfold takeEvents
  split
  · have reset := l.bridge.load_onConnection_le (.error .reset)
    have absorbed := work_absorb_le { l with listening := false } (l.bridge.onConnection (.error .reset))
    simp only [ConnectionEvent.payload, List.length_nil, Bool.toNat_false] at reset absorbed
    dsimp only
    split
    · simp only [work] at *; omega
    · simp only [work, Bool.toNat_false]; omega
  · next hqueue =>
    have delivered := deliver_batch_work_lt l.bridge (by simpa using hqueue)
    have absorbed := work_absorb_le
      { l with queue := (deliver batchSize l.bridge l.queue).2 } (deliver batchSize l.bridge l.queue).1
    simp only [work] at *
    omega

end Splice.EventLoop
