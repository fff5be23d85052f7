import Splice.Proofs.Joined.Following

/-!
# From consumer to consumer

Over two bridges back to back, nothing that one consumer writes is lost, doubled or reordered on its way to
the other; the other is told of the end only after everything has arrived; and unless somebody can still
write, end, read or be delivered to, both bridges have finished.
-/

namespace Splice.Joined

variable {config : Side → Config} {done : List Move} {moves : Side → List Splice.Move} {j : Joined} {m : Move}

structure Traced (config : Side → Config) (done : List Move) (moves : Side → List Splice.Move) (j : Joined) :
    Prop where
  follows : ∀ side, Follows (config side) done side (moves side) (j.get side)
  wired : ∀ side, Wired (posted (config side.other) (moves side.other)) (moves side) (j.get side)

namespace Traced

theorem reads_then_end (h : Traced config done moves j) (side : Side) :
    ReadsThenEnd (j.get side).finSent (posted (config side) (moves side)) := by
  have tidy := (Bridge.tidy_new Unlimited.mk {} (config side)).play (moves side)
  have said := carry_readsThenEnd (tidy.sendsThenEnd (Bridge.sealed_play Unlimited.mk (config side) (moves side)))
  rw [(h.follows side).finSent_eq]
  exact said

theorem heard_begins (h : Traced config done moves j) (side : Side) :
    Bridge.heard (moves side) <+: posted (config side.other) (moves side.other) := by
  cases hf : (j.get side).bridge.finished with
  | true => exact ((h.wired side).swallowed hf).2
  | false =>
    rw [← (h.wired side).waiting hf]
    exact List.prefix_append _ _

theorem whole (h : Traced config done moves j) (side : Side) : ∀ m ∈ moves side, m.failsConnection = false := by
  intro m hm
  cases m with
  | stream | hold => rfl
  | connection e =>
    have hmem := (h.heard_begins side).subset (Bridge.mem_heard.mpr hm)
    rcases (h.reads_then_end side.other).reads_or_eof e hmem with ⟨data, rfl⟩ | rfl
    · rfl
    · rfl

theorem quiet (h : Traced config done moves j) (side : Side) : QuietAfterEnd (moves side) := by
  have quiet := (h.reads_then_end side.other).quiet.sublist (h.heard_begins side).sublist
  refine (List.pairwise_filterMap.mp quiet).imp ?_
  rintro earlier later hel rfl
  cases later with
  | stream | hold => rfl
  | connection e =>
    cases e with
    | read data => exact absurd rfl (hel .eof rfl (.read data) rfl rfl data)
    | _ => rfl

theorem atEnd (h : Traced config done moves j) (side : Side) :
    let start := Bridge.new Unlimited.mk {} (config side)
    (start.play (moves side)).AtEnd (start.written (moves side)) (start.accepted (moves side))
      (start.fed (moves side)) (.connection .eof ∈ moves side) (Bridge.InputOver (start.reported (moves side))) :=
  Bridge.atEnd_play (config side) (moves side) (h.follows side).spares (h.whole side)

/-! ## Everything arrives -/

theorem heard_all (h : Traced config done moves j) (side : Side) (hended : .connection .eof ∈ moves side) :
    Bridge.heard (moves side) = posted (config side.other) (moves side.other) :=
  (h.reads_then_end side.other).heard_all (h.heard_begins side) (Bridge.mem_heard.mpr hended)

/-- Nothing on the wire is lost. -/
theorem heard_append_queue (h : Traced config done moves j) (side : Side) :
    Bridge.heard (moves side) ++ (j.get side).queue = posted (config side.other) (moves side.other) := by
  cases hf : (j.get side).bridge.finished with
  | false => exact (h.wired side).waiting hf
  | true =>
    have atEnd := h.atEnd side
    have detached := (atEnd.tidy.finished_iff.mp ((h.follows side).finished_eq.symm.trans hf)).1
    have ended := atEnd.ended_of_suspended (atEnd.parts detached).1
    rw [((h.wired side).swallowed hf).1, List.append_nil]
    exact h.heard_all side ended

theorem payloads_posted (h : Traced config done moves j) (side : Side) :
    payloads (posted (config side) (moves side)) = wrote side done := by
  rw [posted, payloads_carry, ← (h.follows side).fed_eq]
  exact (h.atEnd side).sent_eq

/-- What a consumer has read, what it can read and what is on its way to it make up what the other wrote. -/
theorem conserved (h : Traced config done moves j) (side : Side) :
    (j.get side).received ++ (j.get side).output ++ payloads (j.get side).queue = wrote side.other done := by
  rw [(h.follows side).received_eq, (h.follows side).output_eq, (h.atEnd side).keeps.queued_eq,
    Bridge.accepted_play (config side) (moves side) (h.follows side).spares (h.whole side) (h.quiet side),
    ← payloads_append, h.heard_append_queue, h.payloads_posted]

/-- A consumer is told of the end only when everything has arrived. -/
theorem arrived_of_outputEnded (h : Traced config done moves j) (side : Side)
    (htold : (j.get side).outputEnded = true ∨ (j.get side).bridge.stream = none) :
    .finish side.other ∈ done ∧ (j.get side).received = wrote side.other done := by
  have atEnd := h.atEnd side
  have calls : ((Bridge.new Unlimited.mk {} (config side)).play (moves side)).calls.any endsOutput = true := by
    rcases htold with htold | hnone
    · rw [← (h.follows side).outputEnded_eq]
      exact htold
    · exact atEnd.endsOutput_of_closed ((h.follows side).stream_eq.symm.trans hnone)
  obtain ⟨ended, drained⟩ := atEnd.ended_of_endsOutput calls
  have all := h.heard_all side ended
  refine ⟨?_, ?_⟩
  · have hmem := Bridge.mem_heard.mpr ended
    rw [all] at hmem
    have sent := (h.reads_then_end side.other).finSent_of_mem hmem
    rw [(h.follows side.other).finSent_eq, carry_finSent, Bridge.trace, List.any_reverse, Bool.false_or] at sent
    exact (h.follows side.other).finish_of_over ((h.atEnd side.other).over_of_endsSending sent)
  · have queue : (j.get side).queue = [] := by
      have arrived := h.heard_append_queue side
      rw [← all] at arrived
      exact List.append_right_eq_self.mp arrived
    have conserved := h.conserved side
    rw [(h.follows side).output_eq, drained, queue] at conserved
    simpa [payloads] using conserved

theorem pending_nil (h : Traced config done moves j) (side : Side) : (j.get side).bridge.pending = [] := by
  cases hs : (j.get side).bridge.stream with
  | none => simp [Bridge.pending, hs]
  | some s =>
    rw [Bridge.pending_of_open hs]
    exact (h.atEnd side).prompt.input_nil s ((h.follows side).stream_eq.symm.trans hs)

/-! ## Nobody is left waiting -/

theorem ended_of_endsSending (h : Traced config done moves j) (side : Side) (hqueue : (j.get side).queue = [])
    (hsaid :
      ((Bridge.new Unlimited.mk {} (config side.other)).play (moves side.other)).calls.any endsSending = true) :
    .connection .eof ∈ moves side := by
  have sent : (j.get side.other).finSent = true := by
    rw [(h.follows side.other).finSent_eq, carry_finSent, Bridge.trace, List.any_reverse, Bool.false_or]
    exact hsaid
  have posted := h.reads_then_end side.other
  rw [sent, ← h.heard_append_queue, hqueue, List.append_nil] at posted
  exact Bridge.mem_heard.mp posted.eof_of_finSent

theorem finished_of_idle (h : Traced config done moves j) (hqueue : ∀ side, (j.get side).queue = [])
    (hidle : ∀ side, Bridge.Idle (j.get side).bridge) (side : Side) : (j.get side).bridge.finished = true := by
  have idle : ∀ side, Bridge.Idle ((Bridge.new Unlimited.mk {} (config side)).play (moves side)) := by
    intro side s hs
    exact hidle side s ((h.follows side).stream_eq.trans hs)
  have near := h.atEnd side
  have far := h.atEnd side.other
  rw [(h.follows side).finished_eq]
  by_contra hf
  have noMore := near.over_of_idle (idle side) (by simpa using hf)
  have far_ended : .connection .eof ∈ moves side.other := by
    refine h.ended_of_endsSending side.other (hqueue _) ?_
    rw [Side.other_other]
    exact near.endsSending_of_over noMore
  have far_finished := far.finished_of_idle (idle side.other) far_ended
  have far_detached := (far.tidy.finished_iff.mp far_finished).1
  have near_ended := h.ended_of_endsSending side (hqueue _) (far.endsSending_of_detached far_detached)
  exact hf (near.finished_of_idle (idle side) near_ended)

end Traced

/-! ## Moves -/

theorem traced_new (left right : Config) :
    Traced (fun side => match side with | .left => left | .right => right) [] (fun _ => [.hold consumer])
      ⟨.new left, .new right⟩ := by
  refine ⟨fun side => ?_, fun side => ?_⟩
  · cases side <;> exact follows_new ..
  · cases side <;> exact wired_new ..

theorem Traced.changes {j' : Joined} {lm : Splice.Move} {queue : List ConnectionEvent}
    (h : Traced config done moves j) (makes : Makes (j.get m.side) m.side m lm queue)
    (changes : Changes j j' m.side lm queue) :
    Traced config (done ++ [m]) (fun side => if side = m.side then moves side ++ [lm] else moves side) j' := by
  have other_ne : m.side.other ≠ m.side := m.side.other_ne
  refine ⟨fun side => ?_, fun side => ?_⟩
  · rcases m.side.eq_or_other side with rfl | rfl
    · rw [if_pos rfl, changes.self_eq]
      exact (h.follows m.side).after makes
    · rw [if_neg other_ne, changes.other_eq]
      exact (h.follows m.side.other).hear other_ne.symm _
  · rcases m.side.eq_or_other side with rfl | rfl
    · rw [if_pos rfl, if_neg other_ne, changes.self_eq]
      exact (h.wired m.side).after (h.follows m.side).sound makes
    · rw [if_neg other_ne, Side.other_other, if_pos rfl, changes.other_eq, (h.follows m.side).posted_snoc]
      have wired := h.wired m.side.other
      rw [Side.other_other] at wired
      exact wired.hear _

theorem Traced.move (h : Traced config done moves j) (m : Move) :
    ∃ moves', Traced config (done ++ j.performedBy m) moves' (j.move m) := by
  cases hm : j.move? m with
  | none =>
    refine ⟨moves, ?_⟩
    rw [Joined.move, performedBy, hm]
    simpa using h
  | some j' =>
    obtain ⟨lm, queue, makes, changes⟩ := made_of_move hm
    rw [Joined.move, performedBy, hm]
    exact ⟨_, h.changes makes changes⟩

theorem traced_play (left right : Config) (moves : List Move) :
    let start : Joined := ⟨.new left, .new right⟩
    ∃ config moves', Traced config (start.performed moves) moves' (start.play moves) := by
  intro start
  induction moves using List.reverseRecOn with
  | nil => exact ⟨_, _, traced_new left right⟩
  | append_singleton moves m ih =>
    obtain ⟨config, moves', traced⟩ := ih
    rw [play_snoc, performed_snoc]
    exact ⟨config, traced.move m⟩

/-! ## The main result -/

def Move.isWrite : Move → Bool
  | .write .. => true
  | _ => false

theorem idle_of_stuck (h : ∀ m : Move, m.isWrite = false → j.move? m = none) (side : Side) :
    (j.get side).queue = [] ∧ Bridge.Idle (j.get side).bridge := by
  refine ⟨?_, fun s hs => ⟨?_, fun hw => ?_⟩⟩
  · have deliver := h (.deliver side) rfl
    cases hq : (j.get side).queue with
    | nil => rfl
    | cons => simp [move?, hq] at deliver
  · have finish := h (.finish side) rfl
    by_contra hr
    have hr : s.enabled.read = true := by simpa using hr
    simp [move?, hs, hr] at finish
  · have take := h (.take side 1) rfl
    by_contra ho
    rw [Stream.writes_eq] at hw
    simp [move?, hs, hw, ho] at take

/-- In every interleaving of what the two consumers and the wire do: no byte is lost, doubled or reordered,
neither consumer is told of the end before it has read everything, and as long as a bridge has not finished,
somebody can end its writing, read or be delivered to. -/
theorem delivered_end_to_end (left right : Config) (moves : List Move) :
    let start : Joined := ⟨.new left, .new right⟩
    let j := start.play moves
    let done := start.performed moves
    (∀ near : Side,
      let far := j.get near.other
      far.received ++ far.output ++ payloads far.queue ++ (j.get near).bridge.pending = wrote near done ∧
      (far.outputEnded = true ∨ far.bridge.stream = none →
        .finish near ∈ done ∧ far.received = wrote near done)) ∧
    ((∀ m : Move, m.isWrite = false → j.move? m = none) → ∀ side, (j.get side).bridge.finished = true) := by
  intro start j done
  obtain ⟨config, moves', traced⟩ := traced_play left right moves
  refine ⟨fun near => ⟨?_, fun told => ?_⟩, fun stuck => ?_⟩
  · rw [traced.pending_nil near, List.append_nil, traced.conserved near.other, Side.other_other]
  · have arrived := traced.arrived_of_outputEnded near.other told
    rw [Side.other_other] at arrived
    exact arrived
  · exact traced.finished_of_idle (fun side => (idle_of_stuck stuck side).1)
      (fun side => (idle_of_stuck stuck side).2)

/-- The right consumer reads slowly: first with a byte on the wire, then with the end deferred behind its
output, and at last to the end, which the left consumer has brought about. -/
theorem delivered_end_to_end_slowly :
    let writes : List Move := [.write .left [1, 2], .deliver .right, .take .right 1, .write .left [3]]
    let ends : List Move := [.finish .left, .deliver .right, .deliver .right, .take .right 9]
    let start : Joined := ⟨.new {}, .new { maxChunk := 1 }⟩
    let j := start.play (writes ++ ends)
    (start.play writes).right.queue = [.read [3]] ∧ (start.play writes).right.output = [2] ∧
      (start.play writes).right.received ++ [2] ++ [3] = wrote .left (start.performed writes) ∧
      j.right.outputEnded = true ∧ j.right.received = wrote .left (start.performed (writes ++ ends)) ∧
      j.right.received = [1, 2, 3] ∧ j.left.bridge.finished = false := by
  intro writes ends start j
  have queue : (start.play writes).right.queue = [.read [3]] := by decide +kernel
  have output : (start.play writes).right.output = [2] := by decide +kernel
  have nothing : (start.play writes).left.bridge.pending = [] := by decide +kernel
  have told : j.right.outputEnded = true := by decide +kernel
  have flight := ((delivered_end_to_end {} { maxChunk := 1 } writes).1 .left).1
  have arrived := ((delivered_end_to_end {} { maxChunk := 1 } (writes ++ ends)).1 .left).2 (.inl told)
  refine ⟨queue, output, ?_, told, arrived.2, by decide +kernel, by decide +kernel⟩
  simp only [Side.other, get] at flight
  rw [queue, output, nothing, List.append_nil] at flight
  exact flight

end Splice.Joined
