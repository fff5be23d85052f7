import Splice.Proofs.Bridge.Collecting
import Splice.Proofs.Joined.Ends

/-!
# Two ends of a wire

Each move of two joined bridges is a move of one of them, and at the other it only adds to the events on
their way. So each end follows a run of its own bridge, and what one end has heard is a beginning of what
the calls of the other have put on the wire.
-/

namespace Splice.Joined

/-! ## Runs -/

def Move.side : Move → Side
  | .write side _ | .finish side | .take side _ | .deliver side => side

def Move.bytes (side : Side) : Move → List UInt8
  | .write s data => if s = side then data else []
  | _ => []

def play (j : Joined) (moves : List Move) : Joined := moves.foldl move j

def performedBy (j : Joined) (m : Move) : List Move := if (j.move? m).isSome then [m] else []

def performed (j : Joined) (moves : List Move) : List Move := Run.gather move performedBy j moves

def wrote (side : Side) (moves : List Move) : List UInt8 := moves.flatMap (Move.bytes side)

theorem play_snoc (j : Joined) (moves : List Move) (m : Move) : j.play (moves ++ [m]) = (j.play moves).move m := by
  simp [play]

theorem performed_snoc (j : Joined) (moves : List Move) (m : Move) :
    j.performed (moves ++ [m]) = j.performed moves ++ (j.play moves).performedBy m :=
  Run.gather_snoc ..

theorem wrote_snoc (side : Side) (moves : List Move) (m : Move) :
    wrote side (moves ++ [m]) = wrote side moves ++ m.bytes side := by
  simp [wrote]

theorem Move.bytes_of_side_ne {side : Side} {m : Move} (h : m.side ≠ side) : m.bytes side = [] := by
  cases m with
  | write s data => exact if_neg h
  | _ => rfl

/-! ## Sides -/

theorem Side.eq_or_other (side s : Side) : s = side ∨ s = side.other := by
  cases side <;> cases s <;> decide

theorem Side.other_ne (side : Side) : side.other ≠ side := by cases side <;> decide

@[simp] theorem Side.other_other (side : Side) : side.other.other = side := by cases side <;> rfl

@[simp] theorem get_set_self (j : Joined) (side : Side) (e : End) : (j.set side e).get side = e := by
  cases side <;> rfl

@[simp] theorem get_set_other (j : Joined) (side : Side) (e : End) :
    (j.set side e).get side.other = j.get side.other := by
  cases side <;> rfl

/-! ## One move -/

def End.hear (e : End) (events : List ConnectionEvent) : End :=
  if e.bridge.finished then e else { e with queue := e.queue ++ events }

def End.react (e : End) (b : Bridge Unlimited) : End :=
  { e with
    bridge := b.collected
    finSent := (carry e.finSent b.trace).2
    queue := if b.finished then [] else e.queue
    outputEnded := e.outputEnded || b.trace.any endsOutput
    link := e.link.after consumer b.trace }

theorem get_post_self (j : Joined) (side : Side) (events : List ConnectionEvent) :
    (j.post side events).get side = (j.get side).hear events := by
  unfold post End.hear
  dsimp only
  split
  · rfl
  · exact get_set_self ..

theorem get_post_other (j : Joined) (side : Side) (events : List ConnectionEvent) :
    (j.post side.other events).get side = j.get side := by
  unfold post
  dsimp only
  split
  · rfl
  · have kept := get_set_other j side.other { j.get side.other with queue := (j.get side.other).queue ++ events }
    rwa [Side.other_other] at kept

theorem get_absorb_self (j : Joined) (side : Side) (e : End) (reaction : Bridge Unlimited × Status) :
    (j.absorb side e reaction).get side = e.react reaction.1 := by
  unfold absorb
  exact (get_post_other _ _ _).trans (get_set_self ..)

theorem get_absorb_other (j : Joined) (side : Side) (e : End) (reaction : Bridge Unlimited × Status) :
    (j.absorb side e reaction).get side.other =
      (j.get side.other).hear (carry e.finSent reaction.1.trace).1 := by
  unfold absorb
  exact (get_post_self _ _ _).trans (congrArg (End.hear · _) (get_set_other ..))

/-- A move that is possible at an end, as a move of its bridge, with the events that wait afterwards. -/
inductive Makes (e : End) (side : Side) : Move → Splice.Move → List ConnectionEvent → Prop
  | write {data s} : data ≠ [] → e.bridge.stream = some s → s.reads = true →
      Makes e side (.write side data) (.stream (.feed data)) e.queue
  | finish {s} : e.bridge.stream = some s → s.reads = true →
      Makes e side (.finish side) (.stream (.finish .onlyRead)) e.queue
  | take {n s} : e.bridge.stream = some s → s.writes = true → s.output ≠ [] → n ≠ 0 →
      Makes e side (.take side n) (.stream (.take n)) e.queue
  | deliver {event queue} : e.queue = event :: queue → Makes e side (.deliver side) (.connection event) queue

def End.after (e : End) (m : Splice.Move) (queue : List ConnectionEvent) : End :=
  { e with queue, received := e.received ++ e.bridge.writtenBy m }.react (e.bridge.move m)

structure Changes (j j' : Joined) (side : Side) (m : Splice.Move) (queue : List ConnectionEvent) : Prop where
  self_eq : j'.get side = (j.get side).after m queue
  other_eq : j'.get side.other =
    (j.get side.other).hear (carry (j.get side).finSent ((j.get side).bridge.move m).trace).1

theorem changes_of_absorb {j : Joined} {side : Side} {m : Splice.Move} {queue : List ConnectionEvent} {e : End}
    {reaction : Bridge Unlimited × Status}
    (he : e = { j.get side with queue, received := (j.get side).received ++ (j.get side).bridge.writtenBy m })
    (hr : reaction.1 = (j.get side).bridge.move m) : Changes j (j.absorb side e reaction) side m queue := by
  subst he
  refine ⟨?_, ?_⟩
  · rw [get_absorb_self, hr]
    rfl
  · rw [get_absorb_other, hr]

theorem End.reads_nothing (e : End) {m : Splice.Move} (h : e.bridge.writtenBy m = []) :
    e = { e with queue := e.queue, received := e.received ++ e.bridge.writtenBy m } := by
  rw [h, List.append_nil]

def Made (j j' : Joined) (m : Move) : Prop :=
  ∃ lm queue, Makes (j.get m.side) m.side m lm queue ∧ Changes j j' m.side lm queue

section Moves

variable {j j' : Joined} {side : Side}

theorem made_of_write {data : List UInt8} (h : j.move? (.write side data) = some j') :
    Made j j' (.write side data) := by
  simp only [move?] at h
  split at h
  · cases h
  next s hs =>
  split at h
  swap
  · cases h
  next hcond =>
  obtain ⟨hr, hdata⟩ : s.reads = true ∧ data ≠ [] := by simpa using hcond
  obtain rfl := Option.some.inj h
  refine ⟨.stream (.feed data), (j.get side).queue, .write hdata hs hr, changes_of_absorb ?_ ?_⟩
  · exact (j.get side).reads_nothing (by simp [Bridge.writtenBy, hs, Act.written])
  · rw [Bridge.move, hs, Option.bind_some, Act.on?, if_pos hr]

theorem made_of_finish (h : j.move? (.finish side) = some j') : Made j j' (.finish side) := by
  simp only [move?] at h
  split at h
  · cases h
  next s hs =>
  split at h
  swap
  · cases h
  next hr =>
  obtain rfl := Option.some.inj h
  have hd : Directions.onlyRead ⊆ s.enabled := ⟨fun _ => by simpa using hr, fun hw => by cases hw⟩
  refine ⟨.stream (.finish .onlyRead), (j.get side).queue, .finish hs hr, changes_of_absorb ?_ ?_⟩
  · exact (j.get side).reads_nothing (by simp [Bridge.writtenBy, hs, Act.written])
  · rw [Bridge.move, hs, Option.bind_some, Act.on?, if_pos hd]

theorem made_of_take {n : Nat} (h : j.move? (.take side n) = some j') : Made j j' (.take side n) := by
  simp only [move?] at h
  split at h
  · cases h
  next s hs =>
  split at h
  swap
  · cases h
  next hcond =>
  obtain ⟨⟨hw, ho⟩, hn⟩ : (s.writes = true ∧ s.output ≠ []) ∧ n ≠ 0 := by simpa [and_assoc] using hcond
  obtain rfl := Option.some.inj h
  refine ⟨.stream (.take n), (j.get side).queue, .take hs hw ho hn, changes_of_absorb ?_ ?_⟩
  · have taken : (j.get side).bridge.writtenBy (.stream (.take n)) = s.output.take n := by
      rw [Bridge.writtenBy, hs, Option.map_some, Option.getD_some, Act.written, if_pos hw]
    rw [taken]
  · have on : (Act.take n).on? s = some ({ s with output := s.output.drop n },
        if s.output.drop n = [] then some .drained else none) := if_pos ⟨hw, ho⟩
    rw [Bridge.move, hs, Option.bind_some, on]
    by_cases hrest : n < s.output.length
    · have rest : s.output.drop n ≠ [] := by simpa using hrest
      simp only [if_pos hrest, if_neg rest]
    · have rest : s.output.drop n = [] := by simpa using hrest
      simp only [if_neg hrest, if_pos rest]

theorem made_of_deliver (h : j.move? (.deliver side) = some j') : Made j j' (.deliver side) := by
  simp only [move?] at h
  split at h
  · cases h
  next event queue hq =>
  obtain rfl := Option.some.inj h
  refine ⟨.connection event, queue, .deliver hq, changes_of_absorb ?_ rfl⟩
  simp [Bridge.writtenBy]

theorem made_of_move {m : Move} (h : j.move? m = some j') : Made j j' m := by
  cases m with
  | write => exact made_of_write h
  | finish => exact made_of_finish h
  | take => exact made_of_take h
  | deliver => exact made_of_deliver h

end Moves

/-! ## Following an end -/

variable {config : Config} {done : List Move} {side : Side} {moves : List Splice.Move} {e : End} {m : Move}
  {lm : Splice.Move} {queue sent events : List ConnectionEvent}

def posted (config : Config) (moves : List Splice.Move) : List ConnectionEvent :=
  (carry false ((Bridge.new Unlimited.mk {} config).play moves).trace).1

/-- An end as it is after some moves of its bridge, all calls of which were collected. -/
structure Follows (config : Config) (done : List Move) (side : Side) (moves : List Splice.Move) (e : End) :
    Prop where
  bridge_eq : e.bridge = ((Bridge.new Unlimited.mk {} config).play moves).collected
  received_eq : e.received = (Bridge.new Unlimited.mk {} config).written moves
  finSent_eq : e.finSent = (carry false ((Bridge.new Unlimited.mk {} config).play moves).trace).2
  outputEnded_eq : e.outputEnded = ((Bridge.new Unlimited.mk {} config).play moves).calls.any endsOutput
  fed_eq : (Bridge.new Unlimited.mk {} config).fed moves = wrote side done
  finish_of_over : Bridge.InputOver ((Bridge.new Unlimited.mk {} config).reported moves) → .finish side ∈ done
  spares : ∀ m ∈ moves, m.sparesOutput = true

/-- What was sent to an end has been heard or is on its way, unless the end has finished. -/
structure Wired (sent : List ConnectionEvent) (moves : List Splice.Move) (e : End) : Prop where
  waiting : e.bridge.finished = false → Bridge.heard moves ++ e.queue = sent
  swallowed : e.bridge.finished = true → e.queue = [] ∧ Bridge.heard moves <+: sent

theorem follows_new (config : Config) (side : Side) : Follows config [] side [.hold consumer] (.new config) := by
  refine ⟨rfl, rfl, rfl, rfl, rfl, ?_, ?_⟩
  · exact fun hover => absurd hover Bridge.not_inputOver_nil
  · simp [Splice.Move.sparesOutput]

theorem wired_new (config config' : Config) :
    Wired (posted config' [.hold consumer]) [.hold consumer] (.new config) := by
  refine ⟨fun _ => rfl, fun hf => ?_⟩
  cases hf

namespace Follows

theorem stream_eq (h : Follows config done side moves e) :
    e.bridge.stream = ((Bridge.new Unlimited.mk {} config).play moves).stream := by
  rw [h.bridge_eq]
  rfl

theorem finished_eq (h : Follows config done side moves e) :
    e.bridge.finished = ((Bridge.new Unlimited.mk {} config).play moves).finished := by
  rw [h.bridge_eq]
  rfl

theorem output_eq (h : Follows config done side moves e) :
    e.output = ((Bridge.new Unlimited.mk {} config).play moves).queued := by
  rw [End.output, h.stream_eq]
  rfl

theorem sound (h : Follows config done side moves e) : e.bridge.Sound := by
  have tidy := (Bridge.tidy_new Unlimited.mk {} config).play moves
  rw [h.bridge_eq]
  exact ⟨tidy.open_of_attached, tidy.finished_iff⟩

end Follows

theorem Makes.sparesOutput (makes : Makes e side m lm queue) : lm.sparesOutput = true := by
  cases makes <;> rfl

theorem Makes.bytes_eq {b : Bridge Unlimited} (makes : Makes e side m lm queue) (hb : b.stream = e.bridge.stream) :
    b.fedBy lm = m.bytes side := by
  cases makes with
  | write _ hs hr =>
    rw [Bridge.fedBy, hb, hs, Option.map_some, Option.getD_some, Act.fed, if_pos hr, Move.bytes, if_pos rfl]
  | finish hs | take hs =>
    rw [Bridge.fedBy, hb, hs]
    rfl
  | deliver => rfl

theorem Makes.finish_of_over {b : Bridge Unlimited} (makes : Makes e side m lm queue)
    (h : Bridge.InputOver (b.reportedBy lm)) : m = .finish side := by
  obtain ⟨event, hmem, hends⟩ := h
  have not_finish : ∀ {act : Act}, event ∈ b.reportedBy (.stream act) → ∃ d, act = .finish d := by
    intro act hmem
    obtain ⟨s, s', does⟩ := Bridge.does_of_reported hmem
    exact does.finish_of_endsInput hends
  cases makes with
  | finish => rfl
  | write | take =>
    obtain ⟨d, hd⟩ := not_finish hmem
    cases hd
  | deliver => cases hmem

theorem Follows.move_eq (h : Follows config done side moves e) (lm : Splice.Move) :
    (e.bridge.move lm).since ((Bridge.new Unlimited.mk {} config).play moves).calls =
      (Bridge.new Unlimited.mk {} config).play (moves ++ [lm]) := by
  rw [Bridge.play_snoc, ← Bridge.move_of_collected ((Bridge.new Unlimited.mk {} config).play moves), h.bridge_eq]

theorem Follows.trace_snoc (h : Follows config done side moves e) (lm : Splice.Move) :
    ((Bridge.new Unlimited.mk {} config).play (moves ++ [lm])).trace =
      ((Bridge.new Unlimited.mk {} config).play moves).trace ++ (e.bridge.move lm).trace := by
  rw [← h.move_eq, Bridge.trace, Bridge.since_calls, List.reverse_append]
  rfl

theorem Follows.posted_snoc (h : Follows config done side moves e) (lm : Splice.Move) :
    posted config (moves ++ [lm]) = posted config moves ++ (carry e.finSent (e.bridge.move lm).trace).1 := by
  rw [posted, h.trace_snoc, carry_append, h.finSent_eq]
  rfl

theorem Follows.after (h : Follows config done side moves e) (makes : Makes e side m lm queue) :
    Follows config (done ++ [m]) side (moves ++ [lm]) (e.after lm queue) := by
  refine ⟨?_, ?_, ?_, ?_, ?_, ?_, ?_⟩
  · rw [← h.move_eq]
    rfl
  · show e.received ++ e.bridge.writtenBy lm = _
    rw [Bridge.written_snoc, h.received_eq]
    congr 1
    cases lm with
    | stream act => rw [Bridge.writtenBy, Bridge.writtenBy, h.stream_eq]
    | connection | hold => rfl
  · show (carry e.finSent (e.bridge.move lm).trace).2 = _
    rw [h.trace_snoc, carry_append, ← h.finSent_eq]
  · show (e.outputEnded || (e.bridge.move lm).trace.any endsOutput) = _
    rw [← h.move_eq, Bridge.since_calls, List.any_append, h.outputEnded_eq, Bridge.trace, List.any_reverse,
      Bool.or_comm]
  · rw [Bridge.fed_snoc, wrote_snoc, h.fed_eq, makes.bytes_eq h.stream_eq.symm]
  · rw [Bridge.reported_snoc, Bridge.inputOver_append]
    rintro (hover | hover)
    · exact List.mem_append_left _ (h.finish_of_over hover)
    · exact List.mem_append_right _ (List.mem_singleton.mpr (makes.finish_of_over hover).symm)
  · intro m' hm'
    rcases List.mem_append.mp hm' with hm' | hm'
    · exact h.spares m' hm'
    · rw [List.mem_singleton.mp hm']
      exact makes.sparesOutput

/-- What the other end does leaves an end where it is, but for the events on their way. -/
theorem Follows.hear (h : Follows config done side moves e) (hm : m.side ≠ side) (events : List ConnectionEvent) :
    Follows config (done ++ [m]) side moves (e.hear events) := by
  have same : (e.hear events) = { e with queue := (e.hear events).queue } := by
    unfold End.hear
    split <;> rfl
  rw [same]
  refine ⟨h.bridge_eq, h.received_eq, h.finSent_eq, h.outputEnded_eq, ?_, ?_, h.spares⟩
  · rw [wrote_snoc, Move.bytes_of_side_ne hm, List.append_nil]
    exact h.fed_eq
  · exact fun hover => List.mem_append_left _ (h.finish_of_over hover)

theorem Wired.after (h : Wired sent moves e) (hsound : e.bridge.Sound) (makes : Makes e side m lm queue) :
    Wired sent (moves ++ [lm]) (e.after lm queue) := by
  have heard : Bridge.heard (moves ++ [lm]) ++ queue = sent := by
    rw [Bridge.heard_snoc]
    cases makes with
    | write _ hs | finish hs | take hs =>
      rw [← h.waiting (hsound.finished_of_open hs)]
      exact congrArg (· ++ e.queue) (List.append_nil _)
    | deliver hq =>
      have waiting : e.bridge.finished = false := by
        by_contra hf
        cases hq.symm.trans (h.swallowed (by simpa using hf)).1
      rw [← h.waiting waiting, hq]
      exact List.append_assoc ..
  refine ⟨fun hf => ?_, fun hf => ⟨if_pos hf, ?_⟩⟩
  · have going : ¬ (e.bridge.move lm).finished = true := by
      intro hf'
      cases hf.symm.trans hf'
    exact (congrArg (Bridge.heard (moves ++ [lm]) ++ ·) (if_neg going)).trans heard
  · rw [← heard]
    exact List.prefix_append _ _

theorem Wired.hear (h : Wired sent moves e) (events : List ConnectionEvent) :
    Wired (sent ++ events) moves (e.hear events) := by
  unfold End.hear
  cases hf : e.bridge.finished with
  | true =>
    refine ⟨fun hf' => ?_, fun _ => ⟨(h.swallowed hf).1, (h.swallowed hf).2.trans (List.prefix_append _ _)⟩⟩
    cases hf.symm.trans hf'
  | false =>
    refine ⟨fun _ => ?_, fun hf' => ?_⟩
    · rw [← h.waiting hf, List.append_assoc]
      rfl
    · cases hf.symm.trans hf'

end Splice.Joined
