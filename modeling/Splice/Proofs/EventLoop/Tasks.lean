import Splice.Proofs.Bridge.Teardown
import Splice.Proofs.EventLoop.Running

/-!
# The log of an event loop

What a loop does with its bridge, one task after the other: events are delivered, a stream that was read or
written is put back, and in the end the bridge is dropped. The tasks of a turn are planned before the first of
them is done, and those after the one that finishes the bridge are given up.
-/

namespace Splice

namespace Bridge

variable {σ : Type}

@[simp] theorem drop_attached (b : Bridge σ) : b.drop.attached = b.attached := by rw [drop, releasePeer_eq]
@[simp] theorem drop_stream (b : Bridge σ) : b.drop.stream = b.stream := by rw [drop, releasePeer_eq]
@[simp] theorem drop_finished (b : Bridge σ) : b.drop.finished = b.finished := by rw [drop, releasePeer_eq]

end Bridge

namespace EventLoop

variable {σ κ : Type}

/-! ## Tasks -/

inductive Task
  | hand (event : ConnectionEvent)
  /-- Resets a connection that no handle is left for. -/
  | reset
  | report (event : StreamEvent)
  /-- Puts back a stream on which something was done. -/
  | serve (s : Stream)
  | drop
  deriving DecidableEq

def Task.event? : Task → Option Event
  | hand event => some (.connection event)
  | reset => some (.connection (.error .reset))
  | report event => some (.stream event)
  | serve _ | drop => none

def Task.toConnection : Task → Bool
  | hand _ | reset => true
  | _ => false

variable [Sender σ] {b : Bridge σ} {t : Task} {ts past : List Task} {e : Event}

def Task.on (b : Bridge σ) : Task → Bridge σ × Status
  | hand event => b.onConnection event
  | reset => b.onConnection (.error .reset)
  | report event => b.onStream event
  | serve s => (b.keep s, .active)
  | drop => (b.drop, .active)

theorem Task.on_event (h : t.event? = some e) (b : Bridge σ) : t.on b = b.react e := by
  cases t with
  | serve | drop => cases h
  | hand | reset | report =>
    cases h
    rfl

theorem Task.on_since (b : Bridge σ) (earlier : List Call) (t : Task) :
    t.on (b.since earlier) = Bridge.reactionSince earlier (t.on b) := by
  cases t with
  | hand event => exact Bridge.onConnection_since b earlier event
  | reset => exact Bridge.onConnection_since b earlier (.error .reset)
  | report event => exact Bridge.onStream_since b earlier event
  | serve => rfl
  | drop => exact congrArg (·, Status.active) (Bridge.releasePeer_since b earlier)

def replay (b : Bridge σ) (log : List Task) : Bridge σ := log.foldl (fun b t => (t.on b).1) b

@[simp] theorem replay_nil (b : Bridge σ) : replay b [] = b := rfl

@[simp] theorem replay_cons (b : Bridge σ) (t : Task) (log : List Task) :
    replay b (t :: log) = replay (t.on b).1 log := rfl

@[simp] theorem replay_append (b : Bridge σ) (log later : List Task) :
    replay b (log ++ later) = replay (replay b log) later := List.foldl_append

/-! ## Batches -/

/-- Does tasks in order, as far as the one that finishes the bridge. -/
def carryOut (b : Bridge σ) : List Task → Bridge σ × Status
  | [] => (b, .active)
  | t :: ts => if (t.on b).2 = .finished then t.on b else carryOut (t.on b).1 ts

/-- The tasks that are done, and the dropping of a bridge that has finished. -/
def carriedOut (b : Bridge σ) : List Task → List Task
  | [] => []
  | t :: ts => if (t.on b).2 = .finished then [t, .drop] else t :: carriedOut (t.on b).1 ts

@[simp] theorem carryOut_serve (b : Bridge σ) (s : Stream) (ts : List Task) :
    carryOut b (.serve s :: ts) = carryOut (b.keep s) ts := if_neg (by simp [Task.on])

@[simp] theorem carriedOut_serve (b : Bridge σ) (s : Stream) (ts : List Task) :
    carriedOut b (.serve s :: ts) = .serve s :: carriedOut (b.keep s) ts := if_neg (by simp [Task.on])

theorem carryOut_singleton (b : Bridge σ) (t : Task) : carryOut b [t] = t.on b := by
  unfold carryOut
  rcases t.on b with ⟨c, _ | _⟩ <;> rfl

theorem carryOut_since (b : Bridge σ) (earlier : List Call) (ts : List Task) :
    carryOut (b.since earlier) ts = Bridge.reactionSince earlier (carryOut b ts) := by
  induction ts generalizing b with
  | nil => rfl
  | cons t ts ih =>
    unfold carryOut
    rw [Task.on_since, apply_ite (Bridge.reactionSince earlier), ← ih]
    rfl

theorem carriedOut_since (b : Bridge σ) (earlier : List Call) (ts : List Task) :
    carriedOut (b.since earlier) ts = carriedOut b ts := by
  induction ts generalizing b with
  | nil => rfl
  | cons t ts ih =>
    simp only [carriedOut, Task.on_since, Bridge.reactionSince, ih]

theorem replay_carriedOut (b : Bridge σ) (ts : List Task) :
    replay b (carriedOut b ts) =
      if (carryOut b ts).2 = .finished then (carryOut b ts).1.drop else (carryOut b ts).1 := by
  induction ts generalizing b with
  | nil => rfl
  | cons t ts ih =>
    unfold carriedOut carryOut
    by_cases h : (t.on b).2 = .finished
    · simp only [h, if_true]
      rfl
    · simp only [h, if_false]
      exact ih _

theorem deliver_carryOut (limit : Nat) (b : Bridge σ) (queue : List ConnectionEvent) :
    (deliver limit b queue).1 = carryOut b ((queue.take limit).map .hand) := by
  fun_induction deliver limit b queue with
  | case1 | case2 => rfl
  | case3 b limit event queue reaction h => exact (if_pos h).symm
  | case4 b limit event queue reaction h ih => exact ih.trans (if_neg h).symm

theorem deliverStream_carryOut (b : Bridge σ) (events : List StreamEvent) :
    deliverStream b events = carryOut b (events.map .report) := by
  induction events generalizing b with
  | nil => rfl
  | cons event events ih =>
    unfold deliverStream
    dsimp only
    rw [ih]
    rfl

/-! ## Turns -/

variable [Socket κ] {l m : EventLoop σ κ}

def serving (result : Buffered κ × List StreamEvent) : List Task :=
  .serve result.1.stream :: result.2.map .report

/-- The tasks that a turn sets out to do. -/
def plan (l : EventLoop σ κ) : Turn κ → List Task
  | .events =>
    if l.queue.isEmpty then if l.bridge.attached then [.reset] else []
    else (l.queue.take batchSize).map .hand
  | .connected socket =>
    match l.buffered? with
    | none => [.report .connected]
    | some b => serving (b.attach socket, [.connected])
  | .connectFailed =>
    match l.buffered? with
    | none => [.report .connected]
    | some b => serving (b.connectFailed, [.error .both])
  | .ready readiness => (l.buffered?.map fun b => serving (b.serve readiness)).getD []
  | .watchFailed => (l.buffered?.map fun b => serving b.watchFailed).getD []

/-- One loop comes from another by a batch of tasks, and ends if the bridge finishes in it. -/
structure CarriesOut (l : EventLoop σ κ) (ts : List Task) (m : EventLoop σ κ) : Prop where
  whole : m.whole = replay l.whole (carriedOut l.whole ts)
  ended : m.ended = true ↔ (carryOut l.whole ts).2 = .finished

omit [Socket κ] in
theorem CarriesOut.idle (hwhole : m.whole = l.whole) (hended : m.ended = false) : CarriesOut l [] m :=
  ⟨hwhole, by simp [hended, carryOut]⟩

theorem CarriesOut.absorb (n : EventLoop σ κ) (hbridge : n.bridge = l.bridge) (hcalls : n.calls = l.calls)
    (ts : List Task) : CarriesOut l ts (n.absorb (carryOut n.bridge ts)) := by
  -- The calls collected before do not matter to what is carried out.
  have since : carryOut l.whole ts = Bridge.reactionSince l.calls (carryOut n.bridge ts) := by
    rw [hbridge]
    exact carryOut_since l.bridge l.calls ts
  constructor
  · rw [whole_absorb, hcalls, replay_carriedOut, since]
    rfl
  · rw [since]
    exact decide_eq_true_iff

theorem CarriesOut.absorbOne (n : EventLoop σ κ) (hbridge : n.bridge = l.bridge) (hcalls : n.calls = l.calls)
    (t : Task) : CarriesOut l [t] (n.absorb (t.on n.bridge)) := by
  rw [← carryOut_singleton]
  exact .absorb n hbridge hcalls [t]

theorem CarriesOut.absorbStream (n : EventLoop σ κ) (hbridge : n.bridge = l.bridge) (hcalls : n.calls = l.calls)
    (result : Buffered κ × List StreamEvent) : CarriesOut l (serving result) (n.absorbStream result) := by
  unfold EventLoop.absorbStream
  rw [deliverStream_carryOut]
  exact .absorb { n with socket := result.1.socket } hbridge hcalls (serving result)

omit [Sender σ] [Socket κ] in
theorem open_of_possible {turn : Turn κ} (h : l.possible turn = true) : l.ended = false := by
  cases turn <;> simp_all [possible]

theorem take_carriesOut (hopen : l.ended = false) (turn : Turn κ) : CarriesOut l (l.plan turn) (l.take turn) := by
  cases turn with
  | events =>
    unfold take takeEvents plan
    dsimp only
    split
    · split
      · exact .absorbOne (l := l) { l with listening := false } rfl rfl .reset
      · exact .idle rfl hopen
    · rw [deliver_carryOut]
      exact .absorb (l := l) { l with queue := (deliver batchSize l.bridge l.queue).2 } rfl rfl _
  | connected | connectFailed =>
    unfold take takeConnected takeConnectFailed plan
    cases hs : l.bridge.stream with
    | none =>
      simp only [buffered?, hs, Option.map_none]
      exact .absorbOne (l := l) { l with connecting := false } rfl rfl (.report .connected)
    | some s =>
      simp only [buffered?, hs, Option.map_some]
      exact .absorbStream (l := l) { l with connecting := false } rfl rfl _
  | ready | watchFailed =>
    unfold take plan
    dsimp only
    cases l.buffered? with
    | none => exact .idle rfl hopen
    | some b => exact .absorbStream l rfl rfl _

/-! ## Plans -/

/-- The tasks of a turn deliver events, after something was done on the open stream perhaps. -/
inductive Planned (b : Bridge σ) : List Task → Prop
  | deliver {ts : List Task} : (∀ t ∈ ts, t.event?.isSome = true) → Planned b ts
  | serve {s s' : Stream} {ts : List Task} : b.stream = some s → s.Narrows s' → (∀ t ∈ ts, t.event?.isSome = true) →
      Planned b (.serve s' :: ts)

omit [Sender σ] [Socket κ] in
theorem Planned.serving {s : Stream} {result : Buffered κ × List StreamEvent} (hs : b.stream = some s)
    (narrows : s.Narrows result.1.stream) : Planned b (serving result) := by
  refine .serve hs narrows fun t ht => ?_
  obtain ⟨event, -, rfl⟩ := List.mem_map.mp ht
  rfl

omit [Sender σ] in
theorem plan_planned (l : EventLoop σ κ) (turn : Turn κ) : Planned l.whole (l.plan turn) := by
  cases turn with
  | events =>
    unfold plan
    dsimp only
    split
    · split
      · exact .deliver (by simp [Task.event?])
      · exact .deliver (by simp)
    · refine .deliver fun t ht => ?_
      obtain ⟨event, -, rfl⟩ := List.mem_map.mp ht
      rfl
  | connected | connectFailed =>
    unfold plan
    dsimp only
    split
    · exact .deliver (by simp [Task.event?])
    · next b hb =>
      refine .serving (buffered_stream hb) ?_
      first | exact .refl _ | exact narrows_none _
  | ready | watchFailed =>
    unfold plan
    dsimp only
    cases hb : l.buffered? with
    | none => exact .deliver (by simp)
    | some b =>
      refine .serving (buffered_stream hb) ?_
      first | exact serve_narrows b _ | exact narrows_none _

/-! ## Logs -/

theorem step_post (l : EventLoop σ κ) (event : ConnectionEvent) :
    l.step (.post event) = if l.ended then l else { l with queue := l.queue ++ [event] } := by
  unfold step post?
  dsimp only
  split <;> rfl

def tasksOf (l : EventLoop σ κ) : Step κ → List Task
  | .take turn => if l.possible turn then carriedOut l.bridge (l.plan turn) else []
  | _ => []

def log (l : EventLoop σ κ) (steps : List (Step κ)) : List Task := Run.gather step tasksOf l steps

theorem log_snoc (l : EventLoop σ κ) (steps : List (Step κ)) (s : Step κ) :
    l.log (steps ++ [s]) = l.log steps ++ (l.run steps).tasksOf s :=
  Run.gather_snoc ..

inductive Stage
  | working
  /-- The bridge has finished and is still to be dropped. -/
  | finished
  | gone
  deriving DecidableEq

/-- The logs that a loop can write, from a bridge on. -/
inductive Proceeds (b : Bridge σ) : Stage → List Task → Prop
  | start : Proceeds b .working []
  | serve {past : List Task} {s s' : Stream} : Proceeds b .working past → (replay b past).stream = some s →
      s.Narrows s' → Proceeds b .working (past ++ [.serve s'])
  | deliver {past : List Task} {t : Task} {e : Event} : Proceeds b .working past → t.event? = some e →
      (t.on (replay b past)).2 = .active → Proceeds b .working (past ++ [t])
  | finish {past : List Task} {t : Task} {e : Event} : Proceeds b .working past → t.event? = some e →
      (t.on (replay b past)).2 = .finished → Proceeds b .finished (past ++ [t])
  | drop {past : List Task} : Proceeds b .finished past → Proceeds b .gone (past ++ [.drop])

namespace Proceeds

variable {stage : Stage}

theorem init (h : Proceeds b stage (past ++ [t])) :
    Proceeds b .working past ∧ stage ≠ .gone ∨ Proceeds b .finished past ∧ stage = .gone ∧ t = .drop := by
  generalize hlog : past ++ [t] = whole at h
  cases h with
  | start => simp at hlog
  | serve h | deliver h | finish h =>
    obtain ⟨rfl, -⟩ := List.append_inj' hlog rfl
    exact .inl ⟨h, by decide⟩
  | drop h =>
    obtain ⟨rfl, ht⟩ := List.append_inj' hlog rfl
    exact .inr ⟨h, rfl, List.singleton_inj.mp ht⟩

theorem before_event (ht : t.event? = some e) {before after : List Task}
    (h : Proceeds b stage (before ++ t :: after)) : Proceeds b .working before := by
  induction after using List.reverseRecOn generalizing stage with
  | nil =>
    rcases h.init with ⟨h, -⟩ | ⟨-, -, rfl⟩
    · exact h
    · cases ht
  | append_singleton after u ih =>
    rw [← List.cons_append, ← List.append_assoc] at h
    rcases h.init with ⟨h, -⟩ | ⟨h, -⟩
    · exact ih h
    · exact ih h

theorem carriedOut (h : Proceeds b .working past) (hevents : ∀ t ∈ ts, t.event?.isSome = true) :
    Proceeds b (if (carryOut (replay b past) ts).2 = .finished then .gone else .working)
      (past ++ carriedOut (replay b past) ts) := by
  -- Along the batch: the log grows by each task until one finishes the bridge.
  induction ts generalizing past with
  | nil => simpa [carryOut, EventLoop.carriedOut] using h
  | cons t ts ih =>
    obtain ⟨e, ht⟩ := Option.isSome_iff_exists.mp (hevents t List.mem_cons_self)
    unfold carryOut EventLoop.carriedOut
    by_cases hstatus : (t.on (replay b past)).2 = .finished
    · rw [if_pos hstatus, if_pos hstatus, if_pos hstatus]
      have done := (h.finish ht hstatus).drop
      rwa [List.append_assoc] at done
    · rw [if_neg hstatus, if_neg hstatus]
      have active : (t.on (replay b past)).2 = .active := by
        cases hs : (t.on (replay b past)).2 with
        | active => rfl
        | finished => exact absurd hs hstatus
      have went_on := ih (h.deliver ht active) fun u hu => hevents u (List.mem_cons_of_mem _ hu)
      simpa using went_on

theorem planned (h : Proceeds b .working past) (hplan : Planned (replay b past) ts) :
    Proceeds b (if (carryOut (replay b past) ts).2 = .finished then .gone else .working)
      (past ++ EventLoop.carriedOut (replay b past) ts) := by
  cases hplan with
  | deliver hevents => exact h.carriedOut hevents
  | serve hs narrows hevents =>
    have went_on := (h.serve hs narrows).carriedOut hevents
    rw [carryOut_serve, carriedOut_serve]
    simpa [Task.on] using went_on

end Proceeds

/-! ## Runs -/

/-- A loop that has written a log since its bridge was as given. -/
structure Logged (b : Bridge σ) (past : List Task) (l : EventLoop σ κ) : Prop where
  whole : l.whole = replay b past
  proceeds : Proceeds b (if l.ended then .gone else .working) past

namespace Logged

omit [Socket κ] in
theorem of_frame (h : Logged b past l) (hwhole : m.whole = l.whole) (hended : m.ended = l.ended) :
    Logged b (past ++ []) m := by
  rw [List.append_nil]
  refine ⟨hwhole.trans h.whole, ?_⟩
  rw [hended]
  exact h.proceeds

theorem take (h : Logged b past l) {turn : Turn κ} (hcan : l.possible turn = true) :
    Logged b (past ++ carriedOut l.bridge (l.plan turn)) (l.take turn) := by
  have carried := take_carriesOut (open_of_possible hcan) turn
  have hplan := l.plan_planned turn
  have proceeds := h.proceeds
  rw [open_of_possible hcan, if_neg (by decide)] at proceeds
  rw [h.whole] at hplan
  have went_on := proceeds.planned hplan
  rw [← h.whole] at went_on
  rw [show carriedOut l.bridge (l.plan turn) = carriedOut l.whole (l.plan turn) from (carriedOut_since ..).symm]
  refine ⟨?_, ?_⟩
  · rw [carried.whole, replay_append, h.whole]
  · simp only [carried.ended]
    exact went_on

theorem step (h : Logged b past l) (s : Step κ) : Logged b (past ++ l.tasksOf s) (l.step s) := by
  cases s with
  | post event =>
    rw [step_post]
    split
    · exact h.of_frame rfl rfl
    · exact h.of_frame rfl rfl
  | dropHandles | outside => exact h.of_frame rfl rfl
  | take turn =>
    unfold EventLoop.step tasksOf
    dsimp only
    split
    · next hcan => exact h.take hcan
    · exact h.of_frame rfl rfl

theorem run (hopen : l.ended = false) (steps : List (Step κ)) : Logged l.whole (l.log steps) (l.run steps) := by
  induction steps using List.reverseRecOn with
  | nil =>
    refine ⟨rfl, ?_⟩
    show Proceeds _ (if l.ended then _ else _) _
    rw [hopen]
    exact .start
  | append_singleton steps s ih =>
    rw [log_snoc, run_snoc]
    exact ih.step s

end Logged

end EventLoop

end Splice
