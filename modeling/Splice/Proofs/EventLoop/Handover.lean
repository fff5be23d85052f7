import Splice.Proofs.EventLoop.Backpressure
import Splice.Proofs.EventLoop.Tasks

/-!
# Events are handed over in order

Whatever the other sources do, posted events reach the bridge in the order in which they were posted, each of
them once. At most one more event of the connection comes after them: the reset of a connection that no handle is
left for. Nothing is delivered to a bridge that has finished, be it in the middle of a batch.
-/

namespace Splice.EventLoop

variable {σ κ : Type}

def handedOver (log : List Task) : List ConnectionEvent :=
  log.filterMap fun
    | .hand event => some event
    | _ => none

@[simp] theorem handedOver_append (log later : List Task) :
    handedOver (log ++ later) = handedOver log ++ handedOver later := List.filterMap_append

@[simp] theorem handedOver_hand (event : ConnectionEvent) (log : List Task) :
    handedOver (.hand event :: log) = event :: handedOver log := rfl

def launchHolding (sender : σ) (config : Config) (socket : Option κ) (peer : Option PeerId) : EventLoop σ κ :=
  { launch sender config socket with bridge.peer := peer }

variable [Sender σ] [Socket κ] {b : Bridge σ} {l : EventLoop σ κ} {ts past : List Task} {t : Task} {stage : Stage}

def postedBy (l : EventLoop σ κ) : Step κ → List ConnectionEvent
  | .post event => if l.ended then [] else [event]
  | _ => []

def posted (l : EventLoop σ κ) (steps : List (Step κ)) : List ConnectionEvent := Run.gather step postedBy l steps

theorem posted_snoc (l : EventLoop σ κ) (steps : List (Step κ)) (s : Step κ) :
    l.posted (steps ++ [s]) = l.posted steps ++ (l.run steps).postedBy s :=
  Run.gather_snoc ..

/-! ## The order of the queue -/

theorem handedOver_deliver (limit : Nat) (b : Bridge σ) (queue : List ConnectionEvent) :
    handedOver (carriedOut b ((queue.take limit).map .hand)) ++ (deliver limit b queue).2 = queue := by
  fun_induction deliver limit b queue with
  | case1 | case2 => rfl
  | case3 b limit event queue reaction h =>
    have done : carriedOut b (.hand event :: (queue.take limit).map .hand) = [.hand event, .drop] := if_pos h
    simp only [List.take_succ_cons, List.map_cons, done]
    rfl
  | case4 b limit event queue reaction h ih =>
    have done : carriedOut b (.hand event :: (queue.take limit).map .hand) =
        .hand event :: carriedOut reaction.1 ((queue.take limit).map .hand) := if_neg h
    simp only [List.take_succ_cons, List.map_cons, done, handedOver_hand, List.cons_append, ih]

theorem mem_carriedOut (h : t ∈ carriedOut b ts) : t ∈ ts ∨ t = .drop := by
  induction ts generalizing b with
  | nil => cases h
  | cons u ts ih =>
    unfold carriedOut at h
    split at h
    · simp only [List.mem_cons, List.not_mem_nil, or_false] at h
      rcases h with rfl | rfl
      · exact .inl List.mem_cons_self
      · exact .inr rfl
    · rcases List.mem_cons.mp h with rfl | h
      · exact .inl List.mem_cons_self
      · exact (ih h).imp_left (List.mem_cons_of_mem _)

theorem handedOver_eq_nil (h : ∀ t ∈ ts, t.toConnection = false) : handedOver ts = [] := by
  refine List.filterMap_eq_nil_iff.mpr fun t ht => ?_
  have := h t ht
  cases t <;> simp_all [Task.toConnection]

theorem filter_toConnection (h : .reset ∉ ts) : ts.filter Task.toConnection = (handedOver ts).map .hand := by
  induction ts with
  | nil => rfl
  | cons t ts ih =>
    simp only [List.mem_cons, not_or] at h
    cases t with
    | reset => exact absurd rfl h.1
    | hand event =>
      rw [List.filter_cons_of_pos rfl, ih h.2]
      rfl
    | report | serve | drop => exact ih h.2

omit [Sender σ] in
theorem plan_toConnection {turn : Turn κ} (h : turn ≠ .events) : ∀ t ∈ l.plan turn, t.toConnection = false := by
  have served : ∀ (result : Buffered κ × List StreamEvent), ∀ t ∈ serving result, t.toConnection = false := by
    intro result t ht
    simp only [serving, List.mem_cons, List.mem_map] at ht
    rcases ht with rfl | ⟨event, -, rfl⟩ <;> rfl
  unfold plan
  cases turn with
  | events => exact absurd rfl h
  | connected | connectFailed =>
    dsimp only
    split
    · simp [Task.toConnection]
    · exact served _
  | ready | watchFailed =>
    dsimp only
    cases l.buffered? with
    | none => simp
    | some b => exact served _

inductive Hands (l m : EventLoop σ κ) (ts : List Task) : Prop
  | posted : .reset ∉ ts → handedOver ts ++ m.queue = l.queue → (m.listening = true → l.listening = true) →
      (l.listening = false → handedOver ts = []) → Hands l m ts
  | reset : l.queue = [] → l.listening = true → l.handlesAlive = false → l.bridge.attached = true →
      m.queue = [] → m.listening = false → handedOver ts = [] → ts.filter Task.toConnection = [.reset] →
      Hands l m ts

theorem take_frame (l : EventLoop σ κ) {turn : Turn κ} (h : turn ≠ .events) :
    (l.take turn).queue = l.queue ∧ (l.take turn).listening = l.listening := by
  unfold take takeConnected takeConnectFailed
  cases turn with
  | events => exact absurd rfl h
  | connected | connectFailed | ready | watchFailed =>
    dsimp only
    split <;> exact ⟨rfl, rfl⟩

theorem take_hands {turn : Turn κ} (hcan : l.possible turn = true) :
    Hands l (l.take turn) (carriedOut l.bridge (l.plan turn)) := by
  by_cases hturn : turn = .events
  · subst hturn
    simp only [possible, Bool.and_eq_true, Bool.not_eq_true', Bool.or_eq_true] at hcan
    obtain ⟨⟨-, hlistening⟩, hready⟩ := hcan
    unfold take takeEvents plan
    dsimp only
    split
    · next hqueue =>
      have hqueue : l.queue = [] := List.isEmpty_iff.mp hqueue
      have hgone : l.handlesAlive = false := by simpa [hqueue] using hready
      split
      · next ha =>
        have done : carriedOut l.bridge [.reset] = [.reset] ∨ carriedOut l.bridge [.reset] = [.reset, .drop] := by
          unfold carriedOut
          split
          · exact .inr rfl
          · exact .inl rfl
        -- Nothing was posted and no handle is left to post: this is the one turn that resets.
        refine .reset hqueue hlistening hgone ha hqueue rfl ?_ ?_ <;> rcases done with h | h <;> rw [h] <;> rfl
      · exact .posted (by simp [carriedOut]) rfl (fun _ => hlistening) (fun _ => rfl)
    · refine .posted (fun hr => ?_) (handedOver_deliver batchSize l.bridge l.queue) id fun h => ?_
      · rcases mem_carriedOut hr with hr | hr
        · obtain ⟨event, -, he⟩ := List.mem_map.mp hr
          cases he
        · cases hr
      · cases h.symm.trans hlistening
  · obtain ⟨hqueue, hlistening⟩ := take_frame l hturn
    have others : ∀ t ∈ carriedOut l.bridge (l.plan turn), t.toConnection = false := by
      intro t ht
      rcases mem_carriedOut ht with ht | rfl
      · exact plan_toConnection hturn t ht
      · rfl
    have none_handed := handedOver_eq_nil others
    refine .posted (fun hr => by cases others _ hr) ?_ (fun h => hlistening ▸ h) fun _ => none_handed
    rw [none_handed, hqueue]
    rfl

/-! ## The order of a run -/

/-- Of the posted events the front was handed over and the rest is queued; a reset came last. -/
structure InTurn (past : List Task) (posted : List ConnectionEvent) (l : EventLoop σ κ) : Prop where
  handed : handedOver past ++ l.queue = posted
  order : past.filter Task.toConnection = (handedOver past).map .hand ∨
    past.filter Task.toConnection = (handedOver past).map .hand ++ [.reset] ∧ l.listening = false

namespace InTurn

variable {posted : List ConnectionEvent} {m : EventLoop σ κ}

omit [Sender σ] [Socket κ] in
theorem of_frame (h : InTurn past posted l) {events : List ConnectionEvent} (hqueue : m.queue = l.queue ++ events)
    (hlistening : m.listening = l.listening) : InTurn (past ++ []) (posted ++ events) m := by
  rw [List.append_nil]
  refine ⟨?_, hlistening ▸ h.order⟩
  rw [hqueue, ← List.append_assoc, h.handed]

omit [Sender σ] [Socket κ] in
theorem hands (h : InTurn past posted l) (hands : Hands l m ts) : InTurn (past ++ ts) posted m := by
  cases hands with
  | posted hno hqueue hlistening hdeaf =>
    refine ⟨?_, ?_⟩
    · rw [handedOver_append, List.append_assoc, hqueue, h.handed]
    · rw [List.filter_append, filter_toConnection hno, handedOver_append, List.map_append]
      rcases h.order with order | ⟨order, deaf⟩
      · exact .inl (by rw [order])
      · right
        rw [order, hdeaf deaf]
        refine ⟨by simp, ?_⟩
        cases hm : m.listening with
        | false => rfl
        | true => cases deaf.symm.trans (hlistening hm)
  | reset hqueue hlistening hgone ha hqueue' hdeaf hnone hreset =>
    refine ⟨?_, .inr ⟨?_, hdeaf⟩⟩
    · rw [handedOver_append, hnone, List.append_nil, hqueue', ← hqueue, h.handed]
    · rcases h.order with order | ⟨-, deaf⟩
      · rw [List.filter_append, order, hreset, handedOver_append, hnone, List.append_nil]
      · cases deaf.symm.trans hlistening

theorem step (h : InTurn past posted l) (s : Step κ) :
    InTurn (past ++ l.tasksOf s) (posted ++ l.postedBy s) (l.step s) := by
  cases s with
  | post event =>
    rw [step_post, postedBy]
    split
    · exact h.of_frame (List.append_nil _).symm rfl
    · exact h.of_frame rfl rfl
  | dropHandles | outside => exact h.of_frame (List.append_nil _).symm rfl
  | take turn =>
    unfold EventLoop.step tasksOf
    dsimp only
    split
    · next hcan =>
      show InTurn _ (posted ++ []) _
      rw [List.append_nil]
      exact h.hands (take_hands hcan)
    · exact h.of_frame (List.append_nil _).symm rfl

theorem run (hempty : l.queue = []) (steps : List (Step κ)) :
    InTurn (l.log steps) (l.posted steps) (l.run steps) := by
  induction steps using List.reverseRecOn with
  | nil => exact ⟨hempty, .inl rfl⟩
  | append_singleton steps s ih =>
    rw [log_snoc, posted_snoc, run_snoc]
    exact ih.step s

end InTurn

theorem reset_of_tasksOf {s : Step κ} (h : .reset ∈ l.tasksOf s) :
    l.queue = [] ∧ l.handlesAlive = false ∧ l.bridge.attached = true := by
  unfold tasksOf at h
  split at h
  · next turn =>
    split at h
    · next hcan =>
      cases take_hands hcan with
      | posted hno => exact absurd h hno
      | reset hqueue _ hgone ha => exact ⟨hqueue, hgone, ha⟩
    · cases h
  · cases h

/-! ## Nothing after the end -/

theorem Task.event_of_finished {b : Bridge σ} (h : (t.on b).2 = .finished) : ∃ e, t.event? = some e := by
  cases t with
  | serve | drop => cases h
  | hand | reset | report => exact ⟨_, rfl⟩

/-- A bridge over a sound stream that no event has reached too late. -/
structure Unharmed (b : Bridge σ) : Prop where
  tidy : b.Tidy
  clean : b.Clean .none 0

omit [Sender σ] in
theorem Unharmed.violations (h : Unharmed b) : b.stats.invariantViolations = 0 := by
  have none_enabled : b.calls.any Call.closesEnabled = false := by
    rw [List.any_eq_false]
    intro call hc he
    cases call with
    | closeStream enabled input output =>
      obtain ⟨hsub, -⟩ := h.clean.closes _ hc enabled input output rfl
      rw [Call.closesEnabled, (Directions.subset_none_iff enabled).mp hsub] at he
      cases he
    | _ => cases he
  rw [h.clean.counted, none_enabled]
  rfl

theorem Unharmed.react (h : Unharmed b) (hf : b.finished = false) (e : Event) : Unharmed (b.react e).1 := by
  refine ⟨h.tidy.react e, ?_⟩
  have stepped := Bridge.Clean.step (n := 0) h.clean h.tidy (.event e)
  simp only [Bridge.lateEvent, hf] at stepped
  exact stepped

namespace Proceeds

theorem unharmed (h : Proceeds b stage past) (start : Unharmed b) (hopen : b.finished = false) :
    Unharmed (replay b past) ∧ ((replay b past).finished = true ↔ stage ≠ .working) := by
  induction h with
  | start => exact ⟨start, by simp [hopen]⟩
  | @serve past s s' _ hs narrows ih =>
    rw [replay_append]
    refine ⟨⟨ih.1.tidy.keep hs s', ?_⟩, ih.2⟩
    exact ih.1.clean.of_calls [] rfl (by simp) (ih.1.clean.sticky_of_eq hs narrows.sticky_eq) rfl
  | @deliver past t e _ ht hactive ih =>
    have unfinished : (replay b past).finished = false := by simpa using ih.2
    rw [replay_append, replay_cons, replay_nil]
    rw [Task.on_event ht] at hactive ⊢
    refine ⟨ih.1.react unfinished e, ?_⟩
    rw [← ih.1.tidy.react_status, hactive]
    simp
  | @finish past t e _ ht hfinished ih =>
    have unfinished : (replay b past).finished = false := by simpa using ih.2
    rw [replay_append, replay_cons, replay_nil]
    rw [Task.on_event ht] at hfinished ⊢
    refine ⟨ih.1.react unfinished e, ?_⟩
    rw [← ih.1.tidy.react_status, hfinished]
    simp
  | @drop past _ ih =>
    rw [replay_append]
    have dropped : (replay b past).drop = { replay b past with
        peer := none, calls := (replay b past).releases ++ (replay b past).calls } := Bridge.releasePeer_eq _
    refine ⟨⟨ih.1.tidy.releasePeer, ?_⟩, ?_⟩
    · show (replay b past).drop.Clean _ _
      rw [dropped]
      exact ih.1.clean.of_calls _ rfl
        (fun call hc => Call.not_closesStream_of_toPeer (Bridge.releases_toPeer _ call hc)) ih.1.clean.sticky rfl
    · show (replay b past).drop.finished = true ↔ _
      rw [Bridge.drop_finished]
      simp [ih.2]

theorem of_append {before after : List Task} (h : Proceeds b stage (before ++ after)) :
    ∃ stage, Proceeds b stage before := by
  induction after using List.reverseRecOn generalizing stage with
  | nil => exact ⟨stage, by simpa using h⟩
  | append_singleton after u ih =>
    rw [← List.append_assoc] at h
    rcases h.init with ⟨h, -⟩ | ⟨h, -⟩
    · exact ih h
    · exact ih h

theorem after_finished (start : Unharmed b) (hopen : b.finished = false) {before after : List Task}
    (h : Proceeds b stage (before ++ t :: after)) (hfinished : (t.on (replay b before)).2 = .finished) :
    after = [] ∧ stage = .finished ∨ after = [.drop] ∧ stage = .gone := by
  obtain ⟨e, ht⟩ := Task.event_of_finished hfinished
  -- From the end of the log: what comes before the last task must have left the loop at work or about to drop.
  induction after using List.reverseRecOn generalizing stage with
  | nil =>
    have working := h.before_event ht
    have unharmed := (working.unharmed start hopen).1
    have finished : (replay b (before ++ [t])).finished = true := by
      rw [replay_append, replay_cons, replay_nil, Task.on_event ht]
      rw [Task.on_event ht] at hfinished
      exact (unharmed.tidy.react_status e).mp hfinished
    have stopped : stage ≠ .working := (h.unharmed start hopen).2.mp finished
    rcases h.init with ⟨-, hne⟩ | ⟨-, -, rfl⟩
    · cases stage with
      | working => exact absurd rfl stopped
      | finished => exact .inl ⟨rfl, rfl⟩
      | gone => exact absurd rfl hne
    · cases ht
  | append_singleton after u ih =>
    rw [← List.cons_append, ← List.append_assoc] at h
    rcases h.init with ⟨past, -⟩ | ⟨past, rfl, rfl⟩
    · rcases ih past with ⟨-, hs⟩ | ⟨-, hs⟩ <;> cases hs
    · rcases ih past with ⟨rfl, -⟩ | ⟨-, hs⟩
      · exact .inr ⟨rfl, rfl⟩
      · cases hs

theorem finished_by (h : Proceeds b .gone past) :
    ∃ before t, past = before ++ [t, .drop] ∧ (t.on (replay b before)).2 = .finished := by
  cases h with
  | drop h =>
    cases h with
    | @finish before t e _ _ hfinished => exact ⟨before, t, by simp, hfinished⟩

end Proceeds

omit [Socket κ] in
theorem Logged.unharmed (h : Logged b past l) (start : Unharmed b) (hopen : b.finished = false) :
    Unharmed l.whole ∧ (l.whole.finished = true ↔ l.ended = true) := by
  obtain ⟨unharmed, ends⟩ := h.proceeds.unharmed start hopen
  rw [← h.whole] at unharmed ends
  refine ⟨unharmed, ends.trans ?_⟩
  cases l.ended <;> simp

omit [Socket κ] in
/-- The task that finishes the bridge is the last one but for the dropping, and ends the loop. -/
theorem Logged.stops (h : Logged b past l) (start : Unharmed b) (hopen : b.finished = false) {before after : List Task}
    (hsplit : past = before ++ t :: after) (hfinished : (t.on (replay b before)).2 = .finished) :
    after = [.drop] ∧ l.ended = true := by
  have proceeds := h.proceeds
  rw [hsplit] at proceeds
  -- A loop is never left with a finished bridge that it still holds.
  cases hended : l.ended with
  | true =>
    rw [hended] at proceeds
    rcases proceeds.after_finished start hopen hfinished with ⟨-, hs⟩ | ⟨hafter, -⟩
    · cases hs
    · exact ⟨hafter, rfl⟩
  | false =>
    rw [hended] at proceeds
    rcases proceeds.after_finished start hopen hfinished with ⟨-, hs⟩ | ⟨-, hs⟩ <;> cases hs

omit [Socket κ] in
theorem Logged.ended_iff (h : Logged b past l) (start : Unharmed b) (hopen : b.finished = false) :
    l.ended = true ↔
      ∃ before t after, past = before ++ t :: after ∧ (t.on (replay b before)).2 = .finished := by
  constructor
  · intro hended
    have proceeds := h.proceeds
    rw [hended] at proceeds
    obtain ⟨before, t, hsplit, hfinished⟩ := Proceeds.finished_by proceeds
    exact ⟨before, t, [.drop], hsplit, hfinished⟩
  · rintro ⟨before, t, after, hsplit, hfinished⟩
    exact (h.stops start hopen hsplit hfinished).2

omit [Sender σ] [Socket κ] in
theorem unharmed_launch (sender : σ) (config : Config) (socket : Option κ) (peer : Option PeerId) :
    Unharmed (launchHolding sender config socket peer).bridge := by
  have tidy := Bridge.tidy_new sender {} config
  have clean := Bridge.clean_new sender {} config
  exact ⟨⟨⟨tidy.open_of_attached, tidy.finished_iff⟩, tidy.orderly⟩, ⟨clean.sticky, clean.closes, clean.counted⟩⟩

/-- Along any run: what is delivered from the connection's side is the front of what was posted, in order and then
at most a reset, and nothing is delivered after the bridge has finished. The log says all that was done with the
bridge. -/
theorem handed_over_in_order (sender : σ) (config : Config) (socket : Option κ) (peer : Option PeerId)
    (steps : List (Step κ)) :
    let start := launchHolding sender config socket peer
    let l := start.run steps
    let log := start.log steps
    l.whole = replay start.bridge log ∧
    (∃ resets, log.filter Task.toConnection = (handedOver log).map .hand ++ resets ∧
      (resets = [] ∨ resets = [.reset])) ∧
    handedOver log ++ l.queue = start.posted steps ∧
    (∀ s, .reset ∈ l.tasksOf s →
      l.handlesAlive = false ∧ handedOver log = start.posted steps ∧ l.bridge.attached = true) ∧
    (∀ before t after e, log = before ++ t :: after → t.event? = some e →
      (replay start.bridge before).finished = false ∧
      (((replay start.bridge before).react e).2 = .finished → after = [.drop])) ∧
    (∀ before after, log = before ++ after → (replay start.bridge before).stats.invariantViolations = 0) ∧
    (l.ended = true ↔ ∃ before t after, log = before ++ t :: after ∧ (t.on (replay start.bridge before)).2 = .finished) ∧
    (l.ended = true → l.calls.count .closeConnection = 1) := by
  intro start l log
  have unharmed : Unharmed start.bridge := unharmed_launch sender config socket peer
  have hopen : start.bridge.finished = false := rfl
  have logged : Logged start.bridge log l := Logged.run (l := start) rfl steps
  have turn : InTurn log (start.posted steps) l := InTurn.run rfl steps
  have proceeds := logged.proceeds
  refine ⟨logged.whole, ?_, turn.handed, ?_, ?_, ?_, logged.ended_iff unharmed hopen, ?_⟩
  · rcases turn.order with order | ⟨order, -⟩
    · exact ⟨[], by rw [order, List.append_nil], .inl rfl⟩
    · exact ⟨_, order, .inr rfl⟩
  · intro s hs
    obtain ⟨hqueue, hgone, ha⟩ := reset_of_tasksOf hs
    have handed := turn.handed
    rw [hqueue, List.append_nil] at handed
    exact ⟨hgone, handed, ha⟩
  · intro before t after e hsplit ht
    have working : Proceeds start.bridge .working before := by
      rw [hsplit] at proceeds
      exact proceeds.before_event ht
    refine ⟨?_, fun hfinished => ?_⟩
    · simpa using (working.unharmed unharmed hopen).2
    · rw [← Task.on_event ht] at hfinished
      exact (logged.stops unharmed hopen hsplit hfinished).1
  · intro before after hsplit
    rw [hsplit] at proceeds
    obtain ⟨stage, past⟩ := proceeds.of_append
    exact (past.unharmed unharmed hopen).1.violations
  · intro hended
    obtain ⟨⟨tidy, -⟩, ends⟩ := logged.unharmed unharmed hopen
    have between : Between (.ofConfig config) l := Between.run (l := start) ⟨rfl, rfl⟩ steps
    have closed := (tidy.closed_once (ends.mpr hended)).1
    rw [Bridge.trace, List.count_reverse, between.whole_calls] at closed
    exact closed

/-- One event is posted before the last handle goes. The connection is then reset, and the loop ends once the
socket has taken the byte. -/
theorem handed_over_in_order_reset :
    let start : EventLoop Unlimited Pair := launchHolding {} {} (some {}) (some 7)
    let steps : List (Step Pair) := [.post (.read [1]), .dropHandles, .take .events]
    let l := start.run steps
    let later := steps ++ [.take .events, .take (.ready { writable := true })]
    let m := start.run later
    (.reset ∈ l.tasksOf (.take .events) ∧ l.handlesAlive = false ∧ l.bridge.attached = true) ∧
    start.log later = [.hand (.read [1]), .reset, .serve { enabled := .onlyWrite }, .report .drained, .drop] ∧
    (replay start.bridge ((start.log later).take 3)).finished = false ∧
    m.ended = true ∧ m.calls.count .closeConnection = 1 := by
  intro start steps l later m
  have resets : .reset ∈ l.tasksOf (.take .events) := by decide +kernel
  have logged : start.log later =
      [.hand (.read [1]), .reset, .serve { enabled := .onlyWrite }, .report .drained, .drop] := by decide +kernel
  have hended : m.ended = true := by decide +kernel
  obtain ⟨-, -, -, reset_last, -⟩ := handed_over_in_order ({} : Unlimited) {} (some ({} : Pair)) (some 7) steps
  obtain ⟨-, -, -, -, unfinished, -, -, closed⟩ :=
    handed_over_in_order ({} : Unlimited) {} (some ({} : Pair)) (some 7) later
  obtain ⟨hgone, -, ha⟩ := reset_last (.take .events) resets
  refine ⟨⟨resets, hgone, ha⟩, logged, ?_, hended, closed hended⟩
  rw [logged]
  exact (unfinished [.hand (.read [1]), .reset, .serve { enabled := .onlyWrite }] (.report .drained) [.drop] _
    logged rfl).1

end Splice.EventLoop
