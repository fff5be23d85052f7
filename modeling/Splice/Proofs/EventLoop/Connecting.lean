import Splice.Proofs.EventLoop.Running
import Splice.Socket.Pair

/-!
# Half-closes around an outbound connect

While a connect is in progress there is no socket whose writing could end. A half-close that the bridge
calls for then is lost: it is not made up for when the socket comes. Main statement: the writing of an
attached socket has ended exactly if the bridge called for it after the connect. A half-close that waits
for queued output is called for only once the output has been written, so that one is passed on.
-/

namespace Splice.EventLoop

variable {σ : Type}

/-- From outside nothing ends the near end's own writing. -/
def Step.SparesHalf : Step Pair → Prop
  | .outside change => ∀ p, (change p).nearWriteShut = p.nearWriteShut
  | _ => True

/-! ## The writing of the near end -/

/-- Whether the near end has ended its writing, once there is a socket. -/
def writingEnded (socket : Option Pair) : Option Bool := socket.map (·.nearWriteShut)

theorem read_nearWriteShut (p : Pair) (limit : Nat) : (p.read limit).2.nearWriteShut = p.nearWriteShut := by
  unfold Pair.read
  repeat' split
  all_goals rfl

theorem write_nearWriteShut (p : Pair) (data : List UInt8) : (p.write data).2.nearWriteShut = p.nearWriteShut := by
  unfold Pair.write Pair.accept
  repeat' split
  all_goals rfl

theorem close_nearWriteShut (p : Pair) : p.close.nearWriteShut = p.nearWriteShut := by
  unfold Pair.close
  split <;> rfl

theorem serve_writingEnded (b : Buffered Pair) (ready : Readiness) :
    writingEnded (b.serve ready).1.socket = writingEnded b.socket := by
  refine serve_preserves (P := fun c => writingEnded c.socket = writingEnded b.socket) ready ?_ ?_ rfl
  · intro c _ h
    rw [← h, attemptRead_socket, writingEnded, Option.map_map]
    exact Option.map_congr fun p _ => read_nearWriteShut p _
  · intro c h
    rw [← h, attemptWrite_socket, writingEnded, Option.map_map]
    exact Option.map_congr fun p _ => write_nearWriteShut p _

theorem foldl_applyCall_nearWriteShut (p : Pair) (calls : List Call) :
    (calls.foldl applyCall p).nearWriteShut = (p.nearWriteShut || decide (.shutdownStream ∈ calls)) := by
  induction calls generalizing p with
  | nil => simp
  | cons call calls ih =>
    rw [List.foldl_cons, ih]
    cases call with
    | shutdownStream => simp [applyCall, Socket.shutdownWrite, Pair.shutdownWrite]
    | closeStream => simp [applyCall, Socket.close, close_nearWriteShut]
    | _ => simp [applyCall]

/-! ## From the connect on -/

/-- The connect has completed, and the socket has been told of every half-close called for since some
earlier calls, and of no others. -/
structure InTouch (earlier : List Call) (l : EventLoop σ Pair) : Prop where
  connected : l.connecting = false
  told : ∃ since, l.calls = since ++ earlier ∧ writingEnded l.socket = some (decide (.shutdownStream ∈ since))

namespace InTouch

variable {earlier : List Call} {l : EventLoop σ Pair}

theorem of_socket (h : InTouch earlier l) {socket : Option Pair} (hs : writingEnded socket = writingEnded l.socket) :
    InTouch earlier { l with socket } := by
  obtain ⟨since, hcalls, htold⟩ := h.told
  exact ⟨h.connected, since, hcalls, hs.trans htold⟩

theorem absorb (h : InTouch earlier l) (reaction : Bridge σ × Status) : InTouch earlier (l.absorb reaction) := by
  obtain ⟨since, hcalls, htold⟩ := h.told
  obtain ⟨p, hp, hended⟩ := Option.map_eq_some_iff.mp htold
  refine ⟨h.connected, (callsOf reaction).reverse ++ since, ?_, ?_⟩
  · rw [absorb_calls, hcalls, List.append_assoc]
  · rw [absorb_socket, hp, Option.map_some, writingEnded, Option.map_some, foldl_applyCall_nearWriteShut, hended]
    simp [or_comm]

variable [Sender σ]

theorem absorbStream (h : InTouch earlier l) {result : Buffered Pair × List StreamEvent}
    (hs : writingEnded result.1.socket = writingEnded l.socket) : InTouch earlier (l.absorbStream result) :=
  (h.of_socket hs).absorb _

theorem takeEvents (h : InTouch earlier l) : InTouch earlier l.takeEvents := by
  unfold EventLoop.takeEvents
  split
  · have deaf : InTouch earlier { l with listening := false } := ⟨h.connected, h.told⟩
    dsimp only
    split
    · exact deaf.absorb _
    · exact deaf
  · have taken : ∀ queue, InTouch earlier { l with queue } := fun _ => ⟨h.connected, h.told⟩
    exact (taken _).absorb _

theorem take (h : InTouch earlier l) {turn : Turn Pair} (hcan : l.possible turn = true) :
    InTouch earlier (l.take turn) := by
  cases turn with
  | events => exact h.takeEvents
  | connected | connectFailed => simp [possible, h.connected] at hcan
  | ready readiness =>
    unfold EventLoop.take
    dsimp only
    split
    · exact h
    · next b hb =>
      refine h.absorbStream ((serve_writingEnded b readiness).trans ?_)
      rw [buffered_socket hb]
  | watchFailed =>
    unfold EventLoop.take
    dsimp only
    split
    · exact h
    · next b hb =>
      refine h.absorbStream ?_
      rw [← buffered_socket hb]
      rfl

theorem step (h : InTouch earlier l) {s : Step Pair} (hspare : s.SparesHalf) : InTouch earlier (l.step s) := by
  cases s with
  | post event =>
    unfold EventLoop.step post?
    dsimp only
    split
    · exact h
    · exact ⟨h.connected, h.told⟩
  | dropHandles => exact ⟨h.connected, h.told⟩
  | take turn =>
    unfold EventLoop.step
    dsimp only
    split
    · next hcan => exact h.take hcan
    · exact h
  | outside change =>
    refine h.of_socket ?_
    rw [writingEnded, Option.map_map]
    exact Option.map_congr fun p _ => hspare p

theorem run (h : InTouch earlier l) {steps : List (Step Pair)} (hspare : ∀ s ∈ steps, s.SparesHalf) :
    InTouch earlier (l.run steps) := by
  induction steps using List.reverseRecOn with
  | nil => exact h
  | append_singleton steps s ih =>
    rw [run_snoc]
    exact (ih fun s hs => hspare s (List.mem_append_left _ hs)).step (hspare s (by simp))

theorem of_connect {p : Pair} (hopen : l.bridge.stream.isSome = true) (hfresh : p.nearWriteShut = false) :
    InTouch l.calls (l.take (.connected p)) := by
  obtain ⟨s, hs⟩ := Option.isSome_iff_exists.mp hopen
  have attached : InTouch l.calls { l with connecting := false, socket := some p } :=
    ⟨rfl, [], rfl, by simp [writingEnded, hfresh]⟩
  unfold EventLoop.take takeConnected buffered?
  simp only [hs, Option.map_some]
  exact attached.absorb _

end InTouch

variable [Sender σ]

/-- Whatever was posted, read and written before the connect and after it, the writing of the attached socket
has ended exactly if the bridge called for that after the connect. -/
theorem half_closed_since_connect (sender : σ) (config : Config) (before after : List (Step Pair)) (p : Pair)
    (hfresh : p.nearWriteShut = false) (hspare : ∀ s ∈ after, s.SparesHalf) :
    let l := (launch sender config none).run before
    let m := (l.step (.take (.connected p))).run after
    l.possible (.connected p) = true → l.bridge.stream.isSome = true →
      ∃ q, m.socket = some q ∧
        (q.nearWriteShut = true ↔ .shutdownStream ∈ m.calls ∧ .shutdownStream ∉ l.calls) := by
  intro l m hcan hopen
  have connects : l.step (.take (.connected p)) = l.take (.connected p) := if_pos hcan
  have in_touch : InTouch l.calls m := by
    simp only [m, connects]
    exact (InTouch.of_connect hopen hfresh).run hspare
  obtain ⟨since, hcalls, htold⟩ := in_touch.told
  obtain ⟨q, hq, hended⟩ := Option.map_eq_some_iff.mp htold
  -- Over the whole run the bridge calls for it at most once.
  have once : m.calls.count .shutdownStream ≤ 1 := by
    have whole_run : m = (launch sender config none).run (before ++ .take (.connected p) :: after) := by
      simp only [m, l, run, List.foldl_append, List.foldl_cons]
    have sealed := run_sealed sender config none (before ++ .take (.connected p) :: after)
    rw [← whole_run] at sealed
    refine Nat.le_trans ?_ sealed.output_ended_once
    exact (List.sublist_append_right m.bridge.calls m.calls).count_le _
  rw [hcalls, List.count_append] at once
  refine ⟨q, hq, ?_⟩
  rw [hended, decide_eq_true_iff, hcalls, List.mem_append]
  constructor
  · intro hsince
    have := List.count_pos_iff.mpr hsince
    exact ⟨.inl hsince, List.count_eq_zero.mp (by omega)⟩
  · rintro ⟨hsince | hearlier, hno⟩
    · exact hsince
    · exact absurd hearlier hno

/-- The connection ends with a byte queued, before the connect. The half-close waits for the byte to be
written, and so for the socket: the far end reads the byte and then the end. -/
theorem half_closed_since_connect_queued :
    let l : EventLoop Unlimited Pair := (launch {} {} none).run [.post (.read [0x78]), .post .eof, .take .events]
    let m := (l.step (.take (.connected { transport := .tcp }))).run
      [.outside Pair.farShutdownWrite, .take (.ready { writable := true })]
    l.bridge.suspended = true ∧
      ∃ q, m.socket = some q ∧ q.nearWriteShut = true ∧ q.farRead.1 = ⟨[0x78], .eof⟩ := by
  intro l m
  have told : .shutdownStream ∈ m.calls ∧ .shutdownStream ∉ l.calls := by decide
  obtain ⟨q, hq, hended⟩ := half_closed_since_connect ({} : Unlimited) {}
    [.post (.read [0x78]), .post .eof, .take .events]
    [.outside Pair.farShutdownWrite, .take (.ready { writable := true })] { transport := .tcp } rfl
    (by simp [Step.SparesHalf, Pair.farShutdownWrite]) (by decide) (by decide)
  have far : m.socket.map (·.farRead.1) = some ⟨[0x78], .eof⟩ := by decide
  rw [hq] at far
  exact ⟨by decide, q, hq, hended.mpr told, Option.some.inj far⟩

/-- The connection ends with nothing queued, before the connect. The stream has been told to end its writing
and is still open, and the socket is attached, but the far end sees no end. -/
theorem half_close_lost_in_connect :
    let m : EventLoop Unlimited Pair := (launch {} {} none).run
      [.post .eof, .take .events, .take (.connected { transport := .tcp })]
    .shutdownStream ∈ m.calls ∧ m.bridge.stream.isSome = true ∧
      ∃ q, m.socket = some q ∧ q.nearWriteShut = false ∧ q.farRead.1 = ⟨[], .open⟩ := by
  intro m
  exact ⟨by decide, by decide, { transport := .tcp }, by decide, rfl, by decide⟩

end Splice.EventLoop
