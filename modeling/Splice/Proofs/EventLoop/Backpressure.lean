import Splice.Proofs.Bridge.Backpressure
import Splice.Proofs.EventLoop.Running
import Splice.Socket.Pair

/-!
# Backpressure on a socket

A loop does not read its socket while the input has reached the watermark. As the watermark is at least one
chunk, the input is then not empty, so that the connection has refused it and has yet to say that it is writable
again: reading never stops for good. And the input outgrows the watermark by no more than one read.
-/

namespace Splice

/-! ## What is read -/

namespace Buffered

variable {κ : Type} [Socket κ]

def block? (b : Buffered κ) (ready : Readiness) : Option (List UInt8) :=
  if b.wantsRead && (ready.readable || ready.readClosed) then
    b.socket.bind fun socket =>
      match (Socket.read socket b.limits.readCapacity).1 with
      | .data block => some block
      | _ => none
  else none

inductive Served (b : Buffered κ) (ready : Readiness) : Buffered κ × List StreamEvent → Prop
  | unread {c : Buffered κ} {events : List StreamEvent} : c.stream.input = b.stream.input → Served b ready (c, events)
  | read {c : Buffered κ} {block : List UInt8} {events : List StreamEvent} : b.wantsRead = true →
      b.block? ready = some block → c.stream.input = b.stream.input ++ block →
      Served b ready (c, .readable :: events)

theorem attemptWrite_input (b : Buffered κ) : b.attemptWrite.after.stream.input = b.stream.input := by
  unfold attemptWrite
  split
  · rfl
  split
  dsimp only
  split
  all_goals rfl

theorem attemptRead_input (b : Buffered κ) :
    b.attemptRead.after.stream.input = b.stream.input ∨
      ∃ socket block, b.socket = some socket ∧ (Socket.read socket b.limits.readCapacity).1 = .data block ∧
        b.attemptRead.event = some .readable ∧ b.attemptRead.after.stream.input = b.stream.input ++ block := by
  unfold attemptRead
  cases hs : b.socket with
  | none => exact .inl rfl
  | some socket =>
    dsimp only
    rcases hread : (Socket.read socket b.limits.readCapacity).1 with (_ | ⟨byte, block⟩) | _ | _
    · exact .inl rfl
    · exact .inr ⟨socket, byte :: block, rfl, hread, rfl, rfl⟩
    · exact .inl rfl
    · exact .inl rfl

theorem serve_served (b : Buffered κ) (ready : Readiness) : Served b ready (b.serve ready) := by
  -- Writing comes second and leaves the input alone.
  have writes : ∀ (c : Buffered κ) (p : Bool),
      (if p then c.attemptWrite else { after := c } : Attempt κ).after.stream.input = c.stream.input := by
    intro c p
    cases p with
    | false => rfl
    | true => exact attemptWrite_input c
  unfold serve
  cases hr : b.wantsRead && (ready.readable || ready.readClosed) with
  | false => exact .unread (writes b _)
  | true =>
    simp only [if_true]
    rcases attemptRead_input b with same | ⟨socket, block, hs, hread, hevent, hinput⟩
    · split
      · exact .unread same
      · exact .unread ((writes _ _).trans same)
    · rw [hevent]
      refine .read (Bool.and_eq_true_iff.mp hr).1 ?_ ((writes _ _).trans hinput)
      rw [block?, hr, if_pos rfl, hs, Option.bind_some, hread]

end Buffered

namespace EventLoop

variable {σ κ : Type} {l : EventLoop σ κ}

theorem buffered_limits {b : Buffered κ} (h : l.buffered? = some b) : b.limits = l.limits := by
  obtain ⟨s, -, rfl⟩ := Option.map_eq_some_iff.mp h
  rfl

/-! ## Starts -/

/-- The loops that can be started with a configuration that is accepted. -/
inductive Starts (sender : σ) (config : Config) : EventLoop σ κ → Prop
  | pair {near : κ} {l : EventLoop σ κ} : overPair sender config near = .ok l → Starts sender config l
  | linkedPair {near : κ} {peer : PeerId} {l : EventLoop σ κ} :
      overLinkedPair sender config near peer = .ok l → Starts sender config l
  | outbound {address : SocketAddress} {refused : Option String} {l : EventLoop σ κ} :
      EventLoop.outbound sender config address refused = .ok l → Starts sender config l

theorem checked_ok {config : Config} {start : Except Error (EventLoop σ κ)} (h : checked config start = .ok l) :
    config.Valid ∧ start = .ok l := by
  rw [← config.fault?_eq_none_iff]
  unfold checked at h
  split at h
  · cases h
  next hvalid =>
  split at h
  · cases h
  · cases h
    exact ⟨hvalid, rfl⟩

/-- What is as it was at the start between any two steps. -/
structure Between (limits : Limits) (l : EventLoop σ κ) : Prop where
  limits_eq : l.limits = limits
  collected : l.bridge.calls = []

theorem Between.whole_calls {limits : Limits} (h : Between limits l) : l.whole.calls = l.calls := by
  rw [whole, Bridge.since_calls, h.collected, List.nil_append]

structure Fresh (config : Config) (l : EventLoop σ κ) : Prop extends Between (.ofConfig config) l where
  valid : config.Valid
  tidy : l.whole.Tidy
  held : l.whole.Held
  empty : l.bridge.pending = []

theorem Starts.fresh {sender : σ} {config : Config} (h : Starts sender config l) : Fresh config l := by
  have tidy := Bridge.tidy_new sender {} config
  have held := Bridge.held_new sender config
  cases h with
  | pair h =>
    obtain ⟨valid, launched⟩ := checked_ok h
    cases launched
    exact ⟨⟨rfl, rfl⟩, valid, tidy, held, rfl⟩
  | @linkedPair _ peer _ h =>
    unfold overLinkedPair at h
    dsimp only at h
    obtain ⟨valid, launched⟩ := checked_ok h
    cases launched
    exact ⟨⟨rfl, rfl⟩, valid, tidy.holdPeer peer, held.holdPeer peer, rfl⟩
  | @outbound _ refused _ h =>
    obtain ⟨valid, launched⟩ := checked_ok h
    cases refused with
    | some text => cases launched
    | none =>
      cases launched
      exact ⟨⟨rfl, rfl⟩, valid, tidy, held, rfl⟩

variable [Sender σ]

def wholeServed (l : EventLoop σ κ) (result : Buffered κ × List StreamEvent) : Bridge σ :=
  (deliverStream (l.bridge.keep result.1.stream) result.2).1.since l.calls

/-! ## What is kept by a loop -/

/-- What is kept by everything that a loop does with its bridge, apart from serving the stream. -/
structure Stable (P : Bridge σ → Prop) : Prop where
  react : ∀ {b} (event : Event), P b → P (b.react event).1
  drop : ∀ {b}, P b → P b.drop
  disable : ∀ {b s}, b.stream = some s → P b → P (b.keep { s with enabled := .none })

namespace Stable

variable {P : Bridge σ → Prop} {b : Bridge σ} {earlier : List Call}

theorem react_since (h : Stable P) (event : Event) (start : P (b.since earlier)) :
    P ((b.react event).1.since earlier) := by
  have reacts := h.react event start
  rw [Bridge.react_since] at reacts
  exact reacts

theorem deliver (h : Stable P) (limit : Nat) (queue : List ConnectionEvent) (start : P (b.since earlier)) :
    P ((deliver limit b queue).1.1.since earlier) := by
  fun_induction EventLoop.deliver limit b queue with
  | case1 | case2 => exact start
  | case3 b _ event => exact h.react_since (.connection event) start
  | case4 b _ event _ _ _ ih => exact ih (h.react_since (.connection event) start)

theorem deliverStream (h : Stable P) (events : List StreamEvent) (start : P (b.since earlier)) :
    P ((deliverStream b events).1.since earlier) := by
  fun_induction EventLoop.deliverStream b events with
  | case1 => exact start
  | case2 b event => exact h.react_since (.stream event) start
  | case3 b event _ _ _ ih => exact ih (h.react_since (.stream event) start)

theorem deliverStream_cons (h : Stable P) {event : StreamEvent} (events : List StreamEvent)
    (first : P ((b.onStream event).1.since earlier)) :
    P ((EventLoop.deliverStream b (event :: events)).1.since earlier) := by
  unfold EventLoop.deliverStream
  dsimp only
  split
  · exact first
  · exact h.deliverStream events first

theorem failed (h : Stable P) {b : Buffered κ} (hb : l.buffered? = some b) (start : P l.whole) :
    P ((EventLoop.deliverStream (l.bridge.keep { b.stream with enabled := .none })
      [.error .both]).1.since l.calls) := by
  have disabled : P (l.whole.keep { b.stream with enabled := .none }) := h.disable (buffered_stream hb) start
  exact h.deliverStream [.error .both] disabled

variable [Socket κ]

theorem absorb (h : Stable P) {reaction : Bridge σ × Status} (reacted : P (reaction.1.since l.calls)) :
    P (l.absorb reaction).whole := by
  rw [whole_absorb]
  split
  · exact h.drop reacted
  · exact reacted

theorem take (h : Stable P) (turn : Turn κ) (start : P l.whole)
    (serve : ∀ ready b, turn = .ready ready → l.buffered? = some b → P (l.wholeServed (b.serve ready))) :
    P (l.take turn).whole := by
  cases turn with
  | events =>
    unfold EventLoop.take takeEvents
    dsimp only
    split
    · split
      · exact h.absorb (h.react_since (.connection (.error .reset)) start)
      · exact start
    · exact h.absorb (h.deliver batchSize l.queue start)
  | connected socket =>
    unfold EventLoop.take takeConnected
    dsimp only
    split
    · exact h.absorb (h.react_since (.stream .connected) start)
    next b hb =>
    have same : l.bridge.keep b.stream = l.bridge := Bridge.keep_self (buffered_stream hb)
    have attached : P ((l.bridge.keep b.stream).since l.calls) := by
      rw [same]
      exact start
    exact h.absorb (h.deliverStream [.connected] attached)
  | connectFailed =>
    unfold EventLoop.take takeConnectFailed
    dsimp only
    split
    · exact h.absorb (h.react_since (.stream .connected) start)
    · next b hb => exact h.absorb (h.failed hb start)
  | ready ready =>
    unfold EventLoop.take
    dsimp only
    split
    · exact start
    · next b hb => exact h.absorb (serve ready b rfl hb)
  | watchFailed =>
    unfold EventLoop.take
    dsimp only
    split
    · exact start
    · next b hb => exact h.absorb (h.failed hb start)

theorem step (h : Stable P) (s : Step κ) (start : P l.whole)
    (serve : ∀ ready b, s = .take (.ready ready) → l.possible (.ready ready) = true → l.buffered? = some b →
      P (l.wholeServed (b.serve ready))) :
    P (l.step s).whole := by
  cases s with
  | post event =>
    unfold EventLoop.step post?
    dsimp only
    split
    all_goals exact start
  | dropHandles | outside => exact start
  | take turn =>
    unfold EventLoop.step
    dsimp only
    split
    · next hcan =>
      refine h.take turn start fun ready b hready => ?_
      subst hready
      exact serve ready b rfl hcan
    · exact start

end Stable

variable [Socket κ]

theorem Between.take {limits : Limits} (h : Between limits l) (turn : Turn κ) : Between limits (l.take turn) := by
  cases turn with
  | events =>
    unfold EventLoop.take takeEvents
    dsimp only
    split
    · split
      · exact ⟨h.limits_eq, rfl⟩
      · exact ⟨h.limits_eq, h.collected⟩
    · exact ⟨h.limits_eq, rfl⟩
  | connected | connectFailed =>
    unfold EventLoop.take
    dsimp only [takeConnected, takeConnectFailed]
    split
    all_goals exact ⟨h.limits_eq, rfl⟩
  | ready | watchFailed =>
    unfold EventLoop.take
    dsimp only
    split
    · exact h
    · exact ⟨h.limits_eq, rfl⟩

theorem Between.step {limits : Limits} (h : Between limits l) (s : Step κ) : Between limits (l.step s) := by
  unfold EventLoop.step
  cases s with
  | post event =>
    dsimp only [post?]
    split
    · exact h
    · exact ⟨h.limits_eq, h.collected⟩
  | dropHandles | outside => exact ⟨h.limits_eq, h.collected⟩
  | take turn =>
    dsimp only
    split
    · exact h.take turn
    · exact h

theorem Between.run {limits : Limits} (h : Between limits l) (steps : List (Step κ)) :
    Between limits (l.run steps) := by
  induction steps using List.reverseRecOn with
  | nil => exact h
  | append_singleton steps s ih =>
    rw [run_snoc]
    exact ih.step s

def blocksOf (l : EventLoop σ κ) : Step κ → List (List UInt8)
  | .take (.ready ready) => if l.possible (.ready ready) then (l.buffered?.bind (·.block? ready)).toList else []
  | _ => []

def blocks (l : EventLoop σ κ) (steps : List (Step κ)) : List (List UInt8) := Run.gather step blocksOf l steps

theorem blocks_snoc (l : EventLoop σ κ) (steps : List (Step κ)) (s : Step κ) :
    l.blocks (steps ++ [s]) = l.blocks steps ++ (l.run steps).blocksOf s :=
  Run.gather_snoc ..

/-! ## Input that was refused -/

theorem stable_held : Stable fun b : Bridge σ => b.Tidy ∧ b.Held where
  react event h := ⟨h.1.react event, h.2.react h.1 event⟩
  drop h := ⟨h.1.releasePeer, h.2.releasePeer⟩
  disable hs h := ⟨h.1.keep hs _, h.2.keep hs rfl⟩

theorem wholeServed_held {b : Buffered κ} (hb : l.buffered? = some b) (h : l.whole.Tidy ∧ l.whole.Held)
    (ready : Readiness) : (l.wholeServed (b.serve ready)).Tidy ∧ (l.wholeServed (b.serve ready)).Held := by
  have hs : l.whole.stream = some b.stream := buffered_stream hb
  have served := b.serve_served ready
  generalize b.serve ready = result at served ⊢
  cases served with
  | @unread c events same =>
    have kept : (l.whole.keep c.stream).Tidy ∧ (l.whole.keep c.stream).Held := ⟨h.1.keep hs _, h.2.keep hs same⟩
    exact stable_held.deliverStream events kept
  | @read c block events =>
    -- The new input is reported first, and offered before anything else is done.
    have tidy : (l.whole.keep c.stream).Tidy := h.1.keep hs _
    have offered : ((l.whole.keep c.stream).onStream .readable).1 =
        ((l.bridge.keep c.stream).onStream .readable).1.since l.calls :=
      congrArg Prod.fst (Bridge.onStream_since (l.bridge.keep c.stream) l.calls .readable)
    refine stable_held.deliverStream_cons events ?_
    rw [← offered]
    exact ⟨tidy.react (.stream .readable), Bridge.readable_held tidy h.2.one_le_chunk⟩

theorem run_held (start : l.whole.Tidy ∧ l.whole.Held) (steps : List (Step κ)) :
    (l.run steps).whole.Tidy ∧ (l.run steps).whole.Held := by
  induction steps using List.reverseRecOn with
  | nil => exact start
  | append_singleton steps s ih =>
    rw [run_snoc]
    exact stable_held.step s ih fun ready b _ _ hb => wholeServed_held hb ih ready

/-! ## Bounded input -/

theorem stable_within (bound : Nat) : Stable fun b : Bridge σ => b.Tidy ∧ b.pending.length ≤ bound where
  react event h := ⟨h.1.react event, Nat.le_trans (h.1.react_pending_le event) h.2⟩
  drop h := by
    refine ⟨h.1.releasePeer, ?_⟩
    rw [Bridge.drop, Bridge.releasePeer_eq]
    exact h.2
  disable hs h := by
    refine ⟨h.1.keep hs _, ?_⟩
    rw [Bridge.pending_of_open hs] at h
    exact h.2

theorem serve_input_le {b : Buffered κ} {ready : Readiness} {most : Nat}
    (hinput : b.stream.input.length ≤ b.limits.watermark - 1 + most)
    (hblock : ∀ block, b.block? ready = some block → block.length ≤ most) :
    (b.serve ready).1.stream.input.length ≤ b.limits.watermark - 1 + most := by
  have served := b.serve_served ready
  generalize b.serve ready = result at served ⊢
  cases served with
  | unread same =>
    rw [same]
    exact hinput
  | @read c block events hwants hread happended =>
    have short := hblock block hread
    simp only [Buffered.wantsRead, Bool.and_eq_true, decide_eq_true_eq] at hwants
    rw [happended, List.length_append]
    omega

theorem step_within {limits : Limits} {most : Nat} (between : Between limits l)
    (h : l.whole.Tidy ∧ l.whole.pending.length ≤ limits.watermark - 1 + most) (s : Step κ)
    (hblocks : ∀ block ∈ l.blocksOf s, block.length ≤ most) :
    (l.step s).whole.Tidy ∧ (l.step s).whole.pending.length ≤ limits.watermark - 1 + most := by
  refine (stable_within _).step s h fun ready b hready hcan hb => ?_
  subst hready
  have hs : l.whole.stream = some b.stream := buffered_stream hb
  have hlimits : b.limits = limits := (buffered_limits hb).trans between.limits_eq
  have read_blocks : ∀ block, b.block? ready = some block → block.length ≤ most := by
    intro block hread
    refine hblocks block ?_
    simp [blocksOf, hcan, hb, hread]
  have within : (b.serve ready).1.stream.input.length ≤ limits.watermark - 1 + most := by
    rw [Bridge.pending_of_open hs] at h
    rw [← hlimits] at h ⊢
    exact serve_input_le h.2 read_blocks
  have kept : (l.whole.keep (b.serve ready).1.stream).Tidy := h.1.keep hs _
  exact (stable_within _).deliverStream _ ⟨kept, within⟩

theorem run_within {limits : Limits} {most : Nat} (between : Between limits l)
    (start : l.whole.Tidy ∧ l.whole.pending.length ≤ limits.watermark - 1 + most) (steps : List (Step κ))
    (hblocks : ∀ block ∈ l.blocks steps, block.length ≤ most) :
    (l.run steps).whole.Tidy ∧ (l.run steps).whole.pending.length ≤ limits.watermark - 1 + most := by
  induction steps using List.reverseRecOn with
  | nil => exact start
  | append_singleton steps s ih =>
    rw [blocks_snoc, List.forall_mem_append] at hblocks
    rw [run_snoc]
    exact step_within (between.run steps) (ih hblocks.1) s hblocks.2

/-- Over a behaving stream as well as over a socket: input that an attached bridge holds back was refused. So
where the stream is read but the loop does not want to read it, the latest send was refused. And if no read
gives more than so many bytes, the input outgrows the watermark by less than that. -/
theorem no_lost_wakeup (sender : σ) (config : Config) :
    (∀ moves, let b := (Bridge.new sender {} config).play moves
      b.attached = true → b.pending ≠ [] → LastRefused b.calls) ∧
    ∀ (start : EventLoop σ κ) (steps : List (Step κ)), Starts sender config start →
      let l := start.run steps
      (∀ b, l.buffered? = some b → b.stream.reads = true → b.wantsRead = false → l.bridge.attached = true →
        LastRefused l.calls) ∧
      ∀ most, (∀ block ∈ start.blocks steps, block.length ≤ most) →
        l.bridge.pending.length ≤ config.readHighWatermark - 1 + most ∧
        ∀ b ready, l.buffered? = some b → (∀ block, b.block? ready = some block → block.length ≤ most) →
          (b.serve ready).1.stream.input.length ≤ config.readHighWatermark - 1 + most := by
  refine ⟨fun moves => (Bridge.held_play sender config moves).refused, ?_⟩
  intro start steps hstart l
  have fresh : Fresh config start := hstart.fresh
  have between : Between (.ofConfig config) l := fresh.toBetween.run steps
  refine ⟨?_, ?_⟩
  · intro b hb hreads hwants ha
    have held : l.whole.Held := (run_held ⟨fresh.tidy, fresh.held⟩ steps).2
    have hlimits : b.limits = .ofConfig config := (buffered_limits hb).trans between.limits_eq
    -- The watermark is at least one chunk, and a chunk at least one byte.
    have full : 1 ≤ b.stream.input.length := by
      obtain ⟨one_le_chunk, chunk_le_watermark, -⟩ := fresh.valid
      have above : config.readHighWatermark ≤ b.stream.input.length := by
        rw [Buffered.wantsRead, hreads, Bool.true_and, decide_eq_false_iff_not, Nat.not_lt, hlimits] at hwants
        exact hwants
      omega
    rw [← between.whole_calls]
    refine held.refused ha ?_
    have hs : l.whole.stream = some b.stream := buffered_stream hb
    rw [Bridge.pending_of_open hs]
    exact List.ne_nil_of_length_pos full
  · intro most hblocks
    have empty : start.whole.pending.length ≤ config.readHighWatermark - 1 + most := by
      show start.bridge.pending.length ≤ _
      simp [fresh.empty]
    have within := (run_within fresh.toBetween ⟨fresh.tidy, empty⟩ steps hblocks).2
    refine ⟨within, fun b ready hb hread => ?_⟩
    have hs : l.whole.stream = some b.stream := buffered_stream hb
    have hlimits : b.limits = .ofConfig config := (buffered_limits hb).trans between.limits_eq
    rw [Bridge.pending_of_open hs] at within
    have bounded : b.stream.input.length ≤ b.limits.watermark - 1 + most := by
      rw [hlimits]
      exact within
    have served := serve_input_le bounded hread
    rw [hlimits] at served
    exact served

/-- Three bytes come in one read and are refused. The input has then outgrown the watermark of two, and the
socket is not read. -/
theorem no_lost_wakeup_refused_read :
    let config : Config := { maxChunk := 2, readHighWatermark := 2, readCapacity := 4 }
    let script : Script := { answers := [.accepted 0] }
    let near : Pair := { toNear := [1, 2, 3] }
    let start := launch script config (some near)
    let l := start.run [.take (.ready { readable := true })]
    let b : Bridge Script := (Bridge.new script {} config).play [.stream (.feed [1])]
    (b.attached = true ∧ b.pending ≠ [] ∧ LastRefused b.calls) ∧
    Starts script config start ∧
    (∃ c, l.buffered? = some c ∧ c.stream.reads = true ∧ c.wantsRead = false) ∧
    l.bridge.attached = true ∧ LastRefused l.calls ∧
    l.bridge.pending = [1, 2, 3] ∧ l.bridge.pending.length ≤ 2 - 1 + 3 := by
  intro config script near start l b
  have held : b.attached = true ∧ b.pending ≠ [] := by decide +kernel
  have starts : Starts script config start := .pair (show overPair script config near = .ok start from rfl)
  have attached : l.bridge.attached = true := by decide +kernel
  have blocks : start.blocks [.take (.ready { readable := true })] = [[1, 2, 3]] := by decide +kernel
  obtain ⟨refused, over_socket⟩ := @no_lost_wakeup Script Pair _ _ script config
  obtain ⟨gate, bounded⟩ := over_socket start [.take (.ready { readable := true })] starts
  have gated : l.buffered?.any (fun c => c.stream.reads && !c.wantsRead) = true := by decide +kernel
  obtain ⟨c, hc, hgate⟩ := (Option.any_eq_true _ _).mp gated
  obtain ⟨hreads, hwants⟩ : c.stream.reads = true ∧ c.wantsRead = false := by simpa using hgate
  refine ⟨⟨held.1, held.2, refused [.stream (.feed [1])] held.1 held.2⟩, starts, ⟨c, hc, hreads, hwants⟩, attached,
    gate c hc hreads hwants attached, by decide +kernel, (bounded 3 ?_).1⟩
  simp [blocks]

end EventLoop

end Splice
