import Splice.EventLoop.Starting
import Splice.Proofs.Bridge.Collecting
import Splice.Proofs.Bridge.HalfClosing

/-!
# Runs of an event loop

A run is a list of steps: turns of the loop, in any order in which they are possible, and what others do
between them. Whatever a turn does to the bridge is a series of chores: reactions, changes of the stream
that enable nothing, and the dropping of the bridge. So what every chore keeps holds in every run.
-/

namespace Splice.EventLoop

variable {σ κ : Type}

/-! ## Steps -/

inductive Step (κ : Type)
  | post (event : ConnectionEvent)
  | dropHandles
  | take (turn : Turn κ)
  | outside (change : κ → κ)

/-! ## Collected calls -/

/-- The bridge with all the calls that it has made. -/
def whole (l : EventLoop σ κ) : Bridge σ := l.bridge.since l.calls

def callsOf (reaction : Bridge σ × Status) : List Call :=
  (if reaction.2 = .finished then reaction.1.drop else reaction.1).collect.1

section Absorbing

variable [Socket κ]

theorem absorb_calls (l : EventLoop σ κ) (reaction : Bridge σ × Status) :
    (l.absorb reaction).calls = (callsOf reaction).reverse ++ l.calls := rfl

theorem absorb_socket (l : EventLoop σ κ) (reaction : Bridge σ × Status) :
    (l.absorb reaction).socket = l.socket.map fun socket => (callsOf reaction).foldl applyCall socket := rfl

theorem whole_absorb (l : EventLoop σ κ) (reaction : Bridge σ × Status) :
    (l.absorb reaction).whole =
      if reaction.2 = .finished then (reaction.1.since l.calls).drop else reaction.1.since l.calls := by
  have collected : ∀ b : Bridge σ, b.collect.2.since (b.collect.1.reverse ++ l.calls) = b.since l.calls := by
    intro b
    simp [Bridge.collect, Bridge.since]
  by_cases h : reaction.2 = .finished
  · rw [if_pos h]
    unfold absorb whole
    simp only [h, if_true]
    exact (collected _).trans (Bridge.releasePeer_since _ _).symm
  · rw [if_neg h]
    unfold absorb whole
    simp only [h, if_false]
    exact collected _

end Absorbing

/-! ## Serving a stream -/

section Serving

variable [Socket κ] {b : Buffered κ}

/-- What is kept by reading while the stream is read, and by writing, is kept by serving it. -/
theorem serve_preserves {P : Buffered κ → Prop} (ready : Readiness)
    (read : ∀ {c : Buffered κ}, c.stream.reads = true → P c → P c.attemptRead.after)
    (write : ∀ {c : Buffered κ}, P c → P c.attemptWrite.after) (start : P b) : P (b.serve ready).1 := by
  unfold Buffered.serve
  extract_lets reading writing
  have kept : P reading.after := by
    simp only [reading]
    split
    · next h =>
      simp only [Bool.and_eq_true, Buffered.wantsRead] at h
      exact read h.1.1 start
    · exact start
  split
  · exact kept
  · simp only [writing]
    split
    · exact write kept
    · exact kept

theorem attemptRead_socket (b : Buffered κ) :
    b.attemptRead.after.socket = b.socket.map fun socket => (Socket.read socket b.limits.readCapacity).2 := by
  unfold Buffered.attemptRead
  cases hs : b.socket with
  | none => exact hs
  | some socket =>
    dsimp only [Option.map_some]
    obtain ⟨result, socket⟩ := Socket.read socket b.limits.readCapacity
    rcases result with (_ | _) | _ | _ <;> rfl

theorem attemptWrite_socket (b : Buffered κ) :
    b.attemptWrite.after.socket = b.socket.map fun socket => (Socket.write socket b.stream.output).2 := by
  unfold Buffered.attemptWrite
  cases hs : b.socket with
  | none => exact hs
  | some socket =>
    dsimp only [Option.map_some]
    obtain ⟨result, socket⟩ := Socket.write socket b.stream.output
    rcases result with (_ | _) | _ | _ | _ <;> rfl

theorem attemptRead_narrows (hr : b.stream.reads = true) : b.stream.Narrows b.attemptRead.after.stream := by
  unfold Buffered.attemptRead
  split
  · exact .refl _
  split
  dsimp only
  split
  · exact .withdraw _ _
  · exact ⟨rfl, id, id, fun hr' => by cases hr.symm.trans hr'⟩
  · exact .refl _
  · exact .withdraw _ _

theorem attemptWrite_narrows (b : Buffered κ) : b.stream.Narrows b.attemptWrite.after.stream := by
  unfold Buffered.attemptWrite
  split
  · exact .refl _
  split
  dsimp only
  split
  · exact .withdraw _ _
  · exact .of_same rfl rfl rfl id
  · exact .refl _
  · exact .withdraw _ _
  · exact .withdraw _ _

theorem serve_narrows (b : Buffered κ) (ready : Readiness) : b.stream.Narrows (b.serve ready).1.stream :=
  serve_preserves (P := fun c => b.stream.Narrows c.stream) ready
    (fun hr narrows => narrows.trans (attemptRead_narrows hr)) (fun narrows => narrows.trans (attemptWrite_narrows _))
    (.refl _)

theorem narrows_none (s : Stream) : s.Narrows { s with enabled := .none } :=
  ⟨rfl, fun _ => rfl, fun _ => rfl, fun _ => id⟩

end Serving

/-! ## Chores -/

variable [Sender σ]

/-- One thing that a loop does with its bridge. -/
inductive Chore : Bridge σ → Bridge σ → Prop
  | deliver {b} (event : Event) : Chore b (b.react event).1
  | serve {b s s'} : b.stream = some s → s.Narrows s' → Chore b (b.keep s')
  | drop {b} : Chore b b.drop

abbrev Chores : Bridge σ → Bridge σ → Prop := Relation.ReflTransGen Chore

theorem Chore.sealed {b c : Bridge σ} (chore : Chore b c) (h : b.Tidy ∧ b.Sealed) : c.Tidy ∧ c.Sealed := by
  cases chore with
  | deliver event => exact ⟨h.1.react event, h.2.react h.1 event⟩
  | serve hs narrows => exact ⟨h.1.keep hs _, h.2.keep hs narrows⟩
  | drop => exact ⟨h.1.releasePeer, h.2.releasePeer⟩

theorem Chores.preserves {P : Bridge σ → Prop} {b c : Bridge σ} (h : Chores b c)
    (chore : ∀ {b c}, Chore b c → P b → P c) (start : P b) : P c := by
  induction h with
  | refl => exact start
  | tail _ d ih => exact chore d ih

theorem react_chores (b : Bridge σ) (earlier : List Call) (event : Event) :
    Chores (b.since earlier) ((b.react event).1.since earlier) := by
  have reacts : Chore (b.since earlier) ((b.since earlier).react event).1 := .deliver event
  rw [Bridge.react_since] at reacts
  exact .single reacts

theorem deliver_chores (limit : Nat) (b : Bridge σ) (queue : List ConnectionEvent) (earlier : List Call) :
    Chores (b.since earlier) ((deliver limit b queue).1.1.since earlier) := by
  fun_induction deliver limit b queue with
  | case1 | case2 => exact .refl
  | case3 b _ event => exact react_chores b earlier (.connection event)
  | case4 b _ event _ _ _ ih => exact (react_chores b earlier (.connection event)).trans ih

theorem deliverStream_chores (b : Bridge σ) (events : List StreamEvent) (earlier : List Call) :
    Chores (b.since earlier) ((deliverStream b events).1.since earlier) := by
  fun_induction deliverStream b events with
  | case1 => exact .refl
  | case2 b event => exact react_chores b earlier (.stream event)
  | case3 b event _ _ _ ih => exact (react_chores b earlier (.stream event)).trans ih

variable [Socket κ] {l : EventLoop σ κ} {s : Stream}

theorem absorb_chores {b : Bridge σ} {reaction : Bridge σ × Status} (h : Chores b (reaction.1.since l.calls)) :
    Chores b (l.absorb reaction).whole := by
  rw [whole_absorb]
  split
  · exact h.tail .drop
  · exact h

theorem absorb_react_chores (l : EventLoop σ κ) (event : Event) :
    Chores l.whole (l.absorb (l.bridge.react event)).whole :=
  absorb_chores (react_chores l.bridge l.calls event)

theorem absorbStream_chores (result : Buffered κ × List StreamEvent) (hs : l.bridge.stream = some s)
    (narrows : s.Narrows result.1.stream) : Chores l.whole (l.absorbStream result).whole := by
  have serves : Chore l.whole ((l.bridge.keep result.1.stream).since l.calls) := .serve hs narrows
  exact absorb_chores (.head serves (deliverStream_chores _ _ _))

/-! ## Turns and runs -/

theorem takeEvents_chores (l : EventLoop σ κ) : Chores l.whole l.takeEvents.whole := by
  unfold takeEvents
  split
  · dsimp only
    split
    · exact absorb_react_chores { l with listening := false } (.connection (.error .reset))
    · exact .refl
  · exact absorb_chores (deliver_chores batchSize l.bridge l.queue l.calls)

theorem take_chores (l : EventLoop σ κ) (turn : Turn κ) : Chores l.whole (l.take turn).whole := by
  cases turn with
  | events => exact takeEvents_chores l
  | connected socket =>
    unfold take takeConnected
    dsimp only
    split
    · exact absorb_react_chores { l with connecting := false } (.stream .connected)
    · next b h => exact absorbStream_chores _ (buffered_stream h) (.refl _)
  | connectFailed =>
    unfold take takeConnectFailed
    dsimp only
    split
    · exact absorb_react_chores { l with connecting := false } (.stream .connected)
    · next b h => exact absorbStream_chores _ (buffered_stream h) (narrows_none _)
  | ready readiness =>
    unfold take
    dsimp only
    split
    · exact .refl
    · next b h => exact absorbStream_chores _ (buffered_stream h) (serve_narrows b readiness)
  | watchFailed =>
    unfold take
    dsimp only
    split
    · exact .refl
    · next b h => exact absorbStream_chores _ (buffered_stream h) (narrows_none _)

/-- A turn that is not possible is left out, and an event that is refused is lost. -/
def step (l : EventLoop σ κ) : Step κ → EventLoop σ κ
  | .post event => (l.post? event).getD l
  | .dropHandles => l.dropHandles
  | .take turn => if l.possible turn then l.take turn else l
  | .outside change => { l with socket := l.socket.map change }

def run (l : EventLoop σ κ) (steps : List (Step κ)) : EventLoop σ κ := steps.foldl step l

theorem run_snoc (l : EventLoop σ κ) (steps : List (Step κ)) (s : Step κ) :
    l.run (steps ++ [s]) = (l.run steps).step s := by
  simp [run]

theorem step_chores (l : EventLoop σ κ) (s : Step κ) : Chores l.whole (l.step s).whole := by
  cases s with
  | post event =>
    have posted : (l.step (.post event)).whole = l.whole := by
      unfold step post?
      cases l.ended <;> rfl
    rw [posted]
  | dropHandles | outside => exact .refl
  | take turn =>
    unfold step
    dsimp only
    split
    · exact take_chores l turn
    · exact .refl

theorem run_chores (l : EventLoop σ κ) (steps : List (Step κ)) : Chores l.whole (l.run steps).whole := by
  induction steps using List.reverseRecOn with
  | nil => exact .refl
  | append_singleton steps s ih =>
    rw [run_snoc]
    exact ih.trans (step_chores _ s)

theorem run_sealed (sender : σ) (config : Config) (socket : Option κ) (steps : List (Step κ)) :
    ((launch sender config socket).run steps).whole.Sealed := by
  have kept := (run_chores (launch sender config socket) steps).preserves
    (P := fun b => b.Tidy ∧ b.Sealed) Chore.sealed
  exact (kept ⟨Bridge.tidy_new sender {} config, Bridge.sealed_new sender config⟩).2

end Splice.EventLoop
