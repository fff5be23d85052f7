import Splice.Proofs.Bridge.Lifecycle

/-!
# Behaving streams

A behaving stream reports what it does: input only while it is read, output taken only while it is written,
and directions that end or fail only after they were given up. Nothing is asked of the connection.
-/

namespace Splice

inductive Act
  | feed (data : List UInt8)
  | take (n : Nat)
  | finish (d : Directions)
  | fail (d : Directions)
  | failAll
  | connect
  deriving DecidableEq

namespace Act

/-- The stream after the act and what it reports, if the act is possible. -/
def on? (s : Stream) : Act → Option (Stream × Option StreamEvent)
  | feed data => if s.reads then some ({ s with input := s.input ++ data }, some .readable) else none
  | take n =>
    if s.writes ∧ s.output ≠ [] then
      let rest := s.output.drop n
      some ({ s with output := rest }, if rest = [] then some .drained else none)
    else none
  | finish d => if d ⊆ s.enabled then some (s.withdraw d, some (.eof d)) else none
  | fail d => if d ⊆ s.enabled then some (s.withdraw d, some (.error d)) else none
  | failAll => some (s.withdraw .both, some (.error .both))
  | connect => some (s, some .connected)

inductive Does (s : Stream) : Act → Stream → Option StreamEvent → Prop
  | feed {data} : s.reads = true → Does s (.feed data) { s with input := s.input ++ data } (some .readable)
  | takeSome {n} : s.writes = true → s.output.drop n ≠ [] →
      Does s (.take n) { s with output := s.output.drop n } none
  | takeAll {n} : s.writes = true → s.output ≠ [] → s.output.drop n = [] →
      Does s (.take n) { s with output := [] } (some .drained)
  | finish {d} : d ⊆ s.enabled → Does s (.finish d) (s.withdraw d) (some (.eof d))
  | fail {d} : d ⊆ s.enabled → Does s (.fail d) (s.withdraw d) (some (.error d))
  | failAll : Does s .failAll (s.withdraw .both) (some (.error .both))
  | connect : Does s .connect s (some .connected)

theorem does_of_on {act : Act} {s s' : Stream} {report : Option StreamEvent} (h : act.on? s = some (s', report)) :
    Does s act s' report := by
  cases act with
  | feed data =>
    simp only [on?, Option.ite_none_right_eq_some, Option.some.injEq, Prod.mk.injEq] at h
    obtain ⟨hr, rfl, rfl⟩ := h
    exact .feed hr
  | take n =>
    simp only [on?, Option.ite_none_right_eq_some, Option.some.injEq, Prod.mk.injEq] at h
    obtain ⟨⟨hw, hne⟩, rfl, rfl⟩ := h
    split
    · next hdrop =>
      rw [hdrop]
      exact .takeAll hw hne hdrop
    · next hdrop => exact .takeSome hw hdrop
  | finish d =>
    simp only [on?, Option.ite_none_right_eq_some, Option.some.injEq, Prod.mk.injEq] at h
    obtain ⟨hd, rfl, rfl⟩ := h
    exact .finish hd
  | fail d =>
    simp only [on?, Option.ite_none_right_eq_some, Option.some.injEq, Prod.mk.injEq] at h
    obtain ⟨hd, rfl, rfl⟩ := h
    exact .fail hd
  | failAll =>
    simp only [on?, Option.some.injEq, Prod.mk.injEq] at h
    obtain ⟨rfl, rfl⟩ := h
    exact .failAll
  | connect =>
    simp only [on?, Option.some.injEq, Prod.mk.injEq] at h
    obtain ⟨rfl, rfl⟩ := h
    exact .connect

def written (s : Stream) : Act → List UInt8
  | take n => if s.writes then s.output.take n else []
  | _ => []

def fed (s : Stream) : Act → List UInt8
  | feed data => if s.reads then data else []
  | _ => []

/-- Neither a failure nor an end of writing. -/
def sparesOutput : Act → Bool
  | finish d => !d.write
  | fail _ | failAll => false
  | _ => true

theorem written_of_impossible {act : Act} {s : Stream} (h : act.on? s = none) : act.written s = [] := by
  cases act with
  | take n =>
    simp only [on?, ite_eq_right_iff, reduceCtorEq, imp_false, not_and, not_not] at h
    rw [written]
    split
    · next hw => rw [h hw, List.take_nil]
    · rfl
  | _ => rfl

theorem fed_of_impossible {act : Act} {s : Stream} (h : act.on? s = none) : act.fed s = [] := by
  cases act with
  | feed data =>
    simp only [on?, ite_eq_right_iff, reduceCtorEq, imp_false, Bool.not_eq_true] at h
    rw [fed, h, if_neg (by decide)]
  | _ => rfl

theorem report_of_sparing {act : Act} {s s' : Stream} {event : StreamEvent} (hspare : act.sparesOutput = true)
    (h : act.on? s = some (s', some event)) : (Event.stream event).losesOutput = false := by
  cases act with
  | feed data =>
    simp only [on?, Option.ite_none_right_eq_some, Option.some.injEq, Prod.mk.injEq] at h
    obtain ⟨-, -, rfl⟩ := h
    rfl
  | take n =>
    simp only [on?, Option.ite_none_right_eq_some, Option.some.injEq, Prod.mk.injEq] at h
    obtain ⟨-, -, -, rfl⟩ := h
    rfl
  | finish d =>
    simp only [on?, Option.ite_none_right_eq_some, Option.some.injEq, Prod.mk.injEq] at h
    obtain ⟨-, -, rfl⟩ := h
    simpa [Event.losesOutput, sparesOutput] using hspare
  | fail d => cases hspare
  | failAll => cases hspare
  | connect =>
    simp only [on?, Option.some.injEq, Prod.mk.injEq] at h
    obtain ⟨-, rfl⟩ := h
    rfl

end Act

inductive Move
  | connection (event : ConnectionEvent)
  | stream (act : Act)
  | hold (peer : PeerId)
  deriving DecidableEq

def Move.sparesOutput : Move → Bool
  | stream act => act.sparesOutput
  | _ => true

def Move.delivers : Move → Bool
  | .connection (.read _) => true
  | _ => false

def QuietAfterEnd (moves : List Move) : Prop :=
  moves.Pairwise fun earlier later => earlier = .connection .eof → later.delivers = false

namespace QuietAfterEnd

variable {moves : List Move} {m : Move}

instance : Decidable (QuietAfterEnd moves) := inferInstanceAs (Decidable (List.Pairwise _ _))

theorem init (h : QuietAfterEnd (moves ++ [m])) : QuietAfterEnd moves := (List.pairwise_append.mp h).1

theorem not_ended {data : List UInt8} (h : QuietAfterEnd (moves ++ [.connection (.read data)])) :
    .connection .eof ∉ moves := by
  intro hmem
  have quiet := (List.pairwise_append.mp h).2.2 _ hmem _ (List.mem_singleton_self _) rfl
  cases quiet

end QuietAfterEnd

namespace Bridge

variable {σ : Type}

/-! ## Bytes and reports of one move -/

def writesNow (b : Bridge σ) : Bool := b.stream.any Stream.writes

def writtenBy (b : Bridge σ) : Move → List UInt8
  | .stream act => (b.stream.map act.written).getD []
  | _ => []

def fedBy (b : Bridge σ) : Move → List UInt8
  | .stream act => (b.stream.map act.fed).getD []
  | _ => []

def receivedBy (b : Bridge σ) : Move → List UInt8
  | .connection event => if b.attached then event.payload else []
  | _ => []

def acceptedBy (b : Bridge σ) : Move → List UInt8
  | .connection event => if b.attached && b.writesNow then event.payload else []
  | _ => []

def reportedBy (b : Bridge σ) : Move → List StreamEvent
  | .stream act => ((b.stream.bind act.on?).bind Prod.snd).toList
  | _ => []

theorem reportedBy_of_impossible {b : Bridge σ} {act : Act} (h : b.stream.bind act.on? = none) :
    b.reportedBy (.stream act) = [] := by
  simp [reportedBy, h]

theorem reportedBy_of_on {b : Bridge σ} {s s' : Stream} {act : Act} {report : Option StreamEvent}
    (hs : b.stream = some s) (hon : act.on? s = some (s', report)) :
    b.reportedBy (.stream act) = report.toList := by
  simp [reportedBy, hs, hon]

theorem fedBy_of_impossible {b : Bridge σ} {act : Act} (h : b.stream.bind act.on? = none) :
    b.fedBy (.stream act) = [] := by
  cases hs : b.stream with
  | none => simp [fedBy, hs]
  | some s =>
    rw [hs, Option.bind_some] at h
    simp [fedBy, hs, Act.fed_of_impossible h]

theorem acceptedBy_detached {b : Bridge σ} (ha : b.attached = false) (m : Move) : b.acceptedBy m = [] := by
  cases m <;> simp [acceptedBy, ha]

theorem receivedBy_detached {b : Bridge σ} (ha : b.attached = false) (m : Move) : b.receivedBy m = [] := by
  cases m <;> simp [receivedBy, ha]

theorem ne_read {event : ConnectionEvent} (h : ¬ ∃ data, event = .read data) :
    ∀ data, Event.connection event ≠ .connection (.read data) := by
  rintro data ⟨⟩
  exact h ⟨data, rfl⟩

theorem payload_not_read {event : ConnectionEvent} (h : ¬ ∃ data, event = .read data) : event.payload = [] := by
  cases event with
  | read data => exact absurd ⟨data, rfl⟩ h
  | _ => rfl

theorem acceptedBy_not_read {b : Bridge σ} {event : ConnectionEvent} (h : ¬ ∃ data, event = .read data) :
    b.acceptedBy (.connection event) = [] := by
  simp [acceptedBy, payload_not_read h]

theorem receivedBy_not_read {b : Bridge σ} {event : ConnectionEvent} (h : ¬ ∃ data, event = .read data) :
    b.receivedBy (.connection event) = [] := by
  simp [receivedBy, payload_not_read h]

theorem acceptedBy_attached {b : Bridge σ} {s : Stream} (ha : b.attached = true) (hs : b.stream = some s)
    (event : ConnectionEvent) :
    b.acceptedBy (.connection event) = if s.writes then event.payload else [] := by
  simp [acceptedBy, ha, writesNow, hs]

variable [Sender σ]

/-! ## Moves of a bridge -/

/-- An act that is not possible is left out. -/
def move (b : Bridge σ) : Move → Bridge σ
  | .connection event => (b.onConnection event).1
  | .stream act =>
    match b.stream.bind act.on? with
    | none => b
    | some (s, none) => b.keep s
    | some (s, some event) => ((b.keep s).onStream event).1
  | .hold peer => b.holdPeer peer

def play (b : Bridge σ) (moves : List Move) : Bridge σ := moves.foldl move b

theorem play_snoc (b : Bridge σ) (moves : List Move) (m : Move) :
    b.play (moves ++ [m]) = (b.play moves).move m := by
  simp [play]

inductive Acted (act : Act) (b : Bridge σ) : Bridge σ → Prop
  | impossible : b.stream.bind act.on? = none → Acted act b b
  | silent {s s'} : b.stream = some s → act.on? s = some (s', none) → Acted act b (b.keep s')
  | reported {s s' event} : b.stream = some s → act.on? s = some (s', some event) →
      Acted act b ((b.keep s').react (.stream event)).1

theorem move_acted (b : Bridge σ) (act : Act) : Acted act b (b.move (.stream act)) := by
  unfold move
  dsimp only
  split
  · next h => exact .impossible h
  · next h =>
    obtain ⟨s, hs, hact⟩ := Option.bind_eq_some_iff.mp h
    exact .silent hs hact
  · next h =>
    obtain ⟨s, hs, hact⟩ := Option.bind_eq_some_iff.mp h
    exact .reported hs hact

theorem Acted.tidy {act : Act} {b c : Bridge σ} (acted : Acted act b c) (h : b.Tidy) : c.Tidy := by
  cases acted with
  | impossible => exact h
  | silent hs => exact h.keep hs _
  | reported hs => exact (h.keep hs _).react _

theorem Tidy.move {b : Bridge σ} (h : b.Tidy) (m : Move) : (b.move m).Tidy := by
  cases m with
  | connection event => exact h.react (.connection event)
  | hold peer => exact h.holdPeer peer
  | stream act => exact (move_acted b act).tidy h

/-- What is kept by each deed, by the acts of the stream, by a new peer and by counting a late event is kept
by a move. -/
theorem Tidy.move_preserves {b : Bridge σ} {P : Bridge σ → Prop} (h : b.Tidy) (m : Move)
    (deed : ∀ {event c c'}, c.Tidy → Deed event c c' → P c → P c') (late : ∀ {c}, P c → P c.countViolation)
    (act : ∀ {act s s' report}, b.stream = some s → Act.Does s act s' report → P b → P (b.keep s'))
    (hold : ∀ peer, P b → P (b.holdPeer peer)) (start : P b) : P (b.move m) := by
  cases m with
  | connection e => exact h.react_preserves (.connection e) deed late start
  | hold peer => exact hold peer start
  | stream act' =>
    have acted := move_acted b act'
    generalize b.move (.stream act') = c at acted ⊢
    cases acted with
    | impossible => exact start
    | silent hs hon => exact act hs (Act.does_of_on hon) start
    | reported hs hon =>
      exact (h.keep hs _).react_preserves _ deed late (act hs (Act.does_of_on hon) start)

theorem Tidy.move_ahead {b : Bridge σ} (h : b.Tidy) (m : Move) : (b.move m).Ahead b := by
  refine h.move_preserves (P := fun c => c.Ahead b) m (fun hc d ahead => (d.ahead hc.toSound).trans ahead)
    (fun ahead => ⟨ahead.attached, ahead.stream, ahead.suspended⟩) ?_ (fun peer _ => .holdPeer b peer) (.refl b)
  intro act s s' report hs _ _
  exact .of_open hs id rfl

theorem Tidy.play {b : Bridge σ} (h : b.Tidy) (moves : List Move) : (b.play moves).Tidy := by
  induction moves using List.reverseRecOn with
  | nil => exact h
  | append_singleton moves m ih =>
    rw [play_snoc]
    exact ih.move m

/-! ## What is gathered along the moves -/

def written (b : Bridge σ) (moves : List Move) : List UInt8 := Run.gather move writtenBy b moves

def fed (b : Bridge σ) (moves : List Move) : List UInt8 := Run.gather move fedBy b moves

def received (b : Bridge σ) (moves : List Move) : List UInt8 := Run.gather move receivedBy b moves

/-- The data that came from the attached connection while the stream was written. -/
def accepted (b : Bridge σ) (moves : List Move) : List UInt8 := Run.gather move acceptedBy b moves

def reported (b : Bridge σ) (moves : List Move) : List StreamEvent := Run.gather move reportedBy b moves

theorem written_snoc (b : Bridge σ) (moves : List Move) (m : Move) :
    b.written (moves ++ [m]) = b.written moves ++ (b.play moves).writtenBy m :=
  Run.gather_snoc ..

theorem fed_snoc (b : Bridge σ) (moves : List Move) (m : Move) :
    b.fed (moves ++ [m]) = b.fed moves ++ (b.play moves).fedBy m :=
  Run.gather_snoc ..

theorem received_snoc (b : Bridge σ) (moves : List Move) (m : Move) :
    b.received (moves ++ [m]) = b.received moves ++ (b.play moves).receivedBy m :=
  Run.gather_snoc ..

theorem accepted_snoc (b : Bridge σ) (moves : List Move) (m : Move) :
    b.accepted (moves ++ [m]) = b.accepted moves ++ (b.play moves).acceptedBy m :=
  Run.gather_snoc ..

theorem reported_snoc (b : Bridge σ) (moves : List Move) (m : Move) :
    b.reported (moves ++ [m]) = b.reported moves ++ (b.play moves).reportedBy m :=
  Run.gather_snoc ..

end Bridge

end Splice
