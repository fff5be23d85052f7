import Splice.Proofs.Bridge.Reactions

/-!
# The life of a bridge

The connection is closed before the stream and each of them once, nothing is asked of a side after it was
closed, and the bridge is finished exactly when both are gone. `Orderly` is the grammar of the calls of a
run; `lifecycle_in_order` reads off it, and off the states passed through, in which order things happen.
-/

namespace Splice

namespace Call

def closesStream : Call → Bool
  | closeStream .. => true
  | _ => false

def toConnection : Call → Bool
  | send .. | shutdown _ | readDrained | closeConnection => true
  | _ => false

def toStream : Call → Bool
  | shutdownStream | closeStream .. => true
  | _ => false

def toPeer : Call → Bool
  | peerConnected _ | peerReleased _ => true
  | _ => false

end Call

def Phase.rank : Phase → Nat
  | .open => 0
  | .readSuspended => 1
  | .connectionClosed => 2
  | .streamClosed => 3
  | .closed => 4

namespace Bridge

variable {σ : Type} {event : Event} {b c : Bridge σ} {s : Stream}

/-- The calls made, in the order they were made. -/
def trace (b : Bridge σ) : List Call := b.calls.reverse

/-! ## The grammar of calls -/

/-- The calls that a bridge can have made, the latest first, by whether it still has its connection and its
stream. -/
inductive Orderly : Bool → Bool → List Call → Prop
  | start : Orderly true true []
  | peer {attached isOpen call calls} : call.toPeer = true → Orderly attached isOpen calls →
      Orderly attached isOpen (call :: calls)
  | connection {call calls} : call.toConnection = true → call ≠ .closeConnection → Orderly true true calls →
      Orderly true true (call :: calls)
  | endOutput {attached calls} : Orderly attached true calls → Orderly attached true (.shutdownStream :: calls)
  | closeConnection {calls} : Orderly true true calls → Orderly false true (.closeConnection :: calls)
  | closeStream {enabled input output calls} : Orderly false true calls →
      Orderly false false (.closeStream enabled input output :: calls)

namespace Orderly

variable {attached isOpen : Bool} {calls : List Call}

theorem count_closeConnection (h : Orderly attached isOpen calls) :
    calls.count .closeConnection = (!attached).toNat := by
  induction h with
  | start => rfl
  | @peer _ _ call _ hc _ ih => cases call <;> simp_all [Call.toPeer]
  | connection _ hne _ ih => simpa [List.count_cons, hne] using ih
  | endOutput _ ih => simpa [List.count_cons] using ih
  | closeConnection _ ih => simp [ih]
  | closeStream _ ih => simpa [List.count_cons] using ih

theorem countP_closesStream (h : Orderly attached isOpen calls) :
    calls.countP Call.closesStream = (!isOpen).toNat := by
  induction h with
  | start => rfl
  | @peer _ _ call _ hc _ ih => cases call <;> simp_all [Call.toPeer, Call.closesStream]
  | @connection call _ hc _ _ ih => cases call <;> simp_all [Call.toConnection, Call.closesStream]
  | endOutput _ ih => simpa [Call.closesStream] using ih
  | closeConnection _ ih => simpa [Call.closesStream] using ih
  | closeStream _ ih => rw [List.countP_cons_of_pos rfl, ih]; rfl

theorem append_peer {new : List Call} (hnew : ∀ call ∈ new, call.toPeer = true)
    (h : Orderly attached isOpen calls) : Orderly attached isOpen (new ++ calls) := by
  induction new with
  | nil => exact h
  | cons call new ih =>
    refine .peer (hnew call List.mem_cons_self) (ih fun c hc => hnew c (List.mem_cons_of_mem _ hc))

end Orderly

def MayFollow (later earlier : Call) : Prop :=
  (earlier = .closeConnection → later.toConnection = false) ∧
  (earlier.closesStream = true → later.toStream = false ∧ later ≠ .closeConnection)

namespace Orderly

variable {attached isOpen : Bool} {calls : List Call}

theorem connection_open (h : Orderly true isOpen calls) : .closeConnection ∉ calls :=
  List.count_eq_zero.mp h.count_closeConnection

theorem stream_open (h : Orderly attached true calls) : ∀ call ∈ calls, ¬ call.closesStream = true :=
  List.countP_eq_zero.mp h.countP_closesStream

theorem pairwise (h : Orderly attached isOpen calls) : calls.Pairwise MayFollow := by
  induction h with
  | start => exact .nil
  | @peer _ _ call _ hc _ ih =>
    refine .cons (fun earlier _ => ?_) ih
    cases call <;> simp_all [MayFollow, Call.toPeer, Call.toConnection, Call.toStream]
  | connection _ _ h ih =>
    refine .cons (fun earlier he => ⟨?_, fun hs => absurd hs (h.stream_open earlier he)⟩) ih
    rintro rfl
    exact absurd he h.connection_open
  | endOutput h ih =>
    exact .cons (fun earlier he => ⟨fun _ => rfl, fun hs => absurd hs (h.stream_open earlier he)⟩) ih
  | closeConnection h ih =>
    refine .cons (fun earlier he => ⟨?_, fun hs => absurd hs (h.stream_open earlier he)⟩) ih
    rintro rfl
    exact absurd he h.connection_open
  | closeStream h ih =>
    exact .cons (fun earlier he => ⟨fun _ => rfl, fun hs => absurd hs (h.stream_open earlier he)⟩) ih

end Orderly

structure InOrder (trace : List Call) : Prop where
  connection_closed_once : trace.count .closeConnection ≤ 1
  stream_closed_once : trace.countP Call.closesStream ≤ 1
  connection_closed_first : ∀ before call after, trace = before ++ call :: after →
    call.closesStream = true → .closeConnection ∈ before
  connection_left_alone : ∀ before after, trace = before ++ .closeConnection :: after →
    ∀ call ∈ after, call.toConnection = false
  stream_left_alone : ∀ before call after, trace = before ++ call :: after →
    call.closesStream = true → ∀ later ∈ after, later.toStream = false

theorem Orderly.connection_closed {attached : Bool} {calls : List Call} (h : Orderly attached false calls) :
    .closeConnection ∈ calls := by
  generalize ho : false = isOpen at h
  induction h with
  | start => cases ho
  | peer _ _ ih => exact List.mem_cons_of_mem _ (ih ho)
  | connection => cases ho
  | endOutput => cases ho
  | closeConnection => cases ho
  | closeStream h _ =>
    refine List.mem_cons_of_mem _ (List.count_pos_iff.mp ?_)
    rw [h.count_closeConnection]
    decide

theorem Orderly.inOrder {attached isOpen : Bool} {calls : List Call} (h : Orderly attached isOpen calls) :
    InOrder calls.reverse := by
  have follows : ∀ {before call after}, calls.reverse = before ++ call :: after →
      ∀ later ∈ after, MayFollow later call := by
    intro before call after hsplit
    have hpair := List.pairwise_reverse.mpr h.pairwise
    rw [hsplit, List.pairwise_append, List.pairwise_cons] at hpair
    exact hpair.2.1.1
  refine ⟨?_, ?_, ?_, ?_, ?_⟩
  · rw [List.count_reverse, h.count_closeConnection]
    exact Bool.toNat_le _
  · rw [List.countP_reverse, h.countP_closesStream]
    exact Bool.toNat_le _
  · intro before call after hsplit hcall
    have hmem : call ∈ calls := List.mem_reverse.mp (hsplit ▸ by simp)
    cases isOpen with
    | true => exact absurd hcall (h.stream_open call hmem)
    | false =>
      -- The connection was closed at some place, which cannot be after the stream was.
      have hclosed := List.mem_reverse.mpr h.connection_closed
      rw [hsplit, List.mem_append, List.mem_cons] at hclosed
      rcases hclosed with hbefore | rfl | hafter
      · exact hbefore
      · cases hcall
      · exact absurd rfl ((follows hsplit _ hafter).2 hcall).2
  · intro before after hsplit call hc
    exact (follows hsplit call hc).1 rfl
  · intro before call after hsplit hcall later hl
    exact ((follows hsplit later hl).2 hcall).1

theorem InOrder.stream_open {trace before after : List Call} (h : InOrder trace)
    (hsplit : trace = before ++ .closeConnection :: after) : ∀ call ∈ before, call.closesStream = false := by
  intro call hc
  by_contra closes
  obtain ⟨earlier, between, rfl⟩ := List.append_of_mem hc
  rw [List.append_assoc, List.cons_append] at hsplit
  have closed := h.connection_closed_first _ _ _ hsplit (by simpa using closes)
  have once := h.connection_closed_once
  rw [hsplit, List.count_append, List.count_cons, List.count_append, List.count_cons_self] at once
  have := List.count_pos_iff.mpr closed
  omega

/-! ## Tidy bridges -/

theorem releases_toPeer (b : Bridge σ) : ∀ call ∈ b.releases, call.toPeer = true := by
  simp [releases, Call.toPeer]

theorem announces_toPeer (b : Bridge σ) : ∀ call ∈ b.announces, call.toPeer = true := by
  intro call hc
  simp only [announces, List.mem_flatMap, List.mem_cons, List.not_mem_nil, or_false] at hc
  rcases hc with ⟨p, _, rfl | rfl⟩
  · rfl
  · rfl

def closing (b : Bridge σ) : List Call := b.releases ++ [.closeConnection]

theorem closeConnection_calls (ha : b.attached = true) : b.closeConnection.calls = b.closing ++ b.calls := by
  simp [closeConnection_eq ha, closing]

theorem closing_cases {call : Call} (h : call ∈ b.closing) : call.toPeer = true ∨ call = .closeConnection := by
  rcases List.mem_append.mp h with h | h
  · exact .inl (b.releases_toPeer call h)
  · exact .inr (List.mem_singleton.mp h)

/-- A sound bridge whose calls are those that its two sides allow. -/
structure Tidy (b : Bridge σ) : Prop extends Sound b where
  orderly : Orderly b.attached b.stream.isSome b.calls

namespace Tidy

theorem of_open (hs : c.stream = some s) (hf : c.finished = false) (ho : Orderly c.attached true c.calls) :
    c.Tidy :=
  ⟨⟨fun _ => by simp [hs], by simp [hs, hf]⟩, by simpa [hs] using ho⟩

theorem orderly_open (h : b.Tidy) (hs : b.stream = some s) : Orderly b.attached true b.calls := by
  simpa [hs] using h.orderly

theorem keep (h : b.Tidy) (hs : b.stream = some s) (s' : Stream) : (b.keep s').Tidy :=
  .of_open rfl (h.finished_of_open hs) (h.orderly_open hs)

theorem change (h : b.Tidy) (f : Stream → Stream) : (b.change f).Tidy := by
  cases hs : b.stream with
  | none =>
    rw [change_of_closed hs]
    exact h
  | some s =>
    rw [change_of_open hs]
    exact h.keep hs (f s)

theorem releasePeer (h : b.Tidy) : b.releasePeer.Tidy := by
  rw [releasePeer_eq]
  exact ⟨⟨h.open_of_attached, h.finished_iff⟩, .append_peer b.releases_toPeer h.orderly⟩

theorem holdPeer (h : b.Tidy) (peer : PeerId) : (b.holdPeer peer).Tidy :=
  ⟨⟨h.releasePeer.open_of_attached, h.releasePeer.finished_iff⟩, h.releasePeer.orderly⟩

theorem phase_ne (h : b.Tidy) : b.phase ≠ .streamClosed := by
  intro hp
  unfold phase at hp
  split at hp
  · split at hp <;> cases hp
  · cases hp
  next ha hs =>
    obtain ⟨s, hs'⟩ := h.stream_of_attached ha
    cases hs.symm.trans hs'
  · cases hp

theorem closed_once (h : b.Tidy) (hf : b.finished = true) :
    b.trace.count .closeConnection = 1 ∧ b.trace.countP Call.closesStream = 1 := by
  obtain ⟨ha, hs⟩ := h.finished_iff.mp hf
  rw [trace, List.count_reverse, List.countP_reverse, h.orderly.count_closeConnection,
    h.orderly.countP_closesStream, ha, hs]
  exact ⟨rfl, rfl⟩

end Tidy

theorem tidy_new (sender : σ) (stream : Stream) (config : Config) : (new sender stream config).Tidy :=
  .of_open rfl rfl .start

/-! ## Going forward -/

/-- One bridge is as far in its life as another, or farther. -/
structure Ahead (c b : Bridge σ) : Prop where
  attached : c.attached = true → b.attached = true
  stream : c.stream.isSome = true → b.stream.isSome = true
  suspended : b.suspended = true → c.suspended = true

namespace Ahead

theorem refl (b : Bridge σ) : b.Ahead b := ⟨id, id, id⟩

theorem trans {a : Bridge σ} (h : c.Ahead b) (h' : b.Ahead a) : c.Ahead a :=
  ⟨h'.attached ∘ h.attached, h'.stream ∘ h.stream, h.suspended ∘ h'.suspended⟩

theorem detached (h : c.Ahead b) (ha : b.attached = false) : c.attached = false := by
  simpa [ha] using h.attached

theorem of_open (hs : b.stream = some s) (ha : c.attached = true → b.attached = true)
    (hsus : c.suspended = b.suspended) : c.Ahead b :=
  ⟨ha, fun _ => by simp [hs], fun h => hsus.trans h⟩

theorem phase_rank_le (h : c.Ahead b) (hb : b.Sound) : b.phase.rank ≤ c.phase.rank := by
  obtain ⟨ha, hs, hsus⟩ := h
  have ho := hb.open_of_attached
  cases hca : c.attached with
  | true =>
    have hba := ha hca
    obtain ⟨s, hbs⟩ := hb.stream_of_attached hba
    cases hcs : c.stream <;> cases hb : b.suspended <;> cases hc : c.suspended <;> simp_all [phase, Phase.rank]
  | false =>
    cases hcs : c.stream with
    | some s =>
      obtain ⟨s', hbs⟩ := Option.isSome_iff_exists.mp (hs (by simp [hcs]))
      cases hba : b.attached <;> cases hb : b.suspended <;> simp_all [phase, Phase.rank]
    | none =>
      rw [show c.phase = .closed by simp [phase, hca, hcs]]
      cases b.phase <;> decide

theorem change (b : Bridge σ) (f : Stream → Stream) : (b.change f).Ahead b := by
  cases hs : b.stream with
  | none =>
    rw [change_of_closed hs]
    exact .refl b
  | some s =>
    rw [change_of_open hs]
    exact .of_open hs id rfl

theorem holdPeer (b : Bridge σ) (peer : PeerId) : (b.holdPeer peer).Ahead b := by
  rw [Bridge.holdPeer, releasePeer_eq]
  exact ⟨id, id, id⟩

end Ahead

/-! ## What deeds keep -/

variable [Sender σ]

theorem Deed.tidy (d : Deed event b c) (h : b.Tidy) : c.Tidy := by
  cases d with
  | send ha hs _ =>
    have ho := h.orderly_open hs
    refine .of_open rfl (h.finished_of_open hs) ?_
    show Orderly b.attached true (_ :: b.calls)
    rw [ha] at ho ⊢
    exact .connection rfl (by simp) ho
  | @tell s call ha hs tells =>
    have ho := h.orderly_open hs
    refine .of_open hs (h.finished_of_open hs) ?_
    rw [record_attached, record_calls, ha]
    rw [ha] at ho
    cases tells with
    | acknowledge => exact .connection rfl (by simp) ho
    | endSending => exact .connection rfl (by simp) ho
    | endReceiving => exact .connection rfl (by simp) ho
  | suspend _ _ => exact ⟨⟨h.open_of_attached, h.finished_iff⟩, h.orderly⟩
  | announce _ _ =>
    rw [connected_eq]
    exact ⟨⟨h.open_of_attached, h.finished_iff⟩, .append_peer b.announces_toPeer h.orderly⟩
  | @receive data ha _ =>
    obtain ⟨s, hs⟩ := h.stream_of_attached ha
    have ho := h.orderly_open hs
    cases hw : s.writes with
    | true =>
      rw [queueOutput_of_writes data hs hw]
      exact .of_open rfl (h.finished_of_open hs) ho
    | false =>
      rw [queueOutput_of_not_writes data hs hw]
      exact .of_open hs (h.finished_of_open hs) ho
  | endOutput _ _ hs _ => exact .of_open rfl (h.finished_of_open hs) (.endOutput (h.orderly_open hs))
  | adjust hs _ => exact h.keep hs _
  | closeConnection ha hs =>
    have ho := h.orderly_open hs
    rw [closeConnection_eq ha]
    refine .of_open hs (h.finished_of_open hs) ?_
    rw [ha] at ho
    exact .append_peer b.releases_toPeer (.closeConnection ho)
  | closeStream ha hs hi ho he =>
    have hcalls := h.orderly_open hs
    rw [ha] at hcalls
    rw [closeStream_conclude ha hs hi ho he]
    exact ⟨⟨fun h => absurd h (by simp [ha]), by simp [ha]⟩, by simpa [ha] using .closeStream hcalls⟩

theorem Deed.ahead (d : Deed event b c) (h : b.Sound) : c.Ahead b := by
  cases d with
  | send _ hs _ => exact .of_open hs id rfl
  | tell _ hs _ => exact .of_open hs id rfl
  | suspend _ _ => exact ⟨id, id, fun _ => rfl⟩
  | announce _ _ =>
    rw [connected_eq]
    exact ⟨id, id, id⟩
  | @receive data ha _ =>
    obtain ⟨s, hs⟩ := h.stream_of_attached ha
    cases hw : s.writes with
    | true =>
      rw [queueOutput_of_writes data hs hw]
      exact .of_open hs id rfl
    | false =>
      rw [queueOutput_of_not_writes data hs hw]
      exact .of_open hs id rfl
  | endOutput _ _ hs _ => exact .of_open hs id rfl
  | adjust hs _ => exact .of_open hs id rfl
  | closeConnection ha hs =>
    rw [closeConnection_eq ha]
    exact .of_open hs (fun h => by simp at h) rfl
  | closeStream ha hs hi ho he =>
    rw [closeStream_conclude ha hs hi ho he]
    exact .of_open hs id rfl

/-! ## What runs keep -/

namespace Tidy

theorem deeds (h : b.Tidy) (d : Deeds event b c) : c.Tidy := d.preserves Deed.tidy h

theorem react (h : b.Tidy) (event : Event) : (b.react event).1.Tidy := by
  cases hf : b.finished with
  | true =>
    rw [react_late hf]
    exact ⟨⟨h.open_of_attached, h.finished_iff⟩, h.orderly⟩
  | false => exact h.deeds (react_reacts h.toSound hf event).deeds

theorem step (h : b.Tidy) (s : Step) : (b.step s).Tidy := by
  cases s with
  | event event => exact h.react event
  | append | replaceInput | replaceOutput | setEnabled => exact h.change _
  | hold peer => exact h.holdPeer peer

theorem run (h : b.Tidy) (steps : List Step) : (b.run steps).Tidy := by
  induction steps using List.reverseRecOn with
  | nil => exact h
  | append_singleton steps s ih =>
    rw [run_snoc]
    exact ih.step s

/-- What is kept by each deed, and by counting a late event, is kept by a reaction. -/
theorem react_preserves {P : Bridge σ → Prop} (h : b.Tidy) (event : Event)
    (deed : ∀ {c c'}, c.Tidy → Deed event c c' → P c → P c') (late : P b → P b.countViolation) (start : P b) :
    P (b.react event).1 := by
  cases hf : b.finished with
  | true =>
    rw [react_late hf]
    exact late start
  | false =>
    have kept := (react_reacts h.toSound hf event).deeds.preserves (P := fun c => c.Tidy ∧ P c)
      (fun d hc => ⟨d.tidy hc.1, deed hc.1 d hc.2⟩) ⟨h, start⟩
    exact kept.2

theorem react_ahead (h : b.Tidy) (event : Event) : (b.react event).1.Ahead b :=
  h.react_preserves event (fun hc d ahead => (d.ahead hc.toSound).trans ahead) (fun _ => ⟨id, id, id⟩) (.refl b)

theorem react_status (h : b.Tidy) (event : Event) :
    (b.react event).2 = .finished ↔ (b.react event).1.finished = true := by
  cases hf : b.finished with
  | true =>
    rw [react_late hf]
    simp [countViolation, hf]
  | false => exact (react_reacts h.toSound hf event).status

theorem step_ahead (h : b.Tidy) (s : Step) : (b.step s).Ahead b := by
  cases s with
  | event event => exact h.react_ahead event
  | append | replaceInput | replaceOutput | setEnabled => exact .change b _
  | hold peer => exact .holdPeer b peer

theorem run_ahead (h : b.Tidy) (steps : List Step) : (b.run steps).Ahead b := by
  induction steps using List.reverseRecOn with
  | nil => exact .refl b
  | append_singleton steps s ih =>
    rw [run_snoc]
    exact ((h.run steps).step_ahead s).trans ih

end Tidy

/-- Over any run and its continuation, from both sides open to both closed. -/
theorem lifecycle_in_order (sender : σ) (stream : Stream) (config : Config) (steps later : List Step)
    (event : Event) :
    let b := (new sender stream config).run steps
    let r := b.react event
    (r.1.finished = true ↔ r.1.attached = false ∧ r.1.stream = none) ∧
    (r.2 = .finished ↔ r.1.finished = true) ∧
    b.phase ≠ .streamClosed ∧
    b.phase.rank ≤ (b.run later).phase.rank ∧
    (b.suspended = true → (b.run later).suspended = true) ∧
    InOrder b.trace ∧
    (r.2 = .finished → r.1.trace.count .closeConnection = 1 ∧ r.1.trace.countP Call.closesStream = 1) ∧
    (b.finished = true → r = (b.countViolation, .finished)) := by
  intro b r
  have hb : b.Tidy := (tidy_new sender stream config).run steps
  have hr : r.1.Tidy := hb.react event
  have hlater : (b.run later).Ahead b := hb.run_ahead later
  refine ⟨hr.finished_iff, hb.react_status event, hb.phase_ne, hlater.phase_rank_le hb.toSound,
    hlater.suspended, hb.orderly.inOrder, fun hfin => ?_, fun hf => react_late hf event⟩
  exact hr.closed_once ((hb.react_status event).mp hfin)

/-- A refused connection ends an empty bridge, and one more event is late. -/
theorem lifecycle_in_order_refused :
    let b := (new Unlimited.mk {} {}).run [.event (.connection .eof), .event (.connection (.error .refused))]
    b.suspended = true ∧ b.finished = true ∧ b.trace.count .closeConnection = 1 ∧
      b.react (.stream .drained) = (b.countViolation, .finished) := by
  intro b
  have hf : b.finished = true := by decide
  have ended := lifecycle_in_order Unlimited.mk {} {} [.event (.connection .eof)]
    [.event (.connection (.error .refused))] (.connection (.error .refused))
  have late := lifecycle_in_order Unlimited.mk {} {}
    [.event (.connection .eof), .event (.connection (.error .refused))] [] (.stream .drained)
  obtain ⟨-, -, -, -, suspended, -, closed, -⟩ := ended
  obtain ⟨-, -, -, -, -, -, -, nothing⟩ := late
  exact ⟨suspended (by decide), hf, (closed (by decide)).1, nothing hf⟩

end Bridge

end Splice
