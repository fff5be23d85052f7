import Splice.Proofs.Bridge.Course
import Splice.Proofs.Bridge.Parting

/-!
# Backpressure

An attached bridge keeps input back only when the connection has refused it: the latest send was answered with
nothing taken, so that the connection has yet to say that it is writable again.
-/

namespace Splice

/-- The latest send, among calls of which the latest comes first, was answered with nothing taken. -/
def LastRefused (calls : List Call) : Prop :=
  ∃ later offered earlier, calls = later ++ .send offered (.accepted 0) :: earlier ∧
    ∀ call ∈ later, call.isSend = false

theorem LastRefused.append {made calls : List Call} (h : LastRefused calls)
    (hmade : ∀ call ∈ made, call.isSend = false) : LastRefused (made ++ calls) := by
  obtain ⟨later, offered, earlier, rfl, hlater⟩ := h
  refine ⟨made ++ later, offered, earlier, by rw [List.append_assoc], ?_⟩
  rw [List.forall_mem_append]
  exact ⟨hmade, hlater⟩

namespace Bridge

variable {σ : Type} {event : Event} {b c : Bridge σ} {s s' : Stream} {r : Bridge σ × Status}

theorem pending_of_closed (h : b.stream = none) : b.pending = [] := by
  simp [pending, h]

theorem queueOutput_pending (b : Bridge σ) (data : List UInt8) : (b.queueOutput data).1.pending = b.pending := by
  cases hs : b.stream with
  | none => simp [queueOutput, pending, hs]
  | some s =>
    cases hw : s.writes with
    | true =>
      rw [queueOutput_of_writes data hs hw, pending_of_open hs]
      rfl
    | false =>
      rw [queueOutput_of_not_writes data hs hw]
      rfl

/-- Input that an attached bridge holds back was refused. -/
structure Held (b : Bridge σ) : Prop where
  one_le_chunk : 1 ≤ b.maxChunk
  refused : b.attached = true → b.pending ≠ [] → LastRefused b.calls

namespace Held

theorem of_unsent (h : b.Held) (hchunk : c.maxChunk = b.maxChunk) (calls : MakesOnly (·.isSend = false) b c)
    (hpending : c.attached = true → c.pending ≠ [] → b.attached = true ∧ c.pending = b.pending) : c.Held := by
  refine ⟨hchunk ▸ h.one_le_chunk, fun ha hp => ?_⟩
  obtain ⟨hb, same⟩ := hpending ha hp
  obtain ⟨made, hcalls, hmade⟩ := calls
  rw [hcalls]
  exact (h.refused hb (same ▸ hp)).append hmade

theorem keep (h : b.Held) (hs : b.stream = some s) (hi : s'.input = s.input) : (b.keep s').Held := by
  refine h.of_unsent rfl (.none rfl) fun ha _ => ⟨ha, ?_⟩
  rw [pending_of_open hs, pending_of_open (keep_stream b s'), hi]

theorem releasePeer (h : b.Held) : b.releasePeer.Held := by
  rw [releasePeer_eq]
  refine h.of_unsent rfl ⟨b.releases, rfl, fun call hc => ?_⟩ fun ha _ => ⟨ha, rfl⟩
  exact Call.isSend_of_toPeer (b.releases_toPeer call hc)

theorem holdPeer (h : b.Held) (peer : PeerId) : (b.holdPeer peer).Held :=
  ⟨h.releasePeer.one_le_chunk, h.releasePeer.refused⟩

theorem of_detached (hchunk : 1 ≤ b.maxChunk) (ha : b.attached = false) : b.Held := by
  refine ⟨hchunk, fun ha' => ?_⟩
  cases ha.symm.trans ha'

end Held

theorem held_new (sender : σ) (config : Config) : (new sender {} config).Held := by
  refine ⟨Nat.le_max_right _ _, fun _ hp => ?_⟩
  exact absurd rfl hp

variable [Sender σ]

theorem Deed.maxChunk_eq (d : Deed event b c) : c.maxChunk = b.maxChunk := by
  cases d with
  | send | tell | suspend | endOutput | adjust => rfl
  | announce => rw [connected_eq]
  | receive =>
    unfold queueOutput
    repeat' split
    all_goals rfl
  | closeConnection ha => rw [closeConnection_eq ha]
  | closeStream ha hs hi ho he => rw [closeStream_conclude ha hs hi ho he]

theorem Deeds.maxChunk_eq (d : Deeds event b c) : c.maxChunk = b.maxChunk :=
  d.preserves (P := fun c => c.maxChunk = b.maxChunk) (fun d same => d.maxChunk_eq.trans same) rfl

theorem Deed.pending_le (d : Deed event b c) : c.pending.length ≤ b.pending.length := by
  cases d with
  | send _ hs =>
    rw [pending_of_open hs]
    simp [sendChunk, pending]
  | tell | suspend => exact Nat.le_refl _
  | announce =>
    rw [connected_eq]
    exact Nat.le_refl _
  | @receive data => exact Nat.le_of_eq (congrArg List.length (queueOutput_pending b data))
  | endOutput _ _ hs =>
    rw [pending_of_open hs]
    exact Nat.le_refl _
  | adjust hs adjusts =>
    rw [pending_of_open hs, pending_of_open (keep_stream _ _)]
    cases adjusts with
    | stopReading | loseOutput | stopWriting => exact Nat.le_refl _
    | dropInput | discard => exact Nat.zero_le _
  | closeConnection _ hs =>
    have same : b.closeConnection.pending = b.pending := by
      rw [pending_of_open hs, pending_of_open ((closeConnection_stream b).trans hs)]
    exact Nat.le_of_eq (congrArg List.length same)
  | closeStream ha hs hi ho he =>
    rw [closeStream_conclude ha hs hi ho he]
    exact Nat.zero_le _

theorem Tidy.react_pending_le (h : b.Tidy) (event : Event) : (b.react event).1.pending.length ≤ b.pending.length :=
  h.react_preserves (P := fun c => c.pending.length ≤ b.pending.length) event
    (fun _ d le => Nat.le_trans d.pending_le le) id (Nat.le_refl _)

/-! ## Reactions -/

theorem Quietly.held (q : Quietly event b c) (h : b.Held) : c.Held := by
  refine h.of_unsent q.deeds.maxChunk_eq (q.calls.mono fun _ quiet => quiet.2) fun ha hp => ?_
  cases hs' : c.stream with
  | none => exact absurd (pending_of_closed hs') hp
  | some s' =>
    obtain ⟨hb, s, hs, hi, -⟩ := q.stream ha s' hs'
    exact ⟨hb, by rw [pending_of_open hs, pending_of_open hs', hi]⟩

theorem sendPending_held (ha : b.attached = true) (hs : b.stream = some s) (hf : b.finished = false)
    (hchunk : 1 ≤ b.maxChunk) : b.sendPending.1.Held := by
  have sends : Reacts (.stream .readable) b b.sendPending := sendPending_reacts hf hs
  have same := sends.deeds.maxChunk_eq
  have passes := sendPending_passes ha hs hf
  generalize b.sendPending.1 = c at same passes ⊢
  refine ⟨same ▸ hchunk, fun ha' hp => ?_⟩
  cases passes with
  | parts hd => cases hd.symm.trans ha'
  | waits hok =>
    obtain ⟨offered, earlier, hcalls⟩ :
        ∃ offered earlier, (b.offers s).calls = .send offered (.accepted 0) :: earlier :=
      offer_refused hchunk hok hp
    exact ⟨[], offered, earlier, hcalls, by simp⟩
  | tells _ hi => exact absurd hi hp

theorem endOutput_held (ha : b.attached = true) (hs : b.stream = some s) (hf : b.finished = false) (h : b.Held) :
    b.endOutput.1.Held := by
  refine endOutput_rule (P := Held) hs (fun _ => h) (fun _ => ?_) id ?_
  · refine h.of_unsent rfl (.one rfl rfl) fun _ _ => ⟨ha, ?_⟩
    rw [pending_of_open hs]
    rfl
  · intro c s' held ha' hs' hf'
    exact sendPending_held (ha'.trans ha) hs' (hf'.trans hf) held.one_le_chunk

theorem Course.held (course : Course event b r) (ht : b.Tidy) (h : b.Held) : r.1.Held := by
  refine course.rule (P := Held) ht (·.held h) id ?_ ?_
  · exact fun held ha hs hf => sendPending_held ha hs hf held.one_le_chunk
  · exact fun held ha hs hf _ => endOutput_held ha hs hf held

theorem Held.react (h : b.Held) (ht : b.Tidy) (event : Event) : (b.react event).1.Held := by
  cases hf : b.finished with
  | true =>
    rw [react_late hf]
    exact ⟨h.one_le_chunk, h.refused⟩
  | false => exact (react_course ht.toSound hf event).held ht h

theorem readable_held (ht : b.Tidy) (hchunk : 1 ≤ b.maxChunk) : (b.onStream .readable).1.Held := by
  cases ha : b.attached with
  | false => exact (Held.of_detached hchunk ha).react ht (.stream .readable)
  | true =>
    obtain ⟨s, hs⟩ := ht.stream_of_attached ha
    have hf := ht.finished_of_open hs
    rw [onStream_of_open hf hs]
    exact sendPending_held ha hs hf hchunk

/-! ## Runs -/

theorem Held.acted {act : Act} (h : b.Held) (acted : Acted act b c) (ht : b.Tidy) : c.Held := by
  cases acted with
  | impossible => exact h
  | silent hs hon =>
    cases Act.does_of_on hon with
    | takeSome => exact h.keep hs rfl
  | @reported s s' e hs hon =>
    have tidy := ht.keep hs s'
    -- All but a feed leave the input alone; what is fed has not been refused before it is reported.
    have kept : s'.input = s.input → (b.keep s').Held := h.keep hs
    cases Act.does_of_on hon with
    | feed => exact readable_held tidy h.one_le_chunk
    | takeAll | finish | fail | failAll | connect => exact (kept rfl).react tidy _

theorem Held.move (h : b.Held) (ht : b.Tidy) (m : Move) : (b.move m).Held := by
  cases m with
  | connection e => exact h.react ht (.connection e)
  | hold peer => exact h.holdPeer peer
  | stream act => exact h.acted (move_acted b act) ht

theorem held_play (sender : σ) (config : Config) (moves : List Move) :
    ((new sender {} config).play moves).Held := by
  induction moves using List.reverseRecOn with
  | nil => exact held_new sender config
  | append_singleton moves m ih =>
    rw [play_snoc]
    exact ih.move ((tidy_new sender {} config).play moves) m

end Bridge

end Splice
