import Splice.Proofs.Bridge.Sending
import Splice.Proofs.Bridge.Teardown
import Splice.Proofs.Bridge.Waiting

/-!
# Half-closes

Each direction of a bridge ends once. After the connection was told that no more will be sent, nothing is
left of the stream's input and nothing more is sent; after the stream was told that no more will be
written, it is not written again. A stream is read until it has ended its input.
-/

namespace Splice

namespace Call

def endsHalf : Call → Bool
  | shutdown .transmit | shutdownStream => true
  | _ => false

def isSend : Call → Bool
  | send .. => true
  | _ => false

theorem endsHalf_of_toPeer {call : Call} (h : call.toPeer = true) : call.endsHalf = false := by
  cases call <;> simp_all [toPeer, endsHalf]

theorem isSend_of_toPeer {call : Call} (h : call.toPeer = true) : call.isSend = false := by
  cases call <;> simp_all [toPeer, isSend]

end Call

/-- A stream has changed without becoming more able to be read or written. -/
structure Stream.Narrows (s s' : Stream) : Prop where
  sticky_eq : s'.sticky = s.sticky
  reads : s.reads = false → s'.reads = false
  writes : s.writes = false → s'.writes = false
  input : s.reads = false → s.input = [] → s'.input = []

namespace Stream.Narrows

variable {s s' : Stream}

theorem of_same (hsticky : s'.sticky = s.sticky) (hr : s'.reads = s.reads) (hw : s'.writes = s.writes)
    (hi : s.input = [] → s'.input = []) : s.Narrows s' :=
  ⟨hsticky, hr.trans, hw.trans, fun _ => hi⟩

theorem refl (s : Stream) : s.Narrows s := of_same rfl rfl rfl id

theorem trans {s'' : Stream} (h : s.Narrows s') (h' : s'.Narrows s'') : s.Narrows s'' :=
  ⟨h'.sticky_eq.trans h.sticky_eq, fun hr => h'.reads (h.reads hr), fun hw => h'.writes (h.writes hw),
    fun hr hi => h'.input (h.reads hr) (h.input hr hi)⟩

theorem disable (s : Stream) (d : Directions) : s.Narrows (s.disable d) := by
  refine ⟨rfl, ?_, ?_, fun _ => id⟩ <;> simp +contextual [Stream.disable]

theorem withdraw (s : Stream) (d : Directions) : s.Narrows (s.withdraw d) := by
  refine ⟨rfl, ?_, ?_, fun _ => id⟩ <;> simp +contextual [Stream.withdraw]

theorem of_act {act : Act} {report : Option StreamEvent} (does : Act.Does s act s' report) : s.Narrows s' := by
  cases does with
  | feed hr =>
    refine ⟨rfl, id, id, fun hr' => ?_⟩
    cases hr.symm.trans hr'
  | takeSome | takeAll | connect => exact of_same rfl rfl rfl id
  | finish | fail | failAll => exact withdraw s _

end Stream.Narrows

namespace Bridge

variable {σ : Type} {event : Event} {noMore noMore' : Prop} {b c : Bridge σ} {s s' : Stream} {fed : List UInt8}

theorem Adjusts.narrows {attached : Bool} (adjusts : Adjusts event attached s s') : s.Narrows s' := by
  cases adjusts with
  | stopReading | stopWriting => exact .disable s _
  | loseOutput => exact ⟨rfl, (Stream.Narrows.disable s _).reads, (Stream.Narrows.disable s _).writes, fun _ => id⟩
  | dropInput | discard =>
    exact ⟨rfl, (Stream.Narrows.disable s _).reads, (Stream.Narrows.disable s _).writes, fun _ _ => rfl⟩

/-- What the calls that end a direction say of the bridge. -/
structure Sealed (b : Bridge σ) : Prop where
  sound : ∀ s, b.stream = some s → s.sticky = .none
  input_over : .shutdown .transmit ∈ b.calls → ∀ s, b.stream = some s → s.reads = false ∧ s.input = []
  output_over : .shutdownStream ∈ b.calls → b.suspended = true ∧ ∀ s, b.stream = some s → s.writes = false
  last_send : b.calls.Pairwise fun later earlier => earlier = .shutdown .transmit → later.isSend = false
  output_ended_once : b.calls.count .shutdownStream ≤ 1

namespace Sealed

theorem of_narrows (h : b.Sealed) (made : List Call) (hcalls : c.calls = made ++ b.calls)
    (hmade : ∀ call ∈ made, call.endsHalf = false ∧ call.isSend = false)
    (hsus : b.suspended = true → c.suspended = true)
    (hstream : ∀ s', c.stream = some s' → ∃ s, b.stream = some s ∧ s.Narrows s') : c.Sealed := by
  have earlier : ∀ call ∈ c.calls, call.endsHalf = true → call ∈ b.calls := by
    intro call hc hends
    rw [hcalls] at hc
    rcases List.mem_append.mp hc with hc | hc
    · rw [(hmade call hc).1] at hends
      cases hends
    · exact hc
  refine ⟨?_, ?_, ?_, ?_, ?_⟩
  · intro s' hs'
    obtain ⟨s, hs, narrows⟩ := hstream s' hs'
    exact narrows.sticky_eq.trans (h.sound s hs)
  · intro hc s' hs'
    obtain ⟨s, hs, narrows⟩ := hstream s' hs'
    obtain ⟨hr, hi⟩ := h.input_over (earlier _ hc rfl) s hs
    exact ⟨narrows.reads hr, narrows.input hr hi⟩
  · intro hc
    obtain ⟨hbsus, hw⟩ := h.output_over (earlier _ hc rfl)
    refine ⟨hsus hbsus, fun s' hs' => ?_⟩
    obtain ⟨s, hs, narrows⟩ := hstream s' hs'
    exact narrows.writes (hw s hs)
  · rw [hcalls]
    refine List.pairwise_append.mpr ⟨?_, h.last_send, fun later hl _ _ _ => (hmade later hl).2⟩
    exact List.pairwise_of_forall_mem_list fun later hl _ _ _ => (hmade later hl).2
  · have none_made : made.count .shutdownStream = 0 :=
      List.count_eq_zero.mpr fun hc => by cases (hmade _ hc).1
    rw [hcalls, List.count_append, none_made, Nat.zero_add]
    exact h.output_ended_once

theorem keep (h : b.Sealed) (hs : b.stream = some s) (narrows : s.Narrows s') : (b.keep s').Sealed := by
  refine h.of_narrows [] rfl (by simp) id ?_
  rintro _ ⟨⟩
  exact ⟨s, hs, narrows⟩

theorem of_frame (h : b.Sealed) (hcalls : c.calls = b.calls) (hsus : c.suspended = b.suspended)
    (hstream : c.stream = b.stream) : c.Sealed := by
  refine h.of_narrows [] hcalls (by simp) (fun hb => hsus.trans hb) ?_
  rw [hstream]
  exact fun s hs => ⟨s, hs, .refl s⟩

theorem of_toPeer (h : b.Sealed) {made : List Call} (hmade : ∀ call ∈ made, call.toPeer = true)
    (hcalls : c.calls = made ++ b.calls) (hsus : c.suspended = b.suspended) (hstream : c.stream = b.stream) :
    c.Sealed := by
  refine h.of_narrows made hcalls (fun call hc => ?_) (fun hb => hsus.trans hb) ?_
  · exact ⟨Call.endsHalf_of_toPeer (hmade call hc), Call.isSend_of_toPeer (hmade call hc)⟩
  · rw [hstream]
    exact fun s hs => ⟨s, hs, .refl s⟩

theorem releasePeer (h : b.Sealed) : b.releasePeer.Sealed := by
  rw [releasePeer_eq]
  exact h.of_toPeer b.releases_toPeer rfl rfl rfl

theorem holdPeer (h : b.Sealed) (peer : PeerId) : (b.holdPeer peer).Sealed :=
  h.releasePeer.of_frame rfl rfl rfl

theorem tell {call : Call} (h : b.Sealed) (hs : b.stream = some s) (tells : Tells event s call) :
    (b.record call).Sealed := by
  cases tells with
  | acknowledge | endReceiving =>
    refine h.of_narrows [_] rfl ?_ id fun s hs => ⟨s, hs, .refl s⟩
    simp [Call.endsHalf, Call.isSend]
  | endSending hr hi =>
    refine ⟨h.sound, fun _ s' hs' => ?_, fun hc => h.output_over (List.mem_of_ne_of_mem (by simp) hc),
      .cons (fun _ _ _ => rfl) h.last_send, ?_⟩
    · obtain rfl : s = s' := Option.some.inj (hs.symm.trans hs')
      exact ⟨hr, hi⟩
    · rw [record_calls, List.count_cons_of_ne (by simp)]
      exact h.output_ended_once

theorem queueOutput (h : b.Sealed) (hs : b.stream = some s) (data : List UInt8) : (b.queueOutput data).1.Sealed := by
  cases hw : s.writes with
  | true =>
    rw [queueOutput_of_writes data hs hw]
    refine h.of_narrows [] rfl (by simp) id ?_
    rintro _ ⟨⟩
    exact ⟨s, hs, .of_same rfl rfl rfl id⟩
  | false =>
    rw [queueOutput_of_not_writes data hs hw]
    exact h.of_frame rfl rfl rfl

theorem endOutput (h : b.Sealed) (hsus : b.suspended = true) (hs : b.stream = some s) (hw : s.writes = true) :
    ((b.keep (s.disable .onlyWrite)).record .shutdownStream).Sealed := by
  have kept := h.keep hs (Stream.Narrows.disable s .onlyWrite)
  -- The stream is still written, so its output was not ended before.
  have not_ended : .shutdownStream ∉ b.calls := fun hc => by cases ((h.output_over hc).2 s hs).symm.trans hw
  refine ⟨kept.sound, fun hc => ?_, fun _ => ⟨hsus, ?_⟩, .cons (fun _ _ _ => rfl) kept.last_send, ?_⟩
  · exact kept.input_over (List.mem_of_ne_of_mem (by simp) hc)
  · rintro _ ⟨⟩
    exact Stream.writes_disable_onlyWrite (h.sound s hs)
  · simp [List.count_eq_zero.mpr not_ended]

theorem closeConnection (h : b.Sealed) (ha : b.attached = true) : b.closeConnection.Sealed := by
  refine h.of_narrows b.closing (closeConnection_calls ha) (fun call hc => ?_) ?_ ?_
  · rcases closing_cases hc with hc | rfl
    · exact ⟨Call.endsHalf_of_toPeer hc, Call.isSend_of_toPeer hc⟩
    · exact ⟨rfl, rfl⟩
  · rw [closeConnection_eq ha]
    exact id
  · rw [closeConnection_stream]
    exact fun s hs => ⟨s, hs, .refl s⟩

end Sealed

theorem sealed_new (sender : σ) (config : Config) : (new sender {} config).Sealed := by
  refine ⟨?_, fun hc => ?_, fun hc => ?_, .nil, Nat.zero_le 1⟩
  · rintro s ⟨⟩
    rfl
  · cases hc
  · cases hc

/-- An attached bridge goes on reading its stream until the stream has ended its input. -/
def ReadsUntil (noMore : Prop) (b : Bridge σ) : Prop :=
  b.attached = true → ∀ s, b.stream = some s → s.reads = false → noMore

theorem ReadsUntil.of_le (h : b.ReadsUntil noMore) (ho : noMore → noMore') : b.ReadsUntil noMore' :=
  fun ha s hs hr => ho (h ha s hs hr)

theorem ReadsUntil.act {act : Act} {report : Option StreamEvent} (h : b.ReadsUntil noMore) (hs : b.stream = some s)
    (does : Act.Does s act s' report) (hspare : act.sparesOutput = true) :
    (b.keep s').ReadsUntil (noMore ∨ InputOver report.toList) := by
  rintro ha _ ⟨⟩ hr
  cases does with
  | feed | takeSome | takeAll | connect => exact .inl (h ha s hs hr)
  | @finish d =>
    rw [Stream.reads_withdraw, Bool.and_eq_false_iff, Bool.not_eq_false'] at hr
    refine hr.imp (h ha s hs) fun hd => ?_
    rw [Option.toList_some, inputOver_singleton, Event.endsInput, Directions.contains_onlyRead, hd]
  | fail | failAll => cases hspare

theorem Sends.act {act : Act} {report : Option StreamEvent} (h : b.Sends fed) (hs : b.stream = some s)
    (does : Act.Does s act s' report) : (b.keep s').Sends (fed ++ b.fedBy (.stream act)) := by
  have unfed : s'.input = s.input → (b.keep s').Sends (fed ++ []) := by
    intro hi
    rw [List.append_nil]
    refine h.of_unsent rfl ?_ rfl
    rintro ha _ ⟨⟩
    exact ⟨ha, s, hs, hi.symm⟩
  cases does with
  | @feed data hr =>
    have appended := h.append data
    rw [change_of_open hs, appendedBy, hs, Option.isSome_some, if_pos rfl] at appended
    rw [fedBy, hs, Option.map_some, Option.getD_some, Act.fed, if_pos hr]
    exact appended
  | takeSome | takeAll | finish | fail | failAll | connect =>
    rw [show b.fedBy (.stream _) = [] by simp [fedBy, hs, Act.fed]]
    exact unfed rfl

variable [Sender σ]

theorem Sealed.sendChunk (h : b.Sealed) (hs : b.stream = some s) (hi : s.input ≠ []) : (b.sendChunk s).Sealed := by
  -- There is input, so no end of sending is among the calls.
  have not_told : .shutdown .transmit ∉ b.calls := fun hc => hi (h.input_over hc s hs).2
  refine ⟨?_, fun hc => ?_, fun hc => ?_, ?_, ?_⟩
  · rintro _ ⟨⟩
    exact h.sound s hs
  · exact absurd (List.mem_of_ne_of_mem (by simp) hc) not_told
  · obtain ⟨hsus, hw⟩ := h.output_over (List.mem_of_ne_of_mem (by simp) hc)
    refine ⟨hsus, ?_⟩
    rintro _ ⟨⟩
    exact hw s hs
  · refine .cons ?_ h.last_send
    rintro _ hc rfl
    exact absurd hc not_told
  · rw [show (b.sendChunk s).calls = _ :: b.calls from rfl, List.count_cons_of_ne (by simp)]
    exact h.output_ended_once

theorem Deed.sealed (d : Deed event b c) (ht : b.Tidy) (h : b.Sealed) : c.Sealed := by
  cases d with
  | send _ hs hi => exact h.sendChunk hs hi
  | tell _ hs tells => exact h.tell hs tells
  | suspend => exact h.of_narrows [] rfl (by simp) (fun _ => rfl) fun s hs => ⟨s, hs, .refl s⟩
  | announce =>
    rw [connected_eq]
    exact h.of_toPeer b.announces_toPeer rfl rfl rfl
  | @receive data ha =>
    obtain ⟨s, hs⟩ := ht.stream_of_attached ha
    exact h.queueOutput hs data
  | endOutput _ hsus hs _ hw => exact h.endOutput hsus hs hw
  | adjust hs adjusts => exact h.keep hs adjusts.narrows
  | closeConnection ha => exact h.closeConnection ha
  | closeStream ha hs hi ho he =>
    rw [closeStream_conclude ha hs hi ho he]
    refine h.of_narrows [_] rfl (by simp [Call.endsHalf, Call.isSend]) id ?_
    rintro _ ⟨⟩

theorem Deed.reads_until (d : Deed event b c) (ht : b.Sound) (hends : event.endsInput = true → noMore)
    (h : b.ReadsUntil noMore) : c.ReadsUntil noMore := by
  intro hca t ht' hr
  cases d with
  | @send s ha hs =>
    cases ht'
    exact h ha s hs hr
  | tell ha hs | suspend ha => exact h ha t ht' hr
  | announce ha =>
    rw [connected_eq] at ht'
    exact h ha t ht' hr
  | @receive data ha =>
    obtain ⟨s, hs⟩ := ht.stream_of_attached ha
    cases hw : s.writes with
    | true =>
      rw [queueOutput_of_writes data hs hw] at ht'
      cases ht'
      exact h ha s hs hr
    | false =>
      rw [queueOutput_of_not_writes data hs hw] at ht'
      exact h ha t ht' hr
  | @endOutput s ha _ hs =>
    cases ht'
    rw [Stream.reads_disable_onlyWrite] at hr
    exact h ha s hs hr
  | @adjust s s' hs adjusts =>
    cases ht'
    rw [keep_attached] at hca
    cases adjusts with
    | stopReading he => exact hends he
    | loseOutput | stopWriting => exact h hca s hs ((Stream.reads_disable_onlyWrite s).symm.trans hr)
    | dropInput ha | discard ha => cases hca.symm.trans ha
  | closeConnection => cases hca.symm.trans (closeConnection_attached b)
  | closeStream ha hs hi ho he =>
    rw [closeStream_conclude ha hs hi ho he] at hca
    cases hca.symm.trans ha

/-! ## Along the moves -/

theorem Sealed.react (h : b.Sealed) (ht : b.Tidy) (event : Event) : (b.react event).1.Sealed :=
  ht.react_preserves event (fun hc d sealed => d.sealed hc sealed) (fun sealed => sealed.of_frame rfl rfl rfl) h

theorem Sealed.move (h : b.Sealed) (ht : b.Tidy) (m : Move) : (b.move m).Sealed :=
  ht.move_preserves m (fun hc d sealed => d.sealed hc sealed) (fun sealed => sealed.of_frame rfl rfl rfl)
    (fun hs does sealed => sealed.keep hs (.of_act does)) (fun peer sealed => sealed.holdPeer peer) h

theorem sealed_play (sender : σ) (config : Config) (moves : List Move) :
    ((new sender {} config).play moves).Sealed := by
  induction moves using List.reverseRecOn with
  | nil => exact sealed_new sender config
  | append_singleton moves m ih =>
    rw [play_snoc]
    exact ih.move ((tidy_new sender {} config).play moves) m

theorem Sends.deeds (h : b.Sends fed) (ht : b.Tidy) (d : Deeds event b c) : c.Sends fed := by
  have kept := d.preserves (P := fun c => c.Tidy ∧ c.Sends fed)
    (fun d hc => ⟨d.tidy hc.1, d.sends hc.1.toSound hc.2⟩) ⟨ht, h⟩
  exact kept.2

theorem Sends.react (h : b.Sends fed) (ht : b.Tidy) (event : Event) : (b.react event).1.Sends fed :=
  ht.react_preserves event (fun hc d sends => d.sends hc.toSound sends)
    (fun sends => ⟨sends.pending, sends.sent_begins, sends.counted⟩) h

theorem Sends.acted {act : Act} (h : b.Sends fed) (acted : Acted act b c) (ht : b.Tidy) :
    c.Sends (fed ++ b.fedBy (.stream act)) := by
  cases acted with
  | impossible hno =>
    rw [fedBy_of_impossible hno, List.append_nil]
    exact h
  | silent hs hon => exact h.act hs (Act.does_of_on hon)
  | reported hs hon => exact (h.act hs (Act.does_of_on hon)).react (ht.keep hs _) _

theorem Sends.move (h : b.Sends fed) (ht : b.Tidy) (m : Move) : (b.move m).Sends (fed ++ b.fedBy m) := by
  cases m with
  | connection e =>
    simp only [fedBy, List.append_nil]
    exact h.react ht (.connection e)
  | hold peer =>
    simp only [fedBy, List.append_nil]
    exact h.holdPeer peer
  | stream act => exact h.acted (move_acted b act) ht

theorem sends_play (sender : σ) (config : Config) (moves : List Move) :
    let start := new sender {} config
    (start.play moves).Sends (start.fed moves) := by
  intro start
  induction moves using List.reverseRecOn with
  | nil => exact sends_new sender {} config
  | append_singleton moves m ih =>
    rw [play_snoc, fed_snoc]
    exact ih.move ((tidy_new sender {} config).play moves) m

theorem ReadsUntil.react (h : b.ReadsUntil noMore) (ht : b.Tidy) (hends : event.endsInput = true → noMore) :
    (b.react event).1.ReadsUntil noMore :=
  ht.react_preserves event (fun hc d until_over => d.reads_until hc.toSound hends until_over) id h

theorem ReadsUntil.acted {act : Act} (h : b.ReadsUntil noMore) (acted : Acted act b c) (ht : b.Tidy)
    (hspare : act.sparesOutput = true) : c.ReadsUntil (noMore ∨ InputOver (b.reportedBy (.stream act))) := by
  cases acted with
  | impossible => exact h.of_le .inl
  | silent hs hon =>
    rw [reportedBy_of_on hs hon]
    exact h.act hs (Act.does_of_on hon) hspare
  | reported hs hon =>
    rw [reportedBy_of_on hs hon]
    refine (h.act hs (Act.does_of_on hon) hspare).react (ht.keep hs _) fun hends => .inr ?_
    rw [Option.toList_some, inputOver_singleton]
    exact hends

theorem ReadsUntil.move {m : Move} (h : b.ReadsUntil noMore) (ht : b.Tidy) (hspare : m.sparesOutput = true) :
    (b.move m).ReadsUntil (noMore ∨ InputOver (b.reportedBy m)) := by
  cases m with
  | connection e =>
    have kept : (b.react (.connection e)).1.ReadsUntil noMore := h.react ht (by simp [Event.endsInput])
    exact kept.of_le .inl
  | hold peer =>
    rw [Bridge.move, holdPeer, releasePeer_eq]
    exact ReadsUntil.of_le h .inl
  | stream act => exact h.acted (move_acted b act) ht hspare

theorem reads_until_play (sender : σ) (config : Config) (moves : List Move)
    (hspare : ∀ m ∈ moves, m.sparesOutput = true) :
    let start := new sender {} config
    (start.play moves).ReadsUntil (InputOver (start.reported moves)) := by
  intro start
  induction moves using List.reverseRecOn with
  | nil =>
    rintro - _ ⟨⟩ hr
    cases hr
  | append_singleton moves m ih =>
    rw [play_snoc, reported_snoc]
    have kept := ih fun m hm => hspare m (List.mem_append_left _ hm)
    exact (kept.move ((tidy_new sender {} config).play moves) (hspare m (by simp))).of_le
      (inputOver_append _ _).mpr

end Bridge

end Splice
