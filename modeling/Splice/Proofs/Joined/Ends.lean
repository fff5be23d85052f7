import Splice.Proofs.Bridge.Parting
import Splice.Proofs.Joined.Wire

/-!
# One end of a wire

A connection that takes everything leaves no input behind: between events, all that the stream gave has
been sent. So the connection is told that no more will be sent only after the stream has ended its input,
and the stream is told that no more will be written only after the connection has ended and all output was
taken.
-/

namespace Splice

def Move.event? : Move → Option ConnectionEvent
  | connection e => some e
  | _ => none

theorem Act.Does.finish_of_endsInput {act : Act} {s s' : Stream} {e : StreamEvent} (does : Act.Does s act s' (some e))
    (h : (Event.stream e).endsInput = true) : ∃ d, act = .finish d := by
  cases does with
  | finish => exact ⟨_, rfl⟩
  | feed | takeAll | fail | failAll | connect => cases h

namespace Bridge

variable {event : Event} {ended noMore : Prop} {b c : Bridge Unlimited} {s s' : Stream}

/-- No input is left, and no send has failed. -/
structure Prompt (b : Bridge Unlimited) : Prop where
  one_le_maxChunk : 1 ≤ b.maxChunk
  input_nil : ∀ s, b.stream = some s → s.input = []
  never_failed : ¬ b.SendFailed

namespace Prompt

theorem of_unsent (h : b.Prompt) (made : List Call) (hcalls : c.calls = made ++ b.calls)
    (hmade : ∀ call ∈ made, call.isSend = false) (hchunk : c.maxChunk = b.maxChunk)
    (hstream : ∀ s, c.stream = some s → s.input = []) : c.Prompt := by
  refine ⟨hchunk ▸ h.one_le_maxChunk, hstream, ?_⟩
  rintro ⟨offered, hmem⟩
  rw [hcalls] at hmem
  rcases List.mem_append.mp hmem with hmem | hmem
  · cases hmade _ hmem
  · exact h.never_failed ⟨offered, hmem⟩

theorem keep (h : b.Prompt) (hi : s.input = []) : (b.keep s).Prompt := by
  refine h.of_unsent [] rfl (by simp) rfl ?_
  rintro _ ⟨⟩
  exact hi

theorem holdPeer (h : b.Prompt) (peer : PeerId) : (b.holdPeer peer).Prompt := by
  rw [Bridge.holdPeer, releasePeer_eq]
  exact h.of_unsent b.releases rfl (fun call hc => Call.isSend_of_toPeer (b.releases_toPeer call hc)) rfl h.input_nil

end Prompt

theorem prompt_new (config : Config) : (new Unlimited.mk {} config).Prompt := by
  refine ⟨Nat.le_max_right .., ?_, ?_⟩
  · rintro s ⟨⟩
    rfl
  · rintro ⟨offered, hmem⟩
    cases hmem

theorem Adjusts.input_nil {attached : Bool} (adjusts : Adjusts event attached s s') (h : s.input = []) :
    s'.input = [] := by
  cases adjusts with
  | stopReading | loseOutput | stopWriting => exact h
  | dropInput | discard => rfl

theorem Deed.prompt (d : Deed event b c) (ht : b.Sound) (h : b.Prompt) : c.Prompt := by
  cases d with
  | send _ hs hi => exact absurd (h.input_nil _ hs) hi
  | tell _ _ tells =>
    refine h.of_unsent [_] rfl ?_ rfl h.input_nil
    cases tells <;> simp [Call.isSend]
  | suspend => exact h.of_unsent [] rfl (by simp) rfl h.input_nil
  | announce =>
    rw [connected_eq]
    exact h.of_unsent b.announces rfl (fun call hc => Call.isSend_of_toPeer (b.announces_toPeer call hc)) rfl
      h.input_nil
  | @receive data ha =>
    obtain ⟨s, hs⟩ := ht.stream_of_attached ha
    cases hw : s.writes with
    | true =>
      rw [queueOutput_of_writes data hs hw]
      refine h.of_unsent [] rfl (by simp) rfl ?_
      rintro _ ⟨⟩
      exact h.input_nil s hs
    | false =>
      rw [queueOutput_of_not_writes data hs hw]
      exact h.of_unsent [] rfl (by simp) rfl h.input_nil
  | @endOutput s _ _ hs =>
    have kept : (b.keep (s.disable .onlyWrite)).Prompt := h.keep (h.input_nil s hs)
    exact kept.of_unsent [_] rfl (by simp [Call.isSend]) rfl kept.input_nil
  | adjust hs adjusts => exact h.keep (adjusts.input_nil (h.input_nil _ hs))
  | closeConnection ha hs =>
    refine h.of_unsent b.closing (closeConnection_calls ha) (fun call hc => ?_) ?_ ?_
    · rcases closing_cases hc with hc | rfl
      · exact Call.isSend_of_toPeer hc
      · rfl
    · rw [closeConnection_eq ha]
    · rw [closeConnection_stream]
      exact h.input_nil
  | closeStream ha hs hi ho he =>
    rw [closeStream_conclude ha hs hi ho he]
    refine h.of_unsent [_] rfl (by simp [Call.isSend]) rfl ?_
    rintro _ ⟨⟩

theorem Prompt.react (h : b.Prompt) (ht : b.Tidy) (event : Event) : (b.react event).1.Prompt :=
  ht.react_preserves event (fun hc d prompt => d.prompt hc.toSound prompt)
    (fun prompt => prompt.of_unsent [] rfl (by simp) rfl prompt.input_nil) h

/-! ## Everything is sent at once -/

theorem offer_unlimited {chunk : Nat} (hchunk : 1 ≤ chunk) (sender : Unlimited) (input : List UInt8)
    (count : UInt64) (calls : List Call) :
    (offer chunk sender input count calls).rest = [] ∧
    (offer chunk sender input count calls).failed = false ∧
    ∀ offered, .send offered .failed ∈ (offer chunk sender input count calls).calls →
      .send offered .failed ∈ calls := by
  fun_induction offer chunk sender input count calls with
  | case1 => exact ⟨rfl, rfl, fun _ => id⟩
  | case2 =>
    rename_i hsend _
    cases hsend
  | case3 _ input _ _ hne =>
    rename_i hnone hsend _
    cases hsend
    have := List.length_pos_iff.mpr hne
    have : min (input.take chunk).length (input.take chunk).length = 0 := hnone
    rw [List.length_take] at this
    omega
  | case4 =>
    rename_i hsend _ ih
    cases hsend
    refine ⟨ih.1, ih.2.1, fun offered hmem => ?_⟩
    exact List.mem_of_ne_of_mem (by simp) (ih.2.2 offered hmem)

theorem sendPending_prompt (ht : b.Tidy) (ha : b.attached = true) (hs : b.stream = some s)
    (hchunk : 1 ≤ b.maxChunk) (hsends : ¬ b.SendFailed) : b.sendPending.1.Prompt := by
  obtain ⟨hrest, hfailed, hcalls⟩ :=
    offer_unlimited hchunk b.sender s.input b.stats.bytesToConnection b.calls
  have offers : Deeds (.stream .readable) b
      (b.offeredTo s (offer b.maxChunk b.sender s.input b.stats.bytesToConnection b.calls)) :=
    offer_deeds ha hs rfl rfl rfl rfl rfl
  rw [sendPending_of_attached ha hs]
  dsimp only
  generalize offer b.maxChunk b.sender s.input b.stats.bytesToConnection b.calls = o at *
  have tidy := ht.deeds offers
  have prompt : (b.offeredTo s o).Prompt := by
    refine ⟨hchunk, ?_, ?_⟩
    · rintro _ ⟨⟩
      exact hrest
    · rintro ⟨offered, hmem⟩
      exact hsends ⟨offered, hcalls offered hmem⟩
  rw [if_neg (by simp [hfailed])]
  have after : Reacts (.stream .readable) (b.offeredTo s o) ((b.offeredTo s o).afterSending _) :=
    afterSending_reacts (ht.finished_of_open hs) ha rfl
  have kept := after.deeds.preserves (P := fun c => c.Tidy ∧ c.Prompt)
    (fun d hc => ⟨d.tidy hc.1, d.prompt hc.1.toSound hc.2⟩) ⟨tidy, prompt⟩
  exact kept.2

theorem Rests.attached_of_reads (h : b.Rests ended noMore) (ht : b.Tidy) (hs : b.stream = some s)
    (hr : s.reads = true) : b.attached = true := by
  cases h with
  | waiting ha => exact ha
  | @winding t _ hs' _ henabled =>
    obtain rfl : s = t := Option.some.inj (hs.symm.trans hs')
    rw [Stream.reads_eq, henabled] at hr
    cases hr
  | finished hf =>
    rw [(ht.finished_iff.mp hf).2] at hs
    cases hs

theorem Prompt.acted {act : Act} (h : b.Prompt) (acted : Acted act b c) (ht : b.Tidy)
    (hrests : b.Rests ended noMore) : c.Prompt := by
  cases acted with
  | impossible => exact h
  | @silent s s' hs hon =>
    cases Act.does_of_on hon with
    | takeSome => exact h.keep (h.input_nil s hs)
  | @reported s s' e hs hon =>
    have tidy := ht.keep hs s'
    have unfed : s'.input = s.input → ((b.keep s').react (.stream e)).1.Prompt := fun hi =>
      (h.keep (hi.trans (h.input_nil s hs))).react tidy _
    cases Act.does_of_on hon with
    | feed hr =>
      have ha := hrests.attached_of_reads ht hs hr
      rw [Bridge.react, onStream_of_open (b := b.keep _) (ht.finished_of_open hs) rfl]
      exact sendPending_prompt tidy ha rfl h.one_le_maxChunk h.never_failed
    | takeAll | finish | fail | failAll | connect => exact unfed rfl

theorem prompt_play (config : Config) (moves : List Move) : ((new Unlimited.mk {} config).play moves).Prompt := by
  induction moves using List.reverseRecOn with
  | nil => exact prompt_new config
  | append_singleton moves m ih =>
    have tidy := (tidy_new Unlimited.mk {} config).play moves
    rw [play_snoc]
    cases m with
    | connection e => exact ih.react tidy (.connection e)
    | hold peer => exact ih.holdPeer peer
    | stream act => exact ih.acted (move_acted _ act) tidy (rests_play Unlimited.mk config moves)

/-! ## What an end has heard and said -/

def heard (moves : List Move) : List ConnectionEvent := moves.filterMap Move.event?

theorem heard_snoc (moves : List Move) (m : Move) : heard (moves ++ [m]) = heard moves ++ m.event?.toList := by
  rw [heard, List.filterMap_append]
  cases m <;> rfl

theorem mem_heard {moves : List Move} {e : ConnectionEvent} : e ∈ heard moves ↔ .connection e ∈ moves := by
  rw [heard, List.mem_filterMap]
  constructor
  · rintro ⟨m, hm, he⟩
    cases m with
    | connection => exact Option.some.inj he ▸ hm
    | stream | hold => cases he
  · exact fun hm => ⟨_, hm, rfl⟩

theorem does_of_reported {act : Act} {e : StreamEvent} (h : e ∈ b.reportedBy (.stream act)) :
    ∃ s s', Act.Does s act s' (some e) := by
  obtain ⟨⟨s', report⟩, hon, hreport⟩ := Option.bind_eq_some_iff.mp (Option.mem_toList.mp h)
  obtain ⟨s, -, hact⟩ := Option.bind_eq_some_iff.mp hon
  obtain rfl : report = some e := hreport
  exact ⟨s, s', Act.does_of_on hact⟩

theorem Tidy.sendsThenEnd (ht : b.Tidy) (h : b.Sealed) : Joined.SendsThenEnd b.calls := by
  refine (h.last_send.and ht.orderly.pairwise).imp ?_
  rintro later earlier ⟨after_end, after_close, -⟩ hends
  cases earlier with
  | shutdown half =>
    cases half with
    | receive => cases hends
    | transmit => exact after_end rfl
  | closeConnection =>
    have not_to := after_close rfl
    cases later <;> simp_all [Call.toConnection, Call.isSend]
  | _ => cases hends

/-- What holds between events at an end of which the other end takes everything: `ended` says that the other
end has ended its sending, `noMore` that the stream has ended its input. -/
structure AtEnd (written accepted fed : List UInt8) (ended noMore : Prop) (b : Bridge Unlimited) : Prop where
  tidy : b.Tidy
  sealed : b.Sealed
  prompt : b.Prompt
  sends : b.Sends fed
  keeps : b.Keeps written accepted
  rests : b.Rests ended noMore
  reads_until : b.ReadsUntil noMore
  parts : b.attached = false → b.suspended = true ∧ noMore ∧ b.sent = fed
  ended_of_suspended : b.suspended = true → ended

/-- The stream neither gives input nor takes output. -/
def Idle (b : Bridge Unlimited) : Prop :=
  ∀ s, b.stream = some s → s.reads = false ∧ (s.writes = true → s.output = [])

namespace AtEnd

variable {written accepted fed : List UInt8}

theorem sent_eq (h : b.AtEnd written accepted fed ended noMore) : b.sent = fed := by
  cases ha : b.attached with
  | false => exact (h.parts ha).2.2
  | true =>
    obtain ⟨s, hs⟩ := h.tidy.stream_of_attached ha
    rw [← h.sends.pending ha s hs, h.prompt.input_nil s hs, List.append_nil]

theorem detached_of_closed (h : b.AtEnd written accepted fed ended noMore) (hnone : b.stream = none) :
    b.attached = false := by
  by_contra ha
  obtain ⟨s, hs⟩ := h.tidy.stream_of_attached (by simpa using ha)
  cases hs.symm.trans hnone

theorem over_of_endsSending (h : b.AtEnd written accepted fed ended noMore)
    (hsaid : b.calls.any Joined.endsSending = true) : noMore := by
  cases ha : b.attached with
  | false => exact (h.parts ha).2.1
  | true =>
    obtain ⟨s, hs⟩ := h.tidy.stream_of_attached ha
    obtain ⟨call, hmem, hends⟩ := List.any_eq_true.mp hsaid
    have orderly := h.tidy.orderly
    rw [ha] at orderly
    cases call with
    | shutdown half =>
      cases half with
      | receive => cases hends
      | transmit => exact h.reads_until ha s hs (h.sealed.input_over hmem s hs).1
    | closeConnection => exact absurd hmem orderly.connection_open
    | _ => cases hends

theorem endsSending_of_detached (h : b.AtEnd written accepted fed ended noMore) (ha : b.attached = false) :
    b.calls.any Joined.endsSending = true := by
  have closed := h.tidy.orderly.count_closeConnection
  rw [ha] at closed
  have hmem : .closeConnection ∈ b.calls := List.count_pos_iff.mp (closed ▸ Nat.one_pos)
  exact List.any_eq_true.mpr ⟨_, hmem, rfl⟩

theorem endsSending_of_over (h : b.AtEnd written accepted fed ended noMore) (hover : noMore) :
    b.calls.any Joined.endsSending = true := by
  cases h.rests with
  | @waiting s ha hs w => exact List.any_eq_true.mpr ⟨_, w.told hover (h.prompt.input_nil s hs), rfl⟩
  | winding ha => exact h.endsSending_of_detached ha
  | finished hf => exact h.endsSending_of_detached (h.tidy.finished_iff.mp hf).1

/-- The stream is told that no more will be written, and is closed, only after the other end has ended its
sending and all output was taken. -/
theorem ended_of_endsOutput (h : b.AtEnd written accepted fed ended noMore)
    (htold : b.calls.any Joined.endsOutput = true) : ended ∧ b.queued = [] := by
  cases hs : b.stream with
  | none =>
    refine ⟨h.ended_of_suspended (h.parts (h.detached_of_closed hs)).1, ?_⟩
    rw [queued, hs]
    rfl
  | some s =>
    obtain ⟨call, hmem, hends⟩ := List.any_eq_true.mp htold
    cases call with
    | shutdownStream =>
      obtain ⟨hsus, hw⟩ := h.sealed.output_over hmem
      refine ⟨h.ended_of_suspended hsus, ?_⟩
      rw [queued_of_open hs]
      by_contra ho
      cases (h.keeps.writes_of_queued s hs ho).symm.trans (hw s hs)
    | closeStream => exact absurd rfl ((h.tidy.orderly_open hs).stream_open _ hmem)
    | _ => cases hends

theorem endsOutput_of_closed (h : b.AtEnd written accepted fed ended noMore) (hnone : b.stream = none) :
    b.calls.any Joined.endsOutput = true := by
  have closed := h.tidy.orderly.countP_closesStream
  have some_closed : 0 < b.calls.countP Call.closesStream := by
    rw [closed, hnone]
    decide
  obtain ⟨call, hmem, hcloses⟩ := List.countP_pos_iff.mp some_closed
  refine List.any_eq_true.mpr ⟨call, hmem, ?_⟩
  cases call with
  | closeStream => rfl
  | _ => cases hcloses

theorem over_of_idle (h : b.AtEnd written accepted fed ended noMore) (hidle : Idle b) (hf : b.finished = false) :
    noMore := by
  cases h.rests with
  | @waiting s ha hs => exact h.reads_until ha s hs (hidle s hs).1
  | @winding s _ hs _ henabled _ ho =>
    refine absurd ((hidle s hs).2 ?_) ho
    rw [Stream.writes_eq, henabled]
    rfl
  | finished hf' => cases hf.symm.trans hf'

theorem finished_of_idle (h : b.AtEnd written accepted fed ended noMore) (hidle : Idle b) (hended : ended) :
    b.finished = true := by
  rcases h.rests.busy hended with hf | ⟨s, hs, hr | hi | ⟨ho, hw⟩⟩
  · exact hf
  · cases (hidle s hs).1.symm.trans hr
  · exact absurd (h.prompt.input_nil s hs) hi
  · exact absurd ((hidle s hs).2 hw) ho

end AtEnd

section Runs

variable (config : Config) (moves : List Move)

theorem not_gaveUp : ¬ (new Unlimited.mk {} config).GaveUp moves := by
  rintro ⟨before, d, -, -, -, ends⟩
  obtain ⟨s, hs⟩ := ((tidy_new Unlimited.mk {} config).play before).stream_of_attached ends.attached
  have unsent := ends.unsent
  rw [pending_of_open hs] at unsent
  exact unsent ((prompt_play config before).input_nil s hs)

theorem atEnd_play (hspare : ∀ m ∈ moves, m.sparesOutput = true)
    (hwhole : ∀ m ∈ moves, m.failsConnection = false) :
    let start := new Unlimited.mk {} config
    (start.play moves).AtEnd (start.written moves) (start.accepted moves) (start.fed moves)
      (.connection .eof ∈ moves) (InputOver (start.reported moves)) := by
  intro start
  refine ⟨(tidy_new Unlimited.mk {} config).play moves, sealed_play Unlimited.mk config moves,
    prompt_play config moves, sends_play Unlimited.mk config moves, keeps_play Unlimited.mk config moves hspare,
    rests_play Unlimited.mk config moves, reads_until_play Unlimited.mk config moves hspare, fun ha => ?_,
    ended_of_suspended Unlimited.mk config moves hspare⟩
  rcases parts_play Unlimited.mk config moves hspare hwhole with parts | gave
  · cases parts with
    | attached ha' => cases ha'.symm.trans ha
    | failed hf => exact absurd hf (prompt_play config moves).never_failed
    | apart _ hsus hover hsent => exact ⟨hsus, hover, hsent⟩
  · exact absurd gave (not_gaveUp config moves)

theorem accepted_play (hspare : ∀ m ∈ moves, m.sparesOutput = true)
    (hwhole : ∀ m ∈ moves, m.failsConnection = false) (hquiet : QuietAfterEnd moves) :
    (new Unlimited.mk {} config).accepted moves = Joined.payloads (heard moves) := by
  rw [(undropped_play Unlimited.mk config moves hspare hquiet).2]
  induction moves using List.reverseRecOn with
  | nil => rfl
  | append_singleton moves m ih =>
    have spared : ∀ m ∈ moves, m.sparesOutput = true := fun m hm => hspare m (List.mem_append_left _ hm)
    have whole : ∀ m ∈ moves, m.failsConnection = false := fun m hm => hwhole m (List.mem_append_left _ hm)
    rw [received_snoc, heard_snoc, Joined.payloads_append, ih spared whole hquiet.init]
    congr 1
    cases m with
    | stream | hold => rfl
    | connection e =>
      have same : Joined.payloads (Move.event? (.connection e)).toList = e.payload := List.append_nil _
      rw [same, receivedBy]
      cases ha : ((new Unlimited.mk {} config).play moves).attached with
      | true => rfl
      | false =>
        have hsus := ((atEnd_play config moves spared whole).parts ha).1
        have ended := ended_of_suspended Unlimited.mk config moves spared hsus
        cases e with
        | read data => exact absurd ended hquiet.not_ended
        | _ => rfl

end Runs

end Bridge

end Splice
