import Splice.Proofs.Bridge.Behaving

/-!
# Bytes to the stream

Over a behaving stream that neither fails nor ends its writing, what the connection delivered is what the
stream has written and what is still queued, in that order, and ends are passed on only once all is written.
Output is only given up where none is left: as long as some is queued, the stream is still written.
-/

namespace Splice

/-- The calls that are made only once the output has been written. -/
def Call.awaitsDrain : Call → Bool
  | readDrained | shutdownStream | closeStream .. => true
  | _ => false

theorem Call.not_awaitsDrain_of_toPeer {call : Call} (h : call.toPeer = true) : ¬ call.awaitsDrain = true := by
  cases call <;> simp_all [Call.toPeer, Call.awaitsDrain]

namespace Bridge

variable {σ : Type} {event : Event} {b c : Bridge σ} {s s' : Stream} {written accepted : List UInt8}

def queued (b : Bridge σ) : List UInt8 := (b.stream.map Stream.output).getD []

theorem queued_of_open (h : b.stream = some s) : b.queued = s.output := by
  simp [queued, h]

/-- What holds of a bridge whose stream has written some of the bytes accepted for it. -/
structure Keeps (written accepted : List UInt8) (b : Bridge σ) : Prop where
  queued_eq : written ++ b.queued = accepted
  writes_of_queued : ∀ s, b.stream = some s → s.output ≠ [] → s.writes = true
  writes_of_flowing : b.attached = true → b.suspended = false → ∀ s, b.stream = some s → s.writes = true

namespace Keeps

theorem of_frame (h : b.Keeps written accepted) (hs : c.stream = b.stream) (ha : c.attached = b.attached)
    (hsus : c.suspended = b.suspended) : c.Keeps written accepted := by
  refine ⟨?_, ?_, ?_⟩
  · rw [queued, hs]
    exact h.queued_eq
  · rw [hs]
    exact h.writes_of_queued
  · rw [hs, ha, hsus]
    exact h.writes_of_flowing

theorem of_same (h : b.Keeps written accepted) (hd : c.Ahead b) (hs : b.stream = some s)
    (hs' : c.stream = some s') (ho : s'.output = s.output) (hw : s'.writes = s.writes) :
    c.Keeps written accepted := by
  refine ⟨?_, ?_, ?_⟩
  · rw [queued_of_open hs', ho, ← queued_of_open hs]
    exact h.queued_eq
  · intro t ht hne
    obtain rfl : s' = t := Option.some.inj (hs'.symm.trans ht)
    rw [hw]
    exact h.writes_of_queued s hs (ho ▸ hne)
  · intro ha hsus t ht
    obtain rfl : s' = t := Option.some.inj (hs'.symm.trans ht)
    rw [hw]
    refine h.writes_of_flowing (hd.attached ha) ?_ s hs
    by_contra hb
    rw [hd.suspended (by simpa using hb)] at hsus
    cases hsus

theorem of_drained (h : b.Keeps written accepted) (hb : b.queued = []) (hc : c.queued = [])
    (hend : c.attached = false ∨ c.suspended = true) : c.Keeps written accepted := by
  refine ⟨?_, ?_, ?_⟩
  · rw [hc, ← hb]
    exact h.queued_eq
  · intro s hs hne
    rw [queued_of_open hs] at hc
    exact absurd hc hne
  · intro ha hsus
    rcases hend with hend | hend
    · rw [ha] at hend
      cases hend
    · rw [hsus] at hend
      cases hend

theorem written_eq (h : b.Keeps written accepted) (hb : b.queued = []) : written = accepted := by
  rw [← h.queued_eq, hb, List.append_nil]

end Keeps

theorem keeps_new (sender : σ) (config : Config) : (new sender {} config).Keeps [] [] := by
  refine ⟨rfl, ?_, ?_⟩
  · rintro s ⟨⟩ hne
    exact absurd rfl hne
  · rintro - - s ⟨⟩
    rfl

theorem Keeps.accepts_all (h : b.Keeps written accepted) (ht : b.Sound) (m : Move)
    (hsus : ∀ data, m = .connection (.read data) → b.suspended = false) : b.acceptedBy m = b.receivedBy m := by
  cases m with
  | connection event =>
    cases ha : b.attached with
    | false => rw [acceptedBy_detached ha, receivedBy_detached ha]
    | true =>
      by_cases hr : ∃ data, event = .read data
      · obtain ⟨data, rfl⟩ := hr
        obtain ⟨s, hs⟩ := ht.stream_of_attached ha
        rw [acceptedBy_attached ha hs, h.writes_of_flowing ha (hsus data rfl) s hs, if_pos rfl, receivedBy, ha,
          if_pos rfl]
      · rw [acceptedBy_not_read hr, receivedBy_not_read hr]
  | stream | hold => rfl

theorem Adjusts.keeps {attached : Bool} (adjusts : Adjusts event attached s s') (ha : b.attached = attached)
    (hl : event.losesOutput = false) (h : b.Keeps written accepted) (hs : b.stream = some s) :
    (b.keep s').Keeps written accepted := by
  have ahead : (b.keep s').Ahead b := .of_open hs id rfl
  cases adjusts with
  | stopReading => exact h.of_same ahead hs rfl rfl (by simp [Stream.disable, Directions.onlyRead])
  | dropInput => exact h.of_same ahead hs rfl rfl (by simp [Stream.disable, Directions.onlyRead])
  | loseOutput lost =>
    rw [hl] at lost
    cases lost
  | stopWriting why =>
    rcases why with lost | ⟨hd, ho⟩
    · rw [hl] at lost
      cases lost
    · exact h.of_drained ((queued_of_open hs).trans ho) ho (.inl (ha.trans hd))
  | discard hd why =>
    rcases why with lost | hw
    · rw [hl] at lost
      cases lost
    · -- Only what cannot be written is discarded, and all that is queued can be.
      have ho : s.output = [] := by
        by_contra hne
        rw [h.writes_of_queued s hs hne] at hw
        cases hw
      exact h.of_drained ((queued_of_open hs).trans ho) rfl (.inl (ha.trans hd))

/-! ## The acts of the stream -/

/-- A bridge has come from another, and calls that await the drain were made only with all written. -/
structure Progress (written accepted : List UInt8) (b c : Bridge σ) : Prop where
  keeps : c.Keeps written accepted
  calls : ∃ made, c.calls = made ++ b.calls ∧ ∀ call ∈ made, call.awaitsDrain = true → written = accepted

namespace Progress

theorem of_unchanged (h : c.Keeps written accepted) (hcalls : c.calls = b.calls) : Progress written accepted b c :=
  ⟨h, [], hcalls, by simp⟩

theorem tail {d : Bridge σ} (h : Progress written accepted b c) (hd : d.Keeps written accepted)
    (hcalls : ∃ made, d.calls = made ++ c.calls ∧ ∀ call ∈ made, call.awaitsDrain = true → c.queued = []) :
    Progress written accepted b d := by
  obtain ⟨before, hbefore, hw⟩ := h.calls
  obtain ⟨after, hafter, hw'⟩ := hcalls
  refine ⟨hd, after ++ before, by rw [hafter, hbefore, List.append_assoc], ?_⟩
  intro call hc hawaits
  rcases List.mem_append.mp hc with hc | hc
  · exact h.keeps.written_eq (hw' call hc hawaits)
  · exact hw call hc hawaits

end Progress

theorem Keeps.act {act : Act} {report : Option StreamEvent} (h : b.Keeps written accepted)
    (hs : b.stream = some s) (hspare : act.sparesOutput = true) (hact : act.on? s = some (s', report)) :
    (b.keep s').Keeps (written ++ act.written s) accepted := by
  have ahead : (b.keep s').Ahead b := .of_open hs id rfl
  cases act with
  | feed data =>
    simp only [Act.on?, Option.ite_none_right_eq_some, Option.some.injEq, Prod.mk.injEq] at hact
    obtain ⟨-, rfl, -⟩ := hact
    simp only [Act.written, List.append_nil]
    exact h.of_same ahead hs rfl rfl rfl
  | take n =>
    simp only [Act.on?, Option.ite_none_right_eq_some, Option.some.injEq, Prod.mk.injEq] at hact
    obtain ⟨⟨hw, -⟩, rfl, -⟩ := hact
    refine ⟨?_, ?_, ?_⟩
    · rw [Act.written, if_pos hw, queued_of_open (keep_stream ..), List.append_assoc, List.take_append_drop,
        ← queued_of_open hs]
      exact h.queued_eq
    · rintro t ⟨⟩ -
      exact hw
    · rintro - - t ⟨⟩
      exact hw
  | finish d =>
    simp only [Act.on?, Option.ite_none_right_eq_some, Option.some.injEq, Prod.mk.injEq] at hact
    obtain ⟨-, rfl, -⟩ := hact
    have hd : d.write = false := by simpa [Act.sparesOutput] using hspare
    simp only [Act.written, List.append_nil]
    exact h.of_same ahead hs rfl rfl (by simp [Stream.withdraw, hd])
  | fail d => cases hspare
  | failAll => cases hspare
  | connect =>
    simp only [Act.on?, Option.some.injEq, Prod.mk.injEq] at hact
    obtain ⟨rfl, -⟩ := hact
    simp only [Act.written, List.append_nil]
    exact h.of_same ahead hs rfl rfl rfl

/-! ## Data from the connection -/

inductive Heard (data : List UInt8) (b : Bridge σ) : Bridge σ → Prop
  | late : b.attached = false → Heard data b b.countViolation
  | ignored : b.attached = false → Heard data b b
  | queued {s : Stream} : b.attached = true → b.stream = some s → s.writes = true →
      Heard data b
        { b with
          stream := some { s with output := s.output ++ data }
          stats.bytesToStream := b.stats.bytesToStream + data.length.toUInt64 }
  | dropped {s : Stream} : b.attached = true → b.stream = some s → s.writes = false →
      Heard data b { b with stats.bytesDropped := b.stats.bytesDropped + data.length.toUInt64 }

theorem Keeps.heard {data : List UInt8} (h : b.Keeps written accepted) (heard : Heard data b c) :
    Progress written (accepted ++ b.acceptedBy (.connection (.read data))) b c := by
  cases heard with
  | late ha =>
    rw [acceptedBy_detached ha, List.append_nil]
    exact .of_unchanged (h.of_frame rfl rfl rfl) rfl
  | ignored ha =>
    rw [acceptedBy_detached ha, List.append_nil]
    exact .of_unchanged h rfl
  | @queued s ha hs hw =>
    rw [acceptedBy_attached ha hs, hw, if_pos rfl]
    refine .of_unchanged ⟨?_, ?_, ?_⟩ rfl
    · rw [← h.queued_eq, queued_of_open hs, List.append_assoc]
      rfl
    · rintro t ⟨⟩ -
      exact hw
    · rintro - - t ⟨⟩
      exact hw
  | dropped ha hs hw =>
    rw [acceptedBy_attached ha hs, hw, if_neg (by decide), List.append_nil]
    exact .of_unchanged (h.of_frame rfl rfl rfl) rfl

theorem Heard.counts {data : List UInt8} (heard : Heard data b c) :
    c.stats.bytesToStream =
      b.stats.bytesToStream + (b.acceptedBy (.connection (.read data))).length.toUInt64 ∧
    (b.acceptedBy (.connection (.read data)) = b.receivedBy (.connection (.read data)) →
      c.stats.bytesDropped = b.stats.bytesDropped) := by
  cases heard with
  | late ha | ignored ha =>
    rw [acceptedBy_detached ha]
    exact ⟨(UInt64.add_zero _).symm, fun _ => rfl⟩
  | queued ha hs hw =>
    rw [acceptedBy_attached ha hs, hw, if_pos rfl]
    exact ⟨rfl, fun _ => rfl⟩
  | dropped ha hs hw =>
    rw [acceptedBy_attached ha hs, hw, if_neg (by decide), receivedBy, ha, if_pos rfl]
    refine ⟨(UInt64.add_zero _).symm, fun hnone => ?_⟩
    obtain rfl : [] = data := hnone
    exact UInt64.add_zero _

/-! ## Deeds -/

variable [Sender σ]

theorem Deed.keeps (d : Deed event b c) (ht : b.Sound) (hl : event.losesOutput = false)
    (hr : ∀ data, event ≠ .connection (.read data)) (h : b.Keeps written accepted) :
    c.Keeps written accepted := by
  have ahead := d.ahead ht
  cases d with
  | send _ hs _ => exact h.of_same ahead hs rfl rfl rfl
  | tell _ hs _ => exact h.of_same ahead hs hs rfl rfl
  | @suspend ha _ =>
    obtain ⟨s, hs⟩ := ht.stream_of_attached ha
    exact h.of_same ahead hs hs rfl rfl
  | announce ha _ =>
    obtain ⟨s, hs⟩ := ht.stream_of_attached ha
    exact h.of_same ahead hs (by rw [connected_eq]; exact hs) rfl rfl
  | receive _ he => exact absurd he (hr _)
  | endOutput _ hsus hs ho => exact h.of_drained ((queued_of_open hs).trans ho) ho (.inr hsus)
  | adjust hs adjusts => exact adjusts.keeps rfl hl h hs
  | closeConnection _ hs => exact h.of_same ahead hs ((closeConnection_stream b).trans hs) rfl rfl
  | closeStream ha hs hi ho he =>
    rw [closeStream_conclude ha hs hi ho he]
    exact h.of_drained ((queued_of_open hs).trans ho) rfl (.inl ha)

theorem Deed.awaits_drain (d : Deed event b c) :
    ∃ made, c.calls = made ++ b.calls ∧ ∀ call ∈ made, call.awaitsDrain = true → b.queued = [] := by
  cases d with
  | send => exact ⟨[_], rfl, by simp [Call.awaitsDrain]⟩
  | @tell s call _ hs tells =>
    refine ⟨[call], rfl, ?_⟩
    rw [List.forall_mem_singleton]
    intro hc
    cases tells with
    | acknowledge ho => exact (queued_of_open hs).trans ho
    | endSending => cases hc
    | endReceiving => cases hc
  | suspend => exact ⟨[], rfl, by simp⟩
  | announce =>
    rw [connected_eq]
    exact ⟨b.announces, rfl,
      fun call hc hw => absurd hw (Call.not_awaitsDrain_of_toPeer (b.announces_toPeer call hc))⟩
  | receive =>
    refine ⟨[], ?_, by simp⟩
    unfold queueOutput
    repeat' split
    all_goals rfl
  | endOutput _ _ hs ho => exact ⟨[_], rfl, fun _ _ _ => (queued_of_open hs).trans ho⟩
  | adjust => exact ⟨[], rfl, by simp⟩
  | closeConnection ha hs =>
    refine ⟨b.closing, closeConnection_calls ha, ?_⟩
    intro call hc hw
    rcases closing_cases hc with hc | rfl
    · exact absurd hw (Call.not_awaitsDrain_of_toPeer hc)
    · cases hw
  | closeStream ha hs hi ho he =>
    rw [closeStream_conclude ha hs hi ho he]
    exact ⟨[_], rfl, fun _ _ _ => (queued_of_open hs).trans ho⟩

/-! ## One move -/

theorem Keeps.react (h : b.Keeps written accepted) (ht : b.Tidy) (hl : event.losesOutput = false)
    (hr : ∀ data, event ≠ .connection (.read data)) : Progress written accepted b (b.react event).1 := by
  refine ht.react_preserves event ?_ ?_ (.of_unchanged h rfl)
  · intro c c' hc d progress
    exact progress.tail (d.keeps hc.toSound hl hr progress.keeps) d.awaits_drain
  · intro progress
    exact .of_unchanged (h.of_frame rfl rfl rfl) rfl

theorem read_heard (h : b.Sound) (data : List UInt8) : Heard data b (b.onConnection (.read data)).1 := by
  cases ha : b.attached with
  | false =>
    cases hf : b.finished with
    | true =>
      rw [show b.onConnection (.read data) = _ from react_late hf (.connection (.read data))]
      exact .late ha
    | false =>
      rw [onConnection_detached h hf ha]
      exact .ignored ha
  | true =>
    obtain ⟨s, hs⟩ := h.stream_of_attached ha
    rw [onConnection_read (h.finished_of_open hs) ha]
    cases hw : s.writes with
    | true =>
      rw [queueOutput_of_writes data hs hw]
      exact .queued ha hs hw
    | false =>
      rw [queueOutput_of_not_writes data hs hw]
      exact .dropped ha hs hw

theorem Keeps.acted {act : Act} (h : b.Keeps written accepted) (acted : Acted act b c) (ht : b.Tidy)
    (hspare : act.sparesOutput = true) : Progress (written ++ b.writtenBy (.stream act)) accepted b c := by
  cases acted with
  | impossible hno =>
    have nothing : b.writtenBy (.stream act) = [] := by
      cases hs : b.stream with
      | none => simp [writtenBy, hs]
      | some s =>
        rw [hs, Option.bind_some] at hno
        simp [writtenBy, hs, Act.written_of_impossible hno]
    rw [nothing, List.append_nil]
    exact .of_unchanged h rfl
  | @silent s s' hs hon =>
    have taken : b.writtenBy (.stream act) = act.written s := by simp [writtenBy, hs]
    rw [taken]
    exact .of_unchanged (h.act hs hspare hon) rfl
  | @reported s s' event hs hon =>
    have taken : b.writtenBy (.stream act) = act.written s := by simp [writtenBy, hs]
    have progress := (h.act hs hspare hon).react (ht.keep hs s') (Act.report_of_sparing hspare hon) (by simp)
    rw [taken]
    exact ⟨progress.keeps, progress.calls⟩

theorem Keeps.move {m : Move} (h : b.Keeps written accepted) (ht : b.Tidy) (hspare : m.sparesOutput = true) :
    Progress (written ++ b.writtenBy m) (accepted ++ b.acceptedBy m) b (b.move m) := by
  cases m with
  | connection event =>
    simp only [writtenBy, List.append_nil]
    by_cases hr : ∃ data, event = .read data
    · obtain ⟨data, rfl⟩ := hr
      exact h.heard (read_heard ht.toSound data)
    · have progress := h.react ht rfl (ne_read hr)
      rw [acceptedBy_not_read hr, List.append_nil]
      exact progress
  | stream act =>
    simp only [acceptedBy, List.append_nil]
    exact h.acted (move_acted b act) ht hspare
  | hold peer =>
    simp only [writtenBy, acceptedBy, List.append_nil]
    rw [Bridge.move, Bridge.holdPeer, releasePeer_eq]
    refine ⟨h.of_frame rfl rfl rfl, b.releases, rfl, ?_⟩
    intro call hc hw
    exact absurd hw (Call.not_awaitsDrain_of_toPeer (b.releases_toPeer call hc))

/-! ## Counts and ends -/

theorem Deed.suspended_eq (d : Deed event b c) (hl : event.losesOutput = false)
    (he : event ≠ .connection .eof) : c.suspended = b.suspended := by
  cases d with
  | send | tell | endOutput | adjust => rfl
  | suspend _ why =>
    rcases why with rfl | lost
    · exact absurd rfl he
    · rw [hl] at lost
      cases lost
  | announce => rw [connected_eq]
  | receive =>
    unfold queueOutput
    repeat' split
    all_goals rfl
  | closeConnection ha => rw [closeConnection_eq ha]
  | closeStream ha hs hi ho he => rw [closeStream_conclude ha hs hi ho he]

theorem Deed.counts_eq (d : Deed event b c) (hr : ∀ data, event ≠ .connection (.read data)) :
    c.stats.bytesToStream = b.stats.bytesToStream ∧ c.stats.bytesDropped = b.stats.bytesDropped := by
  cases d with
  | send | tell | suspend | endOutput | adjust => exact ⟨rfl, rfl⟩
  | announce =>
    rw [connected_eq]
    exact ⟨rfl, rfl⟩
  | receive _ he => exact absurd he (hr _)
  | closeConnection ha =>
    rw [closeConnection_eq ha]
    exact ⟨rfl, rfl⟩
  | @closeStream s ha hs hi ho he =>
    rw [closeStream_conclude ha hs hi ho he]
    by_cases hne : s.enabled = .none
    · simp [hne]
    · simp [hne, countViolation]

theorem react_suspended (ht : b.Tidy) (hl : event.losesOutput = false) (he : event ≠ .connection .eof) :
    (b.react event).1.suspended = b.suspended :=
  ht.react_preserves (P := fun c => c.suspended = b.suspended) event
    (fun _ d same => (d.suspended_eq hl he).trans same) id rfl

theorem react_counts (ht : b.Tidy) (hr : ∀ data, event ≠ .connection (.read data)) :
    (b.react event).1.stats.bytesToStream = b.stats.bytesToStream ∧
      (b.react event).1.stats.bytesDropped = b.stats.bytesDropped :=
  ht.react_preserves
    (P := fun c => c.stats.bytesToStream = b.stats.bytesToStream ∧ c.stats.bytesDropped = b.stats.bytesDropped) event
    (fun _ d same => ⟨(d.counts_eq hr).1.trans same.1, (d.counts_eq hr).2.trans same.2⟩) id ⟨rfl, rfl⟩

theorem Acted.suspended_eq {act : Act} (acted : Acted act b c) (ht : b.Tidy)
    (hspare : act.sparesOutput = true) : c.suspended = b.suspended := by
  cases acted with
  | impossible | silent => rfl
  | reported hs hon => exact react_suspended (ht.keep hs _) (Act.report_of_sparing hspare hon) (by simp)

theorem Acted.counts_eq {act : Act} (acted : Acted act b c) (ht : b.Tidy) :
    c.stats.bytesToStream = b.stats.bytesToStream ∧ c.stats.bytesDropped = b.stats.bytesDropped := by
  cases acted with
  | impossible | silent => exact ⟨rfl, rfl⟩
  | reported hs hon => exact react_counts (ht.keep hs _) (by simp)

theorem move_suspended {m : Move} (ht : b.Tidy) (hspare : m.sparesOutput = true)
    (hm : m ≠ .connection .eof) : (b.move m).suspended = b.suspended := by
  cases m with
  | connection event =>
    have not_eof : Event.connection event ≠ .connection .eof := by
      rintro ⟨⟩
      exact hm rfl
    exact react_suspended ht rfl not_eof
  | stream act => exact (move_acted b act).suspended_eq ht hspare
  | hold peer => rw [move, holdPeer, releasePeer_eq]

theorem move_counts (ht : b.Tidy) (m : Move) :
    (b.move m).stats.bytesToStream = b.stats.bytesToStream + (b.acceptedBy m).length.toUInt64 ∧
    (b.acceptedBy m = b.receivedBy m → (b.move m).stats.bytesDropped = b.stats.bytesDropped) := by
  cases m with
  | connection event =>
    by_cases hr : ∃ data, event = .read data
    · obtain ⟨data, rfl⟩ := hr
      exact (read_heard ht.toSound data).counts
    · have same := react_counts ht (ne_read hr)
      rw [acceptedBy_not_read hr]
      exact ⟨same.1.trans (UInt64.add_zero _).symm, fun _ => same.2⟩
  | stream act =>
    have same := (move_acted b act).counts_eq ht
    exact ⟨same.1.trans (UInt64.add_zero _).symm, fun _ => same.2⟩
  | hold peer =>
    rw [move, holdPeer, releasePeer_eq]
    exact ⟨(UInt64.add_zero _).symm, fun _ => rfl⟩

/-! ## Runs -/

section Runs

variable (sender : σ) (config : Config) (moves : List Move)

theorem keeps_play (hspare : ∀ m ∈ moves, m.sparesOutput = true) :
    let start := new sender {} config
    (start.play moves).Keeps (start.written moves) (start.accepted moves) := by
  intro start
  induction moves using List.reverseRecOn with
  | nil => exact keeps_new sender config
  | append_singleton moves m ih =>
    rw [play_snoc, written_snoc, accepted_snoc]
    have kept := ih fun m hm => hspare m (List.mem_append_left _ hm)
    exact (kept.move ((tidy_new sender {} config).play moves) (hspare m (by simp))).keeps

theorem ended_of_suspended (hspare : ∀ m ∈ moves, m.sparesOutput = true)
    (hsus : ((new sender {} config).play moves).suspended = true) : .connection .eof ∈ moves := by
  induction moves using List.reverseRecOn with
  | nil => cases hsus
  | append_singleton moves m ih =>
    by_cases hm : m = .connection .eof
    · simp [hm]
    · rw [play_snoc, move_suspended ((tidy_new sender {} config).play moves) (hspare m (by simp)) hm] at hsus
      exact List.mem_append_left _ (ih (fun m hm => hspare m (List.mem_append_left _ hm)) hsus)

theorem counted_play :
    let start := new sender {} config
    (start.play moves).stats.bytesToStream = (start.accepted moves).length.toUInt64 := by
  intro start
  induction moves using List.reverseRecOn with
  | nil => rfl
  | append_singleton moves m ih =>
    have counts := move_counts ((tidy_new sender {} config).play moves) m
    rw [play_snoc, counts.1, ih, accepted_snoc, List.length_append]
    exact (UInt64.ofNat_add _ _).symm

theorem undropped_play (hspare : ∀ m ∈ moves, m.sparesOutput = true) (hquiet : QuietAfterEnd moves) :
    let start := new sender {} config
    (start.play moves).stats.bytesDropped = 0 ∧ start.accepted moves = start.received moves := by
  intro start
  induction moves using List.reverseRecOn with
  | nil => exact ⟨rfl, rfl⟩
  | append_singleton moves m ih =>
    have spared : ∀ m ∈ moves, m.sparesOutput = true := fun m hm => hspare m (List.mem_append_left _ hm)
    obtain ⟨hdropped, hall⟩ := ih spared hquiet.init
    have tidy : (start.play moves).Tidy := (tidy_new sender {} config).play moves
    have same : (start.play moves).acceptedBy m = (start.play moves).receivedBy m := by
      refine (keeps_play sender config moves spared).accepts_all tidy.toSound m ?_
      rintro data rfl
      rw [← Bool.not_eq_true]
      exact fun hsus => hquiet.not_ended (ended_of_suspended sender config moves spared hsus)
    rw [play_snoc, (move_counts tidy m).2 same, accepted_snoc, received_snoc, same, hall]
    exact ⟨hdropped, rfl⟩

end Runs

/-- In every run over a behaving stream that neither fails nor ends its writing. -/
theorem delivered_in_full (sender : σ) (config : Config) (moves : List Move)
    (hspare : ∀ m ∈ moves, m.sparesOutput = true) :
    let start := new sender {} config
    let b := start.play moves
    start.written moves ++ b.queued = start.accepted moves ∧
    (∀ m, m.sparesOutput = true → ∃ made, (b.move m).calls = made ++ b.calls ∧
      ∀ call ∈ made, call.awaitsDrain = true →
        start.written (moves ++ [m]) = start.accepted (moves ++ [m])) ∧
    b.stats.bytesToStream = (start.accepted moves).length.toUInt64 ∧
    (QuietAfterEnd moves → b.stats.bytesDropped = 0 ∧ start.accepted moves = start.received moves) := by
  intro start b
  have kept : b.Keeps (start.written moves) (start.accepted moves) := keeps_play sender config moves hspare
  have tidy : b.Tidy := (tidy_new sender {} config).play moves
  refine ⟨kept.queued_eq, fun m hm => ?_, counted_play sender config moves,
    undropped_play sender config moves hspare⟩
  rw [written_snoc, accepted_snoc]
  exact (kept.move tidy hm).calls

/-- Data in two reads, written in two takes; the second lets the end of the connection through. -/
theorem delivered_in_full_two_takes :
    let moves : List Move := [.connection (.read [1, 2]), .connection (.read [3]), .stream (.take 2),
      .connection .eof]
    let start := new Unlimited.mk {} {}
    let b := start.play moves
    (∀ m ∈ moves, m.sparesOutput = true) ∧ start.written moves = [1, 2] ∧
      start.written moves ++ b.queued = [1, 2, 3] ∧ b.stats.bytesDropped = 0 ∧
      (b.move (.stream (.take 9))).calls = [.shutdownStream, .readDrained] ++ b.calls ∧
      start.written (moves ++ [.stream (.take 9)]) = start.accepted (moves ++ [.stream (.take 9)]) := by
  intro moves start b
  have spared : ∀ m ∈ moves, m.sparesOutput = true := by decide
  have quiet : QuietAfterEnd moves := by decide
  obtain ⟨queued, calls, -, lossless⟩ := delivered_in_full Unlimited.mk {} moves spared
  obtain ⟨made, hmade, drained⟩ := calls (.stream (.take 9)) rfl
  have two : (b.move (.stream (.take 9))).calls = [.shutdownStream, .readDrained] ++ b.calls := by decide
  have hmem : .readDrained ∈ made := by
    rw [List.append_cancel_right (hmade.symm.trans two)]
    decide
  exact ⟨spared, by decide, queued, (lossless quiet).1, two, drained .readDrained hmem rfl⟩

end Bridge

end Splice
