import Splice.Proofs.Bridge.Behaving

/-!
# What a bridge waits for

Between events a bridge over a behaving stream is attached and waiting, or winding its stream down with
output still to be written, or finished. Once the connection has ended, waiting means that the stream still
gives input, that input is still to be sent or that output is still to be written: no bridge is left parked.
-/

namespace Splice

namespace Stream

@[simp] theorem reads_disable_onlyWrite (s : Stream) : (s.disable .onlyWrite).reads = s.reads := by
  simp [disable, Directions.onlyWrite]

@[simp] theorem writes_disable_onlyRead (s : Stream) : (s.disable .onlyRead).writes = s.writes := by
  simp [disable, Directions.onlyRead]

theorem reads_disable_onlyRead {s : Stream} (h : s.sticky = .none) : (s.disable .onlyRead).reads = false := by
  simp [disable_of_sound s _ h, withdraw, Directions.onlyRead]

theorem writes_disable_onlyWrite {s : Stream} (h : s.sticky = .none) :
    (s.disable .onlyWrite).writes = false := by
  simp [disable_of_sound s _ h, withdraw, Directions.onlyWrite]

theorem enabled_disable_onlyRead {s : Stream} (h : s.sticky = .none) (hw : s.writes = true) :
    (s.disable .onlyRead).enabled = .onlyWrite := by
  rcases s with ⟨⟨r, w⟩, _, _, _⟩
  simp only [writes_eq] at hw
  subst h hw
  cases r <;> rfl

theorem withdraw_none (s : Stream) : s.withdraw .none = s := by
  rcases s with ⟨⟨_ | _, _ | _⟩, _, _, _⟩ <;> rfl

theorem reads_withdraw (s : Stream) (d : Directions) : (s.withdraw d).reads = (s.reads && !d.read) := by
  simp [withdraw]

theorem writes_withdraw (s : Stream) (d : Directions) : (s.withdraw d).writes = (s.writes && !d.write) := by
  simp [withdraw]

end Stream

namespace Bridge

variable {σ : Type} {ended ended' noMore noMore' : Prop} {b c : Bridge σ} {s s' : Stream}

/-- The stream has reported that it gives no more input. -/
def InputOver (reports : List StreamEvent) : Prop := ∃ e ∈ reports, (Event.stream e).endsInput = true

theorem not_inputOver_nil : ¬ InputOver [] := by simp [InputOver]

theorem inputOver_singleton (e : StreamEvent) : InputOver [e] ↔ (Event.stream e).endsInput = true := by
  simp [InputOver]

theorem inputOver_append (reports reports' : List StreamEvent) :
    InputOver (reports ++ reports') ↔ InputOver reports ∨ InputOver reports' := by
  simp [InputOver, or_and_right, exists_or]

/-! ## Between events -/

/-- The bridge and its stream know what has happened: `ended` says that the connection has ended, `noMore`
that the stream has ended its input. -/
structure Knows (ended noMore : Prop) (b : Bridge σ) (s : Stream) : Prop where
  sound : s.sticky = .none
  suspended_of_ended : ended → b.suspended = true
  not_reads_of_over : noMore → s.reads = false

/-- What holds of an attached bridge whenever its input is offered. -/
structure Flows (ended noMore : Prop) (b : Bridge σ) (s : Stream) : Prop extends Knows ended noMore b s where
  writes_of_queued : s.output ≠ [] → s.writes = true
  not_writes_of_ended : ended → s.output = [] → s.writes = false

/-- What an attached bridge waits for; it has ended its sending if it could. -/
structure Waits (ended noMore : Prop) (b : Bridge σ) (s : Stream) : Prop extends Flows ended noMore b s where
  busy : ended → s.reads = true ∨ s.input ≠ [] ∨ s.output ≠ []
  told : noMore → s.input = [] → .shutdown .transmit ∈ b.calls

inductive Rests (ended noMore : Prop) (b : Bridge σ) : Prop
  | waiting {s : Stream} : b.attached = true → b.stream = some s → Waits ended noMore b s → Rests ended noMore b
  | winding {s : Stream} : b.attached = false → b.stream = some s → s.sticky = .none →
      s.enabled = .onlyWrite → s.input = [] → s.output ≠ [] → Rests ended noMore b
  | finished : b.finished = true → Rests ended noMore b

theorem Knows.of_le (h : Knows ended noMore b s) (hsus : c.suspended = b.suspended) (he : ended' → ended)
    (ho : noMore' → noMore) : Knows ended' noMore' c s :=
  ⟨h.sound, fun hended => hsus.trans (h.suspended_of_ended (he hended)), fun hover => h.not_reads_of_over (ho hover)⟩

theorem Flows.of_le (h : Flows ended noMore b s) (hsus : c.suspended = b.suspended) (he : ended' → ended)
    (ho : noMore' → noMore) : Flows ended' noMore' c s :=
  ⟨h.toKnows.of_le hsus he ho, h.writes_of_queued, fun hended => h.not_writes_of_ended (he hended)⟩

theorem Waits.of_le (h : Waits ended noMore b s) (hsus : c.suspended = b.suspended)
    (hcalls : b.calls ⊆ c.calls) (he : ended' → ended) (ho : noMore' → noMore) : Waits ended' noMore' c s :=
  ⟨h.toFlows.of_le hsus he ho, fun hended => h.busy (he hended), fun hover hi => hcalls (h.told (ho hover) hi)⟩

theorem Rests.of_le (h : b.Rests ended noMore) (he : ended' → ended) (ho : noMore' → noMore) :
    b.Rests ended' noMore' := by
  cases h with
  | waiting ha hs w => exact .waiting ha hs (w.of_le rfl (List.Subset.refl _) he ho)
  | winding ha hs hsound henabled hi hout => exact .winding ha hs hsound henabled hi hout
  | finished hf => exact .finished hf

theorem rests_new (sender : σ) (config : Config) : (new sender {} config).Rests False False := by
  refine .waiting rfl rfl ⟨⟨⟨rfl, False.elim, False.elim⟩, ?_, False.elim⟩, False.elim, False.elim⟩
  intro h
  exact absurd rfl h

theorem Rests.holdPeer (h : b.Rests ended noMore) (peer : PeerId) : (b.holdPeer peer).Rests ended noMore := by
  rw [Bridge.holdPeer, releasePeer_eq]
  cases h with
  | waiting ha hs w => exact .waiting ha hs (w.of_le rfl (List.subset_append_right _ _) id id)
  | winding ha hs hsound henabled hi ho => exact .winding ha hs hsound henabled hi ho
  | finished hf => exact .finished hf

theorem Rests.busy (h : b.Rests ended noMore) (hended : ended) :
    b.finished = true ∨
      ∃ s, b.stream = some s ∧ (s.reads = true ∨ s.input ≠ [] ∨ s.output ≠ [] ∧ s.writes = true) := by
  cases h with
  | @waiting s ha hs w =>
    refine .inr ⟨s, hs, (w.busy hended).imp_right (Or.imp_right fun ho => ⟨ho, w.writes_of_queued ho⟩)⟩
  | @winding s ha hs hsound henabled hi ho =>
    refine .inr ⟨s, hs, .inr (.inr ⟨ho, ?_⟩)⟩
    rw [Stream.writes_eq, henabled]
    rfl
  | finished hf => exact .inl hf

/-! ## Closing -/

theorem closeStream_rests (ha : b.attached = false) (hs : b.stream = some s) (hi : s.input = [])
    (ho : s.output = []) (he : s.enabled ⊆ s.sticky) : b.closeStream.conclude.1.Rests ended noMore := by
  refine .finished ?_
  rw [closeStream_conclude ha hs hi ho he]

theorem windDownStream_rests (ha : b.attached = false) (hs : b.stream = some s) (hsound : s.sticky = .none)
    (hw : s.output ≠ [] → s.writes = true) : b.windDownStream.1.Rests ended noMore := by
  unfold windDownStream
  rw [hs]
  dsimp only
  split
  · next h =>
    exact closeStream_rests ha rfl rfl (List.isEmpty_iff.mp h) (Directions.sdiff_sdiff_subset ..)
  · next h =>
    have ho : s.output ≠ [] := by simpa [Stream.disable] using h
    rw [conclude_of_open (keep_stream ..)]
    exact .winding ha rfl hsound (Stream.enabled_disable_onlyRead hsound (hw ho)) rfl ho

theorem discardStream_rests (ha : b.attached = false) (hs : b.stream = some s) :
    b.discardStream.conclude.1.Rests ended noMore := by
  unfold discardStream
  rw [hs]
  exact closeStream_rests ha rfl rfl rfl (Directions.sdiff_both_sdiff_subset ..)

theorem abandon_rests (hs : b.stream = some s) : b.abandon.1.Rests ended noMore := by
  unfold abandon
  split
  · exact discardStream_rests (closeConnection_attached b) (by simpa using hs)
  · next ha => exact discardStream_rests (by simpa using ha) hs

/-! ## Forwarding -/

theorem afterSending_rests (ha : b.attached = true) (hs : b.stream = some s) (h : Flows ended noMore b s) :
    (b.afterSending s).1.Rests ended noMore := by
  unfold afterSending
  split
  · next hmore =>
    simp only [Bool.or_eq_true, Bool.not_eq_true', List.isEmpty_eq_false_iff] at hmore
    refine .waiting ha hs ⟨h, fun _ => ?_, fun hover hi => ?_⟩
    · rcases hmore with hr | hi
      · exact .inl hr
      · exact .inr (.inl hi)
    · rw [h.not_reads_of_over hover, hi] at hmore
      simp at hmore
  next hdone =>
  simp only [Bool.or_eq_true, Bool.not_eq_true', not_or, Bool.not_eq_true, Bool.not_eq_false,
    List.isEmpty_iff] at hdone
  obtain ⟨hr, hi⟩ := hdone
  split
  · next hw =>
    refine .waiting ha hs ⟨h.of_le rfl id id, fun hended => ?_, fun _ _ => List.mem_cons_self⟩
    -- The connection has ended and the stream is still written, so some output is left.
    refine .inr (.inr fun ho => ?_)
    rw [h.not_writes_of_ended hended ho] at hw
    cases hw
  next hw =>
  have he : s.enabled = .none :=
    (Directions.eq_none_iff _).mpr ⟨by simpa using hr, by simpa using hw⟩
  split
  · next ho =>
    exact closeStream_rests (closeConnection_attached b) (by simpa using hs) hi (List.isEmpty_iff.mp ho)
      (he ▸ Directions.none_subset _)
  · exact discardStream_rests (closeConnection_attached b) (by simpa using hs)

theorem queueOutput_rests (ha : b.attached = true) (hs : b.stream = some s) (h : Waits ended noMore b s)
    (data : List UInt8) : (b.queueOutput data).1.Rests ended noMore := by
  cases hw : s.writes with
  | false =>
    rw [queueOutput_of_not_writes data hs hw]
    exact .waiting ha hs (h.of_le rfl (List.Subset.refl _) id id)
  | true =>
    rw [queueOutput_of_writes data hs hw]
    refine .waiting ha rfl
      ⟨⟨⟨h.sound, h.suspended_of_ended, h.not_reads_of_over⟩, fun _ => hw, fun hended ho => ?_⟩,
        fun hended => ?_, h.told⟩
    · rw [h.not_writes_of_ended hended (List.append_eq_nil_iff.mp ho).1] at hw
      cases hw
    · rcases h.busy hended with hr | hi | ho
      · exact .inl hr
      · exact .inr (.inl hi)
      · exact .inr (.inr fun hnil => ho (List.append_eq_nil_iff.mp hnil).1)

variable [Sender σ]

theorem sendPending_rests (ha : b.attached = true) (hs : b.stream = some s) (h : Flows ended noMore b s) :
    b.sendPending.1.Rests ended noMore := by
  rw [sendPending_of_attached ha hs]
  dsimp only
  split
  · exact windDownStream_rests (closeConnection_attached _) (closeConnection_stream _) h.sound
      h.writes_of_queued
  · exact afterSending_rests ha rfl
      ⟨⟨h.sound, h.suspended_of_ended, h.not_reads_of_over⟩, h.writes_of_queued, h.not_writes_of_ended⟩

theorem endOutput_rests (ha : b.attached = true) (hs : b.stream = some s) (h : Knows ended noMore b s)
    (hsus : b.suspended = true) (ho : s.output = []) : b.endOutput.1.Rests ended noMore := by
  have goes_on : ∀ {c : Bridge σ} {s' : Stream}, c.attached = true → c.stream = some s' →
      c.suspended = true → s'.sticky = .none → s'.output = [] → s'.writes = false → s'.reads = s.reads →
      (if s.reads then (c, .active) else c.sendPending : Bridge σ × Status).1.Rests ended noMore := by
    intro c s' ha hs hsus hsound ho hw hreads
    have flows : Flows ended noMore c s' :=
      ⟨⟨hsound, fun _ => hsus, hreads ▸ h.not_reads_of_over⟩, fun hne => absurd ho hne, fun _ _ => hw⟩
    split
    · next hr =>
      refine .waiting ha hs ⟨flows, fun _ => .inl (hreads.trans hr), fun hover _ => ?_⟩
      rw [h.not_reads_of_over hover] at hr
      cases hr
    · exact sendPending_rests ha hs flows
  rw [endOutput, hs]
  dsimp only
  cases hw : s.writes with
  | false => exact goes_on ha hs hsus h.sound ho hw rfl
  | true =>
    exact goes_on ha rfl hsus h.sound ho (Stream.writes_disable_onlyWrite h.sound)
      (Stream.reads_disable_onlyWrite s)

theorem outputDrained_rests (ha : b.attached = true) (hs : b.stream = some s) (h : Knows ended noMore b s)
    (hw : s.writes = true) (ho : s.output = [])
    (told : noMore → s.input = [] → .shutdown .transmit ∈ b.calls) : b.outputDrained.1.Rests ended noMore := by
  unfold outputDrained
  rw [hs]
  dsimp only
  rw [if_neg (by simp [ho]), if_neg (by simp [ha])]
  split
  · next hsus =>
    exact endOutput_rests ha hs (h.of_le rfl id id) (Bool.and_eq_true_iff.mp hsus).1 ho
  next hflowing =>
  rw [hw, Bool.and_true] at hflowing
  have hended : ¬ ended := fun hended => hflowing (h.suspended_of_ended hended)
  exact .waiting ha hs ⟨⟨h.of_le rfl id id, fun _ => hw, fun he => absurd he hended⟩, fun he => absurd he hended,
    fun hover hi => List.mem_cons_of_mem _ (told hover hi)⟩

/-! ## Events of the connection -/

theorem writable_rests (ha : b.attached = true) (hs : b.stream = some s) (h : Flows ended noMore b s) :
    b.writable.1.Rests ended noMore := by
  rw [writable, hs]
  exact sendPending_rests ha hs h

theorem connectionEnded_rests (ha : b.attached = true) (hs : b.stream = some s) (h : Waits ended noMore b s) :
    b.connectionEnded.1.Rests ended' noMore := by
  have knows : Knows ended' noMore { b with suspended := true } s := ⟨h.sound, fun _ => rfl, h.not_reads_of_over⟩
  dsimp only [connectionEnded]
  split
  · next hnone => cases hs.symm.trans hnone
  next s' hs' =>
  obtain rfl : s = s' := Option.some.inj (hs.symm.trans hs')
  split
  · next ho => exact endOutput_rests ha hs knows rfl (List.isEmpty_iff.mp ho)
  next ho =>
  have ho : s.output ≠ [] := by simpa using ho
  exact .waiting ha hs ⟨⟨knows, h.writes_of_queued, fun _ hnil => absurd hnil ho⟩, fun _ => .inr (.inr ho), h.told⟩

theorem Rests.connection (h : b.Rests ended noMore) (ht : b.Tidy) (e : ConnectionEvent) :
    (b.onConnection e).1.Rests (ended ∨ e = .eof) noMore := by
  cases h with
  | finished hf =>
    rw [show b.onConnection e = _ from react_late hf (.connection e)]
    exact .finished hf
  | winding ha hs hsound he hi ho =>
    rw [onConnection_detached ht.toSound (ht.finished_of_open hs) ha]
    exact .winding ha hs hsound he hi ho
  | @waiting s ha hs w =>
    have hf : b.finished = false := ht.finished_of_open hs
    unfold onConnection
    rw [if_neg (by simp [hf]), if_neg (by simp [ha])]
    cases e with
    | connected =>
      refine writable_rests (s := s) ?_ ?_ (w.toFlows.of_le ?_ (by simp) id)
      · rw [connected_eq]
        exact ha
      · rw [connected_eq]
        exact hs
      · rw [connected_eq]
    | writable => exact writable_rests ha hs (w.toFlows.of_le rfl (by simp) id)
    | read data => exact queueOutput_rests ha hs (w.of_le rfl (List.Subset.refl _) (by simp) id) data
    | eof => exact connectionEnded_rests ha hs w
    | error =>
      exact windDownStream_rests (closeConnection_attached b) (by simpa using hs) w.sound w.writes_of_queued
    | destroying => exact .waiting ha hs (w.of_le rfl (List.Subset.refl _) (by simp) id)

/-! ## Events of the stream -/

theorem streamFailed_rests (ha : b.attached = true) (h : Waits ended noMore b s) (d : Directions) :
    ((b.keep (s.withdraw d)).streamFailed d).1.Rests ended noMore := by
  have reads : noMore → (s.withdraw d).reads = false := by
    intro hover
    rw [Stream.reads_withdraw, h.not_reads_of_over hover, Bool.false_and]
  unfold streamFailed
  dsimp only [keep_stream]
  split
  swap
  · exact abandon_rests rfl
  -- What is left of the stream: its output is lost, or can still be written.
  obtain ⟨s', hs', knows, hi, hw⟩ :
      ∃ s', (if d.contains .onlyWrite then { (s.withdraw d).disable .onlyWrite with output := [] } else s.withdraw d)
          = s' ∧ Knows ended noMore b s' ∧ s'.input = s.input ∧ (s'.output ≠ [] → s'.writes = true) := by
    rw [Directions.contains_onlyWrite]
    cases hd : d.write with
    | true =>
      refine ⟨{ (s.withdraw d).disable .onlyWrite with output := [] }, if_pos rfl,
        ⟨h.sound, h.suspended_of_ended, fun hover => ?_⟩, rfl, fun hne => absurd rfl hne⟩
      exact (Stream.reads_disable_onlyWrite _).trans (reads hover)
    | false =>
      refine ⟨s.withdraw d, if_neg (by decide), ⟨h.sound, h.suspended_of_ended, reads⟩, rfl, fun hne => ?_⟩
      rw [Stream.writes_withdraw, hd, h.writes_of_queued hne]
      rfl
  rw [hs']
  split
  · next hsus =>
    exact endOutput_rests ha rfl ⟨knows.sound, fun _ => rfl, knows.not_reads_of_over⟩ rfl
      (List.isEmpty_iff.mp (Bool.and_eq_true_iff.mp hsus).2)
  next hrest =>
  have queued : ended → s'.output ≠ [] := by
    intro hended ho
    exact hrest (by simp [h.suspended_of_ended hended, ho])
  refine .waiting ha rfl ⟨⟨⟨knows.sound, fun _ => rfl, knows.not_reads_of_over⟩, hw, ?_⟩, ?_, ?_⟩
  · exact fun hended ho => absurd ho (queued hended)
  · exact fun hended => .inr (.inr (queued hended))
  · exact fun hover hi' => List.mem_cons_of_mem _ (h.told hover (hi.symm.trans hi'))

theorem inputEnded_rests (ha : b.attached = true) (hs : b.stream = some s) (h : Flows ended noMore b s) :
    b.inputEnded.1.Rests ended noMore' := by
  unfold inputEnded
  rw [hs]
  dsimp only
  have flows : Flows ended noMore' (b.keep (s.disable .onlyRead)) (s.disable .onlyRead) := by
    refine ⟨⟨h.sound, h.suspended_of_ended, fun _ => Stream.reads_disable_onlyRead h.sound⟩, ?_, ?_⟩
    · rw [Stream.writes_disable_onlyRead]
      exact h.writes_of_queued
    · rw [Stream.writes_disable_onlyRead]
      exact h.not_writes_of_ended
  split
  · exact sendPending_rests ha rfl flows
  · rw [keep_attached, if_pos ha]
    exact windDownStream_rests (closeConnection_attached _) (closeConnection_stream _) flows.sound
      flows.writes_of_queued

theorem streamEnded_of_not_write {d : Directions} (hw : d.write = false) :
    b.streamEnded d = if d.read then b.inputEnded else (b, .active) := by
  simp only [streamEnded, Directions.contains_onlyWrite, Directions.contains_onlyRead, hw, Bool.not_false, if_true]

theorem streamEnded_of_not_reads {d : Directions} (hs : b.stream = some s) (hw : d.write = true)
    (hr : s.reads = false) : b.streamEnded d = (b.keep (s.disable .onlyWrite)).abandon := by
  simp only [streamEnded, Directions.contains_onlyWrite, hw, Bool.not_true, Bool.false_eq_true, if_false, hs,
    Stream.reads_disable_onlyWrite, hr, Bool.not_false, if_true]

theorem streamEnded_of_reads {d : Directions} (ha : b.attached = true) (hs : b.stream = some s)
    (hw : d.write = true) (hd : d.read = false) (hr : s.reads = true) :
    b.streamEnded d =
      ({ b.keep { s.disable .onlyWrite with output := [] } with suspended := true }.record (.shutdown .receive),
        .active) := by
  simp only [streamEnded, Directions.contains_onlyWrite, Directions.contains_onlyRead, hw, hd, Bool.not_true,
    Bool.false_eq_true, if_false, hs, Stream.reads_disable_onlyWrite, hr, keep_attached, ha, if_true]

theorem streamEnded_rests (ha : b.attached = true) (h : Waits ended noMore b s)
    (d : Directions) : ((b.keep (s.withdraw d)).streamEnded d).1.Rests ended (noMore ∨ d.read = true) := by
  have over_reads : noMore ∨ d.read = true → (s.withdraw d).reads = false := by
    rw [Stream.reads_withdraw]
    rintro (hover | hd)
    · rw [h.not_reads_of_over hover, Bool.false_and]
    · rw [hd, Bool.not_true, Bool.and_false]
  have knows : Knows ended (noMore ∨ d.read = true) (b.keep (s.withdraw d)) (s.withdraw d) :=
    ⟨h.sound, h.suspended_of_ended, over_reads⟩
  cases hw : d.write with
  | false =>
    have writes : (s.withdraw d).writes = s.writes := by
      rw [Stream.writes_withdraw, hw, Bool.not_false, Bool.and_true]
    have flows : Flows ended (noMore ∨ d.read = true) (b.keep (s.withdraw d)) (s.withdraw d) :=
      ⟨knows, writes ▸ h.writes_of_queued, writes ▸ h.not_writes_of_ended⟩
    rw [streamEnded_of_not_write hw]
    split
    · exact inputEnded_rests ha rfl flows
    next hr =>
    have reads : (s.withdraw d).reads = s.reads := by
      rw [Stream.reads_withdraw, Bool.eq_false_iff.mpr hr, Bool.not_false, Bool.and_true]
    exact .waiting ha rfl ⟨flows, reads ▸ h.busy, fun hover => h.told (hover.resolve_right hr)⟩
  | true =>
    cases hr : (s.withdraw d).reads with
    | false =>
      rw [streamEnded_of_not_reads rfl hw hr]
      exact abandon_rests rfl
    | true =>
      have not_over : ¬ (noMore ∨ d.read = true) := by
        intro hover
        rw [over_reads hover] at hr
        cases hr
      have hd : d.read = false := Bool.eq_false_iff.mpr fun hd => not_over (.inr hd)
      rw [streamEnded_of_reads (b := b.keep (s.withdraw d)) ha rfl hw hd hr]
      refine .waiting ha rfl ⟨⟨⟨h.sound, fun _ => rfl, fun he => absurd he not_over⟩, fun hne => absurd rfl hne,
        fun _ _ => ?_⟩, fun _ => .inl ?_, fun he => absurd he not_over⟩
      · exact Stream.writes_disable_onlyWrite (s := s.withdraw d) h.sound
      · exact (Stream.reads_disable_onlyWrite (s.withdraw d)).trans hr

theorem onStream_of_open (hf : b.finished = false) (hs : b.stream = some s) (e : StreamEvent) :
    b.onStream e =
      match e with
      | .readable => b.sendPending
      | .drained => b.outputDrained
      | .connected => (b, .active)
      | .error d => b.streamFailed d
      | .eof d => b.streamEnded d := by
  unfold onStream
  exact (if_neg (by simp [hf])).trans (if_neg (by simp [hs]))

theorem streamFailed_of_detached (ha : b.attached = false) (hs : b.stream = some s) (d : Directions) :
    b.streamFailed d = b.abandon := by
  simp only [streamFailed, hs, ha, Bool.false_and, Bool.false_eq_true, if_false]

/-! ## Moves -/

theorem Waits.act {act : Act} {e : StreamEvent} (h : Waits ended noMore b s) (ha : b.attached = true)
    (hf : b.finished = false) (does : Act.Does s act s' (some e)) :
    ((b.keep s').onStream e).1.Rests ended (noMore ∨ (Event.stream e).endsInput = true) := by
  rw [onStream_of_open (b := b.keep s') hf rfl]
  cases does with
  | feed =>
    refine sendPending_rests ha rfl ⟨⟨h.sound, h.suspended_of_ended, fun hover => ?_⟩, h.writes_of_queued,
      h.not_writes_of_ended⟩
    exact h.not_reads_of_over (by simpa [Event.endsInput] using hover)
  | takeAll hw =>
    have over_of : noMore ∨ (Event.stream .drained).endsInput = true → noMore := by simp [Event.endsInput]
    exact outputDrained_rests ha rfl ⟨h.sound, h.suspended_of_ended, fun hover => h.not_reads_of_over (over_of hover)⟩
      hw rfl (fun hover => h.told (over_of hover))
  | @finish d => exact (streamEnded_rests ha h d).of_le id (Or.imp_right (by simp [Event.endsInput]))
  | @fail d => exact (streamFailed_rests ha h d).of_le id (by simp [Event.endsInput])
  | failAll => exact (streamFailed_rests ha h .both).of_le id (by simp [Event.endsInput])
  | connect => exact .waiting ha rfl (h.of_le rfl (List.Subset.refl _) id (by simp [Event.endsInput]))

theorem winding_act {act : Act} {e : StreamEvent} (ha : b.attached = false) (hf : b.finished = false)
    (hsound : s.sticky = .none) (henabled : s.enabled = .onlyWrite) (hi : s.input = []) (ho : s.output ≠ [])
    (does : Act.Does s act s' (some e)) : ((b.keep s').onStream e).1.Rests ended noMore := by
  have hr : s.reads = false := by rw [Stream.reads_eq, henabled]; rfl
  rw [onStream_of_open (b := b.keep s') hf rfl]
  cases does with
  | feed hreads =>
    rw [hr] at hreads
    cases hreads
  | takeAll hw =>
    simp only [outputDrained, keep_stream, List.isEmpty_nil, Bool.not_true, Bool.false_eq_true, if_false,
      keep_attached, ha, Bool.not_false, if_true]
    exact windDownStream_rests ha rfl hsound fun _ => hw
  | @finish d hd =>
    show (streamEnded _ d).1.Rests ended noMore
    cases hw : d.write with
    | true =>
      rw [streamEnded_of_not_reads rfl hw (by rw [Stream.reads_withdraw, hr, Bool.false_and])]
      exact abandon_rests rfl
    | false =>
      have hdr : d.read = false := by
        by_contra h
        rw [Stream.reads_eq, hd.1 (by simpa using h)] at hr
        cases hr
      rw [streamEnded_of_not_write hw, if_neg (by simp [hdr]), (Directions.eq_none_iff d).mpr ⟨hdr, hw⟩,
        Stream.withdraw_none]
      exact .winding ha rfl hsound henabled hi ho
  | @fail d =>
    show (streamFailed _ d).1.Rests ended noMore
    rw [streamFailed_of_detached (b := b.keep _) ha rfl]
    exact abandon_rests rfl
  | failAll =>
    show (streamFailed _ .both).1.Rests ended noMore
    rw [streamFailed_of_detached (b := b.keep _) ha rfl]
    exact abandon_rests rfl
  | connect => exact .winding ha rfl hsound henabled hi ho

theorem Rests.acted {act : Act} (h : b.Rests ended noMore) (ht : b.Tidy) (acted : Acted act b c) :
    c.Rests ended (noMore ∨ InputOver (b.reportedBy (.stream act))) := by
  cases acted with
  | impossible hno =>
    rw [reportedBy_of_impossible hno]
    exact h.of_le id (by simp [not_inputOver_nil])
  | @silent s s' hs hon =>
    rw [reportedBy_of_on hs hon]
    have unreported : noMore ∨ InputOver (none : Option StreamEvent).toList → noMore := by simp [not_inputOver_nil]
    cases Act.does_of_on hon with
    | takeSome hw hdrop =>
    cases h with
    | @waiting t ha ht w =>
      obtain rfl : s = t := Option.some.inj (hs.symm.trans ht)
      refine .waiting ha rfl ⟨⟨⟨w.sound, w.suspended_of_ended, fun hover => w.not_reads_of_over (unreported hover)⟩,
        fun _ => hw, fun _ ho => absurd ho hdrop⟩, fun _ => .inr (.inr hdrop), fun hover => w.told (unreported hover)⟩
    | @winding t ha ht hsound henabled hi ho =>
      obtain rfl : s = t := Option.some.inj (hs.symm.trans ht)
      exact .winding ha rfl hsound henabled hi hdrop
    | finished hf =>
      rw [ht.finished_of_open hs] at hf
      cases hf
  | @reported s s' e hs hon =>
    have does := Act.does_of_on hon
    have hf : b.finished = false := ht.finished_of_open hs
    rw [reportedBy_of_on hs hon, Option.toList_some, inputOver_singleton]
    cases h with
    | @waiting t ha ht w =>
      obtain rfl : s = t := Option.some.inj (hs.symm.trans ht)
      exact w.act ha hf does
    | @winding t ha ht hsound henabled hi ho =>
      obtain rfl : s = t := Option.some.inj (hs.symm.trans ht)
      exact winding_act ha hf hsound henabled hi ho does
    | finished hf' =>
      rw [hf] at hf'
      cases hf'

theorem Rests.move (h : b.Rests ended noMore) (ht : b.Tidy) (m : Move) :
    (b.move m).Rests (ended ∨ m = .connection .eof) (noMore ∨ InputOver (b.reportedBy m)) := by
  cases m with
  | connection e => exact (h.connection ht e).of_le (by simp) (by simp [reportedBy, not_inputOver_nil])
  | stream act => exact (h.acted ht (move_acted b act)).of_le (by simp) id
  | hold peer => exact (h.holdPeer peer).of_le (by simp) (by simp [reportedBy, not_inputOver_nil])

theorem rests_play (sender : σ) (config : Config) (moves : List Move) :
    let start := new sender {} config
    (start.play moves).Rests (.connection .eof ∈ moves) (InputOver (start.reported moves)) := by
  intro start
  induction moves using List.reverseRecOn with
  | nil => exact (rests_new sender config).of_le (by simp) not_inputOver_nil
  | append_singleton moves m ih =>
    rw [play_snoc, reported_snoc]
    refine (ih.move ((tidy_new sender {} config).play moves) m).of_le ?_ ?_
    · simp [eq_comm]
    · exact (inputOver_append _ _).mp

/-- In whatever order ends, failures and drains come: once the connection has ended, an attached bridge has
something to wait for, and a bridge with nothing left to do is finished. -/
theorem never_parked (sender : σ) (config : Config) (moves : List Move) (hended : .connection .eof ∈ moves) :
    let b := (new sender {} config).play moves
    (b.attached = true → ∃ s, b.stream = some s ∧
      (s.reads = true ∨ s.input ≠ [] ∨ s.output ≠ [] ∧ s.writes = true)) ∧
    ((∀ s, b.stream = some s → s.reads = false ∧ s.input = [] ∧ (s.output = [] ∨ s.writes = false)) →
      b.finished = true) := by
  intro b
  have tidy : b.Tidy := (tidy_new sender {} config).play moves
  rcases (rests_play sender config moves).busy hended with hf | ⟨s, hs, busy⟩
  · refine ⟨fun ha => ?_, fun _ => hf⟩
    rw [(tidy.finished_iff.mp hf).1] at ha
    cases ha
  · refine ⟨fun _ => ⟨s, hs, busy⟩, fun idle => ?_⟩
    obtain ⟨hr, hi, how⟩ := idle s hs
    exfalso
    rcases busy with hr' | hi' | ⟨ho, hw⟩
    · rw [hr] at hr'
      cases hr'
    · exact hi' hi
    · rcases how with ho' | hw'
      · exact ho ho'
      · rw [hw'] at hw
        cases hw

/-- Output and refused input are left when the connection ends. The stream stops giving input, the output is
written, and the last chunk that is taken finishes the bridge. -/
theorem never_parked_last_chunk :
    let moves : List Move := [.connection (.read [1]), .stream (.feed [2]), .stream (.finish .onlyRead),
      .connection .eof, .stream (.take 1)]
    let script : Script := { answers := [.accepted 0, .accepted 0, .accepted 0] }
    let start := new script {} {}
    .connection .eof ∈ moves ∧ (start.play moves).attached = true ∧
      (∃ s, (start.play moves).stream = some s ∧ (s.reads = true ∨ s.input ≠ [] ∨ s.output ≠ [] ∧ s.writes = true)) ∧
      (start.play (moves ++ [.connection .writable])).finished = true := by
  intro moves script start
  have attached : (start.play moves).attached = true := by decide +kernel
  have waits := never_parked script {} moves (by decide)
  have ends := never_parked script {} (moves ++ [.connection .writable]) (by decide)
  refine ⟨by decide, attached, waits.1 attached, ends.2 ?_⟩
  have gone : (start.play (moves ++ [.connection .writable])).stream = none := by decide +kernel
  intro s hs
  cases gone.symm.trans hs

end Bridge

end Splice
