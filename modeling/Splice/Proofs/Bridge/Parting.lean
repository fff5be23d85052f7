import Splice.Proofs.Bridge.Delivery
import Splice.Proofs.Bridge.HalfClosing

/-!
# The last bytes to the connection

Over a behaving stream that does not fail, and with no send failing, the connection is closed only once it
has taken all that the stream gave, with one exception: when the stream ends its input after the connection
has ended, the connection is closed at once, and input that it had refused is given up.
-/

namespace Splice

def Move.failsConnection : Move → Bool
  | connection (.error _) => true
  | _ => false

namespace Bridge

variable {σ : Type} {event : Event} {noMore noMore' : Prop} {b c : Bridge σ} {s s' : Stream} {fed : List UInt8}

def pending (b : Bridge σ) : List UInt8 := (b.stream.map Stream.input).getD []

theorem pending_of_open (h : b.stream = some s) : b.pending = s.input := by
  simp [pending, h]

def SendFailed (b : Bridge σ) : Prop := ∃ offered, .send offered .failed ∈ b.calls

theorem SendFailed.mono (h : b.SendFailed) (hcalls : b.calls ⊆ c.calls) : c.SendFailed := by
  obtain ⟨offered, hmem⟩ := h
  exact ⟨offered, hcalls hmem⟩

/-- The connection was closed at once, after it had ended, and was asked for nothing more. -/
structure Parted (b c : Bridge σ) : Prop where
  attached : c.attached = false
  suspended : c.suspended = true
  closed : ∃ later, c.trace = b.trace ++ .closeConnection :: later ∧ ∀ call ∈ later, call.toConnection = false
  sent_eq : c.sent = b.sent

/-- How a bridge stands to its connection. If it was closed without a failed send, then with both
directions over and all input sent. -/
inductive Parts (fed : List UInt8) (noMore : Prop) (b : Bridge σ) : Prop
  | attached : b.attached = true → Parts fed noMore b
  | failed : b.SendFailed → Parts fed noMore b
  | apart : b.attached = false → b.suspended = true → noMore → b.sent = fed → Parts fed noMore b

theorem Parted.parts (h : b.Parted c) (hover : noMore) (hsent : b.sent = fed) : c.Parts fed noMore :=
  .apart h.attached h.suspended hover (h.sent_eq.trans hsent)

theorem Parted.of_keep (h : (b.keep s).Parted c) : b.Parted c :=
  ⟨h.attached, h.suspended, h.closed, h.sent_eq⟩

theorem Parts.of_le (h : b.Parts fed noMore) (ho : noMore → noMore') : b.Parts fed noMore' := by
  cases h with
  | attached ha => exact .attached ha
  | failed hf => exact .failed hf
  | apart ha hsus hover hsent => exact .apart ha hsus (ho hover) hsent

theorem Rests.fedBy_detached {ended : Prop} (h : b.Rests ended noMore) (ht : b.Tidy) (ha : b.attached = false)
    (m : Move) : b.fedBy m = [] := by
  cases m with
  | connection | hold => rfl
  | stream act =>
    cases h with
    | waiting ha' => cases ha'.symm.trans ha
    | @winding s _ hs _ henabled =>
      rw [fedBy, hs, Option.map_some, Option.getD_some]
      cases act with
      | feed =>
        have hr : s.reads = false := by
          rw [Stream.reads_eq, henabled]
          rfl
        rw [Act.fed, hr, if_neg (by decide)]
      | _ => rfl
    | finished hf =>
      rw [fedBy, (ht.finished_iff.mp hf).2]
      rfl

theorem queueOutput_attached (b : Bridge σ) (data : List UInt8) : (b.queueOutput data).1.attached = b.attached := by
  unfold queueOutput
  repeat' split
  all_goals rfl

theorem mem_reportedBy_finish {d : Directions} :
    .eof d ∈ b.reportedBy (.stream (.finish d)) ↔ ∃ s, b.stream = some s ∧ d ⊆ s.enabled := by
  cases hs : b.stream with
  | none => simp [reportedBy, hs]
  | some s => by_cases hd : d ⊆ s.enabled <;> simp [reportedBy, hs, Act.on?, hd]

/-- The stream ends its input to an attached bridge that has some of it still to send. -/
structure EndsUnsent (d : Directions) (b : Bridge σ) : Prop where
  ends_input : d.read = true
  reported : .eof d ∈ b.reportedBy (.stream (.finish d))
  attached : b.attached = true
  unsent : b.pending ≠ []

variable [Sender σ]

/-! ## What is sent along the moves -/

theorem Deeds.calls_suffix (d : Deeds event b c) : b.calls <:+ c.calls := by
  refine d.preserves (P := fun c => b.calls <:+ c.calls) (fun d h => ?_) List.suffix_rfl
  obtain ⟨made, hmade, -⟩ := d.awaits_drain
  rw [hmade]
  exact h.trans (List.suffix_append _ _)

theorem Deeds.calls_subset (d : Deeds event b c) : b.calls ⊆ c.calls := d.calls_suffix.subset

/-! ## Operations -/

theorem offer_failed {chunk : Nat} {sender : σ} {input : List UInt8} {count : UInt64} {calls : List Call}
    (h : (offer chunk sender input count calls).failed = true) :
    ∃ offered, .send offered .failed ∈ (offer chunk sender input count calls).calls := by
  fun_induction offer chunk sender input count calls with
  | case1 => cases h
  | case2 => exact ⟨_, List.mem_cons_self⟩
  | case3 => cases h
  | case4 =>
    rename_i ih
    exact ih h

theorem Reacts.parted {r : Bridge σ × Status} (hr : Reacts event b.closeConnection r) (ht : b.Tidy)
    (ha : b.attached = true) (hs : b.stream = some s) (hsus : b.suspended = true) : b.Parted r.1 := by
  have closes : Deed event b b.closeConnection := .closeConnection ha hs
  obtain ⟨tidy, detached, suspended, sent⟩ := hr.deeds.preserves
    (P := fun c => c.Tidy ∧ c.attached = false ∧ c.suspended = true ∧ c.sent = b.sent)
    (fun d ⟨tidy, detached, suspended, sent⟩ =>
      have nothing := d.sends_nothing detached
      ⟨d.tidy tidy, nothing.1, (d.ahead tidy.toSound).suspended suspended, nothing.2.trans sent⟩)
    ⟨closes.tidy ht, closeConnection_attached b, (closes.ahead ht.toSound).suspended hsus, sent_closeConnection ha⟩
  -- The closing is the first call, and after it the order of calls leaves the connection alone.
  obtain ⟨more, hmore⟩ := hr.deeds.calls_suffix
  have htrace : r.1.trace = b.trace ++ .closeConnection :: (b.releases.reverse ++ more.reverse) := by
    simp [trace, ← hmore, closeConnection_eq ha]
  exact ⟨detached, suspended, ⟨_, htrace, tidy.orderly.inOrder.connection_left_alone _ _ htrace⟩, sent⟩

theorem afterSending_parts (ht : b.Tidy) (ha : b.attached = true) (hs : b.stream = some s) (h : b.Sends fed)
    (hflow : b.suspended = false → s.writes = true) (hover : s.reads = false → noMore) :
    (b.afterSending s).1.Parts fed noMore := by
  unfold afterSending
  split
  · exact .attached ha
  next hdone =>
  simp only [Bool.or_eq_true, Bool.not_eq_true', not_or, Bool.not_eq_true, Bool.not_eq_false,
    List.isEmpty_iff] at hdone
  obtain ⟨hr, hi⟩ := hdone
  split
  · exact .attached ha
  next hw =>
  have hw : s.writes = false := by simpa using hw
  have he : s.enabled = .none := (Directions.eq_none_iff _).mpr ⟨by simpa using hr, by simpa using hw⟩
  have hsus : b.suspended = true := by
    by_contra hsus
    rw [hflow (by simpa using hsus)] at hw
    cases hw
  have hsent : b.sent = fed := by
    rw [← h.pending ha s hs, hi, List.append_nil]
  have hs' : b.closeConnection.stream = some s := by simpa using hs
  split
  · next ho =>
    have reacts : Reacts (.stream .readable) b.closeConnection b.closeConnection.closeStream.conclude :=
      closeStream_reacts (closeConnection_attached b) hs' hi (List.isEmpty_iff.mp ho)
        (he ▸ Directions.none_subset _)
    exact (reacts.parted ht ha hs hsus).parts (hover hr) hsent
  · have reacts : Reacts (.stream .readable) b.closeConnection b.closeConnection.discardStream.conclude :=
      discardStream_reacts (closeConnection_attached b) hs' (.inr hw)
    exact (reacts.parted ht ha hs hsus).parts (hover hr) hsent

theorem sendPending_parts (ht : b.Tidy) (ha : b.attached = true) (hs : b.stream = some s) (h : b.Sends fed)
    (hflow : b.suspended = false → s.writes = true) (hover : s.reads = false → noMore) :
    b.sendPending.1.Parts fed noMore := by
  rw [sendPending_of_attached ha hs]
  dsimp only
  have offers : Deeds (.stream .readable) b
      (b.offeredTo s (offer b.maxChunk b.sender s.input b.stats.bytesToConnection b.calls)) :=
    offer_deeds ha hs rfl rfl rfl rfl rfl
  split
  · next hfailed =>
    have failed : SendFailed (b.offeredTo s _) := offer_failed hfailed
    have closes : Reacts (.stream .readable)
        (b.offeredTo s (offer b.maxChunk b.sender s.input b.stats.bytesToConnection b.calls)) _ :=
      Reacts.after (.closeConnection ha rfl) (windDownStream_reacts
        ((closeConnection_finished _).trans (ht.finished_of_open hs)) (closeConnection_attached _)
        (closeConnection_stream _))
    exact .failed (failed.mono closes.deeds.calls_subset)
  · exact afterSending_parts (ht.deeds offers) ha rfl (h.deeds ht offers) hflow hover

theorem endOutput_parts (ht : b.Tidy) (ha : b.attached = true) (hs : b.stream = some s) (h : b.Sends fed)
    (hsus : b.suspended = true) (ho : s.output = []) (hover : s.reads = false → noMore) :
    b.endOutput.1.Parts fed noMore := by
  have goes_on : ∀ {c : Bridge σ} {s' : Stream}, c.Tidy → c.attached = true → c.stream = some s' →
      c.Sends fed → c.suspended = true → s'.reads = s.reads →
      (if s.reads then (c, .active) else c.sendPending : Bridge σ × Status).1.Parts fed noMore := by
    intro c s' ht ha hs h hsus hreads
    split
    · exact .attached ha
    · refine sendPending_parts ht ha hs h ?_ (hreads ▸ hover)
      intro hflow
      rw [hsus] at hflow
      cases hflow
  rw [endOutput, hs]
  dsimp only
  cases hw : s.writes with
  | false => exact goes_on ht ha hs h hsus rfl
  | true =>
    have ends : Deed (.stream .readable) b ((b.keep (s.disable .onlyWrite)).record .shutdownStream) :=
      .endOutput ha hsus hs ho hw
    exact goes_on (ends.tidy ht) ha rfl (ends.sends ht.toSound h) hsus (Stream.reads_disable_onlyWrite s)

theorem outputDrained_parts (ht : b.Tidy) (ha : b.attached = true) (hs : b.stream = some s) (h : b.Sends fed)
    (hover : s.reads = false → noMore) : b.outputDrained.1.Parts fed noMore := by
  unfold outputDrained
  rw [hs]
  dsimp only
  split
  · exact .attached ha
  next ho =>
  have ho : s.output = [] := by simpa using ho
  rw [if_neg (by simp [ha])]
  split
  · next hsus =>
    have tells : Deed (.stream .readable) b (b.record .readDrained) := .tell ha hs (.acknowledge ho)
    exact endOutput_parts (tells.tidy ht) ha hs (tells.sends ht.toSound h) (Bool.and_eq_true_iff.mp hsus).1 ho
      hover
  · exact .attached ha

theorem connectionEnded_parts (ht : b.Tidy) (ha : b.attached = true) (hs : b.stream = some s)
    (h : b.Sends fed) (hover : s.reads = false → noMore) : b.connectionEnded.1.Parts fed noMore := by
  have suspends : Deed (.connection .eof) b { b with suspended := true } := .suspend ha (.inl rfl)
  dsimp only [connectionEnded]
  split
  · exact .attached ha
  next s' hs' =>
  obtain rfl : s = s' := Option.some.inj (hs.symm.trans hs')
  split
  · next ho =>
    exact endOutput_parts (suspends.tidy ht) ha hs (suspends.sends ht.toSound h) rfl (List.isEmpty_iff.mp ho) hover
  · exact .attached ha

theorem writable_parts (ht : b.Tidy) (ha : b.attached = true) (hs : b.stream = some s) (h : b.Sends fed)
    (hflow : b.suspended = false → s.writes = true) (hover : s.reads = false → noMore) :
    b.writable.1.Parts fed noMore := by
  rw [writable, hs]
  exact sendPending_parts ht ha hs h hflow hover

theorem inputEnded_parted (ht : b.Tidy) (ha : b.attached = true) (hs : b.stream = some s)
    (hsus : b.suspended = true) : b.Parted b.inputEnded.1 := by
  have closes : Reacts (.stream .readable) (b.keep (s.disable .onlyRead)).closeConnection
      (b.keep (s.disable .onlyRead)).closeConnection.windDownStream :=
    windDownStream_reacts ((closeConnection_finished _).trans (ht.finished_of_open hs))
      (closeConnection_attached _) (closeConnection_stream _)
  have parted := closes.parted (ht.keep hs _) ha rfl hsus
  rw [inputEnded, hs]
  dsimp only
  rw [if_neg (by simp [hsus]), keep_attached, if_pos ha]
  exact parted.of_keep

/-- Only input that is left when the connection has ended is given up. -/
theorem inputEnded_parts (ht : b.Tidy) (ha : b.attached = true) (hs : b.stream = some s) (h : b.Sends fed)
    (hflow : b.suspended = false → s.writes = true) (hover : noMore) :
    b.inputEnded.1.Parts fed noMore ∨ b.suspended = true ∧ s.input ≠ [] := by
  cases hsus : b.suspended with
  | false =>
    have stops : Deed (.stream (.eof .onlyRead)) b (b.keep (s.disable .onlyRead)) := .adjust hs (.stopReading rfl)
    rw [inputEnded, hs]
    dsimp only
    rw [keep_suspended, hsus, Bool.not_false, if_pos rfl]
    refine .inl (sendPending_parts (stops.tidy ht) ha rfl (stops.sends ht.toSound h) ?_ fun _ => hover)
    rw [Stream.writes_disable_onlyRead]
    exact hflow
  | true =>
    by_cases hi : s.input = []
    · refine .inl ((inputEnded_parted ht ha hs hsus).parts hover ?_)
      rw [← h.pending ha s hs, hi, List.append_nil]
    · exact .inr ⟨rfl, hi⟩

/-! ## Moves -/

theorem onConnection_parts (ht : b.Tidy) (ha : b.attached = true) (hs : b.stream = some s) (h : b.Sends fed)
    (hflow : b.suspended = false → s.writes = true) (hover : s.reads = false → noMore) {e : ConnectionEvent}
    (he : e.fault? = none) : (b.onConnection e).1.Parts fed noMore := by
  unfold onConnection
  rw [if_neg (by simp [ht.finished_of_open hs]), if_neg (by simp [ha])]
  cases e with
  | connected =>
    have announces : Deed (.connection .connected) b b.connected := .announce ha rfl
    have same := connected_eq b
    refine writable_parts (announces.tidy ht) ?_ ?_ (announces.sends ht.toSound h) ?_ hover
    · rw [same]
      exact ha
    · rw [same]
      exact hs
    · rw [same]
      exact hflow
  | writable => exact writable_parts ht ha hs h hflow hover
  | read data => exact .attached ((queueOutput_attached b data).trans ha)
  | eof => exact connectionEnded_parts ht ha hs h hover
  | error => cases he
  | destroying => exact .attached ha

theorem EndsUnsent.parted {d : Directions} (h : b.EndsUnsent d) (ht : b.Tidy) (hsus : b.suspended = true)
    (hw : d.write = false) : b.Parted (b.move (.stream (.finish d))) := by
  obtain ⟨s, hs, hd⟩ := mem_reportedBy_finish.mp h.reported
  have possible : (Act.finish d).on? s = some (s.withdraw d, some (.eof d)) := if_pos hd
  have reacts : b.move (.stream (.finish d)) = ((b.keep (s.withdraw d)).onStream (.eof d)).1 := by
    simp [move, hs, possible]
  rw [reacts, onStream_of_open (b := b.keep (s.withdraw d)) (ht.finished_of_open hs) rfl]
  dsimp only
  rw [streamEnded_of_not_write hw, if_pos h.ends_input]
  exact (inputEnded_parted (ht.keep hs (s.withdraw d)) h.attached rfl hsus).of_keep

theorem act_parts {act : Act} {e : StreamEvent} (does : Act.Does s act s' (some e)) (ht : b.Tidy)
    (ha : b.attached = true) (hs : b.stream = some s) (h : (b.keep s').Sends fed)
    (hflow : b.suspended = false → s.writes = true) (hover : s.reads = false → noMore)
    (hspare : act.sparesOutput = true) :
    ((b.keep s').onStream e).1.Parts fed (noMore ∨ (Event.stream e).endsInput = true) ∨
      ∃ d, act = .finish d ∧ b.suspended = true ∧ b.EndsUnsent d := by
  have tidy : (b.keep s').Tidy := ht.keep hs s'
  rw [onStream_of_open (b := b.keep s') (ht.finished_of_open hs) rfl]
  cases does with
  | feed hr =>
    refine .inl (sendPending_parts tidy ha rfl h hflow fun hr' => ?_)
    cases hr.symm.trans hr'
  | takeAll hw => exact .inl (outputDrained_parts tidy ha rfl h fun hr => .inl (hover hr))
  | @finish d hd =>
    have hdw : d.write = false := by simpa [Act.sparesOutput] using hspare
    dsimp only
    rw [streamEnded_of_not_write hdw]
    split
    · next hdr =>
      have ends : (Event.stream (.eof d)).endsInput = true := by simpa [Event.endsInput] using hdr
      have flow : (b.keep (s.withdraw d)).suspended = false → (s.withdraw d).writes = true := by
        rw [Stream.writes_withdraw, hdw, Bool.not_false, Bool.and_true]
        exact hflow
      refine (inputEnded_parts tidy ha rfl h flow (.inr ends)).imp id ?_
      rintro ⟨hsus, hi⟩
      refine ⟨d, rfl, hsus, hdr, mem_reportedBy_finish.mpr ⟨s, hs, hd⟩, ha, ?_⟩
      rw [pending_of_open hs]
      exact hi
    · exact .inl (.attached ha)
  | fail | failAll => cases hspare
  | connect => exact .inl (.attached ha)

theorem Acted.parts {act : Act} (acted : Acted act b c) (ht : b.Tidy) (ha : b.attached = true) (h : b.Sends fed)
    (hflow : b.suspended = false → ∀ s, b.stream = some s → s.writes = true) (hover : b.ReadsUntil noMore)
    (hspare : act.sparesOutput = true) :
    c.Parts (fed ++ b.fedBy (.stream act)) (noMore ∨ InputOver (b.reportedBy (.stream act))) ∨
      ∃ d, act = .finish d ∧ b.suspended = true ∧ b.EndsUnsent d := by
  cases acted with
  | impossible | silent => exact .inl (.attached ha)
  | @reported s s' e hs hon =>
    have does := Act.does_of_on hon
    rw [reportedBy_of_on hs hon, Option.toList_some, inputOver_singleton]
    exact act_parts does ht ha hs (h.act hs does) (fun hsus => hflow hsus s hs) (hover ha s hs) hspare

theorem move_parts {m : Move} (ht : b.Tidy) (ha : b.attached = true) (h : b.Sends fed)
    (hflow : b.suspended = false → ∀ s, b.stream = some s → s.writes = true) (hover : b.ReadsUntil noMore)
    (hspare : m.sparesOutput = true) (hwhole : m.failsConnection = false) :
    (b.move m).Parts (fed ++ b.fedBy m) (noMore ∨ InputOver (b.reportedBy m)) ∨
      ∃ d, m = .stream (.finish d) ∧ b.suspended = true ∧ b.EndsUnsent d := by
  cases m with
  | connection e =>
    obtain ⟨s, hs⟩ := ht.stream_of_attached ha
    simp only [fedBy, List.append_nil]
    refine .inl (onConnection_parts ht ha hs h (fun hsus => hflow hsus s hs) (fun hr => .inl (hover ha s hs hr)) ?_)
    cases e with
    | error => cases hwhole
    | _ => rfl
  | stream act =>
    refine ((move_acted b act).parts ht ha h hflow hover hspare).imp id ?_
    rintro ⟨d, rfl, unsent⟩
    exact ⟨d, rfl, unsent⟩
  | hold peer =>
    refine .inl (.attached ?_)
    rw [move, holdPeer, releasePeer_eq]
    exact ha

/-! ## Runs -/

theorem move_sends_nothing (ht : b.Tidy) (ha : b.attached = false) (m : Move) :
    (b.move m).attached = false ∧ (b.move m).sent = b.sent := by
  refine ht.move_preserves (P := fun c => c.attached = false ∧ c.sent = b.sent) m ?_ id (fun _ _ kept => kept)
    (fun peer _ => ⟨?_, sent_holdPeer peer⟩) ⟨ha, rfl⟩
  · rintro event c c' - d ⟨hca, hsent⟩
    exact ⟨(d.sends_nothing hca).1, (d.sends_nothing hca).2.trans hsent⟩
  · rw [holdPeer, releasePeer_eq]
    exact ha

theorem move_calls_subset (ht : b.Tidy) (m : Move) : b.calls ⊆ (b.move m).calls := by
  refine ht.move_preserves (P := fun c => b.calls ⊆ c.calls) m
    (fun _ d kept => List.Subset.trans kept (Deeds.calls_subset (.single d))) id (fun _ _ kept => kept)
    (fun peer _ => ?_) (List.Subset.refl _)
  rw [holdPeer, releasePeer_eq]
  exact List.subset_append_right _ _

/-- The end of the input came after that of the connection, and some input was left. -/
def GaveUp (start : Bridge σ) (moves : List Move) : Prop :=
  ∃ before d after, moves = before ++ .stream (.finish d) :: after ∧ .connection .eof ∈ before ∧
    (start.play before).EndsUnsent d

theorem GaveUp.snoc {start : Bridge σ} {moves : List Move} (h : start.GaveUp moves) (m : Move) :
    start.GaveUp (moves ++ [m]) := by
  obtain ⟨before, d, after, rfl, unsent⟩ := h
  exact ⟨before, d, after ++ [m], by simp, unsent⟩

section Runs

variable (sender : σ) (config : Config) (moves : List Move)

theorem detached_play (ha : ((new sender {} config).play moves).attached = false) (later : List Move) :
    let start := new sender {} config
    (start.play (moves ++ later)).attached = false ∧
      (start.play (moves ++ later)).sent = (start.play moves).sent ∧
      start.fed (moves ++ later) = start.fed moves := by
  intro start
  induction later using List.reverseRecOn with
  | nil => simpa using ha
  | append_singleton later m ih =>
    obtain ⟨detached, sent, fed⟩ := ih
    have tidy : (start.play (moves ++ later)).Tidy := (tidy_new sender {} config).play _
    have nothing := move_sends_nothing tidy detached m
    rw [← List.append_assoc, play_snoc, fed_snoc, fed]
    refine ⟨nothing.1, nothing.2.trans sent, ?_⟩
    rw [(rests_play sender config (moves ++ later)).fedBy_detached tidy detached m, List.append_nil]

/-- Until a send fails, the connection is closed with nothing left to send or with refused input given up. -/
theorem parts_play (hspare : ∀ m ∈ moves, m.sparesOutput = true)
    (hwhole : ∀ m ∈ moves, m.failsConnection = false) :
    let start := new sender {} config
    (start.play moves).Parts (start.fed moves) (InputOver (start.reported moves)) ∨ start.GaveUp moves := by
  intro start
  induction moves using List.reverseRecOn with
  | nil => exact .inl (.attached rfl)
  | append_singleton moves m ih =>
    have spared : ∀ m ∈ moves, m.sparesOutput = true := fun m hm => hspare m (List.mem_append_left _ hm)
    have tidy : (start.play moves).Tidy := (tidy_new sender {} config).play moves
    rcases ih spared fun m hm => hwhole m (List.mem_append_left _ hm) with parts | gave
    · cases parts with
      | attached ha =>
        have flowing := (keeps_play sender config moves spared).writes_of_flowing ha
        rcases move_parts tidy ha (sends_play sender config moves) flowing
          (reads_until_play sender config moves spared) (hspare m (by simp)) (hwhole m (by simp)) with
          parts | ⟨d, rfl, hsus, unsent⟩
        · rw [play_snoc, fed_snoc, reported_snoc]
          exact .inl (parts.of_le (inputOver_append _ _).mpr)
        · exact .inr ⟨moves, d, [], rfl, ended_of_suspended sender config moves spared hsus, unsent⟩
      | failed hf =>
        rw [play_snoc]
        exact .inl (.failed (hf.mono (move_calls_subset tidy m)))
      | apart ha hsus hover hsent =>
        obtain ⟨detached, sent, fed⟩ := detached_play sender config moves ha [m]
        refine .inl (.apart detached ?_ ?_ (sent.trans (hsent.trans fed.symm)))
        · rw [play_snoc]
          exact (tidy.move_ahead m).suspended hsus
        · rw [reported_snoc]
          exact (inputOver_append _ _).mpr (.inl hover)
    · exact .inr (gave.snoc m)

theorem suspended_of_ended (hended : .connection .eof ∈ moves)
    (ha : ((new sender {} config).play moves).attached = true) :
    ((new sender {} config).play moves).suspended = true := by
  cases rests_play sender config moves with
  | waiting _ _ waits => exact waits.suspended_of_ended hended
  | winding ha' => cases ha'.symm.trans ha
  | finished hf => cases (((tidy_new sender {} config).play moves).finished_iff.mp hf).1.symm.trans ha

end Runs

/-- In every run over a behaving stream that does not fail, while neither the connection nor a send fails:
every byte of the stream is sent before the connection is closed, unless the stream ends its input when the
connection has ended and has refused some of it. Then the connection is closed at once, and just what was pending
is given up. -/
theorem closed_with_all_sent (sender : σ) (config : Config) (moves : List Move)
    (hspare : ∀ m ∈ moves, m.sparesOutput = true) (hwhole : ∀ m ∈ moves, m.failsConnection = false)
    (hsends : ∀ offered, .send offered .failed ∉ ((new sender {} config).play moves).trace) :
    let start := new sender {} config
    let b := start.play moves
    (.closeConnection ∈ b.trace → b.sent = start.fed moves ∨
      ∃ before d after, moves = before ++ .stream (.finish d) :: after ∧ .connection .eof ∈ before ∧
        (start.play before).EndsUnsent d) ∧
    ∀ before d after, moves = before ++ .stream (.finish d) :: after → .connection .eof ∈ before →
      (start.play before).EndsUnsent d →
      (start.play before).Parted (start.play (before ++ [.stream (.finish d)])) ∧
      b.sent = (start.play before).sent ∧ b.sent ++ (start.play before).pending = start.fed moves := by
  intro start b
  have tidy : ∀ moves, (start.play moves).Tidy := (tidy_new sender {} config).play
  refine ⟨fun hclosed => ?_, ?_⟩
  · rcases parts_play sender config moves hspare hwhole with parts | gave
    · cases parts with
      | attached ha =>
        have orderly := (tidy moves).orderly
        rw [ha] at orderly
        exact absurd (List.mem_reverse.mp hclosed) orderly.connection_open
      | failed hf =>
        obtain ⟨offered, hmem⟩ := hf
        exact absurd (List.mem_reverse.mpr hmem) (hsends offered)
      | apart _ _ _ hsent => exact .inl hsent
    · exact .inr gave
  · intro before d after hmoves hended ends
    have spares : (Move.stream (.finish d)).sparesOutput = true := hspare _ (by simp [hmoves])
    have not_write : d.write = false := by simpa [Move.sparesOutput, Act.sparesOutput] using spares
    have suspended := suspended_of_ended sender config before hended ends.attached
    have parted := ends.parted (tidy before) suspended not_write
    rw [← play_snoc] at parted
    -- What was pending is all that was fed and not sent, and from here on nothing is fed or sent.
    obtain ⟨s, hs⟩ := (tidy before).stream_of_attached ends.attached
    obtain ⟨-, sent, fed⟩ := detached_play sender config _ parted.attached after
    have joined : before ++ [.stream (.finish d)] ++ after = moves := by simp [hmoves]
    rw [joined] at sent fed
    have unsent : b.sent = (start.play before).sent := sent.trans parted.sent_eq
    have nothing_fed : start.fed (before ++ [.stream (.finish d)]) = start.fed before := by
      rw [fed_snoc, fedBy, hs]
      exact List.append_nil _
    refine ⟨parted, unsent, ?_⟩
    rw [unsent, fed, nothing_fed, pending_of_open hs]
    exact (sends_play sender config before).pending ends.attached s hs

/-- A byte that was refused twice leaves with the end of the connection; one that was refused after that end is
given up with the end of the stream. -/
theorem closed_with_all_sent_refused_twice :
    let feed : Move := .stream (.feed [1])
    let finish : Move := .stream (.finish .onlyRead)
    let start := new (Script.mk [.accepted 0, .accepted 0] none) {} {}
    let late := [feed, finish, .connection .eof]
    let early := [.connection .eof, feed]
    let b := start.play late
    let c := start.play (early ++ [finish])
    ((∀ m ∈ late, m.sparesOutput = true ∧ m.failsConnection = false) ∧
      (∀ offered, .send offered .failed ∉ b.trace) ∧ .closeConnection ∈ b.trace ∧ b.sent = start.fed late) ∧
    (∀ m ∈ early ++ [finish], m.sparesOutput = true ∧ m.failsConnection = false) ∧
      (∀ offered, .send offered .failed ∉ c.trace) ∧ .connection .eof ∈ early ∧
      (start.play early).EndsUnsent .onlyRead ∧ (start.play early).Parted c ∧
      c.sent ++ (start.play early).pending = start.fed (early ++ [finish]) := by
  intro feed finish start late early b c
  have late_ok : ∀ m ∈ late, m.sparesOutput = true ∧ m.failsConnection = false := by decide
  have early_ok : ∀ m ∈ early ++ [finish], m.sparesOutput = true ∧ m.failsConnection = false := by decide
  have late_calls : b.trace = [.send [1] (.accepted 0), .send [1] (.accepted 0), .shutdownStream,
      .send [1] (.accepted 1), .closeConnection, .closeStream .none 0 0] := by decide +kernel
  have early_calls : c.trace = [.shutdownStream, .send [1] (.accepted 0), .closeConnection,
      .closeStream .none 0 0] := by decide +kernel
  have late_sends : ∀ offered, .send offered .failed ∉ b.trace := by simp [late_calls]
  have early_sends : ∀ offered, .send offered .failed ∉ c.trace := by simp [early_calls]
  have closed : .closeConnection ∈ b.trace := by simp [late_calls]
  have ended : .connection .eof ∈ early := List.mem_cons_self
  have ends : (start.play early).EndsUnsent .onlyRead :=
    ⟨rfl, by decide +kernel, by decide +kernel, by decide +kernel⟩
  obtain ⟨late_sent, late_given_up⟩ := closed_with_all_sent _ {} late (fun m hm => (late_ok m hm).1)
    (fun m hm => (late_ok m hm).2) late_sends
  obtain ⟨-, given_up⟩ := closed_with_all_sent _ {} (early ++ [finish]) (fun m hm => (early_ok m hm).1)
    (fun m hm => (early_ok m hm).2) early_sends
  obtain ⟨parted, -, all⟩ := given_up early .onlyRead [] rfl ended ends
  refine ⟨⟨late_ok, late_sends, closed, ?_⟩, early_ok, early_sends, ended, ends, parted, all⟩
  rcases late_sent closed with sent | ⟨before, d, after, hmoves, late_ended, late_ends⟩
  · exact sent
  · -- Nothing but the bytes already sent is left to be given up.
    obtain ⟨-, -, all⟩ := late_given_up before d after hmoves late_ended late_ends
    have sent : b.sent = [1] := by decide +kernel
    have fed : start.fed late = [1] := by decide +kernel
    rw [sent, fed] at all
    exact absurd (List.append_right_eq_self.mp all) late_ends.unsent

/-- The order of the two ends decides: the same byte, refused as often, is not sent if the connection has
ended before the stream ends its input. -/
theorem refused_input_given_up :
    let feed : Move := .stream (.feed [1])
    let finish : Move := .stream (.finish .onlyRead)
    let start := new (Script.mk [.accepted 0, .accepted 0] none) {} {}
    let b := start.play [.connection .eof, feed, finish]
    let c := start.play [feed, finish, .connection .eof]
    ((∀ m ∈ [.connection .eof, feed, finish], m.sparesOutput = true ∧ m.failsConnection = false) ∧
      (∀ offered, .send offered .failed ∉ b.trace) ∧ .closeConnection ∈ b.trace) ∧
    start.fed [.connection .eof, feed, finish] = [1] ∧ b.sent = [] ∧ b.finished = true ∧
    start.fed [feed, finish, .connection .eof] = [1] ∧ c.sent = [1] ∧ c.finished = true := by
  intro feed finish start b c
  have calls : b.trace = [.shutdownStream, .send [1] (.accepted 0), .closeConnection, .closeStream .none 0 0] := by
    decide +kernel
  refine ⟨⟨by decide, ?_, ?_⟩, by decide +kernel, by decide +kernel, by decide +kernel, by decide +kernel,
    by decide +kernel, by decide +kernel⟩
  · simp [calls]
  · simp [calls]

end Bridge

end Splice
