import Splice.Proofs.Bridge.WindingDown
import Splice.Proofs.Bridge.Course
import Splice.Proofs.EventLoop.Tasks

/-!
# Serving a stream

What a loop does on a stream whose socket is ready is an act of a behaving stream, or input that is read and then
an act of writing. The second is reported after the first although both have been done by then. The bridge is left
at rest all the same, and one that winds down ends with its output.
-/

namespace Splice

namespace Stream

variable {s : Stream}

theorem onlyRead_subset (h : s.reads = true) : Directions.onlyRead ⊆ s.enabled := by
  rw [reads_eq] at h
  exact ⟨fun _ => h, nofun⟩

theorem onlyWrite_subset (h : s.writes = true) : Directions.onlyWrite ⊆ s.enabled := by
  rw [writes_eq] at h
  exact ⟨nofun, fun _ => h⟩

theorem withdraw_both (s : Stream) : s.withdraw .both = { s with enabled := .none } := by
  rcases s with ⟨⟨_ | _, _ | _⟩, _, _, _⟩ <;> rfl

end Stream

/-! ## Serving as acts -/

namespace Act

inductive Reading : Act → Prop
  | feed (data : List UInt8) : Reading (.feed data)
  | finish : Reading (.finish .onlyRead)
  | fail : Reading (.fail .onlyRead)

inductive Writing : Act → Prop
  | take (n : Nat) : Writing (.take n)
  | finish : Writing (.finish .onlyWrite)
  | fail : Writing (.fail .onlyWrite)

variable {act : Act} {s s' : Stream} {report : Option StreamEvent}

theorem Reading.reads (h : act.Reading) (does : Does s act s' report) : s.reads = true := by
  rw [Stream.reads_eq]
  cases h with
  | feed => cases does with | feed hr => rwa [Stream.reads_eq] at hr
  | finish => cases does with | finish hd => exact hd.1 rfl
  | fail => cases does with | fail hd => exact hd.1 rfl

theorem Writing.with_input (h : act.Writing) {input : List UInt8} (does : Does { s with input } act s' report)
    (rest : List UInt8) : Does { s with input := rest } act { s' with input := rest } report := by
  cases h with
  | take =>
    cases does with
    | takeSome hw hdrop => exact .takeSome hw hdrop
    | takeAll hw ho hdrop => exact .takeAll hw ho hdrop
  | finish => cases does with | finish hd => exact .finish hd
  | fail => cases does with | fail hd => exact .fail hd

theorem Writing.reads_eq (h : act.Writing) (does : Does s act s' report) : s'.reads = s.reads := by
  cases h with
  | take => cases does <;> rfl
  | finish | fail =>
    cases does
    rw [Stream.reads_withdraw]
    exact Bool.and_true _

theorem Writing.sticky_eq (_ : act.Writing) (does : Does s act s' report) : s'.sticky = s.sticky :=
  (Stream.Narrows.of_act does).sticky_eq

theorem Writing.silent (h : act.Writing) (does : Does s act s' none) : s'.writes = true ∧ s'.output ≠ [] := by
  cases h with
  | take => cases does with | takeSome hw hdrop => exact ⟨hw, hdrop⟩
  | finish | fail => cases does

theorem Writing.reports {e : StreamEvent} (h : act.Writing) (does : Does s act s' (some e)) :
    s'.output = [] ∧ e = .drained ∨ s'.writes = false ∧ (e = .eof .onlyWrite ∨ e = .error .onlyWrite) := by
  have not_written : (s.withdraw .onlyWrite).writes = false := by
    rw [Stream.writes_withdraw]
    exact Bool.and_false _
  cases h with
  | take => cases does with | takeAll => exact .inl ⟨rfl, rfl⟩
  | finish => cases does with | finish => exact .inr ⟨not_written, .inl rfl⟩
  | fail => cases does with | fail => exact .inr ⟨not_written, .inr rfl⟩

end Act

/-- What serving a stream comes to, and what it then reports. -/
inductive Serves (s : Stream) : Stream → List StreamEvent → Prop
  | idle : Serves s s []
  | once {act : Act} {s' : Stream} {report : Option StreamEvent} : act.Reading ∨ act.Writing →
      act.on? s = some (s', report) → Serves s s' report.toList
  | twice {data : List UInt8} {act : Act} {s' : Stream} {report : Option StreamEvent} : s.reads = true →
      act.Writing → Act.Does { s with input := s.input ++ data } act s' report →
      Serves s s' (.readable :: report.toList)

namespace Buffered

variable {κ : Type} [Socket κ]

theorem attemptWrite_acts (b : Buffered κ) (hw : b.stream.writes = true) (ho : b.stream.output ≠ []) :
    b.attemptWrite.after.stream = b.stream ∧ b.attemptWrite.event = none ∨
      ∃ act : Act, act.Writing ∧ act.on? b.stream = some (b.attemptWrite.after.stream, b.attemptWrite.event) := by
  have ends := Stream.onlyWrite_subset hw
  unfold attemptWrite
  split
  · exact .inl ⟨rfl, rfl⟩
  split
  dsimp only
  split
  · exact .inr ⟨_, .finish, if_pos ends⟩
  · next n _ _ =>
    refine .inr ⟨_, .take n, (if_pos ⟨hw, ho⟩).trans ?_⟩
    simp only [mapStream, List.isEmpty_iff]
  · exact .inl ⟨rfl, rfl⟩
  · exact .inr ⟨_, .finish, if_pos ends⟩
  · exact .inr ⟨_, .fail, if_pos ends⟩

theorem attemptRead_acts (b : Buffered κ) (hr : b.stream.reads = true) :
    b.attemptRead.after.stream = b.stream ∧ b.attemptRead.event = none ∨
      (∃ data, b.attemptRead.after.stream = { b.stream with input := b.stream.input ++ data } ∧
        b.attemptRead.event = some .readable) ∨
      endsReading b.attemptRead.event = true ∧
        ∃ act : Act, act.Reading ∧ act.on? b.stream = some (b.attemptRead.after.stream, b.attemptRead.event) := by
  have ends := Stream.onlyRead_subset hr
  unfold attemptRead
  split
  · exact .inl ⟨rfl, rfl⟩
  split
  dsimp only
  split
  · exact .inr (.inr ⟨rfl, _, .finish, if_pos ends⟩)
  · exact .inr (.inl ⟨_, rfl, rfl⟩)
  · exact .inl ⟨rfl, rfl⟩
  · exact .inr (.inr ⟨rfl, _, .fail, if_pos ends⟩)

theorem serve_serves (b : Buffered κ) (ready : Readiness) :
    Serves b.stream (b.serve ready).1.stream (b.serve ready).2 := by
  have writes : ∀ (c : Buffered κ) (p : Bool), (p = true → c.stream.writes = true ∧ c.stream.output ≠ []) →
      let writing : Attempt κ := if p then c.attemptWrite else { after := c }
      writing.after.stream = c.stream ∧ writing.event = none ∨
        ∃ act : Act, act.Writing ∧ act.on? c.stream = some (writing.after.stream, writing.event) := by
    intro c p h
    cases p with
    | false => exact .inl ⟨rfl, rfl⟩
    | true => exact c.attemptWrite_acts (h rfl).1 (h rfl).2
  have wanted : ∀ p, (b.wantsWrite && p) = true → b.stream.writes = true ∧ b.stream.output ≠ [] := by
    intro p h
    simp only [wantsWrite, Bool.and_eq_true, Bool.not_eq_true', List.isEmpty_eq_false_iff] at h
    exact h.1
  unfold serve
  -- An end of reading is reported alone, so the socket is written only after data or none.
  cases hr : b.wantsRead && (ready.readable || ready.readClosed) with
  | false =>
    rcases writes b _ (wanted (ready.writable || ready.writeClosed)) with ⟨hs, he⟩ | ⟨act, hact, hon⟩
    · simp only [Bool.false_eq_true, if_false, endsReading, hs, he]
      exact .idle
    · exact .once (.inr hact) hon
  | true =>
    have reads : b.stream.reads = true := by
      simp only [wantsRead, Bool.and_eq_true] at hr
      exact hr.1.1
    simp only [if_true]
    rcases b.attemptRead_acts reads with ⟨hs, he⟩ | ⟨data, hs, he⟩ | ⟨hends, act, hact, hon⟩
    · have written := writes b.attemptRead.after _ fun h => hs ▸ wanted (ready.writable || ready.writeClosed) h
      rw [hs] at written
      rw [he]
      rcases written with ⟨hs', he'⟩ | ⟨act, hact, hon⟩
      · simp only [endsReading, Bool.false_eq_true, if_false, hs', he']
        exact .idle
      · exact .once (.inr hact) hon
    · have written := writes b.attemptRead.after _ fun h => hs ▸ wanted (ready.writable || ready.writeClosed) h
      rw [hs] at written
      rw [he]
      rcases written with ⟨hs', he'⟩ | ⟨act, hact, hon⟩
      · simp only [endsReading, Bool.false_eq_true, if_false, hs', he']
        have fed : Act.on? b.stream (.feed data) = some (_, some .readable) := if_pos reads
        exact .once (.inl (.feed data)) fed
      · exact .twice reads hact (Act.does_of_on hon)
    · rw [if_pos hends]
      exact .once (.inl hact) hon

end Buffered

namespace Bridge

variable {σ : Type} {b : Bridge σ} {s : Stream}

theorem waits_of_sound (hsound : s.sticky = .none) (hw : s.output ≠ [] → s.writes = true) :
    Waits False False b s :=
  ⟨⟨⟨hsound, nofun, nofun⟩, hw, nofun⟩, nofun, nofun⟩

theorem windDownStream_left (hs : b.stream = some s) (ho : s.output ≠ []) :
    b.windDownStream = (b.keep ({ s with input := [] }.disable .onlyRead), .active) := by
  unfold windDownStream
  rw [hs]
  dsimp only
  rw [if_neg (by simpa [Stream.disable] using ho), conclude_of_open (keep_stream ..)]

end Bridge

namespace EventLoop

open Bridge

variable {σ : Type} [Sender σ] {b : Bridge σ} {s s' : Stream} {events : List StreamEvent}

/-! ## What serving leaves -/

/-- The output that was left cannot be written any more. -/
theorem rests_lost {e : StreamEvent} (ha : b.attached = false) (hf : b.finished = false) (hs : b.stream = some s)
    (hr : s.reads = false) (he : e = .eof .onlyWrite ∨ e = .error .onlyWrite) :
    (b.onStream e).1.Rests False False := by
  rw [onStream_of_open hf hs]
  rcases he with rfl | rfl
  · dsimp only
    rw [streamEnded_of_not_reads hs rfl hr]
    exact abandon_rests rfl
  · dsimp only
    rw [streamFailed_of_detached ha hs]
    exact abandon_rests hs

/-- Data was read and then something was written. What the connection refuses of the data is kept, and the
writing is reported to a bridge that still waits, unless its connection was lost over the data. -/
theorem rests_twice {data : List UInt8} {act : Act} {report : Option StreamEvent} (ha : b.attached = true)
    (hf : b.finished = false) (w : Waits False False b s) (hr : s.reads = true) (hact : act.Writing)
    (does : Act.Does { s with input := s.input ++ data } act s' report) :
    (carryOut (b.keep s') (.report .readable :: report.toList.map .report)).1.Rests False False := by
  have sound : s'.sticky = .none := (hact.sticky_eq does).trans w.sound
  have reads : s'.reads = true := (hact.reads_eq does).trans hr
  let o := offer b.maxChunk b.sender s'.input b.stats.bytesToConnection b.calls
  let t : Stream := { s' with input := o.rest }
  let sent := (b.keep s').offeredTo s' o
  have sends : (Task.report .readable).on (b.keep s') =
      if o.failed then sent.closeConnection.windDownStream else sent.afterSending t :=
    (onStream_of_open (b := b.keep s') hf rfl .readable).trans (sendPending_of_attached (b := b.keep s') ha rfl)
  unfold carryOut
  rw [sends]
  cases o.failed with
  | false =>
    have goes_on : sent.afterSending t = (sent, .active) := if_pos (Bool.or_eq_true_iff.mpr (.inl reads))
    simp only [Bool.false_eq_true, if_false, goes_on, reduceCtorEq]
    cases report with
    | none =>
      have writes : s'.writes = true := (hact.silent does).1
      exact .waiting (s := t) ha rfl (waits_of_sound sound fun _ => writes)
    | some e =>
      -- It is as if the data had come alone and was offered, and the writing were done only now.
      let before : Bridge σ :=
        { b with
          sender := o.sender, stream := some { s with input := o.rest }
          stats := { b.stats with bytesToConnection := o.count }, calls := o.calls }
      have waits : Waits False False before { s with input := o.rest } :=
        waits_of_sound w.sound w.writes_of_queued
      simp only [Option.toList_some, List.map_cons, List.map_nil, carryOut_singleton]
      exact (waits.act (b := before) ha hf (hact.with_input does o.rest)).of_le id False.elim
  | true =>
    have detached : sent.closeConnection.attached = false := closeConnection_attached sent
    have isOpen : sent.closeConnection.stream = some t := closeConnection_stream sent
    simp only [if_true]
    cases report with
    | none =>
      have writes : s'.writes = true := (hact.silent does).1
      have left : sent.closeConnection.windDownStream.1.Rests False False :=
        windDownStream_rests detached isOpen sound fun _ => writes
      split
      · exact left
      · exact left
    | some e =>
      simp only [Option.toList_some, List.map_cons, List.map_nil, carryOut_singleton]
      by_cases ho : s'.output = []
      · rw [windDownStream_gone detached isOpen sound ho, if_pos rfl]
        exact .finished rfl
      · rw [windDownStream_left isOpen ho, if_neg (by simp)]
        exact rests_lost detached ((closeConnection_finished sent).trans hf) rfl (Stream.reads_disable_onlyRead sound)
          ((hact.reports does).resolve_left fun h => ho h.1).2

theorem rests_served (serves : Serves s s' events) (h : b.Rests False False) (ht : b.Tidy) (hs : b.stream = some s) :
    (carryOut (b.keep s') (events.map .report)).1.Rests False False := by
  cases serves with
  | idle =>
    rw [keep_self hs]
    exact h
  | @once act s' report _ hon =>
    cases report with
    | none => exact (h.acted ht (.silent hs hon)).of_le id (by simp [reportedBy_of_on hs hon, not_inputOver_nil])
    | some e =>
      simp only [Option.toList_some, List.map_cons, List.map_nil, carryOut_singleton]
      exact (h.acted ht (.reported hs hon)).of_le id False.elim
  | twice hr hact does =>
    cases h with
    | @waiting t ha ht' w =>
      obtain rfl : s = t := Option.some.inj (hs.symm.trans ht')
      exact rests_twice ha (ht.finished_of_open hs) w hr hact does
    | @winding t ha ht' hsound henabled =>
      obtain rfl : s = t := Option.some.inj (hs.symm.trans ht')
      rw [Stream.reads_eq, henabled] at hr
      cases hr
    | finished hf => cases (ht.finished_of_open hs).symm.trans hf

theorem finishes_served (serves : Serves s s' events) (w : b.Winding s) (hf : b.finished = false) :
    (carryOut (b.keep s') (events.map .report)).2 = .finished ↔ s'.output = [] ∨ s'.writes = false := by
  have writes : s.writes = true := by
    rw [Stream.writes_eq, w.enabled]
    rfl
  cases serves with
  | idle =>
    rw [writes]
    simp [carryOut, w.output]
  | @once act s' report hact hon =>
    have does := Act.does_of_on hon
    rcases hact with hact | hact
    · cases w.reads.symm.trans (hact.reads does)
    cases report with
    | none =>
      obtain ⟨hw, ho⟩ := hact.silent does
      rw [hw]
      simp [carryOut, ho]
    | some e =>
      simp only [Option.toList_some, List.map_cons, List.map_nil, carryOut_singleton]
      have reacts : (Task.report e).on (b.keep s') = if e.endsWinding then (b.gone, .finished) else (b, .active) :=
        w.reacts hf does
      rw [reacts]
      rcases hact.reports does with ⟨ho, rfl⟩ | ⟨hw, rfl | rfl⟩
      · exact iff_of_true rfl (.inl ho)
      · exact iff_of_true rfl (.inr hw)
      · exact iff_of_true rfl (.inr hw)
  | twice hr => cases w.reads.symm.trans hr

end EventLoop

end Splice
