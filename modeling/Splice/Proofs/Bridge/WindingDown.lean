import Splice.Proofs.Bridge.Delivery
import Splice.Proofs.Bridge.Waiting

/-!
# Winding down

A bridge that has lost its connection keeps its stream for as long as output is left. The stream is then only
written, nothing that comes from the connection changes anything, and the bridge finishes as soon as the output
has been written or the stream takes no more.
-/

namespace Splice

/-- After this report a stream has nothing left to write, or cannot write it. -/
def StreamEvent.endsWinding : StreamEvent → Bool
  | .drained | .error _ => true
  | .eof d => d.contains .onlyWrite
  | _ => false

namespace Act

variable {act : Act} {s s' : Stream} {e : StreamEvent}

theorem written_of_drained (does : Does s act s' (some .drained)) : act.written s = s.output := by
  cases does with
  | @takeAll n hw _ hnone =>
    have all := List.take_append_drop n s.output
    rw [hnone, List.append_nil] at all
    rw [written, if_pos hw, all]

theorem written_of_underway (does : Does s act s' (some e)) (h : e.endsWinding = false) : act.written s = [] := by
  cases does with
  | takeAll => cases h
  | feed | finish | fail | failAll | connect => rfl

end Act

namespace Bridge

variable {σ : Type} {b c : Bridge σ} {s s' : Stream} {act : Act} {e : StreamEvent}

/-- The connection is closed, and output is left in a stream that is only written. -/
structure Winding (b : Bridge σ) (s : Stream) : Prop where
  detached : b.attached = false
  holds : b.stream = some s
  sound : s.sticky = .none
  enabled : s.enabled = .onlyWrite
  input : s.input = []
  output : s.output ≠ []

def gone (b : Bridge σ) : Bridge σ :=
  { b with stream := none, finished := true, calls := .closeStream .none 0 0 :: b.calls }

namespace Winding

theorem reads (w : b.Winding s) : s.reads = false := by
  rw [Stream.reads_eq, w.enabled]
  rfl

theorem phase (w : b.Winding s) : b.phase = .connectionClosed := by
  simp [Bridge.phase, w.detached, w.holds]

theorem holdPeer (w : b.Winding s) (peer : PeerId) : (b.holdPeer peer).Winding s := by
  rw [Bridge.holdPeer, releasePeer_eq]
  exact ⟨w.detached, w.holds, w.sound, w.enabled, w.input, w.output⟩

end Winding

theorem Rests.winding_of_phase {ended noMore : Prop} (h : b.Rests ended noMore) (ht : b.Tidy)
    (hphase : b.phase = .connectionClosed) : ∃ s, b.Winding s := by
  cases h with
  | @winding s ha hs hsound he hi ho => exact ⟨s, ha, hs, hsound, he, hi, ho⟩
  | waiting ha hs =>
    simp only [phase, ha, hs] at hphase
    split at hphase <;> cases hphase
  | finished hf =>
    obtain ⟨ha, hs⟩ := ht.finished_iff.mp hf
    simp [phase, ha, hs] at hphase

/-! ## Closing -/

theorem closeStream_gone (ha : b.attached = false) (hs : b.stream = some s) (he : s.enabled = .none)
    (hi : s.input = []) (ho : s.output = []) : b.closeStream.conclude = (b.gone, .finished) := by
  rw [closeStream_conclude ha hs hi ho (he ▸ Directions.none_subset _), if_pos he, he]
  rfl

theorem windDownStream_gone (ha : b.attached = false) (hs : b.stream = some s) (hsound : s.sticky = .none)
    (ho : s.output = []) : b.windDownStream = (b.gone, .finished) := by
  unfold windDownStream
  rw [hs]
  dsimp only
  rw [if_pos (by simp [Stream.disable, ho])]
  refine closeStream_gone ha rfl ?_ rfl ho
  exact (Directions.subset_none_iff _).mp (hsound ▸ Directions.sdiff_sdiff_subset ..)

theorem abandon_gone (ha : b.attached = false) (hs : b.stream = some s) (hsound : s.sticky = .none) :
    b.abandon = (b.gone, .finished) := by
  unfold abandon discardStream
  simp only [ha, Bool.false_eq_true, if_false, hs]
  refine closeStream_gone ha rfl ?_ rfl rfl
  exact (Directions.subset_none_iff _).mp (hsound ▸ Directions.sdiff_both_sdiff_subset ..)

/-! ## What has come of it -/

inductive WoundDown (b : Bridge σ) (written : List UInt8) (reports : List StreamEvent) (c : Bridge σ) : Prop
  | underway {s : Stream} : c.Winding s → c.stats = b.stats → written ++ c.queued = b.queued →
      (∀ e ∈ reports, e.endsWinding = false) → WoundDown b written reports c
  | ended : c.finished = true → (∃ e ∈ reports, e.endsWinding = true) →
      (.drained ∈ reports → written = b.queued) → WoundDown b written reports c

theorem WoundDown.winding {written : List UInt8} {reports : List StreamEvent} (h : b.WoundDown written reports c)
    (hf : c.finished = false) : ∃ s, c.Winding s := by
  cases h with
  | underway w => exact ⟨_, w⟩
  | ended hf' => cases hf.symm.trans hf'

theorem WoundDown.trans {written written' : List UInt8} {reports reports' : List StreamEvent} {d : Bridge σ}
    (h : b.WoundDown written reports c) (hopen : c.finished = false) (h' : c.WoundDown written' reports' d) :
    b.WoundDown (written ++ written') (reports ++ reports') d := by
  cases h with
  | ended hf => cases hf.symm.trans hopen
  | underway _ hstats hq hnone =>
    cases h' with
    | underway w' hstats' hq' hnone' =>
      refine .underway w' (hstats'.trans hstats) ?_ ?_
      · rw [List.append_assoc, hq', hq]
      · simpa [or_imp, forall_and] using ⟨hnone, hnone'⟩
    | ended hf hends hall =>
      refine .ended hf ?_ fun hdrained => ?_
      · obtain ⟨e, he, ends⟩ := hends
        exact ⟨e, List.mem_append_right _ he, ends⟩
      · rcases List.mem_append.mp hdrained with earlier | now
        · cases hnone _ earlier
        · rw [hall now, hq]

variable [Sender σ]

/-! ## Reports -/

theorem Winding.reacts (w : b.Winding s) (hf : b.finished = false) (does : Act.Does s act s' (some e)) :
    (b.keep s').onStream e = if e.endsWinding then (b.gone, .finished) else (b, .active) := by
  have failed : ∀ d, (b.keep (s.withdraw d)).streamFailed d = (b.gone, .finished) := by
    intro d
    rw [streamFailed_of_detached (b := b.keep (s.withdraw d)) w.detached rfl]
    exact abandon_gone (b := b.keep (s.withdraw d)) w.detached rfl w.sound
  rw [onStream_of_open (b := b.keep s') hf rfl]
  cases does with
  | feed hr => cases w.reads.symm.trans hr
  | takeAll =>
    unfold outputDrained
    simp only [keep_stream, List.isEmpty_nil, Bool.not_true, Bool.false_eq_true, if_false, keep_attached,
      w.detached, Bool.not_false, if_true]
    exact windDownStream_gone (b := b.keep { s with output := [] }) w.detached rfl w.sound rfl
  | @finish d hd =>
    have not_reads : (s.withdraw d).reads = false := by rw [Stream.reads_withdraw, w.reads, Bool.false_and]
    cases hw : d.write with
    | true =>
      simp only [StreamEvent.endsWinding, Directions.contains_onlyWrite, hw, if_true]
      rw [streamEnded_of_not_reads rfl hw not_reads]
      exact abandon_gone (b := b.keep ((s.withdraw d).disable .onlyWrite)) w.detached rfl w.sound
    | false =>
      -- Only writing was left, so the report ends nothing at all.
      have hr : d.read = false := by
        by_contra h
        have reads := hd.1 (by simpa using h)
        rw [w.enabled] at reads
        cases reads
      simp only [StreamEvent.endsWinding, Directions.contains_onlyWrite, hw, Bool.false_eq_true, if_false]
      rw [streamEnded_of_not_write hw, if_neg (by simp [hr]), (Directions.eq_none_iff d).mpr ⟨hr, hw⟩,
        Stream.withdraw_none, keep_self w.holds]
  | @fail d => exact failed d
  | failAll => exact failed .both
  | connect =>
    rw [keep_self w.holds]
    rfl

/-! ## Moves -/

theorem Winding.move (w : b.Winding s) (ht : b.Tidy) (m : Move) :
    b.WoundDown (b.writtenBy m) (b.reportedBy m) (b.move m) := by
  have hf : b.finished = false := ht.finished_of_open w.holds
  cases m with
  | connection e =>
    rw [Bridge.move, onConnection_detached ht.toSound hf w.detached]
    exact .underway w rfl rfl (by simp [reportedBy])
  | hold peer =>
    refine .underway (w.holdPeer peer) ?_ ?_ (by simp [reportedBy])
    · rw [Bridge.move, Bridge.holdPeer, releasePeer_eq]
    · rw [Bridge.move, Bridge.holdPeer, releasePeer_eq]
      rfl
  | stream act =>
    have taken : b.writtenBy (.stream act) = act.written s := by simp [writtenBy, w.holds]
    have acted := move_acted b act
    generalize b.move (.stream act) = c at acted ⊢
    cases acted with
    | impossible hno =>
      rw [w.holds, Option.bind_some] at hno
      refine .underway w rfl ?_ ?_
      · rw [taken, Act.written_of_impossible hno, List.nil_append]
      · rw [reportedBy, w.holds, Option.bind_some, hno]
        simp
    | @silent t t' ht' hon =>
      obtain rfl : s = t := Option.some.inj (w.holds.symm.trans ht')
      rw [reportedBy_of_on w.holds hon, taken]
      cases Act.does_of_on hon with
      | @takeSome n hw hrest =>
        refine .underway ⟨w.detached, rfl, w.sound, w.enabled, w.input, hrest⟩ rfl ?_ (by simp)
        rw [Act.written, if_pos hw, queued_of_open (keep_stream ..), queued_of_open w.holds]
        exact List.take_append_drop n s.output
    | @reported t t' e ht' hon =>
      obtain rfl : s = t := Option.some.inj (w.holds.symm.trans ht')
      have does := Act.does_of_on hon
      rw [reportedBy_of_on w.holds hon, taken, react, w.reacts hf does]
      cases hends : e.endsWinding with
      | true =>
        refine .ended rfl ⟨e, List.mem_singleton_self e, hends⟩ fun hdrained => ?_
        obtain rfl := List.mem_singleton.mp hdrained
        rw [Act.written_of_drained does, queued_of_open w.holds]
      | false =>
        refine .underway w rfl ?_ (by simp [hends])
        rw [Act.written_of_underway does hends]
        rfl

theorem move_finished (ht : b.Tidy) (hf : b.finished = true) (m : Move) :
    (b.move m).finished = true ∧ b.writtenBy m = [] ∧ b.reportedBy m = [] := by
  have hs : b.stream = none := (ht.finished_iff.mp hf).2
  cases m with
  | connection e =>
    rw [move, show b.onConnection e = _ from react_late hf (.connection e)]
    exact ⟨hf, rfl, rfl⟩
  | hold peer =>
    rw [move, holdPeer, releasePeer_eq]
    exact ⟨hf, rfl, rfl⟩
  | stream act => simp [move, writtenBy, reportedBy, hs, hf]

theorem Winding.play (w : b.Winding s) (ht : b.Tidy) (later : List Move) :
    b.WoundDown (b.written later) (b.reported later) (b.play later) := by
  induction later using List.reverseRecOn with
  | nil => exact .underway w rfl rfl (by simp [reported, Run.gather])
  | append_singleton later m ih =>
    rw [play_snoc, written_snoc, reported_snoc]
    have tidy := ht.play later
    generalize b.play later = c at *
    -- A finished bridge stays as it is; until then it winds down, and goes on with the last move.
    cases hf : c.finished with
    | true =>
      obtain ⟨hf', nothing, unreported⟩ := move_finished tidy hf m
      rw [nothing, unreported, List.append_nil, List.append_nil]
      cases ih with
      | underway w' => cases (tidy.finished_of_open w'.holds).symm.trans hf
      | ended _ hends hall => exact .ended hf' hends hall
    | false =>
      obtain ⟨s', w'⟩ := ih.winding hf
      exact ih.trans hf (w'.move tidy m)

/-- In every run over a behaving stream that has come to where only the stream is left. -/
theorem winds_down (sender : σ) (config : Config) (moves later : List Move)
    (hphase : ((new sender {} config).play moves).phase = .connectionClosed) :
    let b := (new sender {} config).play moves
    let c := b.play later
    (∃ s, b.stream = some s ∧ s.enabled = .onlyWrite ∧ s.input = [] ∧ s.output ≠ []) ∧
    (∀ e, b.onConnection e = (b, .active)) ∧
    (∀ (act : Act) (s s' : Stream) (e : StreamEvent), b.stream = some s → act.on? s = some (s', some e) →
      (b.keep s').onStream e =
        if e.endsWinding then
          ({ b with stream := none, finished := true, calls := .closeStream .none 0 0 :: b.calls }, .finished)
        else (b, .active)) ∧
    (c.finished = false → c.phase = .connectionClosed ∧ c.stats = b.stats ∧ b.written later ++ c.queued = b.queued) ∧
    (c.finished = true ↔ ∃ e ∈ b.reported later, e.endsWinding = true) ∧
    (.drained ∈ b.reported later → b.written later = b.queued) := by
  intro b c
  have tidy : b.Tidy := (tidy_new sender {} config).play moves
  obtain ⟨s, w⟩ := (rests_play sender config moves).winding_of_phase tidy hphase
  have hf : b.finished = false := tidy.finished_of_open w.holds
  have wound : b.WoundDown (b.written later) (b.reported later) c := w.play tidy later
  refine ⟨⟨s, w.holds, w.enabled, w.input, w.output⟩, onConnection_detached tidy.toSound hf w.detached, ?_, ?_⟩
  · intro act t s' e ht hon
    obtain rfl : s = t := Option.some.inj (w.holds.symm.trans ht)
    exact w.reacts hf (Act.does_of_on hon)
  cases wound with
  | underway w' hstats hq hnone =>
    have hopen : c.finished = false := (tidy.play later).finished_of_open w'.holds
    refine ⟨fun _ => ⟨w'.phase, hstats, hq⟩, ?_, fun hdrained => ?_⟩
    · simpa [hopen] using hnone
    · cases hnone _ hdrained
  | ended hf' hends hall =>
    refine ⟨fun hopen => ?_, iff_of_true hf' hends, hall⟩
    cases hopen.symm.trans hf'

/-- The connection fails with two bytes queued. One is written, a late failure of the connection changes
nothing, and with the other the bridge finishes. -/
theorem winds_down_in_two_takes :
    let moves : List Move := [.connection (.read [1, 2]), .stream (.feed [3]), .connection (.error .reset)]
    let later : List Move := [.stream (.take 1), .connection (.error .timedOut)]
    let start := new (Script.mk [.accepted 0] none) {} {}
    let b := start.play moves
    b.phase = .connectionClosed ∧
    (∃ s, b.stream = some s ∧ s.enabled = .onlyWrite ∧ s.input = [] ∧ s.output ≠ []) ∧
    ((b.play later).finished = false ∧ (b.play later).phase = .connectionClosed ∧
      (b.play later).stats = b.stats ∧ [1] ++ (b.play later).queued = [1, 2]) ∧
    (b.play (later ++ [.stream (.take 1)])).finished = true := by
  intro moves later start b
  have phase : b.phase = .connectionClosed := by decide +kernel
  obtain ⟨left, -, -, underway, -, -⟩ := winds_down (Script.mk [.accepted 0] none) {} moves later phase
  obtain ⟨-, -, -, -, ends, -⟩ :=
    winds_down (Script.mk [.accepted 0] none) {} moves (later ++ [.stream (.take 1)]) phase
  have hopen : (b.play later).finished = false := by decide +kernel
  obtain ⟨still, same, shrinks⟩ := underway hopen
  have written : b.written later = [1] := by decide +kernel
  have queued : b.queued = [1, 2] := by decide +kernel
  rw [written, queued] at shrinks
  exact ⟨phase, left, ⟨hopen, still, same, shrinks⟩, ends.mpr ⟨.drained, by decide +kernel, rfl⟩⟩

end Bridge

end Splice
