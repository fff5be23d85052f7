import Splice.Proofs.Bridge.Lifecycle

/-!
# Clean teardown

Whatever leads to it, a stream is closed with nothing buffered and with nothing enabled but what it refuses
to give up, and the violations counted are those of that refusal and of the events that come too late.
-/

namespace Splice

/-- The stream is closed with a direction still enabled. -/
def Call.closesEnabled : Call → Bool
  | closeStream enabled _ _ => !enabled.isEmpty
  | _ => false

theorem Call.closesStream_of_closesEnabled {call : Call} (h : call.closesEnabled = true) :
    call.closesStream = true := by
  cases call <;> simp_all [Call.closesEnabled, Call.closesStream]

theorem Call.not_closesStream_of_toPeer {call : Call} (h : call.toPeer = true) : ¬ call.closesStream = true := by
  cases call <;> simp_all [Call.toPeer, Call.closesStream]

namespace Bridge

variable {σ : Type} {event : Event} {attached : Bool} {b c : Bridge σ} {s s' : Stream} {stuck : Directions}
  {late : UInt64}

/-- If the call closes the stream, it does so with nothing buffered and only stuck directions enabled. -/
def ClosesEmpty (stuck : Directions) (call : Call) : Prop :=
  ∀ enabled input output, call = .closeStream enabled input output →
    enabled ⊆ stuck ∧ input = 0 ∧ output = 0

/-- What holds of a bridge over a stream with stuck directions, after a number of late events. -/
structure Clean (stuck : Directions) (late : UInt64) (b : Bridge σ) : Prop where
  sticky : ∀ s, b.stream = some s → s.sticky = stuck
  closes : ∀ call ∈ b.calls, ClosesEmpty stuck call
  counted : b.stats.invariantViolations = (if b.calls.any Call.closesEnabled then 1 else 0) + late

theorem Adjusts.sticky_eq (h : Adjusts event attached s s') : s'.sticky = s.sticky := by
  cases h <;> rfl

namespace Clean

theorem sticky_of_eq (h : b.Clean stuck late) (hs : b.stream = some s) (he : s'.sticky = s.sticky) :
    ∀ t, some s' = some t → t.sticky = stuck := by
  rintro t ⟨⟩
  exact he.trans (h.sticky s hs)

theorem of_calls (h : b.Clean stuck late) (made : List Call) (hcalls : c.calls = made ++ b.calls)
    (hmade : ∀ call ∈ made, ¬ call.closesStream = true) (hs : ∀ s, c.stream = some s → s.sticky = stuck)
    (hv : c.stats.invariantViolations = b.stats.invariantViolations) : c.Clean stuck late := by
  have hany : made.any Call.closesEnabled = false := by
    rw [List.any_eq_false]
    exact fun call hc he => hmade call hc (Call.closesStream_of_closesEnabled he)
  refine ⟨hs, ?_, ?_⟩
  · intro call hc
    rw [hcalls, List.mem_append] at hc
    rcases hc with hc | hc
    · rintro enabled input output rfl
      exact absurd rfl (hmade _ hc)
    · exact h.closes call hc
  · rw [hv, h.counted, hcalls, List.any_append, hany, Bool.false_or]

theorem change (h : b.Clean stuck late) (f : Stream → Stream) (hf : ∀ s, (f s).sticky = s.sticky) :
    (b.change f).Clean stuck late := by
  cases hs : b.stream with
  | none =>
    rw [change_of_closed hs]
    exact h
  | some s =>
    rw [change_of_open hs]
    exact h.of_calls [] rfl (by simp) (h.sticky_of_eq hs (hf s)) rfl

theorem holdPeer (h : b.Clean stuck late) (peer : PeerId) : (b.holdPeer peer).Clean stuck late := by
  rw [Bridge.holdPeer, releasePeer_eq]
  exact h.of_calls b.releases rfl (fun call hc => Call.not_closesStream_of_toPeer (b.releases_toPeer call hc))
    h.sticky rfl

theorem countViolation (h : b.Clean stuck late) : b.countViolation.Clean stuck (late + 1) := by
  refine ⟨h.sticky, h.closes, ?_⟩
  show b.stats.invariantViolations + 1 = _
  rw [h.counted, UInt64.add_assoc]
  rfl

end Clean

theorem clean_new (sender : σ) (stream : Stream) (config : Config) :
    (new sender stream config).Clean stream.sticky 0 := by
  refine ⟨?_, by simp [new], rfl⟩
  rintro s ⟨⟩
  rfl

variable [Sender σ]

theorem Deed.clean (d : Deed event b c) (ht : b.Tidy) (h : b.Clean stuck late) : c.Clean stuck late := by
  cases d with
  | send _ hs _ =>
    exact h.of_calls [_] rfl (by simp [Call.closesStream]) (h.sticky_of_eq hs rfl) rfl
  | @tell s call _ _ tells =>
    refine h.of_calls [call] rfl ?_ h.sticky rfl
    cases tells <;> simp [Call.closesStream]
  | suspend _ _ => exact h.of_calls [] rfl (by simp) h.sticky rfl
  | announce _ _ =>
    rw [connected_eq]
    exact h.of_calls b.announces rfl
      (fun call hc => Call.not_closesStream_of_toPeer (b.announces_toPeer call hc)) h.sticky rfl
  | @receive data ha _ =>
    obtain ⟨s, hs⟩ := ht.stream_of_attached ha
    cases hw : s.writes with
    | true =>
      rw [queueOutput_of_writes data hs hw]
      exact h.of_calls [] rfl (by simp) (h.sticky_of_eq hs rfl) rfl
    | false =>
      rw [queueOutput_of_not_writes data hs hw]
      exact h.of_calls [] rfl (by simp) h.sticky rfl
  | endOutput _ _ hs _ =>
    exact h.of_calls [_] rfl (by simp [Call.closesStream]) (h.sticky_of_eq hs rfl) rfl
  | adjust hs adjusts =>
    exact h.of_calls [] rfl (by simp) (h.sticky_of_eq hs adjusts.sticky_eq) rfl
  | closeConnection ha hs =>
    refine h.of_calls b.closing (closeConnection_calls ha) ?_ ?_ (by rw [closeConnection_eq ha])
    · intro call hc
      rcases closing_cases hc with hc | rfl
      · exact Call.not_closesStream_of_toPeer hc
      · simp [Call.closesStream]
    · rw [closeConnection_stream]
      exact h.sticky
  | @closeStream s ha hs hi ho he =>
    rw [h.sticky s hs] at he
    -- As long as the stream is open no call has closed it, so this one alone decides the count.
    have hnone : b.calls.any Call.closesEnabled = false := by
      rw [List.any_eq_false]
      exact fun call hc he =>
        (ht.orderly_open hs).stream_open call hc (Call.closesStream_of_closesEnabled he)
    rw [closeStream_conclude ha hs hi ho (by rwa [h.sticky s hs])]
    refine ⟨by simp, ?_, ?_⟩
    · intro call hc
      rcases List.mem_cons.mp hc with rfl | hc
      · rintro enabled input output ⟨⟩
        exact ⟨he, rfl, rfl⟩
      · exact h.closes call hc
    · have hcounted := h.counted
      rw [hnone, if_neg (by simp), UInt64.zero_add] at hcounted
      by_cases hne : s.enabled = .none
      · simp [Call.closesEnabled, hne, hnone, hcounted]
      · simp [Call.closesEnabled, hne, countViolation, hcounted, UInt64.add_comm]

theorem Clean.step {n : Nat} (h : b.Clean stuck n.toUInt64) (ht : b.Tidy) (s : Step) :
    (b.step s).Clean stuck (n + (b.lateEvent s).length).toUInt64 := by
  cases s with
  | event event =>
    cases hf : b.finished with
    | true =>
      have next : (n + 1).toUInt64 = n.toUInt64 + 1 := UInt64.ofNat_add n 1
      rw [Bridge.step, react_late hf, lateEvent, if_pos hf, List.length_singleton, next]
      exact h.countViolation
    | false =>
      have kept := (react_reacts ht.toSound hf event).deeds.preserves
        (P := fun c => c.Tidy ∧ c.Clean stuck n.toUInt64)
        (fun d hc => ⟨d.tidy hc.1, d.clean hc.1 hc.2⟩) ⟨ht, h⟩
      rw [lateEvent, hf]
      exact kept.2
  | append | replaceInput | replaceOutput | setEnabled => exact h.change _ fun _ => rfl
  | hold peer => exact h.holdPeer peer

theorem clean_run (sender : σ) (stream : Stream) (config : Config) (steps : List Step) :
    let start := new sender stream config
    (start.run steps).Clean stream.sticky (start.lateEvents steps).length.toUInt64 := by
  intro start
  induction steps using List.reverseRecOn with
  | nil => exact clean_new sender stream config
  | append_singleton steps s ih =>
    rw [run_snoc, lateEvents_snoc, List.length_append]
    exact ih.step ((tidy_new sender stream config).run steps) s

/-- In every run, over a stream that may refuse to give up some directions. -/
theorem teardown_clean (sender : σ) (stream : Stream) (config : Config) (steps : List Step) :
    let start := new sender stream config
    let b := start.run steps
    let late := (start.lateEvents steps).length.toUInt64
    (∀ enabled input output, .closeStream enabled input output ∈ b.trace →
      enabled ⊆ stream.sticky ∧ input = 0 ∧ output = 0) ∧
    b.stats.invariantViolations = (if b.trace.any Call.closesEnabled then 1 else 0) + late ∧
    (stream.sticky = .none →
      (∀ enabled input output, .closeStream enabled input output ∈ b.trace →
        enabled = .none ∧ input = 0 ∧ output = 0) ∧
      b.stats.invariantViolations = late ∧
      b.trace.count .closeConnection ≤ 1 ∧ b.trace.countP Call.closesStream ≤ 1) := by
  intro start b late
  have hb : b.Clean stream.sticky late := clean_run sender stream config steps
  have order : InOrder b.trace := ((tidy_new sender stream config).run steps).orderly.inOrder
  have closes : ∀ enabled input output, .closeStream enabled input output ∈ b.trace →
      enabled ⊆ stream.sticky ∧ input = 0 ∧ output = 0 := by
    intro enabled input output hc
    exact hb.closes _ (List.mem_reverse.mp hc) enabled input output rfl
  have counted : b.stats.invariantViolations = (if b.trace.any Call.closesEnabled then 1 else 0) + late := by
    rw [trace, List.any_reverse]
    exact hb.counted
  refine ⟨closes, counted, fun hsound => ?_⟩
  rw [hsound] at closes
  have quiet : ∀ enabled input output, .closeStream enabled input output ∈ b.trace →
      enabled = .none ∧ input = 0 ∧ output = 0 := by
    intro enabled input output hc
    obtain ⟨he, hi, ho⟩ := closes enabled input output hc
    exact ⟨(Directions.subset_none_iff enabled).mp he, hi, ho⟩
  have none_enabled : b.trace.any Call.closesEnabled = false := by
    rw [List.any_eq_false]
    intro call hc he
    cases call with
    | closeStream enabled input output =>
      rw [Call.closesEnabled, (quiet enabled input output hc).1] at he
      cases he
    | _ => cases he
  rw [none_enabled, if_neg (by decide), UInt64.zero_add] at counted
  exact ⟨quiet, counted, order.connection_closed_once, order.stream_closed_once⟩

/-- A stream that cannot stop writing is closed by force; one more event comes too late. -/
theorem teardown_clean_forced :
    let fails := Step.event (.connection (.error .reset))
    let forced := (new Unlimited.mk { input := [1], sticky := .onlyWrite } {}).run [fails, fails]
    let sound := (new Unlimited.mk { input := [1] } {}).run [fails, fails]
    .closeStream .onlyWrite 0 0 ∈ forced.trace ∧ Directions.onlyWrite ⊆ .onlyWrite ∧
      forced.stats.invariantViolations = 2 ∧ sound.stats.invariantViolations = 1 := by
  intro fails forced sound
  have closed : .closeStream .onlyWrite 0 0 ∈ forced.trace := by decide
  obtain ⟨closes, counted, -⟩ :=
    teardown_clean Unlimited.mk { input := [1], sticky := .onlyWrite } {} [fails, fails]
  obtain ⟨-, -, clean⟩ := teardown_clean Unlimited.mk { input := [1] } {} [fails, fails]
  exact ⟨closed, (closes _ _ _ closed).1, counted.trans (by decide), (clean rfl).2.1.trans (by decide)⟩

end Bridge

end Splice
