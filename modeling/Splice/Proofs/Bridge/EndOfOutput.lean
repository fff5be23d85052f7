import Splice.Proofs.Bridge.Course
import Splice.Proofs.Bridge.Parting

/-!
# The end of the output

The stream is told that no more will be written once the connection has ended and everything that it
delivered has been written. It is told at most once and never too early; left untold is only a stream that
has itself reported that it takes no more.
-/

namespace Splice.Bridge

variable {σ : Type} {event : Event} {noMore noMore' : Prop} {b c d : Bridge σ} {s s' : Stream}
  {r : Bridge σ × Status}

def OutputOver (reports : List StreamEvent) : Prop := ∃ e ∈ reports, (Event.stream e).endsOutput = true

/-- The stream of an attached bridge is written until it takes no more or was told that no more will come. -/
def WritesUntil (noMore : Prop) (b : Bridge σ) : Prop :=
  b.attached = true → ∀ s, b.stream = some s → s.writes = false → .shutdownStream ∈ b.calls ∨ noMore

namespace WritesUntil

theorem of_le (h : b.WritesUntil noMore) (ho : noMore → noMore') : b.WritesUntil noMore' :=
  fun ha s hs hw => (h ha s hs hw).imp_right ho

theorem of_same (h : b.WritesUntil noMore) (hcalls : b.calls ⊆ c.calls)
    (hstream : c.attached = true → ∀ s', c.stream = some s' →
      b.attached = true ∧ ∃ s, b.stream = some s ∧ s'.writes = s.writes) : c.WritesUntil noMore := by
  intro ha s' hs' hw
  obtain ⟨hb, s, hs, same⟩ := hstream ha s' hs'
  exact (h hb s hs (same.symm.trans hw)).imp_left fun hc => hcalls hc

theorem act {act : Act} {report : Option StreamEvent} (h : b.WritesUntil noMore) (hs : b.stream = some s)
    (does : Act.Does s act s' report) : (b.keep s').WritesUntil (noMore ∨ OutputOver report.toList) := by
  rintro ha _ ⟨⟩ hw
  cases does with
  | feed | takeSome | takeAll | connect => exact (h ha s hs hw).imp_right .inl
  | @finish d | @fail d =>
    rw [Stream.writes_withdraw, Bool.and_eq_false_iff, Bool.not_eq_false'] at hw
    rcases hw with hw | hd
    · exact (h ha s hs hw).imp_right .inl
    · exact .inr (.inr ⟨_, List.mem_singleton_self _, by simpa [Event.endsOutput] using hd⟩)
  | failAll => exact .inr (.inr ⟨_, List.mem_singleton_self _, rfl⟩)

end WritesUntil

/-- If the stream is told that no more will be written, then once, and with nothing left to write. -/
inductive EndsOutput [Sender σ] (b : Bridge σ) : Bridge σ → Prop
  | untold {c : Bridge σ} : MakesOnly (· ≠ .shutdownStream) b c → EndsOutput b c
  | told {c : Bridge σ} {s : Stream} : MakesOnly (· ≠ .shutdownStream) b c → c.stream = some s →
      s.writes = true → s.output = [] → EndsOutput b c.endOutput.1

/-- The stream is told only once nothing is queued, and nothing is queued after that. -/
def ToldDrained (b : Bridge σ) : Prop := .shutdownStream ∈ b.calls → b.queued = []

theorem ToldDrained.act {act : Act} {report : Option StreamEvent} (h : b.ToldDrained) (hs : b.stream = some s)
    (does : Act.Does s act s' report) : (b.keep s').ToldDrained := by
  intro htold
  have drained := h htold
  rw [queued_of_open hs] at drained
  rw [queued_of_open (keep_stream b s')]
  cases does with
  | feed | finish | fail | failAll | connect => exact drained
  | takeSome => simp [drained]
  | takeAll => rfl

theorem ToldDrained.holdPeer (h : b.ToldDrained) (peer : PeerId) : (b.holdPeer peer).ToldDrained := by
  rw [Bridge.holdPeer, releasePeer_eq]
  intro htold
  rcases List.mem_append.mp htold with released | hearlier
  · cases b.releases_toPeer _ released
  · exact h hearlier

variable [Sender σ]

/-! ## Until when the stream is written -/

theorem Quietly.writesUntil (q : Quietly event b c) (h : b.WritesUntil noMore) :
    c.WritesUntil (noMore ∨ event.endsOutput = true) := by
  intro ha s' hs' hw
  obtain ⟨hb, s, hs, -, same | ends⟩ := q.stream ha s' hs'
  · exact (h hb s hs (same.symm.trans hw)).imp (fun hc => q.deeds.calls_subset hc) .inl
  · exact .inr (.inr ends)

theorem sendPending_writesUntil (ha : b.attached = true) (hs : b.stream = some s) (hf : b.finished = false)
    (h : b.WritesUntil noMore) : b.sendPending.1.WritesUntil noMore := by
  have offers : (b.offeredTo s (b.offers s)).WritesUntil noMore := by
    obtain ⟨made, hcalls, -⟩ := b.offers_makesOnly s
    refine h.of_same (hcalls ▸ List.subset_append_right _ _) ?_
    rintro - _ ⟨⟩
    exact ⟨ha, s, hs, rfl⟩
  have passes := sendPending_passes ha hs hf
  generalize b.sendPending.1 = c at passes ⊢
  cases passes with
  | parts ha' => exact fun ha => by cases ha.symm.trans ha'
  | waits => exact offers
  | tells => exact offers.of_same (List.subset_cons_self _ _) fun ha s hs => ⟨ha, s, hs, rfl⟩

theorem endOutput_writesUntil (ha : b.attached = true) (hs : b.stream = some s) (hf : b.finished = false)
    (h : b.WritesUntil noMore) : b.endOutput.1.WritesUntil noMore := by
  refine endOutput_rule (P := WritesUntil noMore) hs (fun _ => h) (fun _ => ?_) id ?_
  · exact fun _ _ _ _ => .inl List.mem_cons_self
  · intro c s' kept ha' hs' hf'
    exact sendPending_writesUntil (ha'.trans ha) hs' (hf'.trans hf) kept

theorem Course.writesUntil (course : Course event b r) (ht : b.Tidy) (h : b.WritesUntil noMore) :
    r.1.WritesUntil (noMore ∨ event.endsOutput = true) := by
  refine course.rule (P := WritesUntil (noMore ∨ event.endsOutput = true)) ht (·.writesUntil h) id ?_ ?_
  · exact fun kept ha hs hf => sendPending_writesUntil ha hs hf kept
  · exact fun kept ha hs hf _ => endOutput_writesUntil ha hs hf kept

theorem WritesUntil.react (h : b.WritesUntil noMore) (ht : b.Tidy) (event : Event) :
    (b.react event).1.WritesUntil (noMore ∨ event.endsOutput = true) := by
  cases hf : b.finished with
  | true =>
    rw [react_late hf]
    exact WritesUntil.of_le h .inl
  | false => exact (react_course ht.toSound hf event).writesUntil ht h

theorem WritesUntil.acted {act : Act} (h : b.WritesUntil noMore) (acted : Acted act b c) (ht : b.Tidy) :
    c.WritesUntil (noMore ∨ OutputOver (b.reportedBy (.stream act))) := by
  cases acted with
  | impossible => exact h.of_le .inl
  | silent hs hon =>
    rw [reportedBy_of_on hs hon]
    exact h.act hs (Act.does_of_on hon)
  | @reported s s' e hs hon =>
    rw [reportedBy_of_on hs hon]
    refine ((h.act hs (Act.does_of_on hon)).react (ht.keep hs s') (.stream e)).of_le ?_
    rintro (hover | ends)
    · exact hover
    · exact .inr ⟨e, List.mem_singleton_self e, ends⟩

theorem WritesUntil.move (h : b.WritesUntil noMore) (ht : b.Tidy) (m : Move) :
    (b.move m).WritesUntil (noMore ∨ OutputOver (b.reportedBy m)) := by
  cases m with
  | connection e =>
    have kept : (b.react (.connection e)).1.WritesUntil _ := h.react ht (.connection e)
    exact kept.of_le (by simp +contextual [Event.endsOutput])
  | hold peer =>
    rw [Bridge.move, holdPeer, releasePeer_eq]
    refine (WritesUntil.of_same h (List.subset_append_right _ _) ?_).of_le .inl
    exact fun ha s hs => ⟨ha, s, hs, rfl⟩
  | stream act => exact h.acted (move_acted b act) ht

theorem EndsOutput.after (h : MakesOnly (· ≠ .shutdownStream) b c) (ends : c.EndsOutput d) : b.EndsOutput d := by
  cases ends with
  | untold h' => exact .untold (h.trans h')
  | told h' hs hw ho => exact .told (h.trans h') hs hw ho

theorem sendPending_unmade (ha : b.attached = true) (hs : b.stream = some s) (hf : b.finished = false) :
    MakesOnly (· ≠ .shutdownStream) b b.sendPending.1 := by
  have sends : MakesOnly (· ≠ .shutdownStream) b (b.offeredTo s (b.offers s)) := b.offers_unmade s rfl
  have passes := sendPending_passes ha hs hf
  generalize b.sendPending.1 = c at passes ⊢
  cases passes with
  | parts _ quiet => exact quiet.unmade rfl
  | waits => exact sends
  | tells => exact sends.trans (.one rfl (by simp))

theorem endOutput_endsOutput (ha : b.attached = true) (hs : b.stream = some s) (hf : b.finished = false)
    (ho : s.output = []) : b.EndsOutput b.endOutput.1 := by
  cases hw : s.writes with
  | true => exact .told (.none rfl) hs hw ho
  | false =>
    refine .untold (endOutput_rule (P := MakesOnly (· ≠ .shutdownStream) b) hs (fun _ => .none rfl) ?_ id ?_)
    · intro hw'
      cases hw.symm.trans hw'
    · intro c s' unmade ha' hs' hf'
      exact unmade.trans (sendPending_unmade (ha'.trans ha) hs' (hf'.trans hf))

theorem Course.endsOutput_told (course : Course event b r) (h : b.Tidy) : b.EndsOutput r.1 := by
  refine course.rule (P := MakesOnly (· ≠ .shutdownStream) b) h (·.unmade rfl) .untold ?_ ?_
  · exact fun unmade ha hs hf => .untold (unmade.trans (sendPending_unmade ha hs hf))
  · exact fun unmade ha hs hf ho => .after unmade (endOutput_endsOutput ha hs hf ho)

theorem Tidy.endsOutput (h : b.Tidy) (m : Move) : b.EndsOutput (b.move m) := by
  have moved := h.moved m
  generalize b.move m = c at moved ⊢
  cases moved with
  | aside toPeer => exact .untold ((toPeer.mono fun _ => Call.endsHalf_of_toPeer).unmade rfl)
  | reacts tidy hcalls _ course => exact .after (.none hcalls) (course.endsOutput_told tidy)

/-! ## What is queued after the end -/

section Runs

variable (sender : σ) (config : Config) (moves : List Move)

end Runs

end Splice.Bridge
