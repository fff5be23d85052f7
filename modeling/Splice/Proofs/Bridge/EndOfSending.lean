import Splice.Proofs.Bridge.Course
import Splice.Proofs.Bridge.Parting

/-!
# The end of sending

The connection is told that no more will be sent once the stream has ended its input and the connection has
taken everything that it gave. It is neither told too early nor left untold.
-/

namespace Splice

theorem Call.sent_of_not_isSend {call : Call} (h : call.isSend = false) : call.sent = [] := by
  cases call <;> simp_all [isSend, sent]

namespace Bridge

variable {σ : Type} {event : Event} {b c d : Bridge σ} {s : Stream} {r : Bridge σ × Status} {last : Call}
  {fed : List UInt8}

theorem MakesOnly.made_eq {made : List Call} (h : MakesOnly (· ≠ last) b c)
    (hcalls : last :: c.calls = made ++ b.calls) :
    ∃ earlier, made = last :: earlier ∧ last ∉ earlier := by
  obtain ⟨earlier, hearlier, hne⟩ := h
  refine ⟨earlier, ?_, fun hmem => hne last hmem rfl⟩
  rw [hearlier, ← List.cons_append] at hcalls
  exact (List.append_cancel_right hcalls).symm

/-! ## What a move tells the connection -/

/-- If the connection is told that no more will be sent, then last of all, and of a stream that has ended
with nothing left. -/
inductive EndsSending (b : Bridge σ) : Bridge σ → Prop
  | untold {c : Bridge σ} : MakesOnly (· ≠ .shutdown .transmit) b c → EndsSending b c
  | told {c : Bridge σ} {s : Stream} : MakesOnly (· ≠ .shutdown .transmit) b c → c.attached = true →
      c.stream = some s → s.reads = false → s.input = [] → EndsSending b (c.record (.shutdown .transmit))

theorem EndsSending.after (h : MakesOnly (· ≠ .shutdown .transmit) b c) (ends : c.EndsSending d) :
    b.EndsSending d := by
  cases ends with
  | untold h' => exact .untold (h.trans h')
  | told h' ha hs hr hi => exact .told (h.trans h') ha hs hr hi

theorem EndsSending.calls (h : b.EndsSending c) : ∃ made, c.calls = made ++ b.calls := by
  cases h with
  | untold unmade =>
    obtain ⟨made, hcalls, -⟩ := unmade
    exact ⟨made, hcalls⟩
  | told unmade =>
    obtain ⟨made, hcalls, -⟩ := unmade
    exact ⟨_ :: made, by rw [record_calls, hcalls, List.cons_append]⟩

theorem Sealed.fedBy_of_told (h : b.Sealed) (htold : .shutdown .transmit ∈ b.calls) (m : Move) : b.fedBy m = [] := by
  cases m with
  | connection | hold => rfl
  | stream act =>
    cases hs : b.stream with
    | none => simp [fedBy, hs]
    | some s =>
      rw [fedBy, hs, Option.map_some, Option.getD_some]
      cases act with
      | feed => rw [Act.fed, (h.input_over htold s hs).1, if_neg (by decide)]
      | _ => rfl

theorem Sealed.silent_after (h : b.Sealed) {before after : List Call}
    (htrace : b.trace = before ++ .shutdown .transmit :: after) : ∀ call ∈ after, call.isSend = false := by
  have reversed : b.calls = after.reverse ++ .shutdown .transmit :: before.reverse := by
    rw [← List.reverse_reverse b.calls, ← trace, htrace]
    simp
  have last := h.last_send
  rw [reversed, List.pairwise_append] at last
  intro call hc
  exact last.2.2 call (List.mem_reverse.mpr hc) _ List.mem_cons_self rfl

variable [Sender σ]

theorem sendPending_endsSending (ha : b.attached = true) (hs : b.stream = some s) (hf : b.finished = false) :
    b.EndsSending b.sendPending.1 := by
  have sends : MakesOnly (· ≠ .shutdown .transmit) b (b.offeredTo s (b.offers s)) := b.offers_unmade s rfl
  have passes := sendPending_passes ha hs hf
  generalize b.sendPending.1 = c at passes ⊢
  cases passes with
  | parts _ quiet => exact .untold (quiet.unmade rfl)
  | waits => exact .untold sends
  | tells hr hi => exact .told sends ha (offeredTo_stream b s _) hr hi

theorem endOutput_endsSending (ha : b.attached = true) (hs : b.stream = some s) (hf : b.finished = false) :
    b.EndsSending b.endOutput.1 := by
  refine endOutput_rule (P := MakesOnly (· ≠ .shutdown .transmit) b) hs (fun _ => .none rfl)
    (fun _ => .one rfl (by simp)) .untold ?_
  intro c s' unmade ha' hs' hf'
  exact .after unmade (sendPending_endsSending (ha'.trans ha) hs' (hf'.trans hf))

theorem Course.endsSending (course : Course event b r) (h : b.Tidy) : b.EndsSending r.1 := by
  refine course.rule (P := MakesOnly (· ≠ .shutdown .transmit) b) h (·.unmade rfl) .untold ?_ ?_
  · exact fun unmade ha hs hf => .after unmade (sendPending_endsSending ha hs hf)
  · exact fun unmade ha hs hf _ => .after unmade (endOutput_endsSending ha hs hf)

theorem Tidy.endsSending (h : b.Tidy) (m : Move) : b.EndsSending (b.move m) := by
  have moved := h.moved m
  generalize b.move m = c at moved ⊢
  cases moved with
  | aside toPeer => exact .untold ((toPeer.mono fun _ => Call.endsHalf_of_toPeer).unmade rfl)
  | reacts tidy hcalls _ course => exact .after (.none hcalls) (course.endsSending tidy)

/-! ## Runs -/

/-- Once the connection was told that no more will be sent, it has taken everything. -/
def ToldWithAll (fed : List UInt8) (b : Bridge σ) : Prop := .shutdown .transmit ∈ b.calls → b.sent = fed

theorem ToldWithAll.move (h : b.ToldWithAll fed) (ht : b.Tidy) (hsealed : b.Sealed) (m : Move)
    (sends : (b.move m).Sends (fed ++ b.fedBy m)) : (b.move m).ToldWithAll (fed ++ b.fedBy m) := by
  intro htold
  have ends := ht.endsSending m
  by_cases hearlier : .shutdown .transmit ∈ b.calls
  · -- All was sent before, and nothing was fed since.
    obtain ⟨made, hcalls⟩ := ends.calls
    have begins := sends.sent_begins
    rw [hsealed.fedBy_of_told hearlier m, List.append_nil] at begins ⊢
    rw [sent_of_calls made hcalls, h hearlier] at begins ⊢
    exact begins.eq_of_length_le (by simp)
  · generalize b.move m = c at *
    cases ends with
    | untold unmade => exact absurd (unmade.mem htold (by simp)) hearlier
    | told _ ha hs _ hi =>
      rw [← sends.pending ha _ hs, hi, List.append_nil]

theorem toldWithAll_play (sender : σ) (config : Config) (moves : List Move) :
    let start := new sender {} config
    (start.play moves).ToldWithAll (start.fed moves) := by
  intro start
  induction moves using List.reverseRecOn with
  | nil => exact fun _ => rfl
  | append_singleton moves m ih =>
    have sends := sends_play sender config (moves ++ [m])
    dsimp only at sends
    rw [play_snoc, fed_snoc] at sends ⊢
    exact ih.move ((tidy_new sender {} config).play moves) (sealed_play sender config moves) m sends

/-- In every run over a behaving stream: the connection is told that no more will be sent as the last thing
of a move, with the stream ended and all that it gave taken by the connection, and nothing is sent after it.
And once the stream has ended its input and none of it is pending, the connection has been told. -/
theorem sending_ends_in_time (sender : σ) (config : Config) (moves : List Move) :
    let start := new sender {} config
    let b := start.play moves
    (∀ m made, (b.move m).calls = made ++ b.calls → .shutdown .transmit ∈ made →
      ∃ (c : Bridge σ) (s : Stream) (earlier : List Call),
        made = .shutdown .transmit :: earlier ∧ .shutdown .transmit ∉ earlier ∧
        b.move m = c.record (.shutdown .transmit) ∧ c.stream = some s ∧ s.reads = false ∧
        c.sent = start.fed (moves ++ [m])) ∧
    (∀ before after, b.trace = before ++ .shutdown .transmit :: after →
      before.flatMap Call.sent = start.fed moves ∧ ∀ call ∈ after, call.isSend = false) ∧
    (InputOver (start.reported moves) → b.attached = true → b.pending = [] → .shutdown .transmit ∈ b.trace) := by
  intro start b
  have tidy : b.Tidy := (tidy_new sender {} config).play moves
  refine ⟨?_, ?_, ?_⟩
  · intro m made hcalls hmade
    have all := toldWithAll_play sender config (moves ++ [m])
    dsimp only at all
    rw [play_snoc] at all
    have ends := tidy.endsSending m
    generalize b.move m = d at *
    cases ends with
    | untold unmade => exact absurd hmade (unmade.not_mem_made hcalls)
    | @told c s unmade _ hs hr _ =>
      obtain ⟨earlier, rfl, honce⟩ := unmade.made_eq hcalls
      have unsent : (c.record (.shutdown .transmit)).sent = c.sent := sent_of_unsent [_] rfl (by simp [Call.sent])
      exact ⟨c, s, earlier, rfl, honce, rfl, hs, hr, unsent.symm.trans (all List.mem_cons_self)⟩
  · intro before after htrace
    have silent := (sealed_play sender config moves).silent_after htrace
    have told : .shutdown .transmit ∈ b.calls := by
      rw [← List.mem_reverse, ← trace, htrace]
      simp
    have nothing : after.flatMap Call.sent = [] :=
      List.flatMap_eq_nil_iff.mpr fun call hc => Call.sent_of_not_isSend (silent call hc)
    refine ⟨?_, silent⟩
    calc before.flatMap Call.sent
        = b.trace.flatMap Call.sent := by simp [htrace, nothing, Call.sent]
      _ = start.fed moves := toldWithAll_play sender config moves told
  · intro hover ha hpending
    cases rests_play sender config moves with
    | waiting _ hs waits =>
      rw [pending_of_open hs] at hpending
      exact List.mem_reverse.mpr (waits.told hover hpending)
    | winding ha' => cases ha'.symm.trans ha
    | finished hf => cases (tidy.finished_iff.mp hf).1.symm.trans ha

/-- The byte is refused twice; the end of the stream waits with it until the connection is writable. -/
theorem sending_ends_in_time_refused_twice :
    let script : Script := { answers := [.accepted 0, .accepted 0] }
    let moves : List Move := [.stream (.feed [1]), .stream (.finish .onlyRead)]
    let start := new script {} {}
    let b := start.play moves
    let c := start.play (moves ++ [.connection .writable])
    (InputOver (start.reported moves) ∧ b.attached = true ∧ b.pending = [1] ∧ .shutdown .transmit ∉ b.trace) ∧
    c.calls = [.shutdown .transmit, .send [1] (.accepted 1)] ++ b.calls ∧
    (∃ (d : Bridge Script) (s : Stream), c = d.record (.shutdown .transmit) ∧ d.stream = some s ∧
      s.reads = false ∧ d.sent = [1]) ∧
    (c.attached = true ∧ c.pending = [] ∧ .shutdown .transmit ∈ c.trace) := by
  intro script moves start b c
  have ended : InputOver (start.reported moves) := ⟨.eof .onlyRead, by decide +kernel, rfl⟩
  have two : c.calls = [.shutdown .transmit, .send [1] (.accepted 1)] ++ b.calls := by decide +kernel
  obtain ⟨tells, -, -⟩ := sending_ends_in_time script {} moves
  obtain ⟨-, -, told⟩ := sending_ends_in_time script {} (moves ++ [.connection .writable])
  have still_over : InputOver (start.reported (moves ++ [.connection .writable])) :=
    ⟨.eof .onlyRead, by decide +kernel, rfl⟩
  have fed : start.fed (moves ++ [.connection .writable]) = [1] := by decide +kernel
  obtain ⟨d, s, -, -, -, hd, hs, hr, hsent⟩ := tells (.connection .writable) _ two (by decide)
  have attached : c.attached = true := by decide +kernel
  have none_left : c.pending = [] := by decide +kernel
  exact ⟨⟨ended, by decide +kernel, by decide +kernel, by decide +kernel⟩, two,
    ⟨d, s, hd, hs, hr, hsent.trans fed⟩, attached, none_left, told still_over attached none_left⟩

end Bridge

end Splice
