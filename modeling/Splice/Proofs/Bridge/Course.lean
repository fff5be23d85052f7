import Splice.Proofs.Bridge.HalfClosing

/-!
# The course of a reaction

A reaction begins quietly: nothing is sent, and neither the connection nor the stream is told of an end.
Then the output may be ended or the pending input sent, and this is always the last thing done. So a
property of the calls that send or end a direction needs a proof for those two operations alone.
-/

namespace Splice

namespace Call

/-- A call that sends nothing and ends no direction. -/
def IsQuiet (call : Call) : Prop := call.endsHalf = false ∧ call.isSend = false

theorem IsQuiet.of_toPeer {call : Call} (h : call.toPeer = true) : call.IsQuiet :=
  ⟨endsHalf_of_toPeer h, isSend_of_toPeer h⟩

theorem endsHalf_of_isSend {call : Call} (h : call.isSend = true) : call.endsHalf = false := by
  cases call <;> simp_all [isSend, endsHalf]

theorem ne_of_endsHalf {call last : Call} (hlast : last.endsHalf = true) (h : call.endsHalf = false) :
    call ≠ last := by
  rintro rfl
  rw [hlast] at h
  cases h

end Call

namespace Event

/-- The stream says that it takes no more output, for whatever reason. -/
def endsOutput : Event → Bool
  | .stream (.eof d) | .stream (.error d) => d.contains .onlyWrite
  | _ => false

theorem losesOutput_of_endsOutput {event : Event} (h : event.endsOutput = true) : event.losesOutput = true := by
  unfold endsOutput at h
  split at h
  · exact h
  · rfl
  · cases h

end Event

namespace Bridge

variable {σ : Type} {event : Event} {b c d : Bridge σ} {s s' : Stream} {r : Bridge σ × Status}

theorem offeredTo_stream (b : Bridge σ) (s : Stream) (o : Offered σ) :
    (b.offeredTo s o).stream = some { s with input := o.rest } := rfl

/-! ## Calls made in between -/

/-- All calls made between two bridges are of one kind. -/
def MakesOnly (kind : Call → Prop) (b c : Bridge σ) : Prop :=
  ∃ made, c.calls = made ++ b.calls ∧ ∀ call ∈ made, kind call

namespace MakesOnly

variable {kind kind' : Call → Prop}

theorem none (h : c.calls = b.calls) : MakesOnly kind b c := ⟨[], h, by simp⟩

theorem one {call : Call} (h : c.calls = call :: b.calls) (hkind : kind call) : MakesOnly kind b c :=
  ⟨[call], h, by simpa using hkind⟩

theorem trans (h : MakesOnly kind b c) (h' : MakesOnly kind c d) : MakesOnly kind b d := by
  obtain ⟨made, hcalls, hmade⟩ := h
  obtain ⟨made', hcalls', hmade'⟩ := h'
  refine ⟨made' ++ made, by rw [hcalls', hcalls, List.append_assoc], ?_⟩
  intro call hc
  rcases List.mem_append.mp hc with hc | hc
  · exact hmade' call hc
  · exact hmade call hc

theorem mono (h : MakesOnly kind b c) (himp : ∀ call, kind call → kind' call) : MakesOnly kind' b c := by
  obtain ⟨made, hcalls, hmade⟩ := h
  exact ⟨made, hcalls, fun call hc => himp call (hmade call hc)⟩

theorem mem (h : MakesOnly kind b c) {call : Call} (hc : call ∈ c.calls) (hkind : ¬ kind call) : call ∈ b.calls := by
  obtain ⟨made, hcalls, hmade⟩ := h
  rw [hcalls, List.mem_append] at hc
  exact hc.resolve_left fun hc => hkind (hmade call hc)

variable {last : Call}

theorem unmade (h : MakesOnly (fun call => call.endsHalf = false) b c) (hlast : last.endsHalf = true) :
    MakesOnly (· ≠ last) b c :=
  h.mono fun _ => Call.ne_of_endsHalf hlast

theorem not_mem_made {made : List Call} (h : MakesOnly (· ≠ last) b c) (hcalls : c.calls = made ++ b.calls) :
    last ∉ made := by
  obtain ⟨made', hmade', hne⟩ := h
  obtain rfl : made' = made := List.append_cancel_right (hmade'.symm.trans hcalls)
  exact fun hmem => hne last hmem rfl

end MakesOnly

variable [Sender σ]

/-! ## Quiet parts -/

theorem Deeds.detached (deeds : Deeds event b c) (ha : b.attached = false) : c.attached = false :=
  deeds.preserves (P := fun c => c.attached = false) (fun deed hc => (deed.sends_nothing hc).1) ha

structure Quietly (event : Event) (b c : Bridge σ) : Prop where
  deeds : Deeds event b c
  calls : MakesOnly Call.IsQuiet b c
  stream : c.attached = true → ∀ s', c.stream = some s' → b.attached = true ∧
    ∃ s, b.stream = some s ∧ s'.input = s.input ∧ (s'.writes = s.writes ∨ event.endsOutput = true)

namespace Quietly

theorem refl (b : Bridge σ) : Quietly event b b := by
  refine ⟨.refl, .none rfl, ?_⟩
  intro ha s hs
  exact ⟨ha, s, hs, rfl, .inl rfl⟩

theorem trans (h : Quietly event b c) (h' : Quietly event c d) : Quietly event b d := by
  refine ⟨h.deeds.trans h'.deeds, h.calls.trans h'.calls, ?_⟩
  intro ha s'' hs''
  obtain ⟨ha', s', hs', hi', hw'⟩ := h'.stream ha s'' hs''
  obtain ⟨ha, s, hs, hi, hw⟩ := h.stream ha' s' hs'
  refine ⟨ha, s, hs, hi'.trans hi, ?_⟩
  rcases hw' with hw' | hends
  · exact hw.imp_left hw'.trans
  · exact .inr hends

theorem unmade (h : Quietly event b c) {last : Call} (hlast : last.endsHalf = true) : MakesOnly (· ≠ last) b c :=
  (h.calls.mono fun _ quiet => quiet.1).unmade hlast

theorem of_deed (deed : Deed event b c) (hcalls : MakesOnly Call.IsQuiet b c) (ha : c.attached = b.attached)
    (hs : c.stream = b.stream) : Quietly event b c := by
  have same : Quietly event b b := .refl b
  refine ⟨.single deed, hcalls, ?_⟩
  rw [ha, hs]
  exact same.stream

theorem adjust (hs : b.stream = some s) (adjusts : Adjusts event b.attached s s') (hi : s'.input = s.input)
    (hw : s'.writes = s.writes ∨ event.endsOutput = true) : Quietly event b (b.keep s') := by
  refine ⟨.single (.adjust hs adjusts), .none rfl, ?_⟩
  rintro ha _ ⟨⟩
  exact ⟨ha, s, hs, hi, hw⟩

theorem queueOutput (ha : b.attached = true) (hs : b.stream = some s) (data : List UInt8) :
    Quietly (.connection (.read data)) b (b.queueOutput data).1 := by
  have receives : Deed (.connection (.read data)) b (b.queueOutput data).1 := .receive ha rfl
  cases hw : s.writes with
  | false =>
    rw [queueOutput_of_not_writes data hs hw] at receives ⊢
    exact of_deed receives (.none rfl) rfl rfl
  | true =>
    rw [queueOutput_of_writes data hs hw] at receives ⊢
    refine ⟨.single receives, .none rfl, ?_⟩
    rintro - _ ⟨⟩
    exact ⟨ha, s, hs, rfl, .inl rfl⟩

theorem connected (ha : b.attached = true) : Quietly (.connection .connected) b b.connected := by
  have announces : Deed (.connection .connected) b b.connected := .announce ha rfl
  rw [connected_eq] at announces ⊢
  exact of_deed announces ⟨b.announces, rfl, fun call hc => .of_toPeer (b.announces_toPeer call hc)⟩ rfl rfl

theorem closeConnection (ha : b.attached = true) (hs : b.stream = some s) :
    Quietly event b b.closeConnection := by
  refine ⟨.single (.closeConnection ha hs), ⟨b.closing, closeConnection_calls ha, ?_⟩, ?_⟩
  · intro call hc
    rcases closing_cases hc with hc | rfl
    · exact .of_toPeer hc
    · exact ⟨rfl, rfl⟩
  · intro ha'
    rw [closeConnection_attached] at ha'
    cases ha'

theorem of_detached (deeds : Deeds event b c) (ha : b.attached = false) : Quietly event b c := by
  refine ⟨deeds, ?_, fun ha' => ?_⟩
  · have kept := deeds.preserves (P := fun c => c.attached = false ∧ MakesOnly Call.IsQuiet b c) ?_
      ⟨ha, .none rfl⟩
    · exact kept.2
    rintro c c' deed ⟨hca, quiet⟩
    refine ⟨(deed.sends_nothing hca).1, quiet.trans ?_⟩
    cases deed with
    | send h | tell h | suspend h | announce h | receive h | endOutput h | closeConnection h => simp [hca] at h
    | adjust => exact .none rfl
    | closeStream _ hs hi ho he =>
      rw [closeStream_conclude hca hs hi ho he]
      exact .one rfl ⟨rfl, rfl⟩
  · rw [deeds.detached ha] at ha'
    cases ha'

theorem endReceiving (ha : b.attached = true) (hs : b.stream = some s) (hlost : event.losesOutput = true) :
    Quietly event b ({ b with suspended := true }.record (.shutdown .receive)) := by
  have suspends : Quietly event b { b with suspended := true } :=
    of_deed (.suspend ha (.inr hlost)) (.none rfl) rfl rfl
  exact suspends.trans (of_deed (.tell ha hs (.endReceiving hlost)) (.one rfl ⟨rfl, rfl⟩) rfl rfl)

theorem parting (ha : b.attached = true) (hs : b.stream = some s) (h : Reacts event b.closeConnection r) :
    Quietly event b r.1 :=
  (closeConnection ha hs).trans (of_detached h.deeds (closeConnection_attached b))

theorem abandon (ha : b.attached = true) (hs : b.stream = some s) (hlost : event.losesOutput = true) :
    Quietly event b b.abandon.1 := by
  unfold Bridge.abandon
  rw [if_pos ha]
  exact parting ha hs (discardStream_reacts (closeConnection_attached b) (by simpa using hs) (.inl hlost))

end Quietly

/-! ## Courses -/

inductive Course (event : Event) (b : Bridge σ) : Bridge σ × Status → Prop
  | quiet {r : Bridge σ × Status} : Quietly event b r.1 → Course event b r
  | sends {c : Bridge σ} {s : Stream} : Quietly event b c → c.attached = true → c.stream = some s →
      Course event b c.sendPending
  | endsOutput {c : Bridge σ} {s : Stream} : Quietly event b c → c.attached = true → c.suspended = true →
      c.stream = some s → s.output = [] → Course event b c.endOutput

theorem Course.after (h : Quietly event b c) (course : Course event c r) : Course event b r := by
  cases course with
  | quiet q => exact .quiet (h.trans q)
  | sends q ha hs => exact .sends (h.trans q) ha hs
  | endsOutput q ha hsus hs ho => exact .endsOutput (h.trans q) ha hsus hs ho

theorem Course.stay (b : Bridge σ) (status : Status) : Course event b (b, status) := .quiet (.refl b)

theorem writable_of_open (hs : b.stream = some s) : b.writable = b.sendPending := by
  rw [writable, hs]
  rfl

theorem outputDrained_course (ha : b.attached = true) (hs : b.stream = some s) :
    Course event b b.outputDrained := by
  unfold outputDrained
  rw [hs]
  dsimp only
  split
  · exact .stay b _
  next ho =>
  have ho : s.output = [] := by simpa using ho
  rw [if_neg (by simp [ha])]
  have acknowledges : Quietly event b (b.record .readDrained) :=
    .of_deed (.tell ha hs (.acknowledge ho)) (.one rfl ⟨rfl, rfl⟩) rfl rfl
  refine .after acknowledges ?_
  split
  · next h => exact .endsOutput (.refl _) ha (Bool.and_eq_true_iff.mp h).1 hs ho
  · exact .stay _ _

theorem connectionEnded_course (ha : b.attached = true) :
    Course (.connection .eof) b b.connectionEnded := by
  have suspends : Quietly (.connection .eof) b { b with suspended := true } :=
    .of_deed (.suspend ha (.inl rfl)) (.none rfl) rfl rfl
  refine .after suspends ?_
  unfold connectionEnded
  dsimp only
  split
  · exact .stay _ _
  next s' hs' =>
  split
  · next ho => exact .endsOutput (.refl _) ha rfl hs' (List.isEmpty_iff.mp ho)
  · exact .stay _ _

theorem onConnection_course (ha : b.attached = true) (hs : b.stream = some s) (hf : b.finished = false)
    (e : ConnectionEvent) : Course (.connection e) b (b.onConnection e) := by
  unfold onConnection
  rw [if_neg (by simp [hf]), if_neg (by simp [ha])]
  cases e with
  | connected =>
    have ha' : b.connected.attached = true := by rw [connected_eq]; exact ha
    have hs' : b.connected.stream = some s := by rw [connected_eq]; exact hs
    exact writable_of_open hs' ▸ .sends (.connected ha) ha' hs'
  | writable => exact writable_of_open hs ▸ .sends (.refl b) ha hs
  | read data => exact .quiet (.queueOutput ha hs data)
  | eof => exact connectionEnded_course ha
  | error =>
    exact .quiet (.parting ha hs (windDownStream_reacts (by simpa using hf) (closeConnection_attached b)
      (by simpa using hs)))
  | destroying => exact .stay b _

theorem streamFailed_course (ha : b.attached = true) (hs : b.stream = some s) (d : Directions) :
    Course (.stream (.error d)) b (b.streamFailed d) := by
  have lost : (Event.stream (.error d)).losesOutput := rfl
  unfold streamFailed
  rw [hs]
  dsimp only
  split
  swap
  · exact .quiet (.abandon ha hs lost)
  have kept : Quietly (.stream (.error d)) b
      (b.keep (if d.contains .onlyWrite then { s.disable .onlyWrite with output := [] } else s)) := by
    split
    · next hd => exact .adjust hs (.loseOutput lost) rfl (.inr hd)
    · rw [keep_self hs]
      exact .refl b
  -- From here on it may be any stream that is held.
  generalize (if d.contains .onlyWrite then { s.disable .onlyWrite with output := [] } else s) = s' at *
  refine .after (kept.trans (.endReceiving ha rfl lost)) ?_
  split
  · next h =>
    have ho : s'.output = [] := by simpa using (Bool.and_eq_true_iff.mp h).2
    exact .endsOutput (.refl _) ha rfl rfl ho
  · exact .stay _ _

theorem inputEnded_course (ha : b.attached = true) (hs : b.stream = some s) (hf : b.finished = false)
    (he : event.endsInput = true) : Course event b b.inputEnded := by
  unfold inputEnded
  rw [hs]
  dsimp only
  have stops : Quietly event b (b.keep (s.disable .onlyRead)) :=
    .adjust hs (.stopReading he) rfl (.inl (Stream.writes_disable_onlyRead s))
  refine .after stops ?_
  split
  · exact .sends (.refl _) ha rfl
  · rw [keep_attached, if_pos ha]
    exact .quiet (.parting ha rfl (windDownStream_reacts (by simpa using hf) (closeConnection_attached _)
      (closeConnection_stream _)))

theorem streamEnded_course (ha : b.attached = true) (hs : b.stream = some s) (hf : b.finished = false)
    (d : Directions) : Course (.stream (.eof d)) b (b.streamEnded d) := by
  unfold streamEnded
  split
  · split
    · exact inputEnded_course ha hs hf ‹_›
    · exact .stay b _
  next hw =>
  have ends : (Event.stream (.eof d)).endsOutput = true := by simpa [Event.endsOutput] using hw
  have lost := Event.losesOutput_of_endsOutput ends
  rw [hs]
  dsimp only
  split
  · have stops : Quietly (.stream (.eof d)) b (b.keep (s.disable .onlyWrite)) :=
      .adjust hs (.stopWriting (.inl lost)) rfl (.inr ends)
    exact .quiet (stops.trans (.abandon ha rfl lost))
  rw [keep_attached, if_pos ha]
  have loses : Quietly (.stream (.eof d)) b (b.keep { s.disable .onlyWrite with output := [] }) :=
    .adjust hs (.loseOutput lost) rfl (.inr ends)
  refine .after (loses.trans (.endReceiving ha rfl lost)) ?_
  split
  · exact inputEnded_course ha rfl hf ‹_›
  · exact .stay _ _

theorem onStream_course (ha : b.attached = true) (hs : b.stream = some s) (hf : b.finished = false)
    (e : StreamEvent) : Course (.stream e) b (b.onStream e) := by
  rw [onStream_of_open hf hs]
  cases e with
  | readable => exact .sends (.refl b) ha hs
  | drained => exact outputDrained_course ha hs
  | connected => exact .stay b _
  | eof d => exact streamEnded_course ha hs hf d
  | error d => exact streamFailed_course ha hs d

theorem react_course (h : b.Sound) (hf : b.finished = false) (event : Event) : Course event b (b.react event) := by
  cases ha : b.attached with
  | false => exact .quiet (.of_detached (react_reacts h hf event).deeds ha)
  | true =>
    obtain ⟨s, hs⟩ := h.stream_of_attached ha
    cases event with
    | connection e => exact onConnection_course ha hs hf e
    | stream e => exact onStream_course ha hs hf e

/-- What holds after the quiet part, and from there once the last thing is done, holds of the whole. -/
theorem Course.rule {P Q : Bridge σ → Prop} (course : Course event b r) (h : b.Tidy)
    (quiet : ∀ {c}, Quietly event b c → P c) (stays : ∀ {c}, P c → Q c)
    (sends : ∀ {c s}, P c → c.attached = true → c.stream = some s → c.finished = false → Q c.sendPending.1)
    (endsOutput : ∀ {c s}, P c → c.attached = true → c.stream = some s → c.finished = false → s.output = [] →
      Q c.endOutput.1) : Q r.1 := by
  cases course with
  | quiet q => exact stays (quiet q)
  | sends q ha hs => exact sends (quiet q) ha hs ((h.deeds q.deeds).finished_of_open hs)
  | endsOutput q ha _ hs ho => exact endsOutput (quiet q) ha hs ((h.deeds q.deeds).finished_of_open hs) ho

/-! ## Sending what is pending -/

theorem offer_calls (chunk : Nat) (sender : σ) (input : List UInt8) (count : UInt64) (calls : List Call) :
    ∃ made, (offer chunk sender input count calls).calls = made ++ calls ∧ ∀ call ∈ made, call.isSend = true := by
  fun_induction offer chunk sender input count calls with
  | case1 => exact ⟨[], rfl, by simp⟩
  | case2 => exact ⟨[_], rfl, by simp [Call.isSend]⟩
  | case3 => exact ⟨[_], rfl, by simp [Call.isSend]⟩
  | case4 =>
    rename_i ih
    obtain ⟨made, hmade, hsends⟩ := ih
    refine ⟨made ++ [_], by rw [hmade, List.append_assoc]; rfl, ?_⟩
    rw [List.forall_mem_append]
    exact ⟨hsends, by simp [Call.isSend]⟩

/-- The loop stops with something left only because the connection took none of it. -/
theorem offer_refused {chunk : Nat} {sender : σ} {input : List UInt8} {count : UInt64} {calls : List Call}
    (hchunk : 1 ≤ chunk) (hok : (offer chunk sender input count calls).failed = false)
    (hrest : (offer chunk sender input count calls).rest ≠ []) :
    ∃ offered earlier, (offer chunk sender input count calls).calls = .send offered (.accepted 0) :: earlier := by
  fun_induction offer chunk sender input count calls with
  | case1 => exact absurd rfl hrest
  | case2 => cases hok
  | case3 _ input _ _ hne offered _ n taken hnone =>
    have hlength : 0 < input.length := List.length_pos_iff.mpr hne
    have hzero : n = 0 := by
      simp only [taken, offered, List.length_take] at hnone
      omega
    subst hzero
    exact ⟨_, _, rfl⟩
  | case4 =>
    rename_i ih
    exact ih hok hrest

def offers (b : Bridge σ) (s : Stream) : Offered σ :=
  offer b.maxChunk b.sender s.input b.stats.bytesToConnection b.calls

theorem offers_makesOnly (b : Bridge σ) (s : Stream) :
    MakesOnly (fun call => call.isSend = true) b (b.offeredTo s (b.offers s)) :=
  offer_calls ..

theorem offers_unmade (b : Bridge σ) (s : Stream) {last : Call} (hlast : last.endsHalf = true) :
    MakesOnly (· ≠ last) b (b.offeredTo s (b.offers s)) :=
  ((b.offers_makesOnly s).mono fun _ => Call.endsHalf_of_isSend).unmade hlast

inductive Passes (b : Bridge σ) (s : Stream) : Bridge σ → Prop
  | parts {c : Bridge σ} : c.attached = false →
      MakesOnly (fun call => call.endsHalf = false) b c → Passes b s c
  | waits : (b.offers s).failed = false → s.reads = true ∨ (b.offers s).rest ≠ [] →
      Passes b s (b.offeredTo s (b.offers s))
  | tells : s.reads = false → (b.offers s).rest = [] →
      Passes b s ((b.offeredTo s (b.offers s)).record (.shutdown .transmit))

theorem sendPending_passes (ha : b.attached = true) (hs : b.stream = some s) (hf : b.finished = false) :
    b.Passes s b.sendPending.1 := by
  -- Once the connection is closed, neither side is told of an end.
  have parts : ∀ {r}, Reacts (.stream .readable) (b.offeredTo s (b.offers s)).closeConnection r →
      b.Passes s r.1 := by
    intro r h
    have parting := Quietly.parting (b := b.offeredTo s (b.offers s)) ha rfl h
    refine .parts (h.deeds.detached (closeConnection_attached _)) (MakesOnly.trans ?_ (parting.calls.mono ?_))
    · exact (b.offers_makesOnly s).mono fun call => Call.endsHalf_of_isSend
    · exact fun call quiet => quiet.1
  have hs' := closeConnection_stream (b.offeredTo s (b.offers s))
  -- Four ways out: the send fails, something is left or yet to be read, the connection is told, all is over.
  rw [sendPending_of_attached ha hs]
  dsimp only
  split
  · exact parts (windDownStream_reacts ((closeConnection_finished _).trans hf) (closeConnection_attached _) hs')
  next hok =>
  unfold afterSending
  split
  · next hmore => exact .waits (Bool.eq_false_iff.mpr hok) (by simpa [offers] using hmore)
  next hdone =>
  simp only [Bool.or_eq_true, Bool.not_eq_true', not_or, Bool.not_eq_true, Bool.not_eq_false,
    List.isEmpty_iff] at hdone
  obtain ⟨hr, hi⟩ := hdone
  split
  · exact .tells hr hi
  next hw =>
  have hw : s.writes = false := by simpa using hw
  have he : s.enabled = .none := (Directions.eq_none_iff _).mpr ⟨by simpa using hr, by simpa using hw⟩
  split
  · next ho =>
    exact parts (closeStream_reacts (closeConnection_attached _) hs' hi (List.isEmpty_iff.mp ho)
      (he ▸ Directions.none_subset _))
  · exact parts (discardStream_reacts (closeConnection_attached _) hs' (.inr hw))

/-! ## Ending the output -/

theorem endOutput_rule {P Q : Bridge σ → Prop} (hs : b.stream = some s) (untold : s.writes = false → P b)
    (told : s.writes = true → P ((b.keep (s.disable .onlyWrite)).record .shutdownStream))
    (stays : ∀ {c}, P c → Q c)
    (sends : ∀ {c s'}, P c → c.attached = b.attached → c.stream = some s' → c.finished = b.finished →
      Q c.sendPending.1) : Q b.endOutput.1 := by
  have goes_on : ∀ {c s'}, P c → c.attached = b.attached → c.stream = some s' → c.finished = b.finished →
      Q (if s.reads then (c, .active) else c.sendPending : Bridge σ × Status).1 := by
    intro c s' start ha hs hf
    split
    · exact stays start
    · exact sends start ha hs hf
  rw [endOutput, hs]
  dsimp only
  cases hw : s.writes with
  | false => exact goes_on (untold hw) rfl hs rfl
  | true => exact goes_on (told hw) rfl rfl rfl

/-! ## Moves -/

inductive Moved (b : Bridge σ) : Bridge σ → Prop
  | aside {c : Bridge σ} : MakesOnly (fun call => call.toPeer = true) b c → Moved b c
  | reacts {event : Event} {c : Bridge σ} {r : Bridge σ × Status} : c.Tidy → c.calls = b.calls →
      c.finished = false → Course event c r → Moved b r.1

theorem Tidy.moved (h : b.Tidy) (m : Move) : b.Moved (b.move m) := by
  cases m with
  | connection e =>
    show b.Moved (b.onConnection e).1
    cases hf : b.finished with
    | true =>
      rw [show b.onConnection e = _ from react_late hf (.connection e)]
      exact .aside (.none rfl)
    | false => exact .reacts h rfl hf (react_course h.toSound hf (.connection e))
  | hold peer =>
    show b.Moved (b.holdPeer peer)
    rw [Bridge.holdPeer, releasePeer_eq]
    exact .aside ⟨b.releases, rfl, b.releases_toPeer⟩
  | stream act =>
    have acted := move_acted b act
    generalize b.move (.stream act) = c at acted ⊢
    cases acted with
    | impossible | silent => exact .aside (.none rfl)
    | @reported s s' event hs =>
      have hf : (b.keep s').finished = false := h.finished_of_open hs
      have tidy := h.keep hs s'
      exact .reacts tidy rfl hf (react_course tidy.toSound hf (.stream event))

end Bridge

end Splice
