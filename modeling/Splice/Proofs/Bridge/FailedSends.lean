import Splice.Proofs.Bridge.Chunking
import Splice.Proofs.Bridge.Collecting
import Splice.Proofs.Bridge.EndOfSending
import Splice.Proofs.Bridge.Notifying

/-!
# Failed sends

A send that fails does what a refused send and then an error of the connection do: the bridge is left in the same
state and has made the same calls, apart from the answer to that one send. What was taken before it stays taken and
counted, and queued output is still written.
-/

namespace Splice

def Call.fails : Call → Bool
  | send _ .failed => true
  | _ => false

theorem Call.not_fails_of_not_isSend {call : Call} (h : call.isSend = false) : call.fails = false := by
  cases call <;> simp_all [isSend, fails]

/-- The first failure among the answers is replaced by a refusal. -/
def Script.lenient (s : Script) : Script := { s with answers := s.answers.replace .failed (.accepted 0) }

theorem Script.send_lenient_of_failed {s next : Script} {offered : List UInt8}
    (h : Sender.send s offered = (.failed, next)) : Sender.send s.lenient offered = (.accepted 0, next) := by
  obtain ⟨_ | ⟨answer, answers⟩, cap⟩ := s
  · cases h
  · obtain ⟨rfl, rfl⟩ := Prod.mk.inj h
    rfl

theorem Script.send_lenient_of_accepted {s next : Script} {offered : List UInt8} {n : Nat}
    (h : Sender.send s offered = (.accepted n, next)) :
    Sender.send s.lenient offered = (.accepted n, next.lenient) := by
  obtain ⟨_ | ⟨answer, answers⟩, cap⟩ := s
  · obtain ⟨hanswer, rfl⟩ := Prod.mk.inj h
    exact Prod.ext hanswer rfl
  · obtain ⟨rfl, rfl⟩ := Prod.mk.inj h
    rfl

namespace Bridge

def lenient (b : Bridge Script) : Bridge Script := { b with sender := b.sender.lenient }

/-! ## The loop -/

section Loop

variable {σ : Type} [Sender σ] {chunk n : Nat} {sender next : σ} {input : List UInt8}

theorem offer_of_refused (count : UInt64) (calls : List Call) (hne : input ≠ [])
    (hsend : Sender.send sender (input.take chunk) = (.accepted 0, next)) :
    offer chunk sender input count calls =
      ⟨next, input, count, false, .send (input.take chunk) (.accepted 0) :: calls⟩ := by
  rw [offer, if_neg hne]
  dsimp only
  rw [hsend]
  exact if_pos (Nat.zero_min _)

theorem offer_of_taken (count : UInt64) (calls : List Call) (hne : input ≠ [])
    (hsend : Sender.send sender (input.take chunk) = (.accepted n, next))
    (hsome : min n (input.take chunk).length ≠ 0) :
    offer chunk sender input count calls =
      offer chunk next (input.drop (min n (input.take chunk).length))
        (count + (min n (input.take chunk).length).toUInt64)
        (.send (input.take chunk) (.accepted n) :: calls) := by
  rw [offer, if_neg hne]
  dsimp only
  rw [hsend]
  exact if_neg hsome

end Loop

def countSent (made : List Call) : UInt64 := (made.reverse.flatMap Call.sent).length.toUInt64

theorem countSent_append (made earlier : List Call) :
    countSent (made ++ earlier) = countSent earlier + countSent made := by
  simp only [countSent, List.reverse_append, List.flatMap_append, List.length_append]
  exact UInt64.ofNat_add _ _

/-- Up to the send that fails there is no difference, and there the lenient script goes on as if refused. -/
inductive Spares (calls : List Call) (count : UInt64) : Offered Script → Offered Script → Prop
  | unfailed {o o' : Offered Script} (made : List Call) : o.failed = false → o.calls = made ++ calls →
      (∀ call ∈ made, call.fails = false) → Spares calls count o o'
  | refused {rest : List UInt8} (sender : Script) (offered : List UInt8) (made : List Call) : rest ≠ [] →
      (∀ call ∈ made, call.fails = false) →
      Spares calls count ⟨sender, rest, count + countSent made, true, .send offered .failed :: (made ++ calls)⟩
        ⟨sender, rest, count + countSent made, false, .send offered (.accepted 0) :: (made ++ calls)⟩

theorem offer_spares (chunk : Nat) (sender : Script) (input : List UInt8) (count : UInt64) (calls : List Call) :
    Spares calls count (offer chunk sender input count calls) (offer chunk sender.lenient input count calls) := by
  -- The scripts differ in one answer: before it both take the same bytes, and at it both loops stop.
  fun_induction offer chunk sender input count calls with
  | case1 => exact .unfailed [] rfl rfl (by simp)
  | case2 sender input count calls hne _ next hsend =>
    rw [offer_of_refused count calls hne (Script.send_lenient_of_failed hsend)]
    have same : Spares calls count _ _ := .refused next (input.take chunk) [] hne (by simp)
    rwa [show count + countSent [] = count from UInt64.add_zero _] at same
  | case3 => exact .unfailed [_] rfl rfl (by simp [Call.fails])
  | case4 sender input count calls hne offered next n taken hsome hsend =>
    rename_i ih
    rw [offer_of_taken count calls hne (Script.send_lenient_of_accepted hsend) hsome]
    generalize offer chunk next _ _ _ = o at ih ⊢
    generalize offer chunk next.lenient _ _ _ = o' at ih ⊢
    have accepted : ∀ {made : List Call}, (∀ call ∈ made, call.fails = false) →
        ∀ call ∈ made ++ [.send offered (.accepted n)], call.fails = false := by
      intro made hmade
      rw [List.forall_mem_append]
      exact ⟨hmade, by simp [Call.fails]⟩
    cases ih with
    | unfailed made hok hcalls hmade =>
      refine .unfailed _ hok ?_ (accepted hmade)
      rw [hcalls, List.append_assoc]
      rfl
    | refused last chunk' made hrest hmade =>
      have one : countSent [.send offered (.accepted n)] = taken.toUInt64 := by
        simp [countSent, Call.sent, Answer.taken, taken]
      have counted : count + taken.toUInt64 + countSent made =
          count + countSent (made ++ [.send offered (.accepted n)]) := by
        rw [countSent_append, one, UInt64.add_assoc]
      have same : Spares calls count _ _ := .refused last chunk' _ hrest (accepted hmade)
      rw [List.append_assoc] at same
      rw [counted]
      exact same

/-! ## Up to the failure -/

/-- A later point of one reaction: no send has failed, and the output is still to be written. -/
structure Underway (b c : Bridge Script) : Prop where
  calls : ∃ made, c.calls = made ++ b.calls ∧ (∀ call ∈ made, call.fails = false) ∧
    c.stats.bytesToConnection = b.stats.bytesToConnection + countSent made
  attached : c.attached = b.attached
  finished : c.finished = b.finished
  stream : ∀ s, b.stream = some s → ∃ s', c.stream = some s' ∧ s'.output = s.output ∧
    (s.output ≠ [] → s'.writes = s.writes)

namespace Underway

variable {b c d : Bridge Script} {s : Stream}

theorem trans (h : Underway b c) (h' : Underway c d) : Underway b d := by
  obtain ⟨made, hcalls, hmade, hcount⟩ := h.calls
  obtain ⟨made', hcalls', hmade', hcount'⟩ := h'.calls
  refine ⟨⟨made' ++ made, ?_, ?_, ?_⟩, h'.attached.trans h.attached, h'.finished.trans h.finished, ?_⟩
  · rw [hcalls', hcalls, List.append_assoc]
  · exact List.forall_mem_append.mpr ⟨hmade', hmade⟩
  · rw [hcount', hcount, countSent_append, UInt64.add_assoc]
  · intro s hs
    obtain ⟨s', hs', ho, hw⟩ := h.stream s hs
    obtain ⟨s'', hs'', ho', hw'⟩ := h'.stream s' hs'
    exact ⟨s'', hs'', ho'.trans ho, fun hne => (hw' (ho ▸ hne)).trans (hw hne)⟩

theorem of_silent (made : List Call) (hcalls : c.calls = made ++ b.calls) (hmade : ∀ call ∈ made, call.isSend = false)
    (hstats : c.stats = b.stats) (ha : c.attached = b.attached) (hf : c.finished = b.finished)
    (hstream : ∀ s, b.stream = some s → ∃ s', c.stream = some s' ∧ s'.output = s.output ∧
      (s.output ≠ [] → s'.writes = s.writes)) : Underway b c := by
  have nothing : made.reverse.flatMap Call.sent = [] :=
    List.flatMap_eq_nil_iff.mpr fun call hc => Call.sent_of_not_isSend (hmade call (List.mem_reverse.mp hc))
  refine ⟨⟨made, hcalls, fun call hc => Call.not_fails_of_not_isSend (hmade call hc), ?_⟩, ha, hf, hstream⟩
  rw [hstats, countSent, nothing]
  exact (UInt64.add_zero _).symm

theorem refl (b : Bridge Script) : Underway b b :=
  of_silent [] rfl (by simp) rfl rfl rfl fun s hs => ⟨s, hs, rfl, fun _ => rfl⟩

theorem record (call : Call) (hcall : call.isSend = false) : Underway b (b.record call) :=
  of_silent [call] rfl (by simpa using hcall) rfl rfl rfl fun s hs => ⟨s, hs, rfl, fun _ => rfl⟩

theorem suspend : Underway b { b with suspended := true } :=
  of_silent [] rfl (by simp) rfl rfl rfl fun s hs => ⟨s, hs, rfl, fun _ => rfl⟩

theorem connected : Underway b b.connected := by
  rw [connected_eq]
  exact of_silent b.announces rfl (fun call hc => Call.isSend_of_toPeer (b.announces_toPeer call hc))
    rfl rfl rfl fun s hs => ⟨s, hs, rfl, fun _ => rfl⟩

theorem stopReading (hs : b.stream = some s) : Underway b (b.keep (s.disable .onlyRead)) := by
  refine of_silent [] rfl (by simp) rfl rfl rfl ?_
  intro t ht
  obtain rfl : s = t := Option.some.inj (hs.symm.trans ht)
  exact ⟨_, rfl, rfl, fun _ => Stream.writes_disable_onlyRead s⟩

theorem endOutput (hs : b.stream = some s) (ho : s.output = []) :
    Underway b ((b.keep (s.disable .onlyWrite)).record .shutdownStream) := by
  refine of_silent [.shutdownStream] rfl (by simp [Call.isSend]) rfl rfl rfl ?_
  intro t ht
  obtain rfl : s = t := Option.some.inj (hs.symm.trans ht)
  exact ⟨_, rfl, rfl, fun hne => absurd ho hne⟩

end Underway

/-- How a reaction compares with that of the lenient bridge: it sees no failure, or there the failure is a refusal
that ends it. -/
inductive Spared (b : Bridge Script) : Bridge Script × Status → Bridge Script × Status → Prop
  | unfailed {r r' : Bridge Script × Status} : MakesOnly (·.fails = false) b r.1 → Spared b r r'
  | refused {c : Bridge Script} {offered : List UInt8} : Underway b c →
      Spared b (c.record (.send offered .failed)).closeConnection.windDownStream
        (c.record (.send offered (.accepted 0)), .active)

section Reactions

variable {b c : Bridge Script} {s : Stream} {r r' : Bridge Script × Status}

namespace Spared

theorem silent (h : MakesOnly (·.isSend = false) b r.1) : Spared b r r' :=
  .unfailed (h.mono fun _ => Call.not_fails_of_not_isSend)

theorem stay (b : Bridge Script) : Spared b (b, .active) r' := .unfailed (.none rfl)

theorem both {p : Prop} [Decidable p] {r₁ r₁' r₂ r₂' : Bridge Script × Status} (yes : p → Spared b r₁ r₁')
    (no : ¬p → Spared b r₂ r₂') : Spared b (if p then r₁ else r₂) (if p then r₁' else r₂') := by
  split
  · exact yes ‹_›
  · exact no ‹_›

theorem after (h : Underway b c) (spared : Spared c r r') : Spared b r r' := by
  cases spared with
  | unfailed later =>
    obtain ⟨made, hcalls, hmade, -⟩ := h.calls
    exact .unfailed (MakesOnly.trans ⟨made, hcalls, hmade⟩ later)
  | refused underway => exact .refused (h.trans underway)

end Spared

/-! ## Operations -/

theorem sendPending_spared (ha : b.attached = true) (hs : b.stream = some s) :
    Spared b b.sendPending b.lenient.sendPending := by
  have spares := offer_spares b.maxChunk b.sender s.input b.stats.bytesToConnection b.calls
  have silent := sendPending_silent ha hs
  rw [sendPending_of_attached ha hs] at silent ⊢
  rw [sendPending_of_attached (b := b.lenient) ha hs]
  dsimp only [offers, lenient] at silent spares ⊢
  generalize offer b.maxChunk b.sender s.input b.stats.bytesToConnection b.calls = o at spares silent ⊢
  generalize offer b.maxChunk b.sender.lenient s.input b.stats.bytesToConnection b.calls = o' at spares ⊢
  cases spares with
  | unfailed _ hok hcalls hmade =>
    have loop : MakesOnly (·.fails = false) b (b.offeredTo s o) := ⟨_, hcalls, hmade⟩
    exact .unfailed (loop.trans (silent.mono fun _ => Call.not_fails_of_not_isSend))
  | @refused rest sender _ made hrest hmade =>
    let c := b.offeredTo s ⟨sender, rest, b.stats.bytesToConnection + countSent made, false, made ++ b.calls⟩
    have underway : Underway b c := by
      refine ⟨⟨made, rfl, hmade, rfl⟩, rfl, rfl, ?_⟩
      intro t ht
      obtain rfl : s = t := Option.some.inj (hs.symm.trans ht)
      exact ⟨_, rfl, rfl, fun _ => rfl⟩
    -- The refusal leaves input, so nothing ends after it.
    have waits : ∀ d : Bridge Script, d.afterSending { s with input := rest } = (d, .active) := by
      intro d
      exact if_pos (by simp [hrest])
    rw [if_pos rfl, if_neg Bool.false_ne_true, waits]
    exact .refused underway

theorem endOutput_spared (ha : b.attached = true) (hs : b.stream = some s) (ho : s.output = []) :
    Spared b b.endOutput b.lenient.endOutput := by
  have goes_on : ∀ {c : Bridge Script} {s' : Stream}, Underway b c → c.stream = some s' →
      Spared b (if s.reads then (c, .active) else c.sendPending)
        (if s.reads then (c.lenient, .active) else c.lenient.sendPending) := by
    intro c s' underway hs'
    refine .after underway (.both (fun _ => .stay c) fun _ => ?_)
    exact sendPending_spared (underway.attached.trans ha) hs'
  have hs' : b.lenient.stream = some s := hs
  rw [endOutput, endOutput, hs, hs']
  dsimp only
  cases s.writes with
  | false => exact goes_on (.refl b) hs
  | true => exact goes_on (.endOutput hs ho) rfl

theorem outputDrained_spared (ha : b.attached = true) (hs : b.stream = some s) :
    Spared b b.outputDrained b.lenient.outputDrained := by
  have ha' : b.lenient.attached = true := ha
  have hs' : b.lenient.stream = some s := hs
  rw [outputDrained, outputDrained, hs, hs', ha, ha']
  dsimp only
  refine .both (fun _ => .stay b) fun ho => ?_
  have ho : s.output = [] := by simpa using ho
  refine .after (.record .readDrained rfl) ?_
  rw [Bool.not_true, if_neg Bool.false_ne_true, if_neg Bool.false_ne_true]
  exact .both (fun _ => endOutput_spared (b := b.record .readDrained) ha hs ho) fun _ => .stay _

theorem connectionEnded_of_open (hs : b.stream = some s) :
    b.connectionEnded =
      if s.output.isEmpty then { b with suspended := true }.endOutput
      else ({ b with suspended := true }, .active) := by
  rcases b with ⟨_, _, _, _⟩
  subst hs
  rfl

theorem connectionEnded_spared (ha : b.attached = true) (hs : b.stream = some s) :
    Spared b b.connectionEnded b.lenient.connectionEnded := by
  rw [connectionEnded_of_open hs, connectionEnded_of_open (b := b.lenient) hs]
  refine .after .suspend (.both (fun ho => ?_) fun _ => .stay _)
  exact endOutput_spared (b := { b with suspended := true }) ha hs (List.isEmpty_iff.mp ho)

theorem inputEnded_spared (ha : b.attached = true) (hs : b.stream = some s) :
    Spared b b.inputEnded b.lenient.inputEnded := by
  have hs' : b.lenient.stream = some s := hs
  rw [inputEnded, inputEnded, hs, hs']
  dsimp only
  refine .after (.stopReading hs) (.both (fun _ => ?_) fun _ => ?_)
  · exact sendPending_spared (b := b.keep (s.disable .onlyRead)) ha rfl
  · refine .silent ?_
    rw [keep_attached, if_pos ha]
    exact (closeConnection_silent (b := b.keep _) ha).trans (windDownStream_silent _)

/-! ## Events after which nothing is sent -/

theorem abandon_silent (ha : b.attached = true) : MakesOnly (·.isSend = false) b b.abandon.1 := by
  rw [abandon, if_pos ha]
  exact ((closeConnection_silent ha).trans (discardStream_silent _)).trans (conclude_silent _)

theorem inputEnded_silent (ha : b.attached = true) (hs : b.stream = some s) (hsus : b.suspended = true) :
    MakesOnly (·.isSend = false) b b.inputEnded.1 := by
  rw [inputEnded, hs]
  dsimp only
  rw [if_neg (by simp [hsus]), keep_attached, if_pos ha]
  exact (closeConnection_silent (b := b.keep _) ha).trans (windDownStream_silent _)

theorem sendPending_of_empty (ha : b.attached = true) (hs : b.stream = some s) (hi : s.input = []) :
    MakesOnly (·.isSend = false) b b.sendPending.1 := by
  have offers_none : (b.offers s).calls = b.calls := by
    rw [offers, hi, offer, if_pos rfl]
  have loop : MakesOnly (·.isSend = false) b (b.offeredTo s (b.offers s)) := .none offers_none
  exact loop.trans (sendPending_silent ha hs)

theorem endOutput_of_empty (ha : b.attached = true) (hs : b.stream = some s) (hi : s.input = []) :
    MakesOnly (·.isSend = false) b b.endOutput.1 := by
  have goes_on : ∀ {c : Bridge Script} {s' : Stream}, MakesOnly (·.isSend = false) b c → c.attached = true →
      c.stream = some s' → s'.input = [] →
      MakesOnly (·.isSend = false) b
        (if s.reads then (c, .active) else c.sendPending : Bridge Script × Status).1 := by
    intro c s' told ha hs' hi
    split
    · exact told
    · exact told.trans (sendPending_of_empty ha hs' hi)
  rw [endOutput, hs]
  dsimp only
  cases s.writes with
  | false => exact goes_on (.none rfl) ha hs hi
  | true => exact goes_on (.one rfl rfl) ha rfl hi

theorem streamFailed_silent (ha : b.attached = true) (hs : b.stream = some s) (d : Directions) :
    MakesOnly (·.isSend = false) b (b.streamFailed d).1 := by
  rw [streamFailed, hs]
  dsimp only
  split
  swap
  · exact abandon_silent ha
  next hempty =>
  have hi : (if d.contains .onlyWrite then { s.disable .onlyWrite with output := [] } else s).input = [] := by
    split
    all_goals simpa [ha, Stream.disable] using hempty
  -- From here on it may be any stream that is held.
  generalize (if d.contains .onlyWrite then { s.disable .onlyWrite with output := [] } else s) = s' at *
  have told : MakesOnly (·.isSend = false) b ({ b.keep s' with suspended := true }.record (.shutdown .receive)) :=
    .one rfl rfl
  split
  · exact told.trans (endOutput_of_empty ha rfl hi)
  · exact told

theorem streamEnded_silent (ha : b.attached = true) (hs : b.stream = some s) (d : Directions)
    (hd : d.contains .onlyWrite = true) : MakesOnly (·.isSend = false) b (b.streamEnded d).1 := by
  rw [streamEnded, hd, if_neg (by decide), hs]
  dsimp only
  split
  · exact abandon_silent (b := b.keep _) ha
  rw [keep_attached, if_pos ha]
  have told : ∀ s', MakesOnly (·.isSend = false) b
      ({ b.keep s' with suspended := true }.record (.shutdown .receive)) := fun s' => .one rfl rfl
  split
  · exact (told _).trans (inputEnded_silent ha rfl rfl)
  · exact told _

/-! ## Reactions -/

theorem streamEnded_spared (ha : b.attached = true) (hs : b.stream = some s) (d : Directions) :
    Spared b (b.streamEnded d) (b.lenient.streamEnded d) := by
  cases hd : d.contains .onlyWrite with
  | true => exact .silent (streamEnded_silent ha hs d hd)
  | false =>
    rw [streamEnded, streamEnded, hd, Bool.not_false, if_pos rfl, if_pos rfl]
    exact .both (fun _ => inputEnded_spared ha hs) fun _ => .stay b

theorem writable_spared (ha : b.attached = true) (hs : b.stream = some s) :
    Spared b b.writable b.lenient.writable := by
  rw [writable_of_open hs, writable_of_open (b := b.lenient) hs]
  exact sendPending_spared ha hs

theorem queueOutput_silent (hs : b.stream = some s) (data : List UInt8) :
    MakesOnly (·.isSend = false) b (b.queueOutput data).1 := by
  cases hw : s.writes with
  | true =>
    rw [queueOutput_of_writes data hs hw]
    exact .none rfl
  | false =>
    rw [queueOutput_of_not_writes data hs hw]
    exact .none rfl

theorem onConnection_spared (ha : b.attached = true) (hs : b.stream = some s) (hf : b.finished = false)
    (e : ConnectionEvent) : Spared b (b.onConnection e) (b.lenient.onConnection e) := by
  have hf' : b.lenient.finished = false := hf
  have ha' : b.lenient.attached = true := ha
  unfold onConnection
  rw [hf, hf', ha, ha']
  simp only [Bool.false_eq_true, if_false, Bool.not_true]
  cases e with
  | connected =>
    have told : Underway b b.connected := .connected
    dsimp only
    rw [connected_eq] at told
    rw [connected_eq, connected_eq]
    exact .after told (writable_spared ha hs)
  | writable => exact writable_spared ha hs
  | read data => exact .silent (queueOutput_silent hs data)
  | eof => exact connectionEnded_spared ha hs
  | error => exact .silent ((closeConnection_silent ha).trans (windDownStream_silent _))
  | destroying => exact .stay b

theorem onStream_spared (ha : b.attached = true) (hs : b.stream = some s) (hf : b.finished = false)
    (e : StreamEvent) : Spared b (b.onStream e) (b.lenient.onStream e) := by
  rw [onStream_of_open hf hs, onStream_of_open (b := b.lenient) hf hs]
  cases e with
  | readable => exact sendPending_spared ha hs
  | drained => exact outputDrained_spared ha hs
  | connected => exact .stay b
  | error d => exact .silent (streamFailed_silent ha hs d)
  | eof d => exact streamEnded_spared ha hs d

theorem react_spared (ha : b.attached = true) (hs : b.stream = some s) (hf : b.finished = false) (event : Event) :
    Spared b (b.react event) (b.lenient.react event) := by
  cases event with
  | connection e => exact onConnection_spared ha hs hf e
  | stream e => exact onStream_spared ha hs hf e

/-! ## Parting -/

theorem react_error (ha : b.attached = true) (hf : b.finished = false) (fault : ConnectionFault) :
    b.react (.connection (.error fault)) = b.closeConnection.windDownStream := by
  simp [react, onConnection, ha, hf]

theorem parting_after (b : Bridge Script) (call : Call) :
    (b.record call).closeConnection.windDownStream =
      reactionSince (call :: b.calls) b.collected.closeConnection.windDownStream := by
  rw [show b.record call = b.collected.since (call :: b.calls) from rfl, closeConnection_since, windDownStream_since]

theorem windDownStream_of_drained (ha : b.attached = false) (hs : b.stream = some s) (ho : s.output = []) :
    b.windDownStream.1.stream = none ∧ b.windDownStream.2 = .finished ∧
      b.windDownStream.1.stats.bytesToConnection = b.stats.bytesToConnection := by
  have closed := closeStream_conclude (b := b.keep (({ s with input := [] }.disable .onlyRead).disable .onlyWrite))
    ha rfl rfl ho (Directions.sdiff_sdiff_subset ..)
  unfold windDownStream
  rw [hs]
  dsimp only
  rw [if_pos (by simp [Stream.disable, ho]), closed]
  refine ⟨rfl, rfl, ?_⟩
  dsimp only
  split
  all_goals rfl

theorem windDownStream_of_pending (hs : b.stream = some s) (ho : s.output ≠ []) :
    b.windDownStream = (b.keep ({ s with input := [] }.disable .onlyRead), .active) := by
  unfold windDownStream
  rw [hs]
  dsimp only
  rw [if_neg (by simp [Stream.disable, ho])]
  exact conclude_of_open rfl

theorem closeConnection_stats (ha : b.attached = true) : b.closeConnection.stats = b.stats := by
  rw [closeConnection_eq ha]

theorem parting_keeps (ha : b.attached = true) (hs : b.stream = some s) :
    b.closeConnection.windDownStream.1.stats.bytesToConnection = b.stats.bytesToConnection ∧
      (s.output = [] →
        b.closeConnection.windDownStream.1.stream = none ∧ b.closeConnection.windDownStream.2 = .finished) ∧
      (s.output ≠ [] → b.closeConnection.windDownStream.2 = .active ∧
        ∃ s', b.closeConnection.windDownStream.1.stream = some s' ∧ s'.output = s.output ∧ s'.writes = s.writes) := by
  have hs' : b.closeConnection.stream = some s := (closeConnection_stream b).trans hs
  by_cases ho : s.output = []
  · obtain ⟨gone, finished, counted⟩ := windDownStream_of_drained (closeConnection_attached b) hs' ho
    exact ⟨counted.trans (by rw [closeConnection_stats ha]), fun _ => ⟨gone, finished⟩, fun hne => absurd ho hne⟩
  · rw [windDownStream_of_pending hs' ho]
    refine ⟨?_, fun h => absurd h ho, fun _ => ⟨rfl, _, rfl, rfl, Stream.writes_disable_onlyRead _⟩⟩
    exact congrArg _ (closeConnection_stats ha)

end Reactions

/-- A reaction in which a send fails, and the same reaction with that send refused and then an error of the
connection: one state, one status and, that answer apart, one series of calls. -/
theorem failed_send_as_error {b : Bridge Script} {s : Stream} {made : List Call} (ha : b.attached = true)
    (hs : b.stream = some s) (hf : b.finished = false) (event : Event)
    (hmade : Makes made b (b.react event).1) (hfails : ∃ call ∈ made, call.fails = true) :
    ∃ before offered after, made = before ++ .send offered .failed :: after ∧
      (∀ call ∈ before, call.fails = false) ∧ (∀ call ∈ after, call.isSend = false) ∧
      (b.lenient.react event).1.trace = b.trace ++ before ++ [.send offered (.accepted 0)] ∧
      (b.lenient.react event).2 = .active ∧
      (∀ fault, (b.lenient.react event).1.react (.connection (.error fault)) =
        ({ (b.react event).1 with calls := (b.trace ++ before ++ .send offered (.accepted 0) :: after).reverse },
          (b.react event).2)) ∧
      (b.react event).1.stats.bytesToConnection =
        b.stats.bytesToConnection + (before.flatMap Call.sent).length.toUInt64 ∧
      (s.output = [] → (b.react event).1.stream = none ∧ (b.react event).2 = .finished) ∧
      (s.output ≠ [] → (b.react event).2 = .active ∧
        ∃ s', (b.react event).1.stream = some s' ∧ s'.output = s.output ∧ s'.writes = s.writes) := by
  have spared := react_spared ha hs hf event
  generalize b.react event = r at hmade spared ⊢
  generalize b.lenient.react event = r' at spared ⊢
  cases spared with
  | unfailed unmade =>
    obtain ⟨made', hmade', hnone⟩ := unmade.makes
    obtain rfl := hmade.unique hmade'
    obtain ⟨call, hcall, hfail⟩ := hfails
    cases hfail.symm.trans (hnone call hcall)
  | @refused c offered underway =>
    obtain ⟨earlier, hcalls, hearlier, hcount⟩ := underway.calls
    have ha' : c.attached = true := underway.attached.trans ha
    have hf' : c.finished = false := underway.finished.trans hf
    obtain ⟨s', hs', ho, hw⟩ := underway.stream s hs
    -- The parting by itself.
    obtain ⟨later, hlater, hsilent⟩ :=
      (closeConnection_silent (b := c.collected) ha').trans (windDownStream_silent _)
    obtain ⟨counted, drained, pending⟩ := parting_keeps (b := c.collected) ha' hs'
    have hlater : c.collected.closeConnection.windDownStream.1.calls = later := hlater.trans (List.append_nil _)
    have parts := fun call => parting_after c call
    rw [parts] at hmade ⊢
    generalize c.collected.closeConnection.windDownStream = q at *
    have trace_since : ∀ call : Call,
        (later ++ call :: c.calls).reverse = b.trace ++ earlier.reverse ++ call :: later.reverse := by
      intro call
      rw [hcalls]
      simp [trace]
    refine ⟨earlier.reverse, offered, later.reverse, ?_, ?_, ?_, ?_, rfl, ?_, ?_, ?_, ?_⟩
    · refine hmade.unique ?_
      unfold Makes
      rw [← List.append_assoc, ← trace_since, ← hlater]
      rfl
    · exact fun call hc => hearlier call (List.mem_reverse.mp hc)
    · exact fun call hc => hsilent call (List.mem_reverse.mp hc)
    · rw [trace, record_calls, hcalls]
      simp [trace]
    · intro fault
      rw [react_error (b := c.record _) ha' hf', parts, ← trace_since, List.reverse_reverse, ← hlater]
      rfl
    · exact counted.trans hcount
    · exact fun hnone => drained (ho.trans hnone)
    · intro hne
      obtain ⟨active, kept, hkept, ho', hw'⟩ := pending (ho ▸ hne)
      exact ⟨active, kept, hkept, ho'.trans ho, hw'.trans (hw hne)⟩

/-- The second chunk fails while output is queued. -/
theorem failed_send_as_error_second :
    let s : Stream := { enabled := .both, input := [1, 2, 3], output := [9] }
    let b : Bridge Script :=
      { sender := { answers := [.accepted 2, .failed, .accepted 7] }, stream := some s, peer := some 4, maxChunk := 2 }
    let made := [.send [1, 2] (.accepted 2), .send [3] .failed, .closeConnection, .peerReleased 4]
    let failed := b.react (.stream .readable)
    b.attached = true ∧ b.stream = some s ∧ b.finished = false ∧ Makes made b failed.1 ∧
      (∃ call ∈ made, call.fails = true) ∧ (b.lenient.react (.stream .readable)).2 = .active ∧
      failed.1.stats.bytesToConnection = 2 ∧ ∃ s', failed.1.stream = some s' ∧ s'.output = [9] := by
  intro s b made failed
  have hmade : Makes made b failed.1 := by
    unfold Makes
    decide +kernel
  have hfails : ∃ call ∈ made, call.fails = true := by decide
  obtain ⟨before, offered, after, hsplit, hbefore, -, -, active, -, counted, -, kept⟩ :=
    failed_send_as_error (b := b) (s := s) rfl rfl rfl (.stream .readable) hmade hfails
  obtain ⟨-, s', hs', houtput, -⟩ := kept (by decide)
  exact ⟨rfl, rfl, rfl, hmade, hfails, active, by decide +kernel, s', hs', houtput⟩

end Bridge

end Splice
