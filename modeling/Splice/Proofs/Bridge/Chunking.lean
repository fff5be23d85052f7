import Splice.Proofs.Bridge.Backpressure
import Splice.Proofs.Bridge.Sending

/-!
# Chunks

Pending input is offered chunk after chunk, each time from where the connection has got to. No series of answers
makes the bridge offer more often than there are bytes. How much is moved through a window depends on the window
alone, and the size of a chunk only says in how many sends.
-/

namespace Splice

def Call.offered : Call → List UInt8
  | send offered _ => offered
  | _ => []

theorem Answer.taken_append_drop {offered input : List UInt8} (n : Nat) (h : offered <+: input) :
    (accepted n).taken offered ++ input.drop (min n offered.length) = input := by
  obtain ⟨rest, rfl⟩ := h
  rw [taken, List.take_eq_take_min, List.drop_append_of_le_length (Nat.min_le_right ..), ← List.append_assoc,
    List.take_append_drop]

/-! ## Windows -/

/-- Each offer is taken as far as there is room, and what is taken uses the room up. -/
structure Sender.Windowed {σ : Type} [Sender σ] (room : σ → Nat) : Prop where
  answer : ∀ sender offered, (Sender.send sender offered).1 = .accepted (min offered.length (room sender))
  room_left : ∀ sender offered,
    room (Sender.send sender offered).2 = room sender - min offered.length (room sender)

structure Window where
  room : Nat
  deriving DecidableEq

namespace Window

def send (w : Window) (offered : List UInt8) : Answer × Window :=
  (.accepted (min offered.length w.room), ⟨w.room - min offered.length w.room⟩)

instance : Sender Window := ⟨send⟩

theorem windowed : Sender.Windowed Window.room := ⟨fun _ _ => rfl, fun _ _ => rfl⟩

end Window

namespace Bridge

variable {σ : Type} [Sender σ] {chunk : Nat} {sender left : σ} {input rest : List UInt8} {sends : List Call}

/-! ## Series of sends -/

/-- The sends of one loop in order, from a sender and its input to what is left of both. -/
inductive Offering (chunk : Nat) : σ → List UInt8 → List Call → σ → List UInt8 → Prop
  | nothing {sender : σ} : Offering chunk sender [] [] sender []
  | stops {sender left : σ} {input : List UInt8} {answer : Answer} : input ≠ [] →
      Sender.send sender (input.take chunk) = (answer, left) → answer.taken (input.take chunk) = [] →
      Offering chunk sender input [.send (input.take chunk) answer] left input
  | goesOn {sender next left : σ} {input untaken rest : List UInt8} {answer : Answer} {sends : List Call} :
      Sender.send sender (input.take chunk) = (answer, next) → answer.taken (input.take chunk) ≠ [] →
      answer.taken (input.take chunk) ++ untaken = input → Offering chunk next untaken sends left rest →
      Offering chunk sender input (.send (input.take chunk) answer :: sends) left rest

theorem offer_offering (chunk : Nat) (sender : σ) (input : List UInt8) (count : UInt64) (calls : List Call) :
    ∃ sends, (offer chunk sender input count calls).calls = sends.reverse ++ calls ∧
      Offering chunk sender input sends (offer chunk sender input count calls).sender
        (offer chunk sender input count calls).rest := by
  fun_induction offer chunk sender input count calls with
  | case1 => exact ⟨[], rfl, .nothing⟩
  | case2 _ input _ _ hne =>
    rename_i hsend _
    exact ⟨_, rfl, .stops hne hsend rfl⟩
  | case3 _ input _ _ hne _ _ n _ hnone hsend =>
    refine ⟨_, rfl, .stops hne hsend ?_⟩
    apply List.eq_nil_of_length_eq_zero
    rw [Answer.taken, List.length_take]
    exact hnone
  | case4 _ input _ _ hne offered _ n _ hsome hsend =>
    rename_i ih
    obtain ⟨sends, hcalls, offering⟩ := ih
    have some_taken : (Answer.accepted n).taken offered ≠ [] := by
      apply List.ne_nil_of_length_pos
      rw [Answer.taken, List.length_take]
      exact Nat.pos_of_ne_zero hsome
    refine ⟨_ :: sends, ?_, .goesOn hsend some_taken (Answer.taken_append_drop n (List.take_prefix ..)) offering⟩
    rw [hcalls, List.reverse_cons, List.append_assoc]
    rfl

namespace Offering

theorem sends_only (h : Offering chunk sender input sends left rest) : ∀ call ∈ sends, call.isSend = true := by
  induction h with
  | nothing => simp
  | stops => simp [Call.isSend]
  | goesOn _ _ _ _ ih => simpa [Call.isSend] using ih

/-- Every send but the last takes at least one byte. -/
theorem length_le (h : Offering chunk sender input sends left rest) : sends.length ≤ input.length := by
  induction h with
  | nothing => simp
  | stops hne => exact List.length_pos_iff.mpr hne
  | goesOn _ hsome hinput _ ih =>
    have := List.length_pos_iff.mpr hsome
    rw [← hinput, List.length_append, List.length_cons]
    omega

theorem ne_nil_of_taken {answer : Answer} {untaken : List UInt8} (hsome : answer.taken (input.take chunk) ≠ [])
    (hinput : answer.taken (input.take chunk) ++ untaken = input) : input ≠ [] := by
  rw [← hinput]
  exact List.append_ne_nil_of_left_ne_nil hsome _

/-- Each send offers the chunk that follows what was taken before. -/
theorem next_chunk (hchunk : 1 ≤ chunk) (h : Offering chunk sender input sends left rest)
    {before after : List Call} {call : Call} (hsplit : sends = before ++ call :: after) :
    ∃ untaken, before.flatMap Call.sent ++ untaken = input ∧ call.offered = untaken.take chunk ∧
      call.offered ≠ [] := by
  have nonempty : ∀ {input : List UInt8}, input ≠ [] → input.take chunk ≠ [] := by
    intro input hne
    have : chunk ≠ 0 := by omega
    simp [List.take_eq_nil_iff, hne, this]
  induction h generalizing before with
  | nothing => simp at hsplit
  | stops hne =>
    cases before with
    | nil =>
      obtain ⟨rfl, -⟩ := List.cons.inj hsplit
      exact ⟨_, rfl, rfl, nonempty hne⟩
    | cons => simp at hsplit
  | goesOn _ hsome hinput _ ih =>
    cases before with
    | nil =>
      obtain ⟨rfl, -⟩ := List.cons.inj hsplit
      exact ⟨_, rfl, rfl, nonempty (ne_nil_of_taken hsome hinput)⟩
    | cons first before =>
      obtain ⟨rfl, hlater⟩ := List.cons.inj hsplit
      obtain ⟨untaken, hbefore, hoffered⟩ := ih hlater
      refine ⟨untaken, ?_, hoffered⟩
      rw [List.flatMap_cons, List.append_assoc, hbefore]
      exact hinput

theorem sent_append_rest (h : Offering chunk sender input sends left rest) :
    sends.flatMap Call.sent ++ rest = input := by
  induction h with
  | nothing => rfl
  | stops _ _ hnone => simp [Call.sent, hnone]
  | goesOn _ _ hinput _ ih =>
    rw [List.flatMap_cons, List.append_assoc, ih]
    exact hinput

/-! ## Through a window -/

section Windowed

variable {room : σ → Nat}

theorem taken_length (hroom : Sender.Windowed room) {next : σ} {answer : Answer}
    (hsend : Sender.send sender (input.take chunk) = (answer, next)) :
    (answer.taken (input.take chunk)).length = min (input.take chunk).length (room sender) ∧
      room next = room sender - min (input.take chunk).length (room sender) := by
  have hanswer := hroom.answer sender (input.take chunk)
  have hleft := hroom.room_left sender (input.take chunk)
  rw [hsend] at hanswer hleft
  refine ⟨?_, hleft⟩
  rw [show answer = _ from hanswer, Answer.taken, List.length_take]
  omega

theorem rest_eq (hroom : Sender.Windowed room) (hchunk : 1 ≤ chunk)
    (h : Offering chunk sender input sends left rest) : rest = input.drop (room sender) := by
  induction h with
  | nothing => simp
  | @stops sender _ _ _ hne hsend hnone =>
    have htaken := (taken_length hroom hsend).1
    have := List.length_pos_iff.mpr hne
    rw [hnone, List.length_nil, List.length_take] at htaken
    have full : room sender = 0 := by omega
    rw [full, List.drop_zero]
  | @goesOn sender next _ input untaken _ answer _ hsend _ hinput _ ih =>
    obtain ⟨htaken, hleft⟩ := taken_length hroom hsend
    have enough : (answer.taken (input.take chunk)).length ≤ room sender := by omega
    calc
      _ = untaken.drop (room next) := ih
      _ = untaken.drop (room sender - (answer.taken (input.take chunk)).length) := by rw [hleft, htaken]
      _ = (answer.taken (input.take chunk) ++ untaken).drop (room sender) := by
        rw [List.drop_append, List.drop_eq_nil_of_le enough, List.nil_append]
      _ = input.drop (room sender) := by rw [hinput]

theorem sent_eq (hroom : Sender.Windowed room) (hchunk : 1 ≤ chunk)
    (h : Offering chunk sender input sends left rest) : sends.flatMap Call.sent = input.take (room sender) := by
  have whole := h.sent_append_rest
  rw [h.rest_eq hroom hchunk] at whole
  exact List.append_cancel_right (whole.trans (List.take_append_drop _ _).symm)

theorem whole_chunks (hroom : Sender.Windowed room) (hchunk : 1 ≤ chunk)
    (h : Offering chunk sender input sends left rest) (hfits : input.length ≤ room sender) :
    sends.length = (input.length + chunk - 1) / chunk ∧ ∀ call ∈ sends.dropLast, call.offered.length = chunk := by
  induction h with
  | nothing =>
    refine ⟨?_, by simp⟩
    exact (Nat.div_eq_of_lt (by simp; omega)).symm
  | stops hne hsend hnone =>
    have htaken := (taken_length hroom hsend).1
    have := List.length_pos_iff.mpr hne
    rw [hnone, List.length_nil, List.length_take] at htaken
    omega
  | @goesOn sender next _ input untaken _ answer sends hsend hsome hinput offering ih =>
    obtain ⟨htaken, hleft⟩ := taken_length hroom hsend
    have hlength : (answer.taken (input.take chunk)).length + untaken.length = input.length := by
      rw [← List.length_append, hinput]
    rw [List.length_take] at htaken hleft
    have one_le : 1 ≤ input.length := List.length_pos_iff.mpr (ne_nil_of_taken hsome hinput)
    obtain ⟨hcount, hfull⟩ := ih (by omega)
    by_cases hlast : input.length ≤ chunk
    · -- The only chunk.
      have none_left : sends.length ≤ 0 := by
        have := offering.length_le
        omega
      obtain rfl : sends = [] := List.eq_nil_of_length_eq_zero (by omega)
      refine ⟨?_, by simp⟩
      exact (Nat.div_eq_of_lt_le (by simp; omega) (by simp; omega)).symm
    · have hdrop : untaken.length = input.length - chunk := by omega
      refine ⟨?_, ?_⟩
      · rw [List.length_cons, hcount, hdrop, ← Nat.add_div_right _ (by omega : 0 < chunk)]
        congr 1
        omega
      · have more : sends ≠ [] := by
          apply List.ne_nil_of_length_pos
          rw [hcount, hdrop]
          exact Nat.div_pos (by omega) (by omega)
        rw [List.dropLast_cons_of_ne_nil more, List.forall_mem_cons]
        refine ⟨?_, hfull⟩
        rw [Call.offered, List.length_take]
        omega

end Windowed

end Offering

theorem offer_windowed {room : σ → Nat} (hroom : Sender.Windowed room) (chunk : Nat) (sender : σ)
    (input : List UInt8) (count : UInt64) (calls : List Call) :
    (offer chunk sender input count calls).failed = false := by
  fun_induction offer chunk sender input count calls with
  | case1 | case3 => rfl
  | case2 sender _ _ _ _ offered =>
    rename_i hsend _
    have answered := hroom.answer sender offered
    rw [hsend] at answered
    cases answered
  | case4 =>
    rename_i ih
    exact ih

/-! ## After the sends -/

section Ending

variable {b : Bridge σ} {s : Stream}

omit [Sender σ]

theorem conclude_silent (b : Bridge σ) : MakesOnly (·.isSend = false) b b.conclude.1 := by
  unfold conclude
  split
  all_goals exact .none rfl

theorem closeConnection_silent (ha : b.attached = true) : MakesOnly (·.isSend = false) b b.closeConnection := by
  refine ⟨b.closing, closeConnection_calls ha, ?_⟩
  intro call hc
  rcases closing_cases hc with hc | rfl
  · exact Call.isSend_of_toPeer hc
  · rfl

theorem closeStream_silent (b : Bridge σ) : MakesOnly (·.isSend = false) b b.closeStream := by
  unfold closeStream
  split
  · exact .none rfl
  · dsimp only
    split
    all_goals exact .one rfl rfl

theorem discardStream_silent (b : Bridge σ) : MakesOnly (·.isSend = false) b b.discardStream := by
  unfold discardStream
  split
  · exact .none rfl
  · exact closeStream_silent (b.keep _)

theorem windDownStream_silent (b : Bridge σ) : MakesOnly (·.isSend = false) b b.windDownStream.1 := by
  unfold windDownStream
  split
  · exact conclude_silent b
  · dsimp only
    split
    · exact (closeStream_silent (b.keep _)).trans (conclude_silent _)
    · exact conclude_silent (b.keep _)

theorem conclude_stream (b : Bridge σ) : b.conclude.1.stream = b.stream := by
  unfold conclude
  split
  all_goals rfl

theorem closeStream_stream (b : Bridge σ) : b.closeStream.stream = none := by
  unfold closeStream
  split
  · assumption
  · rfl

theorem discardStream_stream (b : Bridge σ) : b.discardStream.stream = none := by
  unfold discardStream
  split
  · assumption
  · exact closeStream_stream _

theorem afterSending_silent (ha : b.attached = true) (hs : b.stream = some s) :
    MakesOnly (·.isSend = false) b (b.afterSending s).1 ∧ (b.afterSending s).1.pending = s.input := by
  have closes := closeConnection_silent ha
  unfold afterSending
  split
  · exact ⟨.none rfl, pending_of_open hs⟩
  next hdone =>
  have none_left : s.input = [] := by simp_all
  split
  · exact ⟨.one rfl rfl, pending_of_open hs⟩
  · split
    · refine ⟨(closes.trans (closeStream_silent _)).trans (conclude_silent _), ?_⟩
      rw [none_left, pending_of_closed ((conclude_stream _).trans (closeStream_stream _))]
    · refine ⟨(closes.trans (discardStream_silent _)).trans (conclude_silent _), ?_⟩
      rw [none_left, pending_of_closed ((conclude_stream _).trans (discardStream_stream _))]

end Ending

section Pending

variable {b : Bridge σ} {s : Stream}

theorem sendPending_silent (ha : b.attached = true) (hs : b.stream = some s) :
    MakesOnly (·.isSend = false) (b.offeredTo s (b.offers s)) b.sendPending.1 := by
  have attached : (b.offeredTo s (b.offers s)).attached = true := ha
  rw [sendPending_of_attached ha hs]
  dsimp only
  split
  · exact (closeConnection_silent attached).trans (windDownStream_silent _)
  · exact (afterSending_silent attached rfl).1

theorem sendPending_pending (ha : b.attached = true) (hs : b.stream = some s) (hok : (b.offers s).failed = false) :
    b.sendPending.1.pending = (b.offers s).rest := by
  have attached : (b.offeredTo s (b.offers s)).attached = true := ha
  rw [sendPending_of_attached ha hs]
  dsimp only
  rw [if_neg (by simpa [offers] using hok)]
  exact (afterSending_silent attached rfl).2

theorem sendPending_offering (ha : b.attached = true) (hs : b.stream = some s) :
    ∃ sends, b.sendPending.1.trace.filter Call.isSend = b.trace.filter Call.isSend ++ sends ∧
      Offering b.maxChunk b.sender s.input sends (b.offers s).sender (b.offers s).rest := by
  obtain ⟨sends, hcalls, offering⟩ :=
    offer_offering b.maxChunk b.sender s.input b.stats.bytesToConnection b.calls
  obtain ⟨later, hlater, silent⟩ := sendPending_silent ha hs
  have loop : (b.offeredTo s (b.offers s)).calls = sends.reverse ++ b.calls := hcalls
  have none_later : later.filter Call.isSend = [] :=
    List.filter_eq_nil_iff.mpr fun call hc => by simp [silent call hc]
  have all_sends : sends.filter Call.isSend = sends := List.filter_eq_self.mpr offering.sends_only
  refine ⟨sends, ?_, offering⟩
  simp [trace, hlater, loop, none_later, all_sends, List.filter_reverse]

end Pending

theorem run_maxChunk (sender : σ) (stream : Stream) (config : Config) (steps : List Step) :
    ((new sender stream config).run steps).maxChunk = max config.maxChunk 1 := by
  induction steps using List.reverseRecOn with
  | nil => rfl
  | append_singleton steps s ih =>
    have tidy := (tidy_new sender stream config).run steps
    rw [run_snoc]
    cases s with
    | event event =>
      exact tidy.react_preserves (P := fun c => c.maxChunk = max config.maxChunk 1) event
        (fun _ d same => d.maxChunk_eq.trans same) id ih
    | append | replaceInput | replaceOutput | setEnabled =>
      rw [step, change, change?]
      cases Bridge.stream _ <;> exact ih
    | hold peer =>
      rw [step, holdPeer, releasePeer_eq]
      exact ih

/-- However the connection answers, a bridge that sends what is pending makes at most one send for each byte, and
each offers the next chunk of what is not yet taken. Through a window the same bytes go whatever the chunk, and
where they all fit they go in as few sends as possible. -/
theorem sent_chunk_by_chunk (config : Config) :
    (∀ (sender : σ) (stream : Stream) (steps : List Step),
      ((new sender stream config).run steps).maxChunk = max config.maxChunk 1) ∧
    ∀ (b : Bridge σ) (s : Stream), b.attached = true → b.stream = some s → b.maxChunk = max config.maxChunk 1 →
      ∃ sends, b.sendPending.1.trace.filter Call.isSend = b.trace.filter Call.isSend ++ sends ∧
        sends.length ≤ s.input.length ∧
        (∀ before call after, sends = before ++ call :: after →
          ∃ untaken, before.flatMap Call.sent ++ untaken = s.input ∧
            call.offered = untaken.take (max config.maxChunk 1) ∧ call.offered ≠ []) ∧
        ∀ room : σ → Nat, Sender.Windowed room →
          sends.flatMap Call.sent = s.input.take (room b.sender) ∧
          b.sendPending.1.pending = s.input.drop (room b.sender) ∧
          (s.input.length ≤ room b.sender →
            sends.length = (s.input.length + max config.maxChunk 1 - 1) / max config.maxChunk 1 ∧
            (∀ call ∈ sends.dropLast, call.offered.length = max config.maxChunk 1) ∧
            b.sendPending.1.pending = []) := by
  refine ⟨fun sender stream steps => run_maxChunk sender stream config steps, ?_⟩
  intro b s ha hs hmax
  have one_le : 1 ≤ b.maxChunk := hmax ▸ Nat.le_max_right _ _
  obtain ⟨sends, htrace, offering⟩ := sendPending_offering ha hs
  rw [← hmax]
  refine ⟨sends, htrace, offering.length_le, fun _ _ _ => offering.next_chunk one_le, ?_⟩
  intro room hroom
  have left : b.sendPending.1.pending = s.input.drop (room b.sender) :=
    (sendPending_pending ha hs (offer_windowed hroom ..)).trans (offering.rest_eq hroom one_le)
  refine ⟨offering.sent_eq hroom one_le, left, fun hfits => ?_⟩
  obtain ⟨hcount, hfull⟩ := offering.whole_chunks hroom one_le hfits
  exact ⟨hcount, hfull, by rw [left, List.drop_eq_nil_of_le hfits]⟩

/-- Five bytes go in chunks of two through a window with room for six. -/
theorem sent_chunk_by_chunk_window :
    let b := new (Window.mk 6) { input := [1, 2, 3, 4, 5] } { maxChunk := 2 }
    b.attached = true ∧ b.maxChunk = 2 ∧
      ∃ sends, b.sendPending.1.trace.filter Call.isSend = sends ∧ sends.length = 3 ∧
        sends.flatMap Call.sent = [1, 2, 3, 4, 5] ∧ b.sendPending.1.pending = [] := by
  intro b
  obtain ⟨sends, htrace, -, -, window⟩ := (sent_chunk_by_chunk { maxChunk := 2 }).2 b
    { enabled := .both, input := [1, 2, 3, 4, 5] } rfl rfl rfl
  obtain ⟨hsent, -, whole⟩ := window Window.room Window.windowed
  obtain ⟨hcount, -, hleft⟩ := whole (by decide)
  exact ⟨rfl, rfl, sends, htrace, hcount, hsent, hleft⟩

end Bridge

end Splice
