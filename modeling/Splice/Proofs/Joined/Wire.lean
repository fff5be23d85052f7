import Splice.Joined
import Splice.Proofs.Bridge.HalfClosing

/-!
# What calls put on a wire

The wire carries the bytes that were sent, in the order of the sends, and then at most one end. Nothing
follows the end as long as nothing is sent after it.
-/

namespace Splice.Joined

variable {finSent : Bool} {call : Call} {calls calls' : List Call}

/-- The calls after which no more is sent. -/
def endsSending : Call → Bool
  | .shutdown .transmit | .closeConnection => true
  | _ => false

def payloads (events : List ConnectionEvent) : List UInt8 := events.flatMap ConnectionEvent.payload

theorem payloads_append (events events' : List ConnectionEvent) :
    payloads (events ++ events') = payloads events ++ payloads events' := List.flatMap_append

theorem carry_append (finSent : Bool) (calls calls' : List Call) :
    carry finSent (calls ++ calls') =
      ((carry finSent calls).1 ++ (carry (carry finSent calls).2 calls').1,
        (carry (carry finSent calls).2 calls').2) := by
  induction calls generalizing finSent with
  | nil => rfl
  | cons call calls ih =>
    simp only [List.cons_append, carry, ih, List.append_assoc]

theorem carry_finSent : (carry finSent calls).2 = (finSent || calls.any endsSending) := by
  induction calls generalizing finSent with
  | nil => simp [carry]
  | cons call calls ih =>
    rw [carry]
    dsimp only
    rw [ih, List.any_cons, ← Bool.or_assoc]
    congr 1
    cases call with
    | shutdown half => cases half <;> cases finSent <;> rfl
    | closeConnection => cases finSent <;> rfl
    | _ => cases finSent <;> rfl

theorem payloads_carry : payloads (carry finSent calls).1 = calls.flatMap Call.sent := by
  induction calls generalizing finSent with
  | nil => rfl
  | cons call calls ih =>
    rw [carry]
    dsimp only
    rw [payloads_append, ih, List.flatMap_cons]
    congr 1
    cases call with
    | shutdown half => cases half <;> cases finSent <;> rfl
    | closeConnection => cases finSent <;> rfl
    | send offered answer => exact List.append_nil _
    | _ => rfl

/-! ## The order on the wire -/

/-- Reads, and after them the end if it has been sent. -/
def ReadsThenEnd (finSent : Bool) (events : List ConnectionEvent) : Prop :=
  ∃ reads : List (List UInt8), events = reads.map .read ++ if finSent then [.eof] else []

/-- Once an end was sent, nothing is sent after it. -/
def SendsThenEnd (calls : List Call) : Prop :=
  calls.Pairwise fun later earlier => endsSending earlier = true → later.isSend = false

theorem carry_single (finSent : Bool) (call : Call) :
    carry finSent [call] = ((carried? finSent call).toList, finSent || endsSending call) := by
  have sent : (carry finSent [call]).2 = (finSent || [call].any endsSending) := carry_finSent
  rw [List.any_cons, List.any_nil, Bool.or_false] at sent
  rw [← sent]
  simp [carry]

theorem carry_readsThenEnd (h : SendsThenEnd calls) :
    ReadsThenEnd (carry false calls.reverse).2 (carry false calls.reverse).1 := by
  induction calls with
  | nil => exact ⟨[], rfl⟩
  | cons call calls ih =>
    obtain ⟨hlast, hrest⟩ := List.pairwise_cons.mp h
    obtain ⟨reads, hreads⟩ := ih hrest
    have sent : (carry false calls.reverse).2 = calls.any endsSending := by
      rw [carry_finSent, List.any_reverse, Bool.false_or]
    rw [List.reverse_cons, carry_append, carry_single, hreads]
    generalize (carry false calls.reverse).2 = finSent at *
    cases hcall : call.isSend with
    | true =>
      have not_sent : finSent = false := by
        rw [sent, List.any_eq_false]
        intro earlier he hends
        rw [hlast earlier he hends] at hcall
        cases hcall
      cases call with
      | send offered answer => exact ⟨reads ++ [answer.taken offered], by simp [not_sent, carried?, endsSending]⟩
      | _ => cases hcall
    | false =>
      refine ⟨reads, ?_⟩
      cases call with
      | send => cases hcall
      | shutdown half => cases half <;> cases finSent <;> simp [carried?, endsSending]
      | closeConnection => cases finSent <;> simp [carried?, endsSending]
      | _ => simp [carried?, endsSending]

namespace ReadsThenEnd

variable {events heard : List ConnectionEvent}

theorem reads_or_eof (h : ReadsThenEnd finSent events) : ∀ e ∈ events, (∃ data, e = .read data) ∨ e = .eof := by
  obtain ⟨reads, rfl⟩ := h
  intro e he
  rcases List.mem_append.mp he with he | he
  · obtain ⟨data, -, rfl⟩ := List.mem_map.mp he
    exact .inl ⟨data, rfl⟩
  · cases finSent with
    | false => cases he
    | true => exact .inr (List.mem_singleton.mp he)

theorem finSent_of_mem (h : ReadsThenEnd finSent events) (he : .eof ∈ events) : finSent = true := by
  obtain ⟨reads, rfl⟩ := h
  by_contra hno
  simp [hno] at he

theorem eof_of_finSent (h : ReadsThenEnd true events) : .eof ∈ events := by
  obtain ⟨reads, rfl⟩ := h
  exact List.mem_append_right _ (List.mem_singleton_self _)

theorem eof_not_read (reads : List (List UInt8)) : ConnectionEvent.eof ∉ reads.map .read := by simp

/-- Who has heard the end has heard everything. -/
theorem heard_all (h : ReadsThenEnd finSent events) (hp : heard <+: events) (he : .eof ∈ heard) :
    heard = events := by
  have sent := h.finSent_of_mem (hp.subset he)
  obtain ⟨reads, rfl⟩ := h
  rw [if_pos sent] at hp ⊢
  rcases List.prefix_concat_iff.mp hp with all | hp
  · exact all
  · exact absurd (hp.subset he) (eof_not_read reads)

theorem quiet (h : ReadsThenEnd finSent events) :
    events.Pairwise fun earlier later => earlier = .eof → ∀ data, later ≠ .read data := by
  obtain ⟨reads, rfl⟩ := h
  refine List.pairwise_append.mpr ⟨?_, ?_, ?_⟩
  · exact List.pairwise_map.mpr (List.pairwise_of_forall fun _ _ h => by cases h)
  · cases finSent with
    | false => exact .nil
    | true => exact List.pairwise_singleton ..
  · rintro _ he _ _ rfl
    exact absurd he (eof_not_read reads)

end ReadsThenEnd

end Splice.Joined
