import Splice.Proofs.Bridge.Collecting
import Splice.Proofs.Bridge.Course

/-!
# Independence of the two directions

While both sides of a bridge are open and no send fails, it is two pipes that share a state but no field of
it: a step of one direction reads and changes its own half alone, and what it makes of that half depends on
nothing else. So the order in which the steps of the two directions are mixed makes no difference.
-/

namespace Splice

/-! ## Scripts without a failure -/

namespace Script

variable {s : Script}

/-- No answer in the list is a failure; none is once the list is used up. -/
def NeverFails (s : Script) : Prop := .failed ∉ s.answers

theorem NeverFails.extend (h : s.NeverFails) (counts : List Nat) (cap : Option Nat) :
    (s.extend (counts.map .accepted) cap).NeverFails := by
  simpa [NeverFails, Script.extend] using h

theorem NeverFails.send (h : s.NeverFails) (offered : List UInt8) :
    (Sender.send s offered).1 ≠ .failed ∧ (Sender.send s offered).2.NeverFails := by
  obtain ⟨_ | ⟨answer, answers⟩, cap⟩ := s
  · exact ⟨Answer.noConfusion, h⟩
  · obtain ⟨first, rest⟩ := not_or.mp (List.mem_cons.not.mp h)
    exact ⟨Ne.symm first, rest⟩

end Script

namespace Bridge

theorem offer_neverFails {chunk : Nat} {sender : Script} {input : List UInt8} {count : UInt64} {calls : List Call}
    (h : sender.NeverFails) :
    (offer chunk sender input count calls).failed = false ∧
      (offer chunk sender input count calls).sender.NeverFails := by
  fun_induction offer chunk sender input count calls with
  | case1 => exact ⟨rfl, h⟩
  | case2 sender input _ _ _ offered =>
    rename_i hsend _
    exact absurd (congrArg Prod.fst hsend) (h.send offered).1
  | case3 sender input _ _ _ offered =>
    rename_i hsend _
    have kept := (h.send offered).2
    rw [hsend] at kept
    exact ⟨rfl, kept⟩
  | case4 sender input _ _ _ offered =>
    rename_i hsend _ ih
    have kept := (h.send offered).2
    rw [hsend] at kept
    exact ih kept

theorem move_take {σ : Type} [Sender σ] {b : Bridge σ} {s : Stream} (hs : b.stream = some s) (hw : s.writes = true)
    (n : Nat) :
    b.move (.stream (.take n)) =
      let taken := b.keep { s with output := s.output.drop n }
      if s.output ≠ [] ∧ s.output.drop n = [] then (taken.onStream .drained).1 else taken := by
  rw [move, hs, Option.bind_some]
  dsimp only
  by_cases hempty : s.output = []
  · have impossible : Act.on? s (.take n) = none := by simp [Act.on?, hempty]
    rw [impossible, if_neg (fun h => h.1 hempty), hempty, List.drop_nil, ← hempty, keep_self hs]
  · have possible : Act.on? s (.take n) = some ({ s with output := s.output.drop n },
        if s.output.drop n = [] then some .drained else none) := by
      rw [Act.on?, if_pos ⟨hw, hempty⟩]
    rw [possible]
    by_cases hrest : s.output.drop n = []
    · rw [if_pos hrest, if_pos ⟨hempty, hrest⟩]
    · rw [if_neg hrest, if_neg fun h => hrest h.2]

/-! ## Steps -/

inductive Sending
  | feed (data : List UInt8)
  | writable
  | connected
  | answer (counts : List Nat)
  deriving DecidableEq

inductive Receiving
  | read (data : List UInt8)
  | take (n : Nat)
  deriving DecidableEq

def sending (b : Bridge Script) : Sending → Bridge Script
  | .feed data => b.move (.stream (.feed data))
  | .writable => b.move (.connection .writable)
  | .connected => b.move (.connection .connected)
  | .answer counts => { b with sender := b.sender.extend (counts.map .accepted) none }

def receiving (b : Bridge Script) : Receiving → Bridge Script
  | .read data => b.move (.connection (.read data))
  | .take n => b.move (.stream (.take n))

def flow (b : Bridge Script) (steps : List (Sending ⊕ Receiving)) : Bridge Script :=
  steps.foldl (fun b => Sum.elim b.sending b.receiving) b

theorem flow_snoc (b : Bridge Script) (steps : List (Sending ⊕ Receiving)) (step : Sending ⊕ Receiving) :
    b.flow (steps ++ [step]) = Sum.elim (b.flow steps).sending (b.flow steps).receiving step := by
  simp [flow]

/-- The steps are those of two sequences, each in its own order. -/
structure Mixes (sendings : List Sending) (receivings : List Receiving) (steps : List (Sending ⊕ Receiving)) :
    Prop where
  sendings : steps.filterMap Sum.getLeft? = sendings
  receivings : steps.filterMap Sum.getRight? = receivings

/-! ## The two halves -/

/-- What the direction to the connection works on, and the calls made in it, the latest first. -/
structure SendingHalf where
  sender : Script
  peer : Option PeerId
  pending : List UInt8 := []
  count : UInt64 := 0
  calls : List Call := []

namespace SendingHalf

def offers (half : SendingHalf) (chunk : Nat) : Offered Script :=
  offer chunk half.sender half.pending half.count []

def send (half : SendingHalf) (chunk : Nat) : SendingHalf :=
  let o := half.offers chunk
  { half with sender := o.sender, pending := o.rest, count := o.count, calls := o.calls ++ half.calls }

def announces (half : SendingHalf) : List Call :=
  half.peer.toList.flatMap fun p => [.peerReleased p, .peerConnected p]

def announce (half : SendingHalf) : SendingHalf :=
  { half with peer := none, calls := half.announces ++ half.calls }

def step (chunk : Nat) (half : SendingHalf) : Sending → SendingHalf
  | .feed data => { half with pending := half.pending ++ data }.send chunk
  | .writable => half.send chunk
  | .connected => half.announce.send chunk
  | .answer counts => { half with sender := half.sender.extend (counts.map .accepted) none }

end SendingHalf

/-- What the direction to the stream works on, and how often the connection was told that all is consumed. -/
structure ReceivingHalf where
  queued : List UInt8 := []
  count : UInt64 := 0
  drained : Nat := 0

namespace ReceivingHalf

def step (half : ReceivingHalf) : Receiving → ReceivingHalf
  | .read data => { half with queued := half.queued ++ data, count := half.count + data.length.toUInt64 }
  | .take n =>
    let rest := half.queued.drop n
    { half with queued := rest, drained := half.drained + if half.queued ≠ [] ∧ rest = [] then 1 else 0 }

end ReceivingHalf

def joined (chunk : Nat) (sends : SendingHalf) (receives : ReceivingHalf) : Bridge Script where
  sender := sends.sender
  stream := some { enabled := .both, input := sends.pending, output := receives.queued }
  peer := sends.peer
  maxChunk := chunk
  stats := { bytesToConnection := sends.count, bytesToStream := receives.count }

/-- The bridge is the two halves and nothing more; only its calls are in an order of their own. -/
structure Halves (chunk : Nat) (sends : SendingHalf) (receives : ReceivingHalf) (b : Bridge Script) : Prop where
  collected : b.collected = joined chunk sends receives
  calls : b.calls.filter (· != .readDrained) = sends.calls
  drained : b.calls.count .readDrained = receives.drained
  neverFails : sends.sender.NeverFails

/-! ## One step -/

section Joined

variable (chunk : Nat) (sends : SendingHalf) (receives : ReceivingHalf)

theorem SendingHalf.offers_not_drained : .readDrained ∉ (sends.offers chunk).calls := by
  obtain ⟨made, hmade, hsends⟩ := offer_calls chunk sends.sender sends.pending sends.count []
  rw [List.append_nil] at hmade
  rw [offers, hmade]
  exact fun hmem => absurd (hsends _ hmem) (by simp [Call.isSend])

theorem SendingHalf.announces_not_drained : .readDrained ∉ sends.announces := by
  simp [announces]

theorem sendPending_joined (h : sends.sender.NeverFails) :
    (joined chunk sends receives).sendPending =
      ((joined chunk (sends.send chunk) receives).since (sends.offers chunk).calls, .active) := by
  have failed : (sends.offers chunk).failed = false := (offer_neverFails h).1
  rw [sendPending_of_attached rfl rfl]
  exact if_neg (Bool.eq_false_iff.mp failed)

theorem writable_joined (h : sends.sender.NeverFails) :
    (joined chunk sends receives).sending .writable =
      (joined chunk (sends.send chunk) receives).since (sends.offers chunk).calls :=
  congrArg Prod.fst (sendPending_joined chunk sends receives h)

theorem connected_joined : (joined chunk sends receives).connected =
    (joined chunk sends.announce receives).since sends.announces := by
  rw [connected_eq]
  simp [joined, announces, SendingHalf.announce, SendingHalf.announces, since]

theorem sending_joined (h : sends.sender.NeverFails) (step : Sending) :
    ∃ made, (joined chunk sends receives).sending step =
        (joined chunk (sends.step chunk step) receives).since made ∧
      (sends.step chunk step).calls = made ++ sends.calls ∧ .readDrained ∉ made ∧
      (sends.step chunk step).sender.NeverFails := by
  cases step with
  | feed data =>
    let fed := { sends with pending := sends.pending ++ data }
    exact ⟨(fed.offers chunk).calls, writable_joined chunk fed receives h, rfl, fed.offers_not_drained chunk,
      (offer_neverFails h).2⟩
  | writable =>
    exact ⟨(sends.offers chunk).calls, writable_joined chunk sends receives h, rfl, sends.offers_not_drained chunk,
      (offer_neverFails h).2⟩
  | connected =>
    -- The peer hears of the connection first; the rest is as if it was writable.
    refine ⟨(sends.announce.offers chunk).calls ++ sends.announces, ?_, (List.append_assoc ..).symm, ?_,
      (offer_neverFails h).2⟩
    · show (joined chunk sends receives).connected.writable.1 = _
      rw [connected_joined, writable_since]
      exact congrArg (since · sends.announces) (writable_joined chunk sends.announce receives h)
    · exact List.not_mem_append (sends.announce.offers_not_drained chunk) sends.announces_not_drained
  | answer counts => exact ⟨[], rfl, rfl, List.not_mem_nil, h.extend counts none⟩

theorem receiving_joined (step : Receiving) :
    ∃ made, (joined chunk sends receives).receiving step =
        (joined chunk sends (receives.step step)).since made ∧
      (∀ call ∈ made, call = .readDrained) ∧
      (receives.step step).drained = receives.drained + made.length := by
  cases step with
  | read data => exact ⟨[], rfl, by simp, rfl⟩
  | take n =>
    have taken := move_take (b := joined chunk sends receives) rfl rfl n
    dsimp only [joined] at taken
    rw [receiving, ReceivingHalf.step]
    by_cases empties : receives.queued ≠ [] ∧ receives.queued.drop n = []
    · rw [if_pos empties] at taken ⊢
      refine ⟨[.readDrained], taken.trans ?_, by simp, rfl⟩
      rw [empties.2]
      rfl
    · rw [if_neg empties] at taken ⊢
      exact ⟨[], taken, by simp, rfl⟩

end Joined

/-! ## Any number of steps -/

theorem sending_since (b : Bridge Script) (earlier : List Call) (step : Sending) :
    (b.since earlier).sending step = (b.sending step).since earlier := by
  cases step with
  | feed data => exact move_since b earlier (.stream (.feed data))
  | writable => exact move_since b earlier (.connection .writable)
  | connected => exact move_since b earlier (.connection .connected)
  | answer => rfl

theorem receiving_since (b : Bridge Script) (earlier : List Call) (step : Receiving) :
    (b.since earlier).receiving step = (b.receiving step).since earlier := by
  cases step with
  | read data => exact move_since b earlier (.connection (.read data))
  | take n => exact move_since b earlier (.stream (.take n))

namespace Halves

variable {chunk : Nat} {sends : SendingHalf} {receives : ReceivingHalf} {b : Bridge Script}

theorem of_joined (h : Halves chunk sends receives b) {sends' : SendingHalf} {receives' : ReceivingHalf}
    {made : List Call} (f : Bridge Script → Bridge Script)
    (hf : ∀ (c : Bridge Script) (earlier : List Call), f (c.since earlier) = (f c).since earlier)
    (hstep : f (joined chunk sends receives) = (joined chunk sends' receives').since made) :
    (f b).collected = joined chunk sends' receives' ∧ (f b).calls = made ++ b.calls := by
  have whole : f b = ((joined chunk sends' receives').since made).since b.calls := by
    rw [← hstep, ← h.collected, ← hf, collected_since_calls]
  rw [whole]
  exact ⟨rfl, rfl⟩

theorem sending (h : Halves chunk sends receives b) (step : Sending) :
    Halves chunk (sends.step chunk step) receives (b.sending step) := by
  obtain ⟨made, hstep, hcalls, hmade, never⟩ := sending_joined chunk sends receives h.neverFails step
  obtain ⟨collected, calls⟩ := h.of_joined (·.sending step) (sending_since · · step) hstep
  have kept : made.filter (· != .readDrained) = made := by
    refine List.filter_eq_self.mpr fun call hc => bne_iff_ne.mpr ?_
    rintro rfl
    exact hmade hc
  refine ⟨collected, ?_, ?_, never⟩
  · rw [calls, List.filter_append, kept, h.calls, hcalls]
  · rw [calls, List.count_append, List.count_eq_zero.mpr hmade, Nat.zero_add, h.drained]

theorem receiving (h : Halves chunk sends receives b) (step : Receiving) :
    Halves chunk sends (receives.step step) (b.receiving step) := by
  obtain ⟨made, hstep, hmade, hdrained⟩ := receiving_joined chunk sends receives step
  obtain ⟨collected, calls⟩ := h.of_joined (·.receiving step) (receiving_since · · step) hstep
  have dropped : made.filter (· != .readDrained) = [] :=
    List.filter_eq_nil_iff.mpr fun call hc => by simp [hmade call hc]
  have counted : made.count .readDrained = made.length :=
    List.count_eq_length.mpr fun call hc => (hmade call hc).symm
  refine ⟨collected, ?_, ?_, h.neverFails⟩
  · rw [calls, List.filter_append, dropped, List.nil_append, h.calls]
  · rw [calls, List.count_append, counted, h.drained, hdrained, Nat.add_comm]

theorem flow (h : Halves chunk sends receives b) (steps : List (Sending ⊕ Receiving)) :
    Halves chunk ((steps.filterMap Sum.getLeft?).foldl (SendingHalf.step chunk) sends)
      ((steps.filterMap Sum.getRight?).foldl ReceivingHalf.step receives) (b.flow steps) := by
  induction steps using List.reverseRecOn with
  | nil => exact h
  | append_singleton steps step ih =>
    rw [flow_snoc, List.filterMap_append, List.filterMap_append, List.foldl_append, List.foldl_append]
    cases step with
    | inl step => exact ih.sending step
    | inr step => exact ih.receiving step

theorem sends_eq (h : Halves chunk sends receives b) :
    b.trace.filter Call.isSend = (sends.calls.filter Call.isSend).reverse := by
  -- A send is none of the calls that the halves leave out.
  have undrained : ∀ call ∈ b.calls, Call.isSend call = (call.isSend && call != .readDrained) := by
    intro call _
    cases call <;> rfl
  rw [trace, List.filter_reverse, List.filter_congr undrained, ← List.filter_filter, h.calls]

theorem drains_eq (h : Halves chunk sends receives b) : b.trace.count .readDrained = receives.drained := by
  rw [trace, List.count_reverse, h.drained]

end Halves

theorem halves_new (counts : List Nat) (config : Config) (peer : Option PeerId) :
    Halves (max config.maxChunk 1) { sender := { answers := counts.map .accepted }, peer } {}
      { new { answers := counts.map .accepted } {} config with peer } :=
  ⟨rfl, rfl, rfl, by simp [Script.NeverFails]⟩

/-- A fresh bridge comes out the same however the steps of the two directions are mixed. -/
theorem directions_independent (counts : List Nat) (config : Config) (peer : Option PeerId)
    (sendings : List Sending) (receivings : List Receiving) (steps steps' : List (Sending ⊕ Receiving))
    (hsteps : Mixes sendings receivings steps) (hsteps' : Mixes sendings receivings steps') :
    let start := { new { answers := counts.map .accepted } {} config with peer }
    let b := start.flow steps
    let c := start.flow steps'
    b.collected = c.collected ∧ b.trace.filter Call.isSend = c.trace.filter Call.isSend ∧
      b.trace.count .readDrained = c.trace.count .readDrained := by
  intro start b c
  have one := (halves_new counts config peer).flow steps
  have other := (halves_new counts config peer).flow steps'
  rw [hsteps.sendings, hsteps.receivings] at one
  rw [hsteps'.sendings, hsteps'.receivings] at other
  exact ⟨one.collected.trans other.collected.symm, one.sends_eq.trans other.sends_eq.symm,
    one.drains_eq.trans other.drains_eq.symm⟩

/-- Refused, partial and whole sends, with reads and takes before them, after them and in between. -/
theorem directions_independent_refused :
    let sendings : List Sending := [.feed [1, 2, 3, 4], .answer [9], .connected, .writable]
    let receivings : List Receiving := [.read [5, 6], .take 1, .take 4, .read [7]]
    let apart : List (Sending ⊕ Receiving) := sendings.map .inl ++ receivings.map .inr
    let mixed : List (Sending ⊕ Receiving) :=
      [.inr (.read [5, 6]), .inl (.feed [1, 2, 3, 4]), .inr (.take 1), .inl (.answer [9]), .inr (.take 4),
        .inl .connected, .inr (.read [7]), .inl .writable]
    let start := { new { answers := [.accepted 1, .accepted 0] } {} { maxChunk := 2 } with peer := some 0 }
    let b := start.flow apart
    let c := start.flow mixed
    Mixes sendings receivings apart ∧ Mixes sendings receivings mixed ∧ b.trace ≠ c.trace ∧
      b.collected = c.collected ∧
      c.trace.filter Call.isSend = [.send [1, 2] (.accepted 1), .send [2, 3] (.accepted 0),
        .send [2, 3] (.accepted 9), .send [4] (.accepted 1)] ∧
      b.trace.filter Call.isSend = c.trace.filter Call.isSend ∧ b.trace.count .readDrained = 1 ∧
      b.trace.count .readDrained = c.trace.count .readDrained := by
  intro sendings receivings apart mixed start b c
  have first : Mixes sendings receivings apart := ⟨rfl, rfl⟩
  have second : Mixes sendings receivings mixed := ⟨rfl, rfl⟩
  have same := directions_independent [1, 0] { maxChunk := 2 } (some 0) sendings receivings apart mixed first second
  exact ⟨first, second, by decide +kernel, same.1, by decide +kernel, same.2.1, by decide +kernel, same.2.2⟩

end Bridge

end Splice
