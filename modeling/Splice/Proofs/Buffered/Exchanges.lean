import Splice.Buffered
import Mathlib.Tactic.ByContra

/-!
# Exchanges with a socket

Serving a stream makes attempts at its socket, one after the other: at most one read and then at most one write. What
an attempt does to the stream, and what is reported of it, follows from its result alone.
-/

namespace Splice

namespace Directions

theorem onlyRead_subset_iff {d : Directions} : onlyRead ⊆ d ↔ d.read = true :=
  ⟨fun h => h.1 rfl, fun h => ⟨fun _ => h, nofun⟩⟩

theorem onlyWrite_subset_iff {d : Directions} : onlyWrite ⊆ d ↔ d.write = true :=
  ⟨fun h => h.2 rfl, fun h => ⟨nofun, fun _ => h⟩⟩

end Directions

/-! ## Exchanges -/

def StreamEvent.OfReading (e : StreamEvent) : Prop := e = .readable ∨ e = .eof .onlyRead ∨ e = .error .onlyRead

def StreamEvent.OfWriting (e : StreamEvent) : Prop := e = .drained ∨ e = .eof .onlyWrite ∨ e = .error .onlyWrite

inductive Exchange
  | read (limit : Nat) (result : ReadResult)
  | write (offered : List UInt8) (result : WriteResult)
  deriving DecidableEq

namespace Exchange

def isRead : Exchange → Bool
  | read .. => true
  | write .. => false

def direction (x : Exchange) : Directions := if x.isRead then .onlyRead else .onlyWrite

def fetched : Exchange → List UInt8
  | read _ (.data block) => block
  | _ => []

def stored : Exchange → List UInt8
  | write offered (.written n) => offered.take n
  | _ => []

def report? : Exchange → Option StreamEvent
  | read _ (.data []) => some (.eof .onlyRead)
  | read _ (.data _) => some .readable
  | read _ .wouldBlock => none
  | read _ .failed => some (.error .onlyRead)
  | write _ (.written 0) => some (.eof .onlyWrite)
  | write offered (.written n) => if (offered.drop n).isEmpty then some .drained else none
  | write _ .wouldBlock => none
  | write _ .brokenPipe => some (.eof .onlyWrite)
  | write _ .failed => some (.error .onlyWrite)

/-- The last attempt in its direction. -/
def ends (x : Exchange) : Bool := Buffered.endsReading x.report?

def on (x : Exchange) (s : Stream) : Stream :=
  { s with
    enabled := if x.ends then s.enabled \ x.direction else s.enabled
    input := s.input ++ x.fetched
    output := s.output.drop x.stored.length }

variable {x : Exchange}

theorem report?_eq_readable :
    x.report? = some .readable ↔ ∃ limit block, x = .read limit (.data block) ∧ block ≠ [] := by
  constructor
  · intro h
    unfold report? at h
    split at h
    case h_2 limit block hne => exact ⟨limit, block, rfl, hne⟩
    case h_6 => split at h <;> cases h
    all_goals cases h
  · rintro ⟨limit, _ | ⟨byte, block⟩, rfl, hne⟩
    · exact absurd rfl hne
    · rfl

theorem report?_eq_drained :
    x.report? = some .drained ↔ ∃ offered n, x = .write offered (.written (n + 1)) ∧ offered.drop (n + 1) = [] := by
  constructor
  · intro h
    unfold report? at h
    split at h
    case h_6 offered n hn =>
      obtain ⟨n, rfl⟩ := Nat.exists_eq_succ_of_ne_zero hn
      refine ⟨offered, n, rfl, ?_⟩
      split at h
      · exact List.isEmpty_iff.mp ‹_›
      · cases h
    all_goals cases h
  · rintro ⟨offered, n, rfl, hall⟩
    exact if_pos (List.isEmpty_iff.mpr hall)

/-- An end and a failure concern the direction of the attempt alone. -/
theorem report?_eq_end (d : Directions) :
    x.report? = some (.eof d) ∨ x.report? = some (.error d) ↔ x.ends = true ∧ d = x.direction := by
  unfold ends report?
  split
  case h_6 =>
    split
    all_goals simp [Buffered.endsReading]
  all_goals simp [Buffered.endsReading, direction, isRead, eq_comm]

theorem report?_toList (x : Exchange) : [x].filterMap report? = x.report?.toList := by
  rw [List.filterMap_cons]
  cases x.report? <;> rfl

theorem report?_ofReading (h : x.isRead = true) : ∀ e ∈ x.report?, e.OfReading := by
  intro e he
  cases x with
  | write => cases h
  | read limit result =>
    rcases result with (_ | ⟨byte, block⟩) | _ | _
    all_goals simp_all [report?, StreamEvent.OfReading]

theorem report?_ofWriting (h : x.isRead = false) : ∀ e ∈ x.report?, e.OfWriting := by
  intro e he
  cases x with
  | read => cases h
  | write offered result =>
    rcases result with (_ | n) | _ | _ | _
    all_goals simp_all [report?, StreamEvent.OfWriting]

/-! ### Streams -/

variable {s : Stream}

theorem direction_single (x : Exchange) : x.direction = .onlyRead ∨ x.direction = .onlyWrite := by
  unfold direction
  split
  · exact .inl rfl
  · exact .inr rfl

theorem subset_on {d : Directions} (hd : d = .onlyRead ∨ d = .onlyWrite) :
    d ⊆ (x.on s).enabled ↔ d ⊆ s.enabled ∧ ¬(x.ends = true ∧ d = x.direction) := by
  unfold on
  dsimp only
  cases x.ends with
  | false => simp
  | true =>
    rw [if_pos rfl]
    rcases hd with rfl | rfl <;> rcases x.direction_single with h | h <;> rw [h] <;>
      simp only [Directions.onlyRead_subset_iff, Directions.onlyWrite_subset_iff] <;>
      simp [Directions.onlyRead, Directions.onlyWrite]

theorem stored_of_isRead (h : x.isRead = true) : x.stored = [] := by
  cases x with
  | read => rfl
  | write => cases h

theorem on_writes_of_isRead (h : x.isRead = true) : (x.on s).writes = s.writes := by
  have same := subset_on (x := x) (s := s) (.inr rfl)
  rw [direction, if_pos h, Directions.onlyWrite_subset_iff, Directions.onlyWrite_subset_iff] at same
  rw [Stream.writes_eq, Stream.writes_eq, Bool.eq_iff_iff, same]
  exact and_iff_left nofun

theorem on_output_of_isRead (h : x.isRead = true) : (x.on s).output = s.output := by
  rw [on, stored_of_isRead h]
  rfl

end Exchange

/-- A series of exchanges with a socket; there is nothing to exchange with while it connects. -/
inductive Exchanged {κ : Type} [Socket κ] : Option κ → List Exchange → Option κ → Prop
  | nothing {socket : Option κ} : Exchanged socket [] socket
  | read {socket next : κ} {limit : Nat} {result : ReadResult} {later : List Exchange} {last : Option κ} :
      Socket.read socket limit = (result, next) → Exchanged (some next) later last →
      Exchanged (some socket) (.read limit result :: later) last
  | write {socket next : κ} {offered : List UInt8} {result : WriteResult} {later : List Exchange} {last : Option κ} :
      Socket.write socket offered = (result, next) → Exchanged (some next) later last →
      Exchanged (some socket) (.write offered result :: later) last

/-- At most one read and then at most one write, but none after a read that ended the reading. -/
inductive Batch : List Exchange → Prop
  | idle : Batch []
  | one {x : Exchange} : Batch [x]
  | two {x y : Exchange} : x.isRead = true → x.ends = false → y.isRead = false → Batch [x, y]

namespace Batch

variable {xs : List Exchange}

theorem stored {offered : List UInt8} {result : WriteResult} (batch : Batch xs)
    (hmem : .write offered result ∈ xs) : xs.flatMap Exchange.stored = Exchange.stored (.write offered result) := by
  cases batch with
  | idle => cases hmem
  | one =>
    obtain rfl := List.mem_singleton.mp hmem
    exact List.flatMap_singleton ..
  | two hread _ _ =>
    obtain rfl | rfl : _ ∨ _ := by simpa using hmem
    · cases hread
    · simp [Exchange.stored_of_isRead hread]

theorem all_reads {x : Exchange} (batch : Batch xs) (hmem : x ∈ xs) (hread : x.isRead = true)
    (hends : x.ends = true) : ∀ y ∈ xs, y.isRead = true := by
  cases batch with
  | idle => simp
  | one =>
    obtain rfl := List.mem_singleton.mp hmem
    simpa using hread
  | two _ hgoes hwrite =>
    obtain rfl | rfl : _ ∨ _ := by simpa using hmem
    · cases hends.symm.trans hgoes
    · cases hread.symm.trans hwrite

theorem pairwise (batch : Batch xs) : xs.Pairwise fun x y => x.ends = true → y.direction ≠ x.direction := by
  cases batch with
  | idle => exact .nil
  | one => exact List.pairwise_singleton ..
  | two _ hgoes _ => exact List.pairwise_pair.mpr fun hends => absurd hends (by simp [hgoes])

theorem reports (batch : Batch xs) : ∃ reading writing : Option StreamEvent,
    xs.filterMap Exchange.report? = reading.toList ++ writing.toList ∧
      (∀ e ∈ reading, e.OfReading) ∧ ∀ e ∈ writing, e.OfWriting := by
  cases batch with
  | idle => exact ⟨none, none, rfl, by simp, by simp⟩
  | @one x =>
    rw [Exchange.report?_toList]
    cases hx : x.isRead with
    | true => exact ⟨x.report?, none, (List.append_nil _).symm, Exchange.report?_ofReading hx, by simp⟩
    | false => exact ⟨none, x.report?, rfl, by simp, Exchange.report?_ofWriting hx⟩
  | @two x y hread _ hwrite =>
    refine ⟨x.report?, y.report?, ?_, Exchange.report?_ofReading hread, Exchange.report?_ofWriting hwrite⟩
    rw [← List.singleton_append, List.filterMap_append, Exchange.report?_toList, Exchange.report?_toList]

end Batch

namespace Buffered

section Wanting

variable {κ : Type} {b : Buffered κ}

theorem reads_of_wantsRead (h : b.wantsRead = true) :
    b.stream.reads = true ∧ b.stream.input.length < b.limits.watermark := by
  simpa [wantsRead] using h

theorem writes_of_wantsWrite (h : b.wantsWrite = true) : b.stream.writes = true ∧ b.stream.output ≠ [] := by
  simpa [wantsWrite] using h

end Wanting

variable {κ : Type} [Socket κ] {b c d : Buffered κ} {x : Exchange} {xs ys : List Exchange} {ready : Readiness}

/-! ## Attempts -/

/-- One attempt of a stream at its socket, which it makes only if it wants to. -/
inductive Attempts (b : Buffered κ) : Exchange → Buffered κ → Prop
  | read {socket next : κ} {result : ReadResult} : b.wantsRead = true → b.socket = some socket →
      Socket.read socket b.limits.readCapacity = (result, next) →
      Attempts b (.read b.limits.readCapacity result)
        { b with stream := Exchange.on (.read b.limits.readCapacity result) b.stream, socket := some next }
  | write {socket next : κ} {result : WriteResult} : b.wantsWrite = true → b.socket = some socket →
      Socket.write socket b.stream.output = (result, next) →
      Attempts b (.write b.stream.output result)
        { b with stream := Exchange.on (.write b.stream.output result) b.stream, socket := some next }

variable {socket next : κ}

theorem attemptRead_attempts {result : ReadResult} (hwants : b.wantsRead = true) (hs : b.socket = some socket)
    (hread : Socket.read socket b.limits.readCapacity = (result, next)) :
    Attempts b (.read b.limits.readCapacity result) b.attemptRead.after ∧
      b.attemptRead.event = Exchange.report? (.read b.limits.readCapacity result) := by
  have made := Attempts.read hwants hs hread
  unfold attemptRead
  rw [hs]
  dsimp only
  rw [hread]
  unfold Exchange.on Exchange.direction at made
  rcases result with (_ | ⟨byte, block⟩) | _ | _
  all_goals
    refine ⟨?_, rfl⟩
    simpa [Exchange.fetched, Exchange.stored, Exchange.ends, Exchange.report?, Exchange.isRead, endsReading,
      mapStream, Stream.withdraw] using made

theorem attemptWrite_attempts {result : WriteResult} (hwants : b.wantsWrite = true) (hs : b.socket = some socket)
    (hwrite : Socket.write socket b.stream.output = (result, next)) :
    Attempts b (.write b.stream.output result) b.attemptWrite.after ∧
      b.attemptWrite.event = Exchange.report? (.write b.stream.output result) := by
  have made := Attempts.write hwants hs hwrite
  unfold attemptWrite
  rw [hs]
  dsimp only
  rw [hwrite]
  unfold Exchange.on Exchange.direction at made
  rcases result with (_ | n) | _ | _ | _
  all_goals
    refine ⟨?_, rfl⟩
    simpa [Exchange.fetched, Exchange.stored, Exchange.ends, Exchange.report?, Exchange.isRead, endsReading,
      mapStream, Stream.withdraw, ← List.drop_eq_drop_min] using made

namespace Attempts

theorem limits (h : b.Attempts x c) : c.limits = b.limits := by
  cases h <;> rfl

theorem connected (h : b.Attempts x c) : c.socket ≠ none := by
  cases h <;> exact Option.some_ne_none _

theorem stream (h : b.Attempts x c) : c.stream = x.on b.stream := by
  cases h <;> rfl

theorem wantsRead (h : b.Attempts x c) (hx : x.isRead = true) : b.wantsRead = true := by
  cases h with
  | read hwants => exact hwants
  | write => cases hx

theorem wantsWrite (h : b.Attempts x c) (hx : x.isRead = false) : b.wantsWrite = true := by
  cases h with
  | read => cases hx
  | write hwants => exact hwants

theorem input (h : b.Attempts x c) : c.stream.input = b.stream.input ++ x.fetched := by
  rw [h.stream, Exchange.on]

theorem output (h : b.Attempts x c) : x.stored ++ c.stream.output = b.stream.output := by
  rw [h.stream, Exchange.on]
  cases h with
  | read => rfl
  | @write _ _ result =>
    cases result with
    | written n => exact List.prefix_iff_eq_append.mp (List.take_prefix n _)
    | _ => rfl

end Attempts

inductive Chain : Buffered κ → List Exchange → Buffered κ → Prop
  | nil {b : Buffered κ} : Chain b [] b
  | cons {b c d : Buffered κ} {x : Exchange} {xs : List Exchange} : Attempts b x c → Chain c xs d →
      Chain b (x :: xs) d

namespace Chain

theorem exchanged (h : Chain b xs c) : Exchanged b.socket xs c.socket := by
  induction h with
  | nil => exact .nothing
  | cons made _ ih =>
    cases made with
    | read _ hs hread => exact hs ▸ .read hread ih
    | write _ hs hwrite => exact hs ▸ .write hwrite ih

theorem limits (h : Chain b xs c) : c.limits = b.limits := by
  induction h with
  | nil => rfl
  | cons made _ ih => exact ih.trans made.limits

theorem input (h : Chain b xs c) : c.stream.input = b.stream.input ++ xs.flatMap Exchange.fetched := by
  induction h with
  | nil => simp
  | cons made _ ih => rw [ih, made.input, List.append_assoc, List.flatMap_cons]

theorem output (h : Chain b xs c) : xs.flatMap Exchange.stored ++ c.stream.output = b.stream.output := by
  induction h with
  | nil => rfl
  | cons made _ ih => rw [List.flatMap_cons, List.append_assoc, ih, made.output]

theorem subset_iff (h : Chain b xs c) {d : Directions} (hd : d = .onlyRead ∨ d = .onlyWrite) :
    d ⊆ c.stream.enabled ↔ d ⊆ b.stream.enabled ∧ ¬∃ x ∈ xs, x.ends = true ∧ d = x.direction := by
  induction h with
  | nil => simp
  | cons made _ ih =>
    rw [ih, made.stream, Exchange.subset_on hd]
    simp [and_assoc]

end Chain

/-! ## Serving -/

def reading (b : Buffered κ) (ready : Readiness) : Attempt κ :=
  if b.wantsRead && (ready.readable || ready.readClosed) then b.attemptRead else { after := b }

def writing (b : Buffered κ) (ready : Readiness) : Attempt κ :=
  if b.wantsWrite && (ready.writable || ready.writeClosed) then b.attemptWrite else { after := b }

def fetch? (b : Buffered κ) (ready : Readiness) : Option Exchange :=
  if b.wantsRead && (ready.readable || ready.readClosed) then
    b.socket.map fun socket => .read b.limits.readCapacity (Socket.read socket b.limits.readCapacity).1
  else none

def store? (b : Buffered κ) (ready : Readiness) : Option Exchange :=
  if b.wantsWrite && (ready.writable || ready.writeClosed) then
    b.socket.map fun socket => .write b.stream.output (Socket.write socket b.stream.output).1
  else none

def exchanges (b : Buffered κ) (ready : Readiness) : List Exchange :=
  match b.fetch? ready with
  | none => (b.store? ready).toList
  | some x => x :: if x.ends then [] else ((b.reading ready).after.store? ready).toList

inductive Makes (b : Buffered κ) : Option Exchange → Attempt κ → Prop
  | nothing : Makes b none { after := b }
  | attempt {x : Exchange} {a : Attempt κ} : Attempts b x a.after → a.event = x.report? → Makes b (some x) a

theorem reading_makes (b : Buffered κ) (ready : Readiness) :
    Makes b (b.fetch? ready) (b.reading ready) ∧ ∀ x ∈ b.fetch? ready, x.isRead = true := by
  unfold fetch? reading
  split
  next hwants =>
    cases hs : b.socket with
    | none =>
      refine ⟨?_, by simp⟩
      rw [attemptRead, hs]
      exact .nothing
    | some socket =>
      refine ⟨?_, by simp [Exchange.isRead]⟩
      obtain ⟨made, event⟩ := attemptRead_attempts (Bool.and_eq_true_iff.mp hwants).1 hs rfl
      exact .attempt made event
  · exact ⟨.nothing, by simp⟩

theorem writing_makes (b : Buffered κ) (ready : Readiness) :
    Makes b (b.store? ready) (b.writing ready) ∧ ∀ x ∈ b.store? ready, x.isRead = false := by
  unfold store? writing
  split
  next hwants =>
    cases hs : b.socket with
    | none =>
      refine ⟨?_, by simp⟩
      rw [attemptWrite, hs]
      exact .nothing
    | some socket =>
      refine ⟨?_, by simp [Exchange.isRead]⟩
      obtain ⟨made, event⟩ := attemptWrite_attempts (Bool.and_eq_true_iff.mp hwants).1 hs rfl
      exact .attempt made event
  · exact ⟨.nothing, by simp⟩

theorem Attempts.wantsWrite_eq (h : b.Attempts x c) (hx : x.isRead = true) : c.wantsWrite = b.wantsWrite := by
  rw [Buffered.wantsWrite, Buffered.wantsWrite, h.stream, Exchange.on_writes_of_isRead hx,
    Exchange.on_output_of_isRead hx]

theorem Makes.chain {x? : Option Exchange} {a : Attempt κ} (h : Makes b x? a) :
    Chain b x?.toList a.after ∧ a.event.toList = x?.toList.filterMap Exchange.report? := by
  cases h with
  | nothing => exact ⟨.nil, rfl⟩
  | @attempt x _ made event =>
    refine ⟨.cons made .nil, ?_⟩
    rw [event, Option.toList_some, Exchange.report?_toList]

theorem Makes.batch {x? : Option Exchange} {a : Attempt κ} (_ : Makes b x? a) : Batch x?.toList := by
  cases x? with
  | none => exact .idle
  | some => exact .one

theorem reading_wantsWrite (b : Buffered κ) (ready : Readiness) :
    (b.reading ready).after.wantsWrite = b.wantsWrite := by
  obtain ⟨makes, is_read⟩ := b.reading_makes ready
  generalize b.fetch? ready = x?, b.reading ready = a at makes is_read ⊢
  cases makes with
  | nothing => rfl
  | attempt made => exact made.wantsWrite_eq (is_read _ rfl)

theorem serve_eq (b : Buffered κ) (ready : Readiness) :
    b.serve ready =
      if endsReading (b.reading ready).event then ((b.reading ready).after, (b.reading ready).event.toList)
      else
        (((b.reading ready).after.writing ready).after,
          (b.reading ready).event.toList ++ ((b.reading ready).after.writing ready).event.toList) := by
  -- Whether to write is decided before the read; deciding it after makes no difference.
  rw [writing, reading_wantsWrite]
  rfl

theorem serve_chain (b : Buffered κ) (ready : Readiness) :
    Chain b (b.exchanges ready) (b.serve ready).1 ∧ Batch (b.exchanges ready) ∧
      (b.serve ready).2 = (b.exchanges ready).filterMap Exchange.report? := by
  obtain ⟨reads, is_read⟩ := b.reading_makes ready
  rw [serve_eq, exchanges]
  generalize b.fetch? ready = x?, b.reading ready = a at reads is_read ⊢
  cases reads with
  | nothing =>
    obtain ⟨writes, -⟩ := b.writing_makes ready
    obtain ⟨chain, events⟩ := writes.chain
    exact ⟨chain, writes.batch, events⟩
  | @attempt x _ made event =>
    obtain ⟨writes, is_write⟩ := a.after.writing_makes ready
    obtain ⟨chain, events⟩ := writes.chain
    have first : a.event.toList = [x].filterMap Exchange.report? := (Makes.attempt made event).chain.2
    have last : endsReading a.event = x.ends := by rw [event, Exchange.ends]
    rw [last]
    dsimp only
    cases hx : x.ends with
    | true => exact ⟨.cons made .nil, .one, first⟩
    | false =>
      refine ⟨.cons made chain, ?_, ?_⟩
      · generalize a.after.store? ready = y? at is_write ⊢
        cases y? with
        | none => exact .one
        | some y => exact .two (is_read x rfl) hx (is_write y rfl)
      · rw [if_neg Bool.false_ne_true, if_neg Bool.false_ne_true, ← List.singleton_append, List.filterMap_append,
          ← first, ← events]

/-! ## What is wanted and what ends -/

namespace Chain

theorem read_wanted (h : Chain b xs c) (batch : Batch xs) (hmem : x ∈ xs) (hx : x.isRead = true) :
    b.wantsRead = true := by
  cases batch with
  | idle => cases hmem
  | one =>
    obtain rfl := List.mem_singleton.mp hmem
    cases h with
    | cons made => exact made.wantsRead hx
  | two hread _ hwrite =>
    cases h with
    | cons made => exact made.wantsRead hread

/-- What is written after a read is still the output of before. -/
theorem write_wanted {offered : List UInt8} {result : WriteResult} (h : Chain b xs c) (batch : Batch xs)
    (hmem : .write offered result ∈ xs) : b.wantsWrite = true ∧ offered = b.stream.output := by
  cases batch with
  | idle => cases hmem
  | one =>
    obtain rfl := List.mem_singleton.mp hmem
    cases h with
    | cons made =>
      cases made with
      | write hwants => exact ⟨hwants, rfl⟩
  | two hread _ _ =>
    obtain rfl | rfl : _ ∨ _ := by simpa using hmem
    · cases hread
    cases h with
    | cons first later =>
      cases later with
      | cons made =>
        cases made with
        | write hwants =>
          refine ⟨?_, ?_⟩
          · rwa [← first.wantsWrite_eq hread]
          · rw [first.stream, Exchange.on_output_of_isRead hread]

theorem direction_enabled (h : Chain b xs c) (batch : Batch xs) (hmem : x ∈ xs) : x.direction ⊆ b.stream.enabled := by
  cases x with
  | read =>
    have reads := (reads_of_wantsRead (h.read_wanted batch hmem rfl)).1
    exact Directions.onlyRead_subset_iff.mpr (by rwa [Stream.reads_eq] at reads)
  | write =>
    have writes := (writes_of_wantsWrite (h.write_wanted batch hmem).1).1
    exact Directions.onlyWrite_subset_iff.mpr (by rwa [Stream.writes_eq] at writes)

theorem ended_iff (h : Chain b xs c) (batch : Batch xs) (d : Directions) :
    (∃ x ∈ xs, x.ends = true ∧ d = x.direction) ↔
      (d = .onlyRead ∨ d = .onlyWrite) ∧ d ⊆ b.stream.enabled ∧ ¬d ⊆ c.stream.enabled := by
  constructor
  · rintro ⟨x, hmem, hends, rfl⟩
    have single := x.direction_single
    refine ⟨single, h.direction_enabled batch hmem, ?_⟩
    rw [h.subset_iff single]
    exact fun still => still.2 ⟨x, hmem, hends, rfl⟩
  · rintro ⟨single, enabled, ended⟩
    rw [h.subset_iff single] at ended
    by_contra none_ended
    exact ended ⟨enabled, none_ended⟩

theorem drained_iff (h : Chain b xs c) (batch : Batch xs) :
    (∃ x ∈ xs, x.report? = some .drained) ↔ b.stream.output ≠ [] ∧ c.stream.output = [] := by
  have output := h.output
  constructor
  · rintro ⟨x, hmem, hx⟩
    obtain ⟨offered, n, rfl, hall⟩ := Exchange.report?_eq_drained.mp hx
    obtain ⟨hwants, rfl⟩ := h.write_wanted batch hmem
    refine ⟨(writes_of_wantsWrite hwants).2, ?_⟩
    have whole : b.stream.output.take (n + 1) = b.stream.output := by
      simpa [hall] using List.take_append_drop (n + 1) b.stream.output
    rw [batch.stored hmem, Exchange.stored, whole] at output
    exact List.append_right_eq_self.mp output
  · rintro ⟨hne, hnil⟩
    rw [hnil, List.append_nil] at output
    -- Nothing is left, so a write has stored something, and it was offered no more than it stored.
    obtain ⟨x, hmem, hx⟩ : ∃ x ∈ xs, x.stored ≠ [] := by
      by_contra! hnone
      exact hne (output.symm.trans (List.flatMap_eq_nil_iff.mpr hnone))
    obtain ⟨offered, n, rfl⟩ : ∃ offered n, x = .write offered (.written n) := by
      unfold Exchange.stored at hx
      split at hx
      · exact ⟨_, _, rfl⟩
      · exact absurd rfl hx
    obtain ⟨-, rfl⟩ := h.write_wanted batch hmem
    rw [batch.stored hmem, Exchange.stored] at output
    obtain ⟨n, rfl⟩ : ∃ m, n = m + 1 := Nat.exists_eq_succ_of_ne_zero (by rintro rfl; exact hx rfl)
    refine ⟨_, hmem, Exchange.report?_eq_drained.mpr ⟨_, n, rfl, ?_⟩⟩
    have parts := List.take_append_drop (n + 1) b.stream.output
    rw [output] at parts
    exact List.append_right_eq_self.mp parts

end Chain

end Buffered

end Splice
