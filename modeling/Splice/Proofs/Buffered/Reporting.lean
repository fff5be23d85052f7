import Splice.Proofs.Bridge.Run
import Splice.Proofs.Buffered.Exchanges

/-!
# Reporting

A stream reports what came of its attempts at the socket, and makes each of them only if it is wanted. Every byte that
is read is kept in order, every byte that is written leaves in order, and a direction that has come to its end is left
alone.
-/

namespace Splice.Buffered

variable {κ : Type} [Socket κ] {b : Buffered κ} {x : Exchange} {ready : Readiness}

/-! ## Reports -/

theorem exists_fetch (hwants : b.wantsRead = true) (hready : (ready.readable || ready.readClosed) = true)
    (hsocket : b.socket ≠ none) : ∃ x ∈ b.exchanges ready, x.isRead = true := by
  obtain ⟨socket, hs⟩ := Option.ne_none_iff_exists'.mp hsocket
  rw [exchanges, fetch?, hwants, hready, hs]
  exact ⟨_, List.mem_cons_self .., rfl⟩

theorem store?_isSome (hwants : b.wantsWrite = true) (hready : (ready.writable || ready.writeClosed) = true)
    (hsocket : b.socket ≠ none) : ∃ x, b.store? ready = some x := by
  obtain ⟨socket, hs⟩ := Option.ne_none_iff_exists'.mp hsocket
  rw [store?, hwants, hready, hs]
  exact ⟨_, rfl⟩

theorem exists_store (hwants : b.wantsWrite = true) (hready : (ready.writable || ready.writeClosed) = true)
    (hsocket : b.socket ≠ none) (hgoes : ∀ x ∈ b.exchanges ready, x.isRead = true → x.ends = false) :
    ∃ x ∈ b.exchanges ready, x.isRead = false := by
  obtain ⟨reads, is_read⟩ := b.reading_makes ready
  have still := b.reading_wantsWrite ready
  unfold exchanges at hgoes ⊢
  generalize b.fetch? ready = x?, b.reading ready = a at *
  cases reads with
  | nothing =>
    obtain ⟨y, hy⟩ := store?_isSome hwants hready hsocket
    rw [hy]
    exact ⟨y, List.mem_singleton_self y, (b.writing_makes ready).2 y hy⟩
  | @attempt x _ made =>
    have connected : a.after.socket ≠ none := made.connected
    -- The read leaves the socket in place and the output as it was.
    obtain ⟨y, hy⟩ := store?_isSome (still.trans hwants) hready connected
    have goes : x.ends = false := hgoes x (List.mem_cons_self ..) (is_read x rfl)
    dsimp only
    rw [goes, if_neg Bool.false_ne_true, hy]
    exact ⟨y, by simp, (a.after.writing_makes ready).2 y hy⟩

/-- What a stream reports, and what it did for it. -/
structure Reports (b : Buffered κ) (ready : Readiness) (exchanges : List Exchange) (c : Buffered κ)
    (events : List StreamEvent) : Prop where
  limits : c.limits = b.limits
  exchanged : Exchanged b.socket exchanges c.socket
  batch : Batch exchanges
  read_wanted : ∀ x ∈ exchanges, x.isRead = true →
    b.stream.reads = true ∧ b.stream.input.length < b.limits.watermark
  write_wanted : ∀ offered result, .write offered result ∈ exchanges →
    b.stream.writes = true ∧ offered = b.stream.output ∧ offered ≠ []
  tries_read : b.wantsRead = true → (ready.readable || ready.readClosed) = true → b.socket ≠ none →
    ∃ x ∈ exchanges, x.isRead = true
  tries_write : b.wantsWrite = true → (ready.writable || ready.writeClosed) = true → b.socket ≠ none →
    (∀ x ∈ exchanges, x.isRead = true → x.ends = false) → ∃ x ∈ exchanges, x.isRead = false
  reported : events = exchanges.filterMap Exchange.report?
  order : ∃ reading writing : Option StreamEvent, events = reading.toList ++ writing.toList ∧
    (∀ e ∈ reading, e.OfReading) ∧ ∀ e ∈ writing, e.OfWriting
  input : c.stream.input = b.stream.input ++ exchanges.flatMap Exchange.fetched
  readable_iff : .readable ∈ events ↔ ∃ limit block, .read limit (.data block) ∈ exchanges ∧ block ≠ []
  output : exchanges.flatMap Exchange.stored ++ c.stream.output = b.stream.output
  drained_iff : .drained ∈ events ↔ b.stream.output ≠ [] ∧ c.stream.output = []
  ended_iff : ∀ d, .eof d ∈ events ∨ .error d ∈ events ↔
    (d = .onlyRead ∨ d = .onlyWrite) ∧ d ⊆ b.stream.enabled ∧ ¬d ⊆ c.stream.enabled
  narrows : c.stream.enabled ⊆ b.stream.enabled
  read_ended : .eof .onlyRead ∈ events ∨ .error .onlyRead ∈ events →
    (∀ x ∈ exchanges, x.isRead = true) ∧ c.stream.writes = b.stream.writes ∧ c.stream.output = b.stream.output

theorem serve_reports (b : Buffered κ) (ready : Readiness) :
    Reports b ready (b.exchanges ready) (b.serve ready).1 (b.serve ready).2 := by
  obtain ⟨chain, batch, reported⟩ := b.serve_chain ready
  have tries_read := @exists_fetch κ _ b ready
  have tries_write := @exists_store κ _ b ready
  generalize b.exchanges ready = xs at *
  generalize (b.serve ready).1 = c, (b.serve ready).2 = events at *
  have mem_events : ∀ e, e ∈ events ↔ ∃ x ∈ xs, x.report? = some e := by
    intro e
    rw [reported, List.mem_filterMap]
  have ended : ∀ d, .eof d ∈ events ∨ .error d ∈ events ↔ ∃ x ∈ xs, x.ends = true ∧ d = x.direction := by
    intro d
    simp only [mem_events, ← exists_or, ← and_or_left, Exchange.report?_eq_end]
  refine ⟨chain.limits, chain.exchanged, batch, ?_, ?_, tries_read, tries_write, reported, ?_, chain.input, ?_,
    chain.output, ?_, ?_, ⟨?_, ?_⟩, ?_⟩
  · exact fun x hmem hx => reads_of_wantsRead (chain.read_wanted batch hmem hx)
  · intro offered result hmem
    obtain ⟨hwants, rfl⟩ := chain.write_wanted batch hmem
    obtain ⟨hwrites, hne⟩ := writes_of_wantsWrite hwants
    exact ⟨hwrites, rfl, hne⟩
  · rw [reported]
    exact batch.reports
  · simp only [mem_events, Exchange.report?_eq_readable]
    constructor
    · rintro ⟨_, hmem, limit, block, rfl, hne⟩
      exact ⟨limit, block, hmem, hne⟩
    · rintro ⟨limit, block, hmem, hne⟩
      exact ⟨_, hmem, limit, block, rfl, hne⟩
  · exact (mem_events _).trans (chain.drained_iff batch)
  · exact fun d => (ended d).trans (chain.ended_iff batch d)
  · rw [← Directions.onlyRead_subset_iff, ← Directions.onlyRead_subset_iff, chain.subset_iff (.inl rfl)]
    exact And.left
  · rw [← Directions.onlyWrite_subset_iff, ← Directions.onlyWrite_subset_iff, chain.subset_iff (.inr rfl)]
    exact And.left
  · intro h
    obtain ⟨x, hmem, hends, hx⟩ := (ended _).mp h
    have hread : x.isRead = true := by
      by_contra hwrite
      rw [Exchange.direction, if_neg hwrite] at hx
      cases hx
    have all := batch.all_reads hmem hread hends
    refine ⟨all, ?_, ?_⟩
    · rw [Stream.writes_eq, Stream.writes_eq, Bool.eq_iff_iff, ← Directions.onlyWrite_subset_iff,
        ← Directions.onlyWrite_subset_iff, chain.subset_iff (.inr rfl)]
      refine and_iff_left ?_
      rintro ⟨y, hy, -, hwrite⟩
      rw [Exchange.direction, if_pos (all y hy)] at hwrite
      cases hwrite
    · have output := chain.output
      rwa [List.flatMap_eq_nil_iff.mpr fun y hy => Exchange.stored_of_isRead (all y hy)] at output

/-! ## Using a stream -/

inductive Use (κ : Type)
  | serve (ready : Readiness)
  /-- Bytes are taken from the front of the input. -/
  | take (n : Nat)
  | queue (data : List UInt8)
  | discard
  | disable (d : Directions)
  | attach (socket : κ)
  | connectFailed
  | shutdownWrite

def use (b : Buffered κ) : Use κ → Buffered κ
  | .serve ready => (b.serve ready).1
  | .take n => b.mapStream fun s => { s with input := s.input.drop n }
  | .queue data => b.mapStream fun s => { s with output := s.output ++ data }
  | .discard => b.mapStream fun s => { s with output := [] }
  | .disable d => b.mapStream (·.disable d)
  | .attach socket => b.attach socket
  | .connectFailed => b.connectFailed
  | .shutdownWrite => b.shutdownWrite

def exchangesOf (b : Buffered κ) : Use κ → List Exchange
  | .serve ready => b.exchanges ready
  | _ => []

def reportsOf (b : Buffered κ) : Use κ → List StreamEvent
  | .serve ready => (b.serve ready).2
  | _ => []

def takenBy (b : Buffered κ) : Use κ → List UInt8
  | .take n => b.stream.input.take n
  | _ => []

def queuedBy (_ : Buffered κ) : Use κ → List UInt8
  | .queue data => data
  | _ => []

def departingBy (b : Buffered κ) : Use κ → List UInt8
  | .serve ready => (b.exchanges ready).flatMap Exchange.stored
  | .discard => b.stream.output
  | _ => []

def play (b : Buffered κ) (uses : List (Use κ)) : Buffered κ := uses.foldl use b

def transcript (b : Buffered κ) (uses : List (Use κ)) : List Exchange := Run.gather use exchangesOf b uses

def reports (b : Buffered κ) (uses : List (Use κ)) : List StreamEvent := Run.gather use reportsOf b uses

def taken (b : Buffered κ) (uses : List (Use κ)) : List UInt8 := Run.gather use takenBy b uses

def queued (b : Buffered κ) (uses : List (Use κ)) : List UInt8 := Run.gather use queuedBy b uses

def departed (b : Buffered κ) (uses : List (Use κ)) : List UInt8 := Run.gather use departingBy b uses

variable {u : Use κ}

theorem use_input (b : Buffered κ) (u : Use κ) :
    b.takenBy u ++ (b.use u).stream.input = b.stream.input ++ (b.exchangesOf u).flatMap Exchange.fetched := by
  cases u with
  | serve ready => exact (b.serve_reports ready).input
  | take n => exact (List.take_append_drop n _).trans (List.append_nil _).symm
  | _ => exact (List.append_nil _).symm

theorem use_output (b : Buffered κ) (u : Use κ) :
    b.departingBy u ++ (b.use u).stream.output = b.stream.output ++ b.queuedBy u := by
  cases u with
  | serve ready => exact (b.serve_reports ready).output.trans (List.append_nil _).symm
  | queue => rfl
  | discard => rfl
  | _ => exact (List.append_nil _).symm

theorem use_reports (b : Buffered κ) (u : Use κ) : b.reportsOf u = (b.exchangesOf u).filterMap Exchange.report? := by
  cases u with
  | serve ready => exact (b.serve_reports ready).reported
  | _ => rfl

theorem use_narrows (b : Buffered κ) (u : Use κ) : (b.use u).stream.enabled ⊆ b.stream.enabled := by
  cases u with
  | serve ready => exact (b.serve_reports ready).narrows
  | disable d => exact ⟨fun h => (Bool.and_eq_true_iff.mp h).1, fun h => (Bool.and_eq_true_iff.mp h).1⟩
  | connectFailed => exact ⟨nofun, nofun⟩
  | _ => exact ⟨id, id⟩

/-! ## Runs of uses -/

theorem play_input (b : Buffered κ) (uses : List (Use κ)) :
    b.taken uses ++ (b.play uses).stream.input =
      b.stream.input ++ (b.transcript uses).flatMap Exchange.fetched := by
  induction uses generalizing b with
  | nil => exact (List.append_nil _).symm
  | cons u uses ih =>
    calc
      _ = b.takenBy u ++ ((b.use u).taken uses ++ ((b.use u).play uses).stream.input) := List.append_assoc ..
      _ = (b.takenBy u ++ (b.use u).stream.input) ++ ((b.use u).transcript uses).flatMap Exchange.fetched := by
        rw [ih, List.append_assoc]
      _ = b.stream.input ++ ((b.exchangesOf u).flatMap Exchange.fetched ++
          ((b.use u).transcript uses).flatMap Exchange.fetched) := by rw [use_input, List.append_assoc]
      _ = _ := by
        rw [← List.flatMap_append]
        rfl

theorem play_output (b : Buffered κ) (uses : List (Use κ)) :
    b.departed uses ++ (b.play uses).stream.output = b.stream.output ++ b.queued uses := by
  induction uses generalizing b with
  | nil => exact (List.append_nil _).symm
  | cons u uses ih =>
    calc
      _ = b.departingBy u ++ ((b.use u).departed uses ++ ((b.use u).play uses).stream.output) :=
        List.append_assoc ..
      _ = (b.departingBy u ++ (b.use u).stream.output) ++ (b.use u).queued uses := by rw [ih, List.append_assoc]
      _ = b.stream.output ++ (b.queuedBy u ++ (b.use u).queued uses) := by rw [use_output, List.append_assoc]
      _ = _ := rfl

theorem play_reports (b : Buffered κ) (uses : List (Use κ)) :
    b.reports uses = (b.transcript uses).filterMap Exchange.report? := by
  induction uses generalizing b with
  | nil => rfl
  | cons u uses ih =>
    show b.reportsOf u ++ (b.use u).reports uses = (b.exchangesOf u ++ (b.use u).transcript uses).filterMap _
    rw [use_reports, ih, List.filterMap_append]

theorem enabled_of_mem_transcript {uses : List (Use κ)} (hmem : x ∈ b.transcript uses) :
    x.direction ⊆ b.stream.enabled := by
  induction uses generalizing b with
  | nil => cases hmem
  | cons u uses ih =>
    rcases List.mem_append.mp hmem with hmem | hmem
    · cases u with
      | serve ready =>
        obtain ⟨chain, batch, -⟩ := b.serve_chain ready
        exact chain.direction_enabled batch hmem
      | _ => cases hmem
    · obtain ⟨reads, writes⟩ := ih hmem
      obtain ⟨narrows, narrows'⟩ := b.use_narrows u
      exact ⟨fun h => narrows (reads h), fun h => narrows' (writes h)⟩

theorem over_of_ends (hmem : x ∈ b.exchangesOf u) (hends : x.ends = true) :
    ¬x.direction ⊆ (b.use u).stream.enabled := by
  cases u with
  | serve ready =>
    obtain ⟨chain, batch, -⟩ := b.serve_chain ready
    exact ((chain.ended_iff batch _).mp ⟨x, hmem, hends, rfl⟩).2.2
  | _ => cases hmem

theorem exchangesOf_pairwise (b : Buffered κ) (u : Use κ) :
    (b.exchangesOf u).Pairwise fun x y => x.ends = true → y.direction ≠ x.direction := by
  cases u with
  | serve ready => exact (b.serve_reports ready).batch.pairwise
  | _ => exact .nil

/-- After the end of a direction nothing more is attempted in it. -/
theorem transcript_pairwise (b : Buffered κ) (uses : List (Use κ)) :
    (b.transcript uses).Pairwise fun x y => x.ends = true → y.direction ≠ x.direction := by
  induction uses generalizing b with
  | nil => exact .nil
  | cons u uses ih =>
    refine List.pairwise_append.mpr ⟨b.exchangesOf_pairwise u, ih _, ?_⟩
    intro x hx y hy hends same
    exact over_of_ends hx hends (same ▸ enabled_of_mem_transcript hy)

theorem reports_pairwise (b : Buffered κ) (uses : List (Use κ)) :
    (b.reports uses).Pairwise fun e e' =>
      (e = .eof .onlyRead ∨ e = .error .onlyRead → e'.OfWriting) ∧
        (e = .eof .onlyWrite ∨ e = .error .onlyWrite → e'.OfReading) := by
  rw [play_reports]
  -- An event says which direction it is about, so what holds of the exchanges carries over to their reports.
  refine (b.transcript_pairwise uses).filterMap _ fun x y apart e he e' he' => ⟨fun hend => ?_, fun hend => ?_⟩
  · obtain ⟨hends, hx⟩ := (Exchange.report?_eq_end .onlyRead).mp
      (hend.imp (fun h => h ▸ Option.mem_def.mp he) fun h => h ▸ Option.mem_def.mp he)
    refine Exchange.report?_ofWriting ?_ e' he'
    by_contra hy
    exact apart hends (by rw [← hx, Exchange.direction, if_pos (by simpa using hy)])
  · obtain ⟨hends, hx⟩ := (Exchange.report?_eq_end .onlyWrite).mp
      (hend.imp (fun h => h ▸ Option.mem_def.mp he) fun h => h ▸ Option.mem_def.mp he)
    refine Exchange.report?_ofReading ?_ e' he'
    by_contra hy
    exact apart hends (by rw [← hx, Exchange.direction, if_neg hy])

/-- Serving a stream reports what came of its attempts. However it is used, what was taken of its input and what is
left of it are what was read, and what left its output and what is left of it are what was queued. The end of a
direction is reported once and is the last of it. -/
theorem reports_what_happened :
    (∀ (b : Buffered κ) (ready : Readiness),
      Reports b ready (b.exchanges ready) (b.serve ready).1 (b.serve ready).2) ∧
    ∀ (b : Buffered κ) (uses : List (Use κ)),
      b.taken uses ++ (b.play uses).stream.input =
        b.stream.input ++ (b.transcript uses).flatMap Exchange.fetched ∧
      b.departed uses ++ (b.play uses).stream.output = b.stream.output ++ b.queued uses ∧
      b.reports uses = (b.transcript uses).filterMap Exchange.report? ∧
      ((b.reports uses).Pairwise fun e e' =>
        (e = .eof .onlyRead ∨ e = .error .onlyRead → e'.OfWriting) ∧
          (e = .eof .onlyWrite ∨ e = .error .onlyWrite → e'.OfReading)) ∧
      (b.transcript uses).Pairwise fun x y => x.ends = true → y.direction ≠ x.direction :=
  ⟨serve_reports, fun b uses => ⟨b.play_input uses, b.play_output uses, b.play_reports uses, b.reports_pairwise uses,
    b.transcript_pairwise uses⟩⟩

end Splice.Buffered
