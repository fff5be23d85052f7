import Splice.Peer
import Splice.Proofs.Bridge.Notifying

/-!
# The links of peers

The link of a peer is pending for as long as the bridge holds the peer, and then says for ever how it was let go.
Who waits on the link sees that at the first look after. Main statement: of peers that are all different each is
let go once and is told of the connection at most once, right before that.
-/

namespace Splice.Bridge

variable {σ : Type} {b c d : Bridge σ} {s : Step} {p : PeerId} [Sender σ]

/-! ## Links -/

/-- The link of a peer that was fresh at the start. -/
def link (p : PeerId) (b : Bridge σ) : LinkState := .after p .pending b.trace

omit [Sender σ] in
theorem link_eq (p : PeerId) (b : Bridge σ) : b.link p = .after p .pending (b.told p) := by
  have others : ∀ (calls : List Call) (state : LinkState),
      LinkState.after p state (calls.filter (Call.concerns p)) = LinkState.after p state calls := by
    intro calls
    induction calls with
    | nil => exact fun _ => rfl
    | cons call calls ih =>
      intro state
      by_cases h : call.concerns p = true
      · rw [List.filter_cons_of_pos h]
        exact ih _
      · have unseen : state.see p call = state := by
          cases call <;> simp_all [Call.concerns, LinkState.see]
        rw [List.filter_cons_of_neg h, ih]
        exact congrArg (LinkState.after p · calls) unseen.symm
  exact (others b.trace .pending).symm

omit [Sender σ] in
theorem link_of_told (h : c.told p = b.told p) : c.link p = b.link p := by
  rw [link_eq, link_eq, h]

omit [Sender σ] in
theorem Holds.link (h : Holds p b) : b.link p = .pending := by
  rw [link_eq, h.2]
  rfl

omit [Sender σ] in
theorem LetGo.link (h : LetGo p b) : b.link p ≠ .pending := by
  rw [link_eq]
  rcases h.2 with h | h <;> rw [h] <;> simp [LinkState.after, LinkState.see, LinkState.detach, LinkState.connect]

omit [Sender σ] in
theorem link_of_farewell (h : c.told p = farewell p s) :
    c.link p = if s = .event (.connection .connected) then .connected else .detached := by
  rw [link_eq, h, farewell]
  split <;> simp [LinkState.after, LinkState.see, LinkState.detach, LinkState.connect]

/-! ## Waiting on a link -/

def states (b : Bridge σ) : List Step → List (Bridge σ)
  | [] => [b]
  | s :: steps => b :: (b.step s).states steps

omit [Sender σ] in
/-- What is seen on the link by looking once in each state. -/
def watch (p : PeerId) (l : WatchedLink) : List (Bridge σ) → List WatchedLink.Seen
  | [] => []
  | b :: bs =>
    let looked := { l with state := b.link p }.look
    looked.2 :: watch p looked.1 bs

omit [Sender σ] in
theorem watch_idle {l : WatchedLink} (h : l.waiting = false) (bs : List (Bridge σ)) :
    watch p l bs = bs.map fun _ => .nothing := by
  induction bs generalizing l with
  | nil => rfl
  | cons b bs ih =>
    have looked : { l with state := b.link p }.look = ({ l with state := b.link p }, .nothing) := by
      simp [WatchedLink.look, h]
    simp only [watch, looked, List.map_cons, List.cons.injEq, true_and]
    exact ih h

omit [Sender σ] in
theorem watch_resolves {held rest : List (Bridge σ)} {l : WatchedLink} (hl : l.waiting = true)
    (hheld : ∀ d ∈ held, d.link p = .pending) (hc : c.link p ≠ .pending) :
    watch p l (held ++ c :: rest) =
      held.map (fun _ => .waiting) ++ .resolved (c.link p) :: rest.map fun _ => .nothing := by
  induction held generalizing l with
  | nil =>
    have resolved : (c.link p).resolved? = some (c.link p) := by
      cases h : c.link p with
      | pending => exact absurd h hc
      | connected | detached => rfl
    have looked : { l with state := c.link p }.look =
        ({ l with state := c.link p, waiting := false }, .resolved (c.link p)) := by
      simp [WatchedLink.look, hl, resolved]
    simp only [List.nil_append, watch, looked, List.map_nil, List.cons.injEq, true_and]
    exact watch_idle rfl rest
  | cons d held ih =>
    rw [List.forall_mem_cons] at hheld
    have looked : { l with state := d.link p }.look = ({ l with state := d.link p }, .waiting) := by
      simp [WatchedLink.look, hl, hheld.1, LinkState.resolved?]
    simp only [List.cons_append, watch, looked, List.map_cons, List.cons.injEq, true_and]
    exact ih hl hheld.2

theorem LetGo.states (h : LetGo p b) (ht : b.Tidy) {steps : List Step} (hs : .hold p ∉ steps) :
    ∀ d ∈ b.states steps ++ [(b.run steps).drop], d.peer ≠ some p ∧ d.told p = b.told p := by
  induction steps generalizing b with
  | nil =>
    simp only [Bridge.states, List.singleton_append, List.forall_mem_cons]
    exact ⟨⟨h.1, trivial⟩, ⟨h.drop.1.1, h.drop.2⟩, by simp⟩
  | cons s steps ih =>
    simp only [List.mem_cons, not_or] at hs
    obtain ⟨letGo, htold⟩ := h.step ht (Ne.symm hs.1)
    simp only [Bridge.states, List.cons_append, List.forall_mem_cons]
    refine ⟨⟨h.1, trivial⟩, ?_⟩
    rw [← htold]
    exact ih letGo (ht.step s) hs.2

/-- From some time on up to the dropping of the bridge, the states fall into those in which the peer is held and
those in which it has been let go for good. -/
theorem states_split (h : Holds p b ∨ LetGo p b) (ht : b.Tidy) {steps : List Step} (hs : .hold p ∉ steps) :
    ∃ held c rest, b.states steps ++ [(b.run steps).drop] = held ++ c :: rest ∧ (∀ d ∈ held, Holds p d) ∧
      LetGo p c ∧ ∀ d ∈ rest, d.peer ≠ some p ∧ d.told p = c.told p := by
  -- Along the steps: as long as the peer is held, this state goes before those of the rest.
  induction steps generalizing b with
  | nil =>
    rcases h with holds | letGo
    · exact ⟨[b], b.drop, [], rfl, by simpa using holds, holds.drop.1, by simp⟩
    · exact ⟨[], b, [b.drop], rfl, by simp, letGo, by simpa using ⟨letGo.drop.1.1, letGo.drop.2⟩⟩
  | cons s steps ih =>
    have later := hs
    simp only [List.mem_cons, not_or] at hs
    rcases h with holds | letGo
    · have next := (holds.step ht (Ne.symm hs.1)).imp_right And.left
      obtain ⟨held, c, rest, hsplit, hheld, hc, hrest⟩ := ih next (ht.step s) hs.2
      refine ⟨b :: held, c, rest, congrArg (b :: ·) hsplit, ?_, hc, hrest⟩
      exact List.forall_mem_cons.mpr ⟨holds, hheld⟩
    · refine ⟨[], b, _, rfl, by simp, letGo, fun d hd => letGo.states ht later d ?_⟩
      exact List.mem_cons_of_mem _ hd

/-! ## The link along a run -/

omit [Sender σ] in
theorem stands_link (h : Holds p b ∨ LetGo p b) : b.link p = .pending ↔ b.peer = some p := by
  rcases h with h | h
  · exact iff_of_true h.link h.1
  · exact iff_of_false h.link h.1

omit [Sender σ] in
theorem stands_drop (h : Holds p b ∨ LetGo p b) :
    b.drop.link p = if b.peer = some p then .detached else b.link p := by
  rcases h with h | h
  · have released : b.drop.told p = farewell p (.hold p) := h.drop.2
    rw [if_pos h.1, link_of_farewell released, if_neg (by simp)]
  · rw [if_neg h.1, link_of_told h.drop.2]

theorem released_link (h : Holds p b) (ht : b.Tidy) {now more : List Step} (hs : .hold p ∉ now ++ s :: more)
    (hpeer : (b.run now).peer = some p) (hgone : ((b.run now).step s).peer ≠ some p) :
    (b.run (now ++ s :: more)).link p = if s = .event (.connection .connected) then .connected else .detached := by
  simp only [List.mem_append, List.mem_cons, not_or] at hs
  obtain ⟨hnow, hne, hmore⟩ := hs
  have joined : b.run (now ++ s :: more) = ((b.run now).step s).run more := by simp [run]
  rw [joined]
  rcases h.run ht hnow with holds | letGo
  · rcases holds.step (ht.run now) (Ne.symm hne) with holds' | ⟨letGo, told⟩
    · exact absurd holds'.1 hgone
    · rw [link_of_told (letGo.run ((ht.run now).step s) hmore).2]
      exact link_of_farewell told
  · exact absurd hpeer letGo.1

theorem wait_resolves (h : Holds p b ∨ LetGo p b) (ht : b.Tidy) {steps : List Step} (hs : .hold p ∉ steps) :
    ∃ held c rest, b.states steps ++ [(b.run steps).drop] = held ++ c :: rest ∧ (∀ d ∈ held, d.peer = some p) ∧
      (∀ d ∈ c :: rest, d.peer ≠ some p ∧ d.link p = c.link p) ∧
      watch p { waiting := true } (held ++ c :: rest) =
        held.map (fun _ => .waiting) ++ .resolved (c.link p) :: rest.map fun _ => .nothing := by
  obtain ⟨held, c, rest, hsplit, hheld, hc, hrest⟩ := states_split h ht hs
  refine ⟨held, c, rest, hsplit, fun d hd => (hheld d hd).1, ?_, ?_⟩
  · rw [List.forall_mem_cons]
    exact ⟨⟨hc.1, rfl⟩, fun d hd => ⟨(hrest d hd).1, link_of_told (hrest d hd).2⟩⟩
  · exact watch_resolves rfl (fun d hd => (hheld d hd).link) hc.link

/-- Over every run, up to the dropping of the bridge, with peers that are all different: each is let go once and
told of the connection at most once, by an event that says so and right before it is let go; it is told nothing
after; and when the connection is closed it is let go next, with the stream still open. The link of a peer is pending while it is held and then
says for ever how it was let go, which is also what one who waits on it sees at the first look after. -/
theorem each_peer_told_once (sender : σ) (stream : Stream) (config : Config) (steps : List Step)
    (distinct : (peersOf steps).Nodup) :
    let start := new sender stream config
    let b := start.run steps
    let trace := b.drop.trace
    (∀ p, trace.count (.peerConnected p) ≤ 1 ∧
      trace.count (.peerReleased p) = if p ∈ peersOf steps then 1 else 0) ∧
    (∀ p before after, trace = before ++ .peerConnected p :: after → ∃ later, after = .peerReleased p :: later) ∧
    (∀ p before after, trace = before ++ .peerReleased p :: after → ∀ call ∈ after, call.concerns p = false) ∧
    (∀ s made, (b.step s).trace = b.trace ++ made →
      (∀ p, .peerConnected p ∈ made → s = .event (.connection .connected) ∧ b.attached = true ∧ b.peer = some p) ∧
      ∀ p before after, made = before ++ .closeConnection :: after → b.peer = some p → .peerReleased p ∉ before →
        (∃ later, after = .peerReleased p :: later) ∧ ∀ call ∈ b.trace ++ before, call.closesStream = false) ∧
    ∀ p before later, steps = before ++ .hold p :: later →
      let given := start.run (before ++ [.hold p])
      (b.link p = .pending ↔ b.peer = some p) ∧
      b.drop.link p = (if b.peer = some p then .detached else b.link p) ∧
      (∀ now s more, later = now ++ s :: more → (given.run now).peer = some p → ((given.run now).step s).peer ≠ some p →
        b.link p = if s = .event (.connection .connected) then .connected else .detached) ∧
      ∀ now more, later = now ++ more → ∃ held c rest,
        (given.run now).states more ++ [b.drop] = held ++ c :: rest ∧ (∀ d ∈ held, d.peer = some p) ∧
        (∀ d ∈ c :: rest, d.peer ≠ some p ∧ d.link p = c.link p) ∧
        watch p { waiting := true } (held ++ c :: rest) =
          held.map (fun _ => .waiting) ++ .resolved (c.link p) :: rest.map fun _ => .nothing := by
  intro start b trace
  have tidy : start.Tidy := tidy_new sender stream config
  have unknown : ∀ p, start.peer ≠ some p ∧ start.told p = [] := fun p => ⟨nofun, rfl⟩
  have fate : ∀ p, p ∈ peersOf steps → Holds p b ∨ LetGo p b := by
    intro p hp
    obtain ⟨before, later, hsplit⟩ := List.append_of_mem (mem_peersOf.mp hp)
    rw [hsplit] at distinct
    obtain ⟨hbefore, hlater⟩ := held_once distinct
    simp only [b, hsplit]
    exact run_held tidy (unknown p) hbefore hlater
  have dropped : ∀ p, p ∈ peersOf steps → LetGo p b.drop := fun p hp =>
    (fate p hp).elim (fun h => h.drop.1) (fun h => h.drop.1)
  have never_told : ∀ p, p ∉ peersOf steps → b.drop.told p = [] := by
    intro p hp
    obtain ⟨hpeer, htold⟩ := run_unknown tidy (unknown p) (mt mem_peersOf.mpr hp)
    rw [drop_told, if_neg hpeer, htold, List.append_nil]
  refine ⟨?_, ?_, ?_, ?_, ?_⟩
  · intro p
    by_cases hp : p ∈ peersOf steps
    · rw [if_pos hp]
      exact (dropped p hp).counts
    · have nothing : ∀ call : Call, call.concerns p = true → trace.count call = 0 := fun call hc =>
        List.count_eq_zero.mpr (not_mem_of_untold (never_told p hp) hc)
      rw [if_neg hp, nothing _ (by simp [Call.concerns]), nothing _ (by simp [Call.concerns])]
      exact ⟨Nat.zero_le _, rfl⟩
  · intro p before after hsplit
    have paired : Paired trace := by
      have released : trace = b.trace ++ b.releases := b.releases_makes
      rw [released]
      exact (run_paired tidy .nil steps).append b.releases_paired
    exact paired.followed hsplit
  · intro p before after hsplit
    by_cases hp : p ∈ peersOf steps
    · exact (dropped p hp).silent hsplit
    · have said : Call.peerReleased p ∈ trace := by simp [hsplit]
      exact absurd said (not_mem_of_untold (never_told p hp) (by simp [Call.concerns]))
  · intro s made makes
    have notifies := (tidy.run steps).notifies s
    refine ⟨fun p hc => notifies.connecting makes hc, fun p before after hsplit hp hheld => ?_⟩
    rw [hsplit] at makes
    have in_order : InOrder (b.step s).trace := ((tidy.run steps).step s).orderly.inOrder
    exact ⟨notifies.closing makes hp hheld, in_order.stream_open (makes.trans (List.append_assoc ..).symm)⟩
  · intro p before later hsplit given
    rw [hsplit] at distinct
    obtain ⟨hbefore, hlater⟩ := held_once distinct
    have holds : Holds p given := by
      simp only [given, run_snoc]
      exact hold_holds (run_unknown tidy (unknown p) hbefore)
    have tidy' : given.Tidy := tidy.run _
    have ran : b = given.run later := by simp [b, given, hsplit, run]
    have stands : Holds p b ∨ LetGo p b := ran ▸ holds.run tidy' hlater
    refine ⟨stands_link stands, stands_drop stands, ?_, ?_⟩
    · intro now s more hnow hpeer hgone
      rw [hnow] at hlater ran
      rw [ran]
      exact released_link holds tidy' hlater hpeer hgone
    · intro now more hnow
      rw [hnow] at hlater ran
      rw [List.mem_append, not_or] at hlater
      have joined : b = (given.run now).run more := by simp [ran, run]
      rw [joined]
      exact wait_resolves (holds.run tidy' hlater.1) (tidy'.run now) hlater.2

/-- One peer is replaced, the next is told of the connection, and the third is given too late. -/
theorem each_peer_told_once_three :
    let up := Step.event (.connection .connected)
    let down := Step.event (.connection (.error .reset))
    let steps := [.hold 1, .hold 2, up, down, .hold 3]
    let b := (new Unlimited.mk {} {}).run steps
    (peersOf steps).Nodup ∧ b.drop.trace.count (.peerReleased 1) = 1 ∧ b.link 2 = .connected ∧
      b.link 3 = .pending ∧ b.drop.link 3 = .detached := by
  intro up down steps b
  have distinct : (peersOf steps).Nodup := by decide
  obtain ⟨counts, -, -, -, links⟩ := each_peer_told_once Unlimited.mk {} {} steps distinct
  obtain ⟨-, -, released, -⟩ := links 2 [.hold 1] [up, down, .hold 3] rfl
  obtain ⟨pending, dropped, -, -⟩ := links 3 [.hold 1, .hold 2, up, down] [] rfl
  have held : b.peer = some 3 := by decide +kernel
  refine ⟨distinct, (counts 1).2, ?_, pending.mpr held, dropped.trans (if_pos held)⟩
  exact released [] up [down, .hold 3] rfl (by decide +kernel) (by decide +kernel)

end Splice.Bridge
