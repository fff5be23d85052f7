import Splice.Proofs.Bridge.Course
import Mathlib.Data.List.Nodup

/-!
# Telling peers

A bridge holds at most one peer. It lets the peer go when the connection comes up, when it closes the connection,
when another peer takes its place and when it is dropped, and it tells the peer so each time. `Notifies` says all
that a step can do about the peer; from it, a peer that is given once is held and was told nothing, or was let go
and is told nothing more.
-/

namespace Splice

namespace Call

def concerns (peer : PeerId) : Call → Bool
  | peerConnected p | peerReleased p => p = peer
  | _ => false

theorem concerns_of_not_toPeer {call : Call} (h : call.toPeer = false) (peer : PeerId) :
    call.concerns peer = false := by
  cases call <;> simp_all [toPeer, concerns]

/-- Neither made to a peer nor the closing of the connection. -/
def IsPlain (call : Call) : Prop := call.toPeer = false ∧ call ≠ .closeConnection

end Call

/-- Calls among which a peer that is told of the connection is let go right after. -/
inductive Paired : List Call → Prop
  | nil : Paired []
  | cons {call : Call} {calls : List Call} : (∀ p, call ≠ .peerConnected p) → Paired calls → Paired (call :: calls)
  | announce {p : PeerId} {calls : List Call} : Paired calls → Paired (.peerConnected p :: .peerReleased p :: calls)

namespace Paired

variable {calls later : List Call}

theorem of_not_toPeer (h : ∀ call ∈ calls, call.toPeer = false) : Paired calls := by
  induction calls with
  | nil => exact .nil
  | cons call calls ih =>
    rw [List.forall_mem_cons] at h
    refine .cons ?_ (ih h.2)
    rintro p rfl
    cases h.1

theorem append (h : Paired calls) (h' : Paired later) : Paired (calls ++ later) := by
  induction h with
  | nil => exact h'
  | cons hne _ ih => exact .cons hne ih
  | announce _ ih => exact .announce ih

theorem followed (h : Paired calls) {before after : List Call} {p : PeerId}
    (hsplit : calls = before ++ .peerConnected p :: after) : ∃ later, after = .peerReleased p :: later := by
  induction h generalizing before with
  | nil => simp at hsplit
  | cons hne _ ih =>
    cases before with
    | nil =>
      rw [List.nil_append, List.cons.injEq] at hsplit
      exact absurd hsplit.1 (hne p)
    | cons call before => exact ih (List.cons.inj hsplit).2
  | @announce q calls _ ih =>
    match before with
    | [] =>
      rw [List.nil_append, List.cons.injEq, Call.peerConnected.injEq] at hsplit
      obtain ⟨rfl, rfl⟩ := hsplit
      exact ⟨calls, rfl⟩
    | [call] =>
      simp at hsplit
    | _ :: _ :: before => exact ih (List.cons.inj (List.cons.inj hsplit).2).2

end Paired

namespace Bridge

variable {σ : Type} {event : Event} {b c d : Bridge σ} {s : Step} {p : PeerId} {made : List Call}

/-- The calls made between two bridges, in the order they were made. -/
def Makes (made : List Call) (b c : Bridge σ) : Prop := c.trace = b.trace ++ made

namespace Makes

variable {made' : List Call}

theorem refl (b : Bridge σ) : Makes [] b b := (List.append_nil _).symm

theorem trans (h : Makes made b c) (h' : Makes made' c d) : Makes (made ++ made') b d := by
  unfold Makes at *
  rw [h', h, List.append_assoc]

theorem of_calls (h : c.calls = made ++ b.calls) : Makes made.reverse b c := by
  simp [Makes, trace, h]

theorem unique (h : Makes made b c) (h' : Makes made' b c) : made = made' :=
  List.append_cancel_left (h.symm.trans h')

end Makes

theorem MakesOnly.makes {kind : Call → Prop} (h : MakesOnly kind b c) :
    ∃ made, Makes made b c ∧ ∀ call ∈ made, kind call := by
  obtain ⟨made, hcalls, hkind⟩ := h
  exact ⟨made.reverse, .of_calls hcalls, fun call hc => hkind call (List.mem_reverse.mp hc)⟩

/-! ## One deed -/

theorem releases_makes (b : Bridge σ) : Makes b.releases b b.releasePeer := by
  rw [releasePeer_eq]
  have single : b.releases.reverse = b.releases := by
    unfold releases
    cases b.peer <;> rfl
  rw [← single]
  exact .of_calls (by rw [single])

theorem closeConnection_makes (ha : b.attached = true) :
    Makes (.closeConnection :: b.releases) b b.closeConnection := by
  rw [closeConnection_eq ha]
  unfold Makes trace releases
  cases b.peer <;> simp

theorem connected_makes (hp : b.peer = some p) : Makes [.peerConnected p, .peerReleased p] b b.connected := by
  rw [connected_eq]
  simp [Makes, trace, announces, hp]

variable [Sender σ]

/-- Only three deeds have to do with the peer or close the connection. -/
theorem Deed.peer_cases (d : Deed event b c) (ht : b.Sound) :
    c.peer = b.peer ∧ MakesOnly Call.IsPlain b c ∨
      event = .connection .connected ∧ b.attached = true ∧ c = b.connected ∨
      b.attached = true ∧ c = b.closeConnection := by
  cases d with
  | send _ _ _ => exact .inl ⟨rfl, .one rfl ⟨rfl, by simp⟩⟩
  | tell _ _ tells => exact .inl ⟨rfl, .one rfl (by cases tells <;> exact ⟨rfl, by simp⟩)⟩
  | suspend _ _ => exact .inl ⟨rfl, .none rfl⟩
  | announce ha he => exact .inr (.inl ⟨he, ha, rfl⟩)
  | @receive data ha _ =>
    obtain ⟨s, hs⟩ := ht.stream_of_attached ha
    cases hw : s.writes with
    | true =>
      rw [queueOutput_of_writes data hs hw]
      exact .inl ⟨rfl, .none rfl⟩
    | false =>
      rw [queueOutput_of_not_writes data hs hw]
      exact .inl ⟨rfl, .none rfl⟩
  | endOutput _ _ _ _ => exact .inl ⟨rfl, .one rfl ⟨rfl, by simp⟩⟩
  | adjust _ _ => exact .inl ⟨rfl, .none rfl⟩
  | closeConnection ha _ => exact .inr (.inr ⟨ha, rfl⟩)
  | closeStream ha hs hi ho he =>
    rw [closeStream_conclude ha hs hi ho he]
    exact .inl ⟨rfl, .one rfl ⟨rfl, by simp⟩⟩

/-! ## One reaction -/

/-- What becomes of the peer in deeds that do not announce it: it is held on to, or it goes with the connection. -/
inductive Lets (b c : Bridge σ) : Prop
  | holds {made : List Call} : c.peer = b.peer → Makes made b c → (∀ call ∈ made, call.toPeer = false) →
      (.closeConnection ∈ made → b.peer = none) → Lets b c
  | parts {p : PeerId} {before after : List Call} : b.peer = some p → c.peer = none → c.attached = false →
      Makes (before ++ .closeConnection :: .peerReleased p :: after) b c →
      (∀ call ∈ before, call.IsPlain) → (∀ call ∈ after, call.IsPlain) → Lets b c

namespace Lets

omit [Sender σ] in
theorem plain (h : Lets b c) (hpeer : d.peer = c.peer) (ha : c.attached = false → d.attached = false)
    (honly : MakesOnly Call.IsPlain c d) : Lets b d := by
  obtain ⟨made', makes', plain⟩ := honly.makes
  cases h with
  | @holds made hheld makes quiet closes =>
    refine .holds (hpeer.trans hheld) (makes.trans makes') ?_ ?_
    · intro call hc
      rcases List.mem_append.mp hc with hc | hc
      · exact quiet call hc
      · exact (plain call hc).1
    · intro hc
      exact closes ((List.mem_append.mp hc).resolve_right fun hc => (plain _ hc).2 rfl)
  | @parts p before after hp hnone hgone makes hbefore hafter =>
    have both : Makes (before ++ .closeConnection :: .peerReleased p :: (after ++ made')) b d := by
      simpa using makes.trans makes'
    refine .parts hp (hpeer.trans hnone) (ha hgone) both hbefore ?_
    intro call hc
    rcases List.mem_append.mp hc with hc | hc
    · exact hafter call hc
    · exact plain call hc

omit [Sender σ] in
theorem close (h : Lets b c) (ha : c.attached = true) : Lets b c.closeConnection := by
  have closes := closeConnection_makes ha
  cases h with
  | parts _ _ hgone => cases ha.symm.trans hgone
  | @holds made hheld makes quiet hcloses =>
    cases hp : b.peer with
    | none =>
      have none_held : c.peer = none := hheld.trans hp
      refine .holds ?_ (makes.trans closes) ?_ fun _ => hp
      · rw [closeConnection_eq ha, hp]
      · intro call hc
        simp only [releases, none_held, Option.toList_none, List.map_nil, List.mem_append, List.mem_singleton] at hc
        rcases hc with hc | rfl
        · exact quiet call hc
        · rfl
    | some p =>
      have held : c.peer = some p := hheld.trans hp
      have gone : c.closeConnection.peer = none := by rw [closeConnection_eq ha]
      have both : Makes (made ++ [.closeConnection, .peerReleased p]) b c.closeConnection := by
        simpa [releases, held] using makes.trans closes
      refine .parts hp gone (closeConnection_attached c) both ?_ (by simp)
      intro call hc
      refine ⟨quiet call hc, ?_⟩
      rintro rfl
      cases hp.symm.trans (hcloses hc)

end Lets

theorem Deeds.lets (h : Deeds event b c) (ht : b.Tidy) (hquiet : event = .connection .connected → b.peer = none) :
    Lets b c := by
  have kept := h.preserves (P := fun d => d.Tidy ∧ Lets b d) ?_ ⟨ht, .holds rfl (.refl b) (by simp) (by simp)⟩
  · exact kept.2
  rintro d d' deed ⟨tidy, lets⟩
  refine ⟨deed.tidy tidy, ?_⟩
  rcases deed.peer_cases tidy.toSound with ⟨hpeer, honly⟩ | ⟨he, ha, rfl⟩ | ⟨ha, rfl⟩
  · exact lets.plain hpeer (deed.ahead tidy.toSound).detached honly
  · -- The peer was told before, and there is none left to tell.
    have none_held : d.peer = none := by
      cases lets with
      | holds hheld => exact hheld.trans (hquiet he)
      | parts hp => cases hp.symm.trans (hquiet he)
    have same : d.connected = d := by rw [connected, none_held]
    rw [same]
    exact lets
  · exact lets.close ha

/-! ## One step -/

inductive Notifies (b : Bridge σ) (s : Step) (c : Bridge σ) : Prop
  | keeps {made : List Call} : (∀ q, s ≠ .hold q) → c.peer = b.peer → Makes made b c →
      (∀ call ∈ made, call.toPeer = false) → (.closeConnection ∈ made → b.peer = none) → Notifies b s c
  | parts {p : PeerId} {before after : List Call} : (∀ q, s ≠ .hold q) → s ≠ .event (.connection .connected) →
      b.peer = some p → c.peer = none → Makes (before ++ .closeConnection :: .peerReleased p :: after) b c →
      (∀ call ∈ before, call.IsPlain) → (∀ call ∈ after, call.IsPlain) → Notifies b s c
  | announces {p : PeerId} {after : List Call} : s = .event (.connection .connected) → b.attached = true →
      b.peer = some p → c.peer = none → Makes (.peerConnected p :: .peerReleased p :: after) b c →
      (∀ call ∈ after, call.toPeer = false) → Notifies b s c
  | replaces {q : PeerId} : s = .hold q → c.peer = some q → Makes b.releases b c → Notifies b s c

omit [Sender σ] in
theorem Lets.notifies (h : Lets b c) (hhold : ∀ q, s ≠ .hold q)
    (hquiet : s = .event (.connection .connected) → b.peer = none) : Notifies b s c := by
  cases h with
  | holds hpeer makes quiet closes => exact .keeps hhold hpeer makes quiet closes
  | parts hp hnone _ makes hbefore hafter =>
    refine .parts hhold (fun he => ?_) hp hnone makes hbefore hafter
    cases hp.symm.trans (hquiet he)

theorem connected_lets (h : b.Tidy) (hf : b.finished = false) (ha : b.attached = true) :
    Lets b.connected (b.onConnection .connected).1 := by
  obtain ⟨s, hs⟩ := h.stream_of_attached ha
  have told : b.onConnection .connected = b.connected.writable := by
    unfold onConnection
    rw [if_neg (by simp [hf]), if_neg (by simp [ha])]
  have announces : Deed (.connection .connected) b b.connected := .announce ha rfl
  have tidy := announces.tidy h
  have hs' : b.connected.stream = some s := by
    rw [connected_eq]
    exact hs
  have hf' : b.connected.finished = false := by
    rw [connected_eq]
    exact hf
  have reacts : Reacts (.connection .writable) b.connected b.connected.writable := writable_reacts hf' hs'
  rw [told]
  exact reacts.deeds.lets tidy nofun

theorem Tidy.notifies (h : b.Tidy) (s : Step) : Notifies b s (b.step s) := by
  have quiet : ∀ {c : Bridge σ}, c.peer = b.peer → c.calls = b.calls → Lets b c := fun hpeer hcalls =>
    .holds hpeer (show Makes [] b _ by simp [Makes, trace, hcalls]) (by simp) (by simp)
  have changed : ∀ f, Lets b (b.change f) := by
    intro f
    cases hs : b.stream with
    | none =>
      rw [change_of_closed hs]
      exact quiet rfl rfl
    | some s =>
      rw [change_of_open hs]
      exact quiet rfl rfl
  cases s with
  | append | replaceInput | replaceOutput | setEnabled => exact (changed _).notifies (by simp) (by simp)
  | hold q =>
    refine .replaces rfl rfl ?_
    exact b.releases_makes
  | event event =>
    have reacted : Bridge.step b (.event event) = (b.react event).1 := rfl
    rw [reacted]
    cases hf : b.finished with
    | true =>
      rw [react_late hf]
      exact .keeps (by simp) rfl (.refl b) (by simp) (by simp)
    | false =>
      by_cases hup : event = .connection .connected ∧ b.peer ≠ none
      · obtain ⟨rfl, hheld⟩ := hup
        obtain ⟨p, hp⟩ := Option.ne_none_iff_exists'.mp hheld
        cases ha : b.attached with
        | false =>
          rw [show b.react (.connection .connected) = _ from onConnection_detached h.toSound hf ha .connected]
          exact .keeps (by simp) rfl (.refl b) (by simp) (by simp)
        | true =>
          have gone : b.connected.peer = none := by rw [connected_eq]
          cases connected_lets h hf ha with
          | holds hpeer makes quiet =>
            exact .announces rfl ha hp (hpeer.trans gone) ((connected_makes hp).trans makes) quiet
          | parts hp' => cases gone.symm.trans hp'
      · have hquiet : event = .connection .connected → b.peer = none := by
          intro he
          by_contra hheld
          exact hup ⟨he, hheld⟩
        have lets := (react_reacts h.toSound hf event).deeds.lets h hquiet
        exact lets.notifies (by simp) fun he => hquiet (Step.event.inj he)

/-! ## One peer -/

def told (p : PeerId) (b : Bridge σ) : List Call := b.trace.filter (Call.concerns p)

def farewell (p : PeerId) (s : Step) : List Call :=
  if s = .event (.connection .connected) then [.peerConnected p, .peerReleased p] else [.peerReleased p]

omit [Sender σ] in
theorem Makes.told (h : Makes made b c) (p : PeerId) : c.told p = b.told p ++ made.filter (Call.concerns p) := by
  rw [Bridge.told, h, List.filter_append]
  rfl

omit [Sender σ] in
theorem filter_concerns_eq_nil (h : ∀ call ∈ made, call.toPeer = false) (p : PeerId) :
    made.filter (Call.concerns p) = [] := by
  rw [List.filter_eq_nil_iff]
  intro call hc
  simp [Call.concerns_of_not_toPeer (h call hc)]

omit [Sender σ] in
theorem releases_filter (b : Bridge σ) (p : PeerId) :
    b.releases.filter (Call.concerns p) = if b.peer = some p then [.peerReleased p] else [] := by
  unfold releases
  cases hp : b.peer with
  | none => rfl
  | some q => by_cases h : q = p <;> simp [Call.concerns, h]

omit [Sender σ] in
theorem Notifies.of_not_held (n : Notifies b s c) (hp : b.peer ≠ some p) (hs : s ≠ .hold p) :
    c.peer ≠ some p ∧ c.told p = b.told p := by
  cases n with
  | keeps _ hpeer makes quiet =>
    refine ⟨hpeer ▸ hp, ?_⟩
    rw [makes.told, filter_concerns_eq_nil quiet, List.append_nil]
  | @parts q before after _ _ hq hnone makes hbefore hafter =>
    refine ⟨by simp [hnone], ?_⟩
    have hne : q ≠ p := fun h => hp (h ▸ hq)
    rw [makes.told]
    simp [filter_concerns_eq_nil fun call hc => (hbefore call hc).1,
      filter_concerns_eq_nil fun call hc => (hafter call hc).1, Call.concerns, hne]
  | @announces q after _ _ hq hnone makes quiet =>
    refine ⟨by simp [hnone], ?_⟩
    have hne : q ≠ p := fun h => hp (h ▸ hq)
    rw [makes.told]
    simp [filter_concerns_eq_nil quiet, Call.concerns, hne]
  | @replaces q hq hpeer makes =>
    refine ⟨?_, ?_⟩
    · rw [hpeer]
      rintro ⟨⟩
      exact hs hq
    · rw [makes.told, releases_filter, if_neg hp, List.append_nil]

omit [Sender σ] in
theorem Notifies.of_held (n : Notifies b s c) (hp : b.peer = some p) (hs : s ≠ .hold p) :
    c.peer = some p ∧ c.told p = b.told p ∨ c.peer ≠ some p ∧ c.told p = b.told p ++ farewell p s := by
  cases n with
  | keeps _ hpeer makes quiet =>
    refine .inl ⟨hpeer.trans hp, ?_⟩
    rw [makes.told, filter_concerns_eq_nil quiet, List.append_nil]
  | @parts q before after _ hne hq hnone makes hbefore hafter =>
    obtain rfl : p = q := Option.some.inj (hp.symm.trans hq)
    refine .inr ⟨by simp [hnone], ?_⟩
    rw [makes.told, farewell, if_neg hne]
    simp [filter_concerns_eq_nil fun call hc => (hbefore call hc).1,
      filter_concerns_eq_nil fun call hc => (hafter call hc).1, Call.concerns]
  | @announces q after he _ hq hnone makes quiet =>
    obtain rfl : p = q := Option.some.inj (hp.symm.trans hq)
    refine .inr ⟨by simp [hnone], ?_⟩
    rw [makes.told, farewell, if_pos he]
    simp [filter_concerns_eq_nil quiet, Call.concerns]
  | @replaces q hq hpeer makes =>
    refine .inr ⟨?_, ?_⟩
    · rw [hpeer]
      rintro ⟨⟩
      exact hs hq
    · rw [makes.told, releases_filter, if_pos hp, farewell, if_neg (by simp [hq])]

omit [Sender σ] in
theorem drop_told (b : Bridge σ) (p : PeerId) :
    b.drop.told p = b.told p ++ if b.peer = some p then [.peerReleased p] else [] := by
  rw [drop, b.releases_makes.told, releases_filter]

def Holds (p : PeerId) (b : Bridge σ) : Prop := b.peer = some p ∧ b.told p = []

/-- The peer was let go, after it was told of the connection perhaps. -/
def LetGo (p : PeerId) (b : Bridge σ) : Prop :=
  b.peer ≠ some p ∧ (b.told p = [.peerReleased p] ∨ b.told p = [.peerConnected p, .peerReleased p])

theorem LetGo.step (h : LetGo p b) (ht : b.Tidy) (hs : s ≠ .hold p) :
    LetGo p (b.step s) ∧ (b.step s).told p = b.told p := by
  obtain ⟨hpeer, htold⟩ := (ht.notifies s).of_not_held h.1 hs
  exact ⟨⟨hpeer, htold ▸ h.2⟩, htold⟩

theorem Holds.step (h : Holds p b) (ht : b.Tidy) (hs : s ≠ .hold p) :
    Holds p (b.step s) ∨ LetGo p (b.step s) ∧ (b.step s).told p = farewell p s := by
  rcases (ht.notifies s).of_held h.1 hs with ⟨hpeer, htold⟩ | ⟨hpeer, htold⟩
  · exact .inl ⟨hpeer, htold.trans h.2⟩
  · rw [h.2, List.nil_append] at htold
    refine .inr ⟨⟨hpeer, ?_⟩, htold⟩
    rw [htold, farewell]
    split
    · exact .inr rfl
    · exact .inl rfl

omit [Sender σ] in
theorem Holds.drop (h : Holds p b) : LetGo p b.drop ∧ b.drop.told p = [.peerReleased p] := by
  have htold : b.drop.told p = [.peerReleased p] := by rw [drop_told, h.2, if_pos h.1, List.nil_append]
  refine ⟨⟨?_, .inl htold⟩, htold⟩
  rw [Bridge.drop, releasePeer_eq]
  nofun

omit [Sender σ] in
theorem LetGo.drop (h : LetGo p b) : LetGo p b.drop ∧ b.drop.told p = b.told p := by
  have htold : b.drop.told p = b.told p := by rw [drop_told, if_neg h.1, List.append_nil]
  refine ⟨⟨?_, htold ▸ h.2⟩, htold⟩
  rw [Bridge.drop, releasePeer_eq]
  nofun

/-! ## One peer along a run -/

theorem run_unknown (h : b.Tidy) (hp : b.peer ≠ some p ∧ b.told p = []) {steps : List Step}
    (hs : .hold p ∉ steps) : (b.run steps).peer ≠ some p ∧ (b.run steps).told p = [] := by
  induction steps using List.reverseRecOn with
  | nil => exact hp
  | append_singleton steps s ih =>
    simp only [List.mem_append, List.mem_singleton, not_or] at hs
    obtain ⟨hpeer, htold⟩ := ih hs.1
    obtain ⟨hpeer', htold'⟩ := ((h.run steps).notifies s).of_not_held hpeer (Ne.symm hs.2)
    rw [run_snoc]
    exact ⟨hpeer', htold'.trans htold⟩

theorem hold_holds (hp : b.peer ≠ some p ∧ b.told p = []) : Holds p (b.step (.hold p)) := by
  refine ⟨rfl, ?_⟩
  have makes : Makes b.releases b (b.step (.hold p)) := b.releases_makes
  rw [makes.told, releases_filter, if_neg hp.1, hp.2, List.append_nil]

theorem LetGo.run (h : LetGo p b) (ht : b.Tidy) {steps : List Step} (hs : .hold p ∉ steps) :
    LetGo p (b.run steps) ∧ (b.run steps).told p = b.told p := by
  induction steps using List.reverseRecOn with
  | nil => exact ⟨h, rfl⟩
  | append_singleton steps s ih =>
    simp only [List.mem_append, List.mem_singleton, not_or] at hs
    obtain ⟨letGo, htold⟩ := ih hs.1
    obtain ⟨letGo', htold'⟩ := letGo.step (ht.run steps) (Ne.symm hs.2)
    rw [run_snoc]
    exact ⟨letGo', htold'.trans htold⟩

theorem Holds.run (h : Holds p b) (ht : b.Tidy) {steps : List Step} (hs : .hold p ∉ steps) :
    Holds p (b.run steps) ∨ LetGo p (b.run steps) := by
  induction steps using List.reverseRecOn with
  | nil => exact .inl h
  | append_singleton steps s ih =>
    simp only [List.mem_append, List.mem_singleton, not_or] at hs
    have ne := Ne.symm hs.2
    rw [run_snoc]
    rcases ih hs.1 with holds | letGo
    · exact (holds.step (ht.run steps) ne).imp_right And.left
    · exact .inr (letGo.step (ht.run steps) ne).1

omit [Sender σ] in
theorem releases_paired (b : Bridge σ) : Paired b.releases := by
  unfold releases
  cases b.peer with
  | none => exact .nil
  | some p => exact .cons (by simp) .nil

omit [Sender σ] in
theorem Notifies.paired (n : Notifies b s c) : ∃ made, Makes made b c ∧ Paired made := by
  have plain : ∀ {calls : List Call}, (∀ call ∈ calls, call.IsPlain) → Paired calls := fun h =>
    .of_not_toPeer fun call hc => (h call hc).1
  cases n with
  | keeps _ _ makes quiet => exact ⟨_, makes, .of_not_toPeer quiet⟩
  | parts _ _ _ _ makes hbefore hafter =>
    exact ⟨_, makes, (plain hbefore).append (.cons (by simp) (.cons (by simp) (plain hafter)))⟩
  | announces _ _ _ _ makes quiet => exact ⟨_, makes, .announce (.of_not_toPeer quiet)⟩
  | replaces _ _ makes => exact ⟨_, makes, b.releases_paired⟩

theorem run_paired (h : b.Tidy) (hb : Paired b.trace) (steps : List Step) : Paired (b.run steps).trace := by
  induction steps using List.reverseRecOn with
  | nil => exact hb
  | append_singleton steps s ih =>
    obtain ⟨made, makes, paired⟩ := ((h.run steps).notifies s).paired
    rw [run_snoc, makes]
    exact ih.append paired

/-! ## Different peers -/

def Step.peer? : Step → Option PeerId
  | .hold p => some p
  | _ => none

def peersOf (steps : List Step) : List PeerId := steps.filterMap Step.peer?

theorem mem_peersOf {steps : List Step} : p ∈ peersOf steps ↔ .hold p ∈ steps := by
  unfold peersOf
  rw [List.mem_filterMap]
  constructor
  · rintro ⟨s, hs, hp⟩
    cases s with
    | hold q =>
      cases hp
      exact hs
    | _ => cases hp
  · exact fun hs => ⟨_, hs, rfl⟩

theorem held_once {before later : List Step} (h : (peersOf (before ++ .hold p :: later)).Nodup) :
    .hold p ∉ before ∧ .hold p ∉ later := by
  have split : peersOf (before ++ .hold p :: later) = peersOf before ++ p :: peersOf later := by
    simp [peersOf, Step.peer?]
  rw [split, List.nodup_middle, List.nodup_cons, List.mem_append, not_or] at h
  exact ⟨fun hb => h.1.1 (mem_peersOf.mpr hb), fun hl => h.1.2 (mem_peersOf.mpr hl)⟩

theorem run_held (h : b.Tidy) (hp : b.peer ≠ some p ∧ b.told p = []) {before later : List Step}
    (hbefore : .hold p ∉ before) (hlater : .hold p ∉ later) :
    Holds p (b.run (before ++ .hold p :: later)) ∨ LetGo p (b.run (before ++ .hold p :: later)) := by
  have joined : b.run (before ++ .hold p :: later) = ((b.run before).step (.hold p)).run later := by
    simp [run]
  rw [joined]
  exact (hold_holds (run_unknown h hp hbefore)).run ((h.run before).step _) hlater

omit [Sender σ] in
/-- Wherever the closing of the connection comes in a step that began with a held peer, that peer is let go right
after it, unless it was let go before. -/
theorem Notifies.closing (n : Notifies b s c) {before after : List Call}
    (makes : Makes (before ++ .closeConnection :: after) b c) (hp : b.peer = some p)
    (hheld : .peerReleased p ∉ before) : ∃ later, after = .peerReleased p :: later := by
  cases n with
  | keeps _ _ makes' _ closes =>
    cases makes.unique makes'
    cases hp.symm.trans (closes (by simp))
  | @parts q x y _ _ hq _ makes' hx hy =>
    obtain rfl : p = q := Option.some.inj (hp.symm.trans hq)
    have notin_x : .closeConnection ∉ x := fun hc => (hx _ hc).2 rfl
    have notin_y : .closeConnection ∉ Call.peerReleased p :: y := by
      rw [List.mem_cons, not_or]
      exact ⟨by simp, fun hc => (hy _ hc).2 rfl⟩
    obtain ⟨-, -, rfl⟩ := (List.append_cons_inj_of_notMem notin_x notin_y).mp (makes'.unique makes)
    exact ⟨y, rfl⟩
  | @announces q y _ _ hq _ makes' _ =>
    obtain rfl : p = q := Option.some.inj (hp.symm.trans hq)
    have same := makes.unique makes'
    match before with
    | [] => simp at same
    | [call] => simp at same
    | first :: second :: before =>
      simp only [List.cons_append, List.cons.injEq] at same
      exact absurd (by simp [same.2.1]) hheld
  | replaces _ _ makes' =>
    have same := makes.unique makes'
    have closes : Call.closeConnection ∈ b.releases := same ▸ by simp
    cases b.releases_toPeer _ closes

omit [Sender σ] in
theorem Notifies.connecting (n : Notifies b s c) (makes : Makes made b c) (hc : .peerConnected p ∈ made) :
    s = .event (.connection .connected) ∧ b.attached = true ∧ b.peer = some p := by
  cases n with
  | keeps _ _ makes' quiet =>
    cases makes.unique makes'
    cases quiet _ hc
  | parts _ _ _ _ makes' hbefore hafter =>
    cases makes.unique makes'
    simp only [List.mem_append, List.mem_cons, reduceCtorEq, false_or] at hc
    rcases hc with hc | hc
    · cases (hbefore _ hc).1
    · cases (hafter _ hc).1
  | @announces q _ he ha hq _ makes' quiet =>
    cases makes.unique makes'
    simp only [List.mem_cons, Call.peerConnected.injEq, reduceCtorEq, false_or] at hc
    rcases hc with rfl | hc
    · exact ⟨he, ha, hq⟩
    · cases quiet _ hc
  | replaces _ _ makes' =>
    cases makes.unique makes'
    simp [releases] at hc

omit [Sender σ] in
theorem not_mem_of_untold (h : b.told p = []) {call : Call} (hc : call.concerns p = true) : call ∉ b.trace := by
  intro hmem
  have said : call ∈ b.told p := List.mem_filter.mpr ⟨hmem, hc⟩
  rw [h] at said
  cases said

omit [Sender σ] in
theorem LetGo.counts (h : LetGo p b) : b.trace.count (.peerConnected p) ≤ 1 ∧ b.trace.count (.peerReleased p) = 1 := by
  have connected : (b.told p).count (.peerConnected p) = b.trace.count (.peerConnected p) :=
    List.count_filter (by simp [Call.concerns])
  have released : (b.told p).count (.peerReleased p) = b.trace.count (.peerReleased p) :=
    List.count_filter (by simp [Call.concerns])
  rw [← connected, ← released]
  rcases h.2 with h | h <;> rw [h] <;> simp

omit [Sender σ] in
theorem LetGo.silent (h : LetGo p b) {before after : List Call} (hsplit : b.trace = before ++ .peerReleased p :: after) :
    ∀ call ∈ after, call.concerns p = false := by
  have split : b.told p = before.filter (Call.concerns p) ++ .peerReleased p :: after.filter (Call.concerns p) := by
    simp [told, hsplit, Call.concerns]
  suffices nothing : after.filter (Call.concerns p) = [] by
    simpa using nothing
  rcases h.2 with h | h
  · rw [h] at split
    match hb : before.filter (Call.concerns p) with
    | [] => simpa [hb] using split.symm
    | call :: rest => simp [hb] at split
  · rw [h] at split
    match hb : before.filter (Call.concerns p) with
    | [] => simp [hb] at split
    | [call] =>
      rw [hb] at split
      simpa using (List.cons.inj (List.cons.inj split).2).2.symm
    | first :: second :: rest => simp [hb] at split

end Bridge

end Splice
