import Splice.Config.Reader
import Splice.Proofs.Json.Strings
import Mathlib.Data.List.Nodup
import Mathlib.Data.List.Perm.Basic

/-!
# Written configurations

However an object of settings is laid out, reading it does what the settings do one by one, and so does a list of the
first values. An object with a key that is unknown or comes twice, or with a value that is too large, is not read at
all. A configuration that is read is one to run with.
-/

namespace Splice.Config

open Splice.Json

/-! ## Layouts -/

structure Member where
  beforeKey : List Blank := []
  key : List StringLit.Spelled
  beforeColon : List Blank := []
  beforeValue : List Blank := []
  value : Nat
  afterValue : List Blank := []

namespace Member

def name (m : Member) : String := StringLit.Spelled.content m.key

def text (m : Member) : String :=
  Blank.text m.beforeKey ++ "\"" ++ StringLit.Spelled.text m.key ++ "\"" ++ Blank.text m.beforeColon ++ ":" ++
    Blank.text m.beforeValue ++ toString m.value ++ Blank.text m.afterValue

end Member

def membersText (first : Bool) : List Member → String
  | [] => ""
  | m :: members => (if first then "" else ",") ++ m.text ++ membersText false members

structure ObjectText where
  before : List Blank := []
  opened : List Blank := []
  members : List Member
  after : List Blank := []

def ObjectText.text (o : ObjectText) : String :=
  Blank.text o.before ++ "\x7b" ++ Blank.text o.opened ++ membersText true o.members ++ "\x7d" ++ Blank.text o.after

structure Item where
  before : List Blank := []
  value : Nat
  after : List Blank := []

def Item.text (i : Item) : String := Blank.text i.before ++ toString i.value ++ Blank.text i.after

def itemsText (first : Bool) : List Item → String
  | [] => ""
  | i :: items => (if first then "" else ",") ++ i.text ++ itemsText false items

structure ListText where
  before : List Blank := []
  opened : List Blank := []
  items : List Item
  after : List Blank := []

def ListText.text (l : ListText) : String :=
  Blank.text l.before ++ "[" ++ Blank.text l.opened ++ itemsText true l.items ++ "]" ++ Blank.text l.after

def Field.key (f : Field) : List StringLit.Spelled := StringLit.Spelled.verbatim f.name (by cases f <;> decide)

@[simp] theorem Field.content_key (f : Field) : StringLit.Spelled.content f.key = f.name :=
  StringLit.Spelled.content_verbatim _

/-! ## Bytes of layouts -/

def separator (first : Bool) : List UInt8 := if first then [] else [0x2c]

variable (first : Bool) (blanks : List Blank) (s : List UInt8)

theorem bytes_separator : bytes (if first then "" else ",") = separator first := by
  cases first <;> rfl

theorem bytes_members (m : Member) (members : List Member) :
    bytes (membersText first (m :: members)) ++ s =
      separator first ++ (bytes (Blank.text m.beforeKey) ++ 0x22 :: (bytes (StringLit.Spelled.text m.key) ++
        0x22 :: (bytes (Blank.text m.beforeColon) ++ 0x3a :: (bytes (Blank.text m.beforeValue) ++
          (bytes (toString m.value) ++ (bytes (Blank.text m.afterValue) ++
            (bytes (membersText false members) ++ s))))))) := by
  have quote : bytes "\"" = [0x22] := rfl
  have colon : bytes ":" = [0x3a] := rfl
  simp only [membersText, Member.text, bytes_append, bytes_separator, quote, colon, List.append_assoc,
    List.cons_append, List.nil_append]

theorem bytes_items (i : Item) (items : List Item) :
    bytes (itemsText first (i :: items)) ++ s =
      separator first ++ (bytes (Blank.text i.before) ++ (bytes (toString i.value) ++
        (bytes (Blank.text i.after) ++ (bytes (itemsText false items) ++ s)))) := by
  simp only [itemsText, Item.text, bytes_append, bytes_separator, List.append_assoc]

/-! ## Tokens of objects -/

theorem nextKey_key (beforeKey : List Blank) :
    nextKey first (bytes (Blank.text blanks) ++ (separator first ++ (bytes (Blank.text beforeKey) ++ 0x22 :: s))) =
      .ok (some s) := by
  have quote : skipBlanks (bytes (Blank.text beforeKey) ++ 0x22 :: s) = 0x22 :: s :=
    skipBlanks_token (by decide) beforeKey s
  cases first with
  | true =>
    rw [separator, if_pos rfl, List.nil_append, nextKey, skipBlanks_text, quote]
    rfl
  | false =>
    rw [separator, if_neg Bool.false_ne_true, List.singleton_append, nextKey, skipBlanks_token (by decide)]
    dsimp only
    rw [if_neg (by decide), if_neg Bool.false_ne_true, if_pos rfl, quote]
    rfl

theorem nextKey_close : nextKey first (bytes (Blank.text blanks) ++ 0x7d :: s) = .ok none := by
  rw [nextKey, skipBlanks_token (by decide)]
  rfl

theorem readColon_colon : readColon (bytes (Blank.text blanks) ++ 0x3a :: s) = .ok s := by
  rw [readColon, skipBlanks_token (by decide)]
  rfl

theorem delimits_of_blanks {b : UInt8} (hb : Number.digit? b = none ∧ b ≠ 0x2e ∧ b ≠ 0x65 ∧ b ≠ 0x45) :
    Number.Delimits (bytes (Blank.text blanks) ++ b :: s) := by
  cases blanks with
  | nil =>
    intro c hc
    obtain rfl : b = c := Option.mem_some_iff.mp hc
    exact hb
  | cons blank blanks =>
    obtain ⟨c, hc, hbytes⟩ := Blank.bytes_text_cons blank blanks
    rw [hbytes]
    intro c' hc'
    obtain rfl : c = c' := by simpa using hc'
    simp only [isBlank, Bool.or_eq_true, decide_eq_true_eq] at hc
    rcases hc with ((rfl | rfl) | rfl) | rfl
    all_goals decide

theorem delimits_members (members : List Member) :
    Number.Delimits (bytes (Blank.text blanks) ++ (bytes (membersText false members) ++ 0x7d :: s)) := by
  cases members with
  | nil => exact delimits_of_blanks blanks s (by decide)
  | cons m members =>
    rw [bytes_members]
    exact delimits_of_blanks blanks _ (by decide)

/-! ## Objects -/

variable {left : List Field} {c : Config} {members : List Member}

def afterValue (left : List Field) (c : Config) (f : Field) :
    Except Stop (Nat × List UInt8) → Except Stop (Config × List UInt8)
  | .error stop => .error stop
  | .ok (n, s) => readMembers false (left.erase f) (c.set f n) s

theorem readMembers_known {m : Member} {f : Field} (hf : Field.ofName? m.name = some f) (hleft : f ∈ left) :
    readMembers first left c (bytes (Blank.text blanks) ++ (bytes (membersText first (m :: members)) ++ s)) =
      afterValue left c f (readSize (bytes (Blank.text m.beforeValue) ++ (bytes (toString m.value) ++
        (bytes (Blank.text m.afterValue) ++ (bytes (membersText false members) ++ s))))) := by
  rw [readMembers, bytes_members, nextKey_key]
  dsimp only
  rw [StringLit.read_text]
  dsimp only
  rw [show StringLit.Spelled.content m.key = m.name from rfl, hf]
  dsimp only
  rw [dif_pos hleft, readColon_colon]
  rfl

theorem readMembers_unknown {m : Member} (members : List Member)
    (hf : ∀ f, Field.ofName? m.name = some f → f ∉ left) :
    ∃ stop, readMembers first left c (bytes (Blank.text blanks) ++ (bytes (membersText first (m :: members)) ++ s)) =
      .error stop := by
  rw [readMembers, bytes_members, nextKey_key]
  dsimp only
  rw [StringLit.read_text]
  dsimp only
  rw [show StringLit.Spelled.content m.key = m.name from rfl]
  cases h : Field.ofName? m.name with
  | none => exact ⟨_, rfl⟩
  | some f =>
    dsimp only
    rw [dif_neg (hf f h)]
    exact ⟨_, rfl⟩

theorem readMembers_close :
    readMembers first left c (bytes (Blank.text blanks) ++ 0x7d :: s) =
      .ok (c, bytes (Blank.text blanks) ++ 0x7d :: s) := by
  rw [readMembers, nextKey_close]

def Member.given (m : Member) : String × Nat := (m.name, m.value)

theorem readMembers_ok {settings : List (Field × Nat)}
    (hgiven : members.map Member.given = settings.map fun s => (s.1.name, s.2))
    (hnodup : (settings.map Prod.fst).Nodup) (hleft : ∀ s ∈ settings, s.1 ∈ left)
    (hsmall : ∀ s ∈ settings, s.2 < Number.wordBound) :
    ∃ blanks', readMembers first left c
        (bytes (Blank.text blanks) ++ (bytes (membersText first members) ++ 0x7d :: s)) =
      .ok (c.setAll settings, bytes (Blank.text blanks') ++ 0x7d :: s) := by
  -- Any blanks may stand in front: those after a value are in front of what follows it.
  induction members generalizing first blanks left c settings with
  | nil =>
    obtain rfl : settings = [] := by simpa using hgiven.symm
    exact ⟨blanks, readMembers_close first blanks s⟩
  | cons m members ih =>
    obtain _ | ⟨⟨f, n⟩, settings⟩ := settings
    · cases hgiven
    obtain ⟨hm, hgiven⟩ := List.cons.inj hgiven
    obtain ⟨hname, hvalue⟩ := Prod.mk.inj hm
    obtain ⟨hnew, hnodup⟩ := List.nodup_cons.mp hnodup
    obtain ⟨hf, hleft⟩ := List.forall_mem_cons.mp hleft
    obtain ⟨hn, hsmall⟩ := List.forall_mem_cons.mp hsmall
    rw [readMembers_known first blanks _ (by rw [hname, Field.ofName?_name]) hf, hvalue,
      readSize_of_lt hn (delimits_members m.afterValue s members)]
    refine ih false m.afterValue hgiven hnodup (fun s hs => ?_) hsmall
    refine (List.mem_erase_of_ne ?_).mpr (hleft s hs)
    exact fun h => hnew (List.mem_map.mpr ⟨s, hs, h⟩)

theorem name_of_ofName? {f : Field} {name : String} (h : Field.ofName? name = some f) : f.name = name := by
  simpa using List.find?_some h

theorem name_injective {f g : Field} (h : f.name = g.name) : f = g := by
  have same := Field.ofName?_name f
  rw [h, Field.ofName?_name] at same
  exact (Option.some.inj same).symm

/-- What is read of an object is known, distinct and small. -/
theorem readMembers_sound (hleft : left.Nodup) {r : Config × List UInt8}
    (hread : readMembers first left c
      (bytes (Blank.text blanks) ++ (bytes (membersText first members) ++ 0x7d :: s)) = .ok r) :
    (∀ m ∈ members, (∃ f ∈ left, f.name = m.name) ∧ m.value < Number.wordBound) ∧
      (members.map Member.name).Nodup := by
  induction members generalizing first blanks left c with
  | nil => simp
  | cons m members ih =>
    obtain ⟨f, hf, hmem⟩ : ∃ f, Field.ofName? m.name = some f ∧ f ∈ left := by
      by_contra! hnone
      obtain ⟨stop, hstop⟩ := readMembers_unknown (c := c) first blanks (0x7d :: s) members hnone
      cases hstop.symm.trans hread
    rw [readMembers_known first blanks _ hf hmem] at hread
    by_cases hvalue : m.value < Number.wordBound
    · rw [readSize_of_lt hvalue (delimits_members m.afterValue s members)] at hread
      obtain ⟨hknown, hnodup⟩ := ih false m.afterValue (hleft.erase f) hread
      refine ⟨List.forall_mem_cons.mpr ⟨⟨⟨f, hmem, name_of_ofName? hf⟩, hvalue⟩, fun m' hm' => ?_⟩,
        List.nodup_cons.mpr ⟨?_, hnodup⟩⟩
      · obtain ⟨⟨g, hg, hname⟩, hsmall⟩ := hknown m' hm'
        exact ⟨⟨g, List.mem_of_mem_erase hg, hname⟩, hsmall⟩
      · -- The field is no longer among those left, but what comes later is.
        intro hagain
        obtain ⟨m', hm', hsame⟩ := List.mem_map.mp hagain
        obtain ⟨⟨g, hg, hname⟩, -⟩ := hknown m' hm'
        have same : g = f := name_injective (hname.trans (hsame.trans (name_of_ofName? hf).symm))
        exact ((List.Nodup.mem_erase_iff hleft).mp hg).1 same
    · obtain ⟨stop, hstop⟩ := readSize_of_ge (Nat.le_of_not_lt hvalue) m.beforeValue
        (bytes (Blank.text m.afterValue) ++ (bytes (membersText false members) ++ 0x7d :: s))
      rw [hstop] at hread
      cases hread

/-! ## Lists -/

theorem digitByte_ne_bracket {d : Nat} (hd : d < 10) : Number.digitByte d ≠ 0x5d := by
  revert d
  decide

theorem nextItem_item (before : List Blank) (n : Nat) :
    nextItem first (bytes (Blank.text blanks) ++ (separator first ++ (bytes (Blank.text before) ++
      (bytes (toString n) ++ s)))) = .ok (some (bytes (toString n) ++ s)) := by
  obtain ⟨d, later, hbytes, hd⟩ := Number.toString_cons n
  have item : skipBlanks (bytes (Blank.text before) ++ (bytes (toString n) ++ s)) = bytes (toString n) ++ s := by
    rw [hbytes]
    exact skipBlanks_token (isBlank_digitByte hd) before _
  cases first with
  | true =>
    rw [separator, if_pos rfl, List.nil_append, nextItem, skipBlanks_text, item, hbytes]
    dsimp only [List.cons_append]
    rw [if_neg (digitByte_ne_bracket hd)]
    rfl
  | false =>
    rw [separator, if_neg Bool.false_ne_true, List.singleton_append, nextItem, skipBlanks_token (by decide)]
    dsimp only
    rw [if_neg (by decide), if_neg Bool.false_ne_true, if_pos rfl, item, hbytes]
    dsimp only [List.cons_append]
    rw [if_neg (digitByte_ne_bracket hd)]

theorem nextItem_close : nextItem first (bytes (Blank.text blanks) ++ 0x5d :: s) = .ok none := by
  rw [nextItem, skipBlanks_token (by decide)]
  rfl

theorem delimits_items (items : List Item) :
    Number.Delimits (bytes (Blank.text blanks) ++ (bytes (itemsText false items) ++ 0x5d :: s)) := by
  cases items with
  | nil => exact delimits_of_blanks blanks s (by decide)
  | cons i items =>
    rw [bytes_items]
    exact delimits_of_blanks blanks _ (by decide)

theorem readItems_ok {fields : List Field} {items : List Item} (hlength : items.length ≤ fields.length)
    (hsmall : ∀ i ∈ items, i.value < Number.wordBound) :
    ∃ blanks', readItems first fields c
        (bytes (Blank.text blanks) ++ (bytes (itemsText first items) ++ 0x5d :: s)) =
      .ok (c.setAll (fields.zip (items.map Item.value)), bytes (Blank.text blanks') ++ 0x5d :: s) := by
  induction items generalizing first blanks fields c with
  | nil =>
    refine ⟨blanks, ?_⟩
    cases fields with
    | nil => rfl
    | cons f fields =>
      rw [readItems, itemsText, show bytes "" = [] from rfl, List.nil_append, nextItem_close]
      rfl
  | cons i items ih =>
    obtain _ | ⟨f, fields⟩ := fields
    · simp at hlength
    obtain ⟨hi, hsmall⟩ := List.forall_mem_cons.mp hsmall
    have size := readSize_of_lt hi (delimits_items i.after s items) []
    rw [show bytes (Blank.text []) = [] from rfl, List.nil_append] at size
    rw [readItems, bytes_items, nextItem_item]
    dsimp only
    rw [size]
    exact ih false i.after (by simpa using hlength) hsmall

theorem closeList_close : closeList (bytes (Blank.text blanks) ++ 0x5d :: s) = .ok s := by
  rw [closeList, skipBlanks_token (by decide)]
  rfl

theorem closeObject_close : closeObject (bytes (Blank.text blanks) ++ 0x7d :: s) = .ok s := by
  rw [closeObject, skipBlanks_token (by decide)]
  rfl

/-! ## Whole texts -/

theorem bytes_object (o : ObjectText) :
    bytes o.text = bytes (Blank.text o.before) ++ 0x7b :: (bytes (Blank.text o.opened) ++
      (bytes (membersText true o.members) ++ 0x7d :: bytes (Blank.text o.after))) := by
  have opens : bytes "\x7b" = [0x7b] := rfl
  have closes : bytes "\x7d" = [0x7d] := rfl
  simp only [ObjectText.text, bytes_append, opens, closes, List.append_assoc, List.cons_append, List.nil_append]

theorem bytes_list (l : ListText) :
    bytes l.text = bytes (Blank.text l.before) ++ 0x5b :: (bytes (Blank.text l.opened) ++
      (bytes (itemsText true l.items) ++ 0x5d :: bytes (Blank.text l.after))) := by
  have opens : bytes "[" = [0x5b] := rfl
  have closes : bytes "]" = [0x5d] := rfl
  simp only [ListText.text, bytes_append, opens, closes, List.append_assoc, List.cons_append, List.nil_append]

theorem skipBlanks_last : skipBlanks (bytes (Blank.text blanks)) = [] := by
  have nothing := skipBlanks_text blanks []
  rwa [List.append_nil] at nothing

theorem readText_of_value {text : List UInt8} (h : readValue text = .ok (c, bytes (Blank.text blanks))) :
    readText text = .ok c := by
  rw [readText, h]
  dsimp only [bind, Except.bind]
  rw [skipBlanks_last]
  rfl

theorem mem_all (f : Field) : f ∈ Field.all := by
  cases f <;> decide

theorem readValue_object (o : ObjectText) :
    readValue (bytes o.text) =
      match readMembers true Field.all {} (bytes (Blank.text o.opened) ++
        (bytes (membersText true o.members) ++ 0x7d :: bytes (Blank.text o.after))) with
      | .error stop => .error stop
      | .ok (c, s) => (closeObject s).map (c, ·) := by
  rw [readValue, bytes_object, skipBlanks_token (by decide)]
  dsimp only
  rw [if_neg (by decide), if_pos rfl]
  generalize readMembers true Field.all _ _ = members
  rcases members with stop | ⟨c, s⟩
  · rfl
  · dsimp only [bind, Except.bind]
    cases closeObject s <;> rfl

theorem readValue_list (l : ListText) :
    readValue (bytes l.text) =
      match readItems true Field.all {} (bytes (Blank.text l.opened) ++
        (bytes (itemsText true l.items) ++ 0x5d :: bytes (Blank.text l.after))) with
      | .error stop => .error stop
      | .ok (c, s) => (closeList s).map (c, ·) := by
  rw [readValue, bytes_list, skipBlanks_token (by decide)]
  dsimp only
  rw [if_pos rfl]
  generalize readItems true Field.all _ _ = items
  rcases items with stop | ⟨c, s⟩
  · rfl
  · dsimp only [bind, Except.bind]
    cases closeList s <;> rfl

theorem readText_object {o : ObjectText} {settings : List (Field × Nat)}
    (hgiven : o.members.map Member.given = settings.map fun s => (s.1.name, s.2))
    (hnodup : (settings.map Prod.fst).Nodup) (hsmall : ∀ s ∈ settings, s.2 < Number.wordBound) :
    readText (bytes o.text) = .ok (({} : Config).setAll settings) := by
  obtain ⟨blanks, hread⟩ := readMembers_ok (c := {}) true o.opened (bytes (Blank.text o.after))
    hgiven hnodup (fun s _ => mem_all s.1) hsmall
  apply readText_of_value o.after
  rw [readValue_object, hread]
  dsimp only
  rw [closeObject_close]
  rfl

theorem readText_list {l : ListText} (hlength : l.items.length ≤ Field.all.length)
    (hsmall : ∀ i ∈ l.items, i.value < Number.wordBound) :
    readText (bytes l.text) = .ok (({} : Config).setAll (Field.all.zip (l.items.map Item.value))) := by
  obtain ⟨blanks, hread⟩ := readItems_ok (c := {}) true l.opened (bytes (Blank.text l.after)) hlength hsmall
  apply readText_of_value l.after
  rw [readValue_list, hread]
  dsimp only
  rw [closeList_close]
  rfl

theorem object_of_readText {o : ObjectText} (hread : readText (bytes o.text) = .ok c) :
    (∀ m ∈ o.members, (∃ f : Field, f.name = m.name) ∧ m.value < Number.wordBound) ∧
      (o.members.map Member.name).Nodup := by
  rw [readText, readValue_object] at hread
  cases hmembers : readMembers true Field.all {} (bytes (Blank.text o.opened) ++
      (bytes (membersText true o.members) ++ 0x7d :: bytes (Blank.text o.after))) with
  | error stop =>
    rw [hmembers] at hread
    cases hread
  | ok r =>
    obtain ⟨hknown, hnodup⟩ := readMembers_sound _ _ _ (by decide) hmembers
    refine ⟨fun m hm => ?_, hnodup⟩
    obtain ⟨⟨f, -, hname⟩, hsmall⟩ := hknown m hm
    exact ⟨⟨f, hname⟩, hsmall⟩

/-! ## Settings -/

theorem set_comm (c : Config) {f g : Field} (h : f ≠ g) (m n : Nat) : (c.set f m).set g n = (c.set g n).set f m := by
  cases f <;> cases g <;> first | rfl | exact absurd rfl h

theorem setAll_perm {settings settings' : List (Field × Nat)} (h : settings.Perm settings')
    (hnodup : (settings.map Prod.fst).Nodup) (c : Config) : c.setAll settings = c.setAll settings' := by
  refine h.foldl_eq' (fun s hs t ht c => ?_) c
  by_cases hfield : s.1 = t.1
  · rw [List.inj_on_of_nodup_map hnodup hs ht hfield]
  · exact set_comm c hfield s.2 t.2

def validated (c : Config) : Except Error Config :=
  match c.fault? with
  | none => .ok c
  | some fault => .error (.config fault.text)

theorem ofJson_of_readText {text : String} (h : readText (bytes text) = .ok c) : ofJson text = validated c := by
  rw [ofJson, h]
  rfl

theorem ofJson_valid {text : String} (h : ofJson text = .ok c) : c.Valid := by
  unfold ofJson at h
  split at h
  · cases h
  split at h
  · next hnone =>
    cases h
    exact (fault?_eq_none_iff _).mp hnone
  · cases h

theorem ofJson_object {o : ObjectText} {settings : List (Field × Nat)}
    (hgiven : (o.members.map Member.given).Perm (settings.map fun s => (s.1.name, s.2)))
    (hnodup : (settings.map Prod.fst).Nodup) (hsmall : ∀ s ∈ settings, s.2 < Number.wordBound) :
    ofJson o.text = validated (({} : Config).setAll settings) := by
  obtain ⟨written, hwritten, hperm⟩ := (congrFun (congrFun (List.eq_map_comp_perm _) _) _).mpr hgiven
  have distinct : (written.map Prod.fst).Nodup := (hperm.map Prod.fst).nodup_iff.mpr hnodup
  rw [← setAll_perm hperm distinct]
  exact ofJson_of_readText (readText_object hwritten distinct fun s hs => hsmall s (hperm.subset hs))

theorem ofJson_refused {o : ObjectText}
    (h : ¬(o.members.map Member.name).Nodup ∨
      ∃ m ∈ o.members, (∀ f : Field, f.name ≠ m.name) ∨ Number.wordBound ≤ m.value) :
    ∃ fault, ofJson o.text = .error (.json fault) := by
  cases hread : readText (bytes o.text) with
  | error stop =>
    rw [ofJson, hread]
    exact ⟨_, rfl⟩
  | ok c =>
    obtain ⟨hknown, hnodup⟩ := object_of_readText hread
    rcases h with hagain | ⟨m, hm, hunknown | hlarge⟩
    · exact absurd hnodup hagain
    · obtain ⟨⟨f, hname⟩, -⟩ := hknown m hm
      exact absurd hname (hunknown f)
    · exact absurd (hknown m hm).2 (Nat.not_lt.mpr hlarge)

/-- However an object of some of the settings is laid out, it comes to the same as the settings one by one, and so
does a list of the first values. With a key that is unknown or repeated, or a value beyond a machine word, an object
is refused as a text. A configuration that is read can be run with. -/
theorem ofJson_agrees :
    (∀ (o : ObjectText) (settings : List (Field × Nat)),
      (o.members.map Member.given).Perm (settings.map fun s => (s.1.name, s.2)) → (settings.map Prod.fst).Nodup →
      (∀ s ∈ settings, s.2 < 2 ^ 64) → ofJson o.text = validated (({} : Config).setAll settings)) ∧
    (∀ l : ListText, l.items.length ≤ 3 → (∀ i ∈ l.items, i.value < 2 ^ 64) →
      ofJson l.text = validated (({} : Config).setAll (Field.all.zip (l.items.map Item.value)))) ∧
    (∀ o : ObjectText, ¬(o.members.map Member.name).Nodup ∨
        (∃ m ∈ o.members, (∀ f : Field, f.name ≠ m.name) ∨ 2 ^ 64 ≤ m.value) →
      ∃ fault, ofJson o.text = .error (.json fault)) ∧
    ∀ text c, ofJson text = .ok c → 1 ≤ c.maxChunk ∧ c.maxChunk ≤ c.readHighWatermark ∧ 1 ≤ c.readCapacity :=
  ⟨fun _ _ hgiven hnodup hsmall => ofJson_object hgiven hnodup hsmall,
    fun _ hlength hsmall => ofJson_of_readText (readText_list hlength hsmall),
    fun _ h => ofJson_refused h, fun _ _ h => ofJson_valid h⟩

/-- Two settings out of order, a list of one value, and a key that is unknown. -/
theorem ofJson_agrees_three :
    let o : ObjectText :=
      { opened := [.newline]
        members := [{ key := Field.key .readCapacity, beforeValue := [.space], value := 7 },
          { beforeKey := [.tab], key := Field.key .maxChunk, value := 3 }] }
    let l : ListText := { items := [{ value := 3 }] }
    let unknown : ObjectText := { members := [{ key := [.plain 'x' (by decide)], value := 3 }] }
    ofJson o.text = .ok { maxChunk := 3, readCapacity := 7 } ∧ ofJson l.text = .ok { maxChunk := 3 } ∧
      ∃ fault, ofJson unknown.text = .error (.json fault) := by
  intro o l unknown
  have given : o.members.map Member.given = [(Field.readCapacity.name, 7), (Field.maxChunk.name, 3)] := by
    simp [o, Member.given, Member.name]
  refine ⟨?_, ?_, ?_⟩
  · refine ofJson_agrees.1 o [(.maxChunk, 3), (.readCapacity, 7)] ?_ (by decide) (by decide)
    rw [given]
    exact .swap ..
  · exact ofJson_agrees.2.1 l (by decide) (by simp [l])
  · refine ofJson_agrees.2.2.1 unknown (.inr ⟨_, List.mem_singleton_self _, .inl ?_⟩)
    intro f
    cases f <;> decide

end Splice.Config
