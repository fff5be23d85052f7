import Splice.Json.Value
import Mathlib.Data.Nat.Digits.Defs

/-!
# Reading blanks and numbers

Blanks before a token make no difference. A number in decimal digits is read back if it fits a machine word, and
otherwise it is not read as a natural number at all.
-/

namespace Splice.Json

variable {s rest : List UInt8} {n : Nat}

/-! ## Texts -/

theorem bytes_append (a b : String) : bytes (a ++ b) = bytes a ++ bytes b := by
  simp [bytes]

theorem bytes_ofList (cs : List Char) : bytes (String.ofList cs) = cs.flatMap String.utf8EncodeChar := by
  simp [bytes, List.utf8Encode]

/-! ## Blanks -/

inductive Blank
  | space
  | newline
  | tab
  | carriageReturn
  deriving DecidableEq

namespace Blank

def char : Blank → Char
  | space => ' '
  | newline => '\n'
  | tab => '\t'
  | carriageReturn => '\r'

def text (blanks : List Blank) : String := String.ofList (blanks.map char)

theorem bytes_text_cons (blank : Blank) (blanks : List Blank) :
    ∃ b, isBlank b = true ∧ bytes (text (blank :: blanks)) = b :: bytes (text blanks) := by
  refine ⟨blank.char.toNat.toUInt8, ?_, ?_⟩
  · cases blank <;> rfl
  · rw [text, text, bytes_ofList, bytes_ofList]
    cases blank <;> rfl

end Blank

theorem skipBlanks_text (blanks : List Blank) (s : List UInt8) :
    skipBlanks (bytes (Blank.text blanks) ++ s) = skipBlanks s := by
  induction blanks with
  | nil => rfl
  | cons blank blanks ih =>
    obtain ⟨b, hb, hbytes⟩ := Blank.bytes_text_cons blank blanks
    rw [hbytes, List.cons_append, skipBlanks, List.dropWhile_cons_of_pos hb]
    exact ih

theorem skipBlanks_token {b : UInt8} (hb : isBlank b = false) (blanks : List Blank) (s : List UInt8) :
    skipBlanks (bytes (Blank.text blanks) ++ b :: s) = b :: s := by
  rw [skipBlanks_text, skipBlanks, List.dropWhile_cons_of_neg (by simp [hb])]

/-! ## Digits -/

namespace Number

def digitByte (d : Nat) : UInt8 := UInt8.ofNat (0x30 + d)

/-- A number with more digits written after it. -/
def extend (value : Nat) (digits : List Nat) : Nat := digits.foldl (fun n d => n * 10 + d) value

theorem le_extend (value : Nat) (digits : List Nat) : value ≤ extend value digits := by
  induction digits generalizing value with
  | nil => exact Nat.le_refl _
  | cons d digits ih =>
    have := ih (value * 10 + d)
    rw [extend, List.foldl_cons]
    exact Nat.le_trans (by omega) this

theorem digit?_digitByte {d : Nat} (hd : d < 10) : digit? (digitByte d) = some d := by
  revert d
  decide

structure Decimal (n : Nat) (digits : List Nat) : Prop where
  lt_ten : ∀ d ∈ digits, d < 10
  extend_eq : extend 0 digits = n
  /-- No zero stands in front. -/
  canonical : digits = [0] ∨ ∃ d later, digits = d :: later ∧ d ≠ 0

theorem Decimal.append {digits : List Nat} (h : Decimal n digits) (hn : n ≠ 0) {d : Nat} (hd : d < 10) :
    Decimal (n * 10 + d) (digits ++ [d]) := by
  refine ⟨?_, ?_, .inr ?_⟩
  · rw [List.forall_mem_append]
    exact ⟨h.lt_ten, by simpa using hd⟩
  · have := h.extend_eq
    rw [extend] at this
    rw [extend, List.foldl_append, this]
    rfl
  · rcases h.canonical with rfl | ⟨first, later, rfl, hfirst⟩
    · exact absurd h.extend_eq.symm hn
    · exact ⟨first, later ++ [d], rfl, hfirst⟩

theorem Decimal.extend_first {d : Nat} {later : List Nat} (h : Decimal n (d :: later)) : extend d later = n := by
  have := h.extend_eq
  rwa [extend, List.foldl_cons, Nat.zero_mul, Nat.zero_add] at this

theorem exists_toDigits (n : Nat) : ∃ digits, Nat.toDigits 10 n = digits.map Nat.digitChar ∧ Decimal n digits := by
  induction n using Nat.strong_induction_on with
  | _ n ih =>
    by_cases hn : n < 10
    · refine ⟨[n], Nat.toDigits_of_lt_base hn, by simpa using hn, Nat.zero_add n, ?_⟩
      by_cases h : n = 0
      · exact .inl (by rw [h])
      · exact .inr ⟨n, [], rfl, h⟩
    · obtain ⟨digits, hdigits, decimal⟩ := ih (n / 10) (by omega)
      refine ⟨digits ++ [n % 10], ?_, ?_⟩
      · rw [Nat.toDigits_of_base_le (by omega) (by omega), hdigits, List.map_append]
        rfl
      · have longer := decimal.append (by omega) (Nat.mod_lt n (by omega : 0 < 10))
        rwa [show n / 10 * 10 + n % 10 = n by omega] at longer

theorem encode_digitChar {d : Nat} (hd : d < 10) : String.utf8EncodeChar d.digitChar = [digitByte d] := by
  revert d
  decide

theorem exists_decimal (n : Nat) : ∃ digits, bytes (toString n) = digits.map digitByte ∧ Decimal n digits := by
  obtain ⟨digits, hdigits, decimal⟩ := exists_toDigits n
  refine ⟨digits, ?_, decimal⟩
  have ascii : ∀ ds : List Nat, (∀ d ∈ ds, d < 10) →
      (ds.map Nat.digitChar).flatMap String.utf8EncodeChar = ds.map digitByte := by
    intro ds hds
    induction ds with
    | nil => rfl
    | cons d ds ih =>
      obtain ⟨hd, hds⟩ := List.forall_mem_cons.mp hds
      rw [List.map_cons, List.flatMap_cons, encode_digitChar hd, ih hds]
      rfl
  rw [← ascii digits decimal.lt_ten, ← hdigits, ← bytes_ofList]
  rfl

theorem toString_cons (n : Nat) : ∃ d later, bytes (toString n) = digitByte d :: later ∧ d < 10 := by
  obtain ⟨digits, hbytes, decimal⟩ := exists_decimal n
  obtain ⟨d, later, rfl⟩ : ∃ d later, digits = d :: later := by
    rcases decimal.canonical with h | ⟨d, later, h, -⟩
    · exact ⟨0, [], h⟩
    · exact ⟨d, later, h⟩
  exact ⟨d, later.map digitByte, hbytes, decimal.lt_ten d (List.mem_cons_self ..)⟩

/-! ## Natural numbers -/

/-- What may stand after a natural number. -/
def Delimits (s : List UInt8) : Prop := ∀ b ∈ s.head?, digit? b = none ∧ b ≠ 0x2e ∧ b ≠ 0x65 ∧ b ≠ 0x45

theorem Delimits.startsWithDigit (h : Delimits s) : startsWithDigit s = false := by
  cases s with
  | nil => rfl
  | cons b s => simp [Number.startsWithDigit, (h b rfl).1]

theorem readAfterInteger_of_delimits (h : Delimits s) (n : Nat) :
    readAfterInteger false n s = .ok (.natural n, s) := by
  unfold readAfterInteger
  split
  · exact absurd rfl (h _ rfl).2.1
  · exact absurd rfl (h _ rfl).2.2.1
  · exact absurd rfl (h _ rfl).2.2.2
  · rfl

variable {bound value : Nat} {digits : List Nat}

theorem take_digits (hdigits : ∀ d ∈ digits, d < 10) (hlt : extend value digits < bound)
    (hrest : startsWithDigit rest = false) :
    take bound value (digits.map digitByte ++ rest) = ⟨extend value digits, digits.length, rest⟩ := by
  induction digits generalizing value with
  | nil =>
    cases rest with
    | nil => rfl
    | cons b rest =>
      have hb : digit? b = none := by simpa [startsWithDigit] using hrest
      rw [List.map_nil, List.nil_append, take, hb]
      rfl
  | cons d digits ih =>
    obtain ⟨hd, hdigits⟩ := List.forall_mem_cons.mp hdigits
    have below : ¬bound ≤ value * 10 + d := by
      have := le_extend (value * 10 + d) digits
      rw [extend, List.foldl_cons] at hlt
      exact Nat.not_le.mpr (Nat.lt_of_le_of_lt this hlt)
    rw [List.map_cons, List.cons_append, take, digit?_digitByte hd]
    dsimp only
    rw [if_neg below, ih hdigits hlt]
    rfl

theorem take_overflow (hdigits : ∀ d ∈ digits, d < 10) (hvalue : value < bound) (hge : bound ≤ extend value digits) :
    startsWithDigit (take bound value (digits.map digitByte ++ rest)).rest = true := by
  induction digits generalizing value with
  | nil => exact absurd hge (Nat.not_le.mpr hvalue)
  | cons d digits ih =>
    obtain ⟨hd, hdigits⟩ := List.forall_mem_cons.mp hdigits
    rw [List.map_cons, List.cons_append, take, digit?_digitByte hd]
    dsimp only
    split
    · simp [startsWithDigit, digit?_digitByte hd]
    · exact ih hdigits (by omega) hge

theorem digitByte_ne_minus {d : Nat} (hd : d < 10) : digitByte d ≠ 0x2d := by
  revert d
  decide

theorem read_digitByte {d : Nat} (hd : d < 10) (s : List UInt8) :
    read (digitByte d :: s) = readDigits false (digitByte d :: s) := by
  unfold read
  split
  · next heq => exact absurd (List.cons.inj heq).1 (digitByte_ne_minus hd)
  · rfl

theorem readDigits_first {d : Nat} (hd : d < 10) (hne : d ≠ 0) (s : List UInt8) :
    readDigits false (digitByte d :: s) =
      if startsWithDigit (take wordBound d s).rest then
        readLong false (take wordBound d s).value (take wordBound d s).rest
      else readAfterInteger false (take wordBound d s).value (take wordBound d s).rest := by
  obtain ⟨d, rfl⟩ := Nat.exists_eq_succ_of_ne_zero hne
  rw [readDigits, digit?_digitByte hd]
  rfl

theorem read_of_lt (hn : n < wordBound) (hrest : Delimits rest) :
    read (bytes (toString n) ++ rest) = .ok (.natural n, rest) := by
  obtain ⟨digits, hbytes, decimal⟩ := exists_decimal n
  rw [hbytes]
  rcases decimal.canonical with rfl | ⟨d, later, rfl, hd⟩
  · -- After a zero there is no loop over digits; it must be the only one.
    obtain rfl : 0 = n := decimal.extend_eq
    rw [List.map_singleton, List.singleton_append, read_digitByte (by omega), readDigits, digit?_digitByte (by omega)]
    dsimp only
    rw [hrest.startsWithDigit, if_neg Bool.false_ne_true]
    exact readAfterInteger_of_delimits hrest 0
  · obtain ⟨hten, hlater⟩ := List.forall_mem_cons.mp decimal.lt_ten
    have value := decimal.extend_first
    have taken : take wordBound d (later.map digitByte ++ rest) = _ :=
      take_digits hlater (value ▸ hn) hrest.startsWithDigit
    rw [List.map_cons, List.cons_append, read_digitByte hten, readDigits_first hten hd, taken, value]
    dsimp only
    rw [hrest.startsWithDigit, if_neg Bool.false_ne_true]
    exact readAfterInteger_of_delimits hrest n

/-! ## Numbers that are not natural -/

/-- The number, if one is read, is a floating-point value. -/
def ReadsFloat (result : Except Stop (Number × List UInt8)) : Prop := ∀ r, result = .ok r → ∃ x, r.1 = .float x

theorem ReadsFloat.error {stop : Stop} : ReadsFloat (.error stop) := nofun

theorem ReadsFloat.ok {x : Float} {s : List UInt8} : ReadsFloat (.ok (.float x, s)) := by
  intro r hr
  cases hr
  exact ⟨x, rfl⟩

variable {negative : Bool} {significand : Nat} {exponent : Int}

theorem ofParts_readsFloat : ReadsFloat (ofParts negative significand exponent s) := by
  unfold ofParts
  split
  · exact .ok
  · exact .error

theorem readExponent_readsFloat : ReadsFloat (readExponent negative significand exponent s) := by
  unfold readExponent
  split
  dsimp only
  split
  · exact .error
  split
  · exact .error
  split
  · split
    · exact .error
    · exact .ok
  · exact ofParts_readsFloat

theorem readTail_readsFloat : ReadsFloat (readTail negative significand exponent s) := by
  unfold readTail
  split
  · exact readExponent_readsFloat
  · exact readExponent_readsFloat
  · exact ofParts_readsFloat

theorem readFraction_readsFloat : ReadsFloat (readFraction negative significand exponent s) := by
  unfold readFraction
  dsimp only
  split
  · exact readTail_readsFloat
  split
  · split
    · exact .error
    · exact .error
  · exact readTail_readsFloat

theorem readLong_readsFloat : ReadsFloat (readLong negative n s) := by
  unfold readLong
  dsimp only
  split
  · exact readFraction_readsFloat
  · exact readTail_readsFloat

theorem read_of_ge (hn : wordBound ≤ n) (rest : List UInt8) : ReadsFloat (read (bytes (toString n) ++ rest)) := by
  obtain ⟨digits, hbytes, decimal⟩ := exists_decimal n
  have hword : 10 ≤ wordBound := by decide
  rw [hbytes]
  rcases decimal.canonical with rfl | ⟨d, later, rfl, hd⟩
  · obtain rfl : 0 = n := decimal.extend_eq
    omega
  · obtain ⟨hten, hlater⟩ := List.forall_mem_cons.mp decimal.lt_ten
    have value := decimal.extend_first
    have past : startsWithDigit (take wordBound d (later.map digitByte ++ rest)).rest = true :=
      take_overflow hlater (by omega) (value ▸ hn)
    rw [List.map_cons, List.cons_append, read_digitByte hten, readDigits_first hten hd, past, if_pos rfl]
    exact readLong_readsFloat

end Number

/-! ## Sizes -/

theorem isBlank_digitByte {d : Nat} (hd : d < 10) : isBlank (Number.digitByte d) = false := by
  revert d
  decide

def sizeOf (result : Except Stop (Number × List UInt8)) : Except Stop (Nat × List UInt8) :=
  match result with
  | .error stop => .error stop
  | .ok (.natural n, rest) => .ok (n, rest)
  | .ok (.negative n, rest) => .error ⟨.invalidValue (.integer (-n)) "usize", rest⟩
  | .ok (.float x, rest) => .error ⟨.invalidType (.float x) "usize", rest⟩

theorem readSize_toString (blanks : List Blank) (n : Nat) (rest : List UInt8) :
    readSize (bytes (Blank.text blanks) ++ (bytes (toString n) ++ rest)) =
      sizeOf (Number.read (bytes (toString n) ++ rest)) := by
  obtain ⟨d, later, hbytes, hd⟩ := Number.toString_cons n
  rw [hbytes, List.cons_append, readSize, skipBlanks_token (isBlank_digitByte hd)]
  dsimp only
  rw [if_pos (by simp [Number.digit?_digitByte hd])]
  rfl

theorem readSize_of_lt (hn : n < Number.wordBound) (hrest : Number.Delimits rest) (blanks : List Blank) :
    readSize (bytes (Blank.text blanks) ++ (bytes (toString n) ++ rest)) = .ok (n, rest) := by
  rw [readSize_toString, Number.read_of_lt hn hrest]
  rfl

theorem readSize_of_ge (hn : Number.wordBound ≤ n) (blanks : List Blank) (rest : List UInt8) :
    ∃ stop, readSize (bytes (Blank.text blanks) ++ (bytes (toString n) ++ rest)) = .error stop := by
  have float := Number.read_of_ge hn rest
  rw [readSize_toString]
  cases hread : Number.read (bytes (toString n) ++ rest) with
  | error stop => exact ⟨stop, rfl⟩
  | ok r =>
    obtain ⟨x, hx⟩ := float r hread
    obtain ⟨_, rest⟩ := r
    obtain rfl : _ = Number.float x := hx
    exact ⟨_, rfl⟩

end Splice.Json
