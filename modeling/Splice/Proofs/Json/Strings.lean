import Splice.Proofs.Json.Tokens

/-!
# Reading strings

A character of a string stands for itself or is escaped, by a letter, by its code in four hexadecimal digits or,
beyond the first plane, by the codes of two surrogates. However a string is spelled, it is read as its characters.
-/

namespace Splice.Json.StringLit

/-! ## Spellings -/

structure HexDigit where
  value : Fin 16
  upper : Bool := false
  deriving DecidableEq

namespace HexDigit

def char (d : HexDigit) : Char := if d.upper then d.value.val.digitChar.toUpper else d.value.val.digitChar

def byte (d : HexDigit) : UInt8 := d.char.toNat.toUInt8

theorem encode_char (d : HexDigit) : String.utf8EncodeChar d.char = [d.byte] := by
  rcases d with ⟨value, _ | _⟩
  all_goals
    revert value
    decide

theorem hexValue?_byte (d : HexDigit) : hexValue? d.byte = some d.value.val := by
  rcases d with ⟨value, _ | _⟩
  all_goals
    revert value
    decide

end HexDigit

/-- Four hexadecimal digits, the highest first. -/
structure HexCode where
  first : HexDigit
  second : HexDigit
  third : HexDigit
  fourth : HexDigit
  deriving DecidableEq

namespace HexCode

def digits (code : HexCode) : List HexDigit := [code.first, code.second, code.third, code.fourth]

def value (code : HexCode) : Nat := code.digits.foldl (fun n d => n * 16 + d.value) 0

end HexCode

inductive Short
  | quote
  | backslash
  | slash
  | backspace
  | formFeed
  | newline
  | carriageReturn
  | tab
  deriving DecidableEq

namespace Short

def char : Short → Char
  | quote => '"'
  | backslash => '\\'
  | slash => '/'
  | backspace => '\x08'
  | formFeed => '\x0c'
  | newline => '\n'
  | carriageReturn => '\r'
  | tab => '\t'

def letter : Short → Char
  | quote => '"'
  | backslash => '\\'
  | slash => '/'
  | backspace => 'b'
  | formFeed => 'f'
  | newline => 'n'
  | carriageReturn => 'r'
  | tab => 't'

end Short

def isPlain (c : Char) : Bool := c ≠ '"' && c ≠ '\\' && ' ' ≤ c

/-- A character of a string, as it is spelled. -/
inductive Spelled
  | plain (c : Char) (free : isPlain c = true)
  | short (escape : Short)
  | hex (code : HexCode) (single : isHighSurrogate code.value = false ∧ isLowSurrogate code.value = false)
  | pair (high low : HexCode) (surrogates : isHighSurrogate high.value = true ∧ isLowSurrogate low.value = true)

namespace Spelled

def char : Spelled → Char
  | plain c _ => c
  | short escape => escape.char
  | hex code _ => Char.ofNat code.value
  | pair high low _ => Char.ofNat (0x10000 + (high.value - 0xd800) * 1024 + (low.value - 0xdc00))

def spelling : Spelled → List Char
  | plain c _ => [c]
  | short escape => ['\\', escape.letter]
  | hex code _ => '\\' :: 'u' :: code.digits.map HexDigit.char
  | pair high low _ =>
    '\\' :: 'u' :: high.digits.map HexDigit.char ++ '\\' :: 'u' :: low.digits.map HexDigit.char

/-- What stands between the quotes. -/
def text (string : List Spelled) : String := String.ofList (string.flatMap spelling)

def content (string : List Spelled) : String := String.ofList (string.map char)

def verbatim (t : String) (free : t.toList.all isPlain = true) : List Spelled :=
  t.toList.attach.map fun c => plain c.1 (List.all_eq_true.mp free c.1 c.2)

theorem content_verbatim {t : String} (free : t.toList.all isPlain = true) :
    content (verbatim t free) = t := by
  simp [content, verbatim, Function.comp_def, char]

end Spelled

/-! ## Bytes -/

def utf8 (cs : List Char) : List UInt8 := cs.flatMap String.utf8EncodeChar

theorem utf8_append (cs ds : List Char) : utf8 (cs ++ ds) = utf8 cs ++ utf8 ds := List.flatMap_append

theorem utf8_hex (digits : List HexDigit) : utf8 (digits.map HexDigit.char) = digits.map HexDigit.byte := by
  induction digits with
  | nil => rfl
  | cons d digits ih =>
    rw [List.map_cons, List.map_cons, ← ih, utf8, List.flatMap_cons, d.encode_char]
    rfl

def Free (b : UInt8) : Prop := b ≠ 0x22 ∧ b ≠ 0x5c ∧ ¬b < 0x20

theorem free_ofNat {k : Nat} (hk : k < 256) (hcontrol : 32 ≤ k) (hquote : k ≠ 34) (hbackslash : k ≠ 92) :
    Free (UInt8.ofNat k) := by
  have value : (UInt8.ofNat k).toNat = k := by
    rw [UInt8.toNat_ofNat']
    exact Nat.mod_eq_of_lt hk
  refine ⟨?_, ?_, ?_⟩
  · intro h
    exact hquote (value.symm.trans (congrArg UInt8.toNat h))
  · intro h
    exact hbackslash (value.symm.trans (congrArg UInt8.toNat h))
  · intro h
    have : k < 32 := value ▸ UInt8.lt_iff_toNat_lt.mp h
    omega

/-- Beyond seven bits no byte stands for anything else. -/
theorem free_of_ge {k : Nat} (hk : k < 256) (hge : 128 ≤ k) : Free (UInt8.ofNat k) :=
  free_ofNat hk (by omega) (by omega) (by omega)

theorem free_of_plain {c : Char} (h : isPlain c = true) : ∀ b ∈ String.utf8EncodeChar c, Free b := by
  simp only [isPlain, Bool.and_eq_true, decide_eq_true_eq] at h
  obtain ⟨⟨hquote, hbackslash⟩, hcontrol⟩ := h
  have hquote : c.val.toNat ≠ 34 := fun h => hquote (Char.ext (UInt32.toNat_inj.mp h))
  have hbackslash : c.val.toNat ≠ 92 := fun h => hbackslash (Char.ext (UInt32.toNat_inj.mp h))
  have hcontrol : 32 ≤ c.val.toNat := UInt32.le_iff_toNat_le.mp (Char.le_def.mp hcontrol)
  unfold String.utf8EncodeChar
  dsimp only
  -- A character of more than one byte has none below 128.
  split
  · simpa using free_ofNat (by omega) hcontrol hquote hbackslash
  split
  · simp only [List.forall_mem_cons]
    exact ⟨free_of_ge (by omega) (by omega), free_of_ge (by omega) (by omega), nofun⟩
  split
  · simp only [List.forall_mem_cons]
    exact ⟨free_of_ge (by omega) (by omega), free_of_ge (by omega) (by omega), free_of_ge (by omega) (by omega), nofun⟩
  · simp only [List.forall_mem_cons]
    exact ⟨free_of_ge (by omega) (by omega), free_of_ge (by omega) (by omega), free_of_ge (by omega) (by omega),
      free_of_ge (by omega) (by omega), nofun⟩

/-! ## Escapes -/

variable (s content : List UInt8)

theorem readFrom_free {free : List UInt8} (h : ∀ b ∈ free, Free b) :
    readFrom content (free ++ s) = readFrom (free.reverse ++ content) s := by
  induction free generalizing content with
  | nil => rfl
  | cons b free ih =>
    obtain ⟨⟨hquote, hbackslash, hcontrol⟩, hfree⟩ := List.forall_mem_cons.mp h
    rw [List.cons_append, readFrom, if_neg hquote, if_neg hbackslash, if_neg hcontrol, ih _ hfree, List.reverse_cons,
      List.append_assoc]
    rfl

theorem readFrom_escape {bytes rest : List UInt8} {h : rest.length ≤ s.length}
    (hescape : escape s = .ok (bytes, ⟨rest, h⟩)) :
    readFrom content (0x5c :: s) = readFrom (bytes.reverse ++ content) rest := by
  rw [readFrom, if_neg (by decide), if_pos rfl, hescape]

theorem escape_short (e : Short) :
    ∃ h, escape (utf8 [e.letter] ++ s) = .ok (String.utf8EncodeChar e.char, ⟨s, h⟩) := by
  cases e
  all_goals exact ⟨by simp [utf8], rfl⟩

theorem fourHexDigits_code (code : HexCode) :
    ∃ h, fourHexDigits (code.digits.map HexDigit.byte ++ s) = .ok (code.value, ⟨s, h⟩) := by
  refine ⟨by simp, ?_⟩
  have number : hexNumber? (code.digits.map HexDigit.byte) = some code.value := by
    simp [hexNumber?, HexCode.digits, HexCode.value, HexDigit.hexValue?_byte]
  have four : (code.digits.map HexDigit.byte ++ s).take 4 = code.digits.map HexDigit.byte := rfl
  rw [fourHexDigits, if_neg (by simp [HexCode.digits]), four, number]
  rfl

theorem escape_hex (code : HexCode)
    (single : isHighSurrogate code.value = false ∧ isLowSurrogate code.value = false) :
    ∃ h, escape (0x75 :: (code.digits.map HexDigit.byte ++ s)) = .ok (encode code.value, ⟨s, h⟩) := by
  refine ⟨by simp; omega, ?_⟩
  obtain ⟨_, hdigits⟩ := fourHexDigits_code s code
  rw [escape, if_pos rfl, codePoint, hdigits]
  dsimp only
  rw [single.1, single.2]
  rfl

theorem escape_pair (high low : HexCode)
    (surrogates : isHighSurrogate high.value = true ∧ isLowSurrogate low.value = true) :
    ∃ h, escape (0x75 :: (high.digits.map HexDigit.byte ++ (0x5c :: 0x75 :: (low.digits.map HexDigit.byte ++ s)))) =
      .ok (encode (0x10000 + (high.value - 0xd800) * 1024 + (low.value - 0xdc00)), ⟨s, h⟩) := by
  refine ⟨by simp; omega, ?_⟩
  obtain ⟨_, hhigh⟩ := fourHexDigits_code (0x5c :: 0x75 :: (low.digits.map HexDigit.byte ++ s)) high
  obtain ⟨_, hlow⟩ := fourHexDigits_code s low
  have not_low : isLowSurrogate high.value = false := by
    have := surrogates.1
    simp only [isHighSurrogate, isLowSurrogate, Bool.and_eq_true, decide_eq_true_eq, Bool.and_eq_false_iff,
      decide_eq_false_iff_not] at this ⊢
    omega
  rw [escape, if_pos rfl, codePoint, hhigh]
  dsimp only
  rw [not_low, surrogates.1, if_neg Bool.false_ne_true, if_neg (by decide), pairByte, if_pos rfl]
  dsimp only
  rw [pairByte, if_pos rfl]
  dsimp only
  rw [hlow]
  dsimp only
  rw [surrogates.2]
  rfl

/-! ## Strings -/

theorem readFrom_spelled (c : Spelled) :
    readFrom content (utf8 c.spelling ++ s) = readFrom ((String.utf8EncodeChar c.char).reverse ++ content) s := by
  cases c with
  | plain c free =>
    rw [Spelled.spelling, utf8, List.flatMap_singleton]
    exact readFrom_free s content (free_of_plain free)
  | short e =>
    obtain ⟨_, hescape⟩ := escape_short s e
    exact readFrom_escape _ content hescape
  | hex code single =>
    obtain ⟨_, hescape⟩ := escape_hex s code single
    have spelled : utf8 (Spelled.hex code single).spelling = 0x5c :: 0x75 :: code.digits.map HexDigit.byte := by
      rw [← utf8_hex]
      rfl
    rw [spelled]
    exact readFrom_escape _ content hescape
  | pair high low surrogates =>
    obtain ⟨_, hescape⟩ := escape_pair s high low surrogates
    have spelled : utf8 (Spelled.pair high low surrogates).spelling = 0x5c :: 0x75 ::
        (high.digits.map HexDigit.byte ++ 0x5c :: 0x75 :: low.digits.map HexDigit.byte) := by
      rw [← utf8_hex, ← utf8_hex]
      exact utf8_append ..
    rw [spelled, List.cons_append, List.cons_append, List.append_assoc]
    exact readFrom_escape _ content hescape

theorem readFrom_text (string : List Spelled) :
    readFrom content (utf8 (string.flatMap Spelled.spelling) ++ 0x22 :: s) =
      .ok (content.reverse ++ utf8 (string.map Spelled.char), s) := by
  induction string generalizing content with
  | nil =>
    rw [List.flatMap_nil, utf8, List.flatMap_nil, List.nil_append, readFrom, if_pos rfl]
    simp [utf8]
  | cons c string ih =>
    rw [List.flatMap_cons, utf8_append, List.append_assoc, readFrom_spelled, ih]
    simp [utf8]

theorem ofBytes_bytes (t : String) : ofBytes (bytes t) = t := by
  have valid : (⟨(bytes t).toArray⟩ : ByteArray) = t.toByteArray := rfl
  rw [ofBytes, valid, String.fromUTF8?, dif_pos t.isValidUTF8]
  rfl

/-- A string is read as what it says, however it is spelled. -/
theorem read_text (string : List Spelled) :
    read (bytes (Spelled.text string) ++ 0x22 :: s) = .ok (Spelled.content string, s) := by
  have said : ofBytes (utf8 (string.map Spelled.char)) = Spelled.content string := by
    rw [utf8, ← bytes_ofList, ofBytes_bytes]
    rfl
  rw [read, Spelled.text, bytes_ofList, ← utf8, readFrom_text, ← said]
  rfl

end Splice.Json.StringLit
