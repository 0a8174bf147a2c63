/-
Asn1Codec/Hex.lean

The hex conversions hex_to_bytes_ and bytes_to_hex_, and the removal of white
space that precedes a decoding.

A `char` buffer is a list of `Int8`; the nibbles are `uint8_t`.  The decoder
goes over single characters and tells the high from the low nibble by the
parity of a counter, so a byte exists half-built between two iterations:
`hexLoop_byte` is the lemma about the two iterations of one byte.
-/
import Asn1Codec.Types

namespace Asn1Codec

/-! ### Conversions -/

/-- The branch of hex_to_bytes_ that reads one digit. -/
def hexNibble (c : Char) : Option UInt8 :=
  if c ≤ '9' ∧ c ≥ '0' then some (UInt8.ofNat (c.toNat - 48))
  else if c ≤ 'F' ∧ c ≥ 'A' then some (UInt8.ofNat (c.toNat - 55))
  else if c ≤ 'f' ∧ c ≥ 'a' then some (UInt8.ofNat (c.toNat - 87))
  else none

/-- `buf.back() |= d`. -/
def orBack (buf : List Int8) (d : UInt8) : List Int8 :=
  match buf.getLast? with
  | none => buf
  | some b => buf.dropLast ++ [b ||| d.toInt8]

/-- The loop of hex_to_bytes_; `i` counts the digits read. -/
def hexLoop : List Char → ℕ → List Int8 → Bool × List Int8
  | [], _, buf => (true, buf)
  | c :: cs, i, buf =>
    match hexNibble c with
    | none => (false, buf)
    | some d =>
      if i % 2 ≠ 0 then hexLoop cs (i + 1) (orBack buf d)
      else hexLoop cs (i + 1) (buf ++ [(d <<< 4).toInt8])

/-- hex_to_bytes_: whether all characters are digits, and the buffer. -/
def hexToBytes (payloadHex : String) (buf : List Int8) : Bool × List Int8 :=
  hexLoop payloadHex.toList 0 buf

/-- The branch of bytes_to_hex_ that writes one nibble. -/
def hexChar (b : UInt8) : Option Char :=
  if b ≤ 9 then some (Char.ofNat (b.toNat + 48))
  else if b ≤ 15 ∧ b ≥ 10 then some (Char.ofNat (b.toNat + 55))
  else none

/-- The loop of bytes_to_hex_. -/
def bytesLoop : List Int8 → String → Option String
  | [], hex => some hex
  | b :: bs, hex =>
    match hexChar ((b.toUInt8 &&& 0xF0) >>> 4) with
    | none => none
    | some c =>
      match hexChar (b.toUInt8 &&& 0x0F) with
      | none => none
      | some c' => bytesLoop bs ((hex.push c).push c')

/-- bytes_to_hex_: the hex string, or `none` where it returns false. -/
def bytesToHex (buf : List Int8) : Option String := bytesLoop buf ""

/-- `isspace` in the C locale. -/
def isspace (c : Char) : Bool :=
  c == ' ' || c == '\t' || c == '\n' || c == '\x0b' || c == '\x0c' || c == '\r'

/-- `data_as_hex.erase(remove_if(.., isspace), ..)`. -/
def removeSpaces (s : String) : String := String.ofList (s.toList.filter fun c => !isspace c)

/-! ### Bytes to hex and back -/

/-- The digit of a nibble, upper case. -/
def digitChar (d : UInt8) : Char :=
  Char.ofNat (if d ≤ 9 then d.toNat + 48 else d.toNat + 55)

def highNibble (b : Int8) : UInt8 := (b.toUInt8 &&& 0xF0) >>> 4

def lowNibble (b : Int8) : UInt8 := b.toUInt8 &&& 0x0F

/-- The two digits of a byte. -/
def hexPair (b : Int8) : List Char := [digitChar (highNibble b), digitChar (lowNibble b)]

theorem forall_int8 {P : Int8 → Prop} (h : ∀ x : BitVec 8, P ⟨⟨x⟩⟩) (b : Int8) : P b := by
  obtain ⟨⟨x⟩⟩ := b
  exact h x

theorem hexChar_highNibble : ∀ b, hexChar (highNibble b) = some (digitChar (highNibble b)) :=
  forall_int8 (by decide +kernel)

theorem hexChar_lowNibble : ∀ b, hexChar (lowNibble b) = some (digitChar (lowNibble b)) :=
  forall_int8 (by decide +kernel)

theorem hexNibble_highNibble : ∀ b, hexNibble (digitChar (highNibble b)) = some (highNibble b) :=
  forall_int8 (by decide +kernel)

theorem hexNibble_lowNibble : ∀ b, hexNibble (digitChar (lowNibble b)) = some (lowNibble b) :=
  forall_int8 (by decide +kernel)

/-- A byte is put together from its nibbles. -/
theorem highNibble_or_lowNibble :
    ∀ b, (highNibble b <<< 4).toInt8 ||| (lowNibble b).toInt8 = b :=
  forall_int8 (by decide +kernel)

theorem bytesLoop_eq (bs : List Int8) (hex : String) :
    bytesLoop bs hex = some (hex ++ String.ofList (bs.flatMap hexPair)) := by
  induction bs generalizing hex with
  | nil => simp [bytesLoop]
  | cons b bs ih =>
    have hhigh := hexChar_highNibble b
    have hlow := hexChar_lowNibble b
    simp only [highNibble, lowNibble] at hhigh hlow
    simp only [bytesLoop, hhigh, hlow, ih, List.flatMap_cons]
    refine congrArg some (String.toList_injective ?_)
    simp [hexPair, highNibble, lowNibble]

/-- bytes_to_hex_ never fails. -/
theorem bytesToHex_eq (buf : List Int8) :
    bytesToHex buf = some (String.ofList (buf.flatMap hexPair)) := by
  simp [bytesToHex, bytesLoop_eq]

/-- The two iterations that read one byte. -/
theorem hexLoop_byte (b : Int8) (cs : List Char) {i : ℕ} (hi : i % 2 = 0) (buf : List Int8) :
    hexLoop (hexPair b ++ cs) i buf = hexLoop cs (i + 2) (buf ++ [b]) := by
  have hodd : (i + 1) % 2 ≠ 0 := by omega
  have hsplit : hexPair b ++ cs = digitChar (highNibble b) :: digitChar (lowNibble b) :: cs := rfl
  rw [hsplit, hexLoop, hexNibble_highNibble]
  simp only [hi, ne_eq, not_true_eq_false, if_false]
  rw [hexLoop, hexNibble_lowNibble]
  simp only [if_pos hodd, orBack, List.getLast?_append, List.getLast?_singleton, Option.some_or,
    List.dropLast_concat, highNibble_or_lowNibble]

theorem hexLoop_hexPair (bs : List Int8) {i : ℕ} (hi : i % 2 = 0) (buf : List Int8) :
    hexLoop (bs.flatMap hexPair) i buf = (true, buf ++ bs) := by
  induction bs generalizing i buf with
  | nil => simp [hexLoop]
  | cons b bs ih =>
    have hi' : (i + 2) % 2 = 0 := by omega
    rw [List.flatMap_cons, hexLoop_byte b _ hi, ih hi', List.append_assoc]
    rfl

/-- **Reading back what was written** gives the same bytes. -/
theorem hexToBytes_bytesToHex {buf : List Int8} {hex : String} (h : bytesToHex buf = some hex) :
    hexToBytes hex [] = (true, buf) := by
  rw [bytesToHex_eq] at h
  obtain rfl := Option.some.inj h
  simp [hexToBytes, hexLoop_hexPair]

end Asn1Codec
