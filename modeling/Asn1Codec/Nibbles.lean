/-
Asn1Codec/Nibbles.lean

What the hex conversion accepts and what it makes of it.

The abstract side reads a text two digits at a time (`wholeBytes`): it has no
half of a byte, and a text of odd length denotes nothing.  The decoder reads
one digit at a time and pushes a byte as soon as the high nibble is there.  On
an even number of characters the two agree; on an odd number of digits the
decoder ends after a high nibble and keeps the byte, as if a `0` followed.

`upperCase` is what a text keeps of itself on the way through the bytes.
-/
import Asn1Codec.Decode
import Mathlib.Data.List.Induction

namespace Asn1Codec

variable {V : Type}

/-! ### Whole bytes -/

/-- The digits, each at the position that is its value. -/
def hexDigits : List Char := "0123456789ABCDEF".toList

/-- A digit, in either case. -/
def isxdigit (c : Char) : Bool := hexDigits.contains c.toUpper

/-- The value of a digit. -/
def digitValue (c : Char) : Option ℕ := hexDigits.idxOf? c.toUpper

/-- The byte of two digits, as a `char`. -/
def byteOf (d d' : ℕ) : Int8 := (UInt8.ofNat (16 * d + d')).toInt8

/-- The bytes that pairs of digits denote. -/
def wholeBytes : List Char → Option (List Int8)
  | [] => some []
  | [_] => none
  | c :: c' :: cs =>
    match digitValue c, digitValue c', wholeBytes cs with
    | some d, some d', some bs => some (byteOf d d' :: bs)
    | _, _, _ => none

/-- A text with its letters in upper case. -/
def upperCase (s : String) : String := String.ofList (s.toList.map Char.toUpper)

/-! ### One digit, one byte -/

theorem isxdigit_iff {c : Char} : isxdigit c = true ↔ ∃ d, digitValue c = some d := by
  rw [isxdigit, List.contains_iff_mem, ← List.isSome_idxOf?, Option.isSome_iff_exists, digitValue]

/-- A value is the position of the digit in upper case. -/
theorem digitValue_some {c : Char} {d : ℕ} (h : digitValue c = some d) :
    ∃ i : Fin 16, i.val = d ∧ hexDigits[i] = c.toUpper := by
  obtain ⟨hd, hc, -⟩ := List.idxOf?_eq_some_iff.mp h
  exact ⟨⟨d, hd⟩, rfl, hc⟩

theorem not_le_ascii {c : Char} (hc : ¬c.toNat < 128) {d : Char} (hd : d.toNat < 128) :
    ¬c ≤ d := by
  intro h
  have hle : c.toNat ≤ d.toNat := UInt32.le_iff_toNat_le.mp h
  omega

/-- The branches of hex_to_bytes_ read the value of a digit. -/
theorem hexNibble_eq (c : Char) : hexNibble c = (digitValue c).map UInt8.ofNat := by
  -- the 128 ASCII characters are compared one by one
  have hascii : ∀ n : Fin 128,
      hexNibble (Char.ofNat n) = (digitValue (Char.ofNat n)).map UInt8.ofNat := by
    decide +kernel
  by_cases hc : c.toNat < 128
  · simpa using hascii ⟨c.toNat, hc⟩
  · -- no letter: neither side knows the character
    have hlower : ¬ (c ≥ 'a' ∧ c ≤ 'z') := by
      rintro ⟨-, h⟩
      exact not_le_ascii hc (d := 'z') (by decide) h
    have hup : c.toUpper = c := dif_neg hlower
    have hnone : digitValue c = none := by
      rw [digitValue, hup, List.idxOf?_eq_none_iff]
      intro h
      have hdigits : (hexDigits.all fun c => c.toNat < 128) = true := by decide
      exact hc (of_decide_eq_true (List.all_eq_true.mp hdigits c h))
    rw [hnone, hexNibble, if_neg, if_neg, if_neg]
    · rfl
    · exact fun h => not_le_ascii hc (by decide) h.1
    · exact fun h => not_le_ascii hc (by decide) h.1
    · exact fun h => not_le_ascii hc (by decide) h.1

/-- The two digits bytes_to_hex_ writes for a byte are those it was read from. -/
theorem hexPair_byteOf (d d' : Fin 16) :
    hexPair (byteOf d d') = [hexDigits[d], hexDigits[d']] := by
  revert d d'
  decide +kernel

theorem halves_byteOf (d d' : Fin 16) :
    (UInt8.ofNat d <<< 4).toInt8 ||| (UInt8.ofNat d').toInt8 = byteOf d d' := by
  revert d d'
  decide +kernel

/-! ### The decoder on pairs of digits -/

theorem hexLoop_pair {c c' : Char} {d d' : ℕ} (hc : digitValue c = some d)
    (hc' : digitValue c' = some d') (cs : List Char) {i : ℕ} (hi : i % 2 = 0) (buf : List Int8) :
    hexLoop (c :: c' :: cs) i buf = hexLoop cs (i + 2) (buf ++ [byteOf d d']) := by
  have hodd : (i + 1) % 2 ≠ 0 := by omega
  obtain ⟨d, rfl, -⟩ := digitValue_some hc
  obtain ⟨d', rfl, -⟩ := digitValue_some hc'
  rw [hexLoop, hexNibble_eq, hc]
  simp only [Option.map_some, hi, ne_eq, not_true_eq_false, if_false]
  rw [hexLoop, hexNibble_eq, hc']
  simp only [Option.map_some, if_pos hodd, orBack, List.getLast?_append, List.getLast?_singleton,
    Option.some_or, List.dropLast_concat, halves_byteOf]

theorem wholeBytes_pair {c c' : Char} {cs : List Char} {bs : List Int8} :
    wholeBytes (c :: c' :: cs) = some bs ↔ ∃ d d' bs', digitValue c = some d ∧
      digitValue c' = some d' ∧ wholeBytes cs = some bs' ∧ byteOf d d' :: bs' = bs := by
  rw [wholeBytes]
  rcases digitValue c with - | d
  · simp
  · rcases digitValue c' with - | d'
    · simp
    · rcases wholeBytes cs with - | bs'
      · simp
      · simp

/-- The decoder reads the bytes that whole pairs denote. -/
theorem hexLoop_wholeBytes {cs : List Char} {bs : List Int8} (h : wholeBytes cs = some bs)
    {i : ℕ} (hi : i % 2 = 0) (buf : List Int8) : hexLoop cs i buf = (true, buf ++ bs) := by
  induction cs using List.twoStepInduction generalizing bs i buf with
  | nil =>
    obtain rfl : [] = bs := by simpa [wholeBytes] using h
    simp [hexLoop]
  | singleton c => exact absurd h (by simp [wholeBytes])
  | cons_cons c c' cs ih _ =>
    obtain ⟨d, d', bs', hc, hc', hcs, rfl⟩ := wholeBytes_pair.mp h
    have hi' : (i + 2) % 2 = 0 := by omega
    rw [hexLoop_pair hc hc' cs hi, ih hcs hi', List.append_assoc]
    rfl

/-- It succeeds on digits and on nothing else. -/
theorem hexLoop_fst (cs : List Char) (i : ℕ) (buf : List Int8) :
    (hexLoop cs i buf).1 = cs.all isxdigit := by
  induction cs generalizing i buf with
  | nil => rfl
  | cons c cs ih =>
    rw [hexLoop, hexNibble_eq, List.all_cons]
    rcases hc : digitValue c with - | d
    · have hno : isxdigit c = false := by
        rw [← Bool.not_eq_true, isxdigit_iff, hc]
        simp
      simp [hno]
    · have hyes : isxdigit c = true := isxdigit_iff.mpr ⟨d, hc⟩
      simp only [Option.map_some, hyes, Bool.true_and]
      split
      · exact ih ..
      · exact ih ..

/-- An even number of digits denotes bytes, and nothing else does. -/
theorem wholeBytes_iff {cs : List Char} :
    (∃ bs, wholeBytes cs = some bs) ↔ cs.length % 2 = 0 ∧ cs.all isxdigit = true := by
  induction cs using List.twoStepInduction with
  | nil => simp [wholeBytes]
  | singleton c => simp [wholeBytes]
  | cons_cons c c' cs ih _ =>
    have hlen : (c :: c' :: cs).length % 2 = cs.length % 2 := by
      simp only [List.length_cons]
      omega
    simp only [hlen, List.all_cons, Bool.and_eq_true, isxdigit_iff, wholeBytes_pair]
    constructor
    · rintro ⟨bs, d, d', bs', hc, hc', hcs, -⟩
      obtain ⟨heven, hall⟩ := ih.mp ⟨bs', hcs⟩
      exact ⟨heven, ⟨d, hc⟩, ⟨d', hc'⟩, hall⟩
    · rintro ⟨heven, ⟨d, hc⟩, ⟨d', hc'⟩, hall⟩
      obtain ⟨bs', hcs⟩ := ih.mpr ⟨heven, hall⟩
      exact ⟨_, d, d', bs', hc, hc', hcs, rfl⟩

/-- What whole pairs denote is written back in upper case. -/
theorem flatMap_hexPair {cs : List Char} {bs : List Int8} (h : wholeBytes cs = some bs) :
    bs.flatMap hexPair = cs.map Char.toUpper := by
  induction cs using List.twoStepInduction generalizing bs with
  | nil =>
    obtain rfl : [] = bs := by simpa [wholeBytes] using h
    rfl
  | singleton c => exact absurd h (by simp [wholeBytes])
  | cons_cons c c' cs ih _ =>
    obtain ⟨d, d', bs', hc, hc', hcs, rfl⟩ := wholeBytes_pair.mp h
    obtain ⟨d, rfl, hup⟩ := digitValue_some hc
    obtain ⟨d', rfl, hup'⟩ := digitValue_some hc'
    rw [List.flatMap_cons, hexPair_byteOf, ih hcs, hup, hup']
    rfl

/-- A last high nibble becomes a byte, as if a `0` stood behind it. -/
theorem hexLoop_odd {cs : List Char} (hodd : cs.length % 2 = 1) {i : ℕ} (hi : i % 2 = 0)
    (buf : List Int8) (hall : cs.all isxdigit = true) :
    hexLoop cs i buf = hexLoop (cs ++ ['0']) i buf := by
  induction cs using List.twoStepInduction generalizing i buf with
  | nil => exact absurd hodd (by simp)
  | singleton c =>
    have hdigit : isxdigit c = true := by simpa using hall
    obtain ⟨d, hc⟩ := isxdigit_iff.mp hdigit
    have h0 : digitValue '0' = some 0 := by decide
    -- the high half written alone is the byte with a zero in the low half
    obtain ⟨d, rfl, -⟩ := digitValue_some hc
    have hzero : (UInt8.ofNat d <<< 4).toInt8 = byteOf d 0 := by
      rw [← Int8.or_zero (a := (UInt8.ofNat d <<< 4).toInt8)]
      exact halves_byteOf d 0
    rw [List.singleton_append, hexLoop_pair hc h0 [] hi]
    simp [hexLoop, hexNibble_eq, hc, hi, hzero]
  | cons_cons c c' cs ih _ =>
    simp only [List.all_cons, Bool.and_eq_true, isxdigit_iff] at hall
    obtain ⟨⟨d, hc⟩, ⟨d', hc'⟩, hall⟩ := hall
    have hi' : (i + 2) % 2 = 0 := by omega
    have hodd' : cs.length % 2 = 1 := by
      simp only [List.length_cons] at hodd
      omega
    rw [List.cons_append, List.cons_append, hexLoop_pair hc hc' _ hi, hexLoop_pair hc hc' _ hi]
    exact ih hodd' hi' _ hall

/-! ### The round trips -/

theorem length_flatMap_hexPair (bs : List Int8) :
    (bs.flatMap hexPair).length = 2 * bs.length := by
  induction bs with
  | nil => rfl
  | cons b bs ih =>
    have hpair : (hexPair b).length = 2 := rfl
    rw [List.flatMap_cons, List.length_append, ih, hpair, List.length_cons]
    omega

/-- **The hex codec round trip.**  Every buffer is written as twice as many
digits and read back from them, and an even number of digits is read as bytes
that are written as these digits in upper case. -/
theorem hexCodec_roundTrip :
    (∀ buf : List Int8, ∃ hex, bytesToHex buf = some hex ∧ hex.length = 2 * buf.length ∧
      hexToBytes hex [] = (true, buf)) ∧
    ∀ s : String, s.length % 2 = 0 → s.toList.all isxdigit = true →
      ∃ buf, hexToBytes s [] = (true, buf) ∧ bytesToHex buf = some (upperCase s) := by
  constructor
  · intro buf
    refine ⟨_, bytesToHex_eq buf, ?_, hexToBytes_bytesToHex (bytesToHex_eq buf)⟩
    rw [String.length_ofList, length_flatMap_hexPair]
  · intro s heven hall
    rw [← String.length_toList] at heven
    obtain ⟨buf, hbuf⟩ := wholeBytes_iff.mpr ⟨heven, hall⟩
    refine ⟨buf, ?_, ?_⟩
    · rw [hexToBytes, hexLoop_wholeBytes hbuf rfl, List.nil_append]
    · rw [bytesToHex_eq, flatMap_hexPair hbuf, upperCase]

theorem hexCodec_roundTrip_mixedCase :
    (∃ hex, bytesToHex [-1, 10] = some hex ∧ hex.length = 4 ∧
      hexToBytes hex [] = (true, [-1, 10])) ∧
    ∃ buf, hexToBytes "fF0a" [] = (true, buf) ∧ bytesToHex buf = some "FF0A" :=
  ⟨hexCodec_roundTrip.1 [-1, 10], hexCodec_roundTrip.2 "fF0a" (by decide) (by decide)⟩

/-! ### The conversion in front of a decoder -/

/-- What decode_1609dot2_data and decode_messageframe_data do before they call
asn_decode: the bytes, or what they throw. -/
def convertHex (label dataAsHex : String) : Except Exn (List Int8) :=
  let hex := removeSpaces dataAsHex
  if hex = "" then
    .error (.asn1Codec ("failed attempt to decode " ++ label ++ " hex string: string empty."))
  else
    match hexToBytes hex [] with
    | (false, _) =>
      .error (.asn1Codec
        ("failed attempt to decode " ++ label ++ " hex string: cannot convert to bytes."))
    | (true, byteBuffer) => .ok byteBuffer

/-- What they do with the bytes. -/
def decodeBytes (E : Externals V) (td : AsnType) (ats : TransferSyntax) (byteBuffer : List Int8) :
    Except Exn String :=
  match E.asnDecode ats td byteBuffer with
  | .fail consumed =>
    .error (.asn1Codec ("failed ASN.1 binary decoding of element " ++ td.name ++
      ": bad data." ++ successfullyDecoded consumed))
  | .wmore consumed =>
    .error (.asn1Codec ("failed ASN.1 binary decoding of element " ++ td.name ++
      ": more data expected." ++ successfullyDecoded consumed))
  | .ok v _ =>
    match E.asnCheckConstraints td v with
    | some errbuf =>
      .error (.asn1Codec
        ("failed ASN.1 constraints check of element " ++ td.name ++ ": " ++ errbuf))
    | none =>
      match E.xerEncode td v with
      | .error failedType =>
        .error (.asn1Codec
          ("failed ASN.1 XML encoding of " ++ td.name ++ " element " ++ failedType))
      | .ok xml => .ok xml

theorem decodeHexData_eq (E : Externals V) (label : String) (td : AsnType) (ats : TransferSyntax)
    (hex : String) :
    decodeHexData E label td ats hex = (convertHex label hex).bind (decodeBytes E td ats) := by
  rw [decodeHexData, convertHex]
  by_cases hempty : removeSpaces hex = ""
  · simp only [hempty, if_true]
    rfl
  · simp only [hempty, if_false]
    rcases hexToBytes (removeSpaces hex) [] with ⟨- | -, buf⟩
    · rfl
    · rfl

/-- What is left of a payload is a non-empty, even number of digits. -/
def WholeHex (s : String) : Prop :=
  removeSpaces s ≠ "" ∧ (removeSpaces s).length % 2 = 0 ∧
    (removeSpaces s).toList.all isxdigit = true

/-- What is left of it is an odd number of digits: it ends within a byte. -/
def CutHex (s : String) : Prop :=
  (removeSpaces s).length % 2 = 1 ∧ (removeSpaces s).toList.all isxdigit = true

/-- The conversion invents nothing on a pair of payloads. -/
structure NothingInvented (label s t : String) : Prop where
  /-- What converts is a whole number of bytes. -/
  exact : (∃ bytes, convertHex label s = .ok bytes) ↔ WholeHex s
  exact' : (∃ bytes, convertHex label t = .ok bytes) ↔ WholeHex t
  /-- Equal bytes come from payloads equal up to white space and case. -/
  injective : ∀ bytes, convertHex label s = .ok bytes → convertHex label t = .ok bytes →
    upperCase (removeSpaces s) = upperCase (removeSpaces t)
  /-- A payload that ends within a byte is rejected. -/
  rejects : CutHex s → ∃ e, convertHex label s = .error e

theorem CutHex.ne_empty {s : String} (h : CutHex s) : removeSpaces s ≠ "" := by
  intro hempty
  have hodd := h.1
  rw [hempty] at hodd
  exact absurd hodd (by decide)

/-- Digits convert, whatever their number. -/
theorem convertHex_ok_iff (label s : String) :
    (∃ bytes, convertHex label s = .ok bytes) ↔
      removeSpaces s ≠ "" ∧ (removeSpaces s).toList.all isxdigit = true := by
  have hfst := hexLoop_fst (removeSpaces s).toList 0 []
  rw [convertHex]
  by_cases hempty : removeSpaces s = ""
  · simp [hempty]
  · simp only [hempty, if_false]
    rw [← hexToBytes] at hfst
    rcases h : hexToBytes (removeSpaces s) [] with ⟨- | -, buf⟩
    · rw [h] at hfst
      simp [← hfst]
    · rw [h] at hfst
      simp [← hfst, hempty]

/-- A whole payload converts to the bytes its digits denote. -/
theorem convertHex_whole (label : String) {s : String} (h : WholeHex s) :
    ∃ bytes, wholeBytes (removeSpaces s).toList = some bytes ∧ convertHex label s = .ok bytes := by
  obtain ⟨hne, heven, hall⟩ := h
  rw [← String.length_toList] at heven
  obtain ⟨bytes, hbytes⟩ := wholeBytes_iff.mpr ⟨heven, hall⟩
  refine ⟨bytes, hbytes, ?_⟩
  rw [convertHex]
  simp only [hne, if_false]
  rw [hexToBytes, hexLoop_wholeBytes hbytes rfl, List.nil_append]

theorem wholeHex_of_ok {label s : String} {bytes : List Int8} (hcut : ¬CutHex s)
    (h : convertHex label s = .ok bytes) : WholeHex s := by
  obtain ⟨hne, hall⟩ := (convertHex_ok_iff label s).mp ⟨bytes, h⟩
  refine ⟨hne, ?_, hall⟩
  by_contra hodd
  exact hcut ⟨by omega, hall⟩

theorem exact_iff (label s : String) :
    ((∃ bytes, convertHex label s = .ok bytes) ↔ WholeHex s) ↔ ¬CutHex s := by
  constructor
  · intro hexact hcut
    have hne := hcut.ne_empty
    obtain ⟨hodd, hall⟩ := hcut
    obtain ⟨-, heven, -⟩ := hexact.mp ((convertHex_ok_iff label s).mpr ⟨hne, hall⟩)
    omega
  · intro hcut
    constructor
    · rintro ⟨bytes, h⟩
      exact wholeHex_of_ok hcut h
    · intro hwhole
      obtain ⟨bytes, -, h⟩ := convertHex_whole label hwhole
      exact ⟨bytes, h⟩

/-- **No invented nibbles**, exactly on the payloads that do not end within a
byte. -/
theorem nothingInvented_iff (label s t : String) :
    NothingInvented label s t ↔ ¬CutHex s ∧ ¬CutHex t := by
  constructor
  · intro h
    exact ⟨(exact_iff label s).mp h.exact, (exact_iff label t).mp h.exact'⟩
  · rintro ⟨hs, ht⟩
    refine ⟨(exact_iff label s).mpr hs, (exact_iff label t).mpr ht, ?_, fun h => absurd h hs⟩
    intro bytes hbytes hbytes'
    obtain ⟨bs, hbs, h⟩ := convertHex_whole label (wholeHex_of_ok hs hbytes)
    obtain ⟨bs', hbs', h'⟩ := convertHex_whole label (wholeHex_of_ok ht hbytes')
    obtain rfl : bytes = bs := Except.ok.inj (hbytes.symm.trans h)
    obtain rfl : bytes = bs' := Except.ok.inj (hbytes'.symm.trans h')
    rw [upperCase, upperCase, ← flatMap_hexPair hbs, ← flatMap_hexPair hbs']

/-- A payload that ends within a byte is taken for the one with a `0` more. -/
theorem convertHex_cut {label s : String} (h : CutHex s) :
    convertHex label s = convertHex label (s ++ "0") := by
  have hne := h.ne_empty
  obtain ⟨hodd, hall⟩ := h
  rw [← String.length_toList] at hodd
  have hzero : removeSpaces (s ++ "0") = removeSpaces s ++ "0" := by
    apply String.toList_injective
    simp [removeSpaces, isspace]
  have hne' : removeSpaces s ++ "0" ≠ "" := by simp
  rw [convertHex, convertHex, hzero]
  simp only [hne, hne', if_false]
  have hdigit : (removeSpaces s ++ "0").toList = (removeSpaces s).toList ++ ['0'] := by simp
  rw [hexToBytes, hexToBytes, hexLoop_odd hodd rfl [] hall, hdigit]

/-- Half of the second byte is missing, and a message is decoded nevertheless. -/
theorem nothingInvented_not_cut :
    convertHex "MessageFrame" "001" = .ok [0, 16] ∧
    convertHex "MessageFrame" "0010" = .ok [0, 16] ∧
    ¬NothingInvented "MessageFrame" "001" "0010" := by
  have h : convertHex "MessageFrame" "001" = .ok [0, 16] := by decide
  refine ⟨h, by decide, ?_⟩
  intro hinv
  obtain ⟨-, heven, -⟩ := hinv.exact.mp ⟨_, h⟩
  exact absurd heven (by decide)

end Asn1Codec
