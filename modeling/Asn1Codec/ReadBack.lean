/-
Asn1Codec/ReadBack.lean

Reading the response of a JSON batch back.

The response alternates a line `type,timestamp` with a line of XER.  The type
is written as it stands in the JSON string, so a newline in it makes a line
more and shifts every later pair.  Without one the response reads back: a type
may hold commas, since a timestamp has none and the last comma divides the two.
A timestamp comes back as the long that it was converted to.
-/
import Asn1Codec.Batch

namespace Asn1Codec

variable {V : Type}

/-! ### The reader -/

/-- A decimal number. -/
def readLong : List Char → ℤ
  | '-' :: digits => -(Nat.ofDigitChars 10 digits 0 : ℤ)
  | digits => (Nat.ofDigitChars 10 digits 0 : ℤ)

/-- A line `type,timestamp`, divided at its last comma. -/
def readHeader (line : List Char) : String × ℤ :=
  let r := line.reverse
  (String.ofList ((r.dropWhile (· != ',')).drop 1).reverse,
    readLong (r.takeWhile (· != ',')).reverse)

/-- The lines of a response, two by two. -/
def readPairs : List (List Char) → List (String × ℤ × String)
  | header :: xer :: rest =>
    ((readHeader header).1, (readHeader header).2, String.ofList xer) :: readPairs rest
  | _ => []

/-- The types, the timestamps and the XER of a response. -/
def readBack (response : String) : List (String × ℤ × String) :=
  readPairs (splitLines response.toList)

/-- What is written for a line that is decoded. -/
structure Decoded where
  metadata : Metadata
  xer : String

def Decoded.output (d : Decoded) : String := d.metadata.line ++ d.xer ++ "\n"

/-- The decoding of a line in JSON mode. -/
def decodeJsonLine (E : Externals V) (parse : String → Except JsonExn Json) (c : Codec)
    (line : String) : Option Decoded :=
  if line = "" then none
  else ((parse line).toOption.bind Json.metadata).bind fun m => (singleXer E c m.hex).map (⟨m, ·⟩)

/-- The lines of a body that are decoded, in their order. -/
def decodedLines (E : Externals V) (parse : String → Except JsonExn Json) (c : Codec)
    (body : String) : List Decoded :=
  (getlines body).filterMap (decodeJsonLine E parse c)

/-! ### Numbers -/

/-- The value of a JSON number. -/
def Json.number? : Json → Option ℚ
  | .numberInteger i => some i.toInt
  | .numberUnsigned u => some u.toNat
  | .numberFloat q => some q
  | _ => none

/-- A number that is a long is converted to itself. -/
theorem toInt_of_number? {x : Json} {t : Int64} (ht : x.toLong? = some t) {n : ℤ}
    (hn : x.number? = some (n : ℚ)) (hlo : -2 ^ 63 ≤ n) (hhi : n < 2 ^ 63) : t.toInt = n := by
  rcases x with - | b | i | u | q | s | xs | members
  · exact absurd ht (by simp [Json.toLong?])
  · exact absurd ht (by simp [Json.toLong?])
  · obtain rfl := Option.some.inj ht
    exact_mod_cast Option.some.inj hn
  · obtain rfl := Option.some.inj ht
    -- below 2 ^ 63 the sign bit is clear, and the cast to long keeps the number
    have hu : (u.toNat : ℤ) = n := by exact_mod_cast Option.some.inj hn
    show u.toBitVec.toInt = n
    rw [BitVec.toInt_eq_toNat_of_lt, ← hu]
    · rfl
    · have hlt : u.toBitVec.toNat = u.toNat := rfl
      omega
  · obtain rfl := Option.some.inj ht
    obtain rfl := Option.some.inj hn
    -- a double that is a whole number has nothing to truncate
    have hone : n.tdiv ((1 : ℕ) : ℤ) = n := Int.tdiv_one n
    rw [Json.truncate, Rat.num_intCast, Rat.den_intCast, hone]
    simp only [hlo, hhi, and_self, if_true]
    exact Int64.toInt_ofInt_of_le hlo hhi
  · exact absurd ht (by simp [Json.toLong?])
  · exact absurd ht (by simp [Json.toLong?])
  · exact absurd ht (by simp [Json.toLong?])

/-- The digits of a long. -/
def longDigits (n : ℤ) : List Char :=
  if 0 ≤ n then Nat.toDigits 10 n.toNat else '-' :: Nat.toDigits 10 (-n).toNat

theorem toList_toString_long (t : Int64) : (toString t).toList = longDigits t.toInt := by
  show (Int.repr t.toInt).toList = _
  rw [Int.repr_eq_if, longDigits]
  split
  · rw [Nat.repr_eq_ofList_toDigits, String.toList_ofList]
  · rw [Nat.repr_eq_ofList_toDigits, String.toList_append, String.toList_ofList]
    show ['-'] ++ _ = _
    rw [List.singleton_append, String.toList_ofList]

theorem mem_longDigits {c : Char} {n : ℤ} (hc : c ∈ longDigits n) : c = '-' ∨ c.isDigit = true := by
  rw [longDigits] at hc
  split at hc
  · exact .inr (Nat.isDigit_of_mem_toDigits (by decide) (by decide) hc)
  · rcases List.mem_cons.mp hc with rfl | hc
    · exact .inl rfl
    · exact .inr (Nat.isDigit_of_mem_toDigits (by decide) (by decide) hc)

theorem readLong_of_no_sign {cs : List Char} (h : '-' ∉ cs) :
    readLong cs = (Nat.ofDigitChars 10 cs 0 : ℤ) := by
  unfold readLong
  split
  · exact absurd List.mem_cons_self h
  · rfl

theorem readLong_longDigits (n : ℤ) : readLong (longDigits n) = n := by
  rw [longDigits]
  split
  · rename_i hn
    rw [readLong_of_no_sign, Nat.ofDigitChars_ten_toDigits]
    · omega
    · intro h
      have hdigit := Nat.isDigit_of_mem_toDigits (by decide) (by decide) h
      exact absurd hdigit (by decide)
  · rw [readLong, Nat.ofDigitChars_ten_toDigits]
    omega

theorem not_mem_longDigits {c : Char} (hc : c ≠ '-') (hc' : c.isDigit = false) (n : ℤ) :
    c ∉ longDigits n := by
  intro h
  rcases mem_longDigits h with h | h
  · exact hc h
  · rw [hc'] at h
    exact absurd h (by decide)

/-! ### Lines that are written and read -/

/-- A line without a newline in it is read back. -/
theorem splitLines_line {l : List Char} (h : '\n' ∉ l) (rest : List Char) :
    splitLines (l ++ '\n' :: rest) = l :: splitLines rest := by
  rw [splitLines_eq, splitLines_eq, pieces_append_cons '\n' h]

/-- The two characters that divide the fields of a line. -/
theorem takeWhile_append_of_not_mem {cs : List Char} {d : Char} (h : d ∉ cs) (rest : List Char) :
    (cs ++ d :: rest).takeWhile (· != d) = cs ∧
    (cs ++ d :: rest).dropWhile (· != d) = d :: rest := by
  have hcs : ∀ c ∈ cs, (c != d) = true := by
    intro c hc
    rw [bne_iff_ne]
    rintro rfl
    exact h hc
  constructor
  · rw [List.takeWhile_append_of_pos hcs, List.takeWhile_cons_of_neg (by simp), List.append_nil]
  · rw [List.dropWhile_append_of_pos hcs, List.dropWhile_cons_of_neg (by simp)]

/-- The characters of a line `type,timestamp`. -/
def headerChars (m : Metadata) : List Char :=
  m.messageType.toList ++ ',' :: longDigits m.timestamp.toInt

theorem readHeader_headerChars (m : Metadata) :
    readHeader (headerChars m) = (m.messageType, m.timestamp.toInt) := by
  have hcomma : ',' ∉ (longDigits m.timestamp.toInt).reverse := by
    rw [List.mem_reverse]
    exact not_mem_longDigits (by decide) (by decide) _
  have hrev : (headerChars m).reverse =
      (longDigits m.timestamp.toInt).reverse ++ ',' :: m.messageType.toList.reverse := by
    simp [headerChars]
  obtain ⟨htake, hdrop⟩ := takeWhile_append_of_not_mem hcomma m.messageType.toList.reverse
  simp only [readHeader, hrev, htake, hdrop, List.drop_succ_cons, List.drop_zero,
    List.reverse_reverse, readLong_longDigits, String.ofList_toList]

theorem toList_output (d : Decoded) :
    d.output.toList = headerChars d.metadata ++ '\n' :: (d.xer.toList ++ ['\n']) := by
  simp [Decoded.output, Metadata.line, headerChars, String.toList_append, toList_toString_long]

/-- Lines that were written for decoded lines without a newline inside. -/
def OneLine (d : Decoded) : Prop :=
  '\n' ∉ d.metadata.messageType.toList ∧ '\n' ∉ d.xer.toList

theorem splitLines_output {ds : List Decoded} (h : ∀ d ∈ ds, OneLine d) :
    splitLines (String.join (ds.map Decoded.output)).toList =
      ds.flatMap fun d => [headerChars d.metadata, d.xer.toList] := by
  induction ds with
  | nil => rfl
  | cons d ds ih =>
    obtain ⟨htype, hxer⟩ := h d List.mem_cons_self
    -- neither the comma nor the digits of a long are a newline
    have hheader : '\n' ∉ headerChars d.metadata := by
      rw [headerChars, List.mem_append, List.mem_cons]
      rintro (h | h | h)
      · exact htype h
      · exact absurd h (by decide)
      · exact not_mem_longDigits (by decide) (by decide) _ h
    rw [List.map_cons, String.join_cons, String.toList_append, toList_output, List.append_assoc,
      List.cons_append, splitLines_line hheader, List.append_assoc, List.singleton_append,
      splitLines_line hxer, ih fun d' hd' => h d' (List.mem_cons_of_mem _ hd')]
    rfl

theorem readPairs_output (ds : List Decoded) :
    readPairs (ds.flatMap fun d => [headerChars d.metadata, d.xer.toList]) =
      ds.map fun d => (d.metadata.messageType, d.metadata.timestamp.toInt, d.xer) := by
  induction ds with
  | nil => rfl
  | cons d ds ih =>
    show _ :: readPairs (ds.flatMap _) = _
    rw [ih, readHeader_headerChars, String.ofList_toList]
    rfl

/-! ### The response -/

theorem lineOutput_json (E : Externals V) (parse : String → Except JsonExn Json) (c : Codec)
    (line : String) :
    lineOutput E parse c true line =
      String.join ((decodeJsonLine E parse c line).toList.map Decoded.output) := by
  rw [lineOutput, decodeJsonLine]
  by_cases hline : line = ""
  · simp [hline]
  · rcases (parse line).toOption.bind Json.metadata with - | m
    · simp [hline]
    · simp only [hline, if_false, if_true, xerLine, Option.bind_some]
      rcases singleXer E c m.hex with - | xer
      · rfl
      · simp [Decoded.output]

/-- The response of a JSON batch, from the lines that are decoded. -/
theorem batchBody_json (E : Externals V) (parse : String → Except JsonExn Json) (c : Codec)
    {contentType : String} (hjson : containsText contentType "json" = true) (body : String) :
    batchBody E parse c contentType body =
      String.join ((decodedLines E parse c body).map Decoded.output) := by
  rw [batchBody, decodedLines, hjson]
  induction getlines body with
  | nil => rfl
  | cons line lines ih =>
    rw [List.map_cons, String.join_cons, ih, lineOutput_json, List.filterMap_cons]
    rcases decodeJsonLine E parse c line with - | d
    · simp
    · simp

theorem xer_of_mem_decodedLines {E : Externals V} {parse : String → Except JsonExn Json}
    {c : Codec} {body : String} {d : Decoded} (h : d ∈ decodedLines E parse c body) :
    ∃ v, E.xerEncode .messageFrame v = .ok d.xer := by
  obtain ⟨line, -, hline⟩ := List.mem_filterMap.mp h
  rw [decodeJsonLine] at hline
  split at hline
  · exact absurd hline (by simp)
  · obtain ⟨m, -, hm⟩ := Option.bind_eq_some_iff.mp hline
    obtain ⟨xer, hxer, rfl⟩ := Option.map_eq_some_iff.mp hm
    rw [singleXer_eq] at hxer
    -- a line whose payload did not decode is skipped
    rcases hdec : decodeHexData E "MessageFrame" .messageFrame c.req.decodeMessageframeType m.hex
      with e | xb
    · rw [hdec] at hxer
      exact absurd hxer (by simp [Except.toOption])
    · rw [hdec] at hxer
      obtain rfl : xb = xer := Option.some.inj hxer
      obtain ⟨-, v, -, -, -, -, hxb⟩ := decodeHexData_ok hdec
      exact ⟨v, hxb⟩

/-- **A JSON batch is read back** where no type of a decoded line holds a
newline: there are two lines for each decoded line, and the pairs are the
types, the timestamps as longs and the XER.  A timestamp that is a long already
is the number that was sent. -/
theorem readBack_postBatch (E : Externals V)
    (hxer : ∀ v xer, E.xerEncode .messageFrame v = .ok xer → '\n' ∉ xer.toList)
    (parse : String → Except JsonExn Json) (t : Int64) (c : Codec) {contentType : String}
    (hjson : containsText contentType "json" = true) (body : String)
    (htype : ∀ d ∈ decodedLines E parse c body, '\n' ∉ d.metadata.messageType.toList) :
    (∃ resp c', (postBatch E parse t ⟨contentType, body⟩).run c = .ok resp c' ∧
      (getlines resp.body).length = 2 * (decodedLines E parse c body).length ∧
      readBack resp.body = (decodedLines E parse c body).map fun d =>
        (d.metadata.messageType, d.metadata.timestamp.toInt, d.xer)) ∧
    ∀ (x : Json) (i : Int64) (n : ℤ), x.toLong? = some i → x.number? = some (n : ℚ) →
      -2 ^ 63 ≤ n → n < 2 ^ 63 → i.toInt = n := by
  refine ⟨?_, fun x i n hi hn hlo hhi => toInt_of_number? hi hn hlo hhi⟩
  obtain ⟨c', hrun⟩ := run_postBatch E parse t c contentType body
  -- the type holds no newline by `htype`, the XER by `hxer`
  have hone : ∀ d ∈ decodedLines E parse c body, OneLine d := by
    intro d hd
    obtain ⟨v, hv⟩ := xer_of_mem_decodedLines hd
    exact ⟨htype d hd, hxer v d.xer hv⟩
  refine ⟨_, c', hrun, ?_, ?_⟩
  · show (getlines (batchBody E parse c contentType body)).length = _
    rw [getlines, List.length_map, batchBody_json E parse c hjson, splitLines_output hone,
      List.length_flatMap]
    simp [Nat.mul_comm]
  · show readBack (batchBody E parse c contentType body) = _
    rw [readBack, batchBody_json E parse c hjson, splitLines_output hone, readPairs_output]

/-- What a parser makes of a line with these three members. -/
def parseTo (timestamp : Json) (messageType hex : String) (_ : String) : Except JsonExn Json :=
  .ok (.object [("timestamp", timestamp), ("type", .string messageType), ("hex", .string hex)])

/-- A line as in the contract of the endpoint. -/
def spatLine : String :=
  "\x7b \"timestamp\": 1683155399091, \"type\": \"SPAT\", \"hex\": \"0013\" \x7d"

def parseSpat : String → Except JsonExn Json :=
  parseTo (.numberUnsigned 1683155399091) "SPAT" "0013"

theorem readBack_postBatch_spat :
    (∃ resp c', (postBatch anyFrame parseSpat 0 ⟨"application/x-ndjson", spatLine⟩).run
        configuredCodec = .ok resp c' ∧
      (getlines resp.body).length =
        2 * (decodedLines anyFrame parseSpat configuredCodec spatLine).length ∧
      readBack resp.body = (decodedLines anyFrame parseSpat configuredCodec spatLine).map fun d =>
        (d.metadata.messageType, d.metadata.timestamp.toInt, d.xer)) ∧
    ∀ (x : Json) (i : Int64) (n : ℤ), x.toLong? = some i → x.number? = some (n : ℚ) →
      -2 ^ 63 ≤ n → n < 2 ^ 63 → i.toInt = n := by
  apply readBack_postBatch anyFrame
  · intro v xer hxer
    obtain rfl := Except.ok.inj hxer
    decide
  · decide
  · decide +kernel

/-- A line whose type holds a newline. -/
def newlineTypeLine : String :=
  "\x7b \"timestamp\": 5, \"type\": \"A\\nB\", \"hex\": \"0013\" \x7d"

/-- A line whose timestamp is no integer. -/
def fractionLine : String :=
  "\x7b \"timestamp\": 1.5, \"type\": \"BSM\", \"hex\": \"0013\" \x7d"

/-- A newline in a type makes a third line, and a fraction is cut off. -/
theorem readBack_postBatch_fails :
    (∃ resp c', (postBatch anyFrame (parseTo (.numberUnsigned 5) "A\nB" "0013") 0
        ⟨"application/x-ndjson", newlineTypeLine⟩).run configuredCodec = .ok resp c' ∧
      getlines resp.body = ["A", "B,5", "<MessageFrame/>"] ∧
      (decodedLines anyFrame (parseTo (.numberUnsigned 5) "A\nB" "0013") configuredCodec
        newlineTypeLine).length = 1) ∧
    ∃ resp c', (postBatch anyFrame (parseTo (.numberFloat (3 / 2)) "BSM" "0013") 0
        ⟨"application/x-ndjson", fractionLine⟩).run configuredCodec = .ok resp c' ∧
      readBack resp.body = [("BSM", 1, "<MessageFrame/>")] ∧
      (Json.numberFloat (3 / 2)).number? ≠ some ((1 : ℤ) : ℚ) := by
  refine ⟨⟨_, _, rfl, ?_, ?_⟩, _, _, rfl, ?_, ?_⟩
  · decide +kernel
  · decide +kernel
  · decide +kernel
  · decide +kernel

end Asn1Codec
