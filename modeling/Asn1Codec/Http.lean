/-
Asn1Codec/Http.lean

The HTTP endpoint that decodes a single message.

post_single hands the body to decode_messageframe_data and looks at the
boolean it returns.  That function signals every failure by a throw and never
returns false, so the branch of post_single that answers 400 is never taken: a
body that is not decoded leaves the handler as an exception.

`xerOf` says what a body denotes without the decoder's loop: its digits are
read in pairs.
-/
import Asn1Codec.Nibbles
import Asn1Codec.Stateless

namespace Asn1Codec

variable {V : Type}

/-! ### The endpoint -/

/-- The part of a crow::request that the handlers read. -/
structure Request where
  /-- The value of the header Content-Type, empty without it. -/
  contentType : String
  body : String

/-- A crow::response. -/
structure Response where
  code : ℕ
  contentType : String
  body : String
  deriving DecidableEq

/-- decode_messageframe_data as post_single and post_batch call it: the value
returned, the string erased in place and the text in the buffer. -/
def callDecodeMessageframe (E : Externals V) (hexLine : String) :
    CodecM (Bool × String × String) := do
  let xb ← decodeMessageframeData E hexLine
  pure (true, removeSpaces hexLine, xb)

/-- post_single. -/
def postSingle (E : Externals V) (req : Request) : CodecM Response := do
  let (decodeOk, hexLine, xb) ← callDecodeMessageframe E req.body
  if !decodeOk then
    let errMsg := "Error decoding uper: " ++ hexLine
    pure ⟨400, "text/plain", errMsg⟩
  else
    let xmlLine := xb
    pure ⟨200, "application/xml", xmlLine⟩

/-! ### What a body denotes -/

/-- The XER of the MessageFrame that some bytes denote: they decode to a
structure that satisfies the constraints and can be written. -/
def xerOfBytes (E : Externals V) (ats : TransferSyntax) (bytes : List Int8) : Option String :=
  match E.asnDecode ats .messageFrame bytes with
  | .fail _ => none
  | .wmore _ => none
  | .ok v _ =>
    match E.asnCheckConstraints .messageFrame v with
    | some _ => none
    | none => (E.xerEncode .messageFrame v).toOption

/-- The XER of the MessageFrame that a text denotes in hex. -/
def xerOf (E : Externals V) (ats : TransferSyntax) (s : String) : Option String :=
  if removeSpaces s = "" then none
  else (wholeBytes (removeSpaces s).toList).bind (xerOfBytes E ats)

theorem toOption_decodeBytes (E : Externals V) (ats : TransferSyntax) (bytes : List Int8) :
    (decodeBytes E .messageFrame ats bytes).toOption = xerOfBytes E ats bytes := by
  rw [decodeBytes, xerOfBytes]
  rcases E.asnDecode ats .messageFrame bytes with ⟨v, n⟩ | n | n
  · rcases hcheck : E.asnCheckConstraints .messageFrame v with - | errbuf
    · rcases hxer : E.xerEncode .messageFrame v with e | xer
      · simp [hcheck, hxer, Except.toOption]
      · simp [hcheck, hxer, Except.toOption]
    · simp [hcheck, Except.toOption]
  · rfl
  · rfl

/-- A text that denotes XER is decoded to it. -/
theorem decodeHexData_of_xerOf {E : Externals V} {ats : TransferSyntax} {s xer : String}
    (h : xerOf E ats s = some xer) :
    decodeHexData E "MessageFrame" .messageFrame ats s = .ok xer := by
  rw [xerOf] at h
  split at h
  · exact absurd h (by simp)
  · rename_i hne
    obtain ⟨bytes, hbytes, hxer⟩ := Option.bind_eq_some_iff.mp h
    obtain ⟨heven, hall⟩ := wholeBytes_iff.mp ⟨bytes, hbytes⟩
    rw [String.length_toList] at heven
    obtain ⟨bytes', hbytes', hconv⟩ := convertHex_whole "MessageFrame" ⟨hne, heven, hall⟩
    obtain rfl := Option.some.inj (hbytes.symm.trans hbytes')
    rw [← toOption_decodeBytes] at hxer
    rw [decodeHexData_eq, hconv]
    show decodeBytes E .messageFrame ats bytes = .ok xer
    rcases hdec : decodeBytes E .messageFrame ats bytes with e | xer'
    · rw [hdec] at hxer
      exact absurd hxer (by simp [Except.toOption])
    · rw [hdec] at hxer
      obtain rfl : xer' = xer := Option.some.inj hxer
      rfl

/-! ### How a body is answered -/

/-- What the handler leaves of the codec: the call is noted. -/
def Codec.decoding (c : Codec) (hexLine : String) : Codec :=
  { c with calls := c.calls ++ [⟨J2735MESSAGEFRAME, c.req.decodeMessageframeType, hexLine⟩] }

/-- The decoder returns true or throws. -/
theorem run_callDecodeMessageframe (E : Externals V) (hexLine : String) (c : Codec) :
    (callDecodeMessageframe E hexLine).run c =
      match decodeHexData E "MessageFrame" .messageFrame c.req.decodeMessageframeType hexLine with
      | .ok xml => .ok (true, removeSpaces hexLine, xml) (c.decoding hexLine)
      | .error e => .error e (c.decoding hexLine) := by
  have hdecode : (decodeMessageframeData E hexLine).run c =
      (liftExcept (decodeHexData E "MessageFrame" .messageFrame c.req.decodeMessageframeType
        hexLine)).run (c.decoding hexLine) := by
    simp [decodeMessageframeData, logCall, Codec.decoding]
  rw [callDecodeMessageframe, EStateM.run_bind, hdecode]
  rcases decodeHexData E "MessageFrame" .messageFrame c.req.decodeMessageframeType hexLine
    with e | xml
  · rfl
  · rfl

/-- So does the handler: there is no other response than a 200. -/
theorem run_postSingle (E : Externals V) (req : Request) (c : Codec) :
    (postSingle E req).run c =
      match decodeHexData E "MessageFrame" .messageFrame c.req.decodeMessageframeType req.body with
      | .ok xml => .ok ⟨200, "application/xml", xml⟩ (c.decoding req.body)
      | .error e => .error e (c.decoding req.body) := by
  have hcall := run_callDecodeMessageframe E req.body c
  rcases h : decodeHexData E "MessageFrame" .messageFrame c.req.decodeMessageframeType req.body
    with e | xml
  · rw [h] at hcall
    simp [postSingle, hcall]
  · rw [h] at hcall
    simp [postSingle, hcall]

/-- The run of the handler ends with the response that the body deserves. -/
def Answered (E : Externals V) (ats : TransferSyntax) (body : String)
    (r : EStateM.Result Exn Codec Response) : Prop :=
  ∃ resp c, r = .ok resp c ∧
    match xerOf E ats body with
    | some xer => resp.code = 200 ∧ resp.body = xer
    | none => resp.code = 400 ∧ resp.body ≠ ""

/-- **Single messages**: the handler answers as it should exactly when the body
denotes XER. -/
theorem postSingle_answered_iff (E : Externals V) (c : Codec) (req : Request) :
    Answered E c.req.decodeMessageframeType req.body ((postSingle E req).run c) ↔
      ∃ xer, xerOf E c.req.decodeMessageframeType req.body = some xer := by
  rw [run_postSingle, Answered]
  rcases hxer : xerOf E c.req.decodeMessageframeType req.body with - | xer
  · -- no response has the code 400
    rcases decodeHexData E "MessageFrame" .messageFrame c.req.decodeMessageframeType req.body
      with e | xml
    · simp
    · simp
  · rw [decodeHexData_of_xerOf hxer]
    simp

/-- A body without any digit leaves the handler as an exception. -/
theorem postSingle_throws_empty :
    (∃ c, (postSingle emptyHanded ⟨"text/plain", " \n"⟩).run configuredCodec = .error (.asn1Codec
      "failed attempt to decode MessageFrame hex string: string empty.") c) ∧
    ¬Answered emptyHanded .unalignedBasicPer " \n"
      ((postSingle emptyHanded ⟨"text/plain", " \n"⟩).run configuredCodec) := by
  constructor
  · refine ⟨configuredCodec.decoding " \n", ?_⟩
    simp [run_postSingle, decodeHexData, removeSpaces, isspace]
  · rintro ⟨resp, c, h, -⟩
    exact absurd h (by simp [run_postSingle, decodeHexData, removeSpaces, isspace])

end Asn1Codec
