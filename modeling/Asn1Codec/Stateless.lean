/-
Asn1Codec/Stateless.lean

The codec keeps no state from one message to the next.

Much is left in the members after a message: three documents, the flags and
rules, the protocol, the hex data, the loop variables, and after an exception
any of these half-updated.  `handleMessage_real` reduces the question to the
two members that a record depends on, the mode, which no method changes, and
the error template, which every report about a request changes in place.  The
reports absorb one another, so the template that a report starts from can be
taken to be the one that was configured.
-/
import Asn1Codec.Process

namespace Asn1Codec

open Xml (Node)
open Xml.Node

variable {V : Type}

/-! ### A history of real messages -/

/-- One turn of the consume loop on a real message, up to the publication: the
message is handled, and the stream is cleared if the message is not empty. -/
def turn (E : Externals V) (m : Message) (now : Clock) (c : Codec) : Codec :=
  let c := handleMessage E m now c
  if m.len > 0 then { c with outputMessageStream := "" } else c

/-- Real messages, one after the other, each with its readings of the clock. -/
def history (E : Externals V) : List (Message × Clock) → Codec → Codec
  | [], c => c
  | (m, now) :: h, c => history E h (turn E m now c)

/-! ### What a turn keeps -/

/-- The template is `e₀`, or `e₀` with the report of some request. -/
def Reported (e₀ e : Node) : Prop :=
  e = e₀ ∨ ∃ what now, e = annotate (requestNote what now) e₀

theorem reported_annotate {e₀ e : Node} (hone : AtMostOneBytes e₀) (h : Reported e₀ e)
    (what : String) (now : Clock) :
    annotate (requestNote what now) e = annotate (requestNote what now) e₀ := by
  rcases h with rfl | ⟨what', now', rfl⟩
  · rfl
  · have hupdate : (requestNote what' now').updateTime = (requestNote what now).updateTime := rfl
    exact annotate_annotate hupdate hone

theorem reported_errorDocAfter (E : Externals V) (decode : Bool) {e₀ e : Node}
    (hone : AtMostOneBytes e₀) (h : Reported e₀ e) (now : Clock) (payload : String) :
    Reported e₀ (errorDocAfter E decode e now payload) := by
  rw [errorDocAfter]
  split
  · exact h
  · exact h
  · exact Or.inr ⟨_, now, reported_annotate hone h _ now⟩

/-- The members a record depends on, after `c₀` has handled some messages. -/
structure Carried (c₀ c : Codec) : Prop where
  mode : c.decodeFunctionality = c₀.decodeFunctionality
  template : Reported c₀.errorDoc c.errorDoc

theorem carried_turn (E : Externals V) {c₀ c : Codec} (hone : AtMostOneBytes c₀.errorDoc)
    {m : Message} (hm : m.err = .noError) (now : Clock) (h : Carried c₀ c) :
    Carried c₀ (turn E m now c) := by
  have hreal := handleMessage_real E hm now c
  have hmode : (handleMessage E m now c).lasting.decodeFunctionality = c.decodeFunctionality := by
    rw [hreal]
    rfl
  have htemplate : (handleMessage E m now c).lasting.errorDoc =
      errorDocAfter E c.decodeFunctionality c.errorDoc now m.payload := by
    rw [hreal]
    rfl
  have hturn : Carried c₀ (handleMessage E m now c) := by
    refine ⟨hmode.trans h.mode, ?_⟩
    show Reported c₀.errorDoc (handleMessage E m now c).lasting.errorDoc
    rw [htemplate]
    exact reported_errorDocAfter E _ hone h.template now m.payload
  -- publishing or dropping the stream changes neither
  rw [turn]
  split
  · exact ⟨hturn.mode, hturn.template⟩
  · exact hturn

theorem carried_history (E : Externals V) {c₀ : Codec} (hone : AtMostOneBytes c₀.errorDoc)
    (h : List (Message × Clock)) (hreal : ∀ x ∈ h, x.1.err = .noError) {c : Codec}
    (hc : Carried c₀ c) : Carried c₀ (history E h c) := by
  induction h generalizing c with
  | nil => exact hc
  | cons x h ih =>
    obtain ⟨m, now⟩ := x
    exact ih (fun y hy => hreal y (by simp [hy]))
      (carried_turn E hone (hreal (m, now) (by simp)) now hc)

/-! ### The record of a message -/

/-- The record depends on what is carried only. -/
theorem recordDoc_eq (E : Externals V) (decode : Bool) {e₀ e : Node} (hone : AtMostOneBytes e₀)
    (h : Reported e₀ e) (now : Clock) (payload : String) :
    recordDoc E decode e now payload = recordDoc E decode e₀ now payload := by
  unfold recordDoc
  simp only
  split
  · rfl
  · rfl
  · exact reported_annotate hone h _ now

/-- **No state is kept from one message to the next.**  After any history of
real messages, a further message appends to the empty stream exactly one
document, the one the codec writes for it as it was configured. -/
theorem handleMessage_history (E : Externals V) (configured : Codec)
    (hone : AtMostOneBytes configured.errorDoc) (h : List (Message × Clock))
    (hreal : ∀ x ∈ h, x.1.err = .noError) (m : Message) (hm : m.err = .noError) (now : Clock) :
    ∃ doc : Node,
      (handleMessage E m now
        { history E h configured with outputMessageStream := "" }).outputMessageStream =
          save doc ∧
      (handleMessage E m now
        { configured with outputMessageStream := "" }).outputMessageStream = save doc := by
  have hc := carried_history E hone h hreal (c := configured) ⟨rfl, Or.inl rfl⟩
  -- the stream depends on the codec through the mode and the template alone
  have hstream (c : Codec) : (handleMessage E m now
      { c with outputMessageStream := "" }).outputMessageStream =
      save (recordDoc E c.decodeFunctionality c.errorDoc now m.payload) := by
    show (handleMessage E m now
      { c with outputMessageStream := "" }).lasting.outputMessageStream = _
    rw [handleMessage_real E hm now]
    exact String.empty_append ..
  refine ⟨recordDoc E configured.decodeFunctionality configured.errorDoc now m.payload, ?_, ?_⟩
  · rw [hstream, hc.mode, recordDoc_eq E _ hone hc.template]
  · exact hstream configured

/-- Libraries that find nothing in any buffer, as the XML parser does in an
empty one. -/
def emptyHanded : Externals Unit where
  loadBuffer _ _ := (some ⟨"No document element found", 0⟩, .document [])
  asnDecode _ _ _ := .wmore 0
  asnCheckConstraints _ _ := none
  xerEncode td _ := .error td.name
  xerDecode _ _ := .wmore 0
  asnEncode _ td _ := .error td.name

/-- An error template with the places add_error_xml fills in. -/
def errorTemplate : Node :=
  .document [.element "OdeAsn1Data" []
    [.element "metadata" []
      [.element "payloadType" [] [], .element "receivedAt" [] [], .element "generatedAt" [] []],
     .element "payload" []
      [.element "dataType" [] [], .element "data" [] [.element "bytes" [] []]]]]

/-- The places of config/Output.error.xml that the report fills in. -/
def outputError : Node :=
  .document [.element "OdeAsn1Data" []
    [.element "metadata" []
      [.element "payloadType" [] [], .element "receivedAt" [] [], .element "generatedAt" [] []],
     .element "payload" []
      [.element "dataType" [] [],
       .element "data" [] [.element "code" [] [], .element "message" [] []]]]]

theorem atMostOneBytes_outputError : AtMostOneBytes outputError := by
  intro d hd
  obtain rfl := Option.some.inj hd
  decide

/-- The codec as it is configured to decode, with a single partition. -/
def configuredCodec : Codec where
  bootstrap := true
  dataAvailable := true
  exitEof := false
  eofCnt := 0
  partitionCnt := 1
  msgRecvCount := 0
  msgSendCount := 0
  msgRecvBytes := 0
  msgSendBytes := 0
  inputDoc := .document []
  internalDoc := .document []
  errorDoc := errorTemplate
  decodeFunctionality := true
  req := .constructed
  currDecodeType := .invalid
  currOp := 0
  currNodePath := []
  payloadNode := []
  protocol := []
  hexData := []
  outputMessageStream := ""
  calls := []

theorem atMostOneBytes_errorTemplate : AtMostOneBytes errorTemplate := by
  intro d hd
  obtain rfl := Option.some.inj hd
  decide

/-! ### Records and the libraries that read them -/

/-- An element that holds a text. -/
def textElement (s v : String) : Node := .element s [] [.pcdata v]

/-- An entry of an encodings list: its element type and its encoding rule. -/
def encodingEntry (e : String × String) : Node :=
  .element "encodings" [] [textElement "elementType" e.1, textElement "encodingRule" e.2]

/-- A document with the given encodings list and data. -/
def encodingDoc (entries : List (String × String)) (data : Node) : Node :=
  .document [.element "OdeAsn1Data" []
    [.element "metadata" [] [.element "encodings" [] (entries.map encodingEntry)],
      .element "payload" [] [textElement "dataType" "us.dot.its.jpo.ode.model.OdeHexByteArray",
        data]]]

/-- A document with one byte to be decoded as the given types. -/
def bytesDoc (entries : List (String × String)) : Node :=
  encodingDoc entries (.element "data" [] [textElement "bytes" "00"])

/-- The message with the text of a document, without a declaration. -/
def messageOf (doc : Node) : Message := ⟨.noError, doc.print⟩

/-- The message of a document with a root has a text. -/
theorem len_messageOf (s : String) (as : List Xml.Attr) (cs : List Node) :
    0 < (messageOf (.document [.element s as cs])).len := by
  have hne : (messageOf (.document [.element s as cs])).payload ≠ "" := by
    show printAll _ ≠ ""
    rcases cs with - | ⟨c, cs⟩ <;> simp [printAll, print]
  exact Nat.pos_of_ne_zero fun h => hne (String.length_eq_zero_iff.mp h)

/-- Libraries that also read the message of one document. -/
def Externals.reading (E : Externals V) (doc : Node) : Externals V :=
  { E with
    loadBuffer := fun o s =>
      if o.parseTrimPcdata ∧ s = doc.print then (none, doc) else E.loadBuffer o s }

theorem load_reading (E : Externals V) (doc : Node) :
    (E.reading doc).loadBuffer xmlParseOptions (messageOf doc).payload = (none, doc) :=
  if_pos ⟨rfl, rfl⟩

/-- The XER of a type: an element of its name that holds unsecured data. -/
def xerElement (td : AsnType) : Node :=
  .element td.name [] [.element "content" [] [textElement "unsecuredData" "00"]]

/-- The type whose XER is a text. -/
def xerType (s : String) : Option AsnType :=
  [.messageFrame, .ieee1609Dot2Data, .advisorySituationData].find? fun td =>
    s = (xerElement td).print

/-- Libraries that decode any bytes, and read the XER that they write. -/
def decodingAny : Externals Unit :=
  { emptyHanded with
    loadBuffer := fun o s =>
      match xerType s with
      | some td => (none, .document [xerElement td])
      | none => emptyHanded.loadBuffer o s
    asnDecode := fun _ _ bytes => .ok () bytes.length
    xerEncode := fun td _ => .ok (xerElement td).print }

/-- They read the message of one document, too. -/
def decoding (doc : Node) : Externals Unit := decodingAny.reading doc

theorem load_decoding (doc : Node) :
    (decoding doc).loadBuffer xmlParseOptions (messageOf doc).payload = (none, doc) :=
  load_reading decodingAny doc

/-- A message that is decoded comes behind one like it and one that is no XML. -/
theorem handleMessage_history_decoded :
    let doc := bytesDoc [("MessageFrame", "UPER")]
    let c := history (decoding doc)
      [(messageOf doc, ⟨"t1", "t2"⟩), (⟨.noError, "x"⟩, ⟨"t3", "t4"⟩)] configuredCodec
    ∃ published : Node,
      (handleMessage (decoding doc) (messageOf doc) ⟨"t5", "t6"⟩
        { c with outputMessageStream := "" }).outputMessageStream = save published ∧
      (handleMessage (decoding doc) (messageOf doc) ⟨"t5", "t6"⟩
        { configuredCodec with outputMessageStream := "" }).outputMessageStream = save published :=
  handleMessage_history (decoding (bytesDoc [("MessageFrame", "UPER")])) configuredCodec
    atMostOneBytes_errorTemplate
    [(messageOf (bytesDoc [("MessageFrame", "UPER")]), ⟨"t1", "t2"⟩),
      (⟨.noError, "x"⟩, ⟨"t3", "t4"⟩)]
    (by simp [messageOf]) (messageOf (bytesDoc [("MessageFrame", "UPER")])) rfl ⟨"t5", "t6"⟩

end Asn1Codec
