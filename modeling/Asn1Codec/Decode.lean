/-
Asn1Codec/Decode.lean

decode_message and the two functions that turn hex into the XML of one layer.

The bytes child is removed before anything is decoded.  Then two stages
follow, each under a flag of its own: the 1609.2 stage replaces the hex string
by that of the unsecured data, and the MessageFrame stage puts the decoded
element under data.  Only the second writes to the document.

`decodeMessage` follows the statements on the members of the codec.
`decodeOutcome` is the same conversion as a function of the requirements and
the document, and `decodeMessage_tells` says that nothing else matters.
-/
import Asn1Codec.Hex
import Asn1Codec.Requirements

namespace Asn1Codec

open Xml (Node Loc parseDefault)
open Xml.Node

variable {V : Type}

/-! ### Decoding the hex of one layer -/

/-- `erroross << what << description() << " at offset " << offset`. -/
def ParseError.text (what : String) (e : ParseError) : String :=
  what ++ e.description ++ " at offset " ++ toString e.offset

/-- The end of the text about a decoding that failed after `n` bytes. -/
def successfullyDecoded (n : ℕ) : String :=
  " Successfully decoded " ++ toString n ++ " bytes."

/-- The body that decode_1609dot2_data and decode_messageframe_data share. -/
def decodeHexData (E : Externals V) (label : String) (td : AsnType) (ats : TransferSyntax)
    (dataAsHex : String) : Except Exn String :=
  let hex := removeSpaces dataAsHex
  if hex = "" then
    .error (.asn1Codec ("failed attempt to decode " ++ label ++ " hex string: string empty."))
  else
    match hexToBytes hex [] with
    | (false, _) =>
      .error (.asn1Codec
        ("failed attempt to decode " ++ label ++ " hex string: cannot convert to bytes."))
    | (true, byteBuffer) =>
      match E.asnDecode ats td byteBuffer with
      | .fail consumed =>
        .error (.asn1Codec ("failed ASN.1 binary decoding of element " ++ td.name ++
          ": bad data." ++ successfullyDecoded consumed))
      | .wmore consumed =>
        .error (.asn1Codec ("failed ASN.1 binary decoding of element " ++ td.name ++
          ": more data expected." ++ successfullyDecoded consumed))
      | .ok v _ =>
        match E.asnCheckConstraints td v with
        | some errbuf =>
          .error (.asn1Codec
            ("failed ASN.1 constraints check of element " ++ td.name ++ ": " ++ errbuf))
        | none =>
          match E.xerEncode td v with
          | .error failedType =>
            .error (.asn1Codec
              ("failed ASN.1 XML encoding of " ++ td.name ++ " element " ++ failedType))
          | .ok xml => .ok xml

/-- Note a call of a layer's codec. -/
def logCall (op : UInt32) (ats : TransferSyntax) (data : String) : CodecM Unit :=
  modify fun c => { c with calls := c.calls ++ [⟨op, ats, data⟩] }

/-- decode_1609dot2_data. -/
def decode1609dot2Data (E : Externals V) (dataAsHex : String) : CodecM String := do
  let ats := (← get).req.decode1609dot2Type
  logCall IEEE1609DOT2 ats dataAsHex
  liftExcept (decodeHexData E "IEEE 1609.2" .ieee1609Dot2Data ats dataAsHex)

/-- decode_messageframe_data. -/
def decodeMessageframeData (E : Externals V) (dataAsHex : String) : CodecM String := do
  let ats := (← get).req.decodeMessageframeType
  logCall J2735MESSAGEFRAME ats dataAsHex
  liftExcept (decodeHexData E "MessageFrame" .messageFrame ats dataAsHex)

/-! ### The two stages -/

mutual

/-- The first element of the name `s` in document order, at the node or below
it. -/
def firstElement (s : String) : Node → Option Node
  | .element t as cs => if t = s then some (.element t as cs) else firstDescendant s cs
  | .document cs => firstDescendant s cs
  | _ => none

/-- The same among the nodes of a list and below them. -/
def firstDescendant (s : String) : List Node → Option Node
  | [] => none
  | n :: ns => (firstElement s n).or (firstDescendant s ns)

end

/-- `ieee1609dot2_unsecuredData_query`: Ieee1609Dot2Data/content//unsecuredData. -/
def ieee1609dot2UnsecuredDataQuery (doc : Node) : Option Node :=
  (doc.children.filter (named "Ieee1609Dot2Data")).findSome? fun d =>
    (d.children.filter (named "content")).findSome? fun content =>
      firstDescendant "unsecuredData" content.children

/-- `internal_doc.document_element()`. -/
def documentElement (doc : Node) : Option Node := doc.children.find? isElement

/-- `append_copy`, which does nothing for a null node. -/
def appendCopy (c : Option Node) (n : Node) : Node :=
  match c with
  | none => n
  | some c => n.appendChild c

/-- The block under `if (decode_1609dot2)`: the hex string of the next layer. -/
def decode1609dot2Layer (E : Externals V) (hstr : String) : CodecM String := do
  let xb ← decode1609dot2Data E hstr
  modify fun c => { c with internalDoc := (E.loadBuffer parseDefault xb).2 }
  match (E.loadBuffer parseDefault xb).1 with
  | some e =>
    throw (.asn1Codec (e.text
      "IEEE 1609.2 decoded XER cannot be parsed/loaded as a valid document: "))
  | none =>
    match (ieee1609dot2UnsecuredDataQuery (← get).internalDoc).bind text? with
    | none =>
      throw (.asn1Codec "IEEE 1609.2 internal XER unsecuredData element could not be found.")
    | some text =>
      modify fun c => { c with internalDoc := .document [] }
      pure text

def modifyInputDoc (f : Node → Node) : CodecM Unit :=
  modify fun c => { c with inputDoc := f c.inputDoc }

/-- `payload_node.parent().child("dataType").text().set(..)`, or throw. -/
def setDataType (payloadNode : Loc) (dt : Asn1DataType) (what : String) : CodecM Unit := do
  match ((← get).inputDoc.at? payloadNode.dropLast).bind fun n => n.child "dataType" with
  | none => throw (.missingInputElement what)
  | some _ =>
    modifyInputDoc (mapAt (mapChild "dataType" (setText (asn1datatypes dt))) payloadNode.dropLast)

/-- The block under `if (success && decode_messageframe)`. -/
def decodeMessageframeLayer (E : Externals V) (payloadNode : Loc) (hstr : String) :
    CodecM Unit := do
  let xb ← decodeMessageframeData E hstr
  modifyInputDoc (mapAt (setText "") payloadNode)
  modify fun c => { c with internalDoc := (E.loadBuffer parseDefault xb).2 }
  match (E.loadBuffer parseDefault xb).1 with
  | some e =>
    throw (.asn1Codec (e.text
      "J2735 decoded XER cannot be parsed/loaded as a valid document: "))
  | none =>
    let element := documentElement (← get).internalDoc
    modifyInputDoc (mapAt (appendCopy element) payloadNode)
    setDataType payloadNode .xml "Could not update the dataType field of the payload section."

/-- `input_doc.save(output_message_stream, "", pugi::format_raw)`. -/
def saveInputDoc : CodecM Unit :=
  modify fun c => { c with outputMessageStream := c.outputMessageStream ++ save c.inputDoc }

/-- decode_message. -/
def decodeMessage (E : Externals V) (payloadNode : Loc) : CodecM Bool := do
  let c ← get
  if c.req.decode1609dot2 = false ∧ c.req.decodeMessageframe = false then
    throw (.missingInputElement
      "An decoder was not specified in the encodingType tag that this module understands.")
  match (c.inputDoc.at? payloadNode).bind fun n => n.childText? "bytes" with
  | none => throw (.missingInputElement "failure accessing input XML bytes node.")
  | some text =>
    modifyInputDoc (mapAt (removeChild "bytes") payloadNode)
    let hstr ← if c.req.decode1609dot2 then decode1609dot2Layer E text else pure text
    if c.req.decodeMessageframe then decodeMessageframeLayer E payloadNode hstr
    saveInputDoc
    pure true

/-! ### The conversion as a function -/

/-- The 1609.2 stage: the hex string of the next layer. -/
def unsecuredData (E : Externals V) (ats : TransferSyntax) (hstr : String) : Except Exn String :=
  match decodeHexData E "IEEE 1609.2" .ieee1609Dot2Data ats hstr with
  | .error e => .error e
  | .ok xb =>
    match E.loadBuffer parseDefault xb with
    | (some e, _) =>
      .error (.asn1Codec (e.text
        "IEEE 1609.2 decoded XER cannot be parsed/loaded as a valid document: "))
    | (none, doc) =>
      match (ieee1609dot2UnsecuredDataQuery doc).bind text? with
      | none =>
        .error (.asn1Codec "IEEE 1609.2 internal XER unsecuredData element could not be found.")
      | some text => .ok text

/-- The 1609.2 stage with the document it is run on. -/
def unwrapOutcome (E : Externals V) (ats : TransferSyntax) (hstr : String) (doc : Node) :
    Outcome String :=
  ⟨doc, [⟨IEEE1609DOT2, ats, hstr⟩], "", unsecuredData E ats hstr⟩

/-- The setting of payload/dataType. -/
def dataTypeOutcome (p : Loc) (dt : Asn1DataType) (what : String) (doc : Node) : Outcome Unit :=
  if ((doc.at? p.dropLast).bind fun n => n.child "dataType").isNone then
    .fail doc (.missingInputElement what)
  else .done (mapAt (mapChild "dataType" (setText (asn1datatypes dt))) p.dropLast doc) ()

/-- The MessageFrame stage. -/
def insertOutcome (E : Externals V) (ats : TransferSyntax) (p : Loc) (hstr : String) (doc : Node) :
    Outcome Unit :=
  let call : Call := ⟨J2735MESSAGEFRAME, ats, hstr⟩
  match decodeHexData E "MessageFrame" .messageFrame ats hstr with
  | .error e => ⟨doc, [call], "", .error e⟩
  | .ok xb =>
    match E.loadBuffer parseDefault xb with
    | (some e, _) =>
      ⟨mapAt (setText "") p doc, [call], "", .error (.asn1Codec (e.text
        "J2735 decoded XER cannot be parsed/loaded as a valid document: "))⟩
    | (none, x) =>
      (Outcome.mk (mapAt (appendCopy (documentElement x)) p (mapAt (setText "") p doc)) [call] ""
        (.ok ())).andThen fun doc _ =>
      dataTypeOutcome p .xml "Could not update the dataType field of the payload section." doc

/-- decode_message as a function of the requirements, the location of data and
the document. -/
def decodeOutcome (E : Externals V) (r : Requirements) (p : Loc) (doc : Node) : Outcome Bool :=
  if r.decode1609dot2 = false ∧ r.decodeMessageframe = false then
    .fail doc (.missingInputElement
      "An decoder was not specified in the encodingType tag that this module understands.")
  else
    match (doc.at? p).bind fun n => n.childText? "bytes" with
    | none => .fail doc (.missingInputElement "failure accessing input XML bytes node.")
    | some text =>
      (if r.decode1609dot2 then
        unwrapOutcome E r.decode1609dot2Type text (mapAt (removeChild "bytes") p doc)
      else .done (mapAt (removeChild "bytes") p doc) text).andThen fun doc hstr =>
      (if r.decodeMessageframe then insertOutcome E r.decodeMessageframeType p hstr doc
      else .done doc ()).andThen fun doc _ => ⟨doc, [], save doc, .ok true⟩

/-! ### What a conversion throws and writes -/

/-- What the decoding of a layer throws is an Asn1CodecError. -/
theorem decodeHexData_error {E : Externals V} {label : String} {td : AsnType}
    {ats : TransferSyntax} {hex : String} {e : Exn}
    (h : decodeHexData E label td ats hex = .error e) : ∃ what, e = .asn1Codec what := by
  simp only [decodeHexData] at h
  split at h
  · exact ⟨_, (Except.error.inj h).symm⟩
  · split at h
    · exact ⟨_, (Except.error.inj h).symm⟩
    · split at h
      · exact ⟨_, (Except.error.inj h).symm⟩
      · exact ⟨_, (Except.error.inj h).symm⟩
      · split at h
        · exact ⟨_, (Except.error.inj h).symm⟩
        · split at h
          · exact ⟨_, (Except.error.inj h).symm⟩
          · exact absurd h (by simp)

theorem unsecuredData_error {E : Externals V} {ats : TransferSyntax} {hstr : String} {e : Exn}
    (h : unsecuredData E ats hstr = .error e) : ∃ what, e = .asn1Codec what := by
  unfold unsecuredData at h
  split at h
  · rename_i e' hx
    obtain rfl := Except.error.inj h
    exact decodeHexData_error hx
  · split at h
    · exact ⟨_, (Except.error.inj h).symm⟩
    · split at h
      · exact ⟨_, (Except.error.inj h).symm⟩
      · exact absurd h (by simp)

theorem quiet_unwrapOutcome (E : Externals V) (ats : TransferSyntax) (hstr : String) (doc : Node) :
    (unwrapOutcome E ats hstr doc).Quiet := by
  refine ⟨rfl, fun h => ?_⟩
  obtain ⟨what, hwhat⟩ := unsecuredData_error h
  exact absurd hwhat (by simp)

theorem quiet_dataTypeOutcome (p : Loc) (dt : Asn1DataType) (what : String) (doc : Node) :
    (dataTypeOutcome p dt what doc).Quiet := by
  rw [dataTypeOutcome]
  split
  · exact Outcome.quiet_fail doc (by simp)
  · exact Outcome.quiet_done _ _

theorem quiet_insertOutcome (E : Externals V) (ats : TransferSyntax) (p : Loc) (hstr : String)
    (doc : Node) : (insertOutcome E ats p hstr doc).Quiet := by
  simp only [insertOutcome]
  split
  · rename_i e hx
    refine ⟨rfl, fun h => ?_⟩
    obtain ⟨what, rfl⟩ := decodeHexData_error hx
    exact absurd h (by simp)
  · split
    · exact ⟨rfl, by simp⟩
    · apply Outcome.Quiet.andThen ⟨rfl, by simp⟩
      intro doc _
      apply quiet_dataTypeOutcome

theorem saves_decodeOutcome (E : Externals V) (r : Requirements) (p : Loc) (doc : Node) :
    (decodeOutcome E r p doc).Saves := by
  rw [decodeOutcome]
  split
  · exact Outcome.saves_fail doc (by simp)
  · split
    · exact Outcome.saves_fail doc (by simp)
    · apply Outcome.Quiet.saves
      · split
        · apply quiet_unwrapOutcome
        · apply Outcome.quiet_done
      · intro doc hstr
        apply Outcome.Quiet.saves
        · split
          · apply quiet_insertOutcome
          · apply Outcome.quiet_done
        · intro doc _
          exact ⟨rfl, by simp⟩

/-! ### Conversions that succeed -/

/-- A data type that could be set reads back. -/
theorem dataTypeOutcome_ok {p : Loc} {dt : Asn1DataType} {what : String} {doc : Node}
    (h : (dataTypeOutcome p dt what doc).result = .ok ()) :
    (dataTypeOutcome p dt what doc).doc =
      mapAt (mapChild "dataType" (setText (asn1datatypes dt))) p.dropLast doc ∧
    (dataTypeOutcome p dt what doc).calls = [] ∧
    ∃ n, (dataTypeOutcome p dt what doc).doc.at? p.dropLast = some n ∧
      n.childText? "dataType" = some (asn1datatypes dt) := by
  unfold dataTypeOutcome at h ⊢
  rcases hn : (doc.at? p.dropLast).bind fun n => n.child "dataType" with - | t
  · rw [hn] at h
    exact absurd h (by simp [Outcome.fail])
  · obtain ⟨n, hat, ht⟩ := Option.bind_eq_some_iff.mp hn
    refine ⟨rfl, rfl, n.mapChild "dataType" (setText (asn1datatypes dt)), ?_, ?_⟩
    · show (mapAt _ p.dropLast doc).at? p.dropLast = _
      rw [at?_mapAt, hat]
      rfl
    · rw [childText?, child_mapChild _ _ (fun m => named_setText ..), ht]
      exact text?_setText (child_named ht) _

theorem dataTypeOutcome_error {p : Loc} {dt : Asn1DataType} {what : String} {doc : Node} {e : Exn}
    (h : (dataTypeOutcome p dt what doc).result = .error e) : e = .missingInputElement what := by
  unfold dataTypeOutcome at h
  split at h
  · exact (Except.error.inj h).symm
  · exact absurd h (by simp [Outcome.done])

/-- The layer's own decoding: the hex denotes bytes, which are decoded under the
rule to a value that satisfies the constraints of the type and has this XER. -/
def Decodes (E : Externals V) (td : AsnType) (ats : TransferSyntax) (hex xb : String) : Prop :=
  ∃ bytes v consumed, hexToBytes (removeSpaces hex) [] = (true, bytes) ∧
    E.asnDecode ats td bytes = .ok v consumed ∧ E.asnCheckConstraints td v = none ∧
    E.xerEncode td v = .ok xb

/-- The hex of a 1609.2 layer, and the hex of the unsecured data in it. -/
def Unwraps (E : Externals V) (ats : TransferSyntax) (hex inner : String) : Prop :=
  ∃ xb x, Decodes E .ieee1609Dot2Data ats hex xb ∧ E.loadBuffer parseDefault xb = (none, x) ∧
    (ieee1609dot2UnsecuredDataQuery x).bind text? = some inner

theorem decodeHexData_ok {E : Externals V} {label : String} {td : AsnType}
    {ats : TransferSyntax} {hex xb : String} (h : decodeHexData E label td ats hex = .ok xb) :
    Decodes E td ats hex xb := by
  simp only [decodeHexData] at h
  split at h
  · exact absurd h (by simp)
  · split at h
    · exact absurd h (by simp)
    · rename_i bytes hbytes
      split at h
      · exact absurd h (by simp)
      · exact absurd h (by simp)
      · rename_i v consumed hv
        split at h
        · exact absurd h (by simp)
        · rename_i hc
          split at h
          · exact absurd h (by simp)
          · rename_i xml hx
            obtain rfl := Except.ok.inj h
            exact ⟨bytes, v, consumed, hbytes, hv, hc, hx⟩

theorem unsecuredData_ok {E : Externals V} {ats : TransferSyntax} {hex inner : String}
    (h : unsecuredData E ats hex = .ok inner) : Unwraps E ats hex inner := by
  unfold unsecuredData at h
  split at h
  · exact absurd h (by simp)
  · rename_i xb hxb
    split at h
    · exact absurd h (by simp)
    · rename_i x hload
      split at h
      · exact absurd h (by simp)
      · rename_i text htext
        obtain rfl := Except.ok.inj h
        exact ⟨xb, x, decodeHexData_ok hxb, hload, htext⟩

/-- The MessageFrame stage: the text of data is blanked, and the element of the
decoded document is appended. -/
theorem insertOutcome_ok {E : Externals V} {ats : TransferSyntax} {p : Loc} {hstr : String}
    {doc : Node} (h : (insertOutcome E ats p hstr doc).result = .ok ()) :
    ∃ xb x, decodeHexData E "MessageFrame" .messageFrame ats hstr = .ok xb ∧
      E.loadBuffer parseDefault xb = (none, x) ∧
      (insertOutcome E ats p hstr doc).calls = [⟨J2735MESSAGEFRAME, ats, hstr⟩] ∧
      (insertOutcome E ats p hstr doc).doc =
        mapAt (mapChild "dataType" (setText (asn1datatypes .xml))) p.dropLast
          (mapAt (appendCopy (documentElement x) ∘ setText "") p doc) ∧
      ∃ n, (insertOutcome E ats p hstr doc).doc.at? p.dropLast = some n ∧
        n.childText? "dataType" = some (asn1datatypes .xml) := by
  rcases hx : decodeHexData E "MessageFrame" .messageFrame ats hstr with e | xb
  · exact absurd h (by simp [insertOutcome, hx])
  rcases hl : E.loadBuffer parseDefault xb with ⟨- | e, x⟩
  · simp only [insertOutcome, hx, hl] at h ⊢
    obtain ⟨_, -, hset, hdoc, hcalls, -⟩ := Outcome.andThen_ok h
    obtain ⟨hend, hnone, hread⟩ := dataTypeOutcome_ok hset
    refine ⟨xb, x, rfl, hl, ?_, ?_, ?_⟩
    · rw [hcalls, hnone]
      rfl
    · rw [hdoc, hend, mapAt_mapAt]
    · rw [hdoc]
      exact hread
  · exact absurd h (by simp [insertOutcome, hx, hl])

/-- Decoding: the hex string is that of data or of the 1609.2 layer, and data
loses its bytes child in any case. -/
theorem decodeOutcome_ok {E : Externals V} {r : Requirements} {p : Loc} {doc : Node} {b : Bool}
    (h : (decodeOutcome E r p doc).result = .ok b) :
    ∃ data text hstr, doc.at? p = some data ∧ data.childText? "bytes" = some text ∧
      (r.decode1609dot2 = true ∨ r.decodeMessageframe = true) ∧
      (if r.decode1609dot2 then unsecuredData E r.decode1609dot2Type text = .ok hstr
        else hstr = text) ∧
      (decodeOutcome E r p doc).calls =
        (if r.decode1609dot2 then [⟨IEEE1609DOT2, r.decode1609dot2Type, text⟩] else []) ++
        (if r.decodeMessageframe then [⟨J2735MESSAGEFRAME, r.decodeMessageframeType, hstr⟩]
          else []) ∧
      (if r.decodeMessageframe then
        let o := insertOutcome E r.decodeMessageframeType p hstr (mapAt (removeChild "bytes") p doc)
        o.result = .ok () ∧ (decodeOutcome E r p doc).doc = o.doc
      else (decodeOutcome E r p doc).doc = mapAt (removeChild "bytes") p doc) := by
  by_cases hreq : r.decode1609dot2 = false ∧ r.decodeMessageframe = false
  · exact absurd h (by simp [decodeOutcome, hreq, Outcome.fail])
  rcases hb : (doc.at? p).bind fun n => n.childText? "bytes" with - | text
  · exact absurd h (by simp [decodeOutcome, hreq, hb, Outcome.fail])
  obtain ⟨data, hdata, htext⟩ := Option.bind_eq_some_iff.mp hb
  have hstage : r.decode1609dot2 = true ∨ r.decodeMessageframe = true := by
    rcases h16 : r.decode1609dot2 with - | -
    · rcases hmf : r.decodeMessageframe with - | -
      · exact absurd ⟨h16, hmf⟩ hreq
      · exact Or.inr rfl
    · exact Or.inl rfl
  let stripped := mapAt (removeChild "bytes") p doc
  -- the two stages
  let o₁ := if r.decode1609dot2 then unwrapOutcome E r.decode1609dot2Type text stripped
    else .done stripped text
  let o₂ := fun (doc : Node) hstr =>
    if r.decodeMessageframe then insertOutcome E r.decodeMessageframeType p hstr doc
    else .done doc ()
  have hout : decodeOutcome E r p doc = o₁.andThen fun doc hstr => (o₂ doc hstr).andThen
      fun doc _ => ⟨doc, [], save doc, .ok true⟩ := by
    rw [decodeOutcome, if_neg hreq, hb]
  rw [hout] at h ⊢
  obtain ⟨hstr, h₁, hrest, hdoc, hcalls, -⟩ := Outcome.andThen_ok h
  obtain ⟨_, h₂, -, hdoc', hcalls', -⟩ := Outcome.andThen_ok hrest
  -- the first stage does not write to the document
  have hstripped : o₁.doc = stripped := by
    simp only [o₁]
    split <;> rfl
  rw [hdoc, hcalls, hdoc', hcalls']
  rw [hstripped] at h₂ ⊢
  refine ⟨data, text, hstr, hdata, htext, hstage, ?_, ?_, ?_⟩
  · rcases h16 : r.decode1609dot2 with - | -
    · simp only [o₁, h16] at h₁
      exact (Except.ok.inj h₁).symm
    · simp only [o₁, h16, if_true] at h₁ ⊢
      exact h₁
  · have hcall₁ : o₁.calls =
        if r.decode1609dot2 then [⟨IEEE1609DOT2, r.decode1609dot2Type, text⟩] else [] := by
      simp only [o₁]
      split <;> rfl
    have hcall₂ : (o₂ stripped hstr).calls =
        if r.decodeMessageframe then [⟨J2735MESSAGEFRAME, r.decodeMessageframeType, hstr⟩]
        else [] := by
      rcases hmf : r.decodeMessageframe with - | -
      · simp [o₂, hmf, Outcome.done]
      · simp only [o₂, hmf] at h₂ ⊢
        obtain ⟨_, _, _, _, hone, _⟩ := insertOutcome_ok h₂
        exact hone
    rw [hcall₁, hcall₂, List.append_nil]
  · rcases hmf : r.decodeMessageframe with - | -
    · simp [o₂, hmf, Outcome.done, stripped]
    · simp only [o₂, hmf] at h₂ ⊢
      exact ⟨h₂, rfl⟩

/-! ### The members follow the function -/

/-- A run from `c` ends as `o` says and changes `internal_doc` besides. -/
def Outcome.Ends {α : Type} (o : Outcome α) (c : Codec) (x : CodecM α) : Prop :=
  ∃ d, x.run c = (liftExcept o.result).run { o.apply c with internalDoc := d }

theorem ends_done {α : Type} (c : Codec) (a : α) :
    (Outcome.done c.inputDoc a).Ends c (pure a) := by
  refine ⟨c.internalDoc, ?_⟩
  simp [Outcome.done, Outcome.apply]

/-- Accounts compose as the methods do. -/
theorem Outcome.Ends.andThen {α β : Type} {o : Outcome α} {f : Node → α → Outcome β} {c : Codec}
    {x : CodecM α} {g : α → CodecM β} (hx : o.Ends c x)
    (hg : ∀ a d, (f o.doc a).Ends { o.apply c with internalDoc := d } (g a)) :
    (o.andThen f).Ends c (x >>= g) := by
  obtain ⟨d, hd⟩ := hx
  rcases ho : o.result with e | a
  · refine ⟨d, ?_⟩
    simp [Outcome.andThen, Outcome.apply, hd, ho]
  · obtain ⟨d', hd'⟩ := hg a d
    refine ⟨d', ?_⟩
    simp only [EStateM.run_bind, hd, ho, run_liftExcept_ok, hd']
    simp [Outcome.andThen, Outcome.apply, ho, String.append_assoc]

theorem Outcome.Ends.tells {α : Type} {o : Outcome α} {c : Codec} {x : CodecM α}
    (h : o.Ends c x) : o.Tells c (x.run c) := by
  obtain ⟨d, hd⟩ := h
  rw [hd]
  rcases ho : o.result with e | a
  · exact ⟨ho, rfl⟩
  · exact ⟨ho, rfl⟩

/-- The 1609.2 block. -/
theorem ends_decode1609dot2Layer (E : Externals V) (hstr : String) (c : Codec) :
    (unwrapOutcome E c.req.decode1609dot2Type hstr c.inputDoc).Ends c
      (decode1609dot2Layer E hstr) := by
  rcases hx : decodeHexData E "IEEE 1609.2" .ieee1609Dot2Data c.req.decode1609dot2Type hstr
    with e | xb
  · refine ⟨c.internalDoc, ?_⟩
    simp [unwrapOutcome, Outcome.apply, decode1609dot2Layer, decode1609dot2Data, logCall,
      unsecuredData, hx]
  rcases hl : E.loadBuffer parseDefault xb with ⟨- | e, doc⟩
  · rcases hq : (ieee1609dot2UnsecuredDataQuery doc).bind text? with - | text
    · refine ⟨doc, ?_⟩
      simp [unwrapOutcome, Outcome.apply, decode1609dot2Layer, decode1609dot2Data, logCall,
        unsecuredData, hx, hl, hq]
    · refine ⟨.document [], ?_⟩
      simp [unwrapOutcome, Outcome.apply, decode1609dot2Layer, decode1609dot2Data, logCall,
        unsecuredData, hx, hl, hq]
  · refine ⟨doc, ?_⟩
    simp [unwrapOutcome, Outcome.apply, decode1609dot2Layer, decode1609dot2Data, logCall,
      unsecuredData, hx, hl]

theorem run_setDataType (p : Loc) (dt : Asn1DataType) (what : String) (c : Codec) :
    let o := dataTypeOutcome p dt what c.inputDoc
    (setDataType p dt what).run c = (liftExcept o.result).run (o.apply c) := by
  intro o
  rcases h : (c.inputDoc.at? p.dropLast).bind fun n => n.child "dataType" with - | n <;>
    simp [o, dataTypeOutcome, setDataType, modifyInputDoc, Outcome.apply, Outcome.fail,
      Outcome.done, h]

/-- The MessageFrame block. -/
theorem ends_decodeMessageframeLayer (E : Externals V) (p : Loc) (hstr : String) (c : Codec) :
    (insertOutcome E c.req.decodeMessageframeType p hstr c.inputDoc).Ends c
      (decodeMessageframeLayer E p hstr) := by
  rcases hx : decodeHexData E "MessageFrame" .messageFrame c.req.decodeMessageframeType hstr
    with e | xb
  · refine ⟨c.internalDoc, ?_⟩
    simp [insertOutcome, Outcome.apply, decodeMessageframeLayer, decodeMessageframeData,
      logCall, hx]
  rcases hl : E.loadBuffer parseDefault xb with ⟨- | e, doc⟩
  · refine ⟨doc, ?_⟩
    simp [insertOutcome, Outcome.apply, Outcome.andThen, decodeMessageframeLayer,
      decodeMessageframeData, logCall, modifyInputDoc, run_setDataType, hx, hl]
  · refine ⟨doc, ?_⟩
    simp [insertOutcome, Outcome.apply, decodeMessageframeLayer, decodeMessageframeData,
      logCall, modifyInputDoc, hx, hl]

theorem ends_saveInputDoc (c : Codec) :
    (Outcome.mk c.inputDoc [] (save c.inputDoc) (.ok true)).Ends c
      (do saveInputDoc; pure true) := by
  refine ⟨c.internalDoc, ?_⟩
  simp [saveInputDoc, Outcome.apply]

/-- **decode_message does what `decodeOutcome` tells.** -/
theorem decodeMessage_tells (E : Externals V) (p : Loc) (c : Codec) :
    (decodeOutcome E c.req p c.inputDoc).Tells c ((decodeMessage E p).run c) := by
  by_cases hreq : c.req.decode1609dot2 = false ∧ c.req.decodeMessageframe = false
  · simp [decodeMessage, decodeOutcome, hreq, Outcome.Tells, Outcome.fail, Outcome.apply]
  rcases hb : (c.inputDoc.at? p).bind fun n => n.childText? "bytes" with - | text
  · simp [decodeMessage, decodeOutcome, hreq, hb, Outcome.Tells, Outcome.fail, Outcome.apply]
  -- the state in which the two stages start
  let c₁ : Codec := { c with inputDoc := mapAt (removeChild "bytes") p c.inputDoc }
  let stages : CodecM Bool :=
    (if c.req.decode1609dot2 then decode1609dot2Layer E text else pure text) >>= fun hstr =>
      (if c.req.decodeMessageframe then decodeMessageframeLayer E p hstr else pure ()) >>=
        fun _ => do saveInputDoc; pure true
  have hrun : (decodeMessage E p).run c = stages.run c₁ := by
    rcases h16 : c.req.decode1609dot2 with - | - <;>
      rcases hmf : c.req.decodeMessageframe with - | - <;>
      simp_all [decodeMessage, modifyInputDoc, stages, c₁]
  have hends : (decodeOutcome E c.req p c.inputDoc).Ends c₁ stages := by
    rw [decodeOutcome, if_neg hreq, hb]
    apply Outcome.Ends.andThen
    · split
      · exact ends_decode1609dot2Layer E text c₁
      · exact ends_done c₁ text
    · intro hstr d
      apply Outcome.Ends.andThen
      · split
        · apply ends_decodeMessageframeLayer
        · apply ends_done
      · intro _ d'
        apply ends_saveInputDoc
  rw [hrun]
  exact hends.tells

end Asn1Codec
