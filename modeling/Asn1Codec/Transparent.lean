/-
Asn1Codec/Transparent.lean

A 1609.2 wrapper is transparent to decoding.

decode_message has one buffer `xb` for the XER of both layers, to which the
encoder of asn1c appends, and one scratch document.  `decodeMessageShared`
threads the buffer through the two stages as the source does, so that XER left
over from the outer layer would stand in front of that of the inner one;
`decodeMessageShared_eq` says that none is left.  The transparency is then a
matter of the inner stage, which sees the hex string and the payload section
and nothing else.
-/
import Asn1Codec.Stateless

namespace Asn1Codec

open Xml (Node Loc parseDefault)
open Xml.Node

variable {V : Type}

/-! ### The shared buffer -/

/-- decode_1609dot2_data on the buffer `xb`, to which its XER is appended. -/
def append1609dot2Data (E : Externals V) (dataAsHex xb : String) : CodecM String := do
  let xer ← decode1609dot2Data E dataAsHex
  pure (xb ++ xer)

/-- decode_messageframe_data on the buffer `xb`. -/
def appendMessageframeData (E : Externals V) (dataAsHex xb : String) : CodecM String := do
  let xer ← decodeMessageframeData E dataAsHex
  pure (xb ++ xer)

/-- The block under `if (decode_1609dot2)`: the next hex string and the buffer. -/
def shared1609dot2Layer (E : Externals V) (hstr xb : String) : CodecM (String × String) := do
  let xb ← append1609dot2Data E hstr xb
  modify fun c => { c with internalDoc := (E.loadBuffer parseDefault xb).2 }
  match (E.loadBuffer parseDefault xb).1 with
  | some e =>
    throw (.asn1Codec (e.text
      "IEEE 1609.2 decoded XER cannot be parsed/loaded as a valid document: "))
  | none =>
    match (ieee1609dot2UnsecuredDataQuery (← get).internalDoc).bind text? with
    | none =>
      throw (.asn1Codec "IEEE 1609.2 internal XER unsecuredData element could not be found.")
    | some text =>
      modify fun c => { c with internalDoc := .document [] }
      -- free(xb.buffer); xb = { 0,0,0 };
      pure (text, "")

/-- The block under `if (success && decode_messageframe)`. -/
def sharedMessageframeLayer (E : Externals V) (payloadNode : Loc) (hstr xb : String) :
    CodecM Unit := do
  let xb ← appendMessageframeData E hstr xb
  modifyInputDoc (mapAt (setText "") payloadNode)
  modify fun c => { c with internalDoc := (E.loadBuffer parseDefault xb).2 }
  match (E.loadBuffer parseDefault xb).1 with
  | some e =>
    throw (.asn1Codec (e.text
      "J2735 decoded XER cannot be parsed/loaded as a valid document: "))
  | none =>
    let element := documentElement (← get).internalDoc
    modifyInputDoc (mapAt (appendCopy element) payloadNode)
    setDataType payloadNode .xml "Could not update the dataType field of the payload section."

/-- decode_message with its buffer. -/
def decodeMessageShared (E : Externals V) (payloadNode : Loc) : CodecM Bool := do
  let xb := ""
  let c ← get
  if c.req.decode1609dot2 = false ∧ c.req.decodeMessageframe = false then
    throw (.missingInputElement
      "An decoder was not specified in the encodingType tag that this module understands.")
  match (c.inputDoc.at? payloadNode).bind fun n => n.childText? "bytes" with
  | none => throw (.missingInputElement "failure accessing input XML bytes node.")
  | some text =>
    modifyInputDoc (mapAt (removeChild "bytes") payloadNode)
    let (hstr, xb) ←
      if c.req.decode1609dot2 then shared1609dot2Layer E text xb else pure (text, xb)
    if c.req.decodeMessageframe then sharedMessageframeLayer E payloadNode hstr xb
    saveInputDoc
    pure true

/-- The outer layer leaves the buffer empty. -/
theorem shared1609dot2Layer_eq (E : Externals V) (hstr : String) :
    shared1609dot2Layer E hstr "" =
      (do let text ← decode1609dot2Layer E hstr
          pure (text, "")) := by
  simp only [shared1609dot2Layer, append1609dot2Data, decode1609dot2Layer, bind_assoc, pure_bind,
    String.empty_append]
  congr 1
  funext xer
  congr 1
  funext _
  -- past the decoding both load the same text
  rcases (E.loadBuffer parseDefault xer).1 with - | e
  · show (get >>= _) = (get >>= _) >>= _
    rw [bind_assoc]
    congr 1
    funext c
    rcases (ieee1609dot2UnsecuredDataQuery c.internalDoc).bind text? with - | text
    · rfl
    · rfl
  · rfl

/-- The inner layer starts with an empty buffer. -/
theorem sharedMessageframeLayer_eq (E : Externals V) (p : Loc) (hstr : String) :
    sharedMessageframeLayer E p hstr "" = decodeMessageframeLayer E p hstr := by
  simp only [sharedMessageframeLayer, appendMessageframeData, bind_assoc, pure_bind,
    String.empty_append]
  rfl

/-- No XER of the outer layer reaches the inner one. -/
theorem decodeMessageShared_eq (E : Externals V) (p : Loc) :
    decodeMessageShared E p = decodeMessage E p := by
  rw [decodeMessageShared, decodeMessage]
  refine congrArg (bind get) (funext fun c => ?_)
  by_cases hreq : c.req.decode1609dot2 = false ∧ c.req.decodeMessageframe = false
  · simp only [hreq, and_self, if_true]
    rfl
  · simp only [hreq, if_false]
    rcases (c.inputDoc.at? p).bind fun n => n.childText? "bytes" with - | text
    · rfl
    · rcases c.req.decode1609dot2 with - | -
      · simp only [Bool.false_eq_true, if_false, pure_bind, sharedMessageframeLayer_eq]
      · simp only [if_true, shared1609dot2Layer_eq, bind_assoc, pure_bind,
          sharedMessageframeLayer_eq]

/-! ### What the inner stage sees -/

/-- An edit at a location is seen from above as the same edit. -/
theorem at?_mapAt_congr {p q : Loc} (hqp : q <+: p) {d d' : Node} (h : d.at? q = d'.at? q)
    (f : Node → Node) : (mapAt f p d).at? q = (mapAt f p d').at? q := by
  obtain ⟨r, rfl⟩ := hqp
  rw [at?_mapAt_above, at?_mapAt_above, h]

/-- Two accounts that end alike, on documents that agree at a location. -/
structure Alike {α : Type} (q : Loc) (o o' : Outcome α) : Prop where
  result : o.result = o'.result
  section_eq : o.doc.at? q = o'.doc.at? q

theorem Alike.andThen {α β : Type} {q : Loc} {o o' : Outcome α} {f f' : Node → α → Outcome β}
    (ho : Alike q o o') (hf : ∀ d d' a, d.at? q = d'.at? q → Alike q (f d a) (f' d' a)) :
    Alike q (o.andThen f) (o'.andThen f') := by
  obtain ⟨d, calls, written, result⟩ := o
  obtain ⟨d', calls', written', result'⟩ := o'
  obtain ⟨hresult, hsection⟩ := ho
  obtain rfl : result = result' := hresult
  rcases result with e | a
  · exact ⟨rfl, hsection⟩
  · have halike := hf d d' a hsection
    exact ⟨halike.result, halike.section_eq⟩

theorem alike_dataTypeOutcome (p : Loc) (dt : Asn1DataType) (what : String) {d d' : Node}
    (h : d.at? p.dropLast = d'.at? p.dropLast) :
    Alike p.dropLast (dataTypeOutcome p dt what d) (dataTypeOutcome p dt what d') := by
  rw [dataTypeOutcome, dataTypeOutcome, h]
  split
  · exact ⟨rfl, h⟩
  · exact ⟨rfl, at?_mapAt_congr List.prefix_rfl h _⟩

/-- The MessageFrame stage sees the hex string and the payload section. -/
theorem alike_insertOutcome (E : Externals V) (ats : TransferSyntax) (p : Loc) (hstr : String)
    {d d' : Node} (h : d.at? p.dropLast = d'.at? p.dropLast) :
    Alike p.dropLast (insertOutcome E ats p hstr d) (insertOutcome E ats p hstr d') := by
  have habove : p.dropLast <+: p := List.dropLast_prefix p
  simp only [insertOutcome]
  rcases decodeHexData E "MessageFrame" .messageFrame ats hstr with e | xb
  · exact ⟨rfl, h⟩
  · rcases hl : E.loadBuffer parseDefault xb with ⟨- | e, x⟩
    · simp only [hl]
      apply Alike.andThen
      · exact ⟨rfl, at?_mapAt_congr habove (at?_mapAt_congr habove h _) _⟩
      · intro d d' _ h
        exact alike_dataTypeOutcome _ _ _ h
    · simp only [hl]
      exact ⟨rfl, at?_mapAt_congr habove h _⟩

/-- Two inputs with the same payload section, but for the bytes in it: the hex
of a wrapped message and of the message itself. -/
structure SamePayload (p : Loc) (w h : String) (d d' : Node) : Prop where
  wrapped : ((d.at? p).bind fun n => n.childText? "bytes") = some w
  plain : ((d'.at? p).bind fun n => n.childText? "bytes") = some h
  rest : (mapAt (removeChild "bytes") p d).at? p.dropLast =
    (mapAt (removeChild "bytes") p d').at? p.dropLast

/-- The conversions of the two inputs. -/
theorem alike_decodeOutcome {E : Externals V} {r r' : Requirements} {p : Loc} {w h : String}
    {d d' : Node} (hboth : r.decode1609dot2 = true ∧ r.decodeMessageframe = true)
    (honly : r'.decode1609dot2 = false ∧ r'.decodeMessageframe = true)
    (hats : r'.decodeMessageframeType = r.decodeMessageframeType)
    (hd : SamePayload p w h d d') (hw : unsecuredData E r.decode1609dot2Type w = .ok h) :
    Alike p.dropLast (decodeOutcome E r p d) (decodeOutcome E r' p d') := by
  rw [decodeOutcome, decodeOutcome, hd.wrapped, hd.plain]
  simp only [hboth, honly, hats, Bool.true_eq_false, Bool.false_eq_true, and_false, if_false,
    if_true]
  apply Alike.andThen
  · exact ⟨hw, hd.rest⟩
  · intro d d' hstr h
    apply Alike.andThen
    · exact alike_insertOutcome E _ p hstr h
    · intro d d' _ h
      exact ⟨rfl, h⟩

/-- How a run of decode_message ends: with its conversion written, or with what
was on the stream before. -/
theorem decodeMessage_ends (E : Externals V) (p : Loc) (c : Codec) :
    match (decodeMessage E p).run c with
    | .ok success s => (decodeOutcome E c.req p c.inputDoc).result = .ok success ∧
        s.inputDoc = (decodeOutcome E c.req p c.inputDoc).doc ∧
        s.outputMessageStream = c.outputMessageStream ++ save s.inputDoc
    | .error e s => (decodeOutcome E c.req p c.inputDoc).result = .error e ∧
        s.inputDoc = (decodeOutcome E c.req p c.inputDoc).doc ∧
        s.outputMessageStream = c.outputMessageStream := by
  obtain ⟨hresult, hlasting⟩ := decodeMessage_tells E p c
  have hwritten := (saves_decodeOutcome E c.req p c.inputDoc).written
  have hdoc := congrArg Codec.inputDoc hlasting
  have hout := congrArg Codec.outputMessageStream hlasting
  rcases hr : (decodeMessage E p).run c with ⟨success, s⟩ | ⟨e, s⟩
  · rw [hr] at hresult hdoc hout
    rw [hresult] at hwritten
    refine ⟨hresult, hdoc, hout.trans ?_⟩
    show c.outputMessageStream ++ (decodeOutcome E c.req p c.inputDoc).written = _
    rw [hwritten]
    exact congrArg (c.outputMessageStream ++ save ·) hdoc.symm
  · rw [hr] at hresult hdoc hout
    rw [hresult] at hwritten
    refine ⟨hresult, hdoc, hout.trans ?_⟩
    show c.outputMessageStream ++ (decodeOutcome E c.req p c.inputDoc).written = _
    rw [hwritten, String.append_empty]

/-- The two runs of decode_message: both return, with the same payload section
in the document that is written, or both throw the same. -/
def SameOutcome (p : Loc) (c c' : Codec) : EStateM.Result Exn Codec Bool →
    EStateM.Result Exn Codec Bool → Prop
  | .ok success s, .ok success' s' => success = success' ∧
      s.inputDoc.at? p.dropLast = s'.inputDoc.at? p.dropLast ∧
      s.outputMessageStream = c.outputMessageStream ++ save s.inputDoc ∧
      s'.outputMessageStream = c'.outputMessageStream ++ save s'.inputDoc
  | .error e s, .error e' s' => e = e' ∧
      s.inputDoc.at? p.dropLast = s'.inputDoc.at? p.dropLast ∧
      s.outputMessageStream = c.outputMessageStream ∧
      s'.outputMessageStream = c'.outputMessageStream
  | _, _ => False

/-- **A 1609.2 wrapper is transparent.**  If the wrapped message `w` decodes to
XER whose unsecured data is `h`, decode_message does with `w` under both
layers what it does with `h` under the inner one. -/
theorem decodeMessageShared_transparent (E : Externals V) (p : Loc) (c c' : Codec)
    {w h xer : String} {x : Node}
    (hboth : c.req.decode1609dot2 = true ∧ c.req.decodeMessageframe = true)
    (honly : c'.req.decode1609dot2 = false ∧ c'.req.decodeMessageframe = true)
    (hats : c'.req.decodeMessageframeType = c.req.decodeMessageframeType)
    (hinput : SamePayload p w h c.inputDoc c'.inputDoc)
    (hxer : decodeHexData E "IEEE 1609.2" .ieee1609Dot2Data c.req.decode1609dot2Type w = .ok xer)
    (hload : E.loadBuffer parseDefault xer = (none, x))
    (hdata : (ieee1609dot2UnsecuredDataQuery x).bind text? = some h) :
    SameOutcome p c c' ((decodeMessageShared E p).run c) ((decodeMessageShared E p).run c') := by
  have hw : unsecuredData E c.req.decode1609dot2Type w = .ok h := by
    rw [unsecuredData, hxer]
    simp only [hload, hdata]
  -- from the unsecured data on, the two messages go the same way
  obtain ⟨hresult, hsection⟩ := alike_decodeOutcome hboth honly hats hinput hw
  have hend := decodeMessage_ends E p c
  have hend' := decodeMessage_ends E p c'
  rw [decodeMessageShared_eq]
  rcases hr : (decodeMessage E p).run c with ⟨a, s⟩ | ⟨e, s⟩
  · rw [hr] at hend
    obtain ⟨hok, hdoc, hout⟩ := hend
    rcases hr' : (decodeMessage E p).run c' with ⟨a', s'⟩ | ⟨e', s'⟩
    · rw [hr'] at hend'
      obtain ⟨hok', hdoc', hout'⟩ := hend'
      refine ⟨Except.ok.inj (hok.symm.trans (hresult.trans hok')), ?_, hout, hout'⟩
      rw [hdoc, hdoc', hsection]
    · rw [hr'] at hend'
      exact absurd (hok.symm.trans (hresult.trans hend'.1)) (by simp)
  · rw [hr] at hend
    obtain ⟨hok, hdoc, hout⟩ := hend
    rcases hr' : (decodeMessage E p).run c' with ⟨a', s'⟩ | ⟨e', s'⟩
    · rw [hr'] at hend'
      exact absurd (hok.symm.trans (hresult.trans hend'.1)) (by simp)
    · rw [hr'] at hend'
      obtain ⟨hok', hdoc', hout'⟩ := hend'
      refine ⟨Except.error.inj (hok.symm.trans (hresult.trans hok')), ?_, hout, hout'⟩
      rw [hdoc, hdoc', hsection]

/-! ### A wrapped message -/

/-- Libraries to which every wrapper holds the hex string `0013`, and which read the
XER that they write. -/
def wrapping : Externals Unit where
  loadBuffer o s :=
    if s = "<Ieee1609Dot2Data>" ++ "<content><unsecuredData>0013</unsecuredData></content>" ++
        "</Ieee1609Dot2Data>" then
      (none, .document [.element "Ieee1609Dot2Data" []
        [.element "content" [] [.element "unsecuredData" [] [.pcdata "0013"]]]])
    else if s = "<MessageFrame/>" then (none, .document [.element "MessageFrame" [] []])
    else emptyHanded.loadBuffer o s
  asnDecode _ _ bytes := .ok () bytes.length
  asnCheckConstraints _ _ := none
  xerEncode td _ :=
    match td with
    | .ieee1609Dot2Data =>
      .ok ("<Ieee1609Dot2Data>" ++ "<content><unsecuredData>0013</unsecuredData></content>" ++
        "</Ieee1609Dot2Data>")
    | _ => .ok "<MessageFrame/>"
  xerDecode _ _ := .fail 0
  asnEncode _ td _ := .error td.name

/-- A payload section with these bytes. -/
def payloadDoc (bytes : String) : Node :=
  .document [.element "OdeAsn1Data" [] [.element "payload" []
    [.element "dataType" [] [.pcdata "us.dot.its.jpo.ode.model.OdeHexByteArray"],
     .element "data" [] [.element "bytes" [] [.pcdata bytes]]]]]

/-- The codec about to decode these bytes, with or without a wrapper. -/
def decodingCodec (wrapped : Bool) (bytes : String) : Codec :=
  { configuredCodec with
    inputDoc := payloadDoc bytes
    req := { Requirements.constructed with decode1609dot2 := wrapped, decodeMessageframe := true } }

theorem decodeMessageShared_transparent_spat : SameOutcome [0, 0, 1]
    (decodingCodec true "0381") (decodingCodec false "0013")
    ((decodeMessageShared wrapping [0, 0, 1]).run (decodingCodec true "0381"))
    ((decodeMessageShared wrapping [0, 0, 1]).run (decodingCodec false "0013")) :=
  decodeMessageShared_transparent wrapping [0, 0, 1] (decodingCodec true "0381")
    (decodingCodec false "0013") ⟨rfl, rfl⟩ ⟨rfl, rfl⟩ rfl ⟨rfl, rfl, rfl⟩ rfl rfl rfl

end Asn1Codec
