/-
Asn1Codec/Encode.lean

encode_message: layered encoding from the inside out.

`protocolFor` is the switch over the operation bits.  Its seven protocols list
the layers inner to outer, each with the path from data to its element, and
every layer but the outermost leaves its hex behind in its parent.  One step
(`encodeNodeAsHexString`) finds the element, prints it, removes it, encodes the
text and only then writes: where the encoder throws, the element is gone and
nothing stands in its place.

As for decoding, `encodeOutcome` is the conversion as a function, and
`encodeMessage_tells` ties the method to it.
-/
import Mathlib.Data.List.Infix
import Asn1Codec.Decode

namespace Asn1Codec

open Xml (Node Loc)
open Xml.Node

variable {V : Type}

/-! ### Encoding the XML of one layer -/

def outdatedElements : List String :=
  ["sspTimRights", "duratonTime", "sspLocationRights", "sspMsgRights1", "sspMsgRights2"]

/-- `s.find(t) != std::string::npos`. -/
def containsText (s t : String) : Bool := decide (t.toList <:+: s.toList)

/-- j2735_2020_conformance_check. -/
def j2735_2020ConformanceCheck (messageFrameXml : String) : Bool :=
  messageFrameXml != "" && !outdatedElements.any (containsText messageFrameXml)

/-- The switch of encode_frame_data.  Its default branch leaves the descriptor
pointer unset, and the first use of it follows. -/
def dataStruct (op : UInt32) (dataAsXml : String) : Except Exn AsnType :=
  if op = J2735MESSAGEFRAME then
    if j2735_2020ConformanceCheck dataAsXml then .ok .messageFrame
    else .error (.asn1Codec "J2735 2020 conformance check failed.")
  else if op = IEEE1609DOT2 then .ok .ieee1609Dot2Data
  else if op = ASDFRAME then .ok .advisorySituationData
  else .error .uninitialised

/-- What encode_frame_data computes from the text and the two members it reads. -/
def frameHex (E : Externals V) (op : UInt32) (ats : TransferSyntax) (dataAsXml : String) :
    Except Exn String :=
  match dataStruct op dataAsXml with
  | .error e => .error e
  | .ok td =>
    match E.xerDecode td dataAsXml with
    | .fail consumed =>
      .error (.asn1Codec ("failed ASN.1 decoding of XML element " ++ td.name ++
        ": bad data." ++ successfullyDecoded consumed))
    | .wmore consumed =>
      .error (.asn1Codec ("failed ASN.1 decoding of XML element " ++ td.name ++
        ": more data expected." ++ successfullyDecoded consumed))
    | .ok v _ =>
      match E.asnCheckConstraints td v with
      | some errbuf =>
        .error (.asn1Codec
          ("failed ASN.1 constraints check of element " ++ td.name ++ ": " ++ errbuf))
      | none =>
        match E.asnEncode ats td v with
        | .error failedType =>
          .error (.asn1Codec ("failed ASN.1 encoding of SDWTIM element " ++ failedType))
        | .ok buffer =>
          match bytesToHex buffer with
          | none =>
            .error (.asn1Codec "failed attempt to encode SDWTIM byte buffer into hex string.")
          | some hexString => .ok hexString

/-- encode_frame_data. -/
def encodeFrameData (E : Externals V) (dataAsXml : String) : CodecM String := do
  let c ← get
  logCall c.currOp c.currDecodeType dataAsXml
  liftExcept (frameHex E c.currOp c.currDecodeType dataAsXml)

/-! ### The steps of a protocol -/

/-- The node a handle refers to. -/
def deref (doc : Node) (w : Loc) : Node := (doc.at? w).getD (.document [])

/-- `curr_node_path_` as it is written in the texts. -/
def nodePathText (path : List String) : String := "/".intercalate path

/-- encode_node_as_hex_string. -/
def encodeNodeAsHexString (E : Externals V) (replace : Bool) : CodecM Unit := do
  let c ← get
  match (c.inputDoc.at? c.payloadNode).bind (locate c.currNodePath) with
  | none =>
    throw (.missingInputElement
      ("Failed to find path: " ++ nodePathText c.currNodePath ++ "in the input document."))
  | some q =>
    let w := c.payloadNode ++ q
    if w = [] then
      throw (.missingInputElement ("Failed to find parent node for: " ++
        nodePathText c.currNodePath ++ "in the input document."))
    let node := deref c.inputDoc w
    -- a node is a child of its parent, so remove_child finds it
    modifyInputDoc (eraseAt w)
    let hexStr ← encodeFrameData E node.print
    -- node.name() through the handle of the node removed above: the parser
    -- keeps names in its own buffer, where the removal leaves them
    modify fun c => { c with hexData := c.hexData ++ [(node.name, hexStr)] }
    if replace then modifyInputDoc (mapAt (setText hexStr) w.dropLast)

/-- The loop of encode_for_protocol over `protocol_`. -/
def encodeParts (E : Externals V) : List Part → CodecM Unit
  | [] => pure ()
  | part :: parts => do
    modify fun c => { c with currOp := part.op, currDecodeType := part.decodeType,
                             currNodePath := part.nodePath }
    encodeNodeAsHexString E part.replace
    encodeParts E parts

/-- The element `append_child(node_name).append_child("bytes")` with its text. -/
def hexElement (nodeName hexStr : String) : Node :=
  .element nodeName [] [.element "bytes" [] [.pcdata hexStr]]

/-- The loop of encode_for_protocol over `hex_data_`. -/
def appendHexData : List (String × String) → CodecM Unit
  | [] => pure ()
  | data :: ds => do
    let c ← get
    modifyInputDoc (mapAt (fun n => n.appendChild (hexElement data.1 data.2)) c.payloadNode)
    appendHexData ds

/-- encode_for_protocol. -/
def encodeForProtocol (E : Externals V) : CodecM Unit := do
  let c ← get
  encodeParts E c.protocol
  let c ← get
  appendHexData c.hexData
  setDataType c.payloadNode .hex
    "Failure to update path: OdeAsn1Data/payload/dataType in the output document."

/-- The switch of encode_message over `opsflag`. -/
def protocolFor (r : Requirements) : Option (List Part) :=
  if r.opsflag = IEEE1609DOT2 then
    some [⟨IEEE1609DOT2, r.decode1609dot2Type, ["Ieee1609Dot2Data"], false⟩]
  else if r.opsflag = J2735MESSAGEFRAME then
    some [⟨J2735MESSAGEFRAME, r.decodeMessageframeType, ["MessageFrame"], false⟩]
  else if r.opsflag = IEEE1609DOT2_J2735MESSAGEFRAME then
    some [⟨J2735MESSAGEFRAME, r.decodeMessageframeType,
            ["Ieee1609Dot2Data", "content", "unsecuredData", "MessageFrame"], true⟩,
          ⟨IEEE1609DOT2, r.decode1609dot2Type, ["Ieee1609Dot2Data"], false⟩]
  else if r.opsflag = ASDFRAME then
    some [⟨ASDFRAME, r.decodeAsdframeType, ["AdvisorySituationData"], false⟩]
  else if r.opsflag = ASDFRAME_IEEE1609DOT2 then
    some [⟨IEEE1609DOT2, r.decode1609dot2Type,
            ["AdvisorySituationData", "asdmDetails", "advisoryMessage", "Ieee1609Dot2Data"], true⟩,
          ⟨ASDFRAME, r.decodeAsdframeType, ["AdvisorySituationData"], false⟩]
  else if r.opsflag = ASDFRAME_J2735MESSAGEFRAME then
    some [⟨J2735MESSAGEFRAME, r.decodeMessageframeType,
            ["AdvisorySituationData", "asdmDetails", "advisoryMessage", "MessageFrame"], true⟩,
          ⟨ASDFRAME, r.decodeAsdframeType, ["AdvisorySituationData"], false⟩]
  else if r.opsflag = ASDFRAME_IEEE1609DOT2_J2735MESSAGEFRAME then
    some [⟨J2735MESSAGEFRAME, r.decodeMessageframeType,
            ["AdvisorySituationData", "asdmDetails", "advisoryMessage", "Ieee1609Dot2Data",
              "content", "unsecuredData", "MessageFrame"], true⟩,
          ⟨IEEE1609DOT2, r.decode1609dot2Type,
            ["AdvisorySituationData", "asdmDetails", "advisoryMessage", "Ieee1609Dot2Data"], true⟩,
          ⟨ASDFRAME, r.decodeAsdframeType, ["AdvisorySituationData"], false⟩]
  else none

/-! ### The seven protocols, layer by layer -/

namespace Requirements

/-- The path of the advisory message in an AdvisorySituationData. -/
def asdWrapper (r : Requirements) : List String :=
  if r.decodeAsdframe then ["AdvisorySituationData", "asdmDetails", "advisoryMessage"] else []

/-- The path of what the MessageFrame is wrapped in. -/
def messageframeWrapper (r : Requirements) : List String :=
  if r.decode1609dot2 then r.asdWrapper ++ ["Ieee1609Dot2Data", "content", "unsecuredData"]
  else r.asdWrapper

def messageframeParts (r : Requirements) : List Part :=
  if r.decodeMessageframe then
    [⟨J2735MESSAGEFRAME, r.decodeMessageframeType, r.messageframeWrapper ++ ["MessageFrame"],
      r.decode1609dot2 || r.decodeAsdframe⟩]
  else []

def ieeeParts (r : Requirements) : List Part :=
  if r.decode1609dot2 then
    [⟨IEEE1609DOT2, r.decode1609dot2Type, r.asdWrapper ++ ["Ieee1609Dot2Data"],
      r.decodeAsdframe⟩]
  else []

def asdParts (r : Requirements) : List Part :=
  if r.decodeAsdframe then
    [⟨ASDFRAME, r.decodeAsdframeType, ["AdvisorySituationData"], false⟩]
  else []

/-- The requested layers, inner to outer. -/
def parts (r : Requirements) : List Part := r.messageframeParts ++ r.ieeeParts ++ r.asdParts

end Requirements

/-- **The switch lists the requested layers**, each below the wrapper that the
next one out provides. -/
theorem protocolFor_eq {r : Requirements} (h : r.Agree) :
    protocolFor r = if r.parts = [] then none else some r.parts := by
  obtain ⟨ops, d16, mf, asd, t16, tmf, tasd⟩ := r
  obtain rfl : ops = opsBits d16 mf asd := h
  cases d16 <;> cases mf <;> cases asd <;> rfl

theorem parts_effective {r s : Requirements} (h : r.effective = s.effective) :
    r.parts = s.parts := by
  obtain ⟨-, h16, hmf, hasd, h16t, hmft, hasdt⟩ := effective_eq_iff.mp h
  have hwrap : r.asdWrapper = s.asdWrapper := by
    simp only [Requirements.asdWrapper, hasd]
  have hwrap' : r.messageframeWrapper = s.messageframeWrapper := by
    simp only [Requirements.messageframeWrapper, h16, hwrap]
  have h₁ : r.messageframeParts = s.messageframeParts := by
    simp only [Requirements.messageframeParts, hmf, hmft, hwrap', h16, hasd]
  have h₂ : r.ieeeParts = s.ieeeParts := by
    simp only [Requirements.ieeeParts, h16, h16t, hwrap, hasd]
  have h₃ : r.asdParts = s.asdParts := by
    unfold Requirements.asdParts
    rw [hasd]
    split
    · rw [hasdt ‹_›]
    · rfl
  rw [Requirements.parts, h₁, h₂, h₃, Requirements.parts]

theorem protocolFor_effective {r s : Requirements} (hr : r.Agree) (hs : s.Agree)
    (h : r.effective = s.effective) : protocolFor r = protocolFor s := by
  rw [protocolFor_eq hr, protocolFor_eq hs, parts_effective h]

/-! ### The method -/

/-- encode_message. -/
def encodeMessage (E : Externals V) : CodecM Bool := do
  modify fun c => { c with protocol := [], hexData := [] }
  let c ← get
  match protocolFor c.req with
  | none =>
    throw (.missingInputElement
      "An encoder was not specified in the encodingType tag that this module understands.")
  | some parts =>
    modify fun c => { c with protocol := parts }
    encodeForProtocol E
    saveInputDoc
    pure true

/-! ### The conversion as a function -/

/-- The removal of the node at `w` and, if asked for, the text put in its parent. -/
def takeNode (w : Loc) (replace : Bool) (hexStr : String) (doc : Node) : Node :=
  if replace then mapAt (setText hexStr) w.dropLast (eraseAt w doc) else eraseAt w doc

/-- One step of a protocol: the name of the element and its hex. -/
def encodeStep (E : Externals V) (p : Loc) (part : Part) (doc : Node) :
    Outcome (String × String) :=
  match (doc.at? p).bind (locate part.nodePath) with
  | none =>
    .fail doc (.missingInputElement
      ("Failed to find path: " ++ nodePathText part.nodePath ++ "in the input document."))
  | some q =>
    if p ++ q = [] then
      .fail doc (.missingInputElement ("Failed to find parent node for: " ++
        nodePathText part.nodePath ++ "in the input document."))
    else
      let node := deref doc (p ++ q)
      let call : Call := ⟨part.op, part.decodeType, node.print⟩
      match frameHex E part.op part.decodeType node.print with
      | .error e => ⟨eraseAt (p ++ q) doc, [call], "", .error e⟩
      | .ok hexStr => ⟨takeNode (p ++ q) part.replace hexStr doc, [call], "",
          .ok (node.name, hexStr)⟩

/-- The steps of a protocol, one after the other. -/
def encodeSteps (E : Externals V) (p : Loc) : List Part → Node → Outcome (List (String × String))
  | [], doc => .done doc []
  | part :: parts, doc =>
    (encodeStep E p part doc).andThen fun doc d =>
    (encodeSteps E p parts doc).andThen fun doc ds => .done doc (d :: ds)

/-- The elements appended to data, in the order of the steps. -/
def appendHex (p : Loc) (data : List (String × String)) (doc : Node) : Node :=
  data.foldl (fun doc d => mapAt (fun n => n.appendChild (hexElement d.1 d.2)) p doc) doc

/-- encode_message as a function of the requirements, the location of data and
the document. -/
def encodeOutcome (E : Externals V) (r : Requirements) (p : Loc) (doc : Node) : Outcome Bool :=
  match protocolFor r with
  | none =>
    .fail doc (.missingInputElement
      "An encoder was not specified in the encodingType tag that this module understands.")
  | some parts =>
    (encodeSteps E p parts doc).andThen fun doc data =>
    (dataTypeOutcome p .hex
      "Failure to update path: OdeAsn1Data/payload/dataType in the output document."
      (appendHex p data doc)).andThen fun doc _ => ⟨doc, [], save doc, .ok true⟩

/-! ### What a conversion throws and writes -/

/-- An operation that is a single layer. -/
def IsLayer (op : UInt32) : Prop := op = J2735MESSAGEFRAME ∨ op = IEEE1609DOT2 ∨ op = ASDFRAME

theorem dataStruct_error {op : UInt32} {xml : String} {e : Exn} (hop : IsLayer op)
    (h : dataStruct op xml = .error e) : ∃ what, e = .asn1Codec what := by
  unfold dataStruct at h
  split at h
  · split at h
    · exact absurd h (by simp)
    · exact ⟨_, (Except.error.inj h).symm⟩
  · split at h
    · exact absurd h (by simp)
    · split at h
      · exact absurd h (by simp)
      · rename_i h₁ h₂ h₃
        rcases hop with hop | hop | hop <;> contradiction

/-- What the encoding of a single layer throws is an Asn1CodecError. -/
theorem frameHex_error {E : Externals V} {op : UInt32} {ats : TransferSyntax} {xml : String}
    {e : Exn} (hop : IsLayer op) (h : frameHex E op ats xml = .error e) :
    ∃ what, e = .asn1Codec what := by
  unfold frameHex at h
  split at h
  · rename_i e' hd
    obtain rfl := Except.error.inj h
    exact dataStruct_error hop hd
  · split at h
    · exact ⟨_, (Except.error.inj h).symm⟩
    · exact ⟨_, (Except.error.inj h).symm⟩
    · split at h
      · exact ⟨_, (Except.error.inj h).symm⟩
      · split at h
        · exact ⟨_, (Except.error.inj h).symm⟩
        · split at h
          · exact ⟨_, (Except.error.inj h).symm⟩
          · exact absurd h (by simp)

theorem quiet_encodeStep (E : Externals V) (p : Loc) {part : Part} (hop : IsLayer part.op)
    (doc : Node) : (encodeStep E p part doc).Quiet := by
  rw [encodeStep]
  split
  · exact Outcome.quiet_fail doc (by simp)
  · split
    · exact Outcome.quiet_fail doc (by simp)
    · simp only
      split
      · rename_i e hx
        refine ⟨rfl, fun h => ?_⟩
        obtain ⟨what, rfl⟩ := frameHex_error hop hx
        exact absurd h (by simp)
      · exact ⟨rfl, by simp⟩

theorem quiet_encodeSteps (E : Externals V) (p : Loc) {parts : List Part}
    (hops : ∀ part ∈ parts, IsLayer part.op) (doc : Node) : (encodeSteps E p parts doc).Quiet := by
  induction parts generalizing doc with
  | nil => exact Outcome.quiet_done doc []
  | cons part parts ih =>
    apply (quiet_encodeStep E p (hops part (by simp)) doc).andThen
    intro doc d
    apply (ih (fun part' h => hops part' (by simp [h])) doc).andThen
    intro doc ds
    apply Outcome.quiet_done

/-- Every operation of a protocol is a single layer. -/
theorem isLayer_of_protocolFor {r : Requirements} {parts : List Part}
    (h : protocolFor r = some parts) : ∀ part ∈ parts, IsLayer part.op := by
  unfold protocolFor at h
  split_ifs at h <;> obtain rfl := Option.some.inj h <;> simp [IsLayer]

theorem saves_encodeOutcome (E : Externals V) (r : Requirements) (p : Loc) (doc : Node) :
    (encodeOutcome E r p doc).Saves := by
  rw [encodeOutcome]
  split
  · exact Outcome.saves_fail doc (by simp)
  · rename_i parts hparts
    apply (quiet_encodeSteps E p (isLayer_of_protocolFor hparts) doc).saves
    intro doc data
    apply (quiet_dataTypeOutcome _ _ _ _).saves
    intro doc _
    exact ⟨rfl, by simp⟩

/-! ### Conversions that succeed -/

/-- A run of the steps that succeeds is a step that does and a run of the others. -/
theorem encodeSteps_cons_ok {E : Externals V} {p : Loc} {part : Part} {parts : List Part}
    {doc : Node} {ds : List (String × String)}
    (h : (encodeSteps E p (part :: parts) doc).result = .ok ds) :
    ∃ d ds', ds = d :: ds' ∧ (encodeStep E p part doc).result = .ok d ∧
      (encodeSteps E p parts (encodeStep E p part doc).doc).result = .ok ds' ∧
      (encodeSteps E p (part :: parts) doc).calls = (encodeStep E p part doc).calls ++
        (encodeSteps E p parts (encodeStep E p part doc).doc).calls ∧
      (encodeSteps E p (part :: parts) doc).doc =
        (encodeSteps E p parts (encodeStep E p part doc).doc).doc := by
  obtain ⟨d, hd, hrest, hdoc, hcalls, -⟩ := Outcome.andThen_ok h
  obtain ⟨ds', hds', hdone, hdoc', hcalls', -⟩ := Outcome.andThen_ok hrest
  refine ⟨d, ds', (Except.ok.inj hdone).symm, hd, hds', ?_, hdoc.trans hdoc'⟩
  rw [encodeSteps, hcalls, hcalls']
  exact congrArg _ (List.append_nil _)

/-- Encoding: the protocol is not empty, its steps succeed, and the hex elements
and the data type come last. -/
theorem encodeOutcome_ok {E : Externals V} {r : Requirements} {p : Loc} {doc : Node} {b : Bool}
    (hagree : r.Agree) (h : (encodeOutcome E r p doc).result = .ok b) :
    r.parts ≠ [] ∧ ∃ ds, (encodeSteps E p r.parts doc).result = .ok ds ∧
      (encodeOutcome E r p doc).calls = (encodeSteps E p r.parts doc).calls ∧
      (encodeOutcome E r p doc).doc =
        mapAt (mapChild "dataType" (setText (asn1datatypes .hex))) p.dropLast
          (appendHex p ds (encodeSteps E p r.parts doc).doc) ∧
      ∃ n, (encodeOutcome E r p doc).doc.at? p.dropLast = some n ∧
        n.childText? "dataType" = some (asn1datatypes .hex) := by
  by_cases hparts : r.parts = []
  · exact absurd h (by simp [encodeOutcome, protocolFor_eq hagree, hparts, Outcome.fail])
  simp only [encodeOutcome, protocolFor_eq hagree, if_neg hparts] at h ⊢
  obtain ⟨ds, hds, hrest, hdoc, hcalls, -⟩ := Outcome.andThen_ok h
  obtain ⟨_, hset, -, hdoc', hcalls', -⟩ := Outcome.andThen_ok hrest
  obtain ⟨hend, hnone, hread⟩ := dataTypeOutcome_ok hset
  refine ⟨hparts, ds, hds, ?_, ?_, ?_⟩
  · rw [hcalls, hcalls', hnone, List.append_nil, List.append_nil]
  · rw [hdoc, hdoc', hend]
  · rw [hdoc, hdoc']
    exact hread

/-! ### The members follow the function -/

/-- The hex data a step leaves behind. -/
def Outcome.data {α : Type} (o : Outcome α) : List α :=
  match o.result with
  | .ok a => [a]
  | .error _ => []

theorem run_encodeNodeAsHexString (E : Externals V) (part : Part) {c : Codec}
    (hop : c.currOp = part.op) (hats : c.currDecodeType = part.decodeType)
    (hpath : c.currNodePath = part.nodePath) :
    let o := encodeStep E c.payloadNode part c.inputDoc
    (encodeNodeAsHexString E part.replace).run c =
      (liftExcept (o.result.map fun _ => ())).run
        { o.apply c with hexData := c.hexData ++ o.data } := by
  intro o
  obtain ⟨op, ats, path, replace⟩ := part
  subst hop hats hpath
  rcases hq : (c.inputDoc.at? c.payloadNode).bind (locate c.currNodePath) with - | q
  · simp [o, encodeNodeAsHexString, encodeStep, hq, Outcome.apply, Outcome.fail, Outcome.data,
      Except.map]
  by_cases hw : c.payloadNode ++ q = []
  · simp [o, encodeNodeAsHexString, encodeStep, hq, hw, Outcome.apply, Outcome.fail, Outcome.data,
      Except.map, -List.append_eq_nil_iff]
  · rcases hx : frameHex E c.currOp c.currDecodeType (deref c.inputDoc (c.payloadNode ++ q)).print
      with e | hexStr
    · simp [o, encodeNodeAsHexString, encodeStep, encodeFrameData, logCall, modifyInputDoc,
        Outcome.apply, Outcome.data, Except.map, hq, hw, hx, -List.append_eq_nil_iff]
    · rcases replace with - | - <;>
        simp [o, encodeNodeAsHexString, encodeStep, encodeFrameData, logCall, modifyInputDoc,
          takeNode, Outcome.apply, Outcome.data, Except.map, hq, hw, hx, -List.append_eq_nil_iff]

/-- The loop over the protocol, by induction: the members hold what the steps
so far have told. -/
theorem run_encodeParts (E : Externals V) (parts : List Part) (c : Codec) :
    let o := encodeSteps E c.payloadNode parts c.inputDoc
    ∃ c', (encodeParts E parts).run c = (liftExcept (o.result.map fun _ => ())).run c' ∧
      c'.lasting = (o.apply c).lasting ∧ c'.payloadNode = c.payloadNode ∧
      ∀ ds, o.result = .ok ds → c'.hexData = c.hexData ++ ds := by
  induction parts generalizing c with
  | nil =>
    refine ⟨c, ?_, ?_, rfl, ?_⟩
    · simp [encodeParts, encodeSteps, Outcome.done, Except.map]
    · simp [encodeSteps, Outcome.done, Outcome.apply]
    · simp [encodeSteps, Outcome.done]
  | cons part parts ih =>
    intro o
    -- the state in which the step for `part` starts
    let c₁ : Codec := { c with currOp := part.op, currDecodeType := part.decodeType,
                               currNodePath := part.nodePath }
    have hstep := @run_encodeNodeAsHexString V E part c₁ rfl rfl rfl
    have hrun : (encodeParts E (part :: parts)).run c =
        (encodeNodeAsHexString E part.replace >>= fun _ => encodeParts E parts).run c₁ := by
      simp [encodeParts, c₁]
    rcases hs : encodeStep E c.payloadNode part c.inputDoc with ⟨d₁, calls₁, written₁, e | d⟩
    · have ho : o = ⟨d₁, calls₁, written₁, .error e⟩ := by
        simp [o, encodeSteps, Outcome.andThen, hs]
      refine ⟨{ c₁ with inputDoc := d₁, calls := c.calls ++ calls₁,
                        outputMessageStream := c.outputMessageStream ++ written₁ },
        ?_, ?_, rfl, ?_⟩
      · rw [hrun, EStateM.run_bind, hstep, ho]
        simp [c₁, hs, Except.map, Outcome.apply, Outcome.data]
      · rw [ho]
        rfl
      · simp [ho]
    · let c₂ : Codec := { c₁ with inputDoc := d₁, calls := c.calls ++ calls₁,
                                  outputMessageStream := c.outputMessageStream ++ written₁,
                                  hexData := c.hexData ++ [d] }
      have hstep₂ : (encodeNodeAsHexString E part.replace).run c₁ = .ok () c₂ := by
        rw [hstep]
        simp [c₁, c₂, hs, Except.map, Outcome.apply, Outcome.data]
      obtain ⟨c', hc', hlast, hnode, hdata⟩ := ih c₂
      rcases hs₂ : encodeSteps E c.payloadNode parts d₁ with ⟨d₂, calls₂, written₂, r⟩
      have ho : o = ⟨d₂, calls₁ ++ calls₂, written₁ ++ written₂, r.map (d :: ·)⟩ := by
        rcases r with e | ds <;>
          simp [o, encodeSteps, Outcome.andThen, Outcome.done, hs, hs₂, Except.map]
      have hs₂' : encodeSteps E c₂.payloadNode parts c₂.inputDoc = ⟨d₂, calls₂, written₂, r⟩ := hs₂
      rw [hs₂'] at hc' hlast hdata
      refine ⟨c', ?_, ?_, hnode, ?_⟩
      · rw [hrun, EStateM.run_bind, hstep₂, ho]
        show (encodeParts E parts).run c₂ = _
        rw [hc']
        rcases r with e | ds <;> rfl
      · rw [hlast, ho]
        simp [c₁, c₂, Outcome.apply, Codec.lasting, String.append_assoc]
      · intro ds hds
        rw [ho] at hds
        rcases r with e | ds'
        · exact absurd hds (by simp [Except.map])
        · obtain rfl : d :: ds' = ds := Except.ok.inj hds
          rw [hdata ds' rfl]
          simp [c₂]

theorem run_appendHexData (ds : List (String × String)) (c : Codec) :
    (appendHexData ds).run c =
      .ok () { c with inputDoc := appendHex c.payloadNode ds c.inputDoc } := by
  induction ds generalizing c with
  | nil => rfl
  | cons d ds ih => simp [appendHexData, modifyInputDoc, ih, appendHex]

/-- **encode_message does what `encodeOutcome` tells.** -/
theorem encodeMessage_tells (E : Externals V) (c : Codec) :
    (encodeOutcome E c.req c.payloadNode c.inputDoc).Tells c ((encodeMessage E).run c) := by
  rcases hp : protocolFor c.req with - | parts
  · simp [encodeMessage, encodeOutcome, hp, Outcome.Tells, Outcome.fail, Outcome.apply,
      Codec.lasting]
  -- the state in which the loop over the protocol starts
  let c₁ : Codec := { c with protocol := parts, hexData := [] }
  have hrun : (encodeMessage E).run c =
      (do
        encodeForProtocol E
        saveInputDoc
        pure true : CodecM Bool).run c₁ := by
    simp [encodeMessage, hp, c₁]
  obtain ⟨c', hc', hlast, hnode, hdata⟩ := run_encodeParts E parts c₁
  rcases hs : encodeSteps E c.payloadNode parts c.inputDoc with ⟨d, calls, written, e | ds⟩
  · -- a step throws
    have hs' : encodeSteps E c₁.payloadNode parts c₁.inputDoc = ⟨d, calls, written, .error e⟩ := hs
    rw [hs'] at hc' hlast
    have hend : (encodeMessage E).run c = .error e c' := by
      rw [hrun]
      simp [encodeForProtocol, c₁] at hc' ⊢
      simp [hc', Except.map]
    rw [hend]
    refine ⟨?_, ?_⟩
    · simp [encodeOutcome, hp, hs, Outcome.andThen]
    · show c'.lasting = _
      rw [hlast]
      simp [encodeOutcome, hp, hs, Outcome.andThen, Outcome.apply, Codec.lasting, c₁]
  · -- every step succeeds: the hex elements are appended and the data type is set
    have hs' : encodeSteps E c₁.payloadNode parts c₁.inputDoc = ⟨d, calls, written, .ok ds⟩ := hs
    rw [hs'] at hc' hlast hdata
    have hhex : c'.hexData = ds := hdata ds rfl
    have hdoc : c'.inputDoc = d := congrArg Codec.inputDoc hlast
    let c₂ : Codec := { c' with inputDoc := appendHex c.payloadNode ds d }
    have hset := run_setDataType c.payloadNode .hex
      "Failure to update path: OdeAsn1Data/payload/dataType in the output document." c₂
    have hfor : (encodeForProtocol E).run c₁ = (setDataType c.payloadNode .hex
        "Failure to update path: OdeAsn1Data/payload/dataType in the output document.").run c₂ := by
      have hparts : (encodeParts E parts).run c₁ = .ok () c' := hc'
      simp [encodeForProtocol, c₁, c₂] at hparts hnode ⊢
      simp [hparts, run_appendHexData, hhex, hdoc, hnode]
    have hlast₂ : c₂.lasting = { c'.lasting with inputDoc := appendHex c.payloadNode ds d } := rfl
    rcases ht : dataTypeOutcome c.payloadNode .hex
      "Failure to update path: OdeAsn1Data/payload/dataType in the output document."
      (appendHex c.payloadNode ds d) with ⟨d₂, calls₂, written₂, e | u⟩
    · have hend : (encodeMessage E).run c = .error e
          ((⟨d₂, calls₂, written₂, .error e⟩ : Outcome Unit).apply c₂) := by
        rw [hrun, EStateM.run_bind, hfor, hset]
        simp [c₂, ht]
      rw [hend]
      refine ⟨?_, ?_⟩
      · simp [encodeOutcome, hp, hs, Outcome.andThen, ht]
      · show (Outcome.apply _ c₂).lasting = _
        rw [Outcome.apply_lasting, hlast₂, hlast]
        simp [encodeOutcome, hp, hs, ht, Outcome.andThen, Outcome.apply, Codec.lasting, c₁,
          String.append_assoc]
    · have hend : (encodeMessage E).run c = .ok true
          ((⟨d₂, calls₂, written₂ ++ save d₂, .ok u⟩ : Outcome Unit).apply c₂) := by
        rw [hrun, EStateM.run_bind, hfor, hset]
        simp [c₂, ht, saveInputDoc, Outcome.apply, String.append_assoc]
      rw [hend]
      refine ⟨?_, ?_⟩
      · simp [encodeOutcome, hp, hs, Outcome.andThen, ht]
      · show (Outcome.apply _ c₂).lasting = _
        rw [Outcome.apply_lasting, hlast₂, hlast]
        simp [encodeOutcome, hp, hs, ht, Outcome.andThen, Outcome.apply, Codec.lasting, c₁,
          String.append_assoc]

end Asn1Codec
