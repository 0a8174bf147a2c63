/-
Asn1Codec/Process.lean

process_message, and the catch blocks of operator() around it.

A real message is loaded, its requirements are read, and it is decoded or
encoded.  `convert` is what becomes of a real message as a function of the mode
and the message: `processMessage_tells` says that the members left by earlier
messages have no part in it, although most of them are still there when it
starts.  `recordDoc` adds the catch blocks: the document that a message puts on
the stream, which besides the mode and the message depends on the error
template and the clock.
-/
import Asn1Codec.Encode
import Asn1Codec.ErrorXml

namespace Asn1Codec

open Xml (Node Loc ParseOptions)
open Xml.Node

variable {V : Type}

/-! ### The method -/

/-- `xml_parse_options`: the declaration and the doctype are kept, the text of
elements is trimmed. -/
def xmlParseOptions : ParseOptions := ⟨true, true, true⟩

/-- The counting of a real message. -/
def Codec.received (c : Codec) (m : Message) : Codec :=
  { c with msgRecvCount := c.msgRecvCount + 1,
           msgRecvBytes := c.msgRecvBytes + UInt64.ofNat m.len }

/-- The branch of process_message for a real message. -/
def processReal (E : Externals V) (payload : String) : CodecM Bool := do
  modify fun c => { c with inputDoc := (E.loadBuffer xmlParseOptions payload).2 }
  match (E.loadBuffer xmlParseOptions payload).1 with
  | some e => throw (.unparseableInput (e.text "Input file parse error: "))
  | none =>
    setCodecRequirements
    let c ← get
    match locate odePayloadQuery c.inputDoc with
    | none =>
      throw (.unparseableInput
        "Failed to find the OdeAsn1Data/payload/data field in the input file.")
    | some p =>
      modify fun c => { c with payloadNode := p }
      if c.decodeFunctionality then decodeMessage E p else encodeMessage E

/-- process_message. -/
def processMessage (E : Externals V) (message : Message) : CodecM Bool := do
  match message.err with
  | .timedOut => pure false
  | .msgTimedOut => pure false
  | .noError =>
    modify fun c => c.received message
    processReal E message.payload
  | .partitionEof =>
    let c ← get
    if c.exitEof then
      modify fun c => { c with eofCnt := c.eofCnt + 1 }
      if c.eofCnt + 1 = c.partitionCnt then modify fun c => { c with dataAvailable := false }
    pure false
  -- falls through to the next branch
  | .unknownTopic =>
    modify fun c => { c with dataAvailable := false }
    pure false
  | .unknownPartition =>
    modify fun c => { c with dataAvailable := false }
    pure false
  | .other =>
    modify fun c => { c with dataAvailable := false }
    pure false

/-! ### The catch blocks -/

/-- Annotate the error template and write it. -/
def Codec.reportInErrorDoc (c : Codec) (what : String) (now : Clock) : Codec :=
  let doc := (addErrorXml c.errorDoc .ode .request what true now).2
  { c with errorDoc := doc, outputMessageStream := c.outputMessageStream ++ save doc }

/-- Annotate the input document and write it. -/
def Codec.reportInInputDoc (c : Codec) (what : String) (now : Clock) : Codec :=
  let doc := (addErrorXml c.inputDoc .ode .data what false now).2
  { c with inputDoc := doc, outputMessageStream := c.outputMessageStream ++ save doc }

/-- The catch blocks of operator(), with the data and error types the exception
classes default to. -/
def catchException (now : Clock) : Exn → Codec → Codec
  | .unparseableInput what, c => c.reportInErrorDoc what now
  | .missingInputElement what, c => c.reportInErrorDoc what now
  | .xpath what, c => c.reportInErrorDoc what now
  | .asn1Codec what, c => c.reportInInputDoc what now
  | .uninitialised, c => c

/-- The try block of operator() with its catch blocks. -/
def handleMessage (E : Externals V) (message : Message) (now : Clock) (c : Codec) : Codec :=
  match (processMessage E message).run c with
  | .ok _ c' => c'
  | .error e c' => catchException now e c'

/-! ### A real message as a function -/

/-- The requirements of a document, from the members as they are constructed. -/
def codecRequirements (doc : Node) : Except Exn Requirements :=
  match (requirementsFor doc).run .constructed with
  | .ok _ r => .ok r
  | .error e _ => .error e

theorem codecRequirements_ok {doc : Node} {r : Requirements} :
    codecRequirements doc = .ok r ↔ (requirementsFor doc).run .constructed = .ok () r := by
  rw [codecRequirements]
  rcases (requirementsFor doc).run .constructed with ⟨u, s⟩ | ⟨e, s⟩ <;> simp

theorem agree_codecRequirements {doc : Node} {r : Requirements}
    (h : codecRequirements doc = .ok r) : r.Agree := by
  have hagree := agree_requirementsFor doc .constructed
  rwa [codecRequirements_ok.mp h] at hagree

/-- The conversion of a loaded document. -/
def convertDoc (E : Externals V) (decode : Bool) (doc : Node) : Outcome Bool :=
  match codecRequirements doc with
  | .error e => .fail doc e
  | .ok r =>
    match locate odePayloadQuery doc with
    | none =>
      .fail doc (.unparseableInput
        "Failed to find the OdeAsn1Data/payload/data field in the input file.")
    | some p => if decode then decodeOutcome E r p doc else encodeOutcome E r p doc

/-- The conversion of a real message. -/
def convert (E : Externals V) (decode : Bool) (payload : String) : Outcome Bool :=
  match E.loadBuffer xmlParseOptions payload with
  | (some e, doc) => .fail doc (.unparseableInput (e.text "Input file parse error: "))
  | (none, doc) => convertDoc E decode doc

/-- The conversion of a message whose requirements and data are found. -/
theorem convert_eq {E : Externals V} {payload : String} {doc : Node} {r : Requirements} {p : Loc}
    (hload : E.loadBuffer xmlParseOptions payload = (none, doc))
    (hr : codecRequirements doc = .ok r) (hp : locate odePayloadQuery doc = some p)
    (decode : Bool) : convert E decode payload =
      if decode then decodeOutcome E r p doc else encodeOutcome E r p doc := by
  simp only [convert, hload, convertDoc, hr, hp]

theorem decodeOutcome_effective (E : Externals V) {r s : Requirements}
    (h : r.effective = s.effective) (p : Loc) (doc : Node) :
    decodeOutcome E r p doc = decodeOutcome E s p doc := by
  obtain ⟨-, h16, hmf, -, h16t, hmft, -⟩ := effective_eq_iff.mp h
  simp only [decodeOutcome, h16, hmf, h16t, hmft]

theorem encodeOutcome_effective (E : Externals V) {r s : Requirements} (hr : r.Agree)
    (hs : s.Agree) (h : r.effective = s.effective) (p : Loc) (doc : Node) :
    encodeOutcome E r p doc = encodeOutcome E s p doc := by
  simp only [encodeOutcome, protocolFor_effective hr hs h]

/-- The requirements found in any state of the members are those of the
document, up to the member that is not read. -/
theorem requirementsFor_eq (doc : Node) (r : Requirements) :
    match (requirementsFor doc).run r with
    | .ok _ s => s.Agree ∧ ∃ s', codecRequirements doc = .ok s' ∧ s'.Agree ∧
        s.effective = s'.effective
    | .error e _ => codecRequirements doc = .error e := by
  let fresh := Requirements.constructed
  have heff := requirementsFor_effective doc r fresh
  have hagree := agree_requirementsFor doc r
  have hagree' := agree_requirementsFor doc fresh
  rcases h : (requirementsFor doc).run r with ⟨u, s⟩ | ⟨e, s⟩ <;>
    rcases h' : (requirementsFor doc).run fresh with ⟨u', s'⟩ | ⟨e', s'⟩ <;>
    rw [h, h'] at heff <;> rw [h] at hagree <;> rw [h'] at hagree' <;>
    simp only [effectiveResult, reduceCtorEq] at heff
  · obtain ⟨-, heff⟩ := EStateM.Result.ok.inj heff
    refine ⟨hagree, s', ?_, hagree', heff⟩
    show (match (requirementsFor doc).run fresh with | .ok _ r => _ | .error e _ => _) = _
    rw [h']
  · obtain ⟨rfl, -⟩ := EStateM.Result.error.inj heff
    show (match (requirementsFor doc).run fresh with | .ok _ r => _ | .error e _ => _) = _
    rw [h']

/-- Members that do not last can be anything. -/
theorem Outcome.Tells.of_lasting {α : Type} {o : Outcome α} {c c' : Codec}
    {r : EStateM.Result Exn Codec α} (h : o.Tells c' r)
    (hc : (o.apply c').lasting = (o.apply c).lasting) : o.Tells c r :=
  ⟨h.1, h.2.trans hc⟩

/-- **A real message is processed as `convert` tells**, whatever the members
hold when it arrives. -/
theorem processReal_tells (E : Externals V) (payload : String) (c : Codec) :
    (convert E c.decodeFunctionality payload).Tells c ((processReal E payload).run c) := by
  rcases hl : E.loadBuffer xmlParseOptions payload with ⟨- | e, doc⟩
  · have hreq := requirementsFor_eq doc c.req
    rcases hr : (requirementsFor doc).run c.req with ⟨u, s⟩ | ⟨e, s⟩
    · rw [hr] at hreq
      obtain ⟨hs, s', hs', hagree, heff⟩ := hreq
      have hset : (setCodecRequirements.run { c with inputDoc := doc }) =
          .ok () { c with inputDoc := doc, req := s } := by
        rw [run_setCodecRequirements, hr]
      rcases hp : locate odePayloadQuery doc with - | p
      · simp [processReal, convert, convertDoc, hl, hset, hs', hp, Outcome.Tells, Outcome.fail,
          Outcome.apply, Codec.lasting]
      -- the state in which decode_message or encode_message starts
      let c₁ : Codec := { c with inputDoc := doc, req := s, payloadNode := p }
      have hrun : (processReal E payload).run c =
          (if c.decodeFunctionality then decodeMessage E p else encodeMessage E).run c₁ := by
        simp [processReal, hl, hset, hp, c₁]
      rw [hrun]
      rcases c.decodeFunctionality with - | -
      · have hconv : convert E false payload = encodeOutcome E s p doc := by
          rw [encodeOutcome_effective E hs hagree heff]
          exact convert_eq hl hs' hp false
        rw [hconv]
        exact (encodeMessage_tells E c₁).of_lasting rfl
      · have hconv : convert E true payload = decodeOutcome E s p doc := by
          rw [decodeOutcome_effective E heff]
          exact convert_eq hl hs' hp true
        rw [hconv]
        exact (decodeMessage_tells E p c₁).of_lasting rfl
    · rw [hr] at hreq
      have hset : (setCodecRequirements.run { c with inputDoc := doc }) =
          .error e { c with inputDoc := doc, req := s } := by
        rw [run_setCodecRequirements, hr]
      simp [processReal, convert, convertDoc, hl, hset, hreq, Outcome.Tells, Outcome.fail,
        Outcome.apply, Codec.lasting]
  · simp [processReal, convert, hl, Outcome.Tells, Outcome.fail, Outcome.apply, Codec.lasting]

/-- What a run of process_message for a real message ends with. -/
theorem processMessage_tells (E : Externals V) {m : Message} (hm : m.err = .noError) (c : Codec) :
    (convert E c.decodeFunctionality m.payload).Tells (c.received m)
      ((processMessage E m).run c) := by
  have hrun : (processMessage E m).run c = (processReal E m.payload).run (c.received m) := by
    simp [processMessage, hm]
  rw [hrun]
  exact processReal_tells E m.payload (c.received m)

/-- A message is processed without an exception where its conversion succeeds. -/
theorem processMessage_ok {E : Externals V} {m : Message} (hm : m.err = .noError) {c : Codec}
    {b : Bool} (h : (convert E c.decodeFunctionality m.payload).result = .ok b) :
    ∃ c', (processMessage E m).run c = .ok b c' :=
  (processMessage_tells E hm c).ok h

/-- It throws what its conversion fails with. -/
theorem processMessage_error {E : Externals V} {m : Message} (hm : m.err = .noError) {c : Codec}
    {e : Exn} (h : (convert E c.decodeFunctionality m.payload).result = .error e) :
    ∃ c', (processMessage E m).run c = .error e c' :=
  (processMessage_tells E hm c).error h

/-- What a message that is processed without an exception leaves in the members. -/
theorem converted_of_ok {E : Externals V} {m : Message} (hm : m.err = .noError) {c c' : Codec}
    {b : Bool} (hok : (processMessage E m).run c = .ok b c') :
    (convert E c.decodeFunctionality m.payload).result = .ok b ∧
      c'.inputDoc = (convert E c.decodeFunctionality m.payload).doc ∧
      c'.calls = c.calls ++ (convert E c.decodeFunctionality m.payload).calls ∧
      c'.outputMessageStream =
        c.outputMessageStream ++ (convert E c.decodeFunctionality m.payload).written := by
  obtain ⟨hres, hlast⟩ := processMessage_tells E hm c
  rw [hok] at hres hlast
  exact ⟨hres, congrArg Codec.inputDoc hlast, congrArg Codec.calls hlast,
    congrArg Codec.outputMessageStream hlast⟩

/-! ### What a real message leaves behind -/

/-- What requirementsFor throws is an UnparseableInputError. -/
theorem setEntries_error {ns : List Node} {ats : TransferSyntax} {r s : Requirements} {e : Exn}
    (h : (setEntries ns ats).run r = .error e s) : ∃ what, e = .unparseableInput what := by
  induction ns generalizing ats r with
  | nil => exact absurd h (by simp [setEntries])
  | cons n ns ih =>
    by_cases hats : entrySyntax n ats = .invalid
    · simp only [setEntries, hats, if_true, EStateM.run_bind, run_throw] at h
      exact ⟨_, (EStateM.Result.error.inj h).1.symm⟩
    · exact ih (by simpa [setEntries, hats] using h)

theorem codecRequirements_error {doc : Node} {e : Exn} (h : codecRequirements doc = .error e) :
    ∃ what, e = .unparseableInput what := by
  unfold codecRequirements at h
  rcases requirementsFor_cases doc .constructed with ⟨what, hrun⟩ | ⟨encodings, -,
    ⟨e', s, hs, hrun⟩ | ⟨what, s, -, -, hrun⟩ | ⟨s, -, -, hrun⟩⟩
  all_goals rw [hrun] at h
  · exact ⟨what, (Except.error.inj h).symm⟩
  · obtain rfl := Except.error.inj h
    exact setEntries_error hs
  · exact ⟨what, (Except.error.inj h).symm⟩
  · exact absurd h (by simp)

theorem saves_convert (E : Externals V) (decode : Bool) (payload : String) :
    (convert E decode payload).Saves := by
  rw [convert]
  split
  · exact Outcome.saves_fail _ (by simp)
  · rw [convertDoc]
    split
    · rename_i e he
      obtain ⟨what, rfl⟩ := codecRequirements_error he
      exact Outcome.saves_fail _ (by simp)
    · split
      · exact Outcome.saves_fail _ (by simp)
      · split
        · apply saves_decodeOutcome
        · apply saves_encodeOutcome

/-- A conversion that does not reject its input has found its requirements and
data. -/
theorem convert_found {E : Externals V} {decode : Bool} {payload : String} {doc : Node}
    (hload : E.loadBuffer xmlParseOptions payload = (none, doc))
    (h : ∀ what, (convert E decode payload).result ≠ .error (.unparseableInput what)) :
    ∃ r p, codecRequirements doc = .ok r ∧ locate odePayloadQuery doc = some p ∧
      convert E decode payload =
        if decode then decodeOutcome E r p doc else encodeOutcome E r p doc := by
  have hconv : convert E decode payload = convertDoc E decode doc := by
    rw [convert, hload]
  rcases hr : codecRequirements doc with e | r
  · obtain ⟨what, rfl⟩ := codecRequirements_error hr
    exact absurd (by simp [hconv, convertDoc, hr, Outcome.fail]) (h what)
  rcases hp : locate odePayloadQuery doc with - | p
  · refine absurd ?_ (h "Failed to find the OdeAsn1Data/payload/data field in the input file.")
    simp [hconv, convertDoc, hr, hp, Outcome.fail]
  exact ⟨r, p, rfl, rfl, convert_eq hload hr hp decode⟩

/-- So has one that succeeds. -/
theorem convert_ok {E : Externals V} {decode : Bool} {payload : String} {doc : Node} {b : Bool}
    (hload : E.loadBuffer xmlParseOptions payload = (none, doc))
    (h : (convert E decode payload).result = .ok b) :
    ∃ r p, codecRequirements doc = .ok r ∧ locate odePayloadQuery doc = some p ∧
      convert E decode payload =
        if decode then decodeOutcome E r p doc else encodeOutcome E r p doc :=
  convert_found hload fun what => by simp [h]

/-- The what() text of an exception. -/
def Exn.what : Exn → String
  | .unparseableInput s => s
  | .missingInputElement s => s
  | .xpath s => s
  | .asn1Codec s => s
  | .uninitialised => ""

/-- The note about an error in the request. -/
def requestNote (what : String) (now : Clock) : ErrorNote := ⟨.ode, .request, what, true, now⟩

/-- The note about an error in the ASN.1 data. -/
def dataNote (what : String) (now : Clock) : ErrorNote := ⟨.ode, .data, what, false, now⟩

/-- The document a real message puts on the stream. -/
def recordDoc (E : Externals V) (decode : Bool) (errorDoc : Node) (now : Clock)
    (payload : String) : Node :=
  let o := convert E decode payload
  match o.result with
  | .ok _ => o.doc
  | .error (.asn1Codec what) => annotate (dataNote what now) o.doc
  | .error e => annotate (requestNote e.what now) errorDoc

/-- The error template after a real message. -/
def errorDocAfter (E : Externals V) (decode : Bool) (errorDoc : Node) (now : Clock)
    (payload : String) : Node :=
  match (convert E decode payload).result with
  | .ok _ => errorDoc
  | .error (.asn1Codec _) => errorDoc
  | .error e => annotate (requestNote e.what now) errorDoc

/-- The input document after a real message. -/
def inputDocAfter (E : Externals V) (decode : Bool) (now : Clock) (payload : String) : Node :=
  let o := convert E decode payload
  match o.result with
  | .error (.asn1Codec what) => annotate (dataNote what now) o.doc
  | _ => o.doc

/-- The codec after a real message, in the members that last. -/
def Codec.afterReal (E : Externals V) (m : Message) (now : Clock) (c : Codec) : Codec :=
  { c.received m with
    inputDoc := inputDocAfter E c.decodeFunctionality now m.payload
    errorDoc := errorDocAfter E c.decodeFunctionality c.errorDoc now m.payload
    calls := c.calls ++ (convert E c.decodeFunctionality m.payload).calls
    outputMessageStream := c.outputMessageStream ++
      save (recordDoc E c.decodeFunctionality c.errorDoc now m.payload) }

/-- The codec after an event that is not a real message. -/
def Codec.afterEvent (m : Message) (c : Codec) : Codec :=
  match m.err with
  | .noError => c
  | .timedOut => c
  | .msgTimedOut => c
  | .partitionEof =>
    if c.exitEof then
      { c with eofCnt := c.eofCnt + 1,
               dataAvailable := if c.eofCnt + 1 = c.partitionCnt then false else c.dataAvailable }
    else c
  | .unknownTopic => { c with dataAvailable := false }
  | .unknownPartition => { c with dataAvailable := false }
  | .other => { c with dataAvailable := false }

/-- An event that is not a real message touches the end-of-partition counter
and `data_available` only. -/
theorem handleMessage_event (E : Externals V) {m : Message} (hm : m.err ≠ .noError) (now : Clock)
    (c : Codec) : handleMessage E m now c = c.afterEvent m := by
  unfold handleMessage Codec.afterEvent
  rcases herr : m.err with - | - | - | - | - | - | -
  case noError => exact absurd herr hm
  case partitionEof =>
    by_cases hexit : c.exitEof
    · by_cases hlast : c.eofCnt + 1 = c.partitionCnt <;>
        simp [processMessage, herr, hexit, hlast]
    · simp [processMessage, herr, hexit]
  all_goals simp [processMessage, herr]

theorem catchException_lasting (now : Clock) (e : Exn) (c : Codec) :
    (catchException now e c).lasting = catchException now e c.lasting := by
  cases e <;> rfl

/-- **A real message adds one document to the stream**, in every case: the
converted document, or an error report. -/
theorem handleMessage_real (E : Externals V) {m : Message} (hm : m.err = .noError) (now : Clock)
    (c : Codec) : (handleMessage E m now c).lasting = (c.afterReal E m now).lasting := by
  obtain ⟨hres, hlast⟩ := processMessage_tells E hm c
  -- what a conversion writes is its document where it succeeds, and nothing where it throws
  have hsaves := saves_convert E c.decodeFunctionality m.payload
  rw [handleMessage]
  rcases hr : (processMessage E m).run c with ⟨b, c'⟩ | ⟨e, c'⟩
  · rw [hr] at hres hlast
    have hres : (convert E c.decodeFunctionality m.payload).result = .ok b := hres
    have hw := hsaves.written
    rw [hres] at hw
    show c'.lasting = _
    rw [show c'.lasting = _ from hlast]
    simp [Codec.afterReal, inputDocAfter, errorDocAfter, recordDoc, hres, Outcome.apply, hw,
      Codec.lasting, Codec.received]
  · rw [hr] at hres hlast
    have hres : (convert E c.decodeFunctionality m.payload).result = .error e := hres
    have hw := hsaves.written
    rw [hres] at hw
    have hcaught := hsaves.caught
    rw [hres] at hcaught
    show (catchException now e c').lasting = _
    rw [catchException_lasting, show c'.lasting = _ from hlast]
    have hreq (what : String) (doc : Node) : (addErrorXml doc .ode .request what true now).2 =
        annotate (requestNote what now) doc := addErrorXml_eq doc (requestNote what now)
    have hdat (what : String) (doc : Node) : (addErrorXml doc .ode .data what false now).2 =
        annotate (dataNote what now) doc := addErrorXml_eq doc (dataNote what now)
    cases e with
    | uninitialised => exact absurd rfl hcaught
    | _ =>
      simp [Codec.afterReal, inputDocAfter, errorDocAfter, recordDoc, hres, Outcome.apply, hw,
        Codec.lasting, Codec.received, catchException, Codec.reportInErrorDoc,
        Codec.reportInInputDoc, hreq, hdat, Exn.what]

/-- The input document is what the message makes of it. -/
theorem inputDoc_handleMessage (E : Externals V) {m : Message} (hm : m.err = .noError)
    (now : Clock) (c : Codec) :
    (handleMessage E m now c).inputDoc =
      inputDocAfter E c.decodeFunctionality now m.payload :=
  congrArg Codec.inputDoc (handleMessage_real E hm now c)

end Asn1Codec
