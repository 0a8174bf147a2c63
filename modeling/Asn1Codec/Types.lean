/-
Asn1Codec/Types.lean

The data model of the codec: the enumerations of acm.hpp, the exception
classes, the members of ASN1_Codec that survive from one message to the next,
and the libraries the codec calls.

A std::string is a `String` with one character for each byte, so its size is
the length.  pugixml and the asn1c runtime are not part of the repository:
`Externals` holds the functions the codec calls.  The DOM operations on a
document that is already loaded are those of `Xml.Node`.

The members sit in one record, `Codec`, and every method runs in `CodecM`, a
state monad with exceptions in which a throw *keeps* the members as they were
when it happened.  That is the C++ behaviour the catch blocks depend on: they
publish whatever the half-finished method left in `inputDoc`.
-/
import Asn1Codec.Xml.Reload
import Asn1Codec.Xml.Write

namespace Asn1Codec

open Xml (Node Loc ParseOptions)

/-! ### Enumerations -/

inductive Asn1ErrorType where
  | success
  | failure
  | request
  | data
  deriving DecidableEq

inductive Asn1DataType where
  | ode
  | xml
  | hex
  | payload
  deriving DecidableEq

/-- The table `asn1errortypes`. -/
def asn1errortypes : Asn1ErrorType → String
  | .success => "SUCCESS"
  | .failure => "FAILURE"
  | .request => "INVALID_REQUEST_TYPE_ERROR"
  | .data => "INVALID_DATA_TYPE_ERROR"

/-- The table `asn1datatypes`. -/
def asn1datatypes : Asn1DataType → String
  | .ode => "us.dot.its.jpo.ode.model.OdeStatus"
  | .xml => "MessageFrame"
  | .hex => "us.dot.its.jpo.ode.model.OdeHexByteArray"
  | .payload => "us.dot.its.jpo.ode.model.OdeAsn1Payload"

/-- asn1c's `asn_transfer_syntax`, as far as the codec names its values. -/
inductive TransferSyntax where
  | invalid
  | unalignedBasicPer
  | canonicalOer
  | basicXer
  | unalignedCanonicalPer
  | canonicalXer
  | ber
  | der
  | cer
  deriving DecidableEq

/-- The three type descriptors `asn_DEF_*` the codec uses. -/
inductive AsnType where
  | messageFrame
  | ieee1609Dot2Data
  | advisorySituationData
  deriving DecidableEq

/-- The `name` field of a type descriptor. -/
def AsnType.name : AsnType → String
  | .messageFrame => "MessageFrame"
  | .ieee1609Dot2Data => "Ieee1609Dot2Data"
  | .advisorySituationData => "AdvisorySituationData"

/-! The bits of `opsflag` and their combinations. -/

def IEEE1609DOT2 : UInt32 := 1
def J2735MESSAGEFRAME : UInt32 := 2
def IEEE1609DOT2_J2735MESSAGEFRAME : UInt32 := 3
def ASDFRAME : UInt32 := 4
def ASDFRAME_IEEE1609DOT2 : UInt32 := 5
def ASDFRAME_J2735MESSAGEFRAME : UInt32 := 6
def ASDFRAME_IEEE1609DOT2_J2735MESSAGEFRAME : UInt32 := 7

/-! ### Exceptions -/

/-- What a method can throw: the three classes of acm.hpp and pugixml's
xpath_exception, each with its what() text.  `uninitialised` is no exception
of the source: it stands for the read of an unset descriptor pointer in the
default branch of encode_frame_data. -/
inductive Exn where
  | unparseableInput (what : String)
  | missingInputElement (what : String)
  | xpath (what : String)
  | asn1Codec (what : String)
  | uninitialised
  deriving DecidableEq

/-! ### The libraries -/

/-- A failed parse: its description and the offset where it stopped. -/
structure ParseError where
  description : String
  offset : ℕ
  deriving DecidableEq

/-- asn1c's `asn_dec_rval_t` together with the decoded structure. -/
inductive DecRval (V : Type) where
  | ok (structure_ptr : V) (consumed : ℕ)
  | wmore (consumed : ℕ)
  | fail (consumed : ℕ)

/-- The library functions the codec calls, over a type `V` of decoded
structures.  They are functions of their arguments: `loadBuffer` discards the
document that was loaded before and leaves behind what the buffer determines,
also when it fails, and the asn1c runtime keeps nothing between calls. -/
structure Externals (V : Type) where
  /-- `xml_document::load_buffer`: the parse error, if any, and the document. -/
  loadBuffer : ParseOptions → String → Option ParseError × Node
  /-- `asn_decode`. -/
  asnDecode : TransferSyntax → AsnType → List Int8 → DecRval V
  /-- `asn_check_constraints`: the text written to errbuf when it fails. -/
  asnCheckConstraints : AsnType → V → Option String
  /-- `xer_encode` with XER_F_CANONICAL, or the name of the type that failed. -/
  xerEncode : AsnType → V → Except String String
  /-- `xer_decode`. -/
  xerDecode : AsnType → String → DecRval V
  /-- `asn_encode`, or the name of the type that failed. -/
  asnEncode : TransferSyntax → AsnType → V → Except String (List Int8)

/-- The results of the calls of get_current_time made while one message is
handled: the first fills receivedAt, the second generatedAt. -/
structure Clock where
  receivedAt : String
  generatedAt : String

/-! ### Consumed messages -/

/-- The values of RdKafka::ErrorCode that process_message tells apart. -/
inductive ErrorCode where
  | noError
  | timedOut
  | msgTimedOut
  | partitionEof
  | unknownTopic
  | unknownPartition
  | other
  deriving DecidableEq

/-- What consume() returns.  An event that is not a real message carries its
error text as payload. -/
structure Message where
  err : ErrorCode
  payload : String
  deriving DecidableEq

/-- `message->len()`. -/
def Message.len (m : Message) : ℕ := m.payload.length

/-- `message->err() == RdKafka::ERR__PARTITION_EOF`. -/
def Message.isEof (m : Message) : Bool := decide (m.err = .partitionEof)

/-- `message->err() == RdKafka::ERR_NO_ERROR`. -/
def Message.isReal (m : Message) : Bool := decide (m.err = .noError)

/-! ### The members of ASN1_Codec -/

/-- The members that set_codec_requirements fills from the encodings list. -/
structure Requirements where
  opsflag : UInt32
  decode1609dot2 : Bool
  decodeMessageframe : Bool
  decodeAsdframe : Bool
  decode1609dot2Type : TransferSyntax
  decodeMessageframeType : TransferSyntax
  decodeAsdframeType : TransferSyntax
  deriving DecidableEq

/-- An element of `protocol_`.  The path is kept as its list of names. -/
structure Part where
  op : UInt32
  decodeType : TransferSyntax
  nodePath : List String
  replace : Bool
  deriving DecidableEq

/-- A call of a layer's codec: the operation bit, the transfer syntax and the
text that was handed over (XML when encoding, hex when decoding). -/
structure Call where
  op : UInt32
  syntaxType : TransferSyntax
  data : String
  deriving DecidableEq

/-- The members of ASN1_Codec that the message path reads or writes, the two
static flags among them, the output stream its caller passes by reference, and
the log `calls` of the calls made to the layers' codecs.  The log is not in the
source: no method reads it.  `eofCnt` is an int32_t whose overflow C++ leaves
undefined, so it counts without a bound here. -/
structure Codec where
  bootstrap : Bool
  dataAvailable : Bool
  exitEof : Bool
  eofCnt : ℕ
  partitionCnt : ℕ
  msgRecvCount : UInt64
  msgSendCount : UInt64
  msgRecvBytes : UInt64
  msgSendBytes : UInt64
  inputDoc : Node
  internalDoc : Node
  errorDoc : Node
  decodeFunctionality : Bool
  req : Requirements
  currDecodeType : TransferSyntax
  currOp : UInt32
  currNodePath : List String
  payloadNode : Loc
  protocol : List Part
  hexData : List (String × String)
  outputMessageStream : String
  calls : List Call

/-- A method of the codec. -/
abbrev CodecM := EStateM Exn Codec

/-! ### Running a method -/

section Run

variable {ε σ α β : Type}

@[simp] theorem run_throw (e : ε) (s : σ) :
    EStateM.run (throw e : EStateM ε σ α) s = .error e s := rfl

@[simp] theorem run_map_modify (f : PUnit → α) (g : σ → σ) (s : σ) :
    (f <$> (modify g : EStateM ε σ PUnit)).run s = .ok (f ⟨⟩) (g s) := rfl

/-- Continue with a value, or rethrow. -/
def liftExcept : Except ε α → EStateM ε σ α
  | .ok a => pure a
  | .error e => throw e

@[simp] theorem run_liftExcept_ok (a : α) (s : σ) :
    EStateM.run (liftExcept (.ok a) : EStateM ε σ α) s = .ok a s := rfl

@[simp] theorem run_liftExcept_error (e : ε) (s : σ) :
    EStateM.run (liftExcept (.error e) : EStateM ε σ α) s = .error e s := rfl

/-- The state a run ends in, whether it returns or throws. -/
def finalState : EStateM.Result ε σ α → σ
  | .ok _ s => s
  | .error _ s => s

@[simp] theorem finalState_ok (a : α) (s : σ) :
    finalState (.ok a s : EStateM.Result ε σ α) = s := rfl

@[simp] theorem finalState_error (e : ε) (s : σ) :
    finalState (.error e s : EStateM.Result ε σ α) = s := rfl

end Run

/-- Run a method of the requirements on the codec. -/
def onRequirements {α : Type} (x : EStateM Exn Requirements α) : CodecM α := fun c =>
  match x c.req with
  | .ok a r => .ok a { c with req := r }
  | .error e r => .error e { c with req := r }

/-! ### What a method does -/

/-- The members that no method reads before it has written them are blanked:
`internal_doc`, the requirements, the loop variables of the encoder and the
handle of the payload. -/
def Codec.lasting (c : Codec) : Codec :=
  { c with
    internalDoc := .document []
    req := ⟨0, false, false, false, .invalid, .invalid, .invalid⟩
    currDecodeType := .invalid
    currOp := 0
    currNodePath := []
    payloadNode := []
    protocol := []
    hexData := [] }

/-- An account of a method that works on the input document: the document it
leaves, the calls it makes, what it writes to the stream and how it ends. -/
structure Outcome (α : Type) where
  doc : Node
  calls : List Call
  written : String
  result : Except Exn α

namespace Outcome

variable {α β : Type}

/-- Nothing is called or written, and `a` is returned. -/
def done (doc : Node) (a : α) : Outcome α := ⟨doc, [], "", .ok a⟩

/-- Nothing is called or written, and `e` is thrown. -/
def fail (doc : Node) (e : Exn) : Outcome α := ⟨doc, [], "", .error e⟩

/-- Continue with the document and the value, unless something was thrown. -/
def andThen (o : Outcome α) (f : Node → α → Outcome β) : Outcome β :=
  match o.result with
  | .ok a =>
    let o' := f o.doc a
    ⟨o'.doc, o.calls ++ o'.calls, o.written ++ o'.written, o'.result⟩
  | .error e => ⟨o.doc, o.calls, o.written, .error e⟩

/-- What an account says about the members that last. -/
def apply (o : Outcome α) (c : Codec) : Codec :=
  { c with
    inputDoc := o.doc
    calls := c.calls ++ o.calls
    outputMessageStream := c.outputMessageStream ++ o.written }

theorem apply_lasting (o : Outcome α) (c : Codec) :
    (o.apply c).lasting = o.apply c.lasting := rfl

/-- `o` tells how a run from `c` ends, up to the members that do not last. -/
def Tells (o : Outcome α) (c : Codec) (r : EStateM.Result Exn Codec α) : Prop :=
  (match r with
    | .ok a _ => o.result = .ok a
    | .error e _ => o.result = .error e) ∧
  (finalState r).lasting = (o.apply c).lasting

/-- A run returns what its account returns. -/
theorem Tells.ok {o : Outcome α} {c : Codec} {r : EStateM.Result Exn Codec α} (h : o.Tells c r)
    {a : α} (ho : o.result = .ok a) : ∃ c', r = .ok a c' := by
  obtain ⟨hres, -⟩ := h
  rcases r with ⟨b, c'⟩ | ⟨e, c'⟩
  · obtain rfl : a = b := Except.ok.inj (ho.symm.trans hres)
    exact ⟨c', rfl⟩
  · exact absurd (ho.symm.trans hres) (by simp)

/-- It throws what its account throws. -/
theorem Tells.error {o : Outcome α} {c : Codec} {r : EStateM.Result Exn Codec α}
    (h : o.Tells c r) {e : Exn} (ho : o.result = .error e) : ∃ c', r = .error e c' := by
  obtain ⟨hres, -⟩ := h
  rcases r with ⟨b, c'⟩ | ⟨e', c'⟩
  · exact absurd (ho.symm.trans hres) (by simp)
  · obtain rfl : e = e' := Except.error.inj (ho.symm.trans hres)
    exact ⟨c', rfl⟩

/-- A composed account that ends well splits into two that do. -/
theorem andThen_ok {o : Outcome α} {f : Node → α → Outcome β} {b : β}
    (h : (o.andThen f).result = .ok b) :
    ∃ a, o.result = .ok a ∧ (f o.doc a).result = .ok b ∧
      (o.andThen f).doc = (f o.doc a).doc ∧
      (o.andThen f).calls = o.calls ++ (f o.doc a).calls ∧
      (o.andThen f).written = o.written ++ (f o.doc a).written := by
  unfold andThen at h ⊢
  rcases ho : o.result with e | a
  · rw [ho] at h
    exact absurd h (by simp)
  · rw [ho] at h
    exact ⟨a, rfl, h, rfl, rfl, rfl⟩

/-- The calls of a composed account are those of its parts. -/
theorem forall_calls_andThen {P : Call → Prop} {o : Outcome α} {f : Node → α → Outcome β}
    (ho : ∀ call ∈ o.calls, P call) (hf : ∀ doc a, ∀ call ∈ (f doc a).calls, P call) :
    ∀ call ∈ (o.andThen f).calls, P call := by
  obtain ⟨doc, calls, written, e | a⟩ := o
  · exact ho
  · intro call hcall
    rcases List.mem_append.mp hcall with h | h
    · exact ho call h
    · exact hf doc a call h

/-- A stage: it writes nothing to the stream, and what it throws is caught. -/
structure Quiet (o : Outcome α) : Prop where
  written : o.written = ""
  caught : o.result ≠ .error .uninitialised

/-- A conversion: it writes its document when and only when it ends well, and
what it throws is caught. -/
structure Saves (o : Outcome α) : Prop where
  written : o.written = match o.result with
    | .ok _ => o.doc.save
    | .error _ => ""
  caught : o.result ≠ .error .uninitialised

theorem quiet_done (doc : Node) (a : α) : (done doc a).Quiet := ⟨rfl, by simp [done]⟩

theorem quiet_fail (doc : Node) {e : Exn} (he : e ≠ .uninitialised) :
    (fail doc e : Outcome α).Quiet :=
  ⟨rfl, by simpa [fail] using he⟩

theorem Quiet.andThen {o : Outcome α} {f : Node → α → Outcome β} (ho : o.Quiet)
    (hf : ∀ doc a, (f doc a).Quiet) : (o.andThen f).Quiet := by
  obtain ⟨doc, calls, written, e | a⟩ := o
  · exact ⟨ho.written, fun h => ho.caught (by simpa [Outcome.andThen] using h)⟩
  · refine ⟨?_, (hf doc a).caught⟩
    have hw : written = "" := ho.written
    show written ++ (f doc a).written = ""
    rw [hw, (hf doc a).written]
    rfl

theorem Quiet.saves {o : Outcome α} {f : Node → α → Outcome β} (ho : o.Quiet)
    (hf : ∀ doc a, (f doc a).Saves) : (o.andThen f).Saves := by
  obtain ⟨doc, calls, written, e | a⟩ := o
  · exact ⟨ho.written, fun h => ho.caught (by simpa [Outcome.andThen] using h)⟩
  · refine ⟨?_, (hf doc a).caught⟩
    have hw : written = "" := ho.written
    show written ++ (f doc a).written = _
    rw [hw, String.empty_append]
    exact (hf doc a).written

/-- A stage that always throws is a conversion that never writes. -/
theorem saves_fail (doc : Node) {e : Exn} (he : e ≠ .uninitialised) :
    (fail doc e : Outcome α).Saves :=
  ⟨rfl, by simpa [fail] using he⟩

end Outcome

end Asn1Codec
