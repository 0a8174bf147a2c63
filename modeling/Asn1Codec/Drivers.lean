/-
Asn1Codec/Drivers.lean

The three drivers of the pipeline agree.

file_test, which the unit tests run, filetest and the consume loop each load an
input, read its requirements, convert it and catch what is thrown.  The file
drivers share `convertBuffer`; it is processReal but for one text, and
`run_convertBuffer` says that nothing else follows from that text.  From there
on the three are compared on one run: what they write differs in the readings
of the clock and in the text of data/message, which `blank` clears.
-/
import Asn1Codec.Stateless

namespace Asn1Codec

open Xml (Node Loc)
open Xml.Node

variable {V : Type}

/-! ### The file drivers -/

/-- The body of the try block, with the text about a missing path. -/
def convertBuffer (E : Externals V) (missing payload : String) : CodecM Bool := do
  modify fun c => { c with inputDoc := (E.loadBuffer xmlParseOptions payload).2 }
  match (E.loadBuffer xmlParseOptions payload).1 with
  | some e => throw (.unparseableInput (e.text "Input file parse error: "))
  | none =>
    setCodecRequirements
    let c ← get
    match locate odePayloadQuery c.inputDoc with
    | none => throw (.unparseableInput missing)
    | some p =>
      modify fun c => { c with payloadNode := p }
      if c.decodeFunctionality then decodeMessage E p else encodeMessage E

/-- The text of the file drivers. -/
def missingInDocument : String :=
  "Failed to find path: OdeAsn1Data/payload/data in the input document."

/-- The text of process_message. -/
def missingInFile : String :=
  "Failed to find the OdeAsn1Data/payload/data field in the input file."

/-- What a driver does with a buffer: the exception whose catch block it enters,
if any, what it writes and the codec afterwards. -/
structure Driven where
  caught : Option Exn
  written : String
  codec : Codec

/-- A try block with the catch blocks behind it, from an empty stream. -/
def drive (x : CodecM Bool) (now : Clock) (c : Codec) : Driven :=
  match x.run { c with outputMessageStream := "" } with
  | .ok _ c' => ⟨none, c'.outputMessageStream, c'⟩
  | .error e c' =>
    ⟨some e, (catchException now e c').outputMessageStream, catchException now e c'⟩

/-- The block under `if ( consumed_xml_buffer.size() > 0 )`. -/
def driveFile (E : Externals V) (buffer : String) (now : Clock) (c : Codec) : Driven :=
  drive (convertBuffer E missingInDocument buffer) now (c.received ⟨.noError, buffer⟩)

/-- file_test on a file, if it can be opened: whether it returns EXIT_SUCCESS,
the stream `os` and the codec. -/
def fileTest (E : Externals V) (file : Option String) (os : String) (encode : Bool) (now : Clock)
    (c : Codec) : Bool × String × Codec :=
  match file with
  | none => (false, os, c)
  | some buffer =>
    let c := { c with decodeFunctionality := !encode }
    if buffer.length > 0 then
      let d := driveFile E buffer now c
      (d.caught.isNone, os ++ (d.written ++ "\n"), d.codec)
    else (true, os, c)

/-- filetest: `configured` is the codec that configure() leaves where it
succeeds, and `cout` the standard output. -/
def filetest (E : Externals V) (configured : Option Codec) (file : Option String) (cout : String)
    (now : Clock) : Bool × String × Option Codec :=
  match configured with
  | none => (false, cout, none)
  | some c =>
    match file with
    | none => (false, cout, some c)
    | some buffer =>
      if buffer.length > 0 then
        let d := driveFile E buffer now c
        (d.caught.isNone, cout ++ (d.written ++ "\n"), some d.codec)
      else (true, cout, some c)

/-- The consume loop on a real message, up to the publication. -/
def driveKafka (E : Externals V) (payload : String) (now : Clock) (c : Codec) : Driven :=
  drive (processMessage E ⟨.noError, payload⟩) now c

/-- It is the turn of operator(). -/
theorem driveKafka_handleMessage (E : Externals V) (payload : String) (now : Clock) (c : Codec) :
    (driveKafka E payload now c).codec =
        handleMessage E ⟨.noError, payload⟩ now { c with outputMessageStream := "" } ∧
    (driveKafka E payload now c).written =
      (handleMessage E ⟨.noError, payload⟩ now
        { c with outputMessageStream := "" }).outputMessageStream := by
  rw [driveKafka, drive, handleMessage]
  rcases (processMessage E ⟨.noError, payload⟩).run { c with outputMessageStream := "" }
    with ⟨a, c'⟩ | ⟨e, c'⟩
  · exact ⟨rfl, rfl⟩
  · exact ⟨rfl, rfl⟩

/-! ### One run -/

theorem processReal_eq (E : Externals V) (payload : String) :
    processReal E payload = convertBuffer E missingInFile payload := rfl

/-- Nothing but the text of one exception depends on the text. -/
theorem run_convertBuffer (E : Externals V) (text text' payload : String) (c : Codec) :
    (convertBuffer E text payload).run c = (convertBuffer E text' payload).run c ∨
    ∃ c', (convertBuffer E text payload).run c = .error (.unparseableInput text) c' ∧
      (convertBuffer E text' payload).run c = .error (.unparseableInput text') c' := by
  rcases hl : E.loadBuffer xmlParseOptions payload with ⟨- | e, doc⟩
  · rcases hs : setCodecRequirements.run { c with inputDoc := doc } with ⟨u, s⟩ | ⟨e, s⟩
    · rcases hp : locate odePayloadQuery s.inputDoc with - | p
      · exact .inr ⟨s, by simp [convertBuffer, hl, hs, hp], by simp [convertBuffer, hl, hs, hp]⟩
      · exact .inl (by simp [convertBuffer, hl, hs, hp])
    · exact .inl (by simp [convertBuffer, hl, hs])
  · exact .inl (by simp [convertBuffer, hl])

/-! ### What is written -/

/-- The classes of exceptions. -/
inductive ExnClass where
  | unparseableInput
  | missingInputElement
  | xpath
  | asn1Codec
  | uninitialised
  deriving DecidableEq

def Exn.exnClass : Exn → ExnClass
  | .unparseableInput _ => .unparseableInput
  | .missingInputElement _ => .missingInputElement
  | .xpath _ => .xpath
  | .asn1Codec _ => .asn1Codec
  | .uninitialised => .uninitialised

/-- A document that is written: the converted input, the input annotated or the
error template annotated, as the class of the exception says. -/
def Written (template input : Node) : Option ExnClass → Node → Prop
  | none, d => d = input
  | some .asn1Codec, d => ∃ what now, d = annotate (dataNote what now) input
  | some _, d => ∃ what now, d = annotate (requestNote what now) template

/-- The timestamps and the text of data/message are cleared. -/
def blankMetadata (n : Node) : Node :=
  (n.mapChild "receivedAt" (setText "")).mapChild "generatedAt" (setText "")

def blankPayload (n : Node) : Node := n.mapChild "data" (mapChild "message" (setText ""))

def blankOde (n : Node) : Node :=
  (n.mapChild "metadata" blankMetadata).mapChild "payload" blankPayload

def blank (doc : Node) : Node := doc.mapChild "OdeAsn1Data" blankOde

/-- Two notes that differ in their text and their clock. -/
structure SameNote (a b : ErrorNote) : Prop where
  dt : a.dt = b.dt
  et : a.et = b.et
  updateTime : a.updateTime = b.updateTime

theorem blankMetadata_annotateMetadata {a b : ErrorNote} (hab : SameNote a b) (n : Node) :
    blankMetadata (annotateMetadata a n) = blankMetadata (annotateMetadata b n) := by
  have hrg := @mapChild_setText_comm "receivedAt" "generatedAt" (by decide)
  rw [blankMetadata, blankMetadata, annotateMetadata, annotateMetadata, hab.updateTime]
  rcases b.updateTime with - | -
  · simp only [Bool.false_eq_true, if_false, hrg, mapChild_setText_setText]
  · simp only [if_true, hrg, mapChild_setText_setText]

theorem blankPayload_annotatePayload {a b : ErrorNote} (hab : SameNote a b) (n : Node) :
    blankPayload (annotatePayload a n) = blankPayload (annotatePayload b n) := by
  have hdata : mapChild "message" (setText "") ∘ annotateData a =
      mapChild "message" (setText "") ∘ annotateData b := by
    funext d
    show (annotateData a d).mapChild "message" (setText "") =
      (annotateData b d).mapChild "message" (setText "")
    rw [annotateData, annotateData, mapChild_setText_setText, mapChild_setText_setText, hab.et]
  rw [blankPayload, blankPayload, annotatePayload, annotatePayload, hab.dt,
    mapChild_mapChild _ _ _ (by simp), mapChild_mapChild _ _ _ (by simp), hdata]

/-- Clearing an annotated element, child by child. -/
theorem blankOde_annotateOde (a : ErrorNote) (n : Node) :
    blankOde (annotateOde a n) =
      (n.mapChild "metadata" (blankMetadata ∘ annotateMetadata a)).mapChild "payload"
        (blankPayload ∘ annotatePayload a) := by
  have hmeta : ∀ s m, (blankMetadata m).named s = m.named s := by simp [blankMetadata]
  calc blankOde (annotateOde a n)
      = (((n.mapChild "metadata" (annotateMetadata a)).mapChild "payload"
          (annotatePayload a)).mapChild "metadata" blankMetadata).mapChild "payload"
          blankPayload := rfl
    _ = (((n.mapChild "metadata" (annotateMetadata a)).mapChild "metadata"
          blankMetadata).mapChild "payload" (annotatePayload a)).mapChild "payload"
          blankPayload := by
        rw [mapChild_comm (s := "metadata") (t := "payload") (by decide) _ _
          (fun m => hmeta _ m) (by simp)]
    _ = _ := by
        rw [mapChild_mapChild "metadata" _ _ (by simp), mapChild_mapChild "payload" _ _ (by simp)]

/-- Annotations that differ in their text and their clock are cleared to the
same document. -/
theorem blank_annotate {a b : ErrorNote} (hab : SameNote a b) (doc : Node) :
    blank (annotate a doc) = blank (annotate b doc) := by
  have hmeta : blankMetadata ∘ annotateMetadata a = blankMetadata ∘ annotateMetadata b :=
    funext (blankMetadata_annotateMetadata hab)
  have hpay : blankPayload ∘ annotatePayload a = blankPayload ∘ annotatePayload b :=
    funext (blankPayload_annotatePayload hab)
  have hode : blankOde ∘ annotateOde a = blankOde ∘ annotateOde b := by
    funext n
    show blankOde (annotateOde a n) = blankOde (annotateOde b n)
    rw [blankOde_annotateOde, blankOde_annotateOde, hmeta, hpay]
  rw [annotate, annotate]
  split
  · rw [blank, blank, mapChild_mapChild _ _ _ (by simp), mapChild_mapChild _ _ _ (by simp), hode]
  · rfl

theorem sameNote_dataNote (what what' : String) (now now' : Clock) :
    SameNote (dataNote what now) (dataNote what' now') := ⟨rfl, rfl, rfl⟩

theorem sameNote_requestNote (what what' : String) (now now' : Clock) :
    SameNote (requestNote what now) (requestNote what' now') := ⟨rfl, rfl, rfl⟩

/-- What is written is determined up to the timestamps and the message. -/
theorem Written.blank_eq {template input : Node} {cls : Option ExnClass} {d d' : Node}
    (hd : Written template input cls d) (hd' : Written template input cls d') :
    blank d = blank d' := by
  rcases cls with - | cls
  · rw [show d = input from hd, show d' = input from hd']
  · rcases cls with - | - | - | - | -
    case asn1Codec =>
      obtain ⟨what, now, rfl⟩ := hd
      obtain ⟨what', now', rfl⟩ := hd'
      exact blank_annotate (sameNote_dataNote ..) input
    all_goals
      obtain ⟨what, now, rfl⟩ := hd
      obtain ⟨what', now', rfl⟩ := hd'
      exact blank_annotate (sameNote_requestNote ..) template

/-! ### How a run ends -/

/-- The class of the exception a run throws. -/
def runClass : EStateM.Result Exn Codec Bool → Option ExnClass
  | .ok _ _ => none
  | .error e _ => some e.exnClass

/-- The converted input is on the stream, or nothing is and the catch blocks
find the error template as it was. -/
def EndsWell (template : Node) : EStateM.Result Exn Codec Bool → Prop
  | .ok _ c => c.outputMessageStream = save c.inputDoc
  | .error e c => c.outputMessageStream = "" ∧ e ≠ .uninitialised ∧ c.errorDoc = template

/-- A run of the pipeline from an empty stream. -/
theorem endsWell_processMessage (E : Externals V) (payload : String) (c : Codec)
    (hc : c.outputMessageStream = "") :
    EndsWell c.errorDoc ((processMessage E ⟨.noError, payload⟩).run c) := by
  have htells := processMessage_tells E (m := ⟨.noError, payload⟩) rfl c
  obtain ⟨hwritten, hcaught⟩ := saves_convert E c.decodeFunctionality payload
  obtain ⟨hresult, hlasting⟩ := htells
  have hdoc := congrArg Codec.inputDoc hlasting
  have htemplate := congrArg Codec.errorDoc hlasting
  have hout := congrArg Codec.outputMessageStream hlasting
  have hstart : (Outcome.apply (convert E c.decodeFunctionality payload)
      (c.received ⟨.noError, payload⟩)).lasting.outputMessageStream =
      (convert E c.decodeFunctionality payload).written := by
    show c.outputMessageStream ++ _ = _
    rw [hc, String.empty_append]
  rw [hstart] at hout
  rcases hr : (processMessage E ⟨.noError, payload⟩).run c with ⟨a, c'⟩ | ⟨e, c'⟩
  · rw [hr] at hresult hdoc hout
    have hresult : (convert E c.decodeFunctionality payload).result = .ok a := hresult
    rw [hresult] at hwritten
    show c'.outputMessageStream = save c'.inputDoc
    calc c'.outputMessageStream = _ := hout
      _ = save (convert E c.decodeFunctionality payload).doc := hwritten
      _ = save c'.inputDoc := congrArg save hdoc.symm
  · -- nothing is written before an exception, and it is none that escapes the handlers
    rw [hr] at hresult htemplate hout
    have hresult : (convert E c.decodeFunctionality payload).result = .error e := hresult
    rw [hresult] at hwritten hcaught
    refine ⟨hout.trans hwritten, ?_, htemplate⟩
    rintro rfl
    exact hcaught rfl

/-- What is written after a run that ends well. -/
theorem drive_written {template : Node} (x : CodecM Bool) (c : Codec)
    (h : EndsWell template (x.run { c with outputMessageStream := "" })) (now : Clock) :
    ∃ d, (drive x now c).written = save d ∧
      (drive x now c).caught.map Exn.exnClass =
        runClass (x.run { c with outputMessageStream := "" }) ∧
      Written template (finalState (x.run { c with outputMessageStream := "" })).inputDoc
        (runClass (x.run { c with outputMessageStream := "" })) d := by
  have hreq (what : String) (doc : Node) : (addErrorXml doc .ode .request what true now).2 =
      annotate (requestNote what now) doc := addErrorXml_eq doc (requestNote what now)
  have hdat (what : String) (doc : Node) : (addErrorXml doc .ode .data what false now).2 =
      annotate (dataNote what now) doc := addErrorXml_eq doc (dataNote what now)
  rw [drive]
  rcases hr : x.run { c with outputMessageStream := "" } with ⟨a, c'⟩ | ⟨e, c'⟩
  · rw [hr] at h
    exact ⟨c'.inputDoc, h, rfl, rfl⟩
  · rw [hr] at h
    obtain ⟨hout, hcaught, rfl⟩ := h
    cases e with
    | uninitialised => exact absurd rfl hcaught
    | asn1Codec what =>
      refine ⟨annotate (dataNote what now) c'.inputDoc, ?_, rfl, what, now, rfl⟩
      simp [catchException, Codec.reportInInputDoc, hout, hdat]
    | _ what =>
      refine ⟨annotate (requestNote what now) c'.errorDoc, ?_, rfl, what, now, rfl⟩
      simp [catchException, Codec.reportInErrorDoc, hout, hreq]

/-- The file drivers' run beside the one of process_message. -/
theorem run_convertBuffer_document (E : Externals V) (payload : String) (c : Codec) :
    let r := (convertBuffer E missingInDocument payload).run (c.received ⟨.noError, payload⟩)
    let r' := (processMessage E ⟨.noError, payload⟩).run c
    runClass r = runClass r' ∧ finalState r = finalState r' ∧
      ∀ template, EndsWell template r' → EndsWell template r := by
  have hrun : (processMessage E ⟨.noError, payload⟩).run c =
      (convertBuffer E missingInFile payload).run (c.received ⟨.noError, payload⟩) := by
    rw [← processReal_eq]
    simp [processMessage]
  simp only [hrun]
  rcases run_convertBuffer E missingInDocument missingInFile payload
    (c.received ⟨.noError, payload⟩) with h | ⟨c', h, h'⟩
  · rw [h]
    exact ⟨rfl, rfl, fun _ hwell => hwell⟩
  · rw [h, h']
    exact ⟨rfl, rfl, fun _ hwell => ⟨hwell.1, by simp, hwell.2.2⟩⟩

/-- What a file driver writes, from the run of process_message. -/
theorem driveFile_written (E : Externals V) (buffer : String) (now : Clock) (c : Codec) :
    let r := (processMessage E ⟨.noError, buffer⟩).run { c with outputMessageStream := "" }
    ∃ d, (driveFile E buffer now c).written = save d ∧
      (driveFile E buffer now c).caught.map Exn.exnClass = runClass r ∧
      Written c.errorDoc (finalState r).inputDoc (runClass r) d := by
  intro r
  have hwell : EndsWell c.errorDoc r :=
    endsWell_processMessage E buffer { c with outputMessageStream := "" } rfl
  obtain ⟨hclass, hfinal, hfile⟩ :=
    run_convertBuffer_document E buffer { c with outputMessageStream := "" }
  obtain ⟨d, hd, hcaught, hw⟩ := drive_written (convertBuffer E missingInDocument buffer)
    (c.received ⟨.noError, buffer⟩) (hfile _ hwell) now
  refine ⟨d, hd, hcaught.trans hclass, ?_⟩
  -- the run has the class and the final state of the other
  rw [← hclass, ← hfinal]
  exact hw

/-- **The three drivers agree.**  On a non-empty buffer and in the same mode,
file_test, filetest and the consume loop catch an exception of the same class
or none, make the same choice of the document to write, and write the same
document up to the timestamps and the text of data/message. -/
theorem drivers_agree (E : Externals V) (c : Codec) {buffer : String} (hbuffer : buffer ≠ "")
    (now₁ now₂ now₃ : Clock) (os cout : String) :
    ∃ (cls : Option ExnClass) (input d₁ d₂ d₃ : Node) (c₁ c₂ : Codec),
      fileTest E (some buffer) os (!c.decodeFunctionality) now₁ c =
        (cls.isNone, os ++ (save d₁ ++ "\n"), c₁) ∧
      filetest E (some c) (some buffer) cout now₂ =
        (cls.isNone, cout ++ (save d₂ ++ "\n"), some c₂) ∧
      (handleMessage E ⟨.noError, buffer⟩ now₃
        { c with outputMessageStream := "" }).outputMessageStream = save d₃ ∧
      (driveFile E buffer now₁ c).caught.map Exn.exnClass = cls ∧
      (driveFile E buffer now₂ c).caught.map Exn.exnClass = cls ∧
      (driveKafka E buffer now₃ c).caught.map Exn.exnClass = cls ∧
      Written c.errorDoc input cls d₁ ∧ Written c.errorDoc input cls d₂ ∧
      Written c.errorDoc input cls d₃ ∧ blank d₁ = blank d₃ ∧ blank d₂ = blank d₃ := by
  let c₀ : Codec := { c with outputMessageStream := "" }
  have hkafka := endsWell_processMessage E buffer c₀ rfl
  obtain ⟨d₁, hd₁, hclass₁, hw₁⟩ := driveFile_written E buffer now₁ c
  obtain ⟨d₂, hd₂, hclass₂, hw₂⟩ := driveFile_written E buffer now₂ c
  obtain ⟨d₃, hd₃, hclass₃, hw₃⟩ :=
    drive_written (processMessage E ⟨.noError, buffer⟩) c hkafka now₃
  have hnone : ∀ now, (driveFile E buffer now c).caught.isNone =
      ((driveFile E buffer now c).caught.map Exn.exnClass).isNone := fun now => by simp
  have hlen : buffer.length > 0 := by
    rw [gt_iff_lt, Nat.pos_iff_ne_zero, ne_eq, String.length_eq_zero_iff]
    exact hbuffer
  -- fileTest is given the mode negated, and negates it again
  have hmode : { c with decodeFunctionality := !!c.decodeFunctionality } = c := by
    rw [Bool.not_not]
  refine ⟨runClass ((processMessage E ⟨.noError, buffer⟩).run c₀), _, d₁, d₂, d₃,
    (driveFile E buffer now₁ c).codec, (driveFile E buffer now₂ c).codec, ?_, ?_, ?_, hclass₁,
    hclass₂, hclass₃, hw₁, hw₂, hw₃, hw₁.blank_eq hw₃, hw₂.blank_eq hw₃⟩
  · rw [fileTest]
    simp only [hlen, if_true, hmode, hnone, hclass₁]
    exact congrArg (fun w => (_, os ++ (w ++ "\n"), _)) hd₁
  · rw [filetest]
    simp only [hlen, if_true, hnone, hclass₂]
    exact congrArg (fun w => (_, cout ++ (w ++ "\n"), _)) hd₂
  · -- the consumer is the driver that keeps its stream
    rw [← (driveKafka_handleMessage E buffer now₃ c).2]
    exact hd₃

/-- A MessageFrame that each driver decodes. -/
theorem drivers_agree_messageFrame :
    let E := decoding (bytesDoc [("MessageFrame", "UPER")])
    let buffer := (messageOf (bytesDoc [("MessageFrame", "UPER")])).payload
    (convert E configuredCodec.decodeFunctionality buffer).result = .ok true ∧
    ∃ (cls : Option ExnClass) (input d₁ d₂ d₃ : Node) (c₁ c₂ : Codec),
      fileTest E (some buffer) "" (!configuredCodec.decodeFunctionality) ⟨"t1", "t2"⟩
        configuredCodec = (cls.isNone, "" ++ (save d₁ ++ "\n"), c₁) ∧
      filetest E (some configuredCodec) (some buffer) "" ⟨"t3", "t4"⟩ =
        (cls.isNone, "" ++ (save d₂ ++ "\n"), some c₂) ∧
      (handleMessage E ⟨.noError, buffer⟩ ⟨"t5", "t6"⟩
        { configuredCodec with outputMessageStream := "" }).outputMessageStream = save d₃ ∧
      (driveFile E buffer ⟨"t1", "t2"⟩ configuredCodec).caught.map Exn.exnClass = cls ∧
      (driveFile E buffer ⟨"t3", "t4"⟩ configuredCodec).caught.map Exn.exnClass = cls ∧
      (driveKafka E buffer ⟨"t5", "t6"⟩ configuredCodec).caught.map Exn.exnClass = cls ∧
      Written configuredCodec.errorDoc input cls d₁ ∧
      Written configuredCodec.errorDoc input cls d₂ ∧
      Written configuredCodec.errorDoc input cls d₃ ∧ blank d₁ = blank d₃ ∧
      blank d₂ = blank d₃ := by
  intro E buffer
  have hbuffer : buffer ≠ "" := fun h =>
    Nat.ne_of_gt (len_messageOf ..) (String.length_eq_zero_iff.mpr h)
  refine ⟨by decide +kernel, ?_⟩
  exact drivers_agree E configuredCodec hbuffer ⟨"t1", "t2"⟩ ⟨"t3", "t4"⟩ ⟨"t5", "t6"⟩ "" ""

end Asn1Codec
