/-
Asn1Codec/Atomicity.lean

What an encode that fails leaves of the payload.

A step removes its element before it calls the encoder, so when the encoder
throws, the element is gone, and the catch block publishes what is left.  The
number of elements of the layer's name tells the published document from the
annotated received one: the failing step lowers it, no earlier step raises it,
and the annotation keeps it.  The annotation may remove a bytes child together
with what is in it, so what stands in bytes elements is not counted.
-/
import Asn1Codec.Xml.Count
import Asn1Codec.Layered

namespace Asn1Codec

open Xml (Node Loc)
open Xml.Node

variable {V : Type}

/-! ### The annotation -/

/-- The annotation adds code and message and removes bytes; elements of other
names outside bytes stay. -/
theorem countAll_annotate {s : String} (hcode : "code" ≠ s) (hmessage : "message" ≠ s)
    (a : ErrorNote) (doc : Node) :
    countAll "bytes" s (annotate a doc).children = countAll "bytes" s doc.children := by
  have hdata : ∀ n, count "bytes" s (annotateData a n) = count "bytes" s n := by
    intro n
    simp only [annotateData]
    rw [count_mapChild (count_setText _), count_mapChild (count_setText _),
      count_ensureChild hmessage, count_ensureChild hcode, count_removeChild]
  have hpayload : ∀ n, count "bytes" s (annotatePayload a n) = count "bytes" s n := by
    intro n
    rw [annotatePayload, count_mapChild hdata, count_mapChild (count_setText _)]
  have hmetadata : ∀ n, count "bytes" s (annotateMetadata a n) = count "bytes" s n := by
    intro n
    simp only [annotateMetadata]
    rw [count_mapChild (count_setText _)]
    split
    · rw [count_mapChild (count_setText _), count_mapChild (count_setText _)]
    · rw [count_mapChild (count_setText _)]
  -- from data outwards: each edit is of a child, and keeps the count of that child
  have hode : ∀ n, count "bytes" s (annotateOde a n) = count "bytes" s n := by
    intro n
    rw [annotateOde, count_mapChild hpayload, count_mapChild hmetadata]
  rw [annotate]
  split
  · exact countAll_children_mapChild hode doc
  · rfl

/-! ### The steps -/

/-- A path to the element of a layer that leads through no bytes. -/
def LeadsTo (path : List String) (td : AsnType) : Prop :=
  ∃ path', path = path' ++ [td.name] ∧ "bytes" ∉ path'

theorem leadsTo_layerPath (requested : AsnType → Bool) (td : AsnType) :
    LeadsTo (layerPath requested td) td := by
  have hasd : "bytes" ∉ asdPath requested := by
    rw [asdPath]
    split <;> simp
  cases td with
  | advisorySituationData => exact ⟨[], rfl, by simp⟩
  | ieee1609Dot2Data => exact ⟨asdPath requested, rfl, hasd⟩
  | messageFrame =>
    rw [layerPath]
    split
    · refine ⟨asdPath requested ++ ["Ieee1609Dot2Data", "content", "unsecuredData"], ?_, ?_⟩
      · simp [AsnType.name]
      · simp [hasd]
    · exact ⟨asdPath requested, rfl, hasd⟩

variable {E : Externals V} {p : Loc} {part : Part} {doc : Node} {td : AsnType}

/-- Where a step throws an Asn1CodecError, its element is gone. -/
theorem encodeStep_asn1Codec {what : String}
    (h : (encodeStep E p part doc).result = .error (.asn1Codec what)) :
    ∃ data q, doc.at? p = some data ∧ locate part.nodePath data = some q ∧
      (encodeStep E p part doc).doc = eraseAt (p ++ q) doc := by
  rcases hq : (doc.at? p).bind (locate part.nodePath) with - | q
  · exact absurd h (by simp [encodeStep, hq, Outcome.fail])
  obtain ⟨data, hdata, hfound⟩ := Option.bind_eq_some_iff.mp hq
  refine ⟨data, q, hdata, hfound, ?_⟩
  simp only [encodeStep, hq] at h ⊢
  split at h
  · exact absurd h (by simp [Outcome.fail])
  · rename_i hne
    rw [if_neg hne]
    split at h
    · rfl
    · exact absurd h (by simp)

/-- The removal of an element raises no count. -/
theorem count_takeChild_le (skip s : String) (i : ℕ) (replace : Bool) (hex : String) (n : Node) :
    count skip s (takeChild i replace hex n) ≤ count skip s n := by
  rcases replace with - | -
  · exact count_eraseChild_le i n
  · exact (Nat.le_of_eq (count_setText ..)).trans (count_eraseChild_le i n)

/-- The step at which the encoder throws lowers the count of its layer. -/
theorem count_encodeStep_lt {what : String} (hp : locate odePayloadQuery doc = some p)
    (hpath : LeadsTo part.nodePath td)
    (h : (encodeStep E p part doc).result = .error (.asn1Codec what)) :
    countAll "bytes" td.name (encodeStep E p part doc).doc.children <
      countAll "bytes" td.name doc.children := by
  obtain ⟨path, hname, hbytes⟩ := hpath
  obtain ⟨data, q, hdata, hq, hdoc⟩ := encodeStep_asn1Codec h
  rw [hname] at hq
  have hqne : q ≠ [] := by
    intro hnil
    have hlen := length_of_locate hq
    simp [hnil] at hlen
  have hne : td.name ≠ "bytes" := by
    cases td <;> decide
  -- data is not in a bytes element, so what is lost in it is lost in the document
  rw [hdoc, eraseAt_mapAt p q hqne]
  exact countAll_children_mapAt_lt hp (by simp [odePayloadQuery]) (by decide) hdata
    fun hskip => count_eraseAt_lt hq hskip hbytes hne

/-- A step that succeeds raises no count, and the location of data stays. -/
theorem count_encodeStep_le {d : String × String} (hp : locate odePayloadQuery doc = some p)
    (hpath : LeadsTo part.nodePath td) (h : (encodeStep E p part doc).result = .ok d) :
    locate odePayloadQuery (encodeStep E p part doc).doc = some p ∧
      ∀ s, countAll "bytes" s (encodeStep E p part doc).doc.children ≤
        countAll "bytes" s doc.children := by
  obtain ⟨path, hname, -⟩ := hpath
  obtain ⟨data, q, n, hdata, hq, -, -, -, -, hdoc⟩ := encodeStep_ok h
  rw [hname] at hq
  obtain ⟨r, i, rfl⟩ := (List.eq_nil_or_concat q).resolve_left fun hnil => by
    have hlen := length_of_locate hq
    simp [hnil] at hlen
  rw [List.concat_eq_append, ← List.append_assoc, takeNode_eq] at hdoc
  rw [hdoc]
  refine ⟨locate_mapAt_below (fun s n => named_takeChild ..) hp r, fun s => ?_⟩
  refine countAll_children_mapAt_le (fun n => count_takeChild_le ..) ?_ doc
  have hlen := length_of_locate hp
  rintro hnil
  rw [List.append_eq_nil_iff] at hnil
  simp [hnil.1, odePayloadQuery] at hlen

/-- Where the first step succeeds and the run fails, the others do. -/
theorem encodeSteps_cons_error {parts : List Part} {d : String × String} {e : Exn}
    (hs : (encodeStep E p part doc).result = .ok d)
    (h : (encodeSteps E p (part :: parts) doc).result = .error e) :
    (encodeSteps E p parts (encodeStep E p part doc).doc).result = .error e ∧
      (encodeSteps E p (part :: parts) doc).doc =
        (encodeSteps E p parts (encodeStep E p part doc).doc).doc := by
  rcases hr : (encodeSteps E p parts (encodeStep E p part doc).doc).result with e' | ds
  · simp_all [encodeSteps, Outcome.andThen]
  · exact absurd h (by simp [encodeSteps, Outcome.andThen, Outcome.done, hs, hr])

/-- **A protocol that fails in the encoder has lost an element.** -/
theorem count_encodeSteps_lt {parts : List Part} {what : String}
    (hparts : ∀ part ∈ parts, ∃ td, LeadsTo part.nodePath td)
    (hp : locate odePayloadQuery doc = some p)
    (h : (encodeSteps E p parts doc).result = .error (.asn1Codec what)) :
    ∃ td : AsnType, countAll "bytes" td.name (encodeSteps E p parts doc).doc.children <
      countAll "bytes" td.name doc.children := by
  induction parts generalizing doc with
  | nil => exact absurd h (by simp [encodeSteps, Outcome.done])
  | cons part parts ih =>
    obtain ⟨td, hpath⟩ := hparts part (by simp)
    rcases hs : (encodeStep E p part doc).result with e | d
    · -- this step throws
      have hsame : encodeSteps E p (part :: parts) doc =
          ⟨(encodeStep E p part doc).doc, (encodeStep E p part doc).calls,
            (encodeStep E p part doc).written, .error e⟩ := by
        simp [encodeSteps, Outcome.andThen, hs]
      rw [hsame] at h ⊢
      obtain rfl := Except.error.inj h
      exact ⟨td, count_encodeStep_lt hp hpath hs⟩
    · -- a later one does
      obtain ⟨hp', hle⟩ := count_encodeStep_le hp hpath hs
      obtain ⟨hrest, hdoc⟩ := encodeSteps_cons_error hs h
      obtain ⟨td', hlt⟩ := ih (fun part' h' => hparts part' (by simp [h'])) hp' hrest
      refine ⟨td', ?_⟩
      rw [hdoc]
      exact hlt.trans_le (hle td'.name)

/-- An encoding that throws an Asn1CodecError has thrown it in a step. -/
theorem count_encodeOutcome_lt {r : Requirements} {what : String} (hagree : r.Agree)
    (hp : locate odePayloadQuery doc = some p)
    (h : (encodeOutcome E r p doc).result = .error (.asn1Codec what)) :
    ∃ td : AsnType, countAll "bytes" td.name (encodeOutcome E r p doc).doc.children <
      countAll "bytes" td.name doc.children := by
  have hparts : ∀ part ∈ r.parts, ∃ td, LeadsTo part.nodePath td := by
    rw [parts_eq_map]
    intro part hpart
    obtain ⟨td, -, rfl⟩ := List.mem_map.mp hpart
    exact ⟨td, leadsTo_layerPath r.requested td⟩
  -- without parts the switch over the operation bits has no case, and says so
  by_cases hnil : r.parts = []
  · exact absurd h (by simp [encodeOutcome, protocolFor_eq hagree, hnil, Outcome.fail])
  simp only [encodeOutcome, protocolFor_eq hagree, if_neg hnil] at h ⊢
  rcases hs : (encodeSteps E p r.parts doc).result with e | ds
  · simp only [Outcome.andThen, hs] at h ⊢
    obtain rfl := Except.error.inj h
    exact count_encodeSteps_lt hparts hp hs
  · -- after the steps, only the setting of the data type can throw
    simp only [Outcome.andThen, hs] at h
    rcases ht : (dataTypeOutcome p .hex
      "Failure to update path: OdeAsn1Data/payload/dataType in the output document."
      (appendHex p ds (encodeSteps E p r.parts doc).doc)).result with e | u
    · rw [dataTypeOutcome_error ht] at ht
      simp [ht] at h
    · simp [ht] at h

/-- So has the conversion of a message in encode mode. -/
theorem count_convert_lt {E : Externals V} {payload what : String} {doc : Node}
    (hload : E.loadBuffer xmlParseOptions payload = (none, doc))
    (h : (convert E false payload).result = .error (.asn1Codec what)) :
    ∃ td : AsnType, countAll "bytes" td.name (convert E false payload).doc.children <
      countAll "bytes" td.name doc.children := by
  have hfound : ∀ what', (convert E false payload).result ≠ .error (.unparseableInput what') := by
    intro what'
    rw [h]
    simp
  obtain ⟨r, p, hr, hp, hconv⟩ := convert_found hload hfound
  rw [hconv] at h ⊢
  exact count_encodeOutcome_lt (agree_codecRequirements hr) hp h

/-- **A failing encode never leaves the payload intact**: in encode mode,
whatever the message, whenever an Asn1CodecError is caught, the published
document is not the annotated received one, and it has lost an element of one
of the layers. -/
theorem failed_encode_loses {E : Externals V} {m : Message} {c c' : Codec} {doc : Node}
    {what : String} (hm : m.err = .noError) (hmode : c.decodeFunctionality = false)
    (hload : E.loadBuffer xmlParseOptions m.payload = (none, doc))
    (h : (processMessage E m).run c = .error (.asn1Codec what) c') (now : Clock) :
    let published := (handleMessage E m now c).inputDoc
    (handleMessage E m now c).outputMessageStream = c.outputMessageStream ++ save published ∧
      published ≠ annotate (dataNote what now) doc ∧
      ∃ td : AsnType, countAll "bytes" td.name published.children <
        countAll "bytes" td.name doc.children := by
  intro published
  obtain ⟨hres, -⟩ := processMessage_tells E hm c
  rw [h, hmode] at hres
  have hres : (convert E false m.payload).result = .error (.asn1Codec what) := hres
  have hlast := handleMessage_real E hm now c
  have hpublished : published = annotate (dataNote what now) (convert E false m.payload).doc := by
    have hinput : published = inputDocAfter E c.decodeFunctionality now m.payload :=
      inputDoc_handleMessage E hm now c
    rw [hinput, hmode]
    simp only [inputDocAfter, hres]
  have hstream : (handleMessage E m now c).outputMessageStream =
      c.outputMessageStream ++ save published := by
    have hrecord : (handleMessage E m now c).outputMessageStream = c.outputMessageStream ++
        save (recordDoc E c.decodeFunctionality c.errorDoc now m.payload) :=
      congrArg Codec.outputMessageStream hlast
    rw [hrecord, hmode, hpublished]
    simp only [recordDoc, hres]
  obtain ⟨td, hlt⟩ := count_convert_lt hload hres
  have hkeeps : ∀ doc, countAll "bytes" td.name (annotate (dataNote what now) doc).children =
      countAll "bytes" td.name doc.children := by
    intro doc
    cases td <;> exact countAll_annotate (by decide) (by decide) _ doc
  refine ⟨hstream, ?_, td, ?_⟩
  · intro hsame
    have heq : countAll "bytes" td.name published.children =
        countAll "bytes" td.name doc.children := by
      rw [hsame, hkeeps]
    rw [hpublished, hkeeps] at heq
    omega
  · rw [hpublished, hkeeps]
    exact hlt

/-! ### A failure in the middle layer -/

/-- Libraries that refuse the XML of the 1609.2 layer. -/
def refusing1609dot2 (doc : Node) : Externals Unit :=
  { oneByte doc with
    xerDecode := fun td xml => if td = .ieee1609Dot2Data then .fail 0 else .ok () xml.length }

theorem load_refusing1609dot2 (doc : Node) :
    (refusing1609dot2 doc).loadBuffer xmlParseOptions (messageOf doc).payload = (none, doc) :=
  load_oneByte doc

/-- The text of the exception it leads to. -/
def refusedText : String :=
  "failed ASN.1 decoding of XML element Ieee1609Dot2Data: bad data." ++ successfullyDecoded 0

def ieeePath : List String :=
  dataPath ++ ["AdvisorySituationData", "asdmDetails", "advisoryMessage", "Ieee1609Dot2Data"]

theorem thrown_refusing1609dot2 : ∃ c',
    (processMessage (refusing1609dot2 threeDoc) (messageOf threeDoc)).run encodingCodec =
      .error (.asn1Codec refusedText) c' := by
  have hconv : (convert (refusing1609dot2 threeDoc) false (messageOf threeDoc).payload).result =
      .error (.asn1Codec refusedText) := by
    decide +kernel
  exact @processMessage_error Unit _ (messageOf threeDoc) rfl encodingCodec _ hconv

/-- The published document is not the annotated received one. -/
theorem failed_encode_loses_threeDoc :
    (handleMessage (refusing1609dot2 threeDoc) (messageOf threeDoc) ⟨"t1", "t2"⟩
      encodingCodec).inputDoc ≠ annotate (dataNote refusedText ⟨"t1", "t2"⟩) threeDoc := by
  obtain ⟨c', hc'⟩ := thrown_refusing1609dot2
  exact (failed_encode_loses (m := messageOf threeDoc) rfl rfl (load_refusing1609dot2 threeDoc) hc'
    ⟨"t1", "t2"⟩).2.1

/-- The signed message was received, and neither it nor the hex of the
MessageFrame that was in it is published. -/
theorem signed_message_lost :
    let published := (handleMessage (refusing1609dot2 threeDoc) (messageOf threeDoc)
      ⟨"t1", "t2"⟩ encodingCodec).inputDoc
    (∃ c', (processMessage (refusing1609dot2 threeDoc) (messageOf threeDoc)).run encodingCodec =
      .error (.asn1Codec refusedText) c') ∧
    (threeDoc.descend ieeePath).isSome = true ∧ (published.descend ieeePath).isSome = false ∧
      (published.descend ieeePath.dropLast).map print = some "<advisoryMessage/>" := by
  intro published
  have hpublished : published =
      inputDocAfter (refusing1609dot2 threeDoc) false ⟨"t1", "t2"⟩ (messageOf threeDoc).payload :=
    inputDoc_handleMessage (refusing1609dot2 threeDoc) rfl ⟨"t1", "t2"⟩ encodingCodec
  rw [hpublished]
  refine ⟨thrown_refusing1609dot2, ?_, ?_, ?_⟩ <;> decide +kernel

end Asn1Codec
