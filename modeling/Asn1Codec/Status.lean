/-
Asn1Codec/Status.lean

How a record says that it reports an error.

The only mark is payload/dataType.  A report sets it to OdeStatus, and the two
conversions set it to something else, with one exception: the 1609.2 layer alone
is unwrapped without a word about what is left, so the data type stays as it was
received.

Main result: in a document that has the places for it, the mark is right, up to
this exception (`status_iff_failed`).
-/
import Asn1Codec.Edited

namespace Asn1Codec

open Xml (Loc Node)
open Xml.Node

variable {V : Type} {E : Externals V}

/-! ### The mark -/

def dataTypePath : List String := payloadPath ++ ["dataType"]

/-- The data type that a reader finds. -/
def dataTypeOf (doc : Node) : Option String := (doc.descend dataTypePath).bind text?

/-- The places that the conversions and the reports write to are there. -/
structure Envelope (doc : Node) : Prop where
  metadata : (doc.descend metadataPath).isSome = true
  data : (doc.descend dataPath).isSome = true
  dataType : (doc.descend dataTypePath).isSome = true

theorem descend_dataTypePath (doc : Node) :
    doc.descend dataTypePath = (doc.descend payloadPath).bind fun n => n.child "dataType" := by
  rw [dataTypePath, descend_append]
  exact Option.bind_congr fun n _ => descend_singleton n "dataType"

/-- The data type is found in the payload. -/
theorem dataTypeOf_eq (doc : Node) :
    dataTypeOf doc = (doc.descend payloadPath).bind fun n => n.childText? "dataType" := by
  rw [dataTypeOf, descend_dataTypePath, Option.bind_assoc]
  rfl

theorem isSome_payload {doc : Node} (h : (doc.descend dataTypePath).isSome = true) :
    (doc.descend payloadPath).isSome = true := by
  rw [descend_dataTypePath] at h
  rcases hp : doc.descend payloadPath with - | n
  · rw [hp] at h
    cases h
  · rfl

/-- A report sets it. -/
theorem dataTypeOf_annotate (a : ErrorNote) {doc : Node}
    (hmetadata : (doc.descend metadataPath).isSome = true)
    (htype : (doc.descend dataTypePath).isSome = true) :
    dataTypeOf (annotate a doc) = some (asn1datatypes a.dt) := by
  have hannotate : annotate a doc = doc.mapChild "OdeAsn1Data" (annotateOde a) := by
    rw [annotate, if_pos ⟨hmetadata, isSome_payload htype⟩]
  -- the payload of the report is the payload, annotated
  have hpayload : (annotate a doc).descend payloadPath =
      (doc.descend payloadPath).map (annotatePayload a) := by
    rw [hannotate]
    simp only [payloadPath, descend_cons, descend_nil]
    rw [child_mapChild "OdeAsn1Data" _ (by simp)]
    rcases doc.child "OdeAsn1Data" with - | n
    · rfl
    · rw [Option.map_some, Option.bind_some, Option.bind_some, annotateOde,
        child_mapChild "payload" _ (by simp), child_mapChild_of_ne (by decide) _ (by simp)]
      rcases n.child "payload" with - | m <;> rfl
  rw [descend_dataTypePath] at htype
  rw [dataTypeOf_eq, hpayload]
  rcases hp : doc.descend payloadPath with - | n
  · rw [hp] at htype
    cases htype
  rcases hc : n.child "dataType" with - | c
  · rw [hp, Option.bind_some, hc] at htype
    cases htype
  rw [Option.map_some, Option.bind_some, annotatePayload, childText?,
    child_mapChild_of_ne (by decide) _ (by simp), child_mapChild "dataType" _ (by simp), hc]
  exact text?_setText (child_named hc) _

/-! ### Conversions -/

/-- Edits keep the places. -/
theorem Envelope.edited {p : Loc} {doc doc' : Node} (h : Envelope doc) (hedited : Edited p doc doc')
    (hp : locate odePayloadQuery doc = some p) : Envelope doc' where
  metadata := (hedited.isSome_descend hp (by decide)).trans h.metadata
  data := (hedited.isSome_descend hp (by decide)).trans h.data
  dataType := (hedited.isSome_descend hp (by decide)).trans h.dataType

/-- The data type beside data is the one that is found. -/
theorem dataTypeOf_located {p : Loc} {doc n : Node} (hdata : (doc.descend dataPath).isSome = true)
    (hp : locate odePayloadQuery doc = some p) (hn : doc.at? p.dropLast = some n) :
    dataTypeOf doc = n.childText? "dataType" := by
  have hpayload : doc.descend payloadPath = doc.at? p.dropLast := by
    exact @descend_of_locate payloadPath "data" doc p hp hdata
  rw [dataTypeOf_eq, hpayload, hn]
  rfl

/-- The removal of the bytes leaves it. -/
theorem dataTypeOf_removed {p : Loc} {doc : Node} (h : Envelope doc)
    (hp : locate odePayloadQuery doc = some p) :
    dataTypeOf (mapAt (removeChild "bytes") p doc) = dataTypeOf doc := by
  have hremoved : Edited p doc (mapAt (removeChild "bytes") p doc) :=
    @edited_received p doc _ true .refl
  have hedits : Edits [[]] (removeChild "bytes") := .whole fun s n => named_removeChild s "bytes" n
  have hapart : ∀ e ∈ [[]], Xml.Apart (odePayloadQuery ++ e) dataTypePath := by decide
  have hselect := select_mapAt_apart hedits (by simp) (leads_of_locate hp) hapart
  rw [select_of_descend (h.edited hremoved hp).dataType, select_of_descend h.dataType] at hselect
  rw [dataTypeOf, dataTypeOf, hselect]

/-- What a conversion that succeeds makes of it. -/
theorem dataTypeOf_convert (hxer : XerNamed E) {decode : Bool} {payload : String} {doc : Node}
    {b : Bool} (hload : E.loadBuffer xmlParseOptions payload = (none, doc)) (h : Envelope doc)
    (hok : (convert E decode payload).result = .ok b) :
    ∃ r, codecRequirements doc = .ok r ∧ dataTypeOf (convert E decode payload).doc =
      if decode then
        if r.decodeMessageframe then some (asn1datatypes .xml) else dataTypeOf doc
      else some (asn1datatypes .hex) := by
  obtain ⟨p, hp, hedited⟩ := @edited_convert _ E doc hxer decode payload hload (by simp [hok])
    (by simp [hok])
  obtain ⟨r, p', hr, hp', hconv⟩ := convert_ok hload hok
  obtain rfl := Option.some.inj (hp.symm.trans hp')
  have hafter := h.edited (edited_received hedited) hp
  have hlocated := (edited_received hedited).located hp
  refine ⟨r, hr, ?_⟩
  rw [hconv] at hafter hlocated hok ⊢
  cases decode with
  | true =>
    obtain ⟨-, -, hstr, -, -, -, -, -, hstage⟩ := decodeOutcome_ok hok
    rcases hmf : r.decodeMessageframe with - | -
    · -- the 1609.2 layer alone: nothing is written after the bytes are removed
      rw [hmf] at hstage
      rw [if_pos rfl, hstage]
      exact dataTypeOf_removed h hp
    · rw [hmf] at hstage
      obtain ⟨hinsert, hdoc⟩ := hstage
      obtain ⟨-, -, -, -, -, -, n, hn, htype⟩ := insertOutcome_ok hinsert
      rw [← hdoc] at hn
      exact (dataTypeOf_located hafter.data hlocated hn).trans htype
  | false =>
    obtain ⟨-, -, -, -, -, n, hn, htype⟩ := encodeOutcome_ok (agree_codecRequirements hr) hok
    exact (dataTypeOf_located hafter.data hlocated hn).trans htype

/-! ### Records -/

/-- What reports an error is marked. -/
theorem dataTypeOf_failed (hxer : XerNamed E) {decode : Bool} {template doc : Node}
    {payload : String} (hload : E.loadBuffer xmlParseOptions payload = (none, doc))
    (hdoc : Envelope doc) (htemplate : Envelope template) (now : Clock) {e : Exn}
    (he : (convert E decode payload).result = .error e) :
    dataTypeOf (recordDoc E decode template now payload) = some (asn1datatypes .ode) := by
  rw [recordDoc, he]
  cases e with
  | asn1Codec what =>
    obtain ⟨p, hp, hedited⟩ := @edited_convert _ E doc hxer decode payload hload (by simp [he])
      (by simp [he])
    have hafter := hdoc.edited (edited_received hedited) hp
    exact dataTypeOf_annotate _ hafter.metadata hafter.dataType
  | _ => exact dataTypeOf_annotate _ htemplate.metadata htemplate.dataType

/-- **A record says whether it reports an error**: its data type is OdeStatus
exactly if the conversion has failed, or has left a data type alone that was
OdeStatus before. -/
theorem status_iff_failed (hxer : XerNamed E) {decode : Bool} {template doc : Node}
    {payload : String} (hload : E.loadBuffer xmlParseOptions payload = (none, doc))
    (hdoc : Envelope doc) (htemplate : Envelope template) (now : Clock) :
    dataTypeOf (recordDoc E decode template now payload) = some (asn1datatypes .ode) ↔
      (∃ e, (convert E decode payload).result = .error e) ∨
      decode = true ∧ (∃ r, codecRequirements doc = .ok r ∧ r.decodeMessageframe = false) ∧
        dataTypeOf doc = some (asn1datatypes .ode) := by
  rcases hres : (convert E decode payload).result with e | b
  · have hmark := dataTypeOf_failed hxer hload hdoc htemplate now hres
    exact iff_of_true hmark (.inl ⟨e, rfl⟩)
  have hrec : recordDoc E decode template now payload = (convert E decode payload).doc := by
    rw [recordDoc, hres]
  obtain ⟨r, hr, htype⟩ := dataTypeOf_convert hxer hload hdoc hres
  have hnot : ¬∃ e, (Except.ok b : Except Exn Bool) = .error e := by simp
  rw [hrec, htype, or_iff_right hnot]
  cases decode with
  | false => simp [asn1datatypes]
  | true =>
    rcases hmf : r.decodeMessageframe with - | -
    · simp [hr, hmf]
    · simp [hr, hmf, asn1datatypes]

/-- A MessageFrame that is decoded. -/
theorem status_iff_failed_messageFrame :
    let doc := bytesDoc [("MessageFrame", "UPER")]
    dataTypeOf (recordDoc (decoding doc) true outputError ⟨"t1", "t2"⟩ (messageOf doc).payload) =
        some (asn1datatypes .ode) ↔
      (∃ e, (convert (decoding doc) true (messageOf doc).payload).result = .error e) ∨
      true = true ∧ (∃ r, codecRequirements doc = .ok r ∧ r.decodeMessageframe = false) ∧
        dataTypeOf doc = some (asn1datatypes .ode) := by
  intro doc
  exact status_iff_failed (xerNamed_decoding doc) (load_decoding doc) ⟨rfl, rfl, rfl⟩
    ⟨rfl, rfl, rfl⟩ ⟨"t1", "t2"⟩

end Asn1Codec
