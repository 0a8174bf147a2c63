/-
Asn1Codec/Payload.lean

What a decode that succeeds puts in place of the bytes.

The bytes child goes first, whatever is requested.  Only the MessageFrame stage
puts something back, so a list that names the 1609.2 layer alone ends in a
record without a payload.  The same stage blanks the text of data itself, where
it has one besides the bytes child.
-/
import Asn1Codec.Listed

namespace Asn1Codec

open Xml (Node Loc parseDefault)
open Xml.Node

variable {V : Type}

/-! ### The property -/

/-- The element that the text of bytes is decoded to as the given types, outer
to inner: each layer is decoded under the rule of its type, and what the next
one starts from is the unsecured data in it. -/
inductive DecodedFrom (E : Externals V) (rule : AsnType → TransferSyntax) :
    List AsnType → String → Node → Prop
  | element {td text xb x t} : Decodes E td (rule td) text xb →
      E.loadBuffer parseDefault xb = (none, x) → documentElement x = some t →
      DecodedFrom E rule [td] text t
  | unwrapped {td tds text inner t} : Unwraps E (rule .ieee1609Dot2Data) text inner →
      DecodedFrom E rule (td :: tds) inner t →
      DecodedFrom E rule (.ieee1609Dot2Data :: td :: tds) text t

/-- The listed types that a decoder knows, outer to inner. -/
def decodedLayers (doc : Node) : List AsnType :=
  (processedTypes true).filter fun td => decide (td.name ∈ listedTypes doc)

/-- A node that is written as something. -/
def notBlank : Node → Bool
  | .pcdata v => v != ""
  | _ => true

/-- In the published document, data holds in place of the bytes child the one
element that its text is decoded to as the listed types, the data type names
this element, and everything else, up to empty text, is as it was received. -/
def PayloadReplaced (E : Externals V) (doc published : Node) : Prop :=
  ∃ r p data text t cs, codecRequirements doc = .ok r ∧ locate odePayloadQuery doc = some p ∧
    doc.at? p = some data ∧ data.childText? "bytes" = some text ∧
    DecodedFrom E r.rule (decodedLayers doc) text t ∧
    cs.filter notBlank = (data.children.eraseP (named "bytes")).filter notBlank ++ [t] ∧
    published = mapAt (mapChild "dataType" (setText t.name)) p.dropLast
      (mapAt (fun n => n.withChildren cs) p doc)

/-! ### Blanking a text -/

theorem find?_isText_eraseP (s : String) (ns : List Node) :
    (ns.eraseP (named s)).find? isText = ns.find? isText := by
  induction ns with
  | nil => rfl
  | cons n ns ih =>
    rcases h : n.named s with - | -
    · simp [h, List.find?_cons, ih]
    · have htext : n.isText = false := by
        obtain ⟨as, cs, rfl⟩ := named_iff.mp h
        rfl
      simp [h, htext]

/-- Blanking the first text shows exactly if there was one. -/
theorem filter_setFirstText_blank (ns : List Node) :
    (setFirstText "" ns).filter notBlank = ns.filter notBlank ↔
      ((ns.find? isText).map value).getD "" = "" := by
  induction ns with
  | nil => simp [setFirstText, notBlank]
  | cons n ns ih =>
    rcases h : n.isText with - | -
    · rw [setFirstText, h, List.find?_cons_of_neg (by simp [h]), if_neg (by simp),
        List.filter_cons, List.filter_cons]
      split
      · simpa using ih
      · exact ih
    · rw [setFirstText, h, if_pos rfl, List.find?_cons_of_pos h, List.filter_cons,
        List.filter_cons]
      cases n with
      | pcdata v =>
        have hlen : ns.filter notBlank ≠ Node.pcdata v :: ns.filter notBlank :=
          (List.cons_ne_self _ _).symm
        by_cases hv : v = "" <;> simp [withValue, value, notBlank, hv, hlen]
      | cdata v =>
        simp [withValue, value, notBlank, @eq_comm _ "" v]
      | _ => simp [isText] at h

/-! ### What a successful decode leaves -/

/-- The children of data in the published document are the ones it has been
given. -/
theorem children_of_published {doc published data : Node} {p : Loc} {cs : List Node} {v : String}
    (hp : locate odePayloadQuery doc = some p) (hdata : doc.at? p = some data)
    (h : published = mapAt (mapChild "dataType" (setText v)) p.dropLast
      (mapAt (fun n => n.withChildren cs) p doc)) :
    (published.at? p).map children = some cs := by
  have hnamed : data.named "data" = true := named_of_locate hp hdata rfl
  have hne : p ≠ [] := ne_nil_of_locate hp
  have hat : (mapAt (fun n => n.withChildren cs) p doc).at? p = some (data.withChildren cs) := by
    rw [at?_mapAt, hdata]
    rfl
  have hother : (data.withChildren cs).named "dataType" = false := by
    rw [named_withChildren]
    exact named_ne (by decide) data hnamed
  rw [h, at?_mapAt_mapChild hne hat hother, Option.map_some,
    children_withChildren_of_named hnamed]

/-- A record whose data has only lost its bytes has lost the payload. -/
theorem not_payloadReplaced_of_removed {E : Externals V} {doc : Node} {p : Loc} {data : Node}
    (hp : locate odePayloadQuery doc = some p) (hdata : doc.at? p = some data) :
    ¬ PayloadReplaced E doc (mapAt (removeChild "bytes") p doc) := by
  rintro ⟨r, p', data', text, t, cs, -, hp', hdata', -, -, hcs, hpublished⟩
  obtain rfl := Option.some.inj (hp.symm.trans hp')
  obtain rfl := Option.some.inj (hdata.symm.trans hdata')
  have hchildren := children_of_published hp hdata hpublished
  rw [at?_mapAt, hdata, Option.map_some, Option.map_some, removeChild,
    children_withChildren rfl] at hchildren
  rw [← Option.some.inj hchildren] at hcs
  have hlen := congrArg List.length hcs
  simp at hlen

/-- Data, once its bytes are removed, its text blanked and an element appended. -/
theorem appendCopy_removeChild {data : Node} {s : String} (hdata : data.named s = true) (t : Node) :
    appendCopy (some t) ((data.removeChild "bytes").setText "") =
      data.withChildren (setFirstText "" (data.children.eraseP (named "bytes")) ++ [t]) := by
  simp only [appendCopy, removeChild, setText, appendChild, children_withChildren_of_named hdata,
    withChildren_withChildren]

/-- XER is one element, named after the type. -/
def XerNamed (E : Externals V) : Prop :=
  ∀ td v xb x, E.xerEncode td v = .ok xb → E.loadBuffer parseDefault xb = (none, x) →
    ∃ t, documentElement x = some t ∧ t.name = td.name

/-- The layers that are decoded are the ones requested. -/
theorem decodedLayers_eq {doc : Node} {r : Requirements} (hr : codecRequirements doc = .ok r) :
    decodedLayers doc = (processedTypes true).filter r.requested := by
  apply List.filter_congr
  intro td _
  rw [Bool.eq_iff_iff, decide_eq_true_iff]
  exact (requested_iff_listed hr td).symm

/-- What the MessageFrame stage decodes, it decodes from the bytes: from their
text, or from the unsecured data in the layer around the MessageFrame. -/
theorem decodedFrom_stages {E : Externals V} {doc x t : Node} {r : Requirements}
    {text hstr xb : String} (hr : codecRequirements doc = .ok r)
    (hmf : r.decodeMessageframe = true)
    (hstage : if r.decode1609dot2 then unsecuredData E r.decode1609dot2Type text = .ok hstr
      else hstr = text)
    (hdec : Decodes E .messageFrame r.decodeMessageframeType hstr xb)
    (hload : E.loadBuffer parseDefault xb = (none, x)) (ht : documentElement x = some t) :
    DecodedFrom E r.rule (decodedLayers doc) text t := by
  have helement : DecodedFrom E r.rule [.messageFrame] hstr t := .element hdec hload ht
  rw [decodedLayers_eq hr]
  rcases h16 : r.decode1609dot2 with - | -
  · have hlayers : (processedTypes true).filter r.requested = [.messageFrame] := by
      simp [processedTypes, Requirements.requested, h16, hmf]
    have hsame : hstr = text := by simpa [h16] using hstage
    rw [hlayers, ← hsame]
    exact helement
  · have hlayers : (processedTypes true).filter r.requested =
        [.ieee1609Dot2Data, .messageFrame] := by
      simp [processedTypes, Requirements.requested, h16, hmf]
    rw [if_pos h16] at hstage
    rw [hlayers]
    exact .unwrapped (unsecuredData_ok hstage) helement

/-- Where the MessageFrame stage has succeeded, the payload is replaced exactly
if data had no text of its own. -/
theorem payloadReplaced_inserted {E : Externals V} {r : Requirements} {p : Loc} {doc : Node}
    {text hstr : String} {data : Node} (hxer : XerNamed E) (hr : codecRequirements doc = .ok r)
    (hmf : r.decodeMessageframe = true)
    (hstage : if r.decode1609dot2 then unsecuredData E r.decode1609dot2Type text = .ok hstr
      else hstr = text)
    (htext : data.childText? "bytes" = some text)
    (hp : locate odePayloadQuery doc = some p) (hdata : doc.at? p = some data)
    (h : (insertOutcome E r.decodeMessageframeType p hstr
      (mapAt (removeChild "bytes") p doc)).result = .ok ()) :
    PayloadReplaced E doc (insertOutcome E r.decodeMessageframeType p hstr
      (mapAt (removeChild "bytes") p doc)).doc ↔ data.text?.getD "" = "" := by
  obtain ⟨xb, x, hxb, hload, -, hdoc, -⟩ := insertOutcome_ok h
  have hdec := decodeHexData_ok hxb
  obtain ⟨t, ht, hname⟩ : ∃ t, documentElement x = some t ∧ t.name = AsnType.messageFrame.name := by
    obtain ⟨bytes, v, consumed, -, -, -, henc⟩ := hdec
    exact hxer _ v xb x henc hload
  have hdataNamed : data.named "data" = true := named_of_locate hp hdata rfl
  -- the children that data ends up with
  let cs := setFirstText "" (data.children.eraseP (named "bytes")) ++ [t]
  have hpublished : (insertOutcome E r.decodeMessageframeType p hstr
      (mapAt (removeChild "bytes") p doc)).doc =
      mapAt (mapChild "dataType" (setText t.name)) p.dropLast
        (mapAt (fun n => n.withChildren cs) p doc) := by
    rw [hdoc, hname, mapAt_mapAt, ht]
    refine congrArg _ (mapAt_congr hdata ?_)
    exact appendCopy_removeChild hdataNamed t
  have hown : data.text?.getD "" = "" ↔
      (setFirstText "" (data.children.eraseP (named "bytes"))).filter notBlank =
        (data.children.eraseP (named "bytes")).filter notBlank := by
    rw [filter_setFirstText_blank, find?_isText_eraseP]
    rfl
  have hblank : notBlank t = true := by
    cases t <;> first | rfl | simp [Node.name, AsnType.name] at hname
  have hfilter : cs.filter notBlank =
      (setFirstText "" (data.children.eraseP (named "bytes"))).filter notBlank ++ [t] := by
    simp [cs, hblank]
  -- blank text apart, the children are those that are left and the element
  rw [hown]
  constructor
  · rintro ⟨r', p', data', text', t', cs', -, hp', hdata', -, -, hcs, hpublished'⟩
    obtain rfl := Option.some.inj (hp.symm.trans hp')
    obtain rfl := Option.some.inj (hdata.symm.trans hdata')
    obtain rfl : cs = cs' := by
      have h₁ := children_of_published hp hdata hpublished
      rw [children_of_published hp hdata hpublished'] at h₁
      exact (Option.some.inj h₁).symm
    rw [hfilter] at hcs
    exact (List.append_inj' hcs rfl).1
  · intro hsame
    refine ⟨r, p, data, text, t, cs, hr, hp, hdata, htext,
      decodedFrom_stages hr hmf hstage hdec hload ht, ?_, hpublished⟩
    rw [hfilter, hsame]

/-- **When a decode keeps the payload**: a message of decode mode that is
processed without an exception has its bytes replaced by the element they are
decoded to exactly if the list names MessageFrame and data has no text of its own. -/
theorem payload_replaced_iff {E : Externals V} {m : Message} {c c' : Codec} {doc : Node} {b : Bool}
    (hxer : XerNamed E) (hm : m.err = .noError) (hmode : c.decodeFunctionality = true)
    (hload : E.loadBuffer xmlParseOptions m.payload = (none, doc))
    (hok : (processMessage E m).run c = .ok b c') :
    PayloadReplaced E doc c'.inputDoc ↔
      "MessageFrame" ∈ listedTypes doc ∧
        ((select odePayloadQuery doc).bind text?).getD "" = "" := by
  obtain ⟨hres, hinput, -⟩ := converted_of_ok hm hok
  rw [hmode] at hres hinput
  obtain ⟨r, p, hr, hp, hconv⟩ := convert_ok hload hres
  rw [if_pos rfl] at hconv
  rw [hconv] at hres hinput
  obtain ⟨data, text, hstr, hdata, htext, -, hstage, -, hend⟩ := decodeOutcome_ok hres
  have hselect : (select odePayloadQuery doc).bind text? = data.text? := by
    rw [select, hp, Option.bind_some, hdata]
    rfl
  have hlisted : "MessageFrame" ∈ listedTypes doc ↔ r.decodeMessageframe = true :=
    (requested_iff_listed hr .messageFrame).symm
  rw [hinput, hselect, hlisted]
  rcases hmf : r.decodeMessageframe with - | -
  · -- nothing is put in place of the bytes
    rw [hmf] at hend
    simp only [Bool.false_eq_true, if_false] at hend
    rw [hend]
    exact iff_of_false (not_payloadReplaced_of_removed hp hdata) fun h => by simp at h
  · rw [hmf] at hend
    simp only [if_true] at hend
    rw [hend.2, payloadReplaced_inserted hxer hr hmf hstage htext hp hdata hend.1]
    simp

/-! ### A MessageFrame, and a 1609.2 layer alone -/

theorem xerNamed_decoding (doc : Node) : XerNamed (decoding doc) := by
  intro td v xb x henc hload
  obtain rfl := Except.ok.inj henc
  have htype : xerType (xerElement td).print = some td := by
    cases td <;> decide +kernel
  have hread : (decoding doc).loadBuffer parseDefault (xerElement td).print =
      (none, .document [xerElement td]) := by
    simp [decoding, Externals.reading, decodingAny, parseDefault, htype]
  obtain ⟨-, rfl⟩ := Prod.mk.inj (hread.symm.trans hload)
  exact ⟨xerElement td, rfl, rfl⟩

/-- A MessageFrame in a 1609.2 layer takes the place of the bytes. -/
theorem payload_replaced_messageFrame :
    let doc := bytesDoc [("Ieee1609Dot2Data", "COER"), ("MessageFrame", "UPER")]
    ∃ c', (processMessage (decoding doc) (messageOf doc)).run configuredCodec = .ok true c' ∧
      PayloadReplaced (decoding doc) doc c'.inputDoc := by
  intro doc
  have hconv : (convert (decoding doc) configuredCodec.decodeFunctionality
      (messageOf doc).payload).result = .ok true := by
    decide +kernel
  obtain ⟨c', hc'⟩ := @processMessage_ok Unit _ (messageOf doc) rfl _ _ hconv
  refine ⟨c', hc', (payload_replaced_iff (m := messageOf doc) (xerNamed_decoding doc) rfl rfl
    (load_decoding doc) hc').mpr ⟨?_, ?_⟩⟩ <;> decide

/-- With the 1609.2 layer alone on the list, the bytes are removed, decoded and
dropped. -/
theorem payload_lost :
    let doc := bytesDoc [("Ieee1609Dot2Data", "COER")]
    ∃ c', (processMessage (decoding doc) (messageOf doc)).run configuredCodec = .ok true c' ∧
      (c'.inputDoc.descend dataPath).map print = some "<data/>" ∧
      ¬ PayloadReplaced (decoding doc) doc c'.inputDoc := by
  intro doc
  have hconv : (convert (decoding doc) true (messageOf doc).payload).result = .ok true := by
    decide +kernel
  obtain ⟨c', hc'⟩ := @processMessage_ok Unit _ (messageOf doc) rfl configuredCodec _ hconv
  have hinput : c'.inputDoc = (convert (decoding doc) true (messageOf doc).payload).doc :=
    (converted_of_ok rfl hc').2.1
  refine ⟨c', hc', ?_, ?_⟩
  · rw [hinput]
    decide +kernel
  · obtain ⟨r, p, hr, hp, hdoc⟩ := convert_ok (load_decoding doc) hconv
    rw [if_pos rfl] at hdoc
    rw [hdoc] at hconv hinput
    obtain ⟨data, text, hstr, hdata, -, -, -, -, hend⟩ := decodeOutcome_ok hconv
    -- the MessageFrame stage is not asked for
    have hmf : r.decodeMessageframe = false := by
      rw [Bool.eq_false_iff, ne_eq, ← Requirements.requested, requested_iff_listed hr]
      decide
    rw [if_neg (by simp [hmf])] at hend
    rw [hinput, hend]
    exact not_payloadReplaced_of_removed hp hdata

end Asn1Codec
