/-
Asn1Codec/RoundTrip.lean

Feeding what the decoder publishes to the encoder.

Between the two, the decoded element is written out and read twice: the XER of
the runtime with the parser's defaults, the published record with text trimmed.
Either parse leaves alone a tree whose texts neither begin nor end with white
space (`Kept`), and for such a tree the encoder is given what the runtime had
written.  White space at either end of a text is lost, and the message encoded
from the record is then another one.
-/
import Asn1Codec.Payload

namespace Asn1Codec

open Xml (Node Loc parseDefault)
open Xml.Node

variable {V : Type}

/-! ### The assumptions -/

/-- The runtime's codecs undo each other on `v`: its encoding is `b`, and its
XER is the tree `T`. -/
structure RoundTrips (E : Externals V) (ats : TransferSyntax) (v : V) (b : List Int8)
    (T : Node) : Prop where
  asnDecode : ∃ n, E.asnDecode ats .messageFrame b = .ok v n
  asnEncode : E.asnEncode ats .messageFrame v = .ok b
  constraints : E.asnCheckConstraints .messageFrame v = none
  xerEncode : ∃ xb, E.xerEncode .messageFrame v = .ok xb ∧
    E.loadBuffer parseDefault xb = (none, reload parseDefault (.document [T]))
  xerDecode : ∃ n, E.xerDecode .messageFrame T.print = .ok v n
  named : T.named "MessageFrame" = true

/-- A record that carries the hex of `b` and asks for a MessageFrame alone.  Its
encodings list is one that writing and reading back does not change. -/
structure CarriesHex (doc data : Node) (ats : TransferSyntax) (b : List Int8) : Prop where
  requirements : ∃ r, codecRequirements doc = .ok r ∧
    (∀ td, r.requested td = true ↔ td = .messageFrame) ∧ r.rule .messageFrame = ats
  encodings : ∀ n, select odeEncodingsQuery doc = some n → reload xmlParseOptions n = n
  dataAt : select odePayloadQuery doc = some data
  bytes : ∃ hex, data.childText? "bytes" = some hex ∧
    hexToBytes (removeSpaces hex) [] = (true, b)
  single : data.child "MessageFrame" = none

/-! ### The metadata stay -/

theorem codecRequirements_congr {doc doc' : Node}
    (h : select odeEncodingsQuery doc = select odeEncodingsQuery doc') :
    codecRequirements doc = codecRequirements doc' := by
  simp only [codecRequirements, requirementsFor, h]

/-- The encodings do not stand in the payload. -/
theorem encodings_beside {doc : Node} {p q w : Loc} (hp : locate odePayloadQuery doc = some p)
    (hq : locate odeEncodingsQuery doc = some q) (hw : p.dropLast <+: w) : ¬ q <+: w := by
  intro hqw
  obtain ⟨p₁, p₂, m, rfl, hlen, hm, hp₂, hpayload⟩ :=
    @locate_append_some ["OdeAsn1Data", "payload"] ["data"] doc p hp
  obtain ⟨q₁, q₂, m', rfl, hlen', hm', -, hmetadata⟩ :=
    @locate_append_some ["OdeAsn1Data", "metadata"] ["encodings"] doc q hq
  have hdrop : (p₁ ++ p₂).dropLast = p₁ := by
    obtain ⟨i, hi⟩ := List.length_eq_one_iff.mp (length_of_locate hp₂)
    rw [hi, List.dropLast_concat]
  rw [hdrop] at hw
  have hsame : q₁ = p₁ := by
    have hq₁ : q₁ <+: w := (List.prefix_append q₁ q₂).trans hqw
    exact (List.prefix_of_prefix_length_le hq₁ hw (by rw [hlen, hlen']; rfl)).eq_of_length
      (by rw [hlen, hlen']; rfl)
  rw [hsame, hm] at hm'
  obtain rfl := Option.some.inj hm'
  have hother := named_ne (t := "metadata") (by decide) m (hpayload "payload" rfl)
  rw [hmetadata "metadata" rfl] at hother
  exact absurd hother (by simp)

/-! ### A record with other data -/

/-- `new` is `doc` with the children `cs` in data, at `p`, and the data type set. -/
structure DataReplaced (doc data new : Node) (p : Loc) (cs : List Node) (dt : Asn1DataType) :
    Prop where
  payload : locate odePayloadQuery doc = some p
  dataAt : doc.at? p = some data
  replaced : new = mapAt (mapChild "dataType" (setText (asn1datatypes dt))) p.dropLast
    (mapAt (fun n => n.withChildren cs) p doc)
  dataType : ∃ n, new.at? p.dropLast = some n ∧ (n.child "dataType").isSome = true

namespace DataReplaced

variable {doc data new : Node} {p : Loc} {cs : List Node} {dt : Asn1DataType}

/-- The record with its new data, before the data type is set. -/
theorem withData (h : DataReplaced doc data new p cs dt) :
    Node.locate odePayloadQuery (mapAt (fun n => n.withChildren cs) p doc) = some p ∧
      (mapAt (fun n => n.withChildren cs) p doc).at? p = some (data.withChildren cs) := by
  constructor
  · have hfound := locate_mapAt_below (fun s m => named_withChildren s m cs) h.payload []
    rwa [List.append_nil] at hfound
  · rw [at?_mapAt, h.dataAt]
    rfl

/-- The setting of the data type is an edit as deep as data. -/
theorem edit (h : DataReplaced doc data new p cs dt) : ∃ i, new =
    mapAt (setText (asn1datatypes dt)) (p.dropLast ++ [i])
      (mapAt (fun n => n.withChildren cs) p doc) := by
  obtain ⟨n, hn, hsome⟩ := h.dataType
  rw [h.replaced, at?_mapAt] at hn
  obtain ⟨m, hm, rfl⟩ := Option.map_eq_some_iff.mp hn
  rw [child_mapChild _ _ (fun m => named_setText ..), Option.isSome_map] at hsome
  obtain ⟨c, hc⟩ := Option.isSome_iff_exists.mp hsome
  rw [h.replaced]
  exact mapAt_mapChild_eq hm hc _

theorem length_dropLast (h : DataReplaced doc data new p cs dt) (i : ℕ) :
    (p.dropLast ++ [i]).length = 3 := by
  have hlen := length_of_locate h.payload
  simp [hlen, odePayloadQuery]

/-- Data is where it was. -/
theorem locate (h : DataReplaced doc data new p cs dt) :
    Node.locate odePayloadQuery new = some p ∧
      new.at? p = some (data.withChildren cs) := by
  obtain ⟨hfound, hat⟩ := h.withData
  constructor
  · obtain ⟨i, hi⟩ := h.edit
    rw [hi, locate_mapAt (fun s m => named_setText ..) (by rw [h.length_dropLast]; rfl), hfound]
  · have hnamed : (data.withChildren cs).named "data" = true := named_of_locate hfound hat rfl
    rw [h.replaced]
    exact at?_mapAt_mapChild (ne_nil_of_locate h.payload) hat (named_ne (by decide) _ hnamed)

/-- The new record asks for what the received one asked for, also once it has been
read back. -/
theorem requirements {ats : TransferSyntax} {b : List Int8}
    (h : DataReplaced doc data new p cs dt) (hrec : CarriesHex doc data ats b) :
    codecRequirements (reload xmlParseOptions new) = codecRequirements doc := by
  obtain ⟨i, hi⟩ := h.edit
  obtain ⟨hfound, -⟩ := h.withData
  have hlen : odeEncodingsQuery.length ≤ p.length := by
    rw [length_of_locate h.payload]
    rfl
  -- both edits are in the payload, the encodings in the metadata
  have hselect : select odeEncodingsQuery new = select odeEncodingsQuery doc := by
    rw [hi, select_mapAt (fun s m => named_setText ..) (by rw [h.length_dropLast]; rfl),
      select_mapAt (fun s m => named_withChildren ..) hlen]
    · intro q hq
      exact encodings_beside h.payload hq (List.dropLast_prefix p)
    · intro q hq
      exact encodings_beside hfound hq (List.prefix_append ..)
  apply codecRequirements_congr
  rw [select_reload, hselect]
  rcases hn : select odeEncodingsQuery doc with - | n
  · rfl
  · rw [Option.map_some, hrec.encodings n hn]

end DataReplaced

/-! ### What the decoder publishes -/

/-- A decode of `b` that succeeds has put the tree of its value in, as it is read
back. -/
theorem dataReplaced_decode {E : Externals V} {m : Message} {c c' : Codec} {doc data : Node}
    {ats : TransferSyntax} {v : V} {b : List Int8} {T T' : Node} {ok : Bool}
    (hrt : RoundTrips E ats v b T)
    (hT : documentElement (reload parseDefault (.document [T])) = some T') (hm : m.err = .noError)
    (hmode : c.decodeFunctionality = true)
    (hload : E.loadBuffer xmlParseOptions m.payload = (none, doc))
    (hrec : CarriesHex doc data ats b) (hok : (processMessage E m).run c = .ok ok c') :
    ∃ p, DataReplaced doc data c'.inputDoc p
      (setFirstText "" (data.children.eraseP (named "bytes")) ++ [T']) .xml := by
  obtain ⟨hres, hinput, -⟩ := converted_of_ok hm hok
  rw [hmode] at hres hinput
  obtain ⟨r, p, hr, hp, hconv⟩ := convert_ok hload hres
  rw [if_pos rfl] at hconv
  rw [hconv] at hres hinput
  obtain ⟨data', text, hstr, hdata', htext, -, hfirst, -, hend⟩ := decodeOutcome_ok hres
  obtain rfl : data' = data := by
    have hselect := hrec.dataAt
    rw [select, hp, Option.bind_some, hdata'] at hselect
    exact Option.some.inj hselect
  -- only the MessageFrame stage is on
  obtain ⟨r', hr', hreq, hrule⟩ := hrec.requirements
  obtain rfl : r = r' := Except.ok.inj (hr.symm.trans hr')
  have h16 : r.decode1609dot2 = false := by
    have h := hreq .ieee1609Dot2Data
    simpa [Requirements.requested] using h
  have hmf : r.decodeMessageframe = true := (hreq .messageFrame).mpr rfl
  rw [h16] at hfirst
  rw [hmf] at hend
  simp only [Bool.false_eq_true, if_false, if_true] at hfirst hend
  obtain rfl := hfirst
  obtain ⟨hinsert, hdoc⟩ := hend
  obtain ⟨xb, x, hxb, hloadX, -, hnew, n, hn, hdt⟩ := insertOutcome_ok hinsert
  obtain ⟨bytes, v', consumed, hbytes, hv', -, henc⟩ := decodeHexData_ok hxb
  -- the value decoded is `v`, and its tree is `T`
  obtain rfl : bytes = b := by
    obtain ⟨hex, hhex, hb⟩ := hrec.bytes
    obtain rfl := Option.some.inj (htext.symm.trans hhex)
    exact (Prod.mk.inj (hbytes.symm.trans hb)).2
  obtain rfl : v' = v := by
    obtain ⟨k, hk⟩ := hrt.asnDecode
    rw [← hrule] at hk
    exact (DecRval.ok.inj (hv'.symm.trans hk)).1
  have helement : documentElement x = some T' := by
    obtain ⟨xb', henc', hload'⟩ := hrt.xerEncode
    obtain rfl := Except.ok.inj (henc.symm.trans henc')
    obtain ⟨-, rfl⟩ := Prod.mk.inj (hload'.symm.trans hloadX)
    exact hT
  have hnamed : data'.named "data" = true := named_of_locate hp hdata' rfl
  refine ⟨p, hp, hdata', ?_, n, ?_, ?_⟩
  · rw [hinput, hdoc, hnew, mapAt_mapAt, helement]
    exact congrArg _ (mapAt_congr hdata' (appendCopy_removeChild hnamed T'))
  · rw [hinput, hdoc, hn]
  · exact isSome_child_of_childText? hdt

/-! ### What the encoder makes of it -/

/-- The parts of a document that asks for a MessageFrame alone. -/
theorem parts_messageFrame {r : Requirements}
    (hreq : ∀ td, r.requested td = true ↔ td = .messageFrame) :
    r.parts = [⟨J2735MESSAGEFRAME, r.rule .messageFrame, ["MessageFrame"], false⟩] := by
  have h16 : r.requested .ieee1609Dot2Data = false := by
    have h := hreq .ieee1609Dot2Data
    simpa using h
  have hasd : r.requested .advisorySituationData = false := by
    have h := hreq .advisorySituationData
    simpa using h
  have hmf : r.requested .messageFrame = true := (hreq .messageFrame).mpr rfl
  rw [parts_eq_map]
  simp [layersOf, hmf, h16, hasd, Requirements.partFor, AsnType.op, layerPath, asdPath,
    AsnType.enclosing]

/-- The tree of `v` is encoded to the hex of `b`. -/
theorem frameHex_roundTrips {E : Externals V} {ats : TransferSyntax} {v : V} {b : List Int8}
    {T : Node} (hrt : RoundTrips E ats v b T)
    (hconf : j2735_2020ConformanceCheck T.print = true) :
    ∃ hex, frameHex E J2735MESSAGEFRAME ats T.print = .ok hex ∧ hexToBytes hex [] = (true, b) := by
  obtain ⟨n, hn⟩ := hrt.xerDecode
  refine ⟨_, ?_, hexToBytes_bytesToHex (bytesToHex_eq b)⟩
  simp [frameHex, dataStruct, hconf, hn, hrt.constraints, hrt.asnEncode, bytesToHex_eq]

/-- The only step takes the tree out of data for its hex. -/
theorem encodeSteps_messageFrame {E : Externals V} {r : Requirements} {p : Loc}
    {doc data T : Node} {i : ℕ} {hex : String}
    (hreq : ∀ td, r.requested td = true ↔ td = .messageFrame) (hdata : doc.at? p = some data)
    (hfound : locate ["MessageFrame"] data = some [i]) (hT : data.children[i]? = some T)
    (hhex : frameHex E J2735MESSAGEFRAME (r.rule .messageFrame) T.print = .ok hex) :
    encodeSteps E p r.parts doc = ⟨eraseAt (p ++ [i]) doc,
      [⟨J2735MESSAGEFRAME, r.rule .messageFrame, T.print⟩], "", .ok [(T.name, hex)]⟩ := by
  have hquery : (doc.at? p).bind (locate ["MessageFrame"]) = some [i] := by
    rw [hdata]
    exact hfound
  have hderef : deref doc (p ++ [i]) = T := by
    rw [deref, at?_append, hdata, Option.bind_some, at?_cons, hT, Option.bind_some, at?_nil]
    rfl
  have hstep : encodeStep E p ⟨J2735MESSAGEFRAME, r.rule .messageFrame, ["MessageFrame"], false⟩
      doc = ⟨eraseAt (p ++ [i]) doc, [⟨J2735MESSAGEFRAME, r.rule .messageFrame, T.print⟩], "",
        .ok (T.name, hex)⟩ := by
    simp only [encodeStep, hquery, hderef, hhex]
    simp [takeNode]
  rw [parts_messageFrame hreq]
  simp [encodeSteps, hstep, Outcome.andThen, Outcome.done]

/-- **The encoding of a document whose data holds the tree.** -/
theorem dataReplaced_encode {E : Externals V} {r : Requirements} {p : Loc} {doc data T : Node}
    {i : ℕ} {hex : String} (hagree : r.Agree)
    (hreq : ∀ td, r.requested td = true ↔ td = .messageFrame)
    (hp : locate odePayloadQuery doc = some p) (hdata : doc.at? p = some data)
    (hdt : ∃ n, doc.at? p.dropLast = some n ∧ (n.child "dataType").isSome = true)
    (hfound : locate ["MessageFrame"] data = some [i]) (hT : data.children[i]? = some T)
    (hhex : frameHex E J2735MESSAGEFRAME (r.rule .messageFrame) T.print = .ok hex) :
    (encodeOutcome E r p doc).result = .ok true ∧
      DataReplaced doc data (encodeOutcome E r p doc).doc p
        (data.children.eraseIdx i ++ [hexElement T.name hex]) .hex := by
  let cs := data.children.eraseIdx i ++ [hexElement T.name hex]
  have hdataNamed : data.named "data" = true := named_of_locate hp hdata rfl
  have hsteps := encodeSteps_messageFrame hreq hdata hfound hT hhex
  have happend : appendHex p [(T.name, hex)] (eraseAt (p ++ [i]) doc) =
      mapAt (fun n => n.withChildren cs) p doc := by
    rw [eraseAt_append, appendHex, List.foldl_cons, List.foldl_nil, mapAt_mapAt]
    refine mapAt_congr hdata ?_
    show (eraseChild i data).appendChild (hexElement T.name hex) = data.withChildren cs
    rw [eraseChild, appendChild, children_withChildren_of_named hdataNamed,
      withChildren_withChildren]
  -- the payload element, one above data, still has its dataType child
  have hset : (dataTypeOutcome p .hex
      "Failure to update path: OdeAsn1Data/payload/dataType in the output document."
      (mapAt (fun n => n.withChildren cs) p doc)).result = .ok () := by
    obtain ⟨w, k, hw⟩ := (List.eq_nil_or_concat p).resolve_left (ne_nil_of_locate hp)
    rw [List.concat_eq_append] at hw
    obtain ⟨n, hn, hchild⟩ := hdt
    have hsome : (((mapAt (fun n => n.withChildren cs) p doc).at? p.dropLast).bind
        fun n => n.child "dataType").isSome = true := by
      rw [hw, List.dropLast_concat, at?_mapAt_above]
      rw [hw, List.dropLast_concat] at hn
      rw [hn, Option.map_some, Option.bind_some,
        isSome_child_mapAt (fun s m => named_withChildren s m cs), hchild]
    rw [dataTypeOutcome]
    rw [if_neg (by rw [Option.isNone_iff_eq_none, ← Option.not_isSome_iff_eq_none, hsome]; simp)]
    rfl
  have hok : (encodeOutcome E r p doc).result = .ok true := by
    rw [encodeOutcome, protocolFor_eq hagree, if_neg (by rw [parts_messageFrame hreq]; simp)]
    simp only [hsteps, Outcome.andThen, happend, hset]
  obtain ⟨-, ds, hds, -, hdoc, n, hn, hread⟩ := encodeOutcome_ok hagree hok
  rw [hsteps] at hds hdoc
  obtain rfl := Except.ok.inj hds
  rw [happend] at hdoc
  exact ⟨hok, hp, hdata, hdoc, n, hn, isSome_child_of_childText? hread⟩

/-! ### There and back -/

/-- The published record, once it has been read back: data holds the tree, and
no other element of its name. -/
theorem reload_dataReplaced {doc data new T : Node} {p : Loc} {ns : List Node}
    (h : DataReplaced doc data new p (ns ++ [T]) .xml) (hT : Kept T)
    (hname : T.named "MessageFrame" = true) (hns : ns.find? (named "MessageFrame") = none) :
    ∃ p' data' i, locate odePayloadQuery (reload xmlParseOptions new) = some p' ∧
      (reload xmlParseOptions new).at? p' = some data' ∧ data'.named "data" = true ∧
      (∃ n, (reload xmlParseOptions new).at? p'.dropLast = some n ∧
        (n.child "dataType").isSome = true) ∧
      locate ["MessageFrame"] data' = some [i] ∧ data'.children[i]? = some T ∧
      (data'.children.eraseIdx i).find? (named "MessageFrame") = none := by
  obtain ⟨hp, hdata⟩ := h.locate
  obtain ⟨n, hn, hdt⟩ := h.dataType
  have hdataNamed : data.named "data" = true := named_of_locate h.payload h.dataAt rfl
  obtain ⟨p', hp', hway⟩ := @locate_reload xmlParseOptions _ _ _ hp
  have hlen : p.length = 3 := length_of_locate hp
  have hlen' : p'.length = 3 := length_of_locate hp'
  let data' := reload xmlParseOptions (data.withChildren (ns ++ [T]))
  have hdata' : (reload xmlParseOptions new).at? p' = some data' := by
    have h3 := hway 3
    rwa [List.take_of_length_le hlen'.le, List.take_of_length_le hlen.le, hdata] at h3
  have hpayload : (reload xmlParseOptions new).at? p'.dropLast =
      some (reload xmlParseOptions n) := by
    have h2 := hway 2
    rw [List.dropLast_eq_take, hlen']
    rw [List.dropLast_eq_take, hlen] at hn
    rw [h2, hn]
    rfl
  -- the elements of data are the images of those before
  have hchildren : (data.withChildren (ns ++ [T])).children = ns ++ [T] :=
    children_withChildren_of_named hdataNamed _
  have helements : data'.children.filter isElement =
      (ns.filter isElement).map (reload xmlParseOptions) ++ [T] := by
    rw [filter_isElement_children_reload, hchildren, List.filter_append, List.map_append,
      List.filter_cons_of_pos (isElement_of_kept hT), List.filter_nil, List.map_cons,
      List.map_nil, reload_eq_self hT]
  have hothers : ((ns.filter isElement).map (reload xmlParseOptions)).find?
      (named "MessageFrame") = none := by
    have hcomp : named "MessageFrame" ∘ reload xmlParseOptions = named "MessageFrame" := by
      funext m
      exact named_reload ..
    rw [List.find?_map, hcomp, find?_named_filter_isElement, hns]
    rfl
  have hchild : data'.child "MessageFrame" = some T := by
    have hbefore : (data.withChildren (ns ++ [T])).child "MessageFrame" = some T := by
      rw [child, hchildren, List.find?_append, hns]
      simp [hname]
    rw [child_reload, hbefore, Option.map_some, reload_eq_self hT]
  obtain ⟨i, hfound, hi⟩ := locate_of_child hchild
  refine ⟨p', data', i, hp', hdata', ?_, ⟨_, hpayload, ?_⟩, hfound, hi,
    child_eraseIdx helements hothers hi hname⟩
  · rw [named_reload, named_withChildren]
    exact hdataNamed
  · rw [child_reload, Option.isSome_map, hdt]

/-- **The encoder undoes the decoder** on trees whose texts no parse changes:
if decode mode accepts a record that carries the hex of `b` and asks for a
MessageFrame alone, then encode mode accepts the published record and yields a
MessageFrame whose hex denotes `b`. -/
theorem encode_undoes_decode {E : Externals V} {ats : TransferSyntax} {v : V} {b : List Int8}
    {T doc data : Node} {m₁ m₂ : Message} {c₁ c₁' c₂ : Codec} {ok : Bool}
    (hrt : RoundTrips E ats v b T) (hT : Kept T)
    (hconf : j2735_2020ConformanceCheck T.print = true)
    (hm₁ : m₁.err = .noError) (hmode₁ : c₁.decodeFunctionality = true)
    (hload₁ : E.loadBuffer xmlParseOptions m₁.payload = (none, doc))
    (hrec : CarriesHex doc data ats b) (hok : (processMessage E m₁).run c₁ = .ok ok c₁')
    (hm₂ : m₂.err = .noError) (hmode₂ : c₂.decodeFunctionality = false)
    (hpayload : m₂.payload = save c₁'.inputDoc)
    (hload₂ : E.loadBuffer xmlParseOptions (save c₁'.inputDoc) =
      (none, reload xmlParseOptions c₁'.inputDoc)) :
    ∃ c₂' hex, (processMessage E m₂).run c₂ = .ok true c₂' ∧
      (((select odePayloadQuery c₂'.inputDoc).bind fun n => n.child "MessageFrame").bind
        fun n => n.childText? "bytes") = some hex ∧
      hexToBytes hex [] = (true, b) := by
  have helement : documentElement (reload parseDefault (.document [T])) = some T := by
    rw [reload_document_eq_self rfl hT]
    exact List.find?_cons_of_pos (isElement_of_kept hT)
  obtain ⟨p, hpublished⟩ := dataReplaced_decode hrt helement hm₁ hmode₁ hload₁ hrec hok
  -- no MessageFrame was there before
  have hothers : (setFirstText "" (data.children.eraseP (named "bytes"))).find?
      (named "MessageFrame") = none := by
    rw [find?_named_setFirstText, List.find?_eq_none]
    intro n hn
    exact List.find?_eq_none.mp hrec.single n (List.mem_of_mem_eraseP hn)
  obtain ⟨p', data', i, hp', hdata', hnamed, hdt, hfound, hi, hgone⟩ :=
    reload_dataReplaced hpublished hT hrt.named hothers
  obtain ⟨hex, hhex, hbytes⟩ := frameHex_roundTrips hrt hconf
  obtain ⟨r, hr, hreq, hrule⟩ := hrec.requirements
  rw [← hrule] at hhex
  obtain ⟨hres, hreplaced⟩ := dataReplaced_encode (agree_codecRequirements hr) hreq hp' hdata'
    hdt hfound hi hhex
  have hconv : convert E c₂.decodeFunctionality m₂.payload =
      encodeOutcome E r p' (reload xmlParseOptions c₁'.inputDoc) := by
    have hr' := (hpublished.requirements hrec).trans hr
    rw [hmode₂, hpayload]
    exact convert_eq hload₂ hr' hp' false
  obtain ⟨c₂', hrun⟩ := processMessage_ok hm₂ (by rw [hconv, hres])
  obtain ⟨-, hinput, -⟩ := converted_of_ok hm₂ hrun
  rw [hconv] at hinput
  obtain ⟨hlocate, hat⟩ := hreplaced.locate
  refine ⟨c₂', hex, hrun, ?_, hbytes⟩
  -- the hex element takes the name of the tree it replaces
  have hname : (hexElement T.name hex).named "MessageFrame" = true := by
    rw [name_of_named hrt.named]
    rfl
  have hchild : (data'.withChildren (data'.children.eraseIdx i ++ [hexElement T.name hex])).child
      "MessageFrame" = some (hexElement T.name hex) := by
    rw [child, children_withChildren_of_named hnamed, List.find?_append, hgone]
    simp [hname]
  rw [hinput, select, hlocate, Option.bind_some, hat, Option.bind_some, hchild]
  rfl

/-! ### A name with white space around it -/

/-- A MessageFrame that is nothing but a name. -/
def nameFrame (v : String) : Node := .element "MessageFrame" [] [textElement "name" v]

/-- The name in the text of such a frame. -/
def nameIn (xml : String) : String :=
  String.ofList ((xml.toList.drop "<MessageFrame><name>".length).take
    (xml.length - "<MessageFrame><name></name></MessageFrame>".length))

/-- A name is encoded as its characters. -/
def nameBytes (v : String) : List Int8 := v.toList.map fun c => Int8.ofNat c.toNat

def bytesName (bytes : List Int8) : String :=
  String.ofList (bytes.map fun i => Char.ofNat i.toInt.toNat)

def nameHex (v : String) : String := String.ofList ((nameBytes v).flatMap hexPair)

/-- The data element of a record with the hex of a name. -/
def nameData (v : String) : Node := .element "data" [] [textElement "bytes" (nameHex v)]

def nameDoc (v : String) : Node := encodingDoc [("MessageFrame", "UPER")] (nameData v)

/-- What is published for it: the text of data has been set before the frame is
appended. -/
def frameDoc (v : String) : Node :=
  mapAt (mapChild "dataType" (setText (asn1datatypes .xml))) [0, 1]
    (mapAt (fun n => n.withChildren [.pcdata "", nameFrame v]) [0, 1, 1] (nameDoc v))

/-- Libraries for such frames: they read the published record for the name and
the text of a frame, and, by `reading`, the received record. -/
def naming (v : String) : Externals String :=
  Externals.reading
    { loadBuffer := fun o s =>
        if o.parseTrimPcdata then
          if s = save (frameDoc v) then (none, reload xmlParseOptions (frameDoc v))
          else emptyHanded.loadBuffer o s
        else if s = (nameFrame (nameIn s)).print then
          (none, reload parseDefault (.document [nameFrame (nameIn s)]))
        else emptyHanded.loadBuffer o s
      asnDecode := fun _ _ bytes => .ok (bytesName bytes) bytes.length
      asnCheckConstraints := fun _ _ => none
      xerEncode := fun _ v => .ok (nameFrame v).print
      xerDecode := fun _ xml => .ok (nameIn xml) xml.length
      asnEncode := fun _ _ v => .ok (nameBytes v) }
    (nameDoc v)

theorem load_naming (v : String) :
    (naming v).loadBuffer xmlParseOptions (messageOf (nameDoc v)).payload = (none, nameDoc v) :=
  load_reading _ (nameDoc v)

/-- A name that these libraries undo, and that the decoder accepts. -/
abbrev Handled (v : String) : Prop :=
  bytesName (nameBytes v) = v ∧ nameIn (nameFrame v).print = v ∧
    hexToBytes (removeSpaces (nameHex v)) [] = (true, nameBytes v) ∧
    Xml.readPcdata parseDefault v = some v ∧ save (frameDoc v) ≠ (nameDoc v).print ∧
    (convert (naming v) true (messageOf (nameDoc v)).payload).result = .ok true

theorem roundTrips_naming {v : String} (h : Handled v) :
    RoundTrips (naming v) .unalignedBasicPer v (nameBytes v) (nameFrame v) := by
  obtain ⟨hbytes, hname, -⟩ := h
  refine ⟨⟨(nameBytes v).length, ?_⟩, rfl, rfl, ⟨_, rfl, ?_⟩, ⟨(nameFrame v).print.length, ?_⟩, rfl⟩
  · show DecRval.ok (bytesName (nameBytes v)) _ = _
    rw [hbytes]
  · simp [naming, Externals.reading, parseDefault, hname]
  · show DecRval.ok (nameIn (nameFrame v).print) _ = _
    rw [hname]

theorem carriesHex_naming {v : String} (h : Handled v) :
    CarriesHex (nameDoc v) (nameData v) .unalignedBasicPer (nameBytes v) where
  requirements := ⟨_, rfl, by intro td; cases td <;> decide, rfl⟩
  encodings := by
    intro n hn
    obtain rfl := Option.some.inj hn
    rfl
  dataAt := rfl
  bytes := ⟨_, rfl, h.2.2.1⟩
  single := rfl

/-- The decoder accepts the record of a name and publishes what `c'` holds, with
libraries that keep what is assumed of them. -/
structure Republished (v : String) (c' : Codec) : Prop where
  roundTrips : RoundTrips (naming v) .unalignedBasicPer v (nameBytes v) (nameFrame v)
  carriesHex : CarriesHex (nameDoc v) (nameData v) .unalignedBasicPer (nameBytes v)
  decoded : (processMessage (naming v) (messageOf (nameDoc v))).run configuredCodec = .ok true c'
  loaded : (naming v).loadBuffer xmlParseOptions (save c'.inputDoc) =
    (none, reload xmlParseOptions c'.inputDoc)

/-- The decoder publishes the frame of the name. -/
theorem decode_naming {v : String} (h : Handled v) :
    ∃ c', Republished v c' ∧ c'.inputDoc = frameDoc v := by
  have hrt := roundTrips_naming h
  have hrec := carriesHex_naming h
  obtain ⟨-, -, -, hread, hne, hconv⟩ := h
  obtain ⟨c', hc'⟩ :=
    @processMessage_ok String (naming v) (messageOf (nameDoc v)) rfl configuredCodec _ hconv
  have helement : documentElement (reload parseDefault (.document [nameFrame v])) =
      some (nameFrame v) := by
    have hframe : reload parseDefault (nameFrame v) = nameFrame v := by
      simp [nameFrame, textElement, reload, reloadAll, joinPcdata, Node.readBack, hread]
    rw [reload, reloadAll, hframe]
    rfl
  obtain ⟨p, hpublished⟩ := dataReplaced_decode hrt helement rfl rfl (load_naming v) hrec hc'
  obtain rfl : p = [0, 1, 1] := Option.some.inj (hpublished.payload.symm.trans rfl)
  have hdata : setFirstText "" ((nameData v).children.eraseP (named "bytes")) = [.pcdata ""] := rfl
  have hdoc : c'.inputDoc = frameDoc v := by
    rw [hpublished.replaced, hdata]
    rfl
  refine ⟨c', ⟨hrt, hrec, hc', ?_⟩, hdoc⟩
  rw [hdoc]
  simp [naming, Externals.reading, xmlParseOptions, hne]

/-- The hex of a name comes back. -/
theorem encode_undoes_decode_naming : ∃ c₁' c₂' hex,
    (processMessage (naming "x") (messageOf (nameDoc "x"))).run configuredCodec =
        .ok true c₁' ∧
      (processMessage (naming "x") ⟨.noError, save c₁'.inputDoc⟩).run encodingCodec =
        .ok true c₂' ∧
      (((select odePayloadQuery c₂'.inputDoc).bind fun n => n.child "MessageFrame").bind
        fun n => n.childText? "bytes") = some hex ∧
      hexToBytes hex [] = (true, nameBytes "x") := by
  have hkept : Kept (nameFrame "x") := by
    refine .elements fun c hc => ?_
    obtain rfl := List.mem_singleton.mp hc
    exact .text ⟨⟨'x', by decide, by decide⟩, ⟨'x', by decide, by decide⟩, by decide⟩
  obtain ⟨c₁', h, -⟩ := @decode_naming "x" (by decide +kernel)
  have hpayload : (Message.mk .noError (save c₁'.inputDoc)).payload = save c₁'.inputDoc := rfl
  have hmode₂ : encodingCodec.decodeFunctionality = false := rfl
  obtain ⟨c₂', hex, hc₂', hhex, hbytes⟩ :=
    encode_undoes_decode h.roundTrips hkept (by decide +kernel) rfl rfl (load_naming "x")
      h.carriesHex h.decoded rfl hmode₂ hpayload h.loaded
  exact ⟨c₁', c₂', hex, h.decoded, hc₂', hhex, hbytes⟩

/-- A name that begins with a space comes back without it, and one that contains
the name of an outdated element is not encoded at all. -/
theorem name_not_restored :
    (∃ c₁' c₂', Republished " x" c₁' ∧
      (processMessage (naming " x") ⟨.noError, save c₁'.inputDoc⟩).run encodingCodec =
        .ok true c₂' ∧
      (((select odePayloadQuery c₂'.inputDoc).bind fun n => n.child "MessageFrame").bind
        fun n => n.childText? "bytes") = some "78" ∧
      hexToBytes "78" [] ≠ (true, nameBytes " x")) ∧
    ∃ c₁' c₂', Republished "duratonTime" c₁' ∧
      (processMessage (naming "duratonTime") ⟨.noError, save c₁'.inputDoc⟩).run encodingCodec =
        .error (.asn1Codec "J2735 2020 conformance check failed.") c₂' := by
  constructor
  · obtain ⟨c₁', h, hdoc⟩ := @decode_naming " x" (by decide +kernel)
    have hback : (convert (naming " x") encodingCodec.decodeFunctionality
        (save (frameDoc " x"))).result = .ok true := by
      decide +kernel
    obtain ⟨c₂', hc₂'⟩ :=
      @processMessage_ok String _ ⟨.noError, save (frameDoc " x")⟩ rfl _ _ hback
    have hinput : c₂'.inputDoc = (convert (naming " x") false (save (frameDoc " x"))).doc :=
      (converted_of_ok rfl hc₂').2.1
    refine ⟨c₁', c₂', h, ?_, ?_, ?_⟩
    · rw [hdoc]
      exact hc₂'
    · rw [hinput]
      decide +kernel
    · decide +kernel
  · obtain ⟨c₁', h, hdoc⟩ := @decode_naming "duratonTime" (by decide +kernel)
    have hback : (convert (naming "duratonTime") encodingCodec.decodeFunctionality
        (save (frameDoc "duratonTime"))).result =
          .error (.asn1Codec "J2735 2020 conformance check failed.") := by
      decide +kernel
    obtain ⟨c₂', hc₂'⟩ :=
      @processMessage_error String _ ⟨.noError, save (frameDoc "duratonTime")⟩ rfl _ _ hback
    refine ⟨c₁', c₂', h, ?_⟩
    rw [hdoc]
    exact hc₂'

end Asn1Codec
