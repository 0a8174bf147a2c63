/-
Asn1Codec/Listed.lean

Which of the listed types are processed.

The encodings list may name any type.  The loop over it knows three names and
passes over the others, and the decoder has no use for one of the three.  A
message that is processed without an exception has been encoded, or decoded, as
exactly those listed types that the mode processes (`convert_done`).  These are
all the listed types only if the list names no others.

That a layer is encoded or decoded says more than that its codec was called: the
runtime has accepted what it was given, and the hex of an encoded layer stands
in the published data.
-/
import Asn1Codec.Layered
import Asn1Codec.Xml.Frame

namespace Asn1Codec

open Xml (Node Loc)
open Xml.Node

variable {V : Type}

/-! ### Listed and processed types -/

/-- The element types that the entries of a document name. -/
def listedTypes (doc : Node) : List String :=
  match select odeEncodingsQuery doc with
  | none => []
  | some encodings => encodings.children.filterMap fun n => n.childText? "elementType"

/-- The types that a mode processes. -/
def processedTypes (decode : Bool) : List AsnType :=
  if decode then [.ieee1609Dot2Data, .messageFrame]
  else [.messageFrame, .ieee1609Dot2Data, .advisorySituationData]

/-- An element of a type has been encoded, and data has its hex. -/
def LayerEncoded (E : Externals V) (published : Node) (calls : List Call) (td : AsnType) : Prop :=
  ∃ (ats : TransferSyntax) (n data : Node) (hex : String), n.named td.name = true ∧
    ⟨td.op, ats, n.print⟩ ∈ calls ∧ Encodes E td ats n.print hex ∧
    select odePayloadQuery published = some data ∧
    hexElement td.name hex ∈ data.children

/-- The received bytes have been decoded as a type, or the unsecured data in them. -/
def LayerDecoded (E : Externals V) (received : Node) (calls : List Call) (td : AsnType) : Prop :=
  ∃ text ats hex xb,
    (select odePayloadQuery received).bind (fun n => n.childText? "bytes") = some text ∧
    (hex = text ∨ ∃ ats', Unwraps E ats' text hex) ∧ ⟨td.op, ats, hex⟩ ∈ calls ∧
    Decodes E td ats hex xb

/-- A type has been processed in a mode. -/
def Done (E : Externals V) (decode : Bool) (received published : Node) (calls : List Call)
    (td : AsnType) : Prop :=
  if decode then LayerDecoded E received calls td else LayerEncoded E published calls td

/-- The listed types are the types that have been processed. -/
def AllDone (E : Externals V) (decode : Bool) (received published : Node) (calls : List Call) :
    Prop :=
  ∀ s, s ∈ listedTypes received ↔ ∃ td, Done E decode received published calls td ∧ s = td.name

/-! ### The requirements of a list -/

theorem elementType_eq_name (n : Node) (td : AsnType) :
    elementType n = td.name ↔ n.childText? "elementType" = some td.name := by
  have hne : td.name ≠ "" := by
    cases td <;> simp [AsnType.name]
  rw [elementType]
  rcases n.childText? "elementType" with - | s
  · simpa using hne.symm
  · simp

/-- A type is requested exactly if it is listed. -/
theorem requested_iff_listed {doc : Node} {r : Requirements}
    (h : codecRequirements doc = .ok r) (td : AsnType) :
    r.requested td = true ↔ td.name ∈ listedTypes doc := by
  have hrun := codecRequirements_ok.mp h
  rcases requirementsFor_cases doc .constructed with ⟨what, herr⟩ | ⟨encodings, hq,
    ⟨e, s, -, herr⟩ | ⟨what, s, -, -, herr⟩ | ⟨s, hs, -, hok⟩⟩
  · exact absurd (hrun.symm.trans herr) (by simp)
  · exact absurd (hrun.symm.trans herr) (by simp)
  · exact absurd (hrun.symm.trans herr) (by simp)
  · obtain ⟨-, rfl⟩ := EStateM.Result.ok.inj (hrun.symm.trans hok)
    rw [requested_setEntries hs td, requested_reset]
    simp only [elementType_eq_name, Bool.false_eq_true, or_false, listedTypes, hq,
      List.mem_filterMap]

/-! ### Data after the encoder -/

section Data

variable {doc : Node} {p : Loc}

/-- The data type is set in a sibling of data, if there is one. -/
theorem dataType_eq (hp : locate odePayloadQuery doc = some p) (v : String) :
    mapAt (mapChild "dataType" (setText v)) p.dropLast doc = doc ∨
      ∃ i, mapAt (mapChild "dataType" (setText v)) p.dropLast doc =
        mapAt (setText v) (p.dropLast ++ [i]) doc := by
  obtain ⟨m, hm, -⟩ := at?_of_locate hp
  rcases hparent : doc.at? p.dropLast with - | n
  · -- data has a parent
    obtain ⟨q, i, rfl⟩ := (List.eq_nil_or_concat p).resolve_left (ne_nil_of_locate hp)
    rw [List.concat_eq_append, List.dropLast_concat] at hparent
    rw [List.concat_eq_append, at?_append, hparent] at hm
    cases hm
  rcases hc : n.child "dataType" with - | c
  · have hid : n.mapChild "dataType" (setText v) = n := by
      rw [Node.mapChild, mapFirst_of_forall_not fun x hx => by
        simpa using List.find?_eq_none.mp hc x hx, withChildren_children]
    exact .inl (mapAt_eq_self hparent hid)
  · exact .inr (mapAt_mapChild_eq hparent hc (setText v))

theorem length_dropLast (hp : locate odePayloadQuery doc = some p) (i : ℕ) :
    (p.dropLast ++ [i]).length = odePayloadQuery.length := by
  have hlen := length_of_locate hp
  rw [List.length_append, List.length_dropLast, hlen]
  rfl

/-- Data stays where it is, and is not given bytes. -/
theorem step_dataType (hp : locate odePayloadQuery doc = some p) (v : String) :
    locate odePayloadQuery (mapAt (mapChild "dataType" (setText v)) p.dropLast doc) = some p ∧
      (mapAt (mapChild "dataType" (setText v)) p.dropLast doc).at? p = doc.at? p := by
  obtain ⟨m, hm, -⟩ := at?_of_locate hp
  have hdata : m.named "data" = true := named_of_locate hp hm rfl
  have hother : m.named "dataType" = false := named_ne (by decide) m hdata
  have hsame := at?_mapAt_mapChild (f := setText v) (ne_nil_of_locate hp) hm hother
  refine ⟨?_, hsame.trans hm.symm⟩
  rcases dataType_eq hp v with heq | ⟨i, heq⟩
  · rw [heq, hp]
  · rw [heq, locate_mapAt (fun s n => named_setText ..) (length_dropLast hp i).ge, hp]

/-- The elements with the hex are the last children of data. -/
theorem appendHex_located {D : Node} (hp : locate odePayloadQuery doc = some p)
    (hD : doc.at? p = some D) (ds : List (String × String)) :
    locate odePayloadQuery (appendHex p ds doc) = some p ∧
      ∃ D', (appendHex p ds doc).at? p = some D' ∧
        D'.children = D.children ++ ds.map fun d => hexElement d.1 d.2 := by
  have hdata : D.named "data" = true := named_of_locate hp hD rfl
  let cs := D.children ++ ds.map fun d => hexElement d.1 d.2
  have hself : doc = withData p doc D := (mapAt_eq_self hD rfl).symm
  have happend : appendHex p ds doc = mapAt (fun n => n.withChildren cs) p doc := by
    rw [hself, appendHex_withData hdata, ← hself]
    exact mapAt_congr hD rfl
  rw [happend]
  constructor
  · have hbelow := locate_mapAt_below (fun s n => named_withChildren s n cs) hp []
    rwa [List.append_nil] at hbelow
  · refine ⟨D.withChildren cs, ?_, children_withChildren_of_named hdata cs⟩
    rw [at?_mapAt, hD]
    rfl

end Data

/-! ### What a conversion that succeeds has done -/

section Steps

variable {E : Externals V} {p : Loc} {doc : Node}

/-- A step has encoded an element of its type, and data stays where it is. -/
theorem encodeStep_encodes {part : Part} {td : AsnType} {d : String × String}
    (hp : locate odePayloadQuery doc = some p) (hop : part.op = td.op)
    (hpath : part.nodePath.getLast? = some td.name)
    (h : (encodeStep E p part doc).result = .ok d) :
    locate odePayloadQuery (encodeStep E p part doc).doc = some p ∧ d.1 = td.name ∧
      ∃ n : Node, n.named td.name = true ∧
        (encodeStep E p part doc).calls = [⟨td.op, part.decodeType, n.print⟩] ∧
        Encodes E td part.decodeType n.print d.2 := by
  obtain ⟨data, q, n, -, hq, hn, hname, hhex, hcalls, hdoc⟩ := encodeStep_ok h
  have hnamed := named_of_locate hq hn hpath
  refine ⟨?_, hname.trans (name_of_named hnamed), n, hnamed, ?_, ?_⟩
  · -- the element is below data, so what is edited is data or below it
    have hne : q ≠ [] := by
      rintro rfl
      have hlen := length_of_locate hq
      rw [List.length_nil, eq_comm, List.length_eq_zero_iff] at hlen
      simp [hlen] at hpath
    obtain ⟨r, i, rfl⟩ := (List.eq_nil_or_concat q).resolve_left hne
    rw [hdoc, List.concat_eq_append, ← List.append_assoc, takeNode_eq]
    exact locate_mapAt_below (fun s n => named_takeChild ..) hp r
  · rw [hcalls, hop]
  · rw [hop] at hhex
    exact frameHex_ok hhex

/-- Each part of the protocol has been encoded, and nothing else called for. -/
theorem encodeSteps_encodes {r : Requirements} {tds : List AsnType}
    {ds : List (String × String)} (hp : locate odePayloadQuery doc = some p)
    (h : (encodeSteps E p (tds.map r.partFor) doc).result = .ok ds) :
    locate odePayloadQuery (encodeSteps E p (tds.map r.partFor) doc).doc = some p ∧
      (encodeSteps E p (tds.map r.partFor) doc).calls.map Call.op = tds.map AsnType.op ∧
      ∀ td ∈ tds, ∃ (n : Node) (hex : String), n.named td.name = true ∧
        ⟨td.op, r.rule td, n.print⟩ ∈ (encodeSteps E p (tds.map r.partFor) doc).calls ∧
        Encodes E td (r.rule td) n.print hex ∧ (td.name, hex) ∈ ds := by
  induction tds generalizing doc ds with
  | nil => exact ⟨hp, rfl, by simp⟩
  | cons td tds ih =>
    obtain ⟨d, ds', rfl, hstep, hrest, hcalls, hdoc⟩ := encodeSteps_cons_ok h
    obtain ⟨hp', hname, n, hnamed, hcall, henc⟩ :=
      encodeStep_encodes hp rfl (getLast?_layerPath r.requested td) hstep
    obtain ⟨hp'', hops, hothers⟩ := ih hp' hrest
    rw [List.map_cons, hcalls, hdoc, hcall]
    refine ⟨hp'', ?_, ?_⟩
    · rw [List.map_append, hops]
      rfl
    · intro td' htd'
      rcases List.mem_cons.mp htd' with rfl | htd'
      · refine ⟨n, d.2, hnamed, List.mem_append_left _ List.mem_cons_self, henc, ?_⟩
        rw [← hname]
        exact List.mem_cons_self
      · obtain ⟨n', hex', hnamed', hcall', henc', hds'⟩ := hothers td' htd'
        exact ⟨n', hex', hnamed', List.mem_append_right _ hcall', henc',
          List.mem_cons_of_mem _ hds'⟩

end Steps

theorem AsnType.op_injective : Function.Injective AsnType.op := by
  intro td td' h
  cases td <;> cases td' <;> simp_all [AsnType.op, J2735MESSAGEFRAME, IEEE1609DOT2, ASDFRAME]

/-- Encoding has encoded the requested types. -/
theorem encodeOutcome_done {E : Externals V} {r : Requirements} {p : Loc} {doc : Node} {b : Bool}
    (hagree : r.Agree) (hp : locate odePayloadQuery doc = some p)
    (h : (encodeOutcome E r p doc).result = .ok b) (td : AsnType) :
    LayerEncoded E (encodeOutcome E r p doc).doc (encodeOutcome E r p doc).calls td ↔
      r.requested td = true := by
  obtain ⟨-, ds, hds, hcalls, hdoc, -⟩ := encodeOutcome_ok hagree h
  rw [hcalls, hdoc]
  rw [parts_eq_map] at hds ⊢
  obtain ⟨hp', hops, hsteps⟩ := encodeSteps_encodes hp hds
  constructor
  · -- no codec has been called for a type that is not requested
    rintro ⟨ats, n, data, hex, -, hcall, -⟩
    have hop := List.mem_map_of_mem (f := Call.op) hcall
    rw [hops] at hop
    obtain ⟨td', htd', heq⟩ := List.mem_map.mp hop
    obtain rfl := AsnType.op_injective heq
    exact mem_layersOf.mp htd'
  · intro hreq
    obtain ⟨n, hex, hnamed, hcall, henc, hmem⟩ := hsteps td (mem_layersOf.mpr hreq)
    obtain ⟨D, hD, -⟩ := at?_of_locate hp'
    obtain ⟨hp'', D', hD', hchildren⟩ := appendHex_located hp' hD ds
    -- the data type is set beside data
    obtain ⟨hend, hsame⟩ := step_dataType hp'' (asn1datatypes .hex)
    refine ⟨_, n, D', hex, hnamed, hcall, henc, ?_, ?_⟩
    · rw [select, hend, Option.bind_some, hsame, hD']
    · rw [hchildren]
      exact List.mem_append_right _ (List.mem_map_of_mem (f := fun d => hexElement d.1 d.2) hmem)

/-- Decoding has decoded the requested types it knows. -/
theorem decodeOutcome_done {E : Externals V} {r : Requirements} {p : Loc} {doc : Node} {b : Bool}
    (hp : locate odePayloadQuery doc = some p) (h : (decodeOutcome E r p doc).result = .ok b)
    (td : AsnType) :
    LayerDecoded E doc (decodeOutcome E r p doc).calls td ↔
      td ∈ processedTypes true ∧ r.requested td = true := by
  obtain ⟨data, text, hstr, hdata, htext, -, hunwrap, hcalls, hinsert⟩ := decodeOutcome_ok h
  have hbytes : (select odePayloadQuery doc).bind (fun n => n.childText? "bytes") = some text := by
    rw [select, hp, Option.bind_some, hdata, Option.bind_some, htext]
  rw [hcalls]
  constructor
  · rintro ⟨text', ats, hex, xb, -, -, hcall, -⟩
    rcases h16 : r.decode1609dot2 with - | - <;> rcases hmf : r.decodeMessageframe with - | - <;>
      cases td <;>
      simp_all [processedTypes, Requirements.requested, AsnType.op, IEEE1609DOT2,
        J2735MESSAGEFRAME, ASDFRAME]
  · rintro ⟨hknown, hreq⟩
    cases td with
    | ieee1609Dot2Data =>
      have h16 : r.decode1609dot2 = true := hreq
      rw [if_pos h16] at hunwrap
      obtain ⟨xb, x, hdec, -⟩ := unsecuredData_ok hunwrap
      exact ⟨text, _, text, xb, hbytes, .inl rfl, by simp [h16, AsnType.op], hdec⟩
    | messageFrame =>
      have hmf : r.decodeMessageframe = true := hreq
      rw [if_pos hmf] at hinsert
      obtain ⟨xb, x, hxb, -⟩ := insertOutcome_ok hinsert.1
      refine ⟨text, _, hstr, xb, hbytes, ?_, by simp [hmf, AsnType.op], decodeHexData_ok hxb⟩
      -- the hex is that of data, or that of the unsecured data in it
      rcases h16 : r.decode1609dot2 with - | -
      · exact .inl (by simpa [h16] using hunwrap)
      · rw [if_pos h16] at hunwrap
        exact .inr ⟨_, unsecuredData_ok hunwrap⟩
    | advisorySituationData => simp [processedTypes] at hknown

/-- **What a conversion that succeeds has processed**: the listed types that
the mode knows, and at least one of them. -/
theorem convert_done {E : Externals V} {decode : Bool} {payload : String} {doc : Node} {b : Bool}
    (hload : E.loadBuffer xmlParseOptions payload = (none, doc))
    (h : (convert E decode payload).result = .ok b) :
    (∀ td, Done E decode doc (convert E decode payload).doc (convert E decode payload).calls td ↔
      td ∈ processedTypes decode ∧ td.name ∈ listedTypes doc) ∧
    ∃ td ∈ processedTypes decode, td.name ∈ listedTypes doc := by
  obtain ⟨r, p, hr, hp, hconv⟩ := convert_ok hload h
  rw [hconv] at h ⊢
  have hlisted := requested_iff_listed hr
  rcases decode with - | -
  · -- encode mode processes every type of the enumeration
    simp only [Bool.false_eq_true, if_false, Done] at h ⊢
    have hall : ∀ td, td ∈ processedTypes false := by
      intro td
      cases td <;> simp [processedTypes]
    refine ⟨fun td => ?_, ?_⟩
    · rw [encodeOutcome_done (agree_codecRequirements hr) hp h, hlisted]
      simp [hall]
    · obtain ⟨hparts, -⟩ := encodeOutcome_ok (agree_codecRequirements hr) h
      rw [parts_eq_map, ne_eq, List.map_eq_nil_iff] at hparts
      obtain ⟨td, htd⟩ := List.exists_mem_of_ne_nil _ hparts
      exact ⟨td, hall td, (hlisted td).mp (mem_layersOf.mp htd)⟩
  · -- decode mode has no use for the advisory message
    simp only [if_true, Done] at h ⊢
    refine ⟨fun td => ?_, ?_⟩
    · rw [decodeOutcome_done hp h, hlisted]
    · obtain ⟨-, -, -, -, -, hstage, -⟩ := decodeOutcome_ok h
      rcases hstage with h16 | hmf
      · exact ⟨.ieee1609Dot2Data, by simp [processedTypes], (hlisted _).mp h16⟩
      · exact ⟨.messageFrame, by simp [processedTypes], (hlisted _).mp hmf⟩

/-- **All or error**, where it holds: of a message that is processed without an
exception exactly the listed types have been encoded, or decoded, if and only if
the mode processes every type on the list.  Where it processes none of them, an
exception is thrown. -/
theorem all_done_iff {E : Externals V} {m : Message} {c : Codec} {doc : Node}
    (hm : m.err = .noError) (hload : E.loadBuffer xmlParseOptions m.payload = (none, doc)) :
    (∀ b c', (processMessage E m).run c = .ok b c' →
      ∃ calls, c'.calls = c.calls ++ calls ∧
        (AllDone E c.decodeFunctionality doc c'.inputDoc calls ↔
          ∀ s ∈ listedTypes doc, ∃ td ∈ processedTypes c.decodeFunctionality, s = td.name)) ∧
    ((∀ td ∈ processedTypes c.decodeFunctionality, td.name ∉ listedTypes doc) →
      ∃ e c', (processMessage E m).run c = .error e c') := by
  constructor
  · intro b c' hok
    obtain ⟨hres, hinput, hcalls, -⟩ := converted_of_ok hm hok
    obtain ⟨hdone, -⟩ := convert_done hload hres
    rw [← hinput] at hdone
    refine ⟨_, hcalls, ?_⟩
    constructor
    · intro hall s hs
      obtain ⟨td, htd, rfl⟩ := (hall s).mp hs
      exact ⟨td, ((hdone td).mp htd).1, rfl⟩
    · intro hknown s
      constructor
      · intro hs
        obtain ⟨td, htd, rfl⟩ := hknown s hs
        exact ⟨td, (hdone td).mpr ⟨htd, hs⟩, rfl⟩
      · rintro ⟨td, htd, rfl⟩
        exact ((hdone td).mp htd).2
  · intro hnone
    rcases hr : (processMessage E m).run c with ⟨b, c'⟩ | ⟨e, c'⟩
    · obtain ⟨hres, -⟩ := converted_of_ok hm hr
      obtain ⟨-, td, htd, hlisted⟩ := convert_done hload hres
      exact absurd hlisted (hnone td htd)
    · exact ⟨e, c', rfl⟩

/-- The three layers are listed, and each is encoded. -/
theorem all_done_iff_threeDoc : ∃ c' calls,
    (processMessage (oneByte threeDoc) (messageOf threeDoc)).run encodingCodec = .ok true c' ∧
      c'.calls = calls ∧ AllDone (oneByte threeDoc) false threeDoc c'.inputDoc calls := by
  have hconv : (convert (oneByte threeDoc) encodingCodec.decodeFunctionality
      (messageOf threeDoc).payload).result = .ok true := by
    decide +kernel
  obtain ⟨c', hc'⟩ := @processMessage_ok Unit (oneByte threeDoc) (messageOf threeDoc) rfl _ _ hconv
  have hiff := all_done_iff (E := oneByte threeDoc) (m := messageOf threeDoc) (c := encodingCodec)
    rfl (load_oneByte threeDoc)
  obtain ⟨calls, hcalls, hall⟩ := hiff.1 true c' hc'
  exact ⟨c', calls, hc', hcalls, hall.mpr (by decide)⟩

/-! ### A type that is passed over -/

/-- A document that asks for a MessageFrame and a Certificate to be encoded. -/
def certificateDoc : Node :=
  encodingDoc [("MessageFrame", "UPER"), ("Certificate", "COER")]
    (.element "data" [] [.element "MessageFrame" [] [], .element "Certificate" [] []])

/-- The MessageFrame is encoded as if it had been listed alone. -/
theorem certificate_passed_over : ∃ c',
    (processMessage (oneByte certificateDoc) (messageOf certificateDoc)).run encodingCodec =
        .ok true c' ∧
      listedTypes certificateDoc = ["MessageFrame", "Certificate"] ∧
      c'.calls.map Call.op = [J2735MESSAGEFRAME] ∧
      ¬ AllDone (oneByte certificateDoc) false certificateDoc c'.inputDoc c'.calls := by
  have hconv : (convert (oneByte certificateDoc) encodingCodec.decodeFunctionality
      (messageOf certificateDoc).payload).result = .ok true := by
    decide +kernel
  obtain ⟨c', hc'⟩ :=
    @processMessage_ok Unit (oneByte certificateDoc) (messageOf certificateDoc) rfl _ _ hconv
  obtain ⟨-, -, hcalls, -⟩ := converted_of_ok rfl hc'
  refine ⟨c', hc', rfl, ?_, ?_⟩
  · rw [hcalls]
    decide +kernel
  · intro hall
    obtain ⟨td, -, htd⟩ := (hall "Certificate").mp (by decide)
    cases td <;> simp [AsnType.name] at htd

end Asn1Codec
