/-
Asn1Codec/Layered.lean

Layered encoding: what the encoder of each layer is given, and what becomes of
the document.

The steps of a protocol edit the document that the next step searches.  Between
two steps the document differs from the received one in one place: the wrapper
of the layer encoded last holds that layer's hex and nothing else
(`innerData`).  The next layer out is found where it was, because the edit is
deeper than its path, and its subtree is the original one with the inner layer
replaced by its hex.  The step for it in turn overwrites the earlier edit.
-/
import Asn1Codec.Stateless

namespace Asn1Codec

open Xml (Node Loc)
open Xml.Node

variable {V : Type}

/-! ### The layers -/

/-- The operation of a layer. -/
def AsnType.op : AsnType → UInt32
  | .messageFrame => J2735MESSAGEFRAME
  | .ieee1609Dot2Data => IEEE1609DOT2
  | .advisorySituationData => ASDFRAME

/-- The layers that are requested, inner to outer. -/
def layersOf (requested : AsnType → Bool) : List AsnType :=
  [AsnType.messageFrame, .ieee1609Dot2Data, .advisorySituationData].filter requested

/-- The path from the element of a layer to the wrapper of the layer inside it. -/
def AsnType.wrapperPath : AsnType → List String
  | .messageFrame => []
  | .ieee1609Dot2Data => ["content", "unsecuredData"]
  | .advisorySituationData => ["asdmDetails", "advisoryMessage"]

/-- The path, from data, of the advisory message if there is one. -/
def asdPath (requested : AsnType → Bool) : List String :=
  if requested .advisorySituationData then
    ["AdvisorySituationData", "asdmDetails", "advisoryMessage"]
  else []

/-- The path, from data, of the element of a layer. -/
def layerPath (requested : AsnType → Bool) : AsnType → List String
  | .advisorySituationData => ["AdvisorySituationData"]
  | .ieee1609Dot2Data => asdPath requested ++ ["Ieee1609Dot2Data"]
  | .messageFrame =>
    if requested .ieee1609Dot2Data then
      asdPath requested ++ ["Ieee1609Dot2Data", "content", "unsecuredData", "MessageFrame"]
    else asdPath requested ++ ["MessageFrame"]

/-- The layer's own encoding: the XML is decoded, satisfies the constraints of
the type and is encoded under the rule to bytes with this upper-case hex. -/
def Encodes (E : Externals V) (td : AsnType) (ats : TransferSyntax) (xml hex : String) : Prop :=
  ∃ v consumed bytes, E.xerDecode td xml = .ok v consumed ∧
    E.asnCheckConstraints td v = none ∧ E.asnEncode ats td v = .ok bytes ∧
    hex = String.ofList (bytes.flatMap hexPair)

/-- The element of a layer, at `loc td` in data, with the layer nested in it
replaced by its hex. -/
def layerXml (data : Node) (loc : AsnType → Loc) (inner : Option (AsnType × String))
    (td : AsnType) : Node :=
  match inner with
  | none => deref data (loc td)
  | some (td', hex) =>
    mapAt (fun _ => .pcdata hex) ((loc td').drop (loc td).length) (deref data (loc td))

/-- The layers encoded from the inside out: each layer's encoder is given its
element with the next layer in replaced by the hex of that one. -/
inductive EncodesLayers (E : Externals V) (data : Node) (loc : AsnType → Loc)
    (rule : AsnType → TransferSyntax) :
    Option (AsnType × String) → List (AsnType × String) → List Call → Prop
  | nil (inner) : EncodesLayers E data loc rule inner [] []
  | cons {inner td hex rest calls} :
      Encodes E td (rule td) (layerXml data loc inner td).print hex →
      EncodesLayers E data loc rule (some (td, hex)) rest calls →
      EncodesLayers E data loc rule inner ((td, hex) :: rest)
        (⟨td.op, rule td, (layerXml data loc inner td).print⟩ :: calls)

theorem dataStruct_op {td td' : AsnType} {xml : String} (h : dataStruct td.op xml = .ok td') :
    td' = td := by
  cases td with
  | messageFrame =>
    rcases hc : j2735_2020ConformanceCheck xml with - | - <;>
      simp_all [dataStruct, AsnType.op]
  | ieee1609Dot2Data =>
    simpa [dataStruct, AsnType.op, IEEE1609DOT2, J2735MESSAGEFRAME, eq_comm] using h
  | advisorySituationData =>
    simpa [dataStruct, AsnType.op, IEEE1609DOT2, J2735MESSAGEFRAME, ASDFRAME, eq_comm] using h

/-! ### One step, seen from data -/

theorem frameHex_ok {E : Externals V} {td : AsnType} {ats : TransferSyntax} {xml hex : String}
    (h : frameHex E td.op ats xml = .ok hex) : Encodes E td ats xml hex := by
  unfold frameHex at h
  split at h
  · exact absurd h (by simp)
  rename_i td' hd
  obtain rfl := dataStruct_op hd
  split at h
  · exact absurd h (by simp)
  · exact absurd h (by simp)
  · rename_i v consumed hv
    split at h
    · exact absurd h (by simp)
    · rename_i hc
      split at h
      · exact absurd h (by simp)
      · rename_i buffer hb
        rw [bytesToHex_eq] at h
        exact ⟨v, consumed, buffer, hv, hc, hb, (Except.ok.inj h).symm⟩

/-- Data between two steps: the wrapper of the layer encoded last holds that
layer's hex and nothing else. -/
def innerData (data : Node) (loc : AsnType → Loc) : Option (AsnType × String) → Node
  | none => data
  | some (td, hex) => mapAt (fun n => n.withChildren [.pcdata hex]) (loc td).dropLast data

/-- `td` stands in a wrapper of its own below `td'`. -/
def Below (data : Node) (loc : AsnType → Loc) (td td' : AsnType) : Prop :=
  ∃ r wr, loc td = loc td' ++ r ++ [0] ∧ data.at? (loc td' ++ r) = some wr ∧
    wr.children = [deref data (loc td)]

/-- The part of a protocol for a layer that is found at `loc td`. -/
structure IsPart (data : Node) (loc : AsnType → Loc) (rule : AsnType → TransferSyntax)
    (part : Part) (td : AsnType) : Prop where
  op : part.op = td.op
  decodeType : part.decodeType = rule td
  path : locate part.nodePath data = some (loc td)
  named : (deref data (loc td)).named td.name = true

/-- A protocol whose layers are nested in one another. -/
inductive Nested (data : Node) (loc : AsnType → Loc) (rule : AsnType → TransferSyntax) :
    List Part → List AsnType → Prop
  | outermost {part td i} : IsPart data loc rule part td → part.replace = false →
      loc td = [i] → Nested data loc rule [part] [td]
  | inner {part td part' td' parts tds} : IsPart data loc rule part td → part.replace = true →
      Below data loc td td' → Nested data loc rule (part' :: parts) (td' :: tds) →
      Nested data loc rule (part :: part' :: parts) (td :: td' :: tds)

/-- The outermost layer is a child of data. -/
theorem Nested.getLast? {data : Node} {loc : AsnType → Loc} {rule : AsnType → TransferSyntax}
    {parts : List Part} {tds : List AsnType} (h : Nested data loc rule parts tds) :
    ∃ td i, tds.getLast? = some td ∧ loc td = [i] := by
  induction h with
  | @outermost part td i _ _ hloc => exact ⟨td, i, rfl, hloc⟩
  | inner _ _ _ _ ih =>
    obtain ⟨td, i, htd, hloc⟩ := ih
    exact ⟨td, i, by rw [List.getLast?_cons_cons, htd], hloc⟩

/-- What was encoded last stands in a wrapper of its own below `td`. -/
def Attached (data : Node) (loc : AsnType → Loc) : Option (AsnType × String) → AsnType → Prop
  | none, _ => True
  | some (td', _), td => Below data loc td' td

section Step

variable {data : Node} {loc : AsnType → Loc} {inner : Option (AsnType × String)} {td : AsnType}

/-- The edit stays below the next layer out. -/
theorem innerData_eq (hinner : Attached data loc inner td) :
    ∃ f r, innerData data loc inner = mapAt f (loc td ++ r) data ∧
      (∀ s m, (f m).named s = m.named s) ∧
      ∀ T, data.at? (loc td) = some T → mapAt f r T = layerXml data loc inner td := by
  rcases inner with - | ⟨td', hex⟩
  · refine ⟨id, [], ?_, fun _ _ => rfl, ?_⟩
    · rcases hT : data.at? (loc td) with - | T
      · rw [List.append_nil, mapAt_id]
        rfl
      · rw [List.append_nil, mapAt_id]
        rfl
    · intro T hT
      simp [layerXml, deref, hT]
  · obtain ⟨r, wr, hloc, hwr, hchildren⟩ := hinner
    refine ⟨fun n => n.withChildren [.pcdata hex], r, ?_, fun s m => named_withChildren .., ?_⟩
    · rw [innerData, hloc, List.dropLast_concat]
    · intro T hT
      have hr : T.at? r = some wr := by
        rw [at?_append, hT] at hwr
        exact hwr
      have hdrop : (loc td').drop (loc td).length = r ++ [0] := by
        rw [hloc, List.append_assoc, List.drop_left]
      simp only [layerXml, hdrop, mapAt_append, deref, hT, Option.getD_some]
      refine mapAt_congr hr ?_
      simp [mapAt, hchildren]

theorem locate_innerData (hinner : Attached data loc inner td) {path : List String}
    (hpath : locate path data = some (loc td)) :
    locate path (innerData data loc inner) = some (loc td) := by
  obtain ⟨f, r, hf, hnamed, -⟩ := innerData_eq hinner
  rw [hf]
  exact locate_mapAt_below hnamed hpath r

theorem deref_innerData (hinner : Attached data loc inner td)
    (htd : (data.at? (loc td)).isSome) :
    deref (innerData data loc inner) (loc td) = layerXml data loc inner td := by
  obtain ⟨f, r, hf, -, hxml⟩ := innerData_eq hinner
  obtain ⟨T, hT⟩ := Option.isSome_iff_exists.mp htd
  rw [hf, deref, at?_mapAt_above, hT, ← hxml T hT]
  rfl

theorem named_layerXml (hinner : Attached data loc inner td) {T : Node}
    (hT : data.at? (loc td) = some T) (s : String) :
    (layerXml data loc inner td).named s = (deref data (loc td)).named s := by
  obtain ⟨f, r, -, hnamed, hxml⟩ := innerData_eq hinner
  rw [← hxml T hT, named_mapAt hnamed, deref, hT]
  rfl

/-- The wrapper that is left with the hex of `td`: the edit made for the layer
inside `td` went with the element. -/
theorem mapAt_innerData (hinner : Attached data loc inner td) {s : Loc} {i : ℕ}
    (hloc : loc td = s ++ [i]) {g : Node → Node} :
    mapAt (g ∘ eraseChild i) s (innerData data loc inner) = mapAt (g ∘ eraseChild i) s data := by
  obtain ⟨f, r, hf, -, -⟩ := innerData_eq hinner
  rw [hf, hloc, List.append_assoc]
  refine mapAt_absorb (fun m => ?_) data
  show g (eraseChild i (mapAt f (i :: r) m)) = g (eraseChild i m)
  rw [eraseChild_mapAt]

theorem innerData_next {td' : AsnType} (hinner : Attached data loc inner td)
    (hbelow : Below data loc td td') (hex : String) :
    mapAt (setText hex ∘ eraseChild 0) (loc td).dropLast (innerData data loc inner) =
      innerData data loc (some (td, hex)) := by
  obtain ⟨r, wr, hloc, hwr, hchildren⟩ := hbelow
  rw [innerData, hloc, List.dropLast_concat, mapAt_innerData hinner hloc]
  exact mapAt_congr hwr (setText_eraseChild hchildren hex)

end Step

/-! ### One step, seen from the document -/

section Document

variable {E : Externals V} {doc data : Node} {p : Loc} {loc : AsnType → Loc}
  {rule : AsnType → TransferSyntax}

/-- The document with data replaced. -/
def withData (p : Loc) (doc data : Node) : Node := mapAt (fun _ => data) p doc

theorem at?_withData (hdata : doc.at? p = some data) (D : Node) (q : Loc) :
    (withData p doc D).at? (p ++ q) = D.at? q := by
  rw [withData, at?_mapAt_below, hdata]
  rfl

theorem mapAt_withData (f : Node → Node) (q : Loc) (D : Node) :
    mapAt f (p ++ q) (withData p doc D) = withData p doc (mapAt f q D) := by
  rw [mapAt_append, withData, mapAt_mapAt]
  rfl

/-- What a step does that succeeds: it hands over the element with the layer in
it replaced, and takes the element out for its hex. -/
theorem encodeStep_withData {part : Part} {td : AsnType} {inner : Option (AsnType × String)}
    {d : String × String} (hdata : doc.at? p = some data) (hpart : IsPart data loc rule part td)
    (hinner : Attached data loc inner td) (hne : loc td ≠ [])
    (h : (encodeStep E p part (withData p doc (innerData data loc inner))).result = .ok d) :
    ∃ hex, Encodes E td (rule td) (layerXml data loc inner td).print hex ∧
      encodeStep E p part (withData p doc (innerData data loc inner)) =
        ⟨takeNode (p ++ loc td) part.replace hex (withData p doc (innerData data loc inner)),
          [⟨td.op, rule td, (layerXml data loc inner td).print⟩], "", .ok (td.name, hex)⟩ := by
  have hat := at?_withData hdata (innerData data loc inner)
  -- the edit of the step before is deeper than the path, so the search ends where it did
  have hfound : ((withData p doc (innerData data loc inner)).at? p).bind (locate part.nodePath) =
      some (loc td) := by
    have hroot := hat []
    rw [List.append_nil, at?_nil] at hroot
    rw [hroot]
    exact locate_innerData hinner hpart.path
  obtain ⟨T, hT, -⟩ := at?_of_locate hpart.path
  have hderef : deref (withData p doc (innerData data loc inner)) (p ++ loc td) =
      layerXml data loc inner td := by
    rw [← deref_innerData hinner (by rw [hT]; rfl), deref, deref, hat]
  -- the name is read after the removal; it is still that of the layer
  have hname : (layerXml data loc inner td).name = td.name := by
    have hnamed := named_layerXml hinner hT td.name
    rw [hpart.named] at hnamed
    exact name_of_named hnamed
  have hnil : ¬ p ++ loc td = [] := by
    rw [List.append_eq_nil_iff]
    exact fun h => hne h.2
  simp only [encodeStep, hfound, if_neg hnil, hderef, hname, hpart.op, hpart.decodeType] at h ⊢
  rcases hx : frameHex E td.op (rule td) (layerXml data loc inner td).print with e | hex
  · rw [hx] at h
    exact absurd h (by simp)
  · exact ⟨hex, frameHex_ok hx, rfl⟩

/-- The step for a layer that leaves its hex in its wrapper. -/
theorem takeNode_inner {td td' : AsnType} {inner : Option (AsnType × String)}
    (hinner : Attached data loc inner td) (hbelow : Below data loc td td') (hex : String) :
    takeNode (p ++ loc td) true hex (withData p doc (innerData data loc inner)) =
      withData p doc (innerData data loc (some (td, hex))) := by
  have hnext := innerData_next hinner hbelow hex
  obtain ⟨r, wr, hloc, -, -⟩ := hbelow
  rw [hloc, List.dropLast_concat] at hnext
  rw [takeNode, if_pos rfl, hloc, ← List.append_assoc, List.dropLast_concat, eraseAt_append,
    mapAt_mapAt, mapAt_withData, hnext]

/-- The step for the outermost layer. -/
theorem takeNode_outermost {td : AsnType} {inner : Option (AsnType × String)} {i : ℕ}
    (hinner : Attached data loc inner td) (hloc : loc td = [i]) (hex : String) :
    takeNode (p ++ loc td) false hex (withData p doc (innerData data loc inner)) =
      withData p doc (eraseAt (loc td) data) := by
  -- what was edited inside the element goes with it
  have herase := @mapAt_innerData data loc inner td hinner [] i hloc id
  have hp := @mapAt_withData doc p (eraseChild i) [] (innerData data loc inner)
  rw [List.append_nil] at hp
  rw [takeNode, if_neg (by simp), hloc, eraseAt_append, hp]
  exact congrArg (withData p doc) herase

/-- **The steps of a protocol**: each layer is encoded with the next layer in
replaced by its hex, and in the end the outermost element is gone from data and
nothing else has changed. -/
theorem encodeSteps_nested {parts : List Part} {tds : List AsnType}
    (hdata : doc.at? p = some data) (hnested : Nested data loc rule parts tds)
    {inner : Option (AsnType × String)}
    (hinner : ∀ td ∈ tds.head?, Attached data loc inner td) {ds : List (String × String)}
    (h : (encodeSteps E p parts (withData p doc (innerData data loc inner))).result = .ok ds) :
    ∃ hexes : List (AsnType × String), hexes.map Prod.fst = tds ∧
      ds = hexes.map (fun d => (d.1.name, d.2)) ∧
      EncodesLayers E data loc rule inner hexes
        (encodeSteps E p parts (withData p doc (innerData data loc inner))).calls ∧
      ∀ td ∈ tds.getLast?,
        (encodeSteps E p parts (withData p doc (innerData data loc inner))).doc =
          withData p doc (eraseAt (loc td) data) := by
  induction hnested generalizing inner ds with
  | @outermost part td i hpart hreplace hloc =>
    have hatt := hinner td rfl
    obtain ⟨d, ds', rfl, hstep, hrest, hcalls, hdoc⟩ := encodeSteps_cons_ok h
    obtain ⟨hex, henc, hout⟩ := encodeStep_withData hdata hpart hatt (by simp [hloc]) hstep
    rw [hout] at hstep hrest hcalls hdoc
    obtain rfl := Except.ok.inj hstep
    obtain rfl := Except.ok.inj hrest
    refine ⟨[(td, hex)], rfl, rfl, ?_, ?_⟩
    · rw [hcalls]
      exact .cons henc (.nil _)
    · intro td' htd'
      obtain rfl := Option.some.inj htd'
      rw [hdoc, hreplace]
      exact takeNode_outermost hatt hloc hex
  | @inner part td part' td' parts tds hpart hreplace hbelow _ ih =>
    have hatt := hinner td rfl
    obtain ⟨d, ds', rfl, hstep, hrest, hcalls, hdoc⟩ := encodeSteps_cons_ok h
    have hne : loc td ≠ [] := by
      obtain ⟨r, wr, hloc, -, -⟩ := hbelow
      simp [hloc]
    obtain ⟨hex, henc, hout⟩ := encodeStep_withData hdata hpart hatt hne hstep
    rw [hout, hreplace] at hstep hrest hcalls hdoc
    rw [takeNode_inner hatt hbelow] at hrest hcalls hdoc
    obtain rfl := Except.ok.inj hstep
    -- the next layer out starts from data with the hex of `td` in its wrapper
    have hnext : ∀ td₂ ∈ (td' :: tds).head?, Attached data loc (some (td, hex)) td₂ := by
      intro td₂ htd₂
      obtain rfl := Option.some.inj htd₂
      exact hbelow
    obtain ⟨hexes, hfst, hds, hlayers, hlast⟩ := ih hnext hrest
    refine ⟨(td, hex) :: hexes, ?_, ?_, ?_, ?_⟩
    · rw [List.map_cons, hfst]
    · rw [List.map_cons, hds]
    · rw [hcalls]
      exact .cons henc hlayers
    · intro td₂ htd₂
      rw [hdoc]
      exact hlast td₂ (by simpa [List.getLast?_cons_cons] using htd₂)

end Document

/-! ### From the document to the protocol -/

/-- The layers a type can be nested in. -/
def AsnType.enclosing : AsnType → List AsnType
  | .messageFrame => [.ieee1609Dot2Data, .advisorySituationData]
  | .ieee1609Dot2Data => [.advisorySituationData]
  | .advisorySituationData => []

/-- `td` is named by the entries. -/
def isNamed (entries : List (AsnType × TransferSyntax)) (td : AsnType) : Bool :=
  decide (td ∈ entries.map Prod.fst)

/-- A document that asks for the encoding of the layers its entries name, each
under its own rule: each layer element occurs once in data, at its protocol
path, and the wrapper of an inner layer contains nothing else. -/
structure LayeredInput (doc : Node) (entries : List (AsnType × TransferSyntax))
    (rule : AsnType → TransferSyntax) (p : Loc) (data : Node) (loc : AsnType → Loc) : Prop where
  encodings : ∃ n, select odeEncodingsQuery doc = some n ∧ List.Forall₂ IsEntry n.children entries
  nonempty : entries ≠ []
  rules : ∀ e ∈ entries, rule e.1 = e.2
  payload : locate odePayloadQuery doc = some p
  dataAt : doc.at? p = some data
  once : ∀ td, isNamed entries td = true → occurrences td.name data = [loc td]
  path : ∀ td, isNamed entries td = true →
    locate (layerPath (isNamed entries) td) data = some (loc td)
  wrapper : ∀ td, isNamed entries td = true → td.enclosing.any (isNamed entries) = true →
    ∃ wr, data.at? (loc td).dropLast = some wr ∧ wr.children = [deref data (loc td)]

/-- The part of a protocol for a layer. -/
def Requirements.partFor (r : Requirements) (td : AsnType) : Part :=
  ⟨td.op, r.rule td, layerPath r.requested td, td.enclosing.any r.requested⟩

theorem parts_eq_map (r : Requirements) : r.parts = (layersOf r.requested).map r.partFor := by
  obtain ⟨ops, d16, mf, asd, t16, tmf, tasd⟩ := r
  cases d16 <;> cases mf <;> cases asd <;> rfl

theorem mem_layersOf {requested : AsnType → Bool} {td : AsnType} :
    td ∈ layersOf requested ↔ requested td = true := by
  cases td <;> simp [layersOf]

theorem getLast?_layerPath (requested : AsnType → Bool) (td : AsnType) :
    (layerPath requested td).getLast? = some td.name := by
  cases td with
  | messageFrame =>
    rw [layerPath]
    split
    · simp [AsnType.name]
    · exact List.getLast?_concat
  | ieee1609Dot2Data => exact List.getLast?_concat
  | advisorySituationData => rfl

theorem layerPath_outermost {requested : AsnType → Bool} {td : AsnType}
    (h : td.enclosing.any requested = false) : layerPath requested td = [td.name] := by
  cases td with
  | advisorySituationData => rfl
  | _ => simp_all [AsnType.enclosing, layerPath, asdPath, AsnType.name]

/-- A layer found further down a path than the next one out stands below it. -/
theorem below_of_path {data : Node} {loc : AsnType → Loc} {td td' : AsnType}
    {path mid : List String} (hpath : locate (path ++ mid) data = some (loc td))
    (hmid : mid ≠ []) (hlast : path.getLast? = some td'.name)
    (honce : occurrences td'.name data = [loc td'])
    (hwrapper : ∃ wr, data.at? (loc td).dropLast = some wr ∧
      wr.children = [deref data (loc td)]) : Below data loc td td' := by
  -- the search passes an element of the outer name, and there is only one
  obtain ⟨q₁, q₂, m, hloc, -, hm, hq₂, hnamed⟩ := locate_append_some hpath
  have hmem := mem_occurrences hm (hnamed _ hlast)
  rw [honce] at hmem
  obtain rfl := List.mem_singleton.mp hmem
  obtain ⟨r, i, rfl⟩ := (List.eq_nil_or_concat q₂).resolve_left fun h => by
    subst h
    exact hmid (List.length_eq_zero_iff.mp (length_of_locate hq₂).symm)
  obtain ⟨wr, hwr, hchildren⟩ := hwrapper
  rw [List.concat_eq_append, ← List.append_assoc] at hloc
  rw [hloc, List.dropLast_concat] at hwr
  -- the layer is the only child of its wrapper
  obtain rfl : i = 0 := by
    obtain ⟨n, hn, -⟩ := at?_of_locate hpath
    rw [hloc, at?_append, hwr, Option.bind_some, at?_cons, hchildren] at hn
    rcases i with - | i
    · rfl
    · simp at hn
  exact ⟨r, wr, hloc, hwr, hchildren⟩

namespace LayeredInput

variable {doc data : Node} {entries : List (AsnType × TransferSyntax)}
  {rule : AsnType → TransferSyntax} {p : Loc} {loc : AsnType → Loc} {r : Requirements}

theorem isPart (h : LayeredInput doc entries rule p data loc)
    (hreq : r.requested = isNamed entries)
    (hrule : ∀ td, isNamed entries td = true → r.rule td = rule td) {td : AsnType}
    (htd : isNamed entries td = true) : IsPart data loc rule (r.partFor td) td := by
  have hpath := h.path td htd
  refine ⟨rfl, hrule td htd, ?_, ?_⟩
  · rw [Requirements.partFor, hreq, hpath]
  · obtain ⟨m, hm, hnamed⟩ := at?_of_locate hpath
    rw [deref, hm]
    exact hnamed _ (getLast?_layerPath ..)

/-- Without an enclosing layer, a layer is a child of data. -/
theorem nested_outermost (h : LayeredInput doc entries rule p data loc)
    (hreq : r.requested = isNamed entries)
    (hrule : ∀ td, isNamed entries td = true → r.rule td = rule td) {td : AsnType}
    (htd : isNamed entries td = true) (hnone : td.enclosing.any (isNamed entries) = false) :
    Nested data loc rule [r.partFor td] [td] := by
  have hfound := h.path td htd
  rw [layerPath_outermost hnone] at hfound
  obtain ⟨i, c, w, hloc, -, -, hw⟩ := locate_cons_some hfound
  obtain rfl := Option.some.inj hw
  refine .outermost (h.isPart hreq hrule htd) ?_ hloc
  rw [Requirements.partFor, hreq, hnone]

/-- A named layer stands below the named one that encloses it. -/
theorem nested_inner (h : LayeredInput doc entries rule p data loc)
    (hreq : r.requested = isNamed entries)
    (hrule : ∀ td, isNamed entries td = true → r.rule td = rule td) {td td' : AsnType}
    (htd : isNamed entries td = true) (htd' : isNamed entries td' = true)
    (henc : td' ∈ td.enclosing)
    (hpath : layerPath (isNamed entries) td =
      layerPath (isNamed entries) td' ++ (td'.wrapperPath ++ [td.name]))
    {parts : List Part} {tds : List AsnType}
    (hrest : Nested data loc rule (r.partFor td' :: parts) (td' :: tds)) :
    Nested data loc rule (r.partFor td :: r.partFor td' :: parts) (td :: td' :: tds) := by
  have hfound := h.path td htd
  rw [hpath] at hfound
  have hany : td.enclosing.any (isNamed entries) = true :=
    List.any_eq_true.mpr ⟨td', henc, htd'⟩
  have hbelow := below_of_path hfound (by simp) (getLast?_layerPath ..) (h.once td' htd')
    (h.wrapper td htd hany)
  refine .inner (h.isPart hreq hrule htd) ?_ hbelow hrest
  rw [Requirements.partFor, hreq, hany]

/-- **The protocol of such a document is nested.** -/
theorem nested (h : LayeredInput doc entries rule p data loc)
    (hreq : r.requested = isNamed entries)
    (hrule : ∀ td, isNamed entries td = true → r.rule td = rule td) :
    Nested data loc rule r.parts (layersOf (isNamed entries)) := by
  have houter := fun {td} htd => @nested_outermost _ _ _ _ _ _ _ h hreq hrule td htd
  have hinner := fun {td td'} htd htd' =>
    @nested_inner _ _ _ _ _ _ _ h hreq hrule td td' htd htd'
  rw [parts_eq_map, hreq]
  rcases hmf : isNamed entries .messageFrame with - | - <;>
    rcases h16 : isNamed entries .ieee1609Dot2Data with - | - <;>
    rcases hasd : isNamed entries .advisorySituationData with - | - <;>
    simp only [layersOf, List.filter, hmf, h16, hasd, List.map]
  · -- the entries name something
    obtain ⟨e, es, he⟩ := List.exists_cons_of_ne_nil h.nonempty
    have hnamed : isNamed entries e.1 = true := by simp [isNamed, he]
    rcases htd : e.1 with - | - | - <;> simp_all
  · exact houter hasd rfl
  · exact houter h16 (by simp [AsnType.enclosing, hasd])
  · refine hinner h16 hasd (by simp [AsnType.enclosing]) ?_ (houter hasd rfl)
    simp [layerPath, asdPath, AsnType.wrapperPath, AsnType.name, hasd]
  · exact houter hmf (by simp [AsnType.enclosing, h16, hasd])
  · refine hinner hmf hasd (by simp [AsnType.enclosing]) ?_ (houter hasd rfl)
    simp [layerPath, asdPath, AsnType.wrapperPath, AsnType.name, h16, hasd]
  · refine hinner hmf h16 (by simp [AsnType.enclosing]) ?_
      (houter h16 (by simp [AsnType.enclosing, hasd]))
    simp [layerPath, asdPath, AsnType.wrapperPath, AsnType.name, h16, hasd]
  · refine hinner hmf h16 (by simp [AsnType.enclosing]) ?_
      (hinner h16 hasd (by simp [AsnType.enclosing]) ?_ (houter hasd rfl))
    · simp [layerPath, asdPath, AsnType.wrapperPath, AsnType.name, h16, hasd]
    · simp [layerPath, asdPath, AsnType.wrapperPath, AsnType.name, hasd]

end LayeredInput

/-! ### What is done with data in the end -/

/-- Data without its `i`-th child and with one hex element for each layer. -/
def encodedData (data : Node) (i : ℕ) (hexes : List (AsnType × String)) : Node :=
  data.withChildren (data.children.eraseIdx i ++ hexes.map fun d => hexElement d.1.name d.2)

theorem appendHex_withData {doc D : Node} {p : Loc} {s : String} (hD : D.named s = true)
    (ds : List (String × String)) : appendHex p ds (withData p doc D) =
      withData p doc (D.withChildren (D.children ++ ds.map fun d => hexElement d.1 d.2)) := by
  induction ds generalizing D with
  | nil => simp [appendHex]
  | cons d ds ih =>
    let D' := D.appendChild (hexElement d.1 d.2)
    have hstep : mapAt (fun n => n.appendChild (hexElement d.1 d.2)) p (withData p doc D) =
        withData p doc D' := by
      rw [withData, mapAt_mapAt]
      rfl
    have hD' : D'.named s = true := (named_withChildren ..).trans hD
    have hchildren : D'.children = D.children ++ [hexElement d.1 d.2] :=
      children_withChildren_of_named hD _
    have hrest := ih hD'
    rw [appendHex, List.foldl_cons, hstep]
    refine hrest.trans ?_
    rw [hchildren, List.append_assoc]
    exact congrArg _ (withChildren_withChildren ..)

/-- The removal of a child, and the text put in its place if asked for. -/
def takeChild (i : ℕ) (replace : Bool) (hexStr : String) (n : Node) : Node :=
  if replace then setText hexStr (eraseChild i n) else eraseChild i n

theorem named_takeChild (s : String) (i : ℕ) (replace : Bool) (hex : String) (n : Node) :
    (takeChild i replace hex n).named s = n.named s := by
  rcases replace with - | -
  · exact named_withChildren ..
  · exact (named_setText ..).trans (named_withChildren ..)

theorem takeNode_eq (w : Loc) (i : ℕ) (replace : Bool) (hex : String) (doc : Node) :
    takeNode (w ++ [i]) replace hex doc = mapAt (takeChild i replace hex) w doc := by
  rcases replace with - | -
  · rw [takeNode, if_neg (by simp), eraseAt_append]
    rfl
  · rw [takeNode, if_pos rfl, eraseAt_append, List.dropLast_concat, mapAt_mapAt]
    rfl

/-- Where a step succeeds, its element has been encoded, and is gone. -/
theorem encodeStep_ok {E : Externals V} {p : Loc} {part : Part} {doc : Node}
    {d : String × String} (h : (encodeStep E p part doc).result = .ok d) :
    ∃ data q n, doc.at? p = some data ∧ locate part.nodePath data = some q ∧
      data.at? q = some n ∧ d.1 = n.name ∧
      frameHex E part.op part.decodeType n.print = .ok d.2 ∧
      (encodeStep E p part doc).calls = [⟨part.op, part.decodeType, n.print⟩] ∧
      (encodeStep E p part doc).doc = takeNode (p ++ q) part.replace d.2 doc := by
  rcases hq : (doc.at? p).bind (locate part.nodePath) with - | q
  · exact absurd h (by simp [encodeStep, hq, Outcome.fail])
  obtain ⟨data, hdata, hfound⟩ := Option.bind_eq_some_iff.mp hq
  obtain ⟨n, hn, -⟩ := at?_of_locate hfound
  have hderef : deref doc (p ++ q) = n := by
    rw [deref, at?_append, hdata, Option.bind_some, hn]
    rfl
  refine ⟨data, q, n, hdata, hfound, hn, ?_⟩
  simp only [encodeStep, hq, hderef] at h ⊢
  split at h
  · exact absurd h (by simp [Outcome.fail])
  · rename_i hne
    rw [if_neg hne]
    split at h
    · exact absurd h (by simp)
    · rename_i hexStr hhex
      obtain rfl := Except.ok.inj h
      simp only [hhex, and_self]

theorem encodeStep_calls (E : Externals V) (p : Loc) (part : Part) (doc : Node) :
    ∀ call ∈ (encodeStep E p part doc).calls, call.op = part.op := by
  rw [encodeStep]
  split
  · simp [Outcome.fail]
  · split
    · simp [Outcome.fail]
    · simp only
      split <;> simp

/-- The calls of the steps are for the operations of the protocol. -/
theorem encodeSteps_calls (E : Externals V) (p : Loc) (parts : List Part) (doc : Node) :
    ∀ call ∈ (encodeSteps E p parts doc).calls, ∃ part ∈ parts, call.op = part.op := by
  induction parts generalizing doc with
  | nil => simp [encodeSteps, Outcome.done]
  | cons part parts ih =>
    apply Outcome.forall_calls_andThen
    · intro call hcall
      exact ⟨part, by simp, encodeStep_calls E p part doc call hcall⟩
    · intro doc d
      apply Outcome.forall_calls_andThen
      · intro call hcall
        obtain ⟨part', hpart', hop⟩ := ih doc call hcall
        exact ⟨part', by simp [hpart'], hop⟩
      · simp [Outcome.done]

/-- No encoder is ever called for anything but a single layer. -/
theorem encodeOutcome_calls (E : Externals V) (r : Requirements) (p : Loc) (doc : Node) :
    ∀ call ∈ (encodeOutcome E r p doc).calls, IsLayer call.op := by
  rw [encodeOutcome]
  split
  · simp [Outcome.fail]
  · rename_i parts hparts
    apply Outcome.forall_calls_andThen
    · intro call hcall
      obtain ⟨part, hpart, hop⟩ := encodeSteps_calls E p parts doc call hcall
      rw [hop]
      exact isLayer_of_protocolFor hparts part hpart
    · intro doc data
      apply Outcome.forall_calls_andThen
      · rw [dataTypeOutcome]
        split <;> simp [Outcome.fail, Outcome.done]
      · simp

/-- In encode mode, so is every call a message leads to. -/
theorem convert_encode_calls (E : Externals V) (payload : String) :
    ∀ call ∈ (convert E false payload).calls, IsLayer call.op := by
  rw [convert]
  split
  · simp [Outcome.fail]
  · rw [convertDoc]
    split
    · simp [Outcome.fail]
    · split
      · simp [Outcome.fail]
      · simpa using encodeOutcome_calls E _ _ _

/-- The encoding of a document in the shape of `LayeredInput`, as a function. -/
theorem encodeOutcome_layered {E : Externals V} {r : Requirements} {doc data : Node}
    {entries : List (AsnType × TransferSyntax)} {rule : AsnType → TransferSyntax} {p : Loc}
    {loc : AsnType → Loc} (h : LayeredInput doc entries rule p data loc) (hagree : r.Agree)
    (hreq : r.requested = isNamed entries)
    (hrule : ∀ td, isNamed entries td = true → r.rule td = rule td) {b : Bool}
    (hok : (encodeOutcome E r p doc).result = .ok b) :
    ∃ hexes outer i, hexes.map Prod.fst = layersOf (isNamed entries) ∧
      (layersOf (isNamed entries)).getLast? = some outer ∧ loc outer = [i] ∧
      EncodesLayers E data loc rule none hexes (encodeOutcome E r p doc).calls ∧
      (encodeOutcome E r p doc).doc =
        mapAt (mapChild "dataType" (setText (asn1datatypes .hex))) p.dropLast
          (mapAt (fun _ => encodedData data i hexes) p doc) ∧
      ∃ n, (encodeOutcome E r p doc).doc.at? p.dropLast = some n ∧
        n.childText? "dataType" = some (asn1datatypes .hex) := by
  have hnested := h.nested hreq hrule
  obtain ⟨outer, i, houter, hloc⟩ := hnested.getLast?
  have hself : doc = withData p doc (innerData data loc none) :=
    (mapAt_eq_self h.dataAt rfl).symm
  obtain ⟨-, ds, hds, hcalls, hdoc, hread⟩ := encodeOutcome_ok hagree hok
  rw [hcalls]
  rw [hself] at hds
  have hnone : ∀ td ∈ (layersOf (isNamed entries)).head?, Attached data loc none td :=
    fun _ _ => trivial
  obtain ⟨hexes, hfst, rfl, hlayers, hlast⟩ := encodeSteps_nested h.dataAt hnested hnone hds
  rw [← hself] at hlayers hlast
  -- data is an element, since a path query found it
  have hdata : data.named "data" = true := named_of_locate h.payload h.dataAt rfl
  have herase : eraseAt (loc outer) data = data.withChildren (data.children.eraseIdx i) := by
    rw [hloc]
    rfl
  have hend : appendHex p (hexes.map fun d => (d.1.name, d.2)) (encodeSteps E p r.parts doc).doc =
      mapAt (fun _ => encodedData data i hexes) p doc := by
    rw [hlast outer houter, herase, appendHex_withData ((named_withChildren ..).trans hdata),
      children_withChildren_of_named hdata, withChildren_withChildren, List.map_map]
    rfl
  refine ⟨hexes, outer, i, hfst, houter, hloc, hlayers, ?_, hread⟩
  rw [hdoc, hend]

/-- The requirements of such a document. -/
theorem LayeredInput.requirements {doc data : Node}
    {entries : List (AsnType × TransferSyntax)} {rule : AsnType → TransferSyntax} {p : Loc}
    {loc : AsnType → Loc} (h : LayeredInput doc entries rule p data loc) :
    ∃ r, codecRequirements doc = .ok r ∧ r.Agree ∧ r.requested = isNamed entries ∧
      ∀ td, isNamed entries td = true → r.rule td = rule td := by
  obtain ⟨encodings, hq, hentries⟩ := h.encodings
  let fresh := Requirements.constructed
  refine ⟨fresh.reset.requestAll entries, ?_, agree_requestAll (agree_reset fresh) entries, ?_, ?_⟩
  · exact codecRequirements_ok.mpr (requirementsFor_entries hq hentries h.nonempty fresh)
  · funext td
    have hiff := requested_requestAll fresh.reset entries td
    rw [requested_reset] at hiff
    rw [Bool.eq_iff_iff, hiff]
    simp [isNamed]
  · intro td htd
    exact rule_requestAll fresh.reset h.rules (of_decide_eq_true htd)

/-- **Layered encoding**: in encode mode, a message in the shape of
`LayeredInput` that is processed without an exception has each layer encoded
with the layers in it replaced by their hex; data has lost the outermost
element and gained one hex element for each layer, inner to outer; the data type
is that of hex; and nothing else in the document has changed.  For any message
whatsoever, the encoder is called for single layers only. -/
theorem encode_layered (E : Externals V) {m : Message} {c : Codec} (hm : m.err = .noError)
    (hmode : c.decodeFunctionality = false) :
    (∃ calls, (finalState ((processMessage E m).run c)).calls = c.calls ++ calls ∧
      ∀ call ∈ calls, IsLayer call.op) ∧
    ∀ doc entries rule p data loc c' b, E.loadBuffer xmlParseOptions m.payload = (none, doc) →
      LayeredInput doc entries rule p data loc → (processMessage E m).run c = .ok b c' →
      ∃ hexes calls outer i, hexes.map Prod.fst = layersOf (isNamed entries) ∧
        (layersOf (isNamed entries)).getLast? = some outer ∧ loc outer = [i] ∧
        c'.calls = c.calls ++ calls ∧ EncodesLayers E data loc rule none hexes calls ∧
        c'.inputDoc = mapAt (mapChild "dataType" (setText (asn1datatypes .hex))) p.dropLast
          (mapAt (fun _ => encodedData data i hexes) p doc) ∧
        (∃ n, c'.inputDoc.at? p.dropLast = some n ∧
          n.childText? "dataType" = some (asn1datatypes .hex)) ∧
        c'.outputMessageStream = c.outputMessageStream ++ save c'.inputDoc := by
  obtain ⟨-, hlast⟩ := processMessage_tells E hm c
  rw [hmode] at hlast
  refine ⟨⟨(convert E false m.payload).calls, congrArg Codec.calls hlast,
    convert_encode_calls E m.payload⟩, ?_⟩
  intro doc entries rule p data loc c' b hload h hok
  obtain ⟨hres, hinput, hcalls, hstream⟩ := converted_of_ok hm hok
  rw [hmode] at hres hinput hcalls hstream
  obtain ⟨r, hr, hagree, hreq, hrule⟩ := h.requirements
  have hdoc : convert E false m.payload = encodeOutcome E r p doc :=
    convert_eq hload hr h.payload false
  have hwritten := (saves_convert E false m.payload).written
  rw [hdoc] at hres hinput hcalls hstream hwritten
  rw [hres] at hwritten
  obtain ⟨hexes, outer, i, hfst, houter, hloc, hlayers, hend, hdt⟩ :=
    encodeOutcome_layered h hagree hreq hrule hres
  refine ⟨hexes, _, outer, i, hfst, houter, hloc, hcalls, hlayers, ?_, ?_, ?_⟩
  · rw [hinput, hend]
  · rw [hinput]
    exact hdt
  · rw [hinput, hstream, hwritten]

/-! ### A message of three layers -/

/-- An advisory message around a signed message around a MessageFrame. -/
def threeLayers : Node :=
  .element "data" [] [.element "AdvisorySituationData" [] [.element "asdmDetails" []
    [.element "advisoryMessage" [] [.element "Ieee1609Dot2Data" [] [.element "content" []
      [.element "unsecuredData" [] [.element "MessageFrame" [] []]]]]]]]

def threeLoc : AsnType → Loc
  | .advisorySituationData => [0]
  | .ieee1609Dot2Data => [0, 0, 0, 0]
  | .messageFrame => [0, 0, 0, 0, 0, 0, 0]

def threeRule : AsnType → TransferSyntax
  | .ieee1609Dot2Data => .canonicalOer
  | _ => .unalignedBasicPer

/-- The document that asks for the encoding of the three layers. -/
def threeDoc : Node :=
  encodingDoc [("AdvisorySituationData", "UPER"), ("Ieee1609Dot2Data", "COER"),
    ("MessageFrame", "UPER")] threeLayers

theorem layeredInput_threeDoc : LayeredInput threeDoc
    ([.advisorySituationData, .ieee1609Dot2Data, .messageFrame].map fun td => (td, threeRule td))
    threeRule [0, 1, 1] threeLayers threeLoc where
  encodings :=
    ⟨_, rfl, .cons ⟨rfl, ⟨_, rfl, rfl⟩, by decide⟩ (.cons ⟨rfl, ⟨_, rfl, rfl⟩, by decide⟩
      (.cons ⟨rfl, ⟨_, rfl, rfl⟩, by decide⟩ .nil))⟩
  nonempty := by simp
  rules := by decide
  payload := by decide
  dataAt := rfl
  once := by
    intro td _
    cases td <;> decide
  path := by
    intro td _
    cases td <;> decide
  wrapper := by
    intro td _ henc
    cases td with
    | advisorySituationData => exact absurd henc (by decide)
    | _ => exact ⟨_, rfl, rfl⟩

/-- Libraries that encode each type to one byte, and read the message of one
document. -/
def oneByte (doc : Node) : Externals Unit :=
  Externals.reading
    { emptyHanded with
      xerDecode := fun _ xml => .ok () xml.length
      asnEncode := fun _ td _ => .ok [match td with
        | .messageFrame => 1
        | .ieee1609Dot2Data => 2
        | .advisorySituationData => 3] }
    doc

theorem load_oneByte (doc : Node) :
    (oneByte doc).loadBuffer xmlParseOptions (messageOf doc).payload = (none, doc) :=
  load_reading _ doc

/-- The codec as it is configured to encode. -/
def encodingCodec : Codec := { configuredCodec with decodeFunctionality := false }

/-- The three layers of that document are encoded one after the other. -/
theorem encode_layered_threeDoc : ∃ c' hexes calls,
    (processMessage (oneByte threeDoc) (messageOf threeDoc)).run encodingCodec = .ok true c' ∧
      hexes.map Prod.fst = [.messageFrame, .ieee1609Dot2Data, .advisorySituationData] ∧
      c'.calls = calls ∧
      EncodesLayers (oneByte threeDoc) threeLayers threeLoc threeRule none hexes calls := by
  have hconv : (convert (oneByte threeDoc) encodingCodec.decodeFunctionality
      (messageOf threeDoc).payload).result = .ok true := by
    decide +kernel
  obtain ⟨c', hc'⟩ :=
    @processMessage_ok Unit (oneByte threeDoc) (messageOf threeDoc) rfl _ _ hconv
  obtain ⟨hexes, calls, outer, i, hfst, -, -, hcalls, hlayers, -⟩ :=
    (encode_layered (oneByte threeDoc) (m := messageOf threeDoc) rfl rfl).2 threeDoc _ threeRule
      [0, 1, 1] threeLayers threeLoc c' true (load_oneByte threeDoc) layeredInput_threeDoc hc'
  exact ⟨c', hexes, calls, hc', hfst, hcalls, hlayers⟩

end Asn1Codec
