/-
Asn1Codec/Edited.lean

What a codec does to a document, as a relation, and what follows for the reader
of its record.

The decoder reads data/bytes, and neither mode leaves such a child in what it
publishes: the decoder removes it before anything else, the encoder puts the
hex one level deeper, under the name of the layer, and the reports remove it or
are made in a template without it.  A document is `Spent` when its data has no
bytes child.  Every edit of both modes retains this, and so does a trip through
text (`spent_recordDoc`); and a spent document is not decoded
(`recordDoc_of_spent`).

What the modes edit is written down once (`Edited`): data, what is in it, and
the data type.  The reports add three texts of metadata.  All that is apart from
these places is published as it was received (`select_recordDoc`).
-/
import Asn1Codec.Atomicity
import Asn1Codec.Payload
import Asn1Codec.Xml.Descend
import Asn1Codec.Xml.Frame
import Asn1Codec.Xml.Idempotent
import Asn1Codec.Xml.Retain

namespace Asn1Codec

open Xml (Apart Node Loc)
open Xml.Node

variable {V : Type}

/-! ### Spent documents -/

def NoBytes (n : Node) : Prop := n.child "bytes" = none

/-- There is nothing to decode in data. -/
def Spent (doc : Node) : Prop := Along NoBytes odePayloadQuery doc

/-- The error report retains it. -/
theorem noBytes_annotateData (a : ErrorNote) {n : Node} (h : NoBytes n) :
    NoBytes (annotateData a n) := by
  simp only [NoBytes, annotateData]
  rw [child_mapChild_of_ne (by decide) _ fun m => named_setText ..,
    child_mapChild_of_ne (by decide) _ fun m => named_setText ..,
    child_ensureChild_of_ne (by decide), child_ensureChild_of_ne (by decide),
    removeChild_of_child_eq_none h]
  exact h

theorem retains_annotateOde (a : ErrorNote) :
    Retains NoBytes ["payload", "data"] (annotateOde a) := by
  have hdata : Retains NoBytes [] (annotateData a) :=
    .nil (fun s n => named_annotateData s a n) fun n => noBytes_annotateData a
  have hpayload : Retains NoBytes ["data"] (annotatePayload a) :=
    .comp (.mapChild_of_ne (fun s n => named_setText ..) (by decide)) (hdata.mapChild "data")
  exact .comp (.mapChild_of_ne (fun s n => named_annotateMetadata s a n) (by decide))
    (hpayload.mapChild "payload")

theorem spent_annotate (a : ErrorNote) {doc : Node} (h : Spent doc) : Spent (annotate a doc) := by
  rw [annotate]
  split
  · exact ((retains_annotateOde a).mapChild "OdeAsn1Data").along doc h
  · exact h

theorem spent_reload {doc : Node} (h : Spent doc) : Spent (reload xmlParseOptions doc) := by
  refine (retains_reload (fun n hn => ?_) odePayloadQuery).along doc h
  rw [NoBytes, child_reload, hn]
  rfl

/-- **A spent document is not decoded**: the library is not called, and what is
thrown is reported in the template. -/
theorem convert_spent {E : Externals V} {payload : String} {doc : Node}
    (hload : E.loadBuffer xmlParseOptions payload = (none, doc)) (h : Spent doc) :
    ∃ e, (convert E true payload).result = .error e ∧ (∀ what, e ≠ .asn1Codec what) ∧
      (convert E true payload).calls = [] := by
  simp only [convert, hload, convertDoc]
  rcases hr : codecRequirements doc with e | r
  · obtain ⟨what, rfl⟩ := codecRequirements_error hr
    exact ⟨_, rfl, by simp, rfl⟩
  rcases hp : locate odePayloadQuery doc with - | p
  · exact ⟨_, rfl, by simp, rfl⟩
  have hnone : ((doc.at? p).bind fun n => n.childText? "bytes") = none := by
    rcases hd : doc.at? p with - | d
    · rfl
    · have hbytes : NoBytes d := h d (by rw [select, hp, Option.bind_some, hd])
      rw [Option.bind_some, childText?, hbytes]
      rfl
  simp only [if_true, decodeOutcome, hnone]
  split
  · exact ⟨_, rfl, by simp, rfl⟩
  · exact ⟨_, rfl, by simp, rfl⟩

/-! ### What the conversions edit -/

/-- A sequence of edits of data, of what is in it, and of the data type.  None of
them gives data a bytes child. -/
inductive Edited (p : Loc) (doc : Node) : Node → Prop
  | refl : Edited p doc doc
  | data {doc'} {f : Node → Node} (h : Edited p doc doc')
      (hnamed : ∀ s n, (f n).named s = n.named s) (hbytes : ∀ n, NoBytes n → NoBytes (f n))
      (r : Loc) : Edited p doc (mapAt f (p ++ r) doc')
  | dataType {doc'} (h : Edited p doc doc') (v : String) :
      Edited p doc (mapAt (mapChild "dataType" (setText v)) p.dropLast doc')

/-- Data is at `p` and has no bytes child. -/
structure SpentAt (p : Loc) (doc : Node) : Prop where
  located : locate odePayloadQuery doc = some p
  noBytes : ∀ d, doc.at? p = some d → NoBytes d

theorem SpentAt.spent {p : Loc} {doc : Node} (h : SpentAt p doc) : Spent doc := by
  intro d hd
  rw [select, h.located, Option.bind_some] at hd
  exact h.noBytes d hd

namespace Edited

variable {p : Loc} {doc doc' : Node} {f : Node → Node}

/-- An edit of data itself. -/
theorem whole (h : Edited p doc doc') (hnamed : ∀ s n, (f n).named s = n.named s)
    (hbytes : ∀ n, NoBytes n → NoBytes (f n)) : Edited p doc (mapAt f p doc') := by
  have hdata := h.data hnamed hbytes []
  rwa [List.append_nil] at hdata

theorem trans {doc'' : Node} (h : Edited p doc doc') (h' : Edited p doc' doc'') :
    Edited p doc doc'' := by
  induction h' with
  | refl => exact h
  | data _ hnamed hbytes r ih => exact ih.data hnamed hbytes r
  | dataType _ v ih => exact ih.dataType v

theorem located (h : Edited p doc doc') (hp : locate odePayloadQuery doc = some p) :
    locate odePayloadQuery doc' = some p := by
  induction h with
  | refl => exact hp
  | data _ hnamed _ r ih => exact locate_mapAt_below hnamed ih r
  | dataType _ v ih => exact (step_dataType ih v).1

/-- A spent document stays spent. -/
theorem spentAt (h : Edited p doc doc') (hs : SpentAt p doc) : SpentAt p doc' := by
  refine ⟨h.located hs.located, ?_⟩
  induction h with
  | refl => exact hs.noBytes
  | @data doc' f h hnamed hbytes r ih =>
    intro d hd
    rw [at?_mapAt_above, Option.map_eq_some_iff] at hd
    obtain ⟨m, hm, rfl⟩ := hd
    have hnone := ih m hm
    cases r with
    | nil => exact hbytes m hnone
    | cons i r =>
      -- the children of data keep their names
      have hfun : Node.mapAt f (i :: r) m = Node.mapAt (Node.mapAt f r) [i] m :=
        mapAt_append f [i] r m
      have hsome := isSome_child_mapAt (fun s n => named_mapAt hnamed s r n) "bytes" i m
      rw [hnone] at hsome
      rw [NoBytes, hfun]
      simpa using hsome
  | dataType h v ih =>
    intro d hd
    rw [(step_dataType (h.located hs.located) v).2] at hd
    exact ih d hd

/-- First children lead as far as before. -/
theorem isSome_descend (h : Edited p doc doc') (hp : locate odePayloadQuery doc = some p)
    {path : List String} (hpath : path.length ≤ odePayloadQuery.length) :
    (doc'.descend path).isSome = (doc.descend path).isSome := by
  induction h with
  | refl => rfl
  | data h hnamed _ r ih =>
    have hlen : path.length ≤ (p ++ r).length := by
      rw [List.length_append, length_of_locate hp]
      exact Nat.le_trans hpath (Nat.le_add_right ..)
    rw [isSome_descend_mapAt hnamed hlen, ih]
  | dataType h v ih =>
    have hp' := h.located hp
    rcases dataType_eq hp' v with heq | ⟨i, heq⟩
    · rw [heq, ih]
    · rw [heq, isSome_descend_mapAt (fun s n => named_setText ..)
        (hpath.trans (length_dropLast hp' i).ge), ih]

/-- The data type and data are apart from the rest. -/
theorem select_eq (h : Edited p doc doc') (hp : locate odePayloadQuery doc = some p)
    {path : List String} (htype : Apart (payloadPath ++ ["dataType"]) path)
    (hdata : Apart dataPath path) : select path doc' = select path doc := by
  induction h with
  | refl => rfl
  | @data doc' f h hnamed _ r ih =>
    have hleads := leads_of_locate (h.located hp)
    have hedits : Edits [[]] (Node.mapAt f r) := .whole fun s n => named_mapAt hnamed s r n
    have hapart : ∀ e ∈ [[]], Apart (odePayloadQuery ++ e) path :=
      List.forall_mem_singleton.mpr hdata
    rw [mapAt_append, ← ih]
    exact select_mapAt_apart hedits (by simp) hleads hapart
  | @dataType doc' h v ih =>
    have hleads := (leads_of_locate (h.located hp)).dropLast
    have hedits : Edits [["dataType"]] (Node.mapChild "dataType" (setText v)) :=
      (Edits.whole fun s n => named_setText ..).mapChild (by simp) "dataType"
    have hapart : ∀ e ∈ [["dataType"]], Apart (odePayloadQuery.dropLast ++ e) path :=
      List.forall_mem_singleton.mpr htype
    rw [← ih]
    exact select_mapAt_apart hedits (by simp) hleads hapart

end Edited

/-- A property of the document that both stages keep. -/
theorem Outcome.doc_andThen {α β : Type} {P : Node → Prop} {o : Outcome α}
    {f : Node → α → Outcome β} (ho : P o.doc) (hf : ∀ a, o.result = .ok a → P (f o.doc a).doc) :
    P (o.andThen f).doc := by
  rw [Outcome.andThen]
  split
  · exact hf _ ‹_›
  · exact ho

theorem noBytes_setText (v : String) {n : Node} (h : NoBytes n) : NoBytes (setText v n) :=
  (child_setText v "bytes" n).trans h

theorem noBytes_appendChild {n c : Node} (h : NoBytes n) (hc : c.named "bytes" = false) :
    NoBytes (n.appendChild c) := by
  have hnone : n.children.find? (named "bytes") = none := h
  have happend : (n.children ++ [c]).find? (named "bytes") = none := by
    rw [List.find?_append, hnone, List.find?_cons_of_neg (by simp [hc])]
    rfl
  cases n with
  | document cs => exact happend
  | element s as cs => exact happend
  | _ => rfl

theorem noBytes_eraseChild (i : ℕ) {n : Node} (h : NoBytes n) : NoBytes (eraseChild i n) := by
  have hnone : n.children.find? (named "bytes") = none := h
  rw [List.find?_eq_none] at hnone
  have herase : (n.children.eraseIdx i).find? (named "bytes") = none :=
    List.find?_eq_none.mpr fun m hm => hnone m (List.mem_of_mem_eraseIdx hm)
  cases n with
  | document cs => exact herase
  | element s as cs => exact herase
  | _ => rfl

theorem noBytes_removeChild {n : Node} (h : NoBytes n) : NoBytes (removeChild "bytes" n) := by
  rw [removeChild_of_child_eq_none h]
  exact h

section Convert

variable {E : Externals V} {p : Loc} {doc doc' : Node}

theorem edited_dataTypeOutcome (h : Edited p doc doc') (dt : Asn1DataType) (what : String) :
    Edited p doc (dataTypeOutcome p dt what doc').doc := by
  rw [dataTypeOutcome]
  split
  · exact h
  · exact h.dataType _

/-! The decoder. -/

/-- The MessageFrame stage appends an element of another name. -/
theorem edited_insertOutcome (hxer : XerNamed E) (ats : TransferSyntax) (h : Edited p doc doc')
    (hstr : String) : Edited p doc (insertOutcome E ats p hstr doc').doc := by
  have hblank : Edited p doc (mapAt (setText "") p doc') :=
    h.whole (fun s n => named_setText s "" n) fun n => noBytes_setText ""
  rcases hx : decodeHexData E "MessageFrame" .messageFrame ats hstr with e | xb
  · simpa [insertOutcome, hx] using h
  rcases hl : E.loadBuffer Xml.parseDefault xb with ⟨- | e, x⟩
  · obtain ⟨bytes, v, consumed, -, -, -, henc⟩ := decodeHexData_ok hx
    obtain ⟨t, ht, hname⟩ := hxer _ v xb x henc hl
    -- the element goes by the name of its type
    have htbytes : t.named "bytes" = false := by
      rcases hb : t.named "bytes" with - | -
      · rfl
      · rw [name_of_named hb] at hname
        exact absurd hname (by decide)
    have happended : Edited p doc
        (mapAt (appendCopy (some t)) p (mapAt (setText "") p doc')) :=
      hblank.whole (fun s n => named_appendChild s n t) fun n hn => noBytes_appendChild hn htbytes
    simp only [insertOutcome, hx, hl, ht]
    apply Outcome.doc_andThen
    · exact happended
    · exact fun _ _ => edited_dataTypeOutcome happended _ _
  · simpa [insertOutcome, hx, hl] using hblank

/-- The decoder removes the bytes first, unless it stops before it starts. -/
theorem edited_decodeOutcome (hxer : XerNamed E) (r : Requirements)
    (h : ∀ what, (decodeOutcome E r p doc).result ≠ .error (.missingInputElement what)) :
    Edited p (mapAt (removeChild "bytes") p doc) (decodeOutcome E r p doc).doc := by
  unfold decodeOutcome at h ⊢
  split
  · rw [if_pos ‹_›] at h
    exact absurd rfl (h _)
  rw [if_neg ‹_›] at h
  split
  · rename_i hnone
    rw [hnone] at h
    exact absurd rfl (h _)
  let removed := mapAt (removeChild "bytes") p doc
  have hfirst (text : String) : Edited p removed (if r.decode1609dot2 then
      unwrapOutcome E r.decode1609dot2Type text removed else .done removed text).doc := by
    split
    · exact .refl
    · exact .refl
  have hsecond {doc' : Node} (h' : Edited p removed doc') (hstr : String) :
      Edited p removed (if r.decodeMessageframe then
        insertOutcome E r.decodeMessageframeType p hstr doc' else .done doc' ()).doc := by
    split
    · exact edited_insertOutcome hxer _ h' hstr
    · exact h'
  apply Outcome.doc_andThen
  · exact hfirst _
  · intro hstr _
    apply Outcome.doc_andThen
    · exact hsecond (hfirst _) hstr
    · exact fun _ _ => hsecond (hfirst _) hstr

/-! The encoder. -/

/-- A node is removed below data, and perhaps a text set in its parent. -/
theorem edited_takeNode (h : Edited p doc doc') {q : Loc} (hq : q ≠ []) (replace : Bool)
    (hex : String) : Edited p doc (takeNode (p ++ q) replace hex doc') := by
  obtain ⟨r, i, rfl⟩ := (List.eq_nil_or_concat q).resolve_left hq
  rw [List.concat_eq_append, ← List.append_assoc, takeNode_eq]
  refine h.data (fun s n => named_takeChild ..) (fun n hn => ?_) r
  cases replace with
  | false => exact noBytes_eraseChild i hn
  | true => exact noBytes_setText hex (noBytes_eraseChild i hn)

theorem ne_nil_of_leadsTo {part : Part} {td : AsnType} (hpath : LeadsTo part.nodePath td)
    {data : Node} {q : Loc} (hq : locate part.nodePath data = some q) : q ≠ [] := by
  obtain ⟨path, hname, -⟩ := hpath
  rintro rfl
  have hlen := length_of_locate hq
  simp [hname] at hlen

/-- A step, however it ends. -/
theorem edited_encodeStep {part : Part} {td : AsnType} (hpath : LeadsTo part.nodePath td)
    (h : Edited p doc doc') :
    Edited p doc (encodeStep E p part doc').doc ∧
      ∀ d, (encodeStep E p part doc').result = .ok d → d.1 = td.name := by
  rcases hq : (doc'.at? p).bind (locate part.nodePath) with - | q
  · simpa [encodeStep, hq, Outcome.fail] using h
  obtain ⟨data, hdata, hfound⟩ := Option.bind_eq_some_iff.mp hq
  have hne := ne_nil_of_leadsTo hpath hfound
  have happend : p ++ q ≠ [] := by simp [hne]
  have hname : (deref doc' (p ++ q)).name = td.name := by
    obtain ⟨path, hpath, -⟩ := hpath
    obtain ⟨m, hm, hnamed⟩ := at?_of_locate hfound
    have hnode : doc'.at? (p ++ q) = some m := by rw [at?_append, hdata, Option.bind_some, hm]
    rw [deref, hnode]
    exact name_of_named (hnamed td.name (by simp [hpath]))
  simp only [encodeStep, hq, if_neg happend]
  split
  · have htaken := edited_takeNode h hne false ""
    rw [takeNode, if_neg (by simp)] at htaken
    exact ⟨htaken, by simp⟩
  · refine ⟨edited_takeNode h hne part.replace _, fun d hd => ?_⟩
    obtain rfl := Except.ok.inj hd
    exact hname

/-- The steps of a protocol. -/
theorem edited_encodeSteps {parts : List Part}
    (hparts : ∀ part ∈ parts, ∃ td, LeadsTo part.nodePath td) (h : Edited p doc doc') :
    Edited p doc (encodeSteps E p parts doc').doc ∧
      ∀ ds, (encodeSteps E p parts doc').result = .ok ds →
        ∀ d ∈ ds, ∃ td : AsnType, d.1 = td.name := by
  induction parts generalizing doc' with
  | nil =>
    refine ⟨h, fun ds hds => ?_⟩
    obtain rfl := Except.ok.inj hds
    simp
  | cons part parts ih =>
    obtain ⟨td, hpath⟩ := hparts part List.mem_cons_self
    obtain ⟨hstep, hname⟩ := @edited_encodeStep _ E p doc doc' part td hpath h
    obtain ⟨hrest, hnames⟩ :=
      ih (fun part' hpart => hparts part' (List.mem_cons_of_mem _ hpart)) hstep
    constructor
    · apply Outcome.doc_andThen
      · exact hstep
      · intro d _
        apply Outcome.doc_andThen
        · exact hrest
        · exact fun _ _ => hrest
    · intro ds hds
      obtain ⟨d, ds', rfl, hd, hds', -⟩ := encodeSteps_cons_ok hds
      intro d' hd'
      rcases List.mem_cons.mp hd' with rfl | hd'
      · exact ⟨td, hname _ hd⟩
      · exact hnames ds' hds' d' hd'

/-- The hex elements are named after layers. -/
theorem edited_appendHex {ds : List (String × String)}
    (hds : ∀ d ∈ ds, ∃ td : AsnType, d.1 = td.name) (h : Edited p doc doc') :
    Edited p doc (appendHex p ds doc') := by
  induction ds generalizing doc' with
  | nil => exact h
  | cons d ds ih =>
    obtain ⟨td, htd⟩ := hds d List.mem_cons_self
    have hname : (hexElement d.1 d.2).named "bytes" = false := by
      rw [htd]
      cases td <;> rfl
    have hedit := h.whole (fun s n => named_appendChild s n (hexElement d.1 d.2))
      fun n hn => noBytes_appendChild hn hname
    exact ih (fun d' hd' => hds d' (List.mem_cons_of_mem d hd')) hedit

/-- The encoder, however it ends. -/
theorem edited_encodeOutcome {r : Requirements} (hagree : r.Agree) :
    Edited p doc (encodeOutcome E r p doc).doc := by
  have hparts : ∀ part ∈ r.parts, ∃ td, LeadsTo part.nodePath td := by
    rw [parts_eq_map]
    intro part hpart
    obtain ⟨td, -, rfl⟩ := List.mem_map.mp hpart
    exact ⟨td, leadsTo_layerPath r.requested td⟩
  by_cases hnil : r.parts = []
  · simpa [encodeOutcome, protocolFor_eq hagree, hnil, Outcome.fail] using Edited.refl
  obtain ⟨hsteps, hnames⟩ := @edited_encodeSteps _ E p doc doc r.parts hparts .refl
  simp only [encodeOutcome, protocolFor_eq hagree, if_neg hnil]
  apply Outcome.doc_andThen
  · exact hsteps
  · intro ds hds
    have happended := edited_appendHex (hnames ds hds) hsteps
    apply Outcome.doc_andThen
    · exact edited_dataTypeOutcome happended _ _
    · exact fun _ _ => edited_dataTypeOutcome happended _ _

/-- The removal of the bytes, and what comes after it. -/
theorem edited_received {decode : Bool}
    (h : Edited p (if decode then mapAt (removeChild "bytes") p doc else doc) doc') :
    Edited p doc doc' := by
  cases decode with
  | true =>
    apply Edited.trans _ h
    exact Edited.refl.whole (fun s n => named_removeChild s "bytes" n) fun n => noBytes_removeChild
  | false => exact h

/-- The document of a conversion that has something to convert. -/
theorem edited_convert (hxer : XerNamed E) {decode : Bool} {payload : String}
    (hload : E.loadBuffer xmlParseOptions payload = (none, doc))
    (hfound : ∀ what, (convert E decode payload).result ≠ .error (.unparseableInput what))
    (hstarted : ∀ what, (convert E decode payload).result ≠ .error (.missingInputElement what)) :
    ∃ p, locate odePayloadQuery doc = some p ∧
      Edited p (if decode then mapAt (removeChild "bytes") p doc else doc)
        (convert E decode payload).doc := by
  obtain ⟨r, p, hr, hp, hconv⟩ := convert_found hload hfound
  refine ⟨p, hp, ?_⟩
  rw [hconv] at hstarted ⊢
  cases decode with
  | true => exact edited_decodeOutcome hxer r hstarted
  | false => exact edited_encodeOutcome (agree_codecRequirements hr)

end Convert

/-! ### Records -/

/-- Data has the bytes that the mode takes from it, and no others. -/
def Plain (decode : Bool) (doc : Node) : Prop :=
  Along (fun d => (d.children.filter (named "bytes")).length ≤ if decode then 1 else 0)
    odePayloadQuery doc

theorem noBytes_iff {n : Node} : NoBytes n ↔ (n.children.filter (named "bytes")).length ≤ 0 := by
  rw [Nat.le_zero, List.length_eq_zero_iff, List.filter_eq_nil_iff, NoBytes, child,
    List.find?_eq_none]

theorem Spent.plain {doc : Node} (h : Spent doc) (decode : Bool) : Plain decode doc :=
  fun d hd => Nat.le_trans (noBytes_iff.mp (h d hd)) (Nat.zero_le _)

/-- What a record is made of. -/
theorem recordDoc_cases {E : Externals V} (hxer : XerNamed E) {decode : Bool} {payload : String}
    {doc : Node} (hload : E.loadBuffer xmlParseOptions payload = (none, doc)) (template : Node)
    (now : Clock) :
    (∃ what, recordDoc E decode template now payload = annotate (requestNote what now) template) ∨
    ∃ p doc', locate odePayloadQuery doc = some p ∧
      Edited p (if decode then mapAt (removeChild "bytes") p doc else doc) doc' ∧
      (recordDoc E decode template now payload = doc' ∨
        ∃ what, recordDoc E decode template now payload = annotate (dataNote what now) doc') := by
  rw [recordDoc]
  rcases hres : (convert E decode payload).result with e | b
  · cases e with
    | asn1Codec what =>
      obtain ⟨p, hp, hedited⟩ := @edited_convert _ E doc hxer decode payload hload
        (by simp [hres]) (by simp [hres])
      exact .inr ⟨p, _, hp, hedited, .inr ⟨what, rfl⟩⟩
    | _ => exact .inl ⟨_, rfl⟩
  · obtain ⟨p, hp, hedited⟩ := @edited_convert _ E doc hxer decode payload hload
      (by simp [hres]) (by simp [hres])
    exact .inr ⟨p, _, hp, hedited, .inl rfl⟩

/-- **No record can be decoded**: what either mode publishes has lost the bytes
that it has been given. -/
theorem spent_recordDoc {E : Externals V} (hxer : XerNamed E) {decode : Bool} {template : Node}
    (htemplate : Spent template) {payload : String} {doc : Node}
    (hload : E.loadBuffer xmlParseOptions payload = (none, doc)) (hplain : Plain decode doc)
    (now : Clock) : Spent (recordDoc E decode template now payload) := by
  rcases recordDoc_cases hxer hload template now with
    ⟨what, hrec⟩ | ⟨p, doc', hp, hedited, hrec⟩
  · rw [hrec]
    exact spent_annotate _ htemplate
  obtain ⟨data, hdata, -⟩ := at?_of_locate hp
  have hcount := hplain data (by rw [select, hp, Option.bind_some, hdata])
  -- the decoder has removed the one child there was, and the encoder was given none
  have hspent : SpentAt p (if decode then mapAt (removeChild "bytes") p doc else doc) := by
    cases decode with
    | true =>
      have hfound := locate_mapAt_below (fun s n => named_removeChild s "bytes" n) hp []
      rw [List.append_nil] at hfound
      refine ⟨hfound, fun d hd => ?_⟩
      rw [if_pos rfl, at?_mapAt, hdata] at hd
      obtain rfl := Option.some.inj hd
      exact child_removeChild (named_of_locate hp hdata rfl) hcount
    | false =>
      refine ⟨hp, fun d hd => ?_⟩
      obtain rfl : data = d := Option.some.inj (hdata.symm.trans hd)
      exact noBytes_iff.mpr hcount
  rcases hrec with hrec | ⟨what, hrec⟩
  · rw [hrec]
    exact (hedited.spentAt hspent).spent
  · rw [hrec]
    exact spent_annotate _ (hedited.spentAt hspent).spent

/-- The places that a conversion or a report edits. -/
def editedPaths : List (List String) :=
  [metadataPath ++ ["payloadType"], metadataPath ++ ["receivedAt"],
    metadataPath ++ ["generatedAt"], payloadPath ++ ["dataType"], dataPath]

/-- What a report edits. -/
theorem edits_annotateOde (a : ErrorNote) :
    Edits [["metadata", "payloadType"], ["metadata", "receivedAt"], ["metadata", "generatedAt"],
      ["payload", "dataType"], ["payload", "data"]] (annotateOde a) := by
  have htext (s v : String) : Edits [[s]] (Node.mapChild s (setText v)) :=
    (Edits.whole fun t n => named_setText t v n).mapChild (by simp) s
  have hreceived : Edits [["receivedAt"]] fun n =>
      if a.updateTime then n.mapChild "receivedAt" (setText a.now.receivedAt) else n := by
    split
    · exact htext ..
    · exact ⟨fun _ _ => rfl, fun _ _ _ => rfl⟩
  have hmetadata : Edits [["payloadType"], ["receivedAt"], ["generatedAt"]]
      (annotateMetadata a) := ((htext ..).comp hreceived).comp (htext ..)
  have hdata : Edits [["data"]] (Node.mapChild "data" (annotateData a)) :=
    (Edits.whole fun s n => named_annotateData s _ n).mapChild (by simp) "data"
  have hpayload : Edits [["dataType"], ["data"]] (annotatePayload a) := (htext ..).comp hdata
  exact (hmetadata.mapChild (by simp) "metadata").comp (hpayload.mapChild (by simp) "payload")

theorem select_annotate {path : List String} (hpath : ∀ e ∈ editedPaths, Apart e path)
    (a : ErrorNote) (doc : Node) : select path (annotate a doc) = select path doc := by
  rw [annotate]
  split
  · exact ((edits_annotateOde a).mapChild (by simp) "OdeAsn1Data").apart path hpath doc
  · rfl

/-- What is apart from the edited places is published as it was received, or as it
is in the template. -/
theorem select_recordDoc {E : Externals V} (hxer : XerNamed E) {decode : Bool} {payload : String}
    {doc : Node} (hload : E.loadBuffer xmlParseOptions payload = (none, doc)) (template : Node)
    (now : Clock) {path : List String} (hpath : ∀ e ∈ editedPaths, Apart e path) :
    select path (recordDoc E decode template now payload) = select path template ∨
      select path (recordDoc E decode template now payload) = select path doc := by
  rcases @recordDoc_cases _ E hxer decode payload doc hload template now with
    ⟨what, hrec⟩ | ⟨p, doc', hp, hedited, hrec⟩
  · rw [hrec, select_annotate hpath]
    exact .inl rfl
  have htype := hpath _ (by simp [editedPaths] : payloadPath ++ ["dataType"] ∈ editedPaths)
  have hdata := hpath _ (by simp [editedPaths] : dataPath ∈ editedPaths)
  have hconverted := (edited_received hedited).select_eq hp htype hdata
  rcases hrec with hrec | ⟨what, hrec⟩
  · rw [hrec]
    exact .inr hconverted
  · rw [hrec, select_annotate hpath]
    exact .inr hconverted

/-- The record of a message that is no XML. -/
theorem recordDoc_of_unread {E : Externals V} {payload : String} {e : ParseError} {doc : Node}
    (hload : E.loadBuffer xmlParseOptions payload = (some e, doc)) (decode : Bool)
    (template : Node) (now : Clock) : ∃ what,
      recordDoc E decode template now payload = annotate (requestNote what now) template := by
  refine ⟨e.text "Input file parse error: ", ?_⟩
  rw [recordDoc, convert, hload]
  rfl

/-- The record of a decoder that is given a spent document. -/
theorem recordDoc_of_spent {E : Externals V} {payload : String} {doc : Node}
    (hload : E.loadBuffer xmlParseOptions payload = (none, doc)) (h : Spent doc) (template : Node)
    (now : Clock) :
    ∃ what, recordDoc E true template now payload = annotate (requestNote what now) template := by
  obtain ⟨e, he, hother, -⟩ := convert_spent hload h
  refine ⟨e.what, ?_⟩
  rw [recordDoc, he]
  cases e with
  | asn1Codec what => exact absurd rfl (hother what)
  | _ => rfl

end Asn1Codec
