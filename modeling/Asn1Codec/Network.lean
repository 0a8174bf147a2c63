/-
Asn1Codec/Network.lean

Codecs that read each other's records.

Any number of codecs run side by side, as the processes of a container and the
containers of a deployment do, each with its own consumer and its own signals.
A codec polls what it is given from outside and what any codec has
published, itself included: nothing is said about which topics are read by
whom, and records may be delivered late, twice, in any order or not at all.  Of
the parser it is assumed that among some texts, which the records do not leave, a
record it can read is read as it was written (`ReadsBack`); the texts may be those
in UTF-8, which is what `save` writes whatever the declaration says.

The promise that codecs make to each other is kept in every interleaving
(`serving_run`), by one rule for machines side by side.  Main results: what a
codec has published cannot be decoded any more (`decoded_once`), and all that is
apart from the edited places comes from outside or from a template
(`network_carries`).
-/
import Asn1Codec.Edited
import Asn1Codec.Transcript
import Mathlib.Data.Set.Basic

namespace Asn1Codec

open Xml (Apart Node)
open Xml.Node

variable {V : Type} {E : Externals V}

/-! ### One codec and its messages -/

/-- A codec whose messages have a property: those that it has handled, and the
one at hand. -/
structure Serving (E : Externals V) (c : Codec) (P : String → Prop) (s : Machine) : Prop where
  handled : ∃ log, Machine.Tracks E c s log ∧ ∀ x ∈ log, x.1.isReal = true → P x.1.payload
  at_hand : ∀ m, s.pc = .process m → (m.isReal = true ↔ 0 < m.len) ∧ (m.isReal = true → P m.payload)

namespace Serving

variable {consumedTopics : List String} {c : Codec} {P : String → Prop} {s : Machine}

theorem start (E : Externals V) (c : Codec) (P : String → Prop) : Serving E c P (.start c) where
  handled := ⟨[], Machine.tracks_start c, by simp⟩
  at_hand m h := by cases h

/-- What is polled has the property, so what is handled next has it. -/
theorem next (hone : AtMostOneBytes c.errorDoc) {e : Event} (h : Serving E c P s)
    (hpoll : ∀ a, e = .step a → s.pc = .consume →
      (a.message.isReal = true ↔ 0 < a.message.len) ∧
        (a.message.isReal = true → P a.message.payload)) :
    Serving E c P (Machine.next E consumedTopics e s) := by
  obtain ⟨log, htracks, hlog⟩ := h.handled
  have hnoted : ∀ x ∈ Machine.noted e s, Machine.Clean x ∧ (x.1.isReal = true → P x.1.payload) := by
    intro x hx
    unfold Machine.noted at hx
    split at hx
    · -- the message at hand
      rename_i a m hpc
      obtain rfl := List.mem_singleton.mp hx
      exact h.at_hand m hpc
    · cases hx
  constructor
  · refine ⟨log ++ Machine.noted e s, ?_, ?_⟩
    · exact Machine.tracks_next hone e s log htracks fun x hx => (hnoted x hx).1
    · rw [List.forall_mem_append]
      exact ⟨hlog, fun x hx => (hnoted x hx).2⟩
  · intro m hm
    rcases Machine.process_next hm with ⟨a, rfl, hpc, rfl⟩ | hpc
    · exact hpoll a rfl hpc
    · exact h.at_hand m hpc

/-- Every record is that of a message with the property. -/
theorem made (h : Serving E c P s) {r : String} (hr : r ∈ s.records) :
    ∃ payload now, P payload ∧
      r = save (recordDoc E c.decodeFunctionality c.errorDoc now payload) := by
  obtain ⟨log, htracks, hlog⟩ := h.handled
  have hmem : r ∈ log.filterMap (Machine.recordOf E c) := by
    rw [← htracks.records]
    exact List.mem_append_left _ hr
  obtain ⟨x, hx, hrecord⟩ := List.mem_filterMap.mp hmem
  rw [Machine.recordOf] at hrecord
  split at hrecord
  · rename_i hreal
    exact ⟨x.1.payload, x.2, hlog x hx hreal, (Option.some.inj hrecord).symm⟩
  · cases hrecord

end Serving

/-! ### Networks -/

/-- The codecs, and the messages that each can be given from outside. -/
structure Network (ι : Type) where
  codec : ι → Codec
  consumedTopics : ι → List String
  given : ι → String → Prop

/-- The records of messages among some texts are such texts, and those that can be
read are read as they were written. -/
def ReadsBack (E : Externals V) (texts : Set String) (c : Codec) : Prop :=
  ∀ payload ∈ texts, ∀ now,
    let d := recordDoc E c.decodeFunctionality c.errorDoc now payload
    save d ∈ texts ∧
      ∀ doc, E.loadBuffer xmlParseOptions (save d) = (none, doc) → doc = reload xmlParseOptions d

namespace Network

variable {ι : Type} [DecidableEq ι] (E) (N : Network ι)

/-- An event of one codec. -/
def next : ι × Event → (ι → Machine) → ι → Machine :=
  Runs.nextAt fun i => Machine.next E (N.consumedTopics i)

def start (i : ι) : Machine := .start (N.codec i)

/-- What a codec can be given. -/
def Offered (s : ι → Machine) (i : ι) (payload : String) : Prop :=
  N.given i payload ∨ ∃ j, payload ∈ (s j).records

/-- consume() returns an event without a text, or a message that can be given. -/
def Delivers (e : ι × Event) (s : ι → Machine) : Prop :=
  match e.2, (s e.1).pc with
  | .step a, .consume => (a.message.isReal = true ↔ 0 < a.message.len) ∧
      (a.message.isReal = true → N.Offered s e.1 a.message.payload)
  | _, _ => True

variable {E N}

/-- **What the codecs promise each other**: a property of messages that holds of
those from outside, and of the records that are made of messages with it, holds
of all that is handled, in every interleaving. -/
theorem serving_run (hone : ∀ i, AtMostOneBytes (N.codec i).errorDoc) {P : ι → String → Prop}
    (hgiven : ∀ i payload, N.given i payload → P i payload)
    (hmade : ∀ i j payload now, P j payload →
      P i (save (recordDoc E (N.codec j).decodeFunctionality (N.codec j).errorDoc now payload)))
    {evs : List (ι × Event)} (hevs : Runs.Meets (N.next E) N.Delivers N.start evs) (i : ι) :
    Serving E (N.codec i) (P i) (Runs.run (N.next E) N.start evs i) := by
  refine Runs.run_side (P := fun i => Serving E (N.codec i) (P i)) ?_
    (fun j => Serving.start E (N.codec j) (P j)) hevs i
  intro i e s hs hdelivers
  refine (hs i).next (hone i) ?_
  rintro a rfl hpc
  simp only [Delivers, hpc] at hdelivers
  refine ⟨hdelivers.1, fun hreal => ?_⟩
  rcases hdelivers.2 hreal with hout | ⟨j, hrecord⟩
  · exact hgiven i _ hout
  · -- the codec that has published the record keeps its own promise
    obtain ⟨payload, now, hpayload, hsave⟩ := (hs j).made hrecord
    rw [hsave]
    exact hmade i j payload now hpayload

/-! ### What is decoded -/

/-- A template without bytes is one with at most one. -/
theorem atMostOneBytes_of_spent {template : Node} (h : Spent template) :
    AtMostOneBytes template := by
  intro d hd
  have hselect : select odePayloadQuery template = some d := by
    rw [show odePayloadQuery = dataPath from rfl,
      select_of_descend (Option.isSome_iff_exists.mpr ⟨d, hd⟩)]
    exact hd
  exact Nat.le_trans (noBytes_iff.mp (h d hselect)) (Nat.zero_le 1)

/-- A message whose bytes are gone, if it can be read at all. -/
def SpentText (E : Externals V) (payload : String) : Prop :=
  ∀ doc, E.loadBuffer xmlParseOptions payload = (none, doc) → Spent doc

/-- What is made of a message that is spent, or from outside, is spent. -/
theorem spentText_save (hxer : XerNamed E) {texts : Set String} {c : Codec}
    (hread : ReadsBack E texts c) (htemplate : Spent c.errorDoc) {payload : String}
    (htext : payload ∈ texts)
    (hplain : ∀ doc, E.loadBuffer xmlParseOptions payload = (none, doc) →
      Plain c.decodeFunctionality doc) (now : Clock) :
    SpentText E (save (recordDoc E c.decodeFunctionality c.errorDoc now payload)) := by
  intro doc hdoc
  rw [(hread payload htext now).2 doc hdoc]
  apply spent_reload
  rcases hload : E.loadBuffer xmlParseOptions payload with ⟨- | e, received⟩
  · exact spent_recordDoc hxer htemplate hload (hplain received hload) now
  · obtain ⟨what, hrec⟩ := recordDoc_of_unread hload c.decodeFunctionality c.errorDoc now
    rw [hrec]
    exact spent_annotate _ htemplate

/-- **Nothing is decoded twice**: a decoder that reads only what codecs have
published answers every message with a report of a bad request, whatever the
network and in every interleaving. -/
theorem decoded_once (hxer : XerNamed E) {texts : Set String}
    (htexts : ∀ i payload, N.given i payload → payload ∈ texts)
    (hread : ∀ i, ReadsBack E texts (N.codec i)) (htemplates : ∀ i, Spent (N.codec i).errorDoc)
    (hgiven : ∀ i payload doc, N.given i payload →
      E.loadBuffer xmlParseOptions payload = (none, doc) →
        Plain (N.codec i).decodeFunctionality doc)
    {evs : List (ι × Event)} (hevs : Runs.Meets (N.next E) N.Delivers N.start evs) {i : ι}
    (hinner : ∀ payload, ¬ N.given i payload) (hdecode : (N.codec i).decodeFunctionality = true) :
    ∀ r ∈ (Runs.run (N.next E) N.start evs i).records,
      ∃ what now, r = save (annotate (requestNote what now) (N.codec i).errorDoc) := by
  have hserving := serving_run (fun j => atMostOneBytes_of_spent (htemplates j))
    (P := fun j payload => payload ∈ texts ∧ (N.given j payload ∨ SpentText E payload))
    (fun j payload hout => ⟨htexts j payload hout, .inl hout⟩)
    (fun _ k payload now ⟨htext, hpayload⟩ => ⟨(hread k payload htext now).1, .inr <|
      spentText_save hxer (hread k) (htemplates k) htext (fun doc hload => hpayload.elim
        (fun hout => hgiven k payload doc hout hload)
        fun hspent => (hspent doc hload).plain _) now⟩) hevs i
  intro r hr
  obtain ⟨payload, now, ⟨-, hpayload⟩, rfl⟩ := hserving.made hr
  have hspent := hpayload.resolve_left (hinner payload)
  -- refused is what has no bytes, and what is no XML
  rw [hdecode]
  rcases hload : E.loadBuffer xmlParseOptions payload with ⟨- | e, doc⟩
  · obtain ⟨what, hrec⟩ := recordDoc_of_spent hload (hspent doc hload) (N.codec i).errorDoc now
    exact ⟨what, now, congrArg save hrec⟩
  · obtain ⟨what, hrec⟩ := recordDoc_of_unread hload true (N.codec i).errorDoc now
    exact ⟨what, now, congrArg save hrec⟩

/-! ### A decoder behind a decoder -/

/-- A MessageFrame to be decoded. -/
def oneFrame : Node := bytesDoc [("MessageFrame", "UPER")]

/-- What is published for it. -/
def oneDecoded : Node :=
  mapAt (mapChild "dataType" (setText (asn1datatypes .xml))) [0, 1]
    (mapAt (fun n => n.withChildren [.pcdata "", xerElement .messageFrame]) [0, 1, 1] oneFrame)

/-- Libraries that decode this MessageFrame, and read its record back. -/
def relaying : Externals Unit :=
  { decoding oneFrame with
    loadBuffer := fun o s =>
      if o.parseTrimPcdata ∧ s = save oneDecoded then (none, reload xmlParseOptions oneDecoded)
      else (decoding oneFrame).loadBuffer o s }

theorem xerNamed_relaying : XerNamed relaying := by
  intro td v xb x henc hload
  exact xerNamed_decoding _ td v xb x henc (by simpa [relaying, Xml.parseDefault] using hload)

/-- Two decoders, of which one is given nothing but records. -/
def twoDecoders : Network Bool where
  codec _ := { configuredCodec with errorDoc := outputError }
  consumedTopics _ := ["t"]
  given inner payload := inner = false ∧ payload = (messageOf oneFrame).payload

/-- A poll of one message by one of them. -/
def onePoll (inner : Bool) (payload : String) : List (Bool × Event) :=
  (Machine.polling [⟨.noError, payload⟩]).map (inner, ·)

/-- Events of one codec, each answered by a message that it can be given. -/
theorem meets_answering {i : ι} {ms : List Message} {s : ι → Machine}
    (h : ∀ m ∈ ms, (m.isReal = true ↔ 0 < m.len) ∧ ∀ s' : ι → Machine, (∀ j, j ≠ i → s' j = s j) →
      m.isReal = true → N.Offered s' i m.payload) :
    Runs.Meets (N.next E) N.Delivers s (ms.map fun m => (i, Machine.answering m)) := by
  induction ms generalizing s with
  | nil => trivial
  | cons m ms ih =>
    rw [List.forall_mem_cons] at h
    refine ⟨?_, ih fun m' hm' => ⟨(h.2 m' hm').1, fun s' hs' => (h.2 m' hm').2 s' fun j hj => ?_⟩⟩
    · show match Machine.answering m, (s i).pc with | .step a, .consume => _ | _, _ => _
      rw [Machine.answering]
      split
      · rename_i a hpc ha hconsume
        obtain rfl := Event.step.inj ha
        exact ⟨h.1.1, h.1.2 s fun _ _ => rfl⟩
      · trivial
    · rw [hs' j hj]
      exact Function.update_of_ne hj ..

/-- A codec that polls one message, which it can be given. -/
theorem meets_polling {i : ι} {m : Message} {s : ι → Machine} (hm : m.isReal = true ↔ 0 < m.len)
    (h : ∀ s' : ι → Machine, (∀ j, j ≠ i → s' j = s j) → N.Offered s' i m.payload) :
    Runs.Meets (N.next E) N.Delivers s ((Machine.polling [m]).map (i, ·)) := by
  show Runs.Meets (N.next E) N.Delivers s
    ((List.replicate 10 (⟨.timedOut, ""⟩ : Message) ++ List.replicate 5 m).map
      fun m => (i, Machine.answering m))
  apply meets_answering
  intro m' hm'
  rcases List.mem_append.mp hm' with hm' | hm'
  · obtain rfl := List.eq_of_mem_replicate hm'
    exact ⟨by decide, fun _ _ hreal => by cases hreal⟩
  · obtain rfl := List.eq_of_mem_replicate hm'
    exact ⟨hm, fun s' hs' _ => h s' hs'⟩

/-- The record of a real message that is polled first. -/
theorem records_polling (E : Externals V) (c : Codec) {m : Message} (hm : m.err = .noError)
    (hlen : 0 < m.len) :
    (Runs.run (Machine.next E ["t"]) (.start c) (Machine.polling [m])).records =
      [save (recordDoc E c.decodeFunctionality c.errorDoc ⟨"t1", "t2"⟩ m.payload)] := by
  -- the message is at hand, and nothing has been published
  let before := List.replicate 10 (Machine.answering ⟨.timedOut, ""⟩) ++
    List.replicate 2 (Machine.answering m)
  let s := Runs.run (Machine.next E ["t"]) (.start c) before
  have hpc : s.pc = .process m := rfl
  have hpublished : s.published = [] := rfl
  have hstream : (handleMessage E m ⟨"t1", "t2"⟩ s.codec).outputMessageStream =
      save (recordDoc E c.decodeFunctionality c.errorDoc ⟨"t1", "t2"⟩ m.payload) := by
    show (handleMessage E m ⟨"t1", "t2"⟩ s.codec).lasting.outputMessageStream = _
    rw [handleMessage_real E hm]
    exact String.empty_append
  have hsplit : Machine.polling [m] = before ++ List.replicate 3 (Machine.answering m) := rfl
  rw [hsplit, Runs.run_append]
  show (Runs.run _ s _).records = _
  generalize s = s at hpc hpublished hstream
  simp [Machine.answering, Machine.next, Machine.step, hpc, hlen, hpublished, hstream,
    Machine.publishStream, Machine.records]

theorem spent_outputError : Spent outputError := by
  intro d hd
  obtain rfl := Option.some.inj hd
  rfl

theorem plain_oneFrame : Plain true oneFrame := by
  intro d hd
  obtain rfl := Option.some.inj hd
  decide

theorem len_oneFrame : 0 < (⟨.noError, (messageOf oneFrame).payload⟩ : Message).len :=
  len_messageOf ..

theorem len_oneDecoded : 0 < (⟨.noError, save oneDecoded⟩ : Message).len := by
  rw [Message.len, Nat.pos_iff_ne_zero, Ne, String.length_eq_zero_iff]
  exact save_ne_empty _

theorem load_oneFrame :
    relaying.loadBuffer xmlParseOptions (messageOf oneFrame).payload = (none, oneFrame) := by
  have hne : (messageOf oneFrame).payload ≠ save oneDecoded := by decide +kernel
  simp only [relaying, hne, and_false, if_false]
  exact load_decoding oneFrame

theorem load_oneDecoded : relaying.loadBuffer xmlParseOptions (save oneDecoded) =
    (none, reload xmlParseOptions oneDecoded) := by
  simp [relaying, xmlParseOptions]

/-- Nothing else is read but the XER of a type. -/
theorem read_relaying {s : String} {doc : Node}
    (h : relaying.loadBuffer xmlParseOptions s = (none, doc)) :
    s = save oneDecoded ∧ doc = reload xmlParseOptions oneDecoded ∨
      s = (messageOf oneFrame).payload ∨
      ∃ td, s = (xerElement td).print ∧ doc = .document [xerElement td] := by
  by_cases hdecoded : s = save oneDecoded
  · subst hdecoded
    exact .inl ⟨rfl, (Prod.mk.inj (load_oneDecoded.symm.trans h)).2.symm⟩
  by_cases hframe : s = oneFrame.print
  · exact .inr (.inl hframe)
  simp only [relaying, hdecoded, decoding, Externals.reading, hframe, and_false, if_false] at h
  rcases htype : xerType s with - | td
  · simp [decodingAny, htype, emptyHanded] at h
  · refine .inr (.inr ⟨td, ?_, ?_⟩)
    · simpa using List.find?_some htype
    · simp only [decodingAny, htype] at h
      exact (Prod.mk.inj h).2.symm

/-- The MessageFrame is decoded. -/
theorem convert_oneFrame :
    (convert relaying true (messageOf oneFrame).payload).result = .ok true ∧
      (convert relaying true (messageOf oneFrame).payload).doc = oneDecoded := by
  have hok : (convert relaying true (messageOf oneFrame).payload).result = .ok true := by
    decide +kernel
  refine ⟨hok, ?_⟩
  obtain ⟨r, p, hr, hp, hconv⟩ := convert_ok load_oneFrame hok
  obtain rfl := Except.ok.inj (hr.symm.trans rfl)
  obtain rfl := Option.some.inj (hp.symm.trans rfl)
  rw [hconv]
  rfl

theorem recordDoc_oneFrame (template : Node) (now : Clock) :
    recordDoc relaying true template now (messageOf oneFrame).payload = oneDecoded := by
  rw [recordDoc, convert_oneFrame.1, convert_oneFrame.2]

theorem spent_oneDecoded : Spent oneDecoded := by
  have hspent : Spent (recordDoc relaying true outputError ⟨"t1", "t2"⟩
      (messageOf oneFrame).payload) :=
    spent_recordDoc xerNamed_relaying spent_outputError load_oneFrame plain_oneFrame _
  rwa [recordDoc_oneFrame] at hspent

/-- Any other message is refused. -/
theorem recordDoc_refused {payload : String} (h : payload ≠ (messageOf oneFrame).payload)
    (template : Node) (now : Clock) :
    ∃ what, recordDoc relaying true template now payload =
      annotate (requestNote what now) template := by
  rcases hload : relaying.loadBuffer xmlParseOptions payload with ⟨- | e, doc⟩
  · refine recordDoc_of_spent hload ?_ template now
    rcases read_relaying hload with ⟨-, rfl⟩ | hframe | ⟨td, -, rfl⟩
    · exact spent_reload spent_oneDecoded
    · exact absurd hframe h
    · -- the XER has no payload
      intro d hd
      cases td <;> cases hd
  · exact recordDoc_of_unread hload true template now

/-- How the report of a refused message begins. -/
def reportStart : String := "<?xml version=\"1.0\"?><OdeAsn1Data><metadata><payloadType>"

theorem start_report (what : String) (now : Clock) :
    reportStart.toList <+: (save (annotate (requestNote what now) outputError)).toList := by
  have hreport : ∃ c cs ms ns, annotate (requestNote what now) outputError =
      .document [.element "OdeAsn1Data" []
        (.element "metadata" [] (.element "payloadType" [] (c :: cs) :: ms) :: ns)] :=
    ⟨_, _, _, _, rfl⟩
  obtain ⟨c, cs, ms, ns, hreport⟩ := hreport
  rw [hreport]
  simp [save, children, hasDeclaration, printAll, print, Xml.printAttrs, reportStart]

/-- No text that is read begins so. -/
theorem start_of_read {s : String} {doc : Node}
    (h : relaying.loadBuffer xmlParseOptions s = (none, doc)) :
    ¬ reportStart.toList <+: s.toList := by
  rcases read_relaying h with ⟨rfl, -⟩ | rfl | ⟨td, rfl, -⟩
  · -- the metadata of the record begin with its encodings
    have hdecoded : ∃ c cs ms ns, oneDecoded = .document [.element "OdeAsn1Data" []
        (.element "metadata" [] (.element "encodings" [] (c :: cs) :: ms) :: ns)] :=
      ⟨_, _, _, _, rfl⟩
    obtain ⟨c, cs, ms, ns, hdecoded⟩ := hdecoded
    rw [hdecoded]
    simp [save, children, hasDeclaration, printAll, print, Xml.printAttrs, reportStart]
  · -- the other texts have no declaration
    have hframe : ∃ c cs, oneFrame = .document [.element "OdeAsn1Data" [] (c :: cs)] :=
      ⟨_, _, rfl⟩
    obtain ⟨c, cs, hframe⟩ := hframe
    simp [messageOf, hframe, printAll, print, reportStart]
  · cases td <;> simp [xerElement, AsnType.name, print, reportStart]

theorem readsBack_twoDecoders (i : Bool) :
    ReadsBack relaying Set.univ (twoDecoders.codec i) := by
  intro payload _ now d
  refine ⟨Set.mem_univ _, fun doc hdoc => ?_⟩
  by_cases hframe : payload = (messageOf oneFrame).payload
  · have hd : d = oneDecoded := by
      subst hframe
      exact recordDoc_oneFrame ..
    rw [hd, load_oneDecoded] at hdoc
    rw [hd]
    exact (Prod.mk.inj hdoc).2.symm
  · obtain ⟨what, hd⟩ := recordDoc_refused hframe outputError now
    have hstart : reportStart.toList <+: (save d).toList := by
      rw [show d = _ from hd]
      exact start_report what now
    exact absurd hstart (start_of_read hdoc)

theorem oneDecoded_published :
    save oneDecoded ∈ (Runs.run (twoDecoders.next relaying) twoDecoders.start
      (onePoll false (messageOf oneFrame).payload) false).records := by
  rw [onePoll, next, Runs.run_nextAt]
  show _ ∈ (Runs.run (Machine.next relaying ["t"]) (.start (twoDecoders.codec false)) _).records
  rw [records_polling relaying _ rfl len_oneFrame]
  exact List.mem_singleton.mpr (congrArg save (recordDoc_oneFrame ..).symm)

theorem meets_first : Runs.Meets (twoDecoders.next relaying) twoDecoders.Delivers
    twoDecoders.start (onePoll false (messageOf oneFrame).payload) :=
  meets_polling (iff_of_true rfl len_oneFrame) fun _ _ => .inl ⟨rfl, rfl⟩

theorem meets_both : Runs.Meets (twoDecoders.next relaying) twoDecoders.Delivers
    twoDecoders.start
    (onePoll false (messageOf oneFrame).payload ++ onePoll true (save oneDecoded)) := by
  rw [Runs.meets_append]
  refine ⟨meets_first, meets_polling (iff_of_true rfl len_oneDecoded) fun s' hs' => ?_⟩
  refine .inr ⟨false, ?_⟩
  rw [hs' false (by decide)]
  exact oneDecoded_published

/-- The second decoder reports a bad request. -/
theorem decoded_once_twoDecoders :
    ∃ r ∈ (Runs.run (twoDecoders.next relaying) twoDecoders.start
        (onePoll false (messageOf oneFrame).payload ++ onePoll true (save oneDecoded))
        true).records,
      ∃ what now, r = save (annotate (requestNote what now) outputError) := by
  have hsome : (Runs.run (twoDecoders.next relaying) twoDecoders.start
      (onePoll false (messageOf oneFrame).payload ++ onePoll true (save oneDecoded))
      true).records ≠ [] := by
    rw [Runs.run_append, onePoll, onePoll, next, Runs.run_nextAt]
    show (Runs.run (Machine.next relaying ["t"]) (.start (twoDecoders.codec true)) _).records ≠ []
    rw [records_polling relaying _ rfl len_oneDecoded]
    simp
  obtain ⟨r, hr⟩ := List.exists_mem_of_ne_nil _ hsome
  refine ⟨r, hr, decoded_once xerNamed_relaying (fun _ _ _ => Set.mem_univ _)
    readsBack_twoDecoders (fun _ => spent_outputError) ?_ meets_both
    (fun payload h => by cases h.1) rfl r hr⟩
  rintro i payload doc ⟨rfl, rfl⟩ hload
  obtain rfl : oneFrame = doc := (Prod.mk.inj (load_oneFrame.symm.trans hload)).2
  exact plain_oneFrame

/-! ### What is carried -/

/-- A message that has `A` at a path, if it can be read. -/
def Carrying (E : Externals V) (path : List String) (A : Option Node → Prop) (payload : String) :
    Prop :=
  ∀ doc, E.loadBuffer xmlParseOptions payload = (none, doc) →
    A ((select path doc).map (reload xmlParseOptions))

/-- The record of any message has what the message or the template has. -/
theorem carried_from (hxer : XerNamed E) {path : List String}
    (hpath : ∀ e ∈ editedPaths, Apart e path) {decode : Bool} {template : Node} (payload : String)
    (now : Clock) :
    select path (recordDoc E decode template now payload) = select path template ∨
      ∃ doc, E.loadBuffer xmlParseOptions payload = (none, doc) ∧
        select path (recordDoc E decode template now payload) = select path doc := by
  rcases hload : E.loadBuffer xmlParseOptions payload with ⟨- | e, doc⟩
  · exact (select_recordDoc hxer hload template now hpath).imp_right fun h => ⟨doc, rfl, h⟩
  · obtain ⟨what, hrec⟩ := recordDoc_of_unread hload decode template now
    rw [hrec]
    exact .inl (select_annotate hpath ..)

/-- **What a network carries**: at a path apart from the edited places, a reader of
any record finds what a message from outside has there, or a template. -/
theorem network_carries (hxer : XerNamed E) {texts : Set String}
    (htexts : ∀ i payload, N.given i payload → payload ∈ texts)
    (hread : ∀ i, ReadsBack E texts (N.codec i))
    (hone : ∀ i, AtMostOneBytes (N.codec i).errorDoc) {path : List String}
    (hpath : ∀ e ∈ editedPaths, Apart e path) {A : Option Node → Prop}
    (hgiven : ∀ i payload, N.given i payload → Carrying E path A payload)
    (htemplates : ∀ i, A ((select path (N.codec i).errorDoc).map (reload xmlParseOptions)))
    {evs : List (ι × Event)} (hevs : Runs.Meets (N.next E) N.Delivers N.start evs) {i : ι}
    {r : String} (hr : r ∈ (Runs.run (N.next E) N.start evs i).records) :
    Carrying E path A r := by
  have hmade : ∀ j payload now, payload ∈ texts → Carrying E path A payload → Carrying E path A
      (save (recordDoc E (N.codec j).decodeFunctionality (N.codec j).errorDoc now payload)) := by
    intro j payload now htext hpayload doc hdoc
    let d := recordDoc E (N.codec j).decodeFunctionality (N.codec j).errorDoc now payload
    rw [(hread j payload htext now).2 doc hdoc]
    -- a second reading changes nothing
    have htwice : (select path (reload xmlParseOptions d)).map (reload xmlParseOptions) =
        (select path d).map (reload xmlParseOptions) := by
      rw [select_reload, Option.map_map]
      congr 1
      funext n
      exact reload_reload n
    rw [htwice]
    rcases carried_from hxer hpath payload now with hsame | ⟨received, hload, hsame⟩
    · rw [show select path d = select path (N.codec j).errorDoc from hsame]
      exact htemplates j
    · rw [show select path d = select path received from hsame]
      exact hpayload received hload
  have hserving := serving_run hone
    (P := fun _ payload => payload ∈ texts ∧ Carrying E path A payload)
    (fun j payload hout => ⟨htexts j payload hout, hgiven j payload hout⟩)
    (fun _ j payload now ⟨htext, hpayload⟩ =>
      ⟨(hread j payload htext now).1, hmade j payload now htext hpayload⟩) hevs i
  obtain ⟨payload, now, ⟨htext, hpayload⟩, hsave⟩ := hserving.made hr
  rw [hsave]
  exact hmade i payload now htext hpayload

/-- The encodings in the record of the first decoder. -/
theorem network_carries_twoDecoders :
    Carrying relaying (metadataPath ++ ["encodings"])
      (fun n => n = none ∨
        n = (select (metadataPath ++ ["encodings"]) oneFrame).map (reload xmlParseOptions))
      (save oneDecoded) := by
  refine network_carries xerNamed_relaying (fun _ _ _ => Set.mem_univ _) readsBack_twoDecoders
    (fun _ => atMostOneBytes_of_spent spent_outputError) (by decide) ?_ ?_
    meets_first oneDecoded_published
  · rintro i payload ⟨rfl, rfl⟩ doc hload
    obtain rfl : oneFrame = doc := (Prod.mk.inj (load_oneFrame.symm.trans hload)).2
    exact .inr rfl
  · intro i
    exact .inl rfl

end Network

end Asn1Codec
