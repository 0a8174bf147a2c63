/-
Asn1Codec/Annotation.lean

What add_error_xml does to a document, in three parts: what it changes, what
its result says, and what calls one after the other come to.

The relations `MetadataNoted` to `OdeNoted` are the frame: they name every text
that is set and every child that comes or goes, on the lists of children
themselves, and say that all else stays.  The result is true exactly when every
element of `fieldPaths` was there before the call, for no edit of the method
takes one of them away; code and message need only data.  The last call wins:
that it absorbs one earlier call is `annotate_annotate`, and a sequence of
earlier calls is as good as its last one.
-/
import Asn1Codec.Stateless
import Asn1Codec.Xml.Frame

namespace Asn1Codec

open Xml (Node)
open Xml.Node

/-! ### The frame -/

/-- Only the first bytes is removed from a list of children, if there is one. -/
def BytesRemoved (cs rest : List Node) : Prop :=
  (∀ x ∈ cs, x.named "bytes" = false) ∧ rest = cs ∨
  ∃ before b after, cs = before ++ b :: after ∧ (∀ x ∈ before, x.named "bytes" = false) ∧
    b.named "bytes" = true ∧ rest = before ++ after

/-- A new element of the name `s`, where there is none. -/
def missing (s : String) (cs : List Node) : List Node :=
  if cs.any (named s) then [] else [.element s [] []]

def MetadataNoted (a : ErrorNote) (n n' : Node) : Prop :=
  OnlyTexts ([("payloadType", asn1datatypes .payload)] ++
    (if a.updateTime then [("receivedAt", a.now.receivedAt)] else []) ++
    [("generatedAt", a.now.generatedAt)]) n n'

def DataNoted (a : ErrorNote) (n n' : Node) : Prop :=
  ∃ rest, BytesRemoved n.children rest ∧
    OnlyTexts [("code", asn1errortypes a.et), ("message", a.message)]
      (n.withChildren (rest ++ missing "code" rest ++ missing "message" rest)) n'

def PayloadNoted (a : ErrorNote) (n n' : Node) : Prop :=
  ∃ m, OnlyTexts [("dataType", asn1datatypes a.dt)] n m ∧ OnlyChild "data" (DataNoted a) m n'

def OdeNoted (a : ErrorNote) (n n' : Node) : Prop :=
  ∃ m, OnlyChild "metadata" (MetadataNoted a) n m ∧ OnlyChild "payload" (PayloadNoted a) m n'

theorem bytesRemoved_eraseP (cs : List Node) : BytesRemoved cs (cs.eraseP (named "bytes")) := by
  by_cases h : ∃ b ∈ cs, b.named "bytes" = true
  · obtain ⟨b, hmem, hb⟩ := h
    obtain ⟨b, before, after, hbefore, hb, hcs, hrest⟩ := List.exists_of_eraseP hmem hb
    exact .inr ⟨before, b, after, hcs, fun x hx => by simpa using hbefore x hx, hb, hrest⟩
  · have hnone : ∀ x ∈ cs, x.named "bytes" = false := fun x hx => by
      rcases hx' : x.named "bytes" with - | -
      · rfl
      · exact absurd ⟨x, hx, hx'⟩ h
    exact .inl ⟨hnone, List.eraseP_of_forall_not fun x hx => by simp [hnone x hx]⟩

theorem ensureChild_withChildren {s t : String} {n : Node} (hn : n.named t = true)
    (cs : List Node) :
    ensureChild s (n.withChildren cs) = n.withChildren (cs ++ missing s cs) := by
  have hchildren := children_withChildren_of_named hn cs
  rw [ensureChild, child, hchildren, missing, appendChild, hchildren, withChildren_withChildren]
  rcases hany : cs.any (named s) with - | -
  · have hnone : cs.find? (named s) = none := by
      simpa [List.find?_eq_none, List.any_eq_false] using hany
    simp [hnone]
  · have hsome : (cs.find? (named s)).isNone = false := by
      simpa [List.find?_isSome, List.any_eq_true, Option.isNone_eq_false_iff] using hany
    simp [hsome]

theorem missing_append_missing {s t : String} (hst : s ≠ t) (cs : List Node) :
    missing t (cs ++ missing s cs) = missing t cs := by
  have hother : (missing s cs).any (named t) = false := by
    rw [missing]
    split
    · rfl
    · simp [named, hst]
  rw [missing, List.any_append, hother, Bool.or_false, missing]

theorem metadataNoted_annotateMetadata (a : ErrorNote) (n : Node) :
    MetadataNoted a n (annotateMetadata a n) := by
  rw [MetadataNoted, annotateMetadata]
  rcases a.updateTime with - | -
  · exact onlyTexts_mapChild (onlyTexts_mapChild rfl)
  · exact onlyTexts_mapChild (onlyTexts_mapChild (onlyTexts_mapChild rfl))

theorem dataNoted_annotateData (a : ErrorNote) {n : Node} (hn : n.named "data" = true) :
    DataNoted a n (annotateData a n) := by
  refine ⟨_, bytesRemoved_eraseP n.children, ?_⟩
  rw [annotateData, removeChild, ensureChild_withChildren hn, ensureChild_withChildren hn,
    missing_append_missing (by decide)]
  exact onlyTexts_mapChild (onlyTexts_mapChild rfl)

theorem payloadNoted_annotatePayload (a : ErrorNote) (n : Node) :
    PayloadNoted a n (annotatePayload a n) :=
  ⟨_, onlyTexts_mapChild rfl,
    onlyChild_mapChild fun _ hd => dataNoted_annotateData a (child_named hd)⟩

theorem odeNoted_annotateOde (a : ErrorNote) (n : Node) : OdeNoted a n (annotateOde a n) :=
  ⟨_, onlyChild_mapChild fun m _ => metadataNoted_annotateMetadata a m,
    onlyChild_mapChild fun p _ => payloadNoted_annotatePayload a p⟩

/-! ### The result -/

/-- The elements that add_error_xml must find; it makes code and message itself. -/
def fieldPaths (a : ErrorNote) : List (List String) :=
  [metadataPath ++ ["payloadType"]] ++
    (if a.updateTime then [metadataPath ++ ["receivedAt"]] else []) ++
    [metadataPath ++ ["generatedAt"], payloadPath ++ ["dataType"], dataPath]

/-- The structural edits of the data node. -/
def prepareData (doc : Node) : Node :=
  mapPath (ensureChild "message") dataPath
    (mapPath (ensureChild "code") dataPath (mapPath (removeChild "bytes") dataPath doc))

theorem descend_mapPath_self {f : Node → Node} (hf : ∀ s n, (f n).named s = n.named s)
    (path : List String) (n : Node) :
    (mapPath f path n).descend path = (n.descend path).map f := by
  have h := descend_mapPath hf path [] n
  rw [List.append_nil] at h
  rw [h]
  rcases n.descend path with - | m
  · rfl
  · exact descend_nil (f m)

theorem named_of_descend {s : String} (path : List String) {n m : Node}
    (h : n.descend (path ++ [s]) = some m) : m.named s = true := by
  induction path generalizing n with
  | nil =>
    rw [List.nil_append, descend_cons] at h
    obtain ⟨c, hc, hm⟩ := Option.bind_eq_some_iff.mp h
    rw [descend_nil, Option.some.injEq] at hm
    exact hm ▸ child_named hc
  | cons t path ih =>
    rw [List.cons_append, descend_cons] at h
    obtain ⟨c, -, hm⟩ := Option.bind_eq_some_iff.mp h
    exact ih hm

/-- code and message are under data before their texts are set. -/
theorem isSome_descend_prepareData {s : String} (hs : s = "code" ∨ s = "message") (doc : Node) :
    ((prepareData doc).descend (dataPath ++ [s])).isSome = (doc.descend dataPath).isSome := by
  rw [prepareData, descend_mapPath (by simp), descend_mapPath_self (by simp),
    descend_mapPath_self (by simp)]
  rcases hdata : doc.descend dataPath with - | d
  · rfl
  · have hd : d.named "data" = true := named_of_descend payloadPath hdata
    have hchild : ((ensureChild "message" (ensureChild "code" (removeChild "bytes" d))).child
        s).isSome := by
      rcases hs with rfl | rfl
      · rw [child_ensureChild_of_ne (by decide)]
        exact child_ensureChild (t := "data") (by simpa using hd)
      · exact child_ensureChild (t := "data") (by simpa using hd)
    obtain ⟨c, hc⟩ := Option.isSome_iff_exists.mp hchild
    simp [descend_cons, hc]

theorem addErrorXml_fst {a : ErrorNote} {doc : Node} (hmeta : (doc.descend metadataPath).isSome)
    (hpayload : (doc.descend payloadPath).isSome) :
    (addErrorXml doc a.dt a.et a.message a.updateTime a.now).1 = true ↔
      ∀ path ∈ fieldPaths a, (doc.descend path).isSome := by
  have hcode := fun d => isSome_descend_prepareData (.inl rfl : "code" = "code" ∨ _) d
  have hmessage := fun d => isSome_descend_prepareData (.inr rfl : "message" = "code" ∨ _) d
  unfold prepareData at hcode hmessage
  rw [addErrorXml, if_neg (by simpa [Option.isSome_iff_ne_none] using hmeta),
    if_neg (by simpa [Option.isSome_iff_ne_none] using hpayload), fieldPaths]
  rcases a.updateTime with - | -
  · simp [setTextAt, isSome_descend_setText, hcode, hmessage, and_assoc]
  · simp [setTextAt, isSome_descend_setText, hcode, hmessage, and_assoc]

/-! ### A sequence of calls -/

/-- A call with the arguments of `a`. -/
def ErrorNote.call (a : ErrorNote) (doc : Node) : Bool × Node :=
  addErrorXml doc a.dt a.et a.message a.updateTime a.now

/-- The document after some calls. -/
def afterCalls (calls : List ErrorNote) (doc : Node) : Node :=
  calls.foldl (fun d a => (a.call d).2) doc

theorem call_snd (a : ErrorNote) (doc : Node) : (a.call doc).2 = annotate a doc :=
  addErrorXml_eq doc a

/-- Earlier calls come to none at all, or to a single one. -/
theorem afterCalls_eq {doc : Node} (hone : AtMostOneBytes doc) {updateTime : Bool}
    {earlier : List ErrorNote} (hsame : ∀ b ∈ earlier, b.updateTime = updateTime) :
    afterCalls earlier doc = doc ∨
      ∃ b : ErrorNote, b.updateTime = updateTime ∧ afterCalls earlier doc = annotate b doc := by
  induction earlier using List.reverseRecOn with
  | nil => exact .inl rfl
  | append_singleton earlier b ih =>
    have hb : b.updateTime = updateTime := hsame b (by simp)
    have hlast : afterCalls (earlier ++ [b]) doc = annotate b (afterCalls earlier doc) := by
      rw [afterCalls, List.foldl_append, List.foldl_cons, List.foldl_nil, call_snd]
      rfl
    rw [hlast]
    rcases ih fun b hb => hsame b (List.mem_append_left _ hb) with h | ⟨b', hb', h⟩
    · exact .inr ⟨b, hb, by rw [h]⟩
    · exact .inr ⟨b, hb, by rw [h, annotate_annotate (hb'.trans hb.symm) hone]⟩

/-- The last of several calls is all that is seen. -/
theorem annotate_afterCalls {a : ErrorNote} {doc : Node} (hone : AtMostOneBytes doc)
    {earlier : List ErrorNote} (hsame : ∀ b ∈ earlier, b.updateTime = a.updateTime) :
    annotate a (afterCalls earlier doc) = annotate a doc := by
  rcases afterCalls_eq hone hsame with h | ⟨b, hb, h⟩
  · rw [h]
  · rw [h, annotate_annotate hb hone]

/-- **add_error_xml**, for a document with metadata and payload: it sets its
texts, creates code and message and removes the first bytes, and changes nothing
else; its result is true if and only if all its elements exist; and where data
has one bytes at most, earlier calls leave no trace. -/
theorem addErrorXml_annotates (a : ErrorNote) (doc : Node)
    (hmeta : (doc.descend metadataPath).isSome) (hpayload : (doc.descend payloadPath).isSome) :
    OnlyChild "OdeAsn1Data" (OdeNoted a) doc (a.call doc).2 ∧
    ((a.call doc).1 = true ↔ ∀ path ∈ fieldPaths a, (doc.descend path).isSome) ∧
    (AtMostOneBytes doc → ∀ earlier : List ErrorNote,
      (∀ b ∈ earlier, b.updateTime = a.updateTime) →
        (a.call (afterCalls earlier doc)).2 = (a.call doc).2) := by
  refine ⟨?_, addErrorXml_fst hmeta hpayload, fun hone earlier hsame => ?_⟩
  · rw [call_snd, annotate, if_pos ⟨hmeta, hpayload⟩]
    exact onlyChild_mapChild fun n _ => odeNoted_annotateOde a n
  · rw [call_snd, call_snd, annotate_afterCalls hone hsame]

/-- The second of two reports in the error template. -/
theorem addErrorXml_annotates_errorTemplate :
    OnlyChild "OdeAsn1Data" (OdeNoted (requestNote "second" ⟨"t3", "t4"⟩)) errorTemplate
      ((requestNote "second" ⟨"t3", "t4"⟩).call errorTemplate).2 ∧
    ((requestNote "second" ⟨"t3", "t4"⟩).call errorTemplate).1 = true ∧
    ((requestNote "second" ⟨"t3", "t4"⟩).call
        (afterCalls [requestNote "first" ⟨"t1", "t2"⟩] errorTemplate)).2 =
      ((requestNote "second" ⟨"t3", "t4"⟩).call errorTemplate).2 := by
  have h := addErrorXml_annotates (requestNote "second" ⟨"t3", "t4"⟩) errorTemplate rfl rfl
  refine ⟨h.1, h.2.1.mpr ?_, h.2.2 atMostOneBytes_errorTemplate _ ?_⟩
  · decide +kernel
  · rintro b hb
    rw [List.mem_singleton.mp hb]
    rfl

end Asn1Codec
