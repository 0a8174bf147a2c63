/-
Asn1Codec/ErrorXml.lean

add_error_xml: the annotation of a document with an error.

The method is a sequence of edits aimed at fixed places, each of which is
skipped when its place is missing.  `addErrorXml` follows the statements;
`annotate` is the same edit of the document as one nested function
(`addErrorXml_eq`).  In the nested form it is a short calculation that a later
annotation absorbs an earlier one (`annotate_annotate`), provided that at most
one bytes child stands under data, since each call removes one.
-/
import Asn1Codec.Types

namespace Asn1Codec

open Xml (Node Loc)
open Xml.Node

/-! ### The method -/

def metadataPath : List String := ["OdeAsn1Data", "metadata"]

def payloadPath : List String := ["OdeAsn1Data", "payload"]

def dataPath : List String := ["OdeAsn1Data", "payload", "data"]

/-- A chain of child lookups ended by `.text().set(v)`: whether the last child
exists, and the document. -/
def setTextAt (path : List String) (v : String) (doc : Node) : Bool × Node :=
  ((doc.descend path).isSome, mapPath (setText v) path doc)

/-- add_error_xml: whether every field could be set, and the document. -/
def addErrorXml (doc : Node) (dt : Asn1DataType) (et : Asn1ErrorType) (message : String)
    (updateTime : Bool) (now : Clock) : Bool × Node :=
  if (doc.descend metadataPath).isNone then (false, doc)
  else if (doc.descend payloadPath).isNone then (false, doc)
  else
    let (r₁, doc) := setTextAt (metadataPath ++ ["payloadType"]) (asn1datatypes .payload) doc
    let (r₂, doc) :=
      if updateTime then setTextAt (metadataPath ++ ["receivedAt"]) now.receivedAt doc
      else (true, doc)
    let (r₃, doc) := setTextAt (metadataPath ++ ["generatedAt"]) now.generatedAt doc
    let (r₄, doc) := setTextAt (payloadPath ++ ["dataType"]) (asn1datatypes dt) doc
    -- a noop when bytes, or data itself, does not exist
    let doc := mapPath (removeChild "bytes") dataPath doc
    let doc := mapPath (ensureChild "code") dataPath doc
    let doc := mapPath (ensureChild "message") dataPath doc
    let (r₅, doc) := setTextAt (dataPath ++ ["code"]) (asn1errortypes et) doc
    let (r₆, doc) := setTextAt (dataPath ++ ["message"]) message doc
    (r₁ && r₂ && r₃ && r₄ && r₅ && r₆, doc)

/-! ### The edit as a nested function -/

/-- What one call of add_error_xml is given besides the document. -/
structure ErrorNote where
  dt : Asn1DataType
  et : Asn1ErrorType
  message : String
  updateTime : Bool
  now : Clock

/-- The texts that it sets in metadata. -/
def annotateMetadata (a : ErrorNote) (n : Node) : Node :=
  let n := n.mapChild "payloadType" (setText (asn1datatypes .payload))
  let n := if a.updateTime then n.mapChild "receivedAt" (setText a.now.receivedAt) else n
  n.mapChild "generatedAt" (setText a.now.generatedAt)

/-- The children that it takes from data and gives to it. -/
def annotateData (a : ErrorNote) (n : Node) : Node :=
  let n := ensureChild "message" (ensureChild "code" (removeChild "bytes" n))
  (n.mapChild "code" (setText (asn1errortypes a.et))).mapChild "message" (setText a.message)

def annotatePayload (a : ErrorNote) (n : Node) : Node :=
  (n.mapChild "dataType" (setText (asn1datatypes a.dt))).mapChild "data" (annotateData a)

def annotateOde (a : ErrorNote) (n : Node) : Node :=
  (n.mapChild "metadata" (annotateMetadata a)).mapChild "payload" (annotatePayload a)

/-- The document add_error_xml leaves. -/
def annotate (a : ErrorNote) (doc : Node) : Node :=
  if (doc.descend metadataPath).isSome ∧ (doc.descend payloadPath).isSome then
    doc.mapChild "OdeAsn1Data" (annotateOde a)
  else doc

@[simp] theorem named_removeChild (s t : String) (n : Node) :
    (n.removeChild t).named s = n.named s := named_withChildren ..

@[simp] theorem named_appendChild (s : String) (n c : Node) :
    (n.appendChild c).named s = n.named s := named_withChildren ..

@[simp] theorem named_ensureChild (s t : String) (n : Node) :
    (n.ensureChild t).named s = n.named s := by
  rw [ensureChild]
  split
  · exact named_appendChild ..
  · rfl

@[simp] theorem named_annotateData (s : String) (a : ErrorNote) (n : Node) :
    (annotateData a n).named s = n.named s := by
  simp [annotateData]

@[simp] theorem named_annotateMetadata (s : String) (a : ErrorNote) (n : Node) :
    (annotateMetadata a n).named s = n.named s := by
  rw [annotateMetadata]
  split <;> simp

@[simp] theorem named_annotatePayload (s : String) (a : ErrorNote) (n : Node) :
    (annotatePayload a n).named s = n.named s := by
  simp [annotatePayload]

@[simp] theorem named_annotateOde (s : String) (a : ErrorNote) (n : Node) :
    (annotateOde a n).named s = n.named s := by
  simp [annotateOde]

/-- Edits of one child, one after the other, are one edit of it. -/
theorem mapChild_mapChild' {s : String} {f g : Node → Node}
    (hf : ∀ n, (f n).named s = n.named s) (n : Node) :
    (n.mapChild s f).mapChild s g = n.mapChild s fun m => g (f m) :=
  mapChild_mapChild s f g hf n

/-- **The statements of add_error_xml amount to `annotate`.** -/
theorem addErrorXml_eq (doc : Node) (a : ErrorNote) :
    (addErrorXml doc a.dt a.et a.message a.updateTime a.now).2 = annotate a doc := by
  unfold addErrorXml annotate
  rcases hm : doc.descend metadataPath with - | m
  · simp
  rcases hp : doc.descend payloadPath with - | p
  · simp
  simp only [Option.isNone_some, Bool.false_eq_true, if_false, Option.isSome_some, and_self,
    if_true]
  -- both sides edit the first OdeAsn1Data; collect the edits of the left side there
  have hcollect : ∀ d : Node,
      mapPath (setText a.message) (dataPath ++ ["message"])
        (mapPath (setText (asn1errortypes a.et)) (dataPath ++ ["code"])
          (mapPath (ensureChild "message") dataPath
            (mapPath (ensureChild "code") dataPath
              (mapPath (removeChild "bytes") dataPath
                (mapPath (setText (asn1datatypes a.dt)) (payloadPath ++ ["dataType"]) d))))) =
      d.mapChild "OdeAsn1Data" fun n => n.mapChild "payload" (annotatePayload a) := by
    intro d
    have hnamed (s : String) (f : Node → Node) (t : String) (n : Node) :
        (n.mapChild s f).named t = n.named t := named_mapChild t s f n
    simp only [mapPath, dataPath, payloadPath, List.cons_append, List.nil_append,
      mapChild_mapChild', hnamed, named_removeChild, named_ensureChild, implies_true]
    rfl
  have hmeta : ∀ d : Node,
      mapPath (setText a.now.generatedAt) (metadataPath ++ ["generatedAt"])
        (if a.updateTime = true then
          mapPath (setText a.now.receivedAt) (metadataPath ++ ["receivedAt"])
            (mapPath (setText (asn1datatypes .payload)) (metadataPath ++ ["payloadType"]) d)
        else mapPath (setText (asn1datatypes .payload)) (metadataPath ++ ["payloadType"]) d) =
      d.mapChild "OdeAsn1Data" fun n => n.mapChild "metadata" (annotateMetadata a) := by
    intro d
    simp only [mapPath, metadataPath, List.cons_append, List.nil_append]
    unfold annotateMetadata
    split <;> simp only [mapChild_mapChild', named_mapChild, implies_true]
  have hboth : ∀ d : Node,
      (d.mapChild "OdeAsn1Data" fun n => n.mapChild "metadata" (annotateMetadata a)).mapChild
        "OdeAsn1Data" (fun n => n.mapChild "payload" (annotatePayload a)) =
      d.mapChild "OdeAsn1Data" (annotateOde a) := by
    intro d
    rw [mapChild_mapChild' (by simp)]
    rfl
  rw [← hboth, ← hmeta, ← hcollect]
  rcases a.updateTime with - | - <;> rfl

/-! ### A later annotation absorbs an earlier one -/

/-- The texts of the later call are the ones that stay. -/
theorem annotateMetadata_annotateMetadata {a b : ErrorNote} (hab : a.updateTime = b.updateTime)
    (n : Node) : annotateMetadata b (annotateMetadata a n) = annotateMetadata b n := by
  -- the later edit of each child is moved next to the earlier one
  have hpg := @mapChild_setText_comm "payloadType" "generatedAt" (by decide)
  have hrg := @mapChild_setText_comm "receivedAt" "generatedAt" (by decide)
  have hpr := @mapChild_setText_comm "payloadType" "receivedAt" (by decide)
  unfold annotateMetadata
  rcases hu : b.updateTime with - | -
  · simp only [hab, hu, Bool.false_eq_true, if_false, hpg, mapChild_setText_setText]
  · simp only [hab, hu, if_true, hpg, hrg, hpr, mapChild_setText_setText]

/-- There is nothing to be removed. -/
theorem removeChild_of_child_eq_none {n : Node} {s : String} (h : n.child s = none) :
    n.removeChild s = n := by
  have hnone : n.children.eraseP (named s) = n.children :=
    List.eraseP_of_forall_not fun m hm => by simpa using List.find?_eq_none.mp h m hm
  rw [removeChild, hnone, withChildren_children]

/-- A new child does not hide another one. -/
theorem child_ensureChild_of_ne {s t : String} (h : s ≠ t) (n : Node) :
    (n.ensureChild s).child t = n.child t := by
  rw [ensureChild]
  split
  · cases n <;>
      simp [child, appendChild, withChildren, children, named, List.find?_append, h]
  · rfl

theorem child_ensureChild {s t : String} {n : Node} (hn : n.named t = true) :
    ((n.ensureChild s).child s).isSome := by
  obtain ⟨as, cs, rfl⟩ := named_iff.mp hn
  rw [ensureChild]
  split
  · simp [child, appendChild, withChildren, children, named, List.find?_append]
  · rename_i h
    simpa [Option.isSome_iff_ne_none] using h

/-- There is nothing to be added. -/
theorem ensureChild_of_child {s : String} {n : Node} (h : (n.child s).isSome) :
    n.ensureChild s = n := by
  obtain ⟨c, hc⟩ := Option.isSome_iff_exists.mp h
  simp [ensureChild, hc]

/-- Removing the only child of a name leaves none. -/
theorem child_removeChild {s t : String} {n : Node} (hn : n.named t = true)
    (hone : (n.children.filter (named s)).length ≤ 1) : (n.removeChild s).child s = none := by
  obtain ⟨as, cs, rfl⟩ := named_iff.mp hn
  simp only [removeChild, child, children, withChildren] at hone ⊢
  clear hn
  induction cs with
  | nil => rfl
  | cons c cs ih =>
    rcases hc : c.named s with - | -
    · simp only [List.filter_cons, hc, Bool.false_eq_true, if_false] at hone
      simpa [List.eraseP_cons, hc] using ih hone
    · have hnil : cs.filter (named s) = [] := by
        simpa [List.filter_cons, hc] using hone
      simpa [List.eraseP_cons, hc, List.find?_eq_none] using List.filter_eq_nil_iff.mp hnil

/-- The later call finds no bytes, and both children, and sets their texts anew. -/
theorem annotateData_annotateData {a b : ErrorNote} {n : Node} (hn : n.named "data" = true)
    (hone : (n.children.filter (named "bytes")).length ≤ 1) :
    annotateData b (annotateData a n) = annotateData b n := by
  -- `k` is the data node after the structural part of the first annotation
  let k := ensureChild "message" (ensureChild "code" (removeChild "bytes" n))
  have hkcode : (k.child "code").isSome := by
    show ((ensureChild "message" _).child "code").isSome
    rw [child_ensureChild_of_ne (by decide)]
    exact child_ensureChild (t := "data") (by simpa using hn)
  have hkmsg : (k.child "message").isSome :=
    child_ensureChild (t := "data") (by simpa using hn)
  have hkbytes : k.child "bytes" = none := by
    show (ensureChild "message" _).child "bytes" = none
    rw [child_ensureChild_of_ne (by decide), child_ensureChild_of_ne (by decide)]
    exact child_removeChild hn hone
  let m := (k.mapChild "code" (setText (asn1errortypes a.et))).mapChild "message"
    (setText a.message)
  have hm : annotateData a n = m := rfl
  have hmbytes : m.child "bytes" = none := by
    show ((k.mapChild "code" _).mapChild "message" _).child "bytes" = none
    rw [child_mapChild_of_ne (by decide) _ (by simp), child_mapChild_of_ne (by decide) _ (by simp)]
    exact hkbytes
  have hmcode : (m.child "code").isSome := by
    show (((k.mapChild "code" _).mapChild "message" _).child "code").isSome
    rw [child_mapChild_of_ne (by decide) _ (by simp), child_mapChild "code" _ (by simp)]
    simpa using hkcode
  have hmmsg : (m.child "message").isSome := by
    show (((k.mapChild "code" _).mapChild "message" _).child "message").isSome
    rw [child_mapChild "message" _ (by simp), child_mapChild_of_ne (by decide) _ (by simp)]
    simpa using hkmsg
  have hstruct : ensureChild "message" (ensureChild "code" (removeChild "bytes" m)) = m := by
    rw [removeChild_of_child_eq_none hmbytes, ensureChild_of_child hmcode,
      ensureChild_of_child hmmsg]
  calc annotateData b (annotateData a n)
      = (m.mapChild "code" (setText (asn1errortypes b.et))).mapChild "message"
          (setText b.message) := by rw [hm, annotateData, hstruct]
    _ = annotateData b n := by
        show ((((k.mapChild "code" _).mapChild "message" _).mapChild "code" _).mapChild
          "message" _) = (k.mapChild "code" _).mapChild "message" _
        rw [@mapChild_setText_comm "code" "message" (by decide), mapChild_setText_setText,
          mapChild_setText_setText]

/-- The edits of dataType and of data are apart. -/
theorem annotatePayload_annotatePayload {a b : ErrorNote} {n : Node}
    (hone : ∀ d, n.child "data" = some d → (d.children.filter (named "bytes")).length ≤ 1) :
    annotatePayload b (annotatePayload a n) = annotatePayload b n := by
  have hdt (f : Node → Node) (hf : ∀ s m, (f m).named s = m.named s) (w : String) (x : Node) :
      (x.mapChild "data" f).mapChild "dataType" (setText w) =
        (x.mapChild "dataType" (setText w)).mapChild "data" f :=
    mapChild_comm (by decide) _ _ (by simp) (fun m => hf _ m) x
  unfold annotatePayload
  rw [hdt _ (by simp), mapChild_setText_setText, mapChild_mapChild' (by simp)]
  refine mapChild_congr fun d hd => ?_
  rw [child_mapChild_of_ne (by decide) _ (by simp)] at hd
  exact annotateData_annotateData (child_named hd) (hone d hd)

/-- At most one bytes child stands under the first OdeAsn1Data/payload/data. -/
def AtMostOneBytes (doc : Node) : Prop :=
  ∀ d, doc.descend dataPath = some d → (d.children.filter (named "bytes")).length ≤ 1

theorem child_annotateOde_isSome (a : ErrorNote) (n : Node) (s : String) :
    ((annotateOde a n).child s).isSome = (n.child s).isSome := by
  rw [annotateOde]
  rcases eq_or_ne "payload" s with rfl | hp
  · rw [child_mapChild "payload" _ (by simp), child_mapChild_of_ne (by decide) _ (by simp)]
    simp
  · rw [child_mapChild_of_ne hp _ (by simp)]
    rcases eq_or_ne "metadata" s with rfl | hm
    · rw [child_mapChild "metadata" _ (by simp)]
      simp
    · rw [child_mapChild_of_ne hm _ (by simp)]

/-- Annotating keeps the two places whose absence would stop it. -/
theorem descend_annotate_isSome (a : ErrorNote) (doc : Node) (s : String) :
    ((annotate a doc).descend ["OdeAsn1Data", s]).isSome =
      (doc.descend ["OdeAsn1Data", s]).isSome := by
  rw [annotate]
  split
  · simp only [descend_cons, descend_nil]
    rw [child_mapChild "OdeAsn1Data" _ (by simp)]
    rcases doc.child "OdeAsn1Data" with - | n
    · rfl
    · have h := child_annotateOde_isSome a n s
      rcases h₁ : (annotateOde a n).child s with - | x <;> rcases h₂ : n.child s with - | y <;>
        simp_all
  · rfl

/-- **A later annotation absorbs an earlier one**, for calls that agree on
whether receivedAt is to be updated. -/
theorem annotate_annotate {a b : ErrorNote} (hab : a.updateTime = b.updateTime) {doc : Node}
    (hone : AtMostOneBytes doc) : annotate b (annotate a doc) = annotate b doc := by
  by_cases hplaces : (doc.descend metadataPath).isSome ∧ (doc.descend payloadPath).isSome
  · have hplaces' : ((annotate a doc).descend metadataPath).isSome ∧
        ((annotate a doc).descend payloadPath).isSome := by
      rw [metadataPath, payloadPath, descend_annotate_isSome, descend_annotate_isSome]
      exact hplaces
    have hmp (f g : Node → Node) (hf : ∀ s m, (f m).named s = m.named s)
        (hg : ∀ s m, (g m).named s = m.named s) (x : Node) :
        (x.mapChild "payload" g).mapChild "metadata" f =
          (x.mapChild "metadata" f).mapChild "payload" g :=
      mapChild_comm (by decide) _ _ (fun m => hf _ m) (fun m => hg _ m) x
    have hode : ∀ n, doc.child "OdeAsn1Data" = some n →
        annotateOde b (annotateOde a n) = annotateOde b n := by
      intro n hn
      unfold annotateOde
      rw [hmp _ _ (by simp) (by simp), mapChild_mapChild' (by simp), mapChild_mapChild' (by simp)]
      simp only [annotateMetadata_annotateMetadata hab]
      refine mapChild_congr fun p hpay => annotatePayload_annotatePayload fun d hd => hone d ?_
      rw [child_mapChild_of_ne (by decide) _ (by simp)] at hpay
      simp [dataPath, descend_cons, hn, hpay, hd]
    calc annotate b (annotate a doc)
        = (annotate a doc).mapChild "OdeAsn1Data" (annotateOde b) := if_pos hplaces'
      _ = (doc.mapChild "OdeAsn1Data" (annotateOde a)).mapChild "OdeAsn1Data"
            (annotateOde b) := by rw [show annotate a doc = _ from if_pos hplaces]
      _ = doc.mapChild "OdeAsn1Data" fun n => annotateOde b (annotateOde a n) :=
          mapChild_mapChild' (by simp) doc
      _ = doc.mapChild "OdeAsn1Data" (annotateOde b) := mapChild_congr hode
      _ = annotate b doc := (if_pos hplaces).symm
  · have ha : annotate a doc = doc := if_neg hplaces
    rw [ha]

end Asn1Codec
