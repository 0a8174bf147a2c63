/-
Asn1Codec/Conformance.lean

j2735_2020_conformance_check against the elements of a message frame.

The check is meant to refuse frames with elements that the 2020 standard does
not have any more, and it searches the text of the frame for their names.  It
refuses every frame with such an element.  It also refuses a frame that only
mentions one of the names: in a text, in an attribute, or as a part of the name
of another element.
-/
import Asn1Codec.Encode
import Asn1Codec.Xml.Reload
import Asn1Codec.Xml.Search

namespace Asn1Codec

open Xml (Node Word)
open Xml.Node

/-! ### Outdated names -/

/-- An element of the tree has an outdated name. -/
def HasOutdatedElement (frame : Node) : Prop := ∃ s ∈ frame.elementNames, s ∈ outdatedElements

/-- An outdated name occurs in a string of the tree: in the name of an element,
in the name or the value of an attribute, or in character data. -/
def MentionsOutdated (frame : Node) : Prop :=
  ∃ t ∈ frame.strings, ∃ w ∈ outdatedElements, containsText t w = true

theorem word_of_outdated {w : String} (hw : w ∈ outdatedElements) : Word w.toList := by
  have hall : ∀ w ∈ outdatedElements,
      w.toList.all Char.isAlphanum = true ∧ 5 < w.toList.length := by decide
  obtain ⟨hplain, hlong⟩ := hall w hw
  exact ⟨List.all_eq_true.mp hplain, hlong⟩

theorem containsText_iff {s t : String} : containsText s t = true ↔ t.toList <:+: s.toList :=
  decide_eq_true_iff

/-- Who has an outdated element mentions it. -/
theorem HasOutdatedElement.mentions {frame : Node} (hf : frame.IsTree)
    (h : HasOutdatedElement frame) : MentionsOutdated frame := by
  obtain ⟨s, hs, hout⟩ := h
  exact ⟨s, elementNames_subset frame hf hs, s, hout, containsText_iff.mpr List.infix_rfl⟩

/-! ### The check -/

theorem print_ne_empty {frame : Node} (hf : frame.IsTree) (hel : frame.isElement = true) :
    frame.print ≠ "" := by
  intro hempty
  have hne : ∀ v, frame ≠ .pcdata v := by
    rintro v rfl
    exact absurd hel (by simp [isElement])
  obtain ⟨m, hm⟩ := toList_print_bracketed hf hne
  rw [hempty] at hm
  exact absurd hm (by simp)

/-- The check passes the trees in which no outdated name is mentioned. -/
theorem j2735_2020ConformanceCheck_print {frame : Node} (hf : frame.IsTree)
    (hel : frame.isElement = true) :
    j2735_2020ConformanceCheck frame.print = true ↔ ¬ MentionsOutdated frame := by
  -- a word of the list holds no markup, so it stands in one string of the tree or nowhere
  have hsearch : outdatedElements.any (containsText frame.print) = true ↔
      MentionsOutdated frame := by
    rw [List.any_eq_true]
    constructor
    · rintro ⟨w, hw, hfound⟩
      obtain ⟨t, ht, hin⟩ :=
        (infix_print (word_of_outdated hw) frame hf).mp (containsText_iff.mp hfound)
      exact ⟨t, ht, w, hw, containsText_iff.mpr hin⟩
    · rintro ⟨t, ht, w, hw, hin⟩
      refine ⟨w, hw, containsText_iff.mpr ?_⟩
      exact (infix_print (word_of_outdated hw) frame hf).mpr ⟨t, ht, containsText_iff.mp hin⟩
  rw [j2735_2020ConformanceCheck, Bool.and_eq_true, Bool.not_eq_true', ← Bool.not_eq_true,
    hsearch]
  exact and_iff_right (bne_iff_ne.mpr (print_ne_empty hf hel))

/-- A frame that mentions an outdated name is not encoded. -/
theorem frameHex_mentions {V : Type} (E : Externals V) (ats : TransferSyntax) {frame : Node}
    (hf : frame.IsTree) (hel : frame.isElement = true) (h : MentionsOutdated frame) :
    frameHex E J2735MESSAGEFRAME ats frame.print =
      .error (.asn1Codec "J2735 2020 conformance check failed.") := by
  have hfails : ¬ j2735_2020ConformanceCheck frame.print = true := fun hpass =>
    (j2735_2020ConformanceCheck_print hf hel).mp hpass h
  have hstruct : dataStruct J2735MESSAGEFRAME frame.print =
      .error (.asn1Codec "J2735 2020 conformance check failed.") := by
    rw [dataStruct, if_pos rfl, if_neg hfails]
  rw [frameHex, hstruct]

/-- **When the check is exact.**  It passes the trees without an outdated
element, and no other, exactly when one of the elements is outdated or none of
the strings mentions an outdated name. -/
theorem conformanceCheck_exact_iff {frame : Node} (hf : frame.IsTree)
    (hel : frame.isElement = true) :
    (j2735_2020ConformanceCheck frame.print = true ↔ ¬ HasOutdatedElement frame) ↔
      HasOutdatedElement frame ∨ ¬ MentionsOutdated frame := by
  rw [j2735_2020ConformanceCheck_print hf hel]
  constructor
  · intro hexact
    by_cases helem : HasOutdatedElement frame
    · exact Or.inl helem
    · exact Or.inr (hexact.mpr helem)
  · rintro (helem | hnone)
    · exact ⟨fun hm => absurd (helem.mentions hf) hm, fun hn => absurd helem hn⟩
    · exact ⟨fun _ helem => hnone (helem.mentions hf), fun _ => hnone⟩

/-- A message frame with traveler information that names a URL. -/
def signFrame (url : String) : Node :=
  .element "MessageFrame" [] [.element "messageId" [] [.pcdata "31"],
    .element "value" [] [.element "TravelerInformation" [] [.element "msgCnt" [] [.pcdata "1"],
      .element "urlB" [] [.pcdata url]]]]

theorem conformanceCheck_exact_iff_signFrame :
    (j2735_2020ConformanceCheck (signFrame "www.itis.org").print = true ↔
        ¬ HasOutdatedElement (signFrame "www.itis.org")) ↔
      HasOutdatedElement (signFrame "www.itis.org") ∨
        ¬ MentionsOutdated (signFrame "www.itis.org") :=
  conformanceCheck_exact_iff (by simp [signFrame, IsTree, AllTrees]) rfl

/-- A text and a longer element name, and neither frame has an outdated element. -/
theorem conformanceCheck_not_exact :
    (¬ HasOutdatedElement (signFrame "www.itis.org/sspTimRights") ∧
      ¬ j2735_2020ConformanceCheck (signFrame "www.itis.org/sspTimRights").print = true) ∧
    ¬ HasOutdatedElement (.element "MessageFrame" [] [.element "sspMsgRights10" [] []]) ∧
      ¬ j2735_2020ConformanceCheck
        (Node.element "MessageFrame" [] [.element "sspMsgRights10" [] []]).print = true := by
  refine ⟨⟨?_, fun hpass => ?_⟩, ?_, fun hpass => ?_⟩
  · rintro ⟨s, hs, hout⟩
    revert s
    decide
  · have hmention : MentionsOutdated (signFrame "www.itis.org/sspTimRights") :=
      ⟨"www.itis.org/sspTimRights", by simp [signFrame, strings, stringsAll], "sspTimRights",
        by simp [outdatedElements], containsText_iff.mpr ⟨"www.itis.org/".toList, [], rfl⟩⟩
    exact (j2735_2020ConformanceCheck_print (by simp [signFrame, IsTree, AllTrees]) rfl).mp
      hpass hmention
  · rintro ⟨s, hs, hout⟩
    revert s
    decide
  · have hmention :
        MentionsOutdated (.element "MessageFrame" [] [.element "sspMsgRights10" [] []]) :=
      ⟨"sspMsgRights10", by simp [strings, stringsAll], "sspMsgRights1",
        by simp [outdatedElements], containsText_iff.mpr ⟨[], ['0'], rfl⟩⟩
    exact (j2735_2020ConformanceCheck_print (by simp [IsTree, AllTrees]) rfl).mp hpass hmention

end Asn1Codec
