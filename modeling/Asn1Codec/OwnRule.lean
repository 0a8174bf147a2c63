/-
Asn1Codec/OwnRule.lean

Whether every entry of an encodings list is read under its own rule.

The loop of set_codec_requirements keeps the transfer syntax read last, so a
child without an encodingRule is read under the rule of another entry before
it, and a list is rejected or not depending on what stands first.
`setEntries_ok_iff` is the exact condition under which the loop succeeds; on
lists where every child has a rule the order plays no part.
-/
import Asn1Codec.Requirements
import Asn1Codec.Xml.Reload
import Mathlib.Data.List.Perm.Basic
import Mathlib.Data.List.Nodup

namespace Asn1Codec

open Xml (Node Loc)
open Xml.Node

/-! ### When the loop succeeds -/

/-- The rule an entry carries itself. -/
def givenRule (n : Node) : Option TransferSyntax :=
  (n.childText? "encodingRule").map getAtsTransferSyntax

theorem entrySyntax_eq (n : Node) (ats : TransferSyntax) :
    entrySyntax n ats = (givenRule n).getD ats := by
  rw [entrySyntax, givenRule]
  rcases n.childText? "encodingRule" with - | s
  · rfl
  · rfl

/-- No entry carries a rule that is not known. -/
def NoBadRule (ns : List Node) : Prop := ∀ n ∈ ns, givenRule n ≠ some .invalid

/-- The first child carries a rule. -/
def StartsWithRule (ns : List Node) : Prop := ∃ n ∈ ns.head?, givenRule n ≠ none

/-- One of the three types is named. -/
def NamesType (ns : List Node) : Prop := ∃ n ∈ ns, ∃ td : AsnType, elementType n = td.name

theorem NoBadRule.perm {ns ns' : List Node} (h : NoBadRule ns) (hperm : ns'.Perm ns) :
    NoBadRule ns' := by
  intro n hn
  exact h n (hperm.mem_iff.mp hn)

theorem NamesType.perm {ns ns' : List Node} (h : NamesType ns) (hperm : ns'.Perm ns) :
    NamesType ns' := by
  obtain ⟨n, hn, htd⟩ := h
  exact ⟨n, hperm.mem_iff.mpr hn, htd⟩

theorem run_setEntries_cons (n : Node) (ns : List Node) (ats : TransferSyntax)
    (r : Requirements) :
    (setEntries (n :: ns) ats).run r =
      if (givenRule n).getD ats = .invalid then
        .error (.unparseableInput "Invalid encoding rule in input file.") r
      else (setEntries ns ((givenRule n).getD ats)).run
        (r.request (elementType n) ((givenRule n).getD ats)) := by
  rw [← entrySyntax_eq]
  by_cases h : entrySyntax n ats = .invalid
  · simp [setEntries, h]
  · simp [setEntries, h]

/-- The loop succeeds where no rule is bad and one is in force from the start. -/
theorem setEntries_ok_iff (ns : List Node) (ats : TransferSyntax) (r : Requirements) :
    (∃ s, (setEntries ns ats).run r = .ok () s) ↔
      NoBadRule ns ∧ (ns = [] ∨ ats ≠ .invalid ∨ StartsWithRule ns) := by
  induction ns generalizing ats r with
  | nil => exact ⟨fun _ => ⟨by simp [NoBadRule], .inl rfl⟩, fun _ => ⟨r, rfl⟩⟩
  | cons n ns ih =>
    rw [run_setEntries_cons]
    have hbad : NoBadRule (n :: ns) ↔ givenRule n ≠ some .invalid ∧ NoBadRule ns :=
      List.forall_mem_cons
    have hstart : StartsWithRule (n :: ns) ↔ givenRule n ≠ none := by simp [StartsWithRule]
    rw [hbad, hstart]
    rcases hrule : givenRule n with - | s
    · -- the rule in force stays in force
      rw [Option.getD_none]
      by_cases hats : ats = .invalid
      · simp [hats]
      · simp [hats, ih]
    · rw [Option.getD_some]
      by_cases hs : s = .invalid
      · simp [hs]
      · simp [hs, ih]

/-! ### Acceptance -/

/-- The requirements that set_codec_requirements leaves where it succeeds. -/
def accepted (doc : Node) (r : Requirements) : Option Requirements :=
  match (requirementsFor doc).run r with
  | .ok _ s => some s
  | .error _ _ => none

theorem accepted_eq_some {doc : Node} {r s : Requirements} :
    accepted doc r = some s ↔ (requirementsFor doc).run r = .ok () s := by
  rw [accepted]
  rcases (requirementsFor doc).run r with ⟨u, s'⟩ | ⟨e, s'⟩
  · simp
  · simp

theorem requested_iff_namesType {ns : List Node} {r s : Requirements}
    (h : (setEntries ns .invalid).run r.reset = .ok () s) : s.opsflag ≠ 0 ↔ NamesType ns := by
  have hagree : s.Agree := by
    have hset := agree_setEntries ns .invalid (agree_reset r)
    rwa [h] at hset
  have hrequested : ∀ td, s.requested td = true ↔ ∃ n ∈ ns, elementType n = td.name := by
    intro td
    rw [requested_setEntries h td, requested_reset]
    simp
  constructor
  · intro hops
    by_contra hnone
    have hno : ∀ td, s.requested td = false := by
      intro td
      rw [← Bool.not_eq_true, hrequested]
      rintro ⟨n, hn, htype⟩
      exact hnone ⟨n, hn, td, htype⟩
    -- the three flags are clear, so their bits are
    refine hops (hagree.trans ((opsBits_eq_zero ..).mpr ⟨?_, ?_, ?_⟩))
    · exact hno .ieee1609Dot2Data
    · exact hno .messageFrame
    · exact hno .advisorySituationData
  · rintro ⟨n, hn, td, htype⟩
    exact opsflag_ne_zero hagree ((hrequested td).mpr ⟨n, hn, htype⟩)

/-- What is accepted is what the loop ends with, if something is named. -/
theorem accepted_iff {doc encodings : Node} (hq : select odeEncodingsQuery doc = some encodings)
    {r s : Requirements} : accepted doc r = some s ↔
      (setEntries encodings.children .invalid).run r.reset = .ok () s ∧
        NamesType encodings.children := by
  rw [accepted_eq_some]
  rcases hs : (setEntries encodings.children .invalid).run r.reset with ⟨u, s'⟩ | ⟨e, s'⟩
  · have hnames := requested_iff_namesType hs
    by_cases hzero : s'.opsflag = 0
    · have hno : ¬NamesType encodings.children := fun h => hnames.mpr h hzero
      simp [requirementsFor, hq, hs, hzero, hno]
    · have hyes : NamesType encodings.children := hnames.mp hzero
      simp [requirementsFor, hq, hs, hzero, hyes]
  · simp [requirementsFor, hq, hs]

/-- **Acceptance** of a list: no bad rule, a rule on its first child and a type
that is known. -/
theorem accepted_isSome_iff {doc encodings : Node}
    (hq : select odeEncodingsQuery doc = some encodings) (r : Requirements) :
    (∃ s, accepted doc r = some s) ↔ NoBadRule encodings.children ∧
      StartsWithRule encodings.children ∧ NamesType encodings.children := by
  simp only [accepted_iff hq, exists_and_right, setEntries_ok_iff, ne_eq, not_true_eq_false,
    false_or]
  constructor
  · rintro ⟨⟨hbad, hnil | hstart⟩, hnames⟩
    · obtain ⟨n, hn, -⟩ := hnames
      rw [hnil] at hn
      exact absurd hn (by simp)
    · exact ⟨hbad, hstart, hnames⟩
  · rintro ⟨hbad, hstart, hnames⟩
    exact ⟨⟨hbad, .inr hstart⟩, hnames⟩

/-! ### Entries with rules of their own -/

/-- Every child carries a rule, known or not. -/
def AllGiveRules (ns : List Node) : Prop := ∀ n ∈ ns, givenRule n ≠ none

/-- An entry read under its own rule. -/
def requestOwn (r : Requirements) (n : Node) : Requirements :=
  r.request (elementType n) ((givenRule n).getD .invalid)

theorem run_setEntries_own {ns : List Node} (hgive : AllGiveRules ns) (hbad : NoBadRule ns)
    (ats : TransferSyntax) (r : Requirements) :
    (setEntries ns ats).run r = .ok () (ns.foldl requestOwn r) := by
  induction ns generalizing ats r with
  | nil => rfl
  | cons n ns ih =>
    obtain ⟨hn, hns⟩ := List.forall_mem_cons.mp hgive
    obtain ⟨hn', hns'⟩ := List.forall_mem_cons.mp hbad
    rcases hrule : givenRule n with - | s
    · exact absurd hrule hn
    · rw [run_setEntries_cons, hrule, Option.getD_some]
      have hs : s ≠ .invalid := by
        rintro rfl
        exact hn' hrule
      rw [if_neg hs, ih hns hns', List.foldl_cons, requestOwn, hrule, Option.getD_some]

theorem rule_request_of_ne (r : Requirements) {name : String} {td : AsnType}
    (h : name ≠ td.name) (ats : TransferSyntax) : (r.request name ats).rule td = r.rule td := by
  rw [Requirements.request]
  cases td <;> split_ifs <;> simp_all [Requirements.rule, AsnType.name]

theorem rule_foldl_of_not_named {ns : List Node} {td : AsnType}
    (h : ∀ n ∈ ns, elementType n ≠ td.name) (r : Requirements) :
    (ns.foldl requestOwn r).rule td = r.rule td := by
  induction ns generalizing r with
  | nil => rfl
  | cons n ns ih =>
    obtain ⟨hn, hns⟩ := List.forall_mem_cons.mp h
    rw [List.foldl_cons, ih hns, requestOwn, rule_request_of_ne r hn]

/-- The rule recorded for a type that is named comes from an entry for it. -/
theorem rule_foldl {ns : List Node} {td : AsnType} (h : ∃ n ∈ ns, elementType n = td.name)
    (r : Requirements) : ∃ n ∈ ns, elementType n = td.name ∧
      (ns.foldl requestOwn r).rule td = (givenRule n).getD .invalid := by
  induction ns generalizing r with
  | nil => exact absurd h (by simp)
  | cons n ns ih =>
    rw [List.foldl_cons]
    -- the last entry of the type decides: a later one writes over this one
    by_cases hlater : ∃ n ∈ ns, elementType n = td.name
    · obtain ⟨n', hn', htype, hrule⟩ := ih hlater (requestOwn r n)
      exact ⟨n', List.mem_cons_of_mem _ hn', htype, hrule⟩
    · have hnone : ∀ n' ∈ ns, elementType n' ≠ td.name :=
        fun n' hn' htype => hlater ⟨n', hn', htype⟩
      have htype : elementType n = td.name := by
        obtain ⟨n', hn', htype⟩ := h
        rcases List.mem_cons.mp hn' with rfl | hn'
        · exact htype
        · exact absurd htype (hnone n' hn')
      refine ⟨n, List.mem_cons_self, htype, ?_⟩
      rw [rule_foldl_of_not_named hnone, requestOwn, htype, rule_request, if_pos rfl]

/-- Entries for different types can be read in any order. -/
theorem request_comm (r : Requirements) {a b : String} (hab : a ≠ b) (x y : TransferSyntax) :
    (r.request a x).request b y = (r.request b y).request a x := by
  have hor : ∀ x y z : UInt32, x ||| y ||| z = x ||| z ||| y := by
    intro x y z
    rw [UInt32.or_assoc, UInt32.or_comm y, UInt32.or_assoc]
  unfold Requirements.request
  split_ifs <;> simp_all

theorem foldl_requestOwn_perm {ns ns' : List Node} (hperm : ns'.Perm ns)
    (hdistinct : (ns.map elementType).Nodup) (r : Requirements) :
    ns'.foldl requestOwn r = ns.foldl requestOwn r := by
  apply Eq.symm
  apply hperm.symm.foldl_eq'
  intro x hx y hy z
  by_cases hxy : elementType x = elementType y
  · obtain rfl := List.inj_on_of_nodup_map hdistinct hx hy hxy
    rfl
  · exact request_comm z hxy _ _

/-- Of two states with the same rule for a type the entries make two such. -/
theorem rule_foldl_congr (ns : List Node) {td : AsnType} {r r' : Requirements}
    (h : r.rule td = r'.rule td) :
    (ns.foldl requestOwn r).rule td = (ns.foldl requestOwn r').rule td := by
  induction ns generalizing r r' with
  | nil => exact h
  | cons n ns ih =>
    rw [List.foldl_cons, List.foldl_cons]
    apply ih
    by_cases htype : elementType n = td.name
    · rw [requestOwn, requestOwn, htype, rule_request, rule_request, if_pos rfl, if_pos rfl]
    · rw [requestOwn, requestOwn, rule_request_of_ne r htype, rule_request_of_ne r' htype, h]

/-- An entry for another type does not matter. -/
theorem rule_foldl_drop (pre post : List Node) {m : Node} {td : AsnType}
    (h : elementType m ≠ td.name) (r : Requirements) :
    ((pre ++ m :: post).foldl requestOwn r).rule td =
      ((pre ++ post).foldl requestOwn r).rule td := by
  rw [List.foldl_append, List.foldl_append, List.foldl_cons]
  apply rule_foldl_congr
  rw [requestOwn, rule_request_of_ne _ h]

/-- A list of entries with rules of their own is read entry by entry. -/
theorem accepted_own {doc encodings : Node}
    (hq : select odeEncodingsQuery doc = some encodings)
    (hgive : AllGiveRules encodings.children) (hbad : NoBadRule encodings.children)
    (hnames : NamesType encodings.children) (r : Requirements) :
    accepted doc r = some (encodings.children.foldl requestOwn r.reset) :=
  (accepted_iff hq).mpr ⟨run_setEntries_own hgive hbad _ _, hnames⟩

theorem accepted_eq_none {doc encodings : Node}
    (hq : select odeEncodingsQuery doc = some encodings) {r : Requirements}
    (h : ¬(NoBadRule encodings.children ∧ StartsWithRule encodings.children ∧
      NamesType encodings.children)) : accepted doc r = none := by
  rcases hs : accepted doc r with - | s
  · rfl
  · exact absurd ((accepted_isSome_iff hq r).mp ⟨s, hs⟩) h

/-! ### The law and where it holds -/

/-- Every entry is read under its own rule. -/
structure EachOwnRule (doc encodings : Node) (r : Requirements) : Prop where
  /-- A list is accepted only if every child carries a valid rule. -/
  given : ∀ s, accepted doc r = some s → ∀ n ∈ encodings.children,
    ∃ ats, givenRule n = some ats ∧ ats ≠ .invalid
  /-- The rule recorded for a type comes from an entry for it. -/
  recorded : ∀ s, accepted doc r = some s → ∀ td : AsnType,
    (∃ n ∈ encodings.children, elementType n = td.name) →
      ∃ n ∈ encodings.children, elementType n = td.name ∧ givenRule n = some (s.rule td)
  /-- An entry for another type can be left out. -/
  independent : ∀ s pre m post, accepted doc r = some s →
    encodings.children = pre ++ m :: post → NamesType (pre ++ post) →
    ∀ doc' encodings', select odeEncodingsQuery doc' = some encodings' →
      encodings'.children = pre ++ post → ∃ s', accepted doc' r = some s' ∧
        ∀ td : AsnType, elementType m ≠ td.name → s'.rule td = s.rule td
  /-- Entries for different types can stand in any order. -/
  permuted : (encodings.children.map elementType).Nodup →
    ∀ doc' encodings', select odeEncodingsQuery doc' = some encodings' →
      encodings'.children.Perm encodings.children → accepted doc' r = accepted doc r

/-- No rule is carried from one entry to another, or the list is rejected in
any case: for a bad rule, for want of any rule or of a type that is known, or,
where a type is named twice, for want of a rule on the first child. -/
def NothingCarried (ns : List Node) : Prop :=
  AllGiveRules ns ∨ ¬NoBadRule ns ∨ (∀ n ∈ ns, givenRule n = none) ∨ ¬NamesType ns ∨
    (¬(ns.map elementType).Nodup ∧ ¬StartsWithRule ns)

theorem eachOwnRule_of_all {doc encodings : Node}
    (hq : select odeEncodingsQuery doc = some encodings) (r : Requirements)
    (hgive : AllGiveRules encodings.children) : EachOwnRule doc encodings r := by
  -- an accepted list has no bad rule, so it is read entry by entry
  have hread : ∀ s, accepted doc r = some s → NoBadRule encodings.children ∧
      s = encodings.children.foldl requestOwn r.reset := by
    intro s hs
    obtain ⟨hbad, -, hnames⟩ := (accepted_isSome_iff hq r).mp ⟨s, hs⟩
    exact ⟨hbad, Option.some.inj (hs.symm.trans (accepted_own hq hgive hbad hnames r))⟩
  refine ⟨?_, ?_, ?_, ?_⟩
  · intro s hs n hn
    obtain ⟨ats, hats⟩ := Option.ne_none_iff_exists'.mp (hgive n hn)
    refine ⟨ats, hats, ?_⟩
    rintro rfl
    exact (hread s hs).1 n hn hats
  · intro s hs td htd
    obtain ⟨-, rfl⟩ := hread s hs
    obtain ⟨n, hn, htype, hrule⟩ := rule_foldl htd r.reset
    obtain ⟨ats, hats⟩ := Option.ne_none_iff_exists'.mp (hgive n hn)
    refine ⟨n, hn, htype, ?_⟩
    rw [hrule, hats, Option.getD_some]
  · intro s pre m post hs hsplit hnames doc' encodings' hq' hchildren
    obtain ⟨hbad, rfl⟩ := hread s hs
    have hsub : ∀ n ∈ encodings'.children, n ∈ encodings.children := by
      intro n hn
      rw [hchildren, List.mem_append] at hn
      rw [hsplit, List.mem_append, List.mem_cons]
      exact hn.imp id Or.inr
    refine ⟨_, accepted_own hq' (fun n hn => hgive n (hsub n hn)) (fun n hn => hbad n (hsub n hn))
      (hchildren ▸ hnames) r, ?_⟩
    intro td htd
    rw [hchildren, hsplit, rule_foldl_drop pre post htd]
  · -- entries of different types write different rules, so their order does not matter
    intro hdistinct doc' encodings' hq' hperm
    have hgive' : AllGiveRules encodings'.children := fun n hn => hgive n (hperm.mem_iff.mp hn)
    by_cases hok : NoBadRule encodings.children ∧ NamesType encodings.children
    · obtain ⟨hbad, hnames⟩ := hok
      rw [accepted_own hq hgive hbad hnames,
        accepted_own hq' hgive' (hbad.perm hperm) (hnames.perm hperm),
        foldl_requestOwn_perm hperm hdistinct]
    · rw [accepted_eq_none hq fun h => hok ⟨h.1, h.2.2⟩, accepted_eq_none hq' ?_]
      rintro ⟨hbad', -, hnames'⟩
      exact hok ⟨hbad'.perm hperm.symm, hnames'.perm hperm.symm⟩

/-- A list that is rejected, with all its permutations if the types differ. -/
theorem eachOwnRule_of_rejected {doc encodings : Node}
    (hq : select odeEncodingsQuery doc = some encodings) (r : Requirements)
    (hrejected : ¬(NoBadRule encodings.children ∧ StartsWithRule encodings.children ∧
      NamesType encodings.children))
    (hperm : (encodings.children.map elementType).Nodup → ∀ ns : List Node,
      ns.Perm encodings.children → ¬(NoBadRule ns ∧ StartsWithRule ns ∧ NamesType ns)) :
    EachOwnRule doc encodings r := by
  have hnone := accepted_eq_none hq (r := r) hrejected
  refine ⟨?_, ?_, ?_, ?_⟩
  · intro s hs
    exact absurd (hnone.symm.trans hs) (by simp)
  · intro s hs
    exact absurd (hnone.symm.trans hs) (by simp)
  · intro s _ _ _ hs
    exact absurd (hnone.symm.trans hs) (by simp)
  · intro hdistinct doc' encodings' hq' hp
    rw [hnone, accepted_eq_none hq' (hperm hdistinct _ hp)]

/-- An input with these entries. -/
def encodingsDoc (ns : List Node) : Node :=
  .document [.element "OdeAsn1Data" [] [.element "metadata" [] [.element "encodings" [] ns]]]

theorem select_encodingsDoc (ns : List Node) :
    select odeEncodingsQuery (encodingsDoc ns) = some (.element "encodings" [] ns) := rfl

/-- A list with a rule in it is accepted once a child that has one stands first. -/
theorem exists_perm_accepted {ns : List Node} (hbad : NoBadRule ns) (hnames : NamesType ns)
    (hsome : ∃ n ∈ ns, givenRule n ≠ none) (r : Requirements) :
    ∃ ns' : List Node, ns'.Perm ns ∧ ∃ s, accepted (encodingsDoc ns') r = some s := by
  obtain ⟨n, hn, hrule⟩ := hsome
  obtain ⟨pre, post, hsplit⟩ := List.append_of_mem hn
  have hperm : (n :: (pre ++ post)).Perm ns := by
    rw [hsplit]
    exact List.perm_middle.symm
  refine ⟨n :: (pre ++ post), hperm, ?_⟩
  exact (accepted_isSome_iff (select_encodingsDoc _) r).mpr
    ⟨hbad.perm hperm, ⟨n, rfl, hrule⟩, hnames.perm hperm⟩

/-- **Every entry is read under its own rule**, exactly on the lists in which
nothing is carried from one entry to another. -/
theorem eachOwnRule_iff {doc encodings : Node}
    (hq : select odeEncodingsQuery doc = some encodings) (r : Requirements) :
    EachOwnRule doc encodings r ↔ NothingCarried encodings.children := by
  constructor
  · intro hown
    by_contra hcarried
    simp only [NothingCarried, not_or, not_not, not_and] at hcarried
    obtain ⟨hgive, hbad, hsome, hnames, hstart⟩ := hcarried
    by_cases hfirst : StartsWithRule encodings.children
    · -- the list is accepted although a child has no rule
      obtain ⟨s, hs⟩ := (accepted_isSome_iff hq r).mpr ⟨hbad, hfirst, hnames⟩
      refine hgive fun n hn hnone => ?_
      obtain ⟨ats, hats, -⟩ := hown.given s hs n hn
      exact absurd (hats.symm.trans hnone) (by simp)
    · -- it is rejected, and accepted in another order
      have hdistinct : (encodings.children.map elementType).Nodup := by
        by_contra hdup
        exact hfirst (hstart hdup)
      have hrejected := accepted_eq_none hq (r := r) fun h => hfirst h.2.1
      simp only [not_forall] at hsome
      obtain ⟨n, hn, hrule⟩ := hsome
      obtain ⟨ns, hperm, s, hs⟩ := exists_perm_accepted hbad hnames ⟨n, hn, hrule⟩ r
      have hsame := hown.permuted hdistinct (encodingsDoc ns) _ (select_encodingsDoc ns) hperm
      exact absurd (hs.symm.trans (hsame.trans hrejected)) (by simp)
  · rintro (hgive | hbad | hnone | hnames | ⟨hdup, hfirst⟩)
    · exact eachOwnRule_of_all hq r hgive
    · apply eachOwnRule_of_rejected hq r fun h => hbad h.1
      intro _ ns hperm h
      exact hbad (h.1.perm hperm.symm)
    · have hno : ∀ ns : List Node, ns.Perm encodings.children → ¬StartsWithRule ns := by
        rintro ns hperm ⟨n, hn, hrule⟩
        exact hrule (hnone n (hperm.mem_iff.mp (List.mem_of_mem_head? hn)))
      apply eachOwnRule_of_rejected hq r fun h => hno _ (List.Perm.refl _) h.2.1
      intro _ ns hperm h
      exact hno ns hperm h.2.1
    · apply eachOwnRule_of_rejected hq r fun h => hnames h.2.2
      intro _ ns hperm h
      exact hnames (h.2.2.perm hperm.symm)
    · exact eachOwnRule_of_rejected hq r (fun h => hfirst h.2.1) fun hdistinct =>
        absurd hdistinct hdup

/-- An entry of an encodings list, with or without a rule. -/
def entry (type : String) (rule : Option String) : Node :=
  .element "encodings" [] (.element "elementType" [] [.pcdata type] ::
    rule.toList.map fun s => .element "encodingRule" [] [.pcdata s])

theorem eachOwnRule_iff_complete :
    EachOwnRule
      (encodingsDoc [entry "Ieee1609Dot2Data" (some "COER"), entry "MessageFrame" (some "UPER")])
      (.element "encodings" []
        [entry "Ieee1609Dot2Data" (some "COER"), entry "MessageFrame" (some "UPER")])
      .constructed ↔
    NothingCarried
      [entry "Ieee1609Dot2Data" (some "COER"), entry "MessageFrame" (some "UPER")] :=
  eachOwnRule_iff (select_encodingsDoc _) .constructed

/-- A MessageFrame without a rule is read under the rule of the entry before it,
and the same list in the other order is rejected. -/
theorem rule_carried :
    (∃ s, accepted (encodingsDoc [entry "Ieee1609Dot2Data" (some "COER"),
        entry "MessageFrame" none]) .constructed = some s ∧
      s.decodeMessageframeType = .canonicalOer) ∧
    accepted (encodingsDoc [entry "MessageFrame" none,
      entry "Ieee1609Dot2Data" (some "COER")]) .constructed = none ∧
    ¬EachOwnRule
      (encodingsDoc [entry "Ieee1609Dot2Data" (some "COER"), entry "MessageFrame" none])
      (.element "encodings" [] [entry "Ieee1609Dot2Data" (some "COER"), entry "MessageFrame" none])
      .constructed := by
  refine ⟨⟨_, rfl, rfl⟩, rfl, ?_⟩
  intro hown
  obtain ⟨ats, hats, -⟩ := hown.given _ rfl (entry "MessageFrame" none) (by simp [children])
  have hnone : givenRule (entry "MessageFrame" none) = none := rfl
  exact absurd (hnone.symm.trans hats) (by simp)

end Asn1Codec
