/-
Asn1Codec/Requirements.lean

set_codec_requirements: from the encodings list of a document to the flags and
transfer syntaxes that direct one conversion.

The loop over the entries carries the transfer syntax read last, so an entry
without a rule of its own uses that of an earlier entry.  Of the members it
sets, all are re-established at the start except `decodeAsdframeType`.  That
one is read only where `decodeAsdframe` is set, and then it has been assigned:
`requirementsFor_effective` states that up to this unread member the result is
a function of the document.

The operation bits and the flags are two records of the same choice
(`Requirements.Agree`): the encoder reads the bits, the decoder the flags.
-/
import Asn1Codec.Types

namespace Asn1Codec

open Xml (Node Loc)
open Xml.Node

/-! ### The method -/

/-- get_ats_transfer_syntax. -/
def getAtsTransferSyntax (ats : String) : TransferSyntax :=
  if ats = "UPER" then .unalignedBasicPer
  else if ats = "COER" then .canonicalOer
  else if ats = "XER" then .basicXer
  else if ats = "CPER" then .unalignedCanonicalPer
  else if ats = "CXER" then .canonicalXer
  else if ats = "BER" then .ber
  else if ats = "DER" then .der
  else if ats = "CER" then .cer
  else .invalid

/-- The path of `ode_encodings_query`. -/
def odeEncodingsQuery : List String := ["OdeAsn1Data", "metadata", "encodings"]

/-- The path of `ode_payload_query`. -/
def odePayloadQuery : List String := ["OdeAsn1Data", "payload", "data"]

/-- `n.child("elementType").text().get()`. -/
def elementType (n : Node) : String := (n.childText? "elementType").getD ""

/-- The transfer syntax in force after an entry's rule has been looked at. -/
def entrySyntax (n : Node) (atstype : TransferSyntax) : TransferSyntax :=
  match n.childText? "encodingRule" with
  | some s => getAtsTransferSyntax s
  | none => atstype

/-- What an entry of the given element type does to the requirements. -/
def Requirements.request (r : Requirements) (name : String) (atstype : TransferSyntax) :
    Requirements :=
  if name = "Ieee1609Dot2Data" then
    { r with opsflag := r.opsflag ||| IEEE1609DOT2, decode1609dot2 := true,
             decode1609dot2Type := atstype }
  else if name = "MessageFrame" then
    { r with opsflag := r.opsflag ||| J2735MESSAGEFRAME, decodeMessageframe := true,
             decodeMessageframeType := atstype }
  else if name = "AdvisorySituationData" then
    { r with opsflag := r.opsflag ||| ASDFRAME, decodeAsdframe := true,
             decodeAsdframeType := atstype }
  else r

/-- The loop over the children of the encodings node. -/
def setEntries : List Node → TransferSyntax → EStateM Exn Requirements Unit
  | [], _ => pure ()
  | n :: ns, atstype => do
    let atstype := entrySyntax n atstype
    if atstype = .invalid then
      throw (.unparseableInput "Invalid encoding rule in input file.")
    modify fun r => r.request (elementType n) atstype
    setEntries ns atstype

/-- The defaults re-established for every message; `decodeAsdframeType` is not
among them. -/
def Requirements.reset (r : Requirements) : Requirements :=
  { r with opsflag := 0, decode1609dot2 := false, decodeMessageframe := false,
           decodeAsdframe := false, decode1609dot2Type := .canonicalOer,
           decodeMessageframeType := .unalignedBasicPer }

/-- The members as the constructor of the codec leaves them. -/
def Requirements.constructed : Requirements :=
  ⟨0, false, false, false, .canonicalOer, .unalignedBasicPer, .unalignedBasicPer⟩

/-- set_codec_requirements on the members it sets, for the document `doc`. -/
def requirementsFor (doc : Node) : EStateM Exn Requirements Unit := do
  modify Requirements.reset
  match select odeEncodingsQuery doc with
  | none =>
    throw (.unparseableInput
      "Failed to find path: OdeAsn1Data/metadata/encodings in the input file.")
  | some encodings =>
    setEntries encodings.children .invalid
    if (← get).opsflag = 0 then
      throw (.unparseableInput "Input file did not specify any encoding/decoding operations.")

/-- The ways in which requirementsFor ends. -/
theorem requirementsFor_cases (doc : Node) (r : Requirements) :
    (∃ what, (requirementsFor doc).run r = .error (.unparseableInput what) r.reset) ∨
    ∃ encodings, select odeEncodingsQuery doc = some encodings ∧
      ((∃ e s, (setEntries encodings.children .invalid).run r.reset = .error e s ∧
          (requirementsFor doc).run r = .error e s) ∨
        (∃ what s, (setEntries encodings.children .invalid).run r.reset = .ok () s ∧
          s.opsflag = 0 ∧ (requirementsFor doc).run r = .error (.unparseableInput what) s) ∨
        ∃ s, (setEntries encodings.children .invalid).run r.reset = .ok () s ∧
          s.opsflag ≠ 0 ∧ (requirementsFor doc).run r = .ok () s) := by
  rcases hq : select odeEncodingsQuery doc with - | encodings
  · refine Or.inl
      ⟨"Failed to find path: OdeAsn1Data/metadata/encodings in the input file.", ?_⟩
    simp [requirementsFor, hq]
  refine Or.inr ⟨encodings, rfl, ?_⟩
  rcases hs : (setEntries encodings.children .invalid).run r.reset with ⟨u, s⟩ | ⟨e, s⟩
  · by_cases h0 : s.opsflag = 0
    · refine Or.inr (Or.inl ⟨"Input file did not specify any encoding/decoding operations.", s,
        rfl, h0, ?_⟩)
      simp [requirementsFor, hq, hs, h0]
    · exact Or.inr (Or.inr ⟨s, rfl, h0, by simp [requirementsFor, hq, hs, h0]⟩)
  · exact Or.inl ⟨e, s, rfl, by simp [requirementsFor, hq, hs]⟩

def setCodecRequirements : CodecM Unit := do
  let doc := (← get).inputDoc
  onRequirements (requirementsFor doc)

theorem run_setCodecRequirements (c : Codec) : setCodecRequirements.run c =
    match (requirementsFor c.inputDoc).run c.req with
    | .ok u r => .ok u { c with req := r }
    | .error e r => .error e { c with req := r } := by
  show onRequirements (requirementsFor c.inputDoc) c = _
  unfold onRequirements EStateM.run
  rcases requirementsFor c.inputDoc c.req with ⟨u, r⟩ | ⟨e, r⟩ <;> rfl

/-! ### Bits and flags -/

/-- The operation bits that belong to three flags. -/
def opsBits (ieee messageframe asd : Bool) : UInt32 :=
  (if ieee then IEEE1609DOT2 else 0) ||| (if messageframe then J2735MESSAGEFRAME else 0) |||
    (if asd then ASDFRAME else 0)

/-- The operation bits say what the flags say. -/
def Requirements.Agree (r : Requirements) : Prop :=
  r.opsflag = opsBits r.decode1609dot2 r.decodeMessageframe r.decodeAsdframe

theorem agree_reset (r : Requirements) : r.reset.Agree := by
  show (0 : UInt32) = opsBits false false false
  decide

theorem agree_request {r : Requirements} (h : r.Agree) (name : String) (ats : TransferSyntax) :
    (r.request name ats).Agree := by
  obtain ⟨ops, d16, mf, asd, t16, tmf, tasd⟩ := r
  -- the bit and the flag of a type are set together
  obtain rfl : ops = opsBits d16 mf asd := h
  rw [Requirements.request]
  split_ifs <;> revert d16 mf asd <;> simp only [Requirements.Agree] <;> decide

theorem agree_setEntries (ns : List Node) (ats : TransferSyntax) {r : Requirements} (h : r.Agree) :
    (finalState ((setEntries ns ats).run r)).Agree := by
  induction ns generalizing ats r with
  | nil => exact h
  | cons n ns ih =>
    by_cases hats : entrySyntax n ats = .invalid
    · simpa [setEntries, hats] using h
    · simpa [setEntries, hats] using ih (entrySyntax n ats) (agree_request h _ _)

theorem agree_requirementsFor (doc : Node) (r : Requirements) :
    (finalState ((requirementsFor doc).run r)).Agree := by
  have hset (encodings : Node) := agree_setEntries encodings.children .invalid (agree_reset r)
  rcases requirementsFor_cases doc r with ⟨what, h⟩ | ⟨encodings, -, ⟨e, s, hs, h⟩ |
    ⟨what, s, hs, -, h⟩ | ⟨s, hs, -, h⟩⟩
  · rw [h]
    exact agree_reset r
  all_goals
    have hagree := hset encodings
    rw [hs] at hagree
    rw [h]
    exact hagree

/-! ### The unread member -/

/-- The requirements with the ASD transfer syntax blanked where no ASD is
requested. -/
def Requirements.effective (r : Requirements) : Requirements :=
  if r.decodeAsdframe then r else { r with decodeAsdframeType := .invalid }

theorem request_effective (r : Requirements) (name : String) (ats : TransferSyntax) :
    (r.request name ats).effective = (r.effective.request name ats).effective := by
  unfold Requirements.request
  split_ifs <;> rcases h : r.decodeAsdframe with - | - <;> simp [Requirements.effective, h]

/-- Equal up to the unread member: the members that are read are equal. -/
theorem effective_eq_iff {r s : Requirements} : r.effective = s.effective ↔
    r.opsflag = s.opsflag ∧ r.decode1609dot2 = s.decode1609dot2 ∧
      r.decodeMessageframe = s.decodeMessageframe ∧ r.decodeAsdframe = s.decodeAsdframe ∧
      r.decode1609dot2Type = s.decode1609dot2Type ∧
      r.decodeMessageframeType = s.decodeMessageframeType ∧
      (s.decodeAsdframe = true → r.decodeAsdframeType = s.decodeAsdframeType) := by
  obtain ⟨ops, d16, mf, asd, t16, tmf, tasd⟩ := r
  obtain ⟨ops', d16', mf', asd', t16', tmf', tasd'⟩ := s
  cases asd <;> cases asd' <;> simp [Requirements.effective]

/-- Forget the unread member in the state a run ends in. -/
def effectiveResult : EStateM.Result Exn Requirements Unit →
    EStateM.Result Exn Requirements Unit
  | .ok u r => .ok u r.effective
  | .error e r => .error e r.effective

theorem setEntries_effective (ns : List Node) (ats : TransferSyntax) {r s : Requirements}
    (h : r.effective = s.effective) :
    effectiveResult ((setEntries ns ats).run r) = effectiveResult ((setEntries ns ats).run s) := by
  induction ns generalizing ats r s with
  | nil => simp [setEntries, effectiveResult, h]
  | cons n ns ih =>
    by_cases hats : entrySyntax n ats = .invalid
    · simp [setEntries, hats, effectiveResult, h]
    · have hreq : (r.request (elementType n) (entrySyntax n ats)).effective =
          (s.request (elementType n) (entrySyntax n ats)).effective := by
        rw [request_effective, h, ← request_effective]
      simpa [setEntries, hats] using ih (entrySyntax n ats) hreq

theorem effective_opsflag (r : Requirements) : r.effective.opsflag = r.opsflag := by
  rw [Requirements.effective]
  split <;> rfl

/-- **The requirements are a function of the document**: whatever the previous
message left in the members, the outcome is the same up to the ASD transfer
syntax of a message that requests no ASD. -/
theorem requirementsFor_effective (doc : Node) (r s : Requirements) :
    effectiveResult ((requirementsFor doc).run r) =
      effectiveResult ((requirementsFor doc).run s) := by
  have hreset : r.reset.effective = s.reset.effective := rfl
  rcases hq : select odeEncodingsQuery doc with - | encodings
  · simp [requirementsFor, hq, effectiveResult, hreset]
  · have key := setEntries_effective encodings.children .invalid hreset
    rcases hr : (setEntries encodings.children .invalid).run r.reset with ⟨u, r'⟩ | ⟨e, r'⟩ <;>
      rcases hs : (setEntries encodings.children .invalid).run s.reset with ⟨v, s'⟩ | ⟨e', s'⟩ <;>
      rw [hr, hs] at key <;> simp only [effectiveResult, reduceCtorEq] at key
    · have heff : r'.effective = s'.effective := (EStateM.Result.ok.inj key).2
      have hops : r'.opsflag = s'.opsflag := by
        rw [← effective_opsflag r', heff, effective_opsflag]
      -- the check at the end reads the flags alone
      by_cases h0 : s'.opsflag = 0
      · simp [requirementsFor, hq, hr, hs, hops, h0, effectiveResult, heff]
      · simp [requirementsFor, hq, hr, hs, hops, h0, effectiveResult, heff]
    · obtain ⟨rfl, heff⟩ := EStateM.Result.error.inj key
      simp [requirementsFor, hq, hr, hs, effectiveResult, heff]

/-! ### Lists of plain entries -/

/-- The flag of a type. -/
def Requirements.requested (r : Requirements) : AsnType → Bool
  | .messageFrame => r.decodeMessageframe
  | .ieee1609Dot2Data => r.decode1609dot2
  | .advisorySituationData => r.decodeAsdframe

/-- The transfer syntax of a type. -/
def Requirements.rule (r : Requirements) : AsnType → TransferSyntax
  | .messageFrame => r.decodeMessageframeType
  | .ieee1609Dot2Data => r.decode1609dot2Type
  | .advisorySituationData => r.decodeAsdframeType

theorem AsnType.name_injective : Function.Injective AsnType.name := by
  intro td td' h
  cases td <;> cases td' <;> simp_all [AsnType.name]

theorem requested_reset (r : Requirements) (td : AsnType) : r.reset.requested td = false := by
  cases td <;> rfl

theorem requested_request (r : Requirements) (name : String) (td : AsnType)
    (ats : TransferSyntax) :
    (r.request name ats).requested td = (decide (name = td.name) || r.requested td) := by
  rw [Requirements.request]
  split_ifs with h₁ h₂ h₃
  · subst h₁
    cases td <;> simp [Requirements.requested, AsnType.name]
  · subst h₂
    cases td <;> simp [Requirements.requested, AsnType.name]
  · subst h₃
    cases td <;> simp [Requirements.requested, AsnType.name]
  · cases td <;> simp_all [AsnType.name]

theorem rule_request (r : Requirements) (td td' : AsnType) (ats : TransferSyntax) :
    (r.request td.name ats).rule td' = if td = td' then ats else r.rule td' := by
  cases td <;> cases td' <;> simp [Requirements.request, Requirements.rule, AsnType.name]

/-- After the loop, what was requested before and what an entry names. -/
theorem requested_setEntries {ns : List Node} {ats : TransferSyntax} {r r' : Requirements}
    (h : (setEntries ns ats).run r = .ok () r') (td : AsnType) : r'.requested td = true ↔
      (∃ n ∈ ns, elementType n = td.name) ∨ r.requested td = true := by
  induction ns generalizing ats r with
  | nil =>
    obtain rfl := (EStateM.Result.ok.inj h).2
    simp
  | cons n ns ih =>
    by_cases hats : entrySyntax n ats = .invalid
    · simp [setEntries, hats] at h
    · have hrest : (setEntries ns (entrySyntax n ats)).run
          (r.request (elementType n) (entrySyntax n ats)) = .ok () r' := by
        simpa [setEntries, hats] using h
      rw [ih hrest, requested_request]
      simp only [Bool.or_eq_true, decide_eq_true_eq, List.exists_mem_cons_iff]
      rw [or_left_comm, or_assoc]

/-- An entry that names a type the codec knows and has a valid rule of its own. -/
structure IsEntry (n : Node) (e : AsnType × TransferSyntax) : Prop where
  type : elementType n = e.1.name
  rule : ∃ s, n.childText? "encodingRule" = some s ∧ getAtsTransferSyntax s = e.2
  valid : e.2 ≠ .invalid

/-- The requirements after the entries. -/
def Requirements.requestAll (r : Requirements) (entries : List (AsnType × TransferSyntax)) :
    Requirements :=
  entries.foldl (fun r e => r.request e.1.name e.2) r

theorem run_setEntries {ns : List Node} {entries : List (AsnType × TransferSyntax)}
    (h : List.Forall₂ IsEntry ns entries) (ats : TransferSyntax) (r : Requirements) :
    (setEntries ns ats).run r = .ok () (r.requestAll entries) := by
  induction h generalizing ats r with
  | nil => rfl
  | @cons n e ns entries hne _ ih =>
    obtain ⟨s, hs, hats⟩ := hne.rule
    have hsyntax : entrySyntax n ats = e.2 := by simp [entrySyntax, hs, hats]
    simp [setEntries, hsyntax, hne.valid, hne.type, ih, Requirements.requestAll]

theorem requested_requestAll (r : Requirements) (entries : List (AsnType × TransferSyntax))
    (td : AsnType) : (r.requestAll entries).requested td = true ↔
      td ∈ entries.map Prod.fst ∨ r.requested td = true := by
  induction entries generalizing r with
  | nil => simp [Requirements.requestAll]
  | cons e entries ih =>
    have hstep := ih (r.request e.1.name e.2)
    rw [requested_request] at hstep
    rw [Requirements.requestAll, List.foldl_cons]
    refine hstep.trans ?_
    simp only [Bool.or_eq_true, decide_eq_true_eq, List.map_cons, List.mem_cons,
      AsnType.name_injective.eq_iff]
    constructor
    · rintro (h | h | h)
      · exact Or.inl (Or.inr h)
      · exact Or.inl (Or.inl h.symm)
      · exact Or.inr h
    · rintro ((h | h) | h)
      · exact Or.inr (Or.inl h.symm)
      · exact Or.inl h
      · exact Or.inr (Or.inr h)

theorem rule_requestAll_of_not_mem (r : Requirements)
    {entries : List (AsnType × TransferSyntax)} {td : AsnType}
    (h : td ∉ entries.map Prod.fst) : (r.requestAll entries).rule td = r.rule td := by
  induction entries generalizing r with
  | nil => rfl
  | cons e entries ih =>
    rw [List.map_cons, List.mem_cons, not_or] at h
    show ((r.request e.1.name e.2).requestAll entries).rule td = r.rule td
    rw [ih _ h.2, rule_request, if_neg fun he => h.1 he.symm]

theorem rule_requestAll (r : Requirements) {entries : List (AsnType × TransferSyntax)}
    {rule : AsnType → TransferSyntax} (hrule : ∀ e ∈ entries, rule e.1 = e.2) {td : AsnType}
    (htd : td ∈ entries.map Prod.fst) : (r.requestAll entries).rule td = rule td := by
  induction entries generalizing r with
  | nil => exact absurd htd (by simp)
  | cons e entries ih =>
    rw [List.forall_mem_cons] at hrule
    show ((r.request e.1.name e.2).requestAll entries).rule td = rule td
    -- an entry further down overrules this one
    by_cases hlater : td ∈ entries.map Prod.fst
    · exact ih _ hrule.2 hlater
    · obtain rfl : td = e.1 := (List.mem_cons.mp htd).resolve_right hlater
      rw [rule_requestAll_of_not_mem _ hlater, rule_request, if_pos rfl, hrule.1]

theorem agree_requestAll {r : Requirements} (h : r.Agree)
    (entries : List (AsnType × TransferSyntax)) : (r.requestAll entries).Agree := by
  induction entries generalizing r with
  | nil => exact h
  | cons e entries ih => exact ih (agree_request h e.1.name e.2)

theorem opsBits_eq_zero : ∀ a b c, opsBits a b c = 0 ↔ a = false ∧ b = false ∧ c = false := by
  decide

/-- Something is requested exactly when a bit is set. -/
theorem opsflag_ne_zero {r : Requirements} (h : r.Agree) {td : AsnType}
    (htd : r.requested td = true) : r.opsflag ≠ 0 := by
  rw [h]
  intro hzero
  obtain ⟨h16, hmf, hasd⟩ := (opsBits_eq_zero ..).mp hzero
  cases td <;> simp_all [Requirements.requested]

/-- **The requirements of a list of plain entries**: each named type is
requested under its own rule, and nothing else is. -/
theorem requirementsFor_entries {doc encodings : Node}
    {entries : List (AsnType × TransferSyntax)}
    (hq : select odeEncodingsQuery doc = some encodings)
    (h : List.Forall₂ IsEntry encodings.children entries) (hne : entries ≠ [])
    (r : Requirements) :
    (requirementsFor doc).run r = .ok () (r.reset.requestAll entries) := by
  obtain ⟨e, entries, rfl⟩ := List.exists_cons_of_ne_nil hne
  have hrequested : (r.reset.requestAll (e :: entries)).requested e.1 = true :=
    (requested_requestAll ..).mpr (Or.inl (by simp))
  have hops := opsflag_ne_zero (agree_requestAll (agree_reset r) _) hrequested
  simp [requirementsFor, hq, run_setEntries h, hops]

end Asn1Codec
