/-
Asn1Codec/Fleet.lean

Several processes of the program on one host.

A container runs as many processes as ACM_NUMBER_OF_PROCESSES says, on one
configuration file and with command lines that differ in the name of the log.
Each has a consumer of its own, and one that ends is started again.  Nothing but
the topics is shared, so a fleet is a list of processes, with an entry for every
start, and it has handled what its processes have.

Main result: how many processes there are, which of them handles a message, when,
and what else it has handled makes no difference to the records but in the times
of the error reports (`fleet_records`).
-/
import Asn1Codec.Program
import Mathlib.Data.List.Perm.Basic

namespace Asn1Codec

open Xml (Node)
open Xml.Node
open GetOpt (Item Spells)

variable {V : Type}

structure Process where
  args : List String
  files : Files
  evs : List Event

/-- The codec that the options -c and -T ask for. -/
def codecFor (host : Host) (cfile mode : Option String) : Codec :=
  let file := (((cfile.bind host.openFile).map (configureLoop host.kafka)).getD .empty).pconf
  { Codec.constructed with
    decodeFunctionality := ((mode.bind modeOf).or ((file "acm.type").bind modeOf)).getD true
    errorDoc :=
      (host.loadFile ((file "acm.error.template").getD "./config/Output.error.xml")).2 }

namespace Process

section Written

variable (E : Externals V) (host : Host)

/-- The messages that it handles, if it starts the codec at all. -/
def handled (p : Process) : List (Message × Clock) :=
  match main host p.files p.args with
  | .run t level => operatorTranscript E host t level p.evs
  | _ => []

/-- The records that it publishes, and the one that it is about to. -/
def written (p : Process) : List String :=
  match main host p.files p.args with
  | .run t level =>
    (operatorRun E host t level p.evs).records ++ (operatorRun E host t level p.evs).pending
  | _ => []

end Written

/-- What it asks for, whatever else is on its command line. -/
def Asks (p : Process) (cfile mode : Option String) : Prop :=
  ∀ items operands, Spells acm.spec p.args items operands →
    lastGiven items 'c' = cfile ∧ lastGiven items 'T' = mode

variable {E : Externals V} {host : Host} {t : Tool} {level : LogLevel} {evs : List Event}

theorem transcript_unconfigured (h : configured host t level = false) :
    operatorTranscript E host t level evs = [] := by
  rw [operatorTranscript, Machine.transcript, operatorEvents, h]
  suffices hout : ∀ s : Machine, s.pc = .configure ∨ s.pc = .exited false →
      Runs.trace (Machine.next E (settingsAfter host t level).consumedTopics) Machine.noted s
        (evs.map (Event.configuring false)) = [] from
    hout _ (Or.inl rfl)
  induction evs with
  | nil => exact fun _ _ => rfl
  | cons e evs ih =>
    intro s hpc
    rw [List.map_cons, Runs.trace_cons, ih, List.append_nil]
    · -- nothing is at hand
      cases e <;> rcases hpc with hpc | hpc <;> simp [Event.configuring, Machine.noted, hpc]
    · -- and nothing will be
      cases e with
      | step a =>
        rcases hpc with hpc | hpc <;> simp [Event.configuring, Machine.next, Machine.step, hpc]
      | sigterm => exact hpc

/-- The settings of a process are those that it asks for. -/
theorem recordOf_settings {cfile mode : Option String} (hcomplete : t.Complete)
    (hc : t.cli 'c' = cfile) (hT : t.cli 'T' = mode) (h : configured host t level = true) :
    (settingsAfter host t level).errorDoc = (codecFor host cfile mode).errorDoc ∧
      Machine.recordOf E (settingsAfter host t level).codec =
        Machine.recordOf E (codecFor host cfile mode) := by
  obtain ⟨file, text, hfile, htext, hlaws⟩ := configured_settings hcomplete h
  have hloop : (cfile.bind host.openFile).map (configureLoop host.kafka) =
      some (configureLoop host.kafka text) := by
    rw [← hc, hfile, Option.bind_some, htext, Option.map_some]
  have htemplate : (settingsAfter host t level).errorDoc =
      (codecFor host cfile mode).errorDoc := by
    simp only [codecFor, hloop, Option.getD_some, hlaws.template]
  refine ⟨htemplate, ?_⟩
  have hmode : (settingsAfter host t level).decodeFunctionality =
      (codecFor host cfile mode).decodeFunctionality := by
    simp only [codecFor, hloop, Option.getD_some, ← hT]
    exact hlaws.mode
  funext x
  simp only [Machine.recordOf, Settings.codec, hmode, htemplate]

/-- What a process writes is what it handles, converted. -/
theorem written_eq {p : Process} {cfile mode : Option String} (hasks : p.Asks cfile mode)
    (hone : AtMostOneBytes (codecFor host cfile mode).errorDoc)
    (hclean : ∀ x ∈ p.handled E host, Machine.Clean x) :
    p.written E host =
      (p.handled E host).filterMap (Machine.recordOf E (codecFor host cfile mode)) := by
  rw [handled] at hclean
  rw [written, handled]
  split
  · rename_i t level hmain
    rw [hmain] at hclean
    obtain ⟨items, operands, -, hspells, ht, -⟩ := accepted_of_main hmain
    have hcli {c : Char} (hc : c ∈ acmOptions.map OptionSpec.shortName) :
        t.cli c = lastGiven items c := by
      obtain ⟨o, ho⟩ := acm_knows hc
      rw [ht, cli_given hspells ho]
    obtain ⟨hc, hT⟩ := hasks items operands hspells
    rw [← hcli (by decide)] at hc hT
    rcases hconf : configured host t level with - | -
    · obtain ⟨-, hpublished, hpc⟩ := @operatorRun_unconfigured _ E host t level p.evs hconf
      have hpending : (operatorRun E host t level p.evs).pending = [] :=
        Machine.pending_of_ne fun m hm => by rcases hpc with hpc | hpc <;> simp [hpc] at hm
      rw [transcript_unconfigured hconf, hpending, Machine.records, hpublished]
      rfl
    · have hcomplete : t.Complete := ht ▸ complete_given items operands
      obtain ⟨htemplate, hrecord⟩ := @recordOf_settings _ E host t level _ _ hcomplete hc hT hconf
      rw [operatorRun_records (htemplate ▸ hone) hclean, hrecord]
  · rfl

/-- Records that differ in the times of a report at most: they are the same, or they
are one report, annotated at two readings of the clock. -/
def SameButTimes (r r' : String) : Prop :=
  r = r' ∨ ∃ (note : ErrorNote) (doc : Node) (now now' : Clock),
    r = save (annotate { note with now := now } doc) ∧
      r' = save (annotate { note with now := now' } doc)

/-- The clock makes no other difference to the record of a message. -/
theorem recordOf_sameButTimes (c : Codec) {x y : Message × Clock} (h : x.1 = y.1) :
    Option.Rel SameButTimes (Machine.recordOf E c x) (Machine.recordOf E c y) := by
  obtain ⟨m, now⟩ := x
  obtain ⟨m', now'⟩ := y
  obtain rfl : m = m' := h
  simp only [Machine.recordOf]
  split
  · apply Option.Rel.some
    simp only [recordDoc]
    split
    · exact Or.inl rfl
    · rename_i what _
      exact Or.inr ⟨dataNote what now, _, now, now', rfl, rfl⟩
    · rename_i e _ _
      exact Or.inr ⟨requestNote e.what now, _, now, now', rfl, rfl⟩
  · exact .none

/-- What the processes of a fleet write is what they handle, converted. -/
theorem fleet_written {cfile mode : Option String}
    (hone : AtMostOneBytes (codecFor host cfile mode).errorDoc) {fleet : List Process}
    (hfleet : ∀ p ∈ fleet, p.Asks cfile mode ∧ ∀ x ∈ p.handled E host, Machine.Clean x) :
    fleet.flatMap (written E host) = (fleet.flatMap (handled E host)).filterMap
      (Machine.recordOf E (codecFor host cfile mode)) := by
  rw [List.filterMap_flatMap]
  exact List.flatMap_congr fun p hp => written_eq (hfleet p hp).1 hone (hfleet p hp).2

/-- **The number of processes makes no difference**: two fleets that ask for the
same configuration file and mode and handle the same messages between them write
the same records, up to their order and to the times of the error reports. -/
theorem fleet_records {cfile mode : Option String}
    (hone : AtMostOneBytes (codecFor host cfile mode).errorDoc) {fleet fleet' : List Process}
    (hfleet : ∀ p ∈ fleet ++ fleet', p.Asks cfile mode ∧ ∀ x ∈ p.handled E host, Machine.Clean x)
    (hsame : ((fleet.flatMap (handled E host)).map Prod.fst).Perm
      ((fleet'.flatMap (handled E host)).map Prod.fst)) :
    ∃ records : List String, records.Perm (fleet'.flatMap (written E host)) ∧
      List.Forall₂ SameButTimes (fleet.flatMap (written E host)) records := by
  rw [List.forall_mem_append] at hfleet
  -- the messages of the second fleet, with their times, in the order of the first
  have hown : List.Forall₂ (fun m x => m = x.1) ((fleet'.flatMap (handled E host)).map Prod.fst)
      (fleet'.flatMap (handled E host)) :=
    List.forall₂_map_left_iff.mpr (List.forall₂_same.mpr fun _ _ => rfl)
  obtain ⟨handled', hpairs, hperm⟩ := List.perm_comp_forall₂ hsame hown
  rw [List.forall₂_map_left_iff] at hpairs
  rw [fleet_written hone hfleet.1, fleet_written hone hfleet.2]
  exact ⟨_, hperm.filterMap _, List.rel_filterMap (fun _ _ h => recordOf_sameButTimes _ h) hpairs⟩

/-- A decoder that polls some messages, all at one reading of the clock. -/
def decoder (now : Clock) (ms : List Message) : Process where
  args := ["-c", "acm.properties", "-T", "decode"]
  files := openFiles
  evs := (Machine.polling ms).map (Machine.timed now)

theorem handled_decoder (E : Externals V) (now : Clock) {ms : List Message}
    (hreal : ∀ m ∈ ms, m.err = .noError) :
    (decoder now ms).handled E encoderHost = ms.map fun m => (m, now) := by
  let tool := acm.given [.arg 'c' "acm.properties", .arg 'T' "decode"]
  have hmain : main encoderHost openFiles (decoder now ms).args = .run tool .err := by
    show main encoderHost openFiles ["-c", "acm.properties", "-T", "decode"] = _
    rw [main_accepted _ _ spells_decoder rfl]
    rfl
  have hsettings : configured encoderHost tool .err = true ∧
      (settingsAfter encoderHost tool .err).consumedTopics = ["in"] := by
    decide +kernel
  -- every answer of these events lets configure succeed already
  have hevs : operatorEvents encoderHost tool .err (decoder now ms).evs = (decoder now ms).evs := by
    rw [operatorEvents, hsettings.1]
    simp only [decoder, Machine.polling, List.map_append, List.map_replicate, List.map_flatMap]
    rfl
  have hhandled : (decoder now ms).handled E encoderHost =
      operatorTranscript E encoderHost tool .err (decoder now ms).evs := by
    rw [handled]
    show (match main encoderHost openFiles (decoder now ms).args with
      | .run t level => operatorTranscript E encoderHost t level (decoder now ms).evs
      | _ => []) = _
    rw [hmain]
  rw [hhandled, operatorTranscript, hevs, hsettings.2]
  exact Machine.transcript_polling E "in" _ now hreal

/-- Two decoders, of which one reports a text that is no XML, and one that does the
work of both later. -/
theorem fleet_records_decoders :
    let E := decoding (bytesDoc [("MessageFrame", "UPER")])
    let frame := messageOf (bytesDoc [("MessageFrame", "UPER")])
    ∃ records : List String,
      records.Perm ([decoder ⟨"t5", "t6"⟩ [⟨.noError, "x"⟩, frame]].flatMap
        (written E encoderHost)) ∧
      List.Forall₂ SameButTimes
        ([decoder ⟨"t1", "t2"⟩ [frame], decoder ⟨"t3", "t4"⟩ [⟨.noError, "x"⟩]].flatMap
          (written E encoderHost)) records := by
  intro E frame
  have hasks (now : Clock) (ms : List Message) :
      (decoder now ms).Asks (some "acm.properties") (some "decode") := by
    intro items operands hspells
    have hscan := (GetOpt.scan_of_spells hspells).symm.trans (GetOpt.scan_of_spells spells_decoder)
    obtain rfl := congrArg GetOpt.Scan.items hscan
    exact ⟨rfl, rfl⟩
  have hclean (now : Clock) {ms : List Message} (hms : ∀ m ∈ ms, m = frame ∨ m = ⟨.noError, "x"⟩) :
      ∀ x ∈ (decoder now ms).handled E encoderHost, Machine.Clean x := by
    have hreal : ∀ m ∈ ms, m.err = .noError := by
      intro m hm
      rcases hms m hm with rfl | rfl <;> rfl
    rw [handled_decoder E now hreal]
    intro x hx
    obtain ⟨m, hm, rfl⟩ := List.mem_map.mp hx
    have hlen : 0 < (⟨.noError, "x"⟩ : Message).len := by decide
    rcases hms m hm with rfl | rfl
    · exact iff_of_true rfl (len_messageOf ..)
    · exact iff_of_true rfl hlen
  refine @fleet_records _ E encoderHost (some "acm.properties") (some "decode")
    atMostOneBytes_outputError
    [decoder ⟨"t1", "t2"⟩ [frame], decoder ⟨"t3", "t4"⟩ [⟨.noError, "x"⟩]]
    [decoder ⟨"t5", "t6"⟩ [⟨.noError, "x"⟩, frame]] ?_ ?_
  · simp only [List.cons_append, List.nil_append, List.forall_mem_cons]
    exact ⟨⟨hasks _ _, hclean _ (by simp)⟩, ⟨hasks _ _, hclean _ (by simp)⟩,
      ⟨hasks _ _, hclean _ (by simp)⟩, by simp⟩
  · have hreal : frame.err = .noError := rfl
    simp [handled_decoder, hreal, List.Perm.swap]

end Process

end Asn1Codec
