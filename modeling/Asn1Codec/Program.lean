/-
Asn1Codec/Program.lean

The program: main, from its arguments to the driver it runs, and the runs of
operator() that it starts.

`main` ends at once or runs one of three drivers.  A run of operator() begins
with configure, whose result is no longer an answer of the environment here: it
is computed from the command line, the configuration file and the environment.

Main results: which command lines start the codec (`main_run_iff`); what a run
publishes, from the command line and the file alone (`main_records`); which
command lines end in an exception that nothing handles (`main_aborted_iff`); and
that a run ends with success only after a signal (`operatorRun_exited`).
-/
import Asn1Codec.Logger
import Asn1Codec.Server
import Asn1Codec.Shutdown
import Asn1Codec.Transcript

namespace Asn1Codec

open Xml (Node)
open GetOpt (Item Spells)

variable {V : Type}

/-! ### main -/

/-- What main does: it exits, it is left by an exception, or it runs a driver. -/
inductive Started where
  | exit (success : Bool)
  | aborted (e : StdExn)
  | httpServer (server : HttpServer)
  | filetest (t : Tool) (level : LogLevel)
  | run (t : Tool) (level : LogLevel)

/-- Whether configure returns true. -/
def configured (host : Host) (t : Tool) (level : LogLevel) : Bool :=
  match (configure host t).run (.constructed level) with
  | .ok _ _ => true
  | .error _ _ => false

/-- main, on the words behind the name of the program. -/
def main (host : Host) (files : Files) (args : List String) : Started :=
  match (Tool.parseArgs args).run acm with
  | .error e _ => .aborted e
  | .ok false _ => .exit false
  | .ok true t =>
    if t.optIsSet 'h' then .exit true
    else
      match setupLogger host files t (t.optIsSet 'R') with
      | .error e => .aborted e
      | .ok none => .exit false
      | .ok (some logger) =>
        if t.optIsSet 'C' then .exit (configured host t logger.level)
        else if t.optIsSet 'H' then
          match HttpServer.constructed host files with
          | .error e => .aborted e
          | .ok server => .httpServer server
        else if t.optIsSet 'F' then
          -- filetest takes the first operand once it is configured
          if configured host t logger.level && t.operands.isEmpty then .aborted .undefined
          else .filetest t logger.level
        else .run t logger.level

/-- A file system that does what it is asked. -/
def openFiles : Files where
  dirExists _ := true
  mkdir _ := true
  fileExists _ := true
  remove _ := true
  fopen _ _ := none
  fstat _ := none

/-! ### The runs of operator() -/

/-- The members as the constructor leaves them. -/
def Codec.constructed : Codec where
  bootstrap := true
  dataAvailable := true
  exitEof := true
  eofCnt := 0
  partitionCnt := 1
  msgRecvCount := 0
  msgSendCount := 0
  msgRecvBytes := 0
  msgSendBytes := 0
  inputDoc := .document []
  internalDoc := .document []
  errorDoc := .document []
  decodeFunctionality := true
  req := .constructed
  currDecodeType := .invalid
  currOp := 0
  currNodePath := []
  payloadNode := []
  protocol := []
  hexData := []
  outputMessageStream := ""
  calls := []

/-- The members after configure. -/
def Settings.codec (s : Settings) : Codec :=
  { Codec.constructed with
    exitEof := s.exitEof
    errorDoc := s.errorDoc
    decodeFunctionality := s.decodeFunctionality }

/-- What configure leaves behind, also when it fails. -/
def settingsAfter (host : Host) (t : Tool) (level : LogLevel) : Settings :=
  match (configure host t).run (.constructed level) with
  | .ok _ s => s
  | .error _ s => s

/-- The answer to the call of configure. -/
def Event.configuring (b : Bool) : Event → Event
  | .step a => .step { a with configured := b }
  | .sigterm => .sigterm

/-- The events of a run for a command line: configure answers what it computes. -/
def operatorEvents (host : Host) (t : Tool) (level : LogLevel) (evs : List Event) : List Event :=
  evs.map (Event.configuring (configured host t level))

/-- A run of operator() for a command line, with what the libraries answer and
the signals in `evs`. -/
def operatorRun (E : Externals V) (host : Host) (t : Tool) (level : LogLevel)
    (evs : List Event) : Machine :=
  Runs.run (Machine.next E (settingsAfter host t level).consumedTopics)
    (.start (settingsAfter host t level).codec) (operatorEvents host t level evs)

/-- The messages that it handles. -/
def operatorTranscript (E : Externals V) (host : Host) (t : Tool) (level : LogLevel)
    (evs : List Event) : List (Message × Clock) :=
  Machine.transcript E (settingsAfter host t level).consumedTopics
    (settingsAfter host t level).codec (operatorEvents host t level evs)

/-! ### The command lines -/

/-- What some items give for an option of the program. -/
def lastGiven (items : List Item) (c : Char) : Option String :=
  if items.any (·.name = c) then some (((items.filterMap (valueFor c)).getLast?).getD "") else none

/-- The map of a tool has the first option that was added under a name. -/
theorem build_optionsMap (options : List OptionSpec) (c : Char) :
    (Tool.build options).optionsMap c =
      (options.find? fun o => o.shortName = c).map OptionSpec.option := by
  suffices h : ∀ t : Tool, (options.foldl Tool.addOption t).optionsMap c =
      (t.optionsMap c).or ((options.find? fun o => o.shortName = c).map OptionSpec.option) from
    h .constructed
  induction options with
  | nil => simp
  | cons o options ih =>
    intro t
    rw [List.foldl_cons, ih, List.find?_cons]
    by_cases hc : o.shortName = c
    · rcases ht : t.optionsMap c with - | p <;> simp [Tool.addOption, hc, ht]
    · have hc' : c ≠ o.shortName := fun h => hc h.symm
      simp [Tool.addOption, hc, hc']

/-- The program knows the options that it adds. -/
theorem acm_knows {c : Char} (hc : c ∈ acmOptions.map OptionSpec.shortName) :
    ∃ o, acm.optionsMap c = some o := by
  obtain ⟨spec, hspec, rfl⟩ := List.mem_map.mp hc
  rw [acm, build_optionsMap]
  rcases hfind : acmOptions.find? (fun o => o.shortName = spec.shortName) with - | o
  · exact absurd (List.find?_eq_none.mp hfind spec hspec) (by simp)
  · exact ⟨o.option, by rw [hfind, Option.map_some]⟩

/-- An option of the program, before the command line is read. -/
theorem acm_option {c : Char} {o : CliOption} (h : acm.optionsMap c = some o) :
    o.isSet = false ∧ o.arg = "" ∧ (o.takesArgument = false → acm.spec.takes c = some false) := by
  have hconsistent := Tool.consistent_build acmOptions c
  rw [acm, build_optionsMap, Option.map_eq_some_iff] at h
  obtain ⟨spec, hspec, rfl⟩ := h
  have hmem := List.mem_of_find?_eq_some hspec
  have hall : ∀ spec ∈ acmOptions, spec.option.arg = "" ∧
      (spec.option.takesArgument = false → ¬ 0 < spec.option.argReqd) := by decide
  obtain ⟨harg, htakes⟩ := hall spec hmem
  refine ⟨rfl, harg, fun hflag => ?_⟩
  rw [acm, hconsistent, build_optionsMap, hspec]
  simp [htakes hflag]

/-- What the tool holds for an option is what the command line gives for it. -/
theorem cli_given {args : List String} {items : List Item} {operands : List String}
    (h : Spells acm.spec args items operands) {c : Char} {o : CliOption}
    (ho : acm.optionsMap c = some o) :
    Tool.cli { acm.given items with operands := operands } c = lastGiven items c := by
  obtain ⟨hset, harg, hflag⟩ := acm_option ho
  have hgiven : (acm.given items).optionsMap c = some (o.given items c) := by
    rw [Tool.given_optionsMap, ho]
    rfl
  have hvalue : (o.given items c).arg = ((items.filterMap (valueFor c)).getLast?).getD "" := by
    rcases htakes : o.takesArgument with - | -
    · -- a flag is never spelled with an argument
      have hnone : items.filterMap (valueFor c) = [] := by
        rw [List.filterMap_eq_nil_iff]
        intro i hi
        have hallowed : GetOpt.Allowed acm.spec i := by
          have hscan := @GetOpt.allowed_scan acm.spec args
          rw [GetOpt.scan_of_spells h] at hscan
          exact hscan i hi
        cases i with
        | flag d => rfl
        | arg d v =>
          have hd : acm.spec.takes d = some true := hallowed
          have hne : d ≠ c := by
            rintro rfl
            rw [hflag htakes] at hd
            cases hd
          simp [valueFor, hne]
      simp [CliOption.given, htakes, hnone, harg]
    · simp [CliOption.given, htakes, harg]
  have hisSet : (o.given items c).isSet = items.any (·.name = c) := by
    simp [CliOption.given, hset]
  rw [Tool.cli, lastGiven]
  simp only [hgiven, hisSet, hvalue]

theorem lastGiven_isSome (items : List Item) (c : Char) :
    (lastGiven items c).isSome = items.any (·.name = c) := by
  rw [lastGiven]
  split
  · exact (‹items.any _ = true›).symm
  · exact (eq_false_of_ne_true ‹_›).symm

theorem optIsSet_given {args : List String} {items : List Item} {operands : List String}
    (h : Spells acm.spec args items operands) {c : Char} {o : CliOption}
    (ho : acm.optionsMap c = some o) :
    Tool.optIsSet { acm.given items with operands := operands } c = items.any (·.name = c) := by
  rw [Tool.optIsSet_eq, cli_given h ho, lastGiven_isSome]

theorem main_accepted (host : Host) (files : Files) {args : List String} {items : List Item}
    {operands : List String} (h : Spells acm.spec args items operands) {t : Tool}
    (ht : t = { acm.given items with operands := operands }) :
    main host files args =
      if items.any (·.name = 'h') then .exit true
      else
        match setupLogger host files t (items.any (·.name = 'R')) with
        | .error e => .aborted e
        | .ok none => .exit false
        | .ok (some logger) =>
          if items.any (·.name = 'C') then .exit (configured host t logger.level)
          else if items.any (·.name = 'H') then
            match HttpServer.constructed host files with
            | .error e => .aborted e
            | .ok server => .httpServer server
          else if items.any (·.name = 'F') then
            if configured host t logger.level && t.operands.isEmpty then .aborted .undefined
            else .filetest t logger.level
          else .run t logger.level := by
  have hparse : (Tool.parseArgs args).run acm = .ok true t :=
    ht ▸ Tool.parseArgs_of_spells h
  have hset {c : Char} (hc : c ∈ acmOptions.map OptionSpec.shortName) :
      t.optIsSet c = items.any (·.name = c) := by
    obtain ⟨o, ho⟩ := acm_knows hc
    rw [ht, optIsSet_given h ho]
  rw [main, hparse]
  simp only [@hset 'h' (by decide), @hset 'R' (by decide), @hset 'C' (by decide),
    @hset 'H' (by decide), @hset 'F' (by decide)]

/-- What the command line has to be where main runs the codec. -/
theorem accepted_of_main {host : Host} {files : Files} {args : List String} {t : Tool}
    {level : LogLevel} (h : main host files args = .run t level) :
    ∃ items operands logger, Spells acm.spec args items operands ∧
      t = { acm.given items with operands := operands } ∧
      (∀ i ∈ items, i.name ∉ ['h', 'C', 'H', 'F']) ∧
      setupLogger host files t (items.any (·.name = 'R')) = .ok (some logger) ∧
      level = logger.level := by
  -- only a command line that is accepted gets past parseArgs
  obtain ⟨t', hparse⟩ : ∃ t', (Tool.parseArgs args).run acm = .ok true t' := by
    rw [main] at h
    split at h
    · cases h
    · cases h
    · exact ⟨_, ‹_›⟩
  obtain ⟨items, operands, hspells, ht'⟩ := Tool.spells_of_parseArgs hparse
  rw [main_accepted host files hspells ht'] at h
  -- every branch but the last ends in another way
  split at h
  · cases h
  split at h
  · cases h
  · cases h
  split at h
  · cases h
  split at h
  · split at h <;> cases h
  split at h
  · split at h <;> cases h
  obtain ⟨rfl, rfl⟩ := Started.run.inj h
  refine ⟨items, operands, _, hspells, ht', ?_, ‹_›, rfl⟩
  simp_all

/-- **Which command lines start the codec**: those that spell items without -h,
-C, -H and -F, where the log can be set up. -/
theorem main_run_iff {host : Host} {files : Files} {args : List String} {t : Tool}
    {level : LogLevel} : main host files args = .run t level ↔
      ∃ items operands logger, Spells acm.spec args items operands ∧
        t = { acm.given items with operands := operands } ∧
        (∀ i ∈ items, i.name ∉ ['h', 'C', 'H', 'F']) ∧
        setupLogger host files t (items.any (·.name = 'R')) = .ok (some logger) ∧
        level = logger.level := by
  constructor
  · exact accepted_of_main
  · rintro ⟨items, operands, logger, hspells, ht, hother, hlogger, rfl⟩
    have hnone (c : Char) (hc : c ∈ ['h', 'C', 'H', 'F']) : items.any (·.name = c) = false := by
      rw [List.any_eq_false]
      intro i hi hname
      exact hother i hi (of_decide_eq_true hname ▸ hc)
    rw [main_accepted host files hspells ht, hlogger]
    simp [hnone]

theorem getOption_given (items : List Item) (operands : List String) {c : Char}
    (hc : c ∈ acmOptions.map OptionSpec.shortName) :
    ∃ o, Tool.getOption { acm.given items with operands := operands } c = .ok o := by
  obtain ⟨o, ho⟩ := acm_knows hc
  refine ⟨o.given items c, ?_⟩
  rw [Tool.getOption, Tool.given_optionsMap, ho]
  rfl

/-- What makes the program crash once its command line is accepted. -/
inductive Crash (host : Host) (files : Files) (items : List Item) (t : Tool) : StdExn → Prop
  /-- The log file is not opened. -/
  | log {logname : String} {e : StdExn}
      (hplace : LogPlace files t (items.any (·.name = 'R')) logname)
      (hfile : convertStringToBool (getEnvironmentVariable host "ACM_LOG_TO_FILE") = true)
      (hopen : Unopened files logname e) : Crash host files items t e
  /-- The server is not made. -/
  | server {logger : AcmLogger} {e : StdExn}
      (hlogger : setupLogger host files t (items.any (·.name = 'R')) = .ok (some logger))
      (hcheck : ∀ i ∈ items, i.name ≠ 'C') (hserver : ∃ i ∈ items, i.name = 'H')
      (hmade : HttpServer.constructed host files = .error e) : Crash host files items t e
  /-- There is no file for filetest. -/
  | file {logger : AcmLogger}
      (hlogger : setupLogger host files t (items.any (·.name = 'R')) = .ok (some logger))
      (hother : ∀ i ∈ items, i.name ∉ ['C', 'H']) (hfile : ∃ i ∈ items, i.name = 'F')
      (hconf : configured host t logger.level = true) (hnone : t.operands = []) :
      Crash host files items t .undefined

/-- An accepted command line without -h ends in an exception where there is a crash. -/
theorem crash_of_main {host : Host} {files : Files} {args : List String} {items : List Item}
    {operands : List String} (h : Spells acm.spec args items operands) {t : Tool}
    (ht : t = { acm.given items with operands := operands }) {e : StdExn}
    (hmain : main host files args = .aborted e) :
    (∀ i ∈ items, i.name ≠ 'h') ∧ Crash host files items t e := by
  have hnone {c : Char} (hc : ¬ items.any (·.name = c) = true) : ∀ i ∈ items, i.name ≠ c := by
    simpa using hc
  rw [main_accepted host files h ht] at hmain
  split at hmain
  · cases hmain
  rename_i hhelp
  refine ⟨hnone hhelp, ?_⟩
  split at hmain
  · -- setup_logger asks for options that the program has
    rename_i e' hlogger
    obtain rfl := Started.aborted.inj hmain
    rw [ht, setupLogger_error_iff (getOption_given _ _ (by decide))
      (getOption_given _ _ (by decide)), ← ht] at hlogger
    obtain ⟨logname, hplace, hmade⟩ := hlogger
    obtain ⟨hfile, hopen⟩ := constructed_error_iff.mp hmade
    exact .log hplace hfile hopen
  · cases hmain
  rename_i logger hlogger
  split at hmain
  · cases hmain
  rename_i hcheck
  split at hmain
  · rename_i hserver
    split at hmain
    · rename_i e' hmade
      obtain rfl := Started.aborted.inj hmain
      exact .server hlogger (hnone hcheck) (by simpa using hserver) hmade
    · cases hmain
  rename_i hserver
  split at hmain
  · rename_i hfile
    split at hmain
    · rename_i hempty
      obtain rfl := Started.aborted.inj hmain
      obtain ⟨hconf, hempty⟩ := Bool.and_eq_true_iff.mp hempty
      refine .file hlogger (fun i hi hname => ?_) (by simpa using hfile) hconf
        (List.isEmpty_iff.mp hempty)
      rcases List.mem_cons.mp hname with hname | hname
      · exact hnone hcheck i hi hname
      · exact hnone hserver i hi (List.mem_singleton.mp hname)
    · cases hmain
  · cases hmain

theorem main_of_crash {host : Host} {files : Files} {args : List String} {items : List Item}
    {operands : List String} (h : Spells acm.spec args items operands) {t : Tool}
    (ht : t = { acm.given items with operands := operands }) {e : StdExn}
    (hhelp : ∀ i ∈ items, i.name ≠ 'h') (hcrash : Crash host files items t e) :
    main host files args = .aborted e := by
  have hnone {c : Char} (hc : ∀ i ∈ items, i.name ≠ c) : items.any (·.name = c) = false := by
    simpa using hc
  have hsome {c : Char} (hc : ∃ i ∈ items, i.name = c) : items.any (·.name = c) = true := by
    simpa using hc
  rw [main_accepted host files h ht, hnone hhelp]
  cases hcrash with
  | log hplace hfile hopen =>
    rw [setupLogger_eq hplace, constructed_error_iff.mpr ⟨hfile, hopen⟩]
    rfl
  | server hlogger hcheck hserver hmade =>
    rw [hlogger, hnone hcheck, hsome hserver, hmade]
    rfl
  | file hlogger hother hfile hconf hempty =>
    have hcheck : ∀ i ∈ items, i.name ≠ 'C' := fun i hi hname =>
      hother i hi (hname ▸ List.mem_cons_self)
    have hserver : ∀ i ∈ items, i.name ≠ 'H' := fun i hi hname =>
      hother i hi (List.mem_cons_of_mem _ (hname ▸ List.mem_cons_self))
    rw [hlogger, hnone hcheck, hnone hserver, hsome hfile, hempty]
    simp [hconf]

/-- **What makes the program crash** before one of its drivers runs, or by way of
filetest: a long option, or what `Crash` lists. -/
theorem main_aborted_iff {host : Host} {files : Files} {args : List String} {e : StdExn} :
    main host files args = .aborted e ↔
      (∃ w, (GetOpt.scan acm.spec args).ending = .long w) ∧ e = .undefined ∨
      ∃ items operands, Spells acm.spec args items operands ∧ (∀ i ∈ items, i.name ≠ 'h') ∧
        Crash host files items { acm.given items with operands := operands } e := by
  have hparse := Tool.run_parseArgs (Tool.consistent_build acmOptions) args
  rw [← acm] at hparse
  constructor
  · intro h
    rcases hend : (GetOpt.scan acm.spec args).ending with ws | c | c | w
    · -- the command line is accepted
      have hspells := GetOpt.spells_scan hend
      obtain ⟨hhelp, hcrash⟩ := crash_of_main hspells rfl h
      exact Or.inr ⟨_, ws, hspells, hhelp, hcrash⟩
    · rw [main, hparse] at h
      simp only [hend] at h
      cases h
    · rw [main, hparse] at h
      simp only [hend] at h
      cases h
    · rw [main, hparse] at h
      simp only [hend] at h
      exact Or.inl ⟨⟨w, rfl⟩, (Started.aborted.inj h).symm⟩
  · rintro (⟨⟨w, hend⟩, rfl⟩ | ⟨items, operands, hspells, hhelp, hcrash⟩)
    · rw [main, hparse]
      simp only [hend]
    · exact main_of_crash hspells rfl hhelp hcrash

/-! ### How a run ends -/

namespace Machine

variable {E : Externals V} {consumedTopics : List String}

/-- Only the handler clears `bootstrap`. -/
theorem bootstrap_next (e : Event) (s : Machine)
    (h : (next E consumedTopics e s).codec.bootstrap = false) :
    s.codec.bootstrap = false ∨ e = .sigterm := by
  cases e with
  | sigterm => exact Or.inr rfl
  | step a => exact Or.inl ((bootstrap_step a s).symm.trans h)

/-- The main thread asks for the metadata of a topic. -/
def Asking (s : Machine) : Prop :=
  ∃ topic topics tcount, s.pc = .topicAvailable topic topics tcount

theorem exited_next (e : Event) (s : Machine)
    (h : (next E consumedTopics e s).pc = .exited false) :
    s.pc = .exited false ∨ ∃ a, e = .step a ∧
      (s.pc = .configure ∧ a.configured = false ∨ s.Asking ∧ a.topic = .exit) := by
  cases e with
  | sigterm => exact Or.inl h
  | step a =>
    rcases hpc : s.pc with - | - | - | - | ⟨- | ⟨t, ts⟩, n⟩ | ⟨t, ts, n⟩ | ⟨t, ts, n⟩ | n | - | - |
      - | - | - | msg | msg | - | - | b
    case configure =>
      rcases hconf : a.configured with - | -
      · exact Or.inr ⟨a, rfl, Or.inl ⟨rfl, hconf⟩⟩
      · simp [next, step, hpc, hconf] at h
    case topicAvailable =>
      rcases htopic : a.topic with - | - | -
      · simp [next, step, hpc, htopic] at h
      · simp [next, step, hpc, htopic] at h
      · exact Or.inr ⟨a, rfl, Or.inr ⟨⟨t, ts, n, hpc⟩, htopic⟩⟩
    case exited => exact Or.inl (by simpa [next, step, hpc] using h)
    all_goals
      simp only [next, step, hpc] at h
      repeat' split at h
      all_goals simp at h

end Machine

section Operator

variable {E : Externals V} {host : Host} {t : Tool} {level : LogLevel} {evs : List Event}

/-- The events before and after an event of the run are those before and after an
event that is given. -/
theorem operatorEvents_eq_append {e : Event} {before after : List Event}
    (h : operatorEvents host t level evs = before ++ e :: after) :
    ∃ before' e' after', evs = before' ++ e' :: after' ∧
      operatorEvents host t level before' = before ∧
      Event.configuring (configured host t level) e' = e := by
  obtain ⟨before', rest, rfl, hbefore, hrest⟩ := List.map_eq_append_iff.mp h
  obtain ⟨e', after', rfl, he, -⟩ := List.map_eq_cons_iff.mp hrest
  exact ⟨before', e', after', rfl, hbefore, he⟩

/-- **How a run ends**: with success only after a signal, and with failure only
where configure fails or the metadata that is asked for cannot be had. -/
theorem operatorRun_exited {b : Bool} (h : (operatorRun E host t level evs).pc = .exited b) :
    if b then .sigterm ∈ evs
    else configured host t level = false ∨
      ∃ before a after, evs = before ++ .step a :: after ∧
        (operatorRun E host t level before).Asking ∧ a.topic = .exit := by
  cases b with
  | true =>
    -- `bootstrap` is set at the start and clear at the end
    have hleft : (operatorRun E host t level evs).Left :=
      Runs.run_invariant Machine.left_next (by rintro (h | h) <;> cases h) _
    rcases Runs.run_cause (P := fun s : Machine => s.codec.bootstrap = false)
        (Q := fun e _ => e = .sigterm) Machine.bootstrap_next (hleft (Or.inr h)) with
      hstart | ⟨before, e, after, hevs, rfl⟩
    · cases hstart
    · obtain ⟨before', e', after', rfl, -, he⟩ := operatorEvents_eq_append hevs
      cases e' with
      | sigterm => exact List.mem_append_right _ List.mem_cons_self
      | step a => cases he
  | false =>
    rcases Runs.run_cause (P := fun s : Machine => s.pc = .exited false)
        Machine.exited_next h with hstart | ⟨before, e, after, hevs, a, rfl, hcause⟩
    · cases hstart
    · obtain ⟨before', e', after', rfl, rfl, he⟩ := operatorEvents_eq_append hevs
      cases e' with
      | sigterm => cases he
      | step a' =>
        obtain rfl := Event.step.inj he
        rcases hcause with ⟨-, hconf⟩ | ⟨hasking, htopic⟩
        · exact Or.inl hconf
        · exact Or.inr ⟨before', a', after', rfl, hasking, htopic⟩

/-- A configure that succeeds leaves settings that obey its laws. -/
theorem configured_settings (hcomplete : t.Complete) (h : configured host t level = true) :
    ∃ cfile text, t.cli 'c' = some cfile ∧ host.openFile cfile = some text ∧
      Configured host t (configureLoop host.kafka text) level (settingsAfter host t level) := by
  rw [configured] at h
  rw [settingsAfter]
  split at h
  · exact configured_of_run hcomplete ‹_›
  · cases h

theorem complete_given (items : List Item) (operands : List String) :
    Tool.Complete { acm.given items with operands := operands } := by
  have hknows {c : Char} (hc : c ∈ acmOptions.map OptionSpec.shortName) :
      ∃ o, (acm.given items).optionsMap c = some o := by
    obtain ⟨o, ho⟩ := acm_knows hc
    exact ⟨o.given items c, by rw [Tool.given_optionsMap, ho]; rfl⟩
  exact ⟨@hknows 'g' (by decide), @hknows 'o' (by decide), @hknows 'x' (by decide)⟩

/-- Where configure fails nothing is polled. -/
theorem operatorRun_unconfigured (h : configured host t level = false) :
    (operatorRun E host t level evs).polled = [] ∧
      (operatorRun E host t level evs).published = [] ∧
      ((operatorRun E host t level evs).pc = .configure ∨
        (operatorRun E host t level evs).pc = .exited false) := by
  rw [operatorRun, operatorEvents, Runs.run_map, h]
  -- operator() returns from its first step
  apply Runs.run_invariant (P := fun s : Machine => s.polled = [] ∧ s.published = [] ∧
    (s.pc = .configure ∨ s.pc = .exited false))
  · rintro (a | -) s ⟨hpolled, hpublished, hpc⟩
    · rcases hpc with hpc | hpc <;>
        simp [Event.configuring, Machine.next, Machine.step, hpc, hpolled, hpublished]
    · exact ⟨hpolled, hpublished, hpc⟩
  · exact ⟨rfl, rfl, Or.inl rfl⟩

/-- The records of a run are those of its messages, in the mode and the template
that configure has left. -/
theorem operatorRun_records (hone : AtMostOneBytes (settingsAfter host t level).errorDoc)
    (hclean : ∀ x ∈ operatorTranscript E host t level evs, Machine.Clean x) :
    (operatorRun E host t level evs).records ++ (operatorRun E host t level evs).pending =
      (operatorTranscript E host t level evs).filterMap
        (Machine.recordOf E (settingsAfter host t level).codec) :=
  (Machine.tracks_run (settingsAfter host t level).codec hone _ hclean).records

/-- Messages that are clean when they are polled are so when they are handled. -/
theorem clean_operatorTranscript
    (h : ∀ a, .step a ∈ evs → (a.message.isReal = true ↔ 0 < a.message.len)) :
    ∀ x ∈ operatorTranscript E host t level evs, Machine.Clean x := by
  apply Machine.transcript_polled (P := fun m => m.isReal = true ↔ 0 < m.len)
  intro a ha
  obtain ⟨e, he, hsame⟩ := List.mem_map.mp ha
  cases e with
  | step a' =>
    obtain rfl := Event.step.inj hsame
    exact h a' he
  | sigterm => cases hsame

/-- A run does what the command line and the configuration file say: configure
fails and nothing is polled, or the file opens and the records are those of the
real messages, in the mode that -T or the file asks for, reported in the template
that the file names. -/
def Follows (E : Externals V) (host : Host) (t : Tool) (level : LogLevel) (evs : List Event)
    (items : List Item) : Prop :=
  let s := operatorRun E host t level evs
  (configured host t level = false ∧ s.polled = [] ∧ s.published = []) ∨
    ∃ cfile text template, lastGiven items 'c' = some cfile ∧ host.openFile cfile = some text ∧
      let file := (configureLoop host.kafka text).pconf
      let decode := (((lastGiven items 'T').bind modeOf).or
        ((file "acm.type").bind modeOf)).getD true
      host.loadFile ((file "acm.error.template").getD "./config/Output.error.xml") =
        (none, template) ∧
      s.records ++ s.pending = (operatorTranscript E host t level evs).filterMap
        (Machine.recordOf E { Codec.constructed with
          decodeFunctionality := decode, errorDoc := template })

/-- **The program from end to end**: every run of every command line that starts
the codec does what the command line and the file say. -/
theorem main_records {files : Files} {args : List String}
    (hmain : main host files args = .run t level)
    (htemplate : AtMostOneBytes (settingsAfter host t level).errorDoc)
    (hclean : ∀ x ∈ operatorTranscript E host t level evs, Machine.Clean x) :
    ∃ items operands, Spells acm.spec args items operands ∧
      Follows E host t level evs items := by
  obtain ⟨items, operands, -, hspells, ht, -⟩ := accepted_of_main hmain
  refine ⟨items, operands, hspells, ?_⟩
  have hcli {c : Char} (hc : c ∈ acmOptions.map OptionSpec.shortName) :
      t.cli c = lastGiven items c := by
    obtain ⟨o, ho⟩ := acm_knows hc
    rw [ht, cli_given hspells ho]
  rcases hconf : configured host t level with - | -
  · obtain ⟨hpolled, hpublished, -⟩ := @operatorRun_unconfigured _ E host t level evs hconf
    exact Or.inl ⟨hconf, hpolled, hpublished⟩
  · have hcomplete : t.Complete := ht ▸ complete_given items operands
    obtain ⟨cfile, text, hc, htext, hlaws⟩ := configured_settings hcomplete hconf
    have hmode := hlaws.mode
    rw [hcli (by decide)] at hc hmode
    refine Or.inr ⟨cfile, text, _, hc, htext, hlaws.template, ?_⟩
    rw [operatorRun_records htemplate hclean]
    apply congrArg (fun f => List.filterMap f _)
    funext x
    simp only [Machine.recordOf, Settings.codec, hmode]

end Operator

theorem spells_decoder : Spells acm.spec ["-c", "acm.properties", "-T", "decode"]
    [.arg 'c' "acm.properties", .arg 'T' "decode"] [] := by
  have hc : "-c" = GetOpt.word ([] ++ ['c']) := by decide
  have hT : "-T" = GetOpt.word ([] ++ ['T']) := by decide
  have htakes : acm.spec.takes 'c' = some true ∧ acm.spec.takes 'T' = some true := by
    decide +kernel
  rw [hc, hT]
  apply @Spells.separate acm.spec [] 'c' _ _ [.arg 'T' "decode"] [] (by simp) htakes.1
  exact @Spells.separate acm.spec [] 'T' _ [] [] [] (by simp) htakes.2 .nil

/-- A message that is decoded, a time-out, and a text that is no XML, on a machine
whose file asks for an encoder. -/
theorem main_records_decoder : ∃ items operands,
    Spells acm.spec ["-c", "acm.properties", "-T", "decode"] items operands ∧
      Follows (decoding (bytesDoc [("MessageFrame", "UPER")])) encoderHost
        (acm.given [.arg 'c' "acm.properties", .arg 'T' "decode"]) .err
        (Machine.polling [messageOf (bytesDoc [("MessageFrame", "UPER")]), ⟨.timedOut, ""⟩,
          ⟨.noError, "x"⟩]) items := by
  apply @main_records _ _ _ _ _ _ openFiles ["-c", "acm.properties", "-T", "decode"]
  · rw [main_accepted _ _ spells_decoder rfl]
    rfl
  · -- the template is the one that the machine has
    have hconf : configured encoderHost
        (acm.given [.arg 'c' "acm.properties", .arg 'T' "decode"]) .err = true := by
      decide +kernel
    obtain ⟨_, _, -, -, hlaws⟩ := configured_settings (complete_given _ []) hconf
    have htemplate : outputError = (settingsAfter encoderHost
        (acm.given [.arg 'c' "acm.properties", .arg 'T' "decode"]) .err).errorDoc :=
      (Prod.mk.inj hlaws.template).2
    exact htemplate ▸ atMostOneBytes_outputError
  · apply clean_operatorTranscript
    intro a ha
    have hmem := Machine.message_polling ha
    simp only [List.mem_cons, List.not_mem_nil, or_false] at hmem
    rcases hmem with h | h | h | h <;> rw [h]
    · decide
    · exact iff_of_true rfl (len_messageOf ..)
    · decide
    · decide

/-- A signal between configure and the loop. -/
theorem operatorRun_exited_signalled :
    let evs := [Machine.answering ⟨.timedOut, ""⟩, .sigterm, Machine.answering ⟨.timedOut, ""⟩,
      Machine.answering ⟨.timedOut, ""⟩]
    (operatorRun emptyHanded encoderHost
      (acm.given [.arg 'c' "acm.properties", .flag 'x']) .err evs).pc = .exited true ∧
      .sigterm ∈ evs := by
  intro evs
  have hexit : (operatorRun emptyHanded encoderHost
      (acm.given [.arg 'c' "acm.properties", .flag 'x']) .err evs).pc = .exited true := by
    decide +kernel
  exact ⟨hexit, operatorRun_exited hexit⟩

end Asn1Codec
