/-
Asn1Codec/Settings.lean

configure, from its first line to its last.

A setting can be given in the configuration file and on the command line; what
the command line says is looked at later and replaces what the file says.  The
parts of `configure` stand in the order of the source, since a part that fails
leaves the members as the parts before it have set them.  `Configured` has a law
for every setting, stated without that order.

Main result: configure succeeds exactly where the laws can be met, and leaves the
settings that meet them (`configure_iff`).
-/
import Asn1Codec.Configuration
import Asn1Codec.Hex
import Asn1Codec.Tool

namespace Asn1Codec

open Xml (Node)

/-! ### Numbers -/

/-- The number at the start of a text, as strtol reads it: spaces, a sign and at
least one digit. -/
def readNumber (s : String) : Option ℤ :=
  let digits (cs : List Char) : Option ℤ :=
    if cs.takeWhile Char.isDigit = [] then none
    else some (Nat.ofDigitChars 10 (cs.takeWhile Char.isDigit) 0)
  match s.toList.dropWhile isspace with
  | '-' :: cs => (digits cs).map Neg.neg
  | '+' :: cs => digits cs
  | cs => digits cs

/-- std::stoi. -/
def stoi (s : String) : Except StdExn ℤ :=
  match readNumber s with
  | none => .error (.invalidArgument "stoi")
  | some n => if -2147483648 ≤ n ∧ n ≤ 2147483647 then .ok n else .error (.outOfRange "stoi")

/-- strtoll. -/
def strtoll (s : String) : ℤ :=
  max (-9223372036854775808) (min 9223372036854775807 ((readNumber s).getD 0))

/-- optInt. -/
def Tool.optInt (t : Tool) (shortName : Char) : Except StdExn ℤ := do
  stoi (← t.getOption shortName).arg

/-! ### The options -/

/-- The options that main adds. -/
def acmOptions : List OptionSpec :=
  [⟨'c', "config", "Configuration file name and path.", 1, "", by decide⟩,
    ⟨'C', "config-check", "Check the configuration file contents and output the settings.", 0, "",
      by decide⟩,
    ⟨'t', "produce-topic", "The name of the topic to produce.", 1, "", by decide⟩,
    ⟨'p', "partition", "Consumer topic partition from which to read.", 1, "", by decide⟩,
    ⟨'g', "group", "Consumer group identifier", 1, "", by decide⟩,
    ⟨'b', "broker", "Broker address (localhost:9092)", 1, "", by decide⟩,
    ⟨'o', "offset", "Byte offset to start reading in the consumed topic.", 1, "", by decide⟩,
    ⟨'x', "exit", "Exit consumer when last message in partition has been received.", 0, "",
      by decide⟩,
    ⟨'d', "debug", "debug level.", 1, "", by decide⟩,
    ⟨'v', "log-level", "The info log level [trace,debug,info,warning,error,critical,off]", 1, "",
      by decide⟩,
    ⟨'D', "log-dir", "Directory for the log files.", 1, "", by decide⟩,
    ⟨'R', "log-rm", "Remove specified/default log files if they exist.", 0, "", by decide⟩,
    ⟨'i', "log", "Log file name.", 1, "", by decide⟩,
    ⟨'h', "help", "print out some help", 0, "", by decide⟩,
    ⟨'F', "infile", "accept a file and bypass kafka.", 0, "", by decide⟩,
    ⟨'T', "codec-type", "The type of codec to use: decode or encode; defaults to decode", 1, "",
      by decide⟩,
    ⟨'H', "http-server", "Run http server instead of Kafka.", 0, "", by decide⟩]

/-- The tool as main builds it. -/
def acm : Tool := .build acmOptions

/-! ### The members -/

/-- spdlog::level. -/
inductive LogLevel where
  | trace
  | debug
  | info
  | warn
  | err
  | critical
  | off
  deriving DecidableEq

/-- The chain of comparisons that reads a level. -/
def LogLevel.read (s : String) : Option LogLevel :=
  if "TRACE" = s then some .trace
  else if "DEBUG" = s then some .debug
  else if "INFO" = s then some .info
  else if "WARNING" = s then some .warn
  else if "ERROR" = s then some .err
  else if "CRITICAL" = s then some .critical
  else if "OFF" = s then some .off
  else none

/-- What configure finds around the program: Kafka's configuration objects, the
text with which they refuse a setting, the environment, the configuration files,
and `xml_document::load_file`. -/
structure Host where
  kafka : KafkaConf
  refusal : String → String → String
  getenv : String → Option String
  openFile : String → Option String
  loadFile : String → Option ParseError × Node

/-- The members of ASN1_Codec that configure sets. -/
structure Settings where
  configuration : Configuration
  decodeFunctionality : Bool
  level : LogLevel
  errorDoc : Node
  partition : ℤ
  offset : ℤ
  exitEof : Bool
  defaultTopicConf : Option StrStrMap
  consumedTopics : List String
  publishedTopicName : String
  consumerTimeout : ℤ

/-- RdKafka::Topic::PARTITION_UA. -/
def PARTITION_UA : ℤ := -1

/-- RdKafka::Topic::OFFSET_BEGINNING, OFFSET_END and OFFSET_STORED. -/
def OFFSET_BEGINNING : ℤ := -2
def OFFSET_END : ℤ := -1
def OFFSET_STORED : ℤ := -1000

/-- The members as the constructor sets them, with the logger at a level. -/
def Settings.constructed (level : LogLevel) : Settings where
  configuration := .empty
  decodeFunctionality := true
  level := level
  errorDoc := .document []
  partition := PARTITION_UA
  offset := OFFSET_BEGINNING
  exitEof := true
  defaultTopicConf := none
  consumedTopics := []
  publishedTopicName := ""
  consumerTimeout := 500

/-- How configure stops early: with false and the error that it logs, or by an
exception. -/
inductive Stop where
  | failed (what : String)
  | thrown (e : StdExn)
  deriving DecidableEq

abbrev SettingsM := EStateM Stop Settings

/-! ### The parts of configure -/

/-- Log an error and return false. -/
def fails {α : Type} (what : String) : SettingsM α := throw (.failed ("configure()" ++ what))

/-- Continue with a value, or let the exception through. -/
def ofStd {α : Type} : Except StdExn α → SettingsM α
  | .ok a => pure a
  | .error e => throw (.thrown e)

/-- `conf->set(key, value, error_string)`: whether it gives CONF_OK. -/
def confSet (host : Host) (key value : String) : SettingsM Bool := do
  let c := (← get).configuration
  if host.kafka.globalSet c.conf key value then
    modify fun s => { s with configuration := { c with conf := c.conf.set key value } }
    pure true
  else pure false

/-- Two calls of Conf::create. -/
def Configuration.created (c : Configuration) : Configuration :=
  { c with conf := fun _ => none, tconf := fun _ => none }

section Parts

variable (host : Host) (t : Tool)

/-- The new configuration objects, and the loop over the configuration file. -/
def readConfigurationFile : SettingsM Unit := do
  modify fun s => { s with configuration := s.configuration.created }
  if !t.optIsSet 'c' then fails ": asked to use a configuration file, but option not set."
  else
    let cfile ← ofStd (t.optString 'c')
    match host.openFile cfile with
    | none => fails (": cannot open configuration file: " ++ cfile)
    | some text =>
      modify fun s => { s with
        configuration := Runs.run (configureLine host.kafka) s.configuration (getlines text) }

/-- The type of codec that a word asks for. -/
def functionality (s : String) (current : Bool) : Bool :=
  if "encode" = s then false else if "decode" = s then true else current

def setFunctionality : SettingsM Unit := do
  match (← get).configuration.pconf "acm.type" with
  | some v => modify fun s => { s with
      decodeFunctionality := functionality v s.decodeFunctionality }
  | none => pure ()
  if t.optIsSet 'T' then
    let v ← ofStd (t.optString 'T')
    modify fun s => { s with decodeFunctionality := functionality v s.decodeFunctionality }

def setLevel : SettingsM Unit := do
  if t.optIsSet 'v' then
    let v ← ofStd (t.optString 'v')
    match LogLevel.read v with
    | some level => modify fun s => { s with level := level }
    | none => pure ()

def loadErrorTemplate : SettingsM Unit := do
  let errorfile := ((← get).configuration.pconf "acm.error.template").getD
    "./config/Output.error.xml"
  modify fun s => { s with errorDoc := (host.loadFile errorfile).2 }
  match (host.loadFile errorfile).1 with
  | some e => fails (": Failure to find or parse the error template file: " ++ e.description ++
      " (offset = " ++ toString e.offset ++ ")!")
  | none => pure ()

def setBroker : SettingsM Unit := do
  if t.optIsSet 'b' then
    let v ← ofStd (t.optString 'b')
    let _ ← confSet host "metadata.broker.list" v

def setPartition : SettingsM Unit := do
  if t.optIsSet 'p' then
    let n ← ofStd (t.optInt 'p')
    modify fun s => { s with partition := n }
  else
    match (← get).configuration.pconf "asn1.kafka.partition" with
    | some v =>
      let n ← ofStd (stoi v)
      modify fun s => { s with partition := n }
    | none => pure ()

/-- getEnvironmentVariable. -/
def getEnvironmentVariable (variableName : String) : String := (host.getenv variableName).getD ""

/-- The settings for a Confluent cloud. -/
def confluentSettings : List (String × String) :=
  [("bootstrap.servers", getEnvironmentVariable host "DOCKER_HOST_IP"),
    ("security.protocol", "SASL_SSL"),
    ("sasl.mechanism", "PLAIN"),
    ("sasl.username", getEnvironmentVariable host "CONFLUENT_KEY"),
    ("sasl.password", getEnvironmentVariable host "CONFLUENT_SECRET"),
    ("api.version.request", "true"),
    ("api.version.fallback.ms", "0"),
    ("broker.version.fallback", "0.10.0.0")]

def confSetAll : List (String × String) → SettingsM Unit
  | [] => pure ()
  | (key, value) :: settings => do
    let _ ← confSet host key value
    confSetAll settings

def setConfluent : SettingsM Unit :=
  if getEnvironmentVariable host "KAFKA_TYPE" = "CONFLUENT" then
    confSetAll host (confluentSettings host)
  else pure ()

def setGroup : SettingsM Unit := do
  let g ← ofStd (t.getOption 'g')
  if g.isSet then
    let v ← ofStd (t.optString 'g')
    if !(← confSet host "group.id" v) then
      fails (": kafka error setting configuration parameters group.id h: " ++
        host.refusal "group.id" v)

/-- The offset that a word asks for. -/
def offsetOf (o : String) : ℤ :=
  if o = "end" then OFFSET_END
  else if o = "beginning" then OFFSET_BEGINNING
  else if o = "stored" then OFFSET_STORED
  else strtoll o

def setOffset : SettingsM Unit := do
  let o ← ofStd (t.getOption 'o')
  if o.isSet then
    let v ← ofStd (t.optString 'o')
    modify fun s => { s with offset := offsetOf v }

def setExitEof : SettingsM Unit := do
  let x ← ofStd (t.getOption 'x')
  modify fun s => { s with exitEof := x.isSet }

def setDebug : SettingsM Unit := do
  if t.optIsSet 'd' then
    let v ← ofStd (t.optString 'd')
    if !(← confSet host "debug" v) then
      fails (": kafka error setting configuration parameter debug: " ++ host.refusal "debug" v)

/-- `conf->set("default_topic_conf", tconf, error_string)`. -/
def setDefaultTopicConf : SettingsM Unit :=
  modify fun s => { s with defaultTopicConf := some s.configuration.tconf }

def setConsumedTopic : SettingsM Unit := do
  match (← get).configuration.pconf "asn1.topic.consumer" with
  | some v => modify fun s => { s with consumedTopics := s.consumedTopics ++ [v] }
  | none => fails ": no consumer topic was specified; must fail."

def setPublishedTopic : SettingsM Unit := do
  if t.optIsSet 't' then
    let v ← ofStd (t.optString 't')
    modify fun s => { s with publishedTopicName := v }
  else
    match (← get).configuration.pconf "asn1.topic.producer" with
    | some v => modify fun s => { s with publishedTopicName := v }
    | none => fails ": no publisher topic was specified; must fail."

def setConsumerTimeout : SettingsM Unit := do
  match (← get).configuration.pconf "asn1.consumer.timeout.ms" with
  | some v =>
    match stoi v with
    | .ok n => modify fun s => { s with consumerTimeout := n }
    | .error _ => pure ()
  | none => pure ()

/-- configure. -/
def configure : SettingsM Unit := do
  readConfigurationFile host t
  setFunctionality t
  setLevel t
  loadErrorTemplate host
  setBroker host t
  setPartition t
  setConfluent host
  setGroup host t
  setOffset t
  setExitEof t
  setDebug host t
  setDefaultTopicConf
  setConsumedTopic
  setPublishedTopic t
  setConsumerTimeout

end Parts

/-! ### What the settings should be -/

/-- What the command line gives for an option. -/
def Tool.cli (t : Tool) (c : Char) : Option String :=
  match t.optionsMap c with
  | some o => if o.isSet then some o.arg else none
  | none => none

/-- A setting that Kafka's global configuration is asked to take. -/
def KafkaConf.take (K : KafkaConf) (m : StrStrMap) (setting : String × String) : StrStrMap :=
  if K.globalSet m setting.1 setting.2 then m.set setting.1 setting.2 else m

/-- What becomes of Kafka's configuration where an option has to be taken. -/
def Taken (K : KafkaConf) (m : StrStrMap) (key : String) (given : Option String)
    (m' : StrStrMap) : Prop :=
  match given with
  | some v => K.globalSet m key v = true ∧ m' = m.set key v
  | none => m' = m

/-- The settings for Kafka that do not come from the file, up to the group. -/
def cloudSettings (host : Host) (t : Tool) : List (String × String) :=
  ((t.cli 'b').map fun v => ("metadata.broker.list", v)).toList ++
    if getEnvironmentVariable host "KAFKA_TYPE" = "CONFLUENT" then confluentSettings host else []

/-- The codec that a word asks for. -/
def modeOf (s : String) : Option Bool :=
  if "encode" = s then some false else if "decode" = s then some true else none

/-- The laws of a configured codec, over what the configuration file has left in
`c`: for every setting that both can give, the command line comes first. -/
structure Configured (host : Host) (t : Tool) (c : Configuration) (level : LogLevel)
    (s : Settings) : Prop where
  pconf : s.configuration.pconf = c.pconf
  tconf : s.configuration.tconf = c.tconf
  warnings : s.configuration.warnings = c.warnings
  log : s.configuration.log = c.log
  mode : s.decodeFunctionality =
    (((t.cli 'T').bind modeOf).or ((c.pconf "acm.type").bind modeOf)).getD true
  level : s.level = ((t.cli 'v').bind LogLevel.read).getD level
  template : host.loadFile ((c.pconf "acm.error.template").getD "./config/Output.error.xml") =
    (none, s.errorDoc)
  partition : match (t.cli 'p').or (c.pconf "asn1.kafka.partition") with
    | some v => stoi v = .ok s.partition
    | none => s.partition = PARTITION_UA
  offset : s.offset = ((t.cli 'o').map offsetOf).getD OFFSET_BEGINNING
  exitEof : s.exitEof = (t.cli 'x').isSome
  topicConf : s.defaultTopicConf = some c.tconf
  consumed : ∃ v, c.pconf "asn1.topic.consumer" = some v ∧ s.consumedTopics = [v]
  published : (t.cli 't').or (c.pconf "asn1.topic.producer") = some s.publishedTopicName
  timeout : s.consumerTimeout =
    ((c.pconf "asn1.consumer.timeout.ms").bind fun v => (stoi v).toOption).getD 500
  conf : ∃ group, Taken host.kafka ((cloudSettings host t).foldl host.kafka.take c.conf)
      "group.id" (t.cli 'g') group ∧
    Taken host.kafka group "debug" (t.cli 'd') s.configuration.conf

/-! ### The parts, one by one -/

theorem run_bind_ok {ε σ α β : Type} {x : EStateM ε σ α} {f : α → EStateM ε σ β} {s s' : σ}
    {b : β} : (x >>= f).run s = .ok b s' ↔
      ∃ a s₁, x.run s = .ok a s₁ ∧ (f a).run s₁ = .ok b s' := by
  rw [EStateM.run_bind]
  rcases x.run s with ⟨a, s₁⟩ | ⟨e, s₁⟩
  · simp
  · simp

theorem run_seq_ok {ε σ β : Type} {x : EStateM ε σ Unit} {y : EStateM ε σ β} {s s' : σ} {b : β} :
    (x >>= fun _ => y).run s = .ok b s' ↔ ∃ s₁, x.run s = .ok () s₁ ∧ y.run s₁ = .ok b s' := by
  rw [run_bind_ok]
  exact ⟨fun ⟨_, h⟩ => h, fun h => ⟨(), h⟩⟩

theorem Tool.optIsSet_eq (t : Tool) (c : Char) : t.optIsSet c = (t.cli c).isSome := by
  rw [optIsSet, cli]
  rcases t.optionsMap c with - | o
  · rfl
  · rcases h : o.isSet with - | - <;> simp [h]

theorem Tool.optString_of_cli {t : Tool} {c : Char} {v : String} (h : t.cli c = some v) :
    t.optString c = .ok v := by
  rcases ho : t.optionsMap c with - | o
  · simp [cli, ho] at h
  · have hv : o.isSet = true ∧ o.arg = v := by simpa [cli, ho] using h
    simp [optString, getOption, ho, Except.map, hv.2]

theorem Tool.optInt_of_cli {t : Tool} {c : Char} {v : String} (h : t.cli c = some v) :
    t.optInt c = stoi v := by
  rcases ho : t.optionsMap c with - | o
  · simp [cli, ho] at h
  · have hv : o.isSet = true ∧ o.arg = v := by simpa [cli, ho] using h
    rw [optInt, getOption, ho, ← hv.2]
    rfl

/-- A branch on an option, with the argument read first. -/
theorem onOption {α : Type} (t : Tool) (c : Char) (f : String → SettingsM α) (g : SettingsM α) :
    (if t.optIsSet c = true then do
        let v ← ofStd (t.optString c)
        f v
      else g) =
      match t.cli c with
      | some v => f v
      | none => g := by
  rw [t.optIsSet_eq]
  rcases h : t.cli c with - | v
  · rfl
  · simp [t.optString_of_cli h, ofStd]

/-- The tool has the options that configure asks for without a test. -/
structure Tool.Complete (t : Tool) : Prop where
  g : ∃ o, t.optionsMap 'g' = some o
  o : ∃ o, t.optionsMap 'o' = some o
  x : ∃ o, t.optionsMap 'x' = some o

/-- An option that the tool has is set exactly if the command line gives it. -/
theorem ofStd_getOption {t : Tool} {c : Char} (h : ∃ o, t.optionsMap c = some o) :
    ∃ o : CliOption, (ofStd (t.getOption c) : SettingsM CliOption) = pure o ∧
      o.isSet = t.optIsSet c := by
  obtain ⟨o, ho⟩ := h
  exact ⟨o, by rw [Tool.getOption, ho]; rfl, by rw [Tool.optIsSet, ho]⟩

/-- A run that ends in a state ends in no other. -/
theorem ran {ε σ : Type} {x : EStateM ε σ Unit} {s s₁ s' : σ} (h : x.run s = .ok () s₁) :
    x.run s = .ok () s' ↔ s' = s₁ := by
  rw [h, EStateM.Result.ok.injEq]
  exact ⟨fun h => h.2.symm, fun h => ⟨rfl, h.symm⟩⟩

section Runs

variable {host : Host} {t : Tool} {s s' : Settings}

theorem run_readConfigurationFile : (readConfigurationFile host t).run s = .ok () s' ↔
    ∃ cfile text, t.cli 'c' = some cfile ∧ host.openFile cfile = some text ∧
      s' = { s with
        configuration :=
          Runs.run (configureLine host.kafka) s.configuration.created (getlines text) } := by
  simp only [readConfigurationFile, t.optIsSet_eq]
  rcases hc : t.cli 'c' with - | cfile
  · simp [fails]
  · rcases htext : host.openFile cfile with - | text
    · simp [t.optString_of_cli hc, ofStd, htext, fails]
    · simp [t.optString_of_cli hc, ofStd, htext, eq_comm]

theorem run_setFunctionality : (setFunctionality t).run s = .ok () s' ↔
    s' = { s with
      decodeFunctionality := (((t.cli 'T').bind modeOf).or
        ((s.configuration.pconf "acm.type").bind modeOf)).getD s.decodeFunctionality } := by
  have hmode (v : String) (b : Bool) : functionality v b = (modeOf v).getD b := by
    rw [functionality, modeOf]
    split
    · rfl
    · split <;> rfl
  apply ran
  simp only [setFunctionality, onOption]
  -- the command line is asked after the file, so its word wins where it is one
  rcases hf : s.configuration.pconf "acm.type" with - | v <;>
    rcases hT : t.cli 'T' with - | w
  · simp only [EStateM.run_bind, EStateM.run_get, hf]
    rfl
  · simp [hf, hmode]
  · simp [hf, hmode]
  · rcases hw : modeOf w with - | b <;> simp [hf, hmode, hw]

theorem run_setLevel : (setLevel t).run s = .ok () s' ↔
    s' = { s with level := ((t.cli 'v').bind LogLevel.read).getD s.level } := by
  apply ran
  simp only [setLevel, onOption]
  rcases hv : t.cli 'v' with - | v
  · rfl
  · rcases hl : LogLevel.read v with - | l
    · simp only [hl, Option.bind_some]
      rfl
    · simp [hl]

theorem run_loadErrorTemplate : (loadErrorTemplate host).run s = .ok () s' ↔
    ∃ doc, host.loadFile ((s.configuration.pconf "acm.error.template").getD
        "./config/Output.error.xml") = (none, doc) ∧ s' = { s with errorDoc := doc } := by
  simp only [loadErrorTemplate]
  rcases hload : host.loadFile ((s.configuration.pconf "acm.error.template").getD
    "./config/Output.error.xml") with ⟨- | e, doc⟩
  · simp [hload, eq_comm]
  · simp [hload, fails]

theorem run_setPartition : (setPartition t).run s = .ok () s' ↔
    ∃ n, (match (t.cli 'p').or (s.configuration.pconf "asn1.kafka.partition") with
        | some v => stoi v = .ok n
        | none => n = s.partition) ∧ s' = { s with partition := n } := by
  rcases hp : t.cli 'p' with - | v
  · rcases hf : s.configuration.pconf "asn1.kafka.partition" with - | v
    · have hrun : (setPartition t).run s = .ok () s := by
        simp [setPartition, t.optIsSet_eq, hp, hf]
      rw [ran hrun]
      simp
    · rcases hn : stoi v with e | n
      · simp [setPartition, t.optIsSet_eq, hp, hf, hn, ofStd]
      · simp [setPartition, t.optIsSet_eq, hp, hf, hn, ofStd, eq_comm]
  · rcases hn : stoi v with e | n
    · simp [setPartition, t.optIsSet_eq, hp, t.optInt_of_cli hp, hn, ofStd]
    · simp [setPartition, t.optIsSet_eq, hp, t.optInt_of_cli hp, hn, ofStd, eq_comm]

theorem run_setOffset (h : t.Complete) : (setOffset t).run s = .ok () s' ↔
    s' = { s with offset := ((t.cli 'o').map offsetOf).getD s.offset } := by
  obtain ⟨o, ho, hset⟩ := ofStd_getOption h.o
  apply ran
  simp only [setOffset, ho, pure_bind, hset, onOption]
  rcases t.cli 'o' with - | v
  · rfl
  · rfl

theorem run_setExitEof (h : t.Complete) : (setExitEof t).run s = .ok () s' ↔
    s' = { s with exitEof := (t.cli 'x').isSome } := by
  obtain ⟨o, ho, hset⟩ := ofStd_getOption h.x
  apply ran
  simp [setExitEof, ho, hset, t.optIsSet_eq]

theorem run_setDefaultTopicConf : setDefaultTopicConf.run s = .ok () s' ↔
    s' = { s with defaultTopicConf := some s.configuration.tconf } :=
  ran rfl

theorem run_setConsumedTopic : setConsumedTopic.run s = .ok () s' ↔
    ∃ v, s.configuration.pconf "asn1.topic.consumer" = some v ∧
      s' = { s with consumedTopics := s.consumedTopics ++ [v] } := by
  simp only [setConsumedTopic]
  rcases hf : s.configuration.pconf "asn1.topic.consumer" with - | v
  · simp [hf, fails]
  · simp [hf, eq_comm]

theorem run_setPublishedTopic : (setPublishedTopic t).run s = .ok () s' ↔
    ∃ v, (t.cli 't').or (s.configuration.pconf "asn1.topic.producer") = some v ∧
      s' = { s with publishedTopicName := v } := by
  simp only [setPublishedTopic, onOption]
  rcases ht : t.cli 't' with - | v
  · rcases hf : s.configuration.pconf "asn1.topic.producer" with - | v
    · simp [hf, fails]
    · simp [hf, eq_comm]
  · simp [eq_comm]

theorem run_setConsumerTimeout : setConsumerTimeout.run s = .ok () s' ↔
    s' = { s with
      consumerTimeout := ((s.configuration.pconf "asn1.consumer.timeout.ms").bind
        fun v => (stoi v).toOption).getD s.consumerTimeout } := by
  apply ran
  simp only [setConsumerTimeout, EStateM.run_bind, EStateM.run_get]
  rcases hf : s.configuration.pconf "asn1.consumer.timeout.ms" with - | v
  · rfl
  · rcases hn : stoi v with e | n
    · simp only [hn, Option.bind_some]
      rfl
    · simp [hn, Except.toOption]

/-! What Kafka's configuration is asked to take. -/

/-- The settings with another global configuration of Kafka. -/
def Settings.withConf (s : Settings) (m : StrStrMap) : Settings :=
  { s with configuration := { s.configuration with conf := m } }

theorem run_confSet {key value : String} {b : Bool} :
    (confSet host key value).run s = .ok b s' ↔
      b = host.kafka.globalSet s.configuration.conf key value ∧
      s' = s.withConf (host.kafka.take s.configuration.conf (key, value)) := by
  have hrun : (confSet host key value).run s =
      .ok (host.kafka.globalSet s.configuration.conf key value)
        (s.withConf (host.kafka.take s.configuration.conf (key, value))) := by
    simp only [confSet, EStateM.run_bind, EStateM.run_get]
    rcases h : host.kafka.globalSet s.configuration.conf key value with - | -
    · simp only [KafkaConf.take, h]
      rfl
    · simp only [KafkaConf.take, h]
      rfl
  rw [hrun, EStateM.Result.ok.injEq]
  exact and_congr eq_comm eq_comm

theorem run_confSetAll (settings : List (String × String)) :
    (confSetAll host settings).run s = .ok () s' ↔
      s' = s.withConf (settings.foldl host.kafka.take s.configuration.conf) := by
  induction settings generalizing s with
  | nil => exact ran rfl
  | cons setting settings ih =>
    simp only [confSetAll, run_bind_ok, run_confSet, ih]
    simp [Settings.withConf]

theorem run_setBroker : (setBroker host t).run s = .ok () s' ↔
    s' = s.withConf (((t.cli 'b').map fun v => ("metadata.broker.list", v)).toList.foldl
      host.kafka.take s.configuration.conf) := by
  simp only [setBroker, onOption]
  rcases t.cli 'b' with - | v
  · exact ran rfl
  · simp only [run_bind_ok, run_confSet]
    simp [eq_comm]

theorem run_setConfluent : (setConfluent host).run s = .ok () s' ↔
    s' = s.withConf ((if getEnvironmentVariable host "KAFKA_TYPE" = "CONFLUENT" then
      confluentSettings host else []).foldl host.kafka.take s.configuration.conf) := by
  rw [setConfluent]
  split
  · exact run_confSetAll _
  · exact ran rfl

/-- A setting that has to be taken. -/
theorem run_confSet_or_fail {key value what : String} :
    (do if !(← confSet host key value) then fails what).run s = .ok () s' ↔
      host.kafka.globalSet s.configuration.conf key value = true ∧
        s' = s.withConf (s.configuration.conf.set key value) := by
  simp only [run_bind_ok, run_confSet]
  rcases h : host.kafka.globalSet s.configuration.conf key value with - | -
  · simp [fails]
  · simp [KafkaConf.take, h, eq_comm]

theorem run_setGroup (h : t.Complete) : (setGroup host t).run s = .ok () s' ↔
    ∃ m, Taken host.kafka s.configuration.conf "group.id" (t.cli 'g') m ∧ s' = s.withConf m := by
  obtain ⟨o, ho, hset⟩ := ofStd_getOption h.g
  simp only [setGroup, ho, pure_bind, hset, onOption, Taken]
  rcases t.cli 'g' with - | v
  · simp only [exists_eq_left]
    exact ran rfl
  · refine run_confSet_or_fail.trans ?_
    simp [and_assoc]

theorem run_setDebug : (setDebug host t).run s = .ok () s' ↔
    ∃ m, Taken host.kafka s.configuration.conf "debug" (t.cli 'd') m ∧ s' = s.withConf m := by
  simp only [setDebug, onOption, Taken]
  rcases t.cli 'd' with - | v
  · simp only [exists_eq_left]
    exact ran rfl
  · refine run_confSet_or_fail.trans ?_
    simp [and_assoc]

/-- A configure that succeeds has taken every setting as its law says. -/
theorem configured_of_run (h : t.Complete) {level : LogLevel}
    (hrun : (configure host t).run (.constructed level) = .ok () s') :
    ∃ cfile text, t.cli 'c' = some cfile ∧ host.openFile cfile = some text ∧
      Configured host t (configureLoop host.kafka text) level s' := by
  simp only [configure, run_seq_ok, run_readConfigurationFile, run_setFunctionality,
    run_setLevel, run_loadErrorTemplate, run_setBroker, run_setPartition, run_setConfluent,
    run_setGroup h, run_setOffset h, run_setExitEof h, run_setDebug, run_setDefaultTopicConf,
    run_setConsumedTopic, run_setPublishedTopic, run_setConsumerTimeout] at hrun
  -- part by part: the members that it sets, in terms of those before it
  obtain ⟨_, ⟨cfile, text, hc, htext, rfl⟩, _, rfl, _, rfl, _, ⟨doc, hdoc, rfl⟩, _, rfl, _,
    ⟨n, hn, rfl⟩, _, rfl, _, ⟨group, hgroup, rfl⟩, _, rfl, _, rfl, _, ⟨debug, hdebug, rfl⟩, _,
    rfl, _, ⟨topic, htopic, rfl⟩, _, ⟨published, hpublished, rfl⟩, rfl⟩ := hrun
  refine ⟨cfile, text, hc, htext, rfl, rfl, rfl, rfl, rfl, rfl, hdoc, ?_, rfl, rfl, rfl,
    ⟨topic, htopic, rfl⟩, hpublished, rfl, group, ?_, hdebug⟩
  · exact hn
  · rw [cloudSettings, List.foldl_append]
    exact hgroup

/-- Settings that obey the laws are those of a configure that succeeds. -/
theorem run_of_laws (h : t.Complete) {level : LogLevel} {cfile text : String}
    (hc : t.cli 'c' = some cfile) (htext : host.openFile cfile = some text)
    (hs : Configured host t (configureLoop host.kafka text) level s') :
    (configure host t).run (.constructed level) = .ok () s' := by
  simp only [configure, run_seq_ok, run_readConfigurationFile, run_setFunctionality,
    run_setLevel, run_loadErrorTemplate, run_setBroker, run_setPartition, run_setConfluent,
    run_setGroup h, run_setOffset h, run_setExitEof h, run_setDebug, run_setDefaultTopicConf,
    run_setConsumedTopic, run_setPublishedTopic, run_setConsumerTimeout]
  -- the laws name every member, so they leave no choice of settings
  rcases s' with ⟨⟨tconf, conf, pconf, warnings, log⟩, mode, level', doc, n, offset, exitEof,
    topicConf, topics, published, timeout⟩
  obtain ⟨rfl, rfl, rfl, rfl, rfl, rfl, hdoc, hn, rfl, rfl, rfl, ⟨topic, htopic, rfl⟩, hpublished,
    rfl, group, hgroup, hdebug⟩ := hs
  rw [cloudSettings, List.foldl_append] at hgroup
  exact ⟨_, ⟨cfile, text, hc, htext, rfl⟩, _, rfl, _, rfl, _, ⟨doc, hdoc, rfl⟩, _, rfl, _,
    ⟨n, hn, rfl⟩, _, rfl, _, ⟨group, hgroup, rfl⟩, _, rfl, _, rfl, _, ⟨conf, hdebug, rfl⟩, _, rfl,
    _, ⟨topic, htopic, rfl⟩, _, ⟨published, hpublished, rfl⟩, rfl⟩

/-- **The settings of a codec**: configure succeeds exactly where the command
line names a configuration file that opens and all that it asks for is there, and
then every setting is what its law says. -/
theorem configure_iff (h : t.Complete) {level : LogLevel} :
    (configure host t).run (.constructed level) = .ok () s' ↔
      ∃ cfile text, t.cli 'c' = some cfile ∧ host.openFile cfile = some text ∧
        Configured host t (configureLoop host.kafka text) level s' := by
  constructor
  · exact configured_of_run h
  · rintro ⟨cfile, text, hc, htext, hs⟩
    exact run_of_laws h hc htext hs

end Runs

/-! ### An encoder -/

/-- The configuration file of an encoder. -/
def encoderFile : String :=
  "acm.type = encode\nasn1.topic.consumer=in\nasn1.topic.producer=out\ngroup.id=0\n"

/-- A machine with this file and the template, where Kafka takes the group. -/
def encoderHost : Host where
  kafka := ⟨fun _ _ _ => false, fun _ key _ => key == "group.id"⟩
  refusal _ _ := ""
  getenv _ := none
  openFile f := if f = "acm.properties" then some encoderFile else none
  loadFile _ := (none, outputError)

/-- A tool that has been called with `-c acm.properties -x -o end`. -/
def encoderTool : Tool :=
  acm.given [.arg 'c' "acm.properties", .flag 'x', .arg 'o' "end"]

/-- What configure makes of it. -/
def encoderSettings : Settings :=
  { Settings.constructed .err with
    configuration := configureLoop encoderHost.kafka encoderFile
    errorDoc := outputError
    decodeFunctionality := false
    offset := OFFSET_END
    defaultTopicConf := some (configureLoop encoderHost.kafka encoderFile).tconf
    consumedTopics := ["in"]
    publishedTopicName := "out" }

theorem configured_encoder : Configured encoderHost encoderTool
    (configureLoop encoderHost.kafka encoderFile) .err encoderSettings where
  pconf := rfl
  tconf := rfl
  warnings := rfl
  log := rfl
  mode := by decide +kernel
  level := by decide +kernel
  template := rfl
  partition := by
    have hnone : (encoderTool.cli 'p').or
        ((configureLoop encoderHost.kafka encoderFile).pconf "asn1.kafka.partition") = none := by
      decide +kernel
    rw [hnone]
    rfl
  offset := by decide +kernel
  exitEof := by decide +kernel
  topicConf := rfl
  consumed := ⟨"in", by decide +kernel, rfl⟩
  published := by decide +kernel
  timeout := by decide +kernel
  conf := ⟨_, rfl, rfl⟩

theorem configure_iff_encoder :
    (configure encoderHost encoderTool).run (.constructed .err) = .ok () encoderSettings ∧
      ∃ cfile text, encoderTool.cli 'c' = some cfile ∧ encoderHost.openFile cfile = some text ∧
        Configured encoderHost encoderTool (configureLoop encoderHost.kafka text) .err
          encoderSettings := by
  have hlaws : ∃ cfile text, encoderTool.cli 'c' = some cfile ∧
      encoderHost.openFile cfile = some text ∧
      Configured encoderHost encoderTool (configureLoop encoderHost.kafka text) .err
        encoderSettings :=
    ⟨"acm.properties", encoderFile, by decide +kernel, rfl, configured_encoder⟩
  exact ⟨(configure_iff ⟨⟨_, rfl⟩, ⟨_, rfl⟩, ⟨_, rfl⟩⟩).mpr hlaws, hlaws⟩

end Asn1Codec
