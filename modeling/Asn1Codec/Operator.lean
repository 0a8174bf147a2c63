/-
Asn1Codec/Operator.lean

operator() with launch_consumer and launch_producer, as a machine.

One step of the machine runs the main thread from one program point to the
next.  The program points are those between which a signal makes a difference:
before and after every statement that reads or writes `bootstrap` or
`data_available`, and every call that waits.  process_message is one step: of
the two flags it only ever clears `data_available`, as the handler does, so a
signal inside it comes to the same as one before or after it.

What the libraries answer is part of the step, and a signal is an event of its
own, so a run is any list of events.  The lists `polled`, `handled` and
`published` are the history of a run; the code does not keep them.
-/
import Asn1Codec.Process
import Asn1Codec.Runs

namespace Asn1Codec

open Xml (Node)
open Xml.Node

variable {V : Type}

/-! ### Program points -/

/-- The program points of the main thread, after the handlers are installed. -/
inductive Pc where
  | configure
  | whileBootstrap
  /-- `data_available = true;` comes next. -/
  | rearm
  | createConsumer
  /-- The loop test for the first of the remaining topics. -/
  | topicTest (topics : List String) (tcount : ℕ)
  | topicAvailable (topic : String) (topics : List String) (tcount : ℕ)
  | topicSleep (topic : String) (topics : List String) (tcount : ℕ)
  | subscribe (tcount : ℕ)
  | createProducer
  | createTopic
  /-- The sleep before `continue`. -/
  | relaunch
  | whileData
  | consume
  | process (msg : Message)
  | publish (msg : Message)
  | flush
  | summary
  | exited (success : Bool)
  deriving DecidableEq

/-- What topic_available does: it answers, or it calls std::exit. -/
inductive TopicAnswer where
  | available
  | missing
  | exit
  deriving DecidableEq

/-- What the libraries answer when the main thread calls them. -/
structure Answers where
  configured : Bool
  consumerCreated : Bool
  topic : TopicAnswer
  subscribed : Bool
  producerCreated : Bool
  topicCreated : Bool
  message : Message
  produced : Bool
  now : Clock

/-- One call of produce(): the message it belongs to, the record, what the
message writes to an empty stream, and the messages handled before. -/
structure Publication where
  message : Message
  record : String
  alone : String
  earlier : List Message

/-- The state of a run. -/
structure Machine where
  pc : Pc
  codec : Codec
  /-- `consumer_ptr` is set. -/
  consumer : Bool
  /-- What the message at hand writes to an empty stream. -/
  alone : String
  polled : List Message
  handled : List Message
  published : List Publication

inductive Event where
  | step (a : Answers)
  | sigterm

def Event.isStep : Event → Bool
  | .step _ => true
  | .sigterm => false

namespace Machine

variable (E : Externals V) (consumedTopics : List String)

/-- `msg->len() > 0`: publish the stream and clear it. -/
def publishStream (msg : Message) (a : Answers) (s : Machine) : Machine :=
  let record := s.codec.outputMessageStream
  let codec :=
    if a.produced then
      { s.codec with msgSendCount := s.codec.msgSendCount + 1,
                     msgSendBytes := s.codec.msgSendBytes + UInt64.ofNat record.length }
    else s.codec
  { s with codec := { codec with outputMessageStream := "" },
           published := s.published ++ [⟨msg, record, s.alone, s.handled⟩] }

/-- One step of the main thread. -/
def step (a : Answers) (s : Machine) : Machine :=
  match s.pc with
  | .configure => { s with pc := if a.configured then .whileBootstrap else .exited false }
  | .whileBootstrap => { s with pc := if s.codec.bootstrap then .rearm else .summary }
  | .rearm => { s with pc := .createConsumer, codec := { s.codec with dataAvailable := true } }
  | .createConsumer =>
    if s.consumer || a.consumerCreated then
      { s with pc := .topicTest consumedTopics 0, consumer := true }
    else { s with pc := .relaunch }
  | .topicTest [] tcount => { s with pc := .subscribe tcount }
  | .topicTest (topic :: topics) tcount =>
    if s.codec.dataAvailable && decide (tcount < consumedTopics.length) then
      { s with pc := .topicAvailable topic topics tcount }
    else { s with pc := .topicTest topics tcount }
  | .topicAvailable topic topics tcount =>
    match a.topic with
    | .available => { s with pc := .topicTest topics (tcount + 1) }
    | .missing => { s with pc := .topicSleep topic topics tcount }
    | .exit => { s with pc := .exited false }
  | .topicSleep topic topics tcount => { s with pc := .topicTest (topic :: topics) tcount }
  | .subscribe tcount =>
    if tcount = consumedTopics.length then
      { s with pc := if a.subscribed then .createProducer else .relaunch }
    else { s with pc := .relaunch }
  | .createProducer => { s with pc := if a.producerCreated then .createTopic else .relaunch }
  | .createTopic => { s with pc := if a.topicCreated then .whileData else .relaunch }
  | .relaunch => { s with pc := .whileBootstrap }
  | .whileData => { s with pc := if s.codec.dataAvailable then .consume else .whileBootstrap }
  | .consume => { s with pc := .process a.message, polled := s.polled ++ [a.message] }
  | .process msg =>
    { s with
      pc := .publish msg
      codec := handleMessage E msg a.now s.codec
      alone := (handleMessage E msg a.now
        { s.codec with outputMessageStream := "" }).outputMessageStream }
  | .publish msg =>
    let s := if msg.len > 0 then publishStream msg a s else s
    { s with pc := .flush, handled := s.handled ++ [msg] }
  | .flush => { s with pc := .whileData }
  | .summary => { s with pc := .exited true }
  | .exited success => { s with pc := .exited success }

def sigterm (s : Machine) : Machine :=
  { s with codec := { s.codec with dataAvailable := false, bootstrap := false } }

def next : Event → Machine → Machine
  | .step a, s => step E consumedTopics a s
  | .sigterm, s => sigterm s

/-- The state in which operator() is entered: the two static flags are set, the
counters are zero and the stream is new.  The other members are as they were
built and as configure() sets them. -/
def start (c : Codec) : Machine where
  pc := .configure
  codec :=
    { c with
      bootstrap := true
      dataAvailable := true
      eofCnt := 0
      msgRecvCount := 0
      msgSendCount := 0
      msgRecvBytes := 0
      msgSendBytes := 0
      outputMessageStream := "" }
  consumer := false
  alone := ""
  polled := []
  handled := []
  published := []

/-- The states of all runs. -/
abbrev Reachable (c : Codec) (s : Machine) : Prop :=
  Runs.Reachable (next E consumedTopics) (start c) s

/-- Libraries that succeed in every call, and `m` as the message. -/
def answering (m : Message) : Event :=
  .step ⟨true, true, .available, true, true, true, m, true, ⟨"t1", "t2"⟩⟩

/-- An event at another time. -/
def timed (now : Clock) : Event → Event
  | .step a => .step { a with now := now }
  | .sigterm => .sigterm

/-- The steps up to the consume loop, for one topic, and a turn of the loop for
each of some messages. -/
def polling (ms : List Message) : List Event :=
  List.replicate 10 (answering ⟨.timedOut, ""⟩) ++
    ms.flatMap fun m => List.replicate 5 (answering m)

end Machine

end Asn1Codec
