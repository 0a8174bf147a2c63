/-
Asn1Codec/Handles.lean

The order in which a run uses the handles it gets from Kafka.

consumer_ptr, producer_ptr and published_topic_ptr are null until a call creates
what they point to, and null again where a later call fails to; the consumer can
be polled once it has subscribed, and a topic goes with the producer it was
created for.  `Handles.apply` is this protocol, on its own; it does not accept a
call on a handle that is not there.

Main result: the protocol accepts the calls of every run, however launches fail
and signals fall (`calls_accepted`).
-/
import Asn1Codec.Operator

namespace Asn1Codec

/-! ### The protocol -/

/-- A call, with whether it succeeds where that matters. -/
inductive KafkaCall where
  | createConsumer (ok : Bool)
  | metadata
  | subscribe (ok : Bool)
  | createProducer (ok : Bool)
  | createTopic (ok : Bool)
  | consume
  | produce
  deriving DecidableEq

/-- What there is. -/
structure Handles where
  consumer : Bool
  subscribed : Bool
  producer : Bool
  topic : Bool
  deriving DecidableEq

namespace Handles

def null : Handles := ⟨false, false, false, false⟩

/-- A call, unless what it needs is missing. -/
def apply (h : Handles) : KafkaCall → Option Handles
  | .createConsumer ok => some { h with consumer := ok, subscribed := false }
  | .metadata => if h.consumer then some h else none
  | .subscribe ok => if h.consumer then some { h with subscribed := ok } else none
  | .createProducer ok => some { h with producer := ok, topic := false }
  | .createTopic ok => if h.producer then some { h with topic := ok } else none
  | .consume => if h.consumer && h.subscribed then some h else none
  | .produce => if h.producer && h.topic then some h else none

/-- Calls that are accepted one after the other. -/
def Accepts (h h' : Handles) (calls : List KafkaCall) : Prop :=
  calls.foldlM apply h = some h'

theorem Accepts.append {h₀ h₁ h₂ : Handles} {calls calls' : List KafkaCall}
    (h : Accepts h₀ h₁ calls) (h' : Accepts h₁ h₂ calls') : Accepts h₀ h₂ (calls ++ calls') := by
  rw [Accepts, List.foldlM_append, h]
  exact h'

end Handles

namespace Machine

variable {V : Type} {E : Externals V} {consumedTopics : List String}

/-! ### The calls of a run -/

/-- The calls that a step makes. -/
def calls (consumedTopics : List String) (e : Event) (s : Machine) : List KafkaCall :=
  match e, s.pc with
  | .step a, .createConsumer => if s.consumer then [] else [.createConsumer a.consumerCreated]
  | .step _, .topicAvailable .. => [.metadata]
  | .step a, .subscribe tcount =>
    if tcount = consumedTopics.length then [.subscribe a.subscribed] else []
  | .step a, .createProducer => [.createProducer a.producerCreated]
  | .step a, .createTopic => [.createTopic a.topicCreated]
  | .step _, .consume => [.consume]
  | .step _, .publish msg => if msg.len > 0 then [.produce] else []
  | _, _ => []

/-- What there is at a program point. -/
def HoldsAt (h : Handles) : Pc → Prop
  | .topicTest .. => h.consumer = true
  | .topicAvailable .. => h.consumer = true
  | .topicSleep .. => h.consumer = true
  | .subscribe _ => h.consumer = true
  | .createProducer => h.subscribed = true
  | .createTopic => h.subscribed = true ∧ h.producer = true
  | .whileData => h = ⟨true, true, true, true⟩
  | .consume => h = ⟨true, true, true, true⟩
  | .process _ => h = ⟨true, true, true, true⟩
  | .publish _ => h = ⟨true, true, true, true⟩
  | .flush => h = ⟨true, true, true, true⟩
  | _ => True

/-- The handles of a state. -/
structure Holding (h : Handles) (s : Machine) : Prop where
  consumer : h.consumer = s.consumer
  subscribed : h.subscribed = true → h.consumer = true
  at_pc : HoldsAt h s.pc

theorem accepts_nil (h : Handles) : Handles.Accepts h h [] := rfl

theorem accepts_one {h h' : Handles} {call : KafkaCall} (happly : h.apply call = some h') :
    Handles.Accepts h h' [call] := by
  rw [Handles.Accepts, List.foldlM_cons, happly]
  rfl

/-- What a step calls is there, and what it then needs is there after it. -/
theorem holding_next (e : Event) {s : Machine} {h : Handles} (hs : Holding h s) :
    ∃ h', Handles.Accepts h h' (calls consumedTopics e s) ∧
      Holding h' (next E consumedTopics e s) := by
  obtain ⟨hconsumer, hsubscribed, hat⟩ := hs
  rcases e with a | -
  · rcases hpc : s.pc with - | - | - | - | ⟨- | ⟨t, ts⟩, n⟩ | ⟨t, ts, n⟩ | ⟨t, ts, n⟩ | n | - | - |
      - | - | - | msg | msg | - | - | b
    all_goals
      rw [hpc] at hat
      simp only [next, step, calls, hpc]
    case createConsumer =>
      rcases hc : s.consumer with - | -
      · -- only here is a consumer created
        refine ⟨{ h with consumer := a.consumerCreated, subscribed := false },
          accepts_one rfl, ?_⟩
        rcases a.consumerCreated with - | -
        · exact ⟨rfl, by simp, trivial⟩
        · exact ⟨rfl, by simp, rfl⟩
      · exact ⟨h, accepts_nil h, hconsumer.trans hc, hsubscribed, hconsumer.trans hc⟩
    case topicAvailable =>
      refine ⟨h, accepts_one (if_pos hat), ?_⟩
      split
      · exact ⟨hconsumer, hsubscribed, hat⟩
      · exact ⟨hconsumer, hsubscribed, hat⟩
      · exact ⟨hconsumer, hsubscribed, trivial⟩
    case topicTest.cons =>
      refine ⟨h, accepts_nil h, ?_⟩
      split
      · exact ⟨hconsumer, hsubscribed, hat⟩
      · exact ⟨hconsumer, hsubscribed, hat⟩
    case subscribe =>
      split
      · -- all topics have been found
        refine ⟨{ h with subscribed := a.subscribed }, accepts_one (if_pos hat), hconsumer,
          fun _ => hat, ?_⟩
        rcases hok : a.subscribed with - | -
        · trivial
        · rfl
      · exact ⟨h, accepts_nil h, hconsumer, hsubscribed, trivial⟩
    case createProducer =>
      -- a new producer has no topic yet, also where the old one had
      refine ⟨{ h with producer := a.producerCreated, topic := false }, accepts_one rfl,
        hconsumer, hsubscribed, ?_⟩
      rcases a.producerCreated with - | -
      · trivial
      · exact ⟨hat, rfl⟩
    case createTopic =>
      refine ⟨{ h with topic := a.topicCreated }, accepts_one (if_pos hat.2), hconsumer,
        hsubscribed, ?_⟩
      rcases a.topicCreated with - | -
      · trivial
      · obtain ⟨consumer, subscribed, producer, topic⟩ := h
        obtain ⟨rfl, rfl⟩ : subscribed = true ∧ producer = true := hat
        obtain rfl : consumer = true := hsubscribed rfl
        rfl
    case whileData =>
      refine ⟨h, accepts_nil h, hconsumer, hsubscribed, ?_⟩
      split
      · exact hat
      · trivial
    case consume =>
      -- the loop is entered with all handles, and nothing in it takes one away
      obtain rfl : h = ⟨true, true, true, true⟩ := hat
      exact ⟨_, accepts_one rfl, hconsumer, hsubscribed, rfl⟩
    case publish =>
      obtain rfl : h = ⟨true, true, true, true⟩ := hat
      split
      · exact ⟨_, accepts_one rfl, hconsumer, hsubscribed, rfl⟩
      · exact ⟨_, accepts_nil _, hconsumer, hsubscribed, rfl⟩
    all_goals
      refine ⟨h, accepts_nil h, hconsumer, hsubscribed, ?_⟩
      repeat' split
      all_goals exact hat
  · exact ⟨h, accepts_nil h, hconsumer, hsubscribed, hat⟩

/-- **No handle is used that is not there**, in any run. -/
theorem calls_accepted (E : Externals V) (consumedTopics : List String) (c : Codec)
    (evs : List Event) :
    ∃ h, Handles.Accepts .null h
        (Runs.trace (next E consumedTopics) (calls consumedTopics) (start c) evs) ∧
      Holding h (Runs.run (next E consumedTopics) (start c) evs) := by
  have hstart : ∃ h, Handles.Accepts .null h [] ∧ Holding h (start c) :=
    ⟨.null, rfl, rfl, by simp [Handles.null], trivial⟩
  have hrun := @Runs.run_trace _ _ _ (next E consumedTopics) (calls consumedTopics)
    (fun s os => ∃ h, Handles.Accepts .null h os ∧ Holding h s) (fun _ => True) ?_ _ _ hstart evs
    (by simp)
  · simpa using hrun
  · rintro e s os ⟨h, haccepts, hs⟩ -
    obtain ⟨h', hcalls, hnext⟩ := holding_next e hs
    exact ⟨h', haccepts.append hcalls, hnext⟩

end Machine

end Asn1Codec
