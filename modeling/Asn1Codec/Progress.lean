/-
Asn1Codec/Progress.lean

A run that goes on.

As long as no signal arrives and the libraries do what they are asked, the main
thread does not stand still: wherever it is, and whatever has gone wrong before,
it calls consume() again after a bounded number of steps.  The bound has two
parts, the way back to the consume loop and the waiting for the topics; `delay`
is the number of steps that are left of it.

The waiting ends because the topics that are still to be asked for are exactly
those that have not been counted (`Launching`).  Only a signal could come between
the two, and a signal clears `bootstrap` for good.

Main result: a call of consume() in every `turn` steps (`polls_keep_up`).
-/
import Asn1Codec.Shutdown

namespace Asn1Codec

namespace Machine

variable {V : Type} {E : Externals V} {consumedTopics : List String}

/-! ### The metadata -/

/-- What metadata() returns: the topics, or one of the errors on which
topic_available exits. -/
inductive Metadata where
  | topics (names : List String)
  | transport
  | failed

/-- topic_available: the topics are looked at in turn, until one is found. -/
def topicAvailable (md : Metadata) (topic : String) : TopicAnswer :=
  match md with
  | .topics names => if names.any (· == topic) then .available else .missing
  | .transport => .exit
  | .failed => .exit

/-- The libraries do what they are asked in this step, and the metadata has every
topic that is to be consumed. -/
structure Serves (consumedTopics : List String) (a : Answers) (s : Machine) : Prop where
  configured : a.configured = true
  consumerCreated : a.consumerCreated = true
  subscribed : a.subscribed = true
  producerCreated : a.producerCreated = true
  topicCreated : a.topicCreated = true
  metadata : ∀ topic topics tcount, s.pc = .topicAvailable topic topics tcount →
    ∃ names, consumedTopics ⊆ names ∧ a.topic = topicAvailable (.topics names) topic

/-- A step that is served; a signal is not. -/
def Served (consumedTopics : List String) (e : Event) (s : Machine) : Prop :=
  match e with
  | .step a => Serves consumedTopics a s
  | .sigterm => False

/-! ### The waiting for the topics -/

/-- Every topic is counted or still to be asked for. -/
structure Launching (consumedTopics : List String) (s : Machine) (topics : List String)
    (tcount : ℕ) : Prop where
  dataAvailable : s.codec.dataAvailable = true
  listed : topics ⊆ consumedTopics
  counted : tcount + topics.length = consumedTopics.length

/-- What holds at a program point of a run that has not been signalled. -/
def GoingAt (consumedTopics : List String) (s : Machine) : Pc → Prop
  | .createConsumer => s.codec.dataAvailable = true
  | .topicTest topics tcount => Launching consumedTopics s topics tcount
  | .topicAvailable topic topics tcount => Launching consumedTopics s (topic :: topics) tcount
  | .topicSleep topic topics tcount => Launching consumedTopics s (topic :: topics) tcount
  | .subscribe tcount => Launching consumedTopics s [] tcount
  | .createProducer => s.codec.dataAvailable = true
  | .createTopic => s.codec.dataAvailable = true
  | .summary => False
  | _ => True

/-- A signal clears `bootstrap` for good, so nothing is said about runs with one. -/
def Going (consumedTopics : List String) (s : Machine) : Prop :=
  s.codec.bootstrap = true → GoingAt consumedTopics s s.pc

theorem going_start (c : Codec) : Going consumedTopics (start c) := fun _ => trivial

theorem Launching.count {s : Machine} {topic : String} {topics : List String} {tcount : ℕ}
    (h : Launching consumedTopics s (topic :: topics) tcount) :
    Launching consumedTopics s topics (tcount + 1) where
  dataAvailable := h.dataAvailable
  listed := (List.cons_subset.mp h.listed).2
  counted := by
    have hcounted := h.counted
    rw [List.length_cons] at hcounted
    omega

theorem Launching.lt {s : Machine} {topic : String} {topics : List String} {tcount : ℕ}
    (h : Launching consumedTopics s (topic :: topics) tcount) : tcount < consumedTopics.length := by
  have hcounted := h.counted
  rw [List.length_cons] at hcounted
  omega

theorem going_next (e : Event) (s : Machine) (h : Going consumedTopics s) :
    Going consumedTopics (next E consumedTopics e s) := by
  rcases e with a | -
  · rcases hpc : s.pc with - | - | - | - | ⟨- | ⟨t, ts⟩, n⟩ | ⟨t, ts, n⟩ | ⟨t, ts, n⟩ | n | - | - |
      - | - | - | msg | msg | - | - | b
    all_goals
      rw [Going, hpc] at h
      simp only [next, step, hpc]
    case whileBootstrap =>
      intro hb
      have hb : s.codec.bootstrap = true := hb
      simp [hb, GoingAt]
    case rearm => exact fun _ => rfl
    case createConsumer =>
      split
      · intro hb
        exact ⟨h hb, List.Subset.refl _, Nat.zero_add _⟩
      · exact fun _ => trivial
    case topicTest.nil =>
      intro hb
      exact ⟨(h hb).dataAvailable, (h hb).listed, (h hb).counted⟩
    case topicTest.cons =>
      split
      · intro hb
        exact ⟨(h hb).dataAvailable, (h hb).listed, (h hb).counted⟩
      · -- no topic is passed over
        rename_i hskip
        intro hb
        exact absurd (by simp [(h hb).dataAvailable, (h hb).lt]) hskip
    case topicAvailable =>
      split
      · intro hb
        have hcount := (h hb).count
        exact ⟨hcount.dataAvailable, hcount.listed, hcount.counted⟩
      · intro hb
        exact ⟨(h hb).dataAvailable, (h hb).listed, (h hb).counted⟩
      · exact fun _ => trivial
    case topicSleep =>
      intro hb
      exact ⟨(h hb).dataAvailable, (h hb).listed, (h hb).counted⟩
    case subscribe =>
      split
      · intro hb
        rcases a.subscribed with - | -
        · trivial
        · exact (h hb).dataAvailable
      · exact fun _ => trivial
    case createProducer =>
      intro hb
      rcases a.producerCreated with - | -
      · trivial
      · exact h hb
    all_goals
      intro _
      repeat' split
      all_goals trivial
  · intro hb
    cases hb

/-! ### The way back to consume() -/

/-- The steps before the next call of consume(), at most. -/
def delay (consumedTopics : List String) (s : Machine) : ℕ :=
  match s.pc with
  | .consume => 0
  | .createTopic => 2
  | .createProducer => 3
  | .subscribe _ => 4
  | .topicTest topics _ => 5 + 2 * topics.length
  | .topicAvailable _ topics _ => 6 + 2 * topics.length
  | .topicSleep _ topics _ => 8 + 2 * topics.length
  | .createConsumer => 6 + 2 * consumedTopics.length
  | .rearm => 7 + 2 * consumedTopics.length
  | .whileBootstrap => 8 + 2 * consumedTopics.length
  | .relaunch => 9 + 2 * consumedTopics.length
  | .configure => 9 + 2 * consumedTopics.length
  | .whileData => if s.codec.dataAvailable then 1 else 9 + 2 * consumedTopics.length
  | .flush => 10 + 2 * consumedTopics.length
  | .publish _ => 11 + 2 * consumedTopics.length
  | .process _ => 12 + 2 * consumedTopics.length
  | .summary => 0
  | .exited _ => 0

def turn (consumedTopics : List String) : ℕ := 13 + 2 * consumedTopics.length

/-- A run that has not been told to stop, and has not stopped. -/
structure Alive (consumedTopics : List String) (s : Machine) : Prop where
  bootstrap : s.codec.bootstrap = true
  going : Going consumedTopics s
  running : ∀ b, s.pc ≠ .exited b

theorem delay_lt_turn {s : Machine} (h : Alive consumedTopics s) :
    delay consumedTopics s < turn consumedTopics := by
  have hgoing := h.going h.bootstrap
  rcases hpc : s.pc with - | - | - | - | ⟨topics, n⟩ | ⟨t, ts, n⟩ | ⟨t, ts, n⟩ | n | - | - |
    - | - | - | msg | msg | - | - | b
  all_goals rw [hpc] at hgoing
  case topicTest | topicAvailable | topicSleep =>
    have hcounted := hgoing.counted
    simp only [delay, turn, hpc, List.length_cons] at *
    omega
  all_goals
    simp only [delay, turn, hpc]
    repeat' split
    all_goals omega

/-- A step that is served leads on. -/
theorem delay_step {a : Answers} {s : Machine} (h : Alive consumedTopics s)
    (ha : Serves consumedTopics a s) (hconsume : s.pc ≠ .consume) :
    delay consumedTopics (step E consumedTopics a s) < delay consumedTopics s ∧
      ∀ b, (step E consumedTopics a s).pc ≠ .exited b := by
  have hgoing := h.going h.bootstrap
  rcases hpc : s.pc with - | - | - | - | ⟨- | ⟨t, ts⟩, n⟩ | ⟨t, ts, n⟩ | ⟨t, ts, n⟩ | n | - | - |
    - | - | - | msg | msg | - | - | b
  all_goals rw [hpc] at hgoing
  case consume => exact absurd hpc hconsume
  case summary => exact hgoing.elim
  case exited => exact absurd hpc (h.running b)
  case topicTest.cons =>
    simp [step, delay, hpc, hgoing.dataAvailable, hgoing.lt]
    omega
  case topicSleep =>
    simp [step, delay, hpc]
    omega
  case topicAvailable =>
    -- the metadata lists every topic, so none is waited for
    obtain ⟨names, hsubset, htopic⟩ := ha.metadata t ts n hpc
    have hmem : t ∈ names := hsubset (hgoing.listed List.mem_cons_self)
    have havailable : a.topic = .available := by
      rw [htopic, topicAvailable, if_pos (List.any_eq_true.mpr ⟨t, hmem, by simp⟩)]
    simp [step, delay, hpc, havailable]
  case subscribe =>
    have hcounted : n = consumedTopics.length := hgoing.counted
    simp [step, delay, hpc, hcounted, ha.subscribed]
  case createTopic =>
    have hdata : s.codec.dataAvailable = true := hgoing
    simp [step, delay, hpc, ha.topicCreated, hdata]
  case whileData =>
    rcases hdata : s.codec.dataAvailable with - | - <;> simp [step, delay, hpc, hdata]
  case flush =>
    -- the message may have cleared `data_available`, and then the launch comes first
    simp only [step, delay, hpc]
    refine ⟨?_, by simp⟩
    split <;> omega
  all_goals
    simp [step, delay, hpc, h.bootstrap, ha.configured, ha.consumerCreated, ha.producerCreated]

theorem alive_next (e : Event) (s : Machine) (h : Alive consumedTopics s)
    (he : Served consumedTopics e s) : Alive consumedTopics (next E consumedTopics e s) := by
  cases e with
  | step a =>
    refine ⟨(bootstrap_step a s).trans h.bootstrap, going_next (.step a) s h.going, ?_⟩
    by_cases hconsume : s.pc = .consume
    · simp [next, step, hconsume]
    · exact (delay_step h he hconsume).2
  | sigterm => exact he.elim

/-- **The codec keeps polling**: as long as there is no signal and the libraries
do what they are asked, consume() is called once in every `turn` steps, whatever
has happened before. -/
theorem polls_keep_up (E : Externals V) (consumedTopics : List String) (c : Codec) {s : Machine}
    (hs : Reachable E consumedTopics c s) (hbootstrap : s.codec.bootstrap = true)
    (hrunning : ∀ b, s.pc ≠ .exited b) {evs : List Event}
    (hserved : Runs.Meets (next E consumedTopics) (Served consumedTopics) s evs) :
    s.polled.length + evs.length / turn consumedTopics ≤
      (Runs.run (next E consumedTopics) s evs).polled.length := by
  have hgoing := Runs.reachable_invariant going_next (going_start c) hs
  apply @Runs.run_pace _ _ (next E consumedTopics) (Served consumedTopics) (Alive consumedTopics)
    (fun s => s.polled.length) (delay consumedTopics) _ alive_next (fun s => delay_lt_turn) ?_ s
    ⟨hbootstrap, hgoing, hrunning⟩ evs hserved
  rintro (a | -) s h he
  · rcases @polled_next V E consumedTopics (.step a) s with
      ⟨m, -, -, hpolled⟩ | ⟨hpolled, -⟩
    · left
      rw [hpolled, List.length_append]
      exact Nat.lt_add_one _
    · right
      refine ⟨by rw [hpolled], ?_⟩
      by_cases hconsume : s.pc = .consume
      · -- consume() has been called
        simp [next, step, hconsume] at hpolled
      · exact (delay_step h he hconsume).1
  · exact he.elim

/-- A broker on which the topic that is asked for can be found. -/
theorem meets_answering (m : Message) (n : ℕ) (s : Machine) :
    Runs.Meets (next E consumedTopics) (Served consumedTopics) s
      (List.replicate n (answering m)) := by
  induction n generalizing s with
  | zero => trivial
  | succ n ih =>
    refine ⟨⟨rfl, rfl, rfl, rfl, rfl, fun topic topics tcount _ => ?_⟩, ih _⟩
    exact ⟨topic :: consumedTopics, List.subset_cons_self .., by simp [topicAvailable]⟩

/-- Thirty steps, from the entry of operator(). -/
theorem polls_keep_up_start :
    ([] : List Message).length + 30 / 15 ≤
      (Runs.run (next emptyHanded ["topic.Asn1DecoderInput"]) (start configuredCodec)
        (List.replicate 30 (answering ⟨.timedOut, ""⟩))).polled.length := by
  have hkeep := polls_keep_up emptyHanded ["topic.Asn1DecoderInput"] configuredCodec
    ⟨[], rfl⟩ rfl (by simp [start]) (meets_answering ⟨.timedOut, ""⟩ 30 (start configuredCodec))
  rwa [List.length_replicate] at hkeep

end Machine

end Asn1Codec
