/-
Asn1Codec/Delivery.lean

The producer's queue under operator().

produce() puts a record into a queue of the producer, which the library drains
in the background, and operator() counts the record as sent as soon as it is in
the queue.  The queue goes with the producer: launch_producer replaces
`producer_ptr`, and the process ends, without a look at what still waits.

A run of this machine is a run of operator() with the background deliveries put
between its events.  operator() cannot tell when they happen, so the order of
produce(), delivery and end alone decides whether a record is lost.
-/
import Asn1Codec.Backlog
import Asn1Codec.Publish

namespace Asn1Codec

open Backlog (Mark KeepsUp)

namespace Delivery

variable {V : Type} (E : Externals V) (consumedTopics : List String)

/-! ### The queue -/

/-- The record that produce() takes into the queue. -/
def accepted (e : Event) (s : Machine) : Option String :=
  match e, s.pc with
  | .step a, .publish msg =>
    if msg.len > 0 ∧ a.produced = true then some s.codec.outputMessageStream else none
  | _, _ => none

def isExited : Pc → Bool
  | .exited _ => true
  | _ => false

/-- The step gives the producer up: launch_producer replaces it, or operator()
returns or is ended by std::exit. -/
def abandons (e : Event) (s : Machine) : Bool :=
  e.isStep && (decide (s.pc = .createProducer) ||
    !isExited s.pc && isExited (Machine.next E consumedTopics e s).pc)

/-- operator() and its producer.  `queue` holds the records accepted by the
current producer that have not left it, `lost` those that it held when it was
given up. -/
structure State where
  machine : Machine
  queue : List String
  delivered : List String
  lost : List String

/-- An event of operator(), or a delivery in the background: of any record that
waits, if there is one. -/
inductive Traffic where
  | main (e : Event)
  | deliver (i : ℕ)

def next : Traffic → State → State
  | .main e, s =>
    { machine := Machine.next E consumedTopics e s.machine
      queue := if abandons E consumedTopics e s.machine then []
        else s.queue ++ (accepted e s.machine).toList
      delivered := s.delivered
      lost := if abandons E consumedTopics e s.machine then s.lost ++ s.queue else s.lost }
  | .deliver i, s =>
    { s with queue := s.queue.eraseIdx (i % s.queue.length)
             delivered := s.delivered ++ s.queue[i % s.queue.length]?.toList }

def start (c : Codec) : State := ⟨Machine.start c, [], [], []⟩

/-- At every step that gives the producer up, its queue is empty. -/
def NothingLost (s : State) (evs : List Traffic) : Prop :=
  ∀ pre e post, evs = pre ++ .main e :: post →
    abandons E consumedTopics e (Runs.run (next E consumedTopics) s pre).machine = true →
    (Runs.run (next E consumedTopics) s pre).queue = []

/-- Every record counted in `msg_send_count` is delivered, waiting or lost. -/
def Accounted (s : State) : Prop :=
  s.machine.codec.msgSendCount =
    UInt64.ofNat (s.delivered.length + s.queue.length + s.lost.length)

/-! ### The marks of a run -/

/-- What an event of operator() does to the queue. -/
def mark (e : Event) (s : Machine) : List Mark :=
  if abandons E consumedTopics e s then [.abandon]
  else (accepted e s).toList.map fun _ => .accept

/-- The marks of a run.  They come from operator() and the order of the events;
the queue is not consulted. -/
def marks : Machine → List Traffic → List Mark
  | _, [] => []
  | s, .main e :: evs =>
    mark E consumedTopics e s ++ marks (Machine.next E consumedTopics e s) evs
  | s, .deliver _ :: evs => .drain :: marks s evs

variable {E consumedTopics}

/-! ### The numbers -/

/-- The lengths of the queue and of what is lost. -/
def State.account (s : State) : Backlog.Account := ⟨s.queue.length, s.lost.length⟩

/-- A delivery moves one record, if one waits. -/
theorem length_deliver {α : Type*} (xs : List α) (i : ℕ) :
    xs[i % xs.length]?.toList.length + (xs.eraseIdx (i % xs.length)).length = xs.length := by
  rcases Nat.eq_zero_or_pos xs.length with hzero | hpos
  · obtain rfl := List.length_eq_zero_iff.mp hzero
    rfl
  · have hlt := Nat.mod_lt i hpos
    rw [List.getElem?_eq_getElem hlt, List.length_eraseIdx_of_lt hlt]
    show 1 + (xs.length - 1) = xs.length
    omega

theorem length_eraseIdx_mod {α : Type*} (xs : List α) (i : ℕ) :
    (xs.eraseIdx (i % xs.length)).length = xs.length - 1 := by
  rcases Nat.eq_zero_or_pos xs.length with hzero | hpos
  · obtain rfl := List.length_eq_zero_iff.mp hzero
    rfl
  · exact List.length_eraseIdx_of_lt (Nat.mod_lt i hpos)

/-- **A step of the queue is a step of its numbers.** -/
theorem account_next_main (e : Event) (s : State) :
    (next E consumedTopics (.main e) s).account =
      Runs.run Backlog.next s.account (mark E consumedTopics e s.machine) := by
  rw [mark]
  by_cases h : abandons E consumedTopics e s.machine = true
  · simp [next, h, State.account, Backlog.next]
  · rcases hrec : accepted e s.machine with - | record
    · simp [next, h, hrec, State.account]
    · simp [next, h, hrec, State.account, Backlog.next]

theorem account_next_deliver (i : ℕ) (s : State) :
    (next E consumedTopics (.deliver i) s).account = Backlog.next .drain s.account := by
  show (⟨(s.queue.eraseIdx (i % s.queue.length)).length, s.lost.length⟩ : Backlog.Account) = _
  rw [length_eraseIdx_mod]
  rfl

theorem account_run (evs : List Traffic) (s : State) :
    (Runs.run (next E consumedTopics) s evs).account =
      Runs.run Backlog.next s.account (marks E consumedTopics s.machine evs) := by
  induction evs generalizing s with
  | nil => rfl
  | cons ev evs ih =>
    rw [Runs.run_cons, ih]
    cases ev with
    | main e => rw [account_next_main, marks, Runs.run_append]; rfl
    | deliver i => rw [account_next_deliver, marks, Runs.run_cons]; rfl

/-! ### What is lost -/

theorem nothingLost_cons_main {e : Event} {evs : List Traffic} {s : State} :
    NothingLost E consumedTopics s (.main e :: evs) ↔
      (abandons E consumedTopics e s.machine = true → s.queue = []) ∧
        NothingLost E consumedTopics (next E consumedTopics (.main e) s) evs := by
  constructor
  · intro h
    refine ⟨h [] e evs rfl, fun pre e' post hsplit => ?_⟩
    exact h (.main e :: pre) e' post (by rw [hsplit, List.cons_append])
  · rintro ⟨hfirst, hrest⟩ pre e' post hsplit
    cases pre with
    | nil =>
      obtain ⟨he, -⟩ := List.cons.inj hsplit
      obtain rfl := Traffic.main.inj he
      exact hfirst
    | cons ev pre =>
      obtain ⟨rfl, hevs⟩ := List.cons.inj hsplit
      exact hrest pre e' post hevs

theorem nothingLost_cons_deliver {i : ℕ} {evs : List Traffic} {s : State} :
    NothingLost E consumedTopics s (.deliver i :: evs) ↔
      NothingLost E consumedTopics (next E consumedTopics (.deliver i) s) evs := by
  constructor
  · intro h pre e' post hsplit
    exact h (.deliver i :: pre) e' post (by rw [hsplit, List.cons_append])
  · intro h pre e' post hsplit
    cases pre with
    | nil => exact absurd (List.cons.inj hsplit).1 (by simp)
    | cons ev pre =>
      obtain ⟨rfl, hevs⟩ := List.cons.inj hsplit
      exact h pre e' post hevs

theorem lost_le_run (evs : List Traffic) (s : State) :
    s.lost.length ≤ (Runs.run (next E consumedTopics) s evs).lost.length := by
  have h := Backlog.lost_le_run (marks E consumedTopics s.machine evs) s.account
  rwa [← account_run] at h

/-- Nothing is lost in a run that ends with as much lost as it began with. -/
theorem nothingLost_iff_lost (evs : List Traffic) (s : State) :
    NothingLost E consumedTopics s evs ↔
      (Runs.run (next E consumedTopics) s evs).lost.length = s.lost.length := by
  induction evs generalizing s with
  | nil => exact iff_of_true (fun pre e post h => absurd h (by simp)) rfl
  | cons ev evs ih =>
    rw [Runs.run_cons]
    cases ev with
    | deliver i => rw [nothingLost_cons_deliver, ih]; rfl
    | main e =>
      rw [nothingLost_cons_main, ih]
      -- `lost` never shrinks, so what this event adds to it is still there at the end
      by_cases h : abandons E consumedTopics e s.machine = true
      · have hle : (next E consumedTopics (.main e) s).lost.length ≤
            (Runs.run (next E consumedTopics) (next E consumedTopics (.main e) s)
              evs).lost.length :=
          lost_le_run evs _
        have hlost : (next E consumedTopics (.main e) s).lost.length =
            s.lost.length + s.queue.length := by
          simp [next, h]
        rw [hlost] at hle ⊢
        constructor
        · rintro ⟨hempty, hrun⟩
          rw [hrun, hempty h, List.length_nil, Nat.add_zero]
        · intro hrun
          have hempty : s.queue.length = 0 := by omega
          exact ⟨fun _ => List.length_eq_zero_iff.mp hempty, by omega⟩
      · have hlost : (next E consumedTopics (.main e) s).lost = s.lost := by simp [next, h]
        rw [hlost]
        exact and_iff_right fun hyes => absurd hyes h

/-! ### What is counted -/

theorem accepted_publish {s : Machine} {msg : Message} (hpc : s.pc = .publish msg) (a : Answers) :
    accepted (.step a) s =
      if msg.len > 0 ∧ a.produced = true then some s.codec.outputMessageStream else none := by
  simp only [accepted, hpc]

theorem accepted_of_ne {s : Machine} (h : ∀ msg, s.pc ≠ .publish msg) (e : Event) :
    accepted e s = none := by
  rw [accepted]
  intro a msg _ hpc
  exact h msg hpc

/-- A step that puts a record into the queue keeps the producer. -/
theorem accepted_of_abandons {e : Event} {s : Machine}
    (h : abandons E consumedTopics e s = true) : accepted e s = none := by
  apply accepted_of_ne
  intro msg hpc
  rcases e with a | -
  · simp [abandons, Event.isStep, Machine.next, Machine.step, isExited, hpc] at h
  · simp [abandons, Event.isStep] at h

/-- The counter counts what the queue takes. -/
theorem msgSendCount_next (e : Event) (s : Machine) :
    (Machine.next E consumedTopics e s).codec.msgSendCount =
      s.codec.msgSendCount + UInt64.ofNat (accepted e s).toList.length := by
  by_cases hpub : ∃ msg, s.pc = .publish msg
  · obtain ⟨msg, hpc⟩ := hpub
    rcases e with a | -
    · have hnext : Machine.next E consumedTopics (.step a) s = Machine.afterPublish msg a s := by
        simp only [Machine.next, Machine.step, hpc, Machine.afterPublish]
      rw [hnext, accepted_publish hpc, Machine.afterPublish]
      by_cases hlen : msg.len > 0
      · rw [if_pos hlen]
        show (Machine.publishStream msg a s).codec.msgSendCount = _
        rcases hprod : a.produced with - | -
        · simp [Machine.publishStream, hprod]
        · simp [Machine.publishStream, hprod, hlen]
      · rw [if_neg hlen, if_neg fun h => hlen h.1]
        exact (UInt64.add_zero _).symm
    · exact (UInt64.add_zero _).symm
  · -- nothing else produces; a handled message leaves the counter to the publication
    have hne : ∀ msg, s.pc ≠ .publish msg := fun msg hpc => hpub ⟨msg, hpc⟩
    rw [accepted_of_ne hne]
    show _ = s.codec.msgSendCount + 0
    rw [UInt64.add_zero]
    rcases @Machine.next_cases V E consumedTopics e s with ⟨m, now, -, hnext⟩ | ⟨m, a, hpc, -⟩ |
      ⟨m, hpc, -⟩ | ⟨hidle, -⟩
    · rw [hnext]
      exact (Machine.handleMessage_counts E m now s.codec).1
    · exact absurd hpc (hne m)
    · exact absurd hpc (hne m)
    · rw [hidle.codec]

theorem accounted_next (ev : Traffic) (s : State) (h : Accounted s) :
    Accounted (next E consumedTopics ev s) := by
  rw [Accounted] at h ⊢
  cases ev with
  | main e =>
    show (Machine.next E consumedTopics e s.machine).codec.msgSendCount = _
    rw [msgSendCount_next, h, ← UInt64.ofNat_add]
    by_cases hab : abandons E consumedTopics e s.machine = true
    · rw [accepted_of_abandons hab]
      simp only [next, if_pos hab, List.length_append, List.length_nil, Option.toList_none]
      congr 1
      omega
    · simp only [next, if_neg hab, List.length_append]
      congr 1
      omega
  | deliver i =>
    -- a delivery takes one record from the queue to the topic
    have hlen := length_deliver s.queue i
    show s.machine.codec.msgSendCount = _
    rw [h]
    simp only [next, List.length_append]
    congr 1
    omega

theorem accounted_run (c : Codec) (evs : List Traffic) :
    Accounted (Runs.run (next E consumedTopics) (start c) evs) := by
  have hstart : Accounted (start c) := rfl
  exact Runs.run_invariant accounted_next hstart evs

/-- **When no record is lost.**  In every run of operator() and every order of
its events and the deliveries, every record that is counted is delivered,
waiting or lost, and nothing is lost exactly when the deliveries keep up:
wherever the producer is replaced or the process ends, every stretch of the run
that ends there has had at least as many deliveries as records that produce()
took. -/
theorem nothingLost_iff (E : Externals V) (consumedTopics : List String) (c : Codec)
    (evs : List Traffic) :
    Accounted (Runs.run (next E consumedTopics) (start c) evs) ∧
      (NothingLost E consumedTopics (start c) evs ↔
        KeepsUp (marks E consumedTopics (Machine.start c) evs)) := by
  refine ⟨accounted_run c evs, ?_⟩
  have haccount : (Runs.run (next E consumedTopics) (start c) evs).account =
      Runs.run Backlog.next ⟨0, 0⟩ (marks E consumedTopics (Machine.start c) evs) :=
    account_run evs (start c)
  have hlost : (Runs.run (next E consumedTopics) (start c) evs).lost.length =
      (Runs.run Backlog.next ⟨0, 0⟩ (marks E consumedTopics (Machine.start c) evs)).lost :=
    congrArg Backlog.Account.lost haccount
  rw [nothingLost_iff_lost, hlost]
  exact Backlog.lost_run_iff _

/-- A record is counted as sent, and the signal comes before the delivery. -/
theorem record_lost : ¬ NothingLost emptyHanded ["topic.Asn1DecoderInput"] (start configuredCodec)
    ((Machine.polling [⟨.noError, "x"⟩] ++ [Event.sigterm] ++
      List.replicate 3 (Machine.answering ⟨.timedOut, ""⟩)).map .main) := by
  rw [nothingLost_iff_lost]
  decide +kernel

/-- A record is counted as sent, and an error event makes launch_producer
replace the producer before the delivery. -/
example : ¬ NothingLost emptyHanded ["topic.Asn1DecoderInput"] (start configuredCodec)
    ((Machine.polling [⟨.noError, "x"⟩, ⟨.other, ""⟩] ++
      List.replicate 9 (Machine.answering ⟨.timedOut, ""⟩)).map .main) := by
  rw [nothingLost_iff_lost]
  decide +kernel

end Delivery

end Asn1Codec
