/-
Asn1Codec/Subscription.lean

A call of launch_consumer: the waiting for the consumed topics, and the
subscription to them.

The call is a stretch of a run of operator(), from the creation of the consumer
to one of the program points behind it; `Launch` keeps beside the machine what
topic_available has reported since the call began and whether subscribe was
called.  One counter stands for all the topics.  The invariant is in
`Waiting`: the counter is the number of reports, these are the first topics of
the list, and either the rest of the list is still to come or a signal has made
the loop pass over a topic, and then the counter can no longer be reached.
-/
import Asn1Codec.Shutdown

namespace Asn1Codec

namespace Machine

variable {V : Type} (E : Externals V) (consumedTopics : List String)

/-! ### The call -/

/-- The program points of launch_consumer. -/
def inLaunch : Pc → Bool
  | .createConsumer => true
  | .topicTest _ _ => true
  | .topicAvailable _ _ _ => true
  | .topicSleep _ _ _ => true
  | .subscribe _ => true
  | _ => false

/-- A call of launch_consumer: the topics reported available in it, in the order
of the reports, the number of negative answers, and whether subscribe was called. -/
structure Launch where
  machine : Machine
  reported : List String
  missing : ℕ
  subscribed : Bool

/-- How a call ends: it returns, or std::exit is called in it. -/
inductive LaunchResult where
  | returned (success : Bool)
  | exit
  deriving DecidableEq

namespace Launch

/-- The call is entered. -/
def enter (s : Machine) : Launch := ⟨{ s with pc := .createConsumer }, [], 0, false⟩

/-- The account of one step of the main thread. -/
def account (a : Answers) (l : Launch) : Launch :=
  match l.machine.pc with
  | .topicAvailable topic _ _ =>
    match a.topic with
    | .available => { l with reported := l.reported ++ [topic] }
    | .missing => { l with missing := l.missing + 1 }
    | .exit => l
  | .subscribe tcount => { l with subscribed := decide (tcount = consumedTopics.length) }
  | _ => l

/-- The events of a run, up to the end of the call. -/
def next (e : Event) (l : Launch) : Launch :=
  if inLaunch l.machine.pc then
    match e with
    | .step a => { l.account consumedTopics a with machine := l.machine.step E consumedTopics a }
    | .sigterm => { l with machine := l.machine.sigterm }
  else l

/-- The end of the call, by the program point behind it. -/
def result (l : Launch) : Option LaunchResult :=
  match l.machine.pc with
  | .createProducer => some (.returned true)
  | .relaunch => some (.returned false)
  | .exited _ => some .exit
  | _ => none

/-! ### The loops over the topics -/

/-- In the loops, with the topics `topics` to come and the counter at `tcount`. -/
structure Waiting (l : Launch) (topics : List String) (tcount : ℕ) : Prop where
  consumer : l.machine.consumer = true
  subscribed : l.subscribed = false
  count : tcount = l.reported.length
  rest : l.reported ++ topics = consumedTopics ∨
    l.reported <+: consumedTopics ∧ tcount + topics.length < consumedTopics.length ∧
      l.machine.codec.dataAvailable = false

/-- What holds at a program point of the call, and behind it. -/
def InvAt (l : Launch) : Pc → Prop
  | .createConsumer => l.reported = [] ∧ l.subscribed = false
  | .topicTest topics tcount => Waiting consumedTopics l topics tcount
  | .topicAvailable topic topics tcount =>
    Waiting consumedTopics l (topic :: topics) tcount ∧
      l.reported ++ topic :: topics = consumedTopics
  | .topicSleep topic topics tcount =>
    Waiting consumedTopics l (topic :: topics) tcount ∧
      l.reported ++ topic :: topics = consumedTopics
  | .subscribe tcount => Waiting consumedTopics l [] tcount
  | .createProducer =>
    l.machine.consumer = true ∧ l.reported = consumedTopics ∧ l.subscribed = true
  | .relaunch => l.reported <+: consumedTopics ∧
    (l.machine.consumer = false → l.reported = []) ∧
    (l.subscribed = true ↔ l.machine.consumer = true ∧ l.reported = consumedTopics)
  | .exited _ => l.reported <+: consumedTopics ∧ l.subscribed = false
  | _ => False

/-- The invariant of a call. -/
def Inv (l : Launch) : Prop := l.InvAt consumedTopics l.machine.pc

variable {E consumedTopics}

theorem inv_enter (s : Machine) : Inv consumedTopics (enter s) := ⟨rfl, rfl⟩

/-- A signal is what the second case of `Waiting` has room for. -/
theorem Waiting.sigterm {l : Launch} {topics : List String} {n : ℕ}
    (h : Waiting consumedTopics l topics n) :
    Waiting consumedTopics { l with machine := l.machine.sigterm } topics n where
  consumer := h.consumer
  subscribed := h.subscribed
  count := h.count
  rest := h.rest.imp id fun ⟨hpre, hlt, _⟩ => ⟨hpre, hlt, rfl⟩

theorem Waiting.isPrefix {l : Launch} {topics : List String} {n : ℕ}
    (h : Waiting consumedTopics l topics n) : l.reported <+: consumedTopics := by
  rcases h.rest with hrest | ⟨hpre, -, -⟩
  · exact ⟨topics, hrest⟩
  · exact hpre

theorem Waiting.length_le {l : Launch} {ts : List String} {n : ℕ}
    (h : Waiting consumedTopics l ts n) : ts.length ≤ consumedTopics.length := by
  rcases h.rest with hrest | ⟨-, hlt, -⟩
  · rw [← hrest, List.length_append]
    omega
  · omega

theorem Waiting.lt_length {l : Launch} {t : String} {ts : List String} {n : ℕ}
    (h : Waiting consumedTopics l (t :: ts) n) : n + ts.length < consumedTopics.length := by
  rcases h.rest with hrest | ⟨-, hlt, -⟩
  · rw [← hrest, h.count, List.length_append, List.length_cons]
    omega
  · rw [List.length_cons] at hlt
    omega

/-- The counter reaches the number of topics only with all of them reported. -/
theorem Waiting.count_eq_iff {l : Launch} {n : ℕ} (h : Waiting consumedTopics l [] n) :
    n = consumedTopics.length ↔ l.reported = consumedTopics := by
  rw [h.count]
  refine ⟨fun hn => ?_, fun hall => by rw [hall]⟩
  exact List.IsPrefix.eq_of_length h.isPrefix hn

theorem next_step (a : Answers) {l : Launch} (hin : inLaunch l.machine.pc = true) :
    next E consumedTopics (.step a) l =
      { l.account consumedTopics a with machine := l.machine.step E consumedTopics a } := by
  simp only [next, hin, if_true]

theorem next_sigterm {l : Launch} (hin : inLaunch l.machine.pc = true) :
    next E consumedTopics .sigterm l = { l with machine := l.machine.sigterm } := by
  simp only [next, hin, if_true]

theorem next_of_not_inLaunch (e : Event) {l : Launch} (hin : inLaunch l.machine.pc = false) :
    next E consumedTopics e l = l := by
  rcases e with a | - <;> simp [next, hin]

/-- The call at another program point. -/
def goto (l : Launch) (pc : Pc) : Launch := { l with machine := { l.machine with pc := pc } }

/-- What a step of the call can do. -/
inductive StepOf (consumedTopics : List String) (a : Answers) (l : Launch) : Launch → Prop where
  | create (hpc : l.machine.pc = .createConsumer) : StepOf consumedTopics a l
      { l with machine := { l.machine with pc := .topicTest consumedTopics 0, consumer := true } }
  | noConsumer (hpc : l.machine.pc = .createConsumer) (hnone : l.machine.consumer = false) :
      StepOf consumedTopics a l (l.goto .relaunch)
  | leave (n : ℕ) (hpc : l.machine.pc = .topicTest [] n) :
      StepOf consumedTopics a l (l.goto (.subscribe n))
  | ask (t : String) (ts : List String) (n : ℕ) (hpc : l.machine.pc = .topicTest (t :: ts) n)
      (hdata : l.machine.codec.dataAvailable = true) (hlt : n < consumedTopics.length) :
      StepOf consumedTopics a l (l.goto (.topicAvailable t ts n))
  | pass (t : String) (ts : List String) (n : ℕ) (hpc : l.machine.pc = .topicTest (t :: ts) n)
      (htest : n < consumedTopics.length → l.machine.codec.dataAvailable = false) :
      StepOf consumedTopics a l (l.goto (.topicTest ts n))
  | available (t : String) (ts : List String) (n : ℕ)
      (hpc : l.machine.pc = .topicAvailable t ts n) (htopic : a.topic = .available) :
      StepOf consumedTopics a l
        { l.goto (.topicTest ts (n + 1)) with reported := l.reported ++ [t] }
  | missing (t : String) (ts : List String) (n : ℕ)
      (hpc : l.machine.pc = .topicAvailable t ts n) (htopic : a.topic = .missing) :
      StepOf consumedTopics a l
        { l.goto (.topicSleep t ts n) with missing := l.missing + 1 }
  | exit (t : String) (ts : List String) (n : ℕ)
      (hpc : l.machine.pc = .topicAvailable t ts n) (htopic : a.topic = .exit) :
      StepOf consumedTopics a l (l.goto (.exited false))
  | wake (t : String) (ts : List String) (n : ℕ) (hpc : l.machine.pc = .topicSleep t ts n) :
      StepOf consumedTopics a l (l.goto (.topicTest (t :: ts) n))
  | subscribe (n : ℕ) (hpc : l.machine.pc = .subscribe n) (hn : n = consumedTopics.length) :
      StepOf consumedTopics a l
        { l.goto (if a.subscribed then .createProducer else .relaunch) with subscribed := true }
  | giveUp (n : ℕ) (hpc : l.machine.pc = .subscribe n) (hn : n ≠ consumedTopics.length) :
      StepOf consumedTopics a l { l.goto .relaunch with subscribed := false }

/-- **The steps of the call**, one by one. -/
theorem stepOf_next (a : Answers) {l : Launch} (hin : inLaunch l.machine.pc = true) :
    StepOf consumedTopics a l (next E consumedTopics (.step a) l) := by
  rw [next_step a hin]
  rcases hpc : l.machine.pc with - | - | - | - | ⟨- | ⟨t, ts⟩, n⟩ | ⟨t, ts, n⟩ | ⟨t, ts, n⟩ | n |
    - | - | - | - | - | msg | msg | - | - | b
  case createConsumer =>
    simp only [account, step, hpc]
    split
    · exact .create hpc
    · rename_i hnone
      exact .noConsumer hpc (by simp_all)
  case topicTest.nil =>
    simp only [account, step, hpc]
    exact .leave n hpc
  case topicTest.cons =>
    simp only [account, step, hpc]
    split
    · rename_i htest
      rw [Bool.and_eq_true, decide_eq_true_eq] at htest
      exact .ask t ts n hpc htest.1 htest.2
    · rename_i htest
      exact .pass t ts n hpc fun hlt => by simpa [hlt] using htest
  case topicAvailable =>
    simp only [account, step, hpc]
    rcases htopic : a.topic with - | - | -
    · exact .available t ts n hpc htopic
    · exact .missing t ts n hpc htopic
    · exact .exit t ts n hpc htopic
  case topicSleep =>
    simp only [account, step, hpc]
    exact .wake t ts n hpc
  case subscribe =>
    simp only [account, step, hpc]
    by_cases hn : n = consumedTopics.length
    · simp only [hn, if_true, decide_true]
      exact .subscribe n hpc hn
    · simp only [hn, if_false, decide_false]
      exact .giveUp n hpc hn
  -- the other points lie outside the call
  all_goals simp [inLaunch, hpc] at hin

theorem inv_step {a : Answers} {l l' : Launch} (h : Inv consumedTopics l)
    (hstep : StepOf consumedTopics a l l') : Inv consumedTopics l' := by
  rw [Inv] at h
  cases hstep with
  | create hpc =>
    rw [hpc] at h
    obtain ⟨hreported, hsubscribed⟩ := h
    exact { consumer := rfl
            subscribed := hsubscribed
            count := by simp [hreported]
            rest := .inl (by simp [hreported]) }
  | noConsumer hpc hnone =>
    rw [hpc] at h
    obtain ⟨hreported, hsubscribed⟩ := h
    refine ⟨?_, fun _ => hreported, ?_⟩
    · simp [goto, hreported]
    · simp [goto, hsubscribed, hnone]
  | leave n hpc =>
    rw [hpc] at h
    have hwaiting : Waiting consumedTopics l [] n := h
    exact { hwaiting with }
  | ask t ts n hpc hdata hlt =>
    rw [hpc] at h
    have hwaiting : Waiting consumedTopics l (t :: ts) n := h
    refine ⟨{ hwaiting with }, ?_⟩
    rcases hwaiting.rest with hrest | ⟨-, -, hclear⟩
    · exact hrest
    · rw [hdata] at hclear
      cases hclear
  | pass t ts n hpc htest =>
    rw [hpc] at h
    have hwaiting : Waiting consumedTopics l (t :: ts) n := h
    have hlength := hwaiting.lt_length
    exact { hwaiting with
            rest := .inr ⟨hwaiting.isPrefix, by omega, htest (by omega)⟩ }
  | available t ts n hpc htopic =>
    rw [hpc] at h
    -- the loop index moves past the topic just reported
    obtain ⟨hwaiting, hrest⟩ := h
    exact { consumer := hwaiting.consumer
            subscribed := hwaiting.subscribed
            count := by simp [hwaiting.count]
            rest := .inl (by simpa using hrest) }
  | missing t ts n hpc htopic =>
    rw [hpc] at h
    exact ⟨{ h.1 with }, h.2⟩
  | exit t ts n hpc htopic =>
    rw [hpc] at h
    exact ⟨h.1.isPrefix, h.1.subscribed⟩
  | wake t ts n hpc =>
    rw [hpc] at h
    exact { h.1 with }
  | subscribe n hpc hn =>
    rw [hpc] at h
    have hwaiting : Waiting consumedTopics l [] n := h
    have hconsumer := hwaiting.consumer
    have hall := hwaiting.count_eq_iff.mp hn
    rcases a.subscribed with - | -
    · exact ⟨hwaiting.isPrefix, by simp [goto, hconsumer], by simp [goto, hconsumer, hall]⟩
    · exact ⟨hconsumer, hall, rfl⟩
  | giveUp n hpc hn =>
    rw [hpc] at h
    have hwaiting : Waiting consumedTopics l [] n := h
    have hconsumer := hwaiting.consumer
    have hall : l.reported ≠ consumedTopics := mt hwaiting.count_eq_iff.mpr hn
    exact ⟨hwaiting.isPrefix, by simp [goto, hconsumer], by simp [goto, hall]⟩

theorem inv_sigterm {l : Launch} (h : Inv consumedTopics l) :
    Inv consumedTopics { l with machine := l.machine.sigterm } := by
  rw [Inv] at h
  show InvAt consumedTopics { l with machine := l.machine.sigterm } l.machine.pc
  rcases hpc : l.machine.pc with - | - | - | - | ⟨ts, n⟩ | ⟨t, ts, n⟩ | ⟨t, ts, n⟩ | n | - | - |
    - | - | - | msg | msg | - | - | b
  all_goals rw [hpc] at h
  case topicTest => exact Waiting.sigterm h
  case topicAvailable => exact ⟨h.1.sigterm, h.2⟩
  case topicSleep => exact ⟨h.1.sigterm, h.2⟩
  case subscribe => exact Waiting.sigterm h
  all_goals exact h

/-- **What an event of the call preserves**. -/
theorem inv_next (e : Event) {l : Launch} (h : Inv consumedTopics l) :
    Inv consumedTopics (next E consumedTopics e l) := by
  rcases hin : inLaunch l.machine.pc with - | -
  · rw [next_of_not_inLaunch e hin]
    exact h
  rcases e with a | -
  · exact inv_step h (stepOf_next a hin)
  · rw [next_sigterm hin]
    exact inv_sigterm h

theorem inv_run (s : Machine) (evs : List Event) :
    Inv consumedTopics (Runs.run (next E consumedTopics) (enter s) evs) :=
  Runs.run_invariant (fun e _ h => inv_next e h) (inv_enter s) evs

/-- A call is a stretch of the run of operator(). -/
theorem reachable_machine (l : Launch) (evs : List Event) :
    Runs.Reachable (Machine.next E consumedTopics) l.machine
      (Runs.run (next E consumedTopics) l evs).machine := by
  induction evs generalizing l with
  | nil => exact ⟨[], rfl⟩
  | cons e evs ih =>
    rcases hin : inLaunch l.machine.pc with - | -
    · rw [Runs.run_cons, next_of_not_inLaunch e hin]
      exact ih l
    · -- inside the call the launch moves as the machine does
      apply Runs.Reachable.of_next e
      have hmachine : (next E consumedTopics e l).machine =
          Machine.next E consumedTopics e l.machine := by
        rcases e with a | -
        · rw [next_step a hin]
          rfl
        · rw [next_sigterm hin]
          rfl
      rw [← hmachine]
      exact ih _

/-! ### The end of the call -/

/-- What the invariant comes to: the call goes on, or it has ended in one of
three ways. -/
theorem Inv.cases {l : Launch} (h : Inv consumedTopics l) :
    inLaunch l.machine.pc = true ∧ l.result = none ∨
    inLaunch l.machine.pc = false ∧
      (l.result = some (.returned true) ∧ l.machine.consumer = true ∧
          l.reported = consumedTopics ∧ l.subscribed = true ∨
        l.result = some (.returned false) ∧ (l.machine.consumer = false → l.reported = []) ∧
          (l.subscribed = true ↔ l.machine.consumer = true ∧ l.reported = consumedTopics) ∨
        l.result = some .exit ∧ l.subscribed = false) := by
  rw [Inv] at h
  rw [result]
  rcases hpc : l.machine.pc with - | - | - | - | ⟨ts, n⟩ | ⟨t, ts, n⟩ | ⟨t, ts, n⟩ | n | - | - |
    - | - | - | msg | msg | - | - | b
  all_goals rw [hpc] at h
  case createProducer => exact .inr ⟨rfl, .inl ⟨rfl, h⟩⟩
  case relaunch => exact .inr ⟨rfl, .inr (.inl ⟨rfl, h.2⟩)⟩
  case exited => exact .inr ⟨rfl, .inr (.inr ⟨rfl, h.2⟩)⟩
  all_goals first | exact h.elim | exact .inl ⟨rfl, rfl⟩

theorem inLaunch_iff {l : Launch} (h : Inv consumedTopics l) :
    inLaunch l.machine.pc = true ↔ l.result = none := by
  rcases h.cases with ⟨hin, hnone⟩ | ⟨hin, ⟨hres, -⟩ | ⟨hres, -⟩ | ⟨hres, -⟩⟩
  · simp [hin, hnone]
  all_goals simp [hin, hres]

/-- What is left of the call, if every topic is there. -/
def launchRank (consumedTopics : List String) : Pc → ℕ
  | .createConsumer => 2 * consumedTopics.length + 3
  | .topicTest topics _ => 2 * topics.length + 2
  | .topicAvailable _ topics _ => 2 * topics.length + 3
  | .topicSleep _ topics _ => 2 * topics.length + 5
  | .subscribe _ => 1
  | _ => 0

theorem launchRank_pos {pc : Pc} (hin : inLaunch pc = true) : 0 < launchRank consumedTopics pc := by
  cases pc <;> simp [inLaunch, launchRank] at hin ⊢

/-- A step of the call lowers the rank, and a negative answer makes up for three. -/
theorem launchRank_step {a : Answers} {l l' : Launch} (hstep : StepOf consumedTopics a l l') :
    launchRank consumedTopics l'.machine.pc + 1 + 3 * l.missing ≤
      launchRank consumedTopics l.machine.pc + 3 * l'.missing := by
  cases hstep
  case subscribe n hpc hn =>
    rw [hpc]
    rcases a.subscribed with - | - <;> simp [goto, launchRank]
  all_goals
    rw [‹l.machine.pc = _›]
    simp only [goto, launchRank, List.length_cons]
    omega

/-- A call that has ended stays as it is. -/
theorem run_of_not_inLaunch {l : Launch} (hin : inLaunch l.machine.pc = false)
    (evs : List Event) : Runs.run (next E consumedTopics) l evs = l := by
  refine Runs.run_invariant (P := (· = l)) ?_ rfl evs
  rintro e l' rfl
  exact next_of_not_inLaunch e hin

/-- A call that goes on has taken few steps for the negative answers in it. -/
theorem launchRank_run {l : Launch} {evs : List Event}
    (h : inLaunch (Runs.run (next E consumedTopics) l evs).machine.pc = true) :
    evs.countP Event.isStep +
        launchRank consumedTopics (Runs.run (next E consumedTopics) l evs).machine.pc +
        3 * l.missing ≤
      launchRank consumedTopics l.machine.pc +
        3 * (Runs.run (next E consumedTopics) l evs).missing := by
  induction evs generalizing l with
  | nil => simp
  | cons e evs ih =>
    have hrest := ih (l := next E consumedTopics e l) h
    rw [Runs.run_cons]
    rcases hin : inLaunch l.machine.pc with - | -
    · rw [run_of_not_inLaunch hin, hin] at h
      cases h
    rcases e with a | -
    · have hstep : StepOf consumedTopics a l (next E consumedTopics (.step a) l) :=
        stepOf_next a hin
      have hrank := launchRank_step hstep
      rw [List.countP_cons_of_pos (by rfl)]
      omega
    · rw [next_sigterm hin] at hrest ⊢
      rw [List.countP_cons_of_neg (by simp [Event.isStep])]
      exact hrest

/-- The steps to the end of the call, at most, once `data_available` is clear. -/
def stoppedRank (consumedTopics : List String) (l : Launch) : ℕ :=
  rank consumedTopics l.machine.pc - 5

theorem stoppedRank_le {l : Launch} (h : Inv consumedTopics l) :
    stoppedRank consumedTopics l ≤ consumedTopics.length + 4 := by
  rw [Inv] at h
  rw [stoppedRank]
  rcases hpc : l.machine.pc with - | - | - | - | ⟨ts, n⟩ | ⟨t, ts, n⟩ | ⟨t, ts, n⟩ | n | - | - |
    - | - | - | msg | msg | - | - | b
  all_goals rw [hpc] at h
  case topicTest =>
    have hlength := Waiting.length_le h
    simp only [rank]
    omega
  case topicAvailable =>
    have hlength := h.1.lt_length
    simp only [rank]
    omega
  case topicSleep =>
    have hlength := h.1.lt_length
    simp only [rank]
    omega
  all_goals first | exact h.elim | (simp only [rank]; omega)

theorem stoppedRank_pos_iff {l : Launch} (h : Inv consumedTopics l) :
    0 < stoppedRank consumedTopics l ↔ inLaunch l.machine.pc = true := by
  rw [Inv] at h
  rw [stoppedRank]
  rcases hpc : l.machine.pc with - | - | - | - | ⟨ts, n⟩ | ⟨t, ts, n⟩ | ⟨t, ts, n⟩ | n | - | - |
    - | - | - | msg | msg | - | - | b
  all_goals rw [hpc] at h
  all_goals first | exact h.elim | (simp [inLaunch, rank]; done) | (simp [inLaunch, rank]; omega)

/-- A signal has come during the call. -/
structure Cancelled (consumedTopics : List String) (l : Launch) : Prop where
  inv : Inv consumedTopics l
  dataAvailable : l.machine.codec.dataAvailable = false

theorem codec_step {a : Answers} {l l' : Launch} (hstep : StepOf consumedTopics a l l') :
    l'.machine.codec = l.machine.codec := by
  cases hstep <;> rfl

theorem cancelled_next (e : Event) {l : Launch} (h : Cancelled consumedTopics l) :
    Cancelled consumedTopics (next E consumedTopics e l) := by
  refine ⟨inv_next e h.inv, ?_⟩
  rcases hin : inLaunch l.machine.pc with - | -
  · rw [next_of_not_inLaunch e hin]
    exact h.dataAvailable
  rcases e with a | -
  · rw [codec_step (stepOf_next a hin)]
    exact h.dataAvailable
  · rw [next_sigterm hin]
    rfl

theorem stoppedRank_step (a : Answers) {l : Launch} (h : Cancelled consumedTopics l)
    (hin : inLaunch l.machine.pc = true) :
    stoppedRank consumedTopics (next E consumedTopics (.step a) l) <
      stoppedRank consumedTopics l := by
  have hpos := (stoppedRank_pos_iff h.inv).mpr hin
  rw [stoppedRank] at hpos
  have hstep := rank_step (E := E) a (s := l.machine)
    (fun hpc => by simp [hpc, inLaunch] at hin) (fun hpc => by simp [hpc, inLaunch] at hin)
    (fun _ => h.dataAvailable) (show 0 < rank consumedTopics l.machine.pc by omega)
  rw [next_step a hin, stoppedRank, stoppedRank]
  show rank consumedTopics (step E consumedTopics a l.machine).pc - 5 < _
  omega

theorem stoppedRank_next_le (e : Event) {l : Launch} (h : Cancelled consumedTopics l) :
    stoppedRank consumedTopics (next E consumedTopics e l) ≤ stoppedRank consumedTopics l := by
  rcases hin : inLaunch l.machine.pc with - | -
  · exact Nat.le_of_eq (by rw [next_of_not_inLaunch e hin])
  rcases e with a | -
  · exact Nat.le_of_lt (stoppedRank_step a h hin)
  · exact Nat.le_of_eq (by rw [next_sigterm hin]; rfl)

/-- After a signal the call ends within a number of steps that only the number
of topics bounds. -/
theorem result_of_signal (s : Machine) {before after : List Event}
    (h : consumedTopics.length + 4 ≤ after.countP Event.isStep) :
    (Runs.run (next E consumedTopics) (enter s) (before ++ .sigterm :: after)).result ≠ none := by
  rw [Runs.run_append, Runs.run_cons]
  have hinv : Inv consumedTopics (Runs.run (next E consumedTopics) (enter s) before) :=
    inv_run s before
  generalize Runs.run (next E consumedTopics) (enter s) before = l at hinv ⊢
  rcases hin : inLaunch l.machine.pc with - | -
  · rw [next_of_not_inLaunch .sigterm hin, run_of_not_inLaunch hin]
    rw [Ne, ← inLaunch_iff hinv, hin]
    exact Bool.false_ne_true
  · -- with the signal in, every answer brings the call closer to its end
    have hcancelled : Cancelled consumedTopics (next E consumedTopics .sigterm l) := by
      refine ⟨inv_next .sigterm hinv, ?_⟩
      rw [next_sigterm hin]
      rfl
    have hafter : Cancelled consumedTopics (Runs.run (next E consumedTopics)
        (next E consumedTopics .sigterm l) after) :=
      Runs.run_invariant (fun e _ h => cancelled_next e h) hcancelled after
    have hzero : stoppedRank consumedTopics (Runs.run (next E consumedTopics)
        (next E consumedTopics .sigterm l) after) = 0 := by
      refine Runs.run_rank (P := Cancelled consumedTopics) (fun e _ h => cancelled_next e h)
        (fun e l' h => stoppedRank_next_le e h) ?_ hcancelled
        ((stoppedRank_le hcancelled.inv).trans h)
      rintro (a | -) l' h hk hpos
      · exact stoppedRank_step a h ((stoppedRank_pos_iff h.inv).mp hpos)
      · cases hk
    rw [Ne, ← inLaunch_iff hafter.inv, ← stoppedRank_pos_iff hafter.inv, hzero]
    exact Nat.lt_irrefl 0

/-! ### What the call does -/

theorem Inv.isPrefix {l : Launch} (h : Inv consumedTopics l) : l.reported <+: consumedTopics := by
  rw [Inv] at h
  rcases hpc : l.machine.pc with - | - | - | - | ⟨ts, n⟩ | ⟨t, ts, n⟩ | ⟨t, ts, n⟩ | n | - | - |
    - | - | - | msg | msg | - | - | b
  all_goals rw [hpc] at h
  case createConsumer => simp [h.1]
  case topicTest => exact Waiting.isPrefix h
  case topicAvailable => exact h.1.isPrefix
  case topicSleep => exact h.1.isPrefix
  case subscribe => exact Waiting.isPrefix h
  case createProducer => simp [h.2.1]
  case relaunch => exact h.1
  case exited => exact h.1
  all_goals exact h.elim

theorem Inv.returned {l : Launch} {b : Bool} (h : Inv consumedTopics l)
    (hb : l.result = some (.returned b)) :
    (l.subscribed = true ↔ l.machine.consumer = true ∧ l.reported = consumedTopics) ∧
      (l.subscribed = false → b = false) := by
  rcases h.cases with ⟨-, hres⟩ | ⟨-, ⟨hres, hconsumer, hall, hsubscribed⟩ | ⟨hres, -, hiff⟩ |
    ⟨hres, -⟩⟩
  · rw [hres] at hb
    cases hb
  · simp [hconsumer, hall, hsubscribed]
  · rw [hres, Option.some.injEq, LaunchResult.returned.injEq] at hb
    exact ⟨hiff, fun _ => hb.symm⟩
  · rw [hres] at hb
    cases hb

/-- Without a consumer no topic is asked for. -/
theorem Inv.reported_nil {l : Launch} {b : Bool} (h : Inv consumedTopics l)
    (hb : l.result = some (.returned b)) (hnone : l.machine.consumer = false) :
    l.reported = [] := by
  rcases h.cases with ⟨-, hres⟩ | ⟨-, ⟨-, hconsumer, -⟩ | ⟨-, hreported, -⟩ | ⟨hres, -⟩⟩
  · rw [hres] at hb
    cases hb
  · rw [hnone] at hconsumer
    cases hconsumer
  · exact hreported hnone
  · rw [hres] at hb
    cases hb

theorem Inv.exits {l : Launch} (h : Inv consumedTopics l) (hexit : l.result = some .exit) :
    l.subscribed = false := by
  rcases h.cases with ⟨-, hres⟩ | ⟨-, ⟨hres, -⟩ | ⟨hres, -⟩ | ⟨-, hsubscribed⟩⟩
  case inr.inr.inr => exact hsubscribed
  all_goals
    rw [hres] at hexit
    cases hexit

theorem exit_step {a : Answers} {l l' : Launch} (hstep : StepOf consumedTopics a l l')
    (h : l'.result = some .exit) : a.topic = .exit := by
  cases hstep
  case exit htopic => exact htopic
  case subscribe n hpc hn => rcases hs : a.subscribed with - | - <;> simp [hs, result, goto] at h
  all_goals cases h

/-- A call ends with std::exit only by an answer that says so. -/
theorem exit_answered {l : Launch} {evs : List Event} (hin : inLaunch l.machine.pc = true)
    (h : (Runs.run (next E consumedTopics) l evs).result = some .exit) :
    ∃ a, Event.step a ∈ evs ∧ a.topic = .exit := by
  induction evs generalizing l with
  | nil =>
    rw [Runs.run_nil, result] at h
    rcases hpc : l.machine.pc with - | - | - | - | ⟨ts, n⟩ | ⟨t, ts, n⟩ | ⟨t, ts, n⟩ | n | - | - |
      - | - | - | msg | msg | - | - | b
    all_goals simp [hpc, inLaunch] at h hin
  | cons e evs ih =>
    rw [Runs.run_cons] at h
    rcases hnext : inLaunch (next E consumedTopics e l).machine.pc with - | -
    · -- the call ends with this event
      rw [run_of_not_inLaunch hnext] at h
      rcases e with a | -
      · exact ⟨a, List.mem_cons_self, exit_step (stepOf_next a hin) h⟩
      · rw [next_sigterm hin] at hnext
        exact Bool.noConfusion (hin.symm.trans hnext)
    · obtain ⟨a, hmem, htopic⟩ := ih hnext h
      exact ⟨a, List.mem_cons_of_mem e hmem, htopic⟩

/-- What a call of launch_consumer has done after the events `evs`. -/
structure WaitsForTopics (consumedTopics : List String) (evs : List Event) (l : Launch) :
    Prop where
  /-- The reports follow the list. -/
  inOrder : l.reported <+: consumedTopics
  returns : ∀ b, l.result = some (.returned b) →
    (l.subscribed = true ↔ l.machine.consumer = true ∧ l.reported = consumedTopics) ∧
      (l.subscribed = false → b = false)
  distinct : ∀ b, l.result = some (.returned b) → consumedTopics.Nodup → consumedTopics ≠ [] →
    (l.subscribed = true ↔ ∀ topic ∈ consumedTopics, topic ∈ l.reported)
  exits : l.result = some .exit → l.subscribed = false ∧ ∃ a, .step a ∈ evs ∧ a.topic = .exit
  waits : l.result = none →
    evs.countP Event.isStep ≤ 2 * consumedTopics.length + 2 + 3 * l.missing
  cancelled : ∀ before after, evs = before ++ .sigterm :: after →
    consumedTopics.length + 4 ≤ after.countP Event.isStep → l.result ≠ none

/-- **The subscription**: a call of launch_consumer that returns has called
subscribe if and only if it had a consumer and every topic of the list was
reported available in its turn, and has returned false otherwise; std::exit is
called only where the metadata cannot be had.  A call that goes on waits for
negative answers, and a signal ends it. -/
theorem launchConsumer_subscribes (E : Externals V) (consumedTopics : List String) (s : Machine)
    (evs : List Event) :
    WaitsForTopics consumedTopics evs (Runs.run (next E consumedTopics) (enter s) evs) := by
  have hinv : Inv consumedTopics (Runs.run (next E consumedTopics) (enter s) evs) := inv_run s evs
  refine ⟨hinv.isPrefix, fun b hb => hinv.returned hb, fun b hb hnodup hne => ?_, fun hexit => ?_,
    fun hnone => ?_, ?_⟩
  · rw [(hinv.returned hb).1]
    constructor
    · rintro ⟨-, hall⟩ topic htopic
      rwa [hall]
    · intro hall
      -- a prefix without duplicates that has every topic is the whole list
      have heq := hinv.isPrefix.eq_of_length_le (List.Nodup.length_le_of_subset hnodup hall)
      refine ⟨?_, heq⟩
      rw [← Bool.not_eq_false]
      exact fun hfalse => hne (heq.symm.trans (hinv.reported_nil hb hfalse))
  · exact ⟨hinv.exits hexit, exit_answered rfl hexit⟩
  · -- still in the call: the answers so far are bounded by the rank
    have hin := (inLaunch_iff hinv).mpr hnone
    have hrun := launchRank_run hin
    have hpos : 0 < launchRank consumedTopics
        (Runs.run (next E consumedTopics) (enter s) evs).machine.pc := launchRank_pos hin
    have hstart : launchRank consumedTopics (enter s).machine.pc =
      2 * consumedTopics.length + 3 := rfl
    omega
  · rintro before after rfl hcount
    exact result_of_signal s hcount

/-- A step in which the consumer is created or not, and topic_available does `t`. -/
def answer (created : Bool) (t : TopicAnswer) : Event :=
  .step ⟨true, created, t, true, true, true, ⟨.timedOut, ""⟩, true, ⟨"t1", "t2"⟩⟩

/-- A call for some topics, with libraries that are not asked for anything else. -/
def callFor (topics : List String) (evs : List Event) : Launch :=
  Runs.run (next emptyHanded topics) (enter (start configuredCodec)) evs

/-- No topic to wait for, and no consumer. -/
def noConsumer : Launch := callFor [] [answer false .missing]

/-- A topic that is listed twice, and a signal after the first report. -/
def listedTwice : Launch :=
  callFor ["J2735", "J2735"] (List.replicate 3 (answer true .available) ++ .sigterm ::
    List.replicate 3 (answer true .available))

/-- Metadata that cannot be had. -/
def noMetadata : Launch := callFor ["J2735"] (List.replicate 3 (answer true .exit))

theorem not_subscribed_otherwise :
    (noConsumer.result = some (.returned false) ∧
      ¬ (noConsumer.subscribed = true ↔ ∀ topic ∈ [], topic ∈ noConsumer.reported)) ∧
    (listedTwice.result = some (.returned false) ∧
      ¬ (listedTwice.subscribed = true ↔
        ∀ topic ∈ ["J2735", "J2735"], topic ∈ listedTwice.reported)) ∧
    (noMetadata.result = some .exit ∧ noMetadata.subscribed = false) := by
  refine ⟨⟨?_, ?_⟩, ⟨?_, ?_⟩, ?_, ?_⟩ <;> decide +kernel

end Launch

end Machine

end Asn1Codec
