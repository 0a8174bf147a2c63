/-
Asn1Codec/Shutdown.lean

How a run ends: by a signal, and at the end of the stream.

The handler clears two flags and the main thread sets one of them again, at the
top of the outer loop.  `rank` bounds the number of steps to the exit from every
program point once both flags are clear, and it is lowered by every step except
the one that sets `data_available`: a signal is lost exactly when it falls
between the test of `bootstrap` and that step.

The end of the stream clears `data_available` only, so the outer loop starts
all over again unless a signal has come before its next test of `bootstrap`.
-/
import Asn1Codec.Operator
import Asn1Codec.Stateless

namespace Asn1Codec

namespace Machine

variable {V : Type} {E : Externals V} {consumedTopics : List String}

/-! ### The flags -/

/-- Handling a message leaves `bootstrap` alone and never sets `data_available`. -/
theorem handleMessage_flags (E : Externals V) (m : Message) (now : Clock) (c : Codec) :
    (handleMessage E m now c).bootstrap = c.bootstrap ∧
      (c.dataAvailable = false → (handleMessage E m now c).dataAvailable = false) := by
  by_cases hreal : m.err = .noError
  · have h := handleMessage_real E hreal now c
    refine ⟨?_, fun hdata => ?_⟩
    · show (handleMessage E m now c).lasting.bootstrap = _
      rw [h]
      rfl
    · show (handleMessage E m now c).lasting.dataAvailable = _
      rw [h]
      exact hdata
  · rw [handleMessage_event E hreal]
    rw [Codec.afterEvent]
    split
    case h_4 => split <;> simp_all
    all_goals exact ⟨rfl, fun h => by first | exact h | rfl⟩

theorem publishStream_flags (m : Message) (a : Answers) (s : Machine) :
    (publishStream m a s).codec.bootstrap = s.codec.bootstrap ∧
      (publishStream m a s).codec.dataAvailable = s.codec.dataAvailable := by
  rw [publishStream]
  rcases a.produced with - | - <;> exact ⟨rfl, rfl⟩

/-- Both flags are clear, and the next step does not set one again. -/
structure Stopped (s : Machine) : Prop where
  bootstrap : s.codec.bootstrap = false
  dataAvailable : s.codec.dataAvailable = false
  pc : s.pc ≠ .rearm

theorem stopped_sigterm {s : Machine} (h : s.pc ≠ .rearm) : Stopped (sigterm s) := ⟨rfl, rfl, h⟩

/-- The steps to the exit, at most, once both flags are clear. -/
def rank (consumedTopics : List String) : Pc → ℕ
  | .exited _ => 0
  | .summary => 1
  | .whileBootstrap => 2
  | .relaunch => 3
  | .whileData => 3
  | .configure => 3
  | .flush => 4
  | .createTopic => 4
  | .publish _ => 5
  | .createProducer => 5
  | .process _ => 6
  | .subscribe _ => 6
  | .consume => 7
  | .topicTest topics _ => 7 + topics.length
  | .topicSleep _ topics _ => 9 + topics.length
  | .topicAvailable _ topics _ => 10 + topics.length
  | .createConsumer => 8 + consumedTopics.length
  | .rearm => 9 + consumedTopics.length

/-- No step of the main thread touches `bootstrap`. -/
theorem bootstrap_step (a : Answers) (s : Machine) :
    (step E consumedTopics a s).codec.bootstrap = s.codec.bootstrap := by
  rcases hpc : s.pc with - | - | - | - | ⟨- | ⟨t, ts⟩, n⟩ | ⟨t, ts, n⟩ | ⟨t, ts, n⟩ | n | - | - |
    - | - | - | msg | msg | - | - | b
  case process =>
    simp only [step, hpc]
    exact (handleMessage_flags E msg a.now s.codec).1
  case publish =>
    simp only [step, hpc]
    split
    · exact (publishStream_flags msg a s).1
    · rfl
  all_goals
    simp only [step, hpc]
    repeat' split
    all_goals rfl

/-- A run clears `bootstrap` by its signals. -/
theorem bootstrap_run (s : Machine) (evs : List Event) :
    (Runs.run (next E consumedTopics) s evs).codec.bootstrap = true ↔
      s.codec.bootstrap = true ∧ Event.sigterm ∉ evs := by
  induction evs generalizing s with
  | nil => simp
  | cons e evs ih =>
    rw [Runs.run_cons, ih, List.mem_cons, not_or]
    rcases e with a | -
    · rw [next, bootstrap_step]
      simp
    · simp [next, sigterm]

/-- The loops are left where `bootstrap` is found clear. -/
def Left (s : Machine) : Prop :=
  s.pc = .summary ∨ s.pc = .exited true → s.codec.bootstrap = false

theorem left_next (e : Event) (s : Machine) (h : Left s) : Left (next E consumedTopics e s) := by
  cases e with
  | sigterm => exact fun _ => rfl
  | step a =>
    intro hpc'
    rcases hpc : s.pc with - | - | - | - | ⟨- | ⟨t, ts⟩, n⟩ | ⟨t, ts, n⟩ | ⟨t, ts, n⟩ | n | - | - |
      - | - | - | msg | msg | - | - | b
    case whileBootstrap =>
      -- the only way to the summary
      rcases hb : s.codec.bootstrap with - | -
      · simpa only [next, step, hpc] using hb
      · simp [next, step, hpc, hb] at hpc'
    case summary =>
      have hclear := h (Or.inl hpc)
      simpa only [next, step, hpc] using hclear
    case exited =>
      have hclear : s.codec.bootstrap = false := by
        simp only [next, step, hpc] at hpc'
        exact h (Or.inr (by simpa [hpc] using hpc'))
      simpa only [next, step, hpc] using hclear
    all_goals
      simp only [next, step, hpc] at hpc'
      repeat' split at hpc'
      all_goals simp at hpc'

theorem stopped_next (e : Event) {s : Machine} (h : Stopped s) :
    Stopped (next E consumedTopics e s) := by
  rcases e with a | -
  · rcases hpc : s.pc with - | - | - | - | ⟨- | ⟨t, ts⟩, n⟩ | ⟨t, ts, n⟩ | ⟨t, ts, n⟩ | n | - | - |
      - | - | - | msg | msg | - | - | b
    case rearm => exact absurd hpc h.pc
    case process =>
      obtain ⟨hb, hd⟩ := handleMessage_flags E msg a.now s.codec
      simp only [next, step, hpc]
      exact ⟨hb.trans h.bootstrap, hd h.dataAvailable, by simp⟩
    case publish =>
      obtain ⟨hb, hd⟩ := publishStream_flags msg a s
      simp only [next, step, hpc]
      split
      · exact ⟨hb.trans h.bootstrap, hd.trans h.dataAvailable, by simp⟩
      · exact ⟨h.bootstrap, h.dataAvailable, by simp⟩
    case whileBootstrap =>
      simp only [next, step, hpc, h.bootstrap]
      exact ⟨h.bootstrap, h.dataAvailable, by simp⟩
    all_goals
      simp only [next, step, hpc]
      repeat' split
      all_goals exact ⟨h.bootstrap, h.dataAvailable, by simp⟩
  · exact stopped_sigterm h.pc

theorem exited_of_rank {pc : Pc} (h : rank consumedTopics pc = 0) : ∃ b, pc = .exited b := by
  cases pc <;> simp [rank] at h
  exact ⟨_, rfl⟩

/-- A step lowers the rank, unless a flag that it tests is still set. -/
theorem rank_step (a : Answers) {s : Machine} (hne : s.pc ≠ .rearm)
    (hb : s.pc = .whileBootstrap → s.codec.bootstrap = false)
    (hd : (∀ m, s.pc ≠ .process m) → s.codec.dataAvailable = false)
    (hpos : 0 < rank consumedTopics s.pc) :
    rank consumedTopics (step E consumedTopics a s).pc < rank consumedTopics s.pc := by
  rcases hpc : s.pc with - | - | - | - | ⟨- | ⟨t, ts⟩, n⟩ | ⟨t, ts, n⟩ | ⟨t, ts, n⟩ | n | - | - |
    - | - | - | msg | msg | - | - | b
  case rearm => exact absurd hpc hne
  case exited => simp [hpc, rank] at hpos
  case whileBootstrap =>
    simp only [step, hpc, hb hpc]
    exact Nat.lt_add_one 1
  case whileData =>
    have hdata := hd (by simp [hpc])
    simp only [step, hpc, hdata]
    exact Nat.lt_add_one 2
  case topicTest.cons =>
    have hdata := hd (by simp [hpc])
    simp only [step, hpc, hdata, rank]
    simp
  all_goals
    simp only [step, hpc]
    repeat' split
    all_goals simp only [rank, List.length_cons]
    all_goals omega

/-- The run leaves both loops, however the events go on. -/
def Halts (E : Externals V) (consumedTopics : List String) (s : Machine) : Prop :=
  ∃ n, ∀ evs : List Event, n ≤ evs.countP Event.isStep →
    ∃ b, (Runs.run (next E consumedTopics) s evs).pc = .exited b

/-- The induction rule for `Halts`: an invariant under which every step lowers
the rank. -/
theorem halts_of_rank {P : Machine → Prop} (hP : ∀ e s, P s → P (next E consumedTopics e s))
    (hstep : ∀ a s, P s → 0 < rank consumedTopics s.pc →
      rank consumedTopics (step E consumedTopics a s).pc < rank consumedTopics s.pc)
    (hzero : ∀ s, P s → rank consumedTopics s.pc = 0 → ∀ a,
      rank consumedTopics (step E consumedTopics a s).pc = 0)
    {s : Machine} (h : P s) : Halts E consumedTopics s := by
  -- signals do not lower the rank, so only the steps are counted
  refine ⟨rank consumedTopics s.pc, fun evs hevs => ?_⟩
  apply @exited_of_rank consumedTopics
  apply @Runs.run_rank _ _ (next E consumedTopics) P Event.isStep
    (fun s => rank consumedTopics s.pc) hP ?_ ?_ s h evs hevs
  · rintro (a | -) s hs
    · rcases Nat.eq_zero_or_pos (rank consumedTopics s.pc) with hz | hpos
      · exact (hzero s hs hz a).le.trans (Nat.zero_le _)
      · exact (hstep a s hs hpos).le
    · exact Nat.le_refl _
  · rintro (a | -) s hs hk hpos
    · exact hstep a s hs hpos
    · simp [Event.isStep] at hk

theorem halts_of_stopped {s : Machine} (h : Stopped s) : Halts E consumedTopics s := by
  apply halts_of_rank (P := Stopped) (fun e s => stopped_next e) _ _ h
  · intro a s hs hpos
    exact rank_step a hs.pc (fun _ => hs.bootstrap) (fun _ => hs.dataAvailable) hpos
  · intro s hs hz a
    obtain ⟨b, hb⟩ := exited_of_rank hz
    simp [step, hb, rank]

/-! ### A signal -/

/-- consume() is called at one program point, and this is entered from the head
of the consume loop. -/
theorem polled_next (e : Event) (s : Machine) :
    (∃ m, s.pc = .consume ∧ (next E consumedTopics e s).pc = .process m ∧
      (next E consumedTopics e s).polled = s.polled ++ [m]) ∨
    ((next E consumedTopics e s).polled = s.polled ∧
      ((next E consumedTopics e s).pc = .consume →
        s.pc = .consume ∨ (s.pc = .whileData ∧ s.codec.dataAvailable = true))) := by
  rcases e with a | -
  · rcases hpc : s.pc with - | - | - | - | ⟨- | ⟨t, ts⟩, n⟩ | ⟨t, ts, n⟩ | ⟨t, ts, n⟩ | n | - | - |
      - | - | - | msg | msg | - | - | b
    case consume =>
      refine Or.inl ⟨a.message, rfl, ?_, ?_⟩ <;> simp only [next, step, hpc]
    case whileData =>
      refine Or.inr ⟨?_, ?_⟩ <;> simp only [next, step, hpc]
      split <;> simp_all
    case publish =>
      refine Or.inr ⟨?_, ?_⟩ <;> simp only [next, step, hpc]
      · split <;> rfl
      · simp
    all_goals
      refine Or.inr ?_
      simp only [next, step, hpc]
      repeat' split
      all_goals simp
  · exact Or.inr ⟨rfl, Or.inl⟩

/-- Once both flags are clear, at most the call of consume() that comes next is
still made. -/
theorem polled_of_stopped {s : Machine} (h : Stopped s) (evs : List Event) :
    (Runs.run (next E consumedTopics) s evs).polled.length ≤ s.polled.length + 1 := by
  -- the calls made and the one that comes next, together, never grow
  let P : Machine → Prop := fun s' => Stopped s' ∧
    s'.polled.length + (if s'.pc = .consume then 1 else 0) ≤ s.polled.length + 1
  have hP : ∀ e s', P s' → P (next E consumedTopics e s') := by
    rintro e s' ⟨hs, hlen⟩
    refine ⟨stopped_next e hs, ?_⟩
    rcases @polled_next V E consumedTopics e s' with ⟨m, hpc, hpc', hpolled⟩ | ⟨hpolled, hpc'⟩
    · rw [if_pos hpc] at hlen
      rw [hpolled, hpc', if_neg (by simp), List.length_append]
      exact hlen
    · rw [hpolled]
      by_cases hconsume : (next E consumedTopics e s').pc = .consume
      · rcases hpc' hconsume with hpc | ⟨-, hdata⟩
        · rw [if_pos hpc] at hlen
          rw [if_pos hconsume]
          exact hlen
        · exact absurd hdata (by simp [hs.dataAvailable])
      · rw [if_neg hconsume]
        exact Nat.le_trans (Nat.le_add_right _ _) hlen
  have hrun : P (Runs.run (next E consumedTopics) s evs) :=
    Runs.run_invariant hP ⟨h, by split <;> omega⟩ evs
  exact Nat.le_trans (Nat.le_add_right _ _) hrun.2

/-! ### What can follow when the loops go on -/

/-- The waiting for the topics ends when all of them are there. -/
theorem topics_available {s : Machine} (hdata : s.codec.dataAvailable = true)
    (topics : List String) (n : ℕ) (hn : n + topics.length ≤ consumedTopics.length) :
    Runs.Reachable (next E consumedTopics) { s with pc := .topicTest topics n }
      { s with pc := .subscribe (n + topics.length) } := by
  induction topics generalizing n with
  | nil => exact ⟨[answering ⟨.timedOut, ""⟩], rfl⟩
  | cons topic topics ih =>
    have hlt : n < consumedTopics.length := by
      rw [List.length_cons] at hn
      omega
    have htest : next E consumedTopics (answering ⟨.timedOut, ""⟩)
        { s with pc := .topicTest (topic :: topics) n } =
          { s with pc := .topicAvailable topic topics n } := by
      simp [next, answering, step, hdata, hlt]
    have havailable : next E consumedTopics (answering ⟨.timedOut, ""⟩)
        { s with pc := .topicAvailable topic topics n } =
          { s with pc := .topicTest topics (n + 1) } := rfl
    apply Runs.Reachable.of_next (answering ⟨.timedOut, ""⟩)
    rw [htest]
    apply Runs.Reachable.of_next (answering ⟨.timedOut, ""⟩)
    rw [havailable]
    have hrest := ih (n + 1) (by rw [List.length_cons] at hn; omega)
    rwa [List.length_cons, Nat.add_comm topics.length 1, ← Nat.add_assoc]

/-- From the top of the outer loop the consume loop can be reached. -/
theorem launch {s : Machine} (hpc : s.pc = .rearm) :
    Runs.Reachable (next E consumedTopics) s
      { s with pc := .whileData, consumer := true,
               codec := { s.codec with dataAvailable := true } } := by
  let s₁ : Machine := { s with consumer := true, codec := { s.codec with dataAvailable := true } }
  have hrearm : next E consumedTopics (answering ⟨.timedOut, ""⟩) s =
      { s with pc := .createConsumer, codec := { s.codec with dataAvailable := true } } := by
    simp only [next, answering, step, hpc]
  have hcreate : next E consumedTopics (answering ⟨.timedOut, ""⟩)
      { s with pc := .createConsumer, codec := { s.codec with dataAvailable := true } } =
        { s₁ with pc := .topicTest consumedTopics 0 } := by
    simp [next, answering, step, s₁]
  have hsubscribe : next E consumedTopics (answering ⟨.timedOut, ""⟩)
      { s₁ with pc := .subscribe (0 + consumedTopics.length) } =
        { s₁ with pc := .createProducer } := by
    simp [next, answering, step]
  apply Runs.Reachable.of_next (answering ⟨.timedOut, ""⟩)
  rw [hrearm]
  apply Runs.Reachable.of_next (answering ⟨.timedOut, ""⟩)
  rw [hcreate]
  apply Runs.Reachable.trans (topics_available (s := s₁) rfl consumedTopics 0 (by omega))
  apply Runs.Reachable.of_next (answering ⟨.timedOut, ""⟩)
  rw [hsubscribe]
  exact ⟨[answering ⟨.timedOut, ""⟩, answering ⟨.timedOut, ""⟩], rfl⟩

/-- From the head of the consume loop it can come back there with one more
poll. -/
theorem poll_once {s : Machine} (hpc : s.pc = .whileData) (hdata : s.codec.dataAvailable = true) :
    ∃ s', Runs.Reachable (next E consumedTopics) s s' ∧ s'.pc = .whileData ∧
      s'.codec.dataAvailable = true ∧ s'.polled = s.polled ++ [⟨.timedOut, ""⟩] := by
  refine ⟨_, ⟨List.replicate 5 (answering ⟨.timedOut, ""⟩), rfl⟩, ?_⟩
  have htest : next E consumedTopics (answering ⟨.timedOut, ""⟩) s = { s with pc := .consume } := by
    simp [next, answering, step, hpc, hdata]
  have hevent (now : Clock) (c : Codec) : handleMessage E ⟨.timedOut, ""⟩ now c = c :=
    handleMessage_event E (by simp) now c
  simp only [List.replicate, Runs.run_cons, Runs.run_nil, htest]
  simp [next, answering, step, hevent, hdata, Message.len]

/-- **Which signals are lost.**  In every run and at every point of it at which
a signal is delivered: at most one more call of consume() follows and the run
leaves both loops, however it goes on, if and only if the signal does not fall
between the test of `bootstrap` and the setting of `data_available`. -/
theorem shutdown_iff (E : Externals V) (consumedTopics : List String) (c : Codec)
    (before : List Event) :
    let s := Runs.run (next E consumedTopics) (start c) before
    ((∀ after : List Event,
        (Runs.run (next E consumedTopics) (sigterm s) after).polled.length ≤
          s.polled.length + 1) ∧
      Halts E consumedTopics (sigterm s)) ↔ s.pc ≠ .rearm := by
  intro s
  constructor
  · rintro ⟨hpolled, -⟩ hpc
    -- the flag is set again, the loop is entered, and two polls are made
    have hlaunch := @launch V E consumedTopics (sigterm s) hpc
    obtain ⟨s₁, h₁, hpc₁, hdata₁, hpolled₁⟩ := @poll_once V E consumedTopics
      { sigterm s with pc := .whileData, consumer := true,
                       codec := { (sigterm s).codec with dataAvailable := true } } rfl rfl
    obtain ⟨s₂, h₂, -, -, hpolled₂⟩ := @poll_once V E consumedTopics s₁ hpc₁ hdata₁
    obtain ⟨after, rfl⟩ := (hlaunch.trans h₁).trans h₂
    have hlen := hpolled after
    rw [hpolled₂, hpolled₁] at hlen
    simp [sigterm] at hlen
  · intro hpc
    have hstop := stopped_sigterm hpc
    exact ⟨polled_of_stopped hstop, halts_of_stopped hstop⟩

/-- A signal between the two statements: two more polls follow. -/
theorem shutdown_lost :
    (Runs.run (next emptyHanded ["topic.Asn1DecoderInput"]) (start configuredCodec)
      (List.replicate 2 (answering ⟨.timedOut, ""⟩) ++ [.sigterm] ++
        List.replicate 18 (answering ⟨.timedOut, ""⟩))).polled.length = 2 := by
  decide +kernel

/-! ### The end of the stream -/

/-- What handling a message does to the members that count the ends. -/
theorem handleMessage_eof (E : Externals V) (m : Message) (now : Clock) (c : Codec) :
    (handleMessage E m now c).exitEof = c.exitEof ∧
    (handleMessage E m now c).partitionCnt = c.partitionCnt ∧
    (c.exitEof = true →
      (handleMessage E m now c).eofCnt = c.eofCnt + if m.isEof then 1 else 0) ∧
    (c.exitEof = true → m.isEof = true → c.eofCnt + 1 = c.partitionCnt →
      (handleMessage E m now c).dataAvailable = false) := by
  by_cases hreal : m.err = .noError
  · have h := handleMessage_real E hreal now c
    have hnot : m.isEof = false := by simp [Message.isEof, hreal]
    refine ⟨?_, ?_, fun _ => ?_, fun _ heof => absurd heof (by simp [hnot])⟩
    · show (handleMessage E m now c).lasting.exitEof = _
      rw [h]
      rfl
    · show (handleMessage E m now c).lasting.partitionCnt = _
      rw [h]
      rfl
    · show (handleMessage E m now c).lasting.eofCnt = _
      rw [h, hnot]
      rfl
  · rw [handleMessage_event E hreal]
    unfold Codec.afterEvent Message.isEof
    rcases herr : m.err with - | - | - | - | - | - | -
    case partitionEof =>
      rcases hexit : c.exitEof with - | -
      · simpa using hexit
      · have hlast (h : c.eofCnt + 1 = c.partitionCnt) (hne : ¬ c.eofCnt + 1 = c.partitionCnt) :
            c.dataAvailable = false := absurd h hne
        simpa using hlast
    all_goals simp_all

/-- The end-of-partition event that is polled but not yet counted. -/
def uncounted : Pc → ℕ
  | .process m => if m.isEof then 1 else 0
  | _ => 0

/-- With exit_eof set, the counter has counted every end of a partition. -/
structure EofInv (c : Codec) (s : Machine) : Prop where
  exitEof : s.codec.exitEof = c.exitEof
  partitionCnt : s.codec.partitionCnt = c.partitionCnt
  count : c.exitEof = true → s.codec.eofCnt + uncounted s.pc = s.polled.countP Message.isEof

theorem eofInv_start (c : Codec) : EofInv c (start c) := ⟨rfl, rfl, fun _ => rfl⟩

theorem eofInv_next {c : Codec} (e : Event) {s : Machine} (h : EofInv c s) :
    EofInv c (next E consumedTopics e s) := by
  obtain ⟨hexit, hpart, hcount⟩ := h
  rcases e with a | -
  · rcases hpc : s.pc with - | - | - | - | ⟨- | ⟨t, ts⟩, n⟩ | ⟨t, ts, n⟩ | ⟨t, ts, n⟩ | n | - | - |
      - | - | - | msg | msg | - | - | b
    case process =>
      obtain ⟨hx, hp, hc, -⟩ := handleMessage_eof E msg a.now s.codec
      simp only [next, step, hpc]
      refine ⟨hx.trans hexit, hp.trans hpart, fun hc' => ?_⟩
      have hcount := hcount hc'
      rw [hpc] at hcount
      rw [← hcount]
      exact hc (hexit.trans hc')
    case consume =>
      simp only [next, step, hpc]
      refine ⟨hexit, hpart, fun hc' => ?_⟩
      have hcount := hcount hc'
      rw [hpc] at hcount
      rw [List.countP_append, ← hcount, List.countP_singleton]
      rfl
    case publish =>
      have hkeep : (publishStream msg a s).codec.exitEof = s.codec.exitEof ∧
          (publishStream msg a s).codec.partitionCnt = s.codec.partitionCnt ∧
          (publishStream msg a s).codec.eofCnt = s.codec.eofCnt := by
        rw [publishStream]
        rcases a.produced with - | - <;> exact ⟨rfl, rfl, rfl⟩
      obtain ⟨hx, hp, hc⟩ := hkeep
      simp only [next, step, hpc]
      rw [hpc] at hcount
      split
      · exact ⟨hx.trans hexit, hp.trans hpart, fun hc' =>
          (congrArg (· + 0) hc).trans (hcount hc')⟩
      · exact ⟨hexit, hpart, hcount⟩
    all_goals
      rw [hpc] at hcount
      simp only [next, step, hpc]
      repeat' split
      all_goals exact ⟨hexit, hpart, hcount⟩
  · exact ⟨hexit, hpart, hcount⟩

/-- Where the main thread is after `k` steps from the handling of a message, if
`data_available` is cleared by it. -/
def pcAfter (m : Message) : ℕ → Pc
  | 0 => .process m
  | 1 => .publish m
  | 2 => .flush
  | 3 => .whileData
  | _ => .whileBootstrap

/-- The run after `k` of the four steps that lead from the last end of a
partition, in `s₀`, to the test of `bootstrap`. -/
structure Finishing (s₀ : Machine) (m : Message) (k : ℕ) (s : Machine) : Prop where
  pc : s.pc = pcAfter m k
  polled : s.polled = s₀.polled
  quiet : m.len = 0 → s.published = s₀.published
  written : 0 < m.len → 2 ≤ k → s.published ≠ s₀.published
  unwritten : k ≤ 1 → s.published = s₀.published
  last : k = 0 → s.codec.exitEof = true ∧ s.codec.eofCnt + 1 = s.codec.partitionCnt
  dataAvailable : 1 ≤ k → s.codec.dataAvailable = false

theorem finishing_step {s₀ : Machine} {m : Message} (heof : m.err = .partitionEof) {k : ℕ}
    (hk : k < 4) (a : Answers) {s : Machine} (h : Finishing s₀ m k s) :
    Finishing s₀ m (k + 1) (step E consumedTopics a s) := by
  obtain ⟨hpc, hpolled, hquiet, hwritten, hunwritten, hlast, hdata⟩ := h
  match k with
  | 0 =>
    have hclear := (handleMessage_eof E m a.now s.codec).2.2.2 (hlast rfl).1
      (decide_eq_true heof) (hlast rfl).2
    simp only [step, show s.pc = .process m from hpc]
    exact ⟨rfl, hpolled, hquiet, fun _ h => by omega, fun _ => hunwritten (by omega),
      fun h => by omega, fun _ => hclear⟩
  | 1 =>
    have hsame := hunwritten (Nat.le_refl 1)
    have hd := hdata (Nat.le_refl 1)
    simp only [step, show s.pc = .publish m from hpc]
    by_cases hlen : m.len > 0
    · rw [if_pos hlen]
      refine ⟨rfl, hpolled, fun h => by omega, fun _ _ => ?_, fun h => by omega,
        fun h => by omega, fun _ => (publishStream_flags m a s).2.trans hd⟩
      rw [← hsame]
      simp [publishStream]
    · rw [if_neg hlen]
      exact ⟨rfl, hpolled, hquiet, fun h => absurd h hlen, fun h => by omega, fun h => by omega,
        fun _ => hd⟩
  | 2 =>
    have hd := hdata (by omega)
    simp only [step, show s.pc = .flush from hpc]
    exact ⟨rfl, hpolled, hquiet, fun h _ => hwritten h (Nat.le_refl 2), fun h => by omega,
      fun h => by omega, fun _ => hd⟩
  | 3 =>
    have hd := hdata (by omega)
    simp only [step, show s.pc = .whileData from hpc, hd]
    exact ⟨rfl, hpolled, hquiet, fun h _ => hwritten h (by omega), fun h => by omega,
      fun h => by omega, fun _ => hd⟩

theorem finishing_sigterm {s₀ : Machine} {m : Message} {k : ℕ} {s : Machine}
    (h : Finishing s₀ m k s) : Finishing s₀ m k (sigterm s) :=
  ⟨h.pc, h.polled, h.quiet, h.written, h.unwritten, h.last, fun _ => rfl⟩

/-- However the signals fall between the four steps. -/
theorem finishing_run {s₀ : Machine} {m : Message} (heof : m.err = .partitionEof)
    {evs : List Event} {k : ℕ} (hk : k + evs.countP Event.isStep ≤ 4) {s : Machine}
    (h : Finishing s₀ m k s) :
    Finishing s₀ m (k + evs.countP Event.isStep) (Runs.run (next E consumedTopics) s evs) := by
  induction evs generalizing k s with
  | nil => exact h
  | cons e evs ih =>
    rcases e with a | -
    · rw [List.countP_cons_of_pos rfl] at hk ⊢
      have hstep : Finishing s₀ m (k + 1) (step E consumedTopics a s) :=
        finishing_step heof (by omega) a h
      have hrun := ih (by omega) hstep
      rwa [Nat.add_assoc, Nat.add_comm 1] at hrun
    · rw [List.countP_cons_of_neg (by simp [Event.isStep])] at hk ⊢
      exact ih hk (finishing_sigterm h)

/-- Both loops are left. -/
structure Over (s₀ s : Machine) : Prop where
  pc : s.pc = .summary ∨ s.pc = .exited true
  polled : s.polled = s₀.polled
  published : s.published = s₀.published

theorem over_next {s₀ : Machine} (e : Event) {s : Machine} (h : Over s₀ s) :
    Over s₀ (next E consumedTopics e s) := by
  obtain ⟨hpc, hpolled, hpub⟩ := h
  rcases e with a | -
  · rcases hpc with hpc | hpc
    · simp only [next, step, hpc]
      exact ⟨.inr rfl, hpolled, hpub⟩
    · simp only [next, step, hpc]
      exact ⟨.inr rfl, hpolled, hpub⟩
  · exact ⟨hpc, hpolled, hpub⟩

theorem over_run {s₀ : Machine} {s : Machine} (h : Over s₀ s) (evs : List Event) :
    Over s₀ (Runs.run (next E consumedTopics) s evs) :=
  Runs.run_invariant (fun e _ => over_next e) h evs

/-- The next step is the last one. -/
theorem exited_of_over {s₀ s : Machine} (h : Over s₀ s) {evs : List Event}
    (hevs : 0 < evs.countP Event.isStep) :
    (Runs.run (next E consumedTopics) s evs).pc = .exited true := by
  have hzero : rank consumedTopics (Runs.run (next E consumedTopics) s evs).pc = 0 := by
    apply @Runs.run_rank _ _ (next E consumedTopics) (Over s₀) Event.isStep
      (fun s => rank consumedTopics s.pc) (fun e s => over_next e) ?_ ?_ s h evs ?_
    · rintro (a | -) s hs
      · rcases hs.pc with hpc | hpc <;> simp [next, step, hpc, rank]
      · exact Nat.le_refl _
    · rintro (a | -) s hs hk hpos
      · rcases hs.pc with hpc | hpc
        · simp [next, step, hpc, rank]
        · simp [hpc, rank] at hpos
      · simp [Event.isStep] at hk
    · rcases h.pc with hpc | hpc <;> simp only [hpc, rank] <;> omega
  refine (over_run h evs).pc.resolve_left fun hpc => ?_
  simp [hpc, rank] at hzero

/-- In no state of a run has a further poll been made or a further record been
published. -/
def NothingMore (E : Externals V) (consumedTopics : List String) (s : Machine) (evs : List Event) :
    Prop :=
  ∀ pre, pre <+: evs → (Runs.run (next E consumedTopics) s pre).polled = s.polled ∧
    (Runs.run (next E consumedTopics) s pre).published = s.published

/-- From the poll of an end without a text to a test of `bootstrap` that leaves
the loops, and beyond. -/
theorem nothingMore_of_over {s : Machine} {m : Message} {mid last : List Event} {a : Answers}
    (heof : m.err = .partitionEof) (hlen : m.len = 0) (hfirst : Finishing s m 0 s)
    (hmid : mid.countP Event.isStep = 4)
    (hover : Over s (Runs.run (next E consumedTopics) s (mid ++ [.step a]))) :
    NothingMore E consumedTopics s (mid ++ .step a :: last) := by
  -- up to the test, four steps at most have been made
  have hbefore {pre : List Event} (hpre : pre <+: mid) :
      (Runs.run (next E consumedTopics) s pre).polled = s.polled ∧
        (Runs.run (next E consumedTopics) s pre).published = s.published := by
    have hsteps : pre.countP Event.isStep ≤ mid.countP Event.isStep := hpre.sublist.countP_le
    have hrun : Finishing s m (0 + pre.countP Event.isStep)
        (Runs.run (next E consumedTopics) s pre) :=
      finishing_run heof (by omega) hfirst
    exact ⟨hrun.polled, hrun.quiet hlen⟩
  intro pre hpre
  rcases Nat.le_total pre.length mid.length with hle | hle
  · exact hbefore (List.prefix_of_prefix_length_le hpre (List.prefix_append ..) hle)
  · obtain ⟨rest, rfl⟩ := List.prefix_of_prefix_length_le (List.prefix_append ..) hpre hle
    rw [List.prefix_append_right_inj, List.prefix_cons_iff] at hpre
    rcases hpre with rfl | ⟨rest, rfl, -⟩
    · rw [List.append_nil]
      exact hbefore (List.prefix_refl mid)
    · have hrun : Over s (Runs.run (next E consumedTopics)
          (Runs.run (next E consumedTopics) s (mid ++ [.step a])) rest) := over_run hover rest
      rw [← Runs.run_append, List.append_assoc, List.singleton_append] at hrun
      exact ⟨hrun.polled, hrun.published⟩

/-- **When the end of the stream ends the run.**  With exit_eof set, take any
run from the poll that returns the end of the last partition, through the next
test of `bootstrap` and beyond.  In no state of it has a further poll been made
or a further record been published, and the test is the last of the loops, if
and only if a signal has come before that test and the event carries no text.
In a run without a later signal there is no other way to an end. -/
theorem exit_eof_iff (E : Externals V) (consumedTopics : List String) {c : Codec}
    (hexit : c.exitEof = true) (before mid last : List Event) (a : Answers) {m : Message}
    (hpc : (Runs.run (next E consumedTopics) (start c) before).pc = .process m)
    (heof : m.err = .partitionEof)
    (hcount : (Runs.run (next E consumedTopics) (start c) before).polled.countP Message.isEof =
      c.partitionCnt)
    (hmid : mid.countP Event.isStep = 4) :
    let s := Runs.run (next E consumedTopics) (start c) before
    (Runs.run (next E consumedTopics) s mid).pc = .whileBootstrap ∧
    (NothingMore E consumedTopics s (mid ++ .step a :: last) ∧
      (Runs.run (next E consumedTopics) s (mid ++ [.step a])).pc = .summary ∧
      (0 < last.countP Event.isStep →
        (Runs.run (next E consumedTopics) s (mid ++ .step a :: last)).pc = .exited true) ↔
      Event.sigterm ∈ before ++ mid ∧ m.len = 0) ∧
    (Event.sigterm ∉ last → 0 < last.countP Event.isStep →
      (NothingMore E consumedTopics s (mid ++ .step a :: last) ∧
        (Runs.run (next E consumedTopics) s (mid ++ .step a :: last)).pc = .exited true ↔
        Event.sigterm ∈ before ++ mid ∧ m.len = 0)) := by
  intro s
  have hinv : EofInv c s := Runs.run_invariant (fun e s => eofInv_next e) (eofInv_start c) before
  have hlast : s.codec.eofCnt + 1 = s.codec.partitionCnt := by
    have hcount' := hinv.count hexit
    have heof' : m.isEof = true := decide_eq_true heof
    rw [show s.pc = .process m from hpc] at hcount'
    rw [hinv.partitionCnt, ← hcount, ← hcount', uncounted, if_pos heof']
  have hfirst : Finishing s m 0 s :=
    ⟨hpc, rfl, fun _ => rfl, fun _ h => by omega, fun _ => rfl,
      fun _ => ⟨hinv.exitEof.trans hexit, hlast⟩, fun h => by omega⟩
  let t := Runs.run (next E consumedTopics) s mid
  have htest : Finishing s m 4 t := by
    have hrun : Finishing s m (0 + mid.countP Event.isStep) t :=
      finishing_run heof (by omega) hfirst
    rwa [hmid] at hrun
  have hnext : Runs.run (next E consumedTopics) s (mid ++ [.step a]) =
      step E consumedTopics a t := Runs.run_append ..
  -- a record has been published by then, unless the event has no text
  have hsilent (h : NothingMore E consumedTopics s (mid ++ .step a :: last)) : m.len = 0 := by
    by_contra hlen
    exact htest.written (Nat.pos_of_ne_zero hlen) (by omega) (h mid (List.prefix_append ..)).2
  -- `bootstrap` is clear at the test if a signal has come
  have hboot : t.codec.bootstrap = false ↔ Event.sigterm ∈ before ++ mid := by
    rw [← Bool.not_eq_true]
    show ¬ (Runs.run _ (Runs.run _ (start c) before) mid).codec.bootstrap = true ↔ _
    rw [← Runs.run_append, bootstrap_run, not_and, not_not]
    exact imp_iff_right rfl
  -- then the loops are left
  have hover (hclear : Event.sigterm ∈ before ++ mid) (hlen : m.len = 0) :
      Over s (Runs.run (next E consumedTopics) s (mid ++ [.step a])) := by
    rw [hnext]
    simp only [step, show t.pc = .whileBootstrap from htest.pc, hboot.mpr hclear]
    exact ⟨.inl rfl, htest.polled, htest.quiet hlen⟩
  have hends (hclear : Event.sigterm ∈ before ++ mid) (hlen : m.len = 0)
      (hpos : 0 < last.countP Event.isStep) :
      (Runs.run (next E consumedTopics) s (mid ++ .step a :: last)).pc = .exited true := by
    have hend : (Runs.run (next E consumedTopics)
        (Runs.run (next E consumedTopics) s (mid ++ [.step a])) last).pc = .exited true :=
      exited_of_over (hover hclear hlen) hpos
    rwa [← Runs.run_append, List.append_assoc, List.singleton_append] at hend
  refine ⟨htest.pc, ⟨?_, ?_⟩, fun hlate hpos => ⟨?_, ?_⟩⟩
  · rintro ⟨hquiet, hsummary, -⟩
    refine ⟨?_, hsilent hquiet⟩
    -- with `bootstrap` set, the outer loop goes round
    by_contra hset
    rw [← hboot, Bool.not_eq_false] at hset
    rw [hnext] at hsummary
    simp [step, show t.pc = .whileBootstrap from htest.pc, hset] at hsummary
  · rintro ⟨hclear, hlen⟩
    refine ⟨nothingMore_of_over heof hlen hfirst hmid (hover hclear hlen), ?_, hends hclear hlen⟩
    rw [hnext]
    simp only [step, show t.pc = .whileBootstrap from htest.pc, hboot.mpr hclear]
    rfl
  · rintro ⟨hquiet, hexited⟩
    refine ⟨?_, hsilent hquiet⟩
    -- the end has been reached by a signal, and none has come since the test
    have hleft : Left (Runs.run (next E consumedTopics) s (mid ++ .step a :: last)) :=
      Runs.run_invariant left_next (fun h => by simp [show s.pc = .process m from hpc] at h) _
    have hclear := hleft (.inr hexited)
    rw [← Bool.not_eq_true, ← Runs.run_append, bootstrap_run, not_and, not_not] at hclear
    have hmem := hclear rfl
    simpa [hlate] using hmem
  · rintro ⟨hclear, hlen⟩
    exact ⟨nothingMore_of_over heof hlen hfirst hmid (hover hclear hlen), hends hclear hlen hpos⟩

/-- The codec with the option -x. -/
def exitingCodec : Codec := { configuredCodec with exitEof := true }

/-- A signal comes while the only end of a partition is handled. -/
theorem exit_eof_iff_signalled :
    let s := Runs.run (next emptyHanded ["topic.Asn1DecoderInput"]) (start exitingCodec)
      (polling [] ++ List.replicate 2 (answering ⟨.partitionEof, ""⟩))
    let mid := .sigterm :: List.replicate 4 (answering ⟨.timedOut, ""⟩)
    NothingMore emptyHanded ["topic.Asn1DecoderInput"] s
        (mid ++ List.replicate 3 (answering ⟨.timedOut, ""⟩)) ∧
      (Runs.run (next emptyHanded ["topic.Asn1DecoderInput"]) s
        (mid ++ List.replicate 3 (answering ⟨.timedOut, ""⟩))).pc = .exited true := by
  intro s mid
  obtain ⟨-, -, hiff⟩ := exit_eof_iff emptyHanded ["topic.Asn1DecoderInput"] (c := exitingCodec) rfl
    (polling [] ++ List.replicate 2 (answering ⟨.partitionEof, ""⟩)) mid
    (List.replicate 2 (answering ⟨.timedOut, ""⟩)) _ (m := ⟨.partitionEof, ""⟩)
    (by decide +kernel) rfl (by decide +kernel) rfl
  exact (hiff (by simp [answering]) (by decide)).mpr
    ⟨List.mem_append_right _ List.mem_cons_self, by decide⟩

/-- The only partition ends, and the run polls again. -/
theorem exit_eof_lost :
    (Runs.run (next emptyHanded ["topic.Asn1DecoderInput"]) (start exitingCodec)
      (polling [⟨.partitionEof, ""⟩] ++ List.replicate 12 (answering ⟨.timedOut, ""⟩))).polled =
      [⟨.partitionEof, ""⟩, ⟨.timedOut, ""⟩] ∧ exitingCodec.partitionCnt = 1 := by
  decide +kernel

end Machine

end Asn1Codec
