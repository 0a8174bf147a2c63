/-
Asn1Codec/Transcript.lean

What a run publishes, against what it has handled.

`noted` takes down every message that is handled with its readings of the clock.
As long as the poll results that carry a text are the real messages, the codec
is a map from the one list to the other: the record of a message is that of a
codec that has handled nothing else (`published_eq_filterMap`), for the members
that a message leaves behind are the template and the stream, and neither tells
a later record from the first.

The counters of the summary are sums over the same lists (`counters_eq`).
-/
import Asn1Codec.Delivery
import Mathlib.Algebra.GroupWithZero.Nat

namespace Asn1Codec

open Xml (Node)
open Xml.Node

namespace Machine

variable {V : Type} {E : Externals V} {consumedTopics : List String}

/-! ### The transcript -/

/-- The message that an event handles. -/
def noted (e : Event) (s : Machine) : List (Message × Clock) :=
  match e, s.pc with
  | .step a, .process msg => [(msg, a.now)]
  | _, _ => []

/-- The messages that a run handles. -/
def transcript (E : Externals V) (consumedTopics : List String) (c : Codec) (evs : List Event) :
    List (Message × Clock) :=
  Runs.trace (next E consumedTopics) noted (start c) evs

/-- The record of a real message, from a codec that has handled nothing else. -/
def recordOf (E : Externals V) (c : Codec) (x : Message × Clock) : Option String :=
  if x.1.isReal then
    some (save (recordDoc E c.decodeFunctionality c.errorDoc x.2 x.1.payload))
  else none

/-- The record of the message that is about to be published. -/
def pending (s : Machine) : List String :=
  match s.pc with
  | .publish m => if m.isReal then [s.codec.outputMessageStream] else []
  | _ => []

/-- The records of a run. -/
def records (s : Machine) : List String := s.published.map Publication.record

/-- The poll results that carry a text are the real messages. -/
def Clean (x : Message × Clock) : Prop := x.1.isReal = true ↔ 0 < x.1.len

instance (x : Message × Clock) : Decidable (Clean x) := by unfold Clean; infer_instance

/-- A message at hand has just been polled, or has been at hand before. -/
theorem process_next {e : Event} {s : Machine} {m : Message}
    (h : (next E consumedTopics e s).pc = .process m) :
    (∃ a, e = .step a ∧ s.pc = .consume ∧ a.message = m) ∨ s.pc = .process m := by
  cases e with
  | sigterm => exact Or.inr h
  | step a =>
    rcases hpc : s.pc with - | - | - | - | ⟨- | ⟨t, ts⟩, n⟩ | ⟨t, ts, n⟩ | ⟨t, ts, n⟩ | n | - | - |
      - | - | - | msg | msg | - | - | b
    case consume =>
      simp only [next, step, hpc] at h
      exact Or.inl ⟨a, rfl, rfl, Pc.process.inj h⟩
    all_goals
      simp only [next, step, hpc] at h
      repeat' split at h
      all_goals simp at h

/-- What a run handles has been polled. -/
theorem transcript_polled {P : Message → Prop} (c : Codec) {evs : List Event}
    (h : ∀ a, .step a ∈ evs → P a.message) :
    ∀ x ∈ transcript E consumedTopics c evs, P x.1 := by
  suffices hrun : ∀ s : Machine, (∀ m, s.pc = .process m → P m) →
      ∀ x ∈ Runs.trace (next E consumedTopics) noted s evs, P x.1 from
    hrun _ fun m hm => by cases hm
  induction evs with
  | nil => exact fun s _ x hx => by cases hx
  | cons e evs ih =>
    intro s hs x hx
    rw [Runs.trace_cons] at hx
    rcases List.mem_append.mp hx with hx | hx
    · -- it is the message at hand
      unfold noted at hx
      split at hx
      · obtain rfl := List.mem_singleton.mp hx
        exact hs _ ‹_›
      · cases hx
    · refine ih (fun a ha => h a (List.mem_cons_of_mem _ ha)) _ (fun m hm => ?_) x hx
      rcases process_next hm with ⟨a, rfl, -, rfl⟩ | hm
      · exact h a List.mem_cons_self
      · exact hs m hm

/-- The messages that `polling` has for an answer. -/
theorem message_polling {ms : List Message} {a : Answers} (h : .step a ∈ polling ms) :
    a.message ∈ ⟨.timedOut, ""⟩ :: ms := by
  rcases List.mem_append.mp h with h | h
  · obtain rfl := Event.step.inj (List.eq_of_mem_replicate h)
    exact List.mem_cons_self
  · obtain ⟨m, hm, h⟩ := List.mem_flatMap.mp h
    obtain rfl := Event.step.inj (List.eq_of_mem_replicate h)
    exact List.mem_cons_of_mem _ hm

/-- Real messages that are polled one after the other are handled so. -/
theorem trace_turns (now : Clock) {ms : List Message} (hreal : ∀ m ∈ ms, m.err = .noError)
    {s : Machine} (hpc : s.pc = .whileData) (hdata : s.codec.dataAvailable = true) :
    Runs.trace (next E consumedTopics) noted s
      ((ms.flatMap fun m => List.replicate 5 (answering m)).map (timed now)) =
      ms.map fun m => (m, now) := by
  induction ms generalizing s with
  | nil => rfl
  | cons m ms ih =>
    rw [List.forall_mem_cons] at hreal
    -- the turn of the loop comes back to its test
    let turn := (List.replicate 5 (answering m)).map (timed now)
    have hkeep : (handleMessage E m now s.codec).dataAvailable = true := by
      show (handleMessage E m now s.codec).lasting.dataAvailable = true
      rw [handleMessage_real E hreal.1]
      exact hdata
    have hback : (Runs.run (next E consumedTopics) s turn).pc = .whileData ∧
        (Runs.run (next E consumedTopics) s turn).codec.dataAvailable = true := by
      by_cases hlen : 0 < m.len <;>
        simp [turn, timed, answering, next, step, hpc, hdata, hkeep, hlen, publishStream]
    have hnoted : Runs.trace (next E consumedTopics) noted s turn = [(m, now)] := by
      by_cases hlen : 0 < m.len <;>
        simp [turn, timed, answering, next, step, noted, hpc, hdata, hlen, publishStream]
    rw [List.flatMap_cons, List.map_append, Runs.trace_append, hnoted, ih hreal.2 hback.1 hback.2]
    rfl

/-- What a run that polls them handles. -/
theorem transcript_polling (E : Externals V) (topic : String) (c : Codec) (now : Clock)
    {ms : List Message} (hreal : ∀ m ∈ ms, m.err = .noError) :
    transcript E [topic] c ((polling ms).map (timed now)) = ms.map fun m => (m, now) := by
  rw [transcript, polling, List.map_append, Runs.trace_append, trace_turns now hreal rfl rfl]
  rfl

/-- What ties a state to the messages handled so far. -/
structure Tracks (E : Externals V) (c : Codec) (s : Machine) (log : List (Message × Clock)) :
    Prop where
  carried : Carried c s.codec
  records : s.records ++ s.pending = log.filterMap (recordOf E c)
  stream : s.pending = [] → s.codec.outputMessageStream = ""
  clean : ∀ m, s.pc = .publish m → (m.isReal = true ↔ 0 < m.len)

theorem tracks_start (c : Codec) : Tracks E c (start c) [] where
  carried := ⟨rfl, Or.inl rfl⟩
  records := rfl
  stream _ := rfl
  clean m h := by cases h

theorem pending_of_ne {s : Machine} (h : ∀ m, s.pc ≠ .publish m) : s.pending = [] := by
  unfold pending
  split
  · exact absurd ‹_› (h _)
  · rfl

/-! ### The events of a run -/

/-- An event that neither handles nor publishes a message. -/
structure Still (s s' : Machine) : Prop where
  codec : s'.codec = { s.codec with bootstrap := s'.codec.bootstrap,
                                    dataAvailable := s'.codec.dataAvailable }
  published : s'.published = s.published
  publish : ∀ m, s'.pc = .publish m ↔ s.pc = .publish m

/-- **The cases of an event**, with what it notes and what it sends. -/
theorem next_noted (e : Event) (s : Machine) :
    (∃ m a, e = .step a ∧ s.pc = .process m ∧ noted e s = [(m, a.now)] ∧
      Delivery.accepted e s = none ∧ next E consumedTopics e s =
      { s with
        pc := .publish m
        codec := handleMessage E m a.now s.codec
        alone := (handleMessage E m a.now
          { s.codec with outputMessageStream := "" }).outputMessageStream }) ∨
    (∃ m a, e = .step a ∧ s.pc = .publish m ∧ noted e s = [] ∧
      next E consumedTopics e s = afterPublish m a s) ∨
    (noted e s = [] ∧ Delivery.accepted e s = none ∧ Still s (next E consumedTopics e s)) := by
  cases e with
  | sigterm => exact Or.inr (Or.inr ⟨rfl, rfl, rfl, rfl, fun _ => Iff.rfl⟩)
  | step a =>
    rcases @next_cases V E consumedTopics (.step a) s with ⟨m, now, hpc, -⟩ | ⟨m, a', hpc, -⟩ |
      ⟨m, hpc, -⟩ | ⟨hidle, hpc⟩
    · refine Or.inl ⟨m, a, rfl, hpc, ?_, ?_, ?_⟩
      · simp [noted, hpc]
      · simp [Delivery.accepted, hpc]
      · simp only [next, step, hpc]
    · refine Or.inr (Or.inl ⟨m, a, rfl, hpc, ?_, ?_⟩)
      · simp [noted, hpc]
      · simp only [next, step, hpc, afterPublish]
    · refine Or.inr (Or.inl ⟨m, a, rfl, hpc, ?_, ?_⟩)
      · simp [noted, hpc]
      · simp only [next, step, hpc, afterPublish]
    · have hproc : ∀ m, s.pc ≠ .process m := by
        intro m hm
        refine hidle.pc m ?_
        simp only [next, step, hm]
      refine Or.inr (Or.inr ⟨?_, ?_, hidle.codec, hidle.published, fun m => ?_⟩)
      · unfold noted
        split
        · exact absurd ‹_› (hproc _)
        · rfl
      · unfold Delivery.accepted
        split
        · exact absurd ‹_› (hpc _)
        · rfl
      · exact ⟨fun h => absurd h (hidle.pc m), fun h => absurd h (hpc m)⟩

/-! ### The records -/

/-- Handling a message keeps the mode and the template, up to a report. -/
theorem carried_handleMessage {c c' : Codec} (hone : AtMostOneBytes c.errorDoc)
    (h : Carried c c') (m : Message) (now : Clock) : Carried c (handleMessage E m now c') := by
  by_cases hreal : m.err = .noError
  · have hlast := handleMessage_real E hreal now c'
    refine ⟨?_, ?_⟩
    · show (handleMessage E m now c').lasting.decodeFunctionality = _
      rw [hlast]
      exact h.mode
    · show Reported c.errorDoc (handleMessage E m now c').lasting.errorDoc
      rw [hlast]
      exact reported_errorDocAfter E _ hone h.template now m.payload
  · rw [handleMessage_event E hreal, Codec.afterEvent]
    split
    case h_4 => split <;> exact ⟨h.mode, h.template⟩
    all_goals exact ⟨h.mode, h.template⟩

/-- A message is handled: its record is what it adds to the stream. -/
theorem tracks_process {c : Codec} (hone : AtMostOneBytes c.errorDoc) {s : Machine}
    {log : List (Message × Clock)} (h : Tracks E c s log) {m : Message} (hpc : s.pc = .process m)
    (a : Answers) (hclean : Clean (m, a.now)) :
    Tracks E c (step E consumedTopics a s) (log ++ [(m, a.now)]) := by
  have hidle : s.pending = [] := pending_of_ne (by simp [hpc])
  have hstream := h.stream hidle
  have hrecords : s.records = log.filterMap (recordOf E c) := by
    rw [← h.records, hidle, List.append_nil]
  have hstep : step E consumedTopics a s = { s with
      pc := .publish m
      codec := handleMessage E m a.now s.codec
      alone := (handleMessage E m a.now
        { s.codec with outputMessageStream := "" }).outputMessageStream } := by
    simp only [step, hpc]
  rw [hstep]
  refine ⟨carried_handleMessage hone h.carried m a.now, ?_, ?_, ?_⟩
  · rw [List.filterMap_append, ← hrecords]
    show s.records ++ _ = _
    by_cases hreal : m.isReal = true
    · -- the stream was empty, so all that it holds is the record
      have hnew := stream_handleMessage_real E (of_decide_eq_true hreal) a.now s.codec
      rw [hstream, String.empty_append, h.carried.mode,
        recordDoc_eq E _ hone h.carried.template] at hnew
      simp [pending, recordOf, hreal, hnew]
    · simp [pending, recordOf, hreal]
  · intro hnone
    by_cases hreal : m.isReal = true
    · simp [pending, hreal] at hnone
    · have hevent : m.err ≠ .noError := by simpa [Message.isReal] using hreal
      show (handleMessage E m a.now s.codec).outputMessageStream = ""
      rw [stream_handleMessage_event E hevent]
      exact hstream
  · intro m' hm'
    obtain rfl := Pc.publish.inj hm'
    exact hclean

/-- A message is published: what was pending is a record. -/
theorem tracks_afterPublish {c : Codec} {s : Machine} {log : List (Message × Clock)}
    (h : Tracks E c s log) {m : Message} (hpc : s.pc = .publish m) (a : Answers) :
    Tracks E c (afterPublish m a s) log := by
  have hclean := h.clean m hpc
  by_cases hlen : m.len > 0
  · -- only a real message has a text, and its record is waiting
    have hreal : m.isReal = true := hclean.mpr hlen
    have hpending : s.pending = [s.codec.outputMessageStream] := by simp [pending, hpc, hreal]
    have hcarried : Carried c (publishStream m a s).codec := by
      rw [publishStream]
      split <;> exact ⟨h.carried.mode, h.carried.template⟩
    rw [afterPublish, if_pos hlen]
    refine ⟨hcarried, ?_, fun _ => rfl, by simp⟩
    rw [← h.records, hpending]
    simp [records, publishStream, pending]
  · have hevent : s.pending = [] := by
      have hreal : ¬ m.isReal = true := fun hr => hlen (hclean.mp hr)
      simp [pending, hpc, hreal]
    rw [afterPublish, if_neg hlen]
    refine ⟨h.carried, ?_, fun _ => h.stream hevent, by simp⟩
    rw [← h.records, hevent]
    rfl

theorem Still.pending {s s' : Machine} (h : Still s s') : s'.pending = s.pending := by
  by_cases hpub : ∃ m, s.pc = .publish m
  · obtain ⟨m, hm⟩ := hpub
    have hm' := (h.publish m).mpr hm
    have hstream : s'.codec.outputMessageStream = s.codec.outputMessageStream := by rw [h.codec]
    simp only [Machine.pending, hm, hm', hstream]
  · rw [pending_of_ne fun m hm => hpub ⟨m, hm⟩,
      pending_of_ne fun m hm => hpub ⟨m, (h.publish m).mp hm⟩]

theorem tracks_next {c : Codec} (hone : AtMostOneBytes c.errorDoc) (e : Event) (s : Machine)
    (log : List (Message × Clock)) (h : Tracks E c s log) (hclean : ∀ x ∈ noted e s, Clean x) :
    Tracks E c (next E consumedTopics e s) (log ++ noted e s) := by
  rcases @next_noted V E consumedTopics e s with ⟨m, a, rfl, hpc, hnoted, -, -⟩ |
    ⟨m, a, rfl, hpc, hnoted, hnext⟩ | ⟨hnoted, -, hstill⟩
  · rw [hnoted] at hclean ⊢
    exact tracks_process hone h hpc a (hclean _ List.mem_cons_self)
  · rw [hnoted, List.append_nil, hnext]
    exact tracks_afterPublish h hpc a
  · rw [hnoted, List.append_nil]
    have hcodec := hstill.codec
    refine ⟨?_, ?_, fun hnone => ?_, fun m hm => h.clean m ((hstill.publish m).mp hm)⟩
    · rw [hcodec]
      exact ⟨h.carried.mode, h.carried.template⟩
    · rw [hstill.pending, records, hstill.published]
      exact h.records
    · rw [hcodec]
      exact h.stream (hstill.pending ▸ hnone)

/-- What ties the state to the messages holds after every run. -/
theorem tracks_run (c : Codec) (hone : AtMostOneBytes c.errorDoc) (evs : List Event)
    (hclean : ∀ x ∈ transcript E consumedTopics c evs, Clean x) :
    Tracks E c (Runs.run (next E consumedTopics) (start c) evs)
      (transcript E consumedTopics c evs) := by
  have h := Runs.run_trace (P := Tracks E c) (tracks_next hone) (tracks_start c) hclean
  rwa [List.nil_append] at h

/-- **A run is a map of its messages.**  The records published, and the one that
is about to be, are those of the real messages handled, in their order, each as a
codec writes it that has handled no other. -/
theorem published_eq_filterMap (c : Codec) (hone : AtMostOneBytes c.errorDoc) (evs : List Event)
    (hclean : ∀ x ∈ transcript E consumedTopics c evs, Clean x) :
    (Runs.run (next E consumedTopics) (start c) evs).records ++
      (Runs.run (next E consumedTopics) (start c) evs).pending =
      (transcript E consumedTopics c evs).filterMap (recordOf E c) :=
  (tracks_run c hone evs hclean).records

/-- Two messages and a time-out between them. -/
theorem published_eq_filterMap_polling :
    (Runs.run (next emptyHanded ["t"]) (start configuredCodec)
        (polling [⟨.noError, "x"⟩, ⟨.timedOut, ""⟩, ⟨.noError, "y"⟩])).records ++
      (Runs.run (next emptyHanded ["t"]) (start configuredCodec)
        (polling [⟨.noError, "x"⟩, ⟨.timedOut, ""⟩, ⟨.noError, "y"⟩])).pending =
      (transcript emptyHanded ["t"] configuredCodec
        (polling [⟨.noError, "x"⟩, ⟨.timedOut, ""⟩, ⟨.noError, "y"⟩])).filterMap
        (recordOf emptyHanded configuredCodec) :=
  published_eq_filterMap configuredCodec atMostOneBytes_errorTemplate _ (by decide +kernel)

/-! ### The counters -/

/-- The record that an event puts into the queue of the producer. -/
def sent (e : Event) (s : Machine) : List String := (Delivery.accepted e s).toList

/-- The counters of what is received. -/
structure Received (s : Machine) (log : List (Message × Clock)) : Prop where
  count : s.codec.msgRecvCount = UInt64.ofNat (log.countP fun x => x.1.isReal)
  bytes : s.codec.msgRecvBytes =
    UInt64.ofNat ((log.filter fun x => x.1.isReal).map fun x => x.1.len).sum

/-- The counters of what is sent. -/
structure Sent (s : Machine) (log : List String) : Prop where
  count : s.codec.msgSendCount = UInt64.ofNat log.length
  bytes : s.codec.msgSendBytes = UInt64.ofNat (log.map String.length).sum

/-- What handling a message does to the bytes counted. -/
theorem handleMessage_bytes (E : Externals V) (m : Message) (now : Clock) (c : Codec) :
    (handleMessage E m now c).msgSendBytes = c.msgSendBytes ∧
      (handleMessage E m now c).msgRecvBytes =
        c.msgRecvBytes + if m.isReal then UInt64.ofNat m.len else 0 := by
  by_cases hreal : m.err = .noError
  · have h := handleMessage_real E hreal now c
    have hreal' : m.isReal = true := decide_eq_true hreal
    refine ⟨?_, ?_⟩
    · show (handleMessage E m now c).lasting.msgSendBytes = _
      rw [h]
      rfl
    · show (handleMessage E m now c).lasting.msgRecvBytes = _
      rw [h, if_pos hreal']
      rfl
  · have hnot : ¬ m.isReal = true := by simpa [Message.isReal] using hreal
    have h : (c.afterEvent m).msgSendBytes = c.msgSendBytes ∧
        (c.afterEvent m).msgRecvBytes = c.msgRecvBytes := by
      rw [Codec.afterEvent]
      split
      case h_4 => split <;> exact ⟨rfl, rfl⟩
      all_goals exact ⟨rfl, rfl⟩
    rw [handleMessage_event E hreal, if_neg hnot]
    exact ⟨h.1, h.2.trans (UInt64.add_zero _).symm⟩

theorem received_next (e : Event) (s : Machine) (log : List (Message × Clock))
    (h : Received s log) : Received (next E consumedTopics e s) (log ++ noted e s) := by
  rcases @next_noted V E consumedTopics e s with ⟨m, a, rfl, hpc, hnoted, -, hnext⟩ |
    ⟨m, a, rfl, hpc, hnoted, hnext⟩ | ⟨hnoted, -, hstill⟩
  · obtain ⟨-, hcount⟩ := handleMessage_counts E m a.now s.codec
    obtain ⟨-, hbytes⟩ := handleMessage_bytes E m a.now s.codec
    rw [hnoted, hnext]
    refine ⟨hcount.trans ?_, hbytes.trans ?_⟩
    · rw [h.count, List.countP_append, List.countP_singleton, UInt64.ofNat_add]
      split <;> rfl
    · rw [h.bytes, List.filter_append, List.map_append, List.sum_append, UInt64.ofNat_add]
      by_cases hreal : m.isReal = true
      · simp [hreal]
      · simp [hreal]
  · rw [hnoted, List.append_nil, hnext]
    have hsame : (afterPublish m a s).codec.msgRecvCount = s.codec.msgRecvCount ∧
        (afterPublish m a s).codec.msgRecvBytes = s.codec.msgRecvBytes := by
      rw [afterPublish]
      split
      · show (publishStream m a s).codec.msgRecvCount = _ ∧
          (publishStream m a s).codec.msgRecvBytes = _
        rw [publishStream]
        split <;> exact ⟨rfl, rfl⟩
      · exact ⟨rfl, rfl⟩
    exact ⟨hsame.1.trans h.count, hsame.2.trans h.bytes⟩
  · rw [hnoted, List.append_nil]
    have hcodec := hstill.codec
    refine ⟨?_, ?_⟩
    · rw [hcodec]
      exact h.count
    · rw [hcodec]
      exact h.bytes

theorem sent_next (e : Event) (s : Machine) (log : List String) (h : Sent s log) :
    Sent (next E consumedTopics e s) (log ++ sent e s) := by
  rcases @next_noted V E consumedTopics e s with ⟨m, a, rfl, hpc, -, hnone, hnext⟩ |
    ⟨m, a, rfl, hpc, -, hnext⟩ | ⟨-, hnone, hstill⟩
  · obtain ⟨hcount, -⟩ := handleMessage_counts E m a.now s.codec
    obtain ⟨hbytes, -⟩ := handleMessage_bytes E m a.now s.codec
    rw [sent, hnone, hnext]
    show Sent _ (log ++ [])
    rw [List.append_nil]
    exact ⟨hcount.trans h.count, hbytes.trans h.bytes⟩
  · rw [sent, hnext, afterPublish]
    by_cases hlen : m.len > 0
    · rw [if_pos hlen]
      rcases hproduced : a.produced with - | -
      · have hnone : Delivery.accepted (.step a) s = none := by
          simp [Delivery.accepted, hpc, hproduced]
        rw [hnone]
        show Sent _ (log ++ [])
        rw [List.append_nil, publishStream, hproduced]
        exact ⟨h.count, h.bytes⟩
      · have hsome : Delivery.accepted (.step a) s = some s.codec.outputMessageStream := by
          simp [Delivery.accepted, hpc, hproduced, hlen]
        rw [hsome, publishStream, hproduced]
        refine ⟨?_, ?_⟩
        · show s.codec.msgSendCount + 1 = UInt64.ofNat (log ++ [_]).length
          rw [h.count, List.length_append, UInt64.ofNat_add]
          rfl
        · show s.codec.msgSendBytes + _ = UInt64.ofNat ((log ++ [_]).map String.length).sum
          rw [h.bytes, List.map_append, List.sum_append, UInt64.ofNat_add]
          rfl
    · have hnone : Delivery.accepted (.step a) s = none := by
        simp [Delivery.accepted, hpc, hlen]
      rw [if_neg hlen, hnone]
      show Sent _ (log ++ [])
      rw [List.append_nil]
      exact ⟨h.count, h.bytes⟩
  · rw [sent, hnone]
    show Sent _ (log ++ [])
    rw [List.append_nil]
    have hcodec := hstill.codec
    refine ⟨?_, ?_⟩
    · rw [hcodec]
      exact h.count
    · rw [hcodec]
      exact h.bytes

/-- **The counters of the summary** are those of the run: the real messages
handled and the records taken by the producer, their numbers and their bytes. -/
theorem counters_eq (c : Codec) (evs : List Event) :
    Received (Runs.run (next E consumedTopics) (start c) evs)
        (transcript E consumedTopics c evs) ∧
      Sent (Runs.run (next E consumedTopics) (start c) evs)
        (Runs.trace (next E consumedTopics) sent (start c) evs) := by
  constructor
  · have h : Received (Runs.run (next E consumedTopics) (start c) evs)
        ([] ++ transcript E consumedTopics c evs) :=
      Runs.run_trace (Q := fun _ => True) (fun e s log h _ => received_next e s log h)
        ⟨rfl, rfl⟩ fun _ _ => trivial
    rwa [List.nil_append] at h
  · have h : Sent (Runs.run (next E consumedTopics) (start c) evs)
        ([] ++ Runs.trace (next E consumedTopics) sent (start c) evs) :=
      Runs.run_trace (Q := fun _ => True) (fun e s log h _ => sent_next e s log h)
        ⟨rfl, rfl⟩ fun _ _ => trivial
    rwa [List.nil_append] at h

end Machine

end Asn1Codec
