/-
Asn1Codec/Publish.lean

What reaches the stream and what reaches the topic.

The stream is written while a message is handled and cleared where one is
published, and the two are guarded by different tests: a document is written
for every *real* message, and the stream is published and cleared for every
poll result of *non-zero length*.  The two differ on real messages of length
zero, which leave a document behind, and on events that carry a text, which
publish whatever is there.
-/
import Asn1Codec.Operator
import Asn1Codec.Stateless
import Mathlib.Algebra.Group.Nat.Defs

namespace Asn1Codec

open Xml (Node)
open Xml.Node

namespace Machine

variable {V : Type} {E : Externals V} {consumedTopics : List String}

/-! ### What a step does to the history -/

/-- A step that neither handles nor publishes a message. -/
structure Idle (s s' : Machine) : Prop where
  codec : s'.codec = { s.codec with bootstrap := s'.codec.bootstrap,
                                    dataAvailable := s'.codec.dataAvailable }
  handled : s'.handled = s.handled
  published : s'.published = s.published
  polled : s.polled <+: s'.polled
  pc : ∀ m, s'.pc ≠ .publish m

/-- The publication of `msg`, if it is not empty, and the end of its handling. -/
def afterPublish (msg : Message) (a : Answers) (s : Machine) : Machine :=
  let s := if msg.len > 0 then publishStream msg a s else s
  { s with pc := .flush, handled := s.handled ++ [msg] }

theorem idle_pc (s : Machine) {p : Pc} (k : Bool) (hp : ∀ m, p ≠ .publish m) :
    Idle s { s with pc := p, consumer := k } :=
  ⟨rfl, rfl, rfl, List.prefix_rfl, hp⟩

/-- **The cases of an event**: it handles a message, it publishes one, it is a
signal just before a publication, or it is none of these. -/
theorem next_cases (e : Event) (s : Machine) :
    (∃ msg now, s.pc = .process msg ∧ next E consumedTopics e s =
      { s with
        pc := .publish msg
        codec := handleMessage E msg now s.codec
        alone := (handleMessage E msg now
          { s.codec with outputMessageStream := "" }).outputMessageStream }) ∨
    (∃ msg a, s.pc = .publish msg ∧ next E consumedTopics e s = afterPublish msg a s) ∨
    (∃ msg, s.pc = .publish msg ∧ next E consumedTopics e s = sigterm s) ∨
    (Idle s (next E consumedTopics e s) ∧ ∀ m, s.pc ≠ .publish m) := by
  rcases e with a | -
  · -- one case for each program point
    rcases hpc : s.pc with - | - | - | - | ⟨- | ⟨t, ts⟩, n⟩ | ⟨t, ts, n⟩ | ⟨t, ts, n⟩ | n | - | - |
      - | - | - | msg | msg | - | - | b
    case process => exact Or.inl ⟨msg, a.now, rfl, by simp only [next, step, hpc]⟩
    case publish =>
      refine Or.inr (Or.inl ⟨msg, a, rfl, ?_⟩)
      simp only [next, step, hpc, afterPublish]
    case rearm =>
      refine Or.inr (Or.inr (Or.inr ⟨?_, by simp⟩))
      simp only [next, step, hpc]
      exact ⟨rfl, rfl, rfl, List.prefix_rfl, by simp⟩
    case consume =>
      refine Or.inr (Or.inr (Or.inr ⟨?_, by simp⟩))
      simp only [next, step, hpc]
      exact ⟨rfl, rfl, rfl, List.prefix_append .., by simp⟩
    all_goals
      refine Or.inr (Or.inr (Or.inr ⟨?_, by simp⟩))
      simp only [next, step, hpc]
      repeat' split
      all_goals exact idle_pc s _ (by simp)
  · by_cases hpub : ∃ m, s.pc = .publish m
    · obtain ⟨m, hm⟩ := hpub
      exact Or.inr (Or.inr (Or.inl ⟨m, hm, rfl⟩))
    · have hpub' : ∀ m, s.pc ≠ .publish m := fun m hm => hpub ⟨m, hm⟩
      exact Or.inr (Or.inr (Or.inr ⟨⟨rfl, rfl, rfl, List.prefix_rfl, hpub'⟩, hpub'⟩))

/-! ### What the stream holds -/

/-- A real message of length zero has been handled, and after it nothing of
non-zero length. -/
def LeftOver (handled : List Message) : Prop :=
  ∃ pre z post, handled = pre ++ z :: post ∧ z.err = .noError ∧ z.len = 0 ∧
    ∀ m ∈ post, m.len = 0

theorem not_leftOver_nil : ¬ LeftOver [] := by
  rintro ⟨pre, z, post, h, -⟩
  simp at h

theorem leftOver_append {handled : List Message} {m : Message} :
    LeftOver (handled ++ [m]) ↔ m.len = 0 ∧ (m.err = .noError ∨ LeftOver handled) := by
  constructor
  · rintro ⟨pre, z, post, h, hz, hlen, hpost⟩
    -- the new message is the left-over one, or it comes after it
    rcases List.eq_nil_or_concat post with rfl | ⟨post', m', rfl⟩
    · obtain ⟨-, h⟩ := List.append_inj' h rfl
      obtain rfl : m = z := by simpa using h
      exact ⟨hlen, Or.inl hz⟩
    · rw [List.concat_eq_append] at h hpost
      have h' : handled ++ [m] = (pre ++ z :: post') ++ [m'] := by rw [h]; simp
      obtain ⟨rfl, h'⟩ := List.append_inj' h' rfl
      obtain rfl : m = m' := by simpa using h'
      exact ⟨hpost m (by simp), Or.inr ⟨pre, z, post', rfl, hz, hlen,
        fun k hk => hpost k (by simp [hk])⟩⟩
  · rintro ⟨hlen, hreal | ⟨pre, z, post, rfl, hz, hzlen, hpost⟩⟩
    · exact ⟨handled, m, [], rfl, hreal, hlen, by simp⟩
    · refine ⟨pre, z, post ++ [m], by simp, hz, hzlen, fun k hk => ?_⟩
      rcases List.mem_append.mp hk with hk | hk
      · exact hpost k hk
      · obtain rfl : k = m := by simpa using hk
        exact hlen

/-- The stream and the publications of a run, at every program point. -/
structure StreamInv (s : Machine) : Prop where
  /-- Between two poll results the stream is empty unless something is left over. -/
  between : (∀ m, s.pc ≠ .publish m) →
    (s.codec.outputMessageStream = "" ↔ ¬ LeftOver s.handled)
  /-- A real message has added its document to what was left over. -/
  real : ∀ m, s.pc = .publish m → m.err = .noError → ∃ pre doc,
    s.codec.outputMessageStream = pre ++ save doc ∧ s.alone = save doc ∧
      (pre = "" ↔ ¬ LeftOver s.handled)
  /-- Any other event has added nothing. -/
  event : ∀ m, s.pc = .publish m → m.err ≠ .noError →
    (s.codec.outputMessageStream = "" ↔ ¬ LeftOver s.handled)
  records : ∀ e ∈ s.published, e.message.err = .noError →
    (∃ doc, e.alone = save doc) ∧ (e.record = e.alone ↔ ¬ LeftOver e.earlier)

theorem streamInv_start (c : Codec) : StreamInv (start c) where
  between _ := by simp [start, not_leftOver_nil]
  real m h := by simp [start] at h
  event m h := by simp [start] at h
  records e h := by simp [start] at h

theorem append_ne_empty (pre : String) (doc : Node) : pre ++ save doc ≠ "" := by
  intro h
  exact save_ne_empty doc (String.append_eq_empty_iff.mp h).2

theorem append_eq_right {pre w : String} : pre ++ w = w ↔ pre = "" := by
  constructor
  · intro h
    have hlist : pre.toList ++ w.toList = w.toList := by rw [← String.toList_append, h]
    have hnil : pre.toList = [] := List.append_left_eq_self.mp hlist
    exact String.toList_eq_nil_iff.mp hnil
  · rintro rfl
    exact String.empty_append ..

/-- A real message adds its document to the stream. -/
theorem stream_handleMessage_real (E : Externals V) {m : Message} (hreal : m.err = .noError)
    (now : Clock) (c : Codec) : (handleMessage E m now c).outputMessageStream =
      c.outputMessageStream ++
        save (recordDoc E c.decodeFunctionality c.errorDoc now m.payload) := by
  show (handleMessage E m now c).lasting.outputMessageStream = _
  rw [handleMessage_real E hreal now]
  rfl

/-- Any other event adds nothing. -/
theorem stream_handleMessage_event (E : Externals V) {m : Message} (hevent : m.err ≠ .noError)
    (now : Clock) (c : Codec) :
    (handleMessage E m now c).outputMessageStream = c.outputMessageStream := by
  rw [handleMessage_event E hevent, Codec.afterEvent]
  split
  all_goals first | rfl | (split <;> rfl)

/-- The publication of a message, or the end of its handling if it is empty. -/
theorem streamInv_afterPublish {m : Message} {s : Machine} (h : StreamInv s)
    (hpc : s.pc = .publish m) (a : Answers) : StreamInv (afterPublish m a s) := by
  by_cases hlen : m.len > 0
  · have hnot : ¬ LeftOver (s.handled ++ [m]) := fun hl => by
      have hzero := (leftOver_append.mp hl).1
      omega
    rw [afterPublish, if_pos hlen]
    refine ⟨fun _ => ⟨fun _ => hnot, fun _ => rfl⟩, by simp, by simp, ?_⟩
    -- the entry just written is the only new one
    intro e he hreal
    rcases List.mem_append.mp he with he | he
    · exact h.records e he hreal
    · obtain rfl := List.mem_singleton.mp he
      obtain ⟨pre, doc, hstream, halone, hpre⟩ := h.real m hpc hreal
      refine ⟨⟨doc, halone⟩, ?_⟩
      show s.codec.outputMessageStream = s.alone ↔ _
      rw [hstream, halone, append_eq_right]
      exact hpre
  · have hzero : m.len = 0 := by omega
    rw [afterPublish, if_neg hlen]
    refine ⟨fun _ => ?_, by simp, by simp, h.records⟩
    show s.codec.outputMessageStream = "" ↔ ¬ LeftOver (s.handled ++ [m])
    by_cases hreal : m.err = .noError
    · obtain ⟨pre, doc, hstream, -, -⟩ := h.real m hpc hreal
      have hleft : LeftOver (s.handled ++ [m]) := leftOver_append.mpr ⟨hzero, Or.inl hreal⟩
      rw [hstream]
      exact ⟨fun hempty => absurd hempty (append_ne_empty pre doc), fun hn => absurd hleft hn⟩
    · rw [h.event m hpc hreal, leftOver_append]
      simp [hzero, hreal]

theorem streamInv_next (e : Event) (s : Machine) (h : StreamInv s) :
    StreamInv (next E consumedTopics e s) := by
  rcases @next_cases V E consumedTopics e s with ⟨m, now, hpc, hnext⟩ | ⟨m, a, hpc, hnext⟩ |
    ⟨m, hpc, hnext⟩ | ⟨hidle, hpc⟩
  · -- a message is handled
    rw [hnext]
    have hbetween := h.between (by simp [hpc])
    refine ⟨fun hne => absurd rfl (hne m), ?_, ?_, h.records⟩
    · intro m' hm' hreal
      obtain rfl := Pc.publish.inj hm'
      refine ⟨s.codec.outputMessageStream, _, stream_handleMessage_real E hreal now s.codec, ?_,
        hbetween⟩
      show (handleMessage E m now _).outputMessageStream = _
      rw [stream_handleMessage_real E hreal now, String.empty_append]
    · intro m' hm' hevent
      obtain rfl := Pc.publish.inj hm'
      show (handleMessage E m now s.codec).outputMessageStream = "" ↔ _
      rw [stream_handleMessage_event E hevent]
      exact hbetween
  · -- a message is published
    rw [hnext]
    exact streamInv_afterPublish h hpc a
  · -- a signal before a publication
    rw [hnext]
    exact ⟨h.between, h.real, h.event, h.records⟩
  · -- nothing is handled or published
    have hstream : (next E consumedTopics e s).codec.outputMessageStream =
        s.codec.outputMessageStream := by rw [hidle.codec]
    refine ⟨fun _ => ?_, fun m hm => absurd hm (hidle.pc m), fun m hm => absurd hm (hidle.pc m), ?_⟩
    · rw [hstream, hidle.handled]
      exact h.between hpc
    · rw [hidle.published]
      exact h.records

theorem streamInv_reachable {c : Codec} {s : Machine} (hs : Reachable E consumedTopics c s) :
    StreamInv s :=
  Runs.reachable_invariant streamInv_next (streamInv_start c) hs

/-- **Which records stand alone.**  In every run, a record published for a
real message is the one document that this message writes to an empty stream
if and only if no real message of length zero has been handled since the last
poll result of non-zero length. -/
theorem record_alone_iff (c : Codec) {s : Machine} (hs : Reachable E consumedTopics c s)
    {e : Publication} (he : e ∈ s.published) (hreal : e.message.err = .noError) :
    (∃ doc, e.alone = save doc) ∧ (e.record = e.alone ↔ ¬ LeftOver e.earlier) :=
  (streamInv_reachable hs).records e he hreal

/-- The run in which these messages are polled. -/
def polledRun (c : Codec) (ms : List Message) : Machine :=
  Runs.run (next emptyHanded ["topic.Asn1DecoderInput"]) (start c) (polling ms)

theorem reachable_polledRun (c : Codec) (ms : List Message) :
    Reachable emptyHanded ["topic.Asn1DecoderInput"] c (polledRun c ms) := ⟨polling ms, rfl⟩

/-- An empty real message, then another: one record is published. -/
theorem polledRun_published : ∃ e ∈ (polledRun configuredCodec
      [⟨.noError, ""⟩, ⟨.noError, "x"⟩]).published,
    e.message = ⟨.noError, "x"⟩ ∧ e.earlier = [⟨.noError, ""⟩] := by
  have h : (polledRun configuredCodec [⟨.noError, ""⟩, ⟨.noError, "x"⟩]).published.map
      (fun e => (e.message, e.earlier)) = [(⟨.noError, "x"⟩, [⟨.noError, ""⟩])] := by
    decide +kernel
  have hmem : ((⟨.noError, "x"⟩, [⟨.noError, ""⟩]) : Message × List Message) ∈
      (polledRun configuredCodec [⟨.noError, ""⟩, ⟨.noError, "x"⟩]).published.map
        (fun e => (e.message, e.earlier)) := by
    rw [h]
    exact List.mem_singleton.mpr rfl
  obtain ⟨e, he, heq⟩ := List.mem_map.mp hmem
  exact ⟨e, he, congrArg Prod.fst heq, congrArg Prod.snd heq⟩

theorem record_alone_iff_polledRun : ∃ e ∈ (polledRun configuredCodec
      [⟨.noError, ""⟩, ⟨.noError, "x"⟩]).published,
    (∃ doc, e.alone = save doc) ∧ (e.record = e.alone ↔ ¬ LeftOver e.earlier) := by
  obtain ⟨e, he, hmsg, -⟩ := polledRun_published
  exact ⟨e, he, record_alone_iff configuredCodec (reachable_polledRun ..) he (by rw [hmsg])⟩

/-- The document written for an empty message becomes part of the next record. -/
theorem record_not_alone : ∃ e ∈ (polledRun configuredCodec
      [⟨.noError, ""⟩, ⟨.noError, "x"⟩]).published,
    e.message = ⟨.noError, "x"⟩ ∧ e.record ≠ e.alone := by
  obtain ⟨e, he, hmsg, hearlier⟩ := polledRun_published
  have hinv := streamInv_reachable (reachable_polledRun configuredCodec
    [⟨.noError, ""⟩, ⟨.noError, "x"⟩])
  have hleft : LeftOver e.earlier := by
    rw [hearlier]
    exact ⟨[], ⟨.noError, ""⟩, [], rfl, rfl, rfl, by simp⟩
  exact ⟨e, he, hmsg, fun heq => (hinv.records e he (by rw [hmsg])).2.mp heq hleft⟩

/-! ### What is published and what is counted -/

/-- The real message that is handled but not yet past its publication. -/
def atHand : Pc → ℕ
  | .publish m => if m.isReal then 1 else 0
  | _ => 0

theorem atHand_of_ne {pc : Pc} (h : ∀ m, pc ≠ .publish m) : atHand pc = 0 := by
  unfold atHand
  split
  · exact absurd rfl (h _)
  · rfl

/-- The publications and the counters of a run. -/
structure CountInv (s : Machine) : Prop where
  /-- Published are the poll results of non-zero length, in their order. -/
  published : s.published.map (fun e => e.message) = s.handled.filter fun m => m.len > 0
  sent : ∃ k ≤ s.published.length, s.codec.msgSendCount = UInt64.ofNat k
  received : s.codec.msgRecvCount = UInt64.ofNat (s.handled.countP Message.isReal + atHand s.pc)

theorem countInv_start (c : Codec) : CountInv (start c) where
  published := rfl
  sent := ⟨0, Nat.zero_le _, rfl⟩
  received := rfl

/-- What handling a message does to the counters. -/
theorem handleMessage_counts (E : Externals V) (m : Message) (now : Clock) (c : Codec) :
    (handleMessage E m now c).msgSendCount = c.msgSendCount ∧
      (handleMessage E m now c).msgRecvCount = c.msgRecvCount + if m.isReal then 1 else 0 := by
  by_cases hreal : m.err = .noError
  · have h := handleMessage_real E hreal now c
    refine ⟨?_, ?_⟩
    · show (handleMessage E m now c).lasting.msgSendCount = _
      rw [h]
      rfl
    · show (handleMessage E m now c).lasting.msgRecvCount = _
      have hreal' : m.isReal = true := decide_eq_true hreal
      rw [h, if_pos hreal']
      rfl
  · have hnot : ¬ m.isReal = true := by simpa [Message.isReal] using hreal
    have h : (c.afterEvent m).msgSendCount = c.msgSendCount ∧
        (c.afterEvent m).msgRecvCount = c.msgRecvCount := by
      rw [Codec.afterEvent]
      split
      all_goals first | exact ⟨rfl, rfl⟩ | (split <;> exact ⟨rfl, rfl⟩)
    rw [handleMessage_event E hreal, if_neg hnot]
    exact ⟨h.1, h.2.trans (UInt64.add_zero _).symm⟩

/-- What a publication does to the counters. -/
theorem publishStream_counts (m : Message) (a : Answers) (s : Machine) :
    (∃ d ≤ 1, (publishStream m a s).codec.msgSendCount =
      s.codec.msgSendCount + UInt64.ofNat d) ∧
    (publishStream m a s).codec.msgRecvCount = s.codec.msgRecvCount := by
  rw [publishStream]
  rcases a.produced with - | -
  · exact ⟨⟨0, by omega, (UInt64.add_zero _).symm⟩, rfl⟩
  · exact ⟨⟨1, by omega, rfl⟩, rfl⟩

theorem countInv_afterPublish {m : Message} {s : Machine} (h : CountInv s)
    (hpc : s.pc = .publish m) (a : Answers) : CountInv (afterPublish m a s) := by
  obtain ⟨k, hk, hsend⟩ := h.sent
  -- the message at hand becomes a handled one
  have hhandled : UInt64.ofNat (s.handled.countP Message.isReal + atHand s.pc) =
      UInt64.ofNat ((s.handled ++ [m]).countP Message.isReal + 0) := by
    rw [hpc, List.countP_append, List.countP_singleton]
    rfl
  obtain ⟨⟨d, hd, hsent⟩, hrecv⟩ := publishStream_counts m a s
  by_cases hlen : m.len > 0
  · rw [afterPublish, if_pos hlen]
    refine ⟨?_, ?_, ?_⟩
    · show (s.published ++ [_]).map _ = (s.handled ++ [m]).filter _
      rw [List.map_append, List.filter_append, h.published, List.filter_singleton]
      simp [hlen]
    · refine ⟨k + d, ?_, ?_⟩
      · show k + d ≤ (s.published ++ [_]).length
        rw [List.length_append]
        exact Nat.add_le_add hk hd
      · show (publishStream m a s).codec.msgSendCount = _
        rw [hsent, hsend, UInt64.ofNat_add]
    · show (publishStream m a s).codec.msgRecvCount = _
      rw [hrecv, h.received, hhandled]
      rfl
  · rw [afterPublish, if_neg hlen]
    refine ⟨?_, ⟨k, hk, hsend⟩, ?_⟩
    · show s.published.map _ = (s.handled ++ [m]).filter _
      rw [List.filter_append, h.published, List.filter_singleton]
      simp [hlen]
    · show s.codec.msgRecvCount = _
      rw [h.received, hhandled]
      rfl

theorem countInv_next (e : Event) (s : Machine) (h : CountInv s) :
    CountInv (next E consumedTopics e s) := by
  obtain ⟨k, hk, hsend⟩ := h.sent
  rcases @next_cases V E consumedTopics e s with ⟨m, now, hpc, hnext⟩ | ⟨m, a, hpc, hnext⟩ |
    ⟨m, hpc, hnext⟩ | ⟨hidle, hpc⟩
  · -- a message is handled
    obtain ⟨hs, hr⟩ := handleMessage_counts E m now s.codec
    rw [hnext]
    refine ⟨h.published, ⟨k, hk, hs.trans hsend⟩, ?_⟩
    show (handleMessage E m now s.codec).msgRecvCount = _
    rw [hr, h.received, hpc]
    show UInt64.ofNat (_ + 0) + _ = UInt64.ofNat (_ + if m.isReal then 1 else 0)
    split
    · rw [Nat.add_zero, UInt64.ofNat_add]
      rfl
    · exact UInt64.add_zero _
  · -- a message is published
    rw [hnext]
    exact countInv_afterPublish h hpc a
  · -- a signal before a publication
    rw [hnext]
    exact ⟨h.published, h.sent, h.received⟩
  · -- nothing is handled or published
    have hs : (next E consumedTopics e s).codec.msgSendCount = s.codec.msgSendCount := by
      rw [hidle.codec]
    have hr : (next E consumedTopics e s).codec.msgRecvCount = s.codec.msgRecvCount := by
      rw [hidle.codec]
    refine ⟨?_, ⟨k, ?_, hs.trans hsend⟩, ?_⟩
    · rw [hidle.published, hidle.handled]
      exact h.published
    · rw [hidle.published]
      exact hk
    · rw [hr, h.received, hidle.handled, atHand_of_ne hpc, atHand_of_ne hidle.pc]

/-- **What is published, and how often.**  In every run: only real messages
are published if and only if every other event that was handled has the length
zero; no poll result is published twice; and under that condition, as long as
the counters have not wrapped around, no more is sent than was received. -/
theorem published_real_iff (c : Codec) {s : Machine} (hs : Reachable E consumedTopics c s) :
    ((∀ e ∈ s.published, e.message.err = .noError) ↔
      ∀ m ∈ s.handled, m.err ≠ .noError → m.len = 0) ∧
    (s.published.map fun e => e.message).Sublist s.handled ∧
    ((∀ m ∈ s.handled, m.err ≠ .noError → m.len = 0) →
      s.handled.countP Message.isReal + 1 < 2 ^ 64 →
      s.codec.msgSendCount ≤ s.codec.msgRecvCount) := by
  have h : CountInv s := Runs.reachable_invariant countInv_next (countInv_start c) hs
  have hmem (m : Message) : m ∈ s.published.map (fun e => e.message) ↔
      m ∈ s.handled ∧ m.len > 0 := by
    rw [h.published, List.mem_filter]
    simp
  refine ⟨⟨fun hpub m hm hevent => ?_, fun hzero e he => ?_⟩, ?_, fun hzero hbound => ?_⟩
  · by_contra hlen
    obtain ⟨e, he, rfl⟩ := List.mem_map.mp ((hmem m).mpr ⟨hm, by omega⟩)
    exact hevent (hpub e he)
  · by_contra hevent
    obtain ⟨hm, hlen⟩ := (hmem e.message).mp (List.mem_map.mpr ⟨e, he, rfl⟩)
    have := hzero e.message hm hevent
    omega
  · rw [h.published]
    exact List.filter_sublist
  · obtain ⟨k, hk, hsent⟩ := h.sent
    -- what is published has a length, so under the condition it is real
    have hlen : s.published.length ≤ s.handled.countP Message.isReal := by
      calc s.published.length
          = (s.published.map fun e => e.message).length := (List.length_map ..).symm
        _ = s.handled.countP (fun m => m.len > 0) := by
            rw [h.published, List.countP_eq_length_filter]
        _ ≤ s.handled.countP Message.isReal := by
            refine List.countP_mono_left fun m hm hpos => ?_
            by_contra hnot
            have hevent : m.err ≠ .noError := by simpa [Message.isReal] using hnot
            have hlen : 0 < m.len := by simpa using hpos
            have hzero := hzero m hm hevent
            omega
    have hhand : atHand s.pc ≤ 1 := by
      unfold atHand
      split
      · split <;> omega
      · omega
    -- neither counter has wrapped around
    have hsize : UInt64.size = 2 ^ 64 := rfl
    rw [hsent, h.received, UInt64.le_iff_toNat_le, UInt64.toNat_ofNat_of_lt' (by omega),
      UInt64.toNat_ofNat_of_lt' (by omega)]
    omega

theorem published_real_iff_polledRun :
    ((∀ e ∈ (polledRun configuredCodec [⟨.noError, "x"⟩]).published,
        e.message.err = .noError) ↔
      ∀ m ∈ (polledRun configuredCodec [⟨.noError, "x"⟩]).handled,
        m.err ≠ .noError → m.len = 0) ∧
    ((polledRun configuredCodec [⟨.noError, "x"⟩]).published.map fun e => e.message).Sublist
      (polledRun configuredCodec [⟨.noError, "x"⟩]).handled ∧
    ((∀ m ∈ (polledRun configuredCodec [⟨.noError, "x"⟩]).handled,
        m.err ≠ .noError → m.len = 0) →
      (polledRun configuredCodec [⟨.noError, "x"⟩]).handled.countP Message.isReal + 1 < 2 ^ 64 →
      (polledRun configuredCodec [⟨.noError, "x"⟩]).codec.msgSendCount ≤
        (polledRun configuredCodec [⟨.noError, "x"⟩]).codec.msgRecvCount) :=
  published_real_iff configuredCodec (reachable_polledRun ..)

/-- The text of an error event is published, and counted as sent. -/
theorem event_published :
    (polledRun configuredCodec [⟨.msgTimedOut, "Local: Message timed out"⟩]).published.map
        (fun e => e.message) = [⟨.msgTimedOut, "Local: Message timed out"⟩] ∧
      (polledRun configuredCodec
        [⟨.msgTimedOut, "Local: Message timed out"⟩]).codec.msgRecvCount <
      (polledRun configuredCodec
        [⟨.msgTimedOut, "Local: Message timed out"⟩]).codec.msgSendCount := by
  decide +kernel

end Machine

end Asn1Codec
