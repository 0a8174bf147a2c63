/-
Asn1Codec/Runs.lean

Runs of a machine that is driven by events.  The machine is a function from an
event and a state to the next state; a run is the fold of a list of events.

Six rules cover the inductions on runs.  `run_invariant` is the rule for what
every step preserves, and `run_cause` the rule for what only some events can
bring about.  `run_rank` is the rule for termination in the presence
of events that make no progress of their own: a rank that no event raises and
every event of a chosen kind lowers reaches zero after enough of that kind,
however the others fall between them.  `run_pace` is the rule for progress that
never ends, in runs whose events meet a condition where they happen: what is
counted goes up once in so many events.  `run_trace` is the rule for what ties the
state to the outputs of the run so far.

Machines side by side take events in any interleaving.  `run_side` is the rule
for them: each keeps what the others rely on, as long as its events are such as
the others let them be.
-/
import Mathlib.Data.List.Basic
import Mathlib.Logic.Function.Basic
import Mathlib.Order.Basic

namespace Runs

variable {E S : Type*} (next : E → S → S)

/-- The state after the events of a list. -/
def run (s : S) : List E → S
  | [] => s
  | e :: evs => run (next e s) evs

@[simp] theorem run_nil (s : S) : run next s [] = s := rfl

@[simp] theorem run_cons (s : S) (e : E) (evs : List E) :
    run next s (e :: evs) = run next (next e s) evs := rfl

theorem run_append (s : S) (evs evs' : List E) :
    run next s (evs ++ evs') = run next (run next s evs) evs' := by
  induction evs generalizing s with
  | nil => rfl
  | cons e evs ih => exact ih (next e s)

/-- A machine whose events are those of another, translated. -/
theorem run_map {E' : Type*} (f : E' → E) (s : S) (evs : List E') :
    run next s (evs.map f) = run (fun e => next (f e)) s evs := by
  induction evs generalizing s with
  | nil => rfl
  | cons e evs ih => exact ih (next (f e) s)

/-- `s` is the state after some events from `s₀`. -/
def Reachable (s₀ s : S) : Prop := ∃ evs, s = run next s₀ evs

variable {next}

theorem Reachable.trans {s₀ s₁ s₂ : S} (h : Reachable next s₀ s₁) (h' : Reachable next s₁ s₂) :
    Reachable next s₀ s₂ := by
  obtain ⟨evs, rfl⟩ := h
  obtain ⟨evs', rfl⟩ := h'
  exact ⟨evs ++ evs', (run_append next s₀ evs evs').symm⟩

theorem Reachable.of_next {s₀ s : S} (e : E) (h : Reachable next (next e s₀) s) :
    Reachable next s₀ s := by
  obtain ⟨evs, rfl⟩ := h
  exact ⟨e :: evs, rfl⟩

/-- What every event preserves holds after every run. -/
theorem run_invariant {P : S → Prop} (hP : ∀ e s, P s → P (next e s)) {s : S} (h : P s)
    (evs : List E) : P (run next s evs) := by
  induction evs generalizing s with
  | nil => exact h
  | cons e evs ih => exact ih (hP e s h)

theorem reachable_invariant {P : S → Prop} (hP : ∀ e s, P s → P (next e s)) {s₀ s : S}
    (h : P s₀) (hs : Reachable next s₀ s) : P s := by
  obtain ⟨evs, rfl⟩ := hs
  exact run_invariant hP h evs

/-- What holds after a run and not before it was brought about by an event, in the
state that the run had come to. -/
theorem run_cause {P : S → Prop} {Q : E → S → Prop} (hP : ∀ e s, P (next e s) → P s ∨ Q e s)
    {s : S} {evs : List E} (h : P (run next s evs)) :
    P s ∨ ∃ before e after, evs = before ++ e :: after ∧ Q e (run next s before) := by
  induction evs generalizing s with
  | nil => exact Or.inl h
  | cons e evs ih =>
    rcases ih h with h | ⟨before, e', after, rfl, hQ⟩
    · rcases hP e s h with h | hQ
      · exact Or.inl h
      · exact Or.inr ⟨[], e, evs, rfl, hQ⟩
    · exact Or.inr ⟨e :: before, e', after, rfl, hQ⟩

/-- Enough events of the kind `k` bring a rank to zero, if these lower it and
no event raises it, as long as the invariant `P` holds. -/
theorem run_rank {P : S → Prop} {k : E → Bool} {rank : S → ℕ}
    (hP : ∀ e s, P s → P (next e s))
    (hle : ∀ e s, P s → rank (next e s) ≤ rank s)
    (hlt : ∀ e s, P s → k e = true → 0 < rank s → rank (next e s) < rank s)
    {s : S} (h : P s) {evs : List E} (hevs : rank s ≤ evs.countP k) :
    rank (run next s evs) = 0 := by
  induction evs generalizing s with
  | nil => exact Nat.le_zero.mp hevs
  | cons e evs ih =>
    apply ih (hP e s h)
    have hle := hle e s h
    rcases hk : k e with - | -
    · have hevs' : rank s ≤ evs.countP k := by simpa [List.countP_cons, hk] using hevs
      exact Nat.le_trans hle hevs'
    · have hevs' : rank s ≤ evs.countP k + 1 := by simpa [List.countP_cons, hk] using hevs
      rcases Nat.eq_zero_or_pos (rank s) with hzero | hpos
      · omega
      · have hlt := hlt e s h hk hpos
        omega

/-! ### Conditions on events -/

section Pace

variable (next) (Q : E → S → Prop)

/-- Every event meets the condition in the state in which it happens. -/
def Meets : S → List E → Prop
  | _, [] => True
  | s, e :: evs => Q e s ∧ Meets (next e s) evs

variable {next Q}

theorem meets_append {s : S} {evs evs' : List E} :
    Meets next Q s (evs ++ evs') ↔ Meets next Q s evs ∧ Meets next Q (run next s evs) evs' := by
  induction evs generalizing s with
  | nil => exact iff_of_eq (true_and _).symm
  | cons e evs ih => exact Iff.trans (and_congr_right fun _ => ih) and_assoc.symm

/-- A count goes up once in `w` events, if every event raises it or else lowers a
rank below `w`. -/
theorem run_pace {P : S → Prop} {count rank : S → ℕ} {w : ℕ}
    (hP : ∀ e s, P s → Q e s → P (next e s)) (hw : ∀ s, P s → rank s < w)
    (hstep : ∀ e s, P s → Q e s → count s < count (next e s) ∨
      count s ≤ count (next e s) ∧ rank (next e s) < rank s)
    {s : S} (h : P s) {evs : List E} (hevs : Meets next Q s evs) :
    count s + evs.length / w ≤ count (run next s evs) := by
  -- the events that are left before the count must go up are counted as spent
  have key : ∀ (evs : List E) (s : S), P s → Meets next Q s evs →
      count s + (evs.length + (w - 1 - rank s)) / w ≤ count (run next s evs) := by
    intro evs
    induction evs with
    | nil =>
      intro s h _
      have hlt := hw s h
      have hzero : (0 + (w - 1 - rank s)) / w = 0 := Nat.div_eq_of_lt (by omega)
      exact Nat.le_of_eq (congrArg (count s + ·) hzero)
    | cons e evs ih =>
      intro s h hevs
      have hrest := ih (next e s) (hP e s h hevs.1) hevs.2
      rw [run_cons, List.length_cons]
      refine Nat.le_trans ?_ hrest
      have hlt := hw s h
      rcases hstep e s h hevs.1 with hup | ⟨hle, hdown⟩
      · have hle : evs.length + 1 + (w - 1 - rank s) ≤ evs.length + w := by omega
        have hdiv : (evs.length + 1 + (w - 1 - rank s)) / w ≤ evs.length / w + 1 :=
          (Nat.div_le_div_right hle).trans_eq (Nat.add_div_right _ (by omega))
        have hmono : evs.length / w ≤ (evs.length + (w - 1 - rank (next e s))) / w :=
          Nat.div_le_div_right (Nat.le_add_right _ _)
        omega
      · have hle' : evs.length + 1 + (w - 1 - rank s) ≤
            evs.length + (w - 1 - rank (next e s)) := by omega
        exact Nat.add_le_add hle (Nat.div_le_div_right hle')
  refine Nat.le_trans ?_ (key evs s h hevs)
  exact Nat.add_le_add_left (Nat.div_le_div_right (Nat.le_add_right _ _)) _

end Pace

/-! ### Machines side by side -/

section Side

variable {ι : Type*} [DecidableEq ι]

/-- An event of one of the machines. -/
def nextAt (next : ι → E → S → S) (e : ι × E) (s : ι → S) : ι → S :=
  Function.update s e.1 (next e.1 e.2 (s e.1))

variable {next : ι → E → S → S} {P : ι → S → Prop} {Q : ι × E → (ι → S) → Prop}

/-- A machine whose events are all there are. -/
theorem run_nextAt (i : ι) (s : ι → S) (evs : List E) :
    run (nextAt next) s (evs.map (i, ·)) i = run (next i) (s i) evs := by
  induction evs generalizing s with
  | nil => rfl
  | cons e evs ih =>
    rw [List.map_cons, run_cons, ih, run_cons]
    show run (next i) (Function.update s i (next i e (s i)) i) evs = _
    rw [Function.update_self]

/-- **Assumptions and guarantees**: if a machine keeps its invariant by every event
that meets a condition, which may rest upon the states of the others and their
invariants, then all keep theirs, in every interleaving of such events. -/
theorem run_side
    (hP : ∀ i e s, (∀ j, P j (s j)) → Q (i, e) s → P i (next i e (s i))) {s : ι → S}
    (h : ∀ i, P i (s i)) {evs : List (ι × E)} (hevs : Meets (nextAt next) Q s evs) (i : ι) :
    P i (run (nextAt next) s evs i) := by
  induction evs generalizing s with
  | nil => exact h i
  | cons e evs ih =>
    refine ih (fun j => ?_) hevs.2
    show P j (Function.update s e.1 (next e.1 e.2 (s e.1)) j)
    by_cases hj : j = e.1
    · rw [hj, Function.update_self]
      exact hP e.1 e.2 s h hevs.1
    · -- a machine that does not move
      rw [Function.update_of_ne hj]
      exact h j

end Side

/-! ### Outputs -/

section Trace

variable {O : Type*} (next : E → S → S) (out : E → S → List O)

/-- The outputs of a run, one after the other. -/
def trace (s : S) : List E → List O
  | [] => []
  | e :: evs => out e s ++ trace (next e s) evs

@[simp] theorem trace_nil (s : S) : trace next out s [] = [] := rfl

@[simp] theorem trace_cons (s : S) (e : E) (evs : List E) :
    trace next out s (e :: evs) = out e s ++ trace next out (next e s) evs := rfl

theorem trace_append (s : S) (evs evs' : List E) :
    trace next out s (evs ++ evs') =
      trace next out s evs ++ trace next out (run next s evs) evs' := by
  induction evs generalizing s with
  | nil => rfl
  | cons e evs ih => rw [List.cons_append, trace_cons, ih, trace_cons, List.append_assoc, run_cons]

variable {next out}

/-- What every event preserves of the state and the outputs so far, as long as
the outputs meet a condition `Q`, holds after every run whose outputs do. -/
theorem run_trace {P : S → List O → Prop} {Q : O → Prop}
    (hP : ∀ e s os, P s os → (∀ o ∈ out e s, Q o) → P (next e s) (os ++ out e s)) {s : S}
    {os : List O} (h : P s os) {evs : List E} (hQ : ∀ o ∈ trace next out s evs, Q o) :
    P (run next s evs) (os ++ trace next out s evs) := by
  induction evs generalizing s os with
  | nil => simpa using h
  | cons e evs ih =>
    rw [trace_cons, ← List.append_assoc]
    rw [trace_cons] at hQ
    exact ih (hP e s os h fun o ho => hQ o (List.mem_append_left _ ho))
      fun o ho => hQ o (List.mem_append_right _ ho)

end Trace

end Runs
