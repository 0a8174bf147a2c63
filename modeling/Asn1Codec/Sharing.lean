/-
Asn1Codec/Sharing.lean

Processes that take turns on a shared state.

Every process has a local state, and one step changes it together with the
shared state.  A run is a list of turns, in any order.

`run_modular` is the rule for such runs.  It asks for an invariant of the shared
state, and for each process for what its local state is after a number of its
own steps.  Each process is looked at alone; that the others may have taken any
number of turns in between is in the invariant.
-/
import Asn1Codec.Runs
import Mathlib.Logic.Function.Basic

namespace Sharing

variable {ι L S : Type*} [DecidableEq ι]

/-- The local states of the processes, and the state they share. -/
structure State (ι L S : Type*) where
  loc : ι → L
  shared : S

/-- The turn of a process. -/
def next (step : L → S → L × S) (i : ι) (s : State ι L S) : State ι L S where
  loc := Function.update s.loc i (step (s.loc i) s.shared).1
  shared := (step (s.loc i) s.shared).2

variable {step : L → S → L × S} {I : S → Prop} {P : ι → ℕ → L → Prop}

/-- The processes after some turns: `k` counts the turns that each has taken. -/
structure Inv (I : S → Prop) (P : ι → ℕ → L → Prop) (k : ι → ℕ) (s : State ι L S) : Prop where
  shared : I s.shared
  loc : ∀ i, P i (k i) (s.loc i)

theorem inv_next (hI : ∀ i n l s, I s → P i n l → I (step l s).2)
    (hP : ∀ i n l s, I s → P i n l → P i (n + 1) (step l s).1) {k : ι → ℕ} {s : State ι L S}
    (h : Inv I P k s) (i : ι) : Inv I P (Function.update k i (k i + 1)) (next step i s) where
  shared := hI i (k i) _ _ h.shared (h.loc i)
  loc := by
    intro j
    show P j (Function.update k i (k i + 1) j)
      (Function.update s.loc i (step (s.loc i) s.shared).1 j)
    by_cases hj : j = i
    · subst hj
      rw [Function.update_self, Function.update_self]
      exact hP j (k j) _ _ h.shared (h.loc j)
    · -- the turn of another process
      rw [Function.update_of_ne hj, Function.update_of_ne hj]
      exact h.loc j

/-- **Reasoning about one process at a time**: if no step breaks the invariant of
the shared state, and the own steps of every process lead from what holds of it
after `n` of them to what holds after `n + 1`, then this is what holds after any
sequence of turns. -/
theorem run_modular (hI : ∀ i n l s, I s → P i n l → I (step l s).2)
    (hP : ∀ i n l s, I s → P i n l → P i (n + 1) (step l s).1) {s : State ι L S}
    (hshared : I s.shared) (hloc : ∀ i, P i 0 (s.loc i)) (turns : List ι) (i : ι) :
    P i (turns.count i) ((Runs.run (next step) s turns).loc i) := by
  suffices h : ∀ (turns : List ι) (k : ι → ℕ) (s : State ι L S), Inv I P k s →
      P i (k i + turns.count i) ((Runs.run (next step) s turns).loc i) by
    have hrun := h turns (fun _ => 0) s ⟨hshared, hloc⟩
    rwa [Nat.zero_add] at hrun
  intro turns
  induction turns with
  | nil => exact fun k s h => h.loc i
  | cons j turns ih =>
    intro k s h
    have hrest := ih _ _ (inv_next hI hP h j)
    have hcount : Function.update k j (k j + 1) i + turns.count i =
        k i + (j :: turns).count i := by
      by_cases hj : j = i
      · subst hj
        rw [Function.update_self, List.count_cons_self]
        omega
      · rw [Function.update_of_ne (Ne.symm hj), List.count_cons_of_ne hj]
    rw [hcount] at hrest
    exact hrest

end Sharing
