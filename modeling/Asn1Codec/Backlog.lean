/-
Asn1Codec/Backlog.lean

A queue that is filled, drained and now and then given up.

Only the numbers matter here.  `queued` counts what waits in the queue and
`lost` what waited in it when it was given up.  `lost_run_iff` tells from the
order of the marks alone, with no look at the queue, when nothing is lost:
wherever the queue is given up, every stretch of marks that ends there has at
least as many drains as it has accepted.
-/
import Asn1Codec.Runs
import Mathlib.Data.List.Count

namespace Backlog

/-- What happens to the queue. -/
inductive Mark where
  | accept
  | drain
  | abandon
  deriving DecidableEq

/-- How much waits, and how much has been lost. -/
structure Account where
  queued : ℕ
  lost : ℕ

def next : Mark → Account → Account
  | .accept, a => { a with queued := a.queued + 1 }
  | .drain, a => { a with queued := a.queued - 1 }
  | .abandon, a => { queued := 0, lost := a.lost + a.queued }

/-- Wherever the queue is given up, every stretch of marks that ends there, and
in which it was not given up before, drains at least what it accepts. -/
def KeepsUp (marks : List Mark) : Prop :=
  ∀ pre mid post, marks = pre ++ (mid ++ .abandon :: post) → .abandon ∉ mid →
    mid.count .accept ≤ mid.count .drain

/-- The same of the stretches from the first mark on, with `n` waiting before. -/
def FirstKeepsUp (n : ℕ) (marks : List Mark) : Prop :=
  ∀ mid post, marks = mid ++ .abandon :: post → .abandon ∉ mid →
    n + mid.count .accept ≤ mid.count .drain

/-! ### The first stretch -/

theorem firstKeepsUp_nil (n : ℕ) : FirstKeepsUp n [] := by
  intro mid post h
  exact absurd h (by simp)

/-- What waits when the queue is given up at once has not been drained. -/
theorem firstKeepsUp_abandon {n : ℕ} {marks : List Mark} :
    FirstKeepsUp n (.abandon :: marks) ↔ n = 0 := by
  constructor
  · intro h
    exact Nat.le_zero.mp (h [] marks rfl List.not_mem_nil)
  · rintro rfl mid post hsplit hmid
    cases mid with
    | nil => exact Nat.le_refl _
    | cons m mid =>
      -- the stretch would go on over the mark that ends it
      obtain rfl := (List.cons.inj hsplit).1
      exact absurd List.mem_cons_self hmid

/-- A stretch that begins with a mark other than `abandon`, and what follows. -/
theorem firstKeepsUp_cons {n : ℕ} {m : Mark} (hm : m ≠ .abandon) {marks : List Mark} :
    FirstKeepsUp n (m :: marks) ↔ ∀ mid post, marks = mid ++ .abandon :: post →
      .abandon ∉ mid → n + (m :: mid).count .accept ≤ (m :: mid).count .drain := by
  constructor
  · intro h mid post hsplit hmid
    apply h (m :: mid) post
    · rw [hsplit, List.cons_append]
    · simpa [hm.symm] using hmid
  · intro h mid post hsplit hmid
    cases mid with
    | nil => exact absurd (List.cons.inj hsplit).1 hm
    | cons k mid =>
      obtain ⟨rfl, hrest⟩ := List.cons.inj hsplit
      exact h mid post hrest fun hin => hmid (List.mem_cons_of_mem _ hin)

/-- What is accepted waits for the rest of the stretch. -/
theorem firstKeepsUp_accept {n : ℕ} {marks : List Mark} :
    FirstKeepsUp n (.accept :: marks) ↔ FirstKeepsUp (n + 1) marks := by
  rw [firstKeepsUp_cons (by decide)]
  refine forall_congr' fun mid => forall_congr' fun post => imp_congr Iff.rfl <|
    imp_congr Iff.rfl ?_
  rw [List.count_cons_self, List.count_cons_of_ne (by decide)]
  omega

theorem firstKeepsUp_drain {n : ℕ} {marks : List Mark} :
    FirstKeepsUp (n + 1) (.drain :: marks) ↔ FirstKeepsUp n marks := by
  rw [firstKeepsUp_cons (by decide)]
  refine forall_congr' fun mid => forall_congr' fun post => imp_congr Iff.rfl <|
    imp_congr Iff.rfl ?_
  rw [List.count_cons_self, List.count_cons_of_ne (by decide)]
  omega

theorem FirstKeepsUp.drain {marks : List Mark} (h : FirstKeepsUp 0 marks) :
    FirstKeepsUp 0 (.drain :: marks) := by
  refine (firstKeepsUp_cons (by decide)).mpr fun mid post hsplit hmid => ?_
  have hle := h mid post hsplit hmid
  rw [List.count_cons_self, List.count_cons_of_ne (by decide)]
  omega

/-- It is easier with nothing waiting. -/
theorem FirstKeepsUp.zero {n : ℕ} {marks : List Mark} (h : FirstKeepsUp n marks) :
    FirstKeepsUp 0 marks := by
  intro mid post hsplit hmid
  have hle := h mid post hsplit hmid
  omega

/-! ### All stretches -/

theorem keepsUp_nil : KeepsUp [] := by
  intro pre mid post h
  exact absurd h (by simp)

theorem KeepsUp.first {marks : List Mark} (h : KeepsUp marks) : FirstKeepsUp 0 marks := by
  intro mid post hsplit hmid
  rw [Nat.zero_add]
  exact h [] mid post hsplit hmid

/-- A stretch begins with the first mark, or later. -/
theorem keepsUp_cons {m : Mark} {marks : List Mark} :
    KeepsUp (m :: marks) ↔ FirstKeepsUp 0 (m :: marks) ∧ KeepsUp marks := by
  constructor
  · intro h
    refine ⟨h.first, fun pre mid post hsplit hmid => ?_⟩
    exact h (m :: pre) mid post (by rw [hsplit, List.cons_append]) hmid
  · rintro ⟨hfirst, hrest⟩ pre mid post hsplit hmid
    cases pre with
    | nil =>
      have hle := hfirst mid post hsplit hmid
      omega
    | cons k pre => exact hrest pre mid post (List.cons.inj hsplit).2 hmid

/-- What the first stretch needs is asked twice. -/
theorem first_and_keepsUp_cons {n : ℕ} {m : Mark} {marks : List Mark} :
    FirstKeepsUp n (m :: marks) ∧ KeepsUp (m :: marks) ↔
      FirstKeepsUp n (m :: marks) ∧ KeepsUp marks := by
  rw [keepsUp_cons]
  exact ⟨fun ⟨hfirst, _, hall⟩ => ⟨hfirst, hall⟩,
    fun ⟨hfirst, hall⟩ => ⟨hfirst, hfirst.zero, hall⟩⟩

/-! ### Runs -/

theorem lost_le_run (marks : List Mark) (a : Account) : a.lost ≤ (Runs.run next a marks).lost := by
  have hstep (m : Mark) (b : Account) (h : a.lost ≤ b.lost) : a.lost ≤ (next m b).lost := by
    cases m with
    | accept => exact h
    | drain => exact h
    | abandon => exact Nat.le_trans h (Nat.le_add_right ..)
  exact Runs.run_invariant hstep (Nat.le_refl _) marks

/-- Nothing more is lost than is lost already: by induction on the marks, from
any number that waits. -/
theorem lost_run_eq_iff (marks : List Mark) (n l : ℕ) :
    (Runs.run next ⟨n, l⟩ marks).lost = l ↔ FirstKeepsUp n marks ∧ KeepsUp marks := by
  induction marks generalizing n l with
  | nil => exact iff_of_true rfl ⟨firstKeepsUp_nil _, keepsUp_nil⟩
  | cons m marks ih =>
    rw [Runs.run_cons, first_and_keepsUp_cons]
    cases m with
    | accept =>
      show (Runs.run next ⟨n + 1, l⟩ marks).lost = l ↔ _
      rw [ih, firstKeepsUp_accept]
    | drain =>
      show (Runs.run next ⟨n - 1, l⟩ marks).lost = l ↔ _
      rw [ih]
      cases n with
      | zero =>
        -- an empty queue is drained in vain
        exact ⟨fun ⟨_, hall⟩ => ⟨hall.first.drain, hall⟩, fun ⟨_, hall⟩ => ⟨hall.first, hall⟩⟩
      | succ n =>
        rw [Nat.add_sub_cancel, firstKeepsUp_drain]
    | abandon =>
      show (Runs.run next ⟨0, l + n⟩ marks).lost = l ↔ _
      rw [firstKeepsUp_abandon]
      rcases Nat.eq_zero_or_pos n with rfl | hpos
      · rw [Nat.add_zero, ih]
        exact ⟨fun ⟨_, hall⟩ => ⟨rfl, hall⟩, fun ⟨_, hall⟩ => ⟨hall.first, hall⟩⟩
      · -- what is lost here stays lost
        have hle : l + n ≤ (Runs.run next ⟨0, l + n⟩ marks).lost :=
          lost_le_run marks ⟨0, l + n⟩
        exact iff_of_false (by omega) fun h => by omega

/-- **Nothing is lost** exactly when draining keeps up with accepting. -/
theorem lost_run_iff (marks : List Mark) :
    (Runs.run next ⟨0, 0⟩ marks).lost = 0 ↔ KeepsUp marks :=
  (lost_run_eq_iff marks 0 0).trans (and_iff_right_of_imp KeepsUp.first)

end Backlog
