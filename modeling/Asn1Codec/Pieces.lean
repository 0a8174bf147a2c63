/-
Asn1Codec/Pieces.lean

Lists cut at a delimiter, and lists trimmed at both ends.

`pieces` is what a loop of getline reads: every delimiter ends a piece, and so
does the end of the list, unless the piece it would end is empty.  `trim` removes
the elements of a kind at both ends; an element of another kind stays, and what
is before and behind it is trimmed on one side each (`trim_append_cons`).
-/
import Mathlib.Data.List.DropRight

/-! ### Pieces -/

section Pieces

variable {α : Type*} [DecidableEq α] (d : α)

/-- What getline reads up to each `d`; the end of the list ends the last piece
only if that piece is not empty. -/
def pieces : List α → List (List α)
  | [] => []
  | c :: cs =>
    if c = d then [] :: pieces cs
    else
      match pieces cs with
      | [] => [[c]]
      | l :: ls => (c :: l) :: ls

@[simp] theorem pieces_eq_nil {l : List α} : pieces d l = [] ↔ l = [] := by
  rcases l with - | ⟨c, cs⟩
  · simp [pieces]
  · rw [pieces]
    split
    · simp
    · split <;> simp

/-- Without a delimiter there is one piece. -/
theorem pieces_of_not_mem {l : List α} (h : d ∉ l) (hne : l ≠ []) : pieces d l = [l] := by
  induction l with
  | nil => exact absurd rfl hne
  | cons c cs ih =>
    have hc : c ≠ d := fun hcd => h (hcd ▸ List.mem_cons_self)
    rw [pieces, if_neg hc]
    rcases cs with - | ⟨c', cs'⟩
    · rfl
    · rw [ih (List.not_mem_of_not_mem_cons h) (List.cons_ne_nil c' cs')]

/-- The first delimiter ends the first piece. -/
theorem pieces_append_cons {l : List α} (h : d ∉ l) (rest : List α) :
    pieces d (l ++ d :: rest) = l :: pieces d rest := by
  induction l with
  | nil => rw [List.nil_append, pieces, if_pos rfl]
  | cons c cs ih =>
    have hc : c ≠ d := fun hcd => h (hcd ▸ List.mem_cons_self)
    rw [List.cons_append, pieces, if_neg hc, ih (List.not_mem_of_not_mem_cons h)]

/-- Lists joined by a `d` have their pieces one after the other, up to an empty
one between them. -/
theorem pieces_append (cs ds : List α) :
    pieces d (cs ++ d :: ds) = pieces d cs ++ pieces d ds ∨
    pieces d (cs ++ d :: ds) = pieces d cs ++ [] :: pieces d ds := by
  induction cs with
  | nil => exact .inr (by simp [pieces])
  | cons c cs ih =>
    rw [List.cons_append, pieces, pieces]
    by_cases hc : c = d
    · rw [if_pos hc, if_pos hc, List.cons_append, List.cons_append]
      exact ih.imp (congrArg _) (congrArg _)
    · rw [if_neg hc, if_neg hc]
      rcases hcs : pieces d cs with - | ⟨l, ls⟩
      · -- the list ends with this element
        have hnil := (pieces_eq_nil d).mp hcs
        subst hnil
        exact .inl (by simp [pieces])
      · rw [hcs] at ih
        rcases ih with h | h
        · exact .inl (by rw [h]; rfl)
        · exact .inr (by rw [h]; rfl)

/-- One piece: the list without a `d`, or with one at its end. -/
theorem pieces_eq_singleton {l x : List α} :
    pieces d l = [x] ↔ d ∉ l ∧ l ≠ [] ∧ l = x ∨ d ∉ x ∧ l = x ++ [d] := by
  constructor
  · intro h
    by_cases hmem : d ∈ l
    · obtain ⟨k, v, rfl, hk⟩ := List.eq_append_cons_of_mem hmem
      rw [pieces_append_cons d hk, List.cons.injEq, pieces_eq_nil] at h
      obtain ⟨rfl, rfl⟩ := h
      exact .inr ⟨hk, rfl⟩
    · have hne : l ≠ [] := by
        rintro rfl
        simp [pieces] at h
      rw [pieces_of_not_mem d hmem hne, List.cons.injEq] at h
      exact .inl ⟨hmem, hne, h.1⟩
  · rintro (⟨hmem, hne, rfl⟩ | ⟨hx, rfl⟩)
    · exact pieces_of_not_mem d hmem hne
    · rw [pieces_append_cons d hx, pieces]

end Pieces

/-! ### Trimming -/

section Trim

variable {α : Type*} (p : α → Bool)

/-- Without the characters of `p` at the ends. -/
def trim (l : List α) : List α := (l.rdropWhile p).dropWhile p

variable {p}

/-- An element of another kind stops the trimming at the end. -/
theorem rdropWhile_append_cons {d : α} (hd : p d = false) (k v : List α) :
    (k ++ d :: v).rdropWhile p = k ++ d :: v.rdropWhile p := by
  induction v using List.reverseRecOn with
  | nil => exact List.rdropWhile_concat_neg p k d (by simp [hd])
  | append_singleton v x ih =>
    rw [← List.cons_append, ← List.append_assoc, List.rdropWhile_concat, List.rdropWhile_concat]
    split
    · exact ih
    · simp

theorem dropWhile_append_cons {d : α} (hd : p d = false) (k v : List α) :
    (k ++ d :: v).dropWhile p = k.dropWhile p ++ d :: v := by
  induction k with
  | nil => simp [hd]
  | cons c k ih =>
    rw [List.cons_append, List.dropWhile_cons, List.dropWhile_cons]
    split
    · exact ih
    · rfl

/-- What is before and behind an element of another kind is trimmed on one side each. -/
theorem trim_append_cons {d : α} (hd : p d = false) (k v : List α) :
    trim p (k ++ d :: v) = k.dropWhile p ++ d :: v.rdropWhile p := by
  rw [trim, rdropWhile_append_cons hd, dropWhile_append_cons hd]

theorem trim_rdropWhile (l : List α) : trim p (l.rdropWhile p) = trim p l := by
  rw [trim, List.rdropWhile_idempotent, trim]

theorem trim_dropWhile (l : List α) : trim p (l.dropWhile p) = trim p l := by
  by_cases hall : ∀ x ∈ l, p x = true
  · -- nothing is left
    rw [List.dropWhile_eq_nil_iff.mpr hall, trim, trim, List.rdropWhile_eq_nil_iff.mpr hall,
      List.rdropWhile_nil]
  · -- some element of another kind is left
    push Not at hall
    obtain ⟨d, hmem, hd⟩ := hall
    have hd : p d = false := by simpa using hd
    obtain ⟨k, v, rfl⟩ := List.append_of_mem hmem
    rw [dropWhile_append_cons hd, trim_append_cons hd, trim_append_cons hd,
      List.dropWhile_idempotent]

theorem mem_trim {d : α} (hd : p d = false) {l : List α} : d ∈ trim p l ↔ d ∈ l := by
  constructor
  · intro h
    exact (List.rdropWhile_prefix p l).subset ((List.dropWhile_suffix p).subset h)
  · intro h
    obtain ⟨k, v, rfl⟩ := List.append_of_mem h
    rw [trim_append_cons hd]
    simp

end Trim
