/-
Asn1Codec/Block.lean

Blocks of allocated memory.  A block is the list of its cells, and a cell that
was never written holds nothing.  A range is read or written only where it lies
in the block: a copy past the end has no result.

`Block.Starts b xs` says that the first cells of `b` hold `xs`.  `write_starts`
is the rule for writing right behind such a prefix; a copy into a fresh block
is the case of the empty prefix.
-/
import Mathlib.Data.List.Basic

variable {α : Type*}

/-- The cells of a block; an uninitialised cell is `none`. -/
abbrev Block (α : Type*) := List (Option α)

namespace Block

/-- A block of `n` cells, none of them written. -/
def fresh (n : ℕ) : Block α := List.replicate n none

/-- The first `n` cells. -/
def read (b : Block α) (n : ℕ) : Option (Block α) :=
  if n ≤ b.length then some (b.take n) else none

/-- The block with `src` written from cell `i` on. -/
def write (b : Block α) (i : ℕ) (src : Block α) : Option (Block α) :=
  if i + src.length ≤ b.length then some (b.take i ++ src ++ b.drop (i + src.length)) else none

/-- The first cells hold `xs`. -/
def Starts (b : Block α) (xs : List α) : Prop := xs.map some <+: b

@[simp] theorem fresh_length (n : ℕ) : (fresh n : Block α).length = n := List.length_replicate

theorem starts_nil (b : Block α) : b.Starts [] := List.nil_prefix

theorem Starts.length_le {b : Block α} {xs : List α} (h : b.Starts xs) :
    xs.length ≤ b.length := by
  simpa using List.IsPrefix.length_le h

theorem Starts.take {b : Block α} {xs : List α} (h : b.Starts xs) :
    b.take xs.length = xs.map some := by
  simpa using (List.prefix_iff_eq_take.mp h).symm

theorem Starts.left {b : Block α} {xs ys : List α} (h : b.Starts (xs ++ ys)) : b.Starts xs := by
  rw [Starts, List.map_append] at h
  exact (List.prefix_append _ _).trans h

theorem Starts.getElem? {b : Block α} {xs : List α} {x : α} (h : b.Starts (xs ++ [x])) :
    b[xs.length]? = some (some x) := by
  obtain ⟨rest, rfl⟩ := h
  simp

theorem read_starts {b : Block α} {xs : List α} (h : b.Starts xs) :
    b.read xs.length = some (xs.map some) := by
  rw [read, if_pos h.length_le, h.take]

/-- **Writing behind a prefix** extends it, and the block keeps its length. -/
theorem write_starts {b : Block α} {xs : List α} (h : b.Starts xs) (ys : List α)
    (hroom : xs.length + ys.length ≤ b.length) :
    ∃ b', b.write xs.length (ys.map some) = some b' ∧ b'.length = b.length ∧
      b'.Starts (xs ++ ys) := by
  refine ⟨xs.map some ++ ys.map some ++ b.drop (xs.length + ys.length), ?_, ?_, ?_⟩
  · rw [write, List.length_map, if_pos hroom, h.take]
  · simp only [List.length_append, List.length_map, List.length_drop]
    omega
  · rw [Starts, List.map_append]
    exact List.prefix_append _ _

end Block
