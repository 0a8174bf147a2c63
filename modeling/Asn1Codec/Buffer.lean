/-
Asn1Codec/Buffer.lean

dynamic_buffer_append, the callback that collects what the XER and UPER
encoders write.

`size_t` is `UInt64`.  Its arithmetic wraps silently, so a state carries a mark
that is set once an exact result has not fit; a memcpy past the end of a block
and a loop that has not ended yet are the two ways not to return.  MALLOC is a
pattern: whether its n-th call gives a block.

The loop doubles the block until there is room.  Its invariant is
`Accumulates k xb acc`: the buffer holds `acc`, and its size is 2 ^ k, where the
zero buffer, from which the code starts as if it had 64 bytes, counts as k = 6.
The exponent grows with every iteration and stops below 64.
-/
import Asn1Codec.Block
import Asn1Codec.Types
import Mathlib.Algebra.Group.Nat.Defs

namespace Asn1Codec

/-! ### The code -/

/-- buffer_structure_t; no block stands for the null pointer. -/
structure BufferStructure where
  buffer : Option (Block Int8)
  bufferSize : UInt64
  allocatedSize : UInt64
  deriving DecidableEq

/-- `{0, 0, 0}`. -/
def BufferStructure.zero : BufferStructure := ⟨none, 0, 0⟩

/-- The cells behind the pointer; the null pointer has none. -/
def BufferStructure.cells (xb : BufferStructure) : Block Int8 := xb.buffer.getD []

/-- The bytes collected so far, as the caller reads them. -/
def BufferStructure.collected (xb : BufferStructure) : Block Int8 :=
  xb.cells.take xb.bufferSize.toNat

/-- What a call works on: the buffer, the calls of MALLOC made so far, and
whether some `size_t` arithmetic has wrapped. -/
structure AppendState where
  xb : BufferStructure
  mallocs : ℕ
  wrapped : Bool
  deriving DecidableEq

/-- Notes an operation of `size_t` whose exact result is `n`. -/
def AppendState.mark (s : AppendState) (n : ℕ) : AppendState :=
  { s with wrapped := s.wrapped || decide (2 ^ 64 ≤ n) }

/-- Why a call has not returned. -/
inductive Halt
  | undefined
  | running
  deriving DecidableEq

/-- memcpy of `src` to the cells of `dst` from `i` on. -/
def memcpy (dst : Block Int8) (i : ℕ) (src : Option (Block Int8)) : Except Halt (Block Int8) :=
  match src.bind (dst.write i) with
  | none => .error .undefined
  | some b => .ok b

/-- `xb->allocated_size ? xb->allocated_size : 64`. -/
def BufferStructure.base (xb : BufferStructure) : UInt64 :=
  if xb.allocatedSize ≠ 0 then xb.allocatedSize else 64

/-- The move of the old bytes to a block of twice the size, once MALLOC gave it. -/
def doubled (xb : BufferStructure) : Except Halt BufferStructure := do
  let newSize := 2 * xb.base
  let newBuf ← memcpy (Block.fresh newSize.toNat) 0 (xb.cells.read xb.bufferSize.toNat)
  pure { xb with buffer := some newBuf, allocatedSize := newSize }

/-- The while loop, for `fuel` evaluations of its condition: whether it ends
with room, or by a MALLOC that failed. -/
def growLoop (malloc : ℕ → Bool) (size : UInt64) :
    ℕ → AppendState → Except Halt (Bool × AppendState)
  | 0, _ => .error .running
  | fuel + 1, s =>
    let s := s.mark (s.xb.bufferSize.toNat + size.toNat + 1)
    if s.xb.bufferSize + size + 1 > s.xb.allocatedSize then
      let s := s.mark (2 * s.xb.base.toNat)
      if malloc s.mallocs then do
        let xb ← doubled s.xb
        growLoop malloc size fuel { s with xb := xb, mallocs := s.mallocs + 1 }
      else .ok (false, { s with mallocs := s.mallocs + 1 })
    else .ok (true, s)

/-- dynamic_buffer_append. -/
def dynamicBufferAppend (malloc : ℕ → Bool) (fuel : ℕ) (buffer : List Int8) (s : AppendState) :
    Except Halt (Int × AppendState) := do
  let size := UInt64.ofNat buffer.length
  let (room, s) ← growLoop malloc size fuel s
  if room then
    let b ← memcpy s.xb.cells s.xb.bufferSize.toNat (some (buffer.map some))
    let s := s.mark (s.xb.bufferSize.toNat + size.toNat)
    let bufferSize := s.xb.bufferSize + size
    let b ← memcpy b bufferSize.toNat (some [some 0])
    pure (0, { s with xb := { s.xb with buffer := some b, bufferSize := bufferSize } })
  else pure (-1, s)

/-- The calls of an encoder: the state they share, and the chunks accepted. -/
structure Calls where
  state : AppendState
  accepted : List Int8

def Calls.start : Calls := ⟨⟨.zero, 0, false⟩, []⟩

/-- One more call; a chunk is accepted if the call returns 0. -/
def Calls.append (malloc : ℕ → Bool) (fuel : ℕ) (s : Calls) (chunk : List Int8) :
    Except Halt Calls := do
  let (code, state) ← dynamicBufferAppend malloc fuel chunk s.state
  pure ⟨state, if code = 0 then s.accepted ++ chunk else s.accepted⟩

/-! ### The invariant of the loop -/

/-- The buffer holds `acc` in a block of 2 ^ `k` cells; the zero buffer has k = 6. -/
structure Accumulates (k : ℕ) (xb : BufferStructure) (acc : List Int8) : Prop where
  size : xb.bufferSize.toNat = acc.length
  cells : xb.cells.length = xb.allocatedSize.toNat
  starts : xb.cells.Starts acc
  exponent : 6 ≤ k ∧ k ≤ 63
  capacity : k = 6 ∧ xb.allocatedSize = 0 ∨ 7 ≤ k ∧ xb.allocatedSize.toNat = 2 ^ k

namespace Accumulates

variable {k : ℕ} {xb : BufferStructure} {acc : List Int8}

theorem zero : Accumulates 6 .zero [] where
  size := rfl
  cells := rfl
  starts := Block.starts_nil _
  exponent := by omega
  capacity := .inl ⟨rfl, rfl⟩

theorem collected (h : Accumulates k xb acc) : xb.collected = acc.map some := by
  rw [BufferStructure.collected, h.size, h.starts.take]

theorem length_le (h : Accumulates k xb acc) : acc.length ≤ xb.allocatedSize.toNat :=
  h.cells ▸ h.starts.length_le

theorem base_toNat (h : Accumulates k xb acc) : xb.base.toNat = 2 ^ k := by
  rcases h.capacity with ⟨rfl, hzero⟩ | ⟨-, hpow⟩
  · rw [BufferStructure.base, hzero]
    rfl
  · have hne : xb.allocatedSize ≠ 0 := by
      intro hzero
      have hpos : 0 < 2 ^ k := Nat.two_pow_pos k
      rw [← hpow, hzero] at hpos
      exact absurd hpos (by decide)
    rw [BufferStructure.base, if_pos hne, hpow]

/-- What the condition of the loop computes, where nothing wraps. -/
theorem needed_toNat (h : Accumulates k xb acc) {size : UInt64}
    (hneed : acc.length + size.toNat + 1 ≤ 2 ^ 63) :
    (xb.bufferSize + size + 1).toNat = acc.length + size.toNat + 1 := by
  rw [UInt64.toNat_add, UInt64.toNat_add, h.size]
  show ((acc.length + size.toNat) % 2 ^ 64 + 1) % 2 ^ 64 = _
  omega

/-- The block can be doubled as long as it is too small. -/
theorem exponent_lt (h : Accumulates k xb acc) {need : ℕ} (hneed : need ≤ 2 ^ 63)
    (hfull : xb.allocatedSize.toNat < need) : k < 63 := by
  rcases h.capacity with ⟨rfl, -⟩ | ⟨-, hpow⟩
  · omega
  · refine Nat.lt_of_le_of_ne h.exponent.2 ?_
    rintro rfl
    omega

theorem newSize_toNat (h : Accumulates k xb acc) (hk : k < 63) :
    (2 * xb.base).toNat = 2 ^ (k + 1) := by
  have hlt : 2 ^ (k + 1) < 2 ^ 64 := Nat.pow_lt_pow_right (by omega) (by omega)
  rw [UInt64.toNat_mul, h.base_toNat]
  show 2 * 2 ^ k % 2 ^ 64 = 2 ^ (k + 1)
  omega

/-- One iteration moves the bytes to a block of twice the size. -/
theorem grow (h : Accumulates k xb acc) (hk : k < 63) :
    ∃ xb', doubled xb = .ok xb' ∧ Accumulates (k + 1) xb' acc := by
  have hnew := h.newSize_toNat hk
  -- the first allocation finds an empty buffer; later ones double what was allocated
  have hroom : acc.length ≤ 2 ^ (k + 1) := by
    have hle := h.length_le
    rcases h.capacity with ⟨-, hzero⟩ | ⟨-, hpow⟩
    · rw [hzero] at hle
      exact Nat.le_trans hle (Nat.zero_le _)
    · rw [hpow] at hle
      omega
  obtain ⟨newBuf, hwrite, hlen, hstarts⟩ := Block.write_starts
    (Block.starts_nil (Block.fresh (2 * xb.base).toNat)) acc (by simpa [hnew] using hroom)
  have hcopy : memcpy (Block.fresh (2 * xb.base).toNat) 0
      (xb.cells.read xb.bufferSize.toNat) = .ok newBuf := by
    rw [h.size, Block.read_starts h.starts, memcpy, Option.bind_some,
      show Block.write _ 0 (acc.map some) = some newBuf from hwrite]
  refine ⟨{ xb with buffer := some newBuf, allocatedSize := 2 * xb.base }, ?_, ?_⟩
  · rw [doubled, hcopy]
    rfl
  · exact { size := h.size
            cells := hlen.trans (Block.fresh_length _)
            starts := hstarts
            exponent := ⟨Nat.le_succ_of_le h.exponent.1, hk⟩
            capacity := .inr ⟨Nat.succ_le_succ h.exponent.1, hnew⟩ }

/-- With room for a chunk and a NUL, both are written behind the bytes. -/
theorem append (h : Accumulates k xb acc) (buffer : List Int8) {size : UInt64}
    (hsize : size.toNat = buffer.length)
    (hroom : acc.length + buffer.length < xb.allocatedSize.toNat) :
    ∃ b b', memcpy xb.cells xb.bufferSize.toNat (some (buffer.map some)) = .ok b ∧
      memcpy b (xb.bufferSize + size).toNat (some [some 0]) = .ok b' ∧
      Accumulates k { xb with buffer := some b', bufferSize := xb.bufferSize + size }
        (acc ++ buffer) ∧
      b'[(xb.bufferSize + size).toNat]? = some (some 0) := by
  have hfits : acc.length + buffer.length + 1 ≤ xb.cells.length := by
    rw [h.cells]
    exact hroom
  have hadd : (xb.bufferSize + size).toNat = (acc ++ buffer).length := by
    have hlt := xb.allocatedSize.toNat_lt
    rw [UInt64.toNat_add, hsize, h.size, List.length_append]
    omega
  -- the chunk goes behind what is there, the terminator behind the chunk
  obtain ⟨b, hchunk, hb, hstarts⟩ := Block.write_starts h.starts buffer (by omega)
  obtain ⟨b', hnul, hb', hclosed⟩ := Block.write_starts hstarts [0] (by
    rw [hb, List.length_append]
    exact hfits)
  refine ⟨b, b', ?_, ?_, ?_, ?_⟩
  · rw [memcpy, h.size, Option.bind_some, hchunk]
  · rw [memcpy, hadd, Option.bind_some, show b.write _ [some 0] = some b' from hnul]
  · exact { size := hadd
            cells := (hb'.trans hb).trans h.cells
            starts := hclosed.left
            exponent := h.exponent
            capacity := h.capacity }
  · rw [hadd]
    exact hclosed.getElem?

end Accumulates

theorem mark_of_lt (s : AppendState) {n : ℕ} (hn : n < 2 ^ 64) : s.mark n = s := by
  rw [AppendState.mark, decide_eq_false (Nat.not_le.mpr hn), Bool.or_false]

/-- One of the calls of MALLOC between two states has failed. -/
def FailedBetween (malloc : ℕ → Bool) (s s' : AppendState) : Prop :=
  ∃ n, s.mallocs ≤ n ∧ n < s'.mallocs ∧ malloc n = false

/-- **The loop** ends within 64 - k evaluations of its condition, without a
wrap, and keeps what the buffer holds; there is room unless a MALLOC has failed. -/
theorem growLoop_spec (malloc : ℕ → Bool) {size : UInt64} {acc : List Int8} {s : AppendState}
    {k fuel : ℕ} (h : Accumulates k s.xb acc) (hneed : acc.length + size.toNat + 1 ≤ 2 ^ 63)
    (hfuel : 64 - k ≤ fuel) :
    ∃ room s' k', growLoop malloc size fuel s = .ok (room, s') ∧ Accumulates k' s'.xb acc ∧
      s'.wrapped = s.wrapped ∧
      (room = true → acc.length + size.toNat < s'.xb.allocatedSize.toNat) ∧
      (room = false ↔ FailedBetween malloc s s') := by
  induction fuel generalizing k s with
  | zero =>
    have := h.exponent.2
    omega
  | succ fuel ih =>
    have hneedNat := h.needed_toNat hneed
    have hmark : s.mark (s.xb.bufferSize.toNat + size.toNat + 1) = s := by
      apply mark_of_lt
      rw [h.size]
      omega
    by_cases hfull : s.xb.bufferSize + size + 1 > s.xb.allocatedSize
    · -- below 2 ^ 63 there is a power of two left to double to
      have hk : k < 63 := h.exponent_lt hneed (by
        rw [← hneedNat]
        exact UInt64.lt_iff_toNat_lt.mp hfull)
      have hmark' : s.mark (2 * s.xb.base.toNat) = s := by
        apply mark_of_lt
        rw [h.base_toNat, ← Nat.pow_succ']
        exact Nat.pow_lt_pow_right (by omega) (by omega)
      rcases hm : malloc s.mallocs with - | -
      · refine ⟨false, { s with mallocs := s.mallocs + 1 }, k, ?_, h, rfl, by simp,
          iff_of_true rfl ⟨_, Nat.le_refl _, Nat.lt_succ_self _, hm⟩⟩
        simp [growLoop, hmark, hmark', hfull, hm]
      · obtain ⟨xb', hdoubled, hgrown⟩ := h.grow hk
        obtain ⟨room, s', k', hrun, hacc, hwrapped, hroom, hfailed⟩ :=
          ih (s := ⟨xb', s.mallocs + 1, s.wrapped⟩) hgrown (by omega)
        refine ⟨room, s', k', ?_, hacc, hwrapped, hroom, hfailed.trans ⟨?_, ?_⟩⟩
        · simp only [growLoop, hmark, hmark', if_pos hfull, hm, if_true, hdoubled]
          exact hrun
        · rintro ⟨n, hle, hlt, hn⟩
          exact ⟨n, Nat.le_of_succ_le hle, hlt, hn⟩
        · -- the call before the rest of the loop has given its block
          rintro ⟨n, hle, hlt, hn⟩
          have hne : s.mallocs ≠ n := by
            rintro rfl
            rw [hm] at hn
            cases hn
          exact ⟨n, Nat.lt_of_le_of_ne hle hne, hlt, hn⟩
    · refine ⟨true, s, k, ?_, h, rfl, fun _ => ?_, iff_of_false (by simp) ?_⟩
      · simp [growLoop, hmark, hfull]
      · have hle := UInt64.le_iff_toNat_le.mp (UInt64.not_lt.mp hfull)
        rw [hneedNat] at hle
        omega
      · rintro ⟨n, hle, hlt, -⟩
        exact absurd (Nat.lt_of_le_of_lt hle hlt) (Nat.lt_irrefl _)

/-! ### The calls -/

/-- One call.  It accepts the chunk and closes the bytes with a NUL, or it
returns -1, and the bytes are those from before; a MALLOC that it made has failed
in the second case only. -/
theorem dynamicBufferAppend_spec (malloc : ℕ → Bool) (buffer : List Int8) {acc : List Int8}
    {s : AppendState} {k fuel : ℕ} (h : Accumulates k s.xb acc)
    (hlen : acc.length + buffer.length + 1 ≤ 2 ^ 63) (hfuel : 58 ≤ fuel) :
    ∃ code s' k', dynamicBufferAppend malloc fuel buffer s = .ok (code, s') ∧
      s'.wrapped = s.wrapped ∧
      (code = 0 ∧ Accumulates k' s'.xb (acc ++ buffer) ∧
          s'.xb.bufferSize < s'.xb.allocatedSize ∧
          s'.xb.cells[s'.xb.bufferSize.toNat]? = some (some 0) ∧
          ¬ FailedBetween malloc s s' ∨
        code = -1 ∧ Accumulates k' s'.xb acc ∧ FailedBetween malloc s s') := by
  have hsize : (UInt64.ofNat buffer.length).toNat = buffer.length := by
    rw [UInt64.toNat_ofNat']
    omega
  have hexponent := h.exponent.1
  obtain ⟨room, s', k', hloop, hacc, hwrapped, hroom, hfailed⟩ :=
    growLoop_spec malloc h (by rw [hsize]; exact hlen) (show 64 - k ≤ fuel by omega)
  rcases room with - | -
  · exact ⟨-1, s', k', by rw [dynamicBufferAppend, hloop]; rfl, hwrapped,
      .inr ⟨rfl, hacc, hfailed.mp rfl⟩⟩
  · have hroom := hroom rfl
    rw [hsize] at hroom
    obtain ⟨b, b', hcopied, hterminated, happended, hnul⟩ := hacc.append buffer hsize hroom
    have hmark : s'.mark (s'.xb.bufferSize.toNat + (UInt64.ofNat buffer.length).toNat) = s' := by
      apply mark_of_lt
      rw [hsize, hacc.size]
      omega
    refine ⟨0, { s' with xb := { s'.xb with
        buffer := some b', bufferSize := s'.xb.bufferSize + UInt64.ofNat buffer.length } },
      k', ?_, hwrapped, .inl ⟨rfl, happended, ?_, hnul, fun h => by cases hfailed.mpr h⟩⟩
    · rw [dynamicBufferAppend, hloop]
      show (memcpy s'.xb.cells s'.xb.bufferSize.toNat (some (buffer.map some)) >>= _) = _
      rw [hcopied]
      show (memcpy b _ (some [some 0]) >>= _) = _
      rw [hmark, hterminated]
      rfl
    · rw [UInt64.lt_iff_toNat_lt, happended.size, List.length_append]
      exact hroom

/-- Any number of calls: all of them return, and the buffer holds the chunks
that were accepted, which are all of them as long as no MALLOC fails. -/
theorem calls_spec (malloc : ℕ → Bool) {chunks : List (List Int8)} {s : Calls} {k fuel : ℕ}
    (h : Accumulates k s.state.xb s.accepted)
    (hlen : s.accepted.length + chunks.flatten.length + 1 ≤ 2 ^ 63) (hfuel : 58 ≤ fuel) :
    ∃ s' k', chunks.foldlM (Calls.append malloc fuel) s = .ok s' ∧
      Accumulates k' s'.state.xb s'.accepted ∧ s'.state.wrapped = s.state.wrapped ∧
      s'.accepted.length ≤ s.accepted.length + chunks.flatten.length ∧
      ((∀ n, malloc n = true) → s'.accepted = s.accepted ++ chunks.flatten) := by
  induction chunks generalizing s k with
  | nil => exact ⟨s, k, rfl, h, rfl, by simp, by simp⟩
  | cons chunk chunks ih =>
    rw [List.flatten_cons, List.length_append] at hlen
    obtain ⟨code, t, j, hcall, hwrapped, hcode⟩ :=
      dynamicBufferAppend_spec malloc chunk h (by omega) hfuel
    have hstep : Calls.append malloc fuel s chunk =
        .ok ⟨t, if code = 0 then s.accepted ++ chunk else s.accepted⟩ := by
      rw [Calls.append, hcall]
      rfl
    rw [List.foldlM_cons, hstep, List.flatten_cons, List.length_append]
    -- after a refused chunk the accepted ones are what they were
    rcases hcode with ⟨rfl, hacc, -, -, -⟩ | ⟨rfl, hacc, n, -, -, hn⟩
    · obtain ⟨s', k', hrun, hacc', hwrapped', hle, hall⟩ :=
        ih (s := ⟨t, s.accepted ++ chunk⟩) hacc (by simpa [Nat.add_assoc] using hlen)
      refine ⟨s', k', hrun, hacc', hwrapped'.trans hwrapped, ?_, fun hm => ?_⟩
      · simpa [Nat.add_assoc] using hle
      · rw [hall hm, List.append_assoc]
    · obtain ⟨s', k', hrun, hacc', hwrapped', hle, -⟩ :=
        ih (s := ⟨t, s.accepted⟩) hacc (show s.accepted.length + _ + 1 ≤ _ by omega)
      refine ⟨s', k', hrun, hacc', hwrapped'.trans hwrapped, ?_, fun hm => ?_⟩
      · have hle : s'.accepted.length ≤ s.accepted.length + chunks.flatten.length := hle
        omega
      · simp [hm n] at hn

example : (([[1, 2], []].foldlM (Calls.append (fun _ => true) 2) .start).toOption.map
    fun s => (s.accepted, s.state.xb.bufferSize, s.state.xb.allocatedSize)) =
      some ([1, 2], 2, 128) := by
  decide +kernel

/-- **The append buffer**: after any calls from the zero buffer, and for any
pattern of allocation failures, one more call returns without a wrap.  If it
returns 0, there is room behind the bytes, these are the chunks accepted so far,
and a NUL follows; if it returns -1, the bytes and their number are as before.  It
returns -1 exactly if a MALLOC that it made has failed. -/
theorem dynamicBufferAppend_accumulates (malloc : ℕ → Bool) (chunks : List (List Int8))
    (buffer : List Int8) (hlen : chunks.flatten.length + buffer.length + 1 ≤ 2 ^ 63) {fuel : ℕ}
    (hfuel : 58 ≤ fuel) :
    ∃ s code s', chunks.foldlM (Calls.append malloc fuel) .start = .ok s ∧
      dynamicBufferAppend malloc fuel buffer s.state = .ok (code, s') ∧
      s'.wrapped = false ∧ (code = 0 ∨ code = -1) ∧
      (code = 0 → s'.xb.bufferSize < s'.xb.allocatedSize ∧
        s'.xb.collected = (s.accepted ++ buffer).map some ∧
        s'.xb.cells[s'.xb.bufferSize.toNat]? = some (some 0)) ∧
      (code = -1 → s'.xb.collected = s.state.xb.collected ∧
        s'.xb.bufferSize = s.state.xb.bufferSize) ∧
      (code = -1 ↔ FailedBetween malloc s.state s') := by
  obtain ⟨s, k, hrun, hacc, hwrapped, hle, -⟩ :=
    calls_spec malloc (s := .start) .zero (show 0 + chunks.flatten.length + 1 ≤ _ by omega) hfuel
  have hle : s.accepted.length ≤ 0 + chunks.flatten.length := hle
  obtain ⟨code, s', k', hcall, hwrapped', hcode⟩ :=
    dynamicBufferAppend_spec malloc buffer hacc (by omega) hfuel
  refine ⟨s, code, s', hrun, hcall, hwrapped'.trans hwrapped, ?_⟩
  rcases hcode with ⟨rfl, hacc', hroom, hnul, hnone⟩ | ⟨rfl, hacc', hfailed⟩
  · exact ⟨.inl rfl, fun _ => ⟨hroom, hacc'.collected, hnul⟩, by simp,
      iff_of_false (by simp) hnone⟩
  · refine ⟨.inr rfl, by simp, fun _ => ⟨?_, ?_⟩, iff_of_true rfl hfailed⟩
    · rw [hacc'.collected, hacc.collected]
    · rw [← UInt64.toNat_inj, hacc'.size, hacc.size]

theorem dynamicBufferAppend_accumulates_second_fails :
    ∃ s code s', [[0x3c, 0x61], []].foldlM (Calls.append (fun n => n != 1) 58) .start = .ok s ∧
      dynamicBufferAppend (fun n => n != 1) 58 (List.replicate 200 0x3e) s.state = .ok (code, s') ∧
      s'.wrapped = false ∧ (code = 0 ∨ code = -1) ∧
      (code = 0 → s'.xb.bufferSize < s'.xb.allocatedSize ∧
        s'.xb.collected = (s.accepted ++ List.replicate 200 0x3e).map some ∧
        s'.xb.cells[s'.xb.bufferSize.toNat]? = some (some 0)) ∧
      (code = -1 → s'.xb.collected = s.state.xb.collected ∧
        s'.xb.bufferSize = s.state.xb.bufferSize) ∧
      (code = -1 ↔ FailedBetween (fun n => n != 1) s.state s') :=
  dynamicBufferAppend_accumulates (fun n => n != 1) [[0x3c, 0x61], []] (List.replicate 200 0x3e)
    (by rw [List.length_replicate]; decide) (by decide)

end Asn1Codec
