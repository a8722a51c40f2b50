import Mathlib.Data.BitVec
import Mathlib.Tactic.IntervalCases

/-!
# Fragment bytes and the little-endian fixup loop

The bytes of an MC fragment, and the loop every little-endian `applyFixup` of the source ends
with (`RISCVAsmBackend.cpp`, lines 216-220):

    for (unsigned i = 0; i != FullSize; ++i)
      Data[Offset + i] |= uint8_t((Value >> (i * 8)) & 0xff);

A fragment is a list of `BitVec 8`; a fixup offset is the `unsigned` of `MCFixup::getOffset`, a
`BitVec 32`, and the index `Offset + i` is `unsigned` arithmetic, so it wraps at `2^32`.

## Main definitions

* `Keystone.MC.orBytesLE` — the byte loop above.
* `Keystone.MC.instBit` — bit `p` of the little-endian word at a byte offset.
* `Keystone.MC.bitsToNat`, `Keystone.MC.instField` — a run of instruction bits read as a number.

## Main results

* `Keystone.MC.getLsbD_orBytesLE` — the one specification of the loop: each bit of each byte is
  the old bit, or-ed with the value bit the loop stores there.
* `Keystone.MC.instBit_orBytesLE` — when `Offset + i` does not wrap, bit `p` of the word at
  `Offset` becomes the old bit or-ed with bit `p` of the value.
* `Keystone.MC.getD_orBytesLE_of_outside` — and the bytes outside `[Offset, Offset + n)` keep
  their values.

## Design

Writing past the end of `Data` is undefined in the source; `List.modify` leaves the list
unchanged there. Every result below that is about the code's behaviour assumes the indices it
writes lie inside the fragment, as the source's callers promise.
-/

namespace Keystone.MC

/-- The byte loop of a little-endian `applyFixup`:
`Data[Offset + i] |= uint8_t((Value >> (i * 8)) & 0xff)` for `i < n`, in the order of `i`. -/
def orBytesLE (data : List (BitVec 8)) (offset : BitVec 32) (value : BitVec 64) :
    Nat → List (BitVec 8)
  | 0 => data
  | i + 1 => (orBytesLE data offset value i).modify
      (· ||| ((value >>> (i * 8)) &&& 0xff).setWidth 8) (offset + BitVec.ofNat 32 i).toNat

/-- Whether the loop of `orBytesLE … n` stores a `1` in bit `b` of byte `j`. -/
def orBytesLE.stores (offset : BitVec 32) (value : BitVec 64) (n j b : Nat) : Bool :=
  (List.range n).any fun i => (offset + BitVec.ofNat 32 i).toNat == j && value.getLsbD (i * 8 + b)

/-- Bit `p` of the little-endian word that starts at byte `offset`: bit `p % 8` of byte
`offset + p / 8`, with bytes past the end read as `0`. -/
def instBit (data : List (BitVec 8)) (offset p : Nat) : Bool :=
  (data.getD (offset + p / 8) 0).getLsbD (p % 8)

/-- The number whose bit `t` is `f t`, for `t < n`. -/
def bitsToNat (f : Nat → Bool) : Nat → Nat
  | 0 => 0
  | n + 1 => bitsToNat f n + (f n).toNat * 2 ^ n

/-- The field `inst[lo + len - 1 : lo]` of the little-endian word at `offset`, as a number. -/
def instField (data : List (BitVec 8)) (offset lo len : Nat) : Nat :=
  bitsToNat (fun t => instBit data offset (lo + t)) len

/-! ### The byte loop -/

@[simp] theorem length_orBytesLE (data : List (BitVec 8)) (offset : BitVec 32) (value : BitVec 64)
    (n : Nat) : (orBytesLE data offset value n).length = data.length := by
  induction n with
  | zero => rfl
  | succ n ih => simp [orBytesLE, ih]

/-- The low-bit masks of the source (`0x1`, `0x3f`, `0xff`, …), bit by bit. -/
theorem getLsbD_mask {w : Nat} (k m : Nat) (hm : m = 2 ^ k - 1) (b : Nat) :
    (BitVec.ofNat w m).getLsbD b = (decide (b < w) && decide (b < k)) := by
  rw [BitVec.getLsbD_ofNat, hm, Nat.testBit_two_pow_sub_one]

/-- The byte the loop stores at step `i`, bit by bit. -/
theorem getLsbD_storedByte (value : BitVec 64) (i b : Nat) :
    (((value >>> (i * 8)) &&& 0xff).setWidth 8).getLsbD b =
      (decide (b < 8) && value.getLsbD (i * 8 + b)) := by
  rw [BitVec.getLsbD_setWidth, BitVec.getLsbD_and, BitVec.ofNat_eq_ofNat, getLsbD_mask 8 255 rfl,
    BitVec.getLsbD_ushiftRight]
  by_cases hb : b < 8 <;> simp [hb, Nat.add_comm]
  omega

theorem getD_modify (l : List (BitVec 8)) (f : BitVec 8 → BitVec 8) (k j : Nat) :
    (l.modify f k).getD j 0 = if k = j ∧ j < l.length then f (l.getD j 0) else l.getD j 0 := by
  simp only [List.getD_eq_getElem?_getD, List.getElem?_modify]
  rcases Nat.lt_or_ge j l.length with hj | hj
  · simp [List.getElem?_eq_getElem hj, hj]
  · simp [List.getElem?_eq_none hj, Nat.not_lt.mpr hj]

/-- **The loop, bit by bit.** Bit `b` of byte `j` after the loop is the old bit, or-ed with a
`1` exactly when some step `i` stores one there. -/
theorem getLsbD_orBytesLE (data : List (BitVec 8)) (offset : BitVec 32) (value : BitVec 64)
    (n j b : Nat) :
    ((orBytesLE data offset value n).getD j 0).getLsbD b =
      ((data.getD j 0).getLsbD b ||
        (decide (j < data.length) && decide (b < 8) && orBytesLE.stores offset value n j b)) := by
  induction n with
  | zero => simp [orBytesLE, orBytesLE.stores]
  | succ n ih =>
    have hs : orBytesLE.stores offset value (n + 1) j b =
        (orBytesLE.stores offset value n j b ||
          ((offset + BitVec.ofNat 32 n).toNat == j && value.getLsbD (n * 8 + b))) := by
      simp only [orBytesLE.stores, List.range_succ, List.any_append, List.any_cons, List.any_nil,
        Bool.or_false]
    rw [orBytesLE, getD_modify, length_orBytesLE, hs]
    by_cases hk : (offset + BitVec.ofNat 32 n).toNat = j
    · by_cases hj : j < data.length
      · rw [if_pos ⟨hk, hj⟩, BitVec.getLsbD_or, ih, getLsbD_storedByte]
        simp only [hk, hj, beq_self_eq_true, Bool.true_and, decide_True]
        cases decide (b < 8) <;> cases (data.getD j 0).getLsbD b <;> simp
      · rw [if_neg (fun h => hj h.2), ih]
        simp [hj]
    · have hk' : ((offset + BitVec.ofNat 32 n).toNat == j) = false := by simpa using hk
      rw [if_neg (fun h => hk h.1), ih, hk', Bool.false_and, Bool.or_false]

theorem stores_iff_of_le {offset : BitVec 32} {value : BitVec 64} {n j b : Nat}
    (hw : offset.toNat + n ≤ 2 ^ 32) :
    orBytesLE.stores offset value n j b = true ↔
      offset.toNat ≤ j ∧ j < offset.toNat + n ∧ value.getLsbD ((j - offset.toNat) * 8 + b) = true := by
  have hidx : ∀ i < n, (offset + BitVec.ofNat 32 i).toNat = offset.toNat + i := fun i hi => by
    rw [BitVec.toNat_add, BitVec.toNat_ofNat, Nat.mod_eq_of_lt (a := i) (by omega),
      Nat.mod_eq_of_lt (by omega)]
  simp only [orBytesLE.stores, List.any_eq_true, List.mem_range, Bool.and_eq_true, beq_iff_eq]
  constructor
  · rintro ⟨i, hi, hj, hv⟩
    rw [hidx i hi] at hj
    subst hj
    exact ⟨by omega, by omega, by simpa using hv⟩
  · rintro ⟨h1, h2, hv⟩
    exact ⟨j - offset.toNat, by omega, by rw [hidx _ (by omega)]; omega, hv⟩

/-- **Frame.** When `Offset + i` does not wrap, bytes outside `[Offset, Offset + n)` are left
as they were. -/
theorem getD_orBytesLE_of_outside {data : List (BitVec 8)} {offset : BitVec 32}
    {value : BitVec 64} {n j : Nat} (hw : offset.toNat + n ≤ 2 ^ 32)
    (hj : j < offset.toNat ∨ offset.toNat + n ≤ j) :
    (orBytesLE data offset value n).getD j 0 = data.getD j 0 := by
  apply BitVec.eq_of_getLsbD_eq
  intro b
  have : orBytesLE.stores offset value n j b = false := by
    rw [Bool.eq_false_iff, ne_eq, stores_iff_of_le hw]
    omega
  rw [getLsbD_orBytesLE, this]
  simp

/-- **The word view.** When `Offset + i` does not wrap and the `n` bytes lie in the fragment,
bit `p < 8 n` of the word at `Offset` becomes the old bit or-ed with bit `p` of the value. -/
theorem instBit_orBytesLE {data : List (BitVec 8)} {offset : BitVec 32} {value : BitVec 64}
    {n p : Nat} (hw : offset.toNat + n ≤ 2 ^ 32) (hd : offset.toNat + n ≤ data.length)
    (hp : p < 8 * n) :
    instBit (orBytesLE data offset value n) offset.toNat p =
      (instBit data offset.toNat p || value.getLsbD p) := by
  have hst : orBytesLE.stores offset value n (offset.toNat + p / 8) (p % 8) = value.getLsbD p := by
    have hdm : p / 8 * 8 + p % 8 = p := Nat.div_add_mod' p 8
    have h8 : p / 8 < n := by omega
    rw [Bool.eq_iff_iff, stores_iff_of_le hw, Nat.add_sub_cancel_left, hdm]
    simp [h8]
  simp only [instBit, getLsbD_orBytesLE, hst, Nat.mod_lt p (by decide : 8 > 0), decide_True,
    Bool.true_and, show offset.toNat + p / 8 < data.length by omega]

/-- A value with no `1` among its low `8 n` bits leaves the fragment as it was. -/
theorem orBytesLE_of_getLsbD_eq_false {data : List (BitVec 8)} {offset : BitVec 32}
    {value : BitVec 64} {n : Nat} (h : ∀ q < 8 * n, value.getLsbD q = false) :
    orBytesLE data offset value n = data := by
  induction n with
  | zero => rfl
  | succ n ih =>
    have hbyte : ((value >>> (n * 8)) &&& 0xff).setWidth 8 = 0#8 := by
      apply BitVec.eq_of_getLsbD_eq
      intro b
      simp only [getLsbD_storedByte, BitVec.getLsbD_zero, Bool.and_eq_false_iff]
      exact .inr (h _ (by omega))
    rw [orBytesLE, ih (fun q hq => h q (by omega)), hbyte]
    exact (congrArg (List.modify · _ data) (funext fun x : BitVec 8 => BitVec.or_zero)).trans (List.modify_id _ data)

/-- The loop reads only the low `8 n` bits of the value. -/
theorem orBytesLE_congr {data : List (BitVec 8)} {offset : BitVec 32} {value value' : BitVec 64}
    {n : Nat} (h : ∀ q < 8 * n, value.getLsbD q = value'.getLsbD q) :
    orBytesLE data offset value n = orBytesLE data offset value' n := by
  induction n with
  | zero => rfl
  | succ n ih =>
    have hbyte : ((value >>> (n * 8)) &&& 0xff).setWidth 8 =
        ((value' >>> (n * 8)) &&& 0xff).setWidth 8 := by
      apply BitVec.eq_of_getLsbD_eq
      intro b
      simp only [getLsbD_storedByte]
      rcases Nat.lt_or_ge b.val 8 with hb | hb
      · rw [h _ (by omega)]
      · simp [show ¬ b.val < 8 by omega]
    rw [orBytesLE, orBytesLE, ih (fun q hq => h q (by omega)), hbyte]

/-! ### Zero fragments -/

theorem getD_replicate_zero (n j : Nat) : (List.replicate n (0 : BitVec 8)).getD j 0 = 0 := by
  rw [List.getD_eq_getElem?_getD, List.getElem?_replicate]
  split <;> rfl

theorem getLsbD_zero_byte (b : Nat) : (0 : BitVec 8).getLsbD b = false := Nat.zero_testBit b

theorem instBit_replicate_zero (n offset p : Nat) :
    instBit (List.replicate n 0) offset p = false := by
  rw [instBit, getD_replicate_zero, getLsbD_zero_byte]

/-- After the byte loop on a zero fragment, a bit is set exactly where the loop stores one. -/
theorem instBit_orBytesLE_replicate (n : Nat) (offset : BitVec 32) (value : BitVec 64)
    (m o p : Nat) :
    instBit (orBytesLE (List.replicate n 0) offset value m) o p =
      (decide (o + p / 8 < n) && decide (p % 8 < 8) &&
        orBytesLE.stores offset value m (o + p / 8) (p % 8)) := by
  rw [instBit, getLsbD_orBytesLE, getD_replicate_zero, getLsbD_zero_byte, Bool.false_or,
    List.length_replicate]

/-! ### Fields of an instruction word -/

theorem bitsToNat_congr {f g : Nat → Bool} {n : Nat} (h : ∀ t < n, f t = g t) :
    bitsToNat f n = bitsToNat g n := by
  induction n with
  | zero => rfl
  | succ n ih => simp only [bitsToNat, ih (fun t ht => h t (by omega)), h n (by omega)]

/-- Reading the bits `[lo, lo + n)` of a number gives its field `x / 2^lo % 2^n`. -/
theorem bitsToNat_testBit (x lo n : Nat) :
    bitsToNat (fun t => x.testBit (lo + t)) n = x / 2 ^ lo % 2 ^ n := by
  induction n with
  | zero => simp [bitsToNat, Nat.mod_one]
  | succ n ih =>
    rw [bitsToNat, ih, Nat.pow_succ, Nat.mod_mul, Nat.mul_comm (2 ^ n)]
    congr 2
    rw [Nat.testBit_to_div_mod, Nat.pow_add, ← Nat.div_div_eq_div_mul]
    rcases Nat.mod_two_eq_zero_or_one (x / 2 ^ lo / 2 ^ n) with h | h <;> simp [h]

end Keystone.MC
