import Keystone.SystemZ.AsmBackend
import Keystone.MC.Fragment

/-!
# What the SystemZ `applyFixup` writes

`SystemZMCAsmBackend::applyFixup` ors the `Size = (TargetSize + 7) / 8` low bytes of
`extractBitsForFixup(Kind, Value)` into `Data[Offset, Offset + Size)`, most significant first,
after a guard that compares `Offset + Size` with `Data.size()`. Both sums, `Offset + Size` in the
guard and `Offset + I` in the loop, are `unsigned` and wrap at `2^32`.

## Main definitions

* `Keystone.SystemZ.readBE` — a field of the fragment read back big-endian.

## Main results

* `Keystone.SystemZ.applyFixup_bigEndian` — when `Offset + Size` does not wrap, the bytes of the
  field are or-ed with the value's bytes, most significant first, and no other byte changes;
  for `FK_390_PC16DBL` and `FK_390_PC32DBL` the field read back, sign extended and doubled, is
  the value.
* `Keystone.SystemZ.applyFixup_pcDBL` — the PC-relative kinds check nothing of the value: they
  are `FK_Data_2` and `FK_Data_4` on `(int64_t)Value / 2`.
* `Keystone.SystemZ.getD_applyFixup_of_not_mem` — the loop writes the bytes of
  `writtenIndices` and no others; `writtenIndices_lt_length` — inside the fragment, when the
  guard's sum does not wrap.
* `Keystone.SystemZ.applyFixup_guard_wraps` — both, and when the sum wraps, the guard lets
  through a fixup past the end of the fragment.
-/

namespace Keystone.SystemZ

open MC

/-- The `n` bytes of `data` from `o`, read as a big-endian number. -/
def readBE (data : List (BitVec 8)) (o : Nat) : Nat → Nat
  | 0 => 0
  | n + 1 => readBE data o n * 256 + (data.getD (o + n) 0).toNat

/-- Bytes that hold the big-endian digits of `x` read back as `x` modulo `2^(8 n)`. -/
theorem readBE_of_digits {data : List (BitVec 8)} {o : Nat} :
    ∀ {n x : Nat}, (∀ t < n, (data.getD (o + t) 0).toNat = x / 2 ^ (8 * (n - 1 - t)) % 256) →
      readBE data o n = x % 2 ^ (8 * n)
  | 0, _, _ => by simp [readBE, Nat.mod_one]
  | n + 1, x, h => by
    have hlow : readBE data o n = x / 256 % 2 ^ (8 * n) := readBE_of_digits fun t ht => by
      rw [h t (by omega), Nat.div_div_eq_div_mul, show 8 * (n + 1 - 1 - t) = 8 + 8 * (n - 1 - t) by
        omega, pow_add]
      rfl
    rw [readBE, hlow, h n (by omega), show 8 * (n + 1 - 1 - n) = 0 by omega, pow_zero,
      Nat.div_one, show 8 * (n + 1) = 8 + 8 * n by omega, pow_add, Nat.mod_mul,
      show (2 : Nat) ^ 8 = 256 by rfl]
    omega

/-- `(int64_t)Value / 2` rounds toward zero. -/
theorem toInt_sdiv_two (x : BitVec 64) : (x.sdiv 2).toInt = x.toInt.tdiv 2 := by
  have tdiv_two (a : Int) : a.tdiv 2 = if 0 ≤ a then a / 2 else -((-a) / 2) := by
    rcases a with m | m
    · simp [Int.tdiv]
    · simp only [Int.tdiv, Int.negSucc_eq, Int.ofNat_eq_coe, Int.ofNat_ediv, neg_neg]
      omega
  have hx := x.isLt
  have h2 : BitVec.toNat (2 : BitVec 64) = 2 := rfl
  rw [BitVec.sdiv_eq, show (2 : BitVec 64).msb = false by decide, tdiv_two,
    BitVec.toInt_eq_toNat_cond x]
  cases hm : x.msb <;> rw [BitVec.msb_eq_decide] at hm
  · simp only [decide_eq_false_iff_not] at hm
    rw [if_pos (by omega), if_pos (by omega), BitVec.toInt_eq_toNat_cond, BitVec.udiv_eq,
      BitVec.toNat_udiv, h2, if_pos (by omega)]
    omega
  · simp only [decide_eq_true_eq] at hm
    rw [if_neg (by omega), if_neg (by omega), BitVec.toInt_eq_toNat_cond]
    simp only [BitVec.udiv_eq, BitVec.toNat_udiv, BitVec.toNat_neg, h2]
    split_ifs <;> omega

theorem fixupSize_le_eight (kind : FixupKind) : fixupSize kind ≤ 8 := by
  rcases kind with k | k <;> cases k <;> decide

/-! ### The loop -/

theorem shiftValue_sub_eight (shiftValue : BitVec 32) (k : Nat) :
    shiftValue - 8 - BitVec.ofNat 32 (8 * k) = shiftValue - BitVec.ofNat 32 (8 * (k + 1)) := by
  rw [Nat.mul_succ, ← BitVec.ofNat_add_ofNat, sub_sub, add_comm]
  rfl

/-- **The loop, byte by byte.** While neither `I` nor `Offset + I` wraps, byte `j` is or-ed with
the byte of the value at `ShiftValue` less `8` per step before it reaches `j`. -/
theorem getD_orBytesBE {offset : BitVec 32} {value : BitVec 64} {n : Nat} :
    ∀ {i shiftValue : BitVec 32} {data : List (BitVec 8)} {j : Nat},
      i.toNat + n < 2 ^ 32 → offset.toNat + i.toNat + n ≤ 2 ^ 32 →
      (orBytesBE offset value n i shiftValue data).getD j 0 =
        if offset.toNat + i.toNat ≤ j ∧ j < offset.toNat + i.toNat + n ∧ j < data.length then
          data.getD j 0 ||| (value >>> (shiftValue -
            BitVec.ofNat 32 (8 * (j - offset.toNat - i.toNat))).toNat).setWidth 8
        else data.getD j 0 := by
  induction n with
  | zero => intro i shiftValue data j _ _; rw [orBytesBE, if_neg (by omega)]
  | succ n ih =>
    intro i shiftValue data j hn hw
    have hi : (i + 1).toNat = i.toNat + 1 :=
      BitVec.toNat_add_of_lt (show i.toNat + 1 < 2 ^ 32 by omega)
    have hoi : (offset + i).toNat = offset.toNat + i.toNat := BitVec.toNat_add_of_lt (by omega)
    rw [orBytesBE, ih (by omega) (by omega), List.length_modify, getD_modify, hoi, hi]
    by_cases hj : j = offset.toNat + i.toNat
    · subst hj
      rw [if_neg (by omega)]
      by_cases hl : offset.toNat + i.toNat < data.length
      · rw [if_pos ⟨rfl, hl⟩, if_pos ⟨le_rfl, by omega, hl⟩,
          show offset.toNat + i.toNat - offset.toNat - i.toNat = 0 by omega, Nat.mul_zero,
          BitVec.sub_zero]
      · rw [if_neg fun h => hl h.2, if_neg fun h => hl h.2.2]
    · rw [if_neg (show ¬(offset.toNat + i.toNat = j ∧ j < data.length) from fun h => hj h.1.symm)]
      by_cases hr : offset.toNat + (i.toNat + 1) ≤ j ∧ j < offset.toNat + (i.toNat + 1) + n ∧
          j < data.length
      · rw [if_pos hr, if_pos (by omega), show j - offset.toNat - i.toNat =
          (j - offset.toNat - (i.toNat + 1)) + 1 by omega, shiftValue_sub_eight]
      · rw [if_neg hr, if_neg (by omega)]

/-- The loop leaves every byte it does not index as it was, wrap or not. -/
theorem getD_orBytesBE_of_ne {offset : BitVec 32} {value : BitVec 64} {n : Nat} :
    ∀ {i shiftValue : BitVec 32} {data : List (BitVec 8)} {j : Nat},
      (∀ t < n, (offset + i + BitVec.ofNat 32 t).toNat ≠ j) →
      (orBytesBE offset value n i shiftValue data).getD j 0 = data.getD j 0 := by
  induction n with
  | zero => intro _ _ _ _ _; rfl
  | succ n ih =>
    intro i shiftValue data j h
    have hnext : ∀ t < n, (offset + (i + 1) + BitVec.ofNat 32 t).toNat ≠ j := fun t ht => by
      rw [add_assoc, add_assoc, BitVec.ofNat_eq_ofNat, BitVec.ofNat_add_ofNat, Nat.add_comm,
        ← add_assoc]
      exact h (t + 1) (by omega)
    have hi : (offset + i).toNat ≠ j := by simpa using h 0 (by omega)
    rw [orBytesBE, ih hnext, getD_modify, if_neg fun h' => hi h'.1]

/-! ### `applyFixup` -/

/-- The shift of step `t` counts down from `(Size - 1) * 8`. -/
theorem toNat_shiftValue {size t : Nat} (hs : size ≤ 8) (ht : t < size) :
    (BitVec.ofNat 32 size * 8 - 8 - BitVec.ofNat 32 (8 * t)).toNat = 8 * (size - 1 - t) := by
  have h8 : (8 : BitVec 32).toNat = 8 := rfl
  simp only [BitVec.toNat_sub, BitVec.toNat_mul, BitVec.toNat_ofNat, h8,
    Nat.mod_eq_of_lt (show size < 2 ^ 32 by omega), Nat.mod_eq_of_lt (show 8 * t < 2 ^ 32 by omega),
    Nat.mod_eq_of_lt (show size * 8 < 2 ^ 32 by omega)]
  omega

/-- **Big-endian insertion.** When `Offset + Size` does not wrap, `applyFixup` ors byte
`Size - 1 - t` of the extracted bits into byte `Offset + t`, for `t < Size`, and changes no other
byte. -/
theorem getD_applyFixup {fixup : MCFixup FixupKind} {data : List (BitVec 8)} {value : BitVec 64}
    (hd : fixup.offset.toNat + fixupSize fixup.kind ≤ data.length)
    (hw : fixup.offset.toNat + fixupSize fixup.kind ≤ 2 ^ 32) (j : Nat) :
    (applyFixup fixup data value).2 = none ∧
    (applyFixup fixup data value).1.getD j 0 =
      if fixup.offset.toNat ≤ j ∧ j < fixup.offset.toNat + fixupSize fixup.kind then
        data.getD j 0 ||| (extractBitsForFixup fixup.kind value >>>
          (8 * (fixup.offset.toNat + fixupSize fixup.kind - 1 - j))).setWidth 8
      else data.getD j 0 := by
  have hs := fixupSize_le_eight fixup.kind
  have hsize : (BitVec.ofNat 32 (fixupSize fixup.kind)).toNat = fixupSize fixup.kind :=
    Nat.mod_eq_of_lt (by omega)
  have hguard : ¬(fixup.offset + BitVec.ofNat 32 (fixupSize fixup.kind)).toNat > data.length := by
    rw [BitVec.toNat_add, hsize]
    exact Nat.not_lt.mpr ((Nat.mod_le _ _).trans hd)
  rw [applyFixup_eq, if_neg hguard, hsize]
  refine ⟨rfl, ?_⟩
  have h0 : (0 : BitVec 32).toNat = 0 := rfl
  rw [getD_orBytesBE (by rw [h0]; omega) (by rw [h0]; omega), h0, Nat.add_zero, Nat.sub_zero]
  by_cases hj : fixup.offset.toNat ≤ j ∧ j < fixup.offset.toNat + fixupSize fixup.kind
  · rw [if_pos ⟨hj.1, hj.2, by omega⟩, if_pos hj, toNat_shiftValue hs (by omega)]
    congr 3
    omega
  · rw [if_neg (fun h => hj ⟨h.1, h.2.1⟩), if_neg hj]

/-- The PC-relative kinds install `(int64_t)Value / 2`, in a field of `16` or `32` bits. -/
theorem extractBitsForFixup_pcDBL {kind : FixupKind}
    (hk : kind = .target .fk390PC16DBL ∨ kind = .target .fk390PC32DBL) (value : BitVec 64) :
    extractBitsForFixup kind value = value.sdiv 2 ∧ 0 < 8 * fixupSize kind ∧
      8 * fixupSize kind < 64 := by
  rcases hk with rfl | rfl <;> exact ⟨rfl, by decide, by decide⟩

/-- **Round trip.** In a zero field, a `FK_390_PC16DBL` or `FK_390_PC32DBL` fixup of an even
value whose half fits the field reads back, sign extended and doubled, as the value. -/
theorem readBE_applyFixup {fixup : MCFixup FixupKind} {data : List (BitVec 8)}
    {value : BitVec 64} (hd : fixup.offset.toNat + fixupSize fixup.kind ≤ data.length)
    (hw : fixup.offset.toNat + fixupSize fixup.kind ≤ 2 ^ 32)
    (hk : fixup.kind = .target .fk390PC16DBL ∨ fixup.kind = .target .fk390PC32DBL)
    (he : value.toNat % 2 = 0) (hr : isInt (8 * fixupSize fixup.kind) (value.sdiv 2) = true)
    (hz : ∀ t < fixupSize fixup.kind, data.getD (fixup.offset.toNat + t) 0 = 0) :
    (BitVec.ofNat (8 * fixupSize fixup.kind) (readBE (applyFixup fixup data value).1
      fixup.offset.toNat (fixupSize fixup.kind))).toInt * 2 = value.toInt := by
  obtain ⟨hE, hN0, hN64⟩ := extractBitsForFixup_pcDBL hk value
  have hzero : ∀ b : BitVec 8, (0 : BitVec 8) ||| b = b := fun _ => BitVec.zero_or
  have hread : readBE (applyFixup fixup data value).1 fixup.offset.toNat (fixupSize fixup.kind) =
      (value.sdiv 2).toNat % 2 ^ (8 * fixupSize fixup.kind) := readBE_of_digits fun t ht => by
    rw [(getD_applyFixup hd hw _).2, if_pos ⟨by omega, by omega⟩, hz t ht, hE, hzero,
      BitVec.toNat_setWidth, BitVec.toNat_ushiftRight, Nat.shiftRight_eq_div_pow,
      show fixup.offset.toNat + fixupSize fixup.kind - 1 - (fixup.offset.toNat + t) =
        fixupSize fixup.kind - 1 - t by omega]
  have hset : BitVec.ofNat (8 * fixupSize fixup.kind)
      ((value.sdiv 2).toNat % 2 ^ (8 * fixupSize fixup.kind)) =
        (value.sdiv 2).setWidth (8 * fixupSize fixup.kind) :=
    BitVec.eq_of_toNat_eq (by simp)
  have h2 : (2 : Int) ∣ value.toInt := by
    rw [BitVec.toInt_eq_toNat_cond]
    split_ifs <;> omega
  rw [hread, hset, toInt_setWidth_of_isInt hN0 hN64 hr, toInt_sdiv_two, Int.tdiv_mul_cancel h2]

/-- **`applyFixup` inserts big-endian.** For every SystemZ kind, value and fragment with
`Offset + Size ≤ |Data|`, when `Offset + Size` does not pass `2^32`: `applyFixup` reports no
error, keeps the fragment's length, ors byte `Size - 1 - t` of `extractBitsForFixup(Kind, Value)`
into byte `Offset + t` for `t < Size`, most significant first, and changes no other byte. For
`FK_390_PC16DBL` and `FK_390_PC32DBL`, an even value whose half fits the field, in a zero field,
reads back big-endian, sign extended and doubled, as the value. -/
theorem applyFixup_bigEndian (fixup : MCFixup FixupKind) (data : List (BitVec 8))
    (value : BitVec 64) (hd : fixup.offset.toNat + fixupSize fixup.kind ≤ data.length)
    (hw : fixup.offset.toNat + fixupSize fixup.kind ≤ 2 ^ 32) :
    (applyFixup fixup data value).2 = none ∧
    (applyFixup fixup data value).1.length = data.length ∧
    (∀ j, (applyFixup fixup data value).1.getD j 0 =
      if fixup.offset.toNat ≤ j ∧ j < fixup.offset.toNat + fixupSize fixup.kind then
        data.getD j 0 ||| (extractBitsForFixup fixup.kind value >>>
          (8 * (fixup.offset.toNat + fixupSize fixup.kind - 1 - j))).setWidth 8
      else data.getD j 0) ∧
    ((fixup.kind = .target .fk390PC16DBL ∨ fixup.kind = .target .fk390PC32DBL) →
      value.toNat % 2 = 0 → isInt (8 * fixupSize fixup.kind) (value.sdiv 2) = true →
      (∀ t < fixupSize fixup.kind, data.getD (fixup.offset.toNat + t) 0 = 0) →
      (BitVec.ofNat (8 * fixupSize fixup.kind) (readBE (applyFixup fixup data value).1
        fixup.offset.toNat (fixupSize fixup.kind))).toInt * 2 = value.toInt) := by
  obtain ⟨_, hmask⟩ := isOrMerge_applyFixup fixup value
  exact ⟨(getD_applyFixup hd hw 0).1, (hmask data).1, fun j => (getD_applyFixup hd hw j).2,
    readBE_applyFixup hd hw⟩

/-- A `FK_390_PC16DBL` fixup of `-4` in a zero halfword: the field holds `-2`, `0xfffe`. -/
theorem applyFixup_bigEndian_pc16DBL :
    ((0 : BitVec 32).toNat + fixupSize (.target .fk390PC16DBL) ≤ [(0 : BitVec 8), 0].length ∧
      (0 : BitVec 32).toNat + fixupSize (.target .fk390PC16DBL) ≤ 2 ^ 32) ∧
    (applyFixup ⟨0, .target .fk390PC16DBL⟩ [0, 0] (-4)).2 = none ∧
    (applyFixup ⟨0, .target .fk390PC16DBL⟩ [0, 0] (-4)).1.length = [(0 : BitVec 8), 0].length ∧
    (∀ j, (applyFixup ⟨0, .target .fk390PC16DBL⟩ [0, 0] (-4)).1.getD j 0 =
      if (0 : BitVec 32).toNat ≤ j ∧ j < (0 : BitVec 32).toNat + fixupSize (.target .fk390PC16DBL)
      then [(0 : BitVec 8), 0].getD j 0 ||| (extractBitsForFixup (.target .fk390PC16DBL) (-4) >>>
          (8 * ((0 : BitVec 32).toNat + fixupSize (.target .fk390PC16DBL) - 1 - j))).setWidth 8
      else [(0 : BitVec 8), 0].getD j 0) ∧
    ((MCFixupKind.target Fixups.fk390PC16DBL = .target .fk390PC16DBL ∨
        MCFixupKind.target Fixups.fk390PC16DBL = .target .fk390PC32DBL) →
      (-4 : BitVec 64).toNat % 2 = 0 →
      isInt (8 * fixupSize (.target .fk390PC16DBL)) ((-4 : BitVec 64).sdiv 2) = true →
      (∀ t < fixupSize (.target .fk390PC16DBL),
        [(0 : BitVec 8), 0].getD ((0 : BitVec 32).toNat + t) 0 = 0) →
      (BitVec.ofNat (8 * fixupSize (.target .fk390PC16DBL))
        (readBE (applyFixup ⟨0, .target .fk390PC16DBL⟩ [0, 0] (-4)).1 (0 : BitVec 32).toNat
          (fixupSize (.target .fk390PC16DBL)))).toInt * 2 = (-4 : BitVec 64).toInt) :=
  ⟨⟨by decide, by decide⟩, applyFixup_bigEndian ⟨0, .target .fk390PC16DBL⟩ [0, 0] (-4)
    (by decide) (by decide)⟩

/-- **The loop index wraps.** In a zero fragment of `2^32 + 1` bytes, a `FK_390_PC16DBL` fixup
at offset `2^32 - 1` lies inside the fragment, but the low byte of its field goes to byte `0`. -/
theorem applyFixup_bigEndian_wraps :
    (0xFFFFFFFF : BitVec 32).toNat + fixupSize (.target .fk390PC16DBL) ≤
        (List.replicate (2 ^ 32 + 1) (0 : BitVec 8)).length ∧
      (applyFixup ⟨0xFFFFFFFF, .target .fk390PC16DBL⟩ (List.replicate (2 ^ 32 + 1) 0)
        0x202).1.getD 0 0 = 1 := by
  refine ⟨by rw [List.length_replicate]; decide, ?_⟩
  rw [applyFixup_eq, if_neg (by rw [List.length_replicate]; decide),
    show (BitVec.ofNat 32 (fixupSize (.target .fk390PC16DBL))).toNat = 2 from rfl]
  simp only [orBytesBE, getD_modify, List.length_modify, List.length_replicate,
    getD_replicate_zero]
  decide

/-! ### No value check -/

/-- **The PC-relative kinds check nothing of the value.** `FK_390_PC16DBL` and `FK_390_PC32DBL`
behave as `FK_Data_2` and `FK_Data_4` on `(int64_t)Value / 2`, which rounds toward zero; and
every kind reports `KS_ERR_ASM_FIXUP_INVALID` exactly when the guard fails, whatever the value.
An odd value, or one whose half lies outside the field, is written truncated, with no error. -/
theorem applyFixup_pcDBL (offset : BitVec 32) (data : List (BitVec 8)) (value : BitVec 64) :
    applyFixup ⟨offset, .target .fk390PC16DBL⟩ data value =
      applyFixup ⟨offset, .data .fkData2⟩ data (value.sdiv 2) ∧
    applyFixup ⟨offset, .target .fk390PC32DBL⟩ data value =
      applyFixup ⟨offset, .data .fkData4⟩ data (value.sdiv 2) ∧
    (value.sdiv 2).toInt = value.toInt.tdiv 2 ∧
    ∀ kind : FixupKind, (applyFixup ⟨offset, kind⟩ data value).2 =
      if (offset + BitVec.ofNat 32 (fixupSize kind)).toNat > data.length then
        some .ksErrAsmFixupInvalid
      else none := by
  refine ⟨rfl, rfl, toInt_sdiv_two value, fun kind => ?_⟩
  rw [applyFixup_eq]
  split_ifs <;> rfl

/-- An odd `FK_390_PC16DBL` value, `3`, and one whose half does not fit `16` bits, `0x20000`:
no error, and the first writes `1` where the second writes `0`. -/
theorem applyFixup_pc16DBL_unchecked :
    (3 : BitVec 64).toNat % 2 = 1 ∧
      applyFixup ⟨0, .target .fk390PC16DBL⟩ [0, 0] 3 = ([0, 1], none) ∧
    isInt 16 ((0x20000 : BitVec 64).sdiv 2) = false ∧
      applyFixup ⟨0, .target .fk390PC16DBL⟩ [0, 0] 0x20000 = ([0, 0], none) := by
  decide

/-! ### The guard -/

/-- **Footprint.** `applyFixup` changes no byte outside `writtenIndices`. -/
theorem getD_applyFixup_of_not_mem {fixup : MCFixup FixupKind} {data : List (BitVec 8)}
    {value : BitVec 64} {j : Nat} (hj : j ∉ writtenIndices fixup data) :
    (applyFixup fixup data value).1.getD j 0 = data.getD j 0 := by
  rw [applyFixup_eq]
  split_ifs with hg
  · rfl
  · refine getD_orBytesBE_of_ne fun t ht heq => hj ?_
    simp only [writtenIndices, if_neg hg, List.mem_map, List.mem_range]
    exact ⟨t, ht, by rwa [add_zero] at heq⟩

/-- **The guard is sound while its sum does not wrap**: when `Offset + Size < 2^32`, every byte
the loop writes lies inside the fragment. -/
theorem writtenIndices_lt_length {fixup : MCFixup FixupKind} {data : List (BitVec 8)}
    (hw : fixup.offset.toNat + fixupSize fixup.kind < 2 ^ 32) :
    ∀ j ∈ writtenIndices fixup data, j < data.length := by
  have hs := fixupSize_le_eight fixup.kind
  have hsize : (BitVec.ofNat 32 (fixupSize fixup.kind)).toNat = fixupSize fixup.kind :=
    Nat.mod_eq_of_lt (by omega)
  simp only [writtenIndices]
  split_ifs with hg
  · simp
  · simp only [List.mem_map, List.mem_range, hsize]
    rintro j ⟨t, ht, rfl⟩
    rw [BitVec.toNat_add_of_lt (by rw [hsize]; omega), hsize] at hg
    rw [BitVec.toNat_add, BitVec.toNat_ofNat]
    omega

/-- **The guard wraps.** The loop writes the bytes of `writtenIndices` and no others, all inside
the fragment while `Offset + Size < 2^32`. A `FK_390_PC16DBL` fixup at offset `0xFFFFFFFF` of a
fragment of four bytes passes the guard, `(Offset + 2) % 2^32 = 1 ≤ 4`: no error, the loop
writes byte `0xFFFFFFFF`, past the end, and then byte `0`. -/
theorem applyFixup_guard_wraps :
    (∀ (fixup : MCFixup FixupKind) (data : List (BitVec 8)) (value : BitVec 64) (j : Nat),
      j ∉ writtenIndices fixup data → (applyFixup fixup data value).1.getD j 0 = data.getD j 0) ∧
    (∀ (fixup : MCFixup FixupKind) (data : List (BitVec 8)),
      fixup.offset.toNat + fixupSize fixup.kind < 2 ^ 32 →
        ∀ j ∈ writtenIndices fixup data, j < data.length) ∧
    applyFixup ⟨0xFFFFFFFF, .target .fk390PC16DBL⟩ [0, 0, 0, 0] 2 = ([1, 0, 0, 0], none) ∧
    writtenIndices ⟨0xFFFFFFFF, .target .fk390PC16DBL⟩ [0, 0, 0, 0] = [0xFFFFFFFF, 0] :=
  ⟨fun _ _ _ _ => getD_applyFixup_of_not_mem, fun _ _ => writtenIndices_lt_length,
    by decide, by decide⟩

end Keystone.SystemZ
