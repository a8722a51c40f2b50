import Keystone.RISCV.Encoding

/-!
# What a RISC-V fixup changes

The frame of an instruction fixup (it changes only its immediate field), the reconstruction of a
value split into a `hi20` and a `lo12` part, and what the generic data kinds write.

All three are stated for fixups whose loop index `Offset + i` does not wrap past `2^32`. The
source computes that index in `unsigned` arithmetic; in a fragment longer than `2^32` bytes a
fixup within four bytes of `2^32` writes at the start of the fragment instead, which the
`…_wraps` theorems show.

## Main results

* `Keystone.RISCV.applyFixup_frame` — bytes outside the instruction and bits outside the
  immediate field keep their values, for every value.
* `Keystone.RISCV.hiLo_reconstruct` — `sext32(U[31:12] << 12) + sext12(lo)` is the value
  modulo `2^32`, and exactly when the value lies in `[-2^31 - 2^11, 2^31 - 2^11)`.
* `Keystone.RISCV.applyFixup_data` — a data fixup ors in the low four bytes of its value,
  whatever its size.
-/

namespace Keystone.RISCV

open MC

/-! ### The frame of an instruction fixup -/

/-- **Frame.** When the loop's index does not wrap, `applyFixup` on an instruction kind leaves
every byte outside `[Offset, Offset + getSize k)` as it was, and in the instruction at `Offset`
it changes no bit outside the kind's immediate field: opcode, register and funct bits keep
their values, for every value, in range or not. -/
theorem applyFixup_frame (k : Fixups) (value : BitVec 64) (offset : BitVec 32)
    (data : List (BitVec 8)) (hd : offset.toNat + getSize (.target k) ≤ data.length)
    (hw : offset.toNat + getSize (.target k) ≤ 2 ^ 32) :
    (∀ j, j < offset.toNat ∨ offset.toNat + getSize (.target k) ≤ j →
      (applyFixup ⟨offset, .target k⟩ data value).1.getD j 0 = data.getD j 0) ∧
    ∀ p < 8 * getSize (.target k), immField k p = false →
      instBit (applyFixup ⟨offset, .target k⟩ data value).1 offset.toNat p =
        instBit data offset.toNat p :=
  ⟨fun _ hj => getD_applyFixup_of_outside hw hj, fun p hp hf => by
    rw [instBit_applyFixup hw hd hp, layoutBit_eq_false_of_immField hf, Bool.or_false]⟩

/-- A `jal` to `+0x1000` in `jal x0`, whose opcode `0x6f` stays. -/
theorem applyFixup_frame_jal :
    (0 + getSize (.target .fixupRiscvJal) ≤ [0x6f, 0, 0, 0].length ∧
      0 + getSize (.target .fixupRiscvJal) ≤ 2 ^ 32) ∧
    ((∀ j, j < (0 : BitVec 32).toNat ∨ (0 : BitVec 32).toNat + getSize (.target .fixupRiscvJal) ≤ j →
      (applyFixup ⟨0, .target .fixupRiscvJal⟩ [0x6f, 0, 0, 0] 0x1000).1.getD j 0 =
        [0x6f, 0, 0, 0].getD j 0) ∧
    ∀ p < 8 * getSize (.target .fixupRiscvJal), immField .fixupRiscvJal p = false →
      instBit (applyFixup ⟨0, .target .fixupRiscvJal⟩ [0x6f, 0, 0, 0] 0x1000).1 0 p =
        instBit [0x6f, 0, 0, 0] 0 p) :=
  ⟨⟨by decide, by decide⟩, applyFixup_frame .fixupRiscvJal 0x1000 0 _ (by decide) (by decide)⟩

/-- **The loop index wraps.** In a fragment of `2^32 + 2` bytes, a `jal` fixup at offset
`2^32 - 2` lies inside the fragment, but its third byte goes to byte `0`. -/
theorem applyFixup_frame_wraps :
    (BitVec.ofNat 32 (2 ^ 32 - 2)).toNat + getSize (.target .fixupRiscvJal) ≤
        (List.replicate (2 ^ 32 + 2) (0 : BitVec 8)).length ∧
      (applyFixup ⟨BitVec.ofNat 32 (2 ^ 32 - 2), .target .fixupRiscvJal⟩
          (List.replicate (2 ^ 32 + 2) 0) 2).1.getD 0 0 ≠
        (List.replicate (2 ^ 32 + 2) (0 : BitVec 8)).getD 0 0 := by
  refine ⟨by rw [List.length_replicate]; decide, fun h => ?_⟩
  have h5 := congrArg (fun b => BitVec.getLsbD b 5) h
  simp only [applyFixup_fst, getLsbD_orBytesLE, getD_replicate_zero, List.length_replicate] at h5
  revert h5
  decide

/-! ### Splitting a value into `hi20` and `lo12` -/

open Fixups in
/-- The low part an I-type or an S-type instruction holds: `I[31:20]` for `fixup_riscv_lo12_i`,
`S[31:25]:S[11:7]` for `fixup_riscv_lo12_s`. -/
def loImm : Fixups → List (BitVec 8) → Nat → Nat
  | fixupRiscvLo12S, data, o => instField data o 25 7 * 2 ^ 5 + instField data o 7 5
  | _, data, o => instField data o 20 12

theorem loImm_lo12I (data : List (BitVec 8)) (o : Nat) :
    loImm .fixupRiscvLo12I data o = instField data o 20 12 := rfl

theorem loImm_lo12S (data : List (BitVec 8)) (o : Nat) :
    loImm .fixupRiscvLo12S data o = instField data o 25 7 * 2 ^ 5 + instField data o 7 5 := rfl

/-- When the field was zero, a run of a kind's layout reads back, after `applyFixup`, as the
operand bits it holds. -/
theorem instField_applyFixup {k : Fixups} {offset : BitVec 32} {data : List (BitVec 8)}
    (value : BitVec 64) (hw : offset.toNat + getSize (.target k) ≤ 2 ^ 32)
    (hd : offset.toNat + getSize (.target k) ≤ data.length)
    (hz : ∀ p, immField k p = true → instBit data offset.toNat p = false) {s : Segment}
    (hs : s ∈ (fieldLayout k).runs) (hlen : s.instLo + s.len ≤ 8 * getSize (.target k)) :
    instField (applyFixup ⟨offset, .target k⟩ data value).1 offset.toNat s.instLo s.len =
      (fieldOperand k value).toNat / 2 ^ s.srcLo % 2 ^ s.len := by
  rw [instField, ← bitsToNat_testBit]
  refine bitsToNat_congr fun t ht => ?_
  rw [instBit_applyFixup hw hd (by omega), hz _ (immField_of_mem_fieldLayout hs ht), Bool.false_or,
    layoutBit_of_mem (fieldLayout k).disjoint hs ht]
  rfl

/-- The arithmetic of the split: with `hi = (v + 0x800) / 2^12 mod 2^20` (a 64-bit sum) and
`lo = v mod 2^12`, `sext32(hi << 12) + sext12(lo)` is `v` modulo `2^32`, and is `v` itself when
`v` lies in `[-2^31 - 2^11, 2^31 - 2^11)`. -/
theorem hiLo_arith (v : BitVec 64) :
    let sum := (BitVec.ofNat 32 ((v + 0x800).toNat / 2 ^ 12 % 2 ^ 20 * 2 ^ 12)).toInt +
      (BitVec.ofNat 12 (v.toNat % 2 ^ 12)).toInt
    sum % 2 ^ 32 = v.toInt % 2 ^ 32 ∧
      (-2 ^ 31 - 2 ^ 11 ≤ v.toInt → v.toInt < 2 ^ 31 - 2 ^ 11 → sum = v.toInt) := by
  intro sum
  have hv := v.isLt
  simp only [sum, BitVec.toInt_eq_toNat_cond, BitVec.toNat_add, BitVec.ofNat_eq_ofNat,
    BitVec.toNat_ofNat, Nat.reducePow, Nat.reduceMod] at *
  generalize v.toNat = x at *
  split_ifs <;> omega

/-- **Hi/lo reconstruction.** Apply `fixup_riscv_hi20` (or `fixup_riscv_pcrel_hi20`) with a
value to a U-type word and `fixup_riscv_lo12_i` (or `fixup_riscv_lo12_s`) with the same value to
an I-type (or S-type) word, both fields zero before and neither loop index wrapping. Then
`sext32(U[31:12] << 12) + sext12(lo)` is the value modulo `2^32`, and, on RV64, exactly the
value when it lies in `[-2^31 - 2^11, 2^31 - 2^11)`.

**Proof sketch.** Each field reads back as the bits of its operand (`instField_applyFixup`);
the rest is `hiLo_arith`. -/
theorem hiLo_reconstruct {hi lo : Fixups}
    (hhi : hi = .fixupRiscvHi20 ∨ hi = .fixupRiscvPcrelHi20)
    (hlo : lo = .fixupRiscvLo12I ∨ lo = .fixupRiscvLo12S) (value : BitVec 64)
    {dataU dataL : List (BitVec 8)} {offsetU offsetL : BitVec 32}
    (hdU : offsetU.toNat + 4 ≤ dataU.length) (hwU : offsetU.toNat + 4 ≤ 2 ^ 32)
    (hdL : offsetL.toNat + 4 ≤ dataL.length) (hwL : offsetL.toNat + 4 ≤ 2 ^ 32)
    (hzU : ∀ p, immField hi p = true → instBit dataU offsetU.toNat p = false)
    (hzL : ∀ p, immField lo p = true → instBit dataL offsetL.toNat p = false) :
    let U := (applyFixup ⟨offsetU, .target hi⟩ dataU value).1
    let L := (applyFixup ⟨offsetL, .target lo⟩ dataL value).1
    let sum := (BitVec.ofNat 32 (instField U offsetU.toNat 12 20 * 2 ^ 12)).toInt +
      (BitVec.ofNat 12 (loImm lo L offsetL.toNat)).toInt
    sum % 2 ^ 32 = value.toInt % 2 ^ 32 ∧
      (-2 ^ 31 - 2 ^ 11 ≤ value.toInt → value.toInt < 2 ^ 31 - 2 ^ 11 → sum = value.toInt) := by
  have hU : instField (applyFixup ⟨offsetU, .target hi⟩ dataU value).1 offsetU.toNat 12 20 =
      (value + 0x800).toNat / 2 ^ 12 % 2 ^ 20 := by
    rcases hhi with rfl | rfl <;>
      exact instField_applyFixup value (s := ⟨12, 12, 20⟩) hwU hdU hzU (by decide) (by decide)
  have hL : loImm lo (applyFixup ⟨offsetL, .target lo⟩ dataL value).1 offsetL.toNat =
      value.toNat % 2 ^ 12 := by
    rcases hlo with rfl | rfl
    · rw [loImm_lo12I]
      simpa only [fieldOperand, Nat.pow_zero, Nat.div_one] using
        instField_applyFixup value (s := ⟨20, 0, 12⟩) hwL hdL hzL (by decide) (by decide)
    · rw [loImm_lo12S, instField_applyFixup value hwL hdL hzL (s := ⟨25, 5, 7⟩) (by decide) (by decide),
        instField_applyFixup value hwL hdL hzL (s := ⟨7, 0, 5⟩) (by decide) (by decide)]
      simp only [fieldOperand]
      omega
  simp only [hU, hL]
  exact hiLo_arith value

/-- `lui`/`addi` with `0x12345fff`: the low part is negative, the high part rounds up. -/
theorem hiLo_reconstruct_lui_addi :
    ((0 : BitVec 32).toNat + 4 ≤ [0, 0, 0, 0].length ∧ (0 : BitVec 32).toNat + 4 ≤ 2 ^ 32) ∧
    (let U := (applyFixup ⟨0, .target .fixupRiscvHi20⟩ [0, 0, 0, 0] 0x12345fff).1
     let L := (applyFixup ⟨0, .target .fixupRiscvLo12I⟩ [0, 0, 0, 0] 0x12345fff).1
     let sum := (BitVec.ofNat 32 (instField U 0 12 20 * 2 ^ 12)).toInt +
       (BitVec.ofNat 12 (loImm .fixupRiscvLo12I L 0)).toInt
     sum % 2 ^ 32 = (0x12345fff : BitVec 64).toInt % 2 ^ 32 ∧
      (-2 ^ 31 - 2 ^ 11 ≤ (0x12345fff : BitVec 64).toInt →
        (0x12345fff : BitVec 64).toInt < 2 ^ 31 - 2 ^ 11 → sum = (0x12345fff : BitVec 64).toInt)) :=
  ⟨⟨by decide, by decide⟩, hiLo_reconstruct (.inl rfl) (.inl rfl) 0x12345fff (by decide)
    (by decide) (by decide) (by decide) (fun p _ => instBit_replicate_zero 4 0 p)
    (fun p _ => instBit_replicate_zero 4 0 p)⟩

/-- **The loop index wraps.** A `hi20` fixup at offset `2^32 - 2` of a zero fragment of
`2^32 + 2` bytes puts the high part of `0x10000` at byte `0`: the U-type word reads `0`, and the
sum misses the value modulo `2^32`. -/
theorem hiLo_reconstruct_wraps :
    (BitVec.ofNat 32 (2 ^ 32 - 2)).toNat + 4 ≤ (List.replicate (2 ^ 32 + 2) (0 : BitVec 8)).length ∧
    (∀ p, immField .fixupRiscvHi20 p = true →
      instBit (List.replicate (2 ^ 32 + 2) 0) (BitVec.ofNat 32 (2 ^ 32 - 2)).toNat p = false) ∧
    ((BitVec.ofNat 32 (instField (applyFixup ⟨BitVec.ofNat 32 (2 ^ 32 - 2), .target .fixupRiscvHi20⟩
        (List.replicate (2 ^ 32 + 2) 0) 0x10000).1 (BitVec.ofNat 32 (2 ^ 32 - 2)).toNat 12 20 *
          2 ^ 12)).toInt +
      (BitVec.ofNat 12 (loImm .fixupRiscvLo12I
        (applyFixup ⟨0, .target .fixupRiscvLo12I⟩ [0, 0, 0, 0] 0x10000).1 0)).toInt) % 2 ^ 32 ≠
      (0x10000 : BitVec 64).toInt % 2 ^ 32 := by
  refine ⟨by rw [List.length_replicate]; decide, fun p _ => instBit_replicate_zero _ _ p, ?_⟩
  have hU : instField (applyFixup ⟨BitVec.ofNat 32 (2 ^ 32 - 2), .target .fixupRiscvHi20⟩
      (List.replicate (2 ^ 32 + 2) 0) 0x10000).1 (BitVec.ofNat 32 (2 ^ 32 - 2)).toNat 12 20 = 0 := by
    simp only [applyFixup_fst, instField, instBit_orBytesLE_replicate]
    decide
  rw [hU]
  decide

/-! ### Data fixups -/

/-- **Data fixups write four bytes.** `getSize` gives every data kind the width `4`, so a data
fixup ors the low four bytes of its value into `[Offset, Offset + 4)`, whatever its size, and
leaves every other byte. -/
theorem applyFixup_data (d : DataKind) (value : BitVec 64) (offset : BitVec 32)
    (data : List (BitVec 8)) (hw : offset.toNat + 4 ≤ 2 ^ 32) (j : Nat) :
    (applyFixup ⟨offset, .data d⟩ data value).1.getD j 0 =
      if offset.toNat ≤ j ∧ j < offset.toNat + 4 ∧ j < data.length then
        data.getD j 0 ||| ((value >>> ((j - offset.toNat) * 8)) &&& 0xff).setWidth 8
      else data.getD j 0 := by
  apply BitVec.eq_of_getLsbD_eq
  intro b
  have hst : orBytesLE.stores offset value 4 j b = true ↔ _ := stores_iff_of_le hw
  rw [applyFixup_fst, getLsbD_orBytesLE]
  simp only [storedValue, adjustFixupValue, getFixupKindInfo, DataKind.info, getSize,
    BitVec.shiftLeft_zero] at hst ⊢
  split_ifs with h
  · rw [BitVec.getLsbD_or, getLsbD_storedByte]
    by_cases hb : b.val < 8 <;> simp_all
  · have : ¬ (j < data.length ∧ orBytesLE.stores offset value 4 j b = true) := by
      rw [hst]; omega
    simp_all

/-- `FK_Data_1` with `Value = 0x100` at offset `0` of a zero word writes `1` into the byte after
the datum; `FK_Data_8` with `Value = 2^32` at offset `0` of eight zero bytes leaves byte `4` at `0`. -/
theorem applyFixup_data_ignores_size :
    (applyFixup ⟨0, .data .fkData1⟩ [0, 0, 0, 0] 0x100).1 = [0, 1, 0, 0] ∧
      (applyFixup ⟨0, .data .fkData8⟩ (List.replicate 8 0) 0x100000000).1 = List.replicate 8 0 :=
  ⟨by decide, by decide⟩

end Keystone.RISCV
