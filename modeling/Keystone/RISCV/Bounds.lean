import Keystone.RISCV.AsmBackend
import Keystone.MC.Fragment

/-!
# Which bytes the RISC-V `applyFixup` touches

`RISCVAsmBackend::applyFixup` asserts `Offset + NumBytes <= Data.size()` with
`NumBytes = (TargetSize + 7) / 8`, and then runs its byte loop over `FullSize = getSize(Kind)`
bytes. The two counts differ: `getSize` is `4` for every kind but the compressed ones, whatever
the field's width.

## Main results

* `Keystone.RISCV.getD_applyFixup_of_not_mem_loopIndices` — the loop changes no byte outside
  `loopIndices`.
* `Keystone.RISCV.loopIndices_lt_length_iff` — the assert keeps the loop inside the fragment
  for a kind exactly when `getSize(Kind) ≤ NumBytes`.
* `Keystone.RISCV.applyFixup_loop_past_end` — both, with `FK_Data_1` and `fixup_riscv_jal` at
  the end of a fragment: the assert holds and the loop indexes past the end.
-/

namespace Keystone.RISCV

open MC

/-- **Footprint.** `applyFixup` changes no byte outside `loopIndices`. -/
theorem getD_applyFixup_of_not_mem_loopIndices {fixup : MCFixup FixupKind}
    {data : List (BitVec 8)} {value : BitVec 64} {j : Nat} (hj : j ∉ loopIndices fixup value) :
    (applyFixup fixup data value).1.getD j 0 = data.getD j 0 := by
  by_cases h0 : value = 0
  · rw [applyFixup, if_pos h0]
  rw [applyFixup, if_neg h0]
  refine BitVec.eq_of_getLsbD_eq fun b => ?_
  have hs : orBytesLE.stores fixup.offset (storedValue fixup.kind value) (getSize fixup.kind) j b =
      false := by
    rw [Bool.eq_false_iff, ne_eq, orBytesLE.stores, List.any_eq_true]
    rintro ⟨i, hi, hij⟩
    simp only [Bool.and_eq_true, beq_iff_eq] at hij
    refine hj ?_
    simp only [loopIndices, if_neg h0, List.mem_map, List.mem_range]
    exact ⟨i, List.mem_range.mp hi, hij.1⟩
  rw [getLsbD_orBytesLE, hs]
  simp

/-- **The assert bounds the loop exactly for the kinds whose loop is no wider than their
field.** For a kind, every index of the loop lies inside every fragment that passes the assert
`Offset + NumBytes ≤ |Data|`, for every value, if and only if `getSize(Kind) ≤ NumBytes`. -/
theorem loopIndices_lt_length_iff (kind : FixupKind) :
    (∀ (offset : BitVec 32) (value : BitVec 64) (data : List (BitVec 8)),
      offset.toNat + numBytes kind ≤ data.length →
        ∀ j ∈ loopIndices ⟨offset, kind⟩ value, j < data.length) ↔
      getSize kind ≤ numBytes kind := by
  have hsize := getSize_le_four kind
  constructor
  · intro h
    by_contra hlt
    have hmem : getSize kind - 1 ∈ loopIndices ⟨0, kind⟩ 1 := by
      rw [loopIndices, if_neg (by decide)]
      simp only [List.mem_map, List.mem_range]
      exact ⟨getSize kind - 1, by omega, by simp; omega⟩
    have := h 0 1 (List.replicate (numBytes kind) 0) (by simp) _ hmem
    simp at this
    omega
  · intro hle offset value data hd j hj
    simp only [loopIndices] at hj
    split_ifs at hj
    · simp at hj
    · obtain ⟨i, hi, rfl⟩ := List.mem_map.mp hj
      rw [List.mem_range] at hi
      rw [BitVec.toNat_add, BitVec.toNat_ofNat]
      have := Nat.mod_le (offset.toNat + i % 2 ^ 32) (2 ^ 32)
      have := Nat.mod_le i (2 ^ 32)
      omega

/-- **The loop runs past the end of the fragment.** The loop changes no byte outside
`loopIndices`, and the assert `Offset + NumBytes ≤ |Data|` keeps `loopIndices` inside every
fragment exactly for the kinds with `getSize(Kind) ≤ NumBytes`. `FK_Data_1` at offset `0` of a
one-byte fragment, and `fixup_riscv_jal` at offset `1` of a four-byte one, pass the assert
(`0 + 1 ≤ 1`, `1 + 3 ≤ 4`), but the loop touches the four bytes from the offset: `1`, `2`, `3`
and `4` lie past the end. -/
theorem applyFixup_loop_past_end :
    (∀ (fixup : MCFixup FixupKind) (data : List (BitVec 8)) (value : BitVec 64) (j : Nat),
      j ∉ loopIndices fixup value → (applyFixup fixup data value).1.getD j 0 = data.getD j 0) ∧
    (∀ kind : FixupKind,
      (∀ (offset : BitVec 32) (value : BitVec 64) (data : List (BitVec 8)),
        offset.toNat + numBytes kind ≤ data.length →
          ∀ j ∈ loopIndices ⟨offset, kind⟩ value, j < data.length) ↔
        getSize kind ≤ numBytes kind) ∧
    ((0 : BitVec 32).toNat + numBytes (.data .fkData1) ≤ [(0 : BitVec 8)].length ∧
      loopIndices ⟨0, .data .fkData1⟩ 1 = [0, 1, 2, 3]) ∧
    ((1 : BitVec 32).toNat + numBytes (.target .fixupRiscvJal) ≤ [(0x6f : BitVec 8), 0, 0, 0].length ∧
      loopIndices ⟨1, .target .fixupRiscvJal⟩ 0x1000 = [1, 2, 3, 4]) :=
  ⟨fun _ _ _ _ => getD_applyFixup_of_not_mem_loopIndices, loopIndices_lt_length_iff,
    by decide, by decide⟩

end Keystone.RISCV
