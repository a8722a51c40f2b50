import Keystone.RISCV.AsmBackend
import Keystone.SystemZ.AsmBackend

/-!
# NOP padding

`writeNopData(Count, OW)` fills a gap of `Count` bytes with no-ops, or returns `false` when the
target cannot. The RISC-V backend refuses a `Count` that is not a multiple of `4` and writes
`addi x0, x0, 0` words, `0x00000013`; the SystemZ backend writes `Count` bytes `0x07`, with no
check.

## Main results

* `Keystone.RISCV.writeNopLoop_eq`, `Keystone.SystemZ.writeNopLoop_eq` — each loop, from a
  counter on, writes the no-ops still due.
* `Keystone.writeNopData_fills` — what the two backends write, for every `Count`.
-/

namespace Keystone

namespace RISCV

/-- From a multiple `i ≤ Count` of `4`, with fuel for the rounds left, the loop writes
`(Count - i) / 4` words `0x13`. -/
theorem writeNopLoop_eq {count : BitVec 64} (hc : count.toNat % 4 = 0) :
    ∀ (fuel : Nat) (i : BitVec 64), i.toNat % 4 = 0 → i.toNat ≤ count.toNat →
      (count.toNat - i.toNat) / 4 ≤ fuel →
      writeNopLoop count fuel i =
        (List.replicate ((count.toNat - i.toNat) / 4) (write32 0x13)).flatten
  | 0, i, _, _, h => by rw [show (count.toNat - i.toNat) / 4 = 0 by omega]; rfl
  | fuel + 1, i, hi, hle, h => by
    rw [writeNopLoop]
    by_cases hlt : i.toNat < count.toNat
    · have hi4 : (i + 4).toNat = i.toNat + 4 :=
        BitVec.toNat_add_of_lt (show i.toNat + 4 < 2 ^ 64 by have := count.isLt; omega)
      rw [if_pos (BitVec.lt_def.mpr hlt), writeNopLoop_eq hc fuel (i + 4) (by omega) (by omega)
        (by omega), hi4, show (count.toNat - i.toNat) / 4 = (count.toNat - (i.toNat + 4)) / 4 + 1
        by omega, List.replicate_succ, List.flatten_cons]
    · rw [if_neg (fun h => hlt (BitVec.lt_def.mp h)), show (count.toNat - i.toNat) / 4 = 0 by omega]
      rfl

end RISCV

namespace SystemZ

/-- From `I` with `I + n = Count`, with fuel `n`, the loop writes `n` bytes `0x07`. -/
theorem writeNopLoop_eq (count : BitVec 64) :
    ∀ (n : Nat) (i : BitVec 64), i.toNat + n = count.toNat →
      writeNopLoop count n i = List.replicate n 7
  | 0, _, _ => rfl
  | n + 1, i, h => by
    have hne : i ≠ count := fun h' => by rw [h'] at h; omega
    have hi : (i + 1).toNat = i.toNat + 1 :=
      BitVec.toNat_add_of_lt (show i.toNat + 1 < 2 ^ 64 by have := count.isLt; omega)
    rw [writeNopLoop, if_pos hne, writeNopLoop_eq count n (i + 1) (by omega), List.replicate_succ]

end SystemZ

/-- **NOP padding fills the gap.** For every `Count`: the RISC-V `writeNopData` returns `false`
and writes nothing when `Count` is not a multiple of `4`, and otherwise returns `true` after
writing `Count / 4` little-endian words `0x00000013`, `Count` bytes in all; the SystemZ
`writeNopData` returns `true` after writing `Count` bytes `0x07`, whatever `Count` is. -/
theorem writeNopData_fills (count : BitVec 64) :
    RISCV.writeNopData count =
      (if count.toNat % 4 = 0 then (true, (List.replicate (count.toNat / 4) [0x13, 0, 0, 0]).flatten)
        else (false, [])) ∧
    (count.toNat % 4 = 0 → (RISCV.writeNopData count).2.length = count.toNat) ∧
    SystemZ.writeNopData count = (true, List.replicate count.toNat 7) := by
  have h0 : (0 : BitVec 64).toNat = 0 := rfl
  have hmod : (count % 4 ≠ 0) ↔ ¬count.toNat % 4 = 0 := by
    rw [ne_eq, BitVec.toNat_eq, BitVec.toNat_umod]
    rfl
  have hrv : RISCV.writeNopData count =
      (if count.toNat % 4 = 0 then (true, (List.replicate (count.toNat / 4) [0x13, 0, 0, 0]).flatten)
        else (false, [])) := by
    rw [RISCV.writeNopData]
    by_cases hc : count.toNat % 4 = 0
    · rw [if_neg (mt hmod.mp (not_not.mpr hc)), if_pos hc,
        RISCV.writeNopLoop_eq hc count.toNat 0 rfl (Nat.zero_le _) (Nat.div_le_self _ _), h0,
        Nat.sub_zero]
      rfl
    · rw [if_pos (hmod.mpr hc), if_neg hc]
  refine ⟨hrv, fun hc => ?_, by
    rw [SystemZ.writeNopData, SystemZ.writeNopLoop_eq count _ 0 (by rw [h0, Nat.zero_add])]⟩
  rw [hrv, if_pos hc, List.length_flatten, List.map_replicate, List.sum_replicate]
  simp only [List.length_cons, List.length_nil, smul_eq_mul]
  omega

/-- One byte of padding: SystemZ writes a single `0x07`, half a no-op, and returns `true`. -/
theorem writeNopData_systemZ_odd :
    (1 : BitVec 64).toNat % 2 = 1 ∧ SystemZ.writeNopData 1 = (true, [7]) := by
  decide

end Keystone
