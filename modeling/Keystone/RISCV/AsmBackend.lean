import Keystone.MC.FixupKind
import Keystone.MC.OrMerge

/-!
# The RISC-V assembler backend

`RISCVAsmBackend.cpp` (`src/unnamed/part_001`): the fixup kind table, `adjustFixupValue`,
`getSize` and `applyFixup`, as the source computes them. `uint64_t` values are `BitVec 64`,
the `unsigned` temporaries of `adjustFixupValue` are `BitVec 32`, and the errors reported
through `Ctx.reportError` are returned, in order, beside the value.

## Main definitions

* `Keystone.RISCV.Fixups` — the target kinds of `RISCVFixupKinds.h`.
* `Keystone.RISCV.getFixupKindInfo`, `Keystone.RISCV.getSize`.
* `Keystone.RISCV.adjustFixupValue` — the per-kind bit packing and its range checks.
* `Keystone.RISCV.applyFixup` — adjust, shift into position, or the bytes in.
* `Keystone.RISCV.loopIndices` — the bytes the loop of `applyFixup` touches.
* `Keystone.RISCV.writeNopData` — padding with the `addi x0, x0, 0` word `0x13`.

## Main results

* `Keystone.RISCV.applyFixup_fst` — the bytes `applyFixup` leaves are those of the byte loop on
  `storedValue`, also on the early return for `Value = 0`: the short-cut changes nothing.
* `Keystone.RISCV.applyFixup_snd` — the errors are those of `adjustFixupValue`, none for `0`.
* `Keystone.RISCV.isOrMerge_applyFixup` — `applyFixup` is an or-merge.
-/

namespace Keystone.RISCV

open MC

/-- The target fixup kinds of `RISCVFixupKinds.h`, in the order of the `Infos` table of
`getFixupKindInfo` (which must follow that file). -/
inductive Fixups
  | fixupRiscvHi20
  | fixupRiscvLo12I
  | fixupRiscvLo12S
  | fixupRiscvPcrelHi20
  | fixupRiscvJal
  | fixupRiscvBranch
  | fixupRiscvRvcJump
  | fixupRiscvRvcBranch
  deriving DecidableEq, Repr

/-- The kinds `applyFixup` handles: the generic data kinds and the eight target kinds. Any other
kind reaches `llvm_unreachable` in `adjustFixupValue`. -/
abbrev FixupKind := MCFixupKind Fixups

open Fixups in
/-- `RISCVAsmBackend::getFixupKindInfo`: the `Infos` table for target kinds, the generic table
for data kinds. -/
def getFixupKindInfo : FixupKind → MCFixupKindInfo
  | .data k => k.info
  | .target fixupRiscvHi20 => ⟨12, 20⟩
  | .target fixupRiscvLo12I => ⟨20, 12⟩
  | .target fixupRiscvLo12S => ⟨0, 32⟩
  | .target fixupRiscvPcrelHi20 => ⟨12, 20⟩
  | .target fixupRiscvJal => ⟨12, 20⟩
  | .target fixupRiscvBranch => ⟨0, 32⟩
  | .target fixupRiscvRvcJump => ⟨2, 11⟩
  | .target fixupRiscvRvcBranch => ⟨0, 16⟩

/-- The two checks of the `fixup_riscv_jal` and `fixup_riscv_branch` cases of
`adjustFixupValue`, for a signed width `n`: the errors they report, in order. -/
def checkPCRel (n : Nat) (value : BitVec 64) : List String :=
  (if isInt n value then [] else ["fixup value out of range"]) ++
    (if value &&& 0x1 != 0 then ["fixup value must be 2-byte aligned"] else [])

open Fixups in
/-- `adjustFixupValue`: the value to insert for a kind, with the errors reported on `Ctx`. -/
def adjustFixupValue : FixupKind → BitVec 64 → BitVec 64 × List String
  | .data _, value => (value, [])
  | .target fixupRiscvLo12I, value => (value &&& 0xfff, [])
  | .target fixupRiscvLo12S, value =>
    ((((value >>> 5) &&& 0x7f) <<< 25) ||| ((value &&& 0x1f) <<< 7), [])
  | .target fixupRiscvHi20, value | .target fixupRiscvPcrelHi20, value =>
    (((value + 0x800) >>> 12) &&& 0xfffff, [])
  | .target fixupRiscvJal, value =>
    let sbit := ((value >>> 20) &&& 0x1).setWidth 32
    let hi8 := ((value >>> 12) &&& 0xff).setWidth 32
    let mid1 := ((value >>> 11) &&& 0x1).setWidth 32
    let lo10 := ((value >>> 1) &&& 0x3ff).setWidth 32
    (((sbit <<< 19) ||| (lo10 <<< 9) ||| (mid1 <<< 8) ||| hi8).setWidth 64, checkPCRel 21 value)
  | .target fixupRiscvBranch, value =>
    let sbit := ((value >>> 12) &&& 0x1).setWidth 32
    let hi1 := ((value >>> 11) &&& 0x1).setWidth 32
    let mid6 := ((value >>> 5) &&& 0x3f).setWidth 32
    let lo4 := ((value >>> 1) &&& 0xf).setWidth 32
    (((sbit <<< 31) ||| (mid6 <<< 25) ||| (lo4 <<< 8) ||| (hi1 <<< 7)).setWidth 64,
      checkPCRel 13 value)
  | .target fixupRiscvRvcJump, value =>
    let bit11 := ((value >>> 11) &&& 0x1).setWidth 32
    let bit4 := ((value >>> 4) &&& 0x1).setWidth 32
    let bit9_8 := ((value >>> 8) &&& 0x3).setWidth 32
    let bit10 := ((value >>> 10) &&& 0x1).setWidth 32
    let bit6 := ((value >>> 6) &&& 0x1).setWidth 32
    let bit7 := ((value >>> 7) &&& 0x1).setWidth 32
    let bit3_1 := ((value >>> 1) &&& 0x7).setWidth 32
    let bit5 := ((value >>> 5) &&& 0x1).setWidth 32
    (((bit11 <<< 10) ||| (bit4 <<< 9) ||| (bit9_8 <<< 7) ||| (bit10 <<< 6) |||
      (bit6 <<< 5) ||| (bit7 <<< 4) ||| (bit3_1 <<< 1) ||| bit5).setWidth 64, [])
  | .target fixupRiscvRvcBranch, value =>
    let bit8 := ((value >>> 8) &&& 0x1).setWidth 32
    let bit7_6 := ((value >>> 6) &&& 0x3).setWidth 32
    let bit5 := ((value >>> 5) &&& 0x1).setWidth 32
    let bit4_3 := ((value >>> 3) &&& 0x3).setWidth 32
    let bit2_1 := ((value >>> 1) &&& 0x3).setWidth 32
    (((bit8 <<< 12) ||| (bit4_3 <<< 10) ||| (bit7_6 <<< 5) ||| (bit2_1 <<< 3) |||
      (bit5 <<< 2)).setWidth 64, [])

open Fixups in
/-- `getSize`: the number of bytes the loop of `applyFixup` touches. -/
def getSize : FixupKind → Nat
  | .target fixupRiscvRvcJump | .target fixupRiscvRvcBranch => 2
  | _ => 4

/-- The value the byte loop of `applyFixup` ors into the fragment: the adjusted value, shifted
into position by the kind's `TargetOffset`. -/
def storedValue (kind : FixupKind) (value : BitVec 64) : BitVec 64 :=
  (adjustFixupValue kind value).1 <<< (getFixupKindInfo kind).targetOffset

/-- `RISCVAsmBackend::applyFixup` for a resolved `Value`: the fragment bytes after the call,
and the errors reported. -/
def applyFixup (fixup : MCFixup FixupKind) (data : List (BitVec 8)) (value : BitVec 64) :
    List (BitVec 8) × List String :=
  if value = 0 then (data, [])
  else (orBytesLE data fixup.offset (storedValue fixup.kind value) (getSize fixup.kind),
    (adjustFixupValue fixup.kind value).2)

/-- `NumBytes` of the `assert` in `applyFixup`: the bytes of the kind's field,
`(TargetSize + 7) / 8`. -/
def numBytes (kind : FixupKind) : Nat := ((getFixupKindInfo kind).targetSize + 7) / 8

/-- The indices `Offset + i` of `Data` that the byte loop of `applyFixup` reads and writes, in
order, `unsigned` sums: `i < FullSize = getSize(Kind)`; none for `Value = 0`, where it returns
before the loop. -/
def loopIndices (fixup : MCFixup FixupKind) (value : BitVec 64) : List Nat :=
  if value = 0 then []
  else (List.range (getSize fixup.kind)).map fun i => (fixup.offset + BitVec.ofNat 32 i).toNat

/-- Modelled from the spec: `MCObjectWriter::write32` is not under `src/`. The RISC-V object
writer is little-endian, so it writes the four bytes of the word, least significant first. -/
def write32 (v : BitVec 32) : List (BitVec 8) :=
  [v.extractLsb' 0 8, v.extractLsb' 8 8, v.extractLsb' 16 8, v.extractLsb' 24 8]

/-- The loop of `writeNopData`, `for (uint64_t i = 0; i < Count; i += 4) OW->write32(0x13);`,
from `i` for at most `fuel` more rounds: the bytes it writes. -/
def writeNopLoop (count : BitVec 64) : Nat → BitVec 64 → List (BitVec 8)
  | 0, _ => []
  | fuel + 1, i => if i < count then write32 0x13 ++ writeNopLoop count fuel (i + 4) else []

/-- `RISCVAsmBackend::writeNopData`: whether it succeeds, and the bytes it writes. The loop
stops within `Count` rounds, the fuel given. -/
def writeNopData (count : BitVec 64) : Bool × List (BitVec 8) :=
  if count % 4 ≠ 0 then (false, []) else (true, writeNopLoop count count.toNat 0)

theorem getSize_le_four (kind : FixupKind) : getSize kind ≤ 4 := by
  rcases kind with _ | k
  · rfl
  · cases k <;> decide

theorem storedValue_zero (kind : FixupKind) : storedValue kind 0 = 0 := by
  rcases kind with _ | k
  · rfl
  · cases k <;> rfl

/-- The bytes after `applyFixup` are those of the byte loop on `storedValue`: the early return
for `Value = 0` leaves what the loop would leave. -/
theorem applyFixup_fst (fixup : MCFixup FixupKind) (data : List (BitVec 8)) (value : BitVec 64) :
    (applyFixup fixup data value).1 =
      orBytesLE data fixup.offset (storedValue fixup.kind value) (getSize fixup.kind) := by
  by_cases h : value = 0
  · subst h
    have h0 : orBytesLE data fixup.offset 0 (getSize fixup.kind) = data :=
      orBytesLE_of_getLsbD_eq_false fun _ _ => BitVec.getLsbD_zero
    rw [storedValue_zero, h0, applyFixup, if_pos rfl]
  · rw [applyFixup, if_neg h]

theorem applyFixup_snd (fixup : MCFixup FixupKind) (data : List (BitVec 8)) (value : BitVec 64) :
    (applyFixup fixup data value).2 =
      if value = 0 then [] else (adjustFixupValue fixup.kind value).2 := by
  by_cases h : value = 0
  · rw [applyFixup, if_pos h, if_pos h]
  · rw [applyFixup, if_neg h, if_neg h]

/-- **`applyFixup` is an or-merge**: what it ors in depends only on the fixup and its value. -/
theorem isOrMerge_applyFixup (fixup : MCFixup FixupKind) (value : BitVec 64) :
    IsOrMerge fun data => (applyFixup fixup data value).1 := by
  simp only [applyFixup_fst]
  exact isOrMerge_orBytesLE _ _ _

end Keystone.RISCV
