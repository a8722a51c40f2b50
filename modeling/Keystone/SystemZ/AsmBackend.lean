import Keystone.MC.FixupKind
import Keystone.MC.OrMerge

/-!
# The SystemZ assembler backend

`SystemZMCAsmBackend.cpp`: the fixup kind table, `extractBitsForFixup` and `applyFixup`, as the
source computes them. `applyFixup` compares the fixup's last byte with the fragment's size,
stores `KS_ERR_ASM_FIXUP_INVALID` in `KsError` and returns when it lies past it, and otherwise
ors the value's bytes in, most significant first.

## Design

The byte loop `orBytesBE` keeps the two `unsigned` counters of the source, `I` and
`ShiftValue`, as `BitVec 32` arguments. `Offset + Size` and `Offset + I` are `unsigned` sums
and wrap at `2^32`; `Data.size()` is a `size_t`, the length of the fragment.

## Main definitions

* `Keystone.SystemZ.Fixups`, `Keystone.SystemZ.getFixupKindInfo`.
* `Keystone.SystemZ.extractBitsForFixup` — the bits a kind installs.
* `Keystone.SystemZ.orBytesBE` — the big-endian byte loop.
* `Keystone.SystemZ.applyFixup`.
* `Keystone.SystemZ.writtenIndices` — the indices the loop of `applyFixup` writes.
* `Keystone.SystemZ.writeNopData` — padding with the byte `0x07`.

## Main results

* `Keystone.SystemZ.isOrMerge_applyFixup` — `applyFixup` is an or-merge: rejected or not, the
  fixup ors into the fragment bits that depend only on the fixup, its value and the
  fragment's length.
-/

namespace Keystone.SystemZ

open MC

/-- The target fixup kinds of `SystemZMCFixups.h`, in the order of the `Infos` table. -/
inductive Fixups
  | fk390PC16DBL
  | fk390PC32DBL
  | fk390TLSCALL
  deriving DecidableEq, Repr

/-- The kinds `applyFixup` handles: the generic data kinds and the three target kinds. -/
abbrev FixupKind := MCFixupKind Fixups

open Fixups in
/-- `SystemZMCAsmBackend::getFixupKindInfo`: the `Infos` table for target kinds, the generic
table for data kinds. -/
def getFixupKindInfo : FixupKind → MCFixupKindInfo
  | .data k => k.info
  | .target fk390PC16DBL => ⟨0, 16⟩
  | .target fk390PC32DBL => ⟨0, 32⟩
  | .target fk390TLSCALL => ⟨0, 0⟩

open Fixups in
/-- `extractBitsForFixup`: data kinds install the value; the PC-relative kinds install
`(int64_t)Value / 2`, a signed division that rounds toward zero (`BitVec.sdiv`); `TLS_CALL`
installs `0`. -/
def extractBitsForFixup : FixupKind → BitVec 64 → BitVec 64
  | .data _, value => value
  | .target fk390PC16DBL, value | .target fk390PC32DBL, value => value.sdiv 2
  | .target fk390TLSCALL, _ => 0

/-- The loop of `applyFixup`, `n` more steps from counters `I` and `ShiftValue`:
`Data[Offset + I] |= uint8_t(Value >> ShiftValue)`, then `++I` and `ShiftValue -= 8`. -/
def orBytesBE (offset : BitVec 32) (value : BitVec 64) :
    Nat → BitVec 32 → BitVec 32 → List (BitVec 8) → List (BitVec 8)
  | 0, _, _, data => data
  | n + 1, i, shiftValue, data =>
    orBytesBE offset value n (i + 1) (shiftValue - 8)
      (data.modify (· ||| (value >>> shiftValue.toNat).setWidth 8) (offset + i).toNat)

/-- `SystemZMCAsmBackend::applyFixup`: the fragment bytes after the call, and the code stored in
`KsError` (`none` when it is left as it was). -/
def applyFixup (fixup : MCFixup FixupKind) (data : List (BitVec 8)) (value : BitVec 64) :
    List (BitVec 8) × Option KsErr :=
  let size : BitVec 32 := BitVec.ofNat 32 (((getFixupKindInfo fixup.kind).targetSize + 7) / 8)
  if (fixup.offset + size).toNat > data.length then (data, some .ksErrAsmFixupInvalid)
  else
    (orBytesBE fixup.offset (extractBitsForFixup fixup.kind value) size.toNat 0 (size * 8 - 8)
      data, none)

/-- `Size` in `applyFixup`: the bytes of the kind's field, `(TargetSize + 7) / 8`. -/
def fixupSize (kind : FixupKind) : Nat := ((getFixupKindInfo kind).targetSize + 7) / 8

/-- `applyFixup` with its `Size` named. -/
theorem applyFixup_eq (fixup : MCFixup FixupKind) (data : List (BitVec 8)) (value : BitVec 64) :
    applyFixup fixup data value =
      if (fixup.offset + BitVec.ofNat 32 (fixupSize fixup.kind)).toNat > data.length then
        (data, some .ksErrAsmFixupInvalid)
      else
        (orBytesBE fixup.offset (extractBitsForFixup fixup.kind value)
          (BitVec.ofNat 32 (fixupSize fixup.kind)).toNat 0
          (BitVec.ofNat 32 (fixupSize fixup.kind) * 8 - 8) data, none) := rfl

/-- The indices `Offset + I` of `Data` that the loop of `applyFixup` writes, in order, `unsigned`
sums; none when the guard returns first. -/
def writtenIndices (fixup : MCFixup FixupKind) (data : List (BitVec 8)) : List Nat :=
  let size : BitVec 32 := BitVec.ofNat 32 (fixupSize fixup.kind)
  if (fixup.offset + size).toNat > data.length then []
  else (List.range size.toNat).map fun i => (fixup.offset + BitVec.ofNat 32 i).toNat

/-- The loop of `writeNopData`, `for (uint64_t I = 0; I != Count; ++I) OW->write8(7);`, from `I`
for at most `fuel` more rounds: the bytes it writes. -/
def writeNopLoop (count : BitVec 64) : Nat → BitVec 64 → List (BitVec 8)
  | 0, _ => []
  | fuel + 1, i => if i ≠ count then 7 :: writeNopLoop count fuel (i + 1) else []

/-- `SystemZMCAsmBackend::writeNopData`: whether it succeeds, and the bytes it writes. The loop
stops after `Count` rounds, the fuel given. -/
def writeNopData (count : BitVec 64) : Bool × List (BitVec 8) :=
  (true, writeNopLoop count count.toNat 0)

/-- The loop is an or-merge, from any counters. -/
theorem isOrMerge_orBytesBE (offset : BitVec 32) (value : BitVec 64) (n : Nat) :
    ∀ i shiftValue, IsOrMerge (orBytesBE offset value n i shiftValue) := by
  induction n with
  | zero => exact fun _ _ => isOrMerge_id
  | succ n ih => exact fun i shiftValue => (ih (i + 1) (shiftValue - 8)).comp (isOrMerge_modify _ _)

/-- **`applyFixup` is an or-merge**, on the rejected path (the identity) as on the other. -/
theorem isOrMerge_applyFixup (fixup : MCFixup FixupKind) (value : BitVec 64) :
    IsOrMerge fun data => (applyFixup fixup data value).1 := by
  simp only [applyFixup, apply_ite Prod.fst]
  exact isOrMerge_id.ite_length (isOrMerge_orBytesBE _ _ _ _ _) _

end Keystone.SystemZ
