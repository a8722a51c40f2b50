import Keystone.RISCV.AsmBackend
import Keystone.SystemZ.AsmBackend

/-!
# Fixups in any order

The assembler applies a fragment's fixups one after the other, in an order of its own, and may
come back to a fixup on a later pass. Both backends' `applyFixup` are or-merges
(`Keystone.RISCV.isOrMerge_applyFixup`, `Keystone.SystemZ.isOrMerge_applyFixup`), so the
bytes a list of fixups leaves depend only on which fixups the list holds
(`Keystone.MC.foldl_eq_of_mem_iff`).

## Main results

* `Keystone.applyFixup_order_independent` — for either backend, two lists of resolved fixups
  with the same members leave the same bytes.
-/

namespace Keystone

open MC

/-- **Fixups in any order.** Take a fragment and two lists of resolved fixups `(fixup, Value)`
with the same members, each fixup's bytes `[Offset, Offset + FullSize)` within the fragment
(`FullSize` is `getSize` for RISC-V and `(TargetSize + 7) / 8` for SystemZ). Applying either list
with one backend's `applyFixup`, one fixup after the other, leaves the same bytes: order and
repetition do not matter. -/
theorem applyFixup_order_independent (data : List (BitVec 8)) :
    (∀ l₁ l₂ : List (MCFixup RISCV.FixupKind × BitVec 64),
      (∀ r ∈ l₁, r.1.offset.toNat + RISCV.getSize r.1.kind ≤ data.length) →
      (∀ r, r ∈ l₁ ↔ r ∈ l₂) →
      l₁.foldl (fun d r => (RISCV.applyFixup r.1 d r.2).1) data =
        l₂.foldl (fun d r => (RISCV.applyFixup r.1 d r.2).1) data) ∧
    (∀ l₁ l₂ : List (MCFixup SystemZ.FixupKind × BitVec 64),
      (∀ r ∈ l₁, r.1.offset.toNat +
        ((SystemZ.getFixupKindInfo r.1.kind).targetSize + 7) / 8 ≤ data.length) →
      (∀ r, r ∈ l₁ ↔ r ∈ l₂) →
      l₁.foldl (fun d r => (SystemZ.applyFixup r.1 d r.2).1) data =
        l₂.foldl (fun d r => (SystemZ.applyFixup r.1 d r.2).1) data) :=
  ⟨fun _ _ _ h => foldl_eq_of_mem_iff
      (fun r : MCFixup RISCV.FixupKind × BitVec 64 => RISCV.isOrMerge_applyFixup r.1 r.2) h data,
    fun _ _ _ h => foldl_eq_of_mem_iff
      (fun r : MCFixup SystemZ.FixupKind × BitVec 64 => SystemZ.isOrMerge_applyFixup r.1 r.2) h data⟩

/-- A `jal` and a word of data, the `jal` applied twice in the first list; a `PC32DBL` and a
`PC16DBL` fixup, swapped. -/
theorem applyFixup_order_independent_twice :
    ((∀ r ∈ ([(⟨0, .target .fixupRiscvJal⟩, 0x1000), (⟨4, .data .fkData4⟩, 0x12345678),
        (⟨0, .target .fixupRiscvJal⟩, 0x1000)] : List (MCFixup RISCV.FixupKind × BitVec 64)),
      r.1.offset.toNat + RISCV.getSize r.1.kind ≤ (List.replicate 8 (0 : BitVec 8)).length) ∧
    ([(⟨0, .target .fixupRiscvJal⟩, 0x1000), (⟨4, .data .fkData4⟩, 0x12345678),
        (⟨0, .target .fixupRiscvJal⟩, 0x1000)] : List (MCFixup RISCV.FixupKind × BitVec 64)).foldl
        (fun d r => (RISCV.applyFixup r.1 d r.2).1) (List.replicate 8 0) =
      ([(⟨4, .data .fkData4⟩, 0x12345678), (⟨0, .target .fixupRiscvJal⟩, 0x1000)] :
        List (MCFixup RISCV.FixupKind × BitVec 64)).foldl
        (fun d r => (RISCV.applyFixup r.1 d r.2).1) (List.replicate 8 0)) ∧
    ((∀ r ∈ ([(⟨2, .target .fk390PC32DBL⟩, 0x100), (⟨6, .target .fk390PC16DBL⟩, 0x20)] :
        List (MCFixup SystemZ.FixupKind × BitVec 64)),
      r.1.offset.toNat + ((SystemZ.getFixupKindInfo r.1.kind).targetSize + 7) / 8 ≤
        (List.replicate 8 (0 : BitVec 8)).length) ∧
    ([(⟨2, .target .fk390PC32DBL⟩, 0x100), (⟨6, .target .fk390PC16DBL⟩, 0x20)] :
        List (MCFixup SystemZ.FixupKind × BitVec 64)).foldl
        (fun d r => (SystemZ.applyFixup r.1 d r.2).1) (List.replicate 8 0) =
      ([(⟨6, .target .fk390PC16DBL⟩, 0x20), (⟨2, .target .fk390PC32DBL⟩, 0x100)] :
        List (MCFixup SystemZ.FixupKind × BitVec 64)).foldl
        (fun d r => (SystemZ.applyFixup r.1 d r.2).1) (List.replicate 8 0)) :=
  ⟨⟨by decide, (applyFixup_order_independent _).1 _ _ (by decide) fun r => by
      simp only [List.mem_cons, List.mem_singleton, List.not_mem_nil, or_false]; tauto⟩,
    ⟨by decide, (applyFixup_order_independent _).2 _ _ (by decide) fun r => by
      simp only [List.mem_cons, List.mem_singleton, List.not_mem_nil, or_false]; tauto⟩⟩

end Keystone
