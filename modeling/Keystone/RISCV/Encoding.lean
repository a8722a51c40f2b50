import Keystone.RISCV.AsmBackend
import Mathlib.Tactic.IntervalCases

/-!
# Immediate fields of RISC-V instructions

The RISC-V ISA places the immediate of each instruction format in runs of instruction bits
(`Segment`s). This module states those layouts for the eight instruction fixup kinds and proves
that `adjustFixupValue`, followed by the shift of `applyFixup`, computes exactly them.

## Main definitions

* `Keystone.RISCV.fieldLayout` — the ISA layout of each kind's immediate.
* `Keystone.RISCV.layoutBit`, `Keystone.RISCV.srcBit` — placing an operand's bits into a word
  under a layout, and reading them back.
* `Keystone.RISCV.immField` — the instruction bits of each kind's immediate field.

## Main results

* `Keystone.RISCV.getLsbD_storedValue` — the refinement: the value `applyFixup` ors into the
  fragment is the operand placed by `fieldLayout`.
* `Keystone.RISCV.instBit_applyFixup` — bit `p` of the instruction after `applyFixup` is the old
  bit or-ed with that placed bit.
* `Keystone.RISCV.getD_applyFixup_of_outside` — the other bytes keep their values.
-/

namespace Keystone.RISCV

open MC

/-- A run of an instruction's immediate field: the instruction bits
`[instLo + len - 1 : instLo]` hold the operand bits `[srcLo + len - 1 : srcLo]`. -/
structure Segment where
  instLo : Nat
  srcLo : Nat
  len : Nat
  deriving DecidableEq, Repr

/-- Two runs are disjoint when they share neither an instruction bit nor an operand bit. -/
def Segment.Disjoint (s s' : Segment) : Prop :=
  (s.instLo + s.len ≤ s'.instLo ∨ s'.instLo + s'.len ≤ s.instLo) ∧
    (s.srcLo + s.len ≤ s'.srcLo ∨ s'.srcLo + s'.len ≤ s.srcLo)

instance (s s' : Segment) : Decidable (s.Disjoint s') :=
  inferInstanceAs (Decidable (_ ∧ _))

/-- The layout of an immediate field: runs that are pairwise disjoint. -/
structure Layout where
  runs : List Segment
  disjoint : runs.Pairwise Segment.Disjoint

/-- Bit `p` of the instruction whose field holds the operand `x` under the runs `l`; `0`
outside the field. -/
def layoutBit : List Segment → BitVec 64 → Nat → Bool
  | [], _, _ => false
  | s :: l, x, p =>
    if s.instLo ≤ p ∧ p < s.instLo + s.len then x.getLsbD (s.srcLo + (p - s.instLo))
    else layoutBit l x p

/-- Bit `m` of the operand that the instruction with bits `inst` holds under the runs `l`, read
back; `0` for a bit no run holds. -/
def srcBit : List Segment → (Nat → Bool) → Nat → Bool
  | [], _, _ => false
  | s :: l, inst, m =>
    if s.srcLo ≤ m ∧ m < s.srcLo + s.len then inst (s.instLo + (m - s.srcLo))
    else srcBit l inst m

open Fixups in
/-- The layout of each kind's immediate in the RISC-V ISA: U-type `inst[31:12] = imm[31:12]`,
I-type `inst[31:20] = imm[11:0]`, S-type `inst[31:25] = imm[11:5]` and `inst[11:7] = imm[4:0]`,
J-type `inst[31:12] = imm[20|10:1|11|19:12]`, B-type `inst[31:25] = imm[12|10:5]` and
`inst[11:7] = imm[4:1|11]`, CJ `inst[12:2] = off[11|4|9:8|10|6|7|3:1|5]`, CB
`inst[12:10] = off[8|4:3]` and `inst[6:2] = off[7:6|2:1|5]`. -/
def fieldLayout : Fixups → Layout
  | fixupRiscvHi20 | fixupRiscvPcrelHi20 => ⟨[⟨12, 12, 20⟩], by decide⟩
  | fixupRiscvLo12I => ⟨[⟨20, 0, 12⟩], by decide⟩
  | fixupRiscvLo12S => ⟨[⟨25, 5, 7⟩, ⟨7, 0, 5⟩], by decide⟩
  | fixupRiscvJal => ⟨[⟨31, 20, 1⟩, ⟨21, 1, 10⟩, ⟨20, 11, 1⟩, ⟨12, 12, 8⟩], by decide⟩
  | fixupRiscvBranch => ⟨[⟨31, 12, 1⟩, ⟨25, 5, 6⟩, ⟨8, 1, 4⟩, ⟨7, 11, 1⟩], by decide⟩
  | fixupRiscvRvcJump =>
    ⟨[⟨12, 11, 1⟩, ⟨11, 4, 1⟩, ⟨9, 8, 2⟩, ⟨8, 10, 1⟩, ⟨7, 6, 1⟩, ⟨6, 7, 1⟩, ⟨3, 1, 3⟩,
      ⟨2, 5, 1⟩], by decide⟩
  | fixupRiscvRvcBranch =>
    ⟨[⟨12, 8, 1⟩, ⟨10, 3, 2⟩, ⟨5, 6, 2⟩, ⟨3, 1, 2⟩, ⟨2, 5, 1⟩], by decide⟩

open Fixups in
/-- The operand whose bits a kind's field holds: `Value + 0x800` for the high part of a split
value (the `+ 0x800` rounds for a negative low part), `Value` otherwise. -/
def fieldOperand : Fixups → BitVec 64 → BitVec 64
  | fixupRiscvHi20, v | fixupRiscvPcrelHi20, v => v + 0x800
  | _, v => v

open Fixups in
/-- The instruction bits of each kind's immediate field: bits 31..12 for `hi20`, `pcrel_hi20`
and `jal`, 31..20 for `lo12_i`, 31..25 and 11..7 for `lo12_s` and `branch`, 12..2 for
`rvc_jump`, 12..10 and 6..2 for `rvc_branch`. -/
def immField : Fixups → Nat → Bool
  | fixupRiscvHi20, p | fixupRiscvPcrelHi20, p | fixupRiscvJal, p => decide (12 ≤ p ∧ p ≤ 31)
  | fixupRiscvLo12I, p => decide (20 ≤ p ∧ p ≤ 31)
  | fixupRiscvLo12S, p | fixupRiscvBranch, p => decide (25 ≤ p ∧ p ≤ 31 ∨ 7 ≤ p ∧ p ≤ 11)
  | fixupRiscvRvcJump, p => decide (2 ≤ p ∧ p ≤ 12)
  | fixupRiscvRvcBranch, p => decide (10 ≤ p ∧ p ≤ 12 ∨ 2 ≤ p ∧ p ≤ 6)

/-! ### Layout lemmas -/

/-- Every run of a layout lies in the kind's field. -/
theorem immField_of_mem_fieldLayout {k : Fixups} {s : Segment} (hs : s ∈ (fieldLayout k).runs) {t : Nat}
    (ht : t < s.len) : immField k (s.instLo + t) = true := by
  cases k <;> simp only [fieldLayout, Layout.runs, List.mem_cons, List.mem_singleton,
    List.not_mem_nil, or_false] at hs <;> rcases hs with rfl | rfl | rfl | rfl | rfl | rfl | rfl | rfl <;>
    dsimp only at ht <;> simp only [immField, decide_eq_true_eq] <;> omega

/-- A layout places nothing where none of its runs lies. -/
theorem layoutBit_eq_false {l : List Segment} {p : Nat}
    (h : ∀ s ∈ l, ¬ (s.instLo ≤ p ∧ p < s.instLo + s.len)) (x : BitVec 64) :
    layoutBit l x p = false := by
  induction l with
  | nil => rfl
  | cons s l ih =>
    rw [layoutBit, if_neg (h s (List.mem_cons_self s l))]
    exact ih fun s' hs' => h s' (List.mem_cons_of_mem s hs')

/-- Under disjoint runs, the bit a run places is the operand bit it holds. -/
theorem layoutBit_of_mem {l : List Segment} (hl : l.Pairwise Segment.Disjoint) {s : Segment}
    (hs : s ∈ l) {t : Nat} (ht : t < s.len) (x : BitVec 64) :
    layoutBit l x (s.instLo + t) = x.getLsbD (s.srcLo + t) := by
  induction l with
  | nil => cases hs
  | cons s' l ih =>
    rw [List.pairwise_cons] at hl
    rw [layoutBit]
    rcases List.mem_cons.mp hs with rfl | hs
    · rw [if_pos (by omega), Nat.add_sub_cancel_left]
    · have := (hl.1 s hs).1
      rw [if_neg (by omega)]
      exact ih hl.2 hs

/-- Under disjoint runs, the operand bit a run holds is read back from the bit it places. -/
theorem srcBit_of_mem {l : List Segment} (hl : l.Pairwise Segment.Disjoint) {s : Segment}
    (hs : s ∈ l) {t : Nat} (ht : t < s.len) (inst : Nat → Bool) :
    srcBit l inst (s.srcLo + t) = inst (s.instLo + t) := by
  induction l with
  | nil => cases hs
  | cons s' l ih =>
    rw [List.pairwise_cons] at hl
    rw [srcBit]
    rcases List.mem_cons.mp hs with rfl | hs
    · rw [if_pos (by omega), Nat.add_sub_cancel_left]
    · have := (hl.1 s hs).2
      rw [if_neg (by omega)]
      exact ih hl.2 hs

/-- A layout reads only the operand bits its runs hold. -/
theorem layoutBit_congr {l : List Segment} {x y : BitVec 64}
    (h : ∀ s ∈ l, ∀ t < s.len, x.getLsbD (s.srcLo + t) = y.getLsbD (s.srcLo + t)) (p : Nat) :
    layoutBit l x p = layoutBit l y p := by
  induction l with
  | nil => rfl
  | cons s l ih =>
    rw [layoutBit, layoutBit, ih fun s' hs' => h s' (List.mem_cons_of_mem s hs')]
    split_ifs with hp
    · exact h s (List.mem_cons_self s l) _ (by omega)
    · rfl

/-- An operand bit no run holds reads back as `0`. -/
theorem srcBit_eq_false {l : List Segment} {m : Nat}
    (h : ∀ s ∈ l, ¬ (s.srcLo ≤ m ∧ m < s.srcLo + s.len)) (inst : Nat → Bool) :
    srcBit l inst m = false := by
  induction l with
  | nil => rfl
  | cons s l ih =>
    rw [srcBit, if_neg (h s (List.mem_cons_self s l))]
    exact ih fun s' hs' => h s' (List.mem_cons_of_mem s hs')

/-- A layout places nothing outside the kind's field. -/
theorem layoutBit_eq_false_of_immField {k : Fixups} {p : Nat} (h : immField k p = false)
    (x : BitVec 64) : layoutBit (fieldLayout k).runs x p = false := by
  refine layoutBit_eq_false (fun s hs hp => ?_) x
  have := immField_of_mem_fieldLayout hs (t := p - s.instLo) (by omega)
  rw [Nat.add_sub_cancel' hp.1] at this
  simp [this] at h

/-! ### The code computes the layouts -/

set_option maxRecDepth 2048 in
/-- **The code packs the ISA layout.** Below the bytes the loop of `applyFixup` writes, bit `p`
of the value it ors in is bit `p` of the instruction whose field holds `fieldOperand k Value`
under `fieldLayout k`.

**Proof sketch.** Both sides are fixed Boolean combinations of operand bits at each of the at
most 32 positions; each position is evaluated. -/
theorem getLsbD_storedValue (k : Fixups) (value : BitVec 64) {p : Nat}
    (hp : p < 8 * getSize (.target k)) :
    (storedValue (.target k) value).getLsbD p =
      layoutBit (fieldLayout k).runs (fieldOperand k value) p := by
  cases k <;> simp only [getSize, Nat.reduceMul] at hp <;>
    simp only [storedValue, adjustFixupValue, getFixupKindInfo, fieldLayout, fieldOperand,
      layoutBit, Layout.runs, BitVec.getLsbD_shiftLeft, BitVec.getLsbD_setWidth, BitVec.getLsbD_or,
      BitVec.getLsbD_and, BitVec.getLsbD_ushiftRight, BitVec.ofNat_eq_ofNat,
      getLsbD_mask 1 1 rfl, getLsbD_mask 2 3 rfl, getLsbD_mask 3 7 rfl, getLsbD_mask 4 15 rfl,
      getLsbD_mask 5 31 rfl, getLsbD_mask 6 63 rfl, getLsbD_mask 7 127 rfl,
      getLsbD_mask 8 255 rfl, getLsbD_mask 10 1023 rfl, getLsbD_mask 12 4095 rfl,
      getLsbD_mask 20 1048575 rfl] <;>
    interval_cases p <;>
    simp only [Nat.reduceAdd, Nat.reduceSub, Nat.reduceLT, Nat.reduceLeDiff, decide_True,
      decide_False, Bool.true_and, Bool.false_and, Bool.and_true, Bool.and_false, Bool.not_true,
      Bool.not_false, Bool.or_false, Bool.false_or, and_self, and_true, true_and, false_and,
      and_false, le_refl, ite_true, ite_false, Nat.lt_irrefl, not_false_eq_true]

/-! ### What `applyFixup` writes -/

/-- **Bit by bit.** When the loop's index does not wrap and the instruction lies in the
fragment, bit `p` of the instruction after `applyFixup` is the old bit or-ed with the bit the
kind's layout places there. -/
theorem instBit_applyFixup {k : Fixups} {offset : BitVec 32} {data : List (BitVec 8)}
    {value : BitVec 64} {p : Nat} (hw : offset.toNat + getSize (.target k) ≤ 2 ^ 32)
    (hd : offset.toNat + getSize (.target k) ≤ data.length) (hp : p < 8 * getSize (.target k)) :
    instBit (applyFixup ⟨offset, .target k⟩ data value).1 offset.toNat p =
      (instBit data offset.toNat p || layoutBit (fieldLayout k).runs (fieldOperand k value) p) := by
  rw [applyFixup_fst, instBit_orBytesLE hw hd hp, getLsbD_storedValue k value hp]

/-- When the loop's index does not wrap, `applyFixup` leaves every byte outside
`[Offset, Offset + getSize k)` as it was. -/
theorem getD_applyFixup_of_outside {kind : FixupKind} {offset : BitVec 32}
    {data : List (BitVec 8)} {value : BitVec 64} {j : Nat}
    (hw : offset.toNat + getSize kind ≤ 2 ^ 32)
    (hj : j < offset.toNat ∨ offset.toNat + getSize kind ≤ j) :
    (applyFixup ⟨offset, kind⟩ data value).1.getD j 0 = data.getD j 0 := by
  rw [applyFixup_fst]
  exact getD_orBytesLE_of_outside hw hj

end Keystone.RISCV
