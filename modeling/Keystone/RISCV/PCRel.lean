import Keystone.RISCV.Encoding

/-!
# PC-relative RISC-V fixups

The four PC-relative kinds `fixup_riscv_jal`, `fixup_riscv_branch`, `fixup_riscv_rvc_jump` and
`fixup_riscv_rvc_branch` encode an even signed offset of `N = 21, 13, 12, 9` bits. This module
decodes what `applyFixup` leaves in the instruction as the ISA reads it, and describes the
errors `adjustFixupValue` reports and what is written when it reports one.

## Design

* The decoder `decodeImm` gathers the operand bits the kind's `fieldLayout` holds and
  sign-extends them. Bit `0` of an offset is held by no run, so it reads `0`: this is the
  scaling by `2` of the ISA. That `applyFixup` places exactly these bits is
  `getLsbD_storedValue`, proved per position in `Keystone.RISCV.Encoding`.
* Of the four kinds only `jal` and `branch` are checked (`checkPCRel`); the compressed kinds
  report nothing for any value.
* A reported error does not stop the fixup: the loop of `applyFixup` still runs, on the bits
  the kind's layout holds. These are the bits of the value with bit `0` cleared and the low
  `N` bits sign-extended (`encodedValue`), which is in range and even.

## Main definitions

* `Keystone.RISCV.pcrelWidth` — the signed width of each PC-relative kind's offset.
* `Keystone.RISCV.decodeImm` — the ISA's reading of an immediate under a layout.
* `Keystone.RISCV.encodedValue` — the offset the code encodes for a value of any range.

## Main results

* `Keystone.RISCV.applyFixup_decodeImm` — the round trip: an even, in-range value decodes back
  from the instruction, and no error is reported.
* `Keystone.RISCV.adjustFixupValue_snd` — which kinds report errors, and when.
* `Keystone.RISCV.applyFixup_of_diagnostic` — an error is reported only for `jal` and `branch`,
  and the bytes are then those written for `encodedValue`, for which no error is reported.
-/

namespace Keystone.RISCV

open MC

open Fixups in
/-- The signed width of the offset each PC-relative kind encodes: `jal` 21 bits (J-type),
`branch` 13 (B-type), `rvc_jump` 12 (CJ), `rvc_branch` 9 (CB); `none` for the other kinds. -/
def pcrelWidth : Fixups → Option Nat
  | fixupRiscvJal => some 21
  | fixupRiscvBranch => some 13
  | fixupRiscvRvcJump => some 12
  | fixupRiscvRvcBranch => some 9
  | _ => none

/-- The immediate an instruction with bits `inst` holds under the runs `l`, as the ISA decodes
it: the operand bits `[n - 1 : 0]` read back, sign-extended from bit `n - 1`. -/
def decodeImm (l : List Segment) (n : Nat) (inst : Nat → Bool) : Int :=
  (BitVec.ofNat n (bitsToNat (srcBit l inst) n)).toInt

/-- The offset the code encodes for a value, in range or not: bit `0` cleared and the low `n`
bits sign-extended. -/
def encodedValue (n : Nat) (value : BitVec 64) : BitVec 64 :=
  ((value &&& ~~~1).setWidth n).signExtend 64

/-! ### The layouts of the PC-relative kinds -/

section Layout

variable {k : Fixups} {N : Nat}

/-- The runs of a PC-relative kind of width `N` hold operand bits in `[1, N)`, each of them, and
lie in the bytes the loop of `applyFixup` writes. -/
theorem pcrelWidth_layout (hk : pcrelWidth k = some N) :
    (∀ s ∈ (fieldLayout k).runs,
      1 ≤ s.srcLo ∧ s.srcLo + s.len ≤ N ∧ s.instLo + s.len ≤ 8 * getSize (.target k)) ∧
    ∀ m < N, 1 ≤ m → ∃ s ∈ (fieldLayout k).runs, s.srcLo ≤ m ∧ m < s.srcLo + s.len := by
  cases k <;> cases hk <;> decide

theorem fieldOperand_of_pcrelWidth (hk : pcrelWidth k = some N) (value : BitVec 64) :
    fieldOperand k value = value := by
  cases k <;> cases hk <;> rfl

theorem pcrelWidth_bounds (hk : pcrelWidth k = some N) : 1 < N ∧ N < 64 := by
  cases k <;> cases hk <;> decide

end Layout

/-! ### Errors -/

/-- The alignment test `Value & 0x1` of the source reads bit `0`. -/
theorem and_one_bne_zero (value : BitVec 64) : (value &&& 0x1 != 0) = value.getLsbD 0 := by
  rw [Bool.eq_iff_iff, bne_iff_ne, ne_eq, BitVec.toNat_eq, BitVec.getLsbD, Nat.testBit_zero,
    decide_eq_true_iff]
  simp only [BitVec.toNat_and, BitVec.ofNat_eq_ofNat, BitVec.toNat_ofNat, Nat.reducePow,
    Nat.reduceMod, Nat.and_one_is_mod]
  omega

/-- `checkPCRel` reports nothing exactly for an in-range, even value. -/
theorem checkPCRel_eq_nil_iff (n : Nat) (value : BitVec 64) :
    checkPCRel n value = [] ↔ isInt n value = true ∧ value.getLsbD 0 = false := by
  rw [checkPCRel, and_one_bne_zero]
  cases isInt n value <;> cases value.getLsbD 0 <;> simp

/-- **The checks.** Of all kinds only `jal` and `branch` report errors, through `checkPCRel` at
their widths `21` and `13`. -/
theorem adjustFixupValue_snd (kind : FixupKind) (value : BitVec 64) :
    (adjustFixupValue kind value).2 =
      if kind = .target .fixupRiscvJal then checkPCRel 21 value
      else if kind = .target .fixupRiscvBranch then checkPCRel 13 value else [] := by
  rcases kind with _ | k
  · simp [adjustFixupValue]
  · cases k <;> simp [adjustFixupValue]

/-- Every PC-relative kind of width `N` reports nothing exactly when it is a compressed kind,
which is never checked, or the value is in range and even. -/
theorem applyFixup_snd_eq_nil_iff {k : Fixups} {N : Nat} (hk : pcrelWidth k = some N)
    (offset : BitVec 32) (data : List (BitVec 8)) (value : BitVec 64) :
    (applyFixup ⟨offset, .target k⟩ data value).2 = [] ↔
      k = .fixupRiscvRvcJump ∨ k = .fixupRiscvRvcBranch ∨
        (isInt N value = true ∧ value.getLsbD 0 = false) := by
  rw [applyFixup_snd, adjustFixupValue_snd]
  by_cases h0 : value = 0
  · subst h0
    have : isInt N 0 = true ∧ (0 : BitVec 64).getLsbD 0 = false := by
      cases k <;> cases hk <;> decide
    rw [if_pos rfl]
    exact iff_of_true rfl (.inr (.inr this))
  · rw [if_neg h0]
    cases k <;> cases hk <;> simp [checkPCRel_eq_nil_iff]

/-- `c.j` to `+2048`, one past the range of CJ: no error is reported, and the instruction
decodes as a jump to `-2048`. -/
theorem applyFixup_rvcJump_out_of_range :
    isInt 12 0x800 = false ∧
      applyFixup ⟨0, .target .fixupRiscvRvcJump⟩ [0x01, 0xa0] 0x800 = ([0x01, 0xb0], []) ∧
      decodeImm (fieldLayout .fixupRiscvRvcJump).runs 12 (instBit [0x01, 0xb0] 0) = -2048 := by
  decide

/-! ### The round trip -/

section RoundTrip

variable {k : Fixups} {N : Nat} {offset : BitVec 32} {data : List (BitVec 8)} {value : BitVec 64}

/-- Operand bit `m < N`, read back from the instruction after `applyFixup`: bit `0` reads `0`,
the others are the value's bits. -/
theorem srcBit_applyFixup (hk : pcrelWidth k = some N)
    (hw : offset.toNat + getSize (.target k) ≤ 2 ^ 32)
    (hd : offset.toNat + getSize (.target k) ≤ data.length)
    (hz : ∀ p, immField k p = true → instBit data offset.toNat p = false) {m : Nat} (hm : m < N) :
    srcBit (fieldLayout k).runs
        (instBit (applyFixup ⟨offset, .target k⟩ data value).1 offset.toNat) m =
      (decide (1 ≤ m) && value.getLsbD m) := by
  obtain ⟨hruns, hcov⟩ := pcrelWidth_layout hk
  by_cases h1 : 1 ≤ m
  · obtain ⟨s, hs, hlo, hhi⟩ := hcov m hm h1
    have ht : m - s.srcLo < s.len := by omega
    have hsz := (hruns s hs).2.2
    rw [← Nat.add_sub_cancel' hlo, srcBit_of_mem (fieldLayout k).disjoint hs ht,
      instBit_applyFixup hw hd (by omega), hz _ (immField_of_mem_fieldLayout hs ht),
      Bool.false_or, layoutBit_of_mem (fieldLayout k).disjoint hs ht,
      fieldOperand_of_pcrelWidth hk, Nat.add_sub_cancel' hlo, decide_eq_true h1, Bool.true_and]
  · rw [srcBit_eq_false fun s hs _ => by have := (hruns s hs).1; omega, decide_eq_false h1,
      Bool.false_and]

/-- The operand bits read back form the value's low `N` bits, when the value is even. -/
theorem bitsToNat_srcBit_applyFixup (hk : pcrelWidth k = some N)
    (hw : offset.toNat + getSize (.target k) ≤ 2 ^ 32)
    (hd : offset.toNat + getSize (.target k) ≤ data.length)
    (hz : ∀ p, immField k p = true → instBit data offset.toNat p = false)
    (he : value.toNat % 2 = 0) :
    bitsToNat (srcBit (fieldLayout k).runs
        (instBit (applyFixup ⟨offset, .target k⟩ data value).1 offset.toNat)) N =
      value.toNat % 2 ^ N :=
  calc _ = bitsToNat (fun t => value.toNat.testBit (0 + t)) N := bitsToNat_congr fun t ht => by
          rw [srcBit_applyFixup hk hw hd hz ht, Nat.zero_add]
          rcases Nat.eq_zero_or_pos t with rfl | ht0
          · simp [Nat.testBit_zero, he]
          · simp [Nat.one_le_iff_ne_zero.mpr ht0.ne', BitVec.getLsbD]
    _ = value.toNat % 2 ^ N := by rw [bitsToNat_testBit, Nat.pow_zero, Nat.div_one]

end RoundTrip

/-- **Round trip.** Take a PC-relative kind of width `N`, an even value that `isInt<N>` accepts,
and an instruction at `Offset` whose immediate field is zero, with `Offset + getSize k` within
the fragment and at most `2^32` (the loop's `unsigned` index does not wrap). After
`applyFixup`, the ISA decodes the instruction's immediate as the value, and no error is
reported.

**Proof sketch.** Each operand bit is read back through the run that holds it
(`srcBit_applyFixup`), so the decoder sees the value's low `N` bits, whose sign extension is
the value (`toInt_setWidth_of_isInt`). -/
theorem applyFixup_decodeImm {k : Fixups} {N : Nat} (hk : pcrelWidth k = some N)
    {value : BitVec 64} (hr : isInt N value = true) (he : value.toNat % 2 = 0)
    {offset : BitVec 32} {data : List (BitVec 8)}
    (hd : offset.toNat + getSize (.target k) ≤ data.length)
    (hw : offset.toNat + getSize (.target k) ≤ 2 ^ 32)
    (hz : ∀ p, immField k p = true → instBit data offset.toNat p = false) :
    decodeImm (fieldLayout k).runs N
        (instBit (applyFixup ⟨offset, .target k⟩ data value).1 offset.toNat) = value.toInt ∧
      (applyFixup ⟨offset, .target k⟩ data value).2 = [] := by
  obtain ⟨h1, h64⟩ := pcrelWidth_bounds hk
  have hset : BitVec.ofNat N (value.toNat % 2 ^ N) = value.setWidth N := by
    rw [← BitVec.ofNat_toNat]
    exact BitVec.eq_of_toNat_eq (by simp only [BitVec.toNat_ofNat, Nat.mod_mod])
  have h0 : value.getLsbD 0 = false := by simp [BitVec.getLsbD, Nat.testBit_zero, he]
  refine ⟨?_, (applyFixup_snd_eq_nil_iff hk offset data value).mpr (.inr (.inr ⟨hr, h0⟩))⟩
  rw [decodeImm, bitsToNat_srcBit_applyFixup hk hw hd hz he, hset,
    toInt_setWidth_of_isInt (by omega) h64 hr]

/-- A `jal` to `+0x1000` in a zero word. -/
theorem applyFixup_decodeImm_jal :
    (pcrelWidth .fixupRiscvJal = some 21 ∧ isInt 21 0x1000 = true ∧
      (0x1000 : BitVec 64).toNat % 2 = 0) ∧
    (decodeImm (fieldLayout .fixupRiscvJal).runs 21
        (instBit (applyFixup ⟨0, .target .fixupRiscvJal⟩ [0, 0, 0, 0] 0x1000).1
          (0 : BitVec 32).toNat) = (0x1000 : BitVec 64).toInt ∧
      (applyFixup ⟨0, .target .fixupRiscvJal⟩ [0, 0, 0, 0] 0x1000).2 = []) :=
  ⟨⟨rfl, by decide, by decide⟩, applyFixup_decodeImm (k := .fixupRiscvJal) (N := 21) rfl (by decide) (by decide) (by decide)
    (by decide) fun p _ => instBit_replicate_zero 4 0 p⟩

/-- **The loop index wraps.** In a zero fragment of `2^32 + 2` bytes, a `jal` to `+2` at offset
`2^32 - 2` writes its third byte at byte `0`: the instruction at the offset decodes as `0`. -/
theorem applyFixup_decodeImm_wraps :
    isInt 21 2 = true ∧ (2 : BitVec 64).toNat % 2 = 0 ∧
    (BitVec.ofNat 32 (2 ^ 32 - 2)).toNat + getSize (.target .fixupRiscvJal) ≤
      (List.replicate (2 ^ 32 + 2) (0 : BitVec 8)).length ∧
    (∀ p, immField .fixupRiscvJal p = true →
      instBit (List.replicate (2 ^ 32 + 2) 0) (BitVec.ofNat 32 (2 ^ 32 - 2)).toNat p = false) ∧
    decodeImm (fieldLayout .fixupRiscvJal).runs 21
        (instBit (applyFixup ⟨BitVec.ofNat 32 (2 ^ 32 - 2), .target .fixupRiscvJal⟩
          (List.replicate (2 ^ 32 + 2) 0) 2).1 (BitVec.ofNat 32 (2 ^ 32 - 2)).toNat) ≠
      (2 : BitVec 64).toInt := by
  refine ⟨by decide, by decide, by rw [List.length_replicate]; decide,
    fun p _ => instBit_replicate_zero _ _ p, ?_⟩
  have hinst : ∀ o (v : BitVec 64), instBit (orBytesLE (List.replicate (2 ^ 32 + 2) 0)
      (BitVec.ofNat 32 (2 ^ 32 - 2)) v 4) o = fun p =>
        (decide (o + p / 8 < 2 ^ 32 + 2) && decide (p % 8 < 8) &&
          orBytesLE.stores (BitVec.ofNat 32 (2 ^ 32 - 2)) v 4 (o + p / 8) (p % 8)) :=
    fun o v => funext (instBit_orBytesLE_replicate _ _ _ _ o)
  rw [applyFixup_fst]
  erw [hinst]
  decide

/-! ### What an error path writes -/

/-- Bit `m` of `encodedValue n v`, for `1 ≤ m < n`, is bit `m` of `v`. -/
theorem getLsbD_encodedValue {n m : Nat} (hn : n ≤ 64) (h1 : 1 ≤ m) (hm : m < n)
    (value : BitVec 64) : (encodedValue n value).getLsbD m = value.getLsbD m := by
  simp only [encodedValue, BitVec.getLsbD_signExtend, BitVec.getLsbD_setWidth, BitVec.getLsbD_and,
    BitVec.getLsbD_not, BitVec.ofNat_eq_ofNat, BitVec.getLsbD_one]
  simp [hm, show m < 64 by omega, show m ≠ 0 by omega]

/-- `encodedValue n v` is even and in range for `isInt<n>`. -/
theorem encodedValue_checked {n : Nat} (h1 : 1 ≤ n) (hn : n < 64) (value : BitVec 64) :
    isInt n (encodedValue n value) = true ∧ (encodedValue n value).getLsbD 0 = false := by
  refine ⟨isInt_signExtend h1 hn _, ?_⟩
  simp only [encodedValue, BitVec.getLsbD_signExtend, BitVec.getLsbD_setWidth, BitVec.getLsbD_and,
    BitVec.getLsbD_not, BitVec.ofNat_eq_ofNat, BitVec.getLsbD_one]
  simp [show 0 < n by omega]

/-- A PC-relative kind writes for `encodedValue N Value` what it writes for `Value`: the loop
reads only the operand bits `[1, N)` the layout holds. -/
theorem applyFixup_fst_encodedValue {k : Fixups} {N : Nat} (hk : pcrelWidth k = some N)
    (offset : BitVec 32) (data : List (BitVec 8)) (value : BitVec 64) :
    (applyFixup ⟨offset, .target k⟩ data (encodedValue N value)).1 =
      (applyFixup ⟨offset, .target k⟩ data value).1 := by
  obtain ⟨hruns, -⟩ := pcrelWidth_layout hk
  have hN := (pcrelWidth_bounds hk).2
  rw [applyFixup_fst, applyFixup_fst]
  refine orBytesLE_congr fun p hp => ?_
  rw [getLsbD_storedValue k _ hp, getLsbD_storedValue k _ hp, fieldOperand_of_pcrelWidth hk,
    fieldOperand_of_pcrelWidth hk]
  refine layoutBit_congr (fun s hs t ht => ?_) p
  have := hruns s hs
  exact getLsbD_encodedValue (by omega) (by omega) (by omega) value

/-- A `jal` with the odd offset `3`: the alignment error is reported, and the instruction still
changes. -/
theorem applyFixup_jal_odd_writes :
    (applyFixup ⟨0, .target .fixupRiscvJal⟩ [0x6f, 0, 0, 0] 3).2 ≠ [] ∧
      (applyFixup ⟨0, .target .fixupRiscvJal⟩ [0x6f, 0, 0, 0] 3).1 ≠ [0x6f, 0, 0, 0] := by
  decide

/-- **Errors do not stop the fixup.** When `applyFixup` reports an error, the kind is `jal`, of
width `N = 21`, or `branch`, of width `N = 13`, and the bytes after the call are those of a call
with `encodedValue N Value`, which reports nothing: the offset with bit `0` dropped and the high
bits cut is encoded. -/
theorem applyFixup_of_diagnostic (fixup : MCFixup FixupKind) (data : List (BitVec 8))
    (value : BitVec 64) (h : (applyFixup fixup data value).2 ≠ []) :
    ∃ N, ((fixup.kind = .target .fixupRiscvJal ∧ N = 21) ∨
        (fixup.kind = .target .fixupRiscvBranch ∧ N = 13)) ∧
      (applyFixup fixup data value).1 = (applyFixup fixup data (encodedValue N value)).1 ∧
      (applyFixup fixup data (encodedValue N value)).2 = [] := by
  obtain ⟨offset, kind⟩ := fixup
  -- What the round trip gives for a checked kind of width `N`.
  have encoded : ∀ {k N}, pcrelWidth k = some N → kind = .target k →
      (applyFixup ⟨offset, kind⟩ data value).1 =
        (applyFixup ⟨offset, kind⟩ data (encodedValue N value)).1 ∧
      (applyFixup ⟨offset, kind⟩ data (encodedValue N value)).2 = [] := by
    rintro k N hk rfl
    obtain ⟨h1, hN⟩ := pcrelWidth_bounds hk
    exact ⟨(applyFixup_fst_encodedValue hk offset data value).symm,
      (applyFixup_snd_eq_nil_iff hk offset data _).mpr
        (.inr (.inr (encodedValue_checked (by omega) hN value)))⟩
  rw [applyFixup_snd, adjustFixupValue_snd] at h
  split_ifs at h with h0 hj hb
  · exact absurd rfl h
  · exact ⟨21, .inl ⟨hj, rfl⟩, @encoded .fixupRiscvJal 21 rfl hj⟩
  · exact ⟨13, .inr ⟨hb, rfl⟩, @encoded .fixupRiscvBranch 13 rfl hb⟩
  · exact absurd rfl h

/-- A `jal` with the odd offset `3` writes what a `jal` with `2` writes. -/
theorem applyFixup_of_diagnostic_jal :
    (applyFixup ⟨0, .target .fixupRiscvJal⟩ [0x6f, 0, 0, 0] 3).2 ≠ [] ∧
    ∃ N, (((⟨0, .target .fixupRiscvJal⟩ : MCFixup FixupKind).kind = .target .fixupRiscvJal ∧
          N = 21) ∨
        ((⟨0, .target .fixupRiscvJal⟩ : MCFixup FixupKind).kind = .target .fixupRiscvBranch ∧
          N = 13)) ∧
      (applyFixup ⟨0, .target .fixupRiscvJal⟩ [0x6f, 0, 0, 0] 3).1 =
        (applyFixup ⟨0, .target .fixupRiscvJal⟩ [0x6f, 0, 0, 0] (encodedValue N 3)).1 ∧
      (applyFixup ⟨0, .target .fixupRiscvJal⟩ [0x6f, 0, 0, 0] (encodedValue N 3)).2 = [] :=
  ⟨by decide, applyFixup_of_diagnostic _ _ _ (by decide)⟩

end Keystone.RISCV
