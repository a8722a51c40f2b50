import Mathlib.Data.BitVec
import Mathlib.Tactic.Positivity

/-!
# Fixup kinds

What the backends of the source read of a fixup: its kind, the `MCFixupKindInfo` of the kind,
and its byte offset in the fragment (`MCFixup::getOffset`, an `unsigned`).

## Main definitions

* `Keystone.MC.MCFixupKindInfo` — the `TargetOffset` and `TargetSize` of a kind.
* `Keystone.MC.DataKind` — the generic kinds `FK_Data_1`, `FK_Data_2`, `FK_Data_4`, `FK_Data_8`.
* `Keystone.MC.MCFixupKind` — a generic data kind or one of a target's own kinds.
* `Keystone.MC.KsErr` — the error codes the backends report through `KsError`.
* `Keystone.MC.isInt` — `isInt<N>` of `MathExtras.h`.

## Main results

* `Keystone.MC.toInt_setWidth_of_isInt` — a value that `isInt<N>` accepts is the sign extension
  of its low `N` bits.
* `Keystone.MC.isInt_signExtend` — and every sign extension from `N` bits is accepted.
-/

namespace Keystone.MC

/-- `MCFixupKindInfo`: the bit position at which a kind's value is inserted and the width of
its field. The name and the flags of the source record are read by no function modelled here. -/
structure MCFixupKindInfo where
  targetOffset : Nat
  targetSize : Nat
  deriving DecidableEq, Repr

/-- The generic data kinds `FK_Data_1`, `FK_Data_2`, `FK_Data_4` and `FK_Data_8`. -/
inductive DataKind
  | fkData1
  | fkData2
  | fkData4
  | fkData8
  deriving DecidableEq, Repr

/-- The width in bytes of a generic data kind. -/
def DataKind.size : DataKind → Nat
  | .fkData1 => 1
  | .fkData2 => 2
  | .fkData4 => 4
  | .fkData8 => 8

/-- Modelled from the spec: the generic table of `MCAsmBackend::getFixupKindInfo` is not under
`src/`. A data kind of `N` bytes is inserted at bit `0` of a field of `8 N` bits. -/
def DataKind.info (k : DataKind) : MCFixupKindInfo := ⟨0, 8 * k.size⟩

/-- A fixup kind as a backend sees it: a generic data kind, below `FirstTargetFixupKind`, or one
of the target's own kinds. -/
inductive MCFixupKind (Target : Type)
  | data (k : DataKind)
  | target (k : Target)
  deriving DecidableEq, Repr

/-- `MCFixup`, as far as `applyFixup` reads it: the byte offset of the fixup in its fragment,
an `unsigned`, and its kind. -/
structure MCFixup (Kind : Type) where
  offset : BitVec 32
  kind : Kind
  deriving DecidableEq, Repr

/-- The codes of `keystone.h` that a modelled function stores in its `KsError` argument. -/
inductive KsErr
  | ksErrAsmFixupInvalid
  deriving DecidableEq, Repr

/-- Modelled from the spec: `isInt<N>` of `MathExtras.h` is not under `src/`. It is the spec's
`isSignedNBit(value, N)`: the value, read as a signed 64-bit integer (the `int64_t` parameter of
`isInt`), lies in `[-2^(N-1), 2^(N-1))`; every value passes for `N ≥ 64`. -/
def isInt (N : Nat) (x : BitVec 64) : Bool :=
  decide (64 ≤ N) || (decide (-(2 ^ (N - 1) : Int) ≤ x.toInt) && decide (x.toInt < 2 ^ (N - 1)))

/-- A value that `isInt<N>` accepts is the sign extension of its low `N` bits. -/
theorem toInt_setWidth_of_isInt {N : Nat} {x : BitVec 64} (hN : 0 < N) (hN64 : N < 64)
    (h : isInt N x = true) : (x.setWidth N).toInt = x.toInt := by
  simp only [isInt, show ¬ 64 ≤ N by omega, decide_False, Bool.false_or, Bool.and_eq_true,
    decide_eq_true_eq] at h
  have hP : ((2 ^ N : Nat) : Int) = 2 * 2 ^ (N - 1) := by
    rw [Nat.cast_pow, ← pow_succ']; congr 1; omega
  have hdvd : ((2 ^ N : Nat) : Int) ∣ ((2 ^ 64 : Nat) : Int) :=
    Int.natCast_dvd_natCast.mpr (Nat.pow_dvd_pow 2 hN64.le)
  have hr : ((x.toNat % 2 ^ N : Nat) : Int) = x.toInt % ((2 ^ N : Nat) : Int) := by
    rw [BitVec.toInt_eq_toNat_bmod, ← Int.emod_emod_of_dvd _ hdvd, Int.bmod_emod,
      Int.emod_emod_of_dvd _ hdvd, Int.ofNat_emod]
  rw [BitVec.toInt_eq_toNat_cond, BitVec.toNat_setWidth]
  have hpos : (0 : Int) < 2 ^ (N - 1) := by positivity
  rcases Int.lt_or_le x.toInt 0 with hneg | hnn
  · rw [Int.emod_eq_add_self_emod, Int.emod_eq_of_lt (by omega) (by omega)] at hr
    rw [if_neg (by omega)]
    omega
  · rw [Int.emod_eq_of_lt hnn (by omega)] at hr
    rw [if_pos (by omega)]
    omega

/-- A sign extension from `n` bits passes `isInt<n>`. -/
theorem isInt_signExtend {n : Nat} (h1 : 1 ≤ n) (hn : n < 64) (x : BitVec n) :
    isInt n (x.signExtend 64) = true := by
  have hP : ((2 ^ n : Nat) : Int) = 2 * 2 ^ (n - 1) := by
    rw [Nat.cast_pow, ← pow_succ']; congr 1; omega
  have hx : ((x.toNat : Nat) : Int) < ((2 ^ n : Nat) : Int) := by exact_mod_cast x.isLt
  have hle : (2 : Int) ^ (n - 1) ≤ 2 ^ 62 := pow_le_pow_right₀ (by norm_num) (by omega)
  simp only [isInt, show ¬ 64 ≤ n by omega, decide_False, Bool.false_or, Bool.and_eq_true,
    decide_eq_true_eq, BitVec.signExtend, BitVec.toInt_ofInt]
  rw [Int.bmod_def, BitVec.toInt_eq_toNat_cond]
  split_ifs <;> omega

end Keystone.MC
