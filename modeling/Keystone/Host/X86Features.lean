import Mathlib.Data.List.Basic

/-!
# The x86 host features from CPUID

On x86, `sys::getHostCPUFeatures` fills a `StringMap<bool>` from the processor's `cpuid` and
`xgetbv` instructions. It runs `cpuid` leaf 0 for the highest basic leaf, leaf 1 for the basic
features, then `xgetbv` for the register state the OS saves on a context switch, leaf
`0x80000000` for the highest extended leaf, `0x80000001`, leaf 7 and leaf `0xD`, each guarded by
the highest leaf. All of them write the same four locals `EAX`, `EBX`, `ECX` and `EDX`, so a
feature read after a leaf that did not run reads what an earlier leaf left; and `xgetbv` runs
only when the `&&` before it does not short-circuit. `getAvailableFeatures`, which
`sys::getHostCPUName` uses to tell processors apart, computes some of the same features again
as a bitmask.

## Design

The helpers `getX86CpuIDAndInfo`, `getX86CpuIDAndInfoEx` and `getX86XCR0` either run their
instruction or return `true`, as the preprocessor decides for the build, so a `Host` gives each
instruction as an `Option`. The function is run as the source writes it: its locals are a
record, each statement that sets them is a function on the record, and each run of
`Features["..."] = ...;` lines is a list of keys with the expression each line assigns.

The abstract model is a table: each feature with the leaf, register and bit it is read from,
and the register state (none, YMM or ZMM) the OS must save for it. Its value is the bit, when
the processor has the leaf and the OS saves the state; this is the meaning of the function
independently of which registers the code reuses. The refinement theorem says the code writes
exactly the table; it is proved one run of writes at a time, each against its part of the
table, from what the statements before it leave in the locals.

## Main definitions

* `Keystone.Host.X86.getHostCPUFeatures` — the function, over a `Host`.
* `Keystone.Host.X86.x86Features` — the table of features.
* `Keystone.Host.X86.getAvailableFeatures` — the bitmask of `getHostCPUName`.

## Main results

* `Keystone.Host.X86.getHostCPUFeatures_eq` — the code writes the table's values.
* `Keystone.Host.X86.getHostCPUFeatures_needs_saved_state` — no AVX feature is reported unless
  the OS saves the YMM state, and no AVX-512 one unless it saves the ZMM state too.
* `Keystone.Host.X86.getAvailableFeatures_agrees` — the bitmask and the map agree on every
  feature both compute.
-/

namespace Keystone.Host.X86

/-! ### The instructions -/

/-- The four outputs of a `cpuid`, `EAX`, `EBX`, `ECX` and `EDX`. -/
structure Regs where
  eax : BitVec 32
  ebx : BitVec 32
  ecx : BitVec 32
  edx : BitVec 32

/-- What the host's instructions return: `cpuid` by leaf, `cpuid` by leaf and subleaf, and
`xgetbv` of `XCR0` as its low and high words. `none` where the build's helper cannot run the
instruction and returns `true`. -/
structure Host where
  cpuid : Option (BitVec 32 → Regs)
  cpuidEx : Option (BitVec 32 → BitVec 32 → Regs)
  xcr0 : Option (BitVec 32 × BitVec 32)

/-- `getX86CpuIDAndInfo(value, ...)`: `true` if `cpuid` cannot run, the outputs left as they
were. -/
def getX86CpuIDAndInfo (host : Host) (value : BitVec 32) (out : Regs) : Bool × Regs :=
  match host.cpuid with
  | some cpuid => (false, cpuid value)
  | none => (true, out)

/-- `getX86CpuIDAndInfoEx(value, subleaf, ...)`. -/
def getX86CpuIDAndInfoEx (host : Host) (value subleaf : BitVec 32) (out : Regs) :
    Bool × Regs :=
  match host.cpuidEx with
  | some cpuid => (false, cpuid value subleaf)
  | none => (true, out)

/-- `getX86XCR0(&EAX, &EDX)`. -/
def getX86XCR0 (host : Host) (EAX EDX : BitVec 32) : Bool × BitVec 32 × BitVec 32 :=
  match host.xcr0 with
  | some (eax, edx) => (false, eax, edx)
  | none => (true, EAX, EDX)

/-- `(r >> n) & 1`, as a truth value. -/
def bit (r : BitVec 32) (n : Nat) : Bool := (r >>> n) &&& 1 != 0

theorem bit_eq_getLsbD (r : BitVec 32) (n : Nat) : bit r n = r.getLsbD n := by
  have h : (r >>> n) &&& 1 = 0 ↔ 1 &&& r.toNat >>> n = 0 := by
    rw [BitVec.toNat_eq, Nat.and_comm]; simp
  rw [bit, BitVec.getLsbD, Nat.testBit, Bool.eq_iff_iff, bne_iff_ne, bne_iff_ne, ne_eq, ne_eq, h]

/-- `(unsigned)b`: a truth value as `0` or `1`. -/
def ofBool (b : Bool) : BitVec 32 := if b then 1 else 0

theorem getLsbD_ofBool (b : Bool) (n : Nat) : (ofBool b).getLsbD n = (b && decide (n = 0)) := by
  cases b <;> simp [ofBool, BitVec.getLsbD_one]

/-- `(r >> m) & 1` is the bit as a number. -/
theorem and_one_eq_ofBool (r : BitVec 32) (m : Nat) : (r >>> m) &&& 1 = ofBool (bit r m) := by
  apply BitVec.eq_of_getLsbD_eq
  intro i
  simp only [getLsbD_ofBool, bit_eq_getLsbD, BitVec.getLsbD_and, BitVec.getLsbD_ushiftRight,
    BitVec.getLsbD_one]
  rcases Nat.eq_zero_or_pos i.1 with h | h
  · simp [h]
  · simp [Nat.pos_iff_ne_zero.mp h]

/-- Or-ing in a truth value at bit `k` sets bit `k`, if it is a bit of the word, when the value
holds. -/
theorem getLsbD_or_ofBool (x : BitVec 32) (b : Bool) (k n : Nat) :
    (x ||| ofBool b <<< k).getLsbD n = (x.getLsbD n || (b && decide (n = k) && decide (k < 32))) := by
  simp only [BitVec.getLsbD_or, BitVec.getLsbD_shiftLeft, getLsbD_ofBool]
  rcases Nat.lt_trichotomy n k with h | rfl | h
  · simp [h, Nat.ne_of_lt h]
  · simp [Bool.and_comm]
  · simp [Nat.sub_ne_zero_of_lt h, Nat.ne_of_gt h, Nat.not_lt.mpr h.le]

/-- `EBX & 0x20` tests bit 5. -/
theorem and_0x20_ne_zero (x : BitVec 32) : (x &&& 0x20 != 0) = bit x 5 := by
  rw [show (0x20 : BitVec 32) = BitVec.twoPow 32 5 by decide, BitVec.and_twoPow, bit_eq_getLsbD]
  cases x.getLsbD 5 <;> decide

/-- `const unsigned AVXBits = (1 << 27) | (1 << 28);` of `getAvailableFeatures`. -/
def AVXBits : BitVec 32 := (1 : BitVec 32) <<< 27 ||| (1 : BitVec 32) <<< 28

theorem and_or_distrib (x a b : BitVec 32) : x &&& (a ||| b) = (x &&& a) ||| (x &&& b) :=
  BitVec.eq_of_getLsbD_eq fun i => by
    simp only [BitVec.getLsbD_and, BitVec.getLsbD_or, Bool.and_or_distrib_left]

/-- `(ECX & AVXBits) == AVXBits` tests bits 27 and 28. -/
theorem and_AVXBits_eq (x : BitVec 32) : (x &&& AVXBits == AVXBits) = (bit x 27 && bit x 28) := by
  rw [show AVXBits = BitVec.twoPow 32 27 ||| BitVec.twoPow 32 28 by decide,
    and_or_distrib, BitVec.and_twoPow, BitVec.and_twoPow, bit_eq_getLsbD,
    bit_eq_getLsbD]
  cases x.getLsbD 27 <;> cases x.getLsbD 28 <;> decide

/-! ### The map -/

/-- A `StringMap<bool>`: the value at each key, `none` at a key not in the map. -/
def FeatureMap : Type := String → Option Bool

/-- `Features[key] = value`. -/
def FeatureMap.set (F : FeatureMap) (key : String) (value : Bool) : FeatureMap :=
  fun k => if k = key then some value else F k

/-- The writes of a list of keys and values, in order. -/
def FeatureMap.setAll (F : FeatureMap) (ws : List (String × Bool)) : FeatureMap :=
  ws.foldl (fun F w => F.set w.1 w.2) F

@[simp]
theorem FeatureMap.setAll_nil (F : FeatureMap) : F.setAll [] = F := rfl

@[simp]
theorem FeatureMap.setAll_append (F : FeatureMap) (ws vs : List (String × Bool)) :
    F.setAll (ws ++ vs) = (F.setAll ws).setAll vs := List.foldl_append _ _ _ _

/-- A key no write names keeps its value. -/
theorem FeatureMap.setAll_of_not_mem (F : FeatureMap) (ws : List (String × Bool)) (k : String)
    (hk : k ∉ ws.map Prod.fst) : F.setAll ws k = F k := by
  induction ws generalizing F with
  | nil => rfl
  | cons w ws ih =>
    simp only [List.map_cons, List.mem_cons, not_or] at hk
    rw [setAll, List.foldl_cons, ← setAll, ih _ hk.2, set, if_neg hk.1]

/-- A key some write names holds the value of one of its writes. -/
theorem FeatureMap.setAll_mem (F : FeatureMap) (ws : List (String × Bool)) (k : String)
    (hk : k ∈ ws.map Prod.fst) : ∃ v, (k, v) ∈ ws ∧ F.setAll ws k = some v := by
  induction ws generalizing F with
  | nil => simp at hk
  | cons w ws ih =>
    rw [setAll, List.foldl_cons, ← setAll]
    by_cases hin : k ∈ ws.map Prod.fst
    · obtain ⟨v, hv, he⟩ := ih (F.set w.1 w.2) hin
      exact ⟨v, List.mem_cons_of_mem _ hv, he⟩
    · have hw : k = w.1 := by simpa [hin] using hk
      refine ⟨w.2, by simp [hw], ?_⟩
      rw [setAll_of_not_mem _ _ _ hin, set, if_pos hw]

/-! ### The function -/

/-- The locals of `getHostCPUFeatures` other than the map. -/
structure Locals where
  EAX : BitVec 32
  EBX : BitVec 32
  ECX : BitVec 32
  EDX : BitVec 32
  MaxLevel : BitVec 32
  MaxExtLevel : BitVec 32
  HasAVXSave : Bool
  HasAVX512Save : Bool
  HasExtLeaf1 : Bool
  HasLeaf7 : Bool
  HasLeafD : Bool

/-- `&EAX, &EBX, &ECX, &EDX`, read. -/
def Locals.regs (l : Locals) : Regs := ⟨l.EAX, l.EBX, l.ECX, l.EDX⟩

/-- `&EAX, &EBX, &ECX, &EDX`, written. -/
def Locals.setRegs (l : Locals) (r : Regs) : Locals :=
  { l with EAX := r.eax, EBX := r.ebx, ECX := r.ecx, EDX := r.edx }

/-- `getX86CpuIDAndInfo(1, &EAX, &EBX, &ECX, &EDX);`, its result not checked. -/
def cpuidLeaf1 (host : Host) (l : Locals) : Locals :=
  l.setRegs (getX86CpuIDAndInfo host 1 l.regs).2

/-- `bool HasAVXSave = ((ECX >> 27) & 1) && ((ECX >> 28) & 1) && !getX86XCR0(&EAX, &EDX) &&
((EAX & 0x6) == 0x6);`: `xgetbv` runs, and writes `EAX` and `EDX`, only if the two bits are
set. -/
def setHasAVXSave (host : Host) (l : Locals) : Locals :=
  if bit l.ECX 27 && bit l.ECX 28 then
    match getX86XCR0 host l.EAX l.EDX with
    | (failed, EAX, EDX) => { l with EAX, EDX, HasAVXSave := !failed && (EAX &&& 6 == 6) }
  else { l with HasAVXSave := false }

/-- `bool HasAVX512Save = HasAVXSave && ((EAX & 0xe0) == 0xe0);` -/
def setHasAVX512Save (l : Locals) : Locals :=
  { l with HasAVX512Save := l.HasAVXSave && (l.EAX &&& 0xe0 == 0xe0) }

/-- `getX86CpuIDAndInfo(0x80000000, &MaxExtLevel, &EBX, &ECX, &EDX);`, which keeps `EAX`. -/
def cpuidMaxExtLevel (host : Host) (l : Locals) : Locals :=
  let r := (getX86CpuIDAndInfo host 0x80000000 ⟨l.MaxExtLevel, l.EBX, l.ECX, l.EDX⟩).2
  { l with MaxExtLevel := r.eax, EBX := r.ebx, ECX := r.ecx, EDX := r.edx }

/-- `level >= least && !call(&EAX, &EBX, &ECX, &EDX)`: whether the call was made and ran, and
the locals it leaves; the call is made only if the level is reached. -/
def leafCall (level least : BitVec 32) (call : Regs → Bool × Regs) (l : Locals) :
    Bool × Locals :=
  if least ≤ level then
    let r := call l.regs
    (!r.1, l.setRegs r.2)
  else (false, l)

/-- `bool HasExtLeaf1 = MaxExtLevel >= 0x80000001 && !getX86CpuIDAndInfo(0x80000001, &EAX,
&EBX, &ECX, &EDX);` -/
def setHasExtLeaf1 (host : Host) (l : Locals) : Locals :=
  let r := leafCall l.MaxExtLevel 0x80000001 (getX86CpuIDAndInfo host 0x80000001) l
  { r.2 with HasExtLeaf1 := r.1 }

/-- `bool HasLeaf7 = MaxLevel >= 7 && !getX86CpuIDAndInfoEx(0x7, 0x0, &EAX, &EBX, &ECX,
&EDX);` -/
def setHasLeaf7 (host : Host) (l : Locals) : Locals :=
  let r := leafCall l.MaxLevel 7 (getX86CpuIDAndInfoEx host 7 0) l
  { r.2 with HasLeaf7 := r.1 }

/-- `bool HasLeafD = MaxLevel >= 0xd && !getX86CpuIDAndInfoEx(0xd, 0x1, &EAX, &EBX, &ECX,
&EDX);` -/
def setHasLeafD (host : Host) (l : Locals) : Locals :=
  let r := leafCall l.MaxLevel 0xd (getX86CpuIDAndInfoEx host 0xd 1) l
  { r.2 with HasLeafD := r.1 }

/-- A run of `Features["key"] = expression;` lines: each key with its expression. -/
def Writes : Type := List (String × (Locals → Bool))

/-- The lines of a run, in order, in the locals they read. -/
def setFeatures (ws : Writes) (l : Locals) (F : FeatureMap) : FeatureMap :=
  F.setAll (List.map (fun w => (w.1, w.2 l)) ws)

/-- The lines after the `cpuid` of leaf 1. -/
def leaf1Writes : Writes :=
  [("cmov", fun l => bit l.EDX 15), ("mmx", fun l => bit l.EDX 23),
    ("sse", fun l => bit l.EDX 25), ("sse2", fun l => bit l.EDX 26),
    ("sse3", fun l => bit l.ECX 0), ("ssse3", fun l => bit l.ECX 9),
    ("sse4.1", fun l => bit l.ECX 19), ("sse4.2", fun l => bit l.ECX 20),
    ("pclmul", fun l => bit l.ECX 1), ("cx16", fun l => bit l.ECX 13),
    ("movbe", fun l => bit l.ECX 22), ("popcnt", fun l => bit l.ECX 23),
    ("aes", fun l => bit l.ECX 25), ("rdrnd", fun l => bit l.ECX 30)]

/-- The lines after `HasAVXSave`. -/
def avxWrites : Writes :=
  [("avx", fun l => l.HasAVXSave), ("fma", fun l => l.HasAVXSave && bit l.ECX 12),
    ("f16c", fun l => l.HasAVXSave && bit l.ECX 29),
    ("xsave", fun l => l.HasAVXSave && bit l.ECX 26)]

/-- The lines after `HasExtLeaf1`. -/
def extWrites : Writes :=
  [("lzcnt", fun l => l.HasExtLeaf1 && bit l.ECX 5),
    ("sse4a", fun l => l.HasExtLeaf1 && bit l.ECX 6),
    ("prfchw", fun l => l.HasExtLeaf1 && bit l.ECX 8),
    ("xop", fun l => l.HasExtLeaf1 && bit l.ECX 11 && l.HasAVXSave),
    ("fma4", fun l => l.HasExtLeaf1 && bit l.ECX 16 && l.HasAVXSave),
    ("tbm", fun l => l.HasExtLeaf1 && bit l.ECX 21),
    ("mwaitx", fun l => l.HasExtLeaf1 && bit l.ECX 29)]

/-- The lines after `HasLeaf7`. -/
def leaf7Writes : Writes :=
  [("avx2", fun l => l.HasAVXSave && l.HasLeaf7 && bit l.EBX 5),
    ("fsgsbase", fun l => l.HasLeaf7 && bit l.EBX 0), ("sgx", fun l => l.HasLeaf7 && bit l.EBX 2),
    ("bmi", fun l => l.HasLeaf7 && bit l.EBX 3), ("hle", fun l => l.HasLeaf7 && bit l.EBX 4),
    ("bmi2", fun l => l.HasLeaf7 && bit l.EBX 8),
    ("invpcid", fun l => l.HasLeaf7 && bit l.EBX 10),
    ("rtm", fun l => l.HasLeaf7 && bit l.EBX 11),
    ("rdseed", fun l => l.HasLeaf7 && bit l.EBX 18),
    ("adx", fun l => l.HasLeaf7 && bit l.EBX 19), ("smap", fun l => l.HasLeaf7 && bit l.EBX 20),
    ("pcommit", fun l => l.HasLeaf7 && bit l.EBX 22),
    ("clflushopt", fun l => l.HasLeaf7 && bit l.EBX 23),
    ("clwb", fun l => l.HasLeaf7 && bit l.EBX 24), ("sha", fun l => l.HasLeaf7 && bit l.EBX 29),
    ("avx512f", fun l => l.HasLeaf7 && bit l.EBX 16 && l.HasAVX512Save),
    ("avx512dq", fun l => l.HasLeaf7 && bit l.EBX 17 && l.HasAVX512Save),
    ("avx512ifma", fun l => l.HasLeaf7 && bit l.EBX 21 && l.HasAVX512Save),
    ("avx512pf", fun l => l.HasLeaf7 && bit l.EBX 26 && l.HasAVX512Save),
    ("avx512er", fun l => l.HasLeaf7 && bit l.EBX 27 && l.HasAVX512Save),
    ("avx512cd", fun l => l.HasLeaf7 && bit l.EBX 28 && l.HasAVX512Save),
    ("avx512bw", fun l => l.HasLeaf7 && bit l.EBX 30 && l.HasAVX512Save),
    ("avx512vl", fun l => l.HasLeaf7 && bit l.EBX 31 && l.HasAVX512Save),
    ("prefetchwt1", fun l => l.HasLeaf7 && bit l.ECX 0),
    ("avx512vbmi", fun l => l.HasLeaf7 && bit l.ECX 1 && l.HasAVX512Save),
    ("pku", fun l => l.HasLeaf7 && bit l.ECX 4)]

/-- The lines after `HasLeafD`. -/
def leafDWrites : Writes :=
  [("xsaveopt", fun l => l.HasAVXSave && l.HasLeafD && bit l.EAX 0),
    ("xsavec", fun l => l.HasAVXSave && l.HasLeafD && bit l.EAX 1),
    ("xsaves", fun l => l.HasAVXSave && l.HasLeafD && bit l.EAX 3)]

/-- `sys::getHostCPUFeatures(Features)` on x86: `false` and the map untouched if `cpuid` cannot
run or reports no leaf 1. `MaxLevel` and `MaxExtLevel` start uninitialised, read only after a
call that ran; the flags are set before they are read. -/
def getHostCPUFeatures (host : Host) (Features : FeatureMap) : Bool × FeatureMap :=
  match getX86CpuIDAndInfo host 0 ⟨0, 0, 0, 0⟩ with
  | (true, _) => (false, Features)
  | (false, r) =>
    if r.eax < 1 then (false, Features) else
    let l : Locals := ⟨0, 0, 0, 0, r.eax, 0, false, false, false, false, false⟩
    let l := cpuidLeaf1 host l
    let Features := setFeatures leaf1Writes l Features
    let l := setHasAVXSave host l
    let Features := setFeatures avxWrites l Features
    let l := cpuidMaxExtLevel host (setHasAVX512Save l)
    let l := setHasExtLeaf1 host l
    let Features := setFeatures extWrites l Features
    let l := setHasLeaf7 host l
    let Features := setFeatures leaf7Writes l Features
    let l := setHasLeafD host l
    (true, setFeatures leafDWrites l Features)

/-! ### The table -/

/-- The leaves features are read from: 1, `0x80000001`, 7 (subleaf 0) and `0xD` (subleaf 1). -/
inductive Leaf where
  | basic
  | ext
  | leaf7
  | leafD
  deriving DecidableEq

/-- The four registers. -/
inductive Reg where
  | eax
  | ebx
  | ecx
  | edx
  deriving DecidableEq

/-- One of the four registers. -/
def Regs.get (r : Regs) : Reg → BitVec 32
  | .eax => r.eax
  | .ebx => r.ebx
  | .ecx => r.ecx
  | .edx => r.edx

/-- The register state the OS must save for a feature: none, the YMM state (`XCR0` bits 1
and 2), or the ZMM state as well (bits 5 to 7). -/
inductive OsState where
  | none
  | ymm
  | zmm
  deriving DecidableEq

/-- A feature: its key, where its bit is (no bit for `avx`, which is the YMM state itself), and
the state it needs. -/
structure FeatureBit where
  name : String
  leaf : Leaf
  reg : Reg
  index : Option Nat
  state : OsState
  deriving DecidableEq

/-- The registers of a leaf, if the processor has it (leaf 0 or `0x80000000` reports a
highest leaf at least it) and the host can read it. -/
def Host.leaf? (host : Host) (cpuid : BitVec 32 → Regs) : Leaf → Option Regs
  | .basic => some (cpuid 1)
  | .ext => if 0x80000001 ≤ (cpuid 0x80000000).eax then some (cpuid 0x80000001) else none
  | .leaf7 => if 7 ≤ (cpuid 0).eax then host.cpuidEx.map (· 7 0) else none
  | .leafD => if 0xd ≤ (cpuid 0).eax then host.cpuidEx.map (· 0xd 1) else none

/-- `XCR0` can be read and has every bit of the mask. -/
def Host.xcr0Has (host : Host) (mask : BitVec 32) : Bool :=
  match host.xcr0 with
  | some (eax, _) => eax &&& mask == mask
  | none => false

/-- The OS saves the YMM state: `cpuid` reports `OSXSAVE` and `AVX`, and `XCR0` has bits 1
and 2. -/
def Host.savesYmm (host : Host) (cpuid : BitVec 32 → Regs) : Bool :=
  bit (cpuid 1).ecx 27 && bit (cpuid 1).ecx 28 && host.xcr0Has 6

/-- The OS saves the ZMM state: the YMM state, and `XCR0` has bits 5 to 7. -/
def Host.savesZmm (host : Host) (cpuid : BitVec 32 → Regs) : Bool :=
  host.savesYmm cpuid && host.xcr0Has 0xe0

/-- The OS saves a state. -/
def Host.saves (host : Host) (cpuid : BitVec 32 → Regs) : OsState → Bool
  | .none => true
  | .ymm => host.savesYmm cpuid
  | .zmm => host.savesZmm cpuid

/-- What a feature should be: its bit, if the processor has its leaf and the OS saves its
state. -/
def FeatureBit.value (e : FeatureBit) (host : Host) (cpuid : BitVec 32 → Regs) : Bool :=
  match host.leaf? cpuid e.leaf with
  | some r => host.saves cpuid e.state && e.index.all (bit (r.get e.reg))
  | none => false

/-- The features of leaf 1 that need no saved state. -/
def basicTable : List FeatureBit :=
  [⟨"cmov", .basic, .edx, some 15, .none⟩, ⟨"mmx", .basic, .edx, some 23, .none⟩,
    ⟨"sse", .basic, .edx, some 25, .none⟩, ⟨"sse2", .basic, .edx, some 26, .none⟩,
    ⟨"sse3", .basic, .ecx, some 0, .none⟩, ⟨"ssse3", .basic, .ecx, some 9, .none⟩,
    ⟨"sse4.1", .basic, .ecx, some 19, .none⟩, ⟨"sse4.2", .basic, .ecx, some 20, .none⟩,
    ⟨"pclmul", .basic, .ecx, some 1, .none⟩, ⟨"cx16", .basic, .ecx, some 13, .none⟩,
    ⟨"movbe", .basic, .ecx, some 22, .none⟩, ⟨"popcnt", .basic, .ecx, some 23, .none⟩,
    ⟨"aes", .basic, .ecx, some 25, .none⟩, ⟨"rdrnd", .basic, .ecx, some 30, .none⟩]

/-- The features of leaf 1 that need the YMM state. -/
def avxTable : List FeatureBit :=
  [⟨"avx", .basic, .ecx, none, .ymm⟩, ⟨"fma", .basic, .ecx, some 12, .ymm⟩,
    ⟨"f16c", .basic, .ecx, some 29, .ymm⟩, ⟨"xsave", .basic, .ecx, some 26, .ymm⟩]

/-- The features of leaf `0x80000001`. -/
def extTable : List FeatureBit :=
  [⟨"lzcnt", .ext, .ecx, some 5, .none⟩, ⟨"sse4a", .ext, .ecx, some 6, .none⟩,
    ⟨"prfchw", .ext, .ecx, some 8, .none⟩, ⟨"xop", .ext, .ecx, some 11, .ymm⟩,
    ⟨"fma4", .ext, .ecx, some 16, .ymm⟩, ⟨"tbm", .ext, .ecx, some 21, .none⟩,
    ⟨"mwaitx", .ext, .ecx, some 29, .none⟩]

/-- The features of leaf 7. -/
def leaf7Table : List FeatureBit :=
  [⟨"avx2", .leaf7, .ebx, some 5, .ymm⟩, ⟨"fsgsbase", .leaf7, .ebx, some 0, .none⟩,
    ⟨"sgx", .leaf7, .ebx, some 2, .none⟩, ⟨"bmi", .leaf7, .ebx, some 3, .none⟩,
    ⟨"hle", .leaf7, .ebx, some 4, .none⟩, ⟨"bmi2", .leaf7, .ebx, some 8, .none⟩,
    ⟨"invpcid", .leaf7, .ebx, some 10, .none⟩, ⟨"rtm", .leaf7, .ebx, some 11, .none⟩,
    ⟨"rdseed", .leaf7, .ebx, some 18, .none⟩, ⟨"adx", .leaf7, .ebx, some 19, .none⟩,
    ⟨"smap", .leaf7, .ebx, some 20, .none⟩, ⟨"pcommit", .leaf7, .ebx, some 22, .none⟩,
    ⟨"clflushopt", .leaf7, .ebx, some 23, .none⟩, ⟨"clwb", .leaf7, .ebx, some 24, .none⟩,
    ⟨"sha", .leaf7, .ebx, some 29, .none⟩, ⟨"avx512f", .leaf7, .ebx, some 16, .zmm⟩,
    ⟨"avx512dq", .leaf7, .ebx, some 17, .zmm⟩, ⟨"avx512ifma", .leaf7, .ebx, some 21, .zmm⟩,
    ⟨"avx512pf", .leaf7, .ebx, some 26, .zmm⟩, ⟨"avx512er", .leaf7, .ebx, some 27, .zmm⟩,
    ⟨"avx512cd", .leaf7, .ebx, some 28, .zmm⟩, ⟨"avx512bw", .leaf7, .ebx, some 30, .zmm⟩,
    ⟨"avx512vl", .leaf7, .ebx, some 31, .zmm⟩, ⟨"prefetchwt1", .leaf7, .ecx, some 0, .none⟩,
    ⟨"avx512vbmi", .leaf7, .ecx, some 1, .zmm⟩, ⟨"pku", .leaf7, .ecx, some 4, .none⟩]

/-- The features of leaf `0xD`. -/
def leafDTable : List FeatureBit :=
  [⟨"xsaveopt", .leafD, .eax, some 0, .ymm⟩, ⟨"xsavec", .leafD, .eax, some 1, .ymm⟩,
    ⟨"xsaves", .leafD, .eax, some 3, .ymm⟩]

/-- Every feature of x86. -/
def x86Features : List FeatureBit :=
  basicTable ++ avxTable ++ extTable ++ leaf7Table ++ leafDTable

/-- The table's writes: each feature's key and what it should be. -/
def FeatureBit.writes (table : List FeatureBit) (host : Host) (cpuid : BitVec 32 → Regs) :
    List (String × Bool) :=
  table.map fun e => (e.name, e.value host cpuid)

/-! ### The refinement -/

section Refinement

variable {host : Host} {cpuid : BitVec 32 → Regs}

theorem getX86CpuIDAndInfo_of (hc : host.cpuid = some cpuid) (value : BitVec 32) (out : Regs) :
    getX86CpuIDAndInfo host value out = (false, cpuid value) := by
  simp [getX86CpuIDAndInfo, hc]

/-- What the statements after `HasAVX512Save` rely on: the two flags and `MaxLevel` say what
the host has. -/
structure AfterAVX (host : Host) (cpuid : BitVec 32 → Regs) (l : Locals) : Prop where
  hasAVXSave : l.HasAVXSave = host.savesYmm cpuid
  hasAVX512Save : l.HasAVX512Save = host.savesZmm cpuid
  maxLevel : l.MaxLevel = (cpuid 0).eax

/-- `HasAVXSave` is the YMM state, whatever `xgetbv` leaves in `EAX` and `EDX`; when it holds,
`EAX` is `XCR0`'s low word. -/
theorem setHasAVXSave_eq (l : Locals) (hecx : l.ECX = (cpuid 1).ecx) :
    ∃ EAX EDX, setHasAVXSave host l = { l with EAX, EDX, HasAVXSave := host.savesYmm cpuid } ∧
      (host.savesYmm cpuid → host.xcr0Has 0xe0 = (EAX &&& 0xe0 == 0xe0)) := by
  unfold setHasAVXSave Host.savesYmm Host.xcr0Has
  rw [← hecx]
  by_cases hb : bit l.ECX 27 && bit l.ECX 28
  · rcases hx : host.xcr0 with _ | ⟨eax, edx⟩
    · exact ⟨l.EAX, l.EDX, by simp [hb, getX86XCR0, hx], by simp⟩
    · exact ⟨eax, edx, by simp [hb, getX86XCR0, hx], fun _ => rfl⟩
  · exact ⟨l.EAX, l.EDX, by simp [hb], by simp [hb]⟩

theorem leaf1_writes (hc : host.cpuid = some cpuid) (l : Locals) :
    List.map (fun w => (w.1, w.2 (cpuidLeaf1 host l))) leaf1Writes =
      FeatureBit.writes basicTable host cpuid := by
  simp only [cpuidLeaf1, getX86CpuIDAndInfo_of hc]; rfl

theorem avx_writes (l : Locals) (hecx : l.ECX = (cpuid 1).ecx) :
    List.map (fun w => (w.1, w.2 (setHasAVXSave host l))) avxWrites =
      FeatureBit.writes avxTable host cpuid := by
  obtain ⟨EAX, EDX, he, -⟩ := setHasAVXSave_eq l hecx
  rw [he]
  simp [avxWrites, avxTable, FeatureBit.writes, FeatureBit.value, Host.leaf?, Host.saves,
    Regs.get, hecx]

theorem afterAVX_start (l : Locals) (hecx : l.ECX = (cpuid 1).ecx)
    (hm : l.MaxLevel = (cpuid 0).eax) :
    AfterAVX host cpuid (setHasAVX512Save (setHasAVXSave host l)) := by
  obtain ⟨EAX, EDX, he, h512⟩ := setHasAVXSave_eq l hecx
  rw [he]
  refine ⟨rfl, ?_, hm⟩
  show (host.savesYmm cpuid && (EAX &&& 0xe0 == 0xe0)) = host.savesZmm cpuid
  unfold Host.savesZmm
  cases hy : host.savesYmm cpuid
  · rfl
  · rw [h512 hy]

theorem AfterAVX.leafCall {l : Locals} (h : AfterAVX host cpuid l) (level least : BitVec 32)
    (call : Regs → Bool × Regs) : AfterAVX host cpuid (leafCall level least call l).2 := by
  unfold X86.leafCall
  split
  exacts [⟨h.1, h.2, h.3⟩, h]

theorem AfterAVX.cpuidMaxExtLevel {l : Locals} (h : AfterAVX host cpuid l) :
    AfterAVX host cpuid (X86.cpuidMaxExtLevel host l) := ⟨h.1, h.2, h.3⟩

theorem AfterAVX.setHasExtLeaf1 {l : Locals} (h : AfterAVX host cpuid l) :
    AfterAVX host cpuid (X86.setHasExtLeaf1 host l) :=
  let h' := h.leafCall l.MaxExtLevel 0x80000001 (getX86CpuIDAndInfo host 0x80000001)
  ⟨h'.1, h'.2, h'.3⟩

theorem AfterAVX.setHasLeaf7 {l : Locals} (h : AfterAVX host cpuid l) :
    AfterAVX host cpuid (X86.setHasLeaf7 host l) :=
  let h' := h.leafCall l.MaxLevel 7 (getX86CpuIDAndInfoEx host 7 0)
  ⟨h'.1, h'.2, h'.3⟩

theorem ext_writes (hc : host.cpuid = some cpuid) (l : Locals) (h : AfterAVX host cpuid l) :
    List.map (fun w => (w.1, w.2 (setHasExtLeaf1 host (cpuidMaxExtLevel host l)))) extWrites =
      FeatureBit.writes extTable host cpuid := by
  have hm : (cpuidMaxExtLevel host l).MaxExtLevel = (cpuid 0x80000000).eax := by
    simp [cpuidMaxExtLevel, getX86CpuIDAndInfo_of hc]
  simp only [setHasExtLeaf1, leafCall, hm, extWrites, extTable, FeatureBit.writes, List.map,
    FeatureBit.value, Host.leaf?]
  split_ifs <;> simp [getX86CpuIDAndInfo_of hc, Host.saves, Regs.get, Locals.setRegs,
    h.cpuidMaxExtLevel.hasAVXSave, Bool.and_comm]

theorem leaf7_writes (l : Locals) (h : AfterAVX host cpuid l) :
    List.map (fun w => (w.1, w.2 (setHasLeaf7 host l))) leaf7Writes =
      FeatureBit.writes leaf7Table host cpuid := by
  simp only [setHasLeaf7, leafCall, h.maxLevel, leaf7Writes, leaf7Table, FeatureBit.writes,
    List.map, FeatureBit.value, Host.leaf?]
  split_ifs <;> rcases hx : host.cpuidEx with _ | ex <;>
    simp [hx, getX86CpuIDAndInfoEx, Host.saves, Regs.get, Locals.setRegs, h.hasAVXSave,
      h.hasAVX512Save, Bool.and_comm]

theorem leafD_writes (l : Locals) (h : AfterAVX host cpuid l) :
    List.map (fun w => (w.1, w.2 (setHasLeafD host l))) leafDWrites =
      FeatureBit.writes leafDTable host cpuid := by
  simp only [setHasLeafD, leafCall, h.maxLevel, leafDWrites, leafDTable, FeatureBit.writes,
    List.map, FeatureBit.value, Host.leaf?]
  split_ifs <;> rcases hx : host.cpuidEx with _ | ex <;>
    simp [hx, getX86CpuIDAndInfoEx, Host.saves, Regs.get, Locals.setRegs, h.hasAVXSave,
      Bool.and_comm]

/-- **The refinement**: when `cpuid` runs and reports leaf 1, `getHostCPUFeatures` returns
`true` with the table's values written over the map, whatever registers the code reuses; else
`false` with the map untouched. -/
theorem getHostCPUFeatures_eq (host : Host) (Features : FeatureMap) :
    getHostCPUFeatures host Features =
      match host.cpuid with
      | some cpuid => if (cpuid 0).eax < 1 then (false, Features)
          else (true, Features.setAll (FeatureBit.writes x86Features host cpuid))
      | none => (false, Features) := by
  rcases hc : host.cpuid with _ | cpuid
  · simp [getHostCPUFeatures, getX86CpuIDAndInfo, hc]
  simp only [getHostCPUFeatures, getX86CpuIDAndInfo_of hc]
  split_ifs with h1
  · rfl
  have hecx : (cpuidLeaf1 host ⟨0, 0, 0, 0, (cpuid 0).eax, 0, false, false, false, false,
      false⟩).ECX = (cpuid 1).ecx := by
    simp [cpuidLeaf1, getX86CpuIDAndInfo_of hc, Locals.setRegs]
  have hA := @afterAVX_start host cpuid _ hecx rfl
  simp only [setFeatures]
  rw [leaf1_writes hc, avx_writes _ hecx, ext_writes hc _ hA,
    leaf7_writes _ hA.cpuidMaxExtLevel.setHasExtLeaf1,
    leafD_writes _ hA.cpuidMaxExtLevel.setHasExtLeaf1.setHasLeaf7]
  simp only [x86Features, FeatureBit.writes, List.map_append, FeatureMap.setAll_append]

end Refinement

/-! ### What the table gives -/

theorem FeatureBit.map_fst_writes (T : List FeatureBit) (host : Host) (cpuid : BitVec 32 → Regs) :
    (FeatureBit.writes T host cpuid).map Prod.fst = T.map FeatureBit.name := by
  simp [FeatureBit.writes]

theorem FeatureBit.mem_writes {T : List FeatureBit} {host : Host} {cpuid : BitVec 32 → Regs}
    {k : String} {v : Bool} :
    (k, v) ∈ FeatureBit.writes T host cpuid ↔ ∃ e ∈ T, e.name = k ∧ e.value host cpuid = v := by
  simp [FeatureBit.writes]

/-- A feature is on only where the OS saves its state. -/
theorem FeatureBit.saves_of_value {e : FeatureBit} {host : Host} {cpuid : BitVec 32 → Regs}
    (h : e.value host cpuid = true) : host.saves cpuid e.state = true := by
  unfold FeatureBit.value at h
  split at h
  · exact (Bool.and_eq_true _ _).mp h |>.1
  · cases h

/-- The features that use the YMM state or save it: AVX and the extensions that use its
registers, and the XSAVE family, which the source enables "only if OS has enabled support for
saving YMM state". -/
def ymmFeatures : List String :=
  ["avx", "fma", "f16c", "xsave", "xop", "fma4", "avx2", "avx512f", "avx512dq", "avx512ifma",
    "avx512pf", "avx512er", "avx512cd", "avx512bw", "avx512vl", "avx512vbmi", "xsaveopt",
    "xsavec", "xsaves"]

/-- The AVX-512 features, which use the ZMM state. -/
def zmmFeatures : List String :=
  ["avx512f", "avx512dq", "avx512ifma", "avx512pf", "avx512er", "avx512cd", "avx512bw",
    "avx512vl", "avx512vbmi"]

theorem ymmFeatures_subset : ∀ k ∈ ymmFeatures, k ∈ x86Features.map FeatureBit.name := by
  decide

theorem x86Features_ymm : ∀ e ∈ x86Features, e.name ∈ ymmFeatures → e.state ≠ .none := by
  decide

theorem x86Features_zmm : ∀ e ∈ x86Features, e.name ∈ zmmFeatures → e.state = .zmm := by
  decide

/-- The result of a run that returned `true`: the table written over the map. -/
theorem getHostCPUFeatures_of_true {host : Host} {Features F : FeatureMap}
    (hr : getHostCPUFeatures host Features = (true, F)) :
    ∃ cpuid, host.cpuid = some cpuid ∧
      F = Features.setAll (FeatureBit.writes x86Features host cpuid) := by
  rw [getHostCPUFeatures_eq] at hr
  rcases hc : host.cpuid with _ | cpuid <;> simp only [hc] at hr
  · cases hr
  · split_ifs at hr
    · cases hr
    · exact ⟨cpuid, rfl, (Prod.mk.inj hr).2.symm⟩

/-- **YMM and ZMM state.** A run of `getHostCPUFeatures` that returns `true` reports an AVX
feature only if the OS saves the YMM state on a context switch, and an AVX-512 one only if it
saves the ZMM state as well. -/
theorem getHostCPUFeatures_needs_saved_state (host : Host) (Features F : FeatureMap)
    (hr : getHostCPUFeatures host Features = (true, F)) (k : String) (hk : k ∈ ymmFeatures)
    (hv : F k = some true) :
    ∃ cpuid, host.cpuid = some cpuid ∧ host.savesYmm cpuid = true ∧
      (k ∈ zmmFeatures → host.savesZmm cpuid = true) := by
  obtain ⟨cpuid, hc, rfl⟩ := getHostCPUFeatures_of_true hr
  obtain ⟨v, hmem, hF⟩ := FeatureMap.setAll_mem Features (FeatureBit.writes x86Features host cpuid) k
    (by rw [FeatureBit.map_fst_writes]; exact ymmFeatures_subset k hk)
  obtain ⟨e, he, rfl, hev⟩ := FeatureBit.mem_writes.mp hmem
  obtain rfl : v = true := Option.some.inj (hF.symm.trans hv)
  have hs := FeatureBit.saves_of_value hev
  have hz : host.savesZmm cpuid = true → host.savesYmm cpuid = true := fun h =>
    ((Bool.and_eq_true _ _).mp h).1
  refine ⟨cpuid, hc, ?_, fun hkz => ?_⟩
  · cases hst : e.state
    · exact absurd hst (x86Features_ymm e he hk)
    · rw [hst] at hs; exact hs
    · rw [hst] at hs; exact hz hs
  · rw [x86Features_zmm e he hkz] at hs; exact hs

/-- A processor with AVX and AVX-512 under an OS that saves the YMM state only (`XCR0 = 6`):
`avx` is reported. -/
theorem getHostCPUFeatures_needs_saved_state_ymmOnly :
    let host : Host := ⟨some fun v => if v = 0 then ⟨7, 0, 0, 0⟩ else ⟨0, 0, 0x18000000, 0⟩,
      some fun _ _ => ⟨0, 0x10020, 0, 0⟩, some (6, 0)⟩
    let F := (getHostCPUFeatures host fun _ => none).2
    getHostCPUFeatures host (fun _ => none) = (true, F) ∧ "avx" ∈ ymmFeatures ∧
      F "avx" = some true ∧
      ∃ cpuid, host.cpuid = some cpuid ∧ host.savesYmm cpuid = true ∧
        ("avx" ∈ zmmFeatures → host.savesZmm cpuid = true) := by
  intro host F
  have hr : getHostCPUFeatures host (fun _ => none) = (true, F) := rfl
  have hk : "avx" ∈ ymmFeatures := by decide
  have hv : F "avx" = some true := by decide
  exact ⟨hr, hk, hv, getHostCPUFeatures_needs_saved_state host _ F hr "avx" hk hv⟩

/- The same processor: `avx2` is reported, `avx512f` is not. -/
example :
    let host : Host := ⟨some fun v => if v = 0 then ⟨7, 0, 0, 0⟩ else ⟨0, 0, 0x18000000, 0⟩,
      some fun _ _ => ⟨0, 0x10020, 0, 0⟩, some (6, 0)⟩
    (getHostCPUFeatures host fun _ => none).2 "avx2" = some true ∧
      (getHostCPUFeatures host fun _ => none).2 "avx512f" = some false := by
  decide

/-! ### The bitmask of `getHostCPUName` -/

/-- `enum ProcessorFeatures`: the bits of the mask of `getAvailableFeatures`. -/
inductive ProcessorFeatures where
  | featureCMOV
  | featureMMX
  | featurePOPCNT
  | featureSSE
  | featureSSE2
  | featureSSE3
  | featureSSSE3
  | featureSSE4_1
  | featureSSE4_2
  | featureAVX
  | featureAVX2
  | featureAVX512
  | featureAVX512SAVE
  | featureMOVBE
  | featureADX
  | featureEM64T
  deriving DecidableEq

/-- The enumerators' values, from `FEATURE_CMOV = 0`. -/
def ProcessorFeatures.toNat : ProcessorFeatures → Nat
  | .featureCMOV => 0
  | .featureMMX => 1
  | .featurePOPCNT => 2
  | .featureSSE => 3
  | .featureSSE2 => 4
  | .featureSSE3 => 5
  | .featureSSSE3 => 6
  | .featureSSE4_1 => 7
  | .featureSSE4_2 => 8
  | .featureAVX => 9
  | .featureAVX2 => 10
  | .featureAVX512 => 11
  | .featureAVX512SAVE => 12
  | .featureMOVBE => 13
  | .featureADX => 14
  | .featureEM64T => 15

/-- `bool HasAVX = ((ECX & AVXBits) == AVXBits) && !getX86XCR0(&EAX, &EDX) && ((EAX & 0x6) ==
0x6);` of `getAvailableFeatures`, kept in `HasAVXSave`: one mask test where `HasAVXSave` has two
bit tests. -/
def setHasAVX (host : Host) (l : Locals) : Locals :=
  if l.ECX &&& AVXBits == AVXBits then
    match getX86XCR0 host l.EAX l.EDX with
    | (failed, EAX, EDX) => { l with EAX, EDX, HasAVXSave := !failed && (EAX &&& 6 == 6) }
  else { l with HasAVXSave := false }

/-- The mask test and the two bit tests agree, so `HasAVX` is `HasAVXSave`. -/
theorem setHasAVX_eq (host : Host) (l : Locals) : setHasAVX host l = setHasAVXSave host l := by
  rw [setHasAVX, setHasAVXSave, and_AVXBits_eq]

/-- `getAvailableFeatures(ECX, EDX, MaxLeaf)`, with its locals in a `Locals`: `MaxLeaf` in
`MaxLevel`, `HasAVX` in `HasAVXSave`; its statements `HasAVX512Save` and `HasLeaf7` are those of
`getHostCPUFeatures`. `EAX` and `EBX` are uninitialised in the source and read only after a
call that wrote them or behind a false flag; they start at `0` here. -/
def getAvailableFeatures (host : Host) (ECX EDX MaxLeaf : BitVec 32) : BitVec 32 :=
  let Features : BitVec 32 := 0
  let Features := Features ||| ((EDX >>> 23) &&& 1) <<< ProcessorFeatures.featureMMX.toNat
  let Features := Features ||| ((EDX >>> 25) &&& 1) <<< ProcessorFeatures.featureSSE.toNat
  let Features := Features ||| ((EDX >>> 26) &&& 1) <<< ProcessorFeatures.featureSSE2.toNat
  let Features := Features ||| ((ECX >>> 0) &&& 1) <<< ProcessorFeatures.featureSSE3.toNat
  let Features := Features ||| ((ECX >>> 9) &&& 1) <<< ProcessorFeatures.featureSSSE3.toNat
  let Features := Features ||| ((ECX >>> 19) &&& 1) <<< ProcessorFeatures.featureSSE4_1.toNat
  let Features := Features ||| ((ECX >>> 20) &&& 1) <<< ProcessorFeatures.featureSSE4_2.toNat
  let Features := Features ||| ((ECX >>> 22) &&& 1) <<< ProcessorFeatures.featureMOVBE.toNat
  let l := setHasAVX512Save (setHasAVX host ⟨0, 0, ECX, EDX, MaxLeaf, 0, false, false, false,
    false, false⟩)
  let HasAVX := l.HasAVXSave
  let HasAVX512Save := l.HasAVX512Save
  let l := setHasLeaf7 host l
  let HasADX := l.HasLeaf7 && bit l.EBX 19
  let HasAVX2 := HasAVX && l.HasLeaf7 && (l.EBX &&& 0x20 != 0)
  let HasAVX512 := l.HasLeaf7 && HasAVX512Save && bit l.EBX 16
  let Features := Features ||| ofBool HasAVX <<< ProcessorFeatures.featureAVX.toNat
  let Features := Features ||| ofBool HasAVX2 <<< ProcessorFeatures.featureAVX2.toNat
  let Features := Features ||| ofBool HasAVX512 <<< ProcessorFeatures.featureAVX512.toNat
  let Features := Features ||| ofBool HasAVX512Save <<< ProcessorFeatures.featureAVX512SAVE.toNat
  let Features := Features ||| ofBool HasADX <<< ProcessorFeatures.featureADX.toNat
  let l := l.setRegs (getX86CpuIDAndInfo host 0x80000001 l.regs).2
  Features ||| ((l.EDX >>> 29) &&& 0x1) <<< ProcessorFeatures.featureEM64T.toNat

/-- The bits of the mask that `getHostCPUFeatures` sets a key for as well, with the key. -/
def sharedFeatures : List (ProcessorFeatures × String) :=
  [(.featureMMX, "mmx"), (.featureSSE, "sse"), (.featureSSE2, "sse2"), (.featureSSE3, "sse3"),
    (.featureSSSE3, "ssse3"), (.featureSSE4_1, "sse4.1"), (.featureSSE4_2, "sse4.2"),
    (.featureMOVBE, "movbe"), (.featureAVX, "avx"), (.featureAVX2, "avx2"),
    (.featureAVX512, "avx512f"), (.featureADX, "adx")]

theorem FeatureMap.setAll_of_mem_nodup (F : FeatureMap) (ws : List (String × Bool)) (k : String)
    (v : Bool) (hnd : (ws.map Prod.fst).Nodup) (h : (k, v) ∈ ws) : F.setAll ws k = some v := by
  induction ws generalizing F with
  | nil => cases h
  | cons w ws ih =>
    rw [List.map_cons, List.nodup_cons] at hnd
    rw [setAll, List.foldl_cons, ← setAll]
    rcases List.mem_cons.mp h with rfl | h
    · rw [setAll_of_not_mem _ _ _ hnd.1, set, if_pos rfl]
    · exact ih _ hnd.2 h

theorem x86Features_nodup : (x86Features.map FeatureBit.name).Nodup := by
  decide

/-- The map holds a feature of the table at its value. -/
theorem setAll_x86Features (Features : FeatureMap) (host : Host) (cpuid : BitVec 32 → Regs)
    (e : FeatureBit) (he : e ∈ x86Features) :
    Features.setAll (FeatureBit.writes x86Features host cpuid) e.name =
      some (e.value host cpuid) :=
  Features.setAll_of_mem_nodup _ _ _
    (by rw [FeatureBit.map_fst_writes]; exact x86Features_nodup)
    (FeatureBit.mem_writes.mpr ⟨e, he, rfl, rfl⟩)

theorem setAll_x86Features_of (Features : FeatureMap) (host : Host) (cpuid : BitVec 32 → Regs)
    (e : FeatureBit) (he : e ∈ x86Features) (b : Bool) (hb : b = e.value host cpuid) :
    Features.setAll (FeatureBit.writes x86Features host cpuid) e.name = some b := by
  rw [hb]; exact setAll_x86Features Features host cpuid e he

/-- The `AVX` bit of the mask is the YMM state, read from the `ECX` it is given. -/
theorem getAvailableFeatures_avx (host : Host) (cpuid : BitVec 32 → Regs)
    (EDX MaxLeaf : BitVec 32) :
    (getAvailableFeatures host (cpuid 1).ecx EDX MaxLeaf).getLsbD
      ProcessorFeatures.featureAVX.toNat = host.savesYmm cpuid := by
  obtain ⟨EAX, EDX', he, -⟩ := @setHasAVXSave_eq host cpuid
    ⟨0, 0, (cpuid 1).ecx, EDX, MaxLeaf, 0, false, false, false, false, false⟩ rfl
  simp only [getAvailableFeatures, setHasAVX_eq, he, and_one_eq_ofBool, getLsbD_or_ofBool,
    ProcessorFeatures.toNat]
  simp [setHasAVX512Save]

/-- **Agreement.** When `cpuid` reports leaf 1, the mask `getHostCPUName` tells processors apart
by, computed from leaf 1's `ECX` and `EDX` and the highest leaf, has each bit it shares with
`getHostCPUFeatures` set exactly when that function sets the key to `true`. -/
theorem getAvailableFeatures_agrees (host : Host) (cpuid : BitVec 32 → Regs)
    (hc : host.cpuid = some cpuid) (h1 : 1 ≤ (cpuid 0).eax) (Features : FeatureMap) :
    ∀ p ∈ sharedFeatures, (getHostCPUFeatures host Features).2 p.2 =
      some ((getAvailableFeatures host (cpuid 1).ecx (cpuid 1).edx (cpuid 0).eax).getLsbD
        p.1.toNat) := by
  rw [getHostCPUFeatures_eq, hc]
  simp only [if_neg (BitVec.not_lt.mpr h1)]
  have hA := @afterAVX_start host cpuid ⟨0, 0, (cpuid 1).ecx, (cpuid 1).edx, (cpuid 0).eax, 0,
    false, false, false, false, false⟩ rfl rfl
  have h7 := leaf7_writes _ hA
  have hA7 := hA.setHasLeaf7
  simp only [leaf7Writes, leaf7Table, FeatureBit.writes, List.map_cons, List.map_nil,
    List.cons.injEq, Prod.mk.injEq, true_and] at h7
  obtain ⟨havx2, -, -, -, -, -, -, -, -, hadx, -, -, -, -, -, h512f, -⟩ := h7
  simp only [getAvailableFeatures, setHasAVX_eq, and_one_eq_ofBool, and_0x20_ne_zero,
    getLsbD_or_ofBool, ProcessorFeatures.toNat, BitVec.getLsbD_zero, hA.hasAVXSave, hA.hasAVX512Save, hA7.hasAVXSave]
  simp only [hA7.hasAVXSave] at havx2
  simp only [hA7.hasAVX512Save] at h512f
  intro p hp
  simp only [sharedFeatures, List.mem_cons, List.mem_nil_iff, or_false] at hp
  rcases hp with rfl | rfl | rfl | rfl | rfl | rfl | rfl | rfl | rfl | rfl | rfl | rfl <;>
    simp only [BitVec.ofNat_eq_ofNat, BitVec.getLsbD_zero, Nat.reduceEqDiff, Nat.reduceLT,
      decide_True, decide_False, Bool.and_true, Bool.and_false, Bool.or_false,
      Bool.false_or] at havx2 h512f hadx ⊢
  · exact setAll_x86Features_of _ _ _ ⟨"mmx", .basic, .edx, some 23, .none⟩ (by decide) _ rfl
  · exact setAll_x86Features_of _ _ _ ⟨"sse", .basic, .edx, some 25, .none⟩ (by decide) _ rfl
  · exact setAll_x86Features_of _ _ _ ⟨"sse2", .basic, .edx, some 26, .none⟩ (by decide) _ rfl
  · exact setAll_x86Features_of _ _ _ ⟨"sse3", .basic, .ecx, some 0, .none⟩ (by decide) _ rfl
  · exact setAll_x86Features_of _ _ _ ⟨"ssse3", .basic, .ecx, some 9, .none⟩ (by decide) _ rfl
  · exact setAll_x86Features_of _ _ _ ⟨"sse4.1", .basic, .ecx, some 19, .none⟩ (by decide) _ rfl
  · exact setAll_x86Features_of _ _ _ ⟨"sse4.2", .basic, .ecx, some 20, .none⟩ (by decide) _ rfl
  · exact setAll_x86Features_of _ _ _ ⟨"movbe", .basic, .ecx, some 22, .none⟩ (by decide) _ rfl
  · exact setAll_x86Features_of _ _ _ ⟨"avx", .basic, .ecx, none, .ymm⟩ (by decide) _
      (Bool.and_true _).symm
  · exact setAll_x86Features_of _ _ _ ⟨"avx2", .leaf7, .ebx, some 5, .ymm⟩ (by decide) _ havx2
  · exact setAll_x86Features_of _ _ _ ⟨"avx512f", .leaf7, .ebx, some 16, .zmm⟩ (by decide) _
      (by rw [Bool.and_right_comm]; exact h512f)
  · exact setAll_x86Features_of _ _ _ ⟨"adx", .leaf7, .ebx, some 19, .none⟩ (by decide) _ hadx

/-- The same processor: the two agree on `avx2`. -/
theorem getAvailableFeatures_agrees_avx2 :
    let cpuid : BitVec 32 → Regs := fun v => if v = 0 then ⟨7, 0, 0, 0⟩ else ⟨0, 0, 0x18000000, 0⟩
    let host : Host := ⟨some cpuid, some fun _ _ => ⟨0, 0x10020, 0, 0⟩, some (6, 0)⟩
    host.cpuid = some cpuid ∧ 1 ≤ (cpuid 0).eax ∧
      (ProcessorFeatures.featureAVX2, "avx2") ∈ sharedFeatures ∧
      (getHostCPUFeatures host fun _ => none).2 "avx2" =
        some ((getAvailableFeatures host (cpuid 1).ecx (cpuid 1).edx (cpuid 0).eax).getLsbD 10) := by
  intro cpuid host
  have h1 : 1 ≤ (cpuid 0).eax := by decide
  have hp : (ProcessorFeatures.featureAVX2, "avx2") ∈ sharedFeatures := by decide
  exact ⟨rfl, h1, hp, getAvailableFeatures_agrees host cpuid rfl h1 _ _ hp⟩

end Keystone.Host.X86
