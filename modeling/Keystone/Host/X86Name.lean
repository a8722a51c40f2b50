import Keystone.Host.X86Features

/-!
# The x86 host CPU name from CPUID

On x86, `sys::getHostCPUName` reads the vendor from `cpuid` leaf 0 and the family, model, brand
index and features from leaf 1, and asks `getIntelProcessorTypeAndSubtype` or
`getAMDProcessorTypeAndSubtype` for a processor type and subtype, which it turns into a name
with a `switch`. `Type` and `Subtype` are locals of `getHostCPUName` declared without a value;
the two classifiers write them through pointers, but not on every path: the Intel one returns at
once for a non-zero brand index, both leave `Type` for a family they do not list, and many
branches set `Type` without `Subtype`. The name `switch` then reads what was never written.

## Design

`Type` and `Subtype` are `Option`s, `none` while unwritten, and the classifiers are functions
that update them, as the source writes through its pointers. The `switch` of `getHostCPUName`
returns `none` where it reads a `none`: the source reads an indeterminate `unsigned` there,
which is undefined behaviour, so the model claims nothing about what it returns. The features
are the bitmask of `getAvailableFeatures`, with its `AVX` bit known from
`Keystone.Host.X86.Features`.

## Main definitions

* `Keystone.Host.X86.getIntelProcessorTypeAndSubtype`,
  `Keystone.Host.X86.getAMDProcessorTypeAndSubtype` — the classifiers.
* `Keystone.Host.X86.getHostCPUName` — the function, `none` where it reads `Type` or `Subtype`
  unwritten.

## Main results

* `Keystone.Host.X86.getHostCPUName_defined` — on an Intel processor with brand index `0` in
  families 3, 4, 6 and 15, and on an AMD processor of family 4, 15, 20 or 22, every read is of a
  written value, for every model and features.
* `Keystone.Host.X86.getHostCPUName_amd_avx` — the AMD names that imply AVX, `bdver1` to
  `bdver4` and `btver2`, are returned only when the OS saves the YMM state.
-/

namespace Keystone.Host.X86

/-! ### Types and subtypes -/

/-- `enum VendorSignatures`: `SIG_INTEL`, "Genu". -/
def sigIntel : BitVec 32 := 0x756e6547

/-- `SIG_AMD`, "Auth". -/
def sigAmd : BitVec 32 := 0x68747541

/-- `enum ProcessorTypes`. -/
inductive ProcessorTypes where
  | intelAtom
  | intelCore2
  | intelCorei7
  | amdfam10h
  | amdfam15h
  | intelI386
  | intelI486
  | intelPentium
  | intelPentiumPro
  | intelPentiumII
  | intelPentiumIII
  | intelPentiumIV
  | intelPentiumM
  | intelCoreDuo
  | intelXeonphi
  | intelX86_64
  | intelNocona
  | intelPrescott
  | amdI486
  | amdpentium
  | amdathlon
  | amdfam14h
  | amdfam16h
  deriving DecidableEq

/-- `enum ProcessorSubtypes`. -/
inductive ProcessorSubtypes where
  | intelCorei7Nehalem
  | intelCorei7Westmere
  | intelCorei7Sandybridge
  | amdfam10hBarcelona
  | amdfam10hShanghai
  | amdfam10hIstanbul
  | amdfam15hBdver1
  | amdfam15hBdver2
  | intelPentiumMmx
  | intelCore2_65
  | intelCore2_45
  | intelCorei7Ivybridge
  | intelCorei7Haswell
  | intelCorei7Broadwell
  | intelCorei7Skylake
  | intelCorei7SkylakeAvx512
  | intelAtomBonnell
  | intelAtomSilvermont
  | intelKnightsLanding
  | amdpentiumK6
  | amdpentiumK62
  | amdpentiumK63
  | amdpentiumGeode
  | amdathlonTbird
  | amdathlonMp
  | amdathlonXp
  | amdathlonK8sse3
  | amdathlonOpteron
  | amdathlonFx
  | amdathlon64
  | amdBtver1
  | amdBtver2
  | amdfam15hBdver3
  | amdfam15hBdver4
  deriving DecidableEq

/-- `Type` and `Subtype` of `getHostCPUName`: `none` while unwritten. -/
structure TypeAndSubtype where
  type : Option ProcessorTypes
  subtype : Option ProcessorSubtypes

/-- `Features & (1 << FEATURE_...)`. -/
def hasFeature (Features : BitVec 32) (f : ProcessorFeatures) : Bool :=
  Features &&& ((1 : BitVec 32) <<< f.toNat) != 0

theorem hasFeature_eq (Features : BitVec 32) (f : ProcessorFeatures) :
    hasFeature Features f = Features.getLsbD f.toNat := by
  rw [hasFeature, show (1 : BitVec 32) <<< f.toNat = BitVec.twoPow 32 f.toNat from rfl,
    BitVec.and_twoPow]
  cases f <;> cases Features.getLsbD _ <;> decide

/-- `detectX86FamilyModel(EAX, &Family, &Model)`: the extended family is added for family
`0xF`, the extended model for families 6 and `0xF`. -/
def detectX86FamilyModel (EAX : BitVec 32) : BitVec 32 × BitVec 32 :=
  let Family := (EAX >>> 8) &&& 0xf
  let Model := (EAX >>> 4) &&& 0xf
  if Family = 6 ∨ Family = 0xf then
    let Family := if Family = 0xf then Family + ((EAX >>> 20) &&& 0xff) else Family
    (Family, Model + (((EAX >>> 16) &&& 0xf) <<< 4))
  else (Family, Model)

/-! ### Intel -/

/-- The `default:` of family 6 in `getIntelProcessorTypeAndSubtype`: "Unknown family 6 CPU,
try to guess", from the features. -/
def intelGuess (Features : BitVec 32) (r : TypeAndSubtype) : TypeAndSubtype :=
  if hasFeature Features .featureAVX512 then ⟨some .intelXeonphi, some .intelKnightsLanding⟩
  else if hasFeature Features .featureADX then ⟨some .intelCorei7, some .intelCorei7Broadwell⟩
  else if hasFeature Features .featureAVX2 then ⟨some .intelCorei7, some .intelCorei7Haswell⟩
  else if hasFeature Features .featureAVX then
    ⟨some .intelCorei7, some .intelCorei7Sandybridge⟩
  else if hasFeature Features .featureSSE4_2 then
    if hasFeature Features .featureMOVBE then ⟨some .intelAtom, some .intelAtomSilvermont⟩
    else ⟨some .intelCorei7, some .intelCorei7Nehalem⟩
  else if hasFeature Features .featureSSE4_1 then ⟨some .intelCore2, some .intelCore2_45⟩
  else if hasFeature Features .featureSSSE3 then
    if hasFeature Features .featureMOVBE then ⟨some .intelAtom, some .intelAtomBonnell⟩
    else ⟨some .intelCore2, some .intelCore2_65⟩
  else if hasFeature Features .featureEM64T then { r with type := some .intelX86_64 }
  else if hasFeature Features .featureSSE2 then { r with type := some .intelPentiumM }
  else if hasFeature Features .featureSSE then { r with type := some .intelPentiumIII }
  else if hasFeature Features .featureMMX then { r with type := some .intelPentiumII }
  else { r with type := some .intelPentiumPro }

/-- `*Type = t;`, and `*Subtype = s;` where the case writes one. -/
def TypeAndSubtype.write (r : TypeAndSubtype) (t : ProcessorTypes)
    (s : Option ProcessorSubtypes) : TypeAndSubtype :=
  ⟨some t, match s with
    | some s => some s
    | none => r.subtype⟩

/-- The labelled cases of `case 6:` in `getIntelProcessorTypeAndSubtype`, in order: each group
of `case` labels with the `Type` it writes and the `Subtype`, where it writes one. -/
def intelFamily6Cases : List (List Nat × ProcessorTypes × Option ProcessorSubtypes) :=
  [([0x01], .intelPentiumPro, none),
    ([0x03, 0x05, 0x06], .intelPentiumII, none),
    ([0x07, 0x08, 0x0a, 0x0b], .intelPentiumIII, none),
    ([0x09, 0x0d, 0x15], .intelPentiumM, none),
    ([0x0e], .intelCoreDuo, none),
    ([0x0f, 0x16], .intelCore2, some .intelCore2_65),
    ([0x17, 0x1d], .intelCore2, some .intelCore2_45),
    ([0x1a, 0x1e, 0x1f, 0x2e], .intelCorei7, some .intelCorei7Nehalem),
    ([0x25, 0x2c, 0x2f], .intelCorei7, some .intelCorei7Westmere),
    ([0x2a, 0x2d], .intelCorei7, some .intelCorei7Sandybridge),
    ([0x3a, 0x3e], .intelCorei7, some .intelCorei7Ivybridge),
    ([0x3c, 0x3f, 0x45, 0x46], .intelCorei7, some .intelCorei7Haswell),
    ([0x3d, 0x47, 0x4f, 0x56], .intelCorei7, some .intelCorei7Broadwell),
    ([0x4e], .intelCorei7, some .intelCorei7SkylakeAvx512),
    ([0x5e], .intelCorei7, some .intelCorei7Skylake),
    ([0x1c, 0x26, 0x27, 0x35, 0x36], .intelAtom, some .intelAtomBonnell),
    ([0x37, 0x4a, 0x4d, 0x5a, 0x5d, 0x4c], .intelAtom, some .intelAtomSilvermont),
    ([0x57], .intelXeonphi, some .intelKnightsLanding)]

/-- The `case 6:` of `getIntelProcessorTypeAndSubtype`: the case whose labels hold the model,
else the `default:` guess. -/
def intelFamily6 (Model : Nat) (Features : BitVec 32) (r : TypeAndSubtype) : TypeAndSubtype :=
  match intelFamily6Cases.find? (fun c => Model ∈ c.1) with
  | some (_, t, s) => r.write t s
  | none => intelGuess Features r

/-- `getIntelProcessorTypeAndSubtype(Family, Model, Brand_id, Features, &Type, &Subtype)`. -/
def getIntelProcessorTypeAndSubtype (Family Model Brand_id : Nat) (Features : BitVec 32)
    (r : TypeAndSubtype) : TypeAndSubtype :=
  if Brand_id ≠ 0 then r else
  match Family with
  | 3 => { r with type := some .intelI386 }
  | 4 => { r with type := some .intelI486 }
  | 5 =>
    match Model with
    | 4 => ⟨some .intelPentium, some .intelPentiumMmx⟩
    | _ => { r with type := some .intelPentium }
  | 6 => intelFamily6 Model Features r
  | 15 =>
    let EM64T := hasFeature Features .featureEM64T
    match Model with
    | 0 | 1 | 2 => { r with type := some (if EM64T then .intelX86_64 else .intelPentiumIV) }
    | 3 | 4 | 6 => { r with type := some (if EM64T then .intelNocona else .intelPrescott) }
    | _ => { r with type := some (if EM64T then .intelX86_64 else .intelPentiumIV) }
  | _ => r

/-- The `switch (Type)` of `getHostCPUName` for Intel, with its nested reads of `Subtype`. -/
def intelName (r : TypeAndSubtype) : Option String :=
  r.type.bind fun
    | .intelI386 => some "i386"
    | .intelI486 => some "i486"
    | .intelPentium => r.subtype.map fun s => if s = .intelPentiumMmx then "pentium-mmx" else "pentium"
    | .intelPentiumPro => some "pentiumpro"
    | .intelPentiumII => some "pentium2"
    | .intelPentiumIII => some "pentium3"
    | .intelPentiumIV => some "pentium4"
    | .intelPentiumM => some "pentium-m"
    | .intelCoreDuo => some "yonah"
    | .intelCore2 => r.subtype.map fun
      | .intelCore2_65 => "core2"
      | .intelCore2_45 => "penryn"
      | _ => "core2"
    | .intelCorei7 => r.subtype.map fun
      | .intelCorei7Nehalem => "nehalem"
      | .intelCorei7Westmere => "westmere"
      | .intelCorei7Sandybridge => "sandybridge"
      | .intelCorei7Ivybridge => "ivybridge"
      | .intelCorei7Haswell => "haswell"
      | .intelCorei7Broadwell => "broadwell"
      | .intelCorei7Skylake => "skylake"
      | .intelCorei7SkylakeAvx512 => "skylake-avx512"
      | _ => "corei7"
    | .intelAtom => r.subtype.map fun
      | .intelAtomBonnell => "bonnell"
      | .intelAtomSilvermont => "silvermont"
      | _ => "atom"
    | .intelXeonphi => some "knl"
    | .intelX86_64 => some "x86-64"
    | .intelNocona => some "nocona"
    | .intelPrescott => some "prescott"
    | _ => some "generic"

/-! ### AMD -/

/-- `getAMDProcessorTypeAndSubtype(Family, Model, Features, &Type, &Subtype)`. -/
def getAMDProcessorTypeAndSubtype (Family Model : Nat) (Features : BitVec 32)
    (r : TypeAndSubtype) : TypeAndSubtype :=
  match Family with
  | 4 => { r with type := some .amdI486 }
  | 5 =>
    let r := { r with type := some .amdpentium }
    match Model with
    | 6 | 7 => { r with subtype := some .amdpentiumK6 }
    | 8 => { r with subtype := some .amdpentiumK62 }
    | 9 | 13 => { r with subtype := some .amdpentiumK63 }
    | 10 => { r with subtype := some .amdpentiumGeode }
    | _ => r
  | 6 =>
    let r := { r with type := some .amdathlon }
    match Model with
    | 4 => { r with subtype := some .amdathlonTbird }
    | 6 | 7 | 8 => { r with subtype := some .amdathlonMp }
    | 10 => { r with subtype := some .amdathlonXp }
    | _ => r
  | 15 =>
    let r := { r with type := some .amdathlon }
    if hasFeature Features .featureSSE3 then { r with subtype := some .amdathlonK8sse3 } else
    match Model with
    | 1 => { r with subtype := some .amdathlonOpteron }
    | 5 => { r with subtype := some .amdathlonFx }
    | _ => { r with subtype := some .amdathlon64 }
  | 16 =>
    let r := { r with type := some .amdfam10h }
    match Model with
    | 2 => { r with subtype := some .amdfam10hBarcelona }
    | 4 => { r with subtype := some .amdfam10hShanghai }
    | 8 => { r with subtype := some .amdfam10hIstanbul }
    | _ => r
  | 20 => ⟨some .amdfam14h, some .amdBtver1⟩
  | 21 =>
    let r := { r with type := some .amdfam15h }
    if !hasFeature Features .featureAVX then { r with subtype := some .amdBtver1 }
    else if 0x50 ≤ Model ∧ Model ≤ 0x6f then { r with subtype := some .amdfam15hBdver4 }
    else if 0x30 ≤ Model ∧ Model ≤ 0x3f then { r with subtype := some .amdfam15hBdver3 }
    else if 0x10 ≤ Model ∧ Model ≤ 0x1f then { r with subtype := some .amdfam15hBdver2 }
    else if Model ≤ 0x0f then { r with subtype := some .amdfam15hBdver1 }
    else r
  | 22 =>
    let r := { r with type := some .amdfam16h }
    if !hasFeature Features .featureAVX then { r with subtype := some .amdBtver1 }
    else { r with subtype := some .amdBtver2 }
  | _ => r

/-- The `switch (Type)` of `getHostCPUName` for AMD, with its nested reads of `Subtype`. -/
def amdName (r : TypeAndSubtype) : Option String :=
  r.type.bind fun
    | .amdI486 => some "i486"
    | .amdpentium => r.subtype.map fun
      | .amdpentiumK6 => "k6"
      | .amdpentiumK62 => "k6-2"
      | .amdpentiumK63 => "k6-3"
      | .amdpentiumGeode => "geode"
      | _ => "pentium"
    | .amdathlon => r.subtype.map fun
      | .amdathlonTbird => "athlon-tbird"
      | .amdathlonMp => "athlon-mp"
      | .amdathlonXp => "athlon-xp"
      | .amdathlonK8sse3 => "k8-sse3"
      | .amdathlonOpteron => "opteron"
      | .amdathlonFx => "athlon-fx"
      | .amdathlon64 => "athlon64"
      | _ => "athlon"
    | .amdfam10h => r.subtype.map fun s =>
      if s = .amdfam10hBarcelona then "barcelona" else "amdfam10"
    | .amdfam14h => some "btver1"
    | .amdfam15h => r.subtype.map fun
      | .amdfam15hBdver1 => "bdver1"
      | .amdfam15hBdver2 => "bdver2"
      | .amdfam15hBdver3 => "bdver3"
      | .amdfam15hBdver4 => "bdver4"
      | .amdBtver1 => "btver1"
      | _ => "amdfam15"
    | .amdfam16h => r.subtype.map fun
      | .amdBtver1 => "btver1"
      | .amdBtver2 => "btver2"
      | _ => "amdfam16"
    | _ => some "generic"

/-! ### The name -/

/-- `sys::getHostCPUName()` on x86: `none` where its `switch` reads `Type` or `Subtype`
unwritten. `MaxLeaf` and `Vendor` are written by the first call, `EAX` and `EBX` start at `0`,
`ECX` and `EDX` hold what leaf 0 left when leaf 1 runs. -/
def getHostCPUName (host : Host) : Option String :=
  match getX86CpuIDAndInfo host 0 ⟨0, 0, 0, 0⟩ with
  | (true, _) => some "generic"
  | (false, r0) =>
    let MaxLeaf := r0.eax
    let Vendor := r0.ebx
    match getX86CpuIDAndInfo host 1 ⟨0, 0, r0.ecx, r0.edx⟩ with
    | (true, _) => some "generic"
    | (false, r1) =>
      let Brand_id := r1.ebx &&& 0xff
      let (Family, Model) := detectX86FamilyModel r1.eax
      let Features := getAvailableFeatures host r1.ecx r1.edx MaxLeaf
      if Vendor = sigIntel then
        intelName (getIntelProcessorTypeAndSubtype Family.toNat Model.toNat Brand_id.toNat
          Features ⟨none, none⟩)
      else if Vendor = sigAmd then
        amdName (getAMDProcessorTypeAndSubtype Family.toNat Model.toNat Features ⟨none, none⟩)
      else some "generic"

/-- `getHostCPUName` on a host that answers `cpuid`: the two calls succeed, and the vendor picks
the classifier. -/
theorem getHostCPUName_of_cpuid (host : Host) (cpuid : BitVec 32 → Regs)
    (hc : host.cpuid = some cpuid) :
    getHostCPUName host =
      let Family := (detectX86FamilyModel (cpuid 1).eax).1.toNat
      let Model := (detectX86FamilyModel (cpuid 1).eax).2.toNat
      let Features := getAvailableFeatures host (cpuid 1).ecx (cpuid 1).edx (cpuid 0).eax
      if (cpuid 0).ebx = sigIntel then
        intelName (getIntelProcessorTypeAndSubtype Family Model ((cpuid 1).ebx &&& 0xff).toNat
          Features ⟨none, none⟩)
      else if (cpuid 0).ebx = sigAmd then
        amdName (getAMDProcessorTypeAndSubtype Family Model Features ⟨none, none⟩)
      else some "generic" := by
  simp only [getHostCPUName, getX86CpuIDAndInfo_of hc]

theorem sigAmd_ne_sigIntel : sigAmd ≠ sigIntel := by decide

/-! ### Reads of written values -/

/-- Every labelled case of family 6 gives the `switch` what it reads. -/
theorem intelFamily6Cases_written :
    ∀ c ∈ intelFamily6Cases, (intelName ((⟨none, none⟩ : TypeAndSubtype).write c.2.1 c.2.2)).isSome := by
  decide

/-- Every model of family 6, and the guess for the others, gives the `switch` what it reads. -/
theorem intelName_intelFamily6 (Model : Nat) (Features : BitVec 32) :
    (intelName (intelFamily6 Model Features ⟨none, none⟩)).isSome := by
  unfold intelFamily6
  split
  · rename_i h
    exact intelFamily6Cases_written _ (List.mem_of_find?_eq_some h)
  · unfold intelGuess
    simp only [apply_ite intelName, apply_ite Option.isSome]
    simp [intelName]

/-- **Defined names.** On an Intel processor with brand index `0` of family 3, 4, 6 or 15, for
every model and features, and on an AMD processor of family 4, 15, 20 or 22, `getHostCPUName`
reads only values the classifier wrote, and returns a name. -/
theorem getHostCPUName_defined (host : Host) (cpuid : BitVec 32 → Regs)
    (hc : host.cpuid = some cpuid)
    (h : ((cpuid 0).ebx = sigIntel ∧ ((cpuid 1).ebx &&& 0xff).toNat = 0 ∧
        (detectX86FamilyModel (cpuid 1).eax).1.toNat ∈ [3, 4, 6, 15]) ∨
      ((cpuid 0).ebx = sigAmd ∧ (detectX86FamilyModel (cpuid 1).eax).1.toNat ∈ [4, 15, 20, 22])) :
    (getHostCPUName host).isSome := by
  rw [getHostCPUName_of_cpuid host cpuid hc]
  dsimp only
  simp only [List.mem_cons, List.mem_nil_iff, or_false] at h
  rcases h with ⟨hv, hb, hf⟩ | ⟨hv, hf⟩
  · rw [if_pos hv, hb]
    rcases hf with hf | hf | hf | hf <;> rw [hf]
    · rfl
    · rfl
    · exact intelName_intelFamily6 _ _
    · unfold getIntelProcessorTypeAndSubtype
      rw [if_neg (not_not.mpr rfl)]
      dsimp only
      split <;> split <;> rfl
  · rw [if_neg (hv ▸ sigAmd_ne_sigIntel), if_pos hv]
    rcases hf with hf | hf | hf | hf <;> rw [hf]
    · rfl
    · unfold getAMDProcessorTypeAndSubtype
      dsimp only
      split
      · rfl
      · split <;> rfl
    · rfl
    · unfold getAMDProcessorTypeAndSubtype
      dsimp only
      split <;> rfl

/-- A Skylake processor (family 6, model `0x5E`) gets a name. -/
theorem getHostCPUName_defined_skylake :
    let cpuid : BitVec 32 → Regs := fun v =>
      if v = 0 then ⟨0x16, sigIntel, 0, 0⟩ else ⟨0x506e3, 0, 0, 0⟩
    let host : Host := ⟨some cpuid, none, none⟩
    host.cpuid = some cpuid ∧ (cpuid 0).ebx = sigIntel ∧ ((cpuid 1).ebx &&& 0xff).toNat = 0 ∧
      (detectX86FamilyModel (cpuid 1).eax).1.toNat = 6 ∧ (getHostCPUName host).isSome := by
  dsimp only
  exact ⟨rfl, rfl, by decide, by decide,
    getHostCPUName_defined _ _ rfl (Or.inl ⟨rfl, by decide, by decide⟩)⟩

/- The name is the one of its model. -/
example :
    let cpuid : BitVec 32 → Regs := fun v =>
      if v = 0 then ⟨0x16, sigIntel, 0, 0⟩ else ⟨0x506e3, 0, 0, 0⟩
    getHostCPUName ⟨some cpuid, none, none⟩ = some "skylake" := by
  decide

/-! ### AVX on AMD -/

/-- The AMD subtypes whose names imply AVX: the Bulldozer family and Jaguar. -/
def amdAvxSubtypes : List ProcessorSubtypes :=
  [.amdfam15hBdver1, .amdfam15hBdver2, .amdfam15hBdver3, .amdfam15hBdver4, .amdBtver2]

/-- The AMD classifier writes an AVX subtype only when the features have AVX: otherwise it
falls back to `AMD_BTVER1`. -/
theorem getAMDProcessorTypeAndSubtype_avx (Family Model : Nat) (Features : BitVec 32)
    (s : ProcessorSubtypes)
    (hs : (getAMDProcessorTypeAndSubtype Family Model Features ⟨none, none⟩).subtype = some s)
    (ha : s ∈ amdAvxSubtypes) : hasFeature Features .featureAVX = true := by
  -- Without AVX families 21 and 22 write `AMD_BTVER1`, and no other family writes an AVX
  -- subtype: every branch is a write of a subtype outside the list.
  by_contra hn
  rw [Bool.not_eq_true] at hn
  unfold getAMDProcessorTypeAndSubtype at hs
  split at hs
  all_goals dsimp only at hs
  all_goals (try simp only [hn, Bool.not_false, if_true, apply_ite TypeAndSubtype.subtype] at hs)
  all_goals (repeat' split at hs)
  all_goals (try simp only [Option.some.injEq, reduceCtorEq] at hs)
  all_goals (try subst hs)
  all_goals exact absurd ha (by decide)

/-- The AMD names that imply AVX come only from the AVX subtypes. -/
theorem amdName_avx (r : TypeAndSubtype) (n : String) (h : amdName r = some n)
    (hn : n ∈ ["bdver1", "bdver2", "bdver3", "bdver4", "btver2"]) :
    ∃ s ∈ amdAvxSubtypes, r.subtype = some s := by
  obtain ⟨t, -, ht⟩ := Option.bind_eq_some.mp h
  cases t <;> simp only [Option.some.injEq, Option.map_eq_some'] at ht
  all_goals try (subst ht; exact absurd hn (by decide))
  all_goals
    obtain ⟨s, hs, rfl⟩ := ht
    refine ⟨s, ?_, hs⟩
    cases s <;> first | decide | exact absurd hn (by decide)

/-- **AVX on AMD.** On an AMD processor, `getHostCPUName` names a processor with AVX (`bdver1`
to `bdver4`, `btver2`) only when the OS saves the YMM state: the classifier's "sane fallback"
to `btver1` covers every AMD name that implies AVX. -/
theorem getHostCPUName_amd_avx (host : Host) (cpuid : BitVec 32 → Regs)
    (hc : host.cpuid = some cpuid) (hv : (cpuid 0).ebx = sigAmd) (n : String)
    (hn : getHostCPUName host = some n)
    (ha : n ∈ ["bdver1", "bdver2", "bdver3", "bdver4", "btver2"]) :
    host.savesYmm cpuid = true := by
  rw [getHostCPUName_of_cpuid host cpuid hc] at hn
  simp only [hv, sigAmd_ne_sigIntel, if_false, if_true] at hn
  obtain ⟨s, hs, hsub⟩ := amdName_avx _ n hn ha
  have h := getAMDProcessorTypeAndSubtype_avx _ _ _ s hsub hs
  rwa [hasFeature_eq, getAvailableFeatures_avx] at h

/-- A Bulldozer processor (family `0x15`, model 1) under an OS that saves the YMM state is
`bdver1`. -/
theorem getHostCPUName_amd_avx_bulldozer :
    let cpuid : BitVec 32 → Regs := fun v =>
      if v = 0 then ⟨0xd, sigAmd, 0, 0⟩ else ⟨0x600f12, 0, 0x18000000, 0⟩
    let host : Host := ⟨some cpuid, none, some (6, 0)⟩
    host.cpuid = some cpuid ∧ (cpuid 0).ebx = sigAmd ∧ getHostCPUName host = some "bdver1" ∧
      host.savesYmm cpuid = true := by
  dsimp only
  have hn : getHostCPUName ⟨some fun v => if v = 0 then ⟨0xd, sigAmd, 0, 0⟩
      else ⟨0x600f12, 0, 0x18000000, 0⟩, none, some (6, 0)⟩ = some "bdver1" := by decide
  exact ⟨rfl, rfl, hn, getHostCPUName_amd_avx _ _ rfl rfl "bdver1" hn (by decide)⟩

/- The same processor under an OS that does not save the YMM state falls back to `btver1`. -/
example :
    let cpuid : BitVec 32 → Regs := fun v =>
      if v = 0 then ⟨0xd, sigAmd, 0, 0⟩ else ⟨0x600f12, 0, 0x18000000, 0⟩
    getHostCPUName ⟨some cpuid, none, some (1, 0)⟩ = some "btver1" := by
  decide

end Keystone.Host.X86
