import Mathlib.Data.List.Basic

/-!
# Data by hardware mode

`InfoByHwMode<InfoT>` holds a `std::map` from hardware modes to data, with one mode,
`DefaultMode`, standing for every mode the map does not name. The const `get` reads a mode's
data, or the default mode's; the non-const `get` first copies the default mode's data into the
map under the mode. `makeSimple(Mode)` replaces the map by the one entry of the default mode
with the data of `Mode`, and `union_modes` lists the modes of two maps, the default mode last.

## Design

A `std::map<unsigned, T>` is `ModeMap`: its entries in increasing key order, which the
structure carries, so that a map out of order cannot be built; `std::set<unsigned>` is a
`ModeMap Unit`. `DefaultMode` is `CodeGenHwModes::DefaultMode`, whose header is not among the
sources: it is a parameter, and every result holds whatever its value. Each `assert` here checks
a caller's precondition, and the function returns `none` where it fails: a release build, which
compiles it out, would run into a past-the-end iterator (the const `get`) or go on with data the
precondition rules out (a default-constructed `InfoT` in the non-const `get`, the first entry in
`getSimple`).

The abstract reading of a map is its const `get`: what each mode reads. The non-const `get`
refines it, as a cache: it returns what the const `get` returns and leaves every const `get` as
it was (`getMut_refines_get`).

## Main definitions

* `Keystone.TableGen.ModeMap` — `std::map<unsigned, T>`, sorted by construction.
* `Keystone.TableGen.InfoByHwMode.get`, `getMut`, `makeSimple`, `unionModes`.

## Main results

* `Keystone.TableGen.InfoByHwMode.getMut_refines_get` — the non-const `get` only caches.
* `Keystone.TableGen.InfoByHwMode.unionModes_spec` — the modes `union_modes` lists, in order.
-/

namespace Keystone.TableGen

/-- `std::map<unsigned, T>`: its entries in increasing key order, so each key once. -/
structure ModeMap (α : Type) where
  entries : List (Nat × α)
  sorted : entries.Pairwise fun a b => a.1 < b.1

namespace ModeMap

variable {α : Type}

/-- The value of a key, what `find` reaches. -/
def lookup (m : Nat) : List (Nat × α) → Option α
  | [] => none
  | (k, v) :: rest => if k = m then some v else lookup m rest

/-- `Map[m] = v` on the entries: the entry of `m` overwritten, or a new one in its place. -/
def insertEntry (m : Nat) (v : α) : List (Nat × α) → List (Nat × α)
  | [] => [(m, v)]
  | (k, w) :: rest =>
    if m < k then (m, v) :: (k, w) :: rest
    else if m = k then (m, v) :: rest
    else (k, w) :: insertEntry m v rest

theorem mem_insertEntry {m : Nat} {v : α} :
    ∀ {l : List (Nat × α)} {e}, e ∈ insertEntry m v l → e.1 = m ∨ e ∈ l
  | [], e, h => .inl (by simp_all [insertEntry])
  | (k, w) :: rest, e, h => by
    rw [insertEntry] at h
    split_ifs at h with h₁ h₂
    · rcases List.mem_cons.mp h with rfl | h
      · exact .inl rfl
      · exact .inr h
    · rcases List.mem_cons.mp h with rfl | h
      · exact .inl rfl
      · exact .inr (List.mem_cons_of_mem _ h)
    · rcases List.mem_cons.mp h with rfl | h
      · exact .inr (List.mem_cons_self _ _)
      · exact (mem_insertEntry h).imp_right (List.mem_cons_of_mem _)

/-- Inserting keeps the keys in increasing order. -/
theorem sorted_insertEntry {m : Nat} {v : α} :
    ∀ {l : List (Nat × α)}, (l.Pairwise fun a b => a.1 < b.1) →
      (insertEntry m v l).Pairwise fun a b => a.1 < b.1
  | [], _ => List.pairwise_singleton _ _
  | (k, w) :: rest, h => by
    rw [List.pairwise_cons] at h
    rw [insertEntry]
    split_ifs with h₁ h₂
    · refine List.Pairwise.cons (fun e he => ?_) (List.Pairwise.cons h.1 h.2)
      rcases List.mem_cons.mp he with rfl | he
      · exact h₁
      · exact h₁.trans (h.1 e he)
    · subst h₂
      exact List.Pairwise.cons h.1 h.2
    · refine List.Pairwise.cons (fun e he => ?_) (sorted_insertEntry h.2)
      rcases mem_insertEntry he with he | he
      · rw [he]; omega
      · exact h.1 e he

theorem lookup_insertEntry (m m' : Nat) (v : α) :
    ∀ l : List (Nat × α),
      lookup m' (insertEntry m v l) = if m = m' then some v else lookup m' l
  | [] => rfl
  | (k, w) :: rest => by
    have ih := lookup_insertEntry m m' v rest
    by_cases h₁ : m < k
    · simp [insertEntry, lookup, h₁]
    by_cases h₂ : m = k
    · subst h₂
      by_cases h : m = m' <;> simp [insertEntry, lookup, h]
    by_cases h : m = m'
    · have hk : k ≠ m' := by omega
      subst h
      simp [insertEntry, lookup, h₁, h₂, hk, ih]
    · simp [insertEntry, lookup, h₁, h₂, h, ih]

theorem mem_map_fst_iff (m : Nat) :
    ∀ l : List (Nat × α), m ∈ l.map Prod.fst ↔ (lookup m l).isSome
  | [] => by simp [lookup]
  | (k, w) :: rest => by
    rw [List.map_cons, List.mem_cons, mem_map_fst_iff m rest, lookup]
    by_cases h : k = m
    · simp [h]
    · simp [h, Ne.symm h]

/-- The empty map. -/
def empty : ModeMap α := ⟨[], .nil⟩

/-- `find(m)`: the value of `m`, `none` for `end()`. -/
def find (M : ModeMap α) (m : Nat) : Option α := lookup m M.entries

/-- `Map[m] = v`, and `insert` into a `std::set`. -/
def set (M : ModeMap α) (m : Nat) (v : α) : ModeMap α :=
  ⟨insertEntry m v M.entries, sorted_insertEntry M.sorted⟩

/-- The keys, in the order the map iterates over them. -/
def keys (M : ModeMap α) : List Nat := M.entries.map Prod.fst

@[simp] theorem find_empty (m : Nat) : (empty : ModeMap α).find m = none := rfl

@[simp] theorem find_set (M : ModeMap α) (m m' : Nat) (v : α) :
    (M.set m v).find m' = if m = m' then some v else M.find m' :=
  lookup_insertEntry m m' v M.entries

theorem mem_keys (M : ModeMap α) (m : Nat) : m ∈ M.keys ↔ (M.find m).isSome :=
  mem_map_fst_iff m M.entries

theorem keys_sorted (M : ModeMap α) : M.keys.Pairwise (· < ·) :=
  List.pairwise_map.mpr M.sorted

/-- The set the loop `for (const auto &P : A) U.insert(P.first)` builds. -/
theorem find_foldl_set {β : Type} (m : Nat) :
    ∀ (l : List (Nat × β)) (U : ModeMap Unit),
      ((l.foldl (fun U P => U.set P.1 ()) U).find m).isSome ↔
        (U.find m).isSome ∨ m ∈ l.map Prod.fst
  | [], U => by simp
  | (k, w) :: rest, U => by
    rw [List.foldl_cons, find_foldl_set m rest, find_set, List.map_cons, List.mem_cons]
    by_cases h : k = m
    · simp [h]
    · simp [h, Ne.symm h]

end ModeMap

/-- `InfoByHwMode<InfoT>`, with its `Map`. -/
structure InfoByHwMode (α : Type) where
  map : ModeMap α

namespace InfoByHwMode

variable {α : Type} (defaultMode : Nat)

/-- `hasMode(M)`: the map has an entry for `M`. -/
def hasMode (A : InfoByHwMode α) (m : Nat) : Bool := (A.map.find m).isSome

/-- `hasDefault()`. -/
def hasDefault (A : InfoByHwMode α) : Bool := A.hasMode defaultMode

/-- `const InfoT &get(unsigned Mode) const`: the mode's data, else, for a mode other than the
default one, the default mode's; `none` where `assert(F != Map.end())` fails. -/
def get (A : InfoByHwMode α) (mode : Nat) : Option α :=
  let f := A.map.find mode
  if mode ≠ defaultMode ∧ f.isNone then A.map.find defaultMode else f

/-- `InfoT &get(unsigned Mode)`: for a mode not in the map, `Map[Mode] = Map[DefaultMode]`
first, `none` where `assert(hasMode(DefaultMode))` fails; then `Map[Mode]`, with the map. -/
def getMut (A : InfoByHwMode α) (mode : Nat) : Option (α × InfoByHwMode α) := do
  let A ← if A.hasMode mode then pure A else do
    let v ← A.map.find defaultMode
    pure ⟨A.map.set mode v⟩
  let v ← A.map.find mode
  pure (v, A)

/-- `isSimple()`: the map is the one entry of the default mode. -/
def isSimple (A : InfoByHwMode α) : Bool :=
  A.map.entries.length == 1 && A.map.entries.head?.map Prod.fst == some defaultMode

/-- `getSimple()`: the data of the first entry, `none` where `assert(isSimple())` fails. -/
def getSimple (A : InfoByHwMode α) : Option α :=
  if A.isSimple defaultMode then A.map.entries.head?.map Prod.snd else none

/-- `ValueTypeByHwMode(MVT T)`: the map of the one entry `{DefaultMode, T}`. -/
def valueTypeByHwMode (t : α) : InfoByHwMode α := ⟨ModeMap.empty.set defaultMode t⟩

/-- `makeSimple(Mode)`: after `assert(hasMode(Mode) || hasDefault())`, the data `get(Mode)`
returns, as the one entry of the default mode. -/
def makeSimple (A : InfoByHwMode α) (mode : Nat) : Option (InfoByHwMode α) :=
  if A.hasMode mode || A.hasDefault defaultMode then do
    let (i, _) ← A.getMut defaultMode mode
    pure ⟨ModeMap.empty.set defaultMode i⟩
  else none

/-- `union_modes(A, B)`: the modes of `A` and of `B` gathered in a `std::set`, those other than
the default mode in its order, then the default mode if it is there. -/
def unionModes (A B : InfoByHwMode α) : List Nat :=
  let u : ModeMap Unit := A.map.entries.foldl (fun U P => U.set P.1 ()) ModeMap.empty
  let u := B.map.entries.foldl (fun U P => U.set P.1 ()) u
  let hasDefault := (u.find defaultMode).isSome
  let v := u.keys.filter fun m => m != defaultMode
  if hasDefault then v ++ [defaultMode] else v

/-! ### `get` -/

section Get

variable {defaultMode} {A : InfoByHwMode α} {mode : Nat}

theorem get_of_find {v : α} (h : A.map.find mode = some v) : A.get defaultMode mode = some v := by
  simp [get, h]

theorem getMut_of_find {v : α} (h : A.map.find mode = some v) :
    A.getMut defaultMode mode = some (v, A) := by
  simp [getMut, hasMode, h]

/-- A mode the map lacks reads the default mode's data. -/
theorem get_of_find_eq_none (h : A.map.find mode = none) :
    A.get defaultMode mode = A.map.find defaultMode := by
  by_cases hm : mode = defaultMode
  · subst hm; simp [get, h]
  · simp [get, h, hm]

theorem getMut_of_find_eq_none (h : A.map.find mode = none) :
    A.getMut defaultMode mode =
      (A.map.find defaultMode).map fun v => (v, ⟨A.map.set mode v⟩) := by
  cases hd : A.map.find defaultMode <;> simp [getMut, hasMode, h, hd]

end Get

/-- **The non-const `get` only caches.** It returns what the const `get` returns, failing
exactly when it does; after it the map has an entry for the mode, and every mode reads what it
read before. -/
theorem getMut_refines_get (A : InfoByHwMode α) (mode : Nat) :
    (A.getMut defaultMode mode).map Prod.fst = A.get defaultMode mode ∧
      ∀ v A', A.getMut defaultMode mode = some (v, A') →
        A'.hasMode mode ∧ ∀ m, A'.get defaultMode m = A.get defaultMode m := by
  cases hf : A.map.find mode with
  | some v =>
    rw [getMut_of_find hf, get_of_find hf]
    refine ⟨rfl, ?_⟩
    rintro _ _ ⟨⟩
    exact ⟨by simp [hasMode, hf], fun _ => rfl⟩
  | none =>
    rw [getMut_of_find_eq_none hf, get_of_find_eq_none hf]
    cases hd : A.map.find defaultMode with
    | none => exact ⟨rfl, by simp⟩
    | some d =>
      have hne : mode ≠ defaultMode := fun h => by simp [h, hd] at hf
      refine ⟨rfl, ?_⟩
      rintro _ _ ⟨⟩
      refine ⟨by simp [hasMode], fun m => ?_⟩
      by_cases hm : mode = m
      · subst hm
        have hfd : (A.map.set mode d).find mode = some d := by simp
        rw [get_of_find_eq_none hf, hd]
        simp [get, hfd]
      · have hfm : (A.map.set mode d).find m = A.map.find m := by simp [hm]
        have hfd : (A.map.set mode d).find defaultMode = A.map.find defaultMode := by simp [hne]
        simp only [get, hfm, hfd]

/-! ### `union_modes` -/

/-- **The modes `union_modes` lists.** Each mode of `A` or `B` other than the default mode once,
in increasing order, then the default mode if `A` or `B` has it. -/
theorem unionModes_spec (A B : InfoByHwMode α) :
    ∃ v, A.unionModes defaultMode B =
        v ++ (if A.hasDefault defaultMode || B.hasDefault defaultMode then [defaultMode] else []) ∧
      v.Pairwise (· < ·) ∧ ∀ m, m ∈ v ↔ m ≠ defaultMode ∧ (A.hasMode m || B.hasMode m) := by
  let u := B.map.entries.foldl (fun U P => U.set P.1 ())
    (A.map.entries.foldl (fun U P => U.set P.1 ()) ModeMap.empty)
  have hmem : ∀ m, (u.find m).isSome = (A.hasMode m || B.hasMode m) := fun m =>
    Bool.eq_iff_iff.mpr (by
      simp only [u, ModeMap.find_foldl_set, ModeMap.find_empty, Option.isSome_none,
        Bool.false_eq_true, false_or, Bool.or_eq_true]
      exact or_congr (ModeMap.mem_keys A.map m) (ModeMap.mem_keys B.map m))
  refine ⟨u.keys.filter fun m => m != defaultMode, ?_, (ModeMap.keys_sorted u).filter _,
    fun m => ?_⟩
  · show (if (u.find defaultMode).isSome then _ else _) = _
    rw [hmem, hasDefault, hasDefault]
    cases A.hasMode defaultMode || B.hasMode defaultMode <;> simp
  · rw [List.mem_filter, ModeMap.mem_keys, hmem, bne_iff_ne, and_comm]

example :
    (⟨⟨[(0, 'a'), (3, 'b')], by decide⟩⟩ : InfoByHwMode Char).unionModes 0
      ⟨⟨[(1, 'c'), (3, 'd')], by decide⟩⟩ = [1, 3, 0] := by decide

end InfoByHwMode

end Keystone.TableGen
