import Keystone.MC.Fragment

/-!
# Fixups as or-merges

Every `applyFixup` of the source changes a fragment in one way: it ors bits into some of its
bytes, and which bits depends on the fixup, its value and the fragment's length, never on the
fragment's contents. This module names that shape, `IsOrMerge`, and proves what follows from it
for any sequence of fixups: the bytes after applying a list of them depend only on the set of
fixups in the list.

## Main definitions

* `Keystone.MC.IsOrMerge` — a change of a fragment that keeps its length and ors into each bit a
  bit chosen by the length and the bit's place.

## Main results

* `Keystone.MC.IsOrMerge.comp`, `Keystone.MC.isOrMerge_modify`, `Keystone.MC.isOrMerge_orBytesLE`
  — the shape is closed under composition, and the byte loop has it.
* `Keystone.MC.foldl_eq_of_mem_iff` — applying a list of or-merges depends only on which
  or-merges the list holds.
-/

namespace Keystone.MC

/-- **Or-merge.** `f` keeps a fragment's length, and bit `b` of byte `j` of `f data` is the old
bit or-ed with `mask data.length j b`, for bytes inside the fragment. -/
def IsOrMerge (f : List (BitVec 8) → List (BitVec 8)) : Prop :=
  ∃ mask : Nat → Nat → Nat → Bool, ∀ data, (f data).length = data.length ∧
    ∀ j b, ((f data).getD j 0).getLsbD b =
      ((data.getD j 0).getLsbD b || (decide (j < data.length) && mask data.length j b))

/-- Two fragments of one length with the same bits are equal. -/
theorem eq_of_getLsbD_getD {l l' : List (BitVec 8)} (hl : l.length = l'.length)
    (h : ∀ j b, (l.getD j 0).getLsbD b = (l'.getD j 0).getLsbD b) : l = l' := by
  refine List.ext_getElem hl fun j h1 h2 => BitVec.eq_of_getLsbD_eq fun b => ?_
  have := h j b
  rwa [List.getD_eq_getElem?_getD, List.getElem?_eq_getElem h1, Option.getD_some,
    List.getD_eq_getElem?_getD, List.getElem?_eq_getElem h2, Option.getD_some] at this

theorem isOrMerge_id : IsOrMerge id :=
  ⟨fun _ _ _ => false, fun _ => ⟨rfl, fun _ _ => by simp⟩⟩

namespace IsOrMerge

variable {f g : List (BitVec 8) → List (BitVec 8)}

theorem comp (hf : IsOrMerge f) (hg : IsOrMerge g) : IsOrMerge (f ∘ g) := by
  obtain ⟨mf, hmf⟩ := hf
  obtain ⟨mg, hmg⟩ := hg
  refine ⟨fun n j b => mg n j b || mf n j b, fun data => ⟨?_, fun j b => ?_⟩⟩
  · rw [Function.comp_apply, (hmf _).1, (hmg _).1]
  · rw [Function.comp_apply, (hmf _).2, (hmg _).2, (hmg _).1, Bool.or_assoc,
      Bool.and_or_distrib_left]

/-- A change chosen by the fragment's length between two or-merges is an or-merge. -/
theorem ite_length (hf : IsOrMerge f) (hg : IsOrMerge g) (p : Nat → Prop) [DecidablePred p] :
    IsOrMerge fun data => if p data.length then f data else g data := by
  obtain ⟨mf, hmf⟩ := hf
  obtain ⟨mg, hmg⟩ := hg
  refine ⟨fun n j b => if p n then mf n j b else mg n j b, fun data => ?_⟩
  by_cases h : p data.length
  · simp only [if_pos h]; exact hmf data
  · simp only [if_neg h]; exact hmg data

end IsOrMerge

/-- `Data[k] |= c` is an or-merge. -/
theorem isOrMerge_modify (c : BitVec 8) (k : Nat) :
    IsOrMerge fun data => data.modify (· ||| c) k := by
  refine ⟨fun _ j b => decide (j = k) && c.getLsbD b, fun data => ⟨List.length_modify _ _ _,
    fun j b => ?_⟩⟩
  rw [getD_modify]
  by_cases hj : j = k
  · subst hj
    by_cases hl : j < data.length
    · simp [hl]
    · simp [hl]
  · simp [hj, Ne.symm hj]

/-- The little-endian byte loop is an or-merge. -/
theorem isOrMerge_orBytesLE (offset : BitVec 32) (value : BitVec 64) (n : Nat) :
    IsOrMerge fun data => orBytesLE data offset value n := by
  induction n with
  | zero => exact isOrMerge_id
  | succ n ih =>
    exact (isOrMerge_modify _ _).comp ih

/-! ### Lists of or-merges -/

section Fold

variable {ι : Type} {F : ι → List (BitVec 8) → List (BitVec 8)}

/-- Applying a list of changes whose masks are `mask i`, one after the other, ors in the
disjunction of their masks. -/
theorem foldl_getLsbD (mask : ι → Nat → Nat → Nat → Bool)
    (hF : ∀ i data, (F i data).length = data.length ∧ ∀ j b, ((F i data).getD j 0).getLsbD b =
      ((data.getD j 0).getLsbD b || (decide (j < data.length) && mask i data.length j b)))
    (l : List ι) (data : List (BitVec 8)) :
    (l.foldl (fun d i => F i d) data).length = data.length ∧
      ∀ j b, ((l.foldl (fun d i => F i d) data).getD j 0).getLsbD b =
        ((data.getD j 0).getLsbD b ||
          (decide (j < data.length) && l.any fun i => mask i data.length j b)) := by
  induction l generalizing data with
  | nil => simp
  | cons i l ih =>
    obtain ⟨hlen, hbits⟩ := ih (F i data)
    refine ⟨hlen.trans (hF i data).1, fun j b => ?_⟩
    rw [List.foldl_cons, hbits, (hF i data).1, (hF i data).2, List.any_cons, Bool.or_assoc,
      Bool.and_or_distrib_left]

/-- **Order and repetition do not matter.** Two lists of or-merges with the same members leave
the same bytes. -/
theorem foldl_eq_of_mem_iff (hF : ∀ i, IsOrMerge (F i)) {l₁ l₂ : List ι}
    (h : ∀ i, i ∈ l₁ ↔ i ∈ l₂) (data : List (BitVec 8)) :
    l₁.foldl (fun d i => F i d) data = l₂.foldl (fun d i => F i d) data := by
  choose mask hmask using hF
  obtain ⟨hl₁, hb₁⟩ := foldl_getLsbD mask hmask l₁ data
  obtain ⟨hl₂, hb₂⟩ := foldl_getLsbD mask hmask l₂ data
  have hany : ∀ n j b, (l₁.any fun i => mask i n j b) = l₂.any fun i => mask i n j b :=
    fun n j b => by
      rw [Bool.eq_iff_iff, List.any_eq_true, List.any_eq_true]
      exact exists_congr fun i => and_congr_left fun _ => h i
  exact eq_of_getLsbD_getD (hl₁.trans hl₂.symm) fun j b => by rw [hb₁, hb₂, hany]

end Fold

end Keystone.MC
