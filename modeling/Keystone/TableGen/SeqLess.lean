import Mathlib.Order.Lattice

/-!
# The order of `SequenceToOffsetTable`

`SequenceToOffsetTable.h` keeps its sequences in a `std::map` ordered by `SeqLess`: the
`std::lexicographical_compare` of the two sequences read from the back. Under that order a
sequence comes right before the sequences it is a suffix of, which is what `add` relies on to
find suffixes with `lower_bound` and one step back.

## Main definitions

* `Keystone.TableGen.lexicographicalCompare` — `std::lexicographical_compare` with `std::less`.
* `Keystone.TableGen.seqLess`, `Keystone.TableGen.isSuffix` — `SeqLess` and `isSuffix`.

## Main results

* `Keystone.TableGen.seqLess_irrefl`, `Keystone.TableGen.seqLess_trans`,
  `Keystone.TableGen.eq_of_not_seqLess` — `SeqLess` is a strict total order.
* `Keystone.TableGen.not_seqLess_of_suffix` — a suffix comes no later than the sequence.
* `Keystone.TableGen.suffix_of_between` — the sequences that have `p` as a suffix form an
  interval that starts at `p`: whatever lies between `p` and one of them has `p` as a suffix.
-/

namespace Keystone.TableGen

variable {α : Type} [LinearOrder α]

/-- `std::lexicographical_compare(A, B)` with `std::less`: the first unequal pair decides; a
proper prefix comes first. -/
def lexicographicalCompare : List α → List α → Bool
  | _, [] => false
  | [], _ :: _ => true
  | a :: as, b :: bs => if a < b then true else if b < a then false else lexicographicalCompare as bs

/-- `SeqLess`: `lexicographical_compare` over `A.rbegin()..A.rend()` and `B.rbegin()..B.rend()`. -/
def seqLess (a b : List α) : Bool := lexicographicalCompare a.reverse b.reverse

/-- `isSuffix(A, B)`: `A.size() <= B.size()`, and `std::equal` of `A` read from the back with the
back of `B`. -/
def isSuffix (a b : List α) : Bool := decide (a.length ≤ b.length) && a.reverse.isPrefixOf b.reverse

/-! ### `lexicographical_compare` -/

section Lex

variable {x y : α} {a b c p : List α}

@[simp] theorem lexicographicalCompare_nil_right (a : List α) :
    lexicographicalCompare a [] = false := by
  cases a <;> rfl

@[simp] theorem lexicographicalCompare_nil_cons : lexicographicalCompare [] (y :: b) = true := rfl

theorem lexicographicalCompare_cons_cons :
    lexicographicalCompare (x :: a) (y :: b) = true ↔
      x < y ∨ x = y ∧ lexicographicalCompare a b = true := by
  rcases lt_trichotomy x y with h | rfl | h
  · simp [lexicographicalCompare, h]
  · simp [lexicographicalCompare]
  · simp [lexicographicalCompare, h, not_lt_of_lt h, ne_of_gt h]

theorem lexicographicalCompare_irrefl (a : List α) : lexicographicalCompare a a = false := by
  induction a with
  | nil => rfl
  | cons x a ih => simp [lexicographicalCompare, ih]

theorem lexicographicalCompare_trans (hab : lexicographicalCompare a b = true)
    (hbc : lexicographicalCompare b c = true) : lexicographicalCompare a c = true := by
  induction a generalizing b c with
  | nil =>
    cases c with
    | nil => simp at hbc
    | cons => rfl
  | cons x a ih =>
    rcases b with _ | ⟨y, b⟩
    · simp at hab
    rcases c with _ | ⟨z, c⟩
    · simp at hbc
    rw [lexicographicalCompare_cons_cons] at hab hbc ⊢
    rcases hab with hxy | ⟨rfl, hab⟩ <;> rcases hbc with hyz | ⟨rfl, hbc⟩
    · exact .inl (hxy.trans hyz)
    · exact .inl hxy
    · exact .inl hyz
    · exact .inr ⟨rfl, ih hab hbc⟩

/-- Neither before the other: equal. -/
theorem eq_of_not_lexicographicalCompare (hab : lexicographicalCompare a b = false)
    (hba : lexicographicalCompare b a = false) : a = b := by
  induction a generalizing b with
  | nil => cases b with
    | nil => rfl
    | cons => simp at hab
  | cons x a ih =>
    rcases b with _ | ⟨y, b⟩
    · simp at hba
    rw [← Bool.not_eq_true, lexicographicalCompare_cons_cons] at hab hba
    have hxy : x = y := le_antisymm (not_lt.mp fun h => hba (.inl h)) (not_lt.mp fun h => hab (.inl h))
    subst hxy
    rw [ih (by simpa using hab) (by simpa using hba)]

/-- A prefix never comes after the list. -/
theorem not_lexicographicalCompare_of_prefix (h : p <+: b) : lexicographicalCompare b p = false := by
  induction p generalizing b with
  | nil => simp
  | cons x p ih =>
    obtain ⟨b, rfl⟩ : ∃ b', b = x :: b' := by
      rcases b with _ | ⟨y, b⟩
      · simp at h
      · exact ⟨b, by rw [(List.cons_prefix_cons.mp h).1]⟩
    rw [← Bool.not_eq_true, lexicographicalCompare_cons_cons]
    simp [ih (List.cons_prefix_cons.mp h).2]

/-- A list between `p` and a list that `p` is a prefix of also has `p` as a prefix. -/
theorem prefix_of_between (hp : p <+: b) (hcp : lexicographicalCompare c p = false)
    (hbc : lexicographicalCompare b c = false) : p <+: c := by
  induction p generalizing b c with
  | nil => exact List.nil_prefix
  | cons x p ih =>
    obtain ⟨b, rfl⟩ : ∃ b', b = x :: b' := by
      rcases b with _ | ⟨y, b⟩
      · simp at hp
      · exact ⟨b, by rw [(List.cons_prefix_cons.mp hp).1]⟩
    rcases c with _ | ⟨z, c⟩
    · simp at hcp
    rw [← Bool.not_eq_true, lexicographicalCompare_cons_cons] at hcp hbc
    have hxz : z = x :=
      le_antisymm (not_lt.mp fun h => hbc (.inl h)) (not_lt.mp fun h => hcp (.inl h))
    subst hxz
    exact List.cons_prefix_cons.mpr ⟨rfl, ih (List.cons_prefix_cons.mp hp).2 (by simpa using hcp)
      (by simpa using hbc)⟩

end Lex

/-! ### `SeqLess` and `isSuffix` -/

section Seq

variable {a b c p : List α}

theorem isSuffix_iff : isSuffix a b = true ↔ a <:+ b := by
  rw [isSuffix, Bool.and_eq_true, decide_eq_true_eq, List.isPrefixOf_iff_prefix,
    List.reverse_prefix]
  exact and_iff_right_of_imp fun h => h.length_le

theorem seqLess_irrefl (a : List α) : seqLess a a = false := lexicographicalCompare_irrefl _

theorem seqLess_trans (hab : seqLess a b = true) (hbc : seqLess b c = true) : seqLess a c = true :=
  lexicographicalCompare_trans hab hbc

theorem seqLess_asymm (hab : seqLess a b = true) : seqLess b a = false := by
  cases h : seqLess b a
  · rfl
  · rw [← seqLess_irrefl a, seqLess_trans hab h]

theorem eq_of_not_seqLess (hab : seqLess a b = false) (hba : seqLess b a = false) : a = b :=
  List.reverse_inj.mp (eq_of_not_lexicographicalCompare hab hba)

/-- A suffix never comes after the sequence. -/
theorem not_seqLess_of_suffix (h : p <:+ b) : seqLess b p = false :=
  not_lexicographicalCompare_of_prefix (List.reverse_prefix.mpr h)

/-- **The suffix interval.** A sequence between `p` and a sequence that `p` is a suffix of also
has `p` as a suffix. -/
theorem suffix_of_between (hp : p <:+ b) (hcp : seqLess c p = false) (hbc : seqLess b c = false) :
    p <:+ c :=
  List.reverse_prefix.mp (prefix_of_between (List.reverse_prefix.mpr hp) hcp hbc)

end Seq

end Keystone.TableGen
