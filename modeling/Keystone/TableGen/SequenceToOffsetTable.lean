import Keystone.TableGen.SeqLess
import Mathlib.Data.BitVec
import Mathlib.Data.List.Sort

/-!
# `SequenceToOffsetTable`

`SequenceToOffsetTable.h` collects sequences into one table, storing a sequence only when no
sequence already stored has it as a suffix, and erasing a stored sequence that becomes a suffix
of a new one. `layout` then gives each stored sequence its offset, and `get` finds a sequence
inside the stored sequence it is a suffix of.

## Design

`Seqs`, a `std::map` ordered by `SeqLess`, is the list of its entries in iteration order; its
`lower_bound` is the part of that list from the first entry whose sequence is not `SeqLess`
than the argument (`lowerBound`). The element comparator `Less` is `std::less` on a linearly
ordered element type. Offsets and `Entries` are `unsigned`, `BitVec 32`. The `assert` of `get`
checks a caller's precondition, and `get` returns `none` where it fails: a release build, which
compiles it out, would go on with a past-the-end iterator or with the offset of an entry `Seq`
is not a suffix of. The other `assert`s are preconditions the callers meet.

`emit` is modelled as the lines it prints, each an offset and a sequence: the text of a line,
`  /* offset */ e1, e2, ..., Term,`, is fixed by these two, through the caller's `Print`.

The invariant of a run of `add` is `Inv`: the entries are sorted, none is a suffix of another,
their offsets are unset, and they are exactly the added sequences that are a suffix of no other
added sequence (`Inv.mem_keys_iff`).

## Main definitions

* `Keystone.TableGen.SequenceToOffsetTable` — `Seqs` and `Entries`.
* `Keystone.TableGen.SequenceToOffsetTable.add`, `.layout`, `.get`, `.size`, `.emit`.
* `Keystone.TableGen.SequenceToOffsetTable.Inv` — the invariant of a run of `add`.

## Main results

* `Keystone.TableGen.SequenceToOffsetTable.Inv.add` — `add` keeps the invariant.
* `Keystone.TableGen.SequenceToOffsetTable.inv_run` — every run of `add` satisfies it.
* `Keystone.TableGen.SequenceToOffsetTable.add_run_keys` — the stored sequences are exactly the
  added sequences that are a suffix of no other one; none is a suffix of another; and two runs
  that add the same sequences, in any order and number, lay out the same table.
-/

namespace Keystone.TableGen

/-- `SequenceToOffsetTable`: `Seqs`, the map from each stored sequence to its offset, as its
entries in `SeqLess` order, and `Entries`, the size of the table (`0` before `layout`). -/
structure SequenceToOffsetTable (α : Type) where
  seqs : List (List α × BitVec 32)
  entries : BitVec 32
  deriving DecidableEq, Repr

/-- A line `emit` prints, `  /* offset */ e1, e2, ..., Term,`: its offset and its sequence. -/
structure EmitLine (α : Type) where
  offset : BitVec 32
  elems : List α
  deriving DecidableEq, Repr

namespace SequenceToOffsetTable

variable {α : Type} [LinearOrder α]

/-- The constructor: no sequence, `Entries(0)`. -/
def empty : SequenceToOffsetTable α := ⟨[], 0⟩

/-- `Seqs.lower_bound(Seq)` and the entries after it: the entries from the first whose
sequence is not `SeqLess` than `Seq`. -/
def lowerBound (seqs : List (List α × BitVec 32)) (seq : List α) : List (List α × BitVec 32) :=
  seqs.dropWhile fun e => seqLess e.1 seq

/-- The entries before `Seqs.lower_bound(Seq)`. -/
def below (seqs : List (List α × BitVec 32)) (seq : List α) : List (List α × BitVec 32) :=
  seqs.takeWhile fun e => seqLess e.1 seq

/-- The entries `add` keeps before `Seq`: those before `lower_bound(Seq)`, less the last one
when its sequence is a suffix of `Seq` (the `Seqs.erase` after the insertion). -/
def keptBelow (seqs : List (List α × BitVec 32)) (seq : List α) : List (List α × BitVec 32) :=
  let pre := below seqs seq
  if pre.getLast?.any fun e => isSuffix e.1 seq then pre.dropLast else pre

/-- `add`: nothing when the entry at `lower_bound(Seq)` has `Seq` as a suffix; otherwise `Seq`
is inserted there with offset `0`, and the entry just before it is erased when its sequence is
a suffix of `Seq`. -/
def add (t : SequenceToOffsetTable α) (seq : List α) : SequenceToOffsetTable α :=
  if (lowerBound t.seqs seq).head?.any fun e => isSuffix seq e.1 then t
  else { t with seqs := keptBelow t.seqs seq ++ (seq, 0) :: lowerBound t.seqs seq }

/-- The loop of `layout` from offset `Entries`: each entry gets the current offset, which then
grows by the sequence's size and one for its terminator. Returns the entries and the final
`Entries`. -/
def layoutFrom : List (List α × BitVec 32) → BitVec 32 → List (List α × BitVec 32) × BitVec 32
  | [], entries => ([], entries)
  | (s, _) :: rest, entries =>
    let r := layoutFrom rest (entries + BitVec.ofNat 32 (s.length + 1))
    ((s, entries) :: r.1, r.2)

/-- `layout`: the offsets, in `Seqs` iteration order. -/
def layout (t : SequenceToOffsetTable α) : SequenceToOffsetTable α :=
  let r := layoutFrom t.seqs t.entries
  ⟨r.1, r.2⟩

/-- `size`: `Entries`. -/
def size (t : SequenceToOffsetTable α) : BitVec 32 := t.entries

/-- `get`: the offset of the entry at `lower_bound(Seq)` plus the length of the part of its
sequence before `Seq`; `none` where the code's `assert` fails (no entry there, or one that `Seq`
is not a suffix of). -/
def get (t : SequenceToOffsetTable α) (seq : List α) : Option (BitVec 32) :=
  match lowerBound t.seqs seq with
  | e :: _ => if isSuffix seq e.1 then some (e.2 + BitVec.ofNat 32 (e.1.length - seq.length))
    else none
  | [] => none

/-- `emit`: one line per entry, in `Seqs` iteration order. -/
def emit (t : SequenceToOffsetTable α) : List (EmitLine α) :=
  t.seqs.map fun e => ⟨e.2, e.1⟩

/-! ### Sorted entries and `lower_bound` -/

/-- The entries are in `SeqLess` order, strictly. -/
def Sorted (seqs : List (List α × BitVec 32)) : Prop :=
  seqs.Pairwise fun a b => seqLess a.1 b.1 = true

section LowerBound

variable {seqs : List (List α × BitVec 32)} {seq : List α} {e : List α × BitVec 32}

theorem below_append_lowerBound (seqs : List (List α × BitVec 32)) (seq : List α) :
    below seqs seq ++ lowerBound seqs seq = seqs :=
  List.takeWhile_append_dropWhile _ _

theorem seqLess_of_mem_below (he : e ∈ below seqs seq) : seqLess e.1 seq = true :=
  List.mem_takeWhile_imp (l := seqs) (p := fun e => seqLess e.1 seq) he

theorem mem_of_mem_below (he : e ∈ below seqs seq) : e ∈ seqs :=
  (List.takeWhile_prefix _).subset he

theorem mem_of_mem_lowerBound (he : e ∈ lowerBound seqs seq) : e ∈ seqs :=
  (List.dropWhile_suffix _).subset he

theorem Sorted.below (hs : Sorted seqs) (seq : List α) : Sorted (below seqs seq) :=
  hs.sublist (List.takeWhile_prefix _).sublist

theorem Sorted.lowerBound (hs : Sorted seqs) (seq : List α) : Sorted (lowerBound seqs seq) :=
  hs.sublist (List.dropWhile_suffix _).sublist

theorem not_seqLess_of_mem_lowerBound (hs : Sorted seqs) (he : e ∈ lowerBound seqs seq) :
    seqLess e.1 seq = false := by
  induction seqs with
  | nil => cases he
  | cons x xs ih =>
    rw [Sorted, List.pairwise_cons] at hs
    rw [lowerBound, List.dropWhile_cons] at he
    split_ifs at he with hx
    · exact ih hs.2 he
    · rcases List.mem_cons.mp he with rfl | he
      · simpa using hx
      · cases h : seqLess e.1 seq
        · rfl
        · exact absurd (seqLess_trans (hs.1 e he) h) hx

/-- **`lower_bound` finds suffixes.** When `Seq` is a suffix of some entry, the entry at
`lower_bound(Seq)` has `Seq` as a suffix. -/
theorem exists_lowerBound_of_suffix (hs : Sorted seqs) {k : List α × BitVec 32} (hk : k ∈ seqs)
    (hsk : seq <:+ k.1) : ∃ e rest, lowerBound seqs seq = e :: rest ∧ seq <:+ e.1 := by
  have hkl : k ∈ lowerBound seqs seq := by
    rw [← below_append_lowerBound seqs seq] at hk
    refine (List.mem_append.mp hk).resolve_left fun h => ?_
    have := seqLess_of_mem_below h
    rw [not_seqLess_of_suffix hsk] at this
    exact Bool.false_ne_true this
  obtain ⟨e, rest, hlb⟩ := List.exists_cons_of_ne_nil (List.ne_nil_of_mem hkl)
  refine ⟨e, rest, hlb, ?_⟩
  have he : seqLess e.1 seq = false := not_seqLess_of_mem_lowerBound hs (by rw [hlb]; exact .head _)
  rw [hlb] at hkl
  rcases List.mem_cons.mp hkl with rfl | hk'
  · exact hsk
  · have hek : seqLess e.1 k.1 = true := by
      have := hs.lowerBound seq
      rw [hlb, Sorted, List.pairwise_cons] at this
      exact this.1 k hk'
    exact suffix_of_between hsk he (seqLess_asymm hek)

end LowerBound

theorem seqLess_of_ne {a b : List α} (h : seqLess a b = false) (hne : a ≠ b) :
    seqLess b a = true := by
  cases h' : seqLess b a
  · exact absurd (eq_of_not_seqLess h h') hne
  · rfl

/-- Two sorted entry lists with the same members are equal. -/
theorem eq_of_sorted_of_mem_iff {l l' : List (List α × BitVec 32)} (hl : Sorted l)
    (hl' : Sorted l') (h : ∀ e, e ∈ l ↔ e ∈ l') : l = l' :=
  have : IsIrrefl _ fun a b : List α × BitVec 32 => seqLess a.1 b.1 = true :=
    ⟨fun a h => by rw [seqLess_irrefl] at h; cases h⟩
  have : IsAntisymm _ fun a b : List α × BitVec 32 => seqLess a.1 b.1 = true :=
    ⟨fun a b h1 h2 => by rw [seqLess_asymm h1] at h2; cases h2⟩
  List.eq_of_perm_of_sorted ((List.perm_ext_iff_of_nodup hl.nodup hl'.nodup).mpr h) hl hl'

/-! ### The invariant of `add` -/

/-- **The invariant of a run of `add`** over the sequences `added`: the entries are sorted, no
stored sequence is a suffix of another, no offset is set yet, every stored sequence was added,
and every added sequence is a suffix of a stored one. -/
structure Inv (added : List (List α)) (t : SequenceToOffsetTable α) : Prop where
  sorted : Sorted t.seqs
  suffixFree : ∀ a ∈ t.seqs, ∀ b ∈ t.seqs, a.1 <:+ b.1 → a = b
  unset : ∀ e ∈ t.seqs, e.2 = 0
  entries : t.entries = 0
  stored : ∀ e ∈ t.seqs, e.1 ∈ added
  covered : ∀ s ∈ added, ∃ e ∈ t.seqs, s <:+ e.1

theorem inv_empty : Inv [] (empty : SequenceToOffsetTable α) :=
  ⟨List.Pairwise.nil, by simp [empty], by simp [empty], rfl, by simp [empty], by simp⟩

section Add

variable {added : List (List α)} {t : SequenceToOffsetTable α} {seq : List α}

/-- Whether `add` finds `Seq` as a suffix of the entry at `lower_bound(Seq)`. -/
abbrev found (t : SequenceToOffsetTable α) (seq : List α) : Bool :=
  (lowerBound t.seqs seq).head?.any fun e => isSuffix seq e.1

/-- When `add` stores `Seq`, no entry has `Seq` as a suffix. -/
theorem not_suffix_of_not_found (hinv : Inv added t) (hnf : found t seq = false)
    {e : List α × BitVec 32} (he : e ∈ t.seqs) : ¬ seq <:+ e.1 := fun hs => by
  obtain ⟨e', rest, hlb, hs'⟩ := exists_lowerBound_of_suffix hinv.sorted he hs
  rw [found, hlb, List.head?_cons, Option.any_some, isSuffix_iff.mpr hs'] at hnf
  simp at hnf

/-- When `add` stores `Seq`, an entry that is a suffix of `Seq` is the last one before
`lower_bound(Seq)`. -/
theorem getLast_below_of_suffix (hinv : Inv added t) (hnf : found t seq = false)
    {e : List α × BitVec 32} (he : e ∈ t.seqs) (hes : e.1 <:+ seq) :
    (below t.seqs seq).getLast? = some e := by
  have hne : e.1 ≠ seq := fun h => not_suffix_of_not_found hinv hnf he (h ▸ List.suffix_refl _)
  have hlt : seqLess e.1 seq = true := seqLess_of_ne (not_seqLess_of_suffix hes) hne.symm
  have hb : e ∈ below t.seqs seq := by
    rw [← below_append_lowerBound t.seqs seq] at he
    refine (List.mem_append.mp he).resolve_right fun h => ?_
    rw [not_seqLess_of_mem_lowerBound hinv.sorted h] at hlt
    exact Bool.false_ne_true hlt
  have hsb := hinv.sorted.below seq
  rcases List.eq_nil_or_concat (below t.seqs seq) with h | ⟨pre, l, h⟩
  · rw [h] at hb; cases hb
  rw [h, List.concat_eq_append, List.getLast?_concat]
  rw [h, List.concat_eq_append] at hb hsb
  rcases List.mem_append.mp hb with hp | hl
  · exfalso
    have hel : seqLess e.1 l.1 = true :=
      (List.pairwise_append.mp hsb).2.2 e hp l (List.mem_singleton_self l)
    have hl : seqLess l.1 seq = true := seqLess_of_mem_below
      (by rw [h, List.concat_eq_append]; exact List.mem_append_right pre (List.mem_singleton_self l))
    have := hinv.suffixFree e he l
      (by rw [← below_append_lowerBound t.seqs seq, h]; simp)
      (suffix_of_between hes (seqLess_asymm hel) (seqLess_asymm hl))
    rw [this, seqLess_irrefl] at hel
    exact Bool.false_ne_true hel
  · rw [List.mem_singleton.mp hl]

/-- When `add` stores `Seq`, it keeps the entries before `lower_bound(Seq)` that are not a suffix
of `Seq`. -/
theorem mem_keptBelow (hinv : Inv added t) (hnf : found t seq = false)
    {e : List α × BitVec 32} : e ∈ keptBelow t.seqs seq ↔ e ∈ below t.seqs seq ∧ ¬ e.1 <:+ seq := by
  have hsb := hinv.sorted.below seq
  rcases List.eq_nil_or_concat (below t.seqs seq) with h | ⟨pre, l, h⟩
  · simp [keptBelow, h]
  rw [List.concat_eq_append] at h
  have hlast : ∀ {e}, e ∈ below t.seqs seq → e.1 <:+ seq → e = l := fun he hes => by
    have := getLast_below_of_suffix hinv hnf (mem_of_mem_below he) hes
    rw [h, List.getLast?_concat] at this
    exact (Option.some.inj this).symm
  have hl : l ∉ pre := fun hl => by
    rw [h] at hsb
    have := (List.pairwise_append.mp hsb).2.2 l hl l (List.mem_singleton_self l)
    rw [seqLess_irrefl] at this
    exact Bool.false_ne_true this
  simp only [keptBelow, h, List.getLast?_concat, Option.any_some]
  by_cases hls : isSuffix l.1 seq = true
  · rw [if_pos hls, List.dropLast_concat]
    refine ⟨fun hp => ⟨List.mem_append_left _ hp, fun hes => ?_⟩, fun ⟨he, hes⟩ => ?_⟩
    · exact hl (hlast (h ▸ List.mem_append_left _ hp) hes ▸ hp)
    · rcases List.mem_append.mp he with hp | hel
      · exact hp
      · exact absurd (List.mem_singleton.mp hel ▸ isSuffix_iff.mp hls) hes
  · rw [if_neg hls]
    exact ⟨fun he => ⟨he, fun hes => hls (isSuffix_iff.mpr (hlast (h ▸ he) hes ▸ hes))⟩, And.left⟩

theorem add_of_not_found (hnf : found t seq = false) :
    t.add seq = { t with seqs := keptBelow t.seqs seq ++ (seq, 0) :: lowerBound t.seqs seq } :=
  if_neg (by simpa using hnf)

@[simp] theorem add_entries (t : SequenceToOffsetTable α) (seq : List α) :
    (t.add seq).entries = t.entries := by
  unfold add; split <;> rfl

/-- **What `add` stores.** When `add` does not find `Seq`, its entries are `Seq`, with offset
`0`, and the old entries that are not a suffix of `Seq`. -/
theorem mem_add_of_not_found (hinv : Inv added t) (hnf : found t seq = false)
    {e : List α × BitVec 32} : e ∈ (t.add seq).seqs ↔ e = (seq, 0) ∨ e ∈ t.seqs ∧ ¬ e.1 <:+ seq := by
  have hL : ∀ {e}, e ∈ lowerBound t.seqs seq → ¬ e.1 <:+ seq := fun he hes => by
    have hb := List.mem_of_getLast?_eq_some
      (getLast_below_of_suffix hinv hnf (mem_of_mem_lowerBound he) hes)
    have := seqLess_of_mem_below hb
    rw [not_seqLess_of_mem_lowerBound hinv.sorted he] at this
    exact Bool.false_ne_true this
  rw [add_of_not_found hnf, List.mem_append, List.mem_cons, mem_keptBelow hinv hnf]
  constructor
  · rintro (⟨hb, hes⟩ | rfl | hl)
    · exact .inr ⟨mem_of_mem_below hb, hes⟩
    · exact .inl rfl
    · exact .inr ⟨mem_of_mem_lowerBound hl, hL hl⟩
  · rintro (rfl | ⟨he, hes⟩)
    · exact .inr (.inl rfl)
    · rw [← below_append_lowerBound t.seqs seq] at he
      rcases List.mem_append.mp he with hb | hl
      · exact .inl ⟨hb, hes⟩
      · exact .inr (.inr hl)

/-- When `add` stores `Seq`, the entries stay sorted. -/
theorem sorted_add_of_not_found (hinv : Inv added t) (hnf : found t seq = false) :
    Sorted (t.add seq).seqs := by
  have hs := hinv.sorted
  rw [← below_append_lowerBound t.seqs seq, Sorted, List.pairwise_append] at hs
  have hsub : (keptBelow t.seqs seq).Sublist (below t.seqs seq) := by
    unfold keptBelow
    dsimp only
    split
    · exact List.dropLast_sublist _
    · exact List.Sublist.refl _
  have hgt : ∀ e ∈ lowerBound t.seqs seq, seqLess seq e.1 = true := fun e he =>
    seqLess_of_ne (not_seqLess_of_mem_lowerBound hinv.sorted he) fun h =>
      not_suffix_of_not_found hinv hnf (mem_of_mem_lowerBound he) (h ▸ List.suffix_refl _)
  rw [add_of_not_found hnf, Sorted, List.pairwise_append, List.pairwise_cons]
  refine ⟨hs.1.sublist hsub, ⟨hgt, hs.2.1⟩, fun a ha b hb => ?_⟩
  rcases List.mem_cons.mp hb with rfl | hb
  · exact seqLess_of_mem_below (hsub.subset ha)
  · exact hs.2.2 a (hsub.subset ha) b hb

/-- **`add` keeps the invariant.** -/
theorem Inv.add (hinv : Inv added t) (seq : List α) : Inv (added ++ [seq]) (t.add seq) := by
  cases hf : found t seq
  · have hmem := fun e => mem_add_of_not_found hinv hf (e := e)
    refine ⟨sorted_add_of_not_found hinv hf, fun a ha b hb hab => ?_, fun e he => ?_,
      (add_entries t seq).trans hinv.entries, fun e he => ?_, fun s hs => ?_⟩
    · rcases (hmem a).mp ha with rfl | ⟨ha, has⟩ <;> rcases (hmem b).mp hb with rfl | ⟨hb, -⟩
      · rfl
      · exact absurd hab (not_suffix_of_not_found hinv hf hb)
      · exact absurd hab has
      · exact hinv.suffixFree a ha b hb hab
    · rcases (hmem e).mp he with rfl | ⟨he, -⟩
      · rfl
      · exact hinv.unset e he
    · rcases (hmem e).mp he with rfl | ⟨he, -⟩
      · exact List.mem_append_right _ (List.mem_singleton_self _)
      · exact List.mem_append_left _ (hinv.stored e he)
    · rcases List.mem_append.mp hs with hs | hs
      · obtain ⟨e, he, hse⟩ := hinv.covered s hs
        by_cases hes : e.1 <:+ seq
        · exact ⟨(seq, 0), (hmem _).mpr (.inl rfl), hse.trans hes⟩
        · exact ⟨e, (hmem e).mpr (.inr ⟨he, hes⟩), hse⟩
      · rw [List.mem_singleton.mp hs]
        exact ⟨(seq, 0), (hmem _).mpr (.inl rfl), List.suffix_refl _⟩
  · have ht : t.add seq = t := if_pos hf
    rw [ht]
    refine ⟨hinv.sorted, hinv.suffixFree, hinv.unset, hinv.entries,
      fun e he => List.mem_append_left _ (hinv.stored e he), fun s hs => ?_⟩
    rcases List.mem_append.mp hs with hs | hs
    · exact hinv.covered s hs
    rw [List.mem_singleton.mp hs]
    rcases hlb : lowerBound t.seqs seq with _ | ⟨e, rest⟩
    · rw [found, hlb] at hf
      simp at hf
    · rw [found, hlb] at hf
      exact ⟨e, mem_of_mem_lowerBound (hlb ▸ List.mem_cons_self e rest),
        isSuffix_iff.mp (by simpa using hf)⟩

end Add

/-! ### Runs of `add` -/

/-- **Every run of `add` keeps the invariant.** -/
theorem inv_foldl_add {added : List (List α)} {t : SequenceToOffsetTable α} (h : Inv added t)
    (ss : List (List α)) : Inv (added ++ ss) (ss.foldl add t) := by
  induction ss generalizing added t with
  | nil => simpa using h
  | cons s ss ih => simpa using ih (h.add s)

theorem inv_run (ss : List (List α)) : Inv ss (ss.foldl add empty) := by
  simpa using inv_foldl_add inv_empty ss

section Keys

variable {added added' : List (List α)} {t t' : SequenceToOffsetTable α}

/-- **The abstract model.** The stored sequences are exactly the added sequences that are not a
proper suffix of an added sequence. -/
theorem Inv.mem_keys_iff (h : Inv added t) (s : List α) :
    s ∈ t.seqs.map Prod.fst ↔ s ∈ added ∧ ∀ a ∈ added, s <:+ a → s = a := by
  constructor
  · intro hs
    obtain ⟨e, he, rfl⟩ := List.mem_map.mp hs
    refine ⟨h.stored e he, fun a ha hsa => ?_⟩
    obtain ⟨e', he', hae⟩ := h.covered a ha
    obtain rfl := h.suffixFree e he e' he' (hsa.trans hae)
    exact hsa.eq_of_length (le_antisymm hsa.length_le hae.length_le)
  · rintro ⟨hs, hmax⟩
    obtain ⟨e, he, hse⟩ := h.covered s hs
    exact List.mem_map.mpr ⟨e, he, (hmax e.1 (h.stored e he) hse).symm⟩

/-- Two tables with the invariant over the same added sequences are equal. -/
theorem Inv.eq (h : Inv added t) (h' : Inv added' t') (hab : ∀ s, s ∈ added ↔ s ∈ added') :
    t = t' := by
  have key : ∀ s, s ∈ t.seqs.map Prod.fst ↔ s ∈ t'.seqs.map Prod.fst := fun s => by
    simp only [h.mem_keys_iff, h'.mem_keys_iff, hab]
  have hmem : ∀ {t t' : SequenceToOffsetTable α} {added added' : List (List α)},
      Inv added t → Inv added' t' → (∀ s, s ∈ t.seqs.map Prod.fst ↔ s ∈ t'.seqs.map Prod.fst) →
      ∀ e ∈ t.seqs, e ∈ t'.seqs := fun h h' key e he => by
    obtain ⟨e', he', hk⟩ := List.mem_map.mp ((key e.1).mp (List.mem_map_of_mem _ he))
    rwa [show e = e' from Prod.ext hk.symm (by rw [h.unset e he, h'.unset e' he'])]
  cases t
  cases t'
  simp only [mk.injEq]
  exact ⟨eq_of_sorted_of_mem_iff h.sorted h'.sorted fun e =>
      ⟨hmem h h' key e, hmem h' h (fun s => (key s).symm) e⟩,
    h.entries.trans h'.entries.symm⟩

end Keys

/-- **Stored sequences.** After any run of `add`, the stored sequences are exactly the added
sequences that are not a proper suffix of another added sequence, and no stored sequence is a
suffix of another. Two runs that add the same sequences, in any order and with any repetitions,
lay out the same table, so `get` and `emit` agree on them. -/
theorem add_run_keys (ss : List (List α)) :
    (∀ s, s ∈ (ss.foldl add empty).seqs.map Prod.fst ↔ s ∈ ss ∧ ∀ a ∈ ss, s <:+ a → s = a) ∧
    (∀ a ∈ (ss.foldl add empty).seqs, ∀ b ∈ (ss.foldl add empty).seqs, a.1 <:+ b.1 → a = b) ∧
    ∀ ss' : List (List α), (∀ s, s ∈ ss ↔ s ∈ ss') →
      (ss.foldl add empty).layout = (ss'.foldl add empty).layout :=
  ⟨(inv_run ss).mem_keys_iff, (inv_run ss).suffixFree, fun ss' hss => by
    rw [(inv_run ss).eq (inv_run ss') hss]⟩

/-- `[1, 2]`, `[2]` and `[0, 1, 2]`, and the same three in another order with `[2]` twice. -/
theorem add_run_keys_reordered :
    (∀ s, s ∈ [[1, 2], [2], [0, 1, 2]] ↔ s ∈ [[0, 1, 2], [2], [1, 2], [2]]) ∧
    ([[1, 2], [2], [0, 1, 2]].foldl add (empty : SequenceToOffsetTable Nat)).layout =
      ([[0, 1, 2], [2], [1, 2], [2]].foldl add empty).layout :=
  ⟨fun s => by simp only [List.mem_cons, List.mem_singleton, List.not_mem_nil, or_false]; tauto,
    (add_run_keys [[1, 2], [2], [0, 1, 2]]).2.2 _ fun s => by
      simp only [List.mem_cons, List.mem_singleton, List.not_mem_nil, or_false]; tauto⟩

end SequenceToOffsetTable

end Keystone.TableGen
