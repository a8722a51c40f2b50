import Mathlib.Algebra.Order.Ring.Nat
import Keystone.TableGen.SequenceToOffsetTable

/-!
# The laid-out table of `SequenceToOffsetTable`

After a run of `add` and one `layout`, `emit` prints the stored sequences one after the other,
each followed by the terminator. This module reads the printed lines as one flat table and
proves that the table is what `size`, the offset comments and `get` say it is, as long as it is
shorter than `2^32`, where the `unsigned` offsets would wrap.

## Main definitions

* `Keystone.TableGen.EmitLine.table` — the flat table the printed lines spell.

## Main results

* `Keystone.TableGen.SequenceToOffsetTable.emit_layout` — each printed offset is the table length
  before its line, and `size` the whole length, modulo `2^32`.
* `Keystone.TableGen.SequenceToOffsetTable.get_layout` — `get` finds an added sequence inside the
  stored sequence it is a suffix of.
* `Keystone.TableGen.SequenceToOffsetTable.layout_get` — the table is right: `size` is its
  length, each offset comment is the position of its line, and from `get(s)` the table holds
  `s` and then the terminator.
-/

namespace Keystone.TableGen

/-- The table the printed lines spell: each line's elements, then its terminator, `none`. -/
def EmitLine.table {α : Type} (lines : List (EmitLine α)) : List (Option α) :=
  lines.flatMap fun l => l.elems.map some ++ [none]

namespace EmitLine

variable {α : Type}

theorem length_table (lines : List (EmitLine α)) :
    (table lines).length = (lines.map fun l => l.elems.length + 1).sum := by
  simp [table, List.length_flatMap, Function.comp_def]

/-- The table around line `i`: the lines before it, its elements and terminator, the rest. -/
theorem table_eq_of_lt (lines : List (EmitLine α)) {i : Nat} (hi : i < lines.length) :
    table lines = table (lines.take i) ++ (lines[i].elems.map some ++ [none]) ++
      table (lines.drop (i + 1)) := by
  have h := List.take_append_drop i lines
  rw [List.drop_eq_getElem_cons hi] at h
  conv_lhs => rw [← h]
  simp only [table, List.flatMap_append, List.flatMap_cons, List.append_assoc]

theorem length_table_take_le (lines : List (EmitLine α)) (k : Nat) :
    (table (lines.take k)).length ≤ (table lines).length := by
  have := congrArg List.length (congrArg table (List.take_append_drop k lines))
  rw [table, List.flatMap_append, List.length_append] at this
  rw [← this, table]
  omega

/-- From `|k| - |s|` into the elements of a line whose sequence has `s` as a suffix, the table
holds `s`, then the terminator. -/
theorem table_slice_of_suffix {s k : List α} (hs : s <:+ k) (P R : List (Option α)) :
    ((P ++ (k.map some ++ [none]) ++ R).drop (P.length + (k.length - s.length))).take s.length =
        s.map some ∧
      (P ++ (k.map some ++ [none]) ++ R)[P.length + (k.length - s.length) + s.length]? =
        some none := by
  obtain ⟨p, rfl⟩ := hs
  have hp : (p ++ s).length - s.length = p.length := by simp
  have hl : P ++ ((p ++ s).map some ++ [none]) ++ R =
      (P ++ p.map some) ++ (s.map some ++ none :: R) := by simp
  rw [hp, hl]
  constructor
  · rw [List.drop_left' (by simp), List.take_left' (by simp)]
  · rw [List.getElem?_append_right (by simp), List.getElem?_append_right (by simp)]
    simp

/-- **Reading at an offset.** When line `i`'s offset is its position in a table shorter than
`2^32` and `s` is a suffix of its sequence, the table holds `s` from that offset plus
`|elems| - |s|`, and then the terminator. -/
theorem table_slice_at (lines : List (EmitLine α)) {i : Nat} (hi : i < lines.length)
    {s : List α} (hs : s <:+ lines[i].elems) (hT : (table lines).length < 2 ^ 32)
    (hoff : lines[i].offset.toNat = (table (lines.take i)).length) :
    ((table lines).drop
        (lines[i].offset + BitVec.ofNat 32 (lines[i].elems.length - s.length)).toNat).take
          s.length = s.map some ∧
      (table lines)[(lines[i].offset +
        BitVec.ofNat 32 (lines[i].elems.length - s.length)).toNat + s.length]? = some none := by
  have hsplit := table_eq_of_lt lines hi
  have hbound : (table (lines.take i)).length + (lines[i].elems.length - s.length) + s.length <
      2 ^ 32 := by
    have := congrArg List.length hsplit
    simp only [List.length_append, List.length_map, List.length_singleton] at this
    have := hs.length_le
    omega
  have ho : (lines[i].offset + BitVec.ofNat 32 (lines[i].elems.length - s.length)).toNat =
      (table (lines.take i)).length + (lines[i].elems.length - s.length) := by
    rw [BitVec.toNat_add, hoff, BitVec.toNat_ofNat, Nat.mod_eq_of_lt (by omega),
      Nat.mod_eq_of_lt (by omega)]
  rw [ho, hsplit]
  exact table_slice_of_suffix hs _ _

end EmitLine

namespace SequenceToOffsetTable

open EmitLine

section Layout

variable {α : Type}

@[simp] theorem layout_seqs (t : SequenceToOffsetTable α) :
    t.layout.seqs = (layoutFrom t.seqs t.entries).1 := rfl

@[simp] theorem layout_entries (t : SequenceToOffsetTable α) :
    t.layout.entries = (layoutFrom t.seqs t.entries).2 := rfl

@[simp] theorem layoutFrom_length (seqs : List (List α × BitVec 32)) (entries : BitVec 32) :
    (layoutFrom seqs entries).1.length = seqs.length := by
  induction seqs generalizing entries with
  | nil => rfl
  | cons e rest ih => simp [layoutFrom, ih]

/-- **The loop of `layout`.** It keeps the sequences, gives entry `k` the offset `Entries` plus
the table length of the entries before it, and ends with `Entries` plus the whole length. -/
theorem layoutFrom_spec (seqs : List (List α × BitVec 32)) (entries : BitVec 32) :
    (layoutFrom seqs entries).1.map Prod.fst = seqs.map Prod.fst ∧
    (∀ k (hk : k < (layoutFrom seqs entries).1.length), ((layoutFrom seqs entries).1[k]).2 =
      entries + BitVec.ofNat 32 (((seqs.take k).map fun e => e.1.length + 1).sum)) ∧
    (layoutFrom seqs entries).2 =
      entries + BitVec.ofNat 32 ((seqs.map fun e => e.1.length + 1).sum) := by
  induction seqs generalizing entries with
  | nil => simp [layoutFrom]
  | cons e rest ih =>
    obtain ⟨s, v⟩ := e
    obtain ⟨h1, h2, h3⟩ := ih (entries + BitVec.ofNat 32 (s.length + 1))
    refine ⟨by simp [layoutFrom, h1], fun k hk => ?_, ?_⟩
    · cases k with
      | zero => simp [layoutFrom]
      | succ k =>
        simp only [layoutFrom, List.getElem_cons_succ, h2 k (by simpa [layoutFrom] using hk),
          List.take_succ_cons, List.map_cons, List.sum_cons, BitVec.add_assoc,
          BitVec.ofNat_add_ofNat]
    · simp only [layoutFrom, h3, List.map_cons, List.sum_cons, BitVec.add_assoc,
        BitVec.ofNat_add_ofNat]

/-- **The printed offsets.** After `layout` from `Entries = 0`, `emit` prints the stored
sequences, the offset of line `k` is the table length of the lines before it, and `size` the
length of the whole table, both modulo `2^32`. -/
theorem emit_layout (t : SequenceToOffsetTable α) (h0 : t.entries = 0) :
    (emit t.layout).map EmitLine.elems = t.seqs.map Prod.fst ∧
    (∀ k (hk : k < (emit t.layout).length), ((emit t.layout)[k]).offset =
      BitVec.ofNat 32 (table ((emit t.layout).take k)).length) ∧
    t.layout.size = BitVec.ofNat 32 (table (emit t.layout)).length := by
  obtain ⟨h1, h2, h3⟩ := layoutFrom_spec t.seqs t.entries
  have helems : (emit t.layout).map EmitLine.elems = t.seqs.map Prod.fst := by
    simpa [emit, Function.comp_def] using h1
  have hlen : ∀ k, ((emit t.layout).take k).map (fun l => l.elems.length + 1) =
      (t.seqs.take k).map fun e => e.1.length + 1 := fun k =>
    calc ((emit t.layout).take k).map (fun l => l.elems.length + 1)
        = (((emit t.layout).map EmitLine.elems).take k).map (fun x => x.length + 1) := by
          rw [← List.map_take, List.map_map]; rfl
      _ = ((t.seqs.map Prod.fst).take k).map (fun x => x.length + 1) := by rw [helems]
      _ = (t.seqs.take k).map fun e => e.1.length + 1 := by
          rw [← List.map_take, List.map_map]; rfl
  have hoff : ∀ k (hk : k < (emit t.layout).length), ((emit t.layout)[k]).offset =
      BitVec.ofNat 32 ((t.seqs.take k).map fun e => e.1.length + 1).sum := fun k hk => by
    simp only [emit, List.getElem_map, layout_seqs]
    rw [h2 k (by simpa [emit] using hk), h0, zero_add]
  refine ⟨helems, fun k hk => by rw [hoff k hk, length_table, hlen], ?_⟩
  have hall := hlen (emit t.layout).length
  rw [List.take_length, List.take_of_length_le (by simp [emit])] at hall
  rw [size, layout_entries, h3, h0, zero_add, length_table, hall]

end Layout

variable {α : Type} [LinearOrder α]

/-- `lower_bound` is the part of the entries after those before it. -/
theorem lowerBound_eq_drop (seqs : List (List α × BitVec 32)) (seq : List α) :
    lowerBound seqs seq = seqs.drop (below seqs seq).length :=
  (List.drop_left' rfl).symm.trans (by rw [below_append_lowerBound])

/-- Where `lower_bound` falls depends only on the sequences. -/
theorem length_below_of_map_fst {seqs seqs' : List (List α × BitVec 32)}
    (h : seqs.map Prod.fst = seqs'.map Prod.fst) (seq : List α) :
    (below seqs seq).length = (below seqs' seq).length := by
  have := congrArg (fun l => (l.takeWhile fun k => seqLess k seq).length) h
  simpa [List.takeWhile_map, Function.comp_def] using this

/-- **`get` after `layout`.** An added sequence is found inside the line whose sequence it is a
suffix of, at that line's offset plus the length of the part before it. -/
theorem get_layout {added : List (List α)} {t : SequenceToOffsetTable α} (hinv : Inv added t)
    {s : List α} (hs : s ∈ added) :
    ∃ i, ∃ hi : i < (emit t.layout).length, s <:+ ((emit t.layout)[i]).elems ∧
      t.layout.get s = some (((emit t.layout)[i]).offset +
        BitVec.ofNat 32 (((emit t.layout)[i]).elems.length - s.length)) := by
  obtain ⟨k, hk, hsk⟩ := hinv.covered s hs
  obtain ⟨e, rest, hlb, hse⟩ := exists_lowerBound_of_suffix hinv.sorted hk hsk
  have hkeys := (layoutFrom_spec t.seqs t.entries).1
  set L := (layoutFrom t.seqs t.entries).1 with hL
  set i := (below t.seqs s).length
  have hi : i < t.seqs.length := by
    have := congrArg List.length (below_append_lowerBound t.seqs s)
    rw [List.length_append, hlb, List.length_cons] at this
    omega
  have hiL : i < L.length := by simpa [hL] using hi
  have he : t.seqs[i] = e := by
    have := lowerBound_eq_drop t.seqs s
    rw [hlb, List.drop_eq_getElem_cons hi] at this
    exact (List.cons.inj this).1.symm
  have hfst : (L[i]).1 = e.1 := by
    have := congrArg (·[i]?) hkeys
    simp only [List.getElem?_map, List.getElem?_eq_getElem hiL, List.getElem?_eq_getElem hi, he,
      Option.map_some'] at this
    exact Option.some.inj this
  have hlbl : lowerBound L s = L[i] :: L.drop (i + 1) := by
    rw [lowerBound_eq_drop, length_below_of_map_fst hkeys, List.drop_eq_getElem_cons hiL]
  refine ⟨i, by simpa [emit] using hi, by simpa [emit, hfst] using hse, ?_⟩
  simp only [get, layout_seqs, ← hL, hlbl, hfst, isSuffix_iff.mpr hse, if_true, emit,
    List.getElem_map]

/-- **The table is right.** After a run of `add` and one `layout`, read the lines `emit` prints
as one table `T`: each stored sequence, then the terminator. When `T` is shorter than `2^32`,
`size` is its length, each printed offset is the position of its line in `T`, and for every added
sequence `s`, `get(s)` is a position from which `T` holds `s` and then the terminator. -/
theorem layout_get (ss : List (List α)) :
    (table (emit (ss.foldl add empty).layout)).length < 2 ^ 32 →
      (ss.foldl add empty).layout.size.toNat = (table (emit (ss.foldl add empty).layout)).length ∧
      (∀ k (hk : k < (emit (ss.foldl add empty).layout).length),
        ((emit (ss.foldl add empty).layout)[k]).offset.toNat =
          (table ((emit (ss.foldl add empty).layout).take k)).length) ∧
      ∀ s ∈ ss, ∃ o, (ss.foldl add empty).layout.get s = some o ∧
        ((table (emit (ss.foldl add empty).layout)).drop o.toNat).take s.length = s.map some ∧
        (table (emit (ss.foldl add empty).layout))[o.toNat + s.length]? = some none := by
  intro hT
  have hinv := inv_run ss
  obtain ⟨-, hoff, hsize⟩ := emit_layout _ hinv.entries
  have hpos : ∀ k, ((table ((emit (ss.foldl add empty).layout).take k)).length) < 2 ^ 32 :=
    fun k => (length_table_take_le _ k).trans_lt hT
  refine ⟨by rw [hsize, BitVec.toNat_ofNat, Nat.mod_eq_of_lt hT], fun k hk => ?_, fun s hs => ?_⟩
  · rw [hoff k hk, BitVec.toNat_ofNat, Nat.mod_eq_of_lt (hpos k)]
  obtain ⟨i, hi, hsuf, hget⟩ := get_layout hinv hs
  refine ⟨_, hget, table_slice_at _ hi hsuf hT ?_⟩
  rw [hoff i hi, BitVec.toNat_ofNat, Nat.mod_eq_of_lt (hpos i)]

/-- `[1, 2]`, `[2]` and `[0, 1, 2]`: one stored sequence, a table of four entries. -/
theorem layout_get_suffixes :
    (table (emit ([[1, 2], [2], [0, 1, 2]].foldl add (empty : SequenceToOffsetTable Nat)).layout)).length <
      2 ^ 32 ∧
    ((([[1, 2], [2], [0, 1, 2]].foldl add (empty : SequenceToOffsetTable Nat)).layout.size.toNat =
        (table (emit ([[1, 2], [2], [0, 1, 2]].foldl add empty).layout)).length) ∧
      (∀ k (hk : k < (emit ([[1, 2], [2], [0, 1, 2]].foldl add
          (empty : SequenceToOffsetTable Nat)).layout).length),
        ((emit ([[1, 2], [2], [0, 1, 2]].foldl add empty).layout)[k]).offset.toNat =
          (table ((emit ([[1, 2], [2], [0, 1, 2]].foldl add empty).layout).take k)).length) ∧
      ∀ s ∈ [[1, 2], [2], [0, 1, 2]], ∃ o,
        ([[1, 2], [2], [0, 1, 2]].foldl add (empty : SequenceToOffsetTable Nat)).layout.get s =
          some o ∧
        ((table (emit ([[1, 2], [2], [0, 1, 2]].foldl add empty).layout)).drop o.toNat).take
          s.length = s.map some ∧
        (table (emit ([[1, 2], [2], [0, 1, 2]].foldl add empty).layout))[o.toNat + s.length]? =
          some none) :=
  ⟨by decide, layout_get [[1, 2], [2], [0, 1, 2]] (by decide)⟩

end SequenceToOffsetTable

end Keystone.TableGen
