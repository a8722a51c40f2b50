import Keystone.TableGen.StringMatcher

/-!
# `StringMatcher` is correct

The code `StringMatcher::Emit` writes runs, on every string, the code of the first pair whose key
is the string, and nothing when no key is: provided `Emit` gets through, which it does when the
keys are distinct or `IgnoreDuplicates` is set.

## Design

`EmitStringMatcherForChar` is called on pairs whose keys have one length and agree before
`CharNo` (`Call`); what the code it writes must do is `Correct`: on every string of that length
that agrees with the keys before `CharNo`, reach what looking the string up among the pairs
reaches, and, where the returned flag is `false`, never complete (so that no `break;` is needed
after it). The proof follows the emitter's three cases, each with its lemma: the code of the one
pair left (`correct_run`), the test before a run of letters all keys share (`correct_test`),
and the `switch` over buckets (`code?_execCases_buckets`), which also serves `Emit`'s `switch` on
the length.

## Main results

* `Keystone.TableGen.StringMatcher.emitStringMatcherForChar_correct`.
* `Keystone.TableGen.StringMatcher.emit_runMatcher` — the matcher `Emit` writes runs the code of
  the first pair whose key is the string.
-/

namespace Keystone.TableGen.StringMatcher

/-! ### Buckets -/

section Buckets

variable {κ β : Type}

/-- `lt` is a strict total order, as a `std::map` comparator must be. -/
structure StrictTotal (lt : κ → κ → Bool) : Prop where
  asymm : ∀ a b, lt a b = true → lt b a = false
  trans : ∀ a b c, lt a b = true → lt b c = true → lt a c = true
  total : ∀ a b, a ≠ b → lt a b = false → lt b a = true

/-- What comes strictly before is another key. -/
theorem StrictTotal.ne {lt : κ → κ → Bool} (hlt : StrictTotal lt) {a b : κ} (h : lt a b = true) :
    a ≠ b := by
  rintro rfl
  rw [hlt.asymm a a h] at h
  cases h

/-- The entries of a map are in strictly increasing key order. -/
def Sorted (lt : κ → κ → Bool) (m : List (κ × List β)) : Prop :=
  m.Pairwise fun a b => lt a.1 b.1 = true

@[simp] theorem sorted_nil {lt : κ → κ → Bool} : Sorted lt ([] : List (κ × List β)) :=
  List.Pairwise.nil

theorem sorted_cons {lt : κ → κ → Bool} {e : κ × List β} {m : List (κ × List β)} :
    Sorted lt (e :: m) ↔ (∀ e' ∈ m, lt e.1 e'.1 = true) ∧ Sorted lt m := List.pairwise_cons

variable [DecidableEq κ]

/-- The pairs in the bucket of `k`, `[]` when there is none: `Map[k]` on a `const` map. -/
def bucketOf : List (κ × List β) → κ → List β
  | [], _ => []
  | (j, ps) :: m, k => if k = j then ps else bucketOf m k

@[simp] theorem bucketOf_nil (k : κ) : bucketOf ([] : List (κ × List β)) k = [] := rfl

@[simp] theorem bucketOf_cons (j k : κ) (ps : List β) (m : List (κ × List β)) :
    bucketOf ((j, ps) :: m) k = if k = j then ps else bucketOf m k := rfl

variable {lt : κ → κ → Bool} {k : κ} {p : β} {m : List (κ × List β)}

/-- A key with no entry has the empty bucket. -/
theorem bucketOf_eq_nil (h : ∀ e ∈ m, e.1 ≠ k) : bucketOf m k = [] := by
  induction m with
  | nil => rfl
  | cons e m ih =>
    obtain ⟨j, ps⟩ := e
    simp only [List.mem_cons, forall_eq_or_imp] at h
    simp [Ne.symm h.1, ih h.2]

/-- A key with a non-empty bucket has an entry. -/
theorem exists_mem_of_bucketOf_ne_nil (h : bucketOf m k ≠ []) : ∃ e ∈ m, e.1 = k := by
  by_contra hk
  exact h (bucketOf_eq_nil fun e he hek => hk ⟨e, he, hek⟩)

/-- In a sorted map, an entry is what its key looks up. -/
theorem bucketOf_of_mem (hlt : StrictTotal lt) (hs : Sorted lt m) {e : κ × List β} (he : e ∈ m) :
    bucketOf m e.1 = e.2 := by
  induction m with
  | nil => cases he
  | cons e' m ih =>
    obtain ⟨j, ps⟩ := e'
    rw [sorted_cons] at hs
    rcases List.mem_cons.mp he with rfl | he
    · simp
    · simp [(hlt.ne (hs.1 e he)).symm, ih hs.2 he]

/-- `push_back` adds to the entry of `k`, or adds that entry, and leaves the others. -/
theorem mem_pushBack {e : κ × List β} (he : e ∈ pushBack lt k p m) :
    (e.1 = k ∧ e.2 ≠ []) ∨ e ∈ m := by
  induction m with
  | nil => simp [pushBack] at he; simp [he]
  | cons e' m ih =>
    obtain ⟨j, ps⟩ := e'
    simp only [pushBack] at he
    split_ifs at he with hj hk
    · rcases List.mem_cons.mp he with rfl | he
      · exact .inl ⟨hj, by simp⟩
      · exact .inr (List.mem_cons_of_mem _ he)
    · rcases List.mem_cons.mp he with rfl | he
      · exact .inl ⟨rfl, by simp⟩
      · exact .inr he
    · rcases List.mem_cons.mp he with rfl | he
      · exact .inr (List.mem_cons_self _ _)
      · exact (ih he).imp_right (List.mem_cons_of_mem _)

/-- `push_back` keeps the map sorted. -/
theorem sorted_pushBack (hlt : StrictTotal lt) (hs : Sorted lt m) :
    Sorted lt (pushBack lt k p m) := by
  induction m with
  | nil => simp [pushBack, sorted_cons]
  | cons e m ih =>
    obtain ⟨j, ps⟩ := e
    rw [sorted_cons] at hs
    simp only [pushBack]
    split_ifs with hj hk
    · exact sorted_cons.mpr hs
    · refine sorted_cons.mpr ⟨?_, sorted_cons.mpr hs⟩
      simp only [List.mem_cons, forall_eq_or_imp]
      exact ⟨hk, fun e he => hlt.trans _ _ _ hk (hs.1 e he)⟩
    · refine sorted_cons.mpr ⟨fun e he => ?_, ih hs.2⟩
      rcases mem_pushBack he with ⟨he, -⟩ | he
      · rw [he]; exact hlt.total _ _ (Ne.symm hj) (by simpa using hk)
      · exact hs.1 e he

/-- **`push_back`.** The bucket of `k` gets `p` at its end; every other bucket stays. -/
theorem bucketOf_pushBack (hlt : StrictTotal lt) (hs : Sorted lt m) (k' : κ) :
    bucketOf (pushBack lt k p m) k' = if k' = k then bucketOf m k ++ [p] else bucketOf m k' := by
  induction m with
  | nil => by_cases h : k' = k <;> simp [pushBack, h]
  | cons e m ih =>
    obtain ⟨j, ps⟩ := e
    rw [sorted_cons] at hs
    by_cases hj : j = k
    · subst hj; by_cases h : k' = j <;> simp [pushBack, h]
    by_cases hk : lt k j
    · have hnil : bucketOf m k = [] := bucketOf_eq_nil fun e he hek =>
        hlt.ne (hlt.trans _ _ _ hk (hek ▸ hs.1 e he)) rfl
      by_cases h : k' = k <;> simp [pushBack, hj, hk, h, Ne.symm hj, hnil]
    · rw [pushBack, if_neg hj, if_neg hk, bucketOf_cons, ih hs.2]
      by_cases h : k' = j
      · subst h; simp [hj]
      · simp [h, Ne.symm hj]

variable (lt) in
theorem buckets_append (key : β → κ) (ps : List β) (p : β) :
    buckets lt key (ps ++ [p]) = pushBack lt (key p) p (buckets lt key ps) := by
  simp [buckets]

/-- The buckets are in `lt` order, none is empty, and the bucket of `k` holds the pairs of key
`k` in their order. -/
theorem buckets_spec (hlt : StrictTotal lt) (key : β → κ) (ps : List β) :
    Sorted lt (buckets lt key ps) ∧ (∀ e ∈ buckets lt key ps, e.2 ≠ []) ∧
      ∀ k, bucketOf (buckets lt key ps) k = ps.filter (key · = k) := by
  induction ps using List.reverseRecOn with
  | nil => simp [buckets]
  | append_singleton ps p ih =>
    obtain ⟨hs, hne, hb⟩ := ih
    rw [buckets_append]
    refine ⟨sorted_pushBack hlt hs, fun e he => ?_, fun k => ?_⟩
    · rcases mem_pushBack he with ⟨-, h⟩ | he
      · exact h
      · exact hne e he
    · rw [bucketOf_pushBack hlt hs, List.filter_append, hb, hb]
      by_cases h : k = key p
      · simp [h]
      · simp [h, Ne.symm h]

variable {key : β → κ} {ps : List β}

/-- A bucket holds exactly the pairs of its key, in their order, and is not empty. -/
theorem mem_buckets (hlt : StrictTotal lt) {e : κ × List β} (he : e ∈ buckets lt key ps) :
    e.2 = ps.filter (key · = e.1) ∧ e.2 ≠ [] :=
  have ⟨hs, hne, hb⟩ := buckets_spec hlt key ps
  ⟨(bucketOf_of_mem hlt hs he).symm.trans (hb e.1), hne e he⟩

/-- Every pair has the bucket of its key. -/
theorem exists_mem_buckets (hlt : StrictTotal lt) (key : β → κ) (hp : p ∈ ps) :
    ∃ e ∈ buckets lt key ps, e.1 = key p := by
  apply exists_mem_of_bucketOf_ne_nil
  rw [(buckets_spec hlt key ps).2.2]
  exact List.ne_nil_of_mem (List.mem_filter.mpr ⟨hp, by simp⟩)

/-- Looking a pair up in its bucket finds what looking it up among all pairs finds. -/
theorem find?_filter_of_imp {q : β → Bool} (h : ∀ x ∈ ps, q x = true → key x = k) :
    (ps.filter (key · = k)).find? q = ps.find? q := by
  induction ps with
  | nil => rfl
  | cons x ps ih =>
    simp only [List.mem_cons, forall_eq_or_imp] at h
    by_cases hx : key x = k
    · simp [List.filter_cons, hx, List.find?_cons, ih h.2]
    · have hq : q x = false := by
        by_contra hq
        exact hx (h.1 (by simpa using hq))
      simp [List.filter_cons, hx, List.find?_cons, hq, ih h.2]

end Buckets

/-- `char` order, `BitVec.slt` on bytes, is a strict total order. -/
theorem strictTotal_slt : StrictTotal fun a b : BitVec 8 => a.slt b := by
  refine ⟨fun a b h => ?_, fun a b c h1 h2 => ?_, fun a b hab h => ?_⟩ <;>
    simp only [BitVec.slt, decide_eq_true_eq, decide_eq_false_iff_not, not_lt] at *
  · omega
  · omega
  · have := mt BitVec.toInt_inj.mp hab
    omega

/-- `unsigned` order on lengths is a strict total order. -/
theorem strictTotal_lt : StrictTotal fun a b : Nat => decide (a < b) := by
  refine ⟨fun a b h => ?_, fun a b c h1 h2 => ?_, fun a b hab h => ?_⟩ <;>
    simp only [decide_eq_true_eq, decide_eq_false_iff_not, not_lt] at * <;> omega

/-! ### `FindFirstNonCommonLetter` -/

section FindFirst

variable (pairs : List StringPair)

/-- The loop stops at the end of `cs` at the latest. -/
theorem findFirstNonCommonLetterFrom_le (cs : List (BitVec 8)) (i : Nat) :
    findFirstNonCommonLetterFrom pairs cs i ≤ i + cs.length := by
  induction cs generalizing i with
  | nil => simp [findFirstNonCommonLetterFrom]
  | cons c cs ih =>
    simp only [findFirstNonCommonLetterFrom]
    split
    · have := ih (i + 1); simp only [List.length_cons]; omega
    · omega

/-- Before the position found, every key has the letters of `cs`. -/
theorem getElem?_of_lt_findFirstNonCommonLetterFrom (cs : List (BitVec 8)) (i : Nat) {t : Nat}
    (hi : i ≤ t) (ht : t < findFirstNonCommonLetterFrom pairs cs i) {p : StringPair}
    (hp : p ∈ pairs) : p.1[t]? = cs[t - i]? := by
  induction cs generalizing i with
  | nil => simp only [findFirstNonCommonLetterFrom] at ht; omega
  | cons c cs ih =>
    simp only [findFirstNonCommonLetterFrom] at ht
    split at ht
    · next hall =>
      rcases Nat.eq_or_lt_of_le hi with rfl | hi
      · simpa using List.all_eq_true.mp hall p hp
      · rw [ih (i + 1) hi ht, show t - i = t - (i + 1) + 1 by omega, List.getElem?_cons_succ]
    · omega

/-- The position found is past every run of positions where all keys have the letters of `cs`. -/
theorem le_findFirstNonCommonLetterFrom (cs : List (BitVec 8)) (i : Nat) {n : Nat}
    (hn : n ≤ cs.length) (h : ∀ t, i ≤ t → t < i + n → ∀ p ∈ pairs, p.1[t]? = cs[t - i]?) :
    i + n ≤ findFirstNonCommonLetterFrom pairs cs i := by
  induction cs generalizing i n with
  | nil => simp only [List.length_nil, Nat.le_zero] at hn; subst hn; simp [findFirstNonCommonLetterFrom]
  | cons c cs ih =>
    simp only [findFirstNonCommonLetterFrom]
    rcases n with _ | n
    · split
      · have := ih (i + 1) (Nat.zero_le _) (fun t _ _ => by omega); omega
      · omega
    · have hall : (pairs.all fun p => p.1[i]? == some c) = true :=
        List.all_eq_true.mpr fun p hp => by simpa using h i le_rfl (by omega) p hp
      rw [if_pos hall]
      have := ih (i + 1) (n := n) (by simpa using hn) fun t h1 h2 p hp => by
        rw [h t (by omega) (by omega) p hp, show t - i = t - (i + 1) + 1 by omega,
          List.getElem?_cons_succ]
      omega

end FindFirst

section FindFirstTop

variable {m : StringPair} {ms : List StringPair}

theorem findFirstNonCommonLetter_le : findFirstNonCommonLetter (m :: ms) ≤ m.1.length := by
  simpa using findFirstNonCommonLetterFrom_le (m :: ms) m.1 0

/-- All keys agree before the position found. -/
theorem take_findFirstNonCommonLetter {p : StringPair} (hp : p ∈ m :: ms) :
    p.1.take (findFirstNonCommonLetter (m :: ms)) = m.1.take (findFirstNonCommonLetter (m :: ms)) := by
  refine List.ext_getElem? fun t => ?_
  simp only [List.getElem?_take]
  split_ifs with ht
  · simpa using getElem?_of_lt_findFirstNonCommonLetterFrom (m :: ms) m.1 0 (Nat.zero_le t) ht hp
  · rfl

/-- Where all keys agree on the first `n ≤ Matches[0].size()` letters, the position found is at
least `n`. -/
theorem le_findFirstNonCommonLetter {n : Nat} (hn : n ≤ m.1.length)
    (h : ∀ p ∈ m :: ms, p.1.take n = m.1.take n) : n ≤ findFirstNonCommonLetter (m :: ms) := by
  simpa using le_findFirstNonCommonLetterFrom (m :: ms) m.1 0 hn fun t _ ht p hp => by
    rw [Nat.sub_zero, ← List.getElem?_take_of_lt (Nat.zero_add n ▸ ht), h p hp,
      List.getElem?_take_of_lt (Nat.zero_add n ▸ ht)]

end FindFirstTop

/-! ### The meaning of the written code -/

section Exec

variable {str : List (BitVec 8)}

/-- The test before the code for `n` characters all keys share: `if (Str[CharNo] != c)` for one,
`memcmp` for more; either `break`s or goes on. -/
theorem exec_test_cases (str : List (BitVec 8)) (cond : Prop) [Decidable cond] (charNo : Nat) (c : BitVec 8)
    (s : List (BitVec 8)) (next : Stmt) :
    exec str ((if cond then Stmt.ifCharNe charNo c else Stmt.ifMemcmp charNo s) next) = .brk ∨
      exec str ((if cond then Stmt.ifCharNe charNo c else Stmt.ifMemcmp charNo s) next) =
        exec str next := by
  split_ifs <;> simp only [exec] <;> split_ifs <;> simp

/-- On a string long enough, both tests compare `n` characters from `CharNo` with the key's. -/
theorem exec_test {key : List (BitVec 8)} {charNo n : Nat} (hn : 0 < n)
    (hs : charNo < str.length) (hk : charNo + n ≤ key.length) (next : Stmt) :
    exec str ((if n = 1 then Stmt.ifCharNe charNo (key.getD charNo 0)
      else Stmt.ifMemcmp charNo ((key.drop charNo).take n)) next) =
      if (str.drop charNo).take n = (key.drop charNo).take n then exec str next else .brk := by
  by_cases h1 : n = 1
  · subst h1
    have hk' : charNo < key.length := by omega
    have hiff : (str.drop charNo).take 1 = (key.drop charNo).take 1 ↔
        str.getD charNo 0 = key.getD charNo 0 := by
      rw [List.drop_eq_getElem_cons hs, List.drop_eq_getElem_cons hk']
      simp only [List.take_succ_cons, List.take_zero, List.cons.injEq, and_true,
        List.getD_eq_getElem?_getD, List.getElem?_eq_getElem hs, List.getElem?_eq_getElem hk',
        Option.getD_some]
    simp only [if_pos rfl, exec, hiff, ne_eq, ite_not]
  · have hlen : ((key.drop charNo).take n).length = n := by simp; omega
    simp only [if_neg h1, exec, hlen, ne_eq, ite_not]

/-- **A `switch` without fall-through.** When no case that reaches its end can fall through into
the next, the result of a `switch` on `v` is that of the case labelled `v`, and none when no case
is. -/
theorem code?_execCases {v : Nat} {o : Option String} :
    ∀ {cases : List (Nat × Stmt × Bool)},
      (∀ c ∈ cases, (c.2.2 = false → exec str c.2.1 ≠ .normal) ∧
        (c.1 = v → (exec str c.2.1).code? = o)) →
      ((∀ c ∈ cases, c.1 ≠ v) → o = none) → (execCases str v cases false).code? = o
  | [], _, hnone => by simp [execCases, Res.code?, hnone]
  | (label, body, brk) :: rest, hcases, hnone => by
    simp only [List.mem_cons, forall_eq_or_imp] at hcases hnone
    rw [execCases, Bool.false_or]
    by_cases hl : label = v
    · rw [if_pos (decide_eq_true hl), ← hcases.1.2 hl]
      cases h : exec str body with
      | ran code => rfl
      | brk => rfl
      | normal =>
        cases brk
        · exact absurd h (hcases.1.1 rfl)
        · rfl
    · rw [if_neg (by simpa using hl)]
      exact code?_execCases hcases.2 fun h => hnone ⟨hl, h⟩

end Exec

/-- `mapM` in `Except` succeeds where its function succeeds on every element, and relates each
element to its result. -/
theorem mapM_ok_of_forall {α γ : Type} {f : α → Except String γ} {R : α → γ → Prop} :
    ∀ {xs : List α}, (∀ x ∈ xs, ∃ y, f x = .ok y ∧ R x y) →
      ∃ ys, xs.mapM f = .ok ys ∧ (∀ y ∈ ys, ∃ x ∈ xs, R x y) ∧ ∀ x ∈ xs, ∃ y ∈ ys, R x y
  | [], _ => ⟨[], rfl, by simp, by simp⟩
  | x :: xs, h => by
    obtain ⟨y, hy, hR⟩ := h x (List.mem_cons_self _ _)
    obtain ⟨ys, hys, hsound, hcomplete⟩ :=
      mapM_ok_of_forall fun x' hx' => h x' (List.mem_cons_of_mem _ hx')
    refine ⟨y :: ys, ?_, ?_, ?_⟩
    · rw [List.mapM_cons, hy, hys]
      rfl
    · simp only [List.mem_cons, forall_eq_or_imp, exists_eq_or_imp]
      exact ⟨.inl hR, fun y' hy' => .inr (hsound y' hy')⟩
    · simp only [List.mem_cons, forall_eq_or_imp, exists_eq_or_imp]
      exact ⟨.inl hR, fun x' hx' => .inr (hcomplete x' hx')⟩

/-! ### The emitter -/

/-- The calls `Emit` makes to `EmitStringMatcherForChar`, and those it makes itself: the keys
all have the length `len` and agree before `charNo ≤ len`, and `fuel` covers the `len - charNo`
letters left. -/
structure Call (pairs : List StringPair) (len charNo fuel : Nat) : Prop where
  ne_nil : pairs ≠ []
  length_eq : ∀ p ∈ pairs, p.1.length = len
  take_eq : ∀ p ∈ pairs, ∀ q ∈ pairs, p.1.take charNo = q.1.take charNo
  le : charNo ≤ len
  lt_fuel : len < charNo + fuel

/-- The code written for `pairs` at `charNo`, with its flag, is right: on every `Str` of length
`len` that agrees with the keys before `charNo` it reaches the code of the first pair whose key
is `Str`, and none when there is no such pair; and where the flag is `false`, no run of it
completes. -/
def Correct (pairs : List StringPair) (len charNo : Nat) (r : Stmt × Bool) : Prop :=
  (r.2 = false → ∀ str, exec str r.1 ≠ .normal) ∧
  ∀ str : List (BitVec 8), str.length = len → (∀ p ∈ pairs, str.take charNo = p.1.take charNo) →
    (exec str r.1).code? = (pairs.find? fun p => p.1 = str).map Prod.snd

theorem take_succ_getD {l : List (BitVec 8)} {n : Nat} (h : n < l.length) :
    l.take (n + 1) = l.take n ++ [l.getD n 0] := by
  rw [List.take_succ, List.getD_eq_getElem?_getD, List.getElem?_eq_getElem h]
  rfl

/-- Two keys of length `n` that agree on their first `n` letters are equal. -/
theorem eq_of_take_eq {a b : List (BitVec 8)} {n : Nat} (ha : a.length = n) (hb : b.length = n)
    (h : a.take n = b.take n) : a = b := by
  rwa [List.take_of_length_le ha.le, List.take_of_length_le hb.le] at h

section Cases

variable {m : StringPair} {ms : List StringPair} {len charNo fuel : Nat}

/-- At `CharNo = len` the keys are all equal, and the code of the first pair is right. -/
theorem correct_run (hc : Call (m :: ms) len len fuel) :
    Correct (m :: ms) len len (.run m.2, false) := by
  refine ⟨fun _ _ => by simp [exec], fun str hlen htake => ?_⟩
  have hm : m.1 = str :=
    eq_of_take_eq (hc.length_eq m (List.mem_cons_self _ _)) hlen (htake m (List.mem_cons_self _ _)).symm
  simp [exec, Res.code?, List.find?_cons, hm]

/-- At `CharNo = len` more than one pair is left only with duplicate keys. -/
theorem not_duplicate (ignoreDuplicates : Bool) (hc : Call (m :: ms) len len fuel)
    (hd : ignoreDuplicates = true ∨ ((m :: ms).map Prod.fst).Nodup) :
    ((m :: ms).length > 1 && !ignoreDuplicates) = false := by
  rcases hd with rfl | hd
  · simp
  rcases ms with _ | ⟨q, ms⟩
  · simp
  have hmem : q ∈ m :: q :: ms := List.mem_cons_of_mem _ (List.mem_cons_self _ _)
  have hq : q.1 = m.1 := eq_of_take_eq (hc.length_eq q hmem) (hc.length_eq m (List.mem_cons_self _ _))
    (hc.take_eq q hmem m (List.mem_cons_self _ _))
  simp [hq] at hd

/-- Where all keys have one letter at `CharNo`, the first position where they differ is past
`CharNo`, and the emitter's call from there is again one of `Call`. -/
theorem call_findFirstNonCommonLetter (hc : Call (m :: ms) len charNo (fuel + 1))
    (hlt : charNo < len) (h1 : (matchesByLetter (m :: ms) charNo).length = 1) :
    charNo < findFirstNonCommonLetter (m :: ms) ∧
      Call (m :: ms) len (findFirstNonCommonLetter (m :: ms)) fuel := by
  have hm : m.1.length = len := hc.length_eq m (List.mem_cons_self _ _)
  obtain ⟨e, he⟩ := List.length_eq_one.mp h1
  have hletter : ∀ p ∈ m :: ms, p.1.getD charNo 0 = e.1 := fun p hp => by
    obtain ⟨e', he', hk⟩ := exists_mem_buckets strictTotal_slt (fun p => p.1.getD charNo 0) hp
    rw [matchesByLetter, he, List.mem_singleton] at *
    rw [← hk, he']
  have hnext : charNo + 1 ≤ findFirstNonCommonLetter (m :: ms) :=
    le_findFirstNonCommonLetter (by omega) fun p hp => by
      rw [take_succ_getD (by rw [hc.length_eq p hp]; omega), take_succ_getD (by omega),
        hc.take_eq p hp m (List.mem_cons_self _ _), hletter p hp,
        hletter m (List.mem_cons_self _ _)]
  have hle : findFirstNonCommonLetter (m :: ms) ≤ m.1.length := findFirstNonCommonLetter_le
  refine ⟨hnext, hc.ne_nil, hc.length_eq, fun p hp q hq => ?_, by omega, by
    have := hc.lt_fuel; omega⟩
  rw [take_findFirstNonCommonLetter hp, take_findFirstNonCommonLetter hq]

/-- The test before a run of letters all keys share, `[charNo, first)`, put before code that is
right from `first` on, is right from `charNo` on. -/
theorem correct_test {first : Nat} (hc : Call (m :: ms) len charNo fuel) (hfirst : charNo < first)
    (hle : first ≤ len) (htake : ∀ p ∈ m :: ms, p.1.take first = m.1.take first)
    {r : Stmt × Bool} (hr : Correct (m :: ms) len first r) :
    Correct (m :: ms) len charNo
      ((if first - charNo = 1 then Stmt.ifCharNe charNo (m.1.getD charNo 0)
        else Stmt.ifMemcmp charNo ((m.1.drop charNo).take (first - charNo))) r.1, r.2) := by
  have hm : m.1.length = len := hc.length_eq m (List.mem_cons_self _ _)
  refine ⟨fun h str => ?_, fun str hlen hstr => ?_⟩
  · rcases exec_test_cases str (first - charNo = 1) charNo (m.1.getD charNo 0)
      ((m.1.drop charNo).take (first - charNo)) r.1 with h' | h' <;> rw [h']
    · simp
    · exact hr.1 h str
  have hsplit : ∀ l : List (BitVec 8), l.take first = l.take charNo ++ (l.drop charNo).take (first - charNo) :=
    fun l => by rw [← List.take_add, Nat.add_sub_cancel' hfirst.le]
  have hiff : (str.drop charNo).take (first - charNo) = (m.1.drop charNo).take (first - charNo) ↔
      str.take first = m.1.take first := by
    rw [hsplit, hsplit, hstr m (List.mem_cons_self _ _), List.append_cancel_left_eq]
  rw [exec_test (by omega) (by omega) (by omega)]
  split_ifs with h
  · exact hr.2 str hlen fun p hp => by rw [htake p hp, hiff.mp h]
  · show none = _
    rw [eq_comm, Option.map_eq_none', List.find?_eq_none]
    intro p hp hps
    rw [decide_eq_true_eq] at hps
    exact h (hiff.mpr (hps ▸ htake p hp))

/-- The calls on the buckets by the letter at `CharNo` are again of `Call`. -/
theorem call_matchesByLetter {pairs : List StringPair} (hc : Call pairs len charNo (fuel + 1))
    (hlt : charNo < len) {b : BitVec 8 × List StringPair} (hb : b ∈ matchesByLetter pairs charNo) :
    Call b.2 len (charNo + 1) fuel := by
  obtain ⟨hb2, hne⟩ := mem_buckets strictTotal_slt hb
  have hmem : ∀ p ∈ b.2, p ∈ pairs ∧ p.1.getD charNo 0 = b.1 := fun p hp => by
    rw [hb2, List.mem_filter, decide_eq_true_eq] at hp
    exact hp
  refine ⟨hne, fun p hp => hc.length_eq p (hmem p hp).1, fun p hp q hq => ?_, hlt,
    by have := hc.lt_fuel; omega⟩
  rw [take_succ_getD (by rw [hc.length_eq p (hmem p hp).1]; omega),
    take_succ_getD (by rw [hc.length_eq q (hmem q hq).1]; omega),
    hc.take_eq p (hmem p hp).1 q (hmem q hq).1, (hmem p hp).2, (hmem q hq).2]

end Cases

/-- `Emit`'s calls, on the buckets by length, are of `Call`. -/
theorem call_matchesByLength {pairs : List StringPair} {b : Nat × List StringPair}
    (hb : b ∈ matchesByLength pairs) : Call b.2 b.1 0 (b.1 + 1) := by
  obtain ⟨hb2, hne⟩ := mem_buckets strictTotal_lt hb
  refine ⟨hne, fun p hp => ?_, by simp, Nat.zero_le _, by omega⟩
  rw [hb2, List.mem_filter, decide_eq_true_eq] at hp
  exact hp.2

/-- A bucket's keys are among the pairs' keys: distinct where those are. -/
theorem nodup_of_mem_buckets {κ : Type} [DecidableEq κ] {lt : κ → κ → Bool}
    (hlt : StrictTotal lt) {key : StringPair → κ} {pairs : List StringPair}
    {b : κ × List StringPair} (hb : b ∈ buckets lt key pairs) {ignoreDuplicates : Bool}
    (hd : ignoreDuplicates = true ∨ (pairs.map Prod.fst).Nodup) :
    ignoreDuplicates = true ∨ (b.2.map Prod.fst).Nodup := by
  rw [(mem_buckets hlt hb).1]
  exact hd.imp_right fun h => h.sublist ((List.filter_sublist _).map _)

/-- **A `switch` over buckets.** Take the buckets of the pairs by `key`, and cases labelled with
the buckets' keys, one per bucket at least, each reaching on `Str` what looking `Str` up in its
bucket reaches when `Str`'s key `k` is the bucket's, and none completing where it would fall
through. The `switch` on `Str`'s key reaches what looking `Str` up among all pairs reaches. -/
theorem code?_execCases_buckets {κ : Type} [DecidableEq κ] {lt : κ → κ → Bool}
    (hlt : StrictTotal lt) {key : StringPair → κ} (label : κ → Nat)
    (hlabel : Function.Injective label) {pairs : List StringPair} {str : List (BitVec 8)} {k : κ}
    (hk : ∀ p ∈ pairs, p.1 = str → key p = k) {cases : List (Nat × Stmt × Bool)}
    (hsound : ∀ c ∈ cases, ∃ b ∈ buckets lt key pairs, c.1 = label b.1 ∧
      (c.2.2 = false → exec str c.2.1 ≠ .normal) ∧
      (b.1 = k → (exec str c.2.1).code? = (b.2.find? fun p => p.1 = str).map Prod.snd))
    (hcomplete : ∀ b ∈ buckets lt key pairs, ∃ c ∈ cases, c.1 = label b.1) :
    (execCases str (label k) cases false).code? = (pairs.find? fun p => p.1 = str).map Prod.snd := by
  refine code?_execCases (fun c hc => ?_) fun hnone => ?_
  · obtain ⟨b, hb, hl, hn, hcode⟩ := hsound c hc
    refine ⟨hn, fun hv => ?_⟩
    have hbk : b.1 = k := hlabel (hl.symm.trans hv)
    rw [hcode hbk, (mem_buckets hlt hb).1, hbk,
      find?_filter_of_imp fun p hp h => hk p hp (by simpa using h)]
  · rw [Option.map_eq_none', List.find?_eq_none]
    intro p hp hps
    obtain ⟨b, hb, hbk⟩ := exists_mem_buckets hlt key hp
    obtain ⟨c, hc, hcl⟩ := hcomplete b hb
    exact hnone c hc (by rw [hcl, hbk, hk p hp (by simpa using hps)])

/-- The cases `mapM` builds from buckets, each with its label and the code written for its
pairs: where every call succeeds and is right, so is `mapM`, with one case per bucket. -/
theorem mapM_emitStringMatcherForChar {κ : Type} (ignoreDuplicates : Bool) (label fuel len : κ → Nat)
    (charNo : Nat) (bs : List (κ × List StringPair))
    (h : ∀ b ∈ bs, ∃ r, emitStringMatcherForChar ignoreDuplicates (fuel b.1) b.2 charNo = .ok r ∧
      Correct b.2 (len b.1) charNo r) :
    ∃ cs, bs.mapM (fun b => do
        let r ← emitStringMatcherForChar ignoreDuplicates (fuel b.1) b.2 charNo
        pure (label b.1, r.1, r.2)) = .ok cs ∧
      (∀ c ∈ cs, ∃ b ∈ bs, c.1 = label b.1 ∧ Correct b.2 (len b.1) charNo c.2) ∧
      ∀ b ∈ bs, ∃ c ∈ cs, c.1 = label b.1 := by
  refine (mapM_ok_of_forall (R := fun (b : κ × List StringPair) (c : Nat × Stmt × Bool) =>
      c.1 = label b.1 ∧ Correct b.2 (len b.1) charNo c.2)
    fun b hb => ?_).imp fun cs ⟨hcs, hsound, hcomplete⟩ =>
      ⟨hcs, hsound, fun b hb => (hcomplete b hb).imp fun c hc => ⟨hc.1, hc.2.1⟩⟩
  obtain ⟨r, hr, hc⟩ := h b hb
  exact ⟨_, by rw [hr]; rfl, rfl, hc⟩

/-- **`EmitStringMatcherForChar` is correct.** On a `Call`, with distinct keys or
`IgnoreDuplicates` set, it writes code and a flag that are `Correct`. -/
theorem emitStringMatcherForChar_correct (ignoreDuplicates : Bool) :
    ∀ {fuel : Nat} {pairs : List StringPair} {len charNo : Nat}, Call pairs len charNo fuel →
      (ignoreDuplicates = true ∨ (pairs.map Prod.fst).Nodup) →
      ∃ r, emitStringMatcherForChar ignoreDuplicates fuel pairs charNo = .ok r ∧
        Correct pairs len charNo r
  | 0, _, _, _, hc, _ => absurd hc.lt_fuel (by have := hc.le; omega)
  | _ + 1, [], _, _, hc, _ => absurd rfl hc.ne_nil
  | fuel + 1, m :: ms, len, charNo, hc, hd => by
    have hm : m.1.length = len := hc.length_eq m (List.mem_cons_self _ _)
    rw [emitStringMatcherForChar]
    by_cases hleaf : charNo = m.1.length
    · obtain rfl : charNo = len := hleaf.trans hm
      rw [if_pos hleaf, not_duplicate ignoreDuplicates hc hd]
      exact ⟨_, rfl, correct_run hc⟩
    rw [if_neg hleaf]
    have hlt : charNo < len := by have := hc.le; omega
    by_cases h1 : (matchesByLetter (m :: ms) charNo).length = 1
    · rw [if_pos h1]
      obtain ⟨hfirst, hcall⟩ := call_findFirstNonCommonLetter hc hlt h1
      obtain ⟨r, hr, hcorrect⟩ := emitStringMatcherForChar_correct ignoreDuplicates hcall hd
      refine ⟨_, by dsimp only; rw [hr]; rfl, correct_test hc hfirst hcall.le
        (fun p hp => take_findFirstNonCommonLetter hp) hcorrect⟩
    rw [if_neg h1]
    obtain ⟨cs, hcs, hsound, hcomplete⟩ := mapM_emitStringMatcherForChar ignoreDuplicates
      BitVec.toNat (fun _ => fuel) (fun _ => len) (charNo + 1) (matchesByLetter (m :: ms) charNo)
      fun b hb =>
        emitStringMatcherForChar_correct ignoreDuplicates (call_matchesByLetter hc hlt hb)
          (nodup_of_mem_buckets strictTotal_slt hb hd)
    refine ⟨(.switch (.char charNo) cs, true), by rw [hcs]; rfl, fun h => (nomatch h),
      fun str hlen hstr => ?_⟩
    refine code?_execCases_buckets strictTotal_slt BitVec.toNat
      (fun _ _ => BitVec.eq_of_toNat_eq) (k := str.getD charNo 0) (fun p _ h => by rw [h])
      (fun c hcm => (hsound c hcm).imp fun b ⟨hb, hl, hcorr⟩ => ⟨hb, hl, fun h => hcorr.1 h str,
        fun hk => hcorr.2 str hlen fun p hp => ?_⟩) hcomplete
    have ⟨hp', hpk⟩ : p ∈ m :: ms ∧ p.1.getD charNo 0 = b.1 := by
      rw [(mem_buckets strictTotal_slt hb).1, List.mem_filter, decide_eq_true_eq] at hp
      exact hp
    rw [take_succ_getD (by omega), take_succ_getD (by rw [hc.length_eq p hp']; omega), hstr p hp',
      hpk, hk]

/-- With distinct keys or `IgnoreDuplicates` set, `Emit` writes a matcher without
`PrintFatalError`, and on every string `Str` the matcher runs the code of the first pair whose key
is `Str`, and no code when no key is `Str`. -/
theorem emit_correct (ignoreDuplicates : Bool) (pairs : List StringPair)
    (hd : ignoreDuplicates = true ∨ (pairs.map Prod.fst).Nodup) :
    ∃ code, emit ignoreDuplicates pairs = .ok code ∧
      ∀ str, runMatcher str code = (pairs.find? fun p => p.1 = str).map Prod.snd := by
  rw [emit]
  by_cases h0 : pairs = []
  · subst h0
    exact ⟨none, rfl, fun _ => rfl⟩
  rw [if_neg (by simpa using h0)]
  obtain ⟨cs, hcs, hsound, hcomplete⟩ := mapM_emitStringMatcherForChar ignoreDuplicates
    (fun k => k) (fun k => k + 1) (fun k => k) 0 (matchesByLength pairs) fun b hb =>
      emitStringMatcherForChar_correct ignoreDuplicates (call_matchesByLength hb)
        (nodup_of_mem_buckets strictTotal_lt hb hd)
  refine ⟨_, by rw [hcs]; rfl, fun str => ?_⟩
  exact code?_execCases_buckets strictTotal_lt (fun k => k) (k := str.length)
    (fun _ _ => id) (fun p _ h => by rw [h]) (fun c hc => (hsound c hc).imp fun b ⟨hb, hl, hcorr⟩ =>
      ⟨hb, hl, fun h => hcorr.1 h str, fun hk => hcorr.2 str hk.symm fun p _ => by simp⟩)
    hcomplete

/-! ### Duplicate keys -/

/-- `mapM` in `Except` fails with `e` where its function fails with `e` on some element and, on
every element, succeeds or fails with `e`. -/
theorem mapM_eq_error {α γ : Type} {f : α → Except String γ} {e : String} :
    ∀ {xs : List α}, (∀ x ∈ xs, (∃ y, f x = .ok y) ∨ f x = .error e) →
      (∃ x ∈ xs, f x = .error e) → xs.mapM f = .error e
  | [], _, ⟨_, hx, _⟩ => absurd hx (List.not_mem_nil _)
  | x :: xs, h, ⟨x', hx', he⟩ => by
    rw [List.mapM_cons]
    rcases h x (List.mem_cons_self _ _) with ⟨y, hy⟩ | hy
    · have hrest : ∃ x ∈ xs, f x = .error e := by
        rcases List.mem_cons.mp hx' with rfl | hx'
        · rw [hy] at he
          cases he
        · exact ⟨x', hx', he⟩
      rw [hy, mapM_eq_error (fun x hx => h x (List.mem_cons_of_mem _ hx)) hrest]
      rfl
    · rw [hy]
      rfl

/-- Two pairs with one key fall in one bucket, when the bucket key is read off the pair's key. -/
theorem exists_mem_buckets_not_nodup {κ : Type} [DecidableEq κ] {lt : κ → κ → Bool}
    (hlt : StrictTotal lt) (key : StringPair → κ) (hkey : ∀ p q : StringPair, p.1 = q.1 → key p = key q)
    {pairs : List StringPair} (h : ¬(pairs.map Prod.fst).Nodup) :
    ∃ b ∈ buckets lt key pairs, ¬(b.2.map Prod.fst).Nodup := by
  obtain ⟨a, ha⟩ : ∃ a, [a, a].Sublist (pairs.map Prod.fst) := by
    simpa [List.nodup_iff_sublist] using h
  obtain ⟨l, hl, hla⟩ := List.sublist_map_iff.mp ha
  obtain ⟨p, q, rfl, hp, hq⟩ : ∃ p q, l = [p, q] ∧ p.1 = a ∧ q.1 = a := by
    rcases l with _ | ⟨p, _ | ⟨q, _ | _⟩⟩ <;> simp at hla
    exact ⟨p, q, rfl, hla.1.symm, hla.2.symm⟩
  obtain ⟨b, hb, hbk⟩ := exists_mem_buckets hlt key (hl.subset (List.mem_cons_self _ _))
  refine ⟨b, hb, fun hnd => List.nodup_iff_sublist.mp hnd a ?_⟩
  have hsub := (hl.filter fun r => decide (key r = b.1)).map Prod.fst
  rw [← (mem_buckets hlt hb).1] at hsub
  simpa [hbk, hkey q p (hq.trans hp.symm), hp, hq] using hsub

/-- The cases `mapM` builds from buckets fail with `e` where the call on one bucket does and the
call on every bucket succeeds or does. -/
theorem mapM_emitStringMatcherForChar_error {κ : Type} (ignoreDuplicates : Bool)
    (label fuel : κ → Nat) (charNo : Nat) (bs : List (κ × List StringPair)) {e : String}
    (h : ∀ b ∈ bs, (∃ r, emitStringMatcherForChar ignoreDuplicates (fuel b.1) b.2 charNo = .ok r) ∨
      emitStringMatcherForChar ignoreDuplicates (fuel b.1) b.2 charNo = .error e)
    (he : ∃ b ∈ bs, emitStringMatcherForChar ignoreDuplicates (fuel b.1) b.2 charNo = .error e) :
    bs.mapM (fun b => do
        let r ← emitStringMatcherForChar ignoreDuplicates (fuel b.1) b.2 charNo
        pure (label b.1, r.1, r.2)) = .error e := by
  refine mapM_eq_error (fun b hb => ?_) (he.imp fun b ⟨hb, hbe⟩ => ⟨hb, by rw [hbe]; rfl⟩)
  rcases h b hb with ⟨r, hr⟩ | hr
  · exact .inl ⟨_, by rw [hr]; rfl⟩
  · exact .inr (by rw [hr]; rfl)

/-- **Duplicate keys are reported.** On a `Call` whose keys are not distinct, without
`IgnoreDuplicates`, `EmitStringMatcherForChar` fails with `"Had duplicate keys to match on"`. -/
theorem emitStringMatcherForChar_duplicate :
    ∀ {fuel : Nat} {pairs : List StringPair} {len charNo : Nat}, Call pairs len charNo fuel →
      ¬(pairs.map Prod.fst).Nodup →
      emitStringMatcherForChar false fuel pairs charNo = .error duplicateKeys
  | 0, _, _, _, hc, _ => absurd hc.lt_fuel (by have := hc.le; omega)
  | _ + 1, [], _, _, _, hd => absurd List.nodup_nil hd
  | fuel + 1, m :: ms, len, charNo, hc, hd => by
    have hm : m.1.length = len := hc.length_eq m (List.mem_cons_self _ _)
    rw [emitStringMatcherForChar]
    by_cases hleaf : charNo = m.1.length
    · have h2 : ms ≠ [] := by
        rintro rfl
        simp at hd
      simp [hleaf, h2]
    rw [if_neg hleaf]
    have hlt : charNo < len := by have := hc.le; omega
    by_cases h1 : (matchesByLetter (m :: ms) charNo).length = 1
    · rw [if_pos h1]
      dsimp only
      rw [emitStringMatcherForChar_duplicate (call_findFirstNonCommonLetter hc hlt h1).2 hd]
      rfl
    obtain ⟨b, hb, hb'⟩ := exists_mem_buckets_not_nodup strictTotal_slt
      (fun p => p.1.getD charNo 0) (fun p q h => congrArg (·.getD charNo 0) h) hd
    rw [if_neg h1, mapM_emitStringMatcherForChar_error false BitVec.toNat (fun _ => fuel)
      (charNo + 1) _ (fun b hb => (em (b.2.map Prod.fst).Nodup).imp
        (fun hb' => (emitStringMatcherForChar_correct false (call_matchesByLetter hc hlt hb)
          (.inr hb')).imp fun _ h => h.1)
        (emitStringMatcherForChar_duplicate (call_matchesByLetter hc hlt hb)))
      ⟨b, hb, emitStringMatcherForChar_duplicate (call_matchesByLetter hc hlt hb) hb'⟩]
    rfl

/-- Without `IgnoreDuplicates`, `Emit` reports duplicate keys with `PrintFatalError`. -/
theorem emit_duplicate {pairs : List StringPair} (hd : ¬(pairs.map Prod.fst).Nodup) :
    emit false pairs = .error duplicateKeys := by
  have h0 : pairs.isEmpty = false := by
    rcases pairs with _ | _
    · simp at hd
    · rfl
  obtain ⟨b, hb, hb'⟩ := exists_mem_buckets_not_nodup strictTotal_lt (fun p => p.1.length)
    (fun p q h => congrArg List.length h) hd
  rw [emit, if_neg (by simp [h0]), mapM_emitStringMatcherForChar_error false (fun k => k)
    (fun k => k + 1) 0 _ (fun b hb => (em (b.2.map Prod.fst).Nodup).imp
      (fun hb' => (emitStringMatcherForChar_correct false (call_matchesByLength hb)
        (.inr hb')).imp fun _ h => h.1)
      (emitStringMatcherForChar_duplicate (call_matchesByLength hb)))
    ⟨b, hb, emitStringMatcherForChar_duplicate (call_matchesByLength hb) hb'⟩]
  rfl

/-- **`StringMatcher` matches exactly its keys.** `Emit` writes a matcher, with no
`PrintFatalError`, exactly when the keys are distinct or `IgnoreDuplicates` is set; otherwise it
reports `"Had duplicate keys to match on"`. The matcher it writes runs, on every string `Str`, the
code of the first pair whose key is `Str`, and no code when no key is `Str`. -/
theorem emit_runMatcher (ignoreDuplicates : Bool) (pairs : List StringPair) :
    (ignoreDuplicates = true ∨ (pairs.map Prod.fst).Nodup →
      ∃ code, emit ignoreDuplicates pairs = .ok code ∧
        ∀ str, runMatcher str code = (pairs.find? fun p => p.1 = str).map Prod.snd) ∧
    (¬(ignoreDuplicates = true ∨ (pairs.map Prod.fst).Nodup) →
      emit ignoreDuplicates pairs = .error duplicateKeys) := by
  refine ⟨emit_correct ignoreDuplicates pairs, fun h => ?_⟩
  rw [not_or, Bool.not_eq_true] at h
  rw [h.1]
  exact emit_duplicate h.2

/-- The keys `"ab"`, `"ac"` and `"b"`: the matcher runs the code of each on its key. -/
theorem emit_runMatcher_three :
    ∃ code, emit false [([0x61, 0x62], "A"), ([0x61, 0x63], "B"), ([0x62], "C")] = .ok code ∧
      ∀ str, runMatcher str code =
        (([([0x61, 0x62], "A"), ([0x61, 0x63], "B"), ([0x62], "C")] : List StringPair).find?
          fun p => p.1 = str).map Prod.snd :=
  (emit_runMatcher false _).1 (.inr (by decide))

end Keystone.TableGen.StringMatcher
