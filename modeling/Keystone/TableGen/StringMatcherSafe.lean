import Keystone.TableGen.StringMatcherCorrect

/-!
# The code `StringMatcher` writes reads only inside `Str`

The written matcher reads `Str[CharNo]`, in an `if` or in a `switch` on a character, and the
`NumChars` bytes from `Str.data()+CharNo` in a `memcmp`. `StringRef::operator[]` asserts
`Index < Length`; a read past the end is undefined. Nothing in the written code checks the
bounds: it relies on the `switch` on `Str.size()` that encloses it.

## Design

`exec` reads `Str` with a default (`getD`), which would hide a read past the end. `execChecked`
runs the same code and fails on such a read. The emitted code is shown to satisfy `Safe`: on
every string of its keys' length the checked run is the run, and a body whose flag says no
`break;` follows never completes, so the `switch` on the size never falls through into the body
of another length.

## Main definitions

* `Keystone.TableGen.StringMatcher.execChecked` — the run, failing on a read outside `Str`.
* `Keystone.TableGen.StringMatcher.Stmt.LabelsNodup` — no `switch` has two cases with one label.

## Main results

* `Keystone.TableGen.StringMatcher.emit_reads_in_bounds` — on every string, the matcher `Emit`
  writes reads only inside it.
* `Keystone.TableGen.StringMatcher.emit_labelsNodup` — every `switch` it writes has distinct
  case labels, as C++ requires.
-/

namespace Keystone.TableGen.StringMatcher

/-- Whether the value a `switch` compares can be read: `Str.size()` always, `Str[CharNo]` when
`CharNo < Str.size()`. -/
def Subject.inBounds (str : List (BitVec 8)) : Subject → Bool
  | .size => true
  | .char charNo => decide (charNo < str.length)

mutual

/-- `exec` that fails (`none`) on a read outside `Str`: `Str[CharNo]` with
`CharNo ≥ Str.size()`, or a `memcmp` of `n` bytes from `CharNo` past `Str.size()`. -/
def execChecked (str : List (BitVec 8)) : Stmt → Option Res
  | .run code => some (.ran code)
  | .ifCharNe charNo c next =>
    if charNo < str.length then
      if str.getD charNo 0 ≠ c then some .brk else execChecked str next
    else none
  | .ifMemcmp charNo s next =>
    if charNo + s.length ≤ str.length then
      if (str.drop charNo).take s.length ≠ s then some .brk else execChecked str next
    else none
  | .switch subject cases =>
    if subject.inBounds str then execCasesChecked str (subject.value str) cases false else none

/-- `execCases` that fails on a read outside `Str` in a body it runs. -/
def execCasesChecked (str : List (BitVec 8)) (v : Nat) :
    List (Nat × Stmt × Bool) → Bool → Option Res
  | [], _ => some .normal
  | (label, body, brk) :: rest, entered =>
    if entered || label = v then
      match execChecked str body with
      | none => none
      | some (.ran code) => some (.ran code)
      | some .brk => some .normal
      | some .normal => if brk then some .normal else execCasesChecked str v rest true
    else execCasesChecked str v rest false

end

mutual

/-- Every `switch` in the statement has distinct case labels. -/
def Stmt.LabelsNodup : Stmt → Prop
  | .run _ => True
  | .ifCharNe _ _ next => next.LabelsNodup
  | .ifMemcmp _ _ next => next.LabelsNodup
  | .switch _ cases => (cases.map Prod.fst).Nodup ∧ casesLabelsNodup cases

/-- Every case body has distinct labels in its `switch`es. -/
def casesLabelsNodup : List (Nat × Stmt × Bool) → Prop
  | [] => True
  | (_, body, _) :: rest => body.LabelsNodup ∧ casesLabelsNodup rest

end

theorem casesLabelsNodup_iff :
    ∀ {cases : List (Nat × Stmt × Bool)}, casesLabelsNodup cases ↔ ∀ c ∈ cases, c.2.1.LabelsNodup
  | [] => by simp [casesLabelsNodup]
  | (_, _, _) :: _ => by simp [casesLabelsNodup, casesLabelsNodup_iff]

/-! ### `mapM` and the cases it builds -/

/-- A `mapM` in `Except` that succeeds relates each element to its result. -/
theorem forall₂_of_mapM_ok {α γ ε : Type} {f : α → Except ε γ} :
    ∀ {xs : List α} {ys : List γ}, xs.mapM f = .ok ys → List.Forall₂ (fun x y => f x = .ok y) xs ys
  | [], ys, h => by
    rw [List.mapM_nil] at h
    cases h
    exact .nil
  | x :: xs, ys, h => by
    rw [List.mapM_cons] at h
    cases hx : f x with
    | error e => rw [hx] at h; cases h
    | ok y =>
      cases hxs : xs.mapM f with
      | error e => rw [hx, hxs] at h; cases h
      | ok ys' =>
        rw [hx, hxs] at h
        cases h
        exact .cons hx (forall₂_of_mapM_ok hxs)

/-- Each result of a related pair of lists comes from an element. -/
theorem exists_mem_of_forall₂ {α γ : Type} {R : α → γ → Prop} :
    ∀ {xs : List α} {ys : List γ}, List.Forall₂ R xs ys → ∀ {y}, y ∈ ys → ∃ x ∈ xs, R x y
  | _, _, .nil, _, hy => absurd hy (List.not_mem_nil _)
  | _, _, .cons hxy h, _, hy => by
    rcases List.mem_cons.mp hy with rfl | hy
    · exact ⟨_, List.mem_cons_self _ _, hxy⟩
    · obtain ⟨x, hx, hR⟩ := exists_mem_of_forall₂ h hy
      exact ⟨x, List.mem_cons_of_mem _ hx, hR⟩

/-- A view `g` of the results that the relation fixes as `h` of the elements. -/
theorem map_eq_of_forall₂ {α γ δ : Type} {R : α → γ → Prop} {g : γ → δ} {h : α → δ}
    (hgh : ∀ x y, R x y → g y = h x) :
    ∀ {xs : List α} {ys : List γ}, List.Forall₂ R xs ys → ys.map g = xs.map h
  | _, _, .nil => rfl
  | _, _, .cons hxy hr => by
    rw [List.map_cons, List.map_cons, hgh _ _ hxy, map_eq_of_forall₂ hgh hr]

/-- A case built from a bucket: the call on the bucket succeeded, and the case is its result
under the bucket's label. -/
theorem eq_of_bind_ok {ε β : Type} {x : Except ε (Stmt × Bool)} {g : Stmt × Bool → β} {c : β}
    (h : (x >>= fun r => pure (g r)) = .ok c) : ∃ r, x = .ok r ∧ c = g r := by
  cases x with
  | error e => cases h
  | ok r =>
    cases h
    exact ⟨r, rfl, rfl⟩

/-! ### Checked runs -/

section Checked

variable {str : List (BitVec 8)}

/-- A `switch` whose bodies all read inside `Str` reads inside `Str`, fall-through or not. -/
theorem execCasesChecked_of_forall {v : Nat} :
    ∀ {cases : List (Nat × Stmt × Bool)} {entered : Bool},
      (∀ c ∈ cases, execChecked str c.2.1 = some (exec str c.2.1)) →
      execCasesChecked str v cases entered = some (execCases str v cases entered)
  | [], _, _ => rfl
  | (label, body, brk) :: rest, entered, h => by
    simp only [List.mem_cons, forall_eq_or_imp] at h
    rw [execCasesChecked, execCases]
    by_cases he : (entered || label = v) = true
    · rw [if_pos he, if_pos he, h.1]
      cases exec str body with
      | ran code => rfl
      | brk => rfl
      | normal =>
        cases brk
        · exact execCasesChecked_of_forall h.2
        · rfl
    · rw [if_neg he, if_neg he]
      exact execCasesChecked_of_forall h.2

/-- **The `switch` on `Str.size()`.** When the body of each length reads inside every string of
that length, and a body with no `break;` after it never completes, the `switch` reads inside
`Str`: it runs only the body of `Str`'s length and never falls through into another. -/
theorem execCasesChecked_size :
    ∀ {cases : List (Nat × Stmt × Bool)},
      (∀ c ∈ cases, (c.1 = str.length → execChecked str c.2.1 = some (exec str c.2.1)) ∧
        (c.2.2 = false → exec str c.2.1 ≠ .normal)) →
      execCasesChecked str str.length cases false = some (execCases str str.length cases false)
  | [], _ => rfl
  | (label, body, brk) :: rest, h => by
    simp only [List.mem_cons, forall_eq_or_imp] at h
    rw [execCasesChecked, execCases, Bool.false_or]
    by_cases hl : label = str.length
    · rw [if_pos (decide_eq_true hl), if_pos (decide_eq_true hl), h.1.1 hl]
      cases hb : exec str body with
      | ran code => rfl
      | brk => rfl
      | normal =>
        cases brk
        · exact absurd hb (h.1.2 rfl)
        · rfl
    · rw [if_neg (by simpa using hl), if_neg (by simpa using hl)]
      exact execCasesChecked_size h.2

end Checked

/-! ### The code written for a call -/

/-- What the code written for a call on keys of length `len` guarantees: on every string of
that length the checked run is the run, and where the flag is `false` no run completes. -/
def Safe (len : Nat) (r : Stmt × Bool) : Prop :=
  (∀ str : List (BitVec 8), str.length = len → execChecked str r.1 = some (exec str r.1)) ∧
    (r.2 = false → ∀ str, exec str r.1 ≠ .normal)

/-- The test before a run of common letters reads inside every string of the keys' length. -/
theorem safe_test {m : StringPair} {len charNo first : Nat} (hm : m.1.length = len)
    (hlt : charNo < len) {r : Stmt × Bool} (hr : Safe len r) :
    Safe len ((if first - charNo = 1 then Stmt.ifCharNe charNo (m.1.getD charNo 0)
      else Stmt.ifMemcmp charNo ((m.1.drop charNo).take (first - charNo))) r.1, r.2) := by
  refine ⟨fun str hlen => ?_, fun h str => ?_⟩
  · have hs : charNo + ((m.1.drop charNo).take (first - charNo)).length ≤ str.length := by
      simp only [List.length_take, List.length_drop]
      omega
    split_ifs
    · rw [execChecked, if_pos (hlen ▸ hlt), exec, hr.1 str hlen]
      exact (apply_ite some _ _ _).symm
    · rw [execChecked, if_pos hs, exec, hr.1 str hlen]
      exact (apply_ite some _ _ _).symm
  · rcases exec_test_cases str (first - charNo = 1) charNo (m.1.getD charNo 0)
      ((m.1.drop charNo).take (first - charNo)) r.1 with h' | h' <;> rw [h']
    · simp
    · exact hr.2 h str

/-- **The code written for a call reads only inside `Str`.** On a `Call` on keys of length
`len`, whatever `EmitStringMatcherForChar` writes is `Safe` for `len`. -/
theorem emitStringMatcherForChar_safe (ignoreDuplicates : Bool) :
    ∀ {fuel : Nat} {pairs : List StringPair} {len charNo : Nat} {r : Stmt × Bool},
      Call pairs len charNo fuel →
      emitStringMatcherForChar ignoreDuplicates fuel pairs charNo = .ok r → Safe len r
  | 0, _, _, _, _, _, h => by cases h
  | _ + 1, [], _, _, _, _, h => by cases h
  | fuel + 1, m :: ms, len, charNo, r, hc, h => by
    have hm : m.1.length = len := hc.length_eq m (List.mem_cons_self _ _)
    rw [emitStringMatcherForChar] at h
    by_cases hleaf : charNo = m.1.length
    · rw [if_pos hleaf] at h
      split_ifs at h
      cases h
      exact ⟨fun _ _ => rfl, fun _ _ => by simp [exec]⟩
    rw [if_neg hleaf] at h
    have hlt : charNo < len := by have := hc.le; omega
    by_cases h1 : (matchesByLetter (m :: ms) charNo).length = 1
    · rw [if_pos h1] at h
      dsimp only at h
      obtain ⟨-, hcall⟩ := call_findFirstNonCommonLetter hc hlt h1
      cases hr : emitStringMatcherForChar ignoreDuplicates fuel (m :: ms)
          (findFirstNonCommonLetter (m :: ms)) with
      | error e => rw [hr] at h; cases h
      | ok r' =>
        rw [hr] at h
        cases h
        exact safe_test hm hlt (emitStringMatcherForChar_safe ignoreDuplicates hcall hr)
    rw [if_neg h1] at h
    cases hcs : (matchesByLetter (m :: ms) charNo).mapM fun b => do
        let r ← emitStringMatcherForChar ignoreDuplicates fuel b.2 (charNo + 1)
        pure (b.1.toNat, r.1, r.2) with
    | error e => rw [hcs] at h; cases h
    | ok cs =>
      rw [hcs] at h
      cases h
      refine ⟨fun str hlen => ?_, fun h => (nomatch h)⟩
      rw [execChecked, Subject.inBounds, if_pos (by simpa [hlen] using hlt), exec]
      refine execCasesChecked_of_forall fun c hc' => ?_
      obtain ⟨b, hb, hbc⟩ := exists_mem_of_forall₂ (forall₂_of_mapM_ok hcs) hc'
      obtain ⟨r', hr', rfl⟩ := eq_of_bind_ok hbc
      exact (emitStringMatcherForChar_safe ignoreDuplicates (call_matchesByLetter hc hlt hb)
        hr').1 str hlen

/-! ### Case labels -/

/-- The keys of a map in strictly increasing order are distinct. -/
theorem nodup_keys {κ β : Type} {lt : κ → κ → Bool} (hlt : StrictTotal lt)
    {m : List (κ × List β)} (hs : Sorted lt m) : (m.map Prod.fst).Nodup :=
  List.pairwise_map.mpr (List.Pairwise.imp hlt.ne hs)

/-- The cases `mapM` builds from buckets carry the buckets' keys as labels, and the code the
calls wrote as bodies. -/
theorem cases_of_mapM_ok {β : Type} {label : β → Nat} {f : β → Except String (Stmt × Bool)}
    {bs : List β} {cs : List (Nat × Stmt × Bool)}
    (h : bs.mapM (fun b => do let r ← f b; pure (label b, r.1, r.2)) = .ok cs) :
    cs.map Prod.fst = bs.map label ∧
      ∀ c ∈ cs, ∃ b ∈ bs, c.1 = label b ∧ f b = .ok (c.2.1, c.2.2) := by
  have h2 := forall₂_of_mapM_ok h
  refine ⟨map_eq_of_forall₂ (fun b c hbc => ?_) h2, fun c hc => ?_⟩
  · obtain ⟨r, -, rfl⟩ := eq_of_bind_ok hbc
    rfl
  · obtain ⟨b, hb, hbc⟩ := exists_mem_of_forall₂ h2 hc
    obtain ⟨r, hr, rfl⟩ := eq_of_bind_ok hbc
    exact ⟨b, hb, rfl, hr⟩

/-- Every `switch` in the code `EmitStringMatcherForChar` writes has distinct case labels: the
letters of `MatchesByLetter`, each once. -/
theorem emitStringMatcherForChar_labelsNodup (ignoreDuplicates : Bool) :
    ∀ {fuel : Nat} {pairs : List StringPair} {charNo : Nat} {r : Stmt × Bool},
      emitStringMatcherForChar ignoreDuplicates fuel pairs charNo = .ok r → r.1.LabelsNodup
  | 0, _, _, _, h => by cases h
  | _ + 1, [], _, _, h => by cases h
  | fuel + 1, m :: ms, charNo, r, h => by
    rw [emitStringMatcherForChar] at h
    by_cases hleaf : charNo = m.1.length
    · rw [if_pos hleaf] at h
      split_ifs at h
      cases h
      exact trivial
    rw [if_neg hleaf] at h
    by_cases h1 : (matchesByLetter (m :: ms) charNo).length = 1
    · rw [if_pos h1] at h
      dsimp only at h
      cases hr : emitStringMatcherForChar ignoreDuplicates fuel (m :: ms)
          (findFirstNonCommonLetter (m :: ms)) with
      | error e => rw [hr] at h; cases h
      | ok r' =>
        rw [hr] at h
        cases h
        have := emitStringMatcherForChar_labelsNodup ignoreDuplicates hr
        split_ifs <;> exact this
    rw [if_neg h1] at h
    cases hcs : (matchesByLetter (m :: ms) charNo).mapM fun b => do
        let r ← emitStringMatcherForChar ignoreDuplicates fuel b.2 (charNo + 1)
        pure (b.1.toNat, r.1, r.2) with
    | error e => rw [hcs] at h; cases h
    | ok cs =>
      rw [hcs] at h
      cases h
      obtain ⟨hl, hcases⟩ := cases_of_mapM_ok hcs
      refine ⟨?_, casesLabelsNodup_iff.mpr fun c hc => ?_⟩
      · rw [hl, show (fun b : BitVec 8 × List StringPair => b.1.toNat) = BitVec.toNat ∘ Prod.fst
          from rfl, ← List.map_map]
        exact (nodup_keys strictTotal_slt (buckets_spec strictTotal_slt _ _).1).map
          BitVec.toNat_injective
      · obtain ⟨b, -, -, hb⟩ := hcases c hc
        exact emitStringMatcherForChar_labelsNodup ignoreDuplicates hb

/-! ### `Emit` -/

/-- **The matcher `Emit` writes reads only inside `Str`.** Whatever matcher `Emit` writes, on
every string `Str` the run that fails on a read outside `Str` does not fail, and is the run: each
`Str[CharNo]` and `memcmp` it executes lies inside `Str`, under the `switch` on `Str.size()`. -/
theorem emit_reads_in_bounds (ignoreDuplicates : Bool) (pairs : List StringPair) (code : Stmt)
    (h : emit ignoreDuplicates pairs = .ok (some code)) (str : List (BitVec 8)) :
    execChecked str code = some (exec str code) := by
  rw [emit] at h
  by_cases he : pairs.isEmpty
  · rw [if_pos he] at h
    cases h
  rw [if_neg he] at h
  cases hcs : (matchesByLength pairs).mapM fun b => do
      let r ← emitStringMatcherForChar ignoreDuplicates (b.1 + 1) b.2 0
      pure (b.1, r.1, r.2) with
  | error e => rw [hcs] at h; cases h
  | ok cs =>
    rw [hcs] at h
    cases h
    rw [execChecked, Subject.inBounds, if_pos rfl, exec, Subject.value]
    refine execCasesChecked_size fun c hc => ?_
    obtain ⟨b, hb, hl, hr⟩ := (cases_of_mapM_ok hcs).2 c hc
    have hsafe := emitStringMatcherForChar_safe ignoreDuplicates (call_matchesByLength hb) hr
    exact ⟨fun hlen => hsafe.1 str (hlen.symm.trans hl), fun hb => hsafe.2 hb str⟩

/-- **Every `switch` in the matcher `Emit` writes has distinct case labels**, as C++ requires:
the key lengths of `MatchesByLength` in the `switch` on `Str.size()`, the letters of
`MatchesByLetter` in each `switch` on a character. -/
theorem emit_labelsNodup (ignoreDuplicates : Bool) (pairs : List StringPair) (code : Stmt)
    (h : emit ignoreDuplicates pairs = .ok (some code)) : code.LabelsNodup := by
  rw [emit] at h
  by_cases he : pairs.isEmpty
  · rw [if_pos he] at h
    cases h
  rw [if_neg he] at h
  cases hcs : (matchesByLength pairs).mapM fun b => do
      let r ← emitStringMatcherForChar ignoreDuplicates (b.1 + 1) b.2 0
      pure (b.1, r.1, r.2) with
  | error e => rw [hcs] at h; cases h
  | ok cs =>
    rw [hcs] at h
    cases h
    obtain ⟨hl, hcases⟩ := cases_of_mapM_ok hcs
    refine ⟨?_, casesLabelsNodup_iff.mpr fun c hc => ?_⟩
    · rw [hl]
      exact nodup_keys strictTotal_lt (buckets_spec strictTotal_lt _ _).1
    · obtain ⟨b, -, -, hb⟩ := hcases c hc
      exact emitStringMatcherForChar_labelsNodup ignoreDuplicates hb

/-- Two keys of different lengths, and a string of the second's length. -/
theorem emit_reads_in_bounds_two :
    emit false [([0x61], "a"), ([0x62, 0x63], "bc")] =
      .ok (some (.switch .size [(1, .ifCharNe 0 0x61 (.run "a"), false),
        (2, .ifMemcmp 0 [0x62, 0x63] (.run "bc"), false)])) ∧
    execChecked [0x62, 0x63] (.switch .size [(1, .ifCharNe 0 0x61 (.run "a"), false),
        (2, .ifMemcmp 0 [0x62, 0x63] (.run "bc"), false)]) =
      some (exec [0x62, 0x63] (.switch .size [(1, .ifCharNe 0 0x61 (.run "a"), false),
        (2, .ifMemcmp 0 [0x62, 0x63] (.run "bc"), false)])) :=
  ⟨rfl, emit_reads_in_bounds false [([0x61], "a"), ([0x62, 0x63], "bc")] _ rfl [0x62, 0x63]⟩

/-- Two keys with one letter in common: the `switch` on the second letter has the labels `b`
and `c`. -/
theorem emit_labelsNodup_two :
    emit false [([0x61, 0x62], "ab"), ([0x61, 0x63], "ac")] =
      .ok (some (.switch .size [(2, .ifCharNe 0 0x61 (.switch (.char 1)
        [(0x62, .run "ab", false), (0x63, .run "ac", false)]), true)])) ∧
    Stmt.LabelsNodup (.switch .size [(2, .ifCharNe 0 0x61 (.switch (.char 1)
        [(0x62, .run "ab", false), (0x63, .run "ac", false)]), true)]) :=
  ⟨rfl, emit_labelsNodup false [([0x61, 0x62], "ab"), ([0x61, 0x63], "ac")] _ rfl⟩

end Keystone.TableGen.StringMatcher
