import Keystone.TableGen.StringMatcherCorrect

/-!
# The recursion of `StringMatcher` terminates

`EmitStringMatcherForChar(Matches, CharNo)` calls itself in two places: where all keys have one
letter at `CharNo`, on the same `Matches` at `FindFirstNonCommonLetter(Matches)`; otherwise on
each bucket of `MatchesByLetter` at `CharNo + 1`. `FindFirstNonCommonLetter` scans from position
`0`, not from `CharNo`, so the first call moves forward only because the keys already agree
before `CharNo`.

## Main definitions

* `Keystone.TableGen.StringMatcher.CallStep` — one call making another.
* `Keystone.TableGen.StringMatcher.Reached` — the calls reached from `Emit`.

## Main results

* `Keystone.TableGen.StringMatcher.call_callStep` — a call that satisfies `Call` makes only calls
  that satisfy it, with the same key length `L` and a smaller `L - CharNo`.
* `Keystone.TableGen.StringMatcher.call_of_reached` — every reached call satisfies `Call`.
* `Keystone.TableGen.StringMatcher.emitStringMatcherForChar_congr` — the function's recursive
  calls are `CallStep`s: its result depends on the calls only at the `CallStep` successors.
* `Keystone.TableGen.StringMatcher.reached_terminates` — the invariant, `CharNo` strictly below
  `FindFirstNonCommonLetter` in the single-bucket branch, no infinite chain of calls, and `Emit`
  finishing within its fuel, for every list of pairs.
-/

namespace Keystone.TableGen.StringMatcher

/-- One call `EmitStringMatcherForChar(Matches, CharNo)` making another, as the source's two
recursive calls do; neither is made when `CharNo` is the length of the first key. -/
inductive CallStep : List StringPair × Nat → List StringPair × Nat → Prop
  /-- All keys have one letter at `CharNo`: the call on `Matches` at the first position where
  they differ. -/
  | first {m : StringPair} {ms : List StringPair} {charNo : Nat} (hlen : charNo ≠ m.1.length)
      (h1 : (matchesByLetter (m :: ms) charNo).length = 1) :
      CallStep (m :: ms, charNo) (m :: ms, findFirstNonCommonLetter (m :: ms))
  /-- Otherwise: the call on a bucket of the letter at `CharNo`, at `CharNo + 1`. -/
  | letter {m : StringPair} {ms : List StringPair} {charNo : Nat}
      {b : BitVec 8 × List StringPair} (hlen : charNo ≠ m.1.length)
      (h1 : (matchesByLetter (m :: ms) charNo).length ≠ 1)
      (hb : b ∈ matchesByLetter (m :: ms) charNo) :
      CallStep (m :: ms, charNo) (b.2, charNo + 1)

/-- The calls of `EmitStringMatcherForChar` reached from `Emit(pairs)`: those `Emit` makes on the
buckets by length, at `CharNo = 0`, and those they make. -/
inductive Reached (pairs : List StringPair) : List StringPair × Nat → Prop
  | emit {b : Nat × List StringPair} (hb : b ∈ matchesByLength pairs) : Reached pairs (b.2, 0)
  | step {c c' : List StringPair × Nat} (hc : Reached pairs c) (hs : CallStep c c') :
      Reached pairs c'

/-- `Call` with the fuel `len - charNo + 1` that the letters left need. -/
theorem Call.refuel {pairs : List StringPair} {len charNo fuel : Nat}
    (hc : Call pairs len charNo fuel) : Call pairs len charNo (len - charNo + 1) :=
  { hc with lt_fuel := by have := hc.le; omega }

/-- A call that makes another is not at the end of its keys. -/
theorem Call.lt_of_ne {m : StringPair} {ms : List StringPair} {len charNo fuel : Nat}
    (hc : Call (m :: ms) len charNo fuel) (hlen : charNo ≠ m.1.length) : charNo < len :=
  lt_of_le_of_ne hc.le (hc.length_eq m (List.mem_cons_self _ _) ▸ hlen)

/-- **Step lemma.** A call that satisfies `Call` makes only calls that satisfy it, with the same
key length, and `len - CharNo` strictly smaller. -/
theorem call_callStep {c c' : List StringPair × Nat} {len : Nat}
    (hc : Call c.1 len c.2 (len - c.2 + 1)) (hs : CallStep c c') :
    Call c'.1 len c'.2 (len - c'.2 + 1) ∧ len - c'.2 < len - c.2 := by
  cases hs with
  | first hlen h1 =>
    obtain ⟨hfirst, hc'⟩ := call_findFirstNonCommonLetter hc (hc.lt_of_ne hlen) h1
    exact ⟨hc'.refuel, by have := hc'.le; omega⟩
  | letter hlen _ hb =>
    have hlt := hc.lt_of_ne hlen
    exact ⟨(call_matchesByLetter hc hlt hb).refuel, by omega⟩

/-- **Run lemma.** Every call reached from `Emit` satisfies `Call`. -/
theorem call_of_reached {pairs : List StringPair} {c : List StringPair × Nat}
    (h : Reached pairs c) : ∃ len, Call c.1 len c.2 (len - c.2 + 1) := by
  induction h with
  | emit hb => exact ⟨_, (call_matchesByLength hb).refuel⟩
  | step _ hs ih =>
    obtain ⟨len, hc⟩ := ih
    exact ⟨len, (call_callStep hc hs).1⟩

/-- A call that satisfies `Call` starts no infinite chain of calls: `len - CharNo` bounds it. -/
theorem acc_of_call : ∀ (n : Nat) {c : List StringPair × Nat} {len : Nat},
    len - c.2 ≤ n → Call c.1 len c.2 (len - c.2 + 1) → Acc (fun c' c => CallStep c c') c
  | 0, _, _, hn, hc => Acc.intro _ fun _ hs => absurd (call_callStep hc hs).2 (by omega)
  | n + 1, _, _, hn, hc => Acc.intro _ fun _ hs =>
    acc_of_call n (by have := (call_callStep hc hs).2; omega) (call_callStep hc hs).1

/-- `mapM` reads its function only on the members of the list. -/
theorem mapM_congr_of_mem {α γ : Type} {f g : α → Except String γ} :
    ∀ {xs : List α}, (∀ x ∈ xs, f x = g x) → xs.mapM f = xs.mapM g
  | [], _ => rfl
  | x :: xs, h => by
    rw [List.mapM_cons, List.mapM_cons, h x (List.mem_cons_self _ _),
      mapM_congr_of_mem fun x' hx' => h x' (List.mem_cons_of_mem _ hx')]

/-- **The recursive calls are the `CallStep`s.** With one more unit of fuel,
`EmitStringMatcherForChar(Matches, CharNo)` reads its recursive calls only at the `CallStep`
successors of `(Matches, CharNo)`: two fuels whose calls agree there write the same code. -/
theorem emitStringMatcherForChar_congr (ignoreDuplicates : Bool) {fuel fuel' : Nat}
    {ms : List StringPair} {charNo : Nat}
    (h : ∀ c, CallStep (ms, charNo) c →
      emitStringMatcherForChar ignoreDuplicates fuel c.1 c.2 =
        emitStringMatcherForChar ignoreDuplicates fuel' c.1 c.2) :
    emitStringMatcherForChar ignoreDuplicates (fuel + 1) ms charNo =
      emitStringMatcherForChar ignoreDuplicates (fuel' + 1) ms charNo := by
  cases ms with
  | nil => rfl
  | cons m ms =>
    simp only [emitStringMatcherForChar]
    by_cases hlen : charNo = m.1.length
    · simp only [if_pos hlen]
    rw [if_neg hlen, if_neg hlen]
    by_cases h1 : (matchesByLetter (m :: ms) charNo).length = 1
    · -- The call on `Matches` at the first position where the keys differ.
      have e := h _ (.first hlen h1)
      dsimp only at e
      simp only [if_pos h1, e]
    · -- The calls on the buckets at `CharNo + 1`.
      simp only [if_neg h1]
      congr 1
      refine mapM_congr_of_mem fun b hb => ?_
      have e := h _ (.letter hlen h1 hb)
      dsimp only at e
      rw [e]

/-- **Fuel stability.** From a call that satisfies `Call`, every fuel above `len - CharNo`
writes the same code: the `CallStep` measure is what the function consumes. -/
theorem emitStringMatcherForChar_fuel (ignoreDuplicates : Bool) :
    ∀ (n : Nat) {c : List StringPair × Nat} {len : Nat}, len - c.2 ≤ n →
      Call c.1 len c.2 (len - c.2 + 1) → ∀ fuel fuel', len - c.2 < fuel → len - c.2 < fuel' →
        emitStringMatcherForChar ignoreDuplicates fuel c.1 c.2 =
          emitStringMatcherForChar ignoreDuplicates fuel' c.1 c.2
  | _, _, _, _, _, 0, _, hf, _ => absurd hf (Nat.not_lt_zero _)
  | _, _, _, _, _, _ + 1, 0, _, hf' => absurd hf' (Nat.not_lt_zero _)
  | n, _, _, hn, hc, fuel + 1, fuel' + 1, _, _ =>
    emitStringMatcherForChar_congr ignoreDuplicates fun _ hs => by
      obtain ⟨hc', hlt⟩ := call_callStep hc hs
      cases n with
      | zero => omega
      | succ n =>
        exact emitStringMatcherForChar_fuel ignoreDuplicates n (by omega) hc' _ _
          (by omega) (by omega)

/-- **Every call reached from `Emit` keeps the invariant, and the recursion terminates.** For
every list of pairs: each call `EmitStringMatcherForChar(Matches, CharNo)` reached from `Emit`
has a non-empty `Matches` whose keys have one length `L`, agree before `CharNo`, and
`CharNo ≤ L` (`Call`, with fuel `L - CharNo + 1`); each call it makes keeps `L` and makes
`L - CharNo` strictly smaller; in the single-bucket branch `CharNo < FindFirstNonCommonLetter`, so
`NumChars ≥ 1`; no reached call starts an infinite chain of calls; the function reads its
recursive calls only at the `CallStep` successors, so that from a reached call every fuel above
`L - CharNo` writes the same code; and `Emit`, with its fuel, writes a matcher or reports
duplicate keys, never running out. -/
theorem reached_terminates (ignoreDuplicates : Bool) (pairs : List StringPair) :
    (∀ c, Reached pairs c → ∃ len, Call c.1 len c.2 (len - c.2 + 1)) ∧
    (∀ c c', Reached pairs c → CallStep c c' →
      ∃ len, Call c.1 len c.2 (len - c.2 + 1) ∧ Call c'.1 len c'.2 (len - c'.2 + 1) ∧
        len - c'.2 < len - c.2) ∧
    (∀ m ms charNo, Reached pairs (m :: ms, charNo) → charNo ≠ m.1.length →
      (matchesByLetter (m :: ms) charNo).length = 1 →
        charNo < findFirstNonCommonLetter (m :: ms)) ∧
    (∀ c, Reached pairs c → Acc (fun c' c => CallStep c c') c) ∧
    (∀ fuel fuel' ms charNo, (∀ c, CallStep (ms, charNo) c →
        emitStringMatcherForChar ignoreDuplicates fuel c.1 c.2 =
          emitStringMatcherForChar ignoreDuplicates fuel' c.1 c.2) →
      emitStringMatcherForChar ignoreDuplicates (fuel + 1) ms charNo =
        emitStringMatcherForChar ignoreDuplicates (fuel' + 1) ms charNo) ∧
    (∀ c, Reached pairs c → ∃ len, ∀ fuel fuel', len - c.2 < fuel → len - c.2 < fuel' →
      emitStringMatcherForChar ignoreDuplicates fuel c.1 c.2 =
        emitStringMatcherForChar ignoreDuplicates fuel' c.1 c.2) ∧
    ((∃ code, emit ignoreDuplicates pairs = .ok code) ∨
      emit ignoreDuplicates pairs = .error duplicateKeys) := by
  refine ⟨fun c h => call_of_reached h, fun c c' h hs => ?_, fun m ms charNo h hlen h1 => ?_,
    fun c h => ?_, fun _ _ _ _ => emitStringMatcherForChar_congr ignoreDuplicates,
    fun c h => ?_, ?_⟩
  · obtain ⟨len, hc⟩ := call_of_reached h
    exact ⟨len, hc, call_callStep hc hs⟩
  · obtain ⟨len, hc⟩ := call_of_reached h
    exact (call_findFirstNonCommonLetter hc (hc.lt_of_ne hlen) h1).1
  · obtain ⟨len, hc⟩ := call_of_reached h
    exact acc_of_call _ le_rfl hc
  · obtain ⟨len, hc⟩ := call_of_reached h
    exact ⟨len, emitStringMatcherForChar_fuel ignoreDuplicates _ le_rfl hc⟩
  · by_cases hd : ignoreDuplicates = true ∨ (pairs.map Prod.fst).Nodup
    · obtain ⟨code, hcode, -⟩ := emit_correct ignoreDuplicates pairs hd
      exact .inl ⟨code, hcode⟩
    · rw [not_or, Bool.not_eq_true] at hd
      rw [hd.1]
      exact .inr (emit_duplicate hd.2)

end Keystone.TableGen.StringMatcher
