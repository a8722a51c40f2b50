import Mathlib.Data.List.Basic

/-!
# The PowerPC host CPU from `/proc/cpuinfo`

On Linux on PowerPC, `sys::getHostCPUName` reads the first 1024 bytes of `/proc/cpuinfo` and
walks them with a pointer `CIP`: each round of its loop steps over one newline, tests for `c`,
`p`, `u`, blanks, `:` and blanks, and either takes the characters up to a blank, comma or
newline as the CPU, or skips from where the tests stopped to the next newline. The CPU is then
looked up in a `StringSwitch`.

## Design

The pointer is the list of the characters left. Each test `if (CIP < CPUInfoEnd && *CIP == ch)
++CIP` is `expect ch`, in `Except`, whose error is where `CIP` stopped; the `while` loops over
blanks, over the token and to the newline are `dropWhile` and `takeWhile`. The loop is run with
fuel, one round per character and one more; the refinement theorem shows that is enough.

The abstract model reads the buffer as its lines, the `splitOn '\n'` of it: the CPU is the name
of the token of the first line that passes the tests, `generic` when there is none. It is proved
one line at a time, over the buffer written as its lines joined by newlines: the tests read no
newline, so a round from the newline before a line reads that line only (`nameOf_cpuLoop_line`).
The two agree on names, not on what the loop finds: a last line `cpu:` with nothing after it
leaves `CPUStart` at `0`, where the line reading finds the empty token; both name `generic`.

## Main definitions

* `Keystone.Host.getHostCPUName` — the function, from what `readCpuInfo` returned.
* `Keystone.Host.cpuNameOfLines` — the line-by-line reading of the buffer.

## Main results

* `Keystone.Host.getHostCPUName_eq` — the pointer walk computes the line-by-line reading.
-/

namespace Keystone.Host

/-- A space or a tab, what the blank loops step over. -/
def isBlank (c : Char) : Bool := c == ' ' || c == '\t'

/-- What ends the CPU token: a space, a tab, a comma or a newline. -/
def endsToken (c : Char) : Bool := c == ' ' || c == '\t' || c == ',' || c == '\n'

/-- The test `if (CIP < CPUInfoEnd && *CIP == ch) ++CIP`: past `ch`, or an error at `CIP`. -/
def expect (ch : Char) : List Char → Except (List Char) (List Char)
  | c :: cip => if c = ch then .ok cip else .error (c :: cip)
  | [] => .error []

/-- The nested tests of a round: `c`, `p`, `u`, blanks, `:` and blanks. What follows them, or
the error where `CIP` stopped. -/
def afterCpuColon (cip : List Char) : Except (List Char) (List Char) := do
  let cip ← expect 'c' cip
  let cip ← expect 'p' cip
  let cip ← expect 'u' cip
  let cip ← expect ':' (cip.dropWhile isBlank)
  pure (cip.dropWhile isBlank)

/-- One round of the loop at `CIP`: past one newline, the token that `CPUStart` and `CPULen`
mark if the tests pass with a character left, or else where the next round starts, at the
newline after where `CIP` stopped. -/
def cpuRound (cip : List Char) : List Char ⊕ List Char :=
  let cip := if cip.head? = some '\n' then cip.tail else cip
  match afterCpuColon cip with
  | .ok (c :: rest) => .inl ((c :: rest).takeWhile fun c => !endsToken c)
  | .ok [] => .inr []
  | .error cip => .inr (cip.dropWhile fun c => c != '\n')

/-- The loop `while (CIP < CPUInfoEnd && CPUStart == 0)`, for at most `fuel` rounds. -/
def cpuLoop : Nat → List Char → Option (List Char)
  | 0, _ => none
  | _ + 1, [] => none
  | fuel + 1, c :: cip =>
    match cpuRound (c :: cip) with
    | .inl token => some token
    | .inr cip => cpuLoop fuel cip

/-- The `StringSwitch` from the token to the CPU name. -/
def ppcName (token : List Char) : String :=
  match String.mk token with
  | "604e" => "604e"
  | "604" => "604"
  | "7400" => "7400"
  | "7410" => "7400"
  | "7447" => "7400"
  | "7455" => "7450"
  | "G4" => "g4"
  | "POWER4" => "970"
  | "PPC970FX" => "970"
  | "PPC970MP" => "970"
  | "G5" => "g5"
  | "POWER5" => "g5"
  | "A2" => "a2"
  | "POWER6" => "pwr6"
  | "POWER7" => "pwr7"
  | "POWER8" => "pwr8"
  | "POWER8E" => "pwr8"
  | "POWER9" => "pwr9"
  | _ => "generic"

/-- The name for what the loop found: `generic` when `CPUStart` stayed `0`. -/
def nameOf : Option (List Char) → String
  | some token => ppcName token
  | none => "generic"

/-- `sys::getHostCPUName()` on Linux on PowerPC, from what `readCpuInfo` read: `none` for `-1`.
-/
def getHostCPUName : Option (List Char) → String
  | none => "generic"
  | some buffer => nameOf (cpuLoop (buffer.length + 1) buffer)

/-! ### The abstract model -/

/-- The token of a line that passes the tests: up to a blank, a comma or its end. -/
def cpuLine? (line : List Char) : Option (List Char) :=
  match afterCpuColon line with
  | .ok rest => some (rest.takeWhile fun c => !endsToken c)
  | .error _ => none

/-- **The abstract model**: the CPU of the first line that passes the tests, `generic` when no
line does. -/
def cpuNameOfLines (lines : List (List Char)) : String :=
  nameOf (lines.findSome? cpuLine?)

/-! ### Where the tests stop -/

/-- Both results of the tests, with `tail` after the position they give. -/
def withTail (tail : List Char) : Except (List Char) (List Char) → Except (List Char) (List Char)
  | .ok cip => .ok (cip ++ tail)
  | .error cip => .error (cip ++ tail)

/-- Both results of the tests are positions in `s`. -/
def StopsIn (s : List Char) : Except (List Char) (List Char) → Prop
  | .ok cip => cip <:+ s
  | .error cip => cip <:+ s

/-- What follows a line: the end of the buffer, or a newline. -/
def Follows (tail : List Char) : Prop := tail = [] ∨ ∃ t, tail = '\n' :: t

section Tests

variable {l tail : List Char}

theorem withTail_bind {x : Except (List Char) (List Char)}
    {f g : List Char → Except (List Char) (List Char)}
    (h : ∀ cip, f (cip ++ tail) = withTail tail (g cip)) :
    withTail tail x >>= f = withTail tail (x >>= g) := by
  cases x <;> simp [withTail, bind, Except.bind, h]

theorem stopsIn_bind {s : List Char} {x : Except (List Char) (List Char)}
    {f : List Char → Except (List Char) (List Char)} (hx : StopsIn s x)
    (hf : ∀ cip, cip <:+ s → StopsIn s (f cip)) : StopsIn s (x >>= f) := by
  cases x with
  | error cip => exact hx
  | ok cip => exact hf cip hx

theorem expect_stopsIn {s cip : List Char} (ch : Char) (h : cip <:+ s) :
    StopsIn s (expect ch cip) := by
  cases cip with
  | nil => exact h
  | cons c cip =>
    rw [expect]
    split_ifs
    · exact (List.suffix_cons c cip).trans h
    · exact h

/-- The tests stop inside what they read. -/
theorem afterCpuColon_stopsIn (l : List Char) : StopsIn l (afterCpuColon l) := by
  have hb : ∀ {cip}, cip <:+ l → cip.dropWhile isBlank <:+ l :=
    fun h => (List.dropWhile_suffix _).trans h
  refine stopsIn_bind (expect_stopsIn _ (List.suffix_refl l)) fun _ h₁ => ?_
  refine stopsIn_bind (expect_stopsIn _ h₁) fun _ h₂ => ?_
  refine stopsIn_bind (expect_stopsIn _ h₂) fun _ h₃ => ?_
  exact stopsIn_bind (expect_stopsIn _ (hb h₃)) fun _ h₄ => hb h₄

/-- A loop that stops at a newline stops inside a line or where it ends. -/
theorem dropWhile_append_of_follows {q : Char → Bool} (hq : q '\n' = false)
    (ht : Follows tail) : (l ++ tail).dropWhile q = l.dropWhile q ++ tail := by
  induction l with
  | nil =>
    rcases ht with rfl | ⟨t, rfl⟩
    · rfl
    · simp [hq]
  | cons c l ih =>
    rw [List.cons_append, List.dropWhile_cons, List.dropWhile_cons]
    split_ifs
    · exact ih
    · rfl

/-- A token ends at the newline, if not before. -/
theorem takeWhile_append_of_follows {q : Char → Bool} (hq : q '\n' = false)
    (ht : Follows tail) : (l ++ tail).takeWhile q = l.takeWhile q := by
  induction l with
  | nil =>
    rcases ht with rfl | ⟨t, rfl⟩
    · rfl
    · simp [hq]
  | cons c l ih =>
    rw [List.cons_append, List.takeWhile_cons, List.takeWhile_cons]
    split_ifs
    · rw [ih]
    · rfl

theorem expect_append {ch : Char} (hch : ch ≠ '\n') (ht : Follows tail) (l : List Char) :
    expect ch (l ++ tail) = withTail tail (expect ch l) := by
  cases l with
  | nil =>
    rcases ht with rfl | ⟨t, rfl⟩
    · rfl
    · simp [expect, withTail, Ne.symm hch]
  | cons c l =>
    rw [List.cons_append, expect, expect]
    split_ifs <;> rfl

/-- The loop to the newline, from inside a line, stops at its end. -/
theorem dropWhile_ne_newline_append {m : List Char} (hm : '\n' ∉ m) (ht : Follows tail) :
    ((m ++ tail).dropWhile fun c => c != '\n') = tail := by
  rw [dropWhile_append_of_follows rfl ht, List.dropWhile_eq_nil_iff.mpr, List.nil_append]
  intro c hc
  simpa using ne_of_mem_of_not_mem hc hm

/-- The tests read no newline: on a line and what follows it, they stop where they stop on the
line. -/
theorem afterCpuColon_append (ht : Follows tail) (l : List Char) :
    afterCpuColon (l ++ tail) = withTail tail (afterCpuColon l) := by
  have hb : isBlank '\n' = false := rfl
  rw [afterCpuColon, afterCpuColon, expect_append (by decide) ht]
  refine withTail_bind fun _ => ?_
  rw [expect_append (by decide) ht]
  refine withTail_bind fun _ => ?_
  rw [expect_append (by decide) ht]
  refine withTail_bind fun _ => ?_
  rw [dropWhile_append_of_follows hb ht, expect_append (by decide) ht]
  refine withTail_bind fun _ => ?_
  rw [dropWhile_append_of_follows hb ht]
  rfl

end Tests

/-! ### The loop, line by line -/

/-- **Step lemma.** A round from the newline before a line reads that line: it names the line's
token, or goes on from the end of the line. -/
theorem nameOf_cpuLoop_line {l tail : List Char} (hl : '\n' ∉ l) (ht : Follows tail)
    (fuel : Nat) :
    nameOf (cpuLoop (fuel + 1) ('\n' :: (l ++ tail))) =
      match cpuLine? l with
      | some token => ppcName token
      | none => nameOf (cpuLoop fuel tail) := by
  have he : (!endsToken '\n') = false := rfl
  rw [cpuLoop, cpuRound]
  simp only [List.head?_cons, if_true, List.tail_cons, afterCpuColon_append ht, cpuLine?]
  have hs := afterCpuColon_stopsIn l
  cases hc : afterCpuColon l with
  | error m =>
    rw [hc] at hs
    simp only [withTail, dropWhile_ne_newline_append (fun h => hl (hs.subset h)) ht]
  | ok rest =>
    cases rest with
    | nil =>
      rcases ht with rfl | ⟨t, rfl⟩
      · cases fuel <;> rfl
      · simp [withTail, he, nameOf]
    | cons c rest =>
      simp only [withTail, List.cons_append, nameOf]
      rw [← List.cons_append, takeWhile_append_of_follows he ht]

/-- **Run lemma.** From the newline before lines joined by newlines, with a round for each, the
loop names the token of the first line that passes the tests. -/
theorem nameOf_cpuLoop_lines : ∀ (lines : List (List Char)), lines ≠ [] →
    (∀ l ∈ lines, '\n' ∉ l) → ∀ fuel, lines.length ≤ fuel →
      nameOf (cpuLoop fuel ('\n' :: ['\n'].intercalate lines)) = cpuNameOfLines lines
  | [], h, _, _, _ => absurd rfl h
  | [l], _, hl, fuel + 1, _ => by
    have h := nameOf_cpuLoop_line (hl l (List.mem_singleton_self l)) (.inl rfl) fuel
    rw [List.append_nil] at h
    rw [show ['\n'].intercalate [l] = l by simp [List.intercalate], h, cpuNameOfLines,
      List.findSome?_cons]
    cases cpuLine? l <;> cases fuel <;> rfl
  | l :: l' :: lines, _, hl, fuel + 1, hf => by
    rw [show ['\n'].intercalate (l :: l' :: lines) = l ++ '\n' :: ['\n'].intercalate (l' :: lines)
        from rfl, nameOf_cpuLoop_line (hl l (List.mem_cons_self _ _)) (.inr ⟨_, rfl⟩),
      cpuNameOfLines, List.findSome?_cons]
    cases cpuLine? l with
    | some token => rfl
    | none =>
      exact nameOf_cpuLoop_lines (l' :: lines) (List.cons_ne_nil _ _)
        (fun l hm => hl l (List.mem_cons_of_mem _ hm)) fuel (by simp at hf ⊢; omega)

/-- The first round reads from the start of the buffer as from a newline before it. -/
theorem cpuLoop_start {cip : List Char} (hc : cip.head? ≠ some '\n') (fuel : Nat) :
    cpuLoop fuel cip = cpuLoop fuel ('\n' :: cip) := by
  match fuel, cip with
  | 0, _ => rfl
  | 1, [] => rfl
  | _ + 2, [] => rfl
  | _ + 1, c :: cip =>
    have hc : c ≠ '\n' := fun h => hc (h ▸ rfl)
    simp [cpuLoop, cpuRound, hc]

/-- The loop over a whole buffer, written as its lines joined by newlines. -/
theorem nameOf_cpuLoop_intercalate {lines : List (List Char)} (hne : lines ≠ [])
    (hl : ∀ l ∈ lines, '\n' ∉ l) {fuel : Nat} (hf : lines.length ≤ fuel) :
    nameOf (cpuLoop fuel (['\n'].intercalate lines)) = cpuNameOfLines lines := by
  match lines, hne with
  | [[]], _ => cases fuel <;> rfl
  | [] :: l :: lines, _ =>
    rw [show cpuNameOfLines ([] :: l :: lines) = cpuNameOfLines (l :: lines) from rfl]
    exact nameOf_cpuLoop_lines (l :: lines) (List.cons_ne_nil _ _)
      (fun l' hm => hl l' (List.mem_cons_of_mem _ hm)) fuel (by simp at hf ⊢; omega)
  | (c :: l) :: lines, _ =>
    have hc : c ≠ '\n' := fun h => hl _ (List.mem_cons_self _ _) (h ▸ List.mem_cons_self _ _)
    have hhead : (['\n'].intercalate ((c :: l) :: lines)).head? = some c := by
      cases lines <;> rfl
    rw [cpuLoop_start (by rw [hhead]; simpa using hc)]
    exact nameOf_cpuLoop_lines _ (List.cons_ne_nil _ _) hl fuel hf

/-! ### Lines of the buffer -/

/-- No line of a split holds the separator. -/
theorem not_mem_of_mem_splitOn {buffer l : List Char} (h : l ∈ buffer.splitOn '\n') :
    '\n' ∉ l := by
  induction buffer generalizing l with
  | nil =>
    rw [List.splitOn_nil, List.mem_singleton] at h
    simp [h]
  | cons c buffer ih =>
    rw [List.splitOn, List.splitOnP_cons] at h
    split_ifs at h with hc
    · rcases List.mem_cons.mp h with rfl | h
      · simp
      · exact ih h
    · cases hs : buffer.splitOnP (· == '\n') with
      | nil => exact absurd hs (List.splitOnP_ne_nil _ _)
      | cons l₀ ls =>
        rw [hs, List.modifyHead_cons, List.mem_cons] at h
        have h₀ : '\n' ∉ l₀ := ih (by rw [List.splitOn, hs]; exact List.mem_cons_self _ _)
        rcases h with rfl | h
        · simpa [eq_comm] using ⟨by simpa using hc, h₀⟩
        · exact ih (by rw [List.splitOn, hs]; exact List.mem_cons_of_mem _ h)

/-- A buffer has at most one line more than it has characters. -/
theorem length_splitOn_le (buffer : List Char) :
    (buffer.splitOn '\n').length ≤ buffer.length + 1 := by
  induction buffer with
  | nil => simp
  | cons c buffer ih =>
    rw [List.splitOn, List.splitOnP_cons]
    split_ifs
    · simpa [List.splitOn] using ih
    · rw [List.length_modifyHead]
      simpa [List.splitOn] using ih.trans (Nat.le_succ _)

/-- **The pointer walk reads `/proc/cpuinfo` line by line.** For every buffer `readCpuInfo`
returns, `getHostCPUName` is the name of the token of the first line of it that passes the
tests, and `generic` when there is none. -/
theorem getHostCPUName_eq (buffer : List Char) :
    getHostCPUName (some buffer) = cpuNameOfLines (buffer.splitOn '\n') := by
  have hne : buffer.splitOn '\n' ≠ [] := List.splitOnP_ne_nil _ _
  have h := nameOf_cpuLoop_intercalate hne (fun _ => not_mem_of_mem_splitOn)
    (length_splitOn_le buffer)
  rwa [List.intercalate_splitOn] at h

example :
    getHostCPUName (some "processor\t: 0\ncpu\t\t: POWER9, altivec supported\n".toList) =
      "pwr9" := by decide

end Keystone.Host
