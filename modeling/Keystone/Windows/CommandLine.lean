import Mathlib.Data.BitVec

/-!
# The Windows command line `flattenArgs` writes

`CreateProcess` takes one command line, not an `argv`. `flattenArgs` writes it in two passes
over the arguments: the first adds up `ArgLenWithQuotes` of each, plus one for the space after
it, and allocates `new char[len+1]`; the second copies each argument, in quotes when
`ArgNeedsQuotes`, with the backslashes before a `"`, and before the closing quote, doubled and
each `"` escaped, then a space, and last the terminating NUL. The started program splits the
command line back by the rules of the Microsoft C runtime, which the source cites.

## Design

A C string is its characters before the terminating NUL, a `List Char`; the pointer `Str`
walking it is the list of the letters left with the offset `i = Str - Start`.
`CountPrecedingBackslashes(Start, Cur)` scans back from the offset. The counters are
`unsigned`, 32 bits on Windows, so they are `BitVec 32`, and the two passes are compared
modulo `2 ^ 32`. The splitting rules are a step function on a parser state; the round trip runs it over
each written argument in turn, one lemma per piece of it.

## Main definitions

* `Keystone.Windows.argLenWithQuotes`, `Keystone.Windows.writeArg` — the two passes on one
  argument.
* `Keystone.Windows.flattenArgs` — the size `flattenArgs` allocates and what it writes.
* `Keystone.Windows.splitCommandLine` — the C runtime's splitting of a command line.

## Main results

* `Keystone.Windows.flattenArgs_size` — the allocated size is what the second pass writes and
  one byte per quoted argument, modulo `2 ^ 32`.
* `Keystone.Windows.flattenArgs_roundTrip` — the started program gets back every argument.
-/

namespace Keystone.Windows

/-! ### The two passes -/

/-- The characters `ArgNeedsQuotes` looks for with `strpbrk`: tab, space, `"`, `&`, `'`, `(`,
`)`, `*`, `<`, `>`, backslash, backquote, `^` and `|`. -/
def quoteChars : List Char :=
  ['\t', ' ', '"', '&', '\x27', '(', ')', '*', '<', '>', '\\', '\x60', '^', '|']

/-- `ArgNeedsQuotes(Str)`: the argument is empty or has one of `quoteChars`. -/
def argNeedsQuotes (str : List Char) : Bool :=
  str.isEmpty || str.any quoteChars.contains

/-- `CountPrecedingBackslashes(Start, Start + cur)`: the backslashes right before offset
`cur`, counted in an `unsigned`. -/
def countPrecedingBackslashes (start : List Char) : Nat → BitVec 32
  | 0 => 0
  | cur + 1 =>
    if start.getD cur '\x00' = '\\' then countPrecedingBackslashes start cur + 1 else 0

/-- What `EscapePrecedingEscapes(Dst, Start, Start + cur)` writes: one backslash for each
backslash before offset `cur`. -/
def escapePrecedingEscapes (start : List Char) (cur : Nat) : List Char :=
  List.replicate (countPrecedingBackslashes start cur).toNat '\\'

/-- The loop of `ArgLenWithQuotes` from `Str = Start + i`, with the letters `rest` left and
`len` so far: each `"` costs its preceding backslashes and one more. -/
def argLenLoop (start : List Char) : List Char → Nat → BitVec 32 → BitVec 32
  | [], _, len => len
  | c :: rest, i, len =>
    argLenLoop start rest (i + 1)
      ((if c = '"' then len + (countPrecedingBackslashes start i + 1) else len) + 1)

/-- `ArgLenWithQuotes(Str)`: the length of the argument as written, quotes included. -/
def argLenWithQuotes (str : List Char) : BitVec 32 :=
  let quoted := argNeedsQuotes str
  let len := argLenLoop str str 0 (if quoted then 2 else 0)
  if quoted then len + (countPrecedingBackslashes str str.length + 1) else len

/-- The copy loop of `flattenArgs` from `arg = start + i`, with the letters `rest` left, after
the output `p`: before a `"`, the backslashes before it again and one more. -/
def copyLoop (start : List Char) : List Char → Nat → List Char → List Char
  | [], _, p => p
  | c :: rest, i, p =>
    copyLoop start rest (i + 1)
      ((if c = '"' then p ++ escapePrecedingEscapes start i ++ ['\\'] else p) ++ [c])

/-- One round of the second loop of `flattenArgs`: after the output `p`, the argument, in
quotes when it needs them with its trailing backslashes doubled, then a space. -/
def writeArg (p : List Char) (arg : List Char) : List Char :=
  let needsQuoting := argNeedsQuotes arg
  let p := if needsQuoting then p ++ ['"'] else p
  let p := copyLoop arg arg 0 p
  let p := if needsQuoting then p ++ escapePrecedingEscapes arg arg.length ++ ['"'] else p
  p ++ [' ']

/-- `flattenArgs(args)`: the size `len + 1` of the buffer it allocates, with `len` added up in an
`unsigned`, and the characters it writes there, the terminating NUL last. -/
def flattenArgs (args : List (List Char)) : BitVec 32 × List Char :=
  let len := args.foldl (fun len arg => len + (argLenWithQuotes arg + 1)) 0
  (len + 1, args.foldl writeArg [] ++ ['\x00'])

/-! ### The first pass sizes the second -/

/-- The copy loop appends to its output. -/
theorem copyLoop_append (start : List Char) :
    ∀ (rest : List Char) (i : Nat) (p : List Char),
      copyLoop start rest i p = p ++ copyLoop start rest i []
  | [], _, p => (List.append_nil p).symm
  | c :: rest, i, p => by
    rw [copyLoop, copyLoop, copyLoop_append start rest (i + 1),
      copyLoop_append start rest (i + 1) (_ ++ [c])]
    split_ifs <;> simp

/-- `writeArg` appends to its output. -/
theorem writeArg_append (p arg : List Char) : writeArg p arg = p ++ writeArg [] arg := by
  by_cases hq : argNeedsQuotes arg = true
  · simp only [writeArg, hq, if_true]
    rw [copyLoop_append _ _ _ (p ++ _), copyLoop_append _ _ _ ([] ++ _)]
    simp
  · simp only [writeArg, hq, if_false, Bool.false_eq_true]
    rw [copyLoop_append _ _ _ p]
    simp

/-- The second loop writes the arguments one after another. -/
theorem foldl_writeArg (args : List (List Char)) :
    ∀ p, args.foldl writeArg p = p ++ (args.map (writeArg [])).flatten := by
  induction args with
  | nil => intro p; simp
  | cons arg args ih => intro p; rw [List.foldl_cons, ih, writeArg_append]; simp

/-- The length loop adds what the copy loop writes, modulo `2 ^ 32`. -/
theorem argLenLoop_toNat (start : List Char) :
    ∀ (rest : List Char) (i : Nat) (len : BitVec 32),
      (argLenLoop start rest i len).toNat = (len.toNat + (copyLoop start rest i []).length) % 2 ^ 32
  | [], _, len => by simp [argLenLoop, copyLoop, Nat.mod_eq_of_lt len.isLt]
  | c :: rest, i, len => by
    have hk := (countPrecedingBackslashes start i).isLt
    have h1 : (1 : BitVec 32).toNat = 1 := rfl
    rw [argLenLoop, argLenLoop_toNat, copyLoop, copyLoop_append start rest (i + 1) (_ ++ [c]),
      List.length_append]
    by_cases hc : c = '"'
    · simp only [hc, if_true, List.length_append, List.length_replicate, escapePrecedingEscapes,
        List.length_singleton, List.nil_append, BitVec.toNat_add, h1]
      omega
    · simp only [hc, if_false, List.length_append, List.length_singleton, List.nil_append,
        BitVec.toNat_add, h1]
      omega

/-- One argument: `ArgLenWithQuotes` and the space after it count what the second pass writes,
and one more for a quoted argument: the closing quote is counted in the initial `2` and again
with its preceding backslashes. -/
theorem length_writeArg (arg : List Char) :
    ((argLenWithQuotes arg).toNat + 1) % 2 ^ 32 =
      ((writeArg [] arg).length + if argNeedsQuotes arg then 1 else 0) % 2 ^ 32 := by
  have hk := (countPrecedingBackslashes arg arg.length).isLt
  have h1 : (1 : BitVec 32).toNat = 1 := rfl
  by_cases hq : argNeedsQuotes arg = true
  · have h2 : (2 : BitVec 32).toNat = 2 := rfl
    simp only [writeArg, argLenWithQuotes, hq, if_true]
    rw [copyLoop_append _ _ _ ([] ++ _)]
    simp only [List.length_append, List.length_singleton, escapePrecedingEscapes,
      List.length_replicate, BitVec.toNat_add, h1, h2, argLenLoop_toNat, List.nil_append]
    omega
  · have h0 : (0 : BitVec 32).toNat = 0 := rfl
    simp only [writeArg, argLenWithQuotes, hq, if_false, Bool.false_eq_true, List.length_append,
      List.length_singleton, argLenLoop_toNat, h0]
    omega

/-- **The buffer `flattenArgs` allocates holds what it writes.** For every list of arguments,
the size `len + 1` of the buffer is the number of characters the second pass writes, NUL
included, and one more for each argument it quotes, modulo `2 ^ 32`. Below `2 ^ 32` the second
pass stays inside the buffer, one byte short of its end per quoted argument; a command line that
long wraps `len`, and the second pass overruns a buffer sized modulo `2 ^ 32`. -/
theorem flattenArgs_size (args : List (List Char)) :
    (flattenArgs args).1.toNat =
      ((flattenArgs args).2.length + (args.filter argNeedsQuotes).length) % 2 ^ 32 := by
  have h1 : (1 : BitVec 32).toNat = 1 := rfl
  have hsum : ∀ (args : List (List Char)) (len : BitVec 32),
      (args.foldl (fun len arg => len + (argLenWithQuotes arg + 1)) len).toNat =
        (len.toNat + (args.map (writeArg [])).flatten.length + (args.filter argNeedsQuotes).length)
          % 2 ^ 32 := by
    intro args
    induction args with
    | nil => intro len; simp [Nat.mod_eq_of_lt len.isLt]
    | cons arg args ih =>
      intro len
      have := length_writeArg arg
      rw [List.foldl_cons, ih, List.map_cons, List.flatten_cons, List.length_append,
        List.filter_cons]
      split_ifs at this ⊢ <;> simp only [BitVec.toNat_add, h1, List.length_cons] <;> omega
  have h0 : (0 : BitVec 32).toNat = 0 := rfl
  simp only [flattenArgs, BitVec.toNat_add, h1, hsum, foldl_writeArg, List.length_append,
    List.length_singleton, List.nil_append, h0]
  omega

/-! ### The backslashes before an offset -/

/-- The backslashes right before offset `i` of `s`, counted without a bound. -/
def backslashesBefore (s : List Char) : Nat → Nat
  | 0 => 0
  | i + 1 => if s.getD i '\x00' = '\\' then backslashesBefore s i + 1 else 0

theorem backslashesBefore_le (s : List Char) : ∀ i, backslashesBefore s i ≤ i
  | 0 => le_rfl
  | i + 1 => by
    rw [backslashesBefore]
    split_ifs
    · exact Nat.succ_le_succ (backslashesBefore_le s i)
    · exact Nat.zero_le _

/-- Below `2 ^ 32`, the `unsigned` count is the count. -/
theorem toNat_countPrecedingBackslashes (s : List Char) :
    ∀ i, i < 2 ^ 32 → (countPrecedingBackslashes s i).toNat = backslashesBefore s i
  | 0, _ => rfl
  | i + 1, h => by
    have := backslashesBefore_le s i
    rw [countPrecedingBackslashes, backslashesBefore]
    split_ifs
    · have h1 : (1 : BitVec 32).toNat = 1 := rfl
      rw [BitVec.toNat_add, toNat_countPrecedingBackslashes s i (by omega), h1]
      omega
    · rfl

/-- The prefix before offset `i` is the prefix before its trailing backslashes, then those. -/
theorem take_backslashesBefore (s : List Char) :
    ∀ i, i ≤ s.length →
      s.take (i - backslashesBefore s i) ++ List.replicate (backslashesBefore s i) '\\' = s.take i
  | 0, _ => rfl
  | i + 1, h => by
    have hs : s.take (i + 1) = s.take i ++ [s.getD i '\x00'] := by
      rw [List.take_succ, List.getD_eq_getElem?_getD, List.getElem?_eq_getElem (by omega)]
      rfl
    rw [backslashesBefore, hs]
    split_ifs with hc
    · rw [List.replicate_succ', ← List.append_assoc, Nat.add_sub_add_right,
        take_backslashesBefore s i (by omega), hc]
    · rw [Nat.sub_zero, List.replicate_zero, List.append_nil, hs]

/-! ### Splitting a command line -/

/-- The state of the C runtime's splitting: the arguments done, the one being read if it has
started, whether inside quotes, and the backslashes read and not yet placed. -/
structure ArgvState where
  argv : List (List Char)
  arg : Option (List Char)
  inQuotes : Bool
  backslashes : Nat
  deriving DecidableEq, Repr

/-- Backslashes not followed by `"` are literal: place them. -/
def ArgvState.flush (s : ArgvState) : ArgvState :=
  if s.backslashes = 0 then s
  else { s with arg := some (s.arg.getD [] ++ List.replicate s.backslashes '\\'), backslashes := 0 }

/-- Modelled from the rules the source cites (MSDN, Parsing C Command-Line Arguments), not from
code of this repository: a space or tab outside quotes ends an argument; `2n` backslashes and
`"` give `n` backslashes and open or close quotes; `2n + 1` backslashes and `"` give `n`
backslashes and a literal `"`; other backslashes are literal. -/
def ArgvState.step (s : ArgvState) (c : Char) : ArgvState :=
  if c = '\\' then { s with backslashes := s.backslashes + 1 }
  else if c = '"' then
    let arg := s.arg.getD [] ++ List.replicate (s.backslashes / 2) '\\'
    if s.backslashes % 2 = 1 then { s with arg := some (arg ++ ['"']), backslashes := 0 }
    else { s with arg := some arg, inQuotes := !s.inQuotes, backslashes := 0 }
  else
    let s := s.flush
    if (c = ' ' ∨ c = '\t') ∧ s.inQuotes = false then
      match s.arg with
      | some a => { s with argv := s.argv ++ [a], arg := none }
      | none => s
    else { s with arg := some (s.arg.getD [] ++ [c]) }

/-- The arguments the C runtime splits a command line into. -/
def splitCommandLine (cmd : List Char) : List (List Char) :=
  let s := (cmd.foldl ArgvState.step ⟨[], none, false, 0⟩).flush
  match s.arg with
  | some a => s.argv ++ [a]
  | none => s.argv

/-- Between arguments, after `done`. -/
def between (done : List (List Char)) : ArgvState := ⟨done, none, false, 0⟩

/-- Inside the quotes of the written `arg`, after its letters before offset `i`: the trailing
backslashes are still pending. -/
def quotedState (done : List (List Char)) (arg : List Char) (i : Nat) : ArgvState :=
  ⟨done, some (arg.take (i - backslashesBefore arg i)), true, backslashesBefore arg i⟩

@[simp] theorem flush_zero (done : List (List Char)) (a : Option (List Char)) (q : Bool) :
    (ArgvState.mk done a q 0).flush = ⟨done, a, q, 0⟩ := rfl

@[simp] theorem flush_some (done : List (List Char)) (a : List Char) (q : Bool) (k : Nat) :
    (ArgvState.mk done (some a) q k).flush = ⟨done, some (a ++ List.replicate k '\\'), q, 0⟩ := by
  by_cases hk : k = 0
  · subst hk
    simp [ArgvState.flush]
  · simp [ArgvState.flush, hk]

/-- A backslash is only counted. -/
@[simp] theorem step_backslash (done : List (List Char)) (a : Option (List Char)) (q : Bool)
    (k : Nat) : (ArgvState.mk done a q k).step '\\' = ⟨done, a, q, k + 1⟩ := rfl

/-- Backslashes are only counted. -/
theorem foldl_step_backslashes (done : List (List Char)) (a : Option (List Char)) (q : Bool) :
    ∀ n k, (List.replicate n '\\').foldl ArgvState.step ⟨done, a, q, k⟩ = ⟨done, a, q, k + n⟩
  | 0, _ => rfl
  | n + 1, k => by
    rw [List.replicate_succ, List.foldl_cons, step_backslash, foldl_step_backslashes, Nat.add_assoc,
      Nat.add_comm 1]

/-- `2k` pending backslashes and `"`: `k` backslashes, and the quotes open or close. -/
theorem step_quote_even (done : List (List Char)) (a : Option (List Char)) (q : Bool) (k : Nat) :
    (ArgvState.mk done a q (k + k)).step '"' =
      ⟨done, some (a.getD [] ++ List.replicate k '\\'), !q, 0⟩ := by
  rw [ArgvState.step, if_neg (by decide), if_pos rfl]
  dsimp only
  rw [if_neg (by omega), show (k + k) / 2 = k by omega]

/-- `2k + 1` pending backslashes and `"`: `k` backslashes and a literal `"`. -/
theorem step_quote_odd (done : List (List Char)) (a : Option (List Char)) (q : Bool) (k : Nat) :
    (ArgvState.mk done a q (k + k + 1)).step '"' =
      ⟨done, some (a.getD [] ++ List.replicate k '\\' ++ ['"']), q, 0⟩ := by
  rw [ArgvState.step, if_neg (by decide), if_pos rfl]
  dsimp only
  rw [if_pos (by omega), show (k + k + 1) / 2 = k by omega]

/-- A space outside quotes, with no backslash pending, ends the argument being read. -/
theorem step_blank (done : List (List Char)) (a : List Char) :
    (ArgvState.mk done (some a) false 0).step ' ' = between (done ++ [a]) := by
  rw [ArgvState.step, if_neg (by decide), if_neg (by decide)]
  dsimp only
  rw [flush_zero, if_pos ⟨.inl rfl, rfl⟩]
  rfl

/-- A letter that is neither a backslash nor a quote, inside quotes or not a blank, joins the
argument. -/
theorem step_letter {s : ArgvState} {c : Char} (h1 : c ≠ '\\') (h2 : c ≠ '"')
    (h3 : s.inQuotes = true ∨ (c ≠ ' ' ∧ c ≠ '\t')) :
    s.step c = { s.flush with arg := some (s.flush.arg.getD [] ++ [c]) } := by
  have hq : s.flush.inQuotes = s.inQuotes := by
    unfold ArgvState.flush
    split_ifs <;> rfl
  rw [ArgvState.step, if_neg h1, if_neg h2]
  dsimp only
  rw [if_neg]
  rw [hq]
  rintro ⟨hb, hf⟩
  rcases h3 with h3 | ⟨h3, h4⟩
  · rw [h3] at hf
    cases hf
  · rcases hb with hb | hb <;> contradiction

/-- The letters of an argument that needs no quotes, from between arguments: they make it. -/
theorem foldl_step_plain (done : List (List Char)) :
    ∀ (l : List Char) (a : Option (List Char)), (∀ c ∈ l, quoteChars.contains c = false) →
      l.foldl ArgvState.step ⟨done, a, false, 0⟩ =
        if l = [] then ⟨done, a, false, 0⟩ else ⟨done, some (a.getD [] ++ l), false, 0⟩
  | [], _, _ => rfl
  | c :: l, a, h => by
    simp only [List.mem_cons, forall_eq_or_imp] at h
    have hc : c ≠ '\\' ∧ c ≠ '"' ∧ c ≠ ' ' ∧ c ≠ '\t' := by
      refine ⟨?_, ?_, ?_, ?_⟩ <;> rintro rfl <;> exact absurd h.1 (by decide)
    rw [List.foldl_cons, step_letter hc.1 hc.2.1 (.inr hc.2.2), flush_zero,
      foldl_step_plain done l _ h.2, if_neg (List.cons_ne_nil c l)]
    split_ifs with hl
    · subst hl
      rfl
    · simp

/-- One letter of a quoted argument, as the copy loop writes it, moves the parser to the next
offset. -/
theorem foldl_step_quotedLetter (done : List (List Char)) (arg : List Char) (i : Nat)
    (hi : i < arg.length) (hlen : arg.length < 2 ^ 32) :
    ((if arg.getD i '\x00' = '"' then [] ++ escapePrecedingEscapes arg i ++ ['\\'] else []) ++
        [arg.getD i '\x00']).foldl ArgvState.step (quotedState done arg i) =
      quotedState done arg (i + 1) := by
  have hk := toNat_countPrecedingBackslashes arg i (by omega)
  have hle := backslashesBefore_le arg i
  have htake := take_backslashesBefore arg i hi.le
  have hs : arg.take (i + 1) = arg.take i ++ [arg.getD i '\x00'] := by
    rw [List.take_succ, List.getD_eq_getElem?_getD, List.getElem?_eq_getElem hi]
    rfl
  by_cases hb : arg.getD i '\x00' = '\\'
  case pos =>
    rw [if_neg (by rw [hb]; decide), hb]
    simp only [List.nil_append, List.foldl_cons, List.foldl_nil, quotedState, step_backslash,
      backslashesBefore, hb, if_true, Nat.add_sub_add_right]
  case neg =>
  by_cases hq : arg.getD i '\x00' = '"'
  case pos =>
    rw [if_pos hq, hq]
    simp only [List.nil_append, escapePrecedingEscapes, hk, List.foldl_append, quotedState,
      foldl_step_backslashes, List.foldl_cons, List.foldl_nil, step_backslash]
    rw [step_quote_odd, Option.getD_some, htake, backslashesBefore, if_neg hb, Nat.sub_zero, hs, hq]
  case neg =>
    rw [if_neg hq, List.nil_append, List.foldl_cons, List.foldl_nil,
      step_letter hb hq (.inl rfl)]
    simp only [quotedState, flush_some, Option.getD_some, backslashesBefore, hb, if_false,
      Nat.sub_zero, hs, ← htake]

/-- The copy loop's output for a quoted argument takes the parser to its end. -/
theorem foldl_step_copyLoop (done : List (List Char)) (arg : List Char)
    (hlen : arg.length < 2 ^ 32) :
    ∀ (rest : List Char) (i : Nat), arg.drop i = rest → i ≤ arg.length →
      (copyLoop arg rest i []).foldl ArgvState.step (quotedState done arg i) =
        quotedState done arg arg.length
  | [], i, hr, hi => by
    rw [List.drop_eq_nil_iff] at hr
    rw [show i = arg.length by omega]
    rfl
  | c :: rest, i, hr, hi => by
    have hi' : i < arg.length := by
      by_contra h
      rw [List.drop_eq_nil_of_le (by omega)] at hr
      cases hr
    rw [List.drop_eq_getElem_cons hi', List.cons.injEq] at hr
    have hc : arg.getD i '\x00' = c := by
      rw [List.getD_eq_getElem?_getD, List.getElem?_eq_getElem hi', Option.getD_some, hr.1]
    rw [copyLoop, copyLoop_append, List.foldl_append, ← hc,
      foldl_step_quotedLetter done arg i hi' hlen]
    exact foldl_step_copyLoop done arg hlen rest (i + 1) hr.2 hi'
/-- The end of a quoted argument: its trailing backslashes again, the closing quote and the
space end it. -/
theorem foldl_step_close (done : List (List Char)) (arg : List Char) (hlen : arg.length < 2 ^ 32) :
    (escapePrecedingEscapes arg arg.length ++ ['"', ' ']).foldl ArgvState.step
      (quotedState done arg arg.length) = between (done ++ [arg]) := by
  have htake := take_backslashesBefore arg arg.length le_rfl
  rw [List.take_length] at htake
  simp only [escapePrecedingEscapes, toNat_countPrecedingBackslashes arg arg.length hlen,
    List.foldl_append, quotedState, foldl_step_backslashes, List.foldl_cons, List.foldl_nil]
  rw [step_quote_even, Option.getD_some, htake]
  exact step_blank done arg

/-- A quoted argument as `writeArg` writes it: the opening quote, the copy, the trailing
backslashes again, the closing quote and the space. -/
theorem writeArg_of_needsQuotes {arg : List Char} (hq : argNeedsQuotes arg = true) :
    writeArg [] arg =
      '"' :: (copyLoop arg arg 0 [] ++ (escapePrecedingEscapes arg arg.length ++ ['"', ' '])) := by
  simp only [writeArg, hq, if_true, List.nil_append]
  rw [copyLoop_append _ _ _ ['"']]
  simp

/-- An argument that needs no quotes has no `"`, and the copy loop copies it as it is. -/
theorem copyLoop_of_forall (start : List Char) :
    ∀ (rest : List Char) (i : Nat) (p : List Char), (∀ c ∈ rest, c ≠ '"') →
      copyLoop start rest i p = p ++ rest
  | [], _, p, _ => (List.append_nil p).symm
  | c :: rest, i, p, h => by
    simp only [List.mem_cons, forall_eq_or_imp] at h
    rw [copyLoop, if_neg h.1, copyLoop_of_forall start rest (i + 1) _ h.2, List.append_assoc,
      List.singleton_append]

/-- One written argument, from between arguments: the parser reads it back. -/
theorem foldl_step_writeArg (done : List (List Char)) (arg : List Char) (hlen : arg.length < 2 ^ 32) :
    (writeArg [] arg).foldl ArgvState.step (between done) = between (done ++ [arg]) := by
  by_cases hq : argNeedsQuotes arg = true
  · have hopen : (between done).step '"' = quotedState done arg 0 := step_quote_even done none false 0
    rw [writeArg_of_needsQuotes hq, List.foldl_cons, hopen, List.foldl_append,
      foldl_step_copyLoop done arg hlen arg 0 rfl (Nat.zero_le _), foldl_step_close done arg hlen]
  · have hplain : arg ≠ [] ∧ ∀ c ∈ arg, quoteChars.contains c = false := by
      simpa [argNeedsQuotes, List.isEmpty_iff] using hq
    have hnq : ∀ c ∈ arg, c ≠ '"' := fun c hc h => by
      have := hplain.2 c hc
      subst h
      exact absurd this (by decide)
    simp only [writeArg, hq, if_false, Bool.false_eq_true]
    rw [copyLoop_of_forall _ _ _ _ hnq, List.nil_append, List.foldl_append, between,
      foldl_step_plain done arg none hplain.2, if_neg hplain.1, List.foldl_cons, List.foldl_nil]
    exact step_blank done arg

/-- The written arguments, from between arguments: the parser reads them all back. -/
theorem foldl_step_flatten :
    ∀ (args : List (List Char)), (∀ a ∈ args, a.length < 2 ^ 32) → ∀ done,
      (args.map (writeArg [])).flatten.foldl ArgvState.step (between done) = between (done ++ args)
  | [], _, done => by simp
  | arg :: args, h, done => by
    simp only [List.mem_cons, forall_eq_or_imp] at h
    rw [List.map_cons, List.flatten_cons, List.foldl_append, foldl_step_writeArg done arg h.1,
      foldl_step_flatten args h.2, List.append_assoc, List.singleton_append]

/-- **The started program gets back its arguments.** For every list of arguments each shorter
than `2 ^ 32` characters, `flattenArgs` writes a command line and its terminating NUL, and the C
runtime splits that command line into exactly those arguments: empty ones, ones with blanks,
quotes and backslashes included. -/
theorem flattenArgs_roundTrip (args : List (List Char)) (h : ∀ a ∈ args, a.length < 2 ^ 32) :
    ∃ cmd, (flattenArgs args).2 = cmd ++ ['\x00'] ∧ splitCommandLine cmd = args := by
  refine ⟨(args.map (writeArg [])).flatten, by rw [flattenArgs, foldl_writeArg, List.nil_append], ?_⟩
  rw [splitCommandLine, show (⟨[], none, false, 0⟩ : ArgvState) = between [] from rfl,
    foldl_step_flatten args h, List.nil_append]
  rfl

/-- An argument with a blank, one with a backslash before a quote, and an empty one. -/
theorem flattenArgs_roundTrip_three :
    (∀ a ∈ [['a', ' ', 'b'], ['\\', '"'], []], a.length < 2 ^ 32) ∧
    ∃ cmd, (flattenArgs [['a', ' ', 'b'], ['\\', '"'], []]).2 = cmd ++ ['\x00'] ∧
      splitCommandLine cmd = [['a', ' ', 'b'], ['\\', '"'], []] :=
  ⟨by decide, flattenArgs_roundTrip _ (by decide)⟩

end Keystone.Windows
