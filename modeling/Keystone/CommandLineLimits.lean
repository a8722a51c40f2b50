import Mathlib.Algebra.Order.Ring.Nat
import Keystone.Windows.CommandLine

/-!
# `commandLineFitsWithinSystemLimits`

Both implementations add up a count of the command line, the program first and then each
argument, and return `false` as soon as the count passes the limit: on Unix the program's and
each argument's length and one more, against half of `sysconf(_SC_ARG_MAX)`, unless that is
`-1`; on Windows `ArgLenWithQuotes` of each and the spaces, against the `32768` characters of
`CreateProcess`.

## Design

The loop is one definition, `fitsLoop`, with the limit, the count so far and the cost of an
argument as parameters; each implementation is that loop applied to its own values. Counts are
`size_t`, 64 bits; their sums are of sizes of objects in memory and the loop stops past a limit
below `2 ^ 64`, so they cannot wrap and are `Nat`. The Windows costs are `unsigned` sums, which
can, and stay `BitVec 32`.

## Main results

* `Keystone.fitsLoop_eq` — the early exit is the comparison of the total, for at least one
  argument.
* `Keystone.commandLineFitsWithinSystemLimits_eq` — what each implementation decides, and that
  the Windows count is the buffer `flattenArgs` allocates for the program and the arguments.
-/

namespace Keystone

/-- The loop of `commandLineFitsWithinSystemLimits` from the count `argLength`: each argument
adds its cost, and the loop returns `false` as soon as the count passes `bound`. -/
def fitsLoop (bound : Nat) (cost : List Char → Nat) (argLength : Nat) : List (List Char) → Bool
  | [] => true
  | arg :: args =>
    let argLength := argLength + cost arg
    if argLength > bound then false else fitsLoop bound cost argLength args

/-- **The early exit compares the total.** The loop accepts exactly when there is no argument,
whatever the count it starts from, or the count with every argument's cost is within the
bound: the counts only grow, so the first to pass the bound is there exactly when the last
is. -/
theorem fitsLoop_eq (bound : Nat) (cost : List Char → Nat) :
    ∀ (argLength : Nat) (args : List (List Char)),
      fitsLoop bound cost argLength args =
        (args.isEmpty || decide (argLength + (args.map cost).sum ≤ bound))
  | _, [] => rfl
  | argLength, arg :: args => by
    rw [fitsLoop, List.map_cons, List.sum_cons]
    split_ifs with h
    · simp only [List.isEmpty_cons, Bool.false_or, Bool.false_eq, decide_eq_false_iff_not]
      omega
    · rw [fitsLoop_eq bound cost (argLength + cost arg) args]
      cases args with
      | nil => simp; omega
      | cons a args => simp only [List.isEmpty_cons, Bool.false_or, Nat.add_assoc]

namespace Unix

/-- `commandLineFitsWithinSystemLimits(Program, Args)` on Unix, with `ArgMax` what
`sysconf(_SC_ARG_MAX)` returned: `true` for `-1`; otherwise the loop from
`Program.size() + 1`, each argument costing `strlen` and one, against `size_t(ArgMax / 2)`. -/
def commandLineFitsWithinSystemLimits (argMax : Int) (program : List Char)
    (args : List (List Char)) : Bool :=
  if argMax = -1 then true
  else
    let halfArgMax := argMax.tdiv 2
    fitsLoop (halfArgMax % 2 ^ 64).toNat (fun arg => arg.length + 1) (program.length + 1) args

end Unix

namespace Windows

/-- `MaxCommandStringLength`, the documented longest command line of `CreateProcess`. -/
def maxCommandStringLength : Nat := 32768

/-- `commandLineFitsWithinSystemLimits(Program, Args)` on Windows: the loop from
`ArgLenWithQuotes(Program) + 2`, each argument costing `ArgLenWithQuotes` and one, both sums in
`unsigned`, against `MaxCommandStringLength`. -/
def commandLineFitsWithinSystemLimits (program : List Char) (args : List (List Char)) : Bool :=
  fitsLoop maxCommandStringLength (fun arg => (argLenWithQuotes arg + 1).toNat)
    (argLenWithQuotes program + 2).toNat args

/-- The buffer `flattenArgs` allocates for a program and its arguments is the count of
`commandLineFitsWithinSystemLimits`, modulo `2 ^ 32`. -/
theorem flattenArgs_cons_size (program : List Char) (args : List (List Char)) :
    (flattenArgs (program :: args)).1.toNat =
      ((argLenWithQuotes program + 2).toNat +
        (args.map fun arg => (argLenWithQuotes arg + 1).toNat).sum) % 2 ^ 32 := by
  have h1 : (1 : BitVec 32).toNat = 1 := rfl
  have h2 : (2 : BitVec 32).toNat = 2 := rfl
  have hsum : ∀ (args : List (List Char)) (len : BitVec 32),
      (args.foldl (fun len arg => len + (argLenWithQuotes arg + 1)) len).toNat =
        (len.toNat + (args.map fun arg => (argLenWithQuotes arg + 1).toNat).sum) % 2 ^ 32 := by
    intro args
    induction args with
    | nil => intro len; simp [Nat.mod_eq_of_lt len.isLt]
    | cons arg args ih =>
      intro len
      rw [List.foldl_cons, ih, List.map_cons, List.sum_cons, BitVec.toNat_add]
      omega
  have h0 : (0 : BitVec 32).toNat = 0 := rfl
  simp only [flattenArgs, List.foldl_cons, BitVec.toNat_add, hsum, h0, h1, h2, Nat.zero_add]
  omega

end Windows

/-- **What `commandLineFitsWithinSystemLimits` decides.** On Unix: `true` exactly when
`sysconf` reported no limit, or there is no argument, or the program's length and one, with each
argument's length and one, is at most `size_t(ArgMax / 2)`. On Windows: `true` exactly when there
is no argument, or `ArgLenWithQuotes(Program) + 2` with each argument's `ArgLenWithQuotes` and
one is at most `32768`; that count is, modulo `2 ^ 32`, the buffer `flattenArgs` allocates for
the program and the arguments. With no argument both accept a program of any length. -/
theorem commandLineFitsWithinSystemLimits_eq (argMax : Int) (program : List Char)
    (args : List (List Char)) :
    Unix.commandLineFitsWithinSystemLimits argMax program args =
      (decide (argMax = -1) || args.isEmpty ||
        decide (program.length + 1 + (args.map fun arg => arg.length + 1).sum ≤
          (argMax.tdiv 2 % 2 ^ 64).toNat)) ∧
    Windows.commandLineFitsWithinSystemLimits program args =
      (args.isEmpty || decide ((Windows.argLenWithQuotes program + 2).toNat +
        (args.map fun arg => (Windows.argLenWithQuotes arg + 1).toNat).sum ≤
          Windows.maxCommandStringLength)) ∧
    (Windows.flattenArgs (program :: args)).1.toNat =
      ((Windows.argLenWithQuotes program + 2).toNat +
        (args.map fun arg => (Windows.argLenWithQuotes arg + 1).toNat).sum) % 2 ^ 32 := by
  refine ⟨?_, fitsLoop_eq _ _ _ _, Windows.flattenArgs_cons_size program args⟩
  rw [Unix.commandLineFitsWithinSystemLimits]
  by_cases h : argMax = -1
  · simp [h]
  · rw [if_neg h, decide_eq_false h, Bool.false_or]
    exact fitsLoop_eq _ _ _ _

end Keystone
