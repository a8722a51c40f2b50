import Mathlib.Data.BitVec
import Mathlib.Data.List.Basic

/-!
# `StringMatcher`

`StringMatcher.cpp` writes C++ code that takes a string `Str` and runs the code of the pair whose
key is `Str`. It switches on `Str.size()`, then, character by character, either switches on the
character or, when all remaining keys agree on the next characters, tests them with `if` and
`memcmp` and `break`s out when they differ. A run of keys that are all equal is reported with
`PrintFatalError("Had duplicate keys to match on")` unless `IgnoreDuplicates` is set.

## Design

The emitted code is the syntax tree `Stmt`; its meaning is `exec`, which follows C: a
`switch` jumps to the case whose label is the value, or to `default: break;`, and runs the case
bodies from there on, falling through to the next body when one completes without `break`. A
`break` leaves the innermost `switch`. The code of a pair is taken to leave the matcher (in the
generated functions it `return`s): reaching it is the result.

Characters are bytes (`BitVec 8`); the buckets of `MatchesByLetter` are in `char` order, which is
signed, and those of `MatchesByLength` in `unsigned` order. The indentation, the comments and the
escaping of the written text are left out.

`EmitStringMatcherForChar` recurses on the remaining length of the keys; the model carries that
bound as `fuel`, which `Emit` sets to the keys' length plus one.

## Main definitions

* `Keystone.TableGen.StringMatcher.Stmt`, `.exec` — the code written and its meaning.
* `Keystone.TableGen.StringMatcher.buckets` — `std::map` buckets filled with `push_back`.
* `Keystone.TableGen.StringMatcher.findFirstNonCommonLetter`.
* `Keystone.TableGen.StringMatcher.emitStringMatcherForChar`, `.emit`.
* `Keystone.TableGen.StringMatcher.runMatcher` — the pair code the written matcher runs.
-/

namespace Keystone.TableGen.StringMatcher

/-- `StringMatcher::StringPair`: a key, and the code to run when `Str` is the key. -/
abbrev StringPair := List (BitVec 8) × String

/-- What a `switch` switches on: `Str.size()`, or the character `Str[CharNo]`. -/
inductive Subject
  | size
  | char (charNo : Nat)
  deriving DecidableEq, Repr

/-- The code `StringMatcher` writes. -/
inductive Stmt
  /-- The code of a pair. -/
  | run (code : String)
  /-- `if (Str[CharNo] != 'c') break;`, then `next`. -/
  | ifCharNe (charNo : Nat) (c : BitVec 8) (next : Stmt)
  /-- `if (memcmp(Str.data()+CharNo, "s", n)) break;` for the `n` characters `s`, then `next`. -/
  | ifMemcmp (charNo : Nat) (s : List (BitVec 8)) (next : Stmt)
  /-- `switch (subject) { default: break; case label: body [break;] ... }`, each case with its
  label, its body, and whether `break;` follows the body. -/
  | switch (subject : Subject) (cases : List (Nat × Stmt × Bool))
  deriving Repr

/-- How a statement ends: the code of a pair was reached, a `break` was executed, or control
went on past the statement. -/
inductive Res
  | ran (code : String)
  | brk
  | normal
  deriving DecidableEq, Repr

/-- The code a result reached, if any. -/
def Res.code? : Res → Option String
  | .ran code => some code
  | _ => none

/-- The value a `switch` compares with its labels. -/
def Subject.value (str : List (BitVec 8)) : Subject → Nat
  | .size => str.length
  | .char charNo => (str.getD charNo 0).toNat

mutual

/-- The meaning of the written code on the input `Str`. -/
def exec (str : List (BitVec 8)) : Stmt → Res
  | .run code => .ran code
  | .ifCharNe charNo c next => if str.getD charNo 0 ≠ c then .brk else exec str next
  | .ifMemcmp charNo s next => if (str.drop charNo).take s.length ≠ s then .brk else exec str next
  | .switch subject cases => execCases str (subject.value str) cases false

/-- The cases of a `switch` on `v`, from the first whose label is `v` (or, once `entered`, from
the first): a body's `break` leaves the `switch`; a body that completes goes on to the `break;`
after it, if any, or falls through to the next body. No case: `default: break;`. -/
def execCases (str : List (BitVec 8)) (v : Nat) : List (Nat × Stmt × Bool) → Bool → Res
  | [], _ => .normal
  | (label, body, brk) :: rest, entered =>
    if entered || label = v then
      match exec str body with
      | .ran code => .ran code
      | .brk => .normal
      | .normal => if brk then .normal else execCases str v rest true
    else execCases str v rest false

end

/-! ### Buckets -/

/-- `Map[k].push_back(p)` on a `std::map` kept as its entries in `lt` order. -/
def pushBack {κ β : Type} [DecidableEq κ] (lt : κ → κ → Bool) (k : κ) (p : β) :
    List (κ × List β) → List (κ × List β)
  | [] => [(k, [p])]
  | (k', ps) :: rest =>
    if k' = k then (k', ps ++ [p]) :: rest
    else if lt k k' then (k, [p]) :: (k', ps) :: rest
    else (k', ps) :: pushBack lt k p rest

/-- The buckets of a `std::map<K, std::vector<const StringPair*>>` filled by `push_back` in the
order of the pairs. -/
def buckets {κ β : Type} [DecidableEq κ] (lt : κ → κ → Bool) (key : β → κ) (ps : List β) :
    List (κ × List β) :=
  ps.foldl (fun m p => pushBack lt (key p) p m) []

/-- `MatchesByLetter`: the pairs by their character `CharNo`, in `char` order. -/
def matchesByLetter (pairs : List StringPair) (charNo : Nat) :
    List (BitVec 8 × List StringPair) :=
  buckets (fun a b => a.slt b) (fun p => p.1.getD charNo 0) pairs

/-- `MatchesByLength`: the pairs by the size of their key, in `unsigned` order. -/
def matchesByLength (pairs : List StringPair) : List (Nat × List StringPair) :=
  buckets (fun a b => decide (a < b)) (fun p => p.1.length) pairs

/-! ### The emitter -/

/-- The loop of `FindFirstNonCommonLetter` from position `i`, over the letters of `Matches[0]`
from there: the first position where some key has another letter. -/
def findFirstNonCommonLetterFrom (pairs : List StringPair) : List (BitVec 8) → Nat → Nat
  | [], i => i
  | letter :: rest, i =>
    if pairs.all fun p => p.1[i]? == some letter then findFirstNonCommonLetterFrom pairs rest (i + 1)
    else i

/-- `FindFirstNonCommonLetter`: the first position where the keys do not all agree. -/
def findFirstNonCommonLetter (pairs : List StringPair) : Nat :=
  match pairs with
  | [] => 0
  | m :: _ => findFirstNonCommonLetterFrom pairs m.1 0

/-- The message of `PrintFatalError` in `EmitStringMatcherForChar`. -/
def duplicateKeys : String := "Had duplicate keys to match on"

/-- `EmitStringMatcherForChar(Matches, CharNo, IndentCount, IgnoreDuplicates)`: the code written
for pairs whose keys have one length and agree before `CharNo`, and whether control can leave it
at its end; an error for `PrintFatalError`. The empty `Matches` of the `assert` and running out
of `fuel` give `.error ""`. -/
def emitStringMatcherForChar (ignoreDuplicates : Bool) :
    Nat → List StringPair → Nat → Except String (Stmt × Bool)
  | 0, _, _ => .error ""
  | _ + 1, [], _ => .error ""
  | fuel + 1, m :: ms, charNo =>
    if charNo = m.1.length then
      if (m :: ms).length > 1 && !ignoreDuplicates then .error duplicateKeys
      else .ok (.run m.2, false)
    else
      let byLetter := matchesByLetter (m :: ms) charNo
      if byLetter.length = 1 then
        let first := findFirstNonCommonLetter (m :: ms)
        let numChars := first - charNo
        let test := if numChars = 1 then Stmt.ifCharNe charNo (m.1.getD charNo 0)
          else Stmt.ifMemcmp charNo ((m.1.drop charNo).take numChars)
        (emitStringMatcherForChar ignoreDuplicates fuel (m :: ms) first).map
          fun r => (test r.1, r.2)
      else do
        let cases ← byLetter.mapM fun b => do
          let r ← emitStringMatcherForChar ignoreDuplicates fuel b.2 (charNo + 1)
          pure (b.1.toNat, r.1, r.2)
        pure (.switch (.char charNo) cases, true)

/-- `Emit`: nothing for no pairs; otherwise a `switch` on `Str.size()` with one case per key
length, its body from `EmitStringMatcherForChar` at `CharNo = 0`, and `break;` after it when
control can leave it. -/
def emit (ignoreDuplicates : Bool) (pairs : List StringPair) : Except String (Option Stmt) :=
  if pairs.isEmpty then .ok none
  else do
    let cases ← (matchesByLength pairs).mapM fun b => do
      let r ← emitStringMatcherForChar ignoreDuplicates (b.1 + 1) b.2 0
      pure (b.1, r.1, r.2)
    pure (some (.switch .size cases))

/-- The code of a pair that the written matcher runs on `Str`, if any. -/
def runMatcher (str : List (BitVec 8)) : Option Stmt → Option String
  | none => none
  | some s => (exec str s).code?

end Keystone.TableGen.StringMatcher
