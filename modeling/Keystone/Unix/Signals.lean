import Mathlib.Logic.Relation
import Mathlib.Data.List.Nodup

/-!
# The Unix signal handlers

`RegisterHandlers` installs `SignalHandler` for each signal of `IntSigs` and `KillSigs`, saving
the disposition it replaces in the static array `RegisteredSignalInfo` and counting the entries
in `NumRegisteredSignals`; `RegisterHandler` asserts there is room. `UnregisterHandlers`
restores the saved dispositions. The public functions register a file to remove, an interrupt
function or a callback, and then call `RegisterHandlers`; `SignalHandler`, run when a signal is
delivered, unregisters first, removes the files, and runs the interrupt function once, raises
the signal again, or runs the callbacks.

## Design

One thread runs the public functions, and a signal can reach it between any two statements,
also inside `RegisterHandlers`' loop and inside `SignalHandler` itself: `sigaction` is called
with `SA_NODEFER` and an empty mask, and the file blocks no signal. Nothing is locked against
it: `SignalsMutex` is recursive and taken by the one thread, so it never waits. A state is the
dispositions, the globals, the main program's code and the stack of `SignalHandler` activations
running on top of it, innermost first; `execStep` runs one statement of the innermost, and
`State.deliver` is the OS delivering a signal: for `SignalHandler`'s disposition it resets it to
`SIG_DFL` (`SA_RESETHAND`) and starts a new activation. A delivery to another disposition leaves
the file's state alone, whether or not it ends the process: the runs of the model include every
run of the program. The code is the one a release build (`NDEBUG`) runs: `RegisterHandler`'s
`assert` is compiled out, and an access past the end of `RegisteredSignalInfo`, like a call of a
null interrupt function, is undefined behaviour, where `execStep` stops.

## Main definitions

* `Keystone.Unix.execStep`, `Keystone.Unix.State.deliver` — a statement, and a delivery.
* `Keystone.Unix.Reachable` — the states of the runs from the start, with the flag `atomicLoop`
  for the runs in which no signal arrives inside `RegisterHandlers`' loop.
* `Keystone.Unix.Registry` — the dispositions are the originals, or the originals with
  `SignalHandler` on the platform's signals and the originals saved.

## Main results

* `Keystone.Unix.reachable_not_outOfBounds` — in every run, every access of
  `RegisteredSignalInfo` is in bounds: the `assert` of `RegisterHandler` holds.
* `Keystone.Unix.reachable_registry` — when no signal arrives inside the loop, the registry holds
  whenever no handler runs, and the program never stops short.
* `Keystone.Unix.reachable_runInterrupt_le` — and the interrupt function runs at most once per
  `SetInterruptFunction` that sets one, never as a null pointer.

Without the restriction on the loop, `registry_broken_by_signal_inLoop` and
`interrupt_runs_twice_by_signal_inLoop` give runs where the calls end with the registry half
made, and where the interrupt function runs twice; an example after them calls a null `IF`.

The invariant of the restricted runs, `Inv`, is `Bounded` with a `Mode`, where the main program
and the stack of activations are, and a count of the interrupt functions run, pending and still
to be set (`State.tally`). A step lemma per kind of statement keeps it (`Mode.run_idle`,
`LoopAt.run`, `Mode.run_busy`, `Mode.run_quiet`, `Mode.deliver`, `Mode.ret`), and
`Reachable.inv` gives it on every run.
-/

namespace Keystone.Unix

/-- A signal's disposition, what `sigaction` installs and saves: `SIG_DFL`, `SIG_IGN`, a handler
of another part of the process, or this file's `SignalHandler`. -/
inductive SigAction
  | dfl
  | ign
  | handler (n : Nat)
  | signalHandler
  deriving DecidableEq, Repr

/-- The signal numbers of a platform, as its `SIG*` macros give them: `IntSigs`, then
`KillSigs`, no number twice. -/
structure Platform where
  intSigs : List Nat
  killSigs : List Nat
  nodup : (intSigs ++ killSigs).Nodup

namespace Platform

/-- The signals `RegisterHandlers` registers, in order. -/
def sigs (p : Platform) : List Nat := p.intSigs ++ p.killSigs

/-- `array_lengthof(RegisteredSignalInfo)`. -/
def capacity (p : Platform) : Nat := p.intSigs.length + p.killSigs.length

theorem length_sigs (p : Platform) : p.sigs.length = p.capacity := List.length_append _ _

end Platform

/-- Linux on x86-64: `SIGHUP`, `SIGINT`, `SIGPIPE`, `SIGTERM`, `SIGUSR1`, `SIGUSR2`; `SIGILL`,
`SIGTRAP`, `SIGABRT`, `SIGFPE`, `SIGBUS`, `SIGSEGV`, `SIGQUIT`, `SIGSYS`, `SIGXCPU`, `SIGXFSZ`
(there is no `SIGEMT`). -/
def linux : Platform where
  intSigs := [1, 2, 13, 15, 10, 12]
  killSigs := [4, 5, 6, 8, 7, 11, 3, 31, 24, 25]
  nodup := by decide

/-- What the file does beyond its globals. -/
inductive Effect
  /-- `RemoveFilesToRemove()` unlinks those of the files that are regular files. -/
  | removeFiles (files : List String)
  /-- The interrupt function runs. -/
  | runInterrupt (f : Nat)
  /-- `raise(Sig)` reaches a disposition other than `SignalHandler`. -/
  | raise (sig : Nat)
  /-- `RunSignalHandlers()`. -/
  | runSignalHandlers
  deriving DecidableEq, Repr

/-- The statements of the file, each run with no signal coming between its parts. -/
inductive Instr
  /-- `InterruptFunction = IF`. -/
  | setInterruptFunction (f : Option Nat)
  /-- `FilesToRemove->push_back(Filename)`. -/
  | pushFileToRemove (filename : String)
  /-- `DontRemoveFileOnSignal`'s `std::find` from the back and `erase`. -/
  | eraseFileToRemove (filename : String)
  /-- `CallBacksToRun->push_back(...)`. -/
  | pushCallBack (fn : Nat)
  /-- `RegisterHandlers()`: its test `if (NumRegisteredSignals != 0) return`. -/
  | registerHandlers
  /-- The loop of `RegisterHandlers` over the signals `gs` left, and for the first of them the
  `sigaction` of `RegisterHandler`, which saves the old disposition in the entry
  `NumRegisteredSignals`. -/
  | registerHandler (gs : List Nat)
  /-- `RegisteredSignalInfo[NumRegisteredSignals].SigNo = Signal`. -/
  | setSigNo (sig : Nat)
  /-- `++NumRegisteredSignals`. -/
  | incrementNumRegisteredSignals
  /-- `RemoveFilesToRemove()`. -/
  | removeFilesToRemove
  /-- `UnregisterHandlers()`: `e = NumRegisteredSignals`, read once. -/
  | unregisterHandlers
  /-- The loop of `UnregisterHandlers` at `i`: the `sigaction` restoring entry `i`. -/
  | restoreHandler (i e : Nat)
  /-- `NumRegisteredSignals = 0`. -/
  | clearNumRegisteredSignals
  /-- `if (InterruptFunction)`, in `SignalHandler` for a signal of `IntSigs`. -/
  | testInterruptFunction (sig : Nat)
  /-- `IF = InterruptFunction`. -/
  | loadInterruptFunction
  /-- `InterruptFunction = nullptr`. -/
  | clearInterruptFunction
  /-- `IF()`. -/
  | callInterruptFunction
  /-- `raise(Sig)`. -/
  | raise (sig : Nat)
  /-- `RunSignalHandlers()`. -/
  | runSignalHandlers
  deriving DecidableEq, Repr

/-- What `SignalHandler(Sig)` does once `UnregisterHandlers` has returned: remove the files, then
for a signal of `IntSigs` run the interrupt function or raise the signal, for the others run the
callbacks. -/
def afterUnregister (p : Platform) (sig : Nat) : List Instr :=
  [.removeFilesToRemove,
    if sig ∈ p.intSigs then .testInterruptFunction sig else .runSignalHandlers]

/-- The code of `SignalHandler(Sig)`. Unblocking the signals and taking `SignalsMutex` change
nothing the model holds. -/
def signalHandler (p : Platform) (sig : Nat) : List Instr :=
  .unregisterHandlers :: afterUnregister p sig

/-- A call of a public function. -/
inductive Call
  | setInterruptFunction (f : Option Nat)
  | removeFileOnSignal (filename : String)
  | dontRemoveFileOnSignal (filename : String)
  | addSignalHandler (fn : Nat)
  | runInterruptHandlers
  deriving DecidableEq, Repr

/-- The code of a call: `SetInterruptFunction`, `RemoveFileOnSignal` and `AddSignalHandler`
change their global, then call `RegisterHandlers`. -/
def Call.code : Call → List Instr
  | .setInterruptFunction f => [.setInterruptFunction f, .registerHandlers]
  | .removeFileOnSignal filename => [.pushFileToRemove filename, .registerHandlers]
  | .dontRemoveFileOnSignal filename => [.eraseFileToRemove filename]
  | .addSignalHandler fn => [.pushCallBack fn, .registerHandlers]
  | .runInterruptHandlers => [.removeFilesToRemove]

/-- An activation of `SignalHandler`: its code left, and its local `IF`. -/
structure Frame where
  code : List Instr
  interrupt : Option Nat
  deriving DecidableEq, Repr

/-- The dispositions, the file's globals, the code the main program has left, and the
activations of `SignalHandler` on top of it, innermost first. `RegisteredSignalInfo` is the
static array, each entry the saved disposition `SA` and the signal `SigNo`; the model holds one
entry for every index, of which the first `array_lengthof(RegisteredSignalInfo)` exist. -/
structure State where
  actions : Nat → SigAction
  numRegisteredSignals : Nat
  registeredSignalInfo : Nat → SigAction × Nat
  interruptFunction : Option Nat
  filesToRemove : List String
  callBacksToRun : List Nat
  main : List Instr
  handlers : List Frame
  effects : List Effect

namespace State

/-- The code the running activation has left: the innermost `SignalHandler`'s, or the main
program's. -/
def code (s : State) : List Instr :=
  match s.handlers with
  | [] => s.main
  | fr :: _ => fr.code

/-- The running activation goes on with the code `k`. -/
def setCode (s : State) (k : List Instr) : State :=
  match s.handlers with
  | [] => { s with main := k }
  | fr :: frs => { s with handlers := { fr with code := k } :: frs }

/-- The local `IF` of the running activation of `SignalHandler`. -/
def interrupt (s : State) : Option Nat :=
  match s.handlers with
  | [] => none
  | fr :: _ => fr.interrupt

/-- The running activation of `SignalHandler` sets its local `IF`. -/
def setInterrupt (s : State) (f : Option Nat) : State :=
  match s.handlers with
  | [] => s
  | fr :: frs => { s with handlers := { fr with interrupt := f } :: frs }

/-- The OS delivers `sig`: to `SignalHandler`, after resetting the disposition to `SIG_DFL`;
any other disposition leaves the file's state as it is. -/
def deliver (p : Platform) (s : State) (sig : Nat) : State :=
  if s.actions sig = .signalHandler then
    { s with
      actions := Function.update s.actions sig .dfl
      handlers := ⟨signalHandler p sig, none⟩ :: s.handlers }
  else s

end State

/-- `std::find` from the back, then `erase`: the last occurrence of `filename` goes. -/
def eraseLast (filename : String) (files : List String) : List String :=
  (files.reverse.erase filename).reverse

/-- One statement, run by the running activation, whose code `s.code` is what follows it:
`none` where it reads or writes past the end of `RegisteredSignalInfo`, or calls a null
interrupt function. -/
def Instr.run (p : Platform) (s : State) : Instr → Option State
  | .setInterruptFunction f => some { s with interruptFunction := f }
  | .pushFileToRemove filename => some { s with filesToRemove := s.filesToRemove ++ [filename] }
  | .eraseFileToRemove filename =>
    some { s with filesToRemove := eraseLast filename s.filesToRemove }
  | .pushCallBack fn => some { s with callBacksToRun := s.callBacksToRun ++ [fn] }
  | .registerHandlers =>
    some (if s.numRegisteredSignals ≠ 0 then s else s.setCode (.registerHandler p.sigs :: s.code))
  | .registerHandler [] => some s
  | .registerHandler (g :: gs) =>
    if s.numRegisteredSignals < p.capacity then
      some ({ s with
        actions := Function.update s.actions g .signalHandler
        registeredSignalInfo := Function.update s.registeredSignalInfo s.numRegisteredSignals
          (s.actions g, (s.registeredSignalInfo s.numRegisteredSignals).2) }.setCode
        (.setSigNo g :: .incrementNumRegisteredSignals :: .registerHandler gs :: s.code))
    else none
  | .setSigNo g =>
    if s.numRegisteredSignals < p.capacity then
      some { s with
        registeredSignalInfo := Function.update s.registeredSignalInfo s.numRegisteredSignals
          ((s.registeredSignalInfo s.numRegisteredSignals).1, g) }
    else none
  | .incrementNumRegisteredSignals =>
    some { s with numRegisteredSignals := s.numRegisteredSignals + 1 }
  | .removeFilesToRemove => some { s with effects := s.effects ++ [.removeFiles s.filesToRemove] }
  | .unregisterHandlers =>
    some (s.setCode (.restoreHandler 0 s.numRegisteredSignals :: .clearNumRegisteredSignals ::
      s.code))
  | .restoreHandler i e =>
    if i = e then some s
    else if i < p.capacity then
      some ({ s with
        actions := Function.update s.actions (s.registeredSignalInfo i).2
          (s.registeredSignalInfo i).1 }.setCode (.restoreHandler (i + 1) e :: s.code))
    else none
  | .clearNumRegisteredSignals => some { s with numRegisteredSignals := 0 }
  | .testInterruptFunction sig =>
    some (s.setCode (if s.interruptFunction.isSome then
      .loadInterruptFunction :: .clearInterruptFunction :: .callInterruptFunction :: s.code
      else .raise sig :: s.code))
  | .loadInterruptFunction => some (s.setInterrupt s.interruptFunction)
  | .clearInterruptFunction => some { s with interruptFunction := none }
  | .callInterruptFunction =>
    s.interrupt.map fun f => { s with effects := s.effects ++ [.runInterrupt f] }
  | .raise sig =>
    some (if s.actions sig = .signalHandler then s.deliver p sig
      else { s with effects := s.effects ++ [.raise sig] })
  | .runSignalHandlers => some { s with effects := s.effects ++ [.runSignalHandlers] }

/-- One statement of the running activation, or the return of a `SignalHandler` with nothing
left; `none` when the main program has finished, or at undefined behaviour. -/
def execStep (p : Platform) (s : State) : Option State :=
  match s.handlers with
  | [] =>
    match s.main with
    | [] => none
    | ins :: k => ins.run p { s with main := k }
  | fr :: frs =>
    match fr.code with
    | [] => some { s with handlers := frs }
    | ins :: k => ins.run p { s with handlers := { fr with code := k } :: frs }

/-- The main program is inside `RegisterHandlers`' loop, between its test and its end. -/
def State.inRegisterLoop (s : State) : Bool :=
  s.handlers.isEmpty &&
    match s.main with
    | .registerHandler _ :: _ | .setSigNo _ :: _ | .incrementNumRegisteredSignals :: _ => true
    | _ => false

/-- A step of the process: a statement, or a signal arriving, with `atomicLoop` not inside
`RegisterHandlers`' loop. -/
inductive Step (p : Platform) (atomicLoop : Bool) : State → State → Prop
  | exec {s s' : State} : execStep p s = some s' → Step p atomicLoop s s'
  | deliver {s : State} (sig : Nat) : (atomicLoop = true → s.inRegisterLoop = false) →
      Step p atomicLoop s (s.deliver p sig)

/-- The start of the process: the dispositions `t0`, nothing registered, the static array
zeroed, and the main program to make the calls `calls`. -/
def State.init (t0 : Nat → SigAction) (calls : List Call) : State where
  actions := t0
  numRegisteredSignals := 0
  registeredSignalInfo _ := (.dfl, 0)
  interruptFunction := none
  filesToRemove := []
  callBacksToRun := []
  main := calls.flatMap Call.code
  handlers := []
  effects := []

/-- The states of the runs from the start. -/
def Reachable (p : Platform) (t0 : Nat → SigAction) (calls : List Call) (atomicLoop : Bool)
    (s : State) : Prop :=
  Relation.ReflTransGen (Step p atomicLoop) (State.init t0 calls) s

/-- The running activation is about to access `RegisteredSignalInfo` past its end. -/
def State.outOfBounds (p : Platform) (s : State) : Prop :=
  match s.code with
  | .registerHandler (_ :: _) :: _ | .setSigNo _ :: _ => p.capacity ≤ s.numRegisteredSignals
  | .restoreHandler i e :: _ => i ≠ e ∧ p.capacity ≤ i
  | _ => False

/-- The running activation is about to call its local `IF`, a null pointer. -/
def State.callsNull (s : State) : Prop :=
  s.code.head? = some .callInterruptFunction ∧ s.interrupt = none

/-! ### What one step does -/

namespace State

variable {s : State} {k : List Instr} {fr : Frame} {frs : List Frame}

theorem code_of_nil (h : s.handlers = []) : s.code = s.main := by simp [code, h]

theorem code_of_cons (h : s.handlers = fr :: frs) : s.code = fr.code := by simp [code, h]

theorem setCode_of_nil (h : s.handlers = []) : s.setCode k = { s with main := k } := by
  simp [setCode, h]

theorem setCode_of_cons (h : s.handlers = fr :: frs) :
    s.setCode k = { s with handlers := { fr with code := k } :: frs } := by
  simp [setCode, h]

@[simp] theorem numRegisteredSignals_setCode :
    (s.setCode k).numRegisteredSignals = s.numRegisteredSignals := by
  unfold setCode
  split <;> rfl

@[simp] theorem interrupt_setCode : (s.setCode k).interrupt = s.interrupt := by
  cases h : s.handlers <;> simp [setCode, interrupt, h]

end State

/-- What one step of `execStep` is: the return of an activation with nothing left, or a
statement of the running activation. -/
inductive ExecStep (p : Platform) (s : State) : State → Prop
  | ret {fr : Frame} {frs : List Frame} : s.handlers = fr :: frs → fr.code = [] →
      ExecStep p s { s with handlers := frs }
  | run {ins : Instr} {k : List Instr} {s' : State} : s.code = ins :: k →
      ins.run p (s.setCode k) = some s' → ExecStep p s s'

/-- **Inversion lemma** for `execStep`. -/
theorem execStep_eq_some {p : Platform} {s s' : State} (h : execStep p s = some s') :
    ExecStep p s s' := by
  unfold execStep at h
  split at h
  next hh =>
    split at h
    next => cases h
    next ins k hm =>
      exact @ExecStep.run p s ins k s' (by simp [State.code, hh, hm])
        (by simpa [State.setCode, hh] using h)
  next fr frs hh =>
    split at h
    next hc =>
      cases h
      exact .ret hh hc
    next ins k hc =>
      exact @ExecStep.run p s ins k s' (by simp [State.code, hh, hc])
        (by simpa [State.setCode, hh] using h)

/-! ### Every run stays within `RegisteredSignalInfo` -/

/-- The statements of the public functions. -/
def Instr.isPublic : Instr → Bool
  | .setInterruptFunction _ | .pushFileToRemove _ | .eraseFileToRemove _ | .pushCallBack _
  | .registerHandlers | .removeFilesToRemove => true
  | _ => false

/-- How many more times the statement leads to `++NumRegisteredSignals`. -/
def Instr.increments : Instr → Nat
  | .registerHandler gs => gs.length
  | .incrementNumRegisteredSignals => 1
  | _ => 0

/-- How many more times the code runs `++NumRegisteredSignals`. -/
def increments : List Instr → Nat
  | [] => 0
  | ins :: k => ins.increments + increments k

@[simp] theorem increments_nil : increments [] = 0 := rfl

@[simp] theorem increments_cons (ins : Instr) (k : List Instr) :
    increments (ins :: k) = ins.increments + increments k := rfl

theorem Instr.increments_of_isPublic {ins : Instr} (h : ins.isPublic) : ins.increments = 0 := by
  cases ins <;> first | rfl | cases h

theorem increments_of_public {k : List Instr} (h : ∀ ins ∈ k, ins.isPublic) : increments k = 0 := by
  induction k with
  | nil => rfl
  | cons ins k ih =>
    rw [increments_cons, Instr.increments_of_isPublic (h ins (List.mem_cons_self _ _)),
      ih fun i hi => h i (List.mem_cons_of_mem _ hi)]

/-- The main program's code: calls of the public functions, after what is left of a run of
`RegisterHandlers`' loop. -/
inductive MainCode : List Instr → Prop
  | calls {k} : (∀ ins ∈ k, ins.isPublic) → MainCode k
  | loop {gs k} : (∀ ins ∈ k, ins.isPublic) → MainCode (.registerHandler gs :: k)
  | sigNo {g gs k} : (∀ ins ∈ k, ins.isPublic) →
      MainCode (.setSigNo g :: .incrementNumRegisteredSignals :: .registerHandler gs :: k)
  | increment {gs k} : (∀ ins ∈ k, ins.isPublic) →
      MainCode (.incrementNumRegisteredSignals :: .registerHandler gs :: k)

/-- The code an activation of `SignalHandler(Sig)` has left. -/
inductive HandlerCode (p : Platform) (sig : Nat) : List Instr → Prop
  | start : HandlerCode p sig (signalHandler p sig)
  | restoring {i e : Nat} : i ≤ e → e ≤ p.capacity →
      HandlerCode p sig (.restoreHandler i e :: .clearNumRegisteredSignals :: afterUnregister p sig)
  | clearing : HandlerCode p sig (.clearNumRegisteredSignals :: afterUnregister p sig)
  | removing : HandlerCode p sig (afterUnregister p sig)
  | testing : HandlerCode p sig
      [if sig ∈ p.intSigs then .testInterruptFunction sig else .runSignalHandlers]
  | loading : HandlerCode p sig
      [.loadInterruptFunction, .clearInterruptFunction, .callInterruptFunction]
  | clearingInterrupt : HandlerCode p sig [.clearInterruptFunction, .callInterruptFunction]
  | calling : HandlerCode p sig [.callInterruptFunction]
  | raising : HandlerCode p sig [.raise sig]
  | done : HandlerCode p sig []

/-- What every run keeps: the main program is in its calls or in `RegisterHandlers`' loop, with
no more `++NumRegisteredSignals` to come than the array has room for, and each activation of
`SignalHandler` is at one of its statements, restoring only entries that exist. -/
structure Bounded (p : Platform) (s : State) : Prop where
  main : MainCode s.main
  increments_le : s.numRegisteredSignals + increments s.main ≤ p.capacity
  handlers : ∀ fr ∈ s.handlers, ∃ sig, HandlerCode p sig fr.code

section Bounded

variable {p : Platform} {s s' : State} {ins : Instr} {k : List Instr} {fr : Frame}
  {frs : List Frame}

theorem Bounded.of_main (hh : s.handlers = []) (hm : MainCode s.main)
    (hn : s.numRegisteredSignals + increments s.main ≤ p.capacity) : Bounded p s :=
  ⟨hm, hn, by simp [hh]⟩

/-- **Step lemma** for the main program: a statement of it keeps `Bounded`. -/
theorem Bounded.run_main (hb : Bounded p s) (hh : s.handlers = []) (hk : s.main = ins :: k)
    (h : ins.run p (s.setCode k) = some s') : Bounded p s' := by
  have hn := hb.increments_le
  have hm := hb.main
  rw [hk, increments_cons] at hn
  rw [hk] at hm
  rw [State.setCode_of_nil hh] at h
  cases hm with
  | calls hpub =>
    have hk' : ∀ i ∈ k, i.isPublic := fun i hi => hpub i (List.mem_cons_of_mem _ hi)
    have hi := hpub ins (List.mem_cons_self _ _)
    rw [increments_of_public hk'] at hn
    cases ins <;> simp only [Instr.isPublic, Bool.false_eq_true] at hi <;>
      simp only [Instr.run, Option.some.injEq] at h <;> subst h
    case registerHandlers =>
      split_ifs with h0
      · exact .of_main hh (.calls hk') (by simpa [Instr.increments, increments_of_public hk'] using hn)
      · refine .of_main (by simp [State.setCode, hh]) ?_ ?_ <;>
          simp only [State.setCode, State.code, hh]
        · exact .loop hk'
        · simp [increments_of_public hk', Platform.length_sigs, Instr.increments, not_not.mp h0]
    all_goals exact .of_main hh (.calls hk') (by simpa [Instr.increments, increments_of_public hk'] using hn)
  | @loop gs _ hpub =>
    cases gs with
    | nil =>
      cases h
      exact .of_main hh (.calls hpub) (by simpa [increments_of_public hpub] using hn)
    | cons g gs =>
      simp only [Instr.run] at h
      split_ifs at h
      cases h
      refine .of_main (by simp [State.setCode, hh]) ?_ ?_ <;> simp only [State.setCode, State.code, hh]
      · exact .sigNo hpub
      · simp only [increments_cons, Instr.increments, List.length_cons] at hn ⊢
        omega
  | sigNo hpub =>
    simp only [Instr.run] at h
    split_ifs at h
    cases h
    exact .of_main hh (.increment hpub) (by simpa [Instr.increments] using hn)
  | increment hpub =>
    cases h
    exact .of_main hh (.loop hpub) (by simp [Instr.increments] at hn ⊢; omega)

theorem Bounded.of_handlers (hb : Bounded p s) (hh : s.handlers = fr :: frs) (hm : s'.main = s.main)
    (hn : s'.numRegisteredSignals ≤ s.numRegisteredSignals)
    (hfr : ∀ fr' ∈ s'.handlers, fr' ∈ frs ∨ ∃ sig, HandlerCode p sig fr'.code) : Bounded p s' where
  main := hm ▸ hb.main
  increments_le := by have := hb.increments_le; rw [hm]; omega
  handlers fr' h := (hfr fr' h).elim (fun h => hb.handlers fr' (by simp [hh, h])) id

/-- A step of the innermost activation that leaves it at a statement of `SignalHandler`. -/
theorem Bounded.of_top (hb : Bounded p s) (hh : s.handlers = fr :: frs) {fr' : Frame} {sig : Nat}
    (hm : s'.main = s.main) (hn : s'.numRegisteredSignals ≤ s.numRegisteredSignals)
    (hs : s'.handlers = fr' :: frs) (hc : HandlerCode p sig fr'.code) : Bounded p s' :=
  hb.of_handlers hh hm hn fun f h => by
    rw [hs] at h
    rcases List.mem_cons.mp h with rfl | h
    · exact .inr ⟨sig, hc⟩
    · exact .inl h

/-- **Step lemma** for `SignalHandler`: a statement of the running activation keeps
`Bounded`. -/
theorem Bounded.run_handler (hb : Bounded p s) (hh : s.handlers = fr :: frs)
    (hk : fr.code = ins :: k) (h : ins.run p (s.setCode k) = some s') : Bounded p s' := by
  obtain ⟨sig, hc⟩ := hb.handlers fr (by simp [hh])
  have hn : s.numRegisteredSignals ≤ p.capacity := by have := hb.increments_le; omega
  rw [hk] at hc
  rw [State.setCode_of_cons hh] at h
  cases hc with
  | start =>
    cases h
    exact hb.of_top hh rfl le_rfl rfl (.restoring (Nat.zero_le _) hn)
  | restoring hie hec =>
    simp only [Instr.run] at h
    split_ifs at h with h1 h2 <;> cases h
    · exact hb.of_top hh rfl le_rfl rfl .clearing
    · exact hb.of_top hh rfl le_rfl rfl (.restoring (by omega) hec)
  | clearing =>
    cases h
    exact hb.of_top hh rfl (Nat.zero_le _) rfl .removing
  | removing =>
    cases h
    exact hb.of_top hh rfl le_rfl rfl .testing
  | testing =>
    split_ifs at h <;> cases h
    · split_ifs
      · exact hb.of_top hh rfl le_rfl rfl (@HandlerCode.loading p sig)
      · exact hb.of_top hh rfl le_rfl rfl .raising
    · exact hb.of_top hh rfl le_rfl rfl (@HandlerCode.done p sig)
  | loading =>
    cases h
    exact hb.of_top hh rfl le_rfl rfl (@HandlerCode.clearingInterrupt p sig)
  | clearingInterrupt =>
    cases h
    exact hb.of_top hh rfl le_rfl rfl (@HandlerCode.calling p sig)
  | calling =>
    obtain ⟨f, -, rfl⟩ := Option.map_eq_some'.mp h
    exact hb.of_top hh rfl le_rfl rfl (@HandlerCode.done p sig)
  | raising =>
    cases h
    dsimp only
    split_ifs with hs
    · refine hb.of_handlers hh (by simp [State.deliver, hs]) (by simp [State.deliver, hs])
        fun fr' h => ?_
      simp only [State.deliver, hs, if_true] at h
      rcases List.mem_cons.mp h with rfl | h
      · exact .inr ⟨sig, .start⟩
      · rcases List.mem_cons.mp h with rfl | h
        · exact .inr ⟨sig, .done⟩
        · exact .inl h
    · exact hb.of_top hh rfl le_rfl rfl (@HandlerCode.done p sig)

/-- **Step lemma**: every step keeps `Bounded`, wherever the signals arrive. -/
theorem Bounded.step {atomicLoop : Bool} (hb : Bounded p s) (h : Step p atomicLoop s s') :
    Bounded p s' := by
  cases h with
  | exec h =>
    cases execStep_eq_some h with
    | ret hh _ => exact hb.of_handlers hh rfl le_rfl fun fr' h => .inl h
    | run hk h =>
      cases hh : s.handlers with
      | nil => exact hb.run_main hh (by rwa [State.code_of_nil hh] at hk) h
      | cons fr frs => exact hb.run_handler hh (by rwa [State.code_of_cons hh] at hk) h
  | deliver sig _ =>
    unfold State.deliver
    split_ifs
    · refine ⟨hb.main, hb.increments_le, fun fr' h => ?_⟩
      rcases List.mem_cons.mp h with rfl | h
      · exact ⟨sig, .start⟩
      · exact hb.handlers fr' h
    · exact hb

theorem isPublic_of_mem_code {calls : List Call} {ins : Instr}
    (h : ins ∈ calls.flatMap Call.code) : ins.isPublic := by
  obtain ⟨call, -, h⟩ := List.mem_flatMap.mp h
  cases call <;> simp [Call.code] at h <;> rcases h with rfl | rfl <;> rfl

theorem bounded_init (p : Platform) (t0 : Nat → SigAction) (calls : List Call) :
    Bounded p (State.init t0 calls) :=
  .of_main rfl (.calls fun _ => isPublic_of_mem_code)
    (by simp [State.init, increments_of_public fun _ => isPublic_of_mem_code])

/-- **Run lemma**: every reachable state is `Bounded`. -/
theorem Reachable.bounded {p : Platform} {t0 : Nat → SigAction} {calls : List Call}
    {atomicLoop : Bool} (h : Reachable p t0 calls atomicLoop s) : Bounded p s := by
  induction h with
  | refl => exact bounded_init p t0 calls
  | tail _ hs ih => exact ih.step hs

/-- A `Bounded` state accesses no entry past the end of `RegisteredSignalInfo`. -/
theorem Bounded.not_outOfBounds (hb : Bounded p s) : ¬ s.outOfBounds p := by
  unfold State.outOfBounds
  cases hh : s.handlers with
  | nil =>
    have hn := hb.increments_le
    have hm := hb.main
    rw [State.code_of_nil hh]
    generalize s.main = m at hm hn ⊢
    cases hm with
    | calls hpub =>
      split <;> simp_all [Instr.isPublic]
    | loop _ => split <;> simp_all [Instr.increments]; omega
    | sigNo _ => simp_all [Instr.increments]; omega
    | increment _ => simp
  | cons fr frs =>
    rw [State.code_of_cons hh]
    obtain ⟨sig, hc⟩ := hb.handlers fr (by simp [hh])
    generalize fr.code = c at hc ⊢
    cases hc with
    | restoring hie hec => simp only [not_and, not_le]; omega
    | testing => split_ifs <;> simp
    | _ => simp [signalHandler, afterUnregister]

end Bounded

/-! ### Schedules -/

section Schedules

variable {p : Platform} {atomicLoop : Bool}

/-- One event of a schedule: a statement for `none`, the signal `sig` arriving for `some sig`;
`none` also where the event cannot happen. -/
def next (p : Platform) (atomicLoop : Bool) (s : State) : Option Nat → Option State
  | none => execStep p s
  | some sig => if atomicLoop && s.inRegisterLoop then none else some (s.deliver p sig)

/-- The state after a schedule. -/
def run (p : Platform) (atomicLoop : Bool) (s : State) : List (Option Nat) → Option State
  | [] => some s
  | e :: es => (next p atomicLoop s e).bind fun s => run p atomicLoop s es

theorem step_of_next {s s' : State} {e : Option Nat} (h : next p atomicLoop s e = some s') :
    Step p atomicLoop s s' := by
  cases e with
  | none => exact .exec h
  | some sig =>
    unfold next at h
    split_ifs at h with hl
    cases h
    exact .deliver sig fun ha => by simpa [ha] using hl

theorem reflTransGen_of_run :
    ∀ {s s' : State} {es : List (Option Nat)}, run p atomicLoop s es = some s' →
      Relation.ReflTransGen (Step p atomicLoop) s s'
  | _, _, [], h => by cases h; exact .refl
  | _, _, _ :: _, h => by
    obtain ⟨_, h₁, h₂⟩ := Option.bind_eq_some.mp h
    exact .head (step_of_next h₁) (reflTransGen_of_run h₂)

/-- The state a schedule from the start reaches is reachable. -/
theorem reachable_run {t0 : Nat → SigAction} {calls : List Call} {es : List (Option Nat)}
    (h : (run p atomicLoop (State.init t0 calls) es).isSome) (x : State) :
    Reachable p t0 calls atomicLoop ((run p atomicLoop (State.init t0 calls) es).getD x) := by
  obtain ⟨s', hs'⟩ := Option.isSome_iff_exists.mp h
  rw [hs', Option.getD_some]
  exact reflTransGen_of_run hs'

end Schedules

/-- The dispositions `t0` with `SignalHandler` on the signals `gs`. -/
def installed (gs : List Nat) (t0 : Nat → SigAction) (g : Nat) : SigAction :=
  if g ∈ gs then .signalHandler else t0 g

/-- The first `n` entries of `RegisteredSignalInfo` hold the platform's first `n` signals, each
with its disposition in `t0`. -/
def Saved (p : Platform) (t0 : Nat → SigAction) (info : Nat → SigAction × Nat) (n : Nat) :
    Prop :=
  ∀ i < n, p.sigs[i]? = some (info i).2 ∧ (info i).1 = t0 (info i).2

/-- What the registry holds when no `SignalHandler` runs and `RegisterHandlers` is not in its
loop: nothing registered and the dispositions `t0`, or every signal of the platform registered,
with `SignalHandler` and its disposition in `t0` saved. -/
def Registry (p : Platform) (t0 : Nat → SigAction) (s : State) : Prop :=
  (s.numRegisteredSignals = 0 ∧ s.actions = t0) ∨
    (s.numRegisteredSignals = p.capacity ∧ s.actions = installed p.sigs t0 ∧
      Saved p t0 s.registeredSignalInfo p.capacity)

/-- Code of the public functions only. -/
def Public (k : List Instr) : Prop := ∀ ins ∈ k, ins.isPublic

/-- `RegisterHandlers`' loop has registered the first `n` signals, and is at one of its three
statements for the next. -/
inductive LoopAt (p : Platform) (t0 : Nat → SigAction) (s : State) : Prop
  | next {n : Nat} {k : List Instr} : Public k → n ≤ p.capacity →
      s.main = .registerHandler (p.sigs.drop n) :: k → s.numRegisteredSignals = n →
      Saved p t0 s.registeredSignalInfo n → s.actions = installed (p.sigs.take n) t0 →
      LoopAt p t0 s
  | sigNo {n g : Nat} {k : List Instr} : Public k → p.sigs[n]? = some g →
      s.main = .setSigNo g :: .incrementNumRegisteredSignals ::
        .registerHandler (p.sigs.drop (n + 1)) :: k →
      s.numRegisteredSignals = n → Saved p t0 s.registeredSignalInfo n →
      (s.registeredSignalInfo n).1 = t0 g → s.actions = installed (p.sigs.take (n + 1)) t0 →
      LoopAt p t0 s
  | increment {n : Nat} {k : List Instr} : Public k → n < p.capacity →
      s.main = .incrementNumRegisteredSignals :: .registerHandler (p.sigs.drop (n + 1)) :: k →
      s.numRegisteredSignals = n → Saved p t0 s.registeredSignalInfo (n + 1) →
      s.actions = installed (p.sigs.take (n + 1)) t0 → LoopAt p t0 s

/-- An activation in `UnregisterHandlers`. -/
def unregistering : List Instr → Bool
  | .unregisterHandlers :: _ | .restoreHandler _ _ :: _ | .clearNumRegisteredSignals :: _ => true
  | _ => false

/-- The innermost activation in `UnregisterHandlers`, having read `NumRegisteredSignals` as the
array's length, has restored the entries before the one it is at, and will restore the rest. -/
def Covers (p : Platform) (t0 actions : Nat → SigAction) : List Instr → Prop
  | .unregisterHandlers :: _ => True
  | .restoreHandler i e :: _ => e = p.capacity ∧ ∀ g ∈ p.sigs.take i, actions g = t0 g
  | .clearNumRegisteredSignals :: _ => ∀ g ∈ p.sigs, actions g = t0 g
  | _ => False

/-- The innermost activation between `if (InterruptFunction)` and `IF()`: the function it
tested is still set until it is cleared, and is then in `IF`. -/
def Window (fr : Frame) (f : Option Nat) : Prop :=
  (fr.code = [.loadInterruptFunction, .clearInterruptFunction, .callInterruptFunction] →
      f.isSome) ∧
    (fr.code = [.clearInterruptFunction, .callInterruptFunction] → fr.interrupt = f ∧ f.isSome) ∧
    (fr.code = [.callInterruptFunction] → fr.interrupt.isSome ∧ f = none)

/-- Where a run with no signal inside `RegisterHandlers`' loop is. The main program runs in its
calls, with the registry whole, or in the loop. A `SignalHandler` runs while some disposition is
still `SignalHandler`, the innermost activation about to restore them all; or after the
restore, the activations under the innermost still in `UnregisterHandlers`. -/
inductive Mode (p : Platform) (t0 : Nat → SigAction) (s : State) : Prop
  | idle : s.handlers = [] → Public s.main → Registry p t0 s → Mode p t0 s
  | loop : s.handlers = [] → LoopAt p t0 s → Mode p t0 s
  | busy {fr : Frame} {frs : List Frame} : s.handlers = fr :: frs → Public s.main →
      s.numRegisteredSignals = p.capacity → Saved p t0 s.registeredSignalInfo p.capacity →
      (∀ g, s.actions g = t0 g ∨ g ∈ p.sigs ∧
        (s.actions g = .signalHandler ∨ s.actions g = .dfl)) →
      Covers p t0 s.actions fr.code → (∀ fr' ∈ frs, unregistering fr'.code) → Mode p t0 s
  | quiet {fr : Frame} {frs : List Frame} : s.handlers = fr :: frs → Public s.main →
      s.numRegisteredSignals = 0 → s.actions = t0 →
      Saved p t0 s.registeredSignalInfo p.capacity → (∀ fr' ∈ frs, unregistering fr'.code) →
      Window fr s.interruptFunction → Mode p t0 s

/-- `SetInterruptFunction` with a function. -/
def Instr.setsInterrupt : Instr → Bool
  | .setInterruptFunction (some _) => true
  | _ => false

/-- A call of `SetInterruptFunction` with a function. -/
def Call.setsInterrupt : Call → Bool
  | .setInterruptFunction (some _) => true
  | _ => false

/-- An interrupt function running. -/
def Effect.isRunInterrupt : Effect → Bool
  | .runInterrupt _ => true
  | _ => false

/-- The interrupt functions set and not yet run: the one in `InterruptFunction`, and the one the
innermost activation is about to call. -/
def State.pendingInterrupts (s : State) : Nat :=
  (if s.interruptFunction.isSome then 1 else 0) +
    (if s.code = [.callInterruptFunction] then 1 else 0)

/-- Interrupt functions run, pending, and still to be set by the main program. -/
def State.tally (s : State) : Nat :=
  s.effects.countP Effect.isRunInterrupt + s.pendingInterrupts + s.main.countP Instr.setsInterrupt

/-- What every run with no signal inside `RegisterHandlers`' loop keeps, out of `sets` calls of
`SetInterruptFunction` with a function: `Bounded`, its `Mode`, and no more interrupt functions
run, pending and still to be set than there are calls. -/
structure Inv (p : Platform) (t0 : Nat → SigAction) (sets : Nat) (s : State) : Prop where
  bounded : Bounded p s
  mode : Mode p t0 s
  count : s.tally ≤ sets

section Restricted

variable {p : Platform} {t0 : Nat → SigAction} {s s' : State} {ins : Instr} {k : List Instr}
  {fr : Frame} {frs : List Frame} {n g : Nat}

theorem State.deliver_of_ne {sig : Nat} (h : s.actions sig ≠ .signalHandler) :
    s.deliver p sig = s := by
  simp [State.deliver, h]

theorem installed_nil : installed [] t0 = t0 := by
  funext g
  simp [installed]

theorem Platform.not_mem_take (hg : p.sigs[n]? = some g) : g ∉ p.sigs.take n := by
  have hd : (p.sigs.take n ++ p.sigs.drop n).Nodup := by
    rw [List.take_append_drop]
    exact p.nodup
  have hdrop : g ∈ p.sigs.drop n :=
    List.mem_iff_getElem?.mpr ⟨0, by rw [List.getElem?_drop, Nat.add_zero, hg]⟩
  exact fun h => List.disjoint_of_nodup_append hd h hdrop

theorem installed_take_succ (hg : p.sigs[n]? = some g) :
    installed (p.sigs.take (n + 1)) t0 =
      Function.update (installed (p.sigs.take n) t0) g .signalHandler := by
  funext x
  rw [List.take_succ, hg]
  by_cases hx : x = g
  · subst hx
    simp [installed]
  · simp [installed, Function.update_noteq hx, hx]

theorem Saved.update {info : Nat → SigAction × Nat} (h : Saved p t0 info n) (x : SigAction × Nat) :
    Saved p t0 (Function.update info n x) n := fun i hi => by
  rw [Function.update_noteq (Nat.ne_of_lt hi)]
  exact h i hi

theorem Saved.succ {info : Nat → SigAction × Nat} (h : Saved p t0 info n) (hg : p.sigs[n]? = some g)
    (hx : (info n).1 = t0 g) : Saved p t0 (Function.update info n ((info n).1, g)) (n + 1) :=
  fun i hi => by
    rcases Nat.lt_succ_iff_lt_or_eq.mp hi with hi | rfl
    · exact h.update _ i hi
    · simpa using ⟨hg, hx⟩

/-- Restoring a saved entry puts back a disposition of `t0`. -/
theorem Saved.restore {info : Nat → SigAction × Nat} (h : Saved p t0 info p.capacity) {i : Nat}
    (hi : i < p.capacity) :
    p.sigs[i]? = some (info i).2 ∧ (info i).1 = t0 (info i).2 := h i hi

theorem Registry.congr (h : Registry p t0 s) (ha : s'.actions = s.actions)
    (hn : s'.numRegisteredSignals = s.numRegisteredSignals)
    (hi : s'.registeredSignalInfo = s.registeredSignalInfo) : Registry p t0 s' := by
  unfold Registry
  rwa [ha, hn, hi]

theorem unregistering_of_covers {a : Nat → SigAction} {c : List Instr} (h : Covers p t0 a c) :
    unregistering c = true := by
  match c, h with
  | .unregisterHandlers :: _, _ => rfl
  | .restoreHandler _ _ :: _, _ => rfl
  | .clearNumRegisteredSignals :: _, _ => rfl

theorem ne_callInterrupt_of_unregistering {c : List Instr} (h : unregistering c = true) :
    c ≠ [.callInterruptFunction] := by
  rintro rfl
  cases h

theorem window_of_unregistering (h : unregistering fr.code = true) (f : Option Nat) :
    Window fr f := by
  refine ⟨fun hc => ?_, fun hc => ?_, fun hc => ?_⟩ <;> rw [hc] at h <;> cases h

theorem window_of_ne {f : Option Nat}
    (h₁ : fr.code ≠ [.loadInterruptFunction, .clearInterruptFunction, .callInterruptFunction])
    (h₂ : fr.code ≠ [.clearInterruptFunction, .callInterruptFunction])
    (h₃ : fr.code ≠ [.callInterruptFunction]) : Window fr f :=
  ⟨fun h => absurd h h₁, fun h => absurd h h₂, fun h => absurd h h₃⟩

theorem ne_callInterrupt_of_public (h : Public k) : k ≠ [.callInterruptFunction] := by
  rintro rfl
  cases h _ (List.mem_singleton_self _)

theorem LoopAt.inRegisterLoop (hh : s.handlers = []) (h : LoopAt p t0 s) :
    s.inRegisterLoop = true := by
  cases h with
  | next _ _ hm => simp [State.inRegisterLoop, hh, hm]
  | sigNo _ _ hm => simp [State.inRegisterLoop, hh, hm]
  | increment _ _ hm => simp [State.inRegisterLoop, hh, hm]

theorem tally_of_nil (hh : s.handlers = []) (hc : s.main ≠ [.callInterruptFunction]) :
    s.tally = s.effects.countP Effect.isRunInterrupt +
      (if s.interruptFunction.isSome then 1 else 0) + s.main.countP Instr.setsInterrupt := by
  simp [State.tally, State.pendingInterrupts, State.code, hh, hc]

theorem tally_of_cons (hh : s.handlers = fr :: frs) (hc : fr.code ≠ [.callInterruptFunction]) :
    s.tally = s.effects.countP Effect.isRunInterrupt +
      (if s.interruptFunction.isSome then 1 else 0) + s.main.countP Instr.setsInterrupt := by
  simp [State.tally, State.pendingInterrupts, State.code, hh, hc]

/-- **Step lemma** for a signal arriving outside `RegisterHandlers`' loop. -/
theorem Mode.deliver (ht0 : ∀ g, t0 g ≠ .signalHandler) (hm : Mode p t0 s)
    (hl : s.inRegisterLoop = false) (sig : Nat) :
    Mode p t0 (s.deliver p sig) ∧ (s.deliver p sig).tally ≤ s.tally := by
  by_cases hs : s.actions sig = .signalHandler
  swap
  · rw [State.deliver_of_ne hs]
    exact ⟨hm, le_rfl⟩
  have hnew : (⟨signalHandler p sig, none⟩ : Frame).code ≠ [.callInterruptFunction] := by
    simp [signalHandler]
  cases hm with
  | idle hh hpub hreg =>
    rcases hreg with ⟨-, ha⟩ | ⟨hnum, ha, hsaved⟩
    · exact absurd (ha ▸ hs) (ht0 sig)
    have hsig : sig ∈ p.sigs := by
      by_contra hn
      rw [ha, installed, if_neg hn] at hs
      exact ht0 sig hs
    simp only [State.deliver, if_pos hs]
    refine ⟨.busy rfl hpub hnum hsaved (fun x => ?_) trivial (by simp [hh]), ?_⟩
    · dsimp only
      by_cases hx : x = sig
      · subst hx
        simp [hsig]
      · rw [Function.update_noteq hx, ha, installed]
        split_ifs with hxs
        · exact .inr ⟨hxs, .inl rfl⟩
        · exact .inl rfl
    · rw [tally_of_cons rfl hnew, tally_of_nil hh (ne_callInterrupt_of_public hpub)]
  | loop hh hloop => exact absurd (hloop.inRegisterLoop hh) (by simp [hl])
  | busy hh hpub hnum hsaved hmix hcov hfrs =>
    have hsig : sig ∈ p.sigs := by
      rcases hmix sig with h | ⟨h, -⟩
      · exact absurd (h ▸ hs) (ht0 sig)
      · exact h
    simp only [State.deliver, if_pos hs]
    refine ⟨.busy rfl hpub hnum hsaved (fun x => ?_) trivial ?_, ?_⟩
    · dsimp only
      by_cases hx : x = sig
      · subst hx
        simp [hsig]
      · rw [Function.update_noteq hx]
        exact hmix x
    · intro fr' h
      rw [hh] at h
      rcases List.mem_cons.mp h with rfl | h
      · exact unregistering_of_covers hcov
      · exact hfrs fr' h
    · rw [tally_of_cons rfl hnew, tally_of_cons hh
        (ne_callInterrupt_of_unregistering (unregistering_of_covers hcov))]
  | quiet hh hpub hnum ha => exact absurd (ha ▸ hs) (ht0 sig)


/-- **Step lemma** for the return of an activation with nothing left. -/
theorem Mode.ret (hm : Mode p t0 s) (hh : s.handlers = fr :: frs) (hc : fr.code = []) :
    Mode p t0 { s with handlers := frs } ∧ ({ s with handlers := frs } : State).tally ≤ s.tally := by
  cases hm with
  | idle hh' => simp [hh] at hh'
  | loop hh' => simp [hh] at hh'
  | busy hh' _ _ _ _ hcov =>
    obtain ⟨rfl, rfl⟩ := List.cons.inj (hh.symm.trans hh')
    rw [hc] at hcov
    exact hcov.elim
  | quiet hh' hpub hnum ha hsaved hfrs =>
    obtain ⟨rfl, rfl⟩ := List.cons.inj (hh.symm.trans hh')
    cases frs with
    | nil =>
      refine ⟨.idle rfl hpub (.inl ⟨hnum, ha⟩), ?_⟩
      simp [State.tally, State.pendingInterrupts, State.code, hh, hc,
        ne_callInterrupt_of_public hpub]
    | cons fr' frs =>
      have hu := hfrs fr' (List.mem_cons_self _ _)
      refine ⟨.quiet rfl hpub hnum ha hsaved (fun f h => hfrs f (List.mem_cons_of_mem _ h))
        (window_of_unregistering hu _), ?_⟩
      simp [State.tally, State.pendingInterrupts, State.code, hh, hc,
        ne_callInterrupt_of_unregistering hu]

/-- **Step lemma** for a statement of the main program in its calls. -/
theorem Mode.run_idle (hh : s.handlers = []) (hpub : Public s.main) (hreg : Registry p t0 s)
    (hk : s.main = ins :: k) (h : ins.run p (s.setCode k) = some s') :
    Mode p t0 s' ∧ s'.tally ≤ s.tally := by
  rw [State.setCode_of_nil hh] at h
  have hi := hpub ins (by simp [hk])
  have hk' : Public k := fun i hi => hpub i (by simp [hk, hi])
  have hc := ne_callInterrupt_of_public hk'
  cases ins <;> simp only [Instr.isPublic, Bool.false_eq_true] at hi <;>
    simp only [Instr.run, Option.some.injEq] at h <;> subst h
  case registerHandlers =>
    split_ifs with h0
    · exact ⟨.idle hh hk' (hreg.congr rfl rfl rfl), by
        simp [State.tally, State.pendingInterrupts, State.code, hh, hk, hc, Instr.setsInterrupt]⟩
    · have ha : s.actions = installed (p.sigs.take 0) t0 := by
        rw [List.take_zero, installed_nil]
        rcases hreg with ⟨-, ha⟩ | ⟨hnum, ha, -⟩
        · exact ha
        · have hs : p.sigs = [] :=
            List.eq_nil_of_length_eq_zero (by rw [p.length_sigs, ← hnum, not_not.mp h0])
          rw [ha, hs, installed_nil]
      simp only [State.setCode, State.code, hh]
      refine ⟨.loop rfl (.next hk' (Nat.zero_le _) rfl (not_not.mp h0) (fun _ h => absurd h
        (Nat.not_lt_zero _)) ha), ?_⟩
      simp [State.tally, State.pendingInterrupts, State.code, hh, hk, Instr.setsInterrupt]
  case setInterruptFunction f =>
    refine ⟨.idle hh hk' (hreg.congr rfl rfl rfl), ?_⟩
    simp only [State.tally, State.pendingInterrupts, State.code, hh, hk, hc, if_false,
      List.countP_cons]
    cases f <;> cases s.interruptFunction <;> simp [Instr.setsInterrupt]
    omega
  all_goals
    refine ⟨.idle hh hk' (hreg.congr rfl rfl rfl), ?_⟩
    simp [State.tally, State.pendingInterrupts, State.code, hh, hk, hc, Instr.setsInterrupt,
      Effect.isRunInterrupt]

/-- **Step lemma** for `RegisterHandlers`' loop: it goes on with the next signal, or ends with
every signal registered. -/
theorem LoopAt.run (hh : s.handlers = []) (hl : LoopAt p t0 s) (hk : s.main = ins :: k)
    (h : ins.run p (s.setCode k) = some s') : Mode p t0 s' ∧ s'.tally ≤ s.tally := by
  rw [State.setCode_of_nil hh] at h
  cases hl with
  | @next n k' hpub hn hm hnum hsaved ha =>
    obtain ⟨rfl, rfl⟩ := List.cons.inj (hk.symm.trans hm)
    subst hnum
    cases hd : p.sigs.drop s.numRegisteredSignals with
    | nil =>
      rw [hd] at h
      cases h
      have hn' : s.numRegisteredSignals = p.capacity :=
        le_antisymm hn (by rw [← p.length_sigs]; exact List.drop_eq_nil_iff.mp hd)
      refine ⟨.idle hh hpub (.inr ⟨hn', by rw [ha, hn', ← p.length_sigs, List.take_length],
        hn' ▸ hsaved⟩), ?_⟩
      simp [State.tally, State.pendingInterrupts, State.code, hh, hm, Instr.setsInterrupt,
        ne_callInterrupt_of_public hpub]
    | cons g gs =>
      have hg : p.sigs[s.numRegisteredSignals]? = some g := by
        rw [← Nat.add_zero s.numRegisteredSignals, ← List.getElem?_drop, hd]
        simp
      have hgs : p.sigs.drop (s.numRegisteredSignals + 1) = gs := by
        rw [← List.tail_drop, hd]
        rfl
      rw [hd] at h
      simp only [Instr.run] at h
      split_ifs at h
      cases h
      simp only [State.setCode, State.code, hh]
      refine ⟨.loop rfl (.sigNo hpub hg (by rw [hgs]) rfl (hsaved.update _) ?_ ?_), ?_⟩
      · simp [ha, installed, Platform.not_mem_take hg]
      · rw [installed_take_succ hg, ha]
      · simp [State.tally, State.pendingInterrupts, State.code, hh, hm, Instr.setsInterrupt]
  | @sigNo n g k' hpub hg hm hnum hsaved hx ha =>
    obtain ⟨rfl, rfl⟩ := List.cons.inj (hk.symm.trans hm)
    simp only [Instr.run] at h
    split_ifs at h
    cases h
    have hlt : n < p.capacity := by
      rw [← p.length_sigs]
      exact (List.getElem?_eq_some_iff.mp hg).1
    refine ⟨.loop hh (.increment hpub hlt rfl hnum ?_ ha), ?_⟩
    · rw [hnum]
      exact hsaved.succ hg hx
    · simp [State.tally, State.pendingInterrupts, State.code, hh, hm, Instr.setsInterrupt]
  | @increment n k' hpub hlt hm hnum hsaved ha =>
    obtain ⟨rfl, rfl⟩ := List.cons.inj (hk.symm.trans hm)
    cases h
    refine ⟨.loop hh (.next hpub hlt rfl (by simp [hnum]) hsaved ha), ?_⟩
    simp [State.tally, State.pendingInterrupts, State.code, hh, hm, Instr.setsInterrupt]

/-- **Step lemma** for `UnregisterHandlers` in the innermost activation while some disposition is
still `SignalHandler`: it restores the next entry, or ends with every disposition restored. -/
theorem Mode.run_busy (hb : Bounded p s) (hh : s.handlers = fr :: frs) (hpub : Public s.main)
    (hnum : s.numRegisteredSignals = p.capacity)
    (hsaved : Saved p t0 s.registeredSignalInfo p.capacity)
    (hmix : ∀ g, s.actions g = t0 g ∨ g ∈ p.sigs ∧
      (s.actions g = .signalHandler ∨ s.actions g = .dfl))
    (hcov : Covers p t0 s.actions fr.code) (hfrs : ∀ fr' ∈ frs, unregistering fr'.code)
    (hk : fr.code = ins :: k) (h : ins.run p (s.setCode k) = some s') :
    Mode p t0 s' ∧ s'.tally ≤ s.tally := by
  obtain ⟨sig, hc⟩ := hb.handlers fr (by simp [hh])
  rw [hk] at hc hcov
  rw [State.setCode_of_cons hh] at h
  cases hc with
  | start =>
    cases h
    simp only [State.setCode, State.code]
    refine ⟨.busy rfl hpub hnum hsaved hmix ⟨hnum, by simp⟩ hfrs, ?_⟩
    simp [State.tally, State.pendingInterrupts, State.code, hh, hk]
  | @restoring i e hie hec =>
    obtain ⟨rfl, hcov⟩ := hcov
    simp only [Instr.run] at h
    split_ifs at h with h1 h2 <;> cases h
    · subst h1
      refine ⟨.busy rfl hpub hnum hsaved hmix
        (fun g hg => hcov g (by rwa [← p.length_sigs, List.take_length])) hfrs, ?_⟩
      simp [State.tally, State.pendingInterrupts, State.code, hh, hk]
    · obtain ⟨hgi, hti⟩ := hsaved.restore h2
      simp only [State.setCode, State.code]
      refine ⟨.busy rfl hpub hnum hsaved (fun x => ?_) ⟨rfl, fun g hg => ?_⟩ hfrs, ?_⟩
      · dsimp only
        by_cases hx : x = (s.registeredSignalInfo i).2
        · subst hx
          rw [Function.update_same, hti]
          exact .inl rfl
        · rw [Function.update_noteq hx]
          exact hmix x
      · dsimp only
        rw [List.take_succ, hgi, Option.toList_some, List.mem_append, List.mem_singleton] at hg
        by_cases hx : g = (s.registeredSignalInfo i).2
        · subst hx
          rw [Function.update_same, hti]
        · rw [Function.update_noteq hx]
          exact hcov g (hg.resolve_right hx)
      · simp [State.tally, State.pendingInterrupts, State.code, hh, hk]
  | clearing =>
    cases h
    have ha : s.actions = t0 := funext fun g => by
      rcases hmix g with h | ⟨hg, -⟩
      · exact h
      · exact hcov g hg
    refine ⟨.quiet rfl hpub rfl ha hsaved hfrs
      (window_of_ne (by simp [afterUnregister]) (by simp [afterUnregister])
        (by simp [afterUnregister])), ?_⟩
    simp [State.tally, State.pendingInterrupts, State.code, hh, hk, afterUnregister]
  | testing => split_ifs at hcov <;> exact (hcov : False).elim
  | _ => exact (hcov : False).elim

/-- **Step lemma** for an activation of `SignalHandler` once every disposition is restored. -/
theorem Mode.run_quiet (ht0 : ∀ g, t0 g ≠ .signalHandler) (hb : Bounded p s)
    (hh : s.handlers = fr :: frs) (hpub : Public s.main) (hnum : s.numRegisteredSignals = 0)
    (ha : s.actions = t0) (hsaved : Saved p t0 s.registeredSignalInfo p.capacity)
    (hfrs : ∀ fr' ∈ frs, unregistering fr'.code) (hw : Window fr s.interruptFunction)
    (hk : fr.code = ins :: k) (h : ins.run p (s.setCode k) = some s') :
    Mode p t0 s' ∧ s'.tally ≤ s.tally := by
  obtain ⟨sig, hc⟩ := hb.handlers fr (by simp [hh])
  rw [hk] at hc
  rw [State.setCode_of_cons hh] at h
  cases hc with
  | start =>
    cases h
    simp only [State.setCode, State.code]
    exact ⟨.quiet rfl hpub hnum ha hsaved hfrs (window_of_unregistering (by rfl) _), by
      simp [State.tally, State.pendingInterrupts, State.code, hh, hk]⟩
  | @restoring i e hie hec =>
    simp only [Instr.run] at h
    split_ifs at h with h1 h2 <;> cases h
    · exact ⟨.quiet rfl hpub hnum ha hsaved hfrs (window_of_unregistering (by rfl) _), by
        simp [State.tally, State.pendingInterrupts, State.code, hh, hk]⟩
    · obtain ⟨-, hti⟩ := hsaved.restore h2
      simp only [State.setCode, State.code]
      refine ⟨.quiet rfl hpub hnum ?_ hsaved hfrs (window_of_unregistering (by rfl) _), by
        simp [State.tally, State.pendingInterrupts, State.code, hh, hk]⟩
      dsimp only
      rw [hti, ha, Function.update_eq_self]
  | clearing =>
    cases h
    refine ⟨.quiet rfl hpub rfl ha hsaved hfrs
      (window_of_ne (by simp [afterUnregister]) (by simp [afterUnregister])
        (by simp [afterUnregister])), ?_⟩
    simp [State.tally, State.pendingInterrupts, State.code, hh, hk, afterUnregister]
  | removing =>
    cases h
    refine ⟨.quiet rfl hpub hnum ha hsaved hfrs (window_of_ne (by split_ifs <;> simp)
      (by split_ifs <;> simp) (by split_ifs <;> simp)), ?_⟩
    split_ifs <;>
      simp [State.tally, State.pendingInterrupts, State.code, hh, hk, Effect.isRunInterrupt]
  | testing =>
    split_ifs at h with hi
    · cases h
      simp only [State.setCode, State.code]
      split_ifs with hf
      · refine ⟨.quiet rfl hpub hnum ha hsaved hfrs ⟨fun _ => hf, fun h => ?_, fun h => ?_⟩, ?_⟩
        all_goals simp_all [State.tally, State.pendingInterrupts, State.code]
      · refine ⟨.quiet rfl hpub hnum ha hsaved hfrs ⟨fun h => ?_, fun h => ?_, fun h => ?_⟩, ?_⟩
        all_goals simp_all [State.tally, State.pendingInterrupts, State.code]
    · cases h
      refine ⟨.quiet rfl hpub hnum ha hsaved hfrs ⟨fun h => ?_, fun h => ?_, fun h => ?_⟩, ?_⟩
      all_goals simp_all [State.tally, State.pendingInterrupts, State.code, Effect.isRunInterrupt]
  | loading =>
    cases h
    have hf := hw.1 hk
    simp only [State.setInterrupt, State.setCode, State.code]
    refine ⟨.quiet rfl hpub hnum ha hsaved hfrs ⟨fun h => ?_, fun _ => ⟨rfl, hf⟩, fun h => ?_⟩, ?_⟩
    all_goals simp_all [State.tally, State.pendingInterrupts, State.code]
  | clearingInterrupt =>
    cases h
    obtain ⟨hl, hf⟩ := hw.2.1 hk
    refine ⟨.quiet rfl hpub hnum ha hsaved hfrs ⟨fun h => ?_, fun h => ?_,
      fun _ => ⟨by simpa [hl] using hf, rfl⟩⟩, ?_⟩
    all_goals simp_all [State.tally, State.pendingInterrupts, State.code]
  | calling =>
    simp only [Instr.run, State.interrupt, hh] at h
    obtain ⟨f, hfr, rfl⟩ := Option.map_eq_some'.mp h
    have hn := (hw.2.2 hk).2
    refine ⟨.quiet rfl hpub hnum ha hsaved hfrs ⟨fun h => ?_, fun h => ?_, fun h => ?_⟩, ?_⟩
    all_goals simp_all [State.tally, State.pendingInterrupts, State.code, Effect.isRunInterrupt]
  | raising =>
    cases h
    rw [if_neg (by rw [ha]; exact ht0 sig)]
    refine ⟨.quiet rfl hpub hnum ha hsaved hfrs ⟨fun h => ?_, fun h => ?_, fun h => ?_⟩, ?_⟩
    all_goals simp_all [State.tally, State.pendingInterrupts, State.code, Effect.isRunInterrupt]

/-- **Step lemma**: a step of a run with no signal inside `RegisterHandlers`' loop keeps `Inv`. -/
theorem Inv.step {sets : Nat} (ht0 : ∀ g, t0 g ≠ .signalHandler) (hi : Inv p t0 sets s)
    (h : Step p true s s') : Inv p t0 sets s' := by
  suffices key : Mode p t0 s' ∧ s'.tally ≤ s.tally from
    ⟨hi.bounded.step h, key.1, key.2.trans hi.count⟩
  cases h with
  | exec h =>
    cases execStep_eq_some h with
    | ret hh hc => exact hi.mode.ret hh hc
    | run hk h =>
      cases hi.mode with
      | idle hh hpub hreg => exact Mode.run_idle hh hpub hreg (State.code_of_nil hh ▸ hk) h
      | loop hh hl => exact hl.run hh (State.code_of_nil hh ▸ hk) h
      | busy hh hpub hnum hsaved hmix hcov hfrs =>
        exact Mode.run_busy hi.bounded hh hpub hnum hsaved hmix hcov hfrs
          (State.code_of_cons hh ▸ hk) h
      | quiet hh hpub hnum ha hsaved hfrs hw =>
        exact Mode.run_quiet ht0 hi.bounded hh hpub hnum ha hsaved hfrs hw
          (State.code_of_cons hh ▸ hk) h
  | deliver sig hl => exact hi.mode.deliver ht0 (hl rfl) sig

theorem countP_setsInterrupt_code (calls : List Call) :
    (calls.flatMap Call.code).countP Instr.setsInterrupt = calls.countP Call.setsInterrupt := by
  induction calls with
  | nil => rfl
  | cons c cs ih =>
    rw [List.flatMap_cons, List.countP_append, ih, List.countP_cons, Nat.add_comm]
    cases c with
    | setInterruptFunction f => cases f <;> rfl
    | _ => rfl

theorem inv_init (calls : List Call) :
    Inv p t0 (calls.countP Call.setsInterrupt) (State.init t0 calls) := by
  refine ⟨bounded_init p t0 calls, .idle rfl (fun _ => isPublic_of_mem_code) (.inl ⟨rfl, rfl⟩), ?_⟩
  simp [State.tally, State.pendingInterrupts, State.init, State.code, countP_setsInterrupt_code,
    ne_callInterrupt_of_public fun _ => isPublic_of_mem_code]

/-- **Run lemma**: every state of a run with no signal inside `RegisterHandlers`' loop keeps
`Inv`. -/
theorem Reachable.inv {calls : List Call} (ht0 : ∀ g, t0 g ≠ .signalHandler)
    (h : Reachable p t0 calls true s) : Inv p t0 (calls.countP Call.setsInterrupt) s := by
  induction h with
  | refl => exact inv_init calls
  | tail _ hs ih => exact ih.step ht0 hs

end Restricted

/-! ### Progress -/

section Progress

variable {p : Platform} {s : State}

/-- A statement stops only at an access past the end of `RegisteredSignalInfo`, or at a call of
a null `IF`. -/
theorem Instr.run_isSome {ins : Instr} {k : List Instr} (hk : s.code = ins :: k)
    (hb : ¬ s.outOfBounds p) (hn : ¬ s.callsNull) : (ins.run p (s.setCode k)).isSome := by
  unfold State.outOfBounds at hb
  unfold State.callsNull at hn
  rw [hk] at hb hn
  cases ins with
  | registerHandler gs => cases gs <;> simp_all [Instr.run]
  | setSigNo => simp_all [Instr.run]
  | restoreHandler i e => by_cases hie : i = e <;> simp_all [Instr.run]
  | callInterruptFunction => simp_all [Instr.run, Option.isSome_iff_ne_none]
  | _ => simp [Instr.run]

/-- **Progress**: the process stops only when the main program has finished, at an access past
the end of `RegisteredSignalInfo`, or at a call of a null `IF`. -/
theorem execStep_isSome (hb : ¬ s.outOfBounds p) (hn : ¬ s.callsNull)
    (hs : s.handlers ≠ [] ∨ s.main ≠ []) : (execStep p s).isSome := by
  unfold execStep
  split
  next hh =>
    split
    next hm => simp [hh, hm] at hs
    next ins k hm =>
      rw [← State.setCode_of_nil hh]
      exact Instr.run_isSome (by rw [State.code_of_nil hh, hm]) hb hn
  next fr frs hh =>
    split
    next => rfl
    next ins k hc =>
      rw [← State.setCode_of_cons hh]
      exact Instr.run_isSome (by rw [State.code_of_cons hh, hc]) hb hn

/-- Only an activation of `SignalHandler` at `IF()` can call a null `IF`. -/
theorem Bounded.calling_of_callsNull (hb : Bounded p s) (h : s.callsNull) :
    ∃ fr frs, s.handlers = fr :: frs ∧ fr.code = [.callInterruptFunction] ∧
      fr.interrupt = none := by
  obtain ⟨hc, hn⟩ := h
  cases hh : s.handlers with
  | nil =>
    rw [State.code_of_nil hh] at hc
    have hm := hb.main
    generalize s.main = m at hm hc
    cases hm with
    | calls hpub => simpa [Instr.isPublic] using hpub _ (List.mem_of_mem_head? hc)
    | _ => simp at hc
  | cons fr frs =>
    rw [State.code_of_cons hh] at hc
    obtain ⟨sig, hcode⟩ := hb.handlers fr (by simp [hh])
    refine ⟨fr, frs, rfl, ?_, by simpa [State.interrupt, hh] using hn⟩
    generalize fr.code = c at hcode hc ⊢
    cases hcode with
    | testing => split_ifs at hc <;> simp at hc
    | _ => simp_all [signalHandler, afterUnregister]

theorem Inv.not_callsNull {t0 : Nat → SigAction} {sets : Nat} (hi : Inv p t0 sets s) :
    ¬ s.callsNull := fun h => by
  obtain ⟨fr, frs, hh, hc, hn⟩ := hi.bounded.calling_of_callsNull h
  cases hi.mode with
  | idle hh' => simp [hh] at hh'
  | loop hh' => simp [hh] at hh'
  | busy hh' _ _ _ _ hcov =>
    obtain ⟨rfl, rfl⟩ := List.cons.inj (hh.symm.trans hh')
    rw [hc] at hcov
    exact hcov
  | quiet hh' _ _ _ _ _ hw =>
    obtain ⟨rfl, rfl⟩ := List.cons.inj (hh.symm.trans hh')
    exact absurd (hw.2.2 hc).1 (by simp [hn])

end Progress

theorem not_registry_of_num {p : Platform} {t0 : Nat → SigAction} {s : State}
    (h0 : s.numRegisteredSignals ≠ 0) (hc : s.numRegisteredSignals ≠ p.capacity) :
    ¬ Registry p t0 s := by
  rintro (⟨h, -⟩ | ⟨h, -⟩) <;> contradiction

/- `SIGINT` arriving one statement earlier, between `if (InterruptFunction)` and
`IF = InterruptFunction`, makes the outer activation call a null `IF`. -/
example : ((run linux false (State.init (fun _ => .dfl) [Call.setInterruptFunction (some 7)])
      (List.replicate 6 none ++ some 1 :: List.replicate 6 none ++ some 2 ::
        List.replicate 11 none)).getD (State.init (fun _ => .dfl) [])).callsNull := by
  unfold State.callsNull
  decide

end Keystone.Unix
