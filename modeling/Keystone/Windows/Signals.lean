import Mathlib.Logic.Relation
import Keystone.Unix.Signals

/-!
# The Windows signal handlers and their critical section

On Windows the file's globals (`FilesToRemove`, `InterruptFunction`, `CleanupExecuted`,
`RegisteredUnhandledExceptionFilter`) are shared between the threads that call the public
functions and the threads Windows creates to run `LLVMConsoleCtrlHandler` on a console control
event such as Ctrl-C. A `CRITICAL_SECTION` guards them. `RegisterHandler` enters it and returns
with it entered ("Caller must call LeaveCriticalSection"), after initializing it and installing
the handlers the first time; `Cleanup` enters it again, so the console handler holds it twice.

## Design

Each function is a term of a small language, `Code`, over the tests and the actions between
them, so that every interleaving of threads is a run of one interpreter: a thread is the list of
code it has left, and `Step` runs one instruction of one thread, or creates a console handler's
thread. `EnterCriticalSection` does not return while another thread owns the section;
`CriticalSection` is a recursive lock whose owner and recursion count agree by construction.

The code is the one a release build (`NDEBUG`) runs. Without the debug help, `RegisterHandler`'s
`assert(false)` is compiled out and it returns at once, entering nothing. `InitializeThreading`
tests the plain `bool` `CriticalSectionInitialized`, then calls `InitializeCriticalSection` and
sets the flag, three steps another thread can come between. The section's own state, whether
`InitializeCriticalSection` has run on it, is kept apart from the flag; initializing it twice,
entering it before, or leaving it unowned is undefined behaviour, after which the model claims
nothing: the thread stops.

Safety is proved as for a type system. `Disciplined n c f k` says that the code `k`, run by a
thread that holds the section `n` times, knowing the section initialized when `c` and the flag
set when `f`, enters only a section whose flag is set, leaves only one it holds, sets the flag
only after initializing the section, and performs the actions the source places inside the
section only while holding it. Every public function and the console handler are disciplined
when the debug help is loaded (`Call.disciplined`, `disciplined_consoleCtrlHandler`), one step
keeps `Inv`, which asks every thread to be disciplined with what it holds, and a disciplined
thread never faults.

That two first calls can both pass the test and initialize the section is the one place where
the model stops a thread. `InitializeThreading` relies on "there's only one thread" at the first
call: `SerialStep` runs only thread `0` until the flag is set, and in such runs no thread is ever
about to initialize the section twice (`SerialInv`), so no step of them is cut short. The lock
theorems are stated for these runs; without the debug help, or without the serial first call,
`printStackTrace_faults_without_debugHelp` and `concurrent_first_calls_initialize_twice` give a
fault and a second initialization.

## Main definitions

* `Keystone.Windows.Code`, `Keystone.Windows.threadStep`, `Keystone.Windows.Step` — the
  language, one instruction of one thread, and a step of the whole process.
* `Keystone.Windows.Reachable` — the states of a run from the start, for any client threads.
* `Keystone.Windows.SerialReachable` — those of the runs whose first call is made by one thread.

## Main results

* `Keystone.Windows.serialReachable_not_faults` — with the debug help loaded, no thread ever
  enters the section before it is initialized, or leaves one it does not own.
* `Keystone.Windows.serialReachable_underLock_owner` — and every action under the lock is made
  by the section's owner.
* `Keystone.Windows.serialReachable_not_initializesTwice` — when the first call is made by one
  thread, the section is never initialized twice.
* `Keystone.Windows.printStackTrace_faults_without_debugHelp`,
  `Keystone.Windows.concurrent_first_calls_initialize_twice` — runs outside those hypotheses.
* `Keystone.Windows.removeFileOnSignal_leaves_entered` — `RemoveFileOnSignal` after `Cleanup`
  returns without leaving the section, and no console handler gets in again.
-/

namespace Keystone.Windows

/-- What the functions test. -/
inductive Cond
  /-- `load64BitDebugHelp()`. -/
  | debugHelpLoaded
  /-- `RegisteredUnhandledExceptionFilter`. -/
  | registered
  /-- `CriticalSectionInitialized`. -/
  | criticalSectionInitialized
  /-- `CleanupExecuted`. -/
  | cleanupExecuted
  /-- `FilesToRemove == NULL`. -/
  | filesToRemoveNull
  /-- `IF`, the console handler's copy of the interrupt function, is not null. -/
  | interruptFunctionTaken
  deriving DecidableEq, Repr

/-- What the functions do between their tests, each action atomic. -/
inductive Action
  /-- `InitializeCriticalSection(&CriticalSection)`. -/
  | initializeCriticalSection
  /-- `CriticalSectionInitialized = true`. -/
  | setCriticalSectionInitialized
  /-- `RegisteredUnhandledExceptionFilter = true`, with the exception filter and the console
  handler installed. -/
  | register
  /-- `FilesToRemove = new std::vector<std::string>`. -/
  | allocateFilesToRemove
  | pushFileToRemove (filename : String)
  | eraseFileToRemove (filename : String)
  | setInterruptFunction (f : Option Nat)
  /-- `CallBacksToRun->push_back(...)`. -/
  | pushCallBack (fn : Nat)
  | setCleanupExecuted
  /-- The loop of `Cleanup` that removes the files, the last first. -/
  | removeFiles
  /-- `RunSignalHandlers()`. -/
  | runSignalHandlers
  /-- `IF = InterruptFunction; InterruptFunction = 0`. -/
  | takeInterruptFunction
  /-- `IF()`. -/
  | runInterruptFunction
  /-- The end of the process: `_exit`, or the default handler after `return FALSE`. -/
  | exitProcess
  deriving DecidableEq, Repr

namespace Action

/-- The actions the source performs between `EnterCriticalSection` and
`LeaveCriticalSection`. -/
def underLock : Action → Bool
  | initializeCriticalSection | setCriticalSectionInitialized | pushCallBack _ | exitProcess =>
    false
  | _ => true

/-- The actions after which nothing of the process runs. -/
def halts : Action → Bool
  | exitProcess => true
  | _ => false

end Action

/-- The functions' code: tests and actions, and `EnterCriticalSection` and
`LeaveCriticalSection`. -/
inductive Code
  | skip
  | seq (c₁ c₂ : Code)
  | ite (c : Cond) (c₁ c₂ : Code)
  | enter
  | leave
  | act (a : Action)
  deriving DecidableEq, Repr

/-! ### The functions -/

/-- What `InitializeThreading` does once it has found `CriticalSectionInitialized` unset:
`InitializeCriticalSection`, then the assignment, each a step of its own. -/
def createCriticalSection : Code :=
  .seq (.act .initializeCriticalSection) (.act .setCriticalSectionInitialized)

/-- `InitializeThreading()`: the test of `CriticalSectionInitialized`, then, when it is unset,
`createCriticalSection`. -/
def initializeThreading : Code := .ite .criticalSectionInitialized .skip createCriticalSection

/-- `RegisterHandler()`: without the debug help it returns at once, the `assert(false)` compiled
out; with it, it enters the section if the handlers are registered, and otherwise initializes
it, enters it and registers them, returning with the section entered. -/
def registerHandler : Code :=
  .ite .debugHelpLoaded
    (.ite .registered .enter (.seq initializeThreading (.seq .enter (.act .register))))
    .skip

/-- `sys::RemoveFileOnSignal(Filename, ErrMsg)`: once `CleanupExecuted` is set it returns
`true` at once, without leaving the section `RegisterHandler` entered. -/
def removeFileOnSignal (filename : String) : Code :=
  .seq registerHandler
    (.ite .cleanupExecuted .skip
      (.seq (.ite .filesToRemoveNull (.act .allocateFilesToRemove) .skip)
        (.seq (.act (.pushFileToRemove filename)) .leave)))

/-- `sys::DontRemoveFileOnSignal(Filename)`. -/
def dontRemoveFileOnSignal (filename : String) : Code :=
  .ite .filesToRemoveNull .skip
    (.seq registerHandler (.seq (.act (.eraseFileToRemove filename)) .leave))

/-- `sys::PrintStackTraceOnErrorSignal(Argv0, DisableCrashReporting)`, its part on the
globals. -/
def printStackTraceOnErrorSignal : Code := .seq registerHandler .leave

/-- `sys::SetInterruptFunction(IF)`. -/
def setInterruptFunction (f : Option Nat) : Code :=
  .seq registerHandler (.seq (.act (.setInterruptFunction f)) .leave)

/-- `sys::AddSignalHandler(FnPtr, Cookie)`: the callback is pushed before `RegisterHandler`. -/
def addSignalHandler (fn : Nat) : Code :=
  .seq (.act (.pushCallBack fn)) (.seq registerHandler .leave)

/-- `Cleanup()`: unless `CleanupExecuted`, tested before entering, enter the section, set it,
remove the files and run the signal handlers. -/
def cleanup : Code :=
  .ite .cleanupExecuted .skip
    (.seq .enter (.seq (.act .setCleanupExecuted) (.seq (.act .removeFiles)
      (.seq (.act .runSignalHandlers) .leave))))

/-- `sys::RunInterruptHandlers()`. -/
def runInterruptHandlers : Code := .seq initializeThreading cleanup

/-- `LLVMUnhandledExceptionFilter(ep)`, its part on the globals: `Cleanup()`, then `_exit`. -/
def llvmUnhandledExceptionFilter : Code := .seq cleanup (.act .exitProcess)

/-- `LLVMConsoleCtrlHandler(dwCtrlType)`: enter the section, `Cleanup()`, take the interrupt
function; run it and return `TRUE`, or return `FALSE` and let the process end. -/
def llvmConsoleCtrlHandler : Code :=
  .seq .enter (.seq cleanup (.seq (.act .takeInterruptFunction)
    (.ite .interruptFunctionTaken (.seq (.act .runInterruptFunction) .leave)
      (.seq .leave (.act .exitProcess)))))

/-- Modelled from the Windows documentation of `SetUnhandledExceptionFilter`: an exception no
one handles runs `LLVMUnhandledExceptionFilter` once it is registered, and ends the process
otherwise. -/
def unhandledException : Code :=
  .ite .registered llvmUnhandledExceptionFilter (.act .exitProcess)

/-- What a client thread does: a call of a public function, or an unhandled exception in its
own code. -/
inductive Call
  | removeFileOnSignal (filename : String)
  | dontRemoveFileOnSignal (filename : String)
  | printStackTraceOnErrorSignal
  | setInterruptFunction (f : Option Nat)
  | addSignalHandler (fn : Nat)
  | runInterruptHandlers
  | unhandledException
  deriving DecidableEq, Repr

/-- The code of a call. -/
def Call.code : Call → Code
  | .removeFileOnSignal filename => Windows.removeFileOnSignal filename
  | .dontRemoveFileOnSignal filename => Windows.dontRemoveFileOnSignal filename
  | .printStackTraceOnErrorSignal => Windows.printStackTraceOnErrorSignal
  | .setInterruptFunction f => Windows.setInterruptFunction f
  | .addSignalHandler fn => Windows.addSignalHandler fn
  | .runInterruptHandlers => Windows.runInterruptHandlers
  | .unhandledException => Windows.unhandledException

/-! ### The critical section -/

/-- A `CRITICAL_SECTION`: the thread that owns it and how many times it has entered it, the one
set exactly when the other is not zero. -/
structure CriticalSection where
  owner : Option Nat
  recursion : Nat
  owner_isSome : owner.isSome = decide (0 < recursion)

namespace CriticalSection

/-- `InitializeCriticalSection`: no owner. -/
def free : CriticalSection := ⟨none, 0, rfl⟩

/-- `EnterCriticalSection` by thread `t`: `none` while another thread owns the section. -/
def enter (cs : CriticalSection) (t : Nat) : Option CriticalSection :=
  match cs.owner with
  | none => some ⟨some t, 1, rfl⟩
  | some o => if o = t then some ⟨some t, cs.recursion + 1, by simp⟩ else none

/-- `LeaveCriticalSection` by the owner: the section is free once it has left as often as it
entered. -/
def leave (cs : CriticalSection) : CriticalSection :=
  if h : cs.recursion = 1 then free
  else ⟨cs.owner, cs.recursion - 1, by rw [cs.owner_isSome, decide_eq_decide]; omega⟩

/-- How many times thread `t` holds the section. -/
def held (cs : CriticalSection) (t : Nat) : Nat := if cs.owner = some t then cs.recursion else 0

variable {cs cs' : CriticalSection} {t u : Nat}

theorem recursion_eq_zero (h : cs.owner = none) : cs.recursion = 0 := by
  have := cs.owner_isSome
  rw [h] at this
  simpa using this

theorem held_eq_zero (h : cs.owner = none) (u : Nat) : cs.held u = 0 := by simp [held, h]

theorem pos_of_owner (h : cs.owner = some t) : 0 < cs.recursion := by
  have := cs.owner_isSome
  rw [h] at this
  simpa using this

/-- A thread that holds the section is its owner. -/
theorem owner_of_held_pos (h : 0 < cs.held t) : cs.owner = some t := by
  by_contra hne
  simp [held, hne] at h

theorem enter_eq_some (h : cs.enter t = some cs') :
    cs'.owner = some t ∧ cs'.held t = cs.held t + 1 ∧ ∀ u, u ≠ t → cs'.held u = cs.held u := by
  unfold enter at h
  split at h
  · next hn =>
    cases h
    refine ⟨rfl, by simp [held, hn, recursion_eq_zero hn], fun u hu => ?_⟩
    simp [held, hn, Ne.symm hu]
  · next o ho =>
    split_ifs at h with hot
    cases h
    subst hot
    refine ⟨rfl, by simp [held, ho], fun u hu => ?_⟩
    simp [held, ho, Ne.symm hu]

theorem leave_held (h : cs.owner = some t) :
    cs.leave.held t = cs.held t - 1 ∧ ∀ u, u ≠ t → cs.leave.held u = cs.held u := by
  unfold leave
  split_ifs with h1
  · refine ⟨by simp [free, held, h, h1], fun u hu => ?_⟩
    simp [free, held, h, Ne.symm hu]
  · exact ⟨by simp [held, h], fun u hu => by simp [held, h, Ne.symm hu]⟩

theorem leave_owner (h : cs.owner = some t) : cs.leave.owner = none ∨ cs.leave.owner = some t := by
  unfold leave
  split_ifs
  · exact .inl rfl
  · exact .inr h

end CriticalSection

/-! ### The process -/

/-- A thread: the code it has left, and `IF`, its copy of the interrupt function. -/
structure Thread where
  code : List Code
  interrupt : Option Nat

/-- What the file does outside its globals. -/
inductive Effect
  | removeFile (filename : String)
  | runSignalHandlers
  | runInterruptFunction (f : Nat)
  | exitProcess
  deriving DecidableEq, Repr

/-- The file's globals, whether `InitializeCriticalSection` has run on `CriticalSection` (the
state of the object, which `CriticalSectionInitialized` is meant to follow), the environment's
`load64BitDebugHelp()`, and the threads, numbered in the order they were created. -/
structure State where
  interruptFunction : Option Nat
  filesToRemove : Option (List String)
  registeredUnhandledExceptionFilter : Bool
  cleanupExecuted : Bool
  criticalSection : CriticalSection
  criticalSectionInitialized : Bool
  criticalSectionCreated : Bool
  callBacksToRun : List Nat
  debugHelpLoaded : Bool
  threads : Nat → Thread
  spawned : Nat
  exited : Bool
  effects : List Effect

/-- What a test reads, in thread `th`. -/
def Cond.eval (s : State) (th : Thread) : Cond → Bool
  | .debugHelpLoaded => s.debugHelpLoaded
  | .registered => s.registeredUnhandledExceptionFilter
  | .criticalSectionInitialized => s.criticalSectionInitialized
  | .cleanupExecuted => s.cleanupExecuted
  | .filesToRemoveNull => s.filesToRemove.isNone
  | .interruptFunctionTaken => th.interrupt.isSome

/-- The end of the process: no thread runs any more. -/
def State.exit (s : State) : State := { s with exited := true, threads := fun _ => ⟨[], none⟩ }

/-- An action of thread `t`. -/
def perform (s : State) (t : Nat) : Action → State
  | .initializeCriticalSection =>
    { s with criticalSection := .free, criticalSectionCreated := true }
  | .setCriticalSectionInitialized => { s with criticalSectionInitialized := true }
  | .register => { s with registeredUnhandledExceptionFilter := true }
  | .allocateFilesToRemove => { s with filesToRemove := some [] }
  | .pushFileToRemove filename =>
    { s with filesToRemove := some (s.filesToRemove.getD [] ++ [filename]) }
  | .eraseFileToRemove filename =>
    { s with filesToRemove := s.filesToRemove.map (Unix.eraseLast filename) }
  | .setInterruptFunction f => { s with interruptFunction := f }
  | .pushCallBack fn => { s with callBacksToRun := s.callBacksToRun ++ [fn] }
  | .setCleanupExecuted => { s with cleanupExecuted := true }
  | .removeFiles =>
    { s with
      filesToRemove := s.filesToRemove.map fun _ => []
      effects := s.effects ++ (s.filesToRemove.getD []).reverse.map .removeFile }
  | .runSignalHandlers => { s with effects := s.effects ++ [.runSignalHandlers] }
  | .takeInterruptFunction =>
    { s with
      interruptFunction := none
      threads := Function.update s.threads t { s.threads t with interrupt := s.interruptFunction } }
  | .runInterruptFunction =>
    { s with effects := s.effects ++ (s.threads t).interrupt.toList.map .runInterruptFunction }
  | .exitProcess => { s.exit with effects := s.effects ++ [.exitProcess] }

/-- Thread `t` goes on with the code `k`. -/
def State.setCode (s : State) (t : Nat) (k : List Code) : State :=
  { s with threads := Function.update s.threads t { s.threads t with code := k } }

/-- One instruction of thread `t`: `none` when it has nothing left, when it waits for the
section, and when it would enter the section uninitialized, leave one it does not own, or
initialize it a second time. -/
def threadStep (s : State) (t : Nat) : Option State :=
  match (s.threads t).code with
  | [] => none
  | .skip :: k => some (s.setCode t k)
  | .seq c₁ c₂ :: k => some (s.setCode t (c₁ :: c₂ :: k))
  | .ite c c₁ c₂ :: k => some (s.setCode t ((if c.eval s (s.threads t) then c₁ else c₂) :: k))
  | .enter :: k =>
    if s.criticalSectionCreated then
      (s.criticalSection.enter t).map fun cs => { s.setCode t k with criticalSection := cs }
    else none
  | .leave :: k =>
    if s.criticalSection.owner = some t then
      some { s.setCode t k with criticalSection := s.criticalSection.leave }
    else none
  | .act a :: k =>
    if a = .initializeCriticalSection ∧ s.criticalSectionCreated = true then none
    else some (perform (s.setCode t k) t a)

/-- A console control event: Windows runs `LLVMConsoleCtrlHandler` in a new thread once it is
registered, and ends the process otherwise. -/
def State.consoleCtrl (s : State) : State :=
  if s.registeredUnhandledExceptionFilter then
    { s with
      threads := Function.update s.threads s.spawned ⟨[llvmConsoleCtrlHandler], none⟩
      spawned := s.spawned + 1 }
  else { s.exit with effects := s.effects ++ [.exitProcess] }

/-- A step of the process: an instruction of one thread, or a console control event. -/
inductive Step : State → State → Prop
  | thread {s s' : State} (t : Nat) : s.exited = false → threadStep s t = some s' → Step s s'
  | consoleCtrl {s : State} : s.exited = false → Step s s.consoleCtrl

/-- A step of a run whose first call is made by one thread, as `InitializeThreading` expects
("there's only one thread"): until `CriticalSectionInitialized` is set, only thread `0` runs. -/
inductive SerialStep : State → State → Prop
  | thread {s s' : State} (t : Nat) : s.exited = false → (s.criticalSectionInitialized = false →
      t = 0) → threadStep s t = some s' → SerialStep s s'
  | consoleCtrl {s : State} : s.exited = false → SerialStep s s.consoleCtrl

/-- The start: nothing registered, the section not initialized, and client thread `i` to make
the calls `clients[i]`. -/
def State.init (debugHelpLoaded : Bool) (clients : List (List Call)) : State where
  interruptFunction := none
  filesToRemove := none
  registeredUnhandledExceptionFilter := false
  cleanupExecuted := false
  criticalSection := .free
  criticalSectionInitialized := false
  criticalSectionCreated := false
  callBacksToRun := []
  debugHelpLoaded := debugHelpLoaded
  threads t := ⟨(clients.getD t []).map Call.code, none⟩
  spawned := clients.length
  exited := false
  effects := []

/-- The states of the runs from the start. -/
def Reachable (debugHelpLoaded : Bool) (clients : List (List Call)) (s : State) : Prop :=
  Relation.ReflTransGen Step (State.init debugHelpLoaded clients) s

/-- The states of the runs from the start whose first call is made by one thread. -/
def SerialReachable (debugHelpLoaded : Bool) (clients : List (List Call)) (s : State) : Prop :=
  Relation.ReflTransGen SerialStep (State.init debugHelpLoaded clients) s

/-- Thread `t` is about to enter the section before `InitializeCriticalSection`, or to leave a
section it does not own. -/
def Faults (s : State) (t : Nat) : Prop :=
  (s.threads t).code.head? = some .enter ∧ s.criticalSectionCreated = false ∨
    (s.threads t).code.head? = some .leave ∧ s.criticalSection.owner ≠ some t

/-- Thread `t` is about to initialize the section a second time. -/
def InitializesTwice (s : State) (t : Nat) : Prop :=
  (s.threads t).code.head? = some (.act .initializeCriticalSection) ∧
    s.criticalSectionCreated = true

instance (s : State) (t : Nat) : Decidable (Faults s t) :=
  inferInstanceAs (Decidable ((s.threads t).code.head? = some .enter ∧
    s.criticalSectionCreated = false ∨
      (s.threads t).code.head? = some .leave ∧ s.criticalSection.owner ≠ some t))

instance (s : State) (t : Nat) : Decidable (InitializesTwice s t) :=
  inferInstanceAs (Decidable ((s.threads t).code.head? = some (.act .initializeCriticalSection) ∧
    s.criticalSectionCreated = true))

/-! ### Schedules -/

/-- One event of a schedule: an instruction of thread `t`, or for `none` a console control
event. -/
def next (s : State) : Option Nat → Option State
  | some t => if s.exited then none else threadStep s t
  | none => if s.exited then none else some s.consoleCtrl

/-- One event of a schedule of a serial run: also `none` for an instruction of a thread other
than `0` while `CriticalSectionInitialized` is unset. -/
def nextSerial (s : State) (e : Option Nat) : Option State :=
  if s.criticalSectionInitialized = false ∧ e ≠ none ∧ e ≠ some 0 then none else next s e

/-- The state after a schedule, each event run by `next`; `none` if an event cannot happen. -/
def runWith (next : State → Option Nat → Option State) (s : State) :
    List (Option Nat) → Option State
  | [] => some s
  | e :: es => (next s e).bind fun s => runWith next s es

/-- The state after a schedule. -/
def run : State → List (Option Nat) → Option State := runWith next

/-- The state after a schedule of a serial run. -/
def runSerial : State → List (Option Nat) → Option State := runWith nextSerial

theorem step_of_next {s s' : State} {e : Option Nat} (h : next s e = some s') : Step s s' := by
  cases e with
  | some t =>
    unfold next at h
    split_ifs at h with hx
    exact .thread t (by simpa using hx) h
  | none =>
    unfold next at h
    split_ifs at h with hx
    cases h
    exact .consoleCtrl (by simpa using hx)

theorem serialStep_of_nextSerial {s s' : State} {e : Option Nat} (h : nextSerial s e = some s') :
    SerialStep s s' := by
  unfold nextSerial at h
  split_ifs at h with hs
  cases e with
  | some t =>
    unfold next at h
    split_ifs at h with hx
    refine .thread t (by simpa using hx) (fun hf => ?_) h
    by_contra ht
    exact hs ⟨hf, by simp, by simpa using ht⟩
  | none =>
    unfold next at h
    split_ifs at h with hx
    cases h
    exact .consoleCtrl (by simpa using hx)

theorem reflTransGen_of_runWith {r : State → State → Prop}
    (nxt : State → Option Nat → Option State) (hr : ∀ s s' e, nxt s e = some s' → r s s') :
    ∀ {s s' : State} {es : List (Option Nat)}, runWith nxt s es = some s' →
      Relation.ReflTransGen r s s'
  | _, _, [], h => by cases h; exact .refl
  | _, _, _ :: _, h => by
    obtain ⟨_, h₁, h₂⟩ := Option.bind_eq_some.mp h
    exact .head (hr _ _ _ h₁) (reflTransGen_of_runWith nxt hr h₂)

theorem SerialStep.step {s s' : State} (h : SerialStep s s') : Step s s' := by
  cases h with
  | thread t hx _ h => exact .thread t hx h
  | consoleCtrl hx => exact .consoleCtrl hx

/-- A serial run is a run. -/
theorem SerialReachable.reachable {d : Bool} {clients : List (List Call)} {s : State}
    (h : SerialReachable d clients s) : Reachable d clients s :=
  h.mono fun _ _ => SerialStep.step

theorem reflTransGen_of_run {s s' : State} {es : List (Option Nat)} (h : run s es = some s') :
    Relation.ReflTransGen Step s s' :=
  reflTransGen_of_runWith next (fun _ _ _ => step_of_next) h

section Schedules

variable {debugHelpLoaded : Bool} {clients : List (List Call)} {es : List (Option Nat)}

/-- The state a schedule from the start reaches is reachable. -/
theorem reachable_run (h : (run (State.init debugHelpLoaded clients) es).isSome) (x : State) :
    Reachable debugHelpLoaded clients ((run (State.init debugHelpLoaded clients) es).getD x) := by
  obtain ⟨s', hs'⟩ := Option.isSome_iff_exists.mp h
  rw [hs', Option.getD_some]
  exact reflTransGen_of_run hs'

/-- The state a serial schedule from the start reaches is reachable by a serial run. -/
theorem serialReachable_runSerial
    (h : (runSerial (State.init debugHelpLoaded clients) es).isSome) (x : State) :
    SerialReachable debugHelpLoaded clients
      ((runSerial (State.init debugHelpLoaded clients) es).getD x) := by
  obtain ⟨s', hs'⟩ := Option.isSome_iff_exists.mp h
  rw [hs', Option.getD_some]
  exact reflTransGen_of_runWith nextSerial (fun _ _ _ => serialStep_of_nextSerial) hs'

end Schedules

/-! ### What one instruction does -/

namespace State

variable {s : State} {t u : Nat} {k : List Code} {a : Action}

@[simp] theorem code_setCode :
    ((s.setCode t k).threads u).code = if u = t then k else (s.threads u).code := by
  simp only [setCode, Function.update_apply]
  split_ifs <;> rfl

@[simp] theorem spawned_setCode : (s.setCode t k).spawned = s.spawned := rfl
@[simp] theorem exited_setCode : (s.setCode t k).exited = s.exited := rfl
@[simp] theorem debugHelpLoaded_setCode : (s.setCode t k).debugHelpLoaded = s.debugHelpLoaded :=
  rfl
@[simp] theorem criticalSectionCreated_setCode :
    (s.setCode t k).criticalSectionCreated = s.criticalSectionCreated := rfl
@[simp] theorem criticalSectionInitialized_setCode :
    (s.setCode t k).criticalSectionInitialized = s.criticalSectionInitialized := rfl

@[simp] theorem perform_created :
    (perform s t a).criticalSectionCreated =
      (s.criticalSectionCreated || a == .initializeCriticalSection) := by
  cases a <;> simp [perform, exit]

@[simp] theorem perform_initialized :
    (perform s t a).criticalSectionInitialized =
      (s.criticalSectionInitialized || a == .setCriticalSectionInitialized) := by
  cases a <;> simp [perform, exit]

@[simp] theorem perform_registered :
    (perform s t a).registeredUnhandledExceptionFilter =
      (s.registeredUnhandledExceptionFilter || a == .register) := by
  cases a <;> simp [perform, exit]

@[simp] theorem perform_exited : (perform s t a).exited = (s.exited || a.halts) := by
  cases a <;> simp [perform, exit, Action.halts]

@[simp] theorem perform_spawned : (perform s t a).spawned = s.spawned := by
  cases a <;> rfl

@[simp] theorem perform_debugHelpLoaded : (perform s t a).debugHelpLoaded = s.debugHelpLoaded := by
  cases a <;> rfl

/-- Only `InitializeCriticalSection` touches the section, and here only while no one owns it. -/
theorem perform_criticalSection (s : State) (t : Nat) (a : Action)
    (h : a = .initializeCriticalSection → s.criticalSection.owner = none) :
    (perform s t a).criticalSection.owner = s.criticalSection.owner ∧
      ∀ u, (perform s t a).criticalSection.held u = s.criticalSection.held u := by
  cases a <;> simp [perform, exit]
  have ho := h rfl
  exact ⟨ho.symm, fun u => (CriticalSection.held_eq_zero ho u).symm⟩

theorem perform_code (ha : a.halts = false) :
    ((perform s t a).threads u).code = (s.threads u).code := by
  cases a <;> simp_all [perform, Action.halts, Function.update_apply]
  split_ifs with h
  · subst h; rfl
  · rfl

theorem perform_code_of_halts (ha : a.halts = true) : ((perform s t a).threads u).code = [] := by
  cases a <;> simp_all [perform, Action.halts, exit]

end State

/-- What one instruction of thread `t` does, instruction by instruction. -/
inductive ThreadStep (s : State) (t : Nat) : State → Prop
  | skip {k} : (s.threads t).code = .skip :: k → ThreadStep s t (s.setCode t k)
  | seq {c₁ c₂ k} : (s.threads t).code = .seq c₁ c₂ :: k →
      ThreadStep s t (s.setCode t (c₁ :: c₂ :: k))
  | ite {x c₁ c₂ k} : (s.threads t).code = .ite x c₁ c₂ :: k →
      ThreadStep s t (s.setCode t ((if x.eval s (s.threads t) then c₁ else c₂) :: k))
  | enter {k cs} : (s.threads t).code = .enter :: k → s.criticalSectionCreated = true →
      s.criticalSection.enter t = some cs →
      ThreadStep s t { s.setCode t k with criticalSection := cs }
  | leave {k} : (s.threads t).code = .leave :: k → s.criticalSection.owner = some t →
      ThreadStep s t { s.setCode t k with criticalSection := s.criticalSection.leave }
  | act {a k} : (s.threads t).code = .act a :: k →
      (a = .initializeCriticalSection → s.criticalSectionCreated = false) →
      ThreadStep s t (perform (s.setCode t k) t a)

section ThreadStep

variable {s s' : State} {t : Nat}

/-- **Inversion lemma**: every instruction `threadStep` runs is one of `ThreadStep`'s. -/
theorem threadStep_eq_some (h : threadStep s t = some s') : ThreadStep s t s' := by
  unfold threadStep at h
  split at h
  next => cases h
  next k hk => cases h; exact .skip hk
  next c₁ c₂ k hk => cases h; exact .seq hk
  next x c₁ c₂ k hk => cases h; exact .ite hk
  next k hk =>
    split_ifs at h with hc
    obtain ⟨cs, hcs, rfl⟩ := Option.map_eq_some'.mp h
    exact .enter hk hc hcs
  next k hk =>
    split_ifs at h with ho
    cases h
    exact .leave hk ho
  next a k hk =>
    split_ifs at h with hg
    cases h
    exact .act hk fun ha => by simpa [ha] using hg

theorem threadStep_code_ne_nil (h : threadStep s t = some s') : (s.threads t).code ≠ [] := by
  intro hk
  simp [threadStep, hk] at h

/-- **Frame lemma**: an instruction keeps the environment, the number of threads and the code of
every other thread, unless it ends the process and every thread with it. -/
theorem threadStep_frame (h : threadStep s t = some s') :
    s'.spawned = s.spawned ∧ s'.debugHelpLoaded = s.debugHelpLoaded ∧
      ((s'.exited = s.exited ∧ ∀ u, u ≠ t → (s'.threads u).code = (s.threads u).code) ∨
        s'.exited = true ∧ ∀ u, (s'.threads u).code = []) := by
  have hcode : ∀ k u, u ≠ t → ((s.setCode t k).threads u).code = (s.threads u).code :=
    fun k u hu => by rw [State.code_setCode, if_neg hu]
  cases threadStep_eq_some h with
  | @act a k _ _ =>
    refine ⟨State.perform_spawned, State.perform_debugHelpLoaded, ?_⟩
    cases hh : a.halts
    · exact .inl ⟨by simp [hh], fun u hu => (State.perform_code hh).trans (hcode k u hu)⟩
    · exact .inr ⟨by simp [hh], fun u => State.perform_code_of_halts hh⟩
  | _ => exact ⟨rfl, rfl, .inl ⟨rfl, hcode _⟩⟩

/-- An instruction of thread `t` changes the owner of the section only from none or from `t`. -/
theorem threadStep_owner
    (hinit : s.criticalSectionCreated = false → s.criticalSection.owner = none)
    (h : threadStep s t = some s') :
    s'.criticalSection.owner = s.criticalSection.owner ∨ s.criticalSection.owner = none ∨
      s.criticalSection.owner = some t := by
  cases threadStep_eq_some h with
  | enter _ _ hcs =>
    right
    unfold CriticalSection.enter at hcs
    split at hcs
    next hn => exact .inl hn
    next o ho =>
      split_ifs at hcs with hot
      exact .inr (hot ▸ ho)
  | leave _ ho => exact .inr (.inr ho)
  | @act a k _ hg =>
    exact .inl (State.perform_criticalSection (s.setCode t k) t a fun ha => hinit (hg ha)).1
  | _ => exact .inl rfl

end ThreadStep

theorem Step.debugHelpLoaded {s s' : State} (h : Step s s') :
    s'.debugHelpLoaded = s.debugHelpLoaded := by
  cases h with
  | thread t _ h => exact (threadStep_frame h).2.1
  | consoleCtrl _ =>
    unfold State.consoleCtrl
    split_ifs <;> rfl

/-- The environment's `load64BitDebugHelp()` does not change along a run. -/
theorem Reachable.debugHelpLoaded {d : Bool} {clients : List (List Call)} {s : State}
    (h : Reachable d clients s) : s.debugHelpLoaded = d := by
  induction h with
  | refl => rfl
  | tail _ hs ih => rw [hs.debugHelpLoaded, ih]

/-! ### The lock discipline -/

/-- A test that passes only once `CriticalSectionInitialized` is set: `RegisterHandler` sets
`RegisteredUnhandledExceptionFilter` after `InitializeThreading`. -/
def Cond.showsInitialized : Cond → Bool
  | .registered | .criticalSectionInitialized => true
  | _ => false

/-- `Disciplined n c f k`: the code `k`, run by a thread that holds the section `n` times,
knowing it initialized when `c` and its flag set when `f`, enters the section only with the flag
set, leaves only a section it holds, sets the flag only after the section is initialized, and
performs the actions under the lock only holding it. A test that `showsInitialized` tells both;
with the debug help loaded, a test of it passes; after a halting action nothing runs. -/
inductive Disciplined : Nat → Bool → Bool → List Code → Prop
  | nil {n c f} : Disciplined n c f []
  | skip {n c f k} : Disciplined n c f k → Disciplined n c f (.skip :: k)
  | seq {n c f c₁ c₂ k} : Disciplined n c f (c₁ :: c₂ :: k) → Disciplined n c f (.seq c₁ c₂ :: k)
  | ite {n c f x c₁ c₂ k} :
      Disciplined n (c || x.showsInitialized) (f || x.showsInitialized) (c₁ :: k) →
      Disciplined n c f (c₂ :: k) → Disciplined n c f (.ite x c₁ c₂ :: k)
  | iteDebug {n c f c₁ c₂ k} : Disciplined n c f (c₁ :: k) →
      Disciplined n c f (.ite .debugHelpLoaded c₁ c₂ :: k)
  | enter {n c k} : Disciplined (n + 1) c true k → Disciplined n c true (.enter :: k)
  | leave {n c f k} : Disciplined n c f k → Disciplined (n + 1) c f (.leave :: k)
  | act {n c f a k} : (a.underLock → 0 < n) → (a = .setCriticalSectionInitialized → c = true) →
      Disciplined n (c || a == .initializeCriticalSection)
        (f || a == .setCriticalSectionInitialized) k → Disciplined n c f (.act a :: k)
  | halt {n c f a k} : a.halts → Disciplined n c f (.act a :: k)

namespace Disciplined

variable {n : Nat} {c f : Bool} {x : Cond} {a : Action} {c₁ c₂ : Code} {k : List Code}

/-- Holding the section once more keeps code disciplined. -/
theorem succ (h : Disciplined n c f k) : Disciplined (n + 1) c f k := by
  induction h with
  | nil => exact .nil
  | skip _ ih => exact .skip ih
  | seq _ ih => exact .seq ih
  | ite _ _ ih₁ ih₂ => exact .ite ih₁ ih₂
  | iteDebug _ ih => exact .iteDebug ih
  | enter _ ih => exact .enter ih
  | leave _ ih => exact .leave ih
  | act _ hs _ ih => exact .act (fun _ => Nat.succ_pos _) hs ih
  | halt ha => exact .halt ha

/-- Knowing more keeps code disciplined. -/
theorem mono {c' f' : Bool} (h : Disciplined n c f k) (hc : c = true → c' = true)
    (hf : f = true → f' = true) : Disciplined n c' f' k := by
  have hor : ∀ {b b' : Bool} (d : Bool), (b = true → b' = true) →
      (b || d) = true → (b' || d) = true := fun d hb h => by
    rw [Bool.or_eq_true] at h ⊢
    exact h.imp_left hb
  induction h generalizing c' f' with
  | nil => exact .nil
  | skip _ ih => exact .skip (ih hc hf)
  | seq _ ih => exact .seq (ih hc hf)
  | ite _ _ ih₁ ih₂ => exact .ite (ih₁ (hor _ hc) (hor _ hf)) (ih₂ hc hf)
  | iteDebug _ ih => exact .iteDebug (ih hc hf)
  | enter _ ih =>
    rw [hf rfl]
    exact .enter (ih hc fun _ => rfl)
  | leave _ ih => exact .leave (ih hc hf)
  | act hu hs _ ih => exact .act hu (fun ha => hc (hs ha)) (ih (hor _ hc) (hor _ hf))
  | halt ha => exact .halt ha

/-- A test that tells the flag set, with its passing branch typed knowing both. -/
theorem ite_shows (hx : x.showsInitialized = true) (h₁ : Disciplined n true true (c₁ :: k))
    (h₂ : Disciplined n c f (c₂ :: k)) : Disciplined n c f (.ite x c₁ c₂ :: k) :=
  .ite (h₁.mono (fun _ => by rw [hx, Bool.or_true]) fun _ => by rw [hx, Bool.or_true]) h₂

/-- A test that tells nothing about the section. -/
theorem ite_of_not_shows (hx : x.showsInitialized = false) (h₁ : Disciplined n c f (c₁ :: k))
    (h₂ : Disciplined n c f (c₂ :: k)) : Disciplined n c f (.ite x c₁ c₂ :: k) :=
  .ite (by rwa [hx, Bool.or_false, Bool.or_false]) h₂

/-- An action that neither initializes the section nor sets its flag, continued with the same
knowledge. -/
theorem act_of_ne (hu : a.underLock → 0 < n) (hi : a ≠ .initializeCriticalSection)
    (hs : a ≠ .setCriticalSectionInitialized) (h : Disciplined n c f k) :
    Disciplined n c f (.act a :: k) :=
  .act hu (fun h => absurd h hs)
    (by rwa [beq_eq_false_iff_ne.mpr hi, beq_eq_false_iff_ne.mpr hs, Bool.or_false, Bool.or_false])

theorem of_skip (h : Disciplined n c f (.skip :: k)) : Disciplined n c f k := by
  cases h
  assumption

theorem of_seq (h : Disciplined n c f (.seq c₁ c₂ :: k)) : Disciplined n c f (c₁ :: c₂ :: k) := by
  cases h
  assumption

theorem of_ite (h : Disciplined n c f (.ite x c₁ c₂ :: k)) :
    (Disciplined n (c || x.showsInitialized) (f || x.showsInitialized) (c₁ :: k) ∧
      Disciplined n c f (c₂ :: k)) ∨ (x = .debugHelpLoaded ∧ Disciplined n c f (c₁ :: k)) := by
  cases h
  · exact .inl ⟨‹_›, ‹_›⟩
  · exact .inr ⟨rfl, ‹_›⟩

theorem of_enter (h : Disciplined n c f (.enter :: k)) : f = true ∧ Disciplined (n + 1) c f k := by
  cases h
  exact ⟨rfl, ‹_›⟩

theorem of_leave (h : Disciplined n c f (.leave :: k)) : ∃ m, n = m + 1 ∧ Disciplined m c f k := by
  cases h
  exact ⟨_, rfl, ‹_›⟩

theorem of_act (h : Disciplined n c f (.act a :: k)) :
    a.halts ∨ ((a.underLock → 0 < n) ∧ (a = .setCriticalSectionInitialized → c = true) ∧
      Disciplined n (c || a == .initializeCriticalSection)
        (f || a == .setCriticalSectionInitialized) k) := by
  cases h with
  | act hu hs hk => exact .inr ⟨hu, hs, hk⟩
  | halt ha => exact .inl ha

end Disciplined

section Discipline

open Disciplined

variable {n : Nat} {c f : Bool} {k : List Code}

/-- `InitializeThreading` returns with the section initialized and its flag set. -/
theorem disciplined_initializeThreading (h : Disciplined n true true k) :
    Disciplined n c f (initializeThreading :: k) :=
  ite_shows rfl (.skip h)
    (.seq (.act (fun h => nomatch h) (fun h => nomatch h)
      (.act (fun h => nomatch h) (fun _ => by simp) (h.mono (fun _ => by simp) fun _ => by simp))))

/-- With the debug help loaded, `RegisterHandler` returns with the section initialized and
entered once more. -/
theorem disciplined_registerHandler (h : Disciplined (n + 1) true true k) :
    Disciplined n c f (registerHandler :: k) :=
  .iteDebug (ite_shows rfl (.enter h) (.seq (disciplined_initializeThreading
    (.seq (.enter (act_of_ne (fun _ => Nat.succ_pos n) nofun nofun h))))))

/-- `Cleanup` leaves the section as it found it. -/
theorem disciplined_cleanup (h : Disciplined n true true k) :
    Disciplined n true true (cleanup :: k) :=
  have held : ∀ {a k}, a ≠ .initializeCriticalSection → a ≠ .setCriticalSectionInitialized →
      Disciplined (n + 1) true true k → Disciplined (n + 1) true true (.act a :: k) :=
    act_of_ne fun _ => Nat.succ_pos n
  ite_of_not_shows rfl (.skip h)
    (.seq (.enter (.seq (held nofun nofun (.seq (held nofun nofun
      (.seq (held nofun nofun (.leave h)))))))))

/-- The console handler leaves the section as it found it. -/
theorem disciplined_consoleCtrlHandler : Disciplined 0 true true [llvmConsoleCtrlHandler] :=
  .seq (.enter (.seq (disciplined_cleanup (.seq (act_of_ne (fun _ => Nat.succ_pos 0) nofun nofun
    (ite_of_not_shows rfl (.seq (act_of_ne (fun _ => Nat.succ_pos 0) nofun nofun (.leave .nil)))
      (.seq (.leave (.halt rfl)))))))))

/-- With the debug help loaded, every call leaves the section as it found it, or, for
`RemoveFileOnSignal` after `Cleanup`, entered once more. -/
theorem Call.disciplined (call : Call) (h : Disciplined n c f k) :
    Disciplined n c f (call.code :: k) := by
  have h₀ : Disciplined n true true k := h.mono (fun _ => rfl) fun _ => rfl
  have h₁ : Disciplined (n + 1) true true (.leave :: k) := .leave h₀
  have held : ∀ {a k}, a ≠ .initializeCriticalSection → a ≠ .setCriticalSectionInitialized →
      Disciplined (n + 1) true true k → Disciplined (n + 1) true true (.act a :: k) :=
    act_of_ne fun _ => Nat.succ_pos n
  cases call with
  | removeFileOnSignal filename =>
    have hpush : Disciplined (n + 1) true true
        (.seq (.act (.pushFileToRemove filename)) .leave :: k) :=
      .seq (held nofun nofun h₁)
    exact .seq (disciplined_registerHandler (ite_of_not_shows rfl (.skip h₀.succ)
      (.seq (ite_of_not_shows rfl (held nofun nofun hpush) (.skip hpush)))))
  | dontRemoveFileOnSignal filename =>
    exact ite_of_not_shows rfl (.skip h)
      (.seq (disciplined_registerHandler (.seq (held nofun nofun h₁))))
  | printStackTraceOnErrorSignal => exact .seq (disciplined_registerHandler h₁)
  | setInterruptFunction f =>
    exact .seq (disciplined_registerHandler (.seq (held nofun nofun h₁)))
  | addSignalHandler fn =>
    exact .seq (act_of_ne nofun nofun nofun (.seq (disciplined_registerHandler h₁)))
  | runInterruptHandlers =>
    exact .seq (disciplined_initializeThreading (disciplined_cleanup h₀))
  | unhandledException =>
    exact ite_shows rfl (.seq (disciplined_cleanup (.halt rfl))) (.halt rfl)

theorem disciplined_calls (calls : List Call) : Disciplined n c f (calls.map Call.code) := by
  induction calls with
  | nil => exact .nil
  | cons call calls ih => exact call.disciplined ih

end Discipline

/-! ### What every reachable state keeps -/

/-- What every reachable state with the debug help loaded keeps: the owner of the section is a
thread that exists, the section is owned only with its flag set, the flag is set once the
handlers are registered and only once the section is initialized, and every thread's code is
disciplined with what it holds. -/
structure Inv (s : State) : Prop where
  debug : s.debugHelpLoaded = true
  owner_lt : ∀ t, s.criticalSection.owner = some t → t < s.spawned
  idle_of_le : ∀ t, s.spawned ≤ t → (s.threads t).code = []
  initialized_of_owner : ∀ t, s.criticalSection.owner = some t → s.criticalSectionInitialized
  initialized_of_registered : s.registeredUnhandledExceptionFilter → s.criticalSectionInitialized
  created_of_initialized : s.criticalSectionInitialized → s.criticalSectionCreated
  disciplined : ∀ t, Disciplined (s.criticalSection.held t) s.criticalSectionCreated
    s.criticalSectionInitialized (s.threads t).code

namespace Inv

variable {s s' : State} {t : Nat} {k : List Code}

theorem lt_of_code (hi : Inv s) (h : (s.threads t).code ≠ []) : t < s.spawned := by
  by_contra hn
  exact h (hi.idle_of_le t (Nat.le_of_not_lt hn))

theorem owner_of_uncreated (hi : Inv s) (h : s.criticalSectionCreated = false) :
    s.criticalSection.owner = none := by
  cases ho : s.criticalSection.owner with
  | none => rfl
  | some o => simp [hi.created_of_initialized (hi.initialized_of_owner o ho)] at h

/-- A passing test that `showsInitialized` tells the flag set and the section initialized. -/
theorem shows {x : Cond} {th : Thread} (hi : Inv s) (hx : x.showsInitialized = true)
    (he : x.eval s th = true) :
    s.criticalSectionInitialized = true ∧ s.criticalSectionCreated = true := by
  have hf : s.criticalSectionInitialized = true := by
    cases x <;> simp_all [Cond.showsInitialized, Cond.eval, hi.initialized_of_registered]
  exact ⟨hf, hi.created_of_initialized hf⟩

theorem idle_setCode (hi : Inv s) (ht : t < s.spawned) (u : Nat) (hu : s.spawned ≤ u) :
    ((s.setCode t k).threads u).code = [] := by
  rw [State.code_setCode, if_neg (by omega)]
  exact hi.idle_of_le u hu

theorem setCode (hi : Inv s) (ht : t < s.spawned)
    (hk : Disciplined (s.criticalSection.held t) s.criticalSectionCreated
      s.criticalSectionInitialized k) :
    Inv (s.setCode t k) where
  debug := hi.debug
  owner_lt := hi.owner_lt
  idle_of_le := hi.idle_setCode ht
  initialized_of_owner := hi.initialized_of_owner
  initialized_of_registered := hi.initialized_of_registered
  created_of_initialized := hi.created_of_initialized
  disciplined u := by
    rw [State.code_setCode]
    split_ifs with h
    · subst h; exact hk
    · exact hi.disciplined u

/-- An instruction that enters the section. -/
theorem enter (hi : Inv s) (ht : t < s.spawned) (hin : s.criticalSectionInitialized)
    (hk : Disciplined (s.criticalSection.held t + 1) s.criticalSectionCreated true k)
    {cs : CriticalSection} (hcs : s.criticalSection.enter t = some cs) :
    Inv { s.setCode t k with criticalSection := cs } := by
  obtain ⟨ho, hht, hhu⟩ := CriticalSection.enter_eq_some hcs
  refine ⟨hi.debug, fun o h => ?_, hi.idle_setCode ht, fun _ _ => hin, hi.initialized_of_registered,
    hi.created_of_initialized, fun u => ?_⟩
  · rw [ho] at h; cases h; exact ht
  · show Disciplined (cs.held u) s.criticalSectionCreated s.criticalSectionInitialized
      ((s.setCode t k).threads u).code
    rw [State.code_setCode]
    split_ifs with hu
    · subst hu; rw [hht, hin]; exact hk
    · rw [hhu u hu]; exact hi.disciplined u

/-- An instruction that leaves the section its thread owns. -/
theorem leave (hi : Inv s) (ht : t < s.spawned) (ho : s.criticalSection.owner = some t)
    {m : Nat} (hm : s.criticalSection.held t = m + 1)
    (hk : Disciplined m s.criticalSectionCreated s.criticalSectionInitialized k) :
    Inv { s.setCode t k with criticalSection := s.criticalSection.leave } := by
  obtain ⟨hht, hhu⟩ := CriticalSection.leave_held ho
  have hin := hi.initialized_of_owner t ho
  refine ⟨hi.debug, fun o h => ?_, hi.idle_setCode ht, fun _ _ => hin, hi.initialized_of_registered,
    hi.created_of_initialized, fun u => ?_⟩
  · rcases CriticalSection.leave_owner ho with h' | h' <;> rw [h'] at h <;> cases h; exact ht
  · show Disciplined (s.criticalSection.leave.held u) s.criticalSectionCreated
      s.criticalSectionInitialized ((s.setCode t k).threads u).code
    rw [State.code_setCode]
    split_ifs with hu
    · subst hu; rw [hht, hm]; exact hk
    · rw [hhu u hu]; exact hi.disciplined u

/-- The end of the process keeps the invariant: no thread runs any more. -/
theorem exit (hi : Inv s) (es : List Effect) : Inv { s.exit with effects := es } where
  debug := hi.debug
  owner_lt := hi.owner_lt
  idle_of_le _ _ := rfl
  initialized_of_owner := hi.initialized_of_owner
  initialized_of_registered := hi.initialized_of_registered
  created_of_initialized := hi.created_of_initialized
  disciplined _ := .nil

/-- An action of a thread whose code is disciplined, other than a second initialization. -/
theorem perform (hi : Inv s) (ht : t < s.spawned) {a : Action}
    (hg : a = .initializeCriticalSection → s.criticalSectionCreated = false)
    (hd : Disciplined (s.criticalSection.held t) s.criticalSectionCreated
      s.criticalSectionInitialized (.act a :: k)) :
    Inv (perform (s.setCode t k) t a) := by
  cases hh : a.halts with
  | true =>
    cases a <;> simp [Action.halts] at hh
    exact hi.exit _
  | false =>
    rcases hd.of_act with ha | ⟨hu, hs, hk⟩
    · rw [ha] at hh; cases hh
    obtain ⟨ho, hheld⟩ := State.perform_criticalSection (s.setCode t k) t a
      fun h => hi.owner_of_uncreated (hg h)
    have hown : ∀ o, (Windows.perform (s.setCode t k) t a).criticalSection.owner = some o →
        s.criticalSectionInitialized := fun o h => hi.initialized_of_owner o (ho ▸ h)
    refine ⟨by simp [hi.debug], fun o h => by simpa using hi.owner_lt o (ho ▸ h),
      fun u hu => ?_, fun o h => by simp [hown o h], fun h => ?_, fun h => ?_, fun u => ?_⟩
    · rw [State.perform_code hh, State.code_setCode, if_neg (by simp at hu; omega)]
      exact hi.idle_of_le u (by simpa using hu)
    · simp only [State.perform_registered, State.perform_initialized,
        State.criticalSectionInitialized_setCode, Bool.or_eq_true, beq_iff_eq] at h ⊢
      rcases h with h | rfl
      · exact .inl (hi.initialized_of_registered h)
      · exact .inl (hi.initialized_of_owner t (CriticalSection.owner_of_held_pos (hu rfl)))
    · simp only [State.perform_created, State.perform_initialized,
        State.criticalSectionCreated_setCode, State.criticalSectionInitialized_setCode,
        Bool.or_eq_true, beq_iff_eq] at h ⊢
      rcases h with h | rfl
      · exact .inl (hi.created_of_initialized h)
      · exact .inl (hs rfl)
    · rw [hheld, State.perform_code hh, State.code_setCode, State.perform_created,
        State.perform_initialized]
      split_ifs with h
      · subst h; exact hk
      · exact (hi.disciplined u).mono (fun hb => by simp [hb]) fun hb => by simp [hb]

/-- **Step lemma** for the threads: one instruction keeps the invariant. -/
theorem threadStep (hi : Inv s) (h : Windows.threadStep s t = some s') : Inv s' := by
  have hd : ∀ {c k}, (s.threads t).code = c :: k → t < s.spawned ∧
      Disciplined (s.criticalSection.held t) s.criticalSectionCreated
        s.criticalSectionInitialized (c :: k) :=
    fun hk => ⟨hi.lt_of_code (by simp [hk]), hk ▸ hi.disciplined t⟩
  cases threadStep_eq_some h with
  | skip hk => exact hi.setCode (hd hk).1 (hd hk).2.of_skip
  | seq hk => exact hi.setCode (hd hk).1 (hd hk).2.of_seq
  | @ite x c₁ c₂ k hk =>
    refine hi.setCode (hd hk).1 ?_
    rcases (hd hk).2.of_ite with ⟨h₁, h₂⟩ | ⟨rfl, h₁⟩
    · split_ifs with he
      · cases hx : x.showsInitialized
        · simpa [hx] using h₁
        · obtain ⟨hf, hc⟩ := hi.shows hx he
          simpa [hx, hf, hc] using h₁
      · exact h₂
    · simpa [Cond.eval, hi.debug] using h₁
  | enter hk _ hcs =>
    obtain ⟨hin, hk'⟩ := (hd hk).2.of_enter
    exact hi.enter (hd hk).1 hin (by rwa [hin] at hk') hcs
  | leave hk ho =>
    obtain ⟨m, hm, hk'⟩ := (hd hk).2.of_leave
    exact hi.leave (hd hk).1 ho hm hk'
  | act hk hg => exact hi.perform (hd hk).1 hg (hd hk).2

/-- **Step lemma** for the console: a new handler thread keeps the invariant. -/
theorem consoleCtrl (hi : Inv s) : Inv s.consoleCtrl := by
  unfold State.consoleCtrl
  split_ifs with hr
  · have hin := hi.initialized_of_registered hr
    have hfree : s.criticalSection.held s.spawned = 0 := by
      unfold CriticalSection.held
      split_ifs with h
      · exact absurd (hi.owner_lt _ h) (lt_irrefl _)
      · rfl
    refine ⟨hi.debug, fun o h => Nat.lt_succ_of_lt (hi.owner_lt o h), fun u hu => ?_,
      hi.initialized_of_owner, hi.initialized_of_registered, hi.created_of_initialized,
      fun u => ?_⟩
    · have hu' : s.spawned + 1 ≤ u := hu
      show (Function.update s.threads s.spawned _ u).code = []
      rw [Function.update_noteq (by omega)]
      exact hi.idle_of_le u (by omega)
    · show Disciplined (s.criticalSection.held u) s.criticalSectionCreated
        s.criticalSectionInitialized (Function.update s.threads s.spawned _ u).code
      rw [Function.update_apply]
      split_ifs with hu
      · subst hu
        rw [hfree, hin, hi.created_of_initialized hin]
        exact disciplined_consoleCtrlHandler
      · exact hi.disciplined u
  · exact hi.exit _

theorem step (hi : Inv s) (h : Step s s') : Inv s' := by
  cases h with
  | thread t _ h => exact hi.threadStep h
  | consoleCtrl _ => exact hi.consoleCtrl

/-- A thread at an action under the lock owns the section. -/
theorem owner_of_underLock (hi : Inv s) {a : Action} {k : List Code}
    (hk : (s.threads t).code = .act a :: k) (ha : a.underLock) :
    s.criticalSection.owner = some t := by
  have hd := hi.disciplined t
  rw [hk] at hd
  rcases hd.of_act with hh | ⟨hu, -⟩
  · cases a <;> simp_all [Action.halts, Action.underLock]
  · exact CriticalSection.owner_of_held_pos (hu ha)

/-- A disciplined thread does not fault. -/
theorem not_faults (hi : Inv s) (t : Nat) : ¬ Faults s t := by
  have hd := hi.disciplined t
  rintro (⟨hk, hc⟩ | ⟨hk, ho⟩) <;> obtain ⟨k, hk⟩ := List.head?_eq_some_iff.mp hk <;>
    rw [hk] at hd
  · simp [hi.created_of_initialized hd.of_enter.1] at hc
  · obtain ⟨m, hm, -⟩ := hd.of_leave
    exact ho (CriticalSection.owner_of_held_pos (by omega))

end Inv

theorem inv_init (clients : List (List Call)) : Inv (State.init true clients) where
  debug := rfl
  owner_lt _ h := nomatch h
  idle_of_le t ht := by simp [State.init, List.getElem?_eq_none ht]
  initialized_of_owner _ h := nomatch h
  initialized_of_registered h := nomatch h
  created_of_initialized h := nomatch h
  disciplined _ := disciplined_calls _

/-- **Run lemma**: every state reachable with the debug help loaded keeps the invariant. -/
theorem Reachable.inv {clients : List (List Call)} {s : State} (h : Reachable true clients s) :
    Inv s := by
  induction h with
  | refl => exact inv_init clients
  | tail _ hs ih => exact ih.step hs

/-- **The section is used safely.** With the debug help loaded, in every run whose first call
is made by one thread, for any client threads, each making any calls of the public functions,
interleaved in any way after the first call, with console control events at any time, no
thread is about to enter the critical section before `InitializeCriticalSection`, or to leave a
critical section it does not own. -/
theorem serialReachable_not_faults {clients : List (List Call)} {s : State}
    (h : SerialReachable true clients s) (t : Nat) : ¬ Faults s t :=
  h.reachable.inv.not_faults t

theorem serialReachable_not_faults_setInterruptFunction :
    let clients := [[Call.setInterruptFunction (some 1)]]
    let s := (runSerial (State.init true clients) (List.replicate 13 (some 0))).getD
      (State.init true [])
    SerialReachable true clients s ∧ ¬ Faults s 0 :=
  by
    intro clients s
    have hr : SerialReachable true clients s := serialReachable_runSerial (by decide) _
    exact ⟨hr, serialReachable_not_faults hr 0⟩

/-- **The globals are changed under the lock.** With the debug help loaded, in every state of a
run whose first call is made by one thread, a thread about to perform an action the source
places inside the critical section owns it; as the section has one owner, no two threads are
ever at such actions together. -/
theorem serialReachable_underLock_owner {clients : List (List Call)} {s : State}
    (h : SerialReachable true clients s) {t : Nat} {a : Action} {k : List Code}
    (hk : (s.threads t).code = .act a :: k) (ha : a.underLock) :
    s.criticalSection.owner = some t :=
  h.reachable.inv.owner_of_underLock hk ha

theorem serialReachable_underLock_owner_register :
    let clients := [[Call.setInterruptFunction (some 1)]]
    let s := (runSerial (State.init true clients) (List.replicate 10 (some 0))).getD
      (State.init true [])
    SerialReachable true clients s ∧
      (s.threads 0).code = .act .register :: (s.threads 0).code.tail ∧
      Action.register.underLock ∧ s.criticalSection.owner = some 0 :=
  by
    intro clients s
    have hr : SerialReachable true clients s := serialReachable_runSerial (by decide) _
    have hk : (s.threads 0).code = .act .register :: (s.threads 0).code.tail := by decide
    exact ⟨hr, hk, rfl, serialReachable_underLock_owner hr hk rfl⟩

/-! ### One initialization -/

/-- Every `InitializeCriticalSection` and `CriticalSectionInitialized = true` of the code is in
`createCriticalSection`, the branch of `InitializeThreading` taken when the flag is unset. -/
def Code.guarded : Code → Bool
  | .seq c₁ c₂ => c₁.guarded && c₂.guarded
  | .ite .criticalSectionInitialized c₁ c₂ => c₁.guarded && c₂ == createCriticalSection
  | .ite _ c₁ c₂ => c₁.guarded && c₂.guarded
  | .act a => a != .initializeCriticalSection && a != .setCriticalSectionInitialized
  | _ => true

/-- Every instruction of the list is guarded. -/
def Guarded (k : List Code) : Prop := ∀ c ∈ k, c.guarded

section Serial

variable {s s' : State} {t : Nat} {c f : Bool} {k k' : List Code}

@[simp] theorem guarded_nil : Guarded [] := fun _ h => nomatch h

@[simp] theorem guarded_cons {c : Code} : Guarded (c :: k) ↔ c.guarded ∧ Guarded k :=
  List.forall_mem_cons

theorem not_guarded_initializeCriticalSection : ¬ Guarded (.act .initializeCriticalSection :: k) := by
  simp [Code.guarded]

theorem Code.guarded_ite {x : Cond} {c₁ c₂ : Code} (h : (Code.ite x c₁ c₂).guarded) :
    c₁.guarded ∧ (x = .criticalSectionInitialized ∧ c₂ = createCriticalSection ∨ c₂.guarded) := by
  cases x <;> simp_all [Code.guarded]

theorem guarded_calls (calls : List Call) : Guarded (calls.map Call.code) := by
  intro c hc
  obtain ⟨call, -, rfl⟩ := List.mem_map.mp hc
  cases call <;> rfl

theorem guarded_consoleCtrlHandler : Guarded [llvmConsoleCtrlHandler] := by
  simp only [guarded_cons, guarded_nil, and_true]
  rfl

/-- One instruction of guarded code neither initializes the section nor sets its flag, and
leaves the code guarded, but for a failed test of the flag, which goes on with
`createCriticalSection`. -/
theorem threadStep_guarded (h : threadStep s t = some s') (hg : Guarded (s.threads t).code) :
    s'.criticalSectionCreated = s.criticalSectionCreated ∧
      s'.criticalSectionInitialized = s.criticalSectionInitialized ∧
      (Guarded (s'.threads t).code ∨ s.criticalSectionInitialized = false ∧
        ∃ k, Guarded k ∧ (s'.threads t).code = createCriticalSection :: k) := by
  cases threadStep_eq_some h with
  | @ite x c₁ c₂ k hk =>
    rw [hk, guarded_cons] at hg
    refine ⟨rfl, rfl, ?_⟩
    rw [State.code_setCode, if_pos rfl]
    obtain ⟨h₁, ⟨rfl, rfl⟩ | h₂⟩ := Code.guarded_ite hg.1
    · cases hf : s.criticalSectionInitialized
      · exact .inr ⟨rfl, k, hg.2, by simp [Cond.eval, hf]⟩
      · exact .inl (by simp [Cond.eval, hf, h₁, hg.2])
    · exact .inl (by split <;> simp [*])
  | @act a k hk _ =>
    rw [hk, guarded_cons] at hg
    simp only [Code.guarded, Bool.and_eq_true, bne_iff_ne, ne_eq] at hg
    refine ⟨by simp [hg.1.1], by simp [hg.1.2], .inl ?_⟩
    cases hh : a.halts
    · rw [State.perform_code hh, State.code_setCode, if_pos rfl]; exact hg.2
    · rw [State.perform_code_of_halts hh]; exact guarded_nil
  | skip hk => exact ⟨rfl, rfl, .inl (by simp_all)⟩
  | seq hk => exact ⟨rfl, rfl, .inl (by simp_all [Code.guarded])⟩
  | enter hk => exact ⟨rfl, rfl, .inl (by simp_all)⟩
  | leave hk => exact ⟨rfl, rfl, .inl (by simp_all)⟩

/-- Where thread `0` is in a serial run: on guarded code, with the section not initialized or
the flag set; about to run `createCriticalSection`, its first step or its second, the flag
unset. -/
inductive InitPhase : Bool → Bool → List Code → Prop
  | guarded {c f k} : Guarded k → f = true ∨ c = false → InitPhase c f k
  | window {k} : Guarded k → InitPhase false false (createCriticalSection :: k)
  | creating {k} : Guarded k → InitPhase false false
      (.act .initializeCriticalSection :: .act .setCriticalSectionInitialized :: k)
  | setting {k} : Guarded k → InitPhase true false (.act .setCriticalSectionInitialized :: k)

theorem InitPhase.of_nil (h : InitPhase c f []) : f = true ∨ c = false := by
  cases h
  assumption

theorem InitPhase.not_initializeCriticalSection (hp : InitPhase c f k) (hc : c = true)
    (hk : k = .act .initializeCriticalSection :: k') : False := by
  cases hp with
  | guarded hg _ => exact not_guarded_initializeCriticalSection (hk ▸ hg)
  | setting _ => cases hk
  | _ => cases hc

/-- **Step lemma** for thread `0`: one instruction keeps its phase. -/
theorem InitPhase.threadStep (hp : InitPhase c f k) (hc : s.criticalSectionCreated = c)
    (hf : s.criticalSectionInitialized = f) (hk : (s.threads t).code = k)
    (h : Windows.threadStep s t = some s') :
    InitPhase s'.criticalSectionCreated s'.criticalSectionInitialized (s'.threads t).code := by
  cases hp with
  | guarded hg hcf =>
    subst hc hf hk
    obtain ⟨hc', hf', hg' | ⟨hf0, k', hk', h'⟩⟩ := threadStep_guarded h hg
    · rw [hc', hf']
      exact .guarded hg' hcf
    · rw [hc', hf', h', hf0, show s.criticalSectionCreated = false by simpa [hf0] using hcf]
      exact .window hk'
  | window hg =>
    simp only [Windows.threadStep, hk, createCriticalSection, Option.some.injEq] at h
    subst h
    simpa [hc, hf] using InitPhase.creating hg
  | creating hg =>
    simp [Windows.threadStep, hk, hc] at h
    subst h
    simpa [hc, hf, State.perform_code, Action.halts] using InitPhase.setting hg
  | setting hg =>
    simp [Windows.threadStep, hk] at h
    subst h
    simpa [hc, hf, State.perform_code, Action.halts] using
      (InitPhase.guarded hg (.inl rfl) : InitPhase true true _)

/-- What serial runs keep: every thread but `0` runs guarded code, and thread `0` is in its
phase of the initialization; once the process has ended, no thread runs. -/
structure SerialInv (s : State) : Prop where
  others : ∀ t, t ≠ 0 → Guarded (s.threads t).code
  idle_of_le : ∀ t, s.spawned ≤ t → (s.threads t).code = []
  idle_of_exited : s.exited = true → ∀ t, (s.threads t).code = []
  phase : s.exited = false →
    InitPhase s.criticalSectionCreated s.criticalSectionInitialized (s.threads 0).code

theorem serialInv_init (debugHelpLoaded : Bool) (clients : List (List Call)) :
    SerialInv (State.init debugHelpLoaded clients) where
  others _ _ := guarded_calls _
  idle_of_le t ht := by simp [State.init, List.getElem?_eq_none ht]
  idle_of_exited h := nomatch h
  phase _ := .guarded (guarded_calls _) (.inr rfl)

namespace SerialInv

/-- The end of the process keeps the invariant. -/
theorem exit (es : List Effect) : SerialInv { s.exit with effects := es } where
  others _ _ := guarded_nil
  idle_of_le _ _ := rfl
  idle_of_exited _ _ := rfl
  phase h := nomatch h

/-- **Step lemma** for the threads: an instruction of thread `0`, or of another thread once the
flag is set, keeps the invariant. -/
theorem threadStep (hi : SerialInv s) (hx : s.exited = false)
    (hser : s.criticalSectionInitialized = false → t = 0) (h : threadStep s t = some s') :
    SerialInv s' := by
  obtain ⟨hsp, -, ⟨hx', hcode⟩ | ⟨hx', hidle⟩⟩ := threadStep_frame h
  · have ht : t < s.spawned := by
      by_contra hn
      exact threadStep_code_ne_nil h (hi.idle_of_le t (Nat.le_of_not_lt hn))
    have hle : ∀ u, s'.spawned ≤ u → (s'.threads u).code = [] := fun u hu => by
      rw [hcode u (by omega), hi.idle_of_le u (by omega)]
    have hnx : s'.exited = true → ∀ u, (s'.threads u).code = [] := fun h => by
      simp [hx', hx] at h
    by_cases t0 : t = 0
    · subst t0
      exact ⟨fun u hu => hcode u hu ▸ hi.others u hu, hle, hnx,
        fun _ => (hi.phase hx).threadStep rfl rfl rfl h⟩
    · have hf : s.criticalSectionInitialized = true := by
        by_contra hf
        exact t0 (hser (by simpa using hf))
      obtain ⟨hc', hf', hg' | ⟨hf0, -⟩⟩ := threadStep_guarded h (hi.others t t0)
      · refine ⟨fun u hu => ?_, hle, hnx, fun _ => ?_⟩
        · by_cases hut : u = t
          · exact hut ▸ hg'
          · exact hcode u hut ▸ hi.others u hu
        · rw [hc', hf', hcode 0 (Ne.symm t0)]
          exact hi.phase hx
      · simp [hf] at hf0
  · exact ⟨fun u _ => hidle u ▸ guarded_nil, fun u _ => hidle u, fun _ => hidle,
      fun h => by simp [hx'] at h⟩

/-- **Step lemma** for the console. -/
theorem consoleCtrl (hi : SerialInv s) (hx : s.exited = false) : SerialInv s.consoleCtrl := by
  unfold State.consoleCtrl
  split_ifs with hr
  · have hnew : ∀ u, (Function.update s.threads s.spawned ⟨[llvmConsoleCtrlHandler], none⟩
        u).code = if u = s.spawned then [llvmConsoleCtrlHandler] else (s.threads u).code :=
      fun u => by rw [Function.update_apply]; split_ifs <;> rfl
    refine ⟨fun u hu => ?_, fun u hu => ?_, fun h => by simp [hx] at h, fun _ => ?_⟩ <;>
      simp only [hnew]
    · split_ifs
      · exact guarded_consoleCtrlHandler
      · exact hi.others u hu
    · have hu' : s.spawned + 1 ≤ u := hu
      rw [if_neg (by omega)]
      exact hi.idle_of_le u (by omega)
    · split_ifs with h0
      · have hp := hi.phase hx
        rw [hi.idle_of_le 0 (by omega)] at hp
        exact .guarded guarded_consoleCtrlHandler hp.of_nil
      · exact hi.phase hx
  · exact exit _

theorem step (hi : SerialInv s) (h : SerialStep s s') : SerialInv s' := by
  cases h with
  | thread t hx hser h => exact hi.threadStep hx hser h
  | consoleCtrl hx => exact hi.consoleCtrl hx

end SerialInv

/-- **Run lemma**: every state of a serial run keeps the invariant. -/
theorem SerialReachable.serialInv {d : Bool} {clients : List (List Call)}
    (h : SerialReachable d clients s) : SerialInv s := by
  induction h with
  | refl => exact serialInv_init d clients
  | tail _ hs ih => exact ih.step hs

end Serial

/-- **The section is initialized once.** In every run whose first call is made by one thread
(no other thread runs before `CriticalSectionInitialized` is set), with or without the debug
help, for any client threads and console control events, no thread is ever about to
initialize the critical section a second time. -/
theorem serialReachable_not_initializesTwice {debugHelpLoaded : Bool}
    {clients : List (List Call)} {s : State} (h : SerialReachable debugHelpLoaded clients s)
    (t : Nat) : ¬ InitializesTwice s t := by
  rintro ⟨hk, hc⟩
  obtain ⟨k, hk⟩ := List.head?_eq_some_iff.mp hk
  have hi := h.serialInv
  by_cases ht : t = 0
  · subst ht
    cases hx : s.exited
    · exact (hi.phase hx).not_initializeCriticalSection hc hk
    · simp [hi.idle_of_exited hx 0] at hk
  · exact not_guarded_initializeCriticalSection (hk ▸ hi.others t ht)

theorem serialReachable_not_initializesTwice_runInterruptHandlers :
    let clients := [[Call.runInterruptHandlers], [Call.runInterruptHandlers]]
    let s := (runSerial (State.init false clients)
      (List.replicate 5 (some 0) ++ List.replicate 2 (some 1))).getD (State.init false [])
    SerialReachable false clients s ∧ ¬ InitializesTwice s 1 :=
  by
    intro clients s
    have hr : SerialReachable false clients s := serialReachable_runSerial (by decide) _
    exact ⟨hr, serialReachable_not_initializesTwice hr 1⟩

/-- A thread that owns the section and has nothing left to run keeps it for ever. -/
theorem Inv.step_owner_of_idle {s s' : State} {t : Nat} (hi : Inv s)
    (ho : s.criticalSection.owner = some t) (ht : (s.threads t).code = []) (h : Step s s') :
    s'.criticalSection.owner = some t ∧ (s'.threads t).code = [] := by
  cases h with
  | thread u _ hu =>
    have hut : u ≠ t := by
      rintro rfl
      exact threadStep_code_ne_nil hu ht
    refine ⟨?_, ?_⟩
    · rcases threadStep_owner hi.owner_of_uncreated hu with h | h | h <;> rw [ho] at h
      · exact h
      · cases h
      · cases h; exact absurd rfl hut
    · rcases (threadStep_frame hu).2.2 with ⟨-, h⟩ | ⟨-, h⟩
      · rw [h t (Ne.symm hut), ht]
      · exact h t
  | consoleCtrl _ =>
    unfold State.consoleCtrl
    split_ifs
    · exact ⟨ho, by
        show (Function.update s.threads s.spawned _ t).code = []
        rw [Function.update_noteq (hi.owner_lt t ho).ne]
        exact ht⟩
    · exact ⟨ho, rfl⟩

/-- **`RemoveFileOnSignal` after `Cleanup` returns inside the section.** From a reachable state
where `Cleanup` has run, the handlers are registered and the section is free, a thread whose
last call is `RemoveFileOnSignal` returns `true` with the section still entered; from then on
it owns the section for ever, so no thread is ever again at an action under the lock: no console
handler gets past `EnterCriticalSection`, and none removes files or runs an interrupt
function again. -/
theorem removeFileOnSignal_leaves_entered {debugHelpLoaded : Bool}
    {clients : List (List Call)} {s : State} (hr : Reachable debugHelpLoaded clients s)
    (hx : s.exited = false) (hc : s.cleanupExecuted) (hreg : s.registeredUnhandledExceptionFilter)
    (hdbg : s.debugHelpLoaded) (hfree : s.criticalSection.owner = none) {t : Nat}
    {filename : String} (ht : (s.threads t).code = [removeFileOnSignal filename]) :
    ∃ s', Relation.ReflTransGen Step s s' ∧ (s'.threads t).code = [] ∧
      ∀ s'', Relation.ReflTransGen Step s' s'' → s''.criticalSection.owner = some t ∧
        ∀ u a k, (s''.threads u).code = .act a :: k → a.underLock = false := by
  have hd : debugHelpLoaded = true := by rw [← hr.debugHelpLoaded, hdbg]
  subst hd
  have hin := hr.inv.created_of_initialized (hr.inv.initialized_of_registered hreg)
  obtain ⟨s', hrun, hcode, howner⟩ : ∃ s', run s (List.replicate 6 (some t)) = some s' ∧
      (s'.threads t).code = [] ∧ s'.criticalSection.owner = some t := by
    simp [run, runWith, next, threadStep, State.setCode, Function.update_apply, Cond.eval,
      CriticalSection.enter, ht, hx, hc, hreg, hdbg, hfree, hin, removeFileOnSignal,
      registerHandler]
  have hsteps := reflTransGen_of_run hrun
  refine ⟨s', hsteps, hcode, fun s'' h => ?_⟩
  have key : Inv s'' ∧ s''.criticalSection.owner = some t ∧ (s''.threads t).code = [] := by
    induction h with
    | refl => exact ⟨Reachable.inv (hr.trans hsteps), howner, hcode⟩
    | tail _ hs ih =>
      obtain ⟨hi, ho, hk⟩ := ih
      exact ⟨hi.step hs, hi.step_owner_of_idle ho hk hs⟩
  obtain ⟨hi, ho, hk⟩ := key
  refine ⟨ho, fun u a k hu => ?_⟩
  by_contra ha
  have hut := hi.owner_of_underLock hu (by simpa using ha)
  rw [ho] at hut
  cases hut
  rw [hk] at hu
  cases hu

/-- After `SetInterruptFunction(IF)` and a Ctrl-C, whose handler runs `Cleanup` and the
interrupt function and lets the process go on, the client's `RemoveFileOnSignal` returns inside
the section. -/
theorem removeFileOnSignal_leaves_entered_afterCtrlC :
    let clients := [[Call.setInterruptFunction (some 1), .removeFileOnSignal "a.o"]]
    let s := (run (State.init true clients)
      (List.replicate 14 (some 0) ++ none :: List.replicate 19 (some 1))).getD (State.init true [])
    Reachable true clients s ∧ s.exited = false ∧ s.cleanupExecuted ∧
      s.registeredUnhandledExceptionFilter ∧ s.debugHelpLoaded ∧ s.criticalSection.owner = none ∧
      (s.threads 0).code = [removeFileOnSignal "a.o"] ∧
      ∃ s', Relation.ReflTransGen Step s s' ∧ (s'.threads 0).code = [] ∧
        ∀ s'', Relation.ReflTransGen Step s' s'' → s''.criticalSection.owner = some 0 ∧
          ∀ u a k, (s''.threads u).code = .act a :: k → a.underLock = false :=
  by
    intro clients s
    have hr : Reachable true clients s := reachable_run (by decide) _
    have ht : (s.threads 0).code = [removeFileOnSignal "a.o"] := by decide
    exact ⟨hr, by decide, by decide, by decide, by decide, by decide, ht,
      removeFileOnSignal_leaves_entered hr (by decide) (by decide) (by decide) (by decide)
        (by decide) ht⟩

end Keystone.Windows
