import ConsensusNode.Lib.Run
import ConsensusNode.Release.Installer

/-! # The supervised unit

`supervise.ts`: one process that starts the runtime server and the control tunnel, waits for the first of them
to end or for a signal, tears the rest down and exits.

The children are seen through what the runtime keeps of them (`ChildProcess`). One step is one event with the
continuations it resolves; how far a signal to a child gets (`Reach`) is part of the input. `shutdown` may be
under way twice: started by a signal (`signalStop`), and by the end of the first child (`Main.stopping`).

From `spawn` to its first `await`, `main` is one turn, and the handlers of the signals are registered near its
end: `launched` is what that turn comes to. -/

namespace ConsensusNode.Node.Supervise

/-! ## Processes and signals -/

inductive Signal where
  | SIGINT
  | SIGTERM
  | SIGKILL
  | other (number : ℕ)
deriving DecidableEq

/-- `os.constants.signals[signal] ?? 0`. -/
def Signal.number : Signal → ℕ
  | SIGINT => 2
  | SIGTERM => 15
  | SIGKILL => 9
  | other n => n

/-- `exitCodeFor`. -/
def exitCodeFor (code : Option ℤ) (signal : Option Signal) : ℤ :=
  match code, signal with
  | some code, _ => code
  | none, some signal => 128 + signal.number
  | none, none => 1

/-- The two children. -/
inductive Name where
  | runtime
  | control
deriving DecidableEq

def children : List Name := [.runtime, .control]

/-- What the runtime keeps of a child. -/
structure ChildProcess where
  /-- `typeof pid === "number"`: the child could be started. -/
  pid : Bool
  exitCode : Option ℤ
  signalCode : Option Signal
  killed : Bool
deriving DecidableEq

/-- `stillRunning`. -/
def ChildProcess.stillRunning (c : ChildProcess) : Bool :=
  c.exitCode.isNone && c.signalCode.isNone && !c.killed

/-- How far `signalChild` gets: the process group, the bare process, or neither of them. -/
inductive Reach where
  | group
  | bare
  | reaped
deriving DecidableEq

structure Exit where
  name : Name
  code : ℤ
deriving DecidableEq

/-! ## The unit -/

/-- Where `main` is: at `firstExit`, at its `shutdown` (with the children whose exit is awaited), or ended, by
`process.exit` or by the default action of a signal. -/
inductive Main where
  | firstExit
  | stopping (exits : List Name)
  | exited (code : ℤ)
  | died (signal : Signal)
deriving DecidableEq

structure Unit where
  proc : Name → ChildProcess
  main : Main
  first : Option Exit
  signalled : Option Signal
  /-- The handlers of `process.once` that have not run yet. -/
  handlers : List Signal
  /-- The exits that the `shutdown` of the signal handler awaits. -/
  signalStop : Option (List Name)
  /-- The signals sent to children, oldest first. -/
  sent : List (Name × Signal × Reach)

def Unit.running (u : Unit) (n : Name) : Bool := (u.proc n).stillRunning

/-- `children.filter(stillRunning)`. -/
def Unit.survivors (u : Unit) : List Name := children.filter u.running

def Unit.setProc (u : Unit) (n : Name) (c : ChildProcess) : Unit := { u with proc := Function.update u.proc n c }

/-- `signalChild`: only the fallback marks the child as killed. -/
def signalChild (reach : Name → Reach) (signal : Signal) (u : Unit) (n : Name) : Unit :=
  if (u.proc n).pid then
    let u := { u with sent := u.sent ++ [(n, signal, reach n)] }
    match reach n with
    | .bare => u.setProc n { u.proc n with killed := true }
    | _ => u
  else u

/-- `shutdown` up to its `await`: what it waits for, if anything is left. -/
def shutdown (reach : Name → Reach) (u : Unit) : Unit × Option (List Name) :=
  if u.survivors.isEmpty then (u, none)
  else (u.survivors.foldl (signalChild reach .SIGTERM) u, some u.survivors)

/-- The end of the grace period. -/
def killSurvivors (reach : Name → Reach) (u : Unit) : Unit :=
  u.survivors.foldl (signalChild reach .SIGKILL) u

/-- `process.exit`. -/
def Unit.exit (u : Unit) (first : Exit) : Unit :=
  { u with main := .exited (match u.signalled with | some s => exitCodeFor none (some s) | none => first.code) }

/-- `main` after `firstExit`. -/
def afterFirst (reach : Name → Reach) (u : Unit) (first : Exit) : Unit :=
  match shutdown reach { u with first := some first } with
  | (u, none) => u.exit first
  | (u, some exits) => { u with main := .stopping exits }

/-- An exit that a `shutdown` has awaited. -/
def awaited (n : Name) (exits : List Name) : Option (List Name) :=
  if (exits.erase n).isEmpty then none else some (exits.erase n)

/-- The first exit, or one that the `shutdown` of `main` awaits. -/
def mainExit (reach : Name → Reach) (u : Unit) (e : Exit) : Unit :=
  match u.main with
  | .firstExit => afterFirst reach u e
  | .stopping exits =>
    match awaited e.name exits, u.first with
    | none, some first => u.exit first
    | none, none => u
    | some exits, _ => { u with main := .stopping exits }
  | _ => u

/-- A child that could not be started. -/
def mainError (reach : Name → Reach) (u : Unit) (n : Name) : Unit :=
  match u.main with
  | .firstExit => afterFirst reach u ⟨n, 1⟩
  | _ => u

/-- How a child has ended. -/
inductive End where
  | code (code : ℤ)
  | signal (signal : Signal)
deriving DecidableEq

def End.exitCode : End → ℤ
  | code c => exitCodeFor (some c) none
  | signal s => exitCodeFor none (some s)

def ChildProcess.ended (c : ChildProcess) (how : End) : ChildProcess :=
  match how with
  | .code code => { c with exitCode := some code }
  | .signal s => { c with signalCode := some s }

inductive Event where
  /-- `exit` of a child. -/
  | exit (n : Name) (how : End) (reach : Name → Reach)
  /-- `error` of a child that could not be started; the runtime may set its exit code. -/
  | error (n : Name) (exitCode : Option ℤ) (reach : Name → Reach)
  | signal (s : Signal) (reach : Name → Reach)
  /-- The grace period of the signal handler is over. -/
  | signalGrace (reach : Name → Reach)
  /-- The grace period of `main` is over. -/
  | mainGrace (reach : Name → Reach)

/-- The unit has not ended. -/
def Main.alive : Main → Bool
  | exited _ => false
  | died _ => false
  | _ => true

/-- `onSignal`. -/
def onSignal (reach : Name → Reach) (s : Signal) (u : Unit) : Unit :=
  if u.signalled.isSome then u
  else
    let u := { u with signalled := some s }
    { (shutdown reach u).1 with signalStop := (shutdown reach u).2 }

def step (u : Unit) (e : Event) : Unit :=
  if !u.main.alive then u
  else
    match e with
    | .exit n how reach =>
      let c := u.proc n
      -- a process exits once
      if !c.pid || c.exitCode.isSome || c.signalCode.isSome then u
      else
        let u := u.setProc n (c.ended how)
        let u := { u with signalStop := u.signalStop.bind (awaited n) }
        mainExit reach u ⟨n, how.exitCode⟩
    | .error n exitCode reach =>
      let c := u.proc n
      if c.pid || c.exitCode.isSome then u
      else mainError reach (u.setProc n { c with exitCode }) n
    | .signal s reach =>
      if s ∈ u.handlers then onSignal reach s { u with handlers := u.handlers.erase s }
      else { u with main := .died s }
    | .signalGrace reach =>
      match u.signalStop with
      | some _ => { killSurvivors reach u with signalStop := none }
      | none => u
    | .mainGrace reach =>
      match u.main, u.first with
      | .stopping _, some first => (killSurvivors reach u).exit first
      | _, _ => u

/-! ## The first turn of `main` -/

/-- The unit after `spawn`; a child without `pid` could not be started. -/
def spawned (pid : Name → Bool) : Unit where
  proc n := ⟨pid n, none, none, false⟩
  main := .firstExit
  first := none
  signalled := none
  handlers := []
  signalStop := none
  sent := []

/-- `process.once(s, onSignal)`. -/
def Unit.once (u : Unit) (s : Signal) : Unit := { u with handlers := u.handlers ++ [s] }

/-- `main` at `firstExit`, with both handlers. -/
def started (pid : Name → Bool) : Unit := ((spawned pid).once .SIGINT).once .SIGTERM

/-- A signal in the first turn: where there is a handler, it waits for the end of the turn, and else its default
action ends the process. -/
def Unit.arrive (u : Unit) (s : Signal) : Unit :=
  if u.main.alive ∧ s ∉ u.handlers then { u with main := .died s } else u

/-- `main` from `spawn` to `firstExit`, with the signals that come `before` its handlers and `between` the two. -/
def launched (pid : Name → Bool) (before between : List Signal) : Unit :=
  (between.foldl .arrive ((before.foldl .arrive (spawned pid)).once .SIGINT)).once .SIGTERM

/-- `main` up to `firstExit`, where no signal comes first: without `current` the unit exits with
`NO_RELEASE_EXIT`. -/
def start (d : Release.Installer.InstallDir) (pid : Name → Bool) : Unit :=
  match d.current with
  | some c => if d.releases.has c then started pid else { started pid with main := .exited 70 }
  | none => { started pid with main := .exited 70 }

end ConsensusNode.Node.Supervise
