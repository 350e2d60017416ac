import MutantSieve.CommandLine.Scan

/-!
# Invocations

What a command line asks for.
-/

set_option autoImplicit false

namespace MutantSieve.CommandLine

inductive Command where
  | filter (inputs features exclude : List String) (hideKept : Bool)
  | features (features : List String)
  | init (force : Bool)
  deriving DecidableEq, Repr

structure Invocation where
  /-- The project folder. -/
  path : String
  format : Option ReportFormat
  config : Option String
  verbose : Bool
  jobs : Option Nat
  command : Command
  deriving DecidableEq, Repr

def commandOf (c : CommandName) (s : Scan) : Except Halt Command :=
  match c with
  | .filter =>
    if s.has .inputs then
      .ok (.filter (s.values .inputs) (s.values .features) (s.values .exclude)
        (s.has .hideKept))
    else .error .missingArgument
  | .features => .ok (.features (s.values .features))
  | .init => .ok (.init (s.has .force))

def readCommand (c : CommandName) (args : List String) : Except Halt Command :=
  match Scan.run (commandLevel c) {} false none args with
  | .error h => .error h
  | .ok (s, _) =>
    match s.settle with
    | .error h => .error h
    | .ok s => commandOf c s

def invocationOf (s : Scan) (command : Command) : Invocation :=
  { path := (s.values .path).head?.getD "."
    format := (s.values .format).head?.bind ReportFormat.ofName?
    config := (s.values .config).head?
    verbose := s.has .verbose
    jobs := (s.values .jobs).head?.bind Scan.workers?
    command := command }

def read (args : List String) : Except Halt Invocation :=
  match Scan.run rootLevel {} false none args with
  | .error h => .error h
  | .ok (s, some (c, rest)) =>
    match readCommand c rest with
    | .error h => .error h
    | .ok command =>
      match s.settle with
      | .error h => .error h
      | .ok s => .ok (invocationOf s command)
  | .ok (s, none) =>
    match s.settle with
    | .error h => .error h
    | .ok s => .error (if s.found.isEmpty then .emptyLine else .noCommand)

end MutantSieve.CommandLine
