/-!
# Switches of the command line

The arguments that the program and its commands know, and what can be wrong with a command line.
-/

set_option autoImplicit false

namespace MutantSieve.CommandLine

inductive Halt where
  | help
  | version
  /-- Nothing was given at all. -/
  | emptyLine
  | noCommand
  | unknownArgument
  | unknownCommand
  | missingArgument
  | invalidValue
  | unreadableValue
  | repeated
  | unwantedValue
  deriving DecidableEq, Repr

inductive Switch where
  | path
  | format
  | config
  | verbose
  | jobs
  | help
  | version
  | inputs
  | features
  | exclude
  | hideKept
  | force
  deriving DecidableEq, Repr

namespace Switch

/-- The name behind two dashes. The inputs have none, as they are known by their place. -/
def long? : Switch → Option String
  | path => some "path"
  | format => some "format"
  | config => some "config"
  | verbose => some "verbose"
  | jobs => some "jobs"
  | help => some "help"
  | version => some "version"
  | inputs => none
  | features => some "features"
  | exclude => some "exclude"
  | hideKept => some "hide-kept"
  | force => some "force"

def short? : Switch → Option Char
  | path => some 'p'
  | format => some 'f'
  | config => some 'c'
  | verbose => some 'v'
  | jobs => some 'j'
  | help => some 'h'
  | version => some 'V'
  | exclude => some 'e'
  | inputs | features | hideKept | force => none

def takesValue : Switch → Bool
  | path | format | config | jobs | inputs | features | exclude => true
  | verbose | help | version | hideKept | force => false

/-- Whether the next argument is the value even if it starts with a dash. -/
def takesDashes : Switch → Bool
  | features => true
  | _ => false

def isRepeatable : Switch → Bool
  | inputs | features | exclude => true
  | _ => false

end Switch

inductive CommandName where
  | filter
  | features
  | init
  deriving DecidableEq, Repr

namespace CommandName

def ofText? (s : String) : Option CommandName :=
  if s = "filter" ∨ s = "f" then some filter
  else if s = "features" ∨ s = "ls" then some features
  else if s = "init" then some init
  else none

end CommandName

/-- What is understood at one level of the command line: before the command, or behind it. -/
structure Level where
  switches : List Switch
  hasCommands : Bool := false
  hasInputs : Bool := false

def rootLevel : Level :=
  { switches := [.path, .format, .config, .verbose, .jobs, .help, .version]
    hasCommands := true }

def commandLevel : CommandName → Level
  | .filter => { switches := [.features, .exclude, .hideKept, .help], hasInputs := true }
  | .features => { switches := [.features, .help] }
  | .init => { switches := [.force, .help] }

def Level.long? (l : Level) (name : List Char) : Option Switch :=
  l.switches.find? fun s => s.long?.map String.toList == some name

def Level.short? (l : Level) (c : Char) : Option Switch :=
  l.switches.find? fun s => s.short? == some c

end MutantSieve.CommandLine
