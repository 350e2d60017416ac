import MutantSieve.CommandLine.Switch
import MutantSieve.Config.Environment
import MutantSieve.Report.Format

/-!
# Scanning of the command line

The arguments are taken one by one. The values of a switch are judged only when the next switch, a
value of another one, or the end is met, so an unknown argument is reported before a bad value that
stands in front of it; the values behind a command are judged before those in front of it.
-/

set_option autoImplicit false

namespace MutantSieve.CommandLine

structure Scan where
  found : List (Switch × List String) := []
  pending : Option (Switch × List String) := none

namespace Scan

def has (s : Scan) (w : Switch) : Bool := s.found.any fun f => decide (f.1 = w)

def values (s : Scan) (w : Switch) : List String :=
  (s.found.filter fun f => decide (f.1 = w)).flatMap Prod.snd

def splitCommas : List Char → List (List Char)
  | [] => [[]]
  | c :: r =>
    if c = ',' then [] :: splitCommas r
    else
      match splitCommas r with
      | [] => [[c]]
      | p :: ps => (c :: p) :: ps

def valuesIn (w : Switch) (text : String) : List String :=
  match w with
  | .features => (splitCommas text.toList).map String.ofList
  | _ => [text]

def workers? (s : String) : Option Nat :=
  match s.toList with
  | '-' :: _ => none
  | cs =>
    match Config.integer? cs with
    | some (.ofNat n) => some n
    | _ => none

def valueFault? (w : Switch) (value : String) : Option Halt :=
  match w with
  | .path | .config | .inputs => if value.isEmpty then some .invalidValue else none
  | .format => if (ReportFormat.ofName? value).isSome then none else some .invalidValue
  | .jobs => if (workers? value).isSome then none else some .unreadableValue
  | _ => none

def accept (s : Scan) (w : Switch) (texts : List String) : Except Halt Scan :=
  if w.takesValue && texts.isEmpty then .error .invalidValue
  else if w = .help then .error .help
  else if w = .version then .error .version
  else if s.has w && !w.isRepeatable then .error .repeated
  else
    let values := texts.flatMap (valuesIn w)
    match values.findSome? (valueFault? w) with
    | some fault => .error fault
    | none => .ok { s with found := s.found ++ [(w, values)] }

def settle (s : Scan) : Except Halt Scan :=
  match s.pending with
  | none => .ok s
  | some (w, texts) => accept { s with pending := none } w texts

def meet (s : Scan) (w : Switch) (texts : List String) : Except Halt Scan :=
  match s.settle with
  | .ok s => s.accept w texts
  | .error h => .error h

def await (s : Scan) (w : Switch) : Except Halt (Scan × Option Switch) :=
  match s.settle with
  | .ok s => .ok ({ s with pending := some (w, []) }, some w)
  | .error h => .error h

def met (r : Except Halt Scan) : Except Halt (Scan × Option Switch) := r.map fun s => (s, none)

/-- An argument with two dashes: the name of a switch and perhaps, behind an equals sign, its
value. -/
def long (l : Level) (s : Scan) (body : List Char) : Except Halt (Scan × Option Switch) :=
  let name := body.takeWhile (· ≠ '=')
  match l.long? name, body.dropWhile (· ≠ '=') with
  | none, _ => .error .unknownArgument
  | some w, [] => if w.takesValue then s.await w else met (s.meet w [])
  | some w, _ :: value =>
    if w.takesValue then met (s.meet w [String.ofList value]) else .error .unwantedValue

/-- An argument with one dash: letters of switches, the last of which may be followed by its
value. -/
def short (l : Level) (s : Scan) : List Char → Except Halt (Scan × Option Switch)
  | [] => .ok (s, none)
  | c :: rest =>
    match l.short? c with
    | none => .error .unknownArgument
    | some w =>
      if w.takesValue then
        match rest with
        | [] => s.await w
        | '=' :: value => met (s.meet w [String.ofList value])
        | value => met (s.meet w [String.ofList value])
      else
        match s.meet w [] with
        | .ok s => short l s rest
        | .error h => .error h

def plain (l : Level) (s : Scan) (literal : Bool) (arg : String) : Except Halt Scan :=
  if l.hasInputs then
    match s.pending with
    | some (.inputs, texts) => .ok { s with pending := some (.inputs, texts ++ [arg]) }
    | _ => s.settle.map fun s => { s with pending := some (.inputs, [arg]) }
  else if l.hasCommands then
    if literal && ((CommandName.ofText? arg).isSome || decide (arg = "help")) then
      .error .unknownArgument
    else .error .unknownCommand
  else .error .unknownArgument

/-- What asking for help on some words comes to: at most one word, a command. -/
def helpOn (words : List String) : Halt :=
  match words with
  | [] => .help
  | [word] =>
    if (CommandName.ofText? word).isSome || decide (word = "help") then .help else .unknownCommand
  | _ => .unknownCommand

def looksLikeSwitch (arg : List Char) : Bool :=
  match arg with
  | ['-'] => false
  | '-' :: _ => true
  | _ => false

/-- Scans the arguments of a level, up to a command if it knows any. `awaiting` is the switch whose
value comes next; behind two dashes, everything is `literal`. -/
def run (l : Level) (s : Scan) (literal : Bool) (awaiting : Option Switch) :
    List String → Except Halt (Scan × Option (CommandName × List String))
  | [] => .ok (s, none)
  | arg :: rest =>
    if literal then
      match s.plain l true arg with
      | .ok s => run l s true awaiting rest
      | .error h => .error h
    else
      match awaiting with
      | some w =>
        if w.takesDashes || !looksLikeSwitch arg.toList then
          run l { s with pending := some (w, [arg]) } false none rest
        else if arg = "--" then run l s true awaiting rest
        else
          match (match arg.toList with
            | '-' :: '-' :: body => long l s body
            | body => short l s (body.drop 1)) with
          | .ok (s, awaiting) => run l s false awaiting rest
          | .error h => .error h
      | none =>
        if l.hasCommands && decide (arg = "help") then .error (helpOn rest)
        else
          match (if l.hasCommands then CommandName.ofText? arg else none) with
          | some c => .ok (s, some (c, rest))
          | none =>
            if arg = "--" then run l s true none rest
            else if looksLikeSwitch arg.toList then
              match (match arg.toList with
                | '-' :: '-' :: body => long l s body
                | body => short l s (body.drop 1)) with
              | .ok (s, awaiting) => run l s false awaiting rest
              | .error h => .error h
            else
              match s.plain l false arg with
              | .ok s => run l s false none rest
              | .error h => .error h

end Scan

end MutantSieve.CommandLine
