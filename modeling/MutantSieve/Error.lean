import MutantSieve.ClassTree

/-!
# Errors

The causes for which an operation gives up, and their wording.
-/

set_option autoImplicit false

namespace MutantSieve

/-- What can be wrong with a configuration. Only the faults that the program itself detects are told
apart. -/
inductive ConfigFault where
  | fileMissing (path : String)
  | badSetting (text : String)
  | badPattern (text : String)
  /-- An exclusion pattern that is nested too deeply. -/
  | deepPattern
  | unreadable
  /-- A variable of the environment with a text that would be cut inside a character. -/
  | tornText
  deriving DecidableEq, Repr

inductive Error where
  | io
  | fileNotFound (path : String)
  | unsupportedInput (path : String)
  /-- Contents that are no list of units; the path is absent for a text that came from no file, the
  check is present where one of the program's own checks refused the contents. -/
  | notUnits (path : Option String) (check : Option Check)
  | config (fault : ConfigFault)
  | undecodable (check : Option Check)
  | unresolved (location : Location)
  | check (found : Check)
  | unknownFeature (name : String)
  | targetExists (path : String)
  | refused (reason : String)
  deriving DecidableEq, Repr

def Check.message : Check → String
  | unknownOpcode text => "Invalid argument: unknown opcode: " ++ text
  | misfit i =>
    "Invalid argument: instruction " ++ i.display ++ " has an opcode that does not fit its kind"
  | foreignMethod location className =>
    "Invalid argument: method " ++ location.display ++ " is not declared by class " ++ className
  | duplicateMethod location => "Invalid argument: duplicate method " ++ location.display
  | badDescriptor text fault =>
    "Invalid method descriptor " ++ Text.quoted text ++ ": " ++ fault.message

def ConfigFault.message : ConfigFault → String
  | fileMissing path => "Configuration error: config file not found: " ++ path
  | badSetting text => "Configuration error: invalid feature setting: " ++ Text.quoted text
  | badPattern text => "Configuration error: invalid exclude pattern " ++ Text.quoted text
  | deepPattern | unreadable | tornText => "Configuration error"

/-- Whether an error breaks a run off, so that not even the error is told. -/
def Error.isFatal : Error → Bool
  | config .tornText => true
  | _ => false

def headed (heading : String) : Option Check → String
  | none => heading
  | some found => heading ++ ": " ++ found.message

def Error.message : Error → String
  | io => "I/O error"
  | fileNotFound path => "File not found: " ++ path
  | unsupportedInput path => "Unsupported input format for file: " ++ path
  | notUnits (some path) found => headed ("Failed to parse " ++ path) found
  | notUnits none found => headed "Failed to parse" found
  | config fault => fault.message
  | undecodable found => headed "Serialization error" found
  | unresolved location =>
    "Mutation location " ++ location.display ++
      " does not resolve to a method of the current class"
  | check found => found.message
  | unknownFeature name => "Unknown feature: " ++ name
  | targetExists path =>
    "Invalid argument: " ++ path ++ " already exists (use --force to overwrite)"
  | refused reason => "Invalid argument: " ++ reason

def MethodDescriptor.ofText (text : String) : Except Error MethodDescriptor :=
  (MethodDescriptor.parse text).mapError fun fault => .check (.badDescriptor text fault)

def ClassTree.resolve (c : ClassTree) (l : Location) : Except Error Method :=
  match c.method? l with
  | some m => .ok m
  | none => .error (.unresolved l)

end MutantSieve
