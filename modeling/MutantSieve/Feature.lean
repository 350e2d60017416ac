import MutantSieve.Pattern

/-!
# Features

Interceptors are switched on and off by name. A registry lists the features with their defaults, and
settings such as `+NAME` and `-NAME` are applied to it in order.
-/

set_option autoImplicit false

namespace MutantSieve

structure Feature where
  name : String
  onByDefault : Bool := false
  description : String := ""
  deriving DecidableEq, Repr

def Feature.answersTo (f : Feature) (name : String) : Bool := Text.sameLetters f.name name

structure Setting where
  name : String
  enabled : Bool
  deriving DecidableEq, Repr

namespace Setting

def isNameChar (c : Char) : Bool := c.isAlphanum || decide (c = '_')

/-- An optional sign and a name, with blanks around each. -/
def read (s : List Char) : Option Setting :=
  let body := Text.trim s
  let enabled := !(body.head? == some '-')
  let rest :=
    match body with
    | '+' :: r | '-' :: r => r
    | r => r
  let name := Text.trim rest
  if name.isEmpty || !name.all isNameChar then none
  else some ⟨String.ofList name, enabled⟩

def parse (text : String) : Except Error Setting :=
  match read text.toList with
  | some setting => .ok setting
  | none => .error (.config (.badSetting (Text.trimmed text)))

def parseAll : List String → Except Error (List Setting)
  | [] => .ok []
  | text :: rest =>
    if (Text.trim text.toList).isEmpty then parseAll rest
    else
      match parse text with
      | .error e => .error e
      | .ok setting =>
        match parseAll rest with
        | .error e => .error e
        | .ok settings => .ok (setting :: settings)

def display (s : Setting) : String := (if s.enabled then "+" else "-") ++ s.name

end Setting

structure Factory where
  feature : Feature
  description : String
  interceptor : Interceptor

structure FeatureStatus where
  feature : Feature
  factory : String
  role : String
  enabled : Bool
  deriving DecidableEq, Repr

abbrev Registry := List Factory

namespace Registry

/-- Whether a factory is on: the last setting that names its feature decides, else the default. -/
def isOn (settings : List Setting) (f : Factory) : Bool :=
  match settings.reverse.find? fun s => f.feature.answersTo s.name with
  | some s => s.enabled
  | none => f.feature.onByDefault

def knows (r : Registry) (name : String) : Bool := r.any fun f => f.feature.answersTo name

def resolve (r : Registry) (settings : List Setting) : Except Error (List (Factory × Bool)) :=
  match settings.find? fun s => !r.knows s.name with
  | some s => .error (.unknownFeature s.name)
  | none => .ok (r.map fun f => (f, isOn settings f))

def enabled (r : Registry) (settings : List Setting) : Except Error (List Factory) :=
  (r.resolve settings).map fun fs => fs.filterMap fun f => if f.2 then some f.1 else none

def describe (r : Registry) (settings : List Setting) : Except Error (List FeatureStatus) :=
  (r.resolve settings).map fun fs =>
    fs.map fun f => ⟨f.1.feature, f.1.description, f.1.interceptor.role, f.2⟩

def chain (r : Registry) (settings : List Setting) : Except Error Interceptor :=
  (r.enabled settings).map fun fs => .group "chain" (fs.map Factory.interceptor)

def builtIn : Registry :=
  [{ feature :=
      { name := "FRETEQUIV"
        onByDefault := true
        description :=
          "Filters return vals mutants with bytecode equivalent to the unmutated class" }
     description := "Trivial return vals equivalence filter"
     interceptor := equivalentReturns }]

end Registry

end MutantSieve
