import MutantSieve.Feature
import MutantSieve.Summary
import MutantSieve.UnitFile

/-!
# Analyses

The mutations of every unit are divided by the chain of the enabled features. The units may be
worked on by several workers at a time. The result lists the mutations by class and sums them up.
-/

set_option autoImplicit false

namespace MutantSieve

structure ClassResult where
  «class» : String
  keptCount : Nat
  filteredCount : Nat
  rate : Binary
  /-- The mutations that stay, if they are to be listed. -/
  kept : List Mutation
  filtered : List FilteredMutation
  deriving DecidableEq, Repr

structure Analysis where
  classes : List ClassResult
  summary : Summary
  deriving DecidableEq, Repr

/-- How the results of single items come together when several workers produce them: all of them,
in the order of the items, and if there are errors among them, one of the errors alone. -/
structure Gathering (α : Type) where
  gather : List (Except Error α) → Except Error (List α)
  gather_ok : ∀ items, gather (items.map .ok) = .ok items
  gather_error : ∀ results, (∃ e, .error e ∈ results) →
    ∃ e, .error e ∈ results ∧ gather results = .error e

namespace Gathering

variable {α : Type}

def ordered : List (Except Error α) → Except Error (List α)
  | [] => .ok []
  | .error e :: _ => .error e
  | .ok a :: rest => (ordered rest).map fun items => a :: items

theorem ordered_ok (items : List α) : ordered (items.map .ok) = .ok items := by
  induction items with
  | nil => rfl
  | cons a items ih =>
    rw [List.map_cons, ordered, ih]
    rfl

theorem ordered_error (results : List (Except Error α)) (h : ∃ e, .error e ∈ results) :
    ∃ e, .error e ∈ results ∧ ordered results = .error e := by
  induction results with
  | nil =>
    obtain ⟨e, none_there⟩ := h
    cases none_there
  | cons result rest ih =>
    cases result with
    | error e => exact ⟨e, List.mem_cons_self, rfl⟩
    | ok a =>
      obtain ⟨e, there⟩ := h
      have behind : .error e ∈ rest := by simpa using there
      obtain ⟨e', there', first⟩ := ih ⟨e, behind⟩
      exact ⟨e', List.mem_cons_of_mem _ there', by rw [ordered, first]; rfl⟩

def inTurn : Gathering α := ⟨ordered, ordered_ok, ordered_error⟩

end Gathering

structure Workers (α : Type) where
  /-- Those that work where no number is asked for. -/
  own : Gathering α
  /-- So many of them, or the reason why they cannot be started. -/
  start : Nat → Except String (Gathering α)

namespace Workers

variable {α : Type}

def ready (gathering : Nat → Gathering α) : Workers α :=
  ⟨gathering 0, fun n => .ok (gathering n)⟩

def single : Workers α := ready fun _ => .inTurn

def hire (w : Workers α) (jobs : Nat) : Except Error (Gathering α) :=
  if jobs = 0 then .ok w.own
  else (w.start jobs).mapError fun reason => .refused ("cannot start workers: " ++ reason)

end Workers

structure Analyzer where
  registry : Registry := Registry.builtIn
  settings : List Setting := []
  /-- The number of workers; zero leaves the choice to the program. -/
  jobs : Nat := 0
  showKept : Bool := true

namespace Analyzer

def name : String := "mutation"

def description : String := "Filter mutations that are equivalent to the unmutated class"

def divide (a : Analyzer) (u : ClassUnit) : Except Error (String × Partition) :=
  match a.registry.chain a.settings with
  | .error e => .error e
  | .ok chain => (chain.partition u.class u.mutations).result.map fun p => (u.class.name, p)

def classResult (a : Analyzer) (result : String × Partition) : ClassResult :=
  { «class» := result.1
    keptCount := result.2.keptCount
    filteredCount := result.2.filteredCount
    rate := result.2.rate
    kept := if a.showKept then result.2.kept else []
    filtered := result.2.filtered }

def report (a : Analyzer) (features : List String) (duration : Elapsed)
    (results : List (String × Partition)) : Analysis :=
  { classes := results.map a.classResult
    summary := Summary.ofResults (results.map Prod.snd) features duration }

/-- The analysis of the units. The settings are looked at before any worker is started. -/
def analyze (a : Analyzer) (units : List ClassUnit) (duration : Elapsed)
    (workers : Workers (String × Partition) := .single) : Except Error Analysis :=
  match a.registry.enabled a.settings with
  | .error e => .error e
  | .ok factories =>
    match workers.hire a.jobs with
    | .error e => .error e
    | .ok hired =>
      (hired.gather (units.map a.divide)).map
        (a.report (factories.map fun f => f.feature.name) duration)

/-- The analysis by workers that start, whatever their number is. -/
def analyzeBy (workers : Nat → Gathering (String × Partition)) (a : Analyzer)
    (units : List ClassUnit) (duration : Elapsed) : Except Error Analysis :=
  a.analyze units duration (.ready workers)

def progress (units : List ClassUnit) : List (Nat × Nat) :=
  (List.range units.length).map fun i => (i + 1, units.length)

end Analyzer

end MutantSieve
