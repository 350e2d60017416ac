import MutantSieve.Proofs.Accounting
import MutantSieve.Proofs.Analysis
import MutantSieve.Proofs.Json.Numeral
import MutantSieve.Proofs.Markdown
import MutantSieve.Report.Analysis

/-!
# The tables of a report

A Markdown report shows an analysis in up to five tables, with headings and paragraphs around them.
Numbers never end a line, so it depends on the names alone whether a reader finds these tables.
-/

set_option autoImplicit false

namespace MutantSieve

open Markdown Report

section Printed

theorem printed_digits (n : Nat) : (Text.digits n).all isPrinted = true := by
  rw [List.all_eq_true]
  intro c hc
  have digit := Text.digits_isDigit n c hc
  simp only [Text.isDigit, isPrinted, Bool.and_eq_true, decide_eq_true_eq] at digit ⊢
  omega

theorem printed_natural (n : Nat) : (Text.natural n).toList.all isPrinted = true := by
  rw [Text.natural, String.toList_ofList]
  exact printed_digits n

theorem printed_signed (negative : Bool) {text : List Char}
    (printed : text.all isPrinted = true) :
    (Binary.signed negative text).all isPrinted = true := by
  cases negative
  · exact printed
  · rw [Binary.signed, if_pos rfl, List.all_cons, printed]
    rfl

theorem printed_fixed (places num den : Nat) :
    (Binary.fixed places num den).all isPrinted = true := by
  have zero : isPrinted '0' = true := by decide
  have point : isPrinted '.' = true := by decide
  simp [Binary.fixed, Decimal.zeros, printed_digits, zero, point]

theorem printed_fixedText (places : Nat) (x : Binary) :
    (Binary.fixedText places x).all isPrinted = true := by
  cases x with
  | finite s m q => exact printed_signed s (printed_fixed _ _ _)
  | infinite s => exact printed_signed s (by decide)
  | undefined => rfl

theorem printed_percent (rate : Binary) : (percent rate).toList.all isPrinted = true := by
  rw [percent, String.toList_ofList, List.all_append, printed_fixedText]
  rfl

theorem printed_lineNumber (m : Mutation) : (lineNumber m).toList.all isPrinted = true := by
  rw [lineNumber]
  cases m.line with
  | none => decide
  | some n => exact printed_natural _

end Printed

namespace LineEnds

variable {e : LineEnds}

theorem whole_natural (n : Nat) : e.Whole (Text.natural n).toList :=
  whole_of_printed (printed_natural n)

theorem whole_percent (rate : Binary) : e.Whole (percent rate).toList :=
  whole_of_printed (printed_percent rate)

theorem whole_lineNumber (m : Mutation) : e.Whole (lineNumber m).toList :=
  whole_of_printed (printed_lineNumber m)

section Sections

theorem closed_paragraph (s : String) : Closed (paragraph s) := Or.inr (List.suffix_append _ _)

theorem found_paragraph (s : String) : e.found (paragraph s) = e.found s.toList := by
  rw [paragraph, found_append, found_empty, List.append_nil]

def Plain (e : LineEnds) (s : String) : Prop := isRow s.toList = false ∧ e.Whole s.toList

theorem plain_of_printed {s : String} (start : isRow s.toList = false)
    (printed : s.toList.all isPrinted = true) : e.Plain s :=
  ⟨start, whole_of_printed printed⟩

theorem plain_append {s t : String} (begun : s ≠ "") (plain : e.Plain s)
    (whole : e.Whole t.toList) : e.Plain (s ++ t) := by
  rw [Plain, String.toList_append, whole_append]
  refine ⟨?_, plain.2, whole⟩
  cases text : s.toList with
  | nil => exact absurd (String.toList_eq_nil_iff.mp text) begun
  | cons c rest =>
    have start := plain.1
    rw [text] at start
    exact start

theorem tables_paragraph {s : String} (plain : e.Plain s) (rest : List Char) :
    e.tables (paragraph s ++ rest) = e.tables rest := by
  have none : e.tables (paragraph s) = [] := by
    rw [tables_eq_nil_iff, found_paragraph, found_eq_nil_iff]
    exact ⟨plain.1, apart_of_whole plain.2⟩
  rw [tables_append (closed_paragraph s), none, List.nil_append]

theorem tables_tableOr {notice : String} (plain : e.Plain notice) (t : Table)
    (rest : List Char) :
    e.tables (tableOr notice t.headers t.rows ++ rest) =
      (t.shown.flatMap fun t => e.tables t.text) ++ e.tables rest := by
  rw [tableOr, Table.shown]
  split
  · exact tables_paragraph plain rest
  · rw [List.flatMap_singleton, ← tables_append (closed_text t)]
    rfl

theorem tables_optionalSection {heading : String} (plain : e.Plain heading) (t : Table)
    (rest : List Char) :
    e.tables (optionalSection heading t.headers t.rows ++ rest) =
      (t.shown.flatMap fun t => e.tables t.text) ++ e.tables rest := by
  rw [optionalSection, Table.shown]
  split
  · rfl
  · rw [List.append_assoc, tables_paragraph plain, List.flatMap_singleton,
      ← tables_append (closed_text t)]
    rfl

end Sections

section Features

theorem apart_append {xs : List Char} (whole : e.Whole xs) (ys : List Char) :
    e.Apart (xs ++ ys) ↔ e.Apart ys := by
  induction xs with
  | nil => rfl
  | cons c xs ih =>
    rw [whole_cons] at whole
    simp [apart_cons, whole.1, ih whole.2]

theorem apart_comma (xs ys : List Char) :
    e.Apart (xs ++ (", ".toList ++ ys)) ↔ e.Apart xs ∧ e.Apart ys := by
  have comma : e.Whole ", ".toList := whole_of_printed (by decide)
  have behind := apart_append comma ys
  rw [Apart, List.isChain_append, ← Apart, ← Apart, behind]
  refine and_congr_right fun _ => and_iff_left ?_
  intro c _ d hd _
  have first : d = ',' := (Option.some.inj hd).symm
  rw [first]
  decide

theorem apart_listed (names : List String) :
    e.Apart (listed names).toList ↔ ∀ name ∈ names, e.Apart name.toList := by
  rw [listed, String.toList_intercalate]
  induction names with
  | nil => simp [Apart]
  | cons name names ih =>
    cases names with
    | nil => simp
    | cons next names =>
      rw [List.map_cons, List.map_cons, List.intercalate_cons_cons, List.append_assoc, apart_comma,
        List.forall_mem_cons (a := name), ← ih]
      rfl

end Features

end LineEnds

namespace Analysis

variable (a : Analysis)

def classTable : Table where
  headers := ["Class", "Kept", "Filtered", "Rate"]
  rows := a.classes.map classRow
  titled := by decide
  fits row h := by
    obtain ⟨c, -, rfl⟩ := List.mem_map.mp h
    rfl

def filteredTable : Table where
  headers := ["Location", "Index", "Mutator", "Filter", "Line"]
  rows := a.classes.flatMap fun c => c.filtered.map filteredRow
  titled := by decide
  fits row h := by
    obtain ⟨c, -, hc⟩ := List.mem_flatMap.mp h
    obtain ⟨f, -, rfl⟩ := List.mem_map.mp hc
    rfl

def keptTable : Table where
  headers := ["Location", "Index", "Mutator", "Line"]
  rows := a.classes.flatMap fun c => c.kept.map keptRow
  titled := by decide
  fits row h := by
    obtain ⟨c, -, hc⟩ := List.mem_flatMap.mp h
    obtain ⟨m, -, rfl⟩ := List.mem_map.mp hc
    rfl

def filterTable : Table where
  headers := ["Filter", "Filtered"]
  rows := a.summary.byFilter.map filterRow
  titled := by decide
  fits row h := by
    obtain ⟨f, -, rfl⟩ := List.mem_map.mp h
    rfl

def mutatorTable : Table where
  headers := ["Mutator", "Total", "Filtered"]
  rows := a.summary.byMutator.map mutatorRow
  titled := by decide
  fits row h := by
    obtain ⟨m, -, rfl⟩ := List.mem_map.mp h
    rfl

def upperTables : List Table := a.classTable.shown ++ a.filteredTable.shown ++ a.keptTable.shown

def lowerTables : List Table := a.filterTable.shown ++ a.mutatorTable.shown

def tables : List Table := a.upperTables ++ a.lowerTables

/-- The names that the tables show stay within their lines, and those of the features do not begin
a line with a pipe. -/
structure Unbroken (e : LineEnds) : Prop where
  classes : ∀ c ∈ a.classes, e.Whole c.class.toList
  filtered : ∀ c ∈ a.classes, ∀ f ∈ c.filtered,
    e.Whole f.mutation.id.location.display.toList ∧ e.Whole f.mutation.id.mutator.label.toList ∧
      e.Whole f.filter.toList
  kept : ∀ c ∈ a.classes, ∀ m ∈ c.kept,
    e.Whole m.id.location.display.toList ∧ e.Whole m.id.mutator.label.toList
  filters : ∀ f ∈ a.summary.byFilter, e.Whole f.1.toList
  mutators : ∀ m ∈ a.summary.byMutator, e.Whole m.1.toList
  features : ∀ name ∈ a.summary.features, e.Apart name.toList

end Analysis

namespace LineEnds

variable {e : LineEnds}

theorem whole_shown (t : Table) :
    (∀ t' ∈ t.shown, ∀ row ∈ t'.rows, ∀ v ∈ row, e.Whole v.toList) ↔
      ∀ row ∈ t.rows, ∀ v ∈ row, e.Whole v.toList := by
  rw [Table.shown]
  cases rows : t.rows with
  | nil => simp
  | cons row rest => simp [rows]

section Report

variable (a : Analysis)

theorem whole_classTable : (∀ row ∈ a.classTable.rows, ∀ v ∈ row, e.Whole v.toList) ↔
    ∀ c ∈ a.classes, e.Whole c.class.toList := by
  simp only [Analysis.classTable, List.forall_mem_map]
  refine forall₂_congr fun c _ => ?_
  simp [classRow, whole_natural, whole_percent]

theorem whole_filteredTable : (∀ row ∈ a.filteredTable.rows, ∀ v ∈ row, e.Whole v.toList) ↔
    ∀ c ∈ a.classes, ∀ f ∈ c.filtered, e.Whole f.mutation.id.location.display.toList ∧
      e.Whole f.mutation.id.mutator.label.toList ∧ e.Whole f.filter.toList := by
  simp only [Analysis.filteredTable, List.forall_mem_flatMap, List.forall_mem_map]
  refine forall₂_congr fun c _ => forall₂_congr fun f _ => ?_
  simp [filteredRow, whole_natural, whole_lineNumber]

theorem whole_keptTable : (∀ row ∈ a.keptTable.rows, ∀ v ∈ row, e.Whole v.toList) ↔
    ∀ c ∈ a.classes, ∀ m ∈ c.kept,
      e.Whole m.id.location.display.toList ∧ e.Whole m.id.mutator.label.toList := by
  simp only [Analysis.keptTable, List.forall_mem_flatMap, List.forall_mem_map]
  refine forall₂_congr fun c _ => forall₂_congr fun m _ => ?_
  simp [keptRow, whole_natural, whole_lineNumber]

theorem whole_filterTable : (∀ row ∈ a.filterTable.rows, ∀ v ∈ row, e.Whole v.toList) ↔
    ∀ f ∈ a.summary.byFilter, e.Whole f.1.toList := by
  simp only [Analysis.filterTable, List.forall_mem_map]
  refine forall₂_congr fun f _ => ?_
  simp [filterRow, whole_natural]

theorem whole_mutatorTable : (∀ row ∈ a.mutatorTable.rows, ∀ v ∈ row, e.Whole v.toList) ↔
    ∀ m ∈ a.summary.byMutator, e.Whole m.1.toList := by
  simp only [Analysis.mutatorTable, List.forall_mem_map]
  refine forall₂_congr fun m _ => ?_
  simp [mutatorRow, whole_natural]

def featureText (s : Summary) : String :=
  "**Features**: " ++ if s.features.isEmpty then "-" else listed s.features

theorem found_features (s : Summary) :
    e.found (featureText s).toList = [] ↔ ∀ name ∈ s.features, e.Apart name.toList := by
  have heading : e.Whole "**Features**: ".toList := whole_of_printed (by decide)
  have start : isRow (featureText s).toList = false := by
    rw [featureText, String.toList_append]
    rfl
  rw [found_eq_nil_iff, and_iff_right start, featureText, String.toList_append,
    apart_append heading]
  cases names : s.features with
  | nil =>
    have dash : e.Apart "-".toList := apart_of_whole (whole_of_printed (by decide))
    simpa using dash
  | cons name rest =>
    rw [← apart_listed]
    rfl

theorem unbroken_iff : a.Unbroken e ↔
    e.found (featureText a.summary).toList = [] ∧
      ∀ t ∈ a.tables, ∀ row ∈ t.rows, ∀ v ∈ row, e.Whole v.toList := by
  simp only [Analysis.tables, Analysis.upperTables, Analysis.lowerTables, List.forall_mem_append,
    whole_shown, whole_classTable, whole_filteredTable, whole_keptTable, whole_filterTable,
    whole_mutatorTable, found_features]
  constructor
  · intro h
    exact ⟨h.features, ⟨⟨h.classes, h.filtered⟩, h.kept⟩, h.filters, h.mutators⟩
  · rintro ⟨features, ⟨⟨classes, filtered⟩, kept⟩, filters, mutators⟩
    exact ⟨classes, filtered, kept, filters, mutators, features⟩

theorem plain_counted {head : String} (start : isRow head.toList = false) (begun : head ≠ "")
    (printed : head.toList.all isPrinted = true) (n : Nat) :
    e.Plain (head ++ Text.natural n) :=
  plain_append begun (plain_of_printed start printed) (whole_natural n)

theorem plain_share (n : Nat) (rate : Binary) :
    e.Plain ("**Filtered**: " ++ Text.natural n ++ " (" ++ percent rate ++ ")") := by
  have opening : e.Whole " (".toList := whole_of_printed (by decide)
  have closing : e.Whole ")".toList := whole_of_printed (by decide)
  rw [String.append_assoc, String.append_assoc, String.append_assoc]
  refine plain_append (by decide) (plain_of_printed rfl (by decide)) ?_
  simp only [String.toList_append, whole_append]
  exact ⟨whole_natural n, opening, whole_percent rate, closing⟩

theorem tables_summary :
    e.tables (summaryMarkdown a.summary) = e.tables (paragraph (featureText a.summary)) ++
      a.lowerTables.flatMap fun t => e.tables t.text := by
  have shape : summaryMarkdown a.summary =
      paragraph "## Summary" ++
        (paragraph ("**Classes**: " ++ Text.natural a.summary.totalClasses) ++
        (paragraph ("**Mutations**: " ++ Text.natural a.summary.totalMutations) ++
        (paragraph ("**Kept**: " ++ Text.natural a.summary.kept) ++
        (paragraph ("**Filtered**: " ++ Text.natural a.summary.filtered ++ " (" ++
          percent a.summary.rate ++ ")") ++
        (paragraph (featureText a.summary) ++
        (optionalSection "### By Filter" a.filterTable.headers a.filterTable.rows ++
        (optionalSection "### By Mutator" a.mutatorTable.headers a.mutatorTable.rows ++
          []))))))) := by
    simp only [summaryMarkdown, List.append_assoc, List.append_nil]
    rfl
  have none : e.tables [] = [] := rfl
  rw [shape, tables_paragraph (plain_of_printed rfl (by decide)),
    tables_paragraph (plain_counted rfl (by decide) (by decide) _),
    tables_paragraph (plain_counted rfl (by decide) (by decide) _),
    tables_paragraph (plain_counted rfl (by decide) (by decide) _),
    tables_paragraph (plain_share _ _), tables_append (closed_paragraph _),
    tables_optionalSection (plain_of_printed rfl (by decide)),
    tables_optionalSection (plain_of_printed rfl (by decide)), none, List.append_nil,
    Analysis.lowerTables, List.flatMap_append]

theorem tables_markdown :
    e.tables (markdown a) = (a.upperTables.flatMap fun t => e.tables t.text) ++
      e.tables (paragraph (featureText a.summary)) ++
        a.lowerTables.flatMap fun t => e.tables t.text := by
  have shape : markdown a =
      paragraph "# Mutation Filtering" ++
        (tableOr "_No classes analyzed_" a.classTable.headers a.classTable.rows ++
        (paragraph "## Filtered" ++
        (tableOr "_No items_" a.filteredTable.headers a.filteredTable.rows ++
        (optionalSection "## Kept" a.keptTable.headers a.keptTable.rows ++
          summaryMarkdown a.summary)))) := by
    simp only [markdown, List.append_assoc]
    rfl
  rw [shape, tables_paragraph (plain_of_printed rfl (by decide)),
    tables_tableOr (plain_of_printed rfl (by decide)),
    tables_paragraph (plain_of_printed rfl (by decide)),
    tables_tableOr (plain_of_printed rfl (by decide)),
    tables_optionalSection (plain_of_printed rfl (by decide)), tables_summary,
    Analysis.upperTables, List.flatMap_append, List.flatMap_append]
  simp only [List.append_assoc]

theorem tables_markdown_iff :
    e.tables (markdown a) = a.tables.map Table.reading ↔ a.Unbroken e := by
  rw [tables_markdown, Analysis.tables, tables_around_iff, found_paragraph, unbroken_iff]
  rfl

end Report

end LineEnds

theorem exists_of_forall₂ {α β : Type} {R : α → β → Prop} {xs : List α} {ys : List β}
    (h : List.Forall₂ R xs ys) {y : β} (hy : y ∈ ys) : ∃ x ∈ xs, R x y := by
  induction h with
  | nil => cases hy
  | cons related _ ih =>
    rcases List.mem_cons.mp hy with rfl | hy
    · exact ⟨_, List.mem_cons_self, related⟩
    · obtain ⟨x, hx, related⟩ := ih hy
      exact ⟨x, List.mem_cons_of_mem _ hx, related⟩

structure ClassUnit.Unbroken (u : ClassUnit) (e : LineEnds) : Prop where
  «class» : e.Whole u.class.name.toList
  mutations : ∀ m ∈ u.mutations,
    e.Whole m.id.location.display.toList ∧ e.Whole m.id.mutator.label.toList

namespace Analyzer

variable {a : Analyzer} {e : LineEnds} (workers : Nat → Gathering (String × Partition))
  (duration : Elapsed)

section Counts

variable (features : List String) (results : List (String × Partition))

theorem length_filteredTable :
    (a.report features duration results).filteredTable.rows.length =
      (a.report features duration results).summary.filtered := by
  have rows : (a.report features duration results).filteredTable.rows =
      ((results.map Prod.snd).flatMap Partition.filtered).map filteredRow := by
    rw [List.map_flatMap, List.flatMap_map]
    exact List.flatMap_map ..
  rw [rows, List.length_map]
  exact (Summary.total_filtered _).symm

theorem length_keptTable :
    (a.report features duration results).keptTable.rows.length =
      if a.showKept then (a.report features duration results).summary.kept else 0 := by
  have rows : (a.report features duration results).keptTable.rows =
      ((results.map Prod.snd).flatMap fun p => if a.showKept then p.kept else []).map keptRow := by
    rw [List.map_flatMap, List.flatMap_map]
    exact List.flatMap_map ..
  rw [rows, List.length_map]
  cases a.showKept with
  | true => exact (Summary.total_kept _).symm
  | false => simp [Function.comp_def]

end Counts

section Names

variable {units : List ClassUnit} {factories : List Factory} {r : Analysis}

theorem kept_of_classResult {result : String × Partition} {m : Mutation}
    (h : m ∈ (a.classResult result).kept) : m ∈ result.2.kept := by
  simp only [classResult] at h
  split at h
  · exact h
  · cases h

theorem unbroken_of_units (enabled : a.registry.enabled a.settings = .ok factories)
    (analyzed : a.analyzeBy workers units duration = .ok r) (names : ∀ u ∈ units, u.Unbroken e)
    (filters : ∀ u ∈ units, ∀ m name,
      (Registry.chainOf factories).verdictOn u.class m = .ok (some name) → e.Whole name.toList)
    (features : ∀ f ∈ factories, e.Apart f.feature.name.toList) : r.Unbroken e := by
  obtain ⟨results, divided, rfl⟩ :=
    (analyzeBy_ok_iff workers units duration enabled r).mp analyzed
  have placed : ∀ result ∈ results, ∀ m ∈ result.2.mutations,
      e.Whole m.id.location.display.toList ∧ e.Whole m.id.mutator.label.toList := by
    intro result there m hm
    obtain ⟨u, hu, -, divides⟩ := exists_of_forall₂ divided there
    exact (names u hu).mutations m (divides.perm.mem_iff.mp hm)
  have filtered : ∀ result ∈ results, ∀ f ∈ result.2.filtered, e.Whole f.filter.toList := by
    intro result there f hf
    obtain ⟨u, hu, -, divides⟩ := exists_of_forall₂ divided there
    exact filters u hu f.mutation f.filter (divides.filtered_verdict f hf)
  constructor
  · intro c hc
    obtain ⟨result, there, rfl⟩ := List.mem_map.mp hc
    obtain ⟨u, hu, name, -⟩ := exists_of_forall₂ divided there
    rw [classResult, name]
    exact (names u hu).class
  · intro c hc f hf
    obtain ⟨result, there, rfl⟩ := List.mem_map.mp hc
    have own := placed result there f.mutation
      (List.mem_append_right _ (List.mem_map_of_mem hf))
    exact ⟨own.1, own.2, filtered result there f hf⟩
  · intro c hc m hm
    obtain ⟨result, there, rfl⟩ := List.mem_map.mp hc
    exact placed result there m (List.mem_append_left _ (kept_of_classResult hm))
  · rintro ⟨name, n⟩ hf
    obtain ⟨occurs, -⟩ := (Summary.mem_byFilter _ _ _ name n).mp hf
    obtain ⟨p, hp, named⟩ := List.mem_flatMap.mp occurs
    obtain ⟨result, there, rfl⟩ := List.mem_map.mp hp
    obtain ⟨f, gone, rfl⟩ := List.mem_map.mp named
    exact filtered result there f gone
  · rintro ⟨label, n⟩ hm
    obtain ⟨occurs, -⟩ := (Summary.mem_byMutator _ _ _ label n).mp hm
    obtain ⟨p, hp, labelled⟩ := List.mem_flatMap.mp occurs
    obtain ⟨result, there, rfl⟩ := List.mem_map.mp hp
    rcases List.mem_append.mp labelled with kept | gone
    · obtain ⟨m, stays, rfl⟩ := List.mem_map.mp kept
      exact (placed result there m (List.mem_append_left _ stays)).2
    · obtain ⟨f, goes, rfl⟩ := List.mem_map.mp gone
      exact (placed result there f.mutation
        (List.mem_append_right _ (List.mem_map_of_mem goes))).2
  · intro name hname
    obtain ⟨f, hf, rfl⟩ := List.mem_map.mp hname
    exact features f hf

theorem printed_filter {c : ClassTree} {m : Mutation} {name : String}
    (goes : equivalentReturns.verdictOn c m = .ok (some name)) :
    name.toList.all isPrinted = true := by
  have own : ∃ p : Pattern, p.name = name := by
    rcases declared_or_not c m.id.location with ⟨f, hf, place⟩ | missing
    · obtain ⟨found, verdict, -⟩ := verdict_declared hf place
      rw [goes, Except.ok.injEq, eq_comm, Option.map_eq_some_iff] at verdict
      obtain ⟨p, -, named⟩ := verdict
      exact ⟨p, named⟩
    · rw [verdict_undeclared missing] at goes
      split at goes <;> cases goes
  obtain ⟨p, rfl⟩ := own
  cases p <;> decide

theorem unbroken_of_builtIn (own : a.registry = Registry.builtIn)
    (analyzed : a.analyzeBy workers units duration = .ok r)
    (names : ∀ u ∈ units, u.Unbroken e) : r.Unbroken e := by
  have known : ∀ s ∈ a.settings, Registry.builtIn.Names s.name := by
    rcases Registry.known_or_firstUnknown Registry.builtIn a.settings with known | ⟨s, unknown⟩
    · exact known
    · rw [← own] at unknown
      rw [analyzeBy_unknown workers units duration unknown] at analyzed
      cases analyzed
  by_cases off : Setting.SwitchOff "FRETEQUIV" a.settings
  · have enabled : a.registry.enabled a.settings = .ok [] := by
      rw [own, Registry.builtIn_enabled_off known off]
    refine unbroken_of_units workers duration enabled analyzed names ?_ ?_
    · intro u hu m name goes
      rw [verdictOn_no_chain] at goes
      cases goes
    · exact List.forall_mem_nil _
  · have enabled : a.registry.enabled a.settings = .ok Registry.builtIn := by
      rw [own, Registry.builtIn_enabled_on known off]
    refine unbroken_of_units workers duration enabled analyzed names ?_ ?_
    · intro u hu m name goes
      rw [verdictOn_chain] at goes
      exact LineEnds.whole_of_printed (printed_filter goes)
    · intro f hf
      cases List.mem_singleton.mp hf
      exact LineEnds.apart_of_whole (LineEnds.whole_of_printed (by decide))

end Names

/-- What a reader finds in the report of an analysis. It finds each table that is shown, with its
headers, a line of dashes and one line for each row, and in each line the values of the row, exactly
if the names in the report are unbroken; with the built-in features they are if those of the units
are. A row has a value for each header. There is a row for every class and for every mutation
filtered, and if the mutations that stay are listed, for each of them. -/
theorem report_read {units : List ClassUnit} {r : Analysis}
    (analyzed : a.analyzeBy workers units duration = .ok r) (e : LineEnds) :
    (e.tables (r.report .markdown).toList = r.tables.map Table.reading ↔ r.Unbroken e) ∧
    (a.registry = Registry.builtIn → (∀ u ∈ units, u.Unbroken e) → r.Unbroken e) ∧
    (∀ t ∈ r.tables, ∀ row ∈ t.rows, row.length = t.headers.length) ∧
    r.classTable.rows.length = units.length ∧
    r.filteredTable.rows.length = r.summary.filtered ∧
    r.keptTable.rows.length = if a.showKept then r.summary.kept else 0 := by
  have text : (r.report .markdown).toList = markdown r := String.toList_ofList
  obtain ⟨factories, enabled⟩ := exists_enabled workers units duration analyzed
  refine ⟨?_, fun own names => unbroken_of_builtIn workers duration own analyzed names,
    fun t _ => t.fits, ?_⟩
  · rw [text]
    exact LineEnds.tables_markdown_iff r
  · obtain ⟨results, divided, rfl⟩ :=
      (analyzeBy_ok_iff workers units duration enabled r).mp analyzed
    refine ⟨?_, length_filteredTable duration _ results, length_keptTable duration _ results⟩
    rw [divided.length_eq]
    simp [report, Analysis.classTable]

def piped : ClassUnit :=
  ⟨ClassTree.empty "A|B", [{ id := ⟨⟨"A|B", "f", "()V"⟩, 0, .math⟩ }]⟩

theorem piped_read :
    ∃ r, (builtIn [] 0 true).analyzeBy (fun _ => .inTurn) [piped] ⟨0⟩ = .ok r ∧
      (r.tables.map fun t => t.rows) =
        [[["A|B", "1", "0", "0.00%"]], [["A|B::f()V", "0", "MATH", "-"]], [["MATH", "1", "0"]]] ∧
      LineEnds.feeds.tables (r.report .markdown).toList = r.tables.map Table.reading := by
  have names : ∀ u ∈ [piped], u.Unbroken LineEnds.feeds := by
    intro u hu
    cases List.mem_singleton.mp hu
    refine ⟨LineEnds.whole_of_printed (by decide), fun m hm => ?_⟩
    cases List.mem_singleton.mp hm
    exact ⟨LineEnds.whole_of_printed (by decide), LineEnds.whole_of_printed (by decide)⟩
  obtain ⟨r, analyzed⟩ :
      ∃ r, (builtIn [] 0 true).analyzeBy (fun _ => .inTurn) [piped] ⟨0⟩ = .ok r := ⟨_, rfl⟩
  obtain ⟨read, unbroken, -⟩ := report_read _ _ analyzed LineEnds.feeds
  refine ⟨r, analyzed, ?_, read.mpr (unbroken rfl names)⟩
  cases analyzed
  decide +kernel

def torn : ClassUnit := ⟨ClassTree.empty "A\nB", []⟩

theorem torn_lost :
    ∃ r, (builtIn [] 0 true).analyzeBy (fun _ => .inTurn) [torn] ⟨0⟩ = .ok r ∧
      LineEnds.feeds.tables (r.report .markdown).toList ≠ r.tables.map Table.reading := by
  refine ⟨_, rfl, fun read => ?_⟩
  rw [Analysis.report, String.toList_ofList, LineEnds.tables_markdown_iff] at read
  have whole := read.classes _ List.mem_cons_self '\n' (by decide)
  cases whole

end Analyzer

end MutantSieve
