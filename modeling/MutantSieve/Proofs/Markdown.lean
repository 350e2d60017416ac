import Mathlib.Data.List.Chain
import Mathlib.Data.List.TakeWhile
import MutantSieve.Report.Table

/-!
# Reading tables

A reader of Markdown takes a text apart into lines, a run of lines that begin with a pipe for a
table, and in each of them the texts between the pipes for values. A backslash in front of a pipe
says that the pipe belongs to a value. A row that is written comes back from its text exactly if
none of its values goes over the end of a line.
-/

set_option autoImplicit false

namespace MutantSieve

open Report

namespace Markdown

def isPrinted (c : Char) : Bool := decide (32 ≤ c.toNat) && decide (c.toNat ≤ 126)

/-- The texts between those pipes that do not come directly after a backslash. -/
def pieces (afterBackslash : Bool) : List Char → List (List Char)
  | [] => [[]]
  | c :: rest =>
    if c = '|' ∧ afterBackslash = false then [] :: pieces false rest
    else (pieces (c == '\\') rest).modifyHead (c :: ·)

def unescape : List Char → List Char
  | [] => []
  | '\\' :: '|' :: rest => '|' :: unescape rest
  | c :: rest => c :: unescape rest

/-- What a line of a table holds: what stands between its pipes, in front of the first one and
behind the last one. -/
def cells (line : List Char) : List (List Char) := (pieces false line).map unescape

def framed (row : Row) : List (List Char) :=
  [] :: row.map (fun v => ' ' :: v.toList ++ [' ']) ++ [[]]

def isRow (line : List Char) : Bool := line.head? == some '|'

/-- The runs of lines that begin with a pipe, as long as they go. -/
def runs (lines : List (List Char)) : List (List (List Char)) :=
  (lines.splitOnP fun l => !isRow l).filter fun run => !run.isEmpty

section Runs

theorem runs_append (ls ms : List (List Char)) : runs (ls ++ [] :: ms) = runs ls ++ runs ms := by
  have cut : (ls ++ [] :: ms).splitOnP (fun l => !isRow l) = _ :=
    List.splitOnP_append_cons ls ms rfl
  rw [runs, cut, List.filter_append]
  rfl

theorem runs_of_rows {ls : List (List Char)} (rows : ∀ l ∈ ls, isRow l = true) (some : ls ≠ []) :
    runs ls = [ls] := by
  have one : ls.splitOnP (fun l => !isRow l) = [ls] := by
    apply List.splitOnP_eq_singleton
    intro l hl
    rw [rows l hl]
    rfl
  rw [runs, one]
  simpa using some

theorem flatten_runs (ls : List (List Char)) : (runs ls).flatten = ls.filter isRow := by
  rw [runs, List.flatten_filter_not_isEmpty]
  induction ls with
  | nil => rfl
  | cons l ls ih =>
    rw [List.splitOnP_cons_eq_if_modifyHead, List.filter_cons]
    cases split : ls.splitOnP fun l => !isRow l with
    | nil => exact absurd split (List.splitOnP_ne_nil _ ls)
    | cons run runs =>
      rw [split] at ih
      cases isRow l
      · simpa using ih
      · simpa using ih

end Runs

section Values

theorem pieces_cell (v : List Char) (b : Bool) :
    ∃ b' : Bool, ∀ rest, pieces b (v.flatMap cellChar ++ rest) =
      (pieces b' rest).modifyHead (v.flatMap cellChar ++ ·) := by
  -- Whether a pipe cuts depends on the character in front, so the state is left open.
  induction v generalizing b with
  | nil => exact ⟨b, fun rest => (congrFun List.modifyHead_id _).symm⟩
  | cons c v ih =>
    by_cases pipe : c = '|'
    · obtain ⟨b', ih⟩ := ih false
      refine ⟨b', fun rest => ?_⟩
      subst pipe
      simp [cellChar, pieces, ih, Function.comp_def]
    · obtain ⟨b', ih⟩ := ih (c == '\\')
      refine ⟨b', fun rest => ?_⟩
      simp [cellChar, pieces, pipe, ih, Function.comp_def]

theorem unescape_cons {c : Char} {rest : List Char} (h : c = '\\' → rest.head? ≠ some '|') :
    unescape (c :: rest) = c :: unescape rest := by
  rw [unescape]
  rintro rest' rfl rfl
  exact h rfl rfl

theorem cell_head (v rest : List Char) :
    (v.flatMap cellChar ++ ' ' :: rest).head? ≠ some '|' := by
  cases v with
  | nil => simp
  | cons c v =>
    by_cases pipe : c = '|'
    · simp [cellChar, pipe]
    · simp [cellChar, pipe]

theorem unescape_cell (v rest : List Char) :
    unescape (v.flatMap cellChar ++ ' ' :: rest) = v ++ unescape (' ' :: rest) := by
  induction v with
  | nil => rfl
  | cons c v ih =>
    by_cases pipe : c = '|'
    · subst pipe
      simp [cellChar, unescape, ih]
    · have next := unescape_cons (c := c) fun _ => cell_head v rest
      simp [cellChar, pipe, next, ih]

end Values

section Rows

def padded (v : String) : List Char := ' ' :: cell v ++ [' ', '|']

def rowText (row : Row) : List Char := '|' :: row.flatMap padded

theorem tableLine_cells (row : Row) : tableLine (row.map cell) = rowText row ++ ['\n'] := by
  simp only [tableLine, rowText, List.flatMap_map]
  rfl

theorem pieces_padded (v : String) (b : Bool) (rest : List Char) :
    pieces b (padded v ++ rest) = (' ' :: cell v ++ [' ']) :: pieces false rest := by
  obtain ⟨b', behind⟩ := pieces_cell v.toList false
  simp [padded, cell, pieces, behind]

theorem cells_rowText (row : Row) : cells (rowText row) = framed row := by
  have value (v : String) : unescape (' ' :: cell v ++ [' ']) = ' ' :: v.toList ++ [' '] := by
    have blank : unescape (' ' :: (cell v ++ [' '])) = ' ' :: unescape (cell v ++ [' ']) :=
      unescape_cons fun other => absurd other (by decide)
    rw [List.cons_append, blank, cell, unescape_cell]
    rfl
  have inside : (pieces false (row.flatMap padded)).map unescape =
      row.map (fun v => ' ' :: v.toList ++ [' ']) ++ [[]] := by
    induction row with
    | nil => rfl
    | cons v row ih =>
      rw [List.flatMap_cons, pieces_padded, List.map_cons, value, ih]
      rfl
  simp [cells, rowText, pieces, framed, inside, unescape]

end Rows

end Markdown

open Markdown

/-- The characters that a reader takes for ends of lines. A line feed is one of them, and what
ASCII prints is not. -/
structure LineEnds where
  isEnd : Char → Bool
  feed : isEnd '\n' = true
  printed : ∀ c, isPrinted c = true → isEnd c = false

namespace LineEnds

def feeds : LineEnds where
  isEnd c := c == '\n'
  feed := rfl
  printed c h := by
    rw [beq_eq_false_iff_ne]
    rintro rfl
    exact absurd h (by decide)

variable (e : LineEnds)

def lines (text : List Char) : List (List Char) := text.splitOnP e.isEnd

def tables (text : List Char) : List (List (List (List Char))) :=
  (runs (e.lines text)).map (·.map cells)

def found (text : List Char) : List (List Char) := (e.lines text).filter isRow

def Whole (text : List Char) : Prop := ∀ c ∈ text, e.isEnd c = false

def Apart (text : List Char) : Prop := text.IsChain fun c d => e.isEnd c = true → d ≠ '|'

def first (text : List Char) : List Char := text.takeWhile fun c => !e.isEnd c

theorem pipe : e.isEnd '|' = false := e.printed '|' (by decide)

theorem blank : e.isEnd ' ' = false := e.printed ' ' (by decide)

theorem backslash : e.isEnd '\\' = false := e.printed '\\' (by decide)

@[simp] theorem whole_nil : e.Whole [] := List.forall_mem_nil _

@[simp] theorem whole_cons {c : Char} {text : List Char} :
    e.Whole (c :: text) ↔ e.isEnd c = false ∧ e.Whole text := List.forall_mem_cons

theorem whole_append {xs ys : List Char} : e.Whole (xs ++ ys) ↔ e.Whole xs ∧ e.Whole ys :=
  List.forall_mem_append

theorem whole_flatMap {α : Type} (f : α → List Char) (items : List α) :
    e.Whole (items.flatMap f) ↔ ∀ a ∈ items, e.Whole (f a) := List.forall_mem_flatMap

section Found

variable {e} {text xs ys : List Char}

theorem lines_append (xs ys : List Char) :
    e.lines (xs ++ '\n' :: ys) = e.lines xs ++ e.lines ys :=
  List.splitOnP_append_cons xs ys e.feed

theorem found_append (xs ys : List Char) :
    e.found (xs ++ '\n' :: ys) = e.found xs ++ e.found ys := by
  simp only [found, lines_append, List.filter_append]

theorem apart_cons {c : Char} :
    e.Apart (c :: text) ↔ (e.isEnd c = true → isRow text = false) ∧ e.Apart text := by
  have next : (∀ d ∈ text.head?, d ≠ '|') ↔ isRow text = false := by
    cases text <;> simp [isRow]
  rw [Apart, List.isChain_cons, ← next]
  exact and_congr_left' ⟨fun h ends d hd => h d hd ends, fun h d hd ends => h ends d hd⟩

theorem apart_of_whole (whole : e.Whole text) : e.Apart text := by
  induction text with
  | nil => exact List.isChain_nil
  | cons c text ih =>
    rw [whole_cons] at whole
    refine apart_cons.mpr ⟨fun ends => ?_, ih whole.2⟩
    rw [whole.1] at ends
    cases ends

theorem whole_of_printed (printed : text.all isPrinted = true) : e.Whole text :=
  fun c hc => e.printed c (List.all_eq_true.mp printed c hc)

theorem isRow_first (text : List Char) : isRow (e.first text) = isRow text := by
  cases text with
  | nil => rfl
  | cons c rest =>
    by_cases ends : e.isEnd c = true
    · have other : c ≠ '|' := by
        rintro rfl
        rw [e.pipe] at ends
        cases ends
      simp [first, isRow, ends, other]
    · simp [first, isRow, ends]

/-- Behind the first line, a line begins with a pipe only where the end of another stands directly
in front of it. -/
theorem lines_cut (text : List Char) :
    ∃ more, e.lines text = e.first text :: more ∧ (more.filter isRow = [] ↔ e.Apart text) := by
  induction text with
  | nil => exact ⟨[], rfl, by simp [Apart]⟩
  | cons c rest ih =>
    obtain ⟨more, cut, apart⟩ := ih
    rw [lines] at cut
    by_cases ends : e.isEnd c = true
    · -- What was the first line is now behind another one.
      refine ⟨e.first rest :: more, ?_, ?_⟩
      · simp [lines, List.splitOnP_cons_eq_if_modifyHead, ends, cut, first]
      · rw [apart_cons, ← apart, List.filter_cons, isRow_first]
        cases isRow rest <;> simp [ends]
    · refine ⟨more, ?_, ?_⟩
      · simp [lines, List.splitOnP_cons_eq_if_modifyHead, ends, cut, first]
      · rw [apart_cons, apart]
        simp [ends]

theorem found_eq_nil_iff : e.found text = [] ↔ isRow text = false ∧ e.Apart text := by
  obtain ⟨more, cut, apart⟩ := e.lines_cut text
  rw [found, cut, List.filter_cons, isRow_first, ← apart]
  cases isRow text <;> simp

theorem found_of_row (row : isRow text = true) (apart : e.Apart text) :
    e.found text = [e.first text] := by
  obtain ⟨more, cut, behind⟩ := e.lines_cut text
  rw [found, cut, List.filter_cons, isRow_first, row, behind.mpr apart]
  rfl

theorem first_of_whole (whole : e.Whole text) : e.first text = text := by
  rw [first, List.takeWhile_eq_self_iff]
  intro c hc
  rw [whole c hc]
  rfl

end Found

section Rows

variable {e}

theorem apart_cell (v : List Char) {rest : List Char} (apart : e.Apart (' ' :: rest)) :
    e.Apart (v.flatMap cellChar ++ ' ' :: rest) := by
  induction v with
  | nil => exact apart
  | cons c v ih =>
    have next : isRow (v.flatMap cellChar ++ ' ' :: rest) = false := by
      rw [isRow, beq_eq_false_iff_ne]
      exact cell_head v rest
    by_cases pipe : c = '|'
    · subst pipe
      simp [cellChar, apart_cons, e.pipe, e.backslash, ih]
    · simp [cellChar, pipe, apart_cons, next, ih]

theorem apart_rowText (row : Row) : e.Apart (rowText row) := by
  have inside : e.Apart (row.flatMap padded) := by
    induction row with
    | nil => exact List.isChain_nil
    | cons v row ih =>
      have behind : e.Apart (' ' :: '|' :: row.flatMap padded) := by
        simp [apart_cons, e.blank, e.pipe, ih]
      have value := apart_cell v.toList behind
      simpa [padded, cell, apart_cons, e.blank] using value
  simp [rowText, apart_cons, e.pipe, inside]

theorem found_rowText (row : Row) : e.found (rowText row) = [e.first (rowText row)] :=
  found_of_row rfl (apart_rowText row)

theorem whole_cell (v : List Char) : e.Whole (v.flatMap cellChar) ↔ e.Whole v := by
  rw [whole_flatMap, Whole]
  refine forall₂_congr fun c _ => ?_
  by_cases pipe : c = '|'
  · simp [cellChar, pipe, e.pipe, e.backslash]
  · simp [cellChar, pipe]

theorem whole_padded (v : String) : e.Whole (padded v) ↔ e.Whole v.toList := by
  rw [padded, cell, whole_append, whole_cons, whole_cell]
  simp [e.blank, e.pipe]

theorem whole_rowText (row : Row) : e.Whole (rowText row) ↔ ∀ v ∈ row, e.Whole v.toList := by
  rw [rowText, whole_cons, whole_flatMap]
  simp only [e.pipe, true_and, whole_padded]

theorem first_append {xs : List Char} (whole : e.Whole xs) (ys : List Char) :
    e.first (xs ++ ys) = xs ++ e.first ys := by
  apply List.takeWhile_append_of_pos
  intro c hc
  rw [whole c hc]
  rfl

theorem first_broken {xs : List Char} (broken : ¬ e.Whole xs) (ys : List Char) :
    e.first (xs ++ ys) = e.first xs := by
  have cut : e.first xs ≠ xs := by
    rw [first, Ne, List.takeWhile_eq_self_iff]
    simpa [Whole] using broken
  rw [first, List.takeWhile_append, if_neg]
  · rfl
  · intro full
    exact cut ((List.takeWhile_prefix _).eq_of_length full)

theorem first_cell (v : List Char) :
    e.first (v.flatMap cellChar) = (e.first v).flatMap cellChar := by
  induction v with
  | nil => rfl
  | cons c v ih =>
    rw [first] at ih ⊢
    by_cases pipe : c = '|'
    · subst pipe
      simp [cellChar, first, e.pipe, e.backslash, ih]
    · by_cases ends : e.isEnd c = true
      · simp [cellChar, pipe, first, ends]
      · simp [cellChar, pipe, first, ends, ih]

/-- A value that goes over the end of a line takes the pipes behind it along. -/
theorem pieces_broken {row : Row} (broken : ¬ ∀ v ∈ row, e.Whole v.toList) :
    (pieces false (e.first (row.flatMap padded))).length ≤ row.length := by
  induction row with
  | nil => simp at broken
  | cons v row ih =>
    rw [List.flatMap_cons]
    by_cases whole : e.Whole v.toList
    · have behind : ¬ ∀ v ∈ row, e.Whole v.toList := by
        simpa [List.forall_mem_cons, whole] using broken
      rw [first_append ((whole_padded v).mpr whole), pieces_padded]
      exact Nat.succ_le_succ (ih behind)
    · have cut : e.first (padded v) = ' ' :: (e.first v.toList).flatMap cellChar := by
        have inside : ¬ e.Whole (cell v) := fun h => whole ((whole_cell v.toList).mp h)
        have start := first_broken inside [' ', '|']
        have same : e.first (cell v) = (e.first v.toList).flatMap cellChar := first_cell v.toList
        rw [same, first] at start
        simp [padded, first, e.blank, start]
      rw [first_broken (fun h => whole ((whole_padded v).mp h)), cut]
      obtain ⟨b, alone⟩ := pieces_cell (e.first v.toList) false
      have one := alone []
      rw [List.append_nil] at one
      simp [pieces, one]

/-- A row is read from its first line as it was written exactly if its line has no other end. -/
theorem cells_first_iff (row : Row) :
    cells (e.first (rowText row)) = framed row ↔ ∀ v ∈ row, e.Whole v.toList := by
  constructor
  · intro read
    by_contra broken
    have short := e.pieces_broken broken
    have start : e.first (rowText row) = '|' :: e.first (row.flatMap padded) := by
      simp [rowText, first, e.pipe]
    have count := congrArg List.length read
    simp only [cells, start, framed, pieces, List.length_map, List.length_append, List.length_cons,
      List.length_nil, if_pos, and_self] at count
    omega
  · intro whole
    rw [first_of_whole ((whole_rowText row).mpr whole), cells_rowText]

end Rows

end LineEnds

structure Table where
  headers : Row
  rows : List Row
  titled : headers.all (fun h => h.toList.all fun c => isPrinted c && c != '|') = true
  fits : ∀ row ∈ rows, row.length = headers.length

namespace Table

variable (t : Table)

def text : List Char := table t.headers t.rows

def lines : List Row := t.headers :: t.headers.map (fun _ => "---") :: t.rows

def reading : List (List (List Char)) := t.lines.map framed

def shown : List Table := if t.rows.isEmpty then [] else [t]

theorem plain_title {h : String} (hh : h ∈ t.headers) :
    h.toList.all isPrinted = true ∧ cell h = h.toList := by
  have title := List.all_eq_true.mp t.titled h hh
  simp only [List.all_eq_true, Bool.and_eq_true, bne_iff_ne] at title
  have plain : ∀ c ∈ h.toList, cellChar c = [c] := fun c hc => if_neg (title c hc).2
  refine ⟨List.all_eq_true.mpr fun c hc => (title c hc).1, ?_⟩
  rw [cell, List.flatMap_congr plain, List.flatMap_singleton']

theorem text_eq : t.text = t.lines.flatMap (fun row => rowText row ++ ['\n']) ++ ['\n'] := by
  have headers : t.headers.map String.toList = t.headers.map cell :=
    List.map_congr_left fun h hh => (t.plain_title hh).2.symm
  have dashes : (t.headers.map fun _ => ['-', '-', '-']) =
      (t.headers.map fun _ => "---").map cell := by
    have plain : cell "---" = ['-', '-', '-'] := by decide
    simp only [List.map_map, Function.comp_def, plain]
  simp only [text, table, headers, dashes, tableLine_cells, lines, List.flatMap_cons,
    List.append_assoc]

end Table

namespace LineEnds

variable {e : LineEnds} {text : List Char}

section Tables

theorem flatten_tables (text : List Char) :
    (e.tables text).flatten = (e.found text).map cells := by
  rw [tables, ← List.map_flatten, flatten_runs, found]

theorem ne_nil_of_mem_tables {t : List (List (List Char))} (ht : t ∈ e.tables text) : t ≠ [] := by
  obtain ⟨run, there, rfl⟩ := List.mem_map.mp ht
  simpa using (List.mem_filter.mp there).2

theorem tables_eq_nil_iff : e.tables text = [] ↔ e.found text = [] := by
  rw [← List.map_eq_nil_iff (f := cells), ← flatten_tables, List.flatten_eq_nil_iff]
  constructor
  · intro none t ht
    rw [none] at ht
    cases ht
  · intro empty
    rw [List.eq_nil_iff_forall_not_mem]
    intro t ht
    exact ne_nil_of_mem_tables ht (empty t ht)

def Closed (text : List Char) : Prop := text = [] ∨ ['\n', '\n'] <:+ text

theorem tables_append {xs : List Char} (closed : Closed xs) (ys : List Char) :
    e.tables (xs ++ ys) = e.tables xs ++ e.tables ys := by
  rcases closed with rfl | ⟨zs, rfl⟩
  · rfl
  · have cut (rest : List Char) :
        e.lines (zs ++ '\n' :: '\n' :: rest) = e.lines zs ++ [] :: e.lines rest := by
      rw [lines_append, ← List.nil_append ('\n' :: rest), lines_append]
      rfl
    rw [List.append_assoc]
    simp only [tables, List.cons_append, List.nil_append, cut, runs_append, List.map_append]
    rw [List.append_assoc]
    rfl

theorem closed_text (t : Table) : Closed t.text := by
  have ends (rows : List Row) : ['\n'] <:+ (rows.flatMap fun row => rowText row ++ ['\n']) ∨
      rows = [] := by
    rcases rows.eq_nil_or_concat with rfl | ⟨rows, row, rfl⟩
    · exact Or.inr rfl
    · left
      rw [List.concat_eq_append, List.flatMap_append, List.flatMap_singleton, ← List.append_assoc]
      exact List.suffix_append _ _
  rcases ends t.lines with ⟨zs, cut⟩ | none
  · refine Or.inr ⟨zs, ?_⟩
    rw [t.text_eq, ← cut, List.append_assoc]
    rfl
  · cases none

theorem found_lines (rows : List Row) (rest : List Char) :
    e.found (rows.flatMap (fun row => rowText row ++ ['\n']) ++ rest) =
      rows.map (fun row => e.first (rowText row)) ++ e.found rest := by
  induction rows with
  | nil => rfl
  | cons row rows ih =>
    rw [List.flatMap_cons, List.append_assoc, List.append_assoc, List.singleton_append,
      found_append, found_rowText, ih]
    rfl

theorem found_empty : e.found ['\n'] = [] := found_append [] []

theorem found_text (t : Table) :
    e.found t.text = t.lines.map fun row => e.first (rowText row) := by
  rw [t.text_eq, found_lines, found_empty, List.append_nil]

theorem lines_of_whole {rows : List Row} (whole : ∀ row ∈ rows, ∀ v ∈ row, e.Whole v.toList)
    (rest : List Char) :
    e.lines (rows.flatMap (fun row => rowText row ++ ['\n']) ++ rest) =
      rows.map rowText ++ e.lines rest := by
  induction rows with
  | nil => rfl
  | cons row rows ih =>
    rw [List.forall_mem_cons] at whole
    have one : e.lines (rowText row) = [rowText row] :=
      List.splitOnP_eq_singleton ((whole_rowText row).mpr whole.1)
    rw [List.flatMap_cons, List.append_assoc, List.append_assoc, List.singleton_append,
      lines_append, one, ih whole.2]
    rfl

theorem whole_titles (t : Table) : ∀ h ∈ t.headers, e.Whole h.toList :=
  fun _ hh => whole_of_printed (t.plain_title hh).1

theorem whole_dashes : e.Whole "---".toList := whole_of_printed (by decide)

theorem whole_lines_iff (t : Table) :
    (∀ row ∈ t.lines, ∀ v ∈ row, e.Whole v.toList) ↔
      ∀ row ∈ t.rows, ∀ v ∈ row, e.Whole v.toList := by
  have dashes : ∀ v ∈ t.headers.map (fun _ => "---"), e.Whole v.toList := by
    intro v hv
    obtain ⟨-, -, rfl⟩ := List.mem_map.mp hv
    exact whole_dashes
  rw [Table.lines, List.forall_mem_cons, List.forall_mem_cons, and_iff_right (whole_titles t),
    and_iff_right dashes]

theorem tables_text {t : Table} (whole : ∀ row ∈ t.rows, ∀ v ∈ row, e.Whole v.toList) :
    e.tables t.text = [t.reading] := by
  have rows : runs (t.lines.map rowText) = [t.lines.map rowText] := by
    apply runs_of_rows
    · intro l hl
      obtain ⟨row, -, rfl⟩ := List.mem_map.mp hl
      rfl
    · exact List.cons_ne_nil _ _
  have empty : e.lines ['\n'] = [[], []] := lines_append [] []
  have none : runs [[]] = [] := rfl
  have read : cells ∘ rowText = framed := funext cells_rowText
  rw [tables, t.text_eq, lines_of_whole ((whole_lines_iff t).mpr whole), empty, runs_append, rows,
    none, List.append_nil, List.map_singleton, List.map_map, read, Table.reading]

theorem flatten_tables_text (t : Table) :
    (e.tables t.text).flatten = t.lines.map fun row => cells (e.first (rowText row)) := by
  rw [flatten_tables, found_text, List.map_map]
  rfl

/-- Tables come back from their texts, and nothing else comes back from a text between them, exactly
if all their values are whole and no line of the text between them is in a table. -/
theorem tables_around_iff (before behind : List Table) (between : List Char) :
    before.flatMap (fun t => e.tables t.text) ++ e.tables between ++
          behind.flatMap (fun t => e.tables t.text) =
        (before ++ behind).map Table.reading ↔
      e.found between = [] ∧
        ∀ t ∈ before ++ behind, ∀ row ∈ t.rows, ∀ v ∈ row, e.Whole v.toList := by
  constructor
  · intro read
    have flat (ts : List Table) : (ts.flatMap fun t => e.tables t.text).flatten =
        (ts.flatMap Table.lines).map fun row => cells (e.first (rowText row)) := by
      rw [List.map_flatMap, ← List.flatMap_id, List.flatMap_assoc]
      simp only [List.flatMap_id]
      exact List.flatMap_congr fun t _ => flatten_tables_text t
    have goal (ts : List Table) :
        (ts.map Table.reading).flatten = (ts.flatMap Table.lines).map framed := by
      rw [List.map_flatMap, ← List.flatMap_def]
      rfl
    have lines := congrArg List.flatten read
    simp only [List.flatten_append, flat, goal, flatten_tables, List.flatMap_append] at lines
    -- as many lines are found in the tables as there should be, so none is found outside
    have outside : e.found between = [] := by
      have count := congrArg List.length lines
      simp only [List.length_append, List.length_map] at count
      exact List.eq_nil_of_length_eq_zero (by omega)
    rw [outside, List.map_nil, List.append_nil, ← List.map_append, List.map_inj_left] at lines
    refine ⟨outside, fun t ht => (whole_lines_iff t).mp fun row hrow => ?_⟩
    refine (e.cells_first_iff row).mp (lines row ?_)
    rw [← List.flatMap_append]
    exact List.mem_flatMap.mpr ⟨t, ht, hrow⟩
  · rintro ⟨outside, whole⟩
    have read (ts : List Table) (within : ∀ t ∈ ts, t ∈ before ++ behind) :
        (ts.flatMap fun t => e.tables t.text) = ts.map Table.reading := by
      rw [← List.flatMap_singleton' (ts.map Table.reading), List.flatMap_map]
      exact List.flatMap_congr fun t ht => tables_text (whole t (within t ht))
    rw [read before fun t ht => List.mem_append_left _ ht,
      read behind fun t ht => List.mem_append_right _ ht, tables_eq_nil_iff.mpr outside,
      List.append_nil, List.map_append]

end Tables

end LineEnds

end MutantSieve
