/-!
# Tables in Markdown

A table has a line of headers, a line of dashes and a line for each row. A pipe within a value gets
a backslash in front.
-/

set_option autoImplicit false

namespace MutantSieve.Report

abbrev Row := List String

def cellChar (c : Char) : List Char := if c = '|' then ['\\', '|'] else [c]

def cell (value : String) : List Char := value.toList.flatMap cellChar

def tableLine (cells : List (List Char)) : List Char :=
  '|' :: cells.flatMap (fun c => ' ' :: c ++ [' ', '|']) ++ ['\n']

def table (headers : Row) (rows : List Row) : List Char :=
  tableLine (headers.map String.toList) ++
    tableLine (headers.map fun _ => ['-', '-', '-']) ++
    rows.flatMap (fun row => tableLine (row.map cell)) ++ ['\n']

def tableOr (notice : String) (headers : Row) (rows : List Row) : List Char :=
  if rows.isEmpty then notice.toList ++ ['\n', '\n'] else table headers rows

def paragraph (s : String) : List Char := s.toList ++ ['\n', '\n']

def line (s : String) : List Char := s.toList ++ ['\n']

end MutantSieve.Report
