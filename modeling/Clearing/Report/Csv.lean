/-!
# Comma-separated values

A table is written as one line per row with commas between fields.  A field is
put between double quotes where it has to be: if it holds a comma, a quote or
the end of a line, or if it is empty and stands alone.  A quote inside is
written twice.
-/

namespace Clearing.Csv

/-- A character that only a quoted field can hold. -/
def needsQuotes (c : Char) : Bool :=
  c = ',' || c = '"' || c = '\n' || c = '\r'

/-- The characters of a quoted field: a quote is written twice. -/
def doubled : List Char → List Char
  | [] => []
  | c :: rest => if c = '"' then '"' :: '"' :: doubled rest else c :: doubled rest

/-- A field; `alone` says that it is the only one of its row. -/
def field (alone : Bool) (chars : List Char) : List Char :=
  if chars.any needsQuotes || (alone && chars.isEmpty) then '"' :: doubled chars ++ ['"'] else chars

/-- Fields with commas between them. -/
def commaSeparated : List (List Char) → List Char
  | [] => []
  | [last] => last
  | first :: next :: rest => first ++ ',' :: commaSeparated (next :: rest)

/-- A row with the end of its line. -/
def row (fields : List String) : List Char :=
  commaSeparated (fields.map fun text => field (fields.length = 1) text.toList) ++ ['\n']

/-- A header and rows; without rows there is no header either. -/
def table (header : List String) (rows : List (List String)) : String :=
  if rows.isEmpty then "" else String.ofList ((header :: rows).flatMap row)

example : table ["a", "b"] [["1", ""], ["x,y", "\""]] = "a,b\n1,\n\"x,y\",\"\"\"\"\n" := by
  decide +kernel

end Clearing.Csv
