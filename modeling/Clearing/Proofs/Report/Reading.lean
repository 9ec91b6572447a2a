import Clearing.Report

/-!
# Reports can be read back

Whoever reads a report by the rules for comma-separated values finds the header and then the
fields of each row, whatever characters they are made of (`Report.read_reports`).  So nothing
that a customer or a product is called can be taken for the end of a field or of a row.

The rules: a row ends with its line, a comma ends a field, and a field between double quotes
may hold anything, with two quotes for one.  A quote elsewhere is a fault, and so is a carriage
return.

## Strategy

A reader goes from character to character.  Before a field of the report it is at rest
(`Reader.before`), behind it all that it has read are the characters of the field
(`exists_run_field`), and a comma or the end of a line puts it to rest again.  Rows and tables
are read by induction on what they are made of.
-/

namespace Clearing

namespace Csv

/-- Where a reader stands. -/
inductive Place where
  /-- Nothing of the field was read. -/
  | start
  /-- In a field without quotes. -/
  | plain
  /-- Between the quotes of a field. -/
  | quoted
  /-- Behind a quote inside: the end of the field or the first of two quotes. -/
  | closing
  deriving DecidableEq, Repr

/-- A reader with what it has read so far. -/
structure Reader where
  place : Place
  /-- The characters of the present field. -/
  chars : List Char
  /-- The fields of the present row. -/
  fields : List String
  rows : List (List String)
  deriving DecidableEq, Repr

namespace Reader

/-- Before a field. -/
def before (fields : List String) (rows : List (List String)) : Reader :=
  { place := .start, chars := [], fields, rows }

/-- With another character of the field. -/
def keep (reader : Reader) (place : Place) (c : Char) : Reader :=
  { reader with place, chars := reader.chars ++ [c] }

/-- The fields of the row, with the present one. -/
def complete (reader : Reader) : List String :=
  reader.fields ++ [String.ofList reader.chars]

/-- The field is over, if the character ends it. -/
def endField? (reader : Reader) (c : Char) : Option Reader :=
  if c = ',' then some (before reader.complete reader.rows)
  else if c = '\n' then some (before [] (reader.rows ++ [reader.complete]))
  else none

/-- A character of a field without quotes, or the end of such a field. -/
def unquoted? (reader : Reader) (c : Char) : Option Reader :=
  if c = ',' ∨ c = '\n' then reader.endField? c
  else if c = '"' ∨ c = '\r' then none
  else some (reader.keep .plain c)

/-- The next character, unless there is a fault. -/
def step? (reader : Reader) (c : Char) : Option Reader :=
  match reader.place with
  | .start => if c = '"' then some { reader with place := .quoted } else reader.unquoted? c
  | .plain => reader.unquoted? c
  | .quoted =>
    if c = '"' then some { reader with place := .closing } else some (reader.keep .quoted c)
  | .closing => if c = '"' then some (reader.keep .quoted c) else reader.endField? c

/-- The characters of a text, one after the other. -/
def run (reader : Reader) : List Char → Option Reader
  | [] => some reader
  | c :: rest => (reader.step? c).bind fun next => run next rest

/-- The rows at the end of a text; the end of the last line may be missing. -/
def finish? (reader : Reader) : Option (List (List String)) :=
  match reader.place with
  | .start =>
    some (if reader.fields.isEmpty then reader.rows else reader.rows ++ [reader.complete])
  | .plain | .closing => some (reader.rows ++ [reader.complete])
  | .quoted => none

end Reader

/-- The rows of a text, unless it has a fault. -/
def read (text : String) : Option (List (List String)) :=
  ((Reader.before [] []).run text.toList).bind Reader.finish?

namespace Reader

variable {fields : List String} {rows : List (List String)}

theorem run_cons {reader next : Reader} {c : Char} (hstep : reader.step? c = some next)
    (rest : List Char) : reader.run (c :: rest) = next.run rest := by
  rw [run, hstep, Option.bind_some]

/-! ## Fields -/

/-- A character that needs no quotes is read as it is where there are none. -/
theorem step?_of_needsQuotes_eq_false {c : Char} (hplain : needsQuotes c = false) {place : Place}
    (hplace : place = .start ∨ place = .plain) (read : List Char) :
    step? { place, chars := read, fields, rows } c =
      some { place := .plain, chars := read ++ [c], fields, rows } := by
  simp only [needsQuotes, Bool.or_eq_false_iff, decide_eq_false_iff_not] at hplain
  obtain ⟨⟨⟨hcomma, hquote⟩, hline⟩, hreturn⟩ := hplain
  have hkept : unquoted? { place, chars := read, fields, rows } c =
      some { place := .plain, chars := read ++ [c], fields, rows } := by
    rw [unquoted?, if_neg (not_or.mpr ⟨hcomma, hline⟩), if_neg (not_or.mpr ⟨hquote, hreturn⟩), keep]
  rcases hplace with rfl | rfl
  · exact (if_neg hquote).trans hkept
  · exact hkept

/-- Characters that need no quotes are read as they are. -/
theorem run_plain {chars : List Char} (hplain : chars.any needsQuotes = false)
    (read rest : List Char) :
    run { place := .plain, chars := read, fields, rows } (chars ++ rest) =
      run { place := .plain, chars := read ++ chars, fields, rows } rest := by
  induction chars generalizing read with
  | nil => rw [List.append_nil, List.nil_append]
  | cons c chars ih =>
      rw [List.any_cons, Bool.or_eq_false_iff] at hplain
      rw [List.cons_append, run_cons (step?_of_needsQuotes_eq_false hplain.1 (.inr rfl) read),
        ih hplain.2, List.append_assoc, List.singleton_append]

/-- Between quotes two quotes are read as one, and all other characters as they are. -/
theorem run_doubled (chars read rest : List Char) :
    run { place := .quoted, chars := read, fields, rows } (doubled chars ++ rest) =
      run { place := .quoted, chars := read ++ chars, fields, rows } rest := by
  induction chars generalizing read with
  | nil => rw [doubled, List.append_nil, List.nil_append]
  | cons c chars ih =>
      rw [List.append_cons, ← ih (read ++ [c]), doubled]
      split
      · rename_i hquote
        subst hquote
        rfl
      · rename_i hother
        refine run_cons ?_ _
        simp only [step?, if_neg hother, keep]

/-- Behind a field its characters were read, and neither the field nor the row is over. -/
theorem exists_run_field (fields : List String) (rows : List (List String)) (alone : Bool)
    (chars : List Char) : ∃ place, place ≠ Place.quoted ∧ ∀ rest,
      (before fields rows).run (field alone chars ++ rest) =
        run { place, chars, fields, rows } rest := by
  unfold field
  split
  · refine ⟨.closing, by decide, fun rest => ?_⟩
    have hopen : (before fields rows).step? '"' =
        some { place := .quoted, chars := [], fields, rows } := rfl
    have hclose : step? { place := .quoted, chars, fields, rows } '"' =
        some { place := .closing, chars, fields, rows } := rfl
    rw [List.cons_append, List.cons_append, run_cons hopen, List.append_assoc, run_doubled,
      List.nil_append, List.singleton_append, run_cons hclose]
  · rename_i hbare
    have hplain : chars.any needsQuotes = false := by
      rw [Bool.not_eq_true, Bool.or_eq_false_iff] at hbare
      exact hbare.1
    cases chars with
    | nil => exact ⟨.start, by decide, fun rest => rfl⟩
    | cons c chars =>
        refine ⟨.plain, by decide, fun rest => ?_⟩
        rw [List.any_cons, Bool.or_eq_false_iff] at hplain
        rw [before, List.cons_append,
          run_cons (step?_of_needsQuotes_eq_false hplain.1 (.inl rfl) []), run_plain hplain.2]
        rfl

/-- A comma ends the field. -/
theorem step?_comma {place : Place} (hplace : place ≠ .quoted) (chars : List Char) :
    step? { place, chars, fields, rows } ',' = some (before (fields ++ [String.ofList chars]) rows) := by
  cases place with
  | quoted => exact absurd rfl hplace
  | start | plain | closing => rfl

/-- The end of the line ends the field and the row. -/
theorem step?_newline {place : Place} (hplace : place ≠ .quoted) (chars : List Char) :
    step? { place, chars, fields, rows } '\n' =
      some (before [] (rows ++ [fields ++ [String.ofList chars]])) := by
  cases place with
  | quoted => exact absurd rfl hplace
  | start | plain | closing => rfl

/-! ## Rows and tables -/

/-- Behind a line its texts are another row. -/
theorem run_commaSeparated (alone : Bool) {texts : List String} (htexts : texts ≠ [])
    (fields : List String) (rest : List Char) :
    (before fields rows).run
        (commaSeparated (texts.map fun text => field alone text.toList) ++ '\n' :: rest) =
      (before [] (rows ++ [fields ++ texts])).run rest := by
  induction texts generalizing fields with
  | nil => exact absurd rfl htexts
  | cons text texts ih =>
      obtain ⟨place, hplace, hfield⟩ := exists_run_field fields rows alone text.toList
      cases texts with
      | nil =>
          rw [List.map_cons, List.map_nil, commaSeparated, hfield,
            run_cons (step?_newline hplace _), String.ofList_toList]
      | cons next texts =>
          have hnext := ih (List.cons_ne_nil _ _) (fields ++ [text])
          rw [List.append_assoc, List.singleton_append, List.map_cons] at hnext
          rw [List.map_cons, List.map_cons, commaSeparated, List.append_assoc, hfield,
            List.cons_append, run_cons (step?_comma hplace _), String.ofList_toList, hnext]

theorem run_rows {table : List (List String)} (htable : ∀ texts ∈ table, texts ≠ []) :
    (before [] rows).run (table.flatMap row) = some (before [] (rows ++ table)) := by
  induction table generalizing rows with
  | nil => rw [List.append_nil]; rfl
  | cons texts table ih =>
      obtain ⟨htexts, htable⟩ := List.forall_mem_cons.mp htable
      rw [List.flatMap_cons, row, List.append_assoc, List.singleton_append,
        run_commaSeparated _ htexts, ih htable, List.nil_append, List.append_assoc,
        List.singleton_append]

end Reader

/-- A table with texts in every row is read as it was. -/
theorem read_table {header : List String} {rows : List (List String)} (hheader : header ≠ [])
    (hrows : ∀ texts ∈ rows, texts ≠ []) :
    read (table header rows) = some (if rows.isEmpty then [] else header :: rows) := by
  unfold table
  split
  · rfl
  · rw [read, String.toList_ofList, Reader.run_rows (List.forall_mem_cons.mpr ⟨hheader, hrows⟩)]
    rfl

example : read "a,\"x\"\",\ny\"\n,b" = some [["a", "x\",\ny"], ["", "b"]] := by
  decide +kernel

/-- Only a table without rows has no characters. -/
theorem table_eq_empty_iff {header : List String} {rows : List (List String)} :
    table header rows = "" ↔ rows = [] := by
  unfold table
  split
  · rename_i hempty
    exact iff_of_true rfl (List.isEmpty_iff.mp hempty)
  · rename_i hsome
    refine iff_of_false (fun htable => ?_) fun hrows => hsome (List.isEmpty_iff.mpr hrows)
    have hchars := congrArg String.toList htable
    rw [String.toList_ofList, List.flatMap_cons, row] at hchars
    simp at hchars

end Csv

/-- **A report is read back** as its header and the fields of its rows, in their order and whatever
is in them, and only a report on nothing is empty. -/
theorem Report.read_reports (customerRows : List CustomerTotal) (productRows : List ProductTotal) :
    (Csv.read (customers customerRows) = some
          (if customerRows.isEmpty then []
          else ["customer_id", "first_name", "last_name", "total_cost"] ::
            customerRows.map fun row =>
              [toString row.customer, row.firstName, row.lastName, row.total.text]) ∧
        (customers customerRows = "" ↔ customerRows = [])) ∧
      Csv.read (products productRows) = some
          (if productRows.isEmpty then []
          else ["product_code", "status", "total_cost"] ::
            productRows.map fun row => [row.product, row.status, row.total.text]) ∧
        (products productRows = "" ↔ productRows = []) := by
  have hcustomers : ∀ texts ∈ customerRows.map customerRow, texts ≠ [] :=
    List.forall_mem_map.mpr fun _ _ => List.cons_ne_nil _ _
  have hproducts : ∀ texts ∈ productRows.map productRow, texts ≠ [] :=
    List.forall_mem_map.mpr fun _ _ => List.cons_ne_nil _ _
  refine ⟨⟨?_, ?_⟩, ?_, ?_⟩
  · rw [customers, Csv.read_table (by decide) hcustomers, List.isEmpty_map]
    rfl
  · rw [customers, Csv.table_eq_empty_iff, List.map_eq_nil_iff]
  · rw [products, Csv.read_table (by decide) hproducts, List.isEmpty_map]
    rfl
  · rw [products, Csv.table_eq_empty_iff, List.map_eq_nil_iff]

end Clearing
