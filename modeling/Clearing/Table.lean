/-!
# Tables

A table maps keys to values and lists its rows in ascending order of the keys.
It is a list of pairs; `insert` keeps the order and replaces the row of a key
that is there already.
-/

namespace Clearing

/-- Rows in ascending order of their keys. -/
abbrev Table (κ ν : Type) := List (κ × ν)

namespace Table

variable {κ ν : Type} [Ord κ]

/-- The row of a key. -/
def find? (table : Table κ ν) (key : κ) : Option ν :=
  match table with
  | [] => none
  | (other, value) :: rest =>
    match compare key other with
    | .lt => none
    | .eq => some value
    | .gt => find? rest key

/-- The table with a row for a key, in place of the row it had. -/
def insert (table : Table κ ν) (key : κ) (value : ν) : Table κ ν :=
  match table with
  | [] => [(key, value)]
  | (other, old) :: rest =>
    match compare key other with
    | .lt => (key, value) :: (other, old) :: rest
    | .eq => (key, value) :: rest
    | .gt => (other, old) :: insert rest key value

/-- The table without the row of a key. -/
def erase (table : Table κ ν) (key : κ) : Table κ ν :=
  table.filter fun row => compare key row.1 != .eq

/-- The values in ascending order of their keys. -/
def values (table : Table κ ν) : List ν :=
  table.map (·.2)

/-- The keys in ascending order. -/
def keys (table : Table κ ν) : List κ :=
  table.map (·.1)

/-- The keys strictly ascend. -/
def Ascending (table : Table κ ν) : Prop :=
  table.Pairwise fun a b => compare a.1 b.1 = .lt

@[simp] theorem find?_nil (key : κ) : find? ([] : Table κ ν) key = none := rfl

omit [Ord κ] in
@[simp] theorem values_nil : values ([] : Table κ ν) = [] := rfl

/-- The key that was inserted is found. -/
theorem find?_insert_self [Std.ReflOrd κ] (table : Table κ ν) (key : κ) (value : ν) :
    (table.insert key value).find? key = some value := by
  induction table with
  | nil => simp [insert, find?, Std.ReflOrd.compare_self]
  | cons row rest ih =>
    rw [insert]
    split
    · simp [find?, Std.ReflOrd.compare_self]
    · simp [find?, Std.ReflOrd.compare_self]
    · rename_i hgt
      simp [find?, hgt, ih]

end Table

end Clearing
