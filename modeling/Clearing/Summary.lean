import Clearing.Number.Decimal

/-!
# Summaries

A summary row is a total as it is shown: the amount has at least two decimals,
as long as it fits.
-/

namespace Clearing

/-- What one customer spent. -/
structure CustomerTotal where
  customer : Int
  firstName : String
  lastName : String
  total : Decimal
  deriving DecidableEq

/-- What was spent on one product. -/
structure ProductTotal where
  product : String
  status : String
  total : Decimal
  deriving DecidableEq

/-- The decimals of an amount of money. -/
def moneyPlaces : Nat := 2

/-- An amount as it is shown: with at least two decimals, or as many of them as fit. -/
def normalizeMoney (amount : Decimal) : Decimal :=
  amount.withPlaces moneyPlaces

/-- A total as it is shown. -/
def CustomerTotal.normalized (row : CustomerTotal) : CustomerTotal :=
  { row with total := normalizeMoney row.total }

/-- A total as it is shown. -/
def ProductTotal.normalized (row : ProductTotal) : ProductTotal :=
  { row with total := normalizeMoney row.total }

end Clearing
