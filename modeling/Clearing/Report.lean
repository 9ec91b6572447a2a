import Clearing.Report.Csv
import Clearing.Summary

/-!
# Reports

The totals per customer and per product as comma-separated values.
-/

namespace Clearing.Report

/-- The columns of the report on customers. -/
def customerHeader : List String := ["customer_id", "first_name", "last_name", "total_cost"]

/-- The columns of the report on products. -/
def productHeader : List String := ["product_code", "status", "total_cost"]

/-- One line of the report on customers. -/
def customerRow (row : CustomerTotal) : List String :=
  [toString row.customer, row.firstName, row.lastName, row.total.text]

/-- One line of the report on products. -/
def productRow (row : ProductTotal) : List String :=
  [row.product, row.status, row.total.text]

/-- The report on customers. -/
def customers (rows : List CustomerTotal) : String :=
  Csv.table customerHeader (rows.map customerRow)

/-- The report on products. -/
def products (rows : List ProductTotal) : String :=
  Csv.table productHeader (rows.map productRow)

/-- Both reports with an empty line between them. -/
def both (customerRows : List CustomerTotal) (productRows : List ProductTotal) : String :=
  customers customerRows ++ "\n" ++ products productRows

end Clearing.Report
