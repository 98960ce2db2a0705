namespace CallSearch

structure SortOrder where
  column : String := "call_started_at"
  ascending : Bool := false
deriving DecidableEq, Inhabited

namespace SortOrder

def sortable : List String :=
  ["duration_seconds", "total_cost", "avg_latency", "call_started_at", "created_at"]

/-- The order after a click on a header: the same column turns round, another sortable column
begins descending, and any other header does nothing. -/
def clicked (order : SortOrder) (column : String) : SortOrder :=
  if !sortable.contains column then order
  else if column == order.column then ⟨column, !order.ascending⟩
  else ⟨column, false⟩

def clickedAll (order : SortOrder) : List String → List SortOrder
  | [] => [order]
  | column :: rest => order :: clickedAll (order.clicked column) rest

end SortOrder

end CallSearch
