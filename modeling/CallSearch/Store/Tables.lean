import CallSearch.Store.Insert
import CallSearch.Store.Listing
import CallSearch.View.Table

namespace CallSearch

structure Tables where
  calls : CallTable := some []
  views : ViewTable := some []

namespace Tables

def add (db : Tables) (now : Timestamp) (records : List Json) :
    Except InsertError (Nat × Tables) :=
  (insertRecords now db.calls records).map fun calls => (records.length, { db with calls })

def saveView (db : Tables) (view : SavedView) (now : Timestamp) :
    Fresh (Except ViewError (Option ViewRecord × Tables)) := do
  return (← db.views.save view now).map fun (record, views) => (record, { db with views })

def deleteView (db : Tables) (id : String) : Except ViewError (Bool × Tables) :=
  (db.views.delete id).map fun (found, views) => (found, { db with views })

def sizes? (db : Tables) : Option (Nat × Nat) := do
  let calls ← db.calls
  let views ← db.views
  return (calls.length, views.length)

def loseCalls (db : Tables) : Tables := { db with calls := none }

def loseViews (db : Tables) : Tables := { db with views := none }

end Tables

end CallSearch
