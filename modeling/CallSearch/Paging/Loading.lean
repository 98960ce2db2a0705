import CallSearch.Paging.Event
import CallSearch.Store.Listing

namespace CallSearch

/-- How a fetch fails that the table cannot answer. Refusals and unknown columns are errors about a
page; expressions and numbers that cannot be read are not. -/
def QueryError.toFailure (offset : Nat) (error : QueryError) : FetchFailure :=
  match error with
  | .refused => .page ⟨none, some offset⟩
  | .expression _ | .integerTooLarge => .other (error.message?.getD "")
  | _ => .page ⟨error.message?, none⟩

def CallTable.answer (table : CallTable) (request : PageRequest) :
    Except FetchFailure (List Call) :=
  (table.fetch request.predicates request.order ⟨request.offset, some request.limit⟩).mapError
    (·.toFailure request.offset)

namespace Pager

def loadFrom (c : Pager Call) (table : CallTable) : Pager Call × Option (Completion Call) :=
  let (started, progress) := c.load
  match progress.requests with
  | [] => (started, progress.finished.head?.map Prod.snd)
  | request :: _ =>
    let (ended, progress) := started.answer c.fetchCount (table.answer request)
    (ended, progress.finished.head?.map Prod.snd)

end Pager

end CallSearch
