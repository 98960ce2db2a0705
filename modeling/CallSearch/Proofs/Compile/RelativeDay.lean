import CallSearch.Proofs.Calendar.Stored
import CallSearch.Proofs.Compile.Day

namespace CallSearch

namespace Compile

variable {types : ColumnTypes} {now : Timestamp} {d : Date} {raw : String} {calls : List Call}

/-- Whether the store finds the calls before a day, and those after it unless it is the last one, for
conditions with some text. -/
def FindsAround (types : ColumnTypes) (now : Timestamp) (raw : String) (d : Date)
    (calls : List Call) : Prop :=
  (∃ before, FindsStarts types now (startedWhen .lessThan raw) calls (fun t ↦ t.date < d) before) ∧
    (¬d.IsLast → ∃ after,
      FindsStarts types now (startedWhen .greaterThan raw) calls (fun t ↦ d < t.date) after)

theorem findsAround (types : ColumnTypes) (parsed : parseDay now raw = .ok d) (calls : List Call) :
    FindsAround types now raw d calls :=
  ⟨findsStarts_lessThan types parsed calls,
    fun notLast ↦ findsStarts_greaterThan types parsed notLast calls⟩

theorem parseDay_today (word : Text.lower (Text.strip raw) = "today") :
    parseDay now raw = .ok now.date := by
  simp [parseDay, word]

theorem parseDay_yesterday (word : Text.lower (Text.strip raw) = "yesterday")
    (notFirst : ¬now.date.IsFirst) :
    ∃ d, d.next? = some now.date ∧ parseDay now raw = .ok d := by
  obtain ⟨d, before⟩ := Option.ne_none_iff_exists'.mp (mt Date.previous?_eq_none_iff.mp notFirst)
  refine ⟨d, Date.next?_of_previous? before, ?_⟩
  simp [parseDay, word, before, dayOr]

/-- What the store finds before and after a day: the calls that started on an earlier and on a later
day. The day may be any date, today, or yesterday unless today is the first date. The store compares
the texts of times, which are in the order of the times. -/
theorem days_apart (types : ColumnTypes) (now : Timestamp) (calls : List Call) :
    (∀ d : Date, FindsAround types now d.iso d calls) ∧
    (∀ raw, Text.lower (Text.strip raw) = "today" →
      FindsAround types now raw now.date calls) ∧
    (∀ raw, Text.lower (Text.strip raw) = "yesterday" → ¬now.date.IsFirst →
      ∃ d, d.next? = some now.date ∧ FindsAround types now raw d calls) ∧
    ∀ s t : Timestamp, s.storeText < t.storeText ↔ s.key < t.key := by
  refine ⟨?_, ?_, ?_, ?_⟩
  · intro d
    exact findsAround types parseDay_iso calls
  · intro raw word
    exact findsAround types (parseDay_today word) calls
  · intro raw word notFirst
    obtain ⟨d, before, parsed⟩ := parseDay_yesterday word notFirst
    exact ⟨d, before, findsAround types parsed calls⟩
  · intro s t
    exact Timestamp.storeText_lt_iff

def leapDay : Date := ⟨2024, 2, 29, by decide⟩

def firstOfMarch : Date := ⟨2024, 3, 1, by decide⟩

def startedCall (t : Timestamp) : Call :=
  { lateCall with
    times
      | .startedAt => some t
      | .endedAt => none }

theorem days_apart_leapDay :
    ∃ before after, Finds [] (.startOf firstOfMarch) (startedWhen .lessThan "today")
        [startedCall (.lastMilli leapDay)] before ∧
      Finds [] (.startOf firstOfMarch) (startedWhen .greaterThan " Yesterday")
        [startedCall (.lastMilli leapDay)] after ∧
      startedCall (.lastMilli leapDay) ∈ before ∧ startedCall (.lastMilli leapDay) ∉ after := by
  obtain ⟨-, today, yesterday, -⟩ :=
    days_apart [] (.startOf firstOfMarch) [startedCall (.lastMilli leapDay)]
  obtain ⟨before, found, earlier⟩ := (today "today" (by cbv)).1
  have notFirst : ¬(Timestamp.startOf firstOfMarch).date.IsFirst := by
    intro first
    exact absurd first.1 (by decide)
  obtain ⟨d, isNext, around⟩ := yesterday " Yesterday" (by cbv) notFirst
  obtain rfl : d = leapDay := Date.next?_inj isNext (by decide)
  obtain ⟨after, found', later⟩ := around.2 fun last ↦ absurd last.1 (by decide)
  refine ⟨before, after, found, found', ?_, ?_⟩
  · exact (earlier _ (.head _) _ rfl).mpr (by decide)
  · intro inside
    exact absurd ((later _ (.head _) _ rfl).mp inside) (by decide)

end Compile

end CallSearch
