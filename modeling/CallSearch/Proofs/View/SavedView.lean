import CallSearch.Proofs.Filter.Document
import CallSearch.View.Table

namespace CallSearch

namespace Json

mutual

def isFinite : Json → Bool
  | .real x => x.isFinite
  | .arr items => itemsFinite items
  | .obj members => membersFinite members
  | _ => true

def itemsFinite : List Json → Bool
  | [] => true
  | item :: rest => item.isFinite && itemsFinite rest

def membersFinite : List (String × Json) → Bool
  | [] => true
  | (_, value) :: rest => value.isFinite && membersFinite rest

end

mutual

theorem finite_eq_self : ∀ document : Json, document.isFinite = true → document.finite = document
  | .null, _ | .bool _, _ | .int _, _ | .str _, _ => by rw [finite] <;> simp
  | .real x, h => by
    rw [isFinite] at h
    rw [finite, if_pos h]
  | .arr items, h => by rw [finite, finiteItems_eq_self items h]
  | .obj members, h => by rw [finite, finiteMembers_eq_self members h]

theorem finiteItems_eq_self : ∀ items : List Json, itemsFinite items = true →
    finiteItems items = items
  | [], _ => rfl
  | item :: rest, h => by
    rw [itemsFinite, Bool.and_eq_true] at h
    rw [finiteItems, finite_eq_self item h.1, finiteItems_eq_self rest h.2]

theorem finiteMembers_eq_self : ∀ members : List (String × Json), membersFinite members = true →
    finiteMembers members = members
  | [], _ => rfl
  | (name, value) :: rest, h => by
    rw [membersFinite, Bool.and_eq_true] at h
    rw [finiteMembers, finite_eq_self value h.1, finiteMembers_eq_self rest h.2]

end

theorem finiteMembers_names (members : List (String × Json)) :
    (finiteMembers members).map Prod.fst = members.map Prod.fst := by
  induction members with
  | nil => rfl
  | cons member rest ih => rw [finiteMembers, List.map_cons, List.map_cons, ih]

end Json

namespace VisibleColumns

variable (columns : VisibleColumns)

theorem extraOf_toJson : extraOf columns.toJson = columns.extra := by
  have names : readNames columns.toJson = sections := rfl
  have kept : columns.extra.filter (fun member ↦ !sections.contains member.1) = columns.extra := by
    refine List.filter_eq_self.mpr fun member present ↦ ?_
    simpa using columns.unknown member present
  rw [extraOf, names, ← kept]
  rfl

theorem texts_toJson {name : String} {items : List String}
    (found : columns.toJson.member? name = some (.arr (items.map .str))) (others : List String) :
    columns.toJson.optional (name :: others) [] (Json.readList Json.readText) = .value items := by
  rw [Json.optional_member found, Json.readList_texts, Reading.under_value]

theorem read_toJson : read columns.toJson = .value columns := by
  have texts {name : String} {items : List String} := @texts_toJson columns name items
  have basic := @texts "basic" _ rfl []
  have metadata := @texts "metadata" _ rfl []
  have transcription := @texts "transcription" _ rfl ["transcription_metrics"]
  have metrics := @texts "metrics" _ rfl []
  have extra := extraOf_toJson columns
  rw [toJson] at basic metadata transcription metrics extra ⊢
  simp only [read, basic, metadata, transcription, metrics, extra, Reading.map_value,
    Reading.seq_value]

def finite : VisibleColumns where
  basic := columns.basic
  metadata := columns.metadata
  transcription := columns.transcription
  metrics := columns.metrics
  extra := Json.finiteMembers columns.extra
  unknown member present := by
    have named : member.1 ∈ (Json.finiteMembers columns.extra).map Prod.fst :=
      List.mem_map_of_mem present
    rw [Json.finiteMembers_names] at named
    obtain ⟨original, kept, same⟩ := List.mem_map.mp named
    rw [← same]
    exact columns.unknown original kept

theorem finite_toJson : columns.toJson.finite = columns.finite.toJson := by
  have texts (items : List String) :
      Json.finiteItems (items.map .str) = items.map .str := by
    induction items with
    | nil => rfl
    | cons item rest ih => rw [List.map_cons, Json.finiteItems, ih]; rfl
  simp only [toJson, Json.finite, List.cons_append, List.nil_append, Json.finiteMembers, texts]
  rfl

theorem finite_eq_self (h : Json.membersFinite columns.extra = true) :
    columns.finite = columns := by
  obtain ⟨basic, metadata, transcription, metrics, extra, unknown⟩ := columns
  simp only [finite, Json.finiteMembers_eq_self extra h]

/-- The columns that are stored in place of old ones: the old ones if the documents are of the same
value. -/
def replacing (old : VisibleColumns) : VisibleColumns :=
  if columns.toJson.same old.toJson then old else columns

end VisibleColumns

end CallSearch
