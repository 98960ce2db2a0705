import CallSearch.Proofs.Catalog.Types
import CallSearch.Proofs.Json.Alike

namespace CallSearch

section FirstSeen

variable {α β : Type} {R : α → α → Prop} {xs found : List α}

/-- What is found in a list that is read from front to back, if nothing is kept that is related to
something read before. -/
inductive FirstSeen (R : α → α → Prop) : List α → List α → Prop
  | nil : FirstSeen R [] []
  | new {xs found : List α} {x : α} (before : FirstSeen R xs found) (unseen : ∀ y ∈ xs, ¬R y x) :
      FirstSeen R (xs ++ [x]) (found ++ [x])
  | old {xs found : List α} {x : α} (before : FirstSeen R xs found) (seen : ∃ y ∈ xs, R y x) :
      FirstSeen R (xs ++ [x]) found

theorem FirstSeen.map {S : β → β → Prop} {f : α → β} (h : FirstSeen R xs found)
    (same : ∀ x ∈ xs, ∀ y ∈ xs, R x y ↔ S (f x) (f y)) : FirstSeen S (xs.map f) (found.map f) := by
  induction h with
  | nil => exact .nil
  | @new xs found x before unseen ih =>
    have earlier := ih fun y hy z hz ↦
      same y (List.mem_append_left _ hy) z (List.mem_append_left _ hz)
    rw [List.map_append, List.map_append]
    refine earlier.new fun y hy ↦ ?_
    obtain ⟨z, hz, rfl⟩ := List.mem_map.mp hy
    exact mt (same z (List.mem_append_left _ hz) x (by simp)).mpr (unseen z hz)
  | @old xs found x before seen ih =>
    have earlier := ih fun y hy z hz ↦
      same y (List.mem_append_left _ hy) z (List.mem_append_left _ hz)
    obtain ⟨y, hy, related⟩ := seen
    rw [List.map_append]
    exact earlier.old ⟨f y, List.mem_map_of_mem hy,
      (same y (List.mem_append_left _ hy) x (by simp)).mp related⟩

theorem FirstSeen.unique {other : List α} (h : FirstSeen R xs found) (h' : FirstSeen R xs other) :
    found = other := by
  induction h generalizing other with
  | nil =>
    generalize none : ([] : List α) = ys at h'
    cases h' with
    | nil => rfl
    | new | old => simp at none
  | @new xs found x before unseen ih =>
    generalize same : xs ++ [x] = ys at h'
    cases h' with
    | nil => simp at same
    | new before' =>
      obtain ⟨rfl, last⟩ := List.append_inj' same rfl
      rw [ih before', last]
    | old before' seen =>
      obtain ⟨rfl, last⟩ := List.append_inj' same rfl
      obtain rfl := List.singleton_inj.mp last
      obtain ⟨y, hy, related⟩ := seen
      exact absurd related (unseen y hy)
  | @old xs found x before seen ih =>
    generalize same : xs ++ [x] = ys at h'
    cases h' with
    | nil => simp at same
    | new before' unseen =>
      obtain ⟨rfl, last⟩ := List.append_inj' same rfl
      obtain rfl := List.singleton_inj.mp last
      obtain ⟨y, hy, related⟩ := seen
      exact absurd related (unseen y hy)
    | old before' =>
      obtain ⟨rfl, -⟩ := List.append_inj' same rfl
      exact ih before'

theorem FirstSeen.mem_iff (h : FirstSeen Eq xs found) {x : α} : x ∈ found ↔ x ∈ xs := by
  induction h with
  | nil => rfl
  | new before unseen ih => simp [ih]
  | @old xs found y before seen ih =>
    obtain ⟨z, hz, rfl⟩ := seen
    simp only [ih, List.mem_append, List.mem_singleton]
    exact ⟨.inl, fun inside ↦ inside.elim id fun same ↦ same ▸ hz⟩

theorem FirstSeen.nodup (h : FirstSeen Eq xs found) : found.Nodup := by
  induction h with
  | nil => exact List.nodup_nil
  | @new xs found x before unseen ih =>
    refine ih.append (List.nodup_singleton x) fun y hy same ↦ ?_
    exact unseen y (before.mem_iff.mp hy) (List.mem_singleton.mp same)
  | old before seen ih => exact ih

theorem firstOfEach_append (xs : List (String × α)) (key : String) (value : α) :
    Catalog.firstOfEach (xs ++ [(key, value)]) =
      if key ∈ xs.map Prod.fst then Catalog.firstOfEach xs
      else Catalog.firstOfEach xs ++ [(key, value)] := by
  induction xs with
  | nil => rfl
  | cons x rest ih =>
    obtain ⟨name, first⟩ := x
    simp only [List.cons_append, Catalog.firstOfEach, ih, List.map_cons, List.mem_cons]
    by_cases inside : key ∈ rest.map Prod.fst
    · rw [if_pos inside, if_pos (.inr inside)]
    · rw [if_neg inside, List.filter_append]
      by_cases same : key = name
      · simp [same]
      · simp [same, inside]

theorem firstSeen_firstOfEach (xs : List (String × α)) :
    FirstSeen (fun x y ↦ x.1 = y.1) xs (Catalog.firstOfEach xs) := by
  induction xs using List.reverseRecOn with
  | nil => exact .nil
  | append_singleton xs x ih =>
    rw [firstOfEach_append]
    split
    case isTrue inside =>
      obtain ⟨y, hy, same⟩ := List.mem_map.mp inside
      exact ih.old ⟨y, hy, same⟩
    case isFalse outside =>
      exact ih.new fun y hy same ↦ outside (List.mem_map.mpr ⟨y, hy, same⟩)

end FirstSeen

namespace Catalog

variable {records : List Json}

def valuesAt (records : List Json) (names : List String) : List Json :=
  records.filterMap (·.walk? names)

def namesIn (records : List Json) (column : String) : List String :=
  records.flatMap fun record ↦ ((record.member? column).getD .null).members.map Prod.fst

/-- Whether a kind is that of the first value that is not null, or text if there is none. -/
def IsKindOf (kind : Kind) (values : List Json) : Prop :=
  (∃ before first after, values = before ++ first :: after ∧ (∀ v ∈ before, v = .null) ∧
      first ≠ .null ∧ kind = first.kind) ∨
    (∀ v ∈ values, v = .null) ∧ kind = .string

/-- What is said of a basic field. Nulls are not values of it. -/
structure BasicEntry (records : List Json) (basic field : Field) : Prop where
  kept : { field with samples := none, count := none, distinct := none } = basic
  count : field.count =
    some (records.countP (fun record ↦ (record.member? basic.path).any (!·.isNull)) : ℤ)
  values : ∃ distinct, FirstSeen Json.Alike
      ((valuesAt records [basic.path]).filter (!·.isNull)) distinct ∧
    field.distinct = some (distinct.length : ℤ) ∧
    field.samples =
      if distinct = [] then none else some (distinct.take (min 5 distinct.length))

/-- What is said of a member of a column. Nulls are values of it. -/
structure MemberEntry (records : List Json) (source : PayloadSource) (name : String)
    (field : Field) : Prop where
  name_eq : field.name = name
  path : field.path = source.column ++ "." ++ name
  category : field.category = source.category
  kind : IsKindOf field.kind (valuesAt records [source.column, name])
  count : field.count =
    some (records.countP (fun record ↦ (record.walk? [source.column, name]).isSome) : ℤ)
  values : ∃ distinct, FirstSeen Json.Alike (valuesAt records [source.column, name]) distinct ∧
    field.distinct = some (distinct.length : ℤ) ∧
    field.samples = some (distinct.take (min 5 distinct.length))

/-- What is said of the members of a column, each once and in the order of their names. -/
def MemberEntries (records : List Json) (source : PayloadSource) (fields : List Field) : Prop :=
  ∃ names, FirstSeen Eq (namesIn records source.column) names ∧
    List.Forall₂ (MemberEntry records source) names fields

theorem walk?_column (record : Json) (column name : String) :
    record.walk? [column, name] = (record.member? column).bind (·.member? name) := by
  simp [Json.walk?]

theorem firstSeen_distinctValues {values : List Json} (proper : ∀ v ∈ values, v.Proper) :
    FirstSeen Json.Alike values (distinctValues values) := by
  have read := firstSeen_firstOfEach (values.map fun v ↦ (v.canonicalKey, v))
  have same : (values.map fun v ↦ (v.canonicalKey, v)).map Prod.snd = values := by
    rw [List.map_map]
    exact List.map_id' values
  have alike := FirstSeen.map (S := Json.Alike) (f := Prod.snd) read ?_
  · rw [same] at alike
    exact alike
  · intro x hx y hy
    obtain ⟨v, hv, rfl⟩ := List.mem_map.mp hx
    obtain ⟨w, hw, rfl⟩ := List.mem_map.mp hy
    exact Json.canonicalKey_eq_iff (proper v hv)

theorem payload_values (records : List Json) (column name : String) :
    (payloads records column).filterMap (·.lookup name) = valuesAt records [column, name] := by
  unfold payloads valuesAt
  rw [List.filterMap_filterMap]
  congr 1
  funext record
  rw [walk?_column]
  cases record.member? column with
  | none => rfl
  | some payload => cases payload <;> rfl

theorem namesIn_eq (records : List Json) (column : String) :
    (payloads records column).flatten.map Prod.fst = namesIn records column := by
  induction records with
  | nil => rfl
  | cons record rest ih =>
    rw [namesIn, List.flatMap_cons, ← namesIn, ← ih, payloads, List.filterMap_cons, ← payloads]
    cases record.member? column with
    | none => rfl
    | some payload =>
      cases payload with
      | obj members => simp [Json.members]
      | _ => rfl

theorem isNull_iff {v : Json} : v.isNull ↔ v = .null := by
  cases v <;> simp [Json.isNull]

theorem isKindOf_first (values : List Json) :
    IsKindOf (((values.find? (!·.isNull)).map Json.kind).getD .string) values := by
  cases found : values.find? (!·.isNull) with
  | none =>
    have nulls := List.find?_eq_none.mp found
    exact .inr ⟨fun v hv ↦ isNull_iff.mp (by simpa using nulls v hv), rfl⟩
  | some first =>
    obtain ⟨some, before, after, split, nulls⟩ := List.find?_eq_some_iff_append.mp found
    refine .inl ⟨before, first, after, split, fun v hv ↦ isNull_iff.mp (by simpa using nulls v hv),
      fun null ↦ ?_, rfl⟩
    rw [null] at some
    cases some

theorem firstSeen_memberNames (records : List Json) (column : String) :
    FirstSeen Eq (namesIn records column) (memberNames (payloads records column)) := by
  have read := firstSeen_firstOfEach
    ((payloads records column).flatten.map fun m ↦ (m.1, ()))
  have names := FirstSeen.map (S := Eq) (f := Prod.fst) read fun _ _ _ _ ↦ Iff.rfl
  rw [List.map_map] at names
  rw [← namesIn_eq]
  exact names

theorem distinctValues_eq_nil {values : List Json} : distinctValues values = [] ↔ values = [] := by
  cases values with
  | nil => exact iff_of_true rfl rfl
  | cons v rest => exact iff_of_false (List.cons_ne_nil _ _) (List.cons_ne_nil _ _)

theorem basicFields_plain : ∀ basic ∈ basicFields,
    { basic with samples := none, count := none, distinct := none } = basic := by
  simp [basicFields]

section Entries

variable (proper : ∀ record ∈ records, record.Proper)

include proper

theorem proper_valuesAt (names : List String) : ∀ v ∈ valuesAt records names, v.Proper := by
  intro v hv
  obtain ⟨record, among, found⟩ := List.mem_filterMap.mp hv
  exact (proper record among).walk? found

theorem memberEntry (source : PayloadSource) (name : String) :
    MemberEntry records source name
      (memberField source (payloads records source.column) name) := by
  have values := payload_values records source.column name
  unfold memberField
  rw [values]
  exact {
    name_eq := rfl
    path := rfl
    category := rfl
    kind := isKindOf_first _
    count := by
      change some ((valuesAt records [source.column, name]).length : ℤ) = _
      rw [valuesAt, List.length_filterMap_eq_countP]
    values := ⟨_, firstSeen_distinctValues (proper_valuesAt proper _), rfl,
      congrArg some List.take_eq_take_min⟩ }

theorem memberEntries (source : PayloadSource) :
    MemberEntries records source (memberFields records source) :=
  ⟨_, firstSeen_memberNames records source.column, List.forall₂_map_right_iff.mpr
    (List.forall₂_same.mpr fun name _ ↦ memberEntry proper source name)⟩

theorem basicEntry {basic : Field} (among : basic ∈ basicFields) :
    BasicEntry records basic (basicField records basic) := by
  have values : basicValues records basic.path =
      (valuesAt records [basic.path]).filter (!·.isNull) := by
    unfold basicValues valuesAt
    congr 2
    funext record
    simp [Json.walk?]
  have count : ((basicValues records basic.path).length : ℤ) =
      records.countP fun record ↦ (record.member? basic.path).any (!·.isNull) := by
    rw [basicValues, ← List.countP_eq_length_filter, List.countP_filterMap]
    congr 2
    funext record
    cases record.member? basic.path <;> rfl
  have distinct : ∀ v ∈ basicValues records basic.path, v.Proper := by
    rw [values]
    exact fun v hv ↦ proper_valuesAt proper [basic.path] v (List.mem_of_mem_filter hv)
  have seen := firstSeen_distinctValues distinct
  have plain := basicFields_plain basic among
  unfold basicField
  dsimp only
  by_cases unseen : basicValues records basic.path = []
  · rw [unseen] at values count seen ⊢
    exact {
      kept := plain
      count := congrArg some count
      values := ⟨_, values ▸ seen, rfl, rfl⟩ }
  · rw [if_neg (by simpa using unseen)]
    exact {
      kept := plain
      count := congrArg some count
      values := by
        refine ⟨_, values ▸ seen, rfl, ?_⟩
        rw [if_neg (mt distinctValues_eq_nil.mp unseen)]
        exact congrArg some List.take_eq_take_min }

end Entries

section Paths

variable {source : PayloadSource} {field : Field}

theorem cut_of_mem_memberFields (among : source ∈ payloadSources)
    (listed : field ∈ memberFields records source) :
    Text.cut '.' field.path = (source.column, some field.name) := by
  obtain ⟨name, -, rfl⟩ := List.mem_map.mp listed
  obtain ⟨column, same⟩ := column_of_mem_sources source among
  exact cut_member (same ▸ column.undotted) name

theorem memberNames_nodup (records : List Json) (column : String) :
    (memberNames (payloads records column)).Nodup :=
  (firstSeen_memberNames records column).nodup

theorem map_name_memberFields (records : List Json) (source : PayloadSource) :
    (memberFields records source).map Field.name =
      memberNames (payloads records source.column) := by
  unfold memberFields
  rw [List.map_map]
  exact List.map_id' _

theorem memberPaths_nodup (records : List Json) :
    ((payloadSources.flatMap (memberFields records)).map Field.path).Nodup := by
  rw [List.map_flatMap, List.nodup_flatMap]
  constructor
  · intro source among
    have names : ((memberFields records source).map Field.name).Nodup := by
      rw [map_name_memberFields]
      exact memberNames_nodup records source.column
    refine (List.nodup_map_iff_inj_on names.of_map).mpr fun field listed other listed' same ↦ ?_
    have cut := cut_of_mem_memberFields among listed
    rw [same, cut_of_mem_memberFields among listed'] at cut
    exact (List.inj_on_of_nodup_map names listed' listed
      (Option.some.inj (congrArg Prod.snd cut))).symm
  · have columns : payloadSources.Pairwise fun s t ↦ s.column ≠ t.column := by
      simp [payloadSources]
    refine columns.imp_of_mem fun hs ht different path inside inside' ↦ ?_
    obtain ⟨field, listed, rfl⟩ := List.mem_map.mp inside
    obtain ⟨other, listed', same⟩ := List.mem_map.mp inside'
    have cut := cut_of_mem_memberFields hs listed
    rw [← same, cut_of_mem_memberFields ht listed'] at cut
    exact different (congrArg Prod.fst cut).symm

theorem paths_nodup (records : List Json) : ((build records).map Field.path).Nodup := by
  have basics : (basicFields.map (basicField records)).map Field.path =
      basicFields.map Field.path := by
    rw [List.map_map]
    exact List.map_congr_left fun basic _ ↦ path_basicField records basic
  have distinct : (basicFields.map Field.path).Nodup := by simp [basicFields]
  rw [build, List.map_append, basics]
  refine distinct.append (memberPaths_nodup records) fun path inside inside' ↦ ?_
  obtain ⟨basic, among, rfl⟩ := List.mem_map.mp inside
  obtain ⟨field, listed, same⟩ := List.mem_map.mp inside'
  obtain ⟨source, amongSources, listed⟩ := List.mem_flatMap.mp listed
  have cut := cut_of_mem_memberFields amongSources listed
  have none := basic_subkey basic among
  rw [Field.subkey, ← same, cut] at none
  cases none

end Paths

theorem category_basicField (records : List Json) (basic : Field) :
    (basicField records basic).category = basic.category := by
  obtain ⟨samples, count, distinct, same⟩ := exists_basicField records basic
  rw [same]

theorem category_of_mem_basicFields : ∀ basic ∈ basicFields, basic.category = .basic := by
  simp [basicFields]

section Names

variable {source other : PayloadSource}

theorem filter_category_memberFields (records : List Json) (source other : PayloadSource) :
    (memberFields records other).filter (·.category == source.category) =
      if other.category = source.category then memberFields records other else [] := by
  have own : ∀ field ∈ memberFields records other, field.category = other.category := by
    intro field listed
    obtain ⟨name, -, rfl⟩ := List.mem_map.mp listed
    rfl
  split
  case isTrue same =>
    exact List.filter_eq_self.mpr fun field listed ↦ by simp [own field listed, same]
  case isFalse different =>
    exact List.filter_eq_nil_iff.mpr fun field listed ↦ by simp [own field listed, different]

theorem ofCategory_build (records : List Json) (among : source ∈ payloadSources) :
    ofCategory (build records) source.category = memberFields records source := by
  have notBasic : source.category ≠ .basic := by
    revert source
    simp [payloadSources]
  have basics : (basicFields.map (basicField records)).filter (·.category == source.category) =
      [] := by
    refine List.filter_eq_nil_iff.mpr fun field listed ↦ ?_
    obtain ⟨basic, among, rfl⟩ := List.mem_map.mp listed
    simp [category_basicField records basic, category_of_mem_basicFields basic among, notBasic.symm]
  rw [ofCategory, build, List.filter_append, basics, List.nil_append, List.filter_flatMap]
  simp only [filter_category_memberFields]
  revert among
  simp only [payloadSources, List.mem_cons, List.not_mem_nil, or_false]
  rintro (rfl | rfl | rfl) <;> simp

theorem memberNamesOf_eq (records : List Json) (among : source ∈ payloadSources) :
    memberNamesOf (build records) source.column =
      (memberNames (payloads records source.column)).mergeSort fun a b ↦ decide (a ≤ b) := by
  have found : payloadSources.find? (·.column == source.column) = some source := by
    revert among
    simp only [payloadSources, List.mem_cons, List.not_mem_nil, or_false]
    rintro (rfl | rfl | rfl) <;> rfl
  have all : (memberFields records source).filter (fun field ↦
      (source.column ++ ".").toList.isPrefixOf field.path.toList) =
        memberFields records source := by
    refine List.filter_eq_self.mpr fun field listed ↦ ?_
    obtain ⟨name, -, rfl⟩ := List.mem_map.mp listed
    rw [List.isPrefixOf_iff_prefix]
    exact ⟨name.toList, String.toList_append.symm⟩
  rw [memberNamesOf, found]
  dsimp only
  rw [ofCategory_build records among, all, map_name_memberFields]

end Names

theorem pairwise_sorted {names : List String} (distinct : names.Nodup) :
    (names.mergeSort fun a b ↦ decide (a ≤ b)).Pairwise (· < ·) := by
  have sorted : (names.mergeSort fun a b ↦ decide (a ≤ b)).Pairwise (· ≤ ·) :=
    Json.pairwise_sortedBy id names
  have different := (List.mergeSort_perm names fun a b ↦ decide (a ≤ b)).nodup_iff.mpr distinct
  exact (sorted.and different).imp fun both ↦ lt_of_le_of_ne both.1 both.2

/-- A catalog lists the basic fields in their order, and behind them the members of the three
columns of payloads, by the column and the first record that has them. Each field has a path of its
own, and is described by the values that the records have for it. The names that it gives for a
column are those that occur in it, each once and in order. Values that are counted as one differ in
the order of members at most, so that numbers, texts and words are counted as one only if equal. -/
theorem build_described (proper : ∀ record ∈ records, record.Proper) :
    (∃ basics members, build records = basics ++ members.flatten ∧
      List.Forall₂ (BasicEntry records) basicFields basics ∧
      List.Forall₂ (MemberEntries records) payloadSources members) ∧
    ((build records).map Field.path).Nodup ∧
    (∀ source ∈ payloadSources,
      (memberNamesOf (build records) source.column).Pairwise (· < ·) ∧
      ∀ name, name ∈ memberNamesOf (build records) source.column ↔
        name ∈ namesIn records source.column) ∧
    ∀ a b : Json, (∀ items, a ≠ .arr items) → (∀ members, a ≠ .obj members) → a.Alike b → a = b := by
  refine ⟨⟨basicFields.map (basicField records), payloadSources.map (memberFields records), rfl,
      ?_, ?_⟩, paths_nodup records, fun source among ↦ ?_, fun a b noArray noObject alike ↦
      alike.eq_of_simple noArray noObject⟩
  · exact List.forall₂_map_right_iff.mpr (List.forall₂_same.mpr fun _ ↦ basicEntry proper)
  · exact List.forall₂_map_right_iff.mpr
      (List.forall₂_same.mpr fun source _ ↦ memberEntries proper source)
  · rw [memberNamesOf_eq records among]
    refine ⟨pairwise_sorted (memberNames_nodup records source.column), fun name ↦ ?_⟩
    rw [List.mem_mergeSort, (firstSeen_memberNames records source.column).mem_iff]

def abTags : Json := .obj [("a", .int 1), ("b", .null)]

def baTags : Json := .obj [("b", .null), ("a", .int 1)]

def reordered : List Json :=
  [.obj [("metadata", .obj [("tags", abTags), ("n", .int 1)])],
    .obj [("metadata", .obj [("n", .bool true), ("tags", baTags)])]]

theorem build_described_reordered :
    (∀ record ∈ reordered, record.Proper) ∧
      ∃ tags ∈ build reordered, tags.path = "metadata.tags" ∧ tags.count = some 2 ∧
        tags.distinct = some 1 ∧ tags.samples = some [abTags] := by
  have one (name : String) {v : Json} (hv : v.Proper) : (Json.obj [(name, v)]).Proper :=
    .obj (by simp) (by simpa using hv)
  have two (m n : String × Json) (different : m.1 ≠ n.1) (hm : m.2.Proper) (hn : n.2.Proper) :
      (Json.obj [m, n]).Proper := .obj (by simpa using different) (by simp [hm, hn])
  have ab : abTags.Proper := two _ _ (by decide) (.int 1) .null
  have ba : baTags.Proper := two _ _ (by decide) .null (.int 1)
  have proper : ∀ record ∈ reordered, record.Proper := by
    simp only [reordered, List.forall_mem_cons]
    exact ⟨one _ (two _ _ (by decide) ab (.int 1)), one _ (two _ _ (by decide) (.bool true) ba),
      List.forall_mem_nil _⟩
  obtain ⟨⟨basics, members, catalog, -, columns⟩, -⟩ := build_described proper
  obtain _ | ⟨⟨names, seen, entries⟩, -⟩ := columns
  have read : FirstSeen Eq ([] ++ ["tags"] ++ ["n"] ++ ["n"] ++ ["tags"]) ["tags", "n"] :=
    (((FirstSeen.nil.new (by simp)).new (by simp)).old ⟨"n", by simp, rfl⟩).old
      ⟨"tags", by simp, rfl⟩
  obtain rfl := FirstSeen.unique seen read
  obtain _ | ⟨entry, -⟩ := entries
  obtain ⟨distinct, known, number, samples⟩ := entry.values
  have same : FirstSeen Json.Alike ([] ++ [abTags] ++ [baTags]) [abTags] :=
    (FirstSeen.nil.new (by simp)).old ⟨abTags, by simp, .order (.swap _ _ _)⟩
  obtain rfl := FirstSeen.unique known same
  refine ⟨proper, _, ?_, entry.path, entry.count, number, samples⟩
  rw [catalog]
  exact List.mem_append_right _ (by simp)

end Catalog

end CallSearch
