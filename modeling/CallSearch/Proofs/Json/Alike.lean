import Mathlib.Data.String.Basic
import CallSearch.Proofs.Json.Text

namespace CallSearch.Json

/-- Whether two values differ at most in the order of the members of objects, at any depth. -/
inductive Alike : Json → Json → Prop
  | refl (a : Json) : Alike a a
  | item {a b : Json} (before after : List Json) (inside : Alike a b) :
      Alike (.arr (before ++ a :: after)) (.arr (before ++ b :: after))
  | member {a b : Json} (name : String) (before after : List (String × Json)) (inside : Alike a b) :
      Alike (.obj (before ++ (name, a) :: after)) (.obj (before ++ (name, b) :: after))
  | order {members others : List (String × Json)} (perm : members.Perm others) :
      Alike (.obj members) (.obj others)
  | trans {a b c : Json} (first : Alike a b) (second : Alike b c) : Alike a c

/-- Whether no object inside a value has two members of the same name. -/
inductive Proper : Json → Prop
  | null : Proper .null
  | bool (b : Bool) : Proper (.bool b)
  | int (n : ℤ) : Proper (.int n)
  | real (x : Double) : Proper (.real x)
  | str (s : String) : Proper (.str s)
  | arr {items : List Json} (inside : ∀ item ∈ items, Proper item) : Proper (.arr items)
  | obj {members : List (String × Json)} (distinct : (members.map Prod.fst).Nodup)
      (inside : ∀ m ∈ members, Proper m.2) : Proper (.obj members)

theorem proper_arr_iff {items : List Json} :
    Proper (.arr items) ↔ ∀ item ∈ items, Proper item :=
  ⟨fun | .arr inside => inside, .arr⟩

theorem proper_obj_iff {members : List (String × Json)} :
    Proper (.obj members) ↔ (members.map Prod.fst).Nodup ∧ ∀ m ∈ members, Proper m.2 :=
  ⟨fun | .obj distinct inside => ⟨distinct, inside⟩, fun h ↦ .obj h.1 h.2⟩

theorem Proper.member? {a b : Json} {name : String} (proper : Proper a)
    (found : a.member? name = some b) : Proper b := by
  cases proper with
  | obj distinct inside =>
    obtain ⟨before, after, rfl, -⟩ := List.lookup_eq_some_iff.mp found
    exact inside (name, b) (by simp)
  | _ => cases found

theorem Proper.walk? {a b : Json} {names : List String} (proper : Proper a)
    (found : a.walk? names = some b) : Proper b := by
  induction names generalizing a with
  | nil =>
    cases found
    exact proper
  | cons name rest ih =>
    obtain ⟨between, first, others⟩ := Option.bind_eq_some_iff.mp found
    exact ih (proper.member? first) others

/-- A value with the members of all objects sorted by name. -/
def ordered : Json → Json
  | .arr items => .arr (items.map ordered)
  | .obj members => .obj (sortMembers (members.map fun m ↦ (m.1, ordered m.2)))
  | a => a
termination_by a => sizeOf a
decreasing_by
  · have := List.sizeOf_lt_of_mem ‹_ ∈ items›
    simp only [Json.arr.sizeOf_spec]
    omega
  · have := List.sizeOf_lt_of_mem ‹_ ∈ members›
    obtain ⟨name, value⟩ := m
    simp only [Json.obj.sizeOf_spec, Prod.mk.sizeOf_spec] at this ⊢
    omega

section Sorted

variable {α β : Type} {members others : List (String × α)}

theorem sortMembers_map (g : α → β) (members : List (String × α)) :
    sortMembers (members.map fun m ↦ (m.1, g m.2)) =
      (sortMembers members).map fun m ↦ (m.1, g m.2) := by
  symm
  exact List.map_mergeSort fun m hm n hn ↦ rfl

theorem names_map (g : α → β) (members : List (String × α)) :
    (members.map fun m ↦ (m.1, g m.2)).map Prod.fst = members.map Prod.fst := by
  rw [List.map_map]
  rfl

theorem sortMembers_perm (members : List (String × α)) : (sortMembers members).Perm members :=
  List.mergeSort_perm _ _

theorem pairwise_sortedBy (key : α → String) (xs : List α) :
    (xs.mergeSort fun x y ↦ decide (key x ≤ key y)).Pairwise fun x y ↦ key x ≤ key y := by
  refine (List.pairwise_mergeSort ?_ ?_ xs).imp of_decide_eq_true
  · intro x y z first second
    exact decide_eq_true ((of_decide_eq_true first).trans (of_decide_eq_true second))
  · intro x y
    simpa using le_total (key x) (key y)

theorem sortMembers_eq_of_perm (distinct : (members.map Prod.fst).Nodup)
    (perm : members.Perm others) : sortMembers members = sortMembers others := by
  have sorted : (sortMembers members).Perm (sortMembers others) :=
    (sortMembers_perm members).trans (perm.trans (sortMembers_perm others).symm)
  refine List.Perm.eq_of_pairwise ?_ (pairwise_sortedBy Prod.fst members)
    (pairwise_sortedBy Prod.fst others) sorted
  intro m n hm hn low high
  exact List.inj_on_of_nodup_map distinct ((sortMembers_perm members).mem_iff.mp hm)
    (perm.mem_iff.mpr ((sortMembers_perm others).mem_iff.mp hn)) (low.antisymm high)

end Sorted

theorem chars_canonicalStyle (a : Json) : chars canonicalStyle a = chars spacedStyle a.ordered := by
  induction a using nested with
  | arr items ih =>
    rw [ordered, chars_arr, chars, itemChars_eq, List.map_map, List.map_congr_left ih]
    rfl
  | obj members ih =>
    have texts : (members.map fun m ↦ (m.1, chars canonicalStyle m.2)) =
        (members.map fun m ↦ (m.1, ordered m.2)).map fun m ↦ (m.1, chars spacedStyle m.2) := by
      rw [List.map_map]
      exact List.map_congr_left fun m hm ↦ congrArg (m.1, ·) (ih m hm)
    have pieces : (sortMembers (members.map fun m ↦ (m.1, chars canonicalStyle m.2))).map
        (fun m ↦ stringChars m.1 ++ canonicalStyle.colon ++ m.2) =
        (sortMembers (members.map fun m ↦ (m.1, ordered m.2))).map memberPiece := by
      rw [texts, sortMembers_map, List.map_map]
      rfl
    rw [ordered, chars_obj, ← pieces, chars, memberChars_eq]
    rfl
  | bool value => cases value <;> simp only [ordered] <;> rfl
  | _ => simp only [ordered]; rfl

section Alike

variable {a b : Json}

theorem canonicalKey_eq_iff_ordered : a.canonicalKey = b.canonicalKey ↔ a.ordered = b.ordered := by
  unfold canonicalKey
  rw [String.ofList_inj, chars_canonicalStyle, chars_canonicalStyle, chars_injective.eq_iff]

theorem Alike.symm (h : Alike a b) : Alike b a := by
  induction h with
  | refl a => exact .refl a
  | item before after inside ih => exact .item before after ih
  | member name before after inside ih => exact .member name before after ih
  | order perm => exact .order perm.symm
  | trans first second ih ih' => exact ih'.trans ih

/-- Values without others inside are alike only if they are equal, so that whole numbers, floating
point numbers, texts and words all differ. -/
theorem Alike.eq_of_simple (h : Alike a b) (noArray : ∀ items, a ≠ .arr items)
    (noObject : ∀ members, a ≠ .obj members) : a = b := by
  induction h with
  | refl a => rfl
  | item before after inside ih => exact absurd rfl (noArray _)
  | member name before after inside ih => exact absurd rfl (noObject _)
  | order perm => exact absurd rfl (noObject _)
  | trans first second ih ih' =>
    obtain rfl := ih noArray noObject
    exact ih' noArray noObject

theorem alike_arr {f : Json → Json} (before items : List Json)
    (inside : ∀ item ∈ items, Alike item (f item)) :
    Alike (.arr (before ++ items)) (.arr (before ++ items.map f)) := by
  induction items generalizing before with
  | nil => exact .refl _
  | cons item rest ih =>
    have others := ih (before ++ [f item]) fun x hx ↦ inside x (List.mem_cons_of_mem item hx)
    rw [List.append_assoc, List.append_assoc] at others
    exact (Alike.item before rest (inside item List.mem_cons_self)).trans others

theorem alike_obj {f : Json → Json} (before members : List (String × Json))
    (inside : ∀ m ∈ members, Alike m.2 (f m.2)) :
    Alike (.obj (before ++ members)) (.obj (before ++ members.map fun m ↦ (m.1, f m.2))) := by
  induction members generalizing before with
  | nil => exact .refl _
  | cons m rest ih =>
    have others := ih (before ++ [(m.1, f m.2)]) fun n hn ↦ inside n (List.mem_cons_of_mem m hn)
    rw [List.append_assoc, List.append_assoc] at others
    exact (Alike.member m.1 before rest (inside m List.mem_cons_self)).trans others

theorem alike_ordered (a : Json) : Alike a a.ordered := by
  induction a using nested with
  | arr items ih =>
    rw [ordered]
    exact alike_arr [] items ih
  | obj members ih =>
    rw [ordered]
    exact (alike_obj [] members ih).trans (.order (sortMembers_perm _).symm)
  | _ => simp only [ordered]; exact .refl _

theorem alike_of_ordered_eq (same : a.ordered = b.ordered) : Alike a b :=
  (alike_ordered a).trans (same ▸ (alike_ordered b).symm)

theorem Alike.ordered_eq (h : Alike a b) (proper : Proper a) : Proper b ∧ a.ordered = b.ordered := by
  induction h with
  | refl a => exact ⟨proper, rfl⟩
  | @item a b before after inside ih =>
    cases proper with
    | arr items =>
      obtain ⟨proper, same⟩ := ih (items a (by simp))
      refine ⟨.arr fun x hx ↦ ?_, ?_⟩
      · rcases List.mem_append.mp hx with hx | hx
        · exact items x (List.mem_append_left _ hx)
        · rcases List.mem_cons.mp hx with rfl | hx
          · exact proper
          · exact items x (List.mem_append_right _ (List.mem_cons_of_mem _ hx))
      · simp [ordered, same]
  | @member a b name before after inside ih =>
    cases proper with
    | obj distinct members =>
      obtain ⟨proper, same⟩ := ih (members (name, a) (by simp))
      refine ⟨.obj (by simpa using distinct) fun m hm ↦ ?_, ?_⟩
      · rcases List.mem_append.mp hm with hm | hm
        · exact members m (List.mem_append_left _ hm)
        · rcases List.mem_cons.mp hm with rfl | hm
          · exact proper
          · exact members m (List.mem_append_right _ (List.mem_cons_of_mem _ hm))
      · simp [ordered, same]
  | @order members others perm =>
    cases proper with
    | obj distinct inside =>
      refine ⟨.obj ((perm.map Prod.fst).nodup_iff.mp distinct)
        fun m hm ↦ inside m (perm.mem_iff.mpr hm), ?_⟩
      have names := names_map ordered members
      rw [ordered, ordered, sortMembers_eq_of_perm (names ▸ distinct) (perm.map _)]
  | trans first second ih ih' =>
    obtain ⟨between, same⟩ := ih proper
    obtain ⟨last, same'⟩ := ih' between
    exact ⟨last, same.trans same'⟩

theorem canonicalKey_eq_iff (proper : Proper a) :
    a.canonicalKey = b.canonicalKey ↔ Alike a b := by
  rw [canonicalKey_eq_iff_ordered]
  exact ⟨alike_of_ordered_eq, fun alike ↦ (alike.ordered_eq proper).2⟩

end Alike

end CallSearch.Json
