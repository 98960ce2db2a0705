import Mathlib.Data.List.Forall2
import CallSearch.Proofs.Json.Alike

namespace CallSearch.Json

/-- Whether two values are the same if objects are read by the names of their members. -/
inductive SameValue : Json → Json → Prop
  | null : SameValue .null .null
  | bool (value : Bool) : SameValue (.bool value) (.bool value)
  | int (n : ℤ) : SameValue (.int n) (.int n)
  | real (x : Double) : SameValue (.real x) (.real x)
  | str (s : String) : SameValue (.str s) (.str s)
  | arr {items others : List Json} (inside : List.Forall₂ SameValue items others) :
      SameValue (.arr items) (.arr others)
  | obj {members others : List (String × Json)}
      (inside : ∀ name, Option.Rel SameValue (members.lookup name) (others.lookup name)) :
      SameValue (.obj members) (.obj others)

theorem sameValue_arr_iff {items others : List Json} :
    SameValue (.arr items) (.arr others) ↔ List.Forall₂ SameValue items others := by
  constructor
  · intro same
    cases same with
    | arr inside => exact inside
  · exact .arr

theorem sameValue_obj_iff {members others : List (String × Json)} :
    SameValue (.obj members) (.obj others) ↔
      ∀ name, Option.Rel SameValue (members.lookup name) (others.lookup name) := by
  constructor
  · intro same
    cases same with
    | obj inside => exact inside
  · exact .obj

section Members

variable {α β : Type} {members others : List (String × α)} {name : String} {value : α}

theorem lookup_map (g : α → β) (members : List (String × α)) (name : String) :
    (members.map fun m ↦ (m.1, g m.2)).lookup name = (members.lookup name).map g := by
  induction members with
  | nil => rfl
  | cons m rest ih =>
    rw [List.map_cons, List.lookup_cons, List.lookup_cons, ih]
    cases name == m.1 <;> rfl

theorem mem_iff_lookup (distinct : (members.map Prod.fst).Nodup) :
    (name, value) ∈ members ↔ members.lookup name = some value := by
  rw [List.lookup_eq_some_iff]
  constructor
  · intro inside
    obtain ⟨before, after, rfl⟩ := List.append_of_mem inside
    refine ⟨before, after, rfl, fun m hm ↦ bne_iff_ne.mpr fun same ↦ ?_⟩
    rw [List.map_append, List.nodup_append] at distinct
    exact distinct.2.2 m.1 (List.mem_map_of_mem hm) name List.mem_cons_self same.symm
  · rintro ⟨before, after, rfl, -⟩
    simp

theorem perm_iff_lookup (distinct : (members.map Prod.fst).Nodup)
    (distinct' : (others.map Prod.fst).Nodup) :
    members.Perm others ↔ ∀ name, members.lookup name = others.lookup name := by
  rw [List.perm_ext_iff_of_nodup (.of_map _ distinct) (.of_map _ distinct'), Prod.forall]
  refine forall_congr' fun name ↦ ?_
  simp only [mem_iff_lookup distinct, mem_iff_lookup distinct']
  exact Option.ext_iff.symm

theorem sortMembers_eq_iff (distinct : (members.map Prod.fst).Nodup) :
    sortMembers members = sortMembers others ↔ members.Perm others := by
  refine ⟨fun same ↦ ?_, sortMembers_eq_of_perm distinct⟩
  exact (sortMembers_perm members).symm.trans (same ▸ sortMembers_perm others)

end Members

section Items

variable {α β : Type} {R S : α → α → Prop} {xs ys : List α}

theorem forall₂_congr_of_mem (same : ∀ x ∈ xs, ∀ y ∈ ys, (R x y ↔ S x y)) :
    List.Forall₂ R xs ys ↔ List.Forall₂ S xs ys := by
  rw [List.forall₂_iff_zip, List.forall₂_iff_zip]
  refine and_congr_right fun _ ↦ forall_congr' fun x ↦ forall_congr' fun y ↦ ?_
  refine imp_congr_right fun pair ↦ ?_
  exact same x (List.of_mem_zip pair).1 y (List.of_mem_zip pair).2

theorem map_eq_map_iff_forall₂ (g : α → β) :
    xs.map g = ys.map g ↔ List.Forall₂ (fun x y ↦ g x = g y) xs ys := by
  rw [← List.forall₂_map_right_iff (R := fun x z ↦ g x = z), ← List.forall₂_map_left_iff,
    List.forall₂_eq_eq_eq]

theorem map_eq_map_iff_rel {g : α → β} {x? y? : Option α}
    (same : ∀ x, x? = some x → ∀ y, y? = some y → (g x = g y ↔ R x y)) :
    x?.map g = y?.map g ↔ Option.Rel R x? y? := by
  cases x? with
  | none =>
    cases y? with
    | none => exact iff_of_true rfl .none
    | some y => exact iff_of_false nofun nofun
  | some x =>
    cases y? with
    | none => exact iff_of_false nofun nofun
    | some y =>
      rw [Option.rel_some_some, Option.map_some, Option.map_some, Option.some_inj]
      exact same x rfl y rfl

end Items

variable {a b : Json}

theorem ordered_eq_iff (proper : Proper a) (proper' : Proper b) :
    a.ordered = b.ordered ↔ SameValue a b := by
  induction a using nested generalizing b with
  | null | bool | int | real | str =>
    constructor
    · intro same
      obtain rfl := (alike_of_ordered_eq same).eq_of_simple (by simp) (by simp)
      constructor
    · intro same
      cases same
      rfl
  | arr items ih =>
    cases b with
    | arr others =>
      rw [proper_arr_iff] at proper proper'
      have inside : items.map ordered = others.map ordered ↔ List.Forall₂ SameValue items others :=
        (map_eq_map_iff_forall₂ ordered).trans
          (forall₂_congr_of_mem fun x hx y hy ↦ ih x hx (proper x hx) (proper' y hy))
      rw [ordered, ordered, arr.injEq, inside, sameValue_arr_iff]
    | _ => exact iff_of_false (by simp [ordered]) fun same ↦ by cases same
  | obj members ih =>
    cases b with
    | obj others =>
      rw [proper_obj_iff] at proper proper'
      obtain ⟨distinct, proper⟩ := proper
      obtain ⟨distinct', proper'⟩ := proper'
      have found (name : String) :
          (members.lookup name).map ordered = (others.lookup name).map ordered ↔
            Option.Rel SameValue (members.lookup name) (others.lookup name) := by
        refine map_eq_map_iff_rel fun x hx y hy ↦ ?_
        have hx := (mem_iff_lookup distinct).mpr hx
        have hy := (mem_iff_lookup distinct').mpr hy
        exact ih (name, x) hx (proper _ hx) (proper' _ hy)
      rw [ordered, ordered, obj.injEq, sortMembers_eq_iff (names_map ordered members ▸ distinct),
        perm_iff_lookup (names_map ordered members ▸ distinct)
          (names_map ordered others ▸ distinct')]
      simp only [lookup_map, found, sameValue_obj_iff]
    | _ => exact iff_of_false (by simp [ordered]) fun same ↦ by cases same

/-- The canonical texts of two values are equal exactly if the values are the same to a reader, and
exactly if one is the other with members in another order, at any depth. So a number, a text or a
word has its text in common with no other value. -/
theorem canonicalKey_eq_iff_sameValue (proper : Proper a) (proper' : Proper b) :
    (a.canonicalKey = b.canonicalKey ↔ SameValue a b) ∧ (SameValue a b ↔ Alike a b) ∧
      ((∀ items, a ≠ .arr items) → (∀ members, a ≠ .obj members) →
        (a.canonicalKey = b.canonicalKey ↔ a = b)) := by
  have key : a.canonicalKey = b.canonicalKey ↔ Alike a b := canonicalKey_eq_iff proper
  have reading : a.canonicalKey = b.canonicalKey ↔ SameValue a b :=
    canonicalKey_eq_iff_ordered.trans (ordered_eq_iff proper proper')
  refine ⟨reading, reading.symm.trans key, fun noArray noObject ↦ ?_⟩
  exact ⟨fun same ↦ (key.mp same).eq_of_simple noArray noObject, congrArg canonicalKey⟩

def innerMembers : List (String × Json) := [("x", .int 1), ("y", .str "1")]

def around (members : List (String × Json)) : Json :=
  .obj [("list", .arr [.obj members, .null]), ("\u00e9", .bool true)]

theorem canonicalKey_eq_iff_sameValue_nested :
    (around innerMembers).Proper ∧ (around innerMembers.reverse).Proper ∧
      (around innerMembers).canonicalKey = (around innerMembers.reverse).canonicalKey ∧
      (Json.int 1).canonicalKey ≠ (Json.str "1").canonicalKey ∧
      (Json.int 1).canonicalKey ≠ (Json.bool true).canonicalKey ∧
      (Json.int 1).canonicalKey ≠ (Json.real (Double.ofInt 1)).canonicalKey := by
  have proper : (around innerMembers).Proper := by
    simp [around, innerMembers, proper_obj_iff, proper_arr_iff, Proper.null, Proper.bool,
      Proper.int, Proper.str]
  have alike : Alike (around innerMembers) (around innerMembers.reverse) :=
    .member "list" [] _ (.item [] _ (.order (List.reverse_perm innerMembers).symm))
  have proper' := (alike.ordered_eq proper).1
  obtain ⟨key, reading, -⟩ := canonicalKey_eq_iff_sameValue proper proper'
  have apart {b : Json} (proper : b.Proper) :
      (Json.int 1).canonicalKey = b.canonicalKey ↔ Json.int 1 = b :=
    (canonicalKey_eq_iff_sameValue (.int 1) proper).2.2 nofun nofun
  refine ⟨proper, proper', key.mpr (reading.mpr alike), ?_, ?_, ?_⟩
  · rw [ne_eq, apart (.str "1")]
    nofun
  · rw [ne_eq, apart (.bool true)]
    nofun
  · rw [ne_eq, apart (.real _)]
    nofun

end CallSearch.Json
