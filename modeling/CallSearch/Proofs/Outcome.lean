import Mathlib.Data.List.Forall2

namespace CallSearch

variable {ε σ α β : Type}

theorem ok_of_bind {x : Except ε α} {f : α → Except ε β} {b : β} (h : x >>= f = .ok b) :
    ∃ a, x = .ok a ∧ f a = .ok b := by
  cases x with
  | error e => cases h
  | ok a => exact ⟨a, rfl, h⟩

theorem ok_map_iff {x : Except ε α} {f : α → β} {b : β} :
    x.map f = .ok b ↔ ∃ a, x = .ok a ∧ f a = b := by
  cases x <;> simp [Except.map]

theorem ok_of_mapError {ε' : Type} {x : Except ε α} {f : ε → ε'} {a : α}
    (h : x.mapError f = .ok a) : x = .ok a := by
  cases x with
  | error e => cases h
  | ok b =>
    cases h
    rfl

theorem mapM_ok {f : α → Except ε β} {g : α → β} {items : List α}
    (h : ∀ a ∈ items, f a = .ok (g a)) : items.mapM f = .ok (items.map g) := by
  induction items with
  | nil => rfl
  | cons a rest ih =>
    rw [List.forall_mem_cons] at h
    rw [List.mapM_cons, h.1, ih h.2]
    rfl

theorem forall₂_of_mapM {f : α → Except ε β} {items : List α} {results : List β}
    (h : items.mapM f = .ok results) : List.Forall₂ (fun a b ↦ f a = .ok b) items results := by
  induction items generalizing results with
  | nil =>
    cases h
    exact .nil
  | cons a rest ih =>
    rw [List.mapM_cons] at h
    obtain ⟨b, first, h⟩ := ok_of_bind h
    obtain ⟨others, later, h⟩ := ok_of_bind h
    cases h
    exact .cons first (ih later)

theorem mapM_of_forall₂ {f : α → Except ε β} {items : List α} {results : List β}
    (each : List.Forall₂ (fun a b ↦ f a = .ok b) items results) : items.mapM f = .ok results := by
  induction each with
  | nil => rfl
  | cons first _ ih =>
    rw [List.mapM_cons, first, ih]
    rfl

theorem ok_of_mapM {f : α → Except ε β} {items : List α} {results : List β}
    (h : items.mapM f = .ok results) {a : α} (ha : a ∈ items) : ∃ b, f a = .ok b := by
  have each := forall₂_of_mapM h
  clear h
  induction each with
  | nil => cases ha
  | cons first _ ih =>
    rcases List.mem_cons.mp ha with rfl | later
    · exact ⟨_, first⟩
    · exact ih later

theorem foldlM_keeps {Good : σ → Prop} {step : σ → α → Except ε σ}
    (keeps : ∀ s a t, Good s → step s a = .ok t → Good t) {items : List α} {s t : σ} (start : Good s)
    (h : items.foldlM step s = .ok t) : Good t := by
  induction items generalizing s with
  | nil =>
    cases h
    exact start
  | cons a rest ih =>
    rw [List.foldlM_cons] at h
    obtain ⟨next, first, later⟩ := ok_of_bind h
    exact ih (keeps s a next start first) later

/-- What relates the state before each step to the state after it relates the states before and
after all of them. -/
theorem foldlM_composes {γ : Type} {R : σ → List γ → σ → Prop} {step : σ → α → Except ε σ}
    (said : α → List γ) (nothing : ∀ s, R s [] s)
    (composes : ∀ s t u first second, R s first t → R t second u → R s (first ++ second) u)
    (each : ∀ s a t, step s a = .ok t → R s (said a) t) {items : List α} {s t : σ}
    (h : items.foldlM step s = .ok t) : R s (items.flatMap said) t := by
  induction items generalizing s with
  | nil =>
    cases h
    exact nothing _
  | cons a rest ih =>
    rw [List.foldlM_cons] at h
    obtain ⟨next, first, later⟩ := ok_of_bind h
    exact composes s next t _ _ (each s a next first) (ih later)

theorem foldlM_of_mapM {f : α → Except ε β} {step : σ → β → Except ε σ} {items : List α}
    {results : List β} (h : items.mapM f = .ok results) (s : σ) :
    results.foldlM step s = items.foldlM (fun s a ↦ f a >>= step s) s := by
  induction items generalizing results s with
  | nil =>
    cases h
    rfl
  | cons a rest ih =>
    rw [List.mapM_cons] at h
    obtain ⟨b, first, h⟩ := ok_of_bind h
    obtain ⟨others, later, h⟩ := ok_of_bind h
    cases h
    rw [List.foldlM_cons, List.foldlM_cons, first]
    exact bind_congr fun next ↦ ih later next

section FailsIf

variable {ε' : Type} {error : ε} {p q : Prop}

/-- Whether a computation fails exactly in some case, and then always in the same way. -/
def FailsIf (error : ε) (x : Except ε α) (p : Prop) : Prop :=
  (p → x = .error error) ∧ (¬p → ∃ a, x = .ok a)

namespace FailsIf

variable {x : Except ε α}

theorem of_error (h : p) : FailsIf error (.error error : Except ε α) p :=
  ⟨fun _ ↦ rfl, fun free ↦ absurd h free⟩

theorem of_ok (a : α) (h : ¬p) : FailsIf error (.ok a) p :=
  ⟨fun fails ↦ absurd fails h, fun _ ↦ ⟨a, rfl⟩⟩

theorem congr (h : FailsIf error x p) (same : p ↔ q) : FailsIf error x q :=
  ⟨fun fails ↦ h.1 (same.mpr fails), fun free ↦ h.2 (mt same.mp free)⟩

theorem free (h : FailsIf error x p) {a : α} (found : x = .ok a) : ¬p := by
  intro fails
  cases found.symm.trans (h.1 fails)

theorem ok_iff (h : FailsIf error x p) : (∃ a, x = .ok a) ↔ ¬p :=
  ⟨fun ⟨_, found⟩ ↦ h.free found, h.2⟩

theorem bind {f : α → Except ε β} (first : FailsIf error x p)
    (later : ∀ a, x = .ok a → FailsIf error (f a) q) : FailsIf error (x >>= f) (p ∨ q) := by
  by_cases fails : p
  · have failed := first.1 fails
    refine ⟨fun _ ↦ by rw [failed]; rfl, fun free ↦ absurd (.inl fails) free⟩
  · obtain ⟨a, found⟩ := first.2 fails
    have rest := later a found
    rw [found]
    exact rest.congr (or_iff_right fails).symm

theorem map (h : FailsIf error x p) (f : α → β) : FailsIf error (x.map f) p := by
  refine ⟨fun fails ↦ by rw [h.1 fails]; rfl, fun free ↦ ?_⟩
  obtain ⟨a, found⟩ := h.2 free
  exact ⟨f a, by rw [found]; rfl⟩

theorem mapError (h : FailsIf error x p) (f : ε → ε') :
    FailsIf (f error) (x.mapError f) p := by
  refine ⟨fun fails ↦ by rw [h.1 fails]; rfl, fun free ↦ ?_⟩
  obtain ⟨a, found⟩ := h.2 free
  exact ⟨a, by rw [found]; rfl⟩

variable {items : List α} {P : α → Prop}

theorem mapM {f : α → Except ε β} (each : ∀ a, FailsIf error (f a) (P a)) :
    FailsIf error (items.mapM f) (∃ a ∈ items, P a) := by
  induction items with
  | nil => exact of_ok [] (by simp)
  | cons a rest ih =>
    rw [List.mapM_cons]
    simp only [List.exists_mem_cons_iff]
    exact (each a).bind fun b _ ↦ (ih.bind fun bs _ ↦ of_ok _ not_false).congr (by rw [or_false])

theorem foldlM {step : σ → α → Except ε σ} (each : ∀ s a, FailsIf error (step s a) (P a))
    (s : σ) : FailsIf error (items.foldlM step s) (∃ a ∈ items, P a) := by
  induction items generalizing s with
  | nil => exact of_ok s (by simp)
  | cons a rest ih =>
    rw [List.foldlM_cons]
    simp only [List.exists_mem_cons_iff]
    exact (each s a).bind fun next _ ↦ ih next

end FailsIf

end FailsIf

end CallSearch
