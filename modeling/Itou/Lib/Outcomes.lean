import Mathlib.Data.List.Forall2

/-!
# Computations that can fail

How a computation in `Except`, or in `Option`, succeeds or fails, from its parts.
-/

namespace Itou.Lib

universe u v w

variable {ε : Type u} {α β : Type v} {γ : Type w}

theorem bind_eq_ok {x : Except ε α} {f : α → Except ε β} {b : β} :
    x >>= f = .ok b ↔ ∃ a, x = .ok a ∧ f a = .ok b := by
  cases x <;> simp [Bind.bind, Except.bind]

theorem bind_eq_error {x : Except ε α} {f : α → Except ε β} {e : ε} :
    x >>= f = .error e ↔ x = .error e ∨ ∃ a, x = .ok a ∧ f a = .error e := by
  cases x <;> simp [Bind.bind, Except.bind]

theorem map_eq_ok {x : Except ε α} {f : α → γ} {c : γ} : x.map f = .ok c ↔ ∃ a, x = .ok a ∧ f a = c := by
  cases x <;> simp [Except.map]

theorem map_eq_error {x : Except ε α} {f : α → γ} {e : ε} : x.map f = .error e ↔ x = .error e := by
  cases x <;> simp [Except.map]

theorem mapError_eq_ok {x : Except ε α} {f : ε → γ} {a : α} : x.mapError f = .ok a ↔ x = .ok a := by
  cases x <;> simp [Except.mapError]

theorem toOption_eq_some {x : Except ε α} {a : α} : x.toOption = some a ↔ x = .ok a := by
  cases x <;> simp [Except.toOption]

theorem elim_error_eq_ok {x : Option α} {f : α → Except ε γ} {e : ε} {c : γ} :
    x.elim (.error e) f = .ok c ↔ ∃ a, x = some a ∧ f a = .ok c := by
  cases x <;> simp

/-- The failure, when there is one. -/
def failure? : Except ε α → Option ε
  | .ok _ => none
  | .error e => some e

theorem failure?_eq_some {x : Except ε α} {e : ε} : failure? x = some e ↔ x = .error e := by
  cases x <;> simp [failure?]

/-! ## Lists -/

/-- A computation on each element of a list succeeds with the results of the elements. -/
theorem mapM_eq_ok {f : γ → Except ε α} {l : List γ} {l' : List α} :
    l.mapM f = .ok l' ↔ List.Forall₂ (fun x a => f x = .ok a) l l' := by
  induction l generalizing l' with
  | nil =>
      rw [List.forall₂_nil_left_iff]
      exact ⟨fun h => by cases h; rfl, fun h => by cases h; rfl⟩
  | cons x l ih =>
      rw [List.mapM_cons, List.forall₂_cons_left_iff]
      constructor
      · intro h
        obtain ⟨a, ha, h⟩ := bind_eq_ok.mp h
        obtain ⟨rest, hrest, h⟩ := bind_eq_ok.mp h
        cases h
        exact ⟨a, rest, ha, ih.mp hrest, rfl⟩
      · rintro ⟨a, rest, ha, hrest, rfl⟩
        exact bind_eq_ok.mpr ⟨a, ha, bind_eq_ok.mpr ⟨rest, ih.mpr hrest, rfl⟩⟩

theorem length_of_mapM_eq_ok {f : γ → Except ε α} {l : List γ} {l' : List α} (h : l.mapM f = .ok l') :
    l'.length = l.length :=
  (mapM_eq_ok.mp h).length_eq.symm

/-- A column that the computation keeps. -/
theorem map_eq_of_mapM {δ : Type w} {f : γ → Except ε α} {l : List γ} {l' : List α} {before : γ → δ} {after : α → δ}
    (h : l.mapM f = .ok l') (hkeep : ∀ x a, f x = .ok a → after a = before x) : l'.map after = l.map before := by
  have hforall : List.Forall₂ (fun x a => f x = .ok a) l l' := mapM_eq_ok.mp h
  clear h
  induction hforall with
  | nil => rfl
  | cons hx _ ih => rw [List.map_cons, List.map_cons, hkeep _ _ hx, ih]

/-- It fails with the failure of one of them. -/
theorem exists_of_mapM_eq_error {f : γ → Except ε α} {l : List γ} {e : ε} (h : l.mapM f = .error e) :
    ∃ x ∈ l, f x = .error e := by
  induction l with
  | nil => cases h
  | cons x l ih =>
      rw [List.mapM_cons] at h
      rcases bind_eq_error.mp h with h | ⟨a, _, h⟩
      · exact ⟨x, List.mem_cons_self, h⟩
      · rcases bind_eq_error.mp h with h | ⟨rest, _, h⟩
        · obtain ⟨y, hy, h⟩ := ih h
          exact ⟨y, List.mem_cons_of_mem x hy, h⟩
        · cases h

/-- The result of an element stands at its place. -/
theorem getElem?_of_mapM_eq_ok {f : γ → Except ε α} {l : List γ} {l' : List α} (h : l.mapM f = .ok l') {i : Nat}
    {x : γ} (hx : l[i]? = some x) : ∃ a, l'[i]? = some a ∧ f x = .ok a := by
  have hlength := length_of_mapM_eq_ok h
  obtain ⟨hi, rfl⟩ := List.getElem?_eq_some_iff.mp hx
  have hi' : i < l'.length := hlength ▸ hi
  exact ⟨l'[i], List.getElem?_eq_getElem hi', (mapM_eq_ok.mp h).get hi hi'⟩

theorem exists_of_mem_mapM {f : γ → Except ε α} {l : List γ} {l' : List α} (h : l.mapM f = .ok l') {a : α}
    (ha : a ∈ l') : ∃ x ∈ l, f x = .ok a := by
  obtain ⟨i, hi, rfl⟩ := List.getElem_of_mem ha
  have hi' : i < l.length := length_of_mapM_eq_ok h ▸ hi
  exact ⟨l[i], List.getElem_mem hi', (mapM_eq_ok.mp h).get hi' hi⟩

/-- A computation on each element of a list gives its results when it gives one for each. -/
theorem mapM_eq_some {f : γ → Option α} {l : List γ} {l' : List α} : l.mapM f = some l' ↔ l.map f = l'.map some := by
  induction l generalizing l' with
  | nil => cases l' <;> simp
  | cons x l ih =>
      simp only [List.mapM_cons, Option.bind_eq_bind, Option.bind_eq_some_iff, Option.pure_def, Option.some.injEq,
        List.map_cons]
      constructor
      · rintro ⟨y, hy, rest, hrest, rfl⟩
        rw [List.map_cons, hy, ih.1 hrest]
      · intro h
        cases l' with
        | nil => cases h
        | cons y rest =>
            obtain ⟨hy, hrest⟩ := List.cons.inj h
            exact ⟨y, hy, rest, ih.2 hrest, rfl⟩

theorem mem_of_mapM_eq_some {f : γ → Option α} {l : List γ} {l' : List α} (h : l.mapM f = some l') {y : α} :
    y ∈ l' ↔ ∃ x ∈ l, f x = some y := by
  rw [← List.mem_map, mapM_eq_some.1 h]
  simp

theorem isSome_mapM {f : γ → Option α} {l : List γ} : (l.mapM f).isSome = true ↔ ∀ x ∈ l, (f x).isSome = true := by
  induction l with
  | nil => simp
  | cons x l ih =>
      simp only [List.mapM_cons, Option.bind_eq_bind, Option.pure_def, List.forall_mem_cons, ← ih]
      cases f x <;> cases l.mapM f <;> simp

theorem mapM_congr {f g : γ → Option α} {l : List γ} (h : ∀ x ∈ l, f x = g x) : l.mapM f = l.mapM g := by
  induction l with
  | nil => rfl
  | cons x l ih =>
      rw [List.mapM_cons, List.mapM_cons, h x List.mem_cons_self, ih fun y hy => h y (List.mem_cons_of_mem x hy)]

end Itou.Lib
