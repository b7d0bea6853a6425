import Mathlib.Data.List.Forall2

namespace Crosstab

section
variable {ε δ α β : Type}

theorem bind_eq_ok_iff {x : Except ε α} {f : α → Except ε β} {b : β} :
    (x >>= f) = .ok b ↔ ∃ a, x = .ok a ∧ f a = .ok b := by
  cases x <;> simp [bind, Except.bind]

theorem pure_eq_ok_iff {a b : α} : (pure a : Except ε α) = .ok b ↔ a = b := by
  simp [pure, Except.pure]

theorem map_eq_ok_iff {x : Except ε α} {f : α → β} {b : β} :
    x.map f = .ok b ↔ ∃ a, x = .ok a ∧ f a = b := by
  cases x <;> simp [Except.map]

theorem mapError_eq_ok_iff {x : Except ε α} {f : ε → δ} {a : α} :
    x.mapError f = .ok a ↔ x = .ok a := by
  cases x <;> simp [Except.mapError]

theorem toOption_eq_some_iff {x : Except ε α} {a : α} : x.toOption = some a ↔ x = .ok a := by
  cases x <;> simp [Except.toOption]

theorem mapM_eq_ok_iff {f : α → Except ε β} {l : List α} {r : List β} :
    l.mapM f = .ok r ↔ List.Forall₂ (fun a b => f a = .ok b) l r := by
  induction l generalizing r with
  | nil => cases r <;> simp [pure_eq_ok_iff]
  | cons a l ih =>
    simp only [List.mapM_cons, bind_eq_ok_iff, pure_eq_ok_iff, ih]
    constructor
    · rintro ⟨b, hb, bs, hbs, rfl⟩
      exact .cons hb hbs
    · rintro (_ | ⟨hb, hbs⟩)
      exact ⟨_, hb, _, hbs, rfl⟩

/-- A fold that succeeds takes a step for every member. -/
theorem exists_of_foldlM_eq_ok {step : β → α → Except ε β} {l : List α} {b r : β}
    (h : l.foldlM step b = .ok r) : ∀ a ∈ l, ∃ before next, step before a = .ok next := by
  induction l generalizing b with
  | nil => exact List.forall_mem_nil _
  | cons a l ih =>
    rw [List.foldlM_cons, bind_eq_ok_iff] at h
    obtain ⟨next, first, rest⟩ := h
    exact List.forall_mem_cons.2 ⟨⟨b, next, first⟩, ih rest⟩

/-- What every step of a fold keeps holds of the outcome. -/
theorem foldlM_closed {P : β → Prop} {step : β → α → Except ε β} {l : List α} {b r : β}
    (h : l.foldlM step b = .ok r) (start : P b)
    (closed : ∀ a b r, P b → step b a = .ok r → P r) : P r := by
  induction l generalizing b with
  | nil => exact pure_eq_ok_iff.1 h ▸ start
  | cons a l ih =>
    rw [List.foldlM_cons, bind_eq_ok_iff] at h
    obtain ⟨next, first, rest⟩ := h
    exact ih rest (closed a b next start first)

theorem bind_eq_error_iff {x : Except ε α} {f : α → Except ε β} {e : ε} :
    (x >>= f) = .error e ↔ x = .error e ∨ ∃ a, x = .ok a ∧ f a = .error e := by
  cases x <;> simp [bind, Except.bind]

theorem map_eq_error_iff {x : Except ε α} {f : α → β} {e : ε} :
    x.map f = .error e ↔ x = .error e := by
  cases x <;> simp [Except.map]

/-- A last step that only puts a result together does not fail. -/
theorem error_of_bind_pure {x : Except ε α} {f : α → β} {e : ε}
    (h : (x >>= fun a => pure (f a)) = .error e) : x = .error e := by
  obtain h | ⟨_, _, h⟩ := bind_eq_error_iff.1 h
  · exact h
  · cases h

end

section
variable {α β : Type}

theorem exists_of_mem_left {R : α → β → Prop} {l : List α} {r : List β} (h : List.Forall₂ R l r)
    {a : α} (ha : a ∈ l) : ∃ b ∈ r, R a b := by
  obtain ⟨i, hi, rfl⟩ := List.getElem_of_mem ha
  exact ⟨_, List.getElem_mem (h.length_eq ▸ hi), h.get hi _⟩

theorem exists_of_mem_right {R : α → β → Prop} {l : List α} {r : List β} (h : List.Forall₂ R l r)
    {b : β} (hb : b ∈ r) : ∃ a ∈ l, R a b := exists_of_mem_left h.flip hb

theorem forall₂_mem {R : α → β → Prop} {l : List α} {r : List β} (h : List.Forall₂ R l r) :
    List.Forall₂ (fun a b => a ∈ l ∧ R a b) l r := by
  refine List.forall₂_iff_get.2 ⟨h.length_eq, fun i hi hj => ⟨List.get_mem .., h.get hi hj⟩⟩

theorem forall₂_comp {γ : Type} {R : α → β → Prop} {S : β → γ → Prop} {T : α → γ → Prop}
    {l : List α} {m : List β} {r : List γ} (h : List.Forall₂ R l m) (k : List.Forall₂ S m r)
    (comp : ∀ a b c, R a b → S b c → T a c) : List.Forall₂ T l r := by
  induction h generalizing r with
  | nil =>
    cases k
    exact .nil
  | cons first _ ih =>
    cases k with
    | cons second others => exact .cons (comp _ _ _ first second) (ih others)

theorem exists_forall₂ {R : α → β → Prop} {l : List α} (h : ∀ a ∈ l, ∃ b, R a b) :
    ∃ r, List.Forall₂ R l r := by
  induction l with
  | nil => exact ⟨[], .nil⟩
  | cons a l ih =>
    obtain ⟨first, others⟩ := List.forall_mem_cons.1 h
    obtain ⟨b, hb⟩ := first
    obtain ⟨r, hr⟩ := ih others
    exact ⟨b :: r, .cons hb hr⟩

theorem map_eq_map_of_forall₂ {γ : Type} {R : α → β → Prop} {f : α → γ} {g : β → γ} {l : List α}
    {r : List β} (h : List.Forall₂ R l r) (agree : ∀ a b, R a b → f a = g b) :
    l.map f = r.map g := by
  induction h with
  | nil => rfl
  | cons first _ ih => rw [List.map_cons, List.map_cons, agree _ _ first, ih]

theorem flatMap_eq_flatMap_of_forall₂ {γ : Type} {R : α → β → Prop} {f : α → List γ}
    {g : β → List γ} {l : List α} {r : List β} (h : List.Forall₂ R l r)
    (agree : ∀ a b, R a b → f a = g b) : l.flatMap f = r.flatMap g := by
  rw [List.flatMap_def, List.flatMap_def, map_eq_map_of_forall₂ h agree]

theorem mapM_eq_some_iff {f : α → Option β} {l : List α} {r : List β} :
    l.mapM f = some r ↔ List.Forall₂ (fun a b => f a = some b) l r := by
  induction l generalizing r with
  | nil => cases r <;> simp
  | cons a l ih =>
    simp only [List.mapM_cons, bind, pure, Option.bind_eq_some_iff, Option.some.injEq, ih]
    constructor
    · rintro ⟨b, hb, bs, hbs, rfl⟩
      exact .cons hb hbs
    · rintro (_ | ⟨hb, hbs⟩)
      exact ⟨_, hb, _, hbs, rfl⟩

end

end Crosstab
