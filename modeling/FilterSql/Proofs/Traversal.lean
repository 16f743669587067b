/-
Steps that may fail, one after another.

A sequence of steps gives a result when every one of them does, and the result of a
traversal has, place by place, the results of its steps.  It fails as the first of its steps
that does.
-/
import Mathlib.Data.List.Basic
import Mathlib.Data.List.Forall2

namespace FilterSql

variable {ε α β : Type}

theorem bind_eq_ok {step : Except ε α} {next : α → Except ε β} {result : β} :
    (step >>= next) = .ok result ↔ ∃ value, step = .ok value ∧ next value = .ok result := by
  cases step with
  | error reason => simp [bind, Except.bind]
  | ok value => simp [bind, Except.bind]

theorem mapM_eq_ok {step : α → Except ε β} {items : List α} {results : List β} :
    items.mapM step = .ok results ↔
      List.Forall₂ (fun item result => step item = .ok result) items results := by
  induction items generalizing results with
  | nil => simp [pure, Except.pure, eq_comm]
  | cons item items ih =>
      simp only [List.mapM_cons, bind_eq_ok, List.forall₂_cons_left_iff, ih]
      constructor
      · rintro ⟨first, hfirst, rest, hrest, hresults⟩
        cases hresults
        exact ⟨first, rest, hfirst, hrest, rfl⟩
      · rintro ⟨first, rest, hfirst, hrest, rfl⟩
        exact ⟨first, hfirst, rest, hrest, rfl⟩

/-- The results of a traversal are taken up one by one. -/
theorem map_foldl_mapM_cons {γ : Type} {step : α → Except ε β} {op : γ → β → γ} {start : γ}
    (item : α) (items : List α) :
    ((item :: items).mapM step).map (List.foldl op start) =
      step item >>= fun first => (items.mapM step).map (List.foldl op (op start first)) := by
  rw [List.mapM_cons]
  cases step item with
  | error reason => rfl
  | ok first => cases items.mapM step <;> rfl

/-- Members related through something between, one by one, are lists related through a list. -/
theorem forall₂_exists_iff {γ : Type} {R : α → β → Prop} {f : β → γ} {items : List α}
    {results : List γ} :
    List.Forall₂ (fun item result => ∃ value, R item value ∧ f value = result) items results ↔
      ∃ values, List.Forall₂ R items values ∧ values.map f = results := by
  constructor
  · intro h
    induction h with
    | nil => exact ⟨[], .nil, rfl⟩
    | cons hfirst _ ih =>
        obtain ⟨value, hvalue, rfl⟩ := hfirst
        obtain ⟨values, hvalues, rfl⟩ := ih
        exact ⟨value :: values, .cons hvalue hvalues, rfl⟩
  · rintro ⟨values, hvalues, rfl⟩
    rw [List.forall₂_map_right_iff]
    exact hvalues.imp fun item value hvalue => ⟨value, hvalue, rfl⟩

/-- Lists related to the same members, one by one, are related as these relations give it. -/
theorem forall₂_of_common {γ : Type} {R : α → β → Prop} {S : α → γ → Prop} {T : γ → β → Prop}
    {items : List α} {results : List β} {others : List γ} (hresults : List.Forall₂ R items results)
    (hothers : List.Forall₂ S items others)
    (hrelated : ∀ item result other, R item result → S item other → T other result) :
    List.Forall₂ T others results := by
  induction hresults generalizing others with
  | nil =>
      cases hothers
      exact .nil
  | cons hresult _ ih =>
      cases hothers with
      | cons hother hothers => exact .cons (hrelated _ _ _ hresult hother) (ih hothers)

/-- A step gives no result. -/
def Fails (result : Except ε α) : Prop :=
  ∃ reason, result = .error reason

@[simp] theorem not_fails_ok (value : α) : ¬ Fails (.ok value : Except ε α) := by
  rintro ⟨reason, ⟨⟩⟩

@[simp] theorem fails_error (reason : ε) : Fails (.error reason : Except ε α) :=
  ⟨reason, rfl⟩

theorem not_fails_iff {result : Except ε α} : ¬ Fails result ↔ ∃ value, result = .ok value := by
  cases result with
  | error reason => simp
  | ok value => simp

theorem bind_pure_eq_error_iff {result : Except ε α} {next : α → β} {reason : ε} :
    (result >>= fun value => pure (next value)) = .error reason ↔ result = .error reason := by
  cases result <;> simp [bind, Except.bind, pure, Except.pure]

theorem map_eq_error_iff {result : Except ε α} {next : α → β} {reason : ε} :
    result.map next = .error reason ↔ result = .error reason := by
  cases result <;> simp [Except.map]

/-- An item of a list has a property, and none before it has. -/
def IsFirst (P : α → Prop) (items : List α) (item : α) : Prop :=
  P item ∧ ∃ before after, items = before ++ item :: after ∧ ∀ other ∈ before, ¬ P other

section IsFirst

variable {P : α → Prop} {item : α}

theorem not_isFirst_nil : ¬ IsFirst P [] item := by
  rintro ⟨-, before, after, hitems, -⟩
  cases before <;> cases hitems

theorem isFirst_cons_iff {head : α} {items : List α} :
    IsFirst P (head :: items) item ↔ P head ∧ item = head ∨ ¬ P head ∧ IsFirst P items item := by
  constructor
  · rintro ⟨hitem, before, after, hitems, hbefore⟩
    cases before with
    | nil =>
        cases hitems
        exact Or.inl ⟨hitem, rfl⟩
    | cons first before =>
        cases hitems
        rw [List.forall_mem_cons] at hbefore
        exact Or.inr ⟨hbefore.1, hitem, before, after, rfl, hbefore.2⟩
  · rintro (⟨hhead, rfl⟩ | ⟨hhead, hitem, before, after, rfl, hbefore⟩)
    · exact ⟨hhead, [], items, rfl, by simp⟩
    · exact ⟨hitem, head :: before, after, rfl, List.forall_mem_cons.mpr ⟨hhead, hbefore⟩⟩

theorem exists_isFirst_iff {items : List α} :
    (∃ item, IsFirst P items item) ↔ ∃ item ∈ items, P item := by
  induction items with
  | nil => simp [not_isFirst_nil]
  | cons head items ih =>
      rw [List.exists_mem_cons_iff, ← ih]
      by_cases hhead : P head
      · simp [isFirst_cons_iff, hhead]
      · simp [isFirst_cons_iff, hhead]

/-- The first among those that are kept is the first that is kept and has the property. -/
theorem isFirst_filter_iff {keep : α → Bool} {items : List α} :
    IsFirst P (items.filter keep) item ↔ IsFirst (fun other => keep other ∧ P other) items item := by
  induction items with
  | nil => simp [not_isFirst_nil]
  | cons head items ih =>
      rw [List.filter_cons]
      by_cases hkeep : keep head
      · rw [if_pos hkeep, isFirst_cons_iff, isFirst_cons_iff, ih]
        simp [hkeep]
      · rw [if_neg hkeep, isFirst_cons_iff, ih]
        simp [hkeep]

theorem isFirst_congr {Q : α → Prop} (hPQ : ∀ other, P other ↔ Q other) {items : List α} :
    IsFirst P items item ↔ IsFirst Q items item := by
  obtain rfl : P = Q := funext fun other => propext (hPQ other)
  rfl

/-- In a list in order the first is the one that comes before all others with the property. -/
theorem isFirst_iff_of_pairwise {R : α → α → Prop} (hasymm : ∀ one two, R one two → ¬ R two one)
    {items : List α} (hitems : items.Pairwise R) :
    IsFirst P items item ↔
      item ∈ items ∧ P item ∧ ∀ other ∈ items, P other → ¬ R other item := by
  induction items with
  | nil => simp [not_isFirst_nil]
  | cons head items ih =>
      obtain ⟨hhead, hitems⟩ := List.pairwise_cons.mp hitems
      have hself : ∀ one, ¬ R one one := fun one hone => hasymm one one hone hone
      rw [isFirst_cons_iff, ih hitems, List.mem_cons, List.forall_mem_cons]
      constructor
      · rintro (⟨hfirst, rfl⟩ | ⟨hfirst, hmem, hitem, hleast⟩)
        · exact ⟨Or.inl rfl, hfirst, fun _ => hself _, fun other hother _ =>
            hasymm _ _ (hhead other hother)⟩
        · exact ⟨Or.inr hmem, hitem, fun hback => absurd hback hfirst, hleast⟩
      · rintro ⟨rfl | hmem, hitem, hfirst, hleast⟩
        · exact Or.inl ⟨hitem, rfl⟩
        · exact Or.inr ⟨fun hback => hfirst hback (hhead item hmem), hmem, hitem, hleast⟩

end IsFirst

/-- A traversal fails as its first step that does. -/
theorem mapM_eq_error_iff {step : α → Except ε β} {items : List α} {reason : ε} :
    items.mapM step = .error reason ↔
      ∃ item, IsFirst (fun other => Fails (step other)) items item ∧ step item = .error reason := by
  induction items with
  | nil => simp [pure, Except.pure, not_isFirst_nil]
  | cons head items ih =>
      rw [List.mapM_cons]
      cases hhead : step head with
      | error other => simp [isFirst_cons_iff, hhead, bind, Except.bind]
      | ok value =>
          simp only [isFirst_cons_iff, hhead, not_fails_ok, false_and, false_or, not_false_eq_true,
            true_and, ← ih]
          cases items.mapM step <;> simp [bind, Except.bind, pure, Except.pure]

theorem fails_mapM_iff {step : α → Except ε β} {items : List α} :
    Fails (items.mapM step) ↔ ∃ item ∈ items, Fails (step item) := by
  rw [← exists_isFirst_iff]
  constructor
  · rintro ⟨reason, hreason⟩
    obtain ⟨item, hfirst, -⟩ := mapM_eq_error_iff.mp hreason
    exact ⟨item, hfirst⟩
  · rintro ⟨item, hfirst⟩
    obtain ⟨reason, hreason⟩ := hfirst.1
    exact ⟨reason, mapM_eq_error_iff.mpr ⟨item, hfirst, hreason⟩⟩

end FilterSql
