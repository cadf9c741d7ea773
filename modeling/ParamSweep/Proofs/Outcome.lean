import Mathlib.Data.List.Forall2

/-! Outcomes of steps that may fail. A chain of steps succeeds exactly when each of its steps does, and
a walk over a list exactly when its step succeeds at every item; else it reports the first failure. -/

namespace ParamSweep.Outcome

universe u v

variable {ε ε' : Type u} {α β γ : Type v}

@[simp] theorem ok_bind (value : α) (next : α → Except ε β) : (Except.ok value >>= next) = next value := rfl

@[simp] theorem error_bind (error : ε) (next : α → Except ε β) :
    (Except.error error >>= next) = .error error := rfl

@[simp] theorem map_ok (value : α) (f : α → β) : (Except.ok value : Except ε α).map f = .ok (f value) := rfl

@[simp] theorem map_error (error : ε) (f : α → β) : (Except.error error : Except ε α).map f = .error error := rfl

@[simp] theorem mapError_ok (value : α) (f : ε → ε') : (Except.ok value).mapError f = .ok value := rfl

@[simp] theorem mapError_error (error : ε) (f : ε → ε') :
    (Except.error error : Except ε α).mapError f = .error (f error) := rfl

theorem bind_eq_ok_iff {first : Except ε α} {next : α → Except ε β} {last : β} :
    (first >>= next) = .ok last ↔ ∃ value, first = .ok value ∧ next value = .ok last := by
  cases first <;> simp

theorem bind_eq_error_iff {first : Except ε α} {next : α → Except ε β} {error : ε} :
    (first >>= next) = .error error ↔
      first = .error error ∨ ∃ value, first = .ok value ∧ next value = .error error := by
  cases first <;> simp

theorem map_eq_ok_iff {outcome : Except ε α} {f : α → β} {last : β} :
    outcome.map f = .ok last ↔ ∃ value, outcome = .ok value ∧ f value = last := by
  cases outcome <;> simp

theorem exists_map_eq_ok_iff {outcome : Except ε α} {f : α → β} :
    (∃ last, outcome.map f = .ok last) ↔ ∃ value, outcome = .ok value := by
  cases outcome <;> simp

theorem map_eq_error_iff {outcome : Except ε α} {f : α → β} {error : ε} :
    outcome.map f = .error error ↔ outcome = .error error := by
  cases outcome <;> simp

theorem mapError_eq_ok_iff {outcome : Except ε α} {f : ε → ε'} {value : α} :
    outcome.mapError f = .ok value ↔ outcome = .ok value := by
  cases outcome <;> simp

theorem mapError_eq_error_iff {outcome : Except ε α} {f : ε → ε'} {error : ε'} :
    outcome.mapError f = .error error ↔ ∃ cause, outcome = .error cause ∧ f cause = error := by
  cases outcome <;> simp

theorem mapM_eq_ok_iff {step : α → Except ε β} {items : List α} {results : List β} :
    items.mapM step = .ok results ↔ List.Forall₂ (fun item result => step item = .ok result) items results := by
  induction items generalizing results with
  | nil => cases results <;> simp [pure, Except.pure]
  | cons item rest ih =>
    rw [List.mapM_cons]
    cases found : step item with
    | error error => cases results <;> simp [found]
    | ok result =>
      cases remaining : rest.mapM step with
      | error error => cases results <;> simp [found, ← ih, remaining]
      | ok others => cases results <;> simp [found, ← ih, remaining, pure, Except.pure]

theorem exists_result_of_mem {related : α → β → Prop} {items : List α} {results : List β}
    (pairs : List.Forall₂ related items results) {item : α} (member : item ∈ items) :
    ∃ result ∈ results, related item result := by
  induction pairs with
  | nil => cases member
  | cons here _ ih =>
    rcases List.mem_cons.mp member with rfl | later
    · exact ⟨_, List.mem_cons_self, here⟩
    · obtain ⟨result, found, holds⟩ := ih later
      exact ⟨result, List.mem_cons_of_mem _ found, holds⟩

theorem exists_item_of_mem {related : α → β → Prop} {items : List α} {results : List β}
    (pairs : List.Forall₂ related items results) {result : β} (member : result ∈ results) :
    ∃ item ∈ items, related item result :=
  exists_result_of_mem pairs.flip member

theorem exists_result_at {related : α → β → Prop} {items : List α} {results : List β}
    (pairs : List.Forall₂ related items results) {index : Nat} {item : α} (found : items[index]? = some item) :
    ∃ result, results[index]? = some result ∧ related item result := by
  induction pairs generalizing index with
  | nil => cases found
  | cons here _ ih =>
    cases index with
    | zero =>
      cases found
      exact ⟨_, rfl, here⟩
    | succ index => exact ih found

/-- A walk with another step succeeds where that step succeeds at every item of a walk that did. -/
theorem exists_mapM_eq_ok {step : α → Except ε γ} {related : β → γ → Prop} {items : List α}
    {results : List β}
    (pairs : List.Forall₂ (fun item result => ∃ other, step item = .ok other ∧ related result other)
      items results) :
    ∃ others, items.mapM step = .ok others ∧ List.Forall₂ related results others := by
  induction pairs with
  | nil => exact ⟨[], rfl, .nil⟩
  | cons here _ ih =>
    obtain ⟨other, taken, holds⟩ := here
    obtain ⟨others, walked, pairs⟩ := ih
    refine ⟨other :: others, ?_, .cons holds pairs⟩
    rw [List.mapM_cons, taken, walked]
    rfl

/-- A walk fails with what its step reports at the first item where it does. -/
theorem mapM_eq_error_iff {step : α → Except ε β} {items : List α} {error : ε} :
    items.mapM step = .error error ↔
      ∃ before item after, items = before ++ item :: after ∧
        (∀ earlier ∈ before, ∃ result, step earlier = .ok result) ∧ step item = .error error := by
  induction items with
  | nil =>
    constructor
    · intro failed
      cases failed
    · rintro ⟨before, item, after, impossible, -⟩
      simp at impossible
  | cons first rest ih =>
    rw [List.mapM_cons, bind_eq_error_iff]
    constructor
    · rintro (here | ⟨result, taken, later⟩)
      · exact ⟨[], first, rest, rfl, by simp, here⟩
      · rcases bind_eq_error_iff.mp later with there | ⟨others, -, impossible⟩
        · obtain ⟨before, item, after, rfl, passed, reported⟩ := ih.mp there
          refine ⟨first :: before, item, after, rfl, ?_, reported⟩
          intro earlier member
          rcases List.mem_cons.mp member with rfl | member
          · exact ⟨result, taken⟩
          · exact passed earlier member
        · cases impossible
    · rintro ⟨before, item, after, cut, passed, reported⟩
      cases before with
      | nil =>
        cases cut
        exact .inl reported
      | cons head before =>
        cases cut
        obtain ⟨result, taken⟩ := passed first List.mem_cons_self
        refine .inr ⟨result, taken, bind_eq_error_iff.mpr (.inl ?_)⟩
        exact ih.mpr ⟨before, item, after, rfl,
          fun earlier member => passed earlier (List.mem_cons_of_mem _ member), reported⟩

theorem exists_of_mapM_eq_error {step : α → Except ε β} {items : List α} {error : ε}
    (failed : items.mapM step = .error error) : ∃ item ∈ items, step item = .error error := by
  obtain ⟨before, item, after, rfl, -, reported⟩ := mapM_eq_error_iff.mp failed
  exact ⟨item, List.mem_append_right before List.mem_cons_self, reported⟩

theorem map_mapM (step : α → Except ε β) (f : β → γ) (items : List α) :
    (items.mapM step).map (List.map f) = items.mapM fun item => (step item).map f := by
  induction items with
  | nil => rfl
  | cons item rest ih =>
    simp only [List.mapM_cons, ← ih]
    cases step item with
    | error error => rfl
    | ok result => cases rest.mapM step <;> rfl

theorem mapM_congr {left right : α → Except ε β} {items : List α} (same : ∀ item ∈ items, left item = right item) :
    items.mapM left = items.mapM right := by
  induction items with
  | nil => rfl
  | cons first rest ih =>
    rw [List.mapM_cons, List.mapM_cons, same first List.mem_cons_self,
      ih fun item member => same item (List.mem_cons_of_mem _ member)]

/-- A walk over the parts of items is a walk over the items that walks the parts of each. -/
theorem mapM_flatMap (parts : γ → List α) (step : α → Except ε β) (items : List γ) :
    (items.flatMap parts).mapM step = (items.mapM fun item => (parts item).mapM step).map List.flatten := by
  induction items with
  | nil => rfl
  | cons first rest ih =>
    rw [List.flatMap_cons, List.mapM_append, List.mapM_cons, ih]
    cases (parts first).mapM step with
    | error error => rfl
    | ok results => cases rest.mapM fun item => (parts item).mapM step <;> rfl

/-- What is made of results afterwards has no part in which failure a walk reports. -/
theorem mapM_map_eq_error_iff {step : α → Except ε β} {make : α → β → γ} {items : List α} {error : ε} :
    (items.mapM fun item => (step item).map (make item)) = .error error ↔ items.mapM step = .error error := by
  rw [mapM_eq_error_iff, mapM_eq_error_iff]
  simp only [map_eq_error_iff, exists_map_eq_ok_iff]

/-- Steps that walk to the same results are the same at every item. -/
theorem eq_of_mapM_eq_ok {left right : α → Except ε β} {items : List α} {results : List β}
    (first : items.mapM left = .ok results) (second : items.mapM right = .ok results) :
    ∀ item ∈ items, left item = right item := by
  have pairs := mapM_eq_ok_iff.mp first
  have others := mapM_eq_ok_iff.mp second
  clear first second
  induction pairs with
  | nil => simp
  | cons here _ ih =>
    cases others with
    | cons there others =>
      intro item member
      rcases List.mem_cons.mp member with rfl | member
      · rw [here, there]
      · exact ih others item member

end ParamSweep.Outcome
