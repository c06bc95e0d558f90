import Mathlib

/-!
# Lists taken through steps that can fail

A list goes through a partial step when each of its items does. Steps in a row can be taken item by
item or list by list, and failures with a cause can be told from those without one only by the
cause.
-/
namespace Dcpu16

variable {α β γ ε : Type}

/-- A list goes through a partial step exactly when its items do, one by one. -/
theorem mapM_eq_some_iff {step : α → Option β} {items : List α} {results : List β} :
    items.mapM step = some results ↔
      List.Forall₂ (fun item result => step item = some result) items results := by
  induction items generalizing results with
  | nil => simp [eq_comm]
  | cons item items ih =>
    rw [List.mapM_cons, List.forall₂_cons_left_iff]
    constructor
    · intro went
      obtain ⟨first, found, went⟩ := Option.bind_eq_some_iff.mp went
      obtain ⟨others, rest, last⟩ := Option.bind_eq_some_iff.mp went
      cases last
      exact ⟨first, others, found, ih.mp rest, rfl⟩
    · rintro ⟨first, others, found, rest, rfl⟩
      rw [found, ih.mpr rest]
      rfl

/-- A list goes through a step that no item fails. -/
theorem exists_mapM_eq_some {step : α → Option β}
    (total : ∀ item, ∃ result, step item = some result) (items : List α) :
    ∃ results, items.mapM step = some results := by
  induction items with
  | nil => exact ⟨[], rfl⟩
  | cons item items ih =>
    obtain ⟨result, found⟩ := total item
    obtain ⟨results, rest⟩ := ih
    exact ⟨result :: results, by rw [List.mapM_cons, found, rest]; rfl⟩

/-- Without a cause of failure a success stays what it is. -/
theorem toOption_eq_some_iff {outcome : Except ε α} {result : α} :
    outcome.toOption = some result ↔ outcome = .ok result := by
  cases outcome <;> simp [Except.toOption]

/-- Without its cause a failure of a list is a failure of an item. -/
theorem toOption_mapM (step : α → Except ε β) (items : List α) :
    (items.mapM step).toOption = items.mapM fun item => (step item).toOption := by
  induction items with
  | nil => rfl
  | cons item items ih =>
    rw [List.mapM_cons, List.mapM_cons, ← ih]
    cases step item with
    | error => rfl
    | ok =>
      cases items.mapM step <;> rfl

/-- A list goes through a step that gives a cause of failure exactly when its items do. -/
theorem mapM_eq_ok_iff {step : α → Except ε β} {items : List α} {results : List β} :
    items.mapM step = .ok results ↔
      List.Forall₂ (fun item result => step item = .ok result) items results := by
  rw [← toOption_eq_some_iff, toOption_mapM, mapM_eq_some_iff]
  simp only [toOption_eq_some_iff]

/-- A result that is used further is a result. -/
theorem map_eq_ok_iff {outcome : Except ε α} {next : α → β} {result : β} :
    outcome.map next = .ok result ↔ ∃ middle, outcome = .ok middle ∧ next middle = result := by
  cases outcome <;> simp [Except.map]

/-- The cause of a failure. -/
def failure? : Except ε α → Option ε
  | .error cause => some cause
  | .ok _ => none

/-- A failure is known by its cause. -/
theorem failure?_eq_some_iff {outcome : Except ε α} {cause : ε} :
    failure? outcome = some cause ↔ outcome = .error cause := by
  cases outcome <;> simp [failure?]

/-- What does not fail has a result. -/
theorem failure?_eq_none_iff {outcome : Except ε α} :
    failure? outcome = none ↔ ∃ result, outcome = .ok result := by
  cases outcome <;> simp [failure?]

/-- A result that is used further does not change the failure. -/
theorem failure?_map (outcome : Except ε α) (next : α → β) :
    failure? (outcome.map next) = failure? outcome := by
  cases outcome <;> rfl

/-- A failure that is put in another way is a failure for the same cause. -/
theorem failure?_mapError {ζ : Type} (outcome : Except ε α) (next : ε → ζ) :
    failure? (outcome.mapError next) = (failure? outcome).map next := by
  cases outcome <;> rfl

/-- A list fails as the first of its items that fails. -/
theorem failure?_mapM (step : α → Except ε β) (items : List α) :
    failure? (items.mapM step) = items.findSome? fun item => failure? (step item) := by
  induction items with
  | nil => rfl
  | cons item items ih =>
    rw [List.mapM_cons, List.findSome?_cons, ← ih]
    cases step item with
    | error => rfl
    | ok => cases items.mapM step <;> rfl

/-- Two steps in a row can be taken list by list or item by item. -/
theorem mapM_bind_mapM (first : α → Option β) (second : β → Option γ) (items : List α) :
    (items.mapM first).bind (List.mapM second) =
      items.mapM fun item => (first item).bind second := by
  induction items with
  | nil => rfl
  | cons item items ih =>
    rw [List.mapM_cons, List.mapM_cons, ← ih]
    cases first item with
    | none => rfl
    | some middle =>
      cases items.mapM first with
      | none => cases found : second middle <;> simp [found]
      | some middles => simp [List.mapM_cons]

/-- A list of lists goes through a step item by item. -/
theorem mapM_flatten (step : α → Option β) (lists : List (List α)) :
    lists.flatten.mapM step = (lists.mapM (List.mapM step)).map List.flatten := by
  induction lists with
  | nil => rfl
  | cons list lists ih =>
    rw [List.flatten_cons, List.mapM_append, List.mapM_cons, ih]
    cases list.mapM step with
    | none => rfl
    | some results => cases lists.mapM (List.mapM step) <;> rfl

/-- What the lists of several items hold goes through a step item by item. -/
theorem mapM_bind_flatten (first : α → Except ε (List β)) (second : β → Option γ)
    (items : List α) :
    ((items.mapM first).map List.flatten).toOption.bind (List.mapM second) =
      (items.mapM fun item => (first item).toOption.bind (List.mapM second)).map List.flatten := by
  have mapped : ((items.mapM first).map List.flatten).toOption =
      (items.mapM first).toOption.map List.flatten := by
    cases items.mapM first <;> rfl
  rw [← mapM_bind_mapM, ← toOption_mapM, mapped]
  cases (items.mapM first).toOption with
  | none => rfl
  | some lists => exact mapM_flatten second lists

/-- Lists of one result each are a list of results. -/
theorem mapM_singleton (step : α → Except ε β) (items : List α) :
    (items.mapM fun item => (step item).map fun result => [result]).map List.flatten =
      items.mapM step := by
  induction items with
  | nil => rfl
  | cons item items ih =>
    rw [List.mapM_cons, List.mapM_cons, ← ih]
    cases step item with
    | error cause => rfl
    | ok result => cases items.mapM fun item => (step item).map fun result => [result] <;> rfl

/-- What holds of every item behind those before it holds of all but the last, and of the last
behind them. -/
theorem forall_split_snoc {holds : List α → α → Prop} {front : List α} {last : α} :
    (∀ before item after, front ++ [last] = before ++ item :: after → holds before item) ↔
      (∀ before item after, front = before ++ item :: after → holds before item) ∧
        holds front last := by
  constructor
  · intro each
    refine ⟨fun before item after same => ?_, each front last [] rfl⟩
    refine each before item (after ++ [last]) ?_
    rw [same, List.append_assoc, List.cons_append]
  · rintro ⟨each, whole⟩ before item after same
    -- The item is the last one, or it stands in front of that.
    rcases List.eq_nil_or_concat after with rfl | ⟨middle, other, rfl⟩
    · obtain ⟨rfl, one⟩ := List.append_inj' same rfl
      cases one
      exact whole
    · have split : front ++ [last] = (before ++ item :: middle) ++ [other] := by
        rw [same, List.append_assoc, List.cons_append]
        simp
      obtain ⟨rfl, -⟩ := List.append_inj' split rfl
      exact each before item middle rfl

/-- Each item of a list is related to one of the list that it is related to item by item. -/
theorem exists_of_forall₂ {related : α → β → Prop} {items : List α} {results : List β}
    (each : List.Forall₂ related items results) {item : α} (member : item ∈ items) :
    ∃ result ∈ results, related item result := by
  induction each with
  | nil => cases member
  | @cons first result items results here _ ih =>
    rcases List.mem_cons.mp member with rfl | later
    · exact ⟨result, List.mem_cons_self, here⟩
    · obtain ⟨other, inside, related⟩ := ih later
      exact ⟨other, List.mem_cons_of_mem _ inside, related⟩

/-- Lists related item by item to a list between them are related through its items. -/
theorem forall₂_comp {first : α → β → Prop} {second : β → γ → Prop} {items : List α}
    {middles : List β} {results : List γ} (before : List.Forall₂ first items middles)
    (after : List.Forall₂ second middles results) :
    List.Forall₂ (fun item result => ∃ middle, first item middle ∧ second middle result) items
      results := by
  induction before generalizing results with
  | nil =>
    cases after
    exact .nil
  | cons here _ ih =>
    cases after with
    | cons there after => exact .cons ⟨_, here, there⟩ (ih after)

/-- Lists whose lengths are known one by one have these lengths. -/
theorem map_length_of_forall₂ {size : α → Nat} {items : List α} {lists : List (List β)}
    (each : List.Forall₂ (fun item list => list.length = size item) items lists) :
    lists.map List.length = items.map size := by
  induction each with
  | nil => rfl
  | cons same _ ih => rw [List.map_cons, List.map_cons, same, ih]

end Dcpu16
