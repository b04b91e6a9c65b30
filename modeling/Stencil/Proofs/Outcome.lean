import Mathlib.Tactic.Tauto
import Stencil.Fault

/-!
# Sequences of fallible steps

When a step that depends on the result of another succeeds, when all steps of a list do, and what
they then yield.
-/

namespace Stencil.Outcome

variable {α β γ : Type}

/-- What succeeds goes on with its result. -/
theorem ok_bind (first : α) (second : α → Outcome β) :
    (Except.ok first : Outcome α) >>= second = second first :=
  rfl

/-- Steps that go on alike from every result of a first one end alike behind it. -/
theorem bind_congr {first : Outcome α} {second other : α → Outcome β}
    (same : ∀ middle, first = .ok middle → second middle = other middle) :
    first >>= second = first >>= other := by
  cases first with
  | error fault => rfl
  | ok middle => exact same middle rfl

/-- Two steps in a row succeed if the first one does and the second does with its result. -/
theorem bind_eq_ok {first : Outcome α} {second : α → Outcome β} {last : β} :
    first >>= second = .ok last ↔ ∃ middle, first = .ok middle ∧ second middle = .ok last := by
  cases first with
  | error fault => simp [bind, Except.bind]
  | ok middle => simp [bind, Except.bind]

/-- Two computations fail in a row if the first fails, or succeeds and the second fails on its
result. -/
theorem bind_eq_error {first : Outcome α} {second : α → Outcome β} {fault : Fault} :
    first >>= second = .error fault ↔
      first = .error fault ∨ ∃ middle, first = .ok middle ∧ second middle = .error fault := by
  cases first with
  | error early => simp [bind, Except.bind]
  | ok middle => simp [bind, Except.bind]

/-- A mapped computation succeeds if and only if the computation does, with the image of its result.
-/
theorem map_eq_ok_iff {first : Outcome α} {image : α → β} {last : β} :
    (do return image (← first)) = .ok last ↔
      ∃ middle, first = .ok middle ∧ last = image middle := by
  rw [bind_eq_ok]
  exact exists_congr fun middle => and_congr_right fun _ =>
    ⟨fun same => (Except.ok.inj same).symm, fun same => congrArg Except.ok same.symm⟩

/-- Two steps of which the second does not ask for what the first one yields. -/
theorem both_eq_ok_iff {first : Outcome α} {second : Outcome β} {image : α → β → γ} {last : γ} :
    (do let left ← first; return image left (← second)) = .ok last ↔
      ∃ left right, first = .ok left ∧ second = .ok right ∧ last = image left right := by
  rw [bind_eq_ok]
  simp only [map_eq_ok_iff, exists_and_left]

/-- Steps that all succeed yield the list of their results. -/
theorem mapM_map_eq_ok {step : β → Outcome γ} {key : α → β} {image : α → γ} {items : List α}
    (succeeds : ∀ item ∈ items, step (key item) = .ok (image item)) :
    (items.map key).mapM step = .ok (items.map image) := by
  induction items with
  | nil => rfl
  | cons item rest ih =>
    rw [List.forall_mem_cons] at succeeds
    rw [List.map_cons, List.mapM_cons, succeeds.1, ih succeeds.2]
    rfl

/-- A step that succeeds on every item gives the images of all items. -/
theorem mapM_eq_ok_map {step : α → Outcome β} {image : α → β} {items : List α}
    (succeeds : ∀ item ∈ items, step item = .ok (image item)) :
    items.mapM step = .ok (items.map image) := by
  have taken := @mapM_map_eq_ok α α β step id image items succeeds
  rwa [List.map_id] at taken

/-- A step succeeds on a list if and only if it does on the first item and on the rest. -/
theorem mapM_cons_eq_ok {step : α → Outcome β} {item : α} {rest : List α} {images : List β} :
    (item :: rest).mapM step = .ok images ↔
      ∃ image others, step item = .ok image ∧ rest.mapM step = .ok others ∧
        images = image :: others := by
  rw [List.mapM_cons, both_eq_ok_iff]

/-- A step succeeds on joined lists if and only if it does on both of them. -/
theorem mapM_append_eq_ok {step : α → Outcome β} {front back : List α} {images : List β} :
    (front ++ back).mapM step = .ok images ↔
      ∃ first last, front.mapM step = .ok first ∧ back.mapM step = .ok last ∧
        images = first ++ last := by
  rw [List.mapM_append, both_eq_ok_iff]

/-- What steps yield is the result of one of them. -/
theorem length_of_mapM {step : α → Outcome β} {items : List α} {images : List β}
    (taken : items.mapM step = .ok images) : images.length = items.length := by
  induction items generalizing images with
  | nil =>
    cases taken
    rfl
  | cons item rest ih =>
    obtain ⟨first, others, -, later, rfl⟩ := mapM_cons_eq_ok.mp taken
    rw [List.length_cons, List.length_cons, ih later]

/-- Every result of a list is that of one of its items. -/
theorem exists_of_mem_mapM {step : α → Outcome β} {items : List α} {images : List β} {image : β}
    (taken : items.mapM step = .ok images) (member : image ∈ images) :
    ∃ item ∈ items, step item = .ok image := by
  induction items generalizing images with
  | nil =>
    cases taken
    cases member
  | cons item rest ih =>
    obtain ⟨first, others, here, restTaken, rfl⟩ := mapM_cons_eq_ok.mp taken
    rcases List.mem_cons.mp member with rfl | behind
    · exact ⟨item, List.mem_cons_self, here⟩
    · obtain ⟨later, inside, made⟩ := ih restTaken behind
      exact ⟨later, List.mem_cons_of_mem item inside, made⟩

/-- Every item of a list has a result. -/
theorem exists_of_mapM_mem {step : α → Outcome β} {items : List α} {images : List β} {item : α}
    (taken : items.mapM step = .ok images) (member : item ∈ items) :
    ∃ image, step item = .ok image ∧ image ∈ images := by
  induction items generalizing images with
  | nil => cases member
  | cons first rest ih =>
    obtain ⟨head, others, here, restTaken, rfl⟩ := mapM_cons_eq_ok.mp taken
    rcases List.mem_cons.mp member with rfl | behind
    · exact ⟨head, here, List.mem_cons_self⟩
    · obtain ⟨image, made, inside⟩ := ih restTaken behind
      exact ⟨image, made, List.mem_cons_of_mem head inside⟩

/-- What steps yield are the results of each of them. -/
theorem mem_mapM_iff {step : α → Outcome β} {items : List α} {images : List β} {image : β}
    (taken : items.mapM step = .ok images) :
    image ∈ images ↔ ∃ item ∈ items, step item = .ok image := by
  refine ⟨exists_of_mem_mapM taken, ?_⟩
  rintro ⟨item, member, made⟩
  obtain ⟨other, same, inside⟩ := exists_of_mapM_mem taken member
  cases made.symm.trans same
  exact inside

/-- Steps that end alike item by item end alike together. -/
theorem mapM_congr {step other : α → Outcome β} {items : List α}
    (same : ∀ item ∈ items, step item = other item) : items.mapM step = items.mapM other := by
  induction items with
  | nil => rfl
  | cons item rest ih =>
    rw [List.forall_mem_cons] at same
    rw [List.mapM_cons, List.mapM_cons, same.1, ih same.2]

/-- There is a result. -/
def Succeeds (outcome : Outcome α) : Prop :=
  ∃ result, outcome = .ok result

/-- A result is a success. -/
theorem succeeds_ok (result : α) : Succeeds (.ok result) :=
  ⟨result, rfl⟩

/-- A fault is no success. -/
theorem not_succeeds_error (fault : Fault) : ¬Succeeds (.error fault : Outcome α) := by
  rintro ⟨result, same⟩
  cases same

/-- An outcome is said to be a result if and only if it succeeds. -/
theorem isOk_iff {outcome : Outcome α} : outcome.isOk = true ↔ Succeeds outcome := by
  cases outcome with
  | error fault => exact iff_of_false nofun (not_succeeds_error fault)
  | ok result => exact iff_of_true rfl (succeeds_ok result)

/-- Two computations succeed in a row if the first does, and the second on its result. -/
theorem succeeds_bind_iff {first : Outcome α} {second : α → Outcome β} :
    Succeeds (first >>= second) ↔ ∃ middle, first = .ok middle ∧ Succeeds (second middle) := by
  simp only [Succeeds, bind_eq_ok]
  constructor
  · rintro ⟨last, middle, taken, concludes⟩
    exact ⟨middle, taken, last, concludes⟩
  · rintro ⟨middle, taken, last, concludes⟩
    exact ⟨last, middle, taken, concludes⟩

/-- A step with a last touch succeeds if the step does. -/
theorem succeeds_map_iff {first : Outcome α} {image : α → β} :
    Succeeds (do return image (← first)) ↔ Succeeds first := by
  rw [succeeds_bind_iff]
  exact ⟨fun ⟨middle, taken, _⟩ => ⟨middle, taken⟩,
    fun ⟨middle, taken⟩ => ⟨middle, taken, succeeds_ok _⟩⟩

/-- A step succeeds on a list if and only if it does on every item. -/
theorem mapM_succeeds_iff {step : α → Outcome β} {items : List α} :
    Succeeds (items.mapM step) ↔ ∀ item ∈ items, Succeeds (step item) := by
  induction items with
  | nil => exact ⟨fun _ => List.forall_mem_nil _, fun _ => ⟨[], rfl⟩⟩
  | cons item rest ih =>
    rw [List.forall_mem_cons, ← ih]
    constructor
    · rintro ⟨images, taken⟩
      obtain ⟨image, others, here, restTaken, -⟩ := mapM_cons_eq_ok.mp taken
      exact ⟨⟨image, here⟩, others, restTaken⟩
    · rintro ⟨⟨image, here⟩, others, restTaken⟩
      exact ⟨image :: others, mapM_cons_eq_ok.mpr ⟨image, others, here, restTaken, rfl⟩⟩

/-- A step that is taken for items in order fails with a fault at the first item at which it fails
at all. -/
def FailsFirst (step : α → Outcome β) (items : List α) (fault : Fault) : Prop :=
  ∃ before item after, items = before ++ item :: after ∧
    (∀ earlier ∈ before, Succeeds (step earlier)) ∧ step item = .error fault

theorem not_failsFirst_nil {step : α → Outcome β} {fault : Fault} : ¬ FailsFirst step [] fault := by
  intro fails
  obtain ⟨before, item, after, parts, -⟩ := fails
  exact List.append_ne_nil_of_right_ne_nil before (List.cons_ne_nil item after) parts.symm

theorem failsFirst_cons_iff {step : α → Outcome β} {item : α} {rest : List α} {fault : Fault} :
    FailsFirst step (item :: rest) fault ↔
      step item = .error fault ∨ Succeeds (step item) ∧ FailsFirst step rest fault := by
  constructor
  · intro fails
    obtain ⟨before, failing, after, parts, succeed, failed⟩ := fails
    cases before with
    | nil =>
      cases parts
      exact Or.inl failed
    | cons first others =>
      cases parts
      rw [List.forall_mem_cons] at succeed
      exact Or.inr ⟨succeed.1, others, failing, after, rfl, succeed.2, failed⟩
  · intro fails
    cases fails with
    | inl failed =>
      exact ⟨[], item, rest, rfl, List.forall_mem_nil _, failed⟩
    | inr later =>
      obtain ⟨succeeds, before, failing, after, parts, succeed, failed⟩ := later
      rw [parts]
      exact ⟨item :: before, failing, after, rfl,
        List.forall_mem_cons.mpr ⟨succeeds, succeed⟩, failed⟩

/-- The first failure of joined lists is that of the first list, or that of the second. -/
theorem failsFirst_append_iff {step : α → Outcome β} {front back : List α} {fault : Fault} :
    FailsFirst step (front ++ back) fault ↔
      FailsFirst step front fault ∨
        (∀ item ∈ front, Succeeds (step item)) ∧ FailsFirst step back fault := by
  induction front with
  | nil => simp [not_failsFirst_nil]
  | cons item rest ih =>
    rw [List.cons_append, failsFirst_cons_iff, failsFirst_cons_iff, ih, List.forall_mem_cons]
    tauto

/-- A step succeeds for all items, or there is one at which it fails first. -/
theorem succeeds_or_failsFirst (step : α → Outcome β) (items : List α) :
    (∀ item ∈ items, Succeeds (step item)) ∨ ∃ fault, FailsFirst step items fault := by
  induction items with
  | nil => exact Or.inl (List.forall_mem_nil _)
  | cons item rest ih =>
    cases taken : step item with
    | error fault => exact Or.inr ⟨fault, failsFirst_cons_iff.mpr (Or.inl taken)⟩
    | ok image =>
      have here : Succeeds (step item) := ⟨image, taken⟩
      cases ih with
      | inl succeed => exact Or.inl (List.forall_mem_cons.mpr ⟨here, succeed⟩)
      | inr fails =>
        obtain ⟨fault, later⟩ := fails
        exact Or.inr ⟨fault, failsFirst_cons_iff.mpr (Or.inr ⟨here, later⟩)⟩

/-- What fails exactly where a step fails first succeeds exactly where the step always does. -/
theorem succeeds_iff_of_failsFirst {outcome : Outcome γ} {step : α → Outcome β} {items : List α}
    (fails : ∀ fault, outcome = .error fault ↔ FailsFirst step items fault) :
    Succeeds outcome ↔ ∀ item ∈ items, Succeeds (step item) := by
  constructor
  · intro succeeds
    obtain ⟨result, taken⟩ := succeeds
    cases succeeds_or_failsFirst step items with
    | inl succeed => exact succeed
    | inr failed =>
      obtain ⟨fault, first⟩ := failed
      cases taken.symm.trans ((fails fault).mpr first)
  · intro succeed
    cases taken : outcome with
    | ok result => exact succeeds_ok result
    | error fault =>
      obtain ⟨before, item, after, parts, -, failed⟩ := (fails fault).mp taken
      have member : item ∈ items := parts ▸ List.mem_append_right before List.mem_cons_self
      obtain ⟨image, made⟩ := succeed item member
      cases made.symm.trans failed

/-- A mapped computation fails as the computation does. -/
theorem map_eq_error_iff {first : Outcome α} {image : α → β} {fault : Fault} :
    (do return image (← first)) = .error fault ↔ first = .error fault := by
  cases first with
  | error early => simp [bind, Except.bind]
  | ok middle => simp [bind, Except.bind, pure, Except.pure]

/-- A last touch to each result does not matter to the first fault. -/
theorem failsFirst_map_iff {step : α → Outcome β} {image : β → γ} {items : List α}
    {fault : Fault} :
    FailsFirst (fun item => do return image (← step item)) items fault ↔
      FailsFirst step items fault := by
  simp only [FailsFirst, succeeds_map_iff, map_eq_error_iff]

/-- Two computations of one result fail as the first does, or as the second if the first succeeds.
-/
theorem both_eq_error_iff {first : Outcome α} {second : Outcome β} {image : α → β → γ}
    {fault : Fault} :
    (do let left ← first; return image left (← second)) = .error fault ↔
      first = .error fault ∨ Succeeds first ∧ second = .error fault := by
  cases first with
  | error early => simp [bind, Except.bind, not_succeeds_error]
  | ok middle =>
    rw [ok_bind, map_eq_error_iff]
    simp [succeeds_ok]

/-- How an outcome may end: with a result of some kind or with a fault of some kind. -/
def Ends (good : α → Prop) (bad : Fault → Prop) (outcome : Outcome α) : Prop :=
  match outcome with
  | .ok result => good result
  | .error fault => bad fault

theorem Ends.bind {first : Outcome α} {second : α → Outcome β} {between : α → Prop}
    {good : β → Prop} {bad : Fault → Prop} (start : Ends between bad first)
    (goesOn : ∀ middle, between middle → Ends good bad (second middle)) :
    Ends good bad (first >>= second) := by
  cases first with
  | ok middle => exact goesOn middle start
  | error fault => exact start

/-- An outcome fails, if it does, with a fault of some kind. -/
abbrev FailsBy (bad : Fault → Prop) (outcome : Outcome α) : Prop :=
  Ends (fun _ => True) bad outcome

theorem FailsBy.bind {first : Outcome α} {second : α → Outcome β} {bad : Fault → Prop}
    (start : FailsBy bad first) (goesOn : ∀ middle, FailsBy bad (second middle)) :
    FailsBy bad (first >>= second) :=
  Ends.bind start fun middle _ => goesOn middle

/-- Steps that succeed item by item for a reason succeed together for a list of reasons. -/
theorem exists_of_mapM_eq_ok {step : α → Outcome β} {reason : γ → Prop} {key : γ → α}
    {image : γ → β} (single : ∀ item result, step item = .ok result →
      ∃ cause, key cause = item ∧ image cause = result ∧ reason cause)
    {items : List α} {images : List β} (taken : items.mapM step = .ok images) :
    ∃ causes : List γ, items = causes.map key ∧ images = causes.map image ∧
      ∀ cause ∈ causes, reason cause := by
  induction items generalizing images with
  | nil =>
    cases taken
    exact ⟨[], rfl, rfl, by simp⟩
  | cons item rest ih =>
    obtain ⟨result, others, here, restTaken, rfl⟩ := mapM_cons_eq_ok.mp taken
    obtain ⟨cause, rfl, rfl, holds⟩ := single item result here
    obtain ⟨causes, rfl, rfl, allHold⟩ := ih restTaken
    exact ⟨cause :: causes, rfl, rfl, List.forall_mem_cons.mpr ⟨holds, allHold⟩⟩

/-- Tests that all succeed keep the items that pass them. -/
theorem filterM_map_eq_ok {test : β → Outcome Bool} {key : α → β} {passes : α → Bool}
    {items : List α} (succeeds : ∀ item ∈ items, test (key item) = .ok (passes item)) :
    (items.map key).filterM test = .ok ((items.filter passes).map key) := by
  suffices aux : ∀ kept, (items.map key).filterAuxM test kept =
      .ok (((items.filter passes).map key).reverse ++ kept) by
    rw [List.filterM, aux]
    simp [bind, Except.bind, pure, Except.pure]
  induction items with
  | nil => exact fun kept => rfl
  | cons item rest ih =>
    intro kept
    rw [List.forall_mem_cons] at succeeds
    rw [List.map_cons, List.filterAuxM, succeeds.1]
    change (rest.map key).filterAuxM test (cond (passes item) (key item :: kept) kept) = _
    rw [ih succeeds.2]
    cases taken : passes item <;> simp [taken]

/-- If a test succeeds on every item, those that pass are filtered. -/
theorem filterM_eq_ok {test : α → Outcome Bool} {passes : α → Bool} {items : List α}
    (succeeds : ∀ item ∈ items, test item = .ok (passes item)) :
    items.filterM test = .ok (items.filter passes) := by
  have kept := @filterM_map_eq_ok α α test id passes items succeeds
  rwa [List.map_id, List.map_id] at kept

/-- Tests that agree on the items filter the same ones. -/
theorem filterM_congr {test other : α → Outcome Bool} {items : List α}
    (same : ∀ item ∈ items, test item = other item) : items.filterM test = items.filterM other := by
  suffices aux : ∀ kept, items.filterAuxM test kept = items.filterAuxM other kept by
    rw [List.filterM, List.filterM, aux]
  induction items with
  | nil => exact fun kept => rfl
  | cons item rest ih =>
    intro kept
    rw [List.forall_mem_cons] at same
    rw [List.filterAuxM, List.filterAuxM, same.1]
    simp only [ih same.2]

end Stencil.Outcome
