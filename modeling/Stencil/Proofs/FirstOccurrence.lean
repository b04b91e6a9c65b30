import Mathlib.Data.List.Basic
import Mathlib.Data.List.Induction
import Mathlib.Tactic.SplitIfs

/-!
# First occurrences

The items of a list that bring a key for the first time, in order. A list that grows at its end
gains a first occurrence if the key of the new item is new (`firstOn_concat`), and the keys of the
first occurrences are the keys without repeats (`map_firstOn`).
-/

namespace Stencil

variable {α β γ : Type} [DecidableEq β]

/-- The items whose keys no earlier item has. -/
def firstOn (key : α → β) (items : List α) : List α :=
  items.eraseDupsBy fun kept new => key kept == key new

@[simp] theorem firstOn_nil (key : α → β) : firstOn key ([] : List α) = [] := rfl

theorem firstOn_cons (key : α → β) (item : α) (rest : List α) :
    firstOn key (item :: rest) =
      item :: firstOn key (rest.filter fun other => key other != key item) := by
  rw [firstOn, List.eraseDupsBy_cons, firstOn]
  simp only [bne, Bool.decide_eq_false]

theorem firstOn_eq_nil_iff {key : α → β} {items : List α} :
    firstOn key items = [] ↔ items = [] := by
  cases items with
  | nil => simp
  | cons item rest => simp [firstOn_cons]

/-- What stays is one of the items. -/
theorem mem_of_mem_firstOn {key : α → β} {items : List α} {item : α}
    (first : item ∈ firstOn key items) : item ∈ items := by
  match items with
  | [] => cases first
  | head :: rest =>
    rw [firstOn_cons, List.mem_cons] at first
    rcases first with rfl | later
    · exact List.mem_cons_self
    · exact List.mem_cons_of_mem _ (List.mem_of_mem_filter (mem_of_mem_firstOn later))
termination_by items.length
decreasing_by exact Nat.lt_succ_of_le (List.length_filter_le _ _)

/-- The first occurrences of images are the images of first occurrences. -/
theorem firstOn_map (key : γ → β) (image : α → γ) (items : List α) :
    firstOn key (items.map image) = (firstOn (key ∘ image) items).map image := by
  match items with
  | [] => rfl
  | item :: rest =>
    rw [List.map_cons, firstOn_cons, firstOn_cons, List.map_cons, List.filter_map,
      firstOn_map key image]
    rfl
termination_by items.length
decreasing_by exact Nat.lt_succ_of_le (List.length_filter_le _ _)

/-- The keys of the first occurrences are the keys, each once. -/
theorem map_firstOn (key : α → β) (items : List α) :
    (firstOn key items).map key = (items.map key).eraseDups :=
  (firstOn_map id key items).symm

/-- Every item has its key from a first occurrence. -/
theorem exists_mem_firstOn {key : α → β} {items : List α} {item : α} (member : item ∈ items) :
    ∃ first ∈ firstOn key items, key first = key item := by
  refine List.mem_map.mp ?_
  rw [map_firstOn, List.mem_eraseDups]
  exact List.mem_map_of_mem member

/-- An item at the end of a list is a first occurrence if its key is new. -/
theorem firstOn_concat (key : α → β) (items : List α) (last : α) :
    firstOn key (items ++ [last]) =
      if key last ∈ items.map key then firstOn key items else firstOn key items ++ [last] := by
  match items with
  | [] => rfl
  | item :: rest =>
    rw [List.cons_append, firstOn_cons, List.filter_append, firstOn_cons, List.map_cons]
    by_cases same : key last = key item
    · simp [same]
    · have kept : [last].filter (fun other => key other != key item) = [last] := by simp [same]
      have known : key last ∈ (rest.filter fun other => key other != key item).map key ↔
          key last ∈ key item :: rest.map key := by
        rw [List.mem_cons, or_iff_right same, List.mem_map, List.mem_map]
        constructor
        · rintro ⟨other, member, equal⟩
          exact ⟨other, List.mem_of_mem_filter member, equal⟩
        · rintro ⟨other, member, equal⟩
          exact ⟨other, List.mem_filter.mpr ⟨member, by simpa [equal] using same⟩, equal⟩
      rw [kept, firstOn_concat key _ last, ite_cond_congr (propext known)]
      split_ifs <;> rfl
termination_by items.length
decreasing_by exact Nat.lt_succ_of_le (List.length_filter_le _ _)

/-- A list without repeats that grows at its end gains the new item if it is new. -/
theorem eraseDups_concat (items : List β) (last : β) :
    (items ++ [last]).eraseDups =
      if last ∈ items then items.eraseDups else items.eraseDups ++ [last] := by
  have grown := firstOn_concat id items last
  rwa [List.map_id] at grown

/-- Distinct items have no duplicates to erase. -/
theorem eraseDups_of_nodup {items : List β} (distinct : items.Nodup) : items.eraseDups = items := by
  induction items using List.reverseRecOn with
  | nil => rfl
  | append_singleton items last ih =>
    obtain ⟨front, -, apart⟩ := List.nodup_append.mp distinct
    have fresh : last ∉ items := fun member =>
      apart last member last (List.mem_singleton_self last) rfl
    rw [eraseDups_concat, if_neg fresh, ih front]

/-- Erasing duplicates twice is erasing them once. -/
theorem eraseDups_eraseDups (items : List β) : items.eraseDups.eraseDups = items.eraseDups := by
  induction items using List.reverseRecOn with
  | nil => rfl
  | append_singleton items last ih =>
    rw [eraseDups_concat]
    split_ifs with known
    · exact ih
    · have fresh : last ∉ items.eraseDups := fun listed => known (List.mem_eraseDups.mp listed)
      rw [eraseDups_concat, if_neg fresh, ih]

/-- A list without repeats keeps the order in which its items first occur. -/
theorem pairwise_idxOf_eraseDups (items : List β) :
    items.eraseDups.Pairwise fun first second => items.idxOf first < items.idxOf second := by
  induction items using List.reverseRecOn with
  | nil => exact .nil
  | append_singleton items last ih =>
    have kept {item : β} (listed : item ∈ items.eraseDups) :
        (items ++ [last]).idxOf item = items.idxOf item :=
      List.idxOf_append_of_mem (List.mem_eraseDups.mp listed)
    have front : items.eraseDups.Pairwise fun first second =>
        (items ++ [last]).idxOf first < (items ++ [last]).idxOf second := by
      refine ih.imp_of_mem fun first second before => ?_
      rwa [kept first, kept second]
    rw [eraseDups_concat]
    split_ifs with known
    · exact front
    · refine List.pairwise_append.mpr ⟨front, List.pairwise_singleton _ _, ?_⟩
      intro item listed other new
      rw [List.mem_singleton.mp new, kept listed, List.idxOf_append_of_notMem known]
      exact Nat.lt_add_right _ (List.idxOf_lt_length_iff.mpr (List.mem_eraseDups.mp listed))

/-- What stays when duplicates are erased is distinct. -/
theorem nodup_eraseDups (items : List β) : items.eraseDups.Nodup := by
  refine (pairwise_idxOf_eraseDups items).imp ?_
  rintro first _ before rfl
  exact Nat.lt_irrefl _ before

/-- It does not matter whether lists are freed of repeats before they are put together. -/
theorem eraseDups_append_eraseDups (front back : List β) :
    (front.eraseDups ++ back.eraseDups).eraseDups = (front ++ back).eraseDups := by
  induction back using List.reverseRecOn with
  | nil =>
    rw [List.append_nil, List.eraseDups_nil, List.append_nil, eraseDups_eraseDups]
  | append_singleton back last ih =>
    have listed : last ∈ front.eraseDups ++ back.eraseDups ↔ last ∈ front ++ back := by
      simp only [List.mem_append, List.mem_eraseDups]
    rw [← List.append_assoc, eraseDups_concat, eraseDups_concat, ← ih]
    by_cases repeated : last ∈ back
    · have known : last ∈ front ++ back := List.mem_append_right front repeated
      rw [if_pos repeated, if_pos known]
    · rw [if_neg repeated, ← List.append_assoc, eraseDups_concat, ite_cond_congr (propext listed)]

/-- Duplicates can be erased before or after a test. -/
theorem eraseDups_filter (test : β → Bool) (items : List β) :
    (items.filter test).eraseDups = items.eraseDups.filter test := by
  induction items using List.reverseRecOn with
  | nil => rfl
  | append_singleton items last ih =>
    rw [eraseDups_concat, List.filter_append]
    cases passes : test last with
    | false =>
      have dropped : [last].filter test = [] := by simp [passes]
      rw [dropped, List.append_nil, ih]
      split_ifs
      · rfl
      · rw [List.filter_append, dropped, List.append_nil]
    | true =>
      have kept : [last].filter test = [last] := by simp [passes]
      rw [kept, eraseDups_concat, ih]
      simp only [List.mem_filter, passes, and_true]
      split_ifs
      · rfl
      · rw [List.filter_append, kept]

/-- Images that the keys determine lose nothing but repeats when only first occurrences stay. -/
theorem eraseDups_map_firstOn [DecidableEq γ] {key : α → β} {image : α → γ} {items : List α}
    (determined : ∀ item ∈ items, ∀ other ∈ items, key item = key other →
      image item = image other) :
    ((firstOn key items).map image).eraseDups = (items.map image).eraseDups := by
  induction items using List.reverseRecOn with
  | nil => rfl
  | append_singleton items last ih =>
    have smaller := ih fun item member other also =>
      determined item (List.mem_append_left _ member) other (List.mem_append_left _ also)
    rw [firstOn_concat, List.map_append, List.map_singleton, eraseDups_concat]
    split_ifs with known seen seen
    · exact smaller
    · obtain ⟨other, member, same⟩ := List.mem_map.mp known
      have equal := determined other (List.mem_append_left _ member) last
        (List.mem_append_right _ List.mem_cons_self) same
      exact absurd (List.mem_map.mpr ⟨other, member, equal⟩) seen
    · have first : image last ∈ (firstOn key items).map image := by
        rwa [← List.mem_eraseDups, smaller, List.mem_eraseDups]
      rw [List.map_append, List.map_singleton, eraseDups_concat, if_pos first, smaller]
    · have first : image last ∉ (firstOn key items).map image := by
        rwa [← List.mem_eraseDups, smaller, List.mem_eraseDups]
      rw [List.map_append, List.map_singleton, eraseDups_concat, if_neg first, smaller]

end Stencil
