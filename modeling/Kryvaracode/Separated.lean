import Mathlib

-- Lists joined by a separator that none of them holds.
namespace Separated
variable {α : Type*} {sep : α}

def Parts (sep : α) (parts : List (List α)) : Prop := parts ≠ [] ∧ ∀ part ∈ parts, sep ∉ part

theorem cut_unique {one two back rest : List α} (left : sep ∉ one) (right : sep ∉ two)
    (same : one ++ sep :: back = two ++ sep :: rest) : one = two ∧ back = rest := by
  induction one generalizing two with
  | nil =>
      cases two with
      | nil => exact ⟨rfl,(List.cons.inj same).2⟩
      | cons d two => exact absurd ((List.cons.inj same).1 ▸ List.mem_cons_self) right
  | cons d one ih =>
      cases two with
      | nil => exact absurd ((List.cons.inj same).1 ▸ List.mem_cons_self) left
      | cons e two =>
          obtain ⟨rfl,tails⟩ := List.cons.inj same
          obtain ⟨rfl,rfl⟩ := ih (fun inside => left (.tail d inside)) (fun inside => right (.tail d inside)) tails
          exact ⟨rfl,rfl⟩

-- Cut at the first separator.
theorem cut_first [DecidableEq α] {one : List α} (apart : sep ∉ one) (back : List α) :
    (one ++ sep :: back).takeWhile (· ≠ sep) = one ∧ ((one ++ sep :: back).dropWhile (· ≠ sep)).drop 1 = back := by
  have passes : ∀ d ∈ one, decide (d ≠ sep) = true := by
    intro d member
    apply decide_eq_true
    rintro rfl
    exact apart member
  refine ⟨?_,?_⟩
  · rw [List.takeWhile_append_of_pos passes,List.takeWhile_cons_of_neg (by simp),List.append_nil]
  · rw [List.dropWhile_append_of_pos passes,List.dropWhile_cons_of_neg (by simp)]
    rfl

theorem first_cut [DecidableEq α] {whole : List α} (inside : sep ∈ whole) :
    whole.takeWhile (· ≠ sep) ++ sep :: (whole.dropWhile (· ≠ sep)).drop 1 = whole := by
  obtain ⟨one,back,rfl,apart⟩ := List.eq_append_cons_of_mem inside
  rw [(cut_first apart back).1,(cut_first apart back).2]

theorem single_joined (part : List α) : [sep].intercalate [part] = part := List.intercalate_singleton

theorem more_joined (part : List α) {rest : List (List α)} (more : rest ≠ []) :
    [sep].intercalate (part :: rest) = part ++ sep :: [sep].intercalate rest := by
  rw [List.intercalate_cons_of_ne_nil more,List.append_assoc,List.singleton_append]

theorem parts_rest {part : List α} {rest : List (List α)} (parts : Parts sep (part :: rest)) (more : rest ≠ []) :
    Parts sep rest := ⟨more,fun other member => parts.2 other (List.mem_cons_of_mem _ member)⟩

theorem joined_append {front : List (List α)} {rest : List (List α)} (some : front ≠ []) (more : rest ≠ []) :
    [sep].intercalate (front ++ rest) = [sep].intercalate front ++ sep :: [sep].intercalate rest := by
  induction front with
  | nil => exact absurd rfl some
  | cons part later ih =>
      by_cases last : later = []
      · rw [last,List.singleton_append,more_joined part more,single_joined]
      · rw [List.cons_append,more_joined part (List.append_ne_nil_of_left_ne_nil last rest),ih last,more_joined part last]
        rw [List.append_assoc,List.cons_append]

theorem joined_single {parts : List (List α)} (whole : Parts sep parts) (absent : sep ∉ [sep].intercalate parts) :
    ∃ part, parts = [part] := by
  obtain ⟨part,rest,rfl⟩ := List.exists_cons_of_ne_nil whole.1
  by_cases last : rest = []
  · exact ⟨part,by rw [last]⟩
  · refine absurd ?_ absent
    rw [more_joined part last]
    exact List.mem_append_right _ List.mem_cons_self

-- Followed by a separator, the joined parts are the first of those they begin.
theorem joined_begins {front parts : List (List α)} (few : Parts sep front) (all : Parts sep parts) (rest : List α) :
    [sep].intercalate front ++ sep :: rest = [sep].intercalate parts ↔
      ∃ more, more ≠ [] ∧ parts = front ++ more ∧ rest = [sep].intercalate more := by
  constructor
  · intro same
    induction front generalizing parts with
    | nil => exact absurd rfl few.1
    | cons part later ih =>
        obtain ⟨first,others,rfl⟩ := List.exists_cons_of_ne_nil all.1
        have whole := few.2 part List.mem_cons_self
        have other := all.2 first List.mem_cons_self
        by_cases final : others = []
        · rw [final,single_joined] at same
          refine absurd ?_ other
          rw [← same]
          exact List.mem_append_right _ List.mem_cons_self
        · rw [more_joined first final] at same
          by_cases last : later = []
          · rw [last,single_joined] at same
            obtain ⟨rfl,rfl⟩ := cut_unique whole other same
            exact ⟨others,final,by rw [last,List.singleton_append],rfl⟩
          · rw [more_joined part last,List.append_assoc,List.cons_append] at same
            obtain ⟨rfl,tails⟩ := cut_unique whole other same
            obtain ⟨more,some,rfl,text⟩ := ih (parts_rest few last) (parts_rest all final) tails
            exact ⟨more,some,rfl,text⟩
  · rintro ⟨more,some,rfl,rfl⟩
    exact (joined_append few.1 some).symm

theorem joined_same {front parts : List (List α)} (few : Parts sep front) (all : Parts sep parts)
    (same : [sep].intercalate front = [sep].intercalate parts) : front = parts := by
  induction front generalizing parts with
  | nil => exact absurd rfl few.1
  | cons part later ih =>
      obtain ⟨first,others,rfl⟩ := List.exists_cons_of_ne_nil all.1
      have whole := few.2 part List.mem_cons_self
      have other := all.2 first List.mem_cons_self
      by_cases last : later = []
      · rw [last,single_joined] at same
        obtain ⟨_,final⟩ := joined_single all (by rw [← same]; exact whole)
        obtain ⟨rfl,rfl⟩ := List.cons.inj final
        rw [last,same,single_joined]
      · by_cases final : others = []
        · rw [final,single_joined,more_joined part last] at same
          refine absurd ?_ other
          rw [← same]
          exact List.mem_append_right _ List.mem_cons_self
        · rw [more_joined part last,more_joined first final] at same
          obtain ⟨rfl,tails⟩ := cut_unique whole other same
          rw [ih (parts_rest few last) (parts_rest all final) tails]

end Separated
