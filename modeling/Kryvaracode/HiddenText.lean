import Mathlib.Data.List.Basic

-- A text in which whole stretches are withheld: a layout lists the elements that
-- show, with `none` for each stretch.
namespace HiddenText
variable {α : Type}

inductive Fills : List (Option α) → List α → Prop where
  | nil : Fills [] []
  | shown (c : α) : Fills layout text → Fills (some c :: layout) (c :: text)
  | hidden (value : List α) : Fills layout text → Fills (none :: layout) (value ++ text)

def front : List (Option α) → List α
  | some c :: layout => c :: front layout
  | _ => []

-- A stretch begins within the first `limit` elements.
def Exposed (layout : List (Option α)) (limit : Nat) : Prop := none ∈ layout ∧ (front layout).length < limit

def filled (value : List α) (layout : List (Option α)) : List α :=
  layout.flatMap fun place => match place with
    | some c => [c]
    | none => value

theorem Fills.front (fills : Fills layout text) :
    ∃ rest, text = front layout ++ rest ∧ (none ∉ layout → rest = ([] : List α)) := by
  induction fills with
  | nil => exact ⟨[],rfl,fun _ => rfl⟩
  | shown c _ ih =>
    obtain ⟨rest,rfl,closed⟩ := ih
    exact ⟨rest,rfl,fun absent => closed fun member => absent (List.mem_cons_of_mem _ member)⟩
  | hidden value _ _ => exact ⟨_,rfl,fun absent => absurd (List.mem_cons_self ..) absent⟩

theorem covered_take (layout : List (Option α)) (limit : Nat) (covered : ¬ Exposed layout limit)
    (one : Fills layout text) (two : Fills layout other) : text.take limit = other.take limit := by
  obtain ⟨rest,rfl,closed⟩ := one.front
  obtain ⟨rest',rfl,closed'⟩ := two.front
  by_cases open' : none ∈ layout
  · have long : limit ≤ (front layout).length := by
      by_contra short
      exact covered ⟨open',by omega⟩
    rw [List.take_append_of_le_length long,List.take_append_of_le_length long]
  · rw [closed open',closed' open']

theorem filled_front (value : List α) (layout : List (Option α)) (open' : none ∈ layout) :
    ∃ rest, filled value layout = front layout ++ (value ++ rest) := by
  induction layout with
  | nil => cases open'
  | cons place layout ih =>
    cases place with
    | none => exact ⟨filled value layout,rfl⟩
    | some c =>
      obtain ⟨rest,same⟩ := ih (by simpa using open')
      exact ⟨rest,congrArg (c :: ·) same⟩

theorem exposed_take (layout : List (Option α)) (limit : Nat) (exposed : Exposed layout limit) (c d : α) (value other : List α)
    (same : (filled (c :: value) layout).take limit = (filled (d :: other) layout).take limit) : c = d := by
  obtain ⟨open',short⟩ := exposed
  obtain ⟨rest,left⟩ := filled_front (c :: value) layout open'
  obtain ⟨rest',right⟩ := filled_front (d :: other) layout open'
  have at' := congrArg (·[(front layout).length]?) same
  simpa [left,right,List.getElem?_take,short] using at'

theorem fills_shown (text : List α) : Fills (text.map some) text := by
  induction text with
  | nil => exact .nil
  | cons c text ih => exact .shown c ih

theorem Fills.append (one : Fills layout text) (two : Fills more other) : Fills (layout ++ more) (text ++ other) := by
  induction one with
  | nil => exact two
  | shown c _ ih => exact .shown c ih
  | hidden value _ ih => rw [List.append_assoc]; exact .hidden value ih

theorem fills_hidden (value : List α) : Fills [none] value := by
  simpa using Fills.hidden value .nil

theorem filled_shown (value text : List α) : filled value (text.map some) = text := by
  induction text with
  | nil => rfl
  | cons c text ih => exact congrArg (c :: ·) ih

theorem filled_append (value : List α) (layout more : List (Option α)) :
    filled value (layout ++ more) = filled value layout ++ filled value more := List.flatMap_append

theorem filled_hidden (value : List α) : filled value [none] = value := List.append_nil value

section Separated
variable {μ : Type} (separator : List α) (place : μ → List (Option α)) (text : μ → List α)

theorem fills_separated (parts : List μ) (each : ∀ part ∈ parts, Fills (place part) (text part)) :
    Fills ((separator.map some).intercalate (parts.map place)) (separator.intercalate (parts.map text)) := by
  induction parts with
  | nil => exact .nil
  | cons part parts ih =>
    obtain ⟨first,rest⟩ := List.forall_mem_cons.mp each
    cases parts with
    | nil => simpa using first
    | cons next parts =>
      simp only [List.map_cons,List.intercalate_cons_cons]
      exact (first.append (fills_shown separator)).append (by simpa using ih rest)

theorem filled_separated (value : List α) (parts : List μ) :
    filled value ((separator.map some).intercalate (parts.map place)) =
      separator.intercalate (parts.map fun part => filled value (place part)) := by
  induction parts with
  | nil => rfl
  | cons part parts ih =>
    cases parts with
    | nil => simp
    | cons next parts =>
      simp only [List.map_cons,List.intercalate_cons_cons,filled_append,filled_shown] at ih ⊢
      rw [ih]

end Separated
end HiddenText
