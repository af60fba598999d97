import Kryvaracode.Exceptions

namespace Kryvaracode.Augmentation

structure Augmenter where
  maxContextChars : Nat
  positive : 0 < maxContextChars

theorem budget_positive {maxContextChars : Int} (accepted : ¬ maxContextChars ≤ 0) : 0 < maxContextChars.toNat := by omega

def Augmenter.new (maxContextChars : Int) : Result Augmenter :=
  if accepted : maxContextChars ≤ 0 then .error (ValueError "max_context_chars must be positive".toList)
  else .ok ⟨maxContextChars.toNat,budget_positive accepted⟩

-- A text, or a dict with what it has under "text" and under "content".
inductive Document where
  | plain (text : Text)
  | record (text content : Option Text)

def SEPARATOR : Text := "\n\n---\n\n".toList
def heading : Text := "Use the following context to answer the question:\n\n".toList

-- A dict without any text is passed over, an empty string is not.
def Document.text : Document → Option Text
  | .plain text => some text
  | .record text content =>
      if truthy text then text else if truthy content then content else none

def Augmenter.collect (augmenter : Augmenter) : List Text → Nat → List Document → List Text
  | contextParts,_,[] => contextParts
  | contextParts,totalChars,doc :: rest =>
      match doc.text with
      | none => collect augmenter contextParts totalChars rest
      | some text =>
          if augmenter.maxContextChars ≤ totalChars then contextParts
          else
            let kept := text.take (augmenter.maxContextChars - totalChars)
            collect augmenter (contextParts ++ [kept]) (totalChars + kept.length) rest

-- The prompt behind the parts.
def inserted (contextParts : List Text) (prompt : Text) : Text :=
  if contextParts = [] then prompt else heading ++ SEPARATOR.intercalate contextParts ++ SEPARATOR ++ prompt

def Augmenter.augment (augmenter : Augmenter) (prompt : Text) (contextDocs : List Document) : Text :=
  if contextDocs = [] then prompt else inserted (augmenter.collect [] 0 contextDocs) prompt

example : (Augmenter.mk 4 (by decide)).augment ['q'] [.plain ['a','b'],.record none none,.record (some []) (some ['c','d','e'])] =
    inserted [['a','b'],['c','d']] ['q'] := by decide

def texts (contextDocs : List Document) : List Text := contextDocs.filterMap Document.text

-- Whole documents in their order, and behind them perhaps the front of the next.
def WholeThenCut (given parts : List Text) : Prop :=
  parts <+: given ∨ ∃ whole text rest count, given = whole ++ text :: rest ∧ count < text.length ∧
    parts = whole ++ [text.take count]

def WithinBudget (augmenter : Augmenter) (prompt : Text) (contextDocs : List Document) : Prop :=
  ∃ parts, augmenter.augment prompt contextDocs = inserted parts prompt ∧
    (SEPARATOR.intercalate parts).length ≤ augmenter.maxContextChars ∧ WholeThenCut (texts contextDocs) parts

def total (given : List Text) : Nat := (given.map List.length).sum

-- At most one document, a first that takes all there is, or room for all with their separators.
def RoomForAll (augmenter : Augmenter) (given : List Text) : Prop :=
  given.length ≤ 1 ∨ augmenter.maxContextChars ≤ (given.headD []).length ∨
    total given + SEPARATOR.length * (given.length - 1) ≤ augmenter.maxContextChars

-- What a budget lets through.
def taken : Nat → List Text → List Text
  | _,[] => []
  | budget,text :: rest => if budget = 0 then [] else text.take budget :: taken (budget - text.length) rest

section Lemmas
variable (augmenter : Augmenter)

theorem collect_taken (contextParts : List Text) (totalChars : Nat) (contextDocs : List Document) :
    augmenter.collect contextParts totalChars contextDocs =
      contextParts ++ taken (augmenter.maxContextChars - totalChars) (texts contextDocs) := by
  induction contextDocs generalizing contextParts totalChars with
  | nil => exact (List.append_nil contextParts).symm
  | cons doc rest ih =>
      unfold texts
      cases read : doc.text with
      | none =>
          rw [Augmenter.collect,read,List.filterMap_cons_none read]
          exact ih contextParts totalChars
      | some text =>
          rw [Augmenter.collect,read,List.filterMap_cons_some read,taken]
          by_cases spent : augmenter.maxContextChars ≤ totalChars
          · simp [spent,Nat.sub_eq_zero_of_le spent]
          · have left : augmenter.maxContextChars - totalChars ≠ 0 := by omega
            simp only [spent,left,if_false]
            rw [ih,List.append_assoc,List.singleton_append,List.length_take]
            have budget : augmenter.maxContextChars - (totalChars + min (augmenter.maxContextChars - totalChars) text.length) =
                augmenter.maxContextChars - totalChars - text.length := by omega
            rw [budget]
            rfl

theorem taken_total (budget : Nat) (given : List Text) : total (taken budget given) = min budget (total given) := by
  induction given generalizing budget with
  | nil => exact (Nat.min_zero budget).symm
  | cons text rest ih =>
      unfold taken
      split
      next spent => rw [spent,Nat.zero_min]; rfl
      next =>
        have later := ih (budget - text.length)
        unfold total at later ⊢
        rw [List.map_cons,List.sum_cons,later,List.map_cons,List.sum_cons,List.length_take]
        omega

theorem taken_all {budget : Nat} {given : List Text} (room : total given < budget) : taken budget given = given := by
  induction given generalizing budget with
  | nil => rfl
  | cons text rest ih =>
      unfold total at room
      rw [List.map_cons,List.sum_cons] at room
      have left : budget ≠ 0 := by omega
      rw [taken,if_neg left,List.take_of_length_le (by omega),ih (by unfold total; omega)]

theorem taken_whole (budget : Nat) (given : List Text) : WholeThenCut given (taken budget given) := by
  induction given generalizing budget with
  | nil => exact .inl (List.prefix_refl [])
  | cons text rest ih =>
      unfold taken
      split
      next => exact .inl List.nil_prefix
      next =>
        by_cases fits : text.length ≤ budget
        · rw [List.take_of_length_le fits]
          rcases ih (budget - text.length) with early | ⟨whole,cut,after,count,rfl,short,same⟩
          · exact .inl (List.cons_prefix_cons.mpr ⟨rfl,early⟩)
          · exact .inr ⟨text :: whole,cut,after,count,rfl,short,by rw [same,List.cons_append]⟩
        · have spent : budget - text.length = 0 := by omega
          have nothing : taken (budget - text.length) rest = [] := by
            rw [spent]
            cases rest <;> rfl
          rw [nothing]
          exact .inr ⟨[],text,rest,budget,rfl,not_le.mp fits,rfl⟩

theorem block_length (parts : List Text) :
    (SEPARATOR.intercalate parts).length = total parts + SEPARATOR.length * (parts.length - 1) := by
  induction parts with
  | nil => rfl
  | cons part rest ih =>
      cases rest with
      | nil => simp [total]
      | cons next rest =>
          have width : SEPARATOR.length = 7 := rfl
          rw [List.intercalate_cons_cons,List.length_append,List.length_append,ih,width]
          simp only [total,List.map_cons,List.sum_cons,List.length_cons]
          omega

-- The block can be read off the augmented prompt.
theorem inserted_block {first second : List Text} {prompt : Text} (same : inserted first prompt = inserted second prompt) :
    (SEPARATOR.intercalate first).length = (SEPARATOR.intercalate second).length := by
  have sizes := congrArg List.length same
  have opened : 0 < heading.length := by decide
  unfold inserted at sizes
  split at sizes <;> split at sizes <;> simp only [List.length_append] at sizes
  next left right => rw [left,right]
  next left right => omega
  next left right => omega
  next => omega

theorem augment_inserted (prompt : Text) (contextDocs : List Document) : augmenter.augment prompt contextDocs =
    inserted (taken augmenter.maxContextChars (texts contextDocs)) prompt := by
  unfold Augmenter.augment
  rw [collect_taken]
  split
  next empty =>
    rw [empty]
    rfl
  next => rfl

theorem taken_one (budget : Nat) (first : Text) (rest : List Text) (spent : budget ≤ first.length) :
    (taken budget (first :: rest)).length ≤ 1 := by
  have nothing : taken (budget - first.length) rest = [] := by
    rw [Nat.sub_eq_zero_of_le spent]
    cases rest <;> rfl
  rw [taken,nothing]
  split
  · exact Nat.zero_le 1
  · exact le_rfl

theorem taken_two (budget : Nat) (first second : Text) (rest : List Text) (left : first.length < budget) :
    2 ≤ (taken budget (first :: second :: rest)).length := by
  rw [taken,if_neg (by omega),taken,if_neg (by omega),List.length_cons,List.length_cons]
  omega

theorem taken_room (given : List Text) :
    (SEPARATOR.intercalate (taken augmenter.maxContextChars given)).length ≤ augmenter.maxContextChars ↔
      RoomForAll augmenter given := by
  have width : SEPARATOR.length = 7 := rfl
  rw [block_length,taken_total,RoomForAll,width]
  rcases given with _ | ⟨first,rest⟩
  · exact iff_of_true (by simp [taken,total]) (.inl (Nat.zero_le 1))
  · by_cases spent : augmenter.maxContextChars ≤ first.length
    · have one := taken_one _ first rest spent
      exact iff_of_true (by omega) (.inr (.inl spent))
    · rcases rest with _ | ⟨second,rest⟩
      · have whole : taken augmenter.maxContextChars [first] = [first] := taken_all (by simp [total]; omega)
        exact iff_of_true (by simp [whole]) (.inl le_rfl)
      · have two := taken_two _ first second rest (not_le.mp spent)
        have sizes : (first :: second :: rest).length = rest.length + 2 := rfl
        rw [List.headD_cons,or_iff_right (by omega),or_iff_right spent]
        by_cases room : total (first :: second :: rest) < augmenter.maxContextChars
        · rw [taken_all room,min_eq_right room.le]
        · refine iff_of_false ?_ ?_ <;> omega

end Lemmas

theorem context_budget_exact (augmenter : Augmenter) (prompt : Text) (contextDocs : List Document) :
    WithinBudget augmenter prompt contextDocs ↔ RoomForAll augmenter (texts contextDocs) := by
  rw [← taken_room]
  refine ⟨?_,?_⟩
  · rintro ⟨parts,same,short,_⟩
    rw [augment_inserted] at same
    rwa [inserted_block same]
  · intro short
    exact ⟨_,augment_inserted augmenter prompt contextDocs,short,taken_whole _ _⟩

theorem separators_over_budget : ¬ WithinBudget ⟨2,by decide⟩ ['q'] [.plain ['a'],.plain ['b']] := by
  rintro ⟨parts,same,short,_⟩
  have block := inserted_block (show inserted [['a'],['b']] ['q'] = inserted parts ['q'] from same)
  have long : (SEPARATOR.intercalate [['a'],['b']]).length = 9 := by decide
  rw [← block,long] at short
  exact absurd short (by decide)

end Kryvaracode.Augmentation
