import Kryvaracode.Runs

-- Signs of life, checks of how old the last ones are, and what the checks leave.
namespace Heartbeats
open Runs
universe u v
variable {κ : Type u} {τ : Type v}

inductive Event (κ : Type u) (τ : Type v) where
  | join (key : κ) (now : τ)
  | beat (key : κ) (now : τ)
  | check (now : τ)
  | leave (key : κ)

def Event.time : Event κ τ → Option τ
  | .join _ now | .beat _ now | .check now => some now
  | .leave _ => none

def Event.key : Event κ τ → Option κ
  | .join key _ | .beat key _ | .leave key => some key
  | .check _ => none

structure Life (τ : Type v) where
  seen : τ
  beaten : Bool
  suspected : Bool

abbrev View (κ : Type u) (τ : Type v) := κ → Option (Life τ)

def Quiet (key : κ) (events : List (Event κ τ)) : Prop := ∀ event ∈ events, event.key ≠ some key

def Joined (history : List (Event κ τ)) (key : κ) : Prop :=
  ∃ front now back, history = front ++ .join key now :: back ∧ .leave key ∉ back

def Ordered [LE τ] (history : List (Event κ τ)) : Prop := (history.filterMap Event.time).Pairwise (· ≤ ·)

theorem joined_append (history : List (Event κ τ)) (event : Event κ τ) (key : κ) : Joined (history ++ [event]) key ↔
    (∃ now, event = .join key now) ∨ (Joined history key ∧ event ≠ .leave key) := by
  constructor
  · rintro ⟨front,now,back,whole,stays⟩
    rcases List.eq_nil_or_concat back with rfl | ⟨back,last,rfl⟩
    · obtain ⟨rfl,same⟩ := List.append_inj' whole rfl
      exact .inl ⟨now,(List.cons.inj same).1⟩
    · rw [List.concat_eq_append,← List.cons_append,← List.append_assoc] at whole
      obtain ⟨rfl,same⟩ := List.append_inj' whole rfl
      cases (List.cons.inj same).1
      rw [List.concat_eq_append,List.mem_append,not_or,List.mem_singleton] at stays
      exact .inr ⟨⟨front,now,back,rfl,stays.1⟩,fun left => stays.2 left.symm⟩
  · rintro (⟨now,rfl⟩ | ⟨⟨front,now,back,rfl,stays⟩,kept⟩)
    · exact ⟨history,now,[],rfl,List.not_mem_nil⟩
    · refine ⟨front,now,back ++ [event],by simp,?_⟩
      rw [List.mem_append,not_or,List.mem_singleton]
      exact ⟨stays,fun left => kept left.symm⟩

theorem ordered_front [LE τ] {front back : List (Event κ τ)} {event : Event κ τ} (ordered : Ordered (front ++ event :: back)) {early : Event κ τ}
    (inside : early ∈ front) {first second : τ} (at_first : early.time = some first) (at_second : event.time = some second) :
    first ≤ second := by
  unfold Ordered at ordered
  rw [List.filterMap_append,List.filterMap_cons,at_second] at ordered
  exact (List.pairwise_append.mp ordered).2.2 first (List.mem_filterMap.mpr ⟨early,inside,at_first⟩) second List.mem_cons_self

section Detector
variable [AddCommGroup τ] [LinearOrder τ] (timeout : τ)

def examine (now : τ) (life : Life τ) : Life τ := if timeout < now - life.seen then {life with suspected := true} else life

-- The last sign, and that a check since then has found it too old or none has.
def Explained (history : List (Event κ τ)) (key : κ) (life : Life τ) : Prop :=
  ∃ front event back, history = front ++ event :: back ∧
    (event = .join key life.seen ∧ life.beaten = false ∨ event = .beat key life.seen ∧ life.beaten = true) ∧ Quiet key back ∧
      (life.suspected = true ↔ ∃ now, .check now ∈ back ∧ timeout < now - life.seen)

variable {timeout}

theorem new_explained (history : List (Event κ τ)) {event : Event κ τ} {key : κ} {life : Life τ}
    (sign : event = .join key life.seen ∧ life.beaten = false ∨ event = .beat key life.seen ∧ life.beaten = true)
    (trusted : life.suspected = false) : Explained timeout (history ++ [event]) key life := by
  refine ⟨history,event,[],rfl,sign,List.forall_mem_nil _,?_⟩
  rw [trusted]
  refine iff_of_false Bool.false_ne_true ?_
  rintro ⟨now,inside,_⟩
  exact List.not_mem_nil inside

theorem later_explained {history : List (Event κ τ)} {key : κ} {life : Life τ} (explained : Explained timeout history key life)
    {event : Event κ τ} (other : event.key ≠ some key) (unchecked : event.key ≠ none) :
    Explained timeout (history ++ [event]) key life := by
  obtain ⟨front,sign,back,rfl,made,quiet,exactly⟩ := explained
  refine ⟨front,sign,back ++ [event],by simp,made,?_,?_⟩
  · exact List.forall_mem_append.mpr ⟨quiet,List.forall_mem_singleton.mpr other⟩
  · rw [exactly]
    refine exists_congr fun now => and_congr_left fun _ => ?_
    rw [List.mem_append,List.mem_singleton,or_iff_left]
    intro same
    exact unchecked (same ▸ rfl)

theorem checked_explained {history : List (Event κ τ)} {key : κ} {life : Life τ} (explained : Explained timeout history key life)
    (now : τ) : Explained timeout (history ++ [.check now]) key (examine timeout now life) := by
  obtain ⟨front,sign,back,rfl,made,quiet,exactly⟩ := explained
  have seen : (examine timeout now life).seen = life.seen := by unfold examine; split <;> rfl
  have beaten : (examine timeout now life).beaten = life.beaten := by unfold examine; split <;> rfl
  refine ⟨front,sign,back ++ [.check now],by simp,?_,?_,?_⟩
  · rw [seen,beaten]
    exact made
  · exact List.forall_mem_append.mpr ⟨quiet,List.forall_mem_singleton.mpr nofun⟩
  · rw [seen]
    unfold examine
    by_cases late : timeout < now - life.seen
    · rw [if_pos late]
      exact iff_of_true rfl ⟨now,List.mem_append_right _ (List.mem_singleton_self _),late⟩
    · rw [if_neg late,exactly]
      refine exists_congr fun other => and_congr_left fun old => ?_
      rw [List.mem_append,List.mem_singleton,or_iff_left]
      intro same
      cases same
      exact late old

variable [DecidableEq κ] (timeout)

-- Only a member's beat counts, and it clears the suspicion.
def step (view : View κ τ) : Event κ τ → View κ τ
  | .join key now => Function.update view key (some ⟨now,false,false⟩)
  | .beat key now => Function.update view key ((view key).map fun _ => ⟨now,true,false⟩)
  | .check now => fun key => (view key).map (examine timeout now)
  | .leave key => Function.update view key none

def detect (history : List (Event κ τ)) : View κ τ := run (step timeout) (fun _ => none) history

variable {timeout}

theorem detect_append (history : List (Event κ τ)) (event : Event κ τ) :
    detect timeout (history ++ [event]) = step timeout (detect timeout history) event := run_append _ _ _

theorem detect_explained (history : List (Event κ τ)) {key : κ} {life : Life τ} (found : detect timeout history key = some life) :
    Explained timeout history key life := by
  induction history using List.reverseRecOn generalizing life with
  | nil => cases found
  | append_singleton history event ih =>
      rw [detect_append] at found
      cases event with
      | check now =>
          obtain ⟨before,held,rfl⟩ := Option.map_eq_some_iff.mp found
          exact checked_explained (ih held) now
      | join other now =>
          by_cases own : other = key
          · subst own
            rw [step,Function.update_self,Option.some.injEq] at found
            subst found
            exact new_explained history (.inl ⟨rfl,rfl⟩) rfl
          · rw [step,Function.update_of_ne (Ne.symm own)] at found
            exact later_explained (ih found) (fun same => own (Option.some.inj same)) nofun
      | beat other now =>
          by_cases own : other = key
          · subst own
            rw [step,Function.update_self] at found
            obtain ⟨before,_,rfl⟩ := Option.map_eq_some_iff.mp found
            exact new_explained history (.inr ⟨rfl,rfl⟩) rfl
          · rw [step,Function.update_of_ne (Ne.symm own)] at found
            exact later_explained (ih found) (fun same => own (Option.some.inj same)) nofun
      | leave other =>
          by_cases own : other = key
          · subst own
            rw [step,Function.update_self] at found
            cases found
          · rw [step,Function.update_of_ne (Ne.symm own)] at found
            exact later_explained (ih found) (fun same => own (Option.some.inj same)) nofun

theorem detect_members (history : List (Event κ τ)) (key : κ) : (detect timeout history key).isSome ↔ Joined history key := by
  induction history using List.reverseRecOn with
  | nil =>
      refine iff_of_false Bool.false_ne_true ?_
      rintro ⟨front,now,back,whole,_⟩
      exact List.append_ne_nil_of_right_ne_nil front (List.cons_ne_nil _ _) whole.symm
  | append_singleton history event ih =>
      rw [detect_append,joined_append,← ih]
      cases event with
      | check now => simp [step]
      | join other now =>
          by_cases own : other = key
          · subst own
            simp [step]
          · simp [step,own,Ne.symm own]
      | beat other now =>
          by_cases own : other = key
          · subst own
            simp [step]
          · simp [step,Ne.symm own]
      | leave other =>
          by_cases own : other = key
          · subst own
            simp [step]
          · simp [step,own,Ne.symm own]

-- Who has been silent for longer than the timeout and the time since the last check is suspected.
theorem detect_complete [IsOrderedAddMonoid τ] (positive : 0 ≤ timeout) {history : List (Event κ τ)} (ordered : Ordered history)
    {key : κ} {life : Life τ} (found : detect timeout history key = some life) {now gap : τ}
    (recent : ∃ check, .check check ∈ history ∧ now - gap ≤ check) (silent : timeout + gap < now - life.seen) :
    life.suspected = true := by
  obtain ⟨front,sign,back,rfl,made,_,exactly⟩ := detect_explained history found
  obtain ⟨check,inside,late⟩ := recent
  have old : timeout < check - life.seen := by
    refine lt_of_lt_of_le (lt_sub_iff_add_lt.mpr silent) ?_
    rw [sub_right_comm]
    exact sub_le_sub_right late _
  have signed : sign.time = some life.seen := by rcases made with ⟨rfl,_⟩ | ⟨rfl,_⟩ <;> rfl
  refine exactly.mpr ⟨check,?_,old⟩
  rcases List.mem_append.mp inside with before | after
  · have early := ordered_front ordered before rfl signed
    exact absurd (positive.trans_lt old) (not_lt.mpr (sub_nonpos.mpr early))
  · rcases List.mem_cons.mp after with rfl | after
    · rcases made with ⟨same,_⟩ | ⟨same,_⟩ <;> cases same
    · exact after

end Detector
end Heartbeats
