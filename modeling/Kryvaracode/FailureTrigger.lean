import Kryvaracode.Scheduler
import Kryvaracode.Separated

namespace Kryvaracode.Scheduling
open ToolInvocation UnicodeText Separated

-- The failures of a tool that the log holds.
def failures (audit : List AuditLog) (toolName : Text) : Nat :=
  audit.countP fun row => row.toolName == toolName && !row.success

-- `tool_fail_count:N`, with what int() makes of N.
def Asked (digit : Char → Option Nat) (job : ScheduledJob) (threshold : Int) : Prop :=
  ∃ text, job.triggerCondition = some ("tool_fail_count".toList ++ ':' :: text) ∧ int digit text = some threshold

def Database.appended (database : Database) (rows : List AuditLog) : Database :=
  database.withSession {database.session with audit := database.session.audit ++ rows}

structure FailureTrigger (digit : Char → Option Nat) (database : Database) (job : ScheduledJob) : Prop where
  exact : evaluate digit database job = true ↔
    ∃ threshold, Asked digit job threshold ∧ threshold ≤ failures database.session.audit job.toolName
  monotone : ∀ rows, evaluate digit database job = true → evaluate digit (database.appended rows) job = true

section Conditions
variable {digit : Char → Option Nat} {database : Database} {job : ScheduledJob}

-- The filter keeps no row at all, so the count is nought.
theorem failCount_ok (database : Database) (toolName : Text) (count : Nat) :
    failCount database toolName = .ok count ↔ database.usable = true ∧ count = 0 := by
  have none : (database.session.audit.filter fun row => row.toolName == toolName && notSuccess) = [] := by
    apply List.filter_eq_nil_iff.mpr
    intro row _
    rw [notSuccess,Bool.and_false]
    exact Bool.false_ne_true
  rw [failCount,none,Database.query]
  cases database.usable with
  | true => exact ⟨fun same => ⟨rfl,(Except.ok.inj same).symm⟩,fun both => by rw [both.2]; rfl⟩
  | false => exact iff_of_false (by simp) fun both => Bool.false_ne_true both.1

theorem tool_fail_count_plain : ':' ∉ "tool_fail_count".toList := by decide

theorem evaluate_condition {condition : Text} (given : job.triggerCondition = some condition) :
    evaluate digit database job = true ↔ ':' ∈ condition ∧ metric condition = "tool_fail_count".toList ∧
      ∃ threshold, int digit (thresholdText condition) = some threshold ∧ threshold ≤ 0 ∧ database.usable = true := by
  unfold evaluate
  rw [given]
  cases condition with
  | nil => simp
  | cons c rest =>
      dsimp only
      by_cases colon : ':' ∈ c :: rest
      · rw [if_pos (List.contains_iff_mem.mpr colon)]
        cases number : int digit (thresholdText (c :: rest)) with
        | none => simp
        | some threshold =>
            by_cases named : metric (c :: rest) = "tool_fail_count".toList
            · simp only [colon,named,true_and,Option.some.injEq,exists_eq_left',if_true]
              cases answer : failCount database job.toolName with
              | error exc =>
                  refine iff_of_false Bool.false_ne_true ?_
                  rintro ⟨_,usable⟩
                  cases answer.symm.trans ((failCount_ok database job.toolName 0).mpr ⟨usable,rfl⟩)
              | ok count =>
                  obtain ⟨usable,rfl⟩ := (failCount_ok database job.toolName count).mp answer
                  simp only [usable,and_true]
                  exact decide_eq_true_iff
            · simp only [named,if_false,false_and,and_false,Bool.false_eq_true]
      · rw [if_neg (mt List.contains_iff_mem.mp colon)]
        exact iff_of_false Bool.false_ne_true fun both => colon both.1

theorem asked_condition {condition : Text} (given : job.triggerCondition = some condition) (threshold : Int) :
    Asked digit job threshold ↔ ':' ∈ condition ∧ metric condition = "tool_fail_count".toList ∧
      int digit (thresholdText condition) = some threshold := by
  constructor
  · rintro ⟨text,its,number⟩
    cases Option.some.inj (given.symm.trans its)
    rw [metric,thresholdText,(cut_first tool_fail_count_plain text).1,(cut_first tool_fail_count_plain text).2]
    exact ⟨List.mem_append_right _ List.mem_cons_self,rfl,number⟩
  · rintro ⟨colon,named,number⟩
    refine ⟨thresholdText condition,?_,number⟩
    rw [given,← named,metric,thresholdText,first_cut colon]

theorem evaluate_asked (digit : Char → Option Nat) (database : Database) (job : ScheduledJob) :
    evaluate digit database job = true ↔
    ∃ threshold, Asked digit job threshold ∧ threshold ≤ 0 ∧ database.usable = true := by
  cases given : job.triggerCondition with
  | none =>
      refine iff_of_false ?_ ?_
      · rw [evaluate,given]
        exact Bool.false_ne_true
      · rintro ⟨threshold,⟨text,its,_⟩,_⟩
        cases given.symm.trans its
  | some condition =>
      rw [evaluate_condition given]
      constructor
      · rintro ⟨colon,named,threshold,number,low⟩
        exact ⟨threshold,(asked_condition given threshold).mpr ⟨colon,named,number⟩,low⟩
      · rintro ⟨threshold,asked,low⟩
        obtain ⟨colon,named,number⟩ := (asked_condition given threshold).mp asked
        exact ⟨colon,named,threshold,number,low⟩

theorem asked_once {one other : Int} (first : Asked digit job one) (second : Asked digit job other) : one = other := by
  obtain ⟨text,given,number⟩ := id first
  obtain ⟨_,_,same⟩ := (asked_condition given one).mp first
  obtain ⟨_,_,also⟩ := (asked_condition given other).mp second
  exact Option.some.inj (same.symm.trans also)

end Conditions

def failedOnce : Database where
  session := ⟨[⟨"t".toList,none,"\x7b\x7d".toList,false,none⟩],.ready⟩
  jobs := []
  gone := []
  objects := List.nodup_nil
  ids := List.nodup_nil

def retry : ScheduledJob :=
  ⟨0,1,"j".toList,"t".toList,none,60,some ("tool_fail_count".toList ++ ':' :: "1".toList),true,none,none⟩

end Kryvaracode.Scheduling
