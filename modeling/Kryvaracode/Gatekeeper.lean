import Kryvaracode.InsertionDict
import Kryvaracode.Runs
import Kryvaracode.Separated
import Kryvaracode.UnicodeText

namespace Kryvaracode.Gatekeeper
open InsertionDict Runs Separated

inductive ApprovalStatus where
  | pending
  | approved
  | rejected
  | expired
  deriving DecidableEq, Repr

structure ApprovalRequest where
  requestId : Text
  actionId : Text
  description : Text
  riskLevel : Text
  deriving DecidableEq, Repr

structure Decision where
  status : ApprovalStatus
  operatorId : Text
  reason : Option Text
  deriving DecidableEq, Repr

structure ApprovalResponse extends Decision where
  requestId : Text
  deriving DecidableEq, Repr

structure AegisGatekeeper where
  pendingRequests : Dict Text ApprovalRequest
  approvalHistory : Dict Text ApprovalResponse

def AegisGatekeeper.init : AegisGatekeeper := ⟨Dict.empty,Dict.empty⟩

-- A call, its time in microseconds, and what the operator makes of the request.
structure Call where
  now : Nat
  actionId : Text
  description : Text
  riskLevel : Text
  operator : ApprovalRequest → Decision

def second (now : Nat) : Nat := now / 1000000

def requestId (now : Nat) (actionId : Text) : Text :=
  "req_".toList ++ (Nat.repr (second now)).toList ++ '_' :: actionId

namespace Call
variable (call : Call)

def requestId : Text := Gatekeeper.requestId call.now call.actionId
def request : ApprovalRequest := ⟨call.requestId,call.actionId,call.description,call.riskLevel⟩
def response : ApprovalResponse := ⟨call.operator call.request,call.requestId⟩
def stamp : Nat × Text := (second call.now,call.actionId)
end Call

-- `_simulate_operator_response`
def simulatedOperator (upper : Text → Text) (request : ApprovalRequest) : Decision :=
  if "DELETE".toList <:+: upper request.description ∧ request.riskLevel = "CRITICAL".toList then
    ⟨.rejected,"simulated_operator_01".toList,some "Destructive action rejected by operator.".toList⟩
  else ⟨.approved,"simulated_operator_01".toList,some "Action within safety parameters.".toList⟩

namespace AegisGatekeeper
variable (keeper : AegisGatekeeper)

def processResponse (response : ApprovalResponse) : AegisGatekeeper where
  approvalHistory := keeper.approvalHistory.set response.requestId response
  pendingRequests :=
    if (keeper.pendingRequests.get response.requestId).isSome then keeper.pendingRequests.erase response.requestId
    else keeper.pendingRequests

def requestApproval (call : Call) : AegisGatekeeper × Bool :=
  let asked := {keeper with pendingRequests := keeper.pendingRequests.set call.requestId call.request}
  (asked.processResponse call.response,decide (call.response.status = .approved))

def verifyActionPermit (requestId : Text) : Bool :=
  (keeper.approvalHistory.get requestId).any fun response => decide (response.status = .approved)
end AegisGatekeeper

def step (keeper : AegisGatekeeper) (call : Call) : AegisGatekeeper := (keeper.requestApproval call).1

-- One record for each call so far, from which the permit is answered as the call was.
def Recorded (calls : List Call) : Prop :=
  let keeper := run step .init calls
  keeper.pendingRequests.size = 0 ∧ keeper.approvalHistory.size = calls.length ∧
    ∀ front call rest, calls = front ++ call :: rest →
      keeper.approvalHistory.get call.requestId = some call.response ∧
        keeper.verifyActionPermit call.requestId = ((run step .init front).requestApproval call).2

def OneRecordEach (calls : List Call) : Prop := ∀ front, front <+: calls → Recorded front

theorem requestId_exact (first other : Call) : first.requestId = other.requestId ↔ first.stamp = other.stamp := by
  refine ⟨?_,?_⟩
  · intro same
    unfold Call.requestId requestId at same
    rw [List.append_assoc,List.append_assoc,Nat.toList_repr,Nat.toList_repr] at same
    obtain ⟨digits,action⟩ := cut_unique Nat.underscore_not_in_toDigits Nat.underscore_not_in_toDigits
      (List.append_cancel_left same)
    have seconds := congrArg (fun text => Nat.ofDigitChars 10 text 0) digits
    simp only [Nat.ofDigitChars_ten_toDigits] at seconds
    exact Prod.ext seconds action
  · intro same
    obtain ⟨seconds,action⟩ := Prod.mk.inj same
    rw [Call.requestId,Call.requestId,requestId,requestId,seconds,action]

theorem run_pending (calls : List Call) : (run step .init calls).pendingRequests.size = 0 := by
  induction calls using List.reverseRecOn with
  | nil => rfl
  | append_singleton front call ih =>
      rw [run_append,run_cons,run_nil]
      rw [size_zero] at ih ⊢
      intro key
      have asked : ((((run step .init front).pendingRequests.set call.requestId call.request).get call.response.requestId)).isSome
          = true := by
        rw [show call.response.requestId = call.requestId from rfl,get_set_same]
        rfl
      simp only [step,AegisGatekeeper.requestApproval,AegisGatekeeper.processResponse,if_pos asked]
      rw [get_erase,show call.response.requestId = call.requestId from rfl,get_set]
      split
      · rfl
      · exact ih key

-- What is on record under an id is the last response to it.
theorem run_history (calls : List Call) (id : Text) : (run step .init calls).approvalHistory.get id =
    (calls.reverse.find? fun call => decide (call.requestId = id)).map Call.response := by
  induction calls using List.reverseRecOn with
  | nil => rfl
  | append_singleton front call ih =>
      rw [run_append,run_cons,run_nil,List.reverse_append,List.reverse_singleton,List.singleton_append]
      simp only [step,AegisGatekeeper.requestApproval,AegisGatekeeper.processResponse]
      rw [get_set,ih,List.find?_cons,show call.response.requestId = call.requestId from rfl]
      by_cases same : id = call.requestId
      · rw [if_pos same,decide_eq_true same.symm]
        rfl
      · rw [if_neg same,decide_eq_false (fun other => same other.symm)]

theorem run_keys (calls : List Call) (id : Text) :
    id ∈ (run step .init calls).approvalHistory.keys ↔ id ∈ calls.map Call.requestId := by
  rw [← not_iff_not,not_mem_keys,run_history,Option.map_eq_none_iff,List.find?_eq_none]
  simp

theorem run_size (calls : List Call) : (run step .init calls).approvalHistory.size = calls.length ↔
    (calls.map Call.requestId).Nodup := by
  have distinct := (run step .init calls).approvalHistory.distinct
  have inside : (run step .init calls).approvalHistory.keys ⊆ calls.map Call.requestId := fun id => (run_keys calls id).mp
  have size : (run step .init calls).approvalHistory.keys.length = (run step .init calls).approvalHistory.size :=
    List.length_map _
  refine ⟨?_,?_⟩
  · intro full
    have perm := (List.subperm_of_subset distinct inside).perm_of_length_le (by
      rw [List.length_map]
      change calls.length ≤ (run step .init calls).approvalHistory.keys.length
      rw [size,full])
    exact perm.nodup_iff.mp distinct
  · intro apart
    have outside : calls.map Call.requestId ⊆ (run step .init calls).approvalHistory.keys := fun id => (run_keys calls id).mpr
    have perm := (List.subperm_of_subset distinct inside).antisymm (List.subperm_of_subset apart outside)
    rw [← size]
    exact perm.length_eq.trans (List.length_map _)

theorem stamps_apart (calls : List Call) : (calls.map Call.requestId).Nodup ↔ (calls.map Call.stamp).Nodup := by
  rw [List.Nodup,List.pairwise_map,List.Nodup,List.pairwise_map]
  simp only [ne_eq,requestId_exact]

theorem permits_distinct (calls : List Call) : Recorded calls ↔ (calls.map Call.stamp).Nodup := by
  rw [← stamps_apart]
  refine ⟨fun recorded => (run_size calls).mp recorded.2.1,?_⟩
  intro apart
  refine ⟨run_pending calls,(run_size calls).mpr apart,?_⟩
  rintro front call rest rfl
  have mine : (run step .init (front ++ call :: rest)).approvalHistory.get call.requestId = some call.response := by
    rw [List.map_append,List.map_cons,List.nodup_append,List.nodup_cons] at apart
    have later : ∀ other ∈ rest.reverse, ¬ decide (other.requestId = call.requestId) = true := by
      intro other listed same
      rw [decide_eq_true_eq] at same
      exact apart.2.1.1 (same ▸ List.mem_map_of_mem (List.mem_reverse.mp listed))
    rw [run_history,List.reverse_append,List.reverse_cons,List.append_assoc,List.find?_append,
      List.find?_eq_none.mpr later,Option.none_or,List.singleton_append,List.find?_cons,decide_eq_true rfl]
    rfl
  refine ⟨mine,?_⟩
  rw [AegisGatekeeper.verifyActionPermit,mine]
  rfl

theorem one_record_exact (calls : List Call) : OneRecordEach calls ↔ (calls.map Call.stamp).Nodup := by
  refine ⟨fun each => (permits_distinct calls).mp (each calls (List.prefix_refl calls)),?_⟩
  intro apart front early
  exact (permits_distinct front).mpr (apart.sublist (early.sublist.map Call.stamp))

def asked (now : Nat) (description : Text) : Call :=
  ⟨now,"omega_execution".toList,description,"CRITICAL".toList,simulatedOperator (List.map Char.toUpper)⟩

-- Refused, and allowed half a second later for something else: one record of both.
theorem permit_overwritten : ¬ OneRecordEach [asked 0 "delete all".toList,asked 500000 "list all".toList] := by
  intro each
  obtain ⟨_,size,_⟩ := each _ (List.prefix_refl _)
  have apart := (run_size _).mp size
  exact (List.nodup_cons.mp apart).1 List.mem_cons_self

end Kryvaracode.Gatekeeper
