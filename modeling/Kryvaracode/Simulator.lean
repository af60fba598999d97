import Kryvaracode.Aegis

namespace Kryvaracode.Simulator
open Patterns UnicodeText Aegis

inductive BlastRadius where
  | local
  | systemic
  | global
  deriving DecidableEq, Repr

def BlastRadius.rank : BlastRadius → Nat
  | .local => 0
  | .systemic => 1
  | .global => 2

structure SimulationResult where
  riskScore : ℚ
  predictedImpacts : List Text
  blastRadius : BlastRadius
  suggestedMitigations : List Text
  isReversible : Bool

variable (tables : Tables)

def TypeError (detail : Text) : Failure := ⟨.other "TypeError".toList,detail⟩

-- `pattern in text`, of a compiled pattern: the operator takes texts only.
def patternIn (_pattern : Pattern Char) (_text : Text) : Result Bool :=
  .error (TypeError "'in <string>' requires string as left operand, not re.Pattern".toList)

def textIn (keyword text : Text) : Bool := decide (keyword <:+: text)

def riskKeywords : List (Text × ℚ) :=
  [("rm -rf".toList,8 / 10),
    ("os.remove".toList,4 / 10),
    ("shutil.rmtree".toList,7 / 10),
    ("subprocess.Popen".toList,3 / 10),
    ("socket.connect".toList,2 / 10),
    ("requests.post".toList,2 / 10),
    ("set_env".toList,1 / 10)]

def invariantScore (actionCode : Text) : List SafetyInvariant → ℚ → Result ℚ
  | [],score => .ok score
  | invariant :: rest,score => do
      let found ← patternIn invariant.pattern actionCode
      invariantScore actionCode rest (if found then score + 5 / 10 else score)

def keywordScore (actionCode : Text) (score : ℚ) : ℚ :=
  riskKeywords.foldl (fun score row => if textIn row.1 actionCode then score + row.2 else score) score

def calculateBaseRisk (actionCode : Text) : Result ℚ := do
  let score ← invariantScore actionCode (forbiddenPatterns tables) 0
  return min (keywordScore actionCode score) 1

def estimateBlastRadius (baseRisk : ℚ) : BlastRadius × List Text :=
  if baseRisk < 3 / 10 then (.local,["Minimal change to local state".toList])
  else if 3 / 10 ≤ baseRisk ∧ baseRisk < 7 / 10 then
    (.systemic,["Potential modification of application configuration".toList,"Temporary service interruption".toList])
  else
    (.global,["Permanent data loss in target directory".toList,"System-wide stability degradation".toList,
      "Security perimeter breach".toList])

def mitigations (baseRisk : ℚ) (isReversible : Bool) : List Text :=
  (if 5 / 10 < baseRisk then
    ["Create a full system snapshot before execution".toList,"Run in a restricted container with no network access".toList]
  else []) ++ (if isReversible then [] else ["Verify existence of off-site backups".toList])

-- The context is handed on to the estimate, which does not look at it.
def simulate (actionCode : Text) (_context : Context) : Result SimulationResult := do
  let baseRisk ← calculateBaseRisk tables actionCode
  let isReversible := !(textIn "rm ".toList actionCode || textIn "delete".toList (tables.lower actionCode))
  return ⟨baseRisk,(estimateBlastRadius baseRisk).2,(estimateBlastRadius baseRisk).1,mitigations baseRisk isReversible,isReversible⟩

-- A score in range that sees what the other scanner sees and that more lines only raise.
def Scored (actionCode : Text) (context : Context) : Prop :=
  ∃ result, simulate tables actionCode context = .ok result ∧ 0 ≤ result.riskScore ∧ result.riskScore ≤ 1 ∧
    (checkViolation tables actionCode none ≠ [] → 1 / 2 ≤ result.riskScore) ∧
    ∀ (lines : Text) longer, simulate tables (actionCode ++ '\n' :: lines) context = .ok longer →
      result.riskScore ≤ longer.riskScore ∧ result.blastRadius.rank ≤ longer.blastRadius.rank

-- What does not go through the registry is in order.
theorem textIn_longer {keyword text : Text} (found : textIn keyword text = true) (more : Text) :
    textIn keyword (text ++ more) = true := by
  rw [textIn,decide_eq_true_eq] at found ⊢
  exact found.trans (List.prefix_append text more).isInfix

theorem riskKeywords_weigh : ∀ row ∈ riskKeywords, 0 ≤ row.2 := by
  intro row listed
  simp only [riskKeywords,List.mem_cons,List.not_mem_nil,or_false] at listed
  rcases listed with rfl | rfl | rfl | rfl | rfl | rfl | rfl <;> norm_num

theorem weighed_longer {rows : List (Text × ℚ)} (weigh : ∀ row ∈ rows, 0 ≤ row.2) (actionCode more : Text)
    {score later : ℚ} (most : score ≤ later) :
    rows.foldl (fun score row => if textIn row.1 actionCode then score + row.2 else score) score ≤
      rows.foldl (fun score row => if textIn row.1 (actionCode ++ more) then score + row.2 else score) later := by
  induction rows generalizing score later with
  | nil => exact most
  | cons row rest ih =>
      rw [List.forall_mem_cons] at weigh
      refine ih weigh.2 ?_
      dsimp only
      by_cases found : textIn row.1 actionCode = true
      · rw [if_pos found,if_pos (textIn_longer found more)]
        exact add_le_add most le_rfl
      · rw [if_neg found]
        split
        · exact most.trans (le_add_of_nonneg_right weigh.1)
        · exact most

theorem keywordScore_longer (actionCode more : Text) {score later : ℚ} (most : score ≤ later) :
    keywordScore actionCode score ≤ keywordScore (actionCode ++ more) later :=
  weighed_longer riskKeywords_weigh actionCode more most

theorem estimateBlastRadius_rank {baseRisk later : ℚ} (most : baseRisk ≤ later) :
    (estimateBlastRadius baseRisk).1.rank ≤ (estimateBlastRadius later).1.rank := by
  unfold estimateBlastRadius
  by_cases small : baseRisk < 3 / 10
  · rw [if_pos small]
    exact Nat.zero_le _
  · have grown : ¬ later < 3 / 10 := fun less => small (most.trans_lt less)
    rw [if_neg small,if_neg grown]
    by_cases large : later < 7 / 10
    · rw [if_pos ⟨not_lt.mp small,most.trans_lt large⟩,if_pos ⟨not_lt.mp grown,large⟩]
    · have out : ¬ (3 / 10 ≤ later ∧ later < 7 / 10) := fun both => large both.2
      rw [if_neg out]
      split
      · exact Nat.le_succ 1
      · exact le_rfl

-- The registry is not empty, and its first pattern is one operand too many.
theorem simulate_raises (actionCode : Text) (context : Context) : simulate tables actionCode context =
    .error (TypeError "'in <string>' requires string as left operand, not re.Pattern".toList) := rfl

theorem scored_never (actionCode : Text) (context : Context) : ¬ Scored tables actionCode context := by
  rintro ⟨result,answered,_⟩
  rw [simulate_raises] at answered
  cases answered

theorem greeting_raises : ¬ Scored ascii "print('hello')".toList () := by
  rintro ⟨result,answered,_⟩
  rw [simulate_raises] at answered
  cases answered

end Kryvaracode.Simulator
