import Kryvaracode.SovereignManager

namespace Kryvaracode.Evolver
open UnicodeText Aegis SovereignManager

structure EvolutionProposal where
  targetFile : Text
  oldCode : Text
  newCode : Text
  reasoning : Text
  expectedImprovement : Text
  riskScore : ℚ
  deriving DecidableEq, Repr

structure SelfEvolver where
  evolutionHistory : List EvolutionProposal
  deriving DecidableEq, Repr

variable (tables : Tables)

def analyzeBottlenecks : List Text :=
  ["SovereignManager.execute_loop latency".toList,"AegisVerifier scan overhead".toList]

def synthesizeRefactor (targetComponent : Text) : Option EvolutionProposal :=
  if "SovereignManager".toList <:+: targetComponent then
    some {
      targetFile := "src/agent/sovereign/manager.py".toList
      oldCode := "def execute_loop(self): # old sync logic".toList
      newCode := "async def execute_loop(self): # optimized async logic".toList
      reasoning := "Conversion to async reduces blocking during swarm adjudication.".toList
      expectedImprovement := "~20% reduction in loop latency".toList
      riskScore := 1 / 5 }
  else none

-- `is_safe, _ = self.verifier.verify_code(proposal.new_code, {})`
def applyEvolution (evolver : SelfEvolver) (proposal : EvolutionProposal) : SelfEvolver × Result Bool :=
  match unpackTwo (aegisVerifier tables proposal.newCode ⟨none,none⟩) with
  | .error exc => (evolver,.error exc)
  | .ok (isSafe,_) =>
      if isSafe.truthy then (⟨evolver.evolutionHistory ++ [proposal]⟩,.ok true) else (evolver,.ok false)

def evolveEach (evolver : SelfEvolver) : List Text → SelfEvolver × Result Unit
  | [] => (evolver,.ok ())
  | target :: rest =>
      match synthesizeRefactor target with
      | none => evolveEach evolver rest
      | some proposal =>
          match applyEvolution tables evolver proposal with
          | (after,.error exc) => (after,.error exc)
          | (after,.ok _) => evolveEach after rest

def evolve (evolver : SelfEvolver) : SelfEvolver × Result Unit := evolveEach tables evolver analyzeBottlenecks

-- An answer to the proposal, told by what the code violates.
def Gated (evolver : SelfEvolver) (proposal : EvolutionProposal) : Prop :=
  (checkViolation tables proposal.newCode none = [] →
      applyEvolution tables evolver proposal = (⟨evolver.evolutionHistory ++ [proposal]⟩,.ok true)) ∧
    (checkViolation tables proposal.newCode none ≠ [] → applyEvolution tables evolver proposal = (evolver,.ok false))

-- The verifier answers with three items here as well.
theorem applyEvolution_raises (evolver : SelfEvolver) (proposal : EvolutionProposal) :
    applyEvolution tables evolver proposal = (evolver,.error (ValueError "too many values to unpack (expected 2)".toList)) :=
  rfl

theorem gated_never (evolver : SelfEvolver) (proposal : EvolutionProposal) : ¬ Gated tables evolver proposal := by
  rintro ⟨accepts,refuses⟩
  rw [applyEvolution_raises] at accepts refuses
  by_cases clean : checkViolation tables proposal.newCode none = []
  · exact nomatch (Prod.mk.inj (accepts clean)).2
  · exact nomatch (Prod.mk.inj (refuses clean)).2

def harmless : EvolutionProposal := ⟨['f'],['x'],['y'],[],[],0⟩

theorem harmless_raises : ¬ Gated ascii ⟨[]⟩ harmless := by
  rintro ⟨accepts,refuses⟩
  rw [applyEvolution_raises] at accepts
  exact nomatch (Prod.mk.inj (accepts (by decide))).2

-- A component that has a refactor stops the round, whatever comes before and behind it.
theorem evolveEach_raises (evolver : SelfEvolver) (front rest : List Text) (target : Text)
    (quiet : ∀ other ∈ front, synthesizeRefactor other = none) (proposed : (synthesizeRefactor target).isSome) :
    evolveEach tables evolver (front ++ target :: rest) =
      (evolver,.error (ValueError "too many values to unpack (expected 2)".toList)) := by
  induction front with
  | nil =>
      obtain ⟨proposal,found⟩ := Option.isSome_iff_exists.mp proposed
      rw [List.nil_append,evolveEach,found]
      rfl
  | cons other front ih =>
      rw [List.forall_mem_cons] at quiet
      rw [List.cons_append,evolveEach,quiet.1]
      exact ih quiet.2

theorem evolve_raises (evolver : SelfEvolver) :
    evolve tables evolver = (evolver,.error (ValueError "too many values to unpack (expected 2)".toList)) := by
  have named : "SovereignManager".toList <:+: "SovereignManager.execute_loop latency".toList := by
    refine ⟨[],".execute_loop latency".toList,?_⟩
    repeat rewrite [String.toList_ofList]
    rfl
  have proposed : (synthesizeRefactor "SovereignManager.execute_loop latency".toList).isSome = true := by
    delta synthesizeRefactor
    rw [if_pos named]
    rfl
  have quiet : ∀ other ∈ ([] : List Text), synthesizeRefactor other = none := fun _ listed => nomatch listed
  have raised := evolveEach_raises tables evolver [] ["AegisVerifier scan overhead".toList]
    "SovereignManager.execute_loop latency".toList quiet proposed
  rw [List.nil_append] at raised
  delta evolve analyzeBottlenecks
  exact raised

end Kryvaracode.Evolver
