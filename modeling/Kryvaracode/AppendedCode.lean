import Kryvaracode.Aegis

namespace Kryvaracode.Aegis
open Patterns UnicodeText

variable (tables : Tables)

-- No pattern of the registry has an anchor, and to a word edge a line feed is like an end.
theorem registry_blind (invariant : SafetyInvariant) (registered : invariant ∈ forbiddenPatterns tables) :
    SameEdges invariant.pattern none (some '\n') := by
  have blank : tables.alnum '\n' = false := tables.alnum_space '\n' (by decide)
  have outside : tables.word '\n' = false := by
    rw [Tables.word,blank]
    rfl
  simp only [forbiddenPatterns,List.mem_cons,List.not_mem_nil,or_false] at registered
  rcases registered with rfl | rfl | rfl | rfl | rfl | rfl
  · delta recursiveDelete anything
    simp [seqs,alts,literal,plus,many,SameEdges]
  · delta systemFileAccess
    simp [seqs,alts,literal,SameEdges]
  · delta arbitraryRemoteShell anything
    simp [seqs,alts,literal,many,SameEdges]
  · delta unauthorizedSocket internalHosts anything digits dot
    simp [seqs,alts,literal,plus,many,SameEdges,outside]
  · delta ctypesMemoryAccess
    simp [seqs,alts,literal,SameEdges]
  · delta processTermination
    simp [seqs,alts,literal,SameEdges]

theorem registry_appended {invariant : SafetyInvariant} (registered : invariant ∈ forbiddenPatterns tables) {one two : Text}
    (found : search invariant.pattern one = true ∨ search invariant.pattern two = true) :
    search invariant.pattern (one ++ '\n' :: two) = true :=
  search_beside (registry_blind tables invariant registered) found

theorem violations_appended (one two : Text) (targetPath : Option Text) :
    (checkViolation tables one targetPath).Sublist (checkViolation tables (one ++ '\n' :: two) targetPath) ∧
      (checkViolation tables two targetPath).Sublist (checkViolation tables (one ++ '\n' :: two) targetPath) := by
  have kept : ∀ part : Text, (∀ invariant ∈ forbiddenPatterns tables, search invariant.pattern part = true →
      search invariant.pattern (one ++ '\n' :: two) = true) →
        (checkViolation tables part targetPath).Sublist (checkViolation tables (one ++ '\n' :: two) targetPath) := by
    intro part found
    have narrowed : checkViolation tables part targetPath =
        (checkViolation tables (one ++ '\n' :: two) targetPath).filter fun invariant => search invariant.pattern part := by
      unfold checkViolation
      rw [List.filter_filter]
      refine List.filter_congr fun invariant registered => ?_
      cases seen : search invariant.pattern part with
      | false => rfl
      | true =>
          rw [found invariant registered seen]
          rfl
    rw [narrowed]
    exact List.filter_sublist
  exact ⟨kept one fun invariant registered found => registry_appended tables registered (.inl found),
    kept two fun invariant registered found => registry_appended tables registered (.inr found)⟩

def riskScore (code : Text) (metadata : Metadata) : Nat := (verifyCode tables code metadata).2.2

theorem riskScore_exact (code : Text) (metadata : Metadata) : riskScore tables code metadata =
    ((checkViolation tables code metadata.targetPath).map fun invariant => invariant.riskLevel.value).sum := by
  rw [riskScore,verifyCode_exact]
  split
  · rename_i clean
    rw [List.isEmpty_iff.mp clean]
    rfl
  · rfl

theorem riskScore_sublist {code longer : Text} {metadata : Metadata}
    (more : (checkViolation tables code metadata.targetPath).Sublist (checkViolation tables longer metadata.targetPath)) :
    riskScore tables code metadata ≤ riskScore tables longer metadata := by
  rw [riskScore_exact,riskScore_exact]
  exact (more.map _).sum_le_sum fun _ _ => Nat.zero_le _

theorem aegis_monotone (one two : Text) (metadata : Metadata) :
    (∀ invariant, invariant ∈ checkViolation tables one metadata.targetPath ∨
        invariant ∈ checkViolation tables two metadata.targetPath →
      invariant ∈ checkViolation tables (one ++ '\n' :: two) metadata.targetPath) ∧
    max (riskScore tables one metadata) (riskScore tables two metadata) ≤ riskScore tables (one ++ '\n' :: two) metadata ∧
    ((verifyCode tables (one ++ '\n' :: two) metadata).1 = true →
      (verifyCode tables one metadata).1 = true ∧ (verifyCode tables two metadata).1 = true) := by
  obtain ⟨left,right⟩ := violations_appended tables one two metadata.targetPath
  refine ⟨?_,max_le (riskScore_sublist tables left) (riskScore_sublist tables right),?_⟩
  · rintro invariant (found | found)
    · exact left.subset found
    · exact right.subset found
  · intro safe
    rw [verifyCode_safe] at safe ⊢
    rw [verifyCode_safe]
    rw [safe] at left right
    exact ⟨List.sublist_nil.mp left,List.sublist_nil.mp right⟩

end Kryvaracode.Aegis
