import Kryvaracode.Exceptions
import Kryvaracode.Runs

namespace Kryvaracode.Chunking
open UnicodeText Runs
open Patterns (fields fieldsFrom fields_append)

-- Sizes that the constructor accepts.
structure Chunker where
  chunkSize : Nat
  overlap : Nat
  smaller : overlap < chunkSize

theorem sizes_smaller {chunkSize overlap : Int} (positive : ¬ chunkSize ≤ 0) (less : ¬ chunkSize ≤ overlap) :
    overlap.toNat < chunkSize.toNat := by omega

def Chunker.new (chunkSize overlap : Int) : Result Chunker :=
  if positive : chunkSize ≤ 0 then .error (ValueError "chunk_size must be positive".toList)
  else if overlap < 0 then .error (ValueError "overlap must be non-negative".toList)
  else if less : chunkSize ≤ overlap then .error (ValueError "overlap must be less than chunk_size".toList)
  else .ok ⟨chunkSize.toNat,overlap.toNat,sizes_smaller positive less⟩

def words (text : Text) : List Text := fields space text

def terminator (c : Char) : Bool := c = '.' || c = '!' || c = '?'

-- Where the scan stands: behind the end of a sentence, in the white space that is
-- taken out behind it, or anywhere else.
inductive Scan where
  | ended
  | cut
  | within

-- `re.split` at white space that follows a terminator.
def sentencesFrom : Text → Scan → Text → List Text
  | part,_,[] => [part]
  | part,scan,c :: rest =>
      match space c,scan with
      | true,.ended => part :: sentencesFrom [] .cut rest
      | true,.cut => sentencesFrom part .cut rest
      | _,_ => sentencesFrom (part ++ [c]) (if terminator c then .ended else .within) rest

def splitSentences (text : Text) : List Text := (sentencesFrom [] .within text).filter fun part => decide (strip part ≠ [])

-- The chunks so far, and the one that is being packed.
structure Packing where
  chunks : List Text
  current : Text

def candidate (current next : Text) : Text := if current = [] then next else current ++ ' ' :: next

def Packing.flushed (packing : Packing) : List Text :=
  if strip packing.current = [] then packing.chunks else packing.chunks ++ [strip packing.current]

namespace Chunker
variable (chunker : Chunker)

def applyOverlap (previous nextSentence : Text) : Text :=
  if chunker.overlap = 0 ∨ previous = [] then nextSentence
  else
    let tail := previous.drop (previous.length - chunker.overlap)
    -- A word that the cut went through is left out.
    let kept := if ' ' ∈ tail then (tail.dropWhile fun c => decide (c ≠ ' ')).drop 1 else tail
    kept ++ ' ' :: nextSentence

def packWord (packing : Packing) (word : Text) : Packing :=
  if (candidate packing.current word).length ≤ chunker.chunkSize then {packing with current := candidate packing.current word}
  else if chunker.chunkSize < word.length then ⟨packing.flushed ++ [word],[]⟩
  else ⟨packing.flushed,word⟩

def splitLongSentence (sentence : Text) : List Text := (run chunker.packWord ⟨[],[]⟩ (words sentence)).flushed

def packSentence (packing : Packing) (sentence : Text) : Packing :=
  if chunker.chunkSize < sentence.length then
    ⟨packing.flushed ++ chunker.splitLongSentence sentence,if strip packing.current = [] then packing.current else []⟩
  else if (candidate packing.current sentence).length ≤ chunker.chunkSize then
    {packing with current := candidate packing.current sentence}
  else ⟨packing.flushed,chunker.applyOverlap packing.current sentence⟩

def chunk (text : Text) : List Text :=
  if text = [] ∨ strip text = [] then []
  else if splitSentences text = [] then []
  else (run chunker.packSentence ⟨[],[]⟩ (splitSentences text)).flushed

end Chunker

example : (Chunker.new 512 512).toOption.isNone = true ∧ (Chunker.new 512 0).toOption.isSome = true := by decide

section Words

theorem fieldsFrom_members {separator : Char → Bool} {part text word : Text} (clean : ∀ c ∈ part, separator c = false)
    (listed : word ∈ fieldsFrom separator part text) : word ≠ [] ∧ ∀ c ∈ word, separator c = false := by
  induction text generalizing part with
  | nil =>
      cases part with
      | nil => cases listed
      | cons c part =>
          rw [fieldsFrom,List.mem_singleton] at listed
          · exact listed ▸ ⟨List.cons_ne_nil c part,clean⟩
          · exact List.cons_ne_nil c part
  | cons c text ih =>
      rw [fieldsFrom] at listed
      split at listed
      next cut =>
        split at listed
        next => exact ih (by simp) listed
        next some_read =>
          rcases List.mem_cons.mp listed with rfl | later
          · exact ⟨fun empty => some_read (by rw [empty]; rfl),clean⟩
          · exact ih (by simp) later
      next solid =>
        refine ih ?_ listed
        intro d inside
        rcases List.mem_append.mp inside with before | last
        · exact clean d before
        · rw [List.mem_singleton.mp last]
          exact Bool.eq_false_iff.mpr solid

theorem fieldsFrom_length {separator : Char → Bool} {part text word : Text} (listed : word ∈ fieldsFrom separator part text) :
    word.length ≤ part.length + text.length := by
  induction text generalizing part with
  | nil =>
      cases part with
      | nil => cases listed
      | cons c part => exact (congrArg List.length (List.mem_singleton.mp listed)).le
  | cons c text ih =>
      rw [fieldsFrom] at listed
      rw [List.length_cons]
      split at listed
      next =>
        split at listed
        next =>
          have later := ih listed
          rw [List.length_nil] at later
          omega
        next =>
          rcases List.mem_cons.mp listed with rfl | after
          · omega
          · have later := ih after
            rw [List.length_nil] at later
            omega
      next =>
        have later := ih listed
        rw [List.length_append,List.length_singleton] at later
        omega

theorem fieldsFrom_solid {separator : Char → Bool} {part text : Text} (some_there : part ++ text ≠ [])
    (solid : ∀ c ∈ text, separator c = false) : fieldsFrom separator part text = [part ++ text] := by
  induction text generalizing part with
  | nil =>
      cases part with
      | nil => exact absurd rfl some_there
      | cons c part => simp [fieldsFrom]
  | cons c text ih =>
      rw [List.forall_mem_cons] at solid
      rw [fieldsFrom,if_neg (by simp [solid.1]),ih (by simp) solid.2,List.append_assoc,List.singleton_append]

theorem word_alone {text word : Text} (listed : word ∈ words text) : words word = [word] := by
  obtain ⟨some_there,solid⟩ := fieldsFrom_members (by simp) listed
  exact fieldsFrom_solid some_there solid

theorem word_some {text word : Text} (listed : word ∈ words text) : word ≠ [] :=
  (fieldsFrom_members (by simp) listed).1

theorem word_length {text word : Text} (listed : word ∈ words text) : word.length ≤ text.length := by
  have short := fieldsFrom_length listed
  rwa [List.length_nil,Nat.zero_add] at short

theorem words_apart (front back : Text) : words (front ++ ' ' :: back) = words front ++ words back :=
  fields_append space front ' ' back (by decide)

theorem words_strip (text : Text) : words (strip text) = words text := by
  obtain ⟨front,back,whole,left,right⟩ := strip_parts text
  exact (fields_strip front (strip text) back left right).symm.trans (congrArg words whole.symm)

theorem words_blank {text : Text} (blank : strip text = []) : words text = [] := by
  rw [← words_strip,blank]
  rfl

theorem fieldsFrom_none {separator : Char → Bool} {part text : Text} (none : fieldsFrom separator part text = []) :
    part = [] ∧ ∀ c ∈ text, separator c = true := by
  induction text generalizing part with
  | nil =>
      cases part with
      | nil => exact ⟨rfl,by simp⟩
      | cons c part => cases none
  | cons c text ih =>
      rw [fieldsFrom] at none
      split at none
      next cut =>
        split at none
        next empty => exact ⟨List.isEmpty_iff.mp empty,List.forall_mem_cons.mpr ⟨cut,(ih none).2⟩⟩
        next => cases none
      next => exact absurd (ih none).1 (by simp)

theorem strip_blank {text : Text} (none : words text = []) : strip text = [] := by
  have blank := (fieldsFrom_none none).2
  rw [strip,List.dropWhile_eq_nil_iff.mpr blank]
  rfl

theorem strip_length (text : Text) : (strip text).length ≤ text.length := by
  obtain ⟨front,back,whole,_,_⟩ := strip_parts text
  have sizes := congrArg List.length whole
  rw [List.length_append,List.length_append] at sizes
  omega

theorem words_candidate (current next : Text) : words (candidate current next) = words current ++ words next := by
  unfold candidate
  split
  next empty =>
    rw [empty]
    rfl
  next => exact words_apart current next

theorem words_flushed (packing : Packing) :
    packing.flushed.flatMap words = packing.chunks.flatMap words ++ words packing.current := by
  unfold Packing.flushed
  split
  next blank => rw [words_blank blank,List.append_nil]
  next => rw [List.flatMap_append,List.flatMap_singleton,words_strip]

end Words
end Kryvaracode.Chunking
