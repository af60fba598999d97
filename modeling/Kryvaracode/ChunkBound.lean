import Kryvaracode.ChunkWords

namespace Kryvaracode.Chunking
open UnicodeText Runs

variable (chunker : Chunker)

def Fits (chunk : Text) : Prop := chunk ≠ [] ∧ chunk.length ≤ chunker.chunkSize

-- A chunk that takes a tail along has room for it and for its sentence.
def TailFits (packing : Packing) (sentence : Text) : Prop :=
  sentence.length ≤ chunker.chunkSize → chunker.chunkSize < (candidate packing.current sentence).length →
    (strip (chunker.applyOverlap packing.current sentence)).length ≤ chunker.chunkSize

-- What is packed fits, and so does the chunk in the making once it is stripped.
def AllFit (packing : Packing) : Prop :=
  (∀ chunk ∈ packing.chunks, Fits chunker chunk) ∧ (strip packing.current).length ≤ chunker.chunkSize

section Lemmas
variable {chunker}

theorem flushed_fits (packing : Packing) : (∀ chunk ∈ packing.flushed, Fits chunker chunk) ↔ AllFit chunker packing := by
  unfold Packing.flushed AllFit
  split
  next blank =>
    rw [blank]
    exact (and_iff_left (Nat.zero_le _)).symm
  next some_there =>
    rw [List.forall_mem_append,List.forall_mem_singleton]
    exact and_congr_right fun _ => and_iff_right some_there

theorem length_candidate (current next : Text) : current.length ≤ (candidate current next).length := by
  unfold candidate
  split
  next empty =>
    rw [empty]
    exact Nat.zero_le _
  next =>
    rw [List.length_append]
    exact Nat.le_add_right _ _

theorem word_fits {text word : Text} (listed : word ∈ words text) : Fits chunker word ↔ word.length ≤ chunker.chunkSize :=
  and_iff_right (word_some listed)

-- A word longer than a chunk is the one way in which a sentence is split too coarsely.
theorem pack_word_fits {text word : Text} (listed : word ∈ words text) (packing : Packing)
    (short : packing.current.length ≤ chunker.chunkSize) :
    (chunker.packWord packing word).current.length ≤ chunker.chunkSize ∧
      (AllFit chunker (chunker.packWord packing word) ↔ AllFit chunker packing ∧ word.length ≤ chunker.chunkSize) := by
  have stripped : ∀ text : Text, text.length ≤ chunker.chunkSize → (strip text).length ≤ chunker.chunkSize :=
    fun text fits => (strip_length text).trans fits
  unfold Chunker.packWord
  split
  next room =>
    refine ⟨room,?_⟩
    have small : word.length ≤ chunker.chunkSize := by
      refine le_trans ?_ room
      unfold candidate
      split
      · exact le_rfl
      · rw [List.length_append,List.length_cons]
        omega
    unfold AllFit
    rw [and_iff_left (stripped _ room),and_iff_left (stripped _ short),and_iff_left small]
  next =>
    split
    next long =>
      refine ⟨Nat.zero_le _,?_⟩
      have nothing : (strip []).length ≤ chunker.chunkSize := Nat.zero_le _
      unfold AllFit
      rw [and_iff_left nothing,List.forall_mem_append,List.forall_mem_singleton,flushed_fits,word_fits listed]
      rfl
    next small =>
      have fits := not_lt.mp small
      refine ⟨fits,?_⟩
      unfold AllFit
      rw [and_iff_left (stripped _ fits),flushed_fits,and_iff_left fits]
      rfl

theorem long_sentence_fits (sentence : Text) : (∀ chunk ∈ chunker.splitLongSentence sentence, Fits chunker chunk) ↔
    ∀ word ∈ words sentence, word.length ≤ chunker.chunkSize := by
  have packed : ∀ given : List Text, (∀ word ∈ given, word ∈ words sentence) → ∀ packing : Packing,
      packing.current.length ≤ chunker.chunkSize → (AllFit chunker (run chunker.packWord packing given) ↔
        AllFit chunker packing ∧ ∀ word ∈ given, word.length ≤ chunker.chunkSize) := by
    intro given
    induction given with
    | nil =>
        intro _ packing _
        rw [run_nil]
        exact (and_iff_left (by simp)).symm
    | cons word rest ih =>
        intro inside packing short
        rw [List.forall_mem_cons] at inside
        obtain ⟨next,step⟩ := pack_word_fits inside.1 packing short
        rw [run_cons,ih inside.2 _ next,step,List.forall_mem_cons,and_assoc]
  have start : AllFit chunker ⟨[],[]⟩ := ⟨by simp,Nat.zero_le _⟩
  rw [Chunker.splitLongSentence,flushed_fits,packed _ (fun _ listed => listed) _ (Nat.zero_le _),and_iff_right start]

theorem pack_sentence_fits (packing : Packing) (sentence : Text) : AllFit chunker (chunker.packSentence packing sentence) ↔
    AllFit chunker packing ∧ (∀ word ∈ words sentence, word.length ≤ chunker.chunkSize) ∧ TailFits chunker packing sentence := by
  unfold Chunker.packSentence TailFits
  split
  next long =>
    have left : (strip (if strip packing.current = [] then packing.current else [])).length ≤ chunker.chunkSize := by
      split
      next blank =>
        rw [blank]
        exact Nat.zero_le _
      next => exact Nat.zero_le _
    unfold AllFit
    rw [and_iff_left left,List.forall_mem_append,flushed_fits,long_sentence_fits]
    have vacuous : ∀ other : Prop, sentence.length ≤ chunker.chunkSize → other := fun _ short => absurd long (not_lt.mpr short)
    rw [and_iff_left (vacuous _)]
    rfl
  next short =>
    have small := not_lt.mp short
    have all : ∀ word ∈ words sentence, word.length ≤ chunker.chunkSize := fun _ listed => (word_length listed).trans small
    rw [and_iff_right all,forall_prop_of_true small]
    split
    next room =>
      have kept : (strip (candidate packing.current sentence)).length ≤ chunker.chunkSize := (strip_length _).trans room
      have before : (strip packing.current).length ≤ chunker.chunkSize :=
        (strip_length _).trans ((length_candidate _ _).trans room)
      unfold AllFit
      rw [and_iff_left kept,and_iff_left before]
      exact (and_iff_left fun more => absurd room (not_le.mpr more)).symm
    next full =>
      rw [forall_prop_of_true (not_le.mp full)]
      unfold AllFit
      rw [flushed_fits]
      rfl

theorem packed_fit (packing : Packing) (sentences : List Text) :
    AllFit chunker (run chunker.packSentence packing sentences) ↔ AllFit chunker packing ∧
      (∀ word ∈ sentences.flatMap words, word.length ≤ chunker.chunkSize) ∧
        Steps chunker.packSentence (TailFits chunker) packing sentences := by
  induction sentences generalizing packing with
  | nil => simp [Steps]
  | cons sentence rest ih =>
      rw [run_cons,ih,pack_sentence_fits,List.flatMap_cons,List.forall_mem_append,Steps]
      tauto

theorem chunks_fit (text : Text) : (∀ chunk ∈ chunker.chunk text, Fits chunker chunk) ↔
    (∀ word ∈ words text, word.length ≤ chunker.chunkSize) ∧
      Steps chunker.packSentence (TailFits chunker) ⟨[],[]⟩ (splitSentences text) := by
  have start : AllFit chunker ⟨[],[]⟩ := ⟨by simp,Nat.zero_le _⟩
  rw [chunk_packed,flushed_fits,packed_fit,and_iff_right start,sentences_words]

-- With no overlap no tail is taken along.
theorem bound_without_overlap (none : chunker.overlap = 0) (text : Text)
    (short : ∀ word ∈ words text, word.length ≤ chunker.chunkSize) : ∀ chunk ∈ chunker.chunk text, Fits chunker chunk := by
  apply (chunks_fit text).mpr
  refine ⟨short,steps_forall ?_ _⟩
  intro sentence _ packing small _
  rw [Chunker.applyOverlap,if_pos (.inl none)]
  exact (strip_length sentence).trans small

end Lemmas

theorem chunk_bound_exact (text : Text) : (∀ chunk ∈ chunker.chunk text, chunk ≠ [] ∧ chunk.length ≤ chunker.chunkSize) ↔
    (∀ word ∈ words text, word.length ≤ chunker.chunkSize) ∧
      Steps chunker.packSentence (TailFits chunker) ⟨[],[]⟩ (splitSentences text) := chunks_fit text

-- The tail of the first sentence and the second one make sixteen characters of ten.
theorem chunk_over_size : ¬ ∀ chunk ∈ (Chunker.mk 10 5 (by decide)).chunk "abcdefgh. klmnopqrs.".toList,
    chunk ≠ [] ∧ chunk.length ≤ 10 := by
  decide

end Kryvaracode.Chunking
