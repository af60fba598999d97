import Kryvaracode.Chunker

namespace Kryvaracode.Chunking
open UnicodeText Runs
open Patterns (fields fieldsFrom fields_append)

section Sentences

-- Only white space is taken out between the parts.
theorem sentencesFrom_words (part : Text) (scan : Scan) (text : Text) (fresh : scan = .cut → part = []) :
    (sentencesFrom part scan text).flatMap words = words (part ++ text) := by
  induction text generalizing part scan with
  | nil => rw [sentencesFrom,List.flatMap_singleton,List.append_nil]
  | cons c rest ih =>
      have onward : ∀ next : Scan, next ≠ .cut →
          (sentencesFrom (part ++ [c]) next rest).flatMap words = words (part ++ c :: rest) := by
        intro next other
        rw [ih (part ++ [c]) next fun same => absurd same other,List.append_assoc,List.singleton_append]
      have plain : (sentencesFrom (part ++ [c]) (if terminator c then .ended else .within) rest).flatMap words =
          words (part ++ c :: rest) := by
        apply onward
        cases terminator c <;> exact Scan.noConfusion
      cases blank : space c with
      | false =>
          simp only [sentencesFrom,blank]
          exact plain
      | true =>
          have apart : words (part ++ c :: rest) = words part ++ words rest := fields_append space part c rest blank
          cases scan with
          | ended =>
              simp only [sentencesFrom,blank]
              rw [List.flatMap_cons,ih [] .cut fun _ => rfl,apart]
              rfl
          | cut =>
              simp only [sentencesFrom,blank]
              rw [apart,fresh rfl]
              exact ih [] .cut fun _ => rfl
          | within =>
              simp only [sentencesFrom,blank]
              exact plain

theorem sentences_words (text : Text) : (splitSentences text).flatMap words = words text := by
  have parts := sentencesFrom_words [] .within text fun _ => rfl
  unfold splitSentences
  rw [List.nil_append] at parts
  rw [← parts]
  generalize sentencesFrom [] .within text = parts_
  induction parts_ with
  | nil => rfl
  | cons part rest ih =>
      rw [List.flatMap_cons,List.filter_cons]
      split
      next => rw [List.flatMap_cons,ih]
      next blank =>
        have none_there : strip part = [] := by simpa using blank
        rw [words_blank none_there,ih,List.nil_append]

theorem sentence_some {text sentence : Text} (listed : sentence ∈ splitSentences text) : strip sentence ≠ [] :=
  of_decide_eq_true (List.mem_filter.mp listed).2

theorem blank_sentences {text : Text} (blank : strip text = []) : splitSentences text = [] := by
  apply List.eq_nil_iff_forall_not_mem.mpr
  intro sentence listed
  have all := sentences_words text
  rw [words_blank blank,List.flatMap_eq_nil_iff] at all
  exact sentence_some listed (strip_blank (all sentence listed))

end Sentences

section Content
variable (chunker : Chunker)

-- The words that a packing holds, those of its chunks and of the one in the making.
def Packing.content (packing : Packing) : List Text := packing.chunks.flatMap words ++ words packing.current

theorem pack_word_content {text word : Text} (listed : word ∈ words text) (packing : Packing) :
    (chunker.packWord packing word).content = packing.content ++ [word] := by
  unfold Chunker.packWord
  split
  next => rw [Packing.content,words_candidate,word_alone listed,← List.append_assoc,Packing.content]
  next =>
    split
    next =>
      rw [Packing.content,List.flatMap_append,words_flushed,List.flatMap_singleton,word_alone listed]
      exact List.append_nil _
    next =>
      rw [Packing.content,words_flushed,word_alone listed]
      rfl

theorem long_sentence_words (sentence : Text) : (chunker.splitLongSentence sentence).flatMap words = words sentence := by
  have packed : ∀ given : List Text, (∀ word ∈ given, word ∈ words sentence) → ∀ packing : Packing,
      (run chunker.packWord packing given).content = packing.content ++ given := by
    intro given
    induction given with
    | nil =>
        intro _ packing
        rw [run_nil,List.append_nil]
    | cons word rest ih =>
        intro inside packing
        rw [List.forall_mem_cons] at inside
        rw [run_cons,ih inside.2,pack_word_content chunker inside.1,List.append_assoc,List.singleton_append]
  rw [Chunker.splitLongSentence,words_flushed]
  exact packed (words sentence) (fun _ listed => listed) ⟨[],[]⟩

theorem overlap_words (previous nextSentence : Text) : ∃ carried,
    words (chunker.applyOverlap previous nextSentence) = carried ++ words nextSentence ∧
      (chunker.overlap = 0 → carried = []) := by
  unfold Chunker.applyOverlap
  split
  next => exact ⟨[],rfl,fun _ => rfl⟩
  next carries => exact ⟨_,words_apart _ _,fun none => absurd (.inl none) carries⟩

-- A sentence adds its words behind what was read, with those of the tail before them.
theorem pack_sentence_content (packing : Packing) (sentence : Text) : ∃ carried,
    (chunker.packSentence packing sentence).content = packing.content ++ carried ++ words sentence ∧
      (chunker.overlap = 0 → carried = []) := by
  unfold Chunker.packSentence
  split
  next =>
    refine ⟨[],?_,fun _ => rfl⟩
    have left : words (if strip packing.current = [] then packing.current else []) = [] := by
      split
      next blank => exact words_blank blank
      next => rfl
    rw [Packing.content,List.flatMap_append,words_flushed,long_sentence_words,left,List.append_nil,List.append_nil]
    rfl
  next =>
    split
    next =>
      refine ⟨[],?_,fun _ => rfl⟩
      rw [Packing.content,words_candidate,List.append_nil,← List.append_assoc,Packing.content]
    next =>
      obtain ⟨carried,tail,none_carried⟩ := overlap_words chunker packing.current sentence
      refine ⟨carried,?_,none_carried⟩
      rw [Packing.content,words_flushed,tail,← List.append_assoc]
      rfl

theorem packed_words (packing : Packing) (sentences : List Text) :
    (packing.content ++ sentences.flatMap words).Sublist (run chunker.packSentence packing sentences).content ∧
      (chunker.overlap = 0 → (run chunker.packSentence packing sentences).content =
        packing.content ++ sentences.flatMap words) := by
  induction sentences generalizing packing with
  | nil =>
      rw [List.flatMap_nil,List.append_nil]
      exact ⟨.refl _,fun _ => rfl⟩
  | cons sentence rest ih =>
      obtain ⟨carried,grown,none_carried⟩ := pack_sentence_content chunker packing sentence
      obtain ⟨kept,same⟩ := ih (chunker.packSentence packing sentence)
      rw [run_cons,List.flatMap_cons,← List.append_assoc]
      rw [grown] at kept same
      refine ⟨.trans ?_ kept,?_⟩
      · apply List.Sublist.append_right
        apply List.Sublist.append_right
        exact List.sublist_append_left packing.content carried
      · intro none
        rw [same none,none_carried none,List.append_nil]

-- Blank text is looked at before it is split, and has nothing to pack.
theorem chunk_packed (text : Text) : chunker.chunk text = (run chunker.packSentence ⟨[],[]⟩ (splitSentences text)).flushed := by
  unfold Chunker.chunk
  split
  next blank =>
    have none_there : strip text = [] := by
      rcases blank with rfl | blank
      · rfl
      · exact blank
    rw [blank_sentences none_there]
    rfl
  next =>
    split
    next none_there =>
      rw [none_there]
      rfl
    next => rfl

end Content

theorem chunks_keep_words (chunker : Chunker) (text : Text) :
    (words text).Sublist ((chunker.chunk text).flatMap words) ∧
      (chunker.overlap = 0 → (chunker.chunk text).flatMap words = words text) := by
  have kept := packed_words chunker ⟨[],[]⟩ (splitSentences text)
  rw [sentences_words] at kept
  rw [chunk_packed,words_flushed]
  exact kept

end Kryvaracode.Chunking
