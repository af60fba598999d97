import Kryvaracode.ChunkBound

namespace Kryvaracode.Chunking
open UnicodeText Runs

-- A text that strip leaves alone.
def Trimmed (text : Text) : Prop := (∀ c ∈ text.head?, space c = false) ∧ ∀ c ∈ text.getLast?, space c = false

theorem dropWhile_trimmed {text : Text} (visible : ∀ c ∈ text.head?, space c = false) : text.dropWhile space = text := by
  cases text with
  | nil => rfl
  | cons c text =>
      have shown := visible c rfl
      rw [List.dropWhile_cons_of_neg]
      rw [shown]
      decide

theorem strip_trimmed {text : Text} (trimmed : Trimmed text) : strip text = text := by
  have reversed : ∀ c ∈ text.reverse.head?, space c = false := by
    rw [List.head?_reverse]
    exact trimmed.2
  rw [strip,dropWhile_trimmed trimmed.1,dropWhile_trimmed reversed,List.reverse_reverse]

theorem word_trimmed {text word : Text} (listed : word ∈ words text) : Trimmed word := by
  have solid := (fieldsFrom_members (by simp) listed).2
  exact ⟨fun c first => solid c (List.mem_of_mem_head? first),fun c last => solid c (List.mem_of_mem_getLast? last)⟩

theorem joined_trimmed {front back : Text} (first : Trimmed front) (last : Trimmed back) (front_some : front ≠ [])
    (back_some : back ≠ []) : Trimmed (front ++ ' ' :: back) := by
  constructor
  · intro c member
    rw [List.head?_append,List.head?_eq_some_head front_some,Option.some_or] at member
    exact first.1 c (by rwa [List.head?_eq_some_head front_some])
  · intro c member
    rw [List.getLast?_append,List.getLast?_cons_of_ne_nil back_some,List.getLast?_eq_some_getLast back_some,
      Option.some_or] at member
    exact last.2 c (by rwa [List.getLast?_eq_some_getLast back_some])

theorem candidate_trimmed {current word : Text} (first : Trimmed current) (last : Trimmed word) (some_there : word ≠ []) :
    Trimmed (candidate current word) := by
  unfold candidate
  split
  next => exact last
  next filled => exact joined_trimmed first last filled some_there

section Packing
variable (chunker : Chunker)

def Bounded (chunk : Text) : Prop :=
  chunk.length ≤ chunker.chunkSize ∨ chunker.chunkSize < chunk.length ∧ words chunk = [chunk]

-- Two chunks that fit, but not both in one.
def Apart (one two : Text) : Prop :=
  one.length ≤ chunker.chunkSize → two.length ≤ chunker.chunkSize → chunker.chunkSize < (one ++ ' ' :: two).length

-- The chunks with the one in the making behind them.
structure Tight (packing : Packing) : Prop where
  bounded : ∀ chunk ∈ packing.chunks, Bounded chunker chunk
  apart : (packing.chunks ++ [packing.current]).IsChain (Apart chunker)
  trimmed : Trimmed packing.current
  fits : packing.current.length ≤ chunker.chunkSize

section Steps
variable {chunker}

theorem apart_longer {one two three : Text} (apart : Apart chunker one two) (longer : two.length ≤ three.length) :
    Apart chunker one three := by
  intro first second
  have wide := apart first (longer.trans second)
  rw [List.length_append,List.length_cons] at wide ⊢
  omega

theorem apart_long {one two : Text} (long : chunker.chunkSize < one.length ∨ chunker.chunkSize < two.length) :
    Apart chunker one two := by
  intro first second
  omega

theorem chain_snoc {chunks : List Text} {chunk : Text} (before : chunks.IsChain (Apart chunker))
    (apart : ∀ last ∈ chunks.getLast?, Apart chunker last chunk) : (chunks ++ [chunk]).IsChain (Apart chunker) := by
  refine before.append (.singleton chunk) fun last listed next first => ?_
  rw [List.head?_singleton,Option.mem_some_iff] at first
  exact first ▸ apart last listed

theorem snoc_chain {chunks : List Text} {chunk : Text} (chain : (chunks ++ [chunk]).IsChain (Apart chunker)) :
    ∀ last ∈ chunks.getLast?, Apart chunker last chunk := by
  intro last listed
  exact (List.isChain_append.mp chain).2.2 last listed chunk rfl

-- Flushed or not, no two neighbours could have been one chunk.
theorem tight_flushed {packing : Packing} (tight : Tight chunker packing) :
    (∀ chunk ∈ packing.flushed, Bounded chunker chunk) ∧ packing.flushed.IsChain (Apart chunker) := by
  have whole := strip_trimmed tight.trimmed
  unfold Packing.flushed
  split
  next => exact ⟨tight.bounded,tight.apart.left_of_append⟩
  next =>
    rw [whole]
    refine ⟨?_,tight.apart⟩
    rw [List.forall_mem_append,List.forall_mem_singleton]
    exact ⟨tight.bounded,.inl tight.fits⟩

theorem pack_word_tight {text word : Text} (listed : word ∈ words text) {packing : Packing} (tight : Tight chunker packing) :
    Tight chunker (chunker.packWord packing word) := by
  obtain ⟨bounded,chain⟩ := tight_flushed tight
  have trimmed := word_trimmed listed
  unfold Chunker.packWord
  split
  next room =>
    refine ⟨tight.bounded,?_,candidate_trimmed tight.trimmed trimmed (word_some listed),room⟩
    refine chain_snoc tight.apart.left_of_append fun last before => ?_
    exact apart_longer (snoc_chain tight.apart last before) (length_candidate _ _)
  next crowded =>
    split
    next long =>
      refine ⟨?_,?_,⟨by simp,by simp⟩,Nat.zero_le _⟩
      · rw [List.forall_mem_append,List.forall_mem_singleton]
        exact ⟨bounded,.inr ⟨long,word_alone listed⟩⟩
      · refine chain_snoc (chain_snoc chain fun last _ => apart_long (.inr long)) fun last before => ?_
        rw [List.getLast?_concat,Option.mem_some_iff] at before
        exact apart_long (.inl (before ▸ long))
    next short =>
      refine ⟨bounded,chain_snoc chain fun last before => ?_,trimmed,not_lt.mp short⟩
      -- The word alone would have had room, so something was being packed.
      have filled : packing.current ≠ [] := by
        intro empty
        rw [empty,candidate,if_pos rfl] at crowded
        exact short (not_le.mp crowded)
      have pending : packing.flushed = packing.chunks ++ [packing.current] := by
        have whole := strip_trimmed tight.trimmed
        rw [Packing.flushed,whole,if_neg filled]
      rw [pending,List.getLast?_concat,Option.mem_some_iff] at before
      rw [candidate,if_neg filled] at crowded
      intro _ _
      rw [← before]
      exact not_le.mp crowded

theorem packed_tight {text : Text} {given : List Text} (listed : ∀ word ∈ given, word ∈ words text) {packing : Packing}
    (tight : Tight chunker packing) : Tight chunker (run chunker.packWord packing given) := by
  induction given generalizing packing with
  | nil => exact tight
  | cons word rest ih =>
      rw [List.forall_mem_cons] at listed
      exact ih listed.2 (pack_word_tight listed.1 tight)

end Steps

theorem long_sentence_split (sentence : Text) :
    (chunker.splitLongSentence sentence).flatMap words = words sentence ∧
      (∀ chunk ∈ chunker.splitLongSentence sentence, Bounded chunker chunk) ∧
        (chunker.splitLongSentence sentence).IsChain (Apart chunker) := by
  have start : Tight chunker ⟨[],[]⟩ := ⟨by simp,.singleton [],⟨by simp,by simp⟩,Nat.zero_le _⟩
  exact ⟨long_sentence_words chunker sentence,tight_flushed (packed_tight (fun _ listed => listed) start)⟩

end Packing
end Kryvaracode.Chunking
