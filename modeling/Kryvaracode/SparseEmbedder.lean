import Kryvaracode.Exceptions
import Kryvaracode.InsertionDict

namespace Kryvaracode.Retrieval
open InsertionDict UnicodeText Patterns

-- What rank_bm25 does beside its scores, which nothing reads: it may be missing,
-- and its constructor and its scoring may raise.
structure Bm25 where
  available : Bool
  builds : List (List Text) → Option Failure
  scores : List (List Text) → List Text → Option Failure

def raising : Option Failure → Result Unit
  | some exc => .error exc
  | none => .ok ()

structure SparseEmbedder where
  corpusTokens : List (List Text)
  vocab : Dict Text Nat
  vocabBuilt : Bool

-- `sorted(vocab_set)`: by code points.
def sortedSet (tokens : List Text) : List Text := tokens.dedup.mergeSort fun one other => decide (one ≤ other)

-- `{token: idx for idx, token in enumerate(..)}`
def indexed (tokens : List Text) : Dict Text Nat :=
  tokens.zipIdx.foldl (fun vocab entry => vocab.set entry.1 entry.2) Dict.empty

namespace SparseEmbedder

def init : SparseEmbedder := ⟨[],Dict.empty,false⟩

-- What the constructor raises without rank_bm25.
def unavailable : Failure := RuntimeError "SparseEmbedder requires 'rank-bm25'. Install it to use BM25 embeddings.".toList

-- The pattern takes the longest runs of word characters.
def tokenize (tables : Tables) (text : Text) : List Text := fields (fun c => !tables.word c) (tables.lower text)

def fit (tables : Tables) (bm25 : Bm25) (embedder : SparseEmbedder) (corpus : List Text) : Result SparseEmbedder :=
  if corpus = [] then .ok embedder
  else do
    let corpusTokens := corpus.map (tokenize tables)
    raising (bm25.builds corpusTokens)
    .ok ⟨corpusTokens,indexed (sortedSet corpusTokens.flatten),true⟩

-- What is embedded before anything was fitted is its own corpus.
def fittedOn (tables : Tables) (bm25 : Bm25) (embedder : SparseEmbedder) (texts : List Text) : Result SparseEmbedder :=
  if embedder.vocabBuilt then .ok embedder else embedder.fit tables bm25 texts

section Weights
variable {K : Type} [Field K] [LinearOrder K] (log : K → K) (embedder : SparseEmbedder)

-- The documents a token is in.
def occurrences (token : Text) : Nat := embedder.corpusTokens.countP fun docTokens => docTokens.contains token

def idf (token : Text) : K :=
  if 0 < embedder.occurrences token then
    log (((embedder.corpusTokens.length : K) - embedder.occurrences token + 1 / 2) / (embedder.occurrences token + 1 / 2) + 1)
  else 0

def weight (queryTokens : List Text) (token : Text) : K := queryTokens.count token * max (embedder.idf log token) 0

def noted (queryTokens : List Text) (sparseVec : Dict Nat K) (token : Text) : Dict Nat K :=
  match embedder.vocab.get token with
  | some tokenIdx =>
      if 0 < embedder.weight log queryTokens token then sparseVec.set tokenIdx (embedder.weight log queryTokens token)
      else sparseVec
  | none => sparseVec

-- The tokens of a set come in some order, which the dict does not keep.
def sparseVec (queryTokens : List Text) : Dict Nat K :=
  queryTokens.dedup.foldl (embedder.noted log queryTokens) Dict.empty

def embedText (tables : Tables) (bm25 : Bm25) (text : Text) : Result (Dict Nat K) :=
  let queryTokens := tokenize tables text
  if queryTokens = [] then .ok Dict.empty
  else do
    raising (bm25.scores embedder.corpusTokens queryTokens)
    .ok (embedder.sparseVec log queryTokens)

def embed (tables : Tables) (bm25 : Bm25) (texts : List Text) : Result (List (Dict Nat K)) :=
  if texts = [] then .ok []
  else do
    let fitted ← embedder.fittedOn tables bm25 texts
    texts.mapM (fitted.embedText log tables bm25)

end Weights

end SparseEmbedder

theorem sortedSet_nodup (tokens : List Text) : (sortedSet tokens).Nodup :=
  (List.mergeSort_perm _ _).nodup_iff.mpr (List.nodup_dedup tokens)

theorem mem_sortedSet (tokens : List Text) (token : Text) : token ∈ sortedSet tokens ↔ token ∈ tokens := by
  rw [sortedSet,(List.mergeSort_perm _ _).mem_iff,List.mem_dedup]

-- Each token is indexed by its place.
theorem indexed_get {tokens : List Text} (distinct : tokens.Nodup) (token : Text) (index : Nat) :
    (indexed tokens).get token = some index ↔ tokens[index]? = some token := by
  induction tokens using List.reverseRecOn generalizing index with
  | nil => simp [indexed]
  | append_singleton front last ih =>
      obtain ⟨few,_,apart⟩ := List.nodup_append.mp distinct
      have whole : indexed (front ++ [last]) = (indexed front).set last front.length := by
        rw [indexed,List.zipIdx_append,List.foldl_append]
        simp [indexed]
      rw [whole,get_set]
      by_cases its : token = last
      · subst its
        rw [if_pos rfl,Option.some.injEq]
        constructor
        · rintro rfl
          exact List.getElem?_concat_length
        · intro found
          rcases Nat.lt_trichotomy index front.length with early | same | late
          · rw [List.getElem?_append_left early] at found
            exact absurd rfl (apart token (List.mem_of_getElem? found) token List.mem_cons_self)
          · exact same.symm
          · rw [List.getElem?_eq_none (by rw [List.length_append]; exact late)] at found
            cases found
      · rw [if_neg its,ih few]
        constructor
        · intro found
          rw [List.getElem?_append_left (List.getElem?_eq_some_iff.mp found).1]
          exact found
        · intro found
          rcases Nat.lt_or_ge index front.length with early | late
          · rwa [List.getElem?_append_left early] at found
          · rw [List.getElem?_append_right late] at found
            exact absurd (List.mem_singleton.mp (List.mem_of_getElem? found)) its

-- What a corpus makes of an embedder.
structure Fitted (embedder : SparseEmbedder) : Prop where
  built : embedder.vocabBuilt = true
  indexes : ∀ token index, embedder.vocab.get token = some index ↔
    (sortedSet embedder.corpusTokens.flatten)[index]? = some token

section Fit
variable {tables : Tables} {bm25 : Bm25} {embedder fitted : SparseEmbedder} {corpus : List Text}

theorem fit_ok (given : corpus ≠ []) : embedder.fit tables bm25 corpus = .ok fitted ↔
    bm25.builds (corpus.map (SparseEmbedder.tokenize tables)) = none ∧
      fitted = ⟨corpus.map (SparseEmbedder.tokenize tables),
        indexed (sortedSet (corpus.map (SparseEmbedder.tokenize tables)).flatten),true⟩ := by
  rw [SparseEmbedder.fit,if_neg given]
  dsimp only
  cases bm25.builds (corpus.map (SparseEmbedder.tokenize tables)) with
  | some exc => exact iff_of_false (by intro same; cases same) (by rintro ⟨none,_⟩; cases none)
  | none =>
      constructor
      · intro same
        cases same
        exact ⟨rfl,rfl⟩
      · rintro ⟨_,rfl⟩
        rfl

theorem fitted_injective (all : Fitted fitted) {one other : Text} {index : Nat} (first : fitted.vocab.get one = some index)
    (second : fitted.vocab.get other = some index) : one = other :=
  Option.some.inj (((all.indexes one index).mp first).symm.trans ((all.indexes other index).mp second))

theorem fitted_knows (all : Fitted fitted) (token : Text) :
    (∃ index, fitted.vocab.get token = some index) ↔ 0 < fitted.occurrences token := by
  have found : (∃ index, fitted.vocab.get token = some index) ↔ token ∈ fitted.corpusTokens.flatten := by
    rw [← mem_sortedSet,List.mem_iff_getElem?]
    exact exists_congr fun index => all.indexes token index
  rw [found,SparseEmbedder.occurrences,List.countP_pos_iff,List.mem_flatten]
  simp only [List.contains_iff_mem]

end Fit

section Weights
variable {K : Type} [Field K] [LinearOrder K] {log : K → K} {embedder : SparseEmbedder}

theorem noted_get (queryTokens : List Text) (sparseVec : Dict Nat K) (token : Text) (index : Nat) :
    (embedder.noted log queryTokens sparseVec token).get index =
      if embedder.vocab.get token = some index ∧ 0 < embedder.weight log queryTokens token then
        some (embedder.weight log queryTokens token) else sparseVec.get index := by
  unfold SparseEmbedder.noted
  cases found : embedder.vocab.get token with
  | none => simp
  | some tokenIdx =>
      by_cases counts : 0 < embedder.weight log queryTokens token
      · simp only [counts,if_true,get_set,and_true,Option.some.injEq,eq_comm]
      · simp only [counts,if_false,and_false]

-- The entries of a sparse vector, by the tokens they come from.
theorem sparseVec_get (all : Fitted embedder) (queryTokens : List Text) (index : Nat) (value : K) :
    (embedder.sparseVec log queryTokens).get index = some value ↔ ∃ token ∈ queryTokens,
      embedder.vocab.get token = some index ∧ 0 < embedder.weight log queryTokens token ∧
        value = embedder.weight log queryTokens token := by
  have listed : ∀ tokens : List Text, (tokens.foldl (embedder.noted log queryTokens) Dict.empty).get index = some value ↔
      ∃ token ∈ tokens, embedder.vocab.get token = some index ∧ 0 < embedder.weight log queryTokens token ∧
        value = embedder.weight log queryTokens token := by
    intro tokens
    induction tokens using List.reverseRecOn with
    | nil => simp
    | append_singleton front last ih =>
        rw [List.foldl_append]
        change (embedder.noted log queryTokens (front.foldl (embedder.noted log queryTokens) Dict.empty) last).get index = _ ↔ _
        rw [noted_get]
        by_cases hits : embedder.vocab.get last = some index ∧ 0 < embedder.weight log queryTokens last
        · rw [if_pos hits,Option.some.injEq]
          constructor
          · rintro rfl
            exact ⟨last,List.mem_append_right _ List.mem_cons_self,hits.1,hits.2,rfl⟩
          · rintro ⟨token,_,known,_,same⟩
            rw [same,fitted_injective all known hits.1]
        · rw [if_neg hits,ih]
          constructor
          · rintro ⟨token,member,facts⟩
            exact ⟨token,List.mem_append_left _ member,facts⟩
          · rintro ⟨token,member,known,counts,same⟩
            rcases List.mem_append.mp member with early | late
            · exact ⟨token,early,known,counts,same⟩
            · rw [List.mem_singleton.mp late] at known counts
              exact absurd ⟨known,counts⟩ hits
  rw [SparseEmbedder.sparseVec,listed]
  simp only [List.mem_dedup]

-- The logarithm is taken of more than one.
theorem weight_positive [IsStrictOrderedRing K] (positive : ∀ x, 1 < x → 0 < log x) {queryTokens : List Text} {token : Text}
    (asked : token ∈ queryTokens) (occurs : 0 < embedder.occurrences token) : 0 < embedder.weight log queryTokens token := by
  have few : embedder.occurrences token ≤ embedder.corpusTokens.length := List.countP_le_length
  have apart : (0 : K) ≤ (embedder.corpusTokens.length : K) - embedder.occurrences token := by
    rw [sub_nonneg]
    exact_mod_cast few
  have top : (0 : K) < (embedder.corpusTokens.length : K) - embedder.occurrences token + 1 / 2 := by positivity
  have bottom : (0 : K) < (embedder.occurrences token : K) + 1 / 2 := by positivity
  have idf : 0 < embedder.idf log token := by
    rw [SparseEmbedder.idf,if_pos occurs]
    apply positive
    have ratio := div_pos top bottom
    linarith only [ratio]
  have count : (0 : K) < queryTokens.count token := by exact_mod_cast List.count_pos_iff.mpr asked
  exact mul_pos count (lt_max_of_lt_left idf)

section Embed
variable {tables : Tables} {bm25 : Bm25}

theorem raising_ok (raised : Option Failure) : raising raised = .ok () ↔ raised = none := by
  cases raised with
  | none => exact iff_of_true rfl rfl
  | some exc => exact iff_of_false (by intro same; cases same) (by intro none; cases none)

-- Without tokens nothing is scored, and the vector is empty all the same.
theorem embedText_exact (text : Text) (vector : Dict Nat K) : embedder.embedText log tables bm25 text = .ok vector ↔
    (SparseEmbedder.tokenize tables text ≠ [] →
      bm25.scores embedder.corpusTokens (SparseEmbedder.tokenize tables text) = none) ∧
    vector = embedder.sparseVec log (SparseEmbedder.tokenize tables text) := by
  unfold SparseEmbedder.embedText
  dsimp only
  by_cases none : SparseEmbedder.tokenize tables text = []
  · rw [if_pos none,none,Except.ok.injEq,eq_comm]
    exact (and_iff_right fun some => absurd rfl some).symm
  · rw [if_neg none,then_ok,raising_ok,Except.ok.injEq,forall_prop_of_true none]
    exact and_congr_right fun _ => eq_comm

theorem embed_exact (built : embedder.vocabBuilt = true) (texts : List Text) (vectors : List (Dict Nat K)) :
    embedder.embed log tables bm25 texts = .ok vectors ↔
      (∀ text ∈ texts, SparseEmbedder.tokenize tables text ≠ [] →
        bm25.scores embedder.corpusTokens (SparseEmbedder.tokenize tables text) = none) ∧
      vectors = texts.map fun text => embedder.sparseVec log (SparseEmbedder.tokenize tables text) := by
  rw [← mapM_exact embedText_exact,SparseEmbedder.embed,SparseEmbedder.fittedOn,if_pos built]
  by_cases none : texts = []
  · rw [if_pos none,none]
    rfl
  · rw [if_neg none]
    rfl

end Embed

end Weights

end Kryvaracode.Retrieval
