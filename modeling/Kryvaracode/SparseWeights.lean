import Kryvaracode.SparseEmbedder

namespace Kryvaracode.Retrieval
open InsertionDict UnicodeText

-- Each distinct token has a number of its own below their count, and nothing else has one.
structure Numbering (tokens : List Text) (vocab : Dict Text Nat) : Prop where
  bijective : Set.BijOn vocab.get {token | token ∈ tokens} (some '' Set.Iio tokens.dedup.length)
  only : ∀ token, token ∉ tokens → vocab.get token = none

section Formula
variable (corpusTokens : List (List Text))

-- The weight of a token as a formula over the reals; `n` documents hold the token.
noncomputable def bm25Weight (tf n : Nat) : ℝ := tf * Real.log (((corpusTokens.length : ℝ) - n + 0.5) / (n + 0.5) + 1)

noncomputable def tokenWeight (queryTokens : List Text) (token : Text) : ℝ :=
  bm25Weight corpusTokens (queryTokens.count token) (corpusTokens.countP fun docTokens => docTokens.contains token)

-- The keys are the numbers of the tokens that the corpus has, each under its weight.
structure Supported (vocab : Dict Text Nat) (queryTokens : List Text) (vector : Dict Nat ℝ) : Prop where
  keys : ∀ index, index ∈ vector.keys ↔
    ∃ token ∈ queryTokens, token ∈ corpusTokens.flatten ∧ vocab.get token = some index
  weights : ∀ token ∈ queryTokens, ∀ index, vocab.get token = some index →
    vector.get index = some (tokenWeight corpusTokens queryTokens token) ∧ 0 < tokenWeight corpusTokens queryTokens token

end Formula

section Fitted
variable {embedder : SparseEmbedder} {token : Text} {queryTokens : List Text}

theorem sortedSet_length (tokens : List Text) : (sortedSet tokens).length = tokens.dedup.length := List.length_mergeSort _

theorem fitted_numbering (all : Fitted embedder) : Numbering embedder.corpusTokens.flatten embedder.vocab := by
  refine ⟨⟨?_,?_,?_⟩,?_⟩
  · intro token listed
    obtain ⟨index,place⟩ := List.mem_iff_getElem?.mp ((mem_sortedSet _ _).mpr listed)
    refine ⟨index,?_,((all.indexes token index).mpr place).symm⟩
    rw [Set.mem_Iio,← sortedSet_length]
    exact (List.getElem?_eq_some_iff.mp place).1
  · intro one listed other _ same
    obtain ⟨index,place⟩ := List.mem_iff_getElem?.mp ((mem_sortedSet _ _).mpr listed)
    have first := (all.indexes one index).mpr place
    exact fitted_injective all first (same.symm.trans first)
  · rintro _ ⟨index,small,rfl⟩
    rw [Set.mem_Iio,← sortedSet_length] at small
    have place := List.getElem?_eq_getElem small
    exact ⟨_,(mem_sortedSet _ _).mp (List.getElem_mem small),(all.indexes _ index).mpr place⟩
  · intro token absent
    cases found : embedder.vocab.get token with
    | none => rfl
    | some index =>
        have place := (all.indexes token index).mp found
        exact absurd ((mem_sortedSet _ _).mp (List.mem_of_getElem? place)) absent

theorem fitted_token (all : Fitted embedder) (token : Text) :
    token ∈ embedder.corpusTokens.flatten ↔ 0 < embedder.occurrences token := by
  rw [← fitted_knows all,← mem_sortedSet,List.mem_iff_getElem?]
  exact exists_congr fun index => (all.indexes token index).symm

-- No document count exceeds the corpus, so the filter at zero takes nothing away.
theorem weight_formula (known : 0 < embedder.occurrences token) (asked : token ∈ queryTokens) :
    embedder.weight Real.log queryTokens token = tokenWeight embedder.corpusTokens queryTokens token := by
  have positive := weight_positive (fun _ => Real.log_pos) asked known
  have idf : 0 < embedder.idf Real.log token := by
    by_contra none
    rw [SparseEmbedder.weight,max_eq_right (not_lt.mp none),mul_zero] at positive
    exact lt_irrefl 0 positive
  have half : (1 / 2 : ℝ) = 0.5 := by norm_num
  rw [SparseEmbedder.weight,max_eq_left idf.le,SparseEmbedder.idf,if_pos known,half]
  rfl

theorem sparseVec_supported (all : Fitted embedder) (queryTokens : List Text) :
    Supported embedder.corpusTokens embedder.vocab queryTokens (embedder.sparseVec Real.log queryTokens) := by
  have occurs : ∀ token index, embedder.vocab.get token = some index → 0 < embedder.occurrences token := by
    intro token index found
    exact (fitted_knows all token).mp ⟨index,found⟩
  have positive : ∀ token ∈ queryTokens, 0 < embedder.occurrences token →
      0 < embedder.weight Real.log queryTokens token := by
    intro token asked known
    exact weight_positive (fun _ => Real.log_pos) asked known
  refine ⟨?_,?_⟩
  · intro index
    have entry : index ∈ (embedder.sparseVec Real.log queryTokens).keys ↔
        ∃ value, (embedder.sparseVec Real.log queryTokens).get index = some value := by
      rw [← Option.ne_none_iff_exists',ne_eq,← not_mem_keys,not_not]
    rw [entry]
    constructor
    · rintro ⟨value,held⟩
      obtain ⟨token,asked,found,_,_⟩ := (sparseVec_get all queryTokens index value).mp held
      exact ⟨token,asked,(fitted_token all token).mpr (occurs token index found),found⟩
    · rintro ⟨token,asked,listed,found⟩
      have counts := positive token asked ((fitted_token all token).mp listed)
      exact ⟨_,(sparseVec_get all queryTokens index _).mpr ⟨token,asked,found,counts,rfl⟩⟩
  · intro token asked index found
    have known := occurs token index found
    have counts := positive token asked known
    rw [← weight_formula known asked]
    exact ⟨(sparseVec_get all queryTokens index _).mpr ⟨token,asked,found,counts,rfl⟩,counts⟩

end Fitted

theorem sparse_support (tables : Tables) (bm25 : Bm25) (embedder : SparseEmbedder) (corpus texts : List Text)
    (given : corpus ≠ []) (builds : bm25.builds (corpus.map (SparseEmbedder.tokenize tables)) = none)
    (scores : ∀ queryTokens, bm25.scores (corpus.map (SparseEmbedder.tokenize tables)) queryTokens = none) :
    ∃ fitted vectors, embedder.fit tables bm25 corpus = .ok fitted ∧
      fitted.embed Real.log tables bm25 texts = .ok vectors ∧ Numbering (corpus.flatMap (SparseEmbedder.tokenize tables)) fitted.vocab ∧
        List.Forall₂ (fun text vector => Supported (corpus.map (SparseEmbedder.tokenize tables)) fitted.vocab
          (SparseEmbedder.tokenize tables text) vector) texts vectors := by
  obtain ⟨fitted,made⟩ : ∃ fitted : SparseEmbedder, fitted = ⟨corpus.map (SparseEmbedder.tokenize tables),
    indexed (sortedSet (corpus.map (SparseEmbedder.tokenize tables)).flatten),true⟩ := ⟨_,rfl⟩
  have all : Fitted fitted := by
    subst made
    exact ⟨rfl,fun token index => indexed_get (sortedSet_nodup _) token index⟩
  have tokens : fitted.corpusTokens = corpus.map (SparseEmbedder.tokenize tables) := by rw [made]
  have ran : embedder.fit tables bm25 corpus = .ok fitted := (fit_ok given).mpr ⟨builds,made⟩
  have numbering := fitted_numbering all
  rw [tokens,← List.flatMap_def] at numbering
  have embedded : fitted.embed Real.log tables bm25 texts =
      .ok (texts.map fun text => fitted.sparseVec Real.log (SparseEmbedder.tokenize tables text)) :=
    (embed_exact all.built texts _).mpr ⟨fun text _ _ => tokens.symm ▸ scores (SparseEmbedder.tokenize tables text),rfl⟩
  refine ⟨fitted,_,ran,embedded,numbering,?_⟩
  rw [List.forall₂_map_right_iff,List.forall₂_same]
  intro text _
  have supported := sparseVec_supported all (SparseEmbedder.tokenize tables text)
  rwa [tokens] at supported

-- A token of both documents weighs log (1/2 / (5/2) + 1), which is positive.
theorem sparse_support_both : ∃ fitted vectors,
    SparseEmbedder.init.fit ascii ⟨true,fun _ => none,fun _ _ => none⟩ [['a',' ','b'],['b']] = .ok fitted ∧
      fitted.embed Real.log ascii ⟨true,fun _ => none,fun _ _ => none⟩ [['b'],['c']] = .ok vectors ∧
      Numbering ([['a',' ','b'],['b']].flatMap (SparseEmbedder.tokenize ascii)) fitted.vocab ∧
        List.Forall₂ (fun text vector => Supported ([['a',' ','b'],['b']].map (SparseEmbedder.tokenize ascii)) fitted.vocab
          (SparseEmbedder.tokenize ascii text) vector) [['b'],['c']] vectors :=
  sparse_support ascii ⟨true,fun _ => none,fun _ _ => none⟩ SparseEmbedder.init [['a',' ','b'],['b']] [['b'],['c']]
    (by decide) rfl (fun _ => rfl)

end Kryvaracode.Retrieval
