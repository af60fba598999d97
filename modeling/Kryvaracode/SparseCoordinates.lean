import Kryvaracode.AtomicAdd
import Mathlib.Analysis.SpecialFunctions.Log.Basic

namespace Kryvaracode.Retrieval
open InsertionDict JsonText UnicodeText

-- A text as it is stored or asked for: its tokens, and their places in the
-- vocabulary its sparse vector was made with.
structure Point (K : Type) where
  tokens : List Text
  vocab : Dict Text Nat
  vector : Dict Nat K

namespace Point
variable {K : Type} (point : Point K)

-- The index under which a token of the text has its weight.
def coordinate (token : Text) : Option Nat :=
  if point.tokens.contains token then (point.vocab.get token).filter fun index => (point.vector.get index).isSome else none

def bare (tokens : List Text) : Point K := ⟨tokens,Dict.empty,Dict.empty⟩

end Point

def contribution {K : Type} [Field K] (query stored : Point K) (index : Nat) : K :=
  (query.vector.get index).getD 0 * (stored.vector.get index).getD 0

-- What the server holds of the texts, and the metadata kept beside it, which
-- stay as they are while the server is used.
structure Collection (K : Type) where
  metadata : List Metadata
  stored : List (Point K)

def Collection.init {K : Type} : Collection K := ⟨[],[]⟩

section Hybrid
variable {K : Type} [Field K] [LinearOrder K] (setting : Setting K) (collection : Collection K)

def Setting.tokens (text : Text) : List Text := SparseEmbedder.tokenize setting.tables text

def Setting.textPoints (metadata : List Metadata) (texts : List Text) : List (Point K) :=
  match setting.sparseVectors metadata texts with
  | .ok (fitted,vectors) => List.zipWith (fun text vector => ⟨setting.tokens text,fitted.vocab,vector⟩) texts vectors
  | .error _ => texts.map fun text => Point.bare (setting.tokens text)

def Collection.add (texts : List Text) : Collection K :=
  {collection with stored := collection.stored ++ setting.textPoints collection.metadata texts}

-- `if m.get("text")`
def textGiven (metadata : Metadata) : Bool :=
  match metadata.get "text".toList with
  | none | some .null | some (.bool false) | some (.int 0) | some (.str []) | some (.arr []) | some (.obj []) => false
  | some (.float printed) => printed ≠ "0.0".toList && printed ≠ "-0.0".toList
  | some _ => true

-- Without a corpus there is no sparse vector for the query.
def Setting.sparseQuery (metadata : List Metadata) (queryText : Text) : Result (Point K) :=
  if setting.bm25.available then do
    let corpus ← (metadata.filter textGiven).mapM metadataText
    if corpus = [] then .ok (Point.bare (setting.tokens queryText))
    else do
      let fitted ← SparseEmbedder.init.fit setting.tables setting.bm25 corpus
      let results ← fitted.embed setting.log setting.tables setting.bm25 [queryText]
      .ok ⟨setting.tokens queryText,fitted.vocab,results.headD Dict.empty⟩
  else .error SparseEmbedder.unavailable

def Collection.asked (queryText : Text) : Point K :=
  match setting.sparseQuery collection.metadata queryText with
  | .ok point => point
  | .error _ => Point.bare (setting.tokens queryText)

def Collection.holding (batches : List (List Text)) : Collection K := batches.foldl (Collection.add setting) .init

end Hybrid

-- Every token of a stored text has one index, the same wherever the token is
-- stored or asked for and no other token's, so that a query meets a stored text
-- in the tokens they share.
structure Stable {K : Type} [Field K] (stored : List (Point K)) (query : Point K) : Prop where
  held : ∀ point ∈ stored, ∀ token ∈ point.tokens, ∃ index, point.coordinate token = some index
  one : ∀ point ∈ stored, ∀ other ∈ query :: stored, ∀ token ∈ point.tokens, token ∈ other.tokens →
    other.coordinate token = point.coordinate token
  apart : ∀ point ∈ query :: stored, ∀ other ∈ query :: stored, ∀ first second index,
    point.coordinate first = some index → other.coordinate second = some index → first = second
  meets : ∀ point ∈ stored, ∀ index, contribution query point index ≠ 0 ↔
    ∃ token ∈ point.tokens, token ∈ query.tokens ∧ point.coordinate token = some index

def batchVocab (tables : Tables) (texts : List Text) : List Text :=
  sortedSet (texts.map (SparseEmbedder.tokenize tables)).flatten

-- Nothing is raised as the vectors of a batch are made.
structure Scored (tables : Tables) (bm25 : Bm25) (texts : List Text) : Prop where
  available : bm25.available = true
  builds : bm25.builds (texts.map (SparseEmbedder.tokenize tables)) = none
  scores : ∀ text ∈ texts, SparseEmbedder.tokenize tables text ≠ [] →
    bm25.scores (texts.map (SparseEmbedder.tokenize tables)) (SparseEmbedder.tokenize tables text) = none

-- The vocabularies of the batches go on from one another, and no query shares a
-- token with what is stored.
structure Aligned (tables : Tables) (bm25 : Bm25) (batches : List (List Text)) (queryText : Text) : Prop where
  scored : ∀ texts ∈ batches, batchVocab tables texts ≠ [] → Scored tables bm25 texts
  nested : ∀ texts ∈ batches, ∀ others ∈ batches,
    batchVocab tables texts <+: batchVocab tables others ∨ batchVocab tables others <+: batchVocab tables texts
  foreign : ∀ texts ∈ batches, ∀ token ∈ batchVocab tables texts, token ∉ SparseEmbedder.tokenize tables queryText

theorem prefix_either {α : Type*} {one other : List α}
    (same : ∀ (index : Nat) x y, one[index]? = some x → other[index]? = some y → x = y) : one <+: other ∨ other <+: one := by
  induction one generalizing other with
  | nil => exact .inl List.nil_prefix
  | cons x rest ih =>
      cases other with
      | nil => exact .inr List.nil_prefix
      | cons y later =>
          cases same 0 x y rfl rfl
          have further := ih fun index => same (index + 1)
          exact further.imp (fun front => List.cons_prefix_cons.mpr ⟨rfl,front⟩) fun front => List.cons_prefix_cons.mpr ⟨rfl,front⟩

theorem prefix_lookup {α : Type*} {one other : List α} (nested : one <+: other ∨ other <+: one) {index : Nat} {x y : α}
    (first : one[index]? = some x) (second : other[index]? = some y) : x = y := by
  rcases nested with ⟨rest,rfl⟩ | ⟨rest,rfl⟩
  · rw [List.getElem?_append_left (List.getElem?_eq_some_iff.mp first).1,first] at second
    exact Option.some.inj second
  · rw [List.getElem?_append_left (List.getElem?_eq_some_iff.mp second).1,second] at first
    exact (Option.some.inj first).symm

-- In nested lists without duplicates an element has one place.
theorem prefix_place {α : Type*} {one other : List α} (nested : one <+: other ∨ other <+: one) (few : one.Nodup)
    (all : other.Nodup) {index place : Nat} {x : α} (first : one[index]? = some x) (second : other[place]? = some x) :
    index = place := by
  have unique : ∀ {listed : List α}, listed.Nodup → listed[index]? = some x → listed[place]? = some x → index = place := by
    intro listed distinct here there
    obtain ⟨inside,same⟩ := List.getElem?_eq_some_iff.mp here
    obtain ⟨within,also⟩ := List.getElem?_eq_some_iff.mp there
    exact distinct.getElem_inj_iff.mp (same.trans also.symm)
  rcases nested with ⟨rest,rfl⟩ | ⟨rest,rfl⟩
  · apply unique all
    · rwa [List.getElem?_append_left (List.getElem?_eq_some_iff.mp first).1]
    · exact second
  · apply unique few first
    rwa [List.getElem?_append_left (List.getElem?_eq_some_iff.mp second).1]

section Points
variable {K : Type} [Field K] [LinearOrder K] {setting : Setting K} {texts : List Text}

-- What a batch is embedded with.
def trained (tables : Tables) (texts : List Text) : SparseEmbedder :=
  ⟨texts.map (SparseEmbedder.tokenize tables),indexed (batchVocab tables texts),true⟩

def scoredPoint (setting : Setting K) (texts : List Text) (text : Text) : Point K :=
  ⟨setting.tokens text,(trained setting.tables texts).vocab,
    (trained setting.tables texts).sparseVec setting.log (setting.tokens text)⟩

theorem trained_fitted (tables : Tables) (texts : List Text) : Fitted (trained tables texts) :=
  ⟨rfl,indexed_get (sortedSet_nodup _)⟩

theorem sparseVectors_exact (given : texts ≠ []) (fitted : SparseEmbedder) (vectors : List (Dict Nat K)) :
    setting.sparseVectors [] texts = .ok (fitted,vectors) ↔ Scored setting.tables setting.bm25 texts ∧
      fitted = trained setting.tables texts ∧ vectors = texts.map fun text =>
        (trained setting.tables texts).sparseVec setting.log (setting.tokens text) := by
  unfold Setting.sparseVectors
  by_cases available : setting.bm25.available = true
  · rw [if_pos available]
    change (SparseEmbedder.init.fit setting.tables setting.bm25 texts >>= _) = _ ↔ _
    rw [bind_ok]
    constructor
    · rintro ⟨embedder,fits,later⟩
      obtain ⟨found,embeds,same⟩ := bind_ok.mp later
      obtain ⟨builds,rfl⟩ := (fit_ok given).mp fits
      obtain ⟨scores,rfl⟩ := (embed_exact rfl texts found).mp embeds
      cases same
      exact ⟨⟨available,builds,scores⟩,rfl,rfl⟩
    · rintro ⟨scored,rfl,rfl⟩
      refine ⟨trained setting.tables texts,(fit_ok given).mpr ⟨scored.builds,rfl⟩,?_⟩
      apply bind_ok.mpr
      exact ⟨_,(embed_exact rfl texts _).mpr ⟨scored.scores,rfl⟩,rfl⟩
  · rw [if_neg available]
    exact iff_of_false (by intro same; cases same) fun both => available both.1.available

theorem mem_textPoints_scored (scored : Scored setting.tables setting.bm25 texts) (point : Point K) :
    point ∈ setting.textPoints [] texts ↔ ∃ text ∈ texts, point = scoredPoint setting texts text := by
  by_cases given : texts = []
  · subst given
    refine iff_of_false ?_ (by simp)
    unfold Setting.textPoints
    split
    · exact List.not_mem_nil
    · exact List.not_mem_nil
  · rw [Setting.textPoints,(sparseVectors_exact given _ _).mpr ⟨scored,rfl,rfl⟩]
    dsimp only
    rw [List.zipWith_map_right,List.zipWith_self,List.mem_map]
    exact exists_congr fun text => and_congr_right fun _ => eq_comm

theorem mem_textPoints_bare (unscored : ¬ Scored setting.tables setting.bm25 texts) (point : Point K) :
    point ∈ setting.textPoints [] texts ↔ ∃ text ∈ texts, point = Point.bare (setting.tokens text) := by
  by_cases given : texts = []
  · subst given
    refine iff_of_false ?_ (by simp)
    unfold Setting.textPoints
    split
    · exact List.not_mem_nil
    · exact List.not_mem_nil
  · unfold Setting.textPoints
    cases made : setting.sparseVectors [] texts with
    | ok both => exact absurd ((sparseVectors_exact given both.1 both.2).mp made).1 unscored
    | error exc =>
        dsimp only
        rw [List.mem_map]
        exact exists_congr fun text => and_congr_right fun _ => eq_comm

-- Either way a text keeps its tokens.
theorem textPoints_tokens (point : Point K) (stored : point ∈ setting.textPoints [] texts) :
    ∃ text ∈ texts, point.tokens = setting.tokens text := by
  by_cases scored : Scored setting.tables setting.bm25 texts
  · obtain ⟨text,member,rfl⟩ := (mem_textPoints_scored scored point).mp stored
    exact ⟨text,member,rfl⟩
  · obtain ⟨text,member,rfl⟩ := (mem_textPoints_bare scored point).mp stored
    exact ⟨text,member,rfl⟩

theorem mem_batchVocab (tables : Tables) (texts : List Text) (token : Text) :
    token ∈ batchVocab tables texts ↔ ∃ text ∈ texts, token ∈ SparseEmbedder.tokenize tables text := by
  rw [batchVocab,mem_sortedSet,List.mem_flatten]
  simp only [List.mem_map,exists_exists_and_eq_and]

omit [Field K] [LinearOrder K] in
theorem bare_coordinate (tokens : List Text) (token : Text) : (Point.bare tokens : Point K).coordinate token = none := by
  unfold Point.coordinate
  split
  · rfl
  · rfl

section Positive
variable [IsStrictOrderedRing K]

-- The weights of a scored batch are positive, so that none of its tokens is left out.
theorem scored_entry (positive : ∀ x, 1 < x → 0 < setting.log x) {text token : Text} {index : Nat}
    (its : token ∈ setting.tokens text) (found : (batchVocab setting.tables texts)[index]? = some token) :
    ∃ value, (scoredPoint setting texts text).vector.get index = some value := by
  have known := ((trained_fitted setting.tables texts).indexes token index).mpr found
  have occurs := (fitted_knows (trained_fitted setting.tables texts) token).mp ⟨index,known⟩
  exact ⟨_,(sparseVec_get (trained_fitted setting.tables texts) _ index _).mpr
    ⟨token,its,known,weight_positive positive its occurs,rfl⟩⟩

theorem scored_coordinate (positive : ∀ x, 1 < x → 0 < setting.log x) (text token : Text) (index : Nat) :
    (scoredPoint setting texts text).coordinate token = some index ↔
      token ∈ setting.tokens text ∧ (batchVocab setting.tables texts)[index]? = some token := by
  have known := (trained_fitted setting.tables texts).indexes token index
  unfold Point.coordinate
  change (if (setting.tokens text).contains token then _ else none) = some index ↔ _
  by_cases its : token ∈ setting.tokens text
  · rw [if_pos (List.contains_iff_mem.mpr its),Option.filter_eq_some_iff,and_iff_right its]
    constructor
    · rintro ⟨found,_⟩
      exact known.mp found
    · intro found
      refine ⟨known.mpr found,?_⟩
      obtain ⟨value,weighs⟩ := scored_entry positive its found
      rw [weighs]
      rfl
  · rw [if_neg (its ∘ List.contains_iff_mem.mp)]
    exact iff_of_false (by intro same; cases same) fun both => its both.1

end Positive

end Points

section Held
variable {K : Type} [Field K] [LinearOrder K] {setting : Setting K}

theorem holding_parts (batches : List (List Text)) : (Collection.holding setting batches).metadata = [] ∧
    (Collection.holding setting batches).stored = batches.flatMap (setting.textPoints []) := by
  induction batches using List.reverseRecOn with
  | nil => exact ⟨rfl,rfl⟩
  | append_singleton earlier last ih =>
      have whole : Collection.holding setting (earlier ++ [last]) = (Collection.holding setting earlier).add setting last := by
        rw [Collection.holding,List.foldl_append]
        rfl
      rw [whole,Collection.add,ih.1,ih.2,List.flatMap_append,List.flatMap_singleton]
      exact ⟨rfl,rfl⟩

theorem mem_holding (batches : List (List Text)) (point : Point K) : point ∈ (Collection.holding setting batches).stored ↔
    ∃ texts ∈ batches, point ∈ setting.textPoints [] texts := by
  rw [(holding_parts batches).2,List.mem_flatMap]

-- On the server there is no metadata to fit a query on.
theorem asked_bare (batches : List (List Text)) (queryText : Text) :
    (Collection.holding setting batches).asked setting queryText = Point.bare (setting.tokens queryText) := by
  rw [Collection.asked,(holding_parts batches).1,Setting.sparseQuery]
  by_cases available : setting.bm25.available = true
  · rw [if_pos available]
    rfl
  · rw [if_neg available]

omit [LinearOrder K] in
theorem bare_contribution (tokens : List Text) (stored : Point K) (index : Nat) :
    contribution (Point.bare tokens) stored index = 0 := zero_mul _

-- A stored token with an index is of a batch that was scored, and has the index of
-- that batch's vocabulary.
structure Indexed (setting : Setting K) (texts : List Text) (token : Text) (index : Nat) : Prop where
  scored : Scored setting.tables setting.bm25 texts
  found : (batchVocab setting.tables texts)[index]? = some token

variable [IsStrictOrderedRing K]

theorem stored_coordinate (positive : ∀ x, 1 < x → 0 < setting.log x) {texts : List Text} {point : Point K}
    (stored : point ∈ setting.textPoints [] texts) (token : Text) (index : Nat) :
    point.coordinate token = some index ↔ token ∈ point.tokens ∧ Indexed setting texts token index := by
  by_cases scored : Scored setting.tables setting.bm25 texts
  · obtain ⟨text,_,rfl⟩ := (mem_textPoints_scored scored point).mp stored
    rw [scored_coordinate positive]
    exact and_congr_right fun _ => ⟨fun found => ⟨scored,found⟩,Indexed.found⟩
  · obtain ⟨text,_,rfl⟩ := (mem_textPoints_bare scored point).mp stored
    rw [bare_coordinate]
    exact iff_of_false (by intro same; cases same) fun both => scored both.2.scored

omit [IsStrictOrderedRing K] in
-- Every token of a batch is stored with one of its texts, and only those are.
theorem token_stored (setting : Setting K) (texts : List Text) (token : Text) : token ∈ batchVocab setting.tables texts ↔
    ∃ point ∈ setting.textPoints [] texts, token ∈ point.tokens := by
  rw [mem_batchVocab]
  constructor
  · rintro ⟨text,member,its⟩
    by_cases scored : Scored setting.tables setting.bm25 texts
    · exact ⟨_,(mem_textPoints_scored scored _).mpr ⟨text,member,rfl⟩,its⟩
    · exact ⟨_,(mem_textPoints_bare scored _).mpr ⟨text,member,rfl⟩,its⟩
  · rintro ⟨point,stored,its⟩
    obtain ⟨text,member,same⟩ := textPoints_tokens point stored
    rw [same] at its
    exact ⟨text,member,its⟩

section Exact
variable {batches : List (List Text)} {queryText : Text}

theorem stable_aligned (positive : ∀ x, 1 < x → 0 < setting.log x)
    (stable : Stable (Collection.holding setting batches).stored ((Collection.holding setting batches).asked setting queryText)) :
    Aligned setting.tables setting.bm25 batches queryText := by
  have placed : ∀ texts ∈ batches, ∀ token ∈ batchVocab setting.tables texts,
      ∃ point ∈ (Collection.holding setting batches).stored, point ∈ setting.textPoints [] texts ∧ token ∈ point.tokens ∧
        ∃ index, point.coordinate token = some index := by
    intro texts member token its
    obtain ⟨point,stored,has⟩ := (token_stored setting texts token).mp its
    have held := (mem_holding batches point).mpr ⟨texts,member,stored⟩
    exact ⟨point,held,stored,has,stable.held point held token has⟩
  have scored : ∀ texts ∈ batches, batchVocab setting.tables texts ≠ [] → Scored setting.tables setting.bm25 texts := by
    intro texts member some
    obtain ⟨token,its⟩ := List.exists_mem_of_ne_nil _ some
    obtain ⟨point,_,stored,_,index,coordinate⟩ := placed texts member token its
    exact ((stored_coordinate positive stored token index).mp coordinate).2.scored
  have points : ∀ texts ∈ batches, ∀ token index, (batchVocab setting.tables texts)[index]? = some token →
      ∃ point ∈ (Collection.holding setting batches).stored, point.coordinate token = some index := by
    intro texts member token index found
    have its := List.mem_of_getElem? found
    obtain ⟨point,held,stored,has,_⟩ := placed texts member token its
    refine ⟨point,held,(stored_coordinate positive stored token index).mpr ⟨has,?_,found⟩⟩
    exact scored texts member (List.ne_nil_of_mem its)
  refine ⟨scored,?_,?_⟩
  · intro texts member others also
    apply prefix_either
    intro index x y first second
    obtain ⟨point,held,coordinate⟩ := points texts member x index first
    obtain ⟨other,there,same⟩ := points others also y index second
    exact stable.apart point (List.mem_cons_of_mem _ held) other (List.mem_cons_of_mem _ there) x y index coordinate same
  · intro texts member token its asked
    obtain ⟨point,held,_,has,index,coordinate⟩ := placed texts member token its
    rw [asked_bare] at stable
    have same := stable.one point held _ List.mem_cons_self token has asked
    rw [bare_coordinate,coordinate] at same
    cases same

omit [IsStrictOrderedRing K] in
-- A stored token has its index in the vocabulary of its batch.
theorem aligned_indexed (aligned : Aligned setting.tables setting.bm25 batches queryText) {point : Point K} {token : Text}
    (held : point ∈ (Collection.holding setting batches).stored) (has : token ∈ point.tokens) :
    ∃ texts ∈ batches, point ∈ setting.textPoints [] texts ∧ ∃ index, Indexed setting texts token index := by
  obtain ⟨texts,member,stored⟩ := (mem_holding batches point).mp held
  have its := (token_stored setting texts token).mpr ⟨point,stored,has⟩
  obtain ⟨index,found⟩ := List.mem_iff_getElem?.mp its
  exact ⟨texts,member,stored,index,aligned.scored texts member (List.ne_nil_of_mem its),found⟩

omit [IsStrictOrderedRing K] in
theorem aligned_foreign (aligned : Aligned setting.tables setting.bm25 batches queryText) {point : Point K} {token : Text}
    (held : point ∈ (Collection.holding setting batches).stored) (has : token ∈ point.tokens) :
    token ∉ setting.tokens queryText := by
  obtain ⟨texts,member,_,index,indexed⟩ := aligned_indexed aligned held has
  exact aligned.foreign texts member token (List.mem_of_getElem? indexed.found)

theorem aligned_one (positive : ∀ x, 1 < x → 0 < setting.log x) (aligned : Aligned setting.tables setting.bm25 batches queryText)
    {point other : Point K} {token : Text} (held : point ∈ (Collection.holding setting batches).stored)
    (there : other ∈ (Collection.holding setting batches).stored) (has : token ∈ point.tokens) (also : token ∈ other.tokens) :
    other.coordinate token = point.coordinate token := by
  obtain ⟨texts,member,stored,index,indexed⟩ := aligned_indexed aligned held has
  obtain ⟨others,among,kept,place,placed⟩ := aligned_indexed aligned there also
  cases prefix_place (aligned.nested texts member others among) (sortedSet_nodup _) (sortedSet_nodup _) indexed.found placed.found
  have first := (stored_coordinate positive stored token index).mpr ⟨has,indexed⟩
  have second := (stored_coordinate positive kept token index).mpr ⟨also,placed⟩
  exact second.trans first.symm

theorem aligned_apart (positive : ∀ x, 1 < x → 0 < setting.log x) (aligned : Aligned setting.tables setting.bm25 batches queryText)
    {point other : Point K} {first second : Text} {index : Nat} (held : point ∈ (Collection.holding setting batches).stored)
    (there : other ∈ (Collection.holding setting batches).stored) (coordinate : point.coordinate first = some index)
    (same : other.coordinate second = some index) : first = second := by
  obtain ⟨texts,member,stored⟩ := (mem_holding batches point).mp held
  obtain ⟨others,among,kept⟩ := (mem_holding batches other).mp there
  have found := ((stored_coordinate positive stored first index).mp coordinate).2.found
  have met := ((stored_coordinate positive kept second index).mp same).2.found
  exact prefix_lookup (aligned.nested texts member others among) found met

theorem aligned_stable (positive : ∀ x, 1 < x → 0 < setting.log x)
    (aligned : Aligned setting.tables setting.bm25 batches queryText) :
    Stable (Collection.holding setting batches).stored ((Collection.holding setting batches).asked setting queryText) := by
  rw [asked_bare]
  refine ⟨?_,?_,?_,?_⟩
  · intro point held token has
    obtain ⟨texts,_,stored,index,indexed⟩ := aligned_indexed aligned held has
    exact ⟨index,(stored_coordinate positive stored token index).mpr ⟨has,indexed⟩⟩
  · intro point held other listed token has also
    rcases List.mem_cons.mp listed with rfl | there
    · exact absurd also (aligned_foreign aligned held has)
    · exact aligned_one positive aligned held there has also
  · intro point listed other alsoListed first second index coordinate same
    rcases List.mem_cons.mp listed with rfl | held
    · rw [bare_coordinate] at coordinate
      cases coordinate
    · rcases List.mem_cons.mp alsoListed with rfl | there
      · rw [bare_coordinate] at same
        cases same
      · exact aligned_apart positive aligned held there coordinate same
  · intro point held index
    rw [bare_contribution]
    refine iff_of_false (fun apart => apart rfl) ?_
    rintro ⟨token,has,asked,_⟩
    exact aligned_foreign aligned held has asked

end Exact

end Held

noncomputable def naturalSetting (tables : Tables) (bm25 : Bm25) (bareSparse : Option Failure) : Setting ℝ :=
  ⟨tables,true,bm25,Real.log,bareSparse⟩

theorem coordinates_stable_exact (tables : Tables) (bm25 : Bm25) (bareSparse : Option Failure) (batches : List (List Text))
    (queryText : Text) :
    Stable (Collection.holding (naturalSetting tables bm25 bareSparse) batches).stored
        ((Collection.holding (naturalSetting tables bm25 bareSparse) batches).asked
          (naturalSetting tables bm25 bareSparse) queryText) ↔
      Aligned tables bm25 batches queryText :=
  have positive : ∀ x, 1 < x → 0 < (naturalSetting tables bm25 bareSparse).log x := fun _ => Real.log_pos
  ⟨stable_aligned positive,aligned_stable positive⟩

def readyBm25 : Bm25 := ⟨true,fun _ => none,fun _ _ => none⟩

-- The second batch does not know the first token of the first one.
theorem refitted : ¬ Stable
    (Collection.holding (naturalSetting ascii readyBm25 none) [[['a',' ','b']],[['b',' ','c']]]).stored
    ((Collection.holding (naturalSetting ascii readyBm25 none) [[['a',' ','b']],[['b',' ','c']]]).asked
      (naturalSetting ascii readyBm25 none) ['z']) := by
  intro stable
  have aligned : Aligned ascii readyBm25 [[['a',' ','b']],[['b',' ','c']]] ['z'] := stable_aligned (fun _ => Real.log_pos) stable
  have first : SparseEmbedder.tokenize ascii ['a',' ','b'] = [['a'],['b']] := by decide
  have second : SparseEmbedder.tokenize ascii ['b',' ','c'] = [['b'],['c']] := by decide
  have known : ∀ text token, token ∈ batchVocab ascii [text] ↔ token ∈ SparseEmbedder.tokenize ascii text := by
    intro text token
    rw [mem_batchVocab]
    simp
  rcases aligned.nested [['a',' ','b']] (by simp) [['b',' ','c']] (by simp) with within | within
  · have found := within.subset ((known _ ['a']).mpr (by rw [first]; decide))
    rw [known,second] at found
    exact absurd found (by decide)
  · have found := within.subset ((known _ ['c']).mpr (by rw [second]; decide))
    rw [known,first] at found
    exact absurd found (by decide)

end Kryvaracode.Retrieval
