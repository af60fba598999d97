import Kryvaracode.Retriever
import Kryvaracode.StableTop

namespace Kryvaracode.Retrieval
open InsertionDict Runs JsonText StableTop

-- A metric by whose scores any two entries can be ranked.
structure Ranking extends Metric where
  transitive : ∀ a b c, atLeast a b = true → atLeast b c = true → atLeast a c = true
  total : ∀ a b, (atLeast a b || atLeast b a) = true

variable {metric : Metric}

-- The two lists that stand side by side in memory.
structure Lists (metric : Metric) where
  vectors : List (List metric.Number)
  metadata : List Metadata
  dimension : Nat

structure Batch (metric : Metric) where
  vectors : List (List metric.Number)
  metadata : Option (List Metadata)
  texts : Option (List Text)

-- One result as the caller gets it.
structure Shown (metric : Metric) where
  score : metric.Number
  metadata : Metadata

def IndexError (detail : Text) : Failure := ⟨.other "IndexError".toList,detail⟩

def Batch.stored (batch : Batch metric) : List Metadata := batch.metadata.getD (batch.vectors.map fun _ => Dict.empty)

namespace Lists

def init : Lists metric := ⟨[],[],0⟩

variable (store : Lists metric)

def add (batch : Batch metric) : Lists metric × Result Unit :=
  match batch.vectors,accepted store.dimension batch.vectors batch.metadata batch.texts with
  | [],_ => (store,.ok ())
  | _,.error exc => (store,.error exc)
  | first :: _,.ok _ => (⟨store.vectors ++ batch.vectors,store.metadata ++ batch.stored,
      if store.dimension = 0 then first.length else store.dimension⟩,.ok ())

def shown (scored : metric.Number × Nat) : Result (Shown metric) :=
  match store.metadata[scored.2]? with
  | some metadata => .ok ⟨scored.1,metadata⟩
  | none => .error (IndexError "list index out of range".toList)

def searchMemory (queryVector : List metric.Number) (topK : Int) : Result (List (Shown metric)) :=
  if store.vectors = [] then .ok []
  else if queryVector.length ≠ store.dimension then
    .error (ValueError ("Dimension mismatch: query vector is ".toList ++ (toString queryVector.length).toList ++
      "-D, store vectors are ".toList ++ (toString store.dimension).toList ++ "-D".toList))
  else
    let scores := store.vectors.map (metric.similarity queryVector)
    let indexedScores := (ranked metric.atLeast scores).take topK.toNat
    indexedScores.mapM store.shown

def search (queryVector : List metric.Number) (topK : Int) : Result (List (Shown metric)) :=
  if topK ≤ 0 then .ok [] else store.searchMemory queryVector topK

def step (batch : Batch metric) : Lists metric := (store.add batch).1

end Lists

def Succeeds (store : Lists metric) (batch : Batch metric) : Prop := (store.add batch).2 = .ok ()

-- The entries a call hands over, each vector with its metadata.
def Batch.given (batch : Batch metric) : List (List metric.Number × Metadata) := batch.vectors.zip batch.stored

def given (batches : List (Batch metric)) : List (List metric.Number × Metadata) := batches.flatMap Batch.given

-- The best of the entries, each with its own metadata.
def ShowsTop (metric : Metric) (entries : List (List metric.Number × Metadata)) (queryVector : List metric.Number)
    (topK : Int) (shown : List (Shown metric)) : Prop :=
  ∃ places : List (Fin entries.length),
    Top metric.atLeast (fun place => metric.similarity queryVector (entries.get place).1) topK.toNat places ∧
      shown = places.map fun place => ⟨metric.similarity queryVector (entries.get place).1,(entries.get place).2⟩

-- Both lists hold the parts of the same entries.
structure Holds (store : Lists metric) (entries : List (List metric.Number × Metadata)) : Prop where
  vectors : store.vectors = entries.map Prod.fst
  metadata : store.metadata = entries.map Prod.snd

section Lemmas
variable {store : Lists metric}

theorem zipped_parts {β : Type} {vectors : List (List metric.Number)} {stored : List Metadata} {written : List β}
    (even : stored.length = vectors.length) (sized : written.length = vectors.length)
    (made : List metric.Number × Metadata × β → Entry metric) (vector : ∀ parts, (made parts).vector = parts.1)
    (own : ∀ parts, (made parts).metadata = parts.2.1) :
    ((vectors.zip (stored.zip written)).map made).map Entry.vector = vectors ∧
      ((vectors.zip (stored.zip written)).map made).map Entry.metadata = stored := by
  have inner : (stored.zip written).length = vectors.length := by rw [List.length_zip,even,sized,min_self]
  refine ⟨?_,?_⟩
  · rw [List.map_map]
    exact (List.map_congr_left fun parts _ => vector parts).trans (List.map_fst_zip (le_of_eq inner.symm))
  · rw [List.map_map]
    calc (vectors.zip (stored.zip written)).map (Entry.metadata ∘ made)
        = ((vectors.zip (stored.zip written)).map Prod.snd).map Prod.fst := by
          rw [List.map_map]
          exact List.map_congr_left fun parts _ => own parts
      _ = (stored.zip written).map Prod.fst := by rw [List.map_snd_zip (le_of_eq inner)]
      _ = stored := List.map_fst_zip (le_of_eq (even.trans sized.symm))

theorem accepted_parts {vectors : List (List metric.Number)} {metadata : Option (List Metadata)} {texts : Option (List Text)}
    {dimension : Nat} {entries : List (Entry metric)} (given : vectors ≠ [])
    (passes : accepted dimension vectors metadata texts = .ok entries) : entries.map Entry.vector = vectors ∧
      entries.map Entry.metadata = metadata.getD (vectors.map fun _ => Dict.empty) := by
  cases vectors with
  | nil => exact absurd rfl given
  | cons first rest =>
      unfold accepted at passes
      split at passes
      next empty => cases empty
      next =>
        simp only at passes
        split at passes
        next => cases passes
        next =>
          split at passes
          next => cases passes
          next =>
            split at passes
            next => cases passes
            next even =>
              split at passes
              next => cases passes
              next sized =>
                split at passes
                next => cases passes
                next =>
                  cases passes
                  exact zipped_parts (not_not.mp even) (not_not.mp sized) _ (fun _ => rfl) fun _ => rfl

theorem add_holds {batch : Batch metric} {entries : List (List metric.Number × Metadata)} (holds : Holds store entries)
    (success : Succeeds store batch) : Holds (store.step batch) (entries ++ batch.given) := by
  obtain ⟨vectors,metadata,texts⟩ := batch
  cases vectors with
  | nil =>
      rw [Batch.given,List.zip_nil_left,List.append_nil]
      exact holds
  | cons first rest =>
      cases passes : accepted store.dimension (first :: rest) metadata texts with
      | error exc =>
          simp only [Succeeds,Lists.add,passes] at success
          cases success
      | ok made =>
          obtain ⟨vectors,own⟩ := accepted_parts (List.cons_ne_nil first rest) passes
          have even : (Batch.mk (first :: rest) metadata texts).stored.length = (first :: rest).length := by
            rw [Batch.stored,← own,List.length_map]
            exact (List.length_map Entry.vector).symm.trans (congrArg List.length vectors)
          simp only [Lists.step,Lists.add,passes]
          refine ⟨?_,?_⟩
          · rw [List.map_append,holds.vectors]
            exact congrArg _ (List.map_fst_zip (le_of_eq even.symm)).symm
          · rw [List.map_append,holds.metadata]
            exact congrArg _ (List.map_snd_zip (le_of_eq even)).symm

theorem run_holds {batches : List (Batch metric)} {entries : List (List metric.Number × Metadata)} (holds : Holds store entries)
    (successful : Steps Lists.step Succeeds store batches) :
    Holds (run Lists.step store batches) (entries ++ given batches) := by
  induction batches generalizing store entries with
  | nil =>
      rw [given,List.flatMap_nil,List.append_nil]
      exact holds
  | cons batch rest ih =>
      have later := ih (add_holds holds successful.1) successful.2
      rwa [List.append_assoc] at later

theorem lookups_succeed {β : Type} (items : List β) (scored : β → metric.Number × Nat) (own : β → Metadata)
    (found : ∀ item ∈ items, store.metadata[(scored item).2]? = some (own item)) :
    (items.map scored).mapM store.shown = .ok (items.map fun item => ⟨(scored item).1,own item⟩) := by
  induction items with
  | nil => rfl
  | cons item rest ih =>
      rw [List.forall_mem_cons] at found
      rw [List.map_cons,List.mapM_cons,ih found.2,Lists.shown,found.1]
      rfl

theorem search_shows (ranking : Ranking) {store : Lists ranking.toMetric} {entries : List (List ranking.Number × Metadata)}
    (holds : Holds store entries) (queryVector : List ranking.Number) (topK : Int) (asked : 1 ≤ topK)
    (right : store.vectors = [] ∨ queryVector.length = store.dimension) :
    ∃ shown, store.search queryVector topK = .ok shown ∧ ShowsTop ranking.toMetric entries queryVector topK shown := by
  have more : ¬ topK ≤ 0 := by omega
  unfold Lists.search Lists.searchMemory
  rw [if_neg more]
  split
  next empty =>
    have none_given : entries = [] := List.map_eq_nil_iff.mp (holds.vectors.symm.trans empty)
    subst none_given
    exact ⟨[],rfl,[],⟨.nil,(Nat.min_zero _).symm,.nil,(by simp)⟩,rfl⟩
  next present =>
    rw [if_neg (not_not.mpr (right.resolve_left present))]
    have scores : store.vectors.map (ranking.similarity queryVector) =
        entries.map fun entry => ranking.similarity queryVector entry.1 := by
      rw [holds.vectors,List.map_map]
      rfl
    obtain ⟨places,top,best⟩ := ranked_top ranking.transitive ranking.total entries
      (fun entry => ranking.similarity queryVector entry.1) topK.toNat
    rw [scores]
    simp only [best]
    refine ⟨_,lookups_succeed places _ (fun place => (entries.get place).2) ?_,places,top,rfl⟩
    intro place _
    rw [holds.metadata,List.getElem?_map,List.getElem?_eq_getElem place.isLt]
    rfl

-- Whole entries in memory, and their two parts in two lists.
structure Alike (store : Lists metric) (world : World metric) : Prop where
  off : world.useQdrant = false
  vectors : store.vectors = world.memory.map Entry.vector
  metadata : store.metadata = world.memory.map Entry.metadata
  dimension : store.dimension = world.dimension

theorem init_alike (existing : Bool) : Alike Lists.init (World.init false existing : World metric) := ⟨rfl,rfl,rfl,rfl⟩

theorem add_alike {world : World metric} (alike : Alike store world) (batch : Batch metric) (client : Client) :
    Alike (store.step batch) (world.add client batch.vectors batch.metadata batch.texts).1 ∧
      (store.add batch).2 = (world.add client batch.vectors batch.metadata batch.texts).2 := by
  obtain ⟨vectors,metadata,texts⟩ := batch
  unfold Lists.step Lists.add World.add
  rw [alike.dimension]
  cases vectors with
  | nil => exact ⟨alike,rfl⟩
  | cons first rest =>
      cases passes : accepted world.dimension (first :: rest) metadata texts with
      | error exc => exact ⟨alike,rfl⟩
      | ok made =>
          obtain ⟨vectors,own⟩ := accepted_parts (List.cons_ne_nil first rest) passes
          cases made with
          | nil => cases vectors
          | cons head tail =>
              simp only [alike.off,Bool.false_eq_true,if_false]
              refine ⟨⟨rfl,?_,?_,?_⟩,trivial⟩
              · rw [alike.vectors,World.addToMemory,List.map_append,vectors]
              · rw [alike.metadata,World.addToMemory,List.map_append,own,Batch.stored]
              · rw [World.addToMemory,(List.cons.inj vectors).1]

theorem run_alike {world : World metric} (alike : Alike store world) (batches : List (Batch metric)) (client : Client) :
    Alike (run Lists.step store batches) (run World.step world (batches.map fun batch =>
      ⟨.add batch.vectors batch.metadata batch.texts,client⟩)) := by
  induction batches generalizing store world with
  | nil => exact alike
  | cons batch rest ih => exact ih (add_alike alike batch client).1

theorem best_sorted (queryVector : List metric.Number) (topK : Int) (shown : Entry metric → Metadata)
    (entries : List (Entry metric)) : best queryVector topK shown entries =
      ((entries.mergeSort fun first second => metric.atLeast (metric.similarity queryVector first.vector)
        (metric.similarity queryVector second.vector)).map fun entry =>
          (⟨metric.similarity queryVector entry.vector,shown entry,entry⟩ : Hit metric)).take topK.toNat := by
  apply congrArg (List.take topK.toNat)
  apply Eq.symm
  apply List.map_mergeSort
  intro _ _ _ _
  rfl

def Hit.shown (hit : Hit metric) : Shown metric := ⟨hit.score,hit.metadata⟩

-- Sorted with their places, the hits are the sorted scores with the places' own metadata.
theorem search_alike {world : World metric} (alike : Alike store world) (queryVector : List metric.Number) (topK : Int)
    (client : Client) (filterMetadata : Option (Metadata → Bool)) :
    (world.search client queryVector topK filterMetadata).2.map (·.map Hit.shown) = store.search queryVector topK := by
  unfold World.search Lists.search
  split
  next => rfl
  next =>
    rw [alike.off]
    simp only [Bool.false_eq_true,if_false]
    have stored : store.vectors = [] ↔ world.memory = [] := by rw [alike.vectors,List.map_eq_nil_iff]
    unfold World.searchMemory Lists.searchMemory
    rw [alike.dimension]
    simp only [stored]
    split
    next => rfl
    next =>
      split
      next => rfl
      next =>
        obtain ⟨tagged,places,sorted,scores⟩ := ranked_items metric.atLeast world.memory
          fun entry => metric.similarity queryVector entry.vector
        rw [alike.vectors,List.map_map]
        change _ = ((ranked metric.atLeast (world.memory.map fun entry => metric.similarity queryVector entry.vector)).take
          topK.toNat).mapM store.shown
        rw [← scores,best_sorted,← sorted,← List.map_take,← List.map_take,← List.map_take,
          lookups_succeed _ _ fun item : Entry metric × Nat => item.1.metadata]
        · rw [List.map_map]
          simp only [Except.map,List.map_map]
          rfl
        · intro item inside
          have place := places item (List.mem_of_mem_take inside)
          rw [alike.metadata,List.getElem?_map]
          exact congrArg (Option.map Entry.metadata) place

end Lemmas

theorem memory_search_top (ranking : Ranking) (batches : List (Batch ranking.toMetric)) (queryVector : List ranking.Number)
    (topK : Int) (successful : Steps Lists.step Succeeds Lists.init batches) (asked : 1 ≤ topK)
    (right : (run Lists.step Lists.init batches).vectors = [] ∨
      queryVector.length = (run Lists.step Lists.init batches).dimension) : ∃ shown,
        (run Lists.step Lists.init batches).search queryVector topK = .ok shown ∧
          ShowsTop ranking.toMetric (given batches) queryVector topK shown := by
  have start : Holds (Lists.init : Lists ranking.toMetric) [] := ⟨rfl,rfl⟩
  exact search_shows ranking (run_holds start successful) queryVector topK asked right

-- Vectors of one number, the greater the better.
def plainRanking : Ranking where
  Number := Nat
  zero := 0
  similarity _ vector := vector.headD 0
  atLeast first second := decide (second ≤ first)
  transitive := by
    intro a b c first second
    exact decide_eq_true ((of_decide_eq_true second).trans (of_decide_eq_true first))
  total := by
    intro a b
    rw [Bool.or_eq_true,decide_eq_true_eq,decide_eq_true_eq]
    exact le_total b a

def twoCalls : List (Batch plainRanking.toMetric) :=
  [⟨[[(1 : Nat)],[(2 : Nat)]],none,none⟩,⟨[[(2 : Nat)]],some [Dict.empty.set ['k'] .null],none⟩]

theorem memory_search_of_two_calls : ∃ shown,
    (run Lists.step Lists.init twoCalls).search [(1 : Nat)] 2 = .ok shown ∧
      ShowsTop plainRanking.toMetric (given twoCalls) [(1 : Nat)] 2 shown :=
  memory_search_top plainRanking twoCalls _ _ ⟨rfl,rfl,trivial⟩ (by decide) (.inr rfl)

end Kryvaracode.Retrieval
