import Kryvaracode.InsertionDict
import Kryvaracode.Runs
import Kryvaracode.Exceptions
import Kryvaracode.JsonText

namespace Kryvaracode.Retrieval
open InsertionDict Runs JsonText

-- The numbers of a vector, and how two vectors and two scores compare.
structure Metric where
  Number : Type
  zero : Number
  similarity : List Number → List Number → Number
  atLeast : Number → Number → Bool

variable {metric : Metric}

abbrev Metadata := Dict Text Json

structure Entry (metric : Metric) where
  vector : List metric.Number
  metadata : Metadata
  text : Option Text

-- One result, with the entry it is of.
structure Hit (metric : Metric) where
  score : metric.Number
  metadata : Metadata
  entry : Entry metric

-- Whether each call on the client, if it is made, succeeds or raises.
structure Client where
  getCollections : Bool
  createCollection : Bool
  upsert : Bool
  queryPoints : Bool
  deleteCollection : Bool

-- The store and the collection on the server, with what it should hold.
structure World (metric : Metric) where
  useQdrant : Bool
  collectionCreated : Bool
  collection : Option (List (Entry metric))
  memory : List (Entry metric)
  dimension : Nat
  contents : List (Entry metric)

inductive Call (metric : Metric) where
  | add (vectors : List (List metric.Number)) (metadata : Option (List Metadata)) (texts : Option (List Text))
  | search (queryVector : List metric.Number) (topK : Int) (filterMetadata : Option (Metadata → Bool))
  | clear

structure Turn (metric : Metric) where
  call : Call metric
  client : Client

def payload (entry : Entry metric) : Metadata :=
  entry.text.elim entry.metadata fun text => entry.metadata.set "text".toList (.str text)

def best (queryVector : List metric.Number) (topK : Int) (shown : Entry metric → Metadata) (entries : List (Entry metric)) :
    List (Hit metric) :=
  ((entries.map fun entry => ⟨metric.similarity queryVector entry.vector,shown entry,entry⟩).mergeSort
    fun first second => metric.atLeast first.score second.score).take topK.toNat

-- The arguments of `add` once they have passed its checks.
def accepted (dimension : Nat) (vectors : List (List metric.Number)) (metadata : Option (List Metadata))
    (texts : Option (List Text)) : Result (List (Entry metric)) :=
  match vectors with
  | [] => .ok []
  | first :: _ =>
      let dim := first.length
      if dim = 0 then .error (ValueError "Vectors must have at least one dimension".toList)
      else match vectors.find? fun vector => decide (vector.length ≠ dim) with
      | some other => .error (ValueError ("All vectors must have the same dimensionality (expected ".toList ++
          (toString dim).toList ++ ", got ".toList ++ (toString other.length).toList ++ ")".toList))
      | none =>
          let given := metadata.getD (vectors.map fun _ => Dict.empty)
          let written := texts.elim (vectors.map fun _ => none) (·.map some)
          if given.length ≠ vectors.length then
            .error (ValueError ("metadata length (".toList ++ (toString given.length).toList ++
              ") must match vectors length (".toList ++ (toString vectors.length).toList ++ ")".toList))
          else if written.length ≠ vectors.length then
            .error (ValueError ("texts length (".toList ++ (toString written.length).toList ++
              ") must match vectors length (".toList ++ (toString vectors.length).toList ++ ")".toList))
          else if dimension ≠ 0 ∧ dim ≠ dimension then
            .error (ValueError ("Dimension mismatch: existing vectors are ".toList ++ (toString dimension).toList ++
              "-D, new vectors are ".toList ++ (toString dim).toList ++ "-D".toList))
          else .ok ((vectors.zip (given.zip written)).map fun parts => ⟨parts.1,parts.2.1,parts.2.2⟩)

namespace World

def init (available existing : Bool) : World metric := ⟨available,false,if existing then some [] else none,[],0,[]⟩

variable (world : World metric) (client : Client)

def ensureCollection : World metric :=
  if !world.useQdrant || world.collectionCreated then world
  else if !client.getCollections then {world with useQdrant := false}
  else if world.collection.isSome then {world with collectionCreated := true}
  else if client.createCollection then {world with collection := some [],collectionCreated := true}
  else {world with useQdrant := false}

def addToMemory (entries : List (Entry metric)) : World metric := {world with memory := world.memory ++ entries}

-- An upsert into a collection that is not there raises whatever the connection does.
def addToQdrant (entries : List (Entry metric)) : World metric :=
  let ready := world.ensureCollection client
  match client.upsert,ready.collection with
  | true,some points => {ready with collection := some (points ++ entries)}
  | _,_ => {ready with useQdrant := false}.addToMemory entries

def add (vectors : List (List metric.Number)) (metadata : Option (List Metadata)) (texts : Option (List Text)) :
    World metric × Result Unit :=
  match accepted world.dimension vectors metadata texts with
  | .error exc => (world,.error exc)
  | .ok [] => (world,.ok ())
  | .ok (first :: rest) =>
      let sized := {world with
        dimension := if world.dimension = 0 then first.vector.length else world.dimension
        contents := world.contents ++ first :: rest}
      (if world.useQdrant then sized.addToQdrant client (first :: rest) else sized.addToMemory (first :: rest),.ok ())

def searchMemory (queryVector : List metric.Number) (topK : Int) : Result (List (Hit metric)) :=
  if world.memory = [] then .ok []
  else if queryVector.length ≠ world.dimension then
    .error (ValueError ("Dimension mismatch: query vector is ".toList ++ (toString queryVector.length).toList ++
      "-D, store vectors are ".toList ++ (toString world.dimension).toList ++ "-D".toList))
  else .ok (best queryVector topK Entry.metadata world.memory)

def searchQdrant (queryVector : List metric.Number) (topK : Int) (filterMetadata : Option (Metadata → Bool)) :
    World metric × Result (List (Hit metric)) :=
  let ready := world.ensureCollection client
  match client.queryPoints,ready.collection with
  | true,some points =>
      (ready,.ok (best queryVector topK payload (points.filter fun entry => filterMetadata.all (· (payload entry)))))
  | _,_ => ({ready with useQdrant := false},ready.searchMemory queryVector topK)

def search (queryVector : List metric.Number) (topK : Int) (filterMetadata : Option (Metadata → Bool)) :
    World metric × Result (List (Hit metric)) :=
  if topK ≤ 0 then (world,.ok [])
  else if world.useQdrant then world.searchQdrant client queryVector topK filterMetadata
  else (world,world.searchMemory queryVector topK)

def clear : World metric :=
  let dropped := if world.useQdrant && client.deleteCollection then
    {world with collection := none,collectionCreated := false} else world
  {dropped with memory := [],dimension := 0,contents := []}

def step (turn : Turn metric) : World metric :=
  match turn.call with
  | .add vectors metadata texts => (world.add turn.client vectors metadata texts).1
  | .search queryVector topK filterMetadata => (world.search turn.client queryVector topK filterMetadata).1
  | .clear => world.clear turn.client

end World

-- A dense search for at least as many results as there are entries.
def Exhaustive (world : World metric) (queryVector : List metric.Number) (topK : Int) : Prop :=
  (world.contents.length : Int) ≤ topK ∧ (world.contents = [] ∨ queryVector.length = world.dimension)

def ReturnsAll (world : World metric) (result : Result (List (Hit metric))) : Prop :=
  ∃ hits, result = .ok hits ∧ (hits.map Hit.entry).Perm world.contents

def working : Client := ⟨true,true,true,true,true⟩

-- What a search finds whose calls on the client succeed.
def Faithful (world : World metric) : Prop :=
  ∀ queryVector topK, Exhaustive world queryVector topK → ReturnsAll world (world.search working queryVector topK none).2

def Answers (world : World metric) (turn : Turn metric) : Prop :=
  ∀ queryVector topK, turn.call = .search queryVector topK none → Exhaustive world queryVector topK →
    ReturnsAll world (world.search turn.client queryVector topK none).2

-- The check for the collection fails, or the attempt to make it.
def missing (world : World metric) (client : Client) : Bool :=
  !world.collectionCreated && (!client.getCollections || (world.collection.isNone && !client.createCollection))

-- No call that comes upon a failure of the client leaves entries behind it.
def KeepsContents (world : World metric) (turn : Turn metric) : Prop :=
  world.useQdrant = true → match turn.call with
  | .add vectors metadata texts => ∀ entries, accepted world.dimension vectors metadata texts = .ok entries → entries ≠ [] →
      if turn.client.upsert then missing world turn.client = false ∨ (world.collection = none ∧ world.contents = [])
      else world.contents = []
  | .search _ topK _ => 0 < topK →
      (missing world turn.client || !turn.client.queryPoints) = true → world.contents = []
  | .clear => turn.client.deleteCollection = false → world.contents = []

-- While the server is in use nothing is kept in memory.
structure Placed (world : World metric) : Prop where
  created : world.useQdrant = true → world.collectionCreated = true → world.collection.isSome = true
  unused : world.useQdrant = true → world.memory = []

def held (world : World metric) : List (Entry metric) :=
  if world.useQdrant then world.collection.getD [] else world.memory

section Lemmas
variable {world : World metric}

theorem init_placed (available existing : Bool) : Placed (World.init available existing : World metric) :=
  ⟨(by intro _ created; cases created),fun _ => rfl⟩

theorem ensureCollection_parts (placed : Placed world) (used : world.useQdrant = true) (client : Client) :
    world.ensureCollection client = if missing world client then {world with useQdrant := false}
      else {world with collection := some (world.collection.getD []),collectionCreated := true} := by
  have created := placed.created used
  rcases world with ⟨useQdrant,collectionCreated,collection,memory,dimension,contents⟩
  simp only [World.ensureCollection,missing] at used created ⊢
  subst used
  cases collectionCreated with
  | true =>
      obtain ⟨points,same⟩ := Option.isSome_iff_exists.mp (created rfl)
      simp [same]
  | false =>
      rcases client with ⟨getCollections,createCollection,_,_,_⟩
      cases getCollections <;> cases collection <;> cases createCollection <;> rfl

theorem best_entries (queryVector : List metric.Number) (topK : Int) (shown : Entry metric → Metadata)
    (entries : List (Entry metric)) (enough : (entries.length : Int) ≤ topK) :
    ((best queryVector topK shown entries).map Hit.entry).Perm entries := by
  unfold best
  have all := List.mergeSort_perm (entries.map fun entry => (⟨metric.similarity queryVector entry.vector,shown entry,entry⟩ :
    Hit metric)) fun first second => metric.atLeast first.score second.score
  rw [List.take_of_length_le]
  · refine (all.map Hit.entry).trans ?_
    rw [List.map_map]
    exact (List.map_id entries).symm ▸ List.Perm.refl _
  · rw [all.length_eq,List.length_map]
    omega

theorem best_fewer (queryVector : List metric.Number) (topK : Int) (shown : Entry metric → Metadata)
    (entries : List (Entry metric)) : (best queryVector topK shown entries).length = min topK.toNat entries.length := by
  rw [best,List.length_take,List.length_mergeSort,List.length_map]

theorem all_entries (points : List (Entry metric)) :
    (points.filter fun entry => (none : Option (Metadata → Bool)).all (· (payload entry))) = points :=
  List.filter_eq_self.mpr fun _ _ => rfl

-- A search that the client lets through shows what is held.
theorem working_search (placed : Placed world) (queryVector : List metric.Number) (topK : Int) (asked : 0 < topK)
    (right : world.useQdrant = false → world.memory = [] ∨ queryVector.length = world.dimension) : ∃ shown,
      (world.search working queryVector topK none).2 = .ok (best queryVector topK shown (held world)) := by
  unfold World.search
  rw [if_neg (not_le.mpr asked)]
  cases used : world.useQdrant with
  | true =>
      have found : missing world working = false := by simp [missing,working]
      refine ⟨payload,?_⟩
      rw [if_pos rfl,World.searchQdrant,ensureCollection_parts placed used,found]
      simp only [working,Bool.false_eq_true,if_false,all_entries,held,used,if_true]
  | false =>
      refine ⟨Entry.metadata,?_⟩
      simp only [Bool.false_eq_true,if_false,World.searchMemory,held,used]
      split
      next empty => simp [best,empty]
      next present =>
        rw [if_neg (not_not.mpr ((right used).resolve_left present))]

theorem faithful_exact (placed : Placed world) : Faithful world ↔ (held world).Perm world.contents := by
  refine ⟨?_,?_⟩
  · intro faithful
    have asked : (0 : Int) < ((held world).length + world.contents.length + 1 : Nat) := by omega
    obtain ⟨hits,result,all⟩ := faithful (List.replicate world.dimension metric.zero)
      ((held world).length + world.contents.length + 1 : Nat) ⟨by omega,.inr (List.length_replicate)⟩
    obtain ⟨shown,same⟩ := working_search placed (List.replicate world.dimension metric.zero) _ asked
      fun _ => .inr List.length_replicate
    rw [same] at result
    cases result
    exact (best_entries _ _ shown (held world) (by omega)).symm.trans all
  · intro same queryVector topK exhaustive
    by_cases asked : 0 < topK
    · have right : world.useQdrant = false → world.memory = [] ∨ queryVector.length = world.dimension := by
        intro unused
        refine exhaustive.2.imp_left ?_
        intro empty
        rw [held,unused,empty] at same
        exact List.perm_nil.mp same
      obtain ⟨shown,result⟩ := working_search placed queryVector topK asked right
      exact ⟨_,result,(best_entries _ _ _ _ (same.length_eq ▸ exhaustive.1)).trans same⟩
    · have empty : world.contents = [] := by
        have few := exhaustive.1
        exact List.eq_nil_of_length_eq_zero (by omega)
      refine ⟨[],?_,empty ▸ List.Perm.nil⟩
      rw [World.search,if_pos (not_lt.mp asked)]

theorem perm_append_self {α : Type} (before added : List α) : added.Perm (before ++ added) ↔ before = [] := by
  refine ⟨?_,?_⟩
  · intro same
    have sizes := same.length_eq
    rw [List.length_append] at sizes
    exact List.eq_nil_of_length_eq_zero (by omega)
  · intro empty
    rw [empty,List.nil_append]

-- What a call leaves: where it puts what is held, and that it is placed.
structure Leaves (world after : World metric) (places : List (Entry metric)) : Prop where
  placed : Placed after
  held : held after = places
  contents : after.contents = world.contents

theorem leaves_faithful {after : World metric} {places : List (Entry metric)} (leaves : Leaves world after places) :
    Faithful after ↔ places.Perm world.contents := by
  rw [faithful_exact leaves.placed,leaves.held,leaves.contents]

theorem memory_leaves {after : World metric} {places : List (Entry metric)} (off : after.useQdrant = false)
    (contents : after.contents = world.contents) (memory : after.memory = places) : Leaves world after places := by
  refine ⟨⟨?_,?_⟩,by simp [held,off,memory],contents⟩
  all_goals
    intro used
    rw [off] at used
    cases used

theorem addToQdrant_leaves (placed : Placed world) (used : world.useQdrant = true) (client : Client)
    (entries : List (Entry metric)) : Leaves world (world.addToQdrant client entries)
      (if client.upsert then
        if missing world client then if world.collection = none then entries else [] else held world ++ entries
      else entries) := by
  have unused := placed.unused used
  have kept : world.memory ++ entries = entries := by rw [unused,List.nil_append]
  unfold World.addToQdrant
  rw [ensureCollection_parts placed used client]
  cases client.upsert with
  | false =>
      refine memory_leaves rfl ?_ ?_
      · change (ite _ _ _ : World metric).contents = world.contents
        split <;> rfl
      · change (ite _ _ _ : World metric).memory ++ entries = entries
        split <;> exact kept
  | true =>
      cases missing world client with
      | false => exact ⟨⟨fun _ _ => rfl,fun _ => unused⟩,by simp [held,used],rfl⟩
      | true =>
          simp only [if_true]
          cases world.collection with
          | none => exact memory_leaves rfl rfl kept
          | some points => exact memory_leaves rfl rfl unused

theorem searchQdrant_leaves (placed : Placed world) (used : world.useQdrant = true) (client : Client)
    (queryVector : List metric.Number) (topK : Int) (filterMetadata : Option (Metadata → Bool)) :
    Leaves world (world.searchQdrant client queryVector topK filterMetadata).1
      (if missing world client || !client.queryPoints then [] else held world) := by
  have unused := placed.unused used
  unfold World.searchQdrant
  rw [ensureCollection_parts placed used client]
  cases missing world client with
  | true =>
      dsimp only
      split <;> exact memory_leaves rfl rfl unused
  | false =>
      cases client.queryPoints with
      | true => exact ⟨⟨fun _ _ => rfl,fun _ => unused⟩,by simp [held,used],rfl⟩
      | false => exact memory_leaves rfl rfl unused

theorem searchQdrant_result (placed : Placed world) (used : world.useQdrant = true) (client : Client)
    (queryVector : List metric.Number) (topK : Int) :
    (world.searchQdrant client queryVector topK none).2 = .ok (best queryVector topK payload (held world)) ∨
      ((missing world client || !client.queryPoints) = true ∧ (world.searchQdrant client queryVector topK none).2 = .ok []) := by
  have unused := placed.unused used
  unfold World.searchQdrant
  rw [ensureCollection_parts placed used client]
  cases missing world client with
  | true =>
      cases client.queryPoints with
      | true =>
          cases stored : world.collection with
          | some points => exact .inl (by simp [held,used,stored])
          | none => exact .inr ⟨rfl,by simp [World.searchMemory,unused]⟩
      | false => exact .inr ⟨rfl,by simp [World.searchMemory,unused]⟩
  | false =>
      cases client.queryPoints with
      | true => exact .inl (by simp [held,used])
      | false => exact .inr ⟨rfl,by simp [World.searchMemory,unused]⟩

theorem clear_placed (placed : Placed world) (client : Client) : Placed (world.clear client) := by
  unfold World.clear
  split
  next => exact ⟨(by intro _ created; cases created),fun _ => rfl⟩
  next => exact ⟨placed.created,fun _ => rfl⟩

theorem clear_held (client : Client) : held (world.clear client) =
    if world.useQdrant then if client.deleteCollection then [] else world.collection.getD [] else [] := by
  unfold World.clear held
  cases used : world.useQdrant <;> cases client.deleteCollection <;> simp [used]

-- An add that is accepted, with the size it settles and what it promises to keep.
theorem add_accepted (placed : Placed world) (client : Client) (vectors : List (List metric.Number))
    (metadata : Option (List Metadata)) (texts : Option (List Text)) (entries : List (Entry metric))
    (passes : accepted world.dimension vectors metadata texts = .ok entries) (some_given : entries ≠ []) :
    ∃ sized : World metric, sized.contents = world.contents ++ entries ∧
      Leaves sized (world.add client vectors metadata texts).1
        (if world.useQdrant then if client.upsert then if missing world client then
          if world.collection = none then entries else [] else held world ++ entries else entries
        else held world ++ entries) := by
  unfold World.add
  rw [passes]
  cases entries with
  | nil => exact absurd rfl some_given
  | cons first rest =>
      refine ⟨{world with
        dimension := if world.dimension = 0 then first.vector.length else world.dimension
        contents := world.contents ++ first :: rest},rfl,?_⟩
      dsimp only
      by_cases used : world.useQdrant = true
      · rw [if_pos used,if_pos used]
        have sized : Placed {world with
            dimension := if world.dimension = 0 then first.vector.length else world.dimension
            contents := world.contents ++ first :: rest} := ⟨placed.created,placed.unused⟩
        exact addToQdrant_leaves sized used client (first :: rest)
      · rw [if_neg used,if_neg used]
        refine memory_leaves (Bool.eq_false_iff.mpr used) rfl ?_
        simp [World.addToMemory,held,used]

theorem add_refused (client : Client) (vectors : List (List metric.Number)) (metadata : Option (List Metadata))
    (texts : Option (List Text)) (refused : ∀ entries, accepted world.dimension vectors metadata texts = .ok entries → entries = []) :
    (world.add client vectors metadata texts).1 = world := by
  unfold World.add
  cases passes : accepted world.dimension vectors metadata texts with
  | error exc => rfl
  | ok entries =>
      rw [refused entries passes]
end Lemmas

theorem step_placed (world : World metric) (turn : Turn metric) (placed : Placed world) : Placed (world.step turn) := by
  obtain ⟨call,client⟩ := turn
  cases call with
  | add vectors metadata texts =>
      by_cases refused : ∀ entries, accepted world.dimension vectors metadata texts = .ok entries → entries = []
      · change Placed (world.add client vectors metadata texts).1
        rw [add_refused client vectors metadata texts refused]
        exact placed
      · push Not at refused
        obtain ⟨entries,passes,given⟩ := refused
        obtain ⟨_,_,leaves⟩ := add_accepted placed client vectors metadata texts entries passes given
        exact leaves.placed
  | search queryVector topK filterMetadata =>
      change Placed (world.search client queryVector topK filterMetadata).1
      unfold World.search
      split
      next => exact placed
      next =>
        split
        next used => exact (searchQdrant_leaves placed used client queryVector topK filterMetadata).placed
        next => exact placed
  | clear => exact clear_placed placed client

section Exactness
variable {world : World metric} (placed : Placed world) (faithful : Faithful world)
include placed faithful

theorem held_contents : (held world).Perm world.contents := (faithful_exact placed).mp faithful

theorem add_keeps (client : Client) (vectors : List (List metric.Number)) (metadata : Option (List Metadata))
    (texts : Option (List Text)) : Faithful (world.add client vectors metadata texts).1 ↔
      KeepsContents world ⟨.add vectors metadata texts,client⟩ := by
  by_cases refused : ∀ entries, accepted world.dimension vectors metadata texts = .ok entries → entries = []
  · rw [add_refused client vectors metadata texts refused]
    exact iff_of_true faithful fun _ entries passes given => absurd (refused entries passes) given
  · push Not at refused
    obtain ⟨entries,passes,given⟩ := refused
    obtain ⟨sized,contents,leaves⟩ := add_accepted placed client vectors metadata texts entries passes given
    have before := held_contents placed faithful
    have longer : ¬ ([] : List (Entry metric)).Perm (world.contents ++ entries) := by
      intro same
      exact given (List.append_eq_nil_iff.mp (List.nil_perm.mp same)).2
    have only : KeepsContents world ⟨.add vectors metadata texts,client⟩ ↔ (world.useQdrant = true →
        if client.upsert then missing world client = false ∨ (world.collection = none ∧ world.contents = [])
        else world.contents = []) := by
      refine ⟨fun keeps used => keeps used entries passes given,?_⟩
      intro keeps used other also _
      exact keeps used
    rw [leaves_faithful leaves,contents,only]
    cases world.useQdrant with
    | false => exact iff_of_true (before.append_right entries) fun used => by cases used
    | true =>
        rw [forall_prop_of_true rfl]
        simp only [if_true]
        cases client.upsert with
        | false => exact perm_append_self world.contents entries
        | true =>
            simp only [if_true]
            cases missing world client with
            | false => exact iff_of_true (before.append_right entries) (.inl rfl)
            | true =>
                simp only [if_true,Bool.true_eq_false,false_or]
                cases world.collection with
                | none =>
                    rw [if_pos rfl,and_iff_right rfl]
                    exact perm_append_self world.contents entries
                | some points =>
                    rw [if_neg (Option.some_ne_none points)]
                    exact iff_of_false longer fun both => Option.some_ne_none points both.1

theorem search_keeps (client : Client) (queryVector : List metric.Number) (topK : Int)
    (filterMetadata : Option (Metadata → Bool)) : Faithful (world.search client queryVector topK filterMetadata).1 ↔
      KeepsContents world ⟨.search queryVector topK filterMetadata,client⟩ := by
  change _ ↔ (world.useQdrant = true → 0 < topK → (missing world client || !client.queryPoints) = true → world.contents = [])
  unfold World.search
  by_cases asked : topK ≤ 0
  · rw [if_pos asked]
    exact iff_of_true faithful fun _ more => absurd more (not_lt.mpr asked)
  · rw [if_neg asked]
    by_cases used : world.useQdrant = true
    · rw [if_pos used,leaves_faithful (searchQdrant_leaves placed used client queryVector topK filterMetadata)]
      by_cases fails : (missing world client || !client.queryPoints) = true
      · rw [if_pos fails,List.nil_perm]
        exact ⟨fun empty _ _ _ => empty,fun keeps => keeps used (not_le.mp asked) fails⟩
      · rw [if_neg fails]
        exact iff_of_true (held_contents placed faithful) fun _ _ failed => absurd failed fails
    · rw [if_neg used]
      exact iff_of_true faithful fun on => absurd on used

theorem clear_keeps (client : Client) : Faithful (world.clear client) ↔ KeepsContents world ⟨.clear,client⟩ := by
  change _ ↔ (world.useQdrant = true → client.deleteCollection = false → world.contents = [])
  have before := held_contents placed faithful
  have contents : (world.clear client).contents = [] := rfl
  rw [faithful_exact (clear_placed placed client),contents,clear_held,List.perm_nil]
  cases used : world.useQdrant with
  | false => exact iff_of_true rfl fun on => by cases on
  | true =>
      cases client.deleteCollection with
      | true => exact iff_of_true rfl fun _ fails => by cases fails
      | false =>
          rw [held,used] at before
          simp only [if_true,Bool.false_eq_true,if_false,true_imp_iff] at before ⊢
          refine ⟨?_,?_⟩
          · intro empty
            rw [empty] at before
            exact List.nil_perm.mp before
          · intro empty
            rw [empty] at before
            exact List.perm_nil.mp before

theorem search_answers (turn : Turn metric) (keeps : KeepsContents world turn) : Answers world turn := by
  intro queryVector topK same exhaustive
  obtain ⟨call,client⟩ := turn
  cases same
  have usual := faithful queryVector topK exhaustive
  unfold World.search at usual ⊢
  split
  next none => rwa [if_pos none] at usual
  next asked =>
    split
    next used =>
      rcases searchQdrant_result placed used client queryVector topK with shown | ⟨fails,shown⟩
      · have before := held_contents placed faithful
        exact ⟨_,shown,(best_entries _ _ _ _ (before.length_eq ▸ exhaustive.1)).trans before⟩
      · refine ⟨[],shown,?_⟩
        rw [keeps used (not_le.mp asked) fails]
        exact .nil
    next unused => rwa [if_neg asked,if_neg unused] at usual
end Exactness

theorem step_faithful (world : World metric) (turn : Turn metric) (placed : Placed world) (faithful : Faithful world) :
    Faithful (world.step turn) ↔ KeepsContents world turn := by
  obtain ⟨call,client⟩ := turn
  cases call with
  | add vectors metadata texts => exact add_keeps placed faithful client vectors metadata texts
  | search queryVector topK filterMetadata => exact search_keeps placed faithful client queryVector topK filterMetadata
  | clear => exact clear_keeps placed faithful client

theorem init_faithful (available existing : Bool) : Faithful (World.init available existing : World metric) := by
  rw [faithful_exact (init_placed available existing)]
  cases available <;> cases existing <;> exact .nil

-- Scores of one kind for everything.
def plainMetric : Metric := ⟨Nat,0,fun _ _ => 0,fun _ _ => true⟩

end Kryvaracode.Retrieval
