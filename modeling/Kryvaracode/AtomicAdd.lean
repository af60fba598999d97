import Kryvaracode.Retriever
import Kryvaracode.SparseEmbedder

namespace Kryvaracode.Retrieval
open InsertionDict Runs JsonText UnicodeText

-- How a retriever is set up, and what `SparseVector()` raises when it is given
-- nothing.
structure Setting (K : Type) where
  tables : Tables
  enableHybrid : Bool
  bm25 : Bm25
  log : K → K
  bareSparse : Option Failure

-- `m.get("text", "")`: what is not a string has no `lower`.
def metadataText (metadata : Metadata) : Result Text :=
  match metadata.get "text".toList with
  | none => .ok []
  | some (.str text) => .ok text
  | some _ => .error ⟨.other "AttributeError".toList,"object has no attribute 'lower'".toList⟩

section Hybrid
variable {metric : Metric} {K : Type} [Field K] [LinearOrder K] (setting : Setting K)

def Setting.sparseVectors (metadata : List Metadata) (texts : List Text) : Result (SparseEmbedder × List (Dict Nat K)) :=
  if setting.bm25.available then do
    let seen ← metadata.mapM metadataText
    let fitted ← SparseEmbedder.init.fit setting.tables setting.bm25 (seen ++ texts)
    let vectors ← fitted.embed setting.log setting.tables setting.bm25 texts
    .ok (fitted,vectors)
  else .error SparseEmbedder.unavailable

-- A failure to make the sparse vectors is logged and leaves none.
def Setting.planned (metadata : List Metadata) (texts : Option (List Text)) : Option (List (Dict Nat K)) :=
  if setting.enableHybrid then
    match texts with
    | some texts => (setting.sparseVectors metadata texts).toOption.map Prod.snd
    | none => none
  else none

-- `SparseVector(**vector)`: the keys of the dict are not strings.
def Setting.sparseVector (vector : Dict Nat K) : Result Unit :=
  if vector.entries = [] then raising setting.bareSparse
  else .error ⟨.other "TypeError".toList,"keywords must be strings".toList⟩

def Setting.points (vectors : List (Dict Nat K)) : Result Unit :=
  match vectors with
  | [] => .ok ()
  | vector :: rest => do
      setting.sparseVector vector
      Setting.points rest

namespace World
variable (world : World metric) (client : Client)

-- Only the upsert is guarded.
def addToHybrid (texts : Option (List Text)) (entries : List (Entry metric)) : World metric × Result Unit :=
  let ready := world.ensureCollection client
  match setting.points (((setting.planned (ready.memory.map Entry.metadata) texts).getD []).take entries.length) with
  | .error exc => (ready,.error exc)
  | .ok _ => (world.addToQdrant client entries,.ok ())

def addHybrid (vectors : List (List metric.Number)) (metadata : Option (List Metadata)) (texts : Option (List Text)) :
    World metric × Result Unit :=
  match accepted world.dimension vectors metadata texts with
  | .error exc => (world,.error exc)
  | .ok [] => (world,.ok ())
  | .ok (first :: rest) =>
      let sized := {world with
        dimension := if world.dimension = 0 then first.vector.length else world.dimension
        contents := world.contents ++ first :: rest}
      if world.useQdrant then sized.addToHybrid setting client texts (first :: rest)
      else (sized.addToMemory (first :: rest),.ok ())

-- A search with text makes no sparse vector either where there is nothing in memory.
def stepHybrid (turn : Turn metric) : World metric :=
  match turn.call with
  | .add vectors metadata texts => (world.addHybrid setting turn.client vectors metadata texts).1
  | .search _ _ _ | .clear => world.step turn

end World

-- An add whose arguments pass adds its entries and returns; any other raises a
-- ValueError and changes nothing.
structure AtomicTotal (world : World metric) (client : Client) (vectors : List (List metric.Number))
    (metadata : Option (List Metadata)) (texts : Option (List Text)) : Prop where
  total : ∀ entries, accepted world.dimension vectors metadata texts = .ok entries →
    (world.addHybrid setting client vectors metadata texts).2 = .ok () ∧
      held (world.addHybrid setting client vectors metadata texts).1 = held world ++ entries
  refused : ∀ exc, accepted world.dimension vectors metadata texts = .error exc →
    exc.kind = .value ∧ world.addHybrid setting client vectors metadata texts = (world,.error exc)

-- No sparse vector is made with anything in it.
def Setting.NothingPassed (metadata : List Metadata) (texts : Option (List Text)) (count : Nat) : Prop :=
  ∀ sparse, setting.planned metadata texts = some sparse →
    ∀ vector ∈ sparse.take count, vector.entries = [] ∧ setting.bareSparse = none

-- On the server, no sparse vector is passed on, and the entries go where the
-- earlier ones are.
def Lands (world : World metric) (client : Client) (vectors : List (List metric.Number)) (metadata : Option (List Metadata))
    (texts : Option (List Text)) : Prop :=
  world.useQdrant = true → ∀ entries, accepted world.dimension vectors metadata texts = .ok entries → entries ≠ [] →
    setting.NothingPassed (world.memory.map Entry.metadata) texts entries.length ∧
    if client.upsert then missing world client = false ∨ world.collection = none else held world = []

omit [Field K] [LinearOrder K] in
theorem points_ok (vectors : List (Dict Nat K)) : setting.points vectors = .ok () ↔
    ∀ vector ∈ vectors, vector.entries = [] ∧ setting.bareSparse = none := by
  induction vectors with
  | nil => exact iff_of_true rfl (by simp)
  | cons vector rest ih =>
      rw [List.forall_mem_cons,← ih,Setting.points,Setting.sparseVector]
      by_cases empty : vector.entries = []
      · rw [if_pos empty]
        cases bare : setting.bareSparse with
        | none => exact (and_iff_right ⟨empty,rfl⟩).symm
        | some exc => exact iff_of_false (by intro same; cases same) (by rintro ⟨⟨_,none⟩,_⟩; cases none)
      · rw [if_neg empty]
        exact iff_of_false (by intro same; cases same) fun both => empty both.1.1

section Adds
variable {setting} {world : World metric} {client : Client}

theorem ensureCollection_memory (world : World metric) (client : Client) :
    (world.ensureCollection client).memory = world.memory := by
  unfold World.ensureCollection
  repeat' split
  all_goals rfl

theorem ensureCollection_placed (placed : Placed world) (used : world.useQdrant = true) (client : Client) :
    Placed (world.ensureCollection client) := by
  have unused := placed.unused used
  rw [ensureCollection_parts placed used client]
  cases missing world client with
  | true => exact ⟨fun off => absurd off Bool.false_ne_true,fun _ => unused⟩
  | false => exact ⟨fun _ _ => rfl,fun _ => unused⟩

variable {texts : Option (List Text)} {entries : List (Entry metric)}

theorem points_planned (setting : Setting K) (metadata : List Metadata) (texts : Option (List Text)) (count : Nat) :
    setting.points (((setting.planned metadata texts).getD []).take count) = .ok () ↔
      setting.NothingPassed metadata texts count := by
  rw [points_ok,Setting.NothingPassed]
  cases setting.planned metadata texts with
  | none => simp
  | some sparse => simp

-- Either every point is built and goes to the server, or the add ends at the first
-- that is not, with the collection made.
theorem addToHybrid_cases (setting : Setting K) (world : World metric) (client : Client) (texts : Option (List Text))
    (entries : List (Entry metric)) :
    (setting.NothingPassed (world.memory.map Entry.metadata) texts entries.length ∧
        world.addToHybrid setting client texts entries = (world.addToQdrant client entries,.ok ())) ∨
      ¬ setting.NothingPassed (world.memory.map Entry.metadata) texts entries.length ∧
        ∃ exc, world.addToHybrid setting client texts entries = (world.ensureCollection client,.error exc) := by
  rw [← points_planned,World.addToHybrid,ensureCollection_memory]
  cases setting.points (((setting.planned (world.memory.map Entry.metadata) texts).getD []).take entries.length) with
  | ok nothing => exact .inl ⟨rfl,rfl⟩
  | error exc => exact .inr ⟨(by intro same; cases same),exc,rfl⟩

-- An accepted add of at least one entry settles the size first.
def World.sized (world : World metric) (dimension : Nat) (contents : List (Entry metric)) : World metric :=
  {world with dimension := dimension,contents := contents}

theorem addHybrid_accepted (setting : Setting K) (client : Client) {vectors : List (List metric.Number)}
    {metadata : Option (List Metadata)} (passes : accepted world.dimension vectors metadata texts = .ok entries) (given : entries ≠ []) :
    ∃ dimension contents, world.addHybrid setting client vectors metadata texts =
        (if world.useQdrant then
          (world.sized dimension contents).addToHybrid setting client texts entries
        else ((world.sized dimension contents).addToMemory entries,.ok ())) := by
  rw [World.addHybrid,passes]
  cases entries with
  | nil => exact absurd rfl given
  | cons first rest => exact ⟨_,_,rfl⟩

theorem accepted_refusal {dimension : Nat} {vectors : List (List metric.Number)} {metadata : Option (List Metadata)}
    {exc : Failure} (refused : accepted dimension vectors metadata texts = .error exc) : exc.kind = .value := by
  unfold accepted at refused
  split at refused
  · cases refused
  · dsimp only at refused
    repeat' split at refused
    all_goals first
      | cases refused
        rfl
      | cases refused

-- Where the entries come to be, and the earlier ones with them.
theorem landed (used : world.useQdrant = true) (client : Client) (given : entries ≠ []) :
    (if client.upsert then
        if missing world client then if world.collection = none then entries else [] else held world ++ entries
      else entries) = held world ++ entries ↔
      if client.upsert then missing world client = false ∨ world.collection = none else held world = [] := by
  have before : world.collection = none → held world = [] := by
    intro none
    rw [held,used,none]
    rfl
  have alone : entries = held world ++ entries ↔ held world = [] := List.self_eq_append_left
  cases client.upsert with
  | false => exact alone
  | true =>
      simp only [if_true]
      cases missing world client with
      | false => exact iff_of_true rfl (.inl rfl)
      | true =>
          simp only [if_true,Bool.true_eq_false,false_or]
          by_cases none : world.collection = none
          · rw [if_pos none]
            exact iff_of_true (alone.mpr (before none)) none
          · rw [if_neg none]
            exact iff_of_false (fun same => given (List.append_eq_nil_iff.mp same.symm).2) none

theorem lands_atomic (placed : Placed world) (client : Client) (vectors : List (List metric.Number))
    (metadata : Option (List Metadata)) (texts : Option (List Text)) :
    AtomicTotal setting world client vectors metadata texts ↔ Lands setting world client vectors metadata texts := by
  have refusal : ∀ exc, accepted world.dimension vectors metadata texts = .error exc →
      exc.kind = .value ∧ world.addHybrid setting client vectors metadata texts = (world,.error exc) := by
    intro exc refused
    refine ⟨accepted_refusal refused,?_⟩
    rw [World.addHybrid,refused]
  cases passes : accepted world.dimension vectors metadata texts with
  | error exc =>
      refine iff_of_true ⟨?_,refusal⟩ ?_
      · intro entries also
        cases passes.symm.trans also
      · intro _ entries also
        cases passes.symm.trans also
  | ok entries =>
      by_cases given : entries = []
      · subst given
        refine iff_of_true ⟨?_,refusal⟩ ?_
        · intro entries also
          cases passes.symm.trans also
          rw [World.addHybrid,passes,List.append_nil]
          exact ⟨rfl,rfl⟩
        · intro _ entries also some
          cases passes.symm.trans also
          exact absurd rfl some
      · obtain ⟨dimension,contents,added⟩ := addHybrid_accepted setting client passes given
        have total : AtomicTotal setting world client vectors metadata texts ↔
            (world.addHybrid setting client vectors metadata texts).2 = .ok () ∧
              held (world.addHybrid setting client vectors metadata texts).1 = held world ++ entries := by
          refine ⟨fun atomic => atomic.total entries passes,fun both => ⟨?_,refusal⟩⟩
          intro other also
          cases passes.symm.trans also
          exact both
        rw [total,added]
        by_cases used : world.useQdrant = true
        · have sized : Placed (world.sized dimension contents) := ⟨placed.created,placed.unused⟩
          have only : Lands setting world client vectors metadata texts ↔
              setting.NothingPassed (world.memory.map Entry.metadata) texts entries.length ∧
                if client.upsert then missing world client = false ∨ world.collection = none else held world = [] := by
            refine ⟨fun lands => lands used entries passes given,fun both _ other also _ => ?_⟩
            cases passes.symm.trans also
            exact both
          rw [only,if_pos used]
          have either := addToHybrid_cases setting (world.sized dimension contents) client texts entries
          rcases either with ⟨built,done⟩ | ⟨broken,exc,failed⟩
          · rw [done,(addToQdrant_leaves sized used client entries).held]
            exact and_congr (iff_of_true rfl built) (landed used client given)
          · rw [failed]
            exact iff_of_false (fun both => by cases both.1) fun both => broken both.1
        · rw [if_neg used]
          refine iff_of_true ⟨rfl,?_⟩ fun on => absurd on used
          simp [held,World.addToMemory,World.sized,used]

end Adds

theorem stepHybrid_placed (world : World metric) (turn : Turn metric) (placed : Placed world) :
    Placed (world.stepHybrid setting turn) := by
  obtain ⟨call,client⟩ := turn
  cases call with
  | search queryVector topK filterMetadata => exact step_placed world ⟨.search queryVector topK filterMetadata,client⟩ placed
  | clear => exact step_placed world ⟨.clear,client⟩ placed
  | add vectors metadata texts =>
      change Placed (world.addHybrid setting client vectors metadata texts).1
      cases passes : accepted world.dimension vectors metadata texts with
      | error exc =>
          rw [World.addHybrid,passes]
          exact placed
      | ok entries =>
          by_cases given : entries = []
          · rw [World.addHybrid,passes,given]
            exact placed
          · obtain ⟨dimension,contents,added⟩ := addHybrid_accepted setting client passes given
            have sized : Placed (world.sized dimension contents) := ⟨placed.created,placed.unused⟩
            rw [added]
            by_cases used : world.useQdrant = true
            · rw [if_pos used]
              have either := addToHybrid_cases setting (world.sized dimension contents) client texts entries
              rcases either with ⟨_,done⟩ | ⟨_,exc,failed⟩
              · rw [done]
                exact (addToQdrant_leaves sized used client entries).placed
              · rw [failed]
                exact ensureCollection_placed sized used client
            · rw [if_neg used]
              exact ⟨fun on => absurd on used,fun on => absurd on used⟩

theorem add_atomic_exact (available existing : Bool) (turns : List (Turn metric)) (client : Client)
    (vectors : List (List metric.Number)) (metadata : Option (List Metadata)) (texts : Option (List Text)) :
    AtomicTotal setting (run (World.stepHybrid setting) (World.init available existing) turns) client vectors metadata texts ↔
      Lands setting (run (World.stepHybrid setting) (World.init available existing) turns) client vectors metadata texts := by
  apply lands_atomic
  have placed := throughout_invariant (fun world turn placed (_ : True) => stepHybrid_placed setting world turn placed)
    (World.init available existing : World metric) turns (init_placed available existing) (steps_forall (fun _ _ _ => trivial) _)
  exact throughout_end placed

end Hybrid

def hybridSetting : Setting ℚ where
  tables := ascii
  enableHybrid := true
  bm25 := ⟨true,fun _ => none,fun _ _ => none⟩
  log := fun _ => 1
  bareSparse := some ⟨.other "ValidationError".toList,"2 validation errors for SparseVector".toList⟩

theorem hybrid_add_raises : ¬ AtomicTotal hybridSetting (run (World.stepHybrid hybridSetting)
    (World.init true false : World plainMetric) []) working [[(1 : Nat)]] none (some [['a']]) := by
  intro atomic
  change AtomicTotal hybridSetting (World.init true false : World plainMetric) working [[(1 : Nat)]] none (some [['a']]) at atomic
  have planned : ∃ vector, hybridSetting.planned [] (some [['a']]) = some [vector] := ⟨_,rfl⟩
  obtain ⟨vector,made⟩ := planned
  have lands := (lands_atomic (init_placed true false) working _ none (some [['a']])).mp atomic
  have bare := ((lands rfl _ rfl (List.cons_ne_nil _ _)).1 [vector] made vector List.mem_cons_self).2
  cases bare

end Kryvaracode.Retrieval
