import Kryvaracode.MemoryGraph

namespace Kryvaracode.MemoryGraph
open InsertionDict Runs UnicodeText

variable (setting : Setting)

def listOf (memory : SovereignMemory Number) (tag : Text) : List Text := (memory.indexByTag.get tag).getD []

def mentions (memory : SovereignMemory Number) (first second : Text) : Nat :=
  ((memory.nodes.get first).map fun node => node.relatedNodes.count second).getD 0

-- An index lists the nodes of its tag as they were committed, each once; indexes and
-- links name nodes only; two nodes name each other equally often.
structure Consistent (memory : SovereignMemory setting.Number) : Prop where
  listed : ∀ tag id, id ∈ listOf memory tag ↔ ∃ node, memory.nodes.get id = some node ∧ tag ∈ node.tags
  once : ∀ tag, (listOf memory tag).Nodup
  ordered : ∀ tag, ∃ numbers : List Nat, numbers.Pairwise (· < ·) ∧ listOf memory tag = numbers.map setting.ids
  related : ∀ id node other, memory.nodes.get id = some node → other ∈ node.relatedNodes → (memory.nodes.get other).isSome
  symmetric : ∀ first second one two, memory.nodes.get first = some one → memory.nodes.get second = some two →
    one.relatedNodes.count second = two.relatedNodes.count first

-- The number under which an id was drawn tells its place.
structure Placed (memory : SovereignMemory setting.Number) : Prop where
  keyed : ∀ id node, memory.nodes.get id = some node → node.id = id ∧ ∃ number < memory.drawn, id = setting.ids number
  indexed : ∀ tag, listOf memory tag = ((List.range memory.drawn).filter fun number =>
    (memory.nodes.get (setting.ids number)).any fun node => node.tags.contains tag).map setting.ids
  related : ∀ id node other, memory.nodes.get id = some node → other ∈ node.relatedNodes → (memory.nodes.get other).isSome

structure Represented (memory : SovereignMemory setting.Number) : Prop extends Placed setting memory where
  symmetric : ∀ first second, mentions memory first second = mentions memory second first

theorem represented_consistent {memory : SovereignMemory setting.Number} (represented : Represented setting memory) :
    Consistent setting memory where
  listed tag id := by
    rw [represented.indexed,List.mem_map]
    refine ⟨?_,?_⟩
    · intro found
      obtain ⟨number,kept,rfl⟩ := found
      have held := (List.mem_filter.mp kept).2
      rw [Option.any_eq_true] at held
      obtain ⟨node,present,has⟩ := held
      exact ⟨node,present,by simpa using has⟩
    · intro found
      obtain ⟨node,present,has⟩ := found
      obtain ⟨_,number,below,rfl⟩ := represented.keyed id node present
      refine ⟨number,List.mem_filter.mpr ⟨List.mem_range.mpr below,?_⟩,rfl⟩
      rw [present]
      simpa using has
  once tag := by
    rw [represented.indexed]
    exact (List.nodup_range.filter _).map setting.ids_apart
  ordered tag := ⟨_,List.pairwise_lt_range.sublist List.filter_sublist,represented.indexed tag⟩
  related := represented.related
  symmetric first second one two held also := by
    have same := represented.symmetric first second
    unfold mentions at same
    rw [held,also] at same
    exact same

theorem init_represented : Represented setting SovereignMemory.init where
  keyed _ _ held := nomatch held
  indexed _ := rfl
  related _ _ _ held := nomatch held
  symmetric _ _ := rfl

theorem drawn_fresh {memory : SovereignMemory setting.Number} (represented : Represented setting memory) :
    memory.nodes.get (setting.ids memory.drawn) = none := by
  cases held : memory.nodes.get (setting.ids memory.drawn) with
  | none => rfl
  | some node =>
      obtain ⟨_,number,below,same⟩ := represented.keyed _ node held
      have equal := setting.ids_apart same
      omega

theorem tagged_get (id : Text) (index : Dict Text (List Text)) (tag other : Text) : ((tagged id index tag).get other).getD [] =
    if other = tag then (index.get other).getD [] ++ [id] else (index.get other).getD [] := by
  unfold tagged
  rw [get_set]
  by_cases same : other = tag
  · rw [if_pos same,if_pos same,same]
    rfl
  · rw [if_neg same,if_neg same]

theorem tagged_all (id : Text) (index : Dict Text (List Text)) {tags : List Text} (once : tags.Nodup) (other : Text) :
    ((tags.foldl (tagged id) index).get other).getD [] =
      if other ∈ tags then (index.get other).getD [] ++ [id] else (index.get other).getD [] := by
  induction tags generalizing index with
  | nil => rfl
  | cons tag rest ih =>
      rw [List.nodup_cons] at once
      rw [List.foldl_cons,ih (tagged id index tag) once.2,tagged_get]
      by_cases same : other = tag
      · rw [if_neg (same ▸ once.1),if_pos same,if_pos (by simp [same])]
      · by_cases later : other ∈ rest
        · rw [if_pos later,if_neg same,if_pos (List.mem_cons_of_mem tag later)]
        · rw [if_neg later,if_neg same,if_neg (by simp [same,later])]

section Store
variable {setting} {memory : SovereignMemory setting.Number} (tier category content : Text) (context : Context)
  (tags : List Text) (embedding : List setting.Number)

theorem store_get (other : Text) :
    (store setting memory (setting.ids memory.drawn) tier category content context tags embedding).nodes.get other =
      if other = setting.ids memory.drawn then
        some ⟨setting.ids memory.drawn,tier,category,content,context,walked setting tags,[],embedding,walked_once setting tags⟩
      else memory.nodes.get other := get_set _ _ _ _

variable (represented : Represented setting memory)
include represented

theorem store_mentions (first second : Text) :
    mentions (store setting memory (setting.ids memory.drawn) tier category content context tags embedding) first second =
      mentions memory first second := by
  unfold mentions
  rw [store_get]
  by_cases same : first = setting.ids memory.drawn
  · rw [if_pos same,same,drawn_fresh setting represented]
    rfl
  · rw [if_neg same]

theorem store_represented :
    Represented setting (store setting memory (setting.ids memory.drawn) tier category content context tags embedding) where
  keyed id node held := by
    rw [store_get] at held
    split at held
    next same =>
      cases held
      exact ⟨same.symm,memory.drawn,Nat.lt_succ_self _,same⟩
    next =>
      obtain ⟨named,number,below,same⟩ := represented.keyed id node held
      exact ⟨named,number,Nat.lt_succ_of_lt below,same⟩
  indexed tag := by
    have earlier : ∀ number ∈ List.range memory.drawn, setting.ids number ≠ setting.ids memory.drawn := by
      intro number below same
      have equal := setting.ids_apart same
      rw [List.mem_range] at below
      omega
    have before : listOf memory tag = _ := represented.indexed tag
    change (((walked setting tags).foldl (tagged _) memory.indexByTag).get tag).getD [] = List.map setting.ids
      ((List.range (memory.drawn + 1)).filter _)
    rw [tagged_all _ _ (walked_once setting tags),List.range_succ,List.filter_append,List.map_append,← listOf,before]
    have kept : (List.range memory.drawn).filter (fun number =>
        ((store setting memory (setting.ids memory.drawn) tier category content context tags embedding).nodes.get
          (setting.ids number)).any fun node => node.tags.contains tag) =
        (List.range memory.drawn).filter fun number =>
          (memory.nodes.get (setting.ids number)).any fun node => node.tags.contains tag := by
      refine List.filter_congr ?_
      intro number below
      rw [store_get,if_neg (earlier number below)]
    rw [kept,List.filter_singleton,store_get,if_pos rfl]
    by_cases has : tag ∈ walked setting tags
    · simp [has]
    · simp [has]
  related id node other held named := by
    rw [store_get] at held ⊢
    split at held
    next =>
      cases held
      cases named
    next =>
      have present := represented.related id node other held named
      split
      next => rfl
      next => exact present
  symmetric first second := by
    rw [store_mentions _ _ _ _ _ _ represented,store_mentions _ _ _ _ _ _ represented]
    exact represented.symmetric first second

omit tier category content context tags embedding in
theorem skip_represented : Represented setting {memory with drawn := memory.drawn + 1} where
  keyed id node held := by
    obtain ⟨named,number,below,same⟩ := represented.keyed id node held
    exact ⟨named,number,Nat.lt_succ_of_lt below,same⟩
  indexed tag := by
    have before : listOf memory tag = _ := represented.indexed tag
    change listOf memory tag = List.map setting.ids ((List.range (memory.drawn + 1)).filter _)
    rw [before,List.range_succ,List.filter_append,List.filter_singleton]
    dsimp only
    rw [drawn_fresh setting represented]
    simp
  related := represented.related
  symmetric := represented.symmetric
end Store

section Links
variable {setting} {memory : SovereignMemory setting.Number}

theorem relate_get (id other asked : Text) : (relate setting memory id other).nodes.get asked =
    if asked = id then (memory.nodes.get id).map fun node => {node with relatedNodes := node.relatedNodes ++ [other]}
    else memory.nodes.get asked := by
  unfold relate
  cases held : memory.nodes.get id with
  | none =>
      dsimp only
      split
      next same => rw [same,held]; rfl
      next => rfl
  | some node => exact get_set _ _ _ _

theorem relate_list (id other tag : Text) : listOf (relate setting memory id other) tag = listOf memory tag := by
  unfold relate
  cases memory.nodes.get id <;> rfl

theorem relate_drawn (id other : Text) : (relate setting memory id other).drawn = memory.drawn := by
  unfold relate
  cases memory.nodes.get id <;> rfl

theorem relate_present (id other asked : Text) :
    ((relate setting memory id other).nodes.get asked).isSome = (memory.nodes.get asked).isSome := by
  rw [relate_get]
  split
  next same => rw [same,Option.isSome_map]
  next => rfl

theorem relate_mentions (id other first second : Text) : mentions (relate setting memory id other) first second =
    mentions memory first second + if (memory.nodes.get id).isSome ∧ first = id ∧ second = other then 1 else 0 := by
  unfold mentions
  rw [relate_get]
  by_cases same : first = id
  · subst same
    rw [if_pos rfl]
    cases held : memory.nodes.get first with
    | none => rfl
    | some node =>
        simp only [Option.map_some,Option.getD_some,List.count_append,List.count_singleton,Option.isSome_some,true_and]
        by_cases named : second = other
        · rw [if_pos named,if_pos (beq_iff_eq.mpr named.symm)]
        · rw [if_neg named,if_neg (by simpa using Ne.symm named)]
  · rw [if_neg same,if_neg (fun parts => same parts.2.1),Nat.add_zero]

-- All of a node but its links, and what an index says, stay as they are.
theorem relate_placed {id other : Text} (placed : Placed setting memory) (present : (memory.nodes.get other).isSome) :
    Placed setting (relate setting memory id other) where
  keyed asked node held := by
    rw [relate_get] at held
    rw [relate_drawn]
    split at held
    next same =>
      rw [Option.map_eq_some_iff] at held
      obtain ⟨before,kept,rfl⟩ := held
      exact same ▸ placed.keyed id before kept
    next => exact placed.keyed asked node held
  indexed tag := by
    rw [relate_list,relate_drawn,placed.indexed]
    congr 1
    refine List.filter_congr ?_
    intro number _
    rw [relate_get]
    split
    next same => rw [same,Option.any_map]
    next => rfl
  related asked node named held inside := by
    rw [relate_present]
    rw [relate_get] at held
    split at held
    next same =>
      rw [Option.map_eq_some_iff] at held
      obtain ⟨before,kept,rfl⟩ := held
      rcases List.mem_append.mp inside with earlier | last
      · exact placed.related id before named kept earlier
      · rw [List.mem_singleton.mp last]
        exact present
    next => exact placed.related asked node named held inside

theorem link_represented (represented : Represented setting memory) (first second : Text) :
    Represented setting (linkNodes setting memory first second) := by
  unfold linkNodes
  split
  next both =>
    rw [Bool.and_eq_true] at both
    have once : Placed setting (relate setting memory first second) := relate_placed represented.toPlaced both.2
    have twice : Placed setting (relate setting (relate setting memory first second) second first) :=
      relate_placed once ((relate_present first second first).trans both.1)
    refine ⟨twice,?_⟩
    intro one two
    rw [relate_mentions,relate_mentions,relate_mentions,relate_mentions,relate_present,both.1,both.2,
      represented.symmetric one two]
    simp only [true_and,and_comm (a := one = first),and_comm (a := one = second)]
    ac_rfl
  next => exact represented
end Links

section Operations
variable {setting} {memory : SovereignMemory setting.Number}

theorem commit_represented (represented : Represented setting memory) (tier category content : Text) (context : Context)
    (tags : Option (List Text)) (embedding : Option (List setting.Number)) :
    Represented setting (commit setting memory tier category content context tags embedding).1 := by
  unfold commit
  split
  next => exact skip_represented represented
  next => exact store_represented tier category content context (tags.getD []) _ represented

-- However far it comes, each line is a commit or nothing.
theorem lines_represented (sources : List Text) (represented : Represented setting memory) (distilled lines : List Text) :
    Represented setting (distillLines setting sources memory distilled lines).1 := by
  induction lines generalizing memory distilled with
  | nil => exact represented
  | cons line rest ih =>
      unfold distillLines
      split
      next => exact ih represented distilled
      next rule _ =>
        have after := commit_represented represented semantic distilledRule rule.content (.sourceTraces sources) (some rule.tags) none
        split
        next raised => rw [raised] at after; exact after
        next stored => rw [stored] at after; exact ih after _

theorem distill_represented (represented : Represented setting memory) (episodicNodeIds : List Text)
    (synthesizeLesson : Text → Result Text) :
    Represented setting (distillLessons setting memory episodicNodeIds synthesizeLesson).1 := by
  unfold distillLessons
  split
  · exact represented
  · split
    · exact represented
    next response _ =>
      have after := lines_represented episodicNodeIds represented [] (response.splitOn '\n')
      split
      next raised => rw [raised] at after; exact after
      next finished => rw [finished] at after; exact after

theorem step_represented (represented : Represented setting memory) (operation : Operation setting) :
    Represented setting (step setting memory operation) := by
  cases operation with
  | commit tier category content context tags embedding =>
      exact commit_represented represented tier category content context tags embedding
  | commitLesson category content context tags =>
      exact commit_represented represented semantic category content context tags none
  | linkNodes first second => exact link_represented represented first second
  | query queryText tier tags limit => exact represented
  | distillLessons episodicNodeIds synthesizeLesson => exact distill_represented represented episodicNodeIds synthesizeLesson
end Operations

theorem memory_consistent (operations : List (Operation setting)) :
    Throughout (step setting) (Consistent setting) SovereignMemory.init operations := by
  have always := throughout_invariant (P := Represented setting)
    (fun _ operation represented (_ : True) => step_represented represented operation) _ operations (init_represented setting)
    (steps_forall (fun _ _ _ => trivial) _)
  exact fun front early => represented_consistent setting (always front early)

end Kryvaracode.MemoryGraph
