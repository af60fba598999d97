import Kryvaracode.LearnedRules

namespace Kryvaracode.MemoryGraph
open InsertionDict Runs

-- Scores by which any two nodes can be ranked.
structure Ordering extends Setting where
  transitive : ∀ a b c, atLeast a b = true → atLeast b c = true → atLeast a c = true
  total : ∀ a b, (atLeast a b || atLeast b a) = true

def matching (memory : SovereignMemory Number) (tier : Option Text) (tags : Option (List Text)) : List (MemoryNode Number) :=
  memory.nodes.values.filter fun node => (!truthy tier || decide (some node.tier = tier)) &&
    ((tags.getD []).isEmpty || (tags.getD []).any node.tags.contains)

-- The best of all the nodes that match, as many as the limit lets through.
structure BestNodes (setting : Setting) (rating : MemoryNode setting.Number → setting.Score)
    (matched : List (MemoryNode setting.Number)) (limit : Nat)
    (nodes : List (MemoryNode setting.Number)) : Prop where
  distinct : (nodes.map MemoryNode.id).Nodup
  inside : ∀ node ∈ nodes, node ∈ matched
  length : nodes.length = min limit matched.length
  ordered : nodes.Pairwise fun first second => setting.atLeast (rating first) (rating second) = true
  omitted : ∀ kept ∈ nodes, ∀ left ∈ matched, left ∉ nodes → setting.atLeast (rating kept) (rating left) = true

-- A query returns the best of the nodes by the scores it gives them.
def ReturnsBest (setting : Setting) (memory : SovereignMemory setting.Number) (queryText : Text) (tier : Option Text)
    (tags : Option (List Text)) (limit : Nat) : Prop :=
  ∃ vector rating nodes, setting.encode memory.drawn queryText = .ok vector ∧
    (∀ node ∈ matching memory tier tags, scored setting queryText vector node = .ok (rating node,node)) ∧
      query setting memory queryText tier tags limit = .ok nodes ∧
        BestNodes setting rating (matching memory tier tags) limit nodes

-- The provider answers what the query asks it.
def Answered (setting : Setting) (memory : SovereignMemory setting.Number) (queryText : Text) (tier : Option Text)
    (tags : Option (List Text)) : Prop :=
  ∃ vector, setting.encode memory.drawn queryText = .ok vector ∧ ∀ node ∈ matching memory tier tags,
    vector ≠ [] → node.embedding ≠ [] → ∃ score, setting.similarity vector node.embedding = .ok score

section Unseen
variable {α : Type}

theorem unseen_extends (found : List (MemoryNode α)) (node : MemoryNode α) : found <+: keepUnseen found node ∧
    (keepUnseen found node).length ≤ found.length + 1 ∧ (keepUnseen found node).Sublist (found ++ [node]) := by
  unfold keepUnseen
  split
  · exact ⟨List.prefix_refl found,Nat.le_succ _,List.sublist_append_left found [node]⟩
  · exact ⟨List.prefix_append found [node],(List.length_append).le,List.Sublist.refl _⟩

theorem kept_extends (found rest : List (MemoryNode α)) : found <+: rest.foldl keepUnseen found := by
  induction rest generalizing found with
  | nil => exact List.prefix_refl found
  | cons node rest ih => exact (unseen_extends found node).1.trans (ih (keepUnseen found node))

-- Up to the limit the loop keeps each node that is new.
theorem seen_limited {limit : Int} (found rest : List (MemoryNode α)) (below : found.length < limit) :
    firstSeen limit found rest = (rest.foldl keepUnseen found).take limit.toNat := by
  induction rest generalizing found with
  | nil =>
      apply Eq.symm
      apply List.take_of_length_le
      rw [List.foldl_nil]
      omega
  | cons node rest ih =>
      have grows := (unseen_extends found node).2.1
      unfold firstSeen
      split
      next full =>
        obtain ⟨more,whole⟩ := kept_extends (keepUnseen found node) rest
        rw [List.foldl_cons,← whole,List.take_left' (by omega)]
      next room =>
        rw [List.foldl_cons]
        exact ih (keepUnseen found node) (by omega)

theorem kept_sublist (found rest : List (MemoryNode α)) : (rest.foldl keepUnseen found).Sublist (found ++ rest) := by
  induction rest generalizing found with
  | nil => exact List.sublist_append_left found []
  | cons node rest ih =>
      rw [List.foldl_cons,List.append_cons]
      exact (ih (keepUnseen found node)).trans ((unseen_extends found node).2.2.append_right rest)

theorem kept_once (found rest : List (MemoryNode α)) (once : (found.map MemoryNode.id).Nodup) :
    ((rest.foldl keepUnseen found).map MemoryNode.id).Nodup := by
  induction rest generalizing found with
  | nil => exact once
  | cons node rest ih => exact ih (keepUnseen found node) (unseen_once once node)

theorem kept_ids (found rest : List (MemoryNode α)) :
    ∀ node ∈ rest, node.id ∈ (rest.foldl keepUnseen found).map MemoryNode.id := by
  induction rest generalizing found with
  | nil => exact fun node none => nomatch none
  | cons first rest ih =>
      intro node listed
      rcases List.mem_cons.mp listed with rfl | later
      · exact (((kept_extends (keepUnseen found node) rest).sublist.map MemoryNode.id).subset (unseen_members found node).2.1)
      · exact ih (keepUnseen found first) node later

end Unseen

section Ratings
variable (setting : Setting) (queryText : Text) (vector : List setting.Number) (node : MemoryNode setting.Number)

def rating : setting.Score := ((scored setting queryText vector node).toOption.map Prod.fst).getD setting.zero

theorem scored_exact (value : setting.Score × MemoryNode setting.Number) : scored setting queryText vector node = .ok value ↔
    (vector ≠ [] → node.embedding ≠ [] → ∃ score, setting.similarity vector node.embedding = .ok score) ∧
      value = (rating setting queryText vector node,node) := by
  unfold rating scored
  by_cases unasked : vector = [] ∨ node.embedding = []
  · simp only [unasked,if_true]
    rw [and_iff_right (fun some_there both => absurd unasked (not_or.mpr ⟨some_there,both⟩))]
    simp only [Except.map,Except.toOption,Option.map_some,Option.getD_some,Except.ok.injEq]
    exact eq_comm
  · simp only [unasked,if_false]
    rw [not_or] at unasked
    cases answer : setting.similarity vector node.embedding with
    | error exc => simp [unasked,Except.map]
    | ok score =>
        simp only [Except.map,Except.toOption,Option.map_some,Option.getD_some,Except.ok.injEq]
        exact ⟨fun same => ⟨fun _ _ => ⟨score,rfl⟩,same.symm⟩,fun both => both.2.symm⟩

end Ratings

section Sorting
variable (setting : Ordering) (score : MemoryNode setting.Number → setting.Score) (nodes : List (MemoryNode setting.Number))

def bestFirst : List (MemoryNode setting.Number) :=
  ((nodes.map fun node => (score node,node)).mergeSort fun first second => setting.atLeast first.1 second.1).map Prod.snd

theorem mem_best (node : MemoryNode setting.Number) : node ∈ bestFirst setting score nodes ↔ node ∈ nodes := by
  unfold bestFirst
  rw [List.mem_map]
  refine ⟨?_,?_⟩
  · intro found
    obtain ⟨pair,inside,rfl⟩ := found
    obtain ⟨other,listed,rfl⟩ := List.mem_map.mp (List.mem_mergeSort.mp inside)
    exact listed
  · intro listed
    exact ⟨(score node,node),List.mem_mergeSort.mpr (List.mem_map_of_mem listed),rfl⟩

theorem best_sorted_nodes : (bestFirst setting score nodes).Pairwise fun first second =>
    setting.atLeast (score first) (score second) = true := by
  unfold bestFirst
  rw [List.pairwise_map]
  apply List.Pairwise.imp_of_mem ?_ (List.pairwise_mergeSort (fun a b c => setting.transitive a.1 b.1 c.1)
    (fun a b => setting.total a.1 b.1) _)
  intro first second one two before
  obtain ⟨_,_,rfl⟩ := List.mem_map.mp (List.mem_mergeSort.mp one)
  obtain ⟨_,_,rfl⟩ := List.mem_map.mp (List.mem_mergeSort.mp two)
  exact before

end Sorting

section Queries
variable (setting : Ordering) {memory : SovereignMemory setting.Number} (represented : Represented setting.toSetting memory)
  (tier : Option Text) (tags : Option (List Text))

theorem matching_exact (node : MemoryNode setting.Number) : node ∈ matching memory tier tags ↔
    node ∈ memory.nodes.values ∧ (truthy tier = true → some node.tier = tier) ∧
      (tags.getD [] = [] ∨ ∃ tag ∈ tags.getD [], tag ∈ node.tags) := by
  rw [matching,List.mem_filter]
  apply and_congr_right
  intro _
  rw [Bool.and_eq_true]
  apply and_congr
  · cases truthy tier <;> simp
  · simp [List.any_eq_true]

include represented

theorem matching_once : ((matching memory tier tags).map MemoryNode.id).Nodup :=
  (values_once setting.toSetting represented).sublist (List.filter_sublist.map _)

-- What a query sorts are the nodes that match, some of them more than once.
theorem query_exact (queryText : Text) (limit : Int) : ∃ inTier : List (MemoryNode setting.Number),
    (∀ node, node ∈ inTier ↔ node ∈ matching memory tier tags) ∧ ∀ nodes,
      query setting.toSetting memory queryText tier tags limit = .ok nodes ↔ ∃ vector,
        setting.encode memory.drawn queryText = .ok vector ∧
          (∀ node ∈ inTier, vector ≠ [] → node.embedding ≠ [] → ∃ score, setting.similarity vector node.embedding = .ok score) ∧
            nodes = firstSeen limit [] (bestFirst setting (rating setting.toSetting queryText vector) inTier) := by
  obtain ⟨chosen,found,members⟩ := candidates_found setting.toSetting represented tags
  refine ⟨if truthy tier then chosen.filter fun node => decide (some node.tier = tier) else chosen,?_,?_⟩
  · intro node
    rw [matching_exact,values_members setting.toSetting represented]
    cases truthy tier with
    | false =>
        rw [if_neg Bool.false_ne_true,members]
        simp
    | true =>
        rw [if_pos rfl,List.mem_filter,members,decide_eq_true_eq,and_assoc,forall_prop_of_true rfl]
        exact and_congr_right fun _ => and_comm
  · intro nodes
    unfold query
    rw [found]
    change (setting.encode memory.drawn queryText >>= _) = _ ↔ _
    rw [bind_ok]
    apply exists_congr
    intro vector
    apply and_congr_right
    intro _
    rw [bind_ok]
    simp only [mapM_exact (scored_exact setting.toSetting queryText vector)]
    refine ⟨?_,?_⟩
    · intro read
      obtain ⟨results,⟨answers,rfl⟩,same⟩ := read
      exact ⟨answers,(Except.ok.inj same).symm⟩
    · intro read
      obtain ⟨answers,rfl⟩ := read
      exact ⟨_,⟨answers,rfl⟩,rfl⟩

-- Each of the nodes that match is kept once, in the order of the sort.
theorem kept_matching {ranked : List (MemoryNode setting.Number)}
    (members : ∀ node, node ∈ ranked ↔ node ∈ matching memory tier tags) :
    (ranked.foldl keepUnseen []).Perm (matching memory tier tags) := by
  have inside := (kept_sublist [] ranked).subset
  have once := kept_once [] ranked .nil
  have whole := matching_once setting represented tier tags
  apply (List.perm_ext_iff_of_nodup (.of_map _ once) (.of_map _ whole)).mpr
  intro node
  refine ⟨fun kept => (members node).mp (inside kept),?_⟩
  intro matched
  obtain ⟨other,kept,same⟩ := List.mem_map.mp (kept_ids [] ranked node ((members node).mpr matched))
  exact (List.inj_on_of_nodup_map whole ((members other).mp (inside kept)) matched same) ▸ kept

theorem kept_best {ranked : List (MemoryNode setting.Number)} (score : MemoryNode setting.Number → setting.Score)
    (members : ∀ node, node ∈ ranked ↔ node ∈ matching memory tier tags)
    (sorted : ranked.Pairwise fun first second => setting.atLeast (score first) (score second) = true) (limit : Nat) :
    BestNodes setting.toSetting score (matching memory tier tags) limit ((ranked.foldl keepUnseen []).take limit) := by
  have all := kept_matching setting represented tier tags members
  have ordered := sorted.sublist (kept_sublist [] ranked)
  have cut := List.take_sublist limit (ranked.foldl keepUnseen [])
  refine ⟨(kept_once [] ranked .nil).sublist (cut.map _),fun node kept => all.mem_iff.mp (cut.subset kept),?_,
    ordered.sublist cut,?_⟩
  · rw [List.length_take,all.length_eq]
  · intro kept inside left matched outside
    have split := List.take_append_drop limit (ranked.foldl keepUnseen [])
    have later := all.mem_iff.mpr matched
    rw [← split,List.pairwise_append] at ordered
    rw [← split,List.mem_append] at later
    exact ordered.2.2 kept inside left (later.resolve_left outside)

theorem query_best (queryText : Text) (limit : Nat) : ReturnsBest setting.toSetting memory queryText tier tags limit ↔
    Answered setting.toSetting memory queryText tier tags ∧ (1 ≤ limit ∨ matching memory tier tags = []) := by
  obtain ⟨inTier,members,exact_⟩ := query_exact setting represented tier tags queryText limit
  refine ⟨?_,?_⟩
  · intro best
    obtain ⟨_,_,nodes,_,_,asked,best⟩ := best
    obtain ⟨vector,encoded,answers,same⟩ := (exact_ nodes).mp asked
    refine ⟨⟨vector,encoded,fun node matched => answers node ((members node).mpr matched)⟩,?_⟩
    by_contra neither
    obtain ⟨none_allowed,some_match⟩ := not_or.mp neither
    obtain ⟨first,matched⟩ := List.exists_mem_of_ne_nil _ some_match
    have ranked : first ∈ bestFirst setting (rating setting.toSetting queryText vector) inTier :=
      (mem_best setting _ inTier first).mpr ((members first).mpr matched)
    have none_left := best.length
    rw [same] at none_left
    -- The first node is kept before the limit is looked at.
    cases sorted : bestFirst setting (rating setting.toSetting queryText vector) inTier with
    | nil => rw [sorted] at ranked; cases ranked
    | cons head tail =>
        rw [sorted,firstSeen,if_pos (by simp [keepUnseen]; omega)] at none_left
        have one : (keepUnseen [] head).length = 1 := rfl
        omega
  · intro both
    obtain ⟨⟨vector,encoded,answers⟩,room⟩ := both
    have answered : ∀ node ∈ inTier, _ := fun node listed => answers node ((members node).mp listed)
    refine ⟨vector,rating setting.toSetting queryText vector,_,encoded,?_,(exact_ _).mpr ⟨vector,encoded,answered,rfl⟩,?_⟩
    · intro node matched
      exact (scored_exact setting.toSetting queryText vector node _).mpr ⟨answers node matched,rfl⟩
    · have same : firstSeen limit [] (bestFirst setting (rating setting.toSetting queryText vector) inTier) =
          ((bestFirst setting (rating setting.toSetting queryText vector) inTier).foldl keepUnseen []).take limit := by
        rcases room with some_allowed | no_match
        · exact seen_limited [] _ (by rw [List.length_nil]; omega)
        · have none_ranked : bestFirst setting (rating setting.toSetting queryText vector) inTier = [] := by
            apply List.eq_nil_iff_forall_not_mem.mpr
            intro node listed
            have matched := (members node).mp ((mem_best setting _ inTier node).mp listed)
            rw [no_match] at matched
            cases matched
          rw [none_ranked]
          exact List.take_nil.symm
      rw [same]
      exact kept_best setting represented tier tags _ (fun node => (mem_best setting _ inTier node).trans (members node))
        (best_sorted_nodes setting _ inTier) limit

end Queries

theorem run_represented (setting : Setting) (operations : List (Operation setting)) :
    Represented setting (run (step setting) SovereignMemory.init operations) :=
  throughout_end (throughout_invariant (P := Represented setting)
    (fun _ operation represented (_ : True) => step_represented represented operation) _ operations (init_represented setting)
    (steps_forall (fun _ _ _ => trivial) _))

theorem memory_query_exact (setting : Ordering) (operations : List (Operation setting.toSetting)) (queryText : Text)
    (tier : Option Text) (tags : Option (List Text)) (limit : Nat) :
    ReturnsBest setting.toSetting (run (step setting.toSetting) SovereignMemory.init operations) queryText tier tags limit ↔
      Answered setting.toSetting (run (step setting.toSetting) SovereignMemory.init operations) queryText tier tags ∧
        (1 ≤ limit ∨ matching (run (step setting.toSetting) SovereignMemory.init operations) tier tags = []) :=
  query_best setting (run_represented setting.toSetting operations) tier tags queryText limit

-- With no room at all a query still returns the first node.
theorem node_over_the_limit : ¬ ReturnsBest structural.toSetting (run (step structural.toSetting) SovereignMemory.init
    [.commitLesson ['c'] ['x'] (.given []) none]) ['x'] none none 0 := by
  intro best
  obtain ⟨_,_,nodes,_,_,asked,best⟩ := best
  have one : nodes.length = 1 := by
    cases asked
    rw [List.reverse_singleton,List.mergeSort_singleton]
    rfl
  have none_left := best.length
  omega

end Kryvaracode.MemoryGraph
