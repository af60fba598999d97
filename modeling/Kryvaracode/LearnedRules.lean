import Kryvaracode.MemoryInvariant

namespace Kryvaracode.MemoryGraph
open InsertionDict Runs

-- A setting whose provider answers.
structure Answering extends Setting where
  encodes : ∀ number text, ∃ vector, encode number text = .ok vector
  compares : ∀ first second, ∃ score, similarity first second = .ok score

-- Memory and the nodes that `distill_lessons` has committed to it.
structure World (setting : Setting) where
  memory : SovereignMemory setting.Number
  distilled : List Text

def World.init (setting : Setting) : World setting := ⟨SovereignMemory.init,[]⟩

def World.step (setting : Setting) (world : World setting) : Operation setting → World setting
  | .distillLessons episodicNodeIds synthesizeLesson =>
      let after := distillLessons setting world.memory episodicNodeIds synthesizeLesson
      ⟨after.1,world.distilled ++ after.2⟩
  | operation => {world with memory := MemoryGraph.step setting world.memory operation}

def semanticNodes (memory : SovereignMemory Number) : List (MemoryNode Number) :=
  memory.nodes.values.filter fun node => decide (node.tier = semantic)

-- What comes back was distilled, and with room for all semantic nodes every rule does.
def RulesComeBack (setting : Setting) (world : World setting) : Prop :=
  ∀ queryText (limit : Int), ∃ nodes,
    query setting world.memory queryText (some semantic) (some [distilledRule]) limit = .ok nodes ∧
    getDistilledLessons setting world.memory queryText limit = .ok (nodes.map MemoryNode.content) ∧
    (∀ node ∈ nodes, node.id ∈ world.distilled) ∧
    ((semanticNodes world.memory).length ≤ limit → ∀ id ∈ world.distilled, ∃ node ∈ nodes, node.id = id)

-- The rules that an answer of the synthesizer has.
def rules (response : Text) : List Rule := (response.splitOn '\n').filterMap rule

-- Every rule carries the tag that the lookup asks for, and no other semantic node does.
def KeepsRules (setting : Setting) (world : World setting) : Operation setting → Prop
  | .commit tier _ _ _ tags _ => tier = semantic → distilledRule ∉ tags.getD []
  | .commitLesson _ _ _ tags => distilledRule ∉ tags.getD []
  | .linkNodes _ _ | .query _ _ _ _ => True
  | .distillLessons episodicNodeIds synthesizeLesson => episodicNodeIds ≠ [] → ∀ response,
      synthesizeLesson (prompt setting world.memory episodicNodeIds) = .ok response →
        ∀ rule ∈ rules response, distilledRule ∈ rule.tags

theorem mapM_members {f : α → Result β} {items : List α} (total : ∀ item ∈ items, ∃ value, f item = .ok value) :
    ∃ values, items.mapM f = .ok values ∧ ∀ value, value ∈ values ↔ ∃ item ∈ items, f item = .ok value := by
  induction items with
  | nil => exact ⟨[],rfl,by simp⟩
  | cons item rest ih =>
      rw [List.forall_mem_cons] at total
      obtain ⟨value,first⟩ := total.1
      obtain ⟨values,later,members⟩ := ih total.2
      refine ⟨value :: values,by simp [List.mapM_cons,first,later,bind,Except.bind,pure,Except.pure],?_⟩
      intro other
      rw [List.mem_cons,members,List.exists_mem_cons_iff,first,Except.ok.injEq,eq_comm]

section Seen
variable {α : Type}

theorem seen_exact (found : List (MemoryNode α)) (node : MemoryNode α) :
    (found.any fun kept => decide (kept.id = node.id)) = true ↔ node.id ∈ found.map MemoryNode.id := by
  simp [List.mem_map]

theorem unseen_members (found : List (MemoryNode α)) (node : MemoryNode α) :
    (∀ other ∈ found, other ∈ keepUnseen found node) ∧ node.id ∈ (keepUnseen found node).map MemoryNode.id ∧
      ∀ other ∈ keepUnseen found node, other ∈ found ∨ other = node := by
  unfold keepUnseen
  by_cases known : node.id ∈ found.map MemoryNode.id
  · rw [if_pos ((seen_exact found node).mpr known)]
    exact ⟨fun _ => id,known,fun _ => .inl⟩
  · rw [if_neg ((seen_exact found node).not.mpr known)]
    exact ⟨fun _ => List.mem_append_left _,by simp,by simp⟩

theorem unseen_once {found : List (MemoryNode α)} (once : (found.map MemoryNode.id).Nodup) (node : MemoryNode α) :
    ((keepUnseen found node).map MemoryNode.id).Nodup := by
  unfold keepUnseen
  split
  next => exact once
  next unknown =>
    rw [List.map_append,List.map_singleton,List.nodup_append]
    refine ⟨once,List.nodup_singleton _,?_⟩
    intro id listed other last equal
    rw [List.mem_singleton.mp last] at equal
    exact unknown ((seen_exact found node).mpr (equal ▸ listed))

theorem seen_subset (limit : Int) (found rest : List (MemoryNode α)) :
    ∀ node ∈ firstSeen limit found rest, node ∈ found ∨ node ∈ rest := by
  induction rest generalizing found with
  | nil => exact fun node listed => .inl listed
  | cons first rest ih =>
      have only := (unseen_members found first).2.2
      intro node listed
      unfold firstSeen at listed
      split at listed
      · exact (only node listed).imp_right fun (same : node = first) => same ▸ List.mem_cons_self
      · rcases ih _ node listed with earlier | later
        · exact (only node earlier).imp_right fun (same : node = first) => same ▸ List.mem_cons_self
        · exact .inr (List.mem_cons_of_mem first later)

-- With room for all the ids there are, none is left out.
theorem seen_all {limit : Int} {whole : List Text} (room : whole.length ≤ limit) (found rest : List (MemoryNode α))
    (once : (found.map MemoryNode.id).Nodup) (inside : ∀ node ∈ found ++ rest, node.id ∈ whole) :
    ∀ node ∈ found ++ rest, node.id ∈ (firstSeen limit found rest).map MemoryNode.id := by
  induction rest generalizing found with
  | nil =>
      intro node listed
      rw [List.append_nil] at listed
      exact List.mem_map_of_mem listed
  | cons first rest ih =>
      obtain ⟨kept,has,only⟩ := unseen_members found first
      have distinct := unseen_once once first
      have within : ∀ node ∈ keepUnseen found first ++ rest, node.id ∈ whole := by
        intro node listed
        refine inside node ?_
        rcases List.mem_append.mp listed with earlier | later
        · rcases only node earlier with before | equal
          · exact List.mem_append_left _ before
          · exact equal ▸ List.mem_append_right _ List.mem_cons_self
        · exact List.mem_append_right _ (List.mem_cons_of_mem first later)
      unfold firstSeen
      split
      next full =>
        have bound : whole.length ≤ ((keepUnseen found first).map MemoryNode.id).length := by
          rw [List.length_map]
          omega
        have allowed : (keepUnseen found first).map MemoryNode.id ⊆ whole := by
          intro id listed
          obtain ⟨node,there,rfl⟩ := List.mem_map.mp listed
          exact within node (List.mem_append_left _ there)
        have all := (List.subperm_of_subset distinct allowed).perm_of_length_le bound
        exact fun node listed => all.mem_iff.mpr (inside node listed)
      next =>
        have later := ih _ distinct within
        intro node listed
        rcases List.mem_append.mp listed with earlier | last
        · exact later node (List.mem_append_left _ (kept node earlier))
        · rcases List.mem_cons.mp last with rfl | after
          · obtain ⟨other,there,its⟩ := List.mem_map.mp has
            exact its ▸ later other (List.mem_append_left _ there)
          · exact later node (List.mem_append_right _ after)
end Seen

section Candidates
variable (setting : Setting) {memory : SovereignMemory setting.Number}

theorem node_found {id : Text} {node : MemoryNode setting.Number} : nodeOf setting memory id = .ok node ↔
    memory.nodes.get id = some node := by
  unfold nodeOf
  cases memory.nodes.get id <;> simp

variable (represented : Represented setting memory)
include represented

theorem values_members (node : MemoryNode setting.Number) :
    node ∈ memory.nodes.values ↔ memory.nodes.get node.id = some node := by
  rw [mem_values]
  refine ⟨?_,fun held => ⟨node.id,held⟩⟩
  intro found
  obtain ⟨key,held⟩ := found
  rw [(represented.keyed key node held).1]
  exact held

theorem values_once : (memory.nodes.values.map MemoryNode.id).Nodup := by
  have keyed : ∀ entry ∈ memory.nodes.entries, entry.2.id = entry.1 := by
    intro entry listed
    exact (represented.keyed entry.1 entry.2 ((mem_entries memory.nodes entry.1 entry.2).mp listed)).1
  have keys : memory.nodes.values.map MemoryNode.id = memory.nodes.entries.map Prod.fst := by
    rw [Dict.values,List.map_map]
    exact List.map_congr_left keyed
  exact keys ▸ memory.nodes.distinct

-- The nodes listed under the tags are read without a KeyError.
theorem candidates_found (tags : Option (List Text)) : ∃ nodes, candidates setting memory tags = .ok nodes ∧
    ∀ node, node ∈ nodes ↔ memory.nodes.get node.id = some node ∧ (tags.getD [] = [] ∨ ∃ tag ∈ tags.getD [], tag ∈ node.tags) := by
  rcases tags with _ | _ | ⟨tag,rest⟩
  · exact ⟨_,rfl,fun node => (values_members setting represented node).trans (by simp)⟩
  · exact ⟨_,rfl,fun node => (values_members setting represented node).trans (by simp)⟩
  · have consistent := represented_consistent setting represented
    have total : ∀ id ∈ (tag :: rest).flatMap (listOf memory), ∃ node, nodeOf setting memory id = .ok node := by
      intro id listed
      obtain ⟨other,_,under⟩ := List.mem_flatMap.mp listed
      obtain ⟨node,held,_⟩ := (consistent.listed other id).mp under
      exact ⟨node,(node_found setting).mpr held⟩
    obtain ⟨nodes,same,members⟩ := mapM_members total
    refine ⟨nodes,same,?_⟩
    intro node
    rw [members]
    refine ⟨?_,?_⟩
    · intro found
      obtain ⟨id,listed,read⟩ := found
      rw [node_found setting] at read
      obtain ⟨other,asked,under⟩ := List.mem_flatMap.mp listed
      obtain ⟨same_,held,has⟩ := (consistent.listed other id).mp under
      rw [read] at held
      cases held
      rw [(represented.keyed id node read).1]
      exact ⟨read,.inr ⟨other,asked,has⟩⟩
    · intro found
      obtain ⟨other,asked,has⟩ := found.2.resolve_left (List.cons_ne_nil tag rest)
      have under := (consistent.listed other node.id).mpr ⟨node,found.1,has⟩
      exact ⟨node.id,List.mem_flatMap.mpr ⟨other,asked,under⟩,(node_found setting).mpr found.1⟩
end Candidates

section Lookup
variable (setting : Answering) {memory : SovereignMemory setting.Number}

theorem scored_answers (queryText : Text) (vector : List setting.Number) (node : MemoryNode setting.Number) :
    ∃ score, scored setting.toSetting queryText vector node = .ok (score,node) := by
  unfold scored
  dsimp only
  split
  · exact ⟨_,rfl⟩
  · obtain ⟨score,answered⟩ := setting.compares vector node.embedding
    rw [answered]
    exact ⟨_,rfl⟩

variable (represented : Represented setting.toSetting memory)
include represented

theorem semantic_ids : ((semanticNodes memory).map MemoryNode.id).Nodup ∧
    ∀ node, node ∈ semanticNodes memory ↔ memory.nodes.get node.id = some node ∧ node.tier = semantic := by
  refine ⟨(values_once setting.toSetting represented).sublist (List.filter_sublist.map _),?_⟩
  intro node
  unfold semanticNodes
  rw [List.mem_filter,decide_eq_true_eq,values_members setting.toSetting represented]

-- The lookup finds semantic nodes with the tag, and all of them if there is room.
theorem lookup_exact (queryText : Text) (limit : Int) : ∃ nodes,
    query setting.toSetting memory queryText (some semantic) (some [distilledRule]) limit = .ok nodes ∧
    (∀ node ∈ nodes, memory.nodes.get node.id = some node ∧ node.tier = semantic ∧ distilledRule ∈ node.tags) ∧
    ((semanticNodes memory).length ≤ limit → ∀ id node, memory.nodes.get id = some node → node.tier = semantic →
      distilledRule ∈ node.tags → node ∈ nodes) := by
  obtain ⟨chosen,candidates_,tagged_⟩ := candidates_found setting.toSetting represented (some [distilledRule])
  obtain ⟨vector,encoded⟩ := setting.encodes memory.drawn queryText
  let inTier := chosen.filter fun node => decide (some node.tier = some semantic)
  have in_tier : ∀ node, node ∈ inTier ↔ memory.nodes.get node.id = some node ∧ node.tier = semantic ∧
      distilledRule ∈ node.tags := by
    intro node
    rw [List.mem_filter,tagged_,decide_eq_true_eq,Option.some.injEq,and_assoc]
    simp [and_comm]
  have total : ∀ node ∈ inTier, ∃ pair, scored setting.toSetting queryText vector node = .ok pair := by
    intro node _
    obtain ⟨score,same⟩ := scored_answers setting queryText vector node
    exact ⟨_,same⟩
  obtain ⟨results,mapped,members⟩ := mapM_members total
  have sorted : ∀ node, node ∈ (results.mergeSort fun first second => setting.atLeast first.1 second.1).map Prod.snd ↔
      node ∈ inTier := by
    intro node
    simp only [List.mem_map,List.mem_mergeSort,members]
    refine ⟨?_,?_⟩
    · intro found
      obtain ⟨pair,⟨item,listed,same⟩,rfl⟩ := found
      obtain ⟨score,answer⟩ := scored_answers setting queryText vector item
      rw [answer] at same
      cases same
      exact listed
    · intro listed
      obtain ⟨score,answer⟩ := scored_answers setting queryText vector node
      exact ⟨(score,node),⟨node,listed,answer⟩,rfl⟩
  refine ⟨firstSeen limit [] ((results.mergeSort fun first second => setting.atLeast first.1 second.1).map Prod.snd),?_,?_,?_⟩
  · unfold query
    rw [candidates_]
    change (setting.encode memory.drawn queryText >>= fun vector => _) = _
    rw [encoded]
    change (inTier.mapM (scored setting.toSetting queryText vector) >>= fun results => _) = _
    rw [mapped]
    rfl
  · intro node listed
    rcases seen_subset limit [] _ node listed with none | kept
    · cases none
    · exact (in_tier node).mp ((sorted node).mp kept)
  · intro room id node held tier has
    have ids := semantic_ids setting represented
    have its := (represented.keyed id node held).1
    have inside : ∀ other ∈ [] ++ (results.mergeSort fun first second => setting.atLeast first.1 second.1).map Prod.snd,
        other.id ∈ (semanticNodes memory).map MemoryNode.id := by
      intro other listed
      obtain ⟨present,semantic_,_⟩ := (in_tier other).mp ((sorted other).mp listed)
      exact List.mem_map_of_mem ((ids.2 other).mpr ⟨present,semantic_⟩)
    have wanted : node ∈ inTier := (in_tier node).mpr ⟨its ▸ held,tier,has⟩
    have ample : ((semanticNodes memory).map MemoryNode.id).length ≤ limit := by
      rw [List.length_map]
      exact room
    have found := seen_all ample [] _ .nil inside node ((sorted node).mpr wanted)
    obtain ⟨other,listed,same⟩ := List.mem_map.mp found
    have both : memory.nodes.get other.id = some other := by
      rcases seen_subset limit [] _ other listed with none | kept
      · cases none
      · exact ((in_tier other).mp ((sorted other).mp kept)).1
    rw [same,its,held] at both
    exact Option.some.inj both ▸ listed
end Lookup

-- What was distilled is there and semantic.
structure Sound (setting : Setting) (world : World setting) : Prop where
  represented : Represented setting world.memory
  distilled : ∀ id ∈ world.distilled, ∃ node, world.memory.nodes.get id = some node ∧ node.tier = semantic

def RulesTagged {setting : Setting} (world : World setting) : Prop :=
  ∀ id node, world.memory.nodes.get id = some node → node.tier = semantic → (distilledRule ∈ node.tags ↔ id ∈ world.distilled)

theorem comes_back_tagged (setting : Answering) {world : World setting.toSetting} (sound : Sound setting.toSetting world) :
    RulesComeBack setting.toSetting world ↔ RulesTagged world := by
  have lookup := fun queryText limit => lookup_exact setting sound.represented queryText limit
  refine ⟨?_,?_⟩
  · intro back id node held tier
    obtain ⟨nodes,asked,_,only,all⟩ := back [] (semanticNodes world.memory).length
    obtain ⟨found,same,shown,whole⟩ := lookup [] (semanticNodes world.memory).length
    rw [asked,Except.ok.injEq] at same
    subst same
    refine ⟨?_,?_⟩
    · intro has
      rw [← (sound.represented.keyed id node held).1]
      exact only node (whole le_rfl id node held tier has)
    · intro distilled
      obtain ⟨other,listed,rfl⟩ := all le_rfl id distilled
      obtain ⟨present,_,has⟩ := shown other listed
      rw [held] at present
      cases present
      exact has
  · intro tagged_ queryText limit
    obtain ⟨nodes,same,shown,whole⟩ := lookup queryText limit
    refine ⟨nodes,same,by rw [getDistilledLessons,same]; rfl,?_,?_⟩
    · intro node listed
      obtain ⟨held,tier,has⟩ := shown node listed
      exact (tagged_ node.id node held tier).mp has
    · intro room id distilled
      obtain ⟨node,held,tier⟩ := sound.distilled id distilled
      exact ⟨node,whole room id node held tier ((tagged_ id node held tier).mpr distilled),
        (sound.represented.keyed id node held).1⟩

theorem mem_walked (setting : Setting) (tags : List Text) (tag : Text) : tag ∈ walked setting tags ↔ tag ∈ tags := by
  rw [walked,setting.order.mem_arrange,List.mem_dedup]

section Commits
variable {setting : Setting} {memory : SovereignMemory setting.Number} {distilled : List Text}
  (sound : Sound setting ⟨memory,distilled⟩) (tier category content : Text) (context : Context) (tags : List Text)
  (embedding : List setting.Number)
include sound

theorem drawn_undistilled : setting.ids memory.drawn ∉ distilled := by
  intro listed
  obtain ⟨node,held,_⟩ := sound.distilled _ listed
  have fresh := drawn_fresh setting sound.represented
  exact nomatch fresh.symm.trans held

theorem store_sound (added : List Text) (mine : ∀ id ∈ added, id = setting.ids memory.drawn ∧ tier = semantic) :
    Sound setting ⟨store setting memory (setting.ids memory.drawn) tier category content context tags embedding,
      distilled ++ added⟩ where
  represented := store_represented tier category content context tags embedding sound.represented
  distilled id listed := by
    change ∃ node, (store setting memory _ tier category content context tags embedding).nodes.get id = some node ∧ _
    rw [store_get]
    rcases List.mem_append.mp listed with earlier | last
    · have apart : id ≠ setting.ids memory.drawn := fun same => drawn_undistilled sound (same ▸ earlier)
      rw [if_neg apart]
      exact sound.distilled id earlier
    · rw [if_pos (mine id last).1]
      exact ⟨_,rfl,(mine id last).2⟩

-- A new node is to carry the tag exactly where it was distilled.
theorem store_tagged (added : List Text) (mine : ∀ id ∈ added, id = setting.ids memory.drawn) :
    @RulesTagged setting ⟨store setting memory (setting.ids memory.drawn) tier category content context tags
        embedding,distilled ++ added⟩ ↔
      @RulesTagged setting ⟨memory,distilled⟩ ∧
        (tier = semantic → (distilledRule ∈ tags ↔ setting.ids memory.drawn ∈ added)) := by
  have fresh := drawn_fresh setting sound.represented
  unfold RulesTagged
  dsimp only
  refine ⟨?_,?_⟩
  · intro after
    refine ⟨?_,?_⟩
    · intro id node held semantic_
      have apart : id ≠ setting.ids memory.drawn := by
        intro same
        rw [same,fresh] at held
        cases held
      have same := after id node (by rw [store_get,if_neg apart]; exact held) semantic_
      rw [List.mem_append] at same
      exact same.trans (or_iff_left fun last => apart (mine id last))
    · intro semantic_
      have same := after (setting.ids memory.drawn) _ (by rw [store_get,if_pos rfl]) semantic_
      rw [mem_walked,List.mem_append] at same
      exact same.trans (or_iff_right (drawn_undistilled sound))
  · intro before id node held semantic_
    rw [store_get] at held
    rw [List.mem_append]
    split at held
    next same =>
      cases held
      rw [mem_walked,same]
      exact (before.2 semantic_).trans (or_iff_right (drawn_undistilled sound)).symm
    next apart => exact (before.1 id node held semantic_).trans (or_iff_left fun last => apart (mine id last)).symm
end Commits

theorem commit_stores (setting : Answering) (memory : SovereignMemory setting.Number) (tier category content : Text)
    (context : Context) (tags : Option (List Text)) (embedding : Option (List setting.Number)) : ∃ vector,
    commit setting.toSetting memory tier category content context tags embedding =
      (store setting.toSetting memory (setting.ids memory.drawn) tier category content context (tags.getD []) vector,
        .ok (setting.ids memory.drawn)) := by
  unfold commit
  cases embedding with
  | some vector => exact ⟨vector,rfl⟩
  | none =>
      obtain ⟨vector,encoded⟩ := setting.encodes memory.drawn content
      refine ⟨vector,?_⟩
      rw [Option.map_none,Option.getD_none,encoded]

theorem commit_exact (setting : Answering) {world : World setting.toSetting} (sound : Sound setting.toSetting world)
    (tier category content : Text) (context : Context) (tags : Option (List Text)) (embedding : Option (List setting.Number)) :
    Sound setting.toSetting {world with memory :=
        (commit setting.toSetting world.memory tier category content context tags embedding).1} ∧
      (RulesTagged {world with memory := (commit setting.toSetting world.memory tier category content context tags embedding).1} ↔
        RulesTagged world ∧ (tier = semantic → distilledRule ∉ tags.getD [])) := by
  obtain ⟨vector,stored⟩ := commit_stores setting world.memory tier category content context tags embedding
  have after := store_sound sound tier category content context (tags.getD []) vector [] nofun
  have exactly := store_tagged sound tier category content context (tags.getD []) vector [] nofun
  rw [List.append_nil] at after exactly
  rw [stored]
  refine ⟨after,exactly.trans (and_congr_right fun _ => forall_congr' fun _ => ?_)⟩
  exact iff_false_right List.not_mem_nil

-- What a link leaves of a node: its tier and its tags.
def labels (node : MemoryNode Number) : Text × List Text := (node.tier,node.tags)

theorem relate_labels (setting : Setting) (memory : SovereignMemory setting.Number) (id other asked : Text) :
    ((relate setting memory id other).nodes.get asked).map labels = (memory.nodes.get asked).map labels := by
  rw [relate_get]
  split
  next same =>
    rw [same]
    cases memory.nodes.get id <;> rfl
  next => rfl

theorem link_labels (setting : Setting) (memory : SovereignMemory setting.Number) (first second asked : Text) :
    ((linkNodes setting memory first second).nodes.get asked).map labels = (memory.nodes.get asked).map labels := by
  unfold linkNodes
  split
  next => rw [relate_labels,relate_labels]
  next => rfl

theorem labels_held {memory other : SovereignMemory Number} (same : ∀ id, (memory.nodes.get id).map labels =
    (other.nodes.get id).map labels) {id : Text} {node : MemoryNode Number} (held : memory.nodes.get id = some node) :
    ∃ before, other.nodes.get id = some before ∧ before.tier = node.tier ∧ before.tags = node.tags := by
  have equal := same id
  rw [held,Option.map_some,eq_comm,Option.map_eq_some_iff] at equal
  obtain ⟨before,found,labelled⟩ := equal
  exact ⟨before,found,congrArg Prod.fst labelled,congrArg Prod.snd labelled⟩

theorem link_exact {setting : Setting} {world : World setting} (sound : Sound setting world) (first second : Text) :
    Sound setting {world with memory := linkNodes setting world.memory first second} ∧
      (RulesTagged {world with memory := linkNodes setting world.memory first second} ↔ RulesTagged world) := by
  have same := link_labels setting world.memory first second
  refine ⟨⟨link_represented sound.represented first second,?_⟩,?_,?_⟩
  · intro id listed
    obtain ⟨node,held,tier⟩ := sound.distilled id listed
    obtain ⟨after,found,tier_,_⟩ := labels_held (fun id => (same id).symm) held
    exact ⟨after,found,tier_.trans tier⟩
  · intro after id node held tier
    obtain ⟨later,found,tier_,tags⟩ := labels_held (fun id => (same id).symm) held
    rw [← tags]
    exact after id later found (tier_.trans tier)
  · intro before id node held tier
    obtain ⟨earlier,found,tier_,tags⟩ := labels_held same held
    rw [← tags]
    exact before id earlier found (tier_.trans tier)

-- Each rule line adds a node that is to carry the tag.
theorem lines_exact (setting : Answering) (sources : List Text) {memory : SovereignMemory setting.Number}
    {distilled : List Text} (before lines : List Text) (sound : Sound setting.toSetting ⟨memory,distilled ++ before⟩) :
    ∃ after found, distillLines setting.toSetting sources memory before lines = (after,.ok found) ∧
      Sound setting.toSetting ⟨after,distilled ++ found⟩ ∧
      (@RulesTagged setting.toSetting ⟨after,distilled ++ found⟩ ↔
        @RulesTagged setting.toSetting ⟨memory,distilled ++ before⟩ ∧
          ∀ learned ∈ lines.filterMap rule, distilledRule ∈ learned.tags) := by
  induction lines generalizing memory before with
  | nil => exact ⟨memory,before,rfl,sound,(and_iff_left fun _ listed => nomatch listed).symm⟩
  | cons line rest ih =>
      unfold distillLines
      cases read : rule line with
      | none =>
          rw [List.filterMap_cons_none read]
          exact ih before sound
      | some rule =>
          obtain ⟨vector,stored⟩ := commit_stores setting memory semantic distilledRule rule.content (.sourceTraces sources)
            (some rule.tags) none
          have mine : ∀ id ∈ [setting.ids memory.drawn], id = setting.ids memory.drawn ∧ semantic = semantic :=
            fun id listed => ⟨List.mem_singleton.mp listed,rfl⟩
          have after := store_sound sound semantic distilledRule rule.content (.sourceTraces sources) rule.tags vector _ mine
          have exactly := store_tagged sound semantic distilledRule rule.content (.sourceTraces sources) rule.tags vector
            [setting.ids memory.drawn] fun id listed => (mine id listed).1
          rw [List.append_assoc] at after exactly
          obtain ⟨last,found,finished,kept,whole⟩ := ih (before ++ [setting.ids memory.drawn]) after
          refine ⟨last,found,?_,kept,whole.trans ?_⟩
          · dsimp only
            rw [stored]
            exact finished
          · rw [List.filterMap_cons_some read,List.forall_mem_cons,exactly,and_assoc]
            refine and_congr_right fun _ => and_congr_left fun _ => ?_
            exact ⟨fun same => (same rfl).mpr (List.mem_singleton.mpr rfl),
              fun has _ => iff_of_true has (List.mem_singleton.mpr rfl)⟩

theorem step_exact (setting : Answering) (world : World setting.toSetting) (operation : Operation setting.toSetting)
    (sound : Sound setting.toSetting world) : Sound setting.toSetting (world.step setting.toSetting operation) ∧
      (RulesTagged (world.step setting.toSetting operation) ↔
        RulesTagged world ∧ KeepsRules setting.toSetting world operation) := by
  cases operation with
  | commit tier category content context tags embedding =>
      exact commit_exact setting sound tier category content context tags embedding
  | commitLesson category content context tags =>
      obtain ⟨after,exactly⟩ := commit_exact setting sound semantic category content context tags none
      exact ⟨after,exactly.trans (and_congr_right fun _ => ⟨fun absent => absent rfl,fun absent _ => absent⟩)⟩
  | linkNodes first second =>
      obtain ⟨after,exactly⟩ := link_exact sound first second
      exact ⟨after,exactly.trans (and_iff_left trivial).symm⟩
  | query queryText tier tags limit => exact ⟨sound,(and_iff_left trivial).symm⟩
  | distillLessons episodicNodeIds synthesizeLesson =>
      unfold World.step distillLessons KeepsRules
      dsimp only
      by_cases empty : episodicNodeIds = []
      · rw [if_pos empty,List.append_nil]
        exact ⟨sound,(and_iff_left fun filled => absurd empty filled).symm⟩
      · rw [if_neg empty]
        cases answer : synthesizeLesson (prompt setting.toSetting world.memory episodicNodeIds) with
        | error exc =>
            dsimp only
            rw [List.append_nil]
            exact ⟨sound,(and_iff_left fun _ _ same => nomatch same).symm⟩
        | ok response =>
            have start : Sound setting.toSetting ⟨world.memory,world.distilled ++ []⟩ := by
              rw [List.append_nil]
              exact sound
            obtain ⟨after,found,finished,kept,exactly⟩ := lines_exact setting episodicNodeIds [] (response.splitOn '\n') start
            dsimp only
            rw [finished]
            rw [List.append_nil] at exactly
            refine ⟨kept,exactly.trans (and_congr_right fun _ => ?_)⟩
            refine ⟨fun carried _ _ same => ?_,fun carried => carried empty response rfl⟩
            cases same
            exact carried

theorem learned_rules_exact (setting : Answering) (operations : List (Operation setting.toSetting)) :
    Throughout (World.step setting.toSetting) (RulesComeBack setting.toSetting) (World.init setting.toSetting) operations ↔
      Steps (World.step setting.toSetting) (KeepsRules setting.toSetting) (World.init setting.toSetting) operations := by
  have start : Sound setting.toSetting (World.init setting.toSetting) := ⟨init_represented setting.toSetting,nofun⟩
  have fits := steps_invariant (fun world operation sound => (step_exact setting world operation sound).1) _ operations start
  have exactly : ∀ world operation, Sound setting.toSetting world → RulesComeBack setting.toSetting world →
      (RulesComeBack setting.toSetting (world.step setting.toSetting operation) ↔
        KeepsRules setting.toSetting world operation) := by
    intro world operation sound back
    obtain ⟨after,same⟩ := step_exact setting world operation sound
    rw [comes_back_tagged setting after,same]
    exact and_iff_right ((comes_back_tagged setting sound).mp back)
  rw [throughout_exact exactly _ operations fits]
  exact and_iff_right ((comes_back_tagged setting start).mpr nofun)

-- The provider that stands in for a real one: no text has an embedding.
def structural : Answering where
  Number := Nat
  Score := Nat
  tables := UnicodeText.ascii
  order := .asIs
  repr := id
  ids number := List.replicate number 'm'
  ids_apart := List.replicate_left_injective 'm'
  encode _ _ := .ok []
  similarity _ _ := .ok 0
  zero := 0
  isZero score := decide (score = 0)
  overlap shared _ := shared
  atLeast first second := decide (second ≤ first)
  encodes _ _ := ⟨[],rfl⟩
  compares _ _ := ⟨0,rfl⟩

def oneRule : List (Operation structural.toSetting) :=
  [.commit "episodic".toList ['k'] ['x'] (.given []) none none,
    .distillLessons [[]] fun _ => .ok "RULE: r | CONTENT: c | TAGS: t".toList]

theorem rule_forgotten : ¬ Throughout (World.step structural.toSetting) (RulesComeBack structural.toSetting)
    (World.init structural.toSetting) oneRule := by
  intro always
  have start : Sound structural.toSetting (World.init structural.toSetting) := ⟨init_represented structural.toSetting,nofun⟩
  have sound := throughout_end (throughout_invariant
    (fun world operation sound (_ : True) => (step_exact structural world operation sound).1) _ oneRule start
    (steps_forall (fun _ _ _ => trivial) _))
  have tagged_ := (comes_back_tagged structural sound).mp (throughout_end always)
  have learned : (run (World.step structural.toSetting) (World.init structural.toSetting) oneRule).distilled = [['m']] := by decide
  have node : ((run (World.step structural.toSetting) (World.init structural.toSetting) oneRule).memory.nodes.get ['m']).map
      labels = some (semantic,[['t']]) := by decide
  obtain ⟨held,found,same⟩ := Option.map_eq_some_iff.mp node
  have has := (tagged_ ['m'] held found (congrArg Prod.fst same)).mpr (learned ▸ List.mem_singleton.mpr rfl)
  rw [show held.tags = [['t']] from congrArg Prod.snd same] at has
  exact absurd has (by decide)

end Kryvaracode.MemoryGraph
