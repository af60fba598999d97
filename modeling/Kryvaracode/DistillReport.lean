import Kryvaracode.MemorySearch

namespace Kryvaracode.MemoryGraph
open InsertionDict Runs

-- The ids that the nodes of the one memory have over those of the other.
def added (before after : SovereignMemory Number) : List Text :=
  after.nodes.keys.filter fun id => (before.nodes.get id).isNone

def ReportsAdded (setting : Setting) (memory : SovereignMemory setting.Number) (episodicNodeIds : List Text)
    (synthesizeLesson : Text → Result Text) : Prop :=
  (distillLessons setting memory episodicNodeIds synthesizeLesson).2 =
    added memory (distillLessons setting memory episodicNodeIds synthesizeLesson).1

-- The rules in front of the first whose content the provider raises on.
def encodable (setting : Setting) : Nat → List Rule → List Rule
  | _,[] => []
  | number,rule :: rest =>
      match setting.encode number rule.content with
      | .ok _ => rule :: encodable setting (number + 1) rest
      | .error _ => []

-- The provider answers for every rule, each asked under the number it would be stored by,
-- or already raises on the first.
def AllOrNone (setting : Setting) (drawn : Nat) (given : List Rule) : Prop :=
  (∀ numbered ∈ given.zipIdx drawn, ∃ vector, setting.encode numbered.2 numbered.1.content = .ok vector) ∨
    ∃ first exc, given.head? = some first ∧ setting.encode drawn first.content = .error exc

def drawnIds (setting : Setting) (drawn count : Nat) : List Text := (List.range' drawn count).map setting.ids

section Lines
variable (setting : Setting) {memory : SovereignMemory setting.Number}

theorem encodable_all (number : Nat) (given : List Rule) : (encodable setting number given).length = given.length ↔
    ∀ numbered ∈ given.zipIdx number, ∃ vector, setting.encode numbered.2 numbered.1.content = .ok vector := by
  induction given generalizing number with
  | nil => simp [encodable]
  | cons rule rest ih =>
      rw [encodable,List.zipIdx_cons,List.forall_mem_cons]
      cases answer : setting.encode number rule.content with
      | error exc =>
          refine iff_of_false (Nat.zero_ne_add_one rest.length) ?_
          rintro ⟨⟨vector,answered⟩,_⟩
          cases answered
      | ok vector =>
          rw [List.length_cons,List.length_cons,Nat.add_left_inj,ih]
          exact (and_iff_right ⟨vector,rfl⟩).symm

theorem encodable_none (number : Nat) (given : List Rule) : encodable setting number given = [] ↔
    given = [] ∨ ∃ first exc, given.head? = some first ∧ setting.encode number first.content = .error exc := by
  cases given with
  | nil => exact iff_of_true rfl (.inl rfl)
  | cons rule rest =>
      rw [encodable]
      cases answer : setting.encode number rule.content with
      | error exc => exact iff_of_true rfl (.inr ⟨rule,exc,rfl,answer⟩)
      | ok vector =>
          refine iff_of_false (List.cons_ne_nil _ _) ?_
          rintro (none | ⟨first,exc,same,raised⟩)
          · cases none
          · cases same
            rw [answer] at raised
            cases raised

theorem all_or_none_exact (drawn : Nat) (given : List Rule) : AllOrNone setting drawn given ↔
    (encodable setting drawn given).length = given.length ∨ encodable setting drawn given = [] := by
  rw [AllOrNone,encodable_all,encodable_none]
  refine ⟨fun either => either.imp_right .inr,?_⟩
  rintro (all | rfl | raised)
  · exact .inl all
  · exact .inl (by simp)
  · exact .inr raised

-- What a run over the lines leaves and returns, whichever rule the provider raises on.
theorem distill_lines_exact (sources : List Text) (represented : Represented setting memory) (distilled lines : List Text) :
    (distillLines setting sources memory distilled lines).1.nodes.keys = memory.nodes.keys ++
        drawnIds setting memory.drawn (encodable setting memory.drawn (lines.filterMap rule)).length ∧
      (((encodable setting memory.drawn (lines.filterMap rule)).length = (lines.filterMap rule).length ∧
          (distillLines setting sources memory distilled lines).2 =
            .ok (distilled ++ drawnIds setting memory.drawn (lines.filterMap rule).length)) ∨
        ((encodable setting memory.drawn (lines.filterMap rule)).length ≠ (lines.filterMap rule).length ∧
          ∃ exc, (distillLines setting sources memory distilled lines).2 = .error exc)) := by
  induction lines generalizing memory distilled with
  | nil => simp [distillLines,encodable,drawnIds]
  | cons line rest ih =>
      cases found : rule line with
      | none =>
          rw [distillLines,found,List.filterMap_cons_none found]
          exact ih represented distilled
      | some rule =>
          have after := commit_represented represented semantic distilledRule rule.content (.sourceTraces sources) (some rule.tags) none
          rw [distillLines,found,List.filterMap_cons_some found,encodable]
          unfold commit at after ⊢
          cases answer : setting.encode memory.drawn rule.content with
          | error exc =>
              simp [answer,drawnIds]
          | ok vector =>
              simp only [answer,Option.map_none,Option.getD_none,Option.getD_some] at after ⊢
              obtain ⟨left,returned⟩ := ih after (distilled ++ [setting.ids memory.drawn])
              have stored : ∀ tier category content context tags embedding, (store setting memory (setting.ids memory.drawn)
                  tier category content context tags embedding).nodes.keys = memory.nodes.keys ++ [setting.ids memory.drawn] :=
                fun _ _ _ _ _ _ => keys_set_new memory.nodes _ _ (drawn_fresh setting represented)
              have next : ∀ count, [setting.ids memory.drawn] ++ drawnIds setting (memory.drawn + 1) count =
                  drawnIds setting memory.drawn (count + 1) := fun _ => rfl
              rw [stored,List.append_assoc] at left
              simp only [List.append_assoc] at returned
              rw [List.length_cons,List.length_cons,ne_eq,Nat.add_left_inj,← next,← next]
              exact ⟨left,returned⟩

theorem fresh_added {after : SovereignMemory setting.Number} (represented : Represented setting memory) (count : Nat)
    (keys : after.nodes.keys = memory.nodes.keys ++ drawnIds setting memory.drawn count) :
    added memory after = drawnIds setting memory.drawn count := by
  have old : ∀ id ∈ memory.nodes.keys, ¬ (memory.nodes.get id).isNone = true := by
    intro id listed none
    exact (not_mem_keys memory.nodes id).mpr (Option.isNone_iff_eq_none.mp none) listed
  have new : ∀ id ∈ drawnIds setting memory.drawn count, (memory.nodes.get id).isNone = true := by
    intro id drawn
    obtain ⟨number,above,rfl⟩ := List.mem_map.mp drawn
    cases held : memory.nodes.get (setting.ids number) with
    | none => rfl
    | some node =>
        obtain ⟨_,other,below,same⟩ := represented.keyed _ node held
        have equal := setting.ids_apart same
        have bounds := (List.mem_range'_1.mp above).1
        omega
  rw [added,keys,List.filter_append,List.filter_eq_nil_iff.mpr old,List.filter_eq_self.mpr new,List.nil_append]

theorem distill_reports (represented : Represented setting memory) (episodicNodeIds : List Text)
    (synthesizeLesson : Text → Result Text) : ReportsAdded setting memory episodicNodeIds synthesizeLesson ↔
      (episodicNodeIds ≠ [] → ∀ response, synthesizeLesson (prompt setting memory episodicNodeIds) = .ok response →
        AllOrNone setting memory.drawn (rules response)) := by
  have nothing : added memory memory = [] := by
    have none_added := fresh_added setting represented 0 (List.append_nil memory.nodes.keys).symm
    exact none_added
  unfold ReportsAdded distillLessons
  by_cases none : episodicNodeIds = []
  · rw [if_pos none,nothing]
    exact iff_of_true rfl fun some_given => absurd none some_given
  · rw [if_neg none]
    cases answer : synthesizeLesson (prompt setting memory episodicNodeIds) with
    | error exc =>
        refine iff_of_true nothing.symm ?_
        intro _ response same
        cases same
    | ok response =>
        obtain ⟨keys,returned⟩ := distill_lines_exact setting episodicNodeIds represented [] (response.splitOn '\n')
        have only : AllOrNone setting memory.drawn (rules response) ↔ (episodicNodeIds ≠ [] → ∀ other,
            Except.ok response = Except.ok (ε := Failure) other → AllOrNone setting memory.drawn (rules other)) := by
          refine ⟨?_,fun all => all none response rfl⟩
          intro all _ other same
          cases same
          exact all
        rw [← only,all_or_none_exact]
        have new : added memory _ = drawnIds setting memory.drawn (encodable setting memory.drawn (rules response)).length :=
          fresh_added setting represented _ keys
        cases whole : distillLines setting episodicNodeIds memory [] (response.splitOn '\n') with
        | mk after result =>
            rw [whole] at new returned
            rcases returned with ⟨all,same⟩ | ⟨failed,exc,same⟩
            · cases same
              simp only [whole]
              refine iff_of_true ?_ (.inl all)
              exact (new.trans (congrArg (drawnIds setting memory.drawn) all)).symm
            · cases same
              simp only [whole]
              rw [← rules] at failed
              change [] = added memory after ↔ _
              rw [or_iff_right failed,new,drawnIds,eq_comm,List.map_eq_nil_iff,List.range'_eq_nil_iff,List.length_eq_zero_iff]

end Lines

theorem distill_report_exact (setting : Setting) (operations : List (Operation setting)) (episodicNodeIds : List Text)
    (synthesizeLesson : Text → Result Text) :
    ReportsAdded setting (run (step setting) SovereignMemory.init operations) episodicNodeIds synthesizeLesson ↔
      (episodicNodeIds ≠ [] → ∀ response, synthesizeLesson
        (prompt setting (run (step setting) SovereignMemory.init operations) episodicNodeIds) = .ok response →
          AllOrNone setting (run (step setting) SovereignMemory.init operations).drawn (rules response)) :=
  distill_reports setting (run_represented setting operations) episodicNodeIds synthesizeLesson

-- A provider that knows no rule named `b`.
def choosy : Setting := {structural.toSetting with
  encode := fun _ text => if text = "b: y".toList then .error (ValueError "unknown token".toList) else .ok []}

-- The first rule is stored, the second raises, and no id comes back.
theorem lesson_unreported : ¬ ReportsAdded choosy (run (step choosy) SovereignMemory.init []) [['e']] fun _ =>
    .ok "RULE: a | CONTENT: x | TAGS: t\nRULE: b | CONTENT: y | TAGS: t".toList := by
  unfold ReportsAdded
  decide

end Kryvaracode.MemoryGraph
