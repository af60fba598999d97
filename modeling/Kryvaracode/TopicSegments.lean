import Kryvaracode.MessageBus
import Kryvaracode.Separated

namespace Kryvaracode.Messages
open Separated

structure Segment where
  text : Text
  filled : text ≠ []
  whole : '.' ∉ text

structure Topic where
  segments : List Segment
  some : segments ≠ []

def Topic.parts (topic : Topic) : List Text := topic.segments.map Segment.text

def Topic.text (topic : Topic) : Text := ['.'].intercalate topic.parts

-- What a pattern may name: segments without a star.
structure Stem extends Topic where
  literal : ∀ segment ∈ segments, '*' ∉ segment.text

structure BySegments (topic : Topic) (stem : Stem) : Prop where
  exact : topicMatches topic.text stem.text = true ↔ topic.text = stem.text
  one : topicMatches topic.text (stem.text ++ ['.','*']) = true ↔
    ∃ segment, topic.segments = stem.segments ++ [segment]
  all : topicMatches topic.text (stem.text ++ ['.','*','*']) = true ↔ stem.segments <+: topic.segments
  dotted : topicMatches topic.text (stem.text ++ ['.','*','*']) = true ↔
    topic.text = stem.text ∨ stem.text ++ ['.'] <+: topic.text
  covers : topicMatches topic.text stem.text = true ∨ topicMatches topic.text (stem.text ++ ['.','*']) = true →
    topicMatches topic.text (stem.text ++ ['.','*','*']) = true

-- The topic goes on after the stem's text, within a segment.
def RunsOn (topic : Topic) (stem : Stem) : Prop :=
  ∃ c rest, topic.text = stem.text ++ c :: rest ∧ c ≠ '.'

theorem segment_ext {first second : Segment} (same : first.text = second.text) : first = second := by
  cases first
  cases second
  cases same
  rfl

theorem topic_parts (topic : Topic) : Parts '.' topic.parts := by
  refine ⟨?_,?_⟩
  · intro none
    exact topic.some (List.map_eq_nil_iff.mp none)
  · intro part member
    obtain ⟨segment,_,rfl⟩ := List.mem_map.mp member
    exact segment.whole

theorem parts_injective {first second : List Segment} (same : first.map Segment.text = second.map Segment.text) :
    first = second := List.map_injective_iff.mpr (fun _ _ => segment_ext) same

theorem same_text (topic other : Topic) : topic.text = other.text ↔ topic.segments = other.segments := by
  constructor
  · intro same
    exact parts_injective (joined_same (topic_parts topic) (topic_parts other) same)
  · intro same
    rw [Topic.text,Topic.parts,same]
    rfl

-- A dot after the stem's text ends the stem's last segment.
theorem dot_begins (topic stem : Topic) (rest : Text) : topic.text = stem.text ++ '.' :: rest ↔
    ∃ more, more ≠ [] ∧ topic.segments = stem.segments ++ more ∧ rest = ['.'].intercalate (more.map Segment.text) := by
  rw [eq_comm,Topic.text,Topic.text,joined_begins (topic_parts stem) (topic_parts topic)]
  constructor
  · rintro ⟨more,some,whole,text⟩
    obtain ⟨front,later,split,first,second⟩ := List.map_eq_append_iff.mp whole
    refine ⟨later,?_,?_,?_⟩
    · rintro rfl
      exact some second.symm
    · rw [split,parts_injective first]
    · rw [text,second]
  · rintro ⟨more,some,whole,text⟩
    exact ⟨more.map Segment.text,mt List.map_eq_nil_iff.mp some,by rw [Topic.parts,whole,List.map_append]; rfl,text⟩

section Stems
variable (stem : Stem)

theorem mem_joined {c : Char} {parts : List Text} (other : c ≠ '.') (absent : ∀ part ∈ parts, c ∉ part) :
    c ∉ ['.'].intercalate parts := by
  induction parts with
  | nil => exact List.not_mem_nil
  | cons part rest ih =>
      have first := absent part List.mem_cons_self
      by_cases last : rest = []
      · rw [last,single_joined]
        exact first
      · rw [more_joined part last,List.mem_append,List.mem_cons,not_or,not_or]
        exact ⟨first,other,ih fun part member => absent part (List.mem_cons_of_mem _ member)⟩

theorem stem_literal : '*' ∉ stem.text := by
  apply mem_joined (by decide)
  intro part member
  obtain ⟨segment,inside,rfl⟩ := List.mem_map.mp member
  exact stem.literal segment inside

theorem joined_last {parts : List Text} (some : parts ≠ []) (filled : ∀ part ∈ parts, part ≠ [] ∧ '.' ∉ part) :
    ∃ front c, ['.'].intercalate parts = front ++ [c] ∧ c ≠ '.' := by
  induction parts with
  | nil => exact absurd rfl some
  | cons part rest ih =>
      by_cases last : rest = []
      · obtain ⟨nonempty,whole⟩ := filled part List.mem_cons_self
        refine ⟨part.dropLast,part.getLast nonempty,?_,?_⟩
        · rw [last,single_joined,List.dropLast_append_getLast]
        · intro dot
          apply whole
          rw [← dot]
          exact List.getLast_mem nonempty
      · obtain ⟨front,c,text,other⟩ := ih last fun part member => filled part (List.mem_cons_of_mem _ member)
        exact ⟨part ++ '.' :: front,c,by rw [more_joined part last,text,List.append_assoc]; rfl,other⟩

theorem text_last (topic : Topic) : ∃ front c, topic.text = front ++ [c] ∧ c ≠ '.' := by
  apply joined_last (topic_parts topic).1
  intro part member
  obtain ⟨segment,_,rfl⟩ := List.mem_map.mp member
  exact ⟨segment.filled,segment.whole⟩

theorem hasStars_absent {text : Text} (absent : '*' ∉ text) : hasStars text = false := by
  induction text with
  | nil => rfl
  | cons c rest ih =>
      obtain ⟨first,later⟩ := not_or.mp (mt List.mem_cons.mpr absent)
      cases rest with
      | nil => simp [hasStars]
      | cons next more =>
          rw [hasStars]
          · exact ih later
          · intro _ same
            exact absurd same.symm first

theorem hasStars_dotted {text : Text} (absent : '*' ∉ text) (stars : Text) :
    hasStars (text ++ '.' :: stars) = hasStars stars := by
  induction text with
  | nil => rfl
  | cons c rest ih =>
      obtain ⟨first,later⟩ := not_or.mp (mt List.mem_cons.mpr absent)
      rw [List.cons_append,hasStars]
      · exact ih later
      · intro _ same
        exact absurd same.symm first

theorem dropStars_dotted {text : Text} (absent : '*' ∉ text) (stars : Text) :
    dropStars (text ++ '.' :: stars) = text ++ '.' :: dropStars stars := by
  induction text with
  | nil => rfl
  | cons c rest ih =>
      obtain ⟨first,later⟩ := not_or.mp (mt List.mem_cons.mpr absent)
      rw [List.cons_append,dropStars,ih later,List.cons_append]
      intro _ same
      exact absurd same.symm first

theorem not_star {text : Text} (absent : '*' ∉ text) (rest : Text) : text ++ '.' :: rest ≠ ['*'] := by
  cases text with
  | nil => exact fun same => absurd (List.cons.inj same).1 (by decide)
  | cons c later =>
      intro same
      exact absent ((List.cons.inj same).1 ▸ List.mem_cons_self)

theorem matches_literal (topic : Text) : topicMatches topic stem.text = (topic == stem.text) := by
  have absent := stem_literal stem
  rw [topicMatches,hasStars_absent absent,if_neg,if_neg Bool.false_ne_true,if_neg]
  · rw [List.isSuffixOf_iff_suffix]
    rintro ⟨front,whole⟩
    apply absent
    rw [← whole]
    exact List.mem_append_right _ (by decide)
  · intro same
    rw [same] at absent
    exact absent List.mem_cons_self

theorem matches_one (topic : Text) : topicMatches topic (stem.text ++ ['.','*']) = true ↔
    ∃ rest, topic = stem.text ++ '.' :: rest ∧ '.' ∉ rest := by
  have absent := stem_literal stem
  have cut : (stem.text ++ ['.','*']).take ((stem.text ++ ['.','*']).length - 2) = stem.text := by
    rw [List.length_append]
    exact List.take_left
  rw [topicMatches,if_neg (not_star absent _),hasStars_dotted absent,if_neg (show ¬ hasStars ['*'] = true by decide),
    if_pos (List.isSuffixOf_iff_suffix.mpr (List.suffix_append _ _)),cut]
  dsimp only
  split
  next begins =>
    obtain ⟨rest,rfl⟩ := List.isPrefixOf_iff_prefix.mp begins
    have after : (stem.text ++ ['.'] ++ rest).drop (stem.text.length + 1) = rest := by
      rw [show stem.text.length + 1 = (stem.text ++ ['.']).length by rw [List.length_append]; rfl]
      exact List.drop_left
    rw [after,Bool.not_eq_true',List.contains_eq_mem,decide_eq_false_iff_not]
    constructor
    · intro whole
      exact ⟨rest,by rw [List.append_assoc]; rfl,whole⟩
    · rintro ⟨other,same,whole⟩
      rw [List.append_assoc] at same
      cases List.append_cancel_left same
      exact whole
  next other =>
    refine iff_of_false Bool.false_ne_true ?_
    rintro ⟨rest,rfl,_⟩
    apply other
    exact List.isPrefixOf_iff_prefix.mpr ⟨rest,by rw [List.append_assoc]; rfl⟩

theorem matches_all (topic : Text) : topicMatches topic (stem.text ++ ['.','*','*']) = true ↔ stem.text <+: topic := by
  have absent := stem_literal stem
  obtain ⟨front,c,text,other⟩ := text_last stem.toTopic
  have stripped : rstripDots (dropStars (stem.text ++ ['.','*','*'])) = stem.text := by
    rw [dropStars_dotted absent,text,rstripDots]
    simp [dropStars,other]
  rw [topicMatches,if_neg (not_star absent _),hasStars_dotted absent,if_pos (show hasStars ['*','*'] = true by decide),stripped]
  exact List.isPrefixOf_iff_prefix

end Stems

theorem prefix_text (topic stem : Topic) (first : stem.segments <+: topic.segments) :
    topic.text = stem.text ∨ stem.text ++ ['.'] <+: topic.text := by
  obtain ⟨more,whole⟩ := first
  by_cases same : more = []
  · rw [same,List.append_nil] at whole
    exact .inl ((same_text topic stem).mpr whole.symm)
  · refine .inr ⟨['.'].intercalate (more.map Segment.text),?_⟩
    rw [List.append_assoc]
    exact ((dot_begins topic stem _).mpr ⟨more,same,whole.symm,rfl⟩).symm

theorem dotted_front (topic stem : Topic) (dotted : topic.text = stem.text ∨ stem.text ++ ['.'] <+: topic.text) :
    stem.segments <+: topic.segments := by
  rcases dotted with same | ⟨rest,whole⟩
  · rw [(same_text topic stem).mp same]
  · rw [List.append_assoc] at whole
    obtain ⟨more,_,segments,_⟩ := (dot_begins topic stem rest).mp whole.symm
    exact ⟨more,segments.symm⟩

theorem one_more (topic : Topic) (stem : Stem) : topicMatches topic.text (stem.text ++ ['.','*']) = true ↔
    ∃ segment, topic.segments = stem.segments ++ [segment] := by
  rw [matches_one]
  constructor
  · rintro ⟨rest,text,whole⟩
    obtain ⟨more,some,segments,joined⟩ := (dot_begins topic stem.toTopic rest).mp text
    have parts : Parts '.' (more.map Segment.text) := by
      refine ⟨mt List.map_eq_nil_iff.mp some,?_⟩
      intro part member
      obtain ⟨segment,_,rfl⟩ := List.mem_map.mp member
      exact segment.whole
    obtain ⟨part,single⟩ := joined_single parts (by rw [← joined]; exact whole)
    obtain ⟨segment,rfl,_⟩ := List.map_eq_singleton_iff.mp single
    exact ⟨segment,segments⟩
  · rintro ⟨segment,segments⟩
    exact ⟨segment.text,(dot_begins topic stem.toTopic _).mpr ⟨[segment],List.cons_ne_nil _ _,segments,(single_joined _).symm⟩,
      segment.whole⟩

-- A topic that begins with the stem's text has its segments, or runs on.
theorem begins_cases (topic : Topic) (stem : Stem) (begins : stem.text <+: topic.text) :
    (topic.text = stem.text ∨ stem.text ++ ['.'] <+: topic.text) ∨ RunsOn topic stem := by
  obtain ⟨rest,whole⟩ := begins
  cases rest with
  | nil => exact .inl (.inl (by rw [← whole,List.append_nil]))
  | cons c rest =>
      by_cases dot : c = '.'
      · refine .inl (.inr ⟨rest,?_⟩)
        rw [← whole,dot,List.append_assoc]
        rfl
      · exact .inr ⟨c,rest,whole.symm,dot⟩

theorem runs_apart (topic : Topic) (stem : Stem) (runs : RunsOn topic stem) :
    ¬ (topic.text = stem.text ∨ stem.text ++ ['.'] <+: topic.text) := by
  obtain ⟨c,rest,text,other⟩ := runs
  rw [text]
  rintro (same | ⟨later,same⟩)
  · exact List.cons_ne_nil c rest (List.append_right_eq_self.mp same)
  · rw [List.append_assoc] at same
    exact other (List.cons.inj (List.append_cancel_left same)).1.symm

theorem by_segments_exact (topic : Topic) (stem : Stem) : BySegments topic stem ↔ ¬ RunsOn topic stem := by
  constructor
  · intro segments runs
    obtain ⟨c,rest,text,_⟩ := id runs
    apply runs_apart topic stem runs
    apply segments.dotted.mp
    rw [matches_all,text]
    exact List.prefix_append _ _
  · intro within
    have dotted : topicMatches topic.text (stem.text ++ ['.','*','*']) = true ↔
        topic.text = stem.text ∨ stem.text ++ ['.'] <+: topic.text := by
      rw [matches_all]
      constructor
      · intro begins
        exact (begins_cases topic stem begins).resolve_right within
      · rintro (same | ⟨rest,whole⟩)
        · rw [same]
        · exact ⟨'.' :: rest,by rw [← whole,List.append_assoc]; rfl⟩
    refine ⟨?_,one_more topic stem,?_,dotted,?_⟩
    · rw [matches_literal,beq_iff_eq]
    · rw [dotted]
      exact ⟨dotted_front topic stem.toTopic,prefix_text topic stem.toTopic⟩
    · rw [dotted]
      rintro (same | more)
      · rw [matches_literal,beq_iff_eq] at same
        exact .inl same
      · obtain ⟨segment,whole⟩ := (one_more topic stem).mp more
        exact prefix_text topic stem.toTopic ⟨[segment],whole.symm⟩

def agentx : Topic := ⟨[⟨['a','g','e','n','t','x'],by decide,by decide⟩],by simp⟩

def agent : Stem := ⟨⟨[⟨['a','g','e','n','t'],by decide,by decide⟩],by simp⟩,by decide⟩

theorem agentx_matched : ¬ BySegments agentx agent := by
  intro segments
  have dotted := segments.dotted.mp (by decide)
  revert dotted
  decide

end Kryvaracode.Messages
