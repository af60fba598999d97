import Kryvaracode.Patterns

namespace Patterns
variable {α : Type}

-- No class and no edge of the pattern tells the two elements apart.
def Agrees : Pattern α → α → α → Prop
  | .empty,_,_ => True
  | .one accepts,c,d => accepts c = accepts d
  | .edge word,c,d => word c = word d
  | .seq first second,c,d => Agrees first c d ∧ Agrees second c d
  | .alt left right,c,d => Agrees left c d ∧ Agrees right c d
  | .star body,c,d => Agrees body c d

theorem Agrees.refl (pattern : Pattern α) (c : α) : Agrees pattern c c := by
  induction pattern <;> simp_all [Agrees]

theorem atEdge_map {word : α → Bool} {change : α → α} (stable : ∀ c, word c = word (change c)) (prev next : Option α) :
    atEdge word (prev.map change) (next.map change) = atEdge word prev next := by
  have same : ∀ x : Option α, (x.map change).any word = x.any word := by
    intro x; cases x <;> simp [← stable]
  simp [atEdge,same]

theorem repeated_map {change : α → α}
    {one two : (Option α → List α → Bool) → Option α → List α → Bool}
    (same : ∀ done prev text, one done (Option.map change prev) (text.map change) =
      two (fun p s => done (p.map change) (s.map change)) prev text)
    (done : Option α → List α → Bool) (bound : Nat) (prev : Option α) (text : List α) :
    repeated one done bound (prev.map change) (text.map change) =
      repeated two (fun p s => done (p.map change) (s.map change)) bound prev text := by
  induction bound generalizing prev text with
  | zero => rfl
  | succ bound ih => simp only [repeated,same,List.length_map,ih]

theorem accepted_map (pattern : Pattern α) {change : α → α} (stable : ∀ c, Agrees pattern c (change c))
    (done : Option α → List α → Bool) (prev : Option α) (text : List α) :
    accepted pattern done (prev.map change) (text.map change) =
      accepted pattern (fun p s => done (p.map change) (s.map change)) prev text := by
  induction pattern generalizing done prev text with
  | empty => rfl
  | one accepts =>
      cases text with
      | nil => rfl
      | cons c text => simp only [List.map_cons,accepted,← show accepts c = accepts (change c) from stable c,Option.map_some]
  | edge word => simp only [accepted,List.head?_map,atEdge_map stable]
  | seq first second left right =>
      simp only [accepted,left fun c => (stable c).1]
      congr 1
      funext p s
      exact right (fun c => (stable c).2) done p s
  | alt left right one two =>
      simp only [accepted,one fun c => (stable c).1,two fun c => (stable c).2]
  | star body ih =>
      simp only [accepted,List.length_map]
      exact repeated_map (fun done prev text => ih stable done prev text) done _ _ _

theorem searchFrom_map (pattern : Pattern α) {change : α → α} (stable : ∀ c, Agrees pattern c (change c))
    (prev : Option α) (text : List α) :
    searchFrom pattern (prev.map change) (text.map change) = searchFrom pattern prev text := by
  have here := accepted_map pattern stable (fun _ _ => true)
  induction text generalizing prev with
  | nil => exact here prev []
  | cons c text ih =>
      simp only [List.map_cons,searchFrom]
      rw [← ih (some c),← here prev (c :: text)]
      rfl

-- A rewriting of single elements that the pattern cannot see changes no verdict.
theorem search_map (pattern : Pattern α) {change : α → α} (stable : ∀ c, Agrees pattern c (change c)) (text : List α) :
    search pattern (text.map change) = search pattern text := searchFrom_map pattern stable none text

-- What a pattern learns from its surroundings is read at its edges only.
def SameEdges : Pattern α → Option α → Option α → Prop
  | .empty,_,_ => True
  | .one _,_,_ => True
  | .edge word,x,y => x.any word = y.any word
  | .seq first second,x,y => SameEdges first x y ∧ SameEdges second x y
  | .alt left right,x,y => SameEdges left x y ∧ SameEdges right x y
  | .star body,x,y => SameEdges body x y

theorem SameEdges.refl (pattern : Pattern α) (x : Option α) : SameEdges pattern x x := by
  induction pattern <;> simp_all [SameEdges]

theorem SameEdges.head (same : SameEdges pattern rest.head? rest'.head?) (text : List α) :
    SameEdges pattern (text ++ rest).head? (text ++ rest').head? := by
  cases text with
  | nil => exact same
  | cons c text => exact .refl _ _

theorem SameEdges.after (same : SameEdges pattern prev prev') (text : List α) :
    SameEdges pattern (after prev text) (after prev' text) := by
  induction text generalizing prev prev' with
  | nil => exact same
  | cons c text ih => rw [after_cons,after_cons]; exact ih (.refl _ _)

theorem Matches.surrounded (path : Matches pattern prev matched rest) (left : SameEdges pattern prev prev')
    (right : SameEdges pattern rest.head? rest'.head?) : Matches pattern prev' matched rest' := by
  induction path generalizing prev' rest' with
  | empty => exact .empty
  | one ok => exact .one ok
  | edge here =>
      refine .edge ?_
      simp only [SameEdges] at left right
      simpa only [atEdge,left,right] using here
  | seq _ _ one two => exact .seq (one left.1 (right.1.head _)) (two (left.2.after _) right.2)
  | altLeft _ ih => exact .altLeft (ih left.1 right.1)
  | altRight _ ih => exact .altRight (ih left.2 right.2)
  | starNil => exact .starNil
  | starCons _ _ one two => exact .starCons (one left (right.head _)) (two (left.after _) right)

-- What is found on one side of an element that is like an end is found in the whole.
theorem search_beside {pattern : Pattern α} {c : α} (blind : SameEdges pattern none (some c)) {one two : List α}
    (found : search pattern one = true ∨ search pattern two = true) : search pattern (one ++ c :: two) = true := by
  rw [search_exact,search_exact] at found
  rw [search_exact]
  rcases found with ⟨before,matched,rest,rfl,path⟩ | ⟨before,matched,rest,rfl,path⟩
  · refine ⟨before,matched,rest ++ c :: two,by simp,path.surrounded (.refl _ _) ?_⟩
    cases rest with
    | nil => exact blind
    | cons d rest => exact .refl _ _
  · refine ⟨one ++ c :: before,matched,rest,by simp,path.surrounded ?_ (.refl _ _)⟩
    rw [after_append,after_cons]
    have edges : SameEdges pattern (after none before) (after (some c) before) := blind.after before
    exact edges

theorem one_exact : Matches (.one accepts) prev matched rest ↔ ∃ c, matched = [c] ∧ accepts c = true := by
  constructor
  · intro path; cases path with | one ok => exact ⟨_,rfl,ok⟩
  · intro shown
    obtain ⟨c,rfl,ok⟩ := shown
    exact .one ok

theorem many_exact : Matches (many accepts) prev matched rest ↔ ∀ c ∈ matched, accepts c = true := by
  constructor
  · intro path
    generalize same : many accepts = pattern at path
    induction path with
    | starNil => simp
    | starCons head _ _ ih =>
        cases same
        obtain ⟨c,rfl,ok⟩ := one_exact.mp head
        simpa [ok] using ih rfl
    | _ => cases same
  · intro all
    induction matched generalizing prev with
    | nil => exact .starNil
    | cons c matched ih =>
        exact .starCons (one_exact.mpr ⟨c,rfl,all c (by simp)⟩) (ih fun d member => all d (by simp [member]))

theorem edge_exact : Matches (.edge word) prev matched rest ↔ matched = [] ∧ atEdge word prev rest.head? = true := by
  constructor
  · intro path; cases path with | edge here => exact ⟨rfl,here⟩
  · intro shown
    obtain ⟨rfl,here⟩ := shown
    exact .edge here

theorem seqs_nil : Matches (seqs []) prev matched rest ↔ matched = [] := by
  constructor
  · intro path; cases path; rfl
  · rintro rfl; exact .empty

theorem seqs_cons : Matches (seqs (item :: items)) prev matched rest ↔
    ∃ one two, matched = one ++ two ∧ Matches item prev one (two ++ rest) ∧ Matches (seqs items) (after prev one) two rest := by
  constructor
  · intro path; cases path with | seq one two => exact ⟨_,_,rfl,one,two⟩
  · intro shown
    obtain ⟨one,two,rfl,first,second⟩ := shown
    exact .seq first second

theorem one_cons : Matches (seqs (.one accepts :: items)) prev matched rest ↔
    ∃ c tail, matched = c :: tail ∧ accepts c = true ∧ Matches (seqs items) (some c) tail rest := by
  rw [seqs_cons]
  constructor
  · intro shown
    obtain ⟨one,two,rfl,first,second⟩ := shown
    obtain ⟨c,rfl,ok⟩ := one_exact.mp first
    exact ⟨c,two,rfl,ok,second⟩
  · intro shown
    obtain ⟨c,tail,rfl,ok,second⟩ := shown
    exact ⟨[c],tail,rfl,.one ok,second⟩

theorem many_cons : Matches (seqs (many accepts :: items)) prev matched rest ↔
    ∃ one two, matched = one ++ two ∧ (∀ c ∈ one, accepts c = true) ∧ Matches (seqs items) (after prev one) two rest := by
  rw [seqs_cons]
  simp only [many_exact]

theorem edge_cons : Matches (seqs (.edge word :: items)) prev matched rest ↔
    atEdge word prev (matched ++ rest).head? = true ∧ Matches (seqs items) prev matched rest := by
  rw [seqs_cons]
  constructor
  · intro shown
    obtain ⟨one,two,rfl,first,second⟩ := shown
    obtain ⟨rfl,here⟩ := edge_exact.mp first
    exact ⟨here,second⟩
  · intro shown
    obtain ⟨here,second⟩ := shown
    exact ⟨[],matched,rfl,.edge here,second⟩

-- How a sequence of items treats blanks. `solid` items never read one, `run`
-- items read any number of them, `gap` items read at least one. The flag says
-- that an earlier item may already have read a blank.
inductive Laid (separator : α → Bool) : Bool → List (Pattern α) → Prop where
  | nil : Laid separator false []
  | solid : (∀ c, separator c = true → accepts c = false) → Laid separator false items →
      Laid separator open' (.one accepts :: items)
  | tight : (∀ c, separator c = true → accepts c = false) → Laid separator false items →
      Laid separator false (many accepts :: items)
  | run : (∀ c, separator c = true → accepts c = true) → Laid separator true items →
      Laid separator open' (many accepts :: items)
  | gap : (∀ c, separator c = true → accepts c = true) → Laid separator true (many accepts :: items) →
      Laid separator false (plus accepts ++ items)
  | edgeWord : (∀ c, separator c = true → word c = false) → (∀ c, separator c = true → accepts c = false) →
      Laid separator false items → Laid separator open' (.edge word :: .one accepts :: items)
  | edgeEnd : (∀ c, separator c = true → word c = false) → Laid separator false [.edge word]

inductive Framed (separator : α → Bool) : List (Pattern α) → Prop where
  | solid : (∀ c, separator c = true → accepts c = false) → Laid separator false items →
      Framed separator (.one accepts :: items)
  | edge : (∀ c, separator c = true → word c = false) → (∀ c, separator c = true → accepts c = false) →
      Laid separator false items → Framed separator (.edge word :: .one accepts :: items)

theorem Framed.laid (framed : Framed separator items) : Laid separator false items := by
  cases framed with
  | solid no laid => exact .solid no laid
  | edge word no laid => exact .edgeWord word no laid

theorem literal_solid [DecidableEq α] {separator : α → Bool} {d : α} (absent : separator d = false) :
    ∀ c, separator c = true → decide (c = d) = false := by
  intro c blank
  rw [decide_eq_false_iff_not]
  rintro rfl
  rw [absent] at blank; cases blank

theorem laid_literal [DecidableEq α] {separator : α → Bool} (text : List α) (absent : text.any separator = false)
    (laid : Laid separator false items) : Laid separator false (literal text ++ items) := by
  induction text with
  | nil => exact laid
  | cons d text ih =>
      rw [List.any_cons,Bool.or_eq_false_iff] at absent
      exact .solid (literal_solid absent.1) (ih absent.2)

theorem laid_word [DecidableEq α] {separator : α → Bool} (d : α) (text : List α) (absent : (d :: text).any separator = false)
    (laid : Laid separator false items) : Laid separator flag (literal (d :: text) ++ items) := by
  rw [List.any_cons,Bool.or_eq_false_iff] at absent
  exact .solid (literal_solid absent.1) (laid_literal text absent.2 laid)

theorem framed_word [DecidableEq α] {separator : α → Bool} (d : α) (text : List α) (absent : (d :: text).any separator = false)
    (laid : Laid separator false items) : Framed separator (literal (d :: text) ++ items) := by
  rw [List.any_cons,Bool.or_eq_false_iff] at absent
  exact .solid (literal_solid absent.1) (laid_literal text absent.2 laid)

theorem framed_edge [DecidableEq α] {separator : α → Bool} (out : ∀ c, separator c = true → word c = false)
    (d : α) (text : List α) (absent : (d :: text).any separator = false) (laid : Laid separator false items) :
    Framed separator (.edge word :: (literal (d :: text) ++ items)) := by
  rw [List.any_cons,Bool.or_eq_false_iff] at absent
  exact .edge out (literal_solid absent.1) (laid_literal text absent.2 laid)

theorem Laid.agrees (laid : Laid separator flag items) (one : separator c = true) (two : separator d = true) :
    Agrees (seqs items) c d := by
  induction laid with
  | nil => trivial
  | solid no _ ih => exact ⟨(no c one).trans (no d two).symm,ih⟩
  | tight no _ ih => exact ⟨(no c one).trans (no d two).symm,ih⟩
  | run yes _ ih => exact ⟨(yes c one).trans (yes d two).symm,ih⟩
  | gap yes _ ih => exact ⟨(yes c one).trans (yes d two).symm,ih⟩
  | edgeWord out no _ ih => exact ⟨(out c one).trans (out d two).symm,(no c one).trans (no d two).symm,ih⟩
  | edgeEnd out => exact ⟨(out c one).trans (out d two).symm,trivial⟩

variable {separator : α → Bool} {blank : α} {items : List (Pattern α)} {flag : Bool}

theorem Laid.nonempty (laid : Laid separator true items) : ¬ Matches (seqs items) prev [] rest := by
  generalize same : true = flag at laid
  induction laid generalizing prev with
  | nil => cases same
  | solid => intro path; obtain ⟨c,tail,equal,_⟩ := one_cons.mp path; cases equal
  | tight => cases same
  | run _ _ ih =>
      intro path
      obtain ⟨one,two,equal,_,more⟩ := many_cons.mp path
      obtain ⟨rfl,rfl⟩ := List.append_eq_nil_iff.mp equal.symm
      exact ih rfl more
  | gap => cases same
  | edgeWord =>
      intro path
      obtain ⟨c,tail,equal,_⟩ := one_cons.mp (edge_cons.mp path).2
      cases equal
  | edgeEnd => cases same

theorem Framed.nonempty (framed : Framed separator items) : ¬ Matches (seqs items) prev [] rest := by
  intro path
  cases framed with
  | solid => obtain ⟨c,_,equal,_⟩ := one_cons.mp path; cases equal
  | edge => obtain ⟨c,_,equal,_⟩ := one_cons.mp (edge_cons.mp path).2; cases equal

-- The maximal stretches of a text without separators.
def fieldsFrom (separator : α → Bool) : List α → List α → List (List α)
  | [],[] => []
  | word,[] => [word]
  | word,c :: text =>
      if separator c then if word.isEmpty then fieldsFrom separator [] text else word :: fieldsFrom separator [] text
      else fieldsFrom separator (word ++ [c]) text

def fields (separator : α → Bool) (text : List α) : List (List α) := fieldsFrom separator [] text

def joined (blank : α) (words : List (List α)) : List α := [blank].intercalate words

theorem fieldsFrom_append (separator : α → Bool) (word front : List α) (c : α) (tail : List α)
    (cut : separator c = true) :
    fieldsFrom separator word (front ++ c :: tail) = fieldsFrom separator word front ++ fields separator tail := by
  induction front generalizing word with
  | nil => cases word <;> simp [fieldsFrom,fields,cut]
  | cons d front ih =>
      simp only [List.cons_append,fieldsFrom]
      split
      · split <;> simp [ih]
      · exact ih _

-- A separator splits the fields of the text on its left from those on its right.
theorem fields_append (separator : α → Bool) (front : List α) (c : α) (tail : List α) (cut : separator c = true) :
    fields separator (front ++ c :: tail) = fields separator front ++ fields separator tail :=
  fieldsFrom_append separator [] front c tail cut

def settled (separator : α → Bool) (blank c : α) : α := if separator c then blank else c

variable (cut : separator blank = true)
include cut

theorem Laid.outside (laid : Laid separator flag items) (x y : Option α) (left : x = none ∨ x = some blank)
    (right : y = none ∨ y = some blank) : SameEdges (seqs items) x y := by
  have quiet : ∀ {word : α → Bool} {z : Option α}, word blank = false → z = none ∨ z = some blank → z.any word = false := by
    rintro word z no (rfl | rfl) <;> simp [no]
  induction laid with
  | nil => trivial
  | solid _ _ ih => exact ⟨trivial,ih⟩
  | tight _ _ ih => exact ⟨trivial,ih⟩
  | run _ _ ih => exact ⟨trivial,ih⟩
  | gap _ _ ih => exact ⟨trivial,ih⟩
  | edgeWord no _ _ ih => exact ⟨(quiet (no _ cut) left).trans (quiet (no _ cut) right).symm,trivial,ih⟩
  | edgeEnd no => exact ⟨(quiet (no _ cut) left).trans (quiet (no _ cut) right).symm,trivial⟩

-- What accepts no separator cannot read the blank, so it has read before it.
theorem solid_blank (no : ∀ c, separator c = true → accepts c = false) :
    ¬ Matches (seqs (.one accepts :: items)) prev (blank :: tail) rest := by
  intro path
  obtain ⟨c,_,equal,ok,_⟩ := one_cons.mp path
  obtain ⟨rfl,_⟩ := List.cons.inj equal
  simp [no _ cut] at ok

theorem solid_passes (no : ∀ c, separator c = true → accepts c = false)
    (path : Matches (seqs (.one accepts :: items)) prev (front ++ blank :: tail) rest) :
    ∃ d later, front = d :: later ∧ accepts d = true ∧ Matches (seqs items) (some d) (later ++ blank :: tail) rest := by
  cases front with
  | nil => exact absurd path (solid_blank cut no)
  | cons d later =>
      obtain ⟨c,_,equal,ok,more⟩ := one_cons.mp path
      obtain ⟨rfl,rfl⟩ := List.cons.inj equal
      exact ⟨d,later,rfl,ok,more⟩

theorem tight_passes (no : ∀ c, separator c = true → accepts c = false)
    (path : Matches (seqs (many accepts :: items)) prev (front ++ blank :: tail) rest) :
    ∃ one later, front = one ++ later ∧ (∀ c ∈ one, accepts c = true) ∧
      Matches (seqs items) (after prev one) (later ++ blank :: tail) rest := by
  obtain ⟨one,two,equal,all,more⟩ := many_cons.mp path
  rcases List.append_eq_append_iff.mp equal with ⟨extra,rfl,later⟩ | ⟨extra,rfl,rfl⟩
  · cases extra with
    | nil => exact ⟨front,[],by simp,by simpa using all,by simpa [later] using more⟩
    | cons d extra =>
        obtain ⟨rfl,_⟩ := List.cons.inj later
        have ok := all blank (by simp)
        simp [no _ cut] at ok
  · exact ⟨one,extra,rfl,all,more⟩

theorem Laid.ends (laid : Laid separator flag items) : ¬ Matches (seqs items) prev (front ++ [blank]) rest := by
  induction laid generalizing prev front with
  | nil => intro path; simpa using seqs_nil.mp path
  | solid no laid ih =>
      intro path
      obtain ⟨_,_,_,_,more⟩ := solid_passes cut no path
      exact ih more
  | tight no laid ih =>
      intro path
      obtain ⟨_,_,_,_,more⟩ := tight_passes cut no path
      exact ih more
  | run _ laid ih =>
      intro path
      obtain ⟨one,two,equal,all,more⟩ := many_cons.mp path
      rcases List.append_eq_append_iff.mp equal with ⟨extra,rfl,tail⟩ | ⟨extra,rfl,rfl⟩
      · cases extra with
        | nil => subst tail; exact @ih _ [] more
        | cons d extra =>
            obtain ⟨_,none⟩ := List.cons.inj tail
            obtain ⟨rfl,rfl⟩ := List.append_eq_nil_iff.mp none.symm
            exact laid.nonempty more
      · exact ih more
  | gap _ laid ih =>
      intro path
      obtain ⟨c,tail,equal,_,more⟩ := one_cons.mp path
      cases front with
      | nil => obtain ⟨_,rfl⟩ := List.cons.inj equal; exact laid.nonempty more
      | cons d front => obtain ⟨rfl,rfl⟩ := List.cons.inj equal; exact ih more
  | edgeWord _ no laid ih =>
      intro path
      obtain ⟨_,_,_,_,more⟩ := solid_passes cut no (edge_cons.mp path).2
      exact ih more
  | edgeEnd =>
      intro path
      simpa using seqs_nil.mp (edge_cons.mp path).2

-- A blank that follows a blank read by an earlier item can be dropped.
theorem Laid.shed (laid : Laid separator true items) (path : Matches (seqs items) (some blank) (blank :: tail) rest) :
    Matches (seqs items) (some blank) tail rest := by
  generalize same : true = flag at laid
  induction laid generalizing tail with
  | nil => cases same
  | solid no => exact absurd path (solid_blank cut no)
  | tight => cases same
  | run _ _ ih =>
      obtain ⟨one,two,equal,all,more⟩ := many_cons.mp path
      cases one with
      | nil =>
          simp only [List.nil_append] at equal
          subst equal
          exact many_cons.mpr ⟨[],tail,rfl,by simp,ih more rfl⟩
      | cons c one =>
          obtain ⟨rfl,rfl⟩ := List.cons.inj equal
          exact many_cons.mpr ⟨one,two,rfl,fun d member => all d (by simp [member]),by simpa using more⟩
  | gap => cases same
  | edgeWord _ no => exact absurd (edge_cons.mp path).2 (solid_blank cut no)
  | edgeEnd => cases same

theorem Laid.collapse (laid : Laid separator flag items)
    (path : Matches (seqs items) prev (front ++ blank :: blank :: tail) rest) :
    Matches (seqs items) prev (front ++ blank :: tail) rest := by
  induction laid generalizing prev front with
  | nil => simpa using seqs_nil.mp path
  | solid no laid ih =>
      obtain ⟨d,later,rfl,ok,more⟩ := solid_passes cut no path
      exact one_cons.mpr ⟨d,_,rfl,ok,ih more⟩
  | tight no laid ih =>
      obtain ⟨one,later,rfl,all,more⟩ := tight_passes cut no path
      exact many_cons.mpr ⟨one,_,by simp,all,ih more⟩
  | run yes laid ih =>
      obtain ⟨one,two,equal,all,more⟩ := many_cons.mp path
      rcases List.append_eq_append_iff.mp equal with ⟨extra,rfl,later⟩ | ⟨extra,rfl,rfl⟩
      · match extra,later,all,more with
        | [],later,all,more =>
            subst later
            exact many_cons.mpr ⟨front,_,rfl,by simpa using all,@ih _ [] (by simpa using more)⟩
        | [d],later,all,more =>
            -- The items split between the two blanks: the second one is dropped.
            obtain ⟨rfl,rfl⟩ := List.cons.inj later
            refine many_cons.mpr ⟨front ++ [blank],tail,by simp,all,?_⟩
            rw [after_append] at more ⊢
            exact laid.shed cut more
        | d :: e :: extra,later,all,more =>
            obtain ⟨rfl,second⟩ := List.cons.inj later
            obtain ⟨rfl,rfl⟩ := List.cons.inj (second : blank :: tail = e :: (extra ++ two))
            refine many_cons.mpr ⟨front ++ blank :: extra,two,by simp,?_,by simpa [after_append] using more⟩
            intro c member
            exact all c (by simp only [List.mem_append,List.mem_cons] at member ⊢; tauto)
      · exact many_cons.mpr ⟨one,_,by simp,all,ih more⟩
  | gap yes laid ih =>
      obtain ⟨c,_,equal,ok,more⟩ := one_cons.mp path
      cases front with
      | nil =>
          obtain ⟨rfl,rfl⟩ := List.cons.inj equal
          exact one_cons.mpr ⟨_,_,rfl,ok,laid.shed cut more⟩
      | cons d front =>
          obtain ⟨rfl,rfl⟩ := List.cons.inj equal
          exact one_cons.mpr ⟨_,_,rfl,ok,ih more⟩
  | edgeWord _ no laid ih =>
      obtain ⟨here,more⟩ := edge_cons.mp path
      refine edge_cons.mpr ⟨by cases front <;> simpa using here,?_⟩
      obtain ⟨d,later,rfl,ok,more⟩ := solid_passes cut no more
      exact one_cons.mpr ⟨d,_,rfl,ok,ih more⟩
  | edgeEnd => simpa using seqs_nil.mp (edge_cons.mp path).2

theorem Laid.expand (laid : Laid separator flag items)
    (path : Matches (seqs items) prev (front ++ blank :: tail) rest) :
    Matches (seqs items) prev (front ++ blank :: blank :: tail) rest := by
  induction laid generalizing prev front with
  | nil => simpa using seqs_nil.mp path
  | solid no laid ih =>
      obtain ⟨d,later,rfl,ok,more⟩ := solid_passes cut no path
      exact one_cons.mpr ⟨d,_,rfl,ok,ih more⟩
  | tight no laid ih =>
      obtain ⟨one,later,rfl,all,more⟩ := tight_passes cut no path
      exact many_cons.mpr ⟨one,_,by simp,all,ih more⟩
  | run yes laid ih =>
      obtain ⟨one,two,equal,all,more⟩ := many_cons.mp path
      rcases List.append_eq_append_iff.mp equal with ⟨extra,rfl,later⟩ | ⟨extra,rfl,rfl⟩
      · cases extra with
        | nil => subst later; exact many_cons.mpr ⟨front,_,rfl,by simpa using all,by simpa using @ih _ [] (by simpa using more)⟩
        | cons d extra =>
            obtain ⟨rfl,rfl⟩ := List.cons.inj later
            refine many_cons.mpr ⟨front ++ blank :: blank :: extra,two,by simp,?_,by simpa [after_append] using more⟩
            intro c member
            exact all c (by simp only [List.mem_append,List.mem_cons] at member ⊢; tauto)
      · exact many_cons.mpr ⟨one,_,by simp,all,ih more⟩
  | gap yes laid ih =>
      obtain ⟨c,_,equal,ok,more⟩ := one_cons.mp path
      cases front with
      | nil =>
          obtain ⟨rfl,rfl⟩ := List.cons.inj equal
          obtain ⟨one,two,rfl,all,more⟩ := many_cons.mp more
          exact one_cons.mpr ⟨blank,_,rfl,ok,many_cons.mpr ⟨blank :: one,two,rfl,by simpa [yes _ cut] using all,by simpa using more⟩⟩
      | cons d front =>
          obtain ⟨rfl,rfl⟩ := List.cons.inj equal
          exact one_cons.mpr ⟨_,_,rfl,ok,ih more⟩
  | edgeWord _ no laid ih =>
      obtain ⟨here,more⟩ := edge_cons.mp path
      refine edge_cons.mpr ⟨by cases front <;> simpa using here,?_⟩
      obtain ⟨d,later,rfl,ok,more⟩ := solid_passes cut no more
      exact one_cons.mpr ⟨d,_,rfl,ok,ih more⟩
  | edgeEnd => simpa using seqs_nil.mp (edge_cons.mp path).2

theorem Framed.starts (framed : Framed separator items) : ¬ Matches (seqs items) prev (blank :: tail) rest := by
  intro path
  cases framed with
  | solid no => exact solid_blank cut no path
  | edge _ no => exact solid_blank cut no (edge_cons.mp path).2

theorem Framed.found_lead (framed : Framed separator items) (text : List α) :
    Found (seqs items) none (blank :: text) ↔ Found (seqs items) none text := by
  constructor
  · intro shown
    obtain ⟨before,matched,rest,equal,path⟩ := shown
    cases before with
    | nil =>
        cases matched with
        | nil => exact (framed.nonempty path).elim
        | cons c matched => obtain ⟨rfl,_⟩ := List.cons.inj equal; exact (framed.starts cut path).elim
    | cons c before =>
        obtain ⟨rfl,rfl⟩ := List.cons.inj equal
        rw [after_cons] at path
        exact ⟨before,matched,rest,rfl,path.surrounded
          ((framed.laid.outside cut _ _ (.inr rfl) (.inl rfl)).after _) (.refl _ _)⟩
  · intro shown
    obtain ⟨before,matched,rest,rfl,path⟩ := shown
    refine ⟨blank :: before,matched,rest,by simp,?_⟩
    rw [after_cons]
    exact path.surrounded ((framed.laid.outside cut _ _ (.inl rfl) (.inr rfl)).after _) (.refl _ _)

theorem Framed.found_trail (framed : Framed separator items) (text : List α) :
    Found (seqs items) none (text ++ [blank]) ↔ Found (seqs items) none text := by
  constructor
  · intro shown
    obtain ⟨before,matched,rest,equal,path⟩ := shown
    rcases List.eq_nil_or_concat rest with rfl | ⟨rest,c,rfl⟩
    · rcases List.eq_nil_or_concat matched with rfl | ⟨matched,c,rfl⟩
      · exact (framed.nonempty path).elim
      · obtain ⟨_,last⟩ := List.append_inj' (by simpa using equal : text ++ [blank] = (before ++ matched) ++ [c]) rfl
        obtain ⟨rfl,_⟩ := List.cons.inj last
        exact (framed.laid.ends cut (by simpa using path)).elim
    · obtain ⟨rfl,last⟩ := List.append_inj' (by simpa using equal : text ++ [blank] = (before ++ matched ++ rest) ++ [c]) rfl
      obtain ⟨rfl,_⟩ := List.cons.inj last
      refine ⟨before,matched,rest,rfl,path.surrounded (.refl _ _) ?_⟩
      have outside : SameEdges (seqs items) [blank].head? [].head? := framed.laid.outside cut _ _ (.inr rfl) (.inl rfl)
      simpa using outside.head rest
  · intro shown
    obtain ⟨before,matched,rest,rfl,path⟩ := shown
    refine ⟨before,matched,rest ++ [blank],by simp,path.surrounded (.refl _ _) ?_⟩
    have outside : SameEdges (seqs items) [].head? [blank].head? := framed.laid.outside cut _ _ (.inl rfl) (.inr rfl)
    simpa using outside.head rest

theorem Framed.no_blank_head (framed : Framed separator items) (path : Matches (seqs items) prev matched rest)
    (equal : blank :: text = matched ++ rest) : False := by
  cases matched with
  | nil => exact framed.nonempty path
  | cons c matched => obtain ⟨rfl,_⟩ := List.cons.inj equal; exact framed.starts cut path

-- A second blank right after a blank is neither needed nor harmful.
theorem Framed.found_collapse (framed : Framed separator items) (front tail : List α) :
    Found (seqs items) none (front ++ blank :: blank :: tail) ↔ Found (seqs items) none (front ++ blank :: tail) := by
  constructor
  · intro shown
    obtain ⟨before,matched,rest,equal,path⟩ := shown
    rw [List.append_assoc] at equal
    rcases List.append_eq_append_iff.mp equal with ⟨extra,rfl,later⟩ | ⟨extra,rfl,later⟩
    · match extra,later,path with
      | [],later,path => exact (framed.no_blank_head cut path later).elim
      | [_],later,path => exact (framed.no_blank_head cut path (List.cons.inj later).2).elim
      | d :: e :: extra,later,path =>
          obtain ⟨rfl,second⟩ := List.cons.inj later
          obtain ⟨rfl,rfl⟩ := List.cons.inj (second : blank :: tail = e :: (extra ++ (matched ++ rest)))
          exact ⟨front ++ blank :: extra,matched,rest,by simp,by simpa [after_append] using path⟩
    · rcases List.append_eq_append_iff.mp later with ⟨more,rfl,rfl⟩ | ⟨more,rfl,last⟩
      · exact ⟨before,matched,more ++ blank :: tail,by simp,path.surrounded (.refl _ _) (by cases more <;> exact .refl _ _)⟩
      · match more,last,path with
        | [],last,path =>
            simp only [List.nil_append] at last
            subst last
            exact ⟨before,extra,blank :: tail,by simp,by simpa using path.surrounded (.refl _ _) (.refl _ (some blank))⟩
        | [d],last,path =>
            obtain ⟨rfl,_⟩ := List.cons.inj last
            exact (framed.laid.ends cut path).elim
        | d :: e :: more,last,path =>
            obtain ⟨rfl,second⟩ := List.cons.inj last
            obtain ⟨rfl,rfl⟩ := List.cons.inj (second : blank :: tail = e :: (more ++ rest))
            exact ⟨before,extra ++ blank :: more,rest,by simp,framed.laid.collapse cut path⟩
  · intro shown
    obtain ⟨before,matched,rest,equal,path⟩ := shown
    rw [List.append_assoc] at equal
    rcases List.append_eq_append_iff.mp equal with ⟨extra,rfl,later⟩ | ⟨extra,rfl,later⟩
    · cases extra with
      | nil => exact (framed.no_blank_head cut path later).elim
      | cons d extra =>
          obtain ⟨rfl,rfl⟩ := List.cons.inj later
          exact ⟨front ++ blank :: blank :: extra,matched,rest,by simp,by simpa [after_append] using path⟩
    · rcases List.append_eq_append_iff.mp later with ⟨more,rfl,rfl⟩ | ⟨more,rfl,last⟩
      · exact ⟨before,matched,more ++ blank :: blank :: tail,by simp,
          path.surrounded (.refl _ _) (by cases more <;> exact .refl _ _)⟩
      · cases more with
        | nil =>
            simp only [List.nil_append] at last
            subst last
            exact ⟨before,extra,blank :: blank :: tail,by simp,by simpa using path.surrounded (.refl _ _) (.refl _ (some blank))⟩
        | cons d more =>
            obtain ⟨rfl,rfl⟩ := List.cons.inj last
            exact ⟨before,extra ++ blank :: blank :: more,rest,by simp,framed.laid.expand cut path⟩

-- Reading on from `front`, which is empty or ends in a blank, one can put the
-- remaining fields a single blank apart.
theorem Framed.found_fieldsFrom (framed : Framed separator items)
    (text front word : List α) (stop : front = [] ∨ ∃ start, front = start ++ [blank]) :
    Found (seqs items) none (front ++ (word ++ text.map (settled separator blank))) ↔
      Found (seqs items) none (front ++ joined blank (fieldsFrom separator word text)) := by
  induction text generalizing front word with
  | nil => cases word <;> simp [fieldsFrom,joined]
  | cons c text ih =>
      by_cases here : separator c = true
      · simp only [List.map_cons,settled,here,if_true,fieldsFrom]
        cases word with
        | nil =>
            have dropped : Found (seqs items) none (front ++ blank :: text.map (settled separator blank)) ↔
                Found (seqs items) none (front ++ text.map (settled separator blank)) := by
              rcases stop with rfl | ⟨start,rfl⟩
              · exact framed.found_lead cut _
              · simpa using framed.found_collapse cut start (text.map (settled separator blank))
            simpa using dropped.trans (ih front [] stop)
        | cons d word =>
            have next := ih (front ++ d :: word ++ [blank]) [] (.inr ⟨_,rfl⟩)
            cases later : fieldsFrom separator [] text with
            | nil =>
                rw [later] at next
                have trail := framed.found_trail cut (front ++ d :: word)
                simpa [joined,later] using next.trans (by simpa [joined] using trail)
            | cons field more =>
                rw [later] at next
                simpa [joined,later] using next
      · simp only [List.map_cons,settled,here,fieldsFrom]
        simpa using ih front (word ++ [c]) stop

-- Two texts with the same fields give every framed pattern the same verdict.
theorem Framed.search_fields (framed : Framed separator items) (same : fields separator one = fields separator two) :
    search (seqs items) one = search (seqs items) two := by
  have stable : ∀ c, Agrees (seqs items) c (settled separator blank c) := by
    intro c
    unfold settled
    split
    · rename_i here; exact framed.laid.agrees here cut
    · exact .refl _ c
  have normal : ∀ text, search (seqs items) text = true ↔
      Found (seqs items) none (joined blank (fields separator text)) := by
    intro text
    rw [← search_map (seqs items) stable text,search_exact]
    simpa [fields] using framed.found_fieldsFrom cut text [] [] (.inl rfl)
  rw [Bool.eq_iff_iff,normal,normal,same]

end Patterns
