import Kryvaracode.BlockLayout

-- Which characters of a text lie in a comment, or in the docstring of a function.
namespace BlockLayout
open Runs

-- The last line announces the body of the function.
def announced (name : Chars) (reader : Reader) : Bool :=
  match reader.lines.getLast? with
  | none => false
  | some line => decide (line.defined.map Prod.fst = some name) && line.header && decide (line.indent < reader.indent)

def Mode.documenting : Mode → Bool
  | .tripled .double _ | .tripledEscape .double => true
  | _ => false

-- The third mark of a line that holds nothing else opens the docstring.
def opens (name : Chars) (reader : Reader) (c : Char) : Bool :=
  decide (reader.mode = .opening .double true) && decide (c = '"') && reader.brackets.isEmpty &&
    decide (reader.current.length = 2) && announced name reader

structure Watch where
  reader : Reader
  inside : Bool

def Watch.start : Watch := ⟨.start,false⟩

def Watch.feed (name : Chars) (watch : Watch) (c : Char) : Watch :=
  ⟨watch.reader.feed c,(watch.reader.feed c).mode.documenting && (watch.inside || opens name watch.reader c)⟩

-- A text with a mark on each character that is not the template's own.
abbrev Marked := List (Char × Bool)

def fixed (text : Chars) : Marked := text.map fun c => (c,false)
def free (text : Chars) : Marked := text.map fun c => (c,true)

@[simp] theorem fixed_nil : fixed [] = [] := rfl
@[simp] theorem free_nil : free [] = [] := rfl
@[simp] theorem fixed_cons (c : Char) (text : Chars) : fixed (c :: text) = (c,false) :: fixed text := rfl
@[simp] theorem free_cons (c : Char) (text : Chars) : free (c :: text) = (c,true) :: free text := rfl

theorem fixed_append (one two : Chars) : fixed (one ++ two) = fixed one ++ fixed two := List.map_append
theorem free_append (one two : Chars) : free (one ++ two) = free one ++ free two := List.map_append

@[simp] theorem fixed_text (text : Chars) : (fixed text).map Prod.fst = text := by
  simp [fixed,Function.comp_def]

@[simp] theorem free_text (text : Chars) : (free text).map Prod.fst = text := by
  simp [free,Function.comp_def]

section
variable (name : Chars)

def Watch.step (watch : Watch) (c : Char × Bool) : Watch := watch.feed name c.1

-- A marked character has the comment, or the docstring, on both its sides.
def Covered (watch : Watch) (c : Char × Bool) : Prop :=
  c.2 = true → (watch.reader.mode = .comment ∧ (watch.feed name c.1).reader.mode = .comment) ∨
    (watch.inside = true ∧ (watch.feed name c.1).inside = true)

theorem watch_reader (watch : Watch) (text : Marked) :
    (run (Watch.step name) watch text).reader = run Reader.feed watch.reader (text.map Prod.fst) := by
  induction text generalizing watch with
  | nil => rfl
  | cons c rest ih => exact ih (watch.feed name c.1)

theorem covered_unmarked {text : Marked} (none : ∀ c ∈ text, c.2 = false) (watch : Watch) :
    Steps (Watch.step name) (Covered name) watch text :=
  steps_forall (fun c member _ marked => absurd marked (by rw [none c member]; exact Bool.false_ne_true)) watch

theorem covered_fixed (text : Chars) (watch : Watch) : Steps (Watch.step name) (Covered name) watch (fixed text) :=
  covered_unmarked name (by simp [fixed]) watch

theorem covered_from_fixed (text : Chars) (rest : Marked) (watch : Watch) :
    Steps (Watch.step name) (Covered name) watch (fixed text ++ rest) ↔
      Steps (Watch.step name) (Covered name) (run (Watch.step name) watch (fixed text)) rest := by
  rw [steps_append,and_iff_right (covered_fixed name text watch)]

def lineBreak (c : Char) : Bool := c == '\n' || c == '\r'

-- Between two lines, or in a line outside of strings and comments.
def Open (watch : Watch) : Prop :=
  watch.inside = false ∧ watch.reader.returned = false ∧ (watch.reader.mode = .margin ∨ watch.reader.mode = .code)

def Commented (watch : Watch) : Prop :=
  watch.inside = false ∧ watch.reader.returned = false ∧ watch.reader.mode = .comment

-- In a string that no function has for its docstring, or past an error.
def Shut (mark : Mark) (watch : Watch) : Prop :=
  watch.inside = false ∧ watch.reader.returned = false ∧
    (watch.reader.mode = .failed ∨ watch.reader.mode = .tripled mark 0)

theorem feed_outside {watch : Watch} {c : Char} (outside : watch.inside = false)
    (mode : watch.reader.mode ≠ .opening .double true) : (watch.feed name c).inside = false := by
  simp [Watch.feed,outside,opens,mode]

theorem other_returned {reader : Reader} {c : Char} (flat : lineBreak c = false) : (reader.feed c).returned = false := by
  simp only [lineBreak,Bool.or_eq_false_iff,beq_eq_false_iff_ne] at flat
  rw [Reader.feed,if_neg flat.1,if_neg flat.2]

theorem other_mode {reader : Reader} {c : Char} (flat : lineBreak c = false) : (reader.feed c).mode = (reader.other c).mode := by
  simp only [lineBreak,Bool.or_eq_false_iff,beq_eq_false_iff_ne] at flat
  rw [Reader.feed,if_neg flat.1,if_neg flat.2]

theorem plain_flat {c : Char} (its : plain c = true) : lineBreak c = false := by
  obtain ⟨feed,carriage,_⟩ := plain_exact its
  simp [lineBreak,feed,carriage]

theorem lineEnd_open (reader : Reader) : (reader.lineEnd.mode = .margin ∨ reader.lineEnd.mode = .code) ∧
    (reader.returned = false → reader.lineEnd.returned = false) := by
  unfold Reader.lineEnd
  split
  · split <;> exact ⟨.inl rfl,id⟩
  · exact ⟨.inr rfl,id⟩

theorem newline_fed {watch : Watch} (fresh : watch.reader.returned = false) :
    (watch.feed name '\n').reader = watch.reader.newline := by
  simp [Watch.feed,Reader.feed,fresh]

theorem open_newline {watch : Watch} (its : Open watch ∨ Commented watch) : Open (watch.feed name '\n') := by
  have fresh : watch.reader.returned = false := by rcases its with ⟨_,fresh,_⟩ | ⟨_,fresh,_⟩ <;> exact fresh
  have ended := lineEnd_open watch.reader
  have next : (watch.feed name '\n').reader = watch.reader.lineEnd ∨ (watch.feed name '\n').reader = {watch.reader with indent := 0} ∧
      watch.reader.mode = .margin := by
    rw [newline_fed name fresh,Reader.newline]
    rcases its with ⟨_,_,mode | mode⟩ | ⟨_,_,mode⟩ <;> simp [mode]
  refine ⟨feed_outside name ?_ ?_,?_⟩
  · rcases its with ⟨outside,_⟩ | ⟨outside,_⟩ <;> exact outside
  · rcases its with ⟨_,_,mode | mode⟩ | ⟨_,_,mode⟩ <;> simp [mode]
  · rcases next with same | ⟨same,mode⟩
    · rw [same]
      exact ⟨ended.2 fresh,ended.1⟩
    · rw [same]
      exact ⟨fresh,.inl mode⟩

theorem open_plain {watch : Watch} (its : Open watch) {c : Char} (ordinary : plain c = true) : Open (watch.feed name c) := by
  obtain ⟨outside,fresh,mode⟩ := its
  have flat := plain_flat ordinary
  refine ⟨feed_outside name outside (by rcases mode with mode | mode <;> simp [mode]),other_returned flat,?_⟩
  change (watch.reader.feed c).mode = .margin ∨ (watch.reader.feed c).mode = .code
  rw [other_mode flat,Reader.other]
  rcases mode with mode | mode
  · rw [mode]
    dsimp only
    unfold Reader.marginChar
    split
    · exact .inl mode
    split
    · exact .inl mode
    split
    · exact .inl mode
    · rw [code_plain ordinary]
      exact .inr rfl
  · rw [mode]
    dsimp only
    rw [code_plain ordinary]
    exact .inr rfl

theorem open_text {watch : Watch} (its : Open watch) {text : Chars} (all : ∀ c ∈ text, (decide (c = '\n') || plain c) = true) :
    Open (run (Watch.step name) watch (fixed text)) := by
  induction text generalizing watch with
  | nil => exact its
  | cons c rest ih =>
      rw [List.forall_mem_cons] at all
      refine ih ?_ all.2
      rcases Bool.or_eq_true_iff.mp all.1 with line | ordinary
      · rw [of_decide_eq_true line]
        exact open_newline name (.inl its)
      · exact open_plain name its ordinary

theorem open_comment {watch : Watch} (its : Open watch) : Commented (watch.feed name '#') := by
  obtain ⟨outside,_,mode⟩ := its
  refine ⟨feed_outside name outside (by rcases mode with mode | mode <;> simp [mode]),other_returned (by decide),?_⟩
  change (watch.reader.feed '#').mode = .comment
  rw [other_mode (by decide),Reader.other]
  rcases mode with mode | mode <;> rw [mode] <;> rfl

theorem comment_stays {watch : Watch} (its : Commented watch) {c : Char} (flat : lineBreak c = false) : Commented (watch.feed name c) := by
  obtain ⟨outside,_,mode⟩ := its
  refine ⟨feed_outside name outside (by simp [mode]),other_returned flat,?_⟩
  change (watch.reader.feed c).mode = .comment
  rw [other_mode flat,Reader.other,mode]
  exact mode

theorem comment_text {watch : Watch} (its : Commented watch) {text : Marked} (flat : ∀ c ∈ text, lineBreak c.1 = false) :
    Steps (Watch.step name) (Covered name) watch text ∧ Commented (run (Watch.step name) watch text) := by
  induction text generalizing watch with
  | nil => exact ⟨trivial,its⟩
  | cons c rest ih =>
      rw [List.forall_mem_cons] at flat
      have next := comment_stays name its flat.1
      exact ⟨⟨fun _ => .inl ⟨its.2.2,next.2.2⟩,(ih next flat.2).1⟩,(ih next flat.2).2⟩

theorem comment_broken {watch : Watch} (its : Commented watch) {c : Char} (broken : lineBreak c = true) :
    ¬Covered name watch (c,true) := by
  obtain ⟨outside,fresh,mode⟩ := its
  have ended := (lineEnd_open watch.reader).1
  intro covered
  have after : (watch.reader.feed c).mode = watch.reader.lineEnd.mode := by
    simp only [lineBreak,Bool.or_eq_true,beq_iff_eq] at broken
    rcases broken with rfl | rfl
    · simp [Reader.feed,fresh,Reader.newline,mode]
    · simp [Reader.feed,Reader.newline,mode]
  rcases covered rfl with ⟨_,still⟩ | ⟨within,_⟩
  · have same : (watch.reader.feed c).mode = .comment := still
    rw [after] at same
    rcases ended with other | other <;> rw [other] at same <;> cases same
  · rw [outside] at within
    cases within

-- What neither ends a string nor escapes anything.
def calm (mark : Mark) (c : Char) : Bool := c != '\r' && c != '\\' && c != mark.char

theorem plain_calm {c : Char} (mark : Mark) (its : plain c = true) : calm mark c = true := by
  obtain ⟨_,carriage,_,escape,single,double,_⟩ := plain_exact its
  cases mark <;> simp [calm,Mark.char,carriage,escape,single,double]

theorem tripled_calm {reader : Reader} {mark : Mark} {c : Char} (mode : reader.mode = .tripled mark 0)
    (fresh : reader.returned = false) (its : calm mark c = true) :
    (reader.feed c).mode = .tripled mark 0 ∧ (reader.feed c).returned = false := by
  simp only [calm,Bool.and_eq_true,bne_iff_ne] at its
  obtain ⟨⟨carriage,escape⟩,apart⟩ := its
  by_cases line : c = '\n'
  · subst line
    simp [Reader.feed,fresh,Reader.newline,mode,Reader.go]
  · have flat : lineBreak c = false := by simp [lineBreak,line,carriage]
    refine ⟨?_,other_returned flat⟩
    rw [other_mode flat,Reader.other,mode]
    dsimp only
    rw [if_neg apart,if_neg escape]
    rfl

theorem failed_feed {reader : Reader} {c : Char} (mode : reader.mode = .failed) (fresh : reader.returned = false)
    (carriage : c ≠ '\r') : (reader.feed c).mode = .failed ∧ (reader.feed c).returned = false := by
  by_cases line : c = '\n'
  · subst line
    simp [Reader.feed,fresh,Reader.newline,mode,Reader.go]
  · have flat : lineBreak c = false := by simp [lineBreak,line,carriage]
    refine ⟨?_,other_returned flat⟩
    rw [other_mode flat,Reader.other,mode]
    rfl

theorem shut_calm {mark : Mark} {watch : Watch} (its : Shut mark watch) {c : Char} (still : calm mark c = true) :
    Shut mark (watch.feed name c) := by
  obtain ⟨outside,fresh,mode⟩ := its
  refine ⟨feed_outside name outside (by rcases mode with mode | mode <;> simp [mode]),?_⟩
  rcases mode with mode | mode
  · have carriage : c ≠ '\r' := by
      rintro rfl
      cases mark <;> cases still
    obtain ⟨failed,later⟩ := failed_feed mode fresh carriage
    exact ⟨later,.inl failed⟩
  · obtain ⟨within,later⟩ := tripled_calm mode fresh still
    exact ⟨later,.inr within⟩

theorem shut_text {mark : Mark} {watch : Watch} (its : Shut mark watch) {text : Chars} (all : ∀ c ∈ text, calm mark c = true) :
    Shut mark (run (Watch.step name) watch (fixed text)) := by
  induction text generalizing watch with
  | nil => exact its
  | cons c rest ih =>
      rw [List.forall_mem_cons] at all
      exact ih (shut_calm name its all.1) all.2

theorem uncovered {watch : Watch} (outside : watch.inside = false) (mode : watch.reader.mode ≠ .comment) (c : Char) :
    ¬Covered name watch (c,true) := by
  intro covered
  rcases covered rfl with ⟨inside,_⟩ | ⟨inside,_⟩
  · exact mode inside
  · rw [outside] at inside
    cases inside

theorem shut_uncovered {mark : Mark} {watch : Watch} (its : Shut mark watch) (c : Char) : ¬Covered name watch (c,true) := by
  obtain ⟨outside,_,mode⟩ := its
  exact uncovered name outside (by rcases mode with mode | mode <;> simp [mode]) c

theorem open_uncovered {watch : Watch} (its : Open watch) (c : Char) : ¬Covered name watch (c,true) := by
  obtain ⟨outside,_,mode⟩ := its
  exact uncovered name outside (by rcases mode with mode | mode <;> simp [mode]) c

-- Where only nothing is covered.
theorem covered_nothing {watch : Watch} (never : ∀ c, ¬Covered name watch (c,true)) (text : Chars) :
    Steps (Watch.step name) (Covered name) watch (free text) ↔ text = [] := by
  cases text with
  | nil => simp [Steps]
  | cons c rest => simp [Steps,never c]

-- The start of a comment, with what the template writes before a free text.
def remark (depth : Nat) (more : Chars) : Chars := List.replicate depth ' ' ++ '#' :: more

-- States that a commented line comes back to, and the texts it may have.
structure Lane (K : Watch → Prop) (Good : Chars → Prop) : Prop where
  blank : Good []
  single : ∀ text, Good text → '\n' ∉ text
  fits : ∀ watch, K watch → ∀ depth more, (∀ c ∈ more, plain c = true) → ∀ text, Good text →
    Steps (Watch.step name) (Covered name) watch (fixed (remark depth more) ++ free text) ∧
      K (run (Watch.step name) watch (fixed (remark depth more) ++ free text ++ fixed ['\n']))
  fails : ∀ watch, K watch → ∀ depth more, (∀ c ∈ more, plain c = true) → ∀ text, ¬Good text →
    ∃ one c two, text = one ++ c :: two ∧ '\n' ∉ one ∧
      ¬Steps (Watch.step name) (Covered name) watch (fixed (remark depth more) ++ free one ++ [(c,true)])

theorem first_break {text : Chars} (broken : ¬∀ c ∈ text, lineBreak c = false) :
    ∃ one c two, text = one ++ c :: two ∧ (∀ d ∈ one, lineBreak d = false) ∧ lineBreak c = true := by
  induction text with
  | nil => exact absurd (by simp) broken
  | cons c rest ih =>
      cases here : lineBreak c with
      | true => exact ⟨[],c,rest,rfl,by simp,here⟩
      | false =>
          have later : ¬∀ d ∈ rest, lineBreak d = false := fun flat => broken (List.forall_mem_cons.mpr ⟨here,flat⟩)
          obtain ⟨one,d,two,rfl,flat,found⟩ := ih later
          exact ⟨c :: one,d,two,rfl,List.forall_mem_cons.mpr ⟨here,flat⟩,found⟩

theorem remark_commented {watch : Watch} (its : Open watch) (depth : Nat) {more : Chars} (all : ∀ c ∈ more, plain c = true) :
    Commented (run (Watch.step name) watch (fixed (remark depth more))) := by
  have spaces := open_text name its fun c (member : c ∈ List.replicate depth ' ') => by
    rw [List.eq_of_mem_replicate member]
    rfl
  have started := open_comment name spaces
  have flat : ∀ c ∈ fixed more, lineBreak c.1 = false := by
    intro c member
    obtain ⟨d,inside,rfl⟩ := List.mem_map.mp member
    exact plain_flat (all d inside)
  rw [remark,fixed_append,run_append]
  exact (comment_text name started flat).2

theorem openLane : Lane name Open fun text => ∀ c ∈ text, lineBreak c = false where
  blank := by simp
  single text flat line := by cases flat '\n' line
  fits watch its depth more all text flat := by
    have marked : ∀ c ∈ free text, lineBreak c.1 = false := by
      intro c member
      obtain ⟨d,inside,rfl⟩ := List.mem_map.mp member
      exact flat d inside
    obtain ⟨covered,still⟩ := comment_text name (remark_commented name its depth all) marked
    refine ⟨(covered_from_fixed name _ _ watch).mpr covered,?_⟩
    rw [run_append,run_append]
    exact open_newline name (.inr still)
  fails watch its depth more all text broken := by
    obtain ⟨one,c,two,rfl,flat,found⟩ := first_break broken
    refine ⟨one,c,two,rfl,fun line => ?_,?_⟩
    · cases flat '\n' line
    · have marked : ∀ d ∈ free one, lineBreak d.1 = false := by
        intro d member
        obtain ⟨e,inside,rfl⟩ := List.mem_map.mp member
        exact flat e inside
      rw [List.append_assoc,covered_from_fixed,steps_append]
      rintro ⟨_,last,_⟩
      exact comment_broken name (comment_text name (remark_commented name its depth all) marked).2 found last

theorem remark_calm (mark : Mark) (depth : Nat) {more : Chars} (all : ∀ c ∈ more, plain c = true) :
    ∀ c ∈ remark depth more, calm mark c = true := by
  intro c member
  simp only [remark,List.mem_append,List.mem_cons] at member
  rcases member with space | rfl | member
  · rw [List.eq_of_mem_replicate space]
    cases mark <;> rfl
  · cases mark <;> rfl
  · exact plain_calm mark (all c member)

theorem shutLane (mark : Mark) : Lane name (Shut mark) fun text => text = [] where
  blank := rfl
  single text empty := by simp [empty]
  fits watch its depth more all text empty := by
    subst empty
    have still : ∀ c ∈ remark depth more ++ ['\n'], calm mark c = true := by
      intro c member
      rcases List.mem_append.mp member with inside | last
      · exact remark_calm mark depth all c inside
      · cases List.mem_singleton.mp last
        cases mark <;> rfl
    rw [free_nil,List.append_nil,← fixed_append]
    exact ⟨covered_fixed name _ watch,shut_text name its still⟩
  fails watch its depth more all text some' := by
    cases text with
    | nil => exact absurd rfl some'
    | cons c rest =>
        refine ⟨[],c,rest,rfl,by simp,?_⟩
        rw [free_nil,List.append_nil,covered_from_fixed]
        rintro ⟨covered,_⟩
        exact shut_uncovered name (shut_text name its (remark_calm mark depth all)) c covered

-- How a string between three double quotes goes on; None where it ends. The
-- state is an escape just read, or so many quotes in a row.
def stays (escaped : Bool) (seen : Nat) (c : Char) : Option (Bool × Nat) :=
  if escaped then some (false,0)
  else if c = '"' then if seen = 2 then none else some (false,seen + 1)
  else if c = '\\' then some (true,0) else some (false,0)

-- No three double quotes in a row, none of them escaped.
def tripleFree : Bool → Nat → Chars → Bool
  | _,_,[] => true
  | escaped,seen,c :: rest =>
      match stays escaped seen c with
      | none => false
      | some next => tripleFree next.1 next.2 rest

structure InString (watch : Watch) (escaped : Bool) (seen : Nat) : Prop where
  mode : watch.reader.mode = if escaped then .tripledEscape .double else .tripled .double seen
  fresh : watch.reader.returned = true → escaped = false ∧ seen = 0

theorem feed_inside {watch : Watch} {c : Char} (inside : watch.inside = true) :
    (watch.feed name c).inside = (watch.reader.feed c).mode.documenting := by
  simp [Watch.feed,inside]

theorem string_feed {watch : Watch} {escaped : Bool} {seen : Nat} (its : InString watch escaped seen) (c : Char) :
    match stays escaped seen c with
    | none => (watch.reader.feed c).mode = .code ∧ (watch.reader.feed c).returned = false
    | some next => InString (watch.feed name c) next.1 next.2 := by
  obtain ⟨mode,fresh⟩ := its
  rcases watch with ⟨⟨_,brackets,indent,current,lines,returned⟩,inside⟩
  dsimp only at mode fresh
  subst mode
  by_cases line : c = '\n'
  · subst line
    have next : stays escaped seen '\n' = some (false,0) := by cases escaped <;> rfl
    rw [next]
    cases returned with
    | false => cases escaped <;> exact ⟨rfl,fun returned => by cases returned⟩
    | true =>
        obtain ⟨rfl,rfl⟩ := fresh rfl
        exact ⟨rfl,fun returned => by cases returned⟩
  by_cases carriage : c = '\r'
  · subst carriage
    have next : stays escaped seen '\r' = some (false,0) := by cases escaped <;> rfl
    rw [next]
    cases escaped <;> exact ⟨rfl,fun _ => ⟨rfl,rfl⟩⟩
  have flat : lineBreak c = false := by simp [lineBreak,line,carriage]
  have later : ∀ reader : Reader, (reader.feed c).returned = true → False := fun reader returned => by
    rw [other_returned flat] at returned
    cases returned
  cases escaped with
  | true => exact ⟨by change (Reader.feed _ c).mode = _; rw [other_mode flat]; rfl,fun returned => (later _ returned).elim⟩
  | false =>
      unfold stays
      rw [if_neg Bool.false_ne_true]
      by_cases quote : c = '"'
      · subst quote
        rw [if_pos rfl]
        by_cases last : seen = 2
        · subst last
          rw [if_pos rfl]
          exact ⟨rfl,rfl⟩
        · rw [if_neg last]
          refine ⟨?_,fun returned => (later _ returned).elim⟩
          change (Reader.feed _ '"').mode = _
          rw [other_mode flat]
          simp [Reader.other,Mark.char,last,Reader.push]
      · rw [if_neg quote]
        by_cases escape : c = '\\'
        · subst escape
          rw [if_pos rfl]
          exact ⟨rfl,fun returned => (later _ returned).elim⟩
        · rw [if_neg escape]
          refine ⟨?_,fun returned => (later _ returned).elim⟩
          change (Reader.feed _ c).mode = _
          rw [other_mode flat]
          simp [Reader.other,Mark.char,quote,escape,Reader.push]

theorem string_documenting {watch : Watch} {escaped : Bool} {seen : Nat} (its : InString watch escaped seen) :
    watch.reader.mode.documenting = true := by
  rw [its.mode]
  cases escaped <;> rfl

theorem string_text {text : Chars} {watch : Watch} {escaped : Bool} {seen : Nat} (its : InString watch escaped seen)
    (inside : watch.inside = true) :
    (Steps (Watch.step name) (Covered name) watch (free text) ↔ tripleFree escaped seen text = true) ∧
      (tripleFree escaped seen text = true → ∃ escaped seen, InString (run (Watch.step name) watch (free text)) escaped seen) := by
  induction text generalizing watch escaped seen with
  | nil => exact ⟨by simp [Steps,tripleFree],fun _ => ⟨escaped,seen,its⟩⟩
  | cons c rest ih =>
      have fed := string_feed name its c
      have kept := feed_inside name (c := c) inside
      have outside : watch.reader.mode ≠ .comment := by
        rw [its.mode]
        cases escaped <;> exact fun same => by cases same
      rw [free_cons,tripleFree,run_cons,Steps]
      cases next : stays escaped seen c with
      | none =>
          rw [next] at fed
          have gone : (watch.feed name c).inside = false := by rw [kept,fed.1]; rfl
          refine ⟨?_,fun free => by cases free⟩
          refine iff_of_false ?_ Bool.false_ne_true
          rintro ⟨covered,_⟩
          rcases covered rfl with ⟨comment,_⟩ | ⟨_,still⟩
          · exact outside comment
          · rw [gone] at still
            cases still
      | some after =>
          rw [next] at fed
          have still : (watch.feed name c).inside = true := kept.trans (string_documenting fed)
          obtain ⟨exactly,ends⟩ := ih fed still
          have covered : Covered name watch (c,true) := fun _ => .inr ⟨inside,still⟩
          exact ⟨by rw [and_iff_right covered]; exact exactly,ends⟩

def quotes : Chars := ['"','"','"']

-- A docstring can open: a new line, and the function's header before it.
def signed (reader : Reader) : Bool := reader.brackets.isEmpty && reader.current.isEmpty && announced name reader

theorem open_quotes {watch : Watch} (its : Open watch) :
    (run (Watch.step name) watch (fixed quotes)).reader.mode = .tripled .double 0 ∧
      (run (Watch.step name) watch (fixed quotes)).reader.returned = false ∧
      (run (Watch.step name) watch (fixed quotes)).inside = signed name watch.reader := by
  rcases watch with ⟨⟨mode,brackets,indent,current,lines,returned⟩,inside⟩
  obtain ⟨outside,fresh,mode⟩ := its
  dsimp only at outside fresh mode
  subst outside fresh
  have count : decide ((('"' : Char) :: '"' :: current).length = 2) = current.isEmpty := by cases current <;> simp
  have opened : opens name ⟨.opening .double true,brackets,indent,'"' :: '"' :: current,lines,false⟩ '"' =
      signed name ⟨.margin,brackets,indent,current,lines,false⟩ := by
    simp only [opens,count,signed,decide_true,Bool.true_and]
    rfl
  rcases mode with rfl | rfl
  · exact ⟨rfl,rfl,opened⟩
  · exact ⟨rfl,rfl,opened⟩

theorem string_calm {watch : Watch} (mode : watch.reader.mode = .tripled .double 0) (fresh : watch.reader.returned = false)
    {text : Chars} (all : ∀ c ∈ text, calm .double c = true) :
    (run (Watch.step name) watch (fixed text)).reader.mode = .tripled .double 0 ∧
      (run (Watch.step name) watch (fixed text)).reader.returned = false ∧
      (run (Watch.step name) watch (fixed text)).inside = watch.inside := by
  induction text generalizing watch with
  | nil => exact ⟨mode,fresh,rfl⟩
  | cons c rest ih =>
      rw [List.forall_mem_cons] at all
      have fed : (watch.feed name c).reader.mode = .tripled .double 0 ∧ (watch.feed name c).reader.returned = false :=
        tripled_calm mode fresh all.1
      have kept : (watch.feed name c).inside = watch.inside := by
        simp [Watch.feed,tripled_calm mode fresh all.1,Mode.documenting,opens,mode]
      obtain ⟨mode',fresh',inside'⟩ := ih fed.1 fed.2 all.2
      exact ⟨mode',fresh',inside'.trans kept⟩

-- Behind a character that neither announces a block nor is blank.
def Ended (watch : Watch) : Prop :=
  watch.inside = false ∧ watch.reader.returned = false ∧ watch.reader.mode = .code ∧
    ∃ c rest, watch.reader.current = c :: rest ∧ c ≠ ' ' ∧ c ≠ ':'

-- Where no docstring can open.
def Unsigned (watch : Watch) : Prop :=
  watch.inside = false ∧ watch.reader.returned = false ∧
    ((watch.reader.mode = .margin ∧ ∀ line, watch.reader.lines.getLast? = some line → line.header = false) ∨
      (watch.reader.mode = .code ∧ watch.reader.brackets ≠ []))

theorem Ended.open {watch : Watch} (its : Ended watch) : Open watch := ⟨its.1,its.2.1,.inr its.2.2.1⟩

theorem Unsigned.open {watch : Watch} (its : Unsigned watch) : Open watch :=
  ⟨its.1,its.2.1,its.2.2.imp And.left And.left⟩

theorem Unsigned.signed {watch : Watch} (its : Unsigned watch) : signed name watch.reader = false := by
  obtain ⟨_,_,⟨_,flat⟩ | ⟨_,some'⟩⟩ := its
  · unfold BlockLayout.signed announced
    cases last : watch.reader.lines.getLast? with
    | none => simp
    | some line => simp [flat line last]
  · simp [BlockLayout.signed,some']

theorem string_quotes {watch : Watch} (mode : watch.reader.mode = .tripled .double 0) (fresh : watch.reader.returned = false) :
    Ended (run (Watch.step name) watch (fixed quotes)) := by
  rcases watch with ⟨⟨_,brackets,indent,current,lines,_⟩,inside⟩
  dsimp only at mode fresh
  subst mode fresh
  exact ⟨rfl,rfl,rfl,'"','"' :: '"' :: current,rfl,by decide,by decide⟩

theorem string_newline {watch : Watch} {escaped : Bool} {seen : Nat} (its : InString watch escaped seen) :
    (watch.feed name '\n').reader.mode = .tripled .double 0 ∧ (watch.feed name '\n').reader.returned = false := by
  rcases watch with ⟨⟨_,brackets,indent,current,lines,returned⟩,inside⟩
  obtain ⟨mode,fresh⟩ := its
  dsimp only at mode fresh
  subst mode
  cases returned with
  | false => cases escaped <;> exact ⟨rfl,rfl⟩
  | true =>
      obtain ⟨rfl,rfl⟩ := fresh rfl
      exact ⟨rfl,rfl⟩

theorem ended_newline {watch : Watch} (its : Ended watch) : Unsigned (watch.feed name '\n') := by
  obtain ⟨outside,fresh,mode,c,rest,current,blank,colon⟩ := its
  refine ⟨feed_outside name outside (by simp [mode]),?_⟩
  rw [newline_fed name fresh,Reader.newline,mode]
  dsimp only
  unfold Reader.lineEnd
  rw [current]
  split
  · rw [if_neg (List.cons_ne_nil c rest)]
    refine ⟨fresh,.inl ⟨rfl,fun line last => ?_⟩⟩
    rw [List.getLast?_concat] at last
    cases last
    simp [Line.header,blank,colon]
  · rename_i some'
    exact ⟨fresh,.inr ⟨rfl,some'⟩⟩

theorem unsigned_blank {watch : Watch} (its : Unsigned watch) {text : Chars} (blank : ∀ c ∈ text, c = ' ' ∨ c = '\n') :
    Unsigned (run (Watch.step name) watch (fixed text)) := by
  induction text generalizing watch with
  | nil => exact its
  | cons c rest ih =>
      rw [List.forall_mem_cons] at blank
      refine ih ?_ blank.2
      rcases watch with ⟨⟨_,brackets,indent,current,lines,_⟩,_⟩
      obtain ⟨outside,fresh,mode⟩ := its
      dsimp only at outside fresh mode
      subst outside fresh
      rcases mode with ⟨rfl,flat⟩ | ⟨rfl,some'⟩
      · rcases blank.1 with rfl | rfl
        · exact ⟨rfl,rfl,.inl ⟨rfl,flat⟩⟩
        · exact ⟨rfl,rfl,.inl ⟨rfl,flat⟩⟩
      · rcases blank.1 with rfl | rfl
        · exact ⟨rfl,rfl,.inr ⟨rfl,some'⟩⟩
        · have next : Reader.feed ⟨.code,brackets,indent,current,lines,false⟩ '\n' = ⟨.code,brackets,indent,current,lines,false⟩ := by
            change Reader.lineEnd _ = _
            unfold Reader.lineEnd
            rw [if_neg some']
            rfl
          have same : Watch.step name ⟨⟨.code,brackets,indent,current,lines,false⟩,false⟩ ('\n',false) =
              ⟨⟨.code,brackets,indent,current,lines,false⟩,false⟩ := by
            simp [Watch.step,Watch.feed,next,Mode.documenting]
          rw [same]
          exact ⟨rfl,rfl,.inr ⟨rfl,some'⟩⟩

theorem plain_ended {watch : Watch} (its : Open watch) {text : Chars} (all : ∀ c ∈ text, plain c = true) {c : Char}
    (ordinary : plain c = true) (apart : c ≠ ' ' ∧ c ≠ ':' ∧ c ≠ '\t' ∧ c ≠ '\x0c') :
    Ended (run (Watch.step name) watch (fixed (text ++ [c]))) := by
  obtain ⟨blank,colon,tab,page⟩ := apart
  have before := open_text name its fun d (member : d ∈ text) => by rw [all d member,Bool.or_true]
  rw [fixed_append,run_append]
  generalize run (Watch.step name) watch (fixed text) = reached at before ⊢
  have still := open_plain name before ordinary
  have read : (reached.reader.other c) = reached.reader.push .code c := by
    unfold Reader.other
    rcases before.2.2 with mode | mode
    · rw [mode]
      dsimp only
      rw [Reader.marginChar,if_neg blank,if_neg tab,if_neg page,code_plain ordinary]
    · rw [mode]
      exact code_plain ordinary _
  have fed : reached.reader.feed c = {reached.reader.push .code c with returned := false} := by
    obtain ⟨line,carriage,_⟩ := plain_exact ordinary
    rw [Reader.feed,if_neg line,if_neg carriage,read]
  refine ⟨still.1,still.2.1,?_,c,reached.reader.current,?_,blank,colon⟩
  · change (reached.reader.feed c).mode = .code
    rw [fed]
    rfl
  · change (reached.reader.feed c).current = _
    rw [fed]
    rfl

-- Behind a colon, a line feed and blanks.
inductive Arrived (watch : Watch) : Prop where
  | outside (its : Open watch)
  | stuck (its : Shut .single watch)
  | within (mode : watch.reader.mode = .tripled .double 0) (fresh : watch.reader.returned = false)

theorem feed_documenting {watch : Watch} {c : Char} (none : (watch.reader.feed c).mode.documenting = false) :
    (watch.feed name c).inside = false := by
  simp [Watch.feed,none]

-- What a colon can leave open.
inductive Behind (mode : Mode) : Prop where
  | plain (its : mode = .code ∨ mode = .comment)
  | broken (its : mode = .failed ∨ ∃ mark, mode = .quoted mark)
  | tripled (mark : Mark) (its : mode = .tripled mark 0)

theorem colon_behind (watch : Watch) : Behind (watch.feed name ':').reader.mode := by
  rcases watch with ⟨⟨mode,brackets,indent,current,lines,returned⟩,inside⟩
  cases mode with
  | margin => exact .plain (.inl rfl)
  | code => exact .plain (.inl rfl)
  | comment => exact .plain (.inr rfl)
  | joined => exact .broken (.inl rfl)
  | opening mark again =>
      cases again with
      | false => exact .broken (.inr ⟨mark,by cases mark <;> rfl⟩)
      | true => exact .plain (.inl (by cases mark <;> rfl))
  | quoted mark => exact .broken (.inr ⟨mark,by cases mark <;> rfl⟩)
  | quotedEscape mark => exact .broken (.inr ⟨mark,rfl⟩)
  | tripled mark seen => exact .tripled mark (by cases mark <;> rfl)
  | tripledEscape mark => exact .tripled mark rfl
  | failed => exact .broken (.inl rfl)

theorem newline_ended {watch : Watch} (fresh : watch.reader.returned = false)
    (mode : watch.reader.mode = .code ∨ watch.reader.mode = .comment) : Open (watch.feed name '\n') := by
  have fed := newline_fed name fresh
  have ended := lineEnd_open watch.reader
  have same : watch.reader.newline = watch.reader.lineEnd := by
    rw [Reader.newline]
    rcases mode with mode | mode <;> rw [mode]
  rw [same] at fed
  refine ⟨feed_documenting name ?_,?_⟩
  · change (watch.feed name '\n').reader.mode.documenting = false
    rw [fed]
    rcases ended.1 with same | same <;> rw [same] <;> rfl
  · rw [fed]
    exact ⟨ended.2 fresh,ended.1⟩

theorem newline_shut {watch : Watch} {mode : Mode} (fresh : watch.reader.returned = false)
    (next : watch.reader.newline = watch.reader.go mode) (its : mode = .failed ∨ mode = .tripled .single 0) :
    Shut .single (watch.feed name '\n') := by
  have fed := (newline_fed name fresh).trans next
  refine ⟨feed_documenting name ?_,?_⟩
  · change (watch.feed name '\n').reader.mode.documenting = false
    rw [fed]
    rcases its with rfl | rfl <;> rfl
  · rw [fed]
    exact ⟨fresh,its⟩

theorem colon_newline (watch : Watch) : Arrived ((watch.feed name ':').feed name '\n') := by
  have colon := colon_behind name watch
  have fresh : (watch.feed name ':').reader.returned = false := other_returned (by decide)
  generalize watch.feed name ':' = before at colon fresh
  cases colon with
  | plain its => exact .outside (newline_ended name fresh its)
  | broken its =>
      have next : before.reader.newline = before.reader.go .failed := by
        rw [Reader.newline]
        rcases its with mode | ⟨mark,mode⟩ <;> rw [mode]
      exact .stuck (newline_shut name fresh next (.inl rfl))
  | tripled mark mode =>
      have next : before.reader.newline = before.reader.go (.tripled mark 0) := by rw [Reader.newline,mode]
      cases mark with
      | single => exact .stuck (newline_shut name fresh next (.inr rfl))
      | double =>
          have fed := (newline_fed name fresh).trans next
          exact .within (by rw [fed]; rfl) (by rw [fed]; exact fresh)

theorem arrived_spaces {watch : Watch} (its : Arrived watch) (depth : Nat) :
    Arrived (run (Watch.step name) watch (fixed (List.replicate depth ' '))) := by
  have spaces : ∀ mark : Mark, ∀ c ∈ List.replicate depth ' ', calm mark c = true := by
    intro mark c member
    rw [List.eq_of_mem_replicate member]
    cases mark <;> rfl
  cases its with
  | outside its =>
      refine .outside (open_text name its fun c member => ?_)
      rw [List.eq_of_mem_replicate member]
      rfl
  | stuck its => exact .stuck (shut_text name its (spaces .single))
  | within mode fresh =>
      obtain ⟨mode,fresh,_⟩ := string_calm name mode fresh (spaces .double)
      exact .within mode fresh

end

end BlockLayout
