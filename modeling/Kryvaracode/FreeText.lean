import Kryvaracode.Docstrings
import Kryvaracode.Synthesizer

namespace Kryvaracode.Synthesizer
open UnicodeText ToolVerifier ForgeManager BlockLayout Runs

variable (tables : Tables) (repr : Text → Text)

-- The generated text once more, now with a mark on what is copied from the
-- description, the hint and the lessons. Cutting into lines keeps the marks.
def markedLine (line : Marked) : Marked := if strip (line.map Prod.fst) ≠ [] then fixed margin ++ line else line

def indentedFrom (line : Marked) : Marked → Marked
  | [] => markedLine line
  | c :: rest => if c.1 = '\n' then markedLine line ++ c :: indentedFrom [] rest else indentedFrom (line ++ [c]) rest

def laterLines (params : List Text) : List Text :=
  ["result = \x7b'status': 'success', 'data': \x7b\x7d\x7d".toList] ++ params.flatMap (paramLines repr) ++ ["return result".toList]

def markedBody (logicHint : Text) (params : List Text) : Marked :=
  indentedFrom [] (fixed "# Logic synthesized from hint: ".toList ++ free logicHint ++
    fixed ('\n' :: newline.intercalate (laterLines repr params)))

def markedLesson (lesson : Text) : Marked := fixed "    # - ".toList ++ free lesson ++ fixed newline

def markedLessons (lessons : Option (List Text)) : Marked :=
  match lessons.getD [] with
  | [] => []
  | lesson :: rest => indentedFrom [] (fixed "    # LEARNED CONSTRAINTS:\n".toList ++ (lesson :: rest).flatMap markedLesson)

def markedDescription : Option Text → Marked
  | some description => free description
  | none => fixed "Synthesized tool implementation.".toList

def signature (spec : Spec) : Text :=
  determineImports tables (spec.logicHint.getD []) ++ "\n\ndef execute(".toList ++ argsStr spec.parameters ++ ") -> Any".toList

def arrow : Text := [':','\n'] ++ List.replicate 4 ' '
def quoteLine : Text := quotes ++ ['\n'] ++ List.replicate 4 ' '
def tryLine : Text := ['\n'] ++ List.replicate 4 ' ' ++ quotes ++ "\n    try:\n".toList

def synthesizeMarked (spec : Spec) (lessons : Option (List Text)) : Marked :=
  fixed (signature tables spec ++ arrow) ++ fixed quoteLine ++ markedDescription spec.description ++ fixed tryLine ++
    (markedLessons lessons ++ (markedBody repr (spec.logicHint.getD []) (spec.parameters.map Prod.fst) ++ fixed closing))

theorem markedLine_text (line : Marked) : (markedLine line).map Prod.fst = indentLine (line.map Prod.fst) := by
  unfold markedLine indentLine
  split <;> simp

theorem indentedFrom_text (line text : Marked) (single : '\n' ∉ line.map Prod.fst) :
    (indentedFrom line text).map Prod.fst = indented ((line ++ text).map Prod.fst) := by
  induction text generalizing line with
  | nil => rw [indentedFrom,markedLine_text,List.append_nil,indented_line single]
  | cons c rest ih =>
      rw [indentedFrom]
      split
      · rename_i newline
        have later := ih [] (by simp)
        have whole : (line ++ c :: rest).map Prod.fst = line.map Prod.fst ++ '\n' :: rest.map Prod.fst := by simp [newline]
        rw [whole,indented_append,indented_line single,List.map_append,List.map_cons,later,markedLine_text,newline]
        rfl
      · rename_i other
        rw [ih (line ++ [c]) (by simpa [single] using Ne.symm other),List.append_assoc]
        rfl

theorem body_text (logicHint : Text) (params : List Text) :
    (markedBody repr logicHint params).map Prod.fst = indented (generateLogicBody repr logicHint params) := by
  have lines : startLines logicHint ++ params.flatMap (paramLines repr) ++ ["return result".toList] =
      ["# Logic synthesized from hint: ".toList ++ logicHint] ++ laterLines repr params := by
    simp only [startLines,laterLines,List.cons_append,List.nil_append]
  rw [markedBody,indentedFrom_text _ _ (by simp),generateLogicBody,lines,intercalate_append (by simp) (by simp [laterLines]),
    List.intercalate_singleton]
  simp

theorem intercalate_lines (line : Text) (rest : List Text) :
    newline.intercalate (line :: rest) ++ newline = (line :: rest).flatMap fun line => line ++ newline := by
  induction rest generalizing line with
  | nil => simp
  | cons next rest ih =>
      rw [List.intercalate_cons_cons,List.append_assoc,ih next,List.flatMap_cons]
      rfl

theorem lessons_text (lessons : Option (List Text)) : (markedLessons lessons).map Prod.fst = indentedLessons lessons := by
  unfold markedLessons indentedLessons lessonBlock
  cases lessons.getD [] with
  | nil => rfl
  | cons lesson rest =>
      have block : "    # LEARNED CONSTRAINTS:\n".toList ++
          newline.intercalate ((lesson :: rest).map fun lesson => "    # - ".toList ++ lesson) ++ newline =
            (fixed "    # LEARNED CONSTRAINTS:\n".toList ++ (lesson :: rest).flatMap markedLesson).map Prod.fst := by
        rw [List.append_assoc,List.map_cons,intercalate_lines,← List.map_cons (f := fun lesson => "    # - ".toList ++ lesson),
          List.flatMap_map,List.map_append,fixed_text,List.map_flatMap]
        simp only [markedLesson,List.map_append,fixed_text,free_text]
      dsimp only
      rw [block,indentedFrom_text _ _ (by simp),List.nil_append]
      split
      · rename_i empty
        have some' := congrArg List.length (block.trans empty)
        simp [newline] at some'
      · rename_i whole
        rw [whole]

theorem description_text (description : Option Text) : (markedDescription description).map Prod.fst =
    description.getD "Synthesized tool implementation.".toList := by
  cases description with
  | none => exact fixed_text _
  | some description => exact free_text description

-- Without its marks the text is what the synthesizer returns.
theorem synthesizeMarked_text (spec : Spec) (lessons : Option (List Text)) :
    (synthesizeMarked tables repr spec lessons).map Prod.fst = synthesize tables repr spec lessons := by
  have front : arrow ++ quoteLine = ":\n    \"\"\"\n    ".toList := by
    rewrite [String.toList_ofList]
    rfl
  have behind : tryLine = "\n    \"\"\"\n    try:\n".toList := by
    delta tryLine
    repeat rewrite [String.toList_ofList]
    rfl
  have header : ") -> Any".toList ++ ":\n    \"\"\"\n    ".toList = ") -> Any:\n    \"\"\"\n    ".toList := by
    repeat rewrite [String.toList_ofList]
    rfl
  have opened : signature tables spec ++ arrow ++ quoteLine = determineImports tables (spec.logicHint.getD []) ++
      "\n\ndef execute(".toList ++ argsStr spec.parameters ++ ") -> Any:\n    \"\"\"\n    ".toList := by
    rw [List.append_assoc,front,signature,List.append_assoc,header]
  rw [synthesizeMarked,synthesize,opening,← opened,← behind]
  simp only [List.map_append,fixed_text,description_text,lessons_text,body_text,List.append_assoc]

theorem strip_inked {line : Text} (member : c ∈ line) (inked : space c = false) : strip line ≠ [] := by
  intro blank
  obtain ⟨front,back,whole,left,right⟩ := strip_parts line
  rw [blank,List.append_nil] at whole
  rw [whole,List.mem_append] at member
  rcases member with before | behind
  · rw [left c before] at inked
    cases inked
  · rw [right c behind] at inked
    cases inked

theorem markedLine_inked {line : Marked} (member : c ∈ line.map Prod.fst) (inked : space c = false) :
    markedLine line = fixed margin ++ line := by
  rw [markedLine,if_pos (strip_inked member inked)]

theorem indentedFrom_flat (line front rest : Marked) (single : '\n' ∉ front.map Prod.fst) :
    indentedFrom line (front ++ rest) = indentedFrom (line ++ front) rest := by
  induction front generalizing line with
  | nil => rw [List.nil_append,List.append_nil]
  | cons c front ih =>
      simp only [List.map_cons,List.mem_cons,not_or] at single
      rw [List.cons_append,indentedFrom,if_neg (Ne.symm single.1),ih (line ++ [c]) single.2,List.append_assoc]
      rfl

-- A line with ink stands behind the margin, however it goes on.
theorem indentedFrom_starts {line : Marked} (member : c ∈ line.map Prod.fst) (inked : space c = false) (text : Marked) :
    ∃ tail, indentedFrom line text = fixed margin ++ line ++ tail := by
  induction text generalizing line with
  | nil => exact ⟨[],by rw [indentedFrom,markedLine_inked member inked,List.append_nil]⟩
  | cons d rest ih =>
      rw [indentedFrom]
      split
      · exact ⟨d :: indentedFrom [] rest,by rw [markedLine_inked member inked]⟩
      · obtain ⟨tail,whole⟩ := ih (show c ∈ (line ++ [d]).map Prod.fst by simp [member])
        exact ⟨d :: tail,by rw [whole]; simp⟩

theorem indentedFrom_next {line : Marked} (member : c ∈ line.map Prod.fst) (inked : space c = false) (d : Char × Bool)
    (rest : Marked) : ∃ tail, indentedFrom line (d :: rest) = fixed margin ++ line ++ d :: tail := by
  rw [indentedFrom]
  split
  · exact ⟨indentedFrom [] rest,by rw [markedLine_inked member inked]⟩
  · obtain ⟨tail,whole⟩ := indentedFrom_starts (show c ∈ (line ++ [d]).map Prod.fst by simp [member]) inked rest
    exact ⟨tail,by rw [whole]; simp⟩

theorem indentedFrom_unmarked {line text : Marked} (before : ∀ c ∈ line, c.2 = false) (none : ∀ c ∈ text, c.2 = false) :
    ∀ c ∈ indentedFrom line text, c.2 = false := by
  have shown : ∀ {line : Marked}, (∀ c ∈ line, c.2 = false) → ∀ c ∈ markedLine line, c.2 = false := by
    intro line before c member
    unfold markedLine at member
    split at member
    · rcases List.mem_append.mp member with template | inside
      · obtain ⟨d,_,rfl⟩ := List.mem_map.mp template
        rfl
      · exact before c inside
    · exact before c member
  induction text generalizing line with
  | nil => exact shown before
  | cons d rest ih =>
      rw [List.forall_mem_cons] at none
      intro c member
      rw [indentedFrom] at member
      split at member
      · rcases List.mem_append.mp member with front | behind
        · exact shown before c front
        · rcases List.mem_cons.mp behind with rfl | later
          · exact none.1
          · exact ih (List.forall_mem_nil _) none.2 c later
      · refine ih ?_ none.2 c member
        intro e inside
        rcases List.mem_append.mp inside with earlier | last
        · exact before e earlier
        · cases List.mem_singleton.mp last
          exact none.1

theorem margin_remark (depth : Nat) (more : Text) : margin ++ remark depth more = remark (depth + 4) more := by
  have four : margin = List.replicate 4 ' ' := by
    rw [margin,String.toList_ofList]
    rfl
  rw [four,remark,remark,← List.append_assoc,← List.replicate_add,Nat.add_comm]

section Lanes
variable {name : Text} {K : Watch → Prop} {Good : Text → Prop}

theorem remark_inked (depth : Nat) (more : Text) (text : Marked) : '#' ∈ (fixed (remark depth more) ++ text).map Prod.fst := by
  simp [remark]

theorem remark_flat (depth : Nat) {more text : Text} (all : ∀ c ∈ more, plain c = true) (single : '\n' ∉ text) :
    '\n' ∉ (fixed (remark depth more) ++ free text).map Prod.fst := by
  rw [List.map_append,fixed_text,free_text,List.mem_append]
  rintro (inside | inside)
  · simp only [remark,List.mem_append,List.mem_cons] at inside
    rcases inside with blank | same | later
    · cases List.eq_of_mem_replicate blank
    · cases same
    · cases all '\n' later
  · exact single inside

-- A commented line with a text that fits, up to the line after it.
theorem lane_fits (lane : Lane name K Good) {watch : Watch} (its : K watch) (depth : Nat) {more : Text}
    (all : ∀ c ∈ more, plain c = true) {text : Text} (good : Good text) (rest : Marked) :
    ∃ line, indentedFrom [] (fixed (remark depth more) ++ free text ++ ('\n',false) :: rest) = line ++ indentedFrom [] rest ∧
      Steps (Watch.step name) (Covered name) watch line ∧ K (run (Watch.step name) watch line) := by
  have flat := remark_flat depth all (lane.single text good)
  obtain ⟨covered,next⟩ := lane.fits watch its (depth + 4) more all text good
  refine ⟨fixed (remark (depth + 4) more) ++ free text ++ fixed ['\n'],?_,
    (steps_append _ _ _ _).mpr ⟨covered,covered_fixed name _ _⟩,next⟩
  rw [indentedFrom_flat [] _ _ flat,List.nil_append,indentedFrom,if_pos rfl,
    markedLine_inked (remark_inked depth more _) (by decide),← margin_remark,fixed_append]
  simp

theorem lane_fails (lane : Lane name K Good) {watch : Watch} (its : K watch) (depth : Nat) {more : Text}
    (all : ∀ c ∈ more, plain c = true) {text : Text} (bad : ¬Good text) (rest : Marked) :
    ¬Steps (Watch.step name) (Covered name) watch (indentedFrom [] (fixed (remark depth more) ++ free text ++ rest)) := by
  obtain ⟨one,c,two,rfl,single,uncovered⟩ := lane.fails watch its (depth + 4) more all text bad
  have flat := remark_flat depth all single
  have parts : fixed (remark depth more) ++ free (one ++ c :: two) ++ rest =
      (fixed (remark depth more) ++ free one) ++ (c,true) :: (free two ++ rest) := by
    simp [free_append]
  obtain ⟨tail,whole⟩ := indentedFrom_next (remark_inked depth more (free one)) (by decide) (c,true) (free two ++ rest)
  have template : fixed margin ++ (fixed (remark depth more) ++ free one) ++ (c,true) :: tail =
      fixed (remark (depth + 4) more) ++ free one ++ [(c,true)] ++ tail := by
    rw [← margin_remark,fixed_append]
    simp
  rw [parts,indentedFrom_flat [] _ _ flat,List.nil_append,whole,template,steps_append]
  exact fun covered => uncovered covered.1

theorem plainly {text : Text} (all : text.all plain = true) : ∀ c ∈ text, plain c = true := List.all_eq_true.mp all

theorem lessons_lane (lane : Lane name K Good) {watch : Watch} (its : K watch) (lessons : List Text) :
    (Steps (Watch.step name) (Covered name) watch (indentedFrom [] (lessons.flatMap markedLesson)) ↔ ∀ lesson ∈ lessons, Good lesson) ∧
      ((∀ lesson ∈ lessons, Good lesson) → K (run (Watch.step name) watch (indentedFrom [] (lessons.flatMap markedLesson)))) := by
  have bullet : "    # - ".toList = remark 4 " - ".toList := by
    repeat rewrite [String.toList_ofList]
    rfl
  have dash : ∀ c ∈ " - ".toList, plain c = true := plainly (by rewrite [String.toList_ofList]; rfl)
  induction lessons generalizing watch with
  | nil => exact ⟨by simp [indentedFrom,markedLine,strip,Steps],fun _ => its⟩
  | cons lesson rest ih =>
      have first : (lesson :: rest).flatMap markedLesson =
          fixed (remark 4 " - ".toList) ++ free lesson ++ ('\n',false) :: rest.flatMap markedLesson := by
        rw [List.flatMap_cons,markedLesson,bullet]
        simp [newline]
      rw [first,List.forall_mem_cons]
      by_cases good : Good lesson
      · obtain ⟨line,whole,covered,next⟩ := lane_fits lane its 4 dash good (rest.flatMap markedLesson)
        obtain ⟨exactly,ends⟩ := ih next
        rw [whole,steps_append,and_iff_right covered,and_iff_right good,run_append]
        exact ⟨exactly,ends⟩
      · exact ⟨iff_of_false (lane_fails lane its 4 dash good _) fun told => good told.1,fun told => absurd told.1 good⟩

theorem learned_lane (lane : Lane name K Good) {watch : Watch} (its : K watch) (lessons : Option (List Text)) :
    (Steps (Watch.step name) (Covered name) watch (markedLessons lessons) ↔ ∀ lesson ∈ lessons.getD [], Good lesson) ∧
      ((∀ lesson ∈ lessons.getD [], Good lesson) → K (run (Watch.step name) watch (markedLessons lessons))) := by
  have heading : "    # LEARNED CONSTRAINTS:\n".toList = remark 4 " LEARNED CONSTRAINTS:".toList ++ ['\n'] := by
    repeat rewrite [String.toList_ofList]
    rfl
  have words : ∀ c ∈ " LEARNED CONSTRAINTS:".toList, plain c = true := plainly (by rewrite [String.toList_ofList]; rfl)
  unfold markedLessons
  cases lessons.getD [] with
  | nil => exact ⟨by simp [Steps],fun _ => its⟩
  | cons lesson rest =>
      have first : fixed "    # LEARNED CONSTRAINTS:\n".toList ++ (lesson :: rest).flatMap markedLesson =
          fixed (remark 4 " LEARNED CONSTRAINTS:".toList) ++ free [] ++ ('\n',false) :: (lesson :: rest).flatMap markedLesson := by
        rw [heading,fixed_append]
        simp
      obtain ⟨line,whole,covered,next⟩ := lane_fits lane its 4 words lane.blank ((lesson :: rest).flatMap markedLesson)
      dsimp only
      rw [first,whole,steps_append,and_iff_right covered,run_append]
      exact lessons_lane lane next (lesson :: rest)

theorem body_lane (lane : Lane name K Good) {watch : Watch} (its : K watch) (logicHint : Text) (params : List Text) :
    Steps (Watch.step name) (Covered name) watch (markedBody repr logicHint params) ↔ Good logicHint := by
  have start : "# Logic synthesized from hint: ".toList = remark 0 " Logic synthesized from hint: ".toList := by
    repeat rewrite [String.toList_ofList]
    rfl
  have words : ∀ c ∈ " Logic synthesized from hint: ".toList, plain c = true := plainly (by rewrite [String.toList_ofList]; rfl)
  rw [markedBody,start,fixed_cons]
  by_cases good : Good logicHint
  · obtain ⟨line,whole,covered,_⟩ := lane_fits lane its 0 words good (fixed (newline.intercalate (laterLines repr params)))
    rw [whole,steps_append,and_iff_right covered]
    refine iff_of_true (covered_unmarked name (indentedFrom_unmarked (by simp) ?_) _) good
    intro c member
    obtain ⟨d,_,rfl⟩ := List.mem_map.mp member
    rfl
  · exact iff_of_false (lane_fails lane its 0 words good _) good

-- From behind `try:` on, whatever the reader makes of that line.
theorem tail_lane (lane : Lane name K Good) {watch : Watch} (its : K watch) (logicHint : Text) (params : List Text)
    (lessons : Option (List Text)) :
    Steps (Watch.step name) (Covered name) watch (markedLessons lessons ++ (markedBody repr logicHint params ++ fixed closing)) ↔
      ∀ text ∈ logicHint :: lessons.getD [], Good text := by
  obtain ⟨exactly,ends⟩ := learned_lane lane its lessons
  rw [steps_append,steps_append,and_iff_left (covered_fixed name _ _),exactly,List.forall_mem_cons,and_comm]
  refine and_congr_left fun learned => ?_
  exact body_lane repr lane (ends learned) logicHint params

end Lanes

section Opened
variable (name : Text) {watch : Watch}

theorem quoteLine_open (its : Open watch) :
    (run (Watch.step name) watch (fixed quoteLine)).reader.mode = .tripled .double 0 ∧
      (run (Watch.step name) watch (fixed quoteLine)).reader.returned = false ∧
      (run (Watch.step name) watch (fixed quoteLine)).inside = signed name watch.reader := by
  obtain ⟨mode,fresh,inside⟩ := open_quotes name its
  have still : (['\n'] ++ List.replicate 4 ' ').all (calm .double) = true := rfl
  rw [quoteLine,List.append_assoc,fixed_append,run_append]
  obtain ⟨mode',fresh',inside'⟩ := string_calm name mode fresh (List.all_eq_true.mp still)
  exact ⟨mode',fresh',inside'.trans inside⟩

theorem tryLine_parts : tryLine = '\n' :: (List.replicate 4 ' ' ++ (quotes ++ "\n    try:\n".toList)) := rfl

theorem tryLine_flat : ∀ c ∈ "\n    try:\n".toList, (decide (c = '\n') || plain c) = true := by
  have all : ("\n    try:\n".toList.all fun c => decide (c = '\n') || plain c) = true := by
    rewrite [String.toList_ofList]
    rfl
  exact List.all_eq_true.mp all

theorem tryLine_string {escaped : Bool} {seen : Nat} (its : InString watch escaped seen) :
    Open (run (Watch.step name) watch (fixed tryLine)) := by
  obtain ⟨mode,fresh⟩ := string_newline name its
  have still : (List.replicate 4 ' ').all (calm .double) = true := rfl
  obtain ⟨mode',fresh',_⟩ := string_calm name mode fresh (List.all_eq_true.mp still)
  rw [tryLine_parts,fixed_cons,run_cons,fixed_append,run_append,fixed_append,run_append]
  exact open_text name (string_quotes name mode' fresh').open tryLine_flat

-- The quotes that were to close a docstring open a string of their own.
theorem tryLine_unsigned (its : Unsigned (watch.feed name '\n')) : Shut .double (run (Watch.step name) watch (fixed tryLine)) := by
  have blank := unsigned_blank name its fun c (member : c ∈ List.replicate 4 ' ') => .inl (List.eq_of_mem_replicate member)
  obtain ⟨mode,fresh,inside⟩ := open_quotes name blank.open
  have still : ("\n    try:\n".toList.all (calm .double)) = true := by
    rewrite [String.toList_ofList]
    rfl
  rw [blank.signed name] at inside
  rw [tryLine_parts,fixed_cons,run_cons,fixed_append,run_append,fixed_append,run_append]
  exact shut_text name ⟨inside,fresh,.inr mode⟩ (List.all_eq_true.mp still)

-- The quotes that were to open a docstring close what the signature left open.
theorem quoteLine_string (mode : watch.reader.mode = .tripled .double 0) (fresh : watch.reader.returned = false) :
    Unsigned (run (Watch.step name) watch (fixed quoteLine)) := by
  rw [quoteLine,fixed_append,run_append,fixed_append,run_append]
  exact unsigned_blank name (ended_newline name (string_quotes name mode fresh)) fun c member =>
    .inl (List.eq_of_mem_replicate member)

theorem template_calm : quoteLine.all (calm .single) = true ∧ tryLine.all (calm .single) = true := by
  delta tryLine
  rewrite [String.toList_ofList]
  exact ⟨rfl,rfl⟩

theorem default_plain : "Synthesized tool implementation.".toList.all plain = true := by
  rewrite [String.toList_ofList]
  rfl

end Opened

def execute : Text := "execute".toList

-- How the text reads where the quotes of the docstring are to open.
def signatureReader (spec : Spec) : Reader := run Reader.feed .start (signature tables spec ++ arrow)

def legible (reader : Reader) : Bool := decide (reader.mode = .margin) || decide (reader.mode = .code)

def FreeTextCovered (spec : Spec) (lessons : Option (List Text)) : Prop :=
  Steps (Watch.step execute) (Covered execute) .start (synthesizeMarked tables repr spec lessons)

def DescriptionFits (reader : Reader) (description : Text) : Prop :=
  legible reader = true ∧ signed execute reader = true ∧ tripleFree false 0 description = true

def RemarkFits (reader : Reader) (text : Text) : Prop :=
  if legible reader then ∀ c ∈ text, lineBreak c = false else text = []

-- The state behind the signature, and the parts that come after it.
theorem covered_parts (spec : Spec) (lessons : Option (List Text)) :
    let before := run (Watch.step execute) .start (fixed (signature tables spec ++ arrow))
    let opened := run (Watch.step execute) before (fixed quoteLine)
    let behind := run (Watch.step execute) opened (markedDescription spec.description)
    FreeTextCovered tables repr spec lessons ↔
      Steps (Watch.step execute) (Covered execute) opened (markedDescription spec.description) ∧
      Steps (Watch.step execute) (Covered execute) (run (Watch.step execute) behind (fixed tryLine))
        (markedLessons lessons ++ (markedBody repr (spec.logicHint.getD []) (spec.parameters.map Prod.fst) ++ fixed closing)) := by
  dsimp only
  rw [FreeTextCovered,synthesizeMarked,List.append_assoc,List.append_assoc,List.append_assoc,covered_from_fixed,
    covered_from_fixed,steps_append,covered_from_fixed]

theorem legible_open (its : Open watch) : legible watch.reader = true := by
  rcases its.2.2 with mode | mode <;> simp [legible,mode]

-- The description, read where nothing of it is covered.
theorem description_uncovered (name : Text) {watch : Watch} (never : ∀ c, ¬Covered name watch (c,true)) (description : Option Text) :
    Steps (Watch.step name) (Covered name) watch (markedDescription description) ↔
      ∀ text, description = some text → text = [] := by
  cases description with
  | none => exact iff_of_true (covered_fixed name _ _) (by simp)
  | some text =>
      rw [markedDescription,covered_nothing name never]
      simp

-- The description in a string, which may be the docstring.
theorem description_string (name : Text) {watch : Watch} (mode : watch.reader.mode = .tripled .double 0)
    (fresh : watch.reader.returned = false) (description : Option Text) :
    (Steps (Watch.step name) (Covered name) watch (markedDescription description) ↔
      ∀ text, description = some text → text ≠ [] → watch.inside = true ∧ tripleFree false 0 text = true) ∧
    (Steps (Watch.step name) (Covered name) watch (markedDescription description) →
      ∃ escaped seen, InString (run (Watch.step name) watch (markedDescription description)) escaped seen) := by
  have started : ∀ {watch : Watch}, watch.reader.mode = .tripled .double 0 → watch.reader.returned = false →
      InString watch false 0 := fun mode fresh => ⟨mode,fun returned => by rw [fresh] at returned; cases returned⟩
  cases description with
  | none =>
      obtain ⟨mode',fresh',_⟩ := string_calm name mode fresh fun c member =>
        plain_calm .double (List.all_eq_true.mp default_plain c member)
      exact ⟨iff_of_true (covered_fixed name _ _) (by simp),fun _ => ⟨false,0,started mode' fresh'⟩⟩
  | some text =>
      simp only [markedDescription,Option.some.injEq,forall_eq']
      cases inside : watch.inside with
      | true =>
          obtain ⟨exactly,ends⟩ := string_text name (started mode fresh) inside
          refine ⟨exactly.trans ⟨fun free _ => ⟨rfl,free⟩,fun told => ?_⟩,fun covered => ends (exactly.mp covered)⟩
          cases text with
          | nil => rfl
          | cons c rest => exact (told (List.cons_ne_nil c rest)).2
      | false =>
          have nothing := covered_nothing name (uncovered name inside (by rw [mode]; exact fun same => by cases same)) text
          refine ⟨nothing.trans ⟨fun empty some' => absurd empty some',fun told => ?_⟩,fun covered => ?_⟩
          · by_contra some'
            cases (told some').1
          · rw [nothing.mp covered]
            exact ⟨false,0,started mode fresh⟩

-- Behind a signature that ends a line, or that goes on inside brackets.
theorem outside_exact (spec : Spec) (lessons : Option (List Text)) {before : Watch}
    (reached : run (Watch.step execute) .start (fixed (signature tables spec ++ arrow)) = before) (its : Open before) :
    FreeTextCovered tables repr spec lessons ↔
      (∀ description, spec.description = some description → description ≠ [] → DescriptionFits before.reader description) ∧
      ∀ text ∈ spec.logicHint.getD [] :: lessons.getD [], RemarkFits before.reader text := by
  have parts := covered_parts tables repr spec lessons
  dsimp only at parts
  rw [reached] at parts
  obtain ⟨mode,fresh,inside⟩ := quoteLine_open execute its
  obtain ⟨exactly,ends⟩ := description_string execute mode fresh spec.description
  have fits : ∀ text, DescriptionFits before.reader text ↔
      signed execute before.reader = true ∧ tripleFree false 0 text = true := by
    intro text
    rw [DescriptionFits,and_iff_right (legible_open its)]
  have lane : ∀ text, RemarkFits before.reader text ↔ ∀ c ∈ text, lineBreak c = false := by
    intro text
    rw [RemarkFits,if_pos (legible_open its)]
  rw [inside] at exactly
  simp only [fits,lane]
  rw [parts,← exactly]
  refine and_congr_right fun covered => ?_
  obtain ⟨escaped,seen,string⟩ := ends covered
  exact tail_lane repr (openLane execute) (tryLine_string execute string) _ _ lessons

-- Behind a signature that is no line and no part of one: the quotes of the
-- template then open and close what they were not meant to.
theorem stuck_exact (spec : Spec) (lessons : Option (List Text)) {before : Watch}
    (reached : run (Watch.step execute) .start (fixed (signature tables spec ++ arrow)) = before)
    (illegible : legible before.reader = false)
    (never : ∀ c, ¬Covered execute (run (Watch.step execute) before (fixed quoteLine)) (c,true))
    (mark : Mark) (behind : (∀ text, spec.description = some text → text = []) →
      Shut mark (run (Watch.step execute) (run (Watch.step execute) (run (Watch.step execute) before (fixed quoteLine))
        (markedDescription spec.description)) (fixed tryLine))) :
    FreeTextCovered tables repr spec lessons ↔
      (∀ description, spec.description = some description → description ≠ [] → DescriptionFits before.reader description) ∧
      ∀ text ∈ spec.logicHint.getD [] :: lessons.getD [], RemarkFits before.reader text := by
  have parts := covered_parts tables repr spec lessons
  dsimp only at parts
  rw [reached] at parts
  have fits : ∀ text, ¬DescriptionFits before.reader text := by
    rintro text ⟨read,_⟩
    rw [illegible] at read
    cases read
  have lane : ∀ text, RemarkFits before.reader text ↔ text = [] := by
    intro text
    rw [RemarkFits,if_neg (by simp [illegible])]
  simp only [fits,lane,imp_false,not_not]
  rw [parts,description_uncovered execute never]
  refine and_congr_right fun empty => ?_
  exact tail_lane repr (shutLane execute mark) (behind empty) _ _ lessons

-- Parameters that leave the signature's brackets as they found them.
def Enclosed (text : Text) : Prop := ∀ lines current, ∃ more,
  run Reader.feed ⟨.code,[')'],0,current,lines,false⟩ text = ⟨.code,[')'],0,more ++ current,lines,false⟩

theorem enclosed_plain {text : Text} (all : ∀ c ∈ text, plain c = true) : Enclosed text :=
  fun lines current => ⟨text.reverse,read_plain [')'] 0 current lines all⟩

theorem enclosed_append (first : Enclosed one) (second : Enclosed two) : Enclosed (one ++ two) := by
  intro lines current
  obtain ⟨more,read⟩ := first lines current
  obtain ⟨later,rest⟩ := second lines (more ++ current)
  exact ⟨later ++ more,by rw [run_append,read,rest,List.append_assoc]⟩

theorem enclosed_intercalate {separator : Text} (between : Enclosed separator) {texts : List Text}
    (all : ∀ text ∈ texts, Enclosed text) : Enclosed (separator.intercalate texts) := by
  induction texts with
  | nil => exact enclosed_plain fun c member => by cases member
  | cons text rest ih =>
      rw [List.forall_mem_cons] at all
      cases rest with
      | nil =>
          rw [List.intercalate_singleton]
          exact all.1
      | cons next rest =>
          rw [List.intercalate_cons_cons]
          exact enclosed_append (enclosed_append all.1 between) (ih all.2)

-- Names and types that leave the bracket so make such parameters.
theorem enclosed_args {parameters : List (Text × ParameterInfo)}
    (each : ∀ row ∈ parameters, Enclosed row.1 ∧ Enclosed (paramType row.2)) : Enclosed (argsStr parameters) := by
  have marks : (", ".toList ++ ": ".toList).all plain = true := by
    repeat rewrite [String.toList_ofList]
    rfl
  have fixed : ∀ c ∈ ", ".toList ++ ": ".toList, plain c = true := List.all_eq_true.mp marks
  refine enclosed_intercalate (enclosed_plain fun c member => fixed c (List.mem_append_left _ member)) ?_
  intro text member
  obtain ⟨row,inside,rfl⟩ := List.mem_map.mp member
  obtain ⟨name,type⟩ := each row inside
  exact enclosed_append (enclosed_append name (enclosed_plain fun c member => fixed c (List.mem_append_right _ member))) type

def importLine (line : Text) : Bool :=
  match line with
  | [] => false
  | c :: rest => plain c && c != ' ' && c != '\t' && c != '\x0c' && rest.all plain

theorem importLine_read {line : Text} (its : importLine line = true) (lines : List Line) :
    run Reader.feed ⟨.margin,[],0,[],lines,false⟩ (line ++ newline) = ⟨.margin,[],0,[],lines ++ [⟨0,line⟩],false⟩ := by
  cases line with
  | nil => cases its
  | cons c rest =>
      simp only [importLine,Bool.and_eq_true,bne_iff_ne] at its
      obtain ⟨⟨⟨⟨ordinary,space⟩,tab⟩,page⟩,later⟩ := its
      exact read_line lines 0 ⟨ordinary,space,tab,page⟩ (List.all_eq_true.mp later)

theorem importLines_read {texts : List Text} (all : ∀ line ∈ texts, importLine line = true) (lines : List Line) :
    ∃ later, run Reader.feed ⟨.margin,[],0,[],lines,false⟩ (texts.flatMap fun line => line ++ newline) =
      ⟨.margin,[],0,[],later,false⟩ := by
  induction texts generalizing lines with
  | nil => exact ⟨lines,rfl⟩
  | cons line rest ih =>
      rw [List.forall_mem_cons] at all
      obtain ⟨later,read⟩ := ih all.2 (lines ++ [⟨0,line⟩])
      exact ⟨later,by rw [List.flatMap_cons,run_append,importLine_read all.1,read]⟩

theorem import_lines : (imports ++ mapping.map Prod.snd).all importLine = true := by
  delta imports mapping
  repeat rewrite [String.toList_ofList]
  rfl

theorem imports_read (logicHint : Text) :
    ∃ lines, run Reader.feed .start (determineImports tables logicHint ++ newline) = ⟨.margin,[],0,[],lines,false⟩ := by
  have all : ∀ line ∈ imports ++ (mapping.filter fun row => decide (row.1 <:+: tables.lower logicHint)).map Prod.snd,
      importLine line = true := by
    intro line member
    refine List.all_eq_true.mp import_lines line ?_
    rcases List.mem_append.mp member with fixed | keyed
    · exact List.mem_append_left _ fixed
    · obtain ⟨row,kept,rfl⟩ := List.mem_map.mp keyed
      exact List.mem_append_right _ (List.mem_map_of_mem (List.mem_of_mem_filter kept))
  have whole := intercalate_lines "import os".toList (imports.tail ++
    (mapping.filter fun row => decide (row.1 <:+: tables.lower logicHint)).map Prod.snd)
  obtain ⟨lines,read⟩ := importLines_read all []
  exact ⟨lines,by rw [determineImports]; exact (congrArg (run Reader.feed .start) whole).trans read⟩

theorem header_announces {line : Line} {between : Text} (level : line.indent = 0)
    (text : line.text = "def execute(".toList ++ between ++ ") -> Any:".toList) (lines : List Line) :
    signed execute ⟨.margin,[],4,[],lines ++ [line],false⟩ = true := by
  have defined : line.defined.map Prod.fst = some execute := by
    rw [Line.defined,text]
    delta execute
    repeat rewrite [String.toList_ofList]
    rfl
  have header : line.header = true := by
    have last : ") -> Any:".toList = ") -> Any".toList ++ [':'] := by
      repeat rewrite [String.toList_ofList]
      rfl
    rw [Line.header,text,last,← List.append_assoc,List.reverse_append]
    rfl
  simp [signed,announced,defined,header,level]

-- Ordinary parameters give a signature behind which the docstring opens.
theorem signature_read (spec : Spec) (enclosed : Enclosed (argsStr spec.parameters)) :
    legible (signatureReader tables spec) = true ∧ signed execute (signatureReader tables spec) = true := by
  obtain ⟨lines,imported⟩ := imports_read tables (spec.logicHint.getD [])
  obtain ⟨more,args⟩ := enclosed lines "def execute(".toList.reverse
  have text : signature tables spec ++ arrow = determineImports tables (spec.logicHint.getD []) ++ newline ++
      ('\n' :: "def execute(".toList ++ (argsStr spec.parameters ++ (") -> Any:".toList ++ ['\n'] ++ List.replicate 4 ' '))) := by
    have before : "\n\ndef execute(".toList = newline ++ ('\n' :: "def execute(".toList) := by
      repeat rewrite [String.toList_ofList]
      rfl
    have behind : ") -> Any".toList ++ arrow = ") -> Any:".toList ++ ['\n'] ++ List.replicate 4 ' ' := by
      repeat rewrite [String.toList_ofList]
      rfl
    rw [signature,before,← behind]
    simp only [List.append_assoc,List.cons_append]
  have started : run Reader.feed ⟨.margin,[],0,[],lines,false⟩ ('\n' :: "def execute(".toList) =
      ⟨.code,[')'],0,"def execute(".toList.reverse,lines,false⟩ := by
    repeat rewrite [String.toList_ofList]
    rfl
  have ended : run Reader.feed ⟨.code,[')'],0,more ++ "def execute(".toList.reverse,lines,false⟩
      (") -> Any:".toList ++ ['\n'] ++ List.replicate 4 ' ') =
        ⟨.margin,[],4,[],lines ++ [⟨0,"def execute(".toList ++ more.reverse ++ ") -> Any:".toList⟩],false⟩ := by
    have line : "def execute(".toList ++ more.reverse ++ ") -> Any:".toList =
        (") -> Any:".toList.reverse ++ (more ++ "def execute(".toList.reverse)).reverse := by simp
    rw [line]
    repeat rewrite [String.toList_ofList]
    rfl
  rw [signatureReader,text,run_append,imported,run_append,started,run_append,args,ended]
  exact ⟨rfl,header_announces rfl rfl lines⟩

theorem signatureReader_reached (spec : Spec) : signatureReader tables spec =
    (run (Watch.step execute) .start (fixed (signature tables spec ++ arrow))).reader := by
  rw [watch_reader,fixed_text]
  rfl

theorem signature_arrived (spec : Spec) : Arrived (run (Watch.step execute) .start (fixed (signature tables spec ++ arrow))) := by
  rw [fixed_append,run_append]
  generalize run (Watch.step execute) .start (fixed (signature tables spec)) = header
  rw [arrow,fixed_append,run_append]
  exact arrived_spaces execute (colon_newline execute header) 4

theorem ordinary_exact (spec : Spec) (lessons : Option (List Text)) (enclosed : Enclosed (argsStr spec.parameters)) :
    FreeTextCovered tables repr spec lessons ↔
      (∀ description, spec.description = some description → description ≠ [] → tripleFree false 0 description = true) ∧
      ∀ text ∈ spec.logicHint.getD [] :: lessons.getD [], ∀ c ∈ text, lineBreak c = false := by
  obtain ⟨read,opens⟩ := signature_read tables spec enclosed
  have reader := signatureReader_reached tables spec
  have arrived := signature_arrived tables spec
  generalize reached : run (Watch.step execute) .start (fixed (signature tables spec ++ arrow)) = before at arrived reader
  rw [reader] at read opens
  have its : Open before := by
    cases arrived with
    | outside its => exact its
    | stuck its => rcases its.2.2 with mode | mode <;> simp [legible,mode] at read
    | within mode fresh => simp [legible,mode] at read
  rw [outside_exact tables repr spec lessons reached its]
  simp only [DescriptionFits,RemarkFits,read,opens,true_and,if_true]

theorem free_text_exact (spec : Spec) (lessons : Option (List Text)) : FreeTextCovered tables repr spec lessons ↔
    (∀ description, spec.description = some description → description ≠ [] →
      DescriptionFits (signatureReader tables spec) description) ∧
    ∀ text ∈ spec.logicHint.getD [] :: lessons.getD [], RemarkFits (signatureReader tables spec) text := by
  have arrived := signature_arrived tables spec
  rw [signatureReader_reached]
  generalize reached : run (Watch.step execute) .start (fixed (signature tables spec ++ arrow)) = before at arrived
  cases arrived with
  | outside its => exact outside_exact tables repr spec lessons reached its
  | stuck its =>
      have opened := shut_text execute its (List.all_eq_true.mp template_calm.1)
      refine stuck_exact tables repr spec lessons reached ?_ (shut_uncovered execute opened) .single fun empty => ?_
      · rcases its.2.2 with mode | mode <;> simp [legible,mode]
      · refine shut_text execute ?_ (List.all_eq_true.mp template_calm.2)
        cases given : spec.description with
        | none => exact shut_text execute opened fun c member => plain_calm .single (List.all_eq_true.mp default_plain c member)
        | some text =>
            rw [empty text given,markedDescription,free_nil,run_nil]
            exact opened
  | within mode fresh =>
      have opened := quoteLine_string execute mode fresh
      refine stuck_exact tables repr spec lessons reached (by simp [legible,mode]) (open_uncovered execute opened.open) .double
        fun empty => tryLine_unsigned execute ?_
      cases given : spec.description with
      | none =>
          have sentence : "Synthesized tool implementation.".toList = "Synthesized tool implementation".toList ++ ['.'] := by
            repeat rewrite [String.toList_ofList]
            rfl
          have words : "Synthesized tool implementation".toList.all plain = true := by
            rewrite [String.toList_ofList]
            rfl
          rw [markedDescription,sentence]
          exact ended_newline execute (plain_ended execute opened.open (List.all_eq_true.mp words) rfl (by decide))
      | some text =>
          rw [empty text given,markedDescription,free_nil,run_nil]
          exact unsigned_blank execute opened (show ∀ c ∈ ['\n'], c = ' ' ∨ c = '\n' by simp)

def summer : Spec := ⟨some "summer".toList,some "Adds numbers".toList,[],some "sum\nimport os".toList⟩

theorem hint_escapes : ¬FreeTextCovered ascii (fun name => '\'' :: name ++ ['\'']) summer none := by
  have enclosed : Enclosed (argsStr summer.parameters) := enclosed_plain fun c member => by cases member
  rw [ordinary_exact ascii _ summer none enclosed]
  rintro ⟨_,flat⟩
  have broken : '\n' ∈ summer.logicHint.getD [] := by
    delta summer
    repeat rewrite [String.toList_ofList]
    decide
  cases flat (summer.logicHint.getD []) (by simp) '\n' broken

end Kryvaracode.Synthesizer
