import Kryvaracode.Runs

-- The layout of a language whose blocks are told by indentation: how a text is cut
-- into logical lines, and how the lines nest.
namespace BlockLayout
open Runs

abbrev Chars := List Char

inductive Mark where
  | single
  | double
  deriving DecidableEq, Repr

def Mark.char : Mark → Char
  | .single => '\''
  | .double => '"'

-- Where in a line the reader is. `opening` has read one or two marks that may open a
-- string over several lines, which `tripled` is in, having just read so many marks.
inductive Mode where
  | margin
  | code
  | comment
  | joined
  | opening (mark : Mark) (again : Bool)
  | quoted (mark : Mark)
  | quotedEscape (mark : Mark)
  | tripled (mark : Mark) (seen : Nat)
  | tripledEscape (mark : Mark)
  | failed
  deriving DecidableEq, Repr

structure Line where
  indent : Nat
  text : Chars
  deriving DecidableEq, Repr

-- The brackets that are open, by what closes them; the current line is held backwards.
structure Reader where
  mode : Mode
  brackets : Chars
  indent : Nat
  current : Chars
  lines : List Line
  returned : Bool
  deriving DecidableEq, Repr

namespace Reader
variable (reader : Reader)

def start : Reader := ⟨.margin,[],0,[],[],false⟩

def go (mode : Mode) : Reader := {reader with mode := mode}

def push (mode : Mode) (c : Char) : Reader := {reader with mode := mode,current := c :: reader.current}

-- A line goes on inside brackets, and one without code is none.
def lineEnd : Reader :=
  if reader.brackets = [] then
    if reader.current = [] then {reader with mode := .margin,indent := 0}
    else ⟨.margin,[],0,[],reader.lines ++ [⟨reader.indent,reader.current.reverse⟩],reader.returned⟩
  else reader.go .code

def newline : Reader :=
  match reader.mode with
  | .margin => {reader with indent := 0}
  | .code | .comment | .opening _ true => reader.lineEnd
  | .joined => reader.go .code
  | .quotedEscape mark => reader.go (.quoted mark)
  | .tripled mark _ | .tripledEscape mark => reader.go (.tripled mark 0)
  | .opening _ false | .quoted _ | .failed => reader.go .failed

def closer (c : Char) : Option Char := [('(',')'),('[',']'),('{','}')].lookup c

def codeChar (c : Char) : Reader :=
  if c = '#' then reader.go .comment
  else if c = '\\' then reader.go .joined
  else if c = '\'' then reader.push (.opening .single false) c
  else if c = '"' then reader.push (.opening .double false) c
  else
    match closer c with
    | some close => {reader.push .code c with brackets := close :: reader.brackets}
    | none =>
        if c = ')' ∨ c = ']' ∨ c = '}' then
          match reader.brackets with
          | close :: rest => if close = c then {reader.push .code c with brackets := rest} else reader.go .failed
          | [] => reader.go .failed
        else reader.push .code c

-- A tab goes on to the next multiple of eight.
def marginChar (c : Char) : Reader :=
  if c = ' ' then {reader with indent := reader.indent + 1}
  else if c = '\t' then {reader with indent := (reader.indent / 8 + 1) * 8}
  else if c = '\x0c' then {reader with indent := 0}
  else reader.codeChar c

def other (c : Char) : Reader :=
  match reader.mode with
  | .margin => reader.marginChar c
  | .code => reader.codeChar c
  | .comment => reader
  | .joined | .failed => reader.go .failed
  | .opening mark false =>
      if c = mark.char then reader.push (.opening mark true) c
      else if c = '\\' then reader.push (.quotedEscape mark) c
      else reader.push (.quoted mark) c
  | .opening mark true => if c = mark.char then reader.push (.tripled mark 0) c else reader.codeChar c
  | .quoted mark =>
      if c = mark.char then reader.push .code c
      else if c = '\\' then reader.push (.quotedEscape mark) c
      else reader.push (.quoted mark) c
  | .quotedEscape mark => reader.push (.quoted mark) c
  | .tripled mark seen =>
      if c = mark.char then
        if seen = 2 then reader.push .code c else reader.push (.tripled mark (seen + 1)) c
      else if c = '\\' then reader.push (.tripledEscape mark) c
      else reader.push (.tripled mark 0) c
  | .tripledEscape mark => reader.push (.tripled mark 0) c

-- A line ends with a line feed, a carriage return or both.
def feed (c : Char) : Reader :=
  if c = '\n' then
    if reader.returned then {reader with returned := false} else reader.newline
  else if c = '\r' then {reader.newline with returned := true}
  else {reader.other c with returned := false}

def finish : Option (List Line) :=
  if reader.brackets = [] then
    match reader.mode with
    | .margin => some reader.lines
    | .code | .comment | .opening _ true => some reader.lineEnd.lines
    | .joined | .opening _ false | .quoted _ | .quotedEscape _ | .tripled _ _ | .tripledEscape _ | .failed => none
  else none
end Reader

def layout (text : Chars) : Option (List Line) := (run Reader.feed .start text).finish

def wordChar (c : Char) : Bool := c.isAlphanum || c = '_'

-- The first word of a line, and whether the line announces a block.
def Line.word (line : Line) : Chars := line.text.takeWhile wordChar
def Line.header (line : Line) : Bool := (line.text.reverse.dropWhile (· = ' ')).head? = some ':'

-- A block that is being read, with the first word of its last statement.
structure Level where
  indent : Nat
  last : Chars
  deriving DecidableEq, Repr

structure Blocks where
  levels : List Level
  awaiting : Bool
  deriving DecidableEq, Repr

-- Which statement a clause may follow; a `try` is to be followed by a clause.
def follows (last word : Chars) : Bool :=
  if word = "except".toList then ["try".toList,"except".toList].contains last
  else if word = "finally".toList then ["try".toList,"except".toList,"else".toList].contains last
  else if word = "else".toList then
    ["if".toList,"elif".toList,"for".toList,"while".toList,"async".toList,"except".toList].contains last
  else if word = "elif".toList then ["if".toList,"elif".toList].contains last
  else !decide (last = "try".toList)

def dedent (indent : Nat) : List Level → Option (List Level)
  | [] => none
  | level :: rest =>
      if level.indent = indent then some (level :: rest)
      else if indent < level.indent ∧ level.last ≠ "try".toList then dedent indent rest
      else none

def enter (line : Line) : List Level → Option Blocks
  | [] => none
  | level :: rest =>
      if follows level.last line.word then some ⟨⟨level.indent,line.word⟩ :: rest,line.header⟩ else none

-- A header is followed by a deeper line, any other line by one of an open block.
def place (state : Option Blocks) (line : Line) : Option Blocks :=
  state.bind fun blocks =>
    if blocks.awaiting then
      if blocks.levels.all fun level => decide (level.indent < line.indent) then enter line (⟨line.indent,[]⟩ :: blocks.levels)
      else none
    else (dedent line.indent blocks.levels).bind (enter line)

def nested (lines : List Line) : Bool :=
  match run place (some ⟨[⟨0,[]⟩],false⟩) lines with
  | none => false
  | some blocks => !blocks.awaiting && blocks.levels.all fun level => !decide (level.last = "try".toList)

-- `def name(parameter: type, ...)`
def Line.defined (line : Line) : Option (Chars × List Chars) :=
  if "def ".toList.isPrefixOf line.text then
    let signature := line.text.drop 4
    let inside := ((signature.dropWhile (· ≠ '(')).drop 1).takeWhile (· ≠ ')')
    some (signature.takeWhile wordChar,
      if inside.all (· = ' ') then [] else (inside.splitOn ',').map fun part => (part.dropWhile (· = ' ')).takeWhile wordChar)
  else none

def definitions (lines : List Line) : List (Chars × List Chars) := lines.filterMap Line.defined

-- Accepted as blocks, with exactly these functions.
def Defines (text : Chars) (functions : List (Chars × List Chars)) : Prop :=
  ∃ lines, layout text = some lines ∧ nested lines = true ∧ definitions lines = functions

theorem defines_exact (text : Chars) (functions : List (Chars × List Chars)) : Defines text functions ↔
    ((layout text).map fun lines => (nested lines,definitions lines)) = some (true,functions) := by
  cases read : layout text with
  | none => simp [Defines,read]
  | some lines => simp [Defines,read]

instance (text : Chars) (functions : List (Chars × List Chars)) : Decidable (Defines text functions) :=
  decidable_of_iff _ (defines_exact text functions).symm

example : Defines "def f(a: int) -> Any:\n    \"\"\"\n  text\n    \"\"\"\n    try:\n        # why\n        return a\n    except E:\n        return (1,\n 2)\n".toList
    [("f".toList,[['a']])] := by decide +kernel

section Reading
variable (brackets : Chars) (indent : Nat) (current : Chars) (lines : List Line)

-- What means nothing but itself outside of strings and comments.
def plain (c : Char) : Bool := !(['\n','\r','#','\\','\'','"','(',')','[',']','{','}'].contains c)

theorem plain_exact {c : Char} (its : plain c = true) : c ≠ '\n' ∧ c ≠ '\r' ∧ c ≠ '#' ∧ c ≠ '\\' ∧ c ≠ '\'' ∧ c ≠ '"' ∧
    c ≠ '(' ∧ c ≠ ')' ∧ c ≠ '[' ∧ c ≠ ']' ∧ c ≠ '{' ∧ c ≠ '}' := by
  simpa [plain] using its

theorem code_plain {c : Char} (its : plain c = true) (reader : Reader) : reader.codeChar c = reader.push .code c := by
  obtain ⟨_,_,comment,escape,single,double,round,roundEnd,square,squareEnd,curly,curlyEnd⟩ := plain_exact its
  have closer_none : Reader.closer c = none := by
    simp [Reader.closer,List.lookup,beq_eq_false_iff_ne.mpr round,beq_eq_false_iff_ne.mpr square,beq_eq_false_iff_ne.mpr curly]
  unfold Reader.codeChar
  rw [if_neg comment,if_neg escape,if_neg single,if_neg double,closer_none]
  dsimp only
  rw [if_neg (by simp [roundEnd,squareEnd,curlyEnd])]

theorem read_plain {text : Chars} (all : ∀ c ∈ text, plain c = true) :
    run Reader.feed ⟨.code,brackets,indent,current,lines,false⟩ text =
      ⟨.code,brackets,indent,text.reverse ++ current,lines,false⟩ := by
  induction text generalizing current with
  | nil => rfl
  | cons c rest ih =>
      rw [List.forall_mem_cons] at all
      obtain ⟨feed,carriage,_⟩ := plain_exact all.1
      have first : Reader.feed ⟨.code,brackets,indent,current,lines,false⟩ c =
          ⟨.code,brackets,indent,c :: current,lines,false⟩ := by
        unfold Reader.feed
        rw [if_neg feed,if_neg carriage]
        change {Reader.codeChar _ c with returned := false} = _
        rw [code_plain all.1]
        rfl
      rw [run_cons,first,ih (c :: current) all.2,List.reverse_cons,List.append_assoc]
      rfl

-- What a string marked so is made of, apart from escapes.
def inner (mark : Mark) (c : Char) : Bool := !(['\n','\r','\\',mark.char].contains c)

theorem inner_exact {mark : Mark} {c : Char} (its : inner mark c = true) :
    c ≠ '\n' ∧ c ≠ '\r' ∧ c ≠ '\\' ∧ c ≠ mark.char := by
  simpa [inner] using its

theorem read_quoted (mark : Mark) {text : Chars} (all : ∀ c ∈ text, inner mark c = true) :
    run Reader.feed ⟨.quoted mark,brackets,indent,current,lines,false⟩ text =
      ⟨.quoted mark,brackets,indent,text.reverse ++ current,lines,false⟩ := by
  induction text generalizing current with
  | nil => rfl
  | cons c rest ih =>
      rw [List.forall_mem_cons] at all
      obtain ⟨its,later⟩ := all
      obtain ⟨feed,carriage,escape,apart⟩ := inner_exact its
      have first : Reader.feed ⟨.quoted mark,brackets,indent,current,lines,false⟩ c =
          ⟨.quoted mark,brackets,indent,c :: current,lines,false⟩ := by
        unfold Reader.feed Reader.other
        rw [if_neg feed,if_neg carriage]
        dsimp only
        rw [if_neg apart,if_neg escape]
        rfl
      rw [run_cons,first,ih (c :: current) later,List.reverse_cons,List.append_assoc]
      rfl

theorem read_margin (count : Nat) : run Reader.feed ⟨.margin,brackets,indent,current,lines,false⟩ (List.replicate count ' ') =
    ⟨.margin,brackets,indent + count,current,lines,false⟩ := by
  induction count generalizing indent with
  | zero => rfl
  | succ count ih =>
      rw [List.replicate_succ,run_cons]
      change run Reader.feed ⟨.margin,brackets,indent + 1,current,lines,false⟩ _ = _
      rw [ih,Nat.add_right_comm]
      rfl

-- A line of plain characters.
theorem read_line (count : Nat) {c : Char} {text : Chars} (starts : plain c = true ∧ c ≠ ' ' ∧ c ≠ '\t' ∧ c ≠ '\x0c')
    (all : ∀ d ∈ text, plain d = true) :
    run Reader.feed ⟨.margin,[],0,[],lines,false⟩ (List.replicate count ' ' ++ c :: text ++ ['\n']) =
      ⟨.margin,[],0,[],lines ++ [⟨count,c :: text⟩],false⟩ := by
  obtain ⟨its,space,tab,page⟩ := starts
  obtain ⟨feed,carriage,_⟩ := plain_exact its
  have first : Reader.feed ⟨.margin,[],0 + count,[],lines,false⟩ c = ⟨.code,[],0 + count,[c],lines,false⟩ := by
    unfold Reader.feed
    rw [if_neg feed,if_neg carriage]
    change {Reader.marginChar _ c with returned := false} = _
    unfold Reader.marginChar
    rw [if_neg space,if_neg tab,if_neg page,code_plain its]
    rfl
  rw [List.append_assoc,run_append,read_margin,List.cons_append,run_cons,first,run_append,read_plain _ _ _ _ all,run_cons,run_nil]
  unfold Reader.feed
  rw [if_pos rfl,if_neg Bool.false_ne_true]
  change Reader.lineEnd _ = _
  unfold Reader.lineEnd
  rw [if_pos rfl,if_neg (by simp),Nat.zero_add]
  simp

-- A line goes on where a bracket is open.
theorem read_enclosed (close : Char) {text : Chars}
    (all : ∀ c ∈ text, (decide (c = '\n') || plain c) = true) :
    ∃ longer, run Reader.feed ⟨.code,close :: brackets,indent,current,lines,false⟩ text =
      ⟨.code,close :: brackets,indent,longer,lines,false⟩ := by
  induction text generalizing current with
  | nil => exact ⟨current,rfl⟩
  | cons c rest ih =>
      rw [List.forall_mem_cons] at all
      rw [run_cons]
      rcases Bool.or_eq_true_iff.mp all.1 with line | its
      · rw [of_decide_eq_true line]
        exact ih current all.2
      · have one := read_plain (close :: brackets) indent current lines fun d here =>
          (List.mem_singleton.mp here).symm ▸ its
        rw [run_cons,run_nil] at one
        rw [one]
        exact ih _ all.2

theorem read_literal (mark : Mark) {c : Char} {text : Chars}
    (all : ∀ d ∈ c :: text, inner mark d = true) :
    run Reader.feed ⟨.code,brackets,indent,current,lines,false⟩ (mark.char :: c :: text ++ [mark.char]) =
      ⟨.code,brackets,indent,mark.char :: (text.reverse ++ c :: mark.char :: current),lines,false⟩ := by
  rw [List.forall_mem_cons] at all
  obtain ⟨its,later⟩ := all
  obtain ⟨feed,carriage,escape,apart⟩ := inner_exact its
  have opened : Reader.feed ⟨.code,brackets,indent,current,lines,false⟩ mark.char =
      ⟨.opening mark false,brackets,indent,mark.char :: current,lines,false⟩ := by cases mark <;> rfl
  have first : Reader.feed ⟨.opening mark false,brackets,indent,mark.char :: current,lines,false⟩ c =
      ⟨.quoted mark,brackets,indent,c :: mark.char :: current,lines,false⟩ := by
    unfold Reader.feed Reader.other
    rw [if_neg feed,if_neg carriage]
    dsimp only
    rw [if_neg apart,if_neg escape]
    rfl
  rw [List.cons_append,List.cons_append,run_cons,opened,run_cons,first,run_append,read_quoted _ _ _ _ mark later]
  cases mark <;> rfl

-- In a string over several lines, as long as no two marks meet.
theorem read_tripled (mark : Mark) {text : Chars} (all : ∀ c ∈ text, (c != '\r' && c != '\\') = true)
    (apart : text.IsChain fun c d => ¬ (c = mark.char ∧ d = mark.char)) (seen : Nat)
    (fresh : seen = 0 ∨ seen = 1 ∧ text.head? ≠ some mark.char) :
    ∃ more longer, run Reader.feed ⟨.tripled mark seen,brackets,indent,current,lines,false⟩ text =
      ⟨.tripled mark more,brackets,indent,longer,lines,false⟩ := by
  induction text generalizing seen current with
  | nil => exact ⟨seen,current,rfl⟩
  | cons c rest ih =>
      rw [List.forall_mem_cons] at all
      obtain ⟨its,later⟩ := all
      obtain ⟨carriage,escape⟩ : c ≠ '\r' ∧ c ≠ '\\' := by simpa using its
      obtain ⟨meets,chain⟩ := List.isChain_cons.mp apart
      rw [run_cons]
      by_cases same : c = mark.char
      · have none_seen : seen = 0 := fresh.resolve_right fun one => one.2 (by rw [List.head?_cons,same])
        subst none_seen same
        have step : Reader.feed ⟨.tripled mark 0,brackets,indent,current,lines,false⟩ mark.char =
            ⟨.tripled mark 1,brackets,indent,mark.char :: current,lines,false⟩ := by cases mark <;> rfl
        rw [step]
        exact ih (mark.char :: current) later chain 1 (.inr ⟨rfl,fun head => meets mark.char head ⟨rfl,rfl⟩⟩)
      · by_cases feed : c = '\n'
        · subst feed
          exact ih current later chain 0 (.inl rfl)
        · have step : Reader.feed ⟨.tripled mark seen,brackets,indent,current,lines,false⟩ c =
              ⟨.tripled mark 0,brackets,indent,c :: current,lines,false⟩ := by
            unfold Reader.feed Reader.other
            rw [if_neg feed,if_neg carriage]
            dsimp only
            rw [if_neg same,if_neg escape]
            rfl
          rw [step]
          exact ih (c :: current) later chain 0 (.inl rfl)
end Reading

section Growth
variable (reader : Reader)

theorem codeChar_lines (c : Char) : (reader.codeChar c).lines = reader.lines := by
  unfold Reader.codeChar
  repeat' split
  all_goals rfl

theorem marginChar_lines (c : Char) : (reader.marginChar c).lines = reader.lines := by
  unfold Reader.marginChar
  repeat' split
  all_goals first | rfl | exact codeChar_lines reader c

theorem other_lines (c : Char) : (reader.other c).lines = reader.lines := by
  unfold Reader.other
  repeat' split
  all_goals first | rfl | exact marginChar_lines reader c | exact codeChar_lines reader c

theorem lineEnd_lines : reader.lines <+: reader.lineEnd.lines := by
  unfold Reader.lineEnd
  repeat' split
  · exact List.prefix_refl _
  · exact List.prefix_append _ _
  · exact List.prefix_refl _

theorem newline_lines : reader.lines <+: reader.newline.lines := by
  unfold Reader.newline
  split
  all_goals first | exact List.prefix_refl _ | exact lineEnd_lines reader

theorem feed_lines (c : Char) : reader.lines <+: (reader.feed c).lines := by
  unfold Reader.feed
  repeat' split
  · exact List.prefix_refl _
  · exact newline_lines reader
  · exact newline_lines reader
  · change reader.lines <+: (reader.other c).lines
    rw [other_lines]

theorem run_lines (text : Chars) : reader.lines <+: (run Reader.feed reader text).lines := by
  induction text generalizing reader with
  | nil => exact List.prefix_refl _
  | cons c rest ih => exact (feed_lines reader c).trans (ih (reader.feed c))

theorem finish_lines {whole : List Line} (ended : reader.finish = some whole) : reader.lines <+: whole := by
  unfold Reader.finish at ended
  repeat' split at ended
  all_goals cases ended
  all_goals first | exact List.prefix_refl _ | exact lineEnd_lines reader

theorem feed_failed (gone : reader.mode = .failed) (c : Char) : (reader.feed c).mode = .failed := by
  have line : reader.newline = reader.go .failed := by rw [Reader.newline,gone]
  have none_other : reader.other c = reader.go .failed := by rw [Reader.other,gone]
  unfold Reader.feed
  repeat' split
  · exact gone
  · rw [line]; rfl
  · rw [line]; rfl
  · rw [none_other]; rfl

theorem read_failed (gone : reader.mode = .failed) (text : Chars) : (run Reader.feed reader text).finish = none := by
  induction text generalizing reader with
  | nil =>
      rw [run_nil,Reader.finish,gone]
      exact ite_self none
  | cons c rest ih => exact ih (reader.feed c) (feed_failed reader gone c)
end Growth

section Ends
variable (reader : Reader)

-- Where the reader cannot be between two lines or behind a backslash.
def Mode.solid : Mode → Bool
  | .margin | .joined | .quotedEscape _ | .tripledEscape _ => false
  | _ => true

def ink (c : Char) : Bool := !([' ','\t','\x0c','\n','\r','\\'].contains c)

theorem ink_exact {c : Char} (its : ink c = true) :
    c ≠ ' ' ∧ c ≠ '\t' ∧ c ≠ '\x0c' ∧ c ≠ '\n' ∧ c ≠ '\r' ∧ c ≠ '\\' := by
  simpa [ink] using its

theorem codeChar_solid {c : Char} (its : ink c = true) : (reader.codeChar c).mode.solid = true := by
  obtain ⟨_,_,_,_,_,escape⟩ := ink_exact its
  unfold Reader.codeChar
  rw [if_neg escape]
  repeat' split
  all_goals rfl

theorem other_solid {c : Char} (its : ink c = true) : (reader.other c).mode.solid = true := by
  obtain ⟨space,tab,page,_,_,escape⟩ := ink_exact its
  have margin : reader.marginChar c = reader.codeChar c := by rw [Reader.marginChar,if_neg space,if_neg tab,if_neg page]
  unfold Reader.other
  rw [margin]
  split
  case h_3 comment => rw [comment]; rfl
  all_goals repeat' split
  all_goals first | rfl | exact codeChar_solid reader its

theorem feed_solid {c : Char} (its : ink c = true) : (reader.feed c).mode.solid = true ∧ (reader.feed c).returned = false := by
  obtain ⟨_,_,_,feed,carriage,_⟩ := ink_exact its
  unfold Reader.feed
  rw [if_neg feed,if_neg carriage]
  exact ⟨other_solid reader its,rfl⟩

-- What the end of a line leaves behind something that shows.
theorem newline_solid (its : reader.mode.solid = true) (fresh : reader.returned = false) :
    (reader.feed '\n').mode = .failed ∨ (∃ lines, reader.feed '\n' = ⟨.margin,[],0,[],lines,false⟩) ∨
      (∃ close brackets indent current lines, reader.feed '\n' = ⟨.code,close :: brackets,indent,current,lines,false⟩) ∨
      ∃ mark brackets indent current lines, reader.feed '\n' = ⟨.tripled mark 0,brackets,indent,current,lines,false⟩ := by
  obtain ⟨mode,brackets,indent,current,lines,returned⟩ := reader
  change returned = false at fresh
  subst fresh
  have line : ∀ mode, Reader.newline ⟨mode,brackets,indent,current,lines,false⟩ =
      Reader.lineEnd ⟨mode,brackets,indent,current,lines,false⟩ →
      (∃ more, Reader.newline ⟨mode,brackets,indent,current,lines,false⟩ = ⟨.margin,[],0,[],more,false⟩) ∨
        ∃ close rest atIndent soFar before, Reader.newline ⟨mode,brackets,indent,current,lines,false⟩ =
          ⟨.code,close :: rest,atIndent,soFar,before,false⟩ := by
    intro mode same
    rw [same]
    cases brackets with
    | cons close rest => exact .inr ⟨close,rest,indent,current,lines,rfl⟩
    | nil =>
        cases current with
        | nil => exact .inl ⟨lines,rfl⟩
        | cons c current => exact .inl ⟨lines ++ [⟨indent,(c :: current).reverse⟩],rfl⟩
  have ends : Reader.feed ⟨mode,brackets,indent,current,lines,false⟩ '\n' =
      Reader.newline ⟨mode,brackets,indent,current,lines,false⟩ := by
    rw [Reader.feed,if_pos rfl]
    exact if_neg Bool.false_ne_true
  rw [ends]
  cases mode with
  | margin => cases its
  | joined => cases its
  | quotedEscape mark => cases its
  | tripledEscape mark => cases its
  | code => exact .inr ((line .code rfl).imp_right .inl)
  | comment => exact .inr ((line .comment rfl).imp_right .inl)
  | opening mark again =>
      cases again with
      | false => exact .inl rfl
      | true => exact .inr ((line (.opening mark true) rfl).imp_right .inl)
  | quoted mark => exact .inl rfl
  | tripled mark seen => exact .inr (.inr (.inr ⟨mark,brackets,indent,current,lines,rfl⟩))
  | failed => exact .inl rfl
end Ends

section Siblings

theorem place_none (lines : List Line) : run place none lines = none := by
  induction lines with
  | nil => rfl
  | cons line rest ih => exact ih

theorem enter_top {line : Line} {levels : List Level} {after : Blocks} (entered : enter line levels = some after) :
    ∃ level rest, levels = level :: rest ∧ follows level.last line.word = true ∧
      after = ⟨⟨level.indent,line.word⟩ :: rest,line.header⟩ := by
  cases levels with
  | nil => cases entered
  | cons level rest =>
      simp only [enter] at entered
      split at entered
      · rename_i fits
        exact ⟨level,rest,rfl,fits,(Option.some.inj entered).symm⟩
      · cases entered

theorem dedent_top {indent : Nat} {levels left : List Level} (found : dedent indent levels = some left) :
    ∃ level rest, left = level :: rest ∧ level.indent = indent := by
  induction levels with
  | nil => cases found
  | cons level rest ih =>
      simp only [dedent] at found
      split at found
      · rename_i same
        exact ⟨level,rest,(Option.some.inj found).symm,same⟩
      · split at found
        · exact ih found
        · cases found

theorem place_top {state : Option Blocks} {line : Line} {after : Blocks} (placed : place state line = some after) :
    ∃ rest, after = ⟨⟨line.indent,line.word⟩ :: rest,line.header⟩ := by
  obtain ⟨blocks,_,placed⟩ := Option.bind_eq_some_iff.mp placed
  split at placed
  · split at placed
    · obtain ⟨level,rest,same,_,whole⟩ := enter_top placed
      cases same
      exact ⟨_,whole⟩
    · cases placed
  · obtain ⟨left,found,entered⟩ := Option.bind_eq_some_iff.mp placed
    obtain ⟨level,rest,same,_,whole⟩ := enter_top entered
    obtain ⟨top,_,other,indent⟩ := dedent_top found
    obtain ⟨rfl,_⟩ := List.cons.inj (same.symm.trans other)
    rw [indent] at whole
    exact ⟨rest,whole⟩

-- A clause right behind a line of its own block that it may not follow.
theorem siblings_refused {first second : Line} (level : second.indent = first.indent) (flat : first.header = false)
    (apart : follows first.word second.word = false) (front back : List Line) :
    nested (front ++ first :: second :: back) = false := by
  have nowhere : ∀ state, run place state (first :: second :: back) = none := by
    intro state
    rw [run_cons,run_cons]
    cases placed : place state first with
    | none => exact place_none _
    | some blocks =>
        obtain ⟨rest,rfl⟩ := place_top placed
        have refused : place (some ⟨⟨first.indent,first.word⟩ :: rest,first.header⟩) second = none := by
          simp [place,flat,dedent,level,enter,apart]
        rw [refused]
        exact place_none _
  rw [nested,run_append,nowhere]
end Siblings

-- A text that neither closes a bracket nor ends a string is read from the start of a line.
theorem layout_resumes {c : Char} (its : ink c = true) (front rest : Chars) {whole : List Line}
    (enclosed : ∀ close brackets indent current lines,
      (run Reader.feed ⟨.code,close :: brackets,indent,current,lines,false⟩ rest).finish = none)
    (within : ∀ mark brackets indent current lines,
      (run Reader.feed ⟨.tripled mark 0,brackets,indent,current,lines,false⟩ rest).finish = none)
    (accepted : layout (front ++ c :: '\n' :: rest) = some whole) :
    ∃ lines, (run Reader.feed ⟨.margin,[],0,[],lines,false⟩ rest).finish = some whole := by
  rw [layout,run_append,run_cons,run_cons] at accepted
  obtain ⟨solid,fresh⟩ := feed_solid (run Reader.feed .start front) its
  rcases newline_solid _ solid fresh with gone | ⟨lines,same⟩ | ⟨close,brackets,indent,current,lines,same⟩ |
      ⟨mark,brackets,indent,current,lines,same⟩
  · rw [read_failed _ gone] at accepted; cases accepted
  · rw [same] at accepted; exact ⟨lines,accepted⟩
  · rw [same,enclosed] at accepted; cases accepted
  · rw [same,within] at accepted; cases accepted

end BlockLayout
