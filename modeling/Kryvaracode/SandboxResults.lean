import Kryvaracode.Sandbox
import Kryvaracode.JsonFront

namespace Kryvaracode.Sandbox
open CodeValidation UnicodeText JsonText JsonReader

-- The most digits an integer may have to be printed or read.
def maxStrDigits : Nat := 4300

def limitText : Text := "Exceeds the limit (".toList ++ (toString maxStrDigits).toList ++
  " digits) for integer string conversion".toList

-- Nothing reads the text of a decoding error.
def failure : Trouble → Failure
  | .undecodable => ⟨.jsonDecode,[]⟩
  | .tooLong digits => ValueError (limitText ++ ": value has ".toList ++ (toString digits).toList ++
      " digits; use sys.set_int_max_str_digits() to increase the limit".toList)

def asPython : Value → Option Value
  | .null => none
  | value => some value

def decoded (text : Text) : Result (Option Value) :=
  match loads maxStrDigits text with
  | .ok value => .ok (asPython value)
  | .error trouble => .error (failure trouble)

-- A host whose decoder is the JSON reader.
def jsonHost (host : Host Value) : Host Value := { host with loads := decoded, ofText := fun text => .str (points text) }

-- How the wrapper goes on once the target function has returned the value.
def printing (value : PlainJson) (printed logged : Text) : Call :=
  if printable maxStrDigits value.json then .returned (dumps value.json) printed logged
  else .raised (limitText ++ "; use sys.set_int_max_str_digits() to increase the limit".toList) printed logged

-- The program is accepted, and its target function returns the value; `front` is
-- all that it prints, while it is loaded and while it runs.
def Returns (host : Host Value) (run : Nat) (code : Text) (args : Arguments Value) (value : PlainJson) (front : Text) : Prop :=
  Launched host code args ∧ ∃ program functions stdout stderr name printed logged,
    host.start run code args = .ok program ∧ program.load = .defined functions stdout stderr ∧
      targetFunc functions = some name ∧ program.call name = printing value printed logged ∧ front = stdout ++ printed

def Unmixed (value : PlainJson) (front : Text) : Prop :=
  printable maxStrDigits value.json = true ∧
    (front.dropWhile space = [] ∨ front.dropWhile space = ['-'] ∧ value.json = .int 0)

section Strip

theorem blank_space {c : Char} (visible : space c = false) : blank c = false := by
  refine Bool.eq_false_iff.mpr fun shown => ?_
  rcases (by simpa [blank] using shown : c = ' ' ∨ c = '\t' ∨ c = '\n' ∨ c = '\r') with rfl | rfl | rfl | rfl <;> cases visible

theorem starts_visible {c : Char} (first : starts c = true) : space c = false := by
  rcases (by simpa [starts,or_assoc] using first :
    c = '"' ∨ c = '[' ∨ c = '{' ∨ c = 'n' ∨ c = 't' ∨ c = 'f' ∨ c = '-' ∨ c.isDigit = true) with
    rfl | rfl | rfl | rfl | rfl | rfl | rfl | digit
  · rfl
  · rfl
  · rfl
  · rfl
  · rfl
  · rfl
  · rfl
  · exact digit_visible digit

theorem dumps_ends (json : Json) (plain : every plainNode json = true) : ∃ text c, dumps json = text ++ [c] ∧ space c = false := by
  cases json with
  | null => exact ⟨['n','u','l'],'l',rfl,rfl⟩
  | bool flag =>
    cases flag with
    | true => exact ⟨['t','r','u'],'e',rfl,rfl⟩
    | false => exact ⟨['f','a','l','s'],'e',rfl,rfl⟩
  | int n =>
    obtain ⟨c,text,same,_⟩ := int_head n
    have filled : (toString n).toList ≠ [] := by rw [same]; exact List.cons_ne_nil c text
    refine ⟨_,_,(List.dropLast_append_getLast filled).symm,?_⟩
    generalize last : (toString n).toList.getLast filled = d
    rcases int_text_chars n d (by rw [← last]; exact List.getLast_mem filled) with rfl | digit
    · rfl
    · exact digit_visible digit
  | float printed => cases plain
  | str text => exact ⟨_,'"',rfl,rfl⟩
  | arr items => exact ⟨_,']',rfl,rfl⟩
  | obj members => exact ⟨_,'}',rfl,rfl⟩

theorem dropWhile_visible (front : Text) {c : Char} (visible : space c = false) (text : Text) :
    (front ++ c :: text).dropWhile space = front.dropWhile space ++ c :: text := by
  induction front with
  | nil => rw [List.nil_append,List.dropWhile_cons,visible]; rfl
  | cons d front ih =>
    cases blank : space d with
    | true => rw [List.cons_append,List.dropWhile_cons_of_pos blank,List.dropWhile_cons_of_pos blank,ih]
    | false =>
      have shown : ¬ space d = true := by rw [blank]; decide
      rw [List.cons_append,List.dropWhile_cons_of_neg shown,List.dropWhile_cons_of_neg shown,List.cons_append]

-- The line break `print` adds goes, and the blanks in front.
theorem strip_line (front : Text) (value : PlainJson) :
    strip (front ++ dumps value.json ++ ['\n']) = front.dropWhile space ++ dumps value.json := by
  obtain ⟨json,plain⟩ := value
  obtain ⟨c,rest,begins,first⟩ := dumps_starts json plain
  obtain ⟨text,d,ends,last⟩ := dumps_ends json plain
  have opened : (front ++ dumps json ++ ['\n']).dropWhile space = front.dropWhile space ++ dumps json ++ ['\n'] := by
    rw [begins,List.append_assoc,List.append_assoc]
    exact dropWhile_visible front (starts_visible first) (rest ++ ['\n'])
  have closed : (front.dropWhile space ++ dumps json ++ ['\n']).reverse = ['\n'] ++ d :: (front.dropWhile space ++ text).reverse := by
    rw [ends]
    simp
  rw [strip,opened,closed,dropWhile_visible ['\n'] last]
  rw [show ['\n'].dropWhile space = [] from rfl,ends]
  simp

end Strip

theorem asPython_injective : Function.Injective asPython := by
  intro one two same
  cases one <;> cases two <;> cases same <;> rfl

theorem escaped_shown (c : Char) : 1 ≤ (escaped c).length := by
  unfold escaped
  repeat' split
  all_goals simp

theorem encoded_longer (text : Text) : text.length < (encoded text).length := by
  have body : text.length ≤ (text.flatMap escaped).length := by
    induction text with
    | nil => exact Nat.le_refl 0
    | cons c text ih =>
      have one := escaped_shown c
      rw [List.flatMap_cons,List.length_append,List.length_cons]
      omega
  rw [encoded,List.length_append,List.length_cons]
  omega

-- The text as a whole is never the string the text shows.
theorem raw_longer (front : Text) (json : Json) : ofJson json ≠ .str (points (front ++ dumps json)) := by
  intro same
  cases json with
  | str text =>
    have lengths := congrArg List.length (points_injective (Value.str.inj same))
    have longer := encoded_longer text
    rw [List.length_append,dumps] at lengths
    omega
  | _ => cases same

section Runs
variable {host : Host Value} {run : Nat} {code : Text} {args : Arguments Value} {value : PlainJson}

theorem decoded_exact {front : Text} (visible : ∀ c rest, front = c :: rest → space c = false)
    (printed : printable maxStrDigits value.json = true) :
    loads maxStrDigits (front ++ dumps value.json) = .ok (ofJson value.json) ↔ front = [] ∨ front = ['-'] ∧ value.json = .int 0 := by
  constructor
  · intro gives
    cases front with
    | nil => exact .inl rfl
    | cons c rest => exact .inr (front_spoils value printed (blank_space (visible c rest rfl)) gives)
  · intro clear
    rcases clear with rfl | ⟨rfl,zero⟩
    · exact loads_dumps value printed
    · rw [zero]
      rfl

theorem parsed_exact (front : Text) (visible : ∀ c rest, front = c :: rest → space c = false)
    (printed : printable maxStrDigits value.json = true) :
    parseResult (jsonHost host) (front ++ dumps value.json) = .ok (asPython (ofJson value.json)) ↔
      front = [] ∨ front = ['-'] ∧ value.json = .int 0 := by
  rw [← decoded_exact visible printed]
  simp only [parseResult,jsonHost,decoded]
  cases read : loads maxStrDigits (front ++ dumps value.json) with
  | ok other =>
    constructor
    · intro same
      rw [asPython_injective (Except.ok.inj same)]
    · intro same
      rw [Except.ok.inj same]
  | error trouble =>
    refine iff_of_false ?_ (fun same => by cases same)
    intro same
    cases trouble with
    | undecodable =>
      have raw : asPython (.str (points (front ++ dumps value.json))) = asPython (ofJson value.json) := Except.ok.inj same
      exact raw_longer front value.json (asPython_injective raw).symm
    | tooLong digits => cases same

theorem execute_ends (launched : Launched host code args) (result : Option Value) :
    execute host run code args = .ok (result,none) ↔ attempt host run code args = .ok (result,none) := by
  rw [execute_launched host run code args launched]
  cases ended : attempt host run code args with
  | ok pair => exact Iff.rfl
  | error raised =>
    simp only
    cases caught : handled raised with
    | none => simp
    | some error => simp

theorem attempt_zero {program : Program} (started : host.start run code args = .ok program)
    (zero : (wrapped program).returncode = 0) (result : Option Value) : attempt host run code args = .ok (result,none) ↔
      parseResult host (strip (wrapped program).stdout) = .ok result := by
  simp only [attempt,started,bind,Except.bind,zero,ne_eq,not_true_eq_false,if_false]
  cases parseResult host (strip (wrapped program).stdout) with
  | ok parsed => simp [pure,Except.pure]
  | error raised => simp

theorem attempt_failed {program : Program} (started : host.start run code args = .ok program)
    (failed : (wrapped program).returncode ≠ 0) : attempt host run code args = .ok (none,some (wrapped program).stderr) := by
  simp only [attempt,started,bind,Except.bind,if_pos failed]
  rfl

theorem front_visible {front rest : Text} {c : Char} (left : front.dropWhile space = c :: rest) : space c = false := by
  have head := List.head_dropWhile_not space (l := front) (by rw [left]; exact List.cons_ne_nil c rest)
  simpa only [left,List.head_cons] using head

end Runs

def calm (tree : Node) (program : Program) : Host Value where
  parse _ := .ok tree
  prepare _ _ := .ok ()
  start _ _ _ := .ok program
  loads := decoded
  ofText text := .str (points text)
  str _ := []

def one : PlainJson := ⟨.int 1,rfl⟩

-- A function that returns 1, and one that prints a line before it does.
def quietCode : Text := "def execute():\n    return 1\n".toList
def quietTree : Node := .other [.other [.other []]]
def noisyCode : Text := "def execute():\n    print(\"hi\")\n    return 1\n".toList
def printName : Identifier := ⟨"print".toList,by decide⟩
def noisyTree : Node := .other [.other [.other [.call (.name printName) [.other []] []],.other [.other []]]]

def oneAfter (printed : Text) : Program where
  load := .defined ["execute".toList] [] []
  call _ := printing one printed []

theorem quiet_returns : Returns (jsonHost (calm quietTree (oneAfter []))) 0 quietCode [] one [] := by
  refine ⟨⟨⟨none,?_,rfl⟩,rfl⟩,oneAfter [],["execute".toList],[],[],"execute".toList,[],[],rfl,rfl,rfl,rfl,rfl⟩
  decide +kernel

def noisyHost : Host Value := jsonHost (calm noisyTree (oneAfter "hi\n".toList))

theorem print_allowed : printName.val ∉ FORBIDDEN_PATTERNS := by
  delta printName FORBIDDEN_PATTERNS
  simp only [List.map_cons,List.map_nil]
  repeat rewrite [String.toList_ofList]
  decide +kernel

theorem noisyTree_accepted : validateTree noisyTree = none := by
  have visited : walk noisyTree = [noisyTree,.other [.other [.call (.name printName) [.other []] []],.other [.other []]],
    .other [.call (.name printName) [.other []] []],.other [.other []],.call (.name printName) [.other []] [],.other [],
    .name printName,.other []] := rfl
  refine List.findSome?_eq_none_iff.mpr fun node member => ?_
  simp only [visited,List.mem_cons,List.not_mem_nil,or_false] at member
  rcases member with rfl | rfl | rfl | rfl | rfl | rfl | rfl | rfl
  · rfl
  · rfl
  · rfl
  · rfl
  · exact named_call_allowed print_allowed _ _
  · rfl
  · rfl
  · rfl

end Kryvaracode.Sandbox
