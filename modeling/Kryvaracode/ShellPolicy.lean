import Kryvaracode.Exceptions
import Kryvaracode.QuotedWords

namespace Kryvaracode.ShellPolicy
open Patterns UnicodeText QuotedWords

def notSeparator (c : Char) : Bool := c != '|' && c != ';' && c != '&'
def smallLetter (c : Char) : Bool := decide ('a' ≤ c) && decide (c ≤ 'z')

variable (tables : Tables)

-- `_BLOCKED_PATTERNS`, in the source's order. The text searched is in lower
-- case, so the last one can never match: its hive name is in capitals.
def blockedPatterns : List (List (Pattern Char)) :=
  let edge := Pattern.edge tables.word
  [[literal "rm".toList,plus space,[many notSeparator],literal "-".toList,[many smallLetter],literal "r".toList].flatten,
   [[edge],literal "mkfs".toList,[edge]].flatten,
   [[edge],literal "dd".toList,plus space,[many notSeparator],literal "of=/dev/".toList].flatten,
   [literal ":()".toList,[many space],literal "\x7b".toList,[many space],literal ":".toList,[many space],
     literal "|".toList,[many space],literal ":".toList].flatten,
   [[edge],literal "shutdown".toList,[edge]].flatten,
   [[edge],literal "reboot".toList,[edge]].flatten,
   [[edge],literal "halt".toList,[edge]].flatten,
   [[edge],literal "poweroff".toList,[edge]].flatten,
   [[edge],literal "format".toList,plus space,[.one smallLetter],literal ":".toList].flatten,
   [literal "del".toList,plus space,literal "/s".toList,[many notSeparator],literal "\\\\windows".toList].flatten,
   [literal "rd".toList,plus space,literal "/s".toList,[many notSeparator],literal "\\\\windows".toList].flatten,
   [[edge],literal "reg".toList,plus space,literal "delete".toList,plus space,literal "HKLM".toList].flatten]

def blocked (text : Text) : Bool := (blockedPatterns tables).any fun items => search (seqs items) text

-- `_SHELL_METACHARS_RE`
def metachar (c : Char) : Bool := "|&;<>`$()\n\r".toList.contains c

def checkCommand (command : Text) : Result Unit :=
  if blocked tables (tables.lower (strip command)) then
    .error (ForbiddenError "Command blocked by destructive-pattern policy".toList)
  else if command.any metachar then
    .error (ForbiddenError "Shell metacharacters are not allowed; use a single command with arguments".toList)
  else .ok ()

theorem checkCommand_exact (command : Text) : checkCommand tables command = .ok () ↔
    blocked tables (tables.lower (strip command)) = false ∧ ∀ c ∈ command, metachar c = false := by
  unfold checkCommand
  by_cases bad : blocked tables (tables.lower (strip command)) = true
  · simp [bad]
  · by_cases chained : command.any metachar = true
    · have : ¬ ∀ c ∈ command, metachar c = false := by simpa using chained
      simp [bad,chained,this]
    · simp only [bad,chained]
      simpa using chained

theorem word_space (c : Char) (blank : space c = true) : tables.word c = false := by
  have under : c ≠ '_' := by rintro rfl; simp [space,spaces] at blank
  simp [Tables.word,tables.alnum_space c blank,under]

theorem notSeparator_space (c : Char) (blank : space c = true) : notSeparator c = true := by
  have apart : c ≠ '|' ∧ c ≠ ';' ∧ c ≠ '&' := by
    refine ⟨?_,?_,?_⟩ <;> rintro rfl <;> simp [space,spaces] at blank
  simp [notSeparator,apart]

theorem smallLetter_space (c : Char) (blank : space c = true) : smallLetter c = false := by
  by_contra letter
  have range : 97 ≤ c.toNat ∧ c.toNat ≤ 122 := by simpa [smallLetter,Char.le_def,UInt32.le_iff_toNat_le] using letter
  simp only [space,spaces,List.contains_eq_mem,decide_eq_true_eq,List.mem_cons,List.not_mem_nil,or_false] at blank
  omega

-- Every blocked pattern starts and ends outside white space, and reads it only
-- where any amount of it will do.
theorem blocked_framed (items : List (Pattern Char)) (member : items ∈ blockedPatterns tables) : Framed space items := by
  have edge := word_space tables
  have gap : ∀ c, space c = true → space c = true := fun _ blank => blank
  have letter := smallLetter_space
  have any := notSeparator_space
  have alone : ∀ (d : Char) (text : Text), (d :: text).any space = false →
      Framed space (.edge tables.word :: (literal (d :: text) ++ [.edge tables.word])) :=
    fun d text absent => framed_edge edge d text absent (.edgeEnd edge)
  simp only [blockedPatterns,List.mem_cons,List.not_mem_nil,or_false] at member
  rcases member with rfl | rfl | rfl | rfl | rfl | rfl | rfl | rfl | rfl | rfl | rfl | rfl
  · exact framed_word 'r' ['m'] (by decide) (.gap gap (.run gap (.run any
      (laid_word '-' [] (by decide) (.tight letter (laid_word 'r' [] (by decide) .nil))))))
  · exact alone 'm' "kfs".toList (by decide)
  · exact framed_edge edge 'd' ['d'] (by decide) (.gap gap (.run gap (.run any
      (laid_word 'o' "f=/dev/".toList (by decide) .nil))))
  · exact framed_word ':' "()".toList (by decide) (.run gap (laid_word '{' [] (by decide) (.run gap
      (laid_word ':' [] (by decide) (.run gap (laid_word '|' [] (by decide) (.run gap
        (laid_word ':' [] (by decide) .nil))))))))
  · exact alone 's' "hutdown".toList (by decide)
  · exact alone 'r' "eboot".toList (by decide)
  · exact alone 'h' "alt".toList (by decide)
  · exact alone 'p' "oweroff".toList (by decide)
  · exact framed_edge edge 'f' "ormat".toList (by decide) (.gap gap (.run gap
      (.solid letter (laid_word ':' [] (by decide) .nil))))
  · exact framed_word 'd' "el".toList (by decide) (.gap gap (.run gap
      (laid_word '/' ['s'] (by decide) (.run any (laid_word '\\' "\\windows".toList (by decide) .nil)))))
  · exact framed_word 'r' ['d'] (by decide) (.gap gap (.run gap
      (laid_word '/' ['s'] (by decide) (.run any (laid_word '\\' "\\windows".toList (by decide) .nil)))))
  · exact framed_edge edge 'r' "eg".toList (by decide) (.gap gap (.run gap
      (laid_word 'd' "elete".toList (by decide) (.gap gap (.run gap (laid_word 'H' "KLM".toList (by decide) .nil))))))

theorem blocked_sigma (items : List (Pattern Char)) (member : items ∈ blockedPatterns tables) :
    Agrees (seqs items) lastSigma sigma := by
  have word : tables.word lastSigma = tables.word sigma := by
    unfold Tables.word
    rw [tables.alnum_sigma]
    rfl
  simp only [blockedPatterns,List.mem_cons,List.not_mem_nil,or_false] at member
  rcases member with rfl | rfl | rfl | rfl | rfl | rfl | rfl | rfl | rfl | rfl | rfl | rfl
  all_goals
    simp [seqs,literal,plus,many,Agrees,word]
    try decide

theorem blocked_search (items : List (Pattern Char)) (member : items ∈ blockedPatterns tables)
    (same : fields space (one.flatMap tables.lowerEach) = fields space (two.flatMap tables.lowerEach)) :
    search (seqs items) (tables.lower one) = search (seqs items) (tables.lower two) := by
  have blind := blocked_sigma tables items member
  have framed := blocked_framed tables items member
  rw [search_lower tables _ blind,search_lower tables _ blind]
  exact framed.search_fields (show space ' ' = true by decide) same

theorem fields_stripped (command : Text) : fields space ((strip command).flatMap tables.lowerEach) =
    fields space (command.flatMap tables.lowerEach) := by
  obtain ⟨front,back,equal,left,right⟩ := strip_parts command
  have kept : ∀ blanks : Text, (∀ c ∈ blanks, space c = true) → blanks.flatMap tables.lowerEach = blanks := by
    intro blanks all
    induction blanks with
    | nil => rfl
    | cons c blanks ih => simp [lowerEach_space tables (all c (by simp)),ih fun d member => all d (by simp [member])]
  have whole : command.flatMap tables.lowerEach = front ++ (strip command).flatMap tables.lowerEach ++ back := by
    conv_lhs => rw [equal]
    simp [kept front left,kept back right]
  rw [whole,fields_strip front _ back left right]

def Survives (command : Text) : Prop :=
  ∀ argv, split command = .ok argv → blocked tables (tables.lower (joined ' ' argv)) = false

-- A blocked pattern the quoting marks hide: the text without its marks shows
-- it, the text that was checked does not.
def Hidden (command : Text) : Prop :=
  ∃ items ∈ blockedPatterns tables, search (seqs items) (tables.lower (unmarked command)) = true ∧
    search (seqs items) (tables.lower (strip command)) = false

theorem argv_search (ran : split command = .ok argv) (items : List (Pattern Char)) (member : items ∈ blockedPatterns tables) :
    search (seqs items) (tables.lower (joined ' ' argv)) = search (seqs items) (tables.lower (unmarked command)) := by
  have spaces : ∀ c, whitespace c = true → space c = true := by
    intro c blank
    simp only [whitespace,Bool.or_eq_true,decide_eq_true_eq] at blank
    rcases blank with ((rfl | rfl) | rfl) | rfl <;> decide
  exact blocked_search tables items member
    (split_fields space tables.lowerEach spaces (fun c blank => lowerEach_space tables (spaces c blank)) ran)

-- Tokenising a checked command can only bring a blocked pattern to light by
-- taking quoting marks away; the width of the gaps, the stripping and the
-- letter case never matter.
theorem survives_exact (checked : checkCommand tables command = .ok ()) :
    Survives tables command ↔ ((∃ argv, split command = .ok argv) → ¬ Hidden tables command) := by
  obtain ⟨raw,_⟩ := (checkCommand_exact tables command).mp checked
  have clean : ∀ items ∈ blockedPatterns tables, search (seqs items) (tables.lower (strip command)) = false := by
    simpa [blocked] using raw
  constructor
  · rintro survives ⟨argv,ran⟩ ⟨items,member,found,_⟩
    have quiet := survives argv ran
    simp only [blocked,List.any_eq_false] at quiet
    exact quiet items member (by rw [argv_search tables ran items member,found])
  · intro bare argv ran
    simp only [blocked,List.any_eq_false]
    intro items member found
    rw [argv_search tables ran items member] at found
    exact bare ⟨argv,ran⟩ ⟨items,member,found,clean items member⟩

theorem survives_echo : checkCommand ascii "echo 'a  b'".toList = .ok () ∧ Survives ascii "echo 'a  b'".toList := by
  have checked : checkCommand ascii "echo 'a  b'".toList = .ok () := by rfl
  refine ⟨checked,(survives_exact ascii checked).mpr ?_⟩
  rintro _ ⟨items,member,found,_⟩
  have quiet : blocked ascii (ascii.lower (unmarked "echo 'a  b'".toList)) = false := by decide +kernel
  exact absurd found (by simpa [blocked] using (List.any_eq_false.mp quiet) items member)

theorem quoted_rm_runs : checkCommand ascii "\"rm\" -rf /".toList = .ok () ∧ ¬ Survives ascii "\"rm\" -rf /".toList := by
  refine ⟨by rfl,fun survives => ?_⟩
  have quiet := survives ["rm".toList,"-rf".toList,"/".toList] (by rfl)
  revert quiet
  decide +kernel

theorem unmarked_bare (none : ∀ c ∈ command, mark c = false) :
    ¬ Hidden tables command := by
  intro shown
  obtain ⟨items,member,found,clean⟩ := shown
  rw [unmarked_plain command none,← blocked_search tables items member (fields_stripped tables command),clean] at found
  cases found

end Kryvaracode.ShellPolicy
