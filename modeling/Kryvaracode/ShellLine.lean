import Kryvaracode.UnicodeText

-- How a POSIX shell reads a line: its words, with what is quoted in them, and its operators.
namespace ShellLine

-- `active` stands for a character that starts an expansion or a pattern. What
-- the expansion would become is not followed up.
inductive Piece where
  | lit (c : Char)
  | active (c : Char)
  deriving DecidableEq, Repr

inductive Token where
  | word (pieces : List Piece)
  | op (text : Text)
  | newline
  deriving DecidableEq, Repr

inductive Mode where
  | plain
  | single
  | double
  | escape
  | doubleEscape
  deriving DecidableEq, Repr

def blank (c : Char) : Bool := c = ' ' || c = '\t'
def operatorChar (c : Char) : Bool := "|&;<>()".toList.contains c
def ends (c : Char) : Bool := blank c || c = '\n' || operatorChar c
def mark (c : Char) : Bool := c = '\'' || c = '"' || c = '\\'

def special (c : Char) : Bool := "$`*?[".toList.contains c
def ordinary (c : Char) : Bool := c.isAlphanum || "/._-".toList.contains c

-- Shells differ in which other characters are more than themselves in a word.
structure Dialect where
  expands : Char → Bool
  expandsQuoted : Char → Bool
  expands_special : ∀ c, special c = true → expands c = true
  expands_ordinary : ∀ c, ordinary c = true → expands c = false
  quoted_space : expandsQuoted ' ' = false

def posix : Dialect where
  expands := special
  expandsQuoted c := c == '$' || c == '`'
  expands_special _ known := known
  expands_ordinary c known := by
    cases both : special c with
    | false => rfl
    | true =>
        have apart : "$`*?[".toList.all (fun d => !ordinary d) = true := by decide
        have out := List.all_eq_true.mp apart c (List.contains_iff_mem.mp both)
        rw [known] at out
        cases out
  quoted_space := by decide

def emit (front : List Piece) : Option (List Piece × Text) → Option (List Piece × Text)
  | some (pieces,rest) => some (front ++ pieces,rest)
  | none => none

def escapable (c : Char) : Bool := "$`\"\\".toList.contains c

variable (dialect : Dialect)

-- The pieces of a word and the text after it; no word ends inside quotes.
def word : Mode → Text → Option (List Piece × Text)
  | .plain,[] => some ([],[])
  | .single,[] | .double,[] | .escape,[] | .doubleEscape,[] => none
  | .plain,c :: text =>
      if ends c then some ([],c :: text)
      else if c = '\'' then word .single text
      else if c = '"' then word .double text
      else if c = '\\' then if text = [] then some ([.lit c],[]) else word .escape text
      else emit [if dialect.expands c then .active c else .lit c] (word .plain text)
  | .single,c :: text => if c = '\'' then word .plain text else emit [.lit c] (word .single text)
  | .double,c :: text =>
      if c = '"' then word .plain text
      else if c = '\\' then word .doubleEscape text
      else emit [if dialect.expandsQuoted c then .active c else .lit c] (word .double text)
  | .escape,c :: text => if c = '\n' then word .plain text else emit [.lit c] (word .plain text)
  | .doubleEscape,c :: text =>
      if c = '\n' then word .double text
      else emit (if escapable c then [.lit c] else [.lit '\\',.lit c]) (word .double text)

def operators : List Text :=
  ["<<-","&&","||",";;","<<",">>","<&",">&","<>",">|","|","&",";","<",">","(",")"].map String.toList

def token : Text → Option (Option Token × Text)
  | [] => some (none,[])
  | c :: text =>
      if blank c then some (none,text)
      else if c = '\n' then some (some .newline,text)
      else if c = '#' then some (none,text.dropWhile (· != '\n'))
      else if c = '\\' ∧ text.head? = some '\n' then some (none,text.tail)
      else match operators.find? (·.isPrefixOf (c :: text)) with
        | some op => some (some (.op op),(c :: text).drop op.length)
        | none => (word dialect .plain (c :: text)).map fun (pieces,rest) => (some (.word pieces),rest)

-- The tokens a shell has read of a line, and the text it has not looked at yet.
inductive Reads : Text → List Token → Text → Prop where
  | nil (text : Text) : Reads text [] text
  | step (found : token dialect (c :: text) = some (first,rest)) (later : Reads rest tokens final)
      (same : all = first.toList ++ tokens) : Reads (c :: text) all final

def literal (text : Text) : Token := .word (text.map .lit)

def inert (c : Char) : Bool := !ends c && !mark c && !dialect.expands c

theorem emit_some (found : emit front parts = some (pieces,rest)) :
    ∃ tail, parts = some (tail,rest) ∧ pieces = front ++ tail := by
  cases parts with
  | none => cases found
  | some parts =>
      obtain ⟨tail,rest'⟩ := parts
      cases found
      exact ⟨tail,rfl,rfl⟩

-- A backslash inside double quotes may still come out as a piece.
def Mode.slack : Mode → Nat
  | .doubleEscape => 1
  | _ => 0

def spaces (pieces : List Piece) : Nat := pieces.count (.lit ' ')

-- The pieces of a word are at most the characters they come from, and every
-- blank among these comes out.
def Taken (mode : Mode) (text : Text) (pieces : List Piece) (rest : Text) : Prop :=
  ∃ taken, text = taken ++ rest ∧ pieces.length ≤ taken.length + mode.slack ∧ spaces pieces = taken.count ' '

theorem Taken.emit (taken : Taken next text tail rest) (front : List Piece) (c : Char)
    (short : front.length + next.slack ≤ 1 + mode.slack) (same : spaces front = [c].count ' ') :
    Taken mode (c :: text) (front ++ tail) rest := by
  obtain ⟨read,rfl,bound,count⟩ := taken
  refine ⟨c :: read,rfl,?_,?_⟩
  · simp only [List.length_append,List.length_cons]
    omega
  · rw [← List.singleton_append,List.count_append,← same,← count]
    exact List.count_append

theorem Taken.drop (taken : Taken next text pieces rest) (c : Char) (short : next.slack ≤ 1 + mode.slack) (visible : c ≠ ' ') :
    Taken mode (c :: text) pieces rest :=
  taken.emit [] c (by simpa using short) (by simp [spaces,visible])

theorem ends_space (within : ends c = false) : c ≠ ' ' := by
  intro same
  subst same
  cases within

theorem word_taken (mode : Mode) (text : Text) (pieces : List Piece) (rest : Text)
    (found : word dialect mode text = some (pieces,rest)) : Taken mode text pieces rest := by
  induction text generalizing mode pieces with
  | nil =>
      cases mode with
      | plain => cases found; exact ⟨[],rfl,Nat.zero_le _,rfl⟩
      | _ => cases found
  | cons c text ih =>
      cases mode with
      | plain =>
          rw [word] at found
          split at found
          · cases found; exact ⟨[],rfl,Nat.zero_le _,rfl⟩
          · rename_i within
            have visible := ends_space (Bool.not_eq_true _ ▸ within)
            split at found
            · exact (ih .single pieces found).drop c (by decide) visible
            · split at found
              · exact (ih .double pieces found).drop c (by decide) visible
              · split at found
                · split at found
                  · rename_i empty
                    cases found
                    exact ⟨[c],by rw [empty]; rfl,by simp,by simp [spaces,visible]⟩
                  · exact (ih .escape pieces found).drop c (by decide) visible
                · obtain ⟨tail,read,rfl⟩ := emit_some found
                  refine (ih .plain tail read).emit _ c (by simp [Mode.slack]) ?_
                  split <;> simp [spaces,visible]
      | single =>
          rw [word] at found
          split at found
          · rename_i closed
            exact (ih .plain pieces found).drop c (by decide) (by rw [closed]; decide)
          · obtain ⟨tail,read,rfl⟩ := emit_some found
            refine (ih .single tail read).emit _ c (by simp [Mode.slack]) ?_
            simp [spaces,List.count_singleton]
      | double =>
          rw [word] at found
          split at found
          · rename_i closed
            exact (ih .plain pieces found).drop c (by decide) (by rw [closed]; decide)
          · split at found
            · rename_i escape
              exact (ih .doubleEscape pieces found).drop c (by decide) (by rw [escape]; decide)
            · obtain ⟨tail,read,rfl⟩ := emit_some found
              refine (ih .double tail read).emit _ c (by simp [Mode.slack]) ?_
              by_cases same : c = ' '
              · simp [spaces,same,dialect.quoted_space]
              · split <;> simp [spaces,same]
      | escape =>
          rw [word] at found
          split at found
          · rename_i joined
            exact (ih .plain pieces found).drop c (by decide) (by rw [joined]; decide)
          · obtain ⟨tail,read,rfl⟩ := emit_some found
            refine (ih .plain tail read).emit _ c (by simp [Mode.slack]) ?_
            simp [spaces,List.count_singleton]
      | doubleEscape =>
          rw [word] at found
          split at found
          · rename_i joined
            exact (ih .double pieces found).drop c (by decide) (by rw [joined]; decide)
          · obtain ⟨tail,read,rfl⟩ := emit_some found
            refine (ih .double tail read).emit _ c ?_ ?_
            · split <;> simp [Mode.slack]
            · split <;> simp [spaces,List.count_cons]

theorem inert_parts (plain : inert dialect c = true) : ends c = false ∧ mark c = false ∧ dialect.expands c = false := by
  simpa [inert,and_assoc] using plain

theorem word_inert (plain : inert dialect c = true) (text : Text) :
    word dialect .plain (c :: text) = emit [.lit c] (word dialect .plain text) := by
  obtain ⟨within,unmarked,still⟩ := inert_parts dialect plain
  simp only [mark,Bool.or_eq_false_iff,decide_eq_false_iff_not] at unmarked
  simp [word,within,unmarked,still]

theorem word_ends (closed : ends c = true) (text : Text) : word dialect .plain (c :: text) = some ([],c :: text) := by
  rw [word,if_pos closed]

theorem word_literal (text : Text) (plain : ∀ c ∈ text, inert dialect c = true) (closed : ends d = true) (more : Text) :
    word dialect .plain (text ++ d :: more) = some (text.map .lit,d :: more) := by
  induction text with
  | nil => exact word_ends dialect closed more
  | cons c text ih =>
      obtain ⟨first,rest⟩ := List.forall_mem_cons.mp plain
      rw [List.cons_append,word_inert dialect first,ih rest]
      rfl

theorem literal_spaces (text : Text) : spaces (text.map .lit) = text.count ' ' :=
  List.count_map_of_injective text Piece.lit (fun _ _ same => Piece.lit.inj same) ' '

-- A quoting mark in a word that comes out as it went in: the word would have to
-- reach past its own blank, and so hold one blank too many.
theorem mark_literal (mode : Mode) (exact' : mode.slack = 0) (c : Char) (visible : c ≠ ' ') (text more rest : Text)
    (found : word dialect mode (text ++ ' ' :: more) = some ((c :: text).map .lit,rest)) : False := by
  obtain ⟨taken,equal,bound,count⟩ := word_taken dialect mode _ _ rest found
  have literal' : spaces ((c :: text).map .lit) = text.count ' ' := by
    rw [literal_spaces,List.count_cons_of_ne visible]
  rw [exact',List.length_map,List.length_cons] at bound
  have reached : text ++ [' '] <+: text ++ ' ' :: more := ⟨more,by simp⟩
  obtain ⟨tail,rfl⟩ := List.prefix_of_prefix_length_le reached ⟨rest,equal.symm⟩ (by simpa using bound)
  rw [literal'] at count
  simp only [List.count_append,List.count_singleton_self] at count
  omega

theorem literal_inert (text more rest : Text)
    (found : word dialect .plain (text ++ ' ' :: more) = some (text.map .lit,rest)) : ∀ c ∈ text, inert dialect c = true := by
  induction text with
  | nil => intro c member; cases member
  | cons c text ih =>
      by_cases plain : inert dialect c = true
      · rw [List.cons_append,word_inert dialect plain] at found
        obtain ⟨tail,read,same⟩ := emit_some found
        obtain rfl : text.map .lit = tail := (List.cons.inj same).2
        exact List.forall_mem_cons.mpr ⟨plain,ih read⟩
      · exfalso
        rw [List.cons_append,word] at found
        split at found
        · cases found
        · rename_i within
          have visible := ends_space (Bool.not_eq_true _ ▸ within)
          split at found
          · exact mark_literal dialect .single rfl c visible text more rest found
          · split at found
            · exact mark_literal dialect .double rfl c visible text more rest found
            · split at found
              · simp only [List.append_eq_nil_iff,List.cons_ne_nil,and_false,if_false] at found
                exact mark_literal dialect .escape rfl c visible text more rest found
              · obtain ⟨tail,read,same⟩ := emit_some found
                split at same
                · cases (List.cons.inj same).1
                · apply plain
                  simp_all [inert,mark]

theorem operators_char (op : Text) (member : op ∈ operators) : ∃ c rest, op = c :: rest ∧ operatorChar c = true := by
  have headed : operators.all (fun op => op.head?.any operatorChar) = true := by decide +kernel
  have special := List.all_eq_true.mp headed op member
  cases op with
  | nil => cases special
  | cons c rest => exact ⟨c,rest,rfl,special⟩

theorem operators_none (plain : operatorChar c = false) (text : Text) :
    operators.find? (·.isPrefixOf (c :: text)) = none := by
  rw [List.find?_eq_none]
  intro op member front
  obtain ⟨d,rest,rfl,special⟩ := operators_char op member
  obtain ⟨rfl,_⟩ := List.cons_prefix_cons.mp (List.isPrefixOf_iff_prefix.mp front)
  rw [plain] at special
  cases special

theorem token_blank (clear : blank c = true) (text : Text) : token dialect (c :: text) = some (none,text) := by
  rw [token,if_pos clear]

theorem token_word (within : ends c = false) (comment : c ≠ '#') (escape : c ≠ '\\') (text : Text) :
    token dialect (c :: text) = (word dialect .plain (c :: text)).map fun (pieces,rest) => (some (.word pieces),rest) := by
  simp only [ends,Bool.or_eq_false_iff,decide_eq_false_iff_not] at within
  obtain ⟨⟨visible,sameLine⟩,solid⟩ := within
  rw [token,if_neg (by simp [visible]),if_neg sameLine,if_neg comment,if_neg (fun joined => escape joined.1),
    operators_none solid]

theorem token_and (text : Text) : token dialect ('&' :: '&' :: text) = some (some (.op "&&".toList),text) := by
  have first : operators.find? (·.isPrefixOf ('&' :: '&' :: text)) = some "&&".toList := by
    simp [operators]
  rw [token,if_neg (by decide),if_neg (by decide),if_neg (by decide),if_neg (by simp),first]
  rfl

theorem ordinary_inert (c : Char) (known : ordinary c = true) (within : ends c = false) (unmarked : mark c = false) :
    inert dialect c = true := by
  simp [inert,within,unmarked,dialect.expands_ordinary c known]

theorem ordinary_text (text : Text) (plain : text.all (fun c => ordinary c && !ends c && !mark c) = true) :
    ∀ c ∈ text, inert dialect c = true := by
  intro c member
  have known := List.all_eq_true.mp plain c member
  simp only [Bool.and_eq_true,Bool.not_eq_true'] at known
  exact ordinary_inert dialect c known.1.1 known.1.2 known.2

-- In every dialect these characters make more of a word than what is written.
theorem special_active (c : Char) (known : (special c || ends c || mark c) = true) : inert dialect c = false := by
  simp only [Bool.or_eq_true] at known
  rcases known with (known | known) | known
  · simp [inert,dialect.expands_special c known]
  · simp [inert,known]
  · simp [inert,known]

theorem Reads.tail (reads : Reads dialect (c :: text) tokens final) (found : token dialect (c :: text) = some (first,rest))
    (some' : tokens ≠ []) : ∃ later, tokens = first.toList ++ later ∧ Reads dialect rest later final := by
  cases reads with
  | nil => exact absurd rfl some'
  | step found' later same =>
      rw [found] at found'
      cases found'
      exact ⟨_,same,later⟩

theorem Reads.blank (clear : blank c = true) (reads : Reads dialect text tokens final) : Reads dialect (c :: text) tokens final :=
  .step (token_blank dialect clear text) reads rfl

theorem inert_ends (plain : inert dialect c = true) : ends c = false ∧ c ≠ '\\' := by
  obtain ⟨within,unmarked,_⟩ := inert_parts dialect plain
  refine ⟨within,?_⟩
  intro same
  subst same
  cases unmarked

theorem token_literal (first : Char) (text : Text) (comment : first ≠ '#') (plain : ∀ c ∈ first :: text, inert dialect c = true)
    (closed : ends d = true) (more : Text) :
    token dialect (first :: (text ++ d :: more)) = some (some (literal (first :: text)),d :: more) := by
  obtain ⟨within,escape⟩ := inert_ends dialect (plain first (List.mem_cons_self ..))
  have whole := word_literal dialect (first :: text) plain closed more
  rw [List.cons_append] at whole
  rw [token_word dialect within comment escape (text ++ d :: more),whole]
  rfl

theorem Reads.inert (first : Char) (text : Text) (comment : first ≠ '#') (plain : inert dialect first = true) (more : Text)
    (reads : Reads dialect (first :: (text ++ ' ' :: more)) (literal (first :: text) :: tokens) final) :
    ∀ c ∈ first :: text, inert dialect c = true := by
  obtain ⟨within,escape⟩ := inert_ends dialect plain
  have begun := token_word dialect within comment escape (text ++ ' ' :: more)
  cases found : word dialect .plain (first :: (text ++ ' ' :: more)) with
  | none =>
      rw [found,Option.map_none] at begun
      cases reads with
      | step found' _ _ => rw [begun] at found'; cases found'
  | some parts =>
      obtain ⟨pieces,rest⟩ := parts
      rw [found,Option.map_some] at begun
      obtain ⟨later,same,_⟩ := reads.tail dialect begun (List.cons_ne_nil _ _)
      obtain rfl := Token.word.inj (List.cons.inj same).1
      exact literal_inert dialect (first :: text) more rest found

end ShellLine
