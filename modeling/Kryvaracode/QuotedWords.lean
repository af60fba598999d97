import Kryvaracode.UnicodeText

namespace QuotedWords
open Patterns

-- Splitting a command into words by the POSIX rules of Python's `shlex.split`:
-- blanks separate, single quotes keep everything, inside double quotes a
-- backslash escapes only the quote and itself, elsewhere it escapes anything.
inductive Mode where
  | plain
  | single
  | double
  | escape
  | doubleEscape
  deriving DecidableEq, Repr

def whitespace (c : Char) : Bool := c = ' ' || c = '\t' || c = '\r' || c = '\n'

inductive LexError where
  | noClosingQuotation
  | noEscapedCharacter
  deriving DecidableEq, Repr

def LexError.message : LexError → Text
  | .noClosingQuotation => "No closing quotation".toList
  | .noEscapedCharacter => "No escaped character".toList

-- `quoted` remembers that the token had quotes, so that '' is a word.
def emit (token : Text) (quoted : Bool) : List Text := if token.isEmpty && !quoted then [] else [token]

def splitFrom : Mode → Text → Bool → Text → Except LexError (List Text)
  | .plain,token,quoted,[] => .ok (emit token quoted)
  | .single,_,_,[] => .error .noClosingQuotation
  | .double,_,_,[] => .error .noClosingQuotation
  | .escape,_,_,[] => .error .noEscapedCharacter
  | .doubleEscape,_,_,[] => .error .noEscapedCharacter
  | .plain,token,quoted,c :: text =>
      if whitespace c then (splitFrom .plain [] false text).map (emit token quoted ++ ·)
      else if c = '\'' then splitFrom .single token true text
      else if c = '"' then splitFrom .double token true text
      else if c = '\\' then splitFrom .escape token quoted text
      else splitFrom .plain (token ++ [c]) quoted text
  | .single,token,quoted,c :: text =>
      if c = '\'' then splitFrom .plain token quoted text else splitFrom .single (token ++ [c]) quoted text
  | .double,token,quoted,c :: text =>
      if c = '"' then splitFrom .plain token quoted text
      else if c = '\\' then splitFrom .doubleEscape token quoted text
      else splitFrom .double (token ++ [c]) quoted text
  | .escape,token,quoted,c :: text => splitFrom .plain (token ++ [c]) quoted text
  | .doubleEscape,token,quoted,c :: text =>
      splitFrom .double (token ++ if c = '"' ∨ c = '\\' then [c] else ['\\',c]) quoted text

def split (command : Text) : Except LexError (List Text) := splitFrom .plain [] false command

-- The same text with its quoting marks taken out and nothing else changed:
-- separators stay as they are, and no word is cut or joined.
def unmarkedFrom : Mode → Text → Text
  | _,[] => []
  | .plain,c :: text =>
      if c = '\'' then unmarkedFrom .single text
      else if c = '"' then unmarkedFrom .double text
      else if c = '\\' then unmarkedFrom .escape text
      else c :: unmarkedFrom .plain text
  | .single,c :: text => if c = '\'' then unmarkedFrom .plain text else c :: unmarkedFrom .single text
  | .double,c :: text =>
      if c = '"' then unmarkedFrom .plain text
      else if c = '\\' then unmarkedFrom .doubleEscape text
      else c :: unmarkedFrom .double text
  | .escape,c :: text => c :: unmarkedFrom .plain text
  | .doubleEscape,c :: text => (if c = '"' ∨ c = '\\' then [c] else ['\\',c]) ++ unmarkedFrom .double text

def unmarked (command : Text) : Text := unmarkedFrom .plain command

def mark (c : Char) : Bool := c = '\'' || c = '"' || c = '\\'

theorem unmarked_plain (command : Text) (none : ∀ c ∈ command, mark c = false) : unmarked command = command := by
  unfold unmarked
  induction command with
  | nil => rfl
  | cons c command ih =>
      have plain : c ≠ '\'' ∧ c ≠ '"' ∧ c ≠ '\\' := by simpa [mark,not_or,and_assoc] using none c (by simp)
      simp [unmarkedFrom,plain.1,plain.2.1,plain.2.2,ih fun d member => none d (by simp [member])]

theorem whitespace_unmarked (blank : whitespace c = true) : c ≠ '\'' ∧ c ≠ '"' ∧ c ≠ '\\' := by
  refine ⟨?_,?_,?_⟩ <;> rintro rfl <;> simp [whitespace] at blank

variable (separator : Char → Bool) (change : Char → Text)

def changed (text : Text) : Text := text.flatMap change

theorem emit_fields (token : Text) (quoted : Bool) :
    (emit token quoted).flatMap (fun word => fields separator (changed change word)) =
      fields separator (changed change token) := by
  unfold emit
  split
  · rename_i nothing
    have empty : token = [] := by simp only [Bool.and_eq_true,List.isEmpty_iff] at nothing; exact nothing.1
    subst empty; rfl
  · simp

-- Up to the width of the gaps, the words are the unmarked text: the fields of
-- the words in order are the fields of that text. `change` rewrites characters
-- one by one and leaves white space alone.
theorem splitFrom_fields (cuts : ∀ c, whitespace c = true → separator c = true)
    (fixed : ∀ c, whitespace c = true → change c = [c]) (mode : Mode) (token : Text) (quoted : Bool) (text : Text)
    (words : List Text) (ran : splitFrom mode token quoted text = .ok words) :
    words.flatMap (fun word => fields separator (changed change word)) =
      fields separator (changed change (token ++ unmarkedFrom mode text)) := by
  induction text generalizing mode token quoted words with
  | nil =>
      cases mode with
      | plain => cases ran; simpa [unmarkedFrom] using emit_fields separator change token quoted
      | _ => cases ran
  | cons c text ih =>
      cases mode with
      | plain =>
          simp only [splitFrom] at ran
          split at ran
          · rename_i blank
            obtain ⟨apart,one,two⟩ := whitespace_unmarked blank
            cases later : splitFrom .plain [] false text with
            | error problem => rw [later] at ran; cases ran
            | ok more =>
                rw [later] at ran
                cases ran
                have tail := ih .plain [] false more later
                have cut := fields_append separator (changed change token) c (changed change (unmarkedFrom .plain text)) (cuts c blank)
                simp only [List.flatMap_append,emit_fields,tail,unmarkedFrom,apart,one,two,if_false,List.nil_append]
                rw [← cut]
                simp [changed,fixed c blank]
          · split at ran
            · rename_i quote; subst quote
              simpa [unmarkedFrom] using ih .single token true words ran
            · split at ran
              · rename_i quote; subst quote
                simpa [unmarkedFrom] using ih .double token true words ran
              · split at ran
                · rename_i slash; subst slash
                  simpa [unmarkedFrom] using ih .escape token quoted words ran
                · rename_i apart one two
                  simpa [unmarkedFrom,apart,one,two] using ih .plain (token ++ [c]) quoted words ran
      | single =>
          simp only [splitFrom] at ran
          split at ran
          · rename_i quote; subst quote
            simpa [unmarkedFrom] using ih .plain token quoted words ran
          · rename_i apart
            simpa [unmarkedFrom,apart] using ih .single (token ++ [c]) quoted words ran
      | double =>
          simp only [splitFrom] at ran
          split at ran
          · rename_i quote; subst quote
            simpa [unmarkedFrom] using ih .plain token quoted words ran
          · split at ran
            · rename_i slash; subst slash
              simpa [unmarkedFrom] using ih .doubleEscape token quoted words ran
            · rename_i apart one
              simpa [unmarkedFrom,apart,one] using ih .double (token ++ [c]) quoted words ran
      | escape => simpa [unmarkedFrom] using ih .plain (token ++ [c]) quoted words ran
      | doubleEscape =>
          simp only [splitFrom] at ran
          simpa [unmarkedFrom] using ih .double _ quoted words ran

theorem changed_joined (fixed : change ' ' = [' ']) (words : List Text) :
    changed change (joined ' ' words) = joined ' ' (words.map (changed change)) := by
  induction words with
  | nil => rfl
  | cons word words ih =>
      cases words with
      | nil => simp [joined]
      | cons next words =>
          simp only [joined,changed,List.map_cons,List.intercalate_cons_cons,List.flatMap_append] at ih ⊢
          simp [ih,fixed]

theorem joined_fields (cut : separator ' ' = true) (words : List Text) :
    fields separator (joined ' ' words) = words.flatMap (fields separator) := by
  induction words with
  | nil => rfl
  | cons word words ih =>
      cases words with
      | nil => simp [joined]
      | cons next words =>
          have apart := fields_append separator word ' ' (joined ' ' (next :: words)) cut
          simp only [joined,List.intercalate_cons_cons,List.flatMap_cons] at apart ih ⊢
          rw [← ih]
          simpa using apart

theorem split_fields (cuts : ∀ c, whitespace c = true → separator c = true)
    (fixed : ∀ c, whitespace c = true → change c = [c]) (ran : split command = .ok words) :
    fields separator (changed change (joined ' ' words)) = fields separator (changed change (unmarked command)) := by
  have parts := splitFrom_fields separator change cuts fixed .plain [] false command words ran
  rw [changed_joined change (fixed ' ' (by decide)),joined_fields separator (cuts ' ' (by decide)),List.flatMap_map]
  simpa [unmarked] using parts

example : split "a 'b c' \"\\\"d\" e\\ f ''".toList =
    .ok ["a".toList,"b c".toList,"\"d".toList,"e f".toList,[]] := by rfl

end QuotedWords
