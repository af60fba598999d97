import Kryvaracode.JsonText
import Kryvaracode.InsertionDict

-- A JSON reader that takes a text one character at a time.
namespace JsonReader
open InsertionDict

-- A string as its code points, so that an escape may name half of a surrogate pair.
abbrev Points := List Nat

-- A float is kept as the token it is read from.
inductive Value where
  | null
  | bool (value : Bool)
  | int (value : Int)
  | float (token : Text)
  | str (points : Points)
  | arr (items : List Value)
  | obj (members : List (Points × Value))

abbrev Fields := List (Points × Value)

inductive Trouble where
  | undecodable
  | tooLong (digits : Nat)
  deriving DecidableEq, Repr

-- How far a number token has come.
inductive Part where
  | minus
  | zero
  | digits
  | point
  | fraction
  | exponent
  | exponentSign
  | exponentDigits
  deriving DecidableEq, Repr

inductive Escape where
  | plain
  | backslash
  | hex (count code : Nat)
  deriving DecidableEq, Repr

-- An array or an object that waits for a value to be read.
inductive Frame where
  | arr (items : List Value)
  | obj (members : Fields) (key : Points)

inductive Mode where
  | value
  | first
  | firstKey
  | key (members : Fields)
  | colon (members : Fields) (key : Points)
  | afterItem (items : List Value)
  | afterMember (members : Fields)
  | string (owner : Option Fields) (points : Points) (escape : Escape)
  | number (part : Part) (token : Text)
  | literal (next : Char) (rest : Text) (value : Value)

inductive State where
  | reading (stack : List Frame) (mode : Mode)
  | finished (value : Value)

def blank (c : Char) : Bool := [' ','\t','\n','\r'].contains c

-- A repeated key keeps its first place and takes the last value.
def complete (value : Value) : List Frame → State
  | [] => .finished value
  | .arr items :: stack => .reading stack (.afterItem (items ++ [value]))
  | .obj members key :: stack => .reading stack (.afterMember (put key value members))

def unescape (c : Char) : Option Nat :=
  if c = '"' ∨ c = '\\' ∨ c = '/' then some c.toNat
  else if c = 'b' then some 8
  else if c = 'f' then some 12
  else if c = 'n' then some 10
  else if c = 'r' then some 13
  else if c = 't' then some 9
  else none

def hexDigit (c : Char) : Option Nat :=
  if c.isDigit then some (c.toNat - '0'.toNat)
  else if 'a' ≤ c ∧ c ≤ 'f' then some (c.toNat - 'a'.toNat + 10)
  else if 'A' ≤ c ∧ c ≤ 'F' then some (c.toNat - 'A'.toNat + 10)
  else none

-- A low surrogate right after a high one makes one code point with it; `points` is reversed.
def pushUnit (points : Points) (code : Nat) : Points :=
  match points with
  | high :: earlier =>
      if 0xd800 ≤ high ∧ high < 0xdc00 ∧ 0xdc00 ≤ code ∧ code < 0xe000
        then (0x10000 + (high - 0xd800) * 0x400 + (code - 0xdc00)) :: earlier
        else code :: points
  | [] => [code]

def closing (stack : List Frame) (owner : Option Fields) (points : Points) : State :=
  match owner with
  | none => complete (.str points.reverse) stack
  | some members => .reading stack (.colon members points.reverse)

def character (stack : List Frame) (owner : Option Fields) (points : Points) (escape : Escape) (c : Char) : Except Trouble State :=
  match escape with
  | .plain =>
      if c = '"' then .ok (closing stack owner points)
      else if c = '\\' then .ok (.reading stack (.string owner points .backslash))
      else if c.toNat < 0x20 then .error .undecodable
      else .ok (.reading stack (.string owner (c.toNat :: points) .plain))
  | .backslash =>
      if c = 'u' then .ok (.reading stack (.string owner points (.hex 0 0)))
      else match unescape c with
        | some code => .ok (.reading stack (.string owner (code :: points) .plain))
        | none => .error .undecodable
  | .hex count code =>
      match hexDigit c with
      | none => .error .undecodable
      | some digit =>
          if count = 3 then .ok (.reading stack (.string owner (pushUnit points (16 * code + digit)) .plain))
          else .ok (.reading stack (.string owner points (.hex (count + 1) (16 * code + digit))))

def extend (part : Part) (c : Char) : Option Part :=
  match part with
  | .minus => if c = '0' then some .zero else if c.isDigit then some .digits else none
  | .zero => if c = '.' then some .point else if c = 'e' ∨ c = 'E' then some .exponent else none
  | .digits =>
      if c.isDigit then some .digits
      else if c = '.' then some .point
      else if c = 'e' ∨ c = 'E' then some .exponent
      else none
  | .point => if c.isDigit then some .fraction else none
  | .fraction => if c.isDigit then some .fraction else if c = 'e' ∨ c = 'E' then some .exponent else none
  | .exponent => if c = '+' ∨ c = '-' then some .exponentSign else if c.isDigit then some .exponentDigits else none
  | .exponentSign | .exponentDigits => if c.isDigit then some .exponentDigits else none

def magnitude : Text → Text
  | '-' :: digits => digits
  | digits => digits

def intOf (token : Text) : Int :=
  match token with
  | '-' :: digits => -(Nat.ofDigitChars 10 digits 0 : Nat)
  | digits => (Nat.ofDigitChars 10 digits 0 : Nat)

def whole (c : Char) : Bool := c = '-' || c.isDigit

def literalOf (c : Char) : Option (Char × Text × Value) :=
  if c = 'n' then some ('u',"ll".toList,.null)
  else if c = 't' then some ('r',"ue".toList,.bool true)
  else if c = 'f' then some ('a',"lse".toList,.bool false)
  else if c = 'N' then some ('a',"N".toList,.float "NaN".toList)
  else if c = 'I' then some ('n',"finity".toList,.float "Infinity".toList)
  else none

def leading (c : Char) : Option Part :=
  if c = '-' then some .minus
  else if c = '0' then some .zero
  else if c.isDigit then some .digits
  else none

-- A new value, where one may begin.
def opening (stack : List Frame) (c : Char) : Except Trouble State :=
  if c = '"' then .ok (.reading stack (.string none [] .plain))
  else if c = '[' then .ok (.reading stack .first)
  else if c = '{' then .ok (.reading stack .firstKey)
  else match literalOf c with
    | some (next,rest,value) => .ok (.reading stack (.literal next rest value))
    | none => match leading c with
      | some part => .ok (.reading stack (.number part [c]))
      | none => .error .undecodable

def naming (stack : List Frame) (members : Fields) (c : Char) : Except Trouble State :=
  if c = '"' then .ok (.reading stack (.string (some members) [] .plain)) else .error .undecodable

-- The characters between two tokens.
def between (state : State) (c : Char) : Except Trouble State :=
  if blank c then .ok state
  else match state with
    | .reading stack .value => opening stack c
    | .reading stack .first =>
        if c = ']' then .ok (complete (.arr []) stack) else opening (.arr [] :: stack) c
    | .reading stack .firstKey =>
        if c = '}' then .ok (complete (.obj []) stack) else naming stack [] c
    | .reading stack (.key members) => naming stack members c
    | .reading stack (.colon members key) =>
        if c = ':' then .ok (.reading (.obj members key :: stack) .value) else .error .undecodable
    | .reading stack (.afterItem items) =>
        if c = ',' then .ok (.reading (.arr items :: stack) .value)
        else if c = ']' then .ok (complete (.arr items) stack)
        else .error .undecodable
    | .reading stack (.afterMember members) =>
        if c = ',' then .ok (.reading stack (.key members))
        else if c = '}' then .ok (complete (.obj members) stack)
        else .error .undecodable
    | _ => .error .undecodable

section Limit
-- An integer may have at most so many digits.
variable (limit : Nat)

def readInt (token : Text) : Except Trouble Value :=
  if (magnitude token).length ≤ limit then .ok (.int (intOf token)) else .error (.tooLong (magnitude token).length)

-- Where a point or an exponent breaks off, the number is what stands in front of it,
-- and what is left cannot follow a value.
def numberValue (part : Part) (token : Text) : Except Trouble Value :=
  match part with
  | .minus => .error .undecodable
  | .zero | .digits => readInt limit token
  | .fraction | .exponentDigits => .ok (.float token)
  | .point | .exponent | .exponentSign =>
      match token.dropWhile whole with
      | '.' :: _ :: _ => .error .undecodable
      | _ => readInt limit (token.takeWhile whole) >>= fun _ => .error .undecodable

-- A number ends only where what follows it is seen.
def settle (state : State) : Except Trouble State :=
  match state with
  | .reading stack (.number part token) => (complete · stack) <$> numberValue limit part token
  | state => .ok state

def step (state : State) (c : Char) : Except Trouble State :=
  match state with
  | .reading stack (.string owner points escape) => character stack owner points escape c
  | .reading stack (.literal next rest value) =>
      if c = next then .ok (match rest with
        | [] => complete value stack
        | next :: rest => .reading stack (.literal next rest value))
      else .error .undecodable
  | .reading stack (.number part token) =>
      if part = .minus ∧ c = 'I' then .ok (.reading stack (.literal 'n' "finity".toList (.float "-Infinity".toList)))
      else match extend part c with
        | some next => .ok (.reading stack (.number next (token ++ [c])))
        | none => settle limit state >>= fun settled => between settled c
  | state => between state c

def scan (state : State) (text : Text) : Except Trouble State := text.foldlM (step limit) state

def result (state : State) : Except Trouble Value :=
  settle limit state >>= fun settled => match settled with
    | .finished value => .ok value
    | .reading _ _ => .error .undecodable

def loads (text : Text) : Except Trouble Value := scan limit (.reading [] .value) text >>= result limit

end Limit
end JsonReader
