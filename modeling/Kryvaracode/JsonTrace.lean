import Kryvaracode.JsonRoundTrip

-- What is known of the states the reader reaches, and where they stand with regard to quotes.
namespace JsonReader
open InsertionDict JsonText

inductive Lexical where
  | outside
  | inside
  | escaped
  deriving DecidableEq, Repr

-- Where a state stands with regard to the quotes of the text.
def lexical : State → Lexical
  | .reading _ (.string _ _ .backslash) => .escaped
  | .reading _ (.string _ _ _) => .inside
  | _ => .outside

def lexStep (place : Lexical) (c : Char) : Option Lexical :=
  match place with
  | .outside => if c = '"' then some .inside else if c = '\\' then none else some .outside
  | .inside => if c = '"' then some .outside else if c = '\\' then some .escaped else some .inside
  | .escaped => some .inside

def lexRun (place : Lexical) (text : Text) : Option Lexical := text.foldlM lexStep place

-- What may be left of a literal after its first character.
def remainders : List Text :=
  [['u','l','l'],['r','u','e'],['a','l','s','e'],['a','N'],['n','f','i','n','i','t','y']].flatMap List.tails

def Shaped (part : Part) (token : Text) : Prop :=
  match part with
  | .minus => token = ['-']
  | .digits => ∃ sign digits, token = sign ++ digits ∧ (sign = [] ∨ sign = ['-']) ∧
      (∀ c ∈ digits, c.isDigit = true) ∧ 0 < Nat.ofDigitChars 10 digits 0
  | _ => True

-- What is known of a state the reader reaches over a text.
def Traced (text : Text) : State → Prop
  | .reading stack .value => stack = [] → ∀ c ∈ text, blank c = true
  | .reading stack (.number part token) =>
      Shaped part token ∧ (stack = [] → ∃ blanks, text = blanks ++ token ∧ ∀ c ∈ blanks, blank c = true)
  | .reading _ (.literal next rest _) => next :: rest ∈ remainders
  | _ => True

def Keeps (text : Text) (place : Lexical) (c : Char) (state : State) : Prop :=
  Traced (text ++ [c]) state ∧ lexStep place c = some (lexical state)

theorem traced_complete (text : Text) (value : Value) (stack : List Frame) :
    Traced text (complete value stack) ∧ lexical (complete value stack) = .outside := by
  cases stack with
  | nil => exact ⟨trivial,rfl⟩
  | cons frame stack => cases frame <;> exact ⟨trivial,rfl⟩

theorem outside_stays {c : Char} (quote : c ≠ '"') (backslash : c ≠ '\\') : lexStep .outside c = some .outside := by
  rw [lexStep,if_neg quote,if_neg backslash]

theorem digit_positive {c : Char} (digit : c.isDigit = true) (lead : c ≠ '0') : 0 < Nat.ofDigitChars 10 [c] 0 := by
  have bounds : '0'.toNat ≤ c.toNat := (by simpa [Char.isDigit] using digit : 48 ≤ c.val ∧ c.val ≤ 57).1
  have apart : c.toNat ≠ '0'.toNat := fun same => lead (Char.toNat_inj.mp same)
  rw [Nat.ofDigitChars_cons,Nat.ofDigitChars_nil]
  omega

theorem literalOf_known {c next : Char} {rest : Text} {value : Value} (known : literalOf c = some (next,rest,value)) :
    next :: rest ∈ remainders ∧ c ≠ '\\' := by
  unfold literalOf at known
  split_ifs at known with null yes no nan infinity
  · cases known; exact ⟨show ['u','l','l'] ∈ remainders by decide,by rw [null]; decide⟩
  · cases known; exact ⟨show ['r','u','e'] ∈ remainders by decide,by rw [yes]; decide⟩
  · cases known; exact ⟨show ['a','l','s','e'] ∈ remainders by decide,by rw [no]; decide⟩
  · cases known; exact ⟨show ['a','N'] ∈ remainders by decide,by rw [nan]; decide⟩
  · cases known; exact ⟨show ['n','f','i','n','i','t','y'] ∈ remainders by decide,by rw [infinity]; decide⟩

theorem leading_shaped {c : Char} {part : Part} (leads : leading c = some part) : Shaped part [c] ∧ c ≠ '\\' := by
  unfold leading at leads
  split_ifs at leads with minus zero digit
  · cases leads; exact ⟨by rw [minus]; rfl,by rw [minus]; decide⟩
  · cases leads; exact ⟨trivial,by rw [zero]; decide⟩
  · cases leads
    exact ⟨⟨[],[c],rfl,.inl rfl,by simpa using digit,digit_positive digit zero⟩,digit_apart digit (by decide)⟩

theorem opening_keeps {text : Text} {stack : List Frame} {c : Char} {state : State}
    (rooted : stack = [] → ∀ d ∈ text, blank d = true) (opened : opening stack c = .ok state) :
    Keeps text .outside c state := by
  unfold opening at opened
  split at opened
  · rename_i quote; subst quote; cases opened; exact ⟨trivial,rfl⟩
  split at opened
  · rename_i array; subst array; cases opened; exact ⟨trivial,rfl⟩
  split at opened
  · rename_i object; subst object; cases opened; exact ⟨trivial,rfl⟩
  rename_i quote _ _
  split at opened
  · rename_i next rest value known
    obtain ⟨spelled,backslash⟩ := literalOf_known known
    cases opened
    exact ⟨spelled,outside_stays quote backslash⟩
  split at opened
  · rename_i part leads
    obtain ⟨shaped,backslash⟩ := leading_shaped leads
    cases opened
    exact ⟨⟨shaped,fun root => ⟨text,rfl,rooted root⟩⟩,outside_stays quote backslash⟩
  · cases opened

theorem naming_keeps {text : Text} {stack : List Frame} {members : Fields} {c : Char} {state : State}
    (named : naming stack members c = .ok state) : Keeps text .outside c state := by
  unfold naming at named
  split_ifs at named with quote
  subst quote
  cases named
  exact ⟨trivial,rfl⟩

theorem complete_keeps {text : Text} {value : Value} {stack : List Frame} {c : Char} (quote : c ≠ '"') (backslash : c ≠ '\\') :
    Keeps text .outside c (complete value stack) := by
  obtain ⟨traced,place⟩ := traced_complete (text ++ [c]) value stack
  exact ⟨traced,by rw [place,outside_stays quote backslash]⟩

theorem blank_apart {c d : Char} (shown : blank c = true) (other : blank d = false) : c ≠ d := by
  rintro rfl
  rw [shown] at other
  cases other

-- The states in which no token is under way.
def resting : State → Bool
  | .reading _ (.string _ _ _) | .reading _ (.number _ _) | .reading _ (.literal _ _ _) => false
  | _ => true

theorem resting_complete (value : Value) (stack : List Frame) : resting (complete value stack) = true := by
  cases stack with
  | nil => rfl
  | cons frame stack => cases frame <;> rfl

theorem resting_place {state : State} (rest : resting state = true) : lexical state = .outside := by
  cases state with
  | finished value => rfl
  | reading stack mode => cases mode <;> first | rfl | cases rest

theorem blank_keeps {text : Text} {state : State} {c : Char} (traced : Traced text state) (rest : resting state = true)
    (shown : blank c = true) : Keeps text .outside c state := by
  refine ⟨?_,?_⟩
  · cases state with
    | finished value => exact trivial
    | reading stack mode =>
      cases mode with
      | value =>
        intro root d member
        rcases List.mem_append.mp member with before | last
        · exact traced root d before
        · rw [List.mem_singleton.mp last]
          exact shown
      | string | number | literal => cases rest
      | _ => exact trivial
  · rw [resting_place rest,outside_stays (blank_apart shown (by decide)) (blank_apart shown (by decide))]

theorem between_keeps {text : Text} {state next : State} {c : Char} (traced : Traced text state) (rest : resting state = true)
    (moved : between state c = .ok next) : Keeps text .outside c next := by
  unfold between at moved
  split at moved
  · rename_i shown
    cases moved
    exact blank_keeps traced rest shown
  · cases state with
    | finished value => cases moved
    | reading stack mode =>
      cases mode with
      | value => exact opening_keeps traced moved
      | first =>
        simp only at moved
        split_ifs at moved with close
        · subst close; cases moved; exact complete_keeps (by decide) (by decide)
        · exact opening_keeps (fun root => by cases root) moved
      | firstKey =>
        simp only at moved
        split_ifs at moved with close
        · subst close; cases moved; exact complete_keeps (by decide) (by decide)
        · exact naming_keeps moved
      | key members => exact naming_keeps moved
      | colon members key =>
        simp only at moved
        split_ifs at moved with mark
        subst mark
        cases moved
        exact ⟨(fun root => by cases root),rfl⟩
      | afterItem items =>
        simp only at moved
        split_ifs at moved with comma close
        · subst comma; cases moved; exact ⟨(fun root => by cases root),rfl⟩
        · subst close; cases moved; exact complete_keeps (by decide) (by decide)
      | afterMember members =>
        simp only at moved
        split_ifs at moved with comma close
        · subst comma; cases moved; exact ⟨trivial,rfl⟩
        · subst close; cases moved; exact complete_keeps (by decide) (by decide)
      | string | number | literal => cases rest

theorem closing_keeps {text : Text} {stack : List Frame} {owner : Option Fields} {points : Points} :
    Keeps text .inside '"' (closing stack owner points) := by
  cases owner with
  | none =>
    obtain ⟨traced,place⟩ := traced_complete (text ++ ['"']) (.str points.reverse) stack
    exact ⟨traced,by rw [closing,place]; rfl⟩
  | some members => exact ⟨trivial,rfl⟩

theorem hexDigit_ordinary {c : Char} {digit : Nat} (hex : hexDigit c = some digit) : c ≠ '"' ∧ c ≠ '\\' := by
  constructor
  · rintro rfl
    cases hex
  · rintro rfl
    cases hex

theorem character_keeps {text : Text} {stack : List Frame} {owner : Option Fields} {points : Points} {escape : Escape}
    {c : Char} {state : State} (read : character stack owner points escape c = .ok state) :
    Keeps text (lexical (.reading stack (.string owner points escape))) c state := by
  cases escape with
  | plain =>
    simp only [character] at read
    split_ifs at read with quote backslash control
    · subst quote; cases read; exact closing_keeps
    · subst backslash; cases read; exact ⟨trivial,rfl⟩
    · have place : lexStep .inside c = some .inside := by rw [lexStep,if_neg quote,if_neg backslash]
      cases read
      exact ⟨trivial,place⟩
  | backslash =>
    simp only [character] at read
    split at read
    · cases read; exact ⟨trivial,rfl⟩
    split at read
    · cases read; exact ⟨trivial,rfl⟩
    · cases read
  | hex count code =>
    simp only [character] at read
    split at read
    · cases read
    rename_i digit hex
    obtain ⟨quote,backslash⟩ := hexDigit_ordinary hex
    have place : lexStep .inside c = some .inside := by rw [lexStep,if_neg quote,if_neg backslash]
    split at read
    · cases read; exact ⟨trivial,place⟩
    · cases read; exact ⟨trivial,place⟩

theorem extend_shaped {part next : Part} {token : Text} {c : Char} (shaped : Shaped part token)
    (longer : extend part c = some next) : Shaped next (token ++ [c]) := by
  cases part with
  | minus =>
    simp only [extend] at longer
    split_ifs at longer with zero digit
    · cases longer; exact trivial
    · cases longer
      refine ⟨['-'],[c],?_,.inr rfl,by simpa using digit,digit_positive digit zero⟩
      rw [show token = ['-'] from shaped]
  | digits =>
    simp only [extend] at longer
    split_ifs at longer with digit point exponent
    · cases longer
      obtain ⟨sign,digits,rfl,signed,all,positive⟩ := shaped
      refine ⟨sign,digits ++ [c],List.append_assoc sign digits [c],signed,?_,?_⟩
      · rintro d member
        rcases List.mem_append.mp member with before | last
        · exact all d before
        · rw [List.mem_singleton.mp last]
          exact digit
      · rw [Nat.ofDigitChars_append,Nat.ofDigitChars_cons,Nat.ofDigitChars_nil]
        omega
    · cases longer; exact trivial
    · cases longer; exact trivial
  | zero | point | fraction | exponent | exponentSign | exponentDigits =>
    simp only [extend] at longer
    split_ifs at longer
    all_goals cases longer; exact trivial

theorem remainders_letters : remainders.all (fun word => word.all Char.isAlpha) = true := by rfl

theorem remainder_letter {word : Text} {c : Char} (known : word ∈ remainders) (inside : c ∈ word) : c.isAlpha = true :=
  List.all_eq_true.mp (List.all_eq_true.mp remainders_letters word known) c inside

theorem letter_apart {c d : Char} (letter : c.isAlpha = true) (other : d.isAlpha = false) : c ≠ d := by
  rintro rfl
  rw [letter] at other
  cases other

theorem remainders_tail : ∀ word ∈ remainders, word.tail ∈ remainders := by decide

theorem extend_ordinary {part next : Part} {c : Char} (longer : extend part c = some next) : c ≠ '"' ∧ c ≠ '\\' := by
  constructor
  · rintro rfl
    cases part <;> cases longer
  · rintro rfl
    cases part <;> cases longer

section Limit
variable {limit : Nat}

theorem settled_between {stack : List Frame} {part : Part} {token : Text} {c : Char} {state : State}
    (moved : (settle limit (.reading stack (.number part token)) >>= fun settled => between settled c) = .ok state) :
    ∃ value, between (complete value stack) c = .ok state := by
  cases read : numberValue limit part token with
  | error trouble =>
    rw [settle,read] at moved
    cases moved
  | ok value =>
    rw [settle_number stack read] at moved
    exact ⟨value,moved⟩

theorem step_keeps {text : Text} {state next : State} {c : Char} (traced : Traced text state)
    (moved : step limit state c = .ok next) : Keeps text (lexical state) c next := by
  cases state with
  | finished value => exact between_keeps traced rfl moved
  | reading stack mode =>
    cases mode with
    | string owner points escape => exact character_keeps moved
    | number part token =>
      simp only [step] at moved
      split at moved
      · rename_i infinite
        cases moved
        rw [infinite.2]
        exact ⟨show ['n','f','i','n','i','t','y'] ∈ remainders by decide,rfl⟩
      split at moved
      · rename_i next' longer
        cases moved
        obtain ⟨quote,backslash⟩ := extend_ordinary longer
        refine ⟨⟨extend_shaped traced.1 longer,fun root => ?_⟩,outside_stays quote backslash⟩
        obtain ⟨blanks,same,all⟩ := traced.2 root
        exact ⟨blanks,by rw [same,List.append_assoc],all⟩
      · obtain ⟨value,after⟩ := settled_between moved
        exact between_keeps (traced_complete text value stack).1 (resting_complete value stack) after
    | literal expected rest value =>
      simp only [step] at moved
      split at moved
      · rename_i same
        cases moved
        have letter : c.isAlpha = true := remainder_letter traced (by rw [same]; exact List.mem_cons_self)
        have quote : c ≠ '"' := letter_apart letter (by decide)
        have backslash : c ≠ '\\' := letter_apart letter (by decide)
        cases rest with
        | nil => exact complete_keeps quote backslash
        | cons following rest => exact ⟨remainders_tail _ traced,outside_stays quote backslash⟩
      · cases moved
    | _ => exact between_keeps traced rfl moved

theorem scan_step {state stop : State} {c : Char} {text : Text} (read : scan limit state (c :: text) = .ok stop) :
    ∃ middle, step limit state c = .ok middle ∧ scan limit middle text = .ok stop := by
  rw [scan_cons] at read
  cases moved : step limit state c with
  | error trouble =>
    rw [moved] at read
    cases read
  | ok middle =>
    rw [moved] at read
    exact ⟨middle,rfl,read⟩

theorem lexRun_cons (place : Lexical) (c : Char) (text : Text) :
    lexRun place (c :: text) = (lexStep place c).bind fun next => lexRun next text := List.foldlM_cons ..

theorem scan_keeps {text more : Text} {state stop : State} (traced : Traced text state)
    (read : scan limit state more = .ok stop) : Traced (text ++ more) stop ∧ lexRun (lexical state) more = some (lexical stop) := by
  induction more generalizing text state with
  | nil =>
    cases read
    rw [List.append_nil]
    exact ⟨traced,rfl⟩
  | cons c more ih =>
    obtain ⟨middle,moved,later⟩ := scan_step read
    obtain ⟨kept,place⟩ := step_keeps traced moved
    have rest := ih kept later
    rw [List.append_assoc,List.singleton_append] at rest
    refine ⟨rest.1,?_⟩
    rw [lexRun_cons,place]
    exact rest.2

-- Read from inside a string, the text does not end outside of one.
def Steady (text : Text) : Prop := ∀ stop, lexRun .inside text = some stop → stop = .inside

theorem lexRun_append (place : Lexical) (one two : Text) :
    lexRun place (one ++ two) = (lexRun place one).bind fun next => lexRun next two := List.foldlM_append ..

theorem steady_append {one two : Text} (first : Steady one) (second : Steady two) : Steady (one ++ two) := by
  intro stop run
  rw [lexRun_append] at run
  obtain ⟨middle,ran,later⟩ := Option.bind_eq_some_iff.mp run
  rw [first middle ran] at later
  exact second stop later

def ordinary (c : Char) : Bool := c != '"' && c != '\\'

theorem steady_ordinary {text : Text} (all : text.all ordinary = true) : Steady text := by
  induction text with
  | nil =>
    intro stop run
    cases run
    rfl
  | cons c text ih =>
    rw [List.all_cons,Bool.and_eq_true] at all
    have one : Steady [c] := by
      intro stop run
      obtain ⟨quote,backslash⟩ : c ≠ '"' ∧ c ≠ '\\' := by simpa [ordinary] using all.1
      rw [lexRun_cons,lexStep,if_neg quote,if_neg backslash] at run
      cases run
      rfl
    exact steady_append one (ih all.2)

-- Where an opening quote has closed another string, its escapes cannot be read.
theorem escaped_outside {c : Char} {stop : Lexical} (run : lexRun .outside (escaped c) = some stop) : stop = .outside := by
  unfold escaped at run
  split at run
  · cases run
  rename_i quote
  split at run
  · cases run
  rename_i backslash
  split at run
  · cases run
  split at run
  · cases run
  split at run
  · cases run
  split at run
  · cases run
  split at run
  · cases run
  split at run
  · rw [lexRun_cons,outside_stays quote backslash] at run
    cases run
    rfl
  split at run
  · cases run
  · cases run

theorem body_outside {text : Text} {stop : Lexical} (run : lexRun .outside (text.flatMap escaped) = some stop) :
    stop = .outside := by
  induction text with
  | nil => cases run; rfl
  | cons c text ih =>
    rw [List.flatMap_cons,lexRun_append] at run
    obtain ⟨middle,ran,later⟩ := Option.bind_eq_some_iff.mp run
    rw [escaped_outside ran] at later
    exact ih later

theorem encoded_steady (text : Text) : Steady (encoded text) := by
  intro stop run
  rw [encoded,List.cons_append,lexRun_cons,lexStep,if_pos rfl,Option.bind_some,lexRun_append] at run
  obtain ⟨middle,ran,later⟩ := Option.bind_eq_some_iff.mp run
  rw [body_outside ran] at later
  cases later
  rfl

theorem joined_steady {parts : List Text} (all : ∀ part ∈ parts, Steady part) : Steady (", ".toList.intercalate parts) := by
  have separator : Steady ", ".toList := steady_ordinary rfl
  induction parts with
  | nil => exact steady_ordinary rfl
  | cons part rest ih =>
    cases rest with
    | nil =>
      rw [List.intercalate_singleton]
      exact all part (by simp)
    | cons next rest =>
      have later := ih fun other member => all other (List.mem_cons_of_mem part member)
      rw [List.intercalate_cons_cons]
      exact steady_append (steady_append (all part (by simp)) separator) later

theorem enclosed_steady {parts : List Text} (all : ∀ part ∈ parts, Steady part) {opening closing : Char}
    (first : ordinary opening = true) (last : ordinary closing = true) : Steady (enclosed opening closing parts) := by
  have front : Steady [opening] := steady_ordinary (by simp [first])
  have back : Steady [closing] := steady_ordinary (by simp [last])
  exact steady_append (steady_append front (joined_steady all)) back

theorem int_text_chars (n : Int) : ∀ c ∈ (toString n).toList, c = '-' ∨ c.isDigit = true := by
  intro c member
  rw [int_text] at member
  split at member
  · exact .inr (toDigits_digits _ c member)
  · rcases List.mem_cons.mp member with sign | digit
    · exact .inl sign
    · exact .inr (toDigits_digits _ c digit)

theorem int_steady (n : Int) : Steady (toString n).toList := by
  refine steady_ordinary (List.all_eq_true.mpr fun c member => ?_)
  rcases int_text_chars n c member with rfl | digit
  · rfl
  · have quote : c ≠ '"' := digit_apart digit (by decide)
    have backslash : c ≠ '\\' := digit_apart digit (by decide)
    simp [ordinary,quote,backslash]

theorem dumps_steady (json : Json) (plain : every plainNode json = true) : Steady (dumps json) := by
  induction json using Json.induction with
  | null => exact steady_ordinary rfl
  | bool value => cases value <;> exact steady_ordinary rfl
  | int value => exact int_steady value
  | float value => cases plain
  | str value => exact encoded_steady value
  | arr items ih =>
    have inside := ((every_arr _ _).mp plain).2
    rw [dumps,dumpsItems_map]
    refine enclosed_steady ?_ rfl rfl
    rw [List.forall_mem_map]
    exact fun item member => ih item member (inside item member)
  | obj members ih =>
    have inside := ((every_obj _ _).mp plain).2
    rw [dumps,dumpsMembers_map]
    refine enclosed_steady ?_ rfl rfl
    rw [List.forall_mem_map]
    intro entry member
    have colon : Steady ": ".toList := steady_ordinary rfl
    exact steady_append (steady_append (encoded_steady entry.1) colon) (ih entry member (inside entry member))

end Limit
end JsonReader
