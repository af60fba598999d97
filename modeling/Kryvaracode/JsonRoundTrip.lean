import Kryvaracode.JsonReader

-- What a printer wrote, the reader reads back as the same value.
namespace JsonReader
open InsertionDict JsonText

def points (text : Text) : Points := text.map Char.toNat

mutual
def ofJson : Json → Value
  | .null => .null
  | .bool value => .bool value
  | .int value => .int value
  | .float printed => .float printed
  | .str value => .str (points value)
  | .arr items => .arr (ofItems items)
  | .obj members => .obj (ofMembers members)
def ofItems : List Json → List Value
  | [] => []
  | item :: items => ofJson item :: ofItems items
def ofMembers : Members → Fields
  | [] => []
  | (key,value) :: members => (points key,ofJson value) :: ofMembers members
end

-- A test that holds of a value and of all the values inside it.
mutual
def every (test : Json → Bool) : Json → Bool
  | .arr items => test (.arr items) && everyItem test items
  | .obj members => test (.obj members) && everyMember test members
  | json => test json
def everyItem (test : Json → Bool) : List Json → Bool
  | [] => true
  | item :: items => every test item && everyItem test items
def everyMember (test : Json → Bool) : Members → Bool
  | [] => true
  | (_,value) :: members => every test value && everyMember test members
end

def distinctKeys (members : Members) : Bool := decide (members.map Prod.fst).Nodup

def plainNode : Json → Bool
  | .float _ => false
  | .obj members => distinctKeys members
  | _ => true

-- No floats, and the keys of every object are distinct, as those of a mapping are.
structure PlainJson where
  json : Json
  plain : every plainNode json = true

def withinLimit (limit : Nat) : Json → Bool
  | .int value => decide ((Nat.toDigits 10 value.natAbs).length ≤ limit)
  | _ => true

def printable (limit : Nat) (json : Json) : Bool := every (withinLimit limit) json

theorem ofItems_map (items : List Json) : ofItems items = items.map ofJson := by
  induction items with
  | nil => rfl
  | cons item items ih => rw [ofItems,ih,List.map_cons]

theorem ofMembers_map (members : Members) : ofMembers members = members.map fun entry => (points entry.1,ofJson entry.2) := by
  induction members with
  | nil => rfl
  | cons entry members ih => rw [ofMembers,ih,List.map_cons]

theorem everyItem_iff (test : Json → Bool) (items : List Json) :
    everyItem test items = true ↔ ∀ item ∈ items, every test item = true := by
  induction items with
  | nil => simp [everyItem]
  | cons item items ih => rw [everyItem,Bool.and_eq_true,ih,List.forall_mem_cons]

theorem everyMember_iff (test : Json → Bool) (members : Members) :
    everyMember test members = true ↔ ∀ entry ∈ members, every test entry.2 = true := by
  induction members with
  | nil => simp [everyMember]
  | cons entry members ih => rw [everyMember,Bool.and_eq_true,ih,List.forall_mem_cons]

theorem every_arr (test : Json → Bool) (items : List Json) :
    every test (.arr items) = true ↔ test (.arr items) = true ∧ ∀ item ∈ items, every test item = true := by
  rw [every,Bool.and_eq_true,everyItem_iff]

theorem every_obj (test : Json → Bool) (members : Members) :
    every test (.obj members) = true ↔ test (.obj members) = true ∧ ∀ entry ∈ members, every test entry.2 = true := by
  rw [every,Bool.and_eq_true,everyMember_iff]

theorem points_injective : Function.Injective points := List.map_injective_iff.mpr fun _ _ => Char.toNat_inj.mp

section Limit
variable {limit : Nat}

theorem scan_cons (state : State) (c : Char) (text : Text) :
    scan limit state (c :: text) = step limit state c >>= fun next => scan limit next text := List.foldlM_cons ..

theorem scan_append (state : State) (one two : Text) :
    scan limit state (one ++ two) = scan limit state one >>= fun next => scan limit next two := List.foldlM_append ..

theorem scan_through {state middle : State} {one : Text} (read : scan limit state one = .ok middle) (two : Text) :
    scan limit state (one ++ two) = scan limit middle two := by
  rw [scan_append,read]
  rfl

section Strings
variable (stack : List Frame) (owner : Option Fields)

theorem hexDigit_digitChar : ∀ digit < 16, hexDigit (Nat.digitChar digit) = some digit := by decide

theorem hex_read (pts : Points) (count code : Nat) {digit : Nat} (small : digit < 16) (more : count ≠ 3) (text : Text) :
    scan limit (.reading stack (.string owner pts (.hex count code))) (Nat.digitChar digit :: text) =
      scan limit (.reading stack (.string owner pts (.hex (count + 1) (16 * code + digit)))) text := by
  rw [scan_cons,step,character,hexDigit_digitChar digit small]
  simp only [if_neg more]
  rfl

theorem hexFour_read (pts : Points) {code : Nat} (small : code < 0x10000) :
    scan limit (.reading stack (.string owner pts .plain)) ("\\u".toList ++ hexFour code) =
      .ok (.reading stack (.string owner (pushUnit pts code) .plain)) := by
  have whole : 16 * (16 * (16 * (16 * 0 + code / 4096) + code / 256 % 16) + code / 16 % 16) + code % 16 = code := by omega
  have opened : scan limit (.reading stack (.string owner pts .plain)) "\\u".toList =
      .ok (.reading stack (.string owner pts (.hex 0 0))) := rfl
  rw [scan_through opened,hexFour,List.map_cons,List.map_cons,List.map_cons,List.map_cons,List.map_nil]
  rw [hex_read stack owner pts 0 _ (by omega) (by decide),hex_read stack owner pts 1 _ (by omega) (by decide),
    hex_read stack owner pts 2 _ (by omega) (by decide)]
  rw [scan_cons,step,character,hexDigit_digitChar _ (by omega)]
  simp only [whole]
  rfl

theorem char_units (c : Char) : c.toNat < 0xd800 ∨ 0xdfff < c.toNat ∧ c.toNat < 0x110000 := c.valid

theorem pushUnit_alone (pts : Points) {code : Nat} (alone : code < 0xdc00 ∨ 0xdfff < code) :
    pushUnit pts code = code :: pts := by
  cases pts with
  | nil => rfl
  | cons high earlier =>
    rw [pushUnit,if_neg]
    omega

theorem pushUnit_pair (pts : Points) {high low : Nat} (first : 0xd800 ≤ high ∧ high < 0xdc00) (second : 0xdc00 ≤ low ∧ low < 0xe000) :
    pushUnit (high :: pts) low = (0x10000 + (high - 0xd800) * 0x400 + (low - 0xdc00)) :: pts := by
  rw [pushUnit,if_pos ⟨first.1,first.2,second.1,second.2⟩]

theorem escaped_read (pts : Points) (c : Char) : scan limit (.reading stack (.string owner pts .plain)) (escaped c) =
    .ok (.reading stack (.string owner (c.toNat :: pts) .plain)) := by
  have bounds := char_units c
  unfold escaped
  split
  · rename_i same; subst same; rfl
  split
  · rename_i same; subst same; rfl
  split
  · rename_i same; subst same; rfl
  split
  · rename_i same; subst same; rfl
  split
  · rename_i same; subst same; rfl
  split
  · rename_i same; subst same; rfl
  split
  · rename_i same; subst same; rfl
  split
  · rename_i quote backslash _ _ _ _ _ ascii
    have printed : ¬ c.toNat < 0x20 := not_lt.mpr ascii.1
    rw [scan_cons,step,character]
    simp only [if_neg quote,if_neg backslash,if_neg printed]
    rfl
  split
  · rename_i basic
    rw [hexFour_read stack owner pts basic,pushUnit_alone]
    omega
  · -- A character beyond the first plane is written as two surrogates.
    rename_i beyond
    have high : 0xd800 + (c.toNat - 0x10000) / 0x400 < 0xdc00 := by omega
    have low : 0xdc00 + (c.toNat - 0x10000) % 0x400 < 0xe000 := by omega
    have joined : 0x10000 + (0xd800 + (c.toNat - 0x10000) / 0x400 - 0xd800) * 0x400 +
        (0xdc00 + (c.toNat - 0x10000) % 0x400 - 0xdc00) = c.toNat := by omega
    rw [List.append_assoc,scan_through (hexFour_read stack owner pts (by omega)),hexFour_read stack owner _ (by omega)]
    rw [pushUnit_alone pts (.inl high),pushUnit_pair pts ⟨by omega,high⟩ ⟨by omega,low⟩,joined]

theorem body_read (pts : Points) (text : Text) : scan limit (.reading stack (.string owner pts .plain)) (text.flatMap escaped) =
    .ok (.reading stack (.string owner ((points text).reverse ++ pts) .plain)) := by
  induction text generalizing pts with
  | nil => rfl
  | cons c text ih =>
    rw [List.flatMap_cons,scan_through (escaped_read stack owner pts c),ih]
    simp [points]

-- From the first character after the opening quote to the closing one.
theorem quoted_read (pts : Points) (text : Text) :
    scan limit (.reading stack (.string owner pts .plain)) (text.flatMap escaped ++ ['"']) =
      .ok (closing stack owner ((points text).reverse ++ pts)) := by
  rw [scan_through (body_read stack owner pts text)]
  rfl

theorem str_read (text : Text) : scan limit (.reading stack .value) (encoded text) = .ok (complete (.str (points text)) stack) := by
  have read := @quoted_read limit stack none [] text
  rw [closing,List.append_nil,List.reverse_reverse] at read
  exact read

theorem key_read (members : Fields) (text : Text) :
    scan limit (.reading stack (.key members)) (encoded text) = .ok (.reading stack (.colon members (points text))) := by
  have read := @quoted_read limit stack (some members) [] text
  rw [closing,List.append_nil,List.reverse_reverse] at read
  exact read

end Strings
section Numbers
variable (stack : List Frame)

theorem number_extends {part next : Part} {c : Char} (longer : extend part c = some next) (token : Text) :
    step limit (.reading stack (.number part token)) c = .ok (.reading stack (.number next (token ++ [c]))) := by
  have ordinary : ¬ (part = .minus ∧ c = 'I') := by
    rintro ⟨rfl,rfl⟩
    cases longer
  simp only [step,if_neg ordinary,longer]

theorem more_digits (token : Text) {digits : Text} (all : ∀ c ∈ digits, c.isDigit = true) :
    scan limit (.reading stack (.number .digits token)) digits = .ok (.reading stack (.number .digits (token ++ digits))) := by
  induction digits generalizing token with
  | nil => rw [List.append_nil]; rfl
  | cons c digits ih =>
    have longer : extend .digits c = some .digits := by rw [extend,if_pos (all c (by simp))]
    rw [scan_cons,number_extends stack longer]
    have read := ih (token ++ [c]) fun d member => all d (List.mem_cons_of_mem c member)
    rw [List.append_assoc] at read
    exact read

theorem toDigits_digits (n : Nat) : ∀ c ∈ Nat.toDigits 10 n, c.isDigit = true := fun _ =>
  Nat.isDigit_of_mem_toDigits (by decide) (by decide)

theorem digits_lead {n : Nat} (positive : 0 < n) : ∃ c digits, Nat.toDigits 10 n = c :: digits ∧ c ≠ '0' := by
  induction n using Nat.strongRecOn with
  | ind n ih =>
    by_cases small : n < 10
    · refine ⟨n.digitChar,[],Nat.toDigits_of_lt_base small,?_⟩
      intro zero
      exact positive.ne' (Nat.digitChar_eq_zero.mp zero)
    · obtain ⟨c,digits,same,lead⟩ := ih (n / 10) (by omega) (by omega)
      refine ⟨c,digits ++ [(n % 10).digitChar],?_,lead⟩
      rw [Nat.toDigits_of_base_le (by decide) (by omega),same,List.cons_append]

theorem digit_apart {c d : Char} (digit : c.isDigit = true) (other : d.isDigit = false) : c ≠ d := by
  rintro rfl
  rw [digit] at other
  cases other

theorem value_opens {c : Char} (shown : blank c = false) : step limit (.reading stack .value) c = opening stack c := by
  simp [step,between,shown]

theorem digit_shown {c : Char} (digit : c.isDigit = true) : blank c = false := by
  refine Bool.eq_false_iff.mpr fun shown => ?_
  rcases (by simpa [blank] using shown : c = ' ' ∨ c = '\t' ∨ c = '\n' ∨ c = '\r') with rfl | rfl | rfl | rfl <;> cases digit

theorem digit_opens {c : Char} (digit : c.isDigit = true) (lead : c ≠ '0') :
    opening stack c = .ok (.reading stack (.number .digits [c])) := by
  have named : literalOf c = none := by
    unfold literalOf
    iterate 5 rw [if_neg (digit_apart digit rfl)]
  have part : leading c = some .digits := by rw [leading,if_neg (digit_apart digit rfl),if_neg lead,if_pos digit]
  unfold opening
  iterate 3 rw [if_neg (digit_apart digit rfl)]
  simp only [named,part]

def wholePart (n : Nat) : Part := if n = 0 then .zero else .digits

theorem natural_read (n : Nat) : scan limit (.reading stack .value) (Nat.toDigits 10 n) =
    .ok (.reading stack (.number (wholePart n) (Nat.toDigits 10 n))) := by
  by_cases zero : n = 0
  · subst zero
    rfl
  · obtain ⟨c,digits,same,lead⟩ := digits_lead (Nat.pos_of_ne_zero zero)
    have all := toDigits_digits n
    rw [same,List.forall_mem_cons] at all
    rw [same,scan_cons,wholePart,if_neg zero]
    rw [value_opens stack (digit_shown all.1),digit_opens stack all.1 lead]
    exact more_digits stack [c] all.2

theorem negative_read {n : Nat} (positive : 0 < n) : scan limit (.reading stack .value) ('-' :: Nat.toDigits 10 n) =
    .ok (.reading stack (.number .digits ('-' :: Nat.toDigits 10 n))) := by
  obtain ⟨c,digits,same,lead⟩ := digits_lead positive
  have all := toDigits_digits n
  rw [same,List.forall_mem_cons] at all
  have signed : step limit (.reading stack .value) '-' = .ok (.reading stack (.number .minus ['-'])) := rfl
  have longer : extend .minus c = some .digits := by rw [extend,if_neg lead,if_pos all.1]
  rw [same,scan_cons,signed]
  change scan limit _ (c :: digits) = _
  rw [scan_cons,number_extends stack longer]
  exact more_digits stack ['-',c] all.2

theorem int_text (n : Int) : (toString n).toList =
    if 0 ≤ n then Nat.toDigits 10 n.natAbs else '-' :: Nat.toDigits 10 n.natAbs := by
  rw [Int.toString_eq_repr,Int.repr_eq_if]
  split
  · rename_i positive
    rw [Nat.toList_repr,show n.toNat = n.natAbs by omega]
  · rename_i negative
    rw [String.toList_append,Nat.toList_repr,show (-n).toNat = n.natAbs by omega]
    rfl

theorem magnitude_digits {text : Text} (all : ∀ c ∈ text, c.isDigit = true) : magnitude text = text := by
  cases text with
  | nil => rfl
  | cons c text =>
    have apart := digit_apart (all c (by simp)) (show '-'.isDigit = false by decide)
    unfold magnitude
    split
    · rename_i same
      cases same
      exact absurd rfl apart
    · rfl

theorem intOf_digits {text : Text} (all : ∀ c ∈ text, c.isDigit = true) : intOf text = (Nat.ofDigitChars 10 text 0 : Nat) := by
  cases text with
  | nil => rfl
  | cons c text =>
    have apart := digit_apart (all c (by simp)) (show '-'.isDigit = false by decide)
    unfold intOf
    split
    · rename_i same
      cases same
      exact absurd rfl apart
    · rfl

theorem numberValue_whole (n : Nat) (token : Text) : numberValue limit (wholePart n) token = readInt limit token := by
  unfold wholePart
  split <;> rfl

theorem settle_number {part : Part} {token : Text} {value : Value} (read : numberValue limit part token = .ok value) :
    settle limit (.reading stack (.number part token)) = .ok (complete value stack) := by
  rw [settle,read]
  rfl

theorem int_read {n : Int} (printed : withinLimit limit (.int n) = true) :
    scan limit (.reading stack .value) (toString n).toList >>= settle limit = .ok (complete (.int n) stack) := by
  have fits : (Nat.toDigits 10 n.natAbs).length ≤ limit := by simpa [withinLimit] using printed
  rw [int_text]
  split
  · rename_i positive
    rw [natural_read]
    refine settle_number stack ?_
    rw [numberValue_whole,readInt,magnitude_digits (toDigits_digits _),if_pos fits,intOf_digits (toDigits_digits _),
      Nat.ofDigitChars_ten_toDigits,Int.natAbs_of_nonneg positive]
  · rename_i negative
    rw [negative_read stack (by omega)]
    refine settle_number stack ?_
    rw [numberValue,readInt,magnitude,if_pos fits,intOf,Nat.ofDigitChars_ten_toDigits,show -(n.natAbs : Int) = n by omega]

end Numbers
-- The text leads to the state, once a number at its end is taken as ended.
def Reads (limit : Nat) (start : State) (text : Text) (stop : State) : Prop :=
  scan limit start text >>= settle limit = .ok stop

theorem reads_parts {start stop : State} {text : Text} (reads : Reads limit start text stop) :
    ∃ reached, scan limit start text = .ok reached ∧ settle limit reached = .ok stop := by
  unfold Reads at reads
  cases scanned : scan limit start text with
  | error trouble =>
    rw [scanned] at reads
    cases reads
  | ok reached =>
    rw [scanned] at reads
    exact ⟨reached,rfl,reads⟩

theorem step_complete (value : Value) (stack : List Frame) (c : Char) :
    step limit (complete value stack) c = between (complete value stack) c := by
  cases stack with
  | nil => rfl
  | cons frame stack => cases frame <;> rfl

def delimits (c : Char) : Bool := [',',']','}'].contains c

theorem delimiter_ends {c : Char} (delimiter : delimits c = true) (part : Part) : extend part c = none ∧ c ≠ 'I' := by
  rcases (by simpa [delimits] using delimiter : c = ',' ∨ c = ']' ∨ c = '}') with rfl | rfl | rfl <;>
    exact ⟨by cases part <;> rfl,by decide⟩

theorem step_settled {state stop : State} (settled : settle limit state = .ok stop) {c : Char} (delimiter : delimits c = true) :
    step limit state c = step limit stop c := by
  cases state with
  | finished value => cases settled; rfl
  | reading stack mode =>
    cases mode with
    | number part token =>
      obtain ⟨ended,apart⟩ := delimiter_ends delimiter part
      cases value : numberValue limit part token with
      | error trouble =>
        rw [settle,value] at settled
        cases settled
      | ok value' =>
        rw [settle_number stack value] at settled
        cases settled
        have ordinary : ¬ (part = .minus ∧ c = 'I') := fun both => apart both.2
        rw [step_complete]
        simp only [step,if_neg ordinary,ended,settle_number stack value]
        rfl
    | _ => cases settled; rfl

theorem reads_then {start stop : State} {text : Text} (reads : Reads limit start text stop) {c : Char}
    (delimiter : delimits c = true) (rest : Text) : scan limit start (text ++ c :: rest) = scan limit stop (c :: rest) := by
  obtain ⟨reached,scanned,settled⟩ := reads_parts reads
  rw [scan_through scanned,scan_cons,scan_cons,step_settled settled delimiter]

def ReadsBack (limit : Nat) (json : Json) : Prop :=
  ∀ stack, Reads limit (.reading stack .value) (dumps json) (complete (ofJson json) stack)

theorem items_read (item : Json) (rest : List Json) (each : ∀ json ∈ item :: rest, ReadsBack limit json)
    (done : List Value) (stack : List Frame) :
    scan limit (.reading (.arr done :: stack) .value) (", ".toList.intercalate ((item :: rest).map dumps) ++ [']']) =
      .ok (complete (.arr (done ++ (item :: rest).map ofJson)) stack) := by
  induction rest generalizing item done with
  | nil =>
    rw [List.map_singleton,List.intercalate_singleton,reads_then (each item (by simp) _) (by decide)]
    rfl
  | cons next rest ih =>
    have later := ih next (fun json member => each json (List.mem_cons_of_mem item member)) (done ++ [ofJson item])
    rw [List.map_cons,List.map_cons,List.intercalate_cons_cons,List.append_assoc,List.append_assoc,show ", ".toList = [',',' '] from rfl,List.cons_append]
    rw [reads_then (each item (by simp) _) (by decide)]
    rw [List.append_assoc] at later
    exact later

theorem member_read {value : Json} (back : ReadsBack limit value) (key : Text) (done : Fields) (stack : List Frame) :
    Reads limit (.reading stack (.key done)) (labelled key (dumps value))
      (.reading stack (.afterMember (put (points key) (ofJson value) done))) := by
  unfold Reads labelled
  rw [List.append_assoc,scan_through (key_read stack done key)]
  exact back (.obj done (points key) :: stack)

theorem key_fresh {done : Fields} {key : Points} {value : Value} {later : Fields}
    (distinct : ((done ++ (key,value) :: later).map Prod.fst).Nodup) : put key value done = done ++ [(key,value)] := by
  rw [List.map_append,List.map_cons,List.nodup_middle,List.nodup_cons] at distinct
  exact put_last key value done fun inside => distinct.1 (List.mem_append_left _ inside)

theorem members_read (entry : Text × Json) (rest : Members) (each : ∀ other ∈ entry :: rest, ReadsBack limit other.2)
    (done : Fields) (stack : List Frame) (distinct : ((done ++ ofMembers (entry :: rest)).map Prod.fst).Nodup) :
    scan limit (.reading stack (.key done))
      (", ".toList.intercalate ((entry :: rest).map fun entry => labelled entry.1 (dumps entry.2)) ++ ['}']) =
      .ok (complete (.obj (done ++ ofMembers (entry :: rest))) stack) := by
  induction rest generalizing entry done with
  | nil =>
    have first := member_read (each entry (by simp)) entry.1 done stack
    rw [key_fresh distinct] at first
    rw [List.map_singleton,List.intercalate_singleton,reads_then first (by decide)]
    rfl
  | cons next rest ih =>
    have first := member_read (each entry (by simp)) entry.1 done stack
    rw [key_fresh distinct] at first
    have split : done ++ ofMembers (entry :: next :: rest) = done ++ [(points entry.1,ofJson entry.2)] ++ ofMembers (next :: rest) := by
      rw [ofMembers,List.append_assoc]
      rfl
    rw [split] at distinct ⊢
    have later := ih next (fun other member => each other (List.mem_cons_of_mem entry member)) _ distinct
    rw [List.map_cons,List.map_cons,List.intercalate_cons_cons,List.append_assoc,List.append_assoc,show ", ".toList = [',',' '] from rfl,List.cons_append]
    rw [reads_then first (by decide)]
    exact later

def starts (c : Char) : Bool := ['"','[','{','n','t','f','-'].contains c || c.isDigit

theorem starts_apart {c d : Char} (first : starts c = true) (other : starts d = false) : c ≠ d := by
  rintro rfl
  rw [first] at other
  cases other

theorem starts_shown {c : Char} (first : starts c = true) : blank c = false := by
  refine Bool.eq_false_iff.mpr fun shown => ?_
  rcases (by simpa [blank] using shown : c = ' ' ∨ c = '\t' ∨ c = '\n' ∨ c = '\r') with rfl | rfl | rfl | rfl <;> cases first

theorem int_starts (n : Int) : ∃ c text, (toString n).toList = c :: text ∧ starts c = true := by
  rw [int_text]
  split
  · obtain ⟨c,text,same⟩ := List.exists_cons_of_ne_nil (Nat.toDigits_ne_nil (n := n.natAbs) (b := 10))
    have digit := toDigits_digits n.natAbs c (by rw [same]; exact List.mem_cons_self)
    exact ⟨c,text,same,by rw [starts,digit,Bool.or_true]⟩
  · exact ⟨'-',_,rfl,rfl⟩

theorem dumps_starts (json : Json) (plain : every plainNode json = true) : ∃ c text, dumps json = c :: text ∧ starts c = true := by
  cases json with
  | float printed => cases plain
  | bool value => cases value <;> exact ⟨_,_,rfl,rfl⟩
  | int value => exact int_starts value
  | _ => exact ⟨_,_,rfl,rfl⟩

theorem first_opens {c : Char} (first : starts c = true) (stack : List Frame) (text : Text) :
    scan limit (.reading stack .first) (c :: text) = scan limit (.reading (.arr [] :: stack) .value) (c :: text) := by
  have shown := starts_shown first
  have apart := starts_apart first (show starts ']' = false by decide)
  simp [scan_cons,step,between,shown,apart]

theorem settle_complete (value : Value) (stack : List Frame) : settle limit (complete value stack) = .ok (complete value stack) := by
  cases stack with
  | nil => rfl
  | cons frame stack => cases frame <;> rfl

theorem reads_complete {state : State} {text : Text} {value : Value} {stack : List Frame}
    (read : scan limit state text = .ok (complete value stack)) : Reads limit state text (complete value stack) := by
  unfold Reads
  rw [read]
  exact settle_complete value stack

theorem intercalate_head {α : Type} (separator : List α) (c : α) (text : List α) (parts : List (List α)) :
    separator.intercalate ((c :: text) :: parts) = c :: separator.intercalate (text :: parts) := by
  cases parts with
  | nil => rw [List.intercalate_singleton,List.intercalate_singleton]
  | cons next parts => simp only [List.intercalate_cons_cons,List.cons_append]

theorem arr_read (items : List Json) (plain : ∀ item ∈ items, every plainNode item = true)
    (each : ∀ item ∈ items, ReadsBack limit item) : ReadsBack limit (.arr items) := by
  intro stack
  refine reads_complete ?_
  cases items with
  | nil => rfl
  | cons item rest =>
    obtain ⟨c,text,same,first⟩ := dumps_starts item (plain item (by simp))
    have inside := items_read item rest each [] stack
    rw [List.map_cons,same,intercalate_head,List.cons_append,← first_opens first] at inside
    rw [dumps,dumpsItems_map,ofJson,ofItems_map,enclosed,List.map_cons,same,intercalate_head]
    exact inside

theorem obj_read (members : Members) (distinct : distinctKeys members = true)
    (each : ∀ entry ∈ members, ReadsBack limit entry.2) : ReadsBack limit (.obj members) := by
  intro stack
  refine reads_complete ?_
  cases members with
  | nil => rfl
  | cons entry rest =>
    have keys : ((ofMembers (entry :: rest)).map Prod.fst).Nodup := by
      have separate : ((entry :: rest).map Prod.fst).Nodup := by simpa [distinctKeys] using distinct
      rw [ofMembers_map,List.map_map,show (Prod.fst ∘ fun entry : Text × Json => (points entry.1,ofJson entry.2)) =
        points ∘ Prod.fst from rfl,← List.map_map]
      exact separate.map points_injective
    have inside := members_read entry rest each [] stack keys
    have quoted : labelled entry.1 (dumps entry.2) =
        '"' :: (entry.1.flatMap escaped ++ ['"'] ++ ": ".toList ++ dumps entry.2) := rfl
    rw [List.map_cons,quoted,intercalate_head] at inside
    rw [dumps,dumpsMembers_map,ofJson,enclosed,List.map_cons,quoted,intercalate_head]
    exact inside

theorem dumps_read (json : Json) (plain : every plainNode json = true) (printed : printable limit json = true) :
    ReadsBack limit json := by
  induction json using Json.induction with
  | null => intro stack; exact reads_complete rfl
  | bool value => intro stack; cases value <;> exact reads_complete rfl
  | int value => intro stack; exact int_read stack printed
  | float value => cases plain
  | str value => intro stack; exact reads_complete (str_read stack value)
  | arr items ih =>
    have inside := (every_arr _ _).mp plain
    have shown := (every_arr _ _).mp printed
    exact arr_read items inside.2 fun item member => ih item member (inside.2 item member) (shown.2 item member)
  | obj members ih =>
    have inside := (every_obj _ _).mp plain
    have shown := (every_obj _ _).mp printed
    exact obj_read members inside.1 fun entry member => ih entry member (inside.2 entry member) (shown.2 entry member)

theorem loads_dumps (value : PlainJson) (printed : printable limit value.json = true) :
    loads limit (dumps value.json) = .ok (ofJson value.json) := by
  obtain ⟨reached,scanned,settled⟩ := reads_parts (dumps_read value.json value.plain printed [])
  unfold loads result
  rw [scanned]
  change settle limit reached >>= _ = _
  rw [settled]
  rfl

end Limit
end JsonReader
