import Kryvaracode.JsonTrace

-- Text that stands in front of a printed value keeps the reader from giving that value back.
namespace JsonReader
open InsertionDict JsonText

section Limit
variable {limit : Nat}

def Gives (limit : Nat) (state : State) (text : Text) (value : Value) : Prop :=
  scan limit state text >>= result limit = .ok value

theorem gives_parts {state : State} {text : Text} {value : Value} (gives : Gives limit state text value) :
    ∃ stop, scan limit state text = .ok stop ∧ settle limit stop = .ok (.finished value) := by
  unfold Gives at gives
  cases scanned : scan limit state text with
  | error trouble =>
    rw [scanned] at gives
    cases gives
  | ok stop =>
    rw [scanned] at gives
    change (settle limit stop >>= _) = _ at gives
    refine ⟨stop,rfl,?_⟩
    cases settled : settle limit stop with
    | error trouble =>
      rw [settled] at gives
      cases gives
    | ok last =>
      rw [settled] at gives
      cases last with
      | finished other => cases gives; rfl
      | reading stack mode => cases gives

theorem gives_step {state : State} {c : Char} {text : Text} {value : Value} (gives : Gives limit state (c :: text) value) :
    ∃ next, step limit state c = .ok next ∧ Gives limit next text value := by
  unfold Gives at gives
  rw [scan_cons] at gives
  cases moved : step limit state c with
  | error trouble =>
    rw [moved] at gives
    cases gives
  | ok next =>
    rw [moved] at gives
    exact ⟨next,rfl,gives⟩

theorem reads_gives {state stop : State} {text : Text} {value : Value} (reads : Reads limit state text stop)
    (gives : Gives limit state text value) : stop = .finished value := by
  obtain ⟨reached,scanned,settled⟩ := reads_parts reads
  obtain ⟨other,same,finished⟩ := gives_parts gives
  rw [scanned] at same
  cases same
  rw [settled] at finished
  exact Except.ok.inj finished

theorem complete_finished {value other : Value} {stack : List Frame} (finished : complete value stack = .finished other) :
    stack = [] ∧ value = other := by
  cases stack with
  | nil => cases finished; exact ⟨rfl,rfl⟩
  | cons frame stack => cases frame <;> cases finished

-- Text in front may leave the reader inside a string, and there it stays.
theorem inside_unfinished {state : State} {text : Text} {value : Value} (traced : Traced [] state)
    (stays : ∀ stop, lexRun (lexical state) text = some stop → stop = .inside) : ¬ Gives limit state text value := by
  intro gives
  obtain ⟨stop,scanned,settled⟩ := gives_parts gives
  have inside := stays _ (scan_keeps traced scanned).2
  cases stop with
  | finished other => cases inside
  | reading stack mode => cases mode <;> first | cases inside | cases settled

theorem lexRun_escaped {c : Char} (plain : ordinary c = true) (text : Text) :
    lexRun .escaped (c :: text) = lexRun .inside (c :: text) := by
  obtain ⟨quote,backslash⟩ : c ≠ '"' ∧ c ≠ '\\' := by simpa [ordinary] using plain
  simp only [lexRun_cons,lexStep,if_neg quote,if_neg backslash]

section Places
variable {stack : List Frame} {owner : Option Fields} {pts : Points} {members : Fields} {value : Value}

theorem closed_string {stop : State} (closed : closing stack owner pts = stop) (settled : settle limit stop = .ok (.finished value)) :
    value = .str pts.reverse := by
  cases owner with
  | none =>
    rw [← closed,closing,settle_complete] at settled
    exact (complete_finished (Except.ok.inj settled)).2.symm
  | some members =>
    rw [← closed] at settled
    cases settled

-- A string whose opening quote is read as an escaped one comes out longer.
theorem quote_kept (text : Text) :
    ¬ Gives limit (.reading stack (.string owner pts .backslash)) (encoded text) (.str (points text)) := by
  intro gives
  obtain ⟨next,moved,later⟩ := gives_step gives
  cases moved
  obtain ⟨stop,scanned,settled⟩ := gives_parts later
  have same := scanned.symm.trans (quoted_read stack owner _ text)
  have longer := closed_string (Except.ok.inj same).symm settled
  rw [Value.str.injEq] at longer
  have lengths := congrArg List.length longer
  simp at lengths
  omega

theorem str_or_head (json : Json) (plain : every plainNode json = true) :
    (∃ text, json = .str text) ∨ ∃ c text, dumps json = c :: text ∧ starts c = true ∧ c ≠ '"' := by
  cases json with
  | str text => exact .inl ⟨text,rfl⟩
  | float printed => cases plain
  | bool flag => cases flag <;> exact .inr ⟨_,_,rfl,rfl,by decide⟩
  | int n =>
    obtain ⟨c,text,same,first⟩ := int_starts n
    refine .inr ⟨c,text,same,first,?_⟩
    rcases int_text_chars n c (by rw [same]; exact List.mem_cons_self) with rfl | digit
    · decide
    · exact digit_apart digit (by decide)
  | _ => exact .inr ⟨_,_,rfl,rfl,by decide⟩

theorem string_unfinished {escape : Escape} (json : Json) (plain : every plainNode json = true) :
    ¬ Gives limit (.reading stack (.string owner pts escape)) (dumps json) (ofJson json) := by
  have steady := dumps_steady json plain
  cases escape with
  | plain => exact inside_unfinished trivial steady
  | hex count code => exact inside_unfinished trivial steady
  | backslash =>
    rcases str_or_head json plain with ⟨text,rfl⟩ | ⟨c,text,same,first,quote⟩
    · exact quote_kept text
    · have plainly : ordinary c = true := by simp [ordinary,quote,starts_apart first (show starts '\\' = false by decide)]
      refine inside_unfinished trivial fun stop run => steady stop ?_
      rw [same] at run ⊢
      rw [← lexRun_escaped plainly]
      exact run

theorem starts_refused {c : Char} (first : starts c = true) (value : Value) : between (complete value stack) c = .error .undecodable := by
  have shown := starts_shown first
  have comma := starts_apart first (show starts ',' = false by decide)
  have bracket := starts_apart first (show starts ']' = false by decide)
  have brace := starts_apart first (show starts '}' = false by decide)
  cases stack with
  | nil => simp [between,complete,shown]
  | cons frame stack => cases frame <;> simp [between,complete,shown,comma,bracket,brace]

theorem value_unfinished (json : Json) (back : ReadsBack limit json) (nested : stack ≠ []) :
    ¬ Gives limit (.reading stack .value) (dumps json) value := fun gives =>
  nested (complete_finished (reads_gives (back stack) gives)).1

theorem first_unfinished (json : Json) (plain : every plainNode json = true) (back : ReadsBack limit json) :
    ¬ Gives limit (.reading stack .first) (dumps json) value := by
  intro gives
  obtain ⟨c,text,same,first⟩ := dumps_starts json plain
  unfold Gives at gives
  rw [same,first_opens first,← same] at gives
  exact value_unfinished json back (List.cons_ne_nil _ _) gives

theorem key_unfinished (json : Json) (plain : every plainNode json = true) :
    ¬ Gives limit (.reading stack (.key members)) (dumps json) value := by
  intro gives
  rcases str_or_head json plain with ⟨text,rfl⟩ | ⟨c,text,same,first,quote⟩
  · obtain ⟨stop,scanned,settled⟩ := gives_parts gives
    rw [dumps,key_read] at scanned
    cases scanned
    cases settled
  · rw [same] at gives
    obtain ⟨next,moved,later⟩ := gives_step gives
    simp [step,between,naming,starts_shown first,quote] at moved

theorem firstKey_unfinished (json : Json) (plain : every plainNode json = true) :
    ¬ Gives limit (.reading stack .firstKey) (dumps json) value := by
  intro gives
  obtain ⟨c,text,same,first⟩ := dumps_starts json plain
  have brace := starts_apart first (show starts '}' = false by decide)
  have shown := starts_shown first
  have named : Gives limit (.reading stack (.key [])) (dumps json) value := by
    unfold Gives at gives ⊢
    rw [same] at gives ⊢
    simpa [scan_cons,step,between,shown,brace] using gives
  exact key_unfinished json plain named

-- The states after a complete value or a key, where only a mark may follow.
def markDue : State → Bool
  | .finished _ | .reading _ (.afterItem _) | .reading _ (.afterMember _) | .reading _ (.colon _ _) => true
  | _ => false

theorem mark_missing {state : State} (due : markDue state = true) (json : Json) (plain : every plainNode json = true) :
    ¬ Gives limit state (dumps json) value := by
  intro gives
  obtain ⟨c,text,same,first⟩ := dumps_starts json plain
  have shown := starts_shown first
  have comma := starts_apart first (show starts ',' = false by decide)
  have bracket := starts_apart first (show starts ']' = false by decide)
  have brace := starts_apart first (show starts '}' = false by decide)
  have colon := starts_apart first (show starts ':' = false by decide)
  rw [same] at gives
  obtain ⟨next,moved,later⟩ := gives_step gives
  cases state with
  | finished other => simp [step,between,shown] at moved
  | reading stack mode =>
    cases mode with
    | afterItem | afterMember | colon => simp [step,between,shown,comma,bracket,brace,colon] at moved
    | _ => cases due

-- The two texts differ before either ends.
def clash : Text → Text → Bool
  | c :: one,d :: two => c != d || clash one two
  | _,_ => false

theorem literal_clash {next : Char} {rest text : Text} {read : Value} (clashes : clash (next :: rest) text = true) :
    ¬ Gives limit (.reading stack (.literal next rest read)) text value := by
  intro gives
  induction text generalizing next rest with
  | nil => cases clashes
  | cons c text ih =>
    obtain ⟨reached,moved,later⟩ := gives_step gives
    simp only [step] at moved
    split at moved
    · rename_i same
      simp only [clash,same,bne_self_eq_false,Bool.false_or] at clashes
      cases rest with
      | nil => cases clashes
      | cons following rest =>
        cases moved
        exact ih clashes later
    · cases moved

theorem words_clash : remainders.all (fun rest => rest.isEmpty ||
    (clash rest ['n','u','l','l'] && clash rest ['t','r','u','e'] && clash rest ['f','a','l','s','e'])) = true := by rfl

theorem word_clash {next : Char} {rest : Text} (known : next :: rest ∈ remainders) :
    clash (next :: rest) "null".toList = true ∧ clash (next :: rest) "true".toList = true ∧
      clash (next :: rest) "false".toList = true := by
  have each := List.all_eq_true.mp words_clash _ known
  simpa [and_assoc] using each

theorem clash_head {c d : Char} (apart : c ≠ d) (one two : Text) : clash (c :: one) (d :: two) = true := by
  simp [clash,apart]

theorem digit_letter {c : Char} (digit : c.isDigit = true) : c.isAlpha = false := by
  simp [Char.isDigit,Char.isAlpha,Char.isUpper,Char.isLower,UInt32.le_iff_toNat_le] at digit ⊢
  omega

theorem int_head (n : Int) : ∃ c text, (toString n).toList = c :: text ∧ (c = '-' ∨ c.isDigit = true) := by
  obtain ⟨c,text,same,first⟩ := int_starts n
  exact ⟨c,text,same,int_text_chars n c (by rw [same]; exact List.mem_cons_self)⟩

theorem literal_refuses {next : Char} {rest : Text} {read : Value} (known : next :: rest ∈ remainders) (json : Json)
    (plain : every plainNode json = true) : ¬ Gives limit (.reading stack (.literal next rest read)) (dumps json) value := by
  obtain ⟨null,yes,no⟩ := word_clash known
  have letter := remainder_letter known List.mem_cons_self
  cases json with
  | null => exact literal_clash null
  | bool flag =>
    cases flag with
    | true => exact literal_clash yes
    | false => exact literal_clash no
  | int n =>
    obtain ⟨c,text,same,head⟩ := int_head n
    have apart : next ≠ c := by
      rcases head with rfl | digit
      · exact letter_apart letter (by decide)
      · exact letter_apart letter (digit_letter digit)
    rw [dumps,same]
    exact literal_clash (clash_head apart rest text)
  | float printed => cases plain
  | str text => exact literal_clash (clash_head (letter_apart letter (by decide)) rest _)
  | arr items => exact literal_clash (clash_head (letter_apart letter (by decide)) rest _)
  | obj members => exact literal_clash (clash_head (letter_apart letter (by decide)) rest _)

section Numbers
variable {part : Part} {token : Text}

theorem number_step {c : Char} {next : State} (first : starts c = true) (letter : c ≠ 'I')
    (moved : step limit (.reading stack (.number part token)) c = .ok next) :
    ∃ longer, extend part c = some longer ∧ next = .reading stack (.number longer (token ++ [c])) := by
  have finite : ¬ (part = .minus ∧ c = 'I') := fun both => letter both.2
  simp only [step,if_neg finite] at moved
  split at moved
  · rename_i longer extended
    cases moved
    exact ⟨longer,extended,rfl⟩
  · obtain ⟨value,after⟩ := settled_between moved
    rw [starts_refused first] at after
    cases after

theorem number_run {text : Text} {stop : State} (all : ∀ c ∈ text, c = '-' ∨ c.isDigit = true)
    (read : scan limit (.reading stack (.number part token)) text = .ok stop) :
    ∃ last, text.foldlM extend part = some last ∧ stop = .reading stack (.number last (token ++ text)) := by
  induction text generalizing part token with
  | nil =>
    cases read
    exact ⟨part,rfl,by rw [List.append_nil]⟩
  | cons c text ih =>
    obtain ⟨middle,moved,later⟩ := scan_step read
    have head := all c List.mem_cons_self
    have first : starts c = true := by
      rcases head with rfl | digit
      · rfl
      · rw [starts,digit,Bool.or_true]
    have letter : c ≠ 'I' := by
      rcases head with rfl | digit
      · decide
      · exact digit_apart digit (by decide)
    obtain ⟨longer,extended,rfl⟩ := number_step first letter moved
    obtain ⟨last,path,same⟩ := ih (fun d member => all d (List.mem_cons_of_mem c member)) later
    refine ⟨last,?_,?_⟩
    · rw [List.foldlM_cons,extended]
      exact path
    · rw [same,List.append_assoc,List.singleton_append]

def integral : Part → Bool
  | .minus | .zero | .digits => true
  | _ => false

theorem extend_integral {next : Part} {c : Char} (longer : extend part c = some next) (whole : integral next = true) :
    (part = .minus ∨ part = .digits) ∧ c.isDigit = true := by
  cases part with
  | minus =>
    refine ⟨.inl rfl,?_⟩
    simp only [extend] at longer
    split_ifs at longer with zero digit
    · rw [zero]
      rfl
    · exact digit
  | digits =>
    refine ⟨.inr rfl,?_⟩
    simp only [extend] at longer
    split_ifs at longer with digit point exponent
    · exact digit
    · cases longer; cases whole
    · cases longer; cases whole
  | zero | point | fraction | exponent | exponentSign | exponentDigits =>
    simp only [extend] at longer
    split_ifs at longer
    all_goals cases longer; cases whole

theorem path_integral {text : Text} {last : Part} (path : text.foldlM extend part = some last) (whole : integral last = true) :
    integral part = true := by
  induction text generalizing part with
  | nil => cases path; exact whole
  | cons c text ih =>
    rw [List.foldlM_cons] at path
    obtain ⟨next,longer,later⟩ := Option.bind_eq_some_iff.mp path
    rcases (extend_integral longer (ih later)).1 with rfl | rfl <;> rfl

theorem numberValue_int {n : Int} (read : numberValue limit part token = .ok (.int n)) : integral part = true ∧ intOf token = n := by
  have whole : readInt limit token = .ok (.int n) → intOf token = n := by
    intro int
    unfold readInt at int
    split at int <;> cases int
    rfl
  cases part with
  | minus => cases read
  | zero => exact ⟨rfl,whole read⟩
  | digits => exact ⟨rfl,whole read⟩
  | fraction | exponentDigits => cases read
  | point | exponent | exponentSign =>
    simp only [numberValue] at read
    split at read
    · cases read
    · unfold readInt at read
      split at read <;> cases read

theorem intOf_sign {sign digits : Text} (signed : sign = [] ∨ sign = ['-']) (all : ∀ c ∈ digits, c.isDigit = true) :
    intOf (sign ++ digits) = (Nat.ofDigitChars 10 digits 0 : Nat) ∨ intOf (sign ++ digits) = -(Nat.ofDigitChars 10 digits 0 : Nat) := by
  rcases signed with rfl | rfl
  · exact .inl (intOf_digits all)
  · exact .inr rfl

theorem number_settled {value : Value} (settled : settle limit (.reading stack (.number part token)) = .ok (.finished value)) :
    stack = [] ∧ numberValue limit part token = .ok value := by
  rw [settle] at settled
  cases read : numberValue limit part token with
  | error trouble =>
    rw [read] at settled
    cases settled
  | ok other =>
    rw [read] at settled
    obtain ⟨root,same⟩ := complete_finished (Except.ok.inj settled)
    exact ⟨root,by rw [same]⟩

-- More digits in front of a number make another number.
theorem digits_lengthened {sign digits : Text} (signed : sign = [] ∨ sign = ['-']) (all : ∀ d ∈ digits, d.isDigit = true)
    (positive : 0 < Nat.ofDigitChars 10 digits 0) (size : Nat) : intOf (sign ++ (digits ++ Nat.toDigits 10 size)) ≠ size := by
  have longer : Nat.ofDigitChars 10 (digits ++ Nat.toDigits 10 size) 0 =
      10 ^ (Nat.toDigits 10 size).length * Nat.ofDigitChars 10 digits 0 + size := by
    rw [Nat.ofDigitChars_append,Nat.ofDigitChars_eq_ofDigitChars_zero,Nat.ofDigitChars_ten_toDigits]
  have more : 0 < 10 ^ (Nat.toDigits 10 size).length * Nat.ofDigitChars 10 digits 0 := by positivity
  have every : ∀ d ∈ digits ++ Nat.toDigits 10 size, d.isDigit = true := fun d member =>
    (List.mem_append.mp member).elim (all d) (toDigits_digits _ d)
  rcases intOf_sign signed every with value | value <;> rw [value,longer] <;> omega

-- An integer continues a number only after a minus sign or more digits, and then it is another one.
theorem int_spoiled {n : Int} {front : Text} (traced : Traced front (.reading stack (.number part token)))
    (gives : Gives limit (.reading stack (.number part token)) (toString n).toList (.int n)) :
    stack = [] ∧ token = ['-'] ∧ n = 0 := by
  obtain ⟨stop,scanned,settled⟩ := gives_parts gives
  obtain ⟨last,path,rfl⟩ := number_run (int_text_chars n) scanned
  obtain ⟨root,read⟩ := number_settled settled
  obtain ⟨whole,same⟩ := numberValue_int read
  obtain ⟨c,text,first,_⟩ := int_head n
  rw [first,List.foldlM_cons] at path
  obtain ⟨next,longer,later⟩ := Option.bind_eq_some_iff.mp path
  obtain ⟨before,digit⟩ := extend_integral longer (path_integral later whole)
  have natural : 0 ≤ n := by
    by_contra negative
    rw [int_text,if_neg negative] at first
    cases first
    cases digit
  rw [int_text,if_pos natural] at same
  rcases before with rfl | rfl
  · have minus : token = ['-'] := traced.1
    have negated : intOf (token ++ Nat.toDigits 10 n.natAbs) = -(n.natAbs : Int) := by
      rw [minus]
      exact congrArg (fun size : Nat => -(size : Int)) Nat.ofDigitChars_ten_toDigits
    exact ⟨root,minus,by omega⟩
  · obtain ⟨sign,digits,rfl,signed,all,positive⟩ := traced.1
    rw [List.append_assoc] at same
    have other := digits_lengthened signed all positive n.natAbs
    omega

end Numbers

theorem int_or_head (json : Json) (plain : every plainNode json = true) :
    (∃ n, json = .int n) ∨ ∃ c text, dumps json = c :: text ∧ starts c = true ∧ c ≠ 'I' ∧ ∀ part, extend part c = none := by
  cases json with
  | int n => exact .inl ⟨n,rfl⟩
  | float printed => cases plain
  | bool flag => cases flag <;> exact .inr ⟨_,_,rfl,rfl,by decide,fun part => by cases part <;> rfl⟩
  | _ => exact .inr ⟨_,_,rfl,rfl,by decide,fun part => by cases part <;> rfl⟩

theorem number_spoiled {part : Part} {token front : Text} (json : Json) (plain : every plainNode json = true)
    (traced : Traced front (.reading stack (.number part token)))
    (gives : Gives limit (.reading stack (.number part token)) (dumps json) (ofJson json)) :
    stack = [] ∧ token = ['-'] ∧ json = .int 0 := by
  rcases int_or_head json plain with ⟨n,rfl⟩ | ⟨c,text,same,first,letter,apart⟩
  · obtain ⟨root,minus,zero⟩ := int_spoiled traced gives
    exact ⟨root,minus,by rw [zero]⟩
  · rw [same] at gives
    obtain ⟨next,moved,_⟩ := gives_step gives
    obtain ⟨longer,extended,_⟩ := number_step first letter moved
    rw [apart part] at extended
    cases extended

end Places

-- The state in front of the printed value, and how it was reached.
theorem front_traced {front text : Text} {value : Value} (gives : loads limit (front ++ text) = .ok value) :
    ∃ state, Traced front state ∧ Gives limit state text value := by
  unfold loads at gives
  rw [scan_append] at gives
  cases scanned : scan limit (.reading [] .value) front with
  | error trouble =>
    rw [scanned] at gives
    cases gives
  | ok state =>
    rw [scanned] at gives
    have start : Traced [] (.reading [] .value) := fun _ d member => by cases member
    exact ⟨state,(scan_keeps start scanned).1,gives⟩

theorem blank_front {c : Char} {rest blanks token : Text} (shown : blank c = false) (same : c :: rest = blanks ++ token)
    (all : ∀ d ∈ blanks, blank d = true) : c :: rest = token := by
  cases blanks with
  | nil => exact same
  | cons d blanks =>
    have first := all d List.mem_cons_self
    rw [← (List.cons.inj same).1,shown] at first
    cases first

theorem front_spoils (value : PlainJson) (printed : printable limit value.json = true) {c : Char} {rest : Text}
    (shown : blank c = false) (gives : loads limit (c :: rest ++ dumps value.json) = .ok (ofJson value.json)) :
    c :: rest = ['-'] ∧ value.json = .int 0 := by
  obtain ⟨json,plain⟩ := value
  have back := dumps_read json plain printed
  obtain ⟨state,traced,after⟩ := front_traced gives
  change Gives limit state (dumps json) (ofJson json) at after
  cases state with
  | finished other => exact absurd after (mark_missing rfl json plain)
  | reading stack mode =>
    cases mode with
    | value =>
      by_cases root : stack = []
      · have same := traced root c List.mem_cons_self
        rw [shown] at same
        cases same
      · exact absurd after (value_unfinished json back root)
    | first => exact absurd after (first_unfinished json plain back)
    | firstKey => exact absurd after (firstKey_unfinished json plain)
    | key members => exact absurd after (key_unfinished json plain)
    | colon | afterItem | afterMember => exact absurd after (mark_missing rfl json plain)
    | string owner points escape => exact absurd after (string_unfinished json plain)
    | literal next left read => exact absurd after (literal_refuses traced json plain)
    | number part token =>
      obtain ⟨root,minus,zero⟩ := number_spoiled json plain traced after
      obtain ⟨blanks,same,all⟩ := traced.2 root
      exact ⟨(blank_front shown same all).trans minus,zero⟩

end Limit
end JsonReader
