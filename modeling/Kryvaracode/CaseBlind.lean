import Kryvaracode.ShellPolicy

namespace Patterns
variable {α : Type}

-- Every class also takes an element one of whose variants it takes.
def loosen (variants : α → List α) : Pattern α → Pattern α
  | .empty => .empty
  | .one accepts => .one fun c => (variants c).any accepts
  | .edge word => .edge word
  | .seq first second => .seq (loosen variants first) (loosen variants second)
  | .alt left right => .alt (loosen variants left) (loosen variants right)
  | .star body => .star (loosen variants body)

theorem loosen_seqs (variants : α → List α) (items : List (Pattern α)) :
    loosen variants (seqs items) = seqs (items.map (loosen variants)) := by
  induction items with
  | nil => rfl
  | cons item items ih =>
      change Pattern.seq _ (loosen variants (seqs items)) = _
      rw [ih]
      rfl

theorem matches_mem [DecidableEq α] (path : Matches (seqs items) prev text rest)
    (member : Pattern.one (fun d : α => decide (d = c)) ∈ items) : c ∈ text := by
  induction items generalizing prev text with
  | nil => cases member
  | cons item items ih =>
      obtain ⟨one,two,rfl,first,second⟩ := seqs_cons.mp path
      rcases List.mem_cons.mp member with rfl | later
      · obtain ⟨d,rfl,same⟩ := one_exact.mp first
        simp [of_decide_eq_true same]
      · exact List.mem_append_right one (ih second later)

-- Where a word does not reach in the text, it does not reach in its image.
def Outside (word : α → Bool) (one two : Option α) : Prop := one.any word = false → two.any word = false

section
variable {variants change : α → List α} {word : α → Bool}

-- What the loose items read, the strict ones read of the image of the text.
-- Next to a word edge stands a class of word elements.
inductive Lifted (variants change : α → List α) (word : α → Bool) : List (Pattern α) → Prop where
  | nil : Lifted variants change word []
  | one : (∀ c, (variants c).any accepts = true → ∃ d, change c = [d] ∧ accepts d = true) →
      Lifted variants change word items → Lifted variants change word (.one accepts :: items)
  | many : (∀ c, (variants c).any accepts = true → ∀ d ∈ change c, accepts d = true) →
      Lifted variants change word items → Lifted variants change word (many accepts :: items)
  | edgeWord : (∀ c, (variants c).any accepts = true → word c = true) → (∀ d, accepts d = true → word d = true) →
      Lifted variants change word (.one accepts :: items) →
      Lifted variants change word (.edge word :: .one accepts :: items)
  | edgeEnd : (∀ c, (variants c).any accepts = true → ∃ d, change c = [d] ∧ accepts d = true) →
      (∀ c, (variants c).any accepts = true → word c = true) → (∀ d, accepts d = true → word d = true) →
      Lifted variants change word [.one accepts,.edge word]

variable (some' : ∀ c, change c ≠ []) (outside : ∀ c, word c = false → ∀ d ∈ change c, word d = false)
include some' outside

theorem outside_after (one two : Option α) (before : Outside word one two) (text : List α) :
    Outside word (after one text) (after two (text.flatMap change)) := by
  induction text using List.reverseRecOn with
  | nil => exact before
  | append_singleton text c ih =>
      intro quiet
      rw [after_append,after_singleton] at quiet
      obtain ⟨front,last,image⟩ := List.eq_nil_or_concat (change c) |>.resolve_left (some' c)
      have member : last ∈ change c := by rw [image]; simp
      simpa [List.flatMap_append,image,after_append] using outside c (by simpa using quiet) last member

theorem outside_head (rest rest' : List α) (behind : Outside word rest.head? rest'.head?) (text : List α) :
    Outside word (text ++ rest).head? (text.flatMap change ++ rest').head? := by
  cases text with
  | nil => exact behind
  | cons c text =>
      intro quiet
      cases image : change c with
      | nil => exact absurd image (some' c)
      | cons d tail =>
          have member : d ∈ change c := by rw [image]; simp
          simpa [image] using outside c (by simpa using quiet) d member

theorem Lifted.matches (lifted : Lifted variants change word items)
    (path : Matches (seqs (items.map (loosen variants))) prev text rest) (before : Outside word prev prev')
    (behind : Outside word rest.head? rest'.head?) : Matches (seqs items) prev' (text.flatMap change) rest' := by
  induction lifted generalizing prev prev' text with
  | nil =>
      cases seqs_nil.mp path
      exact .empty
  | one taken _ ih =>
      obtain ⟨c,tail,rfl,loose,more⟩ := one_cons.mp path
      obtain ⟨d,image,ok⟩ := taken c loose
      have next : Outside word (some c) (some d) := fun quiet => outside c quiet d (by rw [image]; simp)
      rw [List.flatMap_cons,image]
      exact one_cons.mpr ⟨d,tail.flatMap change,rfl,ok,ih more next⟩
  | many taken _ ih =>
      obtain ⟨one,two,rfl,loose,more⟩ := many_cons.mp path
      rw [List.flatMap_append]
      refine many_cons.mpr ⟨one.flatMap change,two.flatMap change,rfl,?_,ih more (outside_after some' outside _ _ before one)⟩
      intro d member
      obtain ⟨c,here,image⟩ := List.mem_flatMap.mp member
      exact taken c (loose c here) d image
  | @edgeWord accepts items wide narrow _ ih =>
      obtain ⟨edge,more⟩ := edge_cons.mp path
      have strict := ih more before
      refine edge_cons.mpr ⟨?_,strict⟩
      obtain ⟨c,tail,rfl,loose,_⟩ := one_cons.mp more
      obtain ⟨d,tail',image,ok,_⟩ := one_cons.mp strict
      have apart : prev.any word = false := by simpa [atEdge,wide c loose] using edge
      rw [image]
      simp [atEdge,before apart,narrow d ok]
  | @edgeEnd accepts taken wide narrow =>
      obtain ⟨c,tail,rfl,loose,more⟩ := one_cons.mp path
      obtain ⟨edge,none⟩ := edge_cons.mp more
      cases seqs_nil.mp none
      obtain ⟨d,image,ok⟩ := taken c loose
      have apart : rest.head?.any word = false := by simpa [atEdge,wide c loose] using edge
      have closed : atEdge word (some d) rest'.head? = true := by simp [atEdge,behind apart,narrow d ok]
      rw [List.flatMap_cons,image]
      exact one_cons.mpr ⟨d,[],rfl,ok,edge_cons.mpr ⟨closed,seqs_nil.mpr rfl⟩⟩

theorem Lifted.search (lifted : Lifted variants change word items)
    (found : Patterns.search (loosen variants (seqs items)) text = true) :
    Patterns.search (seqs items) (text.flatMap change) = true := by
  rw [search_exact,loosen_seqs] at found
  obtain ⟨before,matched,rest,rfl,path⟩ := found
  rw [search_exact]
  refine ⟨before.flatMap change,matched.flatMap change,rest.flatMap change,by simp,?_⟩
  have behind := outside_head some' outside [] [] (fun quiet => quiet) rest
  rw [List.append_nil,List.append_nil] at behind
  exact lifted.matches some' outside path (outside_after some' outside none none (fun quiet => quiet) before) behind

end

end Patterns

namespace Kryvaracode.ShellPolicy
open Patterns UnicodeText

def asciiVariants (c : Char) : List Char := [c,c.toLower,c.toUpper]

-- A pattern of ASCII letters with `re.IGNORECASE` also takes four other letters.
def caseVariants (c : Char) : List Char :=
  asciiVariants c ++
    if c = 'ſ' then ['s','S'] else if c = 'ı' ∨ c = 'İ' then ['i','I'] else if c = '\u212a' then ['k','K'] else []

-- The case of ASCII letters alone.
def SameLetters (one two : Text) : Prop := one.map Char.toLower = two.map Char.toLower

theorem asciiVariants_toLower (member : d ∈ asciiVariants c) : d.toLower = c.toLower := by
  simp only [asciiVariants,List.mem_cons,List.not_mem_nil,or_false] at member
  rcases member with rfl | rfl | rfl <;> simp

theorem ascii_toLower {c : Char} (small : c.toLower.toNat < 128) : c.toNat < 128 := by
  by_cases capital : c.isUpper = true
  · have range : 65 ≤ c.toNat ∧ c.toNat ≤ 90 := by
      simpa [Char.isUpper,UInt32.le_iff_toNat_le] using capital
    omega
  · rwa [Char.toLower_eq_of_not_isUpper capital] at small

variable (tables : Tables)

-- What the character database says of lower-casing a single character.
structure CaseFacts : Prop where
  mapped : ∀ c, tables.lowerEach c ≠ []
  outside : ∀ c, tables.word c = false → ∀ d ∈ tables.lowerEach c, tables.word d = false
  letters : ∀ c, ∀ d ∈ tables.lowerEach c, d.toNat < 128 → d = c ∨ d.isLower = true

theorem lowerEach_ascii (small : c.toNat < 128) : tables.lowerEach c = [c.toLower] := by
  have apart : c ≠ capitalSigma := by rintro rfl; revert small; decide
  rw [Tables.lowerEach,if_neg apart,tables.lowercase_ascii c small]

theorem variant_lowered (member : d ∈ asciiVariants c) (small : d.toNat < 128) (low : d.isUpper = false) :
    tables.lowerEach c = [d] := by
  have same : c.toLower = d := by
    rw [← asciiVariants_toLower member]
    exact Char.toLower_eq_of_not_isUpper (by simp [low])
  rw [lowerEach_ascii tables (ascii_toLower (by rwa [same])),same]

theorem taken_class (accepts : Char → Bool) (low : ∀ d, accepts d = true → d.toNat < 128 ∧ d.isUpper = false) :
    ∀ c, (asciiVariants c).any accepts = true → ∃ d, tables.lowerEach c = [d] ∧ accepts d = true := by
  intro c loose
  obtain ⟨d,member,ok⟩ := List.any_eq_true.mp loose
  exact ⟨d,variant_lowered tables member (low d ok).1 (low d ok).2,ok⟩

theorem taken_each (accepts : Char → Bool) (low : ∀ d, accepts d = true → d.toNat < 128 ∧ d.isUpper = false) :
    ∀ c, (asciiVariants c).any accepts = true → ∀ d ∈ tables.lowerEach c, accepts d = true := by
  intro c loose d member
  obtain ⟨e,image,ok⟩ := taken_class tables accepts low c loose
  rw [image] at member
  cases List.mem_singleton.mp member
  exact ok

theorem smallLetter_low (d : Char) (ok : smallLetter d = true) : d.toNat < 128 ∧ d.isUpper = false := by
  have range : 97 ≤ d.toNat ∧ d.toNat ≤ 122 := by simpa [smallLetter,Char.le_def,UInt32.le_iff_toNat_le] using ok
  refine ⟨by omega,?_⟩
  simp only [Char.isUpper,decide_eq_false_iff_not,UInt32.le_iff_toNat_le,ge_iff_le]
  change ¬(65 ≤ d.toNat ∧ d.toNat ≤ 90)
  omega

theorem space_case (c : Char) (loose : (asciiVariants c).any space = true) : space c = true := by
  obtain ⟨d,member,blank⟩ := List.any_eq_true.mp loose
  have plain : ∀ e : Char, e.isAlpha = true → space e = false := by
    intro e letter
    have range : (65 ≤ e.toNat ∧ e.toNat ≤ 90) ∨ 97 ≤ e.toNat ∧ e.toNat ≤ 122 := by
      simpa [Char.isAlpha,Char.isUpper,Char.isLower,UInt32.le_iff_toNat_le] using letter
    rw [Bool.eq_false_iff]
    intro blank
    simp only [space,spaces,List.contains_eq_mem,decide_eq_true_eq,List.mem_cons,List.not_mem_nil,or_false] at blank
    omega
  have same := asciiVariants_toLower member
  have letterless : d.isAlpha = false := by
    by_contra letter
    rw [plain d (by simpa using letter)] at blank
    cases blank
  have letterless' : c.isAlpha = false := by
    rw [← Char.isAlpha_toLower_eq_isAlpha,← same,Char.isAlpha_toLower_eq_isAlpha,letterless]
  have fixed : ∀ e : Char, e.isAlpha = false → e.toLower = e := by
    intro e none
    refine Char.toLower_eq_of_not_isUpper fun capital => ?_
    rw [Char.isAlpha,capital] at none
    cases none
  rw [fixed d letterless,fixed c letterless'] at same
  rwa [← same]

theorem notSeparator_case (facts : CaseFacts tables) (c : Char) (loose : (asciiVariants c).any notSeparator = true) :
    ∀ d ∈ tables.lowerEach c, notSeparator d = true := by
  have cut : ∀ e : Char, notSeparator e = false → e = '|' ∨ e = ';' ∨ e = '&' := by
    intro e cut
    simpa [notSeparator,or_assoc,imp_iff_not_or] using cut
  intro d member
  by_contra bad
  have separator := cut d (by simpa using bad)
  have same : d = c := by
    refine (facts.letters c d member ?_).resolve_right ?_
    · rcases separator with rfl | rfl | rfl <;> decide
    · rcases separator with rfl | rfl | rfl <;> decide
  subst same
  revert loose
  rcases separator with rfl | rfl | rfl <;> decide

theorem lowerEach_blank (c : Char) (loose : (asciiVariants c).any space = true) :
    ∃ d, tables.lowerEach c = [d] ∧ space d = true :=
  ⟨c,lowerEach_space tables (space_case c loose),space_case c loose⟩

theorem lowerEach_blanks (c : Char) (loose : (asciiVariants c).any space = true) :
    ∀ d ∈ tables.lowerEach c, space d = true := by
  obtain ⟨d,image,blank⟩ := lowerEach_blank tables c loose
  simp [image,blank]

-- The characters of the literals, `HKLM` apart.
def plainText (text : Text) : Bool := text.all fun c => decide (c.toNat < 128) && !c.isUpper

theorem literal_low {c : Char} (plain : decide (c.toNat < 128) && !c.isUpper) :
    ∀ d, decide (d = c) = true → d.toNat < 128 ∧ d.isUpper = false := by
  intro d same
  cases of_decide_eq_true same
  simpa using plain

theorem lifted_literal (text : Text) (plain : plainText text = true)
    (lifted : Lifted asciiVariants tables.lowerEach tables.word items) :
    Lifted asciiVariants tables.lowerEach tables.word (literal text ++ items) := by
  induction text with
  | nil => exact lifted
  | cons c text ih =>
      rw [plainText,List.all_cons,Bool.and_eq_true] at plain
      exact .one (taken_class tables _ (literal_low plain.1)) (ih plain.2)

theorem lifted_gap (lifted : Lifted asciiVariants tables.lowerEach tables.word items) :
    Lifted asciiVariants tables.lowerEach tables.word (plus space ++ items) :=
  .one (lowerEach_blank tables) (.many (lowerEach_blanks tables) lifted)

-- An ASCII letter is a word character, in either case.
theorem word_letter (letter : c.isLower = true) :
    (∀ d, (asciiVariants d).any (fun e => decide (e = c)) = true → tables.word d = true) ∧
      ∀ d, decide (d = c) = true → tables.word d = true := by
  have word : ∀ d : Char, d.toLower = c → tables.word d = true := by
    intro d same
    have alpha : d.isAlpha = true := by rw [← Char.isLower_toLower_eq_isAlpha,same,letter]
    have small : d.toNat < 128 := by
      have range : (65 ≤ d.toNat ∧ d.toNat ≤ 90) ∨ 97 ≤ d.toNat ∧ d.toNat ≤ 122 := by
        simpa [Char.isAlpha,Char.isUpper,Char.isLower,UInt32.le_iff_toNat_le] using alpha
      omega
    simp [Tables.word,tables.alnum_ascii d small,Char.isAlphanum,alpha]
  have fixed : c.toLower = c := by
    refine Char.toLower_eq_of_not_isUpper fun capital => ?_
    have low : 97 ≤ c.toNat := by
      have range : 97 ≤ c.toNat ∧ c.toNat ≤ 122 := by simpa [Char.isLower,UInt32.le_iff_toNat_le] using letter
      exact range.1
    have high : c.toNat ≤ 90 := by
      have range : 65 ≤ c.toNat ∧ c.toNat ≤ 90 := by simpa [Char.isUpper,UInt32.le_iff_toNat_le] using capital
      exact range.2
    omega
  refine ⟨?_,?_⟩
  · intro d loose
    obtain ⟨e,member,same⟩ := List.any_eq_true.mp loose
    cases of_decide_eq_true same
    exact word d (by rw [← asciiVariants_toLower member,fixed])
  · intro d same
    cases of_decide_eq_true same
    exact word c fixed

theorem lifted_edge (c : Char) (text : Text) (letter : c.isLower = true)
    (lifted : Lifted asciiVariants tables.lowerEach tables.word (literal (c :: text) ++ items)) :
    Lifted asciiVariants tables.lowerEach tables.word (.edge tables.word :: (literal (c :: text) ++ items)) :=
  .edgeWord (word_letter tables letter).1 (word_letter tables letter).2 lifted

theorem lifted_end (text : Text) (c : Char) (plain : plainText (text ++ [c]) = true) (letter : c.isLower = true) :
    Lifted asciiVariants tables.lowerEach tables.word (literal (text ++ [c]) ++ [.edge tables.word]) := by
  have parts := plain
  rw [plainText,List.all_append,Bool.and_eq_true,List.all_cons,Bool.and_eq_true] at parts
  have last : Lifted asciiVariants tables.lowerEach tables.word (literal [c] ++ [.edge tables.word]) :=
    .edgeEnd (taken_class tables _ (literal_low parts.2.1)) (word_letter tables letter).1 (word_letter tables letter).2
  have whole := lifted_literal tables text parts.1 last
  rwa [literal,List.map_append,List.append_assoc]

-- The registry pattern, the last of the blocklist.
def hive : List (Pattern Char) :=
  [[.edge tables.word],literal "reg".toList,plus space,literal "delete".toList,plus space,literal "HKLM".toList].flatten

theorem blockedPatterns_hive : blockedPatterns tables = (blockedPatterns tables).dropLast ++ [hive tables] := rfl

-- Lower-casing the text follows the case of every other pattern's letters.
theorem blocked_lifted (facts : CaseFacts tables) (items : List (Pattern Char))
    (member : items ∈ (blockedPatterns tables).dropLast) : Lifted asciiVariants tables.lowerEach tables.word items := by
  have gap : ∀ {items}, Lifted asciiVariants tables.lowerEach tables.word items →
      Lifted asciiVariants tables.lowerEach tables.word (plus space ++ items) := lifted_gap tables
  have blanks := lowerEach_blanks tables
  have any := notSeparator_case tables facts
  have letters := taken_each tables smallLetter smallLetter_low
  have text : ∀ (text : Text), plainText text = true → ∀ {items}, Lifted asciiVariants tables.lowerEach tables.word items →
      Lifted asciiVariants tables.lowerEach tables.word (literal text ++ items) :=
    fun _ plain {_} => lifted_literal tables _ plain
  simp only [blockedPatterns,List.dropLast_cons_cons,List.dropLast_singleton,List.mem_cons,List.not_mem_nil,or_false] at member
  rcases member with rfl | rfl | rfl | rfl | rfl | rfl | rfl | rfl | rfl | rfl | rfl
  · exact text "rm".toList (by decide) (gap (.many any (text ['-'] (by decide) (.many letters (text ['r'] (by decide) .nil)))))
  · exact lifted_edge tables 'm' "kfs".toList (by decide) (lifted_end tables "mkf".toList 's' (by decide) (by decide))
  · exact lifted_edge tables 'd' ['d'] (by decide) (text "dd".toList (by decide) (gap (.many any
      (text "of=/dev/".toList (by decide) .nil))))
  · exact text ":()".toList (by decide) (.many blanks (text ['{'] (by decide) (.many blanks (text [':'] (by decide)
      (.many blanks (text ['|'] (by decide) (.many blanks (text [':'] (by decide) .nil))))))))
  · exact lifted_edge tables 's' "hutdown".toList (by decide) (lifted_end tables "shutdow".toList 'n' (by decide) (by decide))
  · exact lifted_edge tables 'r' "eboot".toList (by decide) (lifted_end tables "reboo".toList 't' (by decide) (by decide))
  · exact lifted_edge tables 'h' "alt".toList (by decide) (lifted_end tables "hal".toList 't' (by decide) (by decide))
  · exact lifted_edge tables 'p' "oweroff".toList (by decide) (lifted_end tables "powerof".toList 'f' (by decide) (by decide))
  · exact lifted_edge tables 'f' "ormat".toList (by decide) (text "format".toList (by decide) (gap
      (.one (taken_class tables smallLetter smallLetter_low) (text [':'] (by decide) .nil))))
  · exact text "del".toList (by decide) (gap (text "/s".toList (by decide) (.many any
      (text "\\\\windows".toList (by decide) .nil))))
  · exact text "rd".toList (by decide) (gap (text "/s".toList (by decide) (.many any
      (text "\\\\windows".toList (by decide) .nil))))

def matchesCaseless (variants : Char → Text) (items : List (Pattern Char)) (command : Text) : Bool :=
  search (loosen variants (seqs items)) command

theorem caseless_blocked (facts : CaseFacts tables) (command : Text) (items : List (Pattern Char))
    (member : items ∈ (blockedPatterns tables).dropLast) (found : matchesCaseless asciiVariants items command = true) :
    search (seqs items) (tables.lower (strip command)) = true := by
  have whole : items ∈ blockedPatterns tables := List.mem_of_mem_dropLast member
  rw [blocked_search tables items whole (fields_stripped tables command),search_lower tables _ (blocked_sigma tables items whole)]
  exact (blocked_lifted tables facts items member).search facts.mapped facts.outside found

-- No lower case has a capital letter, so the registry pattern protects nothing.
theorem hive_never (facts : CaseFacts tables) (text : Text) : search (seqs (hive tables)) (tables.lower text) = false := by
  have member : hive tables ∈ blockedPatterns tables := by rw [blockedPatterns_hive]; simp
  rw [search_lower tables _ (blocked_sigma tables _ member),Bool.eq_false_iff]
  intro found
  obtain ⟨before,matched,rest,whole,path⟩ := (search_exact _ _).mp found
  have read : 'H' ∈ matched := matches_mem path (by simp [hive,literal])
  obtain ⟨c,_,image⟩ := List.mem_flatMap.mp (show 'H' ∈ text.flatMap tables.lowerEach by rw [whole]; simp [read])
  rcases facts.letters c 'H' image (by decide) with rfl | small
  · rw [lowerEach_ascii tables (by decide)] at image
    revert image
    decide
  · revert small
    decide

theorem lowerEach_toLower (c : Char) : tables.lowerEach c.toLower = tables.lowerEach c := by
  by_cases capital : c.isUpper = true
  · have range : 65 ≤ c.toNat ∧ c.toNat ≤ 90 := by simpa [Char.isUpper,UInt32.le_iff_toNat_le] using capital
    have image : c.toLower.toNat < 128 := by
      rw [Char.toLower_eq_of_isUpper capital,Char.toNat_ofNat,if_pos (Or.inl (by omega))]
      omega
    rw [lowerEach_ascii tables image,lowerEach_ascii tables (by omega),Char.toLower_toLower_eq_toLower]
  · rw [Char.toLower_eq_of_not_isUpper capital]

theorem metachar_toLower (c : Char) : metachar c.toLower = metachar c := by
  by_cases capital : c.isUpper = true
  · have none : ∀ d : Char, d.isAlpha = true → metachar d = false := by
      intro d letter
      rw [Bool.eq_false_iff]
      intro found
      revert letter
      rw [metachar,String.toList_ofList] at found
      simp only [List.contains_eq_mem,decide_eq_true_eq,List.mem_cons,List.not_mem_nil,or_false] at found
      rcases found with rfl | rfl | rfl | rfl | rfl | rfl | rfl | rfl | rfl | rfl | rfl <;> decide
    have letter : c.isAlpha = true := by simp [Char.isAlpha,capital]
    rw [none c letter,none c.toLower (by rw [Char.isAlpha_toLower_eq_isAlpha,letter])]
  · rw [Char.toLower_eq_of_not_isUpper capital]

theorem lowered_same (same : SameLetters one two) : one.flatMap tables.lowerEach = two.flatMap tables.lowerEach := by
  have folded : ∀ text : Text, (text.map Char.toLower).flatMap tables.lowerEach = text.flatMap tables.lowerEach := by
    intro text
    rw [List.flatMap_map]
    exact List.flatMap_congr fun c _ => lowerEach_toLower tables c
  rw [← folded one,← folded two,same]

theorem metachars_same (same : SameLetters one two) : one.any metachar = two.any metachar := by
  have folded : ∀ text : Text, (text.map Char.toLower).any metachar = text.any metachar := by
    intro text
    simp only [List.any_map,Function.comp_def,metachar_toLower]
  rw [← folded one,← folded two,same]

theorem verdict_same (same : SameLetters one two) : checkCommand tables one = checkCommand tables two := by
  have alike : blocked tables (tables.lower (strip one)) = blocked tables (tables.lower (strip two)) := by
    have fields : fields space ((strip one).flatMap tables.lowerEach) = fields space ((strip two).flatMap tables.lowerEach) := by
      rw [fields_stripped,fields_stripped,lowered_same tables same]
    rw [blocked,blocked,Bool.eq_iff_iff,List.any_eq_true,List.any_eq_true]
    refine exists_congr fun items => and_congr_right fun member => ?_
    rw [blocked_search tables items member fields]
  rw [checkCommand,checkCommand,alike,metachars_same same]

def Forbidden (command : Text) : Prop := ∃ message, checkCommand tables command = .error (ForbiddenError message)

theorem forbidden_iff (command : Text) : Forbidden tables command ↔
    blocked tables (tables.lower (strip command)) = true ∨ command.any metachar = true := by
  unfold Forbidden checkCommand
  cases blocked tables (tables.lower (strip command)) <;> cases command.any metachar <;> simp

theorem caseless_exact (facts : CaseFacts tables) (command : Text) :
    ((∀ items ∈ blockedPatterns tables, matchesCaseless caseVariants items command = true → Forbidden tables command) ∧
      ∀ other, SameLetters command other → checkCommand tables other = checkCommand tables command) ↔
    (blocked tables (tables.lower (strip command)) = true ∨ command.any metachar = true) ∨
      matchesCaseless caseVariants (hive tables) command = false ∧
        ∀ items ∈ (blockedPatterns tables).dropLast, matchesCaseless caseVariants items command = true →
          matchesCaseless asciiVariants items command = true := by
  rw [← forbidden_iff]
  constructor
  · rintro ⟨caseless,_⟩
    by_cases refused : Forbidden tables command
    · exact .inl refused
    · refine .inr ⟨?_,fun items member found => ?_⟩
      · have last : hive tables ∈ blockedPatterns tables := by rw [blockedPatterns_hive]; simp
        rw [Bool.eq_false_iff]
        exact fun found => refused (caseless _ last found)
      · exact absurd (caseless items (List.mem_of_mem_dropLast member) found) refused
  · intro condition
    refine ⟨fun items member found => ?_,fun other same => (verdict_same tables same).symm⟩
    rcases condition with refused | ⟨unhived,ascii⟩
    · exact refused
    · rw [blockedPatterns_hive,List.mem_append,List.mem_singleton] at member
      rcases member with member | rfl
      · have hit := caseless_blocked tables facts command items member (ascii items member found)
        exact (forbidden_iff tables command).mpr
          (.inl (List.any_eq_true.mpr ⟨items,List.mem_of_mem_dropLast member,hit⟩))
      · rw [unhived] at found
        cases found

theorem ascii_lowerEach (member : d ∈ ascii.lowerEach c) : d = sigma ∧ c = capitalSigma ∨ d = c.toLower := by
  rw [Tables.lowerEach] at member
  split at member
  · rename_i capital
    exact .inl ⟨List.mem_singleton.mp member,capital⟩
  · exact .inr (List.mem_singleton.mp member)

theorem ascii_facts : CaseFacts ascii where
  mapped c := by
    rw [Tables.lowerEach]
    split <;> simp [ascii]
  outside c quiet d member := by
    rcases ascii_lowerEach member with ⟨rfl,_⟩ | rfl
    · decide
    · rwa [Char.toLower_eq_of_not_isUpper]
      intro capital
      simp [Tables.word,ascii,Char.isAlphanum,Char.isAlpha,capital] at quiet
  letters c d member small := by
    rcases ascii_lowerEach member with ⟨rfl,_⟩ | rfl
    · exact absurd small (by decide)
    · by_cases capital : c.isUpper = true
      · exact .inr (by simp [Char.isAlpha,capital])
      · exact .inl (Char.toLower_eq_of_not_isUpper capital)

theorem shutdown_caseless : (∀ items ∈ blockedPatterns ascii,
      matchesCaseless caseVariants items "ShutDown -h".toList = true → Forbidden ascii "ShutDown -h".toList) ∧
    ∀ other, SameLetters "ShutDown -h".toList other → checkCommand ascii other = checkCommand ascii "ShutDown -h".toList :=
  (caseless_exact ascii ascii_facts "ShutDown -h".toList).mpr (.inl (.inl (by decide +kernel)))

theorem reg_delete_passes : hive ascii ∈ blockedPatterns ascii ∧
    matchesCaseless caseVariants (hive ascii) "reg delete HKLM\\Software".toList = true ∧
    checkCommand ascii "reg delete HKLM\\Software".toList = .ok () := by
  refine ⟨by rw [blockedPatterns_hive]; simp,?_,?_⟩
  · delta hive
    repeat rewrite [String.toList_ofList]
    decide +kernel
  · decide +kernel

end Kryvaracode.ShellPolicy
