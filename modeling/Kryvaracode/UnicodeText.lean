import Mathlib
import Kryvaracode.PatternSpacing

abbrev Text := List Char

namespace UnicodeText
open Patterns

-- The code points for which a one-character string is white space.
def spaces : List Nat :=
  [0x09,0x0A,0x0B,0x0C,0x0D,0x1C,0x1D,0x1E,0x1F,0x20,0x85,0xA0,0x1680,0x2000,0x2001,0x2002,0x2003,0x2004,0x2005,
    0x2006,0x2007,0x2008,0x2009,0x200A,0x2028,0x2029,0x202F,0x205F,0x3000]

def space (c : Char) : Bool := spaces.contains c.toNat

def sigma : Char := 'σ'
def lastSigma : Char := 'ς'
def capitalSigma : Char := 'Σ'

-- The character database is far larger than anything proved here needs, so it
-- is a parameter: any tables that agree with ASCII and with the facts named.
structure Tables where
  alnum : Char → Bool
  decimal : Char → Bool
  lowercase : Char → Text
  finalSigma : Text → Text → Bool
  alnum_ascii : ∀ c, c.toNat < 128 → alnum c = c.isAlphanum
  alnum_space : ∀ c, space c = true → alnum c = false
  alnum_sigma : alnum lastSigma = alnum sigma
  decimal_ascii : ∀ c, c.toNat < 128 → decimal c = c.isDigit
  lowercase_ascii : ∀ c, c.toNat < 128 → lowercase c = [c.toLower]
  lowercase_space : ∀ c, space c = true → lowercase c = [c]

variable (tables : Tables)

def Tables.word (c : Char) : Bool := tables.alnum c || c = '_'

-- Capital sigma is the one letter whose lower case depends on its neighbours.
def Tables.lowerFrom : Text → Text → Text
  | _,[] => []
  | before,c :: text =>
      (if c = capitalSigma then [if tables.finalSigma before text then lastSigma else sigma] else tables.lowercase c) ++
        lowerFrom (before ++ [c]) text

def Tables.lower (text : Text) : Text := tables.lowerFrom [] text

def Tables.lowerEach (c : Char) : Text := if c = capitalSigma then [sigma] else tables.lowercase c

def oneSigma (c : Char) : Char := if c = lastSigma then sigma else c

theorem lowerFrom_oneSigma (before text : Text) :
    (tables.lowerFrom before text).map oneSigma = (text.flatMap tables.lowerEach).map oneSigma := by
  induction text generalizing before with
  | nil => rfl
  | cons c text ih =>
      simp only [Tables.lowerFrom,List.flatMap_cons,List.map_append,ih,Tables.lowerEach]
      congr 1
      split
      · split <;> decide
      · rfl

theorem lowerEach_space (blank : space c = true) : tables.lowerEach c = [c] := by
  have apart : c ≠ capitalSigma := by rintro rfl; revert blank; decide
  simp [Tables.lowerEach,apart,tables.lowercase_space c blank]

theorem lower_oneSigma (text : Text) :
    (tables.lower text).map oneSigma = (text.flatMap tables.lowerEach).map oneSigma := lowerFrom_oneSigma tables [] text

-- A pattern that cannot tell the small sigmas apart sees the lower case of
-- each character alone.
theorem search_lower (pattern : Pattern Char) (blind : Agrees pattern lastSigma sigma) (text : Text) :
    search pattern (tables.lower text) = search pattern (text.flatMap tables.lowerEach) := by
  have stable : ∀ c, Agrees pattern c (oneSigma c) := by
    intro c
    unfold oneSigma
    split
    · rename_i last; subst last; exact blind
    · exact Agrees.refl pattern c
  rw [← search_map pattern stable (tables.lower text),lower_oneSigma,search_map pattern stable]

def strip (text : Text) : Text := ((text.dropWhile space).reverse.dropWhile space).reverse

theorem strip_parts (text : Text) : ∃ front back, text = front ++ strip text ++ back ∧
    (∀ c ∈ front, space c = true) ∧ ∀ c ∈ back, space c = true := by
  let inner := text.dropWhile space
  refine ⟨text.takeWhile space,(inner.reverse.takeWhile space).reverse,?_,?_,?_⟩
  · have tail : strip text ++ (inner.reverse.takeWhile space).reverse = inner := by
      rw [strip,← List.reverse_append,List.takeWhile_append_dropWhile,List.reverse_reverse]
    rw [List.append_assoc,tail,List.takeWhile_append_dropWhile]
  · intro c member; exact List.mem_takeWhile_imp member
  · intro c member; exact List.mem_takeWhile_imp (List.mem_reverse.mp member)

theorem digit_visible {c : Char} (digit : c.isDigit = true) : space c = false := by
  have bounds : 48 ≤ c.toNat ∧ c.toNat ≤ 57 := by
    simpa [Char.isDigit,UInt32.le_iff_toNat_le] using digit
  refine Bool.eq_false_iff.mpr fun shown => ?_
  simp only [space,spaces,List.contains_eq_mem,decide_eq_true_eq,List.mem_cons,List.not_mem_nil,or_false] at shown
  omega

theorem strip_visible {text : Text} (visible : ∀ c ∈ text, space c = false) : strip text = text := by
  have stays : ∀ text : Text, (∀ c ∈ text, space c = false) → text.dropWhile space = text := by
    intro text all
    cases text with
    | nil => rfl
    | cons c rest => exact List.dropWhile_cons_of_neg (by rw [all c List.mem_cons_self]; exact Bool.false_ne_true)
  rw [strip,stays text visible,stays text.reverse fun c inside => visible c (List.mem_reverse.mp inside),List.reverse_reverse]

theorem fields_spaces (separator : Char → Bool) (blanks text : Text) (all : ∀ c ∈ blanks, separator c = true) :
    fields separator (blanks ++ text) = fields separator text := by
  induction blanks with
  | nil => rfl
  | cons c blanks ih =>
      have cut := fields_append separator [] c (blanks ++ text) (all c (by simp))
      simpa [fields,fieldsFrom] using cut.trans (by simpa [fields,fieldsFrom] using ih fun d member => all d (by simp [member]))

theorem fields_strip (front text back : Text) (left : ∀ c ∈ front, space c = true) (right : ∀ c ∈ back, space c = true) :
    fields space (front ++ text ++ back) = fields space text := by
  rw [List.append_assoc,fields_spaces space front _ left]
  cases back with
  | nil => rw [List.append_nil]
  | cons c back =>
      rw [fields_append space text c back (right c (by simp))]
      have nothing := fields_spaces space back [] fun d member => right d (by simp [member])
      rw [List.append_nil] at nothing
      simp [nothing,show fields space [] = [] from rfl]

-- ASCII text alone: the tables the examples are evaluated with.
def ascii : Tables where
  alnum := Char.isAlphanum
  decimal := Char.isDigit
  lowercase c := [c.toLower]
  finalSigma _ _ := false
  alnum_ascii _ _ := rfl
  alnum_space c blank := by
    by_contra letter
    have shown : c.isAlphanum = true := by simpa using letter
    simp only [Char.isAlphanum,Char.isAlpha,Char.isUpper,Char.isLower,Char.isDigit,Bool.or_eq_true,Bool.and_eq_true,
      decide_eq_true_eq,ge_iff_le,UInt32.le_iff_toNat_le] at shown
    change ((65 ≤ c.toNat ∧ c.toNat ≤ 90) ∨ (97 ≤ c.toNat ∧ c.toNat ≤ 122)) ∨ (48 ≤ c.toNat ∧ c.toNat ≤ 57) at shown
    simp only [space,spaces,List.contains_eq_mem,decide_eq_true_eq,List.mem_cons,List.not_mem_nil,or_false] at blank
    omega
  alnum_sigma := by decide
  decimal_ascii _ _ := rfl
  lowercase_ascii _ _ := rfl
  lowercase_space c blank := by
    simp only [space,spaces,List.contains_eq_mem,decide_eq_true_eq,List.mem_cons,List.not_mem_nil,or_false] at blank
    have out : ¬ (c.val ≥ 'A'.val ∧ c.val ≤ 'Z'.val) := by
      simp only [ge_iff_le,UInt32.le_iff_toNat_le]
      change ¬ (65 ≤ c.toNat ∧ c.toNat ≤ 90)
      omega
    rw [Char.toLower,dif_neg out]

end UnicodeText
