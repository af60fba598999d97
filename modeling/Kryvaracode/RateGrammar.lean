import Kryvaracode.RateLimiter
import Kryvaracode.Scheduler
import Kryvaracode.Separated

namespace Kryvaracode.RateLimits
open InsertionDict UnicodeText Separated Scheduling

-- What int() makes of the decimal digits, of which only ASCII's are named here,
-- with the texts of its own errors and of repr().
structure Numerals where
  digit : Char → Option Nat
  refusal : Text → Text
  repr : Text → Text
  plain : ∀ c, c.isDigit = true → digit c = some (c.toNat - '0'.toNat)

def asciiNumerals : Numerals where
  digit := asciiDigit
  refusal _ := []
  repr text := text
  plain _ digit := if_pos digit

def unitNames : List (Text × Nat) :=
  [("second".toList,1),("minute".toList,60),("hour".toList,3600),("day".toList,86400)]

theorem unitNames_distinct : (unitNames.map Prod.fst).Nodup := by decide

def unitSeconds : Dict Text Nat := ⟨unitNames,unitNames_distinct⟩

-- `unit[:-1]` takes away the last character, whatever it is.
def windowOf (unit : Text) : Option Nat := unitSeconds.get unit <|> unitSeconds.get unit.dropLast

variable (tables : Tables) (numerals : Numerals)

-- `partition("/")`: all before the first slash and all after it.
def countStr (value : Text) : Text := (tables.lower (strip value)).takeWhile (· ≠ '/')
def unitStr (value : Text) : Text := ((tables.lower (strip value)).dropWhile (· ≠ '/')).drop 1

def parseRateLimit (value : Text) : Result (Int × Nat) :=
  let countStr := countStr tables value
  let unit := unitStr tables value
  if countStr = [] ∨ unit = [] then
    .error (ValueError ("Invalid rate limit format: ".toList ++ numerals.repr value ++
      " (expected '<count>/<unit>')".toList))
  else match int numerals.digit countStr with
    | none => .error (ValueError (numerals.refusal countStr))
    | some count =>
        match windowOf unit with
        | none => .error (ValueError ("Unsupported rate limit unit: ".toList ++ numerals.repr unit))
        | some window =>
            if count ≤ 0 then .error (ValueError "Rate limit count must be positive".toList) else .ok (count,window)

def decimal (digits : Text) : Nat := digits.foldl (fun total c => 10 * total + (c.toNat - '0'.toNat)) 0

def Plain (digits : Text) : Prop := ∀ c ∈ digits, c.isDigit = true

-- A unit's name, or its plural.
def Named (unit : Text) (window : Nat) : Prop :=
  ∃ name, (name,window) ∈ unitNames ∧ (unit = name ∨ unit = name ++ ['s'])

-- The grammar: a positive number, a slash and a unit.
def Rate (value : Text) (count : Int) (window : Nat) : Prop := ∃ digits unit,
  tables.lower (strip value) = digits ++ '/' :: unit ∧ Plain digits ∧ 0 < count ∧ count = decimal digits ∧
    Named unit window

structure ParsesExactly (value : Text) : Prop where
  accepted : ∀ count window, parseRateLimit tables numerals value = .ok (count,window) ↔ Rate tables value count window
  refused : (¬ ∃ count window, Rate tables value count window) →
    ∃ detail, parseRateLimit tables numerals value = .error (ValueError detail)

-- What int() takes for a positive count is plain where the unit is taken, the
-- letter that is dropped is an s, and int() does not find the count too long.
structure Regular (value : Text) : Prop where
  plain : ∀ count, int numerals.digit (countStr tables value) = some count → 0 < count →
    windowOf (unitStr tables value) ≠ none → Plain (countStr tables value) ∧
      (unitStr tables value ∈ unitSeconds.keys ∨ (unitStr tables value).getLast? = some 's')
  short : Plain (countStr tables value) → 0 < decimal (countStr tables value) →
    (∃ window, Named (unitStr tables value) window) → (countStr tables value).length ≤ longest

section Counts

theorem plain_apart {digits : Text} (plain : Plain digits) {c : Char} (other : c.isDigit = false) : c ∉ digits := by
  intro inside
  exact Bool.false_ne_true (other.symm.trans (plain c inside))

variable (numerals : Numerals)

theorem plain_read {digits : Text} (plain : Plain digits) :
    digitsFrom numerals.digit true digits = some (digits.map fun c => c.toNat - '0'.toNat) := by
  induction digits with
  | nil => rfl
  | cons c rest ih =>
      have first := plain c List.mem_cons_self
      have later := ih fun d inside => plain d (List.mem_cons_of_mem c inside)
      rw [digitsFrom,numerals.plain c first,Option.bind_some,later]
      · rfl
      · rintro rfl
        cases first

theorem plain_int {digits : Text} (plain : Plain digits) (given : digits ≠ []) :
    int numerals.digit digits = if longest < digits.length then none else some (decimal digits : Int) := by
  have read : digitsFrom numerals.digit false digits = some (digits.map fun c => c.toNat - '0'.toNat) := by
    rw [← plain_read numerals plain]
    cases digits with
    | nil => exact absurd rfl given
    | cons c rest =>
        have apart : c ≠ '_' := by
          rintro rfl
          cases plain '_' List.mem_cons_self
        rw [digitsFrom,digitsFrom] <;> exact apart
  have number : numeral numerals.digit digits = if longest < digits.length then none else some (decimal digits) := by
    rw [numeral,read,Option.bind_some,List.length_map,List.foldl_map]
    rfl
  have signless : int numerals.digit digits = (numeral numerals.digit digits).map Int.ofNat := by
    rw [int,strip_visible fun c inside => digit_visible (plain c inside)]
    split
    next rest => cases plain '-' List.mem_cons_self
    next rest => cases plain '+' List.mem_cons_self
    next => rfl
  rw [signless,number]
  split <;> rfl

-- A positive count in digits is read unless it is too long.
theorem plain_number {digits : Text} (plain : Plain digits) {count : Int} (positive : 0 < count) :
    int numerals.digit digits = some count ↔ count = decimal digits ∧ digits.length ≤ longest := by
  by_cases none : digits = []
  · rw [none]
    refine iff_of_false (by intro same; cases same) ?_
    rintro ⟨zero,_⟩
    rw [zero] at positive
    exact lt_irrefl 0 positive
  · rw [plain_int numerals plain none]
    split
    next long => exact iff_of_false (by intro same; cases same) fun both => absurd both.2 (not_le.mpr long)
    next short =>
      rw [Option.some.injEq,eq_comm]
      exact (and_iff_left (not_lt.mp short)).symm

end Counts

section Units
variable {unit : Text} {window : Nat}

theorem unitSeconds_get (unit : Text) (window : Nat) : unitSeconds.get unit = some window ↔ (unit,window) ∈ unitNames :=
  (mem_entries unitSeconds unit window).symm

-- A plural is no unit's name.
theorem plural_unknown : ∀ entry ∈ unitNames, unitSeconds.get (entry.1 ++ ['s']) = none := by decide

theorem window_blank : windowOf [] = none := by decide

theorem named_window (named : Named unit window) : windowOf unit = some window := by
  obtain ⟨name,listed,rfl | rfl⟩ := named
  · rw [windowOf,(unitSeconds_get unit window).mpr listed]
    rfl
  · rw [windowOf,plural_unknown (name,window) listed,List.dropLast_concat,(unitSeconds_get name window).mpr listed]
    rfl

theorem named_ending (named : Named unit window) : unit ∈ unitSeconds.keys ∨ unit.getLast? = some 's' := by
  obtain ⟨name,listed,rfl | rfl⟩ := named
  · exact .inl (List.mem_map.mpr ⟨_,listed,rfl⟩)
  · exact .inr List.getLast?_concat

theorem window_named (found : windowOf unit = some window)
    (ending : unit ∈ unitSeconds.keys ∨ unit.getLast? = some 's') : Named unit window := by
  rw [windowOf] at found
  cases whole : unitSeconds.get unit with
  | some seconds =>
      rw [whole] at found
      cases found
      exact ⟨unit,(unitSeconds_get unit window).mp whole,.inl rfl⟩
  | none =>
      rw [whole] at found
      refine ⟨unit.dropLast,(unitSeconds_get _ window).mp found,.inr ?_⟩
      have last := ending.resolve_left ((not_mem_keys unitSeconds unit).mpr whole)
      exact (List.dropLast_append_getLast? 's' last).symm

end Units

variable {tables numerals} {value : Text}

theorem parse_ok (count : Int) (window : Nat) : parseRateLimit tables numerals value = .ok (count,window) ↔
    int numerals.digit (countStr tables value) = some count ∧ 0 < count ∧
      windowOf (unitStr tables value) = some window := by
  rw [parseRateLimit]
  split
  next missing =>
    refine iff_of_false (by intro same; cases same) ?_
    rintro ⟨number,_,found⟩
    rcases missing with none | none
    · rw [none] at number
      cases number
    · rw [none,window_blank] at found
      cases found
  next =>
    cases number : int numerals.digit (countStr tables value) with
    | none => exact iff_of_false (by intro same; cases same) (by rintro ⟨same,_⟩; cases same)
    | some read =>
        cases found : windowOf (unitStr tables value) with
        | none => exact iff_of_false (by intro same; cases same) (by rintro ⟨_,_,same⟩; cases same)
        | some seconds =>
            dsimp only
            split
            next low =>
              refine iff_of_false (by intro same; cases same) ?_
              rintro ⟨same,positive,_⟩
              cases same
              exact absurd positive (not_lt.mpr low)
            next high =>
              constructor
              · intro same
                cases same
                exact ⟨rfl,not_le.mp high,rfl⟩
              · rintro ⟨one,_,other⟩
                cases one
                cases other
                rfl

theorem parse_refused {exc : Failure} (refused : parseRateLimit tables numerals value = .error exc) :
    ∃ detail, exc = ValueError detail := by
  rw [parseRateLimit] at refused
  split at refused
  next => exact ⟨_,(Except.error.inj refused).symm⟩
  next =>
    split at refused
    next => exact ⟨_,(Except.error.inj refused).symm⟩
    next =>
      split at refused
      next => exact ⟨_,(Except.error.inj refused).symm⟩
      next =>
        split at refused
        next => exact ⟨_,(Except.error.inj refused).symm⟩
        next => cases refused

theorem rate_parts (count : Int) (window : Nat) : Rate tables value count window ↔
    Plain (countStr tables value) ∧ 0 < count ∧ count = decimal (countStr tables value) ∧
      Named (unitStr tables value) window := by
  constructor
  · rintro ⟨digits,unit,whole,plain,facts⟩
    have cut := cut_first (plain_apart plain (c := '/') rfl) unit
    rw [countStr,unitStr,whole,cut.1,cut.2]
    exact ⟨plain,facts⟩
  · rintro ⟨plain,facts⟩
    refine ⟨countStr tables value,unitStr tables value,?_,plain,facts⟩
    have slash : '/' ∈ tables.lower (strip value) := by
      by_contra none
      have nothing : unitStr tables value = [] := by
        rw [unitStr,List.dropWhile_eq_nil_iff.mpr,List.drop_nil]
        intro c inside
        apply decide_eq_true
        rintro rfl
        exact none inside
      have found := named_window facts.2.2
      rw [nothing,window_blank] at found
      cases found
    exact (first_cut slash).symm

theorem regular_accepted (regular : Regular tables numerals value) (count : Int) (window : Nat) :
    parseRateLimit tables numerals value = .ok (count,window) ↔ Rate tables value count window := by
  rw [parse_ok,rate_parts]
  constructor
  · rintro ⟨number,positive,found⟩
    obtain ⟨plain,ending⟩ := regular.plain count number positive (by rw [found]; exact Option.some_ne_none window)
    have same := ((plain_number numerals plain positive).mp number).1
    exact ⟨plain,positive,same,window_named found ending⟩
  · rintro ⟨plain,positive,same,named⟩
    have short := regular.short plain (by rw [same] at positive; exact_mod_cast positive) ⟨window,named⟩
    exact ⟨(plain_number numerals plain positive).mpr ⟨same,short⟩,positive,named_window named⟩

theorem regular_parses (regular : Regular tables numerals value) : ParsesExactly tables numerals value := by
  refine ⟨regular_accepted regular,?_⟩
  intro none
  cases parsed : parseRateLimit tables numerals value with
  | ok pair => exact absurd ⟨pair.1,pair.2,(regular_accepted regular pair.1 pair.2).mp parsed⟩ none
  | error exc =>
      obtain ⟨detail,rfl⟩ := parse_refused parsed
      exact ⟨detail,rfl⟩

theorem parses_regular (parses : ParsesExactly tables numerals value) : Regular tables numerals value := by
  refine ⟨?_,?_⟩
  · intro count number positive known
    obtain ⟨window,found⟩ := Option.ne_none_iff_exists'.mp known
    have rate := (parses.accepted count window).mp ((parse_ok count window).mpr ⟨number,positive,found⟩)
    obtain ⟨plain,_,_,named⟩ := (rate_parts count window).mp rate
    exact ⟨plain,named_ending named⟩
  · rintro plain positive ⟨window,named⟩
    have counts : (0 : Int) < decimal (countStr tables value) := by exact_mod_cast positive
    have rate : Rate tables value (decimal (countStr tables value)) window :=
      (rate_parts _ window).mpr ⟨plain,counts,rfl,named⟩
    have number := ((parse_ok _ window).mp ((parses.accepted _ window).mpr rate)).1
    exact ((plain_number numerals plain counts).mp number).2

section Built
variable {α : Type} [Ring α] [LinearOrder α]

def buildRateLimiter (tables : Tables) (numerals : Numerals) (enabled : Bool) (rateLimitDefault : Text) :
    Result (Option (RateLimiter α)) :=
  if enabled then do
    let rate ← parseRateLimit tables numerals rateLimitDefault
    .ok (some (.init rate.1.toNat rate.2))
  else .ok none

-- No limiter is built that would let nobody in.
theorem built_admits {enabled : Bool} {rateLimitDefault : Text} {limiter : RateLimiter α}
    (built : buildRateLimiter tables numerals enabled rateLimitDefault = .ok (some limiter)) (key : Text) (now : α) :
    (limiter.allow key now).2 = true := by
  unfold buildRateLimiter at built
  cases enabled with
  | false => cases built
  | true =>
      obtain ⟨rate,parsed,same⟩ := bind_ok.mp built
      cases same
      have positive := ((parse_ok rate.1 rate.2).mp parsed).2.1
      have room : ¬ rate.1.toNat ≤ 0 := by omega
      rw [RateLimiter.allow]
      exact congrArg Prod.snd (if_neg room)

end Built

end Kryvaracode.RateLimits
