import Kryvaracode.AppendedCode

-- Paths by their text alone: drives, separators and the names '.' and '..'.
namespace LexicalPaths
open Patterns

inductive Style where
  | posix
  | windows
  deriving DecidableEq, Repr

def Style.separator : Style → Char → Bool
  | .posix,c => c == '/'
  | .windows,c => c == '\\' || c == '/'

-- A way from a directory: so many levels up, then down through the names.
structure Way where
  ups : Nat
  names : List Text
  deriving DecidableEq, Repr

def Way.start : Way := ⟨0,[]⟩

def Way.step (way : Way) (name : Text) : Way :=
  if name = ['.'] then way
  else if name = ['.','.'] then
    if way.names = [] then ⟨way.ups + 1,[]⟩ else ⟨way.ups,way.names.dropLast⟩
  else ⟨way.ups,way.names ++ [name]⟩

def Way.follow (way : Way) (names : List Text) : Way := names.foldl Way.step way

@[simp] theorem follow_nil (way : Way) : way.follow [] = way := rfl

theorem follow_append (way : Way) (one two : List Text) : way.follow (one ++ two) = (way.follow one).follow two :=
  List.foldl_append

theorem follow_snoc (way : Way) (names : List Text) (name : Text) :
    way.follow (names ++ [name]) = (way.follow names).step name := follow_append way names [name]

-- Walked from elsewhere, the levels up take away names before they count.
def Way.behind (way ahead : Way) : Way :=
  ⟨way.ups + (ahead.ups - way.names.length),way.names.take (way.names.length - ahead.ups) ++ ahead.names⟩

theorem behind_step (way ahead : Way) (name : Text) : (way.behind ahead).step name = way.behind (ahead.step name) := by
  unfold Way.step
  split
  · rfl
  split
  · by_cases bare : ahead.names = []
    · simp only [Way.behind,bare,List.append_nil,if_true]
      by_cases high : way.names.length ≤ ahead.ups
      · have gone : way.names.length - ahead.ups = 0 := by omega
        have later : way.names.length - (ahead.ups + 1) = 0 := by omega
        simp only [gone,later,List.take_zero,if_true,Way.mk.injEq,and_true]
        omega
      · have left : way.names.take (way.names.length - ahead.ups) ≠ [] := by
          rw [ne_eq,← List.length_eq_zero_iff,List.length_take]
          omega
        have shorter : (way.names.take (way.names.length - ahead.ups)).dropLast =
            way.names.take (way.names.length - (ahead.ups + 1)) := by
          rw [List.dropLast_eq_take,List.take_take,List.length_take]
          congr 1
          omega
        simp only [left,if_false,shorter,Way.mk.injEq,and_true]
        omega
    · simp [Way.behind,bare,List.dropLast_append_of_ne_nil]
  · simp [Way.behind]

theorem follow_behind (way : Way) (names : List Text) : way.follow names = way.behind (Way.start.follow names) := by
  induction names using List.reverseRecOn with
  | nil => simp [Way.behind,Way.start]
  | append_singleton names name ih => rw [follow_snoc,follow_snoc,ih,behind_step]

structure LexicalPath where
  drive : Text
  absolute : Bool
  way : Way
  deriving DecidableEq, Repr

def splitDrive : Style → Text → Text × Text
  | .windows,letter :: ':' :: rest => ([letter,':'],rest)
  | _,path => ([],path)

-- No level is above the root of an absolute path.
def normalise (style : Style) (path : Text) : LexicalPath :=
  let apart := splitDrive style path
  let absolute := apart.2.head?.any style.separator
  let way := Way.start.follow (fields style.separator apart.2)
  ⟨apart.1,absolute,if absolute then ⟨0,way.names⟩ else way⟩

def StrictlyBelow (path directory : LexicalPath) : Prop :=
  path.drive = directory.drive ∧ path.absolute = directory.absolute ∧ path.way.ups = directory.way.ups ∧
    directory.way.names.IsPrefix path.way.names ∧ directory.way.names ≠ path.way.names

instance (path directory : LexicalPath) : Decidable (StrictlyBelow path directory) :=
  inferInstanceAs (Decidable (_ ∧ _ ∧ _ ∧ _ ∧ _))

-- An absolute directory that its own text ends with a separator.
structure Directory (style : Style) (text : Text) where
  drive : Text
  root : Char
  body : Text
  cut : Char
  names : List Text
  apart : ∀ rest, splitDrive style (text ++ rest) = (drive,root :: body ++ cut :: rest)
  rooted : style.separator root = true
  ends : style.separator cut = true
  plain : Way.start.follow (fields style.separator (root :: body)) = ⟨0,names⟩

theorem Directory.normalise_append (directory : Directory style text) (rest : Text) :
    normalise style (text ++ rest) =
      ⟨directory.drive,true,0,((⟨0,directory.names⟩ : Way).behind (Way.start.follow (fields style.separator rest))).names⟩ := by
  have rooted : (directory.root :: directory.body ++ directory.cut :: rest).head?.any style.separator = true := by
    simp [directory.rooted]
  have way : Way.start.follow (fields style.separator (directory.root :: directory.body ++ directory.cut :: rest)) =
      (⟨0,directory.names⟩ : Way).behind (Way.start.follow (fields style.separator rest)) := by
    rw [fields_append style.separator _ _ _ directory.ends,follow_append,directory.plain,follow_behind]
  simp only [normalise,directory.apart,rooted,way,if_true]

theorem Directory.normalise_self (directory : Directory style text) :
    normalise style text = ⟨directory.drive,true,0,directory.names⟩ := by
  have whole := directory.normalise_append []
  rw [List.append_nil] at whole
  simpa [fields,fieldsFrom,Way.behind,Way.start] using whole

-- The names behind the levels up lead back into the directory, and on.
def Returns (names : List Text) (ahead : Way) : Prop :=
  (names.drop (names.length - ahead.ups)).IsPrefix ahead.names ∧ names.drop (names.length - ahead.ups) ≠ ahead.names

theorem Directory.below_iff (directory : Directory style text) (rest : Text) :
    StrictlyBelow (normalise style (text ++ rest)) (normalise style text) ↔
      Returns directory.names (Way.start.follow (fields style.separator rest)) := by
  rw [directory.normalise_append,directory.normalise_self]
  generalize Way.start.follow (fields style.separator rest) = ahead
  have whole := List.take_append_drop (directory.names.length - ahead.ups) directory.names
  simp only [StrictlyBelow,Returns,Way.behind,true_and]
  refine and_congr ?_ (not_congr ?_)
  · nth_rewrite 1 [← whole]
    exact List.prefix_append_right_inj _
  · nth_rewrite 1 [← whole]
    exact List.append_right_inj _

end LexicalPaths

namespace Kryvaracode.Aegis
open Patterns UnicodeText LexicalPaths

variable (tables : Tables)

-- An allowed prefix is a path of Windows when it names a drive.
def styleOf : Text → Style
  | _ :: ':' :: _ => .windows
  | _ => .posix

def allowedBelow (path : Text) (invariant : SafetyInvariant) : Prop :=
  ∃ allowed ∈ invariant.allowedPrefixes.getD [],
    StrictlyBelow (normalise (styleOf allowed) path) (normalise (styleOf allowed) allowed)

def windowsTemp : Directory .windows "C:\\Users\\User\\KRYVARACODE\\temp\\".toList where
  drive := "C:".toList
  root := '\\'
  body := "Users\\User\\KRYVARACODE\\temp".toList
  cut := '\\'
  names := ["Users".toList,"User".toList,"KRYVARACODE".toList,"temp".toList]
  apart := fun _ => by
    repeat rewrite [String.toList_ofList]
    rfl
  rooted := rfl
  ends := rfl
  plain := by
    repeat rewrite [String.toList_ofList]
    rfl

def posixTemp : Directory .posix "/tmp/".toList where
  drive := []
  root := '/'
  body := "tmp".toList
  cut := '/'
  names := ["tmp".toList]
  apart := fun _ => by
    repeat rewrite [String.toList_ofList]
    rfl
  rooted := rfl
  ends := rfl
  plain := by
    repeat rewrite [String.toList_ofList]
    rfl

theorem styles : styleOf "C:\\Users\\User\\KRYVARACODE\\temp\\".toList = .windows ∧ styleOf "/tmp/".toList = .posix := by
  repeat rewrite [String.toList_ofList]
  exact ⟨rfl,rfl⟩

-- A drive keeps the two allowed prefixes apart.
theorem windows_not_posix (rest : Text) : ¬StrictlyBelow
    (normalise .posix ("C:\\Users\\User\\KRYVARACODE\\temp\\".toList ++ rest)) (normalise .posix "/tmp/".toList) := by
  rw [posixTemp.normalise_self]
  rintro ⟨_,absolute,_⟩
  rewrite [String.toList_ofList] at absolute
  cases absolute

theorem posix_not_windows (rest : Text) : ¬StrictlyBelow (normalise .windows ("/tmp/".toList ++ rest))
    (normalise .windows "C:\\Users\\User\\KRYVARACODE\\temp\\".toList) := by
  rw [windowsTemp.normalise_self]
  rintro ⟨drive,_⟩
  have driven : windowsTemp.drive = ['C',':'] := String.toList_ofList
  rewrite [String.toList_ofList,driven] at drive
  cases drive

theorem exempt_prefix {path : Text} (waived : exempt (some path) invariant = true) :
    ∃ allowed ∈ invariant.allowedPrefixes.getD [], ∃ rest, path = allowed ++ rest := by
  unfold exempt at waived
  split at waived
  · rename_i prefixes path' known same
    cases same
    rw [Bool.and_eq_true,List.any_eq_true] at waived
    obtain ⟨_,allowed,member,front⟩ := waived
    obtain ⟨rest,whole⟩ := List.isPrefixOf_iff_prefix.mp front
    exact ⟨allowed,by rw [known]; exact member,rest,whole.symm⟩
  · cases waived

theorem prefix_exempt {allowed : Text} (member : allowed ∈ invariant.allowedPrefixes.getD []) (named : allowed ≠ [])
    (rest : Text) : exempt (some (allowed ++ rest)) invariant = true := by
  cases known : invariant.allowedPrefixes with
  | none => rw [known] at member; cases member
  | some prefixes =>
      rw [known] at member
      have behind : (allowed ++ rest).isEmpty = false := by cases allowed <;> simp_all
      simp only [exempt,known,behind,Bool.not_false,Bool.true_and,List.any_eq_true]
      exact ⟨allowed,member,List.isPrefixOf_iff_prefix.mpr ⟨rest,rfl⟩⟩

theorem omitted_iff (code path : Text) (registered : invariant ∈ forbiddenPatterns tables)
    (found : search invariant.pattern code = true) :
    invariant ∉ checkViolation tables code (some path) ↔ exempt (some path) invariant = true := by
  simp [checkViolation,registered,found]

-- Only the first invariant of the registry has prefixes.
theorem waived_recursiveDelete {path : Text} (registered : invariant ∈ forbiddenPatterns tables)
    (waived : exempt (some path) invariant = true) : invariant = recursiveDelete := by
  simp only [forbiddenPatterns,List.mem_cons,List.not_mem_nil,or_false] at registered
  rcases registered with rfl | rfl | rfl | rfl | rfl | rfl
  · rfl
  all_goals cases waived

theorem recursiveDelete_allowed : recursiveDelete.allowedPrefixes.getD [] =
    ["C:\\Users\\User\\KRYVARACODE\\temp\\".toList,"/tmp/".toList] := rfl

-- What stands behind an allowed prefix leads back below its directory.
def waiverReturns (path : Text) : Prop :=
  (∀ rest, path = "C:\\Users\\User\\KRYVARACODE\\temp\\".toList ++ rest →
    Returns windowsTemp.names (Way.start.follow (fields Style.windows.separator rest))) ∧
  ∀ rest, path = "/tmp/".toList ++ rest → Returns posixTemp.names (Way.start.follow (fields Style.posix.separator rest))

theorem allowed_either (path : Text) : allowedBelow path recursiveDelete ↔
    StrictlyBelow (normalise .windows path) (normalise .windows "C:\\Users\\User\\KRYVARACODE\\temp\\".toList) ∨
      StrictlyBelow (normalise .posix path) (normalise .posix "/tmp/".toList) := by
  simp only [allowedBelow,recursiveDelete_allowed,List.mem_cons,List.not_mem_nil,or_false,exists_eq_or_imp,exists_eq_left,
    styles.1,styles.2]

theorem allowed_windows (rest : Text) : allowedBelow ("C:\\Users\\User\\KRYVARACODE\\temp\\".toList ++ rest) recursiveDelete ↔
    Returns windowsTemp.names (Way.start.follow (fields Style.windows.separator rest)) := by
  rw [allowed_either,or_iff_left (windows_not_posix rest)]
  exact windowsTemp.below_iff rest

theorem allowed_posix (rest : Text) : allowedBelow ("/tmp/".toList ++ rest) recursiveDelete ↔
    Returns posixTemp.names (Way.start.follow (fields Style.posix.separator rest)) := by
  rw [allowed_either,or_iff_right (posix_not_windows rest)]
  exact posixTemp.below_iff rest

theorem recursiveDelete_waived {allowed : Text} (member : allowed ∈ recursiveDelete.allowedPrefixes.getD []) (rest : Text) :
    exempt (some (allowed ++ rest)) recursiveDelete = true := by
  refine prefix_exempt member ?_ rest
  simp only [recursiveDelete_allowed,List.mem_cons,List.not_mem_nil,or_false] at member
  rcases member with rfl | rfl <;> rewrite [String.toList_ofList] <;> exact List.cons_ne_nil _ _

theorem waived_iff (path : Text) :
    (exempt (some path) recursiveDelete = true → allowedBelow path recursiveDelete) ↔ waiverReturns path := by
  constructor
  · intro below
    refine ⟨?_,?_⟩
    · rintro rest rfl
      exact (allowed_windows rest).mp (below (recursiveDelete_waived (by simp [recursiveDelete_allowed]) rest))
    · rintro rest rfl
      exact (allowed_posix rest).mp (below (recursiveDelete_waived (by simp [recursiveDelete_allowed]) rest))
  · intro returns waived
    obtain ⟨allowed,member,rest,rfl⟩ := exempt_prefix waived
    simp only [recursiveDelete_allowed,List.mem_cons,List.not_mem_nil,or_false] at member
    rcases member with rfl | rfl
    · exact (allowed_windows rest).mpr (returns.1 rest rfl)
    · exact (allowed_posix rest).mpr (returns.2 rest rfl)

theorem waiver_exact (code path : Text) :
    (∀ invariant ∈ forbiddenPatterns tables, search invariant.pattern code = true →
      invariant ∉ checkViolation tables code (some path) → allowedBelow path invariant) ↔
    search recursiveDelete.pattern code = false ∨ waiverReturns path := by
  have registered : recursiveDelete ∈ forbiddenPatterns tables := by simp [forbiddenPatterns]
  rw [← waived_iff]
  constructor
  · intro held
    cases found : search recursiveDelete.pattern code with
    | false => exact .inl rfl
    | true =>
        refine .inr fun waived => held _ registered found ?_
        exact (omitted_iff tables code path registered found).mpr waived
  · intro condition invariant member found omitted
    have waived := (omitted_iff tables code path member found).mp omitted
    cases waived_recursiveDelete tables member waived
    rcases condition with clean | below
    · rw [clean] at found
      cases found
    · exact below waived

theorem etc_waived : search recursiveDelete.pattern "shutil.rmtree(p)".toList = true ∧
    recursiveDelete ∉ checkViolation ascii "shutil.rmtree(p)".toList (some "/tmp/../etc/x".toList) ∧
    ¬allowedBelow "/tmp/../etc/x".toList recursiveDelete := by
  have found : search recursiveDelete.pattern "shutil.rmtree(p)".toList = true := by
    delta recursiveDelete
    repeat rewrite [String.toList_ofList]
    rfl
  refine ⟨found,?_,?_⟩
  · rw [omitted_iff ascii _ _ (by simp [forbiddenPatterns]) found]
    delta recursiveDelete
    repeat rewrite [String.toList_ofList]
    rfl
  · rintro ⟨allowed,member,inside⟩
    simp only [recursiveDelete_allowed,List.mem_cons,List.not_mem_nil,or_false] at member
    revert inside
    rcases member with rfl | rfl
    · rw [styles.1]
      repeat rewrite [String.toList_ofList]
      decide +kernel
    · rw [styles.2]
      repeat rewrite [String.toList_ofList]
      decide +kernel

end Kryvaracode.Aegis
