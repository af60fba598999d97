import Kryvaracode.FileTree

-- Paths as `pathlib` spells them, and `os.path.realpath` over a file tree.
namespace RealPaths
open FileTree

-- `root` is empty, one slash or two; a name is neither empty nor a single dot.
structure PurePath where
  root : Text
  parts : List Text
  deriving DecidableEq, Repr

def splitRoot (text : Text) : Text :=
  match (text.takeWhile (· == '/')).length with
  | 0 => []
  | 2 => "//".toList
  | _ => "/".toList

def PurePath.parse (text : Text) : PurePath := ⟨splitRoot text,(names text).filter fun name => !here name⟩

def joinNames (parts : List Text) : Text := "/".toList.intercalate parts

def PurePath.text (path : PurePath) : Text :=
  if path.root = [] ∧ path.parts = [] then ".".toList else path.root ++ joinNames path.parts

def PurePath.isAbsolute (path : PurePath) : Bool := !path.root.isEmpty

def PurePath.join (path other : PurePath) : PurePath :=
  if other.isAbsolute then other else ⟨path.root,path.parts ++ other.parts⟩

-- The names of a path below another, or None for the ValueError of `relative_to`.
def PurePath.relativeTo (path other : PurePath) : Option (List Text) :=
  if path.root = other.root ∧ other.parts.isPrefixOf path.parts then some (path.parts.drop other.parts.length) else none

theorem relativeTo_parts {path other : PurePath} (found : path.relativeTo other = some rest) :
    path.parts = other.parts ++ rest := by
  unfold PurePath.relativeTo at found
  split at found
  · rename_i same
    cases found
    obtain ⟨tail,equal⟩ := List.isPrefixOf_iff_prefix.mp same.2
    rw [← equal,List.drop_left]
  · cases found

def placeText (place : Place) : Text := "/".toList ++ joinNames place

def joinText (one two : Text) : Text :=
  if "/".toList.isPrefixOf two then two
  else if one.isEmpty || "/".toList.isSuffixOf one then one ++ two
  else one ++ "/".toList ++ two

-- Links already met, the newest first: None while one is being resolved.
abbrev Seen := List (Place × Option Place)

inductive Real where
  | resolved (place : Place) (seen : Seen)
  | unresolved (text : Text)

-- The loop of `_joinrealpath`, with its recursive call for a link's target.
def joinRealWith (tree : Node) (nested : Place → List Text → Seen → Real) : Place → List Text → Seen → Real
  | place,[],seen => .resolved place seen
  | place,name :: rest,seen =>
      if here name then joinRealWith tree nested place rest seen
      else if up name then joinRealWith tree nested place.dropLast rest seen
      else match find tree (place ++ [name]) with
        | some (.link target) =>
            match seen.lookup (place ++ [name]) with
            | some (some known) => joinRealWith tree nested known rest seen
            | some none => .unresolved (joinText (placeText (place ++ [name])) (joinNames rest))
            | none =>
                match nested (base place target) (names target) ((place ++ [name],none) :: seen) with
                | .resolved inner later => joinRealWith tree nested inner rest ((place ++ [name],some inner) :: later)
                | .unresolved text => .unresolved (joinText text (joinNames rest))
        | _ => joinRealWith tree nested (place ++ [name]) rest seen

-- A call for a link's target is made once a link, so the links bound the nesting.
def joinReal (tree : Node) : Nat → Place → List Text → Seen → Real
  | 0 => joinRealWith tree fun place _ _ => .unresolved (placeText place)
  | depth + 1 => joinRealWith tree (joinReal tree depth)

mutual
def linkCount : Node → Nat
  | .file => 0
  | .link _ => 1
  | .dir entries => entryCount entries
def entryCount : List (Text × Node) → Nat
  | [] => 0
  | (_,node) :: entries => linkCount node + entryCount entries
end

def normParts : List Text → List Text → List Text
  | done,[] => done
  | done,name :: rest =>
      if here name then normParts done rest
      else if up name then normParts done.dropLast rest
      else normParts (done ++ [name]) rest

def normpath (text : Text) : PurePath := ⟨splitRoot text,normParts [] (names text)⟩

def realpath (tree : Node) (parts : List Text) : PurePath :=
  match joinReal tree (linkCount tree) [] parts [] with
  | .resolved place _ => ⟨"/".toList,place⟩
  | .unresolved text => normpath text

-- A relative text is counted from the working directory.
structure System where
  tree : Node
  maxLinks : Nat
  workingDirectory : Text

inductive PathError where
  | embeddedNull
  | symlinkLoop (path : Text)
  deriving DecidableEq, Repr

def PathError.message : PathError → Text
  | .embeddedNull => "embedded null byte".toList
  | .symlinkLoop path => "Symlink loop from '".toList ++ path ++ "'".toList

def absoluteParts (system : System) (path : PurePath) : List Text :=
  if path.isAbsolute then path.parts else names system.workingDirectory ++ path.parts

-- `Path.resolve`: a link loop that the result still holds is an error.
def resolve (system : System) (path : PurePath) : Except PathError PurePath :=
  let parts := absoluteParts system path
  if parts.any (·.contains '\x00') then .error .embeddedNull else
  let real := realpath system.tree parts
  if (walk system.tree system.maxLinks [] real.parts).ending = .loop then .error (.symlinkLoop real.text) else .ok real

def SeenPlain (tree : Node) (seen : Seen) : Prop := ∀ entry ∈ seen, ∀ place, entry.2 = some place → Plain tree place

theorem lookup_mem {seen : Seen} (met : seen.lookup place = some value) : (place,value) ∈ seen := by
  obtain ⟨front,back,rfl,_⟩ := List.lookup_eq_some_iff.mp met
  simp

theorem base_plain (plain : Plain tree place) : Plain tree (base place target) := by
  unfold base
  split
  · exact .root
  · exact plain

-- Whatever the nested calls are, a resolved place has no link on the way.
theorem joinRealWith_plain (tree : Node) (nested : Place → List Text → Seen → Real)
    (inner : ∀ place rest seen, Plain tree place → SeenPlain tree seen → ∀ final later,
      nested place rest seen = .resolved final later → Plain tree final ∧ SeenPlain tree later)
    (place : Place) (rest : List Text) (seen : Seen) (plain : Plain tree place) (known : SeenPlain tree seen) (final : Place)
    (later : Seen) (resolved : joinRealWith tree nested place rest seen = .resolved final later) :
    Plain tree final ∧ SeenPlain tree later := by
  induction rest generalizing place seen with
  | nil => cases resolved; exact ⟨plain,known⟩
  | cons name rest ih =>
      rw [joinRealWith] at resolved
      cases visible : here name with
      | true => simp only [visible,if_true] at resolved; exact ih _ _ plain known resolved
      | false =>
        cases lower : up name with
        | true =>
            simp only [visible,lower,Bool.false_eq_true,if_false,if_true] at resolved
            exact ih _ _ plain.dropLast known resolved
        | false =>
          simp only [visible,lower,Bool.false_eq_true,if_false] at resolved
          split at resolved
          · rename_i target linked
            split at resolved
            · rename_i cached met
              exact ih _ _ (known _ (lookup_mem met) cached rfl) known resolved
            · cases resolved
            · split at resolved
              · rename_i final' later' returned
                obtain ⟨plain',known'⟩ := inner _ _ _ (base_plain plain) (List.forall_mem_cons.mpr ⟨by simp,known⟩) _ _ returned
                refine ih _ _ plain' (List.forall_mem_cons.mpr ⟨?_,known'⟩) resolved
                intro found same
                cases same
                exact plain'
              · cases resolved
          · rename_i solid
            exact ih _ _ (.name plain visible lower solid) known resolved

theorem joinReal_plain (tree : Node) (depth : Nat) (place : Place) (rest : List Text) (seen : Seen) (plain : Plain tree place)
    (known : SeenPlain tree seen) (final : Place) (later : Seen)
    (resolved : joinReal tree depth place rest seen = .resolved final later) : Plain tree final ∧ SeenPlain tree later := by
  induction depth generalizing place rest seen final later with
  | zero =>
      refine joinRealWith_plain tree _ ?_ place rest seen plain known final later resolved
      intro place rest seen _ _ final later stuck
      cases stuck
  | succ depth ih =>
      refine joinRealWith_plain tree _ ?_ place rest seen plain known final later resolved
      intro place rest seen plain known final later returned
      exact ih place rest seen plain known final later returned

-- Only a link loop leaves a link in a real path: any other is walked without one.
theorem realpath_walk (tree : Node) (parts : List Text) (budget : Nat) : (walk tree budget [] (realpath tree parts).parts).links = [] ∨
    ∃ text, joinReal tree (linkCount tree) [] parts [] = .unresolved text := by
  cases resolved : joinReal tree (linkCount tree) [] parts [] with
  | unresolved text => exact .inr ⟨text,rfl⟩
  | resolved place seen =>
      have plain := (joinReal_plain tree _ [] parts [] .root (by intro entry member; cases member) place seen resolved).1
      apply Or.inl
      simp only [realpath,resolved]
      rcases plain_walk plain budget with same | same <;> rw [same]

theorem resolve_real (returned : resolve system path = .ok real) : real = realpath system.tree (absoluteParts system path) := by
  unfold resolve at returned
  simp only at returned
  split at returned
  · cases returned
  · split at returned
    · cases returned
    · cases returned; rfl

end RealPaths
