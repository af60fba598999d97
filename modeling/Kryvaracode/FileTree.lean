import Kryvaracode.UnicodeText

-- POSIX file trees with symbolic links: walking a path as the system does.
namespace FileTree

inductive Node where
  | file
  | dir (entries : List (Text × Node))
  | link (target : Text)

-- The names from the root down to a place that is reached without a link.
abbrev Place := List Text

def Node.child : Node → Text → Option Node
  | .dir entries,name => entries.lookup name
  | _,_ => none

def find : Node → Place → Option Node
  | node,[] => some node
  | node,name :: place =>
      match node.child name with
      | some inner => find inner place
      | none => none

def isDir (tree : Node) (place : Place) : Bool :=
  match find tree place with
  | some (.dir _) => true
  | _ => false

def names (text : Text) : List Text := text.splitOn '/'

def here (name : Text) : Bool := name = [] || name = ".".toList
def up (name : Text) : Bool := name = "..".toList

inductive Step where
  | reached (place : Place)
  | follow (target : Text)
  | missing

def step (tree : Node) (place : Place) (name : Text) : Step :=
  if here name then if isDir tree place then .reached place else .missing
  else if up name then if isDir tree place then .reached place.dropLast else .missing
  else match find tree (place ++ [name]) with
    | some (.link target) => .follow target
    | some _ => .reached (place ++ [name])
    | none => .missing

-- How a walk ends; `budget` is how many links it might still have followed.
inductive Ending where
  | arrived (budget : Nat) (place : Place)
  | missing
  | loop
  deriving DecidableEq, Repr

structure Walk where
  links : List Place
  ending : Ending
  deriving DecidableEq, Repr

def Walk.through (link : Place) (walked : Walk) : Walk := ⟨link :: walked.links,walked.ending⟩

def Walk.andThen (walked : Walk) (more : Nat → Place → Walk) : Walk :=
  match walked.ending with
  | .arrived budget place => ⟨walked.links ++ (more budget place).links,(more budget place).ending⟩
  | _ => walked

-- Where the names of a link's target are counted from.
def base (place : Place) (target : Text) : Place := if "/".toList.isPrefixOf target then [] else place

def walkWith (tree : Node) (budget : Nat) (follow : Place → Text → Text → List Text → Walk) : Place → List Text → Walk
  | place,[] => ⟨[],.arrived budget place⟩
  | place,name :: rest =>
      match step tree place name with
      | .reached next => walkWith tree budget follow next rest
      | .follow target => follow place name target rest
      | .missing => ⟨[],.missing⟩

-- Every link spends one unit of the budget; on the last one the system gives up.
def walk (tree : Node) : Nat → Place → List Text → Walk
  | 0 => walkWith tree 0 fun _ _ _ _ => ⟨[],.loop⟩
  | budget + 1 => walkWith tree (budget + 1) fun place name target rest =>
      (walk tree budget (base place target) (names target ++ rest)).through (place ++ [name])

theorem walk_nil (tree : Node) (budget : Nat) (place : Place) : walk tree budget place [] = ⟨[],.arrived budget place⟩ := by
  cases budget <;> rfl

theorem walk_reached (budget : Nat) (reached : step tree place name = .reached next) :
    walk tree budget place (name :: rest) = walk tree budget next rest := by
  cases budget <;> simp only [walk,walkWith,reached]

theorem walk_missing (budget : Nat) (missing : step tree place name = .missing) :
    walk tree budget place (name :: rest) = ⟨[],.missing⟩ := by
  cases budget <;> simp only [walk,walkWith,missing]

theorem walk_follow (budget : Nat) (follow : step tree place name = .follow target) :
    walk tree (budget + 1) place (name :: rest) =
      (walk tree budget (base place target) (names target ++ rest)).through (place ++ [name]) := by
  simp only [walk,walkWith,follow]

theorem walk_spent (follow : step tree place name = .follow target) : walk tree 0 place (name :: rest) = ⟨[],.loop⟩ := by
  simp only [walk,walkWith,follow]

theorem through_andThen (link : Place) (walked : Walk) (more : Nat → Place → Walk) :
    (walked.through link).andThen more = (walked.andThen more).through link := by
  obtain ⟨links,ending⟩ := walked
  cases ending <;> rfl

-- A path is walked in parts. The induction is on the budget, which a link spends,
-- and inside it on the names of the first part.
theorem walk_append (tree : Node) (budget : Nat) (place : Place) (one two : List Text) :
    walk tree budget place (one ++ two) = (walk tree budget place one).andThen fun budget place => walk tree budget place two := by
  induction budget generalizing place one with
  | zero =>
      induction one generalizing place with
      | nil => rw [List.nil_append,walk_nil]; rfl
      | cons name one ih =>
          rw [List.cons_append]
          cases stepped : step tree place name with
          | reached next => rw [walk_reached 0 stepped,walk_reached 0 stepped]; exact ih next
          | follow target => rw [walk_spent stepped,walk_spent stepped]; rfl
          | missing => rw [walk_missing 0 stepped,walk_missing 0 stepped]; rfl
  | succ budget inner =>
      induction one generalizing place with
      | nil => rw [List.nil_append,walk_nil]; rfl
      | cons name one ih =>
          rw [List.cons_append]
          cases stepped : step tree place name with
          | reached next => rw [walk_reached _ stepped,walk_reached _ stepped]; exact ih next
          | follow target =>
              rw [walk_follow budget stepped,walk_follow budget stepped,through_andThen,← inner,List.append_assoc]
          | missing => rw [walk_missing _ stepped,walk_missing _ stepped]; rfl

-- `lstat`: the last name is looked up and not followed.
def isSymlink (tree : Node) (budget : Nat) (front : List Text) (last : Text) : Bool :=
  match (walk tree budget [] front).ending with
  | .arrived _ place =>
      match step tree place last with
      | .follow _ => true
      | _ => false
  | _ => false

theorem unlinked_step (tree : Node) (budget : Nat) (front : List Text) (last : Text)
    (plain : isSymlink tree budget front last = false) :
    (walk tree budget [] (front ++ [last])).links = (walk tree budget [] front).links := by
  rw [walk_append]
  unfold isSymlink at plain
  unfold Walk.andThen
  cases ended : (walk tree budget [] front).ending with
  | arrived left place =>
      rw [ended] at plain
      cases stepped : step tree place last with
      | reached next => simp [walk_reached left stepped,walk_nil]
      | follow target => simp [stepped] at plain
      | missing => simp [walk_missing left stepped]
  | missing => rfl
  | loop => rfl

inductive Plain (tree : Node) : Place → Prop where
  | root : Plain tree []
  | name : Plain tree place → here last = false → up last = false →
      (∀ target, find tree (place ++ [last]) ≠ some (.link target)) → Plain tree (place ++ [last])

theorem Plain.dropLast (plain : Plain tree place) : Plain tree place.dropLast := by
  cases plain with
  | root => exact .root
  | name plain _ _ _ => rwa [List.dropLast_concat]

theorem solid_step (visible : here name = false) (lower : up name = false)
    (solid : ∀ target, find tree (place ++ [name]) ≠ some (.link target)) :
    step tree place name = .reached (place ++ [name]) ∨ step tree place name = .missing := by
  simp only [step,visible,lower,Bool.false_eq_true,if_false]
  split
  · rename_i target known
    exact absurd known (solid target)
  · exact .inl rfl
  · exact .inr rfl

theorem plain_walk (plain : Plain tree place) (budget : Nat) :
    walk tree budget [] place = ⟨[],.arrived budget place⟩ ∨ walk tree budget [] place = ⟨[],.missing⟩ := by
  induction plain with
  | root => exact .inl (walk_nil tree budget [])
  | name _ visible lower solid ih =>
      rw [walk_append]
      rcases ih with arrived | missing
      · rw [arrived]
        simp only [Walk.andThen,List.nil_append]
        rcases solid_step visible lower solid with reached | missing
        · rw [walk_reached budget reached,walk_nil]; exact .inl rfl
        · rw [walk_missing budget missing]; exact .inr rfl
      · rw [missing]; exact .inr rfl

end FileTree
