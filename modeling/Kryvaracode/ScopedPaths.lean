import Kryvaracode.Exceptions
import Kryvaracode.RealPaths

namespace Kryvaracode.ScopedPaths
open UnicodeText FileTree RealPaths

-- What the module and its process bring: the project's root and the settings
-- the roots are read from.
structure Setting where
  system : System
  projectRoot : PurePath
  tempDirectory : Text
  agentFileRoots : Text

def resolved (setting : Setting) (path : PurePath) : Result PurePath :=
  match resolve setting.system path with
  | .ok real => .ok real
  | .error .embeddedNull => .error (ValueError PathError.embeddedNull.message)
  | .error (.symlinkLoop path) => .error (RuntimeError (PathError.symlinkLoop path).message)

def rootParts (text : Text) : List Text :=
  ((text.splitOnP fun c => c == '\n' || c == ':').map strip).filter fun part => !part.isEmpty

def fileRoots (setting : Setting) : Result (List PurePath) := do
  let temp ← resolved setting (.parse setting.tempDirectory)
  let extra ← (rootParts setting.agentFileRoots).mapM fun part => resolved setting (.parse part)
  return setting.projectRoot :: temp :: extra

def candidate (setting : Setting) (pathStr : Text) : PurePath := setting.projectRoot.join (.parse pathStr)

-- The loop over the roots ends with the first one the candidate is spelled below.
def firstRoot (roots : List PurePath) (path : PurePath) : Option (PurePath × List Text) :=
  roots.findSome? fun root => (path.relativeTo root).map (root,·)

-- The inner loop: each name of the rest in turn, below the names before it.
def probe (setting : Setting) : List Text → List Text → Bool
  | _,[] => false
  | front,part :: rest =>
      isSymlink setting.system.tree setting.system.maxLinks front part || probe setting (front ++ [part]) rest

def linked (setting : Setting) (roots : List PurePath) (path : PurePath) : Bool :=
  match firstRoot roots path with
  | some (root,rest) => probe setting root.parts rest
  | none => false

def allowed (roots : List PurePath) (path : PurePath) : Bool :=
  roots.any fun root => path = root || (path.relativeTo root).isSome

def resolveScoped (setting : Setting) (pathStr : Text) : Result PurePath := do
  let roots ← fileRoots setting
  if linked setting roots (candidate setting pathStr) then
    .error (ForbiddenError ("Symlinks are not allowed in paths: ".toList ++ pathStr))
  else
    let path ← resolved setting (candidate setting pathStr)
    if allowed roots path then .ok path
    else .error (ForbiddenError ("Path outside allowed file roots: ".toList ++ pathStr))

def Inside (roots : List PurePath) (link : Place) : Prop := ∃ root ∈ roots, root.parts <+: link ∧ root.parts ≠ link

def linksOf (setting : Setting) (path : PurePath) : List Place :=
  (walk setting.system.tree setting.system.maxLinks [] path.parts).links

def Scoped (setting : Setting) (roots : List PurePath) (pathStr : Text) (path : PurePath) : Prop :=
  allowed roots path = true ∧ ∀ link ∈ linksOf setting (candidate setting pathStr), ¬ Inside roots link

theorem probe_links (setting : Setting) (front rest : List Text) (clear : probe setting front rest = false) :
    (walk setting.system.tree setting.system.maxLinks [] (front ++ rest)).links =
      (walk setting.system.tree setting.system.maxLinks [] front).links := by
  induction rest generalizing front with
  | nil => rw [List.append_nil]
  | cons part rest ih =>
      rw [probe,Bool.or_eq_false_iff] at clear
      have later := ih (front ++ [part]) clear.2
      rw [List.append_assoc,List.singleton_append] at later
      rw [later]
      exact unlinked_step _ _ front part clear.1

theorem firstRoot_parts (found : firstRoot roots path = some (root,rest)) : root ∈ roots ∧ path.parts = root.parts ++ rest := by
  obtain ⟨before,other,after,rfl,matched,_⟩ := List.findSome?_eq_some_iff.mp found
  obtain ⟨names,relative,same⟩ := Option.map_eq_some_iff.mp matched
  cases same
  exact ⟨by simp,relativeTo_parts relative⟩

theorem resolveScoped_parts (returned : resolveScoped setting pathStr = .ok path) : ∃ roots, fileRoots setting = .ok roots ∧
    linked setting roots (candidate setting pathStr) = false ∧ resolved setting (candidate setting pathStr) = .ok path ∧
      allowed roots path = true := by
  unfold resolveScoped at returned
  cases known : fileRoots setting with
  | error raised => rw [known] at returned; cases returned
  | ok roots =>
      simp only [known,bind,Except.bind] at returned
      split at returned
      · cases returned
      · rename_i clear
        cases real : resolved setting (candidate setting pathStr) with
        | error raised => rw [real] at returned; cases returned
        | ok final =>
            simp only [real] at returned
            split at returned
            · rename_i inside
              cases returned
              exact ⟨roots,rfl,by simpa using clear,rfl,inside⟩
            · cases returned

-- The candidate is spelled below a root, so that its names are probed, and the
-- spelling of that root meets no link inside a root.
def Probed (setting : Setting) (roots : List PurePath) (pathStr : Text) : Prop :=
  ∃ root rest, firstRoot roots (candidate setting pathStr) = some (root,rest) ∧
    ∀ link ∈ linksOf setting root, ¬ Inside roots link

theorem probed_links (probed : Probed setting roots pathStr)
    (clear : linked setting roots (candidate setting pathStr) = false) :
    ∀ link ∈ linksOf setting (candidate setting pathStr), ¬ Inside roots link := by
  obtain ⟨root,rest,found,outside⟩ := probed
  unfold linked at clear
  rw [found] at clear
  have same := probe_links setting root.parts rest clear
  rw [← (firstRoot_parts found).2] at same
  unfold linksOf at outside ⊢
  rwa [same]

def linkedProject : Node :=
  .dir [("proj".toList,.dir [("link".toList,.link "inner".toList),("inner".toList,.dir [("f".toList,.file)])]),
    ("other".toList,.dir []),("tmp".toList,.dir [])]

def linkedSetting : Setting where
  system := ⟨linkedProject,40,"/proj".toList⟩
  projectRoot := ⟨"/".toList,["proj".toList]⟩
  tempDirectory := "/tmp".toList
  agentFileRoots := []

def linkedRoots : List PurePath := [⟨"/".toList,["proj".toList]⟩,⟨"/".toList,["tmp".toList]⟩]

def innerFile : PurePath := ⟨"/".toList,["proj".toList,"inner".toList,"f".toList]⟩

theorem linkedRoots_known : fileRoots linkedSetting = .ok linkedRoots := by decide +kernel

-- A root that was resolved without meeting a loop has no link on its own way.
theorem resolved_links (returned : resolved setting path = .ok real) : linksOf setting real = [] ∨
    ∃ text, joinReal setting.system.tree (linkCount setting.system.tree) [] (absoluteParts setting.system path) [] =
      .unresolved text := by
  unfold resolved at returned
  split at returned
  · rename_i final known
    cases returned
    rw [resolve_real known]
    exact realpath_walk _ _ _
  · cases returned
  · cases returned

end Kryvaracode.ScopedPaths
