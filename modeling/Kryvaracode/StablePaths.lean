import Kryvaracode.FileDisk

-- Paths on a disk that grows: what a path resolves to, it resolves to later.
namespace FileDisk
open FileTree RealPaths

-- The links on the way to a path do not lead back into one another.
def Direct (system : System) (path : PurePath) : Prop :=
  ∃ place seen, joinReal system.tree (linkCount system.tree) [] (absoluteParts system path) [] = .resolved place seen

def leads : RealPaths.Real → Bool
  | .resolved _ _ => true
  | .unresolved _ => false

theorem direct_iff : Direct system path ↔
    leads (joinReal system.tree (linkCount system.tree) [] (absoluteParts system path) []) = true := by
  unfold Direct
  cases joinReal system.tree (linkCount system.tree) [] (absoluteParts system path) [] with
  | resolved place seen => exact ⟨fun _ => rfl,fun _ => ⟨place,seen,rfl⟩⟩
  | unresolved text =>
      refine ⟨?_,fun led => Bool.noConfusion led⟩
      rintro ⟨place,seen,resolved⟩
      cases resolved

theorem joinReal_link (nested : Place → List Text → Seen → RealPaths.Real) (visible : here name = false) (lower : up name = false)
    (linked : linkAt tree (place ++ [name]) = some target) : joinRealWith tree nested place (name :: rest) seen =
      match seen.lookup (place ++ [name]) with
      | some (some known) => joinRealWith tree nested known rest seen
      | some none => .unresolved (joinText (placeText (place ++ [name])) (joinNames rest))
      | none =>
          match nested (base place target) (names target) ((place ++ [name],none) :: seen) with
          | .resolved inner later => joinRealWith tree nested inner rest ((place ++ [name],some inner) :: later)
          | .unresolved text => .unresolved (joinText text (joinNames rest)) := by
  rw [joinRealWith,visible,lower]
  simp only [Bool.false_eq_true,if_false,find_link.mpr linked]
  all_goals rfl

theorem joinReal_solid (nested : Place → List Text → Seen → RealPaths.Real) (visible : here name = false) (lower : up name = false)
    (solid : linkAt tree (place ++ [name]) = none) :
    joinRealWith tree nested place (name :: rest) seen = joinRealWith tree nested (place ++ [name]) rest seen := by
  rw [joinRealWith,visible,lower]
  simp only [Bool.false_eq_true,if_false]
  split
  · rename_i target linked
    rw [find_link,solid] at linked
    cases linked
  · rfl

theorem joinRealWith_grows (grown : Grows tree later) (nested : Place → List Text → Seen → RealPaths.Real) (place : Place)
    (rest : List Text) (seen : Seen) : joinRealWith later nested place rest seen = joinRealWith tree nested place rest seen := by
  induction rest generalizing place seen with
  | nil => rfl
  | cons name rest ih =>
      cases visible : here name with
      | true => simp only [joinRealWith,visible,if_true]; exact ih _ _
      | false =>
          cases lower : up name with
          | true => simp only [joinRealWith,visible,lower,Bool.false_eq_true,if_false,if_true]; exact ih _ _
          | false =>
              cases linked : linkAt tree (place ++ [name]) with
              | none =>
                  rw [joinReal_solid nested visible lower linked,joinReal_solid nested visible lower ((grown.links _).trans linked)]
                  exact ih _ _
              | some target =>
                  rw [joinReal_link nested visible lower linked,joinReal_link nested visible lower ((grown.links _).trans linked)]
                  simp only [ih]

theorem joinReal_grows (grown : Grows tree later) (depth : Nat) : joinReal later depth = joinReal tree depth := by
  induction depth with
  | zero => funext place rest seen; exact joinRealWith_grows grown _ place rest seen
  | succ depth ih =>
      funext place rest seen
      rw [joinReal,joinReal,ih]
      exact joinRealWith_grows grown _ place rest seen

theorem realpath_grows (grown : Grows tree later) (parts : List Text) : realpath later parts = realpath tree parts := by
  rw [realpath,realpath,joinReal_grows grown,grown.count]

theorem plain_joinReal (nested : Place → List Text → Seen → RealPaths.Real) (done rest : Place) (seen : Seen)
    (plain : Plain tree (done ++ rest)) : joinRealWith tree nested done rest seen = .resolved (done ++ rest) seen := by
  induction rest generalizing done with
  | nil => rw [joinRealWith,List.append_nil]
  | cons name rest ih =>
      rw [List.append_cons] at plain ⊢
      obtain ⟨visible,lower,solid⟩ := plain_last (plain_front _ _ plain)
      rw [joinReal_solid nested visible lower solid]
      exact ih _ plain

theorem joinReal_whole (plain : Plain tree place) : joinReal tree (linkCount tree) [] place [] = .resolved place [] := by
  cases linkCount tree <;> exact plain_joinReal _ [] place [] plain

theorem realpath_plain (plain : Plain tree place) : realpath tree place = ⟨"/".toList,place⟩ := by
  rw [realpath,joinReal_whole plain]

-- A direct path is only refused for a NUL.
theorem direct_resolve (direct : Direct system path) : resolve system path =
    if (absoluteParts system path).any (·.contains '\x00') then .error .embeddedNull
    else .ok (realpath system.tree (absoluteParts system path)) := by
  obtain ⟨place,seen,resolved⟩ := direct
  have plain := (joinReal_plain _ _ [] _ [] .root (by intro entry member; cases member) place seen resolved).1
  have unlinked : ¬ (walk system.tree system.maxLinks [] place).ending = .loop := by
    rcases plain_walk plain system.maxLinks with same | same <;> rw [same] <;> exact fun looped => nomatch looped
  have real : realpath system.tree (absoluteParts system path) = ⟨"/".toList,place⟩ := by rw [realpath,resolved]
  unfold resolve
  dsimp only
  rw [real,if_neg unlinked]

theorem plain_direct (maxLinks : Nat) (workingDirectory : Text) (plain : Plain tree place) :
    Direct ⟨tree,maxLinks,workingDirectory⟩ ⟨"/".toList,place⟩ := ⟨place,[],joinReal_whole plain⟩

theorem resolve_plain (maxLinks : Nat) (workingDirectory : Text) (plain : Plain tree place)
    (clean : ∀ name ∈ place, '\x00' ∉ name) :
    resolve ⟨tree,maxLinks,workingDirectory⟩ ⟨"/".toList,place⟩ = .ok ⟨"/".toList,place⟩ := by
  have whole : absoluteParts ⟨tree,maxLinks,workingDirectory⟩ ⟨"/".toList,place⟩ = place := rfl
  rw [direct_resolve (plain_direct maxLinks workingDirectory plain),whole,realpath_plain plain,if_neg]
  rw [List.any_eq_true]
  rintro ⟨name,member,inside⟩
  exact clean name member (List.contains_iff_mem.mp inside)

theorem plain_unlinked (budget : Nat) (plain : Plain tree (front ++ [last])) : isSymlink tree budget front last = false := by
  obtain ⟨visible,lower,solid⟩ := plain_last plain
  have unlinked : ∀ target, find tree (front ++ [last]) ≠ some (.link target) := by
    intro target linked
    rw [find_link,solid] at linked
    cases linked
  unfold isSymlink
  rcases plain_walk (plain_front _ _ plain) budget with same | same
  · rw [same]
    rcases solid_step visible lower unlinked with reached | missing
    · simp only [reached]
    · simp only [missing]
  · rw [same]

def SeenOf (good : Text → Prop) (seen : Seen) : Prop :=
  ∀ entry ∈ seen, ∀ place, entry.2 = some place → ∀ name ∈ place, good name

-- A real path is made of names of the path and of the targets of links.
theorem joinRealWith_names (good : Text → Prop) (targets : ∀ place target, linkAt tree place = some target →
      ∀ name ∈ names target, good name) (nested : Place → List Text → Seen → RealPaths.Real)
    (inner : ∀ place rest seen, (∀ name ∈ place, good name) → (∀ name ∈ rest, good name) →
      SeenOf good seen → ∀ final later,
        nested place rest seen = .resolved final later → (∀ name ∈ final, good name) ∧ SeenOf good later)
    (place : Place) (rest : List Text) (seen : Seen) (begun : ∀ name ∈ place, good name) (more : ∀ name ∈ rest, good name)
    (known : SeenOf good seen) (final : Place) (later : Seen)
    (resolved : joinRealWith tree nested place rest seen = .resolved final later) : (∀ name ∈ final, good name) ∧ SeenOf good later := by
  induction rest generalizing place seen with
  | nil => cases resolved; exact ⟨begun,known⟩
  | cons name rest ih =>
      rw [List.forall_mem_cons] at more
      cases visible : here name with
      | true =>
          simp only [joinRealWith,visible,if_true] at resolved
          exact ih _ _ begun more.2 known resolved
      | false =>
          cases lower : up name with
          | true =>
              simp only [joinRealWith,visible,lower,Bool.false_eq_true,if_false,if_true] at resolved
              exact ih _ _ (fun name member => begun name (List.mem_of_mem_dropLast member)) more.2 known resolved
          | false =>
              cases linked : linkAt tree (place ++ [name]) with
              | none =>
                  rw [joinReal_solid nested visible lower linked] at resolved
                  exact ih _ _ (List.forall_mem_append.mpr ⟨begun,List.forall_mem_singleton.mpr more.1⟩) more.2 known resolved
              | some target =>
                  rw [joinReal_link nested visible lower linked] at resolved
                  have based : ∀ name ∈ base place target, good name := by
                    unfold base
                    split
                    · exact List.forall_mem_nil _
                    · exact begun
                  split at resolved
                  · rename_i cached met
                    exact ih _ _ (known _ (lookup_mem met) cached rfl) more.2 known resolved
                  · cases resolved
                  · split at resolved
                    · rename_i final' later' returned
                      obtain ⟨good',known'⟩ := inner _ _ _ based (targets _ _ linked) (List.forall_mem_cons.mpr ⟨by simp,known⟩) _ _ returned
                      refine ih _ _ good' more.2 (List.forall_mem_cons.mpr ⟨?_,known'⟩) resolved
                      intro found same
                      cases same
                      exact good'
                    · cases resolved

theorem joinReal_names (good : Text → Prop) (targets : ∀ place target, linkAt tree place = some target →
      ∀ name ∈ names target, good name) (depth : Nat) (place : Place) (rest : List Text) (seen : Seen)
    (begun : ∀ name ∈ place, good name) (more : ∀ name ∈ rest, good name)
    (known : SeenOf good seen) (final : Place) (later : Seen)
    (resolved : joinReal tree depth place rest seen = .resolved final later) : (∀ name ∈ final, good name) ∧ SeenOf good later := by
  induction depth generalizing place rest seen final later with
  | zero =>
      refine joinRealWith_names good targets _ ?_ place rest seen begun more known final later resolved
      intro place rest seen _ _ _ final later stuck
      cases stuck
  | succ depth ih => exact joinRealWith_names good targets _ ih place rest seen begun more known final later resolved

theorem names_chars (text : Text) : ∀ name ∈ names text, ∀ c ∈ name, c ∈ text ∧ c ≠ '/' := by
  unfold names
  induction text with
  | nil => simp
  | cons first text ih =>
      rw [List.splitOn_cons_eq_if_modifyHead]
      intro name member c inside
      split at member
      · rcases List.mem_cons.mp member with rfl | member
        · cases inside
        · obtain ⟨within,other⟩ := ih name member c inside
          exact ⟨.tail _ within,other⟩
      · rename_i plain
        obtain ⟨part,parts,whole⟩ := List.exists_cons_of_ne_nil (List.splitOn_ne_nil '/' text)
        rw [whole,List.modifyHead_cons] at member
        rw [whole] at ih
        rcases List.mem_cons.mp member with rfl | member
        · rcases List.mem_cons.mp inside with rfl | inside
          · exact ⟨.head _,fun same => plain (beq_iff_eq.mpr same)⟩
          · obtain ⟨within,other⟩ := ih part (.head _) c inside
            exact ⟨.tail _ within,other⟩
        · obtain ⟨within,other⟩ := ih name (.tail _ member) c inside
          exact ⟨.tail _ within,other⟩

mutual
def linkTargets : Node → List Text
  | .file => []
  | .link target => [target]
  | .dir entries => entryTargets entries
def entryTargets : List (Text × Node) → List Text
  | [] => []
  | (_,node) :: entries => linkTargets node ++ entryTargets entries
end

theorem entry_targets (found : entries.lookup name = some node) : linkTargets node ⊆ entryTargets entries := by
  induction entries with
  | nil => cases found
  | cons entry entries ih =>
      obtain ⟨key,other⟩ := entry
      rw [entryTargets]
      rw [List.lookup] at found
      split at found
      · cases found
        exact List.subset_append_left _ _
      · exact List.subset_append_of_subset_right _ (ih found)

theorem linkAt_targets (node : Node) (place : Place) (linked : linkAt node place = some target) : target ∈ linkTargets node := by
  rw [← find_link] at linked
  induction place generalizing node with
  | nil => cases linked; exact List.mem_singleton_self _
  | cons name rest ih =>
      cases node with
      | file => cases linked
      | link other => cases linked
      | dir entries =>
          rw [find_dir] at linked
          obtain ⟨inner,found,linked⟩ := Option.bind_eq_some_iff.mp linked
          rw [linkTargets]
          exact entry_targets found (ih inner linked)

theorem splitRoot_one {first : Char} (other : first ≠ '/') : splitRoot ('/' :: first :: rest) = "/".toList := by
  have counted : ('/' :: first :: rest).takeWhile (· == '/') = ['/'] := by
    rw [List.takeWhile_cons_of_pos rfl,List.takeWhile_cons_of_neg (by simpa using other)]
  unfold splitRoot
  rw [counted]
  rfl

-- A real path is what its spelling says.
theorem parse_place (place : Place) (named : ∀ name ∈ place, here name = false) (apart : ∀ name ∈ place, '/' ∉ name) :
    PurePath.parse (PurePath.text ⟨"/".toList,place⟩) = ⟨"/".toList,place⟩ := by
  have spelled : PurePath.text ⟨"/".toList,place⟩ = '/' :: joinNames place := by
    rw [PurePath.text,if_neg (fun none => nomatch none.1)]
    rfl
  rw [spelled]
  cases place with
  | nil => decide
  | cons name rest =>
      have joined : '/' :: joinNames (name :: rest) = ['/'].intercalate ([] :: name :: rest) := by
        rw [List.intercalate_cons_of_ne_nil (List.cons_ne_nil _ _)]
        rfl
      have parted : names ('/' :: joinNames (name :: rest)) = [] :: name :: rest := by
        rw [names,joined,List.splitOn_intercalate '/' (List.forall_mem_cons.mpr ⟨List.not_mem_nil,apart⟩) (List.cons_ne_nil _ _)]
      obtain ⟨first,others,rfl⟩ : ∃ first others, name = first :: others := by
        cases name with
        | nil => exact absurd (named [] (.head _)) (by decide)
        | cons first others => exact ⟨first,others,rfl⟩
      obtain ⟨tail,spelling⟩ : ∃ tail, joinNames ((first :: others) :: rest) = first :: tail := by
        cases rest with
        | nil => exact ⟨others,by rw [joinNames,List.intercalate_singleton]⟩
        | cons next rest => exact ⟨_,by rw [joinNames,List.intercalate_cons_cons]; rfl⟩
      have slash : first ≠ '/' := by
        rintro rfl
        exact apart _ (.head _) (.head _)
      rw [PurePath.parse,parted,spelling,splitRoot_one slash]
      have kept : ([] :: (first :: others) :: rest).filter (fun name => !here name) = (first :: others) :: rest := by
        rw [List.filter_cons_of_neg (by decide),List.filter_eq_self]
        intro name member
        rw [named name member]
        rfl
      rw [kept]

theorem plain_names (plain : Plain tree place) : ∀ name ∈ place, here name = false := by
  induction plain with
  | root => exact List.forall_mem_nil _
  | name _ visible _ _ ih => exact List.forall_mem_append.mpr ⟨ih,List.forall_mem_singleton.mpr visible⟩

-- What a direct path resolves to is spelled without links, and as `parse_place` needs it.
theorem direct_real (direct : Direct system path) (returned : resolve system path = .ok real)
    (targets : ∀ place target, linkAt system.tree place = some target → '\x00' ∉ target)
    (apart : ∀ name ∈ path.parts, '/' ∉ name) : ∃ place, real = ⟨"/".toList,place⟩ ∧ Plain system.tree place ∧
      ∀ name ∈ place, '/' ∉ name ∧ '\x00' ∉ name := by
  obtain ⟨place,seen,resolved⟩ := direct
  refine ⟨place,?_,(joinReal_plain _ _ [] _ [] .root (by intro entry member; cases member) place seen resolved).1,?_⟩
  · rw [resolve_real returned,realpath,resolved]
  · have clean : ∀ name ∈ absoluteParts system path, '\x00' ∉ name := by
      intro name member inside
      have found : (absoluteParts system path).any (·.contains '\x00') = true :=
        List.any_eq_true.mpr ⟨name,member,List.contains_iff_mem.mpr inside⟩
      unfold resolve at returned
      dsimp only at returned
      rw [if_pos found] at returned
      cases returned
    have apart' : ∀ name ∈ absoluteParts system path, '/' ∉ name := by
      unfold absoluteParts
      split
      · exact apart
      · refine List.forall_mem_append.mpr ⟨?_,apart⟩
        intro name member inside
        exact (names_chars _ name member _ inside).2 rfl
    refine (joinReal_names (fun name => '/' ∉ name ∧ '\x00' ∉ name) ?_ _ [] _ [] (List.forall_mem_nil _) ?_
      (List.forall_mem_nil _) place seen resolved).1
    · intro link target linked name member
      refine ⟨fun inside => (names_chars _ name member _ inside).2 rfl,fun inside => ?_⟩
      exact targets link target linked (names_chars _ name member _ inside).1
    · exact fun name member => ⟨apart' name member,clean name member⟩

end FileDisk
