import Kryvaracode.RealPaths

-- Disks: file trees whose files hold bytes, and the calls that change them.
namespace FileDisk
open FileTree RealPaths

inductive Kind where
  | file
  | dir
  | link (target : Text)
  deriving DecidableEq, Repr

def kindOf : Node → Kind
  | .file => .file
  | .dir _ => .dir
  | .link target => .link target

def kindAt (tree : Node) (place : Place) : Option Kind := (find tree place).map kindOf

def linkAt (tree : Node) (place : Place) : Option Text :=
  match kindAt tree place with
  | some (.link target) => some target
  | _ => none

-- A node where there is none, in a directory that is there.
def plant (fresh : Node) : Node → Place → Node
  | .dir entries,[name] => .dir (entries ++ [(name,fresh)])
  | .dir entries,name :: rest =>
      .dir (entries.map fun entry => if entry.1 = name then (entry.1,plant fresh entry.2 rest) else entry)
  | node,_ => node

structure Disk where
  tree : Node
  contents : Place → List UInt8

def Disk.add (disk : Disk) (fresh : Node) (place : Place) : Disk := {disk with tree := plant fresh disk.tree place}

def Disk.store (disk : Disk) (place : Place) (bytes : List UInt8) : Disk :=
  {disk with contents := fun other => if other = place then bytes else disk.contents other}

inductive Errno where
  | noEntry
  | fileExists
  | notDirectory
  | isDirectory
  | loops
  deriving DecidableEq, Repr

def Errno.text : Errno → Text
  | .noEntry => "[Errno 2] No such file or directory".toList
  | .fileExists => "[Errno 17] File exists".toList
  | .notDirectory => "[Errno 20] Not a directory".toList
  | .isDirectory => "[Errno 21] Is a directory".toList
  | .loops => "[Errno 40] Too many levels of symbolic links".toList

-- Where a call finds what a path names; `absent` when only the last name is not there.
inductive Found where
  | there (place : Place)
  | absent (place : Place)
  | failed (errno : Errno)
  deriving DecidableEq, Repr

def nameiWith (tree : Node) (follow : Place → Text → List Text → Found) : Place → List Text → Found
  | place,[] => .there place
  | place,name :: rest =>
      if isDir tree place then
        match step tree place name with
        | .reached next => nameiWith tree follow next rest
        | .follow target => follow place target rest
        | .missing => if rest = [] then .absent (place ++ [name]) else .failed .noEntry
      else .failed .notDirectory

def namei (tree : Node) : Nat → Place → List Text → Found
  | 0 => nameiWith tree fun _ _ _ => .failed .loops
  | budget + 1 => nameiWith tree fun place target rest => namei tree budget (base place target) (names target ++ rest)

def Disk.isDirectory (disk : Disk) (budget : Nat) (parts : List Text) : Bool :=
  match namei disk.tree budget [] parts with
  | .there place => isDir disk.tree place
  | _ => false

def Disk.read (disk : Disk) (budget : Nat) (parts : List Text) : Except Errno (List UInt8) :=
  match namei disk.tree budget [] parts with
  | .there place => if isDir disk.tree place then .error .isDirectory else .ok (disk.contents place)
  | .absent _ => .error .noEntry
  | .failed errno => .error errno

def Disk.write (disk : Disk) (budget : Nat) (parts : List Text) (bytes : List UInt8) : Except Errno Disk :=
  match namei disk.tree budget [] parts with
  | .there place => if isDir disk.tree place then .error .isDirectory else .ok (disk.store place bytes)
  | .absent place => .ok ((disk.add .file place).store place bytes)
  | .failed errno => .error errno

-- The last name is not followed, and a dot or two name what is there.
def Disk.mkdir (disk : Disk) (budget : Nat) (front : List Text) (last : Text) : Except Errno Disk :=
  match namei disk.tree budget [] front with
  | .there place =>
      if isDir disk.tree place then
        if here last || up last || (find disk.tree (place ++ [last])).isSome then .error .fileExists
        else .ok (disk.add (.dir []) (place ++ [last]))
      else .error .notDirectory
  | .absent _ => .error .noEntry
  | .failed errno => .error errno

-- `Path.mkdir` with its parents, whether it is there or not; the names are the last
-- first. An error comes with the names it is about.
def Disk.mkdirs (disk : Disk) (budget : Nat) : List Text → Disk × Option (Errno × List Text)
  | [] => (disk,if disk.isDirectory budget [] then none else some (.fileExists,[]))
  | last :: front =>
      match disk.mkdir budget front.reverse last with
      | .ok made => (made,none)
      | .error .noEntry =>
          match disk.mkdirs budget front with
          | (later,some trouble) => (later,some trouble)
          | (later,none) =>
              match later.mkdir budget front.reverse last with
              | .ok made => (made,none)
              | .error errno =>
                  (later,if errno ≠ .noEntry ∧ later.isDirectory budget (front.reverse ++ [last]) then none
                    else some (errno,front.reverse ++ [last]))
      | .error errno =>
          (disk,if disk.isDirectory budget (front.reverse ++ [last]) then none else some (errno,front.reverse ++ [last]))

theorem find_append (node : Node) (one two : Place) : find node (one ++ two) = (find node one).bind fun inner => find inner two := by
  induction one generalizing node with
  | nil => rfl
  | cons name one ih =>
      rw [List.cons_append,find,find]
      cases node.child name with
      | none => rfl
      | some inner => exact ih inner

theorem isDir_iff : isDir tree place = true ↔ kindAt tree place = some .dir := by
  unfold isDir kindAt
  cases find tree place with
  | none => simp
  | some node => cases node <;> simp [kindOf]

theorem linkAt_iff : linkAt tree place = some target ↔ kindAt tree place = some (.link target) := by
  unfold linkAt
  split
  · rename_i other known
    rw [known]
    simp
  · rename_i unlinked
    exact ⟨fun known => (nomatch known),fun known => absurd known (unlinked target)⟩

theorem find_link : find tree place = some (.link target) ↔ linkAt tree place = some target := by
  rw [linkAt_iff]
  unfold kindAt
  cases find tree place with
  | none => simp
  | some node => cases node <;> simp [kindOf]

-- What is below a place shows that the place is a directory.
theorem kindAt_front (below : kindAt tree (place ++ name :: rest) = some kind) : kindAt tree place = some .dir := by
  unfold kindAt at below ⊢
  rw [find_append] at below
  cases known : find tree place with
  | none => rw [known] at below; cases below
  | some node =>
      rw [known] at below
      cases node with
      | dir entries => rfl
      | file => cases below
      | link target => cases below

theorem dir_entries (top : kindAt node [] = some .dir) : ∃ entries, node = .dir entries := by
  cases node with
  | dir entries => exact ⟨entries,rfl⟩
  | file => cases top
  | link target => cases top

theorem top_dir (below : kindAt tree (name :: rest) = some kind) : kindAt tree [] = some .dir :=
  kindAt_front (by rwa [List.nil_append])

theorem lookup_added (fresh : Node) (missing : entries.lookup name = none) (other : Text) :
    (entries ++ [(name,fresh)]).lookup other = if other = name then some fresh else entries.lookup other := by
  rw [List.lookup_append]
  by_cases same : other = name
  · rw [if_pos same,same,missing]
    simp
  · have differs : (other == name) = false := beq_false_of_ne same
    rw [if_neg same]
    simp [List.lookup,differs]

theorem lookup_changed (change : Node → Node) (entries : List (Text × Node)) (name other : Text) :
    (entries.map fun entry => if entry.1 = name then (entry.1,change entry.2) else entry).lookup other =
      (entries.lookup other).map fun node => if other = name then change node else node := by
  induction entries with
  | nil => rfl
  | cons entry entries ih =>
      obtain ⟨key,node⟩ := entry
      by_cases same : other = key
      · subst same
        by_cases named : other = name <;> simp [List.lookup,named]
      · have differs : (other == key) = false := beq_false_of_ne same
        rw [List.map_cons,List.lookup,apply_ite Prod.fst,ite_self,differs,ih,List.lookup,differs]

theorem find_dir : find (.dir entries) (name :: rest) = (entries.lookup name).bind fun inner => find inner rest := by
  rw [find,Node.child]
  cases entries.lookup name <;> rfl

-- Only the place itself is new: a file has nothing below it, nor has an empty directory.
theorem kindAt_plant (leaf : ∀ name, fresh.child name = none) (node : Node) (name : Text) (front : Place)
    (parent : kindAt node front = some .dir) (empty : kindAt node (front ++ [name]) = none) (place : Place) :
    kindAt (plant fresh node (front ++ [name])) place =
      if place = front ++ [name] then some (kindOf fresh) else kindAt node place := by
  induction front generalizing node place with
  | nil =>
      obtain ⟨entries,rfl⟩ := dir_entries parent
      have missing : entries.lookup name = none := by
        cases known : entries.lookup name with
        | none => rfl
        | some inner => simp [kindAt,find_dir,known,find] at empty
      rw [List.nil_append,plant]
      cases place with
      | nil => rfl
      | cons other rest =>
          unfold kindAt
          rw [find_dir,find_dir,lookup_added fresh missing]
          by_cases same : other = name
          · subst same
            rw [if_pos rfl,missing]
            cases rest with
            | nil => simp [find]
            | cons next rest => simp [find,leaf]
          · simp [same]
  | cons first front ih =>
      obtain ⟨entries,rfl⟩ := dir_entries (top_dir parent)
      obtain ⟨inner,known⟩ : ∃ inner, entries.lookup first = some inner := by
        cases known : entries.lookup first with
        | none => simp [kindAt,find_dir,known] at parent
        | some inner => exact ⟨inner,rfl⟩
      have below : ∀ rest, kindAt (.dir entries) (first :: rest) = kindAt inner rest := by
        intro rest
        unfold kindAt
        rw [find_dir,known]
        rfl
      rw [below] at parent
      rw [List.cons_append,below] at empty
      have changed := ih inner parent empty
      have planted : plant fresh (.dir entries) (first :: (front ++ [name])) = .dir (entries.map fun entry =>
          if entry.1 = first then (entry.1,plant fresh entry.2 (front ++ [name])) else entry) := by
        cases front <;> rfl
      rw [List.cons_append,planted]
      cases place with
      | nil => rfl
      | cons other rest =>
          by_cases same : other = first
          · subst same
            rw [below]
            have inside := changed rest
            unfold kindAt at inside ⊢
            rw [find_dir,lookup_changed (plant fresh · (front ++ [name])),known]
            simpa using inside
          · unfold kindAt
            rw [find_dir,find_dir,lookup_changed (plant fresh · (front ++ [name]))]
            simp [same]

theorem entryCount_append (one two : List (Text × Node)) : entryCount (one ++ two) = entryCount one + entryCount two := by
  induction one with
  | nil => simp [entryCount]
  | cons entry one ih => obtain ⟨key,node⟩ := entry; simp only [List.cons_append,entryCount,ih]; omega

theorem linkCount_plant (free : linkCount fresh = 0) (node : Node) (place : Place) :
    linkCount (plant fresh node place) = linkCount node := by
  induction place generalizing node with
  | nil => cases node <;> rfl
  | cons name rest ih =>
      cases node with
      | file => cases rest <;> rfl
      | link target => cases rest <;> rfl
      | dir entries =>
          cases rest with
          | nil => rw [plant,linkCount,linkCount,entryCount_append,entryCount,entryCount,free]; rfl
          | cons next rest =>
              rw [plant,linkCount,linkCount]
              · induction entries with
                | nil => rfl
                | cons entry entries more =>
                    obtain ⟨key,node⟩ := entry
                    rw [List.map_cons,entryCount,more]
                    by_cases same : key = name
                    · simp only [same,if_true,entryCount,ih]
                    · simp only [same,if_false,entryCount]
              · exact fun missing => nomatch missing

-- The links stay as they are, and what is there stays there.
structure Grows (tree later : Node) : Prop where
  keeps : ∀ {place kind}, kindAt tree place = some kind → kindAt later place = some kind
  links : ∀ place, linkAt later place = linkAt tree place
  count : linkCount later = linkCount tree

theorem Grows.refl (tree : Node) : Grows tree tree := ⟨id,fun _ => rfl,rfl⟩

theorem Grows.trans (one : Grows tree middle) (two : Grows middle later) : Grows tree later :=
  ⟨fun known => two.keeps (one.keeps known),fun place => (two.links place).trans (one.links place),two.count.trans one.count⟩

-- What a call may put where there was nothing.
inductive Blank : Node → Prop where
  | file : Blank .file
  | dir : Blank (.dir [])

theorem Blank.leaf (blank : Blank fresh) (name : Text) : fresh.child name = none := by
  cases blank <;> rfl

theorem plant_grows (blank : Blank fresh) (parent : kindAt node front = some .dir) (empty : kindAt node (front ++ [name]) = none) :
    Grows node (plant fresh node (front ++ [name])) := by
  have planted := kindAt_plant blank.leaf node name front parent empty
  refine ⟨?_,?_,linkCount_plant (by cases blank <;> rfl) node _⟩
  · intro place kind known
    rw [planted,if_neg]
    · exact known
    · rintro rfl
      rw [empty] at known
      cases known
  · intro place
    unfold linkAt
    rw [planted]
    by_cases same : place = front ++ [name]
    · rw [if_pos same,same,empty]
      cases blank <;> rfl
    · rw [if_neg same]

theorem namei_nil (tree : Node) (budget : Nat) (place : Place) : namei tree budget place [] = .there place := by
  cases budget <;> rfl

theorem namei_reached (budget : Nat) (inside : isDir tree place = true) (reached : step tree place name = .reached next) :
    namei tree budget place (name :: rest) = namei tree budget next rest := by
  cases budget <;> simp only [namei,nameiWith,inside,reached,if_true]

theorem namei_missing (budget : Nat) (inside : isDir tree place = true) (missing : step tree place name = .missing) :
    namei tree budget place (name :: rest) = if rest = [] then .absent (place ++ [name]) else .failed .noEntry := by
  cases budget <;> simp only [namei,nameiWith,inside,missing,if_true]

theorem namei_outside (budget : Nat) (outside : isDir tree place = false) :
    namei tree budget place (name :: rest) = .failed .notDirectory := by
  cases budget <;> simp only [namei,nameiWith,outside,Bool.false_eq_true,if_false]

theorem missing_name (inside : isDir tree place = true) (missing : step tree place name = .missing) :
    kindAt tree (place ++ [name]) = none := by
  unfold step at missing
  rw [inside] at missing
  unfold kindAt
  cases known : find tree (place ++ [name]) with
  | none => rfl
  | some node =>
      rw [known] at missing
      cases node <;> simp only [if_true] at missing <;> split at missing <;> (try split at missing) <;> cases missing

def Missing (tree : Node) (found : Place) : Prop :=
  ∃ front name, found = front ++ [name] ∧ kindAt tree front = some .dir ∧ kindAt tree found = none

-- Whatever becomes of a link, only a name that is missing in a directory is absent.
theorem nameiWith_absent (follow : Place → Text → List Text → Found)
    (inner : ∀ place target rest, follow place target rest = .absent found → Missing tree found) (place : Place)
    (parts : List Text) (absent : nameiWith tree follow place parts = .absent found) : Missing tree found := by
  induction parts generalizing place with
  | nil => cases absent
  | cons name rest ih =>
      rw [nameiWith] at absent
      cases inside : isDir tree place with
      | false => simp only [inside,Bool.false_eq_true,if_false] at absent; cases absent
      | true =>
          simp only [inside,if_true] at absent
          cases stepped : step tree place name with
          | reached next => rw [stepped] at absent; exact ih next absent
          | follow target => rw [stepped] at absent; exact inner place target rest absent
          | missing =>
              simp only [stepped] at absent
              split at absent
              · cases absent
                exact ⟨place,name,rfl,isDir_iff.mp inside,missing_name inside stepped⟩
              · cases absent

theorem namei_absent (budget : Nat) (place : Place) (parts : List Text) (absent : namei tree budget place parts = .absent found) :
    Missing tree found := by
  induction budget generalizing place parts with
  | zero => exact nameiWith_absent _ (fun _ _ _ stuck => by cases stuck) place parts absent
  | succ budget ih => exact nameiWith_absent _ (fun _ _ _ later => ih _ _ later) place parts absent

theorem plain_front (one two : Place) (plain : Plain tree (one ++ two)) : Plain tree one := by
  induction two using List.reverseRecOn with
  | nil => rwa [List.append_nil] at plain
  | append_singleton two last ih =>
      apply ih
      have shorter := plain.dropLast
      rwa [← List.append_assoc,List.dropLast_concat] at shorter

theorem plain_last (plain : Plain tree (place ++ [name])) : here name = false ∧ up name = false ∧ linkAt tree (place ++ [name]) = none := by
  generalize whole : place ++ [name] = all at plain
  cases plain with
  | root => simp at whole
  | name _ visible lower solid =>
      obtain ⟨rfl,same⟩ := List.append_inj' whole rfl
      cases same
      refine ⟨visible,lower,?_⟩
      cases known : linkAt tree (place ++ [name]) with
      | none => rfl
      | some target => exact absurd (find_link.mpr known) (solid target)

theorem plain_grows (grown : Grows tree later) (plain : Plain tree place) : Plain later place := by
  induction plain with
  | root => exact .root
  | name _ visible lower solid ih =>
      refine .name ih visible lower ?_
      intro target known
      rw [find_link,grown.links,← find_link] at known
      exact solid target known

theorem kindAt_below (unknown : ¬ kindAt tree place = some .dir) : kindAt tree (place ++ name :: rest) = none := by
  cases known : kindAt tree (place ++ name :: rest) with
  | none => rfl
  | some kind => exact absurd (kindAt_front known) unknown

-- What a call finds under names that no link is among.
theorem plain_namei (budget : Nat) (done rest : Place) (plain : Plain tree (done ++ rest)) (known : kindAt tree done = some kind) :
    (∃ kind, kindAt tree (done ++ rest) = some kind ∧ namei tree budget done rest = .there (done ++ rest)) ∨
      kindAt tree (done ++ rest) = none ∧
        (namei tree budget done rest = .absent (done ++ rest) ∨ ∃ errno, namei tree budget done rest = .failed errno) := by
  induction rest generalizing done kind with
  | nil => exact .inl ⟨kind,by rwa [List.append_nil],by rw [List.append_nil,namei_nil]⟩
  | cons name rest ih =>
      cases inside : isDir tree done with
      | false =>
          refine .inr ⟨kindAt_below ?_,.inr ⟨_,namei_outside budget inside⟩⟩
          rw [← isDir_iff,inside]
          exact Bool.false_ne_true
      | true =>
          have whole : done ++ name :: rest = done ++ [name] ++ rest := (List.append_cons ..)
          rw [whole] at plain ⊢
          obtain ⟨visible,lower,solid⟩ := plain_last (plain_front _ _ plain)
          have solid' : ∀ target, find tree (done ++ [name]) ≠ some (.link target) := by
            intro target linked
            rw [find_link,solid] at linked
            cases linked
          rcases solid_step visible lower solid' with reached | missing
          · rw [namei_reached budget inside reached]
            cases below : kindAt tree (done ++ [name]) with
            | some kind => exact ih (done ++ [name]) plain below
            | none =>
                rw [step,visible,lower] at reached
                unfold kindAt at below
                rw [Option.map_eq_none_iff] at below
                simp only [Bool.false_eq_true,if_false,below] at reached
                cases reached
          · rw [namei_missing budget inside missing]
            have empty := missing_name inside missing
            split
            · rename_i last
              rw [last,List.append_nil]
              exact .inr ⟨empty,.inl rfl⟩
            · refine .inr ⟨?_,.inr ⟨_,rfl⟩⟩
              cases rest with
              | nil => contradiction
              | cons next rest =>
                  apply kindAt_below
                  intro directory
                  cases empty.symm.trans directory

theorem root_known (tree : Node) : kindAt tree [] = some (kindOf tree) := rfl

-- Making directories changes nothing but places where there was nothing.
structure Raised (bound : Place → Prop) (disk later : Disk) : Prop where
  contents : later.contents = disk.contents
  grows : Grows disk.tree later.tree
  fresh : ∀ place, kindAt later.tree place = kindAt disk.tree place ∨
    kindAt disk.tree place = none ∧ kindAt later.tree place = some .dir ∧ bound place

theorem Raised.refl (bound : Place → Prop) (disk : Disk) : Raised bound disk disk := ⟨rfl,.refl _,fun _ => .inl rfl⟩

theorem Raised.trans (one : Raised bound disk middle) (two : Raised bound middle later) : Raised bound disk later := by
  refine ⟨two.contents.trans one.contents,one.grows.trans two.grows,?_⟩
  intro place
  rcases two.fresh place with same | ⟨missing,made,inside⟩
  · rw [same]
    exact one.fresh place
  · rcases one.fresh place with before | ⟨_,there,_⟩
    · exact .inr ⟨before.symm.trans missing,made,inside⟩
    · rw [there] at missing
      cases missing

theorem mkdir_raised (made : disk.mkdir budget front last = .ok later)
    (bounded : ∀ place, namei disk.tree budget [] front = .there place → bound (place ++ [last])) : Raised bound disk later := by
  unfold Disk.mkdir at made
  cases found : namei disk.tree budget [] front with
  | failed errno => rw [found] at made; cases made
  | absent place => rw [found] at made; cases made
  | there place =>
      simp only [found] at made
      split at made
      · rename_i inside
        split at made
        · cases made
        · rename_i free
          cases made
          simp only [Bool.or_eq_true,not_or,Bool.not_eq_true,Option.isSome_eq_false_iff,Option.isNone_iff_eq_none] at free
          have parent := isDir_iff.mp inside
          have missing : kindAt disk.tree (place ++ [last]) = none := by rw [kindAt,free.2]; rfl
          refine ⟨rfl,plant_grows .dir parent missing,?_⟩
          intro other
          have planted := kindAt_plant Blank.dir.leaf disk.tree last place parent missing other
          by_cases same : other = place ++ [last]
          · subst same
            rw [if_pos rfl] at planted
            exact .inr ⟨missing,planted,bounded place found⟩
          · rw [if_neg same] at planted
            exact .inl planted
      · cases made

theorem mkdirs_raised (names : List Text) (bounded : ∀ tree, Grows disk.tree tree → ∀ front last back,
    names.reverse = front ++ last :: back → ∀ place, namei tree budget [] front = .there place → bound (place ++ [last])) :
    Raised bound disk (disk.mkdirs budget names).1 := by
  induction names with
  | nil => exact .refl bound disk
  | cons last front ih =>
      have whole : (last :: front).reverse = front.reverse ++ [last] := List.reverse_cons
      have above : Raised bound disk (disk.mkdirs budget front).1 := by
        apply ih
        intro tree grown first name back same
        apply bounded tree grown first name (back ++ [last])
        rw [whole,same,List.append_assoc,List.cons_append]
      rw [Disk.mkdirs]
      cases one : disk.mkdir budget front.reverse last with
      | ok made => exact mkdir_raised one (bounded _ (.refl _) _ _ [] whole)
      | error errno =>
          cases errno with
          | noEntry =>
              rcases parents : disk.mkdirs budget front with ⟨later,trouble⟩
              rw [parents] at above
              cases trouble with
              | some trouble => exact above
              | none =>
                  dsimp only
                  cases two : later.mkdir budget front.reverse last with
                  | ok made => exact above.trans (mkdir_raised two (bounded _ above.grows _ _ [] whole))
                  | error errno => exact above
          | fileExists => exact .refl bound disk
          | notDirectory => exact .refl bound disk
          | isDirectory => exact .refl bound disk
          | loops => exact .refl bound disk

-- A write leaves its bytes at one place, which was a file or missing, and nothing else.
structure Written (place : Place) (bytes : List UInt8) (disk later : Disk) : Prop where
  contents : ∀ other, later.contents other = if other = place then bytes else disk.contents other
  grows : Grows disk.tree later.tree
  others : ∀ other, other ≠ place → kindAt later.tree other = kindAt disk.tree other
  there : ∃ kind, kindAt later.tree place = some kind
  file : kindAt later.tree place ≠ some .dir

theorem write_plain {disk : Disk} (plain : Plain disk.tree place) (wrote : disk.write budget place bytes = .ok later) :
    Written place bytes disk later := by
  unfold Disk.write at wrote
  rcases plain_namei budget [] place plain (root_known _) with ⟨kind,known,there⟩ | ⟨missing,absent | ⟨errno,failed⟩⟩
  · rw [List.nil_append] at known there
    simp only [there] at wrote
    split at wrote
    · cases wrote
    · rename_i outside
      rw [isDir_iff] at outside
      cases wrote
      exact ⟨fun _ => rfl,.refl _,fun _ _ => rfl,⟨kind,known⟩,outside⟩
  · rw [List.nil_append] at absent
    simp only [absent] at wrote
    cases wrote
    obtain ⟨front,name,rfl,parent,missing⟩ := namei_absent budget [] _ absent
    have planted := kindAt_plant Blank.file.leaf disk.tree name front parent missing
    have made : kindAt (plant .file disk.tree (front ++ [name])) (front ++ [name]) = some .file := by
      rw [planted,if_pos rfl]
      rfl
    refine ⟨fun _ => rfl,plant_grows .file parent missing,?_,⟨_,made⟩,fun same => nomatch made.symm.trans same⟩
    intro other different
    rw [Disk.store,Disk.add,planted,if_neg different]
  · rw [failed] at wrote
    cases wrote

theorem read_plain {disk : Disk} (plain : Plain disk.tree place) (read : disk.read budget place = .ok bytes) :
    ∃ kind, kindAt disk.tree place = some kind ∧ kind ≠ .dir ∧ bytes = disk.contents place := by
  unfold Disk.read at read
  rcases plain_namei budget [] place plain (root_known _) with ⟨kind,known,there⟩ | ⟨_,absent | ⟨errno,failed⟩⟩
  · rw [List.nil_append] at known there
    simp only [there] at read
    split at read
    · cases read
    · rename_i outside
      rw [isDir_iff,known] at outside
      cases read
      exact ⟨kind,known,fun same => outside (congrArg some same),rfl⟩
  · rw [absent] at read; cases read
  · rw [failed] at read; cases read

theorem plain_read {disk : Disk} (budget : Nat) (plain : Plain disk.tree place) (known : kindAt disk.tree place = some kind) (file : kind ≠ .dir) :
    disk.read budget place = .ok (disk.contents place) := by
  have outside : isDir disk.tree place = false := by
    rw [← Bool.not_eq_true,isDir_iff,known]
    exact fun same => file (Option.some.inj same)
  rcases plain_namei budget [] place plain (root_known _) with ⟨_,_,there⟩ | ⟨missing,_⟩
  · rw [List.nil_append] at there
    simp only [Disk.read,there,outside,Bool.false_eq_true,if_false]
  · rw [List.nil_append,known] at missing
    cases missing

end FileDisk
