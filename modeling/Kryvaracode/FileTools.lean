import Kryvaracode.LossyUtf8
import Kryvaracode.ScopedPaths
import Kryvaracode.StablePaths

namespace Kryvaracode.FileTools
open UnicodeText FileTree RealPaths FileDisk ScopedPaths

structure ReadFileArgs where
  path : Text
  maxBytes : Nat := 65536
  named : 1 ≤ path.length
  bounded : 1 ≤ maxBytes ∧ maxBytes ≤ 1048576

structure WriteFileArgs where
  path : Text
  content : Text
  createDirs : Bool := true
  named : 1 ≤ path.length
  bounded : content.length ≤ 1048576

structure ReadAnswer where
  path : Text
  sizeBytes : Nat
  content : Text
  truncated : Bool
  deriving DecidableEq, Repr

structure WriteAnswer where
  path : Text
  bytesWritten : Nat
  deriving DecidableEq, Repr

-- `repr` is how an error of the system quotes a path.
structure Machine where
  setting : Setting
  repr : Text → Text

def Machine.on (machine : Machine) (tree : Node) : Setting :=
  {machine.setting with system := {machine.setting.system with tree := tree}}

def Machine.maxLinks (machine : Machine) : Nat := machine.setting.system.maxLinks

def Machine.osError (machine : Machine) (errno : Errno) (path : PurePath) : Text :=
  errno.text ++ ": ".toList ++ machine.repr path.text

def readFile (machine : Machine) (disk : Disk) (args : ReadFileArgs) : Result ReadAnswer :=
  match resolveScoped (machine.on disk.tree) args.path with
  | .error raised => .error raised
  | .ok path =>
      match disk.read machine.maxLinks path.parts with
      | .error .noEntry => .error (NotFoundError ("File not found: ".toList ++ args.path))
      | .error errno => .error (ServiceUnavailableError ("Cannot read file: ".toList ++ machine.osError errno path))
      | .ok raw =>
          .ok ⟨path.text,raw.length,LossyUtf8.decode (raw.take args.maxBytes),decide (args.maxBytes < raw.length)⟩

def prepared (machine : Machine) (disk : Disk) (createDirs : Bool) (path : PurePath) : Disk × Option (Errno × List Text) :=
  if createDirs then disk.mkdirs machine.maxLinks path.parts.dropLast.reverse else (disk,none)

-- Directories that were made stay when the write itself fails.
def writeFile (machine : Machine) (disk : Disk) (args : WriteFileArgs) : Disk × Result WriteAnswer :=
  match resolveScoped (machine.on disk.tree) args.path with
  | .error raised => (disk,.error raised)
  | .ok path =>
      match prepared machine disk args.createDirs path with
      | (ready,some (errno,parts)) =>
          (ready,.error (ServiceUnavailableError ("Cannot write file: ".toList ++ machine.osError errno ⟨path.root,parts⟩)))
      | (ready,none) =>
          match ready.write machine.maxLinks path.parts (LossyUtf8.encode args.content) with
          | .error errno => (ready,.error (ServiceUnavailableError ("Cannot write file: ".toList ++ machine.osError errno path)))
          | .ok later => (later,.ok ⟨path.text,(LossyUtf8.encode args.content).length⟩)

inductive Call where
  | read (args : ReadFileArgs)
  | write (args : WriteFileArgs)

def Call.path : Call → Text
  | .read args => args.path
  | .write args => args.path

-- What an agent keeps of an answer: the path under which it was served.
def serve (machine : Machine) (disk : Disk) : Call → Disk × Result Text
  | .read args => (disk,(readFile machine disk args).map (·.path))
  | .write args => ((writeFile machine disk args).1,(writeFile machine disk args).2.map (·.path))

def after (machine : Machine) (disk : Disk) (calls : List Call) : Disk :=
  calls.foldl (fun disk call => (serve machine disk call).1) disk

def trace (machine : Machine) : Disk → List Call → List (Call × Result Text)
  | _,[] => []
  | disk,call :: calls => (call,(serve machine disk call).2) :: trace machine (serve machine disk call).1 calls

-- The text last written under a path that an answer spelled.
def lastWritten (place : Place) : Option Text → List (Call × Result Text) → Option Text
  | kept,[] => kept
  | kept,(.write args,.ok path) :: rest =>
      lastWritten place (if place = (PurePath.parse path).parts then some args.content else kept) rest
  | kept,_ :: rest => lastWritten place kept rest

def shown (maxBytes : Nat) (path : Text) (before : List UInt8) : Option Text → ReadAnswer
  | none => ⟨path,before.length,LossyUtf8.decode (before.take maxBytes),decide (maxBytes < before.length)⟩
  | some content =>
      ⟨path,(LossyUtf8.encode content).length,
        LossyUtf8.fitting maxBytes content ++ (if LossyUtf8.torn maxBytes content then [LossyUtf8.replacement] else []),
        decide (maxBytes < (LossyUtf8.encode content).length)⟩

-- No link's target holds a NUL, the project's root is spelled as a path is, and the
-- links on the way to the other roots do not lead back into one another.
structure Sound (machine : Machine) (tree : Node) : Prop where
  targets : ∀ place target, linkAt tree place = some target → '\x00' ∉ target
  project : ∀ name ∈ machine.setting.projectRoot.parts, '/' ∉ name
  roots : ∀ text ∈ machine.setting.tempDirectory :: rootParts machine.setting.agentFileRoots,
    Direct (machine.on tree).system (.parse text)

def Reaches (machine : Machine) (tree : Node) (path : Text) : Prop :=
  Direct (machine.on tree).system (candidate (machine.on tree) path)

variable {machine : Machine} {tree later : Node} {disk : Disk}

theorem parse_apart (text : Text) : ∀ name ∈ (PurePath.parse text).parts, '/' ∉ name := by
  intro name member inside
  exact (names_chars text name (List.mem_of_mem_filter member) _ inside).2 rfl

theorem candidate_apart (sound : Sound machine tree) (path : Text) : ∀ name ∈ (candidate (machine.on tree) path).parts, '/' ∉ name := by
  unfold candidate PurePath.join
  split
  · exact parse_apart path
  · exact List.forall_mem_append.mpr ⟨sound.project,parse_apart path⟩

theorem direct_grows (grown : Grows tree later) (path : PurePath) :
    Direct (machine.on later).system path ↔ Direct (machine.on tree).system path := by
  unfold Direct
  have count : linkCount (machine.on later).system.tree = linkCount (machine.on tree).system.tree := grown.count
  have same : joinReal (machine.on later).system.tree = joinReal (machine.on tree).system.tree := by
    funext depth
    exact joinReal_grows grown depth
  rw [count,same]
  rfl

theorem sound_grows (grown : Grows tree later) (sound : Sound machine tree) : Sound machine later := by
  refine ⟨?_,sound.project,fun text member => (direct_grows grown _).mpr (sound.roots text member)⟩
  intro place target linked
  rw [grown.links] at linked
  exact sound.targets place target linked

theorem resolved_grows (grown : Grows tree later) (path : PurePath) (direct : Direct (machine.on tree).system path) :
    resolved (machine.on later) path = resolved (machine.on tree) path := by
  have real : ∀ parts, realpath (machine.on later).system.tree parts = realpath (machine.on tree).system.tree parts :=
    realpath_grows grown
  have same : resolve (machine.on later).system path = resolve (machine.on tree).system path := by
    rw [direct_resolve direct,direct_resolve ((direct_grows grown path).mpr direct),real]
    rfl
  rw [resolved,resolved,same]

theorem mapM_same {first second : α → Result β} (entries : List α) (same : ∀ entry ∈ entries, first entry = second entry) :
    entries.mapM first = entries.mapM second := by
  induction entries with
  | nil => rfl
  | cons entry entries ih =>
      rw [List.forall_mem_cons] at same
      rw [List.mapM_cons,List.mapM_cons,same.1,ih same.2]

theorem fileRoots_grows (sound : Sound machine tree) (grown : Grows tree later) :
    fileRoots (machine.on later) = fileRoots (machine.on tree) := by
  have direct := sound.roots
  rw [List.forall_mem_cons] at direct
  have extra : ((rootParts (machine.on later).agentFileRoots).mapM fun part => resolved (machine.on later) (.parse part)) =
      (rootParts (machine.on tree).agentFileRoots).mapM fun part => resolved (machine.on tree) (.parse part) :=
    mapM_same _ fun part member => resolved_grows grown _ (direct.2 part member)
  unfold fileRoots
  rw [extra]
  change (resolved (machine.on later) (.parse machine.setting.tempDirectory) >>= _) = _
  rw [resolved_grows grown _ direct.1]
  rfl

-- A path under which a file was served.
structure Served (machine : Machine) (tree : Node) (path : Text) (place : Place) : Prop where
  spelled : path = PurePath.text ⟨"/".toList,place⟩
  plain : Plain tree place
  apart : ∀ name ∈ place, '/' ∉ name ∧ '\x00' ∉ name
  rooted : ∃ roots, fileRoots (machine.on tree) = .ok roots ∧ allowed roots ⟨"/".toList,place⟩ = true

theorem Served.grows (sound : Sound machine tree) (grown : Grows tree later) (served : Served machine tree path place) :
    Served machine later path place := by
  refine ⟨served.spelled,plain_grows grown served.plain,served.apart,?_⟩
  rw [fileRoots_grows sound grown]
  exact served.rooted

theorem Served.parsed (served : Served machine tree path place) : PurePath.parse path = ⟨"/".toList,place⟩ := by
  rw [served.spelled]
  exact parse_place place (plain_names served.plain) fun name member => (served.apart name member).1

theorem resolveScoped_served (sound : Sound machine tree) (reaches : Reaches machine tree pathStr)
    (returned : resolveScoped (machine.on tree) pathStr = .ok path) : ∃ place, path = ⟨"/".toList,place⟩ ∧
      Served machine tree path.text place := by
  obtain ⟨roots,known,_,real,inside⟩ := resolveScoped_parts returned
  have final : resolve (machine.on tree).system (candidate (machine.on tree) pathStr) = .ok path := by
    unfold resolved at real
    split at real
    · rename_i found same
      cases real
      exact same
    · cases real
    · cases real
  obtain ⟨place,rfl,plain,apart⟩ := direct_real reaches final sound.targets (candidate_apart sound pathStr)
  exact ⟨place,rfl,rfl,plain,apart,roots,known,inside⟩

theorem probe_plain (setting : Setting) (front rest : List Text) (plain : Plain setting.system.tree (front ++ rest)) :
    probe setting front rest = false := by
  induction rest generalizing front with
  | nil => rfl
  | cons part rest ih =>
      rw [List.append_cons] at plain
      rw [probe,plain_unlinked _ (plain_front _ _ plain),ih _ plain]
      rfl

-- The path of an answer leads to the same file again.
theorem served_again (served : Served machine tree path place) :
    resolveScoped (machine.on tree) path = .ok ⟨"/".toList,place⟩ := by
  obtain ⟨roots,known,inside⟩ := served.rooted
  have same : candidate (machine.on tree) path = ⟨"/".toList,place⟩ := by
    rw [candidate,served.parsed]
    rfl
  have unlinked : linked (machine.on tree) roots ⟨"/".toList,place⟩ = false := by
    unfold linked
    split
    · rename_i root rest found
      apply probe_plain
      rw [← (firstRoot_parts found).2]
      exact served.plain
    · rfl
  have real : resolved (machine.on tree) ⟨"/".toList,place⟩ = .ok ⟨"/".toList,place⟩ := by
    have whole : resolve (machine.on tree).system ⟨"/".toList,place⟩ = .ok ⟨"/".toList,place⟩ :=
      resolve_plain _ _ served.plain fun name member => (served.apart name member).2
    rw [resolved,whole]
  unfold resolveScoped
  rw [known,same]
  change (if linked (machine.on tree) roots _ then _ else _) = _
  rw [unlinked,real]
  change (if allowed roots _ then _ else _) = _
  rw [inside]
  rfl

theorem prepared_raised (machine : Machine) (createDirs : Bool) (plain : Plain disk.tree place) :
    Raised (· <+: place) disk (prepared machine disk createDirs ⟨"/".toList,place⟩).1 := by
  unfold prepared
  split
  · apply mkdirs_raised
    intro tree grown front last back same found there
    rw [List.reverse_reverse] at same
    have inside : front ++ last :: back <+: place := same ▸ List.dropLast_prefix place
    obtain ⟨rest,whole⟩ := inside
    have reached : Plain tree front := plain_front front (last :: back ++ rest) (by
      rw [← List.append_assoc,whole]
      exact plain_grows grown plain)
    rcases plain_namei machine.maxLinks [] front reached (root_known _) with ⟨_,_,same⟩ | ⟨_,absent | ⟨errno,failed⟩⟩
    · rw [there] at same
      cases same
      exact ⟨back ++ rest,by simp [← whole]⟩
    · rw [there] at absent; cases absent
    · rw [there] at failed; cases failed
  · exact .refl _ disk

-- What a call of write_file can do.
inductive Wrote (machine : Machine) (disk : Disk) (content : Text) : Disk → Result Text → Prop where
  | refused (raised : Failure) : Wrote machine disk content disk (.error raised)
  | tried (served : Served machine disk.tree path place) (made : Raised (· <+: place) disk ready) (raised : Failure) :
      Wrote machine disk content ready (.error raised)
  | done (served : Served machine disk.tree path place) (made : Raised (· <+: place) disk ready)
      (written : Written place (LossyUtf8.encode content) ready final) : Wrote machine disk content final (.ok path)

theorem writeFile_wrote (sound : Sound machine disk.tree) (args : WriteFileArgs) (reaches : Reaches machine disk.tree args.path) :
    Wrote machine disk args.content (writeFile machine disk args).1 ((writeFile machine disk args).2.map (·.path)) := by
  unfold writeFile
  cases returned : resolveScoped (machine.on disk.tree) args.path with
  | error raised => exact .refused raised
  | ok path =>
      obtain ⟨place,rfl,served⟩ := resolveScoped_served sound reaches returned
      have made := prepared_raised machine args.createDirs served.plain
      dsimp only
      rcases parents : prepared machine disk args.createDirs ⟨"/".toList,place⟩ with ⟨ready,trouble⟩
      rw [parents] at made
      cases trouble with
      | some trouble => exact .tried served made _
      | none =>
          dsimp only
          cases outcome : ready.write machine.maxLinks place (LossyUtf8.encode args.content) with
          | error errno => exact .tried served made _
          | ok later =>
              exact .done served made (write_plain (plain_grows made.grows served.plain) outcome)

theorem readFile_served (sound : Sound machine disk.tree) (args : ReadFileArgs) (reaches : Reaches machine disk.tree args.path)
    (returned : readFile machine disk args = .ok answer) : ∃ place kind, Served machine disk.tree answer.path place ∧
      kindAt disk.tree place = some kind ∧ kind ≠ .dir ∧ answer = shown args.maxBytes answer.path (disk.contents place) none := by
  unfold readFile at returned
  cases known : resolveScoped (machine.on disk.tree) args.path with
  | error raised => rw [known] at returned; cases returned
  | ok path =>
      obtain ⟨place,rfl,served⟩ := resolveScoped_served sound reaches known
      simp only [known] at returned
      cases read : disk.read machine.maxLinks place with
      | error errno => rw [read] at returned; cases errno <;> cases returned
      | ok raw =>
          rw [read] at returned
          cases returned
          obtain ⟨kind,there,file,same⟩ := read_plain served.plain read
          exact ⟨place,kind,served,there,file,by rw [same]; rfl⟩

-- Inside a root, or a directory that was missing on the way to one.
def Within (machine : Machine) (start disk : Disk) (place : Place) : Prop :=
  ∃ roots, fileRoots (machine.on start.tree) = .ok roots ∧ ∃ root ∈ roots, root.parts <+: place ∨
    place <+: root.parts ∧ kindAt start.tree place = none ∧ kindAt disk.tree place = some .dir

-- Either nothing became of a place or the tools may change it.
def Confined (machine : Machine) (start disk : Disk) (place : Place) : Prop :=
  kindAt disk.tree place = kindAt start.tree place ∧ disk.contents place = start.contents place ∨ Within machine start disk place

theorem Within.grows (grown : Grows disk.tree final.tree) (within : Within machine start disk place) :
    Within machine start final place := by
  obtain ⟨roots,known,root,member,below | ⟨above,missing,made⟩⟩ := within
  · exact ⟨roots,known,root,member,.inl below⟩
  · exact ⟨roots,known,root,member,.inr ⟨above,missing,grown.keeps made⟩⟩

theorem allowed_prefix (inside : allowed roots path = true) : ∃ root ∈ roots, root.parts <+: path.parts := by
  unfold allowed at inside
  obtain ⟨root,member,found⟩ := List.any_eq_true.mp inside
  refine ⟨root,member,?_⟩
  rw [Bool.or_eq_true,decide_eq_true_eq] at found
  rcases found with rfl | relative
  · exact List.prefix_rfl
  · obtain ⟨rest,relative⟩ := Option.isSome_iff_exists.mp relative
    exact ⟨rest,(relativeTo_parts relative).symm⟩

-- How a disk and what was answered stand to the disk that a run began with.
structure Kept (machine : Machine) (start disk : Disk) (steps : List (Call × Result Text)) : Prop where
  grows : Grows start.tree disk.tree
  served : ∀ step ∈ steps, ∀ path, step.2 = .ok path →
    ∃ place kind, Served machine disk.tree path place ∧ kindAt disk.tree place = some kind ∧ kind ≠ .dir
  bytes : ∀ place, disk.contents place =
    match lastWritten place none steps with
    | some content => LossyUtf8.encode content
    | none => start.contents place
  confined : ∀ place, Confined machine start disk place

theorem lastWritten_append (place : Place) (kept : Option Text) (one two : List (Call × Result Text)) :
    lastWritten place kept (one ++ two) = lastWritten place (lastWritten place kept one) two := by
  fun_induction lastWritten place kept one <;> simp_all [lastWritten]

theorem raised_confined (grown : Grows start.tree disk.tree) (confined : ∀ place, Confined machine start disk place)
    (sound : Sound machine start.tree) (served : Served machine disk.tree path target) (made : Raised (· <+: target) disk ready)
    (place : Place) : Confined machine start ready place := by
  rcases made.fresh place with same | ⟨missing,there,above⟩
  · rcases confined place with ⟨kind,contents⟩ | within
    · exact .inl ⟨same.trans kind,by rw [made.contents,contents]⟩
    · exact .inr (within.grows made.grows)
  · obtain ⟨roots,known,inside⟩ := served.rooted
    obtain ⟨root,member,below⟩ := allowed_prefix inside
    rw [fileRoots_grows sound grown] at known
    refine .inr ⟨roots,known,root,member,?_⟩
    rcases List.prefix_or_prefix_of_prefix below above with under | ahead
    · exact .inl under
    · refine .inr ⟨ahead,?_,there⟩
      cases before : kindAt start.tree place with
      | none => rfl
      | some kind => rw [grown.keeps before] at missing; cases missing

theorem reaches_grows (grown : Grows tree later) (path : Text) :
    Reaches machine later path ↔ Reaches machine tree path := direct_grows grown _

theorem read_kept (sound : Sound machine start.tree) (kept : Kept machine start disk steps) (args : ReadFileArgs)
    (reaches : Reaches machine start.tree args.path) :
    Kept machine start disk (steps ++ [(.read args,(readFile machine disk args).map (·.path))]) := by
  refine ⟨kept.grows,?_,?_,kept.confined⟩
  · refine List.forall_mem_append.mpr ⟨kept.served,List.forall_mem_singleton.mpr ?_⟩
    intro path answered
    cases returned : readFile machine disk args with
    | error raised => rw [returned] at answered; cases answered
    | ok answer =>
        rw [returned] at answered
        cases answered
        obtain ⟨place,kind,served,known,file,_⟩ :=
          readFile_served (sound_grows kept.grows sound) args ((reaches_grows kept.grows _).mpr reaches) returned
        exact ⟨place,kind,served,known,file⟩
  · intro place
    rw [lastWritten_append]
    cases readFile machine disk args <;> exact kept.bytes place

theorem failed_kept (sound : Sound machine start.tree) (kept : Kept machine start disk steps) (args : WriteFileArgs)
    (contents : ready.contents = disk.contents) (grown : Grows disk.tree ready.tree)
    (confined : ∀ place, Confined machine start ready place) (raised : Failure) :
    Kept machine start ready (steps ++ [(.write args,.error raised)]) := by
  refine ⟨kept.grows.trans grown,?_,?_,confined⟩
  · refine List.forall_mem_append.mpr ⟨?_,List.forall_mem_singleton.mpr fun path answered => nomatch answered⟩
    intro step member path answered
    obtain ⟨place,kind,served,known,file⟩ := kept.served step member path answered
    exact ⟨place,kind,served.grows (sound_grows kept.grows sound) grown,grown.keeps known,file⟩
  · intro place
    rw [lastWritten_append,contents]
    exact kept.bytes place

theorem write_kept (sound : Sound machine start.tree) (kept : Kept machine start disk steps) (args : WriteFileArgs)
    (reaches : Reaches machine start.tree args.path) : Kept machine start (writeFile machine disk args).1
      (steps ++ [(.write args,(writeFile machine disk args).2.map (·.path))]) := by
  have settled := sound_grows kept.grows sound
  have wrote := writeFile_wrote settled args ((reaches_grows kept.grows _).mpr reaches)
  generalize (writeFile machine disk args).1 = final at wrote ⊢
  generalize (writeFile machine disk args).2.map (·.path) = answered at wrote ⊢
  cases wrote with
  | refused raised => exact failed_kept sound kept args rfl (.refl _) kept.confined raised
  | tried served made raised =>
      exact failed_kept sound kept args made.contents made.grows (raised_confined kept.grows kept.confined sound served made) raised
  | done served made written =>
      rename_i path target ready
      have grown := made.grows.trans written.grows
      have confined := raised_confined kept.grows kept.confined sound served made
      have final_served := served.grows settled grown
      refine ⟨kept.grows.trans grown,?_,?_,?_⟩
      · refine List.forall_mem_append.mpr ⟨?_,List.forall_mem_singleton.mpr ?_⟩
        · intro step member path answered
          obtain ⟨place,kind,served,known,file⟩ := kept.served step member path answered
          exact ⟨place,kind,served.grows settled grown,grown.keeps known,file⟩
        · intro other answered
          cases answered
          obtain ⟨kind,known⟩ := written.there
          exact ⟨target,kind,final_served,known,fun same => written.file (known.trans (congrArg some same))⟩
      · intro place
        rw [written.contents,made.contents,lastWritten_append,lastWritten,lastWritten,final_served.parsed]
        by_cases same : place = target
        · rw [if_pos same,if_pos same]
        · rw [if_neg same,if_neg same]
          exact kept.bytes place
      · intro place
        by_cases same : place = target
        · subst same
          obtain ⟨roots,known,inside⟩ := served.rooted
          obtain ⟨root,member,below⟩ := allowed_prefix inside
          rw [fileRoots_grows sound kept.grows] at known
          exact .inr ⟨roots,known,root,member,.inl below⟩
        · rcases confined place with ⟨kind,contents⟩ | within
          · exact .inl ⟨(written.others place same).trans kind,by rw [written.contents,if_neg same,contents]⟩
          · exact .inr (within.grows written.grows)

theorem after_snoc (calls : List Call) (call : Call) :
    after machine disk (calls ++ [call]) = (serve machine (after machine disk calls) call).1 := by
  rw [after,List.foldl_append]
  rfl

theorem trace_snoc (calls : List Call) (call : Call) : trace machine disk (calls ++ [call]) =
    trace machine disk calls ++ [(call,(serve machine (after machine disk calls) call).2)] := by
  induction calls generalizing disk with
  | nil => rfl
  | cons first calls ih => rw [List.cons_append,trace,ih,trace]; rfl

theorem run_kept (sound : Sound machine disk.tree) (calls : List Call)
    (reached : ∀ call ∈ calls, Reaches machine disk.tree call.path) :
    Kept machine disk (after machine disk calls) (trace machine disk calls) := by
  induction calls using List.reverseRecOn with
  | nil =>
      exact ⟨.refl _,List.forall_mem_nil _,fun _ => rfl,fun _ => .inl ⟨rfl,rfl⟩⟩
  | append_singleton calls call ih =>
      obtain ⟨before,last⟩ := List.forall_mem_append.mp reached
      have reaches := last call (.head _)
      rw [after_snoc,trace_snoc]
      cases call with
      | read args => exact read_kept sound (ih before) args reaches
      | write args => exact write_kept sound (ih before) args reaches

theorem shown_bytes (maxBytes : Nat) (path : Text) (kept : Option Text) (before bytes : List UInt8)
    (same : bytes = match kept with | some content => LossyUtf8.encode content | none => before) :
    shown maxBytes path bytes none = shown maxBytes path before kept := by
  subst same
  cases kept with
  | none => rfl
  | some content => simp only [shown,LossyUtf8.decode_take]

-- A read with room for all of a text shows it whole.
theorem shown_whole (path : Text) (before : List UInt8) (fits : (LossyUtf8.encode content).length ≤ maxBytes) :
    shown maxBytes path before (some content) = ⟨path,(LossyUtf8.encode content).length,content,false⟩ := by
  obtain ⟨same,clean⟩ := LossyUtf8.fitting_whole maxBytes content fits
  rw [shown,same,clean,if_neg Bool.false_ne_true,List.append_nil,decide_eq_false (Nat.not_lt.mpr fits)]

def notesMachine : Machine := ⟨linkedSetting,id⟩

def notesDisk : Disk := ⟨linkedProject,fun _ => []⟩

def notesFile : Text := "/proj/inner/notes/a".toList

def writeNotes : Call := .write {path := "inner/notes/a".toList,content := "hé".toList,named := by decide,bounded := by decide}

def writeOutside : Call := .write {path := "/other/a".toList,content := "!".toList,named := by decide,bounded := by decide}

def someNotes : ReadFileArgs := {path := notesFile,maxBytes := 2,named := by decide,bounded := by decide}

theorem notes_sound : Sound notesMachine notesDisk.tree := by
  refine ⟨?_,by decide,?_⟩
  · intro place target linked
    have only : ∀ target ∈ linkTargets notesDisk.tree, '\x00' ∉ target := by decide
    exact only target (linkAt_targets _ _ linked)
  · have temp : Direct (notesMachine.on notesDisk.tree).system (.parse "/tmp".toList) := direct_iff.mpr (by decide +kernel)
    have none : rootParts notesMachine.setting.agentFileRoots = [] := by decide +kernel
    rw [none]
    exact List.forall_mem_singleton.mpr temp

end Kryvaracode.FileTools
