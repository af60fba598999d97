import Kryvaracode.Runs
import Kryvaracode.Exceptions

namespace Kryvaracode.Datasets
open Runs UnicodeText

def ClickException (message : Text) : Failure := ⟨.other "ClickException".toList,message⟩

-- The file formats by suffix.
def formatBySuffix (suffix : Text) : Option Text :=
  [(".csv".toList,"csv".toList),(".parquet".toList,"parquet".toList),(".json".toList,"json".toList)].lookup suffix

-- A body that the schema has accepted.
structure DatasetCreate where
  name : Text
  description : Option Text
  storageUri : Text
  format : Text
  rowCount : Option Int
  columns : Option (List Text)
  name_fits : 1 ≤ name.length ∧ name.length ≤ 100
  description_fits : ∀ text ∈ description, text.length ≤ 5000
  uri_fits : 1 ≤ storageUri.length ∧ storageUri.length ≤ 500
  format_known : format ∈ ["csv".toList,"parquet".toList,"json".toList]
  count_fits : ∀ count ∈ rowCount, 0 ≤ count

-- The fields that an upload gives; the others have their defaults.
def DatasetCreate.parse (name : Text) (description : Option Text) (storageUri format : Text) : Result DatasetCreate :=
  haveI := text_lawful
  if name_fits : 1 ≤ name.length ∧ name.length ≤ 100 then
    if description_fits : ∀ text ∈ description, text.length ≤ 5000 then
      if uri_fits : 1 ≤ storageUri.length ∧ storageUri.length ≤ 500 then
        if format_known : format ∈ ["csv".toList,"parquet".toList,"json".toList] then
          .ok ⟨name,description,storageUri,format,none,none,name_fits,description_fits,uri_fits,format_known,nofun⟩
        else .error ⟨.other "ValidationError".toList,"format".toList⟩
      else .error ⟨.other "ValidationError".toList,"storage_uri".toList⟩
    else .error ⟨.other "ValidationError".toList,"description".toList⟩
  else .error ⟨.other "ValidationError".toList,"name".toList⟩

structure Dataset where
  id : Int
  name : Text
  description : Option Text
  storageUri : Text
  format : Text
  rowCount : Option Int
  columns : Option (List Text)
  status : Text
  createdBy : Int

def DatasetCreate.row (data : DatasetCreate) (id userId : Int) : Dataset :=
  ⟨id,data.name,data.description,data.storageUri,data.format,data.rowCount,data.columns,"registered".toList,userId⟩

-- `Path(text).name`, of which the suffix is what the last dot starts, unless it is
-- the first or the last character.
def pathName (path : Text) : Text :=
  ((path.splitOn '/').filter fun part => decide (part ≠ [] ∧ part ≠ ['.'])).getLast?.getD []

def suffixLength (name : Text) : Nat :=
  let tail := name.reverse.takeWhile fun c => c ≠ '.'
  if tail = [] ∨ name.length ≤ tail.length + 1 then 0 else tail.length + 1

def pathSuffix (path : Text) : Text := let name := pathName path; name.drop (name.length - suffixLength name)
def pathStem (path : Text) : Text := let name := pathName path; name.take (name.length - suffixLength name)

example : (pathStem "up/a.tar.csv".toList,pathSuffix "up/a.tar.csv".toList) = ("a.tar".toList,".csv".toList) := by decide
example : (pathStem ".csv".toList,pathSuffix ".csv".toList) = (".csv".toList,[]) := by decide

-- `((name or stem).strip() or "upload")[:100]`
def uploadName (name : Option Text) (stem : Text) : Text :=
  let chosen := strip (if truthy name then name.getD [] else stem)
  (if chosen = [] then "upload".toList else chosen).take 100

def maxUploadSize : Nat := 50 * 1024 * 1024

-- What the four surfaces are given. The actor of the command line is looked up, and
-- its path resolved, outside of what is modelled here.
inductive Registration where
  | post (dataset : DatasetCreate) (userId : Int)
  | upload (filename name : Option Text) (content : List UInt8) (storagePath : Text) (userId : Int)
  | tool (args : DatasetCreate) (user : Option Int)
  | commandLine (filePath : Text) (name description : Option Text) (resolved : Text) (actor : Result Int)

section Surfaces
variable (tables : Tables)

def unknownOr (suffix : Text) : Text := if suffix = [] then "unknown".toList else suffix

-- The name that is looked up, or what comes before the lookup.
def Registration.name : Registration → Result Text
  | .post dataset _ => .ok dataset.name
  | .upload filename name _ _ _ =>
      let suffix := tables.lower (pathSuffix (filename.getD []))
      match formatBySuffix suffix with
      | none => .error (ValidationFailedError ("Unsupported file format '".toList ++ unknownOr suffix ++
          "'; expected .csv, .parquet or .json".toList))
      | some _ => .ok (uploadName name (pathStem (filename.getD [])))
  | .tool args user =>
      if user.isSome then .ok args.name else .error (ForbiddenError "This tool requires an authenticated user".toList)
  | .commandLine filePath name _ _ _ =>
      let suffix := tables.lower (pathSuffix filePath)
      match formatBySuffix suffix with
      | none => .error (ClickException ("Unsupported file format ".toList ++ unknownOr suffix ++
          "; expected .csv, .parquet or .json".toList))
      | some _ => .ok (uploadName name (pathStem filePath))

def Registration.conflict (name : Text) : Registration → Failure
  | .commandLine _ _ _ _ _ => ClickException ("Dataset already exists: ".toList ++ name)
  | .post _ _ | .upload _ _ _ _ _ | .tool _ _ => ConflictError ("Dataset '".toList ++ name ++ "' already exists".toList)

-- What is inserted, with its owner, once the lookup has found nothing.
def Registration.data (name : Text) : Registration → Result (DatasetCreate × Int)
  | .post dataset userId => .ok (dataset,userId)
  | .upload filename _ content storagePath userId =>
      if maxUploadSize < content.length then
        .error (ValidationFailedError ("File size ".toList ++ (toString content.length).toList ++
          " bytes exceeds maximum allowed size of ".toList ++ (toString maxUploadSize).toList ++ " bytes (50 MB)".toList))
      else if content.length = 0 then .error (ValidationFailedError "Empty file not allowed".toList)
      else
        (DatasetCreate.parse name none storagePath ((formatBySuffix (tables.lower (pathSuffix (filename.getD [])))).getD [])).map
          fun data => (data,userId)
  | .tool args user => .ok (args,user.getD 0)
  | .commandLine filePath _ description resolved actor =>
      actor.bind fun userId =>
        (DatasetCreate.parse name description resolved ((formatBySuffix (tables.lower (pathSuffix filePath))).getD [])).map
          fun data => (data,userId)

theorem parse_name {name : Text} {description : Option Text} {storageUri format : Text} {data : DatasetCreate}
    (parsed : DatasetCreate.parse name description storageUri format = .ok data) : data.name = name := by
  unfold DatasetCreate.parse at parsed
  split_ifs at parsed
  cases parsed
  rfl

-- The name inserted is the name looked up.
theorem data_name {registration : Registration} {name : Text} {data : DatasetCreate} {userId : Int}
    (named : registration.name tables = .ok name) (gives : registration.data tables name = .ok (data,userId)) :
    data.name = name := by
  have parses : ∀ {parsed : Result DatasetCreate} {owner : Int}, (parsed.map fun data => (data,owner)) = .ok (data,userId) →
      parsed = .ok data := by
    intro parsed owner same
    cases parsed with
    | error exc => cases same
    | ok value =>
        cases same
        rfl
  cases registration with
  | post dataset owner =>
      cases named
      cases gives
      rfl
  | upload filename given content storagePath owner =>
      unfold Registration.data at gives
      dsimp only at gives
      split_ifs at gives
      exact parse_name (parses gives)
  | tool args user =>
      unfold Registration.name at named
      dsimp only at named
      split_ifs at named
      cases named
      cases gives
      rfl
  | commandLine filePath given description resolved actor =>
      cases actor with
      | error exc => cases gives
      | ok owner => exact parse_name (parses gives)

inductive Stage where
  | checking
  | inserting (data : DatasetCreate) (userId : Int)
  | committing (row : Dataset)
  | registered (row : Dataset)
  | refused (exc : Failure)

structure Call where
  registration : Registration
  stage : Stage

-- A row takes its id from a sequence when it is inserted.
inductive Act where
  | check
  | insert (id : Int)
  | commit
  | abort

structure World where
  committed : List Dataset
  calls : List Call

inductive Label where
  | register (registration : Registration)
  | act (call : Nat) (act : Act)

-- The lookup sees what is committed.
def check (committed : List Dataset) (registration : Registration) : Stage :=
  match registration.name tables with
  | .error exc => .refused exc
  | .ok name =>
      if committed.any fun row => decide (row.name = name) then .refused (registration.conflict name)
      else
        match registration.data tables name with
        | .error exc => .refused exc
        | .ok (data,userId) => .inserting data userId

-- No constraint of the table is on the name.
def act (committed : List Dataset) (registration : Registration) : Stage → Act → List Dataset × Stage
  | .checking,.check => (committed,check tables committed registration)
  | .inserting data userId,.insert id => (committed,.committing (data.row id userId))
  | .committing row,.commit => (committed ++ [row],.registered row)
  | .registered row,_ => (committed,.registered row)
  | .refused exc,_ => (committed,.refused exc)
  | _,.abort => (committed,.refused (RuntimeError []))
  | stage,_ => (committed,stage)

def World.settle (world : World) (call : Nat) (registration : Registration) (after : List Dataset × Stage) : World :=
  ⟨after.1,world.calls.set call ⟨registration,after.2⟩⟩

def World.step (world : World) : Label → World
  | .register registration => {world with calls := world.calls ++ [⟨registration,.checking⟩]}
  | .act call does =>
      match world.calls[call]? with
      | none => world
      | some called => world.settle call called.registration (act tables world.committed called.registration called.stage does)
end Surfaces

-- A table in which each name stands once.
structure Table where
  rows : List Dataset
  distinct : (rows.map Dataset.name).Nodup

def World.init (table : Table) : World := ⟨table.rows,[]⟩

def NamesUnique (world : World) : Prop := (world.committed.map Dataset.name).Nodup

-- A commit finds that its name is absent still.
def NameAbsent (world : World) : Label → Prop
  | .register _ => True
  | .act call does => ∀ registration row, world.calls[call]? = some ⟨registration,.committing row⟩ → does = .commit →
      row.name ∉ world.committed.map Dataset.name

-- All that a statement can do to what is committed.
theorem act_cases (tables : Tables) (committed : List Dataset) (registration : Registration) (stage : Stage) (does : Act) :
    ((act tables committed registration stage does).1 = committed ∧ ∀ row, stage = .committing row → does ≠ .commit) ∨
      ∃ row, stage = .committing row ∧ does = .commit ∧ (act tables committed registration stage does).1 = committed ++ [row] := by
  cases stage with
  | checking => exact .inl ⟨by cases does <;> rfl,fun _ same => nomatch same⟩
  | inserting data userId => exact .inl ⟨by cases does <;> rfl,fun _ same => nomatch same⟩
  | committing row =>
      cases does with
      | commit => exact .inr ⟨row,rfl,rfl,rfl⟩
      | check | insert id | abort => exact .inl ⟨rfl,fun _ _ => nofun⟩
  | registered row => exact .inl ⟨by cases does <;> rfl,fun _ same => nomatch same⟩
  | refused exc => exact .inl ⟨by cases does <;> rfl,fun _ same => nomatch same⟩

theorem append_unique {rows : List Dataset} (distinct : (rows.map Dataset.name).Nodup) (row : Dataset) :
    ((rows ++ [row]).map Dataset.name).Nodup ↔ row.name ∉ rows.map Dataset.name := by
  rw [List.map_append,List.map_singleton,List.nodup_append]
  refine ⟨?_,?_⟩
  · intro parts listed
    exact parts.2.2 row.name listed row.name (List.mem_singleton.mpr rfl) rfl
  · intro absent
    refine ⟨distinct,List.nodup_singleton _,?_⟩
    intro name listed other last same
    rw [List.mem_singleton.mp last] at same
    exact absent (same ▸ listed)

theorem step_unique (tables : Tables) (world : World) (label : Label) (unique : NamesUnique world) :
    NamesUnique (world.step tables label) ↔ NameAbsent world label := by
  cases label with
  | register registration => exact iff_of_true unique trivial
  | act call does =>
      unfold World.step NameAbsent
      dsimp only
      cases found : world.calls[call]? with
      | none => exact iff_of_true unique fun _ _ same => nomatch same
      | some called =>
          obtain ⟨registration,stage⟩ := called
          unfold NamesUnique World.settle
          dsimp only
          rcases act_cases tables world.committed registration stage does with ⟨same,other⟩ | ⟨row,rfl,rfl,added⟩
          · rw [same]
            refine iff_of_true unique ?_
            intro asked row its commits
            cases its
            exact absurd commits (other row rfl)
          · rw [added,append_unique unique]
            refine ⟨?_,fun absent => absent registration row rfl rfl⟩
            intro absent asked other its _
            cases its
            exact absent

theorem check_cases (tables : Tables) (committed : List Dataset) (registration : Registration) :
    (∃ exc, check tables committed registration = .refused exc) ∨
      ∃ data userId, check tables committed registration = .inserting data userId ∧
        data.name ∉ committed.map Dataset.name := by
  unfold check
  cases named : registration.name tables with
  | error exc => exact .inl ⟨exc,rfl⟩
  | ok name =>
      dsimp only
      split
      next => exact .inl ⟨_,rfl⟩
      next absent =>
        cases gives : registration.data tables name with
        | error exc => exact .inl ⟨exc,rfl⟩
        | ok pair =>
            refine .inr ⟨pair.1,pair.2,rfl,?_⟩
            rw [data_name tables named gives]
            intro listed
            obtain ⟨row,held,same⟩ := List.mem_map.mp listed
            exact absent (List.any_eq_true.mpr ⟨row,held,decide_eq_true same⟩)

theorem settle_found {world : World} {call : Nat} {called : Call} (found : world.calls[call]? = some called)
    (registration : Registration) (after : List Dataset × Stage) :
    (world.settle call registration after).calls[call]? = some ⟨registration,after.2⟩ :=
  List.getElem?_set_self (List.getElem?_eq_some_iff.mp found).1

theorem step_act (tables : Tables) {world : World} {call : Nat} {called : Call} (found : world.calls[call]? = some called)
    (does : Act) : world.step tables (.act call does) =
      world.settle call called.registration (act tables world.committed called.registration called.stage does) := by
  unfold World.step
  dsimp only
  rw [found]

-- A registration in whose way nothing comes keeps the names unique.
theorem alone_unique (tables : Tables) {world : World} {call : Nat} {registration : Registration}
    (found : world.calls[call]? = some ⟨registration,.checking⟩) (unique : NamesUnique world) (id : Int) :
    NamesUnique (run (World.step tables) world [.act call .check,.act call (.insert id),.act call .commit]) := by
  have checked : world.step tables (.act call .check) =
      world.settle call registration (world.committed,check tables world.committed registration) := step_act tables found .check
  have listed := settle_found found registration (world.committed,check tables world.committed registration)
  have inserted := step_act tables listed (.insert id)
  have unchanged : ∀ does, does ≠ .commit → ∀ before : World, NamesUnique before → NamesUnique (before.step tables (.act call does)) :=
    fun does apart before held => (step_unique tables before _ held).mpr fun _ _ _ commits => absurd commits apart
  rw [run_cons,run_cons,run_cons,run_nil,
    step_unique tables _ _ (unchanged (.insert id) nofun _ (unchanged .check nofun world unique)),checked]
  intro asked row its _
  rw [inserted] at its ⊢
  rw [settle_found listed] at its
  rcases check_cases tables world.committed registration with ⟨exc,refused⟩ | ⟨data,userId,passed,absent⟩
  · rw [refused] at its
    cases its
  · rw [passed] at its ⊢
    cases its
    exact absent

def posted : DatasetCreate where
  name := ['a']
  description := none
  storageUri := ['u']
  format := "csv".toList
  rowCount := none
  columns := none
  name_fits := by decide
  description_fits := nofun
  uri_fits := by decide
  format_known := by decide
  count_fits := nofun

-- A request and an upload that look the name up before either has committed.
def twoRegistrations : List Label :=
  [.register (.post posted 1),.register (.upload (some "a.csv".toList) none [0] ['p'] 2),.act 0 .check,.act 1 .check,
    .act 0 (.insert 1),.act 0 .commit,.act 1 (.insert 2),.act 1 .commit]

end Kryvaracode.Datasets
