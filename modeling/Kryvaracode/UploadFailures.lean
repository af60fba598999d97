import Kryvaracode.DatasetNames
import Kryvaracode.InsertionDict
import Kryvaracode.Transactions

namespace Kryvaracode.Datasets
open InsertionDict Transactions UnicodeText

structure Upload where
  filename : Option Text
  name : Option Text
  content : List UInt8
  userId : Int

-- How the write of a file ends: it is not opened, some of its bytes are written, or all.
inductive Write where
  | refused (exc : Failure)
  | broken (count : Nat) (exc : Failure)
  | whole

-- What the calls of one upload come to. `uploadsDir` is the text of the path of
-- the directory, and the row's id is drawn when it is inserted.
structure Surroundings where
  uploadsDir : Text
  lookup : Result Unit
  read : Result Unit
  ensureDir : Result Unit
  uniqueId : Text
  write : Write
  rowId : Int
  commit : Result Unit
  refresh : Result Unit

structure Storage where
  files : Dict Text (List UInt8)
  datasets : List Dataset

def Storage.wrote (storage : Storage) (path : Text) (bytes : List UInt8) : Storage :=
  {storage with files := storage.files.set path bytes}

-- The bounds of a content that was read.
def sized (content : List UInt8) : Result Unit :=
  if maxUploadSize < content.length then
    .error (ValidationFailedError ("File size ".toList ++ (toString content.length).toList ++
      " bytes exceeds maximum allowed size of ".toList ++ (toString maxUploadSize).toList ++ " bytes (50 MB)".toList))
  else if content.length = 0 then .error (ValidationFailedError "Empty file not allowed".toList)
  else .ok ()

section Upload
variable (tables : Tables) (s : Surroundings) (upload : Upload)

def Upload.suffix : Text := tables.lower (pathSuffix (upload.filename.getD []))
def Upload.storagePath : Text := s.uploadsDir ++ '/' :: s.uniqueId ++ upload.suffix tables
def Upload.format : Text := (formatBySuffix (upload.suffix tables)).getD []

def Upload.registration : Registration :=
  .upload upload.filename upload.name upload.content (upload.storagePath tables s) upload.userId

def createDataset (datasets : List Dataset) (data : DatasetCreate) (userId : Int) : List Dataset × Result Dataset :=
  let row := data.row s.rowId userId
  match ((Session.opened datasets).change (· ++ [row])).commit PendingRollbackError s.commit with
  | (session,.error exc) => (session.committed,.error exc)
  | (session,.ok ()) => (session.committed,s.refresh.map fun _ => row)

-- The checks before the file is written, in their order, and the name to register.
def Upload.admitted (datasets : List Dataset) : Result Text := do
  let datasetName ← (upload.registration tables s).name tables
  s.lookup
  if datasets.any fun row => decide (row.name = datasetName) then
    .error ((upload.registration tables s).conflict datasetName)
  else do
    s.read
    sized upload.content
    s.ensureDir
    .ok datasetName

def uploadDataset (storage : Storage) : Storage × Result Dataset :=
  let path := upload.storagePath tables s
  match upload.admitted tables s storage.datasets with
  | .error exc => (storage,.error exc)
  | .ok datasetName =>
      match s.write with
      | .refused exc => (storage,.error exc)
      | .broken count exc => (storage.wrote path (upload.content.take count),.error exc)
      | .whole =>
          match DatasetCreate.parse datasetName none path (upload.format tables) with
          | .error exc => (storage.wrote path upload.content,.error exc)
          | .ok data =>
              let created := createDataset s storage.datasets data upload.userId
              ({storage.wrote path upload.content with datasets := created.1},created.2)

end Upload

def NewFile (before after : Storage) (path : Text) : Prop := after.files.get path ≠ none ∧ before.files.get path = none

-- One new file with all the bytes and one new row that names it.
structure Both (content : List UInt8) (before after : Storage) : Prop where
  pair : ∃ path row, (∀ other, NewFile before after other ↔ other = path) ∧ after.files.get path = some content ∧
    after.datasets = before.datasets ++ [row] ∧ row.storageUri = path

structure Neither (before after : Storage) : Prop where
  files : ∀ path, ¬ NewFile before after path
  rows : after.datasets = before.datasets

def AllOrNothing (content : List UInt8) (before after : Storage) : Prop := Both content before after ∨ Neither before after

section Condition
variable (tables : Tables) (s : Surroundings) (upload : Upload) (storage : Storage)

-- The file is opened for writing.
def Opened : Prop :=
  (∃ datasetName, upload.admitted tables s storage.datasets = .ok datasetName) ∧ ∀ exc, s.write ≠ .refused exc

-- It is written to its end, its path is no longer than the schema allows and the
-- row is committed.
structure Completes : Prop where
  written : s.write = .whole
  short : (upload.storagePath tables s).length ≤ 500
  committed : s.commit = .ok ()

def Unbroken : Prop := Opened tables s upload storage →
  (storage.files.get (upload.storagePath tables s) = none ↔ Completes tables s upload)

end Condition

section Schema

theorem uploadName_fits (name : Option Text) (stem : Text) :
    1 ≤ (uploadName name stem).length ∧ (uploadName name stem).length ≤ 100 := by
  have fits : ∀ chosen : Text, chosen ≠ [] → 1 ≤ (chosen.take 100).length ∧ (chosen.take 100).length ≤ 100 := by
    intro chosen given
    have some := List.length_pos_iff.mpr given
    rw [List.length_take]
    omega
  rw [uploadName]
  apply fits
  generalize strip (if truthy name then name.getD [] else stem) = chosen
  split
  next => exact List.cons_ne_nil _ _
  next given => exact given

theorem format_known {suffix format : Text} (known : formatBySuffix suffix = some format) :
    format ∈ ["csv".toList,"parquet".toList,"json".toList] := by
  obtain ⟨front,rest,whole,_⟩ := List.lookup_eq_some_iff.mp known
  have listed : (suffix,format) ∈ front ++ (suffix,format) :: rest := List.mem_append_right _ List.mem_cons_self
  rw [← whole] at listed
  simp only [List.mem_cons,Prod.mk.injEq,List.not_mem_nil,or_false] at listed ⊢
  exact listed.imp And.right (Or.imp And.right And.right)

variable {name uri format : Text}

theorem parse_short (name_fits : 1 ≤ name.length ∧ name.length ≤ 100)
    (known : format ∈ ["csv".toList,"parquet".toList,"json".toList]) (short : 1 ≤ uri.length ∧ uri.length ≤ 500) :
    ∃ data, DatasetCreate.parse name none uri format = .ok data ∧ data.storageUri = uri := by
  rw [DatasetCreate.parse,dif_pos name_fits,dif_pos (by simp),dif_pos short,dif_pos known]
  exact ⟨_,rfl,rfl⟩

theorem parse_long (format : Text) (name_fits : 1 ≤ name.length ∧ name.length ≤ 100) (long : ¬ uri.length ≤ 500) :
    ∃ exc, DatasetCreate.parse name none uri format = .error exc := by
  rw [DatasetCreate.parse,dif_pos name_fits,dif_pos (by simp),dif_neg fun fits => long fits.2]
  exact ⟨_,rfl⟩

end Schema

section Files
variable {storage after : Storage} {path : Text} {bytes : List UInt8}

theorem newFile_wrote (files : after.files = storage.files.set path bytes) (other : Text) :
    NewFile storage after other ↔ other = path ∧ storage.files.get path = none := by
  rw [NewFile,files,get_set]
  by_cases same : other = path
  · rw [same]
    simp
  · simp [same]

theorem wrote_alone (content : List UInt8) :
    AllOrNothing content storage (storage.wrote path bytes) ↔ storage.files.get path ≠ none := by
  constructor
  · rintro (both | neither)
    · obtain ⟨_,row,_,_,grown,_⟩ := both.pair
      exact absurd (congrArg List.length grown) (by simp [Storage.wrote])
    · intro fresh
      exact neither.files path ((newFile_wrote rfl path).mpr ⟨rfl,fresh⟩)
  · intro taken
    refine .inr ⟨?_,rfl⟩
    intro other new
    exact taken ((newFile_wrote rfl other).mp new).2

theorem wrote_row {row : Dataset} (named : row.storageUri = path) :
    AllOrNothing bytes storage {storage.wrote path bytes with datasets := storage.datasets ++ [row]} ↔
      storage.files.get path = none := by
  constructor
  · rintro (both | neither)
    · obtain ⟨other,_,new,_⟩ := both.pair
      exact ((newFile_wrote rfl other).mp ((new other).mpr rfl)).2
    · exact absurd (congrArg List.length neither.rows) (by simp)
  · intro fresh
    refine .inl ⟨path,row,?_,get_set_same _ path bytes,rfl,named⟩
    intro other
    rw [newFile_wrote rfl]
    exact and_iff_left fresh

end Files

section Outcome
variable {tables : Tables} {s : Surroundings} {upload : Upload} {storage : Storage} {datasetName : Text}

theorem admitted_parts {datasets : List Dataset} (admitted : upload.admitted tables s datasets = .ok datasetName) :
    (upload.registration tables s).name tables = .ok datasetName ∧
      (¬ datasets.any fun row => decide (row.name = datasetName)) ∧ sized upload.content = .ok () := by
  obtain ⟨name,named,later⟩ := bind_ok.mp admitted
  have rest := (then_ok.mp later).2
  split at rest
  next => cases rest
  next absent =>
    obtain ⟨size,last⟩ := then_ok.mp (then_ok.mp rest).2
    cases Except.ok.inj (then_ok.mp last).2
    exact ⟨named,absent,size⟩

-- What is admitted has a name and a format that the schema accepts.
theorem admitted_fits {datasets : List Dataset} (admitted : upload.admitted tables s datasets = .ok datasetName) :
    (1 ≤ datasetName.length ∧ datasetName.length ≤ 100) ∧
      upload.format tables ∈ ["csv".toList,"parquet".toList,"json".toList] := by
  have named := (admitted_parts admitted).1
  rw [Upload.registration,Registration.name] at named
  rw [Upload.format,Upload.suffix]
  cases known : formatBySuffix (tables.lower (pathSuffix (upload.filename.getD []))) with
  | none =>
      rw [known] at named
      cases named
  | some format =>
      rw [known] at named
      cases named
      exact ⟨uploadName_fits _ _,format_known known⟩

-- A file without its row is all or nothing only where it was there before.
theorem left_behind (unmet : ¬ Completes tables s upload) (bytes : List UInt8) :
    AllOrNothing upload.content storage (storage.wrote (upload.storagePath tables s) bytes) ↔
      (storage.files.get (upload.storagePath tables s) = none ↔ Completes tables s upload) := by
  rw [wrote_alone,iff_false_right unmet]

theorem created_exact (writes : s.write = .whole) (short : (upload.storagePath tables s).length ≤ 500) {data : DatasetCreate}
    (named : data.storageUri = upload.storagePath tables s) :
    AllOrNothing upload.content storage {storage.wrote (upload.storagePath tables s) upload.content with
        datasets := (createDataset s storage.datasets data upload.userId).1} ↔
      (storage.files.get (upload.storagePath tables s) = none ↔ Completes tables s upload) := by
  rw [createDataset]
  cases committed : s.commit with
  | error exc =>
      rw [commit_failed PendingRollbackError _ rfl]
      have unmet : ¬ Completes tables s upload := by
        intro completes
        cases committed.symm.trans completes.committed
      exact left_behind unmet upload.content
  | ok =>
      rw [commit_ok PendingRollbackError _ rfl]
      exact (wrote_row named).trans (iff_true_right ⟨writes,short,committed⟩).symm

-- Nothing after the file is opened takes it back.
theorem opened_exact (admitted : upload.admitted tables s storage.datasets = .ok datasetName)
    (opens : ∀ exc, s.write ≠ .refused exc) :
    AllOrNothing upload.content storage (uploadDataset tables s upload storage).1 ↔
      (storage.files.get (upload.storagePath tables s) = none ↔ Completes tables s upload) := by
  rw [uploadDataset]
  dsimp only
  rw [admitted]
  dsimp only
  cases writes : s.write with
  | refused exc => exact absurd writes (opens exc)
  | broken count exc =>
      have unmet : ¬ Completes tables s upload := by
        intro completes
        cases writes.symm.trans completes.written
      exact left_behind unmet _
  | whole =>
      obtain ⟨name_fits,known⟩ := admitted_fits admitted
      by_cases short : (upload.storagePath tables s).length ≤ 500
      · have given : 1 ≤ (upload.storagePath tables s).length := by
          simp only [Upload.storagePath,List.length_append,List.length_cons]
          omega
        obtain ⟨data,parsed,named⟩ := parse_short name_fits known ⟨given,short⟩
        rw [parsed]
        exact created_exact writes short named
      · obtain ⟨exc,refused⟩ := parse_long (upload.format tables) name_fits short
        rw [refused]
        exact left_behind (fun completes => short completes.short) _

theorem sized_data (size : sized upload.content = .ok ()) : (upload.registration tables s).data tables datasetName =
    (DatasetCreate.parse datasetName none (upload.storagePath tables s) (upload.format tables)).map
      fun data => (data,upload.userId) := by
  rw [Upload.registration,Registration.data,Upload.format,Upload.suffix]
  rw [sized] at size
  split at size
  next => cases size
  next small =>
    split at size
    next => cases size
    next some => rw [if_neg small,if_neg some]

-- What an upload returns is the row that the registration inserts.
theorem upload_registered {row : Dataset} (returned : (uploadDataset tables s upload storage).2 = .ok row) :
    (uploadDataset tables s upload storage).1.datasets = storage.datasets ++ [row] ∧
      ∃ data, check tables storage.datasets (upload.registration tables s) = .inserting data upload.userId ∧
        row = data.row s.rowId upload.userId := by
  rw [uploadDataset] at returned ⊢
  dsimp only at returned ⊢
  split at returned
  next => cases returned
  next datasetName admitted =>
    obtain ⟨named,absent,size⟩ := admitted_parts admitted
    split at returned
    next => cases returned
    next => cases returned
    next =>
      split at returned
      next => cases returned
      next data parsed =>
        have checked : check tables storage.datasets (upload.registration tables s) = .inserting data upload.userId := by
          rw [check,named]
          dsimp only
          rw [if_neg absent,sized_data size,parsed]
          rfl
        rw [createDataset] at returned ⊢
        cases committed : s.commit with
        | error exc =>
            rw [committed,commit_failed PendingRollbackError _ rfl] at returned
            cases returned
        | ok =>
            rw [committed,commit_ok PendingRollbackError _ rfl] at returned
            rw [commit_ok PendingRollbackError _ rfl]
            cases refreshed : s.refresh with
            | error exc =>
                rw [refreshed] at returned
                cases returned
            | ok =>
                rw [refreshed] at returned
                cases returned
                exact ⟨rfl,data,checked,rfl⟩

end Outcome

theorem upload_all_or_nothing_exact (tables : Tables) (s : Surroundings) (upload : Upload) (storage : Storage) :
    AllOrNothing upload.content storage (uploadDataset tables s upload storage).1 ↔ Unbroken tables s upload storage := by
  by_cases opened : Opened tables s upload storage
  · obtain ⟨⟨datasetName,admitted⟩,opens⟩ := id opened
    rw [Unbroken,forall_prop_of_true opened]
    exact opened_exact admitted opens
  · refine iff_of_true (.inr ?_) fun opens => absurd opens opened
    have unchanged : (uploadDataset tables s upload storage).1 = storage := by
      rw [uploadDataset]
      dsimp only
      cases admitted : upload.admitted tables s storage.datasets with
      | error exc => rfl
      | ok datasetName =>
          cases writes : s.write with
          | refused exc => rfl
          | broken count exc => exact absurd ⟨⟨datasetName,admitted⟩,by simp [writes]⟩ opened
          | whole => exact absurd ⟨⟨datasetName,admitted⟩,by simp [writes]⟩ opened
    rw [unchanged]
    exact ⟨fun path new => new.1 new.2,rfl⟩

-- A file is written and its row is not committed.
def uncommitted : Surroundings where
  uploadsDir := ['u']
  lookup := .ok ()
  read := .ok ()
  ensureDir := .ok ()
  uniqueId := ['0']
  write := .whole
  rowId := 1
  commit := .error (RuntimeError [])
  refresh := .ok ()

def oneByte : Upload := ⟨some "a.csv".toList,none,[0],1⟩

theorem upload_left_behind : ¬ AllOrNothing oneByte.content ⟨Dict.empty,[]⟩
    (uploadDataset ascii uncommitted oneByte ⟨Dict.empty,[]⟩).1 := by
  rintro (both | neither)
  · obtain ⟨_,_,_,_,grown,_⟩ := both.pair
    cases grown
  · have held : (uploadDataset ascii uncommitted oneByte ⟨Dict.empty,[]⟩).1.files.get "u/0.csv".toList = some [0] := by decide
    exact neither.files "u/0.csv".toList ⟨by rw [held]; exact Option.some_ne_none _,rfl⟩

end Kryvaracode.Datasets
