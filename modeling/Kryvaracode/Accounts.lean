import Kryvaracode.Scheduler
import Kryvaracode.ModelRegistry

namespace Kryvaracode.Accounts
open Scheduling (Stamp)
open Models (Order)

def HTTPException (status detail : String) : Failure := ⟨.other status.toList,detail.toList⟩

def encode (text : Text) : List UInt8 := text.flatMap String.utf8EncodeChar

theorem encode_injective : Function.Injective encode := by
  intro first second same
  have bytes : first.utf8Encode = second.utf8Encode := congrArg List.toByteArray same
  have decoded := congrArg ByteArray.utf8Decode? bytes
  rw [List.utf8Decode?_utf8Encode,List.utf8Decode?_utf8Encode,Option.some.injEq] at decoded
  simpa using congrArg Array.toList decoded

-- bcrypt and SHA-256. A `checkpw` that raises a ValueError answers none.
structure Hashing where
  checkpw : List UInt8 → List UInt8 → Option Bool
  hashpw : List UInt8 → Text → Text
  sha256 : List UInt8 → Text

def bcryptMaxBytes : Nat := 72

def Hashing.verifyPassword (hashing : Hashing) (plainPassword hashedPassword : Text) : Bool :=
  (hashing.checkpw ((encode plainPassword).take bcryptMaxBytes) (encode hashedPassword)).getD false

def Hashing.getPasswordHash (hashing : Hashing) (password salt : Text) : Text :=
  hashing.hashpw ((encode password).take bcryptMaxBytes) salt

def Hashing.hashResetToken (hashing : Hashing) (token : Text) : Text := hashing.sha256 (encode token)

-- What a datetime column gives back for the instant written to it.
structure Timestamps where
  stored : Int → Stamp
  stored_moment : ∀ now, (stored now).moment = now

structure User where
  id : Int
  email : Text
  username : Text
  hashedPassword : Text
  fullName : Option Text
  isActive : Bool
  isSuperuser : Bool
  isVerified : Bool
  failedLoginAttempts : Int
  lockUntil : Option Stamp
  passwordResetToken : Option Text
  hashedResetToken : Option Text
  passwordResetExpires : Option Stamp

def User.created (id : Int) (email username hashedPassword : Text) (fullName : Option Text) : User where
  id := id
  email := email
  username := username
  hashedPassword := hashedPassword
  fullName := fullName
  isActive := true
  isSuperuser := false
  isVerified := false
  failedLoginAttempts := 0
  lockUntil := none
  passwordResetToken := none
  hashedResetToken := none
  passwordResetExpires := none

-- New values for columns that are not unique.
structure Change where
  change : User → User
  id : ∀ user, (change user).id = user.id
  email : ∀ user, (change user).email = user.email
  username : ∀ user, (change user).username = user.username

structure Users where
  rows : List User
  ids : (rows.map User.id).Nodup
  emails : (rows.map User.email).Nodup
  usernames : (rows.map User.username).Nodup

namespace Users
variable (users : Users)

def getUser (id : Int) : Option User := users.rows.find? fun user => decide (user.id = id)
def getUserByEmail (email : Text) : Option User := users.rows.find? fun user => decide (user.email = email)
def getUserByUsername (username : Text) : Option User := users.rows.find? fun user => decide (user.username = username)

theorem keys_update (rows : List User) (id : Int) (change : Change) (key : User → κ)
    (kept : ∀ user, key (change.change user) = key user) :
    (rows.map fun user => if user.id = id then change.change user else user).map key = rows.map key := by
  rw [List.map_map]
  refine List.map_congr_left fun user _ => ?_
  by_cases its : user.id = id <;> simp [its,kept]

def update (id : Int) (change : Change) : Users where
  rows := users.rows.map fun user => if user.id = id then change.change user else user
  ids := by rw [keys_update _ _ _ _ change.id]; exact users.ids
  emails := by rw [keys_update _ _ _ _ change.email]; exact users.emails
  usernames := by rw [keys_update _ _ _ _ change.username]; exact users.usernames

-- The constraints of the table.
def admits (user : User) : Prop :=
  user.id ∉ users.rows.map User.id ∧ user.email ∉ users.rows.map User.email ∧ user.username ∉ users.rows.map User.username

instance (user : User) : Decidable (users.admits user) :=
  haveI := text_lawful
  inferInstanceAs (Decidable (_ ∧ _ ∧ _))

def insert (user : User) (admitted : users.admits user) : Users where
  rows := users.rows ++ [user]
  ids := by simpa [List.nodup_append] using ⟨users.ids,fun other listed => fun same => admitted.1 (by
    rw [← same]; exact List.mem_map_of_mem listed)⟩
  emails := by simpa [List.nodup_append] using ⟨users.emails,fun other listed => fun same => admitted.2.1 (by
    rw [← same]; exact List.mem_map_of_mem listed)⟩
  usernames := by simpa [List.nodup_append] using ⟨users.usernames,fun other listed => fun same => admitted.2.2 (by
    rw [← same]; exact List.mem_map_of_mem listed)⟩

theorem update_rows (id : Int) (change : Change) :
    (users.update id change).rows = users.rows.map fun user => if user.id = id then change.change user else user := rfl

-- A column with the values of which no two rows agree finds one row.
theorem find_unique {rows : List User} {key : User → κ} [DecidableEq κ] (distinct : (rows.map key).Nodup) {user : User}
    (listed : user ∈ rows) : rows.find? (fun other => decide (key other = key user)) = some user := by
  induction rows with
  | nil => cases listed
  | cons first rest ih =>
      rw [List.map_cons,List.nodup_cons] at distinct
      rcases List.mem_cons.mp listed with rfl | later
      · exact List.find?_cons_of_pos (by simp)
      · have other : key first ≠ key user := fun same => distinct.1 (same ▸ List.mem_map_of_mem later)
        rw [List.find?_cons_of_neg (by simpa using other)]
        exact ih distinct.2 later

theorem find_update {rows : List User} (id : Int) (change : Change) {key : User → κ} [DecidableEq κ]
    (kept : ∀ user, key (change.change user) = key user) (value : κ) :
    (rows.map fun user => if user.id = id then change.change user else user).find? (fun user => decide (key user = value)) =
      (rows.find? fun user => decide (key user = value)).map fun user => if user.id = id then change.change user else user := by
  rw [List.find?_map]
  congr 2
  funext user
  by_cases its : user.id = id <;> simp [its,kept]

theorem getUser_update (id : Int) (change : Change) (other : Int) : (users.update id change).getUser other =
    (users.getUser other).map fun user => if user.id = id then change.change user else user := find_update id change change.id other

theorem getUserByUsername_update (id : Int) (change : Change) (username : Text) :
    (users.update id change).getUserByUsername username =
      (users.getUserByUsername username).map fun user => if user.id = id then change.change user else user :=
  find_update id change change.username username

theorem getUser_listed {user : User} (listed : user ∈ users.rows) : users.getUser user.id = some user :=
  find_unique users.ids listed

theorem getUserByEmail_listed {user : User} (listed : user ∈ users.rows) : users.getUserByEmail user.email = some user :=
  find_unique users.emails listed

theorem find_some {rows : List User} {key : User → κ} [DecidableEq κ] {value : κ} {user : User}
    (found : rows.find? (fun other => decide (key other = value)) = some user) : user ∈ rows ∧ key user = value :=
  ⟨List.mem_of_find?_eq_some found,by simpa using List.find?_some found⟩

theorem getUser_some {id : Int} {user : User} (found : users.getUser id = some user) : user ∈ users.rows ∧ user.id = id :=
  find_some found

theorem getUserByEmail_some {email : Text} {user : User} (found : users.getUserByEmail email = some user) :
    user ∈ users.rows ∧ user.email = email := find_some found

theorem getUserByUsername_some {username : Text} {user : User} (found : users.getUserByUsername username = some user) :
    user ∈ users.rows ∧ user.username = username := find_some found

theorem one_row {user other : User} (listed : user ∈ users.rows) (also : other ∈ users.rows) (same : user.id = other.id) :
    user = other := List.inj_on_of_nodup_map users.ids listed also same
end Users

def minutes (count : Int) : Int := count * 60000000
def hours (count : Int) : Int := minutes (60 * count)

-- The keyword arguments of `update_user`.
structure UserUpdate where
  isVerified : Option Bool := none
  failedLoginAttempts : Option Int := none
  lockUntil : Option Int := none
  passwordResetToken : Option Text := none
  passwordResetExpires : Option Int := none

-- Values assigned to the columns of the lockout.
structure Columns where
  failedLoginAttempts : Option Int
  lockUntil : Option (Option Stamp)

def Columns.apply (columns : Columns) (user : User) : User :=
  {user with failedLoginAttempts := columns.failedLoginAttempts.getD user.failedLoginAttempts,
             lockUntil := columns.lockUntil.getD user.lockUntil}

def Columns.change (columns : Columns) : Change := ⟨columns.apply,fun _ => rfl,fun _ => rfl,fun _ => rfl⟩

-- A value without a zone is read as UTC.
def User.locked (user : User) (now : Int) : Bool :=
  match user.lockUntil with
  | none => false
  | some lockUntil => decide (now < lockUntil.moment)

def maxAttempts : Int := 5
def lockTime : Int := minutes 30

-- An attempt to log in, and what the clock shows when the lock is checked, the
-- password verified and the new lock computed.
structure Login where
  username : Text
  password : Text
  checked : Int
  evaluated : Int
  written : Int
  ordered : checked ≤ evaluated ∧ evaluated ≤ written

-- What `authenticate_user` leaves and returns, and what `verify_password` has
-- answered where it was reached.
structure Attempt where
  users : Users
  user : Option User
  verified : Option Bool

section Crud
variable (hashing : Hashing) (timestamps : Timestamps)

def createUser (users : Users) (id : Int) (email username password salt : Text) (fullName : Option Text) : Users × Result User :=
  let user := User.created id email username (hashing.getPasswordHash password salt) fullName
  if admitted : users.admits user then (users.insert user admitted,.ok user)
  else (users,.error ⟨.other "IntegrityError".toList,[]⟩)

def UserUpdate.apply (args : UserUpdate) (user : User) : User :=
  {user with isVerified := args.isVerified.getD user.isVerified,
             failedLoginAttempts := args.failedLoginAttempts.getD user.failedLoginAttempts,
             lockUntil := (args.lockUntil.map timestamps.stored).or user.lockUntil,
             hashedResetToken := (args.passwordResetToken.map hashing.hashResetToken).or user.hashedResetToken,
             passwordResetToken := if args.passwordResetToken.isSome then none else user.passwordResetToken,
             passwordResetExpires := (args.passwordResetExpires.map timestamps.stored).or user.passwordResetExpires}

def UserUpdate.change (args : UserUpdate) : Change :=
  ⟨args.apply hashing timestamps,fun _ => rfl,fun _ => rfl,fun _ => rfl⟩

def updateUser (users : Users) (userId : Int) (args : UserUpdate) : Users × Option User :=
  match users.getUser userId with
  | none => (users,none)
  | some _ =>
      let updated := users.update userId (args.change hashing timestamps)
      (updated,updated.getUser userId)

def User.cleared (user : User) : User :=
  {user with hashedResetToken := none,passwordResetToken := none,passwordResetExpires := none}

def clearResetToken (users : Users) (userId : Int) : Users × Option User :=
  match users.getUser userId with
  | none => (users,none)
  | some _ =>
      let updated := users.update userId ⟨User.cleared,fun _ => rfl,fun _ => rfl,fun _ => rfl⟩
      (updated,updated.getUser userId)

def User.rekeyed (hashedPassword : Text) (user : User) : User := {user.cleared with hashedPassword := hashedPassword}

def rekey (hashedPassword : Text) : Change := ⟨User.rekeyed hashedPassword,fun _ => rfl,fun _ => rfl,fun _ => rfl⟩

def changePassword (users : Users) (userId : Int) (newPassword salt : Text) : Users × Result (Option User) :=
  match users.getUser userId with
  | none => (users,.ok none)
  | some user =>
      if hashing.verifyPassword newPassword user.hashedPassword then
        (users,.error (ValidationFailedError "New password must be different from the current password".toList))
      else
        let updated := users.update userId (rekey (hashing.getPasswordHash newPassword salt))
        (updated,.ok (updated.getUser userId))

-- Counted from what was read, and written as an absolute value.
def failure (user : User) (now : Int) : Columns where
  failedLoginAttempts := some (user.failedLoginAttempts + 1)
  lockUntil := if maxAttempts ≤ user.failedLoginAttempts + 1 then some (some (timestamps.stored (now + lockTime))) else none

def success : Columns := ⟨some 0,some none⟩

def authenticateUser (users : Users) (login : Login) : Attempt :=
  match users.getUserByUsername login.username with
  | none => ⟨users,none,none⟩
  | some user =>
      if user.locked login.checked then ⟨users,none,none⟩
      else if hashing.verifyPassword login.password user.hashedPassword then
        let updated := users.update user.id success.change
        ⟨updated,updated.getUser user.id,some true⟩
      else ⟨users.update user.id (failure timestamps user login.written).change,none,some false⟩
end Crud

-- Hashes that show what they were made from, and columns that keep the zone.
def plainHashing : Hashing where
  checkpw plain hashed := some (plain == hashed)
  hashpw password _ := password.map fun byte => Char.ofNat byte.toNat
  sha256 token := token.map fun byte => Char.ofNat byte.toNat

theorem plain_injective : Function.Injective plainHashing.sha256 := by
  refine List.map_injective_iff.mpr ?_
  intro first second same
  have numbers := congrArg Char.toNat same
  rw [Char.toNat_ofNat,Char.toNat_ofNat] at numbers
  have small : ∀ byte : UInt8, Nat.isValidChar byte.toNat := fun byte => .inl (byte.toNat_lt.trans (by decide))
  rw [if_pos (small first),if_pos (small second)] at numbers
  exact UInt8.toNat_inj.mp numbers

theorem utc_moment (now : Int) : Stamp.moment ⟨now,some 0⟩ = now := by simp [Stamp.moment]

def utcTimestamps : Timestamps := ⟨fun now => ⟨now,some 0⟩,utc_moment⟩

def oneUser : Users := ⟨[.created 1 ['m'] ['u'] ['p'] none],by decide,by decide,by decide⟩
end Kryvaracode.Accounts
