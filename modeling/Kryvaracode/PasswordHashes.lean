import Kryvaracode.PasswordPolicy

namespace Kryvaracode.PasswordPolicy
open Accounts

-- bcrypt with the salts that `gensalt` gives: of inputs within its limit it takes
-- exactly the one for the other that it is.
structure Bcrypt extends Hashing where
  generated : Text → Prop
  tells_apart : ∀ plain original salt, generated salt → plain.length ≤ bcryptMaxBytes → original.length ≤ bcryptMaxBytes →
    checkpw plain (encode (hashpw original salt)) = some (decide (plain = original))

def Bcrypt.Salt (bcrypt : Bcrypt) : Type := {salt : Text // bcrypt.generated salt}

-- A password that meets the policy.
def Password (chars : CharTests) : Type := {password : Text // validatePasswordPolicy chars password = []}

-- Whether the one password opens what was hashed from the other.
def opens (bcrypt : Bcrypt) (salt : bcrypt.Salt) (tried original : Text) : Bool :=
  bcrypt.verifyPassword tried (bcrypt.getPasswordHash original salt.val)

section Hashes
variable (bcrypt : Bcrypt) (salt : bcrypt.Salt)

-- Only the bytes that bcrypt is given count.
theorem opens_exact (tried original : Text) : opens bcrypt salt tried original = true ↔
    (encode tried).take bcryptMaxBytes = (encode original).take bcryptMaxBytes := by
  have within : ∀ password : Text, ((encode password).take bcryptMaxBytes).length ≤ bcryptMaxBytes :=
    fun password => List.length_take_le _ _
  unfold opens Hashing.verifyPassword Hashing.getPasswordHash
  rw [bcrypt.tells_apart _ _ salt.val salt.property (within tried) (within original),Option.getD_some,decide_eq_true_eq]

theorem short_told_apart {tried original : Text} (short : (encode tried).length ≤ bcryptMaxBytes)
    (also : (encode original).length ≤ bcryptMaxBytes) : opens bcrypt salt tried original = true ↔ tried = original := by
  rw [opens_exact,List.take_of_length_le short,List.take_of_length_le also]
  exact encode_injective.eq_iff

-- No character takes more than four bytes.
theorem encode_length (text : Text) : (encode text).length ≤ 4 * text.length := by
  induction text with
  | nil => exact Nat.zero_le _
  | cons c rest ih =>
      have four : (String.utf8EncodeChar c).length ≤ 4 := by
        rw [String.length_utf8EncodeChar]
        exact c.utf8Size_le_four
      rw [encode,List.flatMap_cons,List.length_append,List.length_cons]
      unfold encode at ih
      omega

theorem few_characters_told_apart {tried original : Text} (few : tried.length ≤ 18) (also : original.length ≤ 18) :
    opens bcrypt salt tried original = true ↔ tried = original := by
  have limit : bcryptMaxBytes = 72 := rfl
  apply short_told_apart
  · have bytes := encode_length tried
    omega
  · have bytes := encode_length original
    omega

end Hashes

theorem passwords_told_apart_exact (bcrypt : Bcrypt) (salt : bcrypt.Salt) (chars : CharTests) (p q : Password chars) :
    (opens bcrypt salt q.val p.val = true ↔ p = q) ↔
      p = q ∨ (encode q.val).take bcryptMaxBytes ≠ (encode p.val).take bcryptMaxBytes := by
  rw [opens_exact]
  by_cases same : p = q
  · rw [same]
    exact iff_of_true (iff_of_true rfl rfl) (.inl rfl)
  · rw [or_iff_right same]
    exact ⟨fun told equal => same (told.mp equal),fun apart => iff_of_false apart same⟩

def letters (bytes : List UInt8) : Text := bytes.map fun byte => Char.ofNat byte.toNat

theorem letters_tell_apart (plain original : List UInt8) (_ : Text) (_ : True) (_ : plain.length ≤ bcryptMaxBytes)
    (_ : original.length ≤ bcryptMaxBytes) :
    some (decide (encode (letters plain) = encode (letters original))) = some (decide (plain = original)) := by
  have same : encode (letters plain) = encode (letters original) ↔ plain = original :=
    encode_injective.eq_iff.trans plain_injective.eq_iff
  exact congrArg some (decide_eq_decide.mpr same)

-- A stand-in that keeps the bytes themselves.
def plainBcrypt : Bcrypt where
  checkpw plain hashed := some (decide (encode (letters plain) = hashed))
  hashpw original _ := letters original
  sha256 := letters
  generated _ := True
  tells_apart := letters_tell_apart

def longPassword (last : Char) : Text := ['a','A','1','!'] ++ (List.replicate 68 'x' ++ [last])

theorem long_meets_policy (last : Char) : validatePasswordPolicy asciiTests (longPassword last) = [] := by
  have size : (longPassword last).length = 73 := by simp [longPassword]
  apply (policy_met asciiTests _).mpr
  simp only [rules,List.forall_mem_cons,size]
  refine ⟨by decide,by decide,?_,?_,?_,?_,by simp⟩
  all_goals
    unfold longPassword
    rw [List.any_append]
    apply Bool.or_eq_true_iff.mpr
    exact .inl (by decide)

-- Two passwords of 73 characters that differ in the last.
theorem long_passwords_confused : ¬ ∀ p q : Password asciiTests, opens plainBcrypt ⟨[],trivial⟩ q.val p.val = true ↔ p = q := by
  intro told
  have both := told ⟨longPassword 'y',long_meets_policy 'y'⟩ ⟨longPassword 'z',long_meets_policy 'z'⟩
  have opened : opens plainBcrypt ⟨[],trivial⟩ (longPassword 'z') (longPassword 'y') = true := by
    apply (opens_exact _ _ _ _).mpr
    decide
  have same := congrArg Subtype.val (both.mp opened)
  have ends := congrArg List.getLast? same
  revert ends
  decide

end Kryvaracode.PasswordPolicy
