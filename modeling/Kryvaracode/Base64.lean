import Mathlib

-- Bytes in an alphabet of 64 characters, and a reader that skips all others.
namespace Base64

def alphabet : List Char := "ABCDEFGHIJKLMNOPQRSTUVWXYZabcdefghijklmnopqrstuvwxyz0123456789+/".toList

def symbol (value : Nat) : Char := alphabet.getD value '='

def valueOf (c : Char) : Option Nat := alphabet.idxOf? c

-- Six bits a character, in groups of three bytes; the last group is filled up.
def encode : List UInt8 → List Char
  | [] => []
  | [one] => [symbol (one.toNat / 4),symbol (one.toNat % 4 * 16),'=','=']
  | [one,two] => [symbol (one.toNat / 4),symbol (one.toNat % 4 * 16 + two.toNat / 16),symbol (two.toNat % 16 * 4),'=']
  | one :: two :: three :: rest =>
      symbol (one.toNat / 4) :: symbol (one.toNat % 4 * 16 + two.toNat / 16) ::
        symbol (two.toNat % 16 * 4 + three.toNat / 64) :: symbol (three.toNat % 64) :: encode rest

-- What has been seen of a group, and the bits of it that are not in a byte yet.
inductive Quad where
  | zero
  | one (left : Nat)
  | two (left pads : Nat)
  | three (left : Nat)

def Quad.take : Quad → Nat → Option UInt8 × Quad
  | .zero,value => (none,.one value)
  | .one left,value => (some (UInt8.ofNat (left * 4 + value / 16)),.two (value % 16) 0)
  | .two left _,value => (some (UInt8.ofNat (left * 16 + value / 4)),.three (value % 4))
  | .three left,value => (some (UInt8.ofNat (left * 64 + value)),.zero)

-- Enough padding ends the text, whatever follows.
def Quad.pad : Quad → Option Quad
  | .two left 0 => some (.two left 1)
  | .two _ _ | .three _ => none
  | quad => some quad

def decodeFrom : Quad → List Char → Option (List UInt8)
  | .zero,[] => some []
  | _,[] => none
  | quad,c :: rest =>
      if c = '=' then
        match quad.pad with
        | none => some []
        | some next => decodeFrom next rest
      else
        match valueOf c with
        | none => decodeFrom quad rest
        | some value => (decodeFrom (quad.take value).2 rest).map ((quad.take value).1.toList ++ ·)

def decode (text : List Char) : Option (List UInt8) := decodeFrom .zero text

example : encode [104,105] = "aGk=".toList := by decide
example : decode "aG\nk=".toList = some [104,105] := by decide
example : decode "aGk".toList = none := by decide

theorem alphabet_distinct : alphabet.Nodup := by decide

theorem alphabet_length : alphabet.length = 64 := by decide

theorem symbol_listed {value : Nat} (small : value < 64) : symbol value ∈ alphabet := by
  rw [symbol,List.getD_eq_getElem _ _ (alphabet_length ▸ small)]
  exact List.getElem_mem _

theorem pad_unlisted : '=' ∉ alphabet := by decide

theorem symbol_apart {value : Nat} (small : value < 64) : symbol value ≠ '=' := fun same =>
  pad_unlisted (same ▸ symbol_listed small)

theorem valueOf_symbol (value : Nat) (small : value < 64) : valueOf (symbol value) = some value := by
  have inside : value < alphabet.length := alphabet_length ▸ small
  rw [valueOf,List.idxOf?_eq_some_iff,symbol,List.getD_eq_getElem _ _ inside]
  refine ⟨inside,rfl,?_⟩
  intro earlier before same
  rw [alphabet_distinct.getElem_inj_iff] at same
  exact Nat.ne_of_lt before same

theorem decode_symbol (quad : Quad) {value : Nat} (small : value < 64) (rest : List Char) :
    decodeFrom quad (symbol value :: rest) = (decodeFrom (quad.take value).2 rest).map ((quad.take value).1.toList ++ ·) := by
  rw [decodeFrom.eq_3,if_neg (symbol_apart small),valueOf_symbol value small]

theorem byte_back {n : Nat} {byte : UInt8} (same : n = byte.toNat) : UInt8.ofNat n = byte := by
  rw [same,UInt8.ofNat_toNat]

section Groups
variable (one two three : UInt8)

-- The bits of each byte, put together again.
theorem first_byte (carry : Nat) (small : carry < 16) : UInt8.ofNat (one.toNat / 4 * 4 + (one.toNat % 4 * 16 + carry) / 16) = one :=
  byte_back (by omega)

theorem second_byte (carry : Nat) (small : carry < 4) :
    UInt8.ofNat ((one.toNat % 4 * 16 + two.toNat / 16) % 16 * 16 + (two.toNat % 16 * 4 + carry) / 4) = two := by
  have bound := two.toNat_lt
  exact byte_back (by omega)

theorem third_byte : UInt8.ofNat ((two.toNat % 16 * 4 + three.toNat / 64) % 4 * 64 + three.toNat % 64) = three := by
  have bound := three.toNat_lt
  exact byte_back (by omega)

theorem symbols_small : one.toNat / 4 < 64 ∧ one.toNat % 4 * 16 < 64 ∧ one.toNat % 4 * 16 + two.toNat / 16 < 64 ∧
    two.toNat % 16 * 4 < 64 ∧ two.toNat % 16 * 4 + three.toNat / 64 < 64 ∧ three.toNat % 64 < 64 := by
  have bounds := And.intro one.toNat_lt (And.intro two.toNat_lt three.toNat_lt)
  omega

end Groups

theorem decode_encode (bytes : List UInt8) : decode (encode bytes) = some bytes := by
  unfold decode
  induction bytes using encode.induct with
  | case1 => rfl
  | case2 one =>
      obtain ⟨first,second,_⟩ := symbols_small one one one
      have whole := first_byte one 0 (by decide)
      rw [encode,decode_symbol _ first,decode_symbol _ second]
      change some [UInt8.ofNat (one.toNat / 4 * 4 + (one.toNat % 4 * 16 + 0) / 16)] = _
      rw [whole]
  | case3 one two =>
      obtain ⟨first,_,second,third,_⟩ := symbols_small one two two
      have high := two.toNat_lt
      have whole := first_byte one (two.toNat / 16) (by omega)
      have next := second_byte one two 0 (by decide)
      rw [encode,decode_symbol _ first,decode_symbol _ second,decode_symbol _ third]
      change some [UInt8.ofNat (one.toNat / 4 * 4 + (one.toNat % 4 * 16 + two.toNat / 16) / 16),
        UInt8.ofNat ((one.toNat % 4 * 16 + two.toNat / 16) % 16 * 16 + (two.toNat % 16 * 4 + 0) / 4)] = _
      rw [whole,next]
  | case4 one two three rest ih =>
      obtain ⟨first,_,second,_,third,fourth⟩ := symbols_small one two three
      have high := And.intro two.toNat_lt three.toNat_lt
      have whole := first_byte one (two.toNat / 16) (by omega)
      have next := second_byte one two (three.toNat / 64) (by omega)
      have last := third_byte two three
      rw [encode,decode_symbol _ first,decode_symbol _ second,decode_symbol _ third,decode_symbol _ fourth]
      change (((((decodeFrom .zero (encode rest)).map fun bytes => [UInt8.ofNat _] ++ bytes).map fun bytes =>
        [UInt8.ofNat _] ++ bytes).map fun bytes => [UInt8.ofNat _] ++ bytes).map fun bytes => [] ++ bytes) = _
      rw [ih,whole,next,last]
      rfl

theorem encode_alphabet (bytes : List UInt8) : ∀ c ∈ encode bytes, c ∈ alphabet ∨ c = '=' := by
  have listed : ∀ {value : Nat}, value < 64 → symbol value ∈ alphabet ∨ symbol value = '=' := fun small =>
    .inl (symbol_listed small)
  induction bytes using encode.induct with
  | case1 => exact List.forall_mem_nil _
  | case2 one =>
      obtain ⟨first,second,_⟩ := symbols_small one one one
      simp only [encode,List.forall_mem_cons]
      exact ⟨listed first,listed second,.inr trivial,.inr trivial,List.forall_mem_nil _⟩
  | case3 one two =>
      obtain ⟨first,_,second,third,_⟩ := symbols_small one two two
      simp only [encode,List.forall_mem_cons]
      exact ⟨listed first,listed second,listed third,.inr trivial,List.forall_mem_nil _⟩
  | case4 one two three rest ih =>
      obtain ⟨first,_,second,_,third,fourth⟩ := symbols_small one two three
      simp only [encode,List.forall_mem_cons]
      exact ⟨listed first,listed second,listed third,listed fourth,ih⟩
end Base64
