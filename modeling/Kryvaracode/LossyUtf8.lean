import Mathlib

-- UTF-8 as it is read when whatever is not UTF-8 is replaced.
namespace LossyUtf8

def encode (text : List Char) : List UInt8 := text.flatMap String.utf8EncodeChar

def replacement : Char := '\uFFFD'

-- A character of which some bytes were read: how many it lacks, its bits so far and
-- what the next byte may be.
structure Begun where
  lacks : Nat
  bits : Nat
  low : Nat
  high : Nat

def start (byte : Nat) : List Char × Option Begun :=
  if byte < 0x80 then ([Char.ofNat byte],none)
  else if 0xc2 ≤ byte ∧ byte < 0xe0 then ([],some ⟨1,byte % 32,0x80,0xbf⟩)
  else if 0xe0 ≤ byte ∧ byte < 0xf0 then
    ([],some ⟨2,byte % 16,if byte = 0xe0 then 0xa0 else 0x80,if byte = 0xed then 0x9f else 0xbf⟩)
  else if 0xf0 ≤ byte ∧ byte < 0xf5 then
    ([],some ⟨3,byte % 8,if byte = 0xf0 then 0x90 else 0x80,if byte = 0xf4 then 0x8f else 0xbf⟩)
  else ([replacement],none)

-- A byte that cannot go on with a character stands at the start of another.
def step : Option Begun → Nat → List Char × Option Begun
  | none,byte => start byte
  | some begun,byte =>
      if begun.low ≤ byte ∧ byte ≤ begun.high then
        if begun.lacks = 1 then ([Char.ofNat (begun.bits * 64 + byte % 64)],none)
        else ([],some ⟨begun.lacks - 1,begun.bits * 64 + byte % 64,0x80,0xbf⟩)
      else (replacement :: (start byte).1,(start byte).2)

def steps : Option Begun → List UInt8 → List Char × Option Begun
  | state,[] => ([],state)
  | state,byte :: rest =>
      let next := step state byte.toNat
      (next.1 ++ (steps next.2 rest).1,(steps next.2 rest).2)

-- The end of the text leaves one replacement for a character that was begun.
def finish : Option Begun → List Char
  | none => []
  | some _ => [replacement]

def decode (bytes : List UInt8) : List Char := (steps none bytes).1 ++ finish (steps none bytes).2

-- The characters that fit into so many bytes, and whether the next is cut.
def fitting : Nat → List Char → List Char
  | _,[] => []
  | room,c :: rest => if c.utf8Size ≤ room then c :: fitting (room - c.utf8Size) rest else []

def torn : Nat → List Char → Bool
  | _,[] => false
  | room,c :: rest => if c.utf8Size ≤ room then torn (room - c.utf8Size) rest else decide (0 < room)

theorem steps_append (state : Option Begun) (front rest : List UInt8) : steps state (front ++ rest) =
    ((steps state front).1 ++ (steps (steps state front).2 rest).1,(steps (steps state front).2 rest).2) := by
  induction front generalizing state with
  | nil => rfl
  | cons byte front ih => simp only [List.cons_append,steps,ih,List.append_assoc]

theorem byte_value {n : Nat} (small : n < 256) : (UInt8.ofNat n).toNat = n := by
  rw [UInt8.toNat_ofNat',Nat.mod_eq_of_lt small]

theorem step_goes {begun : Begun} {byte : Nat} (inside : begun.low ≤ byte ∧ byte ≤ begun.high) (more : begun.lacks ≠ 1) :
    step (some begun) byte = ([],some ⟨begun.lacks - 1,begun.bits * 64 + byte % 64,0x80,0xbf⟩) := by
  rw [step,if_pos inside,if_neg more]

theorem step_ends {begun : Begun} {byte : Nat} (inside : begun.low ≤ byte ∧ byte ≤ begun.high) (last : begun.lacks = 1) :
    step (some begun) byte = ([Char.ofNat (begun.bits * 64 + byte % 64)],none) := by
  rw [step,if_pos inside,if_pos last]

-- What the bytes of a character come to: nothing until the last, and then the character.
structure Spells (bytes : List UInt8) (c : Char) : Prop where
  whole : steps none bytes = ([c],none)
  part : ∀ count, 0 < count → count < bytes.length → ∃ begun, steps none (bytes.take count) = ([],some begun)

theorem spells_one {c : Char} (small : c.toNat < 0x80) : Spells [UInt8.ofNat c.toNat] c := by
  refine ⟨?_,?_⟩
  · rw [steps,byte_value (by omega),step,start,if_pos small,Char.ofNat_toNat]
    rfl
  · intro count positive short
    rw [List.length_singleton] at short
    omega

theorem spells_two {c : Char} {one two : Nat} (first : 0xc2 ≤ one ∧ one < 0xe0) (second : 0x80 ≤ two ∧ two ≤ 0xbf)
    (value : one % 32 * 64 + two % 64 = c.toNat) : Spells [UInt8.ofNat one,UInt8.ofNat two] c := by
  have opened : step none one = ([],some ⟨1,one % 32,0x80,0xbf⟩) := by
    rw [step,start,if_neg (by omega),if_pos first]
  have started : steps none [UInt8.ofNat one] = ([],some ⟨1,one % 32,0x80,0xbf⟩) := by
    rw [steps,byte_value (by omega),opened]
    rfl
  refine ⟨?_,?_⟩
  · rw [← List.singleton_append,steps_append,started,steps,byte_value (by omega),step_ends second rfl,value,Char.ofNat_toNat]
    rfl
  · intro count positive short
    obtain rfl : count = 1 := by
      simp only [List.length_cons,List.length_nil] at short
      omega
    exact ⟨_,started⟩

theorem spells_three {c : Char} {one two three low high : Nat} (small : one < 256) (opened : start one = ([],some ⟨2,one % 16,low,high⟩))
    (second : low ≤ two ∧ two ≤ high) (bound : two < 256) (third : 0x80 ≤ three ∧ three ≤ 0xbf)
    (value : (one % 16 * 64 + two % 64) * 64 + three % 64 = c.toNat) :
    Spells [UInt8.ofNat one,UInt8.ofNat two,UInt8.ofNat three] c := by
  have started : steps none [UInt8.ofNat one] = ([],some ⟨2,one % 16,low,high⟩) := by
    rw [steps,byte_value small,step,opened]
    rfl
  have further : steps none [UInt8.ofNat one,UInt8.ofNat two] = ([],some ⟨1,one % 16 * 64 + two % 64,0x80,0xbf⟩) := by
    rw [← List.singleton_append,steps_append,started,steps,byte_value bound,step_goes second (show 2 ≠ 1 by decide)]
    rfl
  refine ⟨?_,?_⟩
  · change steps none ([UInt8.ofNat one,UInt8.ofNat two] ++ [UInt8.ofNat three]) = _
    rw [steps_append,further,steps,byte_value (by omega),step_ends third rfl,value,Char.ofNat_toNat]
    rfl
  · intro count positive short
    simp only [List.length_cons,List.length_nil] at short
    obtain rfl | rfl : count = 1 ∨ count = 2 := by omega
    · exact ⟨_,started⟩
    · exact ⟨_,further⟩

theorem spells_four {c : Char} {one two three four low high : Nat} (small : one < 256)
    (opened : start one = ([],some ⟨3,one % 8,low,high⟩)) (second : low ≤ two ∧ two ≤ high) (bound : two < 256)
    (third : 0x80 ≤ three ∧ three ≤ 0xbf) (fourth : 0x80 ≤ four ∧ four ≤ 0xbf)
    (value : ((one % 8 * 64 + two % 64) * 64 + three % 64) * 64 + four % 64 = c.toNat) :
    Spells [UInt8.ofNat one,UInt8.ofNat two,UInt8.ofNat three,UInt8.ofNat four] c := by
  have started : steps none [UInt8.ofNat one] = ([],some ⟨3,one % 8,low,high⟩) := by
    rw [steps,byte_value small,step,opened]
    rfl
  have further : steps none [UInt8.ofNat one,UInt8.ofNat two] = ([],some ⟨2,one % 8 * 64 + two % 64,0x80,0xbf⟩) := by
    rw [← List.singleton_append,steps_append,started,steps,byte_value bound,step_goes second (show 3 ≠ 1 by decide)]
    rfl
  have almost : steps none [UInt8.ofNat one,UInt8.ofNat two,UInt8.ofNat three] =
      ([],some ⟨1,(one % 8 * 64 + two % 64) * 64 + three % 64,0x80,0xbf⟩) := by
    change steps none ([UInt8.ofNat one,UInt8.ofNat two] ++ [UInt8.ofNat three]) = _
    rw [steps_append,further,steps,byte_value (by omega),step_goes third (show 2 ≠ 1 by decide)]
    rfl
  refine ⟨?_,?_⟩
  · change steps none ([UInt8.ofNat one,UInt8.ofNat two,UInt8.ofNat three] ++ [UInt8.ofNat four]) = _
    rw [steps_append,almost,steps,byte_value (by omega),step_ends fourth rfl,value,Char.ofNat_toNat]
    rfl
  · intro count positive short
    simp only [List.length_cons,List.length_nil] at short
    obtain rfl | rfl | rfl : count = 1 ∨ count = 2 ∨ count = 3 := by omega
    · exact ⟨_,started⟩
    · exact ⟨_,further⟩
    · exact ⟨_,almost⟩

theorem start_three {byte : Nat} (range : 0xe0 ≤ byte ∧ byte < 0xf0) : start byte =
    ([],some ⟨2,byte % 16,if byte = 0xe0 then 0xa0 else 0x80,if byte = 0xed then 0x9f else 0xbf⟩) := by
  rw [start,if_neg (by omega),if_neg (by omega),if_pos range]

theorem start_four {byte : Nat} (range : 0xf0 ≤ byte ∧ byte < 0xf5) : start byte =
    ([],some ⟨3,byte % 8,if byte = 0xf0 then 0x90 else 0x80,if byte = 0xf4 then 0x8f else 0xbf⟩) := by
  rw [start,if_neg (by omega),if_neg (by omega),if_neg (by omega),if_pos range]

-- The cases are the four lengths; a surrogate is no character.
theorem char_spells (c : Char) : Spells (String.utf8EncodeChar c) c := by
  have valid : c.toNat < 0xd800 ∨ 0xdfff < c.toNat ∧ c.toNat < 0x110000 := c.valid
  have same : c.val.toNat = c.toNat := rfl
  unfold String.utf8EncodeChar
  rw [same]
  dsimp only
  split
  next small => exact spells_one (by omega)
  next =>
    split
    next => exact spells_two (by omega) (by omega) (by omega)
    next =>
      split
      next => refine spells_three (by omega) (start_three (by omega)) ⟨?_,?_⟩ (by omega) (by omega) (by omega) <;> split <;> omega
      next =>
        refine spells_four (by omega) (start_four (by omega)) ⟨?_,?_⟩ (by omega) (by omega) (by omega) (by omega) <;>
          split <;> omega

theorem encode_cons (c : Char) (text : List Char) : encode (c :: text) = String.utf8EncodeChar c ++ encode text := by
  rw [encode,List.flatMap_cons]
  rfl

theorem encoded_length (c : Char) : (String.utf8EncodeChar c).length = c.utf8Size := String.length_utf8EncodeChar c

theorem decode_whole (c : Char) (bytes : List UInt8) : decode (String.utf8EncodeChar c ++ bytes) = c :: decode bytes := by
  unfold decode
  rw [steps_append,(char_spells c).whole]
  rfl

theorem decode_part (c : Char) (count : Nat) (short : count < c.utf8Size) :
    decode ((String.utf8EncodeChar c).take count) = if 0 < count then [replacement] else [] := by
  rcases Nat.eq_zero_or_pos count with none | positive
  · rw [none,List.take_zero]
    rfl
  · obtain ⟨begun,same⟩ := (char_spells c).part count positive (by rwa [encoded_length])
    rw [decode,same,if_pos positive]
    rfl

-- Cut anywhere, a text comes back up to the last character that fits.
theorem decode_take (room : Nat) (text : List Char) :
    decode ((encode text).take room) = fitting room text ++ if torn room text then [replacement] else [] := by
  induction text generalizing room with
  | nil =>
      rw [encode,List.flatMap_nil,List.take_nil]
      rfl
  | cons c text ih =>
      rw [encode_cons,fitting,torn]
      by_cases fits : c.utf8Size ≤ room
      · rw [if_pos fits,if_pos fits,List.take_append,encoded_length,List.take_of_length_le (by rwa [encoded_length]),decode_whole,ih]
        rfl
      · rw [if_neg fits,if_neg fits,List.take_append_of_le_length (by rw [encoded_length]; omega),decode_part c room (by omega)]
        simp only [decide_eq_true_eq,List.nil_append]

theorem fitting_whole (room : Nat) (text : List Char) (fits : (encode text).length ≤ room) :
    fitting room text = text ∧ torn room text = false := by
  induction text generalizing room with
  | nil => exact ⟨rfl,rfl⟩
  | cons c text ih =>
      rw [encode_cons,List.length_append,encoded_length] at fits
      obtain ⟨same,whole⟩ := ih (room - c.utf8Size) (by omega)
      rw [fitting,torn,if_pos (by omega),if_pos (by omega),same]
      exact ⟨rfl,whole⟩

end LossyUtf8
