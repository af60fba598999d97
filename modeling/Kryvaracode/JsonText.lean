import Kryvaracode.UnicodeText
import Kryvaracode.HiddenText

-- JSON values and the text a default encoder prints for them, in ASCII.
namespace JsonText
open HiddenText

-- A float is kept as the digits it prints as.
inductive Json where
  | null
  | bool (value : Bool)
  | int (value : Int)
  | float (printed : Text)
  | str (value : Text)
  | arr (items : List Json)
  | obj (members : List (Text × Json))

abbrev Members := List (Text × Json)

def hexFour (code : Nat) : Text :=
  [code / 4096,code / 256 % 16,code / 16 % 16,code % 16].map Nat.digitChar

-- A character outside the ASCII range is written as one or two UTF-16 units.
def escaped (c : Char) : Text :=
  if c = '"' then "\\\"".toList
  else if c = '\\' then "\\\\".toList
  else if c = '\n' then "\\n".toList
  else if c = '\r' then "\\r".toList
  else if c = '\t' then "\\t".toList
  else if c = '\x08' then "\\b".toList
  else if c = '\x0c' then "\\f".toList
  else if ' ' ≤ c ∧ c ≤ '~' then [c]
  else if c.toNat < 0x10000 then "\\u".toList ++ hexFour c.toNat
  else "\\u".toList ++ hexFour (0xd800 + (c.toNat - 0x10000) / 0x400) ++
    "\\u".toList ++ hexFour (0xdc00 + (c.toNat - 0x10000) % 0x400)

def encoded (text : Text) : Text := '"' :: text.flatMap escaped ++ ['"']

def enclosed (opening closing : Char) (parts : List Text) : Text :=
  [opening] ++ ", ".toList.intercalate parts ++ [closing]

def labelled (key value : Text) : Text := encoded key ++ ": ".toList ++ value

mutual
def dumps : Json → Text
  | .null => "null".toList
  | .bool true => "true".toList
  | .bool false => "false".toList
  | .int value => (toString value).toList
  | .float printed => printed
  | .str value => encoded value
  | .arr items => enclosed '[' ']' (dumpsItems items)
  | .obj members => enclosed '{' '}' (dumpsMembers members)
def dumpsItems : List Json → List Text
  | [] => []
  | item :: items => dumps item :: dumpsItems items
def dumpsMembers : Members → List Text
  | [] => []
  | (key,value) :: members => labelled key (dumps value) :: dumpsMembers members
end

section Hidden
variable (hidden : Text → Bool)

-- The same value in place of every value stored under a hidden key.
mutual
def fill (value : Json) : Json → Json
  | .arr items => .arr (fillItems value items)
  | .obj members => .obj (fillMembers value members)
  | other => other
def fillItems (value : Json) : List Json → List Json
  | [] => []
  | item :: items => fill value item :: fillItems value items
def fillMembers (value : Json) : Members → Members
  | [] => []
  | (key,inner) :: members => (key,if hidden key then value else fill value inner) :: fillMembers value members
end

def masked (json : Json) : Json := fill hidden .null json

def enclosedLayout (opening closing : Char) (parts : List (List (Option Char))) : List (Option Char) :=
  [opening].map some ++ (", ".toList.map some).intercalate parts ++ [closing].map some

def labelledLayout (key : Text) (place : List (Option Char)) : List (Option Char) :=
  (encoded key ++ ": ".toList).map some ++ place

-- Where the text of a value shows what no hidden key governs.
mutual
def layout : Json → List (Option Char)
  | .arr items => enclosedLayout '[' ']' (layoutItems items)
  | .obj members => enclosedLayout '{' '}' (layoutMembers members)
  | other => (dumps other).map some
def layoutItems : List Json → List (List (Option Char))
  | [] => []
  | item :: items => layout item :: layoutItems items
def layoutMembers : Members → List (List (Option Char))
  | [] => []
  | (key,value) :: members => labelledLayout key (if hidden key then [none] else layout value) :: layoutMembers members
end

end Hidden

theorem dumpsItems_map (items : List Json) : dumpsItems items = items.map dumps := by
  induction items with
  | nil => rfl
  | cons item items ih => rw [dumpsItems,ih,List.map_cons]

theorem dumpsMembers_map (members : Members) :
    dumpsMembers members = members.map fun entry => labelled entry.1 (dumps entry.2) := by
  induction members with
  | nil => rfl
  | cons entry members ih => rw [dumpsMembers,ih,List.map_cons]

theorem fillItems_map (hidden : Text → Bool) (value : Json) (items : List Json) :
    fillItems hidden value items = items.map (fill hidden value) := by
  induction items with
  | nil => rfl
  | cons item items ih => rw [fillItems,ih,List.map_cons]

theorem fillMembers_map (hidden : Text → Bool) (value : Json) (members : Members) : fillMembers hidden value members =
    members.map fun entry => (entry.1,if hidden entry.1 then value else fill hidden value entry.2) := by
  induction members with
  | nil => rfl
  | cons entry members ih => rw [fillMembers,ih,List.map_cons]

theorem layoutItems_map (hidden : Text → Bool) (items : List Json) : layoutItems hidden items = items.map (layout hidden) := by
  induction items with
  | nil => rfl
  | cons item items ih => rw [layoutItems,ih,List.map_cons]

theorem layoutMembers_map (hidden : Text → Bool) (members : Members) : layoutMembers hidden members =
    members.map fun entry => labelledLayout entry.1 (if hidden entry.1 then [none] else layout hidden entry.2) := by
  induction members with
  | nil => rfl
  | cons entry members ih => rw [layoutMembers,ih,List.map_cons]

-- Induction over a value, with the hypothesis for every item and every member.
theorem Json.induction {motive : Json → Prop} (null : motive .null) (bool : ∀ value, motive (.bool value))
    (int : ∀ value, motive (.int value)) (float : ∀ printed, motive (.float printed)) (str : ∀ value, motive (.str value))
    (arr : ∀ items, (∀ item ∈ items, motive item) → motive (.arr items))
    (obj : ∀ members : Members, (∀ entry ∈ members, motive entry.2) → motive (.obj members)) (json : Json) : motive json :=
  @Json.rec motive (fun items => ∀ item ∈ items, motive item) (fun members => ∀ entry ∈ members, motive entry.2)
    (fun entry => motive entry.2) null bool int float str arr obj (by simp) (fun _ _ first rest => List.forall_mem_cons.mpr ⟨first,rest⟩) (by simp)
    (fun _ _ first rest => List.forall_mem_cons.mpr ⟨first,rest⟩) (fun _ _ inner => inner) json

section Parts
variable {μ : Type} (place : μ → List (Option Char)) (text : μ → Text) (opening closing : Char)

theorem enclosed_fills (parts : List μ) (each : ∀ part ∈ parts, Fills (place part) (text part)) :
    Fills (enclosedLayout opening closing (parts.map place)) (enclosed opening closing (parts.map text)) :=
  ((fills_shown [opening]).append (fills_separated _ place text parts each)).append (fills_shown [closing])

theorem enclosed_filled (value : Text) (parts : List μ) : filled value (enclosedLayout opening closing (parts.map place)) =
    enclosed opening closing (parts.map fun part => filled value (place part)) := by
  simp only [enclosedLayout,enclosed,filled_append,filled_shown,filled_separated]

theorem labelled_fills (key : Text) (fills : Fills shown value) : Fills (labelledLayout key shown) (labelled key value) :=
  (fills_shown _).append fills

theorem labelled_filled (value key : Text) (place : List (Option Char)) :
    filled value (labelledLayout key place) = labelled key (filled value place) := by
  simp only [labelledLayout,labelled,filled_append,filled_shown]

end Parts

section Facts
variable (hidden : Text → Bool)

theorem layout_fill (value json : Json) : layout hidden (fill hidden value json) = layout hidden json := by
  induction json using Json.induction with
  | arr items ih =>
    simp only [fill,layout,fillItems_map,layoutItems_map,List.map_map]
    exact congrArg _ (List.map_congr_left ih)
  | obj members ih =>
    simp only [fill,layout,fillMembers_map,layoutMembers_map,List.map_map]
    refine congrArg _ (List.map_congr_left fun entry member => congrArg (labelledLayout entry.1) ?_)
    by_cases secret : hidden entry.1 = true
    · simp [secret]
    · simpa [secret] using ih entry member
  | _ => rfl

theorem fill_fill (value other json : Json) : fill hidden value (fill hidden other json) = fill hidden value json := by
  induction json using Json.induction with
  | arr items ih =>
    simp only [fill,fillItems_map,List.map_map]
    exact congrArg _ (List.map_congr_left ih)
  | obj members ih =>
    simp only [fill,fillMembers_map,List.map_map]
    refine congrArg _ (List.map_congr_left fun entry member => congrArg (Prod.mk entry.1) ?_)
    by_cases secret : hidden entry.1 = true
    · simp [secret]
    · simpa [secret] using ih entry member
  | _ => rfl

theorem masked_fill (value json : Json) : masked hidden (fill hidden value json) = masked hidden json :=
  fill_fill hidden .null value json

theorem dumps_fills (json : Json) : Fills (layout hidden json) (dumps json) := by
  induction json using Json.induction with
  | arr items ih =>
    simp only [layout,dumps,layoutItems_map,dumpsItems_map]
    exact enclosed_fills _ _ _ _ items ih
  | obj members ih =>
    simp only [layout,dumps,layoutMembers_map,dumpsMembers_map]
    refine enclosed_fills _ _ _ _ members fun entry member => labelled_fills entry.1 ?_
    by_cases secret : hidden entry.1 = true
    · simpa [secret] using fills_hidden _
    · simpa [secret] using ih entry member
  | _ => exact fills_shown _

theorem dumps_fill (value json : Json) : dumps (fill hidden value json) = filled (dumps value) (layout hidden json) := by
  induction json using Json.induction with
  | arr items ih =>
    simp only [layout,dumps,fill,layoutItems_map,dumpsItems_map,fillItems_map,List.map_map,enclosed_filled]
    exact congrArg _ (List.map_congr_left ih)
  | obj members ih =>
    simp only [layout,dumps,fill,layoutMembers_map,dumpsMembers_map,fillMembers_map,List.map_map,enclosed_filled,
      labelled_filled]
    refine congrArg _ (List.map_congr_left fun entry member => congrArg (labelled entry.1) ?_)
    by_cases secret : hidden entry.1 = true
    · simp [secret,filled_hidden]
    · simpa [secret] using ih entry member
  | _ => exact (filled_shown _ _).symm

end Facts
end JsonText
