import Kryvaracode.BlockLayout
import Kryvaracode.ForgeManager

namespace Kryvaracode.Synthesizer
open UnicodeText ToolVerifier ForgeManager BlockLayout Runs

variable (tables : Tables) (repr : Text → Text)

def newline : Text := ['\n']

def paramType : ParameterInfo → Text
  | .dict type => type.getD "Any".toList
  | .text _ | .other => "Any".toList

def imports : List Text :=
  ["import os".toList,"import sys".toList,"import json".toList,"from typing import Any, Dict, List".toList]

def mapping : List (Text × Text) :=
  [("http".toList,"import requests".toList),
    ("file".toList,"import pathlib".toList),
    ("data".toList,"import pandas as pd".toList),
    ("math".toList,"import numpy as np".toList),
    ("system".toList,"import psutil".toList),
    ("shell".toList,"import subprocess".toList)]

def determineImports (logicHint : Text) : Text :=
  newline.intercalate (imports ++
    (mapping.filter fun row => decide (row.1 <:+: tables.lower logicHint)).map Prod.snd)

def paramLines (param : Text) : List Text :=
  ["# Processing ".toList ++ param ++ "...".toList,
    "result['data'][".toList ++ repr param ++ "] = f'Processed \x7b ".toList ++ param ++ " \x7d'".toList]

def startLines (logicHint : Text) : List Text :=
  ["# Logic synthesized from hint: ".toList ++ logicHint,
    "result = \x7b'status': 'success', 'data': \x7b\x7d\x7d".toList]

def generateLogicBody (logicHint : Text) (params : List Text) : Text :=
  newline.intercalate (startLines logicHint ++ params.flatMap (paramLines repr) ++ ["return result".toList])

def margin : Text := "    ".toList

def indentLine (line : Text) : Text := if strip line ≠ [] then margin ++ line else line

def indented (text : Text) : Text := newline.intercalate ((text.splitOn '\n').map indentLine)

def lessonBlock (lessons : Option (List Text)) : Text :=
  match lessons.getD [] with
  | [] => []
  | lesson :: rest =>
      "    # LEARNED CONSTRAINTS:\n".toList ++
        newline.intercalate ((lesson :: rest).map fun lesson => "    # - ".toList ++ lesson) ++ newline

def indentedLessons (lessons : Option (List Text)) : Text :=
  match lessonBlock lessons with
  | [] => []
  | c :: block => indented (c :: block)

def argsStr (parameters : List (Text × ParameterInfo)) : Text :=
  (", ".toList).intercalate (parameters.map fun row => row.1 ++ ": ".toList ++ paramType row.2)

-- The template, before the body and behind it.
def opening (spec : Spec) (lessons : Option (List Text)) : Text :=
  determineImports tables (spec.logicHint.getD []) ++ "\n\ndef execute(".toList ++ argsStr spec.parameters ++
    ") -> Any:\n    \"\"\"\n    ".toList ++
    spec.description.getD "Synthesized tool implementation.".toList ++ "\n    \"\"\"\n    try:\n".toList ++
    indentedLessons lessons

def closing : Text := "\n    except Exception as e:\n        return f\"Execution Error: \x7bstr(e)\x7d\"\n".toList

def synthesize (spec : Spec) (lessons : Option (List Text)) : Text :=
  opening tables spec lessons ++
    indented (generateLogicBody repr (spec.logicHint.getD []) (spec.parameters.map Prod.fst)) ++ closing

theorem intercalate_append {front back : List Text} (some_front : front ≠ []) (some_back : back ≠ []) :
    newline.intercalate (front ++ back) = newline.intercalate front ++ '\n' :: newline.intercalate back := by
  induction front with
  | nil => exact absurd rfl some_front
  | cons line front ih =>
      cases front with
      | nil =>
          rw [List.singleton_append,List.intercalate_cons_of_ne_nil some_back,List.intercalate_singleton,List.append_assoc]
          rfl
      | cons next front =>
          have later := ih (List.cons_ne_nil next front)
          rw [List.cons_append] at later
          rw [List.cons_append,List.cons_append,List.intercalate_cons_cons,later,List.intercalate_cons_cons]
          simp only [List.append_assoc]

theorem indented_append (front back : Text) :
    indented (front ++ '\n' :: back) = indented front ++ '\n' :: indented back := by
  unfold indented
  rw [List.splitOn_append_cons_self,List.map_append]
  exact intercalate_append (by simp) (by simp)

theorem indented_line {line : Text} (single : '\n' ∉ line) : indented line = indentLine line := by
  rw [indented,List.splitOn_eq_singleton single,List.map_singleton,List.intercalate_singleton]

theorem indentLine_ends (line : Text) {c : Char} (inked : space c = false) :
    indentLine (line ++ [c]) = margin ++ line ++ [c] := by
  have shown : strip (line ++ [c]) ≠ [] := by
    intro blank
    obtain ⟨front,back,whole,left,right⟩ := strip_parts (line ++ [c])
    have member : c ∈ front ++ strip (line ++ [c]) ++ back := whole ▸ by simp
    rw [blank,List.append_nil,List.mem_append] at member
    exact absurd (member.elim (left c) (right c)) (by rw [inked]; exact Bool.false_ne_true)
  rw [indentLine,if_pos shown,List.append_assoc]

-- Only the last line decides how the indented text ends.
theorem indented_ends (text : Text) {c : Char} (inked : space c = false) (apart : c ≠ '\n') :
    ∃ front, indented (text ++ [c]) = front ++ [c] := by
  by_cases many : '\n' ∈ text
  · obtain ⟨last,first,whole,single⟩ := List.eq_append_cons_of_mem (List.mem_reverse.mpr many)
    have parts : text = first.reverse ++ '\n' :: last.reverse := by
      rw [← List.reverse_reverse text,whole]
      simp
    have line : '\n' ∉ last.reverse ++ [c] := by simp [single,apart.symm]
    rw [parts,List.append_assoc,List.cons_append,indented_append,indented_line line,indentLine_ends _ inked]
    exact ⟨indented first.reverse ++ '\n' :: (margin ++ last.reverse),by simp⟩
  · have line : '\n' ∉ text ++ [c] := by simp [many,apart.symm]
    rw [indented_line line,indentLine_ends _ inked]
    exact ⟨margin ++ text,rfl⟩

-- The part of the text behind its last changing line.
def ending : Text :=
  "    return result\n    except Exception as e:\n        return f\"Execution Error: \x7bstr(e)\x7d\"\n".toList

def handler : Text := "        return f\"Execution Error: \x7bstr(e)\x7d\"\n".toList

def returnLine : Line := ⟨4,"return result".toList⟩
def exceptLine : Line := ⟨4,"except Exception as e:".toList⟩

-- `String.toList_ofList` turns a literal into its characters, which the kernel would take long to do.
theorem ending_lines : ending = (List.replicate 4 ' ' ++ 'r' :: "eturn result".toList ++ ['\n']) ++
    ((List.replicate 4 ' ' ++ 'e' :: "xcept Exception as e:".toList ++ ['\n']) ++ handler) := by
  delta ending handler
  repeat rewrite [String.toList_ofList]
  rfl

theorem ending_literal : ending = "    return result\n    except Exception as e:\n        return f".toList ++
    ((Mark.double.char :: 'E' :: "xecution Error: \x7bstr(e)\x7d".toList ++ [Mark.double.char]) ++ ['\n']) := by
  delta ending
  repeat rewrite [String.toList_ofList]
  rfl

theorem ending_enclosed (close : Char) (brackets : Chars) (indent : Nat) (current : Chars) (lines : List Line) :
    (run Reader.feed ⟨.code,close :: brackets,indent,current,lines,false⟩ ending).finish = none := by
  have before : ("    return result\n    except Exception as e:\n        return f".toList.all
      fun c => decide (c = '\n') || plain c) = true := by
    rewrite [String.toList_ofList]
    rfl
  have quoted : ('E' :: "xecution Error: \x7bstr(e)\x7d".toList).all (inner .double) = true := by
    rewrite [String.toList_ofList]
    rfl
  obtain ⟨longer,start⟩ := read_enclosed brackets indent current lines close (List.all_eq_true.mp before)
  rw [ending_literal,run_append,start,run_append,read_literal _ _ _ _ .double (List.all_eq_true.mp quoted)]
  rfl

theorem ending_within (mark : Mark) (brackets : Chars) (indent : Nat) (current : Chars) (lines : List Line) :
    (run Reader.feed ⟨.tripled mark 0,brackets,indent,current,lines,false⟩ ending).finish = none := by
  have plainly : (ending.all fun c => c != '\r' && c != '\\') = true := by
    delta ending
    rewrite [String.toList_ofList]
    rfl
  have apart : ending.IsChain fun c d => ¬ (c = mark.char ∧ d = mark.char) := by
    delta ending
    rewrite [String.toList_ofList]
    cases mark <;> decide +kernel
  obtain ⟨seen,longer,still⟩ := read_tripled brackets indent current lines mark (List.all_eq_true.mp plainly) apart 0 (.inl rfl)
  rw [still]
  exact ite_self none

theorem returnLine_read (lines : List Line) : run Reader.feed ⟨.margin,[],0,[],lines,false⟩
    (List.replicate 4 ' ' ++ 'r' :: "eturn result".toList ++ ['\n']) = ⟨.margin,[],0,[],lines ++ [returnLine],false⟩ := by
  have plainly : "eturn result".toList.all plain = true := by
    rewrite [String.toList_ofList]
    rfl
  have same : returnLine.text = 'r' :: "eturn result".toList := by
    delta returnLine
    repeat rewrite [String.toList_ofList]
    rfl
  rw [read_line lines 4 (by decide) (List.all_eq_true.mp plainly),← same]
  rfl

theorem exceptLine_read (lines : List Line) : run Reader.feed ⟨.margin,[],0,[],lines,false⟩
    (List.replicate 4 ' ' ++ 'e' :: "xcept Exception as e:".toList ++ ['\n']) =
      ⟨.margin,[],0,[],lines ++ [exceptLine],false⟩ := by
  have plainly : "xcept Exception as e:".toList.all plain = true := by
    rewrite [String.toList_ofList]
    rfl
  have same : exceptLine.text = 'e' :: "xcept Exception as e:".toList := by
    delta exceptLine
    repeat rewrite [String.toList_ofList]
    rfl
  rw [read_line lines 4 (by decide) (List.all_eq_true.mp plainly),← same]
  rfl

-- Whatever stands before it, the ending leaves `try` and its clause side by side.
theorem ending_refused {c : Char} (its : ink c = true) (front : Text) (functions : List (Text × List Text)) :
    ¬ Defines (front ++ c :: '\n' :: ending) functions := by
  rintro ⟨whole,accepted,blocks,_⟩
  obtain ⟨lines,read⟩ := layout_resumes its front ending ending_enclosed ending_within accepted
  rw [ending_lines,run_append,returnLine_read,run_append,exceptLine_read] at read
  obtain ⟨back,rfl⟩ := (run_lines _ handler).trans (finish_lines _ read)
  have flat : returnLine.header = false := by
    delta returnLine
    rewrite [String.toList_ofList]
    rfl
  have clause : follows returnLine.word exceptLine.word = false := by
    delta returnLine exceptLine
    repeat rewrite [String.toList_ofList]
    decide +kernel
  have level : exceptLine.indent = returnLine.indent := rfl
  have refused := siblings_refused level flat clause lines back
  have same : lines ++ [returnLine] ++ [exceptLine] ++ back = lines ++ returnLine :: exceptLine :: back := by simp
  change nested (lines ++ [returnLine] ++ [exceptLine] ++ back) = true at blocks
  rw [same,refused] at blocks
  cases blocks

theorem lines_end (logicHint : Text) (params : List Text) : ∃ front line c, front ≠ [] ∧ (c = '\x7d' ∨ c = '\'') ∧
    startLines logicHint ++ params.flatMap (paramLines repr) = front ++ [line ++ [c]] := by
  rcases List.eq_nil_or_concat params with rfl | ⟨earlier,param,rfl⟩
  · exact ⟨["# Logic synthesized from hint: ".toList ++ logicHint],
      "result = \x7b'status': 'success', 'data': \x7b\x7d".toList,'\x7d',by simp,.inl rfl,rfl⟩
  · refine ⟨startLines logicHint ++ earlier.flatMap (paramLines repr) ++ ["# Processing ".toList ++ param ++ "...".toList],
      "result['data'][".toList ++ repr param ++ "] = f'Processed \x7b ".toList ++ param ++ " \x7d".toList,'\'',
      by simp,.inr rfl,?_⟩
    have last : " \x7d'".toList = " \x7d".toList ++ ['\''] := by
      repeat rewrite [String.toList_ofList]
      rfl
    rw [List.concat_eq_append,List.flatMap_append,List.flatMap_singleton,paramLines,last]
    simp only [List.append_assoc,List.cons_append,List.nil_append]

theorem body_ends (logicHint : Text) (params : List Text) : ∃ front c, (c = '\x7d' ∨ c = '\'') ∧
    generateLogicBody repr logicHint params = front ++ [c] ++ '\n' :: "return result".toList := by
  obtain ⟨front,line,c,earlier,shown,whole⟩ := lines_end repr logicHint params
  refine ⟨newline.intercalate front ++ '\n' :: line,c,shown,?_⟩
  rw [generateLogicBody,whole,intercalate_append (by simp) (by simp),intercalate_append earlier (by simp),
    List.intercalate_singleton,List.intercalate_singleton]
  simp only [List.append_assoc,List.cons_append]

-- The body's last line stands as deep as the `try` above it and the clause below.
theorem synthesize_ends (spec : Spec) (lessons : Option (List Text)) : ∃ front c, ink c = true ∧
    synthesize tables repr spec lessons = front ++ c :: '\n' :: ending := by
  obtain ⟨text,c,shown,body⟩ := body_ends repr (spec.logicHint.getD []) (spec.parameters.map Prod.fst)
  obtain ⟨inked,apart,its⟩ : space c = false ∧ c ≠ '\n' ∧ ink c = true := by
    rcases shown with rfl | rfl <;> decide
  obtain ⟨front,last⟩ := indented_ends text inked apart
  have returned : indented "return result".toList = "    return result".toList := by
    repeat rewrite [String.toList_ofList]
    decide +kernel
  have close : ending = "    return result".toList ++ closing := by
    delta ending closing
    repeat rewrite [String.toList_ofList]
    rfl
  refine ⟨opening tables spec lessons ++ front,c,its,?_⟩
  rw [synthesize,body,indented_append,last,returned,close]
  simp only [List.append_assoc,List.cons_append,List.nil_append]

-- As above, with the body where a block can start.
example : Defines ("from typing import Any\n\ndef execute(a: int, b: Any) -> Any:\n    \"\"\"\n    Adds\n    \"\"\"\n".toList ++
    "    try:\n        # - lesson\n        result = \x7b'status': 'success'\x7d\n        return result\n".toList ++
    "    except Exception as e:\n        return f\"Execution Error: \x7bstr(e)\x7d\"\n".toList)
    [("execute".toList,[['a'],['b']])] := by
  repeat rewrite [String.toList_ofList]
  decide +kernel

theorem never_loads (spec : Spec) (lessons : Option (List Text)) :
    ¬ Defines (synthesize tables repr spec lessons) [("execute".toList,spec.parameters.map Prod.fst)] := by
  obtain ⟨front,c,its,whole⟩ := synthesize_ends tables repr spec lessons
  rw [whole]
  exact ending_refused its front _

def keywords : List Text :=
  ["False","None","True","and","as","assert","async","await","break","class","continue","def","del","elif","else",
    "except","finally","for","from","global","if","import","in","is","lambda","nonlocal","not","or","pass","raise",
    "return","try","while","with","yield"].map String.toList

-- Those in ASCII.
def identifier : Text → Bool
  | [] => false
  | c :: rest => (c.isAlpha || c = '_') && rest.all wordChar

def oneLine (text : Text) : Bool :=
  !text.contains '\n' && !text.contains '\\' && !decide (['"','"','"'] <:+: text) && !decide (['\'','\'','\''] <:+: text)

-- What the synthesizer may be asked for.
def Valid (spec : Spec) (lessons : Option (List Text)) : Prop :=
  (spec.parameters.map Prod.fst).Nodup ∧
    (spec.parameters.all fun row => identifier row.1 && !keywords.contains row.1 && identifier (paramType row.2)) = true ∧
    oneLine (spec.description.getD []) = true ∧ oneLine (spec.logicHint.getD []) = true ∧
    (lessons.getD []).all oneLine = true

def adder : Spec :=
  ⟨some "simple_adder".toList,some "Adds two numbers".toList,
    [(['a'],.dict (some "int".toList)),(['b'],.dict (some "int".toList))],some "a + b".toList⟩

theorem adder_not_loaded : Valid adder none ∧
    ¬ Defines (synthesize ascii (fun name => '\'' :: name ++ ['\'']) adder none) [("execute".toList,[['a'],['b']])] := by
  obtain ⟨front,c,its,whole⟩ := synthesize_ends ascii (fun name => '\'' :: name ++ ['\'']) adder none
  refine ⟨⟨by decide,by decide +kernel,by decide +kernel,by decide +kernel,rfl⟩,?_⟩
  rw [whole]
  exact ending_refused its front _

end Kryvaracode.Synthesizer
