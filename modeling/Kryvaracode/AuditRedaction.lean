import Kryvaracode.ToolInvocation

namespace Kryvaracode.AuditRedaction
open UnicodeText HiddenText JsonText ToolInvocation

variable (tables : Tables)

-- The dicts that differ from this one only in values under sensitive keys.
def Alike (arguments other : Members) : Prop :=
  masked (sensitive tables) (.obj other) = masked (sensitive tables) (.obj arguments)

def written (tool : Tool) (arguments : Members) (session : Session) (user : Option User) : List AuditLog :=
  (invokeTool tables [tool] tool.name arguments session user).1.audit.drop
    (course tool arguments session user).1.audit.length

def loggedFields (row : AuditLog) : Option Text × Option Text := (row.arguments,row.error)

def logged (tool : Tool) (arguments : Members) (session : Session) (user : Option User) : List (Option Text × Option Text) :=
  (written tables tool arguments session user).map loggedFields

def Noninterfering (tool : Tool) (session : Session) (user : Option User) (arguments : Members) : Prop :=
  ∀ other, Alike tables arguments other → logged tables tool other session user = logged tables tool arguments session user

def errorField (told : Bool × Option Text) : Option Text := if truthy told.2 then told.2.map (·.take 2000) else none

theorem logged_report (tool : Tool) (arguments : Members) (session : Session) (user : Option User) :
    logged tables tool arguments session user = ((report tool arguments session user).map fun told =>
      (some ((dumps (.obj (sanitizeArguments tables arguments))).take 4000),errorField told)).toList := by
  have found : getTool [tool] tool.name = some tool := by simp [getTool]
  rw [logged,written,invokeTool_audit tables [tool] tool.name tool found,List.drop_left]
  cases report tool arguments session user with
  | none => rfl
  | some told => rfl

-- What the logged text shows: a top-level sensitive value is replaced, one
-- further in is printed.
def rowLayout (arguments : Members) : List (Option Char) :=
  enclosedLayout '{' '}' (arguments.map fun (key,value) =>
    labelledLayout key (if sensitive tables key then (dumps (.str "***".toList)).map some else layout (sensitive tables) value))

theorem row_fills (arguments : Members) : Fills (rowLayout tables arguments) (dumps (.obj (sanitizeArguments tables arguments))) := by
  simp only [dumps,dumpsMembers_map,sanitizeArguments,List.map_map]
  refine enclosed_fills _ _ _ _ arguments fun entry member => labelled_fills entry.1 ?_
  by_cases secret : sensitive tables entry.1 = true
  · simpa [secret] using fills_shown _
  · simpa [secret] using dumps_fills (sensitive tables) entry.2

theorem rowLayout_fill (value : Json) (arguments : Members) :
    rowLayout tables (fillMembers (sensitive tables) value arguments) = rowLayout tables arguments := by
  simp only [rowLayout,fillMembers_map,List.map_map]
  refine congrArg _ (List.map_congr_left fun entry member => congrArg (labelledLayout entry.1) ?_)
  by_cases secret : sensitive tables entry.1 = true
  · simp [secret]
  · simpa [secret] using layout_fill (sensitive tables) value entry.2

theorem row_fill (value : Json) (arguments : Members) :
    dumps (.obj (sanitizeArguments tables (fillMembers (sensitive tables) value arguments))) =
      filled (dumps value) (rowLayout tables arguments) := by
  simp only [rowLayout,dumps,dumpsMembers_map,sanitizeArguments,fillMembers_map,List.map_map,enclosed_filled,labelled_filled]
  refine congrArg _ (List.map_congr_left fun entry member => congrArg (labelled entry.1) ?_)
  by_cases secret : sensitive tables entry.1 = true
  · simp [secret,filled_shown,dumps]
  · simpa [secret] using dumps_fill (sensitive tables) value entry.2

theorem alike_fill (value : Json) (arguments : Members) :
    Alike tables arguments (fillMembers (sensitive tables) value arguments) :=
  masked_fill (sensitive tables) value (.obj arguments)

theorem alike_layout (arguments other : Members) (alike : Alike tables arguments other) :
    rowLayout tables other = rowLayout tables arguments := by
  rw [← rowLayout_fill tables .null other,← rowLayout_fill tables .null arguments]
  exact congrArg _ (Json.obj.inj alike)

theorem row_exact (arguments : Members) :
    (∀ other, Alike tables arguments other → (dumps (.obj (sanitizeArguments tables other))).take 4000 =
      (dumps (.obj (sanitizeArguments tables arguments))).take 4000) ↔ ¬ Exposed (rowLayout tables arguments) 4000 := by
  constructor
  · intro same exposed
    have null := same _ (alike_fill tables .null arguments)
    have empty := same _ (alike_fill tables (.str []) arguments)
    rw [row_fill] at null empty
    exact absurd (exposed_take _ _ exposed 'n' '"' _ _ (null.trans empty.symm)) (by decide)
  · intro covered other alike
    have fills := row_fills tables other
    rw [alike_layout tables arguments other alike] at fills
    exact covered_take _ _ covered fills (row_fills tables arguments)

theorem logged_same (tool : Tool) (session : Session) (user : Option User) (arguments other : Members) :
    logged tables tool other session user = logged tables tool arguments session user ↔
      (report tool other session user).map errorField = (report tool arguments session user).map errorField ∧
        (report tool arguments session user ≠ none → (dumps (.obj (sanitizeArguments tables other))).take 4000 =
          (dumps (.obj (sanitizeArguments tables arguments))).take 4000) := by
  rw [logged_report,logged_report]
  cases report tool other session user <;> cases report tool arguments session user <;> simp [and_comm]

-- Nothing of a secret reaches the log exactly when the report of the call does
-- not depend on it and, if there is a row, the kept text shows no nested one.
theorem noninterfering_exact (tool : Tool) (session : Session) (user : Option User) (arguments : Members) :
    Noninterfering tables tool session user arguments ↔
      (∀ other, Alike tables arguments other →
        (report tool other session user).map errorField = (report tool arguments session user).map errorField) ∧
      (report tool arguments session user ≠ none → ¬ Exposed (rowLayout tables arguments) 4000) := by
  simp only [Noninterfering,logged_same,← row_exact]
  constructor
  · intro same
    exact ⟨fun other alike => (same other alike).1,fun reported other alike => (same other alike).2 reported⟩
  · intro shown other alike
    obtain ⟨told,text⟩ := shown
    exact ⟨told other alike,fun reported => text reported other alike⟩

def creatingJob : Tool := { createScheduledJob with handler := fun _ session _ => (session,.returned (.obj [])) }

def jobArguments (token : Text) : Members :=
  [("name".toList,.str "nightly".toList),("tool_name".toList,.str "github_issue_create".toList),
   ("arguments".toList,.obj [("token".toList,.str token)])]

def tokenArguments (token : Text) : Members := [("token".toList,.str token)]

theorem secrets_logged :
    (¬ Noninterfering ascii creatingJob (SessionLocal []) none (jobArguments "abc".toList)) ∧
      ¬ Noninterfering ascii systemInfo (SessionLocal []) none (tokenArguments "abc".toList) := by
  constructor
  · intro same
    exact absurd (same (jobArguments "xyz".toList) rfl) (by decide +kernel)
  · intro same
    exact absurd (same (tokenArguments "xyz".toList) rfl) (by decide +kernel)

end Kryvaracode.AuditRedaction
