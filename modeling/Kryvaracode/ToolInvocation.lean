import Kryvaracode.Exceptions
import Kryvaracode.JsonText

namespace Kryvaracode.ToolInvocation
open UnicodeText JsonText

structure User where
  id : Int
  deriving DecidableEq, Repr

structure AuditLog where
  toolName : Text
  userId : Option Int
  arguments : Option Text
  success : Bool
  error : Option Text
  deriving DecidableEq, Repr

-- A session that failed a flush refuses all work until it is rolled back; one
-- with changes the database will not take fails at its next flush.
inductive Status where
  | ready
  | refused
  | needsRollback
  deriving DecidableEq, Repr

structure Session where
  audit : List AuditLog
  status : Status
  deriving DecidableEq, Repr

def SessionLocal (audit : List AuditLog) : Session := ⟨audit,.ready⟩

def Session.commit (session : Session) (added : List AuditLog) : Session × Result Unit :=
  match session.status with
  | .ready => ({session with audit := session.audit ++ added},.ok ())
  | .refused => ({session with status := .needsRollback},.error ⟨.other "IntegrityError".toList,"flush failed".toList⟩)
  | .needsRollback => (session,.error ⟨.other "PendingRollbackError".toList,"session needs a rollback".toList⟩)

def createAuditEntry (session : Session) (entry : AuditLog) : Session × Result Unit := session.commit [entry]

-- How a handler ends. An interruption is an exception outside `Exception`.
inductive Ending where
  | returned (result : Json)
  | raised (exc : Failure)
  | interrupted (name : Text)

structure Tool where
  name : Text
  Parsed : Type
  parameters : Members → Except Text Parsed
  handler : Parsed → Session → Option User → Session × Ending

-- The dict by name that is built from the list: the last of a name stays.
def getTool (tools : List Tool) (name : Text) : Option Tool := tools.reverse.find? (·.name == name)

theorem getTool_name (found : getTool tools name = some tool) : tool.name = name := by
  simpa using List.find?_some found

variable (tables : Tables)

-- The set that stands when the functions below run; a larger one of the same
-- name, earlier in the module, is overwritten by it.
def SENSITIVE_KEYS : List Text := ["password","token","secret","api_key","authorization"].map String.toList

def sensitive (key : Text) : Bool := SENSITIVE_KEYS.contains (tables.lower key)

def sanitizeArguments (arguments : Members) : Members :=
  arguments.map fun (key,value) => (key,if sensitive tables key then .str "***".toList else value)

-- The row handed to the session. Printing a dict read from JSON raises nothing.
def auditEntry (name : Text) (arguments : Members) (user : Option User) (success : Bool) (error : Option Text) : AuditLog where
  toolName := name
  userId := user.map User.id
  arguments := some ((dumps (.obj (sanitizeArguments tables arguments))).take 4000)
  success := success
  error := if truthy error then error.map (·.take 2000) else none

-- Any exception of the bookkeeping is logged and dropped.
def writeAudit (session : Session) (name : Text) (arguments : Members) (user : Option User) (success : Bool)
    (error : Option Text) : Session :=
  (createAuditEntry session (auditEntry tables name arguments user success error)).1

def invokeTool (tools : List Tool) (name : Text) (arguments : Members) (session : Session) (user : Option User) :
    Session × Ending :=
  match getTool tools name with
  | none => (session,.raised (NotFoundError ("Tool '".toList ++ name ++ "' not found".toList)))
  | some tool =>
      match tool.parameters arguments with
      | .error text =>
          (writeAudit tables session name arguments user false (some ("ValidationError: ".toList ++ text)),
            .raised (ValidationFailedError "Tool arguments failed validation".toList))
      | .ok parsed =>
          match tool.handler parsed session user with
          | (after,.returned result) => (writeAudit tables after name arguments user true none,.returned result)
          | (after,.raised exc) =>
              (writeAudit tables after name arguments user false (some (exc.kind.name ++ ": ".toList ++ exc.detail)),.raised exc)
          | (after,.interrupted exc) => (after,.interrupted exc)

inductive Course where
  | rejected (text : Text)
  | ended (ending : Ending)

def course (tool : Tool) (arguments : Members) (session : Session) (user : Option User) : Session × Course :=
  match tool.parameters arguments with
  | .error text => (session,.rejected text)
  | .ok parsed => ((tool.handler parsed session user).1,.ended (tool.handler parsed session user).2)

def Course.report : Course → Option (Bool × Option Text)
  | .rejected text => some (false,some ("ValidationError: ".toList ++ text))
  | .ended (.returned _) => some (true,none)
  | .ended (.raised exc) => some (false,some (exc.kind.name ++ ": ".toList ++ exc.detail))
  | .ended (.interrupted _) => none

-- The report that reaches the database: on a session that is not ready, none does.
def report (tool : Tool) (arguments : Members) (session : Session) (user : Option User) : Option (Bool × Option Text) :=
  if (course tool arguments session user).1.status = .ready then (course tool arguments session user).2.report else none

theorem writeAudit_ready (session : Session) (ready : session.status = .ready) (name : Text) (arguments : Members)
    (user : Option User) (success : Bool) (error : Option Text) :
    (writeAudit tables session name arguments user success error).audit =
      session.audit ++ [auditEntry tables name arguments user success error] := by
  simp only [writeAudit,createAuditEntry,Session.commit,ready]

theorem writeAudit_unready (session : Session) (unready : session.status ≠ .ready) (name : Text) (arguments : Members)
    (user : Option User) (success : Bool) (error : Option Text) :
    (writeAudit tables session name arguments user success error).audit = session.audit := by
  cases status : session.status with
  | ready => exact absurd status unready
  | refused => simp only [writeAudit,createAuditEntry,Session.commit,status]
  | needsRollback => simp only [writeAudit,createAuditEntry,Session.commit,status]

theorem invokeTool_audit (tools : List Tool) (name : Text) (tool : Tool) (found : getTool tools name = some tool)
    (arguments : Members) (session : Session) (user : Option User) :
    (invokeTool tables tools name arguments session user).1.audit = (course tool arguments session user).1.audit ++
      ((report tool arguments session user).map fun (success,error) =>
        auditEntry tables name arguments user success error).toList := by
  unfold report
  cases validated : tool.parameters arguments with
  | error text =>
    by_cases ready : session.status = .ready
    · simp [invokeTool,found,course,validated,ready,Course.report,writeAudit_ready tables session ready]
    · simp [invokeTool,found,course,validated,ready,writeAudit_unready tables session ready]
  | ok parsed =>
    rcases ran : tool.handler parsed session user with ⟨after,ending⟩
    by_cases ready : after.status = .ready
    · cases ending <;>
        simp [invokeTool,found,course,validated,ran,ready,Course.report,writeAudit_ready tables after ready]
    · cases ending <;>
        simp [invokeTool,found,course,validated,ran,ready,writeAudit_unready tables after ready]

def routerInvokeTool (tools : List Tool) (audit : List AuditLog) (name : Text) (arguments : Members) (currentUser : User) :
    Session × Ending :=
  invokeTool tables tools name arguments (SessionLocal audit) (some currentUser)

structure CommandLine where
  loads : Text → Except Text Json
  resolveActor : Text → Result User

def ClickException (text : Text) : Failure := ⟨.other "ClickException".toList,text⟩

def CommandLine.user (line : CommandLine) (username : Option Text) : Result (Option User) :=
  if truthy username then (line.resolveActor (username.getD [])).map some else .ok none

def agentInvokeCommand (line : CommandLine) (tools : List Tool) (audit : List AuditLog) (name argsJson : Text)
    (username : Option Text) : Session × Ending :=
  match line.loads argsJson with
  | .error text => (SessionLocal audit,.raised (ClickException ("Invalid --args-json: ".toList ++ text)))
  | .ok (.obj arguments) =>
      match line.user username with
      | .error exc => (SessionLocal audit,.raised exc)
      | .ok user => invokeTool tables tools name arguments (SessionLocal audit) user
  | .ok _ => (SessionLocal audit,.raised (ClickException "--args-json must be a JSON object".toList))

-- The handler `_register` gives the server: the tool's own, with no user.
def mcpHandler (tool : Tool) (audit : List AuditLog) (arguments : Members) : Session × Ending :=
  match tool.parameters arguments with
  | .error text => (SessionLocal audit,.raised ⟨.other "ValidationError".toList,text⟩)
  | .ok parsed => tool.handler parsed (SessionLocal audit) none

inductive Call where
  | http (name : Text) (arguments : Members) (currentUser : User)
  | cli (name argsJson : Text) (username : Option Text)
  | mcp (name : Text) (arguments : Members)

def Call.run (line : CommandLine) (tools : List Tool) (audit : List AuditLog) : Call → Session × Ending
  | .http name arguments currentUser => routerInvokeTool tables tools audit name arguments currentUser
  | .cli name argsJson username => agentInvokeCommand tables line tools audit name argsJson username
  | .mcp name arguments =>
      match getTool tools name with
      | some tool => mcpHandler tool audit arguments
      | none => (SessionLocal audit,.raised (NotFoundError name))

inductive Call.Arrives (line : CommandLine) (tools : List Tool) : Call → Tool → Members → Option User → Prop where
  | http (found : getTool tools name = some tool) : Arrives line tools (.http name arguments user) tool arguments (some user)
  | cli (found : getTool tools name = some tool) (read : line.loads argsJson = .ok (.obj arguments))
      (known : line.user username = .ok user) : Arrives line tools (.cli name argsJson username) tool arguments user
  | mcp (found : getTool tools name = some tool) : Arrives line tools (.mcp name arguments) tool arguments none

def Call.audited : Call → Bool
  | .mcp .. => false
  | _ => true

theorem Call.run_audited (line : CommandLine) (tools : List Tool) (audit : List AuditLog) (call : Call) (tool : Tool)
    (arguments : Members) (user : Option User) (arrives : call.Arrives line tools tool arguments user)
    (audited : call.audited = true) :
    call.run tables line tools audit = invokeTool tables tools tool.name arguments (SessionLocal audit) user := by
  cases arrives with
  | http found => rw [getTool_name found]; rfl
  | cli found read known => simp only [run,agentInvokeCommand,read,known,getTool_name found]
  | mcp found => cases audited

theorem Call.run_unaudited (line : CommandLine) (tools : List Tool) (audit : List AuditLog) (call : Call) (tool : Tool)
    (arguments : Members) (user : Option User) (arrives : call.Arrives line tools tool arguments user)
    (unaudited : call.audited = false) :
    (call.run tables line tools audit).1 = (course tool arguments (SessionLocal audit) user).1 := by
  cases arrives with
  | http found => cases unaudited
  | cli found read known => cases unaudited
  | mcp found =>
    simp only [run,found,mcpHandler,course]
    split <;> rfl

def Course.Returns (ran : Course) : Prop := ∃ result, ran = .ended (.returned result)
def Course.Interrupted (ran : Course) : Prop := ∃ name, ran = .ended (.interrupted name)

def Recorded (tool : Tool) (ran : Session × Course) (after : Session) : Prop :=
  ∃ row, after.audit = ran.1.audit ++ [row] ∧ row.toolName = tool.name ∧ (row.success = true ↔ ran.2.Returns)

theorem report_some (ran : Course) : (∃ told, ran.report = some told) ↔ ¬ ran.Interrupted := by
  cases ran with
  | rejected text => simp [Course.report,Course.Interrupted]
  | ended ending => cases ending <;> simp [Course.report,Course.Interrupted]

theorem report_success (ran : Course) (told : Bool × Option Text) (reported : ran.report = some told) :
    told.1 = true ↔ ran.Returns := by
  cases ran with
  | rejected text => cases reported; simp [Course.Returns]
  | ended ending => cases ending <;> cases reported <;> simp [Course.Returns]

theorem Call.Arrives.found (arrives : Call.Arrives line tools call tool arguments user) :
    getTool tools tool.name = some tool := by
  cases arrives with
  | http found => rwa [getTool_name found]
  | cli found read known => rwa [getTool_name found]
  | mcp found => rwa [getTool_name found]

theorem report_exact (tool : Tool) (arguments : Members) (session : Session) (user : Option User) :
    (∃ told, report tool arguments session user = some told) ↔ (course tool arguments session user).1.status = .ready ∧
      ¬ (course tool arguments session user).2.Interrupted := by
  unfold report
  split
  · rename_i ready
    rw [report_some]
    exact (and_iff_right ready).symm
  · rename_i unready
    simp [unready]

-- A call is recorded exactly when it does not come through the MCP server and it
-- leaves the session ready without being interrupted.
theorem recorded_exact (line : CommandLine) (tools : List Tool) (audit : List AuditLog) (call : Call) (tool : Tool)
    (arguments : Members) (user : Option User) (arrives : call.Arrives line tools tool arguments user) :
    Recorded tool (course tool arguments (SessionLocal audit) user) (call.run tables line tools audit).1 ↔
      call.audited = true ∧ (course tool arguments (SessionLocal audit) user).1.status = .ready ∧
        ¬ (course tool arguments (SessionLocal audit) user).2.Interrupted := by
  rw [← report_exact]
  cases audited : call.audited with
  | false =>
    constructor
    · intro shown
      obtain ⟨row,same,_⟩ := shown
      rw [Call.run_unaudited tables line tools audit call tool arguments user arrives audited] at same
      simp at same
    · intro shown
      obtain ⟨never,_⟩ := shown
      cases never
  | true =>
    have written := invokeTool_audit tables tools tool.name tool arrives.found arguments (SessionLocal audit) user
    rw [← Call.run_audited tables line tools audit call tool arguments user arrives audited] at written
    constructor
    · intro shown
      obtain ⟨row,same,_⟩ := shown
      refine ⟨rfl,Option.ne_none_iff_exists'.mp fun unreported => ?_⟩
      rw [unreported,same] at written
      simp at written
    · intro shown
      obtain ⟨_,told,reported⟩ := shown
      rw [reported] at written
      refine ⟨_,written,rfl,report_success _ told ?_⟩
      unfold report at reported
      split at reported
      · exact reported
      · cases reported

-- What the rejection of one superfluous text says: it quotes the text.
def extraInput (key value : Text) : Text :=
  "1 validation error for NoArgs\n".toList ++ key ++
    "\n  Extra inputs are not permitted [type=extra_forbidden, input_value='".toList ++ value ++ "', input_type=str]".toList

def systemInfo : Tool where
  name := "system_info".toList
  Parsed := Unit
  parameters
    | [] => .ok ()
    | (key,.str value) :: _ => .error (extraInput key value)
    | _ => .error "validation errors for NoArgs".toList
  handler _ session _ := (session,.returned (.obj [("service".toList,.str "KRYVARACODE".toList)]))

-- A job whose name another process commits first: the unique index refuses the
-- flush, and the handler lets the exception through without a rollback.
def createScheduledJob : Tool where
  name := "create_scheduled_job".toList
  Parsed := Members
  parameters := .ok
  handler _ session _ :=
    ({session with status := .needsRollback},
      .raised ⟨.other "IntegrityError".toList,"UNIQUE constraint failed: scheduled_jobs.name".toList⟩)

def quietLine : CommandLine where
  loads _ := .ok (.obj [])
  resolveActor _ := .ok ⟨1⟩

theorem systemInfo_recorded :
    Recorded systemInfo (course systemInfo [] (SessionLocal []) (some ⟨1⟩))
        (Call.run ascii quietLine [systemInfo] [] (.http "system_info".toList [] ⟨1⟩)).1 ↔
      Call.audited (.http "system_info".toList [] ⟨1⟩) = true ∧
        (course systemInfo [] (SessionLocal []) (some ⟨1⟩)).1.status = .ready ∧
        ¬ (course systemInfo [] (SessionLocal []) (some ⟨1⟩)).2.Interrupted :=
  recorded_exact ascii quietLine [systemInfo] [] _ systemInfo [] (some ⟨1⟩) (.http rfl)

theorem unrecorded_calls :
    (¬ Recorded systemInfo (course systemInfo [] (SessionLocal []) none)
        (Call.run ascii quietLine [systemInfo] [] (.mcp "system_info".toList [])).1) ∧
      ¬ Recorded createScheduledJob (course createScheduledJob [] (SessionLocal []) (some ⟨1⟩))
        (Call.run ascii quietLine [createScheduledJob] [] (.http "create_scheduled_job".toList [] ⟨1⟩)).1 := by
  constructor
  · intro shown
    obtain ⟨row,same,_⟩ := shown
    cases same
  · intro shown
    obtain ⟨row,same,_⟩ := shown
    cases same

end Kryvaracode.ToolInvocation
