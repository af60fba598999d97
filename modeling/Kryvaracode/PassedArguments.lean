import Kryvaracode.Accounts
import Kryvaracode.Base64
import Kryvaracode.E2BSandbox
import Kryvaracode.JsonRoundTrip

-- How a script is given its arguments: in a text literal of its own.
namespace Kryvaracode.PassedArguments
open JsonText JsonReader Accounts UnicodeText E2BSandbox

abbrev Args := Option Members

-- `args or {}`
def given (args : Args) : Json := .obj (args.getD [])

def argsB64 (args : Args) : Text := Base64.encode (encode (dumps (given args)))

def lines (texts : List String) : Text := texts.flatMap fun line => line.toList ++ ['\n']

-- The script of the forge's sandbox up to the code, and after it up to the literal.
def importBlock : Text := lines ["","import json","import sys","import base64",""]

def mainBlock : Text := lines ["","",
  "if __name__ == \"__main__\":",
  "    try:",
  "        # Try to find the main execution function",
  "        # In production, the synthesizer would provide the exact function name",
  "        import inspect",
  "        curr_module = sys.modules['__main__']",
  "        funcs = [name for name, obj in inspect.getmembers(curr_module) if inspect.isfunction(obj)]",
  "",
  "        target_func = None",
  "        for name in ['execute', 'main', 'run']:",
  "            if name in funcs:",
  "                target_func = getattr(curr_module, name)",
  "                break",
  "",
  "        if target_func is None and funcs:",
  "            target_func = getattr(curr_module, funcs[0])",
  "",
  "        if target_func:",
  "            # SECURITY: Deserialize args via base64 decode + json.loads.",
  "            # Base64 is immune to quote/escape injection in f-strings."]

def callBlock : Text := lines [").decode(\"utf-8\"))",
  "            result = target_func(**args_val)",
  "            print(json.dumps(result, default=str))",
  "        else:",
  "            print(\"Error: No executable function found in synthesized code.\")",
  "            sys.exit(1)",
  "    except Exception as e:",
  "        print(f\"Runtime Error: \x7be\x7d\")",
  "        sys.exit(1)"]

def wrapCode (code : Text) (args : Args) : Text :=
  importBlock ++ code ++ mainBlock ++ "            args_val = json.loads(base64.b64decode(".toList ++
    ('"' :: argsB64 args ++ '"' :: callBlock)

-- What the cloud sandbox is given: there the code comes after the literal.
def deserializeBlock : Text := lines ["","import json","import base64","import sys","","# Deserialize args"]

def resultBlock : Text := lines ["","",
  "# If there's a main function, call it",
  "if 'main' in globals():",
  "    result = main(**args)",
  "    print(json.dumps(result, default=str))"]

def wrappedCode (code : Text) (args : Args) : Text :=
  deserializeBlock ++ "args = json.loads(base64.b64decode(".toList ++
    ('"' :: argsB64 args ++ '"' :: (lines [").decode())",""] ++ code ++ resultBlock))

-- The logs of a run and whether it ended with an error.
structure Execution where
  stdout : Option Text
  stderr : Option Text
  failed : Bool

def executed (tables : Tables) (timeout : Nat) : Result Execution → SandboxResult
  | .ok execution => ⟨execution.stdout.getD [],execution.stderr.getD [],if execution.failed then -1 else 0,false⟩
  | .error e =>
      if isTimeout tables e.detail then
        ⟨[],"Execution timed out after ".toList ++ (Nat.repr timeout).toList ++ "s".toList,-1,true⟩
      else ⟨[],e.detail,-1,false⟩

def runPython (sdk : Sdk) (runCode : Text → Nat → Result Execution) (tables : Tables) (box : Client) (code : Text)
    (args : Args) (timeoutSeconds : Option Nat) : Result SandboxResult × List Submission × Client :=
  if !isAvailable sdk box then (.error (RuntimeError "E2B sandbox not available".toList),[],box)
  else match getOrCreateSandbox sdk box with
    | (false,box) => (.error (RuntimeError "Failed to initialize E2B sandbox".toList),[],box)
    | (true,box) =>
        let timeout := if timeoutSeconds.getD 0 = 0 then box.timeoutSeconds else timeoutSeconds.getD 0
        (.ok (executed tables timeout (runCode (wrappedCode code args) timeout)),[⟨wrappedCode code args,timeout⟩],box)

-- A text literal of Python, after its opening quote, with what follows it. Nothing
-- is said of one with an escape; a line feed ends none.
def literal : Text → Option (Text × Text)
  | [] => none
  | c :: rest =>
      if c = '"' then some ([],rest)
      else if c = '\n' ∨ c = '\\' then none
      else (literal rest).map fun read => (c :: read.1,read.2)

def decodeUtf8 (bytes : List UInt8) : Option Text := bytes.toByteArray.utf8Decode?.map Array.toList

-- `json.loads(base64.b64decode("...").decode())`, from after the opening quote.
def received (limit : Nat) (script : Text) : Option Value := do
  let (text,_) ← literal script
  let bytes ← Base64.decode text
  let decoded ← decodeUtf8 bytes
  (loads limit decoded).toOption

-- Scripts that differ in one literal, which no argument can end early and which the
-- script reads back as the arguments it was made with.
structure Delivers (limit : Nat) (script : Args → Text) (front back : Text) : Prop where
  around : ∀ args, script args = front ++ '"' :: (argsB64 args ++ '"' :: back)
  closed : ∀ args, literal (argsB64 args ++ '"' :: back) = some (argsB64 args,back)
  read : ∀ args, every plainNode (given args) = true → printable limit (given args) = true →
    received limit (argsB64 args ++ '"' :: back) = some (ofJson (given args))

theorem literal_closed {text : Text} (plain : ∀ c ∈ text, c ≠ '"' ∧ c ≠ '\n' ∧ c ≠ '\\') (back : Text) :
    literal (text ++ '"' :: back) = some (text,back) := by
  induction text with
  | nil => rfl
  | cons c text ih =>
      rw [List.forall_mem_cons] at plain
      rw [List.cons_append,literal,if_neg plain.1.1,if_neg (not_or.mpr plain.1.2),ih plain.2]
      rfl

theorem alphabet_plain : '"' ∉ Base64.alphabet ∧ '\n' ∉ Base64.alphabet ∧ '\\' ∉ Base64.alphabet := by decide

theorem args_plain (args : Args) : ∀ c ∈ argsB64 args, c ≠ '"' ∧ c ≠ '\n' ∧ c ≠ '\\' := by
  obtain ⟨quote,feed,backslash⟩ := alphabet_plain
  intro c inside
  rcases Base64.encode_alphabet _ c inside with listed | rfl
  · exact ⟨fun same => quote (same ▸ listed),fun same => feed (same ▸ listed),fun same => backslash (same ▸ listed)⟩
  · decide

theorem utf8_back (text : Text) : decodeUtf8 (encode text) = some text := by
  change (ByteArray.utf8Decode? (List.utf8Encode text)).map Array.toList = _
  rw [List.utf8Decode?_utf8Encode]
  simp

theorem received_given (limit : Nat) (args : Args) (back : Text) (plain : every plainNode (given args) = true)
    (printed : printable limit (given args) = true) :
    received limit (argsB64 args ++ '"' :: back) = some (ofJson (given args)) := by
  have back_text : Base64.decode (argsB64 args) = some (encode (dumps (given args))) := Base64.decode_encode _
  unfold received
  rw [literal_closed (args_plain args) back]
  simp only [Option.bind_eq_bind,Option.bind_some,back_text,utf8_back,loads_dumps ⟨given args,plain⟩ printed]
  rfl

theorem delivers_around {limit : Nat} {script : Args → Text} {front back : Text}
    (around : ∀ args, script args = front ++ '"' :: (argsB64 args ++ '"' :: back)) : Delivers limit script front back :=
  ⟨around,fun args => literal_closed (args_plain args) back,fun args => received_given limit args back⟩

theorem runPython_submits (sdk : Sdk) (runCode : Text → Nat → Result Execution) (tables : Tables) (box : Client) (code : Text)
    (args : Args) (timeoutSeconds : Option Nat) :
    (Ready sdk box ∧ ∃ result seconds after,
      runPython sdk runCode tables box code args timeoutSeconds = (.ok result,[⟨wrappedCode code args,seconds⟩],after)) ∨
    (¬ Ready sdk box ∧ ∃ detail after,
      runPython sdk runCode tables box code args timeoutSeconds = (.error (RuntimeError detail),[],after)) := by
  have ready := getOrCreateSandbox_ready sdk box
  unfold runPython
  cases available : isAvailable sdk box with
  | false => exact .inr ⟨by simp [Ready,available],_,_,rfl⟩
  | true =>
      cases got : getOrCreateSandbox sdk box with
      | mk usable after =>
          rw [got] at ready
          cases usable with
          | false => exact .inr ⟨by simpa using ready,_,_,rfl⟩
          | true => exact .inl ⟨ready.mp rfl,_,_,_,rfl⟩

example : received 4300 (argsB64 (some [("q".toList,.str "\"); import os #".toList)]) ++ '"' :: callBlock) =
    some (.obj [(points "q".toList,.str (points "\"); import os #".toList))]) := by rfl

end Kryvaracode.PassedArguments
