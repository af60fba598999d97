import Kryvaracode.Exceptions
import Kryvaracode.TreeWalk

namespace Kryvaracode.CodeValidation

abbrev Identifier := { text : Text // text ≠ [] ∧ '.' ∉ text }

structure Dotted where
  first : Identifier
  rest : List Identifier
  deriving DecidableEq

def suffix (names : List Identifier) : Text := names.flatMap fun name => '.' :: name.val
def Dotted.text (name : Dotted) : Text := name.first.val ++ suffix name.rest

theorem suffix_dots (names : List Identifier) : (suffix names).count '.' = names.length := by
  induction names with
  | nil => rfl
  | cons name names ih =>
    have plain : name.val.count '.' = 0 := List.count_eq_zero.mpr name.property.2
    simp only [suffix,List.flatMap_cons,List.count_append,List.cons_append,List.count_cons_self,List.length_cons] at ih ⊢
    omega

theorem text_dots (name : Dotted) : name.text.count '.' = name.rest.length := by
  rw [Dotted.text,List.count_append,suffix_dots,List.count_eq_zero.mpr name.first.property.2,Nat.zero_add]

theorem text_first (name : Identifier) : (Dotted.mk name []).text = name.val := List.append_nil _

-- `import a.b as c`, and one name of `from m import x as y`.
structure Alias where
  name : Dotted
  asname : Option Identifier

structure Member where
  name : Identifier
  asname : Option Identifier

-- A syntax tree, with every node class the validation does not look at kept as
-- `other`. Alias and context nodes have no children and are left out.
inductive Node where
  | name (id : Identifier)
  | attributeAccess (value : Node) (attr : Identifier)
  | call (func : Node) (args keywords : List Node)
  | importModules (names : List Alias)
  | importFrom (source : Option Dotted) (names : List Member) (level : Nat)
  | other (fields : List Node)

namespace Node

def children : Node → List Node
  | .attributeAccess value _ => [value]
  | .call func args keywords => func :: args ++ keywords
  | .other fields => fields
  | .name _ | .importModules _ | .importFrom .. => []

mutual
def size : Node → Nat
  | .attributeAccess value _ => 1 + value.size
  | .call func args keywords => 1 + func.size + sizes args + sizes keywords
  | .other fields => 1 + sizes fields
  | .name _ | .importModules _ | .importFrom .. => 1
def sizes : List Node → Nat
  | [] => 0
  | node :: nodes => node.size + sizes nodes
end

theorem sizes_sum (nodes : List Node) : sizes nodes = (nodes.map size).sum := by
  induction nodes with
  | nil => rfl
  | cons node nodes ih => rw [sizes,ih,List.map_cons,List.sum_cons]

theorem size_measured (node : Node) : node.size = 1 + (node.children.map size).sum := by
  cases node with
  | call func args keywords =>
    simp only [size,children,sizes_sum,List.map_append,List.map_cons,List.sum_append,List.sum_cons]
    omega
  | _ => simp [size,children,sizes_sum]

end Node

def walk (tree : Node) : List Node := TreeWalk.walk Node.children tree.size [tree]
def Occurs (tree node : Node) : Prop := TreeWalk.Below Node.children tree node

theorem walk_occurs (tree node : Node) : node ∈ walk tree ↔ Occurs tree node :=
  TreeWalk.walk_exact Node.children Node.size Node.size_measured tree node

def FORBIDDEN_PATTERNS : List Text :=
  ["__import__","exec","eval","compile","getattr","setattr","delattr","globals","locals","dir","vars","__builtins__",
   "__globals__","__locals__","__class__","__subclasses__","__mro__","__bases__","importlib","importlib.import_module",
   "sys.modules","os.system","os.popen","subprocess.Popen","subprocess.run","subprocess.call","subprocess.check_output",
   "ctypes","ctypes.CDLL","ctypes.windll","resource","resource.setrlimit","signal","signal.signal","threading",
   "multiprocessing","socket","urllib","requests","http.client","ftplib","telnetlib","smtplib","poplib","imaplib",
   "nntplib","xmlrpc","pickle.loads","pickle.load","marshal.loads","marshal.load","shelve.open","dbm.open",
   "sqlite3.connect","ctypes.cast","ctypes.addressof","ctypes.string_at","gc.get_objects","gc.get_referrers",
   "inspect.currentframe","inspect.getframeinfo","inspect.getouterframes","sys._getframe","sys._current_frames",
   "sys.settrace","sys.setprofile","sys.setrecursionlimit","sys.setcheckinterval","sys.setdlopenflags",
   "sys.set_int_max_str_digits","sys.setswitchinterval","types.FunctionType","types.CodeType","types.FrameType",
   "types.GeneratorType","types.TracebackType"].map String.toList

theorem forbidden_dots : ∀ name ∈ FORBIDDEN_PATTERNS, name.count '.' ≤ 1 := by
  delta FORBIDDEN_PATTERNS
  simp only [List.map_cons,List.map_nil]
  repeat rewrite [String.toList_ofList]
  decide +kernel

def contains (whole part : Text) : Bool := whole.tails.any (part.isPrefixOf ·)
def holdsForbidden (name : Text) : Bool := FORBIDDEN_PATTERNS.any (contains name)

theorem contains_self (name : Text) : contains name name = true :=
  List.any_eq_true.mpr ⟨name,(List.mem_tails name name).mpr (List.suffix_refl name),by simp⟩

theorem forbidden_held (name : Text) (clear : holdsForbidden name = false) : name ∉ FORBIDDEN_PATTERNS := by
  intro member
  have held : holdsForbidden name = true := List.any_eq_true.mpr ⟨name,member,contains_self name⟩
  rw [clear] at held
  cases held

-- The loop of `_get_full_attribute_name`: inward through the attributes to a name.
def attributeParts : Node → List Identifier → Option Dotted
  | .attributeAccess value attr,parts => attributeParts value (attr :: parts)
  | .name id,parts => some ⟨id,parts⟩
  | _,_ => none

def getFullAttributeName (node : Node) : Option Text := (attributeParts node []).map Dotted.text

def callProblem : Node → Option Text
  | .call (.name id) _ _ =>
      if id.val ∈ FORBIDDEN_PATTERNS then some ("Forbidden function call: ".toList ++ id.val) else none
  | .call (.attributeAccess value attr) _ _ =>
      match getFullAttributeName (.attributeAccess value attr) with
      | some attrName =>
          if holdsForbidden attrName then some ("Forbidden attribute access: ".toList ++ attrName) else none
      | none => none
  | _ => none

def attributeProblem : Node → Option Text
  | .attributeAccess _ attr =>
      if attr.val ∈ FORBIDDEN_PATTERNS then some ("Forbidden attribute access: ".toList ++ attr.val) else none
  | _ => none

def aliasProblem (name : Text) : Option Text :=
  if name ∈ FORBIDDEN_PATTERNS then some ("Forbidden import: ".toList ++ name)
  else if holdsForbidden name then some ("Forbidden import pattern: ".toList ++ name) else none

def importProblem : Node → Option Text
  | .importModules names => names.findSome? (aliasProblem ·.name.text)
  | .importFrom _ names _ => names.findSome? (aliasProblem ·.name.val)
  | _ => none

def problem (node : Node) : Option Text :=
  (callProblem node).or ((attributeProblem node).or (importProblem node))

def validateTree (tree : Node) : Option Text := (walk tree).findSome? problem

-- `ast.parse` is the parameter; only its SyntaxError is caught here.
def validateCode (parse : Text → Result Node) (code : Text) : Result (Option Text) :=
  match parse code with
  | .ok tree => .ok (validateTree tree)
  | .error raised =>
      if raised.kind = .syntaxError then .ok (some ("Syntax error in synthesized code: ".toList ++ raised.detail))
      else .error raised

theorem accepted_nodes (tree : Node) (accepted : validateTree tree = none) (node : Node) (occurs : Occurs tree node) :
    callProblem node = none ∧ attributeProblem node = none ∧ importProblem node = none := by
  have none' := List.findSome?_eq_none_iff.mp accepted node ((walk_occurs tree node).mpr occurs)
  simpa [problem,Option.or_eq_none_iff] using none'

theorem named_call_allowed {id : Identifier} (allowed : id.val ∉ FORBIDDEN_PATTERNS) (args keywords : List Node) :
    problem (.call (.name id) args keywords) = none := by
  rw [problem,callProblem,if_neg allowed]
  rfl

theorem aliasProblem_clear (name : Text) (clear : aliasProblem name = none) : name ∉ FORBIDDEN_PATTERNS := by
  unfold aliasProblem at clear
  split at clear
  · cases clear
  · assumption

def Called (tree : Node) (name : Dotted) : Prop :=
  ∃ func args keywords, Occurs tree (.call func args keywords) ∧ attributeParts func [] = some name

theorem called_permitted (tree : Node) (accepted : validateTree tree = none) (name : Dotted) (called : Called tree name) :
    name.text ∉ FORBIDDEN_PATTERNS := by
  obtain ⟨func,args,keywords,occurs,parts⟩ := called
  have clear := (accepted_nodes tree accepted _ occurs).1
  cases func with
  | name id =>
    cases parts
    rw [text_first]
    intro member
    rw [callProblem,if_pos member] at clear
    cases clear
  | attributeAccess value attr =>
    simp only [callProblem,getFullAttributeName,parts,Option.map_some] at clear
    split at clear
    · cases clear
    · rename_i unheld; exact forbidden_held _ (Bool.not_eq_true _ ▸ unheld)
  | _ => cases parts

-- What the program's import statements bind a name to.
inductive Binds (tree : Node) : Identifier → Text → Prop
  | renamed (names : List Alias) (occurs : Occurs tree (.importModules names)) (source : Dotted) (name : Identifier)
      (member : ⟨source,some name⟩ ∈ names) : Binds tree name source.text
  | plain (names : List Alias) (occurs : Occurs tree (.importModules names)) (source : Dotted)
      (member : ⟨source,none⟩ ∈ names) : Binds tree source.first source.first.val
  | imported (source : Dotted) (names : List Member) (level : Nat)
      (occurs : Occurs tree (.importFrom (some source) names level)) (name : Identifier) (asname : Option Identifier)
      (member : ⟨name,asname⟩ ∈ names) :
      Binds tree (asname.getD name) (List.replicate level '.' ++ source.text ++ '.' :: name.val)

-- A chain means the binding of its root extended by its attributes; without a
-- binding it means itself.
def Resolves (tree : Node) (called : Dotted) (full : Text) : Prop :=
  (∃ target, Binds tree called.first target ∧ full = target ++ suffix called.rest) ∨
    ((¬ ∃ target, Binds tree called.first target) ∧ full = called.text)

def Unreachable (tree : Node) : Prop :=
  ∀ called, Called tree called → ∀ full, Resolves tree called full → full ∉ FORBIDDEN_PATTERNS

def ModuleRenamed (tree : Node) : Prop :=
  ∃ names source name attr, Occurs tree (.importModules names) ∧ ⟨⟨source,[]⟩,some name⟩ ∈ names ∧ name ≠ source ∧
    Called tree ⟨name,[attr]⟩ ∧ (Dotted.mk source [attr]).text ∈ FORBIDDEN_PATTERNS

def MemberImported (tree : Node) : Prop :=
  ∃ source names name asname, Occurs tree (.importFrom (some ⟨source,[]⟩) names 0) ∧ ⟨name,asname⟩ ∈ names ∧
    Called tree ⟨asname.getD name,[]⟩ ∧ (Dotted.mk source [name]).text ∈ FORBIDDEN_PATTERNS

theorem renamed_resolution (tree : Node) (accepted : validateTree tree = none) (names : List Alias)
    (occurs : Occurs tree (.importModules names)) (source : Dotted) (name : Identifier)
    (member : ⟨source,some name⟩ ∈ names) (attrs : List Identifier) (called : Called tree ⟨name,attrs⟩)
    (forbidden : source.text ++ suffix attrs ∈ FORBIDDEN_PATTERNS) : ModuleRenamed tree := by
  have clear := List.findSome?_eq_none_iff.mp (accepted_nodes tree accepted _ occurs).2.2 _ member
  have permitted := aliasProblem_clear _ clear
  have dots := forbidden_dots _ forbidden
  rw [List.count_append,text_dots,suffix_dots] at dots
  obtain ⟨first,rest⟩ := source
  cases attrs with
  | nil => exact absurd (by simpa [suffix] using forbidden) permitted
  | cons attr attrs =>
    simp only [List.length_cons] at dots
    obtain rfl : rest = [] := List.length_eq_zero_iff.mp (by omega)
    obtain rfl : attrs = [] := List.length_eq_zero_iff.mp (by omega)
    rw [text_first] at forbidden
    refine ⟨names,first,name,attr,occurs,member,?_,called,forbidden⟩
    rintro rfl
    exact called_permitted tree accepted _ called forbidden

theorem imported_resolution (tree : Node) (source : Dotted) (names : List Member) (level : Nat)
    (occurs : Occurs tree (.importFrom (some source) names level)) (name : Identifier) (asname : Option Identifier)
    (member : ⟨name,asname⟩ ∈ names) (attrs : List Identifier) (called : Called tree ⟨asname.getD name,attrs⟩)
    (forbidden : List.replicate level '.' ++ source.text ++ '.' :: name.val ++ suffix attrs ∈ FORBIDDEN_PATTERNS) :
    MemberImported tree := by
  have dots := forbidden_dots _ forbidden
  simp only [List.count_append,text_dots,suffix_dots,List.count_replicate_self,List.count_cons_self] at dots
  obtain ⟨first,rest⟩ := source
  obtain rfl : rest = [] := List.length_eq_zero_iff.mp (by simp only at dots; omega)
  obtain rfl : attrs = [] := List.length_eq_zero_iff.mp (by omega)
  obtain rfl : level = 0 := by omega
  refine ⟨first,names,name,asname,occurs,member,called,?_⟩
  simpa [Dotted.text,suffix] using forbidden

-- An accepted program reaches a forbidden name exactly through a renamed module
-- or through an imported member.
theorem unreachable_exact (tree : Node) (accepted : validateTree tree = none) :
    Unreachable tree ↔ ¬ ModuleRenamed tree ∧ ¬ MemberImported tree := by
  constructor
  · intro unreachable
    constructor
    · intro shown
      obtain ⟨names,source,name,attr,occurs,member,_,called,forbidden⟩ := shown
      refine unreachable _ called _ (.inl ⟨_,.renamed names occurs ⟨source,[]⟩ name member,rfl⟩) ?_
      rwa [text_first]
    · intro shown
      obtain ⟨source,names,name,asname,occurs,member,called,forbidden⟩ := shown
      refine unreachable _ called _ (.inl ⟨_,.imported ⟨source,[]⟩ names 0 occurs name asname member,rfl⟩) ?_
      simpa [Dotted.text,suffix] using forbidden
  · rintro ⟨unrenamed,unimported⟩ ⟨first,attrs⟩ called full resolves forbidden
    rcases resolves with ⟨target,binds,rfl⟩ | ⟨_,rfl⟩
    · cases binds with
      | renamed names occurs source name member =>
        exact unrenamed (renamed_resolution tree accepted names occurs source _ member attrs called forbidden)
      | plain names occurs source member => exact called_permitted tree accepted _ called forbidden
      | imported source names level occurs name asname member =>
        exact unimported (imported_resolution tree source names level occurs name asname member attrs called forbidden)
    · exact called_permitted tree accepted _ called forbidden

def systemTree : Node :=
  .other [.importFrom (some ⟨⟨"os".toList,by decide⟩,[]⟩) [⟨⟨"system".toList,by decide⟩,none⟩] 0,
    .other [.other [.call (.name ⟨"system".toList,by decide⟩) [.name ⟨"cmd".toList,by decide⟩] []]]]

theorem systemTree_accepted : validateTree systemTree = none := by decide +kernel

theorem systemTree_unreachable : Unreachable systemTree ↔ ¬ ModuleRenamed systemTree ∧ ¬ MemberImported systemTree :=
  unreachable_exact systemTree systemTree_accepted

theorem systemTree_reaches : validateTree systemTree = none ∧ ¬ Unreachable systemTree := by
  refine ⟨systemTree_accepted,fun unreachable => ?_⟩
  have called : Called systemTree ⟨⟨"system".toList,by decide⟩,[]⟩ :=
    ⟨_,_,_,(walk_occurs _ _).mp (.tail _ (.tail _ (.tail _ (.tail _ (.head _))))),rfl⟩
  have imported : Binds systemTree ⟨"system".toList,by decide⟩ "os.system".toList :=
    .imported ⟨⟨"os".toList,by decide⟩,[]⟩ [⟨⟨"system".toList,by decide⟩,none⟩] 0
      ((walk_occurs _ _).mp (.tail _ (.head _))) ⟨"system".toList,by decide⟩ none (.head _)
  exact unreachable _ called "os.system".toList (.inl ⟨_,imported,rfl⟩) (by decide)

end Kryvaracode.CodeValidation
