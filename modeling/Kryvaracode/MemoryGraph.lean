import Kryvaracode.InsertionDict
import Kryvaracode.ModelRegistry
import Kryvaracode.Runs

namespace Kryvaracode.MemoryGraph
open InsertionDict Runs UnicodeText
open Patterns (fields)
open Models (Order)

-- What memory is built on: ids that never repeat, the order in which a set is
-- walked, and an embedding provider, which may raise and is asked anew each time.
structure Setting where
  Number : Type
  Score : Type
  tables : Tables
  order : Order Text
  repr : Text → Text
  ids : Nat → Text
  ids_apart : Function.Injective ids
  encode : Nat → Text → Result (List Number)
  similarity : List Number → List Number → Result Score
  zero : Score
  isZero : Score → Bool
  overlap : Nat → Nat → Score
  atLeast : Score → Score → Bool

inductive Context where
  | given (shown : Text)
  | sourceTraces (ids : List Text)

structure MemoryNode (Number : Type) where
  id : Text
  tier : Text
  category : Text
  content : Text
  context : Context
  tags : List Text
  relatedNodes : List Text
  embedding : List Number
  tags_once : tags.Nodup

-- `drawn` is the number of ids that were generated.
structure SovereignMemory (Number : Type) where
  nodes : Dict Text (MemoryNode Number)
  indexByTag : Dict Text (List Text)
  drawn : Nat

def SovereignMemory.init : SovereignMemory Number := ⟨Dict.empty,Dict.empty,0⟩

def semantic : Text := "semantic".toList
def distilledRule : Text := "distilled_rule".toList

def tagged (id : Text) (index : Dict Text (List Text)) (tag : Text) : Dict Text (List Text) :=
  index.set tag ((index.get tag).getD [] ++ [id])

-- Every occurrence is taken out, from the left.
def without (pattern : Text) : Nat → Text → Text
  | _,[] => []
  | skip + 1,_ :: rest => without pattern skip rest
  | 0,c :: rest =>
      if pattern.isPrefixOf (c :: rest) then without pattern (pattern.length - 1) rest else c :: without pattern 0 rest

def removed (pattern text : Text) : Text := without pattern 0 text

example : removed "RULE:".toList "RULE: a RULE:".toList = " a ".toList := by decide

structure Rule where
  content : Text
  tags : List Text

-- `RULE: name | CONTENT: text | TAGS: tag, tag`
def rule (line : Text) : Option Rule :=
  if "RULE:".toList.isPrefixOf line then
    match line.splitOn '|' with
    | name :: content :: tags :: _ =>
        some ⟨strip (removed "RULE:".toList name) ++ ": ".toList ++ strip (removed "CONTENT:".toList content),
          ((removed "TAGS:".toList tags).splitOn ',').map strip⟩
    | _ => none
  else none

section Memory
variable (setting : Setting) (memory : SovereignMemory setting.Number)

def Context.text : Context → Text
  | .given shown => shown
  | .sourceTraces ids =>
      "\x7b'source_traces': [".toList ++ (", ".toList).intercalate (ids.map setting.repr) ++ "]\x7d".toList

def walked (tags : List Text) : List Text := setting.order.arrange tags.dedup

theorem walked_once (tags : List Text) : (walked setting tags).Nodup :=
  (setting.order.same tags.dedup).nodup_iff.mpr tags.nodup_dedup

def store (id tier category content : Text) (context : Context) (tags : List Text) (embedding : List setting.Number) :
    SovereignMemory setting.Number where
  nodes := memory.nodes.set id
    ⟨id,tier,category,content,context,walked setting tags,[],embedding,walked_once setting tags⟩
  indexByTag := (walked setting tags).foldl (tagged id) memory.indexByTag
  drawn := memory.drawn + 1

-- The id is drawn first, and lost where the provider raises.
def commit (tier category content : Text) (context : Context) (tags : Option (List Text))
    (embedding : Option (List setting.Number)) : SovereignMemory setting.Number × Result Text :=
  match (embedding.map Except.ok).getD (setting.encode memory.drawn content) with
  | .error exc => ({memory with drawn := memory.drawn + 1},.error exc)
  | .ok vector =>
      (store setting memory (setting.ids memory.drawn) tier category content context (tags.getD []) vector,
        .ok (setting.ids memory.drawn))

def commitLesson (category content : Text) (context : Context) (tags : Option (List Text)) :
    SovereignMemory setting.Number × Result Text := commit setting memory semantic category content context tags none

def KeyError (key : Text) : Failure := ⟨.other "KeyError".toList,key⟩

def nodeOf (id : Text) : Result (MemoryNode setting.Number) :=
  match memory.nodes.get id with
  | none => .error (KeyError id)
  | some node => .ok node

-- No tags, or an empty list of them, is every node.
def candidates (tags : Option (List Text)) : Result (List (MemoryNode setting.Number)) :=
  match tags with
  | none | some [] => .ok memory.nodes.values
  | some tags => (tags.flatMap fun tag => (memory.indexByTag.get tag).getD []).mapM (nodeOf setting memory)

def words (text : Text) : List Text := (fields space (setting.tables.lower text)).dedup

def keywordScore (queryText content : Text) : setting.Score :=
  setting.overlap ((words setting queryText).filter (words setting content).contains).length (words setting queryText).length

def scored (queryText : Text) (vector : List setting.Number) (node : MemoryNode setting.Number) :
    Result (setting.Score × MemoryNode setting.Number) :=
  let score := if vector = [] ∨ node.embedding = [] then .ok setting.zero else setting.similarity vector node.embedding
  score.map fun value => (if setting.isZero value then keywordScore setting queryText node.content else value,node)

def keepUnseen (found : List (MemoryNode α)) (node : MemoryNode α) : List (MemoryNode α) :=
  if found.any fun kept => decide (kept.id = node.id) then found else found ++ [node]

-- The limit is looked at after each node, also after one seen before.
def firstSeen (limit : Int) : List (MemoryNode α) → List (MemoryNode α) → List (MemoryNode α)
  | found,[] => found
  | found,node :: rest =>
      if limit ≤ (keepUnseen found node).length then keepUnseen found node else firstSeen limit (keepUnseen found node) rest

def query (queryText : Text) (tier : Option Text) (tags : Option (List Text)) (limit : Int) :
    Result (List (MemoryNode setting.Number)) := do
  let chosen ← candidates setting memory tags
  let inTier := if truthy tier then chosen.filter fun node => decide (some node.tier = tier) else chosen
  let vector ← setting.encode memory.drawn queryText
  let results ← inTier.mapM (scored setting queryText vector)
  return firstSeen limit [] ((results.mergeSort fun first second => setting.atLeast first.1 second.1).map Prod.snd)

def relate (id other : Text) : SovereignMemory setting.Number :=
  match memory.nodes.get id with
  | none => memory
  | some node => {memory with nodes := memory.nodes.set id {node with relatedNodes := node.relatedNodes ++ [other]}}

def linkNodes (first second : Text) : SovereignMemory setting.Number :=
  if (memory.nodes.get first).isSome && (memory.nodes.get second).isSome then
    relate setting (relate setting memory first second) second first
  else memory

def trace (node : MemoryNode setting.Number) : Text :=
  "ID: ".toList ++ node.id ++ " | Content: ".toList ++ node.content ++ " | Context: ".toList ++ node.context.text setting

def prompt (episodicNodeIds : List Text) : Text :=
  "Analyze the following episodic execution traces from an autonomous agent. ".toList ++
    "Distill them into a set of concise, generalizable semantic rules (lessons learned). ".toList ++
    "Each rule should follow the format: 'RULE: [Rule Name] | CONTENT: [The rule text] | TAGS: [tag1, tag2]'.\n\n".toList ++
    "Traces:\n".toList ++ ("\n".toList).intercalate ((episodicNodeIds.filterMap memory.nodes.get).map (trace setting))
end Memory

-- What is committed before the provider raises stays.
def distillLines (setting : Setting) (sources : List Text) :
    SovereignMemory setting.Number → List Text → List Text → SovereignMemory setting.Number × Result (List Text)
  | memory,distilled,[] => (memory,.ok distilled)
  | memory,distilled,line :: rest =>
      match rule line with
      | none => distillLines setting sources memory distilled rest
      | some rule =>
          match commit setting memory semantic distilledRule rule.content (.sourceTraces sources) (some rule.tags) none with
          | (after,.error exc) => (after,.error exc)
          | (after,.ok id) => distillLines setting sources after (distilled ++ [id]) rest

def distillLessons (setting : Setting) (memory : SovereignMemory setting.Number) (episodicNodeIds : List Text)
    (synthesizeLesson : Text → Result Text) : SovereignMemory setting.Number × List Text :=
  if episodicNodeIds = [] then (memory,[])
  else
    match synthesizeLesson (prompt setting memory episodicNodeIds) with
    | .error _ => (memory,[])
    | .ok response =>
        match distillLines setting episodicNodeIds memory [] (response.splitOn '\n') with
        | (after,.error _) => (after,[])
        | (after,.ok distilled) => (after,distilled)

def getDistilledLessons (setting : Setting) (memory : SovereignMemory setting.Number) (queryText : Text) (limit : Int) :
    Result (List Text) :=
  (query setting memory queryText (some semantic) (some [distilledRule]) limit).map fun nodes => nodes.map MemoryNode.content

inductive Operation (setting : Setting) where
  | commit (tier category content : Text) (context : Context) (tags : Option (List Text))
      (embedding : Option (List setting.Number))
  | commitLesson (category content : Text) (context : Context) (tags : Option (List Text))
  | linkNodes (first second : Text)
  | query (queryText : Text) (tier : Option Text) (tags : Option (List Text)) (limit : Int)
  | distillLessons (episodicNodeIds : List Text) (synthesizeLesson : Text → Result Text)

-- A query leaves memory as it is.
def step (setting : Setting) (memory : SovereignMemory setting.Number) : Operation setting → SovereignMemory setting.Number
  | .commit tier category content context tags embedding =>
      (MemoryGraph.commit setting memory tier category content context tags embedding).1
  | .commitLesson category content context tags => (MemoryGraph.commitLesson setting memory category content context tags).1
  | .linkNodes first second => MemoryGraph.linkNodes setting memory first second
  | .query _ _ _ _ => memory
  | .distillLessons episodicNodeIds synthesizeLesson =>
      (MemoryGraph.distillLessons setting memory episodicNodeIds synthesizeLesson).1

end Kryvaracode.MemoryGraph
