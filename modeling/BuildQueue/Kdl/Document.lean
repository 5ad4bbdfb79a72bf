import BuildQueue.Kdl.Number
import BuildQueue.Kdl.Text

/-!
# Reading KDL

A node is a name, entries with space between them, and perhaps a block of children; it ends with the
line, at a semicolon, or with the block or document it stands in. A mark may comment out a node, an
entry or a block. A fault anywhere refuses the whole document.
-/

namespace BuildQueue.Kdl

/-- A word that is written with a hash. -/
def keyword : Reader Value := do
  Reader.char '#'
  (do Reader.literal "true".toList; return .boolean true) <|>
    (do Reader.literal "false".toList; return .boolean false) <|>
    (do Reader.literal "null".toList; return .null) <|>
    (do Reader.literal "inf".toList; return .decimal "inf") <|>
    (do Reader.literal "-inf".toList; return .decimal "-inf") <|>
    (do Reader.literal "nan".toList; return .decimal "nan")

/-- A type annotation. -/
def annotation : Reader Unit := do
  Reader.char '('
  gap
  let _ ← string
  gap
  Reader.char ')'

/-- An annotation, if there is one, and space after it. -/
def annotated : Reader Unit := do
  match ← Reader.optional? annotation with
  | some _ => gap
  | none => return

def value : Reader Value := do
  annotated
  (do return .string (← string)) <|> keyword <|> number

def property : Reader Entry := do
  let name ← string
  gap
  Reader.char '='
  gap
  return ⟨some name, ← value⟩

def entry : Reader Entry := property <|> do return ⟨none, ← value⟩

/-- An entry after space, or nothing if it is commented out. -/
def spacedEntry : Reader (Option Entry) := do
  gapNeeded
  match ← Reader.optional? slashdash with
  | some _ => do let _ ← entry; return none
  | none => return some (← entry)

/-- What ends a node; the end of its block stays. -/
def terminator : Reader Unit :=
  lineComment <|> lineBreak <|> Reader.char ';' <|> Reader.atEnd <|> do
    match ← Reader.peek? with
    | some '\x7d' => return
    | _ => failure

/-- A node with its end, or nothing if it is commented out. -/
def nodeItem (node : Reader Node) : Reader (Option Node) := do
  lineSpace
  let hidden ← Reader.optional? slashdash
  let n ← node
  terminator
  return if hidden.isSome then none else some n

def nodesOf (node : Reader Node) : Reader (List Node) := do
  let items ← Reader.many (nodeItem node)
  lineSpace
  return items.filterMap id

/-- A block of children after space, and whether it is commented out. -/
def block (node : Reader Node) : Reader (Bool × List Node) := do
  gap
  let hidden ← Reader.optional? slashdash
  Reader.char '\x7b'
  let nodes ← nodesOf node
  Reader.char '\x7d'
  return (hidden.isSome, nodes)

/-- The blocks of a node, of which at most one is not commented out. -/
def blocks (node : Reader Node) : Reader (Option (List Node)) := do
  let all ← Reader.many (block node)
  match all.filter (!·.1) with
  | [] => return none
  | [(_, nodes)] => return some nodes
  | _ => failure

/-- A node whose blocks are nested less deep than the bound. -/
def node : Nat → Reader Node
  | 0 => failure
  | depth + 1 => do
    annotated
    let name ← string
    let entries ← Reader.many spacedEntry
    let children ← blocks (node depth)
    gap
    return { name, entries := entries.filterMap id, children }

/-- A whole document; a byte order mark may stand before it. -/
def document (depth : Nat) : Reader (List Node) := do
  let _ ← Reader.optional? (Reader.char '\ufeff')
  nodesOf (node depth)

/-- The nodes of a document; no block is nested deeper than the text is long. -/
def parse? (cs : List Char) : Option (List Node) := (document (cs.length + 1)).parse? cs

end BuildQueue.Kdl
