import Stencil.Decimal.Layout
import Stencil.Entries
/-!
Documents: trees of elements and texts in an arena. A node keeps its place in the arena for good;
taking it out of the tree only cuts the link to its parent. A handle names the document it belongs
to, and another document refuses it.
-/

namespace Stencil

/-- The handle of a node: its document and its place in the arena. -/
structure NodeId where
  document : Nat
  index : Nat
  deriving DecidableEq, Repr

def NodeId.display (id : NodeId) : String :=
  "NodeId \x7b document: " ++ toString id.document ++ ", index: " ++ toString id.index ++ " \x7d"

/-- What a node holds. Attributes keep their order. -/
inductive NodeData where
  | element (tag : String) (attrs : Entries String)
  | text (s : String)
  deriving DecidableEq, Repr

structure Node where
  data : NodeData
  parent? : Option NodeId
  children : List NodeId
  deriving DecidableEq, Repr

/-- A document: its number and its arena. The root is the first node. -/
structure Document where
  serial : Nat
  nodes : Array Node
  deriving Repr

inductive DocumentError where
  | rootNode
  | alreadyAttached (id : NodeId)
  | detached (id : NodeId)
  | cycle (parent node : NodeId)
  | foreign (id : NodeId)
  | notText (id : NodeId)
  | notPlaceholder (id : NodeId)
  | textParent
  | notBelow (node ancestor : NodeId)
  | refused (reason : String)
  deriving DecidableEq, Repr

/-- The wording of an error; `name` says how handles are written. -/
def DocumentError.message (name : NodeId → String) : DocumentError → String
  | rootNode => "The root node cannot be moved or removed"
  | alreadyAttached id => "Node " ++ name id ++ " is already attached to a parent"
  | detached id => "Node " ++ name id ++ " is not attached to a parent"
  | cycle parent node => "Inserting " ++ name node ++ " under " ++ name parent ++ " would create a cycle"
  | foreign id => "Node " ++ name id ++ " belongs to another document"
  | notText id => "Node " ++ name id ++ " is not a text node"
  | notPlaceholder id => "Node " ++ name id ++ " is not a placeholder"
  | textParent => "Invalid document structure: text nodes cannot have children"
  | notBelow node ancestor =>
    "Invalid document structure: " ++ name node ++ " is not below " ++ name ancestor
  | refused reason => "Invalid document structure: " ++ reason

namespace Document

variable (d : Document)

def handle (index : Nat) : NodeId := ⟨d.serial, index⟩

def root : NodeId := d.handle 0

/-- How many nodes the document ever had. -/
def size : Nat := d.nodes.size

def node? (id : NodeId) : Option Node := if id.document = d.serial then d.nodes[id.index]? else none

def check (id : NodeId) : Except DocumentError Unit :=
  if (d.node? id).isSome then .ok () else .error (.foreign id)

def data? (id : NodeId) : Option NodeData := (d.node? id).map Node.data

def tag? (id : NodeId) : Option String :=
  match d.data? id with
  | some (.element tag _) => some tag
  | _ => none

def attrs (id : NodeId) : Entries String :=
  match d.data? id with
  | some (.element _ attrs) => attrs
  | _ => []

def attr? (id : NodeId) (name : String) : Option String := (d.attrs id).get? name

def text? (id : NodeId) : Option String :=
  match d.data? id with
  | some (.text s) => some s
  | _ => none

def isText (id : NodeId) : Bool := (d.text? id).isSome

def parent? (id : NodeId) : Option NodeId := (d.node? id).bind Node.parent?

def children (id : NodeId) : List NodeId := ((d.node? id).map Node.children).getD []

def modify (id : NodeId) (f : Node → Node) : Document :=
  if id.document = d.serial then { d with nodes := d.nodes.modify id.index f } else d

/-- Puts a new node into the arena, without links. -/
def create (data : NodeData) : NodeId × Document :=
  (d.handle d.nodes.size, { d with nodes := d.nodes.push ⟨data, none, []⟩ })

def createElement (tag : String) : NodeId × Document := d.create (.element tag [])

def createText (s : String) : NodeId × Document := d.create (.text s)

/-- Links a new node below a parent, behind the children it has. -/
def appendNew (parent child : NodeId) : Document :=
  (d.modify child fun n ↦ { n with parent? := some parent }).modify parent fun n ↦
    { n with children := n.children ++ [child] }

def putText (id : NodeId) (s : String) : Document := d.modify id fun n ↦ { n with data := .text s }

def setText (id : NodeId) (s : String) : Except DocumentError Document := do
  d.check id
  if d.isText id then .ok (d.putText id s) else .error (.notText id)

/-- Puts an attribute of an element; other nodes stay as they are. -/
def setAttr (id : NodeId) (name value : String) : Document :=
  d.modify id fun n ↦ match n.data with
    | .element tag attrs => { n with data := .element tag (attrs.put name value) }
    | .text _ => n

def ofRoot (serial : Nat) (data : NodeData) : Document := ⟨serial, #[⟨data, none, []⟩]⟩

end Document

end Stencil
