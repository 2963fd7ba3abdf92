import Ffado.Lib.XmlEvents
import Mathlib.Data.List.ModifyLast

/-!
# The cache file

The nodes that the cache is written to, their printed form, and the document that the handlers of
the parser build from what it reports, after `libutil/serialize_expat_xml.cpp`. `XMLSerialize` and
`XMLDeserialize` of `libutil/serialize_expat.cpp` are the writer and the reader over them. The
parser is given by how it splits character data, by how much it has reported when it fails, and by
what stands in memory behind the characters of a piece.
-/
namespace Ffado.Util.Xml

open XmlEvents

/-- An element. The attributes are left out: no node of the cache has any. -/
inductive Node
  | mk (name cdata : Str) (children : List Node)

namespace Node

def name : Node → Str
  | .mk name _ _ => name

def cdata : Node → Str
  | .mk _ cdata _ => cdata

def children : Node → List Node
  | .mk _ _ children => children

@[simp] theorem name_mk (name cdata : Str) (children : List Node) :
    (mk name cdata children).name = name := rfl

@[simp] theorem cdata_mk (name cdata : Str) (children : List Node) :
    (mk name cdata children).cdata = cdata := rfl

@[simp] theorem children_mk (name cdata : Str) (children : List Node) :
    (mk name cdata children).children = children := rfl

def hasChildText (n : Node) : Bool := !n.cdata.isEmpty

def add (n child : Node) : Node := .mk n.name n.cdata (n.children ++ [child])

def setChildText (text : Str) : Node → Node
  | .mk name _ children => .mk name text children

mutual

def rawXml (depth : ℕ) : Node → Str
  | .mk name cdata children =>
    List.replicate (depth * 2) ' ' ++ '<' :: name ++
      if cdata.isEmpty && children.isEmpty then ['/', '>', '\n']
      else
        '>' :: cdata ++
          (if children.isEmpty then []
          else '\n' :: rawXmlAll (depth + 1) children ++ List.replicate (depth * 2) ' ') ++
          '<' :: '/' :: name ++ ['>', '\n']

def rawXmlAll (depth : ℕ) : List Node → Str
  | [] => []
  | n :: ns => rawXml depth n ++ rawXmlAll depth ns

end

def toXml (n : Node) : Str := n.rawXml 0

/-- The parts of a path between its slashes. -/
def components : Str → List Str
  | [] => [[]]
  | c :: cs =>
    if c = '/' then [] :: components cs
    else
      match components cs with
      | [] => [[c]]
      | part :: parts => (c :: part) :: parts

def named (key : Str) (n : Node) : List Node :=
  if key = [] then [] else n.children.filter fun child => child.name = key

def findParts : List Str → Node → List Node
  | [], _ => []
  | [key], n => n.named key
  | key :: keys, n => (n.named key).flatMap (findParts keys)

def find (path : Str) (n : Node) : List Node := n.findParts (components path)

end Node

structure Document where
  root : Option Node
  depth : ℕ

/-- Changes the node that is reached through as many last children. -/
def Node.atDepth : ℕ → (Node → Node) → Node → Node
  | 0, f, n => f n
  | depth + 1, f, .mk name cdata children =>
    .mk name cdata (children.modifyLast (atDepth depth f))

def isspace (c : Char) : Bool := c == ' ' || (9 ≤ c.toNat && c.toNat ≤ 13)

/-- What the handler keeps of a piece. The second bound is a length that is counted from the first
one, so that characters behind the piece can get in. -/
def trimmed (behind chars : Str) : Str :=
  let y := (chars.reverse.dropWhile isspace).length - 1
  let x := min (chars.takeWhile isspace).length y
  ((chars ++ behind).drop x).take (y + 1)

namespace Document

def startElementHandler (name : Str) (doc : Document) : Document :=
  match doc.root with
  | none => ⟨some (.mk name [] []), doc.depth + 1⟩
  | some root => ⟨some (root.atDepth (doc.depth - 1) (·.add (.mk name [] []))), doc.depth + 1⟩

def characterDataHandler (behind chars : Str) (doc : Document) : Document :=
  { doc with
    root := doc.root.map (.atDepth (doc.depth - 1) (.setChildText (trimmed behind chars))) }

def endElementHandler (doc : Document) : Document := { doc with depth := doc.depth - 1 }

end Document

/-- The parser. -/
structure Expat where
  splitter : Splitter
  /-- The number of events that have been reported before a failure. -/
  reported : ℕ
  /-- What stands in memory behind a piece. -/
  behind : Str → Str

def Expat.handle (expat : Expat) (doc : Document) : Event → Document
  | .start name => doc.startElementHandler name
  | .text chars => doc.characterDataHandler (expat.behind chars) chars
  | .stop => doc.endElementHandler

/-- A failure is caught by the reader, so that the part of the document that is there is kept. -/
def Document.fromXml (expat : Expat) (xml : Str) : Document :=
  (report expat.splitter expat.reported (parseText xml)).foldl expat.handle ⟨none, 0⟩

/-- The file is read word by word. -/
def Document.loadFromFile (expat : Expat) (file : Str) : Document :=
  fromXml expat (file.filter fun c => !isspace c)

def tokenize (path : Str) : List Str := (Node.components path).filter (· ≠ [])

/-- Changes the first child with a name. -/
def Node.modifyNamed (key : Str) (f : Node → Node) : List Node → Option (List Node)
  | [] => none
  | n :: ns => if n.name = key then some (f n :: ns) else (modifyNamed key f ns).map (n :: ·)

/-- `getNodePath` and the new element on the node that it finds: from the first token without a node
on, every node is new. -/
def Node.insert (text : Str) : List Str → Node → Node
  | [], n => n
  | [token], n => n.add (.mk token text [])
  | token :: tokens, .mk name cdata children =>
    .mk name cdata ((modifyNamed token (insert text tokens) children).getD
      (children ++ [insert text tokens (.mk token [] [])]))

namespace XmlSerialize

def versionName : Str := ['C', 'a', 'c', 'h', 'e', 'V', 'e', 'r', 's', 'i', 'o', 'n']

def rootName : Str := ['f', 'f', 'a', 'd', 'o', '_', 'c', 'a', 'c', 'h', 'e']

/-- The document of a new writer, in a build with a version. -/
def create (version : Str) : Node := .mk rootName [] [.mk versionName version []]

/-- The document behind a write, and whether there was one. -/
def write (path text : Str) (root : Node) : Node × Bool :=
  match tokenize path with
  | [] => (root, false)
  | token :: tokens => (root.insert text (token :: tokens), true)

def numberText (value : Int64) : Str := (toString value.toInt).toList

def writeNumber (path : Str) (value : Int64) (root : Node) : Node × Bool :=
  write path (numberText value) root

end XmlSerialize

def digitValue (c : Char) : ℕ :=
  if c.isDigit then c.toNat - 48
  else if c.isLower then c.toNat - 87
  else if c.isUpper then c.toNat - 55
  else 36

/-- The value of the digits up to the first character that is none. -/
def digitsValue (base : ℕ) (cs : Str) : ℕ :=
  (cs.takeWhile fun c => digitValue c < base).foldl (fun n c => base * n + digitValue c) 0

/-- An unsigned number whose first characters give the base. -/
def unsignedValue : Str → ℕ
  | '0' :: x :: c :: cs =>
    if (x = 'x' ∨ x = 'X') ∧ digitValue c < 16 then digitsValue 16 (c :: cs)
    else digitsValue 8 ('0' :: x :: c :: cs)
  | '0' :: cs => digitsValue 8 ('0' :: cs)
  | cs => digitsValue 10 cs

def signedValue : Str → ℤ
  | '-' :: cs => -(unsignedValue cs : ℤ)
  | '+' :: cs => unsignedValue cs
  | cs => unsignedValue cs

/-- `strtoll` with base zero. -/
def strtoll (cs : Str) : Int64 :=
  Int64.ofInt (max (-2 ^ 63) (min (2 ^ 63 - 1) (signedValue (cs.dropWhile isspace))))

namespace XmlDeserialize

/-- `read` of a string. Without a root node the reader is not defined. -/
def read (path : Str) (doc : Document) : Option Str := do
  let root ← doc.root
  let n ← (root.find path).head?
  return n.cdata

def readNumber (path : Str) (doc : Document) : Option Int64 := do
  let root ← doc.root
  let n ← (root.find path).head?
  if n.hasChildText then some (strtoll n.cdata) else none

def isExisting (path : Str) (doc : Document) : Bool :=
  match doc.root with
  | none => false
  | some root => (root.find path).length > 0

def checkVersion (version : Str) (doc : Document) : Bool :=
  match read XmlSerialize.versionName doc with
  | some savedVersion => version = savedVersion
  | none => false

def isValid (version : Str) (doc : Document) : Bool := checkVersion version doc

end XmlDeserialize

end Ffado.Util.Xml
