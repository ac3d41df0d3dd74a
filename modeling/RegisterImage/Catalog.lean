import RegisterImage.Error
import RegisterImage.Json.Reader
import RegisterImage.Menu.Basic
import RegisterImage.Register.Document
import RegisterImage.Text.Utf8

/-!
# Catalogs

A catalog is a loaded register document: its registers in document order, the writes that open
and close every plan, and the menus that have been looked at.

## Main definitions

* `registerNodes` — the nodes of a document that describe registers.
* `Catalog.ofDocument`, `Catalog.ofText`, `Catalog.ofBytes` — the catalog of a document.
* `Catalog.register?` — the register with a code.
* `Catalog.matching` — the registers at an address.
* `Catalog.menu` — the menu of a register, and the catalog that remembers it.
* `Catalog.replace` — a new definition of a register.
-/

namespace RegisterImage

/-! ## Nodes -/

/-- A node with an address and a size describes a register. -/
def isRegisterNode (es : Entries) : Bool :=
  es.contains "address" && es.contains "size_bytes"

/-- The register nodes below and at a node: those among its items, those among its groups, and
the node itself. -/
def registerNodes : Json → List Json
  | .arr xs => xs.attach.flatMap fun x => registerNodes x.1
  | .obj es =>
    let node := Json.obj es
    ((node.nodes "items").attach.flatMap fun x => registerNodes x.1) ++
      ((node.nodes "groups").attach.flatMap fun x => registerNodes x.1) ++
      if isRegisterNode es then [node] else []
  | _ => []
termination_by node => sizeOf node
decreasing_by
  · have := List.sizeOf_lt_of_mem x.2
    simp
    omega
  · exact Json.sizeOf_lt_of_mem_nodes x.2
  · exact Json.sizeOf_lt_of_mem_nodes x.2

/-- The register nodes of a whole document. -/
def documentNodes (document : Json) : List Json :=
  (document.get? "groups").elim [] registerNodes

/-- The codes of the register nodes that are not well-formed registers. -/
def malformedCodes (document : Json) : List String :=
  ((documentNodes document).filter fun node => (Register.ofJson? node).isNone).map fun node =>
    ((node.get? "code").bind Json.string?).getD "?"

/-! ## Catalogs -/

structure Catalog where
  document : Json
  registers : List Register
  opening : Option DeviceWrite
  closing : Option DeviceWrite
  memo : MenuMemo

namespace Catalog

/-- A document has to be an object. Register nodes that are not well formed are left out. -/
def ofDocument (document : Json) : Except Error Catalog :=
  if document.isObject then
    .ok {
      document
      registers := (documentNodes document).filterMap Register.ofJson?
      opening :=
        (document.first? ["cc_prefix", "ccPrefix", "prefix"]).bind DeviceWrite.ofJson?
      closing :=
        (document.first? ["cc_suffix", "ccSuffix", "suffix"]).bind DeviceWrite.ofJson?
      memo := [] }
  else .error .documentNotObject

def ofText (text : String) : Except Error Catalog :=
  match Json.parse? text with
  | some document => ofDocument document
  | none => .error .malformedJson

def ofBytes (content : Bytes) : Except Error Catalog :=
  match decodeUtf8? content with
  | some text => ofText text
  | none => .error (.system .notUtf8)

/-- The register with a code, the last one when there are several. -/
def register? (c : Catalog) (code : String) : Option Register :=
  c.registers.findRev? (·.code = code)

def find (c : Catalog) (code : String) : Except Error Register :=
  match c.register? code with
  | some r => .ok r
  | none => .error (.unknownRegister code)

def contains (c : Catalog) (code : String) : Bool :=
  (c.register? code).isSome

def menu (c : Catalog) (r : Register) : Menu × Catalog :=
  let (menu, memo) := c.memo.lookup r
  (menu, { c with memo })

/-- A list of registers with the last of a code replaced. -/
def replaceLast (r : Register) : List Register → List Register
  | [] => []
  | x :: xs =>
    if x.code = r.code ∧ !xs.any (·.code = r.code) then r :: xs else x :: replaceLast r xs

/-- A new definition for the register with its code. Its menu is looked at anew. -/
def replace (c : Catalog) (r : Register) : Except Error Catalog :=
  if c.contains r.code then
    .ok { c with registers := replaceLast r c.registers, memo := c.memo.forget r.code }
  else .error (.unknownRegister r.code)

end Catalog

/-! ## Addresses -/

/-- The low 32 bits of the address and the width, when both can be read. -/
def Register.slot? (r : Register) : Option (UInt32 × UInt8) := do
  let address ← r.addressValue?
  let width ← r.width?
  some (address.toUInt32, width)

def DeviceWrite.slot (w : DeviceWrite) : UInt32 × UInt8 :=
  (w.address, w.size)

namespace Catalog

/-- The registers with an address and a width. -/
def matching (c : Catalog) (slot : UInt32 × UInt8) : List Register :=
  c.registers.filter (·.slot? = some slot)

/-- The addresses and widths that are taken, in ascending order. -/
def slots (c : Catalog) : List (UInt32 × UInt8) :=
  ((c.registers.filterMap Register.slot?).eraseDups).mergeSort fun a b =>
    a.1 < b.1 || (a.1 = b.1 && a.2 ≤ b.2)

end Catalog

end RegisterImage
