import Opal.Robust

set_option autoImplicit false

namespace Opal

open Reading

namespace Fdt

structure Property where
  name : List UInt8
  value : List UInt8
  deriving DecidableEq

-- A node of a devicetree. offset is no part of it: it is where an encoding
-- puts the node's token.
inductive Tree where
  | node (offset : Nat) (name : List UInt8) (props : List Property) (children : List Tree)

namespace Tree

def handle : Tree → Node
  | .node offset _ _ _ => { offset }

def name : Tree → List UInt8
  | .node _ name _ _ => name

def props : Tree → List Property
  | .node _ _ props _ => props

def children : Tree → List Tree
  | .node _ _ _ children => children

def firstProp (tree : Tree) (name : List UInt8) : Option (List UInt8) :=
  (tree.props.find? fun p => decide (p.name = name)).map Property.value

-- A component without a unit address also names a node by the part of its name
-- before the first '@'.
def answersTo (component : List UInt8) (tree : Tree) : Bool :=
  decide (tree.name = component) ||
    (decide (Fdtr.atSign ∉ component) && decide (tree.name.takeWhile (· ≠ Fdtr.atSign) = component))

def find : Tree → List (List UInt8) → Option Tree
  | tree, [] => some tree
  | tree, component :: rest =>
      match tree.children.find? (answersTo component) with
      | none => none
      | some child => child.find rest

mutual

def nodes : Tree → List Tree
  | .node offset name props children => .node offset name props children :: nodesOf children

def nodesOf : List Tree → List Tree
  | [] => []
  | tree :: rest => tree.nodes ++ nodesOf rest

end

theorem nodes_eq (tree : Tree) : tree.nodes = tree :: nodesOf tree.children := by
  cases tree
  rfl

inductive Part : Tree → Tree → Prop
  | self (tree : Tree) : Part tree tree
  | under (part child tree : Tree) (member : child ∈ tree.children) (inside : Part part child) : Part part tree

theorem child_induction {P : Tree → Prop} (step : ∀ tree, (∀ child ∈ tree.children, P child) → P tree) : ∀ tree, P tree
  | .node offset name props children =>
      step (.node offset name props children) fun child (_ : child ∈ children) => child_induction step child

theorem mem_nodes_of (part : Tree) (trees : List Tree) : part ∈ nodesOf trees ↔ ∃ tree ∈ trees, part ∈ tree.nodes := by
  induction trees with
  | nil => simp [nodesOf]
  | cons tree rest ih => simp [nodesOf, ih]

theorem mem_nodes (part : Tree) : ∀ tree, part ∈ tree.nodes ↔ Part part tree := by
  refine child_induction fun tree ih => ?_
  rw [nodes_eq, List.mem_cons, mem_nodes_of]
  constructor
  · rintro (rfl | ⟨child, member, inside⟩)
    · exact .self part
    · exact .under part child tree member ((ih child member).mp inside)
  · intro inside
    cases inside with
    | self => exact .inl rfl
    | under child _ member inside => exact .inr ⟨child, member, (ih child member).mpr inside⟩

end Tree

def Text (s : List UInt8) : Prop := utf8 s = true ∧ 0 ∉ s

def be64 (n : Nat) : List UInt8 := be32 (n / 2 ^ 32) ++ be32 n

def Header.words (h : Header) : List Nat :=
  [h.magic, h.totalsize, h.offDtStruct, h.offDtStrings, h.offMemRsvmap, h.version, h.lastCompVersion, h.bootCpuidPhys,
    h.sizeDtStrings, h.sizeDtStruct]

def ReserveEntry.bytes (entry : ReserveEntry) : List UInt8 := be64 entry.address ++ be64 entry.size

section
variable (fdt : Fdtr) (mem : Nat → UInt8)

def Fdtr.At (off : Nat) (bytes : List UInt8) : Prop := (addresses (fdt.base + off) bytes.length).map mem = bytes

instance (off : Nat) (bytes : List UInt8) : Decidable (fdt.At mem off bytes) :=
  inferInstanceAs (Decidable ((addresses (fdt.base + off) bytes.length).map mem = bytes))

variable {fdt mem} in
theorem at_append (off : Nat) (a b : List UInt8) :
    fdt.At mem off (a ++ b) ↔ fdt.At mem off a ∧ fdt.At mem (off + a.length) b := by
  unfold Fdtr.At addresses
  rw [List.length_append, ← List.range'_append_1, List.map_append, Nat.add_assoc]
  constructor
  · intro same
    exact List.append_inj same (by simp)
  · rintro ⟨first, second⟩
    rw [first, second]

-- A node's token and name, and the offset of what follows. Padding bytes may
-- be anything.
structure Fdtr.Opens (off : Nat) (name : List UInt8) (inner : Nat) : Prop where
  text : Text name
  bytes : fdt.At mem off (be32 fdtBeginNode ++ (name ++ [0]))
  next : inner = off + 4 + mask4 (name.length + 1 + 3)

-- A property. Its name lies anywhere in the strings block.
structure Fdtr.Gives (off : Nat) (p : Property) (next : Nat) : Prop where
  text : Text p.name
  short : p.value.length < 2 ^ 32
  bytes : ∃ nameoff, nameoff < 2 ^ 32 ∧
    fdt.At mem off (be32 fdtProp ++ (be32 p.value.length ++ (be32 nameoff ++ p.value))) ∧
      fdt.At mem (fdt.header.offDtStrings + nameoff) (p.name ++ [0]) ∧
        nameoff + p.name.length < fdt.header.sizeDtStrings
  next : next = off + 12 + mask4 (p.value.length + 3)

-- What follows a node's name, from one offset to behind its END_NODE: its
-- properties, then its children, with any number of NOPs before each of them
-- and before the END_NODE.
inductive Fdtr.Body : Nat → List Property → List Tree → Nat → Prop
  | close (off : Nat) (token : fdt.At mem off (be32 fdtEndNode)) : Body off [] [] (off + 4)
  | nop (off : Nat) (props : List Property) (children : List Tree) (stop : Nat) (token : fdt.At mem off (be32 fdtNop))
      (rest : Body (off + 4) props children stop) : Body off props children stop
  | prop (off next : Nat) (p : Property) (props : List Property) (children : List Tree) (stop : Nat)
      (gives : fdt.Gives mem off p next) (rest : Body next props children stop) :
      Body off (p :: props) children stop
  | child (off inner : Nat) (name : List UInt8) (props : List Property) (kids : List Tree) (after : Nat)
      (children : List Tree) (stop : Nat) (opens : fdt.Opens mem off name inner) (within : Body inner props kids after)
      (rest : Body after [] children stop) : Body off [] (.node off name props kids :: children) stop

-- The blob at dtbPa is an encoding of the tree and the reserve map, with fdt's
-- header. The blocks may lie in any order.
structure Encodes (dtbPa : Nat) (tree : Tree) (entries : List ReserveEntry) : Prop where
  base : fdt.base = kernelBase + dtbPa
  allocated : fdt.base + fdt.header.totalsize < wordEnd
  words : ∀ word ∈ fdt.header.words, word < 2 ^ 32
  magic : fdt.header.magic = fdtMagic
  header : fdt.At mem 0 (fdt.header.words.flatMap be32)
  pastHeader : headerSize ≤ fdt.header.offDtStruct
  root : tree.handle.offset = fdt.header.offDtStruct
  tree : ∃ inner stop, fdt.Opens mem tree.handle.offset tree.name inner ∧ fdt.Body mem inner tree.props tree.children stop ∧
    fdt.At mem stop (be32 fdtEnd) ∧ fdt.structStop = stop + 4
  structEnd : fdt.structStop ≤ fdt.header.totalsize
  stringsEnd : fdt.header.offDtStrings + fdt.header.sizeDtStrings ≤ fdt.header.totalsize
  reserveMap : fdt.At mem fdt.header.offMemRsvmap (entries.flatMap ReserveEntry.bytes ++ (be64 0 ++ be64 0))
  reserveEnd : fdt.header.offMemRsvmap + 16 * (entries.length + 1) ≤ fdt.header.totalsize
  entries : ∀ entry ∈ entries, entry.address < 2 ^ 64 ∧ entry.size < 2 ^ 64 ∧ ¬ (entry.address = 0 ∧ entry.size = 0)

end

def orMissing {α : Type} : Option α → Result α
  | none => .missing
  | some a => .value a

end Fdt

end Opal
