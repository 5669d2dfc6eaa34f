import Opal.Search

set_option autoImplicit false

namespace Opal

open Reading

namespace Fdt

def Tree.label (tree : Tree) : List UInt8 := if tree.name = [] then [Fdtr.slash] else tree.name

-- Where a node's tokens start, behind its name.
def Tree.inner (tree : Tree) : Nat := tree.handle.offset + 4 + mask4 (tree.name.length + 1 + 3)

-- The labels of the node lines.
def labels : List Fdtr.Line → List (List UInt8)
  | [] => []
  | .node _ label :: rest => label :: labels rest
  | .prop _ _ _ :: rest => labels rest

-- The property names in the lines up to the next node's.
def names : List Fdtr.Line → List (List UInt8)
  | .prop _ name _ :: rest => name :: names rest
  | _ => []

-- The property names under each node line.
def sections : List Fdtr.Line → List (List (List UInt8))
  | [] => []
  | .node _ _ :: rest => names rest :: sections rest
  | .prop _ _ _ :: rest => sections rest

-- What is printed of these nodes, in this order.
def printed (nodes : List Node) (lines : List Fdtr.Line) : List (Node × List UInt8) :=
  (nodes.zip (sections lines)).flatMap fun part => part.2.map fun name => (part.1, name)

-- Of these properties, which lie from an offset on, those that no NOP precedes.
def Fdtr.leading (fdt : Fdtr) (mem : Nat → UInt8) : Nat → List Property → List Property
  | _, [] => []
  | off, p :: rest =>
      if fdt.At mem off (be32 fdtProp) then p :: fdt.leading mem (off + 12 + mask4 (p.value.length + 3)) rest else []

-- A NOP hides no property name: each property behind one has the name of a
-- property before the node's first.
def Fdtr.NopsHideNothing (fdt : Fdtr) (mem : Nat → UInt8) (tree : Tree) : Prop :=
  ∀ p ∈ tree.props, ∃ q ∈ fdt.leading mem tree.inner tree.props, q.name = p.name

section
variable (a b : List Fdtr.Line) (clean : names b = [])
include clean

theorem names_append : names (a ++ b) = names a := by
  induction a with
  | nil => exact clean
  | cons line rest ih =>
      cases line with
      | node _ _ => rfl
      | prop _ name _ => exact congrArg (name :: ·) ih

theorem sections_append : sections (a ++ b) = sections a ++ sections b := by
  induction a with
  | nil => rfl
  | cons line rest ih =>
      cases line with
      | node _ _ =>
          change names (rest ++ b) :: sections (rest ++ b) = names rest :: (sections rest ++ sections b)
          rw [names_append rest b clean, ih]
      | prop _ _ _ => exact ih

omit clean in
theorem labels_append : labels (a ++ b) = labels a ++ labels b := by
  induction a with
  | nil => rfl
  | cons line rest ih =>
      cases line with
      | node _ label => exact congrArg (label :: ·) ih
      | prop _ _ _ => exact ih

end

def propLines (indent : Nat) (shown : List (List UInt8 × Fdtr.Shown)) : List Fdtr.Line :=
  shown.map fun entry => .prop indent entry.1 entry.2

section
variable (indent : Nat) (shown : List (List UInt8 × Fdtr.Shown)) (b : List Fdtr.Line)

theorem names_prop_lines (clean : names b = []) : names (propLines indent shown ++ b) = shown.map Prod.fst := by
  induction shown with
  | nil => exact clean
  | cons entry rest ih => exact congrArg (entry.1 :: ·) ih

theorem sections_prop_lines : sections (propLines indent shown ++ b) = sections b := by
  induction shown with
  | nil => rfl
  | cons entry rest ih => exact ih

theorem labels_prop_lines : labels (propLines indent shown ++ b) = labels b := by
  induction shown with
  | nil => rfl
  | cons entry rest ih => exact ih

end

-- These lines are those of these nodes, in order, with what is to be read of
-- their properties before a NOP.
structure Fdtr.Prints (fdt : Fdtr) (mem : Nat → UInt8) (parts : List Tree) (lines : List Fdtr.Line) : Prop where
  labels : labels lines = parts.map Tree.label
  sections : sections lines = parts.map fun part => (fdt.leading mem part.inner part.props).map Property.name
  clean : names lines = []

section
variable {fdt : Fdtr} {mem : Nat → UInt8}

theorem returns_cells (data : List UInt8) (cells : List Nat) (short : data.length < 2 ^ 32)
    (inside : ∀ i ∈ cells, i * 4 + 4 ≤ data.length) : Returns mem (Fdtr.cellsOf data cells) := by
  induction cells with
  | nil => exact returns_pure []
  | cons i rest ih =>
      have here := inside i List.mem_cons_self
      refine (yields_mul i 4 (by unfold wordEnd; omega)).returns ?_
      refine (yields_add _ 4 (by unfold wordEnd; omega)).returns ?_
      refine (yields_slice data _ _ (by omega) here).returns ?_
      exact (ih fun j member => inside j (List.mem_cons_of_mem i member)).bind fun later => returns_pure _

theorem returns_shown_string (data : List UInt8) : Returns mem (Fdtr.shownString data) := by
  unfold Fdtr.shownString
  by_cases ends : data.getLast? = some 0
  · rw [if_pos ends]
    have some_ : 1 ≤ data.length := by
      cases data with
      | nil => cases ends
      | cons byte rest => exact Nat.succ_le_succ (Nat.zero_le rest.length)
    refine (yields_sub _ 1 some_).returns ?_
    refine (yields_slice data 0 _ (Nat.zero_le _) (Nat.sub_le _ 1)).returns ?_
    split_ifs <;> exact returns_pure _
  · rw [if_neg ends]
    exact returns_pure none

theorem returns_print_value (data : List UInt8) (short : data.length < 2 ^ 32) :
    Returns mem (Fdtr.printPropValue data) := by
  unfold Fdtr.printPropValue
  by_cases empty : data = []
  · rw [if_pos empty]
    exact returns_pure _
  · rw [if_neg empty]
    refine (returns_shown_string data).bind fun text => ?_
    cases text with
    | some shown => exact returns_pure shown
    | none =>
        dsimp only
        split_ifs
        · refine (returns_cells data _ short fun i member => ?_).bind fun words => returns_pure _
          have low := List.mem_range.mp member
          omega
        · exact returns_pure _

theorem yields_indent (depth : Nat) (shallow : depth < 2 ^ 62) :
    Yields mem (Fdtr.indentStr depth) (.value (min (depth * 2) Fdtr.spaces)) :=
  (yields_mul depth 2 (by unfold wordEnd; omega)).bind (yields_pure _)

theorem token_unlike (off m n : Nat) (m_small : m < 2 ^ 32) (n_small : n < 2 ^ 32) (here : fdt.At mem off (be32 m))
    (there : fdt.At mem off (be32 n)) : m = n := by
  have same : be32 m = be32 n := here.symm.trans there
  have value := congrArg fromBe same
  rwa [from_be_be32, from_be_be32, Nat.mod_eq_of_lt m_small, Nat.mod_eq_of_lt n_small] at value

section
variable (sound : fdt.Sound)
include sound

theorem yields_dump_prop (off next : Nat) (p : Property) (gives : fdt.Gives mem off p next) (inside : next ≤ fdt.structStop) :
    Yields mem (fdt.dumpProp off) (.value (some (p.name, p.value, next))) := by
  have stops := struct_stop_small sound
  have next_eq := gives.next
  have padded := le_mask4 p.value.length
  obtain ⟨nameoff, near, bytes, string, short⟩ := gives.bytes
  rw [at_append, at_append, at_append] at bytes
  obtain ⟨token, len, nameoffHere, value⟩ := bytes
  change fdt.At mem (off + 4) _ at len
  change fdt.At mem (off + 4 + 4) _ at nameoffHere
  change fdt.At mem (off + 4 + 8) _ at value
  refine (yields_token sound off fdtProp (by decide) token (by omega)).attempt.bind ?_
  rw [if_neg (not_not_intro rfl)]
  refine (yields_add off 4 (by unfold wordEnd; omega)).bind ?_
  refine (yields_token sound (off + 4) _ gives.short len (by omega)).attempt.bind ?_
  refine (yields_add (off + 4) 4 (by unfold wordEnd; omega)).bind ?_
  refine (yields_token sound (off + 4 + 4) _ near nameoffHere (by omega)).attempt.bind ?_
  refine (yields_add (off + 4) 8 (by unfold wordEnd; omega)).bind ?_
  refine (yields_string_at sound nameoff p.name gives.text string short).attempt.bind ?_
  refine (yields_struct_bytes sound (off + 4 + 8) p.value.length (by omega)).attempt.bind ?_
  refine (yields_at (off + 4 + 8) p.value value).bind ?_
  refine (yields_add _ 3 (by unfold wordEnd; omega)).bind ?_
  refine (yields_add (off + 4 + 8) _ (by unfold wordEnd; omega)).bind ?_
  rw [next_eq]
  exact yields_pure _

-- The loop over the properties ends at any other token.
theorem dump_stops (depth off n : Nat) (lines : List Fdtr.Line) (small : n < 2 ^ 32) (other : n ≠ fdtProp)
    (token : fdt.At mem off (be32 n)) (inside : off + 4 ≤ fdt.structStop) :
    Unrolls mem (fdt.dumpRound depth fdt.structStop) (off, lines) (.value lines) := by
  have stops := struct_stop_small sound
  refine .done _ _ ?_
  refine (yields_add off 4 (by unfold wordEnd; omega)).bind ?_
  rw [if_pos inside]
  have none_ : Yields mem (fdt.dumpProp off) (.value none) := by
    refine (yields_token sound off n small token inside).attempt.bind ?_
    rw [if_pos fun same => other (Option.some.inj same)]
    exact yields_pure none
  exact none_.bind (yields_pure _)

theorem dump_unrolls (depth : Nat) (shallow : depth ≤ 2 ^ 32) {off stop : Nat} {props : List Property}
    {children : List Tree} (body : fdt.Body mem off props children stop) (inside : stop ≤ fdt.structStop)
    (lines : List Fdtr.Line) :
    ∃ shown, shown.map Prod.fst = (fdt.leading mem off props).map Property.name ∧
      Unrolls mem (fdt.dumpRound depth fdt.structStop) (off, lines)
        (.value (lines ++ propLines (min ((depth + 1) * 2) Fdtr.spaces) shown)) := by
  have stops := struct_stop_small sound
  have low := body_le body
  induction body generalizing lines with
  | close off token =>
      refine ⟨[], rfl, ?_⟩
      rw [propLines, List.map_nil, List.append_nil]
      exact dump_stops sound depth off fdtEndNode lines (by decide) (by decide) token inside
  | nop off props children stop token rest ih =>
      have later := body_le rest
      have hidden : fdt.leading mem off props = [] := by
        cases props with
        | nil => rfl
        | cons p rest =>
            refine if_neg fun here => ?_
            have same := token_unlike off fdtNop fdtProp (by decide) (by decide) token here
            cases same
      refine ⟨[], by rw [hidden]; rfl, ?_⟩
      rw [propLines, List.map_nil, List.append_nil]
      exact dump_stops sound depth off fdtNop lines (by decide) (by decide) token (by omega)
  | child off inner name _ _ after _ stop opens within rest _ _ =>
      have token := ((at_append off _ _).mp opens.bytes).1
      refine ⟨[], rfl, ?_⟩
      rw [propLines, List.map_nil, List.append_nil]
      exact dump_stops sound depth off fdtBeginNode lines (by decide) (by decide) token (by omega)
  | prop off next p props children stop gives rest ih =>
      have later := body_le rest
      have next_eq := gives.next
      have token : fdt.At mem off (be32 fdtProp) := by
        obtain ⟨_, _, bytes, _⟩ := gives.bytes
        exact ((at_append off _ _).mp bytes).1
      have returns : Returns mem (Fdtr.printPropValue p.value) := returns_print_value p.value gives.short
      obtain ⟨value, prints⟩ := returns
      obtain ⟨shown, same, goes⟩ := ih inside (lines ++ [.prop (min ((depth + 1) * 2) Fdtr.spaces) p.name value]) later
      refine ⟨(p.name, value) :: shown, ?_, ?_⟩
      · rw [Fdtr.leading, if_pos token, ← next_eq]
        exact congrArg (p.name :: ·) same
      · rw [List.append_assoc] at goes
        refine .again _ (next, lines ++ [.prop (min ((depth + 1) * 2) Fdtr.spaces) p.name value]) _ ?_ goes
        refine (yields_add off 4 (by unfold wordEnd; omega)).bind ?_
        rw [if_pos (by omega)]
        refine (yields_dump_prop sound off next p gives (by omega)).bind ?_
        refine (yields_add depth 1 (by unfold wordEnd; omega)).bind ?_
        refine (yields_indent (depth + 1) (by omega)).bind ?_
        exact prints.bind (yields_pure _)

end

theorem prints_append {parts more : List Tree} {a b : List Fdtr.Line} (first : fdt.Prints mem parts a)
    (second : fdt.Prints mem more b) : fdt.Prints mem (parts ++ more) (a ++ b) where
  labels := by rw [labels_append, first.labels, second.labels, List.map_append]
  sections := by rw [sections_append a b second.clean, first.sections, second.sections, List.map_append]
  clean := (names_append a b second.clean).trans first.clean

theorem dump_local (at_ : Node × Nat) : Local fun call => fdt.dumpCall call at_ := by
  refine local_bind (local_const _) fun indent => ?_
  refine local_bind (local_const _) fun name => ?_
  refine local_bind (local_const _) fun nameOff => ?_
  refine local_bind (local_const _) fun nodeName => ?_
  refine local_bind (local_const _) fun namePadded => ?_
  refine local_bind (local_const _) fun off => ?_
  refine local_bind (local_const _) fun structEnd => ?_
  refine local_bind (local_const _) fun props => ?_
  refine local_bind (local_const _) fun iter => ?_
  refine local_bind (local_loop (fun at_ => ?_) _) fun below => local_const _
  refine local_bind (local_const _) fun found => ?_
  cases found with
  | none => exact local_const _
  | some pair =>
      refine local_bind (local_bind (local_const _) fun deeper => ?_) fun round => local_const _
      exact local_bind (local_call (pair.1, deeper)) fun more => local_const _

theorem dump_children (call : Node × Nat → Reading (List Fdtr.Line)) (depth : Nat) (shallow : depth ≤ 2 ^ 32)
    (children : List Tree) (iter : NodeIter) (lists : Enumerates fdt mem iter (children.map Tree.handle))
    (calls : ∀ child ∈ children, ∃ more, Yields mem (call (child.handle, depth + 1)) (.value more) ∧
      fdt.Prints mem child.nodes more) (found : List Fdtr.Line) :
    ∃ below, fdt.Prints mem (Tree.nodesOf children) below ∧
      Unrolls mem (fdt.eachRound (Fdtr.dumpChild call depth) id) (iter, found) (.value (found ++ below)) := by
  induction children generalizing iter found with
  | nil =>
      cases lists with
      | nil _ ends =>
          refine ⟨[], ⟨rfl, rfl, rfl⟩, ?_⟩
          rw [List.append_nil]
          exact .done _ _ (each_round_last _ _ found ends)
  | cons child rest ih =>
      cases lists with
      | cons _ after _ _ first later =>
          obtain ⟨more, called, shows⟩ := calls child List.mem_cons_self
          obtain ⟨below, others, goes⟩ := ih after later (fun other member => calls other (List.mem_cons_of_mem child member))
            (found ++ more)
          refine ⟨more ++ below, prints_append shows others, ?_⟩
          rw [List.append_assoc] at goes
          refine .again _ _ _ (each_round_again _ _ found first ?_) goes
          exact (yields_add depth 1 (by unfold wordEnd; omega)).bind (called.bind (yields_pure _))

theorem dump_node_prints (sound : fdt.Sound) : ∀ tree, Lies fdt mem tree → ∀ depth level, depth ≤ tree.handle.offset →
    ∃ lines, Yields mem (descent fdt.dumpCall level (tree.handle, depth)) (.value lines) ∧
      fdt.Prints mem tree.nodes lines := by
  refine Tree.child_induction fun tree ih lies depth level shallow => ?_
  obtain ⟨inner, stop, started, body, inside, inner_eq, short, past, small, text⟩ := yields_inner sound tree lies
  have own : inner = tree.inner := inner_eq
  obtain ⟨shown, same, goes⟩ := dump_unrolls sound depth (by omega) body inside []
  obtain ⟨iter, starts, lists⟩ := yields_children sound tree lies
  obtain ⟨below, others, each⟩ := dump_children (descent fdt.dumpCall (level + 1)) depth (by omega) tree.children iter lists
    (fun child member => ih child member (children_lie tree lies child member) (depth + 1) (level + 1) (by
      obtain ⟨inner', _, opens, body', _⟩ := lies
      have inner_eq' := opens.next
      have low := (children_ascend body').2 child member
      omega)) []
  refine ⟨.node (min (depth * 2) Fdtr.spaces) tree.label ::
    propLines (min ((depth + 1) * 2) Fdtr.spaces) shown ++ below, ?_, ?_⟩
  · refine yields_deeper dump_local level _ ?_
    refine (yields_indent depth (by omega)).bind ?_
    refine (yields_full_name sound tree lies).bind ?_
    refine (yields_add tree.handle.offset 4 (by unfold wordEnd; omega)).bind ?_
    refine text.attempt.bind ?_
    refine (yields_padded_name tree.name short).bind ?_
    refine (yields_add (tree.handle.offset + 4) (mask4 (tree.name.length + 1 + 3)) (by unfold wordEnd; omega)).bind ?_
    refine (yields_struct_end sound).bind ?_
    rw [← inner_eq]
    refine (yields_loop goes).bind ?_
    exact starts.bind ((yields_loop each).bind (yields_pure _))
  · rw [Tree.nodes_eq]
    constructor
    · rw [List.map_cons, ← others.labels]
      exact congrArg (tree.label :: ·) (labels_prop_lines _ shown below)
    · rw [List.map_cons, ← others.sections, ← own, ← same]
      change names (propLines _ shown ++ below) :: sections (propLines _ shown ++ below) = _
      rw [names_prop_lines _ shown below others.clean, sections_prop_lines]
    · rfl

-- The nodes to visit, and all that following children from them visits, in
-- document order.
inductive Fdtr.Visits (fdt : Fdtr) (mem : Nat → UInt8) : List Node → List Node → Prop
  | done : Visits fdt mem [] []
  | visit (node : Node) (kids rest order : List Node)
      (children : Yields mem (fdt.children node >>= fdt.exhaust) (.value kids))
      (more : Visits fdt mem (kids ++ rest) order) : Visits fdt mem (node :: rest) (node :: order)

theorem visits_nodes (sound : fdt.Sound) : ∀ tree, Lies fdt mem tree → ∀ rest order, fdt.Visits mem rest order →
    fdt.Visits mem (tree.handle :: rest) (tree.nodes.map Tree.handle ++ order) := by
  refine Tree.child_induction fun tree ih lies rest order goes => ?_
  obtain ⟨iter, starts, lists⟩ := yields_children sound tree lies
  have below : ∀ children : List Tree, (∀ child ∈ children, child ∈ tree.children) →
      fdt.Visits mem (children.map Tree.handle ++ rest) ((Tree.nodesOf children).map Tree.handle ++ order) := by
    intro children
    induction children with
    | nil => exact fun _ => goes
    | cons child others onward =>
        intro all
        have member := all child List.mem_cons_self
        have later := onward fun other inside => all other (List.mem_cons_of_mem child inside)
        rw [Tree.nodesOf, List.map_append, List.append_assoc]
        exact ih child member (children_lie tree lies child member) _ _ later
  rw [Tree.nodes_eq, List.map_cons, List.cons_append]
  exact .visit tree.handle (tree.children.map Tree.handle) rest _ (starts.bind (yields_exhaust lists))
    (below tree.children fun _ member => member)

theorem mem_printed {parts : List Tree} {lines : List Fdtr.Line} (prints : fdt.Prints mem parts lines) (node : Node)
    (name : List UInt8) : (node, name) ∈ printed (parts.map Tree.handle) lines ↔
      ∃ part ∈ parts, part.handle = node ∧ ∃ q ∈ fdt.leading mem part.inner part.props, q.name = name := by
  unfold printed
  rw [prints.sections, List.zip_map', List.mem_flatMap]
  constructor
  · rintro ⟨at_, member, inside⟩
    obtain ⟨part, here, rfl⟩ := List.mem_map.mp member
    obtain ⟨name', printed_, same⟩ := List.mem_map.mp inside
    obtain ⟨q, leads, rfl⟩ := List.mem_map.mp printed_
    cases same
    exact ⟨part, here, rfl, q, leads, rfl⟩
  · rintro ⟨part, here, rfl, q, leads, rfl⟩
    exact ⟨_, List.mem_map_of_mem here, List.mem_map_of_mem (List.mem_map_of_mem leads)⟩

theorem prop_found_iff (sound : fdt.Sound) (tree : Tree) (lies : Lies fdt mem tree) (name : List UInt8) :
    Returns mem (fdt.prop tree.handle name) ↔ ∃ p ∈ tree.props, p.name = name := by
  have looked := yields_prop sound tree lies name
  unfold Tree.firstProp at looked
  cases found : tree.props.find? fun p => decide (p.name = name) with
  | none =>
      rw [found] at looked
      refine ⟨fun ⟨value, returned⟩ => ?_, fun ⟨p, member, named⟩ => ?_⟩
      · have no := looked.unique returned
        cases no
      · exact absurd (decide_eq_true named) (List.find?_eq_none.mp found p member)
  | some p =>
      rw [found] at looked
      have named : p.name = name := by simpa using List.find?_some found
      refine ⟨fun _ => ⟨p, List.mem_of_find?_eq_some found, named⟩, fun _ => ?_⟩
      exact ⟨p.value, looked⟩

theorem leading_mem (off : Nat) (props : List Property) (p : Property) (leads : p ∈ fdt.leading mem off props) :
    p ∈ props := by
  induction props generalizing off with
  | nil => exact leads
  | cons q rest ih =>
      unfold Fdtr.leading at leads
      split_ifs at leads
      · rcases List.mem_cons.mp leads with rfl | later
        · exact List.mem_cons_self
        · exact List.mem_cons_of_mem q (ih _ later)
      · exact absurd leads List.not_mem_nil

-- The nodes are dumped in document order, each once and under its name.
structure Fdtr.DumpLists (fdt : Fdtr) (mem : Nat → UInt8) (nodes : List Node) (lines : List Fdtr.Line) : Prop where
  dumped : Yields mem fdt.dump (.value (some lines))
  visited : ∃ root, Yields mem fdt.root (.value root) ∧ fdt.Visits mem [root] nodes
  once : nodes.Nodup
  named : List.Forall₂ (fun node label => ∃ name, Yields mem (fdt.fullName node) (.value name) ∧
    label = if name = [] then [Fdtr.slash] else name) nodes (labels lines)

-- Of each node the names are dumped that prop finds.
def Fdtr.DumpAgrees (fdt : Fdtr) (mem : Nat → UInt8) (nodes : List Node) (lines : List Fdtr.Line) : Prop :=
  ∀ node name, (node, name) ∈ printed nodes lines ↔ node ∈ nodes ∧ Returns mem (fdt.prop node name)

section
variable {dtbPa : Nat} {tree : Tree} {entries : List ReserveEntry} (encodes : Encodes fdt mem dtbPa tree entries)
include encodes

theorem all_lie (part : Tree) (member : part ∈ tree.nodes) : Lies fdt mem part :=
  part_lies part tree ((Tree.mem_nodes part tree).mp member) (encodes_lies encodes)

theorem dump_lists : ∃ lines, fdt.Prints mem tree.nodes lines ∧ fdt.DumpLists mem (tree.nodes.map Tree.handle) lines := by
  have sound := encodes_sound encodes
  have lies := encodes_lies encodes
  obtain ⟨lines, dumps, prints⟩ := dump_node_prints sound tree lies 0 0 (Nat.zero_le _)
  refine ⟨lines, prints, ⟨?_, ?_, ?_, ?_⟩⟩
  · exact (encodes_root encodes).attempt.bind (Yields.bind dumps (yields_pure _))
  · have visits := visits_nodes sound tree lies [] [] .done
    rw [List.append_nil] at visits
    exact ⟨tree.handle, encodes_root encodes, visits⟩
  · have apart : (tree.nodes.map fun part => part.handle.offset).Nodup :=
      (handles_apart tree lies).imp fun less => Nat.ne_of_lt less
    exact List.Nodup.of_map Node.offset (by rwa [List.map_map])
  · rw [prints.labels, List.forall₂_map_left_iff, List.forall₂_map_right_iff]
    exact List.forall₂_same.mpr fun part member =>
      ⟨part.name, yields_full_name sound part (all_lie encodes part member), rfl⟩

theorem agrees_iff {lines : List Fdtr.Line} (prints : fdt.Prints mem tree.nodes lines) :
    fdt.DumpAgrees mem (tree.nodes.map Tree.handle) lines ↔
      ∀ part, Tree.Part part tree → fdt.NopsHideNothing mem part := by
  have found := fun part member => prop_found_iff (encodes_sound encodes) part (all_lie encodes part member)
  constructor
  · intro agrees part inside p member
    have here := (Tree.mem_nodes part tree).mpr inside
    have returned := (found part here p.name).mpr ⟨p, member, rfl⟩
    obtain ⟨other, there, same, shown⟩ := (mem_printed prints part.handle p.name).mp
      ((agrees part.handle p.name).mpr ⟨List.mem_map_of_mem here, returned⟩)
    exact handle_injective tree (encodes_lies encodes) there here same ▸ shown
  · intro hides node name
    rw [mem_printed prints]
    constructor
    · rintro ⟨part, here, rfl, q, leads, rfl⟩
      exact ⟨List.mem_map_of_mem here, (found part here q.name).mpr ⟨q, leading_mem _ _ q leads, rfl⟩⟩
    · rintro ⟨member, returned⟩
      obtain ⟨part, here, rfl⟩ := List.mem_map.mp member
      obtain ⟨p, among, rfl⟩ := (found part here name).mp returned
      exact ⟨part, here, rfl, hides part ((Tree.mem_nodes part tree).mp here) p among⟩

end

end

-- The dump agrees with the lookups exactly when no NOP hides a name from it.
theorem dump_agrees_iff (fdt : Fdtr) (mem : Nat → UInt8) (dtbPa : Nat) (tree : Tree) (entries : List ReserveEntry)
    (encodes : Encodes fdt mem dtbPa tree entries) :
    ∃ nodes lines, fdt.DumpLists mem nodes lines ∧
      (fdt.DumpAgrees mem nodes lines ↔ ∀ part, Tree.Part part tree → fdt.NopsHideNothing mem part) := by
  obtain ⟨lines, prints, lists⟩ := dump_lists encodes
  exact ⟨tree.nodes.map Tree.handle, lines, lists, agrees_iff encodes prints⟩

instance (fdt : Fdtr) (mem : Nat → UInt8) (tree : Tree) : Decidable (fdt.NopsHideNothing mem tree) :=
  inferInstanceAs (Decidable (∀ p ∈ tree.props, ∃ q ∈ fdt.leading mem tree.inner tree.props, q.name = p.name))

theorem dump_agrees_sample : ∃ nodes lines, aicFdt.DumpLists (memoryAt 0x40000000 aicBlob) nodes lines ∧
    aicFdt.DumpAgrees (memoryAt 0x40000000 aicBlob) nodes lines := by
  obtain ⟨nodes, lines, lists, agrees⟩ := dump_agrees_iff aicFdt (memoryAt 0x40000000 aicBlob) 0x40000000 aicTree []
    aic_encodes
  refine ⟨nodes, lines, lists, agrees.mpr fun part inside => ?_⟩
  have root : part = aicTree := List.mem_singleton.mp ((Tree.mem_nodes part aicTree).mpr inside)
  rw [root]
  decide +kernel

-- The root's property lies behind a NOP.
theorem dump_loses_property : ∃ nodes lines, sampleFdt.DumpLists (memoryAt 0x40000000 sampleBlob) nodes lines ∧
    ¬ sampleFdt.DumpAgrees (memoryAt 0x40000000 sampleBlob) nodes lines := by
  obtain ⟨lines, prints, lists⟩ := dump_lists sample_encodes
  refine ⟨_, lines, lists, fun agrees => ?_⟩
  have hides := (agrees_iff sample_encodes prints).mp agrees sampleTree (.self sampleTree)
  revert hides
  decide +kernel

end Fdt

end Opal
