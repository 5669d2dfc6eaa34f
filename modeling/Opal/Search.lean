import Opal.RoundTrip
import Mathlib.Data.List.Nodup

set_option autoImplicit false

namespace Opal

open Reading

namespace Fdt

-- The strings packed in the compatible property.
def Tree.entries (tree : Tree) : List (List UInt8) :=
  match tree.firstProp Fdtr.compatibleName with
  | none => []
  | some data => data.splitOn 0

def Tree.compatibleWith (s : List UInt8) (tree : Tree) : Bool := tree.entries.any fun entry => Fdtr.containsStr entry s

-- What is compared with the string: the first entry, or nothing where that is
-- not UTF-8.
def Tree.compared (tree : Tree) : List UInt8 :=
  match tree.firstProp Fdtr.compatibleName with
  | none => []
  | some data => if utf8 (data.takeWhile (· ≠ 0)) then data.takeWhile (· ≠ 0) else []

def Tree.hit (s : List UInt8) (tree : Tree) : Bool := Fdtr.containsStr tree.compared s

section
variable {fdt : Fdtr} {mem : Nat → UInt8}

theorem nodes_ascend {off stop : Nat} {props : List Property} {children : List Tree}
    (body : fdt.Body mem off props children stop) :
    ((Tree.nodesOf children).map fun part => part.handle.offset).Pairwise (· < ·) ∧
      ∀ part ∈ Tree.nodesOf children, off ≤ part.handle.offset ∧ part.handle.offset < stop := by
  induction body with
  | close off _ => exact ⟨.nil, fun _ no => absurd no List.not_mem_nil⟩
  | nop off _ _ _ _ _ ih =>
      refine ⟨ih.1, fun part member => ?_⟩
      obtain ⟨low, high⟩ := ih.2 part member
      exact ⟨by omega, high⟩
  | prop off next p _ _ _ gives _ ih =>
      have next_eq := gives.next
      refine ⟨ih.1, fun part member => ?_⟩
      obtain ⟨low, high⟩ := ih.2 part member
      exact ⟨by omega, high⟩
  | child off inner name props kids after children stop opens within rest below_ beside =>
      have inner_eq := opens.next
      have first := body_le within
      have later := body_le rest
      have split : Tree.nodesOf (.node off name props kids :: children) =
          .node off name props kids :: (Tree.nodesOf kids ++ Tree.nodesOf children) := rfl
      have kid : ∀ part ∈ Tree.nodesOf kids, off < part.handle.offset ∧ part.handle.offset < after := fun part member => by
        obtain ⟨low, high⟩ := below_.2 part member
        exact ⟨by omega, high⟩
      have other : ∀ part ∈ Tree.nodesOf children, after ≤ part.handle.offset ∧ part.handle.offset < stop := beside.2
      rw [split]
      constructor
      · rw [List.map_cons, List.map_append, List.pairwise_cons, List.pairwise_append]
        refine ⟨fun offset member => ?_, below_.1, beside.1, fun a inKids b inRest => ?_⟩
        · change off < offset
          rcases List.mem_append.mp member with inKids | inRest
          · obtain ⟨part, here, rfl⟩ := List.mem_map.mp inKids
            exact (kid part here).1
          · obtain ⟨part, here, rfl⟩ := List.mem_map.mp inRest
            have low := (other part here).1
            omega
        · obtain ⟨part, here, rfl⟩ := List.mem_map.mp inKids
          obtain ⟨part', there, rfl⟩ := List.mem_map.mp inRest
          exact Nat.lt_of_lt_of_le (kid part here).2 (other part' there).1
      · intro part member
        rcases List.mem_cons.mp member with rfl | deeper
        · change off ≤ off ∧ off < stop
          omega
        · rcases List.mem_append.mp deeper with inKids | inRest
          · obtain ⟨low, high⟩ := kid part inKids
            exact ⟨by omega, by omega⟩
          · obtain ⟨low, high⟩ := other part inRest
            exact ⟨by omega, high⟩

theorem handles_apart (tree : Tree) (lies : Lies fdt mem tree) :
    (tree.nodes.map fun part => part.handle.offset).Pairwise (· < ·) := by
  obtain ⟨inner, stop, opens, body, _⟩ := lies
  have inner_eq := opens.next
  obtain ⟨ascends, above⟩ := nodes_ascend body
  rw [Tree.nodes_eq, List.map_cons, List.pairwise_cons]
  refine ⟨fun offset member => ?_, ascends⟩
  obtain ⟨part, here, rfl⟩ := List.mem_map.mp member
  have low := (above part here).1
  omega

theorem handle_injective (tree : Tree) (lies : Lies fdt mem tree) {a b : Tree} (left : a ∈ tree.nodes)
    (right : b ∈ tree.nodes) (same : a.handle = b.handle) : a = b := by
  have differ : (tree.nodes.map fun part => part.handle.offset).Nodup :=
    (handles_apart tree lies).imp fun less => Nat.ne_of_lt less
  exact List.inj_on_of_nodup_map differ left right (congrArg Node.offset same)

section
variable (sound : fdt.Sound) (tree : Tree) (lies : Lies fdt mem tree)
include sound lies

theorem yields_compatible : Yields mem (fdt.compatible tree.handle) (.value tree.compared) := by
  have looked := yields_prop sound tree lies Fdtr.compatibleName
  unfold Fdtr.compatible Tree.compared
  cases found : tree.firstProp Fdtr.compatibleName with
  | none =>
      rw [found] at looked
      exact looked.attempt_missing.bind (yields_pure _)
  | some data =>
      rw [found] at looked
      refine Yields.bind looked.attempt ?_
      have bare : data.takeWhile (· ≠ 0) = data.take (data.findIdx (· = 0)) := by
        rw [List.takeWhile_eq_take_findIdx_not]
        simp
      dsimp only
      cases nul : data.findIdx? (· = 0) with
      | none =>
          have beyond := List.findIdx?_eq_none_iff_findIdx_eq.mp nul
          rw [bare, beyond, List.take_length]
          exact yields_pure _
      | some stop =>
          obtain ⟨inside, here⟩ := List.findIdx?_eq_some_iff_findIdx_eq.mp nul
          have sliced : Yields mem (slice data 0 stop) (.value ((data.take stop).drop 0)) :=
            yields_slice data 0 stop (Nat.zero_le _) (Nat.le_of_lt inside)
          rw [List.drop_zero] at sliced
          rw [bare, here]
          exact sliced.bind (yields_pure _)

omit sound lies in
theorem found_cons (s : List UInt8) : tree.nodes.find? (Tree.hit s) =
    if Tree.hit s tree then some tree else (Tree.nodesOf tree.children).find? (Tree.hit s) := by
  rw [Tree.nodes_eq, List.find?_cons]
  cases Tree.hit s tree <;> rfl

end

theorem search_local (s : List UInt8) (node : Node) : Local fun call => fdt.searchCall s call node := by
  refine local_bind (local_const _) fun text => ?_
  by_cases here : Fdtr.containsStr text s
  · simp only [here, if_true]
    exact local_const _
  · simp only [here]
    refine local_bind (local_const _) fun iter => local_loop (fun at_ => ?_) _
    refine local_bind (local_const _) fun found => ?_
    cases found with
    | none => exact local_const _
    | some pair =>
        refine local_bind (local_bind (local_call pair.1) fun found => ?_) fun round => local_const _
        cases found <;> exact local_const _

theorem search_unrolls (s : List UInt8) (call : Node → Reading (Option Node)) (children : List Tree) (iter : NodeIter)
    (lists : Enumerates fdt mem iter (children.map Tree.handle))
    (calls : ∀ child ∈ children, Yields mem (call child.handle) (.value ((child.nodes.find? (Tree.hit s)).map Tree.handle))) :
    Unrolls mem (fdt.eachRound (Fdtr.searchRound call) fun _ => none) (iter, ())
      (.value (((Tree.nodesOf children).find? (Tree.hit s)).map Tree.handle)) := by
  induction children generalizing iter with
  | nil =>
      cases lists with
      | nil _ ends => exact .done _ _ (each_round_last _ _ () ends)
  | cons child rest ih =>
      cases lists with
      | cons _ after _ _ first later =>
          have called := calls child List.mem_cons_self
          have onward := ih after later fun other member => calls other (List.mem_cons_of_mem child member)
          rw [Tree.nodesOf, List.find?_append]
          cases found : child.nodes.find? (Tree.hit s) with
          | some part =>
              rw [found] at called
              have looked : Yields mem (Fdtr.searchRound call child.handle ()) (.value (.done (some part.handle))) :=
                called.bind (yields_pure _)
              exact .done _ _ (each_round_done _ _ () first looked)
          | none =>
              rw [found] at called
              have looked : Yields mem (Fdtr.searchRound call child.handle ()) (.value (.again ())) :=
                called.bind (yields_pure _)
              rw [Option.none_or]
              exact .again _ _ _ (each_round_again _ _ () first looked) onward

theorem yields_search (sound : fdt.Sound) (s : List UInt8) : ∀ tree, Lies fdt mem tree → ∀ depth,
    Yields mem (descent (fdt.searchCall s) depth tree.handle)
      (.value ((tree.nodes.find? (Tree.hit s)).map Tree.handle)) := by
  refine Tree.child_induction fun tree ih lies depth => yields_deeper (search_local s) depth tree.handle ?_
  refine (yields_compatible sound tree lies).bind ?_
  rw [found_cons]
  by_cases here : Tree.hit s tree
  · rw [if_pos here]
    change Yields mem (if Tree.hit s tree then _ else _) _
    rw [if_pos here]
    exact yields_pure _
  · rw [if_neg here]
    change Yields mem (if Tree.hit s tree then _ else _) _
    rw [if_neg here]
    obtain ⟨iter, starts, lists⟩ := yields_children sound tree lies
    refine starts.bind (yields_loop ?_)
    exact search_unrolls s _ tree.children iter lists fun child member =>
      ih child member (children_lie tree lies child member) (depth + 1)

-- The node found is the first whose compared entry contains the string.
theorem yields_find_by_compatible {dtbPa : Nat} {tree : Tree} {entries : List ReserveEntry}
    (encodes : Encodes fdt mem dtbPa tree entries) (s : List UInt8) :
    Yields mem (fdt.findByCompatible s) (orMissing ((tree.nodes.find? (Tree.hit s)).map Tree.handle)) := by
  have sound := encodes_sound encodes
  have lies := encodes_lies encodes
  have found := yields_search sound s tree lies 0
  refine (encodes_root encodes).bind ?_
  cases same : tree.nodes.find? (Tree.hit s) with
  | none =>
      rw [same] at found
      exact Yields.bind found yields_missing
  | some part =>
      rw [same] at found
      exact Yields.bind found (yields_pure _)

end

theorem contains_nil (s : List UInt8) (nonempty : s ≠ []) : Fdtr.containsStr [] s = false := by
  unfold Fdtr.containsStr
  rw [decide_eq_false_iff_not, List.infix_nil]
  exact nonempty

theorem split_head (data : List UInt8) : (data.splitOn 0).head? = some (data.takeWhile (· ≠ 0)) := by
  induction data with
  | nil => rfl
  | cons byte rest ih =>
      by_cases nul : byte = 0
      · simp [List.splitOn, List.splitOnP_cons_eq_if_modifyHead, nul]
      · rw [List.takeWhile_cons_of_pos (by simpa using nul)]
        simp only [List.splitOn, List.splitOnP_cons_eq_if_modifyHead, beq_iff_eq, nul, if_false, List.head?_modifyHead] at ih ⊢
        rw [ih]
        rfl

theorem hit_iff (s : List UInt8) (nonempty : s ≠ []) (tree : Tree) : Tree.hit s tree ↔
    ∃ first, tree.entries.head? = some first ∧ utf8 first ∧ Fdtr.containsStr first s := by
  unfold Tree.hit Tree.compared Tree.entries
  cases tree.firstProp Fdtr.compatibleName with
  | none => simp [contains_nil s nonempty]
  | some data =>
      dsimp only
      rw [split_head]
      generalize data.takeWhile (· ≠ 0) = first
      by_cases valid : utf8 first
      · simp [valid]
      · simp [valid, contains_nil s nonempty]

theorem hit_compatible (s : List UInt8) (nonempty : s ≠ []) (tree : Tree) (hit : Tree.hit s tree) :
    tree.compatibleWith s := by
  obtain ⟨first, head, _, contains⟩ := (hit_iff s nonempty tree).mp hit
  exact List.any_eq_true.mpr ⟨first, List.mem_of_mem_head? head, contains⟩

-- The two searches of a list agree if the weaker test's first find also passes
-- the stronger one.
theorem find_agrees {α : Type} {p q : α → Bool} (l : List α) (stronger : ∀ a, p a → q a)
    (first : ∀ a, l.find? q = some a → p a) : l.find? p = l.find? q := by
  induction l with
  | nil => rfl
  | cons a rest ih =>
      cases weak : q a with
      | true =>
          rw [List.find?_cons_of_pos weak] at first ⊢
          rw [List.find?_cons_of_pos (first a rfl)]
      | false =>
          have strong : ¬ p a := fun hit => by simp [stronger a hit] at weak
          have wrong : ¬ q a := by simp [weak]
          rw [List.find?_cons_of_neg wrong] at first ⊢
          rw [List.find?_cons_of_neg strong]
          exact ih first

-- In the blob of any devicetree the search gives the first node in document
-- order that has an entry with the string, exactly when the first entry of that
-- node contains it, or no node has one.
theorem find_by_compatible_iff (fdt : Fdtr) (mem : Nat → UInt8) (dtbPa : Nat) (tree : Tree) (entries : List ReserveEntry)
    (encodes : Encodes fdt mem dtbPa tree entries) (s : List UInt8) (nonempty : s ≠ []) :
    Yields mem (fdt.findByCompatible s) (orMissing ((tree.nodes.find? (Tree.compatibleWith s)).map Tree.handle)) ↔
      ∀ node, tree.nodes.find? (Tree.compatibleWith s) = some node →
        ∃ first, node.entries.head? = some first ∧ utf8 first ∧ Fdtr.containsStr first s := by
  have searched := yields_find_by_compatible encodes s
  constructor
  · intro complete node found
    have same := searched.unique complete
    have inside := List.mem_of_find?_eq_some found
    rw [found] at same
    rw [← hit_iff s nonempty]
    cases looked : tree.nodes.find? (Tree.hit s) with
    | none =>
        rw [looked] at same
        cases same
    | some part =>
        rw [looked] at same
        have equal : part.handle = node.handle := Result.value.inj same
        have one := handle_injective tree (encodes_lies encodes) (List.mem_of_find?_eq_some looked) inside equal
        exact one ▸ List.find?_some looked
  · intro first
    rw [← find_agrees tree.nodes (hit_compatible s nonempty) fun node found => (hit_iff s nonempty node).mpr (first node found)]
    exact searched

-- "apple,t8103-aic" and "apple,aic", as a SoC's interrupt controller has them.
def aicSpecific : List UInt8 := [0x61, 0x70, 0x70, 0x6c, 0x65, 0x2c, 0x74, 0x38, 0x31, 0x30, 0x33, 0x2d, 0x61, 0x69, 0x63]

def aicGeneric : List UInt8 := [0x61, 0x70, 0x70, 0x6c, 0x65, 0x2c, 0x61, 0x69, 0x63]

def aicProperty : Property := ⟨Fdtr.compatibleName, aicSpecific ++ [0] ++ aicGeneric ++ [0]⟩

def aicBlob : List UInt8 :=
  [fdtMagic, 123, 56, 112, 40, 17, 16, 0, 11, 56].flatMap be32 ++ be64 0 ++ be64 0 ++ be32 fdtBeginNode ++ [0, 0, 0, 0] ++
    be32 fdtProp ++ be32 26 ++ be32 0 ++ aicProperty.value ++ [0, 0] ++ be32 fdtEndNode ++ be32 fdtEnd ++
      Fdtr.compatibleName ++ [0]

def aicFdt : Fdtr := ⟨0xFFFF000040000000, ⟨fdtMagic, 123, 56, 112, 40, 17, 16, 0, 11, 56⟩⟩

def aicTree : Tree := .node 56 [] [aicProperty] []

theorem aic_encodes : Encodes aicFdt (memoryAt 0x40000000 aicBlob) 0x40000000 aicTree [] where
  base := rfl
  allocated := by decide
  words := by decide
  magic := rfl
  header := by decide +kernel
  pastHeader := by decide
  root := rfl
  tree := by
    have opens : aicFdt.Opens (memoryAt 0x40000000 aicBlob) 56 [] 64 :=
      ⟨⟨by decide, by decide⟩, by decide +kernel, by decide⟩
    have gives : aicFdt.Gives (memoryAt 0x40000000 aicBlob) 64 aicProperty 104 :=
      ⟨⟨by decide, by decide⟩, by decide, ⟨0, by decide, by decide +kernel, by decide +kernel, by decide⟩, by decide⟩
    refine ⟨64, 108, opens, ?_, by decide +kernel, by decide⟩
    exact .prop 64 104 _ _ _ _ gives (.close 104 (by decide +kernel))
  structEnd := by decide
  stringsEnd := by decide
  reserveMap := by decide +kernel
  reserveEnd := by decide
  entries := by decide

theorem generic_name_missed : ¬ Yields (memoryAt 0x40000000 aicBlob) (aicFdt.findByCompatible aicGeneric)
    (orMissing ((aicTree.nodes.find? (Tree.compatibleWith aicGeneric)).map Tree.handle)) := by
  intro complete
  have found : aicTree.nodes.find? (Tree.hit aicGeneric) = none := by decide +kernel
  have expected : (aicTree.nodes.find? (Tree.compatibleWith aicGeneric)).map Tree.handle = some ⟨56⟩ := by decide +kernel
  have same := (yields_find_by_compatible aic_encodes aicGeneric).unique complete
  rw [found, expected] at same
  cases same

theorem specific_name_found : Yields (memoryAt 0x40000000 aicBlob) (aicFdt.findByCompatible aicSpecific)
    (orMissing ((aicTree.nodes.find? (Tree.compatibleWith aicSpecific)).map Tree.handle)) :=
  (find_by_compatible_iff aicFdt (memoryAt 0x40000000 aicBlob) 0x40000000 aicTree [] aic_encodes aicSpecific
    (by decide)).mpr fun node found => by
      have root : node = aicTree := List.mem_singleton.mp (List.mem_of_find?_eq_some found)
      exact ⟨aicSpecific, root ▸ by decide +kernel, by decide +kernel, by decide +kernel⟩

end Fdt

end Opal
