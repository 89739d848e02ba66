import LuneSyntax.Tree.Traversal

/-!
# What a visitor records

Every occurrence of a part in trees has an address: the number of the tree, and then the numbers of
the fields that lead to it. Trees are in pre-order if their addresses are in the order of a
dictionary. A visitor records the nodes that it selects in this order, each occurrence once.
-/

set_option autoImplicit false

namespace LuneSyntax

/-! ## Addresses -/

/-- What a field of a node holds. -/
inductive Part where
  | node (node : Node)
  | token (token : Token)
  | type (type : PrimitiveType)
  | number (value : Int)
  | text (value : String)
  deriving DecidableEq, Repr

def Expr.fields : Expr → List Part
  | .integer value => [.number value]
  | .string value => [.text value]
  | .unary operator operand => [.token operator, .node (.expression operand)]
  | .binary left operator right =>
    [.node (.expression left), .token operator, .node (.expression right)]
  | .bare => []

def Stmt.fields : Stmt → List Part
  | .expression expr => [.node (.expression expr)]
  | .declaration name type initializer =>
    [.node (.name name), .type type, .node (.expression initializer)]
  | .assignment target value => [.node (.name target), .node (.expression value)]
  | .bare => []

def Node.fields : Node → List Part
  | .name text => [.text text]
  | .expression expr => expr.fields
  | .statement stmt => stmt.fields
  | .bare => []

/-- The nodes without content, whose forms the other forms of nodes belong to. -/
def Node.bases : List Node := [.bare, .expression .bare, .statement .bare]

theorem Node.mem_bases_of_label {node : Node} (named : node.label ∈ Node.bases.map Node.label) :
    node ∈ Node.bases := by
  cases node with
  | name text => simp [bases, label, Expr.label, Stmt.label] at named
  | expression expr =>
      cases expr with
      | bare => simp [bases]
      | _ => simp [bases, label, Expr.label, Stmt.label] at named
  | statement stmt =>
      cases stmt with
      | bare => simp [bases]
      | _ => simp [bases, label, Expr.label, Stmt.label] at named
  | bare => simp [bases]

/-- The fields of a part, of which only a node has any. -/
def Part.fields : Part → List Part
  | .node holder => holder.fields
  | _ => []

/-- The part to which the numbers of fields lead from another one. -/
def Part.below? : Part → List Nat → Option Part
  | part, [] => some part
  | part, index :: address => part.fields[index]?.bind (·.below? address)

/-- The part at an address, whose first number is that of one of the parts. -/
def partAt? (parts : List Part) : List Nat → Option Part
  | [] => none
  | index :: address => parts[index]?.bind (·.below? address)

theorem partAt?_zero (part : Part) (parts : List Part) (address : List Nat) :
    partAt? (part :: parts) (0 :: address) = part.below? address := rfl

theorem partAt?_succ (part : Part) (parts : List Part) (index : Nat) (address : List Nat) :
    partAt? (part :: parts) ((index + 1) :: address) = partAt? parts (index :: address) := rfl

theorem partAt?_nil (address : List Nat) : partAt? [] address = none := by
  cases address <;> rfl

/-! ## Records -/

namespace Visitor

/-- At an address there is a node of a selected form, and the visitor gets there: it goes on below
the nodes that it selects, or none of them is above. -/
structure Meets (visitor : Visitor) (view : List Nat → Option Part) (address : List Nat)
    (node : Node) : Prop where
  found : view address = some (.node node)
  selected : node.label ∈ visitor.labels
  reached : visitor.descends = true ∨ ∀ above ancestor, above <+: address → above ≠ address →
    view above = some (.node ancestor) → ancestor.label ∉ visitor.labels

/-- The entries are the nodes that the visitor meets, each at its address, in pre-order. -/
structure Records (visitor : Visitor) (view : List Nat → Option Part)
    (entries : List (List Nat × Node)) : Prop where
  ordered : entries.Pairwise fun first second => first.1 < second.1
  complete : ∀ address node, (address, node) ∈ entries ↔ visitor.Meets view address node

variable {visitor : Visitor}

theorem selects_iff {node : Node} : visitor.selects node = true ↔ node.label ∈ visitor.labels :=
  List.contains_iff_mem

/-- A step down from where nothing is does not matter to what is met. -/
theorem meets_cons_iff {view below : List Nat → Option Part} {index : Nat} {address : List Nat}
    {node : Node} (nothing : view [] = none) (same : ∀ inner, view (index :: inner) = below inner) :
    visitor.Meets view (index :: address) node ↔ visitor.Meets below address node := by
  constructor
  · intro meets
    refine ⟨(same address).symm.trans meets.found, meets.selected, ?_⟩
    refine meets.reached.imp_right fun free above ancestor before other found => ?_
    exact free (index :: above) ancestor (List.cons_prefix_cons.mpr ⟨rfl, before⟩)
      (fun equal => other (List.cons.inj equal).2) ((same above).trans found)
  · intro meets
    refine ⟨(same address).trans meets.found, meets.selected, ?_⟩
    refine meets.reached.imp_right fun free above ancestor before other found => ?_
    rcases List.prefix_cons_iff.mp before with rfl | ⟨inner, rfl, inside⟩
    · rw [nothing] at found
      cases found
    · exact free inner ancestor inside (fun equal => other (by rw [equal]))
        ((same inner).symm.trans found)

/-- The address of the same part when one more stands in front. -/
def raise : List Nat → List Nat
  | [] => []
  | index :: address => (index + 1) :: address

theorem raise_lt {first second : List Nat} (before : first < second) :
    raise first < raise second := by
  cases before with
  | nil => exact .nil
  | rel less => exact .rel (Nat.succ_lt_succ less)
  | cons rest => exact .cons rest

theorem records_nil : visitor.Records (partAt? []) [] where
  ordered := .nil
  complete := by
    intro address node
    constructor
    · intro member
      cases member
    · intro meets
      have found := meets.found
      rw [partAt?_nil] at found
      cases found

section Entries

variable {part : Part} {parts : List Part} {first others : List (List Nat × Node)}
  {address : List Nat} {node : Node}

theorem mem_map_zero_iff : (address, node) ∈ first.map (Prod.map (0 :: ·) id) ↔
    ∃ inner, address = 0 :: inner ∧ (inner, node) ∈ first := by
  rw [List.mem_map]
  constructor
  · intro mapped
    obtain ⟨⟨inner, found⟩, listed, same⟩ := mapped
    cases same
    exact ⟨inner, rfl, listed⟩
  · intro below
    obtain ⟨inner, rfl, listed⟩ := below
    exact ⟨_, listed, rfl⟩

theorem Records.mem_map_raise_iff (behind : visitor.Records (partAt? parts) others) :
    (address, node) ∈ others.map (Prod.map raise id) ↔
      ∃ index inner, address = (index + 1) :: inner ∧ (index :: inner, node) ∈ others := by
  rw [List.mem_map]
  constructor
  · intro mapped
    obtain ⟨⟨inner, found⟩, listed, same⟩ := mapped
    cases inner with
    | nil => cases ((behind.complete [] found).mp listed).found
    | cons index inner =>
        cases same
        exact ⟨index, inner, rfl, listed⟩
  · intro further
    obtain ⟨index, inner, rfl, listed⟩ := further
    exact ⟨_, listed, rfl⟩

/-- What is met in a part and what is met in those behind it is met in all of them. -/
theorem Records.cons (own : visitor.Records part.below? first)
    (behind : visitor.Records (partAt? parts) others) :
    visitor.Records (partAt? (part :: parts))
      (first.map (Prod.map (0 :: ·) id) ++ others.map (Prod.map raise id)) where
  ordered := by
    rw [List.pairwise_append]
    refine ⟨List.pairwise_map.mpr (own.ordered.imp .cons),
      List.pairwise_map.mpr (behind.ordered.imp raise_lt), ?_⟩
    intro left inFirst right inOthers
    obtain ⟨inner, leftAt, _⟩ := mem_map_zero_iff.mp inFirst
    obtain ⟨index, further, rightAt, _⟩ := behind.mem_map_raise_iff.mp inOthers
    rw [leftAt, rightAt]
    exact .rel (Nat.succ_pos index)
  complete := by
    intro address node
    rw [List.mem_append, mem_map_zero_iff, behind.mem_map_raise_iff]
    -- The first number of an address tells whether it leads to this part or to one behind it.
    rcases address with _ | ⟨_ | index, address⟩
    · constructor
      · simp
      · intro meets
        cases meets.found
    · rw [meets_cons_iff rfl (partAt?_zero part parts), ← own.complete]
      simp
    · have below : visitor.Meets (partAt? parts) (index :: address) node ↔
          visitor.Meets (fun inner => partAt? parts (index :: inner)) address node :=
        meets_cons_iff rfl fun _ => rfl
      rw [meets_cons_iff rfl (partAt?_succ part parts index), ← below, ← behind.complete]
      constructor
      · intro mapped
        rcases mapped with ⟨_, same, _⟩ | ⟨_, _, same, listed⟩
        · cases same
        · cases same
          exact listed
      · intro listed
        exact .inr ⟨index, address, rfl, listed⟩

end Entries

/-! ## Trees -/

/-- What is recorded at a node, given what is recorded below it. -/
def gather (visitor : Visitor) (node : Node) (below : List Node) : List Node :=
  if visitor.selects node then node :: (if visitor.descends then below else []) else below

/-- The nodes recorded in a part and in all that is below it. -/
def visitPart (visitor : Visitor) : Part → List Node
  | .node found => (visitor.visit found []).2
  | _ => []

def visitParts (visitor : Visitor) (parts : List Part) : List Node :=
  parts.flatMap visitor.visitPart

section Walks

variable (visitor : Visitor)

theorem fst_dispatch (node : Node) (walk : List Node → List Node) (recorded : List Node) :
    (visitor.dispatch node walk recorded).1 =
      if node.label ∈ visitor.labels then some (visitor.dispatch node walk recorded).2.length
      else none := by
  unfold dispatch
  by_cases selected : node.label ∈ visitor.labels
  · rw [if_pos selected, if_pos (selects_iff.mpr selected)]
  · rw [if_neg selected, if_neg (mt selects_iff.mp selected)]

/-- If the walk over the children only adds to the record, so does the visit. -/
theorem snd_dispatch (node : Node) {walk : List Node → List Node} {below : List Node}
    (adds : ∀ recorded, walk recorded = recorded ++ below) (recorded : List Node) :
    (visitor.dispatch node walk recorded).2 = recorded ++ visitor.gather node below := by
  unfold dispatch gather
  split
  · split
    · rw [adds, List.append_assoc, List.singleton_append]
    · rfl
  · exact adds recorded

theorem snd_visitExpr (expr : Expr) (recorded : List Node) :
    (visitor.visitExpr expr recorded).2 =
      recorded ++ visitor.gather (.expression expr) (visitor.visitParts expr.fields) := by
  induction expr generalizing recorded with
  | unary operator operand ih =>
      apply snd_dispatch
      intro recorded
      simp [visitParts, Expr.fields, visitPart, visit, ih]
  | binary left operator right leftIH rightIH =>
      apply snd_dispatch
      intro recorded
      simp [visitParts, Expr.fields, visitPart, visit, leftIH, rightIH]
  | _ => exact visitor.snd_dispatch _ (fun recorded => (List.append_nil recorded).symm) recorded

theorem snd_visitName (text : String) (recorded : List Node) :
    (visitor.visitName text recorded).2 =
      recorded ++ visitor.gather (.name text) (visitor.visitParts (Node.name text).fields) :=
  visitor.snd_dispatch _ (fun recorded => (List.append_nil recorded).symm) recorded

theorem snd_visitStmt (stmt : Stmt) (recorded : List Node) :
    (visitor.visitStmt stmt recorded).2 =
      recorded ++ visitor.gather (.statement stmt) (visitor.visitParts stmt.fields) := by
  cases stmt with
  | bare => exact visitor.snd_dispatch _ (fun recorded => (List.append_nil recorded).symm) recorded
  | _ =>
      apply snd_dispatch
      intro recorded
      simp [visitParts, Stmt.fields, visitPart, visit, snd_visitExpr, snd_visitName]

theorem snd_visit (node : Node) (recorded : List Node) :
    (visitor.visit node recorded).2 =
      recorded ++ visitor.gather node (visitor.visitParts node.fields) := by
  cases node with
  | name text => exact snd_visitName visitor text recorded
  | expression expr => exact snd_visitExpr visitor expr recorded
  | statement stmt => exact snd_visitStmt visitor stmt recorded
  | bare => exact visitor.snd_dispatch _ (fun recorded => (List.append_nil recorded).symm) recorded

theorem visitPart_node (node : Node) :
    visitor.visitPart (.node node) = visitor.gather node (visitor.visitParts node.fields) :=
  snd_visit visitor node []

/-- A visit has a result if the node is selected, and then it is the size of the record. -/
theorem fst_visit (node : Node) (recorded : List Node) :
    (visitor.visit node recorded).1 =
      if node.label ∈ visitor.labels then
        some (recorded ++ visitor.visitPart (.node node)).length
      else none := by
  rw [visitPart_node, ← snd_visit]
  cases node with
  | name text => exact fst_dispatch visitor _ _ recorded
  | expression expr => cases expr <;> exact fst_dispatch visitor _ _ recorded
  | statement stmt => cases stmt <;> exact fst_dispatch visitor _ _ recorded
  | bare => exact fst_dispatch visitor _ _ recorded

end Walks

/-- The nodes that are recorded are those that the visitor meets. -/
def Traces (visitor : Visitor) (view : List Nat → Option Part) (recorded : List Node) : Prop :=
  ∃ entries, visitor.Records view entries ∧ recorded = entries.map Prod.snd

theorem Traces.cons {part : Part} {parts : List Part} {first others : List Node}
    (own : visitor.Traces part.below? first) (behind : visitor.Traces (partAt? parts) others) :
    visitor.Traces (partAt? (part :: parts)) (first ++ others) := by
  obtain ⟨entries, ownRecords, rfl⟩ := own
  obtain ⟨otherEntries, otherRecords, rfl⟩ := behind
  exact ⟨_, ownRecords.cons otherRecords, by simp [Function.comp_def]⟩

section Root

variable {found node : Node} {address : List Nat}

theorem below?_of_partAt? {part result : Part} (reached : partAt? part.fields address = some result) :
    part.below? address = some result := by
  cases address with
  | nil => cases reached
  | cons => exact reached

/-- Nothing is recorded of a node that is not selected, and it keeps nothing from being met. -/
theorem meets_below?_of_not_selected (passed : found.label ∉ visitor.labels) :
    visitor.Meets (Part.node found).below? address node ↔
      visitor.Meets (partAt? found.fields) address node := by
  constructor
  · intro meets
    refine ⟨?_, meets.selected, ?_⟩
    · cases address with
      | nil =>
          cases meets.found
          exact absurd meets.selected passed
      | cons => exact meets.found
    · refine meets.reached.imp_right fun free above ancestor before other inside => ?_
      exact free above ancestor before other (below?_of_partAt? inside)
  · intro meets
    refine ⟨below?_of_partAt? meets.found, meets.selected, ?_⟩
    refine meets.reached.imp_right fun free above ancestor before other inside => ?_
    cases above with
    | nil =>
        cases inside
        exact passed
    | cons => exact free _ ancestor before other inside

/-- A selected node is met itself, and below it only a visitor that descends meets anything. -/
theorem meets_below?_of_selected (selected : found.label ∈ visitor.labels) :
    visitor.Meets (Part.node found).below? address node ↔ address = [] ∧ node = found ∨
      visitor.descends = true ∧ visitor.Meets (partAt? found.fields) address node := by
  constructor
  · intro meets
    cases address with
    | nil =>
        cases meets.found
        exact .inl ⟨rfl, rfl⟩
    | cons index address =>
        rcases meets.reached with descends | free
        · exact .inr ⟨descends, meets.found, meets.selected, .inl descends⟩
        · exact absurd selected (free [] found List.nil_prefix (List.cons_ne_nil _ _).symm rfl)
  · intro either
    rcases either with ⟨rfl, rfl⟩ | ⟨descends, meets⟩
    · refine ⟨rfl, selected, .inr ?_⟩
      intro above _ before other
      exact absurd (List.prefix_nil.mp before) other
    · exact ⟨below?_of_partAt? meets.found, meets.selected, .inl descends⟩

end Root

theorem traces_of_selected {found : Node} {inner : List Node}
    (selected : found.label ∈ visitor.labels)
    (inside : visitor.Traces (partAt? found.fields) inner) :
    visitor.Traces (Part.node found).below?
      (found :: if visitor.descends then inner else []) := by
  obtain ⟨entries, records, rfl⟩ := inside
  refine ⟨([], found) :: if visitor.descends then entries else [], ⟨?_, ?_⟩, ?_⟩
  · refine List.pairwise_cons.mpr ⟨?_, ?_⟩
    · intro entry listed
      obtain ⟨address, node⟩ := entry
      have member : (address, node) ∈ entries := by
        split at listed
        · exact listed
        · cases listed
      cases address with
      | nil => cases ((records.complete [] node).mp member).found
      | cons index address => exact List.nil_lt_cons index address
    · split
      · exact records.ordered
      · exact .nil
  · intro address node
    rw [meets_below?_of_selected selected, List.mem_cons, Prod.mk.injEq, ← records.complete]
    cases visitor.descends <;> simp
  · cases visitor.descends <;> rfl

/-- What is recorded from a part on follows from what is recorded in its fields. -/
theorem Traces.below? {part : Part}
    (inside : visitor.Traces (partAt? part.fields) (visitor.visitParts part.fields)) :
    visitor.Traces part.below? (visitor.visitPart part) := by
  cases part with
  | node found =>
      rw [visitPart_node, gather]
      by_cases selected : found.label ∈ visitor.labels
      · rw [if_pos (selects_iff.mpr selected)]
        exact traces_of_selected selected inside
      · rw [if_neg (mt selects_iff.mp selected)]
        obtain ⟨entries, records, recorded⟩ := inside
        refine ⟨entries, ⟨records.ordered, ?_⟩, recorded⟩
        intro address node
        rw [meets_below?_of_not_selected selected]
        exact records.complete address node
  | _ =>
      refine ⟨[], ⟨.nil, ?_⟩, rfl⟩
      intro address node
      constructor
      · intro member
        cases member
      · intro meets
        have found := meets.found
        cases address <;> cases found

/-- What is recorded in parts is what the visitor meets in them. -/
def Covers (visitor : Visitor) (parts : List Part) : Prop :=
  visitor.Traces (partAt? parts) (visitor.visitParts parts)

theorem covers_nil (visitor : Visitor) : visitor.Covers [] :=
  ⟨[], records_nil, rfl⟩

theorem Covers.cons {part : Part} {parts : List Part} (inside : visitor.Covers part.fields)
    (behind : visitor.Covers parts) : visitor.Covers (part :: parts) :=
  inside.below?.cons behind

section Forms

variable (visitor : Visitor)

theorem covers_expr (expr : Expr) : visitor.Covers expr.fields := by
  have leaf := covers_nil visitor
  induction expr with
  | integer value => exact leaf.cons leaf
  | string value => exact leaf.cons leaf
  | unary operator operand inside => exact .cons leaf (.cons inside leaf)
  | binary left operator right insideLeft insideRight =>
      exact .cons insideLeft (.cons leaf (.cons insideRight leaf))
  | bare => exact leaf

theorem covers_name (text : String) : visitor.Covers (Node.name text).fields :=
  (covers_nil visitor).cons (covers_nil visitor)

theorem covers_stmt (stmt : Stmt) : visitor.Covers stmt.fields := by
  have leaf := covers_nil visitor
  cases stmt with
  | expression expr => exact .cons (covers_expr visitor expr) leaf
  | declaration name type initializer =>
      have inside := covers_expr visitor initializer
      exact .cons (covers_name visitor name) (.cons leaf (.cons inside leaf))
  | assignment target value =>
      exact .cons (covers_name visitor target) (.cons (covers_expr visitor value) leaf)
  | bare => exact leaf

theorem covers_node (node : Node) : visitor.Covers node.fields := by
  cases node with
  | name text => exact covers_name visitor text
  | expression expr => exact covers_expr visitor expr
  | statement stmt => exact covers_stmt visitor stmt
  | bare => exact covers_nil visitor

theorem covers_nodes (nodes : List Node) : visitor.Covers (nodes.map .node) := by
  induction nodes with
  | nil => exact covers_nil visitor
  | cons node nodes ih => exact .cons (covers_node visitor node) ih

end Forms

/-! ## Forests -/

section Forests

variable (visitor : Visitor)

theorem snd_run (nodes recorded : List Node) :
    (visitor.run nodes recorded).2 = recorded ++ visitor.visitParts (nodes.map .node) := by
  induction nodes generalizing recorded with
  | nil => exact (List.append_nil recorded).symm
  | cons node nodes ih =>
      rw [run, ih, snd_visit, ← visitPart_node, List.append_assoc]
      rfl

theorem visitAll_eq (nodes : List Node) :
    visitor.visitAll nodes = visitor.visitParts (nodes.map .node) := by
  rw [visitAll, snd_run, List.nil_append]

theorem fst_run (nodes recorded : List Node) :
    (visitor.run nodes recorded).1 = nodes.mapIdx fun index node =>
      if node.label ∈ visitor.labels then
        some (recorded ++ visitor.visitAll (nodes.take (index + 1))).length
      else none := by
  induction nodes generalizing recorded with
  | nil => rfl
  | cons node nodes ih =>
      rw [run, ih, fst_visit, snd_visit, ← visitPart_node, List.mapIdx_cons]
      simp [visitAll_eq, visitParts]

end Forests

/-- A visitor records the nodes of the selected forms in pre-order, each occurrence once and below a
recorded node only if it descends. Where a top node is selected, its result is the number of nodes
recorded up to its tree. The name of a base selects no node with content, and neither tokens nor
types are recorded. -/
theorem exists_records_visitAll (visitor : Visitor) (nodes : List Node) :
    ∃ entries, visitor.Records (partAt? (nodes.map .node)) entries ∧
      visitor.visitAll nodes = entries.map Prod.snd ∧
      (visitor.totals nodes = nodes.mapIdx fun index node =>
        if node.label ∈ visitor.labels then
          some (visitor.visitAll (nodes.take (index + 1))).length
        else none) ∧
      (∀ entry ∈ entries, entry.2.label ∈ Node.bases.map Node.label → entry.2 ∈ Node.bases) ∧
      ∀ entry ∈ entries, ∀ token type, partAt? (nodes.map .node) entry.1 ≠ some (.token token) ∧
        partAt? (nodes.map .node) entry.1 ≠ some (.type type) := by
  obtain ⟨entries, records, recorded⟩ := covers_nodes visitor nodes
  rw [← visitAll_eq] at recorded
  refine ⟨entries, records, recorded, ?_, ?_, ?_⟩
  · exact fst_run visitor nodes []
  · intro entry _ named
    exact Node.mem_bases_of_label named
  · intro entry listed token type
    have found := ((records.complete entry.1 entry.2).mp listed).found
    rw [found]
    simp

/-- Among the operands of a sum, the name of the base for expressions selects only the bare one. -/
theorem exists_records_sum :
    let visitor : Visitor := ⟨["Expr", "BinaryOp", "Token", "Name"], true⟩
    let sum : Expr := .binary (.integer 1) { kind := .plus } .bare
    let nodes : List Node := [.statement (.declaration "n" .integer sum), .expression sum]
    visitor.visitAll nodes = [.name "n", .expression sum, .expression .bare,
        .expression sum, .expression .bare] ∧
      visitor.totals nodes = [none, some 5] ∧
      ∃ entries, visitor.Records (partAt? (nodes.map .node)) entries ∧
        visitor.visitAll nodes = entries.map Prod.snd := by
  intro visitor sum nodes
  obtain ⟨entries, records, recorded, _⟩ := exists_records_visitAll visitor nodes
  exact ⟨by decide, by decide, entries, records, recorded⟩

end Visitor

end LuneSyntax
