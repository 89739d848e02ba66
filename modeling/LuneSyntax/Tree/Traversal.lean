import LuneSyntax.Tree.Basic

/-!
# Traversal

A visitor walks over trees and records the nodes whose form it selects by name. Below a selected
node it goes on only if it descends; below every other node it always goes on. Nodes are met in
pre-order, children from left to right.
-/

set_option autoImplicit false

namespace LuneSyntax

/-- Which forms a visitor records, and whether it goes on below a recorded node. -/
structure Visitor where
  labels : List String
  descends : Bool
  deriving DecidableEq, Repr

namespace Visitor

def selects (visitor : Visitor) (node : Node) : Bool :=
  visitor.labels.contains node.label

/-- Visits a node, given the walk over its children. A selected node is recorded, and the result is
the number of nodes recorded by then. Any other node has no result. -/
def dispatch (visitor : Visitor) (node : Node) (walk : List Node → List Node)
    (recorded : List Node) : Option Nat × List Node :=
  if visitor.selects node then
    let reached :=
      if visitor.descends then walk (recorded ++ [node]) else recorded ++ [node]
    (some reached.length, reached)
  else (none, walk recorded)

def visitExpr (visitor : Visitor) : Expr → List Node → Option Nat × List Node
  | .unary operator operand =>
    visitor.dispatch (.expression (.unary operator operand)) fun recorded =>
      (visitor.visitExpr operand recorded).2
  | .binary left operator right =>
    visitor.dispatch (.expression (.binary left operator right)) fun recorded =>
      (visitor.visitExpr right (visitor.visitExpr left recorded).2).2
  | .integer value => visitor.dispatch (.expression (.integer value)) id
  | .string value => visitor.dispatch (.expression (.string value)) id
  | .bare => visitor.dispatch (.expression .bare) id

def visitName (visitor : Visitor) (text : String) : List Node → Option Nat × List Node :=
  visitor.dispatch (.name text) id

def visitStmt (visitor : Visitor) : Stmt → List Node → Option Nat × List Node
  | .expression expr =>
    visitor.dispatch (.statement (.expression expr)) fun recorded =>
      (visitor.visitExpr expr recorded).2
  | .declaration name type initializer =>
    visitor.dispatch (.statement (.declaration name type initializer)) fun recorded =>
      (visitor.visitExpr initializer (visitor.visitName name recorded).2).2
  | .assignment target value =>
    visitor.dispatch (.statement (.assignment target value)) fun recorded =>
      (visitor.visitExpr value (visitor.visitName target recorded).2).2
  | .bare => visitor.dispatch (.statement .bare) id

/-- The result of visiting a tree after some nodes have been recorded, and the nodes recorded then,
in the order in which they are met. -/
def visit (visitor : Visitor) : Node → List Node → Option Nat × List Node
  | .name text => visitor.visitName text
  | .expression expr => visitor.visitExpr expr
  | .statement stmt => visitor.visitStmt stmt
  | .bare => visitor.dispatch .bare id

/-- Visits trees one after the other. -/
def run (visitor : Visitor) : List Node → List Node → List (Option Nat) × List Node
  | [], recorded => ([], recorded)
  | node :: nodes, recorded =>
    let visited := visitor.visit node recorded
    let others := visitor.run nodes visited.2
    (visited.1 :: others.1, others.2)

/-- The nodes recorded in some trees. -/
def visitAll (visitor : Visitor) (nodes : List Node) : List Node :=
  (visitor.run nodes []).2

/-- For each tree the result of its visit. -/
def totals (visitor : Visitor) (nodes : List Node) : List (Option Nat) :=
  (visitor.run nodes []).1

end Visitor

end LuneSyntax
