import Mathlib.Data.Finset.Dedup
import Wavetable.Formula.Expr

/-!
Nodes as a traversal sees them: with a kind, a label and any number of parts, whether or not these
fit each other. A traversal keeps the nodes that are pending on a stack and so follows a tree of any
depth without nesting. What a formula refers to is gathered from the nodes that it visits.
-/

namespace Wavetable.Formula

/-- What a node is labelled with. A label that is no number, text or operator is known by its text,
if it has one.
-/
inductive Label
  | number (value : Float)
  | text (value : String)
  | unary (op : UnaryOp)
  | binary (op : BinaryOp)
  | other (shown : Option String)
  deriving Repr, DecidableEq

inductive Node
  | mk (kind : String) (label : Label) (parts : List Node)
  deriving Repr

namespace Node

def kind : Node → String
  | .mk kind _ _ => kind

def label : Node → Label
  | .mk _ label _ => label

/-- The direct parts of a node, from left to right. -/
def parts : Node → List Node
  | .mk _ _ parts => parts

section
variable (k : String) (l : Label) (ps : List Node)

@[simp] theorem kind_mk : (mk k l ps).kind = k := rfl

@[simp] theorem label_mk : (mk k l ps).label = l := rfl

@[simp] theorem parts_mk : (mk k l ps).parts = ps := rfl

end

mutual

/-- The number of nodes in a tree. -/
def size : Node → Nat
  | .mk _ _ parts => sizeAll parts + 1

def sizeAll : List Node → Nat
  | [] => 0
  | node :: rest => node.size + sizeAll rest

end

theorem sizeAll_append (left right : List Node)
    : sizeAll (left ++ right) = sizeAll left + sizeAll right := by
  induction left with
  | nil => simp [sizeAll]
  | cons node rest ih => simp [sizeAll, ih, Nat.add_assoc]

theorem sizeAll_reverse (nodes : List Node) : sizeAll nodes.reverse = sizeAll nodes := by
  induction nodes with
  | nil => rfl
  | cons node rest ih => simp [sizeAll_append, sizeAll, ih, Nat.add_comm]

/-- A node is one more than its parts. -/
theorem size_eq (node : Node) : node.size = sizeAll node.parts + 1 := by
  cases node
  rfl

end Node

/-- A traversal under way: the nodes that are pending, the next one last, and those that it has
visited.
-/
structure Traversal where
  pending : List Node
  visited : List Node

namespace Traversal

def start (root : Node) : Traversal :=
  ⟨[root], []⟩

/-- The last of the pending nodes is visited. Its parts take its place, the first of them last. -/
def step? (traversal : Traversal) : Option Traversal :=
  match traversal.pending.getLast? with
  | none => none
  | some node =>
      some ⟨traversal.pending.dropLast ++ node.parts.reverse, traversal.visited ++ [node]⟩

/-- The traversal after a count of steps, or after fewer where nothing is pending any more. -/
def after : Nat → Traversal → Traversal
  | 0, traversal => traversal
  | count + 1, traversal =>
      match traversal.step? with
      | none => traversal
      | some next => next.after count

/-- A step takes a node off the end of the stack. -/
theorem step?_eq_some_iff {traversal next : Traversal}
    : traversal.step? = some next
      ↔ ∃ before node, traversal.pending = before ++ [node]
          ∧ next = ⟨before ++ node.parts.reverse, traversal.visited ++ [node]⟩ := by
  unfold step?
  rcases List.eq_nil_or_concat traversal.pending with none | ⟨before, node, some⟩
  · simp [none]
  · simp [some, eq_comm]

/-- A node that is visited is one less that is pending, in its own tree or another. -/
theorem sizeAll_step? {traversal next : Traversal} (stepped : traversal.step? = some next)
    : Node.sizeAll next.pending + 1 = Node.sizeAll traversal.pending := by
  obtain ⟨before, node, pending, rfl⟩ := step?_eq_some_iff.mp stepped
  simp [pending, Node.sizeAll_append, Node.sizeAll_reverse, Node.sizeAll, Node.size_eq,
    Nat.add_assoc]

/-- The nodes that are visited until none is pending. -/
def run (traversal : Traversal) : List Node :=
  match _ : traversal.step? with
  | none => traversal.visited
  | some next => next.run
termination_by Node.sizeAll traversal.pending
decreasing_by
  have fewer := sizeAll_step? ‹_›
  omega

end Traversal

namespace Node

/-- The nodes of a tree in the order in which a traversal visits them. -/
def walk (root : Node) : List Node :=
  (Traversal.start root).run

/-- The kind of a variable. -/
def variableKind : String := "VAR"

/-- The kind of a call. -/
def callKind : String := "CALL"

/-- The uses of the two frame variables, after one more node is seen. -/
def noteUse (uses : Bool × Bool) (node : Node) : Bool × Bool :=
  if node.kind = variableKind then
    if node.label = .text "y" then (true, uses.2)
    else if node.label = .text "z" then (uses.1, true)
    else uses
  else uses

/-- Whether the frame variables `y` and `z` are used. -/
def analyze (root : Node) : Bool × Bool :=
  root.walk.foldl noteUse (false, false)

/-- The labels of the nodes of a kind. -/
def labelsOf (kind : String) (root : Node) : Finset Label :=
  ((root.walk.filter (·.kind = kind)).map label).toFinset

def variableLabels (root : Node) : Finset Label :=
  root.labelsOf variableKind

def functionLabels (root : Node) : Finset Label :=
  root.labelsOf callKind

end Node

mutual

/-- An expression as a tree of nodes. -/
def Expr.toNode : Expr → Node
  | .number value => .mk "NUM" (.number value) []
  | .var name => .mk Node.variableKind (.text name) []
  | .unary op operand => .mk "UNARY" (.unary op) [operand.toNode]
  | .binary op left right => .mk "BINARY" (.binary op) [left.toNode, right.toNode]
  | .call name args => .mk Node.callKind (.text name) (Expr.toNodes args)
  | .misplaced op left right => .mk "BINARY" (.unary op) [left.toNode, right.toNode]
  | .foreign kind label children => .mk kind (.other label) (Expr.toNodes children)

def Expr.toNodes : List Expr → List Node
  | [] => []
  | e :: rest => e.toNode :: Expr.toNodes rest

end

end Wavetable.Formula
