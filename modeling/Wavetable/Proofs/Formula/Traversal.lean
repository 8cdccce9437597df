import Mathlib.Data.Finset.Lattice.Lemmas
import Mathlib.Data.List.Basic
import Wavetable.Formula.Node
import Wavetable.Proofs.Formula.Dependence

/-!
A traversal visits the nodes of a tree in preorder. Whatever the kinds of the nodes and the numbers
of their parts are, each step visits the next node of the order that is defined by recursion, and
nothing is pending exactly when all have been visited. The places of the nodes follow each other
from left to right, so none is visited twice. What is gathered on the way is what recursion gathers.
-/

namespace Wavetable.Formula

namespace Node

-----------------------------------------------------------------------------------------
-- Trees by recursion
-----------------------------------------------------------------------------------------

mutual

/-- A node and then its parts from left to right, each with all of its nodes. -/
def preorder : Node → List Node
  | .mk kind label parts => .mk kind label parts :: preorderAll parts

def preorderAll : List Node → List Node
  | [] => []
  | node :: rest => node.preorder ++ preorderAll rest

end

/-- The node at a place, to which the numbers of parts lead on the way from the root. -/
def at? : Node → List Nat → Option Node
  | node, [] => some node
  | node, index :: place => node.parts[index]?.bind fun part => part.at? place

mutual

/-- The places in a tree: that of its root, and then those in its parts. -/
def places : Node → List (List Nat)
  | .mk _ _ parts => [] :: placesFrom 0 parts

/-- The places in parts that are numbered from an index on. -/
def placesFrom (index : Nat) : List Node → List (List Nat)
  | [] => []
  | part :: rest => part.places.map (index :: ·) ++ placesFrom (index + 1) rest

end

mutual

/-- A variable of the given name is the root, or is mentioned in one of its parts. -/
def mentions (name : String) : Node → Bool
  | .mk kind label parts =>
      (kind = variableKind && label = .text name) || mentionsAny name parts

def mentionsAny (name : String) : List Node → Bool
  | [] => false
  | node :: rest => node.mentions name || mentionsAny name rest

end

mutual

/-- The label of the root, if it is of the given kind, and those in its parts. -/
def labelsBelow (wanted : String) : Node → Finset Label
  | .mk kind label parts => (if kind = wanted then {label} else ∅) ∪ labelsBelowAll wanted parts

def labelsBelowAll (wanted : String) : List Node → Finset Label
  | [] => ∅
  | node :: rest => node.labelsBelow wanted ∪ labelsBelowAll wanted rest

end

/-- What holds of a node if it holds of all its parts holds of all nodes. -/
@[elab_as_elim]
theorem induction {motive : Node → Prop}
    (node : ∀ kind label parts, (∀ part ∈ parts, motive part) → motive (.mk kind label parts))
    (root : Node)
    : motive root :=
  @Node.rec motive (fun parts => ∀ part ∈ parts, motive part) node (by simp)
    (by simp_all) root

theorem preorder_eq (node : Node) : node.preorder = node :: preorderAll node.parts := by
  cases node
  rfl

theorem preorderAll_append (left right : List Node)
    : preorderAll (left ++ right) = preorderAll left ++ preorderAll right := by
  induction left with
  | nil => rfl
  | cons node rest ih => simp [preorderAll, ih]

/-- There are as many nodes in preorder as the tree has. -/
theorem length_preorder (root : Node) : root.preorder.length = root.size := by
  induction root using induction with
  | node kind label parts ih =>
      have all : (preorderAll parts).length = sizeAll parts := by
        clear kind label
        induction parts with
        | nil => rfl
        | cons part rest ih' =>
            obtain ⟨first, others⟩ := List.forall_mem_cons.mp ih
            simp [preorderAll, sizeAll, first, ih' others]
      simp [preorder, size, all]

end Node

-----------------------------------------------------------------------------------------
-- Steps and runs
-----------------------------------------------------------------------------------------

namespace Traversal

open Node (preorderAll)

/-- The nodes that a traversal has visited, and then those that are still to come. -/
def order (traversal : Traversal) : List Node :=
  traversal.visited ++ preorderAll traversal.pending.reverse

section
variable {traversal next : Traversal}

theorem step?_eq_none_iff : traversal.step? = none ↔ traversal.pending = [] := by
  unfold step?
  rcases List.eq_nil_or_concat traversal.pending with none | ⟨before, node, some⟩
  · simp [none]
  · simp [some]

/-- A step visits the first of the nodes that are to come, and leaves their order as it is. -/
theorem order_step? (stepped : traversal.step? = some next)
    : next.order = traversal.order
      ∧ next.visited.length = traversal.visited.length + 1 := by
  obtain ⟨before, node, pending, rfl⟩ := step?_eq_some_iff.mp stepped
  constructor
  · -- the parts, which are pushed in reverse, are popped from left to right
    simp [order, pending, preorderAll, Node.preorderAll_append, Node.preorder_eq]
  · simp

/-- So many steps keep the order and visit so many nodes, unless there are no more. -/
theorem order_after (count : Nat) (traversal : Traversal)
    : (traversal.after count).order = traversal.order
      ∧ (traversal.after count).visited.length
        = min (traversal.visited.length + count) traversal.order.length := by
  induction count generalizing traversal with
  | zero => simp [after, order]
  | succ count ih =>
      rw [after]
      cases stepped : traversal.step? with
      | none =>
          have done := step?_eq_none_iff.mp stepped
          simp [order, done, preorderAll]
      | some next =>
          obtain ⟨kept, counted⟩ := order_step? stepped
          obtain ⟨order, visited⟩ := ih next
          refine ⟨order.trans kept, visited.trans ?_⟩
          rw [kept, counted, Nat.add_right_comm, Nat.add_assoc]

/-- Nothing is pending exactly when all nodes of the order have been visited. -/
theorem pending_eq_nil_iff
    : traversal.pending = [] ↔ traversal.order.length ≤ traversal.visited.length := by
  rcases List.eq_nil_or_concat traversal.pending with none | ⟨before, node, some⟩
  · simp [order, none, preorderAll]
  · have one : 0 < node.size := by simp [Node.size_eq]
    simp [order, some, preorderAll, Node.length_preorder]
    omega

/-- A run visits the nodes in order, by induction on its steps. -/
theorem run_eq_order (traversal : Traversal) : traversal.run = traversal.order := by
  induction traversal using run.induct with
  | case1 traversal ended =>
      have none := step?_eq_none_iff.mp ended
      rw [run]
      split
      next => simp [order, none, preorderAll]
      next stepped => rw [ended] at stepped; contradiction
  | case2 traversal next stepped ih =>
      rw [run]
      split
      next ended => rw [stepped] at ended; contradiction
      next other stepped' =>
        obtain rfl : next = other := Option.some.inj (stepped.symm.trans stepped')
        exact ih.trans (order_step? stepped).1

end

theorem order_start (root : Node) : (start root).order = root.preorder := by
  simp [start, order, preorderAll]

/-- After a count of steps so many nodes have been visited, from the start of the preorder. -/
theorem visited_after_start (root : Node) (count : Nat)
    : ((start root).after count).visited = root.preorder.take count := by
  obtain ⟨kept, counted⟩ := order_after count (start root)
  rw [order_start] at kept counted
  have first : ((start root).after count).visited <+: root.preorder := by
    rw [← kept]
    exact List.prefix_append _ _
  rw [List.prefix_iff_eq_take.mp first, counted]
  simp [start]

/-- The traversal ends after as many steps as there are nodes. -/
theorem pending_after_start (root : Node) (count : Nat)
    : ((start root).after count).pending = [] ↔ root.size ≤ count := by
  obtain ⟨kept, counted⟩ := order_after count (start root)
  rw [pending_eq_nil_iff, counted, kept, order_start, Node.length_preorder]
  simp [start]

end Traversal

namespace Node

theorem walk_eq_preorder (root : Node) : root.walk = root.preorder :=
  (Traversal.run_eq_order _).trans (Traversal.order_start root)

-----------------------------------------------------------------------------------------
-- Places
-----------------------------------------------------------------------------------------

/-- A place in numbered parts is one in a part of a number that comes later. -/
theorem mem_placesFrom_iff {index : Nat} {parts : List Node} {place : List Nat}
    : place ∈ placesFrom index parts
      ↔ ∃ number part inner,
          parts[number]? = some part ∧ inner ∈ part.places ∧ place = (index + number) :: inner := by
  induction parts generalizing index with
  | nil => simp [placesFrom]
  | cons first rest ih =>
      rw [placesFrom, List.mem_append, List.mem_map, ih]
      constructor
      · rintro (⟨inner, known, rfl⟩ | ⟨number, part, inner, found, known, rfl⟩)
        · exact ⟨0, first, inner, rfl, known, rfl⟩
        · exact ⟨number + 1, part, inner, found, known, by rw [Nat.add_right_comm, Nat.add_assoc]⟩
      · rintro ⟨_ | number, part, inner, found, known, rfl⟩
        · obtain rfl : first = part := Option.some.inj found
          exact .inl ⟨inner, known, rfl⟩
        · exact .inr ⟨number, part, inner, found, known, by rw [Nat.add_right_comm, Nat.add_assoc]⟩

/-- The places are those at which there is a node, by induction on the way there. -/
theorem mem_places_iff {root : Node} {place : List Nat}
    : place ∈ root.places ↔ (root.at? place).isSome := by
  induction place generalizing root with
  | nil =>
      cases root
      simp [places, at?]
  | cons number place ih =>
      obtain ⟨kind, label, parts⟩ := root
      rw [places, List.mem_cons, mem_placesFrom_iff, at?, Option.isSome_bind, Option.any_eq_true]
      constructor
      · rintro (root | ⟨other, part, inner, found, known, same⟩)
        · contradiction
        · obtain ⟨numbers, rfl⟩ := List.cons.inj same
          obtain rfl : number = other := numbers.trans (Nat.zero_add other)
          exact ⟨part, found, ih.mp known⟩
      · rintro ⟨part, found, there⟩
        exact .inr ⟨number, part, place, found, ih.mpr there, by rw [Nat.zero_add]⟩

/-- The places of parts follow each other, if those in each part do. -/
theorem pairwise_placesFrom {index : Nat} {parts : List Node}
    (each : ∀ part ∈ parts, part.places.Pairwise (· < ·))
    : (placesFrom index parts).Pairwise (· < ·) := by
  induction parts generalizing index with
  | nil => exact .nil
  | cons first rest ih =>
      obtain ⟨inFirst, inRest⟩ := List.forall_mem_cons.mp each
      rw [placesFrom, List.pairwise_append]
      refine ⟨?_, ih inRest, ?_⟩
      · exact inFirst.map _ fun _ _ before => List.cons_lt_cons_iff.mpr (.inr ⟨rfl, before⟩)
      · rintro _ earlier _ later
        obtain ⟨inner, -, rfl⟩ := List.mem_map.mp earlier
        obtain ⟨number, part, inner', -, -, rfl⟩ := mem_placesFrom_iff.mp later
        exact List.cons_lt_cons_iff.mpr (.inl (by omega))

/-- Each place comes before those in its parts, and these from left to right, so none twice. -/
theorem pairwise_places (root : Node) : root.places.Pairwise (· < ·) := by
  induction root using induction with
  | node kind label parts ih =>
      rw [places, List.pairwise_cons]
      refine ⟨fun place inside => ?_, pairwise_placesFrom ih⟩
      obtain ⟨number, part, inner, -, -, rfl⟩ := mem_placesFrom_iff.mp inside
      exact List.nil_lt_cons _ _

/-- The nodes at the places of the last parts are those of the parts in preorder. -/
theorem map_at?_placesFrom (kind : String) (label : Label) (before : List Node) {parts : List Node}
    (each : ∀ part ∈ parts, part.places.map part.at? = part.preorder.map some)
    : (placesFrom before.length parts).map (Node.mk kind label (before ++ parts)).at?
      = (preorderAll parts).map some := by
  induction parts generalizing before with
  | nil => rfl
  | cons first rest ih =>
      obtain ⟨inFirst, inRest⟩ := List.forall_mem_cons.mp each
      have later := ih (before ++ [first]) inRest
      rw [List.append_assoc, List.singleton_append, List.length_append, List.length_singleton]
        at later
      have entered : (Node.mk kind label (before ++ first :: rest)).at? ∘ (before.length :: ·)
          = first.at? := by
        funext place
        simp [at?, parts]
      rw [placesFrom, preorderAll, List.map_append, List.map_append, List.map_map, entered, inFirst,
        later]

/-- The nodes at the places, in order, are those in preorder. -/
theorem map_at?_places (root : Node) : root.places.map root.at? = root.preorder.map some := by
  induction root using induction with
  | node kind label parts ih =>
      have inside := map_at?_placesFrom kind label [] ih
      rw [List.nil_append, List.length_nil] at inside
      rw [places, preorder, List.map_cons, List.map_cons, inside, at?]

-----------------------------------------------------------------------------------------
-- What is gathered
-----------------------------------------------------------------------------------------

/-- A variable of the given name. -/
def isVariable (name : String) (node : Node) : Bool :=
  node.kind = variableKind && node.label = .text name

theorem any_preorder (name : String) (root : Node)
    : root.preorder.any (isVariable name) = root.mentions name := by
  induction root using induction with
  | node kind label parts ih =>
      have all : (preorderAll parts).any (isVariable name) = mentionsAny name parts := by
        clear kind label
        induction parts with
        | nil => rfl
        | cons first rest ih' =>
            obtain ⟨first, others⟩ := List.forall_mem_cons.mp ih
            rw [preorderAll, List.any_append, first, ih' others, mentionsAny]
      rw [preorder, List.any_cons, all, mentions]
      rfl

/-- The two flags tell of the variables `y` and `z` among the nodes seen, and before them. -/
theorem foldl_noteUse (nodes : List Node) (uses : Bool × Bool)
    : nodes.foldl noteUse uses
      = (uses.1 || nodes.any (isVariable "y"), uses.2 || nodes.any (isVariable "z")) := by
  induction nodes generalizing uses with
  | nil => simp
  | cons node rest ih =>
      have noted : noteUse uses node
          = (uses.1 || node.isVariable "y", uses.2 || node.isVariable "z") := by
        unfold noteUse isVariable
        split_ifs <;> simp_all
      rw [List.foldl_cons, ih, noted, List.any_cons, List.any_cons, Bool.or_assoc, Bool.or_assoc]

theorem analyze_eq (root : Node) : root.analyze = (root.mentions "y", root.mentions "z") := by
  rw [analyze, foldl_noteUse, walk_eq_preorder, any_preorder, any_preorder, Bool.false_or,
    Bool.false_or]

theorem toFinset_preorder (wanted : String) (root : Node)
    : ((root.preorder.filter (·.kind = wanted)).map label).toFinset = root.labelsBelow wanted := by
  induction root using induction with
  | node kind label parts ih =>
      have all : (((preorderAll parts).filter (·.kind = wanted)).map Node.label).toFinset
          = labelsBelowAll wanted parts := by
        clear kind label
        induction parts with
        | nil => rfl
        | cons first rest ih' =>
            obtain ⟨first, others⟩ := List.forall_mem_cons.mp ih
            rw [preorderAll, List.filter_append, List.map_append, List.toFinset_append, first,
              ih' others, labelsBelowAll]
      by_cases named : kind = wanted
      · rw [preorder, labelsBelow, List.filter_cons_of_pos (by simp [named]), List.map_cons,
          List.toFinset_cons, all, if_pos named, label_mk, Finset.insert_eq]
      · rw [preorder, labelsBelow, List.filter_cons_of_neg (by simp [named]), all, if_neg named,
          Finset.empty_union]

theorem labelsOf_eq (wanted : String) (root : Node)
    : root.labelsOf wanted = root.labelsBelow wanted := by
  rw [labelsOf, walk_eq_preorder, toFinset_preorder]

end Node

-----------------------------------------------------------------------------------------
-- Expressions
-----------------------------------------------------------------------------------------

namespace Expr

theorem toNodes_eq (expressions : List Expr) : toNodes expressions = expressions.map toNode := by
  induction expressions with
  | nil => rfl
  | cons e rest ih => rw [toNodes, ih, List.map_cons]

theorem parts_toNode (e : Expr) : e.toNode.parts = e.children.map toNode := by
  cases e <;> simp [toNode, children, toNodes_eq]

/-- The nodes of pending expressions are those of their trees in preorder, by induction on the nodes
that are taken.
-/
theorem map_toNode_walkAll (pending : List Expr)
    : (walkAll pending).map toNode = Node.preorderAll (pending.map toNode) := by
  induction pending using walkAll.induct with
  | case1 =>
      rw [walkAll, List.map_nil]
      rfl
  | case2 e rest ih =>
      rw [walkAll, List.map_cons, ih, List.map_append, Node.preorderAll_append, List.map_cons,
        Node.preorderAll, Node.preorder_eq, parts_toNode, List.cons_append]

theorem map_toNode_walk (e : Expr) : e.walk.map toNode = e.toNode.preorder := by
  rw [walk, map_toNode_walkAll, List.map_singleton, Node.preorderAll, Node.preorderAll,
    List.append_nil]

/-- A node of a foreign kind has no name, even if its kind is that of a variable. -/
theorem isVariable_toNode (name : String) (e : Expr)
    : e.toNode.isVariable name = (e.variableName? == some name) := by
  cases e <;> simp [toNode, Node.isVariable, variableName?, Node.variableKind, Node.callKind,
    Bool.beq_eq_decide_eq]

theorem mentions_toNode (name : String) (e : Expr)
    : e.toNode.mentions name = e.mentions name := by
  rw [← Node.any_preorder, ← map_toNode_walk, List.any_map, mentions]
  exact congrArg e.walk.any (funext (isVariable_toNode name))

/-- The names of nodes are labels of nodes of one kind. -/
theorem text_mem_labelsBelow_iff {wanted : String} {name? : Expr → Option String}
    (named : ∀ (e : Expr) (name : String),
      e.toNode.kind = wanted ∧ e.toNode.label = .text name ↔ name? e = some name)
    (e : Expr) (name : String)
    : .text name ∈ e.toNode.labelsBelow wanted ↔ name ∈ e.walk.filterMap name? := by
  rw [← Node.toFinset_preorder, ← map_toNode_walk, List.mem_toFinset, List.mem_filterMap]
  simp only [List.mem_map, List.mem_filter, decide_eq_true_eq]
  constructor
  · rintro ⟨_, ⟨⟨node, known, rfl⟩, kind⟩, label⟩
    exact ⟨node, known, (named node name).mp ⟨kind, label⟩⟩
  · rintro ⟨node, known, given⟩
    obtain ⟨kind, label⟩ := (named node name).mpr given
    exact ⟨_, ⟨⟨node, known, rfl⟩, kind⟩, label⟩

theorem mem_variableNames_iff_labelsBelow (e : Expr) (name : String)
    : name ∈ e.variableNames ↔ .text name ∈ e.toNode.labelsBelow Node.variableKind := by
  rw [variableNames, Text.mem_distinct]
  refine (text_mem_labelsBelow_iff (fun node name => ?_) e name).symm
  cases node <;> simp [toNode, variableName?, Node.variableKind, Node.callKind]

theorem mem_functionNames_iff_labelsBelow (e : Expr) (name : String)
    : name ∈ e.functionNames ↔ .text name ∈ e.toNode.labelsBelow Node.callKind := by
  rw [functionNames, Text.mem_distinct]
  refine (text_mem_labelsBelow_iff (fun node name => ?_) e name).symm
  cases node <;> simp [toNode, functionName?, Node.variableKind, Node.callKind]

end Expr

/-- For every tree, a traversal has after each count of steps visited that many nodes of the
preorder, and it ends after as many steps as there are nodes. The nodes it visits are those at the
places of the tree, at each once and from left to right. The frame variables in use, the variables
and the functions that are gathered from them are those that recursion finds. The same holds of the
nodes of an expression, of the mode of its formula and of its names.
-/
theorem traversal_visits_in_preorder
    : (∀ root : Node,
        (∀ count,
          ((Traversal.start root).after count).visited = root.preorder.take count
          ∧ (((Traversal.start root).after count).pending = [] ↔ root.size ≤ count))
        ∧ root.walk = root.preorder
        ∧ root.places.Pairwise (· < ·)
        ∧ (∀ place, place ∈ root.places ↔ (root.at? place).isSome)
        ∧ root.places.map root.at? = root.walk.map some
        ∧ root.analyze = (root.mentions "y", root.mentions "z")
        ∧ root.variableLabels = root.labelsBelow Node.variableKind
        ∧ root.functionLabels = root.labelsBelow Node.callKind)
      ∧ ∀ e : Expr,
        e.walk.map Expr.toNode = e.toNode.preorder
        ∧ (∀ source,
          let formula := Compiled.ofTree source e
          (formula.usesY, formula.usesZ) = (e.toNode.mentions "y", e.toNode.mentions "z"))
        ∧ (∀ name, name ∈ e.variableNames
            ↔ .text name ∈ e.toNode.labelsBelow Node.variableKind)
        ∧ ∀ name, name ∈ e.functionNames ↔ .text name ∈ e.toNode.labelsBelow Node.callKind := by
  constructor
  · intro root
    refine ⟨fun count => ⟨?_, ?_⟩, root.walk_eq_preorder, root.pairwise_places,
      fun _ => Node.mem_places_iff, ?_, root.analyze_eq, root.labelsOf_eq _, root.labelsOf_eq _⟩
    · exact Traversal.visited_after_start root count
    · exact Traversal.pending_after_start root count
    · rw [Node.map_at?_places, Node.walk_eq_preorder]
  · intro e
    refine ⟨e.map_toNode_walk, fun source => ?_, e.mem_variableNames_iff_labelsBelow,
      e.mem_functionNames_iff_labelsBelow⟩
    rw [Expr.mentions_toNode, Expr.mentions_toNode]
    rfl

end Wavetable.Formula
