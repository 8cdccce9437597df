import Wavetable.Formula.Printer
import Wavetable.Proofs.Formula.Shape

/-!
The text of an expression is that of its parts put together. The printer comes to it with a stack:
from a node on top of the pending ones, it comes to the text of the node on top of the texts.
-/

namespace Wavetable.Formula.Expr

mutual

/-- The characters of an expression, by its shape; a node of a foreign kind has none. -/
def render : Expr → List Char
  | .number value => (Number.positional value).toList
  | .var name => name.toList
  | .unary op operand => prefixed op.symbol (render operand)
  | .binary op left right => enclosed op.symbol (render left) (render right)
  | .call name args => name.toList ++ '(' :: (commaSeparated (renderAll args) ++ [')'])
  | .misplaced op left right => enclosed op.symbol (render left) (render right)
  | .foreign _ _ _ => []

/-- The characters of all expressions of a list. -/
def renderAll : List Expr → List (List Char)
  | [] => []
  | e :: rest => render e :: renderAll rest

end

/-- The printer comes from one state to another in at most so many steps. -/
def Printing.Leads (bound : Nat) (first last : Printing) : Prop :=
  ∃ cost ≤ bound, ∀ fuel, first.run (fuel + cost) = last.run fuel

theorem Printing.Leads.trans {bound bound' first middle last}
    (leads : Printing.Leads bound first middle) (follows : Printing.Leads bound' middle last)
    : Printing.Leads (bound' + bound) first last := by
  obtain ⟨cost, small, run⟩ := leads
  obtain ⟨cost', small', run'⟩ := follows
  refine ⟨cost' + cost, Nat.add_le_add small' small, fun fuel => ?_⟩
  rw [← Nat.add_assoc, run, run']

theorem Printing.Leads.step {next : Pending} {pending texts last}
    (taken : Printing.take pending texts next = .ok last)
    : Printing.Leads 1 ⟨next :: pending, texts⟩ last := by
  refine ⟨1, Nat.le_refl 1, fun fuel => ?_⟩
  rw [Printing.run, taken]

theorem Printing.Leads.mono {bound bound' first last} (leads : Printing.Leads bound first last)
    (small : bound ≤ bound')
    : Printing.Leads bound' first last := by
  obtain ⟨cost, within, run⟩ := leads
  exact ⟨cost, Nat.le_trans within small, run⟩

theorem length_renderAll (parts : List Expr) : (renderAll parts).length = parts.length := by
  induction parts with
  | nil => rfl
  | cons e rest ih => rw [renderAll, List.length_cons, ih, List.length_cons]

/-- A node that waits for its parts takes their texts, which lie in the opposite order. -/
theorem leads_node {e : Expr} {pending texts}
    (opens : Printing.take pending texts ⟨e, false⟩
      = .ok ⟨e.children.map (⟨·, false⟩) ++ ⟨e, true⟩ :: pending, texts⟩)
    (closes : ∀ texts, Printing.take pending texts ⟨e, true⟩
      = .ok ⟨pending, e.assemble (texts.take e.children.length).reverse
          :: texts.drop e.children.length⟩)
    (whole : e.assemble (renderAll e.children) = e.render)
    (parts : Printing.Leads (2 * sizeAll e.children)
      ⟨e.children.map (⟨·, false⟩) ++ ⟨e, true⟩ :: pending, texts⟩
      ⟨⟨e, true⟩ :: pending, (renderAll e.children).reverse ++ texts⟩)
    : Printing.Leads (2 * e.size) ⟨⟨e, false⟩ :: pending, texts⟩ ⟨pending, e.render :: texts⟩ := by
  have counted : (renderAll e.children).reverse.length = e.children.length := by
    rw [List.length_reverse, length_renderAll]
  have last := Printing.Leads.step (closes ((renderAll e.children).reverse ++ texts))
  rw [List.take_left' counted, List.drop_left' counted, List.reverse_reverse, whole] at last
  -- one step opens the node, and another one closes it
  refine (((Printing.Leads.step opens).trans parts).trans last).mono ?_
  rw [e.size_eq]
  omega

mutual

/-- A well-formed node leads to its text, by induction on the expression and its parts. -/
theorem leads_render (e : Expr) (formed : e.WellFormed) (pending : List Pending)
    (texts : List (List Char))
    : Printing.Leads (2 * e.size) ⟨⟨e, false⟩ :: pending, texts⟩ ⟨pending, e.render :: texts⟩ := by
  match e with
  | .number _ | .var _ =>
      refine (Printing.Leads.step rfl).mono ?_
      rw [size]
      omega
  | .unary _ operand =>
      exact leads_node rfl (fun _ => rfl) rfl
        (leads_renderAll [operand] ⟨formed, trivial⟩ _ texts)
  | .binary _ left right =>
      exact leads_node rfl (fun _ => rfl) rfl
        (leads_renderAll [left, right] ⟨formed.1, formed.2, trivial⟩ _ texts)
  | .call _ args =>
      exact leads_node rfl (fun _ => rfl) rfl (leads_renderAll args formed.2 _ texts)
termination_by 2 * e.size
decreasing_by all_goals (simp only [size, sizeAll]; omega)

theorem leads_renderAll (parts : List Expr) (formed : AllWellFormed parts)
    (pending : List Pending) (texts : List (List Char))
    : Printing.Leads (2 * sizeAll parts) ⟨parts.map (⟨·, false⟩) ++ pending, texts⟩
        ⟨pending, (renderAll parts).reverse ++ texts⟩ := by
  match parts with
  | [] => exact ⟨0, Nat.zero_le _, fun fuel => rfl⟩
  | e :: rest =>
      have first := leads_render e formed.1 (rest.map (⟨·, false⟩) ++ pending) texts
      have others := leads_renderAll rest formed.2 pending (e.render :: texts)
      rw [renderAll, List.reverse_cons, List.append_assoc, List.singleton_append]
      refine (first.trans others).mono ?_
      rw [sizeAll]
      omega
termination_by 2 * sizeAll parts + 1
decreasing_by
  · rw [sizeAll]
    omega
  · rw [sizeAll, size_eq e]
    omega

end

/-- The text of a well-formed expression. -/
theorem source_eq {e : Expr} (formed : e.WellFormed) : e.source = .ok (String.ofList e.render) := by
  obtain ⟨cost, small, run⟩ := leads_render e formed [] []
  have fuel : 2 * e.size = 2 * e.size - cost + cost := (Nat.sub_add_cancel small).symm
  have ended : ∀ fuel, Printing.run fuel ⟨[], [e.render]⟩ = .ok [e.render] := by
    intro fuel
    cases fuel <;> rfl
  rw [source, fuel, run, ended]
  rfl

end Wavetable.Formula.Expr
