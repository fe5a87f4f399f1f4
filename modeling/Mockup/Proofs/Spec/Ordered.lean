import Mockup.Proofs.Spec.Record

/-! Ordered specifications: the cells of every row of data stand in the order of their keys, and the
metadata is well-formed. -/

namespace Mockup

open Json

def Component.OrderedRow (cells : List (String × String)) : Prop :=
  cells.Pairwise fun a b => a.1 < b.1

def Component.Ordered (c : Component) : Prop := ∀ rows ∈ c.dataset, ∀ cells ∈ rows, OrderedRow cells

structure Spec.Ordered (s : Spec) : Prop where
  components : ∀ x ∈ s.keyScreens, ∀ c ∈ x.components, c.Ordered
  metadata : ∀ m ∈ s.metadata, (Value.object m).WellFormed

theorem Component.OrderedRow.wellFormed_row {cells : List (String × String)}
    (h : OrderedRow cells) :
    (row cells).WellFormed := by
  refine .object (List.pairwise_map.mpr h) fun p hp => ?_
  obtain ⟨c, -, rfl⟩ := List.mem_map.mp hp
  exact .text c.2

end Mockup
