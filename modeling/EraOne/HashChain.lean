import Mathlib

set_option autoImplicit false

/- Chains that link each item to all before it. The last link determines the items as long as no two
of the pairs linked share a link and none of them links to the root. -/
namespace EraOne.HashChain

variable {H P : Type}

/-- The links after each item. -/
def links (link : H → P → H) : H → List P → List H
  | _, [] => []
  | first, p :: rest => link first p :: links link (link first p) rest

/-- What each link is made of. -/
def linked (link : H → P → H) : H → List P → List (H × P)
  | _, [] => []
  | first, p :: rest => (first, p) :: linked link (link first p) rest

/-- Among some pairs, a link tells what it is made of. -/
def Binding (link : H → P → H) (pairs : List (H × P)) : Prop :=
  ∀ a ∈ pairs, ∀ b ∈ pairs, link a.1 a.2 = link b.1 b.2 → a = b

/-- None of some pairs links to `root`. -/
def Fresh (link : H → P → H) (root : H) (pairs : List (H × P)) : Prop :=
  ∀ a ∈ pairs, link a.1 a.2 ≠ root

theorem links_concat (link : H → P → H) (first : H) (items : List P) (p : P) :
    links link first (items ++ [p]) = links link first items ++
      [link (items.foldl link first) p] := by
  induction items generalizing first with
  | nil => rfl
  | cons q rest ih => rw [List.cons_append, links, ih, links, List.cons_append, List.foldl_cons]

theorem linked_concat (link : H → P → H) (first : H) (items : List P) (p : P) :
    linked link first (items ++ [p]) = linked link first items ++
      [(items.foldl link first, p)] := by
  induction items generalizing first with
  | nil => rfl
  | cons q rest ih => rw [List.cons_append, linked, ih, linked, List.cons_append, List.foldl_cons]

/-- The last link is what is folded from the root. -/
theorem getLast?_links (link : H → P → H) (first : H) (items : List P) :
    (links link first items).getLast?.getD first = items.foldl link first := by
  induction items using List.reverseRecOn with
  | nil => rfl
  | append_singleton items p _ =>
      rw [links_concat, List.getLast?_concat, List.foldl_append]
      rfl

/-- Chains from one root that end in one link have the same items. -/
theorem items_eq_of_foldl_eq (link : H → P → H) (root : H) (items others : List P)
    (binding : Binding link (linked link root items ++ linked link root others))
    (fresh : Fresh link root (linked link root items ++ linked link root others))
    (same : items.foldl link root = others.foldl link root) : items = others := by
  induction items using List.reverseRecOn generalizing others with
  | nil =>
      cases others using List.reverseRecOn with
      | nil => rfl
      | append_singleton others q =>
          rw [List.foldl_append] at same
          refine absurd same.symm (fresh (others.foldl link root, q) ?_)
          rw [linked_concat]
          simp
  | append_singleton items p ih =>
      cases others using List.reverseRecOn with
      | nil =>
          rw [List.foldl_append] at same
          refine absurd same (fresh (items.foldl link root, p) ?_)
          rw [linked_concat]
          simp
      | append_singleton others q =>
          rw [List.foldl_append, List.foldl_append] at same
          rw [linked_concat, linked_concat] at binding fresh
          have pair : (items.foldl link root, p) = (others.foldl link root, q) := by
            apply binding _ (by simp) _ (by simp)
            exact same
          have fewer : ∀ a ∈ linked link root items ++ linked link root others,
              a ∈ linked link root items ++ [(items.foldl link root, p)] ++
                (linked link root others ++ [(others.foldl link root, q)]) := by
            intro a inside
            simp only [List.mem_append] at inside ⊢
            cases inside with
            | inl left => exact Or.inl (Or.inl left)
            | inr right => exact Or.inr (Or.inl right)
          have front : items = others := by
            apply ih others
            · intro a inside b inside'
              exact binding a (fewer a inside) b (fewer b inside')
            · intro a inside
              exact fresh a (fewer a inside)
            · exact (Prod.mk.inj pair).1
          rw [front, (Prod.mk.inj pair).2]

end EraOne.HashChain
