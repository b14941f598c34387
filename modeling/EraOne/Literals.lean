import EraOne.Search

set_option autoImplicit false

/- Searching for one literal in another. A literal is the list of its characters by unification,
which is far quicker to check than reading them out of its bytes. -/
namespace EraOne.Scan

/-- No match begins in the piece, be it cut off at the end. -/
def clear (pattern : Str) : Str → Bool
  | [] => true
  | c :: s => !pattern.isPrefixOf (c :: s) && !(c :: s).isPrefixOf pattern && clear pattern s

theorem quiet_of_clear (pattern piece : Str) (free : clear pattern piece = true) :
    Quiet pattern piece := by
  apply quiet_of_tails
  induction piece with
  | nil =>
      intro tail member
      exact Or.inl (List.mem_singleton.mp member)
  | cons c piece ih =>
      rw [clear, Bool.and_eq_true, Bool.and_eq_true, Bool.not_eq_true', Bool.not_eq_true'] at free
      intro tail member
      rw [List.tails] at member
      cases List.mem_cons.mp member with
      | inl here =>
          rw [here, ← List.isPrefixOf_iff_prefix, ← List.isPrefixOf_iff_prefix, free.1.1, free.1.2]
          exact Or.inr ⟨Bool.false_ne_true, Bool.false_ne_true⟩
      | inr later => exact ih free.2 tail later

/-- One literal after another, spelled. -/
theorem spell_append {s : String} {front piece : Str} (spelled : s.toList = front) :
    (s ++ String.ofList piece).toList = front ++ piece := by
  rw [String.toList_append, spelled, String.toList_ofList]

theorem quiet_spelled (pattern piece text : Str) (spelled : text = piece)
    (free : clear pattern piece = true) :
    Quiet (String.ofList pattern).toList text := by
  rw [spelled, String.toList_ofList]
  exact quiet_of_clear pattern piece free

theorem quiet_literal (pattern piece : Str) (free : clear pattern piece = true) :
    Quiet (String.ofList pattern).toList (String.ofList piece).toList :=
  quiet_spelled pattern piece _ String.toList_ofList free

theorem literal_ne (s t : Str) (differ : s ≠ t) :
    (String.ofList s).toList ≠ (String.ofList t).toList := by
  rwa [String.toList_ofList, String.toList_ofList]

theorem not_mem_literal (c : Char) (s : Str) (absent : c ∉ s) : c ∉ (String.ofList s).toList := by
  rwa [String.toList_ofList]

end EraOne.Scan
