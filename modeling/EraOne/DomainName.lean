import Mathlib

set_option autoImplicit false

/- Names of labels: on the wire, each label behind a byte with its length, and as a text, with dots
between the labels. -/
namespace EraOne.DomainName

abbrev Label := List UInt8

def encodeLabels (labels : List Label) : List UInt8 :=
  labels.flatMap fun label => UInt8.ofNat label.length :: label

def dot : UInt8 := 46

def dotted (labels : List Label) : List UInt8 := [dot].intercalate labels

/-- A text without the dot that it may end in. -/
def trimDot (name : List UInt8) : List UInt8 :=
  if name.getLast? = some dot then name.dropLast else name

def parts (name : List UInt8) : List Label := (trimDot name).splitOn dot

/-- A label that can stand on the wire: a byte tells its length, and it is not the end of the
name. -/
def Label.Valid (label : Label) : Prop := label ≠ [] ∧ label.length < 256

@[simp] theorem encodeLabels_nil : encodeLabels [] = [] := rfl

@[simp] theorem encodeLabels_cons (label : Label) (rest : List Label) :
    encodeLabels (label :: rest) = UInt8.ofNat label.length :: (label ++ encodeLabels rest) := rfl

theorem ofNat_inj (m n : Nat) (first : m < 256) (second : n < 256)
    (same : UInt8.ofNat m = UInt8.ofNat n) : m = n := by
  have numbers := congrArg UInt8.toNat same
  rw [UInt8.toNat_ofNat', UInt8.toNat_ofNat'] at numbers
  omega

theorem ofNat_length_ne_zero (label : Label) (valid : label.Valid) :
    UInt8.ofNat label.length ≠ 0 := by
  intro zero
  have none_ := ofNat_inj label.length 0 valid.2 (by omega) zero
  exact valid.1 (List.length_eq_zero_iff.mp none_)

/-- The labels can be told from what they are on the wire. -/
theorem encodeLabels_inj (a b : List Label) (fitsA : ∀ label ∈ a, label.length < 256)
    (fitsB : ∀ label ∈ b, label.length < 256) (same : encodeLabels a = encodeLabels b) : a = b := by
  induction a generalizing b with
  | nil =>
      cases b with
      | nil => rfl
      | cons label b => cases same
  | cons first a ih =>
      cases b with
      | nil => cases same
      | cons second b =>
          rw [List.forall_mem_cons] at fitsA fitsB
          rw [encodeLabels_cons, encodeLabels_cons, List.cons.injEq] at same
          have length := ofNat_inj _ _ fitsA.1 fitsB.1 same.1
          obtain ⟨label, others⟩ := List.append_inj same.2 length
          rw [label, ih b fitsA.2 fitsB.2 others]

/-- A name on the wire ends where it says, whatever follows. -/
theorem encodeLabels_end_inj (a b : List Label) (x y : List UInt8)
    (validA : ∀ label ∈ a, label.Valid) (validB : ∀ label ∈ b, label.Valid)
    (same : encodeLabels a ++ 0 :: x = encodeLabels b ++ 0 :: y) :
    a = b ∧ x = y := by
  induction a generalizing b with
  | nil =>
      cases b with
      | nil => exact ⟨rfl, (List.cons.inj same).2⟩
      | cons label b =>
          rw [List.forall_mem_cons] at validB
          exact absurd (List.cons.inj same).1.symm (ofNat_length_ne_zero label validB.1)
  | cons first a ih =>
      rw [List.forall_mem_cons] at validA
      cases b with
      | nil => exact absurd (List.cons.inj same).1 (ofNat_length_ne_zero first validA.1)
      | cons second b =>
          rw [List.forall_mem_cons] at validB
          rw [encodeLabels_cons, encodeLabels_cons, List.cons_append, List.cons_append,
            List.cons.injEq, List.append_assoc, List.append_assoc] at same
          have length := ofNat_inj _ _ validA.1.2 validB.1.2 same.1
          obtain ⟨label, others⟩ := List.append_inj same.2 length
          obtain ⟨labels, after⟩ := ih b validA.2 validB.2 others
          exact ⟨by rw [label, labels], after⟩

/-! ### Dots -/

theorem dotted_singleton (label : Label) : dotted [label] = label := List.intercalate_singleton

theorem dotted_cons_cons (first second : Label) (rest : List Label) :
    dotted (first :: second :: rest) = first ++ dot :: dotted (second :: rest) := by
  unfold dotted
  rw [List.intercalate_cons_cons, List.append_assoc]
  rfl

theorem trimDot_append (front back : List UInt8) (some_ : back ≠ []) :
    trimDot (front ++ back) = front ++ trimDot back := by
  unfold trimDot
  rw [List.getLast?_append_of_ne_nil front some_, List.dropLast_append_of_ne_nil some_]
  split <;> rfl

theorem length_trimDot_le (name : List UInt8) : (trimDot name).length ≤ name.length := by
  unfold trimDot
  split
  · rw [List.length_dropLast]
    omega
  · exact Nat.le_refl _

theorem dotted_ne_nil (label : Label) (rest : List Label) (valid : label.Valid) :
    dotted (label :: rest) ≠ [] := by
  cases rest with
  | nil =>
      rw [dotted_singleton]
      exact valid.1
  | cons second rest =>
      rw [dotted_cons_cons]
      simp

theorem not_mem_splitOn (name part : List UInt8) (member : part ∈ name.splitOn dot) :
    dot ∉ part := by
  induction name generalizing part with
  | nil =>
      rw [List.splitOn_nil, List.mem_singleton] at member
      rw [member]
      exact List.not_mem_nil
  | cons b name ih =>
      rw [List.splitOn_cons_eq_if_modifyHead] at member
      split at member
      · rcases List.mem_cons.mp member with first | later
        · rw [first]
          exact List.not_mem_nil
        · exact ih part later
      · rename_i other
        cases whole : name.splitOn dot with
        | nil => exact absurd whole (List.splitOn_ne_nil dot name)
        | cons head tail =>
            rw [whole, List.modifyHead_cons] at member
            rcases List.mem_cons.mp member with first | later
            · rw [first, List.mem_cons, not_or]
              have inHead := ih head (by rw [whole]; exact List.mem_cons_self)
              exact ⟨fun same => other (by simp [← same]), inHead⟩
            · exact ih part (by rw [whole]; exact List.mem_cons_of_mem head later)

theorem length_le_of_mem_splitOn (name part : List UInt8) (member : part ∈ name.splitOn dot) :
    part.length ≤ name.length := by
  have whole : List.intercalate [dot] (name.splitOn dot) = name := List.intercalate_splitOn dot
  rw [← whole]
  generalize name.splitOn dot = pieces at member
  induction pieces with
  | nil => cases member
  | cons first pieces ih =>
      cases pieces with
      | nil =>
          rw [List.mem_singleton.mp member, List.intercalate_singleton]
      | cons second pieces =>
          rw [List.intercalate_cons_cons, List.length_append, List.length_append]
          rcases List.mem_cons.mp member with here | later
          · rw [here]
            omega
          · have shorter := ih later
            omega

/-- No part of a dotted name is longer than the labels are. -/
theorem length_parts_lt (labels : List Label) (valid : ∀ label ∈ labels, label.Valid) :
    ∀ part ∈ parts (dotted labels), part.length < 256 := by
  unfold parts
  induction labels with
  | nil =>
      intro part member
      have none_ : (trimDot (dotted [])).splitOn dot = [[]] := rfl
      rw [none_, List.mem_singleton] at member
      rw [member]
      decide
  | cons first rest ih =>
      rw [List.forall_mem_cons] at valid
      cases rest with
      | nil =>
          intro part member
          rw [dotted_singleton] at member
          have shorter := length_le_of_mem_splitOn _ part member
          have trimmed := length_trimDot_le first
          have fits := valid.1.2
          omega
      | cons second rest =>
          intro part member
          have some_ : dot :: dotted (second :: rest) ≠ [] := by simp
          have tail := dotted_ne_nil second rest (valid.2 second List.mem_cons_self)
          rw [dotted_cons_cons, trimDot_append _ _ some_, ← List.singleton_append,
            trimDot_append _ _ tail, List.singleton_append, List.splitOn_append_cons_self,
            List.mem_append] at member
          rcases member with here | later
          · have shorter := length_le_of_mem_splitOn _ part here
            have fits := valid.1.2
            omega
          · exact ih valid.2 part later

/-- The labels of a name come back from its text exactly if there is one and none has a dot in
it. -/
theorem parts_dotted_iff (labels : List Label) (valid : ∀ label ∈ labels, label.Valid) :
    parts (dotted labels) = labels ↔ labels ≠ [] ∧ ∀ label ∈ labels, dot ∉ label := by
  constructor
  · intro same
    constructor
    · rw [← same]
      exact List.splitOn_ne_nil dot _
    · intro label member
      rw [← same] at member
      exact not_mem_splitOn _ label member
  · rintro ⟨some_, plain⟩
    have untouched : trimDot (dotted labels) = dotted labels := by
      induction labels with
      | nil => exact absurd rfl some_
      | cons first rest ih =>
          rw [List.forall_mem_cons] at valid plain
          cases rest with
          | nil =>
              rw [dotted_singleton, trimDot, if_neg]
              intro last
              exact plain.1 (List.mem_of_getLast? last)
          | cons second rest =>
              have more : dot :: dotted (second :: rest) ≠ [] := by simp
              have tail := dotted_ne_nil second rest (valid.2 second List.mem_cons_self)
              rw [dotted_cons_cons, trimDot_append _ _ more, ← List.singleton_append,
                trimDot_append _ _ tail, ih valid.2 (by simp) plain.2]
    rw [parts, untouched, dotted, List.splitOn_intercalate dot plain some_]

theorem dotted_append (front back : List Label) (some_ : front ≠ []) (more : back ≠ []) :
    dotted (front ++ back) = dotted front ++ dot :: dotted back := by
  induction front with
  | nil => exact absurd rfl some_
  | cons first rest ih =>
      cases rest with
      | nil =>
          cases back with
          | nil => exact absurd rfl more
          | cons second back =>
              rw [List.singleton_append, dotted_cons_cons, dotted_singleton]
      | cons second rest =>
          rw [List.cons_append, List.cons_append, dotted_cons_cons, ← List.cons_append,
            ih (by simp), dotted_cons_cons]
          simp

/-- A name ends in another, behind a dot or as the whole of it, exactly if it does so label by
label. -/
theorem suffix_iff_labels (s name : List UInt8) :
    dot :: s <:+ name ∨ name = s ↔ s.splitOn dot <:+ name.splitOn dot := by
  constructor
  · rintro (⟨front, whole⟩ | same)
    · rw [← whole, List.splitOn_append_cons_self]
      exact List.suffix_append (front.splitOn dot) (s.splitOn dot)
    · rw [same]
  · rintro ⟨front, whole⟩
    have joined (text : List UInt8) : dotted (text.splitOn dot) = text :=
      List.intercalate_splitOn dot
    have name_ := congrArg dotted whole
    rw [joined name] at name_
    cases front with
    | nil =>
        right
        rw [← name_, List.nil_append, joined]
    | cons first front =>
        left
        rw [dotted_append _ _ (by simp) (List.splitOn_ne_nil dot s), joined] at name_
        exact ⟨dotted (first :: front), name_⟩

end EraOne.DomainName
