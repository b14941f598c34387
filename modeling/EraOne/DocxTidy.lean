import EraOne.DocxEvents

set_option autoImplicit false

/- The events of an exported document are such as a reader returns. -/
namespace EraOne.Docs

open Xml

/-! ### Texts apart -/

/-- Events that begin and end with no text, and have no two texts in a row. -/
structure Framed (events : List Event) : Prop where
  chain : events.IsChain fun a b => ¬(isText a = true ∧ isText b = true)
  last : ∀ e ∈ events.getLast?, isText e = false

theorem Framed.append {front back : List Event} (first : Framed front) (second : Framed back) :
    Framed (front ++ back) := by
  constructor
  · apply List.IsChain.append first.chain second.chain
    intro a last b _ both
    rw [first.last a last] at both
    exact Bool.false_ne_true both.1
  · intro e last
    rw [List.getLast?_append] at last
    cases shape : back.getLast? with
    | none =>
        rw [shape] at last
        exact first.last e last
    | some b =>
        rw [shape] at last
        cases last
        exact second.last _ shape

theorem framed_nil : Framed [] := ⟨List.IsChain.nil, fun _ none_ => by cases none_⟩

theorem framed_of_no_text (events : List Event)
    (plain : ∀ e ∈ events, isText e = false) : Framed events := by
  induction events with
  | nil => exact framed_nil
  | cons e events ih =>
      rw [List.forall_mem_cons] at plain
      have single : Framed [e] := by
        refine ⟨List.IsChain.singleton e, fun b last => ?_⟩
        cases last
        exact plain.1
      exact single.append (ih plain.2)

theorem framed_flatMap {α : Type} (l : List α) (events : α → List Event)
    (each : ∀ a ∈ l, Framed (events a)) :
    Framed (l.flatMap events) := by
  induction l with
  | nil => exact framed_nil
  | cons a l ih =>
      rw [List.forall_mem_cons] at each
      exact each.1.append (ih each.2)

theorem chain_textEvents (s : Str) :
    (textEvents s).IsChain fun a b => ¬(isText a = true ∧ isText b = true) := by
  induction s with
  | nil => exact List.IsChain.nil
  | cons c s ih =>
      have behind (e : Event) (other : isText e = false) :
          (e :: textEvents s).IsChain fun a b => ¬(isText a = true ∧ isText b = true) := by
        rw [List.isChain_cons]
        refine ⟨fun _ _ both => ?_, ih⟩
        rw [other] at both
        exact Bool.false_ne_true both.1
      rw [textEvents]
      split
      · exact behind _ rfl
      · split
        · exact behind _ rfl
        · split
          · rename_i chars rest shape
            rw [shape, List.isChain_cons] at ih
            rw [List.isChain_cons]
            exact ⟨ih.1, ih.2⟩
          · rename_i other
            rw [List.isChain_cons]
            refine ⟨fun b first both => ?_, ih⟩
            obtain ⟨rest, shape⟩ := List.head?_eq_some_iff.mp first
            cases b with
            | text chars => exact other chars rest shape
            | _ => exact Bool.false_ne_true both.2

/-- Text before an end tag. -/
theorem framed_text (s : Str) (e : Event) (other : isText e = false) :
    Framed (textEvents s ++ [e]) := by
  constructor
  · apply List.IsChain.append (chain_textEvents s) (List.IsChain.singleton e)
    intro a _ b first both
    cases first
    rw [other] at both
    exact Bool.false_ne_true both.2
  · intro b last
    rw [List.getLast?_concat] at last
    cases last
    exact other

theorem no_text_propsEvents (block : Block) : ∀ e ∈ propsEvents block, isText e = false := by
  have kind : ∀ e ∈ kindEvents block, isText e = false := by
    unfold kindEvents
    cases block.blockType with
    | heading => simp [valEvent, isText]
    | listItem => simp [valEvent, isText]
    | _ => simp
  have align : ∀ e ∈ alignEvents block, isText e = false := by
    unfold alignEvents
    split
    · simp [valEvent, isText]
    · simp
  have indent : ∀ e ∈ indentEvents block, isText e = false := by
    unfold indentEvents
    cases block.indentMm with
    | none => simp
    | some mm => simp [isText]
  have spacing : ∀ e ∈ spacingEvents block, isText e = false := by
    unfold spacingEvents
    split
    · simp [isText]
    · simp
  unfold propsEvents
  simp only [List.forall_mem_append]
  exact ⟨⟨⟨kind, align⟩, indent⟩, spacing⟩

theorem no_text_markEvents (span : InlineSpan) : ∀ e ∈ markEvents span, isText e = false := by
  unfold markEvents
  simp only [List.forall_mem_append]
  refine ⟨⟨⟨?_, ?_⟩, ?_⟩, ?_⟩
  · split
    · simp [isText]
    · simp
  · split
    · simp [isText]
    · simp
  · split
    · simp [isText]
    · simp
  · split
    · simp [isText]
    · simp

theorem framed_spanEvents (span : InlineSpan) : Framed (spanEvents span) := by
  have props : Framed (runPropsEvents span) := by
    unfold runPropsEvents
    split
    · apply framed_of_no_text
      simp only [List.forall_mem_cons, List.forall_mem_append]
      exact ⟨rfl, no_text_markEvents span, rfl, fun _ none_ => by cases none_⟩
    · exact framed_nil
  have opened : Framed [.start (w "r") []] := framed_of_no_text _ (by simp [isText])
  have text : Framed [.start (w "t") [("xml:space".toList, "preserve".toList)]] :=
    framed_of_no_text _ (by simp [isText])
  have closed : Framed [.stop (w "r")] := framed_of_no_text _ (by simp [isText])
  have whole :=
    opened.append
      (props.append (text.append ((framed_text span.text (.stop (w "t")) rfl).append closed)))
  unfold spanEvents
  simpa using whole

theorem framed_blockEvents (block : Block) : Framed (blockEvents block) := by
  unfold blockEvents
  split
  · exact framed_of_no_text _ (by simp [breakEvents, isText])
  · have opened : Framed [.start (w "p") []] := framed_of_no_text _ (by simp [isText])
    have closed : Framed [.stop (w "p")] := framed_of_no_text _ (by simp [isText])
    have props : Framed (pPrEvents block) := by
      unfold pPrEvents
      split
      · exact framed_nil
      · apply framed_of_no_text
        simp only [List.forall_mem_cons, List.forall_mem_append]
        exact ⟨rfl, no_text_propsEvents block, rfl, fun _ none_ => by cases none_⟩
    have inlines : Framed (inlineEvents block.inlines) := by
      unfold inlineEvents
      split
      · exact framed_of_no_text _ (by simp [isText])
      · exact framed_flatMap _ _ fun span _ => framed_spanEvents span
    exact opened.append ((props.append inlines).append closed)

/-! ### Well-formed tags -/

theorem ok_tag (name : Str) (isName : IsName name) :
    EventOk (.start name []) ∧ EventOk (.empty name []) ∧ EventOk (.stop name) :=
  ⟨⟨isName, attrsOk_nil⟩, ⟨isName, attrsOk_nil⟩, isName⟩

theorem ok_markEvents (span : InlineSpan) : ∀ e ∈ markEvents span, EventOk e := by
  have underline : EventOk (.empty (w "u") [(w "val", "single".toList)]) :=
    ok_valEvent "u" _ (by decide) (List.all_eq_true.mp (by decide))
  have optional (flag : Bool) (e : Event) (ok : EventOk e) :
      ∀ d ∈ (if flag then [e] else []), EventOk d := by
    split
    · intro d member
      rwa [List.mem_singleton.mp member]
    · simp
  unfold markEvents
  simp only [List.forall_mem_append]
  exact ⟨⟨⟨optional _ _ (ok_tag (w "b") (by decide)).2.1,
    optional _ _ (ok_tag (w "i") (by decide)).2.1⟩,
    optional _ _ underline⟩, optional _ _ (ok_tag (w "strike") (by decide)).2.1⟩

theorem ok_spanEvents (span : InlineSpan) (plain : PlainSpan span) :
    ∀ e ∈ spanEvents span, EventOk e := by
  have run := ok_tag (w "r") (by decide)
  have props := ok_tag (w "rPr") (by decide)
  have text := ok_tag (w "t") (by decide)
  have preserve : EventOk (.start (w "t") [("xml:space".toList, "preserve".toList)]) :=
    ⟨text.1.1, attrsOk_of_keys _ ["xml:space".toList] rfl (by decide) (by decide)
      (by simpa using List.all_eq_true.mp (by decide : "preserve".toList.all valueChar = true))⟩
  have within : ∀ e ∈ runPropsEvents span, EventOk e := by
    unfold runPropsEvents
    split
    · simp only [List.forall_mem_cons, List.forall_mem_append]
      exact ⟨props.1, ok_markEvents span, props.2.2, fun _ none_ => by cases none_⟩
    · simp
  unfold spanEvents
  simp only [List.forall_mem_cons, List.forall_mem_append]
  exact ⟨run.1, within, preserve, ok_textEvents span.text plain.text, text.2.2, run.2.2,
    fun _ none_ => by cases none_⟩

theorem ok_blockEvents (block : Block) (exportable : Exportable block) :
    ∀ e ∈ blockEvents block, EventOk e := by
  have paragraph := ok_tag (w "p") (by decide)
  have run := ok_tag (w "r") (by decide)
  have text := ok_tag (w "t") (by decide)
  unfold blockEvents
  split
  · have page : EventOk (.empty (w "br") [(w "type", "page".toList)]) :=
      ⟨by decide, attrsOk_of_keys _ [w "type"] rfl (by decide) (by decide)
        (by simpa using List.all_eq_true.mp (by decide : "page".toList.all valueChar = true))⟩
    unfold breakEvents
    simp only [List.forall_mem_cons]
    exact ⟨paragraph.1, run.1, page, run.2.2, paragraph.2.2, fun _ none_ => by cases none_⟩
  · have props := ok_tag (w "pPr") (by decide)
    have within : ∀ e ∈ pPrEvents block, EventOk e := by
      unfold pPrEvents
      split
      · simp
      · simp only [List.forall_mem_cons, List.forall_mem_append]
        exact ⟨props.1, ok_propsEvents block exportable, props.2.2, fun _ none_ => by cases none_⟩
    have inlines : ∀ e ∈ inlineEvents block.inlines, EventOk e := by
      unfold inlineEvents
      split
      · simp only [List.forall_mem_cons]
        exact ⟨run.1, text.1, text.2.2, run.2.2, fun _ none_ => by cases none_⟩
      · intro e member
        obtain ⟨span, inside, here⟩ := List.mem_flatMap.mp member
        exact ok_spanEvents span (exportable.spans span inside) e here
    simp only [List.forall_mem_cons, List.forall_mem_append]
    exact ⟨paragraph.1, ⟨within, inlines⟩, paragraph.2.2, fun _ none_ => by cases none_⟩

theorem ok_referenceEvents (name id : String) (margin : Str) (isName : IsName (w name))
    (clear : id.toList.all valueChar = true) :
    ∀ e ∈ referenceEvents name id margin, EventOk e := by
  unfold referenceEvents
  split
  · have attrs := attrsOk_of_keys [(w "type", "default".toList), ("r:id".toList, id.toList)]
      [w "type", "r:id".toList] rfl
      (by decide) (by decide) (by
        simp only [List.forall_mem_cons]
        exact ⟨List.all_eq_true.mp (by decide), List.all_eq_true.mp clear, fun _ none_ =>
          by cases none_⟩)
    intro e member
    rw [List.mem_singleton.mp member]
    exact ⟨isName, attrs⟩
  · simp

theorem ok_sectEvents (doc : EradDocument) : ∀ e ∈ sectEvents doc, EventOk e := by
  have sect := ok_tag (w "sectPr") (by decide)
  have size :
      EventOk (.empty (w "pgSz")
        [(w "w", decimal (pageWidth doc.page)), (w "h", decimal (pageHeight doc.page))]) :=
    ⟨by decide, attrsOk_of_keys _ [w "w", w "h"] rfl (by decide) (by decide) (by
      simp only [List.forall_mem_cons]
      exact ⟨decimal_clear _, decimal_clear _, fun _ none_ => by cases none_⟩)⟩
  have margins (m : Nat) :
      EventOk (.empty (w "pgMar") [(w "top", decimal m), (w "right", decimal m),
        (w "bottom", decimal m), (w "left", decimal m)]) :=
    ⟨by decide, attrsOk_of_keys _ [w "top", w "right", w "bottom", w "left"] rfl (by decide)
      (by decide) (by
      simp only [List.forall_mem_cons]
      exact ⟨decimal_clear _, decimal_clear _, decimal_clear _, decimal_clear _, fun _ none_ =>
        by cases none_⟩)⟩
  unfold sectEvents
  simp only [List.forall_mem_cons, List.forall_mem_append]
  exact ⟨sect.1, size, margins _, ⟨ok_referenceEvents _ _ _ (by decide) (by decide),
    ok_referenceEvents _ _ _ (by decide) (by decide)⟩, sect.2.2, fun _ none_ => by cases none_⟩

/-! ### The elements nest -/

theorem nest_empties (open_ : List Str) (events : List Event)
    (empties : ∀ e ∈ events, ∃ name attrs, e = .empty name attrs) :
    nest open_ events = some open_ := by
  induction events with
  | nil => rfl
  | cons e events ih =>
      rw [List.forall_mem_cons] at empties
      obtain ⟨name, attrs, rfl⟩ := empties.1
      rw [nest]
      exact ih empties.2

/-- Events that leave the elements open that were. -/
def Closed (events : List Event) : Prop :=
  ∀ outer rest, nest (outer :: rest) events = some (outer :: rest)

theorem Closed.append {front back : List Event} (first : Closed front) (second : Closed back) :
    Closed (front ++ back) := by
  intro outer rest
  rw [nest_append front back _ _ (first outer rest)]
  exact second outer rest

theorem closed_nil : Closed [] := fun _ _ => rfl

theorem closed_flatMap {α : Type} (l : List α) (events : α → List Event)
    (each : ∀ a ∈ l, Closed (events a)) :
    Closed (l.flatMap events) := by
  induction l with
  | nil => exact closed_nil
  | cons a l ih =>
      rw [List.forall_mem_cons] at each
      exact each.1.append (ih each.2)

theorem closed_empties (events : List Event)
    (empties : ∀ e ∈ events, ∃ name attrs, e = .empty name attrs) : Closed events :=
  fun outer rest => nest_empties (outer :: rest) events empties

/-- An element around events. -/
theorem closed_element (name : Str) (attrs : List (Str × Str)) (events : List Event)
    (inner : Closed events) :
    Closed (.start name attrs :: (events ++ [Event.stop name])) := by
  intro outer rest
  rw [nest, nest_append events _ _ _ (inner name (outer :: rest)), nest, if_pos rfl]
  rfl

theorem closed_textEvents (s : Str) : Closed (textEvents s) := by
  induction s with
  | nil => exact closed_nil
  | cons c s ih =>
      have reference (name : Str) : Closed (.ref name :: textEvents s) := by
        intro outer rest
        rw [nest, if_neg (List.cons_ne_nil _ _)]
        exact ih outer rest
      have text (chars : Str) (events : List Event) (inner : Closed events) :
          Closed (.text chars :: events) := by
        intro outer rest
        rw [nest, if_neg fun both => List.cons_ne_nil _ _ both.1]
        exact inner outer rest
      rw [textEvents]
      split
      · exact reference _
      · split
        · exact reference _
        · split
          · rename_i chars rest shape
            apply text
            intro outer more
            have inner := ih outer more
            rw [shape, nest, if_neg fun both => List.cons_ne_nil _ _ both.1] at inner
            exact inner
          · exact text _ _ ih

theorem closed_optional (flag : Prop) [Decidable flag] (e : Event)
    (empty : ∃ name attrs, e = .empty name attrs) :
    Closed (if flag then [e] else []) := by
  split
  · apply closed_empties
    intro d member
    rw [List.mem_singleton.mp member]
    exact empty
  · exact closed_nil

theorem closed_propsEvents (block : Block) : Closed (propsEvents block) := by
  have kind : Closed (kindEvents block) := by
    unfold kindEvents
    cases block.blockType with
    | heading => exact closed_empties _ (by simp [valEvent])
    | listItem => exact closed_element _ _ [_, _] (closed_empties _ (by simp [valEvent]))
    | _ => exact closed_nil
  have indent : Closed (indentEvents block) := by
    unfold indentEvents
    cases block.indentMm with
    | none => exact closed_nil
    | some mm => exact closed_empties _ (by simp)
  exact ((kind.append (closed_optional _ _ ⟨_, _, rfl⟩)).append indent).append
    (closed_optional _ _ ⟨_, _, rfl⟩)

theorem closed_spanEvents (span : InlineSpan) : Closed (spanEvents span) := by
  have marks : Closed (markEvents span) :=
    (((closed_optional _ _ ⟨_, _, rfl⟩).append (closed_optional _ _ ⟨_, _, rfl⟩)).append
      (closed_optional _ _ ⟨_, _, rfl⟩)).append (closed_optional _ _ ⟨_, _, rfl⟩)
  have props : Closed (runPropsEvents span) := by
    unfold runPropsEvents
    split
    · exact closed_element _ _ _ marks
    · exact closed_nil
  have text :=
    closed_element (w "t") [("xml:space".toList, "preserve".toList)] _ (closed_textEvents span.text)
  have whole := closed_element (w "r") [] _ (props.append text)
  unfold spanEvents
  simpa using whole

theorem closed_blockEvents (block : Block) : Closed (blockEvents block) := by
  unfold blockEvents
  split
  · have run := closed_element (w "r") [] _
      (closed_empties [.empty (w "br") [(w "type", "page".toList)]] (by simp))
    exact closed_element (w "p") [] _ run
  · have props : Closed (pPrEvents block) := by
      unfold pPrEvents
      split
      · exact closed_nil
      · exact closed_element _ _ _ (closed_propsEvents block)
    have inlines : Closed (inlineEvents block.inlines) := by
      unfold inlineEvents
      split
      · exact closed_element (w "r") [] _ (closed_element (w "t") [] _ closed_nil)
      · exact closed_flatMap _ _ fun span _ => closed_spanEvents span
    exact closed_element _ _ _ (props.append inlines)

theorem closed_sectEvents (doc : EradDocument) : Closed (sectEvents doc) := by
  have reference (name id : String) (margin : Str) : Closed (referenceEvents name id margin) :=
    closed_optional _ _ ⟨_, _, rfl⟩
  have sizes :=
    closed_empties [.empty (w "pgSz")
      [(w "w", decimal (pageWidth doc.page)), (w "h", decimal (pageHeight doc.page))],
    .empty (w "pgMar") [(w "top", decimal (doc.page.marginsMm.toNat * 56)),
      (w "right", decimal (doc.page.marginsMm.toNat * 56)),
      (w "bottom", decimal (doc.page.marginsMm.toNat * 56)),
      (w "left", decimal (doc.page.marginsMm.toNat * 56))]] (by simp)
  have whole := closed_element (w "sectPr") [] _
    (sizes.append ((reference "headerReference" "rIdHdr" (marginXml "hdr" doc.header)).append
    (reference "footerReference" "rIdFtr" (marginXml "ftr" doc.footer))))
  unfold sectEvents
  simpa using whole

/-- The events of an exported document are as a reader returns them. -/
theorem tidy_documentEvents (doc : EradDocument)
    (exportable : ∀ block ∈ doc.blocks, Exportable block) : Tidy (documentEvents doc) := by
  have namespaces :
      EventOk (.start (w "document")
        [("xmlns:w".toList, wNs), ("xmlns:r".toList, relationships)]) :=
    ⟨by decide, attrsOk_of_keys _ ["xmlns:w".toList, "xmlns:r".toList] rfl (by decide) (by decide)
      (by
      simp only [List.forall_mem_cons]
      exact ⟨List.all_eq_true.mp (by decide), List.all_eq_true.mp (by decide), fun _ none_ =>
        by cases none_⟩)⟩
  have body := ok_tag (w "body") (by decide)
  have document := ok_tag (w "document") (by decide)
  have blocks : ∀ e ∈ doc.blocks.flatMap blockEvents, EventOk e := by
    intro e member
    obtain ⟨block, inside, here⟩ := List.mem_flatMap.mp member
    exact ok_blockEvents block (exportable block inside) e here
  constructor
  · unfold documentEvents
    simp only [List.forall_mem_cons, List.forall_mem_append]
    exact ⟨⟨List.cons_ne_nil _ _, List.all_eq_true.mp (by decide)⟩, namespaces, body.1,
      ⟨blocks, ok_sectEvents doc⟩, body.2.2, document.2.2,
      fun _ none_ => by cases none_⟩
  · have opened := framed_of_no_text
      [.start (w "document") [("xmlns:w".toList, wNs), ("xmlns:r".toList, relationships)],
        .start (w "body") []] (by simp [isText])
    have closing := framed_of_no_text [.stop (w "body"), .stop (w "document")] (by simp [isText])
    have sect : Framed (sectEvents doc) := by
      apply framed_of_no_text
      have reference (name id : String) (margin : Str) :
          ∀ e ∈ referenceEvents name id margin, isText e = false := by
        unfold referenceEvents
        split
        · simp [isText]
        · simp
      unfold sectEvents
      simp only [List.forall_mem_cons, List.forall_mem_append]
      exact ⟨rfl, rfl, rfl, ⟨reference _ _ _, reference _ _ _⟩, rfl, fun _ none_ => by cases none_⟩
    have rest :=
      opened.append
        (((framed_flatMap doc.blocks blockEvents fun block _ => framed_blockEvents block).append
          sect).append closing)
    unfold documentEvents
    rw [List.isChain_cons]
    refine ⟨fun e first both => ?_, rest.chain⟩
    cases first
    exact Bool.false_ne_true both.2
  · have inner := closed_element (w "body") [] _
      ((closed_flatMap doc.blocks blockEvents fun block _ => closed_blockEvents block).append
      (closed_sectEvents doc))
    unfold documentEvents
    rw [nest, if_neg fun both => both.2 rfl, nest, ← List.cons_append]
    have split :
        (Event.start (w "body") [] :: (doc.blocks.flatMap blockEvents ++ sectEvents doc)) ++
          [Event.stop (w "body"), .stop (w "document")] =
        (Event.start (w "body") [] :: ((doc.blocks.flatMap blockEvents ++ sectEvents doc) ++
          [Event.stop (w "body")])) ++ [Event.stop (w "document")] := by
      simp
    rw [split, nest_append _ _ _ _ (inner _ _), nest, if_pos rfl]
    rfl

end EraOne.Docs
