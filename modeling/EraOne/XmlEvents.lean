import EraOne.Strings

set_option autoImplicit false

/- Events of a pull parser for XML, the text they are written as, and readers of that text. -/
namespace EraOne.Xml

inductive Event where
  | decl (content : Str)
  | start (name : Str) (attrs : List (Str × Str))
  | empty (name : Str) (attrs : List (Str × Str))
  | stop (name : Str)
  | text (chars : Str)
  | ref (name : Str)
  deriving DecidableEq, Repr

def renderAttr (attr : Str × Str) : Str := ' ' :: (attr.1 ++ '=' :: '"' :: (attr.2 ++ ['"']))

def renderTag (name : Str) (attrs : List (Str × Str)) : Str := name ++ attrs.flatMap renderAttr

def render : Event → Str
  | .decl content => '<' :: '?' :: (content ++ ['?', '>'])
  | .start name attrs => '<' :: (renderTag name attrs ++ ['>'])
  | .empty name attrs => '<' :: (renderTag name attrs ++ ['/', '>'])
  | .stop name => '<' :: '/' :: (name ++ ['>'])
  | .text chars => chars
  | .ref name => '&' :: (name ++ [';'])

theorem render_start (name : Str) (attrs : List (Str × Str)) :
    render (.start name attrs) = '<' :: (renderTag name attrs ++ ['>']) := rfl

theorem render_empty (name : Str) (attrs : List (Str × Str)) :
    render (.empty name attrs) = '<' :: (renderTag name attrs ++ ['/', '>']) := rfl

theorem render_stop (name : Str) : render (.stop name) = '<' :: '/' :: (name ++ ['>']) := rfl

def renderAll (events : List Event) : Str := events.flatMap render

@[simp] theorem renderAll_nil : renderAll [] = [] := rfl

@[simp] theorem renderAll_cons (e : Event) (events : List Event) :
    renderAll (e :: events) = render e ++ renderAll events := List.flatMap_cons

@[simp] theorem renderAll_append (front back : List Event) :
    renderAll (front ++ back) = renderAll front ++ renderAll back := List.flatMap_append

/-! ### Well-formed events -/

def nameChar (c : Char) : Bool := c.isAlphanum || c = ':' || c = '_' || c = '-' || c = '.'

def valueChar (c : Char) : Bool := c ≠ '<' && c ≠ '>' && c ≠ '&' && c ≠ '"'

def textChar (c : Char) : Bool := c ≠ '<' && c ≠ '&' && (32 ≤ c.toNat || c = '\n')

def declChar (c : Char) : Bool := nameChar c || c = ' ' || c = '=' || c = '"'

def IsName (name : Str) : Prop := name ≠ [] ∧ ∀ c ∈ name, nameChar c = true

instance (name : Str) : Decidable (IsName name) :=
  decidable_of_iff (name ≠ [] ∧ name.all nameChar = true) (by rw [List.all_eq_true, IsName])

structure AttrsOk (attrs : List (Str × Str)) : Prop where
  names : ∀ attr ∈ attrs, IsName attr.1
  values : ∀ attr ∈ attrs, ∀ c ∈ attr.2, valueChar c = true
  distinct : (attrs.map Prod.fst).Nodup

/-- Attributes whose keys are known. -/
theorem attrsOk_of_keys (attrs : List (Str × Str)) (keys : List Str)
    (same : attrs.map Prod.fst = keys) (names : ∀ key ∈ keys, IsName key) (distinct : keys.Nodup)
    (values : ∀ attr ∈ attrs, ∀ c ∈ attr.2, valueChar c = true) : AttrsOk attrs where
  names := by
    intro attr member
    apply names
    rw [← same]
    exact List.mem_map_of_mem member
  values := values
  distinct := by rwa [same]

theorem attrsOk_nil : AttrsOk [] := ⟨by simp, by simp, List.nodup_nil⟩

def EventOk : Event → Prop
  | .decl content => ∀ c ∈ content, declChar c = true
  | .start name attrs => IsName name ∧ AttrsOk attrs
  | .empty name attrs => IsName name ∧ AttrsOk attrs
  | .stop name => IsName name
  | .text chars => chars ≠ [] ∧ ∀ c ∈ chars, textChar c = true
  | .ref name => IsName name

def isText : Event → Bool
  | .text _ => true
  | _ => false

/-- The elements that are open behind some events, innermost first, where the events nest. Outside
elements there is no text but a line end. -/
def nest : List Str → List Event → Option (List Str)
  | open_, [] => some open_
  | open_, .start name _ :: events => nest (name :: open_) events
  | open_, .empty _ _ :: events => nest open_ events
  | [], .stop _ :: _ => none
  | innermost :: open_, .stop name :: events => if innermost = name then nest open_ events else none
  | open_, .text chars :: events => if open_ = [] ∧ chars ≠ ['\n'] then none else nest open_ events
  | open_, .ref _ :: events => if open_ = [] then none else nest open_ events
  | _, .decl _ :: _ => none

theorem nest_append (front back : List Event) (open_ open' : List Str)
    (inner : nest open_ front = some open') :
    nest open_ (front ++ back) = nest open' back := by
  induction front generalizing open_ with
  | nil =>
      rw [nest, Option.some.injEq] at inner
      rw [inner, List.nil_append]
  | cons e front ih =>
      rw [List.cons_append]
      cases e with
      | decl content => cases inner
      | start name attrs =>
          rw [nest] at inner ⊢
          exact ih _ inner
      | empty name attrs =>
          rw [nest] at inner ⊢
          exact ih _ inner
      | stop name =>
          cases open_ with
          | nil => cases inner
          | cons innermost open_ =>
              rw [nest] at inner ⊢
              by_cases same : innermost = name
              · rw [if_pos same] at inner ⊢
                exact ih _ inner
              · rw [if_neg same] at inner
                cases inner
      | text chars =>
          rw [nest] at inner ⊢
          by_cases outside : open_ = [] ∧ chars ≠ ['\n']
          · rw [if_pos outside] at inner
            cases inner
          · rw [if_neg outside] at inner ⊢
            exact ih _ inner
      | ref name =>
          rw [nest] at inner ⊢
          by_cases outside : open_ = []
          · rw [if_pos outside] at inner
            cases inner
          · rw [if_neg outside] at inner ⊢
            exact ih _ inner

/-- Events as a reader returns them: each well formed, no text split in two, elements nested. -/
structure Tidy (events : List Event) : Prop where
  ok : ∀ e ∈ events, EventOk e
  apart : events.IsChain fun a b => ¬(isText a = true ∧ isText b = true)
  nested : nest [] events = some []

/-- A library that reads documents: it returns the events of a text that was written from them, and
resolves no reference as a character that does not start as one. -/
structure Reader where
  read : Str → Option (List Event)
  charRef : Str → Option Char
  reads : ∀ content events, EventOk (.decl content) → Tidy events →
    read (renderAll (.decl content :: events)) = some (.decl content :: events)
  named : ∀ name, name.head? ≠ some '#' → charRef name = none

/-! ### A reader -/

/-- The attributes of a tag, from the blank before the first. -/
def readAttrs : Nat → Str → List (Str × Str)
  | fuel + 1, ' ' :: s =>
      let behind := (s.dropWhile (· ≠ '=')).drop 2
      (s.takeWhile (· ≠ '='), behind.takeWhile (· ≠ '"')) ::
        readAttrs fuel ((behind.dropWhile (· ≠ '"')).drop 1)
  | _, _ => []

def readTag (inner : Str) : Str × List (Str × Str) :=
  (inner.takeWhile (· ≠ ' '), readAttrs inner.length (inner.dropWhile (· ≠ ' ')))

/-- What stands between `<` and `>`. -/
def readMarkup (inner : Str) : Event :=
  match inner with
  | '?' :: rest => .decl rest.dropLast
  | '/' :: name => .stop name
  | _ =>
      if inner.getLast? = some '/' then .empty (readTag inner.dropLast).1 (readTag inner.dropLast).2
      else .start (readTag inner).1 (readTag inner).2

def plainText (c : Char) : Bool := c ≠ '<' && c ≠ '&'

def readEvents : Nat → Str → List Event
  | 0, _ => []
  | _, [] => []
  | fuel + 1, c :: s =>
      if c = '<' then readMarkup (s.takeWhile (· ≠ '>')) :: readEvents fuel
        ((s.dropWhile (· ≠ '>')).drop 1)
      else if c = '&' then .ref (s.takeWhile (· ≠ ';')) :: readEvents fuel
        ((s.dropWhile (· ≠ ';')).drop 1)
      else .text ((c :: s).takeWhile plainText) :: readEvents fuel ((c :: s).dropWhile plainText)

/-- A run ends where the first other element stands. -/
theorem cut_at {α : Type} (p : α → Bool) (front back : List α) (b : α)
    (inside : ∀ a ∈ front, p a = true) (stops : p b = false) :
    (front ++ b :: back).takeWhile p = front ∧ (front ++ b :: back).dropWhile p = b :: back := by
  rw [List.takeWhile_append_of_pos inside, List.dropWhile_append_of_pos inside,
    List.takeWhile_cons_of_neg (by simp [stops]), List.dropWhile_cons_of_neg (by simp [stops]),
    List.append_nil]
  exact ⟨rfl, rfl⟩

theorem nameChar_ne (c : Char) (name : nameChar c = true) (d : Char) (other : nameChar d = false) :
    c ≠ d := by
  rintro rfl
  rw [name] at other
  cases other

theorem readAttrs_render (attrs : List (Str × Str)) (fuel : Nat) (ok : AttrsOk attrs)
    (enough : attrs.length ≤ fuel) :
    readAttrs fuel (attrs.flatMap renderAttr) = attrs := by
  induction attrs generalizing fuel with
  | nil => cases fuel <;> rfl
  | cons attr attrs ih =>
      cases fuel with
      | zero => exact absurd enough (Nat.not_succ_le_zero _)
      | succ fuel =>
          have rest := ih fuel ⟨fun a member => ok.names a (List.mem_cons_of_mem _ member),
            fun a member => ok.values a (List.mem_cons_of_mem _ member),
              (List.nodup_cons.mp ok.distinct).2⟩
            (Nat.le_of_succ_le_succ enough)
          have key :=
            cut_at (· ≠ '=') attr.1 ('"' :: (attr.2 ++ '"' :: attrs.flatMap renderAttr)) '='
              (fun c member => by
                simpa using
                  nameChar_ne c ((ok.names attr List.mem_cons_self).2 c member) '=' (by decide))
              (by decide)
          have value := cut_at (· ≠ '"') attr.2 (attrs.flatMap renderAttr) '"'
            (fun c member => by
              have plain := ok.values attr List.mem_cons_self c member
              unfold valueChar at plain
              simp only [Bool.and_eq_true, decide_eq_true_eq] at plain
              simpa using plain.2)
            (by decide)
          have shape : (attr :: attrs).flatMap renderAttr =
              ' ' :: (attr.1 ++ '=' :: '"' :: (attr.2 ++ '"' :: attrs.flatMap renderAttr)) := by
            simp [renderAttr]
          rw [shape, readAttrs, key.1, key.2, List.drop_succ_cons, List.drop_succ_cons,
            List.drop_zero, value.1, value.2, List.drop_succ_cons, List.drop_zero, rest]

theorem length_attrs_le (attrs : List (Str × Str)) :
    attrs.length ≤ (attrs.flatMap renderAttr).length := by
  induction attrs with
  | nil => exact le_rfl
  | cons attr attrs ih =>
      rw [List.flatMap_cons, List.length_append, List.length_cons, renderAttr, List.length_cons]
      omega

theorem readTag_render (name : Str) (attrs : List (Str × Str)) (isName : IsName name)
    (ok : AttrsOk attrs) :
    readTag (renderTag name attrs) = (name, attrs) := by
  have clear : ∀ c ∈ name, decide (c ≠ ' ') = true :=
    fun c member => by simpa using nameChar_ne c (isName.2 c member) ' ' (by decide)
  have parts : (renderTag name attrs).takeWhile (· ≠ ' ') = name ∧
      (renderTag name attrs).dropWhile (· ≠ ' ') = attrs.flatMap renderAttr := by
    cases attrs with
    | nil =>
        rw [renderTag, List.flatMap_nil, List.append_nil]
        exact ⟨List.takeWhile_eq_self_iff.mpr clear, List.dropWhile_eq_nil_iff.mpr clear⟩
    | cons attr attrs => exact cut_at (· ≠ ' ') name _ ' ' clear (by decide)
  have enough : attrs.length ≤ (renderTag name attrs).length := by
    have less := length_attrs_le attrs
    rw [renderTag, List.length_append]
    omega
  rw [readTag, parts.1, parts.2, readAttrs_render attrs _ ok enough]

/-- A tag ends with no slash of its own. -/
theorem last_renderTag (name : Str) (attrs : List (Str × Str)) (isName : IsName name) :
    (renderTag name attrs).getLast? ≠ some '/' := by
  unfold renderTag
  cases List.eq_nil_or_concat' attrs with
  | inl none =>
      rw [none, List.flatMap_nil, List.append_nil]
      intro last
      exact absurd (isName.2 '/' (List.mem_of_getLast? last)) (by decide)
  | inr some_ =>
      obtain ⟨front, attr, shape⟩ := some_
      have ends : name ++ attrs.flatMap renderAttr =
          (name ++ (front.flatMap renderAttr ++ ' ' :: (attr.1 ++ '=' :: '"' :: attr.2))) ++
            ['"'] := by
        rw [shape]
        simp [renderAttr]
      rw [ends, List.getLast?_concat]
      decide

theorem head_renderTag (name : Str) (attrs : List (Str × Str)) (isName : IsName name) (back : Str) :
    ∃ c tail, renderTag name attrs ++ back = c :: tail ∧ nameChar c = true := by
  obtain ⟨some_, chars⟩ := isName
  cases name with
  | nil => exact absurd rfl some_
  | cons c name => exact ⟨c, _, rfl, chars c List.mem_cons_self⟩

theorem readMarkup_tag (inner : Str) (c : Char) (tail : Str) (shape : inner = c :: tail)
    (name : nameChar c = true) :
    readMarkup inner =
      if inner.getLast? = some '/' then .empty (readTag inner.dropLast).1 (readTag inner.dropLast).2
      else .start (readTag inner).1 (readTag inner).2 := by
  rw [shape]
  unfold readMarkup
  split
  · rename_i rest same
    have first : c = '?' := (List.cons.inj same).1
    exact absurd first (nameChar_ne c name '?' (by decide))
  · rename_i rest same
    have first : c = '/' := (List.cons.inj same).1
    exact absurd first (nameChar_ne c name '/' (by decide))
  · rfl

/-- What a well-formed tag is read as. -/
theorem readMarkup_render (name : Str) (attrs : List (Str × Str)) (isName : IsName name)
    (ok : AttrsOk attrs) :
    readMarkup (renderTag name attrs) = .start name attrs ∧
      readMarkup (renderTag name attrs ++ ['/']) = .empty name attrs := by
  constructor
  · obtain ⟨c, tail, shape, first⟩ := head_renderTag name attrs isName []
    rw [List.append_nil] at shape
    rw [readMarkup_tag _ c tail shape first, if_neg (last_renderTag name attrs isName),
      readTag_render name attrs isName ok]
  · obtain ⟨c, tail, shape, first⟩ := head_renderTag name attrs isName ['/']
    rw [readMarkup_tag _ c tail shape first, if_pos (by rw [List.getLast?_concat]),
      List.dropLast_concat, readTag_render name attrs isName ok]

theorem renderTag_clear (name : Str) (attrs : List (Str × Str)) (isName : IsName name)
    (ok : AttrsOk attrs) :
    ∀ c ∈ renderTag name attrs, decide (c ≠ '>') = true := by
  intro c member
  rw [decide_eq_true_eq]
  rintro rfl
  cases List.mem_append.mp member with
  | inl inName => exact absurd (isName.2 '>' inName) (by decide)
  | inr inAttrs =>
      obtain ⟨attr, inside, here⟩ := List.mem_flatMap.mp inAttrs
      have key := (ok.names attr inside).2 '>'
      have value := ok.values attr inside '>'
      unfold renderAttr at here
      simp only [List.mem_cons, List.mem_append, List.not_mem_nil, or_false] at here
      rcases here with blank | inKey | equals | quote | inValue | quote
      · exact absurd blank (by decide)
      · exact absurd (key inKey) (by decide)
      · exact absurd equals (by decide)
      · exact absurd quote (by decide)
      · exact absurd (value inValue) (by decide)
      · exact absurd quote (by decide)

theorem readEvents_markup (fuel : Nat) (inner back : Str)
    (clear : ∀ c ∈ inner, decide (c ≠ '>') = true) :
    readEvents (fuel + 1) ('<' :: (inner ++ '>' :: back)) = readMarkup inner :: readEvents fuel
      back := by
  have parts := cut_at (· ≠ '>') inner back '>' clear (by decide)
  rw [readEvents, if_pos rfl, parts.1, parts.2, List.drop_succ_cons, List.drop_zero]

theorem readEvents_ref (fuel : Nat) (name back : Str) (isName : IsName name) :
    readEvents (fuel + 1) ('&' :: (name ++ ';' :: back)) = .ref name :: readEvents fuel back := by
  have parts := cut_at (· ≠ ';') name back ';'
    (fun c member => by simpa using nameChar_ne c (isName.2 c member) ';' (by decide)) (by decide)
  rw [readEvents, if_neg (by decide), if_pos rfl, parts.1, parts.2, List.drop_succ_cons,
    List.drop_zero]

theorem readEvents_text (fuel : Nat) (chars back : Str) (ok : EventOk (.text chars))
    (stops : ∀ c ∈ back.head?, plainText c = false) :
    readEvents (fuel + 1) (chars ++ back) = .text chars :: readEvents fuel back := by
  obtain ⟨some_, clear⟩ := ok
  have plain : ∀ c ∈ chars, plainText c = true := by
    intro c member
    have char := clear c member
    unfold textChar at char
    unfold plainText
    simp only [Bool.and_eq_true] at char ⊢
    exact char.1
  have parts : (chars ++ back).takeWhile plainText = chars ∧
      (chars ++ back).dropWhile plainText = back := by
    cases back with
    | nil =>
        rw [List.append_nil]
        exact ⟨List.takeWhile_eq_self_iff.mpr plain, List.dropWhile_eq_nil_iff.mpr plain⟩
    | cons b back => exact cut_at plainText chars back b plain (stops b rfl)
  cases chars with
  | nil => exact absurd rfl some_
  | cons c chars =>
      have first := plain c List.mem_cons_self
      unfold plainText at first
      simp only [Bool.and_eq_true, decide_eq_true_eq] at first
      rw [List.cons_append] at parts ⊢
      rw [readEvents, if_neg first.1, if_neg first.2, parts.1, parts.2]

/-- What stands behind a text begins with no character of a text. -/
theorem head_of_apart (e : Event) (events : List Event)
    (apart : (e :: events).IsChain fun a b => ¬(isText a = true ∧ isText b = true))
    (text : isText e = true) :
    ∀ c ∈ (renderAll events).head?, plainText c = false := by
  intro c first
  cases events with
  | nil => cases first
  | cons next events =>
      have other := (List.isChain_cons_cons.mp apart).1
      rw [renderAll_cons] at first
      cases next with
      | text chars => exact absurd ⟨text, rfl⟩ other
      | decl content => cases first; rfl
      | start name attrs => cases first; rfl
      | empty name attrs => cases first; rfl
      | stop name => cases first; rfl
      | ref name => cases first; rfl

/-- Events are read back from the text they are written as. -/
theorem readEvents_render (events : List Event) (fuel : Nat) (ok : ∀ e ∈ events, EventOk e)
    (apart : events.IsChain fun a b => ¬(isText a = true ∧ isText b = true))
    (enough : (renderAll events).length ≤ fuel) : readEvents fuel (renderAll events) = events := by
  induction events generalizing fuel with
  | nil => cases fuel <;> rfl
  | cons e events ih =>
      have here := ok e List.mem_cons_self
      have rest (fuel : Nat) (enough : (renderAll events).length ≤ fuel) := ih fuel
        (fun d member => ok d (List.mem_cons_of_mem _ member)) apart.tail enough
      rw [renderAll_cons] at enough ⊢
      rw [List.length_append] at enough
      cases fuel with
      | zero =>
          have positive : 0 < (render e).length := by
            cases e with
            | text chars => exact List.length_pos_of_ne_nil here.1
            | decl content => exact Nat.succ_pos _
            | start name attrs => exact Nat.succ_pos _
            | empty name attrs => exact Nat.succ_pos _
            | stop name => exact Nat.succ_pos _
            | ref name => exact Nat.succ_pos _
          omega
      | succ fuel =>
          cases e with
          | decl content =>
              have clear : ∀ c ∈ '?' :: (content ++ ['?']), decide (c ≠ '>') = true := by
                intro c member
                rw [decide_eq_true_eq]
                rintro rfl
                simp only [List.mem_cons, List.mem_append, List.not_mem_nil, or_false] at member
                rcases member with mark | inside | mark
                · exact absurd mark (by decide)
                · exact absurd (here '>' inside) (by decide)
                · exact absurd mark (by decide)
              have shape : render (.decl content) ++ renderAll events =
                  '<' :: ('?' :: (content ++ ['?']) ++ '>' :: renderAll events) := by
                simp [render]
              have size : (render (.decl content)).length = content.length + 4 := by simp [render]
              rw [shape, readEvents_markup fuel _ _ clear, rest fuel (by omega), readMarkup,
                List.dropLast_concat]
          | start name attrs =>
              have shape : render (.start name attrs) ++ renderAll events =
                  '<' :: (renderTag name attrs ++ '>' :: renderAll events) := by
                simp [render]
              have size : (render (.start name attrs)).length = (renderTag name attrs).length +
                  2 := by simp [render]
              rw [shape, readEvents_markup fuel _ _ (renderTag_clear name attrs here.1 here.2),
                rest fuel (by omega),
                (readMarkup_render name attrs here.1 here.2).1]
          | empty name attrs =>
              have shape : render (.empty name attrs) ++ renderAll events =
                  '<' :: (renderTag name attrs ++ ['/'] ++ '>' :: renderAll events) := by
                simp [render]
              have size : (render (.empty name attrs)).length = (renderTag name attrs).length +
                  3 := by simp [render]
              have clear : ∀ c ∈ renderTag name attrs ++ ['/'], decide (c ≠ '>') = true := by
                intro c member
                cases List.mem_append.mp member with
                | inl inTag => exact renderTag_clear name attrs here.1 here.2 c inTag
                | inr slash =>
                    rw [List.mem_singleton.mp slash]
                    decide
              rw [shape, readEvents_markup fuel _ _ clear, rest fuel (by omega),
                (readMarkup_render name attrs here.1 here.2).2]
          | stop name =>
              have shape : render (.stop name) ++ renderAll events =
                  '<' :: (('/' :: name) ++ '>' :: renderAll events) := by
                simp [render]
              have size : (render (.stop name)).length = name.length + 3 := by simp [render]
              have clear : ∀ c ∈ '/' :: name, decide (c ≠ '>') = true := by
                intro c member
                cases List.mem_cons.mp member with
                | inl slash =>
                    rw [slash]
                    decide
                | inr inName => simpa using nameChar_ne c (here.2 c inName) '>' (by decide)
              rw [shape, readEvents_markup fuel _ _ clear, rest fuel (by omega)]
              rfl
          | text chars =>
              have positive := List.length_pos_of_ne_nil here.1
              have size : (render (.text chars)).length = chars.length := rfl
              have read_ := readEvents_text fuel chars (renderAll events) here
                (head_of_apart (.text chars) events apart rfl)
              rw [rest fuel (by omega)] at read_
              exact read_
          | ref name =>
              have shape : render (.ref name) ++ renderAll events = '&' ::
                  (name ++ ';' :: renderAll events) := by
                simp [render]
              have size : (render (.ref name)).length = name.length + 2 := by simp [render]
              rw [shape, readEvents_ref fuel name _ here, rest fuel (by omega)]

/-- A reader that does not check that elements nest. -/
def plainReader : Reader where
  read := fun s => some (readEvents s.length s)
  charRef := fun _ => none
  reads := by
    intro content events declOk tidy
    rw [Option.some.injEq]
    apply readEvents_render _ _ _ _ le_rfl
    · intro e member
      cases List.mem_cons.mp member with
      | inl first =>
          rw [first]
          exact declOk
      | inr later => exact tidy.ok e later
    · cases events with
      | nil => exact List.IsChain.singleton _
      | cons next events =>
          exact List.isChain_cons_cons.mpr ⟨fun both => Bool.false_ne_true both.1, tidy.apart⟩
  named := fun _ _ => rfl

end EraOne.Xml
