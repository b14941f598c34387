import EraOne.Maps
import EraOne.PgArray
import EraOne.Search

set_option autoImplicit false

/- The redirect URIs of OIDC clients in `services/platform/internal/oidc/pgstore.go`. -/
namespace EraOne.OidcRedirects

open PgArray

structure Row where
  secret : Str
  redirectUris : List (Option Str)
  deriving DecidableEq, Repr

/-- The table of clients. -/
abbrev Clients := StrMap Row

def nul : Char := Char.ofNat 0

/-- The separator that the code splits at. -/
def unit : Char := Char.ofNat 0x1e

/-- The separator that the query joins with. -/
def sep : Str := "\\x1e".toList

def escapeQuote (c : Char) : Str := if c = '"' then ['\\', '"'] else [c]

def quote (e : Str) : Str := '"' :: (e.flatMap escapeQuote ++ ['"'])

def pgTextArray (elems : List Str) : Str :=
  if elems = [] then ['{', '}']
  else '{' :: (List.intercalate [','] (elems.map quote) ++ ['}'])

/-- A query with texts as parameters, which hold no null character. -/
def exec {α : Type} (params : List Str) (query : Option α) : Option α :=
  if ∀ p ∈ params, nul ∉ p then query else none

def createClient (db : Clients) (clientID secret : Str) (redirectURIs : List Str) :
    Option Clients :=
  exec [clientID, secret, pgTextArray redirectURIs] <|
    match readArray (pgTextArray redirectURIs), db[clientID]? with
    | some uris, none => some (db.insert clientID { secret := secret, redirectUris := uris })
    | _, _ => none

def updateClient (db : Clients) (clientID secret : Str) (redirectURIs : List Str) :
    Option Clients :=
  exec [clientID, secret, pgTextArray redirectURIs] <|
    match readArray (pgTextArray redirectURIs) with
    | some uris =>
        match db[clientID]? with
        | some row =>
            some (db.insert clientID
              { secret := if secret ≠ [] then secret else row.secret, redirectUris := uris })
        | none => some db
    | none => none

def getClient (db : Clients) (clientID : Str) : Option (Str × Str × List Str) :=
  exec [clientID] <|
    match db[clientID]? with
    | some row =>
        let uris := arrayToString row.redirectUris sep
        some (clientID, row.secret, if uris ≠ [] then Scan.splitAll [unit] uris else [])
    | none => none

def validateRedirect (db : Clients) (clientID redirectURI : Str) : Bool :=
  (exec [clientID, redirectURI] <|
    match db[clientID]? with
    | some row => if some redirectURI ∈ row.redirectUris then some () else none
    | none => none).isSome

/-- After a call the client has the list, and its members are the redirects that it accepts. -/
def Survives (result : Option Clients) (clientID : Str) (redirectURIs : List Str) : Prop :=
  ∃ db, result = some db ∧
    (∃ secret, getClient db clientID = some (clientID, secret, redirectURIs)) ∧
    ∀ uri, validateRedirect db clientID uri = true ↔ uri ∈ redirectURIs

/-- At most one URI, which is not empty and holds no backslash and no separator. -/
def Simple (redirectURIs : List Str) : Prop :=
  redirectURIs = [] ∨ ∃ uri, redirectURIs = [uri] ∧ uri ≠ [] ∧ '\\' ∉ uri ∧ unit ∉ uri ∧ nul ∉ uri

/-! ### The literal of one URI -/

theorem pgTextArray_singleton (uri : Str) :
    pgTextArray [uri] = ['{', '"'] ++ (uri.flatMap escapeQuote ++ ['"', '}']) := by
  unfold pgTextArray quote
  rw [if_neg (List.cons_ne_nil _ _)]
  simp [List.intercalate]

/-- The items of the rest of a URI, behind what was read of it. -/
def reads (item rest : Str) : List (Option Str) × State :=
  (rest.flatMap escapeQuote ++ ['"', '}']).foldl step ([], .quoted item)

theorem readArray_singleton (uri : Str) (items : List (Option Str)) :
    readArray (pgTextArray [uri]) = some items ↔ reads [] uri = (items, .closed) := by
  rw [readArray_eq_some, pgTextArray_singleton, List.foldl_append]
  rfl

theorem reads_char (item : Str) (c : Char) (rest : Str) (plain : c ≠ '\\') :
    reads item (c :: rest) = reads (item ++ [c]) rest := by
  unfold reads
  rw [List.flatMap_cons, List.append_assoc, List.foldl_append]
  congr 1
  unfold escapeQuote
  by_cases quoted : c = '"'
  · rw [if_pos quoted, quoted]
    rfl
  · rw [if_neg quoted, List.foldl_cons, List.foldl_nil, step]
    dsimp only
    rw [if_neg quoted, if_neg plain]

theorem reads_plain (item uri : Str) (plain : '\\' ∉ uri) :
    reads item uri = ([some (item ++ uri)], .closed) := by
  induction uri generalizing item with
  | nil =>
      rw [List.append_nil]
      rfl
  | cons c uri ih =>
      rw [List.mem_cons, not_or] at plain
      rw [reads_char item c uri (Ne.symm plain.1), ih (item ++ [c]) plain.2, List.append_assoc,
        List.singleton_append]

/-- A backslash takes the next character with it; before a quote it ends the item instead. -/
theorem reads_escape (item : Str) (c : Char) (rest : Str) (other : c ≠ '"') :
    reads item ('\\' :: c :: rest) = reads (item ++ [c]) rest := by
  unfold reads
  rw [List.flatMap_cons, List.flatMap_cons, List.append_assoc, List.append_assoc, List.foldl_append,
    List.foldl_append]
  have alone : escapeQuote c = [c] := if_neg other
  rw [alone]
  rfl

theorem reads_quote (item rest : Str) :
    reads item ('\\' :: '"' :: rest) = (rest.flatMap escapeQuote ++ ['"', '}']).foldl step
      ([], .read (some (item ++ ['\\']))) := by
  unfold reads
  rw [List.flatMap_cons, List.flatMap_cons, List.append_assoc, List.append_assoc, List.foldl_append,
    List.foldl_append]
  rfl

theorem reads_end (item : Str) : reads item ['\\'] = ([], .quoted (item ++ ['"'] ++ ['}'])) := rfl

/-- What is joined begins with what was read. -/
theorem item_of_reads (item rest : Str) (items : List (Option Str))
    (ended : reads item rest = (items, .closed)) :
    item <+: arrayToString items sep := by
  obtain ⟨more, later, shape⟩ := (exists_item _ _ _ _).1 ended
  rw [List.nil_append] at shape
  rw [shape]
  cases arrayToString_some (item ++ more) later sep with
  | inl alone =>
      rw [alone]
      exact List.prefix_append _ _
  | inr followed =>
      obtain ⟨tail, joined⟩ := followed
      rw [joined, List.append_assoc]
      exact List.prefix_append _ _

/-- An item that ends at a quote is followed by nothing or by the separator. -/
theorem reads_quote_ne (item rest next : Str) (items : List (Option Str))
    (ended : reads item ('\\' :: '"' :: rest) = (items, .closed))
    (other : next ≠ [] ∧ next.head? ≠ some '\\' ∨ ∃ c more, next = '\\' :: c :: more ∧ c ≠ 'x') :
    arrayToString items sep ≠ item ++ ('\\' :: next) := by
  rw [reads_quote] at ended
  obtain ⟨later, shape⟩ := (exists_item _ _ _ _).2.2 ended
  rw [List.nil_append] at shape
  rw [shape]
  intro same
  have opened : (item ++ ('\\' :: next)) = (item ++ ['\\']) ++ next := by
    rw [List.append_assoc, List.singleton_append]
  rw [opened] at same
  cases arrayToString_some (item ++ ['\\']) later sep with
  | inl alone =>
      have empty : next = [] := List.self_eq_append_right.mp (alone.symm.trans same)
      rcases other with ⟨some_, -⟩ | ⟨c, more, later', -⟩
      · exact some_ empty
      · rw [empty] at later'
        cases later'
  | inr followed =>
      obtain ⟨more, joined⟩ := followed
      have tail : sep ++ more = next := List.append_cancel_left (joined.symm.trans same)
      rcases other with ⟨-, head⟩ | ⟨c, more', later', different⟩
      · rw [← tail] at head
        exact head rfl
      · rw [later'] at tail
        exact different (List.cons.inj (List.cons.inj tail).2).1.symm

/-- Reading a literal does not put backslashes in front, and keeps none. -/
theorem eq_of_reads (n k : Nat) (item rest : Str) (items : List (Option Str))
    (size : rest.length ≤ n) (ended : reads item rest = (items, .closed))
    (same : arrayToString items sep = item ++ (List.replicate k '\\' ++ rest)) :
    k = 0 ∧ '\\' ∉ rest := by
  induction n generalizing k item rest with
  | zero =>
      have empty := List.eq_nil_of_length_eq_zero (Nat.le_zero.mp size)
      rw [empty] at ended same ⊢
      have whole := congrArg Prod.fst ((reads_plain item [] List.not_mem_nil).symm.trans ended)
      rw [← show [some (item ++ [])] = items from whole, List.append_nil, List.append_nil] at same
      have none_ :=
        List.self_eq_append_right.mp
          (show item = item ++ List.replicate k '\\'
            from by simpa [arrayToString, List.intercalate] using same)
      exact ⟨by simpa using none_, List.not_mem_nil⟩
  | succ n ih =>
      -- A character that is read next stands behind what was read.
      have next (c : Char) (tail : Str) (after : item ++ [c] <+: item ++ ('\\' :: tail)) :
          c = '\\' := by
        have first := (List.prefix_append_right_inj item).mp after
        exact (List.cons_prefix_cons.mp first).1
      have turned (tail : Str) :
          List.replicate k '\\' ++ '\\' :: tail = '\\' :: (List.replicate k '\\' ++ tail) := by
        rw [← List.singleton_append, ← List.append_assoc, ← List.replicate_succ',
          List.replicate_succ, List.cons_append]
      cases rest with
      | nil => exact ih k item [] (Nat.zero_le n) ended same
      | cons c rest =>
          rw [List.length_cons] at size
          by_cases plain : c = '\\'
          · subst plain
            rw [turned] at same
            cases rest with
            | nil =>
                rw [reads_end] at ended
                cases congrArg Prod.snd ended
            | cons c rest =>
                rw [List.length_cons] at size
                by_cases quoted : c = '"'
                · subst quoted
                  apply absurd same
                  apply reads_quote_ne item rest _ items ended
                  cases k with
                  | zero =>
                      exact Or.inl ⟨List.cons_ne_nil _ _, fun head =>
                        absurd (Option.some.inj head) (by decide)⟩
                  | succ k =>
                      right
                      cases k with
                      | zero => exact ⟨'"', rest, rfl, by decide⟩
                      | succ k => exact ⟨'\\', List.replicate k '\\' ++ '"' :: rest, rfl, by decide⟩
                · rw [reads_escape item c rest quoted] at ended
                  have after := item_of_reads _ _ _ ended
                  rw [same] at after
                  have escape := next c _ after
                  rw [escape] at ended same
                  have more := ih (k + 1) (item ++ ['\\']) rest (by omega) ended (by
                    rw [same, turned, List.append_assoc, List.replicate_succ, List.cons_append]
                    rfl)
                  exact absurd more.1 (Nat.succ_ne_zero k)
          · rw [reads_char item c rest plain] at ended
            have after := item_of_reads _ _ _ ended
            rw [same] at after
            cases k with
            | zero =>
                have later := ih 0 (item ++ [c]) rest (by omega) ended (by
                  rw [same, List.append_assoc, List.singleton_append]
                  rfl)
                refine ⟨rfl, ?_⟩
                rw [List.mem_cons, not_or]
                exact ⟨Ne.symm plain, later.2⟩
            | succ k => exact absurd (next c _ after) plain

/-! ### What survives -/

theorem not_mem_pgTextArray (q : Char) (uris : List Str) (outside : q ∉ ['{', '"', '\\', ',', '}'])
    (free : ∀ uri ∈ uris, q ∉ uri) :
    q ∉ pgTextArray uris := by
  simp only [List.mem_cons, List.not_mem_nil, or_false, not_or] at outside
  obtain ⟨opened, quoted, escape, comma, closed⟩ := outside
  have each (uri : Str) (clean : q ∉ uri) : q ∉ quote uri := by
    unfold quote
    simp only [List.mem_cons, List.mem_append, List.mem_flatMap, List.not_mem_nil, or_false, not_or,
      not_exists, not_and]
    refine ⟨quoted, fun c inside => ?_, quoted⟩
    unfold escapeQuote
    split
    · simp [escape, quoted]
    · rw [List.mem_singleton]
      intro same
      exact clean (same ▸ inside)
  unfold pgTextArray
  split
  · simp [opened, closed]
  · simp only [List.mem_cons, List.mem_append, List.not_mem_nil, or_false, not_or]
    refine ⟨opened, not_mem_intercalate q [','] _ (by simpa using comma) ?_, closed⟩
    intro text member
    obtain ⟨uri, within, shape⟩ := List.mem_map.mp member
    rw [← shape]
    exact each uri (free uri within)

theorem mem_pgTextArray (q : Char) (uri : Str) (inside : q ∈ uri) : q ∈ pgTextArray [uri] := by
  rw [pgTextArray_singleton]
  apply List.mem_append_right
  apply List.mem_append_left
  refine List.mem_flatMap.mpr ⟨q, inside, ?_⟩
  unfold escapeQuote
  split
  · rename_i quoted
    simp [quoted]
  · exact List.mem_singleton_self q

/-- A list that is read back from its literal is simple. -/
theorem simple_of_read (uris : List Str) (items : List (Option Str))
    (found : readArray (pgTextArray uris) = some items) (clean : nul ∉ pgTextArray uris)
    (back : uris =
      if arrayToString items sep ≠ [] then Scan.splitAll [unit] (arrayToString items sep) else []) :
    Simple uris := by
  by_cases empty : arrayToString items sep = []
  · rw [if_neg (not_not_intro empty)] at back
    exact Or.inl back
  · rw [if_pos empty] at back
    have free : ∀ uri ∈ uris, unit ∉ uri := by
      intro uri member
      rw [back] at member
      exact Scan.not_mem_splitAll unit _ uri member
    have joined : unit ∉ arrayToString items sep :=
      not_mem_arrayToString unit items sep (not_mem_item unit _ items found
        (not_mem_pgTextArray unit uris (by decide) free)) (by decide)
    rw [Scan.splitAll_quiet [unit] _ (List.cons_ne_nil _ _)
      (Scan.quiet_of_not_mem unit [] _ joined)] at back
    right
    refine ⟨arrayToString items sep, back, empty, ?_, joined, ?_⟩
    · rw [back, readArray_singleton] at found
      exact (eq_of_reads _ 0 [] _ items (le_refl _) found rfl).2
    · intro member
      apply clean
      rw [back]
      exact mem_pgTextArray nul _ member

/-- A simple list is read back from its literal. -/
theorem read_of_simple (uris : List Str) (simple : Simple uris) :
    readArray (pgTextArray uris) = some (uris.map some) ∧ nul ∉ pgTextArray uris ∧
      uris =
        if arrayToString (uris.map some) sep ≠ [] then
          Scan.splitAll [unit] (arrayToString (uris.map some) sep)
        else [] := by
  rcases simple with rfl | ⟨uri, rfl, some_, plain, single, clean⟩
  · exact ⟨by decide, by decide, by decide⟩
  · refine ⟨?_, ?_, ?_⟩
    · rw [readArray_singleton, reads_plain [] uri plain]
      rfl
    · apply not_mem_pgTextArray nul [uri] (by decide)
      intro other member
      rwa [List.mem_singleton.mp member]
    · have alone : arrayToString ([uri].map some) sep = uri := by
        simp [arrayToString, List.intercalate]
      rw [alone, if_pos some_, Scan.splitAll_quiet [unit] _ (List.cons_ne_nil _ _)
        (Scan.quiet_of_not_mem unit [] _ single)]

/-- What a client with the items of a literal answers. -/
theorem survives_insert_iff (db : Clients) (clientID secret : Str) (uris : List Str)
    (items : List (Option Str)) (found : readArray (pgTextArray uris) = some items)
    (clean : nul ∉ pgTextArray uris) (valid : nul ∉ clientID) :
    Survives (some (db.insert clientID { secret := secret, redirectUris := items })) clientID uris ↔
      Simple uris := by
  have row : (db.insert clientID { secret := secret, redirectUris := items })[clientID]? = some
      { secret := secret, redirectUris := items } := by
    rw [Maps.getElem?_insert_eq, if_pos rfl]
  have gets : getClient (db.insert clientID { secret := secret, redirectUris := items }) clientID =
      some (clientID, secret,
        if arrayToString items sep ≠ [] then Scan.splitAll [unit] (arrayToString items sep)
        else []) := by
    unfold getClient exec
    rw [row, if_pos (by simpa using valid)]
  constructor
  · rintro ⟨db', same, ⟨secret', got⟩, -⟩
    rw [← Option.some.inj same, gets] at got
    exact simple_of_read uris items found clean
      (Prod.ext_iff.mp (Prod.ext_iff.mp (Option.some.inj got)).2).2.symm
  · intro simple
    obtain ⟨found', -, back⟩ := read_of_simple uris simple
    have same : items = uris.map some := Option.some.inj (found.symm.trans found')
    refine ⟨_, rfl, ⟨secret, ?_⟩, ?_⟩
    · rw [gets, same, ← back]
    · intro uri
      unfold validateRedirect exec
      rw [row]
      dsimp only
      have listed : some uri ∈ items ↔ uri ∈ uris := by
        rw [same]
        simp
      by_cases member : uri ∈ uris
      · have free : nul ∉ uri := by
          rcases simple with rfl | ⟨other, rfl, -, -, -, free⟩
          · exact absurd member List.not_mem_nil
          · rwa [List.mem_singleton.mp member]
        rw [if_pos (by simpa using ⟨valid, free⟩), if_pos (listed.mpr member)]
        exact iff_of_true rfl member
      · rw [if_neg (mt listed.mp member), ite_self]
        exact iff_of_false (by decide) member

/-- The list survives exactly if it has at most one URI, which is simple, and the other texts can be
stored. -/
theorem redirects_survive_iff (db : Clients) (clientID secret : Str) (uris : List Str) :
    (db[clientID]? = none →
        (Survives (createClient db clientID secret uris) clientID uris ↔ Simple uris ∧
          nul ∉ clientID ∧ nul ∉ secret)) ∧
      ∀ row, db[clientID]? = some row →
        (Survives (updateClient db clientID secret uris) clientID uris ↔ Simple uris ∧
          nul ∉ clientID ∧ nul ∉ secret) := by
  have failed : ¬ Survives none clientID uris := by
    rintro ⟨db', none_, -⟩
    cases none_
  have params : (∀ p ∈ [clientID, secret, pgTextArray uris], nul ∉ p) ↔ nul ∉ clientID ∧
      nul ∉ secret ∧ nul ∉ pgTextArray uris := by
    simp
  -- Either the call fails, on a list that is not simple, or it stores what the literal holds.
  have either (result : Option Clients) (query : List (Option Str) → Clients)
      (shape : result = exec [clientID, secret, pgTextArray uris]
        ((readArray (pgTextArray uris)).map query))
      (stores : ∀ items, ∃ secret', query items = db.insert clientID
        { secret := secret', redirectUris := items }) :
      Survives result clientID uris ↔ Simple uris ∧ nul ∉ clientID ∧ nul ∉ secret := by
    by_cases clean : nul ∉ clientID ∧ nul ∉ secret ∧ nul ∉ pgTextArray uris
    · unfold exec at shape
      rw [if_pos (params.mpr clean)] at shape
      cases found : readArray (pgTextArray uris) with
      | none =>
          rw [found] at shape
          rw [shape]
          refine iff_of_false failed fun fits => ?_
          rw [(read_of_simple uris fits.1).1] at found
          cases found
      | some items =>
          obtain ⟨secret', stored⟩ := stores items
          rw [found, Option.map_some, stored] at shape
          rw [shape, survives_insert_iff db clientID secret' uris items found clean.2.2 clean.1]
          exact (and_iff_left ⟨clean.1, clean.2.1⟩).symm
    · unfold exec at shape
      rw [if_neg (mt params.mp clean)] at shape
      rw [shape]
      refine iff_of_false failed fun fits =>
        clean ⟨fits.2.1, fits.2.2, (read_of_simple uris fits.1).2.1⟩
  constructor
  · intro absent
    apply either _ fun items => db.insert clientID { secret := secret, redirectUris := items }
    · unfold createClient
      rw [absent]
      cases readArray (pgTextArray uris) with
      | none => rfl
      | some items => rfl
    · intro items
      exact ⟨secret, rfl⟩
  · intro row present
    apply either _ fun items => db.insert clientID
      { secret := if secret ≠ [] then secret else row.secret, redirectUris := items }
    · unfold updateClient
      rw [present]
      cases readArray (pgTextArray uris) with
      | none => rfl
      | some items => rfl
    · intro items
      exact ⟨_, rfl⟩

/-- Two plain URIs come back as one. -/
theorem two_redirects_lost :
    ¬ ∀ (db : Clients) (clientID secret : Str) (uris : List Str), db[clientID]? = none →
      Survives (createClient db clientID secret uris) clientID uris := by
  intro survive
  obtain ⟨db, created, ⟨secret, got⟩, -⟩ :=
    survive ∅ "web".toList "s".toList ["https://a/cb".toList, "https://b/cb".toList] (by decide)
  have back :
      ((createClient ∅ "web".toList "s".toList ["https://a/cb".toList, "https://b/cb".toList]).bind
        fun db =>
      getClient db "web".toList).map (fun client => client.2.2.length) = some 1 := by decide
  rw [created, Option.bind_some, got] at back
  exact absurd (show 2 = 1 from Option.some.inj back) (by decide)

end EraOne.OidcRedirects
