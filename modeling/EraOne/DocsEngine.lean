import EraOne.DocsSync

set_option autoImplicit false

/- The docs engine of `server.rs` and `persist.rs`: live sessions in memory, one JSON blob
per document in storage and, when enabled, one op log row per document in Postgres. -/
namespace EraOne.Docs

/-! ### The texts of an op -/

def InlineSpan.texts (span : InlineSpan) : List Str :=
  span.text ::
    (span.linkUrl.toList ++ span.fontFamily.toList ++ span.color.toList ++ span.highlight.toList)

def Block.texts (block : Block) : List Str :=
  block.id ::
    (block.lineSpacing.toList ++ block.styleName.toList ++ block.imageUrl.toList ++
      block.bookmarkName.toList ++ block.lang.toList ++ (block.tableCells.getD []).flatten ++
      block.inlines.flatMap InlineSpan.texts)

def MarkArgs.texts (marks : MarkArgs) : List Str :=
  marks.linkUrl.toList ++ marks.fontFamily.toList ++ marks.color.toList ++ marks.highlight.toList

def DocOp.texts : DocOp → List Str
  | .insertText blockId _ text marks => blockId :: text :: marks.toList.flatMap InlineSpan.texts
  | .deleteRange blockId _ _ => [blockId]
  | .setBlockType blockId _ _ => [blockId]
  | .insertBlock afterId block => afterId :: block.texts
  | .splitBlock blockId _ newBlockId => [blockId, newBlockId]
  | .mergeBlocks blockId _ => [blockId]
  | .setMarksRange blockId _ _ marks => blockId :: marks.texts
  | .setInlineMarks blockId marks => blockId :: marks.linkUrl.toList
  | .setBlockFormat blockId fmt => blockId :: (fmt.lineSpacing.toList ++ fmt.styleName.toList)
  | .addComment id blockId authorId text _ _ quote => [id, blockId, authorId, text] ++ quote.toList
  | .resolveComment id => [id]

/-- No text of the op has a NUL character in it. -/
def DocOp.nulFree (op : DocOp) : Bool := op.texts.all fun text => !text.contains '\x00'

/-- A transform moves offsets. -/
theorem nulFree_transformAgainst (op prev : DocOp) :
    (op.transformAgainst prev).nulFree = op.nulFree := by
  have texts : (op.transformAgainst prev).texts = op.texts := by
    cases op <;> cases prev <;> simp only [DocOp.transformAgainst] <;> repeat' split
    all_goals rfl
  unfold DocOp.nulFree
  rw [texts]

/-- The serialised forms the engine writes: JSON as `serde_json` makes and reads it, and the
`jsonb` column, which may refuse an array. -/
structure Wire where
  Json : Type
  docToJson : EradDocument → Json
  docFromJson : Json → Option EradDocument
  opToJson : DocOp → Json
  opFromJson : Json → Option DocOp
  columnTakes : List Json → Bool

/-- What is written reads back, and the column refuses a text with a NUL character. -/
structure Wire.Faithful (w : Wire) : Prop where
  doc : ∀ doc, w.docFromJson (w.docToJson doc) = some doc
  op : ∀ op, w.opFromJson (w.opToJson op) = some op
  column : ∀ ops : List DocOp, w.columnTakes (ops.map w.opToJson) = ops.all DocOp.nulFree

/-- Values as their own JSON. -/
def Wire.tagged : Wire where
  Json := EradDocument ⊕ DocOp
  docToJson := .inl
  docFromJson := Sum.getLeft?
  opToJson := .inr
  opFromJson := Sum.getRight?
  columnTakes := fun items => (items.filterMap Sum.getRight?).all DocOp.nulFree

theorem Wire.tagged_faithful : Wire.tagged.Faithful where
  doc := fun _ => rfl
  op := fun _ => rfl
  column := fun ops => by simp [Wire.tagged, List.filterMap_map]

inductive StatusCode where
  | forbidden | notFound | internalServerError
  deriving DecidableEq, Repr

structure Principal where
  tenantId : Str
  userId : Str
  deriving DecidableEq, Repr

structure SessionStore where
  logs : StrMap OpLog
  docs : StrMap EradDocument
  tenants : StrMap Str

def SessionStore.empty : SessionStore := ⟨∅, ∅, ∅⟩

/-- A row of `era_platform.doc_sessions`. -/
structure DocSession (w : Wire) where
  tenantId : Str
  driveObjectId : Str
  version : Int
  opsJson : List w.Json

structure AppState (w : Wire) where
  licenseOk : Bool
  sessions : SessionStore
  /-- The blob of a tenant's object; access control is the storage's own. -/
  storage : Str → Str → Option w.Json
  pg : Option (List (DocSession w))

variable {w : Wire}

namespace PgPersist

def isSession (tenantId objectId : Str) (row : DocSession w) : Bool :=
  row.tenantId = tenantId ∧ row.driveObjectId = objectId

/-- `ON CONFLICT DO NOTHING`. -/
def ensureSession (rows : List (DocSession w)) (tenantId objectId : Str) : List (DocSession w) :=
  if rows.any (isSession tenantId objectId) then rows
  else rows ++ [⟨tenantId, objectId, 0, []⟩]

/-- Ops that no longer decode are skipped. -/
def loadLog (rows : List (DocSession w)) (tenantId objectId : Str) : OpLog :=
  match rows.find? (isSession tenantId objectId) with
  | some row => ⟨row.version.toNat, row.opsJson.filterMap w.opFromJson⟩
  | none => OpLog.empty

def saveLog (rows : List (DocSession w)) (tenantId objectId : Str) (log : OpLog) :
    Option (List (DocSession w)) :=
  let json := log.ops.map w.opToJson
  if w.columnTakes json then
    if rows.any (isSession tenantId objectId) then
      some (rows.map fun row =>
        if isSession tenantId objectId row then
          { row with version := asIsize log.version, opsJson := json }
        else row)
    else some (rows ++ [⟨tenantId, objectId, asIsize log.version, json⟩])
  else none

def tenantForObject (rows : List (DocSession w)) (objectId : Str) : Option Str :=
  (rows.find? (fun row => row.driveObjectId = objectId)).map (·.tenantId)

end PgPersist

open PgPersist

namespace AppState

/-- `storage.put` for a known object id. -/
def put (state : AppState w) (tenantId objectId : Str) (json : w.Json) : AppState w :=
  { state with storage := fun t o =>
      if t = tenantId ∧ o = objectId then some json else state.storage t o }

def initSession (state : AppState w) (tenantId objectId : Str) (doc : EradDocument) :
    AppState w :=
  { state with
    sessions :=
      { logs := state.sessions.logs.insert objectId OpLog.empty
        docs := state.sessions.docs.insert objectId doc
        tenants := state.sessions.tenants.insert objectId tenantId }
    pg := state.pg.map fun rows => ensureSession rows tenantId objectId }

/-- The tenant a document is loaded under when no session holds it. -/
def tenantOf (state : AppState w) (objectId : Str) (principal : Principal) :
    Except StatusCode Str :=
  match state.sessions.tenants[objectId]? with
  | some tenantId => .ok tenantId
  | none =>
      match state.pg with
      | some rows =>
          match tenantForObject rows objectId with
          | some tenantId =>
              if tenantId ≠ principal.tenantId then .error .forbidden else .ok tenantId
          | none => .error .notFound
      -- Without Postgres the token's tenant is trusted and storage enforces access.
      | none => .ok principal.tenantId

/-- The blob, with the op log replayed over it when there is one, becomes the session. -/
def openSession (state : AppState w) (tenantId objectId : Str) (base : EradDocument) :
    AppState w × EradDocument :=
  let loaded :=
    match state.pg with
    | some rows =>
        let log := loadLog rows tenantId objectId
        (log, log.replay base)
    | none => (state.sessions.logs[objectId]?.getD OpLog.empty, base)
  ({ state with
      sessions :=
        { logs := state.sessions.logs.insert objectId loaded.1
          docs := state.sessions.docs.insert objectId loaded.2
          tenants := state.sessions.tenants.insert objectId tenantId } }, loaded.2)

def documentFor (state : AppState w) (objectId : Str) (principal : Principal) :
    AppState w × Except StatusCode EradDocument :=
  if state.sessions.tenants[objectId]?.any (· ≠ principal.tenantId) then
    (state, .error .forbidden)
  else
    match state.sessions.docs[objectId]? with
    | some doc => (state, .ok doc)
    | none =>
        match tenantOf state objectId principal with
        | .error code => (state, .error code)
        | .ok tenantId =>
            if tenantId ≠ principal.tenantId then (state, .error .forbidden)
            else
              match state.storage tenantId objectId with
              | none => (state, .error .notFound)
              | some json =>
                  match w.docFromJson json with
                  | none => (state, .error .internalServerError)
                  | some base =>
                      let opened := openSession state tenantId objectId base
                      (opened.1, .ok opened.2)

/-- The op as `apply_sync_op` applies it: transformed against the last logged op. -/
def transformedOp (state : AppState w) (objectId : Str) (op : DocOp) : DocOp :=
  match state.sessions.logs[objectId]? with
  | some log =>
      match log.ops.getLast? with
      | some prev => op.transformAgainst prev
      | none => op
  | none => op

def applySyncOp (state : AppState w) (objectId : Str) (op : DocOp) :
    AppState w × Except StatusCode (Nat × DocOp) :=
  let transformed := transformedOp state objectId op
  let docs :=
    match state.sessions.docs[objectId]? with
    | some doc => state.sessions.docs.insert objectId (applyOp doc transformed)
    | none => state.sessions.docs
  match state.sessions.logs[objectId]? with
  | none => ({ state with sessions := { state.sessions with docs := docs } }, .error .notFound)
  | some log =>
      let log := log.append transformed
      let sessions :=
        { state.sessions with logs := state.sessions.logs.insert objectId log, docs := docs }
      match state.pg, state.sessions.tenants[objectId]? with
      | some rows, some tenantId =>
          match saveLog rows tenantId objectId log with
          | some rows =>
              ({ state with sessions := sessions, pg := some rows }, .ok (log.version, transformed))
          | none => ({ state with sessions := sessions }, .error .internalServerError)
      | _, _ => ({ state with sessions := sessions }, .ok (log.version, transformed))

/-- The common end of `create_doc` and `import_doc`; storage chooses the object id. -/
def storeDoc (state : AppState w) (principal : Principal) (objectId : Str) (doc : EradDocument) :
    AppState w × Except StatusCode Str :=
  if state.licenseOk then
    let stored := state.put principal.tenantId objectId (w.docToJson doc)
    (stored.initSession principal.tenantId objectId doc, .ok objectId)
  else (state, .error .forbidden)

def createDoc (state : AppState w) (principal : Principal) (objectId uuid : Str) :
    AppState w × Except StatusCode Str :=
  state.storeDoc principal objectId (EradDocument.empty uuid)

def snapshot (state : AppState w) (principal : Principal) (objectId : Str) :
    AppState w × Except StatusCode Unit :=
  if state.licenseOk then
    match state.documentFor objectId principal with
    | (state, .ok doc) => (state.put principal.tenantId objectId (w.docToJson doc), .ok ())
    | (state, .error code) => (state, .error code)
  else (state, .error .forbidden)

/-- The engine process starts again: sessions are gone, storage and Postgres are kept. -/
def restart (state : AppState w) : AppState w := { state with sessions := SessionStore.empty }

end AppState

end EraOne.Docs
