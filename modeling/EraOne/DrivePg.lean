import EraOne.DriveModel
import EraOne.Like

set_option autoImplicit false

/- The drive's metadata in Postgres (`pgstore.go` and the `platform` migrations). A table is a map
from its primary key or the list of its rows; a statement is what it reads or changes, and a
violated constraint is an error. `collate` is the database's order of texts, `lower` its lower case
and that of Go. -/
namespace EraOne.Drive

open Scan Like

structure FolderRow where
  id : Str
  tenantID : Str
  parentID : Str
  name : Str
  createdAt : Time
  trashedAt : Option Time := none
  trashRestoreParentID : Option Str := none
  deriving DecidableEq

structure ObjectRow where
  id : Str
  tenantID : Str
  folderID : Str
  name : Str
  sizeBytes : Nat
  contentType : Str
  contentFormat : Int32
  version : Int32
  blobKey : Str
  ownerUserID : Str
  updatedAt : Time
  lockedBy : Option Str := none
  lockedAt : Option Time := none
  trashedAt : Option Time := none
  trashRestoreFolderID : Option Str := none
  deriving DecidableEq

structure VersionRow where
  objectID : Str
  version : Version
  deriving DecidableEq

structure AclRow where
  objectID : Str
  entry : ACLEntry
  deriving DecidableEq

/-- `tenants` has the slug of each id. -/
structure PgStore where
  tenants : StrMap Str
  folders : StrMap FolderRow
  objects : StrMap ObjectRow
  versions : List VersionRow
  acl : List AclRow

def newPgStore : PgStore := ⟨∅, ∅, ∅, [], []⟩

/-- `scanFolderProps`: a missing text is empty. -/
def FolderRow.scan (row : FolderRow) : Folder :=
  ⟨row.id, row.tenantID, row.parentID, row.name, row.createdAt, row.trashedAt,
    row.trashRestoreParentID.getD []⟩

/-- `scanObjectProps`, with the access list that is loaded after it. -/
def ObjectRow.scan (row : ObjectRow) (acl : List ACLEntry) : Object :=
  { id := row.id, tenantID := row.tenantID, folderID := row.folderID, name := row.name
    sizeBytes := row.sizeBytes, contentType := row.contentType
    contentFormat := row.contentFormat, version := row.version, blobKey := row.blobKey
    ownerUserID := row.ownerUserID, acl := acl, updatedAt := row.updatedAt
    lockedBy := row.lockedBy.getD [], lockedAt := row.lockedAt, trashedAt := row.trashedAt
    trashRestoreFolderID := row.trashRestoreFolderID.getD [] }

/-- The columns that an `INSERT` of an object names. -/
def insertedRow (obj : Object) : ObjectRow :=
  { id := obj.id, tenantID := obj.tenantID, folderID := obj.folderID, name := obj.name
    sizeBytes := obj.sizeBytes, contentType := obj.contentType
    contentFormat := obj.contentFormat, version := obj.version, blobKey := obj.blobKey
    ownerUserID := obj.ownerUserID, updatedAt := obj.updatedAt }

/-- The statement that `UpdateObject` ends with: it writes the lock as the call has it. -/
def ObjectRow.setMeta (row : ObjectRow) (obj : Object) (now : Time) : ObjectRow :=
  { row with
    name := obj.name, folderID := obj.folderID, updatedAt := now
    lockedBy := if obj.lockedBy ≠ [] then some obj.lockedBy else none
    lockedAt := if obj.lockedBy ≠ [] then some (obj.lockedAt.getD now) else none }

/-- The statement that `PutVersion` ends with. -/
def ObjectRow.setContent (row : ObjectRow) (obj : Object) : ObjectRow :=
  { row with
    version := obj.version, blobKey := obj.blobKey, sizeBytes := obj.sizeBytes
    contentType := obj.contentType, updatedAt := obj.updatedAt }

/-- What `UpdateObject` decides between its statements. -/
def planObject (env : Env) (p : Principal) (patch : ObjectPatch) (obj : Object) :
    Except DriveErr Object := do
  refuse (¬ canWrite obj p) .forbidden
  refuse ((patch.name.isSome ∨ patch.folderID.isSome) ∧ ¬ canMutateWhileLocked obj p) .locked
  let obj ← patchLock obj p env.now patch.locked
  let name ← patchName obj.name patch.name
  return { obj with
    name := name, folderID := patch.folderID.getD obj.folderID, updatedAt := env.now }

/-- What `PutVersion` decides between its statements. -/
def planVersion (env : Env) (p : Principal) (input : PutVersionInput) (blobKey : Str)
    (obj : Object) : Except DriveErr Object := do
  refuse (¬ canWrite obj p) .forbidden
  refuse (¬ canMutateWhileLocked obj p) .locked
  return nextVersion env obj input blobKey

def likeContainsPattern (q : Str) : Str :=
  let q := replaceAll ['\\'] ['\\', '\\'] q
  let q := replaceAll ['%'] ['\\', '%'] q
  let q := replaceAll ['_'] ['\\', '_'] q
  '%' :: q ++ ['%']

namespace PgStore

section Statements

variable (lower : Str → Str) (collate : Str → Str → Bool)

/-- The slug is unique too, which the conflict clause does not name. -/
def ensureTenant (db : PgStore) (tenantID : Str) : Except DriveErr PgStore :=
  let tenantID := if tenantID = [] then "t-demo".toList else tenantID
  if tenantID ∈ db.tenants then .ok db
  else if db.tenants.toList.any fun e => e.2 = lower tenantID then .error .database
  else .ok { db with tenants := db.tenants.insert tenantID (lower tenantID) }

/-- The entries of an object as they were written. -/
def aclOf (db : PgStore) (objectID : Str) : List ACLEntry :=
  (db.acl.filter fun row => row.objectID = objectID).map (·.entry)

def loadACL (db : PgStore) (objectID : Str) : List ACLEntry :=
  (db.aclOf objectID).mergeSort fun a b => collate a.principal b.principal

def versionsOf (db : PgStore) (objectID : Str) : List Version :=
  (db.versions.filter fun row => row.objectID = objectID).map (·.version)

def fetchFolder (db : PgStore) (folderID : Str) : Except DriveErr Folder :=
  match db.folders[folderID]? with
  | some row => .ok row.scan
  | none => .error .notFound

def fetchObject (db : PgStore) (objectID : Str) : Except DriveErr Object :=
  match db.objects[objectID]? with
  | some row => .ok (row.scan (db.loadACL collate objectID))
  | none => .error .notFound

/-- `INSERT` of entries one by one; an object has one entry for a principal. -/
def insertACL (objectID : Str) : List AclRow → List ACLEntry → Except DriveErr (List AclRow)
  | rows, [] => .ok rows
  | rows, e :: entries =>
      if rows.any fun row => row.objectID = objectID ∧ row.entry.principal = e.principal then
        .error .database
      else insertACL objectID (rows ++ [⟨objectID, e⟩]) entries

def insertVersion (db : PgStore) (objectID : Str) (version : Version) :
    Except DriveErr (List VersionRow) :=
  if db.versions.any fun row => row.objectID = objectID ∧ row.version.version = version.version
  then .error .database
  else .ok (db.versions ++ [⟨objectID, version⟩])

/-- `UPDATE … WHERE id AND tenant_id`. -/
def updateObjectRow (db : PgStore) (tenantID objectID : Str) (set_ : ObjectRow → ObjectRow) :
    PgStore :=
  match db.objects[objectID]? with
  | some row =>
      if row.tenantID = tenantID then { db with objects := db.objects.insert objectID (set_ row) }
      else db
  | none => db

def updateFolderRow (db : PgStore) (tenantID folderID : Str) (set_ : FolderRow → FolderRow) :
    PgStore :=
  match db.folders[folderID]? with
  | some row =>
      if row.tenantID = tenantID then { db with folders := db.folders.insert folderID (set_ row) }
      else db
  | none => db

def anyFolder (db : PgStore) (p : FolderRow → Bool) : Bool :=
  db.folders.toList.any fun e => p e.2

def anyObject (db : PgStore) (p : ObjectRow → Bool) : Bool :=
  db.objects.toList.any fun e => p e.2

def selectFolders (db : PgStore) (p : FolderRow → Bool) (order : FolderRow → FolderRow → Bool) :
    List Folder :=
  (((db.folders.toList.map Prod.snd).filter p).mergeSort order).map FolderRow.scan

/-- The rows with their access lists, as far as the caller may read them. -/
def selectObjects (db : PgStore) (p : ObjectRow → Bool) (order : ObjectRow → ObjectRow → Bool)
    (pr : Principal) : List Object :=
  ((((db.objects.toList.map Prod.snd).filter p).mergeSort order).map fun row =>
    row.scan (db.loadACL collate row.id)).filter fun obj => canRead obj pr

/-- `ORDER BY trashed_at DESC, name`. -/
def trashOrder (a b : Option Time × Str) : Bool :=
  a.1.getD 0 > b.1.getD 0 ∨ a.1 = b.1 ∧ collate a.2 b.2

end Statements

section Operations

variable (lower : Str → Str) (collate : Str → Str → Bool)

def createFolder (db : PgStore) (env : Env) (tenantID parentID name : Str) :
    Except DriveErr Folder × PgStore :=
  if tenantID = [] ∨ name = [] then (.error .invalidInput, db)
  else
    match db.ensureTenant lower tenantID with
    | .error e => (.error e, db)
    | .ok db =>
        if db.anyFolder fun r => r.tenantID = tenantID ∧ r.parentID = parentID ∧ r.name = name then
          (.error .duplicate, db)
        else
          let row : FolderRow :=
            { id := env.id, tenantID := tenantID, parentID := parentID, name := name
              createdAt := env.now }
          if row.id ∈ db.folders then (.error .database, db)
          else (.ok row.scan, { db with folders := db.folders.insert row.id row })

def listChildren (db : PgStore) (tenantID folderID : Str) (pr : Principal) :
    List Folder × List Object :=
  (db.selectFolders (fun r => r.tenantID = tenantID ∧ r.parentID = folderID ∧ r.trashedAt.isNone)
      fun a b => collate a.name b.name,
    db.selectObjects collate
      (fun r => r.tenantID = tenantID ∧ r.folderID = folderID ∧ r.trashedAt.isNone)
      (fun a b => collate a.name b.name) pr)

def search (db : PgStore) (tenantID query : Str) (pr : Principal) : List Folder × List Object :=
  let q := trim query
  if q.isEmpty then ([], [])
  else
    let ilike := fun name => like (lower (likeContainsPattern q)) (lower name)
    (db.selectFolders (fun r => r.tenantID = tenantID ∧ r.trashedAt.isNone ∧ ilike r.name)
        fun a b => collate a.name b.name,
      db.selectObjects collate (fun r => r.tenantID = tenantID ∧ r.trashedAt.isNone ∧ ilike r.name)
        (fun a b => collate a.name b.name) pr)

def listTrash (db : PgStore) (tenantID : Str) (pr : Principal) : List Folder × List Object :=
  (db.selectFolders (fun r => r.tenantID = tenantID ∧ r.trashedAt.isSome)
      fun a b => trashOrder collate (a.trashedAt, a.name) (b.trashedAt, b.name),
    db.selectObjects collate (fun r => r.tenantID = tenantID ∧ r.trashedAt.isSome)
      (fun a b => trashOrder collate (a.trashedAt, a.name) (b.trashedAt, b.name)) pr)

/-- The transaction of `CreateObject`. -/
def insertObject (db : PgStore) (obj : Object) (now : Time) : Except DriveErr PgStore := do
  refuse (obj.id ∈ db.objects) .database
  let versions ← db.insertVersion obj.id ⟨obj.version, obj.blobKey, obj.sizeBytes, now⟩
  let acl ← insertACL obj.id db.acl obj.acl
  return { db with
    objects := db.objects.insert obj.id (insertedRow obj), versions := versions, acl := acl }

def createObject (db : PgStore) (env : Env) (input : CreateObjectInput) (blobKey : Str) :
    Except DriveErr Object × PgStore :=
  if input.tenantID = [] ∨ input.name = [] ∨ input.ownerUserID = [] then
    (.error .invalidInput, db)
  else
    let blobKey := if blobKey = [] then "pg/".toList ++ env.blobID else blobKey
    match db.ensureTenant lower input.tenantID with
    | .error e => (.error e, db)
    | .ok db =>
        if db.anyObject fun r => r.tenantID = input.tenantID ∧ r.folderID = input.folderID ∧
            r.name = input.name then
          (.error .duplicate, db)
        else
          let obj := newObject env input blobKey
          match db.insertObject obj env.now with
          | .error e => (.error e, db)
          | .ok next => (.ok obj, next)

def lookupObject (db : PgStore) (tenantID objectID : Str) : Except DriveErr Object := do
  let obj ← db.fetchObject collate objectID
  refuse (obj.tenantID ≠ tenantID) .notFound
  return obj

def getObject (db : PgStore) (tenantID objectID : Str) (pr : Principal) :
    Except DriveErr Object := do
  let obj ← db.lookupObject collate tenantID objectID
  refuse (¬ canRead obj pr) .forbidden
  return obj

/-- Without the data, which the blob store has. -/
def getObjectData (db : PgStore) (tenantID objectID : Str) (pr : Principal) :
    Except DriveErr (Object × Bytes) := do
  let obj ← db.getObject collate tenantID objectID pr
  return (obj, [])

def listVersions (db : PgStore) (tenantID objectID : Str) (pr : Principal) :
    Except DriveErr (List Version) := do
  let _ ← db.getObject collate tenantID objectID pr
  return (db.versionsOf objectID).mergeSort fun a b => a.version ≤ b.version

/-- The transaction of `PutVersion`. -/
def updateContent (db : PgStore) (tenantID objectID : Str) (obj : Object) (now : Time) :
    Except DriveErr PgStore := do
  let versions ← db.insertVersion objectID ⟨obj.version, obj.blobKey, obj.sizeBytes, now⟩
  return { db.updateObjectRow tenantID objectID (·.setContent obj) with versions := versions }

def putVersion (db : PgStore) (env : Env) (tenantID objectID : Str) (pr : Principal)
    (input : PutVersionInput) (blobKey : Str) : Except DriveErr Object × PgStore :=
  if blobKey = [] then (.error .invalidInput, db)
  else
    match db.lookupObject collate tenantID objectID >>= planVersion env pr input blobKey with
    | .error e => (.error e, db)
    | .ok obj =>
        match db.updateContent tenantID objectID obj env.now with
        | .error e => (.error e, db)
        | .ok next => (.ok obj, next)

/-- The checks that a write starts with. -/
def writable (db : PgStore) (tenantID objectID : Str) (pr : Principal) :
    Except DriveErr Object := do
  let obj ← db.lookupObject collate tenantID objectID
  refuse (¬ canWrite obj pr) .forbidden
  return obj

def updateACL (db : PgStore) (tenantID objectID : Str) (pr : Principal)
    (entries : List ACLEntry) : Except DriveErr Unit × PgStore :=
  match db.writable collate tenantID objectID pr with
  | .error e => (.error e, db)
  | .ok _ =>
      match insertACL objectID (db.acl.filter fun row => row.objectID ≠ objectID) entries with
      | .error e => (.error e, db)
      | .ok acl => (.ok (), { db with acl := acl })

def trashObject (db : PgStore) (env : Env) (tenantID objectID : Str) (pr : Principal) :
    Except DriveErr Object × PgStore :=
  match db.writable collate tenantID objectID pr with
  | .error e => (.error e, db)
  | .ok obj =>
      if obj.trashedAt.isSome then (.ok obj, db)
      else
        (.ok { obj with
            trashRestoreFolderID := obj.folderID, trashedAt := some env.now, updatedAt := env.now },
          db.updateObjectRow tenantID objectID fun row => { row with
            trashedAt := some env.now, trashRestoreFolderID := some obj.folderID
            updatedAt := env.now })

def restoreObject (db : PgStore) (env : Env) (tenantID objectID : Str) (pr : Principal) :
    Except DriveErr Object × PgStore :=
  match db.writable collate tenantID objectID pr with
  | .error e => (.error e, db)
  | .ok obj =>
      if obj.trashedAt.isNone then (.ok obj, db)
      else
        let folderID := obj.trashRestoreFolderID
        if db.anyObject fun r => r.tenantID = tenantID ∧ r.folderID = folderID ∧
            r.name = obj.name ∧ r.id ≠ objectID ∧ r.trashedAt.isNone then
          (.error .duplicate, db)
        else
          (.ok { obj with
              folderID := folderID, trashRestoreFolderID := [], trashedAt := none
              updatedAt := env.now },
            db.updateObjectRow tenantID objectID fun row => { row with
              folderID := folderID, trashedAt := none, trashRestoreFolderID := none
              updatedAt := env.now })

/-- The search for a duplicate counts trashed objects, as no other one does. -/
def updateObject (db : PgStore) (env : Env) (tenantID objectID : Str) (pr : Principal)
    (patch : ObjectPatch) : Except DriveErr Object × PgStore :=
  match patch.trashed with
  | some true => db.trashObject collate env tenantID objectID pr
  | some false => db.restoreObject collate env tenantID objectID pr
  | none =>
      match db.getObject collate tenantID objectID pr with
      | .error e => (.error e, db)
      | .ok obj =>
          match planObject env pr patch obj with
          | .error e => (.error e, db)
          | .ok next =>
              if (next.name ≠ obj.name ∨ next.folderID ≠ obj.folderID) ∧
                  db.anyObject fun r => r.tenantID = tenantID ∧ r.folderID = next.folderID ∧
                    r.name = next.name ∧ r.id ≠ objectID then
                (.error .duplicate, db)
              else
                (.ok next, db.updateObjectRow tenantID objectID (·.setMeta next env.now))

def ownFolder (db : PgStore) (tenantID folderID : Str) : Except DriveErr Folder := do
  refuse (folderID = []) .invalidInput
  let f ← db.fetchFolder folderID
  refuse (f.tenantID ≠ tenantID) .notFound
  return f

def trashFolder (db : PgStore) (env : Env) (tenantID folderID : Str) :
    Except DriveErr Folder × PgStore :=
  match db.ownFolder tenantID folderID with
  | .error e => (.error e, db)
  | .ok f =>
      if f.trashedAt.isSome then (.ok f, db)
      else
        (.ok { f with trashRestoreParentID := f.parentID, trashedAt := some env.now },
          db.updateFolderRow tenantID folderID fun row => { row with
            trashedAt := some env.now, trashRestoreParentID := some f.parentID })

def restoreFolder (db : PgStore) (tenantID folderID : Str) :
    Except DriveErr Folder × PgStore :=
  match db.ownFolder tenantID folderID with
  | .error e => (.error e, db)
  | .ok f =>
      if f.trashedAt.isNone then (.ok f, db)
      else
        let parentID := f.trashRestoreParentID
        if db.anyFolder fun r => r.tenantID = tenantID ∧ r.parentID = parentID ∧
            r.name = f.name ∧ r.id ≠ folderID ∧ r.trashedAt.isNone then
          (.error .duplicate, db)
        else
          (.ok { f with parentID := parentID, trashRestoreParentID := [], trashedAt := none },
            db.updateFolderRow tenantID folderID fun row => { row with
              parentID := parentID, trashedAt := none, trashRestoreParentID := none })

/-- What `UpdateFolder` decides between its statements. -/
def planFolder (folderID : Str) (patch : FolderPatch) (f : Folder) : Except DriveErr Folder := do
  let name ← patchName f.name patch.name
  refuse (patch.parentID = some folderID) .invalidInput
  return { f with name := name, parentID := patch.parentID.getD f.parentID }

def updateFolder (db : PgStore) (env : Env) (tenantID folderID : Str) (patch : FolderPatch) :
    Except DriveErr Folder × PgStore :=
  match patch.trashed with
  | some true => db.trashFolder env tenantID folderID
  | some false => db.restoreFolder tenantID folderID
  | none =>
      match db.ownFolder tenantID folderID with
      | .error e => (.error e, db)
      | .ok f =>
          match planFolder folderID patch f with
          | .error e => (.error e, db)
          | .ok next =>
              if (next.name ≠ f.name ∨ next.parentID ≠ f.parentID) ∧
                  db.anyFolder fun r => r.tenantID = tenantID ∧ r.parentID = next.parentID ∧
                    r.name = next.name ∧ r.id ≠ folderID ∧ r.trashedAt.isNone then
                (.error .duplicate, db)
              else
                (.ok next, db.updateFolderRow tenantID folderID fun row => { row with
                  name := next.name, parentID := next.parentID })

def call (db : PgStore) (env : Env) : Call → Except DriveErr Reply × PgStore
  | .createFolder tenantID parentID name =>
      (db.createFolder lower env tenantID parentID name).map (Except.map Reply.folder) id
  | .listChildren tenantID folderID p =>
      let found := db.listChildren collate tenantID folderID p
      (.ok (.listing found.1 found.2), db)
  | .search tenantID query p =>
      let found := db.search lower collate tenantID query p
      (.ok (.listing found.1 found.2), db)
  | .createObject input blobKey =>
      (db.createObject lower env input blobKey).map (Except.map Reply.object) id
  | .putVersion tenantID objectID p input blobKey =>
      (db.putVersion collate env tenantID objectID p input blobKey).map (Except.map Reply.object) id
  | .getObject tenantID objectID p =>
      ((db.getObject collate tenantID objectID p).map Reply.object, db)
  | .getObjectData tenantID objectID p =>
      ((db.getObjectData collate tenantID objectID p).map fun found => Reply.data found.1 found.2,
        db)
  | .listVersions tenantID objectID p =>
      ((db.listVersions collate tenantID objectID p).map Reply.versions, db)
  | .updateACL tenantID objectID p entries =>
      (db.updateACL collate tenantID objectID p entries).map (Except.map fun _ => Reply.done) id
  | .updateObject tenantID objectID p patch =>
      (db.updateObject collate env tenantID objectID p patch).map (Except.map Reply.object) id
  | .updateFolder tenantID folderID _ patch =>
      (db.updateFolder env tenantID folderID patch).map (Except.map Reply.folder) id
  | .lookupObject tenantID objectID =>
      ((db.lookupObject collate tenantID objectID).map Reply.object, db)
  | .listTrash tenantID p =>
      let found := db.listTrash collate tenantID p
      (.ok (.listing found.1 found.2), db)
  | .trashObject tenantID objectID p =>
      (db.trashObject collate env tenantID objectID p).map (Except.map Reply.object) id
  | .restoreObject tenantID objectID p =>
      (db.restoreObject collate env tenantID objectID p).map (Except.map Reply.object) id
  | .trashFolder tenantID folderID _ =>
      (db.trashFolder env tenantID folderID).map (Except.map Reply.folder) id
  | .restoreFolder tenantID folderID _ =>
      (db.restoreFolder tenantID folderID).map (Except.map Reply.folder) id

end Operations

end PgStore

end EraOne.Drive
