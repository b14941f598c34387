import EraOne.Search

set_option autoImplicit false

/- The drive service's metadata store kept in memory (`types.go`, `acl.go`, `memory_store.go`).
A call takes the uuids and the clock reading it may use from its environment. -/
namespace EraOne.Drive

open Scan

inductive DriveErr where
  | notFound | forbidden | duplicate | invalidInput | locked
  /-- What the SQL driver returns, for a violated constraint. -/
  | database
  deriving DecidableEq, Repr

/-- `if c { return e }`. -/
def refuse (c : Prop) [Decidable c] (e : DriveErr) : Except DriveErr Unit :=
  if c then .error e else .ok ()

/-- A nanosecond clock. -/
abbrev Time := Nat

abbrev Bytes := List UInt8

/-- The role is any `int32`; three values have a meaning. -/
abbrev ACLRole := Int32

def ACLRole.owner : ACLRole := 1

def ACLRole.read : ACLRole := 2

def ACLRole.write : ACLRole := 3

structure ACLEntry where
  principal : Str
  role : ACLRole
  deriving DecidableEq

structure Folder where
  id : Str
  tenantID : Str
  parentID : Str
  name : Str
  createdAt : Time
  trashedAt : Option Time := none
  trashRestoreParentID : Str := []
  deriving DecidableEq

/-- An object. `SizeBytes` is a length, which an `int64` always holds. -/
structure Object where
  id : Str
  tenantID : Str
  folderID : Str
  name : Str
  sizeBytes : Nat
  contentType : Str
  contentFormat : Int32
  version : Int32
  blobKey : Str
  ownerUserID : Str
  acl : List ACLEntry
  updatedAt : Time
  lockedBy : Str := []
  lockedAt : Option Time := none
  trashedAt : Option Time := none
  trashRestoreFolderID : Str := []
  deriving DecidableEq

structure Version where
  version : Int32
  blobKey : Str
  sizeBytes : Nat
  createdAt : Time
  deriving DecidableEq

structure ObjectPatch where
  name : Option Str := none
  folderID : Option Str := none
  locked : Option Bool := none
  trashed : Option Bool := none
  deriving DecidableEq

structure FolderPatch where
  name : Option Str := none
  parentID : Option Str := none
  trashed : Option Bool := none
  deriving DecidableEq

structure CreateObjectInput where
  tenantID : Str
  folderID : Str
  name : Str
  contentType : Str
  contentFormat : Int32
  ownerUserID : Str
  data : Bytes
  deriving DecidableEq

structure PutVersionInput where
  data : Bytes
  contentType : Str
  deriving DecidableEq

structure Principal where
  tenantID : Str
  userID : Str
  groups : List Str := []
  deriving DecidableEq

section Acl

def objTenant (p : Principal) : Str := p.tenantID

/-- `user:`, `group:` or `tenant:members`; the last compares the caller with itself. -/
def principalMatches (principal : Str) (p : Principal) : Bool :=
  let principal := trim principal
  if principal.isEmpty then false
  else
    match splitOnce [':'] principal with
    | none => false
    | some parts =>
        if parts.1 = "user".toList then p.userID ≠ [] ∧ parts.2 = p.userID
        else if parts.1 = "group".toList then p.groups.contains parts.2
        else if parts.1 = "tenant".toList then
          parts.2 = "members".toList ∧ p.tenantID ≠ [] ∧ p.tenantID = objTenant p
        else false

def isOwner (obj : Object) (p : Principal) : Bool := p.userID ≠ [] ∧ obj.ownerUserID = p.userID

/-- The owner, or an entry that matches and has one of the roles. -/
def granted (roles : List ACLRole) (obj : Object) (p : Principal) : Bool :=
  isOwner obj p || obj.acl.any fun e => principalMatches e.principal p && roles.contains e.role

def canRead (obj : Object) (p : Principal) : Bool :=
  granted [ACLRole.owner, ACLRole.read, ACLRole.write] obj p

def canWrite (obj : Object) (p : Principal) : Bool :=
  granted [ACLRole.owner, ACLRole.write] obj p

def isLocked (obj : Object) : Bool := trim obj.lockedBy ≠ []

def isLocker (obj : Object) (p : Principal) : Bool :=
  isLocked obj ∧ p.userID ≠ [] ∧ obj.lockedBy = p.userID

def canMutateWhileLocked (obj : Object) (p : Principal) : Bool := !isLocked obj || isLocker obj p

def canUnlock (obj : Object) (p : Principal) : Bool := isLocker obj p || isOwner obj p

def defaultOwnerACL (ownerID : Str) : List ACLEntry :=
  [⟨"user:".toList ++ ownerID, ACLRole.owner⟩]

end Acl

/-- What a call may take from outside: a uuid for what it creates, one for a blob key and the
time. -/
structure Env where
  id : Str
  blobID : Str
  now : Time
  deriving DecidableEq

structure MemoryStore where
  folders : StrMap Folder
  objects : StrMap Object
  vers : StrMap (List Version)
  blobs : StrMap Bytes

def newMemoryStore : MemoryStore := ⟨∅, ∅, ∅, ∅⟩

/-- The name after a patch, for objects and folders. -/
def patchName (name : Str) : Option Str → Except DriveErr Str
  | none => .ok name
  | some new => if trim new = [] then .error .invalidInput else .ok (trim new)

/-- The lock after a patch. -/
def patchLock (obj : Object) (p : Principal) (now : Time) : Option Bool → Except DriveErr Object
  | none => .ok obj
  | some true =>
      if isLocked obj ∧ ¬ isLocker obj p then .error .locked
      else .ok { obj with lockedBy := p.userID, lockedAt := some now }
  | some false =>
      if isLocked obj ∧ ¬ canUnlock obj p then .error .forbidden
      else .ok { obj with lockedBy := [], lockedAt := none }

/-- A key that the caller leaves empty is made up. -/
def blobKeyOr (blobKey : Str) (env : Env) : Str :=
  if blobKey = [] then "mem/".toList ++ env.blobID else blobKey

def newObject (env : Env) (input : CreateObjectInput) (blobKey : Str) : Object :=
  { id := env.id, tenantID := input.tenantID, folderID := input.folderID, name := input.name
    sizeBytes := input.data.length, contentType := input.contentType
    contentFormat := input.contentFormat, version := 1, blobKey := blobKey
    ownerUserID := input.ownerUserID, acl := defaultOwnerACL input.ownerUserID
    updatedAt := env.now }

/-- The head after an upload. The version counter is an `int32`. -/
def nextVersion (env : Env) (obj : Object) (input : PutVersionInput) (blobKey : Str) : Object :=
  { obj with
    version := obj.version + 1, blobKey := blobKey, sizeBytes := input.data.length
    updatedAt := env.now
    contentType := if trim input.contentType ≠ [] then input.contentType else obj.contentType }

namespace MemoryStore

/-- A folder of this name, trashed or not. -/
def folderTaken (m : MemoryStore) (tenantID parentID name : Str) : Bool :=
  m.folders.toList.any fun e => e.2.tenantID = tenantID ∧ e.2.parentID = parentID ∧ e.2.name = name

/-- Another live folder of this name. -/
def liveFolderTaken (m : MemoryStore) (folderID tenantID parentID name : Str) : Bool :=
  m.folders.toList.any fun e => ¬ (e.2.id = folderID ∨ e.2.trashedAt.isSome) ∧
    e.2.tenantID = tenantID ∧ e.2.parentID = parentID ∧ e.2.name = name

def objectTaken (m : MemoryStore) (tenantID folderID name : Str) : Bool :=
  m.objects.toList.any fun e => e.2.tenantID = tenantID ∧ e.2.folderID = folderID ∧ e.2.name = name

def liveObjectTaken (m : MemoryStore) (objectID tenantID folderID name : Str) : Bool :=
  m.objects.toList.any fun e => ¬ (e.2.id = objectID ∨ e.2.trashedAt.isSome) ∧
    e.2.tenantID = tenantID ∧ e.2.folderID = folderID ∧ e.2.name = name

def createFolder (m : MemoryStore) (env : Env) (tenantID parentID name : Str) :
    Except DriveErr Folder × MemoryStore :=
  if tenantID = [] ∨ name = [] then (.error .invalidInput, m)
  else
    let f : Folder :=
      { id := env.id, tenantID := tenantID, parentID := parentID, name := name
        createdAt := env.now }
    if m.folderTaken tenantID parentID name then (.error .duplicate, m)
    else (.ok f, { m with folders := m.folders.insert f.id f })

/-- The order of a listing is that of a Go map, which is left open: here it is the key order. -/
def listFolders (m : MemoryStore) (p : Folder → Bool) : List Folder :=
  (m.folders.toList.map Prod.snd).filter p

def listObjects (m : MemoryStore) (p : Object → Bool) : List Object :=
  (m.objects.toList.map Prod.snd).filter p

def listChildren (m : MemoryStore) (tenantID folderID : Str) (p : Principal) :
    List Folder × List Object :=
  (m.listFolders fun f => f.tenantID = tenantID ∧ f.parentID = folderID ∧ f.trashedAt.isNone,
    m.listObjects fun o => o.tenantID = tenantID ∧ o.folderID = folderID ∧ o.trashedAt.isNone ∧
      canRead o p)

/-- `lower` is `strings.ToLower`. -/
def search (lower : Str → Str) (m : MemoryStore) (tenantID query : Str) (p : Principal) :
    List Folder × List Object :=
  let q := trim query
  if q.isEmpty then ([], [])
  else
    let needle := lower q
    (m.listFolders fun f => f.tenantID = tenantID ∧ f.trashedAt.isNone ∧
        contains needle (lower f.name),
      m.listObjects fun o => o.tenantID = tenantID ∧ o.trashedAt.isNone ∧
        contains needle (lower o.name) ∧ canRead o p)

def listTrash (m : MemoryStore) (tenantID : Str) (p : Principal) : List Folder × List Object :=
  (m.listFolders fun f => f.tenantID = tenantID ∧ f.trashedAt.isSome,
    m.listObjects fun o => o.tenantID = tenantID ∧ o.trashedAt.isSome ∧ canRead o p)

/-- The end of an upload: the head, its blob and one more entry of the version list. -/
def putContent (m : MemoryStore) (env : Env) (objectID : Str) (obj : Object) (data : Bytes)
    (history : List Version) : MemoryStore :=
  { m with
    objects := m.objects.insert objectID obj
    blobs := m.blobs.insert obj.blobKey data
    vers := m.vers.insert objectID
      (history ++ [⟨obj.version, obj.blobKey, obj.sizeBytes, env.now⟩]) }

def createObject (m : MemoryStore) (env : Env) (input : CreateObjectInput) (blobKey : Str) :
    Except DriveErr Object × MemoryStore :=
  if input.tenantID = [] ∨ input.name = [] ∨ input.ownerUserID = [] then (.error .invalidInput, m)
  else if m.objectTaken input.tenantID input.folderID input.name then (.error .duplicate, m)
  else
    let obj := newObject env input (blobKeyOr blobKey env)
    (.ok obj, m.putContent env obj.id obj input.data [])

def lookupObject (m : MemoryStore) (tenantID objectID : Str) : Except DriveErr Object :=
  match m.objects[objectID]? with
  | some obj => if obj.tenantID ≠ tenantID then .error .notFound else .ok obj
  | none => .error .notFound

/-- The checks that a write to an object starts with. -/
def writable (m : MemoryStore) (tenantID objectID : Str) (p : Principal) :
    Except DriveErr Object := do
  let obj ← m.lookupObject tenantID objectID
  refuse (¬ canWrite obj p) .forbidden
  return obj

def getObject (m : MemoryStore) (tenantID objectID : Str) (p : Principal) :
    Except DriveErr Object := do
  let obj ← m.lookupObject tenantID objectID
  refuse (¬ canRead obj p) .forbidden
  return obj

def getObjectData (m : MemoryStore) (tenantID objectID : Str) (p : Principal) :
    Except DriveErr (Object × Bytes) := do
  let obj ← m.getObject tenantID objectID p
  return (obj, m.blobs[obj.blobKey]?.getD [])

def listVersions (m : MemoryStore) (tenantID objectID : Str) (p : Principal) :
    Except DriveErr (List Version) := do
  let obj ← m.getObject tenantID objectID p
  return m.vers[obj.id]?.getD []

def putObject (m : MemoryStore) (objectID : Str) (obj : Object) : MemoryStore :=
  { m with objects := m.objects.insert objectID obj }

def putFolder (m : MemoryStore) (folderID : Str) (f : Folder) : MemoryStore :=
  { m with folders := m.folders.insert folderID f }

def putVersion (m : MemoryStore) (env : Env) (tenantID objectID : Str) (p : Principal)
    (input : PutVersionInput) (blobKey : Str) : Except DriveErr Object × MemoryStore :=
  match m.writable tenantID objectID p with
  | .error e => (.error e, m)
  | .ok obj =>
      if ¬ canMutateWhileLocked obj p then (.error .locked, m)
      else
        let obj := nextVersion env obj input (blobKeyOr blobKey env)
        (.ok obj, m.putContent env objectID obj input.data (m.vers[objectID]?.getD []))

def updateACL (m : MemoryStore) (tenantID objectID : Str) (p : Principal)
    (entries : List ACLEntry) : Except DriveErr Unit × MemoryStore :=
  match m.writable tenantID objectID p with
  | .error e => (.error e, m)
  | .ok obj => (.ok (), m.putObject objectID { obj with acl := entries })

def trashObject (m : MemoryStore) (env : Env) (tenantID objectID : Str) (p : Principal) :
    Except DriveErr Object × MemoryStore :=
  match m.writable tenantID objectID p with
  | .error e => (.error e, m)
  | .ok obj =>
      if obj.trashedAt.isSome then (.ok obj, m)
      else
        let obj := { obj with
          trashRestoreFolderID := obj.folderID, trashedAt := some env.now, updatedAt := env.now }
        (.ok obj, m.putObject objectID obj)

def restoreObject (m : MemoryStore) (env : Env) (tenantID objectID : Str) (p : Principal) :
    Except DriveErr Object × MemoryStore :=
  match m.writable tenantID objectID p with
  | .error e => (.error e, m)
  | .ok obj =>
      if obj.trashedAt.isNone then (.ok obj, m)
      else if m.liveObjectTaken objectID tenantID obj.trashRestoreFolderID obj.name then
        (.error .duplicate, m)
      else
        let obj := { obj with
          folderID := obj.trashRestoreFolderID, trashRestoreFolderID := [], trashedAt := none
          updatedAt := env.now }
        (.ok obj, m.putObject objectID obj)

/-- The object that a patch makes of one that may be written. -/
def patchObject (m : MemoryStore) (env : Env) (tenantID objectID : Str) (p : Principal)
    (patch : ObjectPatch) (obj : Object) : Except DriveErr Object := do
  refuse ((patch.name.isSome ∨ patch.folderID.isSome) ∧ ¬ canMutateWhileLocked obj p) .locked
  let obj ← patchLock obj p env.now patch.locked
  let name ← patchName obj.name patch.name
  let folderID := patch.folderID.getD obj.folderID
  refuse ((name ≠ obj.name ∨ folderID ≠ obj.folderID) ∧
    m.liveObjectTaken objectID tenantID folderID name) .duplicate
  return { obj with name := name, folderID := folderID, updatedAt := env.now }

def updateObject (m : MemoryStore) (env : Env) (tenantID objectID : Str) (p : Principal)
    (patch : ObjectPatch) : Except DriveErr Object × MemoryStore :=
  match patch.trashed with
  | some true => m.trashObject env tenantID objectID p
  | some false => m.restoreObject env tenantID objectID p
  | none =>
      match m.writable tenantID objectID p >>= m.patchObject env tenantID objectID p patch with
      | .error e => (.error e, m)
      | .ok obj => (.ok obj, m.putObject objectID obj)

/-- The checks that a call on a folder starts with; folders have no access list. -/
def ownFolder (m : MemoryStore) (tenantID folderID : Str) : Except DriveErr Folder :=
  if folderID = [] then .error .invalidInput
  else
    match m.folders[folderID]? with
    | some f => if f.tenantID ≠ tenantID then .error .notFound else .ok f
    | none => .error .notFound

def trashFolder (m : MemoryStore) (env : Env) (tenantID folderID : Str) :
    Except DriveErr Folder × MemoryStore :=
  match m.ownFolder tenantID folderID with
  | .error e => (.error e, m)
  | .ok f =>
      if f.trashedAt.isSome then (.ok f, m)
      else
        let f := { f with trashRestoreParentID := f.parentID, trashedAt := some env.now }
        (.ok f, m.putFolder folderID f)

def restoreFolder (m : MemoryStore) (tenantID folderID : Str) :
    Except DriveErr Folder × MemoryStore :=
  match m.ownFolder tenantID folderID with
  | .error e => (.error e, m)
  | .ok f =>
      if f.trashedAt.isNone then (.ok f, m)
      else if m.liveFolderTaken folderID tenantID f.trashRestoreParentID f.name then
        (.error .duplicate, m)
      else
        let f := { f with
          parentID := f.trashRestoreParentID, trashRestoreParentID := [], trashedAt := none }
        (.ok f, m.putFolder folderID f)

/-- The folder that a patch makes. Of the new parent it only checks that it is not the folder. -/
def patchFolder (m : MemoryStore) (tenantID folderID : Str) (patch : FolderPatch) (f : Folder) :
    Except DriveErr Folder := do
  let name ← patchName f.name patch.name
  refuse (patch.parentID = some folderID) .invalidInput
  let parentID := patch.parentID.getD f.parentID
  refuse ((name ≠ f.name ∨ parentID ≠ f.parentID) ∧
    m.liveFolderTaken folderID tenantID parentID name) .duplicate
  return { f with name := name, parentID := parentID }

def updateFolder (m : MemoryStore) (env : Env) (tenantID folderID : Str) (patch : FolderPatch) :
    Except DriveErr Folder × MemoryStore :=
  match patch.trashed with
  | some true => m.trashFolder env tenantID folderID
  | some false => m.restoreFolder tenantID folderID
  | none =>
      match m.ownFolder tenantID folderID >>= m.patchFolder tenantID folderID patch with
      | .error e => (.error e, m)
      | .ok f => (.ok f, m.putFolder folderID f)

end MemoryStore

/-- A call of the `Store` interface. The owner that `CreateFolder` is given and the principal of
the folder calls are not used. -/
inductive Call where
  | createFolder (tenantID parentID name : Str)
  | listChildren (tenantID folderID : Str) (p : Principal)
  | search (tenantID query : Str) (p : Principal)
  | createObject (input : CreateObjectInput) (blobKey : Str)
  | putVersion (tenantID objectID : Str) (p : Principal) (input : PutVersionInput) (blobKey : Str)
  | getObject (tenantID objectID : Str) (p : Principal)
  | getObjectData (tenantID objectID : Str) (p : Principal)
  | listVersions (tenantID objectID : Str) (p : Principal)
  | updateACL (tenantID objectID : Str) (p : Principal) (entries : List ACLEntry)
  | updateObject (tenantID objectID : Str) (p : Principal) (patch : ObjectPatch)
  | updateFolder (tenantID folderID : Str) (p : Principal) (patch : FolderPatch)
  | lookupObject (tenantID objectID : Str)
  | listTrash (tenantID : Str) (p : Principal)
  | trashObject (tenantID objectID : Str) (p : Principal)
  | restoreObject (tenantID objectID : Str) (p : Principal)
  | trashFolder (tenantID folderID : Str) (p : Principal)
  | restoreFolder (tenantID folderID : Str) (p : Principal)
  deriving DecidableEq

inductive Reply where
  | folder (f : Folder)
  | object (obj : Object)
  | data (obj : Object) (bytes : Bytes)
  | versions (vs : List Version)
  | listing (folders : List Folder) (objects : List Object)
  | done
  deriving DecidableEq

namespace MemoryStore

variable (lower : Str → Str)

def call (m : MemoryStore) (env : Env) : Call → Except DriveErr Reply × MemoryStore
  | .createFolder tenantID parentID name =>
      (m.createFolder env tenantID parentID name).map (Except.map Reply.folder) id
  | .listChildren tenantID folderID p =>
      let found := m.listChildren tenantID folderID p
      (.ok (.listing found.1 found.2), m)
  | .search tenantID query p =>
      let found := search lower m tenantID query p
      (.ok (.listing found.1 found.2), m)
  | .createObject input blobKey =>
      (m.createObject env input blobKey).map (Except.map Reply.object) id
  | .putVersion tenantID objectID p input blobKey =>
      (m.putVersion env tenantID objectID p input blobKey).map (Except.map Reply.object) id
  | .getObject tenantID objectID p => ((m.getObject tenantID objectID p).map Reply.object, m)
  | .getObjectData tenantID objectID p =>
      ((m.getObjectData tenantID objectID p).map fun found => Reply.data found.1 found.2, m)
  | .listVersions tenantID objectID p =>
      ((m.listVersions tenantID objectID p).map Reply.versions, m)
  | .updateACL tenantID objectID p entries =>
      (m.updateACL tenantID objectID p entries).map (Except.map fun _ => Reply.done) id
  | .updateObject tenantID objectID p patch =>
      (m.updateObject env tenantID objectID p patch).map (Except.map Reply.object) id
  | .updateFolder tenantID folderID _ patch =>
      (m.updateFolder env tenantID folderID patch).map (Except.map Reply.folder) id
  | .lookupObject tenantID objectID => ((m.lookupObject tenantID objectID).map Reply.object, m)
  | .listTrash tenantID p =>
      let found := m.listTrash tenantID p
      (.ok (.listing found.1 found.2), m)
  | .trashObject tenantID objectID p =>
      (m.trashObject env tenantID objectID p).map (Except.map Reply.object) id
  | .restoreObject tenantID objectID p =>
      (m.restoreObject env tenantID objectID p).map (Except.map Reply.object) id
  | .trashFolder tenantID folderID _ =>
      (m.trashFolder env tenantID folderID).map (Except.map Reply.folder) id
  | .restoreFolder tenantID folderID _ =>
      (m.restoreFolder tenantID folderID).map (Except.map Reply.folder) id

end MemoryStore

end EraOne.Drive
