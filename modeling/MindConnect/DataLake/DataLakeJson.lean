import MindConnect.Core.CoreProcessor
import MindConnect.Core.Memory
import MindConnect.Core.StringUtil

/-!
# The JSON of the data lake: `mcl_data_lake/src/data_lake_json.c`

| here | there |
| --- | --- |
| `DataLakeObject` | `mcl_data_lake_object_t` (`data_lake_object.h`), the two strings of the URL generation |
| `Objects`, a `List Nat` | the objects by address, a `data_lake_object_t **` with its size |
| `calculateTotalPathSize` | `_calculate_total_path_size` (`data_lake_json.c:244`) |
| `getBodySize` | `_data_lake_json_get_body_size_generate_upload_urls` (`:328`) |
| `dataLakeJsonFromObjects` | `data_lake_json_from_objects` (`:46`), its whole allocation and how far `position` gets in it |
| `matchSignedUrls` | `data_lake_json_match_signed_urls_with_objects` (`:156`) |
| `findMatchingObject` | `_find_matching_object` (`:270`) |
| `checkSignedUrls` | `_check_signed_urls` (`:310`) |

A size is an `mcl_size_t` of `w` bits. A write outside the allocation is `none`.
-/

namespace MindConnect

open JsonUtil

structure DataLakeObject where
  path : Option CString
  signedUrl : Option CString
deriving DecidableEq, Repr

abbrev Objects := Nat → DataLakeObject

/-! ## The request body -/

def generateUrlBodyPrePathList : Bytes := ascii "\x7b\"paths\":["
def generateUrlBodyPrePathObject : Bytes := ascii "\x7b\"path\":\""
def generateUrlBodyPostPathObject : Bytes := ascii "\"\x7d"
def subtenantIdKey : Bytes := ascii ",\"subtenantId\":\""

/-- The length of all paths, and how many there are. -/
def calculateTotalPathSize (w : Nat) (objects : List DataLakeObject) : BitVec w × BitVec w :=
  objects.foldl (fun (totalPathSize, validPathCount) object =>
    match object.path with
    | none => (totalPathSize, validPathCount)
    | some path => (totalPathSize + .ofNat w path.length, validPathCount + 1)) (0, 0)

def getBodySize (w : Nat) (objects : List DataLakeObject) (clientIdLength subtenantIdLength : BitVec w) : BitVec w :=
  let (totalPathLength, validPathCount) := calculateTotalPathSize w objects
  if validPathCount = 0 then 0
  else
    let pathOverheadLength := clientIdLength + 1
    let bodySize := .ofNat w generateUrlBodyPrePathList.length + 2 +
      (.ofNat w generateUrlBodyPrePathObject.length + .ofNat w generateUrlBodyPostPathObject.length +
        pathOverheadLength) * validPathCount +
      (totalPathLength + (validPathCount - 1) * 1)
    if subtenantIdLength ≠ 0 then bodySize + .ofNat w (subtenantIdKey.length + 1) + subtenantIdLength else bodySize

/-- The comma, unless this is the first object. -/
def putDelimiter (isFirstObject : Bool) (position : Bytes × Nat) : Option (Bytes × Nat) :=
  if isFirstObject then some position else put position (ascii ",")

/-- "Add subtenant id." -/
def putSubtenantId (subtenantId : Option CString) (position : Bytes × Nat) : Option (Bytes × Nat) :=
  if strlen subtenantId ≠ 0 then do
    let position ← put position subtenantIdKey
    let position ← put position (characters subtenantId)
    put position (ascii "\"")
  else some position

/-- One turn of the loop over the objects; the flag is `is_first_object`. -/
def putPath (clientId : Option CString) (s : (Bytes × Nat) × Bool) (object : DataLakeObject) :
    Option ((Bytes × Nat) × Bool) :=
  match object.path with
  | none => some s
  | some path => do
    let position ← putDelimiter s.2 s.1
    let position ← put position generateUrlBodyPrePathObject
    let position ← put position (characters clientId)
    let position ← put position (ascii "/")
    let position ← put position path.bytes
    let position ← put position generateUrlBodyPostPathObject
    return (position, false)

def dataLakeJsonFromObjects (w : Nat) (allocated : Bool) (objects : List DataLakeObject)
    (clientId subtenantId : Option CString) : Option (Result (Bytes × Nat)) :=
  let bodySize := getBodySize w objects (.ofNat w (strlen clientId)) (.ofNat w (strlen subtenantId))
  if bodySize = 0 then some (.error .invalidParameter)
  else
    match mclMemoryMalloc allocated (bodySize + 1).toNat with
    | none => some (.error .outOfMemory)
    | some json => do
      let position ← put (json, 0) generateUrlBodyPrePathList
      let (position, _) ← objects.foldlM (putPath clientId) (position, true)
      let position ← put position (ascii "]")
      let position ← putSubtenantId subtenantId position
      let position ← put position (ascii "\x7d")
      let json ← Bytes.write position.1 bodySize.toNat [0]
      return .ok (json, position.2)

/-- The paths that are not null, in order. -/
def paths (objects : List DataLakeObject) : List CString := objects.filterMap DataLakeObject.path

/-- The text of the objects of the `paths` array. -/
def pathsText (clientId : Option CString) : Bool → List CString → Bytes
  | _, [] => []
  | isFirst, path :: ps =>
    (if isFirst then [] else ascii ",") ++ generateUrlBodyPrePathObject ++ characters clientId ++ ascii "/"
      ++ path.bytes ++ generateUrlBodyPostPathObject ++ pathsText clientId false ps

def subtenantText (subtenantId : Option CString) : Bytes :=
  if strlen subtenantId ≠ 0 then subtenantIdKey ++ characters subtenantId ++ ascii "\"" else []

def requestText (ps : List CString) (clientId subtenantId : Option CString) : Bytes :=
  generateUrlBodyPrePathList ++ pathsText clientId true ps ++ ascii "]" ++ subtenantText subtenantId
    ++ ascii "\x7d"

/-! ## The response -/

def objectUrlsKey : CString := .lit "objectUrls"
def signedUrlKey : CString := .lit "signedUrl"
def objectPathKey : CString := .lit "path"

/-- `mcl_string_util_strncmp` with a second string that may be null -/
def mclStringUtilStrncmp (string1 : CString) (string2 : Option CString) (count : Nat) : Result Unit :=
  match string2 with
  | none => .error .triggeredWithNull
  | some string2 => stringUtilStrncmp string1 string2 count

def setSignedUrl (objects : Objects) (a : Nat) (url : Option CString) : Objects :=
  Function.update objects a { objects a with signedUrl := url }

/-- The code that is returned is not looked at by the caller. -/
def findMatchingObject (copied : Bool) (item : Json) (path : CString) (compareSize : Nat) :
    List Nat → Objects → Objects
  | [], objects => objects
  | a :: array, objects =>
    match (objects a).signedUrl with
    | some _ => findMatchingObject copied item path compareSize array objects
    | none =>
      match mclStringUtilStrncmp path (objects a).path compareSize with
      | .error _ => findMatchingObject copied item path compareSize array objects
      | .ok () =>
        match getObjectItem item signedUrlKey >>= fun json => getString json copied with
        | .ok url => setSignedUrl objects a url
        | .error _ => objects

def checkSignedUrls (array : List Nat) (objects : Objects) : Result Unit :=
  if array.any fun a => (objects a).path.isSome && (objects a).signedUrl.isNone then
    .error .dataLakeSignedUrlGenerationFail
  else .ok ()

/-- What memory comes to while a response is matched, entry by entry. -/
structure MatchMemory where
  pathCopied : Nat → Bool
  urlCopied : Nat → Bool

/-- Memory that is always there. -/
def MatchMemory.available : MatchMemory := ⟨fun _ => true, fun _ => true⟩

/-- The array of the response and its size. -/
def readObjectUrls (w : Nat) (parse : Bytes → Option Json) (json : Bytes) : Result (Json × BitVec w) :=
  if json.length = 0 then .error .invalidParameter
  else
    match parse json with
    | none => .error .fail
    | some root => do
      let objectUrls ← getObjectItem root objectUrlsKey
      let size ← getArraySize w objectUrls
      return (objectUrls, size)

/-- An entry and its path, which is null if it is JSON's `null`. -/
def readEntry (memory : MatchMemory) (objectUrls : Json) (index : Nat) : Result (Json × Option CString) := do
  let item ← getArrayItem objectUrls index
  let pathJson ← getObjectItem item objectPathKey
  let path ← getString pathJson (memory.pathCopied index)
  return (item, path)

/-- The rest of the turn: a path that is too short is only logged. -/
def serveItem (urlCopied : Bool) (overhead : Nat) (array : List Nat) (objects : Objects) (item : Json)
    (path : Option CString) : Objects :=
  match path with
  | none => objects
  | some path =>
    if path.length > overhead then
      findMatchingObject urlCopied item (path.drop overhead) (path.length - overhead + 1) array objects
    else objects

/-- `n` turns of the loop over `objectUrls`, from `index` on. -/
def matchLoop (memory : MatchMemory) (objectUrls : Json) (overhead : Nat) (array : List Nat) :
    Nat → Nat → Objects → Result Unit × Objects
  | 0, _, objects => (.ok (), objects)
  | n + 1, index, objects =>
    match readEntry memory objectUrls index with
    | .error e => (.error e, objects)
    | .ok (item, path) =>
      matchLoop memory objectUrls overhead array n (index + 1)
        (serveItem (memory.urlCopied index) overhead array objects item path)

def matchSignedUrls (w : Nat) (parse : Bytes → Option Json) (memory : MatchMemory) (array : List Nat)
    (json : Bytes) (clientIdLength : Nat) (objects : Objects) : Result Unit × Objects :=
  match readObjectUrls w parse json with
  | .error e => (.error e, objects)
  | .ok (objectUrls, size) =>
    match matchLoop memory objectUrls (clientIdLength + 1) array size.toNat 0 objects with
    | (.error e, objects) => (.error e, objects)
    | (.ok (), objects) => (checkSignedUrls array objects, objects)

end MindConnect
