/-
Keeping the backend's copies of documents up to date.

The backend works on the texts it has been told.  Before a request that depends on a
document, the bridge makes sure that the backend has been told the present text: the first
time the document is opened, later its whole text is sent again if it has changed.  A file
whose time of change is the recorded one is taken to be unchanged and is not read; one that
was touched is compared by a fingerprint of its text.

What a call has to send depends on the table and the disk alone, and is laid out as a
`Plan`: the notification, and the table for either outcome of sending it.
-/
import AnalyzerBridge.Failure
import AnalyzerBridge.Host.Disk
import AnalyzerBridge.Uri

namespace AnalyzerBridge

open Host (Disk)

/-! ### Fingerprints -/

/-- A 64-bit fingerprint of a text, taken in byte by byte.  Nothing depends on its being this one. -/
def byteFingerprint (text : Bytes) : UInt64 :=
  text.foldl (fun h b => (h ^^^ b.toUInt64) * 1099511628211) 14695981039346656037

/-! ### The table of documents -/

/-- What the backend has been told of a document. -/
structure Document where
  /-- The version of the text it was told last. -/
  version : Nat
  /-- The file's time of change when it was last looked at. -/
  modified : Int
  /-- The fingerprint of the text it was told last. -/
  fingerprint : UInt64
  deriving DecidableEq, Repr

/-- A notification about a document. -/
inductive DocumentNotice where
  /-- The document is opened with a text, as version one. -/
  | opened (uri language text : Bytes)
  /-- The document has a new text. -/
  | changed (uri : Bytes) (version : Nat) (text : Bytes)
  deriving DecidableEq, Repr

namespace DocumentNotice

/-- The document it is about. -/
def uri : DocumentNotice → Bytes
  | opened uri _ _ => uri
  | changed uri _ _ => uri

/-- The version that the backend has after it. -/
def version : DocumentNotice → Nat
  | opened _ _ _ => 1
  | changed _ version _ => version

/-- The text that the backend has after it. -/
def text : DocumentNotice → Bytes
  | opened _ _ text => text
  | changed _ _ text => text

/-- The method it is sent as. -/
def method : DocumentNotice → Bytes
  | opened _ _ _ => ascii "textDocument/didOpen"
  | changed _ _ _ => ascii "textDocument/didChange"

end DocumentNotice

/-- What a call did about a document. -/
inductive SyncAction where
  | none
  | opened
  | changed
  deriving DecidableEq, Repr

/-- The word for what a call did. -/
def SyncAction.label : SyncAction → Bytes
  | none => ascii "none"
  | opened => ascii "opened"
  | changed => ascii "changed"

/-- The documents that the backend has been told of. -/
structure DocumentTable where
  /-- The language that new documents are said to be in. -/
  language : Bytes := ascii "rust"
  /-- The fingerprint of a text. -/
  fingerprint : Bytes → UInt64 := byteFingerprint
  /-- The documents by their URIs. -/
  entries : List (Bytes × Document) := []

namespace DocumentTable

/-- What the backend has been told of a document. -/
def get? (t : DocumentTable) (uri : Bytes) : Option Document := t.entries.lookup uri

/-- Records what the backend has been told of a document. -/
def set (t : DocumentTable) (uri : Bytes) (d : Document) : DocumentTable :=
  { t with entries := (uri, d) :: t.entries.filter (·.1 != uri) }

/-- The backend has been told of the document. -/
def isOpen (t : DocumentTable) (uri : Bytes) : Bool := (t.get? uri).isSome

/-- The version that the backend has. -/
def version? (t : DocumentTable) (uri : Bytes) : Option Nat := (t.get? uri).map (·.version)

/-- The number of documents that the backend has been told of. -/
def size (t : DocumentTable) : Nat := t.entries.length

/-- Forgets all documents. -/
def clear (t : DocumentTable) : DocumentTable := { t with entries := [] }

/-! ### Bringing a document up to date -/

/-- What a call has to do about a document. -/
inductive Plan where
  /-- The file cannot be looked at. -/
  | refused (failure : Failure)
  /-- Nothing has to be sent; the table afterwards. -/
  | settled (table : DocumentTable)
  /-- A notification has to be sent; the table after it was sent, and after it was not. -/
  | send (notice : DocumentNotice) (sent unsent : DocumentTable)

/-- The URI that a path has as a document. -/
def uriOf (disk : Disk) (path : Bytes) : Bytes := Uri.ofPath (disk.absolute path)

/-- What has to be done about a document whose file was changed at the given time and now
holds the given text. -/
def planText (t : DocumentTable) (uri : Bytes) (modified : Int) (text : Bytes) : Plan :=
  match t.get? uri with
  | none => .send (.opened uri t.language text) (t.set uri ⟨1, modified, t.fingerprint text⟩) t
  | some d =>
    let seen := t.set uri { d with modified }
    if d.fingerprint = t.fingerprint text then .settled seen
    else
      .send (.changed uri (d.version + 1) text)
        (t.set uri ⟨d.version + 1, modified, t.fingerprint text⟩) seen

/-- What has to be done about the document at a path. -/
def plan (t : DocumentTable) (disk : Disk) (path : Bytes) : Plan :=
  let absolute := disk.absolute path
  let uri := Uri.ofPath absolute
  match disk.modified absolute with
  | .error e =>
    .refused { kind := .fileAccess
               message := ascii "cannot stat " ++ absolute ++ ascii ": " ++ e.message }
  | .ok modified =>
    if (t.get? uri).map (·.modified) = some modified then .settled t
    else match disk.read absolute with
      | .error reason => .refused { kind := .fileAccess, message := reason }
      | .ok text => t.planText uri modified text

/-- The end of a call that brings a document up to date. -/
structure Ensured where
  /-- The document's URI. -/
  uri : Bytes
  /-- What was done. -/
  action : SyncAction := .none
  /-- Why it failed, if it did. -/
  failure : Option Failure := none
  /-- The notification that was sent. -/
  notice : Option DocumentNotice := none
  /-- The table afterwards. -/
  table : DocumentTable
  /-- What was remarked. -/
  remarks : List Bytes := []

/-- The end of a call whose notification was sent. -/
def afterSending (uri : Bytes) (table : DocumentTable) (notice : DocumentNotice) : Ensured :=
  match notice with
  | .opened _ _ _ => { uri, action := .opened, notice := some notice, table }
  | .changed _ version _ =>
    { uri, action := .changed, notice := some notice, table
      remarks := [ascii "resynced " ++ uri ++ ascii " at version " ++ Bytes.decimal version] }

/-- Makes sure that the backend has the present text of the document at a path.  `send` tells
whether a notification can be sent. -/
def ensure (t : DocumentTable) (disk : Disk) (send : DocumentNotice → Option Failure) (path : Bytes) :
    Ensured :=
  let uri := uriOf disk path
  match t.plan disk path with
  | .refused failure => { uri, failure := some failure, table := t }
  | .settled table => { uri, table }
  | .send notice sent unsent =>
    match send notice with
    | none => afterSending uri sent notice
    | some failure => { uri, failure := some failure, table := unsent }

end DocumentTable

end AnalyzerBridge
