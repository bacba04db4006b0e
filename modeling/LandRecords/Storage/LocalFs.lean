import LandRecords.Base.Fallible
import LandRecords.Base.FileObject
import LandRecords.Ingest.Custody
import LandRecords.Review.Correction
import Mathlib

/-! The object store on a file system. An object is written to a temporary file next to its
place and renamed; every step on the way may fail, or the process may end there. -/
namespace LandRecords.Storage

open Fallible
open Ingest (Content digestOf keyFor)
open Review (lastSegment)

abbrev Path := List Text

/-- The content of each file. Directories are not represented. -/
abbrev Disk := Path → Option Content

inductive StoreError
  | alreadyExistsWithDifferentContent (key : Text)
  | keyError (key : Text)
  | fileExists
  | fileNotFound
  | failure (description : Text)
deriving DecidableEq

abbrev Operation := Fallible Disk StoreError

inductive Interruption
  | raises (error : StoreError)
  | crashes

/-- What a call meets: the random parts of the names that `mkstemp` tries, and where it is
interrupted, if it is. -/
structure Conditions where
  names : List Text
  /-- The read of the upload that fails, counted from the first. -/
  receive : Option (ℕ × Interruption) := none
  mkdir : Option Interruption := none
  mkstemp : Option Interruption := none
  /-- How many bytes reach the temporary file. -/
  write : Option (ℕ × Interruption) := none
  close : Option Interruption := none
  replace : Option Interruption := none
  unlink : Option Interruption := none

structure PutResult where
  key : Text
  digest : Text
  created : Bool
deriving DecidableEq

structure UploadStream where
  content : Content
  /-- How many bytes the read of this number grants at most. -/
  granted : ℕ → ℕ → ℕ
  granted_pos : ∀ index count, 0 < count → 0 < granted index count
  granted_le : ∀ index count, granted index count ≤ count

structure LocalFsObjectStore where
  root : Path

def place (path : Path) (bytes : Content) (disk : Disk) : Disk :=
  Function.update disk path (some bytes)

def remove (path : Path) (disk : Disk) : Disk := Function.update disk path none

section FileSystem

variable {α : Type}

def stop : Interruption → Operation α
  | .raises error => raise error
  | .crashes => fun disk => (.crashed, disk)

def attempt (interruption : Option Interruption) (effect : Disk → Disk) : Operation Unit :=
  match interruption with
  | none => Fallible.write effect
  | some interruption => stop interruption

def temporaryName (random : Text) : Text := "tmp".toList ++ random

/-- `tempfile.mkstemp(dir=directory)`. -/
def mkstemp (conditions : Conditions) (directory : Path) : Operation Path := do
  let disk ← read id
  match conditions.names.find? fun name => (disk (directory ++ [temporaryName name])).isNone with
  | none => raise .fileExists
  | some name =>
      let path := directory ++ [temporaryName name]
      attempt conditions.mkstemp (place path [])
      return path

/-- `dest.write(chunk)`: of a write that fails, some bytes may have reached the file. -/
def append (conditions : Conditions) (path : Path) (chunk : Content) : Operation Unit := fun disk =>
  let held := (disk path).getD []
  match conditions.write with
  | none => (.returned (), place path (held ++ chunk) disk)
  | some (limit, interruption) =>
      if held.length + chunk.length ≤ limit then (.returned (), place path (held ++ chunk) disk)
      else stop interruption (place path (held ++ chunk.take (limit - held.length)) disk)

def unlink (conditions : Conditions) (path : Path) : Operation Unit := do
  match ← read fun disk => disk path with
  | none => raise .fileNotFound
  | some _ => attempt conditions.unlink (remove path)

/-- `os.replace`, which is atomic. -/
def replace (conditions : Conditions) (source target : Path) : Operation Unit := do
  match ← read fun disk => disk source with
  | none => raise .fileNotFound
  | some bytes => attempt conditions.replace fun disk => remove source (place target bytes disk)

/-- `except BaseException`: the temporary file is removed and the error raised again. -/
def cleanUp (conditions : Conditions) (path : Path) (error : StoreError) : Operation α := do
  match ← read fun disk => disk path with
  | none => raise error
  | some _ =>
      unlink conditions path
      raise error

/-- What `put` and `_write_new_object` do around the writing. -/
def withTemporaryFile (conditions : Conditions) (directory : Path) (body : Path → Operation α) :
    Operation α := do
  attempt conditions.mkdir id
  let path ← mkstemp conditions directory
  handle (body path) (cleanUp conditions path)

def copyBufsize : ℕ+ := 65536

/-- `shutil.copyfileobj(source, dest)`. -/
def copyfileobj (conditions : Conditions) (source : FileObject) (path : Path) : Operation Unit :=
  if _h : source.rest.take copyBufsize = [] then return ()
  else do
    append conditions path (source.read copyBufsize).1
    copyfileobj conditions (source.read copyBufsize).2 path
termination_by source.rest.length
decreasing_by exact FileObject.length_rest_advance_lt _h

end FileSystem

namespace UploadStream

/-- `stream.read(count)`, of what remains. -/
def read (stream : UploadStream) (index count : ℕ) (remaining : Content) : Content :=
  remaining.take (stream.granted index count)

theorem drop_lt (stream : UploadStream) {index : ℕ} {count : ℕ+} {remaining : Content}
    (h : stream.read index count remaining ≠ []) :
    (remaining.drop (stream.granted index count)).length < remaining.length := by
  have hpos := stream.granted_pos index count count.pos
  have hne : remaining ≠ [] := fun hnil => h (by rw [hnil, read, List.take_nil])
  have hlength := List.length_pos_iff.mpr hne
  rw [List.length_drop]
  omega

/-- The loop that hashes and spools an upload. The hasher is what it has been fed. -/
def receive (stream : UploadStream) (chunkSize : ℕ+) (conditions : Conditions) (index : ℕ)
    (remaining hashed : Content) (spooled : FileObject) : Operation (Content × FileObject) :=
  match conditions.receive.filter fun fault => fault.1 = index with
  | some (_, interruption) => stop interruption
  | none =>
      if _h : stream.read index chunkSize remaining = [] then return (hashed, spooled)
      else
        let chunk := stream.read index chunkSize remaining
        receive stream chunkSize conditions (index + 1)
          (remaining.drop (stream.granted index chunkSize)) (hashed ++ chunk) (spooled.write chunk)
termination_by remaining.length
decreasing_by exact stream.drop_lt _h

end UploadStream

def hashStreamToSpooledTempfile (stream : UploadStream) (chunkSize : ℕ+) (conditions : Conditions) :
    Operation (Text × FileObject) := do
  let (hashed, spooled) ← stream.receive chunkSize conditions 0 stream.content [] FileObject.empty
  return (digestOf hashed, spooled.rewind)

/-- The components of a relative path, as `pathlib` keeps them. -/
def keyParts (key : Text) : List Text :=
  (key.splitOn '/').filter fun part => decide (part ≠ [] ∧ part ≠ ['.'])

namespace LocalFsObjectStore

variable (store : LocalFsObjectStore)

/-- `self._root / key`. -/
def path (key : Text) : Path :=
  if key.head? = some '/' then keyParts key else store.root ++ keyParts key

def put (data : Content) (conditions : Conditions) : Operation PutResult := do
  let digest := digestOf data
  let key := keyFor digest
  let path := store.path key
  match ← read fun disk => disk path with
  | some existing =>
      if existing ≠ data then raise (.alreadyExistsWithDifferentContent key)
      else return ⟨key, digest, false⟩
  | none =>
      let created ← withTemporaryFile conditions path.dropLast fun temporary => do
        append conditions temporary data
        attempt conditions.close id
        -- Another writer may have been there in the meantime.
        match ← read fun disk => disk path with
        | some existing =>
            if existing ≠ data then raise (.alreadyExistsWithDifferentContent key)
            else
              unlink conditions temporary
              return false
        | none =>
            replace conditions temporary path
            return true
      return ⟨key, digest, created⟩

def get (key : Text) : Operation Content := do
  match ← read fun disk => disk (store.path key) with
  | none => raise (.keyError key)
  | some bytes => return bytes

def objectExists (key : Text) : Operation Bool := read fun disk => (disk (store.path key)).isSome

def verifyFixity (key : Text) : Operation Bool := do
  let data ← store.get key
  return decide (digestOf data = lastSegment key)

def openStream (key : Text) : Operation FileObject := do
  match ← read fun disk => disk (store.path key) with
  | none => raise (.keyError key)
  | some bytes => return FileObject.opened bytes

def writeNewObject (key : Text) (fileobj : FileObject) (conditions : Conditions) :
    Operation Unit := do
  let path := store.path key
  withTemporaryFile conditions path.dropLast fun temporary => do
    copyfileobj conditions fileobj temporary
    attempt conditions.close id
    match ← read fun disk => disk path with
    | some _ => unlink conditions temporary
    | none => replace conditions temporary path

/-- For the numeral of the chunk size. -/
instance neZeroChunkSize : NeZero 1048576 := ⟨by decide⟩

def streamedContentMatches (key : Text) (spooled : FileObject) : Operation Bool := do
  let existing ← store.openStream key
  return FileObject.sameRest 1048576 existing spooled.rewind

def putStream (stream : UploadStream) (chunkSize : ℕ+) (conditions : Conditions) :
    Operation PutResult := do
  let (digest, spooled) ← hashStreamToSpooledTempfile stream chunkSize conditions
  let key := keyFor digest
  if ← store.objectExists key then
    if ← store.streamedContentMatches key spooled then return ⟨key, digest, false⟩
    else raise (.alreadyExistsWithDifferentContent key)
  else
    store.writeNewObject key spooled.rewind conditions
    return ⟨key, digest, true⟩

end LocalFsObjectStore

inductive Call
  | put (data : Content) (conditions : Conditions)
  | putStream (stream : UploadStream) (chunkSize : ℕ+) (conditions : Conditions)

def Call.content : Call → Content
  | .put data _ => data
  | .putStream stream _ _ => stream.content

def Call.perform (store : LocalFsObjectStore) : Call → Operation PutResult
  | .put data conditions => store.put data conditions
  | .putStream stream chunkSize conditions => store.putStream stream chunkSize conditions

def runCalls (store : LocalFsObjectStore) : Disk → List Call →
    List (Call × Exit StoreError PutResult) × Disk
  | disk, [] => ([], disk)
  | disk, call :: rest =>
      let (exit, next) := call.perform store disk
      let later := runCalls store next rest
      ((call, exit) :: later.1, later.2)

end LandRecords.Storage
