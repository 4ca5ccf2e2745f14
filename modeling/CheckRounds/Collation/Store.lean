import CheckRounds.Collation.Directory
import CheckRounds.Config

namespace CheckRounds.Collation

/-! Where the bytes of a frame are kept until it is sent.

A store appends, drops bytes at its end and overwrites bytes that it has.  One kind
keeps all bytes in memory; the other stages them in memory and spills them into a
file whenever enough are staged.  `contents` is what clients reason about.

Writing to a file can fail midway.  Every operation says how it ended and what store
it leaves.
-/

structure SpillFile extends TempFile where
  contents : ByteArray := .empty
  cursor : Nat := 0

namespace SpillFile

/-- Some bytes brought to a length: the end is cut off, or zeros are added. -/
def resized (bytes : ByteArray) (length : Nat) : ByteArray :=
  bytes.extract 0 length ++ ⟨Array.replicate (length - bytes.size) 0⟩

/-- Writes at the cursor, over what is there and past the end, as much as there is room for,
and moves the cursor behind what was written. -/
def write (file : SpillFile) (bytes : ByteArray) : Except IoFault Unit × SpillFile :=
  let (written, outcome) := (file.room.after file.cursor).put bytes
  (outcome,
    { file with
      contents :=
        resized file.contents file.cursor ++ written ++
          file.contents.extract (file.cursor + written.size) file.contents.size
      cursor := file.cursor + written.size })

/-- Sets the length and leaves the cursor where it is. -/
def setLength (file : SpillFile) (length : Nat) : SpillFile :=
  { file with contents := resized file.contents length }

def seek (file : SpillFile) (position : Nat) : SpillFile := { file with cursor := position }

def seekEnd (file : SpillFile) : SpillFile := file.seek file.contents.size

end SpillFile

structure BufferStore where
  buffer : ByteArray

/-- Bytes in a file followed by staged bytes.  `spilled` counts the bytes in the file. -/
structure FileStore where
  staging : ByteArray
  file : SpillFile
  spilled : Nat
  /-- So many staged bytes are spilled; at least one. -/
  threshold : Nat
  /-- Whether the finished file is copied to its destination piece by piece. -/
  streaming : Bool

/-- A finished frame.  A file may be changed from outside before it is sent; `length`
stays what it was when the frame was finished. -/
inductive Payload
  | buffer (bytes : ByteArray)
  | file (name : String) (contents : ByteArray) (length : Nat) (streaming : Bool)

/-- Some bytes with others written over them from a position on. -/
def overwritten (bytes : ByteArray) (position : Nat) (patch : ByteArray) : ByteArray :=
  bytes.extract 0 position ++ patch ++ bytes.extract (position + patch.size) bytes.size

namespace BufferStore

def create : BufferStore := ⟨.empty⟩

def contents (store : BufferStore) : ByteArray := store.buffer

def length (store : BufferStore) : Nat := store.buffer.size

def append (store : BufferStore) (bytes : ByteArray) : BufferStore := ⟨store.buffer ++ bytes⟩

def truncate (store : BufferStore) (length : Nat) : Except IoFault Unit × BufferStore :=
  if store.length < length then (.error .truncateOutOfRange, store)
  else (.ok (), ⟨store.buffer.extract 0 length⟩)

def overwrite (store : BufferStore) (position : Nat) (patch : ByteArray) :
    Except IoFault Unit × BufferStore :=
  if store.length < position + patch.size then (.error .overwriteOutOfRange, store)
  else (.ok (), ⟨overwritten store.buffer position patch⟩)

def finish (store : BufferStore) : Payload := .buffer store.buffer

end BufferStore

namespace FileStore

def defaultThreshold : Nat := 65536

def create (streaming : Bool) (threshold : Nat) (file : TempFile) : FileStore :=
  { staging := .empty, file := { file with }, spilled := 0, threshold := max threshold 1, streaming }

def contents (store : FileStore) : ByteArray := store.file.contents ++ store.staging

def length (store : FileStore) : Nat := store.spilled + store.staging.size

/-- Bytes that could not be written stay staged, also those that got into the file. -/
def spill (store : FileStore) : Except IoFault Unit × FileStore :=
  if store.staging.isEmpty then (.ok (), store)
  else
    match store.file.write store.staging with
    | (.error fault, file) => (.error fault, { store with file })
    | (.ok (), file) =>
        (.ok (),
          { store with
            staging := .empty
            file
            spilled := store.spilled + store.staging.size })

def append (store : FileStore) (bytes : ByteArray) : Except IoFault Unit × FileStore :=
  match store with
  | ⟨staging, file, spilled, threshold, streaming⟩ =>
      let staged := staging ++ bytes
      if threshold ≤ staged.size then spill ⟨staged, file, spilled, threshold, streaming⟩
      else (.ok (), ⟨staged, file, spilled, threshold, streaming⟩)

def truncate (store : FileStore) (length : Nat) : Except IoFault Unit × FileStore :=
  if store.length < length then (.error .truncateOutOfRange, store)
  else if store.spilled ≤ length then
    (.ok (), { store with staging := store.staging.extract 0 (length - store.spilled) })
  else
    (.ok (),
      { store with
        staging := .empty
        file := (store.file.setLength length).seekEnd
        spilled := length })

/-- Overwrites the part of a range that lies in the file. -/
def overwriteFile (store : FileStore) (position : Nat) (patch : ByteArray) :
    Except IoFault Unit × SpillFile :=
  if position < store.spilled then
    let inFile := min store.spilled (position + patch.size) - position
    match (store.file.seek position).write (patch.extract 0 inFile) with
    | (.error fault, file) => (.error fault, file)
    | (.ok (), file) => (.ok (), file.seekEnd)
  else (.ok (), store.file)

/-- Overwrites the part of a range that is staged. -/
def overwriteStaged (store : FileStore) (position : Nat) (patch : ByteArray) : ByteArray :=
  if store.spilled < position + patch.size then
    overwritten store.staging (max position store.spilled - store.spilled)
      (patch.extract (store.spilled - position) patch.size)
  else store.staging

def overwrite (store : FileStore) (position : Nat) (patch : ByteArray) :
    Except IoFault Unit × FileStore :=
  if store.length < position + patch.size then (.error .overwriteOutOfRange, store)
  else
    match store.overwriteFile position patch with
    | (.error fault, file) => (.error fault, { store with file })
    | (.ok (), file) => (.ok (), { store with staging := store.overwriteStaged position patch, file })

def finish (store : FileStore) : Except IoFault Payload :=
  match store.spill with
  | (.error fault, _) => .error fault
  | (.ok (), full) => .ok (.file full.file.name full.file.contents full.spilled full.streaming)

end FileStore

inductive Store
  | memory (store : BufferStore)
  | disk (store : FileStore)

namespace Store

def create (mode : CollationMode) (threshold : Nat) (file : TempFile) : Store :=
  if mode.usesFile then .disk (.create mode.isDirect threshold file) else .memory .create

def contents : Store → ByteArray
  | .memory store => store.contents
  | .disk store => store.contents

def length : Store → Nat
  | .memory store => store.length
  | .disk store => store.length

def append (store : Store) (bytes : ByteArray) : Except IoFault Unit × Store :=
  match store with
  | .memory store => (.ok (), .memory (store.append bytes))
  | .disk store => (store.append bytes).map id .disk

def truncate (store : Store) (length : Nat) : Except IoFault Unit × Store :=
  match store with
  | .memory store => (store.truncate length).map id .memory
  | .disk store => (store.truncate length).map id .disk

def overwrite (store : Store) (position : Nat) (patch : ByteArray) :
    Except IoFault Unit × Store :=
  match store with
  | .memory store => (store.overwrite position patch).map id .memory
  | .disk store => (store.overwrite position patch).map id .disk

def finish : Store → Except IoFault Payload
  | .memory store => .ok store.finish
  | .disk store => store.finish

def inFile : Store → Nat
  | .memory _ => 0
  | .disk store => store.file.contents.size

/-- The name of the file, if there is one. -/
def file? : Store → Option String
  | .memory _ => none
  | .disk store => some store.file.name

end Store

end CheckRounds.Collation
