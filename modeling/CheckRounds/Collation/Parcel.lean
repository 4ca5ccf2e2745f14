import CheckRounds.Collation.Payload

namespace CheckRounds.Collation

/-! A finished frame as it is handed over.

A frame in a file is handed over by the name of the file, and the file goes when the frame
goes.
-/

/-- A finished frame as it is handed over: its bytes, or the file that has them. -/
inductive Parcel
  | buffer (bytes : ByteArray)
  | file (name : String) (length : Nat) (streaming : Bool)

namespace Parcel

/-- The file of the frame, if it has one. -/
def path : Parcel → Option String
  | .buffer _ => none
  | .file name _ _ => some name

/-- The frame, with its file as it is by now. -/
def unpack (parcel : Parcel) (directory : Directory) : Except IoFault Payload :=
  match parcel with
  | .buffer bytes => .ok (.buffer bytes)
  | .file name length streaming =>
      match directory.get? name with
      | none => .error .noDirectory
      | some contents => .ok (.file name contents length streaming)

/-- All bytes of the frame at once. -/
def toBytes (parcel : Parcel) (directory : Directory) : Except IoFault ByteArray :=
  (parcel.unpack directory).map Payload.bytes

/-- What is left of a directory once the frame is gone: its file is removed. -/
def drop (parcel : Parcel) (directory : Directory) : Directory := directory.without parcel.path

/-- Sends the frame and drops it, whether or not it could be sent. -/
def send (parcel : Parcel) (directory : Directory) (tracing : Bool) (room : Room) :
    Transmission × Directory :=
  let transmission := match parcel.unpack directory with
    | .error fault => { sent := .empty, outcome := .error fault, dump := none }
    | .ok payload => payload.send tracing room
  (transmission, parcel.drop directory)

end Parcel

/-- A finished frame, with its bytes in its file if it has one. -/
def Payload.pack (payload : Payload) (directory : Directory) : Parcel × Directory :=
  match payload with
  | .buffer bytes => (.buffer bytes, directory)
  | .file name contents length streaming =>
      (.file name length streaming, directory.insert name contents)

end CheckRounds.Collation
