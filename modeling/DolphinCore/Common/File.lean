import DolphinCore.Lib.FileImage

/-!
# DolphinCore.Common.File

Files that are open. While a file is written, what fails makes the whole fail, so
it has no value; a read gives what is there.
-/

namespace DolphinCore

/-- No offset is larger. -/
def OFF_MAX : Nat := 2 ^ 63 - 1

/-- A file, the position in it, and where it was written other than with padding. -/
structure IOFile where
  data : List Byte
  pos : Nat
  writes : List Extent

namespace IOFile

/-- `Open` for writing -/
def create : IOFile := ⟨[], 0, []⟩

/-- `Open` of an existing file for reading -/
def openRead (data : List Byte) : IOFile := ⟨data, 0, []⟩

def Tell (f : IOFile) : Nat := f.pos

/-- `Seek` from the start; the offset is signed. -/
def Seek (f : IOFile) (off : Nat) : Option IOFile :=
  if off ≤ OFF_MAX then some { f with pos := off } else none

/-- `Seek` to the end -/
def SeekEnd (f : IOFile) : IOFile := { f with pos := f.data.length }

/-- `WriteBytes` and `WriteArray` -/
def WriteBytes (f : IOFile) (bs : List Byte) : Option IOFile :=
  if f.pos + bs.length ≤ OFF_MAX then
    some ⟨putAt f.data f.pos bs, f.pos + bs.length, f.writes ++ [⟨f.pos, bs.length⟩]⟩
  else none

def PadFile (f : IOFile) (numBytes : Nat) : Option IOFile :=
  if f.pos + numBytes ≤ OFF_MAX then
    some { f with
      data := putAt f.data f.pos (List.replicate numBytes 0)
      pos := f.pos + numBytes }
  else none

/-- `ReadBytes` and `ReadArray`: what there is, at most `n` bytes. -/
def ReadBytes (f : IOFile) (n : Nat) : List Byte × IOFile :=
  let got := (f.data.drop f.pos).take n
  (got, { f with pos := f.pos + got.length })

/-- A seek that fails leaves the position. -/
def seekTo (f : IOFile) (off : Nat) : IOFile := (f.Seek off).getD f

variable {f : IOFile} {bs : List Byte}

theorem seek_of_le {off : Nat} (h : off ≤ OFF_MAX) : f.Seek off = some { f with pos := off } :=
  if_pos h

theorem seekTo_of_le {off : Nat} (h : off ≤ OFF_MAX) : f.seekTo off = { f with pos := off } := by
  unfold seekTo
  rw [seek_of_le h]
  rfl

theorem writeBytes_of_le (h : f.pos + bs.length ≤ OFF_MAX) : f.WriteBytes bs =
    some ⟨putAt f.data f.pos bs, f.pos + bs.length, f.writes ++ [⟨f.pos, bs.length⟩]⟩ :=
  if_pos h

theorem readBytes_at {p m s : List Byte} {pos n : Nat} (hdata : f.data = p ++ (m ++ s))
    (hpos : p.length = pos) (hlen : m.length = n) :
    (({ f with pos := pos } : IOFile).ReadBytes n).1 = m := by
  simp only [hdata]
  exact Endian.take_drop_append hpos hlen

@[simp] theorem readBytes_data (f : IOFile) (n : Nat) : (f.ReadBytes n).2.data = f.data := rfl

end IOFile

end DolphinCore
