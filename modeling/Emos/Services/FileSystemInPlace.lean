import Mathlib
import Emos.Lib.Method
import Emos.Services.FileSystem

set_option autoImplicit false

/- The methods of `FileSystemService` as the source runs them: statement by statement on
   `&mut self`, where an early `return Err(..)` keeps whatever was changed before it. Each of
   them agrees with the model of `FileSystem`, which returns an error without a new service, so
   every call that fails leaves the service as it was and the runs of that model are the runs
   of the service. -/
namespace Emos.Services.FileSystem

open Checked FileSystemService Method

abbrev Method (α : Type) := EStateM FileSystemError FileSystemService α

namespace InPlace

def createFile (name : String) (permissions : FilePermissions) : Method Nat := do
  if invalidPath name then throw .invalidPath
  let self ← get
  if self.nameTaken self.files FileEntry.name name then throw .fileExists
  let cluster ← modifyGet FileSystemService.allocateCluster
  modify fun self => { self with files := self.files.insert cluster ⟨cluster, name, 0, [], permissions⟩ }
  modify fun self => self.linkToCurrent cluster
  return cluster

def createDirectory (name : String) : Method Nat := do
  if invalidPath name then throw .invalidPath
  let self ← get
  if self.nameTaken self.directories DirectoryEntry.name name then throw .fileExists
  let cluster ← modifyGet FileSystemService.allocateCluster
  modify fun self =>
    { self with directories := self.directories.insert cluster ⟨cluster, name, some self.currentDirectory, []⟩ }
  modify fun self => self.linkToCurrent cluster
  return cluster

def writeFile (cluster : Nat) (data : List UInt8) : Method Nat := do
  match (← get).files.get? cluster with
  | some file =>
      if file.permissions = .readOnly then throw .permissionDenied
      modify fun self => { self with files := self.files.modify cluster (FileEntry.write data) }
      return data.length
  | none => throw .fileNotFound

-- `files.remove` runs before the test of its result, so the failing branch starts from a
-- service that has already been through the removal.
def deleteFile (cluster : Nat) : Method Unit := do
  let removed ← modifyGet fun self => (self.files.get? cluster, { self with files := self.files.erase cluster })
  match removed with
  | some _ =>
      modify fun self =>
        { self with directories := self.directories.modify self.currentDirectory (DirectoryEntry.unlink cluster) }
      modify fun self => { self with fatTable := self.fatTable.erase cluster }
  | none => throw .fileNotFound

def changeDirectory (name : String) : Method Unit := do
  let self ← get
  if name == ".." then
    match self.directories.get? self.currentDirectory with
    | some currentDir =>
        match currentDir.parent with
        | some parent => modify fun self => { self with currentDirectory := parent }
        | none => throw .directoryNotFound
    | none => throw .directoryNotFound
  else
    match self.directories.get? self.currentDirectory with
    | some currentDir =>
        match currentDir.children.find? (namedEntry self.directories DirectoryEntry.name name) with
        | some child => modify fun self => { self with currentDirectory := child }
        | none => throw .directoryNotFound
    | none => throw .directoryNotFound

section Runs

variable (s : FileSystemService)

theorem createFile_run (name : String) (permissions : FilePermissions) :
    (createFile name permissions).run s = outcome s (s.createFile name permissions) := by
  by_cases invalid : invalidPath name = true
  · simp [createFile, FileSystemService.createFile, invalid]
  · by_cases taken : s.nameTaken s.files FileEntry.name name = true
    · simp [createFile, FileSystemService.createFile, invalid, taken]
    · simp [createFile, FileSystemService.createFile, invalid, taken, allocateCluster, linkToCurrent]

theorem createDirectory_run (name : String) :
    (createDirectory name).run s = outcome s (s.createDirectory name) := by
  by_cases invalid : invalidPath name = true
  · simp [createDirectory, FileSystemService.createDirectory, invalid]
  · by_cases taken : s.nameTaken s.directories DirectoryEntry.name name = true
    · simp [createDirectory, FileSystemService.createDirectory, invalid, taken]
    · simp [createDirectory, FileSystemService.createDirectory, invalid, taken, allocateCluster, linkToCurrent]

theorem writeFile_run (cluster : Nat) (data : List UInt8) :
    (writeFile cluster data).run s = outcome s (s.writeFile cluster data) := by
  cases found : s.files.get? cluster with
  | none => simp [writeFile, FileSystemService.writeFile, found]
  | some file =>
      by_cases readOnly : file.permissions = .readOnly
      · simp [writeFile, FileSystemService.writeFile, found, readOnly]
      · simp [writeFile, FileSystemService.writeFile, found, readOnly]

theorem deleteFile_run (cluster : Nat) :
    (deleteFile cluster).run s = outcome s ((fun s' => ((), s')) <$> s.deleteFile cluster) := by
  cases found : s.files.get? cluster with
  | none =>
      simp [deleteFile, FileSystemService.deleteFile, found, SortedMap.erase_of_get?_eq_none found]
  | some file => simp [deleteFile, FileSystemService.deleteFile, found]

theorem changeDirectory_run (name : String) :
    (changeDirectory name).run s = outcome s ((fun s' => ((), s')) <$> s.changeDirectory name) := by
  cases found : s.directories.get? s.currentDirectory with
  | none => by_cases up : (name == "..") = true <;> simp [changeDirectory, FileSystemService.changeDirectory, found, up]
  | some currentDir =>
      by_cases up : (name == "..") = true
      · cases parent : currentDir.parent <;>
          simp [changeDirectory, FileSystemService.changeDirectory, found, up, parent]
      · cases child : currentDir.children.find? (namedEntry s.directories DirectoryEntry.name name) <;>
          simp [changeDirectory, FileSystemService.changeDirectory, found, up, child]

end Runs

theorem failed_calls_change_nothing (name : String) (permissions : FilePermissions) (cluster : Nat)
    (data : List UInt8) :
    Atomic (createFile name permissions) ∧ Atomic (createDirectory name) ∧ Atomic (writeFile cluster data) ∧
      Atomic (deleteFile cluster) ∧ Atomic (changeDirectory name) :=
  ⟨atomic_of_outcome _ (createFile_run · name permissions), atomic_of_outcome _ (createDirectory_run · name),
    atomic_of_outcome _ (writeFile_run · cluster data), atomic_of_outcome _ (deleteFile_run · cluster),
    atomic_of_outcome _ (changeDirectory_run · name)⟩

end InPlace

end Emos.Services.FileSystem
