import Mathlib
import Emos.Lib.Checked
import Emos.Lib.SortedMap

set_option autoImplicit false

/- `FileSystemService` of services/file_system_service.rs. Files and directories live in two
   `BTreeMap`s keyed by cluster and share one cluster counter, an `AtomicU64` whose
   `fetch_add` wraps. A method is modelled as returning either an error or its result together
   with the new service; `FileSystemInPlace` runs the methods statement by statement, as the
   source does, and shows that every one that fails has changed nothing.
   The time stamps and attribute fields are only ever written with constants and are left out. -/
namespace Emos.Services.FileSystem

open Checked

inductive FilePermissions where
  | readOnly
  | writeOnly
  | readWrite
  | execute
deriving DecidableEq, Repr

inductive FileSystemError where
  | fileNotFound
  | directoryNotFound
  | permissionDenied
  | fileExists
  | directoryNotEmpty
  | invalidPath
  | outOfSpace
  | invalidCluster
  | clusterChainError
deriving DecidableEq, Repr

structure FileEntry where
  cluster : Nat
  name : String
  size : Nat
  data : List UInt8
  permissions : FilePermissions
deriving DecidableEq, Repr

structure DirectoryEntry where
  cluster : Nat
  name : String
  parent : Option Nat
  children : List Nat
deriving DecidableEq, Repr

def DirectoryEntry.push (cluster : Nat) (dir : DirectoryEntry) : DirectoryEntry :=
  { dir with children := dir.children ++ [cluster] }

def DirectoryEntry.unlink (cluster : Nat) (dir : DirectoryEntry) : DirectoryEntry :=
  { dir with children := dir.children.filter (fun child => child != cluster) }

def FileEntry.write (data : List UInt8) (file : FileEntry) : FileEntry :=
  { file with data := data, size := data.length }

@[simp] theorem DirectoryEntry.push_cluster (cluster : Nat) (dir : DirectoryEntry) :
    (dir.push cluster).cluster = dir.cluster := rfl
@[simp] theorem DirectoryEntry.push_name (cluster : Nat) (dir : DirectoryEntry) : (dir.push cluster).name = dir.name := rfl
@[simp] theorem DirectoryEntry.push_parent (cluster : Nat) (dir : DirectoryEntry) :
    (dir.push cluster).parent = dir.parent := rfl
@[simp] theorem DirectoryEntry.push_children (cluster : Nat) (dir : DirectoryEntry) :
    (dir.push cluster).children = dir.children ++ [cluster] := rfl
@[simp] theorem DirectoryEntry.unlink_cluster (cluster : Nat) (dir : DirectoryEntry) :
    (dir.unlink cluster).cluster = dir.cluster := rfl
@[simp] theorem DirectoryEntry.unlink_name (cluster : Nat) (dir : DirectoryEntry) :
    (dir.unlink cluster).name = dir.name := rfl
@[simp] theorem DirectoryEntry.unlink_parent (cluster : Nat) (dir : DirectoryEntry) :
    (dir.unlink cluster).parent = dir.parent := rfl
@[simp] theorem DirectoryEntry.unlink_children (cluster : Nat) (dir : DirectoryEntry) :
    (dir.unlink cluster).children = dir.children.filter (fun child => child != cluster) := rfl
@[simp] theorem FileEntry.write_data (data : List UInt8) (file : FileEntry) : (file.write data).data = data := rfl
@[simp] theorem FileEntry.write_size (data : List UInt8) (file : FileEntry) :
    (file.write data).size = data.length := rfl
@[simp] theorem FileEntry.write_permissions (data : List UInt8) (file : FileEntry) :
    (file.write data).permissions = file.permissions := rfl

structure FileSystemService where
  nextCluster : Nat
  files : SortedMap Nat FileEntry
  directories : SortedMap Nat DirectoryEntry
  currentDirectory : Nat
  fatTable : SortedMap Nat Nat

namespace FileSystemService

def createRootDirectory (self : FileSystemService) : FileSystemService :=
  let rootCluster := 0
  let rootDir : DirectoryEntry := ⟨rootCluster, "/", none, []⟩
  { self with directories := self.directories.insert rootCluster rootDir, currentDirectory := rootCluster }

def new : FileSystemService :=
  createRootDirectory ⟨2, .empty, .empty, 0, .empty⟩

def endOfChain : Nat := 0xFFFFFFFF

def allocateCluster (self : FileSystemService) : Nat × FileSystemService :=
  let cluster := self.nextCluster
  (cluster, { self with nextCluster := wrappingAdd 64 self.nextCluster 1,
                        fatTable := self.fatTable.insert cluster endOfChain })

def invalidPath (name : String) : Bool := name.isEmpty || name.toList.contains '/'

def namedEntry {E : Type} (entries : SortedMap Nat E) (entryName : E → String) (name : String)
    (child : Nat) : Bool :=
  match entries.get? child with
  | some entry => entryName entry == name
  | none => false

-- The scan `create_file` and `create_directory` make before allocating; a missing current
-- directory is skipped.
def nameTaken {E : Type} (self : FileSystemService) (entries : SortedMap Nat E) (entryName : E → String)
    (name : String) : Bool :=
  match self.directories.get? self.currentDirectory with
  | some currentDir => currentDir.children.any (namedEntry entries entryName name)
  | none => false

def linkToCurrent (self : FileSystemService) (cluster : Nat) : FileSystemService :=
  { self with directories := self.directories.modify self.currentDirectory (DirectoryEntry.push cluster) }

def createFile (self : FileSystemService) (name : String) (permissions : FilePermissions) :
    Except FileSystemError (Nat × FileSystemService) :=
  if invalidPath name then .error .invalidPath
  else if self.nameTaken self.files FileEntry.name name then .error .fileExists
  else
    let (cluster, self) := self.allocateCluster
    let file : FileEntry := ⟨cluster, name, 0, [], permissions⟩
    let self := { self with files := self.files.insert cluster file }
    .ok (cluster, self.linkToCurrent cluster)

def createDirectory (self : FileSystemService) (name : String) :
    Except FileSystemError (Nat × FileSystemService) :=
  if invalidPath name then .error .invalidPath
  else if self.nameTaken self.directories DirectoryEntry.name name then .error .fileExists
  else
    let (cluster, self) := self.allocateCluster
    let directory : DirectoryEntry := ⟨cluster, name, some self.currentDirectory, []⟩
    let self := { self with directories := self.directories.insert cluster directory }
    .ok (cluster, self.linkToCurrent cluster)

def writeFile (self : FileSystemService) (cluster : Nat) (data : List UInt8) :
    Except FileSystemError (Nat × FileSystemService) :=
  match self.files.get? cluster with
  | some file =>
      if file.permissions = .readOnly then .error .permissionDenied
      else
        .ok (data.length, { self with files := self.files.modify cluster (FileEntry.write data) })
  | none => .error .fileNotFound

def readFile (self : FileSystemService) (cluster : Nat) : Except FileSystemError (List UInt8) :=
  match self.files.get? cluster with
  | some file => if file.permissions = .writeOnly then .error .permissionDenied else .ok file.data
  | none => .error .fileNotFound

-- The file is unlinked from the current directory only, wherever it was created.
def deleteFile (self : FileSystemService) (cluster : Nat) : Except FileSystemError FileSystemService :=
  match self.files.get? cluster with
  | some _ =>
      let self := { self with files := self.files.erase cluster }
      let unlinked := self.directories.modify self.currentDirectory (DirectoryEntry.unlink cluster)
      let self := { self with directories := unlinked }
      .ok { self with fatTable := self.fatTable.erase cluster }
  | none => .error .fileNotFound

def listFiles (self : FileSystemService) : List (String × Bool) :=
  match self.directories.get? self.currentDirectory with
  | some currentDir =>
      currentDir.children.filterMap fun child =>
        match self.files.get? child with
        | some file => some (file.name, false)
        | none => (self.directories.get? child).map fun dir => (dir.name, true)
  | none => []

def changeDirectory (self : FileSystemService) (name : String) : Except FileSystemError FileSystemService :=
  if name == ".." then
    match self.directories.get? self.currentDirectory with
    | some currentDir =>
        match currentDir.parent with
        | some parent => .ok { self with currentDirectory := parent }
        | none => .error .directoryNotFound
    | none => .error .directoryNotFound
  else
    match self.directories.get? self.currentDirectory with
    | some currentDir =>
        match currentDir.children.find? (namedEntry self.directories DirectoryEntry.name name) with
        | some child => .ok { self with currentDirectory := child }
        | none => .error .directoryNotFound
    | none => .error .directoryNotFound

-- The `while let` loop of `get_current_path` from `current` with `path` built so far, run for
-- at most `fuel` rounds; `none` when the fuel runs out first.
def currentPathFrom (self : FileSystemService) : Nat → Nat → String → Option String
  | 0, _, _ => none
  | fuel + 1, current, path =>
      match self.directories.get? current with
      | some dir =>
          if dir.name == "/" then some ("/" ++ path)
          else currentPathFrom self fuel (dir.parent.getD 0) (dir.name ++ "/" ++ path)
      | none => some path

def getCurrentPath (self : FileSystemService) (fuel : Nat) : Option String :=
  self.currentPathFrom fuel self.currentDirectory ""

def getFatInfo (self : FileSystemService) : Nat × Nat :=
  (self.fatTable.size, self.files.size + self.directories.size)

def isClusterAllocated (self : FileSystemService) (cluster : Nat) : Bool :=
  self.fatTable.contains cluster || cluster == 0

theorem createFile_eq_ok {self self' : FileSystemService} {name : String} {permissions : FilePermissions}
    {cluster : Nat} :
    self.createFile name permissions = .ok (cluster, self') ↔
      invalidPath name = false ∧ self.nameTaken self.files FileEntry.name name = false ∧
        cluster = self.nextCluster ∧
        self' = ⟨wrappingAdd 64 self.nextCluster 1, self.files.insert cluster ⟨cluster, name, 0, [], permissions⟩,
          self.directories.modify self.currentDirectory (DirectoryEntry.push cluster),
          self.currentDirectory, self.fatTable.insert cluster endOfChain⟩ := by
  unfold createFile
  by_cases invalid : invalidPath name
  · simp [invalid]
  · by_cases taken : self.nameTaken self.files FileEntry.name name
    · simp [invalid, taken]
    · simp only [invalid, taken, if_false, Bool.false_eq_true, Except.ok.injEq, Prod.mk.injEq, true_and]
      constructor
      · rintro ⟨rfl, rfl⟩
        exact ⟨rfl, rfl⟩
      · rintro ⟨rfl, rfl⟩
        exact ⟨rfl, rfl⟩

theorem createDirectory_eq_ok {self self' : FileSystemService} {name : String} {cluster : Nat} :
    self.createDirectory name = .ok (cluster, self') ↔
      invalidPath name = false ∧ self.nameTaken self.directories DirectoryEntry.name name = false ∧
        cluster = self.nextCluster ∧
        self' = ⟨wrappingAdd 64 self.nextCluster 1, self.files,
          (self.directories.insert cluster ⟨cluster, name, some self.currentDirectory, []⟩).modify
            self.currentDirectory (DirectoryEntry.push cluster),
          self.currentDirectory, self.fatTable.insert cluster endOfChain⟩ := by
  unfold createDirectory
  by_cases invalid : invalidPath name
  · simp [invalid]
  · by_cases taken : self.nameTaken self.directories DirectoryEntry.name name
    · simp [invalid, taken]
    · simp only [invalid, taken, if_false, Bool.false_eq_true, Except.ok.injEq, Prod.mk.injEq, true_and]
      constructor
      · rintro ⟨rfl, rfl⟩
        exact ⟨rfl, rfl⟩
      · rintro ⟨rfl, rfl⟩
        exact ⟨rfl, rfl⟩

theorem writeFile_eq_ok {self self' : FileSystemService} {cluster written : Nat} {data : List UInt8} :
    self.writeFile cluster data = .ok (written, self') ↔
      ∃ file, self.files.get? cluster = some file ∧ file.permissions ≠ .readOnly ∧ written = data.length ∧
        self' = { self with files := self.files.modify cluster (FileEntry.write data) } := by
  unfold writeFile
  cases found : self.files.get? cluster with
  | none => simp
  | some file =>
      by_cases denied : file.permissions = .readOnly
      · simp [denied]
      · simp only [denied, if_false, Except.ok.injEq, Prod.mk.injEq, Option.some.injEq, exists_eq_left',
          ne_eq, not_false_eq_true, true_and]
        constructor
        · rintro ⟨rfl, rfl⟩
          exact ⟨rfl, rfl⟩
        · rintro ⟨rfl, rfl⟩
          exact ⟨rfl, rfl⟩

theorem deleteFile_eq_ok {self self' : FileSystemService} {cluster : Nat} :
    self.deleteFile cluster = .ok self' ↔
      (self.files.get? cluster).isSome ∧
        self' = ⟨self.nextCluster, self.files.erase cluster,
          self.directories.modify self.currentDirectory (DirectoryEntry.unlink cluster),
          self.currentDirectory, self.fatTable.erase cluster⟩ := by
  unfold deleteFile
  cases found : self.files.get? cluster with
  | none => simp
  | some file =>
      simp only [Option.isSome_some, true_and, Except.ok.injEq]
      exact eq_comm

-- `delete_file` unlinks the file from the current directory only, so the root keeps a child that
-- is neither a file nor a directory.
theorem delete_from_subdirectory_leaves_dangling_child :
    (do
      let (_, s) ← new.createDirectory "a"
      let (file, s) ← s.createFile "f" .readWrite
      let s ← s.changeDirectory "a"
      let s ← s.deleteFile file
      pure (file, (s.directories.get? 0).map DirectoryEntry.children, s.files.get? file, s.directories.get? file)) =
    (.ok (3, some [2, 3], none, none) : Except FileSystemError _) := by
  decide

theorem changeDirectory_eq_ok {self self' : FileSystemService} {name : String}
    (result : self.changeDirectory name = .ok self') :
    ∃ currentDir target, self.directories.get? self.currentDirectory = some currentDir ∧
      (currentDir.parent = some target ∨
        target ∈ currentDir.children ∧ namedEntry self.directories DirectoryEntry.name name target = true) ∧
      self' = { self with currentDirectory := target } := by
  unfold changeDirectory at result
  cases found : self.directories.get? self.currentDirectory with
  | none => split at result <;> simp [found] at result
  | some currentDir =>
      split at result
      · cases parent : currentDir.parent with
        | none => simp [found, parent] at result
        | some target =>
            simp only [found, parent, Except.ok.injEq] at result
            exact ⟨currentDir, target, rfl, .inl parent, result.symm⟩
      · cases child : currentDir.children.find? (namedEntry self.directories DirectoryEntry.name name) with
        | none => simp [found, child] at result
        | some target =>
            simp only [found, child, Except.ok.injEq] at result
            exact ⟨currentDir, target, rfl, .inr ⟨List.mem_of_find?_eq_some child, List.find?_some child⟩,
              result.symm⟩

end FileSystemService

/- Runs. The service is one global behind a lock, and every method call is a step of it; the
   calls that change nothing (`read_file`, `list_files`, `get_current_path`) are observations
   of the state a run reaches. A run records what each call returned. -/

inductive Call where
  | createFile (name : String) (permissions : FilePermissions)
  | createDirectory (name : String)
  | writeFile (cluster : Nat) (data : List UInt8)
  | deleteFile (cluster : Nat)
  | changeDirectory (name : String)

inductive Reply where
  | cluster (result : Except FileSystemError Nat)
  | written (result : Except FileSystemError Nat)
  | done (result : Except FileSystemError Unit)

namespace FileSystemService

def settle {α : Type} (self : FileSystemService) (wrap : Except FileSystemError α → Reply) :
    Except FileSystemError (α × FileSystemService) → Reply × FileSystemService
  | .ok (value, self') => (wrap (.ok value), self')
  | .error e => (wrap (.error e), self)

def perform (self : FileSystemService) : Call → Reply × FileSystemService
  | .createFile name permissions => self.settle .cluster (self.createFile name permissions)
  | .createDirectory name => self.settle .cluster (self.createDirectory name)
  | .writeFile cluster data => self.settle .written (self.writeFile cluster data)
  | .deleteFile cluster => self.settle .done ((fun self' => ((), self')) <$> self.deleteFile cluster)
  | .changeDirectory name => self.settle .done ((fun self' => ((), self')) <$> self.changeDirectory name)

def run (self : FileSystemService) : List Call → List Reply × FileSystemService
  | [] => ([], self)
  | call :: calls =>
      let (reply, self') := self.perform call
      let (replies, final) := self'.run calls
      (reply :: replies, final)

end FileSystemService

def Reply.allocated : Reply → Bool
  | .cluster (.ok _) => true
  | _ => false

def allocations (replies : List Reply) : Nat := replies.countP Reply.allocated

end Emos.Services.FileSystem
