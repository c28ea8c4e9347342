import Mathlib
import Emos.Services.FileSystem

set_option autoImplicit false

/- The directory tree of `FileSystemService`, over every run whose cluster counter does not wrap.
   Directories are never removed and a new one always gets a cluster above every cluster in use,
   so parents have smaller clusters than their children and the walk of `get_current_path`
   towards the root ends. -/
namespace Emos.Services.FileSystem

open Checked FileSystemService

inductive Step : FileSystemService → FileSystemService → Prop
  | createFile {self self' : FileSystemService} (name : String) (permissions : FilePermissions) (cluster : Nat)
      (result : self.createFile name permissions = .ok (cluster, self')) : Step self self'
  | createDirectory {self self' : FileSystemService} (name : String) (cluster : Nat)
      (result : self.createDirectory name = .ok (cluster, self')) : Step self self'
  | writeFile {self self' : FileSystemService} (cluster : Nat) (data : List UInt8) (written : Nat)
      (result : self.writeFile cluster data = .ok (written, self')) : Step self self'
  | deleteFile {self self' : FileSystemService} (cluster : Nat) (result : self.deleteFile cluster = .ok self') :
      Step self self'
  | changeDirectory {self self' : FileSystemService} (name : String)
      (result : self.changeDirectory name = .ok self') : Step self self'

theorem settle_cases {α : Type} (self : FileSystemService) (wrap : Except FileSystemError α → Reply)
    (result : Except FileSystemError (α × FileSystemService)) :
    (self.settle wrap result).2 = self ∨ ∃ value, result = .ok (value, (self.settle wrap result).2) := by
  cases result with
  | error e => exact .inl rfl
  | ok pair => exact .inr ⟨pair.1, rfl⟩

theorem eq_ok_of_map_unit {result : Except FileSystemError FileSystemService} {value : Unit} {self' : FileSystemService}
    (mapped : (fun self' => ((), self')) <$> result = .ok (value, self')) : result = .ok self' := by
  cases result with
  | error e => cases mapped
  | ok self'' =>
      simp only [Functor.map, Except.map, Except.ok.injEq, Prod.mk.injEq] at mapped
      rw [mapped.2]

theorem perform_step (self : FileSystemService) (call : Call) :
    (self.perform call).2 = self ∨ Step self (self.perform call).2 := by
  cases call with
  | createFile name permissions =>
      obtain same | ⟨cluster, result⟩ := settle_cases self .cluster (self.createFile name permissions)
      · exact .inl same
      · exact .inr (.createFile name permissions cluster result)
  | createDirectory name =>
      obtain same | ⟨cluster, result⟩ := settle_cases self .cluster (self.createDirectory name)
      · exact .inl same
      · exact .inr (.createDirectory name cluster result)
  | writeFile cluster data =>
      obtain same | ⟨written, result⟩ := settle_cases self .written (self.writeFile cluster data)
      · exact .inl same
      · exact .inr (.writeFile cluster data written result)
  | deleteFile cluster =>
      obtain same | ⟨_, result⟩ := settle_cases self .done ((fun self' => ((), self')) <$> self.deleteFile cluster)
      · exact .inl same
      · exact .inr (.deleteFile cluster (eq_ok_of_map_unit result))
  | changeDirectory name =>
      obtain same | ⟨_, result⟩ := settle_cases self .done ((fun self' => ((), self')) <$> self.changeDirectory name)
      · exact .inl same
      · exact .inr (.changeDirectory name (eq_ok_of_map_unit result))

theorem perform_nextCluster (self : FileSystemService) (call : Call) :
    (self.perform call).2.nextCluster =
      if (self.perform call).1.allocated then wrappingAdd 64 self.nextCluster 1 else self.nextCluster := by
  cases call with
  | createFile name permissions =>
      cases result : self.createFile name permissions with
      | error e => simp [perform, settle, result, Reply.allocated]
      | ok pair =>
          obtain ⟨-, -, -, next⟩ := createFile_eq_ok.mp result
          simp [perform, settle, result, Reply.allocated, next]
  | createDirectory name =>
      cases result : self.createDirectory name with
      | error e => simp [perform, settle, result, Reply.allocated]
      | ok pair =>
          obtain ⟨-, -, -, next⟩ := createDirectory_eq_ok.mp result
          simp [perform, settle, result, Reply.allocated, next]
  | writeFile cluster data =>
      cases result : self.writeFile cluster data with
      | error e => simp [perform, settle, result, Reply.allocated]
      | ok pair =>
          obtain ⟨-, -, -, -, next⟩ := writeFile_eq_ok.mp result
          simp [perform, settle, result, Reply.allocated, next]
  | deleteFile cluster =>
      cases result : self.deleteFile cluster with
      | error e => simp [perform, settle, result, Reply.allocated, Functor.map, Except.map]
      | ok self' =>
          obtain ⟨-, next⟩ := deleteFile_eq_ok.mp result
          simp [perform, settle, result, Reply.allocated, Functor.map, Except.map, next]
  | changeDirectory name =>
      cases result : self.changeDirectory name with
      | error e => simp [perform, settle, result, Reply.allocated, Functor.map, Except.map]
      | ok self' =>
          obtain ⟨currentDir, target, found, moved, next⟩ := changeDirectory_eq_ok result
          simp [perform, settle, result, Reply.allocated, Functor.map, Except.map, next]

theorem run_append (self : FileSystemService) (calls more : List Call) :
    self.run (calls ++ more) =
      ((self.run calls).1 ++ ((self.run calls).2.run more).1, ((self.run calls).2.run more).2) := by
  induction calls generalizing self with
  | nil => rfl
  | cons call calls ih => simp [run, ih]

-- Every directory other than the root records its own cluster, is not called "/", and hangs
-- below a directory with a smaller cluster that lists it as a child.
def Linked (directories : SortedMap Nat DirectoryEntry) : Prop :=
  ∀ c dir, directories.get? c = some dir → c ≠ 0 →
    dir.cluster = c ∧ dir.name ≠ "/" ∧
      ∃ p parent, dir.parent = some p ∧ p < c ∧ directories.get? p = some parent ∧ c ∈ parent.children

def KeepsPlace (f : DirectoryEntry → DirectoryEntry) : Prop :=
  ∀ dir, (f dir).cluster = dir.cluster ∧ (f dir).name = dir.name ∧ (f dir).parent = dir.parent

structure Tree (s : FileSystemService) : Prop where
  root : ∃ children, s.directories.get? 0 = some ⟨0, "/", none, children⟩
  current : (s.directories.get? s.currentDirectory).isSome
  linked : Linked s.directories
  fresh : ∀ c, (s.directories.get? c).isSome ∨ (s.files.get? c).isSome → c < s.nextCluster
  separate : ∀ c, (s.files.get? c).isSome → s.directories.get? c = none

theorem keepsPlace_push (cluster : Nat) : KeepsPlace (DirectoryEntry.push cluster) :=
  fun _ => ⟨rfl, rfl, rfl⟩

theorem keepsPlace_unlink (cluster : Nat) : KeepsPlace (DirectoryEntry.unlink cluster) :=
  fun _ => ⟨rfl, rfl, rfl⟩

theorem root_modify {m : SortedMap Nat DirectoryEntry} {k : Nat} {f : DirectoryEntry → DirectoryEntry}
    (keeps : KeepsPlace f) (root : ∃ children, m.get? 0 = some ⟨0, "/", none, children⟩) :
    ∃ children, (m.modify k f).get? 0 = some ⟨0, "/", none, children⟩ := by
  obtain ⟨children, found⟩ := root
  rw [SortedMap.get?_modify_of_eq_some found]
  split
  · obtain ⟨cluster, name, parent⟩ := keeps ⟨0, "/", none, children⟩
    refine ⟨(f ⟨0, "/", none, children⟩).children, ?_⟩
    cases image : f ⟨0, "/", none, children⟩
    simp_all
  · exact ⟨children, rfl⟩

theorem linked_congr {m m' : SortedMap Nat DirectoryEntry} (same : ∀ c, m'.get? c = m.get? c) (linked : Linked m) :
    Linked m' := by
  intro c dir found nonRoot
  rw [same] at found
  obtain ⟨cluster, name, p, parent, up, below, parentFound, listed⟩ := linked c dir found nonRoot
  exact ⟨cluster, name, p, parent, up, below, (same p).trans parentFound, listed⟩

theorem linked_modify {m : SortedMap Nat DirectoryEntry} {k : Nat} {f : DirectoryEntry → DirectoryEntry}
    (linked : Linked m) (keeps : KeepsPlace f)
    (children : ∀ dir c, c ∈ dir.children → (m.get? c).isSome → c ∈ (f dir).children) :
    Linked (m.modify k f) := by
  intro c dir found nonRoot
  obtain ⟨old, oldFound, rfl⟩ := SortedMap.get?_modify_eq_some found
  obtain ⟨cluster, name, p, parent, up, below, parentFound, listed⟩ := linked c old oldFound nonRoot
  have kept : KeepsPlace (fun dir => if c = k then f dir else dir) := by
    intro dir
    split
    · exact keeps dir
    · exact ⟨rfl, rfl, rfl⟩
  obtain ⟨keptCluster, keptName, keptParent⟩ := kept old
  refine ⟨keptCluster.trans cluster, by rw [keptName]; exact name, p, if p = k then f parent else parent,
    keptParent.trans up, below, SortedMap.get?_modify_of_eq_some parentFound, ?_⟩
  split
  · exact children parent c listed (by simp [oldFound])
  · exact listed

theorem linked_insert {m : SortedMap Nat DirectoryEntry} {c p : Nat} {dir parent : DirectoryEntry}
    (linked : Linked m) (unused : m.get? c = none) (own : dir.cluster = c) (name : dir.name ≠ "/")
    (up : dir.parent = some p) (below : p < c) (parentFound : m.get? p = some parent) (listed : c ∈ parent.children) :
    Linked (m.insert c dir) := by
  intro c' dir' found nonRoot
  by_cases same : c' = c
  · subst same
    rw [SortedMap.get?_insert_self, Option.some.injEq] at found
    subst found
    refine ⟨own, name, p, parent, up, below, ?_, listed⟩
    rw [SortedMap.get?_insert_of_ne _ _ _ _ (Nat.ne_of_lt below)]
    exact parentFound
  · rw [SortedMap.get?_insert_of_ne _ _ _ _ same] at found
    obtain ⟨cluster, name', p', parent', up', below', parentFound', listed'⟩ := linked c' dir' found nonRoot
    have other : p' ≠ c := by
      rintro rfl
      rw [unused] at parentFound'
      cases parentFound'
    refine ⟨cluster, name', p', parent', up', below', ?_, listed'⟩
    rw [SortedMap.get?_insert_of_ne _ _ _ _ other]
    exact parentFound'

theorem ne_root_name {name : String} (valid : invalidPath name = false) : name ≠ "/" := by
  rintro rfl
  cases valid

section Steps

variable {s s' : FileSystemService}

theorem Tree.counter_pos (tree : Tree s) : 0 < s.nextCluster := by
  obtain ⟨children, root⟩ := tree.root
  exact tree.fresh 0 (.inl (by simp [root]))

theorem Tree.unused (tree : Tree s) : s.directories.get? s.nextCluster = none ∧ s.files.get? s.nextCluster = none := by
  constructor
  · cases found : s.directories.get? s.nextCluster with
    | none => rfl
    | some dir => exact absurd (tree.fresh _ (.inl (by simp [found]))) (Nat.lt_irrefl _)
  · cases found : s.files.get? s.nextCluster with
    | none => rfl
    | some file => exact absurd (tree.fresh _ (.inr (by simp [found]))) (Nat.lt_irrefl _)

theorem tree_createFile (tree : Tree s) {name : String} {permissions : FilePermissions} {cluster : Nat}
    (result : s.createFile name permissions = .ok (cluster, s')) (room : s.nextCluster + 1 < 2 ^ 64) : Tree s' := by
  obtain ⟨-, -, rfl, rfl⟩ := createFile_eq_ok.mp result
  obtain ⟨unusedDir, -⟩ := tree.unused
  refine ⟨root_modify (keepsPlace_push _) tree.root, by simpa using tree.current,
    linked_modify tree.linked (keepsPlace_push _) (fun dir c member _ => by simp [member]), ?_, ?_⟩
  · intro c used
    show c < wrappingAdd 64 s.nextCluster 1
    rw [wrappingAdd_of_lt 64 _ _ room]
    by_cases new : c = s.nextCluster
    · omega
    · have old : (s.directories.get? c).isSome ∨ (s.files.get? c).isSome := by
        simpa [SortedMap.get?_insert_of_ne _ _ _ _ new] using used
      have below := tree.fresh c old
      omega
  · intro c file
    by_cases new : c = s.nextCluster
    · subst new
      exact SortedMap.get?_modify_eq_none unusedDir
    · exact SortedMap.get?_modify_eq_none
        (tree.separate c (by simpa [SortedMap.get?_insert_of_ne _ _ _ _ new] using file))

theorem tree_createDirectory (tree : Tree s) {name : String} {cluster : Nat}
    (result : s.createDirectory name = .ok (cluster, s')) (room : s.nextCluster + 1 < 2 ^ 64) : Tree s' := by
  obtain ⟨valid, -, rfl, rfl⟩ := createDirectory_eq_ok.mp result
  obtain ⟨unusedDir, -⟩ := tree.unused
  obtain ⟨currentDir, currentFound⟩ := Option.isSome_iff_exists.mp tree.current
  have currentBelow : s.currentDirectory < s.nextCluster := tree.fresh _ (.inl tree.current)
  have positive := tree.counter_pos
  -- The source inserts the new directory before it updates the parent; as lookups the two
  -- orders agree, and the other order is the one `linked_insert` speaks about.
  have lookups : ∀ c,
      ((s.directories.insert s.nextCluster ⟨s.nextCluster, name, some s.currentDirectory, []⟩).modify
        s.currentDirectory (DirectoryEntry.push s.nextCluster)).get? c =
      ((s.directories.modify s.currentDirectory (DirectoryEntry.push s.nextCluster)).insert s.nextCluster
        ⟨s.nextCluster, name, some s.currentDirectory, []⟩).get? c := by
    intro c
    simp only [SortedMap.get?_modify, SortedMap.get?_insert]
    by_cases new : c = s.nextCluster
    · simp [new, Nat.ne_of_gt currentBelow]
    · simp [new]
  have parentFound := SortedMap.get?_modify_of_eq_some (k := s.currentDirectory)
    (f := DirectoryEntry.push s.nextCluster) currentFound
  rw [if_pos rfl] at parentFound
  refine ⟨?_, ?_, linked_congr lookups ?_, ?_, ?_⟩
  · obtain ⟨children, found⟩ := root_modify (k := s.currentDirectory) (keepsPlace_push s.nextCluster) tree.root
    exact ⟨children, by rw [lookups, SortedMap.get?_insert_of_ne _ _ _ _ (by omega)]; exact found⟩
  · simp [lookups, SortedMap.get?_insert_of_ne _ _ _ _ (Nat.ne_of_lt currentBelow), tree.current]
  · exact linked_insert (linked_modify tree.linked (keepsPlace_push _) (fun dir c member _ => by simp [member]))
      (SortedMap.get?_modify_eq_none unusedDir) rfl (ne_root_name valid) rfl currentBelow parentFound (by simp)
  · intro c used
    show c < wrappingAdd 64 s.nextCluster 1
    rw [wrappingAdd_of_lt 64 _ _ room]
    by_cases new : c = s.nextCluster
    · omega
    · have old : (s.directories.get? c).isSome ∨ (s.files.get? c).isSome := by
        simpa [lookups, SortedMap.get?_insert_of_ne _ _ _ _ new] using used
      have below := tree.fresh c old
      omega
  · intro c file
    have other : c ≠ s.nextCluster := Nat.ne_of_lt (tree.fresh c (.inr file))
    rw [lookups, SortedMap.get?_insert_of_ne _ _ _ _ other]
    exact SortedMap.get?_modify_eq_none (tree.separate c file)

theorem tree_writeFile (tree : Tree s) {cluster written : Nat} {data : List UInt8}
    (result : s.writeFile cluster data = .ok (written, s')) : Tree s' := by
  obtain ⟨file, -, -, -, rfl⟩ := writeFile_eq_ok.mp result
  exact ⟨tree.root, tree.current, tree.linked, fun c used => tree.fresh c (by simpa using used),
    fun c file => tree.separate c (by simpa using file)⟩

theorem tree_deleteFile (tree : Tree s) {cluster : Nat} (result : s.deleteFile cluster = .ok s') : Tree s' := by
  obtain ⟨isFile, rfl⟩ := deleteFile_eq_ok.mp result
  have notDir := tree.separate cluster isFile
  refine ⟨root_modify (keepsPlace_unlink _) tree.root, by simpa using tree.current,
    linked_modify tree.linked (keepsPlace_unlink _) ?_, ?_, ?_⟩
  · intro dir c member isDir
    have other : c ≠ cluster := by
      rintro rfl
      simp [notDir] at isDir
    simp [member, other]
  · intro c used
    apply tree.fresh c
    rcases used with dir | file
    · exact .inl (by simpa using dir)
    · have other : c ≠ cluster := by
        rintro rfl
        simp at file
      exact .inr (by simpa [SortedMap.get?_erase_of_ne _ _ _ other] using file)
  · intro c file
    have other : c ≠ cluster := by
      rintro rfl
      simp at file
    exact SortedMap.get?_modify_eq_none (tree.separate c (by simpa [SortedMap.get?_erase_of_ne _ _ _ other] using file))

theorem tree_changeDirectory (tree : Tree s) {name : String} (result : s.changeDirectory name = .ok s') : Tree s' := by
  obtain ⟨currentDir, target, found, moved, rfl⟩ := changeDirectory_eq_ok result
  refine ⟨tree.root, ?_, tree.linked, tree.fresh, tree.separate⟩
  rcases moved with up | ⟨-, named⟩
  · -- the root has no parent, so the current directory is another one, whose parent exists
    by_cases atRoot : s.currentDirectory = 0
    · obtain ⟨children, root⟩ := tree.root
      rw [atRoot, root, Option.some.injEq] at found
      subst found
      cases up
    · obtain ⟨-, -, p, parent, up', -, parentFound, -⟩ := tree.linked _ _ found atRoot
      rw [up, Option.some.injEq] at up'
      subst up'
      simp [parentFound]
  · unfold namedEntry at named
    cases dir : s.directories.get? target with
    | none => simp [dir] at named
    | some dir => simp

theorem tree_step (tree : Tree s) (step : Step s s') (noWrap : s.nextCluster ≤ s'.nextCluster) : Tree s' := by
  cases step with
  | createFile name permissions cluster result =>
      rw [(createFile_eq_ok.mp result).2.2.2] at noWrap
      exact tree_createFile tree result (lt_of_le_wrappingAdd 64 _ tree.counter_pos noWrap)
  | createDirectory name cluster result =>
      rw [(createDirectory_eq_ok.mp result).2.2.2] at noWrap
      exact tree_createDirectory tree result (lt_of_le_wrappingAdd 64 _ tree.counter_pos noWrap)
  | writeFile cluster data written result => exact tree_writeFile tree result
  | deleteFile cluster result => exact tree_deleteFile tree result
  | changeDirectory name result => exact tree_changeDirectory tree result

end Steps

theorem allocations_cons (reply : Reply) (replies : List Reply) :
    allocations (reply :: replies) = allocations replies + if reply.allocated then 1 else 0 := by
  simp [allocations, List.countP_cons]

theorem run_always (P : FileSystemService → Prop) (step : ∀ {s s'}, P s → Step s s' → P s')
    {s : FileSystemService} (holds : P s) (calls : List Call) : P (s.run calls).2 := by
  induction calls generalizing s with
  | nil => exact holds
  | cons call calls ih =>
      change P ((s.perform call).2.run calls).2
      obtain same | moved := perform_step s call
      · rw [same]
        exact ih holds
      · exact ih (step holds moved)

theorem perform_nextCluster_of_room (s : FileSystemService) (call : Call)
    (room : s.nextCluster + (if (s.perform call).1.allocated then 1 else 0) < 2 ^ 64) :
    (s.perform call).2.nextCluster = s.nextCluster + (if (s.perform call).1.allocated then 1 else 0) := by
  rw [perform_nextCluster]
  cases allocated : (s.perform call).1.allocated
  · rfl
  · rw [allocated] at room
    exact wrappingAdd_of_lt 64 _ _ (by simpa using room)

theorem run_induction (P : FileSystemService → Prop)
    (step : ∀ {s s'}, P s → Step s s' → s.nextCluster ≤ s'.nextCluster → P s')
    {s : FileSystemService} (holds : P s) (calls : List Call)
    (room : s.nextCluster + allocations (s.run calls).1 < 2 ^ 64) : P (s.run calls).2 := by
  induction calls generalizing s with
  | nil => exact holds
  | cons call calls ih =>
      change P ((s.perform call).2.run calls).2
      change s.nextCluster + allocations ((s.perform call).1 :: ((s.perform call).2.run calls).1) < 2 ^ 64 at room
      rw [allocations_cons] at room
      have moved := perform_nextCluster_of_room s call (by omega)
      have next : P (s.perform call).2 := by
        obtain same | changed := perform_step s call
        · rw [same]
          exact holds
        · exact step holds changed (by rw [moved]; exact Nat.le_add_right _ _)
      refine ih next ?_
      rw [moved]
      omega

theorem run_nextCluster (s : FileSystemService) (calls : List Call)
    (room : s.nextCluster + allocations (s.run calls).1 < 2 ^ 64) :
    (s.run calls).2.nextCluster = s.nextCluster + allocations (s.run calls).1 := by
  induction calls generalizing s with
  | nil => rfl
  | cons call calls ih =>
      change s.nextCluster + allocations ((s.perform call).1 :: ((s.perform call).2.run calls).1) < 2 ^ 64 at room
      change ((s.perform call).2.run calls).2.nextCluster =
        s.nextCluster + allocations ((s.perform call).1 :: ((s.perform call).2.run calls).1)
      rw [allocations_cons] at room ⊢
      have moved := perform_nextCluster_of_room s call (by omega)
      rw [ih _ (by rw [moved]; omega), moved]
      omega

theorem run_tree {s : FileSystemService} (tree : Tree s) (calls : List Call)
    (room : s.nextCluster + allocations (s.run calls).1 < 2 ^ 64) : Tree (s.run calls).2 :=
  run_induction Tree (fun tree step noWrap => tree_step tree step noWrap) tree calls room

theorem tree_new : Tree new := by
  refine ⟨⟨[], rfl⟩, rfl, ?_, ?_, ?_⟩
  · intro c dir found nonRoot
    simp [new, createRootDirectory, nonRoot] at found
  · intro c used
    by_cases root : c = 0
    · simp [new, createRootDirectory, root]
    · simp [new, createRootDirectory, root] at used
  · intro c file
    simp [new, createRootDirectory] at file

def Ancestry (s : FileSystemService) (chain : List DirectoryEntry) (c : Nat) : Prop :=
  chain.head? = s.directories.get? 0 ∧ chain.getLast?.map DirectoryEntry.cluster = some c ∧
    chain.IsChain (fun above below => below.parent = some above.cluster) ∧
    ∀ dir ∈ chain, s.directories.get? dir.cluster = some dir

-- What `get_current_path` should print for such a chain: "/", then the name of every directory
-- below the root followed by "/".
def pathOf (chain : List DirectoryEntry) : String :=
  "/" ++ String.join (chain.tail.map fun dir => dir.name ++ "/")

theorem pathOf_append {chain : List DirectoryEntry} (nonEmpty : chain ≠ []) (dir : DirectoryEntry) (path : String) :
    pathOf (chain ++ [dir]) ++ path = pathOf chain ++ (dir.name ++ "/" ++ path) := by
  simp [pathOf, List.tail_append_of_ne_nil nonEmpty, String.join_append, String.append_assoc]

theorem currentPathFrom_succ {s : FileSystemService} {c p fuel : Nat} {dir : DirectoryEntry}
    (found : s.directories.get? c = some dir) (notRoot : dir.name ≠ "/") (up : dir.parent = some p) (path : String) :
    s.currentPathFrom (fuel + 1) c path = s.currentPathFrom fuel p (dir.name ++ "/" ++ path) := by
  have notSlash : (dir.name == "/") = false := by simpa using notRoot
  simp only [currentPathFrom, found, notSlash, up, Option.getD_some, Bool.false_eq_true, if_false]

theorem Tree.ancestry {s : FileSystemService} (tree : Tree s) (c : Nat) (dir : DirectoryEntry)
    (found : s.directories.get? c = some dir) :
    ∃ chain, Ancestry s chain c ∧ chain.length ≤ c + 1 ∧
      ∀ fuel path, chain.length ≤ fuel → s.currentPathFrom fuel c path = some (pathOf chain ++ path) := by
  induction c using Nat.strong_induction_on generalizing dir with
  | _ c ih =>
  by_cases atRoot : c = 0
  · subst atRoot
    obtain ⟨children, root⟩ := tree.root
    rw [root, Option.some.injEq] at found
    subst found
    refine ⟨[⟨0, "/", none, children⟩], ⟨by simp [root], rfl, List.isChain_singleton _, by simp [root]⟩,
      Nat.le_refl _, ?_⟩
    intro fuel path enough
    obtain ⟨fuel, rfl⟩ : ∃ rest, fuel = rest + 1 := ⟨fuel - 1, by simp at enough; omega⟩
    simp [currentPathFrom, root, pathOf]
  · obtain ⟨own, name, p, parent, up, below, parentFound, -⟩ := tree.linked c dir found atRoot
    obtain ⟨chain, ⟨head, last, links, stored⟩, short, walk⟩ := ih p below parent parentFound
    have nonEmpty : chain ≠ [] := by
      rintro rfl
      cases last
    refine ⟨chain ++ [dir], ⟨?_, by simp [own], ?_, ?_⟩, by simp; omega, ?_⟩
    · obtain ⟨children, root⟩ := tree.root
      rw [List.head?_append, head, root]
      rfl
    · refine List.isChain_append.mpr ⟨links, List.isChain_singleton _, ?_⟩
      intro above lastOf below firstOf
      simp only [List.head?_cons, Option.mem_def, Option.some.injEq] at firstOf
      subst firstOf
      rw [Option.mem_def] at lastOf
      simp only [lastOf, Option.map_some, Option.some.injEq] at last
      rw [up, last]
    · intro entry member
      rcases List.mem_append.mp member with old | new
      · exact stored entry old
      · rw [List.mem_singleton.mp new, own]
        exact found
    · intro fuel path enough
      obtain ⟨fuel, rfl⟩ : ∃ rest, fuel = rest + 1 := ⟨fuel - 1, by simp at enough; omega⟩
      rw [currentPathFrom_succ found name up, walk fuel _ (by simp at enough; omega), pathOf_append nonEmpty]

section Churn

/- Runs that move only the counter: a file created in the root and deleted again leaves the
   service as it was, one cluster further on. They reach every value of the counter. -/

def bare (next : Nat) : FileSystemService := { new with nextCluster := next }

def churn : Nat → Nat → List Call
  | _, 0 => []
  | next, count + 1 => .createFile "f" .readWrite :: .deleteFile next :: churn (wrappingAdd 64 next 1) count

theorem run_churn_pair (next : Nat) :
    (bare next).run [.createFile "f" .readWrite, .deleteFile next] =
      ([.cluster (.ok next), .done (.ok ())], bare (wrappingAdd 64 next 1)) := by
  have created : (bare next).createFile "f" .readWrite = .ok (next, ⟨wrappingAdd 64 next 1,
      SortedMap.empty.insert next ⟨next, "f", 0, [], .readWrite⟩,
      new.directories.modify 0 (DirectoryEntry.push next), 0, SortedMap.empty.insert next endOfChain⟩) := by
    rw [createFile_eq_ok]
    exact ⟨rfl, rfl, rfl, rfl⟩
  have files : (SortedMap.empty.insert next (⟨next, "f", 0, [], .readWrite⟩ : FileEntry)).erase next =
      SortedMap.empty := by
    ext1
    simp [SortedMap.erase, SortedMap.insert, SortedMap.empty, SortedMap.insertEntry]
  have fat : (SortedMap.empty.insert next endOfChain).erase next = SortedMap.empty := by
    ext1
    simp [SortedMap.erase, SortedMap.insert, SortedMap.empty, SortedMap.insertEntry]
  have root : (new.directories.modify 0 (DirectoryEntry.push next)).modify 0 (DirectoryEntry.unlink next) =
      new.directories := by
    ext1
    simp [SortedMap.modify, new, createRootDirectory, SortedMap.insert, SortedMap.insertEntry, SortedMap.empty,
      DirectoryEntry.push, DirectoryEntry.unlink]
  have deleted : (⟨wrappingAdd 64 next 1,
      SortedMap.empty.insert next ⟨next, "f", 0, [], .readWrite⟩,
      new.directories.modify 0 (DirectoryEntry.push next), 0, SortedMap.empty.insert next endOfChain⟩ :
        FileSystemService).deleteFile next = .ok (bare (wrappingAdd 64 next 1)) := by
    rw [deleteFile_eq_ok]
    refine ⟨by simp, ?_⟩
    rw [files, fat, root]
    rfl
  simp only [run, perform, settle, created, deleted, Functor.map, Except.map]

theorem run_churn (next count : Nat) (word : next < 2 ^ 64) :
    ((bare next).run (churn next count)).2 = bare ((next + count) % 2 ^ 64) := by
  induction count generalizing next with
  | zero =>
      rw [Nat.add_zero, Nat.mod_eq_of_lt word]
      rfl
  | succ count ih =>
      have split : churn next (count + 1) =
          [.createFile "f" .readWrite, .deleteFile next] ++ churn (wrappingAdd 64 next 1) count := rfl
      rw [split, run_append, run_churn_pair, ih _ (wrappingAdd_lt 64 next 1)]
      simp only [wrappingAdd, Nat.mod_add_mod]
      rw [Nat.add_right_comm, Nat.add_assoc]

theorem run_after_wrap (calls : List Call) :
    (new.run (churn 2 (2 ^ 64 - 2) ++ calls)).2 = ((bare 0).run calls).2 := by
  rw [run_append, show new = bare 2 from rfl, run_churn 2 (2 ^ 64 - 2) (by decide)]
  rfl

end Churn

theorem directory_tree_and_current_path (calls : List Call) (fewer : allocations (new.run calls).1 < 2 ^ 64 - 2) :
    let s := (new.run calls).2
    (s.directories.get? s.currentDirectory).isSome ∧
    (∃ children, s.directories.get? 0 = some ⟨0, "/", none, children⟩) ∧
    (∀ c dir, s.directories.get? c = some dir → c ≠ 0 →
      dir.parent ≠ none ∧ dir.name ≠ "/" ∧
        ∃ p parent, dir.parent = some p ∧ p < c ∧ s.directories.get? p = some parent ∧ c ∈ parent.children) ∧
    ∃ chain, Ancestry s chain s.currentDirectory ∧
      ∀ fuel, chain.length ≤ fuel → s.getCurrentPath fuel = some (pathOf chain) := by
  have tree := run_tree tree_new calls (by show 2 + _ < _; omega)
  refine ⟨tree.current, tree.root, ?_, ?_⟩
  · intro c dir found nonRoot
    obtain ⟨-, name, p, parent, up, below, parentFound, listed⟩ := tree.linked c dir found nonRoot
    exact ⟨by simp [up], name, p, parent, up, below, parentFound, listed⟩
  · obtain ⟨dir, found⟩ := Option.isSome_iff_exists.mp tree.current
    obtain ⟨chain, ancestry, -, walk⟩ := tree.ancestry _ dir found
    exact ⟨chain, ancestry, fun fuel enough => by simpa [getCurrentPath] using walk fuel "" enough⟩

theorem path_after_entering_subdirectory :
    let s := (new.run [.createDirectory "a", .changeDirectory "a"]).2
    (s.directories.get? s.currentDirectory).isSome ∧
    (∃ children, s.directories.get? 0 = some ⟨0, "/", none, children⟩) ∧
    (∀ c dir, s.directories.get? c = some dir → c ≠ 0 →
      dir.parent ≠ none ∧ dir.name ≠ "/" ∧
        ∃ p parent, dir.parent = some p ∧ p < c ∧ s.directories.get? p = some parent ∧ c ∈ parent.children) ∧
    ∃ chain, Ancestry s chain s.currentDirectory ∧
      ∀ fuel, chain.length ≤ fuel → s.getCurrentPath fuel = some (pathOf chain) :=
  directory_tree_and_current_path [.createDirectory "a", .changeDirectory "a"] (by decide)

example : (new.run [.createDirectory "a", .changeDirectory "a"]).2.getCurrentPath 2 = some "/a/" := by decide

theorem root_overwritten_after_counter_wraps :
    let s := (new.run (churn 2 (2 ^ 64 - 2) ++ [.createDirectory "a"])).2
    s.directories.get? 0 = some ⟨0, "a", some 0, [0]⟩ ∧ ∀ fuel, s.getCurrentPath fuel = none := by
  rw [run_after_wrap]
  refine ⟨by rfl, ?_⟩
  have loops : ∀ fuel path, ((bare 0).run [.createDirectory "a"]).2.currentPathFrom fuel 0 path = none := by
    intro fuel
    induction fuel with
    | zero => intro path; rfl
    | succ fuel ih =>
        intro path
        exact ih _
  exact fun fuel => loops fuel ""

end Emos.Services.FileSystem
