import Mathlib
import Emos.Services.FileSystem
import Emos.Services.FileSystemTree

set_option autoImplicit false

/- Moving through the directory tree of `FileSystemService`. `change_directory` goes down to a
   child that is a directory with the given name, or up to the parent; `get_current_path` walks
   the parent links back to the root. The two agree because a directory is listed only by the
   directory it was created in, which is its parent, as long as the cluster counter does not
   wrap. -/
namespace Emos.Services.FileSystem

open Checked FileSystemService

-- The duplicate checks of `create_file` and `create_directory` each look at one kind of entry,
-- so a file and a directory of one name can stand side by side.
theorem file_and_directory_share_name :
    let s : FileSystemService := (new.run [.createFile "x" .readWrite, .createDirectory "x"]).2
    (s.directories.get? 0).map DirectoryEntry.children = some [2, 3] ∧
      (s.files.get? 2).map FileEntry.name = some "x" ∧ (s.directories.get? 3).map DirectoryEntry.name = some "x" ∧
      s.listFiles = [("x", false), ("x", true)] := by
  decide

-- Every cluster a directory lists was taken from the counter, and a listed directory has the lister
-- as its parent.
structure Listed (s : FileSystemService) : Prop where
  taken : ∀ p dir c, s.directories.get? p = some dir → c ∈ dir.children → c < s.nextCluster
  parent : ∀ p dir c child, s.directories.get? p = some dir → c ∈ dir.children → s.directories.get? c = some child →
    child.parent = some p

section Entries

variable {m : SortedMap Nat DirectoryEntry}

theorem place_of_modify {k c : Nat} {f : DirectoryEntry → DirectoryEntry} (keeps : KeepsPlace f)
    {child : DirectoryEntry} (found : (m.modify k f).get? c = some child) :
    ∃ old, m.get? c = some old ∧ child.name = old.name ∧ child.parent = old.parent := by
  obtain ⟨old, oldFound, rfl⟩ := SortedMap.get?_modify_eq_some found
  refine ⟨old, oldFound, ?_⟩
  split
  · exact (keeps old).2
  · exact ⟨rfl, rfl⟩

theorem children_of_push {current cluster p : Nat} {dir : DirectoryEntry}
    (found : (m.modify current (DirectoryEntry.push cluster)).get? p = some dir) :
    ∃ old, m.get? p = some old ∧ ∀ c, c ∈ dir.children → c ∈ old.children ∨ (p = current ∧ c = cluster) := by
  obtain ⟨old, oldFound, rfl⟩ := SortedMap.get?_modify_eq_some found
  refine ⟨old, oldFound, fun c member => ?_⟩
  split at member
  · rename_i same
    rw [DirectoryEntry.push_children, List.mem_append, List.mem_singleton] at member
    exact member.imp_right (fun pushed => ⟨same, pushed⟩)
  · exact .inl member

theorem taken_of_push {current next p c : Nat} {dir : DirectoryEntry}
    (taken : ∀ p old c, m.get? p = some old → c ∈ old.children → c < next) (room : next + 1 < 2 ^ 64)
    (found : (m.modify current (DirectoryEntry.push next)).get? p = some dir) (member : c ∈ dir.children) :
    c < wrappingAdd 64 next 1 := by
  rw [wrappingAdd_of_lt 64 _ _ room]
  obtain ⟨old, oldFound, origin⟩ := children_of_push found
  rcases origin c member with listedBefore | ⟨-, rfl⟩
  · have below := taken p old c oldFound listedBefore
    omega
  · omega

theorem children_of_unlink {current cluster p : Nat} {dir : DirectoryEntry}
    (found : (m.modify current (DirectoryEntry.unlink cluster)).get? p = some dir) :
    ∃ old, m.get? p = some old ∧ ∀ c, c ∈ dir.children → c ∈ old.children := by
  obtain ⟨old, oldFound, rfl⟩ := SortedMap.get?_modify_eq_some found
  refine ⟨old, oldFound, fun c member => ?_⟩
  split at member
  · rw [DirectoryEntry.unlink_children] at member
    exact List.mem_of_mem_filter member
  · exact member

end Entries

section Steps

variable {s s' : FileSystemService}

theorem listed_new : Listed new := by
  refine ⟨fun p dir c found member => ?_, fun p dir c child found member _ => ?_⟩ <;>
  · by_cases root : p = 0 <;> simp [new, createRootDirectory, root] at found
    subst found
    cases member

theorem listed_createFile (tree : Tree s) (listed : Listed s) {name : String} {permissions : FilePermissions}
    {cluster : Nat} (result : s.createFile name permissions = .ok (cluster, s')) (room : s.nextCluster + 1 < 2 ^ 64) :
    Listed s' := by
  obtain ⟨-, -, rfl, rfl⟩ := createFile_eq_ok.mp result
  refine ⟨fun p dir c found member => taken_of_push listed.taken room found member,
    fun p dir c child found member childFound => ?_⟩
  obtain ⟨old, oldFound, origin⟩ := children_of_push found
  obtain ⟨previous, previousFound, -, up⟩ := place_of_modify (keepsPlace_push _) childFound
  rw [up]
  rcases origin c member with listedBefore | ⟨-, rfl⟩
  · exact listed.parent p old c previous oldFound listedBefore previousFound
  · -- the new cluster holds a file, not a directory
    rw [tree.unused.1] at previousFound
    cases previousFound

theorem listed_createDirectory (listed : Listed s) {name : String} {cluster : Nat}
    (result : s.createDirectory name = .ok (cluster, s')) (room : s.nextCluster + 1 < 2 ^ 64) : Listed s' := by
  obtain ⟨-, -, rfl, rfl⟩ := createDirectory_eq_ok.mp result
  have before : ∀ p old c, (s.directories.insert s.nextCluster ⟨s.nextCluster, name, some s.currentDirectory, []⟩).get? p =
      some old → c ∈ old.children → s.directories.get? p = some old := by
    intro p old c oldFound listedBefore
    rw [SortedMap.get?_insert] at oldFound
    split at oldFound
    · cases oldFound
      cases listedBefore
    · exact oldFound
  refine ⟨fun p dir c found member => ?_, fun p dir c child found member childFound => ?_⟩
  · exact taken_of_push (fun p old c oldFound listedBefore => listed.taken p old c (before p old c oldFound listedBefore)
      listedBefore) room found member
  · obtain ⟨old, oldFound, origin⟩ := children_of_push found
    obtain ⟨previous, previousFound, -, up⟩ := place_of_modify (keepsPlace_push _) childFound
    rw [up]
    rcases origin c member with listedBefore | ⟨rfl, rfl⟩
    · have oldBefore := before p old c oldFound listedBefore
      have below := listed.taken p old c oldBefore listedBefore
      rw [SortedMap.get?_insert_of_ne _ _ _ _ (Nat.ne_of_lt below)] at previousFound
      exact listed.parent p old c previous oldBefore listedBefore previousFound
    · rw [SortedMap.get?_insert_self, Option.some.injEq] at previousFound
      rw [← previousFound]

theorem listed_writeFile (listed : Listed s) {cluster written : Nat} {data : List UInt8}
    (result : s.writeFile cluster data = .ok (written, s')) : Listed s' := by
  obtain ⟨-, -, -, -, rfl⟩ := writeFile_eq_ok.mp result
  exact ⟨listed.taken, listed.parent⟩

theorem listed_deleteFile (listed : Listed s) {cluster : Nat} (result : s.deleteFile cluster = .ok s') :
    Listed s' := by
  obtain ⟨-, rfl⟩ := deleteFile_eq_ok.mp result
  refine ⟨fun p dir c found member => ?_, fun p dir c child found member childFound => ?_⟩
  · obtain ⟨old, oldFound, children⟩ := children_of_unlink found
    exact listed.taken p old c oldFound (children c member)
  · obtain ⟨old, oldFound, children⟩ := children_of_unlink found
    obtain ⟨previous, previousFound, -, up⟩ := place_of_modify (keepsPlace_unlink _) childFound
    rw [up]
    exact listed.parent p old c previous oldFound (children c member) previousFound

theorem listed_changeDirectory (listed : Listed s) {name : String} (result : s.changeDirectory name = .ok s') :
    Listed s' := by
  obtain ⟨-, -, -, -, rfl⟩ := changeDirectory_eq_ok result
  exact ⟨listed.taken, listed.parent⟩

theorem listed_step (tree : Tree s) (listed : Listed s) (step : Step s s') (noWrap : s.nextCluster ≤ s'.nextCluster) :
    Listed s' := by
  cases step with
  | createFile name permissions cluster result =>
      rw [(createFile_eq_ok.mp result).2.2.2] at noWrap
      exact listed_createFile tree listed result (lt_of_le_wrappingAdd 64 _ tree.counter_pos noWrap)
  | createDirectory name cluster result =>
      rw [(createDirectory_eq_ok.mp result).2.2.2] at noWrap
      exact listed_createDirectory listed result (lt_of_le_wrappingAdd 64 _ tree.counter_pos noWrap)
  | writeFile cluster data written result => exact listed_writeFile listed result
  | deleteFile cluster result => exact listed_deleteFile listed result
  | changeDirectory name result => exact listed_changeDirectory listed result

end Steps

theorem run_listed (calls : List Call) (room : new.nextCluster + allocations (new.run calls).1 < 2 ^ 64) :
    Tree (new.run calls).2 ∧ Listed (new.run calls).2 :=
  run_induction (fun s => Tree s ∧ Listed s)
    (fun held step noWrap => ⟨tree_step held.1 step noWrap, listed_step held.1 held.2 step noWrap⟩)
    ⟨tree_new, listed_new⟩ calls room

def DistinctIn {E : Type} (entries : SortedMap Nat E) (entryName : E → String) (dir : DirectoryEntry) : Prop :=
  ∀ c c' e e', c ∈ dir.children → c' ∈ dir.children → entries.get? c = some e → entries.get? c' = some e' →
    entryName e = entryName e' → c = c'

-- No two files, and no two directories, listed in one directory share a name.
def NamesDistinct (s : FileSystemService) : Prop :=
  ∀ d dir, s.directories.get? d = some dir →
    DistinctIn s.files FileEntry.name dir ∧ DistinctIn s.directories DirectoryEntry.name dir

section Distinct

variable {E : Type} {entries entries' : SortedMap Nat E} {entryName : E → String} {dir dir' : DirectoryEntry}

theorem DistinctIn.entries_congr (distinct : DistinctIn entries entryName dir)
    (same : ∀ k e', k ∈ dir.children → entries'.get? k = some e' → ∃ e, entries.get? k = some e ∧ entryName e' = entryName e) :
    DistinctIn entries' entryName dir := by
  intro k k' e e' member member' found found' named
  obtain ⟨o, oFound, oName⟩ := same k e member found
  obtain ⟨o', oFound', oName'⟩ := same k' e' member' found'
  exact distinct k k' o o' member member' oFound oFound' (by rw [← oName, ← oName', named])

theorem DistinctIn.of_nil (empty : dir.children = []) : DistinctIn entries entryName dir := by
  intro c _ _ _ member
  rw [empty] at member
  cases member

theorem DistinctIn.mono (distinct : DistinctIn entries entryName dir)
    (children : ∀ k, k ∈ dir'.children → k ∈ dir.children) : DistinctIn entries entryName dir' :=
  fun k k' e e' member member' => distinct k k' e e' (children k member) (children k' member')

theorem DistinctIn.add {c : Nat} (distinct : DistinctIn entries entryName dir)
    (children : ∀ k, k ∈ dir'.children → k ∈ dir.children ∨ k = c)
    (free : c ∈ dir'.children → ∀ k e e', k ∈ dir.children → k ≠ c → entries.get? c = some e →
      entries.get? k = some e' → entryName e' ≠ entryName e) :
    DistinctIn entries entryName dir' := by
  intro k k' e e' member member' found found' named
  by_cases equal : k = k'
  · exact equal
  rcases children k member with old | rfl <;> rcases children k' member' with old' | rfl
  · exact distinct k k' e e' old old' found found' named
  · exact absurd named (free member' k e' e old equal found' found)
  · exact absurd named.symm (free member k' e e' old' (Ne.symm equal) found found')
  · exact absurd rfl equal

end Distinct

theorem not_named_of_nameTaken {E : Type} {s : FileSystemService} {entries : SortedMap Nat E}
    {entryName : E → String} {name : String} (free : s.nameTaken entries entryName name = false)
    {currentDir : DirectoryEntry} (found : s.directories.get? s.currentDirectory = some currentDir) {k : Nat} {e : E}
    (member : k ∈ currentDir.children) (entry : entries.get? k = some e) : entryName e ≠ name := by
  unfold nameTaken at free
  rw [found, List.any_eq_false] at free
  simpa [namedEntry, entry] using free k member

section DistinctSteps

variable {s s' : FileSystemService}

theorem namesDistinct_new : NamesDistinct new := by
  intro d dir found
  by_cases root : d = 0 <;> simp [new, createRootDirectory, root] at found
  subst found
  exact ⟨.of_nil rfl, .of_nil rfl⟩

theorem namesDistinct_createFile (tree : Tree s) (listed : Listed s) (distinct : NamesDistinct s) {name : String}
    {permissions : FilePermissions} {cluster : Nat} (result : s.createFile name permissions = .ok (cluster, s')) :
    NamesDistinct s' := by
  obtain ⟨-, free, rfl, rfl⟩ := createFile_eq_ok.mp result
  intro d dir' found
  obtain ⟨old, oldFound, origin⟩ := children_of_push found
  obtain ⟨files, directories⟩ := distinct d old oldFound
  have unlisted : ∀ k, k ∈ old.children → k ≠ s.nextCluster :=
    fun k member => Nat.ne_of_lt (listed.taken d old k oldFound member)
  have children : ∀ k, k ∈ dir'.children → k ∈ old.children ∨ k = s.nextCluster :=
    fun k member => (origin k member).imp_right And.right
  constructor
  · -- the new file is linked into the current directory only, where no file had its name
    refine (files.entries_congr fun k e member entry => ?_).add children
      fun linked k e e' member other entry entry' => ?_
    · rw [SortedMap.get?_insert_of_ne _ _ _ _ (unlisted k member)] at entry
      exact ⟨e, entry, rfl⟩
    · obtain ⟨here, -⟩ := (origin _ linked).resolve_left fun member => unlisted _ member rfl
      rw [SortedMap.get?_insert_self, Option.some.injEq] at entry
      rw [SortedMap.get?_insert_of_ne _ _ _ _ other] at entry'
      rw [← entry]
      subst here
      exact not_named_of_nameTaken free oldFound member entry'
  · -- the new cluster holds no directory
    refine (directories.entries_congr fun k e member entry => ?_).add children
      fun linked k e e' member other entry entry' => ?_
    · obtain ⟨o, oFound, named, -⟩ := place_of_modify (keepsPlace_push _) entry
      exact ⟨o, oFound, named⟩
    · obtain ⟨o, oFound, -⟩ := place_of_modify (keepsPlace_push _) entry
      rw [tree.unused.1] at oFound
      cases oFound

theorem namesDistinct_createDirectory (tree : Tree s) (listed : Listed s) (distinct : NamesDistinct s) {name : String}
    {cluster : Nat} (result : s.createDirectory name = .ok (cluster, s')) : NamesDistinct s' := by
  obtain ⟨-, free, rfl, rfl⟩ := createDirectory_eq_ok.mp result
  have currentBelow : s.currentDirectory ≠ s.nextCluster := Nat.ne_of_lt (tree.fresh _ (.inl tree.current))
  intro d dir' found
  obtain ⟨old, oldFound, origin⟩ := children_of_push found
  have before : DistinctIn s.files FileEntry.name old ∧ DistinctIn s.directories DirectoryEntry.name old ∧
      ∀ k, k ∈ old.children → k ≠ s.nextCluster := by
    rw [SortedMap.get?_insert] at oldFound
    split at oldFound
    · cases oldFound
      exact ⟨.of_nil rfl, .of_nil rfl, fun _ member => by cases member⟩
    · obtain ⟨files, directories⟩ := distinct d old oldFound
      exact ⟨files, directories, fun k member => Nat.ne_of_lt (listed.taken d old k oldFound member)⟩
  obtain ⟨files, directories, unlisted⟩ := before
  have children : ∀ k, k ∈ dir'.children → k ∈ old.children ∨ k = s.nextCluster :=
    fun k member => (origin k member).imp_right And.right
  constructor
  · -- the new cluster holds no file
    refine files.add children fun linked k e e' member other entry entry' => ?_
    rw [tree.unused.2] at entry
    cases entry
  · -- the new directory is linked into the current directory only, where no directory had its name
    refine (directories.entries_congr fun k e member entry => ?_).add children
      fun linked k e e' member other entry entry' => ?_
    · obtain ⟨o, oFound, named, -⟩ := place_of_modify (keepsPlace_push _) entry
      rw [SortedMap.get?_insert_of_ne _ _ _ _ (unlisted k member)] at oFound
      exact ⟨o, oFound, named⟩
    · obtain ⟨here, -⟩ := (origin _ linked).resolve_left fun member => unlisted _ member rfl
      obtain ⟨o, oFound, named, -⟩ := place_of_modify (keepsPlace_push _) entry
      rw [SortedMap.get?_insert_self, Option.some.injEq] at oFound
      obtain ⟨o', oFound', named', -⟩ := place_of_modify (keepsPlace_push _) entry'
      rw [SortedMap.get?_insert_of_ne _ _ _ _ other] at oFound'
      rw [named, named', ← oFound]
      subst here
      rw [SortedMap.get?_insert_of_ne _ _ _ _ currentBelow] at oldFound
      exact not_named_of_nameTaken free oldFound member oFound'

theorem namesDistinct_writeFile (distinct : NamesDistinct s) {cluster written : Nat} {data : List UInt8}
    (result : s.writeFile cluster data = .ok (written, s')) : NamesDistinct s' := by
  obtain ⟨-, -, -, -, rfl⟩ := writeFile_eq_ok.mp result
  intro d dir found
  obtain ⟨files, directories⟩ := distinct d dir found
  refine ⟨files.entries_congr fun k e member entry => ?_, directories⟩
  obtain ⟨o, oFound, rfl⟩ := SortedMap.get?_modify_eq_some entry
  exact ⟨o, oFound, by split <;> rfl⟩

theorem namesDistinct_deleteFile (distinct : NamesDistinct s) {cluster : Nat} (result : s.deleteFile cluster = .ok s') :
    NamesDistinct s' := by
  obtain ⟨-, rfl⟩ := deleteFile_eq_ok.mp result
  intro d dir' found
  obtain ⟨old, oldFound, children⟩ := children_of_unlink found
  obtain ⟨files, directories⟩ := distinct d old oldFound
  refine ⟨(files.entries_congr fun k e member entry => ?_).mono children,
    (directories.entries_congr fun k e member entry => ?_).mono children⟩
  · rw [SortedMap.get?_erase] at entry
    split at entry
    · cases entry
    · exact ⟨e, entry, rfl⟩
  · obtain ⟨o, oFound, named, -⟩ := place_of_modify (keepsPlace_unlink _) entry
    exact ⟨o, oFound, named⟩

theorem namesDistinct_changeDirectory (distinct : NamesDistinct s) {name : String}
    (result : s.changeDirectory name = .ok s') : NamesDistinct s' := by
  obtain ⟨-, -, -, -, rfl⟩ := changeDirectory_eq_ok result
  exact distinct

theorem namesDistinct_step (tree : Tree s) (listed : Listed s) (distinct : NamesDistinct s) (step : Step s s') :
    NamesDistinct s' := by
  cases step with
  | createFile name permissions cluster result => exact namesDistinct_createFile tree listed distinct result
  | createDirectory name cluster result => exact namesDistinct_createDirectory tree listed distinct result
  | writeFile cluster data written result => exact namesDistinct_writeFile distinct result
  | deleteFile cluster result => exact namesDistinct_deleteFile distinct result
  | changeDirectory name result => exact namesDistinct_changeDirectory distinct result

end DistinctSteps

theorem names_distinct_per_kind (calls : List Call) (fewer : allocations (new.run calls).1 < 2 ^ 64 - 2) :
    let s : FileSystemService := (new.run calls).2
    ∀ d dir, s.directories.get? d = some dir →
      DistinctIn s.files FileEntry.name dir ∧ DistinctIn s.directories DirectoryEntry.name dir :=
  (run_induction (fun s => Tree s ∧ Listed s ∧ NamesDistinct s)
    (fun held step noWrap => ⟨tree_step held.1 step noWrap, listed_step held.1 held.2.1 step noWrap,
      namesDistinct_step held.1 held.2.1 held.2.2 step⟩)
    ⟨tree_new, listed_new, namesDistinct_new⟩ calls (by show 2 + _ < _; omega)).2.2

theorem names_distinct_with_file_and_directory_named_alike :
    let s : FileSystemService := (new.run [.createFile "x" .readWrite, .createDirectory "x"]).2
    ∀ d dir, s.directories.get? d = some dir →
      DistinctIn s.files FileEntry.name dir ∧ DistinctIn s.directories DirectoryEntry.name dir :=
  names_distinct_per_kind [.createFile "x" .readWrite, .createDirectory "x"] (by decide)

-- `get_current_path` ends and returns `path`, for every bound on its rounds from some on.
def PrintsPath (s : FileSystemService) (path : String) : Prop :=
  ∃ bound, ∀ fuel, bound ≤ fuel → s.getCurrentPath fuel = some path

section Moves

variable {s : FileSystemService}

theorem currentPathFrom_moved (target fuel current : Nat) (path : String) :
    ({ s with currentDirectory := target } : FileSystemService).currentPathFrom fuel current path =
      s.currentPathFrom fuel current path := by
  induction fuel generalizing current path with
  | zero => rfl
  | succ fuel ih => simp only [currentPathFrom, ih]

theorem Tree.ne_root_of_parent (tree : Tree s) {c p : Nat} {dir : DirectoryEntry}
    (found : s.directories.get? c = some dir) (up : dir.parent = some p) : c ≠ 0 := by
  rintro rfl
  obtain ⟨children, root⟩ := tree.root
  rw [root, Option.some.injEq] at found
  subst found
  cases up

theorem changeDirectory_up_error (tree : Tree s) :
    s.changeDirectory ".." = .error .directoryNotFound ↔ s.currentDirectory = 0 := by
  obtain ⟨currentDir, found⟩ := Option.isSome_iff_exists.mp tree.current
  by_cases atRoot : s.currentDirectory = 0
  · obtain ⟨children, root⟩ := tree.root
    rw [atRoot, root, Option.some.injEq] at found
    subst found
    simp [changeDirectory, atRoot, root]
  · obtain ⟨-, -, p, parent, up, -, -, -⟩ := tree.linked _ _ found atRoot
    simp [changeDirectory, found, up, atRoot]

theorem changeDirectory_down (listed : Listed s) {name : String} {s' : FileSystemService}
    (down : name ≠ "..") (moved : s.changeDirectory name = .ok s') :
    ∃ target child, s' = { s with currentDirectory := target } ∧ s.directories.get? target = some child ∧
      child.name = name ∧ child.parent = some s.currentDirectory := by
  have notUp : (name == "..") = false := by simpa using down
  unfold changeDirectory at moved
  cases found : s.directories.get? s.currentDirectory with
  | none => simp [notUp, found] at moved
  | some currentDir =>
      cases picked : currentDir.children.find? (namedEntry s.directories DirectoryEntry.name name) with
      | none => simp [notUp, found, picked] at moved
      | some target =>
          simp only [notUp, found, picked, Bool.false_eq_true, if_false, Except.ok.injEq] at moved
          have member := List.mem_of_find?_eq_some picked
          have named := List.find?_some picked
          unfold namedEntry at named
          cases childFound : s.directories.get? target with
          | none => simp [childFound] at named
          | some child =>
              simp only [childFound, beq_iff_eq] at named
              exact ⟨target, child, moved.symm, childFound, named, listed.parent _ _ _ _ found member childFound⟩

end Moves

theorem change_directory_and_back (calls : List Call) (fewer : allocations (new.run calls).1 < 2 ^ 64 - 2) :
    let s := (new.run calls).2
    (s.changeDirectory ".." = .error .directoryNotFound ↔ s.currentDirectory = 0) ∧
    ∀ name s', name ≠ ".." → s.changeDirectory name = .ok s' →
      (∃ path, PrintsPath s path ∧ PrintsPath s' (path ++ name ++ "/")) ∧ s'.changeDirectory ".." = .ok s := by
  obtain ⟨tree, listed⟩ := run_listed calls (by show 2 + _ < _; omega)
  refine ⟨changeDirectory_up_error tree, fun name s' down moved => ?_⟩
  obtain ⟨target, child, rfl, childFound, named, up⟩ := changeDirectory_down listed down moved
  obtain ⟨-, notRoot, -⟩ := tree.linked _ child childFound (tree.ne_root_of_parent childFound up)
  obtain ⟨currentDir, currentFound⟩ := Option.isSome_iff_exists.mp tree.current
  obtain ⟨chain, -, -, walk⟩ := tree.ancestry _ currentDir currentFound
  refine ⟨⟨pathOf chain, ⟨chain.length, fun fuel enough => ?_⟩, ⟨chain.length + 1, fun fuel enough => ?_⟩⟩, ?_⟩
  · rw [getCurrentPath, walk fuel "" enough, String.append_empty]
  · obtain ⟨rest, rfl⟩ : ∃ rest, fuel = rest + 1 := ⟨fuel - 1, by omega⟩
    rw [getCurrentPath, currentPathFrom_moved, currentPathFrom_succ childFound notRoot up, walk rest _ (by omega),
      named, String.append_empty, String.append_assoc]
  · simp only [changeDirectory, beq_self_eq_true, if_true, childFound, up]

theorem enter_and_leave_subdirectory :
    let s := (new.run [.createDirectory "a"]).2
    (s.changeDirectory ".." = .error .directoryNotFound ↔ s.currentDirectory = 0) ∧
    ∀ name s', name ≠ ".." → s.changeDirectory name = .ok s' →
      (∃ path, PrintsPath s path ∧ PrintsPath s' (path ++ name ++ "/")) ∧ s'.changeDirectory ".." = .ok s :=
  change_directory_and_back [.createDirectory "a"] (by decide)

theorem parent_of_root_after_counter_wraps :
    let s := (new.run (churn 2 (2 ^ 64 - 2) ++ [.createDirectory "a"])).2
    s.currentDirectory = 0 ∧ s.changeDirectory ".." = .ok s := by
  rw [run_after_wrap]
  exact ⟨rfl, rfl⟩

end Emos.Services.FileSystem
