import Mathlib
import Emos.Services.FileSystem
import Emos.Services.FileSystemTree

set_option autoImplicit false

/- The FAT of `FileSystemService`. `allocate_cluster` writes an end-of-chain entry for every file
   and every directory it creates and `delete_file` removes the file's entry; the root lives at
   cluster 0 without one. Over every run that does not wrap the cluster counter, the FAT's keys
   are exactly the clusters in use other than the root's. -/
namespace Emos.Services.FileSystem

open Checked FileSystemService

-- Every file and every directory but the root has an end-of-chain entry, and nothing else has one.
structure Accounted (s : FileSystemService) : Prop where
  fat : ∀ c, (s.fatTable.get? c).isSome ↔ (s.files.get? c).isSome ∨ (c ≠ 0 ∧ (s.directories.get? c).isSome)
  endOfChain : ∀ c next, s.fatTable.get? c = some next → next = endOfChain

section Steps

variable {s s' : FileSystemService}

theorem accounted_new : Accounted new := by
  refine ⟨fun c => ?_, fun c next found => by simp [new, createRootDirectory] at found⟩
  by_cases root : c = 0 <;> simp [new, createRootDirectory, root]

theorem accounted_allocate {c : Nat} (accounted : Accounted s)
    (used : ∀ c', (s'.files.get? c').isSome ∨ (c' ≠ 0 ∧ (s'.directories.get? c').isSome) ↔
      c' = c ∨ (s.files.get? c').isSome ∨ (c' ≠ 0 ∧ (s.directories.get? c').isSome))
    (fat : s'.fatTable = s.fatTable.insert c endOfChain) : Accounted s' := by
  refine ⟨fun c' => ?_, fun c' next found => ?_⟩
  · rw [used, fat, SortedMap.get?_insert, ← accounted.fat]
    by_cases same : c' = c <;> simp [same]
  · rw [fat, SortedMap.get?_insert] at found
    split at found
    · exact (Option.some.inj found).symm
    · exact accounted.endOfChain c' next found

theorem accounted_createFile (accounted : Accounted s) {name : String}
    {permissions : FilePermissions} {cluster : Nat} (result : s.createFile name permissions = .ok (cluster, s')) :
    Accounted s' := by
  obtain ⟨-, -, rfl, rfl⟩ := createFile_eq_ok.mp result
  refine accounted_allocate accounted (fun c => ?_) rfl
  simp only [SortedMap.get?_modify_isSome, SortedMap.get?_insert]
  by_cases same : c = s.nextCluster <;> simp [same]

theorem accounted_createDirectory (tree : Tree s) (accounted : Accounted s) {name : String} {cluster : Nat}
    (result : s.createDirectory name = .ok (cluster, s')) : Accounted s' := by
  obtain ⟨-, -, rfl, rfl⟩ := createDirectory_eq_ok.mp result
  have positive := tree.counter_pos
  refine accounted_allocate accounted (fun c => ?_) rfl
  simp only [SortedMap.get?_modify_isSome, SortedMap.get?_insert]
  by_cases same : c = s.nextCluster
  · simp only [same, if_true, Option.isSome_some, true_or, iff_true]
    exact .inr ⟨Nat.ne_of_gt positive, trivial⟩
  · simp [same]

theorem accounted_writeFile (accounted : Accounted s) {cluster written : Nat} {data : List UInt8}
    (result : s.writeFile cluster data = .ok (written, s')) : Accounted s' := by
  obtain ⟨-, -, -, -, rfl⟩ := writeFile_eq_ok.mp result
  exact ⟨fun c => by simpa using accounted.fat c, accounted.endOfChain⟩

theorem accounted_deleteFile (tree : Tree s) (accounted : Accounted s) {cluster : Nat}
    (result : s.deleteFile cluster = .ok s') : Accounted s' := by
  obtain ⟨isFile, rfl⟩ := deleteFile_eq_ok.mp result
  have notDir := tree.separate cluster isFile
  refine ⟨fun c => ?_, fun c next found => ?_⟩
  · simp only [SortedMap.get?_erase, SortedMap.get?_modify_isSome]
    by_cases same : c = cluster
    · simp [same, notDir]
    · simpa [same] using accounted.fat c
  · rw [SortedMap.get?_erase] at found
    split at found
    · cases found
    · exact accounted.endOfChain c next found

theorem accounted_changeDirectory (accounted : Accounted s) {name : String}
    (result : s.changeDirectory name = .ok s') : Accounted s' := by
  obtain ⟨-, -, -, -, rfl⟩ := changeDirectory_eq_ok result
  exact ⟨accounted.fat, accounted.endOfChain⟩

theorem accounted_step (tree : Tree s) (accounted : Accounted s) (step : Step s s') : Accounted s' := by
  cases step with
  | createFile name permissions cluster result => exact accounted_createFile accounted result
  | createDirectory name cluster result => exact accounted_createDirectory tree accounted result
  | writeFile cluster data written result => exact accounted_writeFile accounted result
  | deleteFile cluster result => exact accounted_deleteFile tree accounted result
  | changeDirectory name result => exact accounted_changeDirectory accounted result

end Steps

theorem run_accounted (calls : List Call) (room : new.nextCluster + allocations (new.run calls).1 < 2 ^ 64) :
    Tree (new.run calls).2 ∧ Accounted (new.run calls).2 :=
  run_induction (fun s => Tree s ∧ Accounted s)
    (fun held step noWrap => ⟨tree_step held.1 step noWrap, accounted_step held.1 held.2 step⟩)
    ⟨tree_new, accounted_new⟩ calls room

theorem fat_keys {s : FileSystemService} (accounted : Accounted s) :
    s.fatTable.keys.toFinset = s.files.keys.toFinset ∪ s.directories.keys.toFinset.erase 0 := by
  ext c
  simp only [List.mem_toFinset, Finset.mem_union, Finset.mem_erase, SortedMap.mem_keys]
  rw [accounted.fat c]

theorem fat_size {s : FileSystemService} (tree : Tree s) (accounted : Accounted s) :
    s.files.size + s.directories.size = s.fatTable.size + 1 := by
  have disjoint : Disjoint s.files.keys.toFinset (s.directories.keys.toFinset.erase 0) := by
    rw [Finset.disjoint_left]
    intro c file dir
    simp only [List.mem_toFinset, Finset.mem_erase, SortedMap.mem_keys] at file dir
    rw [tree.separate c file] at dir
    cases dir.2
  have root : 0 ∈ s.directories.keys.toFinset := by
    obtain ⟨children, found⟩ := tree.root
    simp [SortedMap.mem_keys, found]
  rw [SortedMap.size_eq_card_keys, SortedMap.size_eq_card_keys, SortedMap.size_eq_card_keys, fat_keys accounted,
    Finset.card_union_of_disjoint disjoint, Finset.card_erase_of_mem root]
  have nonEmpty := Finset.card_pos.mpr ⟨0, root⟩
  omega

theorem fat_table_accounts_for_clusters (calls : List Call) (fewer : allocations (new.run calls).1 < 2 ^ 64 - 2) :
    let s := (new.run calls).2
    (∀ c, (s.fatTable.get? c).isSome ↔ (s.files.get? c).isSome ∨ (c ≠ 0 ∧ (s.directories.get? c).isSome)) ∧
    (∀ c, (s.files.get? c).isSome → s.directories.get? c = none) ∧
    (∀ c next, s.fatTable.get? c = some next → next = endOfChain) ∧
    (∀ c, s.isClusterAllocated c = true ↔ c = 0 ∨ (s.files.get? c).isSome ∨ (s.directories.get? c).isSome) ∧
    s.getFatInfo.2 = s.getFatInfo.1 + 1 := by
  obtain ⟨tree, accounted⟩ := run_accounted calls (by show 2 + _ < _; omega)
  refine ⟨accounted.fat, tree.separate, accounted.endOfChain, fun c => ?_, fat_size tree accounted⟩
  rw [isClusterAllocated, Bool.or_eq_true, SortedMap.contains, accounted.fat c, beq_iff_eq]
  by_cases root : c = 0 <;> simp [root]

theorem fat_after_file_and_directory :
    let s := (new.run [.createDirectory "a", .changeDirectory "a", .createFile "f" .readWrite]).2
    (∀ c, (s.fatTable.get? c).isSome ↔ (s.files.get? c).isSome ∨ (c ≠ 0 ∧ (s.directories.get? c).isSome)) ∧
    (∀ c, (s.files.get? c).isSome → s.directories.get? c = none) ∧
    (∀ c next, s.fatTable.get? c = some next → next = endOfChain) ∧
    (∀ c, s.isClusterAllocated c = true ↔ c = 0 ∨ (s.files.get? c).isSome ∨ (s.directories.get? c).isSome) ∧
    s.getFatInfo.2 = s.getFatInfo.1 + 1 :=
  fat_table_accounts_for_clusters [.createDirectory "a", .changeDirectory "a", .createFile "f" .readWrite] (by decide)

example : (new.run [.createDirectory "a", .changeDirectory "a", .createFile "f" .readWrite]).2.getFatInfo = (2, 3) := by
  decide

theorem file_shares_root_cluster_after_counter_wraps :
    let s := (new.run (churn 2 (2 ^ 64 - 2) ++ [.createFile "f" .readWrite])).2
    (s.files.get? 0).isSome ∧ (s.directories.get? 0).isSome := by
  rw [run_after_wrap]
  exact ⟨rfl, rfl⟩

end Emos.Services.FileSystem
