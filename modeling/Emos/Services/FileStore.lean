import Mathlib
import Emos.Services.FileSystemTree

set_option autoImplicit false

/- What the files of `FileSystemService` hold, as the calls of a run describe it: a file is
   created empty, replaced by each accepted write, and gone after an accepted delete. The
   service's file map refines this store at every point of every run. -/
namespace Emos.Services.FileSystem

open Checked FileSystemService

def record (store : Nat → Option (FilePermissions × List UInt8)) :
    Call × Reply → Nat → Option (FilePermissions × List UInt8)
  | (.createFile _ permissions, .cluster (.ok cluster)) => Function.update store cluster (some (permissions, []))
  | (.writeFile cluster data, .written (.ok _)) =>
      Function.update store cluster ((store cluster).map fun file => (file.1, data))
  | (.deleteFile cluster, .done (.ok ())) => Function.update store cluster none
  | _ => store

def replay (history : List (Call × Reply)) : Nat → Option (FilePermissions × List UInt8) :=
  history.foldl record fun _ => none

def project (s : FileSystemService) : Nat → Option (FilePermissions × List UInt8) :=
  fun cluster => (s.files.get? cluster).map fun file => (file.permissions, file.data)

theorem project_new : project new = fun _ => none := rfl

theorem perform_project (s : FileSystemService) (call : Call) :
    project (s.perform call).2 = record (project s) (call, (s.perform call).1) := by
  funext c
  cases call with
  | createFile name permissions =>
      cases result : s.createFile name permissions with
      | error e => simp [perform, settle, result, record]
      | ok pair =>
          obtain ⟨-, -, same, after⟩ := createFile_eq_ok.mp result
          simp only [perform, settle, result, record, after, project, same, SortedMap.get?_insert,
            Function.update_apply]
          split <;> rfl
  | createDirectory name =>
      cases result : s.createDirectory name with
      | error e => simp [perform, settle, result, record]
      | ok pair =>
          obtain ⟨-, -, -, after⟩ := createDirectory_eq_ok.mp result
          simp [perform, settle, result, record, after, project]
  | writeFile cluster data =>
      cases result : s.writeFile cluster data with
      | error e => simp [perform, settle, result, record]
      | ok pair =>
          obtain ⟨file, -, -, -, after⟩ := writeFile_eq_ok.mp result
          simp only [perform, settle, result, record, after, project, SortedMap.get?_modify, Function.update_apply]
          split
          · rename_i same
            subst same
            simp [Option.map_map, Function.comp_def]
          · rfl
  | deleteFile cluster =>
      cases result : s.deleteFile cluster with
      | error e => simp [perform, settle, result, record, Functor.map, Except.map]
      | ok s' =>
          obtain ⟨-, after⟩ := deleteFile_eq_ok.mp result
          simp only [perform, settle, result, record, after, project, Functor.map, Except.map,
            SortedMap.get?_erase, Function.update_apply]
          split <;> rfl
  | changeDirectory name =>
      cases result : s.changeDirectory name with
      | error e => simp [perform, settle, result, record, Functor.map, Except.map]
      | ok s' =>
          obtain ⟨currentDir, target, found, moved, after⟩ := changeDirectory_eq_ok result
          simp [perform, settle, result, record, after, project, Functor.map, Except.map]

theorem run_project (s : FileSystemService) (calls : List Call) :
    project (s.run calls).2 = (calls.zip (s.run calls).1).foldl record (project s) := by
  induction calls generalizing s with
  | nil => rfl
  | cons call calls ih =>
      change project ((s.perform call).2.run calls).2 =
        (calls.zip ((s.perform call).2.run calls).1).foldl record (record (project s) (call, (s.perform call).1))
      rw [ih, perform_project]

theorem readFile_ok_iff (s : FileSystemService) (cluster : Nat) (data : List UInt8) :
    s.readFile cluster = .ok data ↔
      ∃ file, s.files.get? cluster = some file ∧ file.permissions ≠ .writeOnly ∧ file.data = data := by
  unfold readFile
  cases found : s.files.get? cluster with
  | none => simp
  | some file =>
      by_cases denied : file.permissions = .writeOnly
      · simp [denied]
      · simp [denied]

def SizesMatch (s : FileSystemService) : Prop :=
  ∀ cluster file, s.files.get? cluster = some file → file.size = file.data.length

theorem sizesMatch_step {s s' : FileSystemService} (sizes : SizesMatch s) (step : Step s s') : SizesMatch s' := by
  cases step with
  | createFile name permissions cluster result =>
      obtain ⟨-, -, -, rfl⟩ := createFile_eq_ok.mp result
      intro c file found
      change (s.files.insert cluster _).get? c = some file at found
      rw [SortedMap.get?_insert] at found
      split at found
      · cases found
        rfl
      · exact sizes c file found
  | createDirectory name cluster result =>
      obtain ⟨-, -, -, rfl⟩ := createDirectory_eq_ok.mp result
      exact sizes
  | writeFile cluster data written result =>
      obtain ⟨-, -, -, -, rfl⟩ := writeFile_eq_ok.mp result
      intro c file found
      obtain ⟨old, oldFound, rfl⟩ := SortedMap.get?_modify_eq_some found
      split
      · simp
      · exact sizes c old oldFound
  | deleteFile cluster result =>
      obtain ⟨-, rfl⟩ := deleteFile_eq_ok.mp result
      intro c file found
      change (s.files.erase cluster).get? c = some file at found
      rw [SortedMap.get?_erase] at found
      split at found
      · cases found
      · exact sizes c file found
  | changeDirectory name result =>
      obtain ⟨currentDir, target, found, moved, rfl⟩ := changeDirectory_eq_ok result
      exact sizes

-- A cluster below the counter with no file on it never gets one back while the counter does
-- not wrap: every cluster handed out later is at or above the counter.
def Retired (cluster : Nat) (s : FileSystemService) : Prop :=
  cluster < s.nextCluster ∧ s.files.get? cluster = none

theorem retired_step {cluster : Nat} {s s' : FileSystemService} (retired : Retired cluster s) (step : Step s s')
    (noWrap : s.nextCluster ≤ s'.nextCluster) : Retired cluster s' := by
  obtain ⟨below, missing⟩ := retired
  refine ⟨Nat.lt_of_lt_of_le below noWrap, ?_⟩
  cases step with
  | createFile name permissions new result =>
      obtain ⟨-, -, rfl, rfl⟩ := createFile_eq_ok.mp result
      change (s.files.insert s.nextCluster _).get? cluster = none
      rw [SortedMap.get?_insert_of_ne _ _ _ _ (Nat.ne_of_lt below)]
      exact missing
  | createDirectory name new result =>
      obtain ⟨-, -, -, rfl⟩ := createDirectory_eq_ok.mp result
      exact missing
  | writeFile c data written result =>
      obtain ⟨-, -, -, -, rfl⟩ := writeFile_eq_ok.mp result
      exact SortedMap.get?_modify_eq_none missing
  | deleteFile c result =>
      obtain ⟨-, rfl⟩ := deleteFile_eq_ok.mp result
      change (s.files.erase c).get? cluster = none
      rw [SortedMap.get?_erase]
      split
      · rfl
      · exact missing
  | changeDirectory name result =>
      obtain ⟨currentDir, target, found, moved, rfl⟩ := changeDirectory_eq_ok result
      exact missing

theorem allocations_append (replies more : List Reply) :
    allocations (replies ++ more) = allocations replies + allocations more := by
  simp [allocations, List.countP_append]

theorem perform_deleteFile_ok {s s' : FileSystemService} {cluster : Nat} (result : s.deleteFile cluster = .ok s') :
    s.perform (.deleteFile cluster) = (.done (.ok ()), s') := by
  simp [perform, settle, result, Functor.map, Except.map]

theorem writeFile_other {s s' : FileSystemService} {cluster written : Nat} {data : List UInt8}
    (result : s.writeFile cluster data = .ok (written, s')) {other : Nat} (different : other ≠ cluster) :
    s'.files.get? other = s.files.get? other := by
  obtain ⟨-, -, -, -, rfl⟩ := writeFile_eq_ok.mp result
  exact SortedMap.get?_modify_of_ne _ _ _ _ different

theorem deleteFile_other {s s' : FileSystemService} {cluster : Nat} (result : s.deleteFile cluster = .ok s')
    {other : Nat} (different : other ≠ cluster) : s'.files.get? other = s.files.get? other := by
  obtain ⟨-, rfl⟩ := deleteFile_eq_ok.mp result
  exact SortedMap.get?_erase_of_ne _ _ _ different

theorem files_follow_accepted_writes (calls : List Call) :
    let s := (new.run calls).2
    (∀ c data, s.readFile c = .ok data ↔
      ∃ file, s.files.get? c = some file ∧ file.permissions ≠ .writeOnly ∧ file.data = data) ∧
    (∀ c, (s.files.get? c).map (fun file => (file.permissions, file.data)) =
      replay (calls.zip (new.run calls).1) c) ∧
    (∀ c file, s.files.get? c = some file → file.size = file.data.length) ∧
    (∀ c data written s', s.writeFile c data = .ok (written, s') →
      ∀ other, other ≠ c → s'.files.get? other = s.files.get? other) ∧
    (∀ c s', s.deleteFile c = .ok s' → ∀ other, other ≠ c → s'.files.get? other = s.files.get? other) ∧
    (allocations (new.run calls).1 < 2 ^ 64 - 2 →
      ∀ before c after deleted, calls = before ++ .deleteFile c :: after →
        (new.run before).2.deleteFile c = .ok deleted →
        s.readFile c = .error .fileNotFound ∧ ∀ data, s.writeFile c data = .error .fileNotFound) := by
  refine ⟨fun c data => readFile_ok_iff _ c data, fun c => congrFun (run_project new calls) c,
    run_always SizesMatch sizesMatch_step (fun c file found => by simp [new, createRootDirectory] at found) calls,
    fun c data written s' result other different => writeFile_other result different,
    fun c s' result other different => deleteFile_other result different, ?_⟩
  intro fewer before c after deleted split accepted
  subst split
  have whole : (new.run (before ++ .deleteFile c :: after)).2 = (deleted.run after).2 := by
    rw [run_append]
    change ((((new.run before).2.perform (.deleteFile c)).2).run after).2 = _
    rw [perform_deleteFile_ok accepted]
  have counted : allocations (new.run (before ++ .deleteFile c :: after)).1 =
      allocations (new.run before).1 + allocations (deleted.run after).1 := by
    rw [run_append, allocations_append]
    change _ + allocations (((new.run before).2.perform (.deleteFile c)).1 ::
      (((new.run before).2.perform (.deleteFile c)).2.run after).1) = _
    rw [perform_deleteFile_ok accepted, allocations_cons]
    rfl
  have treeBefore := run_tree tree_new before (by show 2 + _ < _; omega)
  have counterBefore := run_nextCluster new before (by show 2 + _ < _; omega)
  obtain ⟨isFile, after'⟩ := deleteFile_eq_ok.mp accepted
  have retired : Retired c deleted := by
    rw [after']
    exact ⟨treeBefore.fresh c (.inr isFile), SortedMap.get?_erase_self _ _⟩
  have sameCounter : deleted.nextCluster = (new.run before).2.nextCluster := by rw [after']
  have still := run_induction (Retired c) retired_step retired after (by
    rw [sameCounter, counterBefore]
    change 2 + _ + _ < _
    omega)
  rw [whole]
  have missing := still.2
  exact ⟨by simp [readFile, missing], fun data => by simp [writeFile, missing]⟩

theorem deleted_cluster_reused_after_counter_wraps :
    let before := [Call.createFile "f" .readWrite]
    let after := churn 3 (2 ^ 64 - 1) ++ [Call.createFile "f" .readWrite]
    (∃ deleted, (new.run before).2.deleteFile 2 = .ok deleted) ∧
      (new.run (before ++ .deleteFile 2 :: after)).2.readFile 2 = .ok [] := by
  refine ⟨⟨_, rfl⟩, ?_⟩
  have three : wrappingAdd 64 2 1 = 3 := by decide
  have back : (3 + (2 ^ 64 - 1)) % 2 ^ 64 = 2 := by decide
  have calls : [Call.createFile "f" .readWrite] ++ Call.deleteFile 2 ::
      (churn 3 (2 ^ 64 - 1) ++ [Call.createFile "f" .readWrite]) =
      [Call.createFile "f" .readWrite, Call.deleteFile 2] ++ (churn 3 (2 ^ 64 - 1) ++ [Call.createFile "f" .readWrite]) :=
    rfl
  rw [calls, run_append, show new = bare 2 from rfl, run_churn_pair, three, run_append, run_churn 3 _ (by decide),
    back]
  rfl

end Emos.Services.FileSystem
