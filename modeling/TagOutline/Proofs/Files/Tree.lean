import Mathlib.Data.List.Nodup
import TagOutline.Files.Glob
import TagOutline.Proofs.Files.Workspace

/-!
# Names and directories

Where a path leads and which paths a pattern matches is a matter of names and of what is a
directory. Another file in the place of a file changes nothing about it.
-/

namespace TagOutline

/-- Whether an item is a directory. -/
def Item.isDirectory : Item → Bool
  | .directory => true
  | .file _ => false

namespace Workspace

/-- Two workspaces that have the same names, and directories under the same of them. -/
structure SameTree (w w' : Workspace) : Prop where
  names : w'.items.map Prod.fst = w.items.map Prod.fst
  kinds : ∀ l, (w'.item? l).map Item.isDirectory = (w.item? l).map Item.isDirectory

theorem map_fst_putItem {l : Location} {i : Item} {items : List (Location × Item)}
    (h : itemAt l items = some i) (j : Item) :
    (putItem l j items).map Prod.fst = items.map Prod.fst := by
  induction items with
  | nil => cases h
  | cons e es ih =>
    by_cases hl : l = e.1
    · simp [putItem, hl]
    · have others : itemAt l es = some i := by simpa [itemAt, hl] using h
      simp [putItem, hl, ih others]

/-- A file in the place of a file keeps the tree. -/
theorem sameTree_put {w : Workspace} {l : Location} {old : ByteArray}
    (h : w.item? l = some (.file old)) (new : ByteArray) : w.SameTree (w.put l (.file new)) := by
  have taken : w.item? l ≠ some .directory := by simp [h]
  have inside := inside_of_not_directory taken
  have recorded : itemAt l w.items = some (.file old) := by
    rw [item?, if_neg (by simp [inside])] at h
    exact h
  refine ⟨map_fst_putItem recorded (.file new), ?_⟩
  intro k
  by_cases hk : k = l
  · rw [hk, item?_put_self w inside, h]
    rfl
  · rw [item?_put_of_ne w hk]

namespace SameTree

variable {w w' : Workspace} (h : w.SameTree w')
include h

theorem follow {i j : Item} (kind : j.isDirectory = i.isDirectory) (l : Location)
    (ps : List String) :
    (w'.follow l j ps).map (fun e => (e.1, e.2.isDirectory)) =
      (w.follow l i ps).map fun e => (e.1, e.2.isDirectory) := by
  induction ps generalizing l i j with
  | nil =>
    show Except.ok (l, j.isDirectory) = Except.ok (l, i.isDirectory)
    rw [kind]
  | cons p ps ih =>
    cases i with
    | file bytes =>
      cases j with
      | directory => cases kind
      | file others => rw [follow_file_cons, follow_file_cons]
    | directory =>
      cases j with
      | file others => cases kind
      | directory =>
        have same := h.kinds (stepTo l p)
        cases hi : w.item? (stepTo l p) with
        | none =>
          rw [hi] at same
          have hj : w'.item? (stepTo l p) = none := Option.map_eq_none_iff.mp same
          -- Both stop here, with the same fault.
          rw [Workspace.follow.eq_def, Workspace.follow.eq_def w]
          simp only [hi, hj]
        | some i =>
          rw [hi] at same
          obtain ⟨j, hj, kind⟩ := Option.map_eq_some_iff.mp same
          rw [follow_directory_cons hj, follow_directory_cons hi]
          exact ih kind _

theorem find (path : String) :
    (w'.find path).map (fun e => (e.1, e.2.isDirectory)) =
      (w.find path).map fun e => (e.1, e.2.isDirectory) := by
  by_cases hpath : path = ""
  · rw [hpath]
    rfl
  · rw [find_of_ne_empty hpath, find_of_ne_empty hpath]
    exact h.follow rfl [] (partsOf path)

/-- A path leads nowhere in both workspaces, or to the same directory, or to a file at the same
place. -/
theorem find_cases (path : String) :
    (∃ fault, w.find path = .error fault ∧ w'.find path = .error fault) ∨
      (∃ l, w.find path = .ok (l, .directory) ∧ w'.find path = .ok (l, .directory)) ∨
      ∃ l old new, w.find path = .ok (l, .file old) ∧ w'.find path = .ok (l, .file new) := by
  have same := h.find path
  cases hw : w.find path with
  | error fault =>
    rw [hw] at same
    cases hw' : w'.find path with
    | error fault' =>
      rw [hw'] at same
      exact Or.inl ⟨fault, rfl, by rw [Except.error.inj same]⟩
    | ok e' =>
      rw [hw'] at same
      cases same
  | ok e =>
    rw [hw] at same
    cases hw' : w'.find path with
    | error fault' =>
      rw [hw'] at same
      cases same
    | ok e' =>
      rw [hw'] at same
      obtain ⟨l, i⟩ := e
      obtain ⟨k, j⟩ := e'
      obtain ⟨rfl, kind⟩ := Prod.mk.inj (Except.ok.inj same)
      cases i with
      | directory =>
        cases j with
        | directory => exact Or.inr (Or.inl ⟨k, rfl, rfl⟩)
        | file new => cases kind
      | file old =>
        cases j with
        | directory => cases kind
        | file new => exact Or.inr (Or.inr ⟨k, old, new, rfl, rfl⟩)

theorem hasPath (path : String) : w'.hasPath path = w.hasPath path := by
  rcases h.find_cases path with ⟨fault, hw, hw'⟩ | ⟨l, hw, hw'⟩ | ⟨l, old, new, hw, hw'⟩
  all_goals rw [Workspace.hasPath, Workspace.hasPath, hw, hw']
  rfl

theorem isFile (path : String) : w'.isFile path = w.isFile path := by
  rcases h.find_cases path with ⟨fault, hw, hw'⟩ | ⟨l, hw, hw'⟩ | ⟨l, old, new, hw, hw'⟩
  all_goals rw [Workspace.isFile, Workspace.isFile, hw, hw']

theorem isDirectory (path : String) : w'.isDirectory path = w.isDirectory path := by
  rcases h.find_cases path with ⟨fault, hw, hw'⟩ | ⟨l, hw, hw'⟩ | ⟨l, old, new, hw, hw'⟩
  all_goals rw [Workspace.isDirectory, Workspace.isDirectory, hw, hw']

theorem namesIn (l : Location) : w'.namesIn l = w.namesIn l := by
  -- The names are read off the locations alone, which are the same.
  let name (k : Location) : Option String :=
    if k.length = l.length + 1 ∧ k.dropLast = l ∧ k.getLast? ≠ some ".." then k.getLast? else none
  have byName (w : Workspace) : w.namesIn l = (w.items.map Prod.fst).filterMap name := by
    rw [List.filterMap_map]
    rfl
  rw [byName, byName, h.names]

theorem list (path : String) : w'.list path = w.list path := by
  rcases h.find_cases path with ⟨fault, hw, hw'⟩ | ⟨l, hw, hw'⟩ | ⟨l, old, new, hw, hw'⟩
  all_goals rw [Workspace.list, Workspace.list, hw, hw']
  exact h.namesIn l

theorem length_items : w'.items.length = w.items.length := by
  rw [← List.length_map Prod.fst, h.names, List.length_map]

end SameTree

end Workspace

/-! Patterns. -/

namespace Glob

variable {w w' : Workspace} (h : w.SameTree w')
include h

theorem namesOf_of_sameTree (directory : String) (directoriesOnly : Bool) :
    namesOf w' directory directoriesOnly = namesOf w directory directoriesOnly := by
  simp only [namesOf, h.list, h.isDirectory]

theorem below_of_sameTree (directory : String) (directoriesOnly : Bool) (depth : Nat) :
    below w' directory directoriesOnly depth = below w directory directoriesOnly depth := by
  induction depth generalizing directory with
  | zero => rfl
  | succ depth ih => simp only [below, namesOf_of_sameTree h, ih]

theorem lastIn_of_sameTree (directory part : String) (directoriesOnly : Bool) :
    lastIn w' directory part directoriesOnly = lastIn w directory part directoriesOnly := by
  simp only [lastIn, deepIn, matchesIn, plainIn, namesOf_of_sameTree h, below_of_sameTree h,
    h.isDirectory, h.hasPath, h.length_items]

theorem pathsFrom_of_sameTree (directoriesOnly : Bool) (fuel : Nat) (pattern : String) :
    pathsFrom w' directoriesOnly fuel pattern = pathsFrom w directoriesOnly fuel pattern := by
  induction fuel generalizing directoriesOnly pattern with
  | zero => rfl
  | succ fuel ih => simp only [pathsFrom, ih, lastIn_of_sameTree h, h.isDirectory, h.hasPath]

theorem paths_of_sameTree (pattern : String) : paths w' pattern = paths w pattern := by
  rw [paths, paths, pathsFrom_of_sameTree h]

theorem files_of_sameTree (pattern : String) : files w' pattern = files w pattern := by
  have same : w'.isFile = w.isFile := funext h.isFile
  rw [files, files, sortedPaths, sortedPaths, paths_of_sameTree h, same]

theorem expand_of_sameTree (patterns : List String) : expand w' patterns = expand w patterns := by
  have fromSeen (seen : List String) :
      expandFrom w' seen patterns = expandFrom w seen patterns := by
    induction patterns generalizing seen with
    | nil => rfl
    | cons pattern patterns ih =>
      rw [expandFrom, expandFrom, paths_of_sameTree h, files_of_sameTree h, ih, ih]
  exact fromSeen []

omit h in
theorem level_of_mem_expandFrom {patterns seen : List String} {n : Notice}
    (hn : n ∈ (expandFrom w seen patterns).1) : n.level = .warning := by
  induction patterns generalizing seen with
  | nil => cases hn
  | cons pattern patterns ih =>
    rw [expandFrom] at hn
    split at hn
    · rcases List.mem_cons.mp hn with rfl | hn
      · rfl
      · exact ih hn
    · exact ih hn

omit h in
theorem nodup_appendNew {seen ps : List String} (distinct : seen.Nodup) :
    (appendNew seen ps).Nodup := by
  induction ps generalizing seen with
  | nil => exact distinct
  | cons p ps ih =>
    rw [appendNew]
    split
    · exact ih distinct
    next fresh =>
      have absent : p ∉ seen := by simpa using fresh
      have grown : (seen ++ [p]).Nodup := by
        rw [← List.concat_eq_append, List.nodup_concat]
        exact ⟨absent, distinct⟩
      exact ih grown

omit h in
/-- Each file is matched once, however many patterns match it. -/
theorem nodup_expandFrom {patterns seen : List String} (distinct : seen.Nodup) :
    (expandFrom w seen patterns).2.Nodup := by
  induction patterns generalizing seen with
  | nil => exact distinct
  | cons pattern patterns ih =>
    rw [expandFrom]
    split
    · exact ih distinct
    · exact ih (nodup_appendNew distinct)

end Glob

end TagOutline
