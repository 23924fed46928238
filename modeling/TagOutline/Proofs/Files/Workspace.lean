import TagOutline.Files.Text
import TagOutline.Proofs.Files.Path

/-!
# What writing changes

A file is written where its path leads, directories are made where there is nothing, and all else
stays as it was. A path goes through directories only, so as long as these stay, it leads to the
same place, and what was written there is found by the same path.
-/

namespace TagOutline.Workspace

variable {w w' : Workspace} {path : String} {k l : Location} {i j : Item}

/-- Outside of the working directory, only directories are known. -/
theorem inside_of_not_directory (h : w.item? l ≠ some .directory) : l.all (· = "..") = false := by
  cases hall : l.all (· = "..") with
  | false => rfl
  | true =>
    rw [item?, if_pos hall] at h
    exact absurd rfl h

theorem item?_put_self (w : Workspace) (h : l.all (· = "..") = false) (i : Item) :
    (w.put l i).item? l = some i := by
  rw [item?, if_neg (by simp [h]), itemAt_put_self]

theorem item?_put_of_ne (w : Workspace) (h : k ≠ l) (i : Item) :
    (w.put l i).item? k = w.item? k := by
  rw [item?, item?, itemAt_put_of_ne w i h]

theorem putItem_putItem (l : Location) (i j : Item) (items : List (Location × Item)) :
    putItem l j (putItem l i items) = putItem l j items := by
  induction items with
  | nil => simp [putItem]
  | cons e es ih =>
    by_cases hl : l = e.1
    · simp [putItem, hl]
    · simp [putItem, hl, ih]

/-- Only the last item that is put at a location matters. -/
theorem put_put (w : Workspace) (l : Location) (i j : Item) :
    (w.put l i).put l j = w.put l j := by
  rw [put, put, putItem_putItem, put]

/-! Following a path. -/

theorem follow_file_cons (w : Workspace) (l : Location) (bytes : ByteArray) (p : String)
    (ps : List String) : w.follow l (.file bytes) (p :: ps) = .error .notADirectory := by
  rw [follow.eq_def]

theorem follow_directory_cons {p : String} (h : w.item? (stepTo l p) = some j) (ps : List String) :
    w.follow l .directory (p :: ps) = w.follow (stepTo l p) j ps := by
  rw [follow.eq_def]
  simp only [h]

/-- Each part is a step from a directory to an item. -/
theorem follow_cons_eq_ok_iff {p : String} {ps : List String} {e : Location × Item} :
    w.follow l i (p :: ps) = .ok e ↔
      i = .directory ∧ ∃ j, w.item? (stepTo l p) = some j ∧ w.follow (stepTo l p) j ps = .ok e := by
  cases i with
  | file bytes => simp [follow_file_cons]
  | directory =>
    cases h : w.item? (stepTo l p) with
    | none =>
      rw [follow.eq_def]
      simp [h]
    | some j => simp [follow_directory_cons h]

theorem follow_append_eq_ok_iff {ps qs : List String} {e : Location × Item} :
    w.follow l i (ps ++ qs) = .ok e ↔
      ∃ k j, w.follow l i ps = .ok (k, j) ∧ w.follow k j qs = .ok e := by
  induction ps generalizing l i with
  | nil =>
    constructor
    · intro h
      exact ⟨l, i, rfl, h⟩
    · rintro ⟨k, j, hstart, h⟩
      cases hstart
      exact h
  | cons p ps ih =>
    simp only [List.cons_append, follow_cons_eq_ok_iff, ih]
    constructor
    · rintro ⟨rfl, n, hn, k, j, first, others⟩
      exact ⟨k, j, ⟨rfl, n, hn, first⟩, others⟩
    · rintro ⟨k, j, ⟨rfl, n, hn, first⟩, others⟩
      exact ⟨rfl, n, hn, k, j, first, others⟩

theorem follow_singleton_eq_ok_iff {p : String} {e : Location × Item} :
    w.follow l i [p] = .ok e ↔
      i = .directory ∧ w.item? (stepTo l p) = some e.2 ∧ stepTo l p = e.1 := by
  rw [follow_cons_eq_ok_iff]
  constructor
  · rintro ⟨rfl, j, hj, h⟩
    cases h
    exact ⟨rfl, hj, rfl⟩
  · rintro ⟨rfl, hj, hstep⟩
    refine ⟨rfl, e.2, hj, ?_⟩
    rw [hstep]
    rfl

/-- What is found at the end of a path stands where it leads. -/
theorem item?_of_follow {ps : List String} (start : w.item? l = some i)
    (h : w.follow l i ps = .ok (k, j)) : w.item? k = some j := by
  induction ps generalizing l i with
  | nil =>
    cases h
    exact start
  | cons p ps ih =>
    obtain ⟨rfl, next, hnext, others⟩ := follow_cons_eq_ok_iff.mp h
    exact ih hnext others

/-- A path leads to the same place as long as the directories and what it leads to stay. -/
theorem follow_of_kept {ps : List String}
    (directories : ∀ m, w.item? m = some .directory → w'.item? m = some .directory)
    (last : w.item? k = some j → w'.item? k = some j) (h : w.follow l i ps = .ok (k, j)) :
    w'.follow l i ps = .ok (k, j) := by
  induction ps generalizing l i with
  | nil => exact h
  | cons p ps ih =>
    obtain ⟨rfl, next, hnext, others⟩ := follow_cons_eq_ok_iff.mp h
    have kept : w'.item? (stepTo l p) = some next := by
      cases next with
      | directory => exact directories _ hnext
      | file bytes =>
        -- Nothing is followed behind a file, so it is what the path leads to.
        cases ps with
        | nil =>
          cases others
          exact last hnext
        | cons q qs =>
          rw [follow_file_cons] at others
          cases others
    rw [follow_directory_cons kept]
    exact ih others

theorem find_of_ne_empty (h : path ≠ "") : w.find path = w.follow [] .directory (partsOf path) := by
  rw [find, if_neg (by simpa using h)]

/-- What a path leads to stays there as long as the directories and the item stay. -/
theorem find_of_kept (directories : ∀ m, w.item? m = some .directory → w'.item? m = some .directory)
    (last : w.item? k = some j → w'.item? k = some j) (h : w.find path = .ok (k, j)) :
    w'.find path = .ok (k, j) := by
  have hpath : path ≠ "" := by
    rintro rfl
    cases h
  rw [find_of_ne_empty hpath] at h ⊢
  exact follow_of_kept directories last h

theorem item?_start (w : Workspace) : w.item? [] = some .directory := rfl

/-- What a path leads to stands where it leads. -/
theorem item?_of_find (h : w.find path = .ok (k, j)) : w.item? k = some j := by
  have hpath : path ≠ "" := by
    rintro rfl
    cases h
  rw [find_of_ne_empty hpath] at h
  exact item?_of_follow w.item?_start h

/-- A slash at the end of a path to a directory leads no further. -/
theorem follow_parts_concat_slash {cs : List Char} :
    w.follow [] .directory ((Path.parts (cs ++ ['/'])).map String.ofList) = .ok (l, .directory) ↔
      w.follow [] .directory ((Path.parts cs).map String.ofList) = .ok (l, .directory) := by
  rw [Path.parts_append_slash, List.map_append, follow_append_eq_ok_iff]
  have stays (k : Location) : stepTo k (String.ofList []) = k := by simp [stepTo]
  constructor
  · rintro ⟨k, j, first, last⟩
    obtain ⟨rfl, -, hk⟩ := follow_singleton_eq_ok_iff.mp last
    have hk : k = l := (stays k).symm.trans hk
    rw [← hk]
    exact first
  · intro h
    have here : w.item? l = some .directory := item?_of_follow w.item?_start h
    refine ⟨l, .directory, h, follow_singleton_eq_ok_iff.mpr ⟨rfl, ?_, stays l⟩⟩
    exact (congrArg w.item? (stays l)).trans here

theorem follow_parts_withoutSlashes {cs : List Char}
    (h : w.follow [] .directory ((Path.parts cs).map String.ofList) = .ok (l, .directory)) :
    w.follow [] .directory ((Path.parts (Path.withoutSlashes cs)).map String.ofList) =
      .ok (l, .directory) := by
  induction cs using List.reverseRecOn with
  | nil => exact h
  | append_singleton cs c ih =>
    by_cases hc : c = '/'
    · subst hc
      rw [Path.withoutSlashes_concat]
      exact ih (follow_parts_concat_slash.mp h)
    · rw [Path.withoutSlashes_concat_of_ne hc]
      exact h

/-! Where files are written. -/

/-- A path that leads through directories to a place where a file can be written: its last part is a
name, and nothing or a file is there. -/
structure LeadsToFile (w : Workspace) (path : String) (l : Location) : Prop where
  parts : ∃ before last directory, partsOf path = before ++ [last] ∧
    w.follow [] .directory before = .ok (directory, .directory) ∧ l = directory ++ [last] ∧
    last ≠ "" ∧ last ≠ "." ∧ last ≠ ".."
  free : w.item? l ≠ some .directory

theorem partsOf_eq (path : String) :
    partsOf path = ((Path.parts path.toList).dropLast.map String.ofList) ++
      [String.ofList (Path.lastPart path.toList)] := by
  rw [partsOf, Path.parts_eq_dropLast]
  simp

/-- The last part of a path to a name in a directory is that name, and the parts before it lead to
the directory. -/
theorem exists_of_target {slash : Bool} (h : w.target path = .ok (.named l slash)) :
    ∃ directory last, String.ofList (Path.lastPart (Path.withoutSlashes path.toList)) = last ∧
      w.follow [] .directory ((Path.parts (Path.withoutSlashes path.toList)).dropLast.map
        String.ofList) = .ok (directory, .directory) ∧
      l = directory ++ [last] ∧ last ≠ "" ∧ last ≠ "." ∧ last ≠ ".." ∧
      slash = decide ((Path.withoutSlashes path.toList).length < path.toList.length) := by
  unfold target at h
  dsimp only at h
  split at h
  · cases h
  split at h
  · cases h
  next named =>
    split at h
    · cases h
    · cases h
    next directory hfollow =>
      split at h
      · cases h
      next dots =>
        cases h
        exact ⟨directory, _, rfl, hfollow, rfl, named, fun hd => dots (Or.inl hd),
          fun hd => dots (Or.inr hd), rfl⟩

theorem leadsToFile_of_fileTarget (h : w.fileTarget path = .ok l) : w.LeadsToFile path l := by
  unfold fileTarget at h
  split at h
  · cases h
  · cases h
  next m slash htarget =>
    split at h
    · cases h
    next taken =>
      cases h
      obtain ⟨directory, last, hlast, hfollow, hl, named, hdot, hdots, hslash⟩ :=
        exists_of_target htarget
      -- There is no slash at the end, so the parts are those of the whole path.
      have whole : Path.withoutSlashes path.toList = path.toList := by
        apply (Path.withoutSlashes_prefix path.toList).eq_of_length_le
        have unslashed : slash = false := by
          cases slash with
          | false => rfl
          | true => exact absurd (Or.inl rfl) taken
        rw [unslashed] at hslash
        simpa using hslash.symm
      rw [whole] at hlast hfollow
      have hparts := partsOf_eq path
      rw [hlast] at hparts
      exact ⟨⟨_, last, directory, hparts, hfollow, hl, named, hdot, hdots⟩,
        fun hd => taken (Or.inr hd)⟩

theorem fileTarget_of_leadsToFile (h : w.LeadsToFile path l) : w.fileTarget path = .ok l := by
  obtain ⟨before, last, directory, hparts, hfollow, rfl, named, hdot, hdots⟩ := h.parts
  rw [partsOf_eq] at hparts
  obtain ⟨rfl, hlast⟩ := List.append_inj' hparts rfl
  have hlast : String.ofList (Path.lastPart path.toList) = last := (List.cons.inj hlast).1
  have whole : Path.withoutSlashes path.toList = path.toList := by
    apply Path.withoutSlashes_of_lastPart
    intro hnil
    rw [hnil] at hlast
    exact named hlast.symm
  have nonempty : ¬ path.toList.isEmpty = true := by
    intro hempty
    rw [List.isEmpty_iff.mp hempty] at hlast
    exact named hlast.symm
  have htarget : w.target path = .ok (.named (directory ++ [last]) false) := by
    unfold target
    dsimp only
    rw [whole, hlast, if_neg nonempty, if_neg named, hfollow]
    simp [hdot, hdots]
  rw [fileTarget, htarget]
  simp [h.free]

theorem LeadsToFile.unique (h : w.LeadsToFile path l) (h' : w.LeadsToFile path k) : k = l := by
  have same := (fileTarget_of_leadsToFile h').symm.trans (fileTarget_of_leadsToFile h)
  exact Except.ok.inj same

theorem LeadsToFile.writeBytes (h : w.LeadsToFile path l) (bytes : ByteArray) :
    w.writeBytes path bytes = .ok (w.put l (.file bytes)) := by
  rw [Workspace.writeBytes, fileTarget_of_leadsToFile h]

/-- A file is written where its path leads. -/
theorem writeBytes_eq_ok_iff {bytes : ByteArray} :
    w.writeBytes path bytes = .ok w' ↔ ∃ l, w.LeadsToFile path l ∧ w' = w.put l (.file bytes) := by
  constructor
  · intro h
    unfold writeBytes at h
    split at h
    · cases h
    next l htarget =>
      cases h
      exact ⟨l, leadsToFile_of_fileTarget htarget, rfl⟩
  · rintro ⟨l, h, rfl⟩
    exact h.writeBytes bytes

namespace LeadsToFile

variable (h : w.LeadsToFile path l) (bytes : ByteArray)
include h

theorem directory_kept (m : Location) (hm : w.item? m = some .directory) :
    (w.put l (.file bytes)).item? m = some .directory := by
  have apart : m ≠ l := by
    rintro rfl
    exact h.free hm
  rw [item?_put_of_ne w apart, hm]

/-- The path leads to the same place once the file is written. -/
theorem put : (w.put l (.file bytes)).LeadsToFile path l := by
  obtain ⟨before, last, directory, hparts, hfollow, hl, named⟩ := h.parts
  refine ⟨⟨before, last, directory, hparts, ?_, hl, named⟩, ?_⟩
  · exact follow_of_kept (h.directory_kept bytes) (h.directory_kept bytes directory) hfollow
  · rw [item?_put_self w (inside_of_not_directory h.free)]
    simp

theorem find_put : (w.put l (.file bytes)).find path = .ok (l, .file bytes) := by
  have here : (w.put l (.file bytes)).item? l = some (.file bytes) :=
    item?_put_self w (inside_of_not_directory h.free) _
  obtain ⟨before, last, directory, hparts, hfollow, hl, named, hdot, hdots⟩ := (h.put bytes).parts
  have nonempty : path ≠ "" := by
    rintro rfl
    have hlast := congrArg List.getLast? hparts
    simp [partsOf, Path.parts] at hlast
    exact named hlast
  have step : stepTo directory last = l := by simp [stepTo, named, hdot, hdots, hl]
  rw [find_of_ne_empty nonempty, hparts, follow_append_eq_ok_iff]
  refine ⟨directory, .directory, hfollow, ?_⟩
  rw [follow_singleton_eq_ok_iff, step]
  exact ⟨rfl, here, rfl⟩

theorem find_put_of_ne {q : String} {b : ByteArray} (apart : k ≠ l)
    (hq : w.find q = .ok (k, .file b)) : (w.put l (.file bytes)).find q = .ok (k, .file b) := by
  refine find_of_kept (h.directory_kept bytes) ?_ hq
  intro hk
  rw [item?_put_of_ne w apart, hk]

omit bytes in
/-- What leads to the last part of the path is a directory. -/
theorem isDirectory (named : Path.directory path ≠ "") :
    w.isDirectory (Path.directory path) = true := by
  obtain ⟨before, last, directory, hparts, hfollow, -⟩ := h.parts
  have leads : w.follow [] .directory (partsOf (Path.directory path)) =
      .ok (directory, .directory) := by
    rcases Path.exists_last_slash path.toList with none | ⟨xs, ys, hpath, hys⟩
    · exact absurd (by rw [Path.directory, Path.leadingPart_of_notMem none]) named
    · have hbefore : (Path.parts xs).map String.ofList = before := by
        rw [partsOf, hpath, Path.parts_append_slash, Path.parts_of_notMem hys,
          List.map_append] at hparts
        exact (List.append_inj' hparts rfl).1
      rw [← hbefore] at hfollow
      rw [partsOf, Path.directory, String.toList_ofList, hpath]
      -- The slash in front of the last part is left out, except from a path of slashes.
      rcases Path.leadingPart_append_slash xs hys with hlead | hlead
      · rw [hlead]
        exact follow_parts_concat_slash.mpr hfollow
      · rw [hlead]
        exact follow_parts_withoutSlashes hfollow
  rw [Workspace.isDirectory, find_of_ne_empty named, leads]

end LeadsToFile

/-! Directories that are made. -/

/-- A later workspace has all that an earlier one has, and besides it nothing but directories. -/
def AddsDirectories (w w' : Workspace) : Prop :=
  ∀ l, w'.item? l = w.item? l ∨ w.item? l = none ∧ w'.item? l = some .directory

namespace AddsDirectories

theorem refl (w : Workspace) : w.AddsDirectories w :=
  fun _ => Or.inl rfl

theorem trans {w'' : Workspace} (h : w.AddsDirectories w') (h' : w'.AddsDirectories w'') :
    w.AddsDirectories w'' := by
  intro l
  rcases h' l with same' | ⟨free', made'⟩
  · rcases h l with same | ⟨free, made⟩
    · exact Or.inl (same'.trans same)
    · exact Or.inr ⟨free, same'.trans made⟩
  · rcases h l with same | ⟨free, made⟩
    · exact Or.inr ⟨same ▸ free', made'⟩
    · rw [made] at free'
      cases free'

theorem kept (h : w.AddsDirectories w') (hi : w.item? l = some i) : w'.item? l = some i := by
  rcases h l with same | ⟨free, -⟩
  · exact same.trans hi
  · rw [free] at hi
    cases hi

theorem find_kept (h : w.AddsDirectories w') (hi : w.find path = .ok (k, i)) :
    w'.find path = .ok (k, i) :=
  find_of_kept (fun _ hm => h.kept hm) h.kept hi

end AddsDirectories

theorem addsDirectories_of_makeDirectory (h : w.makeDirectory path = .ok w') :
    w.AddsDirectories w' := by
  unfold makeDirectory at h
  split at h
  · cases h
  · cases h
  next l slash htarget =>
    split at h
    · cases h
    next free =>
      cases h
      intro m
      by_cases hm : m = l
      · subst hm
        have hm : w.item? m ≠ some .directory := by simp [free]
        exact Or.inr ⟨free, item?_put_self w (inside_of_not_directory hm) _⟩
      · exact Or.inl (item?_put_of_ne w hm _)

theorem addsDirectories_tryDirectory (w : Workspace) (path : String) :
    w.AddsDirectories (w.tryDirectory path).1 := by
  unfold tryDirectory
  split
  next w' hmade => exact addsDirectories_of_makeDirectory hmade
  · exact AddsDirectories.refl w

theorem addsDirectories_makeDirectoriesFrom (w : Workspace) (path : String) (fuel : Nat) :
    w.AddsDirectories (w.makeDirectoriesFrom path fuel).1 := by
  induction fuel generalizing path with
  | zero => exact AddsDirectories.refl w
  | succ fuel ih =>
    rw [makeDirectoriesFrom]
    extract_lets above
    have made : w.AddsDirectories above.1 := ih _
    clear_value above
    split
    · exact addsDirectories_tryDirectory w path
    · split
      · exact made
      · split
        · exact made
        · exact made.trans (addsDirectories_tryDirectory _ path)

end TagOutline.Workspace
