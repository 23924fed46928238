import TagOutline.Proofs.Archive.Store

/-!
# What a failed save destroys

A save can fail at the directories, at the file, or for want of a dialect. The first two leave every
file as it was. The last comes up when the file is already empty, so what stood there before is
lost, and nothing else is.
-/

namespace TagOutline.Archive

open Workspace (AddsDirectories LeadsToFile)

variable {w w' : Workspace} {path : String} {cs : List Entity} {v : Value} {e : SaveError}

/-- How a save fails: the directories cannot be made, the file cannot be opened, or the dialect is
not known and the file is empty. -/
inductive SaveFails (w : Workspace) (path : String) (v : Value) : Workspace → SaveError → Prop where
  | unprepared {ready : Workspace} {error : FileError}
      (prepared : prepare w path = (ready, some error)) : SaveFails w path v ready (.file path error)
  | unopened {ready : Workspace} {error : FileError} (prepared : prepare w path = (ready, none))
      (refused : ready.writeText path "" = .error error) : SaveFails w path v ready (.file path error)
  | emptied {ready : Workspace} {l : Location} {error : UnknownDialect}
      (prepared : prepare w path = (ready, none)) (leads : ready.LeadsToFile path l)
      (unknown : Dialect.ofValue v = .error error) :
      SaveFails w path v (ready.put l (.file (Text.Utf8.encode ""))) (.dialect error)

theorem saveFails_of_save (h : save w path cs v = (w', .error e)) : SaveFails w path v w' e := by
  unfold save at h
  split at h
  next ready error prepared =>
    cases h
    exact .unprepared prepared
  next ready prepared =>
    split at h
    next error refused =>
      cases h
      exact .unopened prepared refused
    next emptied opened =>
      obtain ⟨l, leads, rfl⟩ := Workspace.writeBytes_eq_ok_iff.mp opened
      split at h
      next error unknown =>
        cases h
        exact .emptied prepared leads unknown
      next d named =>
        -- What could be emptied can be written.
        have writes := (leads.put (Text.Utf8.encode "")).writeBytes
          (Text.Utf8.encode (savedText d cs))
        rw [Workspace.writeText, writes] at h
        cases h

theorem addsDirectories_of_prepared {ready : Workspace} {error? : Option FileError}
    (h : prepare w path = (ready, error?)) : w.AddsDirectories ready := by
  have adds := addsDirectories_prepare w path
  rw [h] at adds
  exact adds

/-- A save that the file system refuses keeps all that was there. -/
theorem SaveFails.addsDirectories {p : String} {error : FileError}
    (h : SaveFails w path v w' (.file p error)) : p = path ∧ w.AddsDirectories w' := by
  cases h with
  | unprepared prepared => exact ⟨rfl, addsDirectories_of_prepared prepared⟩
  | unopened prepared refused => exact ⟨rfl, addsDirectories_of_prepared prepared⟩

/-- A save without a dialect empties the file that the path leads to and keeps all else. -/
theorem SaveFails.exists_emptied {error : UnknownDialect}
    (h : SaveFails w path v w' (.dialect error)) :
    Dialect.ofValue v = .error error ∧
      ∃ l, w'.find path = .ok (l, .file (Text.Utf8.encode "")) ∧
        ∀ k, k ≠ l → w'.item? k = w.item? k ∨
          w.item? k = none ∧ w'.item? k = some .directory := by
  cases h with
  | emptied prepared leads unknown =>
    refine ⟨unknown, _, leads.find_put _, ?_⟩
    intro k apart
    rw [Workspace.item?_put_of_ne _ apart]
    exact addsDirectories_of_prepared prepared k

/-- Where one file is empty and all else is kept, no file is lost if and only if this one held
nothing before. -/
theorem files_kept_iff_of_emptied {l : Location}
    (here : w'.item? l = some (.file (Text.Utf8.encode "")))
    (others : ∀ k, k ≠ l → w'.item? k = w.item? k ∨
      w.item? k = none ∧ w'.item? k = some .directory) :
    (∀ k bytes, w.item? k = some (.file bytes) → w'.item? k = some (.file bytes)) ↔
      ∀ old, w.item? l = some (.file old) → old = Text.Utf8.encode "" := by
  constructor
  · intro kept old hold
    have same := (kept l old hold).symm.trans here
    cases same
    rfl
  · intro nothing k bytes hk
    by_cases same : k = l
    · subst same
      rw [here, nothing bytes hk]
    · rcases others k same with kept | ⟨none, -⟩
      · rw [kept, hk]
      · rw [none] at hk
        cases hk

/-- A save that fails destroys nothing if and only if the file system refused it, or else the file
that the path leads to was not there before or was empty. Where the file system refuses it, at most
directories are new. Otherwise the dialect is not known, the file that the path leads to is empty
now, and all else is as it was but for new directories. -/
theorem save_failure_destroys (h : save w path cs v = (w', .error e)) :
    ((∀ l bytes, w.item? l = some (.file bytes) → w'.item? l = some (.file bytes)) ↔
      (∃ error, e = .file path error) ∨
      ∃ l, w'.find path = .ok (l, .file (Text.Utf8.encode "")) ∧
        ∀ old, w.item? l = some (.file old) → old = Text.Utf8.encode "") ∧
    (∀ p error, e = .file p error → p = path ∧ w.AddsDirectories w') ∧
    ∀ error, e = .dialect error → Dialect.ofValue v = .error error ∧
      ∃ l, w'.find path = .ok (l, .file (Text.Utf8.encode "")) ∧
        ∀ k, k ≠ l → w'.item? k = w.item? k ∨
          w.item? k = none ∧ w'.item? k = some .directory := by
  have fails := saveFails_of_save h
  refine ⟨?_, ?_, ?_⟩
  · cases e with
    | file p error =>
      obtain ⟨rfl, adds⟩ := fails.addsDirectories
      exact ⟨fun _ => Or.inl ⟨error, rfl⟩, fun _ l bytes hl => adds.kept hl⟩
    | dialect error =>
      obtain ⟨-, l, found, others⟩ := fails.exists_emptied
      rw [files_kept_iff_of_emptied (Workspace.item?_of_find found) others]
      constructor
      · exact fun nothing => Or.inr ⟨l, found, nothing⟩
      · rintro (⟨error, refused⟩ | ⟨k, found', nothing⟩)
        · cases refused
        · have same := found.symm.trans found'
          cases same
          exact nothing
  · rintro p error rfl
    exact fails.addsDirectories
  · rintro error rfl
    exact fails.exists_emptied

/-- A save without a dialect to a path that leads to nothing yet. The other file is kept. -/
theorem save_failure_destroys_new_file :
    let w : Workspace := ⟨[(["old.json"], .file (Text.Utf8.encode "old"))]⟩
    let w' := (save w "out/new.json" [] (.text "table")).1
    save w "out/new.json" [] (.text "table") = (w', .error (.dialect ⟨.text "table"⟩)) ∧
      (∀ l bytes, w.item? l = some (.file bytes) → w'.item? l = some (.file bytes)) ∧
      w'.readText "out/new.json" = .ok "" := by
  intro w w'
  have failed : save w "out/new.json" [] (.text "table") =
      (w', .error (.dialect ⟨.text "table"⟩)) := Prod.ext rfl (by rfl)
  obtain ⟨kept, -, -⟩ := save_failure_destroys failed
  refine ⟨failed, kept.mpr (Or.inr ⟨["out", "new.json"], by rfl, ?_⟩), by rfl⟩
  intro old hold
  cases hold

/-- A save without a dialect to a file that is there: the file is lost. -/
theorem save_failure_emptied_file :
    let w : Workspace := ⟨[(["out.json"], .file (Text.Utf8.encode "precious"))]⟩
    let w' := (save w "out.json" [] (.text "table")).1
    save w "out.json" [] (.text "table") = (w', .error (.dialect ⟨.text "table"⟩)) ∧
      w.readText "out.json" = .ok "precious" ∧ w'.readText "out.json" = .ok "" ∧
      ¬ ∀ l bytes, w.item? l = some (.file bytes) → w'.item? l = some (.file bytes) := by
  intro w w'
  refine ⟨Prod.ext rfl (by rfl), by rfl, by rfl, ?_⟩
  intro kept
  have lost : w'.item? ["out.json"] = some (.file (Text.Utf8.encode "")) := by rfl
  have same := (kept ["out.json"] _ rfl).symm.trans lost
  revert same
  decide

end TagOutline.Archive
