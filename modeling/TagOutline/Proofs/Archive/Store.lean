import TagOutline.Archive.Store
import TagOutline.Proofs.Entity.Record
import TagOutline.Proofs.Files.Workspace
import TagOutline.Proofs.Json.RoundTrip
import TagOutline.Proofs.Text.Lines

/-!
# What is saved is loaded

An outline is loaded from where it was saved, with its containers in the classes of the dialect it
was saved in. Saving writes one file and makes directories, so all other files are as before.
-/

namespace TagOutline.Archive

open Workspace (AddsDirectories LeadsToFile)

variable {w w' : Workspace} {path : String} {d : Dialect} {cs : List Entity}

/-! Documents. -/

theorem isContainer_containerClass (d : Dialect) : d.containerClass.isContainer = true := by
  cases d <;> rfl

theorem ofValue_name (d : Dialect) : Dialect.ofValue (.text d.name) = .ok d := by
  simp [Dialect.ofValue]

theorem dialectOf_document (d : Dialect) (v : Value) :
    dialectOf [(.text "dialect", .text d.name), (.text "containers", v)] = .ok d := by
  have named : Value.present? "dialect" [(.text "dialect", .text d.name), (.text "containers", v)] =
      some (.text d.name) := by
    cases d <;> rfl
  rw [dialectOf, named]
  exact ofValue_name d

theorem containerElements_document (v : Value) (xs : List Value) :
    containerElements [(.text "dialect", v), (.text "containers", .list xs)] = .ok xs := by
  cases xs <;> rfl

/-- A document is read as its containers in the classes of its dialect. -/
theorem ofDocument_document (d : Dialect) (containers : ∀ e ∈ cs, e.cls.isContainer = true) :
    ofDocument (document d cs) = .ok (cs.map (Entity.recast d.containerClass)) := by
  have each := Entity.mapM_toValue fun e he =>
    Entity.ofValue_toValue (containers e he) (isContainer_containerClass d)
  rw [document, Entity.toValues_eq_map, ofDocument, dialectOf_document]
  simp only [containerElements_document, each]
  rfl

theorem isJson_document (d : Dialect) (storable : ∀ e ∈ cs, e.IsStorable) :
    (document d cs).IsJson := by
  have elements : (Value.list (cs.map Entity.toValue)).IsJson := by
    refine .list fun x hx => ?_
    obtain ⟨e, he, rfl⟩ := List.mem_map.mp hx
    exact (storable e he).isJson_toValue
  rw [document, Entity.toValues_eq_map]
  refine .record (by simp) (by simp) ?_
  intro f hf
  rcases List.mem_cons.mp hf with rfl | hf
  · exact .text _
  · obtain rfl := List.mem_singleton.mp hf
    exact elements

/-! Saving. -/

theorem addsDirectories_prepare (w : Workspace) (path : String) :
    w.AddsDirectories (prepare w path).1 := by
  unfold prepare
  dsimp only
  split
  · exact AddsDirectories.refl w
  · exact Workspace.addsDirectories_makeDirectoriesFrom w _ _

/-- A saved outline stands as text where its path leads once the directories are there. -/
theorem save_eq_ok_iff : save w path cs (.text d.name) = (w', .ok ()) ↔
    ∃ ready l, prepare w path = (ready, none) ∧ ready.LeadsToFile path l ∧
      w' = ready.put l (.file (Text.Utf8.encode (savedText d cs))) := by
  unfold save
  constructor
  · intro h
    split at h
    · cases h
    next ready hprepare =>
      rw [ofValue_name] at h
      split at h
      · cases h
      next emptied hempty =>
        obtain ⟨l, leads, rfl⟩ := Workspace.writeBytes_eq_ok_iff.mp hempty
        dsimp only at h
        split at h
        · cases h
        next written hwritten =>
          cases h
          obtain ⟨k, leads', rfl⟩ := Workspace.writeBytes_eq_ok_iff.mp hwritten
          -- The text goes where the empty file went.
          obtain rfl := (leads.put _).unique leads'
          exact ⟨ready, k, hprepare, leads, Workspace.put_put ready k _ _⟩
  · rintro ⟨ready, l, hprepare, leads, rfl⟩
    have empties := leads.writeBytes (Text.Utf8.encode "")
    have writes := (leads.put (Text.Utf8.encode "")).writeBytes
      (Text.Utf8.encode (savedText d cs))
    simp only [hprepare, Workspace.writeText, empties, ofValue_name, writes, Workspace.put_put]

/-! Loading. -/

theorem readText_of_find {l : Location} {text : String}
    (h : w.find path = .ok (l, .file (Text.Utf8.encode text))) (plain : '\r' ∉ text.toList) :
    w.readText path = .ok text := by
  rw [Workspace.readText, Workspace.readBytes, h]
  simp only [Text.Utf8.decode_encode, Text.unifyLineEnds_of_notMem plain, String.ofList_toList]

theorem return_notMem_savedText (d : Dialect) (storable : ∀ e ∈ cs, e.IsStorable) :
    '\r' ∉ (savedText d cs).toList := by
  rw [savedText, Json.write, String.toList_ofList]
  exact Json.return_notMem_writeValue (isJson_document d storable) _ 0

/-- An outline is loaded where its text is found. -/
theorem load_of_find {l : Location} (storable : ∀ e ∈ cs, e.IsStorable ∧ e.cls.isContainer = true)
    (h : w.find path = .ok (l, .file (Text.Utf8.encode (savedText d cs)))) :
    load w path = .ok (cs.map (Entity.recast d.containerClass)) := by
  have here : w.hasPath path = true := by
    rw [Workspace.hasPath, h]
    rfl
  have text := readText_of_find h (return_notMem_savedText d fun e he => (storable e he).1)
  have value : Json.read (savedText d cs) = .ok (document d cs) :=
    Json.read_write (isJson_document d fun e he => (storable e he).1) _
  have outline := ofDocument_document d fun e he => (storable e he).2
  simp only [load, here, text, value, outline]
  rfl

/-- A storable outline comes back from where it was saved, whatever the path led to before: each
container in the class that the dialect gives it, with the record that it had. So it does from its
document. What leads to the file is a directory, and every other file is as it was. -/
theorem load_save (d : Dialect) {cs : List Entity}
    (storable : ∀ e ∈ cs, e.IsStorable ∧ e.cls.isContainer = true) :
    let rebuilt := cs.map (Entity.recast d.containerClass)
    ofDocument (document d cs) = .ok rebuilt ∧
    rebuilt.map Entity.toValue = cs.map Entity.toValue ∧
    (∀ e ∈ rebuilt, e.cls = d.containerClass ∧ ∀ c ∈ e.children, c.cls = d.childClass) ∧
    ((∀ e ∈ cs, e.cls = d.containerClass ∧ ∀ c ∈ e.children, c.cls = d.childClass) →
      rebuilt = cs) ∧
    ∀ (w w' : Workspace) (path : String), save w path cs (.text d.name) = (w', .ok ()) →
      load w' path = .ok rebuilt ∧
      (Path.directory path = "" ∨ w'.isDirectory (Path.directory path) = true) ∧
      ∃ l, w'.find path = .ok (l, .file (Text.Utf8.encode (savedText d cs))) ∧
        (∀ k, k ≠ l → w'.item? k = w.item? k ∨
          w.item? k = none ∧ w'.item? k = some .directory) ∧
        ∀ other k bytes, w.find other = .ok (k, .file bytes) → k ≠ l →
          w'.find other = .ok (k, .file bytes) := by
  intro rebuilt
  refine ⟨ofDocument_document d fun e he => (storable e he).2, ?_, ?_, ?_, ?_⟩
  · rw [List.map_map]
    apply List.map_congr_left
    intro e he
    exact Entity.toValue_recast (storable e he).2
      (fun c hc => ((storable e he).1.children c hc).1) (isContainer_containerClass d)
  · intro e he
    obtain ⟨e, -, rfl⟩ := List.mem_map.mp he
    refine ⟨rfl, ?_⟩
    intro c hc
    obtain ⟨c, -, rfl⟩ := List.mem_map.mp hc
    exact d.childClass_containerClass
  · intro own
    conv_rhs => rw [← List.map_id cs]
    apply List.map_congr_left
    intro e he
    obtain ⟨hcls, hchildren⟩ := own e he
    rw [← hcls]
    apply Entity.recast_self
    intro c hc
    refine ⟨?_, ((storable e he).1.children c hc).2.1⟩
    rw [hchildren c hc, hcls, d.childClass_containerClass]
  · intro w w' path saved
    obtain ⟨ready, l, hprepare, leads, rfl⟩ := save_eq_ok_iff.mp saved
    have adds : w.AddsDirectories ready := by
      have h := addsDirectories_prepare w path
      rw [hprepare] at h
      exact h
    have found := leads.find_put (Text.Utf8.encode (savedText d cs))
    refine ⟨load_of_find storable found, ?_, l, found, ?_, ?_⟩
    · by_cases hd : Path.directory path = ""
      · exact Or.inl hd
      · exact Or.inr ((leads.put _).isDirectory hd)
    · intro k apart
      rw [Workspace.item?_put_of_ne ready apart]
      exact adds k
    · intro other k bytes hfind apart
      exact leads.find_put_of_ne _ apart (adds.find_kept hfind)

/-- A node with line ends in its name, saved as a form two directories down where there is none. -/
theorem load_save_new_directories :
    let cs : List Entity := [⟨.node, .text "\r\n\"", [(.text "", .list [.null, .int (-120)])],
      [⟨.property, .text "\u0085", [], []⟩]⟩]
    let w : Workspace := ⟨[(["notes"], .file (Text.Utf8.encode "old"))]⟩
    let w' := (save w "out/new/saved.json" cs (.text "form")).1
    (∀ e ∈ cs, e.IsStorable ∧ e.cls.isContainer = true) ∧
      save w "out/new/saved.json" cs (.text "form") = (w', .ok ()) ∧
      load w' "out/new/saved.json" =
        .ok [⟨.form, .text "\r\n\"", [(.text "", .list [.null, .int (-120)])],
          [⟨.input, .text "\u0085", [], []⟩]⟩] ∧
      w'.isDirectory "out/new" = true ∧
      w'.find "notes" = .ok (["notes"], .file (Text.Utf8.encode "old")) := by
  intro cs w w'
  have attributes : (Value.list [.null, .int (-120)]).IsJson := by
    refine .list fun x hx => ?_
    simp only [List.mem_cons, List.not_mem_nil, or_false] at hx
    rcases hx with rfl | rfl
    · exact .null
    · exact .int (-120) (by decide)
  have storable : ∀ e ∈ cs, e.IsStorable ∧ e.cls.isContainer = true := by
    intro e he
    rw [List.mem_singleton.mp he]
    refine ⟨?_, rfl⟩
    exact
      { name := .text _
        attributes := .record (by simp) (by simp) (by simpa using attributes)
        able := fun _ => rfl
        children := by
          intro d hd
          rw [List.mem_singleton.mp hd]
          exact ⟨rfl, rfl, .text _, .record (by simp) (by simp) (by simp)⟩ }
  have saved : save w "out/new/saved.json" cs (.text "form") = (w', .ok ()) :=
    Prod.ext rfl (by rfl)
  obtain ⟨-, -, -, -, h⟩ := load_save .form storable
  obtain ⟨loaded, directories, l, found, -, others⟩ := h w w' "out/new/saved.json" saved
  have place : (w'.find "out/new/saved.json").map Prod.fst = .ok ["out", "new", "saved.json"] := by
    rfl
  rw [found] at place
  have apart : ["notes"] ≠ l := by
    rw [show l = ["out", "new", "saved.json"] from Except.ok.inj place]
    decide
  exact ⟨storable, saved, loaded, directories.resolve_left (by decide),
    others "notes" ["notes"] _ rfl apart⟩

end TagOutline.Archive
