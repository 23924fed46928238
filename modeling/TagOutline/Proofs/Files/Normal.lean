import TagOutline.Proofs.Files.Workspace
import TagOutline.Proofs.Text.Lines

/-!
# Normalised paths

Normalising a path that is not rooted leaves the names of the location that it leads to. So the
normalised path leads to the same place, it is the same for all paths to a file, and normalising it
once more changes nothing.
-/

namespace TagOutline

namespace Path

/-- Whether a path starts with a slash. -/
def isRooted (path : String) : Bool :=
  path.toList.head? == some '/'

theorem rootSlashes_of_not_isRooted {path : String} (h : isRooted path = false) :
    rootSlashes path.toList = "" := by
  cases hcs : path.toList with
  | nil => rfl
  | cons c cs =>
    have hc : c ≠ '/' := by simpa [isRooted, hcs] using h
    unfold rootSlashes
    split
    · exact absurd (by assumption) (by simp [hc])
    · exact absurd (by assumption) (by simp [hc])
    · exact absurd (by assumption) (by simp [hc])
    · rfl

theorem isRooted_normalized {path : String} (h : isRooted path = true) :
    isRooted (normalized path) = true := by
  obtain ⟨cs, hcs⟩ := List.head?_eq_some_iff.mp (beq_iff_eq.mp h)
  have root : ∃ ds, (rootSlashes path.toList).toList = '/' :: ds := by
    rw [hcs]
    unfold rootSlashes
    split
    · exact ⟨[], rfl⟩
    · exact ⟨['/'], rfl⟩
    · exact ⟨[], rfl⟩
    next other => exact absurd rfl (other cs)
  obtain ⟨ds, hds⟩ := root
  have nonempty (rest : String) : (rootSlashes path.toList ++ rest).isEmpty = false := by
    rw [← Bool.not_eq_true, String.isEmpty_iff, ← String.toList_inj, String.toList_append, hds]
    simp
  simp only [normalized, nonempty, Bool.false_eq_true, if_false, isRooted, String.toList_append, hds]
  rfl

end Path

namespace Workspace

variable {w : Workspace} {path : String} {k l : Location} {i j : Item}

/-- A part of a path that names what stands in a directory. -/
structure IsName (part : String) : Prop where
  nonempty : part ≠ ""
  notHere : part ≠ "."
  notAbove : part ≠ ".."
  whole : '/' ∉ part.toList

/-- A location whose own names lead to it: some that go upwards, and then those of directories. -/
structure IsTrail (w : Workspace) (l : Location) (i : Item) : Prop where
  names : ∃ n names, l = List.replicate n ".." ++ names ∧ ∀ x ∈ names, IsName x
  reached : w.follow [] .directory l = .ok (l, i)

theorem stepTo_of_isName {part : String} (h : IsName part) (l : Location) :
    stepTo l part = l ++ [part] := by
  rw [stepTo, if_neg (by simp [h.nonempty, h.notHere]), if_neg h.notAbove]

theorem stepTo_here {part : String} (h : part = "" ∨ part = ".") (l : Location) :
    stepTo l part = l := by
  rw [stepTo, if_pos h]

theorem stepTo_above (n : Nat) :
    stepTo (List.replicate n "..") ".." = List.replicate n ".." ++ [".."] := by
  have all : (List.replicate n "..").all (· = "..") = true := by simp
  rw [stepTo, if_neg (by decide), if_pos rfl, if_pos all]

theorem stepTo_back {name : String} (h : IsName name) (l : Location) :
    stepTo (l ++ [name]) ".." = l := by
  have inside : (l ++ [name]).all (· = "..") = false := by simp [h.notAbove]
  rw [stepTo, if_neg (by decide), if_pos rfl, inside]
  simp

/-- The names of a location that goes upwards only, or the last of its names. -/
theorem names_cases {l : Location}
    (h : ∃ n names, l = List.replicate n ".." ++ names ∧ ∀ x ∈ names, IsName x) :
    (∃ n, l = List.replicate n "..") ∨ ∃ before name, l = before ++ [name] ∧ IsName name ∧
      ∃ n names, before = List.replicate n ".." ++ names ∧ ∀ x ∈ names, IsName x := by
  obtain ⟨n, names, rfl, hnames⟩ := h
  cases names using List.reverseRecOn with
  | nil => exact Or.inl ⟨n, by simp⟩
  | append_singleton names name =>
    refine Or.inr ⟨List.replicate n ".." ++ names, name, by simp, hnames name (by simp), n, names,
      rfl, ?_⟩
    exact fun x hx => hnames x (List.mem_append_left _ hx)

/-- A part is pushed onto the parts of a location as it is stepped to. -/
theorem pushPart_reverse
    (h : ∃ n names, l = List.replicate n ".." ++ names ∧ ∀ x ∈ names, IsName x) (part : String) :
    Path.pushPart false l.reverse part = (stepTo l part).reverse := by
  by_cases here : part = "" ∨ part = "."
  · rw [Path.pushPart.eq_def, if_pos here, stepTo_here here]
  · by_cases above : part = ".."
    · subst above
      rcases names_cases h with ⟨n, rfl⟩ | ⟨before, name, rfl, hname, -⟩
      · rw [stepTo_above, Path.pushPart.eq_def, if_neg here, if_pos rfl, List.reverse_replicate]
        cases n with
        | zero => rfl
        | succ n =>
          rw [List.replicate_succ]
          simp [← List.replicate_succ, ← List.replicate_succ']
      · rw [stepTo_back hname, Path.pushPart.eq_def, if_neg here, if_pos rfl]
        simp [hname.notAbove]
    · rw [Path.pushPart.eq_def, if_neg here, if_neg above, stepTo, if_neg here, if_neg above]
      simp

theorem isTrail_start (w : Workspace) : w.IsTrail [] .directory :=
  ⟨⟨0, [], rfl, by simp⟩, rfl⟩

namespace IsTrail

theorem concat {part : String} (h : w.IsTrail l .directory)
    (names : ∃ n names, l ++ [part] = List.replicate n ".." ++ names ∧ ∀ x ∈ names, IsName x)
    (step : stepTo l part = l ++ [part]) (found : w.item? (l ++ [part]) = some j) :
    w.IsTrail (l ++ [part]) j := by
  refine ⟨names, follow_append_eq_ok_iff.mpr ⟨l, .directory, h.reached, ?_⟩⟩
  rw [follow_singleton_eq_ok_iff, step]
  exact ⟨rfl, found, rfl⟩

/-- In front of a name stands the directory that it is in. -/
theorem before {name : String} (h : w.IsTrail (l ++ [name]) i) (hname : IsName name) :
    w.follow [] .directory l = .ok (l, .directory) := by
  obtain ⟨k, j, first, last⟩ := follow_append_eq_ok_iff.mp h.reached
  obtain ⟨rfl, -, step⟩ := follow_singleton_eq_ok_iff.mp last
  rw [stepTo_of_isName hname] at step
  have same : k = l := (List.append_inj' step rfl).1
  rw [← same]
  exact same ▸ first

theorem step {part : String} (h : w.IsTrail l .directory) (whole : '/' ∉ part.toList)
    (found : w.item? (stepTo l part) = some j) : w.IsTrail (stepTo l part) j := by
  by_cases here : part = "" ∨ part = "."
  · have directory : w.item? l = some .directory := item?_of_follow w.item?_start h.reached
    rw [stepTo_here here, directory] at found
    rw [stepTo_here here, ← Option.some.inj found]
    exact h
  · by_cases above : part = ".."
    · subst above
      rcases names_cases h.names with ⟨n, rfl⟩ | ⟨before, name, rfl, hname, names⟩
      · have step := stepTo_above n
        rw [step] at found ⊢
        exact h.concat ⟨n + 1, [], by simp [List.replicate_succ'], by simp⟩ step found
      · have reached := h.before hname
        have directory : w.item? before = some .directory := item?_of_follow w.item?_start reached
        rw [stepTo_back hname, directory] at found
        rw [stepTo_back hname, ← Option.some.inj found]
        exact ⟨names, reached⟩
    · have name : IsName part := ⟨fun h => here (Or.inl h), fun h => here (Or.inr h), above, whole⟩
      have step := stepTo_of_isName name l
      rw [step] at found ⊢
      obtain ⟨n, names, hl, hnames⟩ := h.names
      refine h.concat ⟨n, names ++ [part], by simp [hl], ?_⟩ step found
      intro x hx
      rcases List.mem_append.mp hx with hx | hx
      · exact hnames x hx
      · rw [List.mem_singleton.mp hx]
        exact name

/-- Following parts from a location leads to another one, and its names are what is left of the
parts. -/
theorem follow {parts : List String} (h : w.IsTrail l i) (whole : ∀ p ∈ parts, '/' ∉ p.toList)
    (found : w.follow l i parts = .ok (k, j)) :
    w.IsTrail k j ∧ parts.foldl (Path.pushPart false) l.reverse = k.reverse := by
  induction parts generalizing l i with
  | nil =>
    cases found
    exact ⟨h, rfl⟩
  | cons part parts ih =>
    obtain ⟨rfl, next, hnext, others⟩ := follow_cons_eq_ok_iff.mp found
    have stepped := h.step (whole part (by simp)) hnext
    rw [List.foldl_cons, pushPart_reverse h.names]
    exact ih stepped (fun p hp => whole p (List.mem_cons_of_mem _ hp)) others

theorem whole (h : w.IsTrail l i) : ∀ x ∈ l, x ≠ "" ∧ '/' ∉ x.toList := by
  obtain ⟨n, names, rfl, hnames⟩ := h.names
  intro x hx
  rcases List.mem_append.mp hx with hx | hx
  · rw [(List.mem_replicate.mp hx).2]
    decide
  · exact ⟨(hnames x hx).nonempty, (hnames x hx).whole⟩

end IsTrail

theorem partsOf_intercalate (h : ∀ x ∈ l, x ≠ "" ∧ '/' ∉ x.toList) (nonempty : l ≠ []) :
    partsOf ("/".intercalate l) = l := by
  have cut : Path.parts ("/".intercalate l).toList = l.map String.toList := by
    rw [Path.parts, String.toList_intercalate]
    apply List.splitOn_intercalate
    · intro cs hcs
      obtain ⟨x, hx, rfl⟩ := List.mem_map.mp hcs
      exact (h x hx).2
    · simpa using nonempty
  rw [partsOf, cut, List.map_map]
  simp [Function.comp_def]

theorem intercalate_ne_empty (h : ∀ x ∈ l, x ≠ "" ∧ '/' ∉ x.toList) (nonempty : l ≠ []) :
    "/".intercalate l ≠ "" := by
  rw [Ne, Text.intercalate_eq_empty_iff (by decide) fun x hx => (h x hx).1]
  exact nonempty

/-- The path of a location. -/
def pathOf (l : Location) : String :=
  if l = [] then "." else "/".intercalate l

theorem IsTrail.find_pathOf (h : w.IsTrail l i) : w.find (pathOf l) = .ok (l, i) := by
  rw [pathOf]
  split
  next none =>
    subst none
    have here : i = .directory := by
      have reached := h.reached
      cases reached
      rfl
    rw [here]
    rfl
  next some =>
    rw [find_of_ne_empty (intercalate_ne_empty h.whole some), partsOf_intercalate h.whole some]
    exact h.reached

/-- A path that is not rooted leads to a location, and normalised it is the path of that location,
which leads to the same item. -/
theorem normalized_of_find (relative : Path.isRooted path = false)
    (h : w.find path = .ok (l, i)) :
    Path.normalized path = pathOf l ∧ w.find (pathOf l) = .ok (l, i) := by
  have hpath : path ≠ "" := by
    rintro rfl
    cases h
  rw [find_of_ne_empty hpath] at h
  have whole : ∀ p ∈ partsOf path, '/' ∉ p.toList := by
    intro p hp
    obtain ⟨cs, hcs, rfl⟩ := List.mem_map.mp hp
    rw [String.toList_ofList]
    exact Text.notMem_of_mem_splitOn hcs
  obtain ⟨trail, kept⟩ := (isTrail_start w).follow whole h
  refine ⟨?_, trail.find_pathOf⟩
  have root : Path.rootSlashes path.toList = "" := Path.rootSlashes_of_not_isRooted relative
  have names : ((partsOf path).foldl (Path.pushPart false) []).reverse = l := by
    rw [← l.reverse_reverse, ← kept]
    rfl
  have plain : Path.normalized path =
      if ("/".intercalate l).isEmpty then "." else "/".intercalate l := by
    have unrooted : (!"".isEmpty) = false := rfl
    rw [← names]
    simp only [Path.normalized, root, unrooted, String.empty_append, partsOf]
    rfl
  rw [plain, pathOf]
  cases l with
  | nil => rfl
  | cons x xs =>
    have nonempty := intercalate_ne_empty trail.whole (List.cons_ne_nil x xs)
    rw [if_neg (by simpa using nonempty), if_neg (List.cons_ne_nil x xs)]

end Workspace

end TagOutline
